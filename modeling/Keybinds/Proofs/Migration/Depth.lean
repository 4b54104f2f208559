import Keybinds.Proofs.Migration.Contract
import Keybinds.Proofs.Migration.Preservation
import Keybinds.Proofs.Stored.Documents

/-!
# Normalized documents are read again

A normalized document holds lists of plain commands, and of its other fields only what the document
held before, so it is read again from what it is written as if that document was.
-/

namespace Keybinds.Migration

open Stored (Commands AliasEntry Build Document)

variable {depth : Nat}

theorem fits_commandsBehind (h : 0 < depth) (v : Version) (mended : Bool) (c : Commands) :
    (commandsBehind v mended c).Fits depth := by
  unfold commandsBehind
  rw [Commands.canonicalized_eq_ofChain]
  exact Commands.fits_ofChain h _

/-- Moving the top-level keys adds no unknown fields to a build. -/
theorem extra_of_mem_builds_liftKeys {d : Document} {b : Build}
    (hb : b ∈ (liftKeys d).builds.values) :
    b.extra = ∅ ∨ ∃ b' ∈ d.builds.values, b.extra = b'.extra := by
  cases hkeys : d.keys with
  | none =>
    rw [builds_liftKeys_of_none hkeys] at hb
    exact Or.inr ⟨b, hb, rfl⟩
  | some keys =>
    rw [builds_liftKeys_of_some hkeys] at hb
    rcases Dict.mem_values_alter hb with rfl | hb
    · cases hbuild : d.builds.get? (legacyEnvironment d) with
      | none => exact Or.inl rfl
      | some b' =>
        exact Or.inr ⟨b', Dict.mem_values_iff.2 ⟨_, Dict.get?_eq_some_iff.1 hbuild⟩, rfl⟩
    · exact Or.inr ⟨b, hb, rfl⟩

/-- Five containers leave room for the lists of a build. -/
theorem fits_normalize (now : String) (hdepth : 5 ≤ depth) {d : Document} (h : d.Fits depth) :
    (normalize now d).document.Fits depth := by
  have hextra : (normalize now d).document.extra = d.extra := (sameFrame_shaped (readAs d) d).extra
  refine ⟨?_, ?_, ?_, hextra ▸ h.extra, hextra ▸ h.unknown⟩
  · rw [keys_normalize]
    exact nofun
  · rw [builds_normalize, Dict.values_map, List.forall_mem_map]
    intro b hb
    have hfit : (∀ v ∈ b.extra.values, v.Fits (depth - 2 - 1)) ∧
        ∀ name ∈ b.extra.keys, name ∉ ["keys"] := by
      rcases extra_of_mem_builds_liftKeys hb with hempty | ⟨b', hb', heq⟩
      · rw [hempty]
        exact ⟨fun v hv => absurd hv List.not_mem_nil,
          fun name hname => absurd hname List.not_mem_nil⟩
      · rw [heq]
        exact ⟨(h.builds b' hb').extra, (h.builds b' hb').unknown⟩
    refine ⟨?_, hfit.1, hfit.2⟩
    show Stored.KeysFit _ (b.keys.map _)
    unfold Stored.KeysFit
    rw [Dict.values_map, List.forall_mem_map]
    exact fun c _ => fits_commandsBehind (by omega) _ _ c
  · rw [aliases_normalize, Dict.values_mapWithKey, List.forall_mem_map]
    rintro ⟨name, a⟩ ha
    have hmem : a ∈ d.aliases.values := Dict.mem_values_iff.2 ⟨name, (List.mem_filter.1 ha).1⟩
    obtain ⟨n, hn⟩ : ∃ n, depth - 2 = n + 1 := ⟨depth - 3, by omega⟩
    have hfit := h.aliases a hmem
    rw [hn] at hfit ⊢
    exact hfit.withList (fits_commandsBehind (by omega) _ _ _)

end Keybinds.Migration
