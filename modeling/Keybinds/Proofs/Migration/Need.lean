import Keybinds.Proofs.Migration.Change

/-!
# When normalization is needed

`needsNormalization` only looks at a document; `normalize` runs the steps on it. The two agree
(`needsNormalization_iff`). The look says that nothing is needed exactly of normal documents
(`needsNormalization_eq_false_iff`), which normalization leaves as they are. Every other document is
changed (`isNormal_of_eq`), also up to the order of entries and members (`isNormal_of_same`): one of
an earlier version gets another version, and of the others only those that are left alone stay as
they are.
-/

namespace Keybinds.Migration

open Stored (Document)

variable {now : String} {d : Document}

/-! ## What the look sees -/

theorem needsNormalization_eq_false_iff : needsNormalization d = false ↔ IsNormal d := by
  constructor
  · intro h
    unfold needsNormalization at h
    rw [Bool.or_eq_false_iff, Bool.or_eq_false_iff, Bool.not_eq_false', Option.isSome_eq_false_iff,
      Option.isNone_iff_eq_none] at h
    obtain ⟨⟨hversion, hmode⟩, hcanonical⟩ := h
    refine ⟨hcanonical, hmode, ?_⟩
    cases hread : d.version.bind Version.read? with
    | none =>
      rw [hread] at hversion
      cases hversion
    | some v =>
      rw [hread] at hversion
      exact ⟨v, rfl, of_decide_eq_false hversion⟩
  · exact needsNormalization_of_isNormal

/-! ## What normalization changes -/

/-- A document that keeps its version is of no earlier version than the current one. -/
theorem not_readAs_lt_of_kept (h : (normalize now d).document.version = d.version) :
    ¬ readAs d < Version.current := by
  intro hlt
  rw [version_normalize] at h
  unfold versionTag at h
  rw [if_pos hlt] at h
  have hcurrent : readAs d = Version.current := by
    unfold readAs
    rw [← h]
    show (Version.read? Version.current.text).getD _ = _
    rw [Version.read?_text]
    rfl
  rw [hcurrent] at hlt
  exact absurd hlt (by decide)

theorem isNormal_of_leftAlone (h : LeftAlone d)
    (hversion : (normalize now d).document.version = d.version) : IsNormal d where
  canonical := h.canonical
  mode := h.mode
  version := exists_version (not_readAs_lt_of_kept hversion)

theorem isNormal_of_eq (h : (normalize now d).document = d) : IsNormal d := by
  have hsame : restamped (normalize now d).document d = d := by
    rw [h]
    rfl
  exact isNormal_of_leftAlone (leftAlone_of_eq hsame) (congrArg Document.version h)

/-- The order of entries and members hides no change. -/
theorem isNormal_of_same (h : (normalize now d).document.same d = true) : IsNormal d := by
  obtain ⟨hversion, hsame⟩ := same_restamped h
  exact isNormal_of_leftAlone (leftAlone_of_same hsame) hversion

/-- The look agrees with the run: a document needs normalization exactly if normalization changes
it. It is then changed also up to the order of entries and members. -/
theorem needsNormalization_iff (now : String) (d : Document) :
    (needsNormalization d = true ↔ (normalize now d).document ≠ d) ∧
      (needsNormalization d = true → (normalize now d).document.same d = false) := by
  constructor
  · rw [← not_iff_not, not_ne_iff, Bool.not_eq_true, needsNormalization_eq_false_iff]
    constructor
    · intro h
      exact (normalize_of_isNormal now h).1
    · exact isNormal_of_eq
  · intro h
    by_contra hsame
    rw [Bool.not_eq_false] at hsame
    rw [needsNormalization_of_isNormal (isNormal_of_same hsame)] at h
    cases h

/-- Top-level keys count also if there are none: their place is taken away. -/
theorem needsNormalization_of_noKeys :
    needsNormalization { keys := some ∅, version := some "2.1.1" } = true ∧
      (normalize "2001-02-03" { keys := some ∅, version := some "2.1.1" }).document.same
        { keys := some ∅, version := some "2.1.1" } = false :=
  have hneeds := by decide +kernel
  ⟨hneeds, (needsNormalization_iff _ _).2 hneeds⟩

end Keybinds.Migration
