import Keybinds.Proofs.Migration.Preservation

/-!
# Loaders that are spelled right

A text that is mended is spelled right behind it, and so are the commands that it is cut into. What
stays misspelled in a loader is what mending passes over. Before the first step that is nothing, for
the step makes every list one of texts in an object. Behind the first step it is a bare list, and an
object in a list (`unmended`): these are brought to canonical form by the last look at the shapes,
when mending is past (`loadersSpelledRight_normalize_iff`).
-/

namespace Keybinds.Migration

open Stored (Element Commands AliasEntry AliasRecord Document)

/-! ## Lists -/

/-- The commands of a list that mending does not reach. -/
def unmendedCommands : Commands → List String
  | .list items => items.flatMap fun
    | .plain _ => []
    | e => e.commands
  | _ => []

/-- The commands of a mended list are spelled right, but for those that mending does not reach. -/
theorem forall_mem_mendCommands_iff (c : Commands) :
    (∀ s ∈ (mendCommands c).commands, isMisspelled s = false) ↔
      ∀ s ∈ unmendedCommands c, isMisspelled s = false := by
  cases c with
  | text body =>
    refine iff_of_true (fun s hs => ?_) nofun
    exact isMisspelled_of_mem_split (isMisspelled_mend body) hs
  | malformed value => exact iff_of_true nofun nofun
  | list items =>
    show (∀ s ∈ (items.map mendElement).flatMap Element.commands, _) ↔
      ∀ s ∈ items.flatMap _, _
    rw [List.flatMap_map, List.forall_mem_flatMap, List.forall_mem_flatMap]
    refine forall₂_congr fun e _ => ?_
    cases e with
    | plain body =>
      refine iff_of_true (fun s hs => ?_) nofun
      exact isMisspelled_of_mem_split (isMisspelled_mend body) hs
    | rich fields => rfl
    | malformed value => rfl

/-- In a list of texts, mending reaches all commands. -/
theorem unmendedCommands_ofChain (chain : List String) :
    unmendedCommands (.ofChain chain) = [] := by
  show (chain.map Element.plain).flatMap _ = []
  rw [List.flatMap_map]
  exact List.flatMap_eq_nil_iff.2 fun _ _ => rfl

/-! ## Aliases -/

/-- Whether an alias is an object that lists texts, and all of these are spelled right. -/
def IsSpelledRight (a : AliasEntry) : Prop :=
  ∃ r chain, a = .record r ∧ r.commands = .ofChain chain ∧ ∀ s ∈ chain, isMisspelled s = false

theorem isSpelledRight_record_canonicalized_iff {r : AliasRecord} {c : Commands}
    (h : r.commands = c.canonicalized) :
    IsSpelledRight (.record r) ↔ ∀ s ∈ c.commands, isMisspelled s = false := by
  rw [Commands.canonicalized_eq_ofChain] at h
  constructor
  · rintro ⟨r', chain, hr, hchain, hright⟩
    obtain rfl := AliasEntry.record.inj hr
    rw [h] at hchain
    rwa [Commands.ofChain_inj.1 hchain]
  · intro hright
    exact ⟨r, c.commands, rfl, h, hright⟩

/-- The commands of an alias that mending passes over behind the first step: those of a bare list,
and those of objects in a list. -/
def unmended : AliasEntry → List String
  | .record r => unmendedCommands r.commands
  | .bare c => c.commands
  | .malformed _ => []

theorem isSpelledRight_aliasBehind_iff {v : Version} (hv : v < ⟨2, 1, 1⟩) {name : String}
    (hname : isLoaderName name = true) (a : AliasEntry) :
    IsSpelledRight (aliasBehind v name a) ↔
      v < ⟨2, 0, 0⟩ ∨ ∀ s ∈ unmended a, isMisspelled s = false := by
  have hv' : v < Step.mendLoaders.version := hv
  unfold aliasBehind
  rw [isSpelledRight_record_canonicalized_iff rfl]
  by_cases hfirst : v < ⟨2, 0, 0⟩
  · have hfirst' : v < Step.canonicalCommands.version := hfirst
    refine iff_of_true ?_ (.inl hfirst)
    have hmended : isMended v name a = true := by simp [isMended, hv', hname, hfirst']
    rw [if_pos hmended, if_pos hfirst', forall_mem_mendCommands_iff,
      Commands.canonicalized_eq_ofChain, unmendedCommands_ofChain]
    exact fun s hs => absurd hs List.not_mem_nil
  · have hfirst' : ¬ v < Step.canonicalCommands.version := hfirst
    have hmended : isMended v name a = a.record?.isSome := by
      simp [isMended, hv', hname, hfirst']
    rw [hmended, if_neg hfirst', or_iff_right hfirst]
    cases a with
    | record r => exact forall_mem_mendCommands_iff r.commands
    | bare c => rfl
    | malformed value => rfl

/-! ## Documents -/

/-- Every loader is an object that lists texts, and all of these are spelled right. -/
def LoadersSpelledRight (d : Document) : Prop :=
  ∀ e ∈ d.aliases.entries, isLoaderName e.1 = true → IsSpelledRight e.2

/-- The loaders of a normalized document are what becomes of those that are kept. -/
theorem loadersSpelledRight_normalize (now : String) (d : Document) :
    LoadersSpelledRight (normalize now d).document ↔
      ∀ e ∈ d.aliases.entries, isRemoved (readAs d) e.1 e.2 = false → isLoaderName e.1 = true →
        IsSpelledRight (aliasBehind (readAs d) e.1 e.2) := by
  unfold LoadersSpelledRight
  rw [aliases_normalize, Dict.entries_mapWithKey, List.forall_mem_map, Dict.entries_filter]
  simp only [List.mem_filter, Bool.not_eq_true', and_imp]

/-- The loaders of a normalized document that comes from before the last step are spelled right just
if it comes from before the first step, too, or its loaders that are kept have no misspelled command
that mending passes over. -/
theorem loadersSpelledRight_normalize_iff (now : String) {d : Document}
    (h : readAs d < ⟨2, 1, 1⟩) :
    LoadersSpelledRight (normalize now d).document ↔ readAs d < ⟨2, 0, 0⟩ ∨
      ∀ e ∈ d.aliases.entries, isLoaderName e.1 = true → isRemoved (readAs d) e.1 e.2 = false →
        ∀ s ∈ unmended e.2, isMisspelled s = false := by
  rw [loadersSpelledRight_normalize]
  by_cases hfirst : readAs d < ⟨2, 0, 0⟩
  · refine iff_of_true (fun e _ _ hname => ?_) (.inl hfirst)
    exact (isSpelledRight_aliasBehind_iff h hname e.2).2 (.inl hfirst)
  · rw [or_iff_right hfirst]
    refine forall₂_congr fun e _ =>
      ⟨fun hright hname hkept => ?_, fun hright hkept hname => ?_⟩
    · have hspelled := (isSpelledRight_aliasBehind_iff h hname e.2).1 (hright hkept hname)
      exact hspelled.resolve_left hfirst
    · exact (isSpelledRight_aliasBehind_iff h hname e.2).2 (.inr (hright hname hkept))

/-- A list of one object that gives the misspelled command. -/
def misspelledObject : Commands :=
  .list [.rich (Dict.ofList [("command", .string "bind_laod_file a.txt")])]

/-- The misspelled command is mended in a text and in a list of texts; a loader with the object is
removed by its tag, and the last alias is no loader. -/
theorem loadersSpelledRight_mixedLoaders :
    let d : Document :=
      { aliases := Dict.ofList
          [("sto_kb_bindset_enable_a", .record { commands := .text "A$$bind_laod_file a.txt" }),
            ("sto_kb_bindset_enable_b",
              .record { commands := .list [.plain "bind_laod_file b.txt", .plain "B $$ C"] }),
            ("sto_kb_bindset_enable_c",
              .record { commands := misspelledObject, tag := some vfxTag }),
            ("sto_kb_bindset_enable_", .bare misspelledObject)]
        version := some "2.0.0" }
    readAs d < ⟨2, 1, 1⟩ ∧ LoadersSpelledRight (normalize "2001-02-03" d).document := by
  intro d
  have hread : readAs d < ⟨2, 1, 1⟩ := by decide +kernel
  refine ⟨hread, (loadersSpelledRight_normalize_iff "2001-02-03" hread).2 (.inr ?_)⟩
  decide +kernel

/-- In an object, a loader's command stays misspelled behind the first step. -/
theorem not_loadersSpelledRight_of_object :
    ¬ ∀ now d, readAs d < ⟨2, 1, 1⟩ → LoadersSpelledRight (normalize now d).document := by
  intro h
  have hread : readAs (loaderDocument (.record { commands := misspelledObject })) < ⟨2, 1, 1⟩ := by
    decide +kernel
  have hright := (loadersSpelledRight_normalize "2001-02-03" _).1 (h _ _ hread)
    ("sto_kb_bindset_enable_a", .record { commands := misspelledObject })
    (List.mem_singleton.2 rfl) (by decide +kernel) (by decide +kernel)
  refine absurd ((isSpelledRight_aliasBehind_iff hread (by decide +kernel) _).1 hright) ?_
  decide +kernel

end Keybinds.Migration
