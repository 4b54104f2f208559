import Keybinds.Proofs.Migration.Passes
import Keybinds.Proofs.Version

/-!
# Normal documents

A document is normal when it is canonical, of the current version or a later one, and without a
mode. Normalization leaves such a document as it is and counts nothing (`normalize_of_isNormal`).
-/

namespace Keybinds.Migration

open Stored (Commands AliasEntry Build Document)

/-! ## Documents that stay as they are -/

theorem Step.lt_current_of_lt_version {v : Version} {step : Step} (h : v < step.version) :
    v < Version.current := by
  rw [Version.lt_iff] at h ⊢
  cases step <;> simp [Step.version, Version.current] at h ⊢ <;> omega

theorem Step.pending_eq_nil {v : Version} (h : ¬ v < Version.current) : Step.pending v = [] := by
  unfold Step.pending
  rw [List.filter_eq_nil_iff]
  intro step _ hstep
  exact h (Step.lt_current_of_lt_version (of_decide_eq_true hstep))

/-- A document that is not of an earlier version names the version that it is read as. -/
theorem exists_version {d : Document} (h : ¬ readAs d < Version.current) :
    ∃ v, d.version.bind Version.read? = some v ∧ ¬ v < Version.current := by
  unfold readAs at h
  cases hread : d.version.bind Version.read? with
  | none =>
    rw [hread] at h
    exact absurd (by decide) h
  | some v =>
    rw [hread] at h
    exact ⟨v, rfl, h⟩

/-- A canonical document without a mode is in canonical shape already. -/
theorem canonicalize_eq_self {d : Document} (hcanonical : d.isCanonical = true)
    (hmode : d.mode = none) : canonicalize d = d := by
  obtain ⟨hkeys, hchains, hentries⟩ := Document.isCanonical_iff.1 hcanonical
  have hbuilds : d.builds.map canonicalBuild = d.builds := by
    refine Dict.map_eq_self fun b hb => ?_
    unfold canonicalBuild
    rw [Dict.map_eq_self fun c hc => Commands.canonicalized_of_isCanonical (hchains b hb c hc)]
  have haliases : d.aliases.map AliasEntry.canonicalized = d.aliases :=
    Dict.map_eq_self fun a ha => AliasEntry.canonicalized_of_isCanonical (hentries a ha)
  unfold canonicalize
  rw [liftKeys_eq_self hkeys hmode, canonicalLists_eq, hbuilds, haliases]

theorem hasLooseLists_eq_false_iff {d : Document} :
    hasLooseLists d = false ↔
      (∀ b ∈ d.builds.values, ∀ c ∈ b.keys.values, c.isCanonical = true) ∧
      ∀ a ∈ d.aliases.values, a.isCanonical = true := by
  unfold hasLooseLists
  simp only [Bool.or_eq_false_iff, List.any_eq_false, List.any_eq_true, Bool.not_eq_true',
    Bool.not_eq_false, not_exists, not_and]

/-- The step says that nothing changes just of canonical documents without a mode. -/
theorem canonicalizeChanges_eq_false_iff {d : Document} :
    canonicalizeChanges d = false ↔ d.isCanonical = true ∧ d.mode = none := by
  unfold canonicalizeChanges
  rw [Bool.or_eq_false_iff, Bool.or_eq_false_iff, Option.isSome_eq_false_iff,
    Option.isSome_eq_false_iff, Option.isNone_iff_eq_none, Option.isNone_iff_eq_none,
    Document.isCanonical_iff]
  constructor
  · rintro ⟨⟨hkeys, hmode⟩, hlists⟩
    rw [liftKeys_eq_self hkeys hmode] at hlists
    exact ⟨⟨hkeys, hasLooseLists_eq_false_iff.1 hlists⟩, hmode⟩
  · rintro ⟨⟨hkeys, hlists⟩, hmode⟩
    rw [liftKeys_eq_self hkeys hmode]
    exact ⟨⟨hkeys, hmode⟩, hasLooseLists_eq_false_iff.2 hlists⟩

/-- Canonical, up to date and without a mode. -/
structure IsNormal (d : Document) : Prop where
  canonical : d.isCanonical = true
  mode : d.mode = none
  version : ∃ v, d.version.bind Version.read? = some v ∧ ¬ v < Version.current

namespace IsNormal

variable {d : Document}

theorem not_readAs_lt (h : IsNormal d) : ¬ readAs d < Version.current := by
  obtain ⟨v, hv, hlt⟩ := h.version
  unfold readAs
  rwa [hv]

end IsNormal

/-! ## Nothing to count -/

/-- Counted as canonical, with a command list that is. -/
def Entry.IsSettled (e : Entry) : Prop :=
  e.canonical = true ∧ ∃ c, e.commands = some c ∧ c.isCanonical = true

def AllSettled (found : Dict Entry) : Prop := ∀ e ∈ found.entries, e.2.IsSettled

theorem tallyEntry_self (id : String) {e : Entry} (h : e.IsSettled) :
    tallyEntry id e (some e) = {} := by
  obtain ⟨canonical, commands⟩ := e
  obtain ⟨hcanonical, c, hc, hsame⟩ := h
  cases hcanonical
  cases hc
  simp [tallyEntry, sameCommands, Commands.same_self hsame]

theorem Tally.sum_eq_zero {tallies : List Tally} (h : ∀ t ∈ tallies, t = {}) :
    sum tallies = {} := by
  unfold sum
  refine List.foldlRecOn (motive := fun t : Tally => t = ({} : Tally)) tallies add rfl ?_
  rintro t rfl u hu
  rw [h u hu]
  rfl

namespace IsNormal

variable {d : Document}

theorem isSettled_entries (h : IsNormal d) : AllSettled (entries d) := by
  obtain ⟨hkeys, hchains, hentries⟩ := Document.isCanonical_iff.1 h.canonical
  have hlifted : (d.keys.getD ∅).entries = [] := by
    rw [hkeys]
    rfl
  have hempty : AllSettled ∅ := by simp [AllSettled]
  unfold entries
  simp only [hlifted, List.foldl_nil]
  refine List.foldlRecOn (motive := AllSettled) d.aliases.entries _
    (List.foldlRecOn (motive := AllSettled) d.builds.entries _ hempty ?_) ?_
  · rintro found hfound ⟨environment, b⟩ hb
    refine List.foldlRecOn (motive := AllSettled) b.keys.entries _ hfound ?_
    rintro found hfound ⟨key, c⟩ hc
    have hcanonical : c.isCanonical = true :=
      hchains b (Dict.mem_values_iff.2 ⟨_, hb⟩) c (Dict.mem_values_iff.2 ⟨_, hc⟩)
    exact Dict.forall_insert hfound ⟨hcanonical, c, rfl, hcanonical⟩
  · rintro found hfound ⟨name, a⟩ ha
    have hcanonical := hentries a (Dict.mem_values_iff.2 ⟨_, ha⟩)
    obtain ⟨r, rfl, hr⟩ := AliasEntry.isCanonical_iff.1 hcanonical
    exact Dict.forall_insert hfound ⟨hcanonical, r.commands, rfl, hr⟩

theorem tally_self (h : IsNormal d) : tally d d = {} := by
  unfold tally
  refine Tally.sum_eq_zero ?_
  rw [List.forall_mem_map]
  rintro ⟨id, e⟩ he
  show tallyEntry id e ((entries d).get? id) = {}
  rw [Dict.get?_eq_some_iff.2 he]
  exact tallyEntry_self id (h.isSettled_entries _ he)

end IsNormal

/-- A normal document is left as it is, and nothing is counted. -/
theorem normalize_of_isNormal (now : String) {d : Document} (h : IsNormal d) :
    (normalize now d).document = d ∧ (normalize now d).report.changed = false ∧
      (normalize now d).report.tally = {} := by
  have hpending : Step.pending (readAs d) = [] := Step.pending_eq_nil h.not_readAs_lt
  have hchanged : (normalize now d).report.changed = false := by
    show (runChanges (Step.pending (readAs d)) d ||
      canonicalizeChanges (run (Step.pending (readAs d)) d)) = false
    rw [hpending]
    exact canonicalizeChanges_eq_false_iff.2 ⟨h.canonical, h.mode⟩
  have hdocument : (normalize now d).document = d := by
    show ({ canonicalize (run (Step.pending (readAs d)) d) with
      version := versionTag (readAs d) (canonicalize (run (Step.pending (readAs d)) d)).version
      lastModified := if (normalize now d).report.changed then some now
        else (canonicalize (run (Step.pending (readAs d)) d)).lastModified } : Document) = d
    rw [hpending, hchanged]
    show ({ canonicalize d with
      version := versionTag (readAs d) (canonicalize d).version } : Document) = d
    rw [canonicalize_eq_self h.canonical h.mode]
    unfold versionTag
    rw [if_neg h.not_readAs_lt]
  refine ⟨hdocument, hchanged, ?_⟩
  show tally d (normalize now d).document = {}
  rw [hdocument]
  exact h.tally_self

theorem needsNormalization_of_isNormal {d : Document} (h : IsNormal d) :
    needsNormalization d = false := by
  obtain ⟨v, hv, hlt⟩ := h.version
  unfold needsNormalization
  rw [hv, h.mode, h.canonical]
  simp [hlt]

end Keybinds.Migration
