import Keybinds.Proofs.Migration.Contract

/-!
# The version of a normalized document

A document names its version in a text. Normalization raises the version to the current one and
writes it as a text again, unless it is as late already: then the text stays as it was
(`versionTag_of_not_lt`). What is written reads as the version that the report says the document is
brought to (`readAs_normalize`), so a second normalization has no steps before it and leaves the
text alone. `tagMovesForward_normalize` collects what the report and the text say of each other.
-/

namespace Keybinds.Migration

open Stored (Document)

/-! ## Steps before a version -/

theorem Step.mem_pending {v : Version} {step : Step} :
    step ∈ Step.pending v ↔ v < step.version := by
  have hall : step ∈ Step.all := by cases step <;> decide
  simp [Step.pending, hall]

/-- The steps come in the order of the versions that they lead to. -/
theorem Step.pairwise_pending (v : Version) :
    (Step.pending v).Pairwise fun a b => a.version < b.version := by
  have hall : Step.all.Pairwise fun a b => a.version < b.version := by decide
  exact hall.sublist List.filter_sublist

/-! ## Reading and writing the version -/

theorem readAs_of_names {d : Document} {tag : String} {v : Version} (htag : d.version = some tag)
    (h : Version.Names tag.toList v) : readAs d = v := by
  have hread : Version.read? tag = some v := Version.read?_eq_some_iff.2 h
  simp [readAs, htag, hread]

theorem readAs_of_forall_not_names {d : Document}
    (h : ∀ tag v, d.version = some tag → ¬ Version.Names tag.toList v) :
    readAs d = Version.unversioned := by
  unfold readAs
  cases hread : d.version.bind Version.read? with
  | none => rfl
  | some v =>
    obtain ⟨tag, htag, hv⟩ := Option.bind_eq_some_iff.1 hread
    exact absurd (Version.read?_eq_some_iff.1 hv) (h tag v htag)

theorem versionTag_of_not_lt {v : Version} (h : ¬ v < Version.current) (tag : Option String) :
    versionTag v tag = tag := if_neg h

/-- The text of a normalized document reads as the later one of its version and the current one. -/
theorem exists_tag_normalize (now : String) (d : Document) :
    ∃ tag, (normalize now d).document.version = some tag ∧
      Version.read? tag = some ((readAs d).later Version.current) := by
  rw [version_normalize]
  by_cases hlt : readAs d < Version.current
  · refine ⟨Version.current.text, if_pos hlt, ?_⟩
    rw [Version.later, if_pos hlt, Version.read?_text]
  · obtain ⟨v, hread, -⟩ := exists_version hlt
    obtain ⟨tag, htag, hv⟩ := Option.bind_eq_some_iff.1 hread
    have hsource : readAs d = v := readAs_of_names htag (Version.read?_eq_some_iff.1 hv)
    refine ⟨tag, by rw [versionTag_of_not_lt hlt, htag], ?_⟩
    rw [Version.later, if_neg hlt, hsource, hv]

/-- A normalized document is read as the version that the report says it is brought to. -/
theorem readAs_normalize (now : String) (d : Document) :
    readAs (normalize now d).document = (normalize now d).report.target := by
  obtain ⟨tag, htag, hread⟩ := exists_tag_normalize now d
  exact readAs_of_names htag (Version.read?_eq_some_iff.1 hread)

theorem not_target_lt_current (now : String) (d : Document) :
    ¬ (normalize now d).report.target < Version.current := by
  show ¬ (readAs d).later Version.current < Version.current
  rw [Version.lt_iff_triple, Version.triple_later, not_lt]
  exact le_max_right _ _

/-! ## Report and text -/

/-- What the report and the text of the version say of a document and of each other. -/
structure TagMovesForward (d : Document) (n : Normalized) : Prop where
  /-- The document is read as the version that its text names. -/
  named : ∀ tag v, d.version = some tag → Version.Names tag.toList v → n.report.source = v
  /-- Without a text, or with one that names no version, it counts as the first of all. -/
  unnamed : (∀ tag v, d.version = some tag → ¬ Version.Names tag.toList v) →
    n.report.source = ⟨0, 0, 0⟩
  target : n.report.target.triple = max n.report.source.triple (Version.triple ⟨2, 1, 1⟩)
  written : ∃ tag, n.document.version = some tag ∧ Version.read? tag = some n.report.target
  kept : Version.triple ⟨2, 1, 1⟩ ≤ n.report.source.triple → n.document.version = d.version
  /-- Just the steps to later versions were applied. -/
  mem_steps : ∀ step, step ∈ n.report.steps ↔ n.report.source.triple < step.version.triple
  oldestFirst : n.report.steps.Pairwise fun a b => a.version.triple < b.version.triple
  /-- Once more, there is no step to apply and no text to write. -/
  settled : ∀ later, (normalize later n.document).report.steps = [] ∧
    (normalize later n.document).document.version = n.document.version

/-- The version of a document only moves forward, in its text as in the report; and every version is
read back from its own text. -/
theorem tagMovesForward_normalize (now : String) (d : Document) :
    TagMovesForward d (normalize now d) ∧ ∀ v : Version, Version.read? v.text = some v := by
  refine ⟨?_, Version.read?_text⟩
  constructor
  case named => exact fun tag v htag h => readAs_of_names htag h
  case unnamed => exact readAs_of_forall_not_names
  case target => exact Version.triple_later (readAs d) Version.current
  case written => exact exists_tag_normalize now d
  case kept =>
    intro hle
    have hlt : ¬ readAs d < Version.current := by
      rw [Version.lt_iff_triple]
      exact not_lt.2 hle
    rw [version_normalize, versionTag_of_not_lt hlt]
  case mem_steps =>
    intro step
    rw [← Version.lt_iff_triple]
    exact Step.mem_pending
  case oldestFirst =>
    simp only [← Version.lt_iff_triple]
    exact Step.pairwise_pending (readAs d)
  case settled =>
    intro later
    have hlt : ¬ readAs (normalize now d).document < Version.current := by
      rw [readAs_normalize]
      exact not_target_lt_current now d
    exact ⟨Step.pending_eq_nil hlt, by rw [version_normalize, versionTag_of_not_lt hlt]⟩

end Keybinds.Migration
