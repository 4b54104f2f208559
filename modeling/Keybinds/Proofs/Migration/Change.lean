import Keybinds.Proofs.Migration.Contract

/-!
# What the report says about changes

The report says that a document was changed just if a step finds something to do
(`changed_eq_false_iff`). A document of which it says so is another one, also up to the order of
entries and members (`leftAlone_of_same`). Of the others one thing can change in silence: the step
that removes generated aliases also removes the flags of aliases that are not there, and does not
say so. With no such flags the report tells the truth, and only then (`tellsTruth_iff`).
-/

namespace Keybinds.Migration

open Stored (Commands AliasEntry Build Document)

variable {now : String} {d : Document}

/-! ## Steps that say that nothing changes -/

/-- The document with other flags of aliases; at most these a step changes in silence. -/
def withAliasFlags (d : Document) (flags : Dict Stored.Flags) : Document :=
  { d with aliasFlags := flags }

/-- No step looks at the flags of aliases to tell whether it changes something. -/
theorem changes_withAliasFlags (step : Step) (d : Document) (flags : Dict Stored.Flags) :
    step.changes (withAliasFlags d flags) = step.changes d := by
  cases step with
  | canonicalCommands => rcases d with ⟨_, _, _, _, _ | keys, _⟩ <;> rfl
  | dropGenerated => rfl
  | mendLoaders => rfl

theorem dropGeneratedChanges_eq_false_iff :
    dropGeneratedChanges d = false ↔ ∀ e ∈ d.aliases.entries, isGenerated e.1 e.2 = false := by
  unfold dropGeneratedChanges
  simp only [List.any_eq_false, Bool.not_eq_true]

theorem mendLoadersChanges_eq_false_iff :
    mendLoadersChanges d = false ↔ ∀ e ∈ d.aliases.entries, needsMending e.1 e.2 = false := by
  unfold mendLoadersChanges
  simp only [List.any_eq_false, Bool.not_eq_true]

theorem mendAlias_eq_self {name : String} {a : AliasEntry} (h : needsMending name a = false) :
    mendAlias name a = a := by
  cases a with
  | bare c => rfl
  | malformed value => rfl
  | record r =>
    show (if isLoaderName name = true then AliasEntry.record _ else _) = _
    change (isLoaderName name && commandsMisspelled r.commands) = false at h
    split_ifs with hname
    · rw [hname, Bool.true_and] at h
      rw [mendCommands_eq_self_iff.2 h]
    · rfl

/-- A step that says that nothing changes changes flags of aliases at most. -/
theorem exists_apply_eq {step : Step} (h : step.changes d = false) :
    ∃ flags, step.apply d = withAliasFlags d flags := by
  cases step with
  | canonicalCommands =>
    obtain ⟨hcanonical, hmode⟩ := canonicalizeChanges_eq_false_iff.1 h
    exact ⟨d.aliasFlags, canonicalize_eq_self hcanonical hmode⟩
  | dropGenerated =>
    have haliases : d.aliases.filter (fun name a => !isGenerated name a) = d.aliases :=
      Dict.filter_eq_self_iff.2 fun e he => by
        rw [dropGeneratedChanges_eq_false_iff.1 h e he]
        rfl
    refine ⟨(dropGenerated d).aliasFlags, ?_⟩
    show ({ d with
      aliases := d.aliases.filter fun name a => !isGenerated name a
      aliasFlags := (dropGenerated d).aliasFlags } : Document) = _
    rw [haliases]
    rfl
  | mendLoaders =>
    have haliases : d.aliases.mapWithKey mendAlias = d.aliases :=
      Dict.mapWithKey_eq_self fun e he =>
        mendAlias_eq_self (mendLoadersChanges_eq_false_iff.1 h e he)
    refine ⟨d.aliasFlags, ?_⟩
    show ({ d with aliases := d.aliases.mapWithKey mendAlias } : Document) = _
    rw [haliases]
    rfl

/-- A run changes nothing, as it says, if no step does so on its own. -/
theorem runChanges_eq_false_iff {steps : List Step} :
    runChanges steps d = false ↔ ∀ step ∈ steps, step.changes d = false := by
  induction steps generalizing d with
  | nil => simp [runChanges]
  | cons step steps ih =>
    show (step.changes d || runChanges steps (step.apply d)) = false ↔ _
    rw [Bool.or_eq_false_iff, List.forall_mem_cons]
    refine and_congr_right fun hstep => ?_
    obtain ⟨flags, happly⟩ := exists_apply_eq hstep
    rw [ih, happly]
    simp only [changes_withAliasFlags]

theorem exists_run_eq {steps : List Step} (h : runChanges steps d = false) :
    ∃ flags, run steps d = withAliasFlags d flags := by
  induction steps generalizing d with
  | nil => exact ⟨d.aliasFlags, rfl⟩
  | cons step steps ih =>
    obtain ⟨hstep, hsteps⟩ := Bool.or_eq_false_iff.1 h
    obtain ⟨flags, happly⟩ := exists_apply_eq hstep
    obtain ⟨flags', hrun⟩ := ih hsteps
    rw [happly] at hrun
    refine ⟨flags', ?_⟩
    show run steps (step.apply d) = _
    rw [happly, hrun]
    rfl

/-! ## Documents that are left alone -/

/-- Whether there is nothing to do for the steps that are due, nor for the last look at the
shapes. -/
structure LeftAlone (d : Document) : Prop where
  canonical : d.isCanonical = true
  mode : d.mode = none
  generated : ∀ e ∈ d.aliases.entries, isRemoved (readAs d) e.1 e.2 = false
  loaders : readAs d < Step.mendLoaders.version →
    ∀ e ∈ d.aliases.entries, needsMending e.1 e.2 = false

theorem forall_pending_iff {v : Version} {p : Step → Prop} :
    (∀ step ∈ Step.pending v, p step) ↔ ∀ step, v < step.version → p step := by
  unfold Step.pending
  simp only [List.mem_filter, decide_eq_true_eq, and_imp]
  refine forall_congr' fun step => ?_
  have hall : step ∈ Step.all := by cases step <;> decide
  exact ⟨fun h => h hall, fun h _ => h⟩

/-- The report says that nothing changes just of documents that are left alone. -/
theorem changed_eq_false_iff (now : String) (d : Document) :
    (normalize now d).report.changed = false ↔ LeftAlone d := by
  have hlast : runChanges (Step.pending (readAs d)) d = false →
      canonicalizeChanges (run (Step.pending (readAs d)) d) = canonicalizeChanges d := by
    intro h
    obtain ⟨flags, hrun⟩ := exists_run_eq h
    rw [hrun]
    exact changes_withAliasFlags .canonicalCommands d flags
  show (runChanges (Step.pending (readAs d)) d ||
    canonicalizeChanges (run (Step.pending (readAs d)) d)) = false ↔ _
  rw [Bool.or_eq_false_iff]
  constructor
  · rintro ⟨hsteps, hshapes⟩
    rw [hlast hsteps] at hshapes
    rw [runChanges_eq_false_iff, forall_pending_iff] at hsteps
    obtain ⟨hcanonical, hmode⟩ := canonicalizeChanges_eq_false_iff.1 hshapes
    refine ⟨hcanonical, hmode, fun e he => ?_, fun hlt => ?_⟩
    · unfold isRemoved
      by_cases hlt : readAs d < Step.dropGenerated.version
      · rw [dropGeneratedChanges_eq_false_iff.1 (hsteps .dropGenerated hlt) e he, Bool.and_false]
      · rw [decide_eq_false hlt, Bool.false_and]
    · exact mendLoadersChanges_eq_false_iff.1 (hsteps .mendLoaders hlt)
  · intro h
    have hshapes := canonicalizeChanges_eq_false_iff.2 ⟨h.canonical, h.mode⟩
    have hsteps : runChanges (Step.pending (readAs d)) d = false := by
      rw [runChanges_eq_false_iff, forall_pending_iff]
      intro step hlt
      cases step with
      | canonicalCommands => exact hshapes
      | dropGenerated =>
        refine dropGeneratedChanges_eq_false_iff.2 fun e he => ?_
        have hkept := h.generated e he
        unfold isRemoved at hkept
        rwa [decide_eq_true hlt, Bool.true_and] at hkept
      | mendLoaders => exact mendLoadersChanges_eq_false_iff.2 (h.loaders hlt)
    exact ⟨hsteps, (hlast hsteps).trans hshapes⟩

/-- A document that is left alone keeps all but its version and flags of aliases. -/
theorem LeftAlone.document (h : LeftAlone d) (now : String) :
    (normalize now d).document = { d with
      version := (normalize now d).document.version
      aliasFlags := (normalize now d).document.aliasFlags } := by
  have hchanged := (changed_eq_false_iff now d).2 h
  have hshaped : ∃ flags, canonicalize (run (Step.pending (readAs d)) d) =
      withAliasFlags d flags := by
    obtain ⟨flags, hrun⟩ := exists_run_eq (Bool.or_eq_false_iff.1 hchanged).1
    refine ⟨flags, ?_⟩
    rw [hrun]
    exact canonicalize_eq_self h.canonical h.mode
  obtain ⟨flags, hshaped⟩ := hshaped
  have hdocument : (normalize now d).document = { withAliasFlags d flags with
      version := (normalize now d).document.version } := by
    show ({ canonicalize (run (Step.pending (readAs d)) d) with
      version := (normalize now d).document.version
      lastModified := if (normalize now d).report.changed then some now
        else (canonicalize (run (Step.pending (readAs d)) d)).lastModified } : Document) = _
    rw [hchanged, hshaped]
    rfl
  rw [hdocument]
  rfl

/-! ## Lists that are changed -/

/-- What becomes of a list is a list of commands, which weigh no more than those that it gives. -/
theorem exists_commandsBehind_eq (v : Version) (mended : Bool) (c : Commands) :
    ∃ chain, commandsBehind v mended c = .ofChain chain ∧
      Chain.weight chain ≤ Chain.weight c.commands := by
  have hfirst : Chain.weight
      (if v < Step.canonicalCommands.version then c.canonicalized else c).commands ≤
        Chain.weight c.commands := by
    split_ifs
    · rw [Commands.commands_canonicalized]
      exact Chain.weight_flatMap_split_le c.commands
    · exact Nat.le_refl _
  unfold commandsBehind
  refine ⟨_, Commands.canonicalized_eq_ofChain _, ?_⟩
  cases mended with
  | false => exact hfirst
  | true => exact Nat.le_trans (Nat.le_of_eq (weight_commands_mendCommands _)) hfirst

/-- What becomes of a list that is not canonical is another list, also where it is cut twice or
mended: it weighs no more than the commands of the list, which weigh less than the list. -/
theorem isCanonical_of_commandsBehind_same {v : Version} {mended : Bool} {c : Commands}
    (h : (commandsBehind v mended c).same c = true) : c.isCanonical = true := by
  obtain ⟨chain, hbehind, hweight⟩ := exists_commandsBehind_eq v mended c
  rw [hbehind, Commands.ofChain_same_iff] at h
  subst h
  rw [Commands.commands_ofChain] at hweight
  rw [Commands.isCanonical_ofChain_iff]
  intro s hs
  by_contra hloose
  rw [Bool.not_eq_true] at hloose
  exact absurd hweight (Nat.not_le.2 (Chain.weight_flatMap_split_lt hs hloose))

theorem commandsMisspelled_of_commandsBehind_same {v : Version} {c : Commands}
    (h : (commandsBehind v true c).same c = true) : commandsMisspelled c = false := by
  have hcanonical := isCanonical_of_commandsBehind_same h
  rw [commandsBehind_of_isCanonical v true hcanonical, if_pos rfl] at h
  obtain ⟨chain, rfl, -⟩ := Commands.isCanonical_iff.1 hcanonical
  rw [mendCommands_ofChain, Commands.ofChain_same_iff] at h
  rw [← mendCommands_eq_self_iff, mendCommands_ofChain]
  exact h.symm

theorem commandsBehind_same_of_eq {v : Version} {mended : Bool} {c : Commands}
    (h : commandsBehind v mended c = c) : (commandsBehind v mended c).same c = true := by
  obtain ⟨chain, hbehind, -⟩ := exists_commandsBehind_eq v mended c
  rw [hbehind] at h ⊢
  exact Commands.ofChain_same_iff.2 h.symm

/-! ## Aliases that are changed -/

theorem exists_record_of_aliasBehind_same {v : Version} {name : String} {a : AliasEntry}
    (h : (aliasBehind v name a).same a = true) :
    ∃ r, a = .record r ∧
      (commandsBehind v (isMended v name a) r.commands).same r.commands = true := by
  cases a with
  | record r =>
    unfold aliasBehind AliasEntry.same AliasEntry.toRecord Stored.AliasRecord.same at h
    simp only [Bool.and_eq_true] at h
    exact ⟨r, rfl, h.1.1.1⟩
  | bare c => cases h
  | malformed value => cases h

theorem exists_record_of_aliasBehind_eq {v : Version} {name : String} {a : AliasEntry}
    (h : aliasBehind v name a = a) :
    ∃ r, a = .record r ∧
      (commandsBehind v (isMended v name a) r.commands).same r.commands = true := by
  cases a with
  | record r =>
    have hcommands := congrArg Stored.AliasRecord.commands (AliasEntry.record.inj h)
    exact ⟨r, rfl, commandsBehind_same_of_eq hcommands⟩
  | bare c => cases h
  | malformed value => cases h

/-! ## Documents that are changed -/

/-- A document is left alone if no mode, keys or alias is gone and no list has become another. -/
theorem leftAlone_of_lists (hmode : d.mode = none) (hkeys : d.keys = none)
    (hbuilds : ∀ b ∈ d.builds.values, ∀ c ∈ b.keys.values,
      (commandsBehind (readAs d) false c).same c = true)
    (hkept : (d.aliases.filter fun name a => !isRemoved (readAs d) name a) = d.aliases)
    (haliases : ∀ e ∈ d.aliases.entries, ∃ r, e.2 = .record r ∧
      (commandsBehind (readAs d) (isMended (readAs d) e.1 e.2) r.commands).same r.commands = true) :
    LeftAlone d where
  canonical := by
    refine Document.isCanonical_iff.2 ⟨hkeys, fun b hb c hc => ?_, fun a ha => ?_⟩
    · exact isCanonical_of_commandsBehind_same (hbuilds b hb c hc)
    · obtain ⟨name, he⟩ := Dict.mem_values_iff.1 ha
      obtain ⟨r, hr, hsame⟩ := haliases _ he
      exact AliasEntry.isCanonical_iff.2 ⟨r, hr, isCanonical_of_commandsBehind_same hsame⟩
  mode := hmode
  generated e he := by
    rw [← Bool.not_eq_true']
    exact Dict.filter_eq_self_iff.1 hkept e he
  loaders hlt e he := by
    obtain ⟨r, hr, hsame⟩ := haliases e he
    rw [hr] at hsame ⊢
    show (isLoaderName e.1 && commandsMisspelled r.commands) = false
    by_cases hname : isLoaderName e.1 = true
    · have hmended : isMended (readAs d) e.1 (.record r) = true := by
        unfold isMended
        rw [decide_eq_true hlt, hname]
        exact Bool.or_true _
      rw [hmended] at hsame
      rw [commandsMisspelled_of_commandsBehind_same hsame, Bool.and_false]
    · rw [Bool.not_eq_true] at hname
      rw [hname, Bool.false_and]

/-- A document with the version and the time of another. -/
def restamped (out d : Document) : Document :=
  { out with version := d.version, lastModified := d.lastModified }

theorem builds_restamped (out d : Document) : (restamped out d).builds = out.builds := rfl

theorem aliases_restamped (out d : Document) : (restamped out d).aliases = out.aliases := rfl

theorem same_restamped {out : Document} (h : out.same d = true) :
    out.version = d.version ∧ (restamped out d).same d = true := by
  unfold Document.same at h ⊢
  simp only [Bool.and_eq_true, beq_iff_eq] at h
  simp [restamped, h]

/-- A document that is not left alone becomes another one, whatever the order of entries and
members. -/
theorem leftAlone_of_same (h : (restamped (normalize now d).document d).same d = true) :
    LeftAlone d := by
  unfold Document.same restamped at h
  simp only [Bool.and_eq_true, beq_iff_eq, mode_normalize, keys_normalize] at h
  obtain ⟨⟨⟨⟨⟨⟨⟨⟨⟨⟨-, hmode⟩, -⟩, -⟩, -⟩, hkeys⟩, hbuilds⟩, haliases⟩, -⟩, -⟩, -⟩ := h
  have hkeys : d.keys = none := by
    cases hd : d.keys with
    | none => rfl
    | some keys =>
      rw [hd] at hkeys
      cases hkeys
  rw [builds_normalize, liftKeys_eq_self hkeys hmode.symm] at hbuilds
  rw [aliases_normalize] at haliases
  have hkept := Dict.filter_eq_self_of_size
    ((Dict.size_mapWithKey _ _).symm.trans (Dict.size_eq_of_sameBy haliases))
  rw [hkept] at haliases
  refine leftAlone_of_lists hmode.symm hkeys ?_ hkept ?_
  · intro b hb c hc
    have hbuild := Dict.same_of_sameBy_map hbuilds hb
    rw [Bool.and_eq_true] at hbuild
    exact Dict.same_of_sameBy_map hbuild.1 hc
  · intro e he
    exact exists_record_of_aliasBehind_same (Dict.same_of_sameBy_mapWithKey haliases he)

theorem leftAlone_of_eq (h : restamped (normalize now d).document d = d) : LeftAlone d := by
  have hmode : d.mode = none := (congrArg Document.mode h).symm.trans (mode_normalize now d)
  have hkeys : d.keys = none := (congrArg Document.keys h).symm.trans (keys_normalize now d)
  have hbuilds := congrArg Document.builds h
  have haliases := congrArg Document.aliases h
  rw [builds_restamped, builds_normalize, liftKeys_eq_self hkeys hmode] at hbuilds
  rw [aliases_restamped, aliases_normalize] at haliases
  have hkept := Dict.filter_eq_self_of_size
    ((Dict.size_mapWithKey _ _).symm.trans (congrArg Dict.size haliases))
  rw [hkept] at haliases
  refine leftAlone_of_lists hmode hkeys ?_ hkept ?_
  · intro b hb c hc
    have hbuild := congrArg Build.keys (Dict.eq_of_map_eq_self hbuilds hb)
    exact commandsBehind_same_of_eq (Dict.eq_of_map_eq_self hbuild hc)
  · intro e he
    exact exists_record_of_aliasBehind_eq (Dict.eq_of_mapWithKey_eq_self haliases he)

/-! ## The truth -/

/-- What the report promises: it says "changed" just of a document that becomes another in more
than its version and time. Such a document gets the time, and of any other only the version
changes. -/
structure TellsTruth (now : String) (d : Document) : Prop where
  changed_iff : (normalize now d).report.changed = true ↔ restamped (normalize now d).document d ≠ d
  stamped : (normalize now d).report.changed = true →
    (normalize now d).document.lastModified = some now
  kept : (normalize now d).report.changed = false →
    (normalize now d).document = { d with version := (normalize now d).document.version }

/-- Whether flags are removed and nothing else: of aliases that are not there, in a document from
before the removal of generated aliases that is left alone otherwise. -/
def DropsFlagsSilently (d : Document) : Prop :=
  LeftAlone d ∧ readAs d < Step.dropGenerated.version ∧
    ∃ name ∈ d.aliasFlags.keys, name ∉ d.aliases.keys

theorem lastModified_normalize (h : (normalize now d).report.changed = true) :
    (normalize now d).document.lastModified = some now :=
  if_pos h

theorem LeftAlone.aliases (h : LeftAlone d) (now : String) :
    (normalize now d).document.aliases = d.aliases := by
  rw [h.document now]

/-- The flags of a document that is left alone are kept, unless some are of aliases that are not
there. -/
theorem LeftAlone.aliasFlags_eq_iff (h : LeftAlone d) (now : String) :
    (normalize now d).document.aliasFlags = d.aliasFlags ↔ ¬ DropsFlagsSilently d := by
  rw [aliasFlags_normalize, h.aliases]
  unfold DropsFlagsSilently
  split_ifs with hlt
  · rw [Dict.filter_eq_self_iff]
    simp only [h, hlt, true_and, not_exists, not_and, not_not, Dict.contains_iff]
    show (∀ e ∈ d.aliasFlags.entries, _) ↔ ∀ name ∈ d.aliasFlags.entries.map Prod.fst, _
    rw [List.forall_mem_map]
  · exact iff_of_true rfl fun hdrops => hlt hdrops.2.1

/-- The report tells the truth just of documents that are not deprived of flags in silence. It
always tells the truth where it says that a document is changed; where it does not, only flags of
aliases may be gone. -/
theorem tellsTruth_iff (now : String) (d : Document) :
    (TellsTruth now d ↔ ¬ DropsFlagsSilently d) ∧
      ((normalize now d).report.changed = true →
        (restamped (normalize now d).document d).same d = false ∧
          (normalize now d).document.lastModified = some now) ∧
      ((normalize now d).report.changed = false →
        (normalize now d).document = { d with
          version := (normalize now d).document.version
          aliasFlags := (normalize now d).document.aliasFlags }) := by
  have hdiffers : (normalize now d).report.changed = true → ¬ LeftAlone d := by
    intro hchanged hleft
    rw [(changed_eq_false_iff now d).2 hleft] at hchanged
    cases hchanged
  refine ⟨⟨fun h hdrops => ?_, fun h => ?_⟩, fun hchanged => ⟨?_, lastModified_normalize hchanged⟩,
    fun hchanged => ((changed_eq_false_iff now d).1 hchanged).document now⟩
  · have hkept := h.kept ((changed_eq_false_iff now d).2 hdrops.1)
    have hflags : (normalize now d).document.aliasFlags = d.aliasFlags := by rw [hkept]
    exact (hdrops.1.aliasFlags_eq_iff now).1 hflags hdrops
  · have hkept : (normalize now d).report.changed = false →
        (normalize now d).document = { d with version := (normalize now d).document.version } := by
      intro hchanged
      have hleft := (changed_eq_false_iff now d).1 hchanged
      have hdocument := hleft.document now
      rwa [(hleft.aliasFlags_eq_iff now).2 h] at hdocument
    refine ⟨⟨fun hchanged heq => hdiffers hchanged (leftAlone_of_eq heq), fun hne => ?_⟩,
      lastModified_normalize, hkept⟩
    by_contra hchanged
    rw [Bool.not_eq_true] at hchanged
    refine hne ?_
    rw [hkept hchanged]
    rfl
  · by_contra hsame
    rw [Bool.not_eq_false] at hsame
    exact hdiffers hchanged (leftAlone_of_same hsame)

/-- A document from before the removal of generated aliases, with the flag of one alias. -/
def flaggedDocument (aliases : Dict AliasEntry) : Document where
  aliases
  aliasFlags := Dict.ofList [("attack", ⟨true⟩)]
  version := some "2.0.0"

theorem tellsTruth_of_presentAlias :
    TellsTruth "2001-02-03"
      (flaggedDocument (Dict.ofList [("attack", .record { commands := .ofChain ["FireAll"] })])) :=
  (tellsTruth_iff _ _).1.2 fun hdrops => absurd hdrops.2.2 (by decide +kernel)

/-- The flag of an alias that is not there is gone, of which the report says nothing. -/
theorem not_tellsTruth_of_strayFlag : ¬ ∀ now d, TellsTruth now d := by
  intro h
  have hchanged : (normalize "2001-02-03" (flaggedDocument ∅)).report.changed = false := by
    decide +kernel
  have hkept := (h "2001-02-03" (flaggedDocument ∅)).kept hchanged
  have hkeys := congrArg (fun d => d.aliasFlags.keys) hkept
  exact absurd hkeys (by decide +kernel)

end Keybinds.Migration
