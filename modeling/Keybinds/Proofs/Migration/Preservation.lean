import Keybinds.Proofs.Migration.Passes

/-!
# What normalization keeps

`Keeps` says what of a document is found again in another: fields as they were, the keys of every
environment in order with the top-level keys behind them, and the aliases that are not removed, with
canonical lists as they were or mended. A normalized document keeps its source in this sense, if
exactly those aliases are meant to be mended that are stored as objects when their turn comes. An
alias stored as a bare list in a document from behind the first step is passed over
(`keeps_normalize`).
-/

namespace Keybinds.Migration

open Stored (Commands AliasEntry Build Document)

/-! ## Keys -/

/-- The build of an environment; one that is not there is empty. -/
def buildOf (d : Document) (environment : String) : Build :=
  (d.builds.get? environment).getD {}

/-- The keys of an environment: those of its build, and behind them the top-level keys that belong
to it and are not bound there. -/
def boundKeys (d : Document) (environment : String) : List (String × Commands) :=
  (buildOf d environment).keys.entries ++
    if environment = legacyEnvironment d then
      (d.keys.getD ∅).entries.filter fun e => e.1 ∉ (buildOf d environment).keys.keys
    else []

/-- The environments: those that have builds, and behind them the one that the top-level keys
open. -/
def boundEnvironments (d : Document) : List String :=
  d.builds.keys ++
    if d.keys.isSome ∧ legacyEnvironment d ∉ d.builds.keys then [legacyEnvironment d] else []

theorem builds_liftKeys_of_some {d : Document} {keys : Dict Commands} (h : d.keys = some keys) :
    (liftKeys d).builds =
      d.builds.alter (legacyEnvironment d) fun build => addKeys (build.getD {}) keys := by
  unfold liftKeys
  rw [h]

theorem builds_liftKeys_of_none {d : Document} (h : d.keys = none) :
    (liftKeys d).builds = d.builds := by
  unfold liftKeys
  rw [h]

theorem keys_builds_liftKeys (d : Document) : (liftKeys d).builds.keys = boundEnvironments d := by
  unfold boundEnvironments
  cases h : d.keys with
  | none =>
    rw [builds_liftKeys_of_none h]
    simp
  | some keys =>
    rw [builds_liftKeys_of_some h, Dict.keys_alter]
    by_cases hmem : legacyEnvironment d ∈ d.builds.keys <;> simp [hmem]

theorem buildOf_liftKeys (d : Document) (environment : String) :
    (buildOf (liftKeys d) environment).keys.entries = boundKeys d environment ∧
      (buildOf (liftKeys d) environment).extra = (buildOf d environment).extra := by
  unfold boundKeys
  cases h : d.keys with
  | none =>
    have hbuild : buildOf (liftKeys d) environment = buildOf d environment := by
      unfold buildOf
      rw [builds_liftKeys_of_none h]
    rw [hbuild]
    simp
  | some keys =>
    by_cases henv : environment = legacyEnvironment d
    · have hbuild : buildOf (liftKeys d) environment = addKeys (buildOf d environment) keys := by
        unfold buildOf
        rw [builds_liftKeys_of_some h, Dict.get?_alter, if_pos henv, henv]
        rfl
      rw [hbuild, if_pos henv, entries_addKeys]
      exact ⟨rfl, rfl⟩
    · have hbuild : buildOf (liftKeys d) environment = buildOf d environment := by
        unfold buildOf
        rw [builds_liftKeys_of_some h, Dict.get?_alter, if_neg henv]
      rw [hbuild, if_neg henv, List.append_nil]
      exact ⟨rfl, rfl⟩

theorem buildOf_normalize (now : String) (d : Document) (environment : String) :
    buildOf (normalize now d).document environment =
      buildBehind (readAs d) (buildOf (liftKeys d) environment) := by
  unfold buildOf
  rw [builds_normalize, Dict.get?_map]
  cases (liftKeys d).builds.get? environment <;> rfl

/-! ## Keeping -/

/-- The same key, with a canonical chain as it was. -/
structure KeyKept (old new : String × Commands) : Prop where
  key : new.1 = old.1
  chain : old.2.isCanonical = true → new.2 = old.2

/-- The same alias in form of an object, with a canonical chain as it was or mended. -/
structure AliasKept (mended : String → AliasEntry → Bool) (old new : String × AliasEntry) :
    Prop where
  name : new.1 = old.1
  isRecord : new.2 = .record new.2.toRecord
  description : new.2.toRecord.description = old.2.toRecord.description
  tag : new.2.toRecord.tag = old.2.toRecord.tag
  extra : new.2.toRecord.extra = old.2.toRecord.extra
  chain : old.2.toRecord.commands.isCanonical = true →
    new.2.toRecord.commands = if mended old.1 old.2 then mendCommands old.2.toRecord.commands
      else old.2.toRecord.commands

/-- What is found again of a document that is read as a version, where `mended` tells the aliases
whose texts are to be mended. -/
structure Keeps (v : Version) (mended : String → AliasEntry → Bool) (d out : Document) : Prop where
  name : out.name = d.name
  description : out.description = d.description
  created : out.created = d.created
  keyFlags : out.keyFlags = d.keyFlags
  extra : out.extra = d.extra
  environments : out.builds.keys = boundEnvironments d
  buildExtra : ∀ environment, (buildOf out environment).extra = (buildOf d environment).extra
  keys : ∀ environment, List.Forall₂ KeyKept (boundKeys d environment)
    (buildOf out environment).keys.entries
  aliases : List.Forall₂ (AliasKept mended)
    (d.aliases.entries.filter fun e => !(decide (v < ⟨2, 1, 0⟩) && isGenerated e.1 e.2))
    out.aliases.entries
  aliasFlags : out.aliasFlags.entries =
    if v < ⟨2, 1, 0⟩ then d.aliasFlags.entries.filter fun e => out.aliases.contains e.1
    else d.aliasFlags.entries

theorem keyKept_commandsBehind (v : Version) (e : String × Commands) :
    KeyKept e (e.1, commandsBehind v false e.2) :=
  ⟨rfl, fun h => commandsBehind_of_isCanonical v false h⟩

theorem aliasKept_aliasBehind (v : Version) (e : String × AliasEntry) :
    AliasKept (isMended v) e (e.1, aliasBehind v e.1 e.2) :=
  ⟨rfl, rfl, rfl, rfl, rfl, fun h => commandsBehind_of_isCanonical v _ h⟩

/-- A normalized document keeps its source, with aliases mended that are objects in time. -/
theorem keeps_isMended (now : String) (d : Document) :
    Keeps (readAs d) (isMended (readAs d)) d (normalize now d).document where
  name := (sameFrame_shaped (readAs d) d).name
  description := (sameFrame_shaped (readAs d) d).description
  created := (sameFrame_shaped (readAs d) d).created
  keyFlags := (sameFrame_shaped (readAs d) d).keyFlags
  extra := (sameFrame_shaped (readAs d) d).extra
  environments := by rw [builds_normalize, Dict.keys_map, keys_builds_liftKeys]
  buildExtra environment := by
    rw [buildOf_normalize]
    exact (buildOf_liftKeys d environment).2
  keys environment := by
    rw [buildOf_normalize, ← (buildOf_liftKeys d environment).1]
    exact List.forall₂_map_right_iff.2
      (List.forall₂_same.2 fun e _ => keyKept_commandsBehind (readAs d) e)
  aliases := by
    rw [aliases_normalize]
    exact List.forall₂_map_right_iff.2
      (List.forall₂_same.2 fun e _ => aliasKept_aliasBehind (readAs d) e)
  aliasFlags := by
    rw [aliasFlags_normalize]
    show (if readAs d < ⟨2, 1, 0⟩ then _ else _ : Dict Stored.Flags).entries = _
    split_ifs <;> rfl

/-! ## Aliases that are passed over -/

/-- Whether the texts of an alias are to be mended by its name and the version of the document. -/
def isCalledForMending (v : Version) (name : String) (_ : AliasEntry) : Bool :=
  v < ⟨2, 1, 1⟩ && isLoaderName name

/-- A misspelled loader that is stored as a bare list and is made an object only behind the step
that mends objects. -/
def IsPassedOver (v : Version) (name : String) (a : AliasEntry) : Prop :=
  ¬ v < ⟨2, 0, 0⟩ ∧ isCalledForMending v name a = true ∧
    ∃ c, a = .bare c ∧ c.isCanonical = true ∧ commandsMisspelled c = true

/-- A loader's name is no name of a generated alias. -/
theorem isGenerated_bare {name : String} (h : isLoaderName name = true) (c : Commands) :
    isGenerated name (.bare c) = false := by
  unfold isLoaderName at h
  simp only [Bool.and_eq_true, List.isPrefixOf_iff_prefix] at h
  show (vfxNameStart.toList.isPrefixOf name.toList || false) = false
  rw [Bool.or_false, ← Bool.not_eq_true, List.isPrefixOf_iff_prefix]
  intro hvfx
  rcases List.prefix_or_prefix_of_prefix h.1.1 hvfx with hp | hp
  · exact absurd hp (by decide)
  · exact absurd hp (by decide)

theorem isMended_of_isPassedOver {v : Version} {name : String} {a : AliasEntry}
    (h : IsPassedOver v name a) : isMended v name a = false := by
  obtain ⟨hfirst, -, c, rfl, -⟩ := h
  have hfirst : ¬ v < Step.canonicalCommands.version := hfirst
  simp [isMended, hfirst, AliasEntry.record?]

theorem isMended_eq (v : Version) (name : String) (a : AliasEntry) :
    isMended v name a = (isCalledForMending v name a &&
      (decide (v < ⟨2, 0, 0⟩) || a.record?.isSome)) := rfl

/-- Where the two ways to pick aliases differ, mending changes nothing, but for aliases that are
passed over. -/
theorem ite_isMended {v : Version} {name : String} {a : AliasEntry}
    (h : a.toRecord.commands.isCanonical = true) (hover : ¬ IsPassedOver v name a) :
    (if isMended v name a then mendCommands a.toRecord.commands else a.toRecord.commands) =
      if isCalledForMending v name a then mendCommands a.toRecord.commands
      else a.toRecord.commands := by
  cases hcalled : isCalledForMending v name a with
  | false => rw [isMended_eq, hcalled, Bool.false_and]
  | true =>
    rw [isMended_eq, hcalled, Bool.true_and]
    by_cases hfirst : v < ⟨2, 0, 0⟩
    · rw [decide_eq_true hfirst, Bool.true_or]
    · -- no longer made a record in time: only what is one already is mended
      cases a with
      | record r =>
        rw [show (AliasEntry.record r).record?.isSome = true from rfl, Bool.or_true]
      | bare c =>
        have hmend : mendCommands c = c := by
          rw [mendCommands_eq_self_iff, ← Bool.not_eq_true]
          exact fun hc => hover ⟨hfirst, hcalled, c, rfl, h, hc⟩
        show (if _ then mendCommands c else c) = if _ then mendCommands c else c
        rw [hmend, ite_self, ite_self]
      | malformed value =>
        show (if _ then mendCommands (.list []) else .list []) =
          if _ then mendCommands (.list []) else .list []
        rw [show mendCommands (.list []) = .list [] from rfl, ite_self, ite_self]

theorem not_isPassedOver_of_keeps {now : String} {d : Document}
    (h : Keeps (readAs d) (isCalledForMending (readAs d)) d (normalize now d).document)
    {e : String × AliasEntry} (he : e ∈ d.aliases.entries) : ¬ IsPassedOver (readAs d) e.1 e.2 := by
  intro hover
  obtain ⟨-, hcalled, c, hc, hcanonical, hmisspelled⟩ := id hover
  have hloader : isLoaderName e.1 = true := (Bool.and_eq_true_iff.1 hcalled).2
  have hkept : AliasKept (isCalledForMending (readAs d)) e
      (e.1, aliasBehind (readAs d) e.1 e.2) := by
    have haliases := h.aliases
    rw [aliases_normalize] at haliases
    refine List.forall₂_same.1 (List.forall₂_map_right_iff.1 haliases) e ?_
    rw [List.mem_filter, hc, isGenerated_bare hloader, Bool.and_false]
    exact ⟨he, rfl⟩
  have hchain := hkept.chain (by rw [hc]; exact hcanonical)
  change commandsBehind (readAs d) (isMended (readAs d) e.1 e.2) e.2.toRecord.commands = _ at hchain
  rw [isMended_of_isPassedOver hover, if_pos hcalled, hc] at hchain
  change commandsBehind (readAs d) false c = mendCommands c at hchain
  rw [commandsBehind_of_isCanonical _ _ hcanonical] at hchain
  rw [mendCommands_eq_self_iff.1 hchain.symm] at hmisspelled
  exact Bool.noConfusion hmisspelled

theorem keeps_of_not_isPassedOver (now : String) {d : Document}
    (h : ∀ e ∈ d.aliases.entries, ¬ IsPassedOver (readAs d) e.1 e.2) :
    Keeps (readAs d) (isCalledForMending (readAs d)) d (normalize now d).document := by
  refine { keeps_isMended now d with aliases := ?_ }
  rw [aliases_normalize]
  refine List.forall₂_map_right_iff.2 (List.forall₂_same.2 fun e he => ?_)
  refine { aliasKept_aliasBehind (readAs d) e with chain := fun hcanonical => ?_ }
  rw [← ite_isMended hcanonical (h e (List.mem_filter.1 he).1)]
  exact commandsBehind_of_isCanonical _ _ hcanonical

/-- A normalized document keeps its source, where the aliases are mended that are objects in time.
All aliases are mended that are called for it just if none is passed over. -/
theorem keeps_normalize (now : String) (d : Document) :
    Keeps (readAs d) (isMended (readAs d)) d (normalize now d).document ∧
      (Keeps (readAs d) (isCalledForMending (readAs d)) d (normalize now d).document ↔
        ∀ e ∈ d.aliases.entries, ¬ IsPassedOver (readAs d) e.1 e.2) :=
  ⟨keeps_isMended now d, fun h _ he => not_isPassedOver_of_keeps h he,
    keeps_of_not_isPassedOver now⟩

/-- A list with a misspelled command. -/
def misspelledLoad : Commands := .ofChain ["bind_laod_file a.txt"]

/-- A document from behind the first step with a loader. -/
def loaderDocument (loader : AliasEntry) : Document where
  aliases := Dict.ofList [("sto_kb_bindset_enable_a", loader)]
  version := some "2.0.0"

theorem keeps_recordLoader :
    let d := loaderDocument (.record { commands := misspelledLoad })
    (∀ e ∈ d.aliases.entries, ¬ IsPassedOver (readAs d) e.1 e.2) ∧
      Keeps (readAs d) (isCalledForMending (readAs d)) d (normalize "2001-02-03" d).document := by
  intro d
  have hnone : ∀ e ∈ d.aliases.entries, ¬ IsPassedOver (readAs d) e.1 e.2 := by
    rintro e he ⟨-, -, c, hc, -⟩
    rw [List.mem_singleton.1 he] at hc
    cases hc
  exact ⟨hnone, (keeps_normalize _ d).2.2 hnone⟩

/-- Stored as a bare list, a loader keeps its misspelled command. -/
theorem not_keeps_bareLoader :
    ¬ ∀ now d, Keeps (readAs d) (isCalledForMending (readAs d)) d (normalize now d).document := by
  intro h
  have hentry : ("sto_kb_bindset_enable_a", .bare misspelledLoad) ∈
      (loaderDocument (.bare misspelledLoad)).aliases.entries :=
    List.mem_singleton.2 rfl
  refine not_isPassedOver_of_keeps (h "2001-02-03" _) hentry ⟨?_, ?_, _, rfl, ?_, ?_⟩ <;>
    decide +kernel

end Keybinds.Migration
