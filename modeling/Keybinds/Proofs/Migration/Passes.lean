import Keybinds.Migration.Normalize
import Keybinds.Proofs.Dict
import Keybinds.Proofs.Migration.Mending

/-!
# What normalization makes of each entry

Moving the top-level keys commutes with every step, so it may be thought to come first
(`liftKeys_run`). What is left works entry by entry: `commandsBehind` is what becomes of a command
list in a document of a version, and `builds_normalize`, `aliases_normalize` say that the builds and
aliases of a normalized document are those of the lifted one with `commandsBehind` applied to their
lists, less the aliases that are removed.
-/

namespace Keybinds.Migration

open Stored (Commands AliasEntry Build Document)

/-! ## Top-level keys first -/

theorem liftKeys_eq_self {d : Document} (hkeys : d.keys = none) (hmode : d.mode = none) :
    liftKeys d = d := by
  cases d
  cases hkeys
  cases hmode
  rfl

theorem keys_liftKeys (d : Document) : (liftKeys d).keys = none := by
  unfold liftKeys
  split
  · assumption
  · rfl

theorem mode_liftKeys (d : Document) : (liftKeys d).mode = none := by
  unfold liftKeys
  cases d.keys <;> rfl

theorem aliases_liftKeys (d : Document) : (liftKeys d).aliases = d.aliases := by
  unfold liftKeys
  cases d.keys <;> rfl

theorem aliasFlags_liftKeys (d : Document) : (liftKeys d).aliasFlags = d.aliasFlags := by
  unfold liftKeys
  cases d.keys <;> rfl

/-- Keys that are not bound yet go behind those that are. -/
theorem entries_addKeys (build : Build) (keys : Dict Commands) :
    (addKeys build keys).keys.entries =
      build.keys.entries ++ keys.entries.filter fun e => e.1 ∉ build.keys.keys :=
  Dict.entries_foldl_insertIfNew build.keys keys.nodup

/-- A step on a document without top-level keys. -/
def Step.onLists : Step → Document → Document
  | canonicalCommands => canonicalLists
  | dropGenerated => Migration.dropGenerated
  | mendLoaders => Migration.mendLoaders

theorem liftKeys_apply (step : Step) (d : Document) :
    liftKeys (step.apply d) = step.onLists (liftKeys d) := by
  cases step with
  | canonicalCommands => exact liftKeys_eq_self (keys_liftKeys d) (mode_liftKeys d)
  | dropGenerated => rcases d with ⟨_, _, _, _, _ | keys, _⟩ <;> rfl
  | mendLoaders => rcases d with ⟨_, _, _, _, _ | keys, _⟩ <;> rfl

/-- The keys may be moved before all steps. -/
theorem liftKeys_run (steps : List Step) (d : Document) :
    liftKeys (run steps d) = steps.foldl (fun d step => step.onLists d) (liftKeys d) := by
  induction steps generalizing d with
  | nil => rfl
  | cons step steps ih =>
    show liftKeys (run steps (step.apply d)) = _
    rw [ih, liftKeys_apply]
    rfl

/-- A step on documents of earlier versions than its own. -/
def Step.ifPending (v : Version) (step : Step) (d : Document) : Document :=
  if v < step.version then step.onLists d else d

theorem foldl_pending (v : Version) (d : Document) :
    (Step.pending v).foldl (fun d step => step.onLists d) d =
      Step.mendLoaders.ifPending v (Step.dropGenerated.ifPending v
        (Step.canonicalCommands.ifPending v d)) := by
  unfold Step.pending
  rw [List.foldl_filter]
  simp only [decide_eq_true_eq]
  rfl

/-- The document behind all pending steps and the last look at the shapes. -/
theorem canonicalize_run_pending (v : Version) (d : Document) :
    canonicalize (run (Step.pending v) d) =
      canonicalLists (Step.mendLoaders.ifPending v (Step.dropGenerated.ifPending v
        (Step.canonicalCommands.ifPending v (liftKeys d)))) := by
  unfold canonicalize
  rw [liftKeys_run, foldl_pending]

/-! ## What no step touches -/

/-- The fields that all steps leave alone. -/
structure SameFrame (d e : Document) : Prop where
  name : e.name = d.name
  description : e.description = d.description
  keyFlags : e.keyFlags = d.keyFlags
  version : e.version = d.version
  created : e.created = d.created
  lastModified : e.lastModified = d.lastModified
  extra : e.extra = d.extra

theorem SameFrame.refl (d : Document) : SameFrame d d :=
  ⟨rfl, rfl, rfl, rfl, rfl, rfl, rfl⟩

theorem SameFrame.trans {d e f : Document} (h : SameFrame d e) (h' : SameFrame e f) :
    SameFrame d f where
  name := h'.name.trans h.name
  description := h'.description.trans h.description
  keyFlags := h'.keyFlags.trans h.keyFlags
  version := h'.version.trans h.version
  created := h'.created.trans h.created
  lastModified := h'.lastModified.trans h.lastModified
  extra := h'.extra.trans h.extra

theorem sameFrame_canonicalize (d : Document) : SameFrame d (canonicalize d) := by
  rcases d with ⟨_, _, _, _, _ | keys, _⟩ <;> exact ⟨rfl, rfl, rfl, rfl, rfl, rfl, rfl⟩

theorem sameFrame_apply (step : Step) (d : Document) : SameFrame d (step.apply d) := by
  cases step with
  | canonicalCommands => exact sameFrame_canonicalize d
  | dropGenerated => exact ⟨rfl, rfl, rfl, rfl, rfl, rfl, rfl⟩
  | mendLoaders => exact ⟨rfl, rfl, rfl, rfl, rfl, rfl, rfl⟩

theorem sameFrame_run (steps : List Step) (d : Document) : SameFrame d (run steps d) := by
  induction steps generalizing d with
  | nil => exact .refl d
  | cons step steps ih => exact (sameFrame_apply step d).trans (ih (step.apply d))

/-- Of these fields, a normalized document differs in the version and the time only. -/
theorem sameFrame_shaped (v : Version) (d : Document) :
    SameFrame d (canonicalize (run (Step.pending v) d)) :=
  (sameFrame_run _ d).trans (sameFrame_canonicalize _)

/-! ## Command lists -/

/-- Whether the texts of an alias are mended. An alias that is no object is not, unless it was made
one before. -/
def isMended (v : Version) (name : String) (a : AliasEntry) : Bool :=
  v < Step.mendLoaders.version && isLoaderName name &&
    (v < Step.canonicalCommands.version || a.record?.isSome)

/-- Whether an alias is removed. -/
def isRemoved (v : Version) (name : String) (a : AliasEntry) : Bool :=
  v < Step.dropGenerated.version && isGenerated name a

/-- What becomes of a command list in a document of a version. -/
def commandsBehind (v : Version) (mended : Bool) (c : Commands) : Commands :=
  let first := if v < Step.canonicalCommands.version then c.canonicalized else c
  (if mended then mendCommands first else first).canonicalized

def buildBehind (v : Version) (b : Build) : Build :=
  { b with keys := b.keys.map (commandsBehind v false) }

def aliasBehind (v : Version) (name : String) (a : AliasEntry) : AliasEntry :=
  .record { a.toRecord with
    commands := commandsBehind v (isMended v name a) a.toRecord.commands }

/-- A canonical list stays as it is, unless it is mended. -/
theorem commandsBehind_of_isCanonical (v : Version) (mended : Bool) {c : Commands}
    (h : c.isCanonical = true) :
    commandsBehind v mended c = if mended then mendCommands c else c := by
  unfold commandsBehind
  rw [Commands.canonicalized_of_isCanonical h, ite_self]
  cases mended with
  | false => exact Commands.canonicalized_of_isCanonical h
  | true => exact Commands.canonicalized_of_isCanonical (isCanonical_mendCommands h)

theorem canonicalLists_eq (d : Document) :
    canonicalLists d = { d with
      builds := d.builds.map canonicalBuild
      aliases := d.aliases.map AliasEntry.canonicalized } := by
  have hentry : (fun a : AliasEntry => if a.isCanonical = true then a else a.canonicalized) =
      AliasEntry.canonicalized := by
    funext a
    split_ifs with h
    · exact (AliasEntry.canonicalized_of_isCanonical h).symm
    · rfl
  unfold canonicalLists
  rw [hentry]

theorem aliases_canonicalLists (d : Document) :
    (canonicalLists d).aliases = d.aliases.map AliasEntry.canonicalized := by
  rw [canonicalLists_eq]

theorem isGenerated_canonicalized (name : String) (a : AliasEntry) :
    isGenerated name a.canonicalized = isGenerated name a := by
  cases a <;> rfl

/-- The builds of a normalized document. -/
theorem builds_normalize (now : String) (d : Document) :
    (normalize now d).document.builds = (liftKeys d).builds.map (buildBehind (readAs d)) := by
  show (canonicalize (run (Step.pending (readAs d)) d)).builds = _
  rw [canonicalize_run_pending]
  have hmend : ∀ e, (Step.mendLoaders.ifPending (readAs d) e).builds = e.builds := by
    intro e
    unfold Step.ifPending
    split_ifs <;> rfl
  have hdrop : ∀ e, (Step.dropGenerated.ifPending (readAs d) e).builds = e.builds := by
    intro e
    unfold Step.ifPending
    split_ifs <;> rfl
  show (Dict.map (Document.builds _) canonicalBuild) = _
  rw [hmend, hdrop]
  unfold Step.ifPending
  by_cases h : readAs d < Step.canonicalCommands.version
  · have hbehind : commandsBehind (readAs d) false = fun c => c.canonicalized.canonicalized := by
      funext c
      show (if readAs d < _ then c.canonicalized else c).canonicalized = _
      rw [if_pos h]
    rw [if_pos h]
    show ((liftKeys d).builds.map canonicalBuild).map canonicalBuild = _
    rw [Dict.map_map]
    congr 1
    funext b
    unfold canonicalBuild buildBehind
    rw [Dict.map_map, hbehind]
  · have hbehind : commandsBehind (readAs d) false = Commands.canonicalized := by
      funext c
      show (if readAs d < _ then c.canonicalized else c).canonicalized = _
      rw [if_neg h]
    rw [if_neg h]
    congr 1
    funext b
    unfold canonicalBuild buildBehind
    rw [hbehind]

theorem aliases_canonicalCommands_ifPending (v : Version) (d : Document) :
    (Step.canonicalCommands.ifPending v (liftKeys d)).aliases =
      d.aliases.map fun a => if v < Step.canonicalCommands.version then a.canonicalized else a := by
  unfold Step.ifPending
  split_ifs
  · show (canonicalLists (liftKeys d)).aliases = _
    rw [aliases_canonicalLists, aliases_liftKeys]
  · rw [aliases_liftKeys, Dict.map_eq_self fun a _ => rfl]

theorem aliases_dropGenerated_ifPending (v : Version) (d : Document) :
    (Step.dropGenerated.ifPending v d).aliases =
      d.aliases.filter fun name a => !isRemoved v name a := by
  unfold Step.ifPending isRemoved
  split_ifs with h
  · simp only [h, decide_true, Bool.true_and]
    rfl
  · refine Dict.ext ?_
    simp [h]

theorem aliases_mendLoaders_ifPending (v : Version) (d : Document) :
    (Step.mendLoaders.ifPending v d).aliases =
      d.aliases.mapWithKey fun name a =>
        if v < Step.mendLoaders.version then mendAlias name a else a := by
  unfold Step.ifPending
  split_ifs with h
  · rfl
  · refine Dict.ext ?_
    simp

theorem isRemoved_canonicalized (v w : Version) (name : String) (a : AliasEntry) :
    isRemoved v name (if v < w then a.canonicalized else a) = isRemoved v name a := by
  unfold isRemoved
  split_ifs <;> simp only [isGenerated_canonicalized]

/-- The aliases that are left behind the removal of generated ones. -/
theorem aliases_dropped (v : Version) (d : Document) :
    (Step.dropGenerated.ifPending v (Step.canonicalCommands.ifPending v (liftKeys d))).aliases =
      (d.aliases.filter fun name a => !isRemoved v name a).map fun a =>
        if v < Step.canonicalCommands.version then a.canonicalized else a := by
  rw [aliases_dropGenerated_ifPending, aliases_canonicalCommands_ifPending]
  refine Dict.filter_map fun name a => ?_
  rw [isRemoved_canonicalized]

/-- The aliases of a normalized document. -/
theorem aliases_normalize (now : String) (d : Document) :
    (normalize now d).document.aliases =
      (d.aliases.filter fun name a => !isRemoved (readAs d) name a).mapWithKey
        (aliasBehind (readAs d)) := by
  show (canonicalize (run (Step.pending (readAs d)) d)).aliases = _
  rw [canonicalize_run_pending, aliases_canonicalLists, aliases_mendLoaders_ifPending,
    aliases_dropped, Dict.mapWithKey_map, Dict.map_mapWithKey]
  generalize readAs d = v
  congr 1
  funext name a
  unfold aliasBehind commandsBehind isMended
  cases a <;> by_cases h₁ : v < Step.canonicalCommands.version <;>
    by_cases h₂ : v < Step.mendLoaders.version <;> by_cases h₃ : isLoaderName name = true <;>
    simp [h₁, h₂, h₃, mendAlias, AliasEntry.canonicalized, AliasEntry.toRecord, AliasEntry.record?]

theorem aliasFlags_dropGenerated_ifPending (v : Version) (d : Document) :
    (Step.dropGenerated.ifPending v d).aliasFlags =
      if v < Step.dropGenerated.version then
        d.aliasFlags.filter fun name _ => (Step.dropGenerated.ifPending v d).aliases.contains name
      else d.aliasFlags := by
  unfold Step.ifPending
  split_ifs <;> rfl

/-- The flags of the aliases of a normalized document. -/
theorem aliasFlags_normalize (now : String) (d : Document) :
    (normalize now d).document.aliasFlags =
      if readAs d < Step.dropGenerated.version then
        d.aliasFlags.filter fun name _ => (normalize now d).document.aliases.contains name
      else d.aliasFlags := by
  have hcontains : ∀ name, (Step.dropGenerated.ifPending (readAs d)
      (Step.canonicalCommands.ifPending (readAs d) (liftKeys d))).aliases.contains name =
        (normalize now d).document.aliases.contains name := by
    refine Dict.contains_congr ?_
    rw [aliases_normalize, aliases_dropped, Dict.keys_map, Dict.keys_mapWithKey]
  have hfirst : (Step.canonicalCommands.ifPending (readAs d) (liftKeys d)).aliasFlags =
      d.aliasFlags := by
    unfold Step.ifPending
    split_ifs <;> exact aliasFlags_liftKeys d
  have hmend : ∀ e, (Step.mendLoaders.ifPending (readAs d) e).aliasFlags = e.aliasFlags := by
    intro e
    unfold Step.ifPending
    split_ifs <;> rfl
  show (canonicalize (run (Step.pending (readAs d)) d)).aliasFlags = _
  rw [canonicalize_run_pending]
  show (Step.mendLoaders.ifPending (readAs d) _).aliasFlags = _
  rw [hmend, aliasFlags_dropGenerated_ifPending, hfirst]
  simp only [hcontains]

end Keybinds.Migration
