import Keybinds.Proofs.Profile.Import

/-!
# What an import changes

An import merges the keys of a file into one environment and its aliases into those of the profile:
what the file declares is replaced, what is new stands behind what is there, and all else is as it
was (`imports_importFile`). The flags are merged likewise. A name that the file lists as stabilized
has its flag on; for any other name of the file a flag that is there is turned off, and none is
entered.
-/

namespace Keybinds.Profile

open Stored (Flags)

variable (p : Profile) (environment : String) (file : BindFile)

/-! ## Flags of one realm -/

/-- The flags of an environment, none unless the environment has some. -/
def flagsIn : Dict Flags := (p.keyFlags.get? environment).getD ∅

/-- What becomes of the flag of a declared name: it is on if the name is listed; otherwise a flag
that is there is turned off. -/
def importedFlag (listed : List String) (name : String) (old : Option Flags) : Option Flags :=
  if name ∈ listed then some ⟨true⟩ else old.map fun _ => ⟨false⟩

/-- Sets the flag of a declared name, unless the flag is off and would stay so. -/
def flagStep (listed : List String) (flags : Dict Flags) (e : String × List String) : Dict Flags :=
  if listed.contains e.1 || (flags.get? e.1).any (·.stabilized) then
    flags.insert e.1 ⟨listed.contains e.1⟩
  else flags

theorem merges_flagStep (listed : List String) (flags : Dict Flags) (e : String × List String) :
    Dict.Merges (fun e => importedFlag listed e.1) [e] flags (flagStep listed flags e) := by
  unfold flagStep
  by_cases hlisted : e.1 ∈ listed
  · rw [List.contains_eq_mem, decide_eq_true hlisted, Bool.true_or, if_pos rfl]
    have hflag : importedFlag listed e.1 = fun _ => some ⟨true⟩ := by
      funext old
      exact if_pos hlisted
    exact Dict.merges_alter (by rw [hflag]) (.inl (by rw [hflag]; rfl))
  · rw [List.contains_eq_mem, decide_eq_false hlisted, Bool.false_or]
    have hflag : importedFlag listed e.1 = Option.map fun _ => ⟨false⟩ := by
      funext old
      exact if_neg hlisted
    cases hold : flags.get? e.1 with
    | none =>
      rw [Option.any_none, if_neg Bool.false_ne_true]
      exact Dict.merges_refl (by rw [hflag, hold]; rfl)
    | some old =>
      obtain ⟨on⟩ := old
      rw [Option.any_some]
      split_ifs with hon
      · have hmem : e.1 ∈ flags.keys := by
          rw [← Dict.contains_iff]
          unfold Dict.contains
          rw [hold]
          rfl
        exact Dict.merges_alter (by rw [hflag, hold]; rfl) (.inr hmem)
      · cases on with
        | true => exact absurd rfl hon
        | false => exact Dict.merges_refl (by rw [hflag, hold]; rfl)

/-! ## Keys -/

theorem isKeyStabilized_eq (key : String) :
    p.isKeyStabilized environment key =
      ((p.flagsIn environment).get? key).any (·.stabilized) := by
  unfold isKeyStabilized flagsIn
  cases p.keyFlags.get? environment <;> rfl

theorem flagsIn_importKey (e : String × List String) :
    (p.importKey environment file e.1 e.2).flagsIn environment =
      flagStep file.stabilizedKeys (p.flagsIn environment) e := by
  rw [importKey_eq, isKeyStabilized_eq]
  unfold flagStep
  split_ifs
  · unfold flagsIn stabilizeKey
    rw [Dict.get?_alter, if_pos rfl]
    rfl
  · rfl

/-- A key is entered in one environment, and so is its flag. -/
theorem keyFlags_importKey_of_ne {environment' : String} (h : environment' ≠ environment)
    (e : String × List String) :
    (p.importKey environment file e.1 e.2).keyFlags.get? environment' =
      p.keyFlags.get? environment' := by
  rw [importKey_eq]
  split_ifs
  · unfold stabilizeKey
    rw [Dict.get?_alter, if_neg h]
    rfl
  · rfl

theorem keys_keyFlags_importKey (e : String × List String) :
    p.keyFlags.keys <+: (p.importKey environment file e.1 e.2).keyFlags.keys := by
  rw [importKey_eq]
  split_ifs
  · show _ <+: (p.keyFlags.alter environment _).keys
    rw [Dict.keys_alter]
    split_ifs
    · exact List.prefix_rfl
    · exact List.prefix_append _ _
  · exact List.prefix_rfl

theorem flagsIn_importKeys :
    (p.importKeys environment file).flagsIn environment =
      file.keys.entries.foldl (flagStep file.stabilizedKeys) (p.flagsIn environment) :=
  (List.foldl_hom (fun p : Profile => p.flagsIn environment)
    fun p e => (flagsIn_importKey p environment file e).symm).symm

theorem keys_keyFlags_importKeys :
    p.keyFlags.keys <+: (p.importKeys environment file).keyFlags.keys :=
  List.foldlRecOn (motive := fun q : Profile => p.keyFlags.keys <+: q.keyFlags.keys)
    file.keys.entries _ List.prefix_rfl
    fun q hq e _ => hq.trans (keys_keyFlags_importKey q environment file e)

/-- Keys open their environment if it is not there. -/
theorem keys_foldl_bindIn (builds : Dict (Dict (List String))) (es : List (String × List String)) :
    (es.foldl (bindIn environment) builds).keys =
      builds.keys ++ if es = [] ∨ environment ∈ builds.keys then [] else [environment] := by
  induction es generalizing builds with
  | nil => simp
  | cons e es ih =>
    have hkeys : (bindIn environment builds e).keys =
        if environment ∈ builds.keys then builds.keys else builds.keys ++ [environment] :=
      Dict.keys_alter builds environment _
    have hmem : environment ∈ (bindIn environment builds e).keys :=
      Dict.mem_keys_alter_self builds environment _
    rw [List.foldl_cons, ih, if_pos (.inr hmem), List.append_nil, hkeys]
    by_cases h : environment ∈ builds.keys <;> simp [h]

/-! ## Aliases -/

theorem aliasFlags_importAlias (e : String × List String) :
    (p.importAlias file e.1 e.2).aliasFlags = flagStep file.stabilizedAliases p.aliasFlags e := by
  rw [importAlias_eq]
  unfold flagStep isAliasStabilized
  split_ifs
  · rfl
  · rfl

theorem aliasFlags_importEntries :
    (p.importEntries environment file).aliasFlags =
      file.aliases.entries.foldl (flagStep file.stabilizedAliases) p.aliasFlags := by
  have hkeys : (p.importKeys environment file).aliasFlags = p.aliasFlags := by
    refine frame_foldl (f := aliasFlags) (fun p (e : String × List String) => ?_) _ _
    rw [importKey_eq]
    split_ifs <;> rfl
  rw [← hkeys]
  exact (List.foldl_hom aliasFlags fun p e => (aliasFlags_importAlias p file e).symm).symm

/-! ## Everything else -/

/-- What an entry of an alias leaves alone is left alone by all of them. -/
theorem importEntries_congr {β : Type} {f : Profile → β}
    (hf : ∀ p (e : String × List String), f (importAlias p file e.1 e.2) = f p) :
    f (p.importEntries environment file) = f (p.importKeys environment file) :=
  frame_foldl (f := f) hf _ _

/-- The profile without all that an import may change. -/
def remainder : Profile :=
  { p with builds := ∅, aliases := ∅, keyFlags := ∅, aliasFlags := ∅, lastModified := none }

theorem remainder_importKey (key : String) (chain : List String) :
    (p.importKey environment file key chain).remainder = p.remainder := by
  rw [importKey_eq]
  split_ifs <;> rfl

theorem remainder_importAlias (name : String) (chain : List String) :
    (p.importAlias file name chain).remainder = p.remainder := by
  rw [importAlias_eq]
  split_ifs <;> rfl

theorem remainder_importFile (now : String) :
    (p.importFile environment file now).remainder = p.remainder := by
  rw [importFile_congr (f := remainder) p environment file fun _ _ => rfl,
    importEntries_congr p environment file fun p e => remainder_importAlias p file e.1 e.2]
  exact frame_foldl (fun p (e : String × List String) =>
    remainder_importKey p environment file e.1 e.2) _ _

theorem lastModified_importEntries :
    (p.importEntries environment file).lastModified = p.lastModified := by
  have halias : ∀ p (e : String × List String),
      (importAlias p file e.1 e.2).lastModified = p.lastModified := by
    intro p e
    rw [importAlias_eq]
    split_ifs <;> rfl
  rw [importEntries_congr p environment file halias]
  refine frame_foldl (f := lastModified) (fun p (e : String × List String) => ?_) _ _
  rw [importKey_eq]
  split_ifs <;> rfl

/-! ## The import -/

/-- The names that a file declares, each with its realm. -/
def declaredNames : List (BindFile.Realm × String) :=
  file.keys.keys.map (BindFile.Realm.keys, ·) ++ file.aliases.keys.map (BindFile.Realm.aliases, ·)

theorem nodup_declaredNames : (declaredNames file).Nodup := by
  refine List.nodup_append.2 ⟨?_, ?_, ?_⟩
  · exact file.keys.nodup_keys.map fun _ _ h => (Prod.mk.inj h).2
  · exact file.aliases.nodup_keys.map fun _ _ h => (Prod.mk.inj h).2
  · simp

theorem importCount_eq : importCount file = (declaredNames file).length := by
  unfold importCount declaredNames
  rw [Dict.size_eq_length_keys, Dict.size_eq_length_keys, List.length_append, List.length_map,
    List.length_map]

/-- What an import of a file into an environment makes of a profile. -/
structure Imports (environment : String) (file : BindFile) (now : String) (p q : Profile) :
    Prop where
  keys : Dict.Merges (fun e _ => some e.2) file.keys.entries (p.keysIn environment)
    (q.keysIn environment)
  /-- Environments keep their places; one that the keys open stands last. -/
  environments : q.builds.keys =
    p.builds.keys ++ if file.keys.entries = [] ∨ environment ∈ p.builds.keys then []
      else [environment]
  otherBuilds : ∀ environment' ≠ environment,
    q.builds.get? environment' = p.builds.get? environment'
  /-- Aliases keep what is not their chain. -/
  aliases : Dict.Merges (fun e a => some { a.getD {} with commands := e.2 }) file.aliases.entries
    p.aliases q.aliases
  keyFlags : Dict.Merges (fun e => importedFlag file.stabilizedKeys e.1) file.keys.entries
    (p.flagsIn environment) (q.flagsIn environment)
  flaggedEnvironments : p.keyFlags.keys <+: q.keyFlags.keys
  otherKeyFlags : ∀ environment' ≠ environment,
    q.keyFlags.get? environment' = p.keyFlags.get? environment'
  aliasFlags : Dict.Merges (fun e => importedFlag file.stabilizedAliases e.1) file.aliases.entries
    p.aliasFlags q.aliasFlags
  keyStabilized : ∀ key ∈ file.keys.keys,
    (q.isKeyStabilized environment key = true ↔ key ∈ file.stabilizedKeys)
  aliasStabilized : ∀ name ∈ file.aliases.keys,
    (q.isAliasStabilized name = true ↔ name ∈ file.stabilizedAliases)
  name : q.name = p.name
  description : q.description = p.description
  currentEnvironment : q.currentEnvironment = p.currentEnvironment
  version : q.version = p.version
  created : q.created = p.created
  buildExtra : q.buildExtra = p.buildExtra
  extra : q.extra = p.extra
  lastModified : q.lastModified = if 0 < importCount file then some now else p.lastModified

variable (now : String)

theorem merges_keysIn_importFile :
    Dict.Merges (fun e _ => some e.2) file.keys.entries (p.keysIn environment)
      ((p.importFile environment file now).keysIn environment) := by
  rw [keysIn_importFile]
  refine Dict.Merges.foldl (fun keys e => ?_) file.keys.nodup _
  exact Dict.merges_alter (g := fun _ => e.2) rfl (.inl rfl)

theorem merges_aliases_importFile :
    Dict.Merges (fun e a => some { a.getD {} with commands := e.2 }) file.aliases.entries p.aliases
      (p.importFile environment file now).aliases := by
  rw [aliases_importFile]
  refine Dict.Merges.foldl (fun aliases e => ?_) file.aliases.nodup _
  exact Dict.merges_alter (g := withChain e.2) rfl (.inl rfl)

theorem merges_flagsIn_importFile :
    Dict.Merges (fun e => importedFlag file.stabilizedKeys e.1) file.keys.entries
      (p.flagsIn environment) ((p.importFile environment file now).flagsIn environment) := by
  have halias : ∀ p (e : String × List String),
      (importAlias p file e.1 e.2).flagsIn environment = p.flagsIn environment := by
    intro p e
    rw [importAlias_eq]
    split_ifs <;> rfl
  rw [importFile_congr (f := fun p => p.flagsIn environment) p environment file fun _ _ => rfl,
    importEntries_congr (f := fun p => p.flagsIn environment) p environment file halias,
    flagsIn_importKeys]
  exact Dict.Merges.foldl (merges_flagStep _) file.keys.nodup _

theorem merges_aliasFlags_importFile :
    Dict.Merges (fun e => importedFlag file.stabilizedAliases e.1) file.aliases.entries
      p.aliasFlags (p.importFile environment file now).aliasFlags := by
  rw [importFile_congr (f := aliasFlags) p environment file fun _ _ => rfl,
    aliasFlags_importEntries]
  exact Dict.Merges.foldl (merges_flagStep _) file.aliases.nodup _

theorem keyFlags_importFile :
    (p.importFile environment file now).keyFlags = (p.importKeys environment file).keyFlags := by
  have halias : ∀ p (e : String × List String),
      (importAlias p file e.1 e.2).keyFlags = p.keyFlags := by
    intro p e
    rw [importAlias_eq]
    split_ifs <;> rfl
  rw [importFile_congr (f := Profile.keyFlags) p environment file fun _ _ => rfl,
    importEntries_congr p environment file halias]

/-- An import changes exactly what the file declares, and it counts the declared names. -/
theorem imports_importFile :
    Imports environment file now p (p.importFile environment file now) ∧
      importCount file = (declaredNames file).length ∧ (declaredNames file).Nodup := by
  have hremainder := remainder_importFile p environment file now
  refine ⟨?_, importCount_eq file, nodup_declaredNames file⟩
  exact {
    keys := merges_keysIn_importFile p environment file now
    environments := by rw [builds_importFile, keys_foldl_bindIn]
    otherBuilds := fun environment' h => by
      rw [builds_importFile]
      refine frame_foldl (f := fun builds : Dict (Dict (List String)) => builds.get? environment')
        (fun builds e => ?_) _ _
      exact (Dict.get?_alter _ _ _ _).trans (if_neg h)
    aliases := merges_aliases_importFile p environment file now
    keyFlags := merges_flagsIn_importFile p environment file now
    flaggedEnvironments := by
      rw [keyFlags_importFile]
      exact keys_keyFlags_importKeys p environment file
    otherKeyFlags := fun environment' h => by
      rw [keyFlags_importFile]
      exact frame_foldl (f := fun p => p.keyFlags.get? environment')
        (fun p e => keyFlags_importKey_of_ne p environment file h e) _ _
    aliasFlags := merges_aliasFlags_importFile p environment file now
    keyStabilized := fun key h => by
      rw [isKeyStabilized_importFile, if_pos h, List.contains_eq_mem, decide_eq_true_iff]
    aliasStabilized := fun name h => by
      rw [isAliasStabilized_importFile, if_pos h, List.contains_eq_mem, decide_eq_true_iff]
    name := (congrArg Profile.name hremainder :)
    description := (congrArg Profile.description hremainder :)
    currentEnvironment := (congrArg Profile.currentEnvironment hremainder :)
    version := (congrArg Profile.version hremainder :)
    created := (congrArg Profile.created hremainder :)
    buildExtra := (congrArg Profile.buildExtra hremainder :)
    extra := (congrArg Profile.extra hremainder :)
    lastModified := by
      show (if 0 < importCount file then (p.importEntries environment file).touch now
        else p.importEntries environment file).lastModified = _
      split_ifs
      · rfl
      · exact lastModified_importEntries p environment file }

end Keybinds.Profile
