import Keybinds.Profile.Basic
import Keybinds.Proofs.Dict

/-!
# Importing into a new profile

Importing a file binds its keys in turn and then names its aliases in turn. Each step enters one
chain and sets one flag. A new profile takes over the keys and aliases of the file as they stand
(`keysIn_importFile_new`, `entries_aliases_importFile_new`), and in any profile a name of the file
is flagged behind the import as the file lists it (`isKeyStabilized_importFile`,
`isAliasStabilized_importFile`).
-/

namespace Keybinds.Profile

open Stored (Flags)

variable (p : Profile) (environment : String) (file : BindFile)

/-- The keys of an environment, none unless the environment is there. -/
def keysIn : Dict (List String) := (p.keys? environment).getD ∅

/-! ## Flags -/

theorem any_get?_insert (flags : Dict Flags) (name name' : String) (on : Bool) :
    ((flags.insert name ⟨on⟩).get? name').any (·.stabilized) =
      if name' = name then on else (flags.get? name').any (·.stabilized) := by
  rw [Dict.get?_insert]
  split_ifs
  · rfl
  · rfl

theorem isKeyStabilized_stabilizeKey (key key' : String) (on : Bool) :
    (p.stabilizeKey environment key on).isKeyStabilized environment key' =
      if key' = key then on else p.isKeyStabilized environment key' := by
  have hgetD : (p.keyFlags.get? environment).bind (·.get? key') =
      ((p.keyFlags.get? environment).getD ∅).get? key' := by
    cases p.keyFlags.get? environment <;> rfl
  unfold isKeyStabilized stabilizeKey
  rw [Dict.get?_alter, if_pos rfl, hgetD]
  exact any_get?_insert _ key key' on

theorem isKeyStabilized_stabilizeKey_of_ne {environment' : String} (h : environment' ≠ environment)
    (key key' : String) (on : Bool) :
    (p.stabilizeKey environment key on).isKeyStabilized environment' key' =
      p.isKeyStabilized environment' key' := by
  unfold isKeyStabilized stabilizeKey
  rw [Dict.get?_alter, if_neg h]

theorem isAliasStabilized_stabilizeAlias (name name' : String) (on : Bool) :
    (p.stabilizeAlias name on).isAliasStabilized name' =
      if name' = name then on else p.isAliasStabilized name' :=
  any_get?_insert p.aliasFlags name name' on

/-- Where each step sets the flag of the name that it enters, each name that was entered is flagged
behind all steps, and no other flag has changed. -/
theorem flag_foldl {α σ : Type} {f : σ → String → Bool} {step : σ → String × α → σ}
    {on : String → Bool}
    (hstep : ∀ s e name, f (step s e) name = if name = e.1 then on e.1 else f s name)
    (s : σ) (es : List (String × α)) (name : String) :
    f (es.foldl step s) name = if name ∈ es.map Prod.fst then on name else f s name := by
  induction es generalizing s with
  | nil => rfl
  | cons e es ih =>
    rw [List.foldl_cons, ih, hstep, List.map_cons]
    by_cases hname : name = e.1
    · subst hname
      rw [if_pos rfl, if_pos List.mem_cons_self, ite_self]
    · simp only [List.mem_cons, hname, false_or, if_false]

theorem frame_foldl {α β σ : Type} {f : σ → β} {step : σ → α → σ}
    (hstep : ∀ s a, f (step s a) = f s) (s : σ) (as : List α) : f (as.foldl step s) = f s := by
  induction as generalizing s with
  | nil => rfl
  | cons a as ih => exact (ih (step s a)).trans (hstep s a)

/-! ## Keys -/

theorem importKey_eq (key : String) (chain : List String) :
    p.importKey environment file key chain =
      if file.stabilizedKeys.contains key || p.isKeyStabilized environment key then
        (p.setKey environment key chain).stabilizeKey environment key
          (file.stabilizedKeys.contains key)
      else p.setKey environment key chain := rfl

/-- Binds the key of an entry in the builds. -/
def bindIn (environment : String) (builds : Dict (Dict (List String)))
    (e : String × List String) : Dict (Dict (List String)) :=
  builds.alter environment fun build => (build.getD ∅).insert e.1 e.2

theorem builds_importKey (key : String) (chain : List String) :
    (p.importKey environment file key chain).builds = bindIn environment p.builds (key, chain) := by
  rw [importKey_eq]
  split_ifs
  · rfl
  · rfl

theorem keysIn_importKey (key : String) (chain : List String) :
    (p.importKey environment file key chain).keysIn environment =
      (p.keysIn environment).insert key chain := by
  unfold keysIn keys?
  rw [builds_importKey]
  unfold bindIn
  rw [Dict.get?_alter, if_pos rfl]
  rfl

/-- A key that is bound is flagged as the file says, and no other flag changes. -/
theorem isKeyStabilized_importKey (key key' : String) (chain : List String) :
    (p.importKey environment file key chain).isKeyStabilized environment key' =
      if key' = key then file.stabilizedKeys.contains key
      else p.isKeyStabilized environment key' := by
  rw [importKey_eq]
  split_ifs with hon hkey hkey
  · rw [isKeyStabilized_stabilizeKey, if_pos hkey]
  · rw [isKeyStabilized_stabilizeKey, if_neg hkey]
    rfl
  · -- the flag is off already, and off it stays
    subst hkey
    rw [Bool.or_eq_true, not_or, Bool.not_eq_true, Bool.not_eq_true] at hon
    exact hon.2.trans hon.1.symm
  · rfl

theorem isKeyStabilized_importKey_of_ne {environment' : String} (h : environment' ≠ environment)
    (key key' : String) (chain : List String) :
    (p.importKey environment file key chain).isKeyStabilized environment' key' =
      p.isKeyStabilized environment' key' := by
  rw [importKey_eq]
  split_ifs
  · exact isKeyStabilized_stabilizeKey_of_ne _ environment h key key' _
  · rfl

theorem aliases_importKey (key : String) (chain : List String) :
    (p.importKey environment file key chain).aliases = p.aliases := by
  rw [importKey_eq]
  split_ifs
  · rfl
  · rfl

theorem isAliasStabilized_importKey (key name : String) (chain : List String) :
    (p.importKey environment file key chain).isAliasStabilized name = p.isAliasStabilized name := by
  rw [importKey_eq]
  split_ifs
  · rfl
  · rfl

/-! ## Aliases -/

/-- An alias with another chain, a new one unless there is one. -/
def withChain (chain : List String) (a : Option Alias) : Alias :=
  { a.getD {} with commands := chain }

theorem importAlias_eq (name : String) (chain : List String) :
    p.importAlias file name chain =
      if file.stabilizedAliases.contains name || p.isAliasStabilized name then
        (p.setAliasCommands name chain).stabilizeAlias name (file.stabilizedAliases.contains name)
      else p.setAliasCommands name chain := rfl

theorem aliases_importAlias (name : String) (chain : List String) :
    (p.importAlias file name chain).aliases =
      p.aliases.alter name (withChain chain) := by
  rw [importAlias_eq]
  split_ifs
  · rfl
  · rfl

/-- An alias that is named is flagged as the file says, and no other flag changes. -/
theorem isAliasStabilized_importAlias (name name' : String) (chain : List String) :
    (p.importAlias file name chain).isAliasStabilized name' =
      if name' = name then file.stabilizedAliases.contains name else p.isAliasStabilized name' := by
  rw [importAlias_eq]
  split_ifs with hon hname hname
  · rw [isAliasStabilized_stabilizeAlias, if_pos hname]
  · rw [isAliasStabilized_stabilizeAlias, if_neg hname]
    rfl
  · subst hname
    rw [Bool.or_eq_true, not_or, Bool.not_eq_true, Bool.not_eq_true] at hon
    exact hon.2.trans hon.1.symm
  · rfl

theorem builds_importAlias (name : String) (chain : List String) :
    (p.importAlias file name chain).builds = p.builds := by
  rw [importAlias_eq]
  split_ifs
  · rfl
  · rfl

theorem keysIn_importAlias (name : String) (chain : List String) :
    (p.importAlias file name chain).keysIn environment = p.keysIn environment := by
  unfold keysIn keys?
  rw [builds_importAlias]

theorem isKeyStabilized_importAlias (name key : String) (chain : List String) :
    (p.importAlias file name chain).isKeyStabilized environment key =
      p.isKeyStabilized environment key := by
  rw [importAlias_eq]
  split_ifs
  · rfl
  · rfl

/-! ## Files -/

/-- The profile behind the keys of a file. -/
def importKeys : Profile :=
  file.keys.entries.foldl (fun p e => p.importKey environment file e.1 e.2) p

/-- The profile behind the keys and aliases of a file. -/
def importEntries : Profile :=
  file.aliases.entries.foldl (fun p e => p.importAlias file e.1 e.2) (p.importKeys environment file)

/-- Apart from the time of the last change an import enters keys and aliases. -/
theorem importFile_congr {β : Type} {f : Profile → β} (hf : ∀ p now, f (touch p now) = f p)
    (now : String) :
    f (p.importFile environment file now) = f (p.importEntries environment file) := by
  show f (if 0 < importCount file then (p.importEntries environment file).touch now
    else p.importEntries environment file) = _
  split_ifs
  · exact hf _ now
  · rfl

theorem keysIn_importFile (now : String) :
    (p.importFile environment file now).keysIn environment =
      file.keys.entries.foldl (fun d e => d.insert e.1 e.2) (p.keysIn environment) := by
  have hkeys : (p.importKeys environment file).keysIn environment =
      file.keys.entries.foldl (fun d e => d.insert e.1 e.2) (p.keysIn environment) :=
    (List.foldl_hom (fun p : Profile => p.keysIn environment)
      fun p e => (keysIn_importKey p environment file e.1 e.2).symm).symm
  rw [importFile_congr (f := fun p => p.keysIn environment) p environment file fun _ _ => rfl]
  exact (frame_foldl (f := fun p => p.keysIn environment)
    (fun p (e : String × List String) =>
      keysIn_importAlias p environment file e.1 e.2) _ _).trans hkeys

theorem builds_importFile (now : String) :
    (p.importFile environment file now).builds =
      file.keys.entries.foldl (bindIn environment) p.builds := by
  have hkeys : (p.importKeys environment file).builds =
      file.keys.entries.foldl (bindIn environment) p.builds :=
    (List.foldl_hom builds fun p e => (builds_importKey p environment file e.1 e.2).symm).symm
  rw [importFile_congr (f := builds) p environment file fun _ _ => rfl, ← hkeys]
  exact frame_foldl (f := builds)
    (fun p (e : String × List String) => builds_importAlias p file e.1 e.2) _ _

theorem aliases_importFile (now : String) :
    (p.importFile environment file now).aliases =
      file.aliases.entries.foldl (fun d e => d.alter e.1 (withChain e.2)) p.aliases := by
  have hkeys : (p.importKeys environment file).aliases = p.aliases :=
    frame_foldl (f := aliases)
      (fun p (e : String × List String) => aliases_importKey p environment file e.1 e.2) _ _
  rw [importFile_congr (f := aliases) p environment file fun _ _ => rfl, ← hkeys]
  exact (List.foldl_hom aliases fun p e => (aliases_importAlias p file e.1 e.2).symm).symm

/-- Behind an import the keys of the file are flagged as the file lists them, and no other flag has
changed. -/
theorem isKeyStabilized_importFile (now key : String) :
    (p.importFile environment file now).isKeyStabilized environment key =
      if key ∈ file.keys.keys then file.stabilizedKeys.contains key
      else p.isKeyStabilized environment key := by
  rw [importFile_congr (f := fun p => p.isKeyStabilized environment key) p environment file
    fun _ _ => rfl]
  refine (frame_foldl (f := fun p => p.isKeyStabilized environment key)
    (fun p (e : String × List String) =>
      isKeyStabilized_importAlias p environment file e.1 key e.2) _ _).trans ?_
  exact flag_foldl (f := fun p => p.isKeyStabilized environment)
    (fun p e key => isKeyStabilized_importKey p environment file e.1 key e.2) p
    file.keys.entries key

/-- An import leaves the flags of other environments alone. -/
theorem isKeyStabilized_importFile_of_ne {environment' : String} (h : environment' ≠ environment)
    (now key : String) :
    (p.importFile environment file now).isKeyStabilized environment' key =
      p.isKeyStabilized environment' key := by
  rw [importFile_congr (f := fun p => p.isKeyStabilized environment' key) p environment file
    fun _ _ => rfl]
  refine (frame_foldl (f := fun p => p.isKeyStabilized environment' key)
    (fun p (e : String × List String) =>
      isKeyStabilized_importAlias p environment' file e.1 key e.2) _ _).trans ?_
  exact frame_foldl (f := fun p => p.isKeyStabilized environment' key)
    (fun p (e : String × List String) =>
      isKeyStabilized_importKey_of_ne p environment file h e.1 key e.2) _ _

/-- Behind an import the aliases of the file are flagged as the file lists them, and no other flag
has changed. -/
theorem isAliasStabilized_importFile (now name : String) :
    (p.importFile environment file now).isAliasStabilized name =
      if name ∈ file.aliases.keys then file.stabilizedAliases.contains name
      else p.isAliasStabilized name := by
  have hkeys : (p.importKeys environment file).isAliasStabilized name = p.isAliasStabilized name :=
    frame_foldl (f := fun p => p.isAliasStabilized name)
      (fun p (e : String × List String) =>
        isAliasStabilized_importKey p environment file e.1 name e.2) _ _
  rw [importFile_congr (f := fun p => p.isAliasStabilized name) p environment file fun _ _ => rfl,
    ← hkeys]
  exact flag_foldl (f := isAliasStabilized)
    (fun p e name => isAliasStabilized_importAlias p file e.1 name e.2)
    (p.importKeys environment file) file.aliases.entries name

/-! ## New profiles -/

theorem keysIn_new (name created : String) : (new name created).keysIn environment = ∅ := by
  show (((((∅ : Dict (Dict (List String))).insert "space" ∅).insert "ground" ∅).get?
    environment).getD ∅) = ∅
  rw [Dict.get?_insert, Dict.get?_insert]
  split_ifs
  · rfl
  · rfl
  · rfl

/-- A new profile takes over the keys of a file. -/
theorem keysIn_importFile_new (name created now : String) :
    ((new name created).importFile environment file now).keysIn environment = file.keys := by
  refine Dict.ext ?_
  rw [keysIn_importFile, keysIn_new]
  refine (Dict.entries_foldl_alter ∅ (fun chain _ => chain) file.keys.nodup
    fun _ _ => List.not_mem_nil).trans ?_
  exact List.map_id _

/-- A new profile takes over the aliases of a file. -/
theorem entries_aliases_importFile_new (name created now : String) :
    ((new name created).importFile environment file now).aliases.entries =
      file.aliases.entries.map fun e => (e.1, { commands := e.2 }) := by
  rw [aliases_importFile]
  exact Dict.entries_foldl_alter ∅ withChain file.aliases.nodup fun _ _ => List.not_mem_nil

/-- In a new profile exactly the keys are stabilized that the file lists. -/
theorem isKeyStabilized_importFile_new (name created now : String)
    (hlisted : ∀ key ∈ file.stabilizedKeys, key ∈ file.keys.keys) (key : String) :
    ((new name created).importFile environment file now).isKeyStabilized environment key =
      file.stabilizedKeys.contains key := by
  rw [isKeyStabilized_importFile]
  split_ifs with hkey
  · rfl
  · have hnone : key ∉ file.stabilizedKeys := fun h => hkey (hlisted key h)
    rw [List.contains_eq_mem, decide_eq_false hnone]
    rfl

/-- In a new profile exactly the aliases are stabilized that the file lists. -/
theorem isAliasStabilized_importFile_new (name created now : String)
    (hlisted : ∀ a ∈ file.stabilizedAliases, a ∈ file.aliases.keys) (a : String) :
    ((new name created).importFile environment file now).isAliasStabilized a =
      file.stabilizedAliases.contains a := by
  rw [isAliasStabilized_importFile]
  split_ifs with hname
  · rfl
  · have hnone : a ∉ file.stabilizedAliases := fun h => hname (hlisted a h)
    rw [List.contains_eq_mem, decide_eq_false hnone]
    rfl

end Keybinds.Profile
