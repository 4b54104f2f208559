import Keybinds.Profile.Stored
import Keybinds.Proofs.Dict
import Keybinds.Proofs.Stored.Lists

/-!
# Between documents and profiles

Which documents give a profile, and what the profile keeps of them. `faults` lists all that the
contract forbids in a document, in the order top-level keys, keys by build, aliases. The first of
them is what a refused document is refused for, and a document without any is canonical
(`stopsAtFirst_ofDocument`, `faults_eq_nil_iff`). Of such a document everything is found again
behind the way to a profile and back, but for the mode and for a name and an environment that are
filled in (`toDocument_of_ofDocument`).
-/

namespace Keybinds

open Json (Value)
open Stored (Commands AliasEntry Build Document)

namespace Profile

variable {α β : Type}

/-! ## Faults -/

/-- The keys of a build that are not canonical. -/
def buildFaults (environment : String) (build : Build) : List ContractFault :=
  (build.keys.entries.filter fun e => !e.2.isCanonical).map fun e => .looseKey environment e.1

/-- The aliases that are not canonical. -/
def aliasFaults (d : Document) : List ContractFault :=
  (d.aliases.entries.filter fun e => !e.2.isCanonical).map fun e => .looseAlias e.1

/-- All that keeps a document from giving a profile, in order. -/
def faults (d : Document) : List ContractFault :=
  (if d.keys.isSome then [.legacyKeys] else []) ++
    ((d.builds.entries.flatMap fun e => buildFaults e.1 e.2) ++ aliasFaults d)

theorem flatMap_ite_eq_map_filter (es : List (String × α)) (p : α → Bool) (f : String → β) :
    (es.flatMap fun e => if p e.2 then [] else [f e.1]) =
      (es.filter fun e => !p e.2).map fun e => f e.1 := by
  induction es with
  | nil => rfl
  | cons e es ih =>
    rw [List.flatMap_cons, ih]
    cases h : p e.2 <;> simp [h]

theorem stopsAtFirst_mapDictM {d : Dict α} {f : String → α → Except ContractFault β}
    (faults : String → α → List ContractFault)
    (h : ∀ e ∈ d.entries, StopsAtFirst (f e.1 e.2) (faults e.1 e.2)) :
    StopsAtFirst (mapDictM d f) (d.entries.flatMap fun e => faults e.1 e.2) := by
  exact (stopsAtFirst_mapM fun e he => (h e he).map fun b => (e.1, b)).map Dict.ofList

theorem stopsAtFirst_chainOf (environment key : String) (c : Commands) :
    StopsAtFirst (chainOf environment key c)
      (if c.isCanonical then [] else [.looseKey environment key]) := by
  unfold chainOf Commands.isCanonical
  cases c.canonical? <;> rfl

theorem stopsAtFirst_keysOf (environment : String) (build : Build) :
    StopsAtFirst (keysOf environment build) (buildFaults environment build) := by
  unfold buildFaults
  rw [← flatMap_ite_eq_map_filter]
  exact stopsAtFirst_mapDictM
    (fun key c => if c.isCanonical then [] else [.looseKey environment key])
    fun e _ => stopsAtFirst_chainOf environment e.1 e.2

theorem stopsAtFirst_aliasOf (name : String) (a : AliasEntry) :
    StopsAtFirst (aliasOf name a) (if a.isCanonical then [] else [.looseAlias name]) := by
  cases a with
  | record r =>
    show StopsAtFirst _ (if r.commands.canonical?.isSome = true then [] else [_])
    cases h : r.commands.canonical? <;> simp only [aliasOf, h] <;> rfl
  | bare c => rfl
  | malformed value => rfl

/-- The unknown fields of the builds that have any. -/
def unknownFields (builds : Dict Build) : Dict (Dict Value) :=
  (builds.map Build.extra).filter fun _ extra => !extra.isEmpty

/-- The profile of a document, its keys and aliases given. -/
def assembled (d : Document) (builds : Dict (Dict (List String))) (aliases : Dict Alias) :
    Profile where
  name := d.name.getD ""
  description := d.description
  currentEnvironment := d.currentEnvironment.getD Migration.defaultEnvironment
  builds
  aliases
  keyFlags := d.keyFlags
  aliasFlags := d.aliasFlags
  version := d.version
  created := d.created
  lastModified := d.lastModified
  buildExtra := unknownFields d.builds
  extra := d.extra

theorem ofDocument_eq (d : Document) :
    ofDocument d = (if d.keys.isSome then .error .legacyKeys else .ok ()) >>= fun _ =>
      mapDictM d.builds keysOf >>= fun builds =>
        mapDictM d.aliases aliasOf >>= fun aliases => .ok (assembled d builds aliases) := by
  unfold ofDocument
  cases d.keys <;> rfl

/-- A document is refused for the first of its faults. -/
theorem stopsAtFirst_ofDocument (d : Document) : StopsAtFirst (ofDocument d) (faults d) := by
  rw [ofDocument_eq]
  unfold faults
  refine StopsAtFirst.bind ?_ fun _ _ => ?_
  · cases d.keys <;> rfl
  · refine (stopsAtFirst_mapDictM _ fun e _ => stopsAtFirst_keysOf e.1 e.2).bind fun _ _ => ?_
    unfold aliasFaults
    rw [← flatMap_ite_eq_map_filter]
    exact (stopsAtFirst_mapDictM (fun name a => if a.isCanonical then [] else [.looseAlias name])
      fun e _ => stopsAtFirst_aliasOf e.1 e.2).map fun aliases => assembled d _ aliases

theorem map_filter_eq_nil_iff {es : List (String × α)} {p : α → Bool} {f : String → β} :
    (es.filter fun e => !p e.2).map (fun e => f e.1) = [] ↔ ∀ a ∈ es.map Prod.snd, p a = true := by
  rw [List.map_eq_nil_iff, List.filter_eq_nil_iff, List.forall_mem_map]
  simp only [Bool.not_eq_true, Bool.not_eq_false']

/-- A document is canonical just if nothing in it is a fault. -/
theorem faults_eq_nil_iff {d : Document} : faults d = [] ↔ d.isCanonical = true := by
  have hkeys : (if d.keys.isSome = true then [ContractFault.legacyKeys] else []) = [] ↔
      d.keys = none := by
    cases d.keys <;> simp
  unfold faults buildFaults aliasFaults
  rw [List.append_eq_nil_iff, List.append_eq_nil_iff, List.flatMap_eq_nil_iff, hkeys,
    map_filter_eq_nil_iff, Document.isCanonical_iff]
  simp only [map_filter_eq_nil_iff, Dict.values, List.forall_mem_map]

theorem exists_ofDocument_iff {d : Document} :
    (∃ p, ofDocument d = .ok p) ↔ d.isCanonical = true :=
  (stopsAtFirst_ofDocument d).exists_ok_iff.trans faults_eq_nil_iff

/-! ## Dictionaries -/

theorem mapDictM_eq_ok_iff {d : Dict α} {f : String → α → Except ContractFault β} {d' : Dict β} :
    mapDictM d f = .ok d' ↔
      List.Forall₂ (fun e e' => e'.1 = e.1 ∧ f e.1 e.2 = .ok e'.2) d.entries d'.entries := by
  have hentry : ∀ (e : String × α) (e' : String × β),
      (do return (e.1, ← f e.1 e.2) : Except ContractFault (String × β)) = .ok e' ↔
        e'.1 = e.1 ∧ f e.1 e.2 = .ok e'.2 := by
    intro e e'
    constructor
    · intro h
      obtain ⟨b, hb, h⟩ := bind_eq_ok_iff.1 h
      cases h
      exact ⟨rfl, hb⟩
    · rintro ⟨hfst, hsnd⟩
      rw [hsnd, ← hfst]
      rfl
  have hkeys : ∀ {es : List (String × β)},
      List.Forall₂ (fun e e' => e'.1 = e.1 ∧ f e.1 e.2 = .ok e'.2) d.entries es →
        (es.map Prod.fst).Nodup := by
    intro es h
    have hfst : d.entries.map Prod.fst = es.map Prod.fst := by
      rw [← List.forall₂_eq_eq_eq, List.forall₂_map_left_iff, List.forall₂_map_right_iff]
      exact h.imp fun _ _ h => h.1.symm
    exact hfst ▸ d.nodup
  unfold mapDictM
  constructor
  · intro h
    obtain ⟨es, hes, h⟩ := bind_eq_ok_iff.1 h
    cases h
    have hes := (mapM_eq_ok_iff.1 hes).imp fun e e' h => (hentry e e').1 h
    rwa [Dict.entries_ofList (hkeys hes)]
  · intro h
    have hes := mapM_eq_ok_iff.2 (h.imp fun e e' h => (hentry e e').2 h)
    refine bind_eq_ok_iff.2 ⟨d'.entries, hes, ?_⟩
    exact congrArg Except.ok (Dict.ext (Dict.entries_ofList d'.nodup))

/-- What undoes the function on each value undoes the map. -/
theorem mapWithKey_of_mapDictM {d : Dict α} {f : String → α → Except ContractFault β} {d' : Dict β}
    (h : mapDictM d f = .ok d') {g : String → β → α}
    (hg : ∀ e ∈ d.entries, ∀ b, f e.1 e.2 = .ok b → g e.1 b = e.2) : d'.mapWithKey g = d := by
  refine Dict.ext (Eq.symm ?_)
  rw [Dict.entries_mapWithKey, ← List.forall₂_eq_eq_eq, List.forall₂_map_right_iff]
  refine ((List.forall₂_and_left _ _).2 ⟨hg, mapDictM_eq_ok_iff.1 h⟩).imp ?_
  rintro e e' ⟨hg, hfst, hsnd⟩
  rw [hfst, hg e'.2 hsnd]

/-- What the function undoes on each value is undone by the map. -/
theorem mapDictM_mapWithKey {d : Dict β} {f : String → α → Except ContractFault β}
    {g : String → β → α} (hf : ∀ e ∈ d.entries, f e.1 (g e.1 e.2) = .ok e.2) :
    mapDictM (d.mapWithKey g) f = .ok d := by
  rw [mapDictM_eq_ok_iff, Dict.entries_mapWithKey, List.forall₂_map_left_iff, List.forall₂_same]
  exact fun e he => ⟨rfl, hf e he⟩

/-! ## There and back -/

/-- The build that stores some keys, with its unknown fields looked up. -/
def storedBuild (unknown : Dict (Dict Value)) (environment : String) (keys : Dict (List String)) :
    Build where
  keys := keys.map Commands.ofChain
  extra := (unknown.get? environment).getD ∅

def storedAlias (_ : String) (a : Alias) : AliasEntry := .record (recordOf a)

theorem builds_toDocument (p : Profile) :
    (toDocument p).builds = p.builds.mapWithKey (storedBuild p.buildExtra) := rfl

theorem aliases_toDocument (p : Profile) :
    (toDocument p).aliases = p.aliases.mapWithKey storedAlias := rfl

theorem chainOf_eq_ok_iff {environment key : String} {c : Commands} {chain : List String} :
    chainOf environment key c = .ok chain ↔ c.canonical? = some chain := by
  unfold chainOf
  cases c.canonical? with
  | none => exact iff_of_false nofun nofun
  | some found => rw [Except.ok.injEq, Option.some.injEq]

theorem map_ofChain_of_keysOf {environment : String} {build : Build}
    {keys : Dict (List String)} (h : keysOf environment build = .ok keys) :
    keys.map Commands.ofChain = build.keys := by
  refine mapWithKey_of_mapDictM (g := fun _ => Commands.ofChain) h fun e _ chain hchain => ?_
  exact (Commands.canonical?_eq_some.1 (chainOf_eq_ok_iff.1 hchain)).1.symm

theorem storedAlias_of_aliasOf {name : String} {entry : AliasEntry} {a : Alias}
    (h : aliasOf name entry = .ok a) : storedAlias name a = entry := by
  cases entry with
  | record r =>
    unfold aliasOf at h
    dsimp only at h
    split at h
    · rename_i commands hcommands
      cases h
      show AliasEntry.record { r with commands := .ofChain commands } = .record r
      rw [← (Commands.canonical?_eq_some.1 hcommands).1]
    · cases h
  | bare c => cases h
  | malformed value => cases h

/-- The unknown fields of a build are found again under its environment. -/
theorem getD_unknownFields {builds : Dict Build} {e : String × Build} (he : e ∈ builds.entries) :
    ((unknownFields builds).get? e.1).getD ∅ = e.2.extra := by
  unfold unknownFields
  rw [Dict.get?_filter, Dict.get?_map, Dict.get?_eq_some_iff.2 he]
  show ((some e.2.extra).filter fun extra => !extra.isEmpty).getD ∅ = e.2.extra
  rw [Option.filter_some]
  split_ifs with hempty
  · rfl
  · rw [Bool.not_eq_true, Bool.not_eq_false'] at hempty
    exact Dict.ext (List.isEmpty_iff.1 hempty).symm

/-- The document with an empty name and the default environment where it names none, and without a
mode. -/
def filledIn (d : Document) : Document :=
  { d with
    name := some (d.name.getD "")
    currentEnvironment := some (d.currentEnvironment.getD Migration.defaultEnvironment)
    mode := none }

theorem exists_assembled {d : Document} {p : Profile} (h : ofDocument d = .ok p) :
    d.keys = none ∧ ∃ builds aliases, mapDictM d.builds keysOf = .ok builds ∧
      mapDictM d.aliases aliasOf = .ok aliases ∧ p = assembled d builds aliases := by
  rw [ofDocument_eq] at h
  obtain ⟨⟨⟩, hnone, h⟩ := bind_eq_ok_iff.1 h
  obtain ⟨builds, hbuilds, h⟩ := bind_eq_ok_iff.1 h
  obtain ⟨aliases, haliases, h⟩ := bind_eq_ok_iff.1 h
  refine ⟨?_, builds, aliases, hbuilds, haliases, (Except.ok.inj h).symm⟩
  cases hkeys : d.keys with
  | none => rfl
  | some keys =>
    rw [hkeys] at hnone
    cases hnone

/-- A profile is stored as the document that it was made of. -/
theorem toDocument_of_ofDocument {d : Document} {p : Profile} (h : ofDocument d = .ok p) :
    toDocument p = filledIn d := by
  obtain ⟨hkeys, builds, aliases, hbuilds, haliases, rfl⟩ := exists_assembled h
  have hbuilds : (toDocument (assembled d builds aliases)).builds = d.builds := by
    rw [builds_toDocument]
    refine mapWithKey_of_mapDictM hbuilds fun e he keys hkeys => ?_
    exact congrArg₂ Build.mk (map_ofChain_of_keysOf hkeys) (getD_unknownFields he)
  have haliases : (toDocument (assembled d builds aliases)).aliases = d.aliases := by
    rw [aliases_toDocument]
    exact mapWithKey_of_mapDictM haliases fun e _ a ha => storedAlias_of_aliasOf ha
  unfold filledIn
  rw [← hbuilds, ← haliases, hkeys]
  rfl

/-- Exactly the canonical documents give a profile, and another is refused for the first of its
faults. The profile is stored as the document that it was made of, unknown fields and all orders
included; only a missing name or environment is filled in then, and the mode is gone. -/
theorem ofDocument_faithful (d : Document) :
    ((∃ p, ofDocument d = .ok p) ↔ d.isCanonical = true) ∧
      (∀ fault, ofDocument d = .error fault ↔ (faults d).head? = some fault) ∧
      ∀ p, ofDocument d = .ok p → toDocument p = filledIn d :=
  ⟨exists_ofDocument_iff, fun _ => (stopsAtFirst_ofDocument d).eq_error_iff,
    fun _ => toDocument_of_ofDocument⟩

/-- A document that has unknown fields at all levels and names neither itself nor an environment. -/
def labelledDocument : Document where
  mode := some "ground"
  builds := Dict.ofList
    [("space", { keys := Dict.ofList [("F1", .ofChain ["FireAll", "say \"a $$ b\""])]
                 extra := Dict.ofList [("label", .string "Main ship")] }),
      ("ground", {})]
  aliases := Dict.ofList [("attack", .record
    { commands := .ofChain ["FireAll"]
      tag := some "user"
      extra := Dict.ofList [("color", .string "red")] })]
  extra := Dict.ofList [("theme", .string "dark")]

theorem ofDocument_labelled : labelledDocument.isCanonical = true ∧
    ∃ p, ofDocument labelledDocument = .ok p ∧ toDocument p = filledIn labelledDocument := by
  have hcanonical : labelledDocument.isCanonical = true := by decide +kernel
  obtain ⟨hexists, -, hback⟩ := ofDocument_faithful labelledDocument
  obtain ⟨p, hp⟩ := hexists.2 hcanonical
  exact ⟨hcanonical, p, hp, hback p hp⟩

end Profile

end Keybinds
