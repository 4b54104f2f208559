import Keybinds.BindFile.Basic
import Keybinds.Proofs.Profile.Conversion
import Keybinds.Proofs.Profile.Import

/-!
# The contract under edits

A profile that is new or was made of a document keeps the contract of stored profiles, whatever is
done to it, as long as the chains that are handed in are canonical (`keepsContract_run`): it is
stored as a canonical document without a mode and without top-level keys, unknown fields belong to
environments that are there, and the document gives the same profile again.

What every edit preserves is `Lawful`. The order matters in it: unknown fields stand in the order of
the environments, which is how they are found again when the document is read.
-/

namespace Keybinds.Profile

open Json (Value)
open Stored (Commands AliasEntry Build Document)

/-! ## Edits -/

/-- What may be done to a profile. -/
inductive Edit where
  | openEnvironment (environment : String)
  | setKey (environment key : String) (chain : List String)
  | setAlias (name : String) (a : Alias)
  | stabilizeKey (environment key : String) (on : Bool)
  | stabilizeAlias (name : String) (on : Bool)
  | importFile (environment : String) (file : BindFile) (now : String)
  | touch (now : String)

namespace Edit

/-- The profile behind an edit. -/
def apply (p : Profile) : Edit → Profile
  | openEnvironment environment => p.withEnvironment environment
  | setKey environment key chain => p.setKey environment key chain
  | setAlias name a => p.setAlias name a
  | stabilizeKey environment key on => p.stabilizeKey environment key on
  | stabilizeAlias name on => p.stabilizeAlias name on
  | importFile environment file now => p.importFile environment file now
  | touch now => p.touch now

/-- The chains that an edit hands in. -/
def chains : Edit → List (List String)
  | setKey _ _ chain => [chain]
  | setAlias _ a => [a.commands]
  | importFile _ file _ => file.keys.values ++ file.aliases.values
  | _ => []

/-- Whether all chains that an edit hands in consist of canonical commands. -/
def IsCanonical (edit : Edit) : Prop :=
  ∀ chain ∈ edit.chains, ∀ command ∈ chain, Chain.isCanonical command = true

instance : DecidablePred IsCanonical := fun edit =>
  inferInstanceAs (Decidable (∀ chain ∈ edit.chains, _))

end Edit

/-- The profile behind some edits in turn. -/
def run (p : Profile) (edits : List Edit) : Profile := edits.foldl Edit.apply p

/-- The profiles that a run starts from. -/
inductive IsStart : Profile → Prop
  | new (name now : String) : IsStart (new name now)
  | loaded {d : Document} {p : Profile} (h : ofDocument d = .ok p) : IsStart p

/-! ## What edits preserve -/

/-- All chains of the profile are canonical, and unknown fields are kept, in the order of the
environments, where there are any. -/
structure Lawful (p : Profile) : Prop where
  keys : ∀ keys ∈ p.builds.values, ∀ chain ∈ keys.values, ∀ command ∈ chain,
    Chain.isCanonical command = true
  aliases : ∀ a ∈ p.aliases.values, ∀ command ∈ a.commands, Chain.isCanonical command = true
  unknown : ∀ fields ∈ p.buildExtra.values, fields.isEmpty = false
  ordered : p.buildExtra.keys.Sublist p.builds.keys

theorem isCanonical_toDocument_iff {p : Profile} :
    (toDocument p).isCanonical = true ↔
      (∀ keys ∈ p.builds.values, ∀ chain ∈ keys.values, ∀ command ∈ chain,
        Chain.isCanonical command = true) ∧
      ∀ a ∈ p.aliases.values, ∀ command ∈ a.commands, Chain.isCanonical command = true := by
  have hbuild : ∀ e : String × Dict (List String),
      (∀ c ∈ (storedBuild p.buildExtra e.1 e.2).keys.values, c.isCanonical = true) ↔
        ∀ chain ∈ e.2.values, ∀ command ∈ chain, Chain.isCanonical command = true := by
    intro e
    show (∀ c ∈ (e.2.map Commands.ofChain).values, c.isCanonical = true) ↔ _
    rw [Dict.values_map, List.forall_mem_map]
    simp only [Commands.isCanonical_ofChain_iff]
  have halias : ∀ e : String × Alias, (storedAlias e.1 e.2).isCanonical = true ↔
      ∀ command ∈ e.2.commands, Chain.isCanonical command = true :=
    fun e => Commands.isCanonical_ofChain_iff
  rw [Document.isCanonical_iff, builds_toDocument, aliases_toDocument, Dict.values_mapWithKey,
    Dict.values_mapWithKey, List.forall_mem_map, List.forall_mem_map]
  simp only [hbuild, halias]
  show _ ∧ _ ∧ _ ↔ (∀ keys ∈ p.builds.entries.map Prod.snd, _) ∧
    ∀ a ∈ p.aliases.entries.map Prod.snd, _
  rw [List.forall_mem_map, List.forall_mem_map]
  exact and_iff_right rfl

theorem lawful_new (name now : String) : Lawful (new name now) where
  keys keys hkeys chain hchain := by
    have hvalues : (new name now).builds.values = [∅, ∅] := rfl
    rw [hvalues] at hkeys
    obtain rfl : keys = ∅ := by simpa using hkeys
    exact absurd hchain List.not_mem_nil
  aliases := nofun
  unknown := nofun
  ordered := List.nil_sublist _

theorem lawful_of_ofDocument {d : Document} {p : Profile} (h : ofDocument d = .ok p) :
    Lawful p := by
  have hback := toDocument_of_ofDocument h
  have hcanonical : (toDocument p).isCanonical = true := by
    rw [hback]
    exact exists_ofDocument_iff.1 ⟨p, h⟩
  have hkeys : p.builds.keys = d.builds.keys := by
    have hbuilds : (toDocument p).builds.keys = d.builds.keys :=
      congrArg (fun d => d.builds.keys) hback
    rwa [builds_toDocument, Dict.keys_mapWithKey] at hbuilds
  have hunknown : p.buildExtra = unknownFields d.builds := by
    obtain ⟨-, builds, aliases, -, -, rfl⟩ := exists_assembled h
    rfl
  obtain ⟨hchains, haliases⟩ := isCanonical_toDocument_iff.1 hcanonical
  refine ⟨hchains, haliases, ?_, ?_⟩
  · rw [hunknown]
    intro fields hfields
    obtain ⟨environment, he⟩ := Dict.mem_values_iff.1 hfields
    have hne := (List.mem_filter.1 he).2
    rwa [Bool.not_eq_true'] at hne
  · rw [hunknown, hkeys, ← Dict.keys_map d.builds Build.extra]
    exact Dict.keys_filter_sublist _ _

namespace Lawful

variable {p : Profile} (h : Lawful p)

include h in
/-- Flags and times do not matter. -/
theorem congr {q : Profile} (hbuilds : q.builds = p.builds) (haliases : q.aliases = p.aliases)
    (hunknown : q.buildExtra = p.buildExtra) : Lawful q where
  keys := hbuilds ▸ h.keys
  aliases := haliases ▸ h.aliases
  unknown := hunknown ▸ h.unknown
  ordered := hbuilds ▸ hunknown ▸ h.ordered

include h in
theorem mem_keysIn {environment : String} {chain : List String}
    (hchain : chain ∈ (p.keysIn environment).values) :
    ∀ command ∈ chain, Chain.isCanonical command = true := by
  unfold keysIn keys? at hchain
  cases hkeys : p.builds.get? environment with
  | none =>
    rw [hkeys] at hchain
    exact absurd hchain List.not_mem_nil
  | some keys =>
    rw [hkeys] at hchain
    have hmem := Dict.mem_values_iff.2 ⟨environment, Dict.get?_eq_some_iff.1 hkeys⟩
    exact h.keys keys hmem chain hchain

include h in
theorem alterBuilds (environment : String) (f : Option (Dict (List String)) → Dict (List String))
    (hf : ∀ chain ∈ (f (p.builds.get? environment)).values, ∀ command ∈ chain,
      Chain.isCanonical command = true) :
    Lawful { p with builds := p.builds.alter environment f } where
  keys keys hkeys := by
    rcases Dict.mem_values_alter hkeys with rfl | hkeys
    · exact hf
    · exact h.keys keys hkeys
  aliases := h.aliases
  unknown := h.unknown
  ordered := h.ordered.trans (Dict.keys_sublist_alter _ _ _)

include h in
theorem alterAliases (name : String) (f : Option Alias → Alias)
    (hf : ∀ command ∈ (f (p.aliases.get? name)).commands, Chain.isCanonical command = true) :
    Lawful { p with aliases := p.aliases.alter name f } where
  keys := h.keys
  aliases a ha := by
    rcases Dict.mem_values_alter ha with rfl | ha
    · exact hf
    · exact h.aliases a ha
  unknown := h.unknown
  ordered := h.ordered

include h in
theorem withEnvironment (environment : String) : Lawful (p.withEnvironment environment) :=
  h.alterBuilds environment _ fun _ => h.mem_keysIn

section

variable {chain : List String} (hchain : ∀ command ∈ chain, Chain.isCanonical command = true)

include h hchain

theorem setKey (environment key : String) : Lawful (p.setKey environment key chain) := by
  refine h.alterBuilds environment _ fun chain' hchain' => ?_
  rcases Dict.mem_values_alter hchain' with rfl | hchain'
  · exact hchain
  · exact h.mem_keysIn hchain'

theorem setAliasCommands (name : String) : Lawful (p.setAliasCommands name chain) :=
  h.alterAliases name _ hchain

theorem importKey (environment : String) (file : BindFile) (key : String) :
    Lawful (p.importKey environment file key chain) := by
  have hset := h.setKey hchain environment key
  rw [importKey_eq]
  split_ifs
  · exact hset.congr rfl rfl rfl
  · exact hset

theorem importAlias (file : BindFile) (name : String) : Lawful (p.importAlias file name chain) := by
  have hset := h.setAliasCommands hchain name
  rw [importAlias_eq]
  split_ifs
  · exact hset.congr rfl rfl rfl
  · exact hset

end

include h in
theorem importFile (environment : String) {file : BindFile} (now : String)
    (hfile : ∀ chain ∈ file.keys.values ++ file.aliases.values, ∀ command ∈ chain,
      Chain.isCanonical command = true) : Lawful (p.importFile environment file now) := by
  rw [List.forall_mem_append] at hfile
  have hkeys : Lawful (p.importKeys environment file) := by
    refine List.foldlRecOn (motive := Lawful) file.keys.entries _ h fun q hq e he => ?_
    exact hq.importKey (hfile.1 e.2 (Dict.mem_values_iff.2 ⟨_, he⟩)) environment file e.1
  have hentries : Lawful (p.importEntries environment file) := by
    refine List.foldlRecOn (motive := Lawful) file.aliases.entries _ hkeys fun q hq e he => ?_
    exact hq.importAlias (hfile.2 e.2 (Dict.mem_values_iff.2 ⟨_, he⟩)) file e.1
  show Lawful (if 0 < importCount file then (p.importEntries environment file).touch now
    else p.importEntries environment file)
  split_ifs
  · exact hentries.congr rfl rfl rfl
  · exact hentries

include h in
/-- Every edit that hands in canonical chains only keeps a profile lawful. -/
theorem apply {edit : Edit} (hedit : edit.IsCanonical) : Lawful (edit.apply p) := by
  cases edit with
  | openEnvironment environment => exact h.withEnvironment environment
  | setKey environment key chain => exact h.setKey (hedit chain List.mem_cons_self) environment key
  | setAlias name a => exact h.alterAliases name _ (hedit a.commands List.mem_cons_self)
  | stabilizeKey environment key on => exact h.congr rfl rfl rfl
  | stabilizeAlias name on => exact h.congr rfl rfl rfl
  | importFile environment file now => exact h.importFile environment now hedit
  | touch now => exact h.congr rfl rfl rfl

include h in
theorem run {edits : List Edit} (hedits : ∀ edit ∈ edits, edit.IsCanonical) :
    Lawful (p.run edits) :=
  List.foldlRecOn (motive := Lawful) edits _ h fun _ hq edit hedit => hq.apply (hedits edit hedit)

end Lawful

/-! ## The document of a lawful profile -/

/-- What is looked up under keys is found again by the keys it is not empty under. -/
theorem filter_lookup_eq_self {ks : List String} (hks : ks.Nodup)
    {es : List (String × Dict Value)} (hsub : (es.map Prod.fst).Sublist ks)
    (hne : ∀ e ∈ es, e.2.isEmpty = false) :
    (ks.map fun k => (k, (es.lookup k).getD ∅)).filter (fun e => !e.2.isEmpty) = es := by
  induction ks generalizing es with
  | nil => rw [List.map_eq_nil_iff.1 (List.sublist_nil.1 hsub), List.map_nil, List.filter_nil]
  | cons k ks ih =>
    rw [List.nodup_cons] at hks
    by_cases hk : k ∈ es.map Prod.fst
    · -- Were the first entry under another key, `k` would stand among the later keys.
      cases es with
      | nil => exact absurd hk List.not_mem_nil
      | cons e es =>
        rw [List.map_cons] at hsub hk
        rw [List.forall_mem_cons] at hne
        rcases List.cons_sublist_cons'.1 hsub with hlater | ⟨rfl, hrest⟩
        · exact absurd (hlater.subset hk) hks.1
        · have hlookup : ∀ k ∈ ks,
              (k, ((e :: es).lookup k).getD ∅) = (k, (es.lookup k).getD ∅) := by
            intro k hk
            have hkne : k ≠ e.1 := fun heq => hks.1 (heq ▸ hk)
            rw [Dict.lookup_cons_eq_ite, if_neg hkne]
          rw [List.map_cons, Dict.lookup_cons_eq_ite, if_pos rfl, Option.getD_some,
            List.filter_cons_of_pos (by rw [hne.1]; rfl), List.map_congr_left hlookup,
            ih hks.2 hrest hne.2]
    · have hnone : es.lookup k = none := by
        refine Option.eq_none_iff_forall_ne_some.2 fun a ha => hk ?_
        exact List.mem_map_of_mem (f := Prod.fst) (Dict.mem_of_lookup ha)
      have hsub : (es.map Prod.fst).Sublist ks := by
        rcases List.sublist_cons_iff.1 hsub with hsub | ⟨r, heq, -⟩
        · exact hsub
        · exact absurd (heq ▸ List.mem_cons_self) hk
      rw [List.map_cons, hnone, List.filter_cons_of_neg (Bool.eq_false_iff.1 rfl),
        ih hks.2 hsub hne]

namespace Lawful

variable {p : Profile} (h : Lawful p)

include h in
theorem unknownFields_toDocument : unknownFields (toDocument p).builds = p.buildExtra := by
  refine Dict.ext ?_
  have hne : ∀ e ∈ p.buildExtra.entries, e.2.isEmpty = false := fun e he =>
    h.unknown e.2 (Dict.mem_values_iff.2 ⟨e.1, he⟩)
  rw [← filter_lookup_eq_self p.builds.nodup h.ordered hne, List.map_map]
  unfold unknownFields
  rw [builds_toDocument, Dict.map_mapWithKey, Dict.entries_filter, Dict.entries_mapWithKey]
  rfl

include h in
/-- A lawful profile is what its document gives. -/
theorem ofDocument_toDocument : ofDocument (toDocument p) = .ok p := by
  have hbuilds : mapDictM (toDocument p).builds keysOf = .ok p.builds := by
    rw [builds_toDocument]
    refine mapDictM_mapWithKey fun build hbuild => mapDictM_mapWithKey fun e he => ?_
    rw [chainOf_eq_ok_iff]
    have hvalue := Dict.mem_values_iff.2 ⟨build.1, hbuild⟩
    exact Commands.canonical?_eq_some.2 ⟨rfl, h.keys _ hvalue e.2 (Dict.mem_values_iff.2 ⟨_, he⟩)⟩
  have haliases : mapDictM (toDocument p).aliases aliasOf = .ok p.aliases := by
    rw [aliases_toDocument]
    refine mapDictM_mapWithKey fun e he => ?_
    have hcommands : (Commands.ofChain e.2.commands).canonical? = some e.2.commands :=
      Commands.canonical?_eq_some.2 ⟨rfl, h.aliases e.2 (Dict.mem_values_iff.2 ⟨e.1, he⟩)⟩
    unfold storedAlias recordOf aliasOf
    dsimp only
    rw [hcommands]
  have hassembled : assembled (toDocument p) p.builds p.aliases = p := by
    unfold assembled
    rw [h.unknownFields_toDocument]
    rfl
  rw [ofDocument_eq, hbuilds, haliases]
  exact congrArg Except.ok hassembled

end Lawful

/-! ## The contract -/

/-- What is promised of a profile: its document is canonical and has neither a mode nor top-level
keys, unknown fields are kept for environments that are there and have some, and the document gives
the profile again. -/
structure KeepsContract (p : Profile) : Prop where
  canonical : (toDocument p).isCanonical = true
  mode : (toDocument p).mode = none
  keys : (toDocument p).keys = none
  unknown : ∀ e ∈ p.buildExtra.entries, e.2.isEmpty = false ∧ e.1 ∈ p.builds.keys
  readsBack : ofDocument (toDocument p) = .ok p

theorem Lawful.keepsContract {p : Profile} (h : Lawful p) : KeepsContract p where
  canonical := isCanonical_toDocument_iff.2 ⟨h.keys, h.aliases⟩
  mode := rfl
  keys := rfl
  unknown e he := by
    refine ⟨h.unknown e.2 (Dict.mem_values_iff.2 ⟨e.1, he⟩), ?_⟩
    exact h.ordered.subset (List.mem_map_of_mem (f := Prod.fst) he)
  readsBack := h.ofDocument_toDocument

theorem IsStart.lawful {p : Profile} (h : IsStart p) : Lawful p := by
  cases h with
  | new name now => exact lawful_new name now
  | loaded h => exact lawful_of_ofDocument h

/-- A new profile and one that was made of a document keep the contract at every point of a run of
edits, as long as the chains that are handed in are canonical. -/
theorem keepsContract_run {p : Profile} (hstart : IsStart p) {edits : List Edit}
    (hedits : ∀ edit ∈ edits, edit.IsCanonical) (n : Nat) : KeepsContract (p.run (edits.take n)) :=
  (hstart.lawful.run fun edit hedit => hedits edit (List.mem_of_mem_take hedit)).keepsContract

/-- Edits of each kind, of an environment that is there and of one that is not. -/
def sampleEdits : List Edit :=
  [.openEnvironment "ground", .setKey "sector" "F2" ["FireAll", "say \"a $$ b\""],
    .setAlias "guard" { commands := ["+power_exec Shield"], tag := some "alias" },
    .stabilizeKey "sector" "F2" true, .stabilizeAlias "attack" false,
    .importFile "space"
      { keys := Dict.ofList [("F1", ["FireAll"])]
        aliases := Dict.ofList [("attack", ["FireAll", "FirePhasers"])]
        stabilizedAliases := ["attack"] } "2001-02-03T04:05:06+00:00",
    .touch "2001-02-03T04:05:07+00:00"]

theorem keepsContract_run_labelled : (∀ edit ∈ sampleEdits, edit.IsCanonical) ∧
    ∃ p, ofDocument labelledDocument = .ok p ∧ KeepsContract (p.run (sampleEdits.take 6)) := by
  have hedits : ∀ edit ∈ sampleEdits, edit.IsCanonical := by decide +kernel
  have hcanonical : labelledDocument.isCanonical = true := by decide +kernel
  obtain ⟨p, hp⟩ := exists_ofDocument_iff.2 hcanonical
  exact ⟨hedits, p, hp, keepsContract_run (.loaded hp) hedits 6⟩

end Keybinds.Profile
