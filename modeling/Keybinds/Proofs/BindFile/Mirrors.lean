import Keybinds.Proofs.BindFile.RoundTrip
import Keybinds.Proofs.Profile.Import

/-!
# Stabilized chains read back

A stabilized chain is written mirrored, and a reader that looks for mirrors takes it apart again. It
takes apart a chain that is mirrored by itself as well. In a profile without such chains
(`NoLooseMirrors`) what is written is read back as the chains and flags that the profile holds, and
a new profile that imports it holds them again (`stabilized_reads_back`).
-/

namespace Keybinds.BindFile

/-! ## Chains and flags of a profile -/

/-- The entries of a realm whose chains are not empty. -/
def chainsOf (options : WriteOptions) (p : Profile) : Realm → List (String × List String)
  | .keys => (options.keysOf p).filter fun e => !e.2.isEmpty
  | .aliases => (p.aliases.entries.map fun e => (e.1, e.2.commands)).filter fun e => !e.2.isEmpty

/-- Whether a name of a realm is stabilized. -/
def isStabilized (options : WriteOptions) (p : Profile) : Realm → String → Bool
  | .keys => p.isKeyStabilized (options.environmentOf p)
  | .aliases => p.isAliasStabilized

/-- No chain that is not stabilized is a list followed by its reverse. -/
def NoLooseMirrors (options : WriteOptions) (p : Profile) : Prop :=
  ∀ realm, ∀ e ∈ chainsOf options p realm, isStabilized options p realm e.1 = false →
    ∀ half, e.2 ≠ Chain.mirror half

variable {options : WriteOptions} {p : Profile}

theorem chain_ne_nil_of_mem_chainsOf {realm : Realm} {e : String × List String}
    (he : e ∈ chainsOf options p realm) : e.2 ≠ [] := by
  cases realm with
  | keys => simpa using (List.mem_filter.1 he).2
  | aliases => simpa using (List.mem_filter.1 he).2

/-- A profile has no loose mirrors if the reader takes none of their chains apart. -/
theorem noLooseMirrors_iff : NoLooseMirrors options p ↔
    ∀ realm, ∀ e ∈ chainsOf options p realm, isStabilized options p realm e.1 = false →
      Chain.half? e.2 = none := by
  unfold NoLooseMirrors
  refine forall_congr' fun realm => forall₂_congr fun e he => imp_congr_right fun _ => ?_
  simp only [Option.eq_none_iff_forall_ne_some, ne_eq, Chain.half?_eq_some_iff, not_and,
    chain_ne_nil_of_mem_chainsOf he, not_false_eq_true, forall_const]

/-! ## Reading -/

/-- The entries are written in order, each chain as its flag wants it. -/
theorem inRealm_written (options : WriteOptions) (p : Profile) (realm : Realm) :
    inRealm realm (written options p) = (chainsOf options p realm).map fun e =>
      ⟨realm, e.1, writtenChain (isStabilized options p realm e.1) e.2⟩ := by
  cases realm with
  | keys =>
    rw [inRealm_written_keys]
    unfold writtenKeys
    rw [List.map_map]
    rfl
  | aliases =>
    rw [inRealm_written_aliases]
    unfold writtenAliases chainsOf
    rw [List.map_map, List.filter_map, List.map_map]
    rfl

/-- A written chain is taken apart just if it is stabilized. -/
theorem stored_writtenChain (rules : NameRules) {realm : Realm} {name : String} {on : Bool}
    {chain : List String} (hne : chain ≠ []) (hloose : on = false → Chain.half? chain = none) :
    stored ⟨rules, true⟩ ⟨realm, name, writtenChain on chain⟩ = (chain, on) := by
  cases on with
  | true =>
    show collapse true (Chain.mirror chain) = _
    unfold collapse
    rw [Chain.half?_mirror hne]
  | false =>
    show collapse true chain = _
    unfold collapse
    rw [hloose rfl]

/-- A written profile is read back as its chains and flags. -/
theorem entries_read_write (h : NoLooseMirrors options p) {file : BindFile}
    (hlists : Lists ⟨options.rules, true⟩ file (written options p)) (realm : Realm) :
    (file.declared realm).entries = chainsOf options p realm ∧
      file.stabilized realm = ((chainsOf options p realm).filter fun e =>
        isStabilized options p realm e.1).map Prod.fst := by
  have hstored : ∀ e ∈ chainsOf options p realm, stored ⟨options.rules, true⟩
      ⟨realm, e.1, writtenChain (isStabilized options p realm e.1) e.2⟩ =
        (e.2, isStabilized options p realm e.1) := by
    intro e he
    exact stored_writtenChain options.rules (chain_ne_nil_of_mem_chainsOf he)
      (noLooseMirrors_iff.1 h realm e he)
  rw [hlists.entries, hlists.stabilized, inRealm_written]
  constructor
  · rw [List.map_map]
    refine (List.map_congr_left fun e he => ?_).trans (List.map_id _)
    exact congrArg (fun chain : List String × Bool => (e.1, chain.1)) (hstored e he)
  · rw [List.filter_map, List.map_map]
    refine congrArg (List.map Prod.fst) (List.filter_congr fun e he => ?_)
    exact congrArg Prod.snd (hstored e he)

/-! ## Importing -/

/-- A profile holds, in an environment, the chains and flags that another one was written with. -/
structure Reproduces (options : WriteOptions) (p : Profile) (environment : String)
    (q : Profile) : Prop where
  keys : (q.keysIn environment).entries = chainsOf options p .keys
  aliases : q.aliases.entries.map (fun e => (e.1, e.2.commands)) = chainsOf options p .aliases
  keyFlags : ∀ key, q.isKeyStabilized environment key =
    (decide (key ∈ (chainsOf options p .keys).map Prod.fst) &&
      p.isKeyStabilized (options.environmentOf p) key)
  aliasFlags : ∀ name, q.isAliasStabilized name =
    (decide (name ∈ (chainsOf options p .aliases).map Prod.fst) && p.isAliasStabilized name)

theorem contains_map_filter (entries : List (String × List String)) (on : String → Bool)
    (name : String) : ((entries.filter fun e => on e.1).map Prod.fst).contains name =
      (decide (name ∈ entries.map Prod.fst) && on name) := by
  rw [List.contains_eq_mem, Bool.eq_iff_iff, Bool.and_eq_true, decide_eq_true_eq,
    decide_eq_true_eq, List.mem_map, List.mem_map]
  constructor
  · rintro ⟨e, he, rfl⟩
    obtain ⟨he, hon⟩ := List.mem_filter.1 he
    exact ⟨⟨e, he, rfl⟩, hon⟩
  · rintro ⟨⟨e, he, rfl⟩, hon⟩
    exact ⟨e, List.mem_filter.2 ⟨he, hon⟩, rfl⟩

/-- A new profile that imports a file holds the chains and flags that the file lists. -/
theorem reproduces_importFile_new {file : BindFile}
    (h : ∀ realm, (file.declared realm).entries = chainsOf options p realm ∧
      file.stabilized realm = ((chainsOf options p realm).filter fun e =>
        isStabilized options p realm e.1).map Prod.fst)
    (name created environment now : String) :
    Reproduces options p environment
      ((Profile.new name created).importFile environment file now) := by
  have hlisted : ∀ realm, ∀ name ∈ file.stabilized realm, name ∈ (file.declared realm).keys := by
    intro realm name hname
    rw [(h realm).2] at hname
    unfold Dict.keys
    rw [(h realm).1]
    exact List.map_subset _ (List.filter_subset_self _) hname
  refine ⟨?_, ?_, fun key => ?_, fun name => ?_⟩
  · rw [Profile.keysIn_importFile_new]
    exact (h .keys).1
  · rw [Profile.entries_aliases_importFile_new, List.map_map]
    exact (List.map_id _).trans (h .aliases).1
  · rw [Profile.isKeyStabilized_importFile_new _ _ _ _ _ (hlisted .keys)]
    show (file.stabilized .keys).contains key = _
    rw [(h .keys).2, contains_map_filter]
    rfl
  · rw [Profile.isAliasStabilized_importFile_new _ _ _ _ _ (hlisted .aliases)]
    show (file.stabilized .aliases).contains name = _
    rw [(h .aliases).2, contains_map_filter]
    rfl

/-- A profile without loose mirrors is read back, with a look for mirrors, as its own chains that
are not empty, in order, and exactly the stabilized ones of them are listed so; nothing is skipped
or declared twice. A new profile that imports the file holds the same chains and flags. -/
theorem stabilized_reads_back {text : String} (h : write options p = .ok text)
    (hloose : NoLooseMirrors options p) :
    let file := read ⟨options.rules, true⟩ text
    file.skipped = [] ∧ file.duplicates = [] ∧
      (∀ realm, (file.declared realm).entries = chainsOf options p realm ∧
        file.stabilized realm = ((chainsOf options p realm).filter fun e =>
          isStabilized options p realm e.1).map Prod.fst) ∧
      ∀ name created environment now, Reproduces options p environment
        ((Profile.new name created).importFile environment file now) := by
  intro file
  obtain ⟨hlists, hskipped⟩ := read_write h true
  have hentries := entries_read_write hloose hlists
  exact ⟨hskipped, hlists.duplicates, hentries, reproduces_importFile_new hentries⟩

/-- Of three keys the first is stabilized and mirrored by itself, the second is the same backwards
but of odd length, and the third is stabilized and empty; the alias is stabilized. -/
def palindromes : Profile :=
  let keyed := (((Profile.new "Main" "then").setKey "space" "F1" ["A", "A"]).setKey "space" "F2"
    ["A", "B", "A"]).setKey "space" "F3" []
  let flagged := (keyed.stabilizeKey "space" "F1" true).stabilizeKey "space" "F3" true
  (flagged.setAlias "attack" { commands := ["X", "Y"] }).stabilizeAlias "attack" true

theorem palindromes_read_back :
    let options : WriteOptions := { header := false, now := "now" }
    let text := "\nF1 \"A $$ A $$ A $$ A\"\nF2 \"A $$ B $$ A\"\n\n" ++
      "alias attack \"X $$ Y $$ Y $$ X\"\n"
    write options palindromes = .ok text ∧ NoLooseMirrors options palindromes ∧
      (read ⟨options.rules, true⟩ text).stabilized .keys = ["F1"] ∧
      Reproduces options palindromes "ground" ((Profile.new "Copy" "then").importFile "ground"
        (read ⟨options.rules, true⟩ text) "now") := by
  intro options text
  have hwrite : write options palindromes = .ok text := eq_ok_of_toOption (by decide +kernel)
  have hloose : NoLooseMirrors options palindromes := by
    rw [noLooseMirrors_iff]
    intro realm
    cases realm with
    | keys => decide +kernel
    | aliases => decide +kernel
  obtain ⟨-, -, hentries, hreproduces⟩ := stabilized_reads_back hwrite hloose
  refine ⟨hwrite, hloose, ?_, hreproduces "Copy" "then" "ground" "now"⟩
  rw [(hentries .keys).2]
  decide +kernel

end Keybinds.BindFile
