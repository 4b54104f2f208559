import Keybinds.Proofs.BindFile.Export
import Keybinds.Proofs.BindFile.Mirrors
import Keybinds.Proofs.Chain.WellQuoted
import Keybinds.Proofs.Text.Words

/-!
# Profiles that can be written

The writer reads each body that it has joined once more, and refuses a chain that is cut otherwise.
Chains of well-quoted commands are not refused, mirrored or not (`exists_writeChain_of_wellQuoted`),
so a profile of such chains is written as soon as its names can stand in a file
(`exists_write_of_wellQuoted`).
-/

namespace Keybinds.BindFile

open Chain (IsWellQuoted)

variable {rules : NameRules} {options : WriteOptions} {p : Profile}

/-! ## Names -/

/-- One word that starts no comment and holds no quote. -/
def IsPlainWord (name : String) : Prop := Text.IsWord name.toList ∧ IsPlain name

-- The characters of the name are looked at, not all characters.
instance : DecidablePred IsPlainWord := fun name =>
  @instDecidableAnd _ _ (@instDecidableAnd _ _ (inferInstanceAs (Decidable (name.toList ≠ [])))
    (List.decidableBAll _ name.toList)) (inferInstanceAs (Decidable (IsPlain name)))

theorem IsPlainWord.isWritable {name : String} (h : IsPlainWord name) : isWritable name = true :=
  (isWritable_iff_isPlain h.1.1 h.1.2).2 h.2

theorem checkKeyName_of_isPlainWord {key : String} (h : IsPlainWord key)
    (hkeyword : Text.lower key ∉ keywords) (haccepts : rules.acceptsKey key = true) :
    checkKeyName rules key = .ok () :=
  checkKeyName_eq_ok_iff.2 ⟨hkeyword, h.isWritable, haccepts⟩

theorem checkAliasName_of_isPlainWord {name : String} (h : IsPlainWord name)
    (haccepts : rules.acceptsAlias name = true) : checkAliasName rules name = .ok () :=
  checkAliasName_eq_ok_iff.2 ⟨h.isWritable, haccepts⟩

/-! ## Chains -/

/-- A well-quoted command on one line. -/
def IsWritableCommand (command : String) : Prop :=
  IsWellQuoted command ∧ '\r' ∉ command.toList ∧ '\n' ∉ command.toList

instance : DecidablePred IsWritableCommand := fun _ => inferInstanceAs (Decidable (_ ∧ _ ∧ _))

/-- A chain of well-quoted commands can be written, as it stands and mirrored. -/
theorem exists_writeChain_of_wellQuoted {chain : List String}
    (h : ∀ command ∈ chain, IsWritableCommand command) (owner : String) (stabilized : Bool) :
    ∃ body, writeChain owner stabilized chain = .ok body := by
  have hwritten : ∀ command ∈ writtenChain stabilized chain, IsWritableCommand command :=
    fun command hc => h command (mem_writtenChain.1 hc)
  refine ⟨Chain.join (writtenChain stabilized chain), writeBody_eq_ok_iff.2 ⟨?_, ?_, rfl⟩⟩
  · intro command hc
    exact (commandFault?_eq_none_iff (hwritten command hc).1.canonical).2 (hwritten command hc).2
  · exact Chain.split_join_of_wellQuoted fun command hc => (hwritten command hc).1

/-! ## Entries and files -/

theorem exists_writeKey {environment key : String} {chain : List String}
    (hname : checkKeyName rules key = .ok ())
    (hchain : chain ≠ [] → ∀ command ∈ chain, IsWritableCommand command) :
    ∃ text, writeKey rules p environment key chain = .ok text := by
  by_cases hne : chain = []
  · refine ⟨"", ?_⟩
    unfold writeKey
    rw [hname, hne]
    rfl
  · exact (exists_writeKey_iff hne).2
      ⟨hname, exists_writeChain_of_wellQuoted (hchain hne) key _⟩

theorem exists_writeAlias {name : String} {a : Alias} (hname : checkAliasName rules name = .ok ())
    (hchain : a.commands ≠ [] → ∀ command ∈ a.commands, IsWritableCommand command) :
    ∃ text, writeAlias rules p name a = .ok text := by
  by_cases hne : a.commands = []
  · refine ⟨"", ?_⟩
    unfold writeAlias
    rw [hname, hne]
    rfl
  · exact (exists_writeAlias_iff hne).2
      ⟨hname, exists_writeChain_of_wellQuoted (hchain hne) name _⟩

/-- A profile is written if its names are plain words that the rules accept, its keys no keywords,
and its commands well quoted and on one line. -/
theorem exists_write_of_wellQuoted
    (hkeys : ∀ e ∈ options.keysOf p, IsPlainWord e.1 ∧ Text.lower e.1 ∉ keywords ∧
      options.rules.acceptsKey e.1 = true)
    (haliases : ∀ e ∈ p.aliases.entries, IsPlainWord e.1 ∧ options.rules.acceptsAlias e.1 = true)
    (hchains : ∀ realm, ∀ e ∈ chainsOf options p realm, ∀ command ∈ e.2,
      IsWritableCommand command) :
    ∃ text, write options p = .ok text := by
  rw [exists_write_iff]
  constructor
  · intro e he
    obtain ⟨hword, hkeyword, haccepts⟩ := hkeys e he
    refine exists_writeKey (checkKeyName_of_isPlainWord hword hkeyword haccepts) fun hne => ?_
    exact hchains .keys e (List.mem_filter.2 ⟨he, by simpa using hne⟩)
  · intro e he
    obtain ⟨hword, haccepts⟩ := haliases e he
    refine exists_writeAlias (checkAliasName_of_isPlainWord hword haccepts) fun hne => ?_
    exact hchains .aliases (e.1, e.2.commands)
      (List.mem_filter.2 ⟨List.mem_map_of_mem he, by simpa using hne⟩)

/-- A mirrored key whose commands hold a quoted separator, end in an empty string, a backslash and a
dollar sign, and start with an apostrophe, and an alias whose command is an empty string. -/
def edgyProfile : Profile :=
  let keyed := (Profile.new "Main" "then").setKey "space" "F1"
    ["say \"a $$ b\"", "say \"\"", "x\\", "A$", "'it $$ on'", "\"\"'s"]
  (keyed.stabilizeKey "space" "F1" true).setAlias "attack" { commands := ["''"] }

theorem exists_write_edgyProfile :
    let options : WriteOptions := { now := "now" }
    (∀ e ∈ options.keysOf edgyProfile, IsPlainWord e.1 ∧ Text.lower e.1 ∉ keywords ∧
      options.rules.acceptsKey e.1 = true) ∧
    (∀ e ∈ edgyProfile.aliases.entries, IsPlainWord e.1 ∧
      options.rules.acceptsAlias e.1 = true) ∧
    (∀ realm, ∀ e ∈ chainsOf options edgyProfile realm, ∀ command ∈ e.2,
      IsWritableCommand command) ∧
    ∃ text, write options edgyProfile = .ok text := by
  intro options
  have hkeys : ∀ e ∈ options.keysOf edgyProfile, IsPlainWord e.1 ∧ Text.lower e.1 ∉ keywords ∧
      options.rules.acceptsKey e.1 = true := by decide +kernel
  have haliases : ∀ e ∈ edgyProfile.aliases.entries, IsPlainWord e.1 ∧
      options.rules.acceptsAlias e.1 = true := by decide +kernel
  have hchains : ∀ realm, ∀ e ∈ chainsOf options edgyProfile realm, ∀ command ∈ e.2,
      IsWritableCommand command := by
    intro realm
    cases realm with
    | keys => decide +kernel
    | aliases => decide +kernel
  exact ⟨hkeys, haliases, hchains, exists_write_of_wellQuoted hkeys haliases hchains⟩

end Keybinds.BindFile
