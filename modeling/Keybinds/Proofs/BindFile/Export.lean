import Keybinds.Proofs.BindFile.Declared
import Keybinds.Proofs.BindFile.RoundTrip
import Keybinds.Proofs.Profile.Import

/-!
# Exporting what was imported

A file that was imported into a new profile is exported again as a file with the same contents. The
writer is stricter than the reader on three points, and on these only: it refuses names that hold a
quote or start like a comment, keys that are keywords, and commands that hold a carriage return.
That nothing else stands in the way is shown for texts that keep word starts, whose chains are cut
again as they were joined.
-/

namespace Keybinds.BindFile

open Chain (KeepsWordStarts)
open Text (NoBlank OneLine)

variable {rules : NameRules} {options : Options} {text : String}

/-! ## When writing succeeds -/

/-- The name starts no comment and holds no quote. -/
def IsPlain (name : String) : Prop :=
  name.toList.head? ≠ some '#' ∧ '"' ∉ name.toList ∧ '\'' ∉ name.toList

instance : DecidablePred IsPlain := fun _ => inferInstanceAs (Decidable (_ ∧ _ ∧ _))

/-- What the writer asks of a file beyond what the reader does. -/
structure IsExportable (file : BindFile) : Prop where
  keys : ∀ key ∈ file.keys.keys, Text.lower key ∉ keywords ∧ IsPlain key
  aliases : ∀ name ∈ file.aliases.keys, IsPlain name
  commands : ∀ realm, ∀ chain ∈ (file.declared realm).values, ∀ command ∈ chain,
    '\r' ∉ command.toList

theorem isExportable_iff {file : BindFile} :
    IsExportable file ↔
      (∀ e ∈ file.keys.entries, (Text.lower e.1 ∉ keywords ∧ IsPlain e.1) ∧
        ∀ command ∈ e.2, '\r' ∉ command.toList) ∧
      ∀ e ∈ file.aliases.entries, IsPlain e.1 ∧ ∀ command ∈ e.2, '\r' ∉ command.toList := by
  constructor
  · intro h
    refine ⟨fun e he => ⟨h.keys e.1 ?_, h.commands .keys e.2 ?_⟩,
      fun e he => ⟨h.aliases e.1 ?_, h.commands .aliases e.2 ?_⟩⟩
    · exact List.mem_map_of_mem he
    · exact List.mem_map_of_mem he
    · exact List.mem_map_of_mem he
    · exact List.mem_map_of_mem he
  · rintro ⟨hkeys, haliases⟩
    refine ⟨?_, ?_, fun realm => ?_⟩
    · exact List.forall_mem_map.2 fun e he => (hkeys e he).1
    · exact List.forall_mem_map.2 fun e he => (haliases e he).1
    · cases realm with
      | keys => exact List.forall_mem_map.2 fun e he => (hkeys e he).2
      | aliases => exact List.forall_mem_map.2 fun e he => (haliases e he).2

/-- Of the words only the plain ones are writable. -/
theorem isWritable_iff_isPlain {name : String} (hne : name.toList ≠ [])
    (hblank : NoBlank name.toList) : isWritable name = true ↔ IsPlain name := by
  have hempty : name.isEmpty = false := by
    rw [← Bool.not_eq_true, String.isEmpty_iff]
    rintro rfl
    exact hne rfl
  have hany : (name.toList.any fun c => Text.isBlank c || c == '"' || c == '\'') = false ↔
      '"' ∉ name.toList ∧ '\'' ∉ name.toList := by
    rw [List.any_eq_false]
    constructor
    · intro h
      exact ⟨fun hc => h _ hc rfl, fun hc => h _ hc rfl⟩
    · rintro ⟨hdouble, hsingle⟩ c hc
      rw [hblank c hc, Bool.false_or, Bool.or_eq_true, beq_iff_eq, beq_iff_eq]
      rintro (rfl | rfl)
      · exact hdouble hc
      · exact hsingle hc
  unfold isWritable IsPlain
  rw [hempty, Bool.and_eq_true, Bool.not_eq_true', hany]
  simp

/-- A canonical command is refused for a line break only. -/
theorem commandFault?_eq_none_iff {command : String} (h : Chain.isCanonical command = true) :
    commandFault? command = none ↔ '\r' ∉ command.toList ∧ '\n' ∉ command.toList := by
  unfold Chain.isCanonical at h
  simp only [Bool.and_eq_true, Bool.not_eq_true', beq_iff_eq] at h
  obtain ⟨⟨hempty, htrim⟩, hseparator⟩ := h
  have hany : (command.toList.any fun c => c == '\r' || c == '\n') = true ↔
      '\r' ∈ command.toList ∨ '\n' ∈ command.toList := by
    simp only [List.any_eq_true, Bool.or_eq_true, beq_iff_eq, and_or_left, exists_or,
      exists_eq_right]
  unfold commandFault?
  simp only [htrim, hempty, hseparator, Bool.false_eq_true, ne_eq, not_true_eq_false, if_false]
  rw [← not_or, ← hany]
  split_ifs with hbreak
  · exact iff_of_false (by simp) (not_not_intro hbreak)
  · exact iff_of_true rfl hbreak

/-- The chain of a declaration can be written unless a command holds a carriage return. -/
theorem exists_writeBody_iff {line : List Char} {d : Declaration} (h : Declares rules line d)
    (hline : OneLine line) (hkeeps : KeepsWordStarts line) (owner : String) :
    (∃ body, writeBody owner d.chain = .ok body) ↔
      ∀ command ∈ d.chain, '\r' ∉ command.toList := by
  obtain ⟨body, hbody, hsplit⟩ := h.body
  have hkeeps : KeepsWordStarts (String.ofList body).toList := by
    rw [String.toList_ofList]
    exact hkeeps.mono hbody
  have hfault : ∀ command ∈ d.chain, (commandFault? command = none ↔ '\r' ∉ command.toList) := by
    intro command hcommand
    rw [← hsplit] at hcommand
    have hpart := Chain.infix_of_mem_split hcommand
    rw [String.toList_ofList] at hpart
    rw [commandFault?_eq_none_iff (Chain.isCanonical_of_mem_split hkeeps hcommand)]
    exact and_iff_left fun hmem => hline ((hpart.trans hbody).subset hmem)
  constructor
  · rintro ⟨_, hok⟩ command hcommand
    exact (hfault command hcommand).1 ((writeBody_eq_ok_iff.1 hok).1 command hcommand)
  · intro hreturn
    refine ⟨Chain.join d.chain, writeBody_eq_ok_iff.2 ⟨fun command hcommand => ?_, ?_, rfl⟩⟩
    · exact (hfault command hcommand).2 (hreturn command hcommand)
    · rw [← hsplit]
      exact Chain.split_join_split hkeeps

theorem exists_writeKey_iff {p : Profile} {environment key : String} {chain : List String}
    (hne : chain ≠ []) :
    (∃ text, writeKey rules p environment key chain = .ok text) ↔
      checkKeyName rules key = .ok () ∧
        ∃ body, writeChain key (p.isKeyStabilized environment key) chain = .ok body := by
  have hempty : ¬ chain.isEmpty = true := fun h => hne (List.isEmpty_iff.1 h)
  unfold writeKey
  rw [if_neg hempty]
  constructor
  · rintro ⟨text, h⟩
    obtain ⟨⟨⟩, hname, h⟩ := bind_eq_ok_iff.1 h
    obtain ⟨body, hbody, -⟩ := bind_eq_ok_iff.1 h
    exact ⟨hname, body, hbody⟩
  · rintro ⟨hname, body, hbody⟩
    exact ⟨keyLine key body, bind_eq_ok_iff.2 ⟨(), hname, bind_eq_ok_iff.2 ⟨body, hbody, rfl⟩⟩⟩

theorem exists_writeAlias_iff {p : Profile} {name : String} {a : Alias} (hne : a.commands ≠ []) :
    (∃ text, writeAlias rules p name a = .ok text) ↔
      checkAliasName rules name = .ok () ∧
        ∃ body, writeChain name (p.isAliasStabilized name) a.commands = .ok body := by
  have hempty : ¬ a.commands.isEmpty = true := fun h => hne (List.isEmpty_iff.1 h)
  unfold writeAlias
  rw [if_neg hempty]
  constructor
  · rintro ⟨text, h⟩
    obtain ⟨⟨⟩, hname, h⟩ := bind_eq_ok_iff.1 h
    obtain ⟨body, hbody, -⟩ := bind_eq_ok_iff.1 h
    exact ⟨hname, body, hbody⟩
  · rintro ⟨hname, body, hbody⟩
    exact ⟨descriptionText a.description ++ aliasLine name body,
      bind_eq_ok_iff.2 ⟨(), hname, bind_eq_ok_iff.2 ⟨body, hbody, rfl⟩⟩⟩

/-- A file is written just if each key and each alias can be. -/
theorem exists_write_iff {w : WriteOptions} {p : Profile} :
    (∃ out, write w p = .ok out) ↔
      (∀ e ∈ w.keysOf p, ∃ out, writeKey w.rules p (w.environmentOf p) e.1 e.2 = .ok out) ∧
        ∀ e ∈ p.aliases.entries, ∃ out, writeAlias w.rules p e.1 e.2 = .ok out := by
  rw [← exists_mapM_eq_ok_iff, ← exists_mapM_eq_ok_iff]
  unfold write
  constructor
  · rintro ⟨out, h⟩
    obtain ⟨keyTexts, hkeys, h⟩ := bind_eq_ok_iff.1 h
    obtain ⟨aliasTexts, haliases, -⟩ := bind_eq_ok_iff.1 h
    exact ⟨⟨keyTexts, hkeys⟩, aliasTexts, haliases⟩
  · rintro ⟨⟨keyTexts, hkeys⟩, aliasTexts, haliases⟩
    exact ⟨_, bind_eq_ok_iff.2 ⟨keyTexts, hkeys, bind_eq_ok_iff.2 ⟨aliasTexts, haliases, rfl⟩⟩⟩

/-- The chain of an entry can be written unless a command holds a carriage return. -/
theorem exists_writeChain_iff (realm : Realm) {e : String × List String}
    (he : e ∈ ((read options text).declared realm).entries)
    (hkeeps : KeepsWordStarts text.toList) :
    (∃ body, writeChain e.1 (decide (e.1 ∈ (read options text).stabilized realm)) e.2 = .ok body) ↔
      ∀ command ∈ e.2, '\r' ∉ command.toList := by
  obtain ⟨line, hline, d, hdeclares, -, -, hchain, -⟩ := exists_declares_writtenChain he
  obtain ⟨hpart, hone⟩ := Text.infix_of_mem_lines hline
  have hbody := exists_writeBody_iff hdeclares hone (hkeeps.mono hpart) e.1
  rw [hchain] at hbody
  refine hbody.trans (forall_congr' fun command => ?_)
  rw [mem_writtenChain]

/-- The name of an entry is accepted, and writable unless it is not plain. -/
theorem accepts_of_mem_read (realm : Realm) {e : String × List String}
    (he : e ∈ ((read options text).declared realm).entries) :
    accepts options.rules realm e.1 = true ∧ (isWritable e.1 = true ↔ IsPlain e.1) := by
  obtain ⟨_, -, d, hdeclares, hrealm, hname, -⟩ := exists_declares_writtenChain he
  rw [← hrealm, ← hname]
  exact ⟨hdeclares.accepted, isWritable_iff_isPlain hdeclares.name_ne_nil hdeclares.noBlank⟩

/-! ## What an export writes -/

section

variable (options text) (name created environment changed : String) (header : Bool) (now : String)

/-- A new profile with a file in one of its environments. -/
def imported : Profile :=
  (Profile.new name created).importFile environment (read options text) changed

/-- How the environment of an import is exported by the rules that it was read with. -/
def exporting : WriteOptions where
  environment := some environment
  header
  rules := options.rules
  now

theorem keysOf_exporting :
    (exporting options environment header now).keysOf
      (imported options text name created environment changed) =
      (read options text).keys.entries :=
  congrArg Dict.entries (Profile.keysIn_importFile_new environment _ name created changed)

theorem entries_aliases_imported :
    (imported options text name created environment changed).aliases.entries =
      (read options text).aliases.entries.map fun e => (e.1, { commands := e.2 }) := by
  rw [imported, Profile.entries_aliases_importFile_new]

theorem isKeyStabilized_imported {e : String × List String}
    (he : e ∈ (read options text).keys.entries) :
    (imported options text name created environment changed).isKeyStabilized environment e.1 =
      decide (e.1 ∈ (read options text).stabilized .keys) := by
  have hkey : e.1 ∈ (read options text).keys.keys := List.mem_map_of_mem he
  rw [imported, Profile.isKeyStabilized_importFile, if_pos hkey, List.contains_eq_mem]
  rfl

theorem isAliasStabilized_imported {e : String × List String}
    (he : e ∈ (read options text).aliases.entries) :
    (imported options text name created environment changed).isAliasStabilized e.1 =
      decide (e.1 ∈ (read options text).stabilized .aliases) := by
  have hname : e.1 ∈ (read options text).aliases.keys := List.mem_map_of_mem he
  rw [imported, Profile.isAliasStabilized_importFile, if_pos hname, List.contains_eq_mem]
  rfl

theorem writtenKeys_imported :
    writtenKeys (exporting options environment header now)
        (imported options text name created environment changed) =
      ((read options text).declared .keys).entries.map fun e =>
        (e.1, writtenChain (decide (e.1 ∈ (read options text).stabilized .keys)) e.2) := by
  have hfilter : (read options text).keys.entries.filter (fun e => !e.2.isEmpty) =
      (read options text).keys.entries := by
    rw [List.filter_eq_self]
    intro e he
    have hne := chain_ne_nil_of_mem_read .keys he
    simpa using hne
  unfold writtenKeys
  rw [keysOf_exporting, hfilter]
  refine List.map_congr_left fun e he => ?_
  have hflag := isKeyStabilized_imported options text name created environment changed he
  exact congrArg (fun on => (e.1, writtenChain on e.2)) hflag

theorem writtenAliases_imported :
    writtenAliases (imported options text name created environment changed) =
      ((read options text).declared .aliases).entries.map fun e =>
        (e.1, writtenChain (decide (e.1 ∈ (read options text).stabilized .aliases)) e.2) := by
  have hfilter : (read options text).aliases.entries.filter
      ((fun e : String × Alias => !e.2.commands.isEmpty) ∘ fun e => (e.1, { commands := e.2 })) =
      (read options text).aliases.entries := by
    rw [List.filter_eq_self]
    intro e he
    have hne := chain_ne_nil_of_mem_read .aliases he
    simpa using hne
  unfold writtenAliases
  rw [entries_aliases_imported, List.filter_map, hfilter, List.map_map]
  refine List.map_congr_left fun e he => ?_
  have hflag := isAliasStabilized_imported options text name created environment changed he
  exact congrArg (fun on => (e.1, writtenChain on e.2)) hflag

/-- An import is exported entry by entry, each chain as it was declared. -/
theorem inRealm_written_imported (realm : Realm) :
    inRealm realm (written (exporting options environment header now)
        (imported options text name created environment changed)) =
      ((read options text).declared realm).entries.map fun e =>
        ⟨realm, e.1, writtenChain (decide (e.1 ∈ (read options text).stabilized realm)) e.2⟩ := by
  cases realm with
  | keys =>
    rw [inRealm_written_keys, writtenKeys_imported, List.map_map]
    rfl
  | aliases =>
    rw [inRealm_written_aliases, writtenAliases_imported, List.map_map]
    rfl

/-! ## Reading an export -/

/-- Two files with the same entries in the same order, and the same names listed as stabilized. -/
structure SameContents (file file' : BindFile) : Prop where
  declared : ∀ realm, file.declared realm = file'.declared realm
  stabilized : ∀ realm name, name ∈ file.stabilized realm ↔ name ∈ file'.stabilized realm

/-- An export reads back as the file that was imported. -/
theorem sameContents_of_write {out : String}
    (h : write (exporting options environment header now)
      (imported options text name created environment changed) = .ok out) :
    SameContents (read options out) (read options text) := by
  have hlists : Lists options (read options out) _ := (read_write h options.detectMirrors).1
  have hstored : ∀ realm, ∀ e ∈ ((read options text).declared realm).entries,
      stored options ⟨realm, e.1,
        writtenChain (decide (e.1 ∈ (read options text).stabilized realm)) e.2⟩ =
      (e.2, decide (e.1 ∈ (read options text).stabilized realm)) := by
    intro realm e he
    obtain ⟨_, -, d, -, -, -, hchain, hstored⟩ := exists_declares_writtenChain he
    rw [← hchain]
    exact hstored
  refine ⟨fun realm => Dict.ext ?_, fun realm n => ?_⟩
  · rw [hlists.entries, inRealm_written_imported, List.map_map]
    refine (List.map_congr_left fun e he => ?_).trans (List.map_id _)
    exact congrArg (fun chain : List String × Bool => (e.1, chain.1)) (hstored realm e he)
  · rw [hlists.stabilized, inRealm_written_imported, List.mem_map]
    constructor
    · rintro ⟨d, hd, rfl⟩
      obtain ⟨hd, hon⟩ := List.mem_filter.1 hd
      obtain ⟨e, he, rfl⟩ := List.mem_map.1 hd
      rw [hstored realm e he] at hon
      exact of_decide_eq_true hon
    · intro hn
      obtain ⟨chain, he⟩ := Dict.mem_keys_iff.1 ((tracks_read options text).mem_keys hn)
      refine ⟨_, List.mem_filter.2 ⟨List.mem_map_of_mem he, ?_⟩, rfl⟩
      rw [hstored realm _ he]
      exact decide_eq_true hn

/-! ## When an export succeeds -/

/-- An export succeeds just if what was imported is exportable. -/
theorem exists_export_iff (hkeeps : KeepsWordStarts text.toList) :
    (∃ out, write (exporting options environment header now)
        (imported options text name created environment changed) = .ok out) ↔
      IsExportable (read options text) := by
  have hkey : ∀ e ∈ (read options text).keys.entries,
      ((∃ out, writeKey options.rules (imported options text name created environment changed)
        environment e.1 e.2 = .ok out) ↔
        (Text.lower e.1 ∉ keywords ∧ IsPlain e.1) ∧ ∀ command ∈ e.2, '\r' ∉ command.toList) := by
    intro e he
    have hname := accepts_of_mem_read .keys he
    have haccepts : options.rules.acceptsKey e.1 = true := hname.1
    rw [exists_writeKey_iff (chain_ne_nil_of_mem_read .keys he),
      isKeyStabilized_imported _ _ _ _ _ _ he, exists_writeChain_iff .keys he hkeeps,
      checkKeyName_eq_ok_iff, hname.2, and_iff_left haccepts]
  have halias : ∀ e ∈ (read options text).aliases.entries,
      ((∃ out, writeAlias options.rules (imported options text name created environment changed)
        e.1 { commands := e.2 } = .ok out) ↔
        IsPlain e.1 ∧ ∀ command ∈ e.2, '\r' ∉ command.toList) := by
    intro e he
    have hname := accepts_of_mem_read .aliases he
    have haccepts : options.rules.acceptsAlias e.1 = true := hname.1
    rw [exists_writeAlias_iff (chain_ne_nil_of_mem_read .aliases he),
      isAliasStabilized_imported _ _ _ _ _ _ he,
      exists_writeChain_iff .aliases he hkeeps, checkAliasName_eq_ok_iff, hname.2,
      and_iff_left haccepts]
  rw [exists_write_iff, keysOf_exporting, entries_aliases_imported, List.forall_mem_map,
    isExportable_iff]
  exact and_congr (forall₂_congr hkey) (forall₂_congr halias)

/-- Whatever is exported behind an import reads back, by the same rules and with the same look for
mirrors, as it was imported. If the text keeps word starts, the export succeeds just if what was
imported is exportable. -/
theorem export_of_import :
    (∀ out, write (exporting options environment header now)
        (imported options text name created environment changed) = .ok out →
      SameContents (read options out) (read options text)) ∧
    (KeepsWordStarts text.toList →
      ((∃ out, write (exporting options environment header now)
        (imported options text name created environment changed) = .ok out) ↔
      IsExportable (read options text))) :=
  ⟨fun _ => sameContents_of_write options text name created environment changed header now,
    exists_export_iff options text name created environment changed header now⟩

end

/-- A file with a mirrored chain, an unquoted one and an alias in brackets. -/
def sampleText : String :=
  "F1 \"A $$ say 'x $$ y' $$ say 'x $$ y' $$ A\"\n/bind F2 FireAll\nalias attack <&B$$C&>\n"

theorem export_of_sampleText :
    let options : Options := { detectMirrors := true }
    KeepsWordStarts sampleText.toList ∧ IsExportable (read options sampleText) ∧
      (read options sampleText).stabilizedKeys = ["F1"] ∧
      ∃ out, write (exporting options "ground" true "now")
          (imported options sampleText "Main" "then" "ground" "now") = .ok out ∧
        SameContents (read options out) (read options sampleText) := by
  intro options
  have hkeeps : KeepsWordStarts sampleText.toList := by decide +kernel
  have hread : read options sampleText =
      { keys := .ofList [("F1", ["A", "say 'x $$ y'"]), ("F2", ["FireAll"])]
        aliases := .ofList [("attack", ["B", "C"])]
        stabilizedKeys := ["F1"] } := by decide +kernel
  have hexportable : IsExportable (read options sampleText) := by
    rw [hread]
    refine ⟨by decide +kernel, by decide +kernel, fun realm => ?_⟩
    cases realm with
    | keys => decide +kernel
    | aliases => decide +kernel
  have h := export_of_import options sampleText "Main" "then" "ground" "now" true "now"
  obtain ⟨out, hout⟩ := (h.2 hkeeps).2 hexportable
  exact ⟨hkeeps, hexportable, by rw [hread], out, hout, h.1 out hout⟩

/-- A key with an apostrophe is read by the stock rules but not written. -/
theorem not_export_of_quotedName :
    ¬ ∀ (options : Options) (text name created environment changed : String) (header : Bool)
        (now : String), ∃ out, write (exporting options environment header now)
          (imported options text name created environment changed) = .ok out ∧
        SameContents (read options out) (read options text) := by
  intro h
  obtain ⟨out, hout, -⟩ := h {} "it's \"FireAll\"\n" "session" "then" "space" "now" false "now"
  have hnone : (write (exporting {} "space" false "now")
      (imported {} "it's \"FireAll\"\n" "session" "then" "space" "now")).toOption = none := by
    decide +kernel
  rw [hout] at hnone
  cases hnone

end Keybinds.BindFile
