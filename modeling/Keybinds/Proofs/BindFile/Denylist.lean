import Keybinds.Name.Config
import Keybinds.Proofs.BindFile.Declared
import Keybinds.Proofs.BindFile.RoundTrip

/-!
# Names that are barred

A name that the rules find fault with is declared by no line that is read by them, and by no line
that is written by them, whatever rules that line is read by later (`isBarred_of_fault`). The
reserved names of a configuration are compared in lower case and without blanks around them. Plus
signs in front are taken off the name that is looked up, but not off the entries of the list, so an
entry is found by its own name unless it starts with one (`denylistHolds_iff`).
-/

namespace Keybinds

namespace BindFile

open Text (OneLine strip)

variable {rules rules' : NameRules}

/-! ## Lines read by other rules -/

theorem readAfterKeyword_unique {realm : Realm} {mayBeBare : Bool} {rest : List Char}
    {d d' : Declaration} (h : readAfterKeyword realm rules mayBeBare rest = .ok d)
    (h' : readAfterKeyword realm rules' mayBeBare rest = .ok d') : d = d' := by
  unfold readAfterKeyword at h h'
  dsimp only at h h'
  split_ifs at h h' with hempty
  · cases h
  · obtain ⟨-, -, h⟩ := bind_eq_ok_iff.1 h
    obtain ⟨-, -, h'⟩ := bind_eq_ok_iff.1 h'
    exact Except.ok.inj (h.symm.trans h')

/-- The rules decide whether a line declares something, but not what. -/
theorem readDeclaration_unique {line : List Char} {d d' : Declaration}
    (h : readDeclaration rules line = .ok d) (h' : readDeclaration rules' line = .ok d') :
    d = d' := by
  unfold readDeclaration at h h'
  dsimp only at h h'
  split_ifs at h h'
  · exact readAfterKeyword_unique h h'
  · exact readAfterKeyword_unique h h'
  · obtain ⟨-, -, h⟩ := bind_eq_ok_iff.1 h
    obtain ⟨-, -, h'⟩ := bind_eq_ok_iff.1 h'
    exact Except.ok.inj (h.symm.trans h')

theorem readTrimmed_cons {c : Char} (hc : c ≠ '#') (cs : List Char) :
    readTrimmed rules (c :: cs) =
      match readDeclaration rules (c :: cs) with
      | .ok declared => .declaration declared
      | .error fault => .skipped fault := by
  unfold readTrimmed
  split
  · rename_i heq
    cases heq
  · rename_i heq
    exact absurd (List.cons.inj heq).1 hc
  · cases readDeclaration rules (c :: cs) <;> rfl

/-- A line that is not skipped by some rules declares by them what it declares by others. -/
theorem lineOf_eq_declaration {raw : List Char} {d : Declaration}
    (hfault : (lineOf rules raw).fault? = none) (h : lineOf rules' raw = .declaration d) :
    lineOf rules raw = .declaration d := by
  unfold lineOf at *
  cases hline : strip raw with
  | nil =>
    rw [hline] at h
    cases h
  | cons c cs =>
    rw [hline] at h hfault
    by_cases hc : c = '#'
    · subst hc
      cases h
    · rw [readTrimmed_cons hc] at h hfault ⊢
      cases hread' : readDeclaration rules' (c :: cs) with
      | error fault =>
        rw [hread'] at h
        cases h
      | ok d' =>
        rw [hread'] at h
        obtain rfl := Line.declaration.inj h
        cases hread : readDeclaration rules (c :: cs) with
        | error fault =>
          rw [hread] at hfault
          cases hfault
        | ok d =>
          rw [readDeclaration_unique hread hread']

/-! ## Declarations -/

/-- The declarations of a text that is read from the first line on. -/
def readDeclarations (rules : NameRules) (text : String) : List Declaration :=
  (readLines rules 1 (Text.lines text.toList)).filterMap Line.declaration?

theorem mem_keys_read {options : Options} {text : String} (realm : Realm) {name : String} :
    name ∈ ((read options text).declared realm).keys ↔
      ∃ d ∈ readDeclarations options.rules text, d.realm = realm ∧ d.name = name := by
  rw [(tracks_read options text).keys realm, List.mem_eraseDups, List.mem_map]
  unfold inRealm readDeclarations
  simp only [List.mem_filter, decide_eq_true_eq, and_assoc]

theorem Holds.accepts {text : String} {ds : List Declaration} (h : Holds rules text ds)
    {d : Declaration} (hd : d ∈ ds) : accepts rules d.realm d.name = true := by
  obtain ⟨ls, -, -, -, rfl⟩ := h
  obtain ⟨line, hline, hd⟩ := List.mem_filterMap.1 hd
  obtain ⟨raw, -, rfl⟩ := List.mem_map.1 hline
  cases hread : lineOf rules raw with
  | declaration d' =>
    rw [hread] at hd
    obtain rfl := Option.some.inj hd
    exact (declares_of_readTrimmed (Text.strip_strip raw) hread).accepted
  | _ =>
    rw [hread] at hd
    cases hd

/-- A text that holds declarations by some rules declares nothing else by others. -/
theorem Holds.mem_of_readDeclarations {text : String} {ds : List Declaration}
    (h : Holds rules text ds) (hhead : text.toList.head? ≠ some '\uFEFF') {d : Declaration}
    (hd : d ∈ readDeclarations rules' text) : d ∈ ds := by
  obtain ⟨ls, htext, hone, hfault, rfl⟩ := h
  unfold readDeclarations at hd
  rw [htext] at hhead hd
  rw [readLines_unlines hone hhead] at hd
  obtain ⟨line, hline, hd⟩ := List.mem_filterMap.1 hd
  obtain ⟨raw, hraw, rfl⟩ := List.mem_map.1 hline
  refine List.mem_filterMap.2 ⟨lineOf rules raw, List.mem_map_of_mem hraw, ?_⟩
  cases hread : lineOf rules' raw with
  | declaration d' =>
    rw [hread] at hd
    rw [lineOf_eq_declaration (hfault raw hraw) hread]
    exact hd
  | _ =>
    rw [hread] at hd
    cases hd

/-! ## Barred names -/

/-- An alias name that rules keep out of everything: it is refused, stands in no file that is read
by them, and in no text that is written by them, whatever rules that text is read by. -/
structure IsBarred (rules : NameRules) (name : String) : Prop where
  refused : ∃ fault, rules.aliasFault name = some fault
  notRead : ∀ options text, options.rules = rules → name ∉ (read options text).aliases.keys
  notWritten : ∀ options p text, options.rules = rules → write options p = .ok text →
    ∀ options', name ∉ (read options' text).aliases.keys

theorem isBarred_of_fault {name : String} {fault : NameFault}
    (h : rules.aliasFault name = some fault) : IsBarred rules name := by
  have hrefused : accepts rules .aliases name = false := by
    show (rules.aliasFault name).isNone = false
    rw [h]
    rfl
  refine ⟨⟨fault, h⟩, ?_, ?_⟩
  · rintro options text rfl hname
    obtain ⟨chain, he⟩ := Dict.mem_keys_iff.1 hname
    have he : (name, chain) ∈ ((read options text).declared .aliases).entries := he
    obtain ⟨_, -, d, hdeclares, hrealm, heq, -⟩ := exists_declares_of_mem_read he
    have haccepted := hdeclares.accepted
    rw [hrealm, heq, hrefused] at haccepted
    cases haccepted
  · rintro options p text rfl hwrite options' hname
    obtain ⟨d, hd, hrealm, heq⟩ := (mem_keys_read .aliases).1 hname
    have hholds := holds_write hwrite
    have haccepted := hholds.accepts (hholds.mem_of_readDeclarations (head?_write hwrite) hd)
    rw [hrealm, heq, hrefused] at haccepted
    cases haccepted

theorem isBarred_iff {name : String} : IsBarred rules name ↔ rules.aliasFault name ≠ none := by
  rw [Option.ne_none_iff_exists']
  exact ⟨IsBarred.refused, fun ⟨_, h⟩ => isBarred_of_fault h⟩

end BindFile

/-! ## Plus signs in front -/

namespace Text

/-- Whether the text starts with a plus sign. -/
def StartsWithPlus (s : String) : Prop := s.toList.head? = some '+'

instance : DecidablePred StartsWithPlus := fun _ => inferInstanceAs (Decidable (_ = _))

theorem dropPlus_eq_self {s : String} (h : ¬ StartsWithPlus s) : dropPlus s = s := by
  rw [← String.toList_inj, toList_dropPlus]
  unfold StartsWithPlus at h
  cases hs : s.toList with
  | nil => rfl
  | cons c cs =>
    rw [hs, List.head?_cons, Option.some.injEq] at h
    exact List.dropWhile_cons_of_neg (by simpa using h)

theorem toLower_eq_plus_iff {c : Char} : c.toLower = '+' ↔ c = '+' := by
  unfold Char.toLower
  split_ifs with h
  · have hne : c ≠ '+' := by
      rintro rfl
      exact absurd h (by decide)
    refine iff_of_false (fun heq => ?_) hne
    have hval : c.val + 32 = 43 := congrArg Char.val heq
    have hval : c.val = 11 := by
      have hsub := congrArg (· - 32) hval
      simpa using hsub
    rw [hval] at h
    exact absurd h (by decide)
  · exact Iff.rfl

theorem startsWithPlus_congr {s t : String} (h : lower s = lower t) :
    StartsWithPlus s ↔ StartsWithPlus t := by
  have hhead : ∀ u : String, StartsWithPlus u ↔ (lower u).toList.head? = some '+' := by
    intro u
    unfold StartsWithPlus
    rw [toList_lower, List.head?_map, Option.map_eq_some_iff]
    simp only [toLower_eq_plus_iff, exists_eq_right]
  rw [hhead, h, ← hhead]

end Text

/-! ## Reserved names -/

namespace NameTable

theorem aliasFault_eq_none_iff {table : NameTable} {name : String} :
    table.aliasFault name = none ↔ lengthFault table.maxAliasLength name = none ∧
      table.aliasText name = true ∧ Text.lower (Text.dropPlus name) ∉ table.reserved := by
  unfold aliasFault
  simp only [Option.orElse_eq_orElse, Option.orElse_eq_or, Option.or_eq_none_iff,
    ite_eq_left_iff, ite_eq_right_iff, reduceCtorEq, imp_false, Bool.not_eq_false,
    Bool.not_eq_true]

/-- A name that starts with a plus sign and has no fault: what is left of it without the signs is
not reserved. -/
structure SlipsThrough (table : NameTable) (name : String) : Prop where
  sign : Text.StartsWithPlus name
  length : lengthFault table.maxAliasLength name = none
  text : table.aliasText name = true
  notReserved : Text.lower (Text.dropPlus name) ∉ table.reserved

end NameTable

namespace NameConfig

open BindFile (IsBarred)

/-- A table of the configuration, whatever tests its patterns stand for. -/
def IsTable (config : NameConfig) (table : NameTable) : Prop :=
  ∃ keyText aliasText, table = config.tableWith keyText aliasText

theorem isTable_of_table {config : NameConfig} {table : NameTable} (h : config.table = .ok table) :
    config.IsTable table := by
  unfold NameConfig.table at h
  obtain ⟨keyText, -, h⟩ := bind_eq_ok_iff.1 h
  obtain ⟨aliasText, -, h⟩ := bind_eq_ok_iff.1 h
  exact ⟨keyText, aliasText, (Except.ok.inj h).symm⟩

/-- The entries of the list of reserved names: the commands of the game and those of the
configuration, as they are written there. -/
def listed (config : NameConfig) : List String :=
  NameTable.gameCommands ++ config.reservedAliases

/-- A name is meant by an entry that it equals, up to case and blanks around the entry. -/
def Means (entry name : String) : Prop :=
  Text.lower name = Text.lower (Text.trim entry)

instance (entry name : String) : Decidable (Means entry name) :=
  inferInstanceAs (Decidable (_ = _))

theorem reservedForm_gameCommands :
    ∀ name ∈ NameTable.gameCommands, reservedForm name = name := by
  decide +kernel

theorem reservedForm_mem_reserved {config : NameConfig} {table : NameTable}
    (htable : config.IsTable table) {entry : String} (h : entry ∈ config.listed) :
    reservedForm entry ∈ table.reserved := by
  obtain ⟨keyText, aliasText, rfl⟩ := htable
  rcases List.mem_append.1 h with h | h
  · rw [reservedForm_gameCommands entry h]
    exact List.mem_append_left _ h
  · exact List.mem_append_right _ (List.mem_map_of_mem h)

/-- Whether no alias gets past the list of reserved names. -/
def DenylistHolds (config : NameConfig) (table : NameTable) : Prop :=
  ∀ entry ∈ config.listed, ∀ name, Means entry name → IsBarred table.rules name

variable {config : NameConfig} {table : NameTable}

/-- A name without a plus sign in front that an entry means is found in the list. -/
theorem isBarred_of_means (htable : config.IsTable table) {entry name : String}
    (hentry : entry ∈ config.listed) (hmeans : Means entry name)
    (hsign : ¬ Text.StartsWithPlus name) : IsBarred table.rules name := by
  rw [BindFile.isBarred_iff]
  intro hnone
  refine (NameTable.aliasFault_eq_none_iff.1 hnone).2.2 ?_
  rw [Text.dropPlus_eq_self hsign, show Text.lower name = reservedForm entry from hmeans]
  exact reservedForm_mem_reserved htable hentry

theorem isBarred_iff_of_means (htable : config.IsTable table) {entry name : String}
    (hentry : entry ∈ config.listed) (hmeans : Means entry name) :
    IsBarred table.rules name ↔ ¬ table.SlipsThrough name := by
  constructor
  · intro h hslips
    exact BindFile.isBarred_iff.1 h (NameTable.aliasFault_eq_none_iff.2
      ⟨hslips.length, hslips.text, hslips.notReserved⟩)
  · intro h
    by_cases hsign : Text.StartsWithPlus name
    · rw [BindFile.isBarred_iff]
      intro hnone
      obtain ⟨hlength, htext, hreserved⟩ := NameTable.aliasFault_eq_none_iff.1 hnone
      exact h ⟨hsign, hlength, htext, hreserved⟩
    · exact isBarred_of_means htable hentry hmeans hsign

/-- No alias gets past the list just if no name that an entry means slips through with a plus sign
in front. Names that are meant by an entry without such a sign, the commands of the game among them,
never do. -/
theorem denylistHolds_iff (htable : config.IsTable table) :
    (DenylistHolds config table ↔
        ∀ entry ∈ config.listed, ∀ name, Means entry name → ¬ table.SlipsThrough name) ∧
      ∀ entry ∈ config.listed, ¬ Text.StartsWithPlus (Text.trim entry) →
        ∀ name, Means entry name → IsBarred table.rules name := by
  constructor
  · exact forall₂_congr fun entry hentry => forall₂_congr fun name hmeans =>
      isBarred_iff_of_means htable hentry hmeans
  · intro entry hentry hsign name hmeans
    exact isBarred_of_means htable hentry hmeans
      fun hplus => hsign ((Text.startsWithPlus_congr hmeans).1 hplus)

/-- A configuration that reserves one more name, in capitals and between blanks. -/
def spacedEntry : NameConfig where
  reservedAliases := [" MyMacro\t"]

theorem isBarred_spacedEntry :
    ∃ table, spacedEntry.table = .ok table ∧ IsBarred table.rules "mymacro" := by
  have htable : spacedEntry.table =
      .ok (spacedEntry.tableWith NameTable.stock.keyText NameTable.stock.aliasText) := rfl
  refine ⟨_, htable,
    (denylistHolds_iff (isTable_of_table htable)).2 " MyMacro\t" ?_ ?_ "mymacro" ?_⟩
  · decide +kernel
  · decide +kernel
  · decide +kernel

/-- A configuration that lets names start with plus signs and reserves one of them. -/
def plusEntry : NameConfig where
  aliasPattern := some "^[+a-z]+$"
  reservedAliases := ["+hold"]

theorem not_denylistHolds_of_plusEntry :
    ¬ ∀ (config : NameConfig) (table : NameTable), config.table = .ok table →
      DenylistHolds config table := by
  intro h
  have hpattern : (Pattern.read? "^[+a-z]+$").map (·.occursIn "+hold") = some true := by
    decide +kernel
  obtain ⟨p, hp, hmatch⟩ := Option.map_eq_some_iff.1 hpattern
  have htable : plusEntry.table =
      .ok (plusEntry.tableWith NameTable.stock.keyText p.occursIn) := by
    have htest : test plusEntry.aliasPattern .aliasPattern NameTable.stock.aliasText =
        .ok p.occursIn := by
      unfold test plusEntry
      dsimp only
      rw [hp]
    unfold NameConfig.table
    rw [htest]
    rfl
  have hbarred := h plusEntry _ htable "+hold" (by decide +kernel) "+hold" (by decide +kernel)
  refine BindFile.isBarred_iff.1 hbarred (NameTable.aliasFault_eq_none_iff.2 ⟨?_, hmatch, ?_⟩)
  · show NameTable.lengthFault NameTable.stock.maxAliasLength "+hold" = none
    decide +kernel
  · show Text.lower _ ∉ NameTable.gameCommands ++ plusEntry.reservedAliases.map reservedForm
    decide +kernel

end NameConfig

end Keybinds
