import Keybinds.Proofs.BindFile.Printing
import Keybinds.Proofs.Chain.Commands
import Mathlib.Data.List.Nodup

/-!
# Written files read back

What the writer makes of a profile holds one declaration for each chain that is not empty, in the
form in which it is written (`holds_write`), and is read back as these declarations by the same
rules (`read_write`). So a file that was written gives the keys and aliases again that it was
written for.
-/

namespace Keybinds.BindFile

open Text (OneLine strip)

variable {rules : NameRules}

/-! ## What is written -/

/-- The keys with chains that are not empty, each with the chain that is written. -/
def writtenKeys (options : WriteOptions) (p : Profile) : List (String × List String) :=
  ((options.keysOf p).filter fun e => !e.2.isEmpty).map fun e =>
    (e.1, writtenChain (p.isKeyStabilized (options.environmentOf p) e.1) e.2)

/-- The aliases with chains that are not empty, each with the chain that is written. -/
def writtenAliases (p : Profile) : List (String × List String) :=
  (p.aliases.entries.filter fun e => !e.2.commands.isEmpty).map fun e =>
    (e.1, writtenChain (p.isAliasStabilized e.1) e.2.commands)

/-- The declarations that are written. -/
def written (options : WriteOptions) (p : Profile) : List Declaration :=
  (writtenKeys options p).map (fun e => ⟨.keys, e.1, e.2⟩) ++
    (writtenAliases p).map fun e => ⟨.aliases, e.1, e.2⟩

/-! ## Checks -/

theorem checkKeyName_eq_ok_iff {name : String} :
    checkKeyName rules name = .ok () ↔
      Text.lower name ∉ keywords ∧ isWritable name = true ∧ rules.acceptsKey name = true := by
  unfold checkKeyName
  split_ifs with h
  · simpa [and_assoc] using h
  · simpa [and_assoc] using h

theorem checkAliasName_eq_ok_iff {name : String} :
    checkAliasName rules name = .ok () ↔
      isWritable name = true ∧ rules.acceptsAlias name = true := by
  unfold checkAliasName
  split_ifs with h
  · simpa using h
  · simpa using h

/-- A body is written for a chain that holds no fault and is cut again as it was joined. -/
theorem writeBody_eq_ok_iff {owner body : String} {chain : List String} :
    writeBody owner chain = .ok body ↔
      (∀ command ∈ chain, commandFault? command = none) ∧ Chain.split (Chain.join chain) = chain ∧
        body = Chain.join chain := by
  have hfault : firstFault? chain = none ↔ ∀ command ∈ chain, commandFault? command = none := by
    unfold firstFault?
    rw [List.findSome?_eq_none_iff]
    simp only [Option.map_eq_none_iff]
  unfold writeBody
  rw [← hfault]
  cases firstFault? chain with
  | some fault => simp
  | none =>
    show (if Chain.split (Chain.join chain) = chain then _ else _) = _ ↔ _
    split_ifs with h
    · simp [h, eq_comm]
    · simp [h]

theorem oneLine_of_commandFault? {command : String} (h : commandFault? command = none) :
    OneLine command.toList := by
  unfold commandFault? at h
  split_ifs at h with _ hbreak
  intro hmem
  refine hbreak ?_
  rw [List.any_eq_true]
  exact ⟨'\n', hmem, rfl⟩

theorem oneLine_join {chain : List String} (h : ∀ command ∈ chain, OneLine command.toList) :
    OneLine (Chain.join chain).toList := by
  intro hmem
  rw [Chain.toList_join] at hmem
  rcases mem_intercalate hmem with hsep | ⟨cs, hcs, hmem⟩
  · exact absurd hsep (by decide)
  · obtain ⟨command, hcommand, rfl⟩ := List.mem_map.1 hcs
    exact h command hcommand hmem

/-! ## Pieces -/

theorem oneLine_of_isWord {name : String} (h : IsWord name) : OneLine name.toList := by
  intro hmem
  have hblank := h.noBlank '\n' hmem
  exact absurd hblank (by decide)

theorem oneLine_quotedBody {body : List Char} (h : OneLine body) : OneLine (quotedBody body) := by
  unfold quotedBody
  refine Text.oneLine_append (fun hmem => ?_) (by unfold OneLine; decide)
  rcases List.mem_cons.1 hmem with hmem | hmem
  · exact absurd hmem (by decide)
  · exact h hmem

theorem holds_commentText {s : String} (hhead : s.toList.head? = some '#') (h : OneLine s.toList) :
    Holds rules (s ++ "\n") [] := by
  obtain ⟨cs, hcs⟩ := List.head?_eq_some_iff.1 hhead
  rw [hcs] at h
  refine holds_comment (l := cs) ?_ fun hmem => h (List.mem_cons_of_mem _ hmem)
  rw [String.toList_append, hcs]
  rfl

theorem headerText_eq (name environment now : String) :
    headerText name environment now =
      ("# " ++ formatMark ++ "\n") ++ ("# profile: " ++ Text.oneLine name ++ "\n") ++
      ("# environment: " ++ Text.oneLine environment ++ "\n") ++
      ("# generated: " ++ Text.oneLine now ++ "\n") := by
  unfold headerText
  simp only [String.append_assoc]

theorem head?_headerText (name environment now : String) :
    (headerText name environment now).toList.head? = some '#' := by
  rw [headerText_eq]
  simp only [String.toList_append, List.append_assoc]
  rfl

theorem holds_headerText (name environment now : String) :
    Holds rules (headerText name environment now) [] := by
  have hline : ∀ {label : String}, label.toList.head? = some '#' → OneLine label.toList →
      ∀ s : String, Holds rules (label ++ Text.oneLine s ++ "\n") [] := by
    intro label hhead hlabel s
    refine holds_commentText ?_ ?_
    · rw [String.toList_append, List.head?_append, hhead]
      rfl
    · rw [String.toList_append]
      exact Text.oneLine_append hlabel (Text.oneLine_oneLine s)
  rw [headerText_eq]
  exact (((holds_commentText rfl (by unfold OneLine; decide)).append
    (hline rfl (by unfold OneLine; decide) _)).append
    (hline rfl (by unfold OneLine; decide) _)).append
    (hline rfl (by unfold OneLine; decide) _)

theorem holds_sectionStart {α : Type} (entries : List α) :
    Holds rules (sectionStart entries) [] := by
  unfold sectionStart
  split_ifs
  · exact holds_empty
  · exact holds_newline

theorem holds_join_nil {texts : List String} (h : ∀ text ∈ texts, Holds rules text []) :
    Holds rules (String.join texts) [] := by
  induction texts with
  | nil => exact holds_empty
  | cons text texts ih =>
    rw [List.forall_mem_cons] at h
    rw [String.join_cons]
    exact h.1.append (ih h.2)

theorem holds_descriptionText (description : Option String) :
    Holds rules (descriptionText description) [] := by
  refine holds_join_nil ?_
  rw [List.forall_mem_map]
  intro line hline
  obtain ⟨raw, hraw, rfl⟩ := List.mem_map.1 (List.mem_filter.1 hline).1
  have hone : OneLine raw := by
    cases description with
    | none => exact absurd hraw List.not_mem_nil
    | some s => exact (Text.infix_of_mem_lines hraw).2
  refine holds_commentText ?_ ?_
  · rw [String.toList_append]
    rfl
  · rw [String.toList_append, String.toList_ofList (l := strip raw)]
    exact Text.oneLine_append (by unfold OneLine; decide)
      fun hmem => hone ((Text.infix_strip raw).subset hmem)

theorem holds_keyLine {name body : String} (hname : IsWord name)
    (hkeyword : Text.lower name ∉ keywords) (haccepts : rules.acceptsKey name = true)
    (hbody : OneLine body.toList) (hne : Chain.split body ≠ []) :
    Holds rules (keyLine name body) [⟨.keys, name, Chain.split body⟩] := by
  have hline := lineOf_key hname hkeyword haccepts
    (congrArg Chain.split (String.ofList_toList (s := body))) hne
  have htext : (keyLine name body).toList =
      (name.toList ++ ' ' :: quotedBody body.toList) ++ ['\n'] := by
    simp [keyLine, quotedBody]
  have hone : OneLine (name.toList ++ ' ' :: quotedBody body.toList) :=
    Text.oneLine_append (oneLine_of_isWord hname)
      (Text.oneLine_append (u := [' ']) (by unfold OneLine; decide) (oneLine_quotedBody hbody))
  have hholds := holds_line rules htext hone (by rw [hline]; rfl)
  rwa [hline] at hholds

theorem holds_aliasLine {name body : String} (hname : IsWord name)
    (haccepts : rules.acceptsAlias name = true) (hbody : OneLine body.toList)
    (hne : Chain.split body ≠ []) :
    Holds rules (aliasLine name body) [⟨.aliases, name, Chain.split body⟩] := by
  have hline := lineOf_alias hname haccepts
    (congrArg Chain.split (String.ofList_toList (s := body))) hne
  have htext : (aliasLine name body).toList =
      ("alias".toList ++ ' ' :: (name.toList ++ ' ' :: quotedBody body.toList)) ++ ['\n'] := by
    simp [aliasLine, quotedBody]
  have hone : OneLine ("alias".toList ++ ' ' :: (name.toList ++ ' ' :: quotedBody body.toList)) :=
    Text.oneLine_append (u := "alias ".toList) (by unfold OneLine; decide)
      (Text.oneLine_append (oneLine_of_isWord hname)
        (Text.oneLine_append (u := [' ']) (by unfold OneLine; decide) (oneLine_quotedBody hbody)))
  have hholds := holds_line rules htext hone (by rw [hline]; rfl)
  rwa [hline] at hholds

/-! ## Entries -/

/-- The declaration that is written for an entry; none for an empty chain. -/
def writtenFor (realm : Realm) (name : String) (stabilized : Bool) (chain : List String) :
    List Declaration :=
  if chain.isEmpty then [] else [⟨realm, name, writtenChain stabilized chain⟩]

theorem writtenChain_ne_nil {stabilized : Bool} {chain : List String} (h : ¬ chain.isEmpty = true) :
    writtenChain stabilized chain ≠ [] := by
  unfold writtenChain Chain.mirror
  split_ifs
  · exact fun hnil => h (List.isEmpty_iff.2 (List.append_eq_nil_iff.1 hnil).1)
  · exact fun hnil => h (List.isEmpty_iff.2 hnil)

/-- A written body is one line that is cut into the chain. -/
theorem writeChain_eq_ok {owner body : String} {stabilized : Bool} {chain : List String}
    (h : writeChain owner stabilized chain = .ok body) :
    OneLine body.toList ∧ Chain.split body = writtenChain stabilized chain := by
  obtain ⟨hcommands, hsplit, rfl⟩ := writeBody_eq_ok_iff.1 h
  exact ⟨oneLine_join fun command hc => oneLine_of_commandFault? (hcommands command hc), hsplit⟩

/-- The line of a key holds the declaration that it was written for. -/
theorem holds_writeKey {p : Profile} {environment key text : String} {chain : List String}
    (h : writeKey rules p environment key chain = .ok text) :
    Holds rules text (writtenFor .keys key (p.isKeyStabilized environment key) chain) := by
  unfold writeKey at h
  obtain ⟨⟨⟩, hname, h⟩ := bind_eq_ok_iff.1 h
  obtain ⟨hkeyword, hwritable, haccepts⟩ := checkKeyName_eq_ok_iff.1 hname
  unfold writtenFor
  split_ifs at h ⊢ with hempty
  · obtain rfl := Except.ok.inj h
    exact holds_empty
  · obtain ⟨body, hbody, h⟩ := bind_eq_ok_iff.1 h
    obtain rfl := Except.ok.inj h
    obtain ⟨hone, hsplit⟩ := writeChain_eq_ok hbody
    rw [← hsplit]
    refine holds_keyLine (isWord_of_isWritable hwritable) hkeyword haccepts hone ?_
    rw [hsplit]
    exact writtenChain_ne_nil hempty

/-- The lines of an alias hold the declaration that they were written for. -/
theorem holds_writeAlias {p : Profile} {name text : String} {a : Alias}
    (h : writeAlias rules p name a = .ok text) :
    Holds rules text (writtenFor .aliases name (p.isAliasStabilized name) a.commands) := by
  unfold writeAlias at h
  obtain ⟨⟨⟩, hname, h⟩ := bind_eq_ok_iff.1 h
  obtain ⟨hwritable, haccepts⟩ := checkAliasName_eq_ok_iff.1 hname
  unfold writtenFor
  split_ifs at h ⊢ with hempty
  · obtain rfl := Except.ok.inj h
    exact holds_empty
  · obtain ⟨body, hbody, h⟩ := bind_eq_ok_iff.1 h
    obtain rfl := Except.ok.inj h
    obtain ⟨hone, hsplit⟩ := writeChain_eq_ok hbody
    rw [← hsplit]
    refine (holds_descriptionText a.description).append
      (holds_aliasLine (isWord_of_isWritable hwritable) haccepts hone ?_)
    rw [hsplit]
    exact writtenChain_ne_nil hempty

/-! ## Files -/

theorem Holds.cast {text : String} {ds es : List Declaration} (h : Holds rules text ds)
    (heq : ds = es) : Holds rules text es :=
  heq ▸ h

theorem flatten_map_writtenFor {α : Type} (realm : Realm) (stabilized : String → Bool)
    (chain : α → List String) (entries : List (String × α)) :
    (entries.map fun e => writtenFor realm e.1 (stabilized e.1) (chain e.2)).flatten =
      ((entries.filter fun e => !(chain e.2).isEmpty).map fun e =>
        ⟨realm, e.1, writtenChain (stabilized e.1) (chain e.2)⟩) := by
  induction entries with
  | nil => rfl
  | cons e entries ih =>
    rw [List.map_cons, List.flatten_cons, ih]
    unfold writtenFor
    split_ifs with h
    · rw [List.filter_cons_of_neg (by simp [h])]
      rfl
    · rw [List.filter_cons_of_pos (by simp [h])]
      rfl

theorem holds_join_of_forall₂ {α : Type} {f : α → List Declaration} {xs : List α}
    {texts : List String} (h : List.Forall₂ (fun x text => Holds rules text (f x)) xs texts) :
    Holds rules (String.join texts) (xs.map f).flatten :=
  holds_join (List.forall₂_map_right_iff.2 h.flip)

/-- A written file holds the declarations that it was written for. -/
theorem holds_write {options : WriteOptions} {p : Profile} {text : String}
    (h : write options p = .ok text) : Holds options.rules text (written options p) := by
  unfold write at h
  obtain ⟨keyTexts, hkeys, h⟩ := bind_eq_ok_iff.1 h
  obtain ⟨aliasTexts, haliases, h⟩ := bind_eq_ok_iff.1 h
  obtain rfl := Except.ok.inj h
  have hheader : Holds options.rules (if options.header then
      headerText p.name (options.environmentOf p) options.now else "") [] := by
    split_ifs
    · exact holds_headerText _ _ _
    · exact holds_empty
  have hkeys := (holds_join_of_forall₂
    ((mapM_eq_ok_iff.1 hkeys).imp fun _ _ => holds_writeKey)).cast
    (flatten_map_writtenFor .keys (p.isKeyStabilized (options.environmentOf p)) (fun c => c) _)
  have haliases := (holds_join_of_forall₂
    ((mapM_eq_ok_iff.1 haliases).imp fun _ _ => holds_writeAlias)).cast
    (flatten_map_writtenFor .aliases p.isAliasStabilized Alias.commands _)
  have hall := (((hheader.append (holds_sectionStart (options.keysOf p))).append hkeys).append
    (holds_sectionStart p.aliases.entries)).append haliases
  refine hall.cast ?_
  simp [written, writtenKeys, writtenAliases, Function.comp_def]

/-- A written file starts with no byte order mark. -/
theorem head?_write {options : WriteOptions} {p : Profile} {text : String}
    (h : write options p = .ok text) : text.toList.head? ≠ some '\uFEFF' := by
  unfold write at h
  obtain ⟨keyTexts, hkeys, h⟩ := bind_eq_ok_iff.1 h
  obtain ⟨aliasTexts, haliases, h⟩ := bind_eq_ok_iff.1 h
  obtain rfl := Except.ok.inj h
  cases options.header with
  | true =>
    simp only [if_true, String.toList_append, List.append_assoc, List.head?_append,
      head?_headerText, Option.some_or]
    exact fun hbom => absurd (Option.some.inj hbom) (by decide)
  | false =>
    cases hkeysOf : options.keysOf p with
    | cons e es => simp [sectionStart]
    | nil =>
      rw [hkeysOf] at hkeys
      cases mapM_eq_ok_iff.1 hkeys
      cases hentries : p.aliases.entries with
      | cons e es => simp [sectionStart]
      | nil =>
        rw [hentries] at haliases
        cases mapM_eq_ok_iff.1 haliases
        simp [sectionStart]

theorem nodup_filter_map_fst {α β : Type} {entries : List (String × α)}
    (h : (entries.map Prod.fst).Nodup) (p : String × α → Bool) (f : String × α → β) :
    (((entries.filter p).map fun e => (e.1, f e)).map Prod.fst).Nodup := by
  rw [List.map_map]
  exact h.sublist (List.filter_sublist.map Prod.fst)

theorem nodup_keysOf (options : WriteOptions) (p : Profile) :
    ((options.keysOf p).map Prod.fst).Nodup :=
  Dict.nodup _

/-- No name is written twice. -/
theorem distinct_written (options : WriteOptions) (p : Profile) :
    Distinct (written options p) := by
  have hrealm : ∀ (realm : Realm) (es : List (String × List String)), (es.map Prod.fst).Nodup →
      ((es.map fun e => (⟨realm, e.1, e.2⟩ : Declaration)).map
        fun d => (d.realm, d.name)).Nodup := by
    intro realm es hes
    rw [List.map_map]
    refine List.Nodup.of_map Prod.snd ?_
    rw [List.map_map]
    exact hes
  unfold Distinct written
  rw [List.map_append, List.nodup_append]
  refine ⟨hrealm _ _ (nodup_filter_map_fst (nodup_keysOf options p) _ _),
    hrealm _ _ (nodup_filter_map_fst p.aliases.nodup _ _), ?_⟩
  intro x hx y hy hxy
  rw [List.map_map, List.mem_map] at hx hy
  obtain ⟨e, -, rfl⟩ := hx
  obtain ⟨f, -, rfl⟩ := hy
  cases (Prod.mk.inj hxy).1

/-- The lines of a text without a byte order mark are all read alike. -/
theorem readLines_unlines {ls : List (List Char)} (hone : ∀ l ∈ ls, OneLine l)
    (hhead : (Text.unlines ls).head? ≠ some '\uFEFF') :
    readLines rules 1 (Text.lines (Text.unlines ls)) = ls.map (lineOf rules) := by
  rw [Text.lines_unlines hone, readLines_eq_map Nat.one_pos, List.map_map]
  · congr 1
    funext l
    exact lineOf_dropCarriageReturn l
  · intro _ raw hraw hbom
    cases ls with
    | nil => cases hraw
    | cons l ls =>
      obtain rfl := Option.some.inj hraw
      refine hhead ?_
      obtain ⟨rest, hrest⟩ := Text.prefix_dropCarriageReturn l
      rw [Text.unlines_cons, ← hrest]
      obtain ⟨cs, hcs⟩ := List.head?_eq_some_iff.1 hbom
      rw [hcs]
      rfl

/-- What is written is read back by the same rules, with mirrors taken apart or not. -/
theorem read_of_holds {options : Options} {text : String} {ds : List Declaration}
    (h : Holds options.rules text ds) (hhead : text.toList.head? ≠ some '\uFEFF')
    (hds : Distinct ds) :
    Lists options (read options text) ds ∧ (read options text).skipped = [] := by
  obtain ⟨ls, htext, hone, hfault, rfl⟩ := h
  rw [htext] at hhead
  have hlines : readLines options.rules 1 _ = _ := readLines_unlines hone hhead
  unfold read
  rw [htext, enterLines_eq, hlines, skippedOf_eq_nil (hlines ▸ List.forall_mem_map.2 hfault)]
  exact ⟨(enterAll_of_distinct options hds).withNotes _ _, rfl⟩

/-- A written file is read back as the declarations that it was written for. -/
theorem read_write {options : WriteOptions} {p : Profile} {text : String}
    (h : write options p = .ok text) (detectMirrors : Bool) :
    Lists ⟨options.rules, detectMirrors⟩ (read ⟨options.rules, detectMirrors⟩ text)
        (written options p) ∧
      (read ⟨options.rules, detectMirrors⟩ text).skipped = [] :=
  read_of_holds (holds_write h) (head?_write h) (distinct_written options p)

/-! ## Reading back -/

theorem inRealm_append (realm : Realm) (ds es : List Declaration) :
    inRealm realm (ds ++ es) = inRealm realm ds ++ inRealm realm es :=
  List.filter_append ds es

theorem inRealm_map (realm realm' : Realm) (es : List (String × List String)) :
    inRealm realm (es.map fun e => ⟨realm', e.1, e.2⟩) =
      if realm' = realm then es.map (fun e => ⟨realm', e.1, e.2⟩) else [] := by
  unfold inRealm
  split_ifs with h
  · rw [List.filter_eq_self, List.forall_mem_map]
    exact fun e _ => decide_eq_true h
  · rw [List.filter_eq_nil_iff, List.forall_mem_map]
    exact fun e _ => (decide_eq_true_iff.not).2 h

theorem inRealm_written_keys (options : WriteOptions) (p : Profile) :
    inRealm .keys (written options p) =
      (writtenKeys options p).map fun e => ⟨.keys, e.1, e.2⟩ := by
  unfold written
  rw [inRealm_append, inRealm_map, inRealm_map, if_pos rfl, if_neg (by decide), List.append_nil]

theorem inRealm_written_aliases (options : WriteOptions) (p : Profile) :
    inRealm .aliases (written options p) =
      (writtenAliases p).map fun e => ⟨.aliases, e.1, e.2⟩ := by
  unfold written
  rw [inRealm_append, inRealm_map, inRealm_map, if_neg (by decide), if_pos rfl, List.nil_append]

/-- Without a look for mirrors every chain is stored as it stands. -/
theorem stored_of_not_detectMirrors (rules : NameRules) (d : Declaration) :
    stored ⟨rules, false⟩ d = (d.chain, false) := rfl

/-- A file that was written reads back, by the same rules, as the keys and aliases that have a
chain, each in its place and with the chain that its flag asks for; nothing is skipped, declared
twice or listed as stabilized. -/
theorem written_reads_back {options : WriteOptions} {p : Profile} {text : String}
    (h : write options p = .ok text) :
    let file := read { rules := options.rules } text
    file.skipped = [] ∧ file.duplicates = [] ∧ file.stabilizedKeys = [] ∧
      file.stabilizedAliases = [] ∧ file.keys.entries = writtenKeys options p ∧
      file.aliases.entries = writtenAliases p := by
  intro file
  obtain ⟨hlists, hskipped⟩ := read_write h false
  have hstabilized : ∀ realm, file.stabilized realm = [] := by
    intro realm
    rw [hlists.stabilized realm, List.map_eq_nil_iff, List.filter_eq_nil_iff]
    intro d _
    rw [stored_of_not_detectMirrors]
    exact Bool.false_ne_true
  refine ⟨hskipped, hlists.duplicates, hstabilized .keys, hstabilized .aliases, ?_, ?_⟩
  · rw [show file.keys.entries = _ from hlists.entries .keys, inRealm_written_keys, List.map_map]
    exact List.map_id _
  · rw [show file.aliases.entries = _ from hlists.entries .aliases, inRealm_written_aliases,
      List.map_map]
    exact List.map_id _

/-- A profile with a chain that holds quotes, a key without commands, and an alias below a
description of two lines. -/
def sampleProfile : Profile :=
  let keyed := (Profile.new "Main\nF9 \"x\"" "t").setKey "space" "F1" ["A", "say \"x $$ y\""]
  ((keyed.stabilizeKey "space" "F1" true).setKey "space" "F3" []).setAlias "attack"
    { commands := ["FireAll"], description := some "F2 \"B\"\r\n\nsecond" }

theorem sampleProfile_reads_back :
    let options : WriteOptions := { now := "t" }
    let text := "# keybind-chain/1\n# profile: Main F9 \"x\"\n# environment: space\n" ++
      "# generated: t\n\nF1 \"A $$ say \"x $$ y\" $$ say \"x $$ y\" $$ A\"\n\n" ++
      "# F2 \"B\"\n# second\nalias attack \"FireAll\"\n"
    write options sampleProfile = .ok text ∧
      (read { rules := options.rules } text).keys.entries = writtenKeys options sampleProfile ∧
      writtenKeys options sampleProfile =
        [("F1", ["A", "say \"x $$ y\"", "say \"x $$ y\"", "A"])] := by
  intro options text
  have hwrite : write options sampleProfile = .ok text := eq_ok_of_toOption (by decide +kernel)
  exact ⟨hwrite, (written_reads_back hwrite).2.2.2.2.1, by decide +kernel⟩

end Keybinds.BindFile
