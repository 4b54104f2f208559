import Keybinds.Proofs.BindFile.Reading
import Keybinds.Proofs.List

/-!
# What a file that was read holds

Every entry of a file that was read stands for a declaration on one line of the text
(`exists_declares_of_mem_read`): its name is a word that the rules accept, its chain was cut from a
part of the line, and its name is listed as stabilized exactly when the chain was taken apart. Which
declaration it is depends on what is declared again behind it; the entries are followed through all
declarations in turn (`Tracks.enterAll`).
-/

namespace Keybinds.BindFile

open Text (NoBlank OneLine firstWord strip)

/-! ## Lines -/

/-- A line declares a name that is a word, with a chain that a part of the line is cut into. -/
structure Declares (rules : NameRules) (line : List Char) (d : Declaration) : Prop where
  accepted : accepts rules d.realm d.name = true
  name_ne_nil : d.name.toList ≠ []
  noBlank : NoBlank d.name.toList
  chain_ne_nil : d.chain ≠ []
  body : ∃ body, body <:+: line ∧ Chain.split (String.ofList body) = d.chain

variable {rules : NameRules}

theorem Declares.mono {line line' : List Char} {d : Declaration} (h : Declares rules line d)
    (hline : line <:+: line') : Declares rules line' d := by
  obtain ⟨body, hbody, hsplit⟩ := h.body
  exact { h with body := ⟨body, hbody.trans hline, hsplit⟩ }

/-- What stands inside the outer quoting stands in the text. -/
theorem infix_of_innerText {mayBeBare : Bool} {body inner : List Char}
    (h : innerText mayBeBare body = .ok inner) : inner <:+: body := by
  unfold innerText at h
  split at h
  · cases h
  · split at h
    · rename_i hbetween
      cases h
      unfold betweenQuotes? at hbetween
      split at hbetween
      · split_ifs at hbetween
        cases hbetween
        exact (List.dropLast_prefix _).isInfix.trans (List.suffix_cons _ _).isInfix
      · cases hbetween
    · split_ifs at h
      cases h
      exact (List.take_prefix _ _).isInfix.trans
        ((List.suffix_cons _ _).trans (List.suffix_cons _ _)).isInfix
    · cases h
    · cases h
    · split_ifs at h
      cases h
      exact List.infix_refl _

theorem readChain_eq_ok {mayBeBare : Bool} {body : List Char} {chain : List String}
    (h : readChain mayBeBare body = .ok chain) :
    chain ≠ [] ∧ ∃ inner, inner <:+: body ∧ Chain.split (String.ofList inner) = chain := by
  unfold readChain at h
  obtain ⟨inner, hinner, h⟩ := bind_eq_ok_iff.1 h
  split at h
  · cases h
  · rename_i hne
    cases h
    exact ⟨hne, inner, infix_of_innerText hinner, rfl⟩

/-- A name and a chain behind it make a declaration. -/
theorem declares_of_readChain {realm : Realm} {name body line : List Char} {mayBeBare : Bool}
    {chain : List String} (hname : NoBlank name) (hne : name ≠ [])
    (hcheck : checkName realm rules (String.ofList name) = .ok ())
    (hchain : readChain mayBeBare body = .ok chain) (hbody : body <:+: line) :
    Declares rules line ⟨realm, String.ofList name, chain⟩ := by
  obtain ⟨hchain, inner, hinner, hsplit⟩ := readChain_eq_ok hchain
  exact ⟨checkName_eq_ok_iff.1 hcheck, by rwa [String.toList_ofList],
    by rwa [String.toList_ofList], hchain, inner, hinner.trans hbody, hsplit⟩

theorem declares_of_readAfterKeyword {realm : Realm} {mayBeBare : Bool} {rest : List Char}
    {d : Declaration} (h : readAfterKeyword realm rules mayBeBare rest = .ok d) :
    Declares rules rest d := by
  unfold readAfterKeyword at h
  dsimp only at h
  split_ifs at h with hempty
  · cases h
  · obtain ⟨⟨⟩, hcheck, h⟩ := bind_eq_ok_iff.1 h
    obtain ⟨chain, hchain, h⟩ := bind_eq_ok_iff.1 h
    cases h
    exact declares_of_readChain (Text.noBlank_firstWord rest)
      (fun hnil => hempty (List.isEmpty_iff.2 hnil)) hcheck hchain (Text.infix_firstWord_snd rest)

theorem declares_of_readDeclaration {line : List Char} {d : Declaration}
    (h : readDeclaration rules line = .ok d) (hline : (firstWord line).1 ≠ []) :
    Declares rules line d := by
  have hrest := Text.infix_firstWord_snd line
  unfold readDeclaration at h
  dsimp only at h
  split_ifs at h
  · exact (declares_of_readAfterKeyword h).mono hrest
  · exact (declares_of_readAfterKeyword h).mono hrest
  · obtain ⟨⟨⟩, hcheck, h⟩ := bind_eq_ok_iff.1 h
    obtain ⟨chain, hchain, h⟩ := bind_eq_ok_iff.1 h
    cases h
    exact declares_of_readChain (Text.noBlank_firstWord line) hline hcheck hchain hrest

/-- A trimmed line that is not empty starts with a word. -/
theorem firstWord_ne_nil {c : Char} {cs : List Char} (h : strip (c :: cs) = c :: cs) :
    (firstWord (c :: cs)).1 ≠ [] := by
  have hc : Text.isBlank c = false := (Text.strip_eq_self_iff.1 h).1 c rfl
  have hstart : Text.stripStart (c :: cs) = c :: cs :=
    Text.stripStart_eq_self fun d hd => Option.some.inj hd ▸ hc
  show (Text.stripStart (c :: cs)).takeWhile (!Text.isBlank ·) ≠ []
  rw [hstart, List.takeWhile_cons_of_pos (by rw [hc]; rfl)]
  exact List.cons_ne_nil _ _

theorem declares_of_readTrimmed {line : List Char} {d : Declaration} (hline : strip line = line)
    (h : readTrimmed rules line = .declaration d) : Declares rules line d := by
  unfold readTrimmed at h
  split at h
  · cases h
  · cases h
  · rename_i hnil hhash
    split at h
    · rename_i hread
      cases h
      refine declares_of_readDeclaration hread ?_
      cases line with
      | nil => exact absurd rfl hnil
      | cons c cs => exact firstWord_ne_nil hline
    · cases h

theorem declares_of_readLine (number : Nat) {raw : List Char} {d : Declaration}
    (h : readLine rules number raw = .declaration d) : Declares rules raw d := by
  have hpart : trimLine number raw <:+: raw := by
    unfold trimLine
    refine (Text.infix_strip _).trans ?_
    split_ifs
    · exact (List.dropWhile_suffix _).isInfix
    · exact List.infix_refl raw
  exact (declares_of_readTrimmed (Text.strip_strip _) h).mono hpart

/-- Every declaration among lines stands on one of them. -/
theorem exists_declares_of_mem {number : Nat} {raws : List (List Char)} {d : Declaration}
    (h : d ∈ (readLines rules number raws).filterMap Line.declaration?) :
    ∃ raw ∈ raws, Declares rules raw d := by
  induction raws generalizing number with
  | nil => exact absurd h List.not_mem_nil
  | cons raw raws ih =>
    obtain ⟨line, hline, hd⟩ := List.mem_filterMap.1 h
    rcases List.mem_cons.1 hline with rfl | hline
    · refine ⟨raw, List.mem_cons_self, declares_of_readLine number ?_⟩
      cases hread : readLine rules number raw with
      | declaration d' =>
        rw [hread] at hd
        rw [Option.some.inj hd]
      | _ =>
        rw [hread] at hd
        cases hd
    · obtain ⟨raw', hraw, hdeclares⟩ := ih (List.mem_filterMap.2 ⟨line, hline, hd⟩)
      exact ⟨raw', List.mem_cons_of_mem raw hraw, hdeclares⟩

/-! ## Entries -/

theorem mem_mark {names : List String} {name n : String} {on : Bool} :
    n ∈ mark names name on ↔ if n = name then on = true else n ∈ names := by
  unfold mark
  split_ifs with hon hmem hn hn hn
  · exact iff_of_true (hn ▸ hmem) hon
  · exact Iff.rfl
  · exact iff_of_true (hn ▸ List.mem_concat_self) hon
  · rw [List.mem_append, List.mem_singleton]
    exact ⟨fun h => h.resolve_right hn, Or.inl⟩
  · subst hn
    exact iff_of_false (fun h => by simpa using (List.mem_filter.1 h).2) hon
  · rw [List.mem_filter, bne_iff_ne]
    exact and_iff_left hn

theorem nodup_mark {names : List String} (h : names.Nodup) (name : String) (on : Bool) :
    (mark names name on).Nodup := by
  unfold mark
  split_ifs with hon hmem
  · exact h
  · exact List.nodup_append.2 ⟨h, List.nodup_singleton name, by
      rintro n hn m hm rfl
      exact hmem (List.mem_singleton.1 hm ▸ hn)⟩
  · exact h.filter _

/-- The last declaration of a name. -/
def lastOf (realm : Realm) (name : String) (ds : List Declaration) : Option Declaration :=
  ds.reverse.find? fun d => d.realm = realm ∧ d.name = name

theorem lastOf_concat (realm : Realm) (name : String) (ds : List Declaration) (d : Declaration) :
    lastOf realm name (ds ++ [d]) =
      if d.realm = realm ∧ d.name = name then some d else lastOf realm name ds := by
  unfold lastOf
  rw [List.reverse_concat, List.find?_cons]
  split_ifs with h <;> simp [h]

theorem mem_of_lastOf {realm : Realm} {name : String} {ds : List Declaration} {d : Declaration}
    (h : lastOf realm name ds = some d) : d ∈ ds ∧ d.realm = realm ∧ d.name = name := by
  have hfound := List.find?_some h
  exact ⟨List.mem_reverse.1 (List.mem_of_find?_eq_some h), of_decide_eq_true hfound⟩

/-- The file holds what the declarations say: the names in the order in which they are declared
first, each with the chain of its last declaration. A name is listed as stabilized exactly when the
chain of its last declaration was taken apart, and every declaration counts. -/
structure Tracks (options : Options) (file : BindFile) (ds : List Declaration) : Prop where
  keys : ∀ realm, (file.declared realm).keys =
    ((inRealm realm ds).map Declaration.name).eraseDups
  chain : ∀ realm name, (file.declared realm).get? name =
    (lastOf realm name ds).map fun d => (stored options d).1
  listed : ∀ realm name, name ∈ file.stabilized realm ↔
    ∃ d, lastOf realm name ds = some d ∧ (stored options d).2 = true
  nodup : ∀ realm, (file.stabilized realm).Nodup
  counted : file.keys.size + file.aliases.size + file.duplicates.length = ds.length

namespace Tracks

variable {options : Options} {file : BindFile} {ds : List Declaration}

/-- A declaration counts as a new entry or as a duplicate. -/
theorem counted_enterDeclaration
    (h : file.keys.size + file.aliases.size + file.duplicates.length = ds.length)
    (d : Declaration) :
    (file.enterDeclaration options d).keys.size + (file.enterDeclaration options d).aliases.size +
      (file.enterDeclaration options d).duplicates.length = (ds ++ [d]).length := by
  obtain ⟨realm, name, chain⟩ := d
  cases realm with
  | keys =>
    show (file.keys.insert name _).size + file.aliases.size +
      (if file.keys.contains name = true then file.duplicates ++ [name]
        else file.duplicates).length = _
    rw [Dict.size_insert, List.length_append, List.length_singleton]
    split_ifs
    · rw [List.length_append, List.length_singleton]
      omega
    · omega
  | aliases =>
    show file.keys.size + (file.aliases.insert name _).size +
      (if file.aliases.contains name = true then file.duplicates ++ [name]
        else file.duplicates).length = _
    rw [Dict.size_insert, List.length_append, List.length_singleton]
    split_ifs
    · rw [List.length_append, List.length_singleton]
      omega
    · omega

theorem enterDeclaration (h : Tracks options file ds) (d : Declaration) :
    Tracks options (file.enterDeclaration options d) (ds ++ [d]) where
  keys realm := by
    rw [declared_enterDeclaration, inRealm_concat]
    split_ifs with hrealm
    · rw [Dict.keys_insert, h.keys, List.map_append, List.map_singleton, eraseDups_concat]
      simp only [List.mem_eraseDups]
    · exact h.keys realm
  chain realm name := by
    rw [declared_enterDeclaration, lastOf_concat]
    by_cases hrealm : realm = d.realm
    · rw [if_pos hrealm, Dict.get?_insert]
      by_cases hname : name = d.name
      · rw [if_pos hname, if_pos ⟨hrealm.symm, hname.symm⟩]
        rfl
      · rw [if_neg hname, if_neg fun heq => hname heq.2.symm]
        exact h.chain realm name
    · rw [if_neg hrealm, if_neg fun heq => hrealm heq.1.symm]
      exact h.chain realm name
  listed realm name := by
    rw [stabilized_enterDeclaration, lastOf_concat]
    by_cases hrealm : realm = d.realm
    · rw [if_pos hrealm, mem_mark]
      by_cases hname : name = d.name
      · rw [if_pos hname, if_pos ⟨hrealm.symm, hname.symm⟩]
        simp only [Option.some.injEq, exists_eq_left']
      · rw [if_neg hname, if_neg fun heq => hname heq.2.symm]
        exact h.listed realm name
    · rw [if_neg hrealm, if_neg fun heq => hrealm heq.1.symm]
      exact h.listed realm name
  nodup realm := by
    rw [stabilized_enterDeclaration]
    split_ifs
    · exact nodup_mark (h.nodup realm) _ _
    · exact h.nodup realm
  counted := counted_enterDeclaration h.counted d

theorem enterAll (options : Options) (ds : List Declaration) :
    Tracks options (enterAll options {} ds) ds := by
  induction ds using List.reverseRecOn with
  | nil =>
    refine ⟨fun realm => ?_, fun realm name => ?_, fun realm name => ?_, fun realm => ?_, rfl⟩
    · cases realm <;> rfl
    · cases realm <;> rfl
    · cases realm <;> exact iff_of_false List.not_mem_nil nofun
    · cases realm <;> exact List.nodup_nil
  | append_singleton ds d ih =>
    rw [enterAll_concat]
    exact ih.enterDeclaration d

theorem withNotes (h : Tracks options file ds) (comments : List Comment)
    (skipped : List SkippedLine) : Tracks options { file with comments, skipped } ds := by
  refine ⟨fun realm => ?_, fun realm name => ?_, fun realm name => ?_, fun realm => ?_, h.counted⟩
  · have hkeys := h.keys realm
    cases realm <;> exact hkeys
  · have hchain := h.chain realm name
    cases realm <;> exact hchain
  · have hlisted := h.listed realm name
    cases realm <;> exact hlisted
  · have hnodup := h.nodup realm
    cases realm <;> exact hnodup

/-- Every entry stands for the last declaration of its name. -/
theorem exists_lastOf (h : Tracks options file ds) {realm : Realm} {e : String × List String}
    (he : e ∈ (file.declared realm).entries) :
    ∃ d, lastOf realm e.1 ds = some d ∧
      stored options d = (e.2, decide (e.1 ∈ file.stabilized realm)) := by
  have hchain := h.chain realm e.1
  rw [Dict.get?_eq_some_iff.2 he] at hchain
  obtain ⟨d, hlast, hstored⟩ := Option.map_eq_some_iff.1 hchain.symm
  refine ⟨d, hlast, Prod.ext hstored ?_⟩
  rw [Bool.eq_iff_iff, decide_eq_true_iff, h.listed, hlast]
  simp only [Option.some.injEq, exists_eq_left']

theorem mem_keys (h : Tracks options file ds) {realm : Realm} {name : String}
    (hname : name ∈ file.stabilized realm) : name ∈ (file.declared realm).keys := by
  obtain ⟨d, hlast, -⟩ := (h.listed realm name).1 hname
  have hchain := h.chain realm name
  rw [hlast] at hchain
  exact Dict.mem_keys_iff.2 ⟨_, Dict.get?_eq_some_iff.1 hchain⟩

end Tracks

theorem tracks_read (options : Options) (text : String) :
    Tracks options (read options text)
      ((readLines options.rules 1 (Text.lines text.toList)).filterMap Line.declaration?) := by
  unfold read
  rw [enterLines_eq]
  exact (Tracks.enterAll options _).withNotes _ _

section

variable {options : Options} {text : String} {realm : Realm} {e : String × List String}

/-- Every entry of a file that was read stands for a declaration on one line of the text. -/
theorem exists_declares_of_mem_read (he : e ∈ ((read options text).declared realm).entries) :
    ∃ line ∈ Text.lines text.toList, ∃ d, Declares options.rules line d ∧ d.realm = realm ∧
      d.name = e.1 ∧
      stored options d = (e.2, decide (e.1 ∈ (read options text).stabilized realm)) := by
  obtain ⟨d, hlast, hstored⟩ := (tracks_read options text).exists_lastOf he
  obtain ⟨hd, hrealm, hname⟩ := mem_of_lastOf hlast
  obtain ⟨line, hline, hdeclares⟩ := exists_declares_of_mem hd
  exact ⟨line, hline, d, hdeclares, hrealm, hname, hstored⟩

/-- The chain of an entry is written as it was declared on a line, and stored again as it was. -/
theorem exists_declares_writtenChain (he : e ∈ ((read options text).declared realm).entries) :
    ∃ line ∈ Text.lines text.toList, ∃ d, Declares options.rules line d ∧ d.realm = realm ∧
      d.name = e.1 ∧ d.chain =
        writtenChain (decide (e.1 ∈ (read options text).stabilized realm)) e.2 ∧
      stored options d = (e.2, decide (e.1 ∈ (read options text).stabilized realm)) := by
  obtain ⟨line, hline, d, hdeclares, hrealm, hname, hstored⟩ := exists_declares_of_mem_read he
  have hchain := writtenChain_stored options d
  rw [hstored] at hchain
  exact ⟨line, hline, d, hdeclares, hrealm, hname, hchain.symm, hstored⟩

theorem chain_ne_nil_of_mem_read (realm : Realm)
    (he : e ∈ ((read options text).declared realm).entries) : e.2 ≠ [] := by
  obtain ⟨_, -, d, hdeclares, -, -, hchain, -⟩ := exists_declares_writtenChain he
  intro hnil
  refine hdeclares.chain_ne_nil ?_
  rw [hchain, hnil, List.eq_nil_iff_forall_not_mem]
  intro command hcommand
  exact absurd (mem_writtenChain.1 hcommand) List.not_mem_nil

end

end Keybinds.BindFile
