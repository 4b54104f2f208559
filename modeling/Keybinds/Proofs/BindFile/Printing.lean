import Keybinds.BindFile.Writer
import Keybinds.Proofs.BindFile.Reading
import Keybinds.Proofs.List

/-!
# Texts that hold declarations

A text `Holds` declarations when it is made of lines that are read as these declarations, as
comments or as blank, with nothing skipped. Texts of this kind may be put behind each other, and
each piece that the writer makes is one: a header and a description hold no declaration, the line of
a key or an alias holds the one that it was made for.
-/

namespace Keybinds.BindFile

open Text (AllBlank NoBlank OneLine isBlank strip unlines firstWord dropCarriageReturn)

variable {rules : NameRules}

/-! ## Lines behind the first one -/

/-- What a line holds that is not the first one. -/
def lineOf (rules : NameRules) (raw : List Char) : Line := readTrimmed rules (strip raw)

theorem lineOf_dropCarriageReturn (raw : List Char) :
    lineOf rules (dropCarriageReturn raw) = lineOf rules raw := by
  unfold dropCarriageReturn
  split_ifs with h
  · obtain ⟨line, rfl⟩ := List.getLast?_eq_some_iff.1 h
    have hblank : AllBlank ['\r'] := fun c hc => List.mem_singleton.1 hc ▸ rfl
    unfold lineOf
    rw [List.dropLast_concat, Text.strip_append_right hblank]
  · rfl

theorem readLine_eq_lineOf {number : Nat} {raw : List Char}
    (h : number = 1 → raw.head? ≠ some '\uFEFF') :
    readLine rules number raw = lineOf rules raw := by
  unfold readLine trimLine lineOf
  split_ifs with hn
  · have h := h hn
    cases raw with
    | nil => rfl
    | cons c raw =>
      rw [List.dropWhile_cons_of_neg]
      rw [beq_iff_eq]
      rintro rfl
      exact h rfl
  · rfl

theorem readLines_eq_map {number : Nat} (hnumber : 0 < number) {raws : List (List Char)}
    (h : number = 1 → ∀ raw ∈ raws.head?, raw.head? ≠ some '\uFEFF') :
    readLines rules number raws = raws.map (lineOf rules) := by
  induction raws generalizing number with
  | nil => rfl
  | cons raw raws ih =>
    show readLine rules number raw :: readLines rules (number + 1) raws = _
    rw [readLine_eq_lineOf fun hn => h hn raw rfl, ih (Nat.succ_pos number) (by omega)]
    rfl

/-! ## Texts -/

/-- The text is made of lines that hold the declarations, and nothing in it is skipped. -/
def Holds (rules : NameRules) (text : String) (ds : List Declaration) : Prop :=
  ∃ ls, text.toList = unlines ls ∧ (∀ l ∈ ls, OneLine l) ∧
    (∀ l ∈ ls, (lineOf rules l).fault? = none) ∧
    (ls.map (lineOf rules)).filterMap Line.declaration? = ds

theorem holds_empty : Holds rules "" [] := ⟨[], rfl, by simp, by simp, rfl⟩

theorem Holds.append {s t : String} {ds es : List Declaration} (hs : Holds rules s ds)
    (ht : Holds rules t es) : Holds rules (s ++ t) (ds ++ es) := by
  obtain ⟨ls, htext, hone, hfault, rfl⟩ := hs
  obtain ⟨ls', htext', hone', hfault', rfl⟩ := ht
  refine ⟨ls ++ ls', ?_, List.forall_mem_append.2 ⟨hone, hone'⟩,
    List.forall_mem_append.2 ⟨hfault, hfault'⟩, ?_⟩
  · rw [String.toList_append, htext, htext', Text.unlines_append]
  · rw [List.map_append, List.filterMap_append]

theorem holds_join {texts : List String} {dss : List (List Declaration)}
    (h : List.Forall₂ (Holds rules) texts dss) : Holds rules (String.join texts) dss.flatten := by
  induction h with
  | nil => exact holds_empty
  | cons h _ ih =>
    rw [String.join_cons]
    exact h.append ih

/-- A single line. -/
theorem holds_line (rules : NameRules) {text : String} {l : List Char}
    (htext : text.toList = l ++ ['\n']) (hl : OneLine l) (hfault : (lineOf rules l).fault? = none) :
    Holds rules text (lineOf rules l).declaration?.toList := by
  refine ⟨[l], by rw [htext, Text.unlines_cons]; rfl, by simpa using hl, by simpa using hfault, ?_⟩
  rw [List.map_singleton, List.filterMap_cons]
  cases (lineOf rules l).declaration? <;> rfl

theorem holds_newline : Holds rules "\n" [] :=
  holds_line rules (l := []) rfl List.not_mem_nil rfl

theorem strip_cons_of_not_isBlank {c : Char} (hc : isBlank c = false) (cs : List Char) :
    ∃ rest, strip (c :: cs) = c :: rest := by
  have hstart : Text.stripStart (c :: cs) = c :: cs :=
    Text.stripStart_eq_self fun d hd => Option.some.inj hd ▸ hc
  obtain ⟨trail, htrail, heq⟩ := Text.exists_stripEnd (c :: cs)
  unfold strip
  rw [hstart]
  cases hend : Text.stripEnd (c :: cs) with
  | nil =>
    rw [hend] at heq
    have hmem : c ∈ trail := by
      rw [← List.nil_append trail, ← heq]
      exact List.mem_cons_self
    rw [htrail c hmem] at hc
    exact Bool.noConfusion hc
  | cons d rest =>
    rw [hend] at heq
    exact ⟨rest, by rw [(List.cons.inj heq).1]⟩

theorem lineOf_hash (rules : NameRules) (cs : List Char) :
    ∃ text, lineOf rules ('#' :: cs) = .comment text := by
  obtain ⟨rest, h⟩ := strip_cons_of_not_isBlank (c := '#') rfl cs
  refine ⟨String.ofList ('#' :: rest), ?_⟩
  unfold lineOf
  rw [h]
  rfl

/-- A comment holds no declaration. -/
theorem holds_comment {text : String} {l : List Char} (htext : text.toList = '#' :: l ++ ['\n'])
    (hl : OneLine l) : Holds rules text [] := by
  obtain ⟨comment, hcomment⟩ := lineOf_hash rules l
  have hone : OneLine ('#' :: l) := by
    intro h
    rcases List.mem_cons.1 h with h | h
    · exact absurd h (by decide)
    · exact hl h
  have := holds_line rules htext hone (by rw [hcomment]; rfl)
  rwa [hcomment] at this

/-! ## Lines of keys and aliases -/

/-- A body between double quotes. -/
def quotedBody (body : List Char) : List Char := '"' :: body ++ ['"']

theorem getLast?_quotedBody (body : List Char) : (quotedBody body).getLast? = some '"' :=
  List.getLast?_concat

theorem getLast?_space_quotedBody (body : List Char) :
    (' ' :: quotedBody body).getLast? = some '"' := by
  rw [List.getLast?_cons, getLast?_quotedBody]
  rfl

theorem strip_quotedBody (body : List Char) : strip (quotedBody body) = quotedBody body := by
  refine Text.strip_eq_self ⟨?_, ?_⟩
  · rintro c ⟨rfl⟩
    rfl
  · rw [getLast?_quotedBody]
    rintro c ⟨rfl⟩
    rfl

theorem strip_space_quotedBody (body : List Char) :
    strip (' ' :: quotedBody body) = quotedBody body := by
  have hblank : AllBlank [' '] := fun c hc => List.mem_singleton.1 hc ▸ rfl
  exact (Text.strip_append_left hblank (quotedBody body)).trans (strip_quotedBody body)

/-- The chain of a quoted body is read as it is cut. -/
theorem readChain_quotedBody (mayBeBare : Bool) {body : List Char} {chain : List String}
    (h : Chain.split (String.ofList body) = chain) (hne : chain ≠ []) :
    readChain mayBeBare (quotedBody body) = .ok chain := by
  have hbetween : betweenQuotes? (quotedBody body) = some body := by
    show (if ('"' = '"' ∨ '"' = '\'') ∧ (body ++ ['"']).getLast? = some '"' then
      some (body ++ ['"']).dropLast else none) = some body
    rw [List.getLast?_concat, List.dropLast_concat, if_pos ⟨Or.inl rfl, rfl⟩]
  have hinner : innerText mayBeBare (quotedBody body) = .ok body := by
    unfold innerText
    rw [hbetween]
    rfl
  unfold readChain
  refine bind_eq_ok_iff.2 ⟨body, hinner, ?_⟩
  rw [h]
  cases chain with
  | nil => exact absurd rfl hne
  | cons c rest => rfl

/-- A name as a word: it reads back as itself in front of a blank and starts no comment. -/
structure IsWord (name : String) : Prop where
  ne_nil : name.toList ≠ []
  noBlank : NoBlank name.toList
  head : name.toList.head? ≠ some '#'

theorem isWord_of_isWritable {name : String} (h : isWritable name = true) : IsWord name := by
  unfold isWritable at h
  simp only [Bool.and_eq_true, Bool.not_eq_true', List.any_eq_false, Bool.or_eq_true, bne_iff_ne,
    not_or, Bool.not_eq_true] at h
  refine ⟨?_, fun c hc => (h.2 c hc).1.1, h.1.2⟩
  have hempty := h.1.1
  simpa using hempty

theorem IsWord.strip {name : String} (h : IsWord name) {behind : List Char}
    (hlast : behind.getLast? = some '"') :
    strip (name.toList ++ behind) = name.toList ++ behind := by
  refine Text.strip_eq_self ⟨fun c hc => ?_, fun c hc => ?_⟩
  · rw [List.head?_append_of_ne_nil _ h.ne_nil] at hc
    exact h.noBlank c (List.mem_of_mem_head? hc)
  · rw [List.getLast?_append, hlast, Option.some_or] at hc
    exact Option.some.inj hc ▸ rfl

theorem IsWord.readTrimmed {name : String} (h : IsWord name) {behind : List Char}
    {d : Declaration} (hread : readDeclaration rules (name.toList ++ behind) = .ok d) :
    readTrimmed rules (name.toList ++ behind) = .declaration d := by
  have hne := h.ne_nil
  have hhead := h.head
  cases hname : name.toList with
  | nil => exact absurd hname hne
  | cons c cs =>
    rw [hname] at hhead hread
    unfold BindFile.readTrimmed
    split
    · rename_i heq
      exact absurd heq (by simp)
    · rename_i heq
      rw [(List.cons.inj heq).1] at hhead
      exact absurd rfl hhead
    · rw [hread]

theorem IsWord.firstWord {name : String} (h : IsWord name) (body : List Char) :
    Text.firstWord (name.toList ++ ' ' :: quotedBody body) = (name.toList, quotedBody body) := by
  rw [Text.firstWord_append h.noBlank h.ne_nil rfl, strip_space_quotedBody]

/-- The line of a key is read as its declaration. -/
theorem lineOf_key {name : String} (hname : IsWord name) (hkeyword : Text.lower name ∉ keywords)
    (haccepts : rules.acceptsKey name = true) {body : List Char} {chain : List String}
    (hbody : Chain.split (String.ofList body) = chain) (hne : chain ≠ []) :
    lineOf rules (name.toList ++ ' ' :: quotedBody body) = .declaration ⟨.keys, name, chain⟩ := by
  have hcheck : checkName .keys rules name = .ok () := checkName_eq_ok_iff.2 haccepts
  have hread : readDeclaration rules (name.toList ++ ' ' :: quotedBody body) =
      .ok ⟨.keys, name, chain⟩ := by
    simp only [keywords, List.mem_cons, List.not_mem_nil, or_false, not_or] at hkeyword
    unfold readDeclaration
    rw [hname.firstWord]
    simp only [String.ofList_toList, hkeyword.1, hkeyword.2.1, hkeyword.2.2, or_self, if_false]
    rw [if_neg (by simp [quotedBody]), hcheck, readChain_quotedBody false hbody hne]
    rfl
  unfold lineOf
  rw [hname.strip (getLast?_space_quotedBody body), hname.readTrimmed hread]

theorem isWord_alias : IsWord "alias" where
  ne_nil := by decide
  noBlank := by
    have hall : "alias".toList.all (!isBlank ·) = true := rfl
    intro c hc
    simpa using List.all_eq_true.1 hall c hc
  head := by decide

/-- The line of an alias is read as its declaration. -/
theorem lineOf_alias {name : String} (hname : IsWord name)
    (haccepts : rules.acceptsAlias name = true) {body : List Char} {chain : List String}
    (hbody : Chain.split (String.ofList body) = chain) (hne : chain ≠ []) :
    lineOf rules ("alias".toList ++ ' ' :: (name.toList ++ ' ' :: quotedBody body)) =
      .declaration ⟨.aliases, name, chain⟩ := by
  have hcheck : checkName .aliases rules name = .ok () := checkName_eq_ok_iff.2 haccepts
  have hrest : strip (' ' :: (name.toList ++ ' ' :: quotedBody body)) =
      name.toList ++ ' ' :: quotedBody body := by
    have hblank : AllBlank [' '] := fun c hc => List.mem_singleton.1 hc ▸ rfl
    exact (Text.strip_append_left hblank _).trans (hname.strip (getLast?_space_quotedBody body))
  have hread : readDeclaration rules ("alias".toList ++ ' ' ::
      (name.toList ++ ' ' :: quotedBody body)) = .ok ⟨.aliases, name, chain⟩ := by
    unfold readDeclaration
    rw [Text.firstWord_append isWord_alias.noBlank isWord_alias.ne_nil rfl, hrest]
    show readAfterKeyword .aliases rules false (name.toList ++ ' ' :: quotedBody body) = _
    unfold readAfterKeyword
    rw [hname.firstWord]
    simp only [String.ofList_toList]
    rw [if_neg (by simpa using hname.ne_nil), hcheck, readChain_quotedBody false hbody hne]
    rfl
  unfold lineOf
  have hlast : (' ' :: (name.toList ++ ' ' :: quotedBody body)).getLast? = some '"' := by
    rw [List.getLast?_cons, List.getLast?_append, getLast?_space_quotedBody]
    rfl
  rw [isWord_alias.strip hlast, isWord_alias.readTrimmed hread]

end Keybinds.BindFile
