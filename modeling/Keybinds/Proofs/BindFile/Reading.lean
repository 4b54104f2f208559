import Keybinds.BindFile.Basic
import Keybinds.Proofs.Dict
import Keybinds.Proofs.List
import Keybinds.Proofs.Text.Lines
import Keybinds.Proofs.Text.Strip
import Mathlib.Data.List.Induction

/-!
# Declarations in the order of a file

What a binding file holds depends on its declarations in order only: `read` enters them one after
another (`enterLines_eq`), and besides keeps the comments and the skipped lines. Where no name
is declared twice, the entries are the declarations themselves (`enterAll_of_distinct`).
-/

namespace Keybinds.BindFile

/-! ## Names -/

/-- Whether the rules accept a name for a realm. -/
def accepts (rules : NameRules) : Realm → String → Bool
  | .keys => rules.acceptsKey
  | .aliases => rules.acceptsAlias

theorem checkName_eq_ok_iff {rules : NameRules} {realm : Realm} {name : String} :
    checkName realm rules name = .ok () ↔ accepts rules realm name = true := by
  have hthrow : ∀ fault : LineFault, (throw fault : Except LineFault Unit) ≠ .ok () := by
    intro fault h
    cases h
  unfold checkName accepts NameRules.acceptsKey NameRules.acceptsAlias
  cases realm with
  | keys =>
    dsimp only
    cases rules.keyFault name with
    | none => exact iff_of_true rfl rfl
    | some fault => exact iff_of_false (hthrow _) Bool.false_ne_true
  | aliases =>
    dsimp only
    cases rules.aliasFault name with
    | none => exact iff_of_true rfl rfl
    | some fault => exact iff_of_false (hthrow _) Bool.false_ne_true

/-! ## Entering a declaration -/

/-- The names of a realm that are listed as stabilized. -/
def stabilized (file : BindFile) : Realm → List String
  | .keys => file.stabilizedKeys
  | .aliases => file.stabilizedAliases

variable (options : Options) (file : BindFile) (d : Declaration)

/-- The chain that is stored for a declaration, and whether it was written mirrored. -/
def stored : List String × Bool := collapse options.detectMirrors d.chain

/-- The chain as its flag wants it. -/
def writtenChain (stabilized : Bool) (chain : List String) : List String :=
  if stabilized then Chain.mirror chain else chain

/-- The chain that is stored for a declaration is written as it was declared. -/
theorem writtenChain_stored : writtenChain (stored options d).2 (stored options d).1 = d.chain := by
  unfold stored collapse
  split
  · rename_i half _ hhalf
    exact (Chain.half?_eq_some_iff.1 hhalf).2.symm
  · rfl

theorem mem_writtenChain {stabilized : Bool} {chain : List String} {command : String} :
    command ∈ writtenChain stabilized chain ↔ command ∈ chain := by
  cases stabilized with
  | false => exact Iff.rfl
  | true =>
    show command ∈ chain ++ chain.reverse ↔ command ∈ chain
    rw [List.mem_append, List.mem_reverse, or_self]

theorem declared_enterDeclaration (realm : Realm) :
    (file.enterDeclaration options d).declared realm =
      if realm = d.realm then (file.declared realm).insert d.name (stored options d).1
      else file.declared realm := by
  obtain ⟨r, name, chain⟩ := d
  cases r <;> cases realm <;> rfl

theorem stabilized_enterDeclaration (realm : Realm) :
    (file.enterDeclaration options d).stabilized realm =
      if realm = d.realm then mark (file.stabilized realm) d.name (stored options d).2
      else file.stabilized realm := by
  obtain ⟨r, name, chain⟩ := d
  cases r <;> cases realm <;> rfl

theorem duplicates_enterDeclaration :
    (file.enterDeclaration options d).duplicates =
      if (file.declared d.realm).contains d.name then file.duplicates ++ [d.name]
      else file.duplicates := by
  obtain ⟨r, name, chain⟩ := d
  cases r <;> rfl

theorem enterDeclaration_notes (comments : List Comment) (skipped : List SkippedLine) :
    enterDeclaration options { file with comments, skipped } d =
      { file.enterDeclaration options d with comments, skipped } := by
  obtain ⟨r, name, chain⟩ := d
  cases r <;> rfl

/-- Enters declarations in turn. -/
def enterAll (ds : List Declaration) : BindFile :=
  ds.foldl (enterDeclaration options) file

theorem enterAll_notes (comments : List Comment) (skipped : List SkippedLine)
    (ds : List Declaration) :
    enterAll options { file with comments, skipped } ds =
      { enterAll options file ds with comments, skipped } := by
  induction ds generalizing file with
  | nil => rfl
  | cons d ds ih =>
    unfold enterAll at ih ⊢
    rw [List.foldl_cons, enterDeclaration_notes, ih]
    rfl

theorem enterAll_concat (ds : List Declaration) :
    enterAll options file (ds ++ [d]) = (enterAll options file ds).enterDeclaration options d := by
  unfold enterAll
  rw [List.foldl_append]
  rfl

/-! ## Lines -/

/-- What the lines of a file hold, the first of which has the given number. -/
def readLines (rules : NameRules) (number : Nat) : List (List Char) → List Line
  | [] => []
  | raw :: rest => readLine rules number raw :: readLines rules (number + 1) rest

def Line.declaration? : Line → Option Declaration
  | .declaration d => some d
  | _ => none

def Line.fault? : Line → Option LineFault
  | .skipped fault => some fault
  | _ => none

/-- The comment on the line with the given number. -/
def Line.comment? (number : Nat) : Line → Option Comment
  | .comment text => some ⟨number, text⟩
  | _ => none

/-- What is kept of the line with the given number and text if it is skipped. -/
def Line.skipped? (number : Nat) (raw : List Char) : Line → Option SkippedLine
  | .skipped fault => some ⟨number, String.ofList raw, fault⟩
  | _ => none

/-- The comments on lines, each of which has a number. -/
def commentsOf (rules : NameRules) (lines : List (List Char × Nat)) : List Comment :=
  lines.filterMap fun l => (readLine rules l.2 l.1).comment? l.2

/-- What is kept of the lines that are skipped. -/
def skippedOf (rules : NameRules) (lines : List (List Char × Nat)) : List SkippedLine :=
  lines.filterMap fun l => (readLine rules l.2 l.1).skipped? l.2 l.1

theorem readLines_eq_map_zipIdx (rules : NameRules) (number : Nat) (raws : List (List Char)) :
    readLines rules number raws =
      (raws.zipIdx number).map fun l => readLine rules l.2 l.1 := by
  induction raws generalizing number with
  | nil => rfl
  | cons raw raws ih =>
    unfold readLines
    rw [ih, List.zipIdx_cons, List.map_cons]

theorem skippedOf_eq_nil {rules : NameRules} {number : Nat} {raws : List (List Char)}
    (h : ∀ line ∈ readLines rules number raws, line.fault? = none) :
    skippedOf rules (raws.zipIdx number) = [] := by
  rw [readLines_eq_map_zipIdx, List.forall_mem_map] at h
  refine List.filterMap_eq_nil_iff.2 fun l hl => ?_
  have hfault := h l hl
  cases hline : readLine rules l.2 l.1 with
  | skipped fault =>
    rw [hline] at hfault
    cases hfault
  | _ => rfl

/-- Entering a line enters its declaration, or keeps it as a note. -/
theorem enter_eq (number : Nat) (raw : List Char) (line : Line) :
    file.enter options number raw line =
      { enterAll options file line.declaration?.toList with
        comments := file.comments ++ (line.comment? number).toList
        skipped := file.skipped ++ (line.skipped? number raw).toList } := by
  cases line with
  | declaration d =>
    show file.enterDeclaration options d = { file.enterDeclaration options d with
      comments := file.comments ++ []
      skipped := file.skipped ++ [] }
    rw [List.append_nil, List.append_nil]
    exact enterDeclaration_notes options file d file.comments file.skipped
  | _ => simp [enter, enterAll, Line.declaration?, Line.comment?, Line.skipped?]

/-- Reading a file is entering its declarations, with notes on the other lines. -/
theorem enterLines_eq (number : Nat) (raws : List (List Char)) :
    enterLines options file number raws =
      { enterAll options file ((readLines options.rules number raws).filterMap Line.declaration?)
        with
        comments := file.comments ++ commentsOf options.rules (raws.zipIdx number)
        skipped := file.skipped ++ skippedOf options.rules (raws.zipIdx number) } := by
  induction raws generalizing file number with
  | nil =>
    show file = { file with comments := file.comments ++ [], skipped := file.skipped ++ [] }
    rw [List.append_nil, List.append_nil]
  | cons raw raws ih =>
    show enterLines options (file.enter options number raw _) (number + 1) raws = _
    unfold readLines commentsOf skippedOf
    rw [ih, enter_eq, enterAll_notes, List.zipIdx_cons, filterMap_cons_toList,
      filterMap_cons_toList, filterMap_cons_toList]
    unfold enterAll commentsOf skippedOf
    rw [List.foldl_append, List.append_assoc, List.append_assoc]

/-! ## Distinct names -/

/-- No name is declared twice in a realm. -/
def Distinct (ds : List Declaration) : Prop :=
  (ds.map fun d => (d.realm, d.name)).Nodup

/-- The declarations of a realm. -/
def inRealm (realm : Realm) (ds : List Declaration) : List Declaration :=
  ds.filter (·.realm = realm)

/-- The entries of a file that declares no name twice are its declarations. -/
structure Lists (file : BindFile) (ds : List Declaration) : Prop where
  entries : ∀ realm, (file.declared realm).entries =
    (inRealm realm ds).map fun d => (d.name, (stored options d).1)
  stabilized : ∀ realm, file.stabilized realm =
    ((inRealm realm ds).filter fun d => (stored options d).2).map Declaration.name
  duplicates : file.duplicates = []

theorem mark_of_notMem {names : List String} {name : String} (h : name ∉ names) (on : Bool) :
    mark names name on = if on then names ++ [name] else names := by
  cases on with
  | true => exact if_neg h
  | false =>
    show names.filter (· != name) = names
    rw [List.filter_eq_self]
    intro n hn
    rw [bne_iff_ne]
    rintro rfl
    exact h hn

theorem inRealm_concat (realm : Realm) (ds : List Declaration) (d : Declaration) :
    inRealm realm (ds ++ [d]) =
      if realm = d.realm then inRealm realm ds ++ [d] else inRealm realm ds := by
  unfold inRealm
  rw [List.filter_append]
  by_cases hr : realm = d.realm
  · rw [if_pos hr, List.filter_cons_of_pos (by simp [hr]), List.filter_nil]
  · rw [if_neg hr, List.filter_cons_of_neg (by simpa using fun e => hr e.symm), List.filter_nil,
      List.append_nil]

/-- Entering a declaration of a new name puts it last. -/
theorem Lists.enterDeclaration {options : Options} {file : BindFile} {ds : List Declaration}
    (h : Lists options file ds) {d : Declaration}
    (hnew : ∀ d' ∈ inRealm d.realm ds, d'.name ≠ d.name) :
    Lists options (file.enterDeclaration options d) (ds ++ [d]) := by
  have hdeclared : d.name ∉ (file.declared d.realm).keys := by
    unfold Dict.keys
    rw [h.entries, List.map_map, List.mem_map]
    rintro ⟨d', hd', heq⟩
    exact hnew d' hd' heq
  have hlisted : d.name ∉ file.stabilized d.realm := by
    rw [h.stabilized, List.mem_map]
    rintro ⟨d', hd', heq⟩
    exact hnew d' (List.mem_filter.1 hd').1 heq
  refine ⟨fun realm => ?_, fun realm => ?_, ?_⟩
  · rw [declared_enterDeclaration, inRealm_concat]
    split_ifs with hr
    · subst hr
      rw [Dict.entries_insert_of_notMem hdeclared, h.entries, List.map_append]
      rfl
    · exact h.entries realm
  · rw [stabilized_enterDeclaration, inRealm_concat]
    split_ifs with hr
    · subst hr
      rw [mark_of_notMem hlisted, h.stabilized, List.filter_append]
      cases hon : (stored options d).2 <;> simp [hon]
    · exact h.stabilized realm
  · rw [duplicates_enterDeclaration, Dict.contains_eq_false_iff.2 hdeclared]
    exact h.duplicates

theorem Lists.withNotes {options : Options} {file : BindFile} {ds : List Declaration}
    (h : Lists options file ds) (comments : List Comment) (skipped : List SkippedLine) :
    Lists options { file with comments, skipped } ds := by
  refine ⟨fun realm => ?_, fun realm => ?_, h.duplicates⟩
  · have hentries := h.entries realm
    cases realm <;> exact hentries
  · have hstabilized := h.stabilized realm
    cases realm <;> exact hstabilized

theorem enterAll_of_distinct {ds : List Declaration} (h : Distinct ds) :
    Lists options (enterAll options {} ds) ds := by
  induction ds using List.reverseRecOn with
  | nil => exact ⟨fun realm => by cases realm <;> rfl, fun realm => by cases realm <;> rfl, rfl⟩
  | append_singleton ds d ih =>
    unfold Distinct at h
    rw [List.map_append, List.nodup_append] at h
    obtain ⟨hds, -, hnew⟩ := h
    rw [enterAll_concat]
    refine (ih hds).enterDeclaration fun d' hd' heq => ?_
    obtain ⟨hmem, hrealm⟩ := List.mem_filter.1 hd'
    refine hnew _ (List.mem_map_of_mem hmem) _ List.mem_cons_self ?_
    rw [of_decide_eq_true hrealm, heq]

end Keybinds.BindFile
