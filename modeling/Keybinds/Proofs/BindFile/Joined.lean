import Keybinds.Proofs.BindFile.Account
import Keybinds.Proofs.BindFile.Printing

/-!
# Texts put behind each other

What a text declares does not depend on where it stands: of a text with another one behind it, on a
line of its own, the declarations are those of both in turn (`declarationsIn_append_newline`). Only
byte order marks count at the start of a text and nowhere else. What is read from a text is what its
declarations enter in turn (`declared_read`), and the last one of a name decides
(`lastOf_append`).
-/

namespace Keybinds.BindFile

open Text (AllBlank dropCarriageReturn)

variable {rules : NameRules}

/-! ## Declarations -/

theorem readLine_dropCarriageReturn (number : Nat) (raw : List Char) :
    readLine rules number (dropCarriageReturn raw) = readLine rules number raw := by
  by_cases hnumber : number = 1
  · unfold dropCarriageReturn
    split_ifs with h
    · obtain ⟨line, rfl⟩ := List.getLast?_eq_some_iff.1 h
      have hblank : AllBlank ['\r'] := fun c hc => List.mem_singleton.1 hc ▸ rfl
      have hmarks : (line ++ ['\r']).dropWhile (· == '\uFEFF') =
          line.dropWhile (· == '\uFEFF') ++ ['\r'] := by
        rw [List.dropWhile_append]
        split_ifs with hempty
        · rw [List.isEmpty_iff.1 hempty]
          rfl
        · rfl
      unfold readLine trimLine
      rw [if_pos hnumber, if_pos hnumber, List.dropLast_concat, hmarks,
        Text.strip_append_right hblank]
    · rfl
  · rw [readLine_eq_lineOf fun h => absurd h hnumber, readLine_eq_lineOf fun h => absurd h hnumber,
      lineOf_dropCarriageReturn]

theorem readLine_nil (number : Nat) : readLine rules number [] = .blank := by
  unfold readLine trimLine
  split_ifs <;> rfl

theorem readLines_append (number : Nat) (raws raws' : List (List Char)) :
    readLines rules number (raws ++ raws') =
      readLines rules number raws ++ readLines rules (number + raws.length) raws' := by
  rw [readLines_eq_map_zipIdx, List.zipIdx_append, List.map_append, readLines_eq_map_zipIdx,
    readLines_eq_map_zipIdx]

/-- The lines of a text that starts with no byte order mark hold the same whatever their numbers. -/
theorem readLines_lines {cs : List Char} (h : cs.head? ≠ some '\uFEFF') {number : Nat}
    (hnumber : 0 < number) :
    readLines rules number (Text.lines cs) = (Text.lines cs).map (lineOf rules) := by
  refine readLines_eq_map hnumber fun _ raw hraw hmark => h ?_
  obtain ⟨rest, hrest⟩ := Text.prefix_of_mem_head?_lines hraw
  obtain ⟨raw', rfl⟩ := List.head?_eq_some_iff.1 hmark
  rw [← hrest]
  rfl

/-- The declarations of two texts, the second of which starts on a line of its own, are those of the
first and then those of the second. -/
theorem declarationsIn_append_newline (a : String) {b : String}
    (hb : b.toList.head? ≠ some '\uFEFF') :
    declarationsIn rules (a ++ "\n" ++ b) = declarationsIn rules a ++ declarationsIn rules b := by
  obtain ⟨ls, rest, hlines, hjoined⟩ := Text.lines_append_newline a.toList b.toList
  have htext : (a ++ "\n" ++ b).toList = a.toList ++ '\n' :: b.toList := by
    rw [String.toList_append, String.toList_append, List.append_assoc]
    rfl
  -- where the texts meet, a line is ended or an empty one is put in
  have hmeet : ∀ number, (readLines rules number ([rest].filter (!·.isEmpty))).filterMap
      Line.declaration? =
        (readLine rules number (dropCarriageReturn rest)).declaration?.toList := by
    intro number
    rw [readLine_dropCarriageReturn]
    cases rest with
    | nil =>
      rw [readLine_nil]
      rfl
    | cons c rest =>
      show [readLine rules number (c :: rest)].filterMap Line.declaration? = _
      rw [filterMap_cons_toList, List.filterMap_nil, List.append_nil]
  rw [declarationsIn_eq, declarationsIn_eq, declarationsIn_eq, htext, hjoined, hlines,
    readLines_append, readLines_append, List.filterMap_append, List.filterMap_append, hmeet,
    List.append_assoc]
  congr 1
  show (readLine _ _ _ :: readLines rules _ _).filterMap Line.declaration? = _
  rw [filterMap_cons_toList, readLines_lines hb (Nat.succ_pos _), readLines_lines hb Nat.one_pos]

/-! ## Entries -/

/-- The names of a realm with the chains that are stored for them, in the order of the
declarations. -/
def entered (options : Options) (realm : Realm) (ds : List Declaration) :
    List (String × List String) :=
  (inRealm realm ds).map fun d => (d.name, (stored options d).1)

theorem entered_append (options : Options) (realm : Realm) (ds es : List Declaration) :
    entered options realm (ds ++ es) = entered options realm ds ++ entered options realm es := by
  unfold entered inRealm
  rw [List.filter_append, List.map_append]

theorem declared_enterAll (options : Options) (realm : Realm) (ds : List Declaration) :
    (enterAll options {} ds).declared realm = Dict.ofList (entered options realm ds) := by
  induction ds using List.reverseRecOn with
  | nil => cases realm <;> rfl
  | append_singleton ds d ih =>
    unfold entered Dict.ofList at ih ⊢
    rw [enterAll_concat, declared_enterDeclaration, inRealm_concat]
    split_ifs with hrealm
    · rw [List.map_append, List.foldl_append, ← ih]
      rfl
    · exact ih

/-- What is read from a text is what its declarations enter in turn. -/
theorem declared_read (options : Options) (text : String) (realm : Realm) :
    (read options text).declared realm =
      Dict.ofList (entered options realm (declarationsIn options.rules text)) := by
  rw [declarationsIn_eq, ← declared_enterAll]
  unfold read
  rw [enterLines_eq]
  cases realm <;> rfl

/-- The last declaration of a name stands in the second of two lists, if the name is declared
there. -/
theorem lastOf_append (realm : Realm) (name : String) (ds es : List Declaration) :
    lastOf realm name (ds ++ es) = (lastOf realm name es).or (lastOf realm name ds) := by
  unfold lastOf
  rw [List.reverse_append, List.find?_append]

/-! ## Flags -/

/-- The flag of a name behind declarations: as the last one of the name was written, or as it was
before. -/
def flagBehind (options : Options) (realm : Realm) (ds : List Declaration) (name : String)
    (on : Bool) : Bool :=
  ((lastOf realm name ds).map fun d => (stored options d).2).getD on

theorem flagBehind_append (options : Options) (realm : Realm) (ds es : List Declaration)
    (name : String) (on : Bool) :
    flagBehind options realm (ds ++ es) name on =
      flagBehind options realm es name (flagBehind options realm ds name on) := by
  unfold flagBehind
  rw [lastOf_append]
  cases lastOf realm name es <;> rfl

/-- What a file lists as stabilized are the flags behind its declarations. -/
theorem Tracks.ite_contains {options : Options} {file : BindFile} {ds : List Declaration}
    (h : Tracks options file ds) (realm : Realm) (name : String) (on : Bool) :
    (if name ∈ (file.declared realm).keys then (file.stabilized realm).contains name else on) =
      flagBehind options realm ds name on := by
  have hchain := h.chain realm name
  have hlisted := h.listed realm name
  unfold flagBehind
  cases hlast : lastOf realm name ds with
  | none =>
    rw [hlast] at hchain
    rw [if_neg (Dict.get?_eq_none_iff.1 hchain)]
    rfl
  | some d =>
    rw [hlast] at hchain hlisted
    rw [if_pos (Dict.mem_keys_iff.2 ⟨_, Dict.get?_eq_some_iff.1 hchain⟩), Bool.eq_iff_iff,
      List.contains_iff_mem, hlisted]
    simp only [Option.some.injEq, exists_eq_left']
    rfl

theorem ite_contains_read (options : Options) (text : String) (realm : Realm) (name : String)
    (on : Bool) :
    (if name ∈ ((read options text).declared realm).keys then
      ((read options text).stabilized realm).contains name else on) =
        flagBehind options realm (declarationsIn options.rules text) name on := by
  rw [declarationsIn_eq]
  exact (tracks_read options text).ite_contains realm name on

end Keybinds.BindFile
