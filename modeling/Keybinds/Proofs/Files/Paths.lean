import Keybinds.Files.Tree
import Keybinds.Proofs.List

/-!
# Paths of the names in a directory

A name without slashes is the last one of the path that joins it to a directory, whatever the
directory is called (`FileTree.exists_names?_join`). A name with an extension is cut into its stem
and the extension, also when the stem holds points (`Path.splitName_append`), and there the
extension is replaced (`Path.withExtension_join`).
-/

namespace Keybinds

namespace Path

/-- A name that leads to something in a directory. -/
structure IsName (name : String) : Prop where
  noSlash : '/' ∉ name.toList
  ne_empty : name ≠ ""
  ne_point : name ≠ "."
  ne_points : name ≠ ".."

/-! ## Joined paths -/

/-- A text in front of a name, which is empty or ends in a slash. -/
def IsStart (start : List Char) : Prop :=
  start = [] ∨ ∃ init, start = init ++ ['/']

theorem isStart_join (directory : String) : IsStart (join directory "").toList := by
  unfold join
  split_ifs with h
  · rw [Bool.or_eq_true, String.isEmpty_iff, decide_eq_true_iff] at h
    rw [String.append_empty]
    rcases h with rfl | h
    · exact Or.inl rfl
    · exact Or.inr ⟨_, (List.dropLast_append_getLast? '/' h).symm⟩
  · exact Or.inr ⟨directory.toList, by simp⟩

theorem toList_join (directory name : String) :
    (join directory name).toList = (join directory "").toList ++ name.toList := by
  unfold join
  split_ifs <;> simp

theorem splitOnP_of_notMem {cs : List Char} (h : '/' ∉ cs) : cs.splitOnP (· == '/') = [cs] :=
  List.splitOnP_eq_singleton fun _ hc => beq_eq_false_iff_ne.2 fun heq => h (heq ▸ hc)

/-- A name behind a start is the last one, and the names before it do not depend on it. -/
theorem exists_splitOnP_append {start : List Char} (h : IsStart start) :
    ∃ base, ∀ name, '/' ∉ name → (start ++ name).splitOnP (· == '/') = base ++ [name] := by
  rcases h with rfl | ⟨init, rfl⟩
  · exact ⟨[], fun name hname => splitOnP_of_notMem hname⟩
  · refine ⟨init.splitOnP (· == '/'), fun name hname => ?_⟩
    rw [List.append_assoc, List.singleton_append, List.splitOnP_append_cons _ _ (by rfl),
      splitOnP_of_notMem hname]

/-! ## Extensions -/

namespace IsName

variable {name : String} (h : IsName name)

include h

theorem toList_ne : name.toList ≠ [] ∧ name.toList ≠ ['.'] ∧ name.toList ≠ ['.', '.'] :=
  ⟨fun heq => h.ne_empty (String.toList_inj.1 heq), fun heq => h.ne_point (String.toList_inj.1 heq),
    fun heq => h.ne_points (String.toList_inj.1 heq)⟩

theorem not_isVoid : isVoid name.toList = false := by
  unfold isVoid
  rw [Bool.or_eq_false_iff, beq_eq_false_iff_ne, beq_eq_false_iff_ne]
  exact ⟨h.toList_ne.1, h.toList_ne.2.1⟩

end IsName

theorem trimmed_concat {name : List Char} (h : isVoid name = false) (base : List (List Char)) :
    trimmed (base ++ [name]) = base ++ [name] := by
  cases base with
  | nil => rfl
  | cons first rest =>
    show first :: ((rest ++ [name]).reverse.dropWhile isVoid).reverse = _
    rw [List.reverse_append, List.reverse_singleton, List.singleton_append,
      List.dropWhile_cons_of_neg (by simp [h])]
    simp

theorem ofNames_concat {name : List Char} (h : name ≠ []) (base : List (List Char)) :
    ofNames (base ++ [name]) = String.ofList (['/'].intercalate (base ++ [name])) := by
  unfold ofNames
  split
  · rename_i heq
    exact absurd (List.append_inj' (heq.trans (List.nil_append [[]]).symm) rfl).2 (by simpa using h)
  · rfl

/-- No void name is at the end of a joined path. Its names are some that depend on the directory
alone, and then the name; and they spell the path. -/
theorem exists_trimmed_join (directory : String) :
    ∃ base, ∀ name, IsName name →
      trimmed (names (join directory name)) = base ++ [name.toList] ∧
        ofNames (base ++ [name.toList]) = join directory name := by
  obtain ⟨base, hbase⟩ := exists_splitOnP_append (isStart_join directory)
  refine ⟨base, fun name h => ?_⟩
  have hnames : names (join directory name) = base ++ [name.toList] := by
    rw [names, toList_join, hbase _ h.noSlash]
  refine ⟨by rw [hnames, trimmed_concat h.not_isVoid], ?_⟩
  rw [ofNames_concat h.toList_ne.1, ← hnames]
  show String.ofList (['/'].intercalate ((join directory name).toList.splitOn '/')) = _
  rw [List.intercalate_splitOn, String.ofList_toList]

theorem fileName?_join {name : String} (h : IsName name) (directory : String) :
    fileName? (join directory name) = some name.toList := by
  obtain ⟨base, hbase⟩ := exists_trimmed_join directory
  obtain ⟨hempty, hpoint, hpoints⟩ := h.toList_ne
  unfold fileName?
  rw [(hbase name h).1, List.getLast?_concat]
  split
  · rename_i heq
    cases heq
  · rename_i heq
    exact absurd (Option.some.inj heq) hempty
  · rename_i heq
    exact absurd (Option.some.inj heq) hpoint
  · rename_i heq
    exact absurd (Option.some.inj heq) hpoints
  · rename_i heq
    exact heq.symm ▸ rfl

theorem fileName?_of_isName {name : String} (h : IsName name) :
    fileName? name = some name.toList := by
  have hjoin : join "" name = name := by simp [join]
  rw [← hjoin, fileName?_join h, hjoin]

/-- A name is cut at its last point. -/
theorem splitName_append {stem ending : List Char} (hstem : stem ≠ []) (hending : '.' ∉ ending) :
    splitName (stem ++ '.' :: ending) = (stem, some ending) := by
  have hbehind : ((stem ++ '.' :: ending).reverse.takeWhile (· != '.')).reverse = ending := by
    have hall : ∀ c ∈ ending.reverse, (c != '.') = true := by
      intro c hc
      rw [List.mem_reverse] at hc
      exact bne_iff_ne.2 fun heq => hending (heq ▸ hc)
    rw [List.reverse_append, List.reverse_cons, List.append_assoc,
      List.takeWhile_append_of_pos hall]
    simp
  have hstem' : (stem ++ '.' :: ending).take ((stem ++ '.' :: ending).length - ending.length - 1) =
      stem := by
    have hlen : (stem ++ '.' :: ending).length - ending.length - 1 = stem.length := by
      rw [List.length_append, List.length_cons]
      omega
    rw [hlen, List.take_left]
  unfold splitName
  rw [hbehind]
  dsimp only
  rw [hstem', if_neg (by simpa using hstem)]

variable {stem ending : String}

theorem isName_append (hslash : '/' ∉ (stem ++ "." ++ ending).toList) (hstem : stem ≠ "")
    (hending : ending ≠ "") : IsName (stem ++ "." ++ ending) := by
  have hlength : 3 ≤ (stem ++ "." ++ ending).length := by
    have hpos : ∀ {text : String}, text ≠ "" → 1 ≤ text.length := fun h =>
      Nat.one_le_iff_ne_zero.2 fun hzero => h (String.length_eq_zero_iff.1 hzero)
    have hpoint : ".".length = 1 := rfl
    have := hpos hstem
    have := hpos hending
    rw [String.length_append, String.length_append]
    omega
  have hne : ∀ {text : String}, text.length ≤ 2 → stem ++ "." ++ ending ≠ text := by
    rintro text htext rfl
    omega
  exact ⟨hslash, hne (by decide), hne (by decide), hne (by decide)⟩

theorem splitName_toList (hstem : stem ≠ "") (hending : '.' ∉ ending.toList) :
    splitName (stem ++ "." ++ ending).toList = (stem.toList, some ending.toList) := by
  have htext : (stem ++ "." ++ ending).toList = stem.toList ++ '.' :: ending.toList := by simp
  rw [htext, splitName_append (by simpa using hstem) hending]

theorem hasExtension_iff (hname : IsName (stem ++ "." ++ ending)) (hstem : stem ≠ "")
    (hending : '.' ∉ ending.toList) (extension : String) :
    hasExtension extension (stem ++ "." ++ ending) = true ↔ ending = extension := by
  unfold hasExtension
  rw [fileName?_of_isName hname, Option.any_some, splitName_toList hstem hending, beq_iff_eq,
    Option.some.injEq, String.toList_inj]

theorem stem?_append (hname : IsName (stem ++ "." ++ ending)) (hstem : stem ≠ "")
    (hending : '.' ∉ ending.toList) : stem? (stem ++ "." ++ ending) = some stem := by
  unfold stem?
  rw [fileName?_of_isName hname, Option.map_some, splitName_toList hstem hending,
    String.ofList_toList]

/-- The extension of a name in a directory is replaced. -/
theorem withExtension_join {extension : String} (hname : IsName (stem ++ "." ++ ending))
    (hstem : stem ≠ "") (hending : '.' ∉ ending.toList)
    (hreplaced : IsName (stem ++ "." ++ extension)) (hextension : extension ≠ "")
    (directory : String) :
    withExtension extension (join directory (stem ++ "." ++ ending)) =
      join directory (stem ++ "." ++ extension) := by
  obtain ⟨base, hbase⟩ := exists_trimmed_join directory
  unfold withExtension
  rw [fileName?_join hname, (hbase _ hname).1, ← (hbase _ hreplaced).2]
  dsimp only
  rw [splitName_toList hstem hending, List.dropLast_concat]
  simp [hextension]

theorem IsStart.of_append {cs rest : List Char} (h : IsStart (cs ++ rest)) : IsStart rest := by
  rcases List.eq_nil_or_concat rest with rfl | ⟨init, last, rfl⟩
  · exact Or.inl rfl
  · rcases h with h | ⟨start, h⟩
    · simp at h
    · rw [List.concat_eq_append, ← List.append_assoc] at h
      exact Or.inr ⟨init, by rw [List.concat_eq_append, (List.append_inj' h rfl).2]⟩

/-- What ends in a slash stands in front of a name only if it stands before it. -/
theorem prefix_append_iff {cs start name : List Char} (hname : '/' ∉ name) :
    cs ++ ['/'] <+: start ++ name ↔ cs ++ ['/'] <+: start := by
  refine ⟨fun h => ?_, fun h => h.trans (List.prefix_append start name)⟩
  rcases List.prefix_or_prefix_of_prefix h (List.prefix_append start name) with hpre | ⟨rest, hrest⟩
  · exact hpre
  · rw [← hrest, List.prefix_append_right_inj] at h
    rcases List.eq_nil_or_concat rest with rfl | ⟨init, last, rfl⟩
    · rw [List.append_nil] at hrest
      exact hrest ▸ List.prefix_rfl
    · rw [List.concat_eq_append, ← List.append_assoc] at hrest
      have hlast : [last] = ['/'] := (List.append_inj' hrest rfl).2
      refine absurd (h.subset ?_) hname
      rw [List.concat_eq_append, hlast]
      simp

end Path

namespace FileTree

open Keybinds.Path (join)

theorem names?_eq (t : FileTree) (path : String) :
    t.names? path =
      if t.root.toList ++ ['/'] <+: path.toList then
        some (((path.toList.drop (t.root.toList ++ ['/']).length).splitOnP (· == '/')).map
          String.ofList)
      else if path.toList.head? = some '/' then none
      else some ((path.toList.splitOnP (· == '/')).map String.ofList) := by
  unfold names? Path.names
  simp only [String.toList_append, String.toList_ofList, List.isPrefixOf_iff_prefix]
  rfl

/-- The names that lead to a name in a directory are those that lead to the directory, and then the
name. -/
theorem exists_names?_join (t : FileTree) (directory : String) :
    ∃ base : Option (List String), ∀ name, '/' ∉ name.toList →
      t.names? (join directory name) = base.map (· ++ [name]) := by
  have hstart := Path.isStart_join directory
  have hpath := Path.toList_join directory
  generalize (join directory "").toList = start at hstart hpath
  by_cases hinside : t.root.toList ++ ['/'] <+: start
  · obtain ⟨rest, rfl⟩ := hinside
    obtain ⟨base, hbase⟩ := Path.exists_splitOnP_append hstart.of_append
    refine ⟨some (base.map String.ofList), fun name hname => ?_⟩
    rw [names?_eq, hpath, if_pos ((Path.prefix_append_iff hname).2 (List.prefix_append _ _)),
      List.append_assoc, List.drop_left, hbase _ hname]
    simp
  · obtain ⟨base, hbase⟩ := Path.exists_splitOnP_append hstart
    refine ⟨if start.head? = some '/' then none else some (base.map String.ofList),
      fun name hname => ?_⟩
    have hhead : (start ++ name.toList).head? = some '/' ↔ start.head? = some '/' := by
      cases start with
      | nil =>
        simp only [List.nil_append, List.head?_nil, reduceCtorEq, iff_false]
        exact fun h => hname (List.mem_of_head? h)
      | cons c start => rfl
    rw [names?_eq, hpath, if_neg fun h => hinside ((Path.prefix_append_iff hname).1 h),
      hbase _ hname]
    simp only [hhead]
    split_ifs <;> simp

end FileTree

end Keybinds
