import Keybinds.Text.Basic
import Mathlib.Tactic.SplitIfs
import Mathlib.Data.List.Basic

/-!
# Lines of a text

`unlines` puts a line feed behind each line. A text is cut into lines where they were put together
(`lines_unlines`), up to a carriage return at the end of a line, and every text is put together from
lines in this way, up to what stands behind the last line feed (`exists_unlines`).
-/

namespace Keybinds.Text

/-- A text without line feeds. -/
def OneLine (cs : List Char) : Prop := '\n' ∉ cs

/-- The lines with a line feed behind each. -/
def unlines (ls : List (List Char)) : List Char := ls.flatMap (· ++ ['\n'])

theorem unlines_cons (l : List Char) (ls : List (List Char)) :
    unlines (l :: ls) = l ++ '\n' :: unlines ls := by
  show (l ++ ['\n']) ++ unlines ls = _
  rw [List.append_assoc]
  rfl

theorem unlines_append (ls ls' : List (List Char)) :
    unlines (ls ++ ls') = unlines ls ++ unlines ls' :=
  List.flatMap_append

theorem infix_unlines {l : List Char} {ls : List (List Char)} (h : l ∈ ls) : l <:+: unlines ls := by
  obtain ⟨before, behind, rfl⟩ := List.append_of_mem h
  rw [unlines_append, unlines_cons]
  exact ⟨unlines before, '\n' :: unlines behind, by simp⟩

theorem splitOnP_unlines_append {ls : List (List Char)} (hls : ∀ l ∈ ls, OneLine l)
    {rest : List Char} (hrest : OneLine rest) :
    (unlines ls ++ rest).splitOnP (· == '\n') = ls ++ [rest] := by
  have hbeq : ∀ {l : List Char}, OneLine l → ∀ c ∈ l, (c == '\n') = false := by
    intro l hl c hc
    rw [beq_eq_false_iff_ne]
    exact fun h => hl (h ▸ hc)
  induction ls with
  | nil => exact List.splitOnP_eq_singleton (hbeq hrest)
  | cons l ls ih =>
    rw [List.forall_mem_cons] at hls
    rw [unlines_cons, List.append_assoc, List.cons_append,
      List.splitOnP_append_cons_of_forall_mem (hbeq hls.1) '\n' rfl, ih hls.2]
    rfl

/-- Every text is put together from lines and what stands behind the last of them. -/
theorem exists_unlines (cs : List Char) :
    ∃ ls rest, cs = unlines ls ++ rest ∧ (∀ l ∈ ls, OneLine l) ∧ OneLine rest := by
  induction cs with
  | nil => exact ⟨[], [], rfl, by simp, List.not_mem_nil⟩
  | cons c cs ih =>
    obtain ⟨ls, rest, rfl, hls, hrest⟩ := ih
    by_cases hc : c = '\n'
    · refine ⟨[] :: ls, rest, by rw [unlines_cons, hc]; rfl, ?_, hrest⟩
      exact List.forall_mem_cons.2 ⟨List.not_mem_nil, hls⟩
    · have hcons : ∀ {l : List Char}, OneLine l → OneLine (c :: l) := by
        intro l hl h
        exact (List.mem_cons.1 h).elim (fun h => hc h.symm) hl
      cases ls with
      | nil => exact ⟨[], c :: rest, rfl, hls, hcons hrest⟩
      | cons l ls =>
        rw [List.forall_mem_cons] at hls
        refine ⟨(c :: l) :: ls, rest, by rw [unlines_cons, unlines_cons]; rfl, ?_, hrest⟩
        exact List.forall_mem_cons.2 ⟨hcons hls.1, hls.2⟩

theorem lines_unlines_append {ls : List (List Char)} (hls : ∀ l ∈ ls, OneLine l)
    {rest : List Char} (hrest : OneLine rest) :
    lines (unlines ls ++ rest) = ls.map dropCarriageReturn ++ [rest].filter (!·.isEmpty) := by
  unfold lines
  rw [splitOnP_unlines_append hls hrest]
  simp

/-- A text is cut into lines where they were put together. -/
theorem lines_unlines {ls : List (List Char)} (hls : ∀ l ∈ ls, OneLine l) :
    lines (unlines ls) = ls.map dropCarriageReturn := by
  have hnil : OneLine [] := List.not_mem_nil
  have hlines := lines_unlines_append hls hnil
  rwa [List.append_nil, List.filter_cons_of_neg (by simp), List.filter_nil, List.append_nil]
    at hlines

/-- In front of a line feed, what stands behind the last line feed is a line of its own, also if it
is empty, and a carriage return at its end belongs to the line feed. -/
theorem lines_append_newline (u v : List Char) :
    ∃ ls rest, lines u = ls ++ [rest].filter (!·.isEmpty) ∧
      lines (u ++ '\n' :: v) = ls ++ dropCarriageReturn rest :: lines v := by
  obtain ⟨ls, rest, rfl, hls, hrest⟩ := exists_unlines u
  obtain ⟨ls', rest', rfl, hls', hrest'⟩ := exists_unlines v
  have hjoined : unlines ls ++ rest ++ '\n' :: (unlines ls' ++ rest') =
      unlines (ls ++ rest :: ls') ++ rest' := by
    rw [unlines_append, unlines_cons, List.append_assoc, List.append_assoc, List.append_assoc]
    rfl
  have hall : ∀ l ∈ ls ++ rest :: ls', OneLine l :=
    List.forall_mem_append.2 ⟨hls, List.forall_mem_cons.2 ⟨hrest, hls'⟩⟩
  refine ⟨ls.map dropCarriageReturn, rest, lines_unlines_append hls hrest, ?_⟩
  rw [hjoined, lines_unlines_append hall hrest', lines_unlines_append hls' hrest', List.map_append,
    List.map_cons, List.append_assoc]
  rfl

/-! ## Single lines -/

theorem prefix_dropCarriageReturn (cs : List Char) : dropCarriageReturn cs <+: cs := by
  unfold dropCarriageReturn
  split_ifs
  · exact List.dropLast_prefix cs
  · exact List.prefix_refl cs

/-- A line stands in the text and holds no line feed. -/
theorem infix_of_mem_lines {cs l : List Char} (h : l ∈ lines cs) : l <:+: cs ∧ OneLine l := by
  obtain ⟨ls, rest, rfl, hls, hrest⟩ := exists_unlines cs
  rw [lines_unlines_append hls hrest, List.mem_append] at h
  rcases h with h | h
  · obtain ⟨l, hl, rfl⟩ := List.mem_map.1 h
    have hfront := prefix_dropCarriageReturn l
    exact ⟨(hfront.isInfix.trans (infix_unlines hl)).trans List.infix_append_left,
      fun h => hls l hl (hfront.subset h)⟩
  · obtain rfl := List.mem_singleton.1 (List.mem_filter.1 h).1
    exact ⟨List.infix_append_right, hrest⟩

/-- The first line starts the text. -/
theorem prefix_of_mem_head?_lines {cs l : List Char} (h : l ∈ (lines cs).head?) : l <+: cs := by
  obtain ⟨ls, rest, rfl, hls, hrest⟩ := exists_unlines cs
  rw [lines_unlines_append hls hrest] at h
  cases ls with
  | nil =>
    have hmem := List.mem_of_mem_head? h
    obtain rfl := List.mem_singleton.1 (List.mem_filter.1 hmem).1
    exact List.prefix_refl l
  | cons l' ls =>
    obtain rfl := Option.some.inj h
    rw [unlines_cons, List.append_assoc]
    exact (prefix_dropCarriageReturn l').trans (List.prefix_append _ _)

theorem oneLine_append {u v : List Char} (hu : OneLine u) (hv : OneLine v) : OneLine (u ++ v) :=
  fun h => (List.mem_append.1 h).elim hu hv

theorem oneLine_oneLine (s : String) : OneLine (oneLine s).toList := by
  unfold oneLine OneLine
  rw [String.toList_map, List.mem_map]
  rintro ⟨c, -, hc⟩
  split_ifs at hc with h
  · exact absurd hc (by decide)
  · exact h (Or.inr hc)

end Keybinds.Text
