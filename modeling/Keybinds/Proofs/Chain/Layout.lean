import Keybinds.Proofs.Chain.Commands

/-!
# Layout of a text

Scanning and trimming look at blanks, quotes, dollar signs and backslashes only. The layout of a
text keeps these and writes any other character as the same letter; a text and its layout are cut at
the same places (`split_layoutOf`), and one is canonical when the other is (`isCanonical_layoutOf`).
Hence texts of the same layout are cut alike.
-/

namespace Keybinds.Chain

open Text (AllBlank Trimmed isBlank isAsciiBlank strip stripStart stripEnd)
open Cursor

/-- Whether scanning or trimming looks at a character. -/
def Structural (c : Char) : Prop := isBlank c = true ∨ c ∈ ['"', '\'', '$', '\\']

instance (c : Char) : Decidable (Structural c) := inferInstanceAs (Decidable (_ ∨ _))

/-- The character, or the letter that stands for all that are not structural. -/
def layout (c : Char) : Char := if Structural c then c else 'x'

theorem IsQuote.structural {c : Char} (h : IsQuote c) : Structural c := by
  rcases h with rfl | rfl <;> decide

theorem layout_of_structural {c : Char} (h : Structural c) : layout c = c := if_pos h

theorem layout_of_not_structural {c : Char} (h : ¬ Structural c) : layout c = 'x' := if_neg h

theorem layout_eq_iff {c d : Char} (hd : Structural d) : layout c = d ↔ c = d := by
  by_cases hc : Structural c
  · rw [layout_of_structural hc]
  · rw [layout_of_not_structural hc]
    constructor
    · rintro rfl
      exact absurd hd (by decide)
    · rintro rfl
      exact absurd hd hc

theorem isBlank_layout (c : Char) : isBlank (layout c) = isBlank c := by
  by_cases hc : Structural c
  · rw [layout_of_structural hc]
  · have hblank : isBlank c = false := by
      rw [← Bool.not_eq_true]
      exact fun h => hc (Or.inl h)
    rw [layout_of_not_structural hc, hblank]
    rfl

theorem isAsciiBlank_layout (c : Char) : isAsciiBlank (layout c) = isAsciiBlank c := by
  by_cases hc : Structural c
  · rw [layout_of_structural hc]
  · have hblank : isAsciiBlank c = false := by
      rw [← Bool.not_eq_true]
      exact fun h => hc (Or.inl (Text.isBlank_of_isAsciiBlank h))
    rw [layout_of_not_structural hc, hblank]
    rfl

/-! ## Scanning a layout -/

theorem head?_map_layout_iff {d : Char} (hd : Structural d) (cs : List Char) :
    (cs.map layout).head? = some d ↔ cs.head? = some d := by
  cases cs with
  | nil => exact Iff.rfl
  | cons c cs =>
    rw [List.map_cons, List.head?_cons, List.head?_cons, Option.some.injEq, Option.some.injEq,
      layout_eq_iff hd]

theorem pair_prefix_map_layout_iff {d : Char} (hd : Structural d) (cs : List Char) :
    [d, d] <+: cs.map layout ↔ [d, d] <+: cs := by
  match cs with
  | [] => exact Iff.rfl
  | [c] => simp [List.prefix_cons_iff]
  | c :: e :: cs => simp [List.cons_prefix_cons, eq_comm (a := d), layout_eq_iff hd]

theorem pair_infix_map_layout_iff {d : Char} (hd : Structural d) (cs : List Char) :
    [d, d] <:+: cs.map layout ↔ [d, d] <:+: cs := by
  induction cs with
  | nil => exact Iff.rfl
  | cons c cs ih =>
    rw [List.map_cons, List.infix_cons_iff, List.infix_cons_iff, ih, ← List.map_cons,
      pair_prefix_map_layout_iff hd]

theorem wordFollows_map_layout (cs : List Char) : wordFollows (cs.map layout) = wordFollows cs := by
  cases cs with
  | nil => rfl
  | cons c cs =>
    have heq : ∀ d, Structural d → (layout c != d) = (c != d) := by
      intro d hd
      rw [bne_eq, bne_eq, Bool.beq_eq_decide_eq, Bool.beq_eq_decide_eq]
      simp only [layout_eq_iff hd]
    show (!isAsciiBlank (layout c) && layout c != '"' && layout c != '\'') = _
    rw [isAsciiBlank_layout, heq '"' (by decide), heq '\'' (by decide)]
    rfl

theorem afterPair_map_layout {c : Char} (hc : IsQuote c) (rest : List Char) :
    afterPair c (rest.map layout) = afterPair c rest := by
  refine afterPair_congr ?_
  rw [wordFollows_map_layout, pair_infix_map_layout_iff hc.structural]

theorem next_map_layout {s : Cursor} (hs : s.quoting.Regular) (c : Char) (rest : List Char) :
    s.next (layout c) (rest.map layout) = s.next c rest := by
  by_cases hc : Structural c
  · rw [layout_of_structural hc]
    refine next_congr hs (fun hq => head?_map_layout_iff hq.structural rest) fun _ hq _ => ?_
    rw [← List.map_tail, afterPair_map_layout hq]
  · have hback : c ≠ '\\' := fun h => hc (h ▸ by decide)
    have hx : ¬ IsQuote 'x' := by
      intro h
      rcases h with h | h <;> exact absurd h (by decide)
    rw [next_of_ne hs hback (fun h => hc h.structural), ← isAsciiBlank_layout c,
      layout_of_not_structural hc, next_of_ne hs (by decide) hx]

theorem atSeparator_map_layout_iff (s : Cursor) (cs : List Char) :
    s.AtSeparator (cs.map layout) ↔ s.AtSeparator cs := by
  unfold Cursor.AtSeparator
  rw [pair_prefix_map_layout_iff (by decide)]

theorem Advance.map_layout {f p : List Char} {s t : Cursor} (h : Advance f s p t)
    (hs : s.quoting.Regular) : Advance (f.map layout) s (p.map layout) t := by
  induction h with
  | nil s => exact .nil s
  | @cons s t c cs hc _ ih =>
    have ih := ih (regular_next hs _ _)
    rw [← next_map_layout hs, List.map_append] at ih
    rw [← atSeparator_map_layout_iff, List.map_cons, List.map_append] at hc
    exact .cons hc ih

theorem Cuts.map_layout {cs : List Char} {ps : List (List Char)} {unterminated : Bool}
    (h : Cuts cs ps unterminated) :
    Cuts (cs.map layout) (ps.map (List.map layout)) unterminated := by
  induction h with
  | last h => exact .last (h.map_layout trivial)
  | more h hheld hout _ ih =>
    have h := h.map_layout trivial
    rw [List.map_append]
    exact .more h hheld hout ih

/-! ## Trimming a layout -/

theorem stripStart_map_layout (cs : List Char) :
    stripStart (cs.map layout) = (stripStart cs).map layout := by
  unfold stripStart
  rw [List.dropWhile_map]
  congr 2
  funext c
  exact isBlank_layout c

theorem strip_map_layout (cs : List Char) : strip (cs.map layout) = (strip cs).map layout := by
  have hrev : ∀ us : List Char, stripEnd us = (stripStart us.reverse).reverse := fun _ => rfl
  unfold strip
  rw [hrev, hrev, stripStart_map_layout, ← List.map_reverse, stripStart_map_layout,
    List.map_reverse]

theorem commandsOf_map_layout (ps : List (List Char)) :
    commandsOf (ps.map (List.map layout)) = (commandsOf ps).map (List.map layout) := by
  induction ps with
  | nil => rfl
  | cons p ps ih =>
    rw [List.map_cons, commandsOf_cons, commandsOf_cons, ih, strip_map_layout]
    by_cases hp : strip p = [] <;> simp [hp]

/-! ## Texts -/

/-- The layout of a text. -/
def layoutOf (s : String) : String := String.ofList (s.toList.map layout)

@[simp] theorem toList_layoutOf (s : String) : (layoutOf s).toList = s.toList.map layout := by
  unfold layoutOf
  rw [String.toList_ofList]

theorem scan_layoutOf (body : String) :
    scan (layoutOf body) = { scan body with parts := (scan body).parts.map (List.map layout) } := by
  unfold scan
  rw [toList_layoutOf]
  exact scanFrom_of_cuts (cuts_scanFrom body.toList).map_layout

/-- A layout is cut as the text is. -/
theorem split_layoutOf (body : String) : split (layoutOf body) = (split body).map layoutOf := by
  refine split_eq_of_commandsOf ?_
  rw [scan_layoutOf, commandsOf_map_layout, ← map_toList_split, List.map_map, List.map_map]
  congr 1
  funext s
  exact (toList_layoutOf s).symm

theorem hasSeparator_layoutOf (s : String) : hasSeparator (layoutOf s) = hasSeparator s := by
  unfold hasSeparator Scan.separators
  rw [scan_layoutOf, List.length_map]

theorem trimmed_map_layout_iff (cs : List Char) : Trimmed (cs.map layout) ↔ Trimmed cs := by
  unfold Text.Trimmed
  simp [isBlank_layout]

/-- A layout is canonical when the text is. -/
theorem isCanonical_layoutOf (s : String) : isCanonical (layoutOf s) = isCanonical s := by
  rw [Bool.eq_iff_iff, isCanonical_iff, isCanonical_iff, ← hasSeparator_eq_false_iff,
    ← hasSeparator_eq_false_iff, hasSeparator_layoutOf, toList_layoutOf, trimmed_map_layout_iff]
  simp

end Keybinds.Chain
