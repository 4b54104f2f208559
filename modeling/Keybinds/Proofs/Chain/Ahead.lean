import Keybinds.Proofs.Chain.Cursor
import Keybinds.Proofs.Text.Strip

/-!
# What a cursor sees ahead

A cursor sees the text behind a part in two places: a quote at the end of the part may pair with
what follows, and a doubled quote looks for its like in the whole rest. `Advance.change_ahead` says
when neither matters: no region is open at the end of the part, and the new text behind it brings no
pair of quotes that the old one lacks.
-/

namespace Keybinds.Chain

open Text (AllBlank isBlank isAsciiBlank strip)
open Cursor

/-! ## Pairs of quotes -/

/-- The text does not start with a quote. -/
def NoQuoteAhead (cs : List Char) : Prop := ∀ c ∈ cs.head?, ¬ IsQuote c

/-- The text is empty or starts with an ASCII blank. -/
def BlankAhead (cs : List Char) : Prop := ∀ c ∈ cs.head?, isAsciiBlank c = true

theorem blankAhead_nil : BlankAhead [] := nofun

theorem blankAhead_space (cs : List Char) : BlankAhead (' ' :: cs) := by
  rintro c ⟨rfl⟩
  rfl

theorem BlankAhead.noQuoteAhead {cs : List Char} (h : BlankAhead cs) : NoQuoteAhead cs := by
  intro c hc hq
  have hb := h c hc
  rw [hq.not_isAsciiBlank] at hb
  exact Bool.noConfusion hb

theorem AllBlank.noQuoteAhead {cs : List Char} (h : AllBlank cs) : NoQuoteAhead cs := by
  intro c hc hq
  have hb := h c (List.mem_of_mem_head? hc)
  rw [hq.not_isBlank] at hb
  exact Bool.noConfusion hb

theorem noQuoteAhead_dollar (cs : List Char) : NoQuoteAhead ('$' :: cs) := by
  intro c hc hq
  exact hq.ne_dollar (Option.some.inj hc).symm

theorem NoQuoteAhead.append {u v : List Char} (hu : NoQuoteAhead u) (hv : NoQuoteAhead v) :
    NoQuoteAhead (u ++ v) := by
  cases u with
  | nil => exact hv
  | cons c u => exact hu

/-- A pair of quotes does not lie across the border to a text without a quote in front. -/
theorem pair_infix_append_iff {c : Char} (hc : IsQuote c) {u v : List Char} (hv : NoQuoteAhead v) :
    [c, c] <:+: u ++ v ↔ [c, c] <:+: u ∨ [c, c] <:+: v := by
  refine ⟨fun h => ?_, fun h => h.elim List.infix_append_of_infix_left
    List.infix_append_of_infix_right⟩
  rcases List.infix_append_iff.1 h with h | h | ⟨l₁, l₂, heq, h₁, h₂⟩
  · exact Or.inl h
  · exact Or.inr h
  · cases l₂ with
    | nil =>
      rw [List.append_nil] at heq
      exact Or.inl (heq ▸ h₁.isInfix)
    | cons d l₂ =>
      have hd : d = c := by
        have : d ∈ [c, c] := by
          rw [heq]
          exact List.mem_append_right l₁ List.mem_cons_self
        simpa using this
      obtain ⟨w, rfl⟩ := h₂
      exact absurd (hd ▸ hc) (hv d rfl)

theorem not_pair_infix_of_allBlank {c : Char} (hc : IsQuote c) {cs : List Char}
    (h : AllBlank cs) : ¬ [c, c] <:+: cs := by
  intro hin
  have hb := h c (hin.subset List.mem_cons_self)
  rw [hc.not_isBlank] at hb
  exact Bool.noConfusion hb

theorem afterPair_eq (c : Char) (rest : List Char) :
    afterPair c rest = .doubled c ∧ wordFollows rest = true ∧ [c, c] <:+: rest ∨
      afterPair c rest = .outside ∧ ¬ (wordFollows rest = true ∧ [c, c] <:+: rest) := by
  unfold afterPair
  split_ifs with h
  · rw [Bool.and_eq_true, Text.occursIn_iff] at h
    exact Or.inl ⟨rfl, h⟩
  · rw [Bool.and_eq_true, Text.occursIn_iff] at h
    exact Or.inr ⟨rfl, h⟩

theorem afterPair_congr {c : Char} {r r' : List Char}
    (h : wordFollows r = true ∧ [c, c] <:+: r ↔ wordFollows r' = true ∧ [c, c] <:+: r') :
    afterPair c r = afterPair c r' := by
  rcases afterPair_eq c r with ⟨h₁, ht⟩ | ⟨h₁, ht⟩ <;>
    rcases afterPair_eq c r' with ⟨h₂, ht'⟩ | ⟨h₂, ht'⟩
  · rw [h₁, h₂]
  · exact absurd (h.1 ht) ht'
  · exact absurd (h.2 ht') ht
  · rw [h₁, h₂]

theorem wordFollows_of_blankAhead {cs : List Char} (h : BlankAhead cs) :
    wordFollows cs = false := by
  cases cs with
  | nil => rfl
  | cons c cs =>
    show (!isAsciiBlank c && c != '"' && c != '\'') = false
    rw [h c rfl]
    rfl

/-! ## Steps that do not see the difference -/

/-- A step sees of the rest whether it starts with the same quote and, behind a pair of quotes,
which state the pair leaves. -/
theorem next_congr {s : Cursor} (hs : s.quoting.Regular) {c : Char} {r r' : List Char}
    (hhead : IsQuote c → (r.head? = some c ↔ r'.head? = some c))
    (hpair : s.quoting = .outside → IsQuote c → r.head? = some c →
      afterPair c r.tail = afterPair c r'.tail) : s.next c r = s.next c r' := by
  unfold next
  by_cases hq : IsQuote c
  · simp only [hhead hq]
    split_ifs with _ _ hopen
    · rfl
    · rfl
    · rw [hpair hopen.1 hq ((hhead hq).2 hopen.2.2)]
    · rfl
    · rfl
  · have hopen : opensRegion s.wordStart c ≠ true := fun h => hq (isQuote_of_opensRegion h)
    have hclose : s.quoting ≠ .doubled c := by
      intro h
      rw [h] at hs
      exact hq hs
    simp only [hopen, hclose, Bool.false_eq_true, false_and, and_false, if_false]

theorem atSeparator_cons_append {s : Cursor} {c : Char} {cs f g : List Char}
    (hg : ∀ d ∈ g.head?, d ≠ '$') (h : ¬ s.AtSeparator (c :: (cs ++ f))) :
    ¬ s.AtSeparator (c :: (cs ++ g)) := by
  rintro ⟨hheld, hout, w, hw⟩
  cases cs with
  | nil =>
    obtain ⟨-, rfl⟩ : '$' = c ∧ '$' :: w = g := List.cons.inj hw
    exact hg '$' rfl rfl
  | cons d cs =>
    obtain ⟨rfl, rfl, -⟩ : '$' = c ∧ '$' = d ∧ w = cs ++ g := by simpa using hw
    exact h ⟨hheld, hout, cs ++ f, rfl⟩

theorem head?_append_eq_quote_iff {c : Char} (hc : IsQuote c) {cs f g : List Char}
    (hf : NoQuoteAhead f) (hg : NoQuoteAhead g) :
    (cs ++ f).head? = some c ↔ (cs ++ g).head? = some c := by
  cases cs with
  | nil => exact ⟨fun h => absurd hc (hf c h), fun h => absurd hc (hg c h)⟩
  | cons d cs => exact Iff.rfl

namespace Advance

variable {f g : List Char} {s t : Cursor} {p : List Char}

/-- A doubled region that ends in a part ends with a pair of quotes in that part. -/
theorem pair_infix_of_doubled {c : Char} (hc : IsQuote c) (hf : NoQuoteAhead f)
    (h : Advance f s p t) (hs : s.quoting = .doubled c) (ht : t.quoting = .outside) :
    [c, c] <:+: p := by
  induction h with
  | nil s =>
    rw [hs] at ht
    cases ht
  | @cons s t d cs _ _ ih =>
    by_cases hclose : s.held = false ∧ d ≠ '\\' ∧ d = c ∧ (cs ++ f).head? = some d
    · obtain ⟨-, -, rfl, hhead⟩ := hclose
      cases cs with
      | nil => exact absurd hc (hf d hhead)
      | cons e cs =>
        obtain rfl : e = d := Option.some.inj hhead
        exact ⟨[], cs, rfl⟩
    · refine (ih ?_ ht).trans (List.suffix_cons d cs).isInfix
      unfold next
      split_ifs with hheld hback hopen hstop
      · exact hs
      · exact hs
      · rw [hs] at hopen
        cases hopen.1
      · rw [hs] at hstop
        exact absurd ⟨by simpa using hheld, hback, (Quoting.doubled.inj hstop.1).symm, hstop.2⟩
          hclose
      · rw [hs]
        rfl

/-- What a pair of quotes opens does not depend on the text behind the part, if no region is open at
the end of the part. -/
theorem afterPair_append {c : Char} (hc : IsQuote c) {cs : List Char} (hf : NoQuoteAhead f)
    (hg : BlankAhead g) (hpair : [c, c] <:+: g → [c, c] <:+: f)
    (hs : s.quoting = afterPair c (cs ++ f)) (h : Advance f s (c :: cs) t)
    (ht : t.quoting = .outside) (hheld : s.held = true) :
    afterPair c (cs ++ f) = afterPair c (cs ++ g) := by
  have hiff : ∀ u, NoQuoteAhead u → ([c, c] <:+: cs ++ u ↔ [c, c] <:+: cs ∨ [c, c] <:+: u) :=
    fun u hu => pair_infix_append_iff hc hu
  rcases afterPair_eq c (cs ++ f) with ⟨hopen, hword, -⟩ | ⟨hshut, hno⟩
  · have hin : [c, c] <:+: cs := by
      cases h with
      | cons _ h =>
        refine h.pair_infix_of_doubled hc hf ?_ ht
        unfold next
        rw [if_pos hheld]
        exact hs.trans hopen
    refine afterPair_congr ?_
    cases cs with
    | nil => exact absurd hin.length_le (by simp)
    | cons d cs =>
      rw [hiff f hf, hiff g hg.noQuoteAhead]
      exact ⟨fun h => ⟨h.1, Or.inl hin⟩, fun h => ⟨h.1, Or.inl hin⟩⟩
  · rcases afterPair_eq c (cs ++ g) with ⟨-, hword, hin⟩ | ⟨hshut', -⟩
    · cases cs with
      | nil =>
        rw [List.nil_append, wordFollows_of_blankAhead hg] at hword
        exact Bool.noConfusion hword
      | cons d cs =>
        refine absurd ⟨hword, ?_⟩ hno
        rw [hiff f hf]
        exact ((hiff g hg.noQuoteAhead).1 hin).imp id hpair
    · rw [hshut, hshut']

/-- The cursor does not notice another text behind a part at whose end no region is open, if that
text starts with an ASCII blank, or is empty, and has no new pair of quotes of a kind that the part
has too. -/
theorem change_ahead (h : Advance f s p t) (hs : s.quoting.Regular) (ht : t.quoting = .outside)
    (hf : NoQuoteAhead f) (hg : BlankAhead g)
    (hpair : ∀ c, IsQuote c → [c, c] <:+: p → [c, c] <:+: g → [c, c] <:+: f) :
    Advance g s p t := by
  induction h with
  | nil s => exact .nil s
  | @cons s t c cs hc h ih =>
    have hdollar : ∀ d ∈ g.head?, d ≠ '$' := by
      rintro d hd rfl
      exact Bool.noConfusion (hg '$' hd)
    have hnext : s.next c (cs ++ f) = s.next c (cs ++ g) := by
      by_cases hopen : s.held = false ∧ s.quoting = .outside ∧ opensRegion s.wordStart c = true ∧
          (cs ++ f).head? = some c
      · obtain ⟨hheld, hout, hopens, hhead⟩ := hopen
        have hq := isQuote_of_opensRegion hopens
        cases cs with
        | nil => exact absurd hq (hf c hhead)
        | cons d cs =>
          obtain rfl : d = c := Option.some.inj hhead
          have hstep : s.next d (d :: cs ++ f) = ⟨afterPair d (cs ++ f), isAsciiBlank d, true⟩ := by
            simp [next, hheld, hq.ne_backslash, hout, hopens]
          rw [hstep] at h
          exact next_congr hs (fun _ => Iff.rfl) fun _ _ _ =>
            afterPair_append hq hf hg (hpair d hq ⟨[], cs, rfl⟩) rfl h ht rfl
      · by_cases hheld : s.held = true
        · simp [next, hheld]
        · by_cases hout : s.quoting = .outside
          · by_cases hopens : opensRegion s.wordStart c = true
            · have hq := isQuote_of_opensRegion hopens
              refine next_congr hs
                (fun hq => head?_append_eq_quote_iff hq hf hg.noQuoteAhead) fun _ _ hhead => ?_
              exact absurd ⟨by simpa using hheld, hout, hopens, hhead⟩ hopen
            · simp [next, hopens, hout]
          · exact next_congr hs
              (fun hq => head?_append_eq_quote_iff hq hf hg.noQuoteAhead)
              fun h => absurd h hout
    refine .cons (atSeparator_cons_append hdollar hc) ?_
    rw [← hnext]
    exact ih (regular_next hs _ _) ht fun q hq hin =>
      hpair q hq (hin.trans (List.suffix_cons c cs).isInfix)

end Advance

end Keybinds.Chain
