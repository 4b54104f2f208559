import Keybinds.Proofs.Chain.Ahead

/-!
# Parts read on their own

A command is a part of a body without the blanks around it. Read on its own, it starts at a word
start; in the body it may not, because words start behind ASCII blanks only while every blank is
trimmed. Only an apostrophe can tell the difference. In a body that `KeepsWordStarts`, where none
stands directly behind another blank than an ASCII one, each part reads on its own as it does in the
body (`Advance.exists_strip`).
-/

namespace Keybinds.Chain

open Text (AllBlank isBlank isAsciiBlank strip)
open Cursor

/-- No apostrophe stands directly behind a blank that is not an ASCII one. -/
def KeepsWordStarts (cs : List Char) : Prop :=
  ∀ b, isBlank b = true → isAsciiBlank b = false → ¬ [b, '\''] <:+: cs

theorem KeepsWordStarts.mono {u v : List Char} (h : KeepsWordStarts v) (huv : u <:+: v) :
    KeepsWordStarts u :=
  fun b hb ha hin => h b hb ha (hin.trans huv)

theorem pair_infix_iff_mem_zip {a b : Char} {cs : List Char} :
    [a, b] <:+: cs ↔ (a, b) ∈ cs.zip cs.tail := by
  induction cs with
  | nil => simp
  | cons c cs ih =>
    rw [List.infix_cons_iff, ih]
    cases cs with
    | nil => simp [List.cons_prefix_cons]
    | cons d cs => simp [List.cons_prefix_cons]

/-- The rule for each two adjacent characters. -/
theorem keepsWordStarts_iff {cs : List Char} :
    KeepsWordStarts cs ↔
      ∀ p ∈ cs.zip cs.tail, p.2 = '\'' → isBlank p.1 = true → isAsciiBlank p.1 = true := by
  unfold KeepsWordStarts
  simp only [pair_infix_iff_mem_zip]
  constructor
  · rintro h ⟨b, c⟩ hp rfl hb
    cases ha : isAsciiBlank b with
    | true => rfl
    | false => exact absurd hp (h b hb ha)
  · intro h b hb ha hp
    rw [h (b, '\'') hp rfl hb] at ha
    cases ha

instance : DecidablePred KeepsWordStarts := fun _ => decidable_of_iff _ keepsWordStarts_iff.symm

/-! ## Blanks around a part -/

theorem ne_of_isBlank {b c : Char} (hb : isBlank b = true) (hc : isBlank c = false) : b ≠ c :=
  Text.isBlank_ne_of_not hb hc

/-- The cursor behind blanks. -/
def Cursor.overBlanks (s : Cursor) (bs : List Char) : Cursor :=
  match bs.getLast? with
  | none => s
  | some b => ⟨s.quoting, isAsciiBlank b, false⟩

/-- A character that is neither a backslash nor a quote leaves the state as it is. -/
theorem next_of_ne {s : Cursor} (hs : s.quoting.Regular) {c : Char} (hback : c ≠ '\\')
    (hquote : ¬ IsQuote c) (rest : List Char) :
    s.next c rest = ⟨s.quoting, isAsciiBlank c, false⟩ := by
  have hopen : opensRegion s.wordStart c ≠ true := fun h => hquote (isQuote_of_opensRegion h)
  obtain ⟨state, wordStart, held⟩ := s
  cases state with
  | outside => simp_all [next, afterSingle]
  | quoted mark =>
    have hmark : c ≠ mark := fun h => hquote (h ▸ hs)
    simp [next, afterSingle, hback, hmark]
  | doubled mark =>
    have hmark : mark ≠ c := fun h => hquote (h ▸ hs)
    simp [next, afterSingle, hback, hmark]

theorem next_of_isBlank {s : Cursor} (hs : s.quoting.Regular) {b : Char} (hb : isBlank b = true)
    (rest : List Char) : s.next b rest = ⟨s.quoting, isAsciiBlank b, false⟩ :=
  next_of_ne hs (ne_of_isBlank hb rfl) (fun h => ne_of_isBlank hb h.not_isBlank rfl) rest

theorem not_atSeparator_of_isBlank (s : Cursor) {b : Char} (hb : isBlank b = true)
    (rest : List Char) : ¬ s.AtSeparator (b :: rest) := by
  rintro ⟨-, -, w, hw⟩
  exact ne_of_isBlank (c := '$') hb rfl (List.cons.inj hw).1.symm

namespace Advance

variable {f : List Char} {s t : Cursor} {p bs : List Char}

/-- Blanks are gone over without a change of the state. -/
theorem overBlanks (f : List Char) (hs : s.quoting.Regular) (hbs : AllBlank bs) :
    Advance f s bs (s.overBlanks bs) := by
  induction bs generalizing s with
  | nil => exact .nil s
  | cons b bs ih =>
    have hb := hbs b List.mem_cons_self
    have hnext := next_of_isBlank hs hb (bs ++ f)
    refine .cons (not_atSeparator_of_isBlank s hb _) ?_
    rw [hnext]
    have hover : s.overBlanks (b :: bs) =
        (Cursor.mk s.quoting (isAsciiBlank b) false).overBlanks bs := by
      unfold Cursor.overBlanks
      cases bs with
      | nil => rfl
      | cons c bs => rw [List.getLast?_cons_cons]; cases h : (c :: bs).getLast? <;> simp_all
    rw [hover]
    exact ih hs hbs.tail

theorem unique {m : Cursor} (h : Advance f s p t) (h' : Advance f s p m) : t = m := by
  induction h with
  | nil s => cases h'; rfl
  | cons _ _ ih =>
    cases h' with
    | cons _ h' => exact ih h'

theorem quoting_overBlanks (s : Cursor) (bs : List Char) :
    (s.overBlanks bs).quoting = s.quoting := by
  unfold Cursor.overBlanks
  split <;> rfl

/-- Blanks behind a part do not count. -/
theorem drop_blanks (hs : s.quoting.Regular) (hbs : AllBlank bs) (h : Advance bs s p t) :
    Advance [] s p t := by
  induction h with
  | nil s => exact .nil s
  | @cons s t c cs hc h ih =>
    have hbs' : NoQuoteAhead bs := AllBlank.noQuoteAhead hbs
    have hnil : NoQuoteAhead [] := AllBlank.noQuoteAhead Text.allBlank_nil
    have hnext : s.next c (cs ++ bs) = s.next c (cs ++ []) := by
      refine next_congr hs (fun hq => head?_append_eq_quote_iff hq hbs' hnil) fun _ hq hhead => ?_
      cases cs with
      | nil => exact absurd hq (hbs' c hhead)
      | cons d cs =>
        refine afterPair_congr ?_
        have hin : [c, c] <:+: cs ++ bs ↔ [c, c] <:+: cs := by
          rw [pair_infix_append_iff hq hbs']
          exact or_iff_left (not_pair_infix_of_allBlank hq hbs)
        rw [List.append_nil, List.cons_append, List.tail_cons, List.tail_cons, hin]
        cases cs with
        | nil => simp
        | cons e cs => rfl
    refine .cons (atSeparator_cons_append (by simp) hc) ?_
    rw [← hnext]
    exact ih (regular_next hs _ _)

/-- Only an apostrophe tells whether a word may start in front of a part. -/
theorem change_wordStart {state : Quoting Char} {w w' held : Bool} (hp : p ≠ [])
    (hhead : p.head? ≠ some '\'') (h : Advance f ⟨state, w, held⟩ p t) :
    Advance f ⟨state, w', held⟩ p t := by
  cases h with
  | nil => exact absurd rfl hp
  | @cons _ _ c cs hc h =>
    have hc' : c ≠ '\'' := fun e => hhead (e ▸ rfl)
    have hopen : ∀ w, opensRegion w c = (c == '"') := by
      intro w
      unfold opensRegion
      simp [hc']
    have hsingle : afterSingle state w c = afterSingle state w' c := by
      cases state with
      | outside =>
        show (if opensRegion w c = true then Quoting.quoted c else .outside) =
          if opensRegion w' c = true then Quoting.quoted c else .outside
        rw [hopen, hopen]
      | quoted mark => rfl
      | doubled mark => rfl
    have hnext : Cursor.next ⟨state, w, held⟩ c (cs ++ f) =
        Cursor.next ⟨state, w', held⟩ c (cs ++ f) := by
      unfold Cursor.next
      simp only [hopen, hsingle]
    exact .cons hc (hnext ▸ h)

/-- Blanks in front of a part, after which each word starts as at the start, make no difference. -/
theorem of_overBlanks {lead : List Char} (hp : KeepsWordStarts (lead ++ p)) (hlead : AllBlank lead)
    (hne : p ≠ []) (h : Advance f (start.overBlanks lead) p t) : Advance f start p t := by
  unfold Cursor.overBlanks at h
  cases hlast : lead.getLast? with
  | none =>
    rw [hlast] at h
    exact h
  | some b =>
    rw [hlast] at h
    change Advance f ⟨.outside, isAsciiBlank b, false⟩ p t at h
    cases hb : isAsciiBlank b with
    | true =>
      rw [hb] at h
      exact h
    | false =>
      refine h.change_wordStart hne fun hhead => ?_
      obtain ⟨lead, rfl⟩ := List.getLast?_eq_some_iff.1 hlast
      obtain ⟨rest, rfl⟩ := List.head?_eq_some_iff.1 hhead
      exact hp b (hlead b (by simp)) hb ⟨lead, rest, by simp⟩

/-- A part without the blanks around it is gone over from a word start as in its place, up to the
state behind it. -/
theorem exists_strip (h : Advance f start p t) (hp : KeepsWordStarts p) (hne : strip p ≠ []) :
    ∃ trail m, AllBlank trail ∧ Advance (trail ++ f) start (strip p) m ∧
      m.quoting = t.quoting := by
  obtain ⟨lead, trail, hlead, htrail, heq⟩ := Text.exists_strip p
  rw [heq] at h hp
  obtain ⟨m₀, h₀, h₁⟩ := append_iff.1 h
  obtain ⟨m, h₁, h₂⟩ := append_iff.1 h₁
  obtain rfl := h₀.unique (Advance.overBlanks _ trivial hlead)
  have h₁' : Advance (trail ++ f) start (strip p) m :=
    h₁.of_overBlanks (hp.mono ⟨[], trail, by simp⟩) hlead hne
  obtain rfl := h₂.unique (Advance.overBlanks _ (h₁'.regular trivial) htrail)
  exact ⟨trail, m, htrail, h₁', (quoting_overBlanks m trail).symm⟩

end Advance

end Keybinds.Chain
