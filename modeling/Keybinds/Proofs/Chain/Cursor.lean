import Keybinds.Chain.Scan
import Mathlib.Tactic.SplitIfs

/-!
# The scan as steps of a cursor

`scanFrom` reads one or two characters at a time. A `Cursor` reads one, and remembers where it has
to take the next character as it is. `Advance ahead s cs t` says that the cursor goes from `s` over
`cs` to `t` without meeting a separator, where `ahead` is the text behind `cs`: the cursor looks at
the next character, and from a doubled quote on at the whole rest.

`Cuts` tells where a body is cut in terms of `Advance`; `cuts_scanFrom` and `scanFrom_of_cuts` are
the two directions of its agreement with `scanFrom`.
-/

namespace Keybinds.Chain

/-- One of the two quotes. -/
def IsQuote (c : Char) : Prop := c = '"' ∨ c = '\''

/-- Every region ends with a quote. -/
def Quoting.Regular : Quoting Char → Prop
  | .outside => True
  | .quoted mark => IsQuote mark
  | .doubled mark => IsQuote mark

/-- A scan whose first part has more characters in front. -/
def Scan.prepend (p : List Char) (s : Scan) : Scan :=
  { s with parts := s.parts.modifyHead (p ++ ·) }

@[simp] theorem Scan.prepend_nil (s : Scan) : s.prepend [] = s := by
  cases s with
  | mk parts unterminated => cases parts <;> rfl

theorem Scan.cons_prepend (c : Char) (p : List Char) (s : Scan) :
    (s.prepend p).cons c = s.prepend (c :: p) := by
  cases s with
  | mk parts unterminated => cases parts <;> rfl

theorem IsQuote.not_isBlank {c : Char} (h : IsQuote c) : Text.isBlank c = false := by
  rcases h with rfl | rfl <;> rfl

theorem IsQuote.not_isAsciiBlank {c : Char} (h : IsQuote c) : Text.isAsciiBlank c = false := by
  rcases h with rfl | rfl <;> rfl

theorem IsQuote.ne_dollar {c : Char} (h : IsQuote c) : c ≠ '$' := by
  rcases h with rfl | rfl <;> decide

theorem IsQuote.ne_backslash {c : Char} (h : IsQuote c) : c ≠ '\\' := by
  rcases h with rfl | rfl <;> decide

theorem isQuote_of_opensRegion {wordStart : Bool} {c : Char} (h : opensRegion wordStart c = true) :
    IsQuote c := by
  unfold opensRegion at h
  rw [Bool.or_eq_true, Bool.and_eq_true, beq_iff_eq, beq_iff_eq] at h
  exact h.imp id And.left

theorem regular_afterPair {c : Char} (h : IsQuote c) (rest : List Char) :
    (afterPair c rest).Regular := by
  unfold afterPair
  split
  · exact h
  · trivial

theorem regular_afterSingle {state : Quoting Char} (h : state.Regular) (wordStart : Bool)
    (c : Char) : (afterSingle state wordStart c).Regular := by
  cases state with
  | outside =>
    show (if opensRegion wordStart c = true then Quoting.quoted c else .outside).Regular
    split_ifs with hc
    · exact isQuote_of_opensRegion hc
    · trivial
  | quoted mark =>
    show (if c = mark then Quoting.outside else .quoted mark).Regular
    split_ifs
    · trivial
    · exact h
  | doubled mark => exact h

/-- Where a scan stands between two characters. -/
structure Cursor where
  quoting : Quoting Char
  wordStart : Bool
  /-- Whether the next character is taken as it is: it is escaped or completes a pair. -/
  held : Bool

namespace Cursor

/-- In front of a part. -/
def start : Cursor := ⟨.outside, true, false⟩

/-- Whether the text at the cursor starts with a separator that counts. -/
def AtSeparator (s : Cursor) (cs : List Char) : Prop :=
  s.held = false ∧ s.quoting = .outside ∧ ['$', '$'] <+: cs

/-- The cursor behind a character, which starts no separator, with the rest of the text in view. -/
def next (s : Cursor) (c : Char) (rest : List Char) : Cursor :=
  if s.held then ⟨s.quoting, Text.isAsciiBlank c, false⟩
  else if c = '\\' then ⟨s.quoting, Text.isAsciiBlank c, true⟩
  else if s.quoting = .outside ∧ opensRegion s.wordStart c ∧ rest.head? = some c then
    ⟨afterPair c rest.tail, Text.isAsciiBlank c, true⟩
  else if s.quoting = .doubled c ∧ rest.head? = some c then ⟨.outside, Text.isAsciiBlank c, true⟩
  else ⟨afterSingle s.quoting s.wordStart c, Text.isAsciiBlank c, false⟩

/-- The scan of the text at the cursor. -/
def scan (s : Cursor) (cs : List Char) : Scan :=
  match s.held, cs with
  | true, c :: rest => (scanFrom s.quoting (Text.isAsciiBlank c) rest).cons c
  | _, cs => scanFrom s.quoting s.wordStart cs

theorem scan_start (cs : List Char) : start.scan cs = scanFrom .outside true cs := rfl

theorem scan_nil (s : Cursor) : s.scan [] = ⟨[[]], s.quoting != .outside⟩ := by
  obtain ⟨state, wordStart, held⟩ := s
  cases held <;> simp [scan, scanFrom]

theorem regular_next {s : Cursor} (hs : s.quoting.Regular) (c : Char) (rest : List Char) :
    (s.next c rest).quoting.Regular := by
  unfold next
  split_ifs with hheld hback hopen hclose
  · exact hs
  · exact hs
  · exact regular_afterPair (isQuote_of_opensRegion hopen.2.1) rest.tail
  · trivial
  · exact regular_afterSingle hs s.wordStart c

theorem scan_separator {s : Cursor} {rest : List Char} (hheld : s.held = false)
    (hs : s.quoting = .outside) :
    s.scan ('$' :: '$' :: rest) = (start.scan rest).afterSeparator := by
  unfold scan
  rw [hheld, hs]
  simp [scanFrom, opensRegion, start]

/-- A character that starts no separator belongs to the first part. -/
theorem scan_cons {s : Cursor} (hs : s.quoting.Regular) {c : Char} {rest : List Char}
    (h : ¬ s.AtSeparator (c :: rest)) :
    s.scan (c :: rest) = ((s.next c rest).scan rest).cons c := by
  obtain ⟨state, wordStart, held⟩ := s
  cases held with
  | true => rfl
  | false =>
    cases rest with
    | nil =>
      by_cases hc : c = '\\' <;> simp [scan, next, scanFrom, hc, Scan.cons]
    | cons d rest =>
      have hsep : ¬ (state = .outside ∧ c = '$' ∧ d = '$') := by
        rintro ⟨rfl, rfl, rfl⟩
        exact h ⟨rfl, rfl, rest, rfl⟩
      by_cases hback : c = '\\'
      · simp [scan, next, scanFrom, hback]
      by_cases hopen : state = .outside ∧ opensRegion wordStart c ∧ d = c
      · obtain ⟨rfl, hc, rfl⟩ := hopen
        have hblank := (isQuote_of_opensRegion hc).not_isAsciiBlank
        simp [scan, next, scanFrom, hback, hc, hblank]
      by_cases hclose : state = .doubled c ∧ d = c
      · obtain ⟨rfl, rfl⟩ := hclose
        have hblank := IsQuote.not_isAsciiBlank hs
        simp [scan, next, scanFrom, hback, hblank]
      simp only [scan, next, scanFrom, hback, hopen, hsep, hclose, if_false, List.head?_cons,
        Option.some.injEq, Bool.false_eq_true]

end Cursor

/-! ## Advancing without a cut -/

open Cursor

/-- The cursor goes over a text without meeting a separator, with `ahead` behind the text. -/
inductive Advance (ahead : List Char) : Cursor → List Char → Cursor → Prop
  | nil (s : Cursor) : Advance ahead s [] s
  | cons {s t : Cursor} {c : Char} {cs : List Char} (h : ¬ s.AtSeparator (c :: (cs ++ ahead)))
      (rest : Advance ahead (s.next c (cs ++ ahead)) cs t) : Advance ahead s (c :: cs) t

namespace Advance

variable {ahead : List Char} {s t : Cursor} {u v p : List Char}

theorem regular (h : Advance ahead s p t) (hs : s.quoting.Regular) : t.quoting.Regular := by
  induction h with
  | nil s => exact hs
  | cons _ _ ih => exact ih (regular_next hs _ _)

theorem append_iff :
    Advance ahead s (u ++ v) t ↔ ∃ m, Advance (v ++ ahead) s u m ∧ Advance ahead m v t := by
  constructor
  · intro h
    induction u generalizing s with
    | nil => exact ⟨s, .nil s, h⟩
    | cons c u ih =>
      cases h with
      | cons hc h =>
        rw [List.append_eq, List.append_assoc] at hc h
        obtain ⟨m, hu, hv⟩ := ih h
        exact ⟨m, .cons hc hu, hv⟩
  · rintro ⟨m, hu, hv⟩
    induction hu with
    | nil s => exact hv
    | @cons s m c cs hc _ ih =>
      rw [← List.append_assoc] at hc ih
      exact .cons hc (ih hv)

theorem scan_append (h : Advance ahead s p t) (hs : s.quoting.Regular) :
    s.scan (p ++ ahead) = (t.scan ahead).prepend p := by
  induction h with
  | nil s => simp
  | cons hc _ ih =>
    rw [List.cons_append, scan_cons hs hc, ih (regular_next hs _ _), Scan.cons_prepend]

/-- The cursor goes to the end of a text or up to the first separator that counts. -/
theorem exists_or_cut (s : Cursor) (cs : List Char) :
    (∃ t, Advance [] s cs t) ∨
      ∃ p q t, cs = p ++ '$' :: '$' :: q ∧ Advance ('$' :: '$' :: q) s p t ∧
        t.held = false ∧ t.quoting = .outside := by
  induction cs generalizing s with
  | nil => exact Or.inl ⟨s, .nil s⟩
  | cons c cs ih =>
    by_cases hc : s.AtSeparator (c :: cs)
    · obtain ⟨hheld, hs, q, hq⟩ := hc
      exact Or.inr ⟨[], q, s, hq.symm, .nil s, hheld, hs⟩
    · rcases ih (s.next c cs) with ⟨t, ht⟩ | ⟨p, q, t, rfl, ht, hend⟩
      · exact Or.inl ⟨t, .cons (by rwa [List.append_nil]) (by rwa [List.append_nil])⟩
      · exact Or.inr ⟨c :: p, q, t, rfl, .cons hc ht, hend⟩

end Advance

/-! ## Cuts -/

/-- The parts of a body, and whether its last part ends inside of quotes. -/
inductive Cuts : List Char → List (List Char) → Bool → Prop
  | last {cs : List Char} {t : Cursor} (h : Advance [] start cs t) :
      Cuts cs [cs] (t.quoting != .outside)
  | more {p q : List Char} {ps : List (List Char)} {unterminated : Bool} {t : Cursor}
      (h : Advance ('$' :: '$' :: q) start p t) (hheld : t.held = false)
      (hout : t.quoting = .outside) (rest : Cuts q ps unterminated) :
      Cuts (p ++ '$' :: '$' :: q) (p :: ps) unterminated

theorem scanFrom_of_cuts {cs : List Char} {ps : List (List Char)} {unterminated : Bool}
    (h : Cuts cs ps unterminated) : scanFrom .outside true cs = ⟨ps, unterminated⟩ := by
  induction h with
  | @last cs t h =>
    have := h.scan_append trivial
    rw [List.append_nil, scan_nil] at this
    rw [← scan_start, this]
    simp [Scan.prepend]
  | more h hheld hout _ ih =>
    rw [← scan_start, h.scan_append trivial, scan_separator hheld hout, scan_start, ih]
    simp [Scan.prepend, Scan.afterSeparator]

theorem exists_cuts (cs : List Char) : ∃ ps unterminated, Cuts cs ps unterminated := by
  rcases Advance.exists_or_cut start cs with ⟨t, ht⟩ | ⟨p, q, t, rfl, ht, hheld, hout⟩
  · exact ⟨[cs], _, .last ht⟩
  · obtain ⟨ps, unterminated, hq⟩ := exists_cuts q
    exact ⟨p :: ps, unterminated, .more ht hheld hout hq⟩
termination_by cs.length
decreasing_by simp_all; omega

theorem cuts_scanFrom (cs : List Char) :
    Cuts cs (scanFrom .outside true cs).parts (scanFrom .outside true cs).unterminated := by
  obtain ⟨ps, unterminated, h⟩ := exists_cuts cs
  rw [scanFrom_of_cuts h]
  exact h

end Keybinds.Chain
