import Keybinds.Proofs.List
import Keybinds.Proofs.Text.Strip
import Keybinds.Text.Numeral
import Mathlib.Data.List.TakeWhile

/-!
# Words

Words with a space between each two are parted again (`words_joinWords`). The digits of a number are
a word, and a reader of numbers reads them back (`readUInt32?_digits`).
-/

namespace Keybinds.Text

/-! ## Words of a text -/

/-- At least one character, and no blanks. -/
def IsWord (w : List Char) : Prop := w ≠ [] ∧ NoBlank w

theorem IsWord.trimmed {w : List Char} (h : IsWord w) : Trimmed w :=
  ⟨fun c hc => h.2 c (List.mem_of_mem_head? hc), fun c hc => h.2 c (List.mem_of_getLast? hc)⟩

/-- A space between trimmed texts stands at no end. -/
theorem Trimmed.append_space {u v : List Char} (hu : Trimmed u) (hune : u ≠ []) (hv : Trimmed v)
    (hvne : v ≠ []) : Trimmed (u ++ ' ' :: v) := by
  refine ⟨fun c hc => ?_, fun c hc => ?_⟩
  · rw [List.head?_append_of_ne_nil _ hune] at hc
    exact hu.1 c hc
  · rw [List.append_cons, List.getLast?_append_of_ne_nil _ hvne] at hc
    exact hv.2 c hc

theorem isWord_of_mem_words {w cs : List Char} (h : w ∈ words cs) : IsWord w := by
  unfold words at h
  obtain ⟨hmem, hne⟩ := List.mem_filter.1 h
  exact ⟨by simpa using hne, forall_of_mem_splitOnP hmem⟩

theorem words_of_isWord {w : List Char} (h : IsWord w) : words w = [w] := by
  unfold words
  rw [List.splitOnP_eq_singleton h.2, List.filter_cons_of_pos (by simp [h.1])]
  rfl

theorem words_append_blank {w : List Char} (h : IsWord w) {b : Char} (hb : isBlank b = true)
    (rest : List Char) : words (w ++ b :: rest) = w :: words rest := by
  unfold words
  rw [List.splitOnP_append_cons_of_forall_mem h.2 b hb, List.filter_cons_of_pos (by simp [h.1])]

theorem firstWord_of_isWord {w : List Char} (h : IsWord w) : firstWord w = (w, []) := by
  have hall : ∀ c ∈ w, (!isBlank c) = true := fun c hc => by simp [h.2 c hc]
  unfold firstWord
  simp only [stripStart_eq_self h.trimmed.1, List.takeWhile_eq_self_iff.2 hall,
    List.dropWhile_eq_nil_iff.2 hall]
  rfl

/-- Words with a space between each two. -/
def joinWords (ws : List (List Char)) : List Char :=
  [' '].intercalate ws

theorem joinWords_cons {w : List Char} {ws : List (List Char)} (h : ws ≠ []) :
    joinWords (w :: ws) = w ++ ' ' :: joinWords ws := by
  unfold joinWords
  rw [List.intercalate_cons_of_ne_nil h, List.append_assoc]
  rfl

theorem joinWords_singleton (w : List Char) : joinWords [w] = w :=
  List.intercalate_singleton

/-- Joined words are parted again. -/
theorem words_joinWords {ws : List (List Char)} (h : ∀ w ∈ ws, IsWord w) :
    words (joinWords ws) = ws := by
  induction ws with
  | nil => rfl
  | cons w ws ih =>
    rw [List.forall_mem_cons] at h
    by_cases hws : ws = []
    · subst hws
      rw [joinWords_singleton, words_of_isWord h.1]
    · rw [joinWords_cons hws, words_append_blank h.1 rfl, ih h.2]

/-- Joined words have no blanks at their ends. -/
theorem joinWords_trimmed {w : List Char} {ws : List (List Char)} (h : ∀ x ∈ w :: ws, IsWord x) :
    joinWords (w :: ws) ≠ [] ∧ Trimmed (joinWords (w :: ws)) := by
  induction ws generalizing w with
  | nil =>
    rw [joinWords_singleton]
    exact ⟨(h w List.mem_cons_self).1, (h w List.mem_cons_self).trimmed⟩
  | cons w' ws ih =>
    rw [List.forall_mem_cons] at h
    obtain ⟨hne, htrimmed⟩ := ih h.2
    rw [joinWords_cons (List.cons_ne_nil _ _)]
    exact ⟨by simp, h.1.trimmed.append_space h.1.1 htrimmed hne⟩

/-! ## Numbers -/

theorem not_isBlank_of_isDigit {c : Char} (h : c.isDigit = true) : isBlank c = false := by
  have hrange : 48 ≤ c.toNat ∧ c.toNat ≤ 57 := by
    simpa [Char.isDigit, UInt32.le_iff_toNat_le] using h
  unfold isBlank
  simp only [Bool.or_eq_false_iff, Bool.and_eq_false_iff, decide_eq_false_iff_not,
    beq_eq_false_iff_ne]
  omega

theorem isDigit_of_mem_digits {n : Nat} {c : Char} (h : c ∈ digits n) : c.isDigit = true :=
  Nat.isDigit_of_mem_toDigits (by decide) (by decide) h

theorem isWord_digits (n : Nat) : IsWord (digits n) :=
  ⟨Nat.toDigits_ne_nil, fun _ hc => not_isBlank_of_isDigit (isDigit_of_mem_digits hc)⟩

theorem toList_toString (n : Nat) : (toString n).toList = digits n := by
  rw [Nat.toString_eq_repr, Nat.toList_repr]
  rfl

theorem readDigits?_digits (n : Nat) : readDigits? (digits n) = some n := by
  have hall : (digits n).all Char.isDigit = true :=
    List.all_eq_true.2 fun _ hc => isDigit_of_mem_digits hc
  have hne : (digits n).isEmpty = false := by simpa using (isWord_digits n).1
  unfold readDigits?
  rw [hall, hne]
  exact congrArg some Nat.ofDigitChars_ten_toDigits

/-- No sign stands in front of digits. -/
theorem digits_ne_cons {c : Char} (hc : c.isDigit = false) (n : Nat) (rest : List Char) :
    digits n ≠ c :: rest := by
  intro hcons
  have hdigit := isDigit_of_mem_digits (n := n) (c := c) (by rw [hcons]; exact List.mem_cons_self)
  rw [hc] at hdigit
  cases hdigit

theorem readSigned?_digits (n : Nat) : readSigned? (digits n) = some (n : Int) := by
  unfold readSigned?
  split
  · rename_i hcons
    exact absurd hcons (digits_ne_cons rfl n _)
  · rename_i hcons
    exact absurd hcons (digits_ne_cons rfl n _)
  · rw [readDigits?_digits]
    rfl

/-- The digits of a number are read back. -/
theorem readUInt32?_digits (n : UInt32) : readUInt32? (digits n.toNat) = some n := by
  have hbound : n.toNat < UInt32.size := n.toNat_lt
  unfold readUInt32? readUnsigned?
  split
  · rename_i hcons
    exact absurd hcons (digits_ne_cons rfl _ _)
  · dsimp only
    rw [readDigits?_digits, Option.filter_some, if_pos (decide_eq_true hbound), Option.map_some,
      UInt32.ofNat_toNat]

/-! ## Signs -/

theorem filter_lt_eq_some_iff {digits : Option Nat} {bound : Nat} {n : Int} :
    (digits.filter (· < bound)).map Int.ofNat = some n ↔
      digits.map Int.ofNat = some n ∧ n < bound := by
  cases digits with
  | none => simp
  | some k =>
    by_cases hk : k < bound
    · simp only [Option.filter_some, hk, decide_true, if_true, Option.map_some, Option.some.injEq]
      exact ⟨fun h => ⟨h, h ▸ Int.ofNat_lt.2 hk⟩, And.left⟩
    · simp only [Option.filter_some, hk, decide_false, Option.map_some, Option.some.injEq]
      refine iff_of_false nofun ?_
      rintro ⟨rfl, h⟩
      exact hk (Int.ofNat_lt.1 h)

/-- Without a minus in front, unsigned numbers are the signed ones below the bound. -/
theorem readUnsigned?_eq_some_iff {bound : Nat} {cs : List Char} {n : Int} :
    (readUnsigned? bound cs).map Int.ofNat = some n ↔
      cs.head? ≠ some '-' ∧ readSigned? cs = some n ∧ n < bound := by
  unfold readUnsigned? readSigned?
  split
  · exact filter_lt_eq_some_iff.trans (and_iff_right nofun).symm
  · rename_i hplus
    split
    · exact iff_of_false nofun fun h => h.1 rfl
    · exact absurd rfl (hplus _)
    · rename_i hminus _
      refine filter_lt_eq_some_iff.trans (and_iff_right fun hhead => ?_).symm
      obtain ⟨rest, rfl⟩ := List.head?_eq_some_iff.1 hhead
      exact hminus rest rfl

theorem nonpos_of_readSigned? {cs : List Char} {n : Int} (hread : readSigned? cs = some n)
    (hminus : cs.head? = some '-') : n ≤ 0 := by
  obtain ⟨rest, rfl⟩ := List.head?_eq_some_iff.1 hminus
  unfold readSigned? at hread
  obtain ⟨k, hk, rfl⟩ := Option.map_eq_some_iff.1 hread
  obtain ⟨m, -, hm⟩ := Option.bind_eq_some_iff.1 hk
  obtain rfl := Option.some.inj hm
  exact Int.neg_nonpos_of_nonneg (Int.natCast_nonneg m)

end Keybinds.Text
