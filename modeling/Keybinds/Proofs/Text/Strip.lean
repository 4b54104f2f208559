import Keybinds.Text.Basic

/-!
# Trimmed texts

A text is its trimmed form between two runs of blanks (`exists_strip`), and what is trimmed stays as
it is (`strip_strip`). The first word of a line ends at a blank (`firstWord_append`), and the
substring search is the infix relation of lists (`occursIn_iff`).
-/

namespace Keybinds.Text

/-- Blanks only. -/
def AllBlank (cs : List Char) : Prop := ∀ c ∈ cs, isBlank c = true

/-- No blank at either end. -/
def Trimmed (cs : List Char) : Prop :=
  (∀ c ∈ cs.head?, isBlank c = false) ∧ ∀ c ∈ cs.getLast?, isBlank c = false

theorem allBlank_nil : AllBlank [] := by
  intro c hc
  simp at hc

theorem AllBlank.append {u v : List Char} (hu : AllBlank u) (hv : AllBlank v) :
    AllBlank (u ++ v) := by
  intro c hc
  rcases List.mem_append.1 hc with h | h
  · exact hu c h
  · exact hv c h

theorem AllBlank.tail {c : Char} {cs : List Char} (h : AllBlank (c :: cs)) : AllBlank cs :=
  fun d hd => h d (List.mem_cons_of_mem c hd)

theorem isBlank_ne_of_not {c d : Char} (hc : isBlank c = true) (hd : isBlank d = false) :
    c ≠ d := by
  rintro rfl
  rw [hc] at hd
  exact Bool.noConfusion hd

/-! ## Blanks at the ends -/

theorem exists_stripStart (cs : List Char) : ∃ lead, AllBlank lead ∧ cs = lead ++ stripStart cs :=
  ⟨cs.takeWhile isBlank, List.all_eq_true.1 List.all_takeWhile,
    List.takeWhile_append_dropWhile.symm⟩

theorem exists_stripEnd (cs : List Char) : ∃ trail, AllBlank trail ∧ cs = stripEnd cs ++ trail := by
  obtain ⟨lead, hlead, heq⟩ := exists_stripStart cs.reverse
  refine ⟨lead.reverse, fun c hc => hlead c (List.mem_reverse.1 hc), ?_⟩
  have := congrArg List.reverse heq
  rwa [List.reverse_reverse, List.reverse_append] at this

theorem head?_stripStart (cs : List Char) : ∀ c ∈ (stripStart cs).head?, isBlank c = false := by
  intro c hc
  have h := List.head?_dropWhile_not isBlank cs
  unfold stripStart at hc
  rw [Option.mem_def.1 hc] at h
  simpa using h

theorem getLast?_stripEnd (cs : List Char) : ∀ c ∈ (stripEnd cs).getLast?, isBlank c = false := by
  intro c hc
  unfold stripEnd at hc
  rw [List.getLast?_reverse] at hc
  exact head?_stripStart cs.reverse c hc

theorem stripStart_eq_self {cs : List Char} (h : ∀ c ∈ cs.head?, isBlank c = false) :
    stripStart cs = cs := by
  cases cs with
  | nil => rfl
  | cons c cs => exact List.dropWhile_cons_of_neg (by simp [h c rfl])

theorem stripEnd_eq_self {cs : List Char} (h : ∀ c ∈ cs.getLast?, isBlank c = false) :
    stripEnd cs = cs := by
  have hrev : stripStart cs.reverse = cs.reverse :=
    stripStart_eq_self fun c hc => h c (by rwa [List.head?_reverse] at hc)
  unfold stripEnd
  unfold stripStart at hrev
  rw [hrev, List.reverse_reverse]

theorem stripStart_append {lead : List Char} (h : AllBlank lead) (cs : List Char) :
    stripStart (lead ++ cs) = stripStart cs :=
  List.dropWhile_append_of_pos h

theorem stripEnd_append {trail : List Char} (h : AllBlank trail) (cs : List Char) :
    stripEnd (cs ++ trail) = stripEnd cs := by
  have hrev : AllBlank trail.reverse := fun c hc => h c (List.mem_reverse.1 hc)
  have hstart := stripStart_append hrev cs.reverse
  unfold stripStart at hstart
  unfold stripEnd
  rw [List.reverse_append, hstart]

theorem head?_of_append {u v : List Char} {c : Char} (h : c ∈ u.head?) : c ∈ (u ++ v).head? := by
  cases u with
  | nil => simp at h
  | cons d u => exact h

/-! ## Trimming -/

theorem trimmed_strip (cs : List Char) : Trimmed (strip cs) := by
  refine ⟨fun c hc => ?_, getLast?_stripEnd (stripStart cs)⟩
  obtain ⟨trail, -, heq⟩ := exists_stripEnd (stripStart cs)
  refine head?_stripStart cs c ?_
  rw [heq]
  exact head?_of_append hc

theorem strip_eq_self {cs : List Char} (h : Trimmed cs) : strip cs = cs := by
  unfold strip
  rw [stripStart_eq_self h.1, stripEnd_eq_self h.2]

@[simp] theorem strip_strip (cs : List Char) : strip (strip cs) = strip cs :=
  strip_eq_self (trimmed_strip cs)

theorem strip_eq_self_iff {cs : List Char} : strip cs = cs ↔ Trimmed cs :=
  ⟨fun h => h ▸ trimmed_strip cs, strip_eq_self⟩

theorem trimmed_trim (s : String) : Trimmed (trim s).toList := by
  rw [toList_trim]
  exact trimmed_strip _

theorem trim_trim (s : String) : trim (trim s) = trim s := by
  rw [← String.toList_inj, toList_trim, toList_trim, strip_strip]

theorem trim_ofList {cs : List Char} (h : Trimmed cs) :
    trim (String.ofList cs) = String.ofList cs := by
  unfold trim
  rw [String.toList_ofList, strip_eq_self h]

/-- A text is its trimmed form between blanks. -/
theorem exists_strip (cs : List Char) :
    ∃ lead trail, AllBlank lead ∧ AllBlank trail ∧ cs = lead ++ (strip cs ++ trail) := by
  obtain ⟨lead, hlead, h₁⟩ := exists_stripStart cs
  obtain ⟨trail, htrail, h₂⟩ := exists_stripEnd (stripStart cs)
  refine ⟨lead, trail, hlead, htrail, ?_⟩
  unfold strip
  rw [← h₂, ← h₁]

/-- A text that starts with no blank only loses blanks at its end. -/
theorem exists_strip_of_head {cs : List Char} (h : ∀ c ∈ cs.head?, isBlank c = false) :
    ∃ trail, AllBlank trail ∧ cs = strip cs ++ trail := by
  unfold strip
  rw [stripStart_eq_self h]
  exact exists_stripEnd cs

/-- A text of which nothing is left is blank. -/
theorem allBlank_of_strip {cs : List Char} (h : strip cs = []) : AllBlank cs := by
  obtain ⟨lead, trail, hlead, htrail, heq⟩ := exists_strip cs
  rw [heq, h, List.nil_append]
  exact hlead.append htrail

theorem allBlank_of_trim {s : String} (h : trim s = "") : AllBlank s.toList := by
  refine allBlank_of_strip ?_
  rw [← toList_trim, h]
  rfl

theorem infix_strip (cs : List Char) : strip cs <:+: cs := by
  obtain ⟨lead, trail, -, -, h⟩ := exists_strip cs
  exact ⟨lead, trail, by rw [List.append_assoc, ← h]⟩

theorem strip_append_right {trail : List Char} (h : AllBlank trail) (cs : List Char) :
    strip (cs ++ trail) = strip cs := by
  obtain ⟨lead, hlead, heq⟩ := exists_stripStart cs
  by_cases hcs : stripStart cs = []
  · have hall : AllBlank cs := by
      rw [heq, hcs, List.append_nil]
      exact hlead
    unfold strip
    rw [hcs, ← List.append_nil (cs ++ trail), stripStart_append (hall.append h)]
    rfl
  · unfold strip
    have : stripStart (cs ++ trail) = stripStart cs ++ trail := by
      unfold stripStart at hcs ⊢
      rw [List.dropWhile_append, if_neg (by simpa using hcs)]
    rw [this, stripEnd_append h]

theorem strip_append_left {lead : List Char} (h : AllBlank lead) (cs : List Char) :
    strip (lead ++ cs) = strip cs := by
  unfold strip
  rw [stripStart_append h]

/-! ## Words -/

/-- No blanks. -/
def NoBlank (cs : List Char) : Prop := ∀ c ∈ cs, isBlank c = false

theorem noBlank_firstWord (cs : List Char) : NoBlank (firstWord cs).1 := by
  intro c hc
  have := List.all_eq_true.1 (List.all_takeWhile (p := (!isBlank ·)) (l := stripStart cs)) c hc
  simpa using this

/-- What follows the first word has no blanks at its ends. -/
theorem trimmed_firstWord (cs : List Char) : Trimmed (firstWord cs).2 :=
  trimmed_strip _

/-- The first word of a text that a word and a blank start is that word. -/
theorem firstWord_append {word : List Char} (hword : NoBlank word) (hne : word ≠ [])
    {b : Char} (hb : isBlank b = true) (rest : List Char) :
    firstWord (word ++ b :: rest) = (word, strip (b :: rest)) := by
  have hstart : stripStart (word ++ b :: rest) = word ++ b :: rest := by
    obtain ⟨c, cs, rfl⟩ := List.exists_cons_of_ne_nil hne
    exact stripStart_eq_self fun d hd => hword d (by simp_all)
  have hall : ∀ c ∈ word, (!isBlank c) = true := fun c hc => by simp [hword c hc]
  unfold firstWord
  simp only [hstart]
  rw [List.takeWhile_append_of_pos hall, List.dropWhile_append_of_pos hall,
    List.takeWhile_cons_of_neg (by simp [hb]), List.dropWhile_cons_of_neg (by simp [hb]),
    List.append_nil]

theorem infix_firstWord_snd (cs : List Char) : (firstWord cs).2 <:+: cs :=
  ((infix_strip _).trans (List.dropWhile_suffix _).isInfix).trans
    (List.dropWhile_suffix _).isInfix

/-! ## Searching -/

theorem occursIn_iff {part cs : List Char} : occursIn part cs = true ↔ part <:+: cs := by
  induction cs with
  | nil => simp [occursIn]
  | cons c cs ih =>
    unfold occursIn
    rw [Bool.or_eq_true, List.isPrefixOf_iff_prefix, ih, List.infix_cons_iff]

end Keybinds.Text
