import Keybinds.Proofs.Chain.Commands

/-!
# Well-quoted commands

A doubled quote with a word at once behind it looks for its like in the whole rest of the body, and
an open region swallows what follows. A front with neither is cut in a longer body as on its own,
and a written separator behind it parts its commands from those of any text
(`Cuts.commandsOf_append_separator`). A command with neither, which is well quoted, is one of those
that close: in front of a blank they are gone over to the outside of quotes, whatever comes then.
Any chain of commands that close is cut again where it was joined (`split_join_of_closes`).
-/

namespace Keybinds.Chain

open Text (isAsciiBlank)
open Cursor

/-- No pair of quotes has anything but an ASCII blank or a quote directly behind it. -/
def NoGluedPair (cs : List Char) : Prop :=
  ∀ q c, IsQuote q → [q, q, c] <:+: cs → isAsciiBlank c = true ∨ IsQuote c

theorem NoGluedPair.mono {u v : List Char} (h : NoGluedPair v) (huv : u <:+: v) : NoGluedPair u :=
  fun q c hq hin => h q c hq (hin.trans huv)

theorem triple_infix_iff_mem_zip {a b c : Char} {cs : List Char} :
    [a, b, c] <:+: cs ↔ (a, b, c) ∈ cs.zip (cs.tail.zip cs.tail.tail) := by
  induction cs with
  | nil => simp
  | cons d cs ih =>
    rw [List.infix_cons_iff, ih]
    cases cs with
    | nil => simp [List.cons_prefix_cons]
    | cons e cs =>
      cases cs with
      | nil => simp [List.cons_prefix_cons]
      | cons f cs => simp [List.cons_prefix_cons]

instance (c : Char) : Decidable (IsQuote c) := inferInstanceAs (Decidable (_ ∨ _))

/-- The rule for each three adjacent characters. -/
theorem noGluedPair_iff {cs : List Char} :
    NoGluedPair cs ↔ ∀ t ∈ cs.zip (cs.tail.zip cs.tail.tail), IsQuote t.1 → t.2.1 = t.1 →
      isAsciiBlank t.2.2 = true ∨ IsQuote t.2.2 := by
  unfold NoGluedPair
  simp only [triple_infix_iff_mem_zip]
  constructor
  · rintro h ⟨q, q', c⟩ ht hq heq
    obtain rfl : q' = q := heq
    exact h q' c hq ht
  · intro h q c hq ht
    exact h (q, q, c) ht hq rfl

instance : DecidablePred NoGluedPair := fun _ => decidable_of_iff _ noGluedPair_iff.symm

/-! ## Pairs that open nothing -/

theorem wordFollows_cons_eq_false {c : Char} (h : isAsciiBlank c = true ∨ IsQuote c)
    (cs : List Char) : wordFollows (c :: cs) = false := by
  unfold wordFollows
  rcases h with h | rfl | rfl
  · simp [h]
  · simp
  · simp

/-- No word follows a pair of quotes, whatever stands behind an ASCII blank. -/
theorem NoGluedPair.wordFollows_append {q : Char} (hq : IsQuote q) {cs g : List Char}
    (h : NoGluedPair (q :: q :: cs)) (hg : BlankAhead g) : wordFollows (cs ++ g) = false := by
  cases cs with
  | nil => exact wordFollows_of_blankAhead hg
  | cons c cs => exact wordFollows_cons_eq_false (h q c hq ⟨[], cs, rfl⟩) (cs ++ g)

/-- A step on a text in which no pair of quotes opens a region does not see what is put behind the
text, if that starts with an ASCII blank. -/
theorem Cursor.next_append {s : Cursor} (hs : s.quoting.Regular) {c : Char} {rest g : List Char}
    (hrest : NoGluedPair (c :: rest)) (hg : BlankAhead g) :
    s.next c (rest ++ g) = s.next c rest := by
  refine next_congr hs (fun hq => ?_) fun _ hq hhead => ?_
  · have hiff : (rest ++ g).head? = some c ↔ (rest ++ []).head? = some c :=
      head?_append_eq_quote_iff hq hg.noQuoteAhead blankAhead_nil.noQuoteAhead
    rwa [List.append_nil] at hiff
  · cases rest with
    | nil => exact absurd hq (hg.noQuoteAhead c hhead)
    | cons d rest =>
      obtain rfl : d = c := Option.some.inj hhead
      -- both sides of the pair's test fail at once, so its look at the rest does not count
      have hword := hrest.wordFollows_append hq hg
      have hword' := hrest.wordFollows_append hq blankAhead_nil
      rw [List.append_nil] at hword'
      refine afterPair_congr ?_
      rw [List.cons_append, List.tail_cons, List.tail_cons, hword, hword']
      simp

/-- The cursor does not notice that the text ahead goes on behind a blank, if no pair of quotes in
the part and in that text opens a region. -/
theorem Advance.append_ahead {f g : List Char} {s t : Cursor} {p : List Char}
    (h : Advance f s p t) (hs : s.quoting.Regular) (hp : NoGluedPair (p ++ f))
    (hg : BlankAhead g) : Advance (f ++ g) s p t := by
  induction h with
  | nil s => exact .nil s
  | @cons s t c cs hc h ih =>
    have hdollar : ∀ d ∈ g.head?, d ≠ '$' := by
      rintro d hd rfl
      exact Bool.noConfusion (hg '$' hd)
    have hnext : s.next c (cs ++ (f ++ g)) = s.next c (cs ++ f) := by
      rw [← List.append_assoc]
      exact next_append hs hp hg
    have hstep : ¬ s.AtSeparator (c :: (cs ++ (f ++ g))) := by
      rw [← List.append_assoc]
      exact atSeparator_cons_append (f := []) hdollar (by rwa [List.append_nil])
    refine .cons hstep ?_
    rw [hnext]
    exact ih (regular_next hs _ _) (hp.mono (List.suffix_cons c (cs ++ f)).isInfix)

/-! ## Cutting in front of a separator -/

/-- A front that ends outside of quotes and in which no pair of quotes opens a region is cut as on
its own, and what stands behind the separator as at the start of a body. -/
theorem Cuts.commandsOf_append_separator {cs : List Char} {ps : List (List Char)}
    (h : Cuts cs ps false) (hcs : NoGluedPair cs) (rest : List Char) :
    commandsOf (scanFrom .outside true (cs ++ ' ' :: '$' :: '$' :: ' ' :: rest)).parts =
      commandsOf ps ++ commandsOf (scanFrom .outside true rest).parts := by
  have hblank : BlankAhead (' ' :: '$' :: '$' :: ' ' :: rest) := blankAhead_space _
  generalize hend : false = unterminated at h
  induction h with
  | @last cs t ht =>
    have hout : t.quoting = .outside := by simpa using hend.symm
    have hmore := ht.append_ahead trivial (by rwa [List.append_nil]) hblank
    exact commandsOf_separator hmore hout
  | @more p q ps _ t ht hheld hout _ ih =>
    have hq := ih (hcs.mono ⟨p ++ ['$', '$'], [], by simp⟩) hend
    have hcuts : Cuts (p ++ '$' :: '$' :: (q ++ ' ' :: '$' :: '$' :: ' ' :: rest)) _ _ :=
      .more (ht.append_ahead trivial hcs hblank) hheld hout (cuts_scanFrom _)
    rw [List.append_assoc, List.cons_append, List.cons_append, scanFrom_of_cuts hcuts,
      commandsOf_cons, commandsOf_cons, hq]
    split_ifs <;> rfl

/-- Behind a front that ends outside of quotes and in which no pair of quotes opens a region, a
written separator parts the commands: those of the front come first, then those of whatever text
stands behind. -/
theorem split_append_separator {a b : String} (hend : (scan a).unterminated = false)
    (hpair : NoGluedPair a.toList) :
    split (a ++ writtenSeparator ++ b) = split a ++ split b := by
  have hcuts : Cuts a.toList (scan a).parts false := hend ▸ cuts_scanFrom a.toList
  refine split_eq_of_commandsOf ?_
  rw [List.map_append, map_toList_split, map_toList_split]
  show commandsOf (scanFrom .outside true (a ++ writtenSeparator ++ b).toList).parts = _
  rw [String.toList_append, String.toList_append, List.append_assoc]
  exact hcuts.commandsOf_append_separator hpair b.toList

/-- The front has an empty string, a quoted separator, a dollar sign in front of a separator and a
backslash at its end, which takes the blank of the written separator; behind it stand a quote that
closes nothing, a doubled quote that is glued to a word, and a quote that is left open. -/
theorem split_append_separator_escapedBlank :
    let a := "say \"\" $$ emote 'a $$ b'$$$ don't\\"
    let b := "'c $$ d' $$ \"\"e $$ f\"\" $$ \"g $$ h\\"
    (scan a).unterminated = false ∧ NoGluedPair a.toList ∧
      split (a ++ writtenSeparator ++ b) = split a ++ split b := by
  intro a b
  have hend : (scan a).unterminated = false := by decide +kernel
  have hpair : NoGluedPair a.toList := by decide +kernel
  exact ⟨hend, hpair, split_append_separator hend hpair⟩

/-! ## Commands that close -/

/-- In front of a blank, the command is gone over with no region open behind it, whatever follows
the blank. -/
def Closes (command : String) : Prop :=
  ∀ g, BlankAhead g → ∃ t, Advance g start command.toList t ∧ t.quoting = .outside

theorem commandsOf_of_isCanonical {command : String} (h : isCanonical command = true) :
    commandsOf [command.toList] = [command.toList] := by
  obtain ⟨hne, htrim, -⟩ := isCanonical_iff.1 h
  rw [commandsOf_cons, Text.strip_eq_self htrim, if_neg hne]
  rfl

/-- A chain of commands that close is cut again where it was joined. -/
theorem split_join_of_closes {chain : List String}
    (h : ∀ s ∈ chain, isCanonical s = true ∧ Closes s) : split (join chain) = chain := by
  refine split_eq_of_commandsOf ?_
  change commandsOf (scanFrom .outside true (join chain).toList).parts = _
  rw [toList_join]
  induction chain with
  | nil => rfl
  | cons s chain ih =>
    rw [List.forall_mem_cons] at h
    have ih := ih h.2
    have halone := commandsOf_of_isCanonical h.1.1
    rw [List.map_cons]
    by_cases hchain : chain.map String.toList = []
    · obtain ⟨-, -, t, ht⟩ := isCanonical_iff.1 h.1.1
      rw [hchain, joinChars_singleton, parts_of_advance ht, halone]
    · obtain ⟨m, hm, hout⟩ := h.1.2 (' ' :: '$' :: '$' :: ' ' :: joinChars
        (chain.map String.toList)) (blankAhead_space _)
      rw [joinChars_cons hchain, commandsOf_separator hm hout, ih, halone]
      rfl

/-- A canonical command that leaves no region open and in which no pair of quotes opens one. -/
structure IsWellQuoted (command : String) : Prop where
  canonical : isCanonical command = true
  terminated : (scan command).unterminated = false
  noGluedPair : NoGluedPair command.toList

theorem isWellQuoted_iff {command : String} :
    IsWellQuoted command ↔ isCanonical command = true ∧ (scan command).unterminated = false ∧
      NoGluedPair command.toList :=
  ⟨fun h => ⟨h.1, h.2, h.3⟩, fun h => ⟨h.1, h.2.1, h.2.2⟩⟩

instance : DecidablePred IsWellQuoted := fun _ => decidable_of_iff _ isWellQuoted_iff.symm

/-- A command in one part is terminated just if no region is open behind it. -/
theorem unterminated_of_advance {command : String} {t : Cursor}
    (h : Advance [] start command.toList t) :
    (scan command).unterminated = (t.quoting != .outside) := by
  show (scanFrom .outside true command.toList).unterminated = _
  rw [scanFrom_of_cuts (.last h)]

theorem IsWellQuoted.closes {command : String} (h : IsWellQuoted command) : Closes command := by
  intro g hg
  obtain ⟨-, -, t, ht⟩ := isCanonical_iff.1 h.canonical
  have hend := unterminated_of_advance ht
  rw [h.terminated] at hend
  have hpair : NoGluedPair (command.toList ++ []) := by
    rw [List.append_nil]
    exact h.noGluedPair
  exact ⟨t, ht.append_ahead trivial hpair hg, by simpa using hend.symm⟩

/-- A chain of well-quoted commands is cut again where it was joined. -/
theorem split_join_of_wellQuoted {chain : List String} (h : ∀ s ∈ chain, IsWellQuoted s) :
    split (join chain) = chain :=
  split_join_of_closes fun s hs => ⟨(h s hs).canonical, (h s hs).closes⟩

end Keybinds.Chain
