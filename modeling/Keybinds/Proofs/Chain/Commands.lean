import Keybinds.Proofs.Chain.Parts
import Mathlib.Data.List.Basic

/-!
# Commands cut out of a body

The commands of a body that `KeepsWordStarts` are canonical (`isCanonical_of_mem_split`), and joined
again they are cut as before (`split_join_split`). A canonical command is the only command of itself
(`split_of_isCanonical`).
-/

namespace Keybinds.Chain

open Text (AllBlank Trimmed isBlank isAsciiBlank strip)
open Cursor

/-- The commands that parts hold. -/
def commandsOf (parts : List (List Char)) : List (List Char) :=
  (parts.map strip).filter (!·.isEmpty)

theorem commandsOf_cons (p : List Char) (ps : List (List Char)) :
    commandsOf (p :: ps) = if strip p = [] then commandsOf ps else strip p :: commandsOf ps := by
  unfold commandsOf
  rw [List.map_cons, List.filter_cons]
  cases h : strip p <;> simp

theorem mem_commandsOf {c : List Char} {ps : List (List Char)} :
    c ∈ commandsOf ps ↔ c ≠ [] ∧ ∃ p ∈ ps, strip p = c := by
  unfold commandsOf
  rw [List.mem_filter, List.mem_map, and_comm]
  simp

theorem map_toList_split (body : String) :
    (split body).map String.toList = commandsOf (scan body).parts := by
  unfold split commandsOf
  induction (scan body).parts with
  | nil => rfl
  | cons p ps ih =>
    rw [List.map_cons, List.map_cons, List.filter_cons, List.filter_cons]
    cases h : strip p <;> simp_all

theorem split_eq_of_commandsOf {body : String} {commands : List String}
    (h : commandsOf (scan body).parts = commands.map String.toList) : split body = commands := by
  rw [← map_toList_split] at h
  exact List.map_injective_iff.2 (fun _ _ => String.toList_inj.1) h

theorem mem_split {body command : String} :
    command ∈ split body ↔
      command.toList ≠ [] ∧ ∃ p ∈ (scan body).parts, strip p = command.toList := by
  rw [← mem_commandsOf, ← map_toList_split]
  exact (List.mem_map_of_injective fun _ _ => String.toList_inj.1).symm

/-! ## Canonical commands -/

theorem Cuts.parts_ne_nil {cs : List Char} {ps : List (List Char)} {unterminated : Bool}
    (h : Cuts cs ps unterminated) : ps ≠ [] := by
  cases h <;> exact List.cons_ne_nil _ _

theorem Cuts.infix_of_mem {cs : List Char} {ps : List (List Char)} {unterminated : Bool}
    (h : Cuts cs ps unterminated) : ∀ p ∈ ps, p <:+: cs := by
  induction h with
  | last => simp
  | @more p q ps _ _ _ _ _ _ ih =>
    intro x hx
    rcases List.mem_cons.1 hx with rfl | hx
    · exact List.infix_append_left
    · exact (ih x hx).trans ⟨p ++ ['$', '$'], [], by simp⟩

theorem parts_of_advance {c : List Char} {t : Cursor} (h : Advance [] start c t) :
    (scanFrom .outside true c).parts = [c] := by
  rw [scanFrom_of_cuts (.last h)]

theorem Cuts.exists_advance {cs : List Char} {ps : List (List Char)} {unterminated : Bool}
    (h : Cuts cs ps unterminated) (hlen : ps.length ≤ 1) : ∃ t, Advance [] start cs t := by
  cases h with
  | last ht => exact ⟨_, ht⟩
  | more _ _ _ hq =>
    have := List.length_pos_iff.2 hq.parts_ne_nil
    rw [List.length_cons] at hlen
    omega

/-- A body without a separator that counts is gone over in one run. -/
theorem hasSeparator_eq_false_iff {command : String} :
    hasSeparator command = false ↔ ∃ t, Advance [] start command.toList t := by
  unfold hasSeparator Scan.separators
  rw [decide_eq_false_iff_not]
  constructor
  · intro h
    refine (cuts_scanFrom command.toList).exists_advance ?_
    change ¬ 0 < (scanFrom .outside true command.toList).parts.length - 1 at h
    omega
  · rintro ⟨t, ht⟩
    change ¬ 0 < (scanFrom .outside true command.toList).parts.length - 1
    rw [parts_of_advance ht]
    simp

theorem hasSeparator_eq_false_of_notMem {command : String} (h : '$' ∉ command.toList) :
    hasSeparator command = false := by
  refine hasSeparator_eq_false_iff.2 ?_
  rcases Advance.exists_or_cut start command.toList with hrun | ⟨p, q, t, hcut, -⟩
  · exact hrun
  · exact absurd (hcut ▸ List.mem_append_right _ List.mem_cons_self) h

theorem isCanonical_iff {command : String} :
    isCanonical command = true ↔
      command.toList ≠ [] ∧ Trimmed command.toList ∧ ∃ t, Advance [] start command.toList t := by
  unfold isCanonical
  rw [Bool.and_eq_true, Bool.and_eq_true, Bool.not_eq_true', Bool.not_eq_true',
    hasSeparator_eq_false_iff, beq_iff_eq, and_assoc, ← Text.strip_eq_self_iff,
    ← String.toList_inj, Text.toList_trim]
  simp

/-- A canonical command is the only command of itself. -/
theorem split_of_isCanonical {command : String} (h : isCanonical command = true) :
    split command = [command] := by
  obtain ⟨hne, htrim, t, ht⟩ := isCanonical_iff.1 h
  refine split_eq_of_commandsOf ?_
  change commandsOf (scanFrom .outside true command.toList).parts = _
  rw [parts_of_advance ht, commandsOf_cons, Text.strip_eq_self htrim, if_neg hne]
  rfl

/-- Cutting changes no chain of canonical commands. -/
theorem flatMap_split_of_isCanonical {chain : List String}
    (h : ∀ s ∈ chain, isCanonical s = true) : chain.flatMap split = chain := by
  induction chain with
  | nil => rfl
  | cons s chain ih =>
    rw [List.forall_mem_cons] at h
    rw [List.flatMap_cons, split_of_isCanonical h.1, ih h.2]
    rfl

/-- A part of a body that keeps word starts is gone over on its own. -/
theorem Cuts.advance_strip {cs : List Char} {ps : List (List Char)} {unterminated : Bool}
    (h : Cuts cs ps unterminated) (hcs : KeepsWordStarts cs) :
    ∀ p ∈ ps, strip p ≠ [] → ∃ t, Advance [] start (strip p) t := by
  induction h with
  | last ht =>
    intro p hp hne
    obtain rfl := List.mem_singleton.1 hp
    obtain ⟨trail, m, htrail, hm, -⟩ := ht.exists_strip hcs hne
    rw [List.append_nil] at hm
    exact ⟨m, hm.drop_blanks trivial htrail⟩
  | @more p q ps _ t ht _ hout _ ih =>
    intro x hx hne
    rcases List.mem_cons.1 hx with rfl | hx
    · obtain ⟨trail, m, htrail, hm, hq⟩ := ht.exists_strip (hcs.mono List.infix_append_left) hne
      refine ⟨m, hm.change_ahead trivial (hq.trans hout)
        ((AllBlank.noQuoteAhead htrail).append (noQuoteAhead_dollar _)) (by simp [BlankAhead]) ?_⟩
      intro c _ _ hin
      exact absurd hin.length_le (by simp)
    · exact ih (hcs.mono ⟨p ++ ['$', '$'], [], by simp⟩) x hx hne

/-- The commands of a body that keeps word starts are canonical. -/
theorem isCanonical_of_mem_split {body : String} (hbody : KeepsWordStarts body.toList)
    {command : String} (h : command ∈ split body) : isCanonical command = true := by
  obtain ⟨hne, p, hp, heq⟩ := mem_split.1 h
  rw [isCanonical_iff, ← heq]
  rw [← heq] at hne
  exact ⟨hne, Text.trimmed_strip p, (cuts_scanFrom body.toList).advance_strip hbody p hp hne⟩

theorem infix_of_mem_split {body command : String} (h : command ∈ split body) :
    command.toList <:+: body.toList := by
  obtain ⟨-, p, hp, heq⟩ := mem_split.1 h
  rw [← heq]
  exact (Text.infix_strip p).trans ((cuts_scanFrom body.toList).infix_of_mem p hp)

/-- A blank body has no commands. -/
theorem split_of_allBlank {body : String} (h : Text.AllBlank body.toList) : split body = [] := by
  refine List.eq_nil_iff_forall_not_mem.2 fun command hcommand => ?_
  obtain ⟨hne, p, -, hp⟩ := mem_split.1 hcommand
  obtain ⟨c, rest, hc⟩ := List.exists_cons_of_ne_nil hne
  have hblank : isBlank c = true := by
    refine h c ((infix_of_mem_split hcommand).subset ?_)
    rw [hc]
    exact List.mem_cons_self
  rw [(Text.trimmed_strip p).1 c (by rw [hp, hc]; rfl)] at hblank
  cases hblank

/-! ## Joining -/

/-- Commands with a written separator between each two. -/
def joinChars (commands : List (List Char)) : List Char :=
  [' ', '$', '$', ' '].intercalate commands

theorem joinChars_singleton (c : List Char) : joinChars [c] = c := by
  unfold joinChars
  rw [List.intercalate_singleton]

theorem joinChars_cons {c : List Char} {rest : List (List Char)} (h : rest ≠ []) :
    joinChars (c :: rest) = c ++ ' ' :: '$' :: '$' :: ' ' :: joinChars rest := by
  unfold joinChars
  rw [List.intercalate_cons_of_ne_nil h]
  simp

theorem toList_join (commands : List String) :
    (join commands).toList = joinChars (commands.map String.toList) := by
  unfold join joinChars
  rw [String.toList_intercalate]
  rfl

theorem pair_infix_of_cons {c d : Char} (h : d ≠ c) {cs : List Char} (hin : [c, c] <:+: d :: cs) :
    [c, c] <:+: cs := by
  rcases List.infix_cons_iff.1 hin with ⟨w, hw⟩ | hin
  · exact absurd (List.cons.inj hw).1.symm h
  · exact hin

/-- A pair of quotes in joined commands stands in one of them. -/
theorem exists_pair_infix_of_joinChars {c : Char} (hc : IsQuote c) {commands : List (List Char)}
    (h : [c, c] <:+: joinChars commands) : ∃ x ∈ commands, [c, c] <:+: x := by
  induction commands with
  | nil => exact absurd h.length_le (by simp [joinChars])
  | cons x rest ih =>
    by_cases hrest : rest = []
    · subst hrest
      exact ⟨x, List.mem_cons_self, by simpa [joinChars] using h⟩
    · have hspace : ' ' ≠ c := by rcases hc with rfl | rfl <;> decide
      have hblunt : NoQuoteAhead (' ' :: '$' :: '$' :: ' ' :: joinChars rest) := by
        rintro d ⟨rfl⟩ hd
        rcases hd with h | h <;> exact absurd h (by decide)
      rw [joinChars_cons hrest, pair_infix_append_iff hc hblunt] at h
      rcases h with h | h
      · exact ⟨x, List.mem_cons_self, h⟩
      · have h := pair_infix_of_cons hspace (pair_infix_of_cons hc.ne_dollar.symm
          (pair_infix_of_cons hc.ne_dollar.symm (pair_infix_of_cons hspace h)))
        obtain ⟨y, hy, hin⟩ := ih h
        exact ⟨y, List.mem_cons_of_mem x hy, hin⟩

/-- A space in front of a body adds no command. -/
theorem commandsOf_space (cs : List Char) :
    commandsOf (scanFrom .outside true (' ' :: cs)).parts =
      commandsOf (scanFrom .outside true cs).parts := by
  have hspace : isBlank ' ' = true := rfl
  have hnext : start.next ' ' cs = start := next_of_isBlank (s := start) trivial hspace cs
  have hscan := scan_cons (s := start) trivial (not_atSeparator_of_isBlank start hspace cs)
  rw [hnext, scan_start, scan_start] at hscan
  rw [hscan]
  unfold Scan.cons
  cases (scanFrom .outside true cs).parts with
  | nil => rfl
  | cons p ps =>
    have hblank : AllBlank [' '] := fun c hc => List.mem_singleton.1 hc ▸ hspace
    have hstrip : strip (' ' :: p) = strip p := Text.strip_append_left hblank p
    show commandsOf ((' ' :: p) :: ps) = commandsOf (p :: ps)
    rw [commandsOf_cons, commandsOf_cons, hstrip]

/-- A body whose front is gone over with no region open at its end holds the commands of the front
and those behind the separator. -/
theorem commandsOf_separator {c rest : List Char} {m : Cursor}
    (h : Advance (' ' :: '$' :: '$' :: ' ' :: rest) start c m) (hm : m.quoting = .outside) :
    commandsOf (scanFrom .outside true (c ++ ' ' :: '$' :: '$' :: ' ' :: rest)).parts =
      commandsOf [c] ++ commandsOf (scanFrom .outside true rest).parts := by
  have hblank : AllBlank [' '] := by
    intro d hd
    obtain rfl := List.mem_singleton.1 hd
    rfl
  have hspace := Advance.overBlanks ('$' :: '$' :: ' ' :: rest) (h.regular trivial) hblank
  have hc : Advance ('$' :: '$' :: ' ' :: rest) start (c ++ [' ']) (m.overBlanks [' ']) :=
    Advance.append_iff.2 ⟨m, h, hspace⟩
  have hcuts := Cuts.more hc rfl hm (cuts_scanFrom (' ' :: rest))
  have hparts := congrArg Scan.parts (scanFrom_of_cuts hcuts)
  rw [List.append_assoc] at hparts
  change (scanFrom .outside true (c ++ ' ' :: '$' :: '$' :: ' ' :: rest)).parts = _ at hparts
  rw [hparts, commandsOf_cons, commandsOf_space, Text.strip_append_right hblank, commandsOf_cons]
  split <;> rfl

/-- The commands of a body that keeps word starts are cut again where they were joined. -/
theorem Cuts.rejoin {cs : List Char} {ps : List (List Char)} {unterminated : Bool}
    (h : Cuts cs ps unterminated) (hcs : KeepsWordStarts cs) :
    commandsOf (scanFrom .outside true (joinChars (commandsOf ps))).parts = commandsOf ps := by
  have single : ∀ {p : List Char}, strip p ≠ [] → (∃ t, Advance [] start (strip p) t) →
      commandsOf (scanFrom .outside true (joinChars [strip p])).parts = [strip p] := by
    rintro p hne ⟨t, ht⟩
    rw [joinChars_singleton, parts_of_advance ht, commandsOf_cons, Text.strip_strip, if_neg hne]
    rfl
  have hadv := h.advance_strip hcs
  induction h with
  | @last cs t ht =>
    rw [commandsOf_cons]
    split_ifs with hne
    · rfl
    · exact single hne (hadv cs List.mem_cons_self hne)
  | @more p q ps _ t ht _ hout hq ih =>
    have hkq : KeepsWordStarts q := hcs.mono ⟨p ++ ['$', '$'], [], by simp⟩
    have ih := ih hkq fun x hx => hadv x (List.mem_cons_of_mem p hx)
    rw [commandsOf_cons]
    split_ifs with hne
    · exact ih
    · by_cases hrest : commandsOf ps = []
      · rw [hrest]
        exact single hne (hadv p List.mem_cons_self hne)
      · obtain ⟨trail, m, htrail, hm, hmq⟩ :=
          ht.exists_strip (hcs.mono List.infix_append_left) hne
        have hm' := hm.change_ahead (g := ' ' :: '$' :: '$' :: ' ' :: joinChars (commandsOf ps))
          trivial (hmq.trans hout) ((AllBlank.noQuoteAhead htrail).append (noQuoteAhead_dollar _))
          (by rintro c ⟨rfl⟩; rfl) ?_
        · rw [joinChars_cons hrest, commandsOf_separator hm' (hmq.trans hout), ih,
            commandsOf_cons, Text.strip_strip, if_neg hne]
          rfl
        · -- a pair of quotes in a later command stood behind the separator already
          intro c hc _ hin
          have hspace : ' ' ≠ c := by rcases hc with rfl | rfl <;> decide
          have hin := pair_infix_of_cons hspace (pair_infix_of_cons hc.ne_dollar.symm
            (pair_infix_of_cons hc.ne_dollar.symm (pair_infix_of_cons hspace hin)))
          obtain ⟨x, hx, hin⟩ := exists_pair_infix_of_joinChars hc hin
          obtain ⟨-, y, hy, rfl⟩ := mem_commandsOf.1 hx
          exact ((hin.trans (Text.infix_strip y)).trans (hq.infix_of_mem y hy)).trans
            ⟨trail ++ ['$', '$'], [], by simp⟩

/-- Joined again, the commands of a body that keeps word starts are cut as before. -/
theorem split_join_split {body : String} (hbody : KeepsWordStarts body.toList) :
    split (join (split body)) = split body := by
  refine split_eq_of_commandsOf ?_
  change commandsOf (scanFrom .outside true (join (split body)).toList).parts = _
  rw [toList_join, map_toList_split]
  exact (cuts_scanFrom body.toList).rejoin hbody

/-- The commands of a body that keeps word starts are canonical, and joined again they are cut as
before. -/
theorem split_stable {body : String} (hbody : KeepsWordStarts body.toList) :
    (∀ command ∈ split body, isCanonical command = true) ∧
      split (join (split body)) = split body :=
  ⟨fun _ => isCanonical_of_mem_split hbody, split_join_split hbody⟩

/-- A body with an empty string in front of a quote, an empty part, a quoted separator, and a quote
that is open at the end, where it holds a separator and ends in a backslash. -/
theorem split_stable_openQuote :
    let body := "say \"\"' $$ \t$$ emote 'a $$ b'' $$ \u00a0x\\ $$ \"\"c $$ \"open $$ d\\"
    KeepsWordStarts body.toList ∧ (∀ command ∈ split body, isCanonical command = true) ∧
      split (join (split body)) = split body := by
  intro body
  have hbody : KeepsWordStarts body.toList := by decide +kernel
  exact ⟨hbody, split_stable hbody⟩

end Keybinds.Chain
