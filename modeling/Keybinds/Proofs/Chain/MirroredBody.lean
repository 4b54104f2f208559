import Keybinds.Chain.Mirror
import Keybinds.Proofs.Chain.WellQuoted

/-!
# Mirrored bodies

A mirrored body gives its chain back just if it is cut at all the places where it was joined, and
for this every command has to close. In the first half a command stands in front of its own copy,
and so in front of every pair of quotes that one of its own pairs may look for: if it closes there,
it closes in front of any text (`closes_of_advance`). Hence the command written twice tells whether
it closes (`closes_iff`), whatever chain it is in.
-/

namespace Keybinds.Chain

open Text (AllBlank Trimmed isBlank strip)
open Cursor

/-! ## Commands in front of their copies -/

/-- A command that closes in front of a copy of itself closes in front of any text. -/
theorem closes_of_advance {command : String} {f : List Char} {t : Cursor}
    (h : Advance f start command.toList t) (ht : t.quoting = .outside) (hf : NoQuoteAhead f)
    (hcopy : command.toList <:+: f) : Closes command :=
  fun _ hg => ⟨t, h.change_ahead trivial ht hf hg fun _ _ hin _ => hin.trans hcopy, ht⟩

theorem Closes.terminated {command : String} (h : Closes command) :
    (scan command).unterminated = false := by
  obtain ⟨t, ht, hout⟩ := h [] blankAhead_nil
  rw [unterminated_of_advance ht, hout]
  rfl

theorem infix_joinChars {c : List Char} {cs : List (List Char)} (h : c ∈ cs) :
    c <:+: joinChars cs := by
  induction cs with
  | nil => cases h
  | cons d cs ih =>
    by_cases hcs : cs = []
    · subst hcs
      simp [joinChars_singleton, List.mem_singleton.1 h]
    · rw [joinChars_cons hcs]
      rcases List.mem_cons.1 h with rfl | h
      · exact List.infix_append_left
      · exact (ih h).trans ⟨d ++ [' ', '$', '$', ' '], [], by simp⟩

/-! ## Commands that are cut out -/

theorem length_commandsOf_le (ps : List (List Char)) : (commandsOf ps).length ≤ ps.length := by
  unfold commandsOf
  exact Nat.le_trans (List.length_filter_le _ _) (Nat.le_of_eq (List.length_map _))

/-- Only the one blank of a written separator stands in front of it. -/
theorem blank_of_writtenSeparator {trail q rest : List Char} (htrail : AllBlank trail)
    (h : trail ++ '$' :: '$' :: q = ' ' :: '$' :: '$' :: ' ' :: rest) :
    trail = [' '] ∧ q = ' ' :: rest := by
  cases trail with
  | nil => exact absurd (List.cons.inj h).1 (by decide)
  | cons b trail =>
    obtain ⟨rfl, hbehind⟩ := List.cons.inj h
    cases trail with
    | nil => exact ⟨rfl, (List.cons.inj (List.cons.inj hbehind).2).2⟩
    | cons d trail =>
      obtain rfl : d = '$' := (List.cons.inj hbehind).1
      exact absurd (htrail '$' (by simp)) (by decide)

/-- A command in one part starts with no separator. -/
theorem separator_ne_of_advance {c : List Char} {t : Cursor} (h : Advance [] start c t)
    (hne : c ≠ []) (q rest : List Char) : '$' :: '$' :: q ≠ c ++ ' ' :: rest := by
  intro heq
  cases h with
  | nil => exact hne rfl
  | @cons _ _ x xs hstep _ =>
    obtain ⟨rfl, hxs⟩ := List.cons.inj heq
    cases xs with
    | nil => exact absurd (List.cons.inj hxs).1 (by decide)
    | cons y ys =>
      obtain ⟨rfl, -⟩ := List.cons.inj hxs
      exact hstep ⟨rfl, rfl, _, rfl⟩

/-- A canonical command that is cut out in front of a written separator was gone over to the outside
of quotes. -/
theorem exists_advance_of_commandsOf {command : String} (hcanonical : isCanonical command = true)
    {rest : List Char} {ds : List (List Char)} (hds : ds ≠ [])
    (h : commandsOf (scanFrom .outside true
      (command.toList ++ ' ' :: '$' :: '$' :: ' ' :: rest)).parts = command.toList :: ds) :
    ∃ t, Advance (' ' :: '$' :: '$' :: ' ' :: rest) start command.toList t ∧
      t.quoting = .outside := by
  obtain ⟨hne, htrim, t₀, ht₀⟩ := isCanonical_iff.1 hcanonical
  generalize command.toList = c at *
  obtain ⟨ps, unterminated, hcuts⟩ := exists_cuts (c ++ ' ' :: '$' :: '$' :: ' ' :: rest)
  rw [scanFrom_of_cuts hcuts] at h
  generalize hbody : c ++ ' ' :: '$' :: '$' :: ' ' :: rest = body at hcuts
  cases hcuts with
  | last _ =>
    have hlen := length_commandsOf_le [body]
    have hmore := List.length_pos_iff.2 hds
    rw [h, List.length_cons, List.length_singleton] at hlen
    omega
  | @more p q ps _ t ht _ hout _ =>
    have hhead : ∀ b ∈ p.head?, isBlank b = false := by
      intro b hb
      have hfirst := Text.head?_of_append (v := '$' :: '$' :: q) hb
      rw [← hbody, List.head?_append_of_ne_nil _ hne] at hfirst
      exact htrim.1 b hfirst
    obtain ⟨trail, htrail, hp⟩ := Text.exists_strip_of_head hhead
    have hpart : strip p ≠ [] := by
      intro hempty
      rw [hempty, List.nil_append] at hp
      subst hp
      cases p with
      | nil => exact separator_ne_of_advance ht₀ hne _ _ hbody.symm
      | cons b p =>
        have hb := hhead b rfl
        rw [htrail b List.mem_cons_self] at hb
        cases hb
    rw [commandsOf_cons, if_neg hpart] at h
    rw [(List.cons.inj h).1] at hp
    subst hp
    rw [List.append_assoc] at hbody
    obtain ⟨rfl, rfl⟩ := blank_of_writtenSeparator htrail (List.append_cancel_left hbody).symm
    obtain ⟨m, hm, hblank⟩ := Advance.append_iff.1 ht
    obtain rfl := hblank.unique (Advance.overBlanks _ (hm.regular trivial) htrail)
    exact ⟨m, hm, (Advance.quoting_overBlanks m _).symm.trans hout⟩

/-- In a chain of canonical commands that is cut again where it was joined, each command but the
last is gone over to the outside of quotes, with those behind it ahead. -/
theorem exists_advance_of_commandsOf_join {chain : List String}
    (hchain : ∀ s ∈ chain, isCanonical s = true)
    (h : commandsOf (scanFrom .outside true (joinChars (chain.map String.toList))).parts =
      chain.map String.toList)
    {u v : List String} {s : String} (heq : chain = u ++ s :: v) (hv : v ≠ []) :
    ∃ t, Advance (' ' :: '$' :: '$' :: ' ' :: joinChars (v.map String.toList)) start s.toList t ∧
      t.quoting = .outside := by
  induction u generalizing chain with
  | nil =>
    subst heq
    have hv' : v.map String.toList ≠ [] := by simpa using hv
    rw [List.nil_append, List.map_cons, joinChars_cons hv'] at h
    exact exists_advance_of_commandsOf (hchain s (by simp)) hv' h
  | cons x u ih =>
    subst heq
    have hrest : (u ++ s :: v).map String.toList ≠ [] := by simp
    have hx := hchain x (by simp)
    rw [List.cons_append, List.map_cons, joinChars_cons hrest] at h
    obtain ⟨t, ht, hout⟩ := exists_advance_of_commandsOf hx hrest h
    rw [commandsOf_separator ht hout, commandsOf_of_isCanonical hx] at h
    exact ih (fun y hy => hchain y (List.mem_cons_of_mem x hy)) (List.cons.inj h).2 rfl

/-- A command with a copy of itself behind it, in a chain of canonical commands that is cut again
where it was joined, closes. -/
theorem closes_of_split_join {chain : List String} (hchain : ∀ s ∈ chain, isCanonical s = true)
    (h : split (join chain) = chain) {u v : List String} {s : String}
    (heq : chain = u ++ s :: v) (hs : s ∈ v) : Closes s := by
  have hparts : commandsOf (scanFrom .outside true (joinChars (chain.map String.toList))).parts =
      chain.map String.toList := by
    have hsplit := map_toList_split (join chain)
    rw [h] at hsplit
    rw [← toList_join]
    exact hsplit.symm
  obtain ⟨t, ht, hout⟩ :=
    exists_advance_of_commandsOf_join hchain hparts heq (List.ne_nil_of_mem hs)
  exact closes_of_advance ht hout (blankAhead_space _).noQuoteAhead
    ((infix_joinChars (List.mem_map_of_mem hs)).trans ⟨[' ', '$', '$', ' '], [], by simp⟩)

/-- A canonical command closes just if it is cut from a copy of itself. -/
theorem closes_iff {command : String} (h : isCanonical command = true) :
    Closes command ↔ split (join [command, command]) = [command, command] := by
  have hboth : ∀ s ∈ [command, command], isCanonical s = true := by
    intro s hs
    obtain rfl : s = command := by simpa using hs
    exact h
  constructor
  · intro hcloses
    refine split_join_of_closes fun s hs => ⟨hboth s hs, ?_⟩
    obtain rfl : s = command := by simpa using hs
    exact hcloses
  · intro hsplit
    exact closes_of_split_join (u := []) hboth hsplit rfl (List.mem_singleton_self command)

/-! ## Taking mirrored bodies apart -/

/-- A mirrored body gives a chain back just if it is cut where its commands were joined. -/
theorem halfOfBody_mirroredBody_iff {chain : List String} (hne : chain ≠ []) :
    halfOfBody? (mirroredBody chain) = some chain ↔
      split (join (mirror chain)) = mirror chain := by
  unfold halfOfBody? mirroredBody
  rw [half?_eq_some_iff]
  refine ⟨fun h => h.2, fun h => ⟨?_, h⟩⟩
  rw [h]
  simp [mirror, hne]

/-- The chains that a mirrored body gives back are those of commands that close. -/
theorem halfOfBody_mirroredBody_iff_closes {chain : List String} (hne : chain ≠ [])
    (hchain : ∀ s ∈ chain, isCanonical s = true) :
    halfOfBody? (mirroredBody chain) = some chain ↔ ∀ s ∈ chain, Closes s := by
  have hmem : ∀ {s}, s ∈ mirror chain ↔ s ∈ chain := by simp [mirror]
  rw [halfOfBody_mirroredBody_iff hne]
  constructor
  · intro h s hs
    obtain ⟨u, v, huv⟩ := List.append_of_mem hs
    -- behind the command in the first half, the second half has all of the chain
    refine closes_of_split_join (fun x hx => hchain x (hmem.1 hx)) h
      (u := u) (v := v ++ chain.reverse) ?_ (by simp [hs])
    unfold mirror
    conv_lhs => rw [huv]
    rw [huv, List.append_assoc, List.cons_append]
  · intro h
    exact split_join_of_closes fun s hs => ⟨hchain s (hmem.1 hs), h s (hmem.1 hs)⟩

/-- A chain of canonical commands is taken from its mirrored body just if each command is cut from a
copy of itself. For this it is enough that the command leaves no region open and has no doubled
quote that is glued to a word, and the first of these is needed. -/
theorem mirroredBody_recovers_iff {chain : List String} (hne : chain ≠ [])
    (hchain : ∀ s ∈ chain, isCanonical s = true) :
    (halfOfBody? (mirroredBody chain) = some chain ↔
      ∀ s ∈ chain, split (join [s, s]) = [s, s]) ∧
    ∀ s ∈ chain,
      ((scan s).unterminated = false → NoGluedPair s.toList → split (join [s, s]) = [s, s]) ∧
      (split (join [s, s]) = [s, s] → (scan s).unterminated = false) := by
  refine ⟨?_, fun s hs => ⟨fun hend hpair => ?_, fun h => ?_⟩⟩
  · rw [halfOfBody_mirroredBody_iff_closes hne hchain]
    exact forall₂_congr fun s hs => closes_iff (hchain s hs)
  · exact (closes_iff (hchain s hs)).1 (IsWellQuoted.closes ⟨hchain s hs, hend, hpair⟩)
  · exact ((closes_iff (hchain s hs)).2 h).terminated

/-- Commands with a quoted separator, a doubled region, an apostrophe in a word and an escaped blank
come back. -/
theorem mirroredBody_recovers_quotedSeparators :
    let chain := ["say \"a $$ b\"", "emote ''c $$ d''", "don't $", "say \\\"e\\ f"]
    chain ≠ [] ∧ (∀ s ∈ chain, isCanonical s = true) ∧
      (∀ s ∈ chain, split (join [s, s]) = [s, s]) ∧
      halfOfBody? (mirroredBody chain) = some chain := by
  intro chain
  have hne : chain ≠ [] := by decide
  have hchain : ∀ s ∈ chain, isCanonical s = true := by decide +kernel
  have heach : ∀ s ∈ chain, split (join [s, s]) = [s, s] := by decide +kernel
  exact ⟨hne, hchain, heach, (mirroredBody_recovers_iff hne hchain).1.2 heach⟩

/-- A canonical command that leaves a quote open swallows the separator in front of its copy. -/
theorem not_mirroredBody_recovers_of_openQuote :
    ¬ ∀ chain : List String, chain ≠ [] → (∀ s ∈ chain, isCanonical s = true) →
      halfOfBody? (mirroredBody chain) = some chain := by
  intro h
  exact absurd (h ["say \"Hi"] (by decide) (by decide +kernel)) (by decide +kernel)

end Keybinds.Chain
