import Keybinds.Proofs.Chain.Commands
import Mathlib.Algebra.GroupWithZero.Nat

/-!
# What cutting loses

A chain weighs its characters and one more for each command. Cutting a command loses weight, unless
the command is canonical (`weight_split_lt`): a separator takes two characters and gives one more
command, and blanks and empty parts are lost. So a chain loses weight when its commands are cut,
unless all of them are canonical (`weight_flatMap_split_lt`).
-/

namespace Keybinds.Chain

open Text (strip)

/-- The characters of a chain, and one more for each command. -/
def weight (chain : List String) : Nat :=
  (chain.map fun s => s.toList.length + 1).sum

@[simp] theorem weight_cons (s : String) (chain : List String) :
    weight (s :: chain) = s.toList.length + 1 + weight chain := rfl

theorem weight_append (chain chain' : List String) :
    weight (chain ++ chain') = weight chain + weight chain' := by
  simp [weight]

/-! ## One command -/

/-- The parts of a body lack its separators, of two characters each. -/
theorem Cuts.sum_lengths {cs : List Char} {ps : List (List Char)} {unterminated : Bool}
    (h : Cuts cs ps unterminated) : (ps.map fun p => p.length + 2).sum = cs.length + 2 := by
  induction h with
  | last => simp
  | more _ _ _ _ ih =>
    simp only [List.map_cons, List.sum_cons, ih, List.length_append, List.length_cons]
    omega

/-- Of the parts, blanks and empty ones are lost. -/
theorem sum_commandsOf_add_le (ps : List (List Char)) :
    ((commandsOf ps).map fun c => c.length + 1).sum + ps.length ≤
      (ps.map fun p => p.length + 2).sum := by
  induction ps with
  | nil => simp [commandsOf]
  | cons p ps ih =>
    have hstrip := (Text.infix_strip p).length_le
    rw [commandsOf_cons]
    split_ifs <;> simp only [List.map_cons, List.sum_cons, List.length_cons] <;> omega

/-- Each part adds one to the weight, and each separator between two takes two away. -/
theorem weight_split_add_le (body : String) :
    weight (split body) + (scan body).parts.length ≤ body.toList.length + 2 := by
  have hweight : weight (split body) =
      ((commandsOf (scan body).parts).map fun c => c.length + 1).sum := by
    rw [← map_toList_split, List.map_map]
    rfl
  have hsum : ((scan body).parts.map fun p => p.length + 2).sum = body.toList.length + 2 :=
    (cuts_scanFrom body.toList).sum_lengths
  have hlost := sum_commandsOf_add_le (scan body).parts
  omega

theorem parts_scan_ne_nil (body : String) : (scan body).parts ≠ [] :=
  (cuts_scanFrom body.toList).parts_ne_nil

/-- Cutting never adds weight. -/
theorem weight_split_le (body : String) : weight (split body) ≤ body.toList.length + 1 := by
  have hlost := weight_split_add_le body
  have hparts := List.length_pos_iff.2 (parts_scan_ne_nil body)
  omega

/-- A trimmed command of one part is canonical, unless it is empty. -/
theorem isCanonical_of_parts {command : String} (hlen : (scan command).parts.length ≤ 1)
    (hstrip : strip command.toList = command.toList) (hne : command.toList ≠ []) :
    isCanonical command = true :=
  isCanonical_iff.2 ⟨hne, Text.strip_eq_self_iff.1 hstrip,
    (cuts_scanFrom command.toList).exists_advance hlen⟩

/-- A command that is not canonical loses weight. -/
theorem weight_split_lt {command : String} (h : isCanonical command = false) :
    weight (split command) < command.toList.length + 1 := by
  by_cases hlen : (scan command).parts.length ≤ 1
  · -- in one part, the command has nothing to lose but blanks
    obtain ⟨t, ht⟩ := (cuts_scanFrom command.toList).exists_advance hlen
    have hsplit : (split command).map String.toList =
        if strip command.toList = [] then [] else [strip command.toList] := by
      rw [map_toList_split]
      show commandsOf (scanFrom .outside true command.toList).parts = _
      rw [parts_of_advance ht, commandsOf_cons]
      rfl
    have hweight : weight (split command) =
        (((split command).map String.toList).map fun c => c.length + 1).sum := by
      rw [List.map_map]
      rfl
    rw [hweight, hsplit]
    split_ifs with hempty
    · simp
    · have hle := (Text.infix_strip command.toList).length_le
      have hshort : (strip command.toList).length ≠ command.toList.length := by
        intro hlength
        have hself := (Text.infix_strip command.toList).eq_of_length hlength
        rw [isCanonical_of_parts hlen hself (hself ▸ hempty)] at h
        cases h
      simp only [List.map_cons, List.map_nil, List.sum_cons, List.sum_nil]
      omega
  · have hlost := weight_split_add_le command
    omega

/-! ## Chains -/

theorem weight_flatMap_split_le (chain : List String) :
    weight (chain.flatMap split) ≤ weight chain := by
  induction chain with
  | nil => simp
  | cons s chain ih =>
    have hs := weight_split_le s
    rw [List.flatMap_cons, weight_append, weight_cons]
    omega

theorem weight_flatMap_split_lt {chain : List String} {s : String} (hs : s ∈ chain)
    (h : isCanonical s = false) : weight (chain.flatMap split) < weight chain := by
  induction chain with
  | nil => cases hs
  | cons s' chain ih =>
    rw [List.flatMap_cons, weight_append, weight_cons]
    rcases List.mem_cons.1 hs with rfl | hs
    · have hfirst := weight_split_lt h
      have hrest := weight_flatMap_split_le chain
      omega
    · have hfirst := weight_split_le s'
      have hrest := ih hs
      omega

end Keybinds.Chain
