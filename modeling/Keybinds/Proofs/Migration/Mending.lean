import Keybinds.Migration.Step
import Keybinds.Proofs.Chain.Layout
import Keybinds.Proofs.Stored.Lists
import Mathlib.Data.List.Infix

/-!
# Mending keeps the layout

The misspelled command and the right one have the same layout, so a mended text is cut where the
text was, and a canonical list stays canonical when it is mended (`isCanonical_mendCommands`).
Neither ends as the other starts, so the misspelled command does not arise anew, and a mended text
is spelled right (`isMisspelled_mend`).
-/

namespace Keybinds.Text

/-- A replacement that `f` does not tell from what it replaces is not seen through `f`. -/
theorem map_replaceFrom {f : Char → Char} {old new : List Char} (hne : old ≠ [])
    (hmap : new.map f = old.map f) (skip : Nat) (cs : List Char) :
    (replaceFrom old new skip cs).map f = (cs.drop skip).map f := by
  induction cs generalizing skip with
  | nil => rw [List.drop_nil]; rfl
  | cons c cs ih =>
    cases skip with
    | succ n => exact ih n
    | zero =>
      show (if old.isPrefixOf (c :: cs) = true then new ++ replaceFrom old new (old.length - 1) cs
        else c :: replaceFrom old new 0 cs).map f = (c :: cs).map f
      split_ifs with h
      · obtain ⟨rest, hrest⟩ := List.isPrefixOf_iff_prefix.1 h
        obtain ⟨o, os, rfl⟩ := List.exists_cons_of_ne_nil hne
        obtain ⟨rfl, rfl⟩ := List.cons.inj hrest
        rw [List.map_append, ih, hmap, ← List.map_append]
        show ((o :: os) ++ (os ++ rest).drop os.length).map f = _
        rw [List.drop_left]
        rfl
      · rw [List.map_cons, List.map_cons, ih]
        rfl

theorem replaceAll_of_not_infix {old : List Char} (new : List Char) {cs : List Char}
    (h : ¬ old <:+: cs) : replaceAll old new cs = cs := by
  unfold replaceAll
  induction cs with
  | nil => rfl
  | cons c cs ih =>
    rw [List.infix_cons_iff, not_or] at h
    show (if old.isPrefixOf (c :: cs) = true then _ else c :: replaceFrom old new 0 cs) = _
    rw [if_neg fun hp => h.1 (List.isPrefixOf_iff_prefix.1 hp), ih h.2]

/-- Replacing by another text of the same length changes every text in which something is to be
replaced. -/
theorem replaceAll_eq_self_iff {old new : List Char} (hlen : new.length = old.length)
    (hne : new ≠ old) {cs : List Char} : replaceAll old new cs = cs ↔ ¬ old <:+: cs := by
  refine ⟨fun h => ?_, replaceAll_of_not_infix new⟩
  unfold replaceAll at h
  induction cs with
  | nil =>
    intro hin
    obtain rfl := List.infix_nil.1 hin
    exact hne (List.length_eq_zero_iff.1 hlen)
  | cons c cs ih =>
    change (if old.isPrefixOf (c :: cs) = true then new ++ replaceFrom old new (old.length - 1) cs
      else c :: replaceFrom old new 0 cs) = c :: cs at h
    rw [List.infix_cons_iff, not_or, ← List.isPrefixOf_iff_prefix]
    split_ifs at h with hp
    · obtain ⟨rest, hrest⟩ := List.isPrefixOf_iff_prefix.1 hp
      rw [← hrest] at h
      exact absurd (List.append_inj_left h hlen) hne
    · exact ⟨hp, ih (List.cons.inj h).2⟩

/-! ### What is left of the replaced text -/

/-- No end of a text is a start of another one. -/
def NoOverlap (u v : List Char) : Prop :=
  ∀ p, p ≠ [] → p <:+ u → ¬ p <+: v

theorem noOverlap_iff {u v : List Char} :
    NoOverlap u v ↔ ∀ p ∈ u.tails, p ≠ [] → ¬ p <+: v :=
  forall_congr' fun p => by rw [List.mem_tails, forall_comm]

instance (u v : List Char) : Decidable (NoOverlap u v) := decidable_of_iff _ noOverlap_iff.symm

/-- What is found across the place where two texts meet starts with an end of the first. -/
theorem infix_append_cases {o u v : List Char} (hlen : u.length ≤ o.length) (h : o <:+: u ++ v) :
    o <:+: v ∨ ∃ p, p ≠ [] ∧ p <:+ u ∧ p <+: o := by
  induction u with
  | nil => exact .inl h
  | cons c u ih =>
    rw [List.cons_append, List.infix_cons_iff] at h
    rcases h with h | h
    · exact .inr ⟨c :: u, List.cons_ne_nil c u, List.suffix_rfl,
        List.prefix_of_prefix_length_le (List.prefix_append _ v) h hlen⟩
    · refine (ih (Nat.le_of_succ_le hlen) h).imp_right ?_
      rintro ⟨p, hp, hu, ho⟩
      exact ⟨p, hp, hu.trans (List.suffix_cons c u), ho⟩

/-- An end of the replaced text that the result starts with was there before. -/
theorem prefix_of_prefix_replaceAll {old new : List Char} (hlen : new.length = old.length)
    (hover : NoOverlap old new) {p cs : List Char} (hp : p <:+ old)
    (h : p <+: replaceAll old new cs) : p <+: cs := by
  unfold replaceAll at h
  induction cs generalizing p with
  | nil => exact h
  | cons c cs ih =>
    cases p with
    | nil => exact List.nil_prefix
    | cons d p =>
      change d :: p <+: (if old.isPrefixOf (c :: cs) = true then
        new ++ replaceFrom old new (old.length - 1) cs else c :: replaceFrom old new 0 cs) at h
      split_ifs at h
      · have hshort : (d :: p).length ≤ new.length := hlen ▸ hp.length_le
        exact absurd (List.prefix_of_prefix_length_le h (List.prefix_append _ _) hshort)
          (hover _ (List.cons_ne_nil d p) hp)
      · rw [List.cons_prefix_cons] at h ⊢
        exact ⟨h.1, ih ((List.suffix_cons d p).trans hp) h.2⟩

/-- The replaced text is not found in the result, if it does not arise where the new text meets what
is around it. -/
theorem not_infix_replaceFrom {old new : List Char} (hne : old ≠ [])
    (hlen : new.length = old.length) (hon : NoOverlap old new) (hno : NoOverlap new old)
    (skip : Nat) (cs : List Char) : ¬ old <:+: replaceFrom old new skip cs := by
  induction cs generalizing skip with
  | nil => exact fun h => hne (List.infix_nil.1 h)
  | cons c cs ih =>
    cases skip with
    | succ n => exact ih n
    | zero =>
      show ¬ old <:+: if old.isPrefixOf (c :: cs) = true then
        new ++ replaceFrom old new (old.length - 1) cs else c :: replaceFrom old new 0 cs
      split_ifs with hmatch
      · intro h
        rcases infix_append_cases (Nat.le_of_eq hlen) h with h | ⟨p, hp, hnew, hold⟩
        · exact ih _ h
        · exact hno p hp hnew hold
      · rw [List.infix_cons_iff]
        rintro (h | h)
        · obtain ⟨o, os, rfl⟩ := List.exists_cons_of_ne_nil hne
          rw [List.cons_prefix_cons] at h
          have hos := prefix_of_prefix_replaceAll hlen hon (List.suffix_cons o os) h.2
          exact hmatch (List.isPrefixOf_iff_prefix.2 (List.cons_prefix_cons.2 ⟨h.1, hos⟩))
        · exact ih 0 h

end Keybinds.Text

namespace Keybinds.Migration

open Chain (layoutOf)
open Stored (Element Commands)

theorem layoutOf_mend (s : String) : layoutOf (mend s) = layoutOf s := by
  rw [← String.toList_inj, Chain.toList_layoutOf, Chain.toList_layoutOf]
  unfold mend
  rw [String.toList_ofList]
  exact Text.map_replaceFrom (by decide) (by decide) 0 s.toList

theorem isCanonical_mend (s : String) : Chain.isCanonical (mend s) = Chain.isCanonical s := by
  rw [← Chain.isCanonical_layoutOf, layoutOf_mend, Chain.isCanonical_layoutOf]

theorem layouts_split_mend (s : String) :
    (Chain.split (mend s)).map layoutOf = (Chain.split s).map layoutOf := by
  rw [← Chain.split_layoutOf, layoutOf_mend, Chain.split_layoutOf]

theorem mendCommands_ofChain (chain : List String) :
    mendCommands (.ofChain chain) = .ofChain (chain.map mend) := by
  show Commands.list ((chain.map Element.plain).map mendElement) =
    Commands.list ((chain.map mend).map Element.plain)
  rw [List.map_map, List.map_map]
  rfl

theorem mend_eq_self_iff {s : String} : mend s = s ↔ isMisspelled s = false := by
  unfold isMisspelled mend
  rw [← Bool.not_eq_true, Text.occursIn_iff, ← String.toList_inj, String.toList_ofList]
  exact Text.replaceAll_eq_self_iff (by decide) (by decide)

/-- A mended text is spelled right. -/
theorem isMisspelled_mend (s : String) : isMisspelled (mend s) = false := by
  unfold isMisspelled mend
  rw [← Bool.not_eq_true, Text.occursIn_iff, String.toList_ofList]
  exact Text.not_infix_replaceFrom (by decide) (by decide) (by decide) (by decide) 0 s.toList

/-- The commands that a text is cut into are spelled right if the text is. -/
theorem isMisspelled_of_mem_split {body s : String} (hbody : isMisspelled body = false)
    (hs : s ∈ Chain.split body) : isMisspelled s = false := by
  unfold isMisspelled at hbody ⊢
  rw [← Bool.not_eq_true, Text.occursIn_iff] at hbody ⊢
  exact fun h => hbody (h.trans (Chain.infix_of_mem_split hs))

/-- Mending changes a list just if a text in it is misspelled. -/
theorem mendCommands_eq_self_iff {c : Commands} :
    mendCommands c = c ↔ commandsMisspelled c = false := by
  cases c with
  | text s =>
    show Commands.text (mend s) = .text s ↔ isMisspelled s = false
    rw [Commands.text.injEq, mend_eq_self_iff]
  | malformed value => exact ⟨fun _ => rfl, fun _ => rfl⟩
  | list items =>
    show Commands.list (items.map mendElement) = .list items ↔ (items.any _) = false
    have hid : items.map mendElement = items ↔ items.map mendElement = items.map id := by
      rw [List.map_id]
    rw [Commands.list.injEq, List.any_eq_false, hid, List.map_inj_left]
    refine forall₂_congr fun e _ => ?_
    cases e with
    | plain s =>
      show Element.plain (mend s) = .plain s ↔ ¬ isMisspelled s = true
      rw [Element.plain.injEq, mend_eq_self_iff, Bool.not_eq_true]
    | rich fields => simp [mendElement]
    | malformed value => simp [mendElement]

/-- A mended canonical list is canonical. -/
theorem isCanonical_mendCommands {c : Commands} (h : c.isCanonical = true) :
    (mendCommands c).isCanonical = true := by
  obtain ⟨chain, rfl, hchain⟩ := Commands.isCanonical_iff.1 h
  rw [mendCommands_ofChain, Commands.isCanonical_ofChain_iff, List.forall_mem_map]
  intro s hs
  rw [isCanonical_mend]
  exact hchain s hs

/-- The commands of a mended list have the layouts of those of the list. -/
theorem layouts_commands_mendCommands (c : Commands) :
    (mendCommands c).commands.map layoutOf = c.commands.map layoutOf := by
  cases c with
  | text s => exact layouts_split_mend s
  | malformed value => rfl
  | list items =>
    show ((items.map mendElement).flatMap Element.commands).map layoutOf =
      (items.flatMap Element.commands).map layoutOf
    rw [List.flatMap_map, List.map_flatMap, List.map_flatMap]
    congr 1
    funext e
    cases e with
    | plain s => exact layouts_split_mend s
    | rich fields => rfl
    | malformed value => rfl

theorem weight_map_layoutOf (chain : List String) :
    Chain.weight (chain.map layoutOf) = Chain.weight chain := by
  unfold Chain.weight
  rw [List.map_map]
  congr 2
  funext s
  show (layoutOf s).toList.length + 1 = _
  rw [Chain.toList_layoutOf, List.length_map]

theorem weight_commands_mendCommands (c : Commands) :
    Chain.weight (mendCommands c).commands = Chain.weight c.commands := by
  rw [← weight_map_layoutOf, layouts_commands_mendCommands, weight_map_layoutOf]

end Keybinds.Migration
