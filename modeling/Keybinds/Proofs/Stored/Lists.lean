import Keybinds.Stored.Document
import Keybinds.Proofs.Chain.Weight
import Keybinds.Proofs.List

/-!
# Canonical command lists

A list is canonical when it is the list of its own commands and each of them is canonical. The
canonical form of a list in any form is the list of the commands that it gives
(`canonicalized_eq_ofChain`), which is canonical if these are. A list that is canonical already is
its own canonical form (`canonicalized_of_isCanonical`).
-/

namespace Keybinds.Stored

/-! ## Lists -/

theorem Element.canonical?_eq_some {e : Element} {s : String} :
    e.canonical? = some s ↔ e = .plain s ∧ Chain.isCanonical s = true := by
  cases e with
  | plain text =>
    show (if Chain.isCanonical text = true then some text else none) = some s ↔ _
    split_ifs with h
    · rw [Option.some.injEq, Element.plain.injEq]
      exact ⟨fun heq => ⟨heq, heq ▸ h⟩, And.left⟩
    · rw [Element.plain.injEq]
      exact ⟨nofun, fun heq => absurd (heq.1 ▸ heq.2) h⟩
  | rich fields => simp [Element.canonical?]
  | malformed value => simp [Element.canonical?]

theorem mapM_canonical?_eq_some {items : List Element} {chain : List String} :
    items.mapM Element.canonical? = some chain ↔
      items = chain.map .plain ∧ ∀ s ∈ chain, Chain.isCanonical s = true := by
  rw [mapM_eq_some_iff]
  simp only [Element.canonical?_eq_some]
  constructor
  · intro h
    induction h with
    | nil => simp
    | cons h _ ih =>
      rw [List.map_cons, List.forall_mem_cons, h.1, ih.1]
      exact ⟨rfl, h.2, ih.2⟩
  · rintro ⟨rfl, h⟩
    induction chain with
    | nil => exact .nil
    | cons s chain ih =>
      rw [List.forall_mem_cons] at h
      exact .cons ⟨rfl, h.1⟩ (ih h.2)

namespace Commands

/-- A list is canonical when it lists canonical commands. -/
theorem canonical?_eq_some {c : Commands} {chain : List String} :
    c.canonical? = some chain ↔
      c = ofChain chain ∧ ∀ s ∈ chain, Chain.isCanonical s = true := by
  cases c with
  | text text => simp [canonical?, ofChain]
  | list items =>
    unfold canonical? ofChain
    rw [mapM_canonical?_eq_some, Commands.list.injEq]
  | malformed value => simp [canonical?, ofChain]

theorem isCanonical_iff {c : Commands} :
    c.isCanonical = true ↔
      ∃ chain, c = ofChain chain ∧ ∀ s ∈ chain, Chain.isCanonical s = true := by
  unfold isCanonical
  rw [Option.isSome_iff_exists]
  simp only [canonical?_eq_some]

theorem ofChain_inj {chain chain' : List String} :
    ofChain chain = ofChain chain' ↔ chain = chain' := by
  unfold ofChain
  rw [Commands.list.injEq]
  exact (List.map_injective_iff.2 fun _ _ h => Element.plain.inj h).eq_iff

theorem isCanonical_ofChain_iff {chain : List String} :
    (ofChain chain).isCanonical = true ↔ ∀ s ∈ chain, Chain.isCanonical s = true := by
  rw [isCanonical_iff]
  constructor
  · rintro ⟨chain', heq, h⟩
    rwa [ofChain_inj.1 heq]
  · intro h
    exact ⟨chain, rfl, h⟩

theorem commands_ofChain (chain : List String) :
    (ofChain chain).commands = chain.flatMap Chain.split := by
  show (chain.map Element.plain).flatMap Element.commands = _
  rw [List.flatMap_map]
  rfl

/-- A canonical list gives the commands that it lists. -/
theorem ofChain_commands {c : Commands} (h : c.isCanonical = true) : ofChain c.commands = c := by
  obtain ⟨chain, rfl, hchain⟩ := isCanonical_iff.1 h
  rw [commands_ofChain, Chain.flatMap_split_of_isCanonical hchain]

theorem canonicalized_of_isCanonical {c : Commands} (h : c.isCanonical = true) :
    c.canonicalized = c := if_pos h

/-- The canonical form lists the commands. -/
theorem canonicalized_eq_ofChain (c : Commands) : c.canonicalized = ofChain c.commands := by
  unfold canonicalized
  split
  · rename_i h
    exact (ofChain_commands h).symm
  · rfl

theorem isCanonical_canonicalized_iff {c : Commands} :
    c.canonicalized.isCanonical = true ↔ ∀ s ∈ c.commands, Chain.isCanonical s = true := by
  rw [canonicalized_eq_ofChain, isCanonical_ofChain_iff]

theorem commands_canonicalized (c : Commands) :
    c.canonicalized.commands = c.commands.flatMap Chain.split := by
  rw [canonicalized_eq_ofChain, commands_ofChain]

/-- Lists of plain commands are equal up to the order of members only if they are equal. -/
theorem ofChain_same_iff {chain : List String} {c : Commands} :
    (ofChain chain).same c = true ↔ c = ofChain chain := by
  cases c with
  | text text => simp [ofChain, Commands.same]
  | malformed value => simp [ofChain, Commands.same]
  | list items =>
    unfold ofChain Commands.same
    rw [Commands.list.injEq, Bool.and_eq_true, beq_iff_eq, List.length_map]
    induction chain generalizing items with
    | nil => cases items <;> simp
    | cons s chain ih =>
      cases items with
      | nil => simp
      | cons e items =>
        have hfirst : (Element.plain s).same e = true ↔ e = .plain s := by
          cases e with
          | plain text =>
            show (s == text) = true ↔ _
            rw [beq_iff_eq, Element.plain.injEq, eq_comm]
          | rich fields => simp [Element.same]
          | malformed value => simp [Element.same]
        rw [List.map_cons, List.cons_eq_cons, ← ih, ← hfirst]
        simp only [List.length_cons, Nat.add_right_cancel_iff, List.zip_cons_cons, List.all_cons,
          Bool.and_eq_true, and_left_comm]

/-- A canonical list is equal to itself also up to the order of members. -/
theorem same_self {c : Commands} (h : c.isCanonical = true) : c.same c = true := by
  obtain ⟨chain, rfl, -⟩ := isCanonical_iff.1 h
  exact ofChain_same_iff.2 rfl

end Commands

/-! ## Aliases -/

namespace AliasEntry

theorem isCanonical_iff {a : AliasEntry} :
    a.isCanonical = true ↔ ∃ r, a = .record r ∧ r.commands.isCanonical = true := by
  cases a with
  | record r => simp [isCanonical]
  | bare c => simp [isCanonical]
  | malformed value => simp [isCanonical]

theorem commands_toRecord {a : AliasEntry} {c : Commands} (h : a.commands? = some c) :
    a.toRecord.commands = c := by
  cases a with
  | record r => exact Option.some.inj h
  | bare c' => exact Option.some.inj h
  | malformed value => cases h

theorem canonicalized_of_isCanonical {a : AliasEntry} (h : a.isCanonical = true) :
    a.canonicalized = a := by
  obtain ⟨r, rfl, hr⟩ := isCanonical_iff.1 h
  show AliasEntry.record { r with commands := r.commands.canonicalized } = _
  rw [Commands.canonicalized_of_isCanonical hr]

end AliasEntry

/-! ## Documents -/

theorem Document.isCanonical_iff {d : Document} :
    d.isCanonical = true ↔ d.keys = none ∧
      (∀ b ∈ d.builds.values, ∀ c ∈ b.keys.values, c.isCanonical = true) ∧
      ∀ a ∈ d.aliases.values, a.isCanonical = true := by
  unfold isCanonical
  simp only [Bool.and_eq_true, Option.isNone_iff_eq_none, List.all_eq_true, and_assoc]

end Keybinds.Stored
