import Keybinds.Json.Value
import Keybinds.Proofs.Dict
import Keybinds.Proofs.List

/-!
# Values and their trees

What a tree is read as is well formed, and is read again from its own tree (`fits_of_ofNode?`); and
a well-formed value is read from its own tree as itself, if at all (`eq_of_wellFormed`). A
well-formed value has the same contents as itself, also with the members of an object in another
order (`sameFields_of_perm`).
-/

namespace Keybinds.Json

variable {ν : Type}

/-- The tree of a value, with the numbers as they are. -/
abbrev Value.tree (v : Value) : Node Numeric := v.toNode id

/-- The value is read as itself, as one of `depth` containers inside each other at most. -/
def Value.Fits (depth : Nat) (v : Value) : Prop :=
  Value.ofNode? some depth v.tree = some v

/-! ## Members -/

theorem itemsWellFormed_iff {items : List Value} :
    ItemsWellFormed items ↔ ∀ v ∈ items, v.WellFormed := by
  induction items with
  | nil => simp [ItemsWellFormed]
  | cons v items ih => simp [ItemsWellFormed, ih]

theorem membersWellFormed_iff {members : List (String × Value)} :
    MembersWellFormed members ↔ ∀ m ∈ members, m.2.WellFormed := by
  induction members with
  | nil => simp [MembersWellFormed]
  | cons m members ih => simp [MembersWellFormed, ih]

theorem itemsToNodes_eq_map (num : Numeric → ν) (items : List Value) :
    itemsToNodes num items = items.map fun v => v.toNode num := by
  induction items with
  | nil => rfl
  | cons v items ih => simp [itemsToNodes, ih]

theorem membersToNodes_eq_map (num : Numeric → ν) (members : List (String × Value)) :
    membersToNodes num members = members.map fun m => (some m.1, m.2.toNode num) := by
  induction members with
  | nil => rfl
  | cons m members ih => simp [membersToNodes, ih]

theorem mem_distinct {members : List (String × Value)} {m : String × Value}
    (h : m ∈ distinct members) : m ∈ members :=
  Dict.mem_of_mem_ofList h

theorem distinct_eq_self {members : List (String × Value)} (h : (members.map Prod.fst).Nodup) :
    distinct members = members :=
  Dict.entries_ofList h

theorem nodup_distinct (members : List (String × Value)) :
    ((distinct members).map Prod.fst).Nodup :=
  Dict.nodup _

/-! ## Reading lists of trees -/

section

variable {num? : ν → Option Numeric} {depth : Nat}

theorem itemsOfNodes?_eq_some_iff {nodes : List (Node ν)} {items : List Value} :
    itemsOfNodes? num? depth nodes = some items ↔
      List.Forall₂ (fun node v => Value.ofNode? num? depth node = some v) nodes items := by
  induction nodes generalizing items with
  | nil => simp [itemsOfNodes?, eq_comm]
  | cons node nodes ih =>
    simp only [itemsOfNodes?, Option.bind_eq_bind, Option.bind_eq_some_iff, Option.pure_def,
      Option.some.injEq, ih]
    constructor
    · rintro ⟨v, hv, vs, hvs, rfl⟩
      exact .cons hv hvs
    · rintro (_ | ⟨hv, hvs⟩)
      exact ⟨_, hv, _, hvs, rfl⟩

theorem membersOfNodes?_eq_some_iff {nodes : List (Option String × Node ν)}
    {members : List (String × Value)} :
    membersOfNodes? num? depth nodes = some members ↔
      List.Forall₂ (fun node m => node.1 = some m.1 ∧ Value.ofNode? num? depth node.2 = some m.2)
        nodes members := by
  induction nodes generalizing members with
  | nil => simp [membersOfNodes?, eq_comm]
  | cons node nodes ih =>
    obtain ⟨name, node⟩ := node
    simp only [membersOfNodes?, Option.bind_eq_bind, Option.bind_eq_some_iff, Option.pure_def,
      Option.some.injEq, ih]
    constructor
    · rintro ⟨n, rfl, v, hv, ms, hms, rfl⟩
      exact .cons ⟨rfl, hv⟩ hms
    · rintro (_ | ⟨⟨hn, hv⟩, hms⟩)
      exact ⟨_, hn, _, hv, _, hms, rfl⟩

theorem ofNode?_array_iff {items : List (Node ν)} {v : Value} :
    Value.ofNode? num? depth (.array items) = some v ↔
      ∃ d vs, depth = d + 1 ∧
        List.Forall₂ (fun node v => Value.ofNode? num? d node = some v) items vs ∧
        v = .array vs := by
  cases depth with
  | zero => simp [Value.ofNode?]
  | succ depth =>
    show (itemsOfNodes? num? depth items).map .array = some v ↔ _
    rw [Option.map_eq_some_iff]
    simp only [itemsOfNodes?_eq_some_iff, eq_comm (b := v), Nat.add_right_cancel_iff,
      exists_and_left, exists_eq_left']

theorem ofNode?_object_iff {members : List (Option String × Node ν)} {v : Value} :
    Value.ofNode? num? depth (.object members) = some v ↔
      ∃ d ms, depth = d + 1 ∧
        List.Forall₂ (fun node m => node.1 = some m.1 ∧ Value.ofNode? num? d node.2 = some m.2)
          members ms ∧
        v = .object (distinct ms) := by
  cases depth with
  | zero => simp [Value.ofNode?]
  | succ depth =>
    show (membersOfNodes? num? depth members).map (fun ms => .object (distinct ms)) = some v ↔ _
    rw [Option.map_eq_some_iff]
    simp only [membersOfNodes?_eq_some_iff, eq_comm (b := v), Nat.add_right_cancel_iff,
      exists_and_left, exists_eq_left']

/-! ## Reading what was read -/

/-- What a tree is read as is well formed. -/
theorem wellFormed_of_ofNode? {depth : Nat} {node : Node ν} {v : Value}
    (h : Value.ofNode? num? depth node = some v) : v.WellFormed := by
  cases node with
  | null =>
    cases h
    trivial
  | bool b =>
    cases h
    trivial
  | number n =>
    obtain ⟨x, -, rfl⟩ := Option.map_eq_some_iff.1 h
    trivial
  | string s =>
    obtain ⟨x, -, rfl⟩ := Option.map_eq_some_iff.1 h
    trivial
  | array items =>
    obtain ⟨depth, vs, rfl, hvs, rfl⟩ := ofNode?_array_iff.1 h
    exact itemsWellFormed_iff.2 (forall_of_forall₂ hvs fun _ _ => wellFormed_of_ofNode?)
  | object members =>
    obtain ⟨depth, ms, rfl, hms, rfl⟩ := ofNode?_object_iff.1 h
    have hall := forall_of_forall₂ hms fun _ _ hm => wellFormed_of_ofNode? hm.2
    exact ⟨nodup_distinct ms, membersWellFormed_iff.2 fun m hm => hall m (mem_distinct hm)⟩
termination_by depth

end

section

variable {depth : Nat}

/-- A list is read as itself just if all its items are. -/
theorem fits_array_iff {items : List Value} :
    (Value.array items).Fits depth ↔ ∃ d, depth = d + 1 ∧ ∀ v ∈ items, v.Fits d := by
  unfold Value.Fits
  rw [Value.tree, Value.toNode, itemsToNodes_eq_map, ofNode?_array_iff]
  simp only [List.forall₂_map_left_iff]
  constructor
  · rintro ⟨d, vs, rfl, hvs, heq⟩
    obtain rfl := Value.array.inj heq
    exact ⟨d, rfl, List.forall₂_same.1 hvs⟩
  · rintro ⟨d, rfl, h⟩
    exact ⟨d, items, rfl, List.forall₂_same.2 h, rfl⟩

/-- An object is read as itself just if all its members have different names and are. -/
theorem fits_object_iff {members : List (String × Value)} :
    (Value.object members).Fits depth ↔
      (members.map Prod.fst).Nodup ∧ ∃ d, depth = d + 1 ∧ ∀ m ∈ members, m.2.Fits d := by
  unfold Value.Fits
  rw [Value.tree, Value.toNode, membersToNodes_eq_map, ofNode?_object_iff]
  simp only [List.forall₂_map_left_iff]
  constructor
  · rintro ⟨d, ms, rfl, hms, heq⟩
    have heq := Value.object.inj heq
    have hnames : members.map Prod.fst = ms.map Prod.fst := by
      rw [← List.forall₂_eq_eq_eq, List.forall₂_map_left_iff, List.forall₂_map_right_iff]
      exact hms.imp fun _ _ h => Option.some.inj h.1
    have hnodup : (members.map Prod.fst).Nodup := heq ▸ nodup_distinct ms
    rw [distinct_eq_self (hnames ▸ hnodup)] at heq
    subst heq
    exact ⟨hnodup, d, rfl, fun m hm => (List.forall₂_same.1 hms m hm).2⟩
  · rintro ⟨hnodup, d, rfl, h⟩
    refine ⟨d, members, rfl, List.forall₂_same.2 fun m hm => ⟨rfl, h m hm⟩, ?_⟩
    rw [distinct_eq_self hnodup]

/-- What a tree is read as is read as itself. -/
theorem fits_of_ofNode? {num? : ν → Option Numeric} {depth : Nat} {node : Node ν} {v : Value}
    (h : Value.ofNode? num? depth node = some v) : v.Fits depth := by
  cases node with
  | null =>
    cases h
    rfl
  | bool b =>
    cases h
    rfl
  | number n =>
    obtain ⟨x, -, rfl⟩ := Option.map_eq_some_iff.1 h
    rfl
  | string s =>
    obtain ⟨x, -, rfl⟩ := Option.map_eq_some_iff.1 h
    rfl
  | array items =>
    obtain ⟨depth, vs, rfl, hvs, rfl⟩ := ofNode?_array_iff.1 h
    exact fits_array_iff.2 ⟨depth, rfl, forall_of_forall₂ hvs fun _ _ => fits_of_ofNode?⟩
  | object members =>
    obtain ⟨depth, ms, rfl, hms, rfl⟩ := ofNode?_object_iff.1 h
    have hall := forall_of_forall₂ hms fun _ _ hm => fits_of_ofNode? hm.2
    exact fits_object_iff.2 ⟨nodup_distinct ms, depth, rfl, fun m hm => hall m (mem_distinct hm)⟩
termination_by depth

/-- A well-formed value is read as itself if it is read at all. -/
theorem eq_of_wellFormed {depth : Nat} {v w : Value} (hv : v.WellFormed)
    (h : Value.ofNode? some depth v.tree = some w) : w = v := by
  cases v with
  | array items =>
    rw [Value.tree, Value.toNode, itemsToNodes_eq_map] at h
    obtain ⟨depth, vs, rfl, hvs, rfl⟩ := ofNode?_array_iff.1 h
    have hitems := itemsWellFormed_iff.1 hv
    have heq : items = vs := by
      rw [← List.forall₂_eq_eq_eq]
      refine ((List.forall₂_and_left _ _).2 ⟨hitems, List.forall₂_map_left_iff.1 hvs⟩).imp ?_
      rintro v w ⟨hv, h⟩
      exact (eq_of_wellFormed hv h).symm
    rw [heq]
  | object members =>
    rw [Value.tree, Value.toNode, membersToNodes_eq_map] at h
    obtain ⟨depth, ms, rfl, hms, rfl⟩ := ofNode?_object_iff.1 h
    have hmembers := membersWellFormed_iff.1 hv.2
    have heq : members = ms := by
      rw [← List.forall₂_eq_eq_eq]
      refine ((List.forall₂_and_left _ _).2 ⟨hmembers, List.forall₂_map_left_iff.1 hms⟩).imp ?_
      rintro m m' ⟨hm, hname, h⟩
      exact Prod.ext (Option.some.inj hname) (eq_of_wellFormed hm h).symm
    rw [← heq, distinct_eq_self hv.1]
  | _ => exact (Option.some.inj h).symm
termination_by depth

/-! ## Contents -/

theorem sameItems_self {items : List Value} (h : ∀ v ∈ items, v.same v = true) :
    sameItems items items = true := by
  induction items with
  | nil => rfl
  | cons v items ih =>
    rw [List.forall_mem_cons] at h
    show (v.same v && sameItems items items) = true
    rw [h.1, ih h.2]
    rfl

theorem sameMembers_iff {members others : List (String × Value)} :
    sameMembers members others = true ↔
      ∀ m ∈ members, ∃ v, others.lookup m.1 = some v ∧ m.2.same v = true := by
  induction members with
  | nil => simp [sameMembers]
  | cons m members ih =>
    obtain ⟨name, a⟩ := m
    rw [List.forall_mem_cons, ← ih, sameMembers, Bool.and_eq_true]
    cases others.lookup name <;> simp

/-- Objects with the same members in whatever order have the same contents. -/
theorem same_object_of_perm {as bs : List (String × Value)} (hnodup : (bs.map Prod.fst).Nodup)
    (hperm : as.Perm bs) (h : ∀ m ∈ as, m.2.same m.2 = true) :
    (Value.object as).same (.object bs) = true := by
  show (as.length == bs.length && sameMembers as bs) = true
  rw [Bool.and_eq_true, beq_iff_eq, sameMembers_iff]
  exact ⟨hperm.length_eq, fun m hm => ⟨m.2, Dict.lookup_of_mem hnodup (hperm.subset hm), h m hm⟩⟩

/-- A value that is read as itself has the same contents as itself. -/
theorem same_self_of_fits {depth : Nat} {v : Value} (h : v.Fits depth) : v.same v = true := by
  cases v with
  | null => rfl
  | bool b => exact beq_self_eq_true b
  | number n =>
    show n.same n = true
    cases n <;> simp [Numeric.same, Number.Binary.same]
  | string s => exact beq_self_eq_true s
  | array items =>
    obtain ⟨depth, rfl, hitems⟩ := fits_array_iff.1 h
    exact sameItems_self fun v hv => same_self_of_fits (hitems v hv)
  | object members =>
    obtain ⟨hnodup, depth, rfl, hmembers⟩ := fits_object_iff.1 h
    exact same_object_of_perm hnodup (List.Perm.refl _) fun m hm =>
      same_self_of_fits (hmembers m hm)
termination_by depth

theorem sameFields_of_perm {a b : Dict Value} (hperm : a.entries.Perm b.entries)
    (h : ∀ e ∈ a.entries, e.2.Fits depth) : sameFields a b = true :=
  same_object_of_perm b.nodup hperm fun m hm => same_self_of_fits (h m hm)

end

end Keybinds.Json
