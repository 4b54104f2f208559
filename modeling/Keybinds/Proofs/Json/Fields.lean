import Keybinds.Json.Fields
import Keybinds.Proofs.Json.Trees

/-!
# Fields of values

How the readers for the fields of an object work on the tree of a value: a field is read from the
member with its name, of which a well-formed object has one at most, and a dictionary is read
member by member (`readDict?_eq_some_iff`).
-/

namespace Keybinds.Json

/-- What related values are taken to alike is the same. -/
theorem bind_eq_of_rel {α β γ : Type} {R : α → β → Prop} {x : Option α} {y : Option β}
    (h : Option.Rel R x y) {f : α → Option γ} {g : β → Option γ} (hR : ∀ a b, R a b → f a = g b) :
    x.bind f = y.bind g := by
  cases h with
  | none => rfl
  | some h => exact hR _ _ h

theorem rel_map {α β γ : Type} {R : α → β → Prop} {S : α → γ → Prop} {x : Option α} {y : Option β}
    (h : Option.Rel R x y) {f : β → γ} (hR : ∀ a b, R a b → S a (f b)) :
    Option.Rel S x (y.map f) := by
  cases h with
  | none => exact .none
  | some h => exact .some (hR _ _ h)

theorem exists_of_rel {α β : Type} {R : α → β → Prop} {x : Option α} {y : Option β}
    (h : Option.Rel R x y) {a : α} (hx : x = some a) : ∃ b, y = some b ∧ R a b := by
  subst hx
  cases h with
  | some h => exact ⟨_, rfl, h⟩

/-- The value of a member of an object. -/
def Value.member? (v : Value) (name : String) : Option Value :=
  v.asObject?.bind fun members => members.get? name

theorem member?_object {members : List (String × Value)} (h : (members.map Prod.fst).Nodup)
    (name : String) : (Value.object members).member? name = members.lookup name := by
  show (Dict.ofList members).entries.lookup name = _
  rw [Dict.entries_ofList h]

/-- The fields that members are read as. -/
def fieldsOf (members : List (String × Value)) : Fields Numeric :=
  members.map fun m => (m.1, m.2.tree)

theorem fields?_tree_object (members : List (String × Value)) :
    (Value.object members).tree.fields? = some (fieldsOf members) := by
  rw [Value.tree, Value.toNode, membersToNodes_eq_map]
  show (members.map _).mapM _ = _
  rw [mapM_eq_some_iff, List.forall₂_map_left_iff]
  unfold fieldsOf
  rw [List.forall₂_map_right_iff]
  exact List.forall₂_same.2 fun _ _ => rfl

/-- Only objects have fields. -/
theorem fields?_tree_eq_some {v : Value} {fields : Fields Numeric}
    (h : v.tree.fields? = some fields) :
    ∃ members, v = .object members ∧ fields = fieldsOf members := by
  cases v with
  | object members =>
    rw [fields?_tree_object] at h
    exact ⟨members, rfl, (Option.some.inj h).symm⟩
  | _ => cases h

section

variable {α : Type} {members : List (String × Value)} {name : String} {f : Node Numeric → Option α}

theorem find?_fieldsOf (h : (members.map Prod.fst).Nodup) (name : String) :
    (fieldsOf members).find? name = some ((members.lookup name).map Value.tree) := by
  have hnone : ∀ ms : List (String × Value), name ∉ ms.map Prod.fst →
      (fieldsOf ms).filter (·.1 == name) = [] := by
    intro ms hms
    unfold fieldsOf
    rw [List.filter_eq_nil_iff, List.forall_mem_map]
    intro m hm heq
    exact hms (beq_iff_eq.1 heq ▸ List.mem_map_of_mem hm)
  have hfilter : (fieldsOf members).filter (·.1 == name) =
      ((members.lookup name).map fun v => (name, v.tree)).toList := by
    induction members with
    | nil => rfl
    | cons m members ih =>
      rw [List.map_cons, List.nodup_cons] at h
      obtain ⟨key, v⟩ := m
      rw [Dict.lookup_cons_eq_ite]
      show ((key, v.tree) :: fieldsOf members).filter _ = _
      split_ifs with hname
      · subst hname
        rw [List.filter_cons_of_pos (by simp), hnone members h.1]
        rfl
      · rw [List.filter_cons_of_neg (by simpa using fun heq => hname heq.symm), ih h.2]
  unfold Fields.find?
  rw [hfilter]
  cases members.lookup name <;> rfl

/-- A field is missing or read from its member. -/
theorem read?_fieldsOf_iff (h : (members.map Prod.fst).Nodup) {a : Option α} :
    (fieldsOf members).read? name f = some a ↔
      members.lookup name = none ∧ a = none ∨
        ∃ v x, members.lookup name = some v ∧ f v.tree = some x ∧ a = some x := by
  unfold Fields.read?
  rw [find?_fieldsOf h]
  cases members.lookup name with
  | none => simp [eq_comm]
  | some v =>
    show (f v.tree).bind (fun x => some (some x)) = some a ↔ _
    rw [Option.bind_eq_some_iff]
    simp [eq_comm (b := a)]

/-- A field that may be null is missing, null, or read from its member. -/
theorem readNullable?_fieldsOf_iff (h : (members.map Prod.fst).Nodup) {a : Option α} :
    (fieldsOf members).readNullable? name f = some a ↔
      (members.lookup name = none ∨ members.lookup name = some .null) ∧ a = none ∨
        ∃ v x, members.lookup name = some v ∧ v ≠ .null ∧ f v.tree = some x ∧ a = some x := by
  cases hv : members.lookup name with
  | none =>
    unfold Fields.readNullable?
    rw [find?_fieldsOf h, hv]
    simp [eq_comm]
  | some v =>
    by_cases hnull : v = .null
    · unfold Fields.readNullable?
      rw [find?_fieldsOf h, hv, hnull]
      show some none = some a ↔ _
      simp [eq_comm]
    · have hread : (fieldsOf members).readNullable? name f =
          (f v.tree).bind fun x => some (some x) := by
        unfold Fields.readNullable?
        rw [find?_fieldsOf h, hv]
        cases v <;> first | rfl | exact absurd rfl hnull
      rw [hread, Option.bind_eq_some_iff]
      simp [eq_comm (b := a), hnull]

theorem without_fieldsOf (members : List (String × Value)) (names : List String) :
    (fieldsOf members).without names =
      fieldsOf (members.filter fun m => !names.contains m.1) := by
  unfold Fields.without fieldsOf
  rw [List.filter_map]
  rfl

/-- A dictionary is read member by member. -/
theorem readDict?_eq_some_iff (h : (members.map Prod.fst).Nodup) {d : Dict α} :
    Node.readDict? f (Value.object members).tree = some d ↔
      List.Forall₂ (fun m e => e.1 = m.1 ∧ f m.2.tree = some e.2) members d.entries := by
  have hkeys : ∀ {es : List (String × α)},
      List.Forall₂ (fun m e => e.1 = m.1 ∧ f m.2.tree = some e.2) members es →
        (es.map Prod.fst).Nodup := by
    intro es hes
    have hfst : members.map Prod.fst = es.map Prod.fst := by
      rw [← List.forall₂_eq_eq_eq, List.forall₂_map_left_iff, List.forall₂_map_right_iff]
      exact hes.imp fun _ _ h => h.1.symm
    exact hfst ▸ h
  have hentry : ∀ (m : String × Value) (e : String × α),
      (do return (m.1, ← f m.2.tree) : Option (String × α)) = some e ↔
        e.1 = m.1 ∧ f m.2.tree = some e.2 := by
    rintro ⟨key, v⟩ ⟨key', x⟩
    show (f v.tree).bind (fun x => some (key, x)) = some (key', x) ↔ _
    rw [Option.bind_eq_some_iff]
    simp [eq_comm, and_comm]
  have hread : Node.readDict? f (Value.object members).tree =
      ((fieldsOf members).mapM fun m : String × Node Numeric => do return (m.1, ← f m.2)).bind
        fun es => some (Dict.ofList es) := by
    unfold Node.readDict?
    rw [fields?_tree_object]
    rfl
  rw [hread, Option.bind_eq_some_iff]
  simp only [mapM_eq_some_iff, fieldsOf, List.forall₂_map_left_iff, hentry, Option.some.injEq]
  constructor
  · rintro ⟨es, hes, rfl⟩
    rwa [Dict.entries_ofList (hkeys hes)]
  · intro hd
    exact ⟨d.entries, hd, Dict.ext (Dict.entries_ofList d.nodup)⟩

/-- Only an object is read as a dictionary. -/
theorem exists_object_of_readDict? {v : Value} {d : Dict α}
    (h : Node.readDict? f v.tree = some d) : ∃ members, v = .object members := by
  obtain ⟨fields, hfields, -⟩ := Option.bind_eq_some_iff.1 h
  obtain ⟨members, hv, -⟩ := fields?_tree_eq_some hfields
  exact ⟨members, hv⟩

/-- The value under a name is read from the member with the name. -/
theorem rel_of_readDict? {v : Value} (hv : v.WellFormed) {d : Dict α}
    (h : Node.readDict? f v.tree = some d) (name : String) :
    Option.Rel (fun w a => w.WellFormed ∧ f w.tree = some a) (v.member? name) (d.get? name) := by
  obtain ⟨members, rfl⟩ := exists_object_of_readDict? h
  have hread := (readDict?_eq_some_iff hv.1).1 h
  have hmembers := membersWellFormed_iff.1 hv.2
  rw [member?_object hv.1]
  unfold Dict.get?
  clear h hv
  generalize d.entries = es at hread
  induction hread with
  | nil => exact .none
  | @cons m e _ _ hm _ ih =>
    rw [List.forall_mem_cons] at hmembers
    rw [Dict.lookup_cons_eq_ite, show e = (m.1, e.2) from Prod.ext hm.1 rfl,
      Dict.lookup_cons_eq_ite]
    split_ifs
    · exact .some ⟨hmembers.1, hm.2⟩
    · exact ih hmembers.2

end

/-! ## Trees in general -/

section

variable {ν α : Type} {f : Node ν → Option α} {p : α → Prop}

/-- What is read of every tree holds of the fields that are read. -/
theorem forall_of_mapM {fields : Fields ν} {es : List (String × α)}
    (h : fields.mapM (fun m : String × Node ν => do return (m.1, ← f m.2)) = some es)
    (hf : ∀ node a, f node = some a → p a) :
    ∀ e ∈ (Dict.ofList es).entries, e.1 ∈ fields.map Prod.fst ∧ p e.2 := by
  have hentry : ∀ e ∈ es, ∃ m ∈ fields, e.1 = m.1 ∧ f m.2 = some e.2 := by
    refine forall_of_forall₂
      ((List.forall₂_and_left (p := (· ∈ fields)) _ _).2 ⟨fun m hm => hm, mapM_eq_some_iff.1 h⟩) ?_
    rintro m e ⟨hm, hread⟩
    obtain ⟨x, hx, heq⟩ := Option.bind_eq_some_iff.1 hread
    obtain rfl := Option.some.inj heq
    exact ⟨m, hm, rfl, hx⟩
  intro e he
  obtain ⟨m, hm, hname, hread⟩ := hentry e (Dict.mem_of_mem_ofList he)
  exact ⟨hname ▸ List.mem_map_of_mem hm, hf _ _ hread⟩

theorem forall_of_readDict? {node : Node ν} {d : Dict α} (h : Node.readDict? f node = some d)
    (hf : ∀ node a, f node = some a → p a) : ∀ a ∈ d.values, p a := by
  obtain ⟨fields, -, h⟩ := Option.bind_eq_some_iff.1 h
  obtain ⟨es, hes, h⟩ := Option.bind_eq_some_iff.1 h
  obtain rfl := Option.some.inj h
  intro a ha
  obtain ⟨k, hk⟩ := Dict.mem_values_iff.1 ha
  exact (forall_of_mapM hes hf _ hk).2

theorem forall_of_read? {fields : Fields ν} {name : String} {a : Option α}
    (h : fields.read? name f = some a) (hf : ∀ node x, f node = some x → p x) : ∀ x ∈ a, p x := by
  rintro x rfl
  obtain ⟨found, -, h⟩ := Option.bind_eq_some_iff.1 h
  cases found with
  | none => cases h
  | some node =>
    obtain ⟨y, hy, h⟩ := Option.bind_eq_some_iff.1 h
    obtain rfl := Option.some.inj (Option.some.inj h)
    exact hf node y hy

theorem forall_of_readNullable? {fields : Fields ν} {name : String} {a : Option α}
    (h : fields.readNullable? name f = some a) (hf : ∀ node x, f node = some x → p x) :
    ∀ x ∈ a, p x := by
  rintro x rfl
  obtain ⟨found, -, h⟩ := Option.bind_eq_some_iff.1 h
  split at h
  · cases h
  · cases h
  · rename_i node _
    obtain ⟨y, hy, h⟩ := Option.bind_eq_some_iff.1 h
    obtain rfl := Option.some.inj (Option.some.inj h)
    exact hf node y hy

end

end Keybinds.Json
