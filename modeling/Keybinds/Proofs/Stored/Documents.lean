import Keybinds.Stored.Document
import Keybinds.Proofs.Stored.Values

/-!
# Stored documents as values

What a document is read from field by field (`Document.ofNode?_eq_some_iff`), with which members it
is written (`Document.lookup_members`), and that reading it again gives the same document up to the
order of the unknown fields of its aliases (`Document.Fits.ofNode?_toValue`).
-/

namespace Keybinds.Stored

open Json (Value Node Numeric Fields fieldsOf)

variable {ν α β : Type} {num? : ν → Option Numeric} {depth : Nat}

/-! ## Dictionaries -/

theorem nodup_objectOf (f : α → Value) (d : Dict α) :
    ((d.entries.map fun (k, a) => (k, f a)).map Prod.fst).Nodup :=
  (d.map f).nodup

theorem member?_objectOf (f : α → Value) (d : Dict α) (name : String) :
    (objectOf f d).member? name = (d.get? name).map f := by
  rw [objectOf, Json.member?_object (nodup_objectOf f d)]
  exact Dict.get?_map d f name

/-- A dictionary of values that are read one by one is read. -/
theorem readDict?_objectOf {f : Node Numeric → Option β} {g : α → Value} {h : α → β} {d : Dict α}
    (hread : ∀ a ∈ d.values, f (g a).tree = some (h a)) :
    Node.readDict? f (objectOf g d).tree = some (d.map h) := by
  rw [objectOf, Json.readDict?_eq_some_iff (nodup_objectOf g d), Dict.entries_map,
    List.forall₂_map_left_iff, List.forall₂_map_right_iff, List.forall₂_same]
  exact fun e he => ⟨rfl, hread e.2 (Dict.mem_values_iff.2 ⟨e.1, he⟩)⟩

theorem readDict?_objectOf_self {f : Node Numeric → Option α} {g : α → Value} {d : Dict α}
    (hread : ∀ a ∈ d.values, f (g a).tree = some a) :
    Node.readDict? f (objectOf g d).tree = some d := by
  rw [readDict?_objectOf (h := id) hread, Dict.map_id]

/-! ## Unknown fields -/

theorem forall_of_extraOfFields? {fields : Fields ν} {names : List String} {d : Dict Value}
    (h : extraOfFields? num? depth (fields.without names) = some d) :
    (∀ v ∈ d.values, v.Fits depth) ∧ ∀ name ∈ d.keys, name ∉ names := by
  obtain ⟨es, hes, h⟩ := Option.bind_eq_some_iff.1 h
  obtain rfl := Option.some.inj h
  have hall := Json.forall_of_mapM hes fun _ _ => Json.fits_of_ofNode?
  constructor
  · intro v hv
    obtain ⟨k, hk⟩ := Dict.mem_values_iff.1 hv
    exact (hall _ hk).2
  · intro name hname
    obtain ⟨v, hv⟩ := Dict.mem_keys_iff.1 hname
    obtain ⟨field, hfield, rfl⟩ := List.mem_map.1 (hall _ hv).1
    simpa using (List.mem_filter.1 hfield).2

theorem extraOfFields?_fieldsOf (members : List (String × Value)) :
    extraOfFields? some depth (fieldsOf members) =
      Node.readDict? (Value.ofNode? some depth) (Value.object members).tree := by
  unfold Node.readDict?
  rw [Json.fields?_tree_object]
  rfl

/-- The unknown fields of an object are its members with other names than the known ones. -/
theorem get?_of_extraOfFields? {members : List (String × Value)}
    (hmembers : (Value.object members).WellFormed) {names : List String} {d : Dict Value}
    (h : extraOfFields? some depth ((fieldsOf members).without names) = some d) {name : String}
    (hname : name ∉ names) : d.get? name = (Value.object members).member? name := by
  let all : Dict Value := ⟨members, hmembers.1⟩
  let rest := all.filter fun k _ => !names.contains k
  have hrest : (Value.object rest.entries).WellFormed :=
    ⟨rest.nodup, Json.membersWellFormed_iff.2 fun m hm =>
      Json.membersWellFormed_iff.1 hmembers.2 m (List.mem_filter.1 hm).1⟩
  have hmember :
      (Value.object rest.entries).member? name = (Value.object members).member? name := by
    rw [Json.member?_object rest.nodup, Json.member?_object hmembers.1]
    show rest.get? name = all.get? name
    rw [Dict.get?_filter]
    cases all.get? name <;> simp [hname]
  rw [Json.without_fieldsOf, extraOfFields?_fieldsOf] at h
  have hrel := Json.rel_of_readDict? hrest h name
  have heq := Json.bind_eq_of_rel hrel (f := some) (g := some)
    fun _ _ hread => congrArg some (Json.eq_of_wellFormed hread.1 hread.2).symm
  rw [Option.bind_fun_some, Option.bind_fun_some, hmember] at heq
  exact heq.symm

/-- Unknown fields are read behind known ones. -/
theorem extraOfFields?_append (known : List (String × Value)) {names : List String} {d : Dict Value}
    (hknown : ∀ m ∈ known, m.1 ∈ names) (hnames : ∀ name ∈ d.keys, name ∉ names)
    (hfits : ∀ v ∈ d.values, v.Fits depth) :
    extraOfFields? some depth ((fieldsOf (known ++ d.entries)).without names) = some d := by
  have hfilter : (known ++ d.entries).filter (fun m => !names.contains m.1) = d.entries := by
    rw [List.filter_append, List.filter_eq_nil_iff.2 (by simpa using hknown), List.nil_append,
      List.filter_eq_self]
    intro e he
    simpa using hnames e.1 (Dict.mem_keys_iff.2 ⟨e.2, he⟩)
  rw [Json.without_fieldsOf, hfilter, extraOfFields?_fieldsOf]
  have hobject : Value.object d.entries = objectOf id d :=
    congrArg Value.object (List.map_id d.entries).symm
  rw [hobject]
  exact readDict?_objectOf_self hfits

/-! ## Lists -/

theorem commandsOfNode?_eq_some_iff {node : Node ν} {c : Commands} :
    commandsOfNode? num? depth node = some c ↔
      ∃ v, Value.ofNode? num? depth node = some v ∧ Commands.ofValue v = c :=
  Option.map_eq_some_iff

theorem Commands.Fits.ofNode?_toValue {c : Commands} (h : c.Fits depth) :
    commandsOfNode? some depth c.toValue.tree = some c :=
  commandsOfNode?_eq_some_iff.2 ⟨_, h⟩

theorem fits_of_commandsOfNode? {node : Node ν} {c : Commands}
    (h : commandsOfNode? num? depth node = some c) : c.Fits depth := by
  obtain ⟨v, hv, rfl⟩ := commandsOfNode?_eq_some_iff.1 h
  exact Commands.fits_ofValue (Json.fits_of_ofNode? hv)

/-- A dictionary of lists that are written and read again. -/
def KeysFit (depth : Nat) (keys : Dict Commands) : Prop :=
  ∀ c ∈ keys.values, c.Fits depth

theorem keysFit_of_readDict? {node : Node ν} {keys : Dict Commands}
    (h : Node.readDict? (commandsOfNode? num? depth) node = some keys) : KeysFit depth keys :=
  Json.forall_of_readDict? h fun _ _ => fits_of_commandsOfNode?

theorem KeysFit.readDict?_objectOf {keys : Dict Commands} (h : KeysFit depth keys) :
    Node.readDict? (commandsOfNode? some depth) (objectOf Commands.toValue keys).tree = some keys :=
  readDict?_objectOf_self fun c hc => (h c hc).ofNode?_toValue

/-! ## Builds -/

namespace Build

theorem ofNode?_eq_some_iff {node : Node ν} {b : Build} :
    Build.ofNode? num? depth node = some b ↔ ∃ fields, node.fields? = some fields ∧
      (fields.read? "keys" (Node.readDict? (commandsOfNode? num? (depth - 2)))).map (·.getD ∅) =
        some b.keys ∧
      extraOfFields? num? (depth - 1) (fields.without ["keys"]) = some b.extra := by
  unfold Build.ofNode?
  simp only [Option.bind_eq_bind, Option.bind_eq_some_iff, Option.pure_def, Option.some.injEq,
    Option.map_eq_some_iff]
  constructor
  · rintro ⟨fields, hfields, keys, hkeys, extra, hextra, rfl⟩
    exact ⟨fields, hfields, ⟨keys, hkeys, rfl⟩, hextra⟩
  · rintro ⟨fields, hfields, ⟨keys, hkeys, heq⟩, hextra⟩
    exact ⟨fields, hfields, keys, hkeys, b.extra, hextra, by rw [heq]⟩

/-- The build is written as a value of the depth and read from it again. -/
structure Fits (depth : Nat) (b : Build) : Prop where
  keys : KeysFit (depth - 2) b.keys
  extra : ∀ v ∈ b.extra.values, v.Fits (depth - 1)
  unknown : ∀ name ∈ b.extra.keys, name ∉ ["keys"]

theorem fits_of_ofNode? {node : Node ν} {b : Build} (h : Build.ofNode? num? depth node = some b) :
    b.Fits depth := by
  obtain ⟨fields, -, hkeys, hextra⟩ := ofNode?_eq_some_iff.1 h
  obtain ⟨keys, hkeys, heq⟩ := Option.map_eq_some_iff.1 hkeys
  have hfit := Json.forall_of_read? hkeys fun _ _ => keysFit_of_readDict?
  refine ⟨?_, (forall_of_extraOfFields? hextra).1, (forall_of_extraOfFields? hextra).2⟩
  rw [← heq]
  cases keys with
  | none => exact fun c hc => absurd hc List.not_mem_nil
  | some keys => exact hfit keys rfl

theorem nodup_members {b : Build} (h : "keys" ∉ b.extra.keys) (v : Value) :
    ((("keys", v) :: b.extra.entries).map Prod.fst).Nodup :=
  List.nodup_cons.2 ⟨h, b.extra.nodup⟩

theorem Fits.ofNode?_toValue {b : Build} (h : b.Fits depth) :
    Build.ofNode? some depth b.toValue.tree = some b := by
  have hnodup := nodup_members (fun hmem => h.unknown _ hmem List.mem_cons_self)
    (objectOf Commands.toValue b.keys)
  rw [ofNode?_eq_some_iff]
  refine ⟨_, Json.fields?_tree_object _, ?_, ?_⟩
  · have hread : (fieldsOf (("keys", objectOf Commands.toValue b.keys) :: b.extra.entries)).read?
        "keys" (Node.readDict? (commandsOfNode? some (depth - 2))) = some (some b.keys) :=
      (Json.read?_fieldsOf_iff hnodup).2 (Or.inr ⟨_, _, rfl, h.keys.readDict?_objectOf, rfl⟩)
    rw [hread]
    rfl
  · exact extraOfFields?_append [("keys", objectOf Commands.toValue b.keys)] (by simp) h.unknown
      h.extra

theorem member?_toValue {b : Build} (h : "keys" ∉ b.extra.keys) (name : String) :
    b.toValue.member? name =
      if name = "keys" then some (objectOf Commands.toValue b.keys) else b.extra.get? name := by
  rw [Build.toValue, Json.member?_object (nodup_members h _), Dict.lookup_cons_eq_ite]
  rfl

end Build

/-! ## Documents -/

theorem bind_of_eq_some {x : Option α} {a : α} (h : x = some a) (f : α → Option β) :
    x >>= f = f a := by
  rw [h]
  rfl

namespace Document

/-- The document is read from the fields. -/
structure IsReadFrom (num? : ν → Option Numeric) (depth : Nat) (fields : Fields ν) (d : Document) :
    Prop where
  name : fields.readNullable? "name" Node.readString? = some d.name
  description : fields.readNullable? "description" Node.readString? = some d.description
  currentEnvironment :
    fields.readNullable? "currentEnvironment" Node.readString? = some d.currentEnvironment
  mode : fields.readNullable? "mode" Node.readString? = some d.mode
  keys : fields.readNullable? "keys" (Node.readDict? (commandsOfNode? num? (depth - 2))) =
    some d.keys
  builds : (fields.read? "builds" (Node.readDict? (Build.ofNode? num? (depth - 2)))).map
    (·.getD ∅) = some d.builds
  aliases : (fields.read? "aliases" (Node.readDict? fun node =>
    (Value.ofNode? num? (depth - 2) node).map AliasEntry.ofValue)).map (·.getD ∅) = some d.aliases
  keyFlags : (fields.read? "keybindMetadata" (Node.readDict? (Node.readDict? Flags.ofNode?))).map
    (·.getD ∅) = some d.keyFlags
  aliasFlags : (fields.read? "aliasMetadata" (Node.readDict? Flags.ofNode?)).map (·.getD ∅) =
    some d.aliasFlags
  version : fields.readNullable? "migrationVersion" Node.readString? = some d.version
  created : fields.readNullable? "created" Node.readString? = some d.created
  lastModified : fields.readNullable? "lastModified" Node.readString? = some d.lastModified
  extra : extraOfFields? num? (depth - 1) (fields.without documentFields) = some d.extra

theorem ofNode?_eq_some_iff {node : Node ν} {d : Document} :
    Document.ofNode? num? depth node = some d ↔
      ∃ fields, node.fields? = some fields ∧ d.IsReadFrom num? depth fields := by
  unfold Document.ofNode?
  constructor
  · intro h
    obtain ⟨fields, hfields, h⟩ := Option.bind_eq_some_iff.1 h
    obtain ⟨name, hname, h⟩ := Option.bind_eq_some_iff.1 h
    obtain ⟨description, hdescription, h⟩ := Option.bind_eq_some_iff.1 h
    obtain ⟨environment, henvironment, h⟩ := Option.bind_eq_some_iff.1 h
    obtain ⟨mode, hmode, h⟩ := Option.bind_eq_some_iff.1 h
    obtain ⟨keys, hkeys, h⟩ := Option.bind_eq_some_iff.1 h
    obtain ⟨builds, hbuilds, h⟩ := Option.bind_eq_some_iff.1 h
    obtain ⟨aliases, haliases, h⟩ := Option.bind_eq_some_iff.1 h
    obtain ⟨keyFlags, hkeyFlags, h⟩ := Option.bind_eq_some_iff.1 h
    obtain ⟨aliasFlags, haliasFlags, h⟩ := Option.bind_eq_some_iff.1 h
    obtain ⟨version, hversion, h⟩ := Option.bind_eq_some_iff.1 h
    obtain ⟨created, hcreated, h⟩ := Option.bind_eq_some_iff.1 h
    obtain ⟨lastModified, hlastModified, h⟩ := Option.bind_eq_some_iff.1 h
    obtain ⟨extra, hextra, h⟩ := Option.bind_eq_some_iff.1 h
    obtain rfl := Option.some.inj h
    exact ⟨fields, hfields, hname, hdescription, henvironment, hmode, hkeys, by rw [hbuilds]; rfl,
      by rw [haliases]; rfl, by rw [hkeyFlags]; rfl, by rw [haliasFlags]; rfl, hversion, hcreated,
      hlastModified, hextra⟩
  · rintro ⟨fields, hfields, h⟩
    obtain ⟨builds, hbuilds, hbuilds'⟩ := Option.map_eq_some_iff.1 h.builds
    obtain ⟨aliases, haliases, haliases'⟩ := Option.map_eq_some_iff.1 h.aliases
    obtain ⟨keyFlags, hkeyFlags, hkeyFlags'⟩ := Option.map_eq_some_iff.1 h.keyFlags
    obtain ⟨aliasFlags, haliasFlags, haliasFlags'⟩ := Option.map_eq_some_iff.1 h.aliasFlags
    rw [bind_of_eq_some hfields, bind_of_eq_some h.name, bind_of_eq_some h.description,
      bind_of_eq_some h.currentEnvironment, bind_of_eq_some h.mode, bind_of_eq_some h.keys,
      bind_of_eq_some hbuilds, bind_of_eq_some haliases, bind_of_eq_some hkeyFlags,
      bind_of_eq_some haliasFlags, bind_of_eq_some h.version, bind_of_eq_some h.created,
      bind_of_eq_some h.lastModified, bind_of_eq_some h.extra, hbuilds', haliases', hkeyFlags',
      haliasFlags']
    rfl

/-- The document is written as a value of the depth and read from it again, up to the order of the
unknown fields of its aliases. -/
structure Fits (depth : Nat) (d : Document) : Prop where
  keys : ∀ keys ∈ d.keys, KeysFit (depth - 2) keys
  builds : ∀ b ∈ d.builds.values, b.Fits (depth - 2)
  aliases : ∀ a ∈ d.aliases.values, a.Fits (depth - 2)
  extra : ∀ v ∈ d.extra.values, v.Fits (depth - 1)
  unknown : ∀ name ∈ d.extra.keys, name ∉ documentFields

theorem forall_getD {d : Option (Dict α)} {p : α → Prop} (h : ∀ e ∈ d, ∀ a ∈ e.values, p a) :
    ∀ a ∈ (d.getD ∅).values, p a := by
  cases d with
  | none => exact fun a ha => absurd ha List.not_mem_nil
  | some e => exact h e rfl

/-- Four containers leave room for the list that an alias without one gets. -/
theorem fits_of_ofNode? (hdepth : 4 ≤ depth) {node : Node ν} {d : Document}
    (h : Document.ofNode? num? depth node = some d) : d.Fits depth := by
  obtain ⟨fields, -, h⟩ := ofNode?_eq_some_iff.1 h
  obtain ⟨builds, hbuilds, hbuilds'⟩ := Option.map_eq_some_iff.1 h.builds
  obtain ⟨aliases, haliases, haliases'⟩ := Option.map_eq_some_iff.1 h.aliases
  refine ⟨Json.forall_of_readNullable? h.keys fun _ _ => keysFit_of_readDict?, ?_, ?_,
    (forall_of_extraOfFields? h.extra).1, (forall_of_extraOfFields? h.extra).2⟩
  · rw [← hbuilds']
    refine forall_getD (Json.forall_of_read? hbuilds fun _ _ hread => ?_)
    exact Json.forall_of_readDict? hread fun _ _ => Build.fits_of_ofNode?
  · rw [← haliases']
    refine forall_getD (Json.forall_of_read? haliases fun _ _ hread => ?_)
    refine Json.forall_of_readDict? hread fun _ _ halias => ?_
    obtain ⟨v, hv, rfl⟩ := Option.map_eq_some_iff.1 halias
    exact AliasEntry.fits_ofValue (Json.fits_of_ofNode? hv) (by omega)

theorem fits_of_read? {text : String} {d : Document} (h : Document.read? text = some d) :
    d.Fits Json.deepest := by
  obtain ⟨node, -, hnode⟩ := Option.bind_eq_some_iff.1 h
  exact fits_of_ofNode? (by decide) hnode

/-! ## Written members -/

/-- The fields of a document with the values that they are written as, if they are written. -/
def table (d : Document) : List (String × Option Value) :=
  [("name", d.name.map .string), ("description", d.description.map .string),
    ("currentEnvironment", d.currentEnvironment.map .string), ("mode", d.mode.map .string),
    ("keys", d.keys.map (objectOf Commands.toValue)),
    ("builds", some (objectOf Build.toValue d.builds)),
    ("aliases", some (objectOf AliasEntry.toValue d.aliases)),
    ("keybindMetadata",
      if d.keyFlags.isEmpty then none else some (objectOf (objectOf Flags.toValue) d.keyFlags)),
    ("aliasMetadata",
      if d.aliasFlags.isEmpty then none else some (objectOf Flags.toValue d.aliasFlags)),
    ("migrationVersion", d.version.map .string), ("created", d.created.map .string),
    ("lastModified", d.lastModified.map .string)]

/-- The members that are written. -/
def present (table : List (String × Option Value)) : List (String × Value) :=
  table.filterMap fun field => field.2.map (field.1, ·)

theorem toValue_eq (d : Document) : d.toValue = .object (present d.table ++ d.extra.entries) := by
  have hoptional : ∀ {α : Type} (name : String) (f : α → Value) (a : Option α),
      optional name f a = ((a.map f).map (name, ·)).toList := by
    intro α name f a
    cases a <;> rfl
  have hunless : ∀ {α : Type} (name : String) (f : α → Value) (a : Dict α),
      unlessEmpty name f a =
        ((if a.isEmpty then none else some (objectOf f a)).map (name, ·)).toList := by
    intro α name f a
    unfold unlessEmpty
    split <;> rfl
  unfold toValue present table
  simp only [hoptional, hunless, filterMap_cons_toList, List.filterMap_nil, List.append_assoc,
    Option.map_some, Option.toList_some, List.nil_append]

theorem lookup_present {table : List (String × Option Value)} (h : (table.map Prod.fst).Nodup)
    (name : String) : (present table).lookup name = (table.lookup name).join := by
  induction table with
  | nil => rfl
  | cons field table ih =>
    obtain ⟨key, v⟩ := field
    rw [List.map_cons, List.nodup_cons] at h
    have hcons : present ((key, v) :: table) = (v.map (key, ·)).toList ++ present table :=
      filterMap_cons_toList _ _ _
    rw [hcons, List.lookup_append, Dict.lookup_cons_eq_ite, ih h.2]
    cases v with
    | none =>
      show (table.lookup name).join = _
      split_ifs with hname
      · rw [hname, Dict.lookup_of_notMem h.1]
        rfl
      · rfl
    | some v =>
      show ([(key, v)].lookup name).or _ = _
      rw [Dict.lookup_cons_eq_ite]
      split_ifs <;> rfl

theorem map_fst_table (d : Document) : d.table.map Prod.fst = documentFields := rfl

theorem nodup_documentFields : documentFields.Nodup := by decide

theorem map_fst_present_sublist (d : Document) :
    ((present d.table).map Prod.fst).Sublist documentFields := by
  rw [← map_fst_table d]
  refine map_filterMap_sublist (fun field m hm => ?_) d.table
  obtain ⟨v, -, rfl⟩ := Option.map_eq_some_iff.1 hm
  rfl

variable {d : Document}

theorem nodup_members (h : ∀ name ∈ d.extra.keys, name ∉ documentFields) :
    ((present d.table ++ d.extra.entries).map Prod.fst).Nodup := by
  rw [List.map_append, List.nodup_append']
  refine ⟨nodup_documentFields.sublist (map_fst_present_sublist d), d.extra.nodup, ?_⟩
  exact fun name hname hextra => h name hextra ((map_fst_present_sublist d).subset hname)

/-- A known field is written as its value in the table, an unknown one as it is. -/
theorem lookup_members (h : ∀ name ∈ d.extra.keys, name ∉ documentFields) (name : String) :
    (present d.table ++ d.extra.entries).lookup name =
      if name ∈ documentFields then (d.table.lookup name).join else d.extra.get? name := by
  rw [List.lookup_append, lookup_present (map_fst_table d ▸ nodup_documentFields)]
  split_ifs with hname
  · have hextra : d.extra.entries.lookup name = none :=
      Dict.get?_eq_none_iff.2 fun hmem => h name hmem hname
    rw [hextra, Option.or_none]
  · have hnone : d.table.lookup name = none := Dict.lookup_of_notMem hname
    rw [hnone]
    rfl

theorem member?_toValue (h : ∀ name ∈ d.extra.keys, name ∉ documentFields) (name : String) :
    d.toValue.member? name =
      if name ∈ documentFields then (d.table.lookup name).join else d.extra.get? name := by
  rw [toValue_eq, Json.member?_object (nodup_members h), lookup_members h]

/-! ## Reading a written document -/

theorem ofNode?_toValue_flags (flags : Flags) : Flags.ofNode? flags.toValue.tree = some flags := by
  cases flags with
  | mk stabilized => rfl

theorem readDict?_aliases {aliases : Dict AliasEntry} (h : ∀ a ∈ aliases.values, a.Fits depth) :
    Node.readDict? (fun node => (Value.ofNode? some depth node).map AliasEntry.ofValue)
      (objectOf AliasEntry.toValue aliases).tree =
        some (aliases.map fun a => .ofValue a.toValue) := by
  refine readDict?_objectOf fun a ha => ?_
  rw [(h a ha).toValue]
  rfl

section

variable (h : ∀ name ∈ d.extra.keys, name ∉ documentFields) {name : String}
  (hname : name ∈ documentFields)

include h hname

/-- A field that is written unless it is missing is read again. -/
theorem readNullable?_written {a : Option α} {f : Node Numeric → Option α} {g : α → Value}
    (htable : (d.table.lookup name).join = a.map g)
    (hread : ∀ x ∈ a, g x ≠ .null ∧ f (g x).tree = some x) :
    (fieldsOf (present d.table ++ d.extra.entries)).readNullable? name f = some a := by
  rw [Json.readNullable?_fieldsOf_iff (nodup_members h), lookup_members h, if_pos hname, htable]
  cases a with
  | none => exact Or.inl ⟨Or.inl rfl, rfl⟩
  | some x => exact Or.inr ⟨g x, x, rfl, (hread x rfl).1, (hread x rfl).2, rfl⟩

theorem readString?_written {text : Option String}
    (htable : (d.table.lookup name).join = text.map .string) :
    (fieldsOf (present d.table ++ d.extra.entries)).readNullable? name Node.readString? =
      some text :=
  readNullable?_written h hname htable fun _ _ => ⟨nofun, rfl⟩

/-- A dictionary that is always written is read again. -/
theorem readDict?_written {a : Dict α} {b : Dict β} {f : Node Numeric → Option β} {g : α → Value}
    (htable : (d.table.lookup name).join = some (objectOf g a))
    (hread : Node.readDict? f (objectOf g a).tree = some b) :
    ((fieldsOf (present d.table ++ d.extra.entries)).read? name (Node.readDict? f)).map
      (·.getD ∅) = some b := by
  have hlookup : (present d.table ++ d.extra.entries).lookup name = some (objectOf g a) := by
    rw [lookup_members h, if_pos hname, htable]
  rw [(Json.read?_fieldsOf_iff (nodup_members h)).2 (Or.inr ⟨_, b, hlookup, hread, rfl⟩)]
  rfl

/-- A dictionary that is written unless it is empty is read again. -/
theorem readUnlessEmpty?_written {a : Dict α} {f : Node Numeric → Option α} {g : α → Value}
    (htable : (d.table.lookup name).join = if a.isEmpty then none else some (objectOf g a))
    (hread : Node.readDict? f (objectOf g a).tree = some a) :
    ((fieldsOf (present d.table ++ d.extra.entries)).read? name (Node.readDict? f)).map
      (·.getD ∅) = some a := by
  split_ifs at htable with hempty
  · have hlookup : (present d.table ++ d.extra.entries).lookup name = none := by
      rw [lookup_members h, if_pos hname, htable]
    rw [(Json.read?_fieldsOf_iff (nodup_members h)).2 (Or.inl ⟨hlookup, rfl⟩)]
    exact congrArg some (Dict.ext (List.isEmpty_iff.1 hempty).symm)
  · exact readDict?_written h hname htable hread

end

/-- A document is read again from what it is written as. -/
theorem Fits.ofNode?_toValue (h : d.Fits depth) :
    Document.ofNode? some depth d.toValue.tree =
      some { d with aliases := d.aliases.map fun a => .ofValue a.toValue } := by
  have hu := h.unknown
  rw [toValue_eq, ofNode?_eq_some_iff]
  exact ⟨_, Json.fields?_tree_object _, {
    name := readString?_written hu (by decide) rfl
    description := readString?_written hu (by decide) rfl
    currentEnvironment := readString?_written hu (by decide) rfl
    mode := readString?_written hu (by decide) rfl
    keys := readNullable?_written hu (by decide) rfl fun keys hkeys =>
      ⟨nofun, (h.keys keys hkeys).readDict?_objectOf⟩
    builds := readDict?_written hu (by decide) rfl
      (readDict?_objectOf_self fun b hb => (h.builds b hb).ofNode?_toValue)
    aliases := readDict?_written hu (by decide) rfl (readDict?_aliases h.aliases)
    keyFlags := readUnlessEmpty?_written hu (by decide) rfl
      (readDict?_objectOf_self fun _ _ => readDict?_objectOf_self fun flags _ =>
        ofNode?_toValue_flags flags)
    aliasFlags := readUnlessEmpty?_written hu (by decide) rfl
      (readDict?_objectOf_self fun flags _ => ofNode?_toValue_flags flags)
    version := readString?_written hu (by decide) rfl
    created := readString?_written hu (by decide) rfl
    lastModified := readString?_written hu (by decide) rfl
    extra := extraOfFields?_append _
      (fun m hm => (map_fst_present_sublist d).subset (List.mem_map_of_mem hm)) hu h.extra }⟩

/-- The document that is read again has the same contents. -/
theorem Fits.same_reread (h : d.Fits depth) :
    Document.same { d with aliases := d.aliases.map fun a => .ofValue a.toValue } d = true := by
  have hkeys : ∀ {n : Nat} {keys : Dict Commands}, KeysFit n keys →
      keys.sameBy Commands.same keys = true :=
    fun hkeys => Dict.sameBy_self fun c hc => (hkeys c hc).same_self
  have hextra : ∀ {n : Nat} {extra : Dict Value}, (∀ v ∈ extra.values, v.Fits n) →
      Json.sameFields extra extra = true :=
    fun hextra => Json.sameFields_of_perm (List.Perm.refl _) fun e he =>
      hextra e.2 (Dict.mem_values_iff.2 ⟨e.1, he⟩)
  have hbuilds : d.builds.sameBy (fun x y =>
      x.keys.sameBy Commands.same y.keys && Json.sameFields x.extra y.extra) d.builds = true :=
    Dict.sameBy_self fun b hb => by
      rw [hkeys (h.builds b hb).keys, hextra (h.builds b hb).extra]
      rfl
  have haliases : (d.aliases.map fun a => .ofValue a.toValue).sameBy AliasEntry.same d.aliases =
      true :=
    Dict.sameBy_map fun a ha => (h.aliases a ha).same_reread
  have hflags : ∀ flags : Dict Flags, flags.sameBy (· == ·) flags = true :=
    fun flags => Dict.sameBy_self fun f _ => beq_self_eq_true f
  have hkeyFlags : d.keyFlags.sameBy (fun x y => x.sameBy (· == ·) y) d.keyFlags = true :=
    Dict.sameBy_self fun flags _ => hflags flags
  unfold same
  simp only [beq_self_eq_true, hbuilds, haliases, hflags, hkeyFlags, hextra h.extra,
    Bool.true_and, Bool.and_true]
  cases hk : d.keys with
  | none => rfl
  | some keys => exact hkeys (h.keys keys hk)

end Document

end Keybinds.Stored
