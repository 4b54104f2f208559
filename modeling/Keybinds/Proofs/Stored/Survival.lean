import Keybinds.Proofs.Stored.Documents

/-!
# What survives a rewrite

A document that was read from a value and written again keeps what the value holds: the unknown
members of the document, of its builds and of its aliases, every command list in whatever form, and
every alias that is no object. An object without a command list gets an empty one. Reading what was
written gives the same document again.
-/

namespace Keybinds

namespace Json

/-- The value that names lead to, from member to member. -/
def Value.at? (v : Value) (path : List String) : Option Value :=
  path.foldlM Value.member? v

theorem at?_singleton (v : Value) (name : String) : v.at? [name] = v.member? name :=
  Option.bind_fun_some _

theorem at?_append (v : Value) (path path' : List String) :
    v.at? (path ++ path') = (v.at? path).bind fun w => w.at? path' :=
  List.foldlM_append

theorem at?_concat (v : Value) (path : List String) (name : String) :
    v.at? (path ++ [name]) = (v.at? path).bind fun w => w.member? name := by
  rw [at?_append]
  simp only [at?_singleton]

end Json

namespace Stored

open Json (Value Node Numeric fieldsOf)

variable {α : Type} {depth : Nat}

/-! ## Dictionaries -/

/-- A dictionary that is a field of an object, and is empty where the field is missing, is read
member by member. -/
theorem rel_of_read? {members : List (String × Value)} (hwf : (Value.object members).WellFormed)
    {name : String} {f : Node Numeric → Option α} {d : Dict α}
    (h : ((fieldsOf members).read? name (Node.readDict? f)).map (·.getD ∅) = some d)
    (key : String) :
    Option.Rel (fun w a => w.WellFormed ∧ f w.tree = some a)
      ((Value.object members).at? [name, key]) (d.get? key) := by
  have hat : (Value.object members).at? [name, key] =
      (members.lookup name).bind fun w => w.member? key := by
    rw [← Json.member?_object hwf.1, ← Json.at?_singleton]
    exact Json.at?_concat _ [name] key
  rw [hat]
  obtain ⟨read, hread, rfl⟩ := Option.map_eq_some_iff.1 h
  obtain ⟨hlookup, rfl⟩ | ⟨v, d, hlookup, hd, rfl⟩ := (Json.read?_fieldsOf_iff hwf.1).1 hread
  · rw [hlookup]
    exact .none
  · rw [hlookup]
    have hv := Json.membersWellFormed_iff.1 hwf.2 _ (Dict.mem_of_lookup hlookup)
    exact Json.rel_of_readDict? hv hd key

theorem rel_of_readNullable? {members : List (String × Value)}
    (hwf : (Value.object members).WellFormed) {name : String} {f : Node Numeric → Option α}
    {d : Option (Dict α)}
    (h : (fieldsOf members).readNullable? name (Node.readDict? f) = some d) (key : String) :
    Option.Rel (fun w a => w.WellFormed ∧ f w.tree = some a)
      ((Value.object members).at? [name, key]) (d.bind fun d => d.get? key) := by
  have hat : (Value.object members).at? [name, key] =
      (members.lookup name).bind fun w => w.member? key := by
    rw [← Json.member?_object hwf.1, ← Json.at?_singleton]
    exact Json.at?_concat _ [name] key
  rw [hat]
  obtain ⟨hlookup | hlookup, rfl⟩ | ⟨v, d, hlookup, -, hd, rfl⟩ :=
    (Json.readNullable?_fieldsOf_iff hwf.1).1 h
  · rw [hlookup]
    exact .none
  · rw [hlookup]
    exact .none
  · rw [hlookup]
    have hv := Json.membersWellFormed_iff.1 hwf.2 _ (Dict.mem_of_lookup hlookup)
    exact Json.rel_of_readDict? hv hd key

theorem at?_objectOf {v : Value} {name : String} {f : α → Value} {d : Dict α}
    (h : v.member? name = some (objectOf f d)) (key : String) :
    v.at? [name, key] = (d.get? key).map f := by
  have hat := Json.at?_concat v [name] key
  rw [Json.at?_singleton, h] at hat
  exact hat.trans (member?_objectOf f d key)

/-! ## Lists, builds and aliases -/

theorem toValue_of_commandsOfNode? {v : Value} (hv : v.WellFormed) {c : Commands}
    (h : commandsOfNode? some depth v.tree = some c) : c.toValue = v := by
  obtain ⟨w, hw, rfl⟩ := commandsOfNode?_eq_some_iff.1 h
  obtain rfl := Json.eq_of_wellFormed hv hw
  exact Commands.toValue_ofValue hv

/-- Lists are written as the values that they were read from. -/
theorem map_toValue_of_rel {x : Option Value} {y : Option Commands}
    (h : Option.Rel (fun w c => w.WellFormed ∧ commandsOfNode? some depth w.tree = some c) x y) :
    y.map Commands.toValue = x := by
  cases h with
  | none => rfl
  | some h => exact congrArg some (toValue_of_commandsOfNode? h.1 h.2)

namespace Build

variable {v : Value} {b : Build}

/-- A build is written with its unknown members. -/
theorem member?_of_ofNode? (hv : v.WellFormed) (h : Build.ofNode? some depth v.tree = some b)
    {name : String} (hname : name ≠ "keys") : b.toValue.member? name = v.member? name := by
  have hfits := fits_of_ofNode? h
  obtain ⟨fields, hfields, -, hextra⟩ := ofNode?_eq_some_iff.1 h
  obtain ⟨members, rfl, rfl⟩ := Json.fields?_tree_eq_some hfields
  rw [member?_toValue fun hmem => hfits.unknown _ hmem List.mem_cons_self, if_neg hname]
  exact get?_of_extraOfFields? hv hextra (by simpa using hname)

/-- A build is written with its lists. -/
theorem list_of_ofNode? (hv : v.WellFormed) (h : Build.ofNode? some depth v.tree = some b)
    (key : String) : b.toValue.at? ["keys", key] = v.at? ["keys", key] := by
  have hfits := fits_of_ofNode? h
  obtain ⟨fields, hfields, hkeys, -⟩ := ofNode?_eq_some_iff.1 h
  obtain ⟨members, rfl, rfl⟩ := Json.fields?_tree_eq_some hfields
  have hmember := member?_toValue (fun hmem => hfits.unknown _ hmem List.mem_cons_self) "keys"
  rw [at?_objectOf hmember]
  exact map_toValue_of_rel (rel_of_read? hv hkeys key)

end Build

namespace AliasEntry

theorem eq_of_ofNode? {v : Value} (hv : v.WellFormed) {a : AliasEntry}
    (h : (Value.ofNode? some depth v.tree).map AliasEntry.ofValue = some a) : a = ofValue v := by
  obtain ⟨w, hw, rfl⟩ := Option.map_eq_some_iff.1 h
  rw [Json.eq_of_wellFormed hv hw]

/-- An alias is written with its members, apart from its list. -/
theorem member?_toValue_ofValue {v : Value} (hv : v.WellFormed) {name : String}
    (hname : name ≠ "commands") : (ofValue v).toValue.member? name = v.member? name := by
  cases hobject : v.asObject? with
  | none => rw [toValue_ofValue hv hobject]
  | some fields =>
    cases v with
    | object members =>
      obtain rfl := Option.some.inj hobject
      have hmember := AliasRecord.member?_toValue (Dict.ofList members)
        (AliasRecord.ofFields (Dict.ofList members)).commands name
      rw [if_neg hname] at hmember
      exact hmember
    | _ => cases hobject

/-- An alias is written with its list. -/
theorem list_toValue_ofValue {v : Value} (hv : v.WellFormed) {c : Value}
    (h : v.member? "commands" = some c) : (ofValue v).toValue.member? "commands" = some c := by
  cases v with
  | object members =>
    have hc : c.WellFormed := by
      rw [Json.member?_object hv.1] at h
      exact Json.membersWellFormed_iff.1 hv.2 _ (Dict.mem_of_lookup h)
    have hlist : (AliasRecord.ofFields (Dict.ofList members)).commands = .ofValue c := by
      rw [AliasRecord.commands_ofFields, show (Dict.ofList members).get? "commands" = some c from h]
      rfl
    have hmember := AliasRecord.member?_toValue (Dict.ofList members)
      (AliasRecord.ofFields (Dict.ofList members)).commands "commands"
    rw [if_pos rfl, hlist, Commands.toValue_ofValue hc] at hmember
    rw [← hmember, ← hlist]
    rfl
  | _ => cases h

end AliasEntry

/-! ## Documents -/

/-- What a value holds is in another one: what a document does not know at the top, in a build and
in an alias, every list, and every alias that is no object. -/
structure Survives (v out : Value) : Prop where
  unknown : ∀ name ∉ documentFields, out.at? [name] = v.at? [name]
  list : ∀ key, out.at? ["keys", key] = v.at? ["keys", key]
  buildMember : ∀ environment, ∀ name ≠ "keys",
    out.at? ["builds", environment, name] = v.at? ["builds", environment, name]
  buildList : ∀ environment key,
    out.at? ["builds", environment, "keys", key] = v.at? ["builds", environment, "keys", key]
  /-- Also a description and a type, whatever they are. -/
  aliasMember : ∀ name, ∀ member ≠ "commands",
    out.at? ["aliases", name, member] = v.at? ["aliases", name, member]
  aliasList : ∀ name c, v.at? ["aliases", name, "commands"] = some c →
    out.at? ["aliases", name, "commands"] = some c
  bareAlias : ∀ name a, v.at? ["aliases", name] = some a → a.asObject? = none →
    out.at? ["aliases", name] = some a

namespace Document

/-- A document is written with what the value that it was read from holds. -/
theorem survives_of_ofNode? {v : Value} (hv : v.WellFormed) {d : Document}
    (h : Document.ofNode? some depth v.tree = some d) : Survives v d.toValue := by
  obtain ⟨fields, hfields, h⟩ := ofNode?_eq_some_iff.1 h
  obtain ⟨members, rfl, rfl⟩ := Json.fields?_tree_eq_some hfields
  have hunknown := (forall_of_extraOfFields? h.extra).2
  have hmember : ∀ name ∈ documentFields, d.toValue.member? name = (d.table.lookup name).join :=
    fun name hname => (member?_toValue hunknown name).trans (if_pos hname)
  have hkeys : ∀ key, d.toValue.at? ["keys", key] =
      (d.keys.bind fun keys => keys.get? key).map Commands.toValue := by
    intro key
    have hkeys := hmember "keys" (by decide)
    change _ = d.keys.map (objectOf Commands.toValue) at hkeys
    cases hd : d.keys with
    | none =>
      have hat := Json.at?_concat d.toValue ["keys"] key
      rw [Json.at?_singleton, hkeys, hd] at hat
      exact hat
    | some keys =>
      rw [hd] at hkeys
      exact at?_objectOf hkeys key
  have hbuilds : ∀ environment, d.toValue.at? ["builds", environment] =
      (d.builds.get? environment).map Build.toValue :=
    at?_objectOf (hmember "builds" (by decide))
  have haliases : ∀ name, d.toValue.at? ["aliases", name] =
      (d.aliases.get? name).map AliasEntry.toValue :=
    at?_objectOf (hmember "aliases" (by decide))
  have hbuild : ∀ (environment : String) (path : List String),
      (∀ (w : Value) (b : Build), w.WellFormed →
        Build.ofNode? some (depth - 2) w.tree = some b → b.toValue.at? path = w.at? path) →
      d.toValue.at? (["builds", environment] ++ path) =
        (Value.object members).at? (["builds", environment] ++ path) := by
    intro environment path hpath
    rw [Json.at?_append, Json.at?_append, hbuilds, Option.bind_map]
    exact (Json.bind_eq_of_rel (rel_of_read? hv h.builds environment) fun w b hread =>
      (hpath w b hread.1 hread.2).symm).symm
  have halias : ∀ name, Option.Rel (fun w a => w.WellFormed ∧ a = (AliasEntry.ofValue w).toValue)
      ((Value.object members).at? ["aliases", name]) (d.toValue.at? ["aliases", name]) := by
    intro name
    rw [haliases]
    exact Json.rel_map (rel_of_read? hv h.aliases name) fun w a hread =>
      ⟨hread.1, congrArg _ (AliasEntry.eq_of_ofNode? hread.1 hread.2)⟩
  have hconcat : ∀ (w : Value) (name member : String), w.at? ["aliases", name, member] =
      (w.at? ["aliases", name]).bind fun a => a.member? member :=
    fun w name member => Json.at?_concat w ["aliases", name] member
  exact {
    unknown := fun name hname => by
      rw [Json.at?_singleton, Json.at?_singleton, member?_toValue hunknown, if_neg hname]
      exact get?_of_extraOfFields? hv h.extra hname
    list := fun key => by
      rw [hkeys]
      exact map_toValue_of_rel (rel_of_readNullable? hv h.keys key)
    buildMember := fun environment name hname => hbuild environment [name] fun w b hw hread => by
      rw [Json.at?_singleton, Json.at?_singleton, Build.member?_of_ofNode? hw hread hname]
    buildList := fun environment key => hbuild environment ["keys", key] fun w b hw hread =>
      Build.list_of_ofNode? hw hread key
    aliasMember := fun name member hmember => by
      rw [hconcat, hconcat]
      exact (Json.bind_eq_of_rel (halias name) fun w a ha => by
        rw [ha.2, AliasEntry.member?_toValue_ofValue ha.1 hmember]).symm
    aliasList := fun name c hc => by
      rw [hconcat] at hc ⊢
      obtain ⟨w, hw, hc⟩ := Option.bind_eq_some_iff.1 hc
      obtain ⟨a, ha, hwf, rfl⟩ := Json.exists_of_rel (halias name) hw
      rw [ha]
      exact AliasEntry.list_toValue_ofValue hwf hc
    bareAlias := fun name w hw hobject => by
      obtain ⟨a, ha, hwf, rfl⟩ := Json.exists_of_rel (halias name) hw
      rw [ha, AliasEntry.toValue_ofValue hwf hobject] }

/-- A document that was read from a value is read again from what it is written as, and what the
value holds is written. The depth that is read to has room for the list that an alias gets if it has
none: texts are read to a depth of `Json.deepest` containers. -/
theorem survives_rewrite {v : Value} (hv : v.WellFormed) (hdepth : 4 ≤ depth) {d : Document}
    (h : Document.ofNode? some depth v.tree = some d) :
    (∃ d', Document.ofNode? some depth d.toValue.tree = some d' ∧ d'.same d = true) ∧
      Survives v d.toValue := by
  have hfits := fits_of_ofNode? hdepth h
  exact ⟨⟨_, hfits.ofNode?_toValue, hfits.same_reread⟩, survives_of_ofNode? hv h⟩

/-- A profile with unknown members everywhere, a list of each form, an alias whose type is a number,
one without a list, one that is a text and one that is nothing. -/
def weatheredProfile : Value :=
  .object [("theme", .string "dark"), ("name", .string "Main"), ("mode", .null),
    ("keys", .object [("F1", .string "FireAll$$say hi"), ("F2", .null)]),
    ("builds", .object [("space", .object [("note", .array [.null]),
      ("keys", .object [("F3", .array [.string "FireAll",
        .object [("icon", .string "b.png"), ("command", .string "say x")], .bool true])])])]),
    ("aliases", .object [
      ("attack", .object [("x", .bool true), ("type", .number (.int 7)),
        ("commands", .string "FireAll"), ("description", .string "all"), ("y", .null)]),
      ("listless", .object [("z", .object [])]), ("bare", .string "FireAll"), ("none", .null)]),
    ("aliasMetadata", .object [("attack", .object [("stabilizeExecutionOrder", .bool true)])])]

theorem survives_rewrite_weatheredProfile :
    weatheredProfile.WellFormed ∧
      ∃ d, Document.ofNode? some Json.deepest weatheredProfile.tree = some d ∧
        (∃ d', Document.ofNode? some Json.deepest d.toValue.tree = some d' ∧ d'.same d = true) ∧
        Survives weatheredProfile d.toValue := by
  have hwf : weatheredProfile.WellFormed := by
    simp [weatheredProfile, Value.WellFormed, Json.ItemsWellFormed, Json.MembersWellFormed]
  have hsome : (Document.ofNode? some Json.deepest weatheredProfile.tree).isSome = true := by
    decide +kernel
  obtain ⟨d, hd⟩ := Option.isSome_iff_exists.1 hsome
  exact ⟨hwf, d, hd, survives_rewrite hwf (by decide) hd⟩

end Document

end Stored

end Keybinds
