import Keybinds.Stored.AliasEntry
import Keybinds.Proofs.Json.Fields
import Keybinds.Proofs.Stored.Lists

/-!
# Stored lists and aliases as values

A command list in any form, and an alias that is no object, are written as the value that they were
read from. The record of an alias is written with the members that it was read from and with its
list (`AliasRecord.member?_toValue`), so reading it again gives the same record up to the order of
its unknown fields (`AliasEntry.Fits.same_reread`).
-/

namespace Keybinds.Stored

open Json (Value)

variable {depth : Nat}

/-! ## Command lists -/

theorem Element.toValue_ofValue {v : Value} (h : v.WellFormed) :
    (Element.ofValue v).toValue = v := by
  cases v with
  | object members =>
    show Value.object (Dict.ofList members).entries = _
    rw [Dict.entries_ofList h.1]
  | _ => rfl

theorem Element.same_self {v : Value} (h : v.Fits depth) :
    (Element.ofValue v).same (Element.ofValue v) = true := by
  cases v with
  | string s => exact beq_self_eq_true s
  | object members =>
    obtain ⟨hnodup, d, rfl, hmembers⟩ := Json.fits_object_iff.1 h
    have hfits : ∀ e ∈ (Dict.ofList members).entries, e.2.Fits d := by
      rwa [Dict.entries_ofList hnodup]
    exact Json.sameFields_of_perm (List.Perm.refl _) hfits
  | _ => exact Json.same_self_of_fits h

namespace Commands

/-- A list is written as the value that it was read from. -/
theorem toValue_ofValue {v : Value} (h : v.WellFormed) : (Commands.ofValue v).toValue = v := by
  cases v with
  | array items =>
    show Value.array ((items.map Element.ofValue).map Element.toValue) = _
    rw [List.map_map, Value.array.injEq]
    refine (List.map_congr_left fun v hv => ?_).trans (List.map_id items)
    exact Element.toValue_ofValue (Json.itemsWellFormed_iff.1 h v hv)
  | _ => rfl

/-- The list is written as a value of the depth and read from it again. -/
def Fits (depth : Nat) (c : Commands) : Prop :=
  c.toValue.Fits depth ∧ Commands.ofValue c.toValue = c

theorem fits_ofValue {v : Value} (h : v.Fits depth) : (Commands.ofValue v).Fits depth := by
  unfold Fits
  rw [toValue_ofValue (Json.wellFormed_of_ofNode? h)]
  exact ⟨h, rfl⟩

theorem fits_ofChain (h : 0 < depth) (chain : List String) : (ofChain chain).Fits depth := by
  obtain ⟨d, rfl⟩ := Nat.exists_eq_add_of_lt h
  have hvalue : (ofChain chain).toValue = .array (chain.map .string) := by
    show Value.array ((chain.map Element.plain).map Element.toValue) = _
    rw [List.map_map]
    rfl
  unfold Fits
  rw [hvalue, Json.fits_array_iff]
  refine ⟨⟨_, rfl, List.forall_mem_map.2 fun _ _ => rfl⟩, ?_⟩
  show list ((chain.map Value.string).map Element.ofValue) = _
  rw [List.map_map]
  rfl

theorem Fits.same_self {c : Commands} (h : c.Fits depth) : c.same c = true := by
  obtain ⟨hfits, heq⟩ := h
  rw [← heq]
  cases hv : c.toValue with
  | string s => exact beq_self_eq_true s
  | array items =>
    rw [hv] at hfits
    obtain ⟨d, rfl, hitems⟩ := Json.fits_array_iff.1 hfits
    show (_ == _ && _) = true
    rw [beq_self_eq_true, Bool.true_and]
    clear hfits hv
    induction items with
    | nil => rfl
    | cons v items ih =>
      rw [List.forall_mem_cons] at hitems
      rw [List.map_cons, List.zip_cons_cons, List.all_cons, Bool.and_eq_true]
      exact ⟨Element.same_self hitems.1, ih hitems.2⟩
  | _ => exact Json.same_self_of_fits (hv ▸ hfits)

end Commands

/-! ## Records -/

theorem takeString_fst (fields : Dict Value) (name : String) :
    (takeString fields name).1 = (fields.get? name).bind Value.asString? := by
  unfold takeString
  split
  · rename_i s h
    rw [h]
    rfl
  · rename_i h
    cases hv : fields.get? name with
    | none => rfl
    | some v =>
      cases v with
      | string s => exact absurd hv (h s)
      | _ => rfl

/-- Only a text is taken out. -/
theorem get?_takeString_snd (fields : Dict Value) (name k : String) :
    (takeString fields name).2.get? k =
      if k = name ∧ ((fields.get? name).bind Value.asString?).isSome then none
      else fields.get? k := by
  rw [← takeString_fst]
  unfold takeString
  split
  · simp [Dict.get?_swapErase]
  · simp

namespace AliasRecord

variable {fields : Dict Value}

/-- The known fields of a record except for its list. -/
def textFields : List String := ["description", "type"]

theorem commands_ofFields (fields : Dict Value) :
    (ofFields fields).commands =
      ((fields.get? "commands").map Commands.ofValue).getD default := rfl

theorem description_ofFields (fields : Dict Value) :
    (ofFields fields).description = (fields.get? "description").bind Value.asString? := by
  unfold ofFields
  simp [takeString_fst, Dict.get?_swapErase]

theorem tag_ofFields (fields : Dict Value) :
    (ofFields fields).tag = (fields.get? "type").bind Value.asString? := by
  unfold ofFields
  simp [takeString_fst, get?_takeString_snd, Dict.get?_swapErase]

/-- The unknown fields are those that are neither the list nor a text. -/
theorem get?_extra_ofFields (fields : Dict Value) (name : String) :
    (ofFields fields).extra.get? name =
      if name = "commands" ∨
        name ∈ textFields ∧ ((fields.get? name).bind Value.asString?).isSome then none
      else fields.get? name := by
  unfold ofFields textFields
  simp only [get?_takeString_snd, Dict.get?_swapErase]
  grind

/-- The members that a record is written with. -/
def members (r : AliasRecord) : List (String × Value) :=
  ("commands", r.commands.toValue) ::
    ((r.description.map fun s => ("description", Value.string s)).toList ++
      (r.tag.map fun s => ("type", Value.string s)).toList ++ r.extra.entries)

/-- The record that is read from some fields, with another list. -/
def withCommands (fields : Dict Value) (c : Commands) : AliasRecord :=
  { ofFields fields with commands := c }

@[simp] theorem commands_withCommands (fields : Dict Value) (c : Commands) :
    (withCommands fields c).commands = c := rfl

@[simp] theorem description_withCommands (fields : Dict Value) (c : Commands) :
    (withCommands fields c).description = (ofFields fields).description := rfl

@[simp] theorem tag_withCommands (fields : Dict Value) (c : Commands) :
    (withCommands fields c).tag = (ofFields fields).tag := rfl

@[simp] theorem extra_withCommands (fields : Dict Value) (c : Commands) :
    (withCommands fields c).extra = (ofFields fields).extra := rfl

theorem lookup_text (name key : String) (text : Option String) :
    (text.map fun s => (key, Value.string s)).toList.lookup name =
      if name = key then text.map .string else none := by
  cases text with
  | none => simp
  | some s => simp [Dict.lookup_cons_eq_ite]

theorem lookup_members (fields : Dict Value) (c : Commands) (name : String) :
    (withCommands fields c).members.lookup name =
      if name = "commands" then some c.toValue else fields.get? name := by
  have htext : ∀ v : Option Value, ((v.bind Value.asString?).map .string).or
      (if (v.bind Value.asString?).isSome then none else v) = v := by
    rintro (_ | _ | _ | _ | s | _ | _) <;> rfl
  have hextra : (withCommands fields c).extra.entries.lookup name = _ :=
    get?_extra_ofFields fields name
  unfold members
  rw [Dict.lookup_cons_eq_ite, List.lookup_append, List.lookup_append, lookup_text, lookup_text,
    hextra, description_withCommands, tag_withCommands, description_ofFields, tag_ofFields]
  by_cases hcommands : name = "commands"
  · rw [if_pos hcommands, if_pos hcommands, commands_withCommands]
  rw [if_neg hcommands, if_neg hcommands]
  by_cases hdescription : name = "description"
  · subst hdescription
    simpa [textFields] using htext (fields.get? "description")
  by_cases htag : name = "type"
  · subst htag
    simpa [textFields] using htext (fields.get? "type")
  simp [textFields, hcommands, hdescription, htag]

theorem map_fst_members (r : AliasRecord) :
    r.members.map Prod.fst = "commands" :: ((r.description.map fun _ => "description").toList ++
      (r.tag.map fun _ => "type").toList ++ r.extra.keys) := by
  unfold members
  cases r.description <;> cases r.tag <;> rfl

theorem nodup_members (fields : Dict Value) (c : Commands) :
    ((withCommands fields c).members.map Prod.fst).Nodup := by
  have htext : ∀ name ∈ textFields, ((fields.get? name).bind Value.asString?).isSome = true →
      name ∉ (ofFields fields).extra.keys := by
    intro name hname hsome
    rw [← Dict.get?_eq_none_iff, get?_extra_ofFields, if_pos (Or.inr ⟨hname, hsome⟩)]
  have hcommands : "commands" ∉ (ofFields fields).extra.keys := by
    rw [← Dict.get?_eq_none_iff, get?_extra_ofFields, if_pos (Or.inl rfl)]
  have hdescription := htext "description" (by decide)
  have htag := htext "type" (by decide)
  have hextra : (ofFields fields).extra.keys.Nodup := Dict.nodup _
  rw [← description_ofFields] at hdescription
  rw [← tag_ofFields] at htag
  rw [map_fst_members, description_withCommands, tag_withCommands, extra_withCommands]
  cases hd : (ofFields fields).description <;> cases ht : (ofFields fields).tag <;>
    simp_all

/-- A record is written with the members that it was read from, apart from its list. -/
theorem toValue_withCommands (fields : Dict Value) (c : Commands) :
    (withCommands fields c).toValue = .object (withCommands fields c).members :=
  congrArg Value.object (Json.distinct_eq_self (nodup_members fields c))

theorem member?_toValue (fields : Dict Value) (c : Commands) (name : String) :
    (withCommands fields c).toValue.member? name =
      if name = "commands" then some c.toValue else fields.get? name := by
  rw [toValue_withCommands, Json.member?_object (nodup_members fields c), lookup_members]

/-- The record depends on the contents of the fields only, up to the order of the unknown ones. -/
theorem ofFields_congr {a b : Dict Value} (h : ∀ name ≠ "commands", a.get? name = b.get? name) :
    (ofFields a).description = (ofFields b).description ∧ (ofFields a).tag = (ofFields b).tag ∧
      (ofFields a).extra.Same (ofFields b).extra := by
  refine ⟨?_, ?_, fun name => ?_⟩
  · rw [description_ofFields, description_ofFields, h _ (by decide)]
  · rw [tag_ofFields, tag_ofFields, h _ (by decide)]
  · rw [get?_extra_ofFields, get?_extra_ofFields]
    by_cases hname : name = "commands"
    · rw [if_pos (Or.inl hname), if_pos (Or.inl hname)]
    · rw [h name hname]

/-- The record is read from fields that are values of the depth, except for its list, which is
any. -/
def Fits (depth : Nat) (r : AliasRecord) : Prop :=
  ∃ fields c, r = withCommands fields c ∧ (∀ v ∈ fields.values, v.Fits depth) ∧ c.Fits depth

theorem Fits.toValue {r : AliasRecord} (h : r.Fits depth) : r.toValue.Fits (depth + 1) := by
  obtain ⟨fields, c, rfl, hfields, hc⟩ := h
  rw [toValue_withCommands, Json.fits_object_iff]
  refine ⟨nodup_members fields c, depth, rfl, ?_⟩
  rintro ⟨name, v⟩ hm
  have hlookup := Dict.lookup_of_mem (nodup_members fields c) hm
  rw [lookup_members] at hlookup
  split_ifs at hlookup with hname
  · exact Option.some.inj hlookup ▸ hc.1
  · exact hfields v (Dict.mem_values_iff.2 ⟨name, Dict.get?_eq_some_iff.1 hlookup⟩)

theorem Fits.nodup_members {r : AliasRecord} (h : r.Fits depth) :
    (r.members.map Prod.fst).Nodup := by
  obtain ⟨fields, c, rfl, -⟩ := h
  exact AliasRecord.nodup_members fields c

/-- Reading a record again changes the order of its unknown fields at most. -/
theorem Fits.reread {r : AliasRecord} (h : r.Fits depth) :
    (ofFields (Dict.ofList r.members)).commands = r.commands ∧
      (ofFields (Dict.ofList r.members)).description = r.description ∧
      (ofFields (Dict.ofList r.members)).tag = r.tag ∧
      (ofFields (Dict.ofList r.members)).extra.Same r.extra := by
  obtain ⟨fields, c, rfl, -, hc⟩ := h
  have hget : ∀ name, (Dict.ofList (withCommands fields c).members).get? name =
      if name = "commands" then some c.toValue else fields.get? name := by
    intro name
    unfold Dict.get?
    rw [Dict.entries_ofList (AliasRecord.nodup_members fields c), lookup_members, Dict.get?]
  refine ⟨?_, ofFields_congr fun name hname => by rw [hget, if_neg hname]⟩
  rw [commands_ofFields, hget, if_pos rfl]
  exact hc.2

theorem Fits.same_reread {r : AliasRecord} (h : r.Fits depth) :
    (ofFields (Dict.ofList r.members)).same r = true := by
  obtain ⟨hcommands, hdescription, htag, hextra⟩ := h.reread
  obtain ⟨fields, c, rfl, hfields, hc⟩ := h
  unfold same
  rw [hcommands, hdescription, htag, commands_withCommands, hc.same_self, beq_self_eq_true,
    beq_self_eq_true, Bool.true_and, Bool.true_and, Bool.true_and]
  refine Json.sameFields_of_perm hextra.perm fun e he => show e.2.Fits depth from hfields e.2 ?_
  have hget := Dict.get?_eq_some_iff.2 (hextra.perm.subset he)
  rw [extra_withCommands, get?_extra_ofFields] at hget
  split_ifs at hget
  exact Dict.mem_values_iff.2 ⟨e.1, Dict.get?_eq_some_iff.1 hget⟩

end AliasRecord

/-! ## Aliases -/

namespace AliasEntry

/-- The alias is written as a value of the depth and read from it again, a record up to the order of
its unknown fields. -/
def Fits (depth : Nat) : AliasEntry → Prop
  | .record r => ∃ d, depth = d + 1 ∧ r.Fits d
  | .bare c => c.Fits depth ∧ ofValue c.toValue = .bare c
  | .malformed value => value.Fits depth ∧ ofValue value = .malformed value

/-- An alias that is no object is written as the value that it was read from. -/
theorem toValue_ofValue {v : Value} (h : v.WellFormed) (hobject : v.asObject? = none) :
    (ofValue v).toValue = v := by
  cases v with
  | array items => exact Commands.toValue_ofValue h
  | object members => cases hobject
  | _ => rfl

/-- Two containers leave room for the list that an object without one gets. -/
theorem fits_ofValue {v : Value} (h : v.Fits depth) (hdepth : 2 ≤ depth) :
    (ofValue v).Fits depth := by
  have hwf := Json.wellFormed_of_ofNode? h
  cases v with
  | object members =>
    obtain ⟨hnodup, d, rfl, hmembers⟩ := Json.fits_object_iff.1 h
    refine ⟨d, rfl, Dict.ofList members, (AliasRecord.ofFields (Dict.ofList members)).commands, rfl,
      ?_, ?_⟩
    · unfold Dict.values
      rw [Dict.entries_ofList hnodup, List.forall_mem_map]
      exact hmembers
    · show (((Dict.ofList members).get? "commands").map Commands.ofValue |>.getD default).Fits d
      cases hc : (Dict.ofList members).get? "commands" with
      | none => exact Commands.fits_ofChain (by omega) []
      | some v =>
        rw [Dict.get?_eq_some_iff, Dict.entries_ofList hnodup] at hc
        exact Commands.fits_ofValue (hmembers _ hc)
  | array items =>
    exact ⟨Commands.fits_ofValue h, congrArg ofValue (Commands.toValue_ofValue hwf)⟩
  | string s => exact ⟨Commands.fits_ofValue h, rfl⟩
  | _ => exact ⟨h, rfl⟩

theorem Fits.toValue {a : AliasEntry} (h : a.Fits depth) : a.toValue.Fits depth := by
  cases a with
  | record r =>
    obtain ⟨d, rfl, hr⟩ := h
    exact hr.toValue
  | bare c => exact h.1.1
  | malformed value => exact h.1

/-- Reading an alias again changes the order of its unknown fields at most. -/
theorem Fits.same_reread {a : AliasEntry} (h : a.Fits depth) :
    (ofValue a.toValue).same a = true := by
  cases a with
  | record r =>
    obtain ⟨d, rfl, hr⟩ := h
    obtain ⟨fields, c, rfl, -⟩ := id hr
    show (ofValue (AliasRecord.withCommands fields c).toValue).same _ = true
    rw [AliasRecord.toValue_withCommands]
    exact hr.same_reread
  | bare c =>
    show (ofValue c.toValue).same _ = true
    rw [h.2]
    exact h.1.same_self
  | malformed value =>
    show (ofValue value).same _ = true
    rw [h.2]
    exact Json.same_self_of_fits h.1

/-- The record that an alias becomes may have any list that fits inside. -/
theorem Fits.withList {a : AliasEntry} (h : a.Fits (depth + 1)) {c : Commands} (hc : c.Fits depth) :
    (AliasEntry.record { a.toRecord with commands := c }).Fits (depth + 1) := by
  have hempty : ∀ v ∈ (∅ : Dict Value).values, v.Fits depth :=
    fun v hv => absurd hv List.not_mem_nil
  refine ⟨depth, rfl, ?_⟩
  cases a with
  | record r =>
    obtain ⟨d, hd, fields, c', hr, hfields, -⟩ := h
    obtain rfl : depth = d := Nat.add_right_cancel hd
    exact ⟨fields, c, by rw [toRecord, hr]; rfl, hfields, hc⟩
  | bare c' => exact ⟨∅, c, rfl, hempty, hc⟩
  | malformed value => exact ⟨∅, c, rfl, hempty, hc⟩

end AliasEntry

end Keybinds.Stored
