import Keybinds.Proofs.Migration.Reports

/-!
# Malformed items

The inventory of a document (`itemsMet`) lists what may be impossible to interpret: the command
lists of keys, as the keys are bound once the top-level ones are moved, and the aliases that are
there when the shapes are looked at first, each followed by its list and by the elements of that
list. Every item has a place of its own, so that two entries of a report that look alike still stand
for two items.

The report of a normalized document has one entry for each item with a fault, in the order of the
inventory, and no other (`reportsOnce_normalize`). Nulls and blank texts have none: they are
dropped.
-/

namespace Keybinds.Migration

open Json (Value)
open Stored (Element Commands AliasEntry Build Document richCommand)

/-! ## Faults -/

/-- What is looked at when the shapes of a document are. -/
inductive Content where
  | whole (a : AliasEntry)
  | list (c : Commands)
  | element (e : Element)

namespace Content

/-- The content cannot be interpreted, for the given reason. -/
inductive HasFault : Content → String → Prop
  | whole (v : Value) : HasFault (.whole (.malformed v)) ("alias is " ++ v.kind)
  | list (v : Value) : HasFault (.list (.malformed v)) ("command list is " ++ v.kind)
  | element {v : Value} (h : v ≠ .null) :
    HasFault (.element (.malformed v)) ("command is " ++ v.kind)
  | object {fields : Dict Value} {fault : Stored.RichFault}
    (h : richCommand fields = .error fault) :
    HasFault (.element (.rich fields)) fault.message

/-- The reason why the content cannot be interpreted. -/
def fault? : Content → Option String
  | .whole (.malformed v) => some ("alias is " ++ v.kind)
  | .list (.malformed v) => some ("command list is " ++ v.kind)
  | .element (.malformed .null) => none
  | .element (.malformed v) => some ("command is " ++ v.kind)
  | .element (.rich fields) =>
    match richCommand fields with
    | .ok _ => none
    | .error fault => some fault.message
  | _ => none

theorem fault?_eq_some_iff {content : Content} {reason : String} :
    content.fault? = some reason ↔ content.HasFault reason := by
  constructor
  · intro h
    unfold fault? at h
    split at h
    · obtain rfl := Option.some.inj h
      exact .whole _
    · obtain rfl := Option.some.inj h
      exact .list _
    · cases h
    · obtain rfl := Option.some.inj h
      rename_i hnull
      exact .element hnull
    · split at h
      · cases h
      · rename_i hrich
        obtain rfl := Option.some.inj h
        exact .object hrich
    · cases h
  · intro h
    cases h with
    | whole v => rfl
    | list v => rfl
    | @element v h => cases v <;> first | rfl | exact absurd rfl h
    | object h => simp only [fault?, h]

/-- Whether the content cannot be interpreted. -/
def IsFaulty (content : Content) : Prop := ∃ reason, content.HasFault reason

theorem isSome_fault?_iff {content : Content} :
    content.fault?.isSome = true ↔ content.IsFaulty := by
  unfold IsFaulty
  simp only [Option.isSome_iff_exists, fault?_eq_some_iff]

instance : DecidablePred IsFaulty := fun _ => decidable_of_iff _ isSome_fault?_iff

/-! ### Of JSON values -/

theorem isFaulty_list_iff (v : Value) :
    IsFaulty (.list (.ofValue v)) ↔ (∀ s, v ≠ .string s) ∧ ∀ items, v ≠ .array items := by
  rw [← isSome_fault?_iff]
  cases v <;> simp [Commands.ofValue, fault?]

theorem isFaulty_whole_iff (v : Value) :
    IsFaulty (.whole (.ofValue v)) ↔
      (∀ members, v ≠ .object members) ∧ (∀ s, v ≠ .string s) ∧ ∀ items, v ≠ .array items := by
  rw [← isSome_fault?_iff]
  cases v <;> simp [AliasEntry.ofValue, fault?]

theorem isFaulty_element_iff (v : Value) :
    IsFaulty (.element (.ofValue v)) ↔
      (∃ b, v = .bool b) ∨ (∃ n, v = .number n) ∨ (∃ items, v = .array items) ∨
        ∃ members fault, v = .object members ∧
          richCommand (Dict.ofList members) = .error fault := by
  constructor
  · rintro ⟨reason, h⟩
    cases v with
    | null => cases h with | element hnull => exact absurd rfl hnull
    | bool b => exact Or.inl ⟨b, rfl⟩
    | number n => exact Or.inr (Or.inl ⟨n, rfl⟩)
    | string s => cases h
    | array items => exact Or.inr (Or.inr (Or.inl ⟨items, rfl⟩))
    | object members =>
      cases h with | object hrich => exact Or.inr (Or.inr (Or.inr ⟨members, _, rfl, hrich⟩))
  · rintro (⟨b, rfl⟩ | ⟨n, rfl⟩ | ⟨items, rfl⟩ | ⟨members, fault, rfl, hrich⟩)
    · exact ⟨_, .element nofun⟩
    · exact ⟨_, .element nofun⟩
    · exact ⟨_, .element nofun⟩
    · exact ⟨_, .object hrich⟩

end Content

/-! ## The inventory -/

/-- What a command list belongs to. -/
inductive Owner where
  | key (environment key : String)
  | aliasName (name : String)
  deriving DecidableEq, Repr

/-- A part of what is stored for a key or an alias. -/
inductive Part where
  /-- All that is stored for an alias. -/
  | whole
  | list
  | element (i : Nat)
  deriving DecidableEq, Repr

structure Item where
  owner : Owner
  part : Part
  /-- The location that messages name. -/
  location : String
  content : Content

def Item.place (item : Item) : Owner × Part := (item.owner, item.part)

/-- The elements of a list; other lists have none. -/
def elementsOf : Commands → List Element
  | .list elements => elements
  | _ => []

/-- A command list and behind it its elements. -/
def listItems (owner : Owner) (location : String) (c : Commands) : List Item :=
  ⟨owner, .list, location, .list c⟩ :: (elementsOf c).mapIdx fun i e =>
    ⟨owner, .element i, elementLocation location i, .element e⟩

/-- An alias and behind it its list, if it has one. -/
def aliasItems (name : String) (a : AliasEntry) : List Item :=
  ⟨.aliasName name, .whole, "aliases." ++ name, .whole a⟩ ::
    (a.commands?.map (listItems (.aliasName name) (aliasLocation name a))).getD []

/-- Whether an alias is there when the shapes are looked at first. From version 2.0.0 on, and before
2.1.0, generated ones are removed before. -/
def IsMet (v : Version) (name : String) (a : AliasEntry) : Prop :=
  v < ⟨2, 0, 0⟩ ∨ ¬ (v < ⟨2, 1, 0⟩ ∧ isGenerated name a = true)

instance (v : Version) (name : String) (a : AliasEntry) : Decidable (IsMet v name a) :=
  inferInstanceAs (Decidable (_ ∨ _))

/-- The items of the keys, by environment and key. -/
def keyItems (d : Document) : List Item :=
  (boundEnvironments d).flatMap fun environment =>
    (boundKeys d environment).flatMap fun e =>
      listItems (.key environment e.1) (keyLocation environment e.1) e.2

/-- The items of a document: those of the keys and behind them those of the aliases that are met. -/
def itemsMet (d : Document) : List Item :=
  keyItems d ++
    (d.aliases.entries.filter fun e => IsMet (readAs d) e.1 e.2).flatMap fun e =>
      aliasItems e.1 e.2

/-! ### Places -/

/-- The parts of a list are the list and its elements, by index. -/
theorem map_place_listItems (owner : Owner) (location : String) (c : Commands) :
    (listItems owner location c).map Item.place =
      (owner, .list) :: (List.range (elementsOf c).length).map fun i => (owner, .element i) := by
  unfold listItems
  rw [List.map_cons]
  refine congrArg₂ List.cons rfl (List.ext_getElem (by simp) fun i _ _ => ?_)
  simp [Item.place]

theorem nodup_listItems (owner : Owner) (location : String) (c : Commands) :
    ((listItems owner location c).map Item.place).Nodup := by
  rw [map_place_listItems, List.nodup_cons]
  refine ⟨by simp, List.nodup_range.map fun i j h => ?_⟩
  cases h
  rfl

theorem nodup_aliasItems (name : String) (a : AliasEntry) :
    ((aliasItems name a).map Item.place).Nodup := by
  unfold aliasItems
  cases a.commands? with
  | none => exact List.nodup_singleton _
  | some c =>
    refine List.nodup_cons.2 ⟨?_, nodup_listItems _ _ _⟩
    show _ ∉ (listItems _ _ c).map Item.place
    rw [map_place_listItems]
    simp [Item.place]

theorem owner_of_mem_listItems {owner : Owner} {location : String} {c : Commands} :
    ∀ item ∈ listItems owner location c, item.owner = owner := by
  refine List.forall_mem_cons.2 ⟨rfl, fun item hitem => ?_⟩
  obtain ⟨i, -, rfl⟩ := List.mem_mapIdx.1 hitem
  rfl

theorem owner_of_mem_aliasItems {name : String} {a : AliasEntry} :
    ∀ item ∈ aliasItems name a, item.owner = .aliasName name := by
  refine List.forall_mem_cons.2 ⟨rfl, ?_⟩
  cases a.commands? with
  | none => exact nofun
  | some c => exact owner_of_mem_listItems

/-- Items of different owners have different places. -/
theorem nodup_map_place {α : Type} {xs : List α} {f : α → List Item}
    (hf : ∀ x ∈ xs, ((f x).map Item.place).Nodup)
    (hxs : xs.Pairwise fun x y => ∀ i ∈ f x, ∀ j ∈ f y, i.owner ≠ j.owner) :
    ((xs.flatMap f).map Item.place).Nodup := by
  rw [List.map_flatMap]
  refine List.nodup_flatMap.2 ⟨hf, hxs.imp fun hxy place hx hy => ?_⟩
  obtain ⟨i, hi, rfl⟩ := List.mem_map.1 hx
  obtain ⟨j, hj, hplace⟩ := List.mem_map.1 hy
  exact hxy i hi j hj (congrArg Prod.fst hplace).symm

theorem owner_of_mem_keyItems {d : Document} {item : Item} (h : item ∈ keyItems d) :
    ∃ environment key, item.owner = .key environment key := by
  obtain ⟨environment, -, h⟩ := List.mem_flatMap.1 h
  obtain ⟨e, -, h⟩ := List.mem_flatMap.1 h
  exact ⟨environment, e.1, owner_of_mem_listItems item h⟩

theorem nodup_keyItems (d : Document) : ((keyItems d).map Item.place).Nodup := by
  have henvironments : (boundEnvironments d).Nodup := by
    rw [← keys_builds_liftKeys]
    exact Dict.nodup_keys _
  have hkeys : ∀ environment, ((boundKeys d environment).map Prod.fst).Nodup := by
    intro environment
    rw [← (buildOf_liftKeys d environment).1]
    exact Dict.nodup_keys _
  refine nodup_map_place (fun environment _ =>
    nodup_map_place (fun e _ => nodup_listItems _ _ _) ?_) ?_
  · refine (List.pairwise_map.1 (hkeys environment)).imp fun {e e'} hne i hi j hj howner => hne ?_
    rw [owner_of_mem_listItems i hi, owner_of_mem_listItems j hj] at howner
    exact (Owner.key.inj howner).2
  · refine henvironments.imp fun {x y} hne i hi j hj howner => hne ?_
    obtain ⟨e, -, hi⟩ := List.mem_flatMap.1 hi
    obtain ⟨e', -, hj⟩ := List.mem_flatMap.1 hj
    rw [owner_of_mem_listItems i hi, owner_of_mem_listItems j hj] at howner
    exact (Owner.key.inj howner).1

theorem nodup_aliasesItems (aliases : Dict AliasEntry) (p : String × AliasEntry → Bool) :
    (((aliases.entries.filter p).flatMap fun e => aliasItems e.1 e.2).map Item.place).Nodup := by
  have hnames : (aliases.entries.filter p).Pairwise fun e e' => e.1 ≠ e'.1 :=
    (List.pairwise_map.1 aliases.nodup).sublist List.filter_sublist
  refine nodup_map_place (fun e _ => nodup_aliasItems _ _) (hnames.imp ?_)
  intro e e' hne i hi j hj howner
  rw [owner_of_mem_aliasItems i hi, owner_of_mem_aliasItems j hj] at howner
  exact hne (Owner.aliasName.inj howner)

/-- Each item has a place of its own. -/
theorem nodup_itemsMet (d : Document) : ((itemsMet d).map Item.place).Nodup := by
  unfold itemsMet
  rw [List.map_append]
  refine List.nodup_append'.2 ⟨nodup_keyItems d, nodup_aliasesItems d.aliases _, ?_⟩
  intro place hkey halias
  obtain ⟨i, hi, rfl⟩ := List.mem_map.1 hkey
  obtain ⟨j, hj, hplace⟩ := List.mem_map.1 halias
  obtain ⟨e, -, hj⟩ := List.mem_flatMap.1 hj
  obtain ⟨environment, key, howner⟩ := owner_of_mem_keyItems hi
  have hsame : j.owner = i.owner := congrArg Prod.fst hplace
  rw [owner_of_mem_aliasItems j hj, howner] at hsame
  cases hsame

/-! ## The report -/

/-- The entry of a report that is about an item. -/
def Item.entry? (item : Item) : Option Malformed :=
  item.content.fault?.map fun reason => ⟨item.location, reason⟩

theorem malformedOf_elementEvents (owner : Owner) (part : Part) (place : String) (e : Element) :
    malformedOf (elementEvents place e) =
      (Item.entry? ⟨owner, part, place, .element e⟩).toList := by
  unfold elementEvents Item.entry? Content.fault?
  cases e with
  | plain s => rfl
  | rich fields =>
    dsimp only
    cases richCommand fields <;> rfl
  | malformed v => cases v <;> rfl

theorem malformedInList_eq (owner : Owner) (location : String) (c : Commands) :
    malformedInList location c = (listItems owner location c).filterMap Item.entry? := by
  cases c with
  | text s => rfl
  | malformed v => rfl
  | list elements =>
    show malformedOf (List.flatten (elements.mapIdx _)) = (elements.mapIdx _).filterMap _
    rw [List.mapIdx_eq_zipIdx_map, List.mapIdx_eq_zipIdx_map, ← List.flatMap_def,
      malformedOf_flatMap, List.filterMap_map, List.filterMap_eq_flatMap_toList]
    exact List.flatMap_congr fun e _ => malformedOf_elementEvents owner _ _ _

theorem malformedInAlias_eq (name : String) (a : AliasEntry) :
    malformedInAlias name a = (aliasItems name a).filterMap Item.entry? := by
  cases a with
  | malformed v => rfl
  | record r => exact malformedInList_eq _ _ _
  | bare c => exact malformedInList_eq _ _ _

theorem isMet_iff {v : Version} {name : String} {a : AliasEntry} :
    IsMet v name a ↔ v < ⟨2, 0, 0⟩ ∨ isRemoved v name a = false := by
  have hremoved : isRemoved v name a = true ↔ v < ⟨2, 1, 0⟩ ∧ isGenerated name a = true := by
    unfold isRemoved
    rw [Bool.and_eq_true, decide_eq_true_iff]
    exact Iff.rfl
  unfold IsMet
  rw [← hremoved, Bool.not_eq_true]

theorem entries_aliasesMet (v : Version) (aliases : Dict AliasEntry) :
    (aliasesMet v aliases).entries = aliases.entries.filter fun e => IsMet v e.1 e.2 := by
  unfold aliasesMet
  by_cases hfirst : v < Step.canonicalCommands.version
  · rw [if_pos hfirst, List.filter_eq_self.2]
    exact fun e _ => decide_eq_true (Or.inl hfirst)
  · rw [if_neg hfirst, Dict.entries_filter]
    refine List.filter_congr fun e _ => ?_
    rw [Bool.eq_iff_iff, decide_eq_true_iff, isMet_iff, Bool.not_eq_true']
    exact (or_iff_right hfirst).symm

theorem entries_builds (d : Document) :
    d.builds.entries =
      d.builds.keys.map fun environment => (environment, buildOf d environment) := by
  unfold Dict.keys
  rw [List.map_map]
  refine (List.map_id _).symm.trans (List.map_congr_left fun e he => ?_)
  show e = (e.1, (d.builds.get? e.1).getD {})
  rw [Dict.get?_eq_some_iff.2 he]
  rfl

/-- The report of a normalized document has the entries of the items. -/
theorem malformed_eq_filterMap (now : String) (d : Document) :
    (normalize now d).report.malformed = (itemsMet d).filterMap Item.entry? := by
  rw [malformed_normalize]
  unfold malformedIn itemsMet keyItems
  rw [List.filterMap_append, List.filterMap_flatMap, List.filterMap_flatMap, entries_builds,
    List.flatMap_map, keys_builds_liftKeys, entries_aliasesMet]
  refine congrArg₂ (· ++ ·) (List.flatMap_congr fun environment _ => ?_)
    (List.flatMap_congr fun e _ => malformedInAlias_eq e.1 e.2)
  dsimp only
  rw [(buildOf_liftKeys d environment).1, List.filterMap_flatMap]
  exact List.flatMap_congr fun e _ => malformedInList_eq _ _ _

/-- A null and a blank text have no entry, but count among the elements. -/
example :
    let items : List Element := [.malformed .null, .plain " ", .malformed (.bool true), .rich ∅]
    let aliases : Dict AliasEntry :=
      Dict.ofList [("a", .record { commands := .list items }), ("b", .malformed .null)]
    (normalize "now" { aliases }).report.malformed =
      [⟨"aliases.a.commands[2]", "command is a boolean"⟩,
        ⟨"aliases.a.commands[3]", "object has no command and cannot be rebuilt"⟩,
        ⟨"aliases.b", "alias is null"⟩] := by
  decide +kernel

/-- An entry of a report that is about an item, with the reason why that cannot be interpreted. -/
structure Item.IsReportedBy (item : Item) (m : Malformed) : Prop where
  location : m.location = item.location
  reason : item.content.HasFault m.reason

theorem Item.isReportedBy_of_entry? {item : Item} {m : Malformed} (h : item.entry? = some m) :
    item.IsReportedBy m := by
  obtain ⟨reason, hreason, rfl⟩ := Option.map_eq_some_iff.1 h
  exact ⟨rfl, Content.fault?_eq_some_iff.1 hreason⟩

theorem Item.isSome_entry?_iff {item : Item} :
    item.entry?.isSome = true ↔ item.content.IsFaulty := by
  unfold entry?
  rw [Option.isSome_map, Content.isSome_fault?_iff]

/-! ## Nulls and blank texts -/

/-- A null or a blank text, which gives no command. -/
inductive IsVoid : Element → Prop
  | null : IsVoid (.malformed .null)
  | blank {s : String} (h : Text.trim s = "") : IsVoid (.plain s)

theorem mend_of_blank {s : String} (h : Text.trim s = "") : mend s = s := by
  rw [mend_eq_self_iff]
  unfold isMisspelled
  rw [← Bool.not_eq_true, Text.occursIn_iff]
  intro hin
  have hblank := Text.allBlank_of_trim h 'b' (hin.subset (by decide))
  cases hblank

theorem split_of_blank {s : String} (h : Text.trim s = "") : Chain.split s = [] :=
  Chain.split_of_allBlank (Text.allBlank_of_trim h)

namespace IsVoid

variable {e : Element}

theorem mendElement_eq (h : IsVoid e) : mendElement e = e := by
  cases h with
  | null => rfl
  | blank h => exact congrArg Element.plain (mend_of_blank h)

theorem commands_eq (h : IsVoid e) : e.commands = [] := by
  cases h with
  | null => rfl
  | blank h => exact split_of_blank h

theorem not_isFaulty (h : IsVoid e) : ¬ (Content.element e).IsFaulty := by
  rintro ⟨reason, hfault⟩
  cases h with
  | null => cases hfault with | element hnull => exact hnull rfl
  | blank h => cases hfault

end IsVoid

/-- A blank text becomes what the empty list becomes. -/
theorem becomesAs_blank (now : String) (d : Document) {s : String} (h : Text.trim s = "") :
    BecomesAs now d (.text s) (.list []) := by
  have hcanonical : (Commands.text s).canonicalized = (Commands.list []).canonicalized := by
    rw [Commands.canonicalized_eq_ofChain, Commands.canonicalized_eq_ofChain]
    exact congrArg Commands.ofChain (split_of_blank h)
  have hmend : mendCommands (.text s) = .text s := congrArg Commands.text (mend_of_blank h)
  refine becomesAs_of_commandsBehind now (commandsBehind_congr hcanonical ?_ _)
  rw [hmend]
  exact hcanonical

/-! ## Each item once -/

/-- What the report of a normalized document says: one entry for each item that cannot be
interpreted, in order. Nulls and blank texts are dropped without an entry, and generated aliases
that are removed before the shapes are looked at are no items. -/
structure ReportsOnce (now : String) (d : Document) : Prop where
  nodup : ((itemsMet d).map Item.place).Nodup
  reported : List.Forall₂ Item.IsReportedBy ((itemsMet d).filter fun item => item.content.IsFaulty)
    (normalize now d).report.malformed
  void : ∀ e, IsVoid e → ¬ (Content.element e).IsFaulty ∧
    ∀ before behind, BecomesAs now d (.list (before ++ e :: behind)) (.list (before ++ behind))
  blank : ∀ s, Text.trim s = "" →
    ¬ (Content.list (.text s)).IsFaulty ∧ BecomesAs now d (.text s) (.list [])
  removed : ¬ readAs d < ⟨2, 0, 0⟩ → readAs d < ⟨2, 1, 0⟩ →
    ∀ name a, (name, a) ∈ d.aliases.entries → isGenerated name a = true →
      ∀ item ∈ itemsMet d, item.owner ≠ .aliasName name

theorem reportsOnce (now : String) (d : Document) : ReportsOnce now d where
  nodup := nodup_itemsMet d
  reported := by
    have hfilter : (itemsMet d).filter (fun item => item.content.IsFaulty) =
        (itemsMet d).filter fun item => item.entry?.isSome :=
      List.filter_congr fun item _ => by
        rw [Bool.eq_iff_iff, decide_eq_true_iff, Item.isSome_entry?_iff]
    rw [malformed_eq_filterMap, hfilter]
    exact (forall₂_filterMap Item.entry? (itemsMet d)).imp fun _ _ => Item.isReportedBy_of_entry?
  void e h := ⟨h.not_isFaulty, becomesAs_without now d h.mendElement_eq h.commands_eq⟩
  blank s h := by
    refine ⟨?_, becomesAs_blank now d h⟩
    rintro ⟨reason, hfault⟩
    cases hfault
  removed hfirst hgenerated name a hmem hisGenerated item hitem howner := by
    rcases List.mem_append.1 hitem with hkey | halias
    · obtain ⟨environment, key, hkey⟩ := owner_of_mem_keyItems hkey
      cases hkey.symm.trans howner
    · obtain ⟨e, he, hitem⟩ := List.mem_flatMap.1 halias
      obtain ⟨he, hmet⟩ := List.mem_filter.1 he
      obtain rfl := Owner.aliasName.inj ((owner_of_mem_aliasItems item hitem).symm.trans howner)
      obtain rfl : e.2 = a :=
        Option.some.inj ((Dict.get?_eq_some_iff.2 he).symm.trans (Dict.get?_eq_some_iff.2 hmem))
      rcases of_decide_eq_true hmet with hlater | hnot
      · exact hfirst hlater
      · exact hnot ⟨hgenerated, hisGenerated⟩

/-- Every normalized document is reported about in this way. Whether a JSON value can be interpreted
depends on its kind; but an object in a list must also give a command. -/
theorem reportsOnce_normalize :
    (∀ now d, ReportsOnce now d) ∧
    (∀ v, Content.IsFaulty (.list (.ofValue v)) ↔
      (∀ s, v ≠ .string s) ∧ ∀ items, v ≠ .array items) ∧
    (∀ v, Content.IsFaulty (.whole (.ofValue v)) ↔
      (∀ members, v ≠ .object members) ∧ (∀ s, v ≠ .string s) ∧ ∀ items, v ≠ .array items) ∧
    ∀ v, Content.IsFaulty (.element (.ofValue v)) ↔
      (∃ b, v = .bool b) ∨ (∃ n, v = .number n) ∨ (∃ items, v = .array items) ∨
        ∃ members fault, v = .object members ∧ richCommand (Dict.ofList members) = .error fault :=
  ⟨reportsOnce, Content.isFaulty_list_iff, Content.isFaulty_whole_iff,
    Content.isFaulty_element_iff⟩

end Keybinds.Migration
