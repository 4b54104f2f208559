import Keybinds.Proofs.Stored.Documents

/-!
# Written documents read again

The known fields of an alias are taken out of its members one after another, and each time the last
member takes the place of the one that is taken out. So as many of its unknown fields as it has
known ones come back in front of the others, the last one first (`AliasEntry.Fits.ofValue_toValue`).
Everything else in a document comes back in its place. A document that is read and written again is
written as before just if none of its aliases has two unknown fields
(`Document.rewritesStably_iff`).
-/

namespace Keybinds

namespace Dict

variable {α β : Type}

/-! ## Last entries first -/

/-- The last `n` entries, the last one first, in front of the others. -/
def lastFirst : Nat → List β → List β
  | 0, xs => xs
  | n + 1, xs => xs.getLast?.toList ++ lastFirst n xs.dropLast

theorem lastFirst_perm (n : Nat) (xs : List β) : (lastFirst n xs).Perm xs := by
  induction n generalizing xs with
  | zero => exact List.Perm.refl xs
  | succ n ih =>
    exact ((ih xs.dropLast).append_left _).trans (getLast?_toList_append_dropLast_perm xs)

@[simp] theorem lastFirst_nil (n : Nat) : lastFirst n ([] : List β) = [] :=
  (lastFirst_perm n []).eq_nil

theorem lastFirst_concat (n : Nat) (xs : List β) (x : β) :
    lastFirst (n + 1) (xs ++ [x]) = x :: lastFirst n xs := by
  show (xs ++ [x]).getLast?.toList ++ lastFirst n (xs ++ [x]).dropLast = _
  rw [List.getLast?_concat, List.dropLast_concat]
  rfl

/-- With at most one entry ahead of the others, that entry moves behind the last of them. -/
theorem lastFirst_one_append {ks : List β} (hks : ks.length ≤ 1) (xs : List β) :
    lastFirst 1 (ks ++ xs) = xs.getLast?.toList ++ (ks ++ xs.dropLast) := by
  rcases List.eq_nil_or_concat' xs with rfl | ⟨init, last, rfl⟩
  · match ks, hks with
    | [], _ => rfl
    | [k], _ => rfl
  · rw [← List.append_assoc, lastFirst_concat, List.getLast?_concat, List.dropLast_concat]
    rfl

/-- Distinct entries change their order as soon as there are two of them. -/
theorem lastFirst_succ_eq_self_iff {xs : List β} (hxs : xs.Nodup) (n : Nat) :
    lastFirst (n + 1) xs = xs ↔ xs.length ≤ 1 := by
  rcases List.eq_nil_or_concat' xs with rfl | ⟨init, last, rfl⟩
  · simp
  · rw [lastFirst_concat]
    cases init with
    | nil => simp
    | cons x init =>
      refine iff_of_false (fun h => ?_) (by simp)
      obtain rfl : last = x := (List.cons.inj h).1
      exact absurd (List.mem_append_right init List.mem_cons_self) (List.nodup_cons.1 hxs).1

theorem swapEraseEntries_append {key : String} {ahead : List (String × α)}
    (h : key ∉ ahead.map Prod.fst) (a : α) (behind : List (String × α)) :
    swapEraseEntries key (ahead ++ (key, a) :: behind) = ahead ++ lastFirst 1 behind := by
  induction ahead with
  | nil => exact if_pos rfl
  | cons e ahead ih =>
    obtain ⟨k, b⟩ := e
    rw [List.map_cons, List.mem_cons, not_or] at h
    show (if k = key then _ else _) = _
    rw [if_neg (Ne.symm h.1)]
    exact congrArg _ (ih h.2)

/-- The entries with the last `n` of them in front, the last one first. -/
def withLastFirst (d : Dict α) (n : Nat) : Dict α where
  entries := lastFirst n d.entries
  nodup := ((lastFirst_perm n d.entries).map Prod.fst).nodup_iff.2 d.nodup

end Dict

namespace Stored

open Json (Value)
open Dict (lastFirst lastFirst_concat lastFirst_one_append)

variable {depth : Nat}

/-! ## Records -/

/-- Behind a text that is taken out, the last of the other fields comes first. -/
theorem entries_takeString {fields : Dict Value} {name : String} {text : Option String}
    {ahead behind : List (String × Value)}
    (hentries : fields.entries =
      ahead ++ ((text.map fun s => (name, Value.string s)).toList ++ behind))
    (htext : (takeString fields name).1 = text) :
    (takeString fields name).2.entries = ahead ++ lastFirst text.toList.length behind := by
  rw [takeString_fst] at htext
  unfold takeString
  split
  · rename_i s hget
    rw [hget] at htext
    obtain rfl : some s = text := htext
    have hnodup := fields.nodup
    rw [hentries, List.map_append, List.nodup_append'] at hnodup
    have hname : name ∉ ahead.map Prod.fst := fun hmem =>
      hnodup.2.2 hmem List.mem_cons_self
    show Dict.swapEraseEntries name fields.entries = _
    rw [hentries]
    exact Dict.swapEraseEntries_append hname _ behind
  · rename_i hget
    have hnone : text = none := by
      rw [← htext, Option.bind_eq_none_iff]
      intro v hv
      cases v with
      | string s => exact absurd hv (hget s)
      | _ => rfl
    subst hnone
    exact hentries

namespace AliasRecord

/-- The number of known fields that the record is written with. -/
def knownCount (r : AliasRecord) : Nat :=
  r.description.toList.length + r.tag.toList.length + 1

/-- The record with as many of its last unknown fields in front as it has known ones. -/
def turned (r : AliasRecord) : AliasRecord :=
  { r with extra := r.extra.withLastFirst r.knownCount }

variable {r : AliasRecord}

theorem Fits.entries_extra_reread (h : r.Fits depth) :
    (ofFields (Dict.ofList r.members)).extra.entries = lastFirst r.knownCount r.extra.entries := by
  obtain ⟨-, hdescription, htag, hextra⟩ := h.reread
  rcases List.eq_nil_or_concat' r.extra.entries with hnil | ⟨init, last, hlast⟩
  · have hperm := hextra.perm
    rw [hnil] at hperm ⊢
    rw [Dict.lastFirst_nil]
    exact hperm.eq_nil
  · let rest := (Dict.ofList r.members).swapErase "commands"
    have hrest : rest.entries = [last] ++
        ((r.description.map fun s => ("description", Value.string s)).toList ++
          ((r.tag.map fun s => ("type", Value.string s)).toList ++ init)) := by
      show Dict.swapEraseEntries "commands" (Dict.ofList r.members).entries = _
      rw [Dict.entries_ofList h.nodup_members]
      unfold members
      rw [hlast]
      show Dict.swapEraseEntries "commands" ([] ++ ("commands", _) :: _) = _
      rw [Dict.swapEraseEntries_append List.not_mem_nil, List.nil_append,
        ← List.append_assoc _ init, lastFirst_concat, List.append_assoc]
      rfl
    have hsecond := entries_takeString hrest hdescription
    unfold knownCount
    rw [hlast, lastFirst_concat]
    cases hd : r.description with
    | none =>
      rw [hd] at hsecond
      rw [Option.toList_none, List.length_nil, Nat.zero_add]
      exact entries_takeString hsecond htag
    | some s =>
      have hlength : (r.tag.map fun s => ("type", Value.string s)).toList.length ≤ 1 := by
        cases r.tag with
        | none => exact Nat.zero_le 1
        | some s => exact Nat.le_refl 1
      rw [hd] at hsecond
      have hthird : (takeString rest "description").2.entries = (last :: init.getLast?.toList) ++
          ((r.tag.map fun s => ("type", Value.string s)).toList ++ init.dropLast) :=
        hsecond.trans (congrArg (last :: ·) (lastFirst_one_append hlength init))
      rw [Option.toList_some, List.length_singleton, Nat.add_comm 1]
      exact entries_takeString hthird htag

/-- A record is read again with its last unknown fields in front. -/
theorem Fits.ofFields_members (h : r.Fits depth) :
    ofFields (Dict.ofList r.members) = r.turned := by
  obtain ⟨hcommands, hdescription, htag, -⟩ := h.reread
  have hextra : (ofFields (Dict.ofList r.members)).extra = r.extra.withLastFirst r.knownCount :=
    Dict.ext h.entries_extra_reread
  unfold turned
  generalize ofFields (Dict.ofList r.members) = r' at *
  obtain ⟨commands, description, tag, extra⟩ := r'
  subst hcommands hdescription htag hextra
  rfl

theorem Fits.toValue_eq (h : r.Fits depth) : r.toValue = .object r.members :=
  congrArg Value.object (Json.distinct_eq_self h.nodup_members)

theorem Fits.toValue_turned_eq_iff (h : r.Fits depth) :
    r.turned.toValue = r.toValue ↔ r.extra.size ≤ 1 := by
  have hperm : r.turned.members.Perm r.members :=
    ((Dict.lastFirst_perm _ r.extra.entries).append_left _).cons _
  have hturned : r.turned.toValue = .object r.turned.members :=
    congrArg Value.object
      (Json.distinct_eq_self ((hperm.map Prod.fst).nodup_iff.2 h.nodup_members))
  rw [hturned, h.toValue_eq, Value.object.injEq]
  exact (List.cons_inj_right _).trans ((List.append_right_inj _).trans
    (Dict.lastFirst_succ_eq_self_iff r.extra.nodup.of_map _))

end AliasRecord

/-! ## Aliases -/

namespace AliasEntry

/-- The alias as it is read again from what it is written as. -/
def turned : AliasEntry → AliasEntry
  | .record r => .record r.turned
  | a => a

/-- The number of unknown fields; only an object has any. -/
def unknownCount : AliasEntry → Nat
  | .record r => r.extra.size
  | _ => 0

variable {a : AliasEntry}

theorem Fits.ofValue_toValue (h : a.Fits depth) : ofValue a.toValue = a.turned := by
  cases a with
  | record r =>
    obtain ⟨d, -, hr⟩ := h
    show ofValue r.toValue = _
    rw [hr.toValue_eq]
    exact congrArg record hr.ofFields_members
  | bare c => exact h.2
  | malformed value => exact h.2

theorem Fits.toValue_turned_eq_iff (h : a.Fits depth) :
    a.turned.toValue = a.toValue ↔ a.unknownCount ≤ 1 := by
  cases a with
  | record r =>
    obtain ⟨d, -, hr⟩ := h
    exact hr.toValue_turned_eq_iff
  | bare c => exact iff_of_true rfl (Nat.zero_le 1)
  | malformed value => exact iff_of_true rfl (Nat.zero_le 1)

end AliasEntry

/-! ## Documents -/

theorem objectOf_map_eq_iff {α : Type} {f : α → Value} {g : α → α} {d : Dict α} :
    objectOf f (d.map g) = objectOf f d ↔ ∀ a ∈ d.values, f (g a) = f a := by
  unfold objectOf Dict.values
  rw [Value.object.injEq, Dict.entries_map, List.map_map, List.map_inj_left, List.forall_mem_map]
  exact forall₂_congr fun e _ => by simp

namespace Document

variable {d : Document}

/-- The document as it is read again from what it is written as. -/
def turned (d : Document) : Document :=
  { d with aliases := d.aliases.map AliasEntry.turned }

theorem Fits.ofNode?_toValue_turned (h : d.Fits depth) :
    Document.ofNode? some depth d.toValue.tree = some d.turned := by
  have haliases :
      (d.aliases.map fun a => .ofValue a.toValue) = d.aliases.map AliasEntry.turned := by
    refine Dict.ext ?_
    rw [Dict.entries_map, Dict.entries_map]
    refine List.map_congr_left fun e he => ?_
    rw [(h.aliases e.2 (Dict.mem_values_iff.2 ⟨e.1, he⟩)).ofValue_toValue]
  rw [h.ofNode?_toValue, haliases]
  rfl

theorem Fits.toValue_turned_eq_iff (h : d.Fits depth) :
    d.turned.toValue = d.toValue ↔ ∀ a ∈ d.aliases.values, a.unknownCount ≤ 1 := by
  have hvalue : d.turned.toValue = d.toValue ↔
      objectOf AliasEntry.toValue d.turned.aliases = objectOf AliasEntry.toValue d.aliases := by
    constructor
    · intro heq
      have hmember := congrArg (·.member? "aliases") heq
      rw [member?_toValue (d := d.turned) h.unknown, member?_toValue h.unknown] at hmember
      exact Option.some.inj hmember
    · intro heq
      unfold toValue
      rw [heq]
      rfl
  rw [hvalue, turned, objectOf_map_eq_iff]
  exact forall₂_congr fun a ha => (h.aliases a ha).toValue_turned_eq_iff

/-- What the document is written as is read again and written as the same. -/
def RewritesStably (d : Document) : Prop :=
  ∃ d', Document.ofValue? d.toValue = some d' ∧ d'.toValue = d.toValue

theorem Fits.rewrites_iff (h : d.Fits Json.deepest) :
    RewritesStably d ↔ ∀ a ∈ d.aliases.values, a.unknownCount ≤ 1 := by
  have hread : Document.ofValue? d.toValue = some d.turned := h.ofNode?_toValue_turned
  rw [← h.toValue_turned_eq_iff]
  constructor
  · rintro ⟨d', hd', hvalue⟩
    obtain rfl := Option.some.inj (hread.symm.trans hd')
    exact hvalue
  · exact fun hvalue => ⟨_, hread, hvalue⟩

/-- What a document that was read is written as is read again, with the last unknown fields of its
aliases in front, and written as the same just if no alias has two of them. -/
theorem rewritesStably_iff {text : String} (h : Document.read? text = some d) :
    Document.ofValue? d.toValue = some d.turned ∧
      (RewritesStably d ↔ ∀ a ∈ d.aliases.values, a.unknownCount ≤ 1) :=
  ⟨(fits_of_read? h).ofNode?_toValue_turned, (fits_of_read? h).rewrites_iff⟩

/-- A document with an alias that has one unknown field. -/
def oneMemberText : String :=
  "\x7b\"aliases\":\x7b\"a\":\x7b\"commands\":[\"FireAll\"],\"icon\":\"a.png\"\x7d\x7d\x7d"

theorem rewritesStably_oneMember :
    ∃ d, Document.read? oneMemberText = some d ∧ RewritesStably d := by
  have hread : (Document.read? oneMemberText).any (fun d =>
      decide (∀ a ∈ d.aliases.values, a.unknownCount ≤ 1)) = true := by decide +kernel
  obtain ⟨d, hread, hcount⟩ := (Option.any_eq_true _ _).1 hread
  exact ⟨d, hread, (rewritesStably_iff hread).2.2 (of_decide_eq_true hcount)⟩

/-- A document with an alias that has two unknown fields. -/
def twoMembersText : String :=
  "\x7b\"aliases\":\x7b\"a\":\x7b\"commands\":[],\"y\":true,\"x\":false\x7d\x7d\x7d"

theorem not_rewritesStably_of_twoMembers :
    ¬ ∀ (text : String) (d : Document), Document.read? text = some d → RewritesStably d := by
  intro h
  have hread : (Document.read? twoMembersText).any (fun d =>
      decide (¬ ∀ a ∈ d.aliases.values, a.unknownCount ≤ 1)) = true := by decide +kernel
  obtain ⟨d, hread, hcount⟩ := (Option.any_eq_true _ _).1 hread
  exact of_decide_eq_true hcount ((fits_of_read? hread).rewrites_iff.1 (h _ _ hread))

end Document

end Stored

end Keybinds
