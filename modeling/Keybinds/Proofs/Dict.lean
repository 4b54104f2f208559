import Keybinds.Dict
import Mathlib.Tactic.SplitIfs
import Mathlib.Data.List.Nodup

/-!
# Laws of ordered dictionaries

How the entries of a dictionary look behind each operation: a new key goes last
(`entries_insert_of_notMem`), a present one keeps its place (`entries_alter_of_mem`), and entering
what is not there yet appends exactly the new entries (`entries_foldl_insertIfNew`). Entries that
are entered in turn may be gathered in a dictionary first (`IsEntering.foldl_ofList`). Mapping and
filtering act on the entries one by one.
-/

namespace Keybinds.Dict

variable {α β γ : Type}

/-! ## Look-up -/

theorem mem_keys_iff {d : Dict α} {k : String} : k ∈ d.keys ↔ ∃ a, (k, a) ∈ d.entries := by
  unfold keys
  rw [List.mem_map]
  constructor
  · rintro ⟨⟨k', a⟩, h, rfl⟩
    exact ⟨a, h⟩
  · rintro ⟨a, h⟩
    exact ⟨(k, a), h, rfl⟩

theorem mem_values_iff {d : Dict α} {a : α} : a ∈ d.values ↔ ∃ k, (k, a) ∈ d.entries := by
  unfold values
  rw [List.mem_map]
  constructor
  · rintro ⟨⟨k, a'⟩, h, rfl⟩
    exact ⟨k, h⟩
  · rintro ⟨k, h⟩
    exact ⟨(k, a), h, rfl⟩

theorem lookup_of_mem {es : List (String × α)} (hes : (es.map Prod.fst).Nodup) {k : String} {a : α}
    (h : (k, a) ∈ es) : es.lookup k = some a := by
  induction es with
  | nil => simp at h
  | cons e es ih =>
    obtain ⟨k', a'⟩ := e
    rw [List.map_cons, List.nodup_cons] at hes
    rw [lookup_cons_eq_ite]
    rcases List.mem_cons.1 h with heq | hmem
    · obtain ⟨rfl, rfl⟩ := Prod.mk.inj heq
      exact if_pos rfl
    · have hne : k ≠ k' := by
        rintro rfl
        have hfst := List.mem_map_of_mem (f := Prod.fst) hmem
        exact hes.1 hfst
      rw [if_neg hne]
      exact ih hes.2 hmem

theorem mem_of_lookup {es : List (String × α)} {k : String} {a : α} (h : es.lookup k = some a) :
    (k, a) ∈ es := by
  induction es with
  | nil => simp at h
  | cons e es ih =>
    obtain ⟨k', a'⟩ := e
    rw [lookup_cons_eq_ite] at h
    split_ifs at h with hk
    · obtain rfl := Option.some.inj h
      exact hk ▸ List.mem_cons_self
    · exact List.mem_cons_of_mem _ (ih h)

theorem lookup_of_notMem {es : List (String × α)} {k : String} (h : k ∉ es.map Prod.fst) :
    es.lookup k = none := by
  cases hk : es.lookup k with
  | none => rfl
  | some a => exact absurd (List.mem_map_of_mem (mem_of_lookup hk)) h

/-- The value under a key is the one that stands beside it. -/
theorem get?_eq_some_iff {d : Dict α} {k : String} {a : α} :
    d.get? k = some a ↔ (k, a) ∈ d.entries :=
  ⟨mem_of_lookup, lookup_of_mem d.nodup⟩

theorem contains_iff {d : Dict α} {k : String} : d.contains k = true ↔ k ∈ d.keys := by
  unfold contains
  rw [mem_keys_iff, Option.isSome_iff_exists]
  simp only [get?_eq_some_iff]

theorem contains_eq_false_iff {d : Dict α} {k : String} : d.contains k = false ↔ k ∉ d.keys := by
  rw [← contains_iff, Bool.not_eq_true]

theorem get?_eq_none_iff {d : Dict α} {k : String} : d.get? k = none ↔ k ∉ d.keys := by
  rw [← contains_eq_false_iff]
  unfold contains
  rw [Option.isSome_eq_false_iff, Option.isNone_iff_eq_none]

theorem contains_congr {a : Dict α} {b : Dict β} (h : a.keys = b.keys) (k : String) :
    a.contains k = b.contains k := by
  rw [Bool.eq_iff_iff, contains_iff, contains_iff, h]

/-! ## Altering -/

theorem alterEntries_of_notMem {key : String} {f : Option α → α} {es : List (String × α)}
    (h : key ∉ es.map Prod.fst) : alterEntries key f es = es ++ [(key, f none)] := by
  induction es with
  | nil => rfl
  | cons e es ih =>
    obtain ⟨k, a⟩ := e
    rw [List.map_cons, List.mem_cons, not_or] at h
    unfold alterEntries
    rw [if_neg fun e => h.1 e.symm, ih h.2]
    rfl

theorem alterEntries_of_mem {key : String} {f : Option α → α} {es : List (String × α)}
    (hes : (es.map Prod.fst).Nodup) (h : key ∈ es.map Prod.fst) :
    alterEntries key f es = es.map fun e => if e.1 = key then (e.1, f (some e.2)) else e := by
  induction es with
  | nil => simp at h
  | cons e es ih =>
    obtain ⟨k, a⟩ := e
    rw [List.map_cons, List.nodup_cons] at hes
    rw [List.map_cons, List.mem_cons] at h
    unfold alterEntries
    rw [List.map_cons]
    by_cases hk : k = key
    · have hrest : es.map (fun e => if e.1 = key then (e.1, f (some e.2)) else e) = es := by
        refine (List.map_congr_left fun e he => if_neg ?_).trans (List.map_id es)
        intro heq
        have he := List.mem_map_of_mem (f := Prod.fst) he
        rw [heq, ← hk] at he
        exact hes.1 he
      rw [if_pos hk, if_pos hk, hrest]
    · rw [if_neg hk, if_neg hk, ih hes.2 (h.resolve_left fun e => hk e.symm)]

theorem entries_alter_of_notMem {d : Dict α} {key : String} (f : Option α → α) (h : key ∉ d.keys) :
    (d.alter key f).entries = d.entries ++ [(key, f none)] :=
  alterEntries_of_notMem h

theorem entries_alter_of_mem {d : Dict α} {key : String} (f : Option α → α) (h : key ∈ d.keys) :
    (d.alter key f).entries =
      d.entries.map fun e => if e.1 = key then (e.1, f (some e.2)) else e :=
  alterEntries_of_mem d.nodup h

theorem entries_insert_of_notMem {d : Dict α} {key : String} {a : α} (h : key ∉ d.keys) :
    (d.insert key a).entries = d.entries ++ [(key, a)] :=
  alterEntries_of_notMem h

theorem keys_insert (d : Dict α) (key : String) (a : α) :
    (d.insert key a).keys = if key ∈ d.keys then d.keys else d.keys ++ [key] :=
  keys_alter d key _

theorem size_eq_length_keys (d : Dict α) : d.size = d.keys.length :=
  (List.length_map _).symm

theorem size_insert (d : Dict α) (key : String) (a : α) :
    (d.insert key a).size = if d.contains key = true then d.size else d.size + 1 := by
  simp only [size_eq_length_keys, keys_insert, contains_iff]
  split_ifs
  · rfl
  · rw [List.length_append, List.length_singleton]

theorem mem_entries_alter {d : Dict α} {key : String} {f : Option α → α} {e : String × α}
    (h : e ∈ (d.alter key f).entries) : e = (key, f (d.get? key)) ∨ e ∈ d.entries := by
  obtain ⟨k, b⟩ := e
  rw [← get?_eq_some_iff, get?_alter] at h
  split_ifs at h with hk
  · obtain rfl := Option.some.inj h
    exact Or.inl (by rw [hk])
  · exact Or.inr (get?_eq_some_iff.1 h)

theorem mem_values_alter {d : Dict α} {key : String} {f : Option α → α} {a : α}
    (h : a ∈ (d.alter key f).values) : a = f (d.get? key) ∨ a ∈ d.values := by
  obtain ⟨k, hk⟩ := mem_values_iff.1 h
  rcases mem_entries_alter hk with heq | hk
  · exact Or.inl (Prod.mk.inj heq).2
  · exact Or.inr (mem_values_iff.2 ⟨k, hk⟩)

theorem keys_sublist_alter (d : Dict α) (key : String) (f : Option α → α) :
    d.keys.Sublist (d.alter key f).keys := by
  rw [keys_alter]
  split_ifs
  · exact List.Sublist.refl _
  · exact List.sublist_append_left _ _

theorem mem_entries_insert {d : Dict α} {key : String} {a : α} {e : String × α}
    (h : e ∈ (d.insert key a).entries) : e = (key, a) ∨ e ∈ d.entries :=
  mem_entries_alter h

theorem insertIfNew_of_mem {d : Dict α} {key : String} {a : α} (h : key ∈ d.keys) :
    d.insertIfNew key a = d := by
  refine Dict.ext ?_
  unfold insertIfNew
  rw [entries_alter_of_mem _ h]
  refine (List.map_congr_left fun e _ => ?_).trans (List.map_id _)
  split_ifs <;> rfl

theorem entries_insertIfNew_of_notMem {d : Dict α} {key : String} {a : α} (h : key ∉ d.keys) :
    (d.insertIfNew key a).entries = d.entries ++ [(key, a)] :=
  alterEntries_of_notMem h

/-- Entering what is not there yet appends the new entries in order. -/
theorem entries_foldl_insertIfNew (d : Dict α) {es : List (String × α)}
    (hes : (es.map Prod.fst).Nodup) :
    (es.foldl (fun d e => d.insertIfNew e.1 e.2) d).entries =
      d.entries ++ es.filter fun e => e.1 ∉ d.keys := by
  induction es generalizing d with
  | nil => simp
  | cons e es ih =>
    rw [List.map_cons, List.nodup_cons] at hes
    rw [List.foldl_cons, ih _ hes.2]
    by_cases h : e.1 ∈ d.keys
    · rw [insertIfNew_of_mem h, List.filter_cons_of_neg (by simpa using h)]
    · have hkeys : (d.insertIfNew e.1 e.2).keys = d.keys ++ [e.1] := by
        unfold insertIfNew
        rw [keys_alter, if_neg h]
      have hrest : es.filter (fun x => x.1 ∉ d.keys ++ [e.1]) =
          es.filter fun x => x.1 ∉ d.keys := by
        refine List.filter_congr fun x hx => ?_
        have hne : x.1 ≠ e.1 := fun heq => hes.1 (heq ▸ List.mem_map_of_mem (f := Prod.fst) hx)
        simp [hne]
      rw [entries_insertIfNew_of_notMem h, hkeys, hrest, List.filter_cons_of_pos (by simpa using h),
        List.append_assoc]
      rfl

/-- Entering what is not there yet, whatever becomes of present values, appends the new entries in
order. -/
theorem entries_foldl_alter (d : Dict α) (f : β → Option α → α) {es : List (String × β)}
    (hes : (es.map Prod.fst).Nodup) (hnew : ∀ e ∈ es, e.1 ∉ d.keys) :
    (es.foldl (fun d e => d.alter e.1 (f e.2)) d).entries =
      d.entries ++ es.map fun e => (e.1, f e.2 none) := by
  induction es generalizing d with
  | nil => simp
  | cons e es ih =>
    rw [List.map_cons, List.nodup_cons] at hes
    rw [List.forall_mem_cons] at hnew
    have hrest : ∀ x ∈ es, x.1 ∉ (d.alter e.1 (f e.2)).keys := by
      intro x hx hmem
      rw [keys_alter, if_neg hnew.1, List.mem_append, List.mem_singleton] at hmem
      rcases hmem with hmem | heq
      · exact hnew.2 x hx hmem
      · exact hes.1 (heq ▸ List.mem_map_of_mem hx)
    rw [List.foldl_cons, ih _ hes.2 hrest, entries_alter_of_notMem _ hnew.1, List.append_assoc]
    rfl

/-! ## Altering twice -/

theorem alterEntries_alterEntries (key : String) (f g : Option α → α) (es : List (String × α)) :
    alterEntries key g (alterEntries key f es) = alterEntries key (fun a => g (some (f a))) es := by
  induction es with
  | nil => simp [alterEntries]
  | cons e es ih =>
    obtain ⟨k, a⟩ := e
    by_cases hk : k = key
    · simp [alterEntries, hk]
    · simp [alterEntries, hk, ih]

/-- Two changes under one key are one change. -/
theorem alter_alter (d : Dict α) (key : String) (f g : Option α → α) :
    (d.alter key f).alter key g = d.alter key fun a => g (some (f a)) :=
  Dict.ext (alterEntries_alterEntries key f g d.entries)

theorem alterEntries_comm {key key' : String} (hne : key ≠ key') (f g : Option α → α)
    {es : List (String × α)} (h : key ∈ es.map Prod.fst) :
    alterEntries key f (alterEntries key' g es) = alterEntries key' g (alterEntries key f es) := by
  induction es with
  | nil => cases h
  | cons e es ih =>
    obtain ⟨k, a⟩ := e
    by_cases hk : k = key
    · subst hk
      simp [alterEntries, hne]
    · have hrest : key ∈ es.map Prod.fst := (List.mem_cons.1 h).resolve_left fun heq => hk heq.symm
      by_cases hk' : k = key'
      · subst hk'
        simp [alterEntries, hk]
      · simp [alterEntries, hk, hk', ih hrest]

/-- Changes under two keys may be made in either order if the place of one of them is settled. -/
theorem alter_comm {d : Dict α} {key key' : String} (hne : key ≠ key') (f g : Option α → α)
    (h : key ∈ d.keys) : (d.alter key' g).alter key f = (d.alter key f).alter key' g :=
  Dict.ext (alterEntries_comm hne f g h)

/-- Only the value under the key counts for a change. -/
theorem alter_congr {d : Dict α} {key : String} {f g : Option α → α}
    (h : f (d.get? key) = g (d.get? key)) : d.alter key f = d.alter key g := by
  have hentries : ∀ es : List (String × α), f (es.lookup key) = g (es.lookup key) →
      alterEntries key f es = alterEntries key g es := by
    intro es
    induction es with
    | nil =>
      intro h
      show [(key, f none)] = [(key, g none)]
      rw [show f none = g none from h]
    | cons e es ih =>
      obtain ⟨k, a⟩ := e
      rw [lookup_cons_eq_ite]
      intro h
      by_cases hk : k = key
      · rw [if_pos hk.symm] at h
        simp [alterEntries, hk, h]
      · rw [if_neg fun heq => hk heq.symm] at h
        simp [alterEntries, hk, ih h]
  exact Dict.ext (hentries d.entries h)

theorem mem_keys_alter_self (d : Dict α) (key : String) (f : Option α → α) :
    key ∈ (d.alter key f).keys := by
  rw [keys_alter]
  split_ifs with h
  · exact h
  · exact List.mem_concat_self

/-! ## Entering in turn -/

section

variable {σ : Type} {step : σ → String × α → σ} {Bound : σ → String → Prop}

/-- A step that enters a value under a key into a state. A later value takes the place of an earlier
one, and once a key is bound, other keys may be entered before or behind it. -/
structure IsEntering (step : σ → String × α → σ) (Bound : σ → String → Prop) : Prop where
  bound : ∀ s key a, Bound (step s (key, a)) key
  keep : ∀ {s key} e, Bound s key → Bound (step s e) key
  absorb : ∀ s key a b, step (step s (key, a)) (key, b) = step s (key, b)
  comm : ∀ {s key key'} a b, Bound s key → key ≠ key' →
    step (step s (key', b)) (key, a) = step (step s (key, a)) (key', b)

/-- A bound key may be entered before other keys. -/
theorem IsEntering.foldl_comm (h : IsEntering step Bound) {s : σ} {key : String} (a : α)
    (hs : Bound s key) {es : List (String × α)} (hes : key ∉ es.map Prod.fst) :
    step (es.foldl step s) (key, a) = es.foldl step (step s (key, a)) := by
  induction es generalizing s with
  | nil => rfl
  | cons e es ih =>
    obtain ⟨k, b⟩ := e
    rw [List.map_cons, List.mem_cons, not_or] at hes
    rw [List.foldl_cons, ih (h.keep _ hs) hes.2, h.comm a b hs hes.1]
    rfl

/-- Behind the entries of a dictionary, a value may be entered into the state or into the
dictionary. -/
theorem IsEntering.foldl_insert (h : IsEntering step Bound) (s : σ) (d : Dict α) (key : String)
    (a : α) : (d.insert key a).entries.foldl step s = step (d.entries.foldl step s) (key, a) := by
  show (alterEntries key (fun _ => a) d.entries).foldl step s = _
  have hes := d.nodup
  generalize d.entries = es at hes
  induction es generalizing s with
  | nil => rfl
  | cons e es ih =>
    obtain ⟨k, b⟩ := e
    rw [List.map_cons, List.nodup_cons] at hes
    unfold alterEntries
    split_ifs with hk
    · subst hk
      rw [List.foldl_cons, List.foldl_cons, h.foldl_comm a (h.bound s k b) hes.1, h.absorb]
    · exact ih _ hes.2

/-- Entries may be gathered in a dictionary before they are entered. -/
theorem IsEntering.foldl_ofList (h : IsEntering step Bound) (s : σ) (es : List (String × α)) :
    (ofList es).entries.foldl step s = es.foldl step s := by
  have hgather : ∀ d : Dict α, (es.foldl (fun d e => d.insert e.1 e.2) d).entries.foldl step s =
      es.foldl step (d.entries.foldl step s) := by
    induction es with
    | nil => exact fun d => rfl
    | cons e es ih =>
      intro d
      rw [List.foldl_cons, ih, h.foldl_insert]
      rfl
  exact hgather ∅

end

/-- Changes under the keys are an entering, if a later one does not see an earlier one. -/
theorem isEntering_alter {f : β → Option α → α} (hf : ∀ b c a, f c (some (f b a)) = f c a) :
    IsEntering (fun (d : Dict α) (e : String × β) => d.alter e.1 (f e.2))
      fun d key => key ∈ d.keys where
  bound d key b := mem_keys_alter_self d key (f b)
  keep e h := (keys_sublist_alter _ e.1 (f e.2)).subset h
  absorb d key b c := by
    rw [alter_alter]
    simp only [hf]
  comm b c h hne := alter_comm hne (f b) (f c) h

/-- What is an entering in an inner dictionary is one in the outer dictionary. -/
theorem IsEntering.inner {step : Dict α → String × β → Dict α}
    {Bound : Dict α → String → Prop} (h : IsEntering step Bound) (outer : String) :
    IsEntering (fun (d : Dict (Dict α)) e => d.alter outer fun a => step (a.getD ∅) e)
      fun d key => Bound ((d.get? outer).getD ∅) key where
  bound d key b := by
    rw [get?_alter, if_pos rfl]
    exact h.bound _ key b
  keep e hd := by
    rw [get?_alter, if_pos rfl]
    exact h.keep e hd
  absorb d key b c := by
    rw [alter_alter]
    refine alter_congr ?_
    exact h.absorb _ key b c
  comm b c hd hne := by
    rw [alter_alter, alter_alter]
    refine alter_congr ?_
    exact h.comm b c hd hne

/-! ## Merging -/

/-- `d'` is `d` with entries merged into it: an entry makes what `f` tells of the value under its
key, other values stay, and new keys stand behind those that are there, in the order of the
entries. -/
structure Merges (f : String × β → Option α → Option α) (es : List (String × β)) (d d' : Dict α) :
    Prop where
  keys : d'.keys =
    d.keys ++ (es.filter fun e => (f e none).isSome && !d.contains e.1).map Prod.fst
  merged : ∀ e ∈ es, d'.get? e.1 = f e (d.get? e.1)
  kept : ∀ k ∉ es.map Prod.fst, d'.get? k = d.get? k

namespace Merges

variable {f : String × β → Option α → Option α} {es : List (String × β)} {d d' d'' : Dict α}

theorem nil (f : String × β → Option α → Option α) (d : Dict α) : Merges f [] d d where
  keys := by simp
  merged := nofun
  kept _ _ := rfl

/-- Entries under other keys may be merged behind a first one. -/
theorem cons {e : String × β} (h : Merges f [e] d d') (hrest : Merges f es d' d'')
    (he : e.1 ∉ es.map Prod.fst) : Merges f (e :: es) d d'' where
  keys := by
    have hcontains : ∀ x ∈ es, d'.contains x.1 = d.contains x.1 := by
      intro x hx
      have hne : x.1 ≠ e.1 := fun heq => he (heq ▸ List.mem_map_of_mem hx)
      unfold contains
      rw [h.kept x.1 (by simpa using hne)]
    have hfilter : (es.filter fun x => (f x none).isSome && !d'.contains x.1) =
        es.filter fun x => (f x none).isSome && !d.contains x.1 :=
      List.filter_congr fun x hx => by rw [hcontains x hx]
    rw [hrest.keys, h.keys, hfilter, List.append_assoc, ← List.map_append, ← List.filter_append]
    rfl
  merged x hx := by
    rcases List.mem_cons.1 hx with rfl | hx
    · rw [hrest.kept x.1 he]
      exact h.merged x List.mem_cons_self
    · have hne : x.1 ≠ e.1 := fun heq => he (heq ▸ List.mem_map_of_mem hx)
      rw [hrest.merged x hx, h.kept x.1 (by simpa using hne)]
  kept k hk := by
    rw [List.map_cons, List.mem_cons, not_or] at hk
    rw [hrest.kept k hk.2, h.kept k (by simpa using hk.1)]

/-- Entries are merged by merging them one by one. -/
theorem foldl {step : Dict α → String × β → Dict α} (hstep : ∀ d e, Merges f [e] d (step d e))
    (hes : (es.map Prod.fst).Nodup) (d : Dict α) : Merges f es d (es.foldl step d) := by
  induction es generalizing d with
  | nil => exact nil f d
  | cons e es ih =>
    rw [List.map_cons, List.nodup_cons] at hes
    exact (hstep d e).cons (ih hes.2 (step d e)) hes.1

end Merges

theorem merges_refl {f : String × β → Option α → Option α} {d : Dict α} {e : String × β}
    (h : f e (d.get? e.1) = d.get? e.1) : Merges f [e] d d where
  keys := by
    have hnew : d.contains e.1 = false → (f e none).isSome = false := by
      intro hnone
      unfold contains at hnone
      rw [Option.isSome_eq_false_iff, Option.isNone_iff_eq_none] at hnone
      rw [hnone] at h
      rw [h]
      rfl
    cases hc : d.contains e.1 with
    | true => simp [hc]
    | false => simp [hnew hc]
  merged := by simpa using h.symm
  kept _ _ := rfl

theorem merges_alter {f : String × β → Option α → Option α} {g : Option α → α} {d : Dict α}
    {e : String × β} (h : f e (d.get? e.1) = some (g (d.get? e.1)))
    (hnew : (f e none).isSome = true ∨ e.1 ∈ d.keys) : Merges f [e] d (d.alter e.1 g) where
  keys := by
    rw [keys_alter]
    by_cases hmem : e.1 ∈ d.keys
    · rw [if_pos hmem, List.filter_cons_of_neg (by simp [contains_iff.2 hmem])]
      simp
    · rw [if_neg hmem, List.filter_cons_of_pos
        (by simp [contains_eq_false_iff.2 hmem, hnew.resolve_right hmem])]
      simp
  merged := by simp [get?_alter, h]
  kept k hk := by
    rw [List.map_singleton, List.mem_singleton] at hk
    rw [get?_alter, if_neg hk]

/-! ## Lists of entries -/

theorem entries_ofList {es : List (String × α)} (hes : (es.map Prod.fst).Nodup) :
    (ofList es).entries = es := by
  refine (entries_foldl_alter ∅ (fun a _ => a) hes fun _ _ => List.not_mem_nil).trans ?_
  exact List.map_id es

theorem mem_of_mem_ofList {es : List (String × α)} {e : String × α} (h : e ∈ (ofList es).entries) :
    e ∈ es := by
  have hall : ∀ x ∈ (ofList es).entries, x ∈ es := by
    refine List.foldlRecOn (motive := fun d : Dict α => ∀ x ∈ d.entries, x ∈ es) es _
      (fun x hx => absurd hx List.not_mem_nil) fun d hd e he x hx => ?_
    rcases mem_entries_insert hx with rfl | hx
    · exact he
    · exact hd x hx
  exact hall e h

theorem swapEraseEntries_perm_filter {es : List (String × α)} (h : (es.map Prod.fst).Nodup)
    (key : String) : (swapEraseEntries key es).Perm (es.filter fun e => e.1 ≠ key) := by
  refine (swapEraseEntries_perm key es).trans (List.Perm.of_eq ?_)
  induction es with
  | nil => rfl
  | cons e es ih =>
    rw [List.map_cons, List.nodup_cons] at h
    by_cases hkey : e.1 = key
    · have hrest : es.filter (fun e => e.1 ≠ key) = es := by
        rw [List.filter_eq_self]
        intro x hx
        have hne : x.1 ≠ e.1 := fun heq => h.1 (heq ▸ List.mem_map_of_mem hx)
        simpa [← hkey] using hne
      rw [List.eraseP_cons_of_pos (by simpa using hkey),
        List.filter_cons_of_neg (by simpa using hkey), hrest]
    · rw [List.eraseP_cons_of_neg (by simpa using hkey),
        List.filter_cons_of_pos (by simpa using hkey), ih h.2]

theorem get?_swapErase (d : Dict α) (key k : String) :
    (d.swapErase key).get? k = if k = key then none else d.get? k := by
  have hentry : ∀ a, (k, a) ∈ (d.swapErase key).entries ↔ (k, a) ∈ d.entries ∧ k ≠ key := by
    intro a
    have hperm : (d.swapErase key).entries.Perm (d.entries.filter fun e => e.1 ≠ key) :=
      swapEraseEntries_perm_filter d.nodup key
    rw [hperm.mem_iff, List.mem_filter]
    simp
  refine Option.ext fun a => ?_
  rw [get?_eq_some_iff, hentry]
  split_ifs with h
  · exact iff_of_false (fun ha => ha.2 h) nofun
  · rw [get?_eq_some_iff]
    exact and_iff_left h

/-- Dictionaries with the same contents list the same entries. -/
theorem Same.perm {a b : Dict α} (h : a.Same b) : a.entries.Perm b.entries := by
  rw [List.perm_ext_iff_of_nodup (List.Nodup.of_map _ a.nodup) (List.Nodup.of_map _ b.nodup)]
  intro e
  rw [← get?_eq_some_iff (k := e.1) (a := e.2), ← get?_eq_some_iff (k := e.1) (a := e.2), h]

/-- What holds of all entries and of a new one holds of all entries behind its entering. -/
theorem forall_insert {p : String × α → Prop} {d : Dict α} (hd : ∀ e ∈ d.entries, p e)
    {key : String} {a : α} (h : p (key, a)) : ∀ e ∈ (d.insert key a).entries, p e := by
  intro e he
  rcases mem_entries_insert he with rfl | he
  · exact h
  · exact hd e he

/-! ## Mapping and filtering -/

@[simp] theorem entries_mapWithKey (d : Dict α) (f : String → α → β) :
    (d.mapWithKey f).entries = d.entries.map fun e => (e.1, f e.1 e.2) := rfl

@[simp] theorem entries_map (d : Dict α) (f : α → β) :
    (d.map f).entries = d.entries.map fun e => (e.1, f e.2) := rfl

@[simp] theorem entries_filter (d : Dict α) (p : String → α → Bool) :
    (d.filter p).entries = d.entries.filter fun e => p e.1 e.2 := rfl

@[simp] theorem size_mapWithKey (d : Dict α) (f : String → α → β) :
    (d.mapWithKey f).size = d.size :=
  List.length_map _

@[simp] theorem keys_map (d : Dict α) (f : α → β) : (d.map f).keys = d.keys :=
  keys_mapWithKey d _

theorem values_mapWithKey (d : Dict α) (f : String → α → β) :
    (d.mapWithKey f).values = d.entries.map fun e => f e.1 e.2 := by
  unfold values
  rw [entries_mapWithKey, List.map_map]
  rfl

theorem keys_filter_sublist (d : Dict α) (p : String → α → Bool) :
    (d.filter p).keys.Sublist d.keys :=
  List.filter_sublist.map Prod.fst

theorem map_map (d : Dict α) (f : α → β) (g : β → γ) :
    (d.map f).map g = d.map fun a => g (f a) := by
  refine Dict.ext ?_
  simp

theorem map_mapWithKey (d : Dict α) (f : String → α → β) (g : β → γ) :
    (d.mapWithKey f).map g = d.mapWithKey fun k a => g (f k a) := by
  refine Dict.ext ?_
  simp

theorem mapWithKey_map (d : Dict α) (f : α → β) (g : String → β → γ) :
    (d.map f).mapWithKey g = d.mapWithKey fun k a => g k (f a) := by
  refine Dict.ext ?_
  simp

/-- A map that changes no value changes nothing. -/
theorem mapWithKey_eq_self {d : Dict α} {f : String → α → α}
    (h : ∀ e ∈ d.entries, f e.1 e.2 = e.2) : d.mapWithKey f = d := by
  refine Dict.ext ?_
  rw [entries_mapWithKey]
  refine (List.map_congr_left fun e he => ?_).trans (List.map_id _)
  rw [h e he]
  rfl

theorem map_eq_self {d : Dict α} {f : α → α} (h : ∀ a ∈ d.values, f a = a) : d.map f = d :=
  mapWithKey_eq_self fun _ he => h _ (List.mem_map_of_mem (f := Prod.snd) he)

theorem eq_of_mapWithKey_eq_self {d : Dict α} {f : String → α → α} (h : d.mapWithKey f = d)
    {e : String × α} (he : e ∈ d.entries) : f e.1 e.2 = e.2 := by
  have hentries : d.entries.map (fun e => (e.1, f e.1 e.2)) = d.entries := by
    rw [← entries_mapWithKey, h]
  have he' := List.map_eq_map_iff.1 (hentries.trans (List.map_id _).symm) e he
  exact (Prod.mk.inj he').2

theorem eq_of_map_eq_self {d : Dict α} {f : α → α} (h : d.map f = d) {a : α} (ha : a ∈ d.values) :
    f a = a := by
  obtain ⟨k, hk⟩ := mem_values_iff.1 ha
  exact eq_of_mapWithKey_eq_self h hk

theorem map_id (d : Dict α) : d.map id = d :=
  map_eq_self fun _ _ => rfl

/-- A map that keeps the contents up to `same` keeps each value up to `same`. -/
theorem same_of_sameBy_mapWithKey {d : Dict α} {same : α → α → Bool} {f : String → α → α}
    (h : (d.mapWithKey f).sameBy same d = true) {e : String × α} (he : e ∈ d.entries) :
    same (f e.1 e.2) e.2 = true := by
  unfold sameBy at h
  rw [Bool.and_eq_true, List.all_eq_true] at h
  have hsame := h.2 (e.1, f e.1 e.2) (List.mem_map_of_mem (f := fun e => (e.1, f e.1 e.2)) he)
  simpa only [get?_eq_some_iff.2 he, Option.any_some] using hsame

theorem same_of_sameBy_map {d : Dict α} {same : α → α → Bool} {f : α → α}
    (h : (d.map f).sameBy same d = true) {a : α} (ha : a ∈ d.values) : same (f a) a = true := by
  obtain ⟨k, hk⟩ := mem_values_iff.1 ha
  exact same_of_sameBy_mapWithKey h hk

/-- A map that keeps each value up to `same` keeps the contents. -/
theorem sameBy_map {d : Dict α} {same : α → α → Bool} {f : α → α}
    (h : ∀ a ∈ d.values, same (f a) a = true) : (d.map f).sameBy same d = true := by
  unfold sameBy map
  rw [Bool.and_eq_true, beq_iff_eq, List.all_eq_true]
  refine ⟨size_mapWithKey d _, fun e he => ?_⟩
  obtain ⟨⟨k, a⟩, ha, rfl⟩ := List.mem_map.1 he
  dsimp only
  rw [get?_eq_some_iff.2 ha, Option.any_some]
  exact h a (mem_values_iff.2 ⟨k, ha⟩)

theorem sameBy_self {d : Dict α} {same : α → α → Bool} (h : ∀ a ∈ d.values, same a a = true) :
    d.sameBy same d = true := by
  have hmap : (d.map id).sameBy same d = true := sameBy_map h
  rwa [map_id] at hmap

theorem size_eq_of_sameBy {a b : Dict α} {same : α → α → Bool} (h : a.sameBy same b = true) :
    a.size = b.size := by
  unfold sameBy at h
  rw [Bool.and_eq_true, beq_iff_eq] at h
  exact h.1

theorem filter_eq_self_iff {d : Dict α} {p : String → α → Bool} :
    d.filter p = d ↔ ∀ e ∈ d.entries, p e.1 e.2 = true := by
  have hentries : (d.filter p).entries = d.entries ↔ ∀ e ∈ d.entries, p e.1 e.2 = true :=
    List.filter_eq_self
  exact ⟨fun h => hentries.1 (congrArg entries h), fun h => Dict.ext (hentries.2 h)⟩

/-- A filter that leaves as many entries leaves all. -/
theorem filter_eq_self_of_size {d : Dict α} {p : String → α → Bool}
    (h : (d.filter p).size = d.size) : d.filter p = d :=
  filter_eq_self_iff.2 (List.length_filter_eq_length_iff.1 h)

/-- A test that mapping does not change may be made before. -/
theorem filter_map {d : Dict α} {f : α → β} {p : String → β → Bool} {q : String → α → Bool}
    (h : ∀ k a, p k (f a) = q k a) : (d.map f).filter p = (d.filter q).map f := by
  refine Dict.ext ?_
  rw [entries_filter, entries_map, entries_map, entries_filter, List.filter_map]
  congr 2
  funext e
  exact h e.1 e.2

theorem get?_filter (d : Dict α) (p : String → α → Bool) (k : String) :
    (d.filter p).get? k = (d.get? k).filter (p k) := by
  refine Option.ext fun a => ?_
  rw [get?_eq_some_iff, entries_filter, List.mem_filter, Option.filter_eq_some_iff,
    get?_eq_some_iff]

theorem get?_erase (d : Dict α) (key k : String) :
    (d.erase key).get? k = if k = key then none else d.get? k := by
  unfold erase
  rw [get?_filter]
  split_ifs with h
  · subst h
    simp
  · cases d.get? k <;> simp [h]

theorem get?_map (d : Dict α) (f : α → β) (k : String) : (d.map f).get? k = (d.get? k).map f := by
  unfold get?
  rw [entries_map]
  induction d.entries with
  | nil => rfl
  | cons e es ih =>
    obtain ⟨k', a⟩ := e
    rw [List.map_cons, lookup_cons_eq_ite, lookup_cons_eq_ite, ih]
    split_ifs <;> rfl

theorem values_map (d : Dict α) (f : α → β) : (d.map f).values = d.values.map f := by
  unfold values
  rw [entries_map, List.map_map, List.map_map]
  rfl

end Keybinds.Dict
