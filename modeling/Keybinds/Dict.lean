/-!
# Ordered dictionaries

A `Dict α` maps texts to values and remembers the order in which its keys were first entered.
Replacing the value of a present key keeps the key's place; a new key goes last; removal closes the
gap. Two dictionaries are equal when they hold equal entries in the same order; `Dict.Same` forgets
the order.
-/

namespace Keybinds

/-- Entries in order, with pairwise different keys. -/
structure Dict (α : Type) where
  entries : List (String × α)
  nodup : (entries.map Prod.fst).Nodup

namespace Dict

variable {α β : Type}

instance [DecidableEq α] : DecidableEq (Dict α) := fun a b =>
  decidable_of_iff (a.entries = b.entries) (by cases a; cases b; simp)

@[ext] theorem ext {a b : Dict α} (h : a.entries = b.entries) : a = b := by
  cases a; cases b; simp_all

def empty : Dict α := ⟨[], by simp⟩

instance : EmptyCollection (Dict α) := ⟨empty⟩

@[simp] theorem entries_empty : (∅ : Dict α).entries = [] := rfl

def keys (d : Dict α) : List String := d.entries.map Prod.fst
def values (d : Dict α) : List α := d.entries.map Prod.snd
def size (d : Dict α) : Nat := d.entries.length
def isEmpty (d : Dict α) : Bool := d.entries.isEmpty

/-- The value under a key. -/
def get? (d : Dict α) (key : String) : Option α := d.entries.lookup key

def contains (d : Dict α) (key : String) : Bool := (d.get? key).isSome

/-! ## Entering and replacing -/

/-- Entries after `f` was applied to the value under `key`, or to `none` for a new last entry. -/
def alterEntries (key : String) (f : Option α → α) : List (String × α) → List (String × α)
  | [] => [(key, f none)]
  | (k, a) :: rest => if k = key then (k, f (some a)) :: rest else (k, a) :: alterEntries key f rest

theorem map_fst_alterEntries (key : String) (f : Option α → α) (es : List (String × α)) :
    (alterEntries key f es).map Prod.fst =
      if key ∈ es.map Prod.fst then es.map Prod.fst else es.map Prod.fst ++ [key] := by
  induction es with
  | nil => simp [alterEntries]
  | cons e rest ih =>
    obtain ⟨k, a⟩ := e
    by_cases h : k = key
    · simp [alterEntries, h]
    · have h' : ¬ key = k := fun e => h e.symm
      simp only [alterEntries, h, if_false, List.map_cons, ih, List.mem_cons, h', false_or]
      split <;> simp

/-- Sets the value under `key` to what `f` makes of the present one. -/
def alter (d : Dict α) (key : String) (f : Option α → α) : Dict α where
  entries := alterEntries key f d.entries
  nodup := by
    rw [map_fst_alterEntries]
    split
    · exact d.nodup
    · rename_i h
      exact List.nodup_append.2 ⟨d.nodup, by simp, by simp; grind⟩

/-- Sets the value under `key`. -/
def insert (d : Dict α) (key : String) (a : α) : Dict α :=
  d.alter key fun _ => a

/-- Sets the value under `key` unless there is one. -/
def insertIfNew (d : Dict α) (key : String) (a : α) : Dict α :=
  d.alter key fun old => old.getD a

/-- The entries in turn; a later one with the same key replaces the value. -/
def ofList (es : List (String × α)) : Dict α :=
  es.foldl (fun d e => d.insert e.1 e.2) ∅

/-! ## Removing and mapping -/

/-- The entries whose key and value pass the test. -/
def filter (d : Dict α) (p : String → α → Bool) : Dict α where
  entries := d.entries.filter fun e => p e.1 e.2
  nodup := d.nodup.sublist (List.filter_sublist.map Prod.fst)

def erase (d : Dict α) (key : String) : Dict α :=
  d.filter fun k _ => k != key

/-- Entries without the one under `key`, whose place the last entry takes. -/
def swapEraseEntries (key : String) : List (String × α) → List (String × α)
  | [] => []
  | (k, a) :: rest =>
    if k = key then rest.getLast?.toList ++ rest.dropLast else (k, a) :: swapEraseEntries key rest

theorem getLast?_toList_append_dropLast_perm (es : List β) :
    (es.getLast?.toList ++ es.dropLast).Perm es := by
  rcases List.eq_nil_or_concat es with rfl | ⟨init, last, rfl⟩
  · simp
  · simpa using (List.perm_append_comm : ([last] ++ init).Perm (init ++ [last]))

theorem swapEraseEntries_perm (key : String) (es : List (String × α)) :
    (swapEraseEntries key es).Perm (es.eraseP fun e => e.1 = key) := by
  induction es with
  | nil => simp [swapEraseEntries]
  | cons e rest ih =>
    obtain ⟨k, a⟩ := e
    by_cases h : k = key
    · simpa [swapEraseEntries, h] using getLast?_toList_append_dropLast_perm rest
    · simpa [swapEraseEntries, h] using ih

/-- Removes a key; the last entry takes its place. -/
def swapErase (d : Dict α) (key : String) : Dict α where
  entries := swapEraseEntries key d.entries
  nodup :=
    ((swapEraseEntries_perm key d.entries).map Prod.fst).nodup_iff.2
      (d.nodup.sublist ((List.eraseP_sublist).map Prod.fst))

/-- Maps each value, seeing its key. -/
def mapWithKey (d : Dict α) (f : String → α → β) : Dict β where
  entries := d.entries.map fun e => (e.1, f e.1 e.2)
  nodup := by simpa [Function.comp_def] using d.nodup

/-- Maps each value. -/
def map (d : Dict α) (f : α → β) : Dict β :=
  d.mapWithKey fun _ a => f a

/-! ## Contents -/

/-- Whether two dictionaries hold, up to `same`, the same values under the same keys, in whatever
order. -/
def sameBy (same : α → α → Bool) (a b : Dict α) : Bool :=
  a.size == b.size && a.entries.all fun (k, x) => (b.get? k).any (same x)

/-- Equal contents: the same value under every key, in whatever order. -/
def Same (a b : Dict α) : Prop :=
  ∀ key, a.get? key = b.get? key

theorem nodup_keys (d : Dict α) : d.keys.Nodup := d.nodup

theorem keys_alter (d : Dict α) (key : String) (f : Option α → α) :
    (d.alter key f).keys = if key ∈ d.keys then d.keys else d.keys ++ [key] :=
  map_fst_alterEntries key f d.entries

@[simp] theorem keys_mapWithKey (d : Dict α) (f : String → α → β) :
    (d.mapWithKey f).keys = d.keys := by
  simp [keys, mapWithKey]

theorem lookup_cons_eq_ite (k key : String) (a : α) (es : List (String × α)) :
    ((key, a) :: es).lookup k = if k = key then some a else es.lookup k := by
  rw [List.lookup_cons]
  by_cases h : k = key
  · simp [h]
  · simp [h, beq_eq_false_iff_ne.2 h]

theorem lookup_alterEntries (key k : String) (f : Option α → α) (es : List (String × α)) :
    (alterEntries key f es).lookup k =
      if k = key then some (f (es.lookup key)) else es.lookup k := by
  induction es with
  | nil => simp [alterEntries, lookup_cons_eq_ite]
  | cons e rest ih =>
    obtain ⟨k', a⟩ := e
    by_cases h : k' = key
    · subst h
      by_cases hk : k = k' <;> simp [alterEntries, lookup_cons_eq_ite, hk]
    · have h' : ¬ key = k' := fun e => h e.symm
      by_cases hk : k = k'
      · simp [alterEntries, h, hk]
      · simp [alterEntries, lookup_cons_eq_ite, h, h', hk, ih]

theorem get?_alter (d : Dict α) (key k : String) (f : Option α → α) :
    (d.alter key f).get? k = if k = key then some (f (d.get? key)) else d.get? k :=
  lookup_alterEntries key k f d.entries

@[simp] theorem get?_insert (d : Dict α) (key k : String) (a : α) :
    (d.insert key a).get? k = if k = key then some a else d.get? k :=
  get?_alter d key k _

end Dict

end Keybinds
