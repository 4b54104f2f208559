import Mathlib.Data.List.Forall2
import Mathlib.Data.List.Nodup

/-!
# Lists

`mapM` over a list succeeds when the function succeeds on each element, and then gives the values in
order; otherwise it stops at the first fault (`stopsAtFirst_mapM`). What stands in joined lists
stands in the separator or in one of them, and the parts of a list that is cut hold nothing that it
is cut at. Elements with different keys are found by them.
-/

namespace Keybinds

variable {α β ε : Type}

theorem mapM_eq_some_iff {f : α → Option β} {xs : List α} {ys : List β} :
    xs.mapM f = some ys ↔ List.Forall₂ (fun x y => f x = some y) xs ys := by
  induction xs generalizing ys with
  | nil =>
    rw [List.mapM_nil, List.forall₂_nil_left_iff]
    exact ⟨fun h => (Option.some.inj h).symm, fun h => h ▸ rfl⟩
  | cons x xs ih =>
    rw [List.mapM_cons]
    constructor
    · intro h
      obtain ⟨y, hy, h⟩ := Option.bind_eq_some_iff.1 h
      obtain ⟨ys', hys, h⟩ := Option.bind_eq_some_iff.1 h
      obtain rfl := Option.some.inj h
      exact .cons hy (ih.1 hys)
    · intro h
      cases h with
      | cons hy hys => exact Option.bind_eq_some_iff.2 ⟨_, hy, by rw [ih.2 hys]; rfl⟩

theorem bind_eq_ok_iff {x : Except ε α} {f : α → Except ε β} {b : β} :
    x >>= f = .ok b ↔ ∃ a, x = .ok a ∧ f a = .ok b := by
  cases x with
  | error e =>
    constructor
    · intro h
      cases h
    · rintro ⟨a, h, -⟩
      cases h
  | ok a =>
    constructor
    · intro h
      exact ⟨a, rfl, h⟩
    · rintro ⟨a', h, hf⟩
      cases h
      exact hf

theorem eq_ok_of_toOption {x : Except ε α} {a : α} (h : x.toOption = some a) : x = .ok a := by
  cases x with
  | error e => cases h
  | ok b =>
    cases h
    rfl

theorem mapM_eq_ok_iff {f : α → Except ε β} {xs : List α} {ys : List β} :
    xs.mapM f = .ok ys ↔ List.Forall₂ (fun x y => f x = .ok y) xs ys := by
  induction xs generalizing ys with
  | nil =>
    rw [List.mapM_nil, List.forall₂_nil_left_iff]
    exact ⟨fun h => (Except.ok.inj h).symm, fun h => h ▸ rfl⟩
  | cons x xs ih =>
    rw [List.mapM_cons]
    constructor
    · intro h
      obtain ⟨y, hy, h⟩ := bind_eq_ok_iff.1 h
      obtain ⟨ys', hys, h⟩ := bind_eq_ok_iff.1 h
      obtain rfl := Except.ok.inj h
      exact .cons hy (ih.1 hys)
    · intro h
      cases h with
      | cons hy hys => exact bind_eq_ok_iff.2 ⟨_, hy, by rw [ih.2 hys]; rfl⟩

/-- The whole succeeds just if the function succeeds on each element. -/
theorem exists_mapM_eq_ok_iff {f : α → Except ε β} {xs : List α} :
    (∃ ys, xs.mapM f = .ok ys) ↔ ∀ x ∈ xs, ∃ y, f x = .ok y := by
  induction xs with
  | nil => exact iff_of_true ⟨[], rfl⟩ fun _ h => absurd h List.not_mem_nil
  | cons x xs ih =>
    rw [List.forall_mem_cons, ← ih]
    constructor
    · rintro ⟨ys, h⟩
      cases mapM_eq_ok_iff.1 h with
      | cons hy hys => exact ⟨⟨_, hy⟩, _, mapM_eq_ok_iff.2 hys⟩
    · rintro ⟨⟨y, hy⟩, ys, hys⟩
      exact ⟨y :: ys, mapM_eq_ok_iff.2 (.cons hy (mapM_eq_ok_iff.1 hys))⟩

/-- A computation stops at the first of some faults, and succeeds just if there is none. -/
def StopsAtFirst (x : Except ε α) (faults : List ε) : Prop :=
  match x with
  | .ok _ => faults = []
  | .error fault => faults.head? = some fault

theorem StopsAtFirst.bind {x : Except ε α} {faults : List ε} (hx : StopsAtFirst x faults)
    {f : α → Except ε β} {others : List ε} (hf : ∀ a, x = .ok a → StopsAtFirst (f a) others) :
    StopsAtFirst (x >>= f) (faults ++ others) := by
  cases x with
  | ok a =>
    obtain rfl : faults = [] := hx
    exact hf a rfl
  | error fault =>
    have hfirst : faults.head? = some fault := hx
    show (faults ++ others).head? = some fault
    rw [List.head?_append, hfirst]
    rfl

theorem StopsAtFirst.map {x : Except ε α} {faults : List ε} (hx : StopsAtFirst x faults)
    (f : α → β) : StopsAtFirst (x >>= fun a => pure (f a)) faults := by
  cases x with
  | ok a => exact hx
  | error fault => exact hx

theorem stopsAtFirst_mapM {f : α → Except ε β} {faults : α → List ε} {xs : List α}
    (h : ∀ x ∈ xs, StopsAtFirst (f x) (faults x)) :
    StopsAtFirst (xs.mapM f) (xs.flatMap faults) := by
  induction xs with
  | nil => rfl
  | cons x xs ih =>
    rw [List.forall_mem_cons] at h
    rw [List.mapM_cons, List.flatMap_cons]
    exact h.1.bind fun y _ => (ih h.2).map fun ys => y :: ys

theorem StopsAtFirst.eq_error_iff {x : Except ε α} {faults : List ε} (h : StopsAtFirst x faults)
    {fault : ε} : x = .error fault ↔ faults.head? = some fault := by
  cases x with
  | ok a =>
    obtain rfl : faults = [] := h
    exact iff_of_false nofun nofun
  | error first =>
    have hfirst : faults.head? = some first := h
    rw [hfirst, Except.error.injEq, Option.some.injEq]

theorem StopsAtFirst.exists_ok_iff {x : Except ε α} {faults : List ε} (h : StopsAtFirst x faults) :
    (∃ a, x = .ok a) ↔ faults = [] := by
  cases x with
  | ok a => exact iff_of_true ⟨a, rfl⟩ h
  | error first =>
    have hfirst : faults.head? = some first := h
    refine iff_of_false nofun ?_
    rintro rfl
    cases hfirst

theorem mem_intercalate {sep : List α} {xss : List (List α)} {a : α}
    (h : a ∈ sep.intercalate xss) : a ∈ sep ∨ ∃ xs ∈ xss, a ∈ xs := by
  induction xss with
  | nil => simp at h
  | cons xs xss ih =>
    by_cases hxss : xss = []
    · subst hxss
      rw [List.intercalate_singleton] at h
      exact Or.inr ⟨xs, List.mem_cons_self, h⟩
    · rw [List.intercalate_cons_of_ne_nil hxss, List.mem_append, List.mem_append] at h
      rcases h with (h | h) | h
      · exact Or.inr ⟨xs, List.mem_cons_self, h⟩
      · exact Or.inl h
      · rcases ih h with h | ⟨ys, hys, h⟩
        · exact Or.inl h
        · exact Or.inr ⟨ys, List.mem_cons_of_mem xs hys, h⟩

/-- No part holds an element that lists are cut at. -/
theorem forall_of_mem_splitOnP {p : α → Bool} {xs part : List α} (h : part ∈ xs.splitOnP p) :
    ∀ x ∈ part, p x = false := by
  induction xs generalizing part with
  | nil =>
    rw [List.splitOnP_nil, List.mem_singleton] at h
    subst h
    exact fun x hx => absurd hx List.not_mem_nil
  | cons x xs ih =>
    rw [List.splitOnP_cons_eq_if_modifyHead] at h
    split at h
    · rcases List.mem_cons.1 h with rfl | h
      · exact fun x hx => absurd hx List.not_mem_nil
      · exact ih h
    · rename_i hx
      obtain ⟨first, parts, hparts⟩ := List.exists_cons_of_ne_nil (List.splitOnP_ne_nil p xs)
      rw [hparts] at h ih
      rcases List.mem_cons.1 h with rfl | h
      · rw [List.forall_mem_cons]
        exact ⟨by simpa using hx, ih List.mem_cons_self⟩
      · exact ih (List.mem_cons_of_mem first h)

/-- What the relation gives of each element on the right holds of all of them. -/
theorem forall_of_forall₂ {R : α → β → Prop} {p : β → Prop} {xs : List α} {ys : List β}
    (h : List.Forall₂ R xs ys) (hR : ∀ x y, R x y → p y) : ∀ y ∈ ys, p y := by
  induction h with
  | nil => exact fun y hy => absurd hy List.not_mem_nil
  | cons hxy _ ih => exact List.forall_mem_cons.2 ⟨hR _ _ hxy, ih⟩

/-- The values that a function has are those of the elements that it has a value of, in order. -/
theorem forall₂_filterMap (f : α → Option β) (xs : List α) :
    List.Forall₂ (fun x y => f x = some y) (xs.filter fun x => (f x).isSome) (xs.filterMap f) := by
  induction xs with
  | nil => exact .nil
  | cons x xs ih =>
    rw [List.filter_cons, List.filterMap_cons]
    cases hx : f x with
    | none => exact ih
    | some y => exact .cons hx ih

/-- Among elements with different keys, the one with a member's key is that member. -/
theorem find?_eq_some_of_nodup [BEq β] [LawfulBEq β] {f : α → β} {xs : List α}
    (h : (xs.map f).Nodup) {x : α} (hx : x ∈ xs) : xs.find? (fun y => f y == f x) = some x := by
  cases hfind : xs.find? (fun y => f y == f x) with
  | none =>
    rw [List.find?_eq_none] at hfind
    exact absurd (beq_self_eq_true (f x)) (hfind x hx)
  | some y =>
    have hkey : f y = f x := beq_iff_eq.1 (List.find?_some (p := fun y => f y == f x) hfind)
    rw [List.inj_on_of_nodup_map h (List.mem_of_find?_eq_some hfind) hx hkey]

/-! ## Sublists and duplicates -/

theorem filterMap_cons_toList (f : α → Option β) (x : α) (xs : List α) :
    (x :: xs).filterMap f = (f x).toList ++ xs.filterMap f := by
  rw [List.filterMap_cons]
  cases f x <;> rfl

/-- What is read of the chosen elements is among what is read of all, in the same order. -/
theorem map_filterMap_sublist {γ : Type} {f : α → Option β} {g : β → γ} {h : α → γ}
    (hf : ∀ x y, f x = some y → g y = h x) (xs : List α) :
    ((xs.filterMap f).map g).Sublist (xs.map h) := by
  induction xs with
  | nil => exact List.Sublist.refl _
  | cons x xs ih =>
    rw [filterMap_cons_toList, List.map_append, List.map_cons]
    cases hx : f x with
    | none => exact ih.cons _
    | some y =>
      show (g y :: (xs.filterMap f).map g).Sublist _
      rw [hf x y hx]
      exact ih.cons_cons _

/-- Of a repeated element the first one counts. -/
theorem eraseDups_concat [DecidableEq α] (xs : List α) (x : α) :
    (xs ++ [x]).eraseDups = if x ∈ xs then xs.eraseDups else xs.eraseDups ++ [x] := by
  have hnil : ([] : List α).removeAll xs = [] := rfl
  rw [List.eraseDups_append, List.cons_removeAll, hnil]
  by_cases h : x ∈ xs
  · rw [if_pos h, if_neg (by simpa using h), List.eraseDups_nil, List.append_nil]
  · rw [if_neg h, if_pos (by simpa using h)]
    rfl

/-! ## Counting -/

/-- A test that is split in two that exclude each other is passed as often as both of them. -/
theorem countP_eq_add {p q r : α → Bool} (hor : ∀ x, p x = (q x || r x))
    (hand : ∀ x, (q x && r x) = false) (xs : List α) :
    xs.countP p = xs.countP q + xs.countP r := by
  induction xs with
  | nil => rfl
  | cons x xs ih =>
    have hx := hand x
    rw [List.countP_cons, List.countP_cons, List.countP_cons, ih, hor]
    cases hq : q x <;> cases hr : r x <;> simp_all <;> omega

end Keybinds
