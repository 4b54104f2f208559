import Keybinds.Store
import Keybinds.Proofs.Files.Paths
import Mathlib.Data.List.Sort

/-!
# Ids and the names of their files

A valid id is the stem of exactly one file name, which is no name of a draft, whatever points the id
holds. A draft lies beside its file (`draftPathOf_eq`). So a directory that holds the files of some
ids and no other files is listed as these ids (`stems_eq`).
-/

namespace Keybinds.Store

open Keybinds.Path (join IsName)

/-- The name of the file of an id. -/
def fileName (id : String) : String :=
  id ++ "." ++ extension

/-- The name that the file of an id has while it is written. -/
def draftName (id : String) : String :=
  fileName id ++ "." ++ "tmp"

theorem pathOf_eq (s : Store) (id : String) : s.pathOf id = join s.directory (fileName id) := rfl

theorem noSlash_of_isValidId {id : String} (h : isValidId id = true) : '/' ∉ id.toList := by
  unfold isValidId at h
  rw [Bool.and_eq_true, Bool.not_eq_true', List.any_eq_false] at h
  intro hmem
  exact absurd (h.2 _ hmem) (by simp)

theorem ne_empty_of_isValidId {id : String} (h : isValidId id = true) : id ≠ "" := by
  rintro rfl
  exact absurd h (by decide +kernel)

theorem fileName_inj {id id' : String} : fileName id = fileName id' ↔ id = id' := by
  unfold fileName
  rw [← String.toList_inj, ← String.toList_inj]
  simp

section

variable {id : String} (h : isValidId id = true)

include h

theorem isName_fileName : IsName (fileName id) := by
  refine Path.isName_append ?_ (ne_empty_of_isValidId h) (by decide)
  simpa [extension] using noSlash_of_isValidId h

theorem isName_draftName : IsName (draftName id) := by
  refine Path.isName_append ?_ ?_ (by decide)
  · have hslash := (isName_fileName h).noSlash
    simpa using hslash
  · exact (isName_fileName h).ne_empty

theorem draftPathOf_eq (s : Store) : s.draftPathOf id = join s.directory (draftName id) := by
  have hdraft : draftName id = id ++ "." ++ (extension ++ ".tmp") := by
    simp [draftName, fileName, ← String.toList_inj]
  have hname := isName_draftName h
  rw [hdraft] at hname ⊢
  exact Path.withExtension_join (isName_fileName h) (ne_empty_of_isValidId h) (by decide) hname
    (by decide) s.directory

theorem hasExtension_fileName : Path.hasExtension extension (fileName id) = true :=
  (Path.hasExtension_iff (isName_fileName h) (ne_empty_of_isValidId h) (by decide) _).2 rfl

theorem stem?_fileName : Path.stem? (fileName id) = some id :=
  Path.stem?_append (isName_fileName h) (ne_empty_of_isValidId h) (by decide)

theorem draftName_ne_fileName {id' : String} (h' : isValidId id' = true) :
    draftName id ≠ fileName id' := by
  intro heq
  have hext := hasExtension_fileName h'
  rw [← heq] at hext
  exact absurd ((Path.hasExtension_iff (isName_draftName h) (isName_fileName h).ne_empty (by decide)
    _).1 hext) (by decide)

end

theorem pairwise_mergeSort_le (xs : List String) : xs.mergeSort.Pairwise (· ≤ ·) := by
  have htrans : ∀ a b c : String, decide (a ≤ b) = true → decide (b ≤ c) = true →
      decide (a ≤ c) = true := by
    simp only [decide_eq_true_iff]
    exact fun a b c => String.le_trans
  have htotal : ∀ a b : String, (decide (a ≤ b) || decide (b ≤ a)) = true := by
    simp only [Bool.or_eq_true, decide_eq_true_iff]
    exact String.le_total
  simpa only [decide_eq_true_iff] using List.pairwise_mergeSort htrans htotal xs

/-- What is listed once is in strict order behind sorting. -/
theorem pairwise_mergeSort_lt {xs : List String} (h : xs.Nodup) :
    xs.mergeSort.Pairwise (· < ·) := by
  have hne : xs.mergeSort.Pairwise (· ≠ ·) := (List.mergeSort_perm xs _).nodup_iff.2 h
  exact (pairwise_mergeSort_le xs).imp₂
    (fun a b hab hne => String.not_le.1 fun hba => hne (String.le_antisymm hab hba)) hne

/-- The sorted list does not depend on the order. -/
theorem mergeSort_eq_of_perm {xs ys : List String} (h : xs.Perm ys) : xs.mergeSort = ys.mergeSort :=
  List.Perm.eq_of_pairwise (fun _ _ _ _ => String.le_antisymm) (pairwise_mergeSort_le xs)
    (pairwise_mergeSort_le ys)
    ((List.mergeSort_perm xs _).trans (h.trans (List.mergeSort_perm ys _).symm))

/-- The files of some ids are listed as these ids. -/
theorem stems_eq {names ids : List String} (hids : ∀ id ∈ ids, isValidId id = true)
    (hnames : names.Nodup) (hnodup : ids.Nodup)
    (hmem : ∀ name, name ∈ names ↔ ∃ id ∈ ids, fileName id = name) :
    ((names.filter (Path.hasExtension extension)).filterMap Path.stem?).mergeSort =
      ids.mergeSort := by
  have hperm : names.Perm (ids.map fileName) := by
    rw [List.perm_ext_iff_of_nodup hnames (hnodup.map fun _ _ => fileName_inj.1)]
    exact fun name => (hmem name).trans List.mem_map.symm
  have hfilter : (ids.map fileName).filter (Path.hasExtension extension) = ids.map fileName := by
    rw [List.filter_eq_self, List.forall_mem_map]
    exact fun id hid => hasExtension_fileName (hids id hid)
  have hstems : (ids.map fileName).filterMap Path.stem? = ids := by
    rw [List.filterMap_map]
    exact (List.filterMap_congr fun id hid => stem?_fileName (hids id hid)).trans
      List.filterMap_some
  refine mergeSort_eq_of_perm ?_
  have hread := (hperm.filter (Path.hasExtension extension)).filterMap Path.stem?
  rwa [hfilter, hstems] at hread

end Keybinds.Store
