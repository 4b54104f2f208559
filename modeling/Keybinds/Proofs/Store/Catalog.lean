import Keybinds.Proofs.Files.Trees
import Keybinds.Proofs.Store.Names
import Keybinds.Proofs.Stored.Documents

/-!
# The files of a store

A tree holds a catalog of documents for a store when the files in the directory of the store are
those of the documents, one for each id (`Holds`). Then an id is read as the document of the catalog
(`Holds.readText`), and nothing is read for another id; saving replaces one document and keeps all
others (`Holds.insert`).
-/

namespace Keybinds

open Stored (Document)
open Keybinds.Path (join)

/-- No file lies in the directory. -/
def FileTree.HoldsNoFile (t : FileTree) (directory : String) : Prop :=
  ∀ place, t.place? (join directory "") = some place → ∀ name bytes, '/' ∉ name.toList →
    t.items.get? (FileTree.placeOf (place ++ [name])) ≠ some (.file bytes)

namespace Store

/-- The text of a document is read as its value is. -/
def IsFaithful (d : Document) : Prop :=
  Document.read? d.text = Document.ofValue? d.toValue

/-- A document that can be stored under an id. -/
structure IsStorable (id : String) (d : Document) : Prop where
  valid : isValidId id = true
  short : (fileName id).utf8ByteSize ≤ FileTree.longestName
  fits : d.Fits Json.deepest
  faithful : IsFaithful d

/-- The files in the directory are those of the documents in the catalog. -/
structure Holds (s : Store) (t : FileTree) (catalog : Dict Document) : Prop where
  rooted : t.IsRooted
  storable : ∀ id d, catalog.get? id = some d → IsStorable id d
  directory : ∀ id d, catalog.get? id = some d → t.isDirectory s.directory = true
  files : ∀ place, t.place? (join s.directory "") = some place → ∀ name bytes,
    '/' ∉ name.toList →
      (t.items.get? (FileTree.placeOf (place ++ [name])) = some (.file bytes) ↔
        ∃ id d, catalog.get? id = some d ∧ fileName id = name ∧ bytes = d.text.toUTF8)

variable {s : Store} {t : FileTree} {catalog : Dict Document} {id : String}

theorem holds_empty (hroot : t.IsRooted) (h : t.HoldsNoFile s.directory) : Holds s t ∅ := by
  have hnone : ∀ id d, (∅ : Dict Document).get? id ≠ some d :=
    fun _ d => Option.some_ne_none d ∘ .symm
  refine ⟨hroot, fun id d hd => absurd hd (hnone id d), fun id d hd => absurd hd (hnone id d),
    fun place hplace name bytes hname => ?_⟩
  refine iff_of_false (h place hplace name bytes hname) ?_
  rintro ⟨id, d, hd, -⟩
  exact hnone id d hd

/-- Creating the directory, writing the draft and moving it puts the text under the name of the id
and leaves nothing under that of the draft; all else stays as the creation left it. -/
theorem exists_place_of_save (hid : isValidId id = true) {bytes : ByteArray}
    {created written moved : FileTree}
    (hcreate : t.createDirectories s.directory = (.ok (), created))
    (hwrite : created.writeBytes (s.draftPathOf id) bytes = .ok written)
    (hmove : written.moveFile (s.draftPathOf id) (s.pathOf id) = .ok moved) :
    t.AddsDirectories created ∧ created.KeepsDirectories moved ∧
      created.isDirectory s.directory = true ∧
      (fileName id).utf8ByteSize ≤ FileTree.longestName ∧
      ∃ place, created.place? (join s.directory "") = some place ∧ ∀ key, moved.items.get? key =
        if key = FileTree.placeOf (place ++ [fileName id]) then some (.file bytes)
        else if key = FileTree.placeOf (place ++ [draftName id]) then none
        else created.items.get? key := by
  have hname := isName_fileName hid
  have hdraft := isName_draftName hid
  obtain ⟨hadds, hdirectory⟩ := FileTree.isDirectory_createDirectories hcreate
  rw [draftPathOf_eq hid] at hwrite hmove
  rw [pathOf_eq] at hmove
  obtain ⟨q, hq, hkeeps, hwritten⟩ := FileTree.writeBytes_eq_ok hwrite
  obtain ⟨place, hplace, -, rfl⟩ := (FileTree.locate_join hdraft).1 hq
  obtain ⟨origin, target, bytes', horigin, htarget, hitem, hkeeps', hmoved⟩ :=
    FileTree.moveFile_eq_ok hmove
  -- The three paths have one place, because writing the draft keeps the directory.
  have hplace' := hkeeps.locate hplace
  obtain ⟨place₁, hplace₁, -, rfl⟩ := (FileTree.locate_join hdraft).1 horigin
  obtain ⟨place₂, hplace₂, hshort, rfl⟩ := (FileTree.locate_join hname).1 htarget
  obtain rfl : place = place₁ := Except.ok.inj (hplace'.symm.trans hplace₁)
  obtain rfl : place = place₂ := Except.ok.inj (hplace'.symm.trans hplace₂)
  obtain rfl : bytes = bytes' := by
    rw [FileTree.item?_concat hdraft, hwritten, if_pos rfl] at hitem
    exact FileItem.file.inj (Option.some.inj hitem)
  refine ⟨hadds, hkeeps.trans hkeeps', hdirectory, hshort, place, FileTree.place?_of_locate hplace,
    fun key => ?_⟩
  rw [hmoved, hwritten]
  split_ifs <;> rfl

/-- A file name belongs to the inserted id, or to one that was there before. -/
theorem exists_insert_iff {d : Document} {name : String} {P : Document → Prop} :
    (∃ id' d', (catalog.insert id d).get? id' = some d' ∧ fileName id' = name ∧ P d') ↔
      if name = fileName id then P d
      else ∃ id' d', catalog.get? id' = some d' ∧ fileName id' = name ∧ P d' := by
  simp only [Dict.get?_insert]
  split_ifs with hname
  · constructor
    · rintro ⟨id', d', hd', hname', hP⟩
      rw [if_pos (fileName_inj.1 (hname'.trans hname))] at hd'
      exact Option.some.inj hd' ▸ hP
    · exact fun hP => ⟨id, d, if_pos rfl, hname.symm, hP⟩
  · refine exists_congr fun id' => exists_congr fun d' => and_congr_left fun ⟨hname', _⟩ => ?_
    rw [if_neg]
    exact fun hid => hname (by rw [← hname', hid])

namespace Holds

/-- Every document is in the file of its id. -/
theorem readText (h : Holds s t catalog) {d : Document} (hd : catalog.get? id = some d) :
    t.readText (s.pathOf id) = .ok d.text := by
  have hstorable := h.storable id d hd
  have hname := isName_fileName hstorable.valid
  obtain ⟨place, hlocate, hdirectory⟩ := FileTree.isDirectory_iff.1 (h.directory id d hd)
  have hplace := FileTree.locate_join_empty_of_locate h.rooted hlocate hdirectory
  refine FileTree.readText_of_item?
    ((FileTree.locate_join hname).2 ⟨place, hplace, hstorable.short, rfl⟩) ?_
  rw [FileTree.item?_concat hname]
  exact (h.files place (FileTree.place?_of_locate hplace) _ _ hname.noSlash).2
    ⟨id, d, hd, rfl, rfl⟩

/-- What is read for an id is in the catalog. -/
theorem exists_of_readText (h : Holds s t catalog) (hid : isValidId id = true) {text : String}
    (hread : t.readText (s.pathOf id) = .ok text) : ∃ d, catalog.get? id = some d := by
  have hname := isName_fileName hid
  obtain ⟨q, bytes, hq, hitem⟩ := FileTree.exists_item?_of_readText hread
  obtain ⟨place, hplace, -, rfl⟩ := (FileTree.locate_join hname).1 hq
  rw [FileTree.item?_concat hname] at hitem
  obtain ⟨id', d, hd, heq, -⟩ :=
    (h.files place (FileTree.place?_of_locate hplace) _ _ hname.noSlash).1 hitem
  exact ⟨d, fileName_inj.1 heq ▸ hd⟩

/-- The listed names are those of the ids in the catalog. -/
theorem stems_fileNames (h : Holds s t catalog) (hdirectory : t.isDirectory s.directory = true)
    {names : List String} (hnames : t.fileNames s.directory = .ok names) :
    ((names.filter (Path.hasExtension extension)).filterMap Path.stem?).mergeSort =
      catalog.keys.mergeSort := by
  obtain ⟨place, hlocate, hitem⟩ := FileTree.isDirectory_iff.1 hdirectory
  have hplace := FileTree.place?_of_locate
    (FileTree.locate_join_empty_of_locate h.rooted hlocate hitem)
  have hkeys : ∀ id, id ∈ catalog.keys ↔ ∃ d, catalog.get? id = some d := by
    intro id
    rw [Dict.mem_keys_iff]
    simp only [Dict.get?_eq_some_iff]
  refine stems_eq (fun id hid => ?_) (FileTree.nodup_fileNames hlocate hnames)
    catalog.nodup_keys fun name => ?_
  · obtain ⟨d, hd⟩ := (hkeys id).1 hid
    exact (h.storable id d hd).valid
  · rw [FileTree.mem_fileNames_iff hlocate hnames]
    constructor
    · rintro ⟨hslash, bytes, hbytes⟩
      obtain ⟨id, d, hd, heq, -⟩ := (h.files place hplace name bytes hslash).1 hbytes
      exact ⟨id, (hkeys id).2 ⟨d, hd⟩, heq⟩
    · rintro ⟨id, hid, rfl⟩
      obtain ⟨d, hd⟩ := (hkeys id).1 hid
      have hslash := (isName_fileName (h.storable id d hd).valid).noSlash
      exact ⟨hslash, d.text.toUTF8, (h.files place hplace _ _ hslash).2 ⟨id, d, hd, rfl, rfl⟩⟩

/-- Saving a document replaces what the catalog has under the id. -/
theorem insert (h : Holds s t catalog) (hid : isValidId id = true) {d : Document}
    (hfits : d.Fits Json.deepest) (hfaithful : IsFaithful d) {created written moved : FileTree}
    (hcreate : t.createDirectories s.directory = (.ok (), created))
    (hwrite : created.writeBytes (s.draftPathOf id) d.text.toUTF8 = .ok written)
    (hmove : written.moveFile (s.draftPathOf id) (s.pathOf id) = .ok moved) :
    Holds s moved (catalog.insert id d) := by
  obtain ⟨hadds, hkeeps, hdirectory, hshort, place, hplace, hmoved⟩ :=
    exists_place_of_save hid hcreate hwrite hmove
  have hroot : moved.root = t.root := hkeeps.1.trans hadds.root
  have hplace' : ∀ place', moved.place? (join s.directory "") = some place' → place' = place := by
    intro place' h'
    rw [FileTree.place?_congr hkeeps.1, hplace] at h'
    exact (Option.some.inj h').symm
  rw [← FileTree.place?_congr hkeeps.1, FileTree.place?_congr hroot] at hplace
  have hstorable : ∀ id' d', (catalog.insert id d).get? id' = some d' → IsStorable id' d' := by
    intro id' d' hd'
    rw [Dict.get?_insert] at hd'
    split_ifs at hd' with heq
    · obtain rfl := Option.some.inj hd'
      exact heq ▸ ⟨hid, hshort, hfits, hfaithful⟩
    · exact h.storable id' d' hd'
  refine ⟨h.rooted.of_root_eq hroot, hstorable, fun _ _ _ => hkeeps.isDirectory hdirectory,
    fun place' h' name bytes hname => ?_⟩
  obtain rfl := hplace' place' h'
  rw [hmoved, exists_insert_iff]
  simp only [FileTree.placeOf_concat_inj]
  by_cases hfile : name = fileName id
  · rw [if_pos hfile, if_pos hfile, Option.some.injEq, FileItem.file.injEq, eq_comm]
  rw [if_neg hfile, if_neg hfile]
  by_cases hdraft : name = draftName id
  · -- No document has the name of the draft for its file.
    rw [if_pos hdraft]
    refine iff_of_false (by simp) ?_
    rintro ⟨id', d', hd', hname', -⟩
    exact draftName_ne_fileName hid (h.storable id' d' hd').valid (hname'.trans hdraft).symm
  rw [if_neg hdraft, ← h.files place' hplace name bytes hname]
  exact ⟨hadds.files _ _, hadds.kept _ _⟩

end Holds

end Store

end Keybinds
