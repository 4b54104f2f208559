import Keybinds.Store
import Keybinds.Files.Tree

/-!
# The operations of a store on a file tree

What loading, saving and listing can do to a tree, case by case: they refuse an id, meet a fault of
the tree, or succeed, and say so (`load_cases`, `save_cases`, `ids_cases`).
-/

namespace Keybinds.Store

open Stored (Document)
open Keybinds.Path (join)

variable {α β : Type}

/-- What an operation gives on a tree, with the log behind it and the tree that it leaves. -/
def perform (x : StoreM (StateM FileTree) α) (log : List Log.Entry) (t : FileTree) :
    (Except StoreFault α × List Log.Entry) × FileTree :=
  (x.run.run log).run t

section

variable (log : List Log.Entry) (t : FileTree)

theorem perform_bind (x : StoreM (StateM FileTree) α) (f : α → StoreM (StateM FileTree) β) :
    perform (x >>= f) log t =
      match perform x log t with
      | ((.ok a, log'), t') => perform (f a) log' t'
      | ((.error fault, log'), t') => ((.error fault, log'), t') := by
  have hrun : perform (x >>= f) log t =
      match perform x log t with
      | ((r, log'), t') => perform (ExceptT.bindCont f r : StateT _ _ _) log' t' := rfl
  rw [hrun]
  rcases perform x log t with ⟨⟨_ | a, log'⟩, t'⟩ <;> rfl

theorem perform_bind_of_ok {x : StoreM (StateM FileTree) α} {f : α → StoreM (StateM FileTree) β}
    {log log' : List Log.Entry} {t t' : FileTree} {a : α}
    (h : perform x log t = ((.ok a, log'), t')) :
    perform (x >>= f) log t = perform (f a) log' t' := by
  rw [perform_bind, h]

theorem perform_bind_of_error {x : StoreM (StateM FileTree) α} {f : α → StoreM (StateM FileTree) β}
    {log log' : List Log.Entry} {t t' : FileTree} {fault : StoreFault}
    (h : perform x log t = ((.error fault, log'), t')) :
    perform (x >>= f) log t = ((.error fault, log'), t') := by
  rw [perform_bind, h]

theorem perform_attempt (action : String) (operation : StateM FileTree (Except FileFault α)) :
    perform (attempt action operation) log t =
      (((operation t).1.mapError (.file action), log), (operation t).2) := by
  have hlift : perform (liftM operation) log t = ((.ok (operation t).1, log), (operation t).2) :=
    rfl
  unfold attempt
  rw [perform_bind_of_ok hlift]
  cases (operation t).1 <;> rfl

theorem perform_path {s : Store} {id : String} (h : isValidId id = true) :
    perform (liftM (s.path id)) log t = ((.ok (s.pathOf id), log), t) := by
  unfold path
  rw [if_pos h]
  rfl

theorem perform_path_of_not {s : Store} {id : String} (h : isValidId id = false) :
    perform (liftM (s.path id)) log t = ((.error (.badId id), log), t) := by
  unfold path
  rw [if_neg (by simp [h])]
  rfl

end

variable {log : List Log.Entry} {t : FileTree} {s : Store} {id : String}

/-! ## What can be done -/

/-- A file under an id can be read, if one is there. -/
def Reads (s : Store) (t : FileTree) (id : String) : Prop :=
  t.at? (s.pathOf id) = none ∨ ∃ text, t.readText (s.pathOf id) = .ok text

/-- The directory can be created, the draft of a document written there, and moved. -/
def Saves (s : Store) (t : FileTree) (id : String) (d : Document) : Prop :=
  ∃ created written moved, t.createDirectories s.directory = (.ok (), created) ∧
    created.writeBytes (s.draftPathOf id) d.text.toUTF8 = .ok written ∧
    written.moveFile (s.draftPathOf id) (s.pathOf id) = .ok moved

/-- The directory can be listed, if it is there. -/
def Lists (s : Store) (t : FileTree) : Prop :=
  t.isDirectory s.directory = true → ∃ names, t.fileNames s.directory = .ok names

/-! ## What is done -/

/-- An id that is not valid is refused. -/
theorem load_of_not_valid (h : isValidId id = false) :
    perform (s.load id) log t = ((.error (.badId id), log), t) :=
  perform_bind_of_error (perform_path_of_not log t h)

theorem save_of_not_valid (h : isValidId id = false) (d : Document) :
    perform (s.save id d) log t = ((.error (.badId id), log), t) :=
  perform_bind_of_error (perform_path_of_not log t h)

/-- Loading leaves the tree as it is. It finds nothing, meets a fault of the tree, or reads a
text. -/
theorem load_cases (log : List Log.Entry) (t : FileTree) (s : Store) (h : isValidId id = true) :
    (t.at? (s.pathOf id) = none ∧
      perform (s.load id) log t = ((.error (.missing id), log), t)) ∨
    (¬s.Reads t id ∧
      ∃ action fault, perform (s.load id) log t = ((.error (.file action fault), log), t)) ∨
    ∃ text, t.readText (s.pathOf id) = .ok text ∧
      match Document.read? text with
      | none => perform (s.load id) log t = ((.error (.notDocument (s.pathOf id)), log), t)
      | some d => ∃ log', perform (s.load id) log t = ((.ok d, log'), t) := by
  have hpresent : perform (liftM (FileAccess.isPresent (s.pathOf id) : StateM FileTree Bool))
      log t = ((.ok (t.at? (s.pathOf id)).isSome, log), t) := rfl
  unfold load
  rw [perform_bind_of_ok (perform_path log t h), perform_bind_of_ok hpresent]
  cases hat : t.at? (s.pathOf id) with
  | none => exact Or.inl ⟨rfl, rfl⟩
  | some item =>
    right
    have hread := perform_attempt log t ("read " ++ s.pathOf id)
      (FileAccess.readText (s.pathOf id) : StateM FileTree (Except FileFault String))
    change _ = (((t.readText (s.pathOf id)).mapError _, log), t) at hread
    cases htext : t.readText (s.pathOf id) with
    | error fault =>
      rw [htext] at hread
      refine Or.inl ⟨?_, _, fault, perform_bind_of_error hread⟩
      rintro (hnone | ⟨text, hok⟩)
      · cases hat.symm.trans hnone
      · cases htext.symm.trans hok
    | ok text =>
      rw [htext] at hread
      refine Or.inr ⟨text, rfl, ?_⟩
      cases hd : Document.read? text with
      | none =>
        refine (perform_bind_of_ok hread).trans ?_
        rw [hd]
        rfl
      | some d =>
        refine ⟨log ++ [.debug ("[store] loaded " ++ s.pathOf id)],
          (perform_bind_of_ok hread).trans ?_⟩
        rw [hd]
        rfl

theorem perform_update (action : String) (operation : StateM FileTree (Except FileFault Unit))
    {change : FileTree → Except FileFault FileTree} (h : operation = FileTree.update change)
    (log : List Log.Entry) (t : FileTree) :
    (∃ fault, change t = .error fault ∧
      perform (attempt action operation) log t = ((.error (.file action fault), log), t)) ∨
      ∃ t', change t = .ok t' ∧ perform (attempt action operation) log t = ((.ok (), log), t') := by
  rw [perform_attempt, h]
  unfold FileTree.update
  cases change t with
  | error fault => exact Or.inl ⟨fault, rfl, rfl⟩
  | ok t' => exact Or.inr ⟨t', rfl, rfl⟩

/-- Saving meets a fault of the tree, or creates the directory, writes the draft and moves it. -/
theorem save_cases (log : List Log.Entry) (t : FileTree) (s : Store) (h : isValidId id = true)
    (d : Document) :
    (¬s.Saves t id d ∧ ∃ action fault log' t',
      perform (s.save id d) log t = ((.error (.file action fault), log'), t')) ∨
    ∃ created written moved log', t.createDirectories s.directory = (.ok (), created) ∧
      created.writeBytes (s.draftPathOf id) d.text.toUTF8 = .ok written ∧
      written.moveFile (s.draftPathOf id) (s.pathOf id) = .ok moved ∧
      perform (s.save id d) log t = ((.ok (), log'), moved) := by
  unfold save
  rw [perform_bind_of_ok (perform_path log t h)]
  have hcreate := perform_attempt log t ("create " ++ s.directory)
    (FileAccess.createDirectories s.directory : StateM FileTree (Except FileFault Unit))
  change _ = (((t.createDirectories s.directory).1.mapError _, log),
    (t.createDirectories s.directory).2) at hcreate
  rcases hcreated : t.createDirectories s.directory with ⟨fault | ⟨⟩, created⟩
  · rw [hcreated] at hcreate
    refine Or.inl ⟨?_, _, _, _, _, perform_bind_of_error hcreate⟩
    rintro ⟨_, _, _, hok, -⟩
    cases hcreated.symm.trans hok
  rw [hcreated] at hcreate
  dsimp only
  rw [perform_bind_of_ok hcreate]
  obtain ⟨fault, hfault, hwrite⟩ | ⟨written, hwritten, hwrite⟩ := perform_update
    ("write " ++ s.draftPathOf id) (FileAccess.writeText (s.draftPathOf id) d.text) rfl log created
  · refine Or.inl ⟨?_, _, _, _, _, perform_bind_of_error hwrite⟩
    rintro ⟨_, _, _, hcreated', hok, -⟩
    cases hcreated.symm.trans hcreated'
    cases hfault.symm.trans hok
  rw [perform_bind_of_ok hwrite]
  obtain ⟨fault, hfault, hmove⟩ | ⟨moved, hmoved, hmove⟩ := perform_update
    ("rename " ++ s.draftPathOf id ++ " -> " ++ s.pathOf id)
    (FileAccess.moveFile (s.draftPathOf id) (s.pathOf id)) rfl log written
  · refine Or.inl ⟨?_, _, _, _, _, perform_bind_of_error hmove⟩
    rintro ⟨_, _, _, hcreated', hwritten', hok⟩
    cases hcreated.symm.trans hcreated'
    cases hwritten.symm.trans hwritten'
    cases hfault.symm.trans hok
  rw [perform_bind_of_ok hmove]
  exact Or.inr ⟨created, written, moved, _, rfl, hwritten, hmoved, rfl⟩

/-- A document that is not loaded is not brought up to date either. -/
theorem loadNormalized_of_error {now : String} {fault : StoreFault} {log' : List Log.Entry}
    {t' : FileTree} (h : perform (s.load id) log t = ((.error fault, log'), t')) :
    perform (s.loadNormalized now id) log t = ((.error fault, log'), t') :=
  perform_bind_of_error h

/-- A document that needs no normalization is given as it was loaded. -/
theorem loadNormalized_of_upToDate {now : String} {d : Document} {log' : List Log.Entry}
    {t' : FileTree} (h : perform (s.load id) log t = ((.ok d, log'), t'))
    (hneeds : Migration.needsNormalization d = false) :
    perform (s.loadNormalized now id) log t = ((.ok (d, none), log'), t') := by
  refine (perform_bind_of_ok h).trans ?_
  dsimp only
  rw [hneeds]
  rfl

/-- A document that needs normalization is normalized and saved. -/
theorem loadNormalized_of_needs (now : String) {d : Document} {log' : List Log.Entry}
    {t' : FileTree} (h : perform (s.load id) log t = ((.ok d, log'), t'))
    (hneeds : Migration.needsNormalization d = true) :
    ∃ log'', perform (s.loadNormalized now id) log t =
      perform (s.save id (Migration.normalize now d).document >>= fun _ =>
        pure ((Migration.normalize now d).document, some (Migration.normalize now d).report))
        log'' t' := by
  have hnote : ∀ entries, perform (note entries) log' t' = ((.ok (), log' ++ entries), t') :=
    fun _ => rfl
  refine ⟨log' ++ (Migration.normalize now d).events.map Migration.Event.entry,
    (perform_bind_of_ok h).trans ?_⟩
  rw [hneeds]
  exact perform_bind_of_ok (hnote _)

/-- Listing leaves the tree as it is. It finds no directory, meets a fault of the tree, or reads the
names. -/
theorem ids_cases (log : List Log.Entry) (t : FileTree) (s : Store) :
    (t.isDirectory s.directory = false ∧ perform s.ids log t = ((.ok [], log), t)) ∨
    (¬s.Lists t ∧ ∃ action fault, perform s.ids log t = ((.error (.file action fault), log), t)) ∨
    ∃ names, t.isDirectory s.directory = true ∧ t.fileNames s.directory = .ok names ∧
      perform s.ids log t = ((.ok ((names.filter (Path.hasExtension extension)).filterMap
        Path.stem?).mergeSort, log), t) := by
  have hpresent : perform (liftM (DirectoryAccess.isDirectory s.directory : StateM FileTree Bool))
      log t = ((.ok (t.isDirectory s.directory), log), t) := rfl
  unfold ids
  rw [perform_bind_of_ok hpresent]
  cases hdirectory : t.isDirectory s.directory with
  | false => exact Or.inl ⟨rfl, rfl⟩
  | true =>
    right
    have hread := perform_attempt log t ("read_dir " ++ s.directory)
      (DirectoryAccess.fileNames s.directory : StateM FileTree (Except FileFault (List String)))
    change _ = (((t.fileNames s.directory).mapError _, log), t) at hread
    cases hnames : t.fileNames s.directory with
    | error fault =>
      rw [hnames] at hread
      refine Or.inl ⟨fun hlists => ?_, _, fault, perform_bind_of_error hread⟩
      obtain ⟨names, hok⟩ := hlists hdirectory
      cases hnames.symm.trans hok
    | ok names =>
      rw [hnames] at hread
      exact Or.inr ⟨names, rfl, rfl, (perform_bind_of_ok hread).trans rfl⟩

end Keybinds.Store
