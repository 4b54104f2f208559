import Keybinds.Proofs.Migration.Depth
import Keybinds.Proofs.Store.Catalog
import Keybinds.Proofs.Store.Operations
import Mathlib.Data.List.Permutation

/-!
# Runs of a store

A store behaves as a dictionary of documents: whatever is asked of it, one call after the other, it
answers from the documents last saved under each id (`meets_of_run`), as long as the operations on
files that it comes to can be done, which is when no call fails on a file (`fails_eq_false_iff`).
Each exchange of a call and an answer keeps the files of the store those of the catalog
(`Holds.exchange`), so the whole run does.
-/

namespace Keybinds.Store

open Stored (Document)
open Migration (Report needsNormalization normalize)

/-! ## Exchanges -/

/-- What is asked of a store. -/
inductive Call where
  | save (id : String) (d : Document)
  | load (id : String)
  | loadNormalized (now id : String)
  | list

/-- What a store gives when it does what it is asked. -/
inductive Reply where
  | saved
  | loaded (d : Document)
  | normalized (result : Document × Option Report)
  | listed (ids : List String)

/-- A call, its answer, and the trees before and after it. -/
structure Exchange where
  before : FileTree
  call : Call
  answer : Except StoreFault Reply
  after : FileTree

def Call.operation (s : Store) : Call → StoreM (StateM FileTree) Reply
  | .save id d => s.save id d >>= fun _ => pure .saved
  | .load id => s.load id >>= fun d => pure (.loaded d)
  | .loadNormalized now id => s.loadNormalized now id >>= fun result => pure (.normalized result)
  | .list => s.ids >>= fun ids => pure (.listed ids)

/-- The operations on files that a call comes to can all be done. -/
def Call.Succeeds (s : Store) (t : FileTree) : Call → Prop
  | .save id d => isValidId id = true → s.Saves t id d
  | .load id => isValidId id = true → s.Reads t id
  | .loadNormalized now id => isValidId id = true → s.Reads t id ∧
    ∀ text d, t.readText (s.pathOf id) = .ok text → Document.read? text = some d →
      needsNormalization d = true → s.Saves t id (normalize now d).document
  | .list => s.Lists t

/-- One call on a tree, and what comes of it. -/
def exchange (s : Store) (t : FileTree) (call : Call) : Exchange where
  before := t
  call := call
  answer := (perform (call.operation s) [] t).1.1
  after := (perform (call.operation s) [] t).2

/-- The exchanges of some calls, one after the other. -/
def run (s : Store) : FileTree → List Call → List Exchange
  | _, [] => []
  | t, call :: calls => s.exchange t call :: s.run (s.exchange t call).after calls

namespace Exchange

/-- Whether an operation on a file failed. -/
def fails (x : Exchange) : Bool :=
  match x.answer with
  | .error (.file _ _) => true
  | _ => false

/-- The document that is put into the store, with its id. -/
def written? (x : Exchange) : Option (String × Document) :=
  match x.call, x.answer with
  | .save id d, .ok _ => some (id, d)
  | .loadNormalized _ id, .ok (.normalized (d, some _)) => some (id, d)
  | _, _ => none

theorem eq_of_written? {x : Exchange} {id : String} {d : Document}
    (h : x.written? = some (id, d)) : x.call = .save id d ∨ ∃ now report,
      x.call = .loadNormalized now id ∧ x.answer = .ok (.normalized (d, some report)) := by
  obtain ⟨before, call, answer, after⟩ := x
  unfold written? at h
  dsimp only at h ⊢
  split at h
  · cases h
    exact Or.inl rfl
  · cases h
    exact Or.inr ⟨_, _, rfl, rfl⟩
  · cases h

/-- The catalog behind an exchange. -/
def record (catalog : Dict Document) (x : Exchange) : Dict Document :=
  match x.written? with
  | some (id, d) => catalog.insert id d
  | none => catalog

theorem record_save {catalog : Dict Document} {x : Exchange} {id : String} {d : Document}
    {reply : Reply} (hcall : x.call = .save id d) (hanswer : x.answer = .ok reply) :
    x.record catalog = catalog.insert id d := by
  obtain ⟨before, call, answer, after⟩ := x
  cases hcall
  cases hanswer
  rfl

end Exchange

/-- The document that was last put under each id. -/
def saved (xs : List Exchange) : Dict Document :=
  xs.foldl Exchange.record ∅

/-- A document to save was read from a text, the operations on files can be done, and a text that is
written is read as its value is. -/
structure Exchange.IsRegular (s : Store) (x : Exchange) : Prop where
  readable : ∀ id d, x.call = .save id d → ∃ text, Document.read? text = some d
  succeeds : x.call.Succeeds s x.before
  faithful : ∀ id d, x.written? = some (id, d) → IsFaithful d

/-! ## Answers from a catalog -/

variable {α β : Type}

/-- What a catalog gives for an id: the document that the value of the one under it stands for,
which differs from it only in the order of members, or the reason why there is none. -/
inductive Finds (catalog : Dict Document) (id : String) (give : Document → α) :
    Except StoreFault α → Prop where
  | badId (hid : isValidId id = false) : Finds catalog id give (.error (.badId id))
  | missing (hid : isValidId id = true) (hnone : catalog.get? id = none) :
      Finds catalog id give (.error (.missing id))
  | found {d d' : Document} (hid : isValidId id = true) (hd : catalog.get? id = some d)
      (hread : Document.ofValue? d.toValue = some d') (hsame : d'.same d = true) :
      Finds catalog id give (.ok (give d'))

/-- A loaded document up to date, with the report of its normalization if it needs one. -/
def upToDate (now : String) (d : Document) : Document × Option Report :=
  if needsNormalization d then ((normalize now d).document, some (normalize now d).report)
  else (d, none)

/-- The answers that a catalog gives. -/
def Answers (catalog : Dict Document) (answer : Except StoreFault Reply) : Call → Prop
  | .save id _ => answer = if isValidId id then .ok .saved else .error (.badId id)
  | .load id => Finds catalog id .loaded answer
  | .loadNormalized now id => Finds catalog id (fun d => .normalized (upToDate now d)) answer
  | .list => ∃ ids, answer = .ok (.listed ids) ∧ ids.Pairwise (· < ·) ∧
      ∀ id, id ∈ ids ↔ ∃ d, catalog.get? id = some d

/-- An exchange answers from the catalog; it changes the tree only where a document is put into it,
whose text is then in the file of its id. -/
structure Exchange.Meets (s : Store) (catalog : Dict Document) (x : Exchange) : Prop where
  answers : Answers catalog x.answer x.call
  unchanged : x.written? = none → x.after = x.before
  changed : ∀ id d, x.written? = some (id, d) → x.after.readText (s.pathOf id) = .ok d.text

variable {s : Store} {t : FileTree} {catalog : Dict Document} {id : String}

theorem Finds.map {give : Document → α} {r : Except StoreFault α} (f : α → β)
    (h : Finds catalog id give r) : Finds catalog id (fun d => f (give d)) (r.map f) := by
  cases h with
  | badId hid => exact .badId hid
  | missing hid hnone => exact .missing hid hnone
  | found hid hd hread hsame => exact .found hid hd hread hsame

/-! ## When an exchange fails -/

theorem exchange_eq (call : Call) {x : StoreM (StateM FileTree) α} {reply : α → Reply}
    (hcall : call.operation s = x >>= fun a => pure (reply a)) {r : Except StoreFault α}
    {log : List Log.Entry} {t' : FileTree} (h : perform x [] t = ((r, log), t')) :
    s.exchange t call = ⟨t, call, r.map reply, t'⟩ := by
  have hperform : perform (call.operation s) [] t = ((r.map reply, log), t') := by
    rw [hcall, perform_bind, h]
    cases r <;> rfl
  unfold exchange
  rw [hperform]

theorem fails_of_file (call : Call) {x : StoreM (StateM FileTree) α} {reply : α → Reply}
    (hcall : call.operation s = x >>= fun a => pure (reply a)) {action : String} {fault : FileFault}
    {log : List Log.Entry} {t' : FileTree}
    (h : perform x [] t = ((.error (.file action fault), log), t')) :
    (s.exchange t call).fails ≠ false := by
  rw [exchange_eq call hcall h]
  exact Bool.noConfusion

theorem of_isValidId_of_not {p : Prop} (h : isValidId id = false) (h' : isValidId id = true) : p :=
  absurd (h.symm.trans h') Bool.noConfusion

theorem fails_save_eq_false_iff (s : Store) (t : FileTree) (id : String) (d : Document) :
    (s.exchange t (.save id d)).fails = false ↔ (Call.save id d).Succeeds s t := by
  cases hid : isValidId id with
  | false =>
    rw [exchange_eq (.save id d) rfl (save_of_not_valid hid d)]
    exact iff_of_true rfl (of_isValidId_of_not hid)
  | true =>
    obtain ⟨hsaves, _, _, _, _, hsave⟩ |
      ⟨created, written, moved, _, hcreate, hwrite, hmove, hsave⟩ := save_cases [] t s hid d
    · exact iff_of_false (fails_of_file (.save id d) rfl hsave) fun h => hsaves (h hid)
    · rw [exchange_eq (.save id d) rfl hsave]
      exact iff_of_true rfl fun _ => ⟨created, written, moved, hcreate, hwrite, hmove⟩

theorem fails_load_eq_false_iff (s : Store) (t : FileTree) (id : String) :
    (s.exchange t (.load id)).fails = false ↔ (Call.load id).Succeeds s t := by
  cases hid : isValidId id with
  | false =>
    rw [exchange_eq (.load id) rfl (load_of_not_valid hid)]
    exact iff_of_true rfl (of_isValidId_of_not hid)
  | true =>
    obtain ⟨hnone, hload⟩ | ⟨hreads, _, _, hload⟩ | ⟨text, hread, hload⟩ := load_cases [] t s hid
    · rw [exchange_eq (.load id) rfl hload]
      exact iff_of_true rfl fun _ => Or.inl hnone
    · exact iff_of_false (fails_of_file (.load id) rfl hload) fun h => hreads (h hid)
    · cases hd : Document.read? text with
      | none =>
        rw [hd] at hload
        rw [exchange_eq (.load id) rfl hload]
        exact iff_of_true rfl fun _ => Or.inr ⟨text, hread⟩
      | some d =>
        rw [hd] at hload
        obtain ⟨_, hload⟩ := hload
        rw [exchange_eq (.load id) rfl hload]
        exact iff_of_true rfl fun _ => Or.inr ⟨text, hread⟩

/-- Behind a document that is loaded, only the save of its normalization can fail. -/
theorem fails_loadNormalized_of_loaded {d : Document} {log : List Log.Entry} (now : String)
    (hid : isValidId id = true) (hload : perform (s.load id) [] t = ((.ok d, log), t)) :
    (s.exchange t (.loadNormalized now id)).fails = false ↔
      (needsNormalization d = true → s.Saves t id (normalize now d).document) := by
  cases hneeds : needsNormalization d with
  | false =>
    rw [exchange_eq (.loadNormalized now id) rfl (loadNormalized_of_upToDate hload hneeds)]
    exact iff_of_true rfl fun h => Bool.noConfusion h
  | true =>
    obtain ⟨log, hperform⟩ := loadNormalized_of_needs now hload hneeds
    obtain ⟨hsaves, _, _, _, _, hsave⟩ |
      ⟨created, written, moved, log', hcreate, hwrite, hmove, hsave⟩ :=
      save_cases log t s hid (normalize now d).document
    · exact iff_of_false (fails_of_file (.loadNormalized now id) rfl
        (hperform.trans (perform_bind_of_error hsave))) fun h => hsaves (h rfl)
    · have hloaded : perform (s.loadNormalized now id) [] t =
          ((.ok (_, some _), log'), moved) := hperform.trans (perform_bind_of_ok hsave)
      rw [exchange_eq (.loadNormalized now id) rfl hloaded]
      exact iff_of_true rfl fun _ => ⟨created, written, moved, hcreate, hwrite, hmove⟩

theorem fails_loadNormalized_eq_false_iff (s : Store) (t : FileTree) (now id : String) :
    (s.exchange t (.loadNormalized now id)).fails = false ↔
      (Call.loadNormalized now id).Succeeds s t := by
  cases hid : isValidId id with
  | false =>
    rw [exchange_eq (.loadNormalized now id) rfl (loadNormalized_of_error (load_of_not_valid hid))]
    exact iff_of_true rfl (of_isValidId_of_not hid)
  | true =>
    obtain ⟨hnone, hload⟩ | ⟨hreads, _, _, hload⟩ | ⟨text, hread, hload⟩ := load_cases [] t s hid
    · rw [exchange_eq (.loadNormalized now id) rfl (loadNormalized_of_error hload)]
      refine iff_of_true rfl fun _ => ⟨Or.inl hnone, fun _ _ hread => ?_⟩
      exact absurd hnone (FileTree.at?_ne_none_of_readText hread)
    · have hloaded : perform (s.loadNormalized now id) [] t = _ := loadNormalized_of_error hload
      exact iff_of_false (fails_of_file (.loadNormalized now id) rfl hloaded)
        fun h => hreads (h hid).1
    -- the tree has one text under the id, so what is said of every text is said of this one
    have hunique : ∀ {text' d}, t.readText (s.pathOf id) = .ok text' →
        Document.read? text' = some d → Document.read? text = some d := by
      intro text' d hread' hd
      rwa [Except.ok.inj (hread.symm.trans hread')]
    cases hd : Document.read? text with
    | none =>
      rw [hd] at hload
      rw [exchange_eq (.loadNormalized now id) rfl (loadNormalized_of_error hload)]
      refine iff_of_true rfl fun _ => ⟨Or.inr ⟨text, hread⟩, fun _ _ hread' hd' => ?_⟩
      cases hd.symm.trans (hunique hread' hd')
    | some d =>
      rw [hd] at hload
      obtain ⟨_, hload⟩ := hload
      rw [fails_loadNormalized_of_loaded now hid hload]
      refine ⟨fun h _ => ⟨Or.inr ⟨text, hread⟩, fun text' d' hread' hd' => ?_⟩,
        fun h => (h hid).2 text d hread hd⟩
      obtain rfl : d = d' := Option.some.inj (hd.symm.trans (hunique hread' hd'))
      exact h

/-- A call fails on a file exactly when an operation that it comes to cannot be done. -/
theorem fails_eq_false_iff (s : Store) (t : FileTree) (call : Call) :
    (s.exchange t call).fails = false ↔ call.Succeeds s t := by
  cases call with
  | save id d => exact fails_save_eq_false_iff s t id d
  | load id => exact fails_load_eq_false_iff s t id
  | loadNormalized now id => exact fails_loadNormalized_eq_false_iff s t now id
  | list =>
    obtain ⟨hdirectory, hids⟩ | ⟨hlists, _, _, hids⟩ | ⟨names, -, hnames, hids⟩ := ids_cases [] t s
    · rw [exchange_eq .list rfl hids]
      exact iff_of_true rfl fun h => absurd (hdirectory.symm.trans h) Bool.noConfusion
    · exact iff_of_false (fails_of_file .list rfl hids) hlists
    · rw [exchange_eq .list rfl hids]
      exact iff_of_true rfl fun _ => ⟨names, hnames⟩

/-! ## What an exchange keeps -/

/-- A stored document is read as one that is the same. -/
theorem IsStorable.exists_read {d : Document} (h : IsStorable id d) :
    ∃ d', Document.ofValue? d.toValue = some d' ∧ Document.read? d.text = some d' ∧
      d'.same d = true := by
  have hread := h.fits.ofNode?_toValue
  exact ⟨_, hread, h.faithful.trans hread, h.fits.same_reread⟩

namespace Holds

theorem load (h : Holds s t catalog) (hreads : isValidId id = true → s.Reads t id)
    (log : List Log.Entry) :
    ∃ r log', perform (s.load id) log t = ((r, log'), t) ∧ Finds catalog id (fun d => d) r ∧
      ∀ d, r = .ok d → ∃ text, t.readText (s.pathOf id) = .ok text ∧
        Document.read? text = some d := by
  cases hid : isValidId id with
  | false => exact ⟨_, _, load_of_not_valid hid, .badId hid, fun _ heq => by cases heq⟩
  | true =>
    obtain ⟨hnone, hload⟩ | ⟨hnot, -⟩ | ⟨text, hread, hload⟩ := load_cases log t s hid
    · have hmissing : catalog.get? id = none := Option.eq_none_iff_forall_ne_some.2
        fun d hd => FileTree.at?_ne_none_of_readText (h.readText hd) hnone
      exact ⟨_, _, hload, .missing hid hmissing, fun _ heq => by cases heq⟩
    · exact absurd (hreads hid) hnot
    · obtain ⟨d, hd⟩ := h.exists_of_readText hid hread
      obtain rfl : text = d.text := Except.ok.inj (hread.symm.trans (h.readText hd))
      obtain ⟨d', hread', htext, hsame⟩ := (h.storable id d hd).exists_read
      rw [htext] at hload
      obtain ⟨log', hload⟩ := hload
      refine ⟨_, log', hload, .found hid hd hread' hsame, fun d'' heq => ⟨d.text, hread, ?_⟩⟩
      rw [htext, Except.ok.inj heq]

theorem save (h : Holds s t catalog) {d : Document} (hfits : d.Fits Json.deepest)
    (hsaves : isValidId id = true → s.Saves t id d) (log : List Log.Entry) :
    (isValidId id = false ∧ perform (s.save id d) log t = ((.error (.badId id), log), t)) ∨
    (isValidId id = true ∧ ∃ log' t', perform (s.save id d) log t = ((.ok (), log'), t') ∧
      (IsFaithful d → Holds s t' (catalog.insert id d))) := by
  cases hid : isValidId id with
  | false => exact Or.inl ⟨rfl, save_of_not_valid hid d⟩
  | true =>
    obtain ⟨hnot, -⟩ | ⟨created, written, moved, log', hcreate, hwrite, hmove, hsave⟩ :=
      save_cases log t s hid d
    · exact absurd (hsaves hid) hnot
    · exact Or.inr ⟨rfl, log', moved, hsave,
        fun hfaithful => h.insert hid hfits hfaithful hcreate hwrite hmove⟩

theorem loadNormalized (h : Holds s t catalog) {now : String}
    (hsucceeds : (Call.loadNormalized now id).Succeeds s t) (log : List Log.Entry) :
    (∃ r log', perform (s.loadNormalized now id) log t = ((r, log'), t) ∧
      Finds catalog id (upToDate now) r ∧ ∀ d report, r ≠ .ok (d, some report)) ∨
    ∃ d d' log' t', isValidId id = true ∧ catalog.get? id = some d ∧
      Document.ofValue? d.toValue = some d' ∧ d'.same d = true ∧ needsNormalization d' = true ∧
      perform (s.loadNormalized now id) log t = ((.ok (upToDate now d'), log'), t') ∧
      (IsFaithful (normalize now d').document →
        Holds s t' (catalog.insert id (normalize now d').document)) := by
  obtain ⟨r, log', hload, hfinds, htexts⟩ := h.load (fun hid => (hsucceeds hid).1) log
  cases hfinds with
  | badId hid =>
    exact Or.inl ⟨_, _, loadNormalized_of_error hload, .badId hid, fun _ _ heq => by cases heq⟩
  | missing hid hnone =>
    exact Or.inl ⟨_, _, loadNormalized_of_error hload, .missing hid hnone,
      fun _ _ heq => by cases heq⟩
  | @found d d' hid hd hread hsame =>
    cases hneeds : needsNormalization d' with
    | false =>
      have hfound : Finds catalog id (upToDate now) _ := .found hid hd hread hsame
      rw [upToDate, if_neg (by simp [hneeds])] at hfound
      exact Or.inl ⟨_, _, loadNormalized_of_upToDate hload hneeds, hfound,
        fun _ _ heq => by cases heq⟩
    | true =>
      obtain ⟨text, htext, hparsed⟩ := htexts d' rfl
      have hfits := Migration.fits_normalize now (by decide) (Document.fits_of_read? hparsed)
      have hsaves := fun hid => (hsucceeds hid).2 text d' htext hparsed hneeds
      obtain ⟨log'', hperform⟩ := loadNormalized_of_needs now hload hneeds
      have hresult : upToDate now d' = _ := if_pos hneeds
      rw [hperform]
      obtain ⟨hid', -⟩ | ⟨-, log₁, t', hsave, hholds⟩ := h.save hfits hsaves log''
      · rw [hid] at hid'
        cases hid'
      · exact Or.inr ⟨d, d', log₁, t', hid, hd, hread, hsame, hneeds,
          (perform_bind_of_ok hsave).trans (by rw [hresult]; rfl), hholds⟩

theorem ids (h : Holds s t catalog) (hlists : s.Lists t) (log : List Log.Entry) :
    ∃ names, perform s.ids log t = ((.ok names, log), t) ∧ names.Pairwise (· < ·) ∧
      ∀ id, id ∈ names ↔ ∃ d, catalog.get? id = some d := by
  obtain ⟨hdirectory, hids⟩ | ⟨hnot, -⟩ | ⟨names, hdirectory, hnames, hids⟩ := ids_cases log t s
  · refine ⟨[], hids, .nil, fun id => iff_of_false List.not_mem_nil ?_⟩
    rintro ⟨d, hd⟩
    rw [h.directory id d hd] at hdirectory
    cases hdirectory
  · exact absurd hlists hnot
  · rw [h.stems_fileNames hdirectory hnames] at hids
    refine ⟨_, hids, pairwise_mergeSort_lt catalog.nodup_keys, fun id => ?_⟩
    rw [List.mem_mergeSort, Dict.mem_keys_iff]
    simp only [Dict.get?_eq_some_iff]

theorem unwritten {x : Exchange} (h : Holds s x.before catalog) (hwritten : x.written? = none)
    (hafter : x.after = x.before) (hanswers : Answers catalog x.answer x.call) :
    x.Meets s catalog ∧ Holds s x.after (x.record catalog) := by
  refine ⟨⟨hanswers, fun _ => hafter, fun id d heq => ?_⟩, ?_⟩
  · rw [hwritten] at heq
    cases heq
  · unfold Exchange.record
    rw [hwritten, hafter]
    exact h

theorem written {x : Exchange} {d : Document} (h : Holds s x.after (catalog.insert id d))
    (hwritten : x.written? = some (id, d)) (hanswers : Answers catalog x.answer x.call) :
    x.Meets s catalog ∧ Holds s x.after (x.record catalog) := by
  refine ⟨⟨hanswers, fun heq => ?_, fun id' d' heq => ?_⟩, ?_⟩
  · rw [hwritten] at heq
    cases heq
  · rw [hwritten] at heq
    cases heq
    exact h.readText (by rw [Dict.get?_insert, if_pos rfl])
  · unfold Exchange.record
    rw [hwritten]
    exact h

/-- A regular exchange is answered from the catalog, and leaves the files of the catalog behind
it. -/
theorem exchange (h : Holds s t catalog) {call : Call}
    (hregular : (s.exchange t call).IsRegular s) :
    (s.exchange t call).Meets s catalog ∧
      Holds s (s.exchange t call).after ((s.exchange t call).record catalog) := by
  have hsucceeds : call.Succeeds s t := hregular.succeeds
  cases call with
  | save id d =>
    obtain ⟨text, htext⟩ := hregular.readable id d rfl
    obtain ⟨hid, hsave⟩ | ⟨hid, log, t', hsave, hholds⟩ := h.save (Document.fits_of_read? htext) hsucceeds []
    · rw [exchange_eq (.save id d) rfl hsave]
      exact unwritten h rfl rfl (by simp [Answers, hid, Except.map])
    · rw [exchange_eq (.save id d) rfl hsave] at hregular ⊢
      exact written (hholds (hregular.faithful id d rfl)) rfl (by simp [Answers, hid, Except.map])
  | load id =>
    obtain ⟨r, log, hload, hfinds, -⟩ := h.load hsucceeds []
    rw [exchange_eq (.load id) rfl hload]
    exact unwritten h rfl rfl (hfinds.map Reply.loaded)
  | loadNormalized now id =>
    obtain ⟨r, log, hload, hfinds, hnone⟩ |
      ⟨d, d', log, t', hid, hd, hread, hsame, hneeds, hload, hholds⟩ :=
      h.loadNormalized hsucceeds []
    · rw [exchange_eq (.loadNormalized now id) rfl hload]
      refine unwritten h ?_ rfl (hfinds.map Reply.normalized)
      rcases r with fault | ⟨d, _ | report⟩
      · rfl
      · rfl
      · exact absurd rfl (hnone d report)
    · rw [exchange_eq (.loadNormalized now id) rfl hload] at hregular ⊢
      have hfinds : Finds catalog id (upToDate now) _ := .found hid hd hread hsame
      rw [upToDate, if_pos hneeds] at hregular hfinds ⊢
      exact written (hholds (hregular.faithful id _ rfl)) rfl (hfinds.map Reply.normalized)
  | list =>
    obtain ⟨names, hids, hsorted, hmem⟩ := h.ids hsucceeds []
    rw [exchange_eq .list rfl hids]
    exact unwritten h rfl rfl ⟨names, rfl, hsorted, hmem⟩

/-- The exchanges behind others are answered from the catalog that those left. -/
theorem run {calls : List Call} (h : Holds s t catalog)
    (hregular : ∀ x ∈ s.run t calls, x.IsRegular s) {xs ys : List Exchange} {x : Exchange}
    (heq : s.run t calls = xs ++ x :: ys) : x.Meets s (xs.foldl Exchange.record catalog) := by
  induction calls generalizing t catalog xs with
  | nil =>
    rw [Store.run] at heq
    exact absurd heq (by simp)
  | cons call calls ih =>
    rw [Store.run] at heq hregular
    obtain ⟨hmeets, hholds⟩ := h.exchange (hregular _ List.mem_cons_self)
    cases xs with
    | nil =>
      rw [List.nil_append, List.cons.injEq] at heq
      exact heq.1 ▸ hmeets
    | cons first xs =>
      rw [List.cons_append, List.cons.injEq] at heq
      rw [List.foldl_cons, ← heq.1]
      exact ih hholds (fun x hx => hregular x (List.mem_cons_of_mem _ hx)) heq.2

end Holds

/-- A store without files behaves as a dictionary: at any point of a run, it answers from the
documents that were last put under each id. -/
theorem meets_of_run (hroot : t.IsRooted) (hempty : t.HoldsNoFile s.directory) {calls : List Call}
    (hregular : ∀ x ∈ s.run t calls, x.IsRegular s) {xs ys : List Exchange} {x : Exchange}
    (heq : s.run t calls = xs ++ x :: ys) : x.Meets s (saved xs) :=
  (holds_empty hroot hempty).run hregular heq

/-- A document of no version. -/
def plainDocument : Document := { name := some "Main" }

def plainText : String :=
  "\x7b\n  \"name\": \"Main\",\n  \"builds\": \x7b\x7d,\n  \"aliases\": \x7b\x7d\n\x7d"

def currentText : String :=
  "\x7b\n  \"name\": \"Main\",\n  \"builds\": \x7b\x7d,\n  \"aliases\": \x7b\x7d,\n" ++
    "  \"migrationVersion\": \"2.1.1\"\n\x7d"

/-- Ids that differ in what looks like an extension, an id without a document, and a hidden one. -/
def pointedCalls : List Call :=
  [.save "a" plainDocument, .loadNormalized "2001-02-03" "a", .save "a.json" plainDocument,
    .load "a.json.tmp", .save ".a" plainDocument, .list]

theorem isFaithful_of_text {d : Document} (text : String) (htext : d.text = text)
    (hread : Document.read? text = some d) (hvalue : Document.ofValue? d.toValue = some d) :
    IsFaithful d := by
  unfold IsFaithful
  rw [htext, hread, hvalue]

theorem isRegular_save {d : Document} {text : String} (hread : Document.read? text = some d)
    (hfaithful : IsFaithful d) (h : (s.exchange t (.save id d)).fails = false) :
    (s.exchange t (.save id d)).IsRegular s where
  readable id' d' heq := by
    cases heq
    exact ⟨text, hread⟩
  succeeds := (fails_eq_false_iff s t _).1 h
  faithful id' d' heq := by
    rcases Exchange.eq_of_written? heq with hcall | ⟨_, _, hcall, -⟩ <;> cases hcall
    exact hfaithful

theorem isRegular_of_reading {call : Call} (hcall : (∃ id, call = .load id) ∨ call = .list)
    (h : (s.exchange t call).fails = false) : (s.exchange t call).IsRegular s where
  readable id' d' heq := by rcases hcall with ⟨id, rfl⟩ | rfl <;> cases heq
  succeeds := (fails_eq_false_iff s t _).1 h
  faithful id' d' heq := by
    rcases Exchange.eq_of_written? heq with hcall' | ⟨_, _, hcall', -⟩ <;>
      rcases hcall with ⟨id, rfl⟩ | rfl <;> cases hcall'

theorem isRegular_loadNormalized {now : String} (hholds : Holds s t catalog)
    (hfaithful : ∀ d d', catalog.get? id = some d → Document.ofValue? d.toValue = some d' →
      IsFaithful (normalize now d').document)
    (h : (s.exchange t (.loadNormalized now id)).fails = false) :
    (s.exchange t (.loadNormalized now id)).IsRegular s where
  readable id' d' heq := by cases heq
  succeeds := (fails_eq_false_iff s t _).1 h
  faithful id' d heq := by
    obtain hcall | ⟨_, report, hcall, hanswer⟩ := Exchange.eq_of_written? heq
    · cases hcall
    obtain ⟨r, _, hload, -, hnone⟩ | ⟨d₀, d', _, _, -, hd, hread, -, hneeds, hload, -⟩ :=
      hholds.loadNormalized ((fails_eq_false_iff s t _).1 h) []
    · rw [exchange_eq (.loadNormalized now id) rfl hload] at hanswer
      cases r with
      | error fault => cases hanswer
      | ok result =>
        obtain rfl := Reply.normalized.inj (Except.ok.inj hanswer)
        exact absurd rfl (hnone d report)
    · rw [exchange_eq (.loadNormalized now id) rfl hload, upToDate, if_pos hneeds] at hanswer
      obtain ⟨rfl, -⟩ := Prod.mk.inj (Reply.normalized.inj (Except.ok.inj hanswer))
      exact hfaithful d₀ d' hd hread

theorem meets_of_run_pointedCalls :
    (∀ x ∈ run ⟨"profiles"⟩ {} pointedCalls, x.IsRegular ⟨"profiles"⟩) ∧
      ∀ {xs ys x}, run ⟨"profiles"⟩ {} pointedCalls = xs ++ x :: ys →
        x.Meets ⟨"profiles"⟩ (saved xs) := by
  have hroot : FileTree.IsRooted {} := Or.inl rfl
  have hempty : FileTree.HoldsNoFile {} "profiles" := fun _ _ _ _ _ => Option.some_ne_none _ ∘ .symm
  have hvalue : Document.ofValue? plainDocument.toValue = some plainDocument := by cbv
  have hread : Document.read? plainText = some plainDocument := by cbv
  have hplain : IsFaithful plainDocument :=
    isFaithful_of_text plainText (by decide +kernel) hread hvalue
  have hcurrent : IsFaithful (normalize "2001-02-03" plainDocument).document := by
    have heq : (normalize "2001-02-03" plainDocument).document =
        { plainDocument with version := some "2.1.1" } := by cbv
    rw [heq]
    exact isFaithful_of_text currentText (by decide +kernel) (by cbv) (by cbv)
  have hfails : ∀ x ∈ run ⟨"profiles"⟩ {} pointedCalls, x.fails = false := by decide +kernel
  have hregular : ∀ x ∈ run ⟨"profiles"⟩ {} pointedCalls, x.IsRegular ⟨"profiles"⟩ := by
    unfold pointedCalls at hfails ⊢
    simp only [run, List.forall_mem_cons] at hfails ⊢
    obtain ⟨h₁, h₂, h₃, h₄, h₅, h₆, -⟩ := hfails
    have hfirst := isRegular_save hread hplain h₁
    obtain ⟨hmeets, hholds⟩ := (holds_empty hroot hempty).exchange hfirst
    rw [Exchange.record_save rfl (hmeets.answers.trans (if_pos (by decide +kernel)))] at hholds
    refine ⟨hfirst, isRegular_loadNormalized hholds (fun d d' hd hd' => ?_) h₂,
      isRegular_save hread hplain h₃, isRegular_of_reading (Or.inl ⟨_, rfl⟩) h₄,
      isRegular_save hread hplain h₅, isRegular_of_reading (Or.inr rfl) h₆,
      fun _ hx => absurd hx List.not_mem_nil⟩
    obtain rfl : plainDocument = d := Option.some.inj hd
    obtain rfl : plainDocument = d' := Option.some.inj (hvalue.symm.trans hd')
    exact hcurrent
  exact ⟨hregular, meets_of_run hroot hempty hregular⟩

end Keybinds.Store
