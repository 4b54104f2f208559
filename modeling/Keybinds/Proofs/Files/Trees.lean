import Keybinds.Proofs.Dict
import Keybinds.Proofs.Files.Paths

/-!
# What file trees keep

Writing, moving and creating directories leave every directory where it is, so a path that leads
somewhere still leads there (`KeepsDirectories.locate`). Creating directories touches no file, and
makes the directory that it is asked for (`isDirectory_createDirectories`). The names in a directory
are those under which a file lies below its place (`mem_fileNames_iff`).
-/

namespace Keybinds.FileTree

open Keybinds.Path (join IsName)

variable {t t' : FileTree} {place : List String} {path : String}

/-! ## Following names -/

theorem follow_append (t : FileTree) (place ns ms : List String) :
    t.follow place (ns ++ ms) = t.follow place ns >>= fun q => t.follow q ms := by
  induction ns generalizing place with
  | nil => rfl
  | cons name ns ih =>
    rw [List.cons_append, follow, follow]
    cases t.requireDirectory place with
    | error fault => rfl
    | ok _ =>
      cases enter place name with
      | error fault => rfl
      | ok q => exact ih q

theorem requireDirectory_eq_ok :
    t.requireDirectory place = .ok () ↔ t.item? place = some .directory := by
  unfold requireDirectory
  split
  · rename_i h
    simp [h]
  · rename_i h
    simp [h]
  · rename_i h
    simp [h]

theorem enter_of_isName {name : String} (h : IsName name) (place : List String) :
    enter place name =
      if longestName < name.utf8ByteSize then .error .nameTooLong else .ok (place ++ [name]) := by
  unfold enter
  rw [if_neg (by simp [h.ne_empty, h.ne_point]), if_neg h.ne_points]

theorem follow_cons_eq_ok {name : String} {ns q : List String} :
    t.follow place (name :: ns) = .ok q ↔
      t.item? place = some .directory ∧ ∃ p, enter place name = .ok p ∧ t.follow p ns = .ok q := by
  rw [follow, ← requireDirectory_eq_ok]
  constructor
  · intro h
    obtain ⟨⟨⟩, hrequire, h⟩ := bind_eq_ok_iff.1 h
    obtain ⟨p, hp, h⟩ := bind_eq_ok_iff.1 h
    exact ⟨hrequire, p, hp, h⟩
  · rintro ⟨hrequire, p, hp, h⟩
    exact bind_eq_ok_iff.2 ⟨(), hrequire, bind_eq_ok_iff.2 ⟨p, hp, h⟩⟩

theorem follow_nil (t : FileTree) (place : List String) : t.follow place [] = .ok place := rfl

theorem follow_concat_eq_ok {ns q : List String} {name : String} :
    t.follow place (ns ++ [name]) = .ok q ↔
      ∃ p, t.follow place ns = .ok p ∧ t.item? p = some .directory ∧ enter p name = .ok q := by
  rw [follow_append, bind_eq_ok_iff]
  simp only [follow_cons_eq_ok, follow_nil, Except.ok.injEq]
  constructor
  · rintro ⟨p, hp, hdirectory, q', hq, rfl⟩
    exact ⟨p, hp, hdirectory, hq⟩
  · rintro ⟨p, hp, hdirectory, hq⟩
    exact ⟨p, hp, hdirectory, q, hq, rfl⟩

theorem locate_eq_ok {q : List String} :
    t.locate path = .ok q ↔ ∃ ns, t.names? path = some ns ∧ t.follow [] ns = .ok q := by
  unfold locate
  cases t.names? path with
  | none => simp
  | some ns => simp

section

variable {directory name : String} {p q : List String}

/-- Something in a directory is located by following the names of the directory. -/
theorem exists_locate_join (t : FileTree) (directory : String) :
    ∃ base : Option (List String), ∀ name, '/' ∉ name.toList → ∀ q,
      (t.locate (join directory name) = .ok q ↔ ∃ ns ∈ base, ∃ p,
        t.follow [] ns = .ok p ∧ t.item? p = some .directory ∧ enter p name = .ok q) := by
  obtain ⟨base, hbase⟩ := t.exists_names?_join directory
  refine ⟨base, fun name hname q => ?_⟩
  rw [locate_eq_ok, hbase name hname]
  cases base with
  | none => simp
  | some ns => simp [follow_concat_eq_ok]

/-- A name in a directory is located below the directory. -/
theorem locate_join (h : IsName name) :
    t.locate (join directory name) = .ok q ↔
      ∃ p, t.locate (join directory "") = .ok p ∧ name.utf8ByteSize ≤ longestName ∧
        q = p ++ [name] := by
  obtain ⟨base, hbase⟩ := t.exists_locate_join directory
  have henter : ∀ {p : List String}, enter p name = .ok q ↔
      name.utf8ByteSize ≤ longestName ∧ q = p ++ [name] := by
    intro p
    rw [enter_of_isName h]
    split_ifs with hlong
    · simp [Nat.not_le.2 hlong]
    · simp [Nat.not_lt.1 hlong, eq_comm]
  rw [hbase name h.noSlash]
  simp only [hbase "" List.not_mem_nil, henter]
  constructor
  · rintro ⟨ns, hns, p, hp, hdirectory, hlong, rfl⟩
    exact ⟨p, ⟨ns, hns, p, hp, hdirectory, rfl⟩, hlong, rfl⟩
  · rintro ⟨p, ⟨ns, hns, p', hp, hdirectory, heq⟩, hlong, rfl⟩
    obtain rfl : p' = p := Except.ok.inj heq
    exact ⟨ns, hns, p', hp, hdirectory, hlong, rfl⟩

end

/-! ## Trees with a root -/

/-- The root is where absolute paths lead. -/
def IsRooted (t : FileTree) : Prop :=
  t.root = "" ∨ t.root.toList.head? = some '/'

theorem IsRooted.of_root_eq (h : t.IsRooted) (hroot : t'.root = t.root) : t'.IsRooted := by
  unfold IsRooted
  rw [hroot]
  exact h

/-- The names of a directory, unless the directory is the root itself: behind the root no name
follows. -/
theorem names?_join_empty (h : t.IsRooted) (directory : String) :
    t.names? (join directory "") = t.names? directory ∨
      t.names? (join directory "") = (t.names? directory).map (· ++ [""]) ∨
      t.names? directory = none := by
  by_cases hslash : directory.isEmpty = true ∨ directory.toList.getLast? = some '/'
  · have hjoin : join directory "" = directory := by
      unfold join
      rw [if_pos (by simpa using hslash), String.append_empty]
    exact Or.inl (by rw [hjoin])
  have hjoin : (join directory "").toList = directory.toList ++ ['/'] := by
    unfold join
    rw [if_neg (by simpa using hslash)]
    simp
  have hempty : directory ≠ "" := fun heq => hslash (Or.inl (String.isEmpty_iff.2 heq))
  right
  by_cases hroot : t.root = directory
  · right
    have hlonger : ¬ directory.toList ++ ['/'] <+: directory.toList := fun h => by
      have hlength := h.length_le
      rw [List.length_append, List.length_singleton] at hlength
      omega
    rw [names?_eq, hroot, if_neg hlonger]
    rw [IsRooted, hroot, or_iff_right hempty] at h
    rw [if_pos h]
  · left
    have hinside_iff : t.root.toList ++ ['/'] <+: directory.toList ++ ['/'] ↔
        t.root.toList ++ ['/'] <+: directory.toList := by
      rw [List.prefix_concat_iff, or_iff_right]
      exact fun heq => hroot (String.toList_inj.1 (List.append_cancel_right heq))
    have hsplit : ∀ cs : List Char,
        (cs ++ ['/']).splitOnP (· == '/') = cs.splitOnP (· == '/') ++ [[]] :=
      fun cs => List.splitOnP_append_cons cs [] (by rfl)
    have hhead : (directory.toList ++ ['/']).head? = directory.toList.head? :=
      List.head?_append_of_ne_nil _ (by simpa using hempty)
    rw [names?_eq, names?_eq, hjoin]
    simp only [hinside_iff, hhead]
    split_ifs with hinside
    · rw [List.drop_append_of_le_length hinside.length_le, hsplit]
      simp
    · rfl
    · rw [hsplit]
      simp

/-- A directory is located with and without a slash at its end. -/
theorem locate_join_empty_of_locate (h : t.IsRooted) {directory : String} {p : List String}
    (hlocate : t.locate directory = .ok p) (hitem : t.item? p = some .directory) :
    t.locate (join directory "") = .ok p := by
  obtain ⟨ns, hns, hfollow⟩ := locate_eq_ok.1 hlocate
  rw [locate_eq_ok]
  rcases names?_join_empty h directory with heq | heq | heq
  · exact ⟨ns, heq.trans hns, hfollow⟩
  · rw [heq, hns]
    exact ⟨_, rfl, follow_concat_eq_ok.2 ⟨p, hfollow, hitem, rfl⟩⟩
  · rw [heq] at hns
    cases hns

/-- The place that a path points to where all its names but the last lead to directories. -/
def place? (t : FileTree) (path : String) : Option (List String) :=
  (t.names? path).bind fun ns => (ns.foldlM enter []).toOption

theorem place?_of_locate {p : List String} (h : t.locate path = .ok p) :
    t.place? path = some p := by
  obtain ⟨ns, hns, hfollow⟩ := locate_eq_ok.1 h
  have hfold : ∀ {place : List String}, t.follow place ns = .ok p →
      ns.foldlM enter place = .ok p := by
    clear hns hfollow
    induction ns with
    | nil => exact fun h => h
    | cons name ns ih =>
      intro place h
      obtain ⟨-, q, hq, h⟩ := follow_cons_eq_ok.1 h
      rw [List.foldlM_cons]
      exact bind_eq_ok_iff.2 ⟨q, hq, ih h⟩
  unfold place?
  rw [hns, Option.bind_some, hfold hfollow]
  rfl

/-! ## What stays -/

/-- Every directory stays one. -/
def KeepsDirectories (t t' : FileTree) : Prop :=
  t'.root = t.root ∧ ∀ place, t.item? place = some .directory → t'.item? place = some .directory

theorem KeepsDirectories.trans {u : FileTree} (h : KeepsDirectories t t')
    (h' : KeepsDirectories t' u) : KeepsDirectories t u :=
  ⟨h'.1.trans h.1, fun place hplace => h'.2 place (h.2 place hplace)⟩

theorem names?_congr (h : t'.root = t.root) (path : String) : t'.names? path = t.names? path := by
  unfold names?
  rw [h]

theorem place?_congr (h : t'.root = t.root) (path : String) : t'.place? path = t.place? path := by
  unfold place?
  rw [names?_congr h]

theorem KeepsDirectories.follow (h : KeepsDirectories t t') {ns q : List String}
    (hfollow : t.follow place ns = .ok q) : t'.follow place ns = .ok q := by
  induction ns generalizing place with
  | nil => exact hfollow
  | cons name ns ih =>
    obtain ⟨hdirectory, p, hp, hfollow⟩ := follow_cons_eq_ok.1 hfollow
    exact follow_cons_eq_ok.2 ⟨h.2 place hdirectory, p, hp, ih hfollow⟩

theorem KeepsDirectories.locate (h : KeepsDirectories t t') {q : List String}
    (hlocate : t.locate path = .ok q) : t'.locate path = .ok q := by
  obtain ⟨ns, hns, hfollow⟩ := locate_eq_ok.1 hlocate
  exact locate_eq_ok.2 ⟨ns, (names?_congr h.1 path).trans hns, h.follow hfollow⟩

theorem item?_eq_of_not_root (h : isRootOrAbove place = false) :
    t.item? place = t.items.get? (placeOf place) := by
  unfold item?
  rw [h]
  rfl

/-- What has a name is listed at its place. -/
theorem item?_concat {name : String} (h : IsName name) :
    t.item? (place ++ [name]) = t.items.get? (placeOf (place ++ [name])) := by
  refine item?_eq_of_not_root ?_
  unfold isRootOrAbove
  rw [List.all_append, List.all_cons, beq_eq_false_iff_ne.2 h.ne_points, Bool.false_and,
    Bool.and_false]

/-- Where no directory stands, none is listed. -/
theorem ne_placeOf (h : t.item? place ≠ some .directory) {p : List String}
    (hp : t.items.get? (placeOf p) = some .directory) : placeOf p ≠ placeOf place := by
  intro heq
  unfold item? at h
  rw [← heq, hp] at h
  exact h (ite_self _)

theorem keepsDirectories_putItem {item : FileItem} (h : t.item? place ≠ some .directory) :
    KeepsDirectories t (t.putItem place item) := by
  refine ⟨rfl, fun p hp => ?_⟩
  unfold item? at hp ⊢
  split_ifs at hp ⊢ with hroot
  · rfl
  · show (t.items.insert (placeOf place) item).get? (placeOf p) = _
    rw [Dict.get?_insert, if_neg (ne_placeOf h hp), hp]

theorem keepsDirectories_erase (h : t.item? place ≠ some .directory) :
    KeepsDirectories t { t with items := t.items.erase (placeOf place) } := by
  refine ⟨rfl, fun p hp => ?_⟩
  unfold item? at hp ⊢
  split_ifs at hp ⊢ with hroot
  · rfl
  · show (t.items.erase (placeOf place)).get? (placeOf p) = _
    rw [Dict.get?_erase, if_neg (ne_placeOf h hp), hp]

/-! ## Creating directories -/

/-- Some directories are added where nothing was listed. -/
structure AddsDirectories (t t' : FileTree) : Prop where
  root : t'.root = t.root
  kept : ∀ key item, t.items.get? key = some item → t'.items.get? key = some item
  files : ∀ key bytes, t'.items.get? key = some (.file bytes) →
    t.items.get? key = some (.file bytes)

theorem AddsDirectories.refl (t : FileTree) : AddsDirectories t t :=
  ⟨rfl, fun _ _ h => h, fun _ _ h => h⟩

theorem AddsDirectories.trans {u : FileTree} (h : AddsDirectories t t')
    (h' : AddsDirectories t' u) : AddsDirectories t u where
  root := h'.root.trans h.root
  kept key item hkey := h'.kept key item (h.kept key item hkey)
  files key bytes hkey := h.files key bytes (h'.files key bytes hkey)

theorem AddsDirectories.item? (h : AddsDirectories t t') {item : FileItem}
    (hitem : t.item? place = some item) : t'.item? place = some item := by
  unfold FileTree.item? at hitem ⊢
  split_ifs at hitem ⊢ with hroot
  · exact hitem
  · exact h.kept _ _ hitem

theorem addsDirectories_putItem (h : t.item? place = none) :
    AddsDirectories t (t.putItem place .directory) := by
  have hnone : t.items.get? (placeOf place) = none := by
    unfold FileTree.item? at h
    split_ifs at h with hroot
    exact h
  have hget : ∀ key, (t.putItem place .directory).items.get? key =
      if key = placeOf place then some .directory else t.items.get? key :=
    fun key => Dict.get?_insert t.items (placeOf place) key .directory
  refine ⟨rfl, fun key item hkey => ?_, fun key bytes hkey => ?_⟩
  · have hne : key ≠ placeOf place := by
      rintro rfl
      rw [hnone] at hkey
      cases hkey
    rw [hget, if_neg hne, hkey]
  · rw [hget] at hkey
    split_ifs at hkey with heq
    · cases hkey
    · exact hkey

theorem item?_putItem_directory (t : FileTree) (place : List String) :
    (t.putItem place .directory).item? place = some .directory := by
  unfold item? putItem
  split_ifs
  · rfl
  · exact (Dict.get?_insert _ _ _ _).trans (if_pos rfl)

/-- The names lead to a directory behind its creation, and files stay as they are. -/
theorem createFrom_spec (t : FileTree) (place ns : List String) :
    AddsDirectories t (t.createFrom place ns).2 ∧
      ((t.createFrom place ns).1 = .ok () →
        ∃ q, (t.createFrom place ns).2.follow place ns = .ok q ∧
          (t.createFrom place ns).2.item? q = some .directory) := by
  induction ns generalizing t place with
  | nil =>
    unfold createFrom
    split
    · rename_i h
      exact ⟨.refl t, fun _ => ⟨place, rfl, h⟩⟩
    · exact ⟨.refl t, nofun⟩
    · rename_i h
      exact ⟨addsDirectories_putItem h, fun _ => ⟨place, rfl, item?_putItem_directory t place⟩⟩
  | cons name ns ih =>
    have hfirst : AddsDirectories t
        (if (t.item? place).isSome then t else t.putItem place .directory) := by
      split_ifs with h
      · exact .refl t
      · exact addsDirectories_putItem (by simpa using h)
    unfold createFrom
    dsimp only
    generalize (if (t.item? place).isSome then t else t.putItem place .directory) = u at hfirst
    split
    · rename_i p hrequire hp
      obtain ⟨hadds, hok⟩ := ih u p
      refine ⟨hfirst.trans hadds, fun h => ?_⟩
      obtain ⟨q, hq, hdirectory⟩ := hok h
      have hplace := hadds.item? (requireDirectory_eq_ok.1 hrequire)
      exact ⟨q, follow_cons_eq_ok.2 ⟨hplace, p, hp, hq⟩, hdirectory⟩
    · exact ⟨hfirst, nofun⟩
    · exact ⟨hfirst, nofun⟩

theorem isDirectory_iff :
    t.isDirectory path = true ↔ ∃ p, t.locate path = .ok p ∧ t.item? p = some .directory := by
  unfold isDirectory at?
  cases t.locate path with
  | error fault => simp [Except.toOption]
  | ok p =>
    simp only [Except.toOption, Option.bind_some, Except.ok.injEq, exists_eq_left']
    rcases t.item? p with _ | _ | _ <;> simp

theorem isDirectory_createDirectories (h : t.createDirectories path = (.ok (), t')) :
    AddsDirectories t t' ∧ t'.isDirectory path = true := by
  unfold createDirectories at h
  cases hns : t.names? path with
  | none =>
    rw [hns] at h
    cases h
  | some ns =>
    rw [hns] at h
    have hspec := t.createFrom_spec [] ns
    change t.createFrom [] ns = _ at h
    rw [h] at hspec
    obtain ⟨q, hq, hdirectory⟩ := hspec.2 rfl
    have hnames := (names?_congr hspec.1.root path).trans hns
    exact ⟨hspec.1, isDirectory_iff.2 ⟨q, locate_eq_ok.2 ⟨ns, hnames, hq⟩, hdirectory⟩⟩

theorem KeepsDirectories.isDirectory (h : KeepsDirectories t t')
    (hpath : t.isDirectory path = true) : t'.isDirectory path = true := by
  obtain ⟨p, hp, hdirectory⟩ := isDirectory_iff.1 hpath
  exact isDirectory_iff.2 ⟨p, h.locate hp, h.2 p hdirectory⟩

/-! ## Reading and writing -/

theorem fromUTF8?_toUTF8 (text : String) : String.fromUTF8? text.toUTF8 = some text :=
  (dif_pos text.isValidUTF8).trans rfl

theorem readText_of_item? {p : List String} {text : String} (hp : t.locate path = .ok p)
    (hitem : t.item? p = some (.file text.toUTF8)) : t.readText path = .ok text := by
  refine bind_eq_ok_iff.2 ⟨p, hp, ?_⟩
  rw [hitem]
  dsimp only
  rw [fromUTF8?_toUTF8]

theorem exists_item?_of_readText {text : String} (h : t.readText path = .ok text) :
    ∃ p bytes, t.locate path = .ok p ∧ t.item? p = some (.file bytes) := by
  unfold readText at h
  obtain ⟨p, hp, h⟩ := bind_eq_ok_iff.1 h
  split at h
  · cases h
  · cases h
  · rename_i bytes hitem
    exact ⟨p, bytes, hp, hitem⟩

theorem at?_ne_none_of_readText {text : String} (h : t.readText path = .ok text) :
    t.at? path ≠ none := by
  obtain ⟨p, bytes, hp, hitem⟩ := exists_item?_of_readText h
  have hat : t.at? path = t.item? p := by
    unfold at?
    rw [hp]
    rfl
  rw [hat, hitem]
  exact Option.some_ne_none _

/-- Writing puts the bytes under the path. -/
theorem writeBytes_eq_ok {bytes : ByteArray} (h : t.writeBytes path bytes = .ok t') :
    ∃ place, t.locate path = .ok place ∧ KeepsDirectories t t' ∧ ∀ key, t'.items.get? key =
      if key = placeOf place then some (.file bytes) else t.items.get? key := by
  unfold writeBytes at h
  split_ifs at h
  obtain ⟨place, hplace, h⟩ := bind_eq_ok_iff.1 h
  split at h
  · cases h
  · rename_i hitem
    obtain rfl := Except.ok.inj h
    exact ⟨place, hplace, keepsDirectories_putItem hitem,
      fun key => Dict.get?_insert t.items (placeOf place) key _⟩

/-- Moving puts the bytes of the source under the target and leaves nothing under the source. -/
theorem moveFile_eq_ok {source target : String} (h : t.moveFile source target = .ok t') :
    ∃ origin place bytes, t.locate source = .ok origin ∧ t.locate target = .ok place ∧
      t.item? origin = some (.file bytes) ∧ KeepsDirectories t t' ∧ ∀ key, t'.items.get? key =
        if key = placeOf place then some (.file bytes)
        else if key = placeOf origin then none else t.items.get? key := by
  unfold moveFile at h
  obtain ⟨origin, horigin, h⟩ := bind_eq_ok_iff.1 h
  obtain ⟨place, hplace, h⟩ := bind_eq_ok_iff.1 h
  split at h
  · cases h
  · cases h
  · cases h
  · rename_i bytes hbytes hfree
    obtain rfl := Except.ok.inj h
    have herased : KeepsDirectories t { t with items := t.items.erase (placeOf origin) } :=
      keepsDirectories_erase (by simp [hbytes])
    have hfree' : FileTree.item? { t with items := t.items.erase (placeOf origin) } place ≠
        some .directory := by
      unfold item? at hfree ⊢
      rw [Dict.get?_erase]
      split_ifs at hfree ⊢
      · exact hfree
      · exact nofun
      · exact hfree
    refine ⟨origin, place, bytes, horigin, hplace, hbytes,
      herased.trans (keepsDirectories_putItem hfree'), fun key => ?_⟩
    have herase := Dict.get?_erase t.items (placeOf origin) key
    exact (Dict.get?_insert _ _ _ _).trans (by rw [herase])

/-! ## Listing -/

theorem toList_placeOf_concat (place : List String) (name : String) :
    (placeOf (place ++ [name])).toList =
      (if place.isEmpty then [] else (placeOf place ++ "/").toList) ++ name.toList := by
  unfold placeOf
  simp only [String.toList_append, String.toList_intercalate, List.map_append]
  induction place with
  | nil => simp
  | cons first place ih =>
    cases place with
    | nil => simp
    | cons second place =>
      simp only [List.map_cons, List.cons_append, List.intercalate_cons_cons, List.append_assoc,
        List.isEmpty_cons, Bool.false_eq_true, if_false] at ih ⊢
      rw [ih]

theorem placeOf_concat_inj {name name' : String} :
    placeOf (place ++ [name]) = placeOf (place ++ [name']) ↔ name = name' := by
  rw [← String.toList_inj, toList_placeOf_concat, toList_placeOf_concat,
    List.append_cancel_left_eq, String.toList_inj]

theorem nameBelow?_eq_some_iff {start : List Char} {key name : String} :
    nameBelow? start key = some name ↔ key.toList = start ++ name.toList ∧ '/' ∉ name.toList := by
  unfold nameBelow?
  constructor
  · intro h
    dsimp only at h
    split_ifs at h with hstart
    rw [Bool.and_eq_true, List.isPrefixOf_iff_prefix] at hstart
    obtain ⟨⟨rest, hrest⟩, hslash⟩ := hstart
    obtain rfl := Option.some.inj h
    rw [← hrest, List.drop_left] at hslash ⊢
    rw [String.toList_ofList]
    exact ⟨rfl, by simpa using hslash⟩
  · rintro ⟨hkey, hslash⟩
    rw [hkey, List.drop_left, if_pos (by simpa using hslash), String.ofList_toList]

section

variable {p names : List String} (hp : t.locate path = .ok p) (h : t.fileNames path = .ok names)

include hp h

/-- The names of a directory are read off the keys of its files. -/
theorem fileNames_eq :
    names = t.items.entries.filterMap fun (key, item) =>
      match item with
      | .file _ => nameBelow? (if p.isEmpty then [] else (placeOf p ++ "/").toList) key
      | .directory => none := by
  obtain ⟨place, hplace, h⟩ := bind_eq_ok_iff.1 h
  obtain ⟨⟨⟩, -, h⟩ := bind_eq_ok_iff.1 h
  obtain rfl : p = place := Except.ok.inj (hp.symm.trans hplace)
  exact (Except.ok.inj h).symm

/-- The names in a directory are those that files stand under. -/
theorem mem_fileNames_iff {name : String} :
    name ∈ names ↔
      '/' ∉ name.toList ∧ ∃ bytes, t.items.get? (placeOf (p ++ [name])) = some (.file bytes) := by
  have hkey : ∀ key : String, key = placeOf (p ++ [name]) ↔
      key.toList = (if p.isEmpty then [] else (placeOf p ++ "/").toList) ++ name.toList :=
    fun key => by rw [← toList_placeOf_concat, String.toList_inj]
  rw [fileNames_eq hp h, List.mem_filterMap]
  constructor
  · rintro ⟨⟨key, item⟩, hentry, hname⟩
    cases item with
    | directory => cases hname
    | file bytes =>
      obtain ⟨hlist, hslash⟩ := nameBelow?_eq_some_iff.1 hname
      obtain rfl := (hkey key).2 hlist
      exact ⟨hslash, bytes, Dict.get?_eq_some_iff.2 hentry⟩
  · rintro ⟨hslash, bytes, hget⟩
    exact ⟨_, Dict.get?_eq_some_iff.1 hget, nameBelow?_eq_some_iff.2 ⟨(hkey _).1 rfl, hslash⟩⟩

theorem nodup_fileNames : names.Nodup := by
  have hsub : (names.map fun name =>
      (if p.isEmpty then [] else (placeOf p ++ "/").toList) ++ name.toList).Sublist
      (t.items.entries.map fun entry => entry.1.toList) := by
    rw [fileNames_eq hp h]
    refine map_filterMap_sublist (fun entry name hname => ?_) _
    obtain ⟨key, item⟩ := entry
    cases item with
    | directory => cases hname
    | file bytes => exact (nameBelow?_eq_some_iff.1 hname).1.symm
  have hnodup : (t.items.entries.map fun entry => entry.1.toList).Nodup := by
    have hkeys := t.items.nodup.map (f := String.toList) fun _ _ => String.toList_inj.1
    rwa [List.map_map] at hkeys
  exact (hnodup.sublist hsub).of_map

end

end Keybinds.FileTree
