import Keybinds.Command.Spelling
import Keybinds.Proofs.List
import Keybinds.Proofs.Text.Words
import Mathlib.Data.List.DropRight

/-!
# The table of known commands

Every entry of the table is found by its id and by its bare name, and the rules for names give it
its own category (`Definition.isSound_of_mem`). Whether a rule matches an entry's name depends on
the entry and on the characters of its bare name alone (`Matcher.matches_bareName`), so this is
checked entry by entry.
-/

namespace Keybinds.Command

open Text (IsWord NoBlank)

/-! ## Names -/

/-- A name of a command: one word, and more than plus signs. -/
structure IsName (name : String) : Prop where
  noBlank : NoBlank name.toList
  bare_ne_nil : name.toList.dropWhile (· == '+') ≠ []

theorem IsName.ne_nil {name : String} (h : IsName name) : name.toList ≠ [] := by
  intro hnil
  apply h.bare_ne_nil
  rw [hnil]
  rfl

theorem IsName.isWord {name : String} (h : IsName name) : IsWord name.toList :=
  ⟨h.ne_nil, h.noBlank⟩

theorem IsName.isWord_bare {name : String} (h : IsName name) :
    IsWord (name.toList.dropWhile (· == '+')) :=
  ⟨h.bare_ne_nil, fun c hc => h.noBlank c ((List.dropWhile_sublist _).subset hc)⟩

/-- The characters of a bare name. -/
def bareChars (cs : List Char) : List Char :=
  (cs.dropWhile (· == '+')).map Char.toLower

theorem toList_bareName (name : String) : (bareName name).toList = bareChars name.toList := by
  unfold bareName bareChars
  rw [Text.toList_lower, Text.toList_dropPlus]

theorem bareName_congr {name name' : String} (h : bareChars name.toList = bareChars name'.toList) :
    bareName name = bareName name' := by
  rw [← String.toList_inj, toList_bareName, toList_bareName, h]

theorem bareName_dropPlus (name : String) : bareName (Text.dropPlus name) = bareName name := by
  refine bareName_congr ?_
  unfold bareChars
  rw [Text.toList_dropPlus, List.dropWhile_idempotent]

theorem bareName_plus (name : String) : bareName ("+" ++ name) = bareName name := by
  refine bareName_congr ?_
  rw [String.toList_append]
  rfl

theorem isName_plus {name : String} (h : IsName name) : IsName ("+" ++ name) where
  noBlank := by
    intro c hc
    rw [String.toList_append] at hc
    rcases List.mem_append.1 hc with hc | hc
    · rw [List.mem_singleton.1 hc]
      rfl
    · exact h.noBlank c hc
  bare_ne_nil := by
    rw [String.toList_append]
    exact h.bare_ne_nil

/-! ## Entries -/

/-- Whether a test matches the name of an entry that is found by that name. -/
def Matcher.matchesEntry (m : Matcher) (d : Definition) : Bool :=
  match m with
  | .exact s => bareChars d.name.toList == s.toList
  | .startsWith s => s.toList.isPrefixOf (bareChars d.name.toList)
  | .contains s => Text.occursIn s.toList (bareChars d.name.toList)
  | .known c => d.category == c

theorem Matcher.matches_bareName {d : Definition}
    (hd : Definition.byName? (bareName d.name) = some d) (m : Matcher) :
    m.matches (bareName d.name) = m.matchesEntry d := by
  cases m with
  | exact s =>
    unfold Matcher.matches Matcher.matchesEntry
    rw [← toList_bareName, Bool.eq_iff_iff, beq_iff_eq, beq_iff_eq, String.toList_inj]
  | startsWith s =>
    unfold Matcher.matches Matcher.matchesEntry
    rw [toList_bareName]
  | contains s =>
    unfold Matcher.matches Matcher.matchesEntry
    rw [toList_bareName]
  | known c =>
    show (Definition.byName? (bareName d.name)).any (fun d => d.category == c) =
      (d.category == c)
    rw [hd]
    rfl

namespace Definition

/-- What is checked of an entry: its name is one word that is not the second name of the tray
command, the rules give its category, and a tray command has the name that it is spelled with. -/
def passes (d : Definition) : Bool :=
  d.name.toList.all (!Text.isBlank ·) && !(d.name.toList.dropWhile (· == '+')).isEmpty &&
    bareChars d.name.toList != shortTrayName.toList &&
    ((categoryRules.find? fun rule => rule.1.matchesEntry d).map Prod.snd).getD .custom ==
      d.category &&
    (d.shape != .tray || d.name == Command.trayName) &&
    (d.shape != .trayBackup || d.name == Command.trayBackupName)

theorem passes_known : known.all passes = true := by
  decide +kernel

theorem nodup_bareChars : (known.map fun d => bareChars d.name.toList).Nodup := by
  decide +kernel

theorem nodup_id : (known.map id).Nodup := by
  decide +kernel

/-- What holds of every entry of the table. -/
structure IsSound (d : Definition) : Prop where
  isName : IsName d.name
  byId : byId? d.id = some d
  byName : byName? (bareName d.name) = some d
  category : Category.ofName (bareName d.name) = d.category
  trayName : d.shape = .tray → d.name = Command.trayName
  trayBackupName : d.shape = .trayBackup → d.name = Command.trayBackupName

theorem isSound_of_mem {d : Definition} (hd : d ∈ known) : d.IsSound := by
  have hpasses := List.all_eq_true.1 passes_known d hd
  unfold passes at hpasses
  simp only [Bool.and_eq_true, List.all_eq_true, Bool.not_eq_true', List.isEmpty_eq_false_iff,
    bne_iff_ne, beq_iff_eq, Bool.or_eq_true, ne_eq] at hpasses
  obtain ⟨⟨⟨⟨⟨hblank, hbare⟩, hshort⟩, hcategory⟩, htray⟩, hbackup⟩ := hpasses
  have hkeys : (fun x : Definition => bareName x.name == bareName d.name) =
      fun x => bareChars x.name.toList == bareChars d.name.toList := by
    funext x
    rw [← toList_bareName, ← toList_bareName, Bool.eq_iff_iff, beq_iff_eq, beq_iff_eq,
      String.toList_inj]
  have hbyName : byName? (bareName d.name) = some d := by
    unfold byName?
    rw [if_neg, hkeys]
    · exact find?_eq_some_of_nodup nodup_bareChars hd
    · intro heq
      apply hshort
      rw [← toList_bareName, heq]
  refine ⟨⟨hblank, hbare⟩, find?_eq_some_of_nodup nodup_id hd, hbyName, ?_, ?_, ?_⟩
  · unfold Category.ofName
    simp only [Matcher.matches_bareName hbyName]
    exact hcategory
  · exact fun h => htray.resolve_left (not_not_intro h)
  · exact fun h => hbackup.resolve_left (not_not_intro h)

theorem mem_of_byId? {id : String} {d : Definition} (h : byId? id = some d) :
    d ∈ known ∧ d.id = id := by
  unfold byId? at h
  have hid := List.find?_some h
  exact ⟨List.mem_of_find?_eq_some h, beq_iff_eq.1 hid⟩

theorem mem_of_byName? {name : String} {d : Definition} (h : byName? name = some d) :
    d ∈ known := by
  unfold byName? at h
  split_ifs at h
  · exact (mem_of_byId? h).1
  · exact List.mem_of_find?_eq_some h

end Definition

end Keybinds.Command
