import Keybinds.Command.TrayRange
import Keybinds.Proofs.Command.Spelling

/-!
# Ranges of slots

A range of slots can be expanded just if both ends exist; with backups, the first backup has to
exist and the last one to be within 32 bits. The commands then address the slots from the first to
the last, one after the other, with the backups beside them (`expansion_exact`). All of this may be
computed in 32-bit words: what is checked tells of every number that would wrap
(`expandRange_eq_inWords`, `expandRangeWithBackup_eq_inWords`).

To expand a whole tray is to expand the range from its first slot to its last one. With a backup
tray this is so just if the backup tray is a whole one, too; if it is not, some commands have
backups that do not exist (`wholeTray_agrees_iff`).
-/

namespace Keybinds.Command

/-! ## Slots that exist -/

namespace TraySlot

variable {s : TraySlot}

/-- Whether a slot is one of the ten of its tray, and its place in the line fits 32 bits. -/
def InRange (s : TraySlot) : Prop := s.slot.toNat < slotsPerTray ∧ s.position < UInt32.size

instance : DecidablePred InRange := fun s =>
  inferInstanceAs (Decidable (s.slot.toNat < slotsPerTray ∧ s.position < UInt32.size))

/-- Whether a slot exists and stands at a place in the line. -/
def IsAt (s : TraySlot) (i : Nat) : Prop := s.InRange ∧ s.position = i

theorem isAt_ofIndex {i : Nat} (h : i < UInt32.size) : (ofIndex i).IsAt i := by
  have htray : (UInt32.ofNat (i / slotsPerTray)).toNat = i / slotsPerTray :=
    UInt32.toNat_ofNat_of_lt' (lt_of_le_of_lt (Nat.div_le_self _ _) h)
  have hslot : (UInt32.ofNat (i % slotsPerTray)).toNat = i % slotsPerTray :=
    UInt32.toNat_ofNat_of_lt' (lt_of_le_of_lt (Nat.mod_le _ _) h)
  have hposition : (ofIndex i).position = i := by
    unfold position ofIndex
    rw [htray, hslot]
    exact Nat.div_add_mod' i slotsPerTray
  refine ⟨⟨?_, by rw [hposition]; exact h⟩, hposition⟩
  show (UInt32.ofNat (i % slotsPerTray)).toNat < slotsPerTray
  rw [hslot]
  exact Nat.mod_lt i (by decide)

/-- A slot that exists is the one at its place. -/
theorem ofIndex_position (h : s.InRange) : ofIndex s.position = s := by
  obtain ⟨tray, slot⟩ := s
  have hslot : slot.toNat < 10 := h.1
  have hdiv : (tray.toNat * 10 + slot.toNat) / 10 = tray.toNat := by omega
  have hmod : (tray.toNat * 10 + slot.toNat) % 10 = slot.toNat := by omega
  unfold ofIndex position slotsPerTray
  rw [hdiv, hmod, UInt32.ofNat_toNat, UInt32.ofNat_toNat]

end TraySlot

theorem checkSlot_eq (s : TraySlot) :
    checkSlot s = if s.InRange then .ok s.position else .error (.slotOutOfRange s) := by
  unfold checkSlot TraySlot.index? TraySlot.InRange
  by_cases hplace : s.position < UInt32.size <;> by_cases hslot : s.slot.toNat < slotsPerTray <;>
    simp [hplace, hslot]

/-! ## Expansions -/

/-- The places from one slot to another. -/
def placesFrom (first last : TraySlot) : List Nat :=
  List.range' first.position (last.position + 1 - first.position)

theorem length_placesFrom (first last : TraySlot) :
    (placesFrom first last).length = last.position + 1 - first.position :=
  List.length_range'

theorem getElem_placesFrom {first last : TraySlot} {k : Nat}
    (h : k < (placesFrom first last).length) : (placesFrom first last)[k] = first.position + k := by
  simp only [placesFrom, List.getElem_range', Nat.one_mul]

theorem slotRange_eq (first last : TraySlot) :
    slotRange first last =
      if first.InRange then
        if last.InRange then .ok (placesFrom first last) else .error (.slotOutOfRange last)
      else .error (.slotOutOfRange first) := by
  unfold slotRange
  rw [checkSlot_eq, checkSlot_eq]
  split_ifs <;> rfl

theorem expandRange_eq (first last : TraySlot) (active : UInt8) :
    expandRange first last active =
      if first.InRange then
        if last.InRange then .ok ((placesFrom first last).map fun i => slotCommand active i none)
        else .error (.slotOutOfRange last)
      else .error (.slotOutOfRange first) := by
  unfold expandRange
  rw [slotRange_eq]
  split_ifs <;> rfl

/-- Whether the backups that are walked beside a range end beyond 32 bits. -/
def Overruns (first last backup : TraySlot) : Prop :=
  UInt32.size ≤ backup.position + ((placesFrom first last).length - 1)

instance (first last backup : TraySlot) : Decidable (Overruns first last backup) :=
  inferInstanceAs (Decidable (UInt32.size ≤ backup.position + (_ - 1)))

theorem expandRangeWithBackup_eq (first last backup : TraySlot) (active : UInt8) :
    expandRangeWithBackup first last backup active =
      if first.InRange then
        if last.InRange then
          if backup.InRange then
            if Overruns first last backup then .error (.slotOutOfRange backup)
            else .ok ((placesFrom first last).mapIdx fun k i =>
              slotCommand active i (some (.ofIndex (backup.position + k))))
          else .error (.slotOutOfRange backup)
        else .error (.slotOutOfRange last)
      else .error (.slotOutOfRange first) := by
  unfold expandRangeWithBackup
  rw [slotRange_eq, checkSlot_eq]
  by_cases hfirst : first.InRange
  · rw [if_pos hfirst, if_pos hfirst]
    by_cases hlast : last.InRange
    · rw [if_pos hlast, if_pos hlast]
      split_ifs with hbackup hover
      · exact if_pos hover
      · exact if_neg hover
      · rfl
    · rw [if_neg hlast, if_neg hlast]
      rfl
  · rw [if_neg hfirst, if_neg hfirst]
    rfl

/-- The backups of a range that is not empty overrun if the last one does. -/
theorem not_overruns_iff {first last backup : TraySlot} (h : backup.InRange) :
    ¬ Overruns first last backup ↔
      (first.position ≤ last.position →
        backup.position + (last.position - first.position) < UInt32.size) := by
  have hbackup := h.2
  unfold Overruns
  rw [length_placesFrom]
  omega

/-! ## What is addressed -/

/-- The command for a slot is read back as that. -/
theorem ofCommand_slotCommand (active : UInt8) (i : Nat) (backup : Option TraySlot) :
    let p : TrayParams := ⟨(TraySlot.ofIndex i).tray, (TraySlot.ofIndex i).slot,
      if active = 0 then 0 else 1, backup⟩
    Signature.ofCommand (slotCommand active i backup) = ⟨.tray, some p.id, .tray p⟩ :=
  ofCommand_trayCommand .implicit _

/-- What the commands for the slots from one to another are: none if the last slot stands before the
first, otherwise one for each slot, which is read as a tray command that addresses this slot, and
the backup as many places behind the first backup. The flag is one bit. -/
structure Covers (first last : TraySlot) (backup : Option TraySlot) (active : UInt8)
    (commands : List String) : Prop where
  length : commands.length = last.position + 1 - first.position
  addressed : ∀ (k : Nat) (h : k < commands.length), ∃ p : TrayParams,
    Signature.ofCommand commands[k] = ⟨.tray, some p.id, .tray p⟩ ∧
      p.primary.IsAt (first.position + k) ∧
      Option.Rel (fun s b : TraySlot => s.IsAt (b.position + k)) p.backup backup ∧
      p.active = if active = 0 then 0 else 1

theorem position_add_lt {first last : TraySlot} (h : last.InRange) {k : Nat}
    (hk : k < (placesFrom first last).length) : first.position + k < UInt32.size := by
  have hlast := h.2
  rw [length_placesFrom] at hk
  omega

theorem covers_expandRange {first last : TraySlot} {active : UInt8} {commands : List String}
    (h : expandRange first last active = .ok commands) :
    Covers first last none active commands := by
  rw [expandRange_eq] at h
  split_ifs at h with hfirst hlast
  obtain rfl := Except.ok.inj h
  refine ⟨by rw [List.length_map, length_placesFrom], fun k hk => ?_⟩
  rw [List.length_map] at hk
  rw [List.getElem_map, getElem_placesFrom]
  exact ⟨_, ofCommand_slotCommand active _ none,
    TraySlot.isAt_ofIndex (position_add_lt hlast hk), .none, rfl⟩

theorem covers_expandRangeWithBackup {first last backup : TraySlot} {active : UInt8}
    {commands : List String} (h : expandRangeWithBackup first last backup active = .ok commands) :
    Covers first last (some backup) active commands := by
  rw [expandRangeWithBackup_eq] at h
  split_ifs at h with hfirst hlast hbackup hover
  obtain rfl := Except.ok.inj h
  refine ⟨by rw [List.length_mapIdx, length_placesFrom], fun k hk => ?_⟩
  rw [List.length_mapIdx] at hk
  have hlt : backup.position + k < UInt32.size := by
    unfold Overruns at hover
    omega
  rw [List.getElem_mapIdx, getElem_placesFrom]
  exact ⟨_, ofCommand_slotCommand active _ _, TraySlot.isAt_ofIndex (position_add_lt hlast hk),
    .some (TraySlot.isAt_ofIndex hlt), rfl⟩

/-! ## In 32-bit words -/

/-- The product of two words, unless it wraps. -/
def mulWords? (a b : UInt32) : Option UInt32 :=
  if a.toNat * b.toNat < UInt32.size then some (a * b) else none

/-- The sum of two words, unless it wraps. -/
def addWords? (a b : UInt32) : Option UInt32 :=
  if a.toNat + b.toNat < UInt32.size then some (a + b) else none

namespace TraySlot

/-- The place in the line of all slots, computed in words. -/
def word? (s : TraySlot) : Option UInt32 :=
  (mulWords? s.tray 10).bind fun product => addWords? product s.slot

/-- The slot at a place in the line, computed in words. -/
def ofWord (w : UInt32) : TraySlot := ⟨w / 10, w % 10⟩

/-- The place is found just if it fits a word. -/
theorem word?_eq (s : TraySlot) : s.word? = s.index?.map UInt32.ofNat := by
  have hten : (10 : UInt32).toNat = 10 := rfl
  have hplace : s.position = s.tray.toNat * 10 + s.slot.toNat := rfl
  unfold word? mulWords? addWords? index?
  rw [hten]
  by_cases hmul : s.tray.toNat * 10 < UInt32.size
  · have hproduct : (s.tray * 10).toNat = s.tray.toNat * 10 := by
      rw [UInt32.toNat_mul, hten]
      exact Nat.mod_eq_of_lt hmul
    have hsum : s.tray * 10 + s.slot = UInt32.ofNat s.position := by
      rw [← UInt32.toNat_inj, UInt32.toNat_add, hproduct, ← hplace, UInt32.toNat_ofNat']
    rw [if_pos hmul, Option.bind_some, hproduct, ← hplace, hsum]
    split_ifs <;> rfl
  · -- the product alone is beyond a word
    have hfits : ¬ s.position < UInt32.size := by omega
    rw [if_neg hmul, if_neg hfits]
    rfl

theorem ofWord_ofNat {i : Nat} (h : i < UInt32.size) : ofWord (UInt32.ofNat i) = ofIndex i := by
  have hi : (UInt32.ofNat i).toNat = i := UInt32.toNat_ofNat_of_lt' h
  unfold ofWord ofIndex slotsPerTray
  congr 1
  · rw [← UInt32.toNat_inj, UInt32.toNat_div, hi]
    exact (UInt32.toNat_ofNat_of_lt' (lt_of_le_of_lt (Nat.div_le_self _ _) h)).symm
  · rw [← UInt32.toNat_inj, UInt32.toNat_mod, hi]
    exact (UInt32.toNat_ofNat_of_lt' (lt_of_le_of_lt (Nat.mod_le _ _) h)).symm

end TraySlot

/-- The word of a slot that exists. -/
def checkWord (s : TraySlot) : Except SpellingFault UInt32 :=
  match s.word? with
  | some w => if s.slot < 10 then .ok w else .error (.slotOutOfRange s)
  | none => .error (.slotOutOfRange s)

/-- The words from one to another. -/
def wordsFrom (first last : UInt32) : List UInt32 :=
  (List.range' first.toNat (last.toNat + 1 - first.toNat)).map UInt32.ofNat

/-- The shorter spelling of the command that addresses a slot. -/
def commandFor (active : UInt8) (s : TraySlot) (backup : Option TraySlot) : String :=
  TrayParams.spell .implicit { tray := s.tray, slot := s.slot, active, backup }

/-- The expansion of a range, computed in words. -/
def expandRangeInWords (first last : TraySlot) (active : UInt8) :
    Except SpellingFault (List String) := do
  let i ← checkWord first
  let j ← checkWord last
  return (wordsFrom i j).map fun w => commandFor active (.ofWord w) none

/-- The expansion of a range with backups, computed in words. The sum of the first backup's word and
the number of steps is not checked at every step. -/
def expandRangeWithBackupInWords (first last backup : TraySlot) (active : UInt8) :
    Except SpellingFault (List String) := do
  let i ← checkWord first
  let j ← checkWord last
  let b ← checkWord backup
  if i ≤ j ∧ addWords? b (j - i) = none then throw (.slotOutOfRange backup)
  return (wordsFrom i j).mapIdx fun k w =>
    commandFor active (.ofWord w) (some (.ofWord (b + UInt32.ofNat k)))

theorem checkWord_eq (s : TraySlot) :
    checkWord s =
      if s.InRange then .ok (UInt32.ofNat s.position) else .error (.slotOutOfRange s) := by
  have hslot : s.slot < 10 ↔ s.slot.toNat < slotsPerTray := UInt32.lt_iff_toNat_lt
  unfold checkWord TraySlot.InRange
  rw [TraySlot.word?_eq]
  unfold TraySlot.index?
  by_cases hplace : s.position < UInt32.size <;> by_cases hlt : s.slot.toNat < slotsPerTray <;>
    simp [hplace, hlt, hslot]

theorem wordsFrom_ofNat {first last : TraySlot} (hfirst : first.InRange) (hlast : last.InRange) :
    wordsFrom (UInt32.ofNat first.position) (UInt32.ofNat last.position) =
      (placesFrom first last).map UInt32.ofNat := by
  unfold wordsFrom placesFrom
  rw [UInt32.toNat_ofNat_of_lt' hfirst.2, UInt32.toNat_ofNat_of_lt' hlast.2]

theorem commandFor_ofWord {i : Nat} (h : i < UInt32.size) (active : UInt8)
    (backup : Option TraySlot) :
    commandFor active (.ofWord (UInt32.ofNat i)) backup = slotCommand active i backup := by
  unfold commandFor slotCommand
  rw [TraySlot.ofWord_ofNat h]

/-- In words a range is expanded alike. -/
theorem expandRange_eq_inWords (first last : TraySlot) (active : UInt8) :
    expandRange first last active = expandRangeInWords first last active := by
  unfold expandRangeInWords
  rw [expandRange_eq, checkWord_eq, checkWord_eq]
  by_cases hfirst : first.InRange
  swap
  · simp only [if_neg hfirst]
    rfl
  by_cases hlast : last.InRange
  swap
  · simp only [if_pos hfirst, if_neg hlast]
    rfl
  simp only [if_pos hfirst, if_pos hlast]
  show _ = Except.ok ((wordsFrom _ _).map _)
  rw [wordsFrom_ofNat hfirst hlast, List.map_map]
  refine congrArg Except.ok (List.map_congr_left fun i hi => ?_)
  obtain ⟨k, hk, rfl⟩ := List.getElem_of_mem hi
  rw [getElem_placesFrom]
  exact (commandFor_ofWord (position_add_lt hlast hk) active none).symm

/-- The one sum that is checked wraps just if the backups overrun. -/
theorem addWords?_eq_none_iff {first last backup : TraySlot} (hfirst : first.InRange)
    (hlast : last.InRange) (hbackup : backup.InRange) :
    (UInt32.ofNat first.position ≤ UInt32.ofNat last.position ∧
      addWords? (UInt32.ofNat backup.position)
        (UInt32.ofNat last.position - UInt32.ofNat first.position) = none) ↔
      Overruns first last backup := by
  have hf := UInt32.toNat_ofNat_of_lt' hfirst.2
  have hl := UInt32.toNat_ofNat_of_lt' hlast.2
  have hb := UInt32.toNat_ofNat_of_lt' hbackup.2
  rw [← not_iff_not, not_overruns_iff hbackup, not_and, UInt32.le_iff_toNat_le, hf, hl]
  refine forall_congr' fun hle => ?_
  have hsub : (UInt32.ofNat last.position - UInt32.ofNat first.position).toNat =
      last.position - first.position := by
    rw [UInt32.toNat_sub_of_le _ _ (by rw [UInt32.le_iff_toNat_le, hf, hl]; exact hle), hf, hl]
  unfold addWords?
  rw [hsub, hb]
  split_ifs with h
  · exact iff_of_true nofun h
  · exact iff_of_false (fun hne => hne rfl) h

/-- In words a range is expanded alike with backups, although not every sum is checked. -/
theorem expandRangeWithBackup_eq_inWords (first last backup : TraySlot) (active : UInt8) :
    expandRangeWithBackup first last backup active =
      expandRangeWithBackupInWords first last backup active := by
  unfold expandRangeWithBackupInWords
  rw [expandRangeWithBackup_eq, checkWord_eq, checkWord_eq, checkWord_eq]
  -- a slot that does not exist is refused before any sum
  by_cases hfirst : first.InRange
  swap
  · simp only [if_neg hfirst]
    rfl
  by_cases hlast : last.InRange
  swap
  · simp only [if_pos hfirst, if_neg hlast]
    rfl
  by_cases hbackup : backup.InRange
  swap
  · simp only [if_pos hfirst, if_pos hlast, if_neg hbackup]
    rfl
  simp only [if_pos hfirst, if_pos hlast, if_pos hbackup]
  split_ifs with hover
  · exact (if_pos ((addWords?_eq_none_iff hfirst hlast hbackup).2 hover)).symm
  · refine Eq.trans ?_ (if_neg (mt (addWords?_eq_none_iff hfirst hlast hbackup).1 hover)).symm
    show _ = Except.ok ((wordsFrom _ _).mapIdx _)
    rw [wordsFrom_ofNat hfirst hlast]
    refine congrArg Except.ok (List.ext_getElem (by simp) fun k hk _ => ?_)
    rw [List.length_mapIdx] at hk
    have hlt : backup.position + k < UInt32.size := by
      unfold Overruns at hover
      omega
    have hsum : UInt32.ofNat backup.position + UInt32.ofNat k =
        UInt32.ofNat (backup.position + k) := (UInt32.ofNat_add _ _).symm
    rw [List.getElem_mapIdx, List.getElem_mapIdx, List.getElem_map, getElem_placesFrom, hsum,
      TraySlot.ofWord_ofNat hlt, commandFor_ofWord (position_add_lt hlast hk)]

/-! ## The expansion of ranges -/

/-- A range is expanded just if its ends exist and, with backups, the backups do; then its slots are
addressed one by one; and no number wraps that is computed on the way. -/
theorem expansion_exact (first last backup : TraySlot) (active : UInt8) :
    ((∃ commands, expandRange first last active = .ok commands) ↔
      first.InRange ∧ last.InRange) ∧
    (∀ commands, expandRange first last active = .ok commands →
      Covers first last none active commands) ∧
    ((∃ commands, expandRangeWithBackup first last backup active = .ok commands) ↔
      first.InRange ∧ last.InRange ∧ backup.InRange ∧
        (first.position ≤ last.position →
          backup.position + (last.position - first.position) < UInt32.size)) ∧
    (∀ commands, expandRangeWithBackup first last backup active = .ok commands →
      Covers first last (some backup) active commands) ∧
    expandRange first last active = expandRangeInWords first last active ∧
    expandRangeWithBackup first last backup active =
      expandRangeWithBackupInWords first last backup active := by
  refine ⟨?_, fun _ => covers_expandRange, ?_, fun _ => covers_expandRangeWithBackup,
    expandRange_eq_inWords first last active,
    expandRangeWithBackup_eq_inWords first last backup active⟩
  · rw [expandRange_eq]
    split_ifs <;> simp [*]
  · rw [expandRangeWithBackup_eq]
    split_ifs with hfirst hlast hbackup hover
    · have hnot := mt (not_overruns_iff hbackup).2 (not_not_intro hover)
      simpa [hfirst, hlast, hbackup] using hnot
    · have hfits := (not_overruns_iff hbackup).1 hover
      simpa [hfirst, hlast, hbackup] using hfits
    · simp [hbackup]
    · simp [hlast]
    · simp [hfirst]

/-- The backups of four slots may end at the very last slot, but no further. -/
theorem expansion_exact_lastSlots :
    (∃ commands, expandRangeWithBackup ⟨0, 8⟩ ⟨1, 1⟩ ⟨429496729, 2⟩ 1 = .ok commands) ∧
      ¬ ∃ commands, expandRangeWithBackup ⟨0, 8⟩ ⟨1, 1⟩ ⟨429496729, 3⟩ 1 = .ok commands :=
  ⟨(expansion_exact _ _ _ _).2.2.1.2 (by decide),
    fun h => absurd ((expansion_exact _ _ _ _).2.2.1.1 h) (by decide)⟩

/-! ## Whole trays -/

/-- Whether a command is read as one for a slot that exists, and so does its backup. -/
def AddressesExisting (command : String) : Prop :=
  ∃ p : TrayParams, Signature.ofCommand command = ⟨.tray, some p.id, .tray p⟩ ∧
    p.primary.InRange ∧ ∀ b ∈ p.backup, b.InRange

theorem addressesExisting_slotCommand_iff {active : UInt8} {i : Nat} {backup : Option TraySlot} :
    AddressesExisting (slotCommand active i backup) ↔
      (TraySlot.ofIndex i).InRange ∧ ∀ b ∈ backup, b.InRange := by
  constructor
  · rintro ⟨p, hread, hexist⟩
    rw [ofCommand_slotCommand] at hread
    obtain rfl := Parameters.tray.inj (Signature.mk.inj hread).2.2
    exact hexist
  · exact fun h => ⟨_, ofCommand_slotCommand active i backup, h⟩

theorem Covers.addressesExisting {first last : TraySlot} {backup : Option TraySlot}
    {active : UInt8} {commands : List String} (h : Covers first last backup active commands) :
    ∀ command ∈ commands, AddressesExisting command := by
  intro command hmem
  obtain ⟨k, hk, rfl⟩ := List.getElem_of_mem hmem
  obtain ⟨p, hread, hprimary, hbackup, -⟩ := h.addressed k hk
  refine ⟨p, hread, hprimary.1, fun b hb => ?_⟩
  rw [Option.mem_def.1 hb] at hbackup
  cases hbackup with
  | some hat => exact hat.1

/-- Whether all ten slots of a tray exist. -/
def IsWhole (tray : UInt32) : Prop := TraySlot.InRange ⟨tray, 9⟩

theorem isWhole_iff {tray : UInt32} : IsWhole tray ↔ tray.toNat * 10 + 9 < UInt32.size :=
  and_iff_right (show (9 : UInt32).toNat < 10 by decide)

instance : DecidablePred IsWhole := fun _ => decidable_of_iff _ isWhole_iff.symm

theorem IsWhole.inRange {tray : UInt32} (h : IsWhole tray) {k : Nat} (hk : k < 10) :
    TraySlot.InRange ⟨tray, .ofNat k⟩ := by
  have hfits := isWhole_iff.1 h
  have hslot : (UInt32.ofNat k).toNat = k := UInt32.toNat_ofNat_of_lt' (lt_trans hk (by decide))
  refine ⟨?_, ?_⟩
  · show (UInt32.ofNat k).toNat < 10
    omega
  · show tray.toNat * 10 + (UInt32.ofNat k).toNat < UInt32.size
    omega

theorem length_placesFrom_tray (tray : UInt32) : (placesFrom ⟨tray, 0⟩ ⟨tray, 9⟩).length = 10 := by
  rw [length_placesFrom]
  show tray.toNat * 10 + 9 + 1 - (tray.toNat * 10 + 0) = 10
  omega

theorem IsWhole.first {tray : UInt32} (h : IsWhole tray) : TraySlot.InRange ⟨tray, 0⟩ :=
  h.inRange (k := 0) (by decide)

/-- Beside the slots of a tray that exists, those of another one are taken as they are numbered,
whether they exist or not. -/
theorem expandTrayWithBackup_of_isWhole {tray : UInt32} (h : IsWhole tray) (backupTray : UInt32)
    (active : UInt8) :
    expandTrayWithBackup tray backupTray active =
      .ok ((placesFrom ⟨tray, 0⟩ ⟨tray, 9⟩).mapIdx fun k i =>
        slotCommand active i (some ⟨backupTray, .ofNat k⟩)) := by
  unfold expandTrayWithBackup
  show (slotRange ⟨tray, 0⟩ ⟨tray, 9⟩ >>= _) = _
  rw [slotRange_eq, if_pos h.first, if_pos (show TraySlot.InRange ⟨tray, 9⟩ from h)]
  refine congrArg Except.ok (List.ext_getElem (by simp) fun k hk _ => ?_)
  rw [List.length_map, length_placesFrom_tray] at hk
  rw [List.getElem_map, List.getElem_mapIdx, getElem_placesFrom]
  have hslot : (tray.toNat * 10 + 0 + k) % 10 = k := by omega
  show slotCommand _ _ (some ⟨_, .ofNat ((tray.toNat * 10 + 0 + k) % 10)⟩) = _
  rw [hslot]

/-- A tray that is not whole is refused alike, before its backup is looked at. -/
theorem expandTrayWithBackup_of_not_isWhole {tray : UInt32} (h : ¬ IsWhole tray)
    (backupTray : UInt32) (active : UInt8) :
    expandTrayWithBackup tray backupTray active =
      expandRangeWithBackup ⟨tray, 0⟩ ⟨tray, 9⟩ ⟨backupTray, 0⟩ active := by
  unfold expandTrayWithBackup
  rw [expandRangeWithBackup_eq]
  show (slotRange ⟨tray, 0⟩ ⟨tray, 9⟩ >>= _) = _
  have hlast : ¬ TraySlot.InRange ⟨tray, 9⟩ := h
  rw [slotRange_eq, if_neg hlast, if_neg hlast]
  split_ifs <;> rfl

/-- A whole tray with backups is expanded as a range just if the backup tray is whole. -/
theorem expandTrayWithBackup_eq_iff (tray backupTray : UInt32) (active : UInt8) :
    expandTrayWithBackup tray backupTray active =
        expandRangeWithBackup ⟨tray, 0⟩ ⟨tray, 9⟩ ⟨backupTray, 0⟩ active ↔
      (IsWhole tray → IsWhole backupTray) := by
  by_cases h : IsWhole tray
  swap
  · exact iff_of_true (expandTrayWithBackup_of_not_isWhole h backupTray active) fun hw =>
      absurd hw h
  have hlast : TraySlot.InRange ⟨tray, 9⟩ := h
  rw [expandTrayWithBackup_of_isWhole h, expandRangeWithBackup_eq, if_pos h.first, if_pos hlast]
  have hover : Overruns ⟨tray, 0⟩ ⟨tray, 9⟩ ⟨backupTray, 0⟩ ↔ ¬ IsWhole backupTray := by
    rw [Overruns, length_placesFrom_tray, isWhole_iff]
    show UInt32.size ≤ backupTray.toNat * 10 + 0 + 9 ↔ _
    omega
  by_cases hbackup : IsWhole backupTray
  · rw [if_pos hbackup.first, if_neg (mt hover.1 (not_not_intro hbackup))]
    refine iff_of_true (congrArg Except.ok (List.ext_getElem (by simp) fun k hk _ => ?_))
      fun _ => hbackup
    rw [List.length_mapIdx, length_placesFrom_tray] at hk
    have hslot : (UInt32.ofNat k).toNat = k :=
      UInt32.toNat_ofNat_of_lt' (lt_trans hk (by decide))
    have hplace : TraySlot.position ⟨backupTray, 0⟩ + k =
        TraySlot.position ⟨backupTray, .ofNat k⟩ := by
      show backupTray.toNat * 10 + 0 + k = backupTray.toNat * 10 + (UInt32.ofNat k).toNat
      omega
    rw [List.getElem_mapIdx, List.getElem_mapIdx, hplace,
      TraySlot.ofIndex_position (hbackup.inRange hk)]
  · rw [if_pos (hover.2 hbackup)]
    refine iff_of_false ?_ fun hw => hbackup (hw h)
    split_ifs <;> exact nofun

/-- The backups of a whole tray all exist just if their tray is whole. -/
theorem addressesExisting_expandTrayWithBackup_iff (tray backupTray : UInt32) (active : UInt8) :
    (∀ commands, expandTrayWithBackup tray backupTray active = .ok commands →
        ∀ command ∈ commands, AddressesExisting command) ↔
      (IsWhole tray → IsWhole backupTray) := by
  constructor
  · intro h hwhole
    have hlength : 9 < ((placesFrom ⟨tray, 0⟩ ⟨tray, 9⟩).mapIdx fun k i =>
        slotCommand active i (some ⟨backupTray, .ofNat k⟩)).length := by
      rw [List.length_mapIdx, length_placesFrom_tray]
      decide
    have hlast := h _ (expandTrayWithBackup_of_isWhole hwhole backupTray active) _
      (List.getElem_mem hlength)
    rw [List.getElem_mapIdx, addressesExisting_slotCommand_iff] at hlast
    exact hlast.2 _ rfl
  · intro h commands hcommands
    rw [(expandTrayWithBackup_eq_iff tray backupTray active).2 h] at hcommands
    exact (covers_expandRangeWithBackup hcommands).addressesExisting

/-- To expand a whole tray is to expand the range of its slots, and all expansions address slots
that exist, but for one case: a tray that is whole with a backup tray that is not. -/
theorem wholeTray_agrees_iff (tray backupTray : UInt32) (active : UInt8) :
    expandTray tray active = expandRange ⟨tray, 0⟩ ⟨tray, 9⟩ active ∧
    (expandTrayWithBackup tray backupTray active =
        expandRangeWithBackup ⟨tray, 0⟩ ⟨tray, 9⟩ ⟨backupTray, 0⟩ active ↔
      (IsWhole tray → IsWhole backupTray)) ∧
    (∀ commands, expandTray tray active = .ok commands →
      ∀ command ∈ commands, AddressesExisting command) ∧
    ((∀ commands, expandTrayWithBackup tray backupTray active = .ok commands →
        ∀ command ∈ commands, AddressesExisting command) ↔
      (IsWhole tray → IsWhole backupTray)) ∧
    (∀ first last commands, expandRange first last active = .ok commands →
      ∀ command ∈ commands, AddressesExisting command) ∧
    ∀ first last backup commands, expandRangeWithBackup first last backup active = .ok commands →
      ∀ command ∈ commands, AddressesExisting command :=
  ⟨rfl, expandTrayWithBackup_eq_iff tray backupTray active,
    fun _ h => (covers_expandRange h).addressesExisting,
    addressesExisting_expandTrayWithBackup_iff tray backupTray active,
    fun _ _ _ h => (covers_expandRange h).addressesExisting,
    fun _ _ _ _ h => (covers_expandRangeWithBackup h).addressesExisting⟩

/-- The last whole tray may be the backup of any other. -/
theorem wholeTray_agrees_lastTray :
    expandTrayWithBackup 3 429496728 1 = expandRangeWithBackup ⟨3, 0⟩ ⟨3, 9⟩ ⟨429496728, 0⟩ 1 :=
  (wholeTray_agrees_iff 3 429496728 1).2.1.2 fun _ => by decide

/-- The tray behind it has six slots only, but it is taken as a backup with ten. -/
theorem not_wholeTray_agrees_nextTray :
    ∃ commands, expandTrayWithBackup 0 429496729 1 = .ok commands ∧
      expandRangeWithBackup ⟨0, 0⟩ ⟨0, 9⟩ ⟨429496729, 0⟩ 1 =
        .error (.slotOutOfRange ⟨429496729, 0⟩) ∧
      ∃ command ∈ commands, ¬ AddressesExisting command := by
  have hwhole : IsWhole 0 := by decide
  refine ⟨_, expandTrayWithBackup_of_isWhole hwhole 429496729 1, by rfl, ?_⟩
  by_contra hall
  push Not at hall
  have hbackup : IsWhole 429496729 :=
    (addressesExisting_expandTrayWithBackup_iff 0 429496729 1).1
      (fun commands hcommands => by
        rw [expandTrayWithBackup_of_isWhole hwhole] at hcommands
        exact Except.ok.inj hcommands ▸ hall) hwhole
  exact absurd hbackup (by decide)

end Keybinds.Command
