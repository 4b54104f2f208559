import Keybinds.Proofs.Command.Spelling
import Keybinds.Stored.Commands

/-!
# Objects that describe a tray slot

An object without a command may still describe a tray slot by its parameters. It is refused because
of the first of four fields whose number is looked at and fits no 32 bits
(`IsTrayEntry.refused_iff`). Of the numbers that a value may state, those are looked at that JSON
holds as whole numbers, and in texts those without a minus that fit 64 bits
(`wholeNumber?_eq_some_iff`). Any other number counts as none, so that the field is zero.
-/

namespace Keybinds

open Json (Value)

/-! ## Numbers of values -/

/-- The whole number that a finite number is, if it is one. -/
def Number.Binary.whole? {f : Number.Format} (x : Number.Binary f) : Option Int :=
  if x.isFinite ∧ f.one ∣ x.units then
    some (if x.negative then -(x.units / f.one : Nat) else (x.units / f.one : Nat))
  else none

namespace Command

/-- The whole number that a value states: it is one, or a text that spells one, with a sign or
without. -/
def statedNumber? : Value → Option Int
  | .number (.int n) => some n
  | .number (.real x) => x.whole?
  | .string s => Text.readSigned? (Text.strip s.toList)
  | _ => none

/-- Whether the number that a value states is looked at. -/
def IsLookedAt : Value → Prop
  | .number (.int _) => True
  | .string s =>
    (Text.strip s.toList).head? ≠ some '-' ∧
      ∀ n ∈ Text.readSigned? (Text.strip s.toList), n < UInt64.size
  | _ => False

/-- Whether a number fits no 32 bits. -/
def Oversized (n : Int) : Prop := ¬ (0 ≤ n ∧ n < UInt32.size)

instance : DecidablePred Oversized := fun n =>
  inferInstanceAs (Decidable (¬ (0 ≤ n ∧ n < UInt32.size)))

/-- A number is read just if it is stated and looked at. -/
theorem wholeNumber?_eq_some_iff {v : Value} {n : Int} :
    wholeNumber? v = some n ↔ statedNumber? v = some n ∧ IsLookedAt v := by
  cases v with
  | null => simp [wholeNumber?, statedNumber?]
  | bool b => simp [wholeNumber?, statedNumber?]
  | array items => simp [wholeNumber?, statedNumber?]
  | object members => simp [wholeNumber?, statedNumber?]
  | number x =>
    cases x with
    | int m => exact (and_iff_left trivial).symm
    | real x => exact iff_of_false nofun fun h => h.2
  | string s =>
    refine Text.readUnsigned?_eq_some_iff.trans ?_
    show _ ↔ Text.readSigned? _ = some n ∧ _ ≠ _ ∧ _
    constructor
    · rintro ⟨hsign, hread, hbound⟩
      refine ⟨hread, hsign, fun m hm => ?_⟩
      rw [hread] at hm
      obtain rfl := Option.some.inj hm
      exact hbound
    · rintro ⟨hread, hsign, hbound⟩
      exact ⟨hsign, hread, hbound n hread⟩

/-! ## Fields -/

/-- The names of the fields that hold numbers, in the order in which they are read. -/
def trayFieldNames : List String := ["backup_tray", "backup_slot", "tray", "slot"]

/-- What is wrong with a field. -/
def trayFault? (fields : Dict Value) (name : String) : Option RangeFault :=
  (((fields.get? name).bind wholeNumber?).filter (Oversized ·)).map (RangeFault.mk name)

theorem stopsAtFirst_trayField (fields : Dict Value) (name : String) :
    StopsAtFirst (trayField fields name) (trayFault? fields name).toList := by
  unfold trayField trayFault?
  cases (fields.get? name).bind wholeNumber? with
  | none => rfl
  | some n =>
    show StopsAtFirst (if 0 ≤ n ∧ n < UInt32.size then _ else _) _
    rw [Option.filter_some]
    by_cases h : 0 ≤ n ∧ n < UInt32.size
    · rw [if_pos h, decide_eq_false (show ¬ Oversized n from not_not_intro h)]
      rfl
    · rw [if_neg h, decide_eq_true (show Oversized n from h)]
      rfl

theorem stopsAtFirst_ofFields (fields : Dict Value) :
    StopsAtFirst (TrayParams.ofFields fields) (trayFieldNames.filterMap (trayFault? fields)) := by
  unfold trayFieldNames
  simp only [filterMap_cons_toList]
  exact (stopsAtFirst_trayField fields _).bind fun _ _ =>
    (stopsAtFirst_trayField fields _).bind fun _ _ =>
      (stopsAtFirst_trayField fields _).bind fun _ _ =>
        (stopsAtFirst_trayField fields _).bind fun _ _ => rfl

/-- A field whose value states a number that fits no 32 bits. -/
structure IsOversized (fields : Dict Value) (name : String) (v : Value) (n : Int) : Prop where
  isField : name ∈ trayFieldNames
  value : fields.get? name = some v
  number : statedNumber? v = some n
  oversized : Oversized n

theorem trayFault?_eq_some_iff {fields : Dict Value} {name : String} {fault : RangeFault} :
    name ∈ trayFieldNames ∧ trayFault? fields name = some fault ↔
      ∃ v n, IsOversized fields name v n ∧ IsLookedAt v ∧ fault = ⟨name, n⟩ := by
  unfold trayFault?
  simp only [Option.map_eq_some_iff, Option.filter_eq_some_iff, Option.bind_eq_some_iff,
    wholeNumber?_eq_some_iff, decide_eq_true_eq]
  constructor
  · rintro ⟨hname, n, ⟨⟨v, hvalue, hnumber, hlooked⟩, hover⟩, rfl⟩
    exact ⟨v, n, ⟨hname, hvalue, hnumber, hover⟩, hlooked, rfl⟩
  · rintro ⟨v, n, ⟨hname, hvalue, hnumber, hover⟩, hlooked, rfl⟩
    exact ⟨hname, n, ⟨⟨v, hvalue, hnumber, hlooked⟩, hover⟩, rfl⟩

end Command

namespace Stored

open Command (IsOversized IsLookedAt TrayParams trayFault? trayFieldNames)

/-- An object without a command that describes a tray slot by parameters. -/
structure IsTrayEntry (fields parameters : Dict Value) : Prop where
  noCommand : ∀ command, fields.get? "command" ≠ some (.string command)
  saysTray : saysTray fields = true
  parameters : (fields.get? "parameters").bind Value.asObject? = some parameters

variable {fields parameters : Dict Value}

/-- Every command for a slot can be spelled, so only the parameters are refused. -/
theorem IsTrayEntry.richCommand_eq (h : IsTrayEntry fields parameters) :
    richCommand fields =
      ((TrayParams.ofFields parameters).map (·.spell .implicit)).mapError .trayParameters := by
  unfold richCommand
  split
  · exact absurd ‹_› (h.noCommand _)
  · simp only [h.parameters, h.saysTray, Command.spell_trayCommand]
    cases TrayParams.ofFields parameters <;> rfl

theorem IsTrayEntry.stopsAtFirst (h : IsTrayEntry fields parameters) :
    StopsAtFirst (richCommand fields)
      ((trayFieldNames.filterMap (trayFault? parameters)).map .trayParameters) := by
  have hfields := Command.stopsAtFirst_ofFields parameters
  rw [h.richCommand_eq]
  cases hof : TrayParams.ofFields parameters with
  | ok p =>
    rw [hof] at hfields
    exact congrArg (List.map _) hfields
  | error fault =>
    rw [hof] at hfields
    show List.head? (List.map _ _) = _
    rw [List.head?_map]
    exact congrArg (Option.map _) hfields

/-- The object is refused just because of an oversized number that is looked at, and the fault names
such a field and its number. -/
theorem IsTrayEntry.refused_iff (h : IsTrayEntry fields parameters) :
    ((∃ fault, richCommand fields = .error fault) ↔
        ∃ name v n, IsOversized parameters name v n ∧ IsLookedAt v) ∧
      ∀ fault, richCommand fields = .error fault →
        ∃ name v n, IsOversized parameters name v n ∧ IsLookedAt v ∧
          fault = .trayParameters ⟨name, n⟩ := by
  have hnamed : ∀ fault, richCommand fields = .error fault →
      ∃ name v n, IsOversized parameters name v n ∧ IsLookedAt v ∧
        fault = .trayParameters ⟨name, n⟩ := by
    intro fault hfault
    obtain ⟨range, hrange, rfl⟩ :=
      List.mem_map.1 (List.mem_of_head? (h.stopsAtFirst.eq_error_iff.1 hfault))
    obtain ⟨name, hname, hwrong⟩ := List.mem_filterMap.1 hrange
    obtain ⟨v, n, hover, hlooked, rfl⟩ := Command.trayFault?_eq_some_iff.1 ⟨hname, hwrong⟩
    exact ⟨name, v, n, hover, hlooked, rfl⟩
  refine ⟨⟨?_, ?_⟩, hnamed⟩
  · rintro ⟨fault, hfault⟩
    obtain ⟨name, v, n, hover, hlooked, -⟩ := hnamed fault hfault
    exact ⟨name, v, n, hover, hlooked⟩
  · rintro ⟨name, v, n, hover, hlooked⟩
    obtain ⟨hname, hwrong⟩ := Command.trayFault?_eq_some_iff.2 ⟨v, n, hover, hlooked, rfl⟩
    have hmem : RichFault.trayParameters ⟨name, n⟩ ∈
        (trayFieldNames.filterMap (trayFault? parameters)).map RichFault.trayParameters :=
      List.mem_map_of_mem (List.mem_filterMap.2 ⟨name, hname, hwrong⟩)
    cases hrich : richCommand fields with
    | ok command =>
      rw [h.stopsAtFirst.exists_ok_iff.1 ⟨command, hrich⟩] at hmem
      exact absurd hmem List.not_mem_nil
    | error fault => exact ⟨fault, rfl⟩

end Stored

end Keybinds
