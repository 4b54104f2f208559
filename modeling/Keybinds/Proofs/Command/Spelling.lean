import Keybinds.Proofs.Command.Parts
import Keybinds.Proofs.Number.ReadBack

/-!
# Spelled commands read back

What is spelled for a known command is read as that command, with the parameters that it was
spelled with: texts without the blanks at their ends, and the active flag of a tray command as one
bit.
-/

namespace Keybinds.Command

open Text (IsWord Trimmed digits joinWords words)

/-! ## Parameters -/

/-- The parameters as they are read back. -/
def Parameters.asRead : Parameters → Parameters
  | .tray p => .tray { p with active := p.activeBit }
  | .ability name => .ability (Text.trim name)
  | .text words => .text (Text.trim words)
  | parameters => parameters

/-! ## Tray commands -/

namespace TrayParams

/-- The shape of the command that addresses a tray. -/
def shape (p : TrayParams) : Shape := if p.backup.isSome then .trayBackup else .tray

def name (p : TrayParams) : String := if p.backup.isSome then trayBackupName else trayName

/-- The numbers behind the name and the flag. -/
def numbers (p : TrayParams) : List UInt32 :=
  p.tray :: p.slot :: (p.backup.map fun b => [b.tray, b.slot]).getD []

end TrayParams

/-- Numbers as the words of an argument. -/
def numberWords (numbers : List UInt32) : List (List Char) :=
  numbers.map fun n => digits n.toNat

theorem numberAt_numberWords (numbers : List UInt32) (place : Nat) :
    numberAt (numberWords numbers) place = numbers[place]?.getD 0 := by
  unfold numberAt numberWords
  rw [List.getElem?_map]
  cases numbers[place]? with
  | none => rfl
  | some n =>
    show (Text.readUInt32? (digits n.toNat)).getD 0 = n
    rw [Text.readUInt32?_digits]
    rfl

/-- The places of a tray command's numbers. -/
theorem numbers_read (p : TrayParams) (active : UInt8) :
    (⟨numberAt (numberWords p.numbers) 0, numberAt (numberWords p.numbers) 1, active,
      if p.backup.isSome then
        some ⟨numberAt (numberWords p.numbers) 2, numberAt (numberWords p.numbers) 3⟩
      else none⟩ : TrayParams) = { p with active } := by
  simp only [numberAt_numberWords]
  obtain ⟨tray, slot, _, backup⟩ := p
  cases backup with
  | none => rfl
  | some b => rfl

/-- In the implicit form the flag is on. -/
theorem trayOfArguments_implicit (p : TrayParams) :
    trayOfArguments true p.backup.isSome (numberWords p.numbers) = { p with active := 1 } := by
  rw [← numbers_read]
  rfl

theorem length_numberWords (p : TrayParams) :
    (numberWords p.numbers).length = if p.backup.isSome then 4 else 2 := by
  unfold numberWords TrayParams.numbers
  cases p.backup with
  | none => rfl
  | some b => rfl

/-- In the explicit form the flag is the first argument. -/
theorem trayOfArguments_explicit (p : TrayParams) :
    trayOfArguments false p.backup.isSome
      (digits p.activeBit.toNat :: numberWords p.numbers) = { p with active := p.activeBit } := by
  have hflag : activeOfText (String.ofList (digits p.activeBit.toNat)) = p.activeBit := by
    unfold TrayParams.activeBit
    split_ifs
    · decide +kernel
    · decide +kernel
  have hfull : (if p.backup.isSome = true then 5 else 3) ≤ (numberWords p.numbers).length + 1 := by
    rw [length_numberWords]
    split_ifs <;> omega
  rw [← numbers_read]
  unfold trayOfArguments
  simp only [List.length_cons, hfull, hflag, Bool.not_false, Bool.true_and, decide_true, if_true]

/-! ### Their texts -/

theorem isWord_digits (numbers : List Nat) : ∀ w ∈ numbers.map digits, IsWord w := by
  intro w hw
  obtain ⟨n, -, rfl⟩ := List.mem_map.1 hw
  exact Text.isWord_digits n

/-- Spelled numbers are words behind the name. -/
theorem toList_withNumbers (name : String) (numbers : List Nat) :
    (withNumbers name numbers).toList = joinWords (name.toList :: numbers.map digits) := by
  have hwords : (numbers.map toString).map String.toList = numbers.map digits := by
    rw [List.map_map]
    exact List.map_congr_left fun n _ => Text.toList_toString n
  unfold withNumbers
  rw [String.toList_intercalate, List.map_cons, hwords]
  rfl

/-- The numbers are the argument of the name. -/
theorem withNumbers_eq (name : String) (n : Nat) (numbers : List Nat) :
    withNumbers name (n :: numbers) =
      withArgument name (String.ofList (joinWords ((n :: numbers).map digits))) := by
  have hne : joinWords ((n :: numbers).map digits) ≠ [] :=
    (Text.joinWords_trimmed (isWord_digits (n :: numbers))).1
  rw [← String.toList_inj, toList_withNumbers, toList_withArgument, String.toList_ofList,
    if_neg hne]
  exact Text.joinWords_cons (List.cons_ne_nil _ _)

theorem TrayParams.head?_name (p : TrayParams) : (p.name.toList.head? == some '+') = false := by
  unfold name
  split_ifs
  · decide
  · decide

theorem head?_plus (name : String) : (("+" ++ name).toList.head? == some '+') = true := by
  rw [String.toList_append]
  rfl

theorem TrayParams.spell_eq (form : Form) (p : TrayParams) :
    p.spell form =
      if form = .implicit ∧ p.activeBit = 1 then
        withNumbers ("+" ++ p.name) (p.numbers.map UInt32.toNat)
      else withNumbers p.name (p.activeBit.toNat :: p.numbers.map UInt32.toNat) := by
  unfold TrayParams.spell TrayParams.name TrayParams.numbers
  cases p.backup with
  | none => rfl
  | some b => rfl

/-- Whether a tray command can have the character in it. -/
def isSpellingChar (c : Char) : Bool := c.isAlphanum || c == ' ' || c == '+'

theorem all_withNumbers {name : String} (hname : name.toList.all isSpellingChar = true)
    (numbers : List Nat) : (withNumbers name numbers).toList.all isSpellingChar = true := by
  rw [toList_withNumbers, List.all_eq_true]
  intro c hc
  rcases mem_intercalate hc with hspace | ⟨w, hw, hc⟩
  · rw [List.mem_singleton.1 hspace]
    rfl
  · rcases List.mem_cons.1 hw with rfl | hw
    · exact List.all_eq_true.1 hname c hc
    · obtain ⟨n, -, rfl⟩ := List.mem_map.1 hw
      simp [isSpellingChar, Char.isAlphanum, Text.isDigit_of_mem_digits hc]

theorem all_spell (form : Form) (p : TrayParams) :
    (p.spell form).toList.all isSpellingChar = true := by
  have hname : p.name.toList.all isSpellingChar = true := by
    unfold TrayParams.name
    split_ifs
    · decide
    · decide
  rw [TrayParams.spell_eq]
  split_ifs
  · refine all_withNumbers ?_ _
    rw [String.toList_append, List.all_append, hname]
    rfl
  · exact all_withNumbers hname _

/-- A tray command's name and numbers are read as numbers. -/
theorem ofCommand_withNumbers {d : Definition} (hd : d ∈ Definition.known) {name : String}
    (hname : IsName name) (hbare : bareName name = bareName d.name) {p : TrayParams}
    (hshape : d.shape = p.shape) (n : Nat) (numbers : List Nat) :
    Signature.ofCommand (withNumbers name (n :: numbers)) =
      ⟨d.category, some d.id, .tray (trayOfArguments (name.toList.head? == some '+')
        p.backup.isSome ((n :: numbers).map digits))⟩ := by
  have hwords := isWord_digits (n :: numbers)
  rw [withNumbers_eq]
  refine Signature.ofCommand_withArgument hd hname hbare ?_ ?_
  · rw [String.toList_ofList]
    exact (Text.joinWords_trimmed hwords).2
  · rw [hshape, String.toList_ofList]
    unfold TrayParams.shape
    split_ifs with hbackup
    · show some (Parameters.tray (trayOfArguments _ true (words _))) = _
      rw [Text.words_joinWords hwords, hbackup]
    · show some (Parameters.tray (trayOfArguments _ false (words _))) = _
      rw [Text.words_joinWords hwords, eq_false_of_ne_true hbackup]

theorem Definition.name_eq_of_shape {d : Definition} (hd : d ∈ Definition.known) {p : TrayParams}
    (hshape : d.shape = p.shape) : d.name = p.name := by
  have hsound := isSound_of_mem hd
  unfold TrayParams.name
  unfold TrayParams.shape at hshape
  split_ifs at hshape ⊢
  · exact hsound.trayBackupName hshape
  · exact hsound.trayName hshape

/-- In both forms a tray command is read back. -/
theorem ofCommand_spell_tray {d : Definition} (hd : d ∈ Definition.known) {p : TrayParams}
    (hshape : d.shape = p.shape) (form : Form) :
    Signature.ofCommand (p.spell form) =
      ⟨d.category, some d.id, .tray { p with active := p.activeBit }⟩ := by
  have hsound := Definition.isSound_of_mem hd
  have hname := Definition.name_eq_of_shape hd hshape
  have hnumbers : (p.numbers.map UInt32.toNat).map digits = numberWords p.numbers :=
    List.map_map
  rw [TrayParams.spell_eq]
  split_ifs with himplicit
  · have hread := ofCommand_withNumbers hd (hname ▸ isName_plus hsound.isName)
      (by rw [bareName_plus, hname]) hshape p.tray.toNat
      ((p.slot :: (p.backup.map fun b => [b.tray, b.slot]).getD []).map UInt32.toNat)
    rw [head?_plus] at hread
    refine hread.trans ?_
    rw [himplicit.2, ← trayOfArguments_implicit]
    exact congrArg (fun ws => Signature.mk d.category (some d.id)
      (.tray (trayOfArguments true p.backup.isSome ws))) hnumbers
  · rw [ofCommand_withNumbers hd (hname ▸ hsound.isName) (by rw [hname]) hshape, List.map_cons,
      hnumbers, p.head?_name, trayOfArguments_explicit]

/-- The known command that addresses the slots of some parameters. -/
theorem exists_definition (p : TrayParams) :
    ∃ d ∈ Definition.known, d.category = .tray ∧ d.id = p.id ∧ d.shape = p.shape := by
  unfold TrayParams.id TrayParams.shape
  split_ifs
  · exact ⟨⟨"tray_with_backup", "TrayExecByTrayWithBackup", .tray, .trayBackup⟩, by decide, rfl,
      rfl, rfl⟩
  · exact ⟨⟨"tray_exec", "STOTrayExecByTray", .tray, .tray⟩, by decide, rfl, rfl, rfl⟩

theorem isName_name (p : TrayParams) : IsName p.name := by
  obtain ⟨d, hd, -, -, hshape⟩ := exists_definition p
  rw [← Definition.name_eq_of_shape hd hshape]
  exact (Definition.isSound_of_mem hd).isName

/-- A spelled tray command has no blanks at its ends. -/
theorem trimmed_spell (form : Form) (p : TrayParams) :
    (p.spell form).toList ≠ [] ∧ Trimmed (p.spell form).toList := by
  have hwords : ∀ {name : String}, IsName name → ∀ numbers : List Nat,
      (withNumbers name numbers).toList ≠ [] ∧ Trimmed (withNumbers name numbers).toList := by
    intro name hname numbers
    rw [toList_withNumbers]
    exact Text.joinWords_trimmed (List.forall_mem_cons.2 ⟨hname.isWord, isWord_digits numbers⟩)
  rw [TrayParams.spell_eq]
  split_ifs
  · exact hwords (isName_plus (isName_name p)) _
  · exact hwords (isName_name p) _

/-- Whatever slots a tray command addresses, it is read back as that command. -/
theorem ofCommand_trayCommand (form : Form) (p : TrayParams) :
    Signature.ofCommand (p.spell form) =
      ⟨.tray, some p.id, .tray { p with active := p.activeBit }⟩ := by
  obtain ⟨d, hd, hcategory, hid, hshape⟩ := exists_definition p
  rw [ofCommand_spell_tray hd hshape, hcategory, hid]

theorem Definition.spell?_tray_eq_some_iff {d : Definition} {form : Form} {p : TrayParams}
    {command : String} :
    d.spell? form (.tray p) = some command ↔ d.shape = p.shape ∧ p.spell form = command := by
  unfold spell? TrayParams.shape
  cases d.shape <;> cases hbackup : p.backup <;> simp [hbackup]

/-! ## All commands -/

section

variable {d : Definition} (hd : d ∈ Definition.known) {parameters : Parameters}
include hd

/-- A known command whose shape the argument fits, which may be empty. -/
theorem ofCommand_argument {argument : String} (hargument : Trimmed argument.toList)
    (h : d.shape.parameters? ⟨d.name.toList.head? == some '+', Text.dropPlus d.name,
      argument.toList⟩ = some parameters) :
    Signature.ofCommand (withArgument d.name argument) = ⟨d.category, some d.id, parameters⟩ :=
  Signature.ofCommand_withArgument hd (Definition.isSound_of_mem hd).isName rfl hargument h

theorem ofCommand_name (h : d.shape.parameters? ⟨d.name.toList.head? == some '+',
    Text.dropPlus d.name, []⟩ = some parameters) :
    Signature.ofCommand d.name = ⟨d.category, some d.id, parameters⟩ := by
  have hnone : withArgument d.name "" = d.name := rfl
  rw [← hnone]
  exact ofCommand_argument hd ⟨by simp, by simp⟩ h

theorem ofCommand_word {word : String} (hword : IsWord word.toList)
    (h : ∀ parts : Parts, parts.arguments = [word.toList] →
      d.shape.parameters? parts = some parameters) :
    Signature.ofCommand (d.name ++ " " ++ word) = ⟨d.category, some d.id, parameters⟩ := by
  have hargument : withArgument d.name word = d.name ++ " " ++ word := by
    unfold withArgument
    rw [if_neg]
    intro hempty
    apply hword.1
    simpa using hempty
  rw [← hargument]
  exact ofCommand_argument hd hword.trimmed (h _ (Text.words_of_isWord hword))

/-- What is spelled for a known command is read back as that command. -/
theorem ofCommand_of_spell? {form : Form} {command : String}
    (h : d.spell? form parameters = some command) :
    Signature.ofCommand command = ⟨d.category, some d.id, parameters.asRead⟩ := by
  unfold Definition.spell? at h
  split at h
  · rename_i hshape
    obtain rfl := Option.some.inj h
    refine ofCommand_name hd ?_
    rw [hshape]
    rfl
  · rename_i p hshape
    split_ifs at h with hbackup
    obtain rfl := Option.some.inj h
    refine ofCommand_spell_tray hd (hshape.trans ?_) form
    unfold TrayParams.shape
    rw [Option.isNone_iff_eq_none.1 hbackup]
    rfl
  · rename_i p hshape
    split_ifs at h with hbackup
    obtain rfl := Option.some.inj h
    exact ofCommand_spell_tray hd (hshape.trans (if_pos hbackup).symm) form
  · rename_i hshape
    obtain rfl := Option.some.inj h
    refine ofCommand_name hd ?_
    rw [hshape]
    rfl
  · rename_i x hshape
    split_ifs at h with hfinite
    obtain rfl := Option.some.inj h
    refine ofCommand_word hd (isWord_amountText hfinite) fun parts hparts => ?_
    unfold Shape.parameters?
    rw [hshape, hparts]
    dsimp only
    rw [readFinite?_amountText hfinite]
    rfl
  · rename_i name hshape
    dsimp only at h
    split_ifs at h with hbad
    obtain rfl := Option.some.inj h
    rw [Bool.or_eq_true, not_or, Bool.not_eq_true, Bool.not_eq_true, List.any_eq_false] at hbad
    have hne : Text.trim name ≠ "" := by simpa using hbad.1
    have hword : IsWord (Text.trim name).toList :=
      ⟨mt String.toList_eq_nil_iff.1 hne, fun c hc => eq_false_of_ne_true (hbad.2 c hc)⟩
    refine ofCommand_word hd hword fun parts hparts => ?_
    unfold Shape.parameters? Parameters.asRead
    rw [hshape, hparts]
    dsimp only
    rw [String.ofList_toList]
  · rename_i words hshape
    obtain rfl := Option.some.inj h
    refine ofCommand_argument hd (Text.trimmed_trim words) ?_
    unfold Shape.parameters? Parameters.asRead
    rw [hshape]
    dsimp only
    rw [String.ofList_toList]
  · cases h

end

/-- What is spelled for an id is spelled for the known command with that id. -/
theorem spell_eq_ok_iff {form : Form} {category : Category} {id : String} {parameters : Parameters}
    {command : String} :
    spell form category (some id) parameters = .ok command ↔
      ∃ d ∈ Definition.known, d.category = category ∧ d.id = id ∧
        d.spell? form parameters = some command := by
  unfold spell
  dsimp only
  constructor
  · intro h
    split at h
    · cases h
    · rename_i d hfound
      obtain ⟨hid, hcategory⟩ := Option.filter_eq_some_iff.1 hfound
      obtain ⟨hmem, rfl⟩ := Definition.mem_of_byId? hid
      split at h
      · rename_i spelled hspelled
        obtain rfl := Except.ok.inj h
        exact ⟨d, hmem, of_decide_eq_true hcategory, rfl, hspelled⟩
      · cases h
  · rintro ⟨d, hd, rfl, rfl, hspelled⟩
    have hbyId := (Definition.isSound_of_mem hd).byId
    simp only [hbyId, Option.filter_some, decide_true, if_true, hspelled]

/-- The command for any slots can be spelled. -/
theorem spell_trayCommand (form : Form) (p : TrayParams) :
    spell form .tray (some p.id) (.tray p) = .ok (p.spell form) := by
  obtain ⟨d, hd, hcategory, hid, hshape⟩ := exists_definition p
  exact spell_eq_ok_iff.2
    ⟨d, hd, hcategory, hid, Definition.spell?_tray_eq_some_iff.2 ⟨hshape, rfl⟩⟩

/-- Whatever is spelled for an id is read back as the command with that id: in its category, with
the active flag as one bit and with texts without the blanks at their ends. -/
theorem ofCommand_spell {form : Form} {category : Category} {id : String} {parameters : Parameters}
    {command : String} (h : spell form category (some id) parameters = .ok command) :
    Signature.ofCommand command = ⟨category, some id, parameters.asRead⟩ := by
  unfold spell at h
  dsimp only at h
  split at h
  · cases h
  · rename_i d hfound
    obtain ⟨hid, hcategory⟩ := Option.filter_eq_some_iff.1 hfound
    obtain ⟨hmem, rfl⟩ := Definition.mem_of_byId? hid
    obtain rfl := of_decide_eq_true hcategory
    split at h
    · rename_i spelled hspelled
      obtain rfl := Except.ok.inj h
      exact ofCommand_of_spell? hmem hspelled
    · cases h

theorem ofCommand_spell_backup :
    let p : TrayParams := ⟨4294967295, 9, 7, some ⟨0, 4294967295⟩⟩
    spell .implicit .tray (some "tray_with_backup") (.tray p) =
        .ok "+TrayExecByTrayWithBackup 4294967295 9 0 4294967295" ∧
      Signature.ofCommand "+TrayExecByTrayWithBackup 4294967295 9 0 4294967295" =
        ⟨.tray, some "tray_with_backup", .tray { p with active := 1 }⟩ := by
  intro p
  have hspell : spell .implicit .tray (some "tray_with_backup") (.tray p) =
      .ok "+TrayExecByTrayWithBackup 4294967295 9 0 4294967295" :=
    eq_ok_of_toOption (by decide +kernel)
  exact ⟨hspell, ofCommand_spell hspell⟩

end Keybinds.Command
