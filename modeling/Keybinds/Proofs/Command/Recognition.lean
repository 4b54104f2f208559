import Keybinds.Proofs.Command.Spelling

/-!
# Commands spelled again

Whatever a command is recognized as can be spelled, in both forms, and what is spelled is recognized
as the same (`spell_signature`). If the command is a known one, its parameters are of the known
command's shape and already as they are read back (`exists_spell?`); if not, its text is the
spelling, which without the blanks at its ends is taken apart alike (`ofCommand_trim`).
-/

namespace Keybinds.Command

open Text (IsWord Trimmed)

/-! ## Tray commands -/

theorem isSome_backup_trayOfArguments (implicit withBackup : Bool) (arguments : List (List Char)) :
    (trayOfArguments implicit withBackup arguments).backup.isSome = withBackup := by
  unfold trayOfArguments
  cases withBackup with
  | false => rfl
  | true => rfl

theorem activeOfText_eq (text : String) : activeOfText text = 0 ∨ activeOfText text = 1 := by
  unfold activeOfText
  split_ifs
  · exact Or.inl rfl
  · exact Or.inr rfl

theorem TrayParams.activeBit_eq_active {p : TrayParams} (h : p.active = 0 ∨ p.active = 1) :
    p.activeBit = p.active := by
  unfold activeBit
  rcases h with h | h
  · rw [h]
    rfl
  · rw [h]
    rfl

/-- The flag that is read is one bit. -/
theorem activeBit_trayOfArguments (implicit withBackup : Bool) (arguments : List (List Char)) :
    (trayOfArguments implicit withBackup arguments).activeBit =
      (trayOfArguments implicit withBackup arguments).active := by
  refine TrayParams.activeBit_eq_active ?_
  unfold trayOfArguments
  cases arguments with
  | nil => exact Or.inr rfl
  | cons flag rest =>
    by_cases hflag : (!implicit &&
        decide ((if withBackup = true then 5 else 3) ≤ (flag :: rest).length)) = true
    · simp only [hflag, if_true]
      exact activeOfText_eq _
    · simp only [hflag]
      exact Or.inr rfl

/-! ## Known commands -/

/-- The parameters that a command of a shape can be read with. -/
inductive Shape.Reads (parts : Parts) : Shape → Parameters → Prop
  | bare : Reads parts .bare .bare
  | tray : Reads parts .tray (.tray (trayOfArguments parts.implicit false parts.arguments))
  | trayBackup :
    Reads parts .trayBackup (.tray (trayOfArguments parts.implicit true parts.arguments))
  | noAmount : Reads parts .amount (.amount none)
  | amount {x : Number.Single} (h : x.isFinite = true) : Reads parts .amount (.amount (some x))
  | ability {w : List Char} (h : IsWord w) : Reads parts .ability (.ability (String.ofList w))
  | text : Reads parts .text (.text (String.ofList parts.rest))

theorem Shape.reads_of_parameters? {shape : Shape} {parts : Parts} {parameters : Parameters}
    (h : shape.parameters? parts = some parameters) : shape.Reads parts parameters := by
  have hwords : ∀ w ∈ parts.arguments, IsWord w := fun _ => Text.isWord_of_mem_words
  unfold Shape.parameters? at h
  split at h
  · obtain rfl := Option.some.inj h
    exact .bare
  · cases h
  · obtain rfl := Option.some.inj h
    exact .tray
  · obtain rfl := Option.some.inj h
    exact .trayBackup
  · obtain rfl := Option.some.inj h
    exact .noAmount
  · obtain ⟨x, hx, rfl⟩ := Option.map_eq_some_iff.1 h
    exact .amount (Option.filter_eq_some_iff.1 hx).2
  · cases h
  · rename_i w harguments
    obtain rfl := Option.some.inj h
    exact .ability (hwords w (by rw [harguments]; exact List.mem_cons_self))
  · cases h
  · obtain rfl := Option.some.inj h
    exact .text

/-- Parameters that a command was read with can be spelled. -/
theorem exists_spell? {d : Definition} {parts : Parts} {parameters : Parameters}
    (h : d.shape.Reads parts parameters) (form : Form) :
    ∃ command, d.spell? form parameters = some command := by
  unfold Definition.spell?
  cases hshape : d.shape <;> rw [hshape] at h <;> cases h
  case bare => exact ⟨_, rfl⟩
  case tray =>
    have hbackup := isSome_backup_trayOfArguments parts.implicit false parts.arguments
    rw [← Option.not_isNone, Bool.not_eq_false'] at hbackup
    exact ⟨_, if_pos hbackup⟩
  case trayBackup =>
    have hbackup := isSome_backup_trayOfArguments parts.implicit true parts.arguments
    exact ⟨_, if_pos hbackup⟩
  case noAmount => exact ⟨_, rfl⟩
  case amount x hfinite => exact ⟨_, if_pos hfinite⟩
  case ability w hword =>
    refine ⟨_, if_neg ?_⟩
    rw [Text.trim_ofList hword.trimmed, Bool.or_eq_true, not_or, String.toList_ofList,
      List.any_eq_true]
    refine ⟨by simpa using hword.1, ?_⟩
    rintro ⟨c, hc, hblank⟩
    rw [hword.2 c hc] at hblank
    cases hblank
  case text => exact ⟨_, rfl⟩

/-- Parameters that a command was read with are as they are read back. -/
theorem asRead_of_reads {shape : Shape} {parts : Parts} (hrest : Trimmed parts.rest)
    {parameters : Parameters} (h : shape.Reads parts parameters) :
    parameters.asRead = parameters := by
  cases h with
  | bare => rfl
  | tray =>
    unfold Parameters.asRead
    dsimp only
    rw [activeBit_trayOfArguments]
  | trayBackup =>
    unfold Parameters.asRead
    dsimp only
    rw [activeBit_trayOfArguments]
  | noAmount => rfl
  | amount => rfl
  | ability hword => exact congrArg Parameters.ability (Text.trim_ofList hword.trimmed)
  | text => exact congrArg Parameters.text (Text.trim_ofList hrest)

/-! ## All commands -/

theorem Parts.trimmed_rest (command : String) : Trimmed (Parts.ofCommand command).rest := by
  unfold Parts.ofCommand
  dsimp only
  exact Text.trimmed_firstWord _

/-- Blanks at the ends of a command do not count. -/
theorem Parts.ofCommand_trim (command : String) :
    Parts.ofCommand (Text.trim command) = Parts.ofCommand command := by
  unfold Parts.ofCommand
  rw [Text.toList_trim, Text.strip_strip]

theorem Signature.ofCommand_trim (command : String) :
    Signature.ofCommand (Text.trim command) = Signature.ofCommand command := by
  unfold Signature.ofCommand resolve
  rw [Parts.ofCommand_trim, Text.trim_trim]

/-- A command is read as a known one, with parameters that its arguments gave, or as its text. -/
theorem Signature.ofCommand_cases (command : String) :
    (∃ d ∈ Definition.known, ∃ parameters, d.shape.Reads (Parts.ofCommand command) parameters ∧
      Signature.ofCommand command = ⟨d.category, some d.id, parameters⟩) ∨
    ∃ category, Signature.ofCommand command = ⟨category, none, .text (Text.trim command)⟩ := by
  unfold Signature.ofCommand resolve
  dsimp only
  generalize Category.ofName (bareName (Parts.ofCommand command).name) = category
  split
  · rename_i id parameters hknown
    refine Or.inl ?_
    simp only [Option.bind_eq_bind, Option.bind_eq_some_iff, Option.filter_eq_some_iff,
      Option.pure_def, Option.some.injEq, Prod.mk.injEq, decide_eq_true_eq] at hknown
    obtain ⟨d, ⟨hd, rfl⟩, ps, hps, rfl, rfl⟩ := hknown
    exact ⟨d, Definition.mem_of_byName? hd, ps, Shape.reads_of_parameters? hps, rfl⟩
  · exact Or.inr ⟨category, rfl⟩

/-- Every command that is not blank can be spelled from its signature, in both forms, and what is
spelled has the same signature. -/
theorem spell_signature {command : String} (h : Text.trim command ≠ "") (form : Form) :
    ∃ spelled, spell form (Signature.ofCommand command).category (Signature.ofCommand command).id
        (Signature.ofCommand command).parameters = .ok spelled ∧
      Signature.ofCommand spelled = Signature.ofCommand command := by
  rcases Signature.ofCommand_cases command with
    ⟨d, hd, parameters, hreads, hsignature⟩ | ⟨category, hsignature⟩
  · obtain ⟨spelled, hspelled⟩ := exists_spell? hreads form
    have hread := ofCommand_of_spell? hd hspelled
    rw [asRead_of_reads (Parts.trimmed_rest command) hreads] at hread
    refine ⟨spelled, ?_, hread.trans hsignature.symm⟩
    have hbyId := (Definition.isSound_of_mem hd).byId
    rw [hsignature]
    unfold spell
    simp only [hbyId, Option.filter_some, decide_true, if_true, hspelled]
  · refine ⟨Text.trim command, ?_, Signature.ofCommand_trim command⟩
    rw [hsignature]
    unfold spell
    dsimp only
    rw [Text.trim_trim, if_neg]
    rwa [String.isEmpty_iff]

/-- A tray command with one plus sign too many and a slot that is no number. -/
theorem spell_signature_oddTray :
    Signature.ofCommand "\u2003++TrayExecByTray 7 x " =
        ⟨.tray, some "tray_exec", .tray { tray := 7, slot := 0 }⟩ ∧
      ∃ spelled, spell .explicit .tray (some "tray_exec") (.tray { tray := 7, slot := 0 }) =
          .ok spelled ∧
        Signature.ofCommand spelled = Signature.ofCommand "\u2003++TrayExecByTray 7 x " := by
  have hsignature : Signature.ofCommand "\u2003++TrayExecByTray 7 x " =
      ⟨.tray, some "tray_exec", .tray { tray := 7, slot := 0 }⟩ := by decide +kernel
  have hblank : Text.trim "\u2003++TrayExecByTray 7 x " ≠ "" := by decide +kernel
  have hspell := spell_signature hblank .explicit
  rw [hsignature] at hspell
  rw [hsignature]
  exact ⟨rfl, hspell⟩

end Keybinds.Command
