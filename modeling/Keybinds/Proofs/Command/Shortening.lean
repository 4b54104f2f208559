import Keybinds.Proofs.Command.Recognition
import Keybinds.Proofs.Text.Words

/-!
# Shortened commands

A command is shortened if it is recognized as an active tray command and has no plus sign in front
(`IsShortenable`); any other stays as it is (`shorten_ne_self_iff`). To shorten what is spelled in
the explicit form is to spell it in the implicit one, and what is shortened has the same signature
(`shorten_agrees`).

The signature does not hold all that was written. A word that is no 32-bit number counts as zero,
and words behind the last place are dropped; so a shortened command has the slots that were written
just if the words are such numbers and none is too many (`keepsSlots_iff`).
-/

namespace Keybinds.Command

open Text (digits readSigned?)

/-! ## Spelled tray commands taken apart -/

/-- A name with numbers behind it is taken apart into the name and the digits. -/
theorem Parts.ofCommand_withNumbers {name : String} (hname : IsName name) (n : Nat)
    (numbers : List Nat) :
    (Parts.ofCommand (withNumbers name (n :: numbers))).implicit =
        (name.toList.head? == some '+') ∧
      (Parts.ofCommand (withNumbers name (n :: numbers))).arguments =
        (n :: numbers).map digits := by
  have hwords := isWord_digits (n :: numbers)
  have htrimmed := (Text.joinWords_trimmed hwords).2
  rw [withNumbers_eq, Parts.ofCommand_withArgument hname (by rwa [String.toList_ofList])]
  refine ⟨rfl, ?_⟩
  show Text.words (String.ofList _).toList = _
  rw [String.toList_ofList]
  exact Text.words_joinWords hwords

/-- In the implicit form a plus sign stands in front, and the arguments are the numbers. -/
theorem Parts.ofCommand_spell_implicit {p : TrayParams} (h : p.activeBit = 1) :
    (Parts.ofCommand (p.spell .implicit)).implicit = true ∧
      (Parts.ofCommand (p.spell .implicit)).arguments = numberWords p.numbers := by
  have hnumbers : (p.numbers.map UInt32.toNat).map digits = numberWords p.numbers :=
    List.map_map
  have hparts := ofCommand_withNumbers (isName_plus (isName_name p)) p.tray.toNat
    ((p.slot :: (p.backup.map fun b => [b.tray, b.slot]).getD []).map UInt32.toNat)
  rw [TrayParams.spell_eq, if_pos ⟨rfl, h⟩]
  exact ⟨hparts.1.trans (head?_plus _), hparts.2.trans hnumbers⟩

theorem Parts.implicit_spell_explicit (p : TrayParams) :
    (Parts.ofCommand (p.spell .explicit)).implicit = false := by
  rw [TrayParams.spell_eq, if_neg (by simp), (ofCommand_withNumbers (isName_name p) _ _).1]
  exact p.head?_name

/-! ## What is shortened -/

/-- Two entries of the table take slots. -/
theorem Definition.eq_of_shape : ∀ d ∈ known,
    (d.shape = .tray → d.category = .tray ∧ d.id = "tray_exec") ∧
      (d.shape = .trayBackup → d.category = .tray ∧ d.id = "tray_with_backup") := by
  decide +kernel

theorem Definition.eq_of_shape_eq {d : Definition} (hd : d ∈ known) {p : TrayParams}
    (h : d.shape = p.shape) : d.category = .tray ∧ d.id = p.id := by
  obtain ⟨htray, hbackup⟩ := eq_of_shape d hd
  unfold TrayParams.shape at h
  unfold TrayParams.id
  split_ifs at h ⊢
  · exact hbackup h
  · exact htray h

theorem Shape.Reads.eq_of_tray {shape : Shape} {parts : Parts} {p : TrayParams}
    (h : shape.Reads parts (.tray p)) :
    shape = p.shape ∧ p = trayOfArguments parts.implicit p.backup.isSome parts.arguments := by
  unfold TrayParams.shape
  cases h with
  | tray =>
    rw [isSome_backup_trayOfArguments]
    exact ⟨rfl, rfl⟩
  | trayBackup =>
    rw [isSome_backup_trayOfArguments]
    exact ⟨rfl, rfl⟩

/-- A command that is read as one for slots is a tray command, and its parameters are those that its
arguments give. -/
theorem Signature.eq_of_tray {command : String} {category : Category} {id : String}
    {p : TrayParams} (h : Signature.ofCommand command = ⟨category, some id, .tray p⟩) :
    category = .tray ∧ id = p.id ∧
      p = trayOfArguments (Parts.ofCommand command).implicit p.backup.isSome
        (Parts.ofCommand command).arguments := by
  rcases Signature.ofCommand_cases command with ⟨d, hd, ps, hreads, hread⟩ | ⟨_, hread⟩
  · obtain ⟨rfl, hid, rfl⟩ := Signature.mk.inj (hread.symm.trans h)
    obtain ⟨hshape, hp⟩ := hreads.eq_of_tray
    obtain ⟨hcategory, hname⟩ := Definition.eq_of_shape_eq hd hshape
    exact ⟨hcategory, (Option.some.inj hid).symm.trans hname, hp⟩
  · cases (Signature.mk.inj (hread.symm.trans h)).2.1

/-- An active tray command without a plus sign in front. -/
structure IsShortenable (command : String) (p : TrayParams) : Prop where
  noPlus : (Text.trim command).toList.head? ≠ some '+'
  signature : Signature.ofCommand command = ⟨.tray, some p.id, .tray p⟩
  active : p.active = 1

theorem TrayParams.activeBit_of_active {p : TrayParams} (h : p.active = 1) : p.activeBit = 1 :=
  (activeBit_eq_active (Or.inr h)).trans h

theorem Parts.implicit_eq (command : String) :
    (Parts.ofCommand command).implicit = ((Text.trim command).toList.head? == some '+') := by
  rw [Text.toList_trim]
  rfl

namespace IsShortenable

variable {command : String} {p : TrayParams}

theorem implicit_eq (h : IsShortenable command p) : (Parts.ofCommand command).implicit = false := by
  rw [Parts.implicit_eq]
  simpa using h.noPlus

theorem shorten_eq (h : IsShortenable command p) : shorten command = p.spell .implicit := by
  have hid : p.id = "tray_exec" ∨ p.id = "tray_with_backup" := by
    unfold TrayParams.id
    split_ifs
    · exact Or.inr rfl
    · exact Or.inl rfl
  unfold shorten
  dsimp only
  rw [if_neg h.noPlus, Signature.ofCommand_trim, h.signature]
  exact if_pos ⟨hid, h.active⟩

/-- The implicit form has a plus sign in front. -/
theorem implicit_shorten (h : IsShortenable command p) :
    (Parts.ofCommand (shorten command)).implicit = true := by
  rw [h.shorten_eq]
  exact (Parts.ofCommand_spell_implicit (TrayParams.activeBit_of_active h.active)).1

theorem shorten_ne (h : IsShortenable command p) : shorten command ≠ command := by
  intro heq
  have hplus := h.implicit_shorten
  rw [heq, h.implicit_eq] at hplus
  cases hplus

theorem ofCommand_shorten (h : IsShortenable command p) :
    Signature.ofCommand (shorten command) = Signature.ofCommand command := by
  have hflag : { p with active := p.activeBit } = p := by
    rw [TrayParams.activeBit_of_active h.active, ← h.active]
  rw [h.shorten_eq, ofCommand_trayCommand, hflag, h.signature]

end IsShortenable

theorem shorten_eq_self {command : String} (h : ∀ p, ¬ IsShortenable command p) :
    shorten command = command := by
  unfold shorten
  dsimp only
  by_cases hplus : (Text.trim command).toList.head? = some '+'
  · exact if_pos hplus
  rw [if_neg hplus, Signature.ofCommand_trim]
  split
  · rename_i category id p hread
    refine if_neg fun hactive => h p ⟨hplus, ?_, hactive.2⟩
    obtain ⟨rfl, rfl, -⟩ := Signature.eq_of_tray hread
    exact hread
  · rfl

theorem shorten_ne_self_iff {command : String} :
    shorten command ≠ command ↔ ∃ p, IsShortenable command p := by
  constructor
  · intro hne
    by_contra hnone
    exact hne (shorten_eq_self fun p hp => hnone ⟨p, hp⟩)
  · rintro ⟨p, hp⟩
    exact hp.shorten_ne

theorem shorten_shorten (command : String) : shorten (shorten command) = shorten command := by
  by_cases h : ∃ p, IsShortenable command p
  · obtain ⟨p, hp⟩ := h
    refine shorten_eq_self fun p' hp' => ?_
    have hplus := hp.implicit_shorten
    rw [hp'.implicit_eq] at hplus
    cases hplus
  · have hself := shorten_eq_self fun p hp => h ⟨p, hp⟩
    rw [hself, hself]

theorem ofCommand_shorten (command : String) :
    Signature.ofCommand (shorten command) = Signature.ofCommand command := by
  by_cases h : ∃ p, IsShortenable command p
  · obtain ⟨p, hp⟩ := h
    exact hp.ofCommand_shorten
  · rw [shorten_eq_self fun p hp => h ⟨p, hp⟩]

/-! ## Both spellings -/

/-- An active command for slots in the explicit form is shortened, another one is spelled alike in
both forms. -/
theorem shorten_spell_explicit (p : TrayParams) :
    shorten (p.spell .explicit) = p.spell .implicit := by
  have hread := ofCommand_trayCommand .explicit p
  by_cases hactive : p.activeBit = 1
  · have hshortenable : IsShortenable (p.spell .explicit) { p with active := p.activeBit } := by
      refine ⟨?_, hread, hactive⟩
      have hplus := Parts.implicit_spell_explicit p
      rw [Parts.implicit_eq] at hplus
      simpa using hplus
    rw [hshortenable.shorten_eq, TrayParams.spell_eq, TrayParams.spell_eq,
      if_pos ⟨rfl, TrayParams.activeBit_of_active hactive⟩, if_pos ⟨rfl, hactive⟩]
    rfl
  · have hsame : p.spell .implicit = p.spell .explicit := by
      rw [TrayParams.spell_eq, TrayParams.spell_eq, if_neg fun h => hactive h.2, if_neg (by simp)]
    rw [hsame]
    refine shorten_eq_self fun p' hp' => hactive ?_
    have hparameters := (Signature.mk.inj (hread.symm.trans hp'.signature)).2.2
    exact (congrArg TrayParams.active (Parameters.tray.inj hparameters)).trans hp'.active

/-- Only commands for slots have two forms. -/
theorem Definition.spell?_of_not_tray {d : Definition} {parameters : Parameters}
    (h : ∀ p, parameters ≠ .tray p) (form form' : Form) :
    d.spell? form parameters = d.spell? form' parameters := by
  unfold spell?
  rcases parameters with _ | p | (_ | x) | name | words
  case tray => exact absurd rfl (h p)
  all_goals cases d.shape <;> rfl

/-- Shortened, what is spelled in the explicit form becomes what is spelled in the implicit one. -/
theorem spell?_shorten {d : Definition} (hd : d ∈ Definition.known) {parameters : Parameters}
    {command : String} (h : d.spell? .explicit parameters = some command) :
    d.spell? .implicit parameters = some (shorten command) := by
  cases parameters with
  | tray p =>
    obtain ⟨hshape, rfl⟩ := Definition.spell?_tray_eq_some_iff.1 h
    exact Definition.spell?_tray_eq_some_iff.2 ⟨hshape, (shorten_spell_explicit p).symm⟩
  | _ =>
    -- other commands have one form, and none of them is read as one for slots
    have hself : shorten command = command := by
      refine shorten_eq_self fun p hp => ?_
      have hread := (ofCommand_of_spell? hd h).symm.trans hp.signature
      cases (Signature.mk.inj hread).2.2
    rw [hself, Definition.spell?_of_not_tray (by simp) .implicit .explicit, h]

/-- To shorten a spelled command is to spell it in the implicit form. The signature stays, a
shortened command is not shortened again, and only active tray commands without a plus sign
change. -/
theorem shorten_agrees :
    (∀ category id parameters command,
      spell .explicit category (some id) parameters = .ok command →
        spell .implicit category (some id) parameters = .ok (shorten command)) ∧
    ∀ command, Signature.ofCommand (shorten command) = Signature.ofCommand command ∧
      shorten (shorten command) = shorten command ∧
      (shorten command ≠ command ↔ ∃ p, IsShortenable command p) := by
  refine ⟨fun category id parameters command h => ?_, fun command =>
    ⟨ofCommand_shorten command, shorten_shorten command, shorten_ne_self_iff⟩⟩
  obtain ⟨d, hd, hcategory, hid, hspelled⟩ := spell_eq_ok_iff.1 h
  exact spell_eq_ok_iff.2 ⟨d, hd, hcategory, hid, spell?_shorten hd hspelled⟩

/-- Any flag but zero is active, and it is dropped. -/
theorem shorten_agrees_backup :
    let p : TrayParams := ⟨1, 4294967295, 7, some ⟨0, 3⟩⟩
    spell .explicit .tray (some "tray_with_backup") (.tray p) =
        .ok "TrayExecByTrayWithBackup 1 1 4294967295 0 3" ∧
      spell .implicit .tray (some "tray_with_backup") (.tray p) =
        .ok (shorten "TrayExecByTrayWithBackup 1 1 4294967295 0 3") := by
  intro p
  have hspell : spell .explicit .tray (some "tray_with_backup") (.tray p) =
      .ok "TrayExecByTrayWithBackup 1 1 4294967295 0 3" :=
    eq_ok_of_toOption (by decide +kernel)
  exact ⟨hspell, shorten_agrees.1 _ _ _ _ hspell⟩

/-! ## What a shortened command keeps -/

/-- The words of the shortened command that stand for slots. -/
def shortenedWords (command : String) : List (List Char) :=
  (Parts.ofCommand (shorten command)).arguments

/-- Arguments without the flag, which stands in front if there are more than the given number. -/
def withoutFlag (count : Nat) (arguments : List (List Char)) : List (List Char) :=
  if count < arguments.length then arguments.tail else arguments

/-- The words that stand for slots before: all behind the name, without the flag in front of a full
list. -/
def slotWords (command : String) : List (List Char) :=
  withoutFlag (shortenedWords command).length (Parts.ofCommand command).arguments

/-- The number that a word, or a missing one, is taken for. -/
def slotNumber (word? : Option (List Char)) : Int :=
  ((word?.bind readSigned?).filter fun n : Int => 0 ≤ n ∧ n < UInt32.size).getD 0

/-- The shortened command addresses what was written: each word is a number, and the same number
stands at its place. Behind them there are zeros. -/
structure KeepsSlots (command : String) : Prop where
  kept : ∀ (place : Nat) (word : List Char), (slotWords command)[place]? = some word →
    ∃ n, readSigned? word = some n ∧ (shortenedWords command)[place]?.bind readSigned? = some n
  filled : ∀ (place : Nat) (word : List Char), (slotWords command)[place]? = none →
    (shortenedWords command)[place]? = some word → readSigned? word = some 0

/-- No word is dropped. -/
theorem KeepsSlots.place_lt {command : String} (h : KeepsSlots command) {place : Nat}
    (hplace : place < (slotWords command).length) : place < (shortenedWords command).length := by
  obtain ⟨n, -, hn⟩ := h.kept place _ (List.getElem?_eq_getElem hplace)
  obtain ⟨word, hword, -⟩ := Option.bind_eq_some_iff.1 hn
  exact (List.getElem?_eq_some_iff.1 hword).1

theorem not_keepsSlots {command shortened : String} (h : shorten command = shortened) (place : Nat)
    (word : List Char)
    (hword : (withoutFlag (Parts.ofCommand shortened).arguments.length
      (Parts.ofCommand command).arguments)[place]? = some word)
    (hother : (Parts.ofCommand shortened).arguments[place]?.bind readSigned? ≠ readSigned? word) :
    ¬ KeepsSlots command := by
  subst h
  intro hkeeps
  obtain ⟨n, hread, hn⟩ := hkeeps.kept place word hword
  exact hother (hn.trans hread.symm)

/-- A word is taken for the number that it spells if that number fits 32 bits. -/
theorem readSigned?_eq_slotNumber_iff {word : List Char} :
    readSigned? word = some (slotNumber (some word)) ↔
      ∃ n : UInt32, readSigned? word = some (n.toNat : Int) := by
  unfold slotNumber
  rw [Option.bind_some]
  cases readSigned? word with
  | none => simp
  | some n =>
    by_cases hn : 0 ≤ n ∧ n < UInt32.size
    · have hsmall : n.toNat < UInt32.size := by omega
      rw [Option.filter_some, if_pos (decide_eq_true hn)]
      refine iff_of_true rfl ⟨.ofNat n.toNat, congrArg some ?_⟩
      rw [UInt32.toNat_ofNat_of_lt' hsmall, Int.toNat_of_nonneg hn.1]
    · rw [Option.filter_some, if_neg (by simpa using hn)]
      refine iff_of_false (fun heq => hn ?_) fun ⟨k, hk⟩ => hn ?_
      · obtain rfl : n = 0 := Option.some.inj heq
        decide
      · obtain rfl := Option.some.inj hk
        exact ⟨Int.natCast_nonneg _, Int.ofNat_lt.2 k.toNat_lt⟩

theorem toNat_numberAt (words : List (List Char)) (place : Nat) :
    ((numberAt words place).toNat : Int) = slotNumber words[place]? := by
  unfold numberAt slotNumber
  cases words[place]? with
  | none => rfl
  | some word =>
    rw [Option.bind_some, Option.bind_some]
    unfold Text.readUInt32?
    cases hread : Text.readUnsigned? UInt32.size word with
    | some k =>
      obtain ⟨-, hsigned, hk⟩ :=
        Text.readUnsigned?_eq_some_iff.1 (congrArg (Option.map Int.ofNat) hread)
      have hsmall : k < UInt32.size := Int.ofNat_lt.1 hk
      rw [hsigned, Option.filter_some, if_pos (by simp [hsmall]), Option.map_some]
      exact congrArg Int.ofNat (UInt32.toNat_ofNat_of_lt' hsmall)
    | none =>
      -- only a zero with a minus sign is a number in range, and it counts as zero too
      have hzero : ∀ n ∈ readSigned? word, 0 ≤ n ∧ n < UInt32.size → n = 0 := by
        intro n hsigned hn
        by_contra hne
        refine Option.some_ne_none n (Eq.trans (Eq.symm ?_) (congrArg (Option.map Int.ofNat) hread))
        refine Text.readUnsigned?_eq_some_iff.2 ⟨fun hminus => hne ?_, hsigned, hn.2⟩
        exact le_antisymm (Text.nonpos_of_readSigned? hsigned hminus) hn.1
      cases hsigned : readSigned? word with
      | none => rfl
      | some n =>
        rw [Option.filter_some]
        split_ifs with hn
        · exact (hzero n hsigned (of_decide_eq_true hn)).symm
        · rfl

/-- In the explicit form the numbers of slots stand behind the flag of a full list. -/
theorem numbers_trayOfArguments (withBackup : Bool) (arguments : List (List Char)) :
    let count := if withBackup then 4 else 2
    (trayOfArguments false withBackup arguments).numbers =
      (List.range count).map (numberAt (withoutFlag count arguments)) := by
  intro count
  have hfull : (if withBackup then 5 else 3) = count + 1 := by cases withBackup <;> rfl
  have hflag : ∃ active, trayOfArguments false withBackup arguments =
      let slots := withoutFlag count arguments
      ⟨numberAt slots 0, numberAt slots 1, active,
        if withBackup then some ⟨numberAt slots 2, numberAt slots 3⟩ else none⟩ := by
    unfold trayOfArguments withoutFlag
    rw [hfull]
    cases arguments with
    | nil => exact ⟨1, rfl⟩
    | cons flag rest =>
      by_cases h : count + 1 ≤ (flag :: rest).length
      · refine ⟨activeOfText (String.ofList flag), ?_⟩
        simp only [h, Nat.lt_of_succ_le h, Bool.not_false, Bool.true_and, decide_true, if_true,
          List.tail_cons]
      · refine ⟨1, ?_⟩
        simp only [h, show ¬ count < (flag :: rest).length from h, Bool.not_false, Bool.true_and,
          decide_false, if_false, Bool.false_eq_true]
  obtain ⟨active, hread⟩ := hflag
  rw [hread]
  cases withBackup with
  | false => rfl
  | true => rfl

/-- At each place stands the number that the word there is taken for. -/
theorem IsShortenable.shortenedWords_eq {command : String} {p : TrayParams}
    (h : IsShortenable command p) :
    shortenedWords command = (List.range (shortenedWords command).length).map
      fun place => digits (numberAt (slotWords command) place).toNat := by
  have hwords : shortenedWords command = numberWords p.numbers := by
    unfold shortenedWords
    rw [h.shorten_eq]
    exact (Parts.ofCommand_spell_implicit (TrayParams.activeBit_of_active h.active)).2
  have hp := (Signature.eq_of_tray h.signature).2.2
  have hnumbers := numbers_trayOfArguments p.backup.isSome (Parts.ofCommand command).arguments
  rw [h.implicit_eq] at hp
  rw [← hp, ← length_numberWords, ← hwords] at hnumbers
  calc shortenedWords command = numberWords p.numbers := hwords
    _ = numberWords ((List.range (shortenedWords command).length).map
          (numberAt (slotWords command))) := congrArg numberWords hnumbers
    _ = _ := List.map_map

/-- Each place of a shortened command has the number that the word there was taken for. Those are
the numbers that were written if all words are numbers of 32 bits and none is left over, and only
then. -/
theorem keepsSlots_iff {command : String} (h : shorten command ≠ command) :
    (∀ place < (shortenedWords command).length,
      (shortenedWords command)[place]?.bind readSigned? =
        some (slotNumber (slotWords command)[place]?)) ∧
    (KeepsSlots command ↔
      (slotWords command).length ≤ (shortenedWords command).length ∧
        ∀ word ∈ slotWords command, ∃ n : UInt32, readSigned? word = some (n.toNat : Int)) := by
  obtain ⟨p, hp⟩ := shorten_ne_self_iff.1 h
  have hplaces : ∀ place < (shortenedWords command).length,
      (shortenedWords command)[place]?.bind readSigned? =
        some (slotNumber (slotWords command)[place]?) := by
    intro place hplace
    rw [hp.shortenedWords_eq, List.getElem?_map, List.getElem?_range hplace, Option.map_some,
      Option.bind_some, Text.readSigned?_digits, toNat_numberAt]
  refine ⟨hplaces, fun hkeeps => ⟨?_, fun word hword => ?_⟩, fun ⟨hlength, hwords⟩ => ⟨?_, ?_⟩⟩
  · by_contra hlong
    exact (hkeeps.place_lt (Nat.lt_of_not_le hlong)).false
  · obtain ⟨place, hplace⟩ := List.mem_iff_getElem?.1 hword
    obtain ⟨n, hread, hn⟩ := hkeeps.kept place word hplace
    refine readSigned?_eq_slotNumber_iff.1 (hread.trans ?_)
    rw [← hn, hplaces place (hkeeps.place_lt (List.getElem?_eq_some_iff.1 hplace).1), hplace]
  · intro place word hplace
    obtain ⟨hlt, hmem⟩ := List.getElem?_eq_some_iff.1 hplace
    refine ⟨slotNumber (some word), readSigned?_eq_slotNumber_iff.2 ?_, ?_⟩
    · exact hwords word (hmem ▸ List.getElem_mem hlt)
    · rw [hplaces place (hlt.trans_le hlength), hplace]
  · intro place word hmissing hplace
    have hread := hplaces place (List.getElem?_eq_some_iff.1 hplace).1
    rwa [hplace, hmissing] at hread

/-- A flag in words, a sign and zeros in front of a number: the slot stays. -/
theorem keepsSlots_signed : KeepsSlots "TrayExecByTray yes +3 007" := by
  have hshort : shorten "TrayExecByTray yes +3 007" = "+STOTrayExecByTray 3 7" := by
    decide +kernel
  have hshortened : shortenedWords "TrayExecByTray yes +3 007" = ["3".toList, "7".toList] := by
    unfold shortenedWords
    rw [hshort]
    decide +kernel
  have hwords : slotWords "TrayExecByTray yes +3 007" = ["+3".toList, "007".toList] := by
    unfold slotWords
    rw [hshortened]
    decide +kernel
  refine (keepsSlots_iff (by rw [hshort]; decide)).2.2 ?_
  rw [hwords, hshortened, List.forall_mem_cons, List.forall_mem_singleton]
  exact ⟨le_refl _, ⟨3, by decide +kernel⟩, ⟨7, by decide +kernel⟩⟩

/-- A number beyond 32 bits and a word that is no number become zero, and a number behind the last
place is dropped. -/
theorem not_keepsSlots_beyond :
    (shorten "STOTrayExecByTray 1 4294967296 3" = "+STOTrayExecByTray 0 3" ∧
      ¬ KeepsSlots "STOTrayExecByTray 1 4294967296 3") ∧
    (shorten "STOTrayExecByTray 1 x 3" = "+STOTrayExecByTray 0 3" ∧
      ¬ KeepsSlots "STOTrayExecByTray 1 x 3") ∧
    (shorten "STOTrayExecByTray 1 2 3 4" = "+STOTrayExecByTray 2 3" ∧
      ¬ KeepsSlots "STOTrayExecByTray 1 2 3 4") := by
  have hnumber : shorten "STOTrayExecByTray 1 4294967296 3" = "+STOTrayExecByTray 0 3" := by
    decide +kernel
  have hword : shorten "STOTrayExecByTray 1 x 3" = "+STOTrayExecByTray 0 3" := by
    decide +kernel
  have hsurplus : shorten "STOTrayExecByTray 1 2 3 4" = "+STOTrayExecByTray 2 3" := by
    decide +kernel
  refine ⟨⟨hnumber, not_keepsSlots hnumber 0 "4294967296".toList ?_ ?_⟩,
    ⟨hword, not_keepsSlots hword 0 "x".toList ?_ ?_⟩,
    hsurplus, not_keepsSlots hsurplus 2 "4".toList ?_ ?_⟩
  all_goals decide +kernel

end Keybinds.Command
