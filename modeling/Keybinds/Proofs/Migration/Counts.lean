import Keybinds.Proofs.Migration.Contract
import Keybinds.Proofs.Migration.Entries
import Mathlib.Algebra.GroupWithZero.Nat

/-!
# What a tally counts

A tally counts the entries that were not canonical and are made so. Of these it counts the texts
that hold a separator, where those are meant that hold several commands, and the elements of which
no command can be read, where those are meant that give none. So a text with a separator but at most
one command is counted too many, and an object with a blank command is not counted
(`countsAsDocumented_iff`).
-/

namespace Keybinds.Migration

open Stored (Element Commands Document)

variable {α : Type}

/-! ## Sums -/

theorem sum_map_ite (p : α → Bool) (f : α → Nat) (xs : List α) :
    (xs.map fun x => if p x then f x else 0).sum = ((xs.filter p).map f).sum := by
  induction xs with
  | nil => rfl
  | cons x xs ih =>
    rw [List.map_cons, List.sum_cons, ih]
    by_cases h : p x = true
    · rw [List.filter_cons_of_pos h, List.map_cons, List.sum_cons, if_pos h]
    · rw [List.filter_cons_of_neg h, if_neg h, Nat.zero_add]

/-! ## Counted entries -/

/-- The entries that were not canonical, as far as what is found of them later passes a test. -/
def looseEntries (behind : Option Entry → Bool) (before after : Document) : List Entry :=
  ((storedEntries before).filter fun e =>
    !e.2.canonical && behind ((storedEntries after).lookup e.1)).map Prod.snd

/-- The entries that were not canonical and are still there. -/
def keptLoose (before after : Document) : List Entry :=
  looseEntries Option.isSome before after

/-- The entries that were not canonical and are made so. -/
def madeCanonical (before after : Document) : List Entry :=
  looseEntries (Option.any Entry.canonical) before after

/-- A number of a tally that adds up a number of each entry that is made canonical. -/
structure CountsOver (f : Tally → Nat) (g : Option Commands → Nat) : Prop where
  zero : f {} = 0
  add : ∀ a b, f (a.add b) = f a + f b
  entry : ∀ id before after, f (tallyEntry id before after) =
    if !before.canonical && after.any Entry.canonical then g before.commands else 0

theorem counted_tallyEntry (id : String) (before : Entry) (after : Option Entry) :
    (tallyEntry id before after).stringsSplit =
        (if !before.canonical && after.any Entry.canonical then textsSplit before.commands
          else 0) ∧
      (tallyEntry id before after).entriesDropped =
        if !before.canonical && after.any Entry.canonical then droppedCount before.commands
        else 0 := by
  cases after with
  | none => simp [tallyEntry]
  | some after =>
    cases hbefore : before.canonical <;> cases hafter : after.canonical <;>
      simp [tallyEntry, hbefore, hafter]

theorem countsOver_stringsSplit : CountsOver Tally.stringsSplit textsSplit where
  zero := rfl
  add _ _ := rfl
  entry id before after := (counted_tallyEntry id before after).1

theorem countsOver_entriesDropped : CountsOver Tally.entriesDropped droppedCount where
  zero := rfl
  add _ _ := rfl
  entry id before after := (counted_tallyEntry id before after).2

namespace CountsOver

variable {f : Tally → Nat} {g : Option Commands → Nat}

theorem sum (h : CountsOver f g) (ts : List Tally) : f (Tally.sum ts) = (ts.map f).sum := by
  have hfold : ∀ t, f (ts.foldl Tally.add t) = f t + (ts.map f).sum := by
    induction ts with
    | nil => exact fun t => rfl
    | cons u ts ih =>
      intro t
      rw [List.foldl_cons, ih, h.add, List.map_cons, List.sum_cons, Nat.add_assoc]
  unfold Tally.sum
  rw [hfold, h.zero, Nat.zero_add]

/-- Where the names of environments are plain, the number adds up over the entries that are made
canonical, each once. -/
theorem tally (h : CountsOver f g) {before after : Document} (hbefore : NamesPlain before)
    (hafter : NamesPlain after) :
    f (Migration.tally before after) =
      ((madeCanonical before after).map fun e => g e.commands).sum := by
  have hstep : ∀ e ∈ storedEntries before,
      f (tallyEntry e.1.entryId e.2 ((entries after).get? e.1.entryId)) =
        if !e.2.canonical && ((storedEntries after).lookup e.1).any Entry.canonical then
          g e.2.commands
        else 0 := by
    intro e he
    rw [h.entry, get?_entries hafter (hbefore.storedEntries e he)]
  unfold Migration.tally madeCanonical looseEntries
  rw [h.sum, entries_eq hbefore, withIds, List.map_map, List.map_map, List.map_map]
  exact (congrArg List.sum (List.map_congr_left hstep)).trans (sum_map_ite _ _ _)

end CountsOver

/-! ## Texts and parts -/

/-- The texts of a stored value: itself, or the plain elements of a list. -/
def textsOf : Option Commands → List String
  | some (.text s) => [s]
  | some (.list items) => items.filterMap fun
    | .plain s => some s
    | _ => none
  | _ => []

/-- What a stored value is interpreted by: the elements of a list, nothing further of a text, and
the whole, here `none`, of anything else. -/
def partsOf : Option Commands → List (Option Element)
  | some (.text _) => []
  | some (.list items) => items.map some
  | _ => [none]

theorem textsSplit_eq (c : Option Commands) :
    textsSplit c = (textsOf c).countP Chain.hasSeparator := by
  match c with
  | none => rfl
  | some (.malformed _) => rfl
  | some (.text s) => exact List.countP_singleton.symm
  | some (.list items) =>
    show items.countP isJoined = (items.filterMap _).countP Chain.hasSeparator
    rw [List.countP_filterMap]
    refine List.countP_congr fun e _ => ?_
    cases e <;> simp [isJoined]

theorem droppedCount_eq (c : Option Commands) :
    droppedCount c = (partsOf c).countP (Option.all isDropped) := by
  match c with
  | none => rfl
  | some (.malformed _) => rfl
  | some (.text _) => rfl
  | some (.list items) =>
    show items.countP isDropped = (items.map some).countP _
    rw [List.countP_map]
    rfl

/-- Whether a text holds more than one command. -/
def holdsSeveral (s : String) : Bool := 2 ≤ (Chain.split s).length

/-- Whether a text holds a separator, but not more than one command. -/
def isLone (s : String) : Bool := Chain.hasSeparator s && !holdsSeveral s

/-- Whether a part gives no command. -/
def isFruitless (part : Option Element) : Bool := part.all fun e => e.commands.isEmpty

/-- Whether a part is an object that has a command, which is blank. -/
def isBlankObject : Option Element → Bool
  | some (.rich fields) => (Stored.richCommand fields).toOption.any fun s => (Chain.split s).isEmpty
  | _ => false

theorem hasSeparator_of_holdsSeveral {s : String} (h : holdsSeveral s = true) :
    Chain.hasSeparator s = true := by
  have hlength : (Chain.split s).length ≤ (Chain.scan s).parts.length :=
    (List.length_filter_le _ _).trans (List.length_map _).le
  have hseveral : 2 ≤ (Chain.split s).length := of_decide_eq_true h
  have hparts : 0 < (Chain.scan s).parts.length - 1 := by omega
  exact decide_eq_true hparts

theorem countP_hasSeparator (texts : List String) :
    texts.countP Chain.hasSeparator = texts.countP holdsSeveral + texts.countP isLone := by
  refine countP_eq_add (fun s => ?_) (fun s => ?_) texts
  · unfold isLone
    cases hseveral : holdsSeveral s with
    | false => simp
    | true =>
      rw [hasSeparator_of_holdsSeveral hseveral]
      rfl
  · unfold isLone
    cases holdsSeveral s <;> simp

theorem countP_isFruitless (parts : List (Option Element)) :
    parts.countP isFruitless =
      parts.countP (Option.all isDropped) + parts.countP isBlankObject := by
  refine countP_eq_add (fun part => ?_) (fun part => ?_) parts
  · match part with
    | none => rfl
    | some (.plain s) => exact (Bool.or_false _).symm
    | some (.malformed _) => rfl
    | some (.rich fields) =>
      cases hrich : Stored.richCommand fields <;>
        simp [isFruitless, isBlankObject, isDropped, Element.commands, Except.toOption, hrich]
  · match part with
    | none => rfl
    | some (.plain s) => exact Bool.and_false _
    | some (.malformed _) => rfl
    | some (.rich fields) =>
      cases hrich : Stored.richCommand fields <;>
        simp [isBlankObject, isDropped, Except.toOption, hrich]

/-! ## Documented counts -/

/-- The numbers in the report are what their documentation says: of the entries that were not
canonical and are still there, the texts that hold more than one command, and the parts that give no
command. -/
structure CountsAsDocumented (now : String) (d : Document) : Prop where
  stringsSplit : (normalize now d).report.tally.stringsSplit =
    ((keptLoose d (normalize now d).document).flatMap fun e => textsOf e.commands).countP
      holdsSeveral
  entriesDropped : (normalize now d).report.tally.entriesDropped =
    ((keptLoose d (normalize now d).document).flatMap fun e => partsOf e.commands).countP
      isFruitless

variable {now : String} {d : Document}

theorem namesPlain_normalize (h : NamesPlain d) : NamesPlain (normalize now d).document := by
  have henvironments : boundEnvironments (normalize now d).document = boundEnvironments d := by
    unfold boundEnvironments
    rw [keys_normalize, builds_normalize, Dict.keys_map, keys_builds_liftKeys]
    simp [boundEnvironments]
  unfold NamesPlain
  rwa [henvironments]

/-- In a canonical document all entries are canonical. -/
theorem canonical_of_mem_storedEntries {after : Document} (h : after.isCanonical = true) :
    ∀ e ∈ storedEntries after, e.2.canonical = true := by
  obtain ⟨hkeys, hbuilds, haliases⟩ := Document.isCanonical_iff.1 h
  intro e he
  rcases List.mem_append.1 he with he | he
  · rcases List.mem_append.1 he with he | he
    · obtain ⟨build, hbuild, he⟩ := List.mem_flatMap.1 he
      obtain ⟨bound, hbound, rfl⟩ := List.mem_map.1 he
      exact hbuilds build.2 (List.mem_map_of_mem hbuild) bound.2 (List.mem_map_of_mem hbound)
    · have htop : topEntries after = [] := by
        unfold topEntries
        rw [hkeys]
        rfl
      rw [htop] at he
      exact absurd he List.not_mem_nil
  · obtain ⟨a, ha, rfl⟩ := List.mem_map.1 he
    exact haliases a.2 (List.mem_map_of_mem ha)

theorem madeCanonical_eq_keptLoose {after : Document} (h : after.isCanonical = true)
    (before : Document) : madeCanonical before after = keptLoose before after := by
  unfold madeCanonical keptLoose looseEntries
  congr 1
  refine List.filter_congr fun e _ => congrArg _ ?_
  cases hlookup : (storedEntries after).lookup e.1 with
  | none => rfl
  | some later =>
    obtain ⟨l₁, l₂, heq, -⟩ := List.lookup_eq_some_iff.1 hlookup
    exact canonical_of_mem_storedEntries h (e.1, later) (heq ▸ by simp)

theorem stringsSplit_normalize (h : NamesPlain d) :
    (normalize now d).report.tally.stringsSplit =
      ((madeCanonical d (normalize now d).document).flatMap fun e => textsOf e.commands).countP
        Chain.hasSeparator := by
  rw [List.countP_flatMap]
  refine (countsOver_stringsSplit.tally h (namesPlain_normalize h)).trans ?_
  simp only [textsSplit_eq]
  rfl

theorem entriesDropped_normalize (h : NamesPlain d) :
    (normalize now d).report.tally.entriesDropped =
      ((madeCanonical d (normalize now d).document).flatMap fun e => partsOf e.commands).countP
        (Option.all isDropped) := by
  rw [List.countP_flatMap]
  refine (countsOver_entriesDropped.tally h (namesPlain_normalize h)).trans ?_
  simp only [droppedCount_eq]
  rfl

/-- Of the entries that are made canonical, the report counts each text with several commands and
each lone one as split, and each part without commands as dropped but for objects with a blank
command. Where all kept commands settle, this is what is documented just if there are neither lone
texts nor such objects. -/
theorem countsAsDocumented_iff (now : String) {d : Document} (h : NamesPlain d) :
    let made := madeCanonical d (normalize now d).document
    let texts := made.flatMap fun e => textsOf e.commands
    let parts := made.flatMap fun e => partsOf e.commands
    (normalize now d).report.tally.stringsSplit =
        texts.countP holdsSeveral + texts.countP isLone ∧
      parts.countP isFruitless =
        (normalize now d).report.tally.entriesDropped + parts.countP isBlankObject ∧
      (Settles d → (CountsAsDocumented now d ↔
        (∀ s ∈ texts, isLone s = false) ∧ ∀ part ∈ parts, isBlankObject part = false)) := by
  intro made texts parts
  have hsplit : (normalize now d).report.tally.stringsSplit =
      texts.countP holdsSeveral + texts.countP isLone :=
    (stringsSplit_normalize h).trans (countP_hasSeparator texts)
  have hdropped : parts.countP isFruitless =
      (normalize now d).report.tally.entriesDropped + parts.countP isBlankObject := by
    rw [entriesDropped_normalize h]
    exact countP_isFruitless parts
  refine ⟨hsplit, hdropped, fun hsettles => ?_⟩
  have hmade : made = keptLoose d (normalize now d).document :=
    madeCanonical_eq_keptLoose ((isCanonical_normalize_iff now d).2 hsettles) d
  have hlone : (∀ s ∈ texts, isLone s = false) ↔ texts.countP isLone = 0 := by
    simp only [List.countP_eq_zero, Bool.not_eq_true]
  have hblank : (∀ part ∈ parts, isBlankObject part = false) ↔ parts.countP isBlankObject = 0 := by
    simp only [List.countP_eq_zero, Bool.not_eq_true]
  have hcounts : CountsAsDocumented now d ↔
      (normalize now d).report.tally.stringsSplit = texts.countP holdsSeveral ∧
        (normalize now d).report.tally.entriesDropped = parts.countP isFruitless := by
    show _ ↔ _ = (made.flatMap _).countP _ ∧ _ = (made.flatMap _).countP _
    rw [hmade]
    exact ⟨fun h => ⟨h.1, h.2⟩, fun h => ⟨h.1, h.2⟩⟩
  rw [hcounts, hlone, hblank]
  omega

/-- A document of the current version that binds two keys. -/
def twoKeys (first second : Commands) : Document where
  builds := Dict.ofList [("space", { keys := Dict.ofList [("F1", first), ("F2", second)] })]
  version := some "2.1.1"

/-- A list of a joined text, a null, a blank text and an object. -/
def mixedList : Commands :=
  .list [.plain "C$$D", .malformed .null, .plain " ",
    .rich (Dict.ofList [("command", .string "E $$ F")])]

theorem countsAsDocumented_mixedList :
    NamesPlain (twoKeys (.text "A $$ B") mixedList) ∧ Settles (twoKeys (.text "A $$ B") mixedList) ∧
      CountsAsDocumented "2001-02-03" (twoKeys (.text "A $$ B") mixedList) := by
  have hplain : NamesPlain (twoKeys (.text "A $$ B") mixedList) := by decide +kernel
  have hsettles : Settles (twoKeys (.text "A $$ B") mixedList) :=
    (isCanonical_normalize_iff "2001-02-03" _).1 (by decide +kernel)
  exact ⟨hplain, hsettles, ((countsAsDocumented_iff _ hplain).2.2 hsettles).2
    ⟨by decide +kernel, by decide +kernel⟩⟩

/-- A text with a separator behind its only command is counted as split. The object in the other
list gives no command and is not counted as dropped. -/
theorem not_countsAsDocumented_of_blankParts :
    ¬ ∀ now d, NamesPlain d → CountsAsDocumented now d := by
  intro h
  have hcounts := h "2001-02-03"
    (twoKeys (.text "A $$ ") (.list [.rich (Dict.ofList [("command", .string " ")])]))
    (by decide +kernel)
  exact absurd hcounts.stringsSplit (by decide +kernel)

end Keybinds.Migration
