import Keybinds.Proofs.Migration.Preservation
import Keybinds.Proofs.Stored.TrayEntries

/-!
# What normalization reports

Behind the first look at a document its lists hold plain commands only, and these are never
malformed. So each malformed item is reported once, however often the shapes are looked at: the
report of a normalized document lists what is malformed in its builds, the top-level keys included,
and in the aliases that are there when the shapes are looked at first (`malformed_normalize`).

An object that gives no command is reported with its place and the reason, and the list that it
stands in becomes what it would become without it (`isReported_of_refused`).
-/

namespace Keybinds.Migration

open Command (IsLookedAt IsOversized Oversized statedNumber?)
open Json (Value)
open Stored (Element Commands AliasEntry Build Document IsTrayEntry richCommand)

/-! ## Malformed items -/

def keyLocation (environment key : String) : String :=
  "builds." ++ environment ++ ".keys." ++ key

/-- The location of the command list of an alias, or else of the alias. -/
def aliasLocation (name : String) : AliasEntry → String
  | .record _ => "aliases." ++ name ++ ".commands"
  | _ => "aliases." ++ name

/-- What is malformed in a list. -/
def malformedInList (location : String) (c : Commands) : List Malformed :=
  malformedOf (commandsEvents location c)

def malformedInAlias (name : String) : AliasEntry → List Malformed
  | .malformed value => [⟨"aliases." ++ name, "alias is " ++ value.kind⟩]
  | a => malformedInList (aliasLocation name a) a.toRecord.commands

/-- What is malformed in some builds and aliases. -/
def malformedIn (builds : Dict Build) (aliases : Dict AliasEntry) : List Malformed :=
  (builds.entries.flatMap fun (environment, b) => b.keys.entries.flatMap fun (key, c) =>
    malformedInList (keyLocation environment key) c) ++
  aliases.entries.flatMap fun (name, a) => malformedInAlias name a

theorem malformedOf_append (es es' : List Event) :
    malformedOf (es ++ es') = malformedOf es ++ malformedOf es' :=
  List.filterMap_append

theorem malformedOf_flatMap {α : Type} (xs : List α) (f : α → List Event) :
    malformedOf (xs.flatMap f) = xs.flatMap fun x => malformedOf (f x) :=
  List.filterMap_flatMap

theorem malformedOf_map_eq_nil {α : Type} {f : α → Event} (hf : ∀ x, (f x).malformed? = none)
    (xs : List α) : malformedOf (xs.map f) = [] := by
  unfold malformedOf
  rw [List.filterMap_map, List.filterMap_eq_nil_iff]
  exact fun x _ => hf x

/-- A list whose elements have no events has none. -/
theorem commandsEvents_list_eq_nil {items : List Element}
    (h : ∀ e ∈ items, ∀ place, elementEvents place e = []) (location : String) :
    commandsEvents location (.list items) = [] := by
  show List.flatten (List.mapIdx _ items) = []
  rw [List.flatten_eq_nil_iff]
  intro events hevents
  obtain ⟨i, hi, rfl⟩ := List.mem_mapIdx.1 hevents
  exact h _ (List.getElem_mem hi) _

theorem commandsEvents_ofChain (location : String) (chain : List String) :
    commandsEvents location (.ofChain chain) = [] := by
  refine commandsEvents_list_eq_nil (fun e he _ => ?_) location
  obtain ⟨s, -, rfl⟩ := List.mem_map.1 he
  rfl

/-- Plain commands are never malformed. -/
theorem malformedInList_ofChain (location : String) (chain : List String) :
    malformedInList location (.ofChain chain) = [] :=
  congrArg malformedOf (commandsEvents_ofChain location chain)

theorem malformedInList_of_isCanonical (location : String) {c : Commands}
    (h : c.isCanonical = true) : malformedInList location c = [] := by
  obtain ⟨chain, rfl, -⟩ := Commands.isCanonical_iff.1 h
  exact malformedInList_ofChain location chain

theorem malformedInList_canonicalized (location : String) (c : Commands) :
    malformedInList location c.canonicalized = [] := by
  rw [Commands.canonicalized_eq_ofChain]
  exact malformedInList_ofChain location _

/-- Mending leaves everything alone that may be malformed. -/
theorem malformedInList_mendCommands (location : String) (c : Commands) :
    malformedInList location (mendCommands c) = malformedInList location c := by
  cases c with
  | text s => rfl
  | malformed value => rfl
  | list items =>
    have hmend : ∀ place e, elementEvents place (mendElement e) = elementEvents place e := by
      intro place e
      cases e <;> rfl
    refine congrArg (fun events => malformedOf (List.flatten events)) ?_
    exact List.ext_getElem (by simp) fun i _ _ => by simp [hmend]

theorem malformedInAlias_of_commands? {a : AliasEntry} {c : Commands} (h : a.commands? = some c)
    (name : String) : malformedInAlias name a = malformedInList (aliasLocation name a) c := by
  rw [← AliasEntry.commands_toRecord h]
  cases a with
  | record r => rfl
  | bare c' => rfl
  | malformed value => cases h

theorem malformedInAlias_canonicalized (name : String) (a : AliasEntry) :
    malformedInAlias name a.canonicalized = [] :=
  malformedInList_canonicalized _ _

theorem malformedInAlias_mendAlias (name : String) (a : AliasEntry) :
    malformedInAlias name (mendAlias name a) = malformedInAlias name a := by
  cases a with
  | record r =>
    unfold mendAlias
    dsimp only
    split_ifs
    · exact malformedInList_mendCommands _ _
    · rfl
  | bare c => rfl
  | malformed value => rfl

/-- The events of the lists of a document tell what is malformed in them. -/
theorem malformedOf_canonicalListsEvents (d : Document) :
    malformedOf (canonicalListsEvents d) = malformedIn d.builds d.aliases := by
  unfold canonicalListsEvents malformedIn
  rw [malformedOf_append, malformedOf_flatMap, malformedOf_flatMap]
  congr 1
  · refine List.flatMap_congr fun e _ => ?_
    show malformedOf (List.flatMap _ _) = _
    rw [malformedOf_flatMap]
    refine List.flatMap_congr fun e' _ => ?_
    dsimp only
    split_ifs with h
    · exact (malformedInList_of_isCanonical _ h).symm
    · rfl
  · refine List.flatMap_congr fun e _ => ?_
    obtain ⟨name, a⟩ := e
    unfold aliasEvents
    dsimp only
    split_ifs with h
    · rw [← AliasEntry.canonicalized_of_isCanonical h, malformedInAlias_canonicalized]
      rfl
    · cases a <;> rfl

theorem malformedOf_canonicalizeEvents (d : Document) :
    malformedOf (canonicalizeEvents d) = malformedIn (liftKeys d).builds (liftKeys d).aliases := by
  unfold canonicalizeEvents
  rw [malformedOf_append, malformedOf_canonicalListsEvents]
  unfold liftKeysEvents
  cases d.keys <;> rfl

/-! ## The report -/

/-- The aliases that are there when the shapes are looked at first. -/
def aliasesMet (v : Version) (aliases : Dict AliasEntry) : Dict AliasEntry :=
  if v < Step.canonicalCommands.version then aliases
  else aliases.filter fun name a => !isRemoved v name a

theorem malformedOf_runEvents_eq_nil {steps : List Step}
    (h : ∀ step ∈ steps, step ≠ .canonicalCommands) (d : Document) :
    malformedOf (runEvents steps d) = [] := by
  induction steps generalizing d with
  | nil => rfl
  | cons step steps ih =>
    rw [List.forall_mem_cons] at h
    unfold runEvents
    rw [malformedOf_append]
    show _ ++ malformedOf (runEvents steps (step.apply d)) = []
    rw [ih h.2, List.append_nil]
    cases step with
    | canonicalCommands => exact absurd rfl h.1
    | dropGenerated => exact malformedOf_map_eq_nil (fun _ => rfl) _
    | mendLoaders => exact malformedOf_map_eq_nil (fun _ => rfl) _

/-- The pending steps report what is malformed in a document from before the first of them. -/
theorem malformedOf_runEvents_pending (v : Version) (d : Document) :
    malformedOf (runEvents (Step.pending v) d) =
      if v < Step.canonicalCommands.version then malformedIn (liftKeys d).builds d.aliases
      else [] := by
  have hrest : ∀ step ∈ [Step.dropGenerated, .mendLoaders].filter (v < ·.version),
      step ≠ .canonicalCommands := by
    intro step hstep
    have hmem := (List.mem_filter.1 hstep).1
    rintro rfl
    exact absurd hmem (by decide)
  unfold Step.pending Step.all
  rw [List.filter_cons]
  by_cases h : v < Step.canonicalCommands.version
  · rw [if_pos (decide_eq_true h), if_pos h]
    unfold runEvents
    rw [malformedOf_append]
    show malformedOf (canonicalizeEvents d) ++ malformedOf (runEvents _ (canonicalize d)) = _
    rw [malformedOf_runEvents_eq_nil hrest, List.append_nil, malformedOf_canonicalizeEvents,
      aliases_liftKeys]
  · rw [if_neg (by simpa using h), if_neg h]
    exact malformedOf_runEvents_eq_nil hrest d

/-- Behind the steps, the last look finds what is malformed only if it is the first one. -/
theorem malformedOf_canonicalizeEvents_run (v : Version) (d : Document) :
    malformedOf (canonicalizeEvents (run (Step.pending v) d)) =
      if v < Step.canonicalCommands.version then []
      else malformedIn (liftKeys d).builds (aliasesMet v d.aliases) := by
  have hbuilds : (liftKeys (run (Step.pending v) d)).builds =
      (Step.canonicalCommands.ifPending v (liftKeys d)).builds := by
    rw [liftKeys_run, foldl_pending]
    unfold Step.ifPending
    split_ifs <;> rfl
  have haliases : (liftKeys (run (Step.pending v) d)).aliases =
      ((d.aliases.filter fun name a => !isRemoved v name a).map fun a =>
        if v < Step.canonicalCommands.version then a.canonicalized else a).mapWithKey
          fun name a => if v < Step.mendLoaders.version then mendAlias name a else a := by
    rw [liftKeys_run, foldl_pending, aliases_mendLoaders_ifPending, aliases_dropped]
  rw [malformedOf_canonicalizeEvents, hbuilds, haliases]
  unfold malformedIn aliasesMet Step.ifPending
  rw [Dict.entries_mapWithKey, Dict.entries_map, List.map_map, List.flatMap_map]
  by_cases h : v < Step.canonicalCommands.version
  · -- all lists have been made canonical by the first step
    simp only [if_pos h]
    rw [List.append_eq_nil_iff, List.flatMap_eq_nil_iff, List.flatMap_eq_nil_iff]
    constructor
    · intro e he
      obtain ⟨e', -, rfl⟩ := List.mem_map.1 he
      show List.flatMap _ (Dict.entries (Dict.map _ _)) = []
      rw [Dict.entries_map, List.flatMap_map, List.flatMap_eq_nil_iff]
      exact fun _ _ => malformedInList_canonicalized _ _
    · intro e _
      dsimp only [Function.comp_apply]
      split_ifs
      · rw [malformedInAlias_mendAlias, malformedInAlias_canonicalized]
      · exact malformedInAlias_canonicalized _ _
  · simp only [if_neg h]
    refine congrArg (_ ++ ·) (List.flatMap_congr fun e _ => ?_)
    dsimp only [Function.comp_apply]
    split_ifs
    · exact malformedInAlias_mendAlias _ _
    · rfl

/-- Each malformed item is reported once, in the order of the document. -/
theorem malformed_normalize (now : String) (d : Document) :
    (normalize now d).report.malformed =
      malformedIn (liftKeys d).builds (aliasesMet (readAs d) d.aliases) := by
  show malformedOf (runEvents _ d ++ canonicalizeEvents (run _ d)) = _
  rw [malformedOf_append, malformedOf_runEvents_pending, malformedOf_canonicalizeEvents_run]
  unfold aliasesMet
  split_ifs with h
  · exact List.append_nil _
  · rfl

/-! ## Elements without commands -/

/-- Wherever the first list stands in a document, it becomes what the second one would. -/
structure BecomesAs (now : String) (d : Document) (c c' : Commands) : Prop where
  keys : ∀ environment key, (key, c) ∈ boundKeys d environment →
    (key, commandsBehind (readAs d) false c') ∈
      (buildOf (normalize now d).document environment).keys.entries
  aliases : ∀ name a, (name, a) ∈ d.aliases.entries → a.commands? = some c →
    isRemoved (readAs d) name a = false →
      (name, .record { a.toRecord with
        commands := commandsBehind (readAs d) (isMended (readAs d) name a) c' }) ∈
        (normalize now d).document.aliases.entries

theorem becomesAs_of_commandsBehind (now : String) {d : Document} {c c' : Commands}
    (h : ∀ mended, commandsBehind (readAs d) mended c = commandsBehind (readAs d) mended c') :
    BecomesAs now d c c' where
  keys environment key hmem := by
    rw [← (buildOf_liftKeys d environment).1] at hmem
    rw [buildOf_normalize, ← h]
    show _ ∈ (Dict.map _ _).entries
    rw [Dict.entries_map]
    exact List.mem_map_of_mem hmem
  aliases name a hmem hlist hkept := by
    rw [aliases_normalize, Dict.entries_mapWithKey, ← h, ← AliasEntry.commands_toRecord hlist]
    exact List.mem_map_of_mem (List.mem_filter.2 ⟨hmem, by simp [hkept]⟩)

/-- Lists with the same commands, mended or not, become the same. -/
theorem commandsBehind_congr {c c' : Commands} (h : c.canonicalized = c'.canonicalized)
    (hmend : (mendCommands c).canonicalized = (mendCommands c').canonicalized) (v : Version)
    (mended : Bool) : commandsBehind v mended c = commandsBehind v mended c' := by
  unfold commandsBehind
  by_cases hfirst : v < Step.canonicalCommands.version
  · rw [if_pos hfirst, if_pos hfirst, h]
  · rw [if_neg hfirst, if_neg hfirst]
    cases mended with
    | false => exact h
    | true => exact hmend

theorem canonicalized_append_cons {e : Element} (hnone : e.commands = [])
    (before behind : List Element) :
    (Commands.list (before ++ e :: behind)).canonicalized =
      (Commands.list (before ++ behind)).canonicalized := by
  rw [Commands.canonicalized_eq_ofChain, Commands.canonicalized_eq_ofChain]
  refine congrArg Commands.ofChain ?_
  show List.flatMap _ _ = List.flatMap _ _
  rw [List.flatMap_append, List.flatMap_append, List.flatMap_cons, hnone, List.nil_append]

/-- A list becomes what it would become without an element that gives no commands. -/
theorem becomesAs_without (now : String) (d : Document) {e : Element} (hmend : mendElement e = e)
    (hnone : e.commands = []) (before behind : List Element) :
    BecomesAs now d (.list (before ++ e :: behind)) (.list (before ++ behind)) := by
  refine becomesAs_of_commandsBehind now
    (commandsBehind_congr (canonicalized_append_cons hnone before behind) ?_ _)
  show (Commands.list (List.map _ _)).canonicalized = (Commands.list (List.map _ _)).canonicalized
  rw [List.map_append, List.map_append, List.map_cons, hmend]
  exact canonicalized_append_cons hnone _ _

/-! ## Refused objects -/

/-- What becomes of an object that stands in lists of a document: wherever it does, it is reported
with its place and a reason, and the list becomes what it would become without it. -/
structure IsReported (now : String) (d : Document) (fields : Dict Value) (reason : String) :
    Prop where
  keys : ∀ environment key before behind,
    (key, .list (before ++ .rich fields :: behind)) ∈ boundKeys d environment →
      ⟨elementLocation (keyLocation environment key) before.length, reason⟩ ∈
          (normalize now d).report.malformed ∧
        (key, commandsBehind (readAs d) false (.list (before ++ behind))) ∈
          (buildOf (normalize now d).document environment).keys.entries
  aliases : ∀ name a before behind, (name, a) ∈ d.aliases.entries →
    a.commands? = some (.list (before ++ .rich fields :: behind)) →
    isRemoved (readAs d) name a = false →
      ⟨elementLocation (aliasLocation name a) before.length, reason⟩ ∈
          (normalize now d).report.malformed ∧
        (name, .record { a.toRecord with
          commands := commandsBehind (readAs d) (isMended (readAs d) name a)
            (.list (before ++ behind)) }) ∈ (normalize now d).document.aliases.entries

section Refused

variable {fields : Dict Value} {fault : Stored.RichFault}
  (h : richCommand fields = .error fault)

include h

theorem commands_of_refused : (Element.rich fields).commands = [] := by
  simp only [Element.commands, h]

theorem mem_malformedInList (location : String) (before behind : List Element) :
    ⟨elementLocation location before.length, fault.message⟩ ∈
      malformedInList location (.list (before ++ .rich fields :: behind)) := by
  refine List.mem_filterMap.2 ⟨.malformed ⟨_, fault.message⟩, List.mem_flatten.2 ?_, rfl⟩
  refine ⟨_, List.mem_mapIdx.2 ⟨before.length, by simp, rfl⟩, ?_⟩
  rw [List.getElem_append_right (le_refl _)]
  simp [elementEvents, h]

theorem isReported_of_refused (now : String) (d : Document) :
    IsReported now d fields fault.message where
  keys environment key before behind hmem := by
    refine ⟨?_, (becomesAs_without now d rfl (commands_of_refused h) before behind).keys
      environment key hmem⟩
    rw [← (buildOf_liftKeys d environment).1] at hmem
    rw [malformed_normalize]
    cases hbuild : (liftKeys d).builds.get? environment with
    | none =>
      unfold buildOf at hmem
      rw [hbuild] at hmem
      exact absurd hmem List.not_mem_nil
    | some b =>
      unfold buildOf at hmem
      rw [hbuild] at hmem
      exact List.mem_append_left _ (List.mem_flatMap.2 ⟨_, Dict.get?_eq_some_iff.1 hbuild,
        List.mem_flatMap.2 ⟨_, hmem, mem_malformedInList h _ _ _⟩⟩)
  aliases name a before behind hmem hlist hkept := by
    refine ⟨?_, (becomesAs_without now d rfl (commands_of_refused h) before behind).aliases
      name a hmem hlist hkept⟩
    rw [malformed_normalize]
    have hmet : (name, a) ∈ (aliasesMet (readAs d) d.aliases).entries := by
      unfold aliasesMet
      split_ifs
      · exact hmem
      · exact List.mem_filter.2 ⟨hmem, by simp [hkept]⟩
    refine List.mem_append_right _ (List.mem_flatMap.2 ⟨_, hmet, ?_⟩)
    show _ ∈ malformedInAlias name a
    rw [malformedInAlias_of_commands? hlist]
    exact mem_malformedInList h _ _ _

end Refused

/-! ## Oversized numbers -/

/-- An object that describes a tray slot is refused just because of an oversized number that is
looked at. The fault names its field and the number, and wherever the object stands, it is reported
and gives no command. -/
theorem oversized_refused_iff {fields parameters : Dict Value}
    (h : IsTrayEntry fields parameters) :
    ((∃ fault, richCommand fields = .error fault) ↔
        ∃ name v n, IsOversized parameters name v n ∧ IsLookedAt v) ∧
      ∀ fault, richCommand fields = .error fault →
        (∃ name v n, IsOversized parameters name v n ∧ IsLookedAt v ∧
          fault = .trayParameters ⟨name, n⟩) ∧
        ∀ now d, IsReported now d fields fault.message :=
  ⟨h.refused_iff.1, fun fault hfault =>
    ⟨h.refused_iff.2 fault hfault, isReported_of_refused hfault⟩⟩

/-- The parameters of the fourth slot of a tray. -/
def fourthSlot (tray : Value) : Dict Value :=
  Dict.ofList [("tray", tray), ("slot", .number (.int 3))]

def fourthSlotEntry (tray : Value) : Dict Value :=
  Dict.ofList [("type", .string "tray"), ("parameters", .object (fourthSlot tray).entries)]

theorem isTrayEntry_fourthSlotEntry (tray : Value) :
    IsTrayEntry (fourthSlotEntry tray) (fourthSlot tray) where
  noCommand _ h := nomatch h
  saysTray := rfl
  parameters := rfl

theorem isOversized_fourthSlot {tray : Value} {n : Int} (h : statedNumber? tray = some n)
    (hn : Oversized n) : IsOversized (fourthSlot tray) "tray" tray n :=
  ⟨by decide, rfl, h, hn⟩

/-- The first tray number beyond 32 bits is refused. -/
theorem oversized_refused_firstBeyond :
    IsTrayEntry (fourthSlotEntry (.number (.int 4294967296)))
        (fourthSlot (.number (.int 4294967296))) ∧
      ∃ fault, richCommand (fourthSlotEntry (.number (.int 4294967296))) = .error fault := by
  have hentry := isTrayEntry_fourthSlotEntry (.number (.int 4294967296))
  exact ⟨hentry, (oversized_refused_iff hentry).1.2
    ⟨_, _, _, isOversized_fourthSlot rfl (by decide), trivial⟩⟩

/-- Whether a tray number that fits no 32 bits is replaced by zero. -/
structure IsReplaced (tray : Value) : Prop where
  entry : IsTrayEntry (fourthSlotEntry tray) (fourthSlot tray)
  oversized : ∃ n, IsOversized (fourthSlot tray) "tray" tray n
  rebuilt : richCommand (fourthSlotEntry tray) = .ok "+STOTrayExecByTray 0 3"

theorem isReplaced {tray : Value} {n : Int} (h : statedNumber? tray = some n) (hn : Oversized n)
    (hrebuilt : richCommand (fourthSlotEntry tray) = .ok "+STOTrayExecByTray 0 3") :
    IsReplaced tray :=
  ⟨isTrayEntry_fourthSlotEntry tray, ⟨n, isOversized_fourthSlot h hn⟩, hrebuilt⟩

/-- A negative number in a text and a number beyond 64 bits are not refused: the tray is zero. -/
theorem not_oversized_refused :
    IsReplaced (.string "-1") ∧ IsReplaced (.string "18446744073709551616") ∧
      IsReplaced (.number (.real (.ofNat 18446744073709551616))) := by
  refine ⟨isReplaced (n := -1) ?_ ?_ ?_, isReplaced (n := 18446744073709551616) ?_ ?_ ?_,
    isReplaced (n := 18446744073709551616) ?_ ?_ ?_⟩
  all_goals decide +kernel

end Keybinds.Migration
