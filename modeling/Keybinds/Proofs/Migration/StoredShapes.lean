import Keybinds.Proofs.Chain.WellQuoted
import Keybinds.Proofs.Migration.Reports

/-!
# The shapes of one chain

A chain may be stored joined in one text, or in a list of groups, each of which is joined in a text
or in the command of an object, with nulls and blank texts anywhere between them. A chain of
well-quoted commands is cut again where it was joined, so every shape of it gives the same chain and
has nothing malformed in it (`storedShapes_giveChain`), and normalization stores it in one way.
-/

namespace Keybinds.Migration

open Chain (IsWellQuoted)
open Json (Value)
open Stored (Element Commands)
open Text (AllBlank)

/-! ## Shapes -/

/-- An element without commands that is not malformed: a null or a blank text. -/
inductive IsFiller : Element → Prop
  | null : IsFiller (.malformed .null)
  | blank {s : String} (h : AllBlank s.toList) : IsFiller (.plain s)

/-- An element with the joined commands of a group, as a text or as the command of an object, which
may have other members. -/
inductive StoresGroup (group : List String) : Element → Prop
  | text : StoresGroup group (.plain (Chain.join group))
  | object {fields : Dict Value} (h : fields.get? "command" = some (.string (Chain.join group))) :
      StoresGroup group (.rich fields)

/-- A list of elements that store groups in turn, with fillers anywhere. -/
inductive StoresGroups : List Element → List (List String) → Prop
  | nil : StoresGroups [] []
  | filler {e : Element} {items : List Element} {groups : List (List String)} (he : IsFiller e)
      (h : StoresGroups items groups) : StoresGroups (e :: items) groups
  | group {group : List String} {e : Element} {items : List Element} {groups : List (List String)}
      (he : StoresGroup group e) (h : StoresGroups items groups) :
      StoresGroups (e :: items) (group :: groups)

/-! ## Commands -/

theorem IsFiller.commands {e : Element} (h : IsFiller e) : e.commands = [] := by
  cases h with
  | null => rfl
  | blank h => exact Chain.split_of_allBlank h

theorem StoresGroup.commands {group : List String} {e : Element} (h : StoresGroup group e) :
    e.commands = Chain.split (Chain.join group) := by
  cases h with
  | text => rfl
  | object h => simp only [Element.commands, Stored.richCommand, h]

/-- Groups of well-quoted commands are given one behind the other. -/
theorem StoresGroups.commands {items : List Element} {groups : List (List String)}
    (h : StoresGroups items groups) (hquoted : ∀ s ∈ groups.flatten, IsWellQuoted s) :
    (Commands.list items).commands = groups.flatten := by
  show items.flatMap Element.commands = groups.flatten
  induction h with
  | nil => rfl
  | filler he _ ih => rw [List.flatMap_cons, he.commands, ih hquoted, List.nil_append]
  | group he _ ih =>
    rw [List.flatten_cons, List.forall_mem_append] at hquoted
    rw [List.flatMap_cons, List.flatten_cons, he.commands,
      Chain.split_join_of_wellQuoted hquoted.1, ih hquoted.2]

/-! ## Nothing malformed -/

theorem IsFiller.malformedOf_elementEvents {e : Element} (h : IsFiller e) (place : String) :
    malformedOf (elementEvents place e) = [] := by
  cases h <;> rfl

theorem StoresGroup.malformedOf_elementEvents {group : List String} {e : Element}
    (h : StoresGroup group e) (place : String) : malformedOf (elementEvents place e) = [] := by
  cases h with
  | text => rfl
  | object h => simp only [elementEvents, Stored.richCommand, h, malformedOf, List.filterMap_nil]

theorem StoresGroups.malformedOf_elementEvents {items : List Element}
    {groups : List (List String)} (h : StoresGroups items groups) :
    ∀ e ∈ items, ∀ place, malformedOf (elementEvents place e) = [] := by
  induction h with
  | nil => exact fun e he => absurd he List.not_mem_nil
  | filler he _ ih => exact List.forall_mem_cons.2 ⟨he.malformedOf_elementEvents, ih⟩
  | group he _ ih => exact List.forall_mem_cons.2 ⟨he.malformedOf_elementEvents, ih⟩

/-- Nothing is malformed in a list if nothing is in its elements. -/
theorem malformedInList_list_eq_nil {items : List Element}
    (h : ∀ e ∈ items, ∀ place, malformedOf (elementEvents place e) = []) (location : String) :
    malformedInList location (.list items) = [] := by
  show List.filterMap _ (List.flatten (List.mapIdx _ items)) = []
  rw [List.filterMap_flatten, List.flatten_eq_nil_iff]
  intro entries hentries
  obtain ⟨events, hevents, rfl⟩ := List.mem_map.1 hentries
  obtain ⟨i, hi, rfl⟩ := List.mem_mapIdx.1 hevents
  exact h _ (List.getElem_mem hi) _

/-! ## The chain -/

/-- What a stored shape of a chain comes to: its commands are the chain, nothing in it is malformed,
and in a document of any version it becomes the list of the chain. -/
structure GivesChain (c : Commands) (chain : List String) : Prop where
  commands : c.commands = chain
  reported : ∀ location, malformedInList location c = []
  behind : ∀ v, commandsBehind v false c = .ofChain chain

/-- A list that gives canonical commands becomes the list of these. -/
theorem commandsBehind_of_commands {c : Commands} {chain : List String} (h : c.commands = chain)
    (hchain : ∀ s ∈ chain, Chain.isCanonical s = true) (v : Version) :
    commandsBehind v false c = .ofChain chain := by
  have hform : c.canonicalized = .ofChain chain := by
    rw [Commands.canonicalized_eq_ofChain, h]
  have hagain : (Commands.ofChain chain).canonicalized = .ofChain chain :=
    Commands.canonicalized_of_isCanonical (Commands.isCanonical_ofChain_iff.2 hchain)
  show (if v < Step.canonicalCommands.version then c.canonicalized else c).canonicalized = _
  split_ifs
  · rw [hform, hagain]
  · exact hform

/-- Every stored shape of a chain of well-quoted commands gives that chain: a list that stores its
groups, however it is grouped, and the text that it is joined to. -/
theorem storedShapes_giveChain {chain : List String} (h : ∀ s ∈ chain, IsWellQuoted s) :
    (∀ items groups, StoresGroups items groups → groups.flatten = chain →
      GivesChain (.list items) chain) ∧ GivesChain (.text (Chain.join chain)) chain := by
  have hcanonical : ∀ s ∈ chain, Chain.isCanonical s = true := fun s hs => (h s hs).canonical
  constructor
  · rintro items groups hitems rfl
    have hcommands := hitems.commands h
    exact ⟨hcommands, malformedInList_list_eq_nil hitems.malformedOf_elementEvents,
      commandsBehind_of_commands hcommands hcanonical⟩
  · have hcommands : (Commands.text (Chain.join chain)).commands = chain :=
      Chain.split_join_of_wellQuoted h
    exact ⟨hcommands, fun _ => rfl, commandsBehind_of_commands hcommands hcanonical⟩

/-- A chain with a quoted separator, an apostrophe in a word, an empty string, a backslash at the
end of a command and the same command twice. -/
def groupedChain : List String :=
  ["say \"a $$ b\"", "emote don't \"\" $", "FireAll", "x\\", "FireAll"]

/-- The first two commands in a text, the next one in an object with an icon and the last two in
another text, between a null and texts with wide blanks. -/
def groupedItems : List Element :=
  [.malformed .null, .plain "say \"a $$ b\" $$ emote don't \"\" $", .plain "\u3000 \t",
    .rich (Dict.ofList [("icon", .string "a.png"), ("command", .string "FireAll")]), .plain "",
    .plain "x\\ $$ FireAll", .malformed .null]

theorem storesGroups_groupedItems :
    StoresGroups groupedItems
      [["say \"a $$ b\"", "emote don't \"\" $"], ["FireAll"], ["x\\", "FireAll"]] := by
  have hwide : IsFiller (.plain "\u3000 \t") := .blank (Text.allBlank_of_trim (by decide +kernel))
  have hempty : IsFiller (.plain "") := .blank (Text.allBlank_of_trim (by decide +kernel))
  exact .filler .null (.group .text (.filler hwide (.group (.object rfl)
    (.filler hempty (.group .text (.filler .null .nil))))))

theorem storedShapes_giveChain_grouped :
    (∀ s ∈ groupedChain, IsWellQuoted s) ∧ GivesChain (.list groupedItems) groupedChain ∧
      GivesChain (.text (Chain.join groupedChain)) groupedChain := by
  have hquoted : ∀ s ∈ groupedChain, IsWellQuoted s := by decide +kernel
  have hgives := storedShapes_giveChain hquoted
  exact ⟨hquoted, hgives.1 _ _ storesGroups_groupedItems rfl, hgives.2⟩

end Keybinds.Migration
