import Keybinds.Proofs.Migration.Normal
import Keybinds.Proofs.Profile.Conversion
import Keybinds.Proofs.Stored.Texts

/-!
# When normalization reaches the contract

The document that normalization gives is of the current version and without a mode, so it is normal
as soon as it is canonical. It is canonical just if the commands of every list that it keeps settle:
commands are cut once, in documents of versions before the first step twice, and what is cut last
has to be canonical. Commands cut from texts that keep word starts always settle; an apostrophe
directly behind a blank other than the ASCII ones can prevent it.
-/

namespace Keybinds

open Stored (Commands AliasEntry Build Document)

namespace Migration

open Chain (KeepsWordStarts layoutOf)

/-! ## Lists that settle -/

/-- Whether normalization leaves of a command only what is canonical. -/
def Settled (v : Version) (command : String) : Prop :=
  if v < Step.canonicalCommands.version then
    ∀ part ∈ Chain.split command, Chain.isCanonical part = true
  else Chain.isCanonical command = true

theorem isCanonical_iff_of_layouts {commands commands' : List String}
    (h : commands.map layoutOf = commands'.map layoutOf) :
    (∀ s ∈ commands, Chain.isCanonical s = true) ↔ ∀ s ∈ commands', Chain.isCanonical s = true := by
  have hlayouts : ∀ commands : List String, (∀ s ∈ commands, Chain.isCanonical s = true) ↔
      ∀ s ∈ commands.map layoutOf, Chain.isCanonical s = true := by
    intro commands
    rw [List.forall_mem_map]
    simp only [Chain.isCanonical_layoutOf]
  rw [hlayouts, h, ← hlayouts]

/-- What becomes of a list is canonical if its commands settle. -/
theorem isCanonical_commandsBehind_iff (v : Version) (mended : Bool) (c : Commands) :
    (commandsBehind v mended c).isCanonical = true ↔ ∀ x ∈ c.commands, Settled v x := by
  unfold commandsBehind Settled
  rw [Commands.isCanonical_canonicalized_iff]
  have hmend : ∀ first : Commands,
      (if mended = true then mendCommands first else first).commands.map layoutOf =
        first.commands.map layoutOf := by
    intro first
    split_ifs
    · exact layouts_commands_mendCommands first
    · rfl
  rw [isCanonical_iff_of_layouts (hmend _)]
  split_ifs
  · rw [Commands.commands_canonicalized]
    simp only [List.mem_flatMap]
    exact ⟨fun h x hx part hpart => h part ⟨x, hx, hpart⟩,
      fun h part ⟨x, hx, hpart⟩ => h x hx part hpart⟩
  · exact Iff.rfl

/-- The command lists that normalization keeps. -/
def keptLists (d : Document) : List Commands :=
  (liftKeys d).builds.values.flatMap (fun b => b.keys.values) ++
    (d.aliases.filter fun name a => !isRemoved (readAs d) name a).values.map fun a =>
      a.toRecord.commands

/-- Whether the commands of all kept lists settle. -/
def Settles (d : Document) : Prop :=
  ∀ c ∈ keptLists d, ∀ x ∈ c.commands, Settled (readAs d) x

theorem keys_normalize (now : String) (d : Document) : (normalize now d).document.keys = none :=
  keys_liftKeys (run (Step.pending (readAs d)) d)

theorem mode_normalize (now : String) (d : Document) : (normalize now d).document.mode = none :=
  mode_liftKeys (run (Step.pending (readAs d)) d)

/-- What normalization gives is canonical just if all commands settle. -/
theorem isCanonical_normalize_iff (now : String) (d : Document) :
    (normalize now d).document.isCanonical = true ↔ Settles d := by
  have hbuilds : (∀ b ∈ (normalize now d).document.builds.values, ∀ c ∈ b.keys.values,
      c.isCanonical = true) ↔ ∀ c ∈ (liftKeys d).builds.values.flatMap (fun b => b.keys.values),
        ∀ x ∈ c.commands, Settled (readAs d) x := by
    rw [builds_normalize, Dict.values_map, List.forall_mem_map, List.forall_mem_flatMap]
    refine forall₂_congr fun b _ => ?_
    show (∀ c ∈ (b.keys.map (commandsBehind (readAs d) false)).values, _) ↔ _
    rw [Dict.values_map, List.forall_mem_map]
    simp only [isCanonical_commandsBehind_iff]
  have haliases : (∀ a ∈ (normalize now d).document.aliases.values, a.isCanonical = true) ↔
      ∀ c ∈ (d.aliases.filter fun name a => !isRemoved (readAs d) name a).values.map
        (fun a => a.toRecord.commands), ∀ x ∈ c.commands, Settled (readAs d) x := by
    rw [aliases_normalize, List.forall_mem_map]
    unfold Dict.values
    rw [Dict.entries_mapWithKey, List.map_map, List.forall_mem_map, List.forall_mem_map]
    exact forall₂_congr fun e _ => isCanonical_commandsBehind_iff _ _ _
  unfold Settles keptLists
  rw [Document.isCanonical_iff, List.forall_mem_append, hbuilds, haliases]
  exact and_iff_right (keys_normalize now d)

/-! ## The contract -/

theorem version_normalize (now : String) (d : Document) :
    (normalize now d).document.version = versionTag (readAs d) d.version := by
  show versionTag (readAs d) (canonicalize (run (Step.pending (readAs d)) d)).version = _
  rw [(sameFrame_shaped (readAs d) d).version]

/-- What normalization gives is normal as soon as it is canonical. -/
theorem isNormal_normalize {now : String} {d : Document}
    (h : (normalize now d).document.isCanonical = true) : IsNormal (normalize now d).document where
  canonical := h
  mode := mode_normalize now d
  version := by
    rw [version_normalize]
    unfold versionTag
    split_ifs with hlt
    · exact ⟨Version.current, Version.read?_text Version.current, by decide⟩
    · exact exists_version hlt

/-- What a document promises that was normalized at a time: it is canonical, holds a profile, needs
no normalization, and is not changed by one at any later time. -/
structure ReachesContract (now : String) (d : Document) : Prop where
  canonical : (normalize now d).document.isCanonical = true
  profile : ∃ p, Profile.ofDocument (normalize now d).document = .ok p
  settled : needsNormalization (normalize now d).document = false
  again : ∀ later,
    (normalize later (normalize now d).document).document = (normalize now d).document ∧
    (normalize later (normalize now d).document).report.changed = false ∧
    (normalize later (normalize now d).document).report.tally = {}

theorem reachesContract_of_settles (now : String) {d : Document} (h : Settles d) :
    ReachesContract now d := by
  have hcanonical := (isCanonical_normalize_iff now d).2 h
  have hnormal := isNormal_normalize hcanonical
  exact ⟨hcanonical, Profile.exists_ofDocument_iff.2 hcanonical,
    needsNormalization_of_isNormal hnormal, fun later => normalize_of_isNormal later hnormal⟩

/-! ## Documents whose texts keep word starts -/

/-- The command lists that a document stores. -/
def listsOf (d : Document) : List Commands :=
  d.builds.values.flatMap (fun b => b.keys.values) ++ (d.keys.map Dict.values).getD [] ++
    d.aliases.values.map fun a => a.toRecord.commands

/-- The texts of all command lists of a document. -/
def storedTexts (d : Document) : List String :=
  (listsOf d).flatMap Commands.storedTexts

theorem mem_listsOf_of_liftKeys {d : Document} {b : Build} (hb : b ∈ (liftKeys d).builds.values)
    {c : Commands} (hc : c ∈ b.keys.values) : c ∈ listsOf d := by
  have hold : ∀ b ∈ d.builds.values, c ∈ b.keys.values → c ∈ listsOf d := by
    intro b hb hc
    exact List.mem_append_left _ (List.mem_append_left _ (List.mem_flatMap.2 ⟨b, hb, hc⟩))
  cases hkeys : d.keys with
  | none =>
    refine hold b ?_ hc
    have : (liftKeys d).builds = d.builds := by
      unfold liftKeys
      rw [hkeys]
    rwa [← this]
  | some keys =>
    have hbuilds : (liftKeys d).builds = d.builds.alter (legacyEnvironment d) fun build =>
        addKeys (build.getD {}) keys := by
      unfold liftKeys
      rw [hkeys]
    rw [hbuilds, Dict.mem_values_iff] at hb
    obtain ⟨environment, hb⟩ := hb
    rcases Dict.mem_entries_alter hb with heq | hb
    · obtain ⟨-, rfl⟩ := Prod.mk.inj heq
      obtain ⟨key, hc⟩ := Dict.mem_values_iff.1 hc
      rw [entries_addKeys, List.mem_append] at hc
      rcases hc with hc | hc
      · cases hbuild : d.builds.get? (legacyEnvironment d) with
        | none =>
          rw [hbuild] at hc
          exact absurd hc List.not_mem_nil
        | some b =>
          rw [hbuild] at hc
          exact hold b (Dict.mem_values_iff.2 ⟨_, Dict.get?_eq_some_iff.1 hbuild⟩)
            (Dict.mem_values_iff.2 ⟨key, hc⟩)
      · refine List.mem_append_left _ (List.mem_append_right _ ?_)
        rw [hkeys]
        exact Dict.mem_values_iff.2 ⟨key, (List.mem_filter.1 hc).1⟩
    · exact hold b (Dict.mem_values_iff.2 ⟨_, hb⟩) hc

theorem keptLists_subset (d : Document) : keptLists d ⊆ listsOf d := by
  intro c hc
  rcases List.mem_append.1 hc with hc | hc
  · obtain ⟨b, hb, hc⟩ := List.mem_flatMap.1 hc
    exact mem_listsOf_of_liftKeys hb hc
  · obtain ⟨a, ha, rfl⟩ := List.mem_map.1 hc
    obtain ⟨name, ha⟩ := Dict.mem_values_iff.1 ha
    exact List.mem_append_right _
      (List.mem_map.2 ⟨a, Dict.mem_values_iff.2 ⟨name, (List.mem_filter.1 ha).1⟩, rfl⟩)

theorem settles_of_storedTexts {d : Document}
    (h : ∀ s ∈ storedTexts d, KeepsWordStarts s.toList) : Settles d := by
  intro c hc x hx
  have hx : Chain.isCanonical x = true := Commands.isCanonical_of_storedTexts
    (fun s hs => h s (List.mem_flatMap.2 ⟨c, keptLists_subset d hc, hs⟩)) hx
  unfold Settled
  split_ifs
  · intro part hpart
    rw [Chain.split_of_isCanonical hx, List.mem_singleton] at hpart
    rwa [hpart]
  · exact hx

/-- Normalization reaches the contract just if the commands of all lists settle, and they do when
the stored texts keep word starts. -/
theorem reachesContract_iff (now : String) (d : Document) :
    (ReachesContract now d ↔ Settles d) ∧
      ((∀ s ∈ storedTexts d, KeepsWordStarts s.toList) → ReachesContract now d) :=
  ⟨⟨fun h => (isCanonical_normalize_iff now d).1 h.canonical, reachesContract_of_settles now⟩,
    fun h => reachesContract_of_settles now (settles_of_storedTexts h)⟩

/-- A document of the current version that binds one key to a joined text. -/
def joinedDocument (body : String) : Document where
  builds := Dict.ofList [("space", { keys := Dict.ofList [("F1", .text body)] })]
  version := some "2.1.1"

theorem reachesContract_of_quotedSeparator :
    (∀ s ∈ storedTexts (joinedDocument "say 'a $$ b' $$ \"c\""), KeepsWordStarts s.toList) ∧
      ReachesContract "2001-02-03" (joinedDocument "say 'a $$ b' $$ \"c\"") :=
  ⟨by decide +kernel, (reachesContract_iff _ _).2 (by decide +kernel)⟩

/-- The apostrophe behind a no-break space opens no region there, but it opens one at the start of
the command that is cut out, which then holds the separator outside of quotes. -/
theorem not_reachesContract_of_wideBlank : ¬ ∀ now d, ReachesContract now d := by
  intro h
  exact absurd (h "2001-02-03" (joinedDocument "\u00a0'\"'$$\"")).canonical (by decide +kernel)

end Migration

end Keybinds
