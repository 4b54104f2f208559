import Keybinds.Proofs.Command.Spelling
import Keybinds.Proofs.Stored.Lists

/-!
# The texts that a list stores

Each command of a stored list is cut from a text that the list stores or from a tray command that
was rebuilt from its parameters. The latter hold no apostrophe, so all commands are canonical when
the stored texts keep word starts (`Commands.isCanonical_of_storedTexts`).
-/

namespace Keybinds

theorem Chain.keepsWordStarts_of_notMem {cs : List Char} (h : '\'' ∉ cs) :
    Chain.KeepsWordStarts cs := by
  intro b _ _ hin
  exact h (hin.subset (by simp))

namespace Stored

open Json (Value)
open Chain (KeepsWordStarts)

/-- The text that an element stores. -/
def Element.storedText? : Element → Option String
  | .plain s => some s
  | .rich fields => (fields.get? "command").bind Value.asString?
  | .malformed _ => none

/-- The texts that a list stores. -/
def Commands.storedTexts : Commands → List String
  | .text s => [s]
  | .list items => items.filterMap Element.storedText?
  | .malformed _ => []

theorem richCommand_eq_ok {fields : Dict Value} {command : String}
    (h : richCommand fields = .ok command) :
    (Element.rich fields).storedText? = some command ∨ '\'' ∉ command.toList := by
  unfold richCommand at h
  split at h
  · rename_i text htext
    obtain rfl := Except.ok.inj h
    left
    show (fields.get? "command").bind Value.asString? = some text
    rw [htext]
    rfl
  · right
    split at h
    · obtain ⟨p, -, hspelled⟩ := bind_eq_ok_iff.1 h
      rw [Command.spell_trayCommand] at hspelled
      obtain rfl := Except.ok.inj hspelled
      intro hin
      exact absurd (List.all_eq_true.1 (Command.all_spell _ _) _ hin) (by decide)
    · cases h

theorem Element.exists_body {e : Element} {command : String} (h : command ∈ e.commands) :
    ∃ body, command ∈ Chain.split body ∧ (e.storedText? = some body ∨ '\'' ∉ body.toList) := by
  cases e with
  | plain s => exact ⟨s, h, Or.inl rfl⟩
  | rich fields =>
    unfold Element.commands at h
    dsimp only at h
    cases hrich : richCommand fields with
    | ok body =>
      rw [hrich] at h
      exact ⟨body, h, richCommand_eq_ok hrich⟩
    | error fault =>
      rw [hrich] at h
      exact absurd h List.not_mem_nil
  | malformed value => exact absurd h List.not_mem_nil

/-- A command of a list is cut from a text that the list stores, or from one without
apostrophes. -/
theorem Commands.exists_body {c : Commands} {command : String} (h : command ∈ c.commands) :
    ∃ body, command ∈ Chain.split body ∧ (body ∈ c.storedTexts ∨ '\'' ∉ body.toList) := by
  cases c with
  | text s => exact ⟨s, h, Or.inl List.mem_cons_self⟩
  | list items =>
    obtain ⟨e, he, hcommand⟩ := List.mem_flatMap.1 h
    obtain ⟨body, hbody, hstored⟩ := Element.exists_body hcommand
    exact ⟨body, hbody, hstored.imp (fun hs => List.mem_filterMap.2 ⟨e, he, hs⟩) id⟩
  | malformed value => exact absurd h List.not_mem_nil

/-- The commands of a list are canonical if its texts keep word starts. -/
theorem Commands.isCanonical_of_storedTexts {c : Commands}
    (h : ∀ s ∈ c.storedTexts, KeepsWordStarts s.toList) {command : String}
    (hcommand : command ∈ c.commands) : Chain.isCanonical command = true := by
  obtain ⟨body, hbody, hstored | hnone⟩ := exists_body hcommand
  · exact Chain.isCanonical_of_mem_split (h body hstored) hbody
  · exact Chain.isCanonical_of_mem_split (Chain.keepsWordStarts_of_notMem hnone) hbody

end Stored

end Keybinds
