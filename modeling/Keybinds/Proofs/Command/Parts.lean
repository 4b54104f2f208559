import Keybinds.Proofs.Command.Table

/-!
# Commands taken apart

A name with an argument behind a space is taken apart into the name, whether a plus sign stands in
front of it, and the argument (`Parts.ofCommand_withArgument`). If the name is that of a known
command whose shape the argument fits, then the command is read as that one
(`Signature.ofCommand_withArgument`).
-/

namespace Keybinds.Command

open Text (IsWord NoBlank Trimmed strip firstWord)

/-! ## Parts -/

theorem toList_withArgument (name argument : String) :
    (withArgument name argument).toList =
      name.toList ++ if argument.toList = [] then [] else ' ' :: argument.toList := by
  unfold withArgument
  by_cases h : argument = ""
  · subst h
    simp
  · have hempty : argument.isEmpty = false := by simpa using h
    have hne : argument.toList ≠ [] := by simpa using h
    rw [hempty, if_neg hne]
    simp

/-- A command is taken apart where its name ends. -/
theorem Parts.ofCommand_withArgument {name argument : String} (hname : IsName name)
    (hargument : Trimmed argument.toList) :
    Parts.ofCommand (withArgument name argument) =
      ⟨name.toList.head? == some '+', Text.dropPlus name, argument.toList⟩ := by
  have hparts : ∀ {text rest : List Char}, (withArgument name argument).toList = text →
      Trimmed text → text.head? = name.toList.head? →
      firstWord (text.dropWhile (· == '+')) = (name.toList.dropWhile (· == '+'), rest) →
      Parts.ofCommand (withArgument name argument) =
        ⟨name.toList.head? == some '+', Text.dropPlus name, rest⟩ := by
    intro text rest htext htrimmed hhead hfirst
    unfold Parts.ofCommand Text.dropPlus
    rw [htext, Text.strip_eq_self htrimmed]
    simp only [hfirst, hhead]
  have htext := toList_withArgument name argument
  by_cases hempty : argument.toList = []
  · rw [if_pos hempty, List.append_nil] at htext
    rw [hempty]
    exact hparts htext hname.isWord.trimmed rfl (Text.firstWord_of_isWord hname.isWord_bare)
  · rw [if_neg hempty] at htext
    refine hparts htext (hname.isWord.trimmed.append_space hname.ne_nil hargument hempty)
      (List.head?_append_of_ne_nil _ hname.ne_nil) ?_
    have hdrop : (name.toList ++ ' ' :: argument.toList).dropWhile (· == '+') =
        name.toList.dropWhile (· == '+') ++ ' ' :: argument.toList := by
      rw [List.dropWhile_append, if_neg (by simpa using hname.bare_ne_nil)]
    have hspace : Text.AllBlank [' '] := by
      intro c hc
      rw [List.mem_singleton.1 hc]
      rfl
    rw [hdrop, Text.firstWord_append hname.isWord_bare.2 hname.bare_ne_nil rfl,
      ← List.singleton_append, Text.strip_append_left hspace, Text.strip_eq_self hargument]

/-! ## Known commands -/

/-- A command with the name of a known one and an argument that fits is read as that one. -/
theorem Signature.ofCommand_withArgument {d : Definition} (hd : d ∈ Definition.known)
    {name argument : String} (hname : IsName name) (hbare : bareName name = bareName d.name)
    (hargument : Trimmed argument.toList) {parameters : Parameters}
    (hparameters : d.shape.parameters? ⟨name.toList.head? == some '+', Text.dropPlus name,
      argument.toList⟩ = some parameters) :
    Signature.ofCommand (withArgument name argument) = ⟨d.category, some d.id, parameters⟩ := by
  have hsound := Definition.isSound_of_mem hd
  unfold Signature.ofCommand resolve
  rw [Parts.ofCommand_withArgument hname hargument]
  simp only [bareName_dropPlus, hbare, hsound.category, hsound.byName, Option.filter_some,
    decide_true, if_true, Option.bind_eq_bind, Option.bind_some, hparameters, Option.pure_def]

end Keybinds.Command
