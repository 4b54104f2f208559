import Keybinds.Chain.Scan

/-!
# Mirrored chains

A mirrored chain is a chain followed by its own reverse. `mirror` makes one and `half?` takes one
apart; a chain is taken apart by comparing its commands as texts, so `half?` undoes `mirror` for
every chain that is not empty.
-/

namespace Keybinds.Chain

/-- The chain followed by its reverse. -/
def mirror (chain : List String) : List String :=
  chain ++ chain.reverse

/-- The mirrored chain as a body. -/
def mirroredBody (chain : List String) : String :=
  join (mirror chain)

/-- The first half of a mirrored chain that is not empty. -/
def half? (chain : List String) : Option (List String) :=
  let half := chain.take (chain.length / 2)
  if chain ≠ [] ∧ chain = mirror half then some half else none

theorem half?_mirror {chain : List String} (h : chain ≠ []) :
    half? (mirror chain) = some chain := by
  have hlen : (mirror chain).length / 2 = chain.length := by simp [mirror]; omega
  have htake : (mirror chain).take chain.length = chain := by simp [mirror]
  have hne : mirror chain ≠ [] := by simp [mirror, h]
  simp only [half?, hlen, htake]
  simp [hne]

/-- A chain is taken apart just if it is a mirrored one. -/
theorem half?_eq_some_iff {chain half : List String} :
    half? chain = some half ↔ chain ≠ [] ∧ chain = mirror half := by
  constructor
  · intro h
    simp only [half?, Option.ite_none_right_eq_some, Option.some.injEq] at h
    obtain ⟨⟨hne, hmirror⟩, hhalf⟩ := h
    exact ⟨hne, hhalf ▸ hmirror⟩
  · rintro ⟨hne, rfl⟩
    refine half?_mirror fun hnil => hne ?_
    rw [hnil]
    rfl

/-- The first half of the mirrored chain that a body holds. -/
def halfOfBody? (body : String) : Option (List String) :=
  half? (split body)

end Keybinds.Chain
