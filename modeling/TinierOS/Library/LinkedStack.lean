import Mathlib.Logic.Function.Basic

/-!
# Stacks that are linked through their elements

A stack without cells of its own: each element stores a link to the one below
it, and a variable points to the top.
-/

namespace TinierOS

universe u

variable {α : Type u}

/-- Following the links from the top visits the given elements and ends. -/
def Linked (next : α → Option α) : Option α → List α → Prop
  | top, [] => top = none
  | top, first :: rest => top = some first ∧ Linked next (next first) rest

namespace Linked

variable {next other : α → Option α}
variable {top : Option α}
variable {element : α}
variable {elements : List α}

/-- Only the links of the elements matter. -/
theorem congr
    (linked : Linked next top elements)
    (same : ∀ element ∈ elements, other element = next element) :
    Linked other top elements := by
  induction elements generalizing top with
  | nil => exact linked
  | cons first rest inductionHypothesis =>
      refine ⟨linked.1, ?_⟩
      rw [same first (List.mem_cons_self ..)]
      apply inductionHypothesis linked.2
      intro element member
      exact same element (List.mem_cons_of_mem _ member)

/-- The element on top, and the stack below it. -/
theorem of_some
    (linked : Linked next (some element) elements) :
    ∃ rest, elements = element :: rest ∧ Linked next (next element) rest := by
  cases elements with
  | nil => cases linked
  | cons first rest =>
      obtain ⟨same, below⟩ := linked
      cases same
      exact ⟨rest, rfl, below⟩

/-- A new element goes on top of the stack it is linked to. -/
theorem push
    [DecidableEq α]
    (linked : Linked next top elements)
    (new : element ∉ elements) :
    Linked (Function.update next element top) (some element)
      (element :: elements) := by
  refine ⟨rfl, ?_⟩
  rw [Function.update_self]
  apply linked.congr
  intro other member
  apply Function.update_of_ne
  rintro rfl
  exact new member

/-- An element that is not on the stack may be linked elsewhere. -/
theorem update
    [DecidableEq α]
    {link : Option α}
    (linked : Linked next top elements)
    (outside : element ∉ elements) :
    Linked (Function.update next element link) top elements := by
  apply linked.congr
  intro other member
  apply Function.update_of_ne
  rintro rfl
  exact outside member

end Linked
end TinierOS
