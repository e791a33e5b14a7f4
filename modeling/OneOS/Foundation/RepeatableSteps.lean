import Mathlib.Data.List.Basic

/-!
# Work that may be done again

Steps that may be taken in any order and that make no difference when they are taken again. What a
list of such steps leaves depends only on which steps it has: a step that is in the list may be
taken before it as well (`foldl_append_of_subset`). So work that was stopped anywhere may be begun
again.
-/

set_option autoImplicit false
set_option relaxedAutoImplicit false

namespace OneOS.Foundation

variable {State Step : Type*} {step : State → Step → State}

/-- Steps that may be taken in any order, and again. -/
structure Repeatable (step : State → Step → State) : Prop where
  comm : ∀ state first second, step (step state first) second = step (step state second) first
  again : ∀ state first, step (step state first) first = step state first

variable (hstep : Repeatable step)

include hstep

/-- A step that is in a list makes no difference before it. -/
theorem foldl_step_of_mem {steps : List Step} {first : Step} (hfirst : first ∈ steps)
    (state : State) : steps.foldl step (step state first) = steps.foldl step state := by
  induction steps generalizing state with
  | nil => exact absurd hfirst List.not_mem_nil
  | cons next steps ih =>
    rw [List.foldl_cons, List.foldl_cons]
    rcases List.mem_cons.mp hfirst with rfl | hlater
    · rw [hstep.again]
    · rw [hstep.comm, ih hlater]

/-- Steps that are all in a list make no difference before it. -/
theorem foldl_append_of_subset {earlier steps : List Step} (hsubset : earlier ⊆ steps)
    (state : State) : (earlier ++ steps).foldl step state = steps.foldl step state := by
  induction earlier generalizing state with
  | nil => rfl
  | cons first earlier ih =>
    rw [List.cons_append, List.foldl_cons, ih (List.subset_of_cons_subset hsubset)]
    exact foldl_step_of_mem hstep (hsubset List.mem_cons_self) state

end OneOS.Foundation
