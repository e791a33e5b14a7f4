import OneOS.Foundation.Runs

/-!
# Programs that may come to an end

A loop whose body may fail, and a run of calls each of which may end the program, go on as long as
nothing fails. Such a loop is followed by one that cannot fail when every step from related states
succeeds and leaves related states (`foldlM_follows`). Where a condition says exactly which steps
succeed, a loop succeeds when all its steps meet it (`isSome_foldlM_iff`), and a run goes on to its
end when each of its calls meets it in the state it is made in (`isSome_runFrom_iff`).

Where a test says which steps end the program, and a function what the others do (`endingStep`), a
run that goes on is the run of that function (`runFrom_endingStep`, `of_runFrom_endingStep`).
-/

set_option autoImplicit false
set_option relaxedAutoImplicit false

namespace OneOS.Foundation

variable {State Image Step : Type*} {step : State → Step → Option State}
  {follow : Image → Step → Image} {relates : State → Image → Prop}

/-- Assumes: every step that is allowed succeeds and is followed. A loop of such steps succeeds and
is followed. -/
theorem foldlM_follows {steps : List Step}
    (hstep : ∀ state image, ∀ call ∈ steps, relates state image →
      ∃ next, step state call = some next ∧ relates next (follow image call))
    {state : State} {image : Image} (hstart : relates state image) :
    ∃ last, steps.foldlM step state = some last ∧ relates last (steps.foldl follow image) := by
  induction steps generalizing state image with
  | nil => exact ⟨state, rfl, hstart⟩
  | cons first steps ih =>
    obtain ⟨next, hfirst, hnext⟩ := hstep state image first List.mem_cons_self hstart
    obtain ⟨last, hlast, hend⟩ :=
      ih (fun state image call hcall ↦ hstep state image call (List.mem_cons_of_mem _ hcall)) hnext
    refine ⟨last, ?_, hend⟩
    rw [List.foldlM_cons, hfirst]
    exact hlast

/-- Assumes: steps that succeed from related states lead to related ones, and those that fail do so
from both. The same holds of loops. -/
theorem foldlM_related {other : Image → Step → Option Image} {steps : List Step}
    (hstep : ∀ state image call, relates state image →
      Option.Rel relates (step state call) (other image call))
    {state : State} {image : Image} (hstart : relates state image) :
    Option.Rel relates (steps.foldlM step state) (steps.foldlM other image) := by
  induction steps generalizing state image with
  | nil => exact Option.Rel.some hstart
  | cons first steps ih =>
    rw [List.foldlM_cons, List.foldlM_cons]
    have hfirst := hstep state image first hstart
    generalize step state first = next, other image first = following at hfirst
    cases hfirst with
    | none => exact Option.Rel.none
    | some hnext => exact ih hnext

/-- A run of a program that may have come to its end is a loop of its calls. -/
theorem runFrom_bind (steps : List Step) (start : Option State) :
    runFrom (fun running call ↦ running.bind fun state ↦ step state call) start steps =
      start.bind fun state ↦ steps.foldlM step state := by
  induction steps generalizing start with
  | nil => cases start <;> rfl
  | cons first steps ih =>
    rw [runFrom, List.foldl_cons]
    refine (ih _).trans ?_
    cases start <;> rfl

variable {invariant : State → Prop} {start : State}

/-- Assumes: exactly the calls that meet a condition go on, and they keep an invariant. A run goes
on to its end exactly when every call meets the condition in the state it is made in. -/
theorem isSome_runFrom_iff {allowed : State → Step → Prop} {steps : List Step}
    (hstep : ∀ state call, invariant state → call ∈ steps →
      ((step state call).isSome = true ↔ allowed state call))
    (hkeep : ∀ state call next, invariant state → call ∈ steps → step state call = some next →
      invariant next) (hstart : invariant start) :
    (runFrom (fun running call ↦ running.bind fun state ↦ step state call) (some start)
        steps).isSome = true ↔
      EveryStep (fun running call ↦ running.bind fun state ↦ step state call)
        (fun running call ↦ ∀ state ∈ running, allowed state call) (some start) steps := by
  induction steps generalizing start with
  | nil => exact ⟨fun _ ↦ everyStep_nil, fun _ ↦ rfl⟩
  | cons first steps ih =>
    rw [runFrom_cons, everyStep_cons, Option.bind_some]
    have hfirst := hstep start first hstart List.mem_cons_self
    cases hnext : step start first with
    | none =>
      rw [hnext] at hfirst
      have hstop : runFrom (fun running call ↦ running.bind fun state ↦ step state call) none
          steps = none := runFrom_bind steps none
      rw [hstop]
      refine ⟨fun hsome ↦ absurd hsome Bool.false_ne_true, fun hall ↦ ?_⟩
      exact absurd (hfirst.mpr (hall.1 start rfl)) Bool.false_ne_true
    | some next =>
      rw [hnext] at hfirst
      refine (ih (fun state call hinv hcall ↦ hstep state call hinv (List.mem_cons_of_mem _ hcall))
        (fun state call last hinv hcall ↦ hkeep state call last hinv (List.mem_cons_of_mem _ hcall))
        (hkeep start first next hstart List.mem_cons_self hnext)).trans (and_iff_right ?_).symm
      rintro state hstate
      obtain rfl := Option.some.inj hstate
      exact hfirst.mp rfl

/-! ### Steps that end the program under a test -/

/-- A step of a program that ends where a test says so. -/
def endingStep (ends : State → Step → Bool) (next : State → Step → State) (running : Option State)
    (call : Step) : Option State :=
  running.bind fun state ↦ if ends state call then none else some (next state call)

variable {ends : State → Step → Bool} {next : State → Step → State} {calls : List Step}

theorem endingStep_some (call : Step) : endingStep ends next (some start) call =
    if ends start call then none else some (next start call) := rfl

/-- Assumes: no step ends the program. The run is the one of what the steps do. -/
theorem runFrom_endingStep
    (hgo : EveryStep next (fun state call ↦ ends state call = false) start calls) :
    runFrom (endingStep ends next) (some start) calls = some (runFrom next start calls) := by
  induction calls generalizing start with
  | nil => rfl
  | cons call calls ih =>
    obtain ⟨hcall, hrest⟩ := everyStep_cons.mp hgo
    rw [runFrom_cons, runFrom_cons, endingStep_some, hcall, if_neg Bool.false_ne_true]
    exact ih hrest

/-- A run that goes on to its end is the one of what the steps do. -/
theorem of_runFrom_endingStep {last : State}
    (hlast : runFrom (endingStep ends next) (some start) calls = some last) :
    runFrom next start calls = last := by
  induction calls generalizing start with
  | nil => exact Option.some.inj hlast
  | cons call calls ih =>
    rw [runFrom_cons, endingStep_some] at hlast
    cases hends : ends start call with
    | true =>
      have hstop : runFrom (endingStep ends next) none calls = none := runFrom_bind calls none
      rw [hends, if_pos rfl, hstop] at hlast
      exact absurd hlast.symm (Option.some_ne_none last)
    | false =>
      rw [hends, if_neg Bool.false_ne_true] at hlast
      exact ih hlast

/-- Assumes: steps that meet a condition do not end the program. Every step of a run meets it
exactly when every step of the run of what the steps do meets it. -/
theorem everyStep_endingStep_iff {condition : State → Step → Prop}
    (hgo : ∀ state call, condition state call → ends state call = false) :
    EveryStep (endingStep ends next) (fun running call ↦ ∀ state ∈ running, condition state call)
        (some start) calls ↔ EveryStep next condition start calls := by
  induction calls generalizing start with
  | nil => exact iff_of_true everyStep_nil everyStep_nil
  | cons call calls ih =>
    have hhead : (∀ state ∈ some start, condition state call) ↔ condition start call := by simp
    rw [everyStep_cons, everyStep_cons, hhead]
    refine and_congr_right fun hcall ↦ ?_
    rw [endingStep_some, hgo start call hcall, if_neg Bool.false_ne_true]
    exact ih

end OneOS.Foundation
