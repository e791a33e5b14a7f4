import Mathlib.Data.List.Basic
import Mathlib.Data.List.Infix

/-!
# Runs of a step function

A component is a state and a step function, and a run is a list of steps taken one after the other
(`runFrom`). Two ways of speaking about a whole run are used throughout: a property of every state
the run passes through, the first and the last included (`AlongRun`), and a condition on every
step, read in the state the step is taken in (`EveryStep`).

`runFrom_invariant` carries an invariant along a run whose steps are all allowed, and
`alongRun_iff_everyStep` is the rule for exact conditions: when one step keeps a property exactly
under a condition on the state before it, the property holds along a run exactly when every step of
the run meets the condition. A quantity that no step lowers never falls along a run (`NeverFalls`),
and what happens at single steps is counted over a run by `tally` and listed by `gather`.

What a state is to be compared with is often something that only the steps taken so far determine.
`withTrace` runs a component together with such a record, and the rules above then apply to the
state and the record as one.
-/

set_option autoImplicit false
set_option relaxedAutoImplicit false

namespace OneOS.Foundation

variable {State Step : Type*}

/-- The state reached from `start` by taking `steps` in order. -/
def runFrom (next : State → Step → State) (start : State) (steps : List Step) : State :=
  steps.foldl next start

/-- Every state that the run from `start` passes through has the property: the state after every
initial segment of the steps. -/
def AlongRun (next : State → Step → State) (property : State → Prop) (start : State)
    (steps : List Step) : Prop :=
  ∀ taken, taken <+: steps → property (runFrom next start taken)

/-- Every step of the run from `start` meets the condition in the state it is taken in. -/
def EveryStep (next : State → Step → State) (condition : State → Step → Prop) (start : State)
    (steps : List Step) : Prop :=
  ∀ taken step, taken ++ [step] <+: steps → condition (runFrom next start taken) step

variable {next : State → Step → State} {start : State} {step : Step} {steps later : List Step}
variable {property : State → Prop} {condition : State → Step → Prop}

@[simp] theorem runFrom_nil : runFrom next start [] = start := rfl

@[simp] theorem runFrom_cons :
    runFrom next start (step :: steps) = runFrom next (next start step) steps := rfl

@[simp] theorem runFrom_append :
    runFrom next start (steps ++ later) = runFrom next (runFrom next start steps) later :=
  List.foldl_append

@[simp] theorem alongRun_nil : AlongRun next property start [] ↔ property start := by
  constructor
  · intro halong
    exact halong [] (List.prefix_refl [])
  · intro hstart taken htaken
    rw [List.prefix_nil.mp htaken]
    exact hstart

@[simp] theorem alongRun_cons :
    AlongRun next property start (step :: steps) ↔
      property start ∧ AlongRun next property (next start step) steps := by
  constructor
  · intro halong
    refine ⟨halong [] (List.nil_prefix), fun taken htaken ↦ ?_⟩
    exact halong (step :: taken) (List.cons_prefix_cons.mpr ⟨rfl, htaken⟩)
  · rintro ⟨hstart, halong⟩ taken htaken
    rcases List.prefix_cons_iff.mp htaken with rfl | ⟨rest, rfl, hrest⟩
    · exact hstart
    · exact halong rest hrest

@[simp] theorem everyStep_nil : EveryStep next condition start [] := by
  intro taken step htaken
  have hlength := htaken.length_le
  simp at hlength

@[simp] theorem everyStep_cons :
    EveryStep next condition start (step :: steps) ↔
      condition start step ∧ EveryStep next condition (next start step) steps := by
  constructor
  · intro hevery
    refine ⟨hevery [] step (by simp), fun taken last htaken ↦ ?_⟩
    exact hevery (step :: taken) last (List.cons_prefix_cons.mpr ⟨rfl, htaken⟩)
  · rintro ⟨hfirst, hevery⟩ taken last htaken
    cases taken with
    | nil =>
      obtain ⟨rfl, -⟩ := List.cons_prefix_cons.mp htaken
      exact hfirst
    | cons head tail =>
      obtain ⟨rfl, htail⟩ := List.cons_prefix_cons.mp htaken
      exact hevery tail last htail

/-- A condition on every step of a run holds on every step of its initial segments. -/
theorem EveryStep.of_prefix {taken : List Step} (hevery : EveryStep next condition start steps)
    (htaken : taken <+: steps) : EveryStep next condition start taken :=
  fun earlier last hearlier ↦ hevery earlier last (hearlier.trans htaken)

/-- A condition on every step of a run splits at any point of the run. -/
theorem everyStep_append :
    EveryStep next condition start (steps ++ later) ↔
      EveryStep next condition start steps ∧
        EveryStep next condition (runFrom next start steps) later := by
  induction steps generalizing start with
  | nil => simp
  | cons step steps ih => simp [ih, and_assoc]

/-- A condition that does not look at the state is met by every step of a run when all its steps
meet it. -/
theorem everyStep_of_forall_mem {condition : Step → Prop} (hall : ∀ step ∈ steps, condition step) :
    EveryStep next (fun _ step ↦ condition step) start steps :=
  fun _ step htaken ↦ hall step (htaken.mem (List.mem_append_right _ List.mem_cons_self))

/-- The invariant rule. Assumes: every allowed step keeps the invariant. A run of allowed steps
from a state with the invariant ends in a state with the invariant. -/
theorem runFrom_invariant (invariant : State → Prop) (allowed : State → Step → Prop)
    (hkeep : ∀ state step, invariant state → allowed state step → invariant (next state step))
    (hstart : invariant start) (hallowed : EveryStep next allowed start steps) :
    invariant (runFrom next start steps) := by
  induction steps generalizing start with
  | nil => exact hstart
  | cons step steps ih =>
    obtain ⟨hfirst, hrest⟩ := everyStep_cons.mp hallowed
    exact ih (hkeep start step hstart hfirst) hrest

/-- The invariant rule for every state of a run. Assumes: every allowed step keeps the
invariant. -/
theorem alongRun_invariant (invariant : State → Prop) (allowed : State → Step → Prop)
    (hkeep : ∀ state step, invariant state → allowed state step → invariant (next state step))
    (hstart : invariant start) (hallowed : EveryStep next allowed start steps) :
    AlongRun next invariant start steps :=
  fun _ htaken ↦ runFrom_invariant invariant allowed hkeep hstart (hallowed.of_prefix htaken)

/-- A property of every state of a run may be weakened. -/
theorem AlongRun.imp {weaker : State → Prop} (himp : ∀ state, property state → weaker state)
    (halong : AlongRun next property start steps) : AlongRun next weaker start steps :=
  fun taken htaken ↦ himp _ (halong taken htaken)

/-- Every step of a run is as asked when it is from every state with a property that holds along
the run. -/
theorem AlongRun.everyStep (himp : ∀ state step, property state → condition state step)
    (halong : AlongRun next property start steps) : EveryStep next condition start steps := by
  intro taken step htaken
  exact himp _ step (halong taken ((List.prefix_append taken [step]).trans htaken))

/-- Every step of a run leads to a state with a property that holds along the run. -/
theorem AlongRun.everyStep_next (halong : AlongRun next property start steps) :
    EveryStep next (fun state step ↦ property (next state step)) start steps := by
  intro taken step htaken
  have hreached := halong (taken ++ [step]) htaken
  rwa [runFrom_append] at hreached

/-- Two conditions are met by the same runs when they agree on every state with a property that
holds along the run. -/
theorem AlongRun.everyStep_congr {other : State → Step → Prop}
    (hiff : ∀ state step, property state → (condition state step ↔ other state step))
    (halong : AlongRun next property start steps) :
    EveryStep next condition start steps ↔ EveryStep next other start steps := by
  refine forall_congr' fun taken ↦ forall_congr' fun step ↦ forall_congr' fun htaken ↦ ?_
  exact hiff _ step (halong taken ((List.prefix_append taken [step]).trans htaken))

/-- Two conditions are met by every step together when each of them is. -/
theorem everyStep_and_iff {other : State → Step → Prop} :
    EveryStep next (fun state step ↦ condition state step ∧ other state step) start steps ↔
      EveryStep next condition start steps ∧ EveryStep next other start steps := by
  constructor
  · intro hboth
    exact ⟨fun taken step htaken ↦ (hboth taken step htaken).1,
      fun taken step htaken ↦ (hboth taken step htaken).2⟩
  · rintro ⟨hfirst, hsecond⟩ taken step htaken
    exact ⟨hfirst taken step htaken, hsecond taken step htaken⟩

/-- The rule for exact conditions. Assumes: an invariant that every allowed step keeps, and that an
allowed step from a state with the invariant and the property reaches a state with the property, in
the way asked of a transition, exactly when it meets the condition. Along a run of allowed steps the
property holds and every transition is as asked, exactly when every step meets the condition. -/
theorem alongRun_and_everyStep_iff (invariant : State → Prop) (allowed : State → Step → Prop)
    {transition : State → Step → Prop}
    (hkeep : ∀ state step, invariant state → allowed state step → invariant (next state step))
    (hexact : ∀ state step, invariant state → allowed state step → property state →
      (property (next state step) ∧ transition state step ↔ condition state step))
    (hinvariant : invariant start) (hstart : property start)
    (hallowed : EveryStep next allowed start steps) :
    AlongRun next property start steps ∧ EveryStep next transition start steps ↔
      EveryStep next condition start steps := by
  induction steps generalizing start with
  | nil => simp [hstart]
  | cons step steps ih =>
    obtain ⟨hfirst, hrest⟩ := everyStep_cons.mp hallowed
    have hnext := hexact start step hinvariant hfirst hstart
    rw [alongRun_cons, everyStep_cons, everyStep_cons]
    constructor
    · rintro ⟨⟨-, halong⟩, htransition, hlater⟩
      have hreached : property (next start step) := halong [] List.nil_prefix
      exact ⟨hnext.mp ⟨hreached, htransition⟩,
        (ih (hkeep start step hinvariant hfirst) hreached hrest).mp ⟨halong, hlater⟩⟩
    · rintro ⟨hcondition, hevery⟩
      obtain ⟨hreached, htransition⟩ := hnext.mpr hcondition
      obtain ⟨halong, hlater⟩ :=
        (ih (hkeep start step hinvariant hfirst) hreached hrest).mpr hevery
      exact ⟨⟨hstart, halong⟩, htransition, hlater⟩

/-- The rule for exact conditions, with nothing asked of a transition but the property of the state
it reaches. -/
theorem alongRun_iff_everyStep (invariant : State → Prop) (allowed : State → Step → Prop)
    (hkeep : ∀ state step, invariant state → allowed state step → invariant (next state step))
    (hexact : ∀ state step, invariant state → allowed state step → property state →
      (property (next state step) ↔ condition state step))
    (hinvariant : invariant start) (hstart : property start)
    (hallowed : EveryStep next allowed start steps) :
    AlongRun next property start steps ↔ EveryStep next condition start steps := by
  have hrule : AlongRun next property start steps ∧ EveryStep next (fun _ _ ↦ True) start steps ↔
      EveryStep next condition start steps :=
    alongRun_and_everyStep_iff invariant allowed hkeep
      (fun state step hinv hstep hproperty ↦
        (and_iff_left trivial).trans (hexact state step hinv hstep hproperty))
      hinvariant hstart hallowed
  rw [← hrule, and_iff_left]
  exact fun _ _ _ ↦ trivial

/-- The rule for exact conditions with an invariant that is lost with the property. Assumes: an
invariant that gives the property and that every allowed step with the condition keeps, and that an
allowed step from a state with the invariant reaches a state with the property, in the way asked of
a transition, exactly when it meets the condition. -/
theorem alongRun_and_everyStep_iff_of_kept (invariant : State → Prop)
    (allowed : State → Step → Prop) {transition : State → Step → Prop}
    (hkeep : ∀ state step, invariant state → allowed state step → condition state step →
      invariant (next state step))
    (hproperty : ∀ state, invariant state → property state)
    (hexact : ∀ state step, invariant state → allowed state step →
      (property (next state step) ∧ transition state step ↔ condition state step))
    (hstart : invariant start) (hallowed : EveryStep next allowed start steps) :
    AlongRun next property start steps ∧ EveryStep next transition start steps ↔
      EveryStep next condition start steps := by
  induction steps generalizing start with
  | nil => simp [hproperty start hstart]
  | cons step steps ih =>
    obtain ⟨hfirst, hrest⟩ := everyStep_cons.mp hallowed
    have hnext := hexact start step hstart hfirst
    rw [alongRun_cons, everyStep_cons, everyStep_cons]
    constructor
    · rintro ⟨⟨-, halong⟩, htransition, hlater⟩
      have hcondition := hnext.mp ⟨halong [] List.nil_prefix, htransition⟩
      exact ⟨hcondition, (ih (hkeep start step hstart hfirst hcondition) hrest).mp ⟨halong, hlater⟩⟩
    · rintro ⟨hcondition, hevery⟩
      obtain ⟨halong, hlater⟩ := (ih (hkeep start step hstart hfirst hcondition) hrest).mpr hevery
      exact ⟨⟨hproperty start hstart, halong⟩, (hnext.mpr hcondition).2, hlater⟩

/-- The rule for exact conditions with an invariant that is lost with the property, with nothing
asked of a transition but the property of the state it reaches. -/
theorem alongRun_iff_everyStep_of_kept (invariant : State → Prop) (allowed : State → Step → Prop)
    (hkeep : ∀ state step, invariant state → allowed state step → condition state step →
      invariant (next state step))
    (hproperty : ∀ state, invariant state → property state)
    (hexact : ∀ state step, invariant state → allowed state step →
      (property (next state step) ↔ condition state step))
    (hstart : invariant start) (hallowed : EveryStep next allowed start steps) :
    AlongRun next property start steps ↔ EveryStep next condition start steps := by
  have hrule : AlongRun next property start steps ∧ EveryStep next (fun _ _ ↦ True) start steps ↔
      EveryStep next condition start steps :=
    alongRun_and_everyStep_iff_of_kept invariant allowed hkeep hproperty
      (fun state step hinv hstep ↦ (and_iff_left trivial).trans (hexact state step hinv hstep))
      hstart hallowed
  rw [← hrule, and_iff_left]
  exact fun _ _ _ ↦ trivial

/-- Assumes: a stronger property that holds at the start, and that every step to a state with the
weaker one keeps. The two hold along the same runs. -/
theorem alongRun_iff_of_stronger (stronger : State → Prop)
    (hweaker : ∀ state, stronger state → property state)
    (hkeep : ∀ state step, stronger state → property (next state step) →
      stronger (next state step))
    (hstart : stronger start) :
    AlongRun next property start steps ↔ AlongRun next stronger start steps := by
  refine ⟨fun halong ↦ ?_, AlongRun.imp hweaker⟩
  exact alongRun_invariant stronger (fun state step ↦ property (next state step)) hkeep hstart
    halong.everyStep_next

/-- The rule for properties that no step regains. Assumes: a property holds after a step exactly
when it held before and the step meets the condition. It holds after a run exactly when it holds at
the start and every step meets the condition. -/
theorem runFrom_iff_everyStep (property : State → Prop)
    (hexact : ∀ state step,
      property (next state step) ↔ property state ∧ condition state step) :
    property (runFrom next start steps) ↔
      property start ∧ EveryStep next condition start steps := by
  induction steps generalizing start with
  | nil => simp
  | cons step steps ih => rw [runFrom_cons, ih, hexact, everyStep_cons, and_assoc]

/-- The rule for damage that shows only later. Assumes: an invariant that every step with the
condition keeps, and under which such a step is sound; that harmless steps meet the condition; and
that after a step without the condition some harmless steps are not all sound. Every step of a run
meets the condition exactly when the run, stopped at any point and continued by harmless steps, is
sound throughout. -/
theorem everyStep_iff_sound_continued (invariant : State → Prop) (harmless : Step → Prop)
    {sound : State → Step → Prop}
    (hkeep : ∀ state step, invariant state → condition state step → invariant (next state step))
    (hharmless : ∀ state step, harmless step → condition state step)
    (hsound : ∀ state step, invariant state → condition state step → sound state step)
    (hdamage : ∀ state step, invariant state → ¬ condition state step →
      ∃ more : List Step, (∀ later ∈ more, harmless later) ∧
        ¬ EveryStep next sound (next state step) more)
    (hstart : invariant start) :
    EveryStep next condition start steps ↔
      ∀ taken more, taken <+: steps → (∀ later ∈ more, harmless later) →
        EveryStep next sound start (taken ++ more) := by
  constructor
  · intro hevery taken more htaken hmore
    have hcondition : EveryStep next condition start (taken ++ more) := by
      refine everyStep_append.mpr ⟨hevery.of_prefix htaken, fun earlier step hearlier ↦ ?_⟩
      exact hharmless _ step (hmore step (hearlier.mem (by simp)))
    intro earlier step hearlier
    have hinvariant : invariant (runFrom next start earlier) :=
      runFrom_invariant invariant condition hkeep hstart
        (hcondition.of_prefix ((List.prefix_append earlier [step]).trans hearlier))
    exact hsound _ step hinvariant (hcondition earlier step hearlier)
  · intro hcontinued
    induction steps generalizing start with
    | nil => exact everyStep_nil
    | cons step steps ih =>
      have hfirst : condition start step := by
        by_contra hviolated
        obtain ⟨more, hmore, hunsound⟩ := hdamage start step hstart hviolated
        have hstopped := hcontinued [step] more (List.cons_prefix_cons.mpr ⟨rfl, List.nil_prefix⟩)
          hmore
        exact hunsound (everyStep_cons.mp hstopped).2
      refine everyStep_cons.mpr ⟨hfirst, ih (hkeep start step hstart hfirst) ?_⟩
      intro taken more htaken hmore
      have hstopped := hcontinued (step :: taken) more
        (List.cons_prefix_cons.mpr ⟨rfl, htaken⟩) hmore
      exact (everyStep_cons.mp hstopped).2

/-! ### Quantities that never fall -/

/-- The quantity never falls along the run: of two states that the run passes through, the later
one has at least as much of it. -/
def NeverFalls {Quantity : Type*} [Preorder Quantity] (next : State → Step → State)
    (quantity : State → Quantity) (start : State) (steps : List Step) : Prop :=
  ∀ earlier later, earlier <+: later → later <+: steps →
    quantity (runFrom next start earlier) ≤ quantity (runFrom next start later)

/-- A quantity never falls along a run exactly when no step of the run lowers it. -/
theorem neverFalls_iff_everyStep {Quantity : Type*} [Preorder Quantity]
    {quantity : State → Quantity} :
    NeverFalls next quantity start steps ↔
      EveryStep next (fun state step ↦ quantity state ≤ quantity (next state step)) start
        steps := by
  constructor
  · intro hrises taken step htaken
    have hstep := hrises taken (taken ++ [step]) (List.prefix_append taken [step]) htaken
    rwa [runFrom_append] at hstep
  · rintro hevery earlier later ⟨rest, rfl⟩ hlater
    rw [runFrom_append]
    -- from the state after `earlier`, the quantity stays above what it is there
    refine runFrom_invariant
      (fun state ↦ quantity (runFrom next start earlier) ≤ quantity state) _
      (fun _ _ hreached hstep ↦ le_trans hreached hstep) (le_refl _)
      (everyStep_append.mp (hevery.of_prefix hlater)).2

/-! ### Sums over the steps of a run -/

/-- What the steps of a run add up to, each weighed in the state it is taken in. -/
def tally (next : State → Step → State) (weight : State → Step → ℕ) (start : State) :
    List Step → ℕ
  | [] => 0
  | step :: steps => weight start step + tally next weight (next start step) steps

theorem tally_concat {weight : State → Step → ℕ} :
    tally next weight start (steps ++ [step]) =
      tally next weight start steps + weight (runFrom next start steps) step := by
  induction steps generalizing start with
  | nil => simp [tally]
  | cons first steps ih => rw [List.cons_append, tally, ih, tally, runFrom_cons, Nat.add_assoc]

/-! ### What the steps of a run put out -/

variable {Output Answer : Type*}

/-- What the steps of a run put out, each in the state it is taken in, in order. -/
def gather (next : State → Step → State) (emit : State → Step → List Output) (start : State) :
    List Step → List Output
  | [] => []
  | step :: steps => emit start step ++ gather next emit (next start step) steps

theorem gather_concat {emit : State → Step → List Output} :
    gather next emit start (steps ++ [step]) =
      gather next emit start steps ++ emit (runFrom next start steps) step := by
  induction steps generalizing start with
  | nil => simp [gather]
  | cons first steps ih =>
    rw [List.cons_append, gather, ih, gather, runFrom_cons, List.append_assoc]

/-- The invariant rule for a state and two things that the steps have put out so far. Assumes: every
allowed step keeps the relation between them. It holds after every run of allowed steps. -/
theorem gather_invariant {emit : State → Step → List Output} {reply : State → Step → List Answer}
    (relation : State → List Output → List Answer → Prop) (allowed : State → Step → Prop)
    (hkeep : ∀ state step outputs answers, relation state outputs answers → allowed state step →
      relation (next state step) (outputs ++ emit state step) (answers ++ reply state step))
    (hstart : relation start [] []) (hallowed : EveryStep next allowed start steps) :
    relation (runFrom next start steps) (gather next emit start steps)
      (gather next reply start steps) := by
  induction steps using List.reverseRecOn with
  | nil => exact hstart
  | append_singleton steps step ih =>
    rw [runFrom_append, gather_concat, gather_concat]
    exact hkeep _ step _ _ (ih (hallowed.of_prefix (List.prefix_append _ _)))
      (hallowed steps step (List.prefix_refl _))

/-! ### Runs with a record of what was done -/

section Traces

variable {Trace : Type*} {track : State → Step → Trace → Trace} {trace : Trace}

/-- A step of a component that also keeps a record: `track` extends the record by a step, read in
the state that the step is taken in. -/
def withTrace (next : State → Step → State) (track : State → Step → Trace → Trace)
    (traced : State × Trace) (step : Step) : State × Trace :=
  (next traced.1 step, track traced.1 step traced.2)

/-- The record does not influence the run. -/
theorem runFrom_withTrace_fst :
    (runFrom (withTrace next track) (start, trace) steps).1 = runFrom next start steps := by
  induction steps generalizing start trace with
  | nil => rfl
  | cons step steps ih => exact ih

/-- A property that does not look at the record is one of the run without it. -/
theorem alongRun_withTrace :
    AlongRun (withTrace next track) (fun traced ↦ property traced.1) (start, trace) steps ↔
      AlongRun next property start steps := by
  refine forall_congr' fun taken ↦ forall_congr' fun _ ↦ ?_
  beta_reduce
  rw [runFrom_withTrace_fst]

/-- A condition that does not look at the record is one on the run without it. -/
theorem everyStep_withTrace :
    EveryStep (withTrace next track) (fun traced step ↦ condition traced.1 step) (start, trace)
        steps ↔ EveryStep next condition start steps := by
  refine forall_congr' fun taken ↦ forall_congr' fun step ↦ forall_congr' fun _ ↦ ?_
  beta_reduce
  rw [runFrom_withTrace_fst]

end Traces

end OneOS.Foundation
