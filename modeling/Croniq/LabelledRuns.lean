import Mathlib.Data.List.Basic

/-!
# Runs of labelled partial step functions

A system is a partial function `step : State → Label → Option State`: a label
names the step to take together with every nondeterministic choice made in it,
and `none` says that the step is not enabled.
-/

namespace LabelledRuns

variable {State Label : Type*}

def run (step : State → Label → Option State) : State → List Label → Option State
  | state, [] => some state
  | state, label :: labels => (step state label).bind fun next => run step next labels

/-- Every step along the labels meets `condition`, which sees the state it starts from. -/
def Along (step : State → Label → Option State) (condition : State → Label → Prop) :
    State → List Label → Prop
  | _, [] => True
  | state, label :: labels =>
    condition state label ∧ ∀ next, step state label = some next → Along step condition next labels

theorem of_guard {guard : Prop} [Decidable guard] {taken next : State}
    (steps : (if guard then some taken else none) = some next) : guard ∧ taken = next := by
  simpa using steps

theorem of_else {guard : Prop} [Decidable guard] {rest : Option State} {next : State}
    (steps : (if guard then none else rest) = some next) : ¬guard ∧ rest = some next := by
  simpa using steps

theorem of_unless {guard : Prop} [Decidable guard] {taken next : State}
    (steps : (if guard then none else some taken) = some next) : ¬guard ∧ taken = next := by
  simpa using steps

variable {step : State → Label → Option State}

theorem run_cons_iff {state final : State} {label : Label} {labels : List Label} :
    run step state (label :: labels) = some final ↔
      ∃ next, step state label = some next ∧ run step next labels = some final := by
  simp [run,Option.bind_eq_some_iff]

variable {condition : State → Label → Prop}

theorem Along.cons
    {state next : State} {label : Label} {labels : List Label} (meets : condition state label)
    (stepTo : step state label = some next) (rest : Along step condition next labels) :
    Along step condition state (label :: labels) := by
  refine ⟨meets,fun other stepToOther => ?_⟩
  rw [stepTo] at stepToOther
  cases stepToOther
  exact rest

/-- Whether a given run meets a condition can be evaluated. -/
def decidableAlong {step : State → Label → Option State} {condition : State → Label → Prop}
    [∀ state label,Decidable (condition state label)] :
    (state : State) → (labels : List Label) → Decidable (Along step condition state labels)
  | _, [] => isTrue trivial
  | state, label :: labels =>
    match stepTo : step state label with
    | none => decidable_of_iff (condition state label) (by simp [Along,stepTo])
    | some next =>
      have : Decidable (Along step condition next labels) := decidableAlong next labels
      decidable_of_iff (condition state label ∧ Along step condition next labels)
        (by simp [Along,stepTo])

instance {step : State → Label → Option State} {condition : State → Label → Prop}
    [∀ state label,Decidable (condition state label)] (state : State) (labels : List Label) :
    Decidable (Along step condition state labels) :=
  decidableAlong state labels

theorem along_of_forall_mem {labels : List Label}
    (all : ∀ label ∈ labels, ∀ state, condition state label) (state : State) :
    Along step condition state labels := by
  induction labels generalizing state with
  | nil => trivial
  | cons label labels ih =>
    obtain ⟨here,rest⟩ := List.forall_mem_cons.mp all
    exact ⟨here state,fun next _ => ih rest next⟩

variable {invariant : State → Prop}

/-- An invariant of the steps with certain labels gives a condition at each of them. -/
theorem along_of_invariant {allowed : Label → Prop}
    (preserved : ∀ state label next, invariant state → allowed label →
      step state label = some next → invariant next)
    (meets : ∀ state label, invariant state → allowed label → condition state label)
    {state : State} {labels : List Label} (all : ∀ label ∈ labels, allowed label)
    (initially : invariant state) : Along step condition state labels := by
  induction labels generalizing state with
  | nil => trivial
  | cons label labels ih =>
    obtain ⟨isAllowed,rest⟩ := List.forall_mem_cons.mp all
    refine ⟨meets state label initially isAllowed,fun next stepTo => ih rest ?_⟩
    exact preserved state label next initially isAllowed stepTo

/-- An invariant preserved by every step that meets the condition survives every run of such steps.
-/
theorem invariant_of_along
    (preserved : ∀ state label next, invariant state → condition state label →
      step state label = some next → invariant next)
    {state final : State} {labels : List Label}
    (initially : invariant state) (along : Along step condition state labels)
    (reaches : run step state labels = some final) : invariant final := by
  induction labels generalizing state with
  | nil =>
    cases reaches
    exact initially
  | cons label labels ih =>
    obtain ⟨next,stepTo,rest⟩ := run_cons_iff.mp reaches
    exact ih (preserved state label next initially along.1 stepTo)
      (along.2 next stepTo) rest

theorem invariant_of_run (invariant : State → Prop)
    (preserved : ∀ state label next, invariant state →
      step state label = some next → invariant next)
    {state final : State} {labels : List Label}
    (initially : invariant state) (reaches : run step state labels = some final) :
    invariant final :=
  invariant_of_along (fun state label next held _ => preserved state label next held) initially
    (along_of_forall_mem (fun _ _ _ => trivial) state) reaches

end LabelledRuns
