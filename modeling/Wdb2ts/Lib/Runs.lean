import Mathlib.Tactic

/-!
# Runs of a step function

A run applies a step function to the actions of a list, one after the other.  A property
of every step of a run is stated with `EachStep`, and an invariant that each step
preserves holds in the last state.
-/

universe u v

namespace Runs

variable {σ : Type u} {α : Type v} (step : σ → α → σ)

/-- The state after a list of actions. -/
def run (state : σ) (actions : List α) : σ := actions.foldl step state

/-- A property of every step of a run, in the state before the step. -/
def EachStep (holds : σ → α → Prop) : σ → List α → Prop
  | _, [] => True
  | state, action :: rest => holds state action ∧ EachStep holds (step state action) rest

variable {step} {state : σ} {actions : List α} {holds weaker : σ → α → Prop}

@[simp] theorem run_nil : run step state [] = state := rfl

@[simp] theorem run_cons (action : α) :
    run step state (action :: actions) = run step (step state action) actions := rfl

theorem run_append (earlier later : List α) :
    run step state (earlier ++ later) = run step (run step state earlier) later :=
  List.foldl_append

theorem eachStep_append (earlier later : List α) :
    EachStep step holds state (earlier ++ later) ↔
      EachStep step holds state earlier ∧
        EachStep step holds (run step state earlier) later := by
  induction earlier generalizing state with
  | nil => simp [EachStep]
  | cons action rest ih =>
      simp only [List.cons_append, EachStep, run_cons]
      rw [ih, and_assoc]

/-- A property of every step is a property of every way to split the run at a step. -/
theorem eachStep_iff_forall_split :
    EachStep step holds state actions ↔
      ∀ earlier action later, actions = earlier ++ action :: later →
        holds (run step state earlier) action := by
  constructor
  · intro each earlier action later split
    rw [split, eachStep_append] at each
    exact each.2.1
  · intro every
    induction actions generalizing state with
    | nil => trivial
    | cons action rest ih =>
        constructor
        · exact every [] action rest rfl
        · apply ih
          intro earlier other later split
          exact every (action :: earlier) other later (by rw [split]; rfl)

theorem EachStep.mono (each : EachStep step holds state actions)
    (imp : ∀ state action, holds state action → weaker state action) :
    EachStep step weaker state actions := by
  induction actions generalizing state with
  | nil => trivial
  | cons action rest ih => exact ⟨imp state action each.1, ih each.2⟩

theorem EachStep.and (first : EachStep step holds state actions)
    (second : EachStep step weaker state actions) :
    EachStep step (fun state action => holds state action ∧ weaker state action) state
      actions := by
  induction actions generalizing state with
  | nil => trivial
  | cons action rest ih =>
      constructor
      · exact ⟨first.1, second.1⟩
      · exact ih first.2 second.2

theorem eachStep_and :
    EachStep step (fun state action => holds state action ∧ weaker state action) state actions ↔
      EachStep step holds state actions ∧ EachStep step weaker state actions := by
  constructor
  · intro both
    exact ⟨both.mono fun _ _ each => each.1, both.mono fun _ _ each => each.2⟩
  · exact fun both => both.1.and both.2

/-- An invariant that every step preserves holds after the run. -/
theorem EachStep.invariant (invariant : σ → Prop)
    (preserved : ∀ state action, invariant state → holds state action →
      invariant (step state action))
    (start : invariant state) (each : EachStep step holds state actions) :
    invariant (run step state actions) := by
  induction actions generalizing state with
  | nil => exact start
  | cons action rest ih => exact ih (preserved _ _ start each.1) each.2

/-- An invariant that speaks of the actions so far holds after the run. -/
theorem EachStep.historyInvariant (invariant : List α → σ → Prop)
    (preserved : ∀ earlier reached action, invariant earlier reached → holds reached action →
      invariant (earlier ++ [action]) (step reached action))
    (start : invariant [] state) (each : EachStep step holds state actions) :
    invariant actions (run step state actions) := by
  induction actions using List.reverseRecOn with
  | nil => exact start
  | append_singleton earlier action ih =>
      rcases (eachStep_append earlier [action]).mp each with ⟨before, last, _⟩
      rw [run_append]
      exact preserved earlier _ action (ih before) last

/-! ## Refinement -/

section Refinement

variable {abstractState : Type*} {abstractAction : Type*}
  {abstractStep : abstractState → abstractAction → abstractState}

/-- Each step is seen as a step of another system, or not at all. -/
def Simulates (step : σ → α → σ) (abstractStep : abstractState → abstractAction → abstractState)
    (view : σ → abstractState) (invariant : σ → Prop) : Prop :=
  ∀ state action, invariant state →
    view (step state action) = view state ∨
      ∃ seen, view (step state action) = abstractStep (view state) seen

/-- A run is seen as a run of the other system. -/
theorem Simulates.run {view : σ → abstractState} {invariant : σ → Prop}
    (simulates : Simulates step abstractStep view invariant)
    (preserved : ∀ state action, invariant state → invariant (step state action))
    (start : invariant state) (actions : List α) :
    ∃ seen, view (run step state actions) = run abstractStep (view state) seen := by
  induction actions generalizing state with
  | nil => exact ⟨[], rfl⟩
  | cons action rest ih =>
      rcases ih (preserved state action start) with ⟨later, isLater⟩
      rcases simulates state action start with unseen | ⟨first, isFirst⟩
      · exact ⟨later, by rw [run_cons, isLater, unseen]⟩
      · exact ⟨first :: later, by rw [run_cons, isLater, isFirst, run_cons]⟩

end Refinement

/-! ## Steps that may fail -/

section Partial

variable {partialStep : σ → α → Option σ}

/-- When an action decides whether its step succeeds, a run succeeds exactly when the steps
of all its actions do. -/
theorem isSome_foldlM_iff {succeeds : α → Prop}
    (each : ∀ state action, (partialStep state action).isSome ↔ succeeds action) :
    (actions.foldlM partialStep state).isSome ↔ ∀ action ∈ actions, succeeds action := by
  induction actions generalizing state with
  | nil => simp
  | cons action rest ih =>
      rw [List.foldlM_cons, List.forall_mem_cons, ← each state action]
      cases next : partialStep state action with
      | none => simp
      | some after => simpa using ih

/-- When every step that succeeds appends to a list, a run appends what its actions do. -/
theorem foldlM_appends {β : Type*} (view : σ → List β) {image : α → β}
    (each : ∀ state action after, partialStep state action = some after →
      view after = view state ++ [image action])
    {after : σ} (runs : actions.foldlM partialStep state = some after) :
    view after = view state ++ actions.map image := by
  induction actions generalizing state with
  | nil =>
      have same : state = after := Option.some.inj runs
      rw [same, List.map_nil, List.append_nil]
  | cons action rest ih =>
      rw [List.foldlM_cons, Option.bind_eq_bind, Option.bind_eq_some_iff] at runs
      rcases runs with ⟨next, first, later⟩
      rw [ih later, each state action next first, List.append_assoc]
      rfl

/-- When no step that succeeds lowers a value, and each raises it to that of its action, a run
raises it to those of all its actions. -/
theorem le_of_foldlM {β : Type*} [Preorder β] (view : σ → β) {image : α → β}
    (each : ∀ state action after, partialStep state action = some after →
      view state ≤ view after ∧ image action ≤ view after)
    {after : σ} (runs : actions.foldlM partialStep state = some after) :
    view state ≤ view after ∧ ∀ action ∈ actions, image action ≤ view after := by
  induction actions generalizing state with
  | nil =>
      have same : state = after := Option.some.inj runs
      rw [same]
      exact ⟨le_refl _, fun _ none => absurd none List.not_mem_nil⟩
  | cons action rest ih =>
      rw [List.foldlM_cons, Option.bind_eq_bind, Option.bind_eq_some_iff] at runs
      rcases runs with ⟨next, first, later⟩
      have raised := each state action next first
      have kept := ih later
      refine ⟨raised.1.trans kept.1, ?_⟩
      rw [List.forall_mem_cons]
      exact ⟨raised.2.trans kept.1, kept.2⟩

end Partial

end Runs
