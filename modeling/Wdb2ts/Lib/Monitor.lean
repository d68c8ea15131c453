import Wdb2ts.Lib.Runs

/-!
# Monitors

A monitor is a value that threads share under one lock and one condition variable.  The
operations are told by their critical sections: a section ends when the thread goes to sleep
on the condition variable, or when the operation returns.  A thread that is woken runs the
next section of its operation, in any order with the sections of the other threads.

The rules of this module reduce a property of every run to the sections.
-/

universe u v w x

namespace Monitor

/-- Which of the sleeping threads a section wakes at its end. -/
inductive Notify where
  | none
  | one
  | all
  deriving DecidableEq

/-- The end of a section: the thread sleeps, or its operation returns. -/
inductive Outcome (σ : Type u) (ρ : Type v) where
  | wait (shared : σ)
  | leave (shared : σ) (result : ρ) (notify : Notify)

/-- The shared value at the end of a section. -/
def Outcome.shared {σ : Type u} {ρ : Type v} : Outcome σ ρ → σ
  | .wait shared => shared
  | .leave shared _ _ => shared

/-- The section ends with the thread asleep. -/
def Outcome.Waits {σ : Type u} {ρ : Type v} : Outcome σ ρ → Prop
  | .wait _ => True
  | .leave _ _ _ => False

/-- The critical sections of the operations.  An operation enters with its first section, and
resumes after each wait, which tells whether it timed out. -/
structure Sections (σ : Type u) (ω : Type w) (ρ : Type v) where
  enter : ω → σ → Outcome σ ρ
  resume : ω → Bool → σ → Outcome σ ρ

/-- The shared value, the threads that sleep, those that are woken and have not run since, and
the operations that have returned. -/
structure State (τ : Type x) (σ : Type u) (ω : Type w) (ρ : Type v) where
  shared : σ
  asleep : List (τ × ω)
  woken : List (τ × ω)
  history : List (τ × ω × ρ)

/-- What happens next.  A thread calls an operation, a sleeping thread wakes by itself or by its
timeout, or a thread that is woken gets the lock.  `choice` selects the thread that a
notification of one thread wakes. -/
inductive Action (τ : Type x) (ω : Type w) where
  | call (thread : τ) (operation : ω) (choice : ℕ)
  | wake (thread : τ)
  | resume (thread : τ) (timedOut : Bool) (choice : ℕ)

variable {τ : Type x} {σ : Type u} {ω : Type w} {ρ : Type v}

namespace State

/-- No operation so far. -/
def initial (shared : σ) : State τ σ ω ρ :=
  { shared := shared
    asleep := []
    woken := []
    history := [] }

/-- The threads inside of an operation. -/
def inside (state : State τ σ ω ρ) : List (τ × ω) := state.asleep ++ state.woken

/-- The thread is inside of an operation. -/
def Busy (state : State τ σ ω ρ) (thread : τ) : Prop := thread ∈ state.inside.map Prod.fst

instance [DecidableEq τ] (state : State τ σ ω ρ) (thread : τ) : Decidable (state.Busy thread) :=
  inferInstanceAs (Decidable (thread ∈ _))

/-- Wake the threads of a notification. -/
def notify (choice : ℕ) (state : State τ σ ω ρ) : Notify → State τ σ ω ρ
  | .none => state
  | .one =>
      match state.asleep[choice % state.asleep.length]? with
      | none => state
      | some sleeper =>
          { state with
            asleep := state.asleep.eraseIdx (choice % state.asleep.length)
            woken := state.woken ++ [sleeper] }
  | .all => { state with asleep := [], woken := state.woken ++ state.asleep }

/-- The state behind a section of a thread. -/
def settle (thread : τ) (operation : ω) (choice : ℕ) (state : State τ σ ω ρ) :
    Outcome σ ρ → State τ σ ω ρ
  | .wait shared =>
      { state with shared := shared, asleep := state.asleep ++ [(thread, operation)] }
  | .leave shared result ends =>
      { state with
        shared := shared
        history := state.history ++ [(thread, operation, result)] }.notify choice ends

/-- One action.  A thread that is inside of an operation calls no other one. -/
def step [DecidableEq τ] (sections : Sections σ ω ρ) (state : State τ σ ω ρ) :
    Action τ ω → State τ σ ω ρ
  | .call thread operation choice =>
      if state.Busy thread then state
      else state.settle thread operation choice (sections.enter operation state.shared)
  | .wake thread =>
      match state.asleep.find? fun sleeper => sleeper.1 = thread with
      | none => state
      | some sleeper =>
          { state with
            asleep := state.asleep.eraseP fun sleeper => sleeper.1 = thread
            woken := state.woken ++ [sleeper] }
  | .resume thread timedOut choice =>
      match state.woken.find? fun sleeper => sleeper.1 = thread with
      | none => state
      | some sleeper =>
          { state with
            woken := state.woken.eraseP fun sleeper => sleeper.1 = thread }.settle
              sleeper.1 sleeper.2 choice (sections.resume sleeper.2 timedOut state.shared)

@[simp] theorem notify_shared (choice : ℕ) (state : State τ σ ω ρ) (ends : Notify) :
    (state.notify choice ends).shared = state.shared := by
  cases ends with
  | none => rfl
  | one =>
      simp only [notify]
      split <;> rfl
  | all => rfl

@[simp] theorem notify_history (choice : ℕ) (state : State τ σ ω ρ) (ends : Notify) :
    (state.notify choice ends).history = state.history := by
  cases ends with
  | none => rfl
  | one =>
      simp only [notify]
      split <;> rfl
  | all => rfl

/-- A notification moves threads from the sleeping ones to the woken ones. -/
theorem inside_notify_perm (choice : ℕ) (state : State τ σ ω ρ) (ends : Notify) :
    (state.notify choice ends).inside.Perm state.inside := by
  cases ends with
  | none => exact List.Perm.refl _
  | one =>
      simp only [notify, inside]
      split
      · exact List.Perm.refl _
      · rename_i sleeper isSleeper
        have bound := (List.getElem?_eq_some_iff.mp isSleeper).1
        have split := List.getElem_cons_eraseIdx_perm bound
        rw [(List.getElem?_eq_some_iff.mp isSleeper).2] at split
        rw [← List.append_assoc]
        refine (List.perm_append_singleton _ _).trans ?_
        rw [← List.cons_append]
        exact split.append_right _
  | all =>
      simp only [notify, inside, List.nil_append]
      exact List.perm_append_comm

theorem mem_asleep_notify {choice : ℕ} {state : State τ σ ω ρ} {ends : Notify}
    {sleeper : τ × ω} (member : sleeper ∈ (state.notify choice ends).asleep) :
    sleeper ∈ state.asleep ∧ ends ≠ .all := by
  cases ends with
  | none => exact ⟨member, nofun⟩
  | one =>
      simp only [notify] at member
      split at member
      · exact ⟨member, nofun⟩
      · exact ⟨List.mem_of_mem_eraseIdx member, nofun⟩
  | all => exact absurd member List.not_mem_nil

/-- A notification of one thread wakes one, when there is one to wake. -/
theorem length_woken_notify_one (choice : ℕ) (state : State τ σ ω ρ)
    (sleeping : state.asleep ≠ []) :
    (state.notify choice .one).woken.length = state.woken.length + 1 := by
  have bound : choice % state.asleep.length < state.asleep.length :=
    Nat.mod_lt _ (List.length_pos_iff.mpr sleeping)
  simp [notify, List.getElem?_eq_getElem bound]

/-- A thread that waits is inside of its operation. -/
theorem inside_settle_wait_perm (thread : τ) (operation : ω) (choice : ℕ)
    (state : State τ σ ω ρ) (shared : σ) :
    (state.settle thread operation choice (.wait shared)).inside.Perm
      ((thread, operation) :: state.inside) := by
  simp only [settle, inside, List.append_assoc, List.singleton_append]
  exact List.perm_middle

/-- A thread that leaves changes nothing about the other threads inside. -/
theorem inside_settle_leave_perm (thread : τ) (operation : ω) (choice : ℕ)
    (state : State τ σ ω ρ) (shared : σ) (result : ρ) (ends : Notify) :
    (state.settle thread operation choice (.leave shared result ends)).inside.Perm
      state.inside :=
  inside_notify_perm choice _ ends

/-- A thread that wakes stays inside of its operation. -/
theorem inside_wake_perm {state : State τ σ ω ρ} {before after : List (τ × ω)}
    {sleeper : τ × ω} (split : state.asleep = before ++ sleeper :: after) :
    { state with asleep := before ++ after, woken := state.woken ++ [sleeper] }.inside.Perm
      state.inside := by
  simp only [inside, split, ← List.append_assoc]
  refine (List.perm_append_singleton _ _).trans ?_
  rw [← List.cons_append]
  exact List.perm_middle.symm.append_right _

/-- The other threads inside, while a woken thread has the lock. -/
theorem inside_rest_perm {state : State τ σ ω ρ} {before after : List (τ × ω)}
    {sleeper : τ × ω} (split : state.woken = before ++ sleeper :: after) :
    state.inside.Perm (sleeper :: { state with woken := before ++ after }.inside) := by
  simp only [inside, split, ← List.append_assoc]
  exact List.perm_middle

end State

/-! ## The rule of invariants -/

section Rules

variable {sections : Sections σ ω ρ}

/-- A condition on the calls of a run. -/
def Permits (permitted : State τ σ ω ρ → τ → ω → Prop) (state : State τ σ ω ρ) :
    Action τ ω → Prop
  | .call thread operation _ => permitted state thread operation
  | .wake _ => True
  | .resume _ _ _ => True

/-- What the steps of the threads have to keep of an invariant: a call of a thread that is in
no operation, a sleeping thread that wakes, and a woken thread that goes on. -/
structure Preserves (sections : Sections σ ω ρ)
    (permitted : State τ σ ω ρ → τ → ω → Prop) (invariant : State τ σ ω ρ → Prop) :
    Prop where
  call : ∀ state thread operation choice, invariant state → permitted state thread operation →
    ¬state.Busy thread →
      invariant (state.settle thread operation choice
        (sections.enter operation state.shared))
  wake : ∀ state before sleeper after, invariant state →
    state.asleep = before ++ sleeper :: after →
      invariant { state with
        asleep := before ++ after
        woken := state.woken ++ [sleeper] }
  resume : ∀ state before sleeper after timedOut choice, invariant state →
    state.woken = before ++ sleeper :: after →
      invariant (State.settle sleeper.1 sleeper.2 choice
        { state with woken := before ++ after }
        (sections.resume sleeper.2 timedOut state.shared))

variable {permitted : State τ σ ω ρ → τ → ω → Prop} {invariant : State τ σ ω ρ → Prop}

/-- The first element with a property splits its list. -/
theorem exists_split_eraseP {α : Type*} {list : List α} {found : α} {accept : α → Bool}
    (isFirst : list.find? accept = some found) :
    ∃ before after, list = before ++ found :: after ∧ list.eraseP accept = before ++ after := by
  obtain ⟨accepted, before, after, split, rejected⟩ := List.find?_eq_some_iff_append.mp isFirst
  refine ⟨before, after, split, ?_⟩
  rw [split, List.eraseP_append_right]
  · rw [List.eraseP_cons_of_pos accepted]
  · intro element member
    simpa using rejected element member

theorem Preserves.step [DecidableEq τ] (preserves : Preserves sections permitted invariant)
    {state : State τ σ ω ρ} {action : Action τ ω} (holds : invariant state)
    (permits : Permits permitted state action) : invariant (state.step sections action) := by
  cases action with
  | call thread operation choice =>
      simp only [State.step]
      split
      · exact holds
      · rename_i free
        exact preserves.call state thread operation choice holds permits free
  | wake thread =>
      simp only [State.step]
      cases found : state.asleep.find? fun sleeper => sleeper.1 = thread with
      | none => exact holds
      | some sleeper =>
          obtain ⟨before, after, split, erased⟩ := exists_split_eraseP found
          simp only [erased]
          exact preserves.wake state before sleeper after holds split
  | resume thread timedOut choice =>
      simp only [State.step]
      cases found : state.woken.find? fun sleeper => sleeper.1 = thread with
      | none => exact holds
      | some sleeper =>
          obtain ⟨before, after, split, erased⟩ := exists_split_eraseP found
          simp only [erased]
          exact preserves.resume state before sleeper after timedOut choice holds split

/-- An invariant of the steps holds after every run. -/
theorem Preserves.run [DecidableEq τ] (preserves : Preserves sections permitted invariant)
    {state : State τ σ ω ρ} (start : invariant state) {actions : List (Action τ ω)}
    (permits : Runs.EachStep (State.step sections) (Permits permitted) state actions) :
    invariant (Runs.run (State.step sections) state actions) :=
  permits.invariant invariant (fun _ _ holds permits => preserves.step holds permits) start

theorem permits_any (state : State τ σ ω ρ) (action : Action τ ω) :
    Permits (fun _ _ _ => True) state action := by
  cases action <;> trivial

/-- An invariant that needs nothing of the calls holds after every run. -/
theorem Preserves.runAny [DecidableEq τ]
    (preserves : Preserves sections (fun _ _ _ => True) invariant) {state : State τ σ ω ρ}
    (start : invariant state) (actions : List (Action τ ω)) :
    invariant (Runs.run (State.step sections) state actions) :=
  preserves.run start (Runs.eachStep_iff_forall_split.mpr fun _ action _ _ => permits_any _ action)

theorem Preserves.mono {stronger : State τ σ ω ρ → τ → ω → Prop}
    (preserves : Preserves sections permitted invariant)
    (permits : ∀ state thread operation,
      stronger state thread operation → permitted state thread operation) :
    Preserves sections stronger invariant where
  call state thread operation choice holds permit :=
    preserves.call state thread operation choice holds (permits state thread operation permit)
  wake := preserves.wake
  resume := preserves.resume

theorem Preserves.congr {other : State τ σ ω ρ → Prop}
    (preserves : Preserves sections permitted invariant)
    (same : ∀ state, other state ↔ invariant state) : Preserves sections permitted other := by
  have equal : other = invariant := funext fun state => propext (same state)
  rw [equal]
  exact preserves

theorem Preserves.and {other : State τ σ ω ρ → Prop}
    (preserves : Preserves sections permitted invariant)
    (preservesOther : Preserves sections permitted other) :
    Preserves sections permitted fun state => invariant state ∧ other state where
  call state thread operation choice holds permit free :=
    ⟨preserves.call state thread operation choice holds.1 permit free,
      preservesOther.call state thread operation choice holds.2 permit free⟩
  wake state before sleeper after holds split :=
    ⟨preserves.wake state before sleeper after holds.1 split,
      preservesOther.wake state before sleeper after holds.2 split⟩
  resume state before sleeper after timedOut choice holds split :=
    ⟨preserves.resume state before sleeper after timedOut choice holds.1 split,
      preservesOther.resume state before sleeper after timedOut choice holds.2 split⟩

/-! ## The operations inside -/

/-- A thread is inside of one operation at most. -/
def State.Once (state : State τ σ ω ρ) : Prop := (state.inside.map Prod.fst).Nodup

theorem State.Once.settle {state : State τ σ ω ρ} {thread : τ} {operation : ω} {choice : ℕ}
    {outcome : Outcome σ ρ} (once : state.Once) (free : ¬state.Busy thread) :
    (state.settle thread operation choice outcome).Once := by
  simp only [State.Once]
  cases outcome with
  | wait shared =>
      have same := State.inside_settle_wait_perm thread operation choice state shared
      rw [(same.map Prod.fst).nodup_iff, List.map_cons, List.nodup_cons]
      exact ⟨free, once⟩
  | leave shared result ends =>
      have same := State.inside_settle_leave_perm thread operation choice state shared result ends
      rw [(same.map Prod.fst).nodup_iff]
      exact once

theorem preserves_once : Preserves sections permitted State.Once where
  call state thread operation choice once _ free := once.settle free
  wake state before sleeper after once split := by
    have same := State.inside_wake_perm split
    simp only [State.Once]
    rw [(same.map Prod.fst).nodup_iff]
    exact once
  resume state before sleeper after timedOut choice once split := by
    have same := State.inside_rest_perm split
    simp only [State.Once] at once
    rw [(same.map Prod.fst).nodup_iff, List.map_cons, List.nodup_cons] at once
    exact State.Once.settle once.2 once.1

/-- Every thread inside is allowed to be in its operation. -/
def State.Within (allowed : τ → ω → Prop) (state : State τ σ ω ρ) : Prop :=
  ∀ sleeper ∈ state.inside, allowed sleeper.1 sleeper.2

theorem State.within_initial (allowed : τ → ω → Prop) (shared : σ) :
    (State.initial shared : State τ σ ω ρ).Within allowed := by
  intro sleeper member
  exact absurd member List.not_mem_nil

theorem State.Within.settle {allowed : τ → ω → Prop} {state : State τ σ ω ρ} {thread : τ}
    {operation : ω} {choice : ℕ} {outcome : Outcome σ ρ} (within : state.Within allowed)
    (own : outcome.Waits → allowed thread operation) :
    (state.settle thread operation choice outcome).Within allowed := by
  intro sleeper member
  cases outcome with
  | wait shared =>
      rw [(State.inside_settle_wait_perm thread operation choice state shared).mem_iff] at member
      rcases List.mem_cons.mp member with isOwn | isOther
      · rw [isOwn]
        exact own trivial
      · exact within sleeper isOther
  | leave shared result ends =>
      rw [(State.inside_settle_leave_perm thread operation choice state shared result
        ends).mem_iff] at member
      exact within sleeper member

theorem State.Within.wake {allowed : τ → ω → Prop} {state : State τ σ ω ρ}
    {before after : List (τ × ω)} {sleeper : τ × ω} (within : state.Within allowed)
    (split : state.asleep = before ++ sleeper :: after) :
    { state with
      asleep := before ++ after
      woken := state.woken ++ [sleeper] }.Within allowed := by
  intro other member
  rw [(State.inside_wake_perm split).mem_iff] at member
  exact within other member

theorem State.Within.rest {allowed : τ → ω → Prop} {state : State τ σ ω ρ}
    {before after : List (τ × ω)} {sleeper : τ × ω} (within : state.Within allowed)
    (split : state.woken = before ++ sleeper :: after) :
    allowed sleeper.1 sleeper.2 ∧ { state with woken := before ++ after }.Within allowed := by
  have members := fun other => (State.inside_rest_perm split).mem_iff (a := other)
  constructor
  · apply within sleeper
    rw [members]
    exact List.mem_cons_self
  · intro other member
    apply within other
    rw [members]
    exact List.mem_cons_of_mem _ member

/-! ## What the sections return -/

/-- The end of a section keeps a relation between the shared value and the operations that have
returned. -/
def Outcome.Keeps (relation : σ → List (τ × ω × ρ) → Prop) (thread : τ) (operation : ω)
    (history : List (τ × ω × ρ)) : Outcome σ ρ → Prop
  | .wait shared => relation shared history
  | .leave shared result _ => relation shared (history ++ [(thread, operation, result)])

theorem State.settle_keeps {relation : σ → List (τ × ω × ρ) → Prop} {thread : τ}
    {operation : ω} {choice : ℕ} {state : State τ σ ω ρ} {outcome : Outcome σ ρ}
    (keeps : outcome.Keeps relation thread operation state.history) :
    relation (state.settle thread operation choice outcome).shared
      (state.settle thread operation choice outcome).history := by
  cases outcome with
  | wait shared => exact keeps
  | leave shared result ends =>
      simp only [State.settle, State.notify_shared, State.notify_history]
      exact keeps

/-- A relation between the shared value and the operations that have returned holds after every
run when each section keeps it: the operations take effect in the order in which they return. -/
theorem preserves_history (relation : σ → List (τ × ω × ρ) → Prop)
    {allowed : τ → ω → Prop}
    (waits : ∀ (state : State τ σ ω ρ) thread operation, permitted state thread operation →
      (sections.enter operation state.shared).Waits → allowed thread operation)
    (enter : ∀ (state : State τ σ ω ρ) thread operation, permitted state thread operation →
      relation state.shared state.history →
        (sections.enter operation state.shared).Keeps relation thread operation state.history)
    (resume : ∀ shared history thread operation timedOut, allowed thread operation →
      relation shared history →
        (sections.resume operation timedOut shared).Keeps relation thread operation history) :
    Preserves sections permitted fun state =>
      state.Within allowed ∧ relation state.shared state.history where
  call state thread operation choice holds permit _ := by
    constructor
    · exact holds.1.settle fun sleeps => waits state thread operation permit sleeps
    · exact State.settle_keeps (enter state thread operation permit holds.2)
  wake state before sleeper after holds split := ⟨holds.1.wake split, holds.2⟩
  resume state before sleeper after timedOut choice holds split := by
    obtain ⟨own, rest⟩ := holds.1.rest split
    constructor
    · exact rest.settle fun _ => own
    · apply State.settle_keeps
      exact resume state.shared state.history sleeper.1 sleeper.2 timedOut own holds.2

/-- A property of the shared value that each section keeps holds after every run. -/
theorem preserves_shared (good : σ → Prop) {allowed : τ → ω → Prop}
    (permits : ∀ state thread operation,
      permitted state thread operation → allowed thread operation)
    (enter : ∀ thread operation shared, allowed thread operation → good shared →
      good (sections.enter operation shared).shared)
    (resume : ∀ thread operation timedOut shared, allowed thread operation → good shared →
      good (sections.resume operation timedOut shared).shared) :
    Preserves sections permitted fun state =>
      state.Within allowed ∧ good state.shared := by
  have keeps : ∀ (outcome : Outcome σ ρ) thread operation history, good outcome.shared →
      outcome.Keeps (fun shared (_ : List (τ × ω × ρ)) => good shared) thread operation
        history := by
    intro outcome thread operation history isGood
    cases outcome with
    | wait shared => exact isGood
    | leave shared result ends => exact isGood
  apply preserves_history (fun shared _ => good shared)
    fun state thread operation permit _ => permits state thread operation permit
  · intro state thread operation permit isGood
    apply keeps
    exact enter thread operation state.shared (permits state thread operation permit) isGood
  · intro shared history thread operation timedOut allow isGood
    apply keeps
    exact resume thread operation timedOut shared allow isGood

/-! ## Results that no section returns -/

/-- The operation does not return with a result of the given kind. -/
def Outcome.Avoids (kind : ω → ρ → Bool) (operation : ω) : Outcome σ ρ → Prop
  | .wait _ => True
  | .leave _ result _ => kind operation result = false

theorem State.filter_settle {kind : ω → ρ → Bool} {state : State τ σ ω ρ} {thread : τ}
    {operation : ω} {choice : ℕ} {outcome : Outcome σ ρ} (avoids : outcome.Avoids kind operation) :
    ((state.settle thread operation choice outcome).history.filter fun entry =>
        kind entry.2.1 entry.2.2) =
      state.history.filter fun entry => kind entry.2.1 entry.2.2 := by
  cases outcome with
  | wait shared => rfl
  | leave shared result ends =>
      have isOther : kind operation result = false := avoids
      simp [State.settle, isOther]

/-- When no section that can run next returns a result of a kind, the action returns none. -/
theorem filter_step [DecidableEq τ] {kind : ω → ρ → Bool} {state : State τ σ ω ρ}
    (enter : ∀ operation, (sections.enter operation state.shared).Avoids kind operation)
    (resume : ∀ operation timedOut,
      (sections.resume operation timedOut state.shared).Avoids kind operation)
    (action : Action τ ω) :
    ((state.step sections action).history.filter fun entry => kind entry.2.1 entry.2.2) =
      state.history.filter fun entry => kind entry.2.1 entry.2.2 := by
  cases action with
  | call thread operation choice =>
      simp only [State.step]
      split
      · rfl
      · exact State.filter_settle (enter operation)
  | wake thread =>
      simp only [State.step]
      split
      · rfl
      · rfl
  | resume thread timedOut choice =>
      simp only [State.step]
      split
      · rfl
      · rename_i sleeper _
        exact State.filter_settle (resume sleeper.2 timedOut)

theorem State.mem_history_settle {state : State τ σ ω ρ} {entry : τ × ω × ρ}
    (member : entry ∈ state.history) (thread : τ) (operation : ω) (choice : ℕ)
    (outcome : Outcome σ ρ) :
    entry ∈ (state.settle thread operation choice outcome).history := by
  cases outcome with
  | wait shared => exact member
  | leave shared result ends =>
      simp only [State.settle, State.notify_history]
      exact List.mem_append_left _ member

/-- An operation that has returned stays in the history. -/
theorem mem_history_step [DecidableEq τ] {state : State τ σ ω ρ} {entry : τ × ω × ρ}
    (member : entry ∈ state.history) (action : Action τ ω) :
    entry ∈ (state.step sections action).history := by
  cases action with
  | call thread operation choice =>
      simp only [State.step]
      split
      · exact member
      · exact State.mem_history_settle member _ _ _ _
  | wake thread =>
      simp only [State.step]
      split
      · exact member
      · exact member
  | resume thread timedOut choice =>
      simp only [State.step]
      split
      · exact member
      · apply State.mem_history_settle
        exact member

/-! ## Tallies -/

/-- The weight of the operations that threads are inside of, and of those that have returned. -/
def State.tally (within : ω → ℕ) (returned : ω → ρ → ℕ) (state : State τ σ ω ρ) : ℕ :=
  (state.inside.map fun sleeper => within sleeper.2).sum +
    (state.history.map fun entry => returned entry.2.1 entry.2.2).sum

/-- The end of a section changes a count by the weights of its operation, of which `before` is
counted so far. -/
def Outcome.Tallies (count : σ → ℕ) (within : ω → ℕ) (returned : ω → ρ → ℕ) (operation : ω)
    (before : ℕ) (shared : σ) : Outcome σ ρ → Prop
  | .wait next => count next + before = count shared + within operation
  | .leave next result _ => count next + before = count shared + returned operation result

theorem State.tally_of_perm {within : ω → ℕ} {returned : ω → ρ → ℕ}
    {first second : State τ σ ω ρ} (inside : first.inside.Perm second.inside)
    (history : first.history = second.history) :
    first.tally within returned = second.tally within returned := by
  simp only [State.tally, history]
  rw [(inside.map fun sleeper => within sleeper.2).sum_eq]

theorem State.tally_settle {count : σ → ℕ} {within : ω → ℕ} {returned : ω → ρ → ℕ}
    {state : State τ σ ω ρ} {thread : τ} {operation : ω} {choice : ℕ} {outcome : Outcome σ ρ}
    {before : ℕ} (tallies : outcome.Tallies count within returned operation before state.shared)
    (counted : count state.shared = state.tally within returned + before) :
    count (state.settle thread operation choice outcome).shared =
      (state.settle thread operation choice outcome).tally within returned := by
  cases outcome with
  | wait shared =>
      have same := State.inside_settle_wait_perm thread operation choice state shared
      have inside := (same.map fun sleeper => within sleeper.2).sum_eq
      have tallied : count shared + before = count state.shared + within operation := tallies
      rw [List.map_cons, List.sum_cons] at inside
      simp only [State.tally] at counted ⊢
      simp only [inside]
      simp only [State.settle]
      omega
  | leave shared result ends =>
      have same := State.inside_settle_leave_perm thread operation choice state shared result ends
      have inside := (same.map fun sleeper => within sleeper.2).sum_eq
      have tallied : count shared + before = count state.shared + returned operation result :=
        tallies
      simp only [State.tally] at counted ⊢
      simp only [inside]
      simp only [State.settle, State.notify_shared, State.notify_history, List.map_append,
        List.sum_append, List.map_singleton, List.sum_singleton]
      omega

/-- A count of the shared value that each section changes by the weights of its operation is the
tally after every run. -/
theorem preserves_tally {count : σ → ℕ} {within : ω → ℕ} {returned : ω → ρ → ℕ}
    (enter : ∀ operation shared,
      (sections.enter operation shared).Tallies count within returned operation 0 shared)
    (resume : ∀ operation timedOut shared, within operation ≤ count shared →
      (sections.resume operation timedOut shared).Tallies count within returned operation
        (within operation) shared) :
    Preserves sections permitted fun state =>
      count state.shared = state.tally within returned where
  call state thread operation choice counted _ _ :=
    State.tally_settle (enter operation state.shared) counted
  wake state before sleeper after counted split := by
    rw [State.tally_of_perm (State.inside_wake_perm split) rfl]
    exact counted
  resume state before sleeper after timedOut choice counted split := by
    have inside := ((State.inside_rest_perm split).map fun sleeper => within sleeper.2).sum_eq
    rw [List.map_cons, List.sum_cons] at inside
    have own : within sleeper.2 ≤ count state.shared := by
      simp only [counted, State.tally, inside]
      omega
    have tallies : (sections.resume sleeper.2 timedOut state.shared).Tallies count within returned
        sleeper.2 (within sleeper.2) { state with woken := before ++ after }.shared :=
      resume sleeper.2 timedOut state.shared own
    apply State.tally_settle tallies
    simp only [State.tally] at counted ⊢
    rw [counted, inside]
    omega

/-! ## No lost wake-up with a notification of all threads -/

/-- A section that ends in a wait is blocked, and one that unblocks other threads wakes them. -/
def Outcome.Unblocks (blocked : ω → σ → Prop) (operation : ω) (before : σ) :
    Outcome σ ρ → Prop
  | .wait shared =>
      blocked operation shared ∧ ∀ other, blocked other before → blocked other shared
  | .leave shared _ ends =>
      ends = .all ∨ ∀ other, blocked other before → blocked other shared

/-- Every sleeping thread is blocked. -/
def State.Blocked (blocked : ω → σ → Prop) (state : State τ σ ω ρ) : Prop :=
  ∀ sleeper ∈ state.asleep, blocked sleeper.2 state.shared

theorem State.Blocked.settle {blocked : ω → σ → Prop} {state : State τ σ ω ρ} {thread : τ}
    {operation : ω} {choice : ℕ} {outcome : Outcome σ ρ} (holds : state.Blocked blocked)
    (unblocks : outcome.Unblocks blocked operation state.shared) :
    (state.settle thread operation choice outcome).Blocked blocked := by
  intro sleeper member
  cases outcome with
  | wait shared =>
      rcases List.mem_append.mp member with isOld | isNew
      · exact unblocks.2 sleeper.2 (holds sleeper isOld)
      · rw [List.mem_singleton] at isNew
        rw [isNew]
        exact unblocks.1
  | leave shared result ends =>
      obtain ⟨isOld, notAll⟩ := State.mem_asleep_notify member
      rcases unblocks with isAll | keeps
      · exact absurd isAll notAll
      · simp only [State.settle, State.notify_shared]
        exact keeps sleeper.2 (holds sleeper isOld)

/-- When every section that may unblock a thread notifies all, a sleeping thread is blocked. -/
theorem preserves_blocked {blocked : ω → σ → Prop}
    (enter : ∀ operation shared,
      (sections.enter operation shared).Unblocks blocked operation shared)
    (resume : ∀ operation timedOut shared,
      (sections.resume operation timedOut shared).Unblocks blocked operation shared) :
    Preserves sections permitted (State.Blocked blocked) where
  call state thread operation choice holds _ _ := holds.settle (enter operation state.shared)
  wake state before sleeper after holds split := by
    intro other member
    apply holds other
    rw [split]
    rcases List.mem_append.mp member with isBefore | isAfter
    · exact List.mem_append_left _ isBefore
    · exact List.mem_append_right _ (List.mem_cons_of_mem _ isAfter)
  resume state before sleeper after timedOut choice holds split := by
    have rest : State.Blocked blocked { state with woken := before ++ after } := holds
    exact rest.settle (resume sleeper.2 timedOut state.shared)

/-! ## No lost wake-up with a notification of one thread -/

/-- A section keeps a fact about the shared value.  One that ends in a wait, of an operation that
may wait, has left nothing to do, and one that returns has done `done` pieces of work and
notifies one thread for a new one. -/
def Outcome.Supplies (work : σ → ℕ) (fixed : σ → Prop) (mayWait : Prop) (done : ℕ)
    (before : σ) : Outcome σ ρ → Prop
  | .wait shared => fixed shared ∧ mayWait ∧ work shared = 0
  | .leave shared _ .none => fixed shared ∧ work shared ≤ work before - done
  | .leave shared _ .one => fixed shared ∧ work shared ≤ work before - done + 1
  | .leave shared _ .all => fixed shared

/-- While a thread sleeps, there is a woken thread for each piece of work. -/
structure State.Supplied (work : σ → ℕ) (fixed : σ → Prop) (mayWait : τ → ω → Prop)
    (state : State τ σ ω ρ) : Prop where
  within : state.Within mayWait
  fixed : fixed state.shared
  enough : state.asleep ≠ [] → work state.shared ≤ state.woken.length

theorem State.supplied_settle {work : σ → ℕ} {fixed : σ → Prop} {mayWait : τ → ω → Prop}
    {state : State τ σ ω ρ} {thread : τ} {operation : ω} {choice : ℕ}
    {outcome : Outcome σ ρ} (done : ℕ) (within : state.Within mayWait)
    (enough : state.asleep ≠ [] → work state.shared ≤ state.woken.length + done)
    (supplies : outcome.Supplies work fixed (mayWait thread operation) done state.shared) :
    (state.settle thread operation choice outcome).Supplied work fixed mayWait where
  within := by
    apply within.settle
    intro waits
    cases outcome with
    | wait shared => exact supplies.2.1
    | leave shared result ends => cases waits
  fixed := by
    cases outcome with
    | wait shared => exact supplies.1
    | leave shared result ends =>
        simp only [State.settle, State.notify_shared]
        cases ends with
        | none => exact supplies.1
        | one => exact supplies.1
        | all => exact supplies
  enough sleeping := by
    cases outcome with
    | wait shared =>
        have nothing : work shared = 0 := supplies.2.2
        simp only [State.settle, nothing]
        exact Nat.zero_le _
    | leave shared result ends =>
        obtain ⟨sleeper, member⟩ := List.exists_mem_of_ne_nil _ sleeping
        obtain ⟨isOld, notAll⟩ := State.mem_asleep_notify member
        have slept : state.asleep ≠ [] := List.ne_nil_of_mem isOld
        have before := enough slept
        cases ends with
        | none =>
            have after : work shared ≤ work state.shared - done := supplies.2
            simp only [State.settle, State.notify]
            omega
        | one =>
            have after : work shared ≤ work state.shared - done + 1 := supplies.2
            have woken := State.length_woken_notify_one choice
              { state with
                shared := shared
                history := state.history ++ [(thread, operation, result)] } slept
            simp only [State.settle, State.notify_shared, woken]
            omega
        | all => exact absurd rfl notAll

/-- When a section that makes new work notifies one thread for it, and a woken thread sleeps
again only when nothing is left, no work waits for a sleeping thread. -/
theorem preserves_supplied {work : σ → ℕ} {fixed : σ → Prop} {mayWait : τ → ω → Prop}
    (enter : ∀ (state : State τ σ ω ρ) thread operation, permitted state thread operation →
      fixed state.shared →
        (sections.enter operation state.shared).Supplies work fixed (mayWait thread operation) 0
          state.shared)
    (resume : ∀ thread operation timedOut shared, mayWait thread operation → fixed shared →
      (sections.resume operation timedOut shared).Supplies work fixed (mayWait thread operation)
        1 shared) :
    Preserves sections permitted (State.Supplied work fixed mayWait) where
  call state thread operation choice holds permits _ :=
    State.supplied_settle 0 holds.within holds.enough
      (enter state thread operation permits holds.fixed)
  wake state before sleeper after holds split :=
    { within := holds.within.wake split
      fixed := holds.fixed
      enough := by
        intro _
        have slept : state.asleep ≠ [] := by
          rw [split]
          exact List.append_ne_nil_of_right_ne_nil _ (List.cons_ne_nil _ _)
        have enough := holds.enough slept
        simp only [List.length_append, List.length_singleton]
        omega }
  resume state before sleeper after timedOut choice holds split := by
    obtain ⟨own, rest⟩ := holds.within.rest split
    refine State.supplied_settle 1 rest ?_
      (resume sleeper.1 sleeper.2 timedOut state.shared own holds.fixed)
    intro slept
    have enough := holds.enough slept
    rw [split] at enough
    simp only [List.length_append, List.length_cons] at enough ⊢
    omega

end Rules

end Monitor
