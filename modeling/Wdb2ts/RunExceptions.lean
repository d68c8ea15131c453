import Wdb2ts.RequestSchedule

/-!
# The exceptions of runRequests

The clauses of `runRequests` that catch other exceptions wait for the running requests before
they throw.  The clause for `ResourceLimit` does not, and a run that has waited too long for a
connection leaves the requests it has started behind.
-/

namespace Wdb2ts

namespace WdbDataRequestManager

variable {F : Type}

namespace RunState

/-- Whenever `runRequests` has left by an exception, no request is running. -/
def NothingAbandoned (state : RunState F) : Prop :=
  ∀ exception, state.location = .threw exception → state.runningThreads.entries = []

/-- The manager tests how long it has waited for a connection, and it is too long. -/
def Overdue (state : RunState F) (environment : Environment) : Prop :=
  state.location = .connected ∧ state.waitingForDbConnection = true ∧
    ∃ waitUntil, state.waitUntil = some waitUntil ∧ waitUntil < environment.now

/-- When the wait for a connection has been too long, no request is running. -/
def IdleWhenOverdue (state : RunState F) : Event F → Prop
  | .finish _ _ => True
  | .proceed environment =>
      state.Overdue environment → state.runningThreads.entries = []

theorem nothingAbandoned_finish {state : RunState F} (before : state.NothingAbandoned)
    (tid : ℕ) (command : WdbDataRequestCommand F) :
    (state.finish tid command).NothingAbandoned := by
  simp only [finish]
  cases state.queries.lookup tid with
  | none => exact before
  | some index => exact before

/-- The loop of `startThreads` never leaves `runRequests` itself. -/
theorem startThreads_not_threw (state : RunState F) (environment : Environment)
    (exception : RunException) :
    (state.startThreads environment).location ≠ .threw exception := by
  simp only [startThreads]
  cases state.threadInfos[state.nextToStart]? with
  | none => exact fun isThrew => by cases isThrew
  | some info =>
      simp only
      split
      · exact fun isThrew => by cases isThrew
      · cases environment.connection with
        | maxUse => exact fun isThrew => by cases isThrew
        | createFailed => exact fun isThrew => by cases isThrew
        | exception what => exact fun isThrew => by cases isThrew
        | unknown => exact fun isThrew => by cases isThrew
        | connected =>
            simp only
            split
            · simp only [startThread]
              split <;> exact fun isThrew => by cases isThrew
            · exact fun isThrew => by cases isThrew

theorem nothingAbandoned_connected {state : RunState F} {environment : Environment}
    (here : state.location = .connected)
    (idle : state.Overdue environment → state.runningThreads.entries = []) :
    (state.connected environment).NothingAbandoned := by
  intro exception isThrew
  simp only [RunState.connected] at isThrew ⊢
  cases isWaiting : state.waitingForDbConnection with
  | true =>
      simp only [isWaiting, if_true] at isThrew ⊢
      cases isUntil : state.waitUntil with
      | none =>
          simp only [isUntil] at isThrew
          split at isThrew <;> cases isThrew
      | some waitUntil =>
          simp only [isUntil] at isThrew ⊢
          split
          · rename_i overdue
            exact idle ⟨here, isWaiting, waitUntil, isUntil, overdue⟩
          · rename_i inTime
            rw [if_neg inTime] at isThrew
            split at isThrew <;> cases isThrew
  | false =>
      simp only [isWaiting, Bool.false_eq_true, if_false] at isThrew
      cases isLast : state.lastStarted.bind fun index => state.threadInfos[index]? with
      | none =>
          rw [isLast] at isThrew
          cases isThrew
      | some info =>
          simp only [isLast] at isThrew
          split at isThrew <;> cases isThrew

theorem nothingAbandoned_waitForCompleted {state : RunState F} (scheduled : state.Scheduled)
    {waitForAtLeast n : ℕ} {behind : Behind}
    (here : state.location = .waitForCompleted waitForAtLeast n behind) :
    (state.waitForCompleted waitForAtLeast n behind).NothingAbandoned := by
  intro exception isThrew
  have decided := scheduled.decided
  simp only [Decided, here] at decided
  have left (isThrew : (state.leave behind).location = .threw exception) :
      ∃ what, behind = .failed what := by
    cases behind with
    | toManyThreads => cases isThrew
    | waitingForDbConnection => cases isThrew
    | stopIfData =>
        simp only [leave] at isThrew
        cases isLast : state.lastStarted.bind fun index => state.threadInfos[index]? with
        | none =>
            rw [isLast] at isThrew
            cases isThrew
        | some info =>
            rw [isLast] at isThrew
            cases isThrew
    | allStarted => cases isThrew
    | failed what => exact ⟨what, rfl⟩
  simp only [RunState.waitForCompleted] at isThrew ⊢
  split
  · rename_i noneRunning
    rw [if_pos noneRunning] at isThrew
    obtain ⟨what, rfl⟩ := left isThrew
    exact List.isEmpty_iff.mp noneRunning
  · rename_i someRunning
    rw [if_neg someRunning] at isThrew
    cases isQueue : state.readyQueue with
    | nil =>
        simp only [isQueue] at isThrew
        split at isThrew
        · rw [here] at isThrew
          cases isThrew
        · rename_i waits
          obtain ⟨what, rfl⟩ := left isThrew
          exact absurd (Or.inl decided) waits
    | cons tid rest =>
        simp only [isQueue, complete] at isThrew
        cases found : state.runningThreads.find? tid with
        | none =>
            rw [found] at isThrew
            cases isThrew
        | some index =>
            rw [found] at isThrew
            cases isThrew

/-- A step abandons no request when none is running once the wait has been too long. -/
theorem nothingAbandoned_step {state : RunState F} (scheduled : state.Scheduled)
    (before : state.NothingAbandoned) {event : Event F} (idle : state.IdleWhenOverdue event) :
    (state.step event).NothingAbandoned := by
  cases event with
  | finish tid command => exact nothingAbandoned_finish before tid command
  | proceed environment =>
      simp only [step, proceed]
      cases here : state.location with
      | loop =>
          simp only
          split <;> exact fun _ isThrew => by cases isThrew
      | startThreads =>
          exact fun exception isThrew =>
            absurd isThrew (startThreads_not_threw state environment exception)
      | started =>
          simp only
          split <;> exact fun _ isThrew => by cases isThrew
      | connected => exact nothingAbandoned_connected here idle
      | waitForCompleted waitForAtLeast n behind =>
          exact nothingAbandoned_waitForCompleted scheduled here
      | returned => exact before
      | threw exception => exact before

/-- A step abandons the running requests once the wait has been too long. -/
theorem idle_of_nothingAbandoned {state : RunState F} {event : Event F}
    (behind : (state.step event).NothingAbandoned) : state.IdleWhenOverdue event := by
  cases event with
  | finish tid command => trivial
  | proceed environment =>
      rintro ⟨here, isWaiting, waitUntil, isUntil, overdue⟩
      have isThrew : state.step (.proceed environment) = { state with
          location := .threw (.resourceLimit
            (Bytes.str "Waiting more than 10 seconds on db connection.")) } := by
        simp [step, proceed, here, RunState.connected, isWaiting, isUntil, overdue]
      rw [isThrew] at behind
      exact behind _ rfl

theorem nothingAbandoned_initial (requests : List (Bool × Bool)) (nParalell : ℤ)
    (toManyThreads hasQueue : Bool) :
    (initial requests nParalell toManyThreads hasQueue : RunState F).NothingAbandoned :=
  fun _ _ => rfl

/-- No request is abandoned in a run exactly when none is running at every step of the run
that finds that the wait for a connection has been too long. -/
theorem nothingAbandoned_iff (requests : List (Bool × Bool)) (nParalell : ℤ)
    (toManyThreads hasQueue : Bool) (events : List (Event F)) :
    (∀ earlier later, events = earlier ++ later →
      (after requests nParalell toManyThreads hasQueue earlier).NothingAbandoned) ↔
    Runs.EachStep step IdleWhenOverdue (initial requests nParalell toManyThreads hasQueue)
      events := by
  constructor
  · intro every
    refine Runs.eachStep_iff_forall_split.mpr fun earlier event later split => ?_
    have behind := every (earlier ++ [event]) later (by rw [split]; simp)
    simp only [after, Runs.run_append, Runs.run_cons, Runs.run_nil] at behind
    exact idle_of_nothingAbandoned behind
  · intro each earlier later split
    rw [split, Runs.eachStep_append] at each
    have both : (after requests nParalell toManyThreads hasQueue earlier).Scheduled ∧
        (after requests nParalell toManyThreads hasQueue earlier).NothingAbandoned :=
      each.1.invariant (fun state => state.Scheduled ∧ state.NothingAbandoned)
        (fun state event invariant idle => ⟨invariant.1.step event,
          nothingAbandoned_step invariant.1 invariant.2 idle⟩)
        ⟨scheduled_initial requests nParalell toManyThreads hasQueue,
          nothingAbandoned_initial requests nParalell toManyThreads hasQueue⟩
    exact both.2

/-- A pool that has no connection left, at a time. -/
def exhausted (now : ℤ) : Environment := ⟨.maxUse, true, now⟩

/-- Two of three requests are started before the pool is exhausted, and only the first one has
finished eleven seconds later. -/
def exhaustedPool : List (Event ℚ) :=
  List.replicate 3 (.proceed connects) ++ List.replicate 3 (.proceed (exhausted 0)) ++
    .finish 0 oneTemperature :: List.replicate 6 (.proceed (exhausted 11))

/-- The second request is still running when `runRequests` throws. -/
theorem not_nothingAbandoned_exhaustedPool :
    ¬∀ (requests : List (Bool × Bool)) (nParalell : ℤ) (toManyThreads hasQueue : Bool)
        (events : List (Event ℚ)),
      (after requests nParalell toManyThreads hasQueue events).NothingAbandoned := by
  intro always
  have nothing := always (List.replicate 3 (false, false)) 0 false true exhaustedPool
    (.resourceLimit (Bytes.str "Waiting more than 10 seconds on db connection."))
    (by decide +kernel)
  revert nothing
  decide +kernel

end RunState

end WdbDataRequestManager

end Wdb2ts
