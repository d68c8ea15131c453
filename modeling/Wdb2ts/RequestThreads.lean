import Wdb2ts.Queuemt
import Wdb2ts.RequestSchedule

/-!
# The request threads and their queue

A run of the requests in which the query threads and the manager meet on the `queuemt` of the
completed threads.  The manager sleeps in `waitAndPop`, and a query thread wakes it.
-/

namespace Wdb2ts

namespace WdbDataRequestManager

variable {F : Type}

/-- `readyQueue` with its threads.  The manager is `none`, and a query thread its id. -/
abbrev ReadyQueue := Queuemt.Threads (Option ℕ) ℕ

/-- A run with the queue beside it.  The list `readyQueue` of the run is not used. -/
structure ThreadedRun (F : Type) where
  run : RunState F
  queue : ReadyQueue

/-- An event of the threads: a query thread finishes, the manager wakes by itself, or the manager
goes on. -/
inductive ThreadedEvent (F : Type) where
  | finish (tid : ℕ) (command : WdbDataRequestCommand F) (choice : ℕ)
  | wake
  | proceed (environment : Environment) (choice : ℕ)

namespace ReadyQueue

/-- A thread calls an operation. -/
def call (thread : Option ℕ) (operation : Queuemt.Operation ℕ) (choice : ℕ)
    (queue : ReadyQueue) : ReadyQueue :=
  queue.step (Queuemt.sections ℕ) (.call thread operation choice)

/-- The manager calls an operation, or goes on with the one that it was woken in. -/
def manager (operation : Queuemt.Operation ℕ) (choice : ℕ) (queue : ReadyQueue) : ReadyQueue :=
  if none ∈ queue.woken.map Prod.fst then
    queue.step (Queuemt.sections ℕ) (.resume none false choice)
  else queue.call none operation choice

/-- What the operation of a step has returned. -/
def returned? (before after : ReadyQueue) : Option (Queuemt.Result ℕ) :=
  after.history[before.history.length]?.map fun entry => entry.2.2

end ReadyQueue

namespace ThreadedRun

/-- `runRequests` at its start, with a new queue. -/
def initial (requests : List (Bool × Bool)) (nParalell : ℤ) (toManyThreads hasQueue : Bool) :
    ThreadedRun F :=
  { run := .initial requests nParalell toManyThreads hasQueue
    queue := .initial (Queuemt.new 0) }

/-- `WdbDataRequest::operator()`: the query of a thread finishes, and its id is pushed. -/
def finish (tid : ℕ) (command : WdbDataRequestCommand F) (choice : ℕ)
    (state : ThreadedRun F) : ThreadedRun F :=
  match state.run.queries.lookup tid with
  | none => state
  | some _ =>
      { run := state.run.finish tid command
        queue := state.queue.call (some tid) (.push tid) choice }

/-- The exception `QueueSuspended` in `waitForCompleted`. -/
def throwSuspended (behind : Behind) (state : RunState F) : RunState F :=
  match behind with
  | .failed _ => state.leave behind
  | _ => state.fail (Bytes.str "runRequests: Unknown exception.")

/-- A round of the loop of `waitForCompleted`. -/
def waitForCompleted (waitForAtLeast n : ℕ) (behind : Behind) (choice : ℕ)
    (state : ThreadedRun F) : ThreadedRun F :=
  if state.run.runningThreads.entries.isEmpty then
    { state with run := state.run.leave behind }
  else
    let operation : Queuemt.Operation ℕ :=
      if waitForAtLeast = 0 ∨ n < waitForAtLeast then .waitAndPop else .tryPop
    let queue := state.queue.manager operation choice
    match state.queue.returned? queue with
    | none => { state with queue := queue }
    | some (.popped tid) =>
        { run := state.run.complete waitForAtLeast n behind tid
          queue := queue }
    | some .queueSuspended => { run := throwSuspended behind state.run, queue := queue }
    | some _ => { run := state.run.leave behind, queue := queue }

/-- The next step of the manager. -/
def proceed (environment : Environment) (choice : ℕ) (state : ThreadedRun F) : ThreadedRun F :=
  match state.run.location with
  | .waitForCompleted waitForAtLeast n behind =>
      state.waitForCompleted waitForAtLeast n behind choice
  | _ => { state with run := state.run.proceed environment }

/-- One event. -/
def step (state : ThreadedRun F) : ThreadedEvent F → ThreadedRun F
  | .finish tid command choice => state.finish tid command choice
  | .wake =>
      { state with queue := state.queue.step (Queuemt.sections ℕ) (.wake none) }
  | .proceed environment choice => state.proceed environment choice

/-- `runRequests` after some events of its threads. -/
def after (requests : List (Bool × Bool)) (nParalell : ℤ) (toManyThreads hasQueue : Bool)
    (events : List (ThreadedEvent F)) : ThreadedRun F :=
  Runs.run step (initial requests nParalell toManyThreads hasQueue) events

/-- The run with the completed threads in a list. -/
def view (state : ThreadedRun F) : RunState F :=
  { state.run with readyQueue := state.queue.shared.dataQueue }

end ThreadedRun

/-! ## The operations on the queue -/

namespace ReadyQueue

/-- The calls of the run: a query thread pushes its id, and the manager pops. -/
def Uses : Option ℕ → Queuemt.Operation ℕ → Prop
  | some tid, operation => operation = .push tid
  | none, operation => operation = .waitAndPop ∨ operation = .tryPop

/-- The queue in a run: it has no limit and is not suspended, a thread is inside of one operation
at most, and no wake-up is lost. -/
structure Used (queue : ReadyQueue) : Prop where
  supplied : Queuemt.Supplied queue
  uses : queue.Within Uses
  notSuspended : queue.shared.suspended = false
  once : queue.Once

theorem suspended_waitAndPop {α : Type} (queue : Queuemt α) :
    queue.waitAndPop.shared.suspended = queue.suspended := by
  simp only [Queuemt.waitAndPop]
  cases queue.dataQueue with
  | nil =>
      simp only
      split <;> rfl
  | cons value rest => rfl

theorem suspended_enter {thread : Option ℕ} {operation : Queuemt.Operation ℕ}
    (uses : Uses thread operation) (queue : Queuemt ℕ) :
    (queue.enter operation).shared.suspended = queue.suspended := by
  cases thread with
  | some tid =>
      cases uses
      simp only [Queuemt.enter]
      split
      · rfl
      · split <;> rfl
  | none =>
      cases uses with
      | inl isWait =>
          cases isWait
          exact suspended_waitAndPop queue
      | inr isTry =>
          cases isTry
          simp only [Queuemt.enter]
          cases queue.dataQueue <;> rfl

theorem suspended_resume {thread : Option ℕ} {operation : Queuemt.Operation ℕ}
    (uses : Uses thread operation) (timedOut : Bool) (queue : Queuemt ℕ) :
    (queue.resume operation timedOut).shared.suspended = queue.suspended := by
  cases thread with
  | some tid =>
      cases uses
      simp only [Queuemt.resume]
      split <;> rfl
  | none =>
      cases uses with
      | inl isWait =>
          cases isWait
          exact suspended_waitAndPop queue
      | inr isTry =>
          cases isTry
          have uses : Uses none .tryPop := Or.inr rfl
          exact suspended_enter uses queue

theorem preserves_used :
    Monitor.Preserves (Queuemt.sections ℕ) (fun _ : ReadyQueue => Uses) Used := by
  have noTimeout : ∀ (_ : ReadyQueue) thread operation, Uses thread operation →
      Queuemt.NoTimeout operation := by
    intro _ thread operation uses
    cases thread with
    | some tid =>
        cases uses
        trivial
    | none => rcases uses with rfl | rfl <;> trivial
  have supplied := Queuemt.preserves_supplied.mono noTimeout
  have notSuspended : Monitor.Preserves (Queuemt.sections ℕ) (fun _ : ReadyQueue => Uses)
      fun queue => queue.Within Uses ∧ queue.shared.suspended = false := by
    apply Monitor.preserves_shared fun queue : Queuemt ℕ => queue.suspended = false
    · exact fun _ _ _ uses => uses
    · intro thread operation queue uses isFalse
      exact (suspended_enter uses queue).trans isFalse
    · intro thread operation timedOut queue uses isFalse
      exact (suspended_resume uses timedOut queue).trans isFalse
  have all := (supplied.and notSuspended).and Monitor.preserves_once
  refine all.congr fun queue => ⟨?_, ?_⟩
  · intro used
    exact ⟨⟨used.supplied, used.uses, used.notSuspended⟩, used.once⟩
  · rintro ⟨⟨supplied, uses, notSuspended⟩, once⟩
    exact
      { supplied := supplied
        uses := uses
        notSuspended := notSuspended
        once := once }

theorem used_step {queue : ReadyQueue} (used : Used queue)
    (action : Monitor.Action (Option ℕ) (Queuemt.Operation ℕ))
    (permits : Monitor.Permits (fun _ : ReadyQueue => Uses) queue action) :
    Used (queue.step (Queuemt.sections ℕ) action) :=
  preserves_used.step used permits

theorem used_call {queue : ReadyQueue} (used : Used queue) {thread : Option ℕ}
    {operation : Queuemt.Operation ℕ} (uses : Uses thread operation) (choice : ℕ) :
    Used (queue.call thread operation choice) :=
  used_step used (.call thread operation choice) uses

theorem used_manager {queue : ReadyQueue} (used : Used queue)
    {operation : Queuemt.Operation ℕ} (uses : Uses none operation) (choice : ℕ) :
    Used (queue.manager operation choice) := by
  simp only [ReadyQueue.manager]
  split
  · exact used_step used (.resume none false choice) trivial
  · exact used_call used uses choice

/-- Only the manager is ever inside of an operation.  It sleeps on an empty queue only. -/
theorem Used.places {queue : ReadyQueue} (used : Used queue) :
    (queue.asleep = [] ∧ queue.woken = []) ∨
      (queue.asleep = [(none, .waitAndPop)] ∧ queue.woken = [] ∧
        queue.shared.dataQueue = []) ∨
      (queue.asleep = [] ∧ queue.woken = [(none, .waitAndPop)]) := by
  have isManager : ∀ sleeper ∈ queue.inside, sleeper = (none, .waitAndPop) := by
    rintro ⟨thread, operation⟩ member
    have isWait : operation = .waitAndPop := used.supplied.within _ member
    subst isWait
    have uses := used.uses _ member
    cases thread with
    | none => rfl
    | some tid => cases uses
  have once := used.once
  simp only [Monitor.State.Once] at once
  have enough := used.supplied.enough
  simp only [Monitor.State.inside] at isManager once
  cases isAsleep : queue.asleep with
  | nil =>
      rw [isAsleep, List.nil_append] at isManager once
      cases isWoken : queue.woken with
      | nil => exact Or.inl ⟨rfl, rfl⟩
      | cons first rest =>
          rw [isWoken] at isManager once
          cases isRest : rest with
          | nil =>
              rw [isManager first List.mem_cons_self]
              exact Or.inr (Or.inr ⟨rfl, rfl⟩)
          | cons second more =>
              subst isRest
              simp [isManager first, isManager second] at once
  | cons first rest =>
      rw [isAsleep] at isManager once enough
      cases isOthers : rest ++ queue.woken with
      | nil =>
          have noRest := (List.append_eq_nil_iff.mp isOthers).1
          have noWoken := (List.append_eq_nil_iff.mp isOthers).2
          have noValue := enough (List.cons_ne_nil _ _)
          rw [noWoken, List.length_nil, Nat.le_zero, List.length_eq_zero_iff] at noValue
          rw [noRest, isManager first List.mem_cons_self]
          exact Or.inr (Or.inl ⟨rfl, noWoken, noValue⟩)
      | cons second more =>
          rw [List.cons_append, isOthers] at isManager once
          simp [isManager first, isManager second] at once

theorem Used.notBusy {queue : ReadyQueue} (used : Used queue) (tid : ℕ) :
    ¬queue.Busy (some tid) := by
  rcases used.places with ⟨isAsleep, isWoken⟩ | ⟨isAsleep, isWoken, _⟩ | ⟨isAsleep, isWoken⟩ <;>
    simp [Monitor.State.Busy, Monitor.State.inside, isAsleep, isWoken]

/-- A query thread pushes its id without a wait, and wakes the manager. -/
theorem Used.push {queue : ReadyQueue} (used : Used queue) (tid choice : ℕ) :
    (queue.call (some tid) (.push tid) choice).shared.dataQueue =
        queue.shared.dataQueue ++ [tid] ∧
      (queue.call (some tid) (.push tid) choice).asleep = [] ∧
      ((queue.call (some tid) (.push tid) choice).inside = [] ↔ queue.inside = []) := by
  have notFull : queue.shared.isFull = false := by
    simp [Queuemt.isFull, used.supplied.fixed]
  simp only [call, Monitor.State.step, if_neg (used.notBusy tid), Queuemt.sections,
    Queuemt.enter, used.notSuspended, notFull, Queuemt.pushed, Monitor.State.settle]
  rcases used.places with ⟨isAsleep, isWoken⟩ | ⟨isAsleep, isWoken, _⟩ | ⟨isAsleep, isWoken⟩ <;>
    simp [Monitor.State.notify, Monitor.State.inside, isAsleep, isWoken, Nat.mod_one]

/-- The manager sleeps on an empty queue, and else takes the first id. -/
theorem Used.waitAndPop {queue : ReadyQueue} (used : Used queue) (choice : ℕ) :
    (queue.shared.dataQueue = [] ∧
      (queue.manager .waitAndPop choice).shared.dataQueue = [] ∧
      queue.returned? (queue.manager .waitAndPop choice) = none) ∨
    ∃ tid rest, queue.shared.dataQueue = tid :: rest ∧
      (queue.manager .waitAndPop choice).shared.dataQueue = rest ∧
      queue.returned? (queue.manager .waitAndPop choice) = some (.popped tid) ∧
      (queue.manager .waitAndPop choice).inside = [] := by
  have unlimited : queue.shared.maxSize = 0 := used.supplied.fixed
  rcases used.places with ⟨isAsleep, isWoken⟩ | ⟨isAsleep, isWoken, isEmpty⟩ |
    ⟨isAsleep, isWoken⟩
  · cases isQueue : queue.shared.dataQueue with
    | nil =>
        left
        simp [manager, call, returned?, Monitor.State.step, Monitor.State.Busy,
          Monitor.State.inside, isAsleep, isWoken, Queuemt.sections, Queuemt.enter,
          Queuemt.waitAndPop, isQueue, used.notSuspended, Monitor.State.settle]
    | cons tid rest =>
        right
        refine ⟨tid, rest, rfl, ?_⟩
        simp [manager, call, returned?, Monitor.State.step, Monitor.State.Busy,
          Monitor.State.inside, isAsleep, isWoken, Queuemt.sections, Queuemt.enter,
          Queuemt.waitAndPop, isQueue, Queuemt.poppedFrom, unlimited, Monitor.State.settle,
          Monitor.State.notify]
  · left
    simp [manager, call, returned?, Monitor.State.step, Monitor.State.Busy,
      Monitor.State.inside, isAsleep, isWoken, isEmpty]
  · cases isQueue : queue.shared.dataQueue with
    | nil =>
        left
        simp [manager, returned?, Monitor.State.step, isWoken, Queuemt.sections,
          Queuemt.resume, Queuemt.waitAndPop, isQueue, used.notSuspended, Monitor.State.settle]
    | cons tid rest =>
        right
        refine ⟨tid, rest, rfl, ?_⟩
        simp [manager, returned?, Monitor.State.step, Monitor.State.inside, isAsleep, isWoken,
          Queuemt.sections, Queuemt.resume, Queuemt.waitAndPop, isQueue, Queuemt.poppedFrom,
          unlimited, Monitor.State.settle, Monitor.State.notify]

/-- Outside of an operation, the manager tries to take the first id. -/
theorem Used.tryPop {queue : ReadyQueue} (used : Used queue) (outside : queue.inside = [])
    (choice : ℕ) :
    (queue.shared.dataQueue = [] ∧
      (queue.manager .tryPop choice).shared.dataQueue = [] ∧
      queue.returned? (queue.manager .tryPop choice) = some .failed ∧
      (queue.manager .tryPop choice).inside = []) ∨
    ∃ tid rest, queue.shared.dataQueue = tid :: rest ∧
      (queue.manager .tryPop choice).shared.dataQueue = rest ∧
      queue.returned? (queue.manager .tryPop choice) = some (.popped tid) ∧
      (queue.manager .tryPop choice).inside = [] := by
  have unlimited : queue.shared.maxSize = 0 := used.supplied.fixed
  obtain ⟨isAsleep, isWoken⟩ := List.append_eq_nil_iff.mp outside
  cases isQueue : queue.shared.dataQueue with
  | nil =>
      left
      simp [manager, call, returned?, Monitor.State.step, Monitor.State.Busy,
        Monitor.State.inside, isAsleep, isWoken, Queuemt.sections, Queuemt.enter, isQueue,
        used.notSuspended, Monitor.State.settle, Monitor.State.notify]
  | cons tid rest =>
      right
      refine ⟨tid, rest, rfl, ?_⟩
      simp [manager, call, returned?, Monitor.State.step, Monitor.State.Busy,
        Monitor.State.inside, isAsleep, isWoken, Queuemt.sections, Queuemt.enter, isQueue,
        Queuemt.poppedFrom, unlimited, Monitor.State.settle, Monitor.State.notify]

end ReadyQueue

/-! ## The running threads -/

namespace RunState

/-- A thread is running when its query is not finished or its id is on the queue, and each of
them holds once. -/
structure Tracked (state : RunState F) : Prop where
  running : ∀ tid, (∃ index, state.runningThreads.find? tid = some index) ↔
    tid ∈ state.queries.map Prod.fst ++ state.readyQueue
  once : (state.queries.map Prod.fst ++ state.readyQueue).Nodup

theorem Tracked.of_same {state other : RunState F} (tracked : state.Tracked)
    (running : other.runningThreads = state.runningThreads)
    (queries : other.queries = state.queries)
    (readyQueue : other.readyQueue = state.readyQueue) : other.Tracked where
  running := by
    rw [running, queries, readyQueue]
    exact tracked.running
  once := by
    rw [queries, readyQueue]
    exact tracked.once

theorem Tracked.finish {state : RunState F} (tracked : state.Tracked) (tid : ℕ)
    (command : WdbDataRequestCommand F) : (state.finish tid command).Tracked := by
  simp only [RunState.finish]
  cases found : state.queries.lookup tid with
  | none => exact tracked
  | some index =>
      have member : tid ∈ state.queries.map Prod.fst :=
        List.mem_map_of_mem (lookup_mem found)
      have once := tracked.once
      have filtered : (state.queries.filter fun query => query.1 ≠ tid).map Prod.fst =
          (state.queries.map Prod.fst).erase tid := by
        rw [once.of_append_left.erase_eq_filter, List.filter_map]
        congr 1
        apply List.filter_congr
        intro query _
        by_cases equal : query.1 = tid <;> simp [equal]
      have same : ((state.queries.filter fun query => query.1 ≠ tid).map Prod.fst ++
          (state.readyQueue ++ [tid])).Perm
            (state.queries.map Prod.fst ++ state.readyQueue) := by
        rw [filtered, ← List.append_assoc]
        refine (List.perm_append_singleton _ _).trans ?_
        rw [← List.cons_append]
        exact (List.perm_cons_erase member).symm.append_right _
      exact
        { running := fun other => (tracked.running other).trans same.mem_iff.symm
          once := same.nodup_iff.mpr once }

theorem Tracked.startThread {state : RunState F} (tracked : state.Tracked)
    (accounted : state.Accounted) (info : RequestInfo F) : (state.startThread info).Tracked := by
  have fresh : state.nextThreadId ∉ state.queries.map Prod.fst ++ state.readyQueue := by
    intro member
    obtain ⟨index, found⟩ := (tracked.running state.nextThreadId).mpr member
    have less := (accounted.running _ _ found).2
    rw [accounted.threadIds] at less
    exact lt_irrefl _ less
  have same : (state.queries ++ [(state.nextThreadId, state.nextToStart)]).map Prod.fst ++
      state.readyQueue =
        state.queries.map Prod.fst ++ state.nextThreadId :: state.readyQueue := by
    simp
  constructor
  · intro tid
    simp only [RunState.startThread, SortedMap.find?_insert, same]
    rw [List.perm_middle.mem_iff, List.mem_cons, ← tracked.running tid]
    by_cases isNew : tid = state.nextThreadId
    · simp [isNew]
    · simp [isNew]
  · simp only [RunState.startThread, same]
    rw [List.perm_middle.nodup_iff, List.nodup_cons]
    exact ⟨fresh, tracked.once⟩

/-- The thread whose id is taken from the queue is running, and it runs no more. -/
theorem Tracked.complete {state : RunState F} (tracked : state.Tracked) {tid : ℕ}
    {rest : List ℕ} (isQueue : state.readyQueue = tid :: rest) (waitForAtLeast n : ℕ)
    (behind : Behind) :
    (∃ index, state.runningThreads.find? tid = some index) ∧
      ({ state with readyQueue := rest }.complete waitForAtLeast n behind tid).Tracked := by
  have once := tracked.once
  rw [isQueue, List.perm_middle.nodup_iff, List.nodup_cons] at once
  have isRunning : ∃ index, state.runningThreads.find? tid = some index := by
    rw [tracked.running tid, isQueue]
    simp
  refine ⟨isRunning, ?_⟩
  obtain ⟨index, found⟩ := isRunning
  simp only [RunState.complete, found]
  constructor
  · intro other
    simp only [SortedMap.find?_erase]
    by_cases isOwn : other = tid
    · subst isOwn
      simp [once.1]
    · simp only [if_neg isOwn, tracked.running other, isQueue]
      rw [List.perm_middle.mem_iff, List.mem_cons, or_iff_right isOwn]
  · exact once.2

theorem Tracked.leave {state : RunState F} (tracked : state.Tracked) (behind : Behind) :
    (state.leave behind).Tracked := by
  cases behind with
  | stopIfData =>
      simp only [RunState.leave]
      split <;> exact tracked.of_same rfl rfl rfl
  | toManyThreads => exact tracked.of_same rfl rfl rfl
  | waitingForDbConnection => exact tracked.of_same rfl rfl rfl
  | allStarted => exact tracked.of_same rfl rfl rfl
  | failed what => exact tracked.of_same rfl rfl rfl

theorem Tracked.startThreads {state : RunState F} (tracked : state.Tracked)
    (accounted : state.Accounted) (environment : Environment) :
    (state.startThreads environment).Tracked := by
  simp only [RunState.startThreads]
  cases state.threadInfos[state.nextToStart]? with
  | none => exact tracked.of_same rfl rfl rfl
  | some info =>
      simp only
      split
      · exact tracked.of_same rfl rfl rfl
      · cases environment.connection with
        | maxUse => exact tracked.of_same rfl rfl rfl
        | createFailed => exact tracked.of_same rfl rfl rfl
        | exception what => exact tracked.of_same rfl rfl rfl
        | unknown => exact tracked.of_same rfl rfl rfl
        | connected =>
            simp only
            split
            · exact tracked.startThread accounted info
            · exact tracked.of_same rfl rfl rfl

theorem Tracked.connected {state : RunState F} (tracked : state.Tracked)
    (environment : Environment) : (state.connected environment).Tracked := by
  simp only [RunState.connected]
  split
  · cases state.waitUntil with
    | none =>
        simp only
        split <;> exact tracked.of_same rfl rfl rfl
    | some waitUntil =>
        simp only
        split
        · exact tracked.of_same rfl rfl rfl
        · split <;> exact tracked.of_same rfl rfl rfl
  · split
    · exact tracked.of_same rfl rfl rfl
    · split <;> exact tracked.of_same rfl rfl rfl

theorem Tracked.step {state : RunState F} (tracked : state.Tracked)
    (accounted : state.Accounted) (event : Event F) : (state.step event).Tracked := by
  cases event with
  | finish tid command => exact tracked.finish tid command
  | proceed environment =>
      simp only [RunState.step, RunState.proceed]
      cases state.location with
      | loop =>
          simp only
          split <;> exact tracked.of_same rfl rfl rfl
      | startThreads => exact tracked.startThreads accounted environment
      | started =>
          simp only
          split <;> exact tracked.of_same rfl rfl rfl
      | connected => exact tracked.connected environment
      | waitForCompleted waitForAtLeast n behind =>
          simp only [RunState.waitForCompleted]
          split
          · exact tracked.leave behind
          · cases isQueue : state.readyQueue with
            | nil =>
                simp only
                split
                · exact tracked
                · exact tracked.leave behind
            | cons tid rest => exact (tracked.complete isQueue waitForAtLeast n behind).2
      | returned => exact tracked
      | threw exception => exact tracked

theorem tracked_initial (requests : List (Bool × Bool)) (nParalell : ℤ)
    (toManyThreads hasQueue : Bool) :
    (initial requests nParalell toManyThreads hasQueue : RunState F).Tracked where
  running tid := by simp [initial]
  once := List.nodup_nil

end RunState

/-! ## The threads refine the run -/

namespace RunState

/-- Outside of `waitForCompleted` the manager does not touch the queue. -/
theorem proceed_withQueue (state : RunState F) (environment : Environment)
    (readyQueue : List ℕ)
    (outside : ∀ waitForAtLeast n behind,
      state.location ≠ .waitForCompleted waitForAtLeast n behind) :
    { state with readyQueue := readyQueue }.proceed environment =
      { state.proceed environment with readyQueue := readyQueue } := by
  simp only [RunState.proceed]
  cases here : state.location with
  | loop =>
      simp only
      split <;> rfl
  | startThreads =>
      simp only [RunState.startThreads]
      cases state.threadInfos[state.nextToStart]? with
      | none => rfl
      | some info =>
          simp only
          split
          · rfl
          · cases environment.connection with
            | connected =>
                simp only
                split <;> rfl
            | maxUse => rfl
            | createFailed => rfl
            | exception what => rfl
            | unknown => rfl
  | started =>
      simp only
      split <;> rfl
  | connected =>
      simp only [RunState.connected]
      split
      · cases state.waitUntil with
        | none =>
            simp only
            split <;> rfl
        | some waitUntil =>
            simp only
            split
            · rfl
            · split <;> rfl
      · split
        · rfl
        · split <;> rfl
  | waitForCompleted waitForAtLeast n behind =>
      exact absurd here (outside waitForAtLeast n behind)
  | returned => simp only [here]
  | threw exception => simp only [here]

theorem leave_withQueue (state : RunState F) (behind : Behind) (readyQueue : List ℕ) :
    { state with readyQueue := readyQueue }.leave behind =
      { state.leave behind with readyQueue := readyQueue } := by
  cases behind with
  | stopIfData =>
      simp only [RunState.leave]
      split <;> rfl
  | toManyThreads => rfl
  | waitingForDbConnection => rfl
  | allStarted => rfl
  | failed what => rfl

theorem complete_withQueue (state : RunState F) (waitForAtLeast n : ℕ) (behind : Behind)
    (tid : ℕ) (readyQueue : List ℕ) :
    { state with readyQueue := readyQueue }.complete waitForAtLeast n behind tid =
      { state.complete waitForAtLeast n behind tid with readyQueue := readyQueue } := by
  simp only [RunState.complete]
  split <;> rfl

end RunState

namespace ThreadedRun

/-- The queue is used as it must be, and the manager is inside of an operation only in the
loop of `waitForCompleted`. -/
structure Consistent (state : ThreadedRun F) : Prop where
  queue : ReadyQueue.Used state.queue
  waiting : state.queue.inside ≠ [] → ∃ waitForAtLeast n behind,
    state.run.location = .waitForCompleted waitForAtLeast n behind ∧
      (waitForAtLeast = 0 ∨ n < waitForAtLeast) ∧
        state.run.runningThreads.entries ≠ []

theorem consistent_initial (requests : List (Bool × Bool)) (nParalell : ℤ)
    (toManyThreads hasQueue : Bool) :
    (initial requests nParalell toManyThreads hasQueue : ThreadedRun F).Consistent where
  queue :=
    { supplied := Queuemt.supplied_initial false
      uses := Monitor.State.within_initial _ _
      notSuspended := rfl
      once := List.nodup_nil }
  waiting inside := absurd rfl inside

theorem Consistent.outside {state : ThreadedRun F} (consistent : state.Consistent)
    (elsewhere : ∀ waitForAtLeast n behind,
      state.run.location = .waitForCompleted waitForAtLeast n behind →
        waitForAtLeast = 0 ∨ n < waitForAtLeast → state.run.runningThreads.entries = []) :
    state.queue.inside = [] := by
  by_contra inside
  obtain ⟨waitForAtLeast, n, behind, here, waits, running⟩ := consistent.waiting inside
  exact running (elsewhere waitForAtLeast n behind here waits)

/-- A round of `waitForCompleted` keeps the threads consistent, and is the same round of the run
with a list. -/
theorem Consistent.waitForCompleted {state : ThreadedRun F} (consistent : state.Consistent)
    {waitForAtLeast n : ℕ} {behind : Behind}
    (here : state.run.location = .waitForCompleted waitForAtLeast n behind) (choice : ℕ) :
    (state.waitForCompleted waitForAtLeast n behind choice).Consistent ∧
      (state.waitForCompleted waitForAtLeast n behind choice).view =
        state.view.waitForCompleted waitForAtLeast n behind := by
  have sameRunning : state.view.runningThreads = state.run.runningThreads := rfl
  have sameQueue : state.view.readyQueue = state.queue.shared.dataQueue := rfl
  simp only [ThreadedRun.waitForCompleted, RunState.waitForCompleted, sameRunning, sameQueue]
  split
  · rename_i noneRunning
    have outside : state.queue.inside = [] := by
      apply consistent.outside
      intro _ _ _ _ _
      exact List.isEmpty_iff.mp noneRunning
    constructor
    · exact
        { queue := consistent.queue
          waiting := fun inside => absurd outside inside }
    · exact (state.run.leave_withQueue behind _).symm
  · rename_i someRunning
    by_cases waits : waitForAtLeast = 0 ∨ n < waitForAtLeast
    · simp only [if_pos waits]
      have used := ReadyQueue.used_manager consistent.queue (Or.inl rfl) choice
      rcases consistent.queue.waitAndPop choice with ⟨isEmpty, stays, returns⟩ |
        ⟨tid, rest, isQueue, isRest, returns, outside⟩
      · simp only [returns, isEmpty]
        constructor
        · exact
            { queue := used
              waiting := fun _ => ⟨waitForAtLeast, n, behind, here, waits, fun noneRunning =>
                someRunning (List.isEmpty_iff.mpr noneRunning)⟩ }
        · simp only [view, stays, isEmpty]
      · simp only [returns, isQueue]
        constructor
        · exact
            { queue := used
              waiting := fun inside => absurd outside inside }
        · simp only [view, isRest]
          exact (state.run.complete_withQueue waitForAtLeast n behind tid rest).symm
    · simp only [if_neg waits]
      have outside : state.queue.inside = [] := by
        apply consistent.outside
        intro otherAtLeast other otherBehind isHere otherWaits
        rw [here] at isHere
        cases isHere
        exact absurd otherWaits waits
      have used := ReadyQueue.used_manager consistent.queue (Or.inr rfl) choice
      rcases consistent.queue.tryPop outside choice with ⟨isEmpty, stays, returns, leaves⟩ |
        ⟨tid, rest, isQueue, isRest, returns, leaves⟩
      · simp only [returns, isEmpty]
        constructor
        · exact
            { queue := used
              waiting := fun inside => absurd leaves inside }
        · simp only [view, stays, isEmpty]
          exact (state.run.leave_withQueue behind []).symm
      · simp only [returns, isQueue]
        constructor
        · exact
            { queue := used
              waiting := fun inside => absurd leaves inside }
        · simp only [view, isRest]
          exact (state.run.complete_withQueue waitForAtLeast n behind tid rest).symm

theorem Consistent.finish {state : ThreadedRun F} (consistent : state.Consistent) (tid : ℕ)
    (command : WdbDataRequestCommand F) (choice : ℕ) :
    (state.finish tid command choice).Consistent ∧
      (state.finish tid command choice).view = state.view.finish tid command := by
  simp only [ThreadedRun.finish, RunState.finish, view]
  cases found : state.run.queries.lookup tid with
  | none => exact ⟨consistent, rfl⟩
  | some index =>
      obtain ⟨isQueue, _, inside⟩ := consistent.queue.push tid choice
      have uses : ReadyQueue.Uses (some tid) (.push tid) := rfl
      constructor
      · exact
          { queue := ReadyQueue.used_call consistent.queue uses choice
            waiting := fun isInside => consistent.waiting fun outside =>
              isInside (inside.mpr outside) }
      · simp only [isQueue]

theorem Consistent.wake {state : ThreadedRun F} (consistent : state.Consistent) :
    (state.step .wake).Consistent ∧ (state.step .wake).view = state.view := by
  have used : ReadyQueue.Used (state.step .wake).queue :=
    ReadyQueue.used_step consistent.queue (.wake none) trivial
  have same : (state.step .wake).queue.shared = state.queue.shared ∧
      ((state.step .wake).queue.inside ≠ [] → state.queue.inside ≠ []) := by
    simp only [step, Monitor.State.step]
    cases found : state.queue.asleep.find? fun sleeper => sleeper.1 = none with
    | none => exact ⟨rfl, id⟩
    | some sleeper =>
        refine ⟨rfl, fun _ outside => ?_⟩
        have noSleeper := (List.append_eq_nil_iff.mp outside).1
        rw [noSleeper] at found
        cases found
  constructor
  · exact
      { queue := used
        waiting := fun inside => consistent.waiting (same.2 inside) }
  · simp only [view, same.1]
    rfl

theorem Consistent.proceed {state : ThreadedRun F} (consistent : state.Consistent)
    (environment : Environment) (choice : ℕ) :
    (state.proceed environment choice).Consistent ∧
      (state.proceed environment choice).view = state.view.proceed environment := by
  have elsewhere : (∀ waitForAtLeast n behind,
      state.run.location ≠ .waitForCompleted waitForAtLeast n behind) →
        ({ state with run := state.run.proceed environment } : ThreadedRun F).Consistent ∧
          ({ state with run := state.run.proceed environment } : ThreadedRun F).view =
            state.view.proceed environment := by
    intro notHere
    have outside : state.queue.inside = [] := by
      apply consistent.outside
      intro waitForAtLeast n behind here
      exact absurd here (notHere waitForAtLeast n behind)
    constructor
    · exact
        { queue := consistent.queue
          waiting := fun inside => absurd outside inside }
    · exact (state.run.proceed_withQueue environment _ notHere).symm
  simp only [ThreadedRun.proceed]
  cases here : state.run.location with
  | waitForCompleted waitForAtLeast n behind =>
      have same : state.view.proceed environment =
          state.view.waitForCompleted waitForAtLeast n behind := by
        have sameLocation : state.view.location = state.run.location := rfl
        simp only [RunState.proceed, sameLocation, here]
      rw [same]
      exact consistent.waitForCompleted here choice
  | loop => exact elsewhere (by simp [here])
  | startThreads => exact elsewhere (by simp [here])
  | started => exact elsewhere (by simp [here])
  | connected => exact elsewhere (by simp [here])
  | returned => exact elsewhere (by simp [here])
  | threw exception => exact elsewhere (by simp [here])

theorem Consistent.step {state : ThreadedRun F} (consistent : state.Consistent)
    (event : ThreadedEvent F) : (state.step event).Consistent := by
  cases event with
  | finish tid command choice => exact (consistent.finish tid command choice).1
  | wake => exact consistent.wake.1
  | proceed environment choice => exact (consistent.proceed environment choice).1

theorem simulates :
    Runs.Simulates (step (F := F)) RunState.step view Consistent := by
  intro state event consistent
  cases event with
  | finish tid command choice =>
      exact Or.inr ⟨.finish tid command, (consistent.finish tid command choice).2⟩
  | wake => exact Or.inl consistent.wake.2
  | proceed environment choice =>
      exact Or.inr ⟨.proceed environment, (consistent.proceed environment choice).2⟩

variable (requests : List (Bool × Bool)) (nParalell : ℤ) (toManyThreads hasQueue : Bool)

/-- Every run of the threads on their queue is a run of the requests with a list of completed
threads. -/
theorem refines_after (events : List (ThreadedEvent F)) :
    ∃ seen, (after requests nParalell toManyThreads hasQueue events).view =
      RunState.after requests nParalell toManyThreads hasQueue seen :=
  simulates.run (fun _ event consistent => consistent.step event)
    (consistent_initial requests nParalell toManyThreads hasQueue) events

/-! ## The manager never sleeps for nothing -/

theorem consistent_after (events : List (ThreadedEvent F)) :
    (after requests nParalell toManyThreads hasQueue events).Consistent := by
  have start : (initial requests nParalell toManyThreads hasQueue : ThreadedRun F).Consistent :=
    consistent_initial requests nParalell toManyThreads hasQueue
  simp only [after]
  generalize initial requests nParalell toManyThreads hasQueue = state at start ⊢
  induction events generalizing state with
  | nil => exact start
  | cons event rest ih => exact ih (state.step event) (start.step event)

theorem tracked_after (events : List (Event F)) :
    (RunState.after requests nParalell toManyThreads hasQueue events).Tracked := by
  induction events using List.reverseRecOn with
  | nil => exact RunState.tracked_initial requests nParalell toManyThreads hasQueue
  | append_singleton earlier event ih =>
      have accounted := (RunState.scheduled_after requests nParalell toManyThreads hasQueue
        earlier).toAccounted
      simp only [RunState.after, Runs.run_append] at ih accounted ⊢
      exact ih.step accounted event

theorem tracked_view (events : List (ThreadedEvent F)) :
    (after requests nParalell toManyThreads hasQueue events).view.Tracked := by
  obtain ⟨seen, isSeen⟩ := simulates.run (fun _ event consistent => consistent.step event)
    (consistent_initial requests nParalell toManyThreads hasQueue) events
  have same : (after requests nParalell toManyThreads hasQueue events).view =
      RunState.after requests nParalell toManyThreads hasQueue seen := isSeen
  rw [same]
  exact tracked_after requests nParalell toManyThreads hasQueue seen

/-- The id of a thread comes on the queue once, behind its query and before it is joined.  So the
manager never takes the id of a thread that it does not wait for. -/
theorem noStranger_after (events : List (ThreadedEvent F)) :
    (after requests nParalell toManyThreads hasQueue events).queue.shared.dataQueue.Nodup ∧
      ∀ tid ∈ (after requests nParalell toManyThreads hasQueue events).queue.shared.dataQueue,
        (∃ index, (after requests nParalell toManyThreads hasQueue
          events).run.runningThreads.find? tid = some index) ∧
        ∀ query ∈ (after requests nParalell toManyThreads hasQueue events).run.queries,
          query.1 ≠ tid := by
  have tracked := tracked_view (F := F) requests nParalell toManyThreads hasQueue events
  have once := List.nodup_append.mp tracked.once
  constructor
  · exact once.2.1
  · intro tid member
    constructor
    · exact (tracked.running tid).mpr (List.mem_append_right _ member)
    · intro query inQueries
      exact once.2.2 _ (List.mem_map_of_mem inQueries) _ member

/-- A query is not finished, no running thread is, and the next one to finish wakes the
manager. -/
structure AwaitsQuery (state : ThreadedRun F) : Prop where
  unfinished : state.run.queries ≠ []
  running : ∀ tid, (∃ index, state.run.runningThreads.find? tid = some index) ↔
    tid ∈ state.run.queries.map Prod.fst
  wakes : ∀ tid ∈ state.run.queries.map Prod.fst, ∀ command choice,
    (state.finish tid command choice).queue.asleep = []

/-- The manager sleeps only while it awaits a query: the threads never come to a deadlock. -/
theorem awaitsQuery_after (events : List (ThreadedEvent F))
    (sleeps : (after requests nParalell toManyThreads hasQueue events).queue.asleep ≠ []) :
    (after requests nParalell toManyThreads hasQueue events).AwaitsQuery := by
  have consistent := consistent_after (F := F) requests nParalell toManyThreads hasQueue events
  have tracked := tracked_view (F := F) requests nParalell toManyThreads hasQueue events
  generalize after requests nParalell toManyThreads hasQueue events = state at *
  have isEmpty : state.queue.shared.dataQueue = [] := by
    rcases consistent.queue.places with ⟨awake, _⟩ | ⟨_, _, isEmpty⟩ | ⟨awake, _⟩
    · exact absurd awake sleeps
    · exact isEmpty
    · exact absurd awake sleeps
  have running : ∀ tid, (∃ index, state.run.runningThreads.find? tid = some index) ↔
      tid ∈ state.run.queries.map Prod.fst := by
    intro tid
    have same := tracked.running tid
    simp only [view, isEmpty, List.append_nil] at same
    exact same
  refine { unfinished := ?_, running := running, wakes := ?_ }
  · intro noQuery
    have inside : state.queue.inside ≠ [] := List.append_ne_nil_of_left_ne_nil sleeps _
    obtain ⟨_, _, _, _, _, someRunning⟩ := consistent.waiting inside
    obtain ⟨⟨tid, index⟩, member⟩ := List.exists_mem_of_ne_nil _ someRunning
    have found := (running tid).mp ⟨index, SortedMap.mem_entries_iff.mp member⟩
    rw [noQuery] at found
    cases found
  · intro tid member command choice
    obtain ⟨query, inQueries, isTid⟩ := List.mem_map.mp member
    simp only [finish]
    cases found : state.run.queries.lookup tid with
    | none =>
        have different := List.lookup_eq_none_iff.mp found query inQueries
        simp [isTid] at different
    | some own => exact (consistent.queue.push tid choice).2.1

/-- The manager of one request, with a connection at once, until it sleeps. -/
def untilAsleep : List (ThreadedEvent ℚ) :=
  List.replicate 8 (.proceed { connection := .connected, threadStarts := true, now := 0 } 0)

theorem awaitsQuery_untilAsleep :
    (after [(false, false)] 1 false true untilAsleep).AwaitsQuery :=
  awaitsQuery_after [(false, false)] 1 false true untilAsleep (by decide +kernel)

end ThreadedRun

end WdbDataRequestManager

end Wdb2ts
