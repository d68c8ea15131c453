import Wdb2ts.Lib.Monitor

/-!
# The queue between threads

`miutil::queuemt` as a monitor: any number of threads call its operations, and their critical
sections run in any order.
-/

namespace Wdb2ts

/-- The members of a `queuemt`.  A `maxSize` of zero is no limit. -/
structure Queuemt (α : Type) where
  dataQueue : List α
  suspended : Bool
  maxSize : ℕ

namespace Queuemt

variable {τ α : Type}

/-- `queuemt( maxQueSize )`. -/
def new (maxQueSize : ℕ) : Queuemt α :=
  { dataQueue := []
    suspended := false
    maxSize := maxQueSize }

inductive Operation (α : Type) where
  | push (value : α)
  | timedPush (value : α)
  | waitAndPop
  | timedWaitAndPop
  | tryPop
  | empty
  | suspend (clearQue : Bool)
  | resume

/-- What an operation returns.  `failed` is the answer `false` of `timedPush`,
`timedWaitAndPop` and `tryPop`, and `returned` their answer `true` without a value. -/
inductive Result (α : Type) where
  | returned
  | failed
  | popped (value : α)
  | isEmpty (answer : Bool)
  | queueSuspended
  deriving DecidableEq

/-- The test of `push` and `timedPush` before they wait. -/
def isFull (queue : Queuemt α) : Bool :=
  decide (0 < queue.maxSize ∧ queue.maxSize ≤ queue.dataQueue.length)

/-- The end of a push. -/
def pushed (value : α) (queue : Queuemt α) : Monitor.Outcome (Queuemt α) (Result α) :=
  .leave { queue with dataQueue := queue.dataQueue ++ [value] } .returned .one

/-- The end of a pop, from a queue with the given values. -/
def poppedFrom (value : α) (rest : List α) (queue : Queuemt α) :
    Monitor.Outcome (Queuemt α) (Result α) :=
  .leave { queue with dataQueue := rest } (.popped value)
    (if 0 < queue.maxSize then .one else .none)

/-- A round of the loop of `waitAndPop`. -/
def waitAndPop (queue : Queuemt α) : Monitor.Outcome (Queuemt α) (Result α) :=
  match queue.dataQueue with
  | [] => if queue.suspended then .leave queue .queueSuspended .none else .wait queue
  | value :: rest => queue.poppedFrom value rest

/-- The first critical section of an operation. -/
def enter (operation : Operation α) (queue : Queuemt α) :
    Monitor.Outcome (Queuemt α) (Result α) :=
  match operation with
  | .push value | .timedPush value =>
      if queue.suspended then .leave queue .queueSuspended .none
      else if queue.isFull then .wait queue
      else queue.pushed value
  | .waitAndPop | .timedWaitAndPop => queue.waitAndPop
  | .tryPop =>
      match queue.dataQueue with
      | [] => .leave queue (if queue.suspended then .queueSuspended else .failed) .none
      | value :: rest => queue.poppedFrom value rest
  | .empty => .leave queue (.isEmpty queue.dataQueue.isEmpty) .none
  | .suspend clearQue =>
      if queue.suspended then .leave queue .returned .none
      else
        .leave
          { queue with
            suspended := true
            dataQueue := if clearQue then [] else queue.dataQueue } .returned .all
  | .resume =>
      if queue.suspended then .leave { queue with suspended := false } .returned .all
      else .leave queue .returned .none

/-- The critical section of an operation behind a wait. -/
def resume (operation : Operation α) (timedOut : Bool) (queue : Queuemt α) :
    Monitor.Outcome (Queuemt α) (Result α) :=
  match operation with
  | .push value => if queue.isFull then .wait queue else queue.pushed value
  | .timedPush value =>
      if timedOut then .leave queue .failed .none
      else if queue.maxSize ≤ queue.dataQueue.length then .leave queue .failed .none
      else queue.pushed value
  | .waitAndPop => queue.waitAndPop
  | .timedWaitAndPop =>
      if timedOut then .leave queue .failed .none
      else
        match queue.dataQueue with
        | [] => .leave queue .failed .none
        | value :: rest => queue.poppedFrom value rest
  | other => queue.enter other

/-- The critical sections of a `queuemt`. -/
def sections (α : Type) : Monitor.Sections (Queuemt α) (Operation α) (Result α) where
  enter := enter
  resume := resume

/-- A queue with its threads. -/
abbrev Threads (τ α : Type) := Monitor.State τ (Queuemt α) (Operation α) (Result α)

/-- A queue after some actions of its threads. -/
def after [DecidableEq τ] (maxQueSize : ℕ) (actions : List (Monitor.Action τ (Operation α))) :
    Threads τ α :=
  Runs.run (Monitor.State.step (sections α)) (.initial (new maxQueSize)) actions

/-! ## First in, first out -/

/-- The value that a returned operation has put on the queue. -/
def pushedValue? : τ × Operation α × Result α → Option α
  | (_, .push value, .returned) => some value
  | (_, .timedPush value, .returned) => some value
  | _ => none

/-- The value that a returned operation has taken from the queue. -/
def poppedValue? : τ × Operation α × Result α → Option α
  | (_, _, .popped value) => some value
  | _ => none

/-- The values pushed are those popped, in the same order, and then those on the queue, which
holds no more than it may. -/
structure InOrder (queue : Queuemt α) (history : List (τ × Operation α × Result α)) : Prop where
  values : history.filterMap pushedValue? = history.filterMap poppedValue? ++ queue.dataQueue
  bound : 0 < queue.maxSize → queue.dataQueue.length ≤ queue.maxSize

/-- An operation that may not empty the queue at once. -/
def KeepsValues : Operation α → Prop
  | .suspend clearQue => clearQue = false
  | _ => True

variable {queue : Queuemt α} {history : List (τ × Operation α × Result α)} {thread : τ}

/-- A result that neither pushes nor pops leaves the order as it is. -/
theorem InOrder.leave (inOrder : InOrder queue history) {other : Queuemt α}
    {operation : Operation α} {result : Result α}
    (sameQueue : other.dataQueue = queue.dataQueue) (sameSize : other.maxSize = queue.maxSize)
    (pushesNone : pushedValue? (thread, operation, result) = none)
    (popsNone : poppedValue? (thread, operation, result) = none) :
    InOrder other (history ++ [(thread, operation, result)]) where
  values := by
    rw [List.filterMap_append, List.filterMap_append, inOrder.values, sameQueue]
    simp [pushesNone, popsNone]
  bound := by
    rw [sameQueue, sameSize]
    exact inOrder.bound

theorem InOrder.push (inOrder : InOrder queue history) {operation : Operation α} {value : α}
    (pushes : pushedValue? (thread, operation, .returned) = some value)
    (space : 0 < queue.maxSize → queue.dataQueue.length < queue.maxSize) :
    InOrder { queue with dataQueue := queue.dataQueue ++ [value] }
      (history ++ [(thread, operation, .returned)]) where
  values := by
    rw [List.filterMap_append, List.filterMap_append, inOrder.values]
    simp [pushes, poppedValue?]
  bound positive := by
    have less := space positive
    simp only [List.length_append, List.length_singleton]
    omega

theorem InOrder.pop (inOrder : InOrder queue history) {operation : Operation α} {value : α}
    {rest : List α} (isQueue : queue.dataQueue = value :: rest)
    (pushesNone : pushedValue? (thread, operation, .popped value) = none) :
    InOrder { queue with dataQueue := rest }
      (history ++ [(thread, operation, .popped value)]) where
  values := by
    rw [List.filterMap_append, List.filterMap_append, inOrder.values, isQueue]
    simp [pushesNone, poppedValue?]
  bound positive := by
    have less := inOrder.bound positive
    rw [isQueue, List.length_cons] at less
    exact (Nat.lt_of_succ_le less).le

theorem pushedValue?_popped (operation : Operation α) (value : α) :
    pushedValue? (thread, operation, .popped value) = none := by
  cases operation <;> rfl

theorem keeps_waitAndPop (inOrder : InOrder queue history) (operation : Operation α) :
    queue.waitAndPop.Keeps InOrder thread operation history := by
  simp only [waitAndPop]
  cases isQueue : queue.dataQueue with
  | nil =>
      cases queue.suspended with
      | true => exact inOrder.leave rfl rfl (by cases operation <;> rfl) rfl
      | false => exact inOrder
  | cons value rest => exact inOrder.pop isQueue (pushedValue?_popped operation value)

theorem keeps_push (inOrder : InOrder queue history) {operation : Operation α} {value : α}
    (pushes : pushedValue? (thread, operation, .returned) = some value) :
    (if queue.isFull then Monitor.Outcome.wait queue else queue.pushed value).Keeps InOrder
      thread operation history := by
  cases full : queue.isFull with
  | true => exact inOrder
  | false =>
      apply inOrder.push pushes
      intro positive
      simp only [isFull, decide_eq_false_iff_not, not_and, not_le] at full
      exact full positive

theorem keeps_enter (inOrder : InOrder queue history) {operation : Operation α}
    (keepsValues : KeepsValues operation) :
    (queue.enter operation).Keeps InOrder thread operation history := by
  cases operation with
  | push value | timedPush value =>
      simp only [enter]
      cases queue.suspended with
      | true => exact inOrder.leave rfl rfl rfl rfl
      | false => exact keeps_push inOrder rfl
  | waitAndPop | timedWaitAndPop => exact keeps_waitAndPop inOrder _
  | tryPop =>
      simp only [enter]
      cases isQueue : queue.dataQueue with
      | nil => cases queue.suspended <;> exact inOrder.leave rfl rfl rfl rfl
      | cons value rest => exact inOrder.pop isQueue rfl
  | empty => exact inOrder.leave rfl rfl rfl rfl
  | suspend clearQue =>
      have keep : clearQue = false := keepsValues
      subst keep
      simp only [enter]
      cases queue.suspended <;> exact inOrder.leave rfl rfl rfl rfl
  | resume =>
      simp only [enter]
      cases queue.suspended <;> exact inOrder.leave rfl rfl rfl rfl

theorem keeps_resume (inOrder : InOrder queue history) {operation : Operation α}
    {timedOut : Bool} (keepsValues : KeepsValues operation) :
    (queue.resume operation timedOut).Keeps InOrder thread operation history := by
  cases operation with
  | push value => exact keeps_push inOrder rfl
  | timedPush value =>
      simp only [resume]
      split
      · exact inOrder.leave rfl rfl rfl rfl
      · split
        · exact inOrder.leave rfl rfl rfl rfl
        · rename_i space
          exact inOrder.push rfl fun _ => not_le.mp space
  | waitAndPop => exact keeps_waitAndPop inOrder _
  | timedWaitAndPop =>
      simp only [resume]
      split
      · exact inOrder.leave rfl rfl rfl rfl
      · cases isQueue : queue.dataQueue with
        | nil => exact inOrder.leave rfl rfl rfl rfl
        | cons value rest => exact inOrder.pop isQueue rfl
  | tryPop => exact keeps_enter inOrder keepsValues
  | empty => exact keeps_enter inOrder keepsValues
  | suspend clearQue => exact keeps_enter inOrder keepsValues
  | resume => exact keeps_enter inOrder keepsValues

/-- Only calls of operations with a property. -/
abbrev Calls (allowed : Operation α → Prop) (state : Threads τ α)
    (action : Monitor.Action τ (Operation α)) : Prop :=
  Monitor.Permits (fun _ _ operation => allowed operation) state action

theorem preserves_inOrder :
    Monitor.Preserves (sections α)
      (fun (_ : Threads τ α) _ operation => KeepsValues operation) fun state =>
        state.Within (fun _ operation => KeepsValues operation) ∧
          InOrder state.shared state.history :=
  Monitor.preserves_history InOrder (fun _ _ _ keepsValues _ => keepsValues)
    (fun _ _ _ keepsValues inOrder => keeps_enter inOrder keepsValues)
    fun _ _ _ _ _ keepsValues inOrder => keeps_resume inOrder keepsValues

/-- No run of the threads loses, repeats or reorders a value, and a queue with a limit stays
within it. -/
theorem inOrder_after [DecidableEq τ] (maxQueSize : ℕ)
    (actions : List (Monitor.Action τ (Operation α)))
    (calls : Runs.EachStep (Monitor.State.step (sections α)) (Calls KeepsValues)
      (.initial (new maxQueSize)) actions) :
    InOrder (after maxQueSize actions).shared (after maxQueSize actions).history := by
  refine (preserves_inOrder.run ⟨Monitor.State.within_initial _ _, ?_⟩ calls).2
  exact
    { values := rfl
      bound := fun _ => Nat.zero_le _ }

/-- A popper that sleeps on the empty queue, and a push that wakes it. -/
def pushForSleeper : List (Monitor.Action ℕ (Operation ℕ)) :=
  [.call 1 .waitAndPop 0, .call 2 (.push 7) 0, .call 2 (.push 8) 0, .resume 1 false 0]

theorem inOrder_pushForSleeper :
    InOrder (after 2 pushForSleeper).shared (after 2 pushForSleeper).history :=
  inOrder_after 2 pushForSleeper ⟨trivial, trivial, trivial, trivial, trivial⟩

/-! ## No lost wake-up on a queue without a limit -/

/-- An operation that does not give up on a queue without a limit. -/
def NoTimeout : Operation α → Prop
  | .timedWaitAndPop => False
  | _ => True

/-- The end of a section of a queue without a limit, with `done` waits behind it. -/
abbrev Supplies (mayWait : Prop) (done : ℕ) (queue : Queuemt α)
    (outcome : Monitor.Outcome (Queuemt α) (Result α)) : Prop :=
  outcome.Supplies (fun queue => queue.dataQueue.length) (fun queue => queue.maxSize = 0)
    mayWait done queue

theorem supplies_poppedFrom {value : α} {rest : List α} (isQueue : queue.dataQueue = value :: rest)
    (unlimited : queue.maxSize = 0) (mayWait : Prop) (done : ℕ) (atMost : done ≤ 1) :
    Supplies mayWait done queue (queue.poppedFrom value rest) := by
  have none : ¬0 < queue.maxSize := by simp [unlimited]
  simp only [poppedFrom, none, if_false]
  refine ⟨unlimited, ?_⟩
  simp only [isQueue, List.length_cons]
  omega

theorem supplies_waitAndPop (unlimited : queue.maxSize = 0) (mayWait : Prop) (waits : mayWait)
    (done : ℕ) (atMost : done ≤ 1) :
    Supplies mayWait done queue queue.waitAndPop := by
  simp only [waitAndPop]
  cases isQueue : queue.dataQueue with
  | nil =>
      cases queue.suspended with
      | true => exact ⟨unlimited, by simp [isQueue]⟩
      | false => exact ⟨unlimited, waits, by simp [isQueue]⟩
  | cons value rest => exact supplies_poppedFrom isQueue unlimited mayWait done atMost

theorem supplies_enter (unlimited : queue.maxSize = 0) (operation : Operation α)
    (noTimeout : NoTimeout operation) :
    Supplies (operation = .waitAndPop) 0 queue (queue.enter operation) := by
  have notFull : queue.isFull = false := by simp [isFull, unlimited]
  cases operation with
  | push value | timedPush value =>
      simp only [enter, notFull]
      cases queue.suspended with
      | true => exact ⟨unlimited, le_refl _⟩
      | false => exact ⟨unlimited, by simp⟩
  | waitAndPop => exact supplies_waitAndPop unlimited _ rfl 0 (Nat.zero_le _)
  | timedWaitAndPop => cases noTimeout
  | tryPop =>
      simp only [enter]
      cases isQueue : queue.dataQueue with
      | nil => exact ⟨unlimited, le_refl _⟩
      | cons value rest => exact supplies_poppedFrom isQueue unlimited _ 0 (Nat.zero_le _)
  | empty => exact ⟨unlimited, le_refl _⟩
  | suspend clearQue =>
      simp only [enter]
      cases queue.suspended with
      | true => exact ⟨unlimited, le_refl _⟩
      | false => exact unlimited
  | resume =>
      simp only [enter]
      cases queue.suspended with
      | true => exact unlimited
      | false => exact ⟨unlimited, le_refl _⟩

/-- The threads of a queue without a limit: those that sleep are poppers, and a woken one comes
for each value on the queue. -/
abbrev Supplied (state : Threads τ α) : Prop :=
  state.Supplied (fun queue => queue.dataQueue.length) (fun queue => queue.maxSize = 0)
    fun _ operation => operation = .waitAndPop

theorem preserves_supplied :
    Monitor.Preserves (sections α)
      (fun (_ : Threads τ α) _ operation => NoTimeout operation) Supplied :=
  Monitor.preserves_supplied
    (fun _ _ operation noTimeout unlimited => supplies_enter unlimited operation noTimeout)
    fun _ operation _ _ isPop unlimited => by
      subst isPop
      exact supplies_waitAndPop unlimited _ rfl 1 (le_refl _)

theorem supplied_initial (suspended : Bool) :
    Supplied (.initial { dataQueue := [], suspended := suspended, maxSize := 0 } :
      Threads τ α) where
  within := Monitor.State.within_initial _ _
  fixed := rfl
  enough sleeping := absurd rfl sleeping

/-- On a queue without a limit no wake-up is lost: whenever a thread sleeps, there are as many
threads on their way to the lock as values on the queue.  So a thread sleeps beside a value only
while another one is about to take it. -/
theorem noLostWakeUp [DecidableEq τ] (actions : List (Monitor.Action τ (Operation α)))
    (calls : Runs.EachStep (Monitor.State.step (sections α)) (Calls NoTimeout)
      (.initial (new 0)) actions) :
    (∀ sleeper ∈ (after 0 actions).inside, sleeper.2 = .waitAndPop) ∧
      ((after 0 actions).asleep ≠ [] →
        (after 0 actions).shared.dataQueue.length ≤ (after 0 actions).woken.length) := by
  have supplied := preserves_supplied.run (supplied_initial false) calls
  exact ⟨supplied.within, supplied.enough⟩

/-- Two poppers that sleep on the empty queue, and a push that wakes one of them. -/
def pushForSleepers : List (Monitor.Action ℕ (Operation ℕ)) :=
  [.call 1 .waitAndPop 0, .call 2 .waitAndPop 0, .call 3 (.push 7) 0]

/-- The other popper sleeps beside the value, which the woken one is about to take. -/
theorem noLostWakeUp_pushForSleepers :
    (after 0 pushForSleepers).shared.dataQueue = [7] ∧
      (after 0 pushForSleepers).asleep ≠ [] ∧
        (∀ sleeper ∈ (after 0 pushForSleepers).inside, sleeper.2 = .waitAndPop) ∧
          (after 0 pushForSleepers).shared.dataQueue.length ≤
            (after 0 pushForSleepers).woken.length := by
  have sleeps : (after 0 pushForSleepers).asleep ≠ [] := by
    intro none
    cases none
  have kept := noLostWakeUp pushForSleepers ⟨trivial, trivial, trivial, trivial⟩
  exact ⟨rfl, sleeps, kept.1, kept.2 sleeps⟩

end Queuemt

end Wdb2ts
