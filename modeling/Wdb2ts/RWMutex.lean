import Wdb2ts.Lib.Monitor

/-!
# The reader/writer lock

`miutil::thread::RWMutex` as a monitor: many readers or one writer, with priority to writers.
A writer that waits is counted, and the count keeps new readers out.  A `writeLock` that gives
up after its timeout stays in the count.
-/

namespace Wdb2ts

/-- The members of an `RWMutex`.  Its counts are of type `int`, and there are never so many threads
that they overflow. -/
structure RWMutex where
  readers_ : ℕ
  waitingWriters_ : ℕ
  writerIsActiv_ : Bool
  deriving DecidableEq

namespace RWMutex

variable {τ : Type}

/-- `RWMutex()`. -/
def new : RWMutex :=
  { readers_ := 0
    waitingWriters_ := 0
    writerIsActiv_ := false }

/-- The timeouts are in seconds, and zero is none. -/
inductive Operation where
  | readLock (timeout : ℤ)
  | tryReadLock
  | readUnlock
  | writeLock (timeout : ℤ)
  | tryWriteLock
  | writeUnlock
  | waitingWriters
  | readers
  | writerIsActiv
  deriving DecidableEq

/-- What an operation returns. -/
inductive Result where
  | locked (answer : Bool)
  | unlocked
  | count (number : ℕ)
  | isActiv (answer : Bool)
  deriving DecidableEq

/-- The test of `readLock` and `tryReadLock`. -/
def keepsReadersOut (mutex : RWMutex) : Bool :=
  decide (0 < mutex.waitingWriters_) || mutex.writerIsActiv_

/-- The test of `writeLock` and `tryWriteLock`. -/
def keepsWritersOut (mutex : RWMutex) : Bool :=
  decide (0 < mutex.readers_) || mutex.writerIsActiv_

/-- The end of a `readLock` that gets the lock. -/
def readLocked (mutex : RWMutex) : Monitor.Outcome RWMutex Result :=
  .leave { mutex with readers_ := mutex.readers_ + 1 } (.locked true) .none

/-- The end of a `writeLock` that gets the lock. -/
def writeLocked (mutex : RWMutex) : Monitor.Outcome RWMutex Result :=
  .leave { mutex with writerIsActiv_ := true, waitingWriters_ := mutex.waitingWriters_ - 1 }
    (.locked true) .none

/-- The first critical section of an operation. -/
def enter (operation : Operation) (mutex : RWMutex) : Monitor.Outcome RWMutex Result :=
  match operation with
  | .readLock _ => if mutex.keepsReadersOut then .wait mutex else mutex.readLocked
  | .tryReadLock =>
      if mutex.keepsReadersOut then .leave mutex (.locked false) .none else mutex.readLocked
  | .readUnlock =>
      let mutex := { mutex with readers_ := mutex.readers_ - 1 }
      .leave mutex .unlocked (if mutex.readers_ = 0 then .all else .none)
  | .writeLock _ =>
      let mutex := { mutex with waitingWriters_ := mutex.waitingWriters_ + 1 }
      if mutex.keepsWritersOut then .wait mutex else mutex.writeLocked
  | .tryWriteLock =>
      if mutex.keepsWritersOut then .leave mutex (.locked false) .none
      else .leave { mutex with writerIsActiv_ := true } (.locked true) .none
  | .writeUnlock => .leave { mutex with writerIsActiv_ := false } .unlocked .all
  | .waitingWriters => .leave mutex (.count mutex.waitingWriters_) .none
  | .readers => .leave mutex (.count mutex.readers_) .none
  | .writerIsActiv => .leave mutex (.isActiv mutex.writerIsActiv_) .none

/-- The critical section behind a wait.  With a timeout there is one wait, and the test behind it
tells whether the lock is free, not whether the wait timed out. -/
def resume (operation : Operation) (_timedOut : Bool) (mutex : RWMutex) :
    Monitor.Outcome RWMutex Result :=
  match operation with
  | .readLock timeout =>
      if mutex.keepsReadersOut then
        if timeout = 0 then .wait mutex else .leave mutex (.locked false) .none
      else mutex.readLocked
  | .writeLock timeout =>
      if mutex.keepsWritersOut then
        if timeout = 0 then .wait mutex else .leave mutex (.locked false) .none
      else mutex.writeLocked
  | other => mutex.enter other

/-- The critical sections of an `RWMutex`. -/
def sections : Monitor.Sections RWMutex Operation Result where
  enter := enter
  resume := resume

/-- A mutex with its threads. -/
abbrev Threads (τ : Type) := Monitor.State τ RWMutex Operation Result

/-- A mutex after some actions of its threads. -/
def after [DecidableEq τ] (actions : List (Monitor.Action τ Operation)) : Threads τ :=
  Runs.run (Monitor.State.step sections) (.initial new) actions

/-! ## Who holds the lock -/

/-- The threads that hold the lock, as readers and as writers. -/
structure Holders (τ : Type) where
  readers : List τ
  writers : List τ

/-- The holders behind an operation that has returned. -/
def Holders.next [DecidableEq τ] (holders : Holders τ) : τ × Operation × Result → Holders τ
  | (thread, .readLock _, .locked true) | (thread, .tryReadLock, .locked true) =>
      { holders with readers := thread :: holders.readers }
  | (thread, .writeLock _, .locked true) | (thread, .tryWriteLock, .locked true) =>
      { holders with writers := thread :: holders.writers }
  | (thread, .readUnlock, _) => { holders with readers := holders.readers.erase thread }
  | (thread, .writeUnlock, _) => { holders with writers := holders.writers.erase thread }
  | _ => holders

/-- The holders behind the operations that have returned. -/
def holders [DecidableEq τ] (history : List (τ × Operation × Result)) : Holders τ :=
  history.foldl Holders.next ⟨[], []⟩

/-- The members count the holders, who are readers or one writer. -/
structure Exclusive [DecidableEq τ] (mutex : RWMutex)
    (history : List (τ × Operation × Result)) : Prop where
  readers : mutex.readers_ = (holders history).readers.length
  writers : (holders history).writers.length = if mutex.writerIsActiv_ then 1 else 0
  apart : mutex.writerIsActiv_ = true → mutex.readers_ = 0

section Exclusive

variable [DecidableEq τ] {mutex : RWMutex} {history : List (τ × Operation × Result)} {thread : τ}

theorem holders_concat (entry : τ × Operation × Result) :
    holders (history ++ [entry]) = (holders history).next entry := by
  rw [holders, List.foldl_append]
  rfl

/-- A result that neither gives nor takes the lock. -/
theorem Exclusive.same (exclusive : Exclusive mutex history) {entry : τ × Operation × Result}
    (same : (holders history).next entry = holders history) :
    Exclusive mutex (history ++ [entry]) where
  readers := by
    rw [holders_concat, same]
    exact exclusive.readers
  writers := by
    rw [holders_concat, same]
    exact exclusive.writers
  apart := exclusive.apart

theorem keeps_readLocked (exclusive : Exclusive mutex history) {operation : Operation}
    (gives : (holders history).next (thread, operation, .locked true) =
      { holders history with readers := thread :: (holders history).readers })
    (free : mutex.keepsReadersOut = false) :
    mutex.readLocked.Keeps Exclusive thread operation history := by
  have notActiv : mutex.writerIsActiv_ = false := (Bool.or_eq_false_iff.mp free).2
  constructor
  · rw [holders_concat, gives]
    simp [exclusive.readers]
  · rw [holders_concat, gives]
    exact exclusive.writers
  · intro isActiv
    rw [notActiv] at isActiv
    cases isActiv

/-- The lock of a writer, whatever becomes of the count of the waiting ones. -/
theorem Exclusive.writeLocked (exclusive : Exclusive mutex history) {operation : Operation}
    (gives : (holders history).next (thread, operation, .locked true) =
      { holders history with writers := thread :: (holders history).writers })
    (free : mutex.keepsWritersOut = false) (waiting : ℕ) :
    Exclusive { mutex with writerIsActiv_ := true, waitingWriters_ := waiting }
      (history ++ [(thread, operation, .locked true)]) := by
  obtain ⟨noReaders, notActiv⟩ := Bool.or_eq_false_iff.mp free
  have none : mutex.readers_ = 0 := Nat.eq_zero_of_not_pos (of_decide_eq_false noReaders)
  have noWriter := exclusive.writers
  rw [notActiv] at noWriter
  constructor
  · rw [holders_concat, gives]
    exact exclusive.readers
  · rw [holders_concat, gives]
    simp only [List.length_cons, noWriter]
    rfl
  · intro _
    exact none

/-- A thread unlocks only what it holds. -/
def Disciplined (history : List (τ × Operation × Result)) (thread : τ) : Operation → Prop
  | .readUnlock => thread ∈ (holders history).readers
  | .writeUnlock => thread ∈ (holders history).writers
  | _ => True

/-- An operation that may wait. -/
def MayWait : Operation → Prop
  | .readLock _ | .writeLock _ => True
  | _ => False

theorem mayWait_of_waits {operation : Operation} (mutex : RWMutex)
    (waits : (mutex.enter operation).Waits) : MayWait operation := by
  cases operation with
  | readLock timeout | writeLock timeout => trivial
  | tryReadLock | tryWriteLock =>
      simp only [enter, readLocked] at waits
      split at waits <;> cases waits
  | readUnlock | writeUnlock | waitingWriters | readers | writerIsActiv => cases waits

theorem keeps_readUnlock (exclusive : Exclusive mutex history)
    (holds : thread ∈ (holders history).readers) :
    (mutex.enter .readUnlock).Keeps Exclusive thread .readUnlock history := by
  constructor
  · rw [holders_concat]
    simp only [Holders.next, List.length_erase_of_mem holds, exclusive.readers]
  · rw [holders_concat]
    exact exclusive.writers
  · intro isActiv
    simp only [exclusive.apart isActiv]

theorem keeps_writeUnlock (exclusive : Exclusive mutex history)
    (holds : thread ∈ (holders history).writers) :
    (mutex.enter .writeUnlock).Keeps Exclusive thread .writeUnlock history := by
  have isActiv : mutex.writerIsActiv_ = true := by
    by_contra notActiv
    have none := exclusive.writers
    rw [if_neg notActiv] at none
    exact List.ne_nil_of_mem holds (List.length_eq_zero_iff.mp none)
  constructor
  · rw [holders_concat]
    exact exclusive.readers
  · rw [holders_concat]
    simp only [Holders.next, List.length_erase_of_mem holds, exclusive.writers, isActiv]
    rfl
  · intro isStill
    cases isStill

theorem keeps_enter (exclusive : Exclusive mutex history) {operation : Operation}
    (disciplined : Disciplined history thread operation) :
    (mutex.enter operation).Keeps Exclusive thread operation history := by
  cases operation with
  | readLock timeout =>
      simp only [enter]
      cases free : mutex.keepsReadersOut with
      | true => exact exclusive
      | false => exact keeps_readLocked exclusive rfl free
  | tryReadLock =>
      simp only [enter]
      cases free : mutex.keepsReadersOut with
      | true => exact exclusive.same rfl
      | false => exact keeps_readLocked exclusive rfl free
  | readUnlock => exact keeps_readUnlock exclusive disciplined
  | writeLock timeout =>
      have counted : Exclusive { mutex with waitingWriters_ := mutex.waitingWriters_ + 1 }
          history := ⟨exclusive.readers, exclusive.writers, exclusive.apart⟩
      simp only [enter]
      cases free : keepsWritersOut { mutex with waitingWriters_ := mutex.waitingWriters_ + 1 } with
      | true => exact counted
      | false => exact counted.writeLocked rfl free _
  | tryWriteLock =>
      simp only [enter]
      cases free : mutex.keepsWritersOut with
      | true => exact exclusive.same rfl
      | false => exact exclusive.writeLocked rfl free mutex.waitingWriters_
  | writeUnlock => exact keeps_writeUnlock exclusive disciplined
  | waitingWriters => exact exclusive.same rfl
  | readers => exact exclusive.same rfl
  | writerIsActiv => exact exclusive.same rfl

theorem keeps_resume (exclusive : Exclusive mutex history) {operation : Operation}
    (mayWait : MayWait operation) (timedOut : Bool) :
    (mutex.resume operation timedOut).Keeps Exclusive thread operation history := by
  cases operation with
  | readLock timeout =>
      simp only [resume]
      cases free : mutex.keepsReadersOut with
      | true =>
          simp only [if_true]
          split
          · exact exclusive
          · exact exclusive.same rfl
      | false => exact keeps_readLocked exclusive rfl free
  | writeLock timeout =>
      simp only [resume]
      cases free : mutex.keepsWritersOut with
      | true =>
          simp only [if_true]
          split
          · exact exclusive
          · exact exclusive.same rfl
      | false => exact exclusive.writeLocked rfl free _
  | tryReadLock | readUnlock | tryWriteLock | writeUnlock | waitingWriters | readers
  | writerIsActiv => cases mayWait

theorem preserves_exclusive :
    Monitor.Preserves sections (fun state => Disciplined state.history) fun state : Threads τ =>
      state.Within (fun _ operation => MayWait operation) ∧
        Exclusive state.shared state.history := by
  apply Monitor.preserves_history Exclusive
  · intro state thread operation _ waits
    exact mayWait_of_waits state.shared waits
  · intro state thread operation disciplined exclusive
    exact keeps_enter exclusive disciplined
  · intro shared history thread operation timedOut mayWait exclusive
    exact keeps_resume exclusive mayWait timedOut

theorem exclusive_new : Exclusive new ([] : List (τ × Operation × Result)) where
  readers := rfl
  writers := rfl
  apart isActiv := by cases isActiv

end Exclusive

/-- Only unlocks of threads that hold the lock. -/
abbrev Unlocks [DecidableEq τ] (state : Threads τ) (action : Monitor.Action τ Operation) : Prop :=
  Monitor.Permits (fun state => Disciplined state.history) state action

theorem exclusive_run [DecidableEq τ] {actions : List (Monitor.Action τ Operation)}
    (disciplined : Runs.EachStep (Monitor.State.step sections) Unlocks (.initial new) actions) :
    Exclusive (after actions).shared (after actions).history :=
  (preserves_exclusive.run ⟨Monitor.State.within_initial _ _, exclusive_new⟩ disciplined).2

/-- In every run in which the threads unlock what they hold, the lock has readers or one writer,
and its members count them. -/
theorem exclusive_after [DecidableEq τ] (actions : List (Monitor.Action τ Operation))
    (disciplined : Runs.EachStep (Monitor.State.step sections) Unlocks (.initial new) actions) :
    Exclusive (after actions).shared (after actions).history ∧
      ((holders (after actions).history).readers = [] ∨
        (holders (after actions).history).writers = []) ∧
      (holders (after actions).history).writers.length ≤ 1 := by
  have exclusive := exclusive_run disciplined
  refine ⟨exclusive, ?_, ?_⟩
  · cases isActiv : (after actions).shared.writerIsActiv_ with
    | true =>
        left
        apply List.length_eq_zero_iff.mp
        rw [← exclusive.readers]
        exact exclusive.apart isActiv
    | false =>
        right
        apply List.length_eq_zero_iff.mp
        rw [exclusive.writers]
        exact if_neg (by rw [isActiv]; exact Bool.false_ne_true)
  · rw [exclusive.writers]
    split
    · exact le_refl 1
    · exact Nat.zero_le 1

/-- A writer beside a reader that has left. -/
def readerThenWriter : List (Monitor.Action ℕ Operation) :=
  [.call 1 (.readLock 0) 0, .call 2 (.writeLock 0) 0, .call 3 .tryReadLock 0,
   .call 1 .readUnlock 0, .resume 2 false 0]

theorem exclusive_readerThenWriter :
    Exclusive (after readerThenWriter).shared (after readerThenWriter).history ∧
      ((holders (after readerThenWriter).history).readers = [] ∨
        (holders (after readerThenWriter).history).writers = []) ∧
      (holders (after readerThenWriter).history).writers.length ≤ 1 :=
  exclusive_after readerThenWriter
    ⟨trivial, trivial, trivial, by exact List.mem_singleton_self 1, trivial, trivial⟩

/-! ## Writers first -/

/-- The weight of the operations that count a waiting writer. -/
def waits : Operation → ℕ
  | .writeLock _ => 1
  | _ => 0

/-- A `writeLock` that has given up. -/
def givesUp : Operation → Result → Bool
  | .writeLock _, .locked false => true
  | _, _ => false

/-- An operation that has got the lock for a reader. -/
def admits : Operation → Result → Bool
  | .readLock _, .locked true => true
  | .tryReadLock, .locked true => true
  | _, _ => false

/-- The returned operations that have got the lock for a reader. -/
def admitted (history : List (τ × Operation × Result)) : List (τ × Operation × Result) :=
  history.filter fun entry => admits entry.2.1 entry.2.2

/-- The waiting writers are those in a `writeLock`, and those that have given up. -/
def Counted (state : Threads τ) : Prop :=
  state.shared.waitingWriters_ =
    state.tally waits fun operation result => (givesUp operation result).toNat

theorem preserves_counted :
    Monitor.Preserves sections (fun _ _ _ => True) (Counted : Threads τ → Prop) := by
  apply Monitor.preserves_tally
  · intro operation mutex
    cases operation with
    | readLock timeout | tryReadLock | tryWriteLock =>
        simp only [sections, enter]
        split <;> rfl
    | readUnlock | writeUnlock | waitingWriters | readers | writerIsActiv => rfl
    | writeLock timeout =>
        simp only [sections, enter]
        split <;> rfl
  · intro operation timedOut mutex counted
    cases operation with
    | readLock timeout =>
        simp only [sections, resume]
        split
        · split <;> rfl
        · rfl
    | writeLock timeout =>
        simp only [sections, resume]
        split
        · split <;> rfl
        · exact Nat.sub_add_cancel counted
    | tryReadLock | tryWriteLock =>
        simp only [sections, resume, enter]
        split <;> rfl
    | readUnlock | writeUnlock | waitingWriters | readers | writerIsActiv => rfl

theorem counted_after [DecidableEq τ] (actions : List (Monitor.Action τ Operation)) :
    Counted (after actions) := by
  have start : Counted (.initial new : Threads τ) := rfl
  exact preserves_counted.runAny start actions

/-- No section lets a reader in while a writer is counted. -/
theorem avoids_enter {mutex : RWMutex} (waiting : 0 < mutex.waitingWriters_)
    (operation : Operation) : (mutex.enter operation).Avoids admits operation := by
  have keepsOut : mutex.keepsReadersOut = true := by
    simp [keepsReadersOut, waiting]
  cases operation with
  | readLock timeout | tryReadLock =>
      simp only [enter, keepsOut, if_true]
      trivial
  | writeLock timeout | tryWriteLock =>
      simp only [enter]
      split
      · trivial
      · rfl
  | readUnlock | writeUnlock | waitingWriters | readers | writerIsActiv => rfl

theorem avoids_resume {mutex : RWMutex} (waiting : 0 < mutex.waitingWriters_)
    (operation : Operation) (timedOut : Bool) :
    (mutex.resume operation timedOut).Avoids admits operation := by
  have keepsOut : mutex.keepsReadersOut = true := by
    simp [keepsReadersOut, waiting]
  cases operation with
  | readLock timeout =>
      simp only [resume, keepsOut, if_true]
      split
      · trivial
      · rfl
  | writeLock timeout =>
      simp only [resume]
      split
      · split
        · trivial
        · rfl
      · rfl
  | tryReadLock | readUnlock | tryWriteLock | writeUnlock | waitingWriters | readers
  | writerIsActiv => exact avoids_enter waiting _

theorem admitted_step [DecidableEq τ] {state : Threads τ}
    (waiting : 0 < state.shared.waitingWriters_) (action : Monitor.Action τ Operation) :
    admitted (state.step sections action).history = admitted state.history :=
  Monitor.filter_step (avoids_enter waiting) (avoids_resume waiting) action

theorem Counted.of_inside {state : Threads τ} (counted : Counted state) {thread : τ}
    {timeout : ℤ} (inside : (thread, .writeLock timeout) ∈ state.inside) :
    0 < state.shared.waitingWriters_ := by
  have own : waits (.writeLock timeout) ≤ (state.inside.map fun sleeper => waits sleeper.2).sum :=
    List.single_le_sum (fun _ _ => Nat.zero_le _) _ (List.mem_map_of_mem inside)
  have isOne : waits (.writeLock timeout) = 1 := rfl
  rw [counted, Monitor.State.tally]
  omega

theorem Counted.of_gaveUp {state : Threads τ} (counted : Counted state)
    {entry : τ × Operation × Result} (member : entry ∈ state.history)
    (gaveUp : givesUp entry.2.1 entry.2.2 = true) : 0 < state.shared.waitingWriters_ := by
  have own : (givesUp entry.2.1 entry.2.2).toNat ≤
      (state.history.map fun entry => (givesUp entry.2.1 entry.2.2).toNat).sum :=
    List.single_le_sum (fun _ _ => Nat.zero_le _) _ (List.mem_map_of_mem member)
  rw [gaveUp, Bool.toNat_true] at own
  rw [counted, Monitor.State.tally]
  omega

/-- While a thread is in a `writeLock`, no reader gets the lock. -/
theorem writersFirst_after [DecidableEq τ] (actions : List (Monitor.Action τ Operation))
    {thread : τ} {timeout : ℤ} (inside : (thread, .writeLock timeout) ∈ (after actions).inside)
    (action : Monitor.Action τ Operation) :
    admitted ((after actions).step sections action).history =
      admitted (after actions).history :=
  admitted_step ((counted_after actions).of_inside inside) action

theorem writersFirst_readerThenWriter :
    admitted ((after (readerThenWriter.take 2)).step sections (.call 3 .tryReadLock 0)).history =
      admitted (after (readerThenWriter.take 2)).history := by
  have inside : ((2, .writeLock 0) : ℕ × Operation) ∈ (after (readerThenWriter.take 2)).inside := by
    decide
  exact writersFirst_after (readerThenWriter.take 2) inside _

theorem admitted_run [DecidableEq τ] {state : Threads τ} {entry : τ × Operation × Result}
    (counted : Counted state) (member : entry ∈ state.history)
    (gaveUp : givesUp entry.2.1 entry.2.2 = true) (later : List (Monitor.Action τ Operation)) :
    admitted (Runs.run (Monitor.State.step sections) state later).history =
      admitted state.history := by
  induction later generalizing state with
  | nil => rfl
  | cons action rest ih =>
      have next : Counted (state.step sections action) :=
        preserves_counted.step counted (Monitor.permits_any state action)
      rw [Runs.run_cons, ih next (Monitor.mem_history_step member action)]
      exact admitted_step (counted.of_gaveUp member gaveUp) action

/-- Behind a `writeLock` that has given up, no reader ever gets the lock. -/
theorem noReaders_after [DecidableEq τ] (earlier later : List (Monitor.Action τ Operation))
    {entry : τ × Operation × Result} (member : entry ∈ (after earlier).history)
    (gaveUp : givesUp entry.2.1 entry.2.2 = true) :
    admitted (after (earlier ++ later)).history = admitted (after earlier).history := by
  rw [after, Runs.run_append]
  exact admitted_run (counted_after earlier) member gaveUp later

/-- A writer that does not get the lock in time. -/
def writerGivesUp : List (Monitor.Action ℕ Operation) :=
  [.call 1 (.readLock 0) 0, .call 2 (.writeLock 1) 0, .wake 2, .resume 2 true 0,
   .call 1 .readUnlock 0]

theorem noReaders_writerGivesUp :
    admitted (after (writerGivesUp ++ [.call 3 .tryReadLock 0])).history =
      admitted (after writerGivesUp).history := by
  have member : ((2, .writeLock 1, .locked false) : ℕ × Operation × Result) ∈
      (after writerGivesUp).history := by
    decide
  exact noReaders_after writerGivesUp [.call 3 .tryReadLock 0] member rfl

/-! ## No deadlock -/

/-- The lock is held against an operation that waits for it. -/
inductive Blocked : Operation → RWMutex → Prop where
  | reader {timeout : ℤ} {mutex : RWMutex} (keepsOut : mutex.keepsReadersOut = true) :
      Blocked (.readLock timeout) mutex
  | writer {timeout : ℤ} {mutex : RWMutex} (keepsOut : mutex.keepsWritersOut = true) :
      Blocked (.writeLock timeout) mutex

theorem Blocked.of_isActiv {operation : Operation} {mutex next : RWMutex}
    (blocked : Blocked operation mutex) (isActiv : next.writerIsActiv_ = true) :
    Blocked operation next := by
  cases blocked with
  | reader _ => exact .reader (by simp [keepsReadersOut, isActiv])
  | writer _ => exact .writer (by simp [keepsWritersOut, isActiv])

theorem Blocked.of_waiting {operation : Operation} {mutex : RWMutex}
    (blocked : Blocked operation mutex) :
    Blocked operation { mutex with waitingWriters_ := mutex.waitingWriters_ + 1 } := by
  cases blocked with
  | reader _ => exact .reader (by simp [keepsReadersOut])
  | writer keepsOut => exact .writer keepsOut

theorem unblocks_readLocked {mutex : RWMutex} (free : mutex.keepsReadersOut = false)
    (operation : Operation) : mutex.readLocked.Unblocks Blocked operation mutex := by
  right
  intro other blocked
  cases blocked with
  | reader keepsOut => cases free.symm.trans keepsOut
  | writer _ => exact .writer (by simp [keepsWritersOut])

theorem unblocks_readUnlock (mutex : RWMutex) :
    (mutex.enter .readUnlock).Unblocks Blocked .readUnlock mutex := by
  by_cases none : mutex.readers_ - 1 = 0
  · left
    exact if_pos none
  · right
    intro other blocked
    cases blocked with
    | reader keepsOut => exact .reader keepsOut
    | writer _ => exact .writer (by simp [keepsWritersOut, Nat.pos_of_ne_zero none])

theorem unblocks_enter (operation : Operation) (mutex : RWMutex) :
    (mutex.enter operation).Unblocks Blocked operation mutex := by
  cases operation with
  | readLock timeout =>
      simp only [enter]
      cases free : mutex.keepsReadersOut with
      | true => exact ⟨.reader free, fun _ blocked => blocked⟩
      | false => exact unblocks_readLocked free _
  | tryReadLock =>
      simp only [enter]
      cases free : mutex.keepsReadersOut with
      | true => exact Or.inr fun _ blocked => blocked
      | false => exact unblocks_readLocked free _
  | readUnlock => exact unblocks_readUnlock mutex
  | writeLock timeout =>
      simp only [enter]
      cases free : keepsWritersOut { mutex with waitingWriters_ := mutex.waitingWriters_ + 1 } with
      | true => exact ⟨.writer free, fun _ blocked => blocked.of_waiting⟩
      | false => exact Or.inr fun _ blocked => blocked.of_isActiv rfl
  | tryWriteLock =>
      simp only [enter]
      cases free : mutex.keepsWritersOut with
      | true => exact Or.inr fun _ blocked => blocked
      | false => exact Or.inr fun _ blocked => blocked.of_isActiv rfl
  | writeUnlock => exact Or.inl rfl
  | waitingWriters | readers | writerIsActiv => exact Or.inr fun _ blocked => blocked

theorem unblocks_resume (operation : Operation) (timedOut : Bool) (mutex : RWMutex) :
    (mutex.resume operation timedOut).Unblocks Blocked operation mutex := by
  cases operation with
  | readLock timeout =>
      simp only [resume]
      cases free : mutex.keepsReadersOut with
      | true =>
          simp only [if_true]
          split
          · exact ⟨.reader free, fun _ blocked => blocked⟩
          · exact Or.inr fun _ blocked => blocked
      | false => exact unblocks_readLocked free _
  | writeLock timeout =>
      simp only [resume]
      cases free : mutex.keepsWritersOut with
      | true =>
          simp only [if_true]
          split
          · exact ⟨.writer free, fun _ blocked => blocked⟩
          · exact Or.inr fun _ blocked => blocked
      | false => exact Or.inr fun _ blocked => blocked.of_isActiv rfl
  | tryReadLock | readUnlock | tryWriteLock | writeUnlock | waitingWriters | readers
  | writerIsActiv => exact unblocks_enter _ mutex

theorem blocked_after [DecidableEq τ] (actions : List (Monitor.Action τ Operation)) :
    (after actions).Blocked Blocked := by
  have start : (.initial new : Threads τ).Blocked Blocked := by
    intro sleeper member
    cases member
  exact (Monitor.preserves_blocked unblocks_enter unblocks_resume).runAny start actions

/-- At a free lock only readers are blocked, and those by the count of waiting writers. -/
theorem Blocked.of_free {operation : Operation} {mutex : RWMutex}
    (blocked : Blocked operation mutex) (noReaders : mutex.readers_ = 0)
    (notActiv : mutex.writerIsActiv_ = false) :
    waits operation = 0 ∧ 0 < mutex.waitingWriters_ := by
  cases blocked with
  | reader keepsOut =>
      simp only [keepsReadersOut, notActiv, Bool.or_false, decide_eq_true_eq] at keepsOut
      exact ⟨rfl, keepsOut⟩
  | writer keepsOut => simp [keepsWritersOut, noReaders, notActiv] at keepsOut

/-- When nobody holds the lock and nobody is on the way to it, then nobody sleeps, unless a
`writeLock` has given up. -/
theorem noDeadlock_after [DecidableEq τ] (actions : List (Monitor.Action τ Operation))
    (disciplined : Runs.EachStep (Monitor.State.step sections) Unlocks (.initial new) actions)
    (free : holders (after actions).history = ⟨[], []⟩) (quiet : (after actions).woken = [])
    (patient : ∀ entry ∈ (after actions).history, givesUp entry.2.1 entry.2.2 = false) :
    (after actions).asleep = [] := by
  have exclusive := exclusive_run disciplined
  have noReaders : (after actions).shared.readers_ = 0 := by
    rw [exclusive.readers, free]
    rfl
  have notActiv : (after actions).shared.writerIsActiv_ = false := by
    have noWriter := exclusive.writers
    rw [free] at noWriter
    cases isActiv : (after actions).shared.writerIsActiv_ with
    | true =>
        rw [isActiv] at noWriter
        cases noWriter
    | false => rfl
  have asleep : ∀ sleeper ∈ (after actions).asleep,
      waits sleeper.2 = 0 ∧ 0 < (after actions).shared.waitingWriters_ :=
    fun sleeper member => (blocked_after actions sleeper member).of_free noReaders notActiv
  have noneInside : ((after actions).inside.map fun sleeper => waits sleeper.2).sum = 0 := by
    apply List.sum_eq_zero
    intro weight member
    obtain ⟨sleeper, isInside, rfl⟩ := List.mem_map.mp member
    rw [Monitor.State.inside, quiet, List.append_nil] at isInside
    exact (asleep sleeper isInside).1
  have noneGaveUp : ((after actions).history.map fun entry =>
      (givesUp entry.2.1 entry.2.2).toNat).sum = 0 := by
    apply List.sum_eq_zero
    intro weight member
    obtain ⟨entry, inHistory, rfl⟩ := List.mem_map.mp member
    rw [patient entry inHistory]
    rfl
  have nobodyWaits : (after actions).shared.waitingWriters_ = 0 := by
    rw [counted_after actions, Monitor.State.tally, noneInside, noneGaveUp]
  by_contra sleeping
  obtain ⟨sleeper, member⟩ := List.exists_mem_of_ne_nil _ sleeping
  have waiting := (asleep sleeper member).2
  omega

/-- A writer that waits for a reader, gets the lock and unlocks it. -/
def writerLeaves : List (Monitor.Action ℕ Operation) :=
  [.call 1 (.readLock 0) 0, .call 2 (.writeLock 0) 0, .call 1 .readUnlock 0,
   .resume 2 false 0, .call 2 .writeUnlock 0]

theorem noDeadlock_writerLeaves : (after writerLeaves).asleep = [] := by
  have patient : ∀ entry ∈ (after writerLeaves).history,
      givesUp entry.2.1 entry.2.2 = false := by
    decide
  exact noDeadlock_after writerLeaves
    ⟨trivial, trivial, by exact List.mem_singleton_self 1, trivial,
      by exact List.mem_singleton_self 2, trivial⟩
    rfl rfl patient

end RWMutex

end Wdb2ts
