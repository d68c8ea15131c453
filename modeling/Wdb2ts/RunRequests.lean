import Wdb2ts.MergeData
import Wdb2ts.Lib.Runs

/-!
# Running the requests

`WdbDataRequestManager::runRequests` starts the requests in order, each in a thread of its
own, and takes the ids of the completed ones from the ready queue.  Between any two of its
steps running queries may finish.  The steps of the manager and of the threads are the
events of a run.
-/

namespace Wdb2ts

variable {F : Type}

/-! ## Constant fields -/

/-- `onlyConstFieldsOrEmpty` of a time series. -/
def TimeSerie.onlyConstFieldsOrEmpty (ts : TimeSerie F) : Bool :=
  ts.entries.all fun toTime =>
    decide (toTime.1 = PTime.epoch) &&
      toTime.2.entries.all fun fromTime => decide (fromTime.1 = PTime.epoch)

/-- `onlyConstFieldsOrEmpty` of location point data. -/
def onlyConstFieldsOrEmpty (ts : LocationPointData F) : Bool :=
  ts.entries.all fun pd => pd.2.onlyConstFieldsOrEmpty

/-- Is there data that is not only constant fields? -/
def hasData (data : LocationPointData F) : Bool :=
  !data.entries.isEmpty && !onlyConstFieldsOrEmpty data

namespace WdbDataRequestManager

/-- What `runRequests` reads and writes of a `ThreadInfo`.  `started` tells whether there is a
thread, and `joined` whether it is joined. -/
structure RequestInfo (F : Type) extends ThreadInfo F where
  stopIfData : Bool
  started : Bool
  joined : Bool

/-- `ThreadInfo( command, wdbid, mustHaveData, stopIfData, minPrognosisLength )`. -/
def RequestInfo.new (mustHaveData stopIfData : Bool) : RequestInfo F :=
  { command := ⟨∅, true⟩
    mustHaveData := mustHaveData
    completed := false
    stopIfData := stopIfData
    started := false
    joined := false }

/-- The exceptions that leave `runRequests`. -/
inductive RunException where
  | resourceLimit (reason : Bytes)
  | logicError (what : Bytes)
  deriving DecidableEq

/-- The calls of `waitForCompleted`, by what is behind them. -/
inductive Behind where
  | toManyThreads
  | waitingForDbConnection
  | stopIfData
  | allStarted
  | failed (what : Bytes)
  deriving DecidableEq

/-- Where the manager is. -/
inductive Location where
  /-- The test of the loop of `runRequests`. -/
  | loop
  /-- The test of the loop of `startThreads`. -/
  | startThreads
  /-- Behind the call of `startThreads`. -/
  | started
  /-- The test of `waitingForDbConnection`. -/
  | connected
  /-- The test of the loop of `waitForCompleted`, with `n` threads completed. -/
  | waitForCompleted (waitForAtLeast n : ℕ) (behind : Behind)
  | returned
  | threw (exception : RunException)
  deriving DecidableEq

/-- The members of the manager and the variables of `runRequests`.  The iterators are indices
of `threadInfos`.  `queries` are the threads that have not pushed their id yet, and
`waitUntil` is set once the manager has been waiting for a connection. -/
structure RunState (F : Type) where
  threadInfos : List (RequestInfo F)
  nParalell : ℤ
  nextToStart : ℕ
  lastStarted : Option ℕ
  waitingForDbConnection : Bool
  toManyThreads : Bool
  runningThreads : SortedMap ℕ ℕ
  nextThreadId : ℕ
  readyQueue : List ℕ
  queries : List (ℕ × ℕ)
  stop : Bool
  waitUntil : Option ℤ
  location : Location

/-- What a call of `newWciConnection` does. -/
inductive Connection where
  | connected
  | maxUse
  | createFailed
  | exception (what : Bytes)
  | unknown
  deriving DecidableEq

/-- What the calls of the manager to other code do in one step: a new connection, a new thread,
and the clock. -/
structure Environment where
  connection : Connection
  threadStarts : Bool
  now : ℤ

/-- An event of a run: a query finishes with its result, or the manager goes on. -/
inductive Event (F : Type) where
  | finish (tid : ℕ) (command : WdbDataRequestCommand F)
  | proceed (environment : Environment)

namespace RunState

/-- `runRequests` at its start, for requests with the given flags `mustHaveData` and
`stopIfData`.  The flag `toManyThreads` has no initial value in the code, and there may be no
memory for the queue. -/
def initial (requests : List (Bool × Bool)) (nParalell : ℤ) (toManyThreads hasQueue : Bool) :
    RunState F :=
  { threadInfos := requests.map fun request => RequestInfo.new request.1 request.2
    nParalell := nParalell
    nextToStart := 0
    lastStarted := none
    waitingForDbConnection := false
    toManyThreads := toManyThreads
    runningThreads := ∅
    nextThreadId := 0
    readyQueue := []
    queries := []
    stop := false
    waitUntil := none
    location :=
      if hasQueue then .loop
      else .threw (.resourceLimit (Bytes.str "No memory to run the request.")) }

/-- `WdbDataRequest::operator()`: the query of a thread finishes, and its id is pushed. -/
def finish (tid : ℕ) (command : WdbDataRequestCommand F) (state : RunState F) : RunState F :=
  match state.queries.lookup tid with
  | none => state
  | some index =>
      { state with
        threadInfos := state.threadInfos.modify index fun info => { info with command := command }
        queries := state.queries.filter fun query => query.1 ≠ tid
        readyQueue := state.readyQueue ++ [tid] }

/-- Leave `runRequests` by the clause that waits for all threads first. -/
def fail (what : Bytes) (state : RunState F) : RunState F :=
  { state with location := .waitForCompleted 0 0 (.failed what) }

/-- Start the thread of the next request. -/
def startThread (info : RequestInfo F) (state : RunState F) : RunState F :=
  { state with
    threadInfos := state.threadInfos.modify state.nextToStart fun info =>
      { info with started := true }
    waitingForDbConnection := false
    toManyThreads := false
    runningThreads := state.runningThreads.insert state.nextThreadId state.nextToStart
    nextThreadId := state.nextThreadId + 1
    queries := state.queries ++ [(state.nextThreadId, state.nextToStart)]
    lastStarted := some state.nextToStart
    nextToStart := state.nextToStart + 1
    location := if info.stopIfData then .started else .startThreads }

/-- A round of the loop of `startThreads`. -/
def startThreads (environment : Environment) (state : RunState F) : RunState F :=
  match state.threadInfos[state.nextToStart]? with
  | none => { state with location := .started }
  | some info =>
      if 0 < state.nParalell ∧ state.nParalell ≤ state.runningThreads.size then
        { state with toManyThreads := true, location := .started }
      else
        match environment.connection with
        | .maxUse => { state with waitingForDbConnection := true, location := .started }
        | .createFailed => { state with waitingForDbConnection := true, location := .started }
        | .exception what => state.fail what
        | .unknown => state.fail (Bytes.str "runRequests: Unknown exception.")
        | .connected =>
            if environment.threadStarts then state.startThread info
            else
              { state with waitingForDbConnection := false, toManyThreads := false }.fail
                (Bytes.str "Cant start a new request thread.")

/-- What is behind a call of `waitForCompleted`. -/
def leave (behind : Behind) (state : RunState F) : RunState F :=
  match behind with
  | .toManyThreads => { state with location := .connected }
  | .waitingForDbConnection => { state with location := .loop }
  | .stopIfData =>
      match state.lastStarted.bind fun index => state.threadInfos[index]? with
      | none => { state with location := .loop }
      | some info =>
          { state with stop := hasData info.command.data || state.stop, location := .loop }
  | .allStarted => { state with location := .returned }
  | .failed what => { state with location := .threw (.logicError what) }

/-- Take the id of a completed thread from the queue, and join the thread. -/
def complete (waitForAtLeast n : ℕ) (behind : Behind) (tid : ℕ) (state : RunState F) :
    RunState F :=
  match state.runningThreads.find? tid with
  | none => { state with location := .waitForCompleted waitForAtLeast (n + 1) behind }
  | some index =>
      { state with
        threadInfos := state.threadInfos.modify index fun info =>
          { info with completed := true, joined := true }
        runningThreads := state.runningThreads.erase tid
        location := .waitForCompleted waitForAtLeast (n + 1) behind }

/-- A round of the loop of `waitForCompleted`.  `waitAndPop` blocks while the queue is empty. -/
def waitForCompleted (waitForAtLeast n : ℕ) (behind : Behind) (state : RunState F) :
    RunState F :=
  if state.runningThreads.entries.isEmpty then state.leave behind
  else
    match state.readyQueue with
    | [] =>
        if waitForAtLeast = 0 ∨ n < waitForAtLeast then state else state.leave behind
    | tid :: rest => { state with readyQueue := rest }.complete waitForAtLeast n behind tid

/-- The test of `waitingForDbConnection`, and of the last request when there is a connection. -/
def connected (environment : Environment) (state : RunState F) : RunState F :=
  if state.waitingForDbConnection then
    let wait (state : RunState F) : RunState F :=
      if state.runningThreads.entries.isEmpty then { state with location := .loop }
      else { state with location := .waitForCompleted 1 0 .waitingForDbConnection }
    match state.waitUntil with
    | none => wait { state with waitUntil := some (environment.now + 10) }
    | some waitUntil =>
        if waitUntil < environment.now then
          { state with
            location := .threw (.resourceLimit
              (Bytes.str "Waiting more than 10 seconds on db connection.")) }
        else wait state
  else
    match state.lastStarted.bind fun index => state.threadInfos[index]? with
    | none => { state with location := .loop }
    | some info =>
        if info.stopIfData then { state with location := .waitForCompleted 0 0 .stopIfData }
        else { state with location := .loop }

/-- The next step of the manager. -/
def proceed (environment : Environment) (state : RunState F) : RunState F :=
  match state.location with
  | .loop =>
      if state.nextToStart < state.threadInfos.length ∧ state.stop = false then
        { state with location := .startThreads }
      else { state with location := .waitForCompleted 0 0 .allStarted }
  | .startThreads => state.startThreads environment
  | .started =>
      if state.toManyThreads then { state with location := .waitForCompleted 1 0 .toManyThreads }
      else { state with location := .connected }
  | .connected => state.connected environment
  | .waitForCompleted waitForAtLeast n behind => state.waitForCompleted waitForAtLeast n behind
  | .returned => state
  | .threw _ => state

/-- One event of a run. -/
def step (state : RunState F) : Event F → RunState F
  | .finish tid command => state.finish tid command
  | .proceed environment => state.proceed environment

/-- `runRequests` after some events. -/
def after (requests : List (Bool × Bool)) (nParalell : ℤ) (toManyThreads hasQueue : Bool)
    (events : List (Event F)) : RunState F :=
  Runs.run step (initial requests nParalell toManyThreads hasQueue) events

end RunState

end WdbDataRequestManager

end Wdb2ts
