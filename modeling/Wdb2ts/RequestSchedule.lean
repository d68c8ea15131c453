import Wdb2ts.RunRequests

/-!
# The schedule of the requests

The requests are started in order, and a request that stops the run when it has data is
waited for before the next one is started.  The invariant of the run says for each place of
the manager which of these requests may be undecided.
-/

namespace Wdb2ts

namespace WdbDataRequestManager

variable {F : Type}

namespace RunState

/-- A started request that may stop the run: it is running, or it has returned data. -/
def Open (state : RunState F) (index : ℕ) : Prop :=
  ∃ info, state.threadInfos[index]? = some info ∧ info.stopIfData = true ∧
    info.started = true ∧ (info.completed = true → hasData info.command.data = true)

/-- The started requests are a prefix of the list, and those that are not running are completed
and joined.  The thread ids are the positions of the requests. -/
structure Accounted (state : RunState F) : Prop where
  infos : ∀ index info, state.threadInfos[index]? = some info →
    (info.started = true ↔ index < state.nextToStart) ∧ info.joined = info.completed ∧
      (info.completed = true ↔
        index < state.nextToStart ∧ state.runningThreads.find? index = none)
  running : ∀ tid index, state.runningThreads.find? tid = some index →
    index = tid ∧ tid < state.nextToStart
  threadIds : state.nextThreadId = state.nextToStart
  nextToStart_le : state.nextToStart ≤ state.threadInfos.length
  last : state.lastStarted =
    if state.nextToStart = 0 then none else some (state.nextToStart - 1)
  bound : 0 < state.nParalell → (state.runningThreads.size : ℤ) ≤ state.nParalell
  queries : ∀ query ∈ state.queries, query.2 = query.1 ∧
    state.runningThreads.find? query.1 = some query.2
  queue : ∀ tid ∈ state.readyQueue, tid < state.nextToStart ∧
    ∀ query ∈ state.queries, query.1 ≠ tid

/-- The run is stopped exactly when a request has returned data to stop for, which is the last
started one. -/
def Settled (state : RunState F) : Prop :=
  (state.stop = true ↔ ∃ index, state.Open index) ∧
    ∀ index, state.Open index → index + 1 = state.nextToStart ∧
      state.runningThreads.find? index = none

/-- The last started request stops the run when it has data. -/
def LastStops (state : RunState F) : Prop :=
  ∃ index info, state.lastStarted = some index ∧ state.threadInfos[index]? = some info ∧
    info.stopIfData = true

/-- Which requests may stop the run, for each place of the manager. -/
def Decided (state : RunState F) : Prop :=
  match state.location with
  | .loop => state.Settled
  | .startThreads => state.stop = false ∧ ∀ index, ¬state.Open index
  | .started | .connected | .waitForCompleted _ _ .toManyThreads =>
      state.stop = false ∧ ∀ index, state.Open index →
        index + 1 = state.nextToStart ∧ state.waitingForDbConnection = false
  | .waitForCompleted _ _ .waitingForDbConnection =>
      state.stop = false ∧ ∀ index, ¬state.Open index
  | .waitForCompleted waitForAtLeast _ .stopIfData =>
      waitForAtLeast = 0 ∧ state.stop = false ∧
        (∀ index, state.Open index → index + 1 = state.nextToStart) ∧ state.LastStops
  | .waitForCompleted waitForAtLeast _ .allStarted =>
      waitForAtLeast = 0 ∧ state.Settled ∧
        (state.nextToStart < state.threadInfos.length → state.stop = true)
  | .waitForCompleted waitForAtLeast _ (.failed _) => waitForAtLeast = 0
  | .returned =>
      state.runningThreads.entries = [] ∧ state.Settled ∧
        (state.nextToStart < state.threadInfos.length → state.stop = true)
  | .threw _ => True

/-- The invariant of a run. -/
structure Scheduled (state : RunState F) : Prop extends Accounted state where
  decided : state.Decided

theorem scheduled_initial (requests : List (Bool × Bool)) (nParalell : ℤ)
    (toManyThreads hasQueue : Bool) :
    (initial requests nParalell toManyThreads hasQueue : RunState F).Scheduled where
  infos index info isInfo := by
    simp only [initial, List.getElem?_map, Option.map_eq_some_iff] at isInfo
    obtain ⟨request, _, rfl⟩ := isInfo
    simp [RequestInfo.new, initial]
  running tid index found := by simp [initial] at found
  threadIds := rfl
  nextToStart_le := Nat.zero_le _
  last := rfl
  bound positive := positive.le
  queries query member := by simp [initial] at member
  queue tid member := by simp [initial] at member
  decided := by
    have noneOpen : ∀ index, ¬(initial requests nParalell toManyThreads hasQueue :
        RunState F).Open index := by
      rintro index ⟨info, isInfo, _, isStarted, _⟩
      simp only [initial, List.getElem?_map, Option.map_eq_some_iff] at isInfo
      obtain ⟨request, _, rfl⟩ := isInfo
      cases isStarted
    cases hasQueue with
    | true =>
        refine ⟨⟨fun isStop => Bool.noConfusion isStop, ?_⟩, ?_⟩
        · rintro ⟨index, isOpen⟩
          exact absurd isOpen (noneOpen index)
        · intro index isOpen
          exact absurd isOpen (noneOpen index)
    | false => trivial

/-! ## Queries that finish -/

theorem lookup_mem {α : Type} {key : ℕ} {value : α} {entries : List (ℕ × α)}
    (found : entries.lookup key = some value) : (key, value) ∈ entries := by
  rcases List.lookup_eq_some_iff.mp found with ⟨before, after, split, _⟩
  simp [split]

/-- The result of a running query decides nothing yet. -/
theorem open_finish {state : RunState F} (accounted : state.Accounted) (tid : ℕ)
    (command : WdbDataRequestCommand F) (index : ℕ) :
    (state.finish tid command).Open index ↔ state.Open index := by
  simp only [finish]
  cases found : state.queries.lookup tid with
  | none => rfl
  | some own =>
      obtain ⟨sameTid, isRunning⟩ := accounted.queries _ (lookup_mem found)
      simp only [Open, List.getElem?_modify]
      by_cases isOwn : own = index
      · subst isOwn
        cases isInfo : state.threadInfos[own]? with
        | none => simp
        | some info =>
            have notCompleted : info.completed = false := by
              rw [Bool.eq_false_iff]
              intro completed
              have noThread := ((accounted.infos own info isInfo).2.2.mp completed).2
              simp only at sameTid isRunning
              rw [sameTid] at noThread
              rw [noThread] at isRunning
              cases isRunning
            simp [notCompleted]
      · cases isInfo : state.threadInfos[index]? with
        | none => simp
        | some info => simp [isOwn]

theorem Accounted.finish {state : RunState F} (accounted : state.Accounted) (tid : ℕ)
    (command : WdbDataRequestCommand F) : (state.finish tid command).Accounted := by
  simp only [RunState.finish]
  cases found : state.queries.lookup tid with
  | none => exact accounted
  | some own =>
      have isRunning := (accounted.queries _ (lookup_mem found)).2
      refine
        { infos := ?_
          running := accounted.running
          threadIds := accounted.threadIds
          nextToStart_le := by simpa using accounted.nextToStart_le
          last := accounted.last
          bound := accounted.bound
          queries := fun query member => accounted.queries query (List.mem_of_mem_filter member)
          queue := ?_ }
      · intro index info isInfo
        simp only [List.getElem?_modify, Option.map_eq_map, Option.map_eq_some_iff] at isInfo
        obtain ⟨old, isOld, rfl⟩ := isInfo
        have facts := accounted.infos index old isOld
        split
        · exact facts
        · exact facts
      · intro other member
        rcases List.mem_append.mp member with isOld | isNew
        · obtain ⟨less, absent⟩ := accounted.queue other isOld
          exact ⟨less, fun query inQueries =>
            absent query (List.mem_of_mem_filter inQueries)⟩
        · rw [List.mem_singleton] at isNew
          subst isNew
          refine ⟨(accounted.running _ _ isRunning).2, fun query inQueries => ?_⟩
          simpa using List.of_mem_filter inQueries

theorem lastStops_finish (state : RunState F) (tid : ℕ) (command : WdbDataRequestCommand F) :
    (state.finish tid command).LastStops ↔ state.LastStops := by
  simp only [finish]
  cases state.queries.lookup tid with
  | none => rfl
  | some own =>
      simp only [LastStops, List.getElem?_modify, Option.map_eq_map, Option.map_eq_some_iff]
      constructor
      · rintro ⟨index, _, isLast, ⟨info, isInfo, rfl⟩, stops⟩
        refine ⟨index, info, isLast, isInfo, ?_⟩
        split at stops
        · exact stops
        · exact stops
      · rintro ⟨index, info, isLast, isInfo, stops⟩
        refine ⟨index, _, isLast, ⟨info, isInfo, rfl⟩, ?_⟩
        split
        · exact stops
        · exact stops

theorem Scheduled.finish {state : RunState F} (scheduled : state.Scheduled) (tid : ℕ)
    (command : WdbDataRequestCommand F) : (state.finish tid command).Scheduled := by
  have isOpen := open_finish scheduled.toAccounted tid command
  have lastStops := lastStops_finish state tid command
  refine ⟨scheduled.toAccounted.finish tid command, ?_⟩
  have decided := scheduled.decided
  simp only [RunState.finish] at isOpen lastStops ⊢
  cases found : state.queries.lookup tid with
  | none => exact decided
  | some own =>
      simp only [found] at isOpen lastStops
      simp only [Decided, Settled, isOpen, lastStops, List.length_modify] at decided ⊢
      exact decided

/-! ## Threads that are started and joined -/

theorem Accounted.startThread {state : RunState F} (accounted : state.Accounted)
    {info : RequestInfo F} (isNext : state.threadInfos[state.nextToStart]? = some info)
    (allowed : ¬(0 < state.nParalell ∧ state.nParalell ≤ state.runningThreads.size)) :
    (state.startThread info).Accounted := by
  have sameId := accounted.threadIds
  refine
    { infos := ?_
      running := ?_
      threadIds := congrArg (· + 1) sameId
      nextToStart_le := ?_
      last := rfl
      bound := ?_
      queries := ?_
      queue := ?_ }
  · intro index other isOther
    simp only [RunState.startThread, List.getElem?_modify, Option.map_eq_map,
      Option.map_eq_some_iff] at isOther
    obtain ⟨old, isOld, rfl⟩ := isOther
    obtain ⟨started, joined, completed⟩ := accounted.infos index old isOld
    simp only [RunState.startThread, SortedMap.find?_insert, sameId]
    by_cases isOwn : state.nextToStart = index
    · subst isOwn
      rw [lt_self_iff_false, false_and] at completed
      simp [joined, completed]
    · have different : index ≠ state.nextToStart := Ne.symm isOwn
      have sameBound : index < state.nextToStart + 1 ↔ index < state.nextToStart := by omega
      simp only [if_neg isOwn, if_neg different, sameBound]
      exact ⟨started, joined, completed⟩
  · intro tid index found
    simp only [RunState.startThread, SortedMap.find?_insert, sameId] at found ⊢
    split at found
    · rename_i isOwn
      cases found
      exact ⟨isOwn.symm, isOwn ▸ Nat.lt_succ_self _⟩
    · obtain ⟨sameTid, less⟩ := accounted.running tid index found
      exact ⟨sameTid, Nat.lt_succ_of_lt less⟩
  · simp only [RunState.startThread, List.length_modify]
    exact (List.getElem?_eq_some_iff.mp isNext).1
  · intro positive
    have grown := state.runningThreads.size_insert_le state.nextThreadId state.nextToStart
    have less := not_le.mp fun full => allowed ⟨positive, full⟩
    simp only [RunState.startThread]
    omega
  · intro query member
    simp only [RunState.startThread, SortedMap.find?_insert]
    rcases List.mem_append.mp member with isOld | isNew
    · obtain ⟨sameTid, found⟩ := accounted.queries query isOld
      have less := (accounted.running _ _ found).2
      rw [if_neg (by omega)]
      exact ⟨sameTid, found⟩
    · rw [List.mem_singleton] at isNew
      subst isNew
      exact ⟨sameId.symm, if_pos rfl⟩
  · intro tid member
    obtain ⟨less, absent⟩ := accounted.queue tid member
    refine ⟨Nat.lt_succ_of_lt less, fun query inQueries => ?_⟩
    rcases List.mem_append.mp inQueries with isOld | isNew
    · exact absent query isOld
    · rw [List.mem_singleton] at isNew
      subst isNew
      simp only [sameId]
      omega

/-- The request that is started is the only new one that may stop the run. -/
theorem open_startThread {state : RunState F} {info : RequestInfo F}
    (isNext : state.threadInfos[state.nextToStart]? = some info) {index : ℕ}
    (isOpen : (state.startThread info).Open index) :
    state.Open index ∨ (index = state.nextToStart ∧ info.stopIfData = true) := by
  obtain ⟨other, isOther, stops, started, completed⟩ := isOpen
  simp only [RunState.startThread, List.getElem?_modify, Option.map_eq_map,
    Option.map_eq_some_iff] at isOther
  obtain ⟨old, isOld, rfl⟩ := isOther
  by_cases isOwn : state.nextToStart = index
  · subst isOwn
    rw [isNext] at isOld
    cases isOld
    rw [if_pos rfl] at stops
    exact Or.inr ⟨rfl, stops⟩
  · simp only [if_neg isOwn] at stops started completed
    exact Or.inl ⟨old, isOld, stops, started, completed⟩

theorem Accounted.complete {state : RunState F} (accounted : state.Accounted) {tid : ℕ}
    {rest : List ℕ} (isQueue : state.readyQueue = tid :: rest) (waitForAtLeast n : ℕ)
    (behind : Behind) :
    ({ state with readyQueue := rest }.complete waitForAtLeast n behind tid).Accounted := by
  have inQueue : tid ∈ state.readyQueue := isQueue ▸ List.mem_cons_self
  have queueRest : ∀ other ∈ rest, other < state.nextToStart ∧
      ∀ query ∈ state.queries, query.1 ≠ other := fun other member =>
    accounted.queue other (isQueue ▸ List.mem_cons_of_mem _ member)
  simp only [RunState.complete]
  cases found : state.runningThreads.find? tid with
  | none => exact { accounted with queue := queueRest }
  | some index =>
      obtain ⟨rfl, less⟩ := accounted.running tid index found
      refine
        { infos := ?_
          running := ?_
          threadIds := accounted.threadIds
          nextToStart_le := by simpa using accounted.nextToStart_le
          last := accounted.last
          bound := ?_
          queries := ?_
          queue := queueRest }
      · intro other info isInfo
        simp only [List.getElem?_modify, Option.map_eq_map, Option.map_eq_some_iff] at isInfo
        obtain ⟨old, isOld, rfl⟩ := isInfo
        obtain ⟨started, joined, completed⟩ := accounted.infos other old isOld
        simp only [SortedMap.find?_erase]
        by_cases isOwn : index = other
        · subst isOwn
          simp [started, less]
        · simp only [if_neg isOwn, if_neg (Ne.symm isOwn)]
          exact ⟨started, joined, completed⟩
      · intro other value foundOther
        rw [SortedMap.find?_erase] at foundOther
        split at foundOther
        · cases foundOther
        · exact accounted.running other value foundOther
      · intro positive
        have smaller := state.runningThreads.size_erase_le index
        have bound := accounted.bound positive
        simp only
        omega
      · intro query member
        obtain ⟨sameTid, foundQuery⟩ := accounted.queries query member
        have different := (accounted.queue index inQueue).2 query member
        rw [SortedMap.find?_erase, if_neg different]
        exact ⟨sameTid, foundQuery⟩

/-- Completing a thread leaves no more requests that may stop the run. -/
theorem open_complete {state : RunState F} {waitForAtLeast n : ℕ} {behind : Behind}
    {tid index : ℕ} (isOpen : (state.complete waitForAtLeast n behind tid).Open index) :
    state.Open index := by
  simp only [RunState.complete] at isOpen
  cases found : state.runningThreads.find? tid with
  | none =>
      rw [found] at isOpen
      exact isOpen
  | some own =>
      simp only [found] at isOpen
      obtain ⟨info, isInfo, stops, started, completed⟩ := isOpen
      simp only [List.getElem?_modify, Option.map_eq_map, Option.map_eq_some_iff] at isInfo
      obtain ⟨old, isOld, rfl⟩ := isInfo
      by_cases isOwn : own = index
      · simp only [if_pos isOwn, forall_const] at stops started completed
        exact ⟨old, isOld, stops, started, fun _ => completed⟩
      · simp only [if_neg isOwn] at stops started completed
        exact ⟨old, isOld, stops, started, completed⟩

/-- A request that has returned data stays so. -/
theorem open_complete_of_notRunning {state : RunState F} {waitForAtLeast n : ℕ}
    {behind : Behind} {tid index : ℕ} (accounted : state.Accounted) (isOpen : state.Open index)
    (notRunning : state.runningThreads.find? index = none) :
    (state.complete waitForAtLeast n behind tid).Open index := by
  simp only [RunState.complete]
  cases found : state.runningThreads.find? tid with
  | none => exact isOpen
  | some own =>
      obtain ⟨sameTid, _⟩ := accounted.running tid own found
      have different : own ≠ index := by
        rintro rfl
        rw [← sameTid, notRunning] at found
        cases found
      obtain ⟨info, isInfo, facts⟩ := isOpen
      exact ⟨info, by simp [different, isInfo], facts⟩

theorem LastStops.complete {state : RunState F} {waitForAtLeast n : ℕ} {behind : Behind}
    {tid : ℕ} (lastStops : state.LastStops) :
    (state.complete waitForAtLeast n behind tid).LastStops := by
  simp only [RunState.complete]
  cases state.runningThreads.find? tid with
  | none => exact lastStops
  | some own =>
      obtain ⟨index, info, isLast, isInfo, stops⟩ := lastStops
      by_cases isOwn : own = index
      · exact ⟨index, { info with completed := true, joined := true }, isLast,
          by simp [isOwn, isInfo], stops⟩
      · exact ⟨index, info, isLast, by simp [isOwn, isInfo], stops⟩

/-- What completing a thread leaves as it was. -/
theorem Settled.complete {state : RunState F} {waitForAtLeast n : ℕ} {behind : Behind}
    {tid : ℕ} (accounted : state.Accounted) (settled : state.Settled) :
    (state.complete waitForAtLeast n behind tid).Settled := by
  have sameStop : (state.complete waitForAtLeast n behind tid).stop = state.stop := by
    simp only [RunState.complete]
    cases state.runningThreads.find? tid <;> rfl
  have sameNext : (state.complete waitForAtLeast n behind tid).nextToStart =
      state.nextToStart := by
    simp only [RunState.complete]
    cases state.runningThreads.find? tid <;> rfl
  obtain ⟨isStop, positions⟩ := settled
  constructor
  · rw [sameStop, isStop]
    constructor
    · rintro ⟨index, isOpen⟩
      exact ⟨index, open_complete_of_notRunning accounted isOpen (positions index isOpen).2⟩
    · rintro ⟨index, isOpen⟩
      exact ⟨index, open_complete isOpen⟩
  · intro index isOpen
    obtain ⟨isLast, notRunning⟩ := positions index (open_complete isOpen)
    refine ⟨isLast.trans sameNext.symm, ?_⟩
    simp only [RunState.complete]
    cases state.runningThreads.find? tid with
    | none => exact notRunning
    | some own =>
        simp only [SortedMap.find?_erase, notRunning, ite_self]

/-! ## The steps of the manager -/

theorem noneOpen_settled {state : RunState F} (goesOn : state.stop = false)
    (noneOpen : ∀ index, ¬state.Open index) : state.Settled := by
  constructor
  · rw [goesOn]
    refine ⟨fun isTrue => Bool.noConfusion isTrue, ?_⟩
    rintro ⟨index, isOpen⟩
    exact absurd isOpen (noneOpen index)
  · intro index isOpen
    exact absurd isOpen (noneOpen index)

theorem Scheduled.startThreads {state : RunState F} (scheduled : state.Scheduled)
    (here : state.location = .startThreads) (environment : Environment) :
    (state.startThreads environment).Scheduled := by
  have accounted := scheduled.toAccounted
  obtain ⟨goesOn, noneOpen⟩ : state.stop = false ∧ ∀ index, ¬state.Open index := by
    simpa only [Decided, here] using scheduled.decided
  have waits : state.stop = false ∧ ∀ index, state.Open index →
      index + 1 = state.nextToStart ∧ state.waitingForDbConnection = false :=
    ⟨goesOn, fun index isOpen => absurd isOpen (noneOpen index)⟩
  have waiting : ({ state with waitingForDbConnection := true, location := .started } :
      RunState F).Scheduled :=
    { accounted with
      decided := ⟨goesOn, fun index isOpen => absurd isOpen (noneOpen index)⟩ }
  simp only [RunState.startThreads]
  cases isNext : state.threadInfos[state.nextToStart]? with
  | none => exact { accounted with decided := waits }
  | some info =>
      simp only
      split
      · exact { accounted with decided := waits }
      · rename_i allowed
        cases environment.connection with
        | maxUse => exact waiting
        | createFailed => exact waiting
        | exception what => exact { accounted with decided := rfl }
        | unknown => exact { accounted with decided := rfl }
        | connected =>
            simp only
            split
            · refine { accounted.startThread isNext allowed with decided := ?_ }
              have isOpen (index : ℕ) := @open_startThread _ _ _ isNext index
              simp only [Decided, RunState.startThread] at isOpen ⊢
              cases stops : info.stopIfData with
              | true =>
                  refine ⟨goesOn, fun index opened => ?_⟩
                  rcases isOpen index opened with before | ⟨isLast, _⟩
                  · exact absurd before (noneOpen index)
                  · exact ⟨congrArg (· + 1) isLast, trivial⟩
              | false =>
                  refine ⟨goesOn, fun index opened => ?_⟩
                  rcases isOpen index opened with before | ⟨_, isTrue⟩
                  · exact noneOpen index before
                  · exact Bool.noConfusion (stops.symm.trans isTrue)
            · exact { accounted with decided := rfl }

theorem Scheduled.connected {state : RunState F} (scheduled : state.Scheduled)
    (here : state.location = .connected) (environment : Environment) :
    (state.connected environment).Scheduled := by
  have accounted := scheduled.toAccounted
  obtain ⟨goesOn, waits⟩ : state.stop = false ∧ ∀ index, state.Open index →
      index + 1 = state.nextToStart ∧ state.waitingForDbConnection = false := by
    simpa only [Decided, here] using scheduled.decided
  cases isWaiting : state.waitingForDbConnection with
  | true =>
      have noneOpen : ∀ index, ¬state.Open index := fun index isOpen =>
        Bool.noConfusion (isWaiting.symm.trans (waits index isOpen).2)
      have settled := noneOpen_settled goesOn noneOpen
      simp only [RunState.connected, isWaiting, if_true]
      cases state.waitUntil with
      | none =>
          simp only
          split
          · exact { accounted with decided := settled }
          · exact { accounted with decided := ⟨goesOn, noneOpen⟩ }
      | some waitUntil =>
          simp only
          split
          · exact { accounted with decided := trivial }
          · split
            · exact { accounted with decided := settled }
            · exact { accounted with decided := ⟨goesOn, noneOpen⟩ }
  | false =>
      have openLast : ∀ index, state.Open index → ∃ info,
          (state.lastStarted.bind fun index => state.threadInfos[index]?) = some info ∧
            info.stopIfData = true := by
        intro index isOpen
        obtain ⟨info, isInfo, stops, _⟩ := id isOpen
        have isLast := (waits index isOpen).1
        have sameLast : state.lastStarted = some index := by
          rw [accounted.last, if_neg (by omega)]
          exact congrArg some (by omega)
        exact ⟨info, by rw [sameLast]; exact isInfo, stops⟩
      simp only [RunState.connected, isWaiting, Bool.false_eq_true, if_false]
      cases isLast : state.lastStarted.bind fun index => state.threadInfos[index]? with
      | none =>
          refine { accounted with decided := noneOpen_settled goesOn fun index isOpen => ?_ }
          obtain ⟨info, isInfo, _⟩ := openLast index isOpen
          rw [isLast] at isInfo
          cases isInfo
      | some info =>
          simp only
          split
          · rename_i stops
            obtain ⟨index, sameLast, isInfo⟩ := Option.bind_eq_some_iff.mp isLast
            refine { accounted with decided := ⟨rfl, goesOn, ?_, ?_⟩ }
            · exact fun index isOpen => (waits index isOpen).1
            · exact ⟨index, info, sameLast, isInfo, stops⟩
          · rename_i notStops
            refine { accounted with
              decided := noneOpen_settled goesOn fun index isOpen => ?_ }
            obtain ⟨other, isOther, stops⟩ := openLast index isOpen
            rw [isLast] at isOther
            cases isOther
            exact notStops stops

/-- The last started request stops the run exactly when it has returned data. -/
theorem settled_stopIfData {state : RunState F} {index : ℕ} {info : RequestInfo F}
    (accounted : state.Accounted) (noneRunning : state.runningThreads.entries = [])
    (goesOn : state.stop = false)
    (positions : ∀ index, state.Open index → index + 1 = state.nextToStart)
    (isLast : state.lastStarted = some index) (isInfo : state.threadInfos[index]? = some info)
    (stops : info.stopIfData = true) :
    ({ state with stop := hasData info.command.data || state.stop } : RunState F).Settled := by
  have notRunning : ∀ other, state.runningThreads.find? other = none := by
    intro other
    rw [SortedMap.find?, noneRunning]
    rfl
  have position : index + 1 = state.nextToStart := by
    have last := accounted.last
    rw [isLast] at last
    split at last
    · cases last
    · cases last
      omega
  obtain ⟨started, _, completed⟩ := accounted.infos index info isInfo
  have isStarted := started.mpr (by omega)
  have isCompleted := completed.mpr ⟨by omega, notRunning index⟩
  constructor
  · simp only [goesOn, Bool.or_false]
    constructor
    · intro found
      exact ⟨index, info, isInfo, stops, isStarted, fun _ => found⟩
    · rintro ⟨other, isOpen⟩
      obtain ⟨same⟩ : other = index := by
        have := positions other isOpen
        omega
      obtain ⟨other, isOther, _, _, found⟩ := isOpen
      rw [isInfo] at isOther
      cases isOther
      exact found isCompleted
  · intro other isOpen
    exact ⟨positions other isOpen, notRunning other⟩

theorem Scheduled.leave {state : RunState F} (scheduled : state.Scheduled)
    {waitForAtLeast n : ℕ} {behind : Behind}
    (here : state.location = .waitForCompleted waitForAtLeast n behind)
    (mayLeave : state.runningThreads.entries = [] ∨ waitForAtLeast ≠ 0) :
    (state.leave behind).Scheduled := by
  have accounted := scheduled.toAccounted
  have decided := scheduled.decided
  simp only [Decided, here] at decided
  cases behind with
  | toManyThreads => exact { accounted with decided := decided }
  | waitingForDbConnection =>
      exact { accounted with decided := noneOpen_settled decided.1 decided.2 }
  | stopIfData =>
      obtain ⟨isZero, goesOn, positions, index, info, isLast, isInfo, stops⟩ := decided
      have noneRunning := mayLeave.resolve_right fun notZero => notZero isZero
      have settled := settled_stopIfData accounted noneRunning goesOn positions isLast isInfo
        stops
      have isBound : (state.lastStarted.bind fun index => state.threadInfos[index]?) =
          some info := Option.bind_eq_some_iff.mpr ⟨index, isLast, isInfo⟩
      simp only [RunState.leave, isBound]
      exact { accounted with decided := settled }
  | allStarted =>
      obtain ⟨isZero, settled, ends⟩ := decided
      have noneRunning := mayLeave.resolve_right fun notZero => notZero isZero
      exact { accounted with decided := ⟨noneRunning, settled, ends⟩ }
  | failed what => exact { accounted with decided := trivial }

theorem Scheduled.complete {state : RunState F} (scheduled : state.Scheduled)
    {waitForAtLeast n : ℕ} {behind : Behind} {tid : ℕ} {rest : List ℕ}
    (here : state.location = .waitForCompleted waitForAtLeast n behind)
    (isQueue : state.readyQueue = tid :: rest) :
    ({ state with readyQueue := rest }.complete waitForAtLeast n behind tid).Scheduled := by
  have accounted : ({ state with readyQueue := rest } : RunState F).Accounted :=
    { scheduled.toAccounted with
      queue := fun other member =>
        scheduled.queue other (isQueue ▸ List.mem_cons_of_mem _ member) }
  refine { scheduled.toAccounted.complete isQueue waitForAtLeast n behind with decided := ?_ }
  have decided := scheduled.decided
  simp only [Decided, here] at decided
  have isOpen : ∀ index, ({ state with readyQueue := rest }.complete waitForAtLeast n behind
      tid).Open index → state.Open index := by
    intro index opened
    have before := open_complete opened
    exact before
  have settled : state.Settled → ({ state with readyQueue := rest }.complete waitForAtLeast n
      behind tid).Settled := fun before => Settled.complete accounted before
  have lastStops : state.LastStops → ({ state with readyQueue := rest }.complete waitForAtLeast
      n behind tid).LastStops := fun before => LastStops.complete before
  simp only [RunState.complete] at isOpen settled lastStops ⊢
  cases found : state.runningThreads.find? tid with
  | none =>
      simp only [found] at isOpen settled lastStops
      cases behind with
      | toManyThreads => exact decided
      | waitingForDbConnection => exact decided
      | stopIfData => exact decided
      | allStarted => exact decided
      | failed what => exact decided
  | some own =>
      simp only [found] at isOpen settled lastStops
      cases behind with
      | toManyThreads =>
          exact ⟨decided.1, fun index opened => decided.2 index (isOpen index opened)⟩
      | waitingForDbConnection =>
          exact ⟨decided.1, fun index opened => decided.2 index (isOpen index opened)⟩
      | stopIfData =>
          obtain ⟨isZero, goesOn, positions, before⟩ := decided
          exact ⟨isZero, goesOn, fun index opened => positions index (isOpen index opened),
            lastStops before⟩
      | allStarted =>
          obtain ⟨isZero, before, ends⟩ := decided
          refine ⟨isZero, settled before, fun less => ends ?_⟩
          simpa using less
      | failed what => exact decided

theorem Scheduled.waitForCompleted {state : RunState F} (scheduled : state.Scheduled)
    {waitForAtLeast n : ℕ} {behind : Behind}
    (here : state.location = .waitForCompleted waitForAtLeast n behind) :
    (state.waitForCompleted waitForAtLeast n behind).Scheduled := by
  simp only [RunState.waitForCompleted]
  split
  · rename_i noneRunning
    exact scheduled.leave here (Or.inl (List.isEmpty_iff.mp noneRunning))
  · cases isQueue : state.readyQueue with
    | nil =>
        simp only
        split
        · exact scheduled
        · rename_i waits
          exact scheduled.leave here (Or.inr fun isZero => waits (Or.inl isZero))
    | cons tid rest => exact scheduled.complete here isQueue

theorem Scheduled.proceed {state : RunState F} (scheduled : state.Scheduled)
    (environment : Environment) : (state.proceed environment).Scheduled := by
  have accounted := scheduled.toAccounted
  have decided := scheduled.decided
  simp only [RunState.proceed]
  cases here : state.location with
  | loop =>
      simp only [Decided, here] at decided
      simp only
      split
      · rename_i goesOn
        refine { accounted with decided := ⟨goesOn.2, fun index isOpen => ?_⟩ }
        exact Bool.noConfusion (goesOn.2.symm.trans (decided.1.mpr ⟨index, isOpen⟩))
      · rename_i ends
        refine { accounted with decided := ⟨rfl, decided, fun less => ?_⟩ }
        exact Bool.eq_true_of_not_eq_false fun goesOn => ends ⟨less, goesOn⟩
  | startThreads => exact scheduled.startThreads here environment
  | started =>
      simp only [Decided, here] at decided
      simp only
      split
      · exact { accounted with decided := decided }
      · exact { accounted with decided := decided }
  | connected => exact scheduled.connected here environment
  | waitForCompleted waitForAtLeast n behind => exact scheduled.waitForCompleted here
  | returned => exact scheduled
  | threw exception => exact scheduled

theorem Scheduled.step {state : RunState F} (scheduled : state.Scheduled) (event : Event F) :
    (state.step event).Scheduled := by
  cases event with
  | finish tid command => exact scheduled.finish tid command
  | proceed environment => exact scheduled.proceed environment

theorem scheduled_after (requests : List (Bool × Bool)) (nParalell : ℤ)
    (toManyThreads hasQueue : Bool) (events : List (Event F)) :
    (after requests nParalell toManyThreads hasQueue events).Scheduled := by
  have start : (initial requests nParalell toManyThreads hasQueue : RunState F).Scheduled :=
    scheduled_initial requests nParalell toManyThreads hasQueue
  unfold after
  generalize initial requests nParalell toManyThreads hasQueue = state at start
  induction events generalizing state with
  | nil => exact start
  | cons event rest ih => exact ih (state.step event) (start.step event)

/-! ## What a run leaves as it was -/

/-- The flags of the requests and the limit of the threads. -/
def settings (state : RunState F) : List (Bool × Bool) × ℤ :=
  (state.threadInfos.map fun info => (info.mustHaveData, info.stopIfData), state.nParalell)

theorem settings_modify (infos : List (RequestInfo F)) (index : ℕ)
    {change : RequestInfo F → RequestInfo F}
    (same : ∀ info, (change info).mustHaveData = info.mustHaveData ∧
      (change info).stopIfData = info.stopIfData) :
    ((infos.modify index change).map fun info => (info.mustHaveData, info.stopIfData)) =
      infos.map fun info => (info.mustHaveData, info.stopIfData) := by
  apply List.ext_getElem?
  intro other
  simp only [List.getElem?_map, List.getElem?_modify, Option.map_eq_map, Option.map_map]
  congr 1
  funext info
  simp only [Function.comp_apply]
  split
  · rw [(same info).1, (same info).2]
  · rfl

theorem settings_finish (state : RunState F) (tid : ℕ) (command : WdbDataRequestCommand F) :
    (state.finish tid command).settings = state.settings := by
  simp only [finish]
  cases state.queries.lookup tid with
  | none => rfl
  | some index => exact Prod.ext (settings_modify _ _ fun info => ⟨rfl, rfl⟩) rfl

theorem settings_startThreads (state : RunState F) (environment : Environment) :
    (state.startThreads environment).settings = state.settings := by
  simp only [startThreads]
  cases state.threadInfos[state.nextToStart]? with
  | none => rfl
  | some info =>
      simp only
      split
      · rfl
      · cases environment.connection with
        | maxUse => rfl
        | createFailed => rfl
        | exception what => rfl
        | unknown => rfl
        | connected =>
            simp only
            split
            · exact Prod.ext (settings_modify _ _ fun info => ⟨rfl, rfl⟩) rfl
            · rfl

/-- Two states with the same settings that have started the same requests. -/
def SameStarted (state other : RunState F) : Prop :=
  state.settings = other.settings ∧ state.nextToStart = other.nextToStart

theorem connected_sameStarted (state : RunState F) (environment : Environment) :
    (state.connected environment).SameStarted state := by
  simp only [connected]
  split
  · cases state.waitUntil with
    | none =>
        simp only
        split <;> exact ⟨rfl, rfl⟩
    | some waitUntil =>
        simp only
        split
        · exact ⟨rfl, rfl⟩
        · split <;> exact ⟨rfl, rfl⟩
  · cases state.lastStarted.bind fun index => state.threadInfos[index]? with
    | none => exact ⟨rfl, rfl⟩
    | some info =>
        simp only
        split <;> exact ⟨rfl, rfl⟩

theorem leave_sameStarted (state : RunState F) (behind : Behind) :
    (state.leave behind).SameStarted state := by
  cases behind with
  | toManyThreads => exact ⟨rfl, rfl⟩
  | waitingForDbConnection => exact ⟨rfl, rfl⟩
  | stopIfData =>
      simp only [leave]
      cases state.lastStarted.bind fun index => state.threadInfos[index]? <;>
        exact ⟨rfl, rfl⟩
  | allStarted => exact ⟨rfl, rfl⟩
  | failed what => exact ⟨rfl, rfl⟩

theorem waitForCompleted_sameStarted (state : RunState F) (waitForAtLeast n : ℕ)
    (behind : Behind) :
    (state.waitForCompleted waitForAtLeast n behind).SameStarted state := by
  simp only [waitForCompleted]
  split
  · exact leave_sameStarted state behind
  · cases state.readyQueue with
    | nil =>
        simp only
        split
        · exact ⟨rfl, rfl⟩
        · exact leave_sameStarted state behind
    | cons tid rest =>
        simp only [complete]
        cases state.runningThreads.find? tid with
        | none => exact ⟨rfl, rfl⟩
        | some index => exact ⟨Prod.ext (settings_modify _ _ fun info => ⟨rfl, rfl⟩) rfl, rfl⟩

/-- Only a round of the loop of `startThreads` starts a request. -/
theorem proceed_sameStarted {state : RunState F} (environment : Environment)
    (elsewhere : state.location ≠ .startThreads) :
    (state.proceed environment).SameStarted state := by
  simp only [proceed]
  cases here : state.location with
  | loop =>
      simp only
      split <;> exact ⟨rfl, rfl⟩
  | startThreads => exact absurd here elsewhere
  | started =>
      simp only
      split <;> exact ⟨rfl, rfl⟩
  | connected => exact connected_sameStarted state environment
  | waitForCompleted waitForAtLeast n behind =>
      exact waitForCompleted_sameStarted state waitForAtLeast n behind
  | returned => exact ⟨rfl, rfl⟩
  | threw exception => exact ⟨rfl, rfl⟩

theorem settings_step (state : RunState F) (event : Event F) :
    (state.step event).settings = state.settings := by
  cases event with
  | finish tid command => exact settings_finish state tid command
  | proceed environment =>
      by_cases here : state.location = .startThreads
      · simp only [step, proceed, here]
        exact settings_startThreads state environment
      · exact (proceed_sameStarted environment here).1

theorem settings_after (requests : List (Bool × Bool)) (nParalell : ℤ)
    (toManyThreads hasQueue : Bool) (events : List (Event F)) :
    (after requests nParalell toManyThreads hasQueue events).settings =
      (requests, nParalell) := by
  have start : (initial requests nParalell toManyThreads hasQueue : RunState F).settings =
      (requests, nParalell) := by
    simp [settings, initial, RequestInfo.new, Function.comp_def]
  unfold after
  generalize initial requests nParalell toManyThreads hasQueue = state at start
  induction events generalizing state with
  | nil => exact start
  | cons event rest ih => exact ih (state.step event) ((settings_step state event).trans start)

/-! ## The requests of a run -/

/-- A started request has returned data that stops the run. -/
def StopsWithData (state : RunState F) (index : ℕ) : Prop :=
  ∃ info, state.threadInfos[index]? = some info ∧ info.stopIfData = true ∧
    info.started = true ∧ hasData info.command.data = true

/-- No request is started while one that may stop the run is running. -/
theorem Scheduled.noStopRunning {state : RunState F} (scheduled : state.Scheduled)
    {environment : Environment}
    (starts : (state.proceed environment).nextToStart ≠ state.nextToStart) {tid index : ℕ}
    {info : RequestInfo F} (running : state.runningThreads.find? tid = some index)
    (isInfo : state.threadInfos[index]? = some info) : info.stopIfData = false := by
  have here : state.location = .startThreads := by
    by_contra elsewhere
    exact starts (proceed_sameStarted environment elsewhere).2
  have decided := scheduled.decided
  simp only [Decided, here] at decided
  obtain ⟨rfl, less⟩ := scheduled.running tid index running
  obtain ⟨started, _, completed⟩ := scheduled.infos index info isInfo
  rw [Bool.eq_false_iff]
  intro stops
  refine decided.2 index ⟨info, isInfo, stops, started.mpr less, fun isCompleted => ?_⟩
  rw [(completed.mp isCompleted).2] at running
  cases running

/-- When `runRequests` returns, the started requests are completed and joined. -/
theorem Scheduled.joined {state : RunState F} (scheduled : state.Scheduled)
    (here : state.location = .returned) {index : ℕ} {info : RequestInfo F}
    (isInfo : state.threadInfos[index]? = some info) (isStarted : info.started = true) :
    info.completed = true ∧ info.joined = true := by
  have decided := scheduled.decided
  simp only [Decided, here] at decided
  obtain ⟨started, joined, completed⟩ := scheduled.infos index info isInfo
  have isCompleted : info.completed = true := by
    refine completed.mpr ⟨started.mp isStarted, ?_⟩
    rw [SortedMap.find?, decided.1]
    rfl
  exact ⟨isCompleted, joined.trans isCompleted⟩

/-- When `runRequests` returns, it has left out requests exactly when one that is not the last
has returned data that stops the run. -/
theorem Scheduled.stopped_iff {state : RunState F} (scheduled : state.Scheduled)
    (here : state.location = .returned) :
    state.nextToStart < state.threadInfos.length ↔
      ∃ index, index + 1 < state.threadInfos.length ∧ state.StopsWithData index := by
  have decided := scheduled.decided
  simp only [Decided, here] at decided
  obtain ⟨_, ⟨isStop, positions⟩, ends⟩ := decided
  constructor
  · intro less
    obtain ⟨index, isOpen⟩ := isStop.mp (ends less)
    have isLast := (positions index isOpen).1
    obtain ⟨info, isInfo, stops, isStarted, found⟩ := isOpen
    have isCompleted := (scheduled.joined here isInfo isStarted).1
    exact ⟨index, isLast ▸ less, info, isInfo, stops, isStarted, found isCompleted⟩
  · rintro ⟨index, less, info, isInfo, stops, isStarted, found⟩
    have isLast := (positions index ⟨info, isInfo, stops, isStarted, fun _ => found⟩).1
    exact isLast ▸ less

/-- The schedule of `runRequests`, for every order in which the running queries finish. -/
theorem runRequests_schedule (requests : List (Bool × Bool)) (nParalell : ℤ)
    (toManyThreads hasQueue : Bool) (events : List (Event F)) :
    let state := after requests nParalell toManyThreads hasQueue events
    (state.threadInfos.map fun info => (info.mustHaveData, info.stopIfData)) = requests ∧
    (0 < nParalell → (state.runningThreads.size : ℤ) ≤ nParalell) ∧
    (∀ environment, (state.proceed environment).nextToStart ≠ state.nextToStart →
      ∀ tid index info, state.runningThreads.find? tid = some index →
        state.threadInfos[index]? = some info → info.stopIfData = false) ∧
    (state.location = .returned →
      (∀ index info, state.threadInfos[index]? = some info →
        (info.started = true ↔ index < state.nextToStart) ∧
          (info.started = true → info.completed = true ∧ info.joined = true)) ∧
      state.runningThreads.entries = [] ∧
      (state.nextToStart < requests.length ↔
        ∃ index, index + 1 < requests.length ∧ state.StopsWithData index)) := by
  intro state
  have scheduled : state.Scheduled :=
    scheduled_after requests nParalell toManyThreads hasQueue events
  have settings : state.settings = (requests, nParalell) :=
    settings_after requests nParalell toManyThreads hasQueue events
  have flags : (state.threadInfos.map fun info => (info.mustHaveData, info.stopIfData)) =
      requests := congrArg Prod.fst settings
  have limit : state.nParalell = nParalell := congrArg Prod.snd settings
  have length : state.threadInfos.length = requests.length := by
    rw [← flags, List.length_map]
  refine ⟨flags, ?_, ?_, ?_⟩
  · intro positive
    rw [← limit] at positive ⊢
    exact scheduled.bound positive
  · intro environment starts tid index info running isInfo
    exact scheduled.noStopRunning starts running isInfo
  · intro here
    refine ⟨fun index info isInfo => ⟨(scheduled.infos index info isInfo).1, ?_⟩, ?_, ?_⟩
    · exact fun isStarted => scheduled.joined here isInfo isStarted
    · have decided := scheduled.decided
      simp only [Decided, here] at decided
      exact decided.1
    · rw [← length]
      exact scheduled.stopped_iff here

/-- A connection for every request. -/
def connects : Environment := ⟨.connected, true, 0⟩

/-- A query that returns one temperature. -/
def oneTemperature : WdbDataRequestCommand ℚ where
  data :=
    (∅ : LocationPointData ℚ).insert ⟨600000000, 100000000⟩
      ((∅ : TimeSerie ℚ).updateCell (.ticks 3600000000, .ticks 3600000000, Bytes.str "wdb")
        fun data => data.set .TA 271)
  ok := true

/-- The events of a run with one request, that stops the run. -/
def oneRequest : List (Event ℚ) :=
  List.replicate 4 (.proceed connects) ++ .finish 0 oneTemperature ::
    List.replicate 4 (.proceed connects)

/-- The last request has returned data that stops the run, and no request is left out. -/
theorem not_stopped_iff_stopsWithData :
    ¬∀ (requests : List (Bool × Bool)) (nParalell : ℤ) (toManyThreads hasQueue : Bool)
        (events : List (Event ℚ)),
      let state := after requests nParalell toManyThreads hasQueue events
      state.location = .returned →
        (state.nextToStart < requests.length ↔ ∃ index, state.StopsWithData index) := by
  intro always
  have stopped := (always [(false, true)] 0 false true oneRequest (by decide +kernel)).mpr
    ⟨0, _, rfl, rfl, rfl, by decide +kernel⟩
  revert stopped
  decide +kernel

end RunState

end WdbDataRequestManager

end Wdb2ts
