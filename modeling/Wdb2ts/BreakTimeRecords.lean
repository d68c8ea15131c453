import Wdb2ts.BreakTimes

/-!
# Recording the break times

`updateBreakTimes` records the provider of every moment in the output.  It extends the break
times at its current position, and it opens new ones when another provider comes.  The position
is unset until then, so a first call without a provider uses an unset position.
-/

namespace Wdb2ts

namespace EncodeLocationForecast4

/-- The members of the encoder that `updateBreakTimes` uses. -/
structure BreakTimeState where
  breakTimes : BreakTimeList
  curItBreakTimes : LinkedList.Iterator
  breakTimeForecastProvider : Bytes
  prevBreakTime : PTime

/-- A call of `updateBreakTimes`. -/
structure BreakTimeCall where
  provider : Bytes
  time : PTime
  deriving DecidableEq

namespace BreakTimeState

/-- The members of a new encoder. -/
def new : BreakTimeState :=
  { breakTimes := LinkedList.ofList []
    curItBreakTimes := none
    breakTimeForecastProvider := []
    prevBreakTime := .notADateTime }

/-- The statement of `encodeMoment` that sets the position to the end. -/
def encodeMoment (state : BreakTimeState) : BreakTimeState :=
  { state with curItBreakTimes := none }

/-- The new break times in the branch of `updateBreakTimes` for another provider, and their
position. -/
def insertBreakTimes (state : BreakTimeState) (call : BreakTimeCall) :
    Except Fault (BreakTimeList × LinkedList.Iterator) := do
  let inserted := state.breakTimes.pushBack
    { provider := call.provider
      from_ := .notADateTime
      to_ := .notADateTime
      prevTo := .notADateTime }
  let breakTimes ← inserted.1.modify inserted.2 fun item => { item with from_ := call.time }
  if state.prevBreakTime.isSpecial then .ok (breakTimes, inserted.2)
  else do
    let breakTimes ← breakTimes.modify inserted.2
      fun item => { item with prevTo := state.prevBreakTime }
    .ok (breakTimes, inserted.2)

/-- The branch of `updateBreakTimes` for another provider. -/
def openBreakTimes (state : BreakTimeState) (call : BreakTimeCall) :
    Except Fault BreakTimeState := do
  let inserted ← state.insertBreakTimes call
  let breakTimes ←
    if state.curItBreakTimes ≠ none then
      inserted.1.modify state.curItBreakTimes fun item => { item with to_ := state.prevBreakTime }
    else .ok inserted.1
  .ok
    { state with
      breakTimes := breakTimes
      curItBreakTimes := inserted.2
      breakTimeForecastProvider := call.provider }

/-- `EncodeLocationForecast4::updateBreakTimes`. -/
def updateBreakTimes (state : BreakTimeState) (call : BreakTimeCall) :
    Except Fault BreakTimeState := do
  let state ←
    if state.breakTimeForecastProvider ≠ call.provider ∧ call.provider ≠ [] then
      state.openBreakTimes call
    else .ok state
  let breakTimes ← state.breakTimes.modify state.curItBreakTimes
    fun item => { item with to_ := call.time }
  .ok { state with breakTimes := breakTimes, prevBreakTime := call.time }

end BreakTimeState

open BreakTimeState

/-! ## What it is for -/

/-- The calls with the provider of the current run where they have none. -/
def fillProviders : Bytes → List BreakTimeCall → List BreakTimeCall
  | _, [] => []
  | current, call :: rest =>
      let provider := if call.provider = [] then current else call.provider
      ⟨provider, call.time⟩ :: fillProviders provider rest

/-- The maximal runs of calls with the same provider. -/
abbrev callRuns (calls : List BreakTimeCall) : List (List BreakTimeCall) :=
  AdjacentRuns.runs BreakTimeCall.provider (fillProviders [] calls)

/-- The interval goes from the first to the last call of a run. -/
structure Records (run : List BreakTimeCall) (interval : BreakTimes) : Prop where
  provider_eq : ∀ call ∈ run, call.provider = interval.provider
  from_eq : run.head?.map BreakTimeCall.time = some interval.from_
  to_eq : run.getLast?.map BreakTimeCall.time = some interval.to_

/-- The calls succeed, and every run of them is recorded behind the earlier break times. -/
def RecordsRuns (state : BreakTimeState) (calls : List BreakTimeCall) : Prop :=
  ∃ final recorded, calls.foldlM updateBreakTimes state.encodeMoment = .ok final ∧
    final.breakTimes.values = state.breakTimes.values ++ recorded ∧
      List.Forall₂ Records (callRuns calls) recorded

/-! ## One call -/

/-- The position is at the last break times, which are those of the run so far. -/
structure InRun (before : Nodes) (run : List BreakTimeCall) (state : BreakTimeState) : Prop where
  nonempty : run ≠ []
  current : ∃ address interval, state.breakTimes.nodes = before ++ [(address, interval)] ∧
    state.curItBreakTimes = some address ∧ Records run interval ∧
      interval.provider = state.breakTimeForecastProvider ∧
        interval.to_ = state.prevBreakTime

theorem InRun.extend {before : Nodes} {run : List BreakTimeCall} {state : BreakTimeState}
    (inRun : InRun before run state) {call : BreakTimeCall}
    (same : ¬(state.breakTimeForecastProvider ≠ call.provider ∧ call.provider ≠ [])) :
    ∃ next, state.updateBreakTimes call = .ok next ∧
      InRun before (run ++ [⟨state.breakTimeForecastProvider, call.time⟩]) next ∧
        next.breakTimeForecastProvider = state.breakTimeForecastProvider := by
  obtain ⟨address, interval, nodes, position, records, isProvider, isTo⟩ := inRun.current
  obtain ⟨changed, isChanged, changedNodes⟩ := LinkedList.modify_eq nodes
    fun item => { item with to_ := call.time }
  refine ⟨{ state with breakTimes := changed, prevBreakTime := call.time }, ?_, ?_, rfl⟩
  · rw [updateBreakTimes, if_neg same]
    simp only [bind, Except.bind, position, isChanged]
  · constructor
    · simp
    · refine ⟨address, { interval with to_ := call.time }, changedNodes, position, ?_, isProvider,
        rfl⟩
      constructor
      · intro other member
        rcases List.mem_append.mp member with earlier | isLast
        · exact records.provider_eq other earlier
        · rw [List.mem_singleton.mp isLast]
          exact isProvider.symm
      · rw [List.head?_append_of_ne_nil _ inRun.nonempty]
        exact records.from_eq
      · rw [List.getLast?_concat]
        rfl

theorem insertBreakTimes_eq (state : BreakTimeState) (call : BreakTimeCall) :
    ∃ list interval, state.insertBreakTimes call = .ok (list, some state.breakTimes.fresh) ∧
      list.nodes = state.breakTimes.nodes ++ [(state.breakTimes.fresh, interval)] ∧
        interval.provider = call.provider ∧ interval.from_ = call.time := by
  obtain ⟨started, isStarted, startedNodes⟩ := LinkedList.modify_eq
    (LinkedList.nodes_pushBack state.breakTimes
      { provider := call.provider
        from_ := .notADateTime
        to_ := .notADateTime
        prevTo := .notADateTime }) fun item => { item with from_ := call.time }
  have position (item : BreakTimes) :
      (state.breakTimes.pushBack item).2 = some state.breakTimes.fresh := rfl
  simp only [insertBreakTimes, position, bind, Except.bind, isStarted]
  split
  · exact ⟨started, _, rfl, startedNodes, rfl, rfl⟩
  · obtain ⟨linked, isLinked, linkedNodes⟩ := LinkedList.modify_eq startedNodes
      fun item => { item with prevTo := state.prevBreakTime }
    rw [isLinked]
    exact ⟨linked, _, rfl, linkedNodes, rfl, rfl⟩

/-- A call that opens no break times needs a position. -/
theorem updateBreakTimes_unset {state : BreakTimeState} (unset : state.curItBreakTimes = none)
    {call : BreakTimeCall}
    (same : ¬(state.breakTimeForecastProvider ≠ call.provider ∧ call.provider ≠ [])) :
    state.updateBreakTimes call = .error .iterator := by
  have noNode : state.breakTimes.denotes none = false := by
    simp [LinkedList.denotes]
  rw [updateBreakTimes, if_neg same]
  simp only [bind, Except.bind, unset, LinkedList.modify, noNode]
  rfl

/-- The end of a call that has opened break times. -/
theorem inRun_of_opened {state opened : BreakTimeState} {call : BreakTimeCall}
    (other : state.breakTimeForecastProvider ≠ call.provider ∧ call.provider ≠ [])
    (isOpened : state.openBreakTimes call = .ok opened) {before : Nodes} {address : ℕ}
    {interval : BreakTimes} (nodes : opened.breakTimes.nodes = before ++ [(address, interval)])
    (position : opened.curItBreakTimes = some address)
    (isProvider : opened.breakTimeForecastProvider = call.provider)
    (provider_eq : interval.provider = call.provider) (from_eq : interval.from_ = call.time) :
    ∃ next, state.updateBreakTimes call = .ok next ∧ InRun before [call] next ∧
      next.breakTimeForecastProvider = call.provider := by
  obtain ⟨changed, isChanged, changedNodes⟩ := LinkedList.modify_eq nodes
    fun item => { item with to_ := call.time }
  refine ⟨{ opened with breakTimes := changed, prevBreakTime := call.time }, ?_, ?_, isProvider⟩
  · rw [updateBreakTimes, if_pos other, isOpened]
    simp only [bind, Except.bind, position, isChanged]
  · constructor
    · exact List.cons_ne_nil _ _
    · refine ⟨address, { interval with to_ := call.time }, changedNodes, position, ?_,
        provider_eq.trans isProvider.symm, rfl⟩
      constructor
      · intro other member
        rw [List.mem_singleton.mp member]
        exact provider_eq.symm
      · exact congrArg some from_eq.symm
      · rfl

/-- The first call with a provider opens the first break times. -/
theorem updateBreakTimes_first {state : BreakTimeState} (unset : state.curItBreakTimes = none)
    {call : BreakTimeCall}
    (other : state.breakTimeForecastProvider ≠ call.provider ∧ call.provider ≠ []) :
    ∃ next, state.updateBreakTimes call = .ok next ∧
      InRun state.breakTimes.nodes [call] next ∧
        next.breakTimeForecastProvider = call.provider := by
  obtain ⟨list, interval, isInserted, nodes, provider_eq, from_eq⟩ :=
    insertBreakTimes_eq state call
  have isOpened : state.openBreakTimes call = .ok
      { state with
        breakTimes := list
        curItBreakTimes := some state.breakTimes.fresh
        breakTimeForecastProvider := call.provider } := by
    simp only [openBreakTimes, bind, Except.bind, isInserted, unset, ne_eq, not_true_eq_false,
      if_false]
  exact inRun_of_opened other isOpened nodes rfl rfl provider_eq from_eq

/-- A call with another provider closes the run and opens the next one. -/
theorem InRun.change {before : Nodes} {run : List BreakTimeCall} {state : BreakTimeState}
    (inRun : InRun before run state) {call : BreakTimeCall}
    (other : state.breakTimeForecastProvider ≠ call.provider ∧ call.provider ≠ []) :
    ∃ next node, state.updateBreakTimes call = .ok next ∧
      InRun (before ++ [node]) [call] next ∧ next.breakTimeForecastProvider = call.provider ∧
        Records run node.2 := by
  obtain ⟨address, closed, oldNodes, position, records, isProvider, isTo⟩ := inRun.current
  obtain ⟨list, interval, isInserted, nodes, provider_eq, from_eq⟩ :=
    insertBreakTimes_eq state call
  have oldSplit : list.nodes =
      before ++ (address, closed) :: [(state.breakTimes.fresh, interval)] := by
    rw [nodes, oldNodes, List.append_assoc]
    rfl
  obtain ⟨ended, isEnded, endedNodes⟩ := LinkedList.modify_eq oldSplit
    fun item => { item with to_ := state.prevBreakTime }
  have isOpened : state.openBreakTimes call = .ok
      { state with
        breakTimes := ended
        curItBreakTimes := some state.breakTimes.fresh
        breakTimeForecastProvider := call.provider } := by
    have isSet : (some address : LinkedList.Iterator) ≠ none := Option.some_ne_none address
    simp only [openBreakTimes, bind, Except.bind, isInserted, position, if_pos isSet, isEnded]
  have newNodes : ended.nodes =
      (before ++ [(address, { closed with to_ := state.prevBreakTime })]) ++
        [(state.breakTimes.fresh, interval)] := by
    rw [endedNodes, List.append_assoc]
    rfl
  obtain ⟨next, isNext, inNext, nextProvider⟩ :=
    inRun_of_opened other isOpened newNodes rfl rfl provider_eq from_eq
  refine ⟨next, _, isNext, inNext, nextProvider, ?_⟩
  constructor
  · exact records.provider_eq
  · exact records.from_eq
  · rw [records.to_eq, isTo]

/-! ## All calls -/

theorem InRun.isRun {before : Nodes} {run : List BreakTimeCall} {state : BreakTimeState}
    (inRun : InRun before run state) :
    AdjacentRuns.IsRun BreakTimeCall.provider state.breakTimeForecastProvider run := by
  obtain ⟨address, interval, nodes, position, records, isProvider, isTo⟩ := inRun.current
  constructor
  · exact inRun.nonempty
  · intro call member
    rw [records.provider_eq call member, isProvider]

/-- From within a run on, every run of the calls is recorded. -/
theorem InRun.records {before : Nodes} {run : List BreakTimeCall} {state : BreakTimeState}
    (inRun : InRun before run state) (calls : List BreakTimeCall) :
    ∃ final recorded, calls.foldlM updateBreakTimes state = .ok final ∧
      final.breakTimes.values = valuesOf before ++ recorded ∧
        List.Forall₂ Records (AdjacentRuns.runs BreakTimeCall.provider
          (run ++ fillProviders state.breakTimeForecastProvider calls)) recorded := by
  induction calls generalizing before run state with
  | nil =>
      obtain ⟨address, interval, nodes, position, records, isProvider, isTo⟩ := inRun.current
      refine ⟨state, [interval], rfl, ?_, ?_⟩
      · rw [LinkedList.values, nodes, List.map_append]
        rfl
      · rw [fillProviders, List.append_nil, inRun.isRun.runs_eq]
        exact List.Forall₂.cons records List.Forall₂.nil
  | cons call rest ih =>
      by_cases other : state.breakTimeForecastProvider ≠ call.provider ∧ call.provider ≠ []
      · obtain ⟨next, node, isNext, inNext, nextProvider, recordsRun⟩ := inRun.change other
        obtain ⟨final, recorded, isFinal, values, recordsRest⟩ := ih inNext
        refine ⟨final, node.2 :: recorded, ?_, ?_, ?_⟩
        · rw [List.foldlM_cons, isNext]
          exact isFinal
        · rw [values, valuesOf_append, List.append_assoc]
          rfl
        · have filled : fillProviders state.breakTimeForecastProvider (call :: rest) =
              call :: fillProviders call.provider rest := by
            simp only [fillProviders, if_neg other.2]
          rw [nextProvider] at recordsRest
          rw [filled, inRun.isRun.runs_append other.1.symm]
          exact List.Forall₂.cons recordsRun recordsRest
      · obtain ⟨next, isNext, inNext, nextProvider⟩ := inRun.extend other
        obtain ⟨final, recorded, isFinal, values, recordsRest⟩ := ih inNext
        refine ⟨final, recorded, ?_, values, ?_⟩
        · rw [List.foldlM_cons, isNext]
          exact isFinal
        · have filled : fillProviders state.breakTimeForecastProvider (call :: rest) =
              ⟨state.breakTimeForecastProvider, call.time⟩ ::
                fillProviders state.breakTimeForecastProvider rest := by
            have provider : (if call.provider = [] then state.breakTimeForecastProvider
                else call.provider) = state.breakTimeForecastProvider := by
              split
              · rfl
              · rename_i given
                by_contra different
                exact other ⟨Ne.symm different, given⟩
            simp only [fillProviders, provider]
          rw [nextProvider, List.append_assoc] at recordsRest
          rw [filled]
          exact recordsRest

/-- The calls are recorded by their runs exactly if the first one has a provider, and another
one than the encoder had before. -/
theorem recordsRuns_iff (state : BreakTimeState) (calls : List BreakTimeCall) :
    RecordsRuns state calls ↔
      ∀ call ∈ calls.head?,
        state.breakTimeForecastProvider ≠ call.provider ∧ call.provider ≠ [] := by
  cases calls with
  | nil =>
      constructor
      · intro _ call member
        cases member
      · intro _
        refine ⟨state.encodeMoment, [], rfl, ?_, List.Forall₂.nil⟩
        rw [List.append_nil]
        rfl
  | cons call rest =>
      constructor
      · rintro ⟨final, recorded, isFinal, _, _⟩ first isFirst
        cases isFirst
        by_contra same
        have unset : state.encodeMoment.curItBreakTimes = none := rfl
        rw [List.foldlM_cons, updateBreakTimes_unset unset same] at isFinal
        cases isFinal
      · intro first
        have other := first call rfl
        have unset : state.encodeMoment.curItBreakTimes = none := rfl
        obtain ⟨next, isNext, inNext, nextProvider⟩ := updateBreakTimes_first unset other
        obtain ⟨final, recorded, isFinal, values, recordsRest⟩ := inNext.records rest
        refine ⟨final, recorded, ?_, values, ?_⟩
        · rw [List.foldlM_cons, isNext]
          exact isFinal
        · have filled : fillProviders [] (call :: rest) =
              call :: fillProviders call.provider rest := by
            simp only [fillProviders, if_neg other.2]
          rw [callRuns, filled]
          rw [nextProvider] at recordsRest
          exact recordsRest

/-- The first call of a new encoder has no provider. -/
theorem not_recordsRuns_noProvider : ¬RecordsRuns new [⟨[], .ticks 0⟩] := by
  rintro ⟨final, recorded, isFinal, _, _⟩
  have fails : [(⟨[], .ticks 0⟩ : BreakTimeCall)].foldlM updateBreakTimes new.encodeMoment =
      .error .iterator := by rfl
  rw [fails] at isFinal
  cases isFinal

end EncodeLocationForecast4

end Wdb2ts
