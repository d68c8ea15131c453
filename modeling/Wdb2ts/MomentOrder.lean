import Wdb2ts.EncodeMoment
import Wdb2ts.DecodePData

/-!
# The order of the moment elements

The loop of `encodeMoment` ends, because it goes back at most ten times.  As long as no
provider change lies before the start of the output, it writes the times in ascending order.
-/

namespace Wdb2ts

namespace EncodeLocationForecast4

variable {F : Type}

/-- The times of the output ascend strictly and none is before the start time. -/
structure Ascending (fromTime : PTime) (written : List PTime) : Prop where
  sorted : written.Pairwise (· < ·)
  notBefore : ∀ time ∈ written, fromTime ≤ time

theorem Ascending.concat {fromTime last : PTime} {written : List PTime}
    (ascending : Ascending fromTime written) (notBefore : fromTime ≤ last)
    (after : ∀ time ∈ written, time < last) : Ascending fromTime (written ++ [last]) := by
  constructor
  · rw [List.pairwise_append]
    refine ⟨ascending.sorted, List.pairwise_singleton _ _, ?_⟩
    intro time member other isLast
    rw [List.mem_singleton.mp isLast]
    exact after time member
  · intro time member
    rcases List.mem_append.mp member with earlier | isLast
    · exact ascending.notBefore time earlier
    · rw [List.mem_singleton.mp isLast]
      exact notBefore

namespace MomentState

/-! ## One round -/

/-- The data of a state walks through the given entries. -/
structure WalksThrough (entries : List (PTime × FromTimeSerie F)) (state : MomentState F) :
    Prop where
  timeSerie : state.locationData.timeSerie = entries
  inRange : state.locationData.InRange

theorem flush_written (state : MomentState F) :
    state.flush.written =
      if state.currentFrom ≤ state.currentTime ∧ state.hasMomentData = true then
        state.written ++ [state.currentTime]
      else state.written := by
  simp only [flush]
  split
  · rfl
  · rfl

@[simp] theorem advance_written (state : MomentState F) :
    state.advance.written = state.flush.written := rfl

@[simp] theorem advance_locationData (state : MomentState F) :
    state.advance.locationData = state.locationData.next := rfl

@[simp] theorem advance_hasMomentData (state : MomentState F) :
    state.advance.hasMomentData = false := rfl

@[simp] theorem advance_currentFrom (state : MomentState F) :
    state.advance.currentFrom = state.currentFrom := by
  simp only [advance, flush]
  split
  · rfl
  · rfl

@[simp] theorem advance_countProviderChange (state : MomentState F) :
    state.advance.countProviderChange = state.countProviderChange := by
  simp only [advance, flush]
  split
  · rfl
  · rfl

/-- What a round can do. -/
theorem round_cases (moment : LocationElem F → Option Bytes) (maxHours : ℤ)
    (state : MomentState F) :
    (moment state.nextLocation = none ∧ state.round moment maxHours = state.advance) ∨
      (∃ provider, moment state.nextLocation = some provider ∧
        state.isProviderChange provider = true ∧
        state.round moment maxHours = state.advance.changeProvider maxHours provider) ∨
      ∃ provider, state.round moment maxHours =
        { state.advance with prevForecastprovider := provider, hasMomentData := true } := by
  simp only [round]
  cases moment state.nextLocation with
  | none => exact Or.inl ⟨rfl, rfl⟩
  | some provider =>
      right
      cases isChange : state.isProviderChange provider with
      | true =>
          left
          exact ⟨provider, rfl, isChange, by simp [isChange]⟩
      | false =>
          right
          cases state.prevForecastprovider.isEmpty with
          | true => exact ⟨provider, by simp [isChange]⟩
          | false => exact ⟨state.advance.prevForecastprovider, by simp [isChange]⟩

theorem countProviderChange_lt {state : MomentState F} {provider : Bytes}
    (isChange : state.isProviderChange provider = true) : state.countProviderChange < 10 := by
  simp only [isProviderChange, Bool.and_eq_true, decide_eq_true_eq] at isChange
  exact isChange.2

theorem WalksThrough.advance {entries : List (PTime × FromTimeSerie F)} {state : MomentState F}
    (walks : WalksThrough entries state) (more : state.hasNext = true) :
    WalksThrough entries state.advance := by
  constructor
  · rw [advance_locationData, LocationData.timeSerie_next]
    exact walks.timeSerie
  · exact walks.inRange.next more

theorem WalksThrough.changeProvider {entries : List (PTime × FromTimeSerie F)}
    {state : MomentState F} (walks : WalksThrough entries state) (maxHours : ℤ)
    (provider : Bytes) : WalksThrough entries (state.changeProvider maxHours provider) := by
  constructor
  · exact (LocationData.timeSerie_init _ _ _ _).trans walks.timeSerie
  · exact walks.inRange.init _ _ _

theorem WalksThrough.round {entries : List (PTime × FromTimeSerie F)} {state : MomentState F}
    (walks : WalksThrough entries state) (more : state.hasNext = true)
    (moment : LocationElem F → Option Bytes) (maxHours : ℤ) :
    WalksThrough entries (state.round moment maxHours) := by
  have advanced := walks.advance more
  rcases round_cases moment maxHours state with ⟨_, equal⟩ | ⟨provider, _, _, equal⟩ |
    ⟨provider, equal⟩
  · rw [equal]
    exact advanced
  · rw [equal]
    exact advanced.changeProvider maxHours provider
  · rw [equal]
    exact ⟨advanced.timeSerie, advanced.inRange⟩

/-! ## The loop ends -/

/-- A bound on the rounds to come: each of the remaining changes can go through the whole
series. -/
def roundsLeft (length : ℕ) (state : MomentState F) : ℕ :=
  (10 - state.countProviderChange) * (length + 1) + state.locationData.remaining.length

theorem roundsLeft_round {entries : List (PTime × FromTimeSerie F)} {state : MomentState F}
    (walks : WalksThrough entries state) (more : state.hasNext = true)
    (moment : LocationElem F → Option Bytes) (maxHours : ℤ) :
    roundsLeft entries.length (state.round moment maxHours) < roundsLeft entries.length state := by
  rcases walks.inRange.remaining_eq more with ⟨entry, remaining, _⟩
  have fewer : state.locationData.next.remaining.length <
      state.locationData.remaining.length := by
    rw [remaining]
    exact Nat.lt_succ_self _
  rcases round_cases moment maxHours state with ⟨_, equal⟩ | ⟨provider, _, isChange, equal⟩ |
    ⟨provider, equal⟩
  · rw [equal]
    simp only [roundsLeft, advance_countProviderChange, advance_locationData]
    omega
  · have restarted := (walks.advance more).changeProvider maxHours provider
    have bounded := LocationData.length_remaining_le
      (state.advance.changeProvider maxHours provider).locationData
    have few := countProviderChange_lt isChange
    rw [restarted.timeSerie] at bounded
    rw [equal]
    have oneLess : 10 - state.countProviderChange =
        (10 - (state.countProviderChange + 1)) + 1 := by omega
    simp only [roundsLeft]
    rw [oneLess, Nat.add_one_mul]
    simp only [changeProvider, advance_countProviderChange] at bounded ⊢
    omega
  · rw [equal]
    simp only [roundsLeft, advance_countProviderChange, advance_locationData]
    omega

end MomentState

open MomentState

theorem walksThrough_startMoment {data : LocationData F} (inRange : data.InRange)
    (fromTime dataFrom : PTime) :
    WalksThrough data.timeSerie (startMoment data fromTime dataFrom) := by
  constructor
  · apply LocationData.timeSerie_init
  · exact inRange.init dataFrom [] 0

/-- The loop of `encodeMoment` ends at a reached state without a next element. -/
theorem run_startMoment {data : LocationData F} (inRange : data.InRange)
    (moment : LocationElem F → Option Bytes) (maxHours : ℤ) (fromTime dataFrom : PTime) :
    ∃ final, WhileLoop.run hasNext (round moment maxHours) (momentFuel data.timeSerie.length)
        (startMoment data fromTime dataFrom) = some final ∧
      WhileLoop.Reached hasNext (round moment maxHours) (startMoment data fromTime dataFrom)
        final ∧ final.hasNext = false := by
  have start := walksThrough_startMoment inRange fromTime dataFrom
  apply WhileLoop.run_of_measure (roundsLeft data.timeSerie.length)
  · intro state reached more
    have walks : WalksThrough data.timeSerie state :=
      reached.invariant _ start fun state _ more walks => walks.round more moment maxHours
    exact roundsLeft_round walks more moment maxHours
  · exact WhileLoop.Reached.start
  · have bounded := LocationData.length_remaining_le
      (startMoment data fromTime dataFrom).locationData
    rw [start.timeSerie] at bounded
    simp only [roundsLeft, momentFuel, startMoment] at bounded ⊢
    omega

/-! ## The invariant of the output -/

namespace MomentState

/-- At the test of the loop the output ascends, and what is still to be written comes after
it. -/
structure InOrder (fromTime : PTime) (state : MomentState F) : Prop where
  written : Ascending fromTime state.written
  fromTime_le : fromTime ≤ state.currentFrom
  pending : state.hasMomentData = true → state.currentFrom ≤ state.currentTime →
    ∀ time ∈ state.written, time < state.currentTime
  ahead : ∀ time ∈ state.written, ∀ entry ∈ state.locationData.remaining,
    state.currentFrom ≤ entry.1 → time < entry.1
  pendingAhead : state.hasMomentData = true →
    ∀ entry ∈ state.locationData.remaining, state.currentTime < entry.1

theorem InOrder.flush_written {fromTime : PTime} {state : MomentState F}
    (inOrder : InOrder fromTime state) : Ascending fromTime state.flush.written := by
  rw [MomentState.flush_written]
  split
  · rename_i writes
    apply inOrder.written.concat
    · exact le_trans inOrder.fromTime_le writes.1
    · exact inOrder.pending writes.2 writes.1
  · exact inOrder.written

theorem InOrder.flush_ahead {fromTime : PTime} {state : MomentState F}
    (inOrder : InOrder fromTime state) :
    ∀ time ∈ state.flush.written, ∀ entry ∈ state.locationData.remaining,
      state.currentFrom ≤ entry.1 → time < entry.1 := by
  intro time member entry remains notBefore
  rw [MomentState.flush_written] at member
  split at member
  · rename_i writes
    rcases List.mem_append.mp member with earlier | isLast
    · exact inOrder.ahead time earlier entry remains notBefore
    · rw [List.mem_singleton.mp isLast]
      exact inOrder.pendingAhead writes.2 entry remains
  · exact inOrder.ahead time member entry remains notBefore

/-- Fetching an element keeps the order, and the element comes between what is written and
what remains. -/
theorem InOrder.advance {fromTime : PTime} {state : MomentState F}
    (inOrder : InOrder fromTime state) {entry : PTime × FromTimeSerie F}
    (remaining : state.locationData.remaining =
      entry :: state.advance.locationData.remaining)
    (isTime : state.advance.currentTime = entry.1)
    (sorted : state.locationData.remaining.Pairwise fun earlier later => earlier.1 < later.1) :
    InOrder fromTime state.advance ∧
      (∀ time ∈ state.advance.written, state.currentFrom ≤ state.advance.currentTime →
        time < state.advance.currentTime) ∧
      ∀ later ∈ state.advance.locationData.remaining,
        state.advance.currentTime < later.1 := by
  have ahead := inOrder.flush_ahead
  rw [remaining] at ahead sorted
  refine ⟨?_, ?_, ?_⟩
  · constructor
    · exact inOrder.flush_written
    · rw [advance_currentFrom]
      exact inOrder.fromTime_le
    · intro isPending
      rw [advance_hasMomentData] at isPending
      contradiction
    · intro time member later remains notBefore
      rw [advance_currentFrom] at notBefore
      exact ahead time member later (List.mem_cons_of_mem entry remains) notBefore
    · intro isPending
      rw [advance_hasMomentData] at isPending
      contradiction
  · intro time member notBefore
    rw [isTime] at notBefore ⊢
    exact ahead time member entry List.mem_cons_self notBefore
  · intro later remains
    rw [isTime]
    exact (List.pairwise_cons.mp sorted).1 later remains

/-- If the next round changes the provider, the time of the change is not before the current
start of the output. -/
def goesForward (moment : LocationElem F → Option Bytes) (state : MomentState F) : Bool :=
  match moment state.nextLocation with
  | none => true
  | some provider =>
      !state.isProviderChange provider || decide (state.currentFrom ≤ state.nextLocation.time)

theorem currentFrom_le_of_goesForward {moment : LocationElem F → Option Bytes}
    {state : MomentState F} (forward : state.goesForward moment = true) {provider : Bytes}
    (isMoment : moment state.nextLocation = some provider)
    (isChange : state.isProviderChange provider = true) :
    state.currentFrom ≤ state.nextLocation.time := by
  simpa [goesForward, isMoment, isChange] using forward

/-- A round keeps the order, unless it goes back to a provider change before the output. -/
theorem InOrder.round {fromTime : PTime} {state : MomentState F}
    {entries : List (PTime × FromTimeSerie F)}
    (inOrder : InOrder fromTime state) (walks : WalksThrough entries state)
    (sorted : entries.Pairwise fun earlier later => earlier.1 < later.1)
    (more : state.hasNext = true) (moment : LocationElem F → Option Bytes) (maxHours : ℤ)
    (forward : state.goesForward moment = true) :
    InOrder fromTime (state.round moment maxHours) := by
  rcases walks.inRange.remaining_eq more with ⟨entry, remaining, isTime⟩
  have sortedRemaining : state.locationData.remaining.Pairwise
      fun earlier later => earlier.1 < later.1 := by
    apply List.Pairwise.drop
    rw [walks.timeSerie]
    exact sorted
  rcases inOrder.advance remaining isTime sortedRemaining with
    ⟨advanced, between, afterwards⟩
  rcases round_cases moment maxHours state with ⟨_, equal⟩ |
    ⟨provider, isMoment, isChange, equal⟩ | ⟨provider, equal⟩
  · rw [equal]
    exact advanced
  · have notBefore := currentFrom_le_of_goesForward forward isMoment isChange
    rw [equal]
    constructor
    · exact advanced.written
    · exact le_trans inOrder.fromTime_le notBefore
    · intro isPending
      have notPending : (state.advance.changeProvider maxHours provider).hasMomentData = false :=
        rfl
      rw [notPending] at isPending
      contradiction
    · intro time member later _ afterChange
      exact lt_of_lt_of_le (between time member notBefore) afterChange
    · intro isPending
      have notPending : (state.advance.changeProvider maxHours provider).hasMomentData = false :=
        rfl
      rw [notPending] at isPending
      contradiction
  · rw [equal]
    constructor
    · exact advanced.written
    · exact advanced.fromTime_le
    · intro _ notBefore time member
      rw [show ({ state.advance with prevForecastprovider := provider, hasMomentData := true } :
        MomentState F).currentFrom = state.currentFrom from advance_currentFrom state] at notBefore
      exact between time member notBefore
    · exact advanced.ahead
    · intro _
      exact afterwards

end MomentState

theorem inOrder_startMoment (data : LocationData F) (fromTime dataFrom : PTime) :
    InOrder fromTime (startMoment data fromTime dataFrom) := by
  constructor
  · exact ⟨List.Pairwise.nil, fun time member => absurd member List.not_mem_nil⟩
  · exact le_refl fromTime
  · intro isPending
    cases isPending
  · intro time member
    cases member
  · intro isPending
    cases isPending

/-- Every provider change of the run goes forward. -/
def ChangesForward (moment : LocationElem F → Option Bytes) (maxHours : ℤ)
    (data : LocationData F) (fromTime : PTime) : Prop :=
  (data.init (fromTime.sub (PTime.hours maxHours)) [] 0).1 = true →
    ∀ state, WhileLoop.Reached hasNext (round moment maxHours)
        (startMoment data fromTime (fromTime.sub (PTime.hours maxHours))) state →
      state.hasNext = true → state.goesForward moment = true

theorem encodeMoment_ascending {data : LocationData F} (inRange : data.InRange)
    (sorted : data.timeSerie.Pairwise fun earlier later => earlier.1 < later.1)
    (moment : LocationElem F → Option Bytes) (maxHours : ℤ) (fromTime : PTime)
    (forward : ChangesForward moment maxHours data fromTime) :
    ∃ written, encodeMoment moment maxHours data fromTime = some written ∧
      Ascending fromTime written := by
  rcases run_startMoment inRange moment maxHours fromTime
    (fromTime.sub (PTime.hours maxHours)) with ⟨final, ends, reached, _⟩
  cases found : (data.init (fromTime.sub (PTime.hours maxHours)) [] 0).1 with
  | false =>
      refine ⟨[], ?_, ⟨List.Pairwise.nil, ?_⟩⟩
      · simp [encodeMoment, found]
      · intro time member
        cases member
  | true =>
      have holds : WalksThrough data.timeSerie final ∧ InOrder fromTime final := by
        refine reached.invariant (fun state => WalksThrough data.timeSerie state ∧
          InOrder fromTime state) ?_ ?_
        · exact ⟨walksThrough_startMoment inRange _ _, inOrder_startMoment _ _ _⟩
        · intro state before more holds
          constructor
          · exact holds.1.round more moment maxHours
          · exact holds.2.round holds.1 sorted more moment maxHours
              (forward found state before more)
      refine ⟨final.flush.written, ?_, holds.2.flush_written⟩
      simp [encodeMoment, found, ends]

section Create

variable [FloatLimits F] [DecidableEq F]

/-- A new `LocationData` whose changes all go forward is encoded in ascending order, with no
time before the start time. -/
theorem encodeMoment_create_ascending (timeSerie : TimeSerie F) (longitude latitude : F)
    (hight : ℤ) (providerPriority : ProviderList) (modelTopoProviders : TopoProviderMap)
    (topographyProviders : List Bytes) (outputParams : SortedMap Bytes Bool) (thunder : Bool)
    (moment : LocationElem F → Option Bytes) (maxHours : ℤ) (fromTime : PTime)
    (forward : ChangesForward moment maxHours
      (LocationData.create timeSerie longitude latitude hight providerPriority
        modelTopoProviders topographyProviders outputParams thunder) fromTime) :
    ∃ written, encodeMoment moment maxHours
        (LocationData.create timeSerie longitude latitude hight providerPriority
          modelTopoProviders topographyProviders outputParams thunder) fromTime =
      some written ∧ Ascending fromTime written := by
  apply encodeMoment_ascending
  · exact Nat.zero_le _
  · apply LocationData.sorted_create
  · exact forward

end Create

/-! ### A change within the look-back -/

section ChangeWithinLookBack

/-- A whole hour. -/
def hour (count : ℤ) : PTime := .ticks (PTime.hours count)

/-- The temperatures of two providers for five hours. -/
def twoProviders : TimeSerie ℚ :=
  DecodePData.storeRows
    ([10, 11, 12, 13, 14].flatMap fun count =>
      [⟨"T.2M", Bytes.str "arome", hour count, hour count, some 280⟩,
       ⟨"T.2M", Bytes.str "ecmwf", hour count, hour count, some 281⟩])

/-- The first provider of the priority list has moments before the given time. -/
def firstProviderBefore (time : PTime) (location : LocationElem ℚ) : Option Bytes :=
  if location.itProviderPriorityBegin = 0 ∧ location.time < time then
    some (Bytes.str "arome")
  else some (Bytes.str "ecmwf")

/-- The data of the two providers. -/
def twoProvidersData : LocationData ℚ :=
  LocationData.create twoProviders 10 60 INT_MIN
    [⟨Bytes.str "arome", []⟩, ⟨Bytes.str "ecmwf", []⟩] ∅ [] ∅ true

theorem encodeMoment_create_ascending_twoProviders :
    ∃ written, encodeMoment (firstProviderBefore (hour 13)) 2 twoProvidersData (hour 11) =
      some written ∧ Ascending (hour 11) written := by
  apply encodeMoment_create_ascending
  intro _ state reached more
  have ends : hasNext ((round (firstProviderBefore (hour 13)) 2)^[7]
      (startMoment twoProvidersData (hour 11) ((hour 11).sub (PTime.hours 2)))) = false := by
    decide +kernel
  rcases reached.exists_iterate ends with ⟨rounds, within, equal⟩
  subst equal
  clear reached more
  revert rounds
  decide

/-- When the provider changes within the look-back, times before the start time are
written. -/
theorem not_ascending_changeWithinLookBack :
    encodeMoment (firstProviderBefore (hour 12)) 2 twoProvidersData (hour 13) =
      some [hour 12, hour 13, hour 14] ∧
      ¬Ascending (hour 13) [hour 12, hour 13, hour 14] := by
  constructor
  · decide
  · intro ascending
    have notBefore := ascending.notBefore (hour 12) List.mem_cons_self
    revert notBefore
    decide

end ChangeWithinLookBack

end EncodeLocationForecast4

end Wdb2ts
