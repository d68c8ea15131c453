import Wdb2ts.MomentOrder

/-!
# The rewinds of the moment encoder

The moment encoder may find any provider, or none, at every time, and it may leave anything in
the element that it reads.  The loop of `encodeMoment` ends all the same, because a provider
change rewinds the iterator at most ten times.
-/

namespace Wdb2ts

namespace EncodeLocationForecast4

variable {F : Type}

/-- What the moment tags and the period tags do with the element of a round: the provider of
the moment tags, if there are any, and the element afterwards.  The number of entries of the
time series is not theirs to change. -/
structure MomentBehaviour (F : Type) where
  encode : ℕ → LocationElem F → Option Bytes × LocationElem F
  length_encode : ∀ rounds location,
    (encode rounds location).2.timeSerie.length = location.timeSerie.length

/-- The loop of `encodeMoment` with the number of its rounds and of the calls of `init` in
it. -/
structure MomentRun (F : Type) where
  state : MomentState F
  rounds : ℕ
  rewinds : ℕ

/-- The state with another element. -/
def MomentState.leave (state : MomentState F) (location : LocationElem F) : MomentState F :=
  { state with locationData := { state.locationData with locationElem := location } }

namespace MomentRun

/-- The test of the loop. -/
def hasNext (run : MomentRun F) : Bool := run.state.hasNext

/-- The state after the tags of the next element. -/
def encoded (behaviour : MomentBehaviour F) (run : MomentRun F) : MomentState F :=
  run.state.advance.leave (behaviour.encode run.rounds run.state.nextLocation).2

/-- The body of the loop. -/
def round (behaviour : MomentBehaviour F) (maxHours : ℤ) (run : MomentRun F) : MomentRun F :=
  match (behaviour.encode run.rounds run.state.nextLocation).1 with
  | none => { run with state := run.encoded behaviour, rounds := run.rounds + 1 }
  | some provider =>
      if run.state.isProviderChange provider then
        { state := (run.encoded behaviour).changeProvider maxHours provider
          rounds := run.rounds + 1
          rewinds := run.rewinds + 1 }
      else if run.state.prevForecastprovider.isEmpty then
        { run with
          state :=
            { run.encoded behaviour with
              prevForecastprovider := provider
              hasMomentData := true }
          rounds := run.rounds + 1 }
      else
        { run with
          state := { run.encoded behaviour with hasMomentData := true }
          rounds := run.rounds + 1 }

/-- The run before the first round. -/
def start (data : LocationData F) (fromTime dataFrom : PTime) : MomentRun F :=
  { state := startMoment data fromTime dataFrom
    rounds := 0
    rewinds := 0 }

end MomentRun

/-- `EncodeLocationForecast4::encodeMoment` for any behaviour of the tags: the run when the
loop is over, or `none` if it does not end within the tests of `momentFuel`. -/
def encodeMomentBy (behaviour : MomentBehaviour F) (maxHours : ℤ) (data : LocationData F)
    (fromTime : PTime) : Option (MomentRun F) :=
  let dataFrom := fromTime.sub (PTime.hours maxHours)
  if (data.init dataFrom [] 0).1 then
    WhileLoop.run MomentRun.hasNext (MomentRun.round behaviour maxHours)
      (momentFuel data.timeSerie.length) (MomentRun.start data fromTime dataFrom)
  else some (MomentRun.start data fromTime dataFrom)

namespace MomentRun

/-! ## One round -/

/-- What a round can do. -/
theorem round_cases (behaviour : MomentBehaviour F) (maxHours : ℤ) (run : MomentRun F) :
    (∃ provider, run.state.isProviderChange provider = true ∧
      run.round behaviour maxHours =
        { state := (run.encoded behaviour).changeProvider maxHours provider
          rounds := run.rounds + 1
          rewinds := run.rewinds + 1 }) ∨
      ∃ provider hasMomentData, run.round behaviour maxHours =
        { run with
          state :=
            { run.encoded behaviour with
              prevForecastprovider := provider
              hasMomentData := hasMomentData }
          rounds := run.rounds + 1 } := by
  simp only [round]
  cases (behaviour.encode run.rounds run.state.nextLocation).1 with
  | none => exact Or.inr ⟨_, _, rfl⟩
  | some provider =>
      cases isChange : run.state.isProviderChange provider with
      | true =>
          left
          exact ⟨provider, isChange, by simp [isChange]⟩
      | false =>
          right
          cases run.state.prevForecastprovider.isEmpty with
          | true => exact ⟨provider, true, by simp [isChange]⟩
          | false =>
              exact ⟨(run.encoded behaviour).prevForecastprovider, true, by simp [isChange]⟩

/-- The iterator stays within the series, and every rewind is counted as a provider change. -/
structure Counts (length : ℕ) (run : MomentRun F) : Prop where
  length_eq : run.state.locationData.timeSerie.length = length
  inRange : run.state.locationData.InRange
  rewinds_eq : run.rewinds = run.state.countProviderChange
  rewinds_le : run.rewinds ≤ 10

theorem encoded_countProviderChange (behaviour : MomentBehaviour F) (run : MomentRun F) :
    (run.encoded behaviour).countProviderChange = run.state.countProviderChange :=
  MomentState.advance_countProviderChange run.state

theorem encoded_itTimeSerie (behaviour : MomentBehaviour F) (run : MomentRun F) :
    (run.encoded behaviour).locationData.itTimeSerie =
      run.state.locationData.next.itTimeSerie := rfl

theorem length_encoded (behaviour : MomentBehaviour F) (run : MomentRun F) :
    (run.encoded behaviour).locationData.timeSerie.length =
      run.state.locationData.timeSerie.length :=
  (behaviour.length_encode run.rounds run.state.nextLocation).trans
    (congrArg List.length (LocationData.timeSerie_next run.state.locationData))

theorem Counts.inRange_encoded {length : ℕ} {run : MomentRun F} (counts : Counts length run)
    (more : run.hasNext = true) (behaviour : MomentBehaviour F) :
    (run.encoded behaviour).locationData.InRange := by
  have next := counts.inRange.next more
  simp only [LocationData.InRange] at next ⊢
  rw [length_encoded, encoded_itTimeSerie]
  rw [LocationData.timeSerie_next] at next
  exact next

theorem Counts.round {length : ℕ} {run : MomentRun F} (counts : Counts length run)
    (more : run.hasNext = true) (behaviour : MomentBehaviour F) (maxHours : ℤ) :
    Counts length (run.round behaviour maxHours) := by
  have inRange := counts.inRange_encoded more behaviour
  have sameLength := (length_encoded behaviour run).trans counts.length_eq
  have sameCount := encoded_countProviderChange behaviour run
  rcases round_cases behaviour maxHours run with ⟨provider, isChange, equal⟩ |
    ⟨provider, hasMomentData, equal⟩
  · have few := MomentState.countProviderChange_lt isChange
    rw [equal]
    constructor
    · rw [← sameLength]
      exact congrArg List.length (LocationData.timeSerie_init _ _ _ _)
    · exact inRange.init _ _ _
    · rw [counts.rewinds_eq, ← sameCount]
      rfl
    · rw [counts.rewinds_eq]
      exact few
  · rw [equal]
    constructor
    · exact sameLength
    · exact inRange
    · rw [counts.rewinds_eq, ← sameCount]
    · exact counts.rewinds_le

/-- Every round brings the iterator forward or uses up one of the ten changes. -/
theorem Counts.roundsLeft_round {length : ℕ} {run : MomentRun F} (counts : Counts length run)
    (more : run.hasNext = true) (behaviour : MomentBehaviour F) (maxHours : ℤ) :
    MomentState.roundsLeft length (run.round behaviour maxHours).state <
      MomentState.roundsLeft length run.state := by
  have before := counts.inRange.before_end more
  have sameLength := length_encoded behaviour run
  have sameCount := encoded_countProviderChange behaviour run
  rcases round_cases behaviour maxHours run with ⟨provider, isChange, equal⟩ |
    ⟨provider, hasMomentData, equal⟩
  · have few := MomentState.countProviderChange_lt isChange
    have bounded := LocationData.length_remaining_le
      (run.round behaviour maxHours).state.locationData
    rw [(counts.round more behaviour maxHours).length_eq] at bounded
    rw [equal] at bounded ⊢
    have oneLess : 10 - run.state.countProviderChange =
        (10 - (run.state.countProviderChange + 1)) + 1 := by omega
    simp only [MomentState.roundsLeft]
    rw [oneLess, Nat.add_one_mul]
    simp only [MomentState.changeProvider, sameCount] at bounded ⊢
    omega
  · have forward : (run.encoded behaviour).locationData.itTimeSerie =
        run.state.locationData.itTimeSerie + 1 := by
      have goesOn : run.state.locationData.hasNext = true := more
      rw [encoded_itTimeSerie, LocationData.next, if_pos goesOn]
    rw [equal]
    simp only [MomentState.roundsLeft, LocationData.remaining, List.length_drop, sameCount,
      sameLength, forward]
    omega

/-! ## The start -/

theorem inRange_of_init {data : LocationData F} {startAtToTime : PTime}
    (found : (data.init startAtToTime [] 0).1 = true) :
    (data.init startAtToTime [] 0).2.InRange := by
  have first (items : ProviderList) (data : LocationData F)
      (found : (LocationData.initFirstProvider startAtToTime items data).1 = true) :
      (LocationData.initFirstProvider startAtToTime items data).2.InRange := by
    induction items generalizing data with
    | nil => cases found
    | cons item rest ih =>
        have position := data.findFirstDataSet_le item.providerWithPlacename startAtToTime
        simp only [LocationData.initFirstProvider] at found ⊢
        split
        · rename_i atEnd
          rw [if_pos atEnd] at found
          exact ih _ found
        · simp only [LocationData.InRange, LocationData.timeSerie,
            LocationData.timeSerie_startAtProvider]
          exact position
  exact first _ _ found

theorem counts_start {data : LocationData F} {fromTime dataFrom : PTime}
    (found : (data.init dataFrom [] 0).1 = true) :
    Counts data.timeSerie.length (start data fromTime dataFrom) := by
  constructor
  · exact congrArg List.length (LocationData.timeSerie_init _ _ _ _)
  · exact inRange_of_init found
  · rfl
  · exact Nat.zero_le _

/-! ## The loop ends -/

theorem run_start {data : LocationData F} {dataFrom : PTime}
    (found : (data.init dataFrom [] 0).1 = true) (fromTime : PTime)
    (behaviour : MomentBehaviour F) (maxHours : ℤ) :
    ∃ final, WhileLoop.run hasNext (round behaviour maxHours)
        (momentFuel data.timeSerie.length) (start data fromTime dataFrom) = some final ∧
      Counts data.timeSerie.length final ∧ final.hasNext = false := by
  have counts : ∀ run, WhileLoop.Reached hasNext (round behaviour maxHours)
      (start data fromTime dataFrom) run → Counts data.timeSerie.length run :=
    fun _ reached => reached.invariant _ (counts_start found)
      fun _ _ more counts => counts.round more behaviour maxHours
  have ends : ∃ final, WhileLoop.run hasNext (round behaviour maxHours)
      (momentFuel data.timeSerie.length) (start data fromTime dataFrom) = some final ∧
      WhileLoop.Reached hasNext (round behaviour maxHours) (start data fromTime dataFrom)
        final ∧ final.hasNext = false := by
    apply WhileLoop.run_of_measure
      (fun run : MomentRun F => MomentState.roundsLeft data.timeSerie.length run.state)
    · intro run reached more
      exact (counts run reached).roundsLeft_round more behaviour maxHours
    · exact WhileLoop.Reached.start
    · have bounded := LocationData.length_remaining_le
        (start data fromTime dataFrom).state.locationData
      rw [(counts_start found).length_eq] at bounded
      simp only [MomentState.roundsLeft, momentFuel, start, startMoment] at bounded ⊢
      omega
  rcases ends with ⟨final, ran, reached, finished⟩
  exact ⟨final, ran, counts final reached, finished⟩

end MomentRun

/-- Whatever the providers do, the loop of `encodeMoment` ends, and it rewinds the iterator at
most ten times. -/
theorem encodeMomentBy_ends (behaviour : MomentBehaviour F) (maxHours : ℤ)
    (data : LocationData F) (fromTime : PTime) :
    ∃ final, encodeMomentBy behaviour maxHours data fromTime = some final ∧
      final.rewinds ≤ 10 := by
  cases found : (data.init (fromTime.sub (PTime.hours maxHours)) [] 0).1 with
  | false =>
      refine ⟨MomentRun.start data fromTime (fromTime.sub (PTime.hours maxHours)), ?_, ?_⟩
      · simp [encodeMomentBy, found]
      · exact Nat.zero_le _
  | true =>
      rcases MomentRun.run_start found fromTime behaviour maxHours with
        ⟨final, ran, counts, _⟩
      refine ⟨final, ?_, counts.rewinds_le⟩
      simp only [encodeMomentBy, found, if_true]
      exact ran

end EncodeLocationForecast4

end Wdb2ts
