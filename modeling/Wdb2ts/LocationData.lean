import Wdb2ts.Precipitation

/-!
# Iterating over a time series

A `LocationData` walks through the valid-to times of a time series and hands out its
`LocationElem`, positioned at one of them.
-/

namespace Wdb2ts

/-- The members of a `LocationData`.  The series is the one its `locationElem` points to. -/
structure LocationData (F : Type) where
  providerPriority_ : ProviderList
  itTimeSerie : ℕ
  locationElem : LocationElem F
  timespan_ : ℤ
  provider_ : Bytes

namespace LocationData

variable {F : Type}

/-- The entries of the time series. -/
def timeSerie (data : LocationData F) : List (PTime × FromTimeSerie F) :=
  data.locationElem.timeSerie

/-- Is the time outside the data that `cleanup` looks at? -/
def isConstantTime (time : PTime) : Bool := time.isSpecial || time = PTime.epoch

section Cleanup

variable [FloatLimits F] [DecidableEq F]

/-- Does the entry have a data set of the provider with more than one value? -/
def hasDataOf (provider : Bytes) (entry : PTime × FromTimeSerie F) : Bool :=
  !isConstantTime entry.1 &&
    entry.2.entries.any fun fromTime =>
      !isConstantTime fromTime.1 &&
        ((fromTime.2.find? provider).map fun data => decide (1 < data.count)).getD false

/-- The first time `cleanup` keeps. -/
def cleanupFrom (providerPriority : ProviderList) (entries : List (PTime × FromTimeSerie F)) :
    Option PTime :=
  providerPriority.findSome? fun item =>
    (entries.find? (hasDataOf item.providerWithPlacename)).map Prod.fst

/-- The loop of `cleanup` that erases the entries before a time. -/
def eraseBefore (fromThisTime : PTime) :
    List (PTime × FromTimeSerie F) → List (PTime × FromTimeSerie F)
  | [] => []
  | entry :: rest =>
      if isConstantTime entry.1 then entry :: eraseBefore fromThisTime rest
      else if entry.1 < fromThisTime then eraseBefore fromThisTime rest
      else entry :: rest

/-- `LocationData::cleanup`. -/
def cleanup (providerPriority : ProviderList) (entries : List (PTime × FromTimeSerie F)) :
    List (PTime × FromTimeSerie F) :=
  match cleanupFrom providerPriority entries with
  | none => entries
  | some fromThisTime => eraseBefore fromThisTime entries

/-- The constructors of `LocationData` and of its `LocationElem`, with the configuration the
element is given afterwards.  The element has no position yet, and its member `epoch` is
default constructed. -/
def create (timeSerie : TimeSerie F) (longitude latitude : F) (hight : ℤ)
    (providerPriority : ProviderList) (modelTopoProviders : TopoProviderMap)
    (topographyProviders : List Bytes) (outputParams : SortedMap Bytes Bool) (thunder : Bool) :
    LocationData F :=
  let entries := cleanup providerPriority timeSerie.entries
  { providerPriority_ := providerPriority
    itTimeSerie := 0
    locationElem :=
      { providerPriority := providerPriority
        itProviderPriorityBegin := 0
        lastUsedProvider_ := []
        timeSerie := entries
        itTimeSerie := entries.length
        topoTime := PTime.epoch
        seaIceTime := PTime.epoch
        seaBottomTopographyTime := PTime.epoch
        epoch := default
        modelTopoProviders := modelTopoProviders
        topographyProviders := topographyProviders
        forecastProvider := []
        oceanProvider_ := []
        percentileProvider := []
        symbolProvider := []
        symbolProbabilityProvider := []
        latitude_ := latitude
        longitude_ := longitude
        height_ := hight
        outputParams := outputParams
        thunder := thunder }
    timespan_ := 0
    provider_ := [] }

end Cleanup

/-- Does `findFirstDataSet` stop at the entry? -/
def isDataSet (provider : Bytes) (startAtToTime : PTime) (timespan : ℤ)
    (entry : PTime × FromTimeSerie F) : Bool :=
  (startAtToTime.isSpecial || !decide (entry.1 < startAtToTime)) &&
    ((entry.2.find? (entry.1.sub (PTime.hours timespan))).bind fun providers =>
      providers.find? provider).isSome

/-- `LocationData::findFirstDataSet`: the position of a data set of the provider, or the end
position.  The first entry is always skipped. -/
def findFirstDataSet (data : LocationData F) (provider : Bytes) (startAtToTime : PTime) : ℕ :=
  match data.timeSerie with
  | [] => 0
  | _ :: rest => rest.findIdx (isDataSet provider startAtToTime data.timespan_) + 1

/-- The loop of `init` over the priority list. -/
def initFirstProvider (startAtToTime : PTime) :
    ProviderList → LocationData F → Bool × LocationData F
  | [], data => (false, data)
  | item :: rest, data =>
      let position := data.findFirstDataSet item.providerWithPlacename startAtToTime
      let data := { data with itTimeSerie := position }
      if position = data.timeSerie.length then initFirstProvider startAtToTime rest data
      else
        (true,
          { data with
            locationElem :=
              { (data.locationElem.startAtProvider []).2 with
                forecastProvider := item.providerWithPlacename }
            provider_ := item.providerWithPlacename })

/-- `LocationData::init`. -/
def init (data : LocationData F) (startAtToTime : PTime) (provider : Bytes) (timespan : ℤ) :
    Bool × LocationData F :=
  let data := { data with provider_ := provider, timespan_ := timespan }
  if provider.isEmpty then initFirstProvider startAtToTime data.providerPriority_ data
  else
    let position := data.findFirstDataSet provider startAtToTime
    let data := { data with itTimeSerie := position }
    if position = data.timeSerie.length then (false, data)
    else
      (true,
        { data with
          locationElem :=
            { (data.locationElem.startAtProvider provider).2 with
              forecastProvider := provider } })

/-- `LocationData::hasNext`. -/
def hasNext (data : LocationData F) : Bool := data.itTimeSerie != data.timeSerie.length

/-- `LocationData::next`, which is called when there is a next element. -/
def next (data : LocationData F) : LocationData F :=
  if data.hasNext then
    { data with
      itTimeSerie := data.itTimeSerie + 1
      locationElem := data.locationElem.init data.itTimeSerie }
  else data

/-- `LocationData::peek`. -/
def peek (data : LocationData F) : LocationData F :=
  if data.hasNext then
    { data with locationElem := data.locationElem.init data.itTimeSerie }
  else data

/-- The element after an accessor. -/
def access {α : Type} (data : LocationData F) (accessor : Access F α) : LocationData F :=
  { data with locationElem := (accessor.run data.locationElem).2 }

/-! ## The entries stay -/

theorem timeSerie_startAtProvider (elem : LocationElem F) (provider : Bytes) :
    (elem.startAtProvider provider).2.timeSerie = elem.timeSerie := by
  simp only [LocationElem.startAtProvider]
  split
  · rfl
  · split
    · rfl
    · rfl

theorem timeSerie_initFirstProvider (startAtToTime : PTime) (items : ProviderList)
    (data : LocationData F) :
    (initFirstProvider startAtToTime items data).2.timeSerie = data.timeSerie := by
  induction items generalizing data with
  | nil => rfl
  | cons item rest ih =>
      simp only [initFirstProvider]
      split
      · apply ih
      · exact timeSerie_startAtProvider _ _

theorem timeSerie_init (data : LocationData F) (startAtToTime : PTime) (provider : Bytes)
    (timespan : ℤ) : (data.init startAtToTime provider timespan).2.timeSerie = data.timeSerie := by
  simp only [init]
  split
  · apply timeSerie_initFirstProvider
  · split
    · rfl
    · exact timeSerie_startAtProvider _ _

theorem timeSerie_next (data : LocationData F) : data.next.timeSerie = data.timeSerie := by
  simp only [next]
  split
  · rfl
  · rfl

theorem timeSerie_peek (data : LocationData F) : data.peek.timeSerie = data.timeSerie := by
  simp only [peek]
  split
  · rfl
  · rfl

/-! ## The order of the entries -/

theorem eraseBefore_sublist (fromThisTime : PTime) (entries : List (PTime × FromTimeSerie F)) :
    (eraseBefore fromThisTime entries).Sublist entries := by
  induction entries with
  | nil => exact List.Sublist.refl _
  | cons entry rest ih =>
      simp only [eraseBefore]
      split
      · exact ih.cons_cons entry
      · split
        · exact ih.cons entry
        · exact List.Sublist.refl _

section Cleanup

variable [FloatLimits F] [DecidableEq F]

theorem cleanup_sublist (providerPriority : ProviderList)
    (entries : List (PTime × FromTimeSerie F)) :
    (cleanup providerPriority entries).Sublist entries := by
  simp only [cleanup]
  cases cleanupFrom providerPriority entries with
  | none => exact List.Sublist.refl _
  | some fromThisTime => apply eraseBefore_sublist

theorem sorted_create (timeSerie : TimeSerie F) (longitude latitude : F) (hight : ℤ)
    (providerPriority : ProviderList) (modelTopoProviders : TopoProviderMap)
    (topographyProviders : List Bytes) (outputParams : SortedMap Bytes Bool)
    (thunder : Bool) :
    (create timeSerie longitude latitude hight providerPriority modelTopoProviders
      topographyProviders outputParams thunder).timeSerie.Pairwise
        fun earlier later => earlier.1 < later.1 :=
  timeSerie.sorted.sublist (cleanup_sublist providerPriority timeSerie.entries)

end Cleanup

/-! ## The position -/

/-- The position denotes an entry or the end. -/
def InRange (data : LocationData F) : Prop := data.itTimeSerie ≤ data.timeSerie.length

/-- The entries that `next` has not handed out yet. -/
def remaining (data : LocationData F) : List (PTime × FromTimeSerie F) :=
  data.timeSerie.drop data.itTimeSerie

theorem findFirstDataSet_le (data : LocationData F) (provider : Bytes) (startAtToTime : PTime) :
    data.findFirstDataSet provider startAtToTime ≤ data.timeSerie.length := by
  simp only [findFirstDataSet]
  split
  · exact Nat.zero_le _
  · rename_i first rest entries
    have bounded : rest.findIdx (isDataSet provider startAtToTime data.timespan_) ≤
        rest.length := List.findIdx_le_length
    rw [entries, List.length_cons]
    omega

theorem InRange.initFirstProvider {data : LocationData F} (inRange : data.InRange)
    (startAtToTime : PTime) (items : ProviderList) :
    (initFirstProvider startAtToTime items data).2.InRange := by
  induction items generalizing data with
  | nil => exact inRange
  | cons item rest ih =>
      have found := data.findFirstDataSet_le item.providerWithPlacename startAtToTime
      simp only [LocationData.initFirstProvider]
      split
      · exact ih found
      · simp only [InRange, timeSerie, timeSerie_startAtProvider]
        exact found

theorem InRange.init {data : LocationData F} (inRange : data.InRange) (startAtToTime : PTime)
    (provider : Bytes) (timespan : ℤ) :
    (data.init startAtToTime provider timespan).2.InRange := by
  have found := findFirstDataSet_le { data with provider_ := provider, timespan_ := timespan }
    provider startAtToTime
  simp only [LocationData.init]
  split
  · apply InRange.initFirstProvider
    exact inRange
  · split
    · exact found
    · simp only [InRange, timeSerie, timeSerie_startAtProvider]
      exact found

theorem InRange.before_end {data : LocationData F} (inRange : data.InRange)
    (more : data.hasNext = true) : data.itTimeSerie < data.timeSerie.length := by
  have notEnd : data.itTimeSerie ≠ data.timeSerie.length := by
    simpa only [hasNext, bne_iff_ne] using more
  exact lt_of_le_of_ne inRange notEnd

theorem InRange.next {data : LocationData F} (inRange : data.InRange)
    (more : data.hasNext = true) : data.next.InRange := by
  have before := inRange.before_end more
  simp only [InRange, timeSerie_next]
  simp only [LocationData.next, more, if_true]
  exact before

/-- `next` hands out the first of the remaining entries. -/
theorem InRange.remaining_eq {data : LocationData F} (inRange : data.InRange)
    (more : data.hasNext = true) :
    ∃ entry, data.remaining = entry :: data.next.remaining ∧
      data.next.locationElem.time = entry.1 := by
  have before := inRange.before_end more
  refine ⟨data.timeSerie[data.itTimeSerie], ?_, ?_⟩
  · simp only [remaining, timeSerie_next]
    rw [List.drop_eq_getElem_cons before]
    simp only [LocationData.next, more, if_true]
  · have current : data.next.locationElem.current? =
        some data.timeSerie[data.itTimeSerie] := by
      simp only [LocationData.next, more, if_true]
      exact List.getElem?_eq_getElem before
    rw [LocationElem.time, current]
    rfl

theorem length_remaining_le (data : LocationData F) :
    data.remaining.length ≤ data.timeSerie.length := by
  rw [remaining, List.length_drop]
  exact Nat.sub_le _ _

end LocationData

end Wdb2ts
