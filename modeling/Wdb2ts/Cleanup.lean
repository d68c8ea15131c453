import Wdb2ts.LocationData
import Wdb2ts.Lib.FirstMatch

/-!
# The stale head of a time series

A provider is given a first time in a series by its data sets, and the provider that comes
first in the priority list and has one decides where the series starts.
-/

namespace Wdb2ts

namespace LocationData

variable {F : Type} [FloatLimits F] [DecidableEq F]

/-- `LocationData::cleanup` as an operation of ordered maps. -/
def cleanedUp (providerPriority : ProviderList) (serie : TimeSerie F) : TimeSerie F :=
  ⟨cleanup providerPriority serie.entries,
    serie.sorted.sublist (cleanup_sublist providerPriority serie.entries)⟩

/-- The series holds a data set of the provider at the valid-to time. -/
def HasDataSet (serie : TimeSerie F) (provider : Bytes) (toTime : PTime) : Prop :=
  isConstantTime toTime = false ∧ ∃ fromTime data,
    isConstantTime fromTime = false ∧ serie.cell? (toTime, fromTime, provider) = some data ∧
      1 < data.count

/-- The time is the first one with a data set of the first provider that has data sets. -/
def IsStart (providerPriority : ProviderList) (serie : TimeSerie F) (start : PTime) : Prop :=
  ∃ (index : ℕ) (item : ProviderItem), providerPriority[index]? = some item ∧
    HasDataSet serie item.providerWithPlacename start ∧
    (∀ toTime < start, ¬HasDataSet serie item.providerWithPlacename toTime) ∧
    ∀ earlier < index, ∀ other, providerPriority[earlier]? = some other →
      ∀ toTime, ¬HasDataSet serie other.providerWithPlacename toTime

/-- The time belongs to the head that a clean-up from the given start drops. -/
def isStale (start toTime : PTime) : Bool := !isConstantTime toTime && decide (toTime < start)

/-! ## The start -/

theorem hasDataOf_iff (provider : Bytes) (toTime : PTime) (fromTimes : FromTimeSerie F) :
    hasDataOf provider (toTime, fromTimes) = true ↔
      isConstantTime toTime = false ∧ ∃ fromTime data, isConstantTime fromTime = false ∧
        (fromTimes.find? fromTime).bind (fun providers => providers.find? provider) = some data ∧
          1 < data.count := by
  simp only [hasDataOf, Bool.and_eq_true, Bool.not_eq_true', List.any_eq_true, Prod.exists]
  apply and_congr_right
  intro _
  constructor
  · intro some
    rcases some with ⟨fromTime, providers, member, varying, counted⟩
    cases found : providers.find? provider with
    | none => simp [found] at counted
    | some data =>
        refine ⟨fromTime, data, varying, ?_, by simpa [found] using counted⟩
        rw [SortedMap.mem_entries_iff.mp member]
        exact found
  · intro some
    rcases some with ⟨fromTime, data, varying, stored, counted⟩
    rcases Option.bind_eq_some_iff.mp stored with ⟨providers, storedProviders, found⟩
    refine ⟨fromTime, providers, SortedMap.mem_entries_iff.mpr storedProviders, varying, ?_⟩
    simp [found, counted]

theorem hasDataSet_iff (serie : TimeSerie F) (provider : Bytes) (toTime : PTime) :
    HasDataSet serie provider toTime ↔
      ∃ fromTimes, serie.find? toTime = some fromTimes ∧
        hasDataOf provider (toTime, fromTimes) = true := by
  simp only [HasDataSet, hasDataOf_iff, TimeSerie.cell?, Option.bind_eq_some_iff]
  constructor
  · intro some
    rcases some with ⟨varying, fromTime, data, varyingFrom, ⟨fromTimes, stored, found⟩, counted⟩
    exact ⟨fromTimes, stored, varying, fromTime, data, varyingFrom, found, counted⟩
  · intro some
    rcases some with ⟨fromTimes, stored, varying, fromTime, data, varyingFrom, found, counted⟩
    exact ⟨varying, fromTime, data, varyingFrom, ⟨fromTimes, stored, found⟩, counted⟩

/-- The first entry with data of a provider. -/
theorem find?_hasDataOf_eq_some_iff (serie : TimeSerie F) (provider : Bytes) (start : PTime) :
    (serie.entries.find? (hasDataOf provider)).map Prod.fst = some start ↔
      HasDataSet serie provider start ∧ ∀ toTime < start, ¬HasDataSet serie provider toTime := by
  have search : (serie.entries.find? (hasDataOf provider)).map Prod.fst =
      serie.entries.findSome? fun entry =>
        if hasDataOf provider entry then some entry.1 else none := by
    induction serie.entries with
    | nil => rfl
    | cons entry rest ih =>
        cases data : hasDataOf provider entry with
        | true => simp [data]
        | false => simpa [List.find?_cons, data] using ih
  rw [search, FirstMatch.findSome?_entries_eq_some_iff]
  simp only [hasDataSet_iff]
  constructor
  · intro first
    rcases first with ⟨toTime, fromTimes, stored, matched, least⟩
    rcases Option.ite_none_right_eq_some.mp matched with ⟨data, same⟩
    cases same
    refine ⟨⟨fromTimes, stored, data⟩, ?_⟩
    intro earlier less some
    rcases some with ⟨others, storedOthers, dataOthers⟩
    have none := least earlier less others storedOthers
    simp [dataOthers] at none
  · intro first
    rcases first with ⟨⟨fromTimes, stored, data⟩, least⟩
    refine ⟨start, fromTimes, stored, by simp [data], ?_⟩
    intro earlier less others storedOthers
    apply if_neg
    intro dataOthers
    exact least earlier less ⟨others, storedOthers, dataOthers⟩

/-- A provider without any data set is passed over. -/
theorem find?_hasDataOf_eq_none_iff (serie : TimeSerie F) (provider : Bytes) :
    (serie.entries.find? (hasDataOf provider)).map Prod.fst = none ↔
      ∀ toTime, ¬HasDataSet serie provider toTime := by
  simp only [Option.map_eq_none_iff, List.find?_eq_none, hasDataSet_iff]
  constructor
  · intro never toTime some
    rcases some with ⟨fromTimes, stored, data⟩
    exact never _ (SortedMap.mem_entries_iff.mpr stored) data
  · intro never entry member data
    exact never entry.1 ⟨entry.2, SortedMap.mem_entries_iff.mp member, data⟩

/-- The search of `cleanup` finds the start. -/
theorem cleanupFrom_eq_some_iff (providerPriority : ProviderList) (serie : TimeSerie F)
    (start : PTime) :
    cleanupFrom providerPriority serie.entries = some start ↔
      IsStart providerPriority serie start := by
  rw [cleanupFrom, FirstMatch.findSome?_eq_some_iff_getElem?]
  simp only [find?_hasDataOf_eq_some_iff, find?_hasDataOf_eq_none_iff, IsStart, and_assoc]

theorem cleanupFrom_eq_none_iff (providerPriority : ProviderList) (serie : TimeSerie F) :
    cleanupFrom providerPriority serie.entries = none ↔
      ¬∃ start, IsStart providerPriority serie start := by
  simp only [← cleanupFrom_eq_some_iff, Option.eq_none_iff_forall_ne_some, not_exists, ne_eq]

/-! ## The head -/

omit [FloatLimits F] [DecidableEq F] in
/-- In an ascending series the loop of `cleanup` reaches every entry before the start. -/
theorem eraseBefore_eq_filter (start : PTime) {entries : List (PTime × FromTimeSerie F)}
    (sorted : entries.Pairwise fun earlier later => earlier.1 < later.1) :
    eraseBefore start entries = entries.filter fun entry => !isStale start entry.1 := by
  induction entries with
  | nil => rfl
  | cons entry rest ih =>
      rw [List.pairwise_cons] at sorted
      have tail := ih sorted.2
      cases constant : isConstantTime entry.1 with
      | true => simp [eraseBefore, isStale, constant, tail]
      | false =>
          by_cases before : entry.1 < start
          · simp [eraseBefore, isStale, constant, before, tail]
          · have keepsRest : rest.filter (fun other => !isStale start other.1) = rest := by
              apply List.filter_eq_self.mpr
              intro other member
              have later : ¬other.1 < start := fun less =>
                before ((sorted.1 other member).trans less)
              simp [isStale, later]
            rw [List.filter_cons_of_pos (by simp [isStale, before]), keepsRest]
            simp [eraseBefore, constant, before]

/-- A series with a start loses the times before it. -/
theorem cleanedUp_of_isStart {providerPriority : ProviderList} {serie : TimeSerie F}
    {start : PTime} (isStart : IsStart providerPriority serie start) :
    cleanedUp providerPriority serie = serie.restrict fun toTime => !isStale start toTime := by
  have found := (cleanupFrom_eq_some_iff providerPriority serie start).mpr isStart
  simp only [cleanedUp, cleanup, found, SortedMap.restrict, eraseBefore_eq_filter start serie.sorted]

/-- A series without a start is left alone. -/
theorem cleanedUp_of_not_isStart {providerPriority : ProviderList} {serie : TimeSerie F}
    (never : ¬∃ start, IsStart providerPriority serie start) :
    cleanedUp providerPriority serie = serie := by
  have notFound := (cleanupFrom_eq_none_iff providerPriority serie).mpr never
  simp only [cleanedUp, cleanup, notFound]

theorem hasDataSet_restrict (serie : TimeSerie F) (start : PTime) (provider : Bytes)
    (toTime : PTime) :
    HasDataSet (serie.restrict fun toTime => !isStale start toTime) provider toTime ↔
      HasDataSet serie provider toTime ∧ start ≤ toTime := by
  simp only [HasDataSet, TimeSerie.cell?, SortedMap.find?_restrict]
  by_cases before : toTime < start
  · cases constant : isConstantTime toTime with
    | true => simp
    | false => simp [isStale, constant, before]
  · simp [isStale, before, not_lt.mp before]

/-- The start of a series is also the start of what a clean-up leaves. -/
theorem IsStart.restrict {providerPriority : ProviderList} {serie : TimeSerie F}
    {start : PTime} (isStart : IsStart providerPriority serie start) :
    IsStart providerPriority (serie.restrict fun toTime => !isStale start toTime) start := by
  rcases isStart with ⟨index, item, position, data, least, others⟩
  refine ⟨index, item, position, ?_, ?_, ?_⟩
  · exact (hasDataSet_restrict serie start _ start).mpr ⟨data, le_refl start⟩
  · intro toTime before kept
    exact least toTime before ((hasDataSet_restrict serie start _ toTime).mp kept).1
  · intro earlier less other otherPosition toTime kept
    exact others earlier less other otherPosition toTime
      ((hasDataSet_restrict serie start _ toTime).mp kept).1

theorem cleanedUp_idempotent (providerPriority : ProviderList) (serie : TimeSerie F) :
    cleanedUp providerPriority (cleanedUp providerPriority serie) =
      cleanedUp providerPriority serie := by
  by_cases some : ∃ start, IsStart providerPriority serie start
  · rcases some with ⟨start, isStart⟩
    rw [cleanedUp_of_isStart isStart, cleanedUp_of_isStart isStart.restrict]
    simp only [SortedMap.restrict, List.filter_filter, Bool.and_self]
  · rw [cleanedUp_of_not_isStart some, cleanedUp_of_not_isStart some]

/-- `cleanup` removes exactly the varying times before the start, keeps every other entry, does
nothing when there is no start and nothing more when it is done twice. -/
theorem cleanup_removes_head (providerPriority : ProviderList) (serie : TimeSerie F) :
    (∀ start, IsStart providerPriority serie start → ∀ toTime,
      (cleanedUp providerPriority serie).find? toTime =
        if isConstantTime toTime = false ∧ toTime < start then none else serie.find? toTime) ∧
    ((¬∃ start, IsStart providerPriority serie start) →
      cleanedUp providerPriority serie = serie) ∧
    cleanedUp providerPriority (cleanedUp providerPriority serie) =
      cleanedUp providerPriority serie := by
  refine ⟨?_, cleanedUp_of_not_isStart, cleanedUp_idempotent providerPriority serie⟩
  intro start isStart toTime
  rw [cleanedUp_of_isStart isStart, SortedMap.find?_restrict]
  by_cases stale : isConstantTime toTime = false ∧ toTime < start
  · simp [isStale, stale.1, stale.2]
  · have kept : isStale start toTime = false := by
      simpa [isStale, ← not_lt, not_and] using stale
    simp [stale, kept]

end LocationData

end Wdb2ts
