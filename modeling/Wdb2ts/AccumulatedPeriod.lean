import Wdb2ts.MeanPeriod

/-!
# The difference of two accumulated values

The precipitation of a period is the difference of two values that are accumulated from the
same time, or a value that is accumulated over the period.
-/

namespace Wdb2ts

/-! ## The cell of a lookup -/

namespace LookupElem

variable {F : Type} [DecidableEq F]

/-- A cell that is valid from a time holds the value. -/
def HoldsCell (serie : FromTimeSerie F) (pPM : PData.Member) (fromTime : PTime) (value : F) :
    Prop :=
  ∃ provider, ((serie.find? fromTime).bind fun providers => providers.find? provider).map
    (PData.get · pPM) = some value

theorem holdsCell_getValueImpl (elem : LookupElem) (pPM : PData.Member)
    (serie : FromTimeSerie F) (fromTime : PTime) (provider : Bytes) (notValidValue : F)
    (found : (elem.getValueImpl pPM serie fromTime provider notValidValue).value ≠
      notValidValue) :
    HoldsCell serie pPM (elem.getValueImpl pPM serie fromTime provider notValidValue).fromTime
      (elem.getValueImpl pPM serie fromTime provider notValidValue).value := by
  revert found
  rw [getValueImpl_eq]
  cases searched : elem.search pPM serie fromTime provider notValidValue with
  | none => exact fun found => absurd rfl found
  | some cell =>
      intro found
      rw [search_eq_findSome?, FirstMatch.findSome?_lexicographic] at searched
      rcases searched with ⟨key, position, candidate, _⟩
      rcases isMatch_iff_isCandidate.mp candidate with ⟨rfl, first⟩
      exact ⟨cell.2.1, first.cell⟩

theorem holdsCell_getValueSameProvider (elem : LookupElem) (pPM : PData.Member)
    (serie : FromTimeSerie F) (notValidValue : F) (providerName : Bytes) (items : ProviderList)
    (current : Lookup F) (missing : current.value = notValidValue)
    (found : (elem.getValueSameProvider pPM serie notValidValue providerName items
      current).value ≠ notValidValue) :
    HoldsCell serie pPM
      (elem.getValueSameProvider pPM serie notValidValue providerName items current).fromTime
      (elem.getValueSameProvider pPM serie notValidValue providerName items current).value := by
  induction items generalizing current with
  | nil => exact absurd missing found
  | cons item rest ih =>
      revert found
      simp only [getValueSameProvider]
      split
      · exact ih current missing
      · split
        next valid => exact fun _ => holdsCell_getValueImpl _ _ _ _ _ _ valid
        next again => exact ih _ (not_not.mp again)

/-- A value that is found is in a cell that is valid from the time of the lookup. -/
theorem holdsCell_getValue (elem : LookupElem) (pPM : PData.Member) (serie : FromTimeSerie F)
    (fromTime : PTime) (provider : Bytes) (notValidValue : F)
    (myCleanProvider myCleanFromTime : Bool)
    (found : (elem.getValue pPM serie fromTime provider notValidValue myCleanProvider
      myCleanFromTime).value ≠ notValidValue) :
    HoldsCell serie pPM
      (elem.getValue pPM serie fromTime provider notValidValue myCleanProvider
        myCleanFromTime).fromTime
      (elem.getValue pPM serie fromTime provider notValidValue myCleanProvider
        myCleanFromTime).value := by
  have first := elem.holdsCell_getValueImpl pPM serie fromTime provider notValidValue
  revert found
  simp only [getValue]
  generalize elem.getValueImpl pPM serie fromTime provider notValidValue = current at first ⊢
  have second : ∀ lookup : Lookup F,
      lookup = (if current.value = notValidValue ∧ !current.provider.isEmpty ∧ !myCleanProvider
        then elem.getValueSameProvider pPM serie notValidValue (providerPrefix current.provider)
          elem.priority current
        else current) →
      lookup.value ≠ notValidValue → HoldsCell serie pPM lookup.fromTime lookup.value := by
    intro lookup same
    rw [same]
    split
    next again => exact holdsCell_getValueSameProvider _ _ _ _ _ _ _ again.1
    next => exact first
  generalize (if current.value = notValidValue ∧ !current.provider.isEmpty ∧ !myCleanProvider
    then elem.getValueSameProvider pPM serie notValidValue (providerPrefix current.provider)
      elem.priority current
    else current) = tried at second ⊢
  split
  · split
    · exact holdsCell_getValueImpl _ _ _ _ _ _
    · exact second tried rfl
  · exact second tried rfl

theorem holdsCell_hourlyValue {F : Type} [Floats F] [DecidableEq F] (elem : LookupElem)
    (pPM : PData.Member) (serie : FromTimeSerie F) {fromTime : PTime}
    (normal : fromTime.isSpecial = false) (provider : Bytes) (tryHard : Bool)
    (found : (elem.hourlyValue pPM serie fromTime provider tryHard).value ≠ FLT_MAX) :
    HoldsCell serie pPM fromTime
      (elem.hourlyValue pPM serie fromTime provider tryHard).value := by
  have holds := elem.holdsCell_getValue pPM serie fromTime provider FLT_MAX tryHard false found
  have sameTime := elem.fromTime_hourlyValue pPM serie normal provider tryHard
  rw [show (elem.getValue pPM serie fromTime provider FLT_MAX tryHard false).fromTime = fromTime
    from sameTime] at holds
  exact holds

end LookupElem

namespace LocationElem

/-! ## The value -/

section Run

variable {F : Type} [Floats F] [DecidableEq F] [DecidableLT F]

/-- The value that is accumulated to the time of the cursor, from any time. -/
def accumulatedNow (elem : LocationElem F) (serie : FromTimeSerie F) (tryHard : Bool) :
    Found F :=
  (elem.toLookupElem.getValue .PRECIP_ACCUMULATED serie default elem.forecastProvider FLT_MAX
    tryHard true).found

/-- A value that is accumulated to the time of an entry, unless it is missing. -/
def accumulatedTo (elem : LocationElem F) (now : Found F) (serie : FromTimeSerie F)
    (fromTime : PTime) (tryHard : Bool) : Option F :=
  let back := elem.hourlyValue .PRECIP_ACCUMULATED serie fromTime now.provider tryHard
  if back.value = FLT_MAX then none else some back.value

/-- The value at the start of the period, accumulated from any time, that the backward search
comes to. -/
def totalBack (elem : LocationElem F) (now : Found F) (hoursBack : ℤ) (tryHard : Bool) :
    Option F :=
  (searchBack elem.timeSerie (elem.time.sub (PTime.hours hoursBack)) elem.itTimeSerie).bind
    fun entry =>
      if entry.1 ≠ elem.time.sub (PTime.hours hoursBack) then none
      else elem.accumulatedTo now entry.2 default tryHard

/-- The value at the start of the period that is accumulated from the same time. -/
def cellBack (elem : LocationElem F) (now : Found F) (hoursBack : ℤ) (tryHard : Bool) :
    Option F :=
  (elem.find (elem.time.sub (PTime.hours hoursBack))).head?.bind fun entry =>
    elem.accumulatedTo now entry.2 now.fromTime tryHard

/-- The value and `backTime_` of `PRECIP_N`. -/
def accumulatedPrecip (elem : LocationElem F) (hoursBack : ℤ) (tryHard : Bool) : F × PTime :=
  ((PRECIP_N hoursBack tryHard).run elem).1

/-- The difference of two accumulated values, which is not negative. -/
def accumulatedDif (now back : F) : F :=
  Floats.max (lit 0) (Floats.max (lit 0) now - Floats.max (lit 0) back)

variable {elem : LocationElem F} {hoursBack : ℤ} {tryHard : Bool} {serie : FromTimeSerie F}

omit [DecidableLT F] in
theorem run_accumulatedNow (elem : LocationElem F) (serie : FromTimeSerie F) (tryHard : Bool) :
    ∃ after, (lookupMember .PRECIP_ACCUMULATED .forecastProvider serie default tryHard
        true).run elem =
        pure (((elem.accumulatedNow serie tryHard).value,
          (elem.accumulatedNow serie tryHard).fromTime), after) ∧
      SearchesAs elem.toLookupElem (elem.accumulatedNow serie tryHard).provider after :=
  ⟨_, rfl, rfl, rfl⟩

theorem accumulatedPrecip_of_missing (atCursor : elem.current? = some (elem.time, serie))
    (missing : (elem.accumulatedNow serie tryHard).value = FLT_MAX ∨
      (elem.accumulatedNow serie tryHard).fromTime.isSpecial = true) :
    elem.accumulatedPrecip hoursBack tryHard = (FLT_MAX, default) := by
  rcases elem.run_accumulatedNow serie tryHard with ⟨after, runNow, _⟩
  simp only [accumulatedPrecip, PRECIP_N, StateT.run_bind, StateT.run_get, pure_bind, atCursor,
    runNow, if_pos missing]
  rfl

/-- The result of comparing with a value at the start of the period. -/
def comparedWith (elem : LocationElem F) (hoursBack : ℤ) (now : Found F) (back : Option F) :
    F × PTime :=
  back.elim (FLT_MAX, default) fun back =>
    (accumulatedDif now.value back, elem.periodStart hoursBack)

/-- A value that is accumulated from its own time is compared with the one at the start of the
period, from any time. -/
theorem accumulatedPrecip_of_ownTime (atCursor : elem.current? = some (elem.time, serie))
    (found : ¬((elem.accumulatedNow serie tryHard).value = FLT_MAX ∨
      (elem.accumulatedNow serie tryHard).fromTime.isSpecial = true))
    (ownTime : (elem.accumulatedNow serie tryHard).fromTime = elem.time) :
    elem.accumulatedPrecip hoursBack tryHard =
      elem.comparedWith hoursBack (elem.accumulatedNow serie tryHard)
        (elem.totalBack (elem.accumulatedNow serie tryHard) hoursBack tryHard) := by
  rcases elem.run_accumulatedNow serie tryHard with ⟨after, runNow, searches⟩
  simp only [accumulatedPrecip, PRECIP_N, StateT.run_bind, StateT.run_get, pure_bind, atCursor,
    runNow, if_neg found, if_pos ownTime, totalBack]
  cases searchBack elem.timeSerie (elem.time.sub (PTime.hours hoursBack)) elem.itTimeSerie with
  | none => rfl
  | some entry =>
      rcases entry with ⟨backTotime, backSerie⟩
      rcases searches.run_lookupMember .PRECIP_ACCUMULATED backSerie default tryHard with
        ⟨afterBack, runBack, _⟩
      by_cases elsewhere : backTotime ≠ elem.time.sub (PTime.hours hoursBack)
      · simp only [if_pos elsewhere, Option.bind_some]
        rfl
      · simp only [if_neg elsewhere, StateT.run_bind, runBack, pure_bind, Option.bind_some,
          accumulatedTo]
        split
        · rfl
        · rfl

/-- A value that is accumulated over whole hours is not compared. -/
theorem accumulatedPrecip_of_spans (atCursor : elem.current? = some (elem.time, serie))
    (found : ¬((elem.accumulatedNow serie tryHard).value = FLT_MAX ∨
      (elem.accumulatedNow serie tryHard).fromTime.isSpecial = true))
    (notOwn : (elem.accumulatedNow serie tryHard).fromTime ≠ elem.time)
    (spans : hoursBetween elem.time (elem.accumulatedNow serie tryHard).fromTime =
      some hoursBack) :
    elem.accumulatedPrecip hoursBack tryHard =
      (Floats.max (lit 0) (elem.accumulatedNow serie tryHard).value,
        elem.periodStart hoursBack) := by
  rcases elem.run_accumulatedNow serie tryHard with ⟨after, runNow, _⟩
  simp only [accumulatedPrecip, PRECIP_N, StateT.run_bind, StateT.run_get, pure_bind, atCursor,
    runNow, if_neg found, if_neg notOwn, if_pos spans]
  rfl

/-- Any other value is compared with the one at the start of the period, from the same
time. -/
theorem accumulatedPrecip_of_longer (atCursor : elem.current? = some (elem.time, serie))
    (found : ¬((elem.accumulatedNow serie tryHard).value = FLT_MAX ∨
      (elem.accumulatedNow serie tryHard).fromTime.isSpecial = true))
    (notOwn : (elem.accumulatedNow serie tryHard).fromTime ≠ elem.time)
    (longer : hoursBetween elem.time (elem.accumulatedNow serie tryHard).fromTime ≠
      some hoursBack) :
    elem.accumulatedPrecip hoursBack tryHard =
      elem.comparedWith hoursBack (elem.accumulatedNow serie tryHard)
        (elem.cellBack (elem.accumulatedNow serie tryHard) hoursBack tryHard) := by
  rcases elem.run_accumulatedNow serie tryHard with ⟨after, runNow, searches⟩
  simp only [accumulatedPrecip, PRECIP_N, StateT.run_bind, StateT.run_get, pure_bind, atCursor,
    runNow, if_neg found, if_neg notOwn, if_neg longer, cellBack]
  cases (elem.find (elem.time.sub (PTime.hours hoursBack))).head? with
  | none => rfl
  | some entry =>
      rcases searches.run_lookupMember .PRECIP_ACCUMULATED entry.2
        (elem.accumulatedNow serie tryHard).fromTime tryHard with ⟨afterBack, runBack, _⟩
      simp only [StateT.run_bind, runBack, pure_bind, Option.bind_some, accumulatedTo]
      split
      · rfl
      · rfl

end Run

/-! ## What has fallen in the period -/

section Fallen

/-- The values that are accumulated from an earlier time tell what has fallen since then. -/
structure Accumulates (elem : LocationElem ℚ) (fallen : PTime → ℚ) : Prop where
  monotone : Monotone fun microseconds => fallen (.ticks microseconds)
  nonneg : ∀ time, 0 ≤ fallen time
  cells : ∀ totime serie, (totime, serie) ∈ elem.timeSerie → ∀ fromTime, fromTime < totime →
    ∀ value, LookupElem.HoldsCell serie .PRECIP_ACCUMULATED fromTime value →
      value ≠ FLT_MAX → value = fallen totime - fallen fromTime

/-- What has fallen in the period of a cursor. -/
def fallenIn (elem : LocationElem ℚ) (fallen : PTime → ℚ) (hoursBack : ℤ) : ℚ :=
  fallen elem.time - fallen (elem.periodStart hoursBack)

/-- The value is what has fallen in the period, and `backTime_` is its start. -/
structure MeasuresPeriod (elem : LocationElem ℚ) (fallen : PTime → ℚ) (hoursBack : ℤ)
    (tryHard : Bool) : Prop where
  value : (elem.accumulatedPrecip hoursBack tryHard).1 ≠ FLT_MAX →
    (elem.accumulatedPrecip hoursBack tryHard).1 = elem.fallenIn fallen hoursBack
  backTime : (elem.accumulatedPrecip hoursBack tryHard).1 ≠ FLT_MAX →
    (elem.accumulatedPrecip hoursBack tryHard).2 = elem.periodStart hoursBack

/-- The values that are compared tell what has fallen in the period, unless their difference
is the missing value. -/
def Tells (elem : LocationElem ℚ) (fallen : PTime → ℚ) (hoursBack : ℤ) (now : Found ℚ)
    (back : Option ℚ) : Prop :=
  ∀ value ∈ back, accumulatedDif now.value value ≠ FLT_MAX →
    accumulatedDif now.value value = elem.fallenIn fallen hoursBack

/-- The cells tell what has fallen in the period.  A cell over the whole hours of the period
may begin before it, and nothing is known of a cell that is not accumulated from an earlier
time. -/
structure CellsTell (elem : LocationElem ℚ) (fallen : PTime → ℚ) (hoursBack : ℤ)
    (tryHard : Bool) (now : Found ℚ) : Prop where
  spans : hoursBetween elem.time now.fromTime = some hoursBack →
    fallen now.fromTime = fallen (elem.periodStart hoursBack)
  ownTime : now.fromTime = elem.time →
    elem.Tells fallen hoursBack now (elem.totalBack now hoursBack tryHard)
  later : hoursBetween elem.time now.fromTime ≠ some hoursBack → now.fromTime ≠ elem.time →
    elem.periodStart hoursBack < now.fromTime →
    elem.Tells fallen hoursBack now (elem.cellBack now hoursBack tryHard)

variable {elem : LocationElem ℚ} {fallen : PTime → ℚ} {hoursBack : ℤ} {tryHard : Bool}
variable {serie : FromTimeSerie ℚ}

theorem max_zero_eq {value : ℚ} (nonneg : 0 ≤ value) : Floats.max (lit 0) value = value := by
  rw [Floats.max]
  split
  next => rfl
  next notPositive => exact le_antisymm nonneg (not_lt.mp notPositive)

theorem accumulatedDif_of_le {now back : ℚ} (nonneg : 0 ≤ back) (less : back ≤ now) :
    accumulatedDif now back = now - back := by
  rw [accumulatedDif, max_zero_eq (nonneg.trans less), max_zero_eq nonneg,
    max_zero_eq (sub_nonneg.mpr less)]

theorem accumulatedDif_self (now : ℚ) : accumulatedDif now now = 0 := by
  rw [accumulatedDif, sub_self]
  exact max_zero_eq le_rfl

/-- The value at the time of the cursor is what has fallen since it was accumulated. -/
theorem Accumulates.now (accumulates : elem.Accumulates fallen)
    (atCursor : elem.current? = some (elem.time, serie))
    (found : (elem.accumulatedNow serie tryHard).value ≠ FLT_MAX)
    (earlier : (elem.accumulatedNow serie tryHard).fromTime < elem.time) :
    (elem.accumulatedNow serie tryHard).value =
      fallen elem.time - fallen (elem.accumulatedNow serie tryHard).fromTime :=
  accumulates.cells elem.time serie (List.mem_of_getElem? atCursor) _ earlier _
    (elem.toLookupElem.holdsCell_getValue _ _ _ _ _ _ _ found) found

/-- The value at the start of the period is what has fallen since it was accumulated. -/
theorem Accumulates.cellBack (accumulates : elem.Accumulates fallen) {now : Found ℚ} {back : ℚ}
    (normal : now.fromTime.isSpecial = false)
    (earlier : now.fromTime < elem.periodStart hoursBack)
    (found : elem.cellBack now hoursBack tryHard = some back) :
    back = fallen (elem.periodStart hoursBack) - fallen now.fromTime := by
  rcases Option.bind_eq_some_iff.mp found with ⟨entry, first, accumulated⟩
  have inSeries : entry ∈ elem.timeSerie :=
    (List.dropWhile_subset _) (List.mem_of_head? first)
  have atStart : entry.1 = elem.periodStart hoursBack := by
    have kept := List.head?_dropWhile_not
      (fun entry : PTime × FromTimeSerie ℚ => decide (entry.1 ≠ elem.periodStart hoursBack))
      elem.timeSerie
    rw [show (elem.timeSerie.dropWhile fun entry => decide (entry.1 ≠
      elem.periodStart hoursBack)).head? = some entry from first] at kept
    simpa using kept
  simp only [accumulatedTo] at accumulated
  split at accumulated
  · cases accumulated
  next valid =>
    rw [← Option.some.inj accumulated, ← atStart]
    rw [← atStart] at earlier
    exact accumulates.cells entry.1 entry.2 inSeries _ earlier _
      (elem.toLookupElem.holdsCell_hourlyValue _ _ normal _ _ valid) valid

/-- The difference of two values that are accumulated from the same earlier time is what has
fallen in the period. -/
theorem Accumulates.dif (accumulates : elem.Accumulates fallen) (atLeast : 1 ≤ hoursBack)
    {fromTime : PTime} (normal : fromTime.isSpecial = false)
    (earlier : fromTime < elem.periodStart hoursBack) :
    accumulatedDif (fallen elem.time - fallen fromTime)
        (fallen (elem.periodStart hoursBack) - fallen fromTime) =
      elem.fallenIn fallen hoursBack := by
  rw [fallenIn]
  revert earlier
  rw [periodStart]
  cases elem.time with
  | ticks last =>
      intro earlier
      cases fromTime with
      | ticks first =>
          have before : first ≤ last - PTime.hours hoursBack :=
            (PTime.ticks_lt_ticks.mp earlier).le
          have back : last - PTime.hours hoursBack ≤ last := by
            rw [PTime.hours]
            omega
          have fallenBack := accumulates.monotone before
          have fallenNow := accumulates.monotone back
          rw [PTime.sub, accumulatedDif_of_le (sub_nonneg.mpr fallenBack)
            (sub_le_sub_right fallenNow _), sub_sub_sub_cancel_right]
      | _ => cases normal
  | _ =>
      intro _
      exact (accumulatedDif_self _).trans (sub_self _).symm

/-- A time that lies whole hours back is earlier. -/
theorem lt_of_hoursBetween (atLeast : 1 ≤ hoursBack) {totime fromTime : PTime}
    (spans : hoursBetween totime fromTime = some hoursBack) : fromTime < totime := by
  cases totime with
  | ticks last =>
      cases fromTime with
      | ticks first =>
          rw [PTime.ticks_lt_ticks]
          by_contra notEarlier
          have hour : 0 ≤ PTime.hours 1 := by decide
          have inverted : 0 ≤ (first - last).tdiv (PTime.hours 1) :=
            Int.tdiv_nonneg (by omega) hour
          have hours : (last - first).tdiv (PTime.hours 1) = hoursBack := Option.some.inj spans
          rw [← Int.neg_sub, Int.neg_tdiv] at hours
          omega
      | _ => cases spans
  | _ => cases spans

/-- A value over whole hours is what has fallen in the period exactly when nothing has fallen
between the two starts. -/
theorem Accumulates.spans_iff (accumulates : elem.Accumulates fallen) (atLeast : 1 ≤ hoursBack)
    {fromTime : PTime} (spans : hoursBetween elem.time fromTime = some hoursBack) :
    Floats.max (lit 0) (fallen elem.time - fallen fromTime) = elem.fallenIn fallen hoursBack ↔
      fallen fromTime = fallen (elem.periodStart hoursBack) := by
  have ordered : fallen fromTime ≤ fallen elem.time := by
    have earlier := lt_of_hoursBetween atLeast spans
    revert spans earlier
    cases elem.time with
    | ticks last =>
        cases fromTime with
        | ticks first =>
            intro _ earlier
            exact accumulates.monotone (PTime.ticks_lt_ticks.mp earlier).le
        | _ =>
            intro spans
            cases spans
    | _ =>
        intro spans
        cases spans
  rw [max_zero_eq (sub_nonneg.mpr ordered), fallenIn, sub_right_inj]

theorem hoursBetween_periodStart
    (normal : (elem.periodStart hoursBack).isSpecial = false) :
    hoursBetween elem.time (elem.periodStart hoursBack) = some hoursBack := by
  revert normal
  rw [periodStart]
  cases elem.time with
  | ticks last =>
      have positive : PTime.hours 1 ≠ 0 := by decide
      intro _
      rw [PTime.sub, hoursBetween, sub_sub_cancel,
        show PTime.hours hoursBack = hoursBack * PTime.hours 1 from rfl,
        Int.mul_tdiv_cancel _ positive]
  | _ =>
      intro normal
      cases normal

theorem periodStart_le_time (atLeast : 1 ≤ hoursBack) :
    elem.periodStart hoursBack ≤ elem.time := by
  rw [periodStart]
  cases elem.time with
  | ticks last =>
      simp only [PTime.sub, PTime.ticks_le_ticks, PTime.hours]
      omega
  | _ => exact le_refl _

/-- What is compared measures the period exactly when the values that are compared tell what
has fallen in it. -/
theorem measuresPeriod_iff_tells {now : Found ℚ} {back : Option ℚ}
    (compares : elem.accumulatedPrecip hoursBack tryHard = elem.comparedWith hoursBack now back) :
    elem.MeasuresPeriod fallen hoursBack tryHard ↔ elem.Tells fallen hoursBack now back := by
  cases back with
  | none =>
      constructor
      · intro _ value none
        cases none
      · intro _
        have missing {holds : Prop} : (elem.accumulatedPrecip hoursBack tryHard).1 ≠ FLT_MAX →
            holds := fun value => absurd (congrArg Prod.fst compares) value
        exact ⟨missing, missing⟩
  | some back =>
      constructor
      · intro measures value same valid
        cases same
        have result := measures.value
        rw [compares] at result
        exact result valid
      · intro tells
        constructor
        · rw [compares]
          exact tells back rfl
        · intro _
          rw [compares]
          rfl

theorem max_zero_ne {value : ℚ} (valid : value ≠ FLT_MAX) :
    Floats.max (lit 0) value ≠ FLT_MAX := by
  rw [Floats.max]
  split
  next => exact valid
  next => decide +kernel

section Cases

variable {now : Found ℚ}

/-- A value over whole hours measures the period when it tells what has fallen in it. -/
theorem measuresPeriod_of_spans_iff (valid : now.value ≠ FLT_MAX)
    (result : elem.accumulatedPrecip hoursBack tryHard =
      (Floats.max (lit 0) now.value, elem.periodStart hoursBack)) :
    elem.MeasuresPeriod fallen hoursBack tryHard ↔
      Floats.max (lit 0) now.value = elem.fallenIn fallen hoursBack := by
  constructor
  · intro measures
    have amount := measures.value
    rw [result] at amount
    exact amount (max_zero_ne valid)
  · intro amount
    constructor
    · rw [result]
      exact fun _ => amount
    · rw [result]
      exact fun _ => rfl

/-- A cell over whole hours tells what has fallen when nothing has before the period. -/
theorem cellsTell_of_spans_iff (accumulates : elem.Accumulates fallen)
    (atLeast : 1 ≤ hoursBack)
    (tellsNow : now.fromTime < elem.time → now.value = fallen elem.time - fallen now.fromTime)
    (spans : hoursBetween elem.time now.fromTime = some hoursBack) :
    elem.CellsTell fallen hoursBack tryHard now ↔
      Floats.max (lit 0) now.value = elem.fallenIn fallen hoursBack := by
  have earlier := lt_of_hoursBetween atLeast spans
  have ownTime {holds : Prop} (own : now.fromTime = elem.time) : holds := absurd own earlier.ne
  have longer {holds : Prop} (other : hoursBetween elem.time now.fromTime ≠ some hoursBack) :
      holds := absurd spans other
  rw [tellsNow earlier, accumulates.spans_iff atLeast spans]
  constructor
  · exact fun tells => tells.spans spans
  · exact fun none => ⟨fun _ => none, ownTime, longer⟩

/-- Cells that are accumulated from a time before the period tell what has fallen in it. -/
theorem cellsTell_of_longer_iff (accumulates : elem.Accumulates fallen)
    (atLeast : 1 ≤ hoursBack)
    (tellsNow : now.fromTime < elem.time → now.value = fallen elem.time - fallen now.fromTime)
    (normal : now.fromTime.isSpecial = false) (notOwn : now.fromTime ≠ elem.time)
    (longer : hoursBetween elem.time now.fromTime ≠ some hoursBack) :
    elem.CellsTell fallen hoursBack tryHard now ↔
      elem.Tells fallen hoursBack now (elem.cellBack now hoursBack tryHard) := by
  have spans {holds : Prop} (whole : hoursBetween elem.time now.fromTime = some hoursBack) :
      holds := absurd whole longer
  have ownTime {holds : Prop} (own : now.fromTime = elem.time) : holds := absurd own notOwn
  constructor
  · intro tells
    rcases lt_trichotomy now.fromTime (elem.periodStart hoursBack) with earlier | same | later
    · intro back found _
      rw [accumulates.cellBack normal earlier found,
        tellsNow (earlier.trans_le (periodStart_le_time atLeast))]
      exact accumulates.dif atLeast normal earlier
    · rw [same] at normal longer
      exact absurd (hoursBetween_periodStart normal) longer
    · exact tells.later longer notOwn later
  · intro tells
    exact ⟨spans, ownTime, fun _ _ _ => tells⟩

end Cases

/-- The condition that applies to the branch that is taken. -/
theorem measuresPeriod_iff_cellsTell (accumulates : elem.Accumulates fallen)
    (atLeast : 1 ≤ hoursBack) (atCursor : elem.current? = some (elem.time, serie))
    (value : (elem.accumulatedNow serie tryHard).value ≠ FLT_MAX)
    (normal : (elem.accumulatedNow serie tryHard).fromTime.isSpecial = false) :
    elem.MeasuresPeriod fallen hoursBack tryHard ↔
      elem.CellsTell fallen hoursBack tryHard (elem.accumulatedNow serie tryHard) := by
  have found : ¬((elem.accumulatedNow serie tryHard).value = FLT_MAX ∨
      (elem.accumulatedNow serie tryHard).fromTime.isSpecial = true) := by
    rw [normal]
    simpa using value
  have tellsNow := accumulates.now atCursor value
  by_cases ownTime : (elem.accumulatedNow serie tryHard).fromTime = elem.time
  · rw [measuresPeriod_iff_tells (accumulatedPrecip_of_ownTime atCursor found ownTime)]
    constructor
    · intro tells
      constructor
      · intro spans
        exact absurd ownTime (lt_of_hoursBetween atLeast spans).ne
      · exact fun _ => tells
      · exact fun _ notOwn => absurd ownTime notOwn
    · exact fun tells => tells.ownTime ownTime
  · by_cases spans : hoursBetween elem.time (elem.accumulatedNow serie tryHard).fromTime =
        some hoursBack
    · rw [measuresPeriod_of_spans_iff value
          (accumulatedPrecip_of_spans atCursor found ownTime spans),
        cellsTell_of_spans_iff accumulates atLeast tellsNow spans]
    · rw [measuresPeriod_iff_tells (accumulatedPrecip_of_longer atCursor found ownTime spans),
        cellsTell_of_longer_iff accumulates atLeast tellsNow normal ownTime spans]

/-- The value measures the period exactly when no value is found, it is accumulated from a
special time, or the cells tell what has fallen in the period. -/
theorem measuresPeriod_iff (accumulates : elem.Accumulates fallen) (atLeast : 1 ≤ hoursBack) :
    elem.MeasuresPeriod fallen hoursBack tryHard ↔
      ∀ serie, elem.current? = some (elem.time, serie) →
        (elem.accumulatedNow serie tryHard).value ≠ FLT_MAX →
        (elem.accumulatedNow serie tryHard).fromTime.isSpecial = false →
          elem.CellsTell fallen hoursBack tryHard (elem.accumulatedNow serie tryHard) := by
  constructor
  · intro measures serie atCursor value normal
    exact (measuresPeriod_iff_cellsTell accumulates atLeast atCursor value normal).mp measures
  · intro tells
    by_cases used : ∃ serie, elem.current? = some (elem.time, serie) ∧
        (elem.accumulatedNow serie tryHard).value ≠ FLT_MAX ∧
        (elem.accumulatedNow serie tryHard).fromTime.isSpecial = false
    · rcases used with ⟨serie, atCursor, value, normal⟩
      exact (measuresPeriod_iff_cellsTell accumulates atLeast atCursor value normal).mpr
        (tells serie atCursor value normal)
    · have result : elem.accumulatedPrecip hoursBack tryHard = (FLT_MAX, default) := by
        cases atCursor : elem.current? with
        | none =>
            simp only [accumulatedPrecip, PRECIP_N, StateT.run_bind, StateT.run_get, pure_bind,
              atCursor]
            rfl
        | some entry =>
            have time : elem.time = entry.1 := by simp [LocationElem.time, atCursor]
            have here : elem.current? = some (elem.time, entry.2) := by
              rw [atCursor, time]
            apply accumulatedPrecip_of_missing here
            by_contra valid
            rw [not_or, Bool.not_eq_true] at valid
            exact used ⟨entry.2, here, valid.1, valid.2⟩
      have missing {holds : Prop} : (elem.accumulatedPrecip hoursBack tryHard).1 ≠ FLT_MAX →
          holds := fun value => absurd (congrArg Prod.fst result) value
      exact ⟨missing, missing⟩

end Fallen

/-! ### A period that is not whole hours -/

section HalfHour

/-- A millimetre falls every hour, from the first time on. -/
def steadyRain : PTime → ℚ
  | .ticks microseconds => max 0 (microseconds / 3600000000)
  | _ => 0

/-- One accumulated value, from the first time to a number of minutes later. -/
def accumulatedOver (minutes : ℤ) : LocationElem ℚ :=
  cursorAt
    (DecodePData.storeRows
      [⟨"PRECIP.ACCUMULATED", Bytes.str "arome", .ticks 0, .ticks (minutes * 60000000),
        some (minutes / 60)⟩])
    [⟨Bytes.str "arome", []⟩] 0

/-- The accumulated values of a series, with their times. -/
def accumulatedCells (elem : LocationElem ℚ) : List (PTime × PTime × ℚ) :=
  elem.timeSerie.flatMap fun entry =>
    entry.2.entries.flatMap fun cells =>
      cells.2.entries.map fun cell => (entry.1, cells.1, cell.2.get .PRECIP_ACCUMULATED)

theorem mem_accumulatedCells {elem : LocationElem ℚ} {totime fromTime : PTime}
    {serie : FromTimeSerie ℚ} {value : ℚ} (inSeries : (totime, serie) ∈ elem.timeSerie)
    (holds : LookupElem.HoldsCell serie .PRECIP_ACCUMULATED fromTime value) :
    (totime, fromTime, value) ∈ elem.accumulatedCells := by
  rcases holds with ⟨provider, cell⟩
  rcases Option.map_eq_some_iff.mp cell with ⟨data, stored, rfl⟩
  rcases Option.bind_eq_some_iff.mp stored with ⟨cells, inSerie, inCells⟩
  apply List.mem_flatMap.mpr ⟨_, inSeries, _⟩
  apply List.mem_flatMap.mpr ⟨_, SortedMap.mem_entries_iff.mpr inSerie, _⟩
  exact List.mem_map.mpr ⟨_, SortedMap.mem_entries_iff.mpr inCells, rfl⟩

theorem accumulates_steadyRain {elem : LocationElem ℚ}
    (cells : ∀ cell ∈ elem.accumulatedCells, cell.2.1 < cell.1 → cell.2.2 ≠ FLT_MAX →
      cell.2.2 = steadyRain cell.1 - steadyRain cell.2.1) :
    elem.Accumulates steadyRain := by
  constructor
  · intro earlier later ordered
    apply max_le_max_left
    exact div_le_div_of_nonneg_right (Int.cast_le.mpr ordered) (by norm_num)
  · intro time
    cases time with
    | ticks microseconds => exact le_max_left ..
    | _ => exact le_refl _
  · intro totime serie inSeries fromTime earlier value holds valid
    exact cells _ (mem_accumulatedCells inSeries holds) earlier valid

/-- The one value of six hours tells what has fallen in them. -/
theorem cellsTell_sixHours {serie : FromTimeSerie ℚ}
    (atCursor : (accumulatedOver 360).current? = some ((accumulatedOver 360).time, serie)) :
    (accumulatedOver 360).CellsTell steadyRain 6 false
      ((accumulatedOver 360).accumulatedNow serie false) := by
  have same : serie = ((accumulatedOver 360).current?.map Prod.snd).getD ∅ := by
    rw [atCursor]
    rfl
  have fromTime : ((accumulatedOver 360).accumulatedNow serie false).fromTime = .ticks 0 := by
    rw [same]
    decide +kernel
  have time : (accumulatedOver 360).time = .ticks (PTime.hours 6) := by decide +kernel
  have start : (accumulatedOver 360).periodStart 6 = .ticks 0 := by decide +kernel
  constructor
  · intro _
    rw [fromTime, start]
  · rw [fromTime, time]
    intro own
    cases own
  · rw [fromTime, start]
    exact fun _ _ later => absurd later (lt_irrefl _)

theorem measuresPeriod_sixHours : (accumulatedOver 360).MeasuresPeriod steadyRain 6 false :=
  (measuresPeriod_iff (accumulates_steadyRain (by decide +kernel)) (by decide)).mpr
    fun _ atCursor _ _ => cellsTell_sixHours atCursor

/-- A value over six hours and a half passes for one over six hours. -/
theorem not_measuresPeriod_halfHour :
    (accumulatedOver 390).Accumulates steadyRain ∧
      ¬(accumulatedOver 390).MeasuresPeriod steadyRain 6 false := by
  constructor
  · exact accumulates_steadyRain (by decide +kernel)
  · intro measures
    have amount := measures.value (by decide +kernel)
    revert amount
    decide +kernel

end HalfHour

end LocationElem

end Wdb2ts
