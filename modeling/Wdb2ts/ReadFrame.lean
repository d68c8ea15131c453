import Wdb2ts.Lib.Frame
import Wdb2ts.Lib.Runs
import Wdb2ts.DecodePData
import Wdb2ts.LocationData

/-!
# Reading keeps the time series

The only write of an accessor to the time series is the assignment to the key that it
passes to the lookup.  A lookup sets its from-time only when it was special on entry, and
then to one of the from-times it searched, so the key is kept when it is not special or
when it is the only from-time of its entry.
-/

namespace Wdb2ts

/-! ## The from-time of a lookup -/

namespace LookupElem

variable {F : Type} [DecidableEq F]

/-- The from-time after a lookup: the one on entry, or one of the series when that was
special. -/
def FromTimeOf (serie : FromTimeSerie F) (before after : PTime) : Prop :=
  after = before ∨ before.isSpecial = true ∧ after ∈ serie.keys

theorem fromTimeOf_getValueImpl (elem : LookupElem) (pPM : PData.Member)
    (serie : FromTimeSerie F) (fromTime : PTime) (provider : Bytes) (notValidValue : F) :
    FromTimeOf serie fromTime
      (elem.getValueImpl pPM serie fromTime provider notValidValue).fromTime := by
  rw [getValueImpl_eq]
  cases searched : elem.search pPM serie fromTime provider notValidValue with
  | none => exact Or.inl rfl
  | some found =>
      rw [search_eq_findSome?, FirstMatch.findSome?_lexicographic] at searched
      rcases searched with ⟨key, position, candidate, _⟩
      rcases isMatch_iff_isCandidate.mp candidate with ⟨rfl, first⟩
      cases special : fromTime.isSpecial with
      | false => exact Or.inl (first.time special)
      | true =>
          apply Or.inr
          constructor
          · exact special
          · rcases Option.map_eq_some_iff.mp first.cell with ⟨data, stored, _⟩
            rcases Option.bind_eq_some_iff.mp stored with ⟨providers, inSerie, _⟩
            exact SortedMap.mem_keys_iff.mpr ⟨providers, inSerie⟩

omit [DecidableEq F] in
theorem FromTimeOf.trans {serie : FromTimeSerie F} {before middle after : PTime}
    (first : FromTimeOf serie before middle) (second : FromTimeOf serie middle after) :
    FromTimeOf serie before after := by
  rcases first with rfl | ⟨special, inSerie⟩
  · exact second
  · rcases second with rfl | ⟨_, found⟩
    · exact Or.inr ⟨special, inSerie⟩
    · exact Or.inr ⟨special, found⟩

theorem fromTimeOf_getValueSameProvider (elem : LookupElem) (pPM : PData.Member)
    (serie : FromTimeSerie F) (notValidValue : F) (providerName : Bytes)
    (items : ProviderList) (current : Lookup F) :
    FromTimeOf serie current.fromTime
      (elem.getValueSameProvider pPM serie notValidValue providerName items current).fromTime := by
  induction items generalizing current with
  | nil => exact Or.inl rfl
  | cons item rest ih =>
      simp only [getValueSameProvider]
      split
      · exact ih current
      · split
        · apply fromTimeOf_getValueImpl
        · apply FromTimeOf.trans _ (ih _)
          apply fromTimeOf_getValueImpl

/-- Without the permission to clean the from-time, it is kept or set to one that was
searched. -/
theorem fromTimeOf_getValue (elem : LookupElem) (pPM : PData.Member)
    (serie : FromTimeSerie F) (fromTime : PTime) (provider : Bytes) (notValidValue : F)
    (myCleanProvider : Bool) :
    FromTimeOf serie fromTime
      (elem.getValue pPM serie fromTime provider notValidValue myCleanProvider
        false).fromTime := by
  have first := elem.fromTimeOf_getValueImpl pPM serie fromTime provider notValidValue
  simp only [getValue, Bool.false_eq_true, if_false, Bool.or_false]
  generalize elem.getValueImpl pPM serie fromTime provider notValidValue = current at *
  split
  · have second := elem.fromTimeOf_getValueSameProvider pPM serie notValidValue
      (providerPrefix current.provider) elem.priority current
    generalize elem.getValueSameProvider pPM serie notValidValue
      (providerPrefix current.provider) elem.priority current = result at *
    split
    · split
      · exact (first.trans second).trans (fromTimeOf_getValueImpl _ _ _ _ _ _)
      · exact first.trans second
    · exact first.trans second
  · split
    · split
      · exact first.trans (fromTimeOf_getValueImpl _ _ _ _ _ _)
      · exact first
    · exact first

end LookupElem

/-! ## Accessors -/

namespace LocationElem

open Frame

variable {F : Type}

/-- The time series and the position of the cursor. -/
def view (elem : LocationElem F) : List (PTime × FromTimeSerie F) × ℕ :=
  (elem.timeSerie, elem.itTimeSerie)

/-- The key the cursor is at is not special, or it is the only from-time of its entry. -/
def KeyIsSafe (cursor : List (PTime × FromTimeSerie F) × ℕ) : Prop :=
  ∀ key serie, cursor.1[cursor.2]? = some (key, serie) →
    key.isSpecial = false ∨ ∀ fromTime ∈ serie.keys, fromTime = key

/-- The accessor keeps the time series and the cursor, at a safe key. -/
abbrev KeepsSafe {α : Type} (accessor : Access F α) : Prop := Keeps view KeyIsSafe accessor

/-- The accessor keeps the time series and the cursor. -/
abbrev KeepsAlways {α : Type} (accessor : Access F α) : Prop :=
  Keeps view (fun _ => True) accessor

theorem KeepsAlways.safe {α : Type} {accessor : Access F α} (keeps : KeepsAlways accessor) :
    KeepsSafe accessor :=
  fun elem _ => keeps elem trivial

theorem view_setProvider (elem : LocationElem F) (member : ProviderMember) (provider : Bytes) :
    (elem.setProvider member provider).view = elem.view := by
  cases member <;> rfl

/-- Assigning the key the value it has changes nothing. -/
theorem view_setKey_self (elem : LocationElem F) {key : PTime} {serie : FromTimeSerie F}
    (atCursor : elem.current? = some (key, serie)) : (elem.setKey key).view = elem.view := by
  have same : elem.timeSerie.modify elem.itTimeSerie (fun entry => (key, entry.2)) =
      elem.timeSerie := by
    apply List.ext_getElem?
    intro position
    rw [List.getElem?_modify]
    split
    next here =>
      subst here
      rw [show elem.timeSerie[elem.itTimeSerie]? = _ from atCursor]
      rfl
    next => exact Option.map_id'
  simp [view, setKey, same]

theorem keeps_restoreForecastProvider (provider : Bytes) :
    KeepsAlways (restoreForecastProvider (F := F) provider) := by
  apply keeps_modify
  intro elem
  split
  · rfl
  · rfl

section Lookups

variable [FloatLimits F] [DecidableEq F]

theorem keeps_lookup (pPM : PData.Member) (serie : FromTimeSerie F) (fromTime : PTime)
    (provider : Bytes) (tryHard cleanFromTime : Bool) :
    KeepsAlways (lookup pPM serie fromTime provider tryHard cleanFromTime) := by
  intro elem _
  rfl

theorem keeps_lookupMember (pPM : PData.Member) (member : ProviderMember)
    (serie : FromTimeSerie F) (fromTime : PTime) (tryHard cleanFromTime : Bool) :
    KeepsAlways (lookupMember pPM member serie fromTime tryHard cleanFromTime) := by
  intro elem _
  exact view_setProvider _ member _

/-- The lookup that may assign to the key. -/
theorem keeps_lookupAtKey (pPM : PData.Member) (provider : Bytes) (tryHard : Bool) :
    KeepsSafe (lookupAtKey (F := F) pPM provider tryHard) := by
  intro elem isSafe
  cases atCursor : elem.current? with
  | none =>
      simp only [lookupAtKey, StateT.run_bind, StateT.run_get, pure_bind, atCursor]
      rfl
  | some entry =>
      rcases entry with ⟨key, serie⟩
      have after := elem.fromTimeOf_getValue pPM serie key provider FLT_MAX tryHard
      have same : (elem.getValue pPM serie key provider FLT_MAX tryHard false).fromTime = key := by
        rcases after with equal | ⟨special, inSerie⟩
        · exact equal
        · rcases isSafe key serie atCursor with normal | only
          · rw [normal] at special
            cases special
          · exact only _ inSerie
      have final : ((lookupAtKey pPM provider tryHard).run elem).2 =
          { elem with
            lastUsedProvider_ := (elem.getValue pPM serie key provider FLT_MAX tryHard
              false).lastUsedProvider_ }.setKey
            (elem.getValue pPM serie key provider FLT_MAX tryHard false).fromTime := by
        simp only [lookupAtKey, StateT.run_bind, StateT.run_get, pure_bind, atCursor]
        rfl
      rw [final, same]
      exact view_setKey_self { elem with lastUsedProvider_ := _ } atCursor

theorem keeps_value (pPM : PData.Member) (member : ProviderMember) (tryHard : Bool) :
    KeepsSafe (value (F := F) pPM member tryHard) := by
  apply keeps_get.bind
  intro elem
  apply (keeps_lookupAtKey pPM (elem.getProvider member) tryHard).bind
  intro found
  apply (keeps_modify fun elem => view_setProvider elem member found.provider).bind
  intro _
  exact keeps_pure found.value

theorem keeps_waveValue (pPM : PData.Member) (param : Bytes) (tryHard : Bool) :
    KeepsSafe (waveValue (F := F) pPM param tryHard) := by
  apply keeps_get.bind
  intro elem
  apply keeps_ite
  · exact keeps_pure FLT_MAX
  · exact keeps_value pPM .oceanProvider_ tryHard

theorem keeps_periodValue (pPM : PData.Member) (hoursBack : ℤ) (tryHard : Bool) :
    KeepsAlways (periodValue (F := F) pPM hoursBack tryHard) := by
  apply keeps_get.bind
  intro elem
  cases elem.current? with
  | none => exact keeps_pure FLT_MAX
  | some entry => exact (keeps_lookupMember _ _ _ _ _ _).map Prod.fst

theorem keeps_TA (tryHard : Bool) : KeepsSafe (TA (F := F) tryHard) := by
  apply (keeps_value _ _ _).bind
  intro t2m
  apply keeps_get.bind
  intro elem
  apply (keeps_value _ _ _).bind
  intro t2m_land
  apply keeps_ite
  · exact keeps_pure t2m_land
  · apply Keeps.bind
    · apply keeps_modify
      intro elem
      rfl
    · intro _
      exact keeps_pure t2m

theorem keeps_extremeTemperature (pPM : PData.Member) (hours : ℤ) (tryHard : Bool) :
    KeepsSafe (extremeTemperature (F := F) pPM hours tryHard) := by
  apply keeps_get.bind
  intro elem
  cases elem.current? with
  | none => exact keeps_pure FLT_MAX
  | some entry =>
      apply keeps_ite
      · apply (keeps_lookupMember _ _ _ _ _ _).safe.bind
        intro found
        apply keeps_ite
        · exact keeps_value pPM .forecastProvider tryHard
        · exact keeps_pure found.1
      · exact keeps_pure FLT_MAX

theorem keeps_thunderProbability (tryHard : Bool) :
    KeepsSafe (thunderProbability (F := F) tryHard) := by
  apply keeps_get.bind
  intro elem
  apply keeps_ite
  · exact keeps_pure FLT_MAX
  · exact keeps_value .thunderProability .forecastProvider tryHard

theorem keeps_iceingIndex (tryHard : Bool) (provider : Bytes) :
    KeepsSafe (iceingIndex (F := F) tryHard provider) := by
  apply keeps_ite
  · exact keeps_value .iceingIndex .oceanProvider_ tryHard
  · exact (keeps_lookupAtKey .iceingIndex provider tryHard).map Lookup.value

theorem keeps_symbol_PROBABILITY (fromTime : PTime) (tryHard : Bool) :
    KeepsAlways (symbol_PROBABILITY (F := F) fromTime tryHard) := by
  apply keeps_get.bind
  intro elem
  cases elem.current? with
  | none => exact keeps_pure (FLT_MAX, fromTime)
  | some entry =>
      apply (keeps_lookup _ _ _ _ _ _).bind
      intro found
      apply keeps_ite
      · apply Keeps.bind
        · apply keeps_modify
          intro elem
          rfl
        · intro _
          exact keeps_pure _
      · exact keeps_pure _

theorem keeps_seaIcePresence (usedProvider useProvider : Bytes) :
    KeepsAlways (seaIcePresence (F := F) usedProvider useProvider) :=
  keeps_get.bind fun _ => keeps_pure _

omit [DecidableEq F] in
theorem keeps_landcover (provider : Bytes) : KeepsAlways (landcover (F := F) provider) := by
  apply keeps_get.bind
  intro elem
  cases elem.constantField elem.epoch with
  | none => exact keeps_pure FLT_MIN
  | some cells => exact keeps_pure _

end Lookups

section Computations

variable [Floats F] [DecidableEq F]

theorem keeps_symbol (tryHard : Bool) : KeepsAlways (symbol (F := F) tryHard) := by
  apply keeps_get.bind
  intro elem
  cases elem.current? with
  | none => exact keeps_pure (INT_MAX, default)
  | some entry =>
      apply (keeps_lookup _ _ _ _ _ _).bind
      intro found
      apply keeps_ite
      · exact keeps_pure (INT_MAX, found.fromTime)
      · apply Keeps.bind
        · apply keeps_modify
          intro elem
          rfl
        · intro _
          exact keeps_pure _

theorem keeps_seaBottomTopography (usedProvider useProvider : Bytes) :
    KeepsAlways (seaBottomTopography (F := F) usedProvider useProvider) :=
  keeps_get.bind fun _ => keeps_pure _

theorem keeps_modeltopography (provider_ : Bytes) :
    KeepsAlways (modeltopography (F := F) provider_) := by
  apply keeps_get.bind
  intro elem
  apply Keeps.bind
  · apply keeps_modify
    intro elem
    rfl
  intro _
  cases elem.constantField elem.topoTime with
  | none => exact keeps_pure (some INT_MIN)
  | some cells =>
      dsimp only
      split
      · exact keeps_pure _
      · apply keeps_ite
        · exact keeps_pure (some INT_MIN)
        · apply keeps_ite
          · exact keeps_pure none
          · split
            · exact keeps_pure (some INT_MIN)
            · apply Keeps.bind
              · apply keeps_modify
                intro elem
                rfl
              · intro _
                exact keeps_pure _

theorem keeps_topography (provider_ : Bytes) :
    KeepsAlways (topography (F := F) provider_) := by
  apply keeps_get.bind
  intro elem
  cases elem.constantField elem.topoTime with
  | none => exact keeps_pure INT_MIN
  | some cells =>
      dsimp only
      split
      · exact keeps_pure _
      · apply keeps_ite
        · exact keeps_pure INT_MIN
        · exact keeps_pure _

theorem keeps_computeTempCorrection (provider : Bytes) (relTopo modelTopo : ℤ) :
    KeepsAlways (computeTempCorrection (F := F) provider relTopo modelTopo) := by
  apply keeps_get.bind
  intro elem
  apply keeps_ite
  · exact keeps_pure _
  · apply (keeps_modeltopography provider).bind
    intro found
    cases found with
    | none => exact keeps_pure none
    | some modelTopo =>
        apply keeps_ite
        · exact keeps_pure _
        · exact keeps_pure _

theorem keeps_humidity (math : MathFunctions F) (tryHard : Bool) :
    KeepsSafe (humidity math tryHard) := by
  apply keeps_get.bind
  intro elem
  apply (keeps_value _ _ _).bind
  intro rh
  apply keeps_ite
  · apply (keeps_value _ _ _).bind
    intro dewtemp
    apply (keeps_value _ _ _).bind
    intro modeltemp
    exact (keeps_restoreForecastProvider _).safe.bind fun _ => keeps_pure _
  · exact (keeps_restoreForecastProvider _).safe.bind fun _ => keeps_pure _

theorem keeps_dewPointTemperature (math : MathFunctions F) (usedTemperature : F)
    (tryHard : Bool) : KeepsSafe (dewPointTemperature math usedTemperature tryHard) := by
  apply keeps_get.bind
  intro elem
  apply keeps_ite
  · exact (keeps_restoreForecastProvider _).safe.bind fun _ => keeps_pure _
  · apply (keeps_value _ _ _).bind
    intro rh
    apply keeps_ite
    · exact (keeps_restoreForecastProvider _).safe.bind fun _ => keeps_pure _
    · apply (keeps_value _ _ _).bind
      intro dewTemp
      apply (keeps_value _ _ _).bind
      intro modelTemp
      apply (keeps_restoreForecastProvider _).safe.bind
      intro _
      apply keeps_ite
      · exact keeps_pure FLT_MAX
      · exact keeps_pure _

variable [DecidableLT F]

theorem keeps_wetBulbTemperature (math : MathFunctions F) (tryHard : Bool) :
    KeepsSafe (wetBulbTemperature math tryHard) := by
  apply keeps_get.bind
  intro elem
  apply keeps_ite
  · exact keeps_pure FLT_MAX
  · apply (keeps_value _ _ _).bind
    intro tUhc
    apply (keeps_value _ _ _).bind
    intro tHc
    apply (keeps_value _ _ _).bind
    intro rh
    apply keeps_ite
    · exact keeps_pure FLT_MAX
    · exact keeps_pure _

/-! ### Precipitation -/

theorem keeps_PRECIP_MEAN_loop (entries : List (PTime × FromTimeSerie F)) (fromTime : PTime)
    (isEqual myTryHard : Bool) (sumPrecip : F) (count : ℕ) :
    KeepsAlways (PRECIP_MEAN_loop entries fromTime isEqual myTryHard sumPrecip count) := by
  induction entries generalizing fromTime isEqual myTryHard sumPrecip count with
  | nil => exact keeps_pure _
  | cons entry rest ih =>
      apply (keeps_lookupMember _ _ _ _ _ _).bind
      intro first
      apply keeps_ite
      · apply (keeps_lookupMember _ _ _ _ _ _).bind
        intro second
        apply keeps_ite
        · exact keeps_pure none
        · apply ih
      · apply keeps_ite
        · exact keeps_pure none
        · apply ih

theorem keeps_PRECIP_MEAN (hoursBack : ℤ) (tryHard : Bool) :
    KeepsAlways (PRECIP_MEAN (F := F) hoursBack tryHard) := by
  apply keeps_get.bind
  intro elem
  apply (keeps_PRECIP_MEAN_loop _ _ _ _ _ _).bind
  intro found
  cases found with
  | none => exact keeps_pure _
  | some sum =>
      apply keeps_ite
      · exact keeps_pure _
      · exact keeps_pure _

theorem keeps_PRECIP_1H_loop (tryHard : Bool) (entries : List (PTime × FromTimeSerie F))
    (fromTime : PTime) (sumPrecip : F) (count : ℕ) :
    KeepsAlways (PRECIP_1H_loop tryHard entries fromTime sumPrecip count) := by
  induction entries generalizing fromTime sumPrecip count with
  | nil => exact keeps_pure _
  | cons entry rest ih =>
      apply (keeps_lookupMember _ _ _ _ _ _).bind
      intro found
      apply keeps_ite
      · exact keeps_pure none
      · apply ih

theorem keeps_PRECIP_1H (hoursBack : ℤ) (tryHard : Bool) :
    KeepsAlways (PRECIP_1H (F := F) hoursBack tryHard) := by
  apply keeps_get.bind
  intro elem
  apply (keeps_PRECIP_1H_loop _ _ _ _ _).bind
  intro found
  cases found with
  | none => exact keeps_pure _
  | some sum =>
      apply keeps_ite
      · exact keeps_pure _
      · exact keeps_pure _

theorem keeps_PRECIP_N (hoursBack : ℤ) (tryHard : Bool) :
    KeepsAlways (PRECIP_N (F := F) hoursBack tryHard) := by
  apply keeps_get.bind
  intro elem
  cases elem.current? with
  | none => exact keeps_pure _
  | some entry =>
      apply (keeps_lookupMember _ _ _ _ _ _).bind
      intro now
      apply keeps_ite
      · exact keeps_pure _
      · apply keeps_ite
        · split
          · exact keeps_pure _
          · apply keeps_ite
            · exact keeps_pure _
            · apply (keeps_lookupMember _ _ _ _ _ _).bind
              intro back
              apply keeps_ite
              · exact keeps_pure _
              · exact keeps_pure _
        · apply keeps_ite
          · exact keeps_pure _
          · split
            · exact keeps_pure _
            · apply (keeps_lookupMember _ _ _ _ _ _).bind
              intro back
              apply keeps_ite
              · exact keeps_pure _
              · exact keeps_pure _

theorem keeps_PRECIP_MIN_MAX_MEAN_loop (entries : List (PTime × FromTimeSerie F))
    (fromTime : PTime) (isEqual myTryHard : Bool) (collected : HourlyPrecip F) :
    KeepsAlways (PRECIP_MIN_MAX_MEAN_loop entries fromTime isEqual myTryHard collected) := by
  induction entries generalizing fromTime isEqual myTryHard collected with
  | nil => exact keeps_pure _
  | cons entry rest ih =>
      apply (keeps_lookupMember _ _ _ _ _ _).bind
      intro first
      have mean : KeepsAlways (F := F)
          (if (decide (first.1 = FLT_MAX) && !isEqual) = true then
            lookupMember .PRECIP_MEAN .forecastProvider entry.2 entry.1 myTryHard false
          else pure first) :=
        keeps_ite (keeps_lookupMember _ _ _ _ _ _) (keeps_pure first)
      apply mean.bind
      intro mean
      apply keeps_ite
      · exact keeps_pure none
      · apply (keeps_lookupMember _ _ _ _ _ _).bind
        intro min
        apply keeps_ite
        · exact keeps_pure none
        · apply (keeps_lookupMember _ _ _ _ _ _).bind
          intro max
          apply keeps_ite
          · exact keeps_pure none
          · apply (keeps_lookupMember _ _ _ _ _ _).bind
            intro prob
            apply ih

variable [DecidableLE F]

theorem keeps_PRECIP (hoursBack : ℤ) (tryHard : Bool) :
    KeepsAlways (PRECIP (F := F) hoursBack tryHard) := by
  apply (keeps_PRECIP_MEAN hoursBack tryHard).bind
  intro mean
  have second : KeepsAlways (F := F)
      (if mean.1 = FLT_MAX then PRECIP_N hoursBack tryHard else pure mean) :=
    keeps_ite (keeps_PRECIP_N hoursBack tryHard) (keeps_pure mean)
  apply second.bind
  intro fromAccumulated
  have third : KeepsAlways (F := F)
      (if fromAccumulated.1 = FLT_MAX then PRECIP_1H hoursBack tryHard
        else pure fromAccumulated) :=
    keeps_ite (keeps_PRECIP_1H hoursBack tryHard) (keeps_pure fromAccumulated)
  apply third.bind
  intro found
  apply keeps_ite
  · exact keeps_pure _
  · exact keeps_pure _

theorem keeps_PRECIP_MIN_MAX_MEAN (hoursBack : ℤ) (tryHard : Bool) :
    KeepsAlways (PRECIP_MIN_MAX_MEAN (F := F) hoursBack tryHard) := by
  apply keeps_get.bind
  intro elem
  apply keeps_ite
  · exact keeps_pure _
  · apply (keeps_PRECIP_MIN_MAX_MEAN_loop _ _ _ _ _).bind
    intro found
    cases found with
    | none => exact keeps_pure _
    | some collected => exact keeps_pure _

theorem keeps_PRECIP_DATA (hoursBack : ℤ) (tryHard : Bool) :
    KeepsAlways (PRECIP_DATA (F := F) hoursBack tryHard) := by
  apply (keeps_PRECIP_MIN_MAX_MEAN hoursBack tryHard).bind
  intro spread
  split
  · exact keeps_pure _
  · exact (keeps_PRECIP hoursBack tryHard).bind fun _ => keeps_pure _

end Computations

end LocationElem

end Wdb2ts
