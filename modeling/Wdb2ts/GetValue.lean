import Wdb2ts.Lib.FirstMatch
import Wdb2ts.PointData
import Wdb2ts.ProviderList

/-!
# Value lookup

`LocationElem::getValueImpl` searches one value in the cells of a valid-to time.  A
from-time or a provider that is given on entry restricts the search, and one that is
not given is set on return.  `LocationElem::getValue` repeats the search with other
arguments when no value is found.

The provider that the last search used is remembered in `lastUsedProvider_`.
-/

namespace Wdb2ts

variable {F : Type} [DecidableEq F]

/-- The members of a `LocationElem` that a value lookup reads or writes. -/
structure LookupElem where
  providerPriority : ProviderList
  itProviderPriorityBegin : ℕ
  lastUsedProvider_ : Bytes

/-- The value a lookup returns, and its effect: the two arguments it may set and the
name it remembers. -/
structure Lookup (F : Type) where
  value : F
  fromTime : PTime
  provider : Bytes
  lastUsedProvider_ : Bytes

namespace LookupElem

/-- The part of the priority list that is searched. -/
def priority (elem : LookupElem) : ProviderList :=
  elem.providerPriority.drop elem.itProviderPriorityBegin

/-- The loop over the priority list, at one from-time. -/
def findInPriority (pPM : PData.Member) (notValidValue : F)
    (providers : ProviderPDataList F) : ProviderList → Option (Bytes × F)
  | [] => none
  | item :: rest =>
      match providers.find? item.providerWithPlacename with
      | none => findInPriority pPM notValidValue providers rest
      | some data =>
          if data.get pPM = notValidValue then
            findInPriority pPM notValidValue providers rest
          else some (item.providerWithPlacename, data.get pPM)

/-- The loops over the from-times and the priority list. -/
def findInFromTimes (pPM : PData.Member) (notValidValue : F) (priority : ProviderList) :
    List (PTime × ProviderPDataList F) → Option (PTime × Bytes × F)
  | [] => none
  | (fromTime, providers) :: rest =>
      match findInPriority pPM notValidValue providers priority with
      | none => findInFromTimes pPM notValidValue priority rest
      | some (provider, value) => some (fromTime, provider, value)

/-- The loop over the from-times, for one provider. -/
def findProviderInFromTimes (pPM : PData.Member) (notValidValue : F) (provider : Bytes) :
    List (PTime × ProviderPDataList F) → Option (PTime × F)
  | [] => none
  | (fromTime, providers) :: rest =>
      match providers.find? provider with
      | none => findProviderInFromTimes pPM notValidValue provider rest
      | some data =>
          if data.get pPM = notValidValue then
            findProviderInFromTimes pPM notValidValue provider rest
          else some (fromTime, data.get pPM)

/-- `LocationElem::getValueImpl`. -/
def getValueImpl (elem : LookupElem) (pPM : PData.Member) (fromTimeSerie : FromTimeSerie F)
    (fromTime : PTime) (provider : Bytes) (notValidValue : F) : Lookup F :=
  let notFound : Lookup F := ⟨notValidValue, fromTime, provider, elem.lastUsedProvider_⟩
  if provider.isEmpty then
    if !fromTime.isSpecial then
      match fromTimeSerie.find? fromTime with
      | none => notFound
      | some providers =>
          match findInPriority pPM notValidValue providers elem.priority with
          | none => notFound
          | some (found, value) => ⟨value, fromTime, found, found⟩
    else
      match findInFromTimes pPM notValidValue elem.priority fromTimeSerie.entries with
      | none => notFound
      | some (foundTime, found, value) => ⟨value, foundTime, found, found⟩
  else
    if !fromTime.isSpecial then
      match fromTimeSerie.find? fromTime with
      | none => notFound
      | some providers =>
          match providers.find? provider with
          | none => notFound
          -- The value is not compared with `notValidValue` here.
          | some data => ⟨data.get pPM, fromTime, provider, provider⟩
    else
      match findProviderInFromTimes pPM notValidValue provider fromTimeSerie.entries with
      | none => notFound
      | some (foundTime, value) => ⟨value, foundTime, provider, provider⟩

/-- The name of a provider without its place name, as `getValue` computes it. -/
def providerPrefix (provider : Bytes) : Bytes :=
  match findByte provider (Bytes.chr '[') with
  | none => provider
  | some i => miutil.trimstr (provider.take i) miutil.blanks

/-- The loop of `getValue` over the priority list, for the items with a given name.  The
provider argument of each search is a local variable. -/
def getValueSameProvider (elem : LookupElem) (pPM : PData.Member)
    (fromTimeSerie : FromTimeSerie F) (notValidValue : F) (providerName : Bytes) :
    ProviderList → Lookup F → Lookup F
  | [], current => current
  | item :: rest, current =>
      if item.provider ≠ providerName then
        getValueSameProvider elem pPM fromTimeSerie notValidValue providerName rest current
      else
        let result := getValueImpl { elem with lastUsedProvider_ := current.lastUsedProvider_ }
          pPM fromTimeSerie current.fromTime item.providerWithPlacename notValidValue
        let current := { result with provider := current.provider }
        if current.value ≠ notValidValue then current
        else getValueSameProvider elem pPM fromTimeSerie notValidValue providerName rest current

/-- `LocationElem::getValue`. -/
def getValue (elem : LookupElem) (pPM : PData.Member) (fromTimeSerie : FromTimeSerie F)
    (fromTime : PTime) (provider : Bytes) (notValidValue : F)
    (myCleanProvider myCleanFromTime : Bool) : Lookup F :=
  let current := elem.getValueImpl pPM fromTimeSerie fromTime provider notValidValue
  let current :=
    if current.value = notValidValue ∧ !current.provider.isEmpty ∧ !myCleanProvider then
      elem.getValueSameProvider pPM fromTimeSerie notValidValue
        (providerPrefix current.provider) elem.priority current
    else current
  if current.value = notValidValue then
    let cleanProvider := !current.provider.isEmpty && myCleanProvider
    let provider := if cleanProvider then [] else current.provider
    let fromTime := if myCleanFromTime then default else current.fromTime
    let retry := cleanProvider || myCleanFromTime
    if retry then
      { elem with lastUsedProvider_ := current.lastUsedProvider_ }.getValueImpl pPM
        fromTimeSerie fromTime provider notValidValue
    else current
  else current

/-! ## The search -/

/-- The value of a cell, unless there is no cell or its value is missing. -/
def validValue (pPM : PData.Member) (notValidValue : F) (providers : ProviderPDataList F)
    (provider : Bytes) : Option F :=
  (providers.find? provider).bind fun data =>
    if data.get pPM = notValidValue then none else some (data.get pPM)

/-- The first of the providers that has a value. -/
def firstProvider (pPM : PData.Member) (notValidValue : F) (names : List Bytes)
    (providers : ProviderPDataList F) : Option (Bytes × F) :=
  names.findSome? fun name =>
    (validValue pPM notValidValue providers name).map fun value => (name, value)

/-- The providers a search goes through, in order. -/
def searchedProviders (elem : LookupElem) (provider : Bytes) : List Bytes :=
  if provider.isEmpty then elem.priority.map ProviderItem.providerWithPlacename
  else [provider]

/-- The from-times a search goes through. -/
def searchedTimes (fromTimeSerie : FromTimeSerie F) (fromTime : PTime) : FromTimeSerie F :=
  fromTimeSerie.restrict fun time => fromTime.isSpecial || time = fromTime

/-- The first cell, by from-time and then by provider, that has a value. -/
def search (elem : LookupElem) (pPM : PData.Member) (fromTimeSerie : FromTimeSerie F)
    (fromTime : PTime) (provider : Bytes) (notValidValue : F) : Option (PTime × Bytes × F) :=
  (searchedTimes fromTimeSerie fromTime).entries.findSome? fun entry =>
    (firstProvider pPM notValidValue (elem.searchedProviders provider) entry.2).map
      fun found => (entry.1, found)

/-- Is there a cell at the given from-time for the given provider? -/
def hitsCell (fromTimeSerie : FromTimeSerie F) (fromTime : PTime) (provider : Bytes) : Bool :=
  !provider.isEmpty && !fromTime.isSpecial &&
    ((fromTimeSerie.find? fromTime).bind fun providers => providers.find? provider).isSome

theorem findInPriority_eq (pPM : PData.Member) (notValidValue : F)
    (providers : ProviderPDataList F) (priority : ProviderList) :
    findInPriority pPM notValidValue providers priority =
      firstProvider pPM notValidValue (priority.map ProviderItem.providerWithPlacename)
        providers := by
  induction priority with
  | nil => rfl
  | cons item rest ih =>
      simp only [findInPriority, firstProvider, List.map_cons, List.findSome?_cons, validValue]
      cases providers.find? item.providerWithPlacename with
      | none => exact ih
      | some data =>
          cases Decidable.em (data.get pPM = notValidValue) with
          | inl missing => simpa [missing, firstProvider, validValue] using ih
          | inr valid => simp [valid]

theorem findInFromTimes_eq (pPM : PData.Member) (notValidValue : F)
    (priority : ProviderList) (times : List (PTime × ProviderPDataList F)) :
    findInFromTimes pPM notValidValue priority times =
      times.findSome? fun entry =>
        (firstProvider pPM notValidValue (priority.map ProviderItem.providerWithPlacename)
          entry.2).map fun found => (entry.1, found) := by
  induction times with
  | nil => rfl
  | cons entry rest ih =>
      simp only [findInFromTimes, findInPriority_eq, List.findSome?_cons, ih]
      cases firstProvider pPM notValidValue
        (priority.map ProviderItem.providerWithPlacename) entry.2 <;> rfl

theorem findProviderInFromTimes_eq (pPM : PData.Member) (notValidValue : F)
    (provider : Bytes) (times : List (PTime × ProviderPDataList F)) :
    (findProviderInFromTimes pPM notValidValue provider times).map
        (fun found => (found.1, provider, found.2)) =
      times.findSome? fun entry =>
        (firstProvider pPM notValidValue [provider] entry.2).map
          fun found => (entry.1, found) := by
  induction times with
  | nil => rfl
  | cons entry rest ih =>
      simp only [findProviderInFromTimes, List.findSome?_cons, firstProvider, validValue,
        List.findSome?_nil] at ih ⊢
      cases entry.2.find? provider with
      | none => exact ih
      | some data =>
          cases Decidable.em (data.get pPM = notValidValue) with
          | inl missing => simpa [missing] using ih
          | inr valid => simp [valid]

omit [DecidableEq F] in
/-- The from-times to search, when one is given. -/
theorem findSome?_searchedTimes {ω : Type} (fromTimeSerie : FromTimeSerie F)
    (fromTime : PTime) (given : fromTime.isSpecial = false)
    (matching : PTime × ProviderPDataList F → Option ω) :
    (searchedTimes fromTimeSerie fromTime).entries.findSome? matching =
      (fromTimeSerie.find? fromTime).bind fun providers => matching (fromTime, providers) := by
  apply Option.ext
  intro found
  rw [FirstMatch.findSome?_entries_eq_some_iff]
  simp only [searchedTimes, SortedMap.find?_restrict, given, Bool.false_or, decide_eq_true_eq,
    Option.bind_eq_some_iff, Option.ite_none_right_eq_some]
  constructor
  · intro first
    rcases first with ⟨key, providers, ⟨same, stored⟩, matched, _⟩
    rw [same] at stored matched
    exact ⟨providers, stored, matched⟩
  · intro stored
    rcases stored with ⟨providers, stored, matched⟩
    refine ⟨fromTime, providers, ⟨rfl, stored⟩, matched, ?_⟩
    intro earlier less other present
    exact absurd present.1 less.ne

omit [DecidableEq F] in
theorem searchedTimes_of_special (fromTimeSerie : FromTimeSerie F) (fromTime : PTime)
    (special : fromTime.isSpecial = true) :
    searchedTimes fromTimeSerie fromTime = fromTimeSerie := by
  apply SortedMap.ext_find?
  intro key
  simp [searchedTimes, SortedMap.find?_restrict, special]

/-- What a search returns and sets.  The name is also remembered when a given provider has
a cell at a given from-time without a value. -/
theorem getValueImpl_eq (elem : LookupElem) (pPM : PData.Member)
    (fromTimeSerie : FromTimeSerie F) (fromTime : PTime) (provider : Bytes)
    (notValidValue : F) :
    elem.getValueImpl pPM fromTimeSerie fromTime provider notValidValue =
      match elem.search pPM fromTimeSerie fromTime provider notValidValue with
      | some (foundTime, found, value) => ⟨value, foundTime, found, found⟩
      | none => ⟨notValidValue, fromTime, provider,
          if hitsCell fromTimeSerie fromTime provider then provider
          else elem.lastUsedProvider_⟩ := by
  cases special : fromTime.isSpecial with
  | true =>
      cases absent : provider.isEmpty with
      | true =>
          have searched : elem.search pPM fromTimeSerie fromTime provider notValidValue =
              findInFromTimes pPM notValidValue elem.priority fromTimeSerie.entries := by
            simp only [search, searchedProviders, absent, if_true, findInFromTimes_eq,
              searchedTimes_of_special _ _ special]
          rw [searched]
          cases found : findInFromTimes pPM notValidValue elem.priority fromTimeSerie.entries <;>
            simp [getValueImpl, hitsCell, absent, special, found]
      | false =>
          have searched : elem.search pPM fromTimeSerie fromTime provider notValidValue =
              (findProviderInFromTimes pPM notValidValue provider fromTimeSerie.entries).map
                fun found => (found.1, provider, found.2) := by
            simp only [search, searchedProviders, absent, Bool.false_eq_true, if_false,
              findProviderInFromTimes_eq, searchedTimes_of_special _ _ special]
          rw [searched]
          cases found : findProviderInFromTimes pPM notValidValue provider
              fromTimeSerie.entries <;>
            simp [getValueImpl, hitsCell, absent, special, found]
  | false =>
      simp only [search, findSome?_searchedTimes _ _ special]
      cases absent : provider.isEmpty with
      | true =>
          simp only [getValueImpl, searchedProviders, absent, special, hitsCell,
            findInPriority_eq]
          cases fromTimeSerie.find? fromTime with
          | none => simp
          | some providers =>
              cases found : firstProvider pPM notValidValue
                (elem.priority.map ProviderItem.providerWithPlacename) providers <;>
                simp [found]
      | false =>
          simp only [getValueImpl, searchedProviders, absent, special, hitsCell,
            firstProvider, validValue]
          cases fromTimeSerie.find? fromTime with
          | none => simp
          | some providers =>
              cases found : providers.find? provider with
              | none => simp [found]
              | some data =>
                  cases Decidable.em (data.get pPM = notValidValue) with
                  | inl missing => simp [found, missing]
                  | inr valid => simp [found, valid]

/-! ## The first candidate -/

/-- A cell that a search may return.  `position` is the place of its provider in the order
of the search. -/
structure IsCandidate (elem : LookupElem) (pPM : PData.Member)
    (fromTimeSerie : FromTimeSerie F) (fromTime : PTime) (provider : Bytes)
    (notValidValue : F) (cellTime : PTime) (position : ℕ) (cellProvider : Bytes)
    (value : F) : Prop where
  time : fromTime.isSpecial = false → cellTime = fromTime
  provider : (elem.searchedProviders provider)[position]? = some cellProvider
  cell : ((fromTimeSerie.find? cellTime).bind fun providers =>
    providers.find? cellProvider).map (PData.get · pPM) = some value
  valid : value ≠ notValidValue

theorem validValue_eq_some_iff {pPM : PData.Member} {notValidValue value : F}
    {providers : ProviderPDataList F} {provider : Bytes} :
    validValue pPM notValidValue providers provider = some value ↔
      (providers.find? provider).map (PData.get · pPM) = some value ∧
        value ≠ notValidValue := by
  cases found : providers.find? provider with
  | none => simp [validValue, found]
  | some data =>
      cases Decidable.em (data.get pPM = notValidValue) with
      | inl missing =>
          simp only [validValue, found, missing, Option.bind_some, if_true, Option.map_some,
            Option.some.injEq]
          constructor
          · intro none
            cases none
          · intro equal
            exact absurd equal.1.symm equal.2
      | inr valid =>
          simp only [validValue, found, valid, Option.bind_some, if_false, Option.map_some,
            Option.some.injEq]
          constructor
          · intro equal
            exact ⟨equal, equal ▸ valid⟩
          · exact fun equal => equal.1

/-- The cell of a from-time and a provider, when its value is valid. -/
def cellMatch (pPM : PData.Member) (notValidValue : F) (time : PTime)
    (providers : ProviderPDataList F) (name : Bytes) : Option (PTime × Bytes × F) :=
  (validValue pPM notValidValue providers name).map fun value => (time, name, value)

/-- The search as a search through a map and a list. -/
theorem search_eq_findSome? (elem : LookupElem) (pPM : PData.Member)
    (fromTimeSerie : FromTimeSerie F) (fromTime : PTime) (provider : Bytes)
    (notValidValue : F) :
    elem.search pPM fromTimeSerie fromTime provider notValidValue =
      (searchedTimes fromTimeSerie fromTime).entries.findSome? fun entry =>
        (elem.searchedProviders provider).findSome?
          (cellMatch pPM notValidValue entry.1 entry.2) := by
  simp only [search, firstProvider, List.map_findSome?]
  congr 1
  funext entry
  congr 1
  funext name
  simp [cellMatch, Option.map_map, Function.comp_def]

theorem isMatch_iff_isCandidate {elem : LookupElem} {pPM : PData.Member}
    {fromTimeSerie : FromTimeSerie F} {fromTime : PTime} {provider : Bytes}
    {notValidValue : F} {key : PTime} {position : ℕ} {found : PTime × Bytes × F} :
    FirstMatch.IsMatch (searchedTimes fromTimeSerie fromTime)
        (elem.searchedProviders provider) (cellMatch pPM notValidValue) key position found ↔
      found.1 = key ∧ elem.IsCandidate pPM fromTimeSerie fromTime provider notValidValue
        key position found.2.1 found.2.2 := by
  constructor
  · intro candidate
    rcases candidate with ⟨providers, name, stored, atPosition, matched⟩
    rcases Option.map_eq_some_iff.mp matched with ⟨value, valid, rfl⟩
    rcases validValue_eq_some_iff.mp valid with ⟨cell, different⟩
    simp only [searchedTimes, SortedMap.find?_restrict, Option.ite_none_right_eq_some] at stored
    refine ⟨rfl, ?_, atPosition, by simpa [stored.2] using cell, different⟩
    intro given
    simpa [given] using stored.1
  · intro candidate
    rcases candidate with ⟨rfl, candidate⟩
    rcases Option.map_eq_some_iff.mp candidate.cell with ⟨data, inProviders, value⟩
    rcases Option.bind_eq_some_iff.mp inProviders with ⟨providers, stored, inCell⟩
    refine ⟨providers, found.2.1, ?_, candidate.provider, ?_⟩
    · simpa [searchedTimes, SortedMap.find?_restrict, stored] using candidate.time
    · have valid := validValue_eq_some_iff.mpr
        ⟨show (providers.find? found.2.1).map (PData.get · pPM) = some found.2.2 by
          simp [inCell, value], candidate.valid⟩
      rw [cellMatch, valid]
      rfl

theorem search_eq_none_iff {elem : LookupElem} {pPM : PData.Member}
    {fromTimeSerie : FromTimeSerie F} {fromTime : PTime} {provider : Bytes}
    {notValidValue : F} :
    elem.search pPM fromTimeSerie fromTime provider notValidValue = none ↔
      ∀ cellTime position cellProvider value,
        ¬elem.IsCandidate pPM fromTimeSerie fromTime provider notValidValue
          cellTime position cellProvider value := by
  rw [search_eq_findSome?, FirstMatch.findSome?_eq_none_iff_isMatch]
  constructor
  · intro never cellTime position cellProvider value candidate
    exact never cellTime position (cellTime, cellProvider, value)
      (isMatch_iff_isCandidate.mpr ⟨rfl, candidate⟩)
  · intro never key position found candidate
    exact never _ _ _ _ (isMatch_iff_isCandidate.mp candidate).2

/-- A lookup returns the first candidate, in the lexicographic order of the from-times and
of the positions in the provider list, and names its cell.  Without a candidate it
returns `notValidValue` and leaves its arguments as they were. -/
theorem getValueImpl_isFirst (elem : LookupElem) (pPM : PData.Member)
    (fromTimeSerie : FromTimeSerie F) (fromTime : PTime) (provider : Bytes)
    (notValidValue : F) :
    let result := elem.getValueImpl pPM fromTimeSerie fromTime provider notValidValue
    let IsCandidate := elem.IsCandidate pPM fromTimeSerie fromTime provider notValidValue
    (result.value = notValidValue ↔
      ∀ cellTime position cellProvider value,
        ¬IsCandidate cellTime position cellProvider value) ∧
    (result.value = notValidValue →
      result.fromTime = fromTime ∧ result.provider = provider) ∧
    (result.value ≠ notValidValue →
      ∃ position, IsCandidate result.fromTime position result.provider result.value ∧
        ∀ otherTime otherPosition otherProvider otherValue,
          IsCandidate otherTime otherPosition otherProvider otherValue →
            result.fromTime < otherTime ∨
              result.fromTime = otherTime ∧ position ≤ otherPosition) := by
  intro result IsCandidate
  have spec : result = _ := getValueImpl_eq elem pPM fromTimeSerie fromTime provider notValidValue
  cases searched : elem.search pPM fromTimeSerie fromTime provider notValidValue with
  | none =>
      rw [searched] at spec
      refine ⟨?_, ?_, ?_⟩
      · simpa [spec] using search_eq_none_iff.mp searched
      · simp [spec]
      · simp [spec]
  | some found =>
      rcases found with ⟨cellTime, cellProvider, value⟩
      rw [searched] at spec
      rw [search_eq_findSome?, FirstMatch.findSome?_lexicographic] at searched
      rcases searched with ⟨key, position, candidate, least⟩
      rcases isMatch_iff_isCandidate.mp candidate with ⟨rfl, first⟩
      have valid : value ≠ notValidValue := first.valid
      refine ⟨?_, ?_, ?_⟩
      · simp only [spec, valid, false_iff]
        intro never
        exact never _ _ _ _ first
      · simp [spec, valid]
      · intro _
        rw [spec]
        refine ⟨position, first, ?_⟩
        intro otherTime otherPosition otherProvider otherValue other
        exact least otherTime otherPosition (otherTime, otherProvider, otherValue)
          (isMatch_iff_isCandidate.mpr ⟨rfl, other⟩)

end LookupElem

end Wdb2ts
