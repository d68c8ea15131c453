import Wdb2ts.Lib.Runs
import Wdb2ts.GetValue

/-!
# The provider that was last used

A call of `getValue` tries a list of searches, each with its own from-time and provider.
The first one that finds a cell with a value decides what the call returns, and its
provider is remembered.  A search for a given provider at a given from-time also
remembers the provider when the cell it looks at has no value.
-/

namespace Wdb2ts

variable {F : Type} [DecidableEq F]

/-- The arguments of a `getValue` call. -/
structure GetValueCall (F : Type) where
  pPM : PData.Member
  fromTimeSerie : FromTimeSerie F
  fromTime : PTime
  provider : Bytes
  notValidValue : F
  myCleanProvider : Bool
  myCleanFromTime : Bool

namespace LookupElem

/-- The result of a call. -/
def call (elem : LookupElem) (arguments : GetValueCall F) : Lookup F :=
  elem.getValue arguments.pPM arguments.fromTimeSerie arguments.fromTime arguments.provider
    arguments.notValidValue arguments.myCleanProvider arguments.myCleanFromTime

/-- The value a call returns. -/
def returned (elem : LookupElem) (arguments : GetValueCall F) : F :=
  (elem.call arguments).value

/-- The element after a call. -/
def afterCall (elem : LookupElem) (arguments : GetValueCall F) : LookupElem :=
  { elem with lastUsedProvider_ := (elem.call arguments).lastUsedProvider_ }

/-- The element after a sequence of calls. -/
def afterCalls (elem : LookupElem) (calls : List (GetValueCall F)) : LookupElem :=
  Runs.run afterCall elem calls

/-! ## The searches of a call -/

/-- The searches among the items of the priority list that have the same provider name. -/
def sameProviderSearches (items : ProviderList) (fromTime : PTime) (providerName : Bytes) :
    List (PTime × Bytes) :=
  (items.filter fun item => item.provider = providerName).map
    fun item => (fromTime, item.providerWithPlacename)

/-- The from-times and providers a call searches with, in order. -/
def searches (elem : LookupElem) (arguments : GetValueCall F) : List (PTime × Bytes) :=
  let given := !arguments.provider.isEmpty
  let cleanProvider := given && arguments.myCleanProvider
  (arguments.fromTime, arguments.provider) ::
    ((if given && !arguments.myCleanProvider then
        sameProviderSearches elem.priority arguments.fromTime (providerPrefix arguments.provider)
      else []) ++
    (if cleanProvider || arguments.myCleanFromTime then
        [(if arguments.myCleanFromTime then default else arguments.fromTime,
          if cleanProvider then [] else arguments.provider)]
      else []))

/-- The cell the first successful search of a list finds. -/
def firstFound (elem : LookupElem) (pPM : PData.Member) (fromTimeSerie : FromTimeSerie F)
    (notValidValue : F) (searches : List (PTime × Bytes)) : Option (PTime × Bytes × F) :=
  searches.findSome? fun given =>
    elem.search pPM fromTimeSerie given.1 given.2 notValidValue

/-- The cell a call returns the value of. -/
def cellFound (elem : LookupElem) (arguments : GetValueCall F) : Option (PTime × Bytes × F) :=
  elem.firstFound arguments.pPM arguments.fromTimeSerie arguments.notValidValue
    (elem.searches arguments)

/-- The last provider, among those searched for at a given from-time, that has a cell. -/
def lastHit (fromTimeSerie : FromTimeSerie F) (searches : List (PTime × Bytes)) :
    Option Bytes :=
  ((searches.filter fun given => hitsCell fromTimeSerie given.1 given.2).getLast?).map Prod.snd

/-- The value and the remembered provider after a list of searches. -/
def outcome (elem : LookupElem) (pPM : PData.Member) (fromTimeSerie : FromTimeSerie F)
    (notValidValue : F) (lastUsed : Bytes) (searches : List (PTime × Bytes)) : F × Bytes :=
  match elem.firstFound pPM fromTimeSerie notValidValue searches with
  | some (_, provider, value) => (value, provider)
  | none => (notValidValue, (lastHit fromTimeSerie searches).getD lastUsed)

theorem search_valid {elem : LookupElem} {pPM : PData.Member}
    {fromTimeSerie : FromTimeSerie F} {fromTime : PTime} {provider : Bytes}
    {notValidValue : F} {found : PTime × Bytes × F}
    (searched : elem.search pPM fromTimeSerie fromTime provider notValidValue = some found) :
    found.2.2 ≠ notValidValue := by
  rw [search_eq_findSome?, FirstMatch.findSome?_lexicographic] at searched
  rcases searched with ⟨key, position, candidate, _⟩
  exact (isMatch_iff_isCandidate.mp candidate).2.valid

/-- A search that succeeds ends the list, and one that fails leaves the rest to try. -/
theorem outcome_cons (elem : LookupElem) (pPM : PData.Member)
    (fromTimeSerie : FromTimeSerie F) (notValidValue : F) (lastUsed : Bytes)
    (given : PTime × Bytes) (rest : List (PTime × Bytes)) :
    let result := { elem with lastUsedProvider_ := lastUsed }.getValueImpl pPM fromTimeSerie
      given.1 given.2 notValidValue
    elem.outcome pPM fromTimeSerie notValidValue lastUsed (given :: rest) =
      if result.value ≠ notValidValue then (result.value, result.lastUsedProvider_)
      else elem.outcome pPM fromTimeSerie notValidValue result.lastUsedProvider_ rest := by
  intro result
  have spec : result = _ := getValueImpl_eq { elem with lastUsedProvider_ := lastUsed } pPM
    fromTimeSerie given.1 given.2 notValidValue
  have same : { elem with lastUsedProvider_ := lastUsed }.search pPM fromTimeSerie given.1
      given.2 notValidValue = elem.search pPM fromTimeSerie given.1 given.2 notValidValue := rfl
  rw [same] at spec
  cases searched : elem.search pPM fromTimeSerie given.1 given.2 notValidValue with
  | some found =>
      have valid := search_valid searched
      rw [searched] at spec
      simp [outcome, firstFound, searched, spec, valid]
  | none =>
      rw [searched] at spec
      have skipped : elem.firstFound pPM fromTimeSerie notValidValue (given :: rest) =
          elem.firstFound pPM fromTimeSerie notValidValue rest := by
        simp [firstFound, searched]
      have hits : (lastHit fromTimeSerie (given :: rest)).getD lastUsed =
          (lastHit fromTimeSerie rest).getD
            (if hitsCell fromTimeSerie given.1 given.2 then given.2 else lastUsed) := by
        cases hit : hitsCell fromTimeSerie given.1 given.2 with
        | false => simp [lastHit, hit]
        | true =>
            simp only [lastHit, List.filter_cons, hit, if_true, List.getLast?_cons]
            cases (rest.filter fun given =>
              hitsCell fromTimeSerie given.1 given.2).getLast? <;> rfl
      simp only [outcome, skipped, spec, ne_eq, not_true_eq_false, if_false, hits]

/-- A search without a result leaves its arguments as they were. -/
theorem getValueImpl_of_missing {elem : LookupElem} {pPM : PData.Member}
    {fromTimeSerie : FromTimeSerie F} {fromTime : PTime} {provider : Bytes}
    {notValidValue : F}
    (missing : (elem.getValueImpl pPM fromTimeSerie fromTime provider notValidValue).value =
      notValidValue) :
    elem.getValueImpl pPM fromTimeSerie fromTime provider notValidValue =
      ⟨notValidValue, fromTime, provider,
        (elem.getValueImpl pPM fromTimeSerie fromTime provider
          notValidValue).lastUsedProvider_⟩ := by
  have spec := getValueImpl_eq elem pPM fromTimeSerie fromTime provider notValidValue
  cases searched : elem.search pPM fromTimeSerie fromTime provider notValidValue with
  | none =>
      rw [searched] at spec
      rw [spec]
  | some found =>
      rw [searched] at spec
      rw [spec] at missing
      exact absurd missing (search_valid searched)

/-- The loop over the items with the same provider name. -/
theorem getValueSameProvider_spec (elem : LookupElem) (pPM : PData.Member)
    (fromTimeSerie : FromTimeSerie F) (notValidValue : F) (providerName : Bytes)
    (items : ProviderList) (current : Lookup F) (missing : current.value = notValidValue) :
    let result := elem.getValueSameProvider pPM fromTimeSerie notValidValue providerName items
      current
    (result.value, result.lastUsedProvider_) =
        elem.outcome pPM fromTimeSerie notValidValue current.lastUsedProvider_
          (sameProviderSearches items current.fromTime providerName) ∧
      result.provider = current.provider ∧
      (result.value = notValidValue → result.fromTime = current.fromTime) := by
  induction items generalizing current with
  | nil =>
      simp [getValueSameProvider, sameProviderSearches, outcome, firstFound, lastHit, missing]
  | cons item rest ih =>
      cases Decidable.em (item.provider = providerName) with
      | inr different =>
          have skipped : sameProviderSearches (item :: rest) current.fromTime providerName =
              sameProviderSearches rest current.fromTime providerName := by
            simp [sameProviderSearches, different]
          simp only [getValueSameProvider, different, ne_eq, not_false_eq_true, if_true, skipped]
          exact ih current missing
      | inl same =>
          have tried : sameProviderSearches (item :: rest) current.fromTime providerName =
              (current.fromTime, item.providerWithPlacename) ::
                sameProviderSearches rest current.fromTime providerName := by
            simp [sameProviderSearches, same]
          simp only [getValueSameProvider, same, ne_eq, not_true_eq_false, if_false, tried,
            outcome_cons]
          split
          next valid => simp [valid]
          next failed =>
            have again := not_not.mp failed
            rw [getValueImpl_of_missing again]
            exact ih _ rfl

theorem outcome_append (elem : LookupElem) (pPM : PData.Member)
    (fromTimeSerie : FromTimeSerie F) (notValidValue : F) (lastUsed : Bytes)
    (first second : List (PTime × Bytes)) :
    let result := elem.outcome pPM fromTimeSerie notValidValue lastUsed first
    elem.outcome pPM fromTimeSerie notValidValue lastUsed (first ++ second) =
      if result.1 ≠ notValidValue then result
      else elem.outcome pPM fromTimeSerie notValidValue result.2 second := by
  induction first generalizing lastUsed with
  | nil => simp [outcome, firstFound, lastHit]
  | cons given rest ih =>
      simp only [List.cons_append, outcome_cons] at ih ⊢
      split
      next valid => simp
      next failed => exact ih _

theorem outcome_singleton (elem : LookupElem) (pPM : PData.Member)
    (fromTimeSerie : FromTimeSerie F) (notValidValue : F) (lastUsed : Bytes)
    (given : PTime × Bytes) :
    let result := { elem with lastUsedProvider_ := lastUsed }.getValueImpl pPM fromTimeSerie
      given.1 given.2 notValidValue
    elem.outcome pPM fromTimeSerie notValidValue lastUsed [given] =
      (result.value, result.lastUsedProvider_) := by
  intro result
  rw [outcome_cons]
  split
  next valid => rfl
  next failed =>
    have missing : result.value = notValidValue := not_not.mp failed
    simp only [outcome, firstFound, lastHit, List.findSome?_nil, List.filter_nil,
      List.getLast?_nil, Option.map_none, Option.getD_none]
    exact Prod.ext missing.symm rfl

/-- What a call returns and remembers is the outcome of its searches. -/
theorem call_spec (elem : LookupElem) (arguments : GetValueCall F) :
    ((elem.call arguments).value, (elem.call arguments).lastUsedProvider_) =
      elem.outcome arguments.pPM arguments.fromTimeSerie arguments.notValidValue
        elem.lastUsedProvider_ (elem.searches arguments) := by
  rcases arguments with ⟨pPM, fromTimeSerie, fromTime, provider, notValidValue,
    myCleanProvider, myCleanFromTime⟩
  simp only [call, getValue, searches, outcome_cons]
  cases Decidable.em ((elem.getValueImpl pPM fromTimeSerie fromTime provider
    notValidValue).value = notValidValue) with
  | inr valid => simp [valid]
  | inl missing =>
      rw [getValueImpl_of_missing missing]
      generalize (elem.getValueImpl pPM fromTimeSerie fromTime provider
        notValidValue).lastUsedProvider_ = lastUsed
      cases absent : provider.isEmpty with
      | true =>
          cases myCleanFromTime with
          | false => simp [absent, outcome, firstFound, lastHit]
          | true => simp [absent, outcome_singleton]
      | false =>
          cases myCleanProvider with
          | true => simp [absent, outcome_singleton]
          | false =>
              have middle := elem.getValueSameProvider_spec pPM fromTimeSerie notValidValue
                (providerPrefix provider) elem.priority
                ⟨notValidValue, fromTime, provider, lastUsed⟩ rfl
              simp only [ne_eq, not_true_eq_false, if_false, absent, Bool.not_false,
                Bool.true_and, Bool.and_false, Bool.false_or, Bool.false_eq_true, if_true,
                and_self, outcome_append, ← middle.1, middle.2.1]
              generalize elem.getValueSameProvider pPM fromTimeSerie notValidValue
                (providerPrefix provider) elem.priority
                ⟨notValidValue, fromTime, provider, lastUsed⟩ = result at *
              cases Decidable.em (result.value = notValidValue) with
              | inr valid => simp [valid]
              | inl again =>
                  cases myCleanFromTime with
                  | false => simp [again, outcome, firstFound, lastHit]
                  | true => simp [again, outcome_singleton]

/-! ## Sequences of calls -/

theorem firstFound_valid {elem : LookupElem} {pPM : PData.Member}
    {fromTimeSerie : FromTimeSerie F} {notValidValue : F} {searches : List (PTime × Bytes)}
    {found : PTime × Bytes × F}
    (searched : elem.firstFound pPM fromTimeSerie notValidValue searches = some found) :
    found.2.2 ≠ notValidValue := by
  rcases List.exists_of_findSome?_eq_some searched with ⟨given, _, result⟩
  exact search_valid result

/-- A call that finds a cell returns its value and remembers its provider. -/
theorem call_of_found {elem : LookupElem} {arguments : GetValueCall F}
    {cellTime : PTime} {provider : Bytes} {value : F}
    (found : elem.cellFound arguments = some (cellTime, provider, value)) :
    (elem.call arguments).value = value ∧
      (elem.call arguments).lastUsedProvider_ = provider := by
  have spec := elem.call_spec arguments
  rw [outcome, show elem.firstFound _ _ _ _ = _ from found] at spec
  exact Prod.ext_iff.mp spec

/-- A call that finds no cell returns `notValidValue`. -/
theorem call_of_missing {elem : LookupElem} {arguments : GetValueCall F}
    (missing : elem.cellFound arguments = none) :
    (elem.call arguments).value = arguments.notValidValue ∧
      (elem.call arguments).lastUsedProvider_ =
        (lastHit arguments.fromTimeSerie (elem.searches arguments)).getD
          elem.lastUsedProvider_ := by
  have spec := elem.call_spec arguments
  rw [outcome, show elem.firstFound _ _ _ _ = _ from missing] at spec
  exact Prod.ext_iff.mp spec

/-- `notValidValue` is returned exactly when none of the searches has a candidate. -/
theorem returned_eq_notValidValue_iff {elem : LookupElem} {arguments : GetValueCall F} :
    elem.returned arguments = arguments.notValidValue ↔ elem.cellFound arguments = none := by
  cases found : elem.cellFound arguments with
  | none => simpa [returned] using (call_of_missing found).1
  | some cell =>
      have valid := firstFound_valid found
      simp [returned, (call_of_found found).1, valid]

/-- None of the cells a call may use has a value. -/
def NoCellHasValue (elem : LookupElem) (arguments : GetValueCall F) : Prop :=
  ∀ given ∈ elem.searches arguments, ∀ cellTime position cellProvider value,
    ¬elem.IsCandidate arguments.pPM arguments.fromTimeSerie given.1 given.2
      arguments.notValidValue cellTime position cellProvider value

/-- When none of the cells has a value, the last given provider with a cell at its given
from-time, if there is one, is the one that is remembered already. -/
def NoStaleHit (elem : LookupElem) (arguments : GetValueCall F) : Prop :=
  elem.NoCellHasValue arguments →
    ∀ provider ∈ lastHit arguments.fromTimeSerie (elem.searches arguments),
      provider = elem.lastUsedProvider_

theorem cellFound_eq_none_iff {elem : LookupElem} {arguments : GetValueCall F} :
    elem.cellFound arguments = none ↔ elem.NoCellHasValue arguments := by
  simp only [cellFound, firstFound, List.findSome?_eq_none_iff, NoCellHasValue,
    search_eq_none_iff]

/-- One call leaves the name alone, when it finds nothing, exactly without a stale hit. -/
theorem unchanged_iff_noStaleHit (elem : LookupElem) (arguments : GetValueCall F) :
    (elem.returned arguments = arguments.notValidValue →
        (elem.afterCall arguments).lastUsedProvider_ = elem.lastUsedProvider_) ↔
      elem.NoStaleHit arguments := by
  rw [returned_eq_notValidValue_iff, NoStaleHit, ← cellFound_eq_none_iff]
  apply imp_congr_right
  intro missing
  rw [afterCall, (call_of_missing missing).2]
  cases lastHit arguments.fromTimeSerie (elem.searches arguments) with
  | none => simp
  | some provider => simp

/-- The searches of a call and their results depend on the priority list only. -/
theorem cellFound_afterCalls (elem : LookupElem) (calls : List (GetValueCall F))
    (arguments : GetValueCall F) :
    (elem.afterCalls calls).cellFound arguments = elem.cellFound arguments := by
  have same : (elem.afterCalls calls).priority = elem.priority := by
    induction calls generalizing elem with
    | nil => rfl
    | cons head rest ih => exact ih (elem.afterCall head)
  simp only [cellFound, firstFound, searches, search, searchedProviders, same]

/-- The provider that was last used is that of the cell the latest successful call
returned, and a call that finds nothing leaves it as it was. -/
structure LastUsedCorrect (elem : LookupElem) (calls : List (GetValueCall F)) : Prop where
  supplier : ∀ earlier arguments later, calls = earlier ++ arguments :: later →
    elem.returned arguments ≠ arguments.notValidValue →
    (∀ other ∈ later, elem.returned other = other.notValidValue) →
    ∃ cellTime, elem.cellFound arguments =
      some (cellTime, (elem.afterCalls calls).lastUsedProvider_, elem.returned arguments)
  unchanged : ∀ earlier arguments later, calls = earlier ++ arguments :: later →
    elem.returned arguments = arguments.notValidValue →
    (elem.afterCalls (earlier ++ [arguments])).lastUsedProvider_ =
      (elem.afterCalls earlier).lastUsedProvider_

theorem returned_afterCalls (elem : LookupElem) (calls : List (GetValueCall F))
    (arguments : GetValueCall F) :
    (elem.afterCalls calls).returned arguments = elem.returned arguments := by
  have same := elem.cellFound_afterCalls calls arguments
  cases found : elem.cellFound arguments with
  | none =>
      rw [found] at same
      rw [returned, returned, (call_of_missing same).1, (call_of_missing found).1]
  | some cell =>
      rw [found] at same
      rw [returned, returned, (call_of_found same).1, (call_of_found found).1]

/-- Calls that find nothing leave the name as it was. -/
theorem lastUsed_of_missing (elem : LookupElem) (calls : List (GetValueCall F))
    (each : Runs.EachStep afterCall NoStaleHit elem calls)
    (missing : ∀ arguments ∈ calls, elem.returned arguments = arguments.notValidValue) :
    (elem.afterCalls calls).lastUsedProvider_ = elem.lastUsedProvider_ := by
  induction calls generalizing elem with
  | nil => rfl
  | cons arguments rest ih =>
      have step := (elem.unchanged_iff_noStaleHit arguments).mpr each.1
        (missing arguments List.mem_cons_self)
      rw [← step]
      apply ih (elem.afterCall arguments) each.2
      intro other member
      rw [← missing other (List.mem_cons_of_mem _ member)]
      exact elem.returned_afterCalls [arguments] other

/-- The remembered provider is correct in a sequence of calls exactly when none of them
has a stale hit. -/
theorem lastUsedCorrect_iff (elem : LookupElem) (calls : List (GetValueCall F)) :
    elem.LastUsedCorrect calls ↔ Runs.EachStep afterCall NoStaleHit elem calls := by
  have unchangedAt : ∀ earlier (arguments : GetValueCall F),
      (elem.afterCalls (earlier ++ [arguments])).lastUsedProvider_ =
        ((elem.afterCalls earlier).afterCall arguments).lastUsedProvider_ := by
    intro earlier arguments
    rw [afterCalls, Runs.run_append]
    rfl
  constructor
  · intro correct
    apply Runs.eachStep_iff_forall_split.mpr
    intro earlier arguments later split
    apply (unchanged_iff_noStaleHit _ arguments).mp
    intro missing
    have before : elem.returned arguments = arguments.notValidValue :=
      (elem.returned_afterCalls earlier arguments).symm.trans missing
    have unchanged := correct.unchanged earlier arguments later split before
    rwa [unchangedAt] at unchanged
  · intro each
    constructor
    · intro earlier arguments later split valid missing
      have steps := each
      rw [split, Runs.eachStep_append] at steps
      have whole : elem.afterCalls calls =
          ((elem.afterCalls earlier).afterCall arguments).afterCalls later := by
        rw [split, afterCalls, Runs.run_append]
        rfl
      cases found : elem.cellFound arguments with
      | none => exact absurd (returned_eq_notValidValue_iff.mpr found) valid
      | some cell =>
          have again := (elem.cellFound_afterCalls earlier arguments).trans found
          have kept := lastUsed_of_missing ((elem.afterCalls earlier).afterCall arguments) later
            steps.2.2 (by
              intro other member
              rw [← missing other member, ← elem.returned_afterCalls earlier other]
              exact (elem.afterCalls earlier).returned_afterCalls [arguments] other)
          refine ⟨cell.1, ?_⟩
          rw [whole, kept, afterCall, (call_of_found again).2, returned, (call_of_found found).1]
    · intro earlier arguments later split missing
      rw [unchangedAt]
      have step := Runs.eachStep_iff_forall_split.mp each earlier arguments later split
      apply (unchanged_iff_noStaleHit _ arguments).mpr step
      exact (elem.returned_afterCalls earlier arguments).trans missing

/-! ### A stale hit -/

section StaleHit

private def providers : ProviderPDataList ℚ :=
  ((∅ : ProviderPDataList ℚ).insert (Bytes.str "arome") (PData.missing.set .T2M 280)).insert
    (Bytes.str "ecmwf") PData.missing

/-- A temperature that is found, and then one of a provider that has a cell without it. -/
def staleCalls : List (GetValueCall ℚ) :=
  [⟨.T2M, (∅ : FromTimeSerie ℚ).insert (.ticks 0) providers, .ticks 0, Bytes.str "arome",
      FLT_MAX, false, false⟩,
   ⟨.T2M, (∅ : FromTimeSerie ℚ).insert (.ticks 0) providers, .ticks 0, Bytes.str "ecmwf",
      FLT_MAX, false, false⟩]

/-- An element with both providers. -/
def twoProviders : LookupElem :=
  ⟨[⟨Bytes.str "arome", []⟩, ⟨Bytes.str "ecmwf", []⟩], 0, []⟩

/-- The provider of the second call is remembered although the call finds nothing. -/
theorem lastUsed_of_staleCalls : ¬twoProviders.LastUsedCorrect staleCalls := by
  intro correct
  have unchanged := correct.unchanged [staleCalls[0]] staleCalls[1] [] rfl (by decide)
  revert unchanged
  decide

end StaleHit

end LookupElem

end Wdb2ts
