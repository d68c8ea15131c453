import Wdb2ts.LastUsedProvider
import Wdb2ts.MeanPeriod

/-!
# The symbols of the periods

`encodePeriods` asks for a symbol for every period that has precipitation.  The start of the
period is passed on to the accessor of the symbol, which takes it as an output argument and
sets it to the from-time of the first symbol that it finds.
-/

namespace Wdb2ts

namespace EncodeLocationForecast4

section Encode

variable {F : Type} [Floats F] [DecidableEq F] [DecidableLT F] [DecidableLE F]

/-- A question for the symbol of a period: the element it is put to, the start of the period
and the answer. -/
structure SymbolAsk (F : Type) where
  location : LocationElem F
  fromTime : PTime
  symbolCode : ℤ

/-- `EncodeLocationForecast4::getSymbol`.  The copy of the start is only assigned to. -/
def getSymbol (_fromTime : PTime) : Access F ℤ := do
  let symbol ← LocationElem.symbol false
  pure symbol.1

/-- `EncodeLocationForecast4::getSymbolProbability`. -/
def getSymbolProbability (fromTime_ : PTime) : Access F F := do
  let symbolProbability ← LocationElem.symbol_PROBABILITY fromTime_ true
  pure symbolProbability.1

/-- The loop of `encodePeriods` over the periods of the symbols, and the symbols that it asks
for. -/
def periodSymbols : List ℤ → Access F (List (SymbolAsk F))
  | [] => pure []
  | precipHours :: rest => do
      let precip ← LocationElem.PRECIP_DATA precipHours false
      let fromTime := precip.2.1
      if fromTime.isSpecial then periodSymbols rest
      else do
        let location ← get
        let symbolCode ← getSymbol fromTime
        let _ ← getSymbolProbability fromTime
        let asks ← periodSymbols rest
        pure (⟨location, fromTime, symbolCode⟩ :: asks)

/-- `EncodeLocationForecast4::encodePeriods`: the symbols it asks for.  Nothing is asked for
without weather data. -/
def encodePeriods (weatherDataEmpty : Bool) (symbolConf : List ℤ) :
    Access F (List (SymbolAsk F)) := do
  if weatherDataEmpty then pure []
  else do
    let elem ← get
    modify fun elem => { elem with symbolProvider := elem.forecastprovider }
    let asks ← periodSymbols symbolConf
    modify fun location => { location with symbolProvider := elem.symbolProvider }
    pure asks

end Encode

/-! ## The answers -/

section Answers

variable {F : Type} [Floats F] [DecidableEq F]

/-- The code of a symbol. -/
def codeOf (value : F) : ℤ := Floats.toInt (value + lit 0.5)

/-- The lookup of a symbol. -/
def symbolCall (elem : LocationElem F) (serie : FromTimeSerie F) : GetValueCall F :=
  { pPM := .symbol
    fromTimeSerie := serie
    fromTime := default
    provider := if elem.symbolProvider.isEmpty then elem.forecastProvider else elem.symbolProvider
    notValidValue := FLT_MAX
    myCleanProvider := false
    myCleanFromTime := false }

/-- The first symbol in the order of the lookup, with its cell. -/
def firstSymbol (elem : LocationElem F) : Option (PTime × Bytes × F) :=
  elem.current?.bind fun entry => elem.toLookupElem.cellFound (symbolCall elem entry.2)

/-- The symbols from a time of the providers that the lookup allows. -/
def symbolsFrom (elem : LocationElem F) (fromTime : PTime) : List F :=
  (elem.current?.bind fun entry =>
    (entry.2.find? fromTime).map fun providers =>
      ((elem.toLookupElem.searches (symbolCall elem entry.2)).flatMap fun given =>
        elem.toLookupElem.searchedProviders given.2).filterMap
          (LookupElem.validValue .symbol FLT_MAX providers)).getD []

/-- The answer of `getSymbol` is the value of its lookup. -/
theorem run_getSymbol_eq (fromTime : PTime) {elem : LocationElem F} {totime : PTime}
    {serie : FromTimeSerie F} (atCursor : elem.current? = some (totime, serie)) :
    ((getSymbol fromTime).run elem).1 =
      if (elem.toLookupElem.call (symbolCall elem serie)).value = FLT_MAX then INT_MAX
      else codeOf (elem.toLookupElem.call (symbolCall elem serie)).value := by
  have runs : ∃ after, (LocationElem.lookup .symbol serie default
      (if elem.symbolProvider.isEmpty then elem.forecastProvider else elem.symbolProvider)
      false false).run elem =
        pure (elem.toLookupElem.call (symbolCall elem serie), after) :=
    ⟨_, rfl⟩
  rcases runs with ⟨after, runLookup⟩
  simp only [getSymbol, LocationElem.symbol, StateT.run_bind, StateT.run_get, pure_bind,
    atCursor, runLookup]
  by_cases missing : (elem.toLookupElem.call (symbolCall elem serie)).value = FLT_MAX
  · simp only [if_pos missing]
    rfl
  · simp only [if_neg missing]
    rfl

/-- The answer of `getSymbol` is the code of the first symbol. -/
theorem run_getSymbol (fromTime : PTime) (elem : LocationElem F) :
    ((getSymbol fromTime).run elem).1 =
      (firstSymbol elem).elim INT_MAX fun first => codeOf first.2.2 := by
  cases atCursor : elem.current? with
  | none =>
      simp only [getSymbol, LocationElem.symbol, StateT.run_bind, StateT.run_get, pure_bind,
        atCursor, firstSymbol, Option.bind_none]
      rfl
  | some entry =>
      rcases entry with ⟨totime, serie⟩
      rw [run_getSymbol_eq fromTime atCursor, firstSymbol, atCursor, Option.bind_some]
      cases found : elem.toLookupElem.cellFound (symbolCall elem serie) with
      | none =>
          have missing : (elem.toLookupElem.call (symbolCall elem serie)).value = FLT_MAX :=
            (LookupElem.call_of_missing found).1
          rw [if_pos missing, Option.elim_none]
      | some first =>
          rcases first with ⟨cellTime, provider, value⟩
          have valid : value ≠ FLT_MAX := LookupElem.firstFound_valid found
          rw [(LookupElem.call_of_found found).1, if_neg valid, Option.elim_some]

omit [DecidableEq F] in
/-- All searches for a symbol are for any from-time. -/
theorem special_of_mem_searches {elem : LocationElem F} {serie : FromTimeSerie F}
    {given : PTime × Bytes}
    (searched : given ∈ elem.toLookupElem.searches (symbolCall elem serie)) :
    given.1.isSpecial = true := by
  simp only [LookupElem.searches, symbolCall, LookupElem.sameProviderSearches, Bool.and_false,
    Bool.or_false, Bool.false_eq_true, if_false, List.append_nil] at searched
  rcases List.mem_cons.mp searched with same | sameProvider
  · rw [same]
    rfl
  · rcases List.mem_ite_nil_right.mp sameProvider with ⟨_, inItems⟩
    rcases List.mem_map.mp inItems with ⟨item, _, same⟩
    rw [← same]
    rfl

/-- When the lookup finds no symbol, no provider that it allows has one. -/
theorem symbolsFrom_of_none {elem : LocationElem F} (none : firstSymbol elem = none)
    (fromTime : PTime) : symbolsFrom elem fromTime = [] := by
  rw [firstSymbol] at none
  rw [symbolsFrom]
  cases atCursor : elem.current? with
  | none => rfl
  | some entry =>
      rcases entry with ⟨totime, serie⟩
      rw [atCursor, Option.bind_some] at none
      rw [Option.bind_some]
      cases stored : serie.find? fromTime with
      | none => rfl
      | some providers =>
          rw [Option.map_some, Option.getD_some, List.filterMap_eq_nil_iff]
          intro provider allowed
          rcases List.mem_flatMap.mp allowed with ⟨given, searched, member⟩
          rcases List.getElem?_of_mem member with ⟨position, atPosition⟩
          have noCandidate := LookupElem.cellFound_eq_none_iff.mp none given searched fromTime
            position provider
          rw [Option.eq_none_iff_forall_ne_some]
          intro value valid
          rcases LookupElem.validValue_eq_some_iff.mp valid with ⟨cell, different⟩
          apply noCandidate value
          exact
            { time := fun normal => by
                rw [special_of_mem_searches searched] at normal
                cases normal
              provider := atPosition
              cell := by
                rw [show (symbolCall elem serie).fromTimeSerie = serie from rfl, stored]
                exact cell
              valid := different }

end Answers

/-! ## The symbols that are asked for -/

section Asks

variable {F : Type} [Floats F] [DecidableEq F]

/-- The answer is the code of a symbol from the start of the period, or missing when no
provider that the lookup allows has one. -/
def SymbolAsk.OwnPeriod (ask : SymbolAsk F) : Prop :=
  ask.symbolCode ∈ (symbolsFrom ask.location ask.fromTime).map codeOf ∨
    ask.symbolCode = INT_MAX ∧ symbolsFrom ask.location ask.fromTime = []

/-- The first symbol that is found has the code of a symbol from the start of the period, or the
missing one when there is none. -/
def SymbolAsk.FirstIsOwn (ask : SymbolAsk F) : Prop :=
  ∀ first ∈ firstSymbol ask.location,
    codeOf first.2.2 ∈ (symbolsFrom ask.location ask.fromTime).map codeOf ∨
      codeOf first.2.2 = INT_MAX ∧ symbolsFrom ask.location ask.fromTime = []

instance (ask : SymbolAsk F) : Decidable ask.OwnPeriod :=
  decidable_of_iff
    (ask.symbolCode ∈ (symbolsFrom ask.location ask.fromTime).map codeOf ∨
      ask.symbolCode = INT_MAX ∧ symbolsFrom ask.location ask.fromTime = []) Iff.rfl

/-- An answer is for its own period exactly when the first symbol is. -/
theorem ownPeriod_iff_firstIsOwn {ask : SymbolAsk F}
    (answered : ask.symbolCode = ((getSymbol ask.fromTime).run ask.location).1) :
    ask.OwnPeriod ↔ ask.FirstIsOwn := by
  rw [run_getSymbol] at answered
  rw [SymbolAsk.OwnPeriod, SymbolAsk.FirstIsOwn, answered]
  cases first : firstSymbol ask.location with
  | none =>
      constructor
      · intro _ found none
        cases none
      · exact fun _ => Or.inr ⟨rfl, symbolsFrom_of_none first ask.fromTime⟩
  | some found => simp only [Option.elim_some, Option.mem_some_iff, forall_eq']

variable [DecidableLT F] [DecidableLE F]

/-- Every answer in the loop is that of `getSymbol` for the element it was put to. -/
theorem answered_of_mem_periodSymbols (symbolConf : List ℤ) {elem : LocationElem F}
    {ask : SymbolAsk F} (asked : ask ∈ ((periodSymbols symbolConf).run elem).1) :
    ask.symbolCode = ((getSymbol ask.fromTime).run ask.location).1 := by
  induction symbolConf generalizing elem with
  | nil => cases asked
  | cons precipHours rest ih =>
      simp only [periodSymbols, StateT.run_bind] at asked
      rcases (LocationElem.PRECIP_DATA precipHours false).run elem with ⟨precip, location⟩
      dsimp only [bind, Id] at asked
      split at asked
      · exact ih asked
      · rcases List.mem_cons.mp asked with same | later
        · rw [same]
          rfl
        · exact ih later

/-- The symbols that `encodePeriods` asks for are those of their periods exactly when, for each
of them, the first symbol in the order of the lookup has the code of a symbol from the start
of the period. -/
theorem ownPeriods_iff (weatherDataEmpty : Bool) (symbolConf : List ℤ) (elem : LocationElem F) :
    (∀ ask ∈ ((encodePeriods weatherDataEmpty symbolConf).run elem).1, ask.OwnPeriod) ↔
      ∀ ask ∈ ((encodePeriods weatherDataEmpty symbolConf).run elem).1, ask.FirstIsOwn := by
  cases weatherDataEmpty with
  | true =>
      constructor
      · intro _ ask none
        cases none
      · intro _ ask none
        cases none
  | false =>
      apply forall₂_congr
      intro ask asked
      exact ownPeriod_iff_firstIsOwn (answered_of_mem_periodSymbols symbolConf asked)

end Asks

/-! ### Two periods that end at the same time -/

section TwoPeriods

/-- The precipitation of an hour, and symbols of six hours and of one that end with it. -/
def sixAndOne : LocationElem ℚ :=
  LocationElem.cursorAt
    (DecodePData.storeRows
      [⟨"PRECIP.MEAN", Bytes.str "arome", .ticks (PTime.hours 6), .ticks (PTime.hours 6), some 1⟩,
       ⟨"SYMBOL", Bytes.str "arome", .ticks 0, .ticks (PTime.hours 6), some 3⟩,
       ⟨"SYMBOL", Bytes.str "arome", .ticks (PTime.hours 5), .ticks (PTime.hours 6), some 4⟩])
    [⟨Bytes.str "arome", []⟩] 0

/-- The symbol of six hours is the answer for the last hour. -/
theorem not_ownPeriods_sixAndOne :
    ¬∀ ask ∈ ((encodePeriods false [1]).run sixAndOne).1, ask.OwnPeriod := by
  decide +kernel

end TwoPeriods

end EncodeLocationForecast4

end Wdb2ts
