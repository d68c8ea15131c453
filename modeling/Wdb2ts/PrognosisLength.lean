import Wdb2ts.Lib.MapIterator
import Wdb2ts.Lib.WhileLoop
import Wdb2ts.PointData

/-!
# The minimum prognosis length

The locations whose forecast ends too early are erased from the data of a request.  The loop over
the locations does not advance over one that has only constant fields.
-/

namespace Wdb2ts

namespace WdbDataRequestCommand

/-- A `LocationPointData`, with its pointers to the time series. -/
abbrev SharedPointData (F : Type) := SortedMap LocationPoint (Option (TimeSerie F))

variable {F : Type}

/-- `miutil::eraseElement`: the container without the element of an iterator, and the next
iterator. -/
def eraseElement {κ β : Type} [LinearOrder κ] (container : SortedMap κ β)
    (it : SortedMap.Iterator κ) : SortedMap κ β × SortedMap.Iterator κ :=
  match it with
  | none => (container, none)
  | some key => (container.erase key, container.next key)

/-- The data and `itLocation` at the test of the loop. -/
structure LoopState (F : Type) where
  data_ : SharedPointData F
  itLocation : SortedMap.Iterator LocationPoint

/-- `rbegin()->first`, the last time of a series that is not empty. -/
def lastTime (serie : TimeSerie F) : Option PTime := serie.entries.getLast?.map Prod.fst

/-- One round of the loop. -/
def round (minPrognosisEndTime_ : PTime) (state : LoopState F) :
    LoopState F ⊕ SharedPointData F :=
  match state.itLocation with
  | none => .inr state.data_
  | some location =>
      let erased := eraseElement state.data_ (some location)
      match (state.data_.find? location).join with
      | none => .inl ⟨erased.1, erased.2⟩
      | some serie =>
          match lastTime serie with
          | none => .inl ⟨erased.1, erased.2⟩
          | some time =>
              if time = PTime.epoch then .inl state
              else if time < minPrognosisEndTime_ then .inl ⟨erased.1, erased.2⟩
              else .inl ⟨state.data_, state.data_.next location⟩

/-- `WdbDataRequestCommand::validatePrognosisLength`: the data that is left, if the loop ends
within the given number of rounds. -/
def validatePrognosisLength (minPrognosisEndTime_ : PTime) (fuel : ℕ) (data_ : SharedPointData F) :
    Option (SharedPointData F) :=
  if minPrognosisEndTime_.isSpecial then some data_
  else WhileLoop.runUntil (round minPrognosisEndTime_) fuel ⟨data_, data_.begin_⟩

/-! ## The locations that are kept -/

/-- A location has constant fields only. -/
def isConstant (entry : LocationPoint × Option (TimeSerie F)) : Bool :=
  match entry.2.bind lastTime with
  | none => false
  | some time => time = PTime.epoch

/-- A location has a time series that is not empty and either has constant fields only or does not
end before a time. -/
def keeps (minPrognosisEndTime_ : PTime) (entry : LocationPoint × Option (TimeSerie F)) : Bool :=
  match entry.2.bind lastTime with
  | none => false
  | some time => time = PTime.epoch || minPrognosisEndTime_ ≤ time

/-- The loop ends, and exactly the locations to keep are left. -/
def ValidatesExactly (minPrognosisEndTime_ : PTime) (data_ : SharedPointData F) : Prop :=
  ∃ fuel left, validatePrognosisLength minPrognosisEndTime_ fuel data_ = some left ∧
    left.entries = data_.entries.filter (keeps minPrognosisEndTime_)

variable {minPrognosisEndTime_ : PTime} {state : LoopState F} {location : LocationPoint}
  {serie : Option (TimeSerie F)} {before rest : List (LocationPoint × Option (TimeSerie F))}

theorem isConstant_iff : isConstant (location, serie) = true ↔
    serie.bind lastTime = some PTime.epoch := by
  rw [isConstant]
  cases serie.bind lastTime with
  | none => exact iff_of_false Bool.false_ne_true nofun
  | some time => rw [decide_eq_true_eq, Option.some.injEq]

/-- What a round does at a location. -/
theorem round_eq (split : state.data_.SplitAt state.itLocation before ((location, serie) :: rest)) :
    round minPrognosisEndTime_ state =
      if isConstant (location, serie) then .inl state
      else if keeps minPrognosisEndTime_ (location, serie) then
        .inl ⟨state.data_, state.data_.next location⟩
      else .inl ⟨state.data_.erase location, state.data_.next location⟩ := by
  have atLocation : state.itLocation = some location := split.at_
  simp only [round, eraseElement, atLocation, split.find?_eq, Option.join_some]
  cases serie with
  | none => rfl
  | some serie =>
      cases last : lastTime serie with
      | none =>
          have varies : isConstant (location, some serie) = false := by simp [isConstant, last]
          have removed : keeps minPrognosisEndTime_ (location, some serie) = false := by
            simp [keeps, last]
          simp only [varies, removed, last, Bool.false_eq_true, if_false]
      | some time =>
          have constant : isConstant (location, some serie) = decide (time = PTime.epoch) := by
            simp [isConstant, last]
          have kept : keeps minPrognosisEndTime_ (location, some serie) =
              (decide (time = PTime.epoch) || decide (minPrognosisEndTime_ ≤ time)) := by
            simp [keeps, last]
          simp only [constant, kept, last, decide_eq_true_eq, Bool.or_eq_true]
          by_cases isEpoch : time = PTime.epoch
          · rw [if_pos isEpoch, if_pos isEpoch]
          · rw [if_neg isEpoch, if_neg isEpoch]
            by_cases tooEarly : time < minPrognosisEndTime_
            · rw [if_pos tooEarly, if_neg fun either => either.elim isEpoch tooEarly.not_ge]
            · rw [if_neg tooEarly, if_pos (Or.inr (not_lt.mp tooEarly))]

/-- At a location with constant fields only the loop does not go on. -/
theorem goes_constant
    (split : state.data_.SplitAt state.itLocation before ((location, serie) :: rest))
    (constant : isConstant (location, serie) = true) :
    WhileLoop.Goes (round minPrognosisEndTime_) state state := by
  rw [WhileLoop.Goes, round_eq split, if_pos constant]

/-- At another location the loop keeps or erases it and goes on behind it. -/
theorem goes_other
    (split : state.data_.SplitAt state.itLocation before ((location, serie) :: rest))
    (varies : isConstant (location, serie) = false) :
    ∃ next, WhileLoop.Goes (round minPrognosisEndTime_) state next ∧
      next.data_.SplitAt next.itLocation
        (before ++ [(location, serie)].filter (keeps minPrognosisEndTime_)) rest := by
  have notConstant := Bool.eq_false_iff.mp varies
  by_cases kept : keeps minPrognosisEndTime_ (location, serie) = true
  · refine ⟨⟨state.data_, state.data_.next location⟩, ?_, ?_⟩
    · rw [WhileLoop.Goes, round_eq split, if_neg notConstant, if_pos kept]
    · rw [List.filter_cons_of_pos kept]
      exact split.advance
  · refine ⟨⟨state.data_.erase location, state.data_.next location⟩, ?_, ?_⟩
    · rw [WhileLoop.Goes, round_eq split, if_neg notConstant, if_neg kept]
    · rw [List.filter_cons_of_neg kept, List.filter_nil, List.append_nil]
      exact split.erase

/-- Without locations that have constant fields only the loop goes on to the end. -/
theorem goes_to_end (varies : ∀ entry ∈ rest, isConstant entry = false)
    (split : state.data_.SplitAt state.itLocation before rest) :
    ∃ last, Relation.ReflTransGen (WhileLoop.Goes (round minPrognosisEndTime_)) state last ∧
      last.data_.SplitAt last.itLocation
        (before ++ rest.filter (keeps minPrognosisEndTime_)) [] := by
  induction rest generalizing state before with
  | nil =>
      refine ⟨state, Relation.ReflTransGen.refl, ?_⟩
      rwa [List.filter_nil, List.append_nil]
  | cons entry rest ih =>
      obtain ⟨next, here, splitNext⟩ := goes_other split (varies entry (List.mem_cons_self ..))
      obtain ⟨last, goes, splitLast⟩ :=
        ih (fun other member => varies other (List.mem_cons_of_mem _ member)) splitNext
      refine ⟨last, Relation.ReflTransGen.head here goes, ?_⟩
      rwa [List.append_assoc, ← List.filter_append, List.singleton_append] at splitLast

/-- With a location that has constant fields only the loop goes on to a state that it does not
leave. -/
theorem goes_to_stuck {entry : LocationPoint × Option (TimeSerie F)} (member : entry ∈ rest)
    (constant : isConstant entry = true)
    (split : state.data_.SplitAt state.itLocation before rest) :
    ∃ stuck, Relation.ReflTransGen (WhileLoop.Goes (round minPrognosisEndTime_)) state stuck ∧
      WhileLoop.Goes (round minPrognosisEndTime_) stuck stuck := by
  induction rest generalizing state before with
  | nil => cases member
  | cons first rest ih =>
      cases firstConstant : isConstant first with
      | true => exact ⟨state, Relation.ReflTransGen.refl, goes_constant split firstConstant⟩
      | false =>
          have behind : entry ∈ rest := by
            rcases List.mem_cons.mp member with rfl | behind
            · rw [constant] at firstConstant
              cases firstConstant
            · exact behind
          obtain ⟨next, here, splitNext⟩ := goes_other split firstConstant
          obtain ⟨stuck, goes, stays⟩ := ih behind splitNext
          exact ⟨stuck, Relation.ReflTransGen.head here goes, stays⟩

/-- The validation ends with exactly the locations to keep if and only if no location has constant
fields only. -/
theorem validatesExactly_iff (data_ : SharedPointData F) (microseconds : ℤ) :
    ValidatesExactly (.ticks microseconds) data_ ↔
      ∀ location serie, data_.find? location = some (some serie) →
        lastTime serie ≠ some PTime.epoch := by
  let start : LoopState F := ⟨data_, data_.begin_⟩
  have split : start.data_.SplitAt start.itLocation [] data_.entries :=
    SortedMap.SplitAt.of_begin data_
  constructor
  · rintro ⟨fuel, left, returns, -⟩ location serie found isEpoch
    have constant : isConstant (location, some serie) = true := isConstant_iff.mpr isEpoch
    obtain ⟨stuck, goes, stays⟩ := goes_to_stuck
      (SortedMap.mem_entries_iff.mpr found) constant split
    have never := WhileLoop.runUntil_eq_none_of_goes goes stays fuel
    rw [validatePrognosisLength, PTime.isSpecial_ticks, if_neg Bool.false_ne_true, never] at returns
    cases returns
  · intro noConstant
    have varies (entry : LocationPoint × Option (TimeSerie F)) (member : entry ∈ data_.entries) :
        isConstant entry = false := by
      obtain ⟨location, serie⟩ := entry
      rw [Bool.eq_false_iff, ne_eq, isConstant_iff]
      cases serie with
      | none => exact nofun
      | some serie => exact noConstant location serie (SortedMap.mem_entries_iff.mp member)
    obtain ⟨last, goes, splitLast⟩ := goes_to_end varies split
    have returns : round (.ticks microseconds) last = .inr last.data_ := by
      rw [round, splitLast.at_]
      rfl
    obtain ⟨fuel, ran⟩ := WhileLoop.exists_runUntil_of_goes goes returns
    refine ⟨fuel, last.data_, ran, ?_⟩
    rw [splitLast.entries, List.append_nil, List.nil_append]

/-- A location with the topography of a model as its only field. -/
def topographyOnly : SharedPointData ℚ :=
  SortedMap.ofList [(⟨60, 10⟩, some (SortedMap.ofList [(PTime.epoch,
    SortedMap.ofList [(PTime.epoch,
      SortedMap.ofList [(Bytes.str "arome", PData.missing.set .modeltopography 100)])])]))]

/-- The loop does not end for a location that has constant fields only. -/
theorem validatePrognosisLength_neverEnds :
    ¬ValidatesExactly (.ticks (PTime.hours 24)) topographyOnly ∧
      ∀ fuel, validatePrognosisLength (.ticks (PTime.hours 24)) fuel topographyOnly = none := by
  have stays : WhileLoop.Goes (round (.ticks (PTime.hours 24)))
      ⟨topographyOnly, topographyOnly.begin_⟩ ⟨topographyOnly, topographyOnly.begin_⟩ := rfl
  have never (fuel : ℕ) :
      validatePrognosisLength (.ticks (PTime.hours 24)) fuel topographyOnly = none :=
    WhileLoop.runUntil_eq_none_of_goes Relation.ReflTransGen.refl stays fuel
  refine ⟨?_, never⟩
  rintro ⟨fuel, left, returns, -⟩
  rw [never fuel] at returns
  cases returns

end WdbDataRequestCommand

end Wdb2ts
