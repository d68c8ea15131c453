import Wdb2ts.PointData

/-!
# Ordered lists of locations

`insertLocationPoint` keeps a list of points in the order of their coordinates.  The list is that of
the entries of an ordered map, and a call rewrites the entry of one location.
-/

namespace Wdb2ts

/-- A `LocationPoint` with its value. -/
structure ValuedPoint (F : Type) extends LocationPoint where
  value_ : F
  deriving DecidableEq

variable {F : Type}

namespace ValuedPoint

/-- `LocationPoint::operator<`. -/
def less (left right : ValuedPoint F) : Bool :=
  decide (left.latitude < right.latitude) ||
    decide (left.latitude = right.latitude) && decide (left.longitude < right.longitude)

/-- `LocationPoint::operator==`. -/
def same (left right : ValuedPoint F) : Bool :=
  decide (left.latitude = right.latitude) && decide (left.longitude = right.longitude)

theorem less_iff {left right : ValuedPoint F} :
    left.less right = true ↔ left.toLocationPoint < right.toLocationPoint := by
  have order : left.toLocationPoint < right.toLocationPoint ↔
      toLex (left.latitude, left.longitude) < toLex (right.latitude, right.longitude) := Iff.rfl
  rw [order, Prod.Lex.toLex_lt_toLex]
  simp [less]

theorem same_iff {left right : ValuedPoint F} :
    left.same right = true ↔ left.toLocationPoint = right.toLocationPoint := by
  rw [same, Bool.and_eq_true, decide_eq_true_iff, decide_eq_true_iff]
  exact LocationPoint.mk.injEq .. ▸ Iff.rfl

end ValuedPoint

/-! ## Insertion -/

/-- `insertLocationPoint`: the list behind the call, and the position of the returned iterator
unless that is the end. -/
def insertLocationPoint (locations : List (ValuedPoint F)) (locationPoint : ValuedPoint F)
    (replace : Bool) : List (ValuedPoint F) × Option ℕ :=
  let before := locations.takeWhile fun point => point.less locationPoint
  match locations.drop before.length with
  | [] => (locations ++ [locationPoint], some locations.length)
  | it :: rest =>
      if it.same locationPoint then
        if replace then (before ++ locationPoint :: rest, some before.length)
        else (locations, none)
      else (before ++ locationPoint :: it :: rest, some before.length)

/-- A call of `insertLocationPoint`. -/
structure Insertion (F : Type) where
  locationPoint : ValuedPoint F
  replace : Bool

/-- An empty list behind some calls. -/
def afterInsertions (calls : List (Insertion F)) : List (ValuedPoint F) :=
  calls.foldl (fun locations call =>
    (insertLocationPoint locations call.locationPoint call.replace).1) []

/-! ## Held points -/

/-- The calls for a location. -/
def callsFor (calls : List (Insertion F)) (location : LocationPoint) : List (Insertion F) :=
  calls.filter fun call => call.locationPoint.toLocationPoint = location

/-- The point of the latest call for a location that asks for replacement, else that of the first
call for it. -/
def heldPoint (calls : List (Insertion F)) (location : LocationPoint) : Option (ValuedPoint F) :=
  let latest := ((callsFor calls location).filter fun call => call.replace).getLast?
  ((latest <|> (callsFor calls location).head?)).map fun call => call.locationPoint

/-- A list is in strictly ascending order, and it has the held point of each location. -/
structure IsOrdered (calls : List (Insertion F)) (locations : List (ValuedPoint F)) : Prop where
  ascending : locations.Pairwise fun earlier later => earlier.less later = true
  held : ∀ point, point ∈ locations ↔ heldPoint calls point.toLocationPoint = some point
  inserted : ∀ call ∈ calls, ∃ point ∈ locations,
    point.toLocationPoint = call.locationPoint.toLocationPoint

/-! ## The map of a list -/

/-- The entries of the points of a list. -/
def entriesOf (locations : List (ValuedPoint F)) : List (LocationPoint × ValuedPoint F) :=
  locations.map fun point => (point.toLocationPoint, point)

/-- What a call makes of the point of its location. -/
def replacement (locationPoint : ValuedPoint F) (replace : Bool) :
    Option (ValuedPoint F) → ValuedPoint F
  | none => locationPoint
  | some it => if replace then locationPoint else it

/-- The scan, one point after the other. -/
theorem insertLocationPoint_cons (it : ValuedPoint F) (rest : List (ValuedPoint F))
    (locationPoint : ValuedPoint F) (replace : Bool) :
    (insertLocationPoint (it :: rest) locationPoint replace).1 =
      if it.less locationPoint then it :: (insertLocationPoint rest locationPoint replace).1
      else if it.same locationPoint then replacement locationPoint replace (some it) :: rest
      else locationPoint :: it :: rest := by
  rw [insertLocationPoint, List.takeWhile_cons]
  cases isLess : it.less locationPoint with
  | true =>
      rw [if_pos rfl, if_pos rfl, insertLocationPoint]
      simp only [List.length_cons, List.drop_succ_cons]
      cases rest.drop (rest.takeWhile fun point => point.less locationPoint).length with
      | nil => rfl
      | cons other behind =>
          simp only
          cases other.same locationPoint with
          | true =>
              cases replace with
              | true => rfl
              | false => rfl
          | false => rfl
  | false =>
      rw [if_neg Bool.false_ne_true, if_neg Bool.false_ne_true]
      simp only [List.length_nil, List.drop_zero]
      cases it.same locationPoint with
      | true =>
          cases replace with
          | true => rfl
          | false => rfl
      | false => rfl

/-- A call rewrites the entry of its location. -/
theorem entriesOf_insertLocationPoint (locations : List (ValuedPoint F))
    (locationPoint : ValuedPoint F) (replace : Bool) :
    entriesOf (insertLocationPoint locations locationPoint replace).1 =
      SortedMap.upsertEntries locationPoint.toLocationPoint (replacement locationPoint replace)
        (entriesOf locations) := by
  induction locations with
  | nil => rfl
  | cons it rest ih =>
      have isEntries : entriesOf (it :: rest) = (it.toLocationPoint, it) :: entriesOf rest := rfl
      rw [insertLocationPoint_cons, isEntries, SortedMap.upsertEntries]
      rcases lt_trichotomy it.toLocationPoint locationPoint.toLocationPoint with
        less | same | greater
      · rw [if_pos (ValuedPoint.less_iff.mpr less), if_neg less.not_gt, if_neg less.ne', ← ih]
        rfl
      · have notLess : ¬it.less locationPoint = true := fun isLess =>
          (ValuedPoint.less_iff.mp isLess).ne same
        have kept : (replacement locationPoint replace (some it)).toLocationPoint =
            locationPoint.toLocationPoint := by
          cases replace with
          | true => rfl
          | false => exact same
        rw [if_neg notLess, if_pos (ValuedPoint.same_iff.mpr same), if_neg same.not_gt,
          if_pos same.symm, entriesOf, List.map_cons, kept]
        rfl
      · have notLess : ¬it.less locationPoint = true := fun isLess =>
          (ValuedPoint.less_iff.mp isLess).not_gt greater
        have notSame : ¬it.same locationPoint = true := fun isSame =>
          greater.ne (ValuedPoint.same_iff.mp isSame).symm
        rw [if_neg notLess, if_neg notSame, if_pos greater]
        rfl

/-- The map of the entries behind some calls. -/
def mapAfter (calls : List (Insertion F)) : SortedMap LocationPoint (ValuedPoint F) :=
  calls.foldl (fun map call =>
    map.upsert call.locationPoint.toLocationPoint
      (replacement call.locationPoint call.replace)) ∅

theorem afterInsertions_concat (calls : List (Insertion F)) (call : Insertion F) :
    afterInsertions (calls ++ [call]) =
      (insertLocationPoint (afterInsertions calls) call.locationPoint call.replace).1 :=
  List.foldl_concat ..

theorem mapAfter_concat (calls : List (Insertion F)) (call : Insertion F) :
    mapAfter (calls ++ [call]) =
      (mapAfter calls).upsert call.locationPoint.toLocationPoint
        (replacement call.locationPoint call.replace) :=
  List.foldl_concat ..

/-- The list is that of the entries of the map. -/
theorem entriesOf_afterInsertions (calls : List (Insertion F)) :
    entriesOf (afterInsertions calls) = (mapAfter calls).entries := by
  induction calls using List.reverseRecOn with
  | nil => rfl
  | append_singleton calls call ih =>
      rw [afterInsertions_concat, entriesOf_insertLocationPoint, ih, mapAfter_concat]
      rfl

/-! ## The held points of the map -/

theorem callsFor_concat (calls : List (Insertion F)) (call : Insertion F)
    (location : LocationPoint) :
    callsFor (calls ++ [call]) location =
      if call.locationPoint.toLocationPoint = location then callsFor calls location ++ [call]
      else callsFor calls location := by
  rw [callsFor, List.filter_append, List.filter_cons, List.filter_nil]
  by_cases isFor : call.locationPoint.toLocationPoint = location
  · rw [if_pos (decide_eq_true isFor), if_pos isFor]
    rfl
  · rw [if_neg (by simpa using isFor), if_neg isFor, List.append_nil]
    rfl

/-- A call replaces the held point of its location, or it is the first one. -/
theorem heldPoint_concat (calls : List (Insertion F)) (call : Insertion F)
    (location : LocationPoint) :
    heldPoint (calls ++ [call]) location =
      if location = call.locationPoint.toLocationPoint then
        some (replacement call.locationPoint call.replace (heldPoint calls location))
      else heldPoint calls location := by
  rw [heldPoint, callsFor_concat]
  by_cases isFor : call.locationPoint.toLocationPoint = location
  · rw [if_pos isFor, if_pos isFor.symm, List.filter_append]
    cases asks : call.replace with
    | true =>
        rw [List.filter_cons_of_pos asks, List.filter_nil, List.getLast?_concat]
        cases heldPoint calls location with
        | none => rfl
        | some it => rfl
    | false =>
        rw [List.filter_cons_of_neg (by rw [asks]; exact Bool.false_ne_true), List.filter_nil,
          List.append_nil, List.head?_append, heldPoint]
        cases ((callsFor calls location).filter fun call => call.replace).getLast? with
        | some latest => rfl
        | none =>
            cases (callsFor calls location).head? with
            | none => rfl
            | some first => rfl
  · rw [if_neg isFor, if_neg (Ne.symm isFor), heldPoint]

theorem find?_mapAfter (calls : List (Insertion F)) (location : LocationPoint) :
    (mapAfter calls).find? location = heldPoint calls location := by
  induction calls using List.reverseRecOn with
  | nil => rfl
  | append_singleton calls call ih =>
      rw [mapAfter_concat, SortedMap.find?_upsert, heldPoint_concat]
      by_cases isFor : location = call.locationPoint.toLocationPoint
      · rw [if_pos isFor, if_pos isFor, ← isFor, ih]
      · rw [if_neg isFor, if_neg isFor, ih]

theorem heldPoint_isSome {calls : List (Insertion F)} {call : Insertion F} (member : call ∈ calls) :
    ∃ point, heldPoint calls call.locationPoint.toLocationPoint = some point := by
  have isIn : call ∈ callsFor calls call.locationPoint.toLocationPoint :=
    List.mem_filter.mpr ⟨member, decide_eq_true rfl⟩
  rw [heldPoint]
  cases ((callsFor calls call.locationPoint.toLocationPoint).filter
      fun call => call.replace).getLast? with
  | some latest => exact ⟨_, rfl⟩
  | none =>
      cases calls : callsFor calls call.locationPoint.toLocationPoint with
      | nil =>
          rw [calls] at isIn
          cases isIn
      | cons first rest => exact ⟨_, rfl⟩

/-- Whatever is inserted in whatever order, the list is strictly ascending, and it has the first
point of each location, or that of the latest call that asks for replacement. -/
theorem isOrdered_afterInsertions (calls : List (Insertion F)) :
    IsOrdered calls (afterInsertions calls) := by
  have entries := entriesOf_afterInsertions calls
  have held (point : ValuedPoint F) : point ∈ afterInsertions calls ↔
      heldPoint calls point.toLocationPoint = some point := by
    rw [← find?_mapAfter, ← SortedMap.mem_entries_iff, ← entries, entriesOf, List.mem_map]
    constructor
    · exact fun member => ⟨point, member, rfl⟩
    · rintro ⟨other, member, same⟩
      rwa [← (Prod.mk.inj same).2]
  refine ⟨?_, held, ?_⟩
  · have sorted := (mapAfter calls).sorted
    rw [← entries, entriesOf, List.pairwise_map] at sorted
    exact sorted.imp ValuedPoint.less_iff.mpr
  · intro call member
    obtain ⟨point, isHeld⟩ := heldPoint_isSome member
    have entry : (call.locationPoint.toLocationPoint, point) ∈ (mapAfter calls).entries := by
      rw [SortedMap.mem_entries_iff, find?_mapAfter, isHeld]
    rw [← entries] at entry
    obtain ⟨other, isIn, same⟩ := List.mem_map.mp entry
    exact ⟨other, isIn, (Prod.mk.inj same).1⟩

end Wdb2ts
