import Wdb2ts.Lib.NewestKeys
import Wdb2ts.PTime

/-!
# The moving buffer of symbol data

A `WeatherSymbolDataBuffer` holds the symbol data of the newest times.  Data for a time that is
older than all times of a full buffer is dropped.
-/

namespace Wdb2ts

variable {Data : Type}

/-- A `WeatherSymbolDataBuffer`.  The buffer does not look into the `Data` of a time, a
`SymbolDataElement`. -/
structure WeatherSymbolDataBuffer (Data : Type) where
  size_ : ℕ
  data_ : SortedMap PTime Data

namespace WeatherSymbolDataBuffer

/-- `WeatherSymbolDataBuffer( size )`. -/
def create (size : ℕ) : WeatherSymbolDataBuffer Data := ⟨size, ∅⟩

/-- `WeatherSymbolDataBuffer::add`. -/
def add (buffer : WeatherSymbolDataBuffer Data) (time : PTime) (data : Data) :
    WeatherSymbolDataBuffer Data :=
  if time.isSpecial then buffer
  else { buffer with data_ := buffer.data_.pushNewest buffer.size_ time data }

/-- The buffer behind the calls of `add` with the times and the data of a list. -/
def afterAdds (size : ℕ) (adds : List (PTime × Data)) : WeatherSymbolDataBuffer Data :=
  adds.foldl (fun buffer call => buffer.add call.1 call.2) (create size)

/-- The times that have been added. -/
def addedTimes (adds : List (PTime × Data)) : Finset PTime :=
  ((adds.map Prod.fst).filter fun time => !time.isSpecial).toFinset

/-- The data of the latest call for a time. -/
def latest (adds : List (PTime × Data)) (time : PTime) : Option Data :=
  (adds.reverse.find? fun call => call.1 = time).map Prod.snd

/-- A buffer holds the newest of the times that have been added in ascending order, each with the
data of its latest call, and each since its first call. -/
structure HoldsNewest (size : ℕ) (adds : List (PTime × Data))
    (buffer : WeatherSymbolDataBuffer Data) : Prop where
  newest : Newest size (addedTimes adds) buffer.data_.keys.toFinset
  ascending : buffer.data_.keys.Pairwise (· < ·)
  latest : ∀ time ∈ buffer.data_.keys, buffer.data_.find? time = latest adds time
  retained : ∀ earlier, earlier <+: adds → ∀ time ∈ buffer.data_.keys, time ∈ addedTimes earlier →
    time ∈ (afterAdds size earlier).data_.keys

theorem afterAdds_concat (size : ℕ) (adds : List (PTime × Data)) (call : PTime × Data) :
    afterAdds size (adds ++ [call]) = (afterAdds size adds).add call.1 call.2 :=
  List.foldl_concat ..

@[simp] theorem size_add (buffer : WeatherSymbolDataBuffer Data) (time : PTime) (data : Data) :
    (buffer.add time data).size_ = buffer.size_ := by
  rw [add]
  split <;> rfl

theorem size_afterAdds (size : ℕ) (adds : List (PTime × Data)) :
    (afterAdds size adds).size_ = size := by
  induction adds using List.reverseRecOn with
  | nil => rfl
  | append_singleton adds call ih => rw [afterAdds_concat, size_add, ih]

theorem addedTimes_concat (adds : List (PTime × Data)) (call : PTime × Data) :
    addedTimes (adds ++ [call]) =
      if call.1.isSpecial then addedTimes adds else insert call.1 (addedTimes adds) := by
  rw [addedTimes, List.map_append, List.filter_append, List.toFinset_append]
  cases special : call.1.isSpecial with
  | true => simp [addedTimes, special]
  | false => simp [addedTimes, special, Finset.union_comm]

theorem notSpecial_of_added {adds : List (PTime × Data)} {time : PTime}
    (wasAdded : time ∈ addedTimes adds) : time.isSpecial = false := by
  rw [addedTimes, List.mem_toFinset, List.mem_filter, Bool.not_eq_true'] at wasAdded
  exact wasAdded.2

theorem addedTimes_mono {earlier adds : List (PTime × Data)} (inFront : earlier <+: adds) :
    addedTimes earlier ⊆ addedTimes adds := by
  intro time
  rw [addedTimes, addedTimes, List.mem_toFinset, List.mem_toFinset]
  exact fun wasAdded => ((inFront.map Prod.fst).filter _).subset wasAdded

theorem latest_concat (adds : List (PTime × Data)) (call : PTime × Data) (time : PTime) :
    latest (adds ++ [call]) time =
      if time = call.1 then some call.2 else latest adds time := by
  rw [latest, List.reverse_append]
  by_cases same : time = call.1
  · simp [same]
  · simp [latest, same, Ne.symm same]

/-- The buffer holds the newest times. -/
theorem newest_afterAdds (size : ℕ) (adds : List (PTime × Data)) :
    Newest size (addedTimes adds) (afterAdds size adds).data_.keys.toFinset := by
  induction adds using List.reverseRecOn with
  | nil => exact Newest.empty size
  | append_singleton adds call ih =>
      rw [addedTimes_concat, afterAdds_concat, add]
      split
      · exact ih
      · rw [size_afterAdds]
        exact SortedMap.Newest.pushNewest ih call.1 call.2

/-- A time has the data of its latest call. -/
theorem find?_afterAdds (size : ℕ) (adds : List (PTime × Data)) {time : PTime}
    (isHeld : time ∈ (afterAdds size adds).data_.keys) :
    (afterAdds size adds).data_.find? time = latest adds time := by
  induction adds using List.reverseRecOn with
  | nil => simp [afterAdds, create, SortedMap.keys] at isHeld
  | append_singleton adds call ih =>
      rw [afterAdds_concat, add] at isHeld ⊢
      rw [latest_concat]
      split at isHeld
      · next special =>
          rw [if_pos special, ih isHeld, if_neg]
          rintro rfl
          have wasAdded := (newest_afterAdds size adds).subset (List.mem_toFinset.mpr isHeld)
          rw [notSpecial_of_added wasAdded] at special
          cases special
      · next notSpecial =>
          have stored := SortedMap.find?_pushNewest isHeld
          rw [if_neg notSpecial, stored]
          by_cases same : time = call.1
          · rw [if_pos same, if_pos same]
          · rw [if_neg same, if_neg same]
            apply ih
            rw [if_neg same] at stored
            rw [SortedMap.mem_keys_iff] at isHeld ⊢
            rwa [stored] at isHeld

/-- Whatever times are added in whatever order, the buffer holds the newest of them. -/
theorem holdsNewest_afterAdds (size : ℕ) (adds : List (PTime × Data)) :
    HoldsNewest size adds (afterAdds size adds) where
  newest := newest_afterAdds size adds
  ascending := SortedMap.keys_sorted _
  latest := fun _ isHeld => find?_afterAdds size adds isHeld
  retained := by
    intro earlier inFront time isHeld wasAdded
    rw [← List.mem_toFinset] at isHeld ⊢
    exact (newest_afterAdds size adds).mem_of_subset (newest_afterAdds size earlier)
      (addedTimes_mono inFront) isHeld wasAdded

end WeatherSymbolDataBuffer

end Wdb2ts
