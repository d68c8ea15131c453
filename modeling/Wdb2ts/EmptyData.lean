import Wdb2ts.Lib.FilteredMap
import Wdb2ts.Lib.WhileLoop
import Wdb2ts.PointData

/-!
# Removing empty data

`removeEmptyData` erases the data without values from the maps of a location, and then every map
that has no entry left.  The loops over the maps differ in what they do with an element before
they ask whether it is empty.
-/

namespace Wdb2ts

namespace miutil

section Erase

variable {κ β : Type} [LinearOrder κ]

/-- `eraseElementIf` on a map: the map, and the iterator that it returns. -/
def eraseMapElementIf (container : SortedMap κ β) (it : SortedMap.Iterator κ)
    (condition : Bool) : SortedMap κ β × SortedMap.Iterator κ :=
  match it with
  | none => (container, none)
  | some key => (if condition then container.erase key else container, container.next key)

/-- A map and the iterator of a loop over it. -/
structure Walk (κ β : Type) [LinearOrder κ] where
  container : SortedMap κ β
  it : SortedMap.Iterator κ

/-- A round of a loop that visits the element of its iterator and then erases it if it is empty.
There is no result when the visit does not end. -/
def eraseMapRound (visit : β → Option β) (empty : β → Bool) (walk : Walk κ β) :
    Walk κ β ⊕ Option (SortedMap κ β) :=
  match walk.it with
  | none => .inr (some walk.container)
  | some key =>
      match (walk.container.find? key).bind visit with
      | none => .inr none
      | some visited =>
          let erased :=
            eraseMapElementIf (walk.container.insert key visited) walk.it (empty visited)
          .inl ⟨erased.1, erased.2⟩

/-- A loop that visits the elements of a map and erases the empty ones. -/
def eraseMapLoop (visit : ℕ → β → Option β) (empty : β → Bool) (fuel : ℕ)
    (container : SortedMap κ β) : Option (SortedMap κ β) :=
  (WhileLoop.runUntil (eraseMapRound (visit fuel) empty) fuel
    ⟨container, container.begin_⟩).join

end Erase

end miutil

section RemoveEmptyData

variable {F : Type} [FloatLimits F] [DecidableEq F]

/-- The loop of `removeEmptyData` over the providers of a pair of times. -/
def removeEmptyProviders : ℕ → ProviderPDataList F → Option (ProviderPDataList F) :=
  miutil.eraseMapLoop (fun _ data => some data) fun data => decide (data.count = 0)

/-- The loop of `removeEmptyData` over the valid-from times of a valid-to time. -/
def removeEmptyFromTimes : ℕ → FromTimeSerie F → Option (FromTimeSerie F) :=
  miutil.eraseMapLoop removeEmptyProviders fun providers => providers.entries.isEmpty

/-- `removeEmptyData` of a time series. -/
def TimeSerie.removeEmptyData : ℕ → TimeSerie F → Option (TimeSerie F) :=
  miutil.eraseMapLoop removeEmptyFromTimes fun fromTimes => fromTimes.entries.isEmpty

/-- `removeEmptyData` of the data of all locations: the data that is left, if the loops end within
the given number of rounds. -/
def LocationPointData.removeEmptyData : ℕ → LocationPointData F → Option (LocationPointData F) :=
  miutil.eraseMapLoop TimeSerie.removeEmptyData fun serie => serie.entries.isEmpty

end RemoveEmptyData

/-! ## What a loop leaves of a map -/

namespace miutil

/-- A run that ends with a result, given enough rounds. -/
def EndsWith {ρ : Type} (run : ℕ → Option ρ) (result : ρ) : Prop :=
  ∃ bound, ∀ fuel ≥ bound, run fuel = some result

theorem EndsWith.forall_mem {κ β : Type} {visit : ℕ → β → Option β} {clean : β → β}
    (ends : ∀ value, EndsWith (fun fuel => visit fuel value) (clean value))
    (entries : List (κ × β)) :
    ∃ bound, ∀ fuel ≥ bound, ∀ entry ∈ entries, visit fuel entry.2 = some (clean entry.2) := by
  induction entries with
  | nil => exact ⟨0, fun fuel _ entry member => absurd member List.not_mem_nil⟩
  | cons head rest induction =>
      obtain ⟨first, firstEnds⟩ := ends head.2
      obtain ⟨others, othersEnd⟩ := induction
      refine ⟨max first others, fun fuel enough entry member => ?_⟩
      rcases List.mem_cons.mp member with equal | later
      · rw [equal]
        exact firstEnds fuel (le_of_max_le_left enough)
      · exact othersEnd fuel (le_of_max_le_right enough) entry later

variable {κ β : Type} [LinearOrder κ] {visit : β → Option β} {empty : β → Bool}
  {walk : Walk κ β} {before rest : List (κ × β)} {key : κ} {value : β}

/-- The value of an element after its visit, unless it is empty then. -/
def survivor (clean : β → β) (empty : β → Bool) (value : β) : Option β :=
  if empty (clean value) then none else some (clean value)

variable (empty) in
/-- A round leaves the survivor of its element behind and goes on to the next element. -/
theorem eraseMapRound_eq {clean : β → β}
    (split : walk.container.SplitAt walk.it before ((key, value) :: rest))
    (visited : visit value = some (clean value)) :
    ∃ next : Walk κ β, eraseMapRound visit empty walk = .inl next ∧
      next.container.SplitAt next.it
        (before ++ [(key, value)].filterMap (SortedMap.imageOf (survivor clean empty))) rest := by
  have atKey : walk.it = some key := split.at_
  have stored := split.insert (clean value)
  simp only [eraseMapRound, eraseMapElementIf, atKey, split.find?_eq, Option.bind_some, visited]
  refine ⟨_, rfl, ?_⟩
  cases isEmpty : empty (clean value) with
  | true => simpa [SortedMap.imageOf, survivor, isEmpty] using stored.erase
  | false => simpa [SortedMap.imageOf, survivor, isEmpty] using stored.advance

variable (empty walk) in
/-- The loop leaves the survivors of the elements that it still visits. -/
theorem runUntil_eraseMapRound {clean : β → β}
    (split : walk.container.SplitAt walk.it before rest)
    (visited : ∀ entry ∈ rest, visit entry.2 = some (clean entry.2)) {fuel : ℕ}
    (enough : rest.length < fuel) :
    ∃ left : SortedMap κ β,
      WhileLoop.runUntil (eraseMapRound visit empty) fuel walk = some (some left) ∧
      left.entries = before ++ rest.filterMap (SortedMap.imageOf (survivor clean empty)) := by
  induction rest generalizing walk before fuel with
  | nil =>
      obtain ⟨rounds, rfl⟩ := Nat.exists_eq_add_of_lt enough
      have atEnd : walk.it = none := split.at_
      refine ⟨walk.container, ?_, by simpa using split.entries⟩
      simp [WhileLoop.runUntil, eraseMapRound, atEnd]
  | cons head rest induction =>
      obtain ⟨key, value⟩ := head
      obtain ⟨rounds, rfl⟩ := Nat.exists_eq_add_of_lt enough
      obtain ⟨next, goes, splitNext⟩ :=
        eraseMapRound_eq empty split (visited _ (List.mem_cons_self ..))
      have others : ∀ entry ∈ rest, visit entry.2 = some (clean entry.2) := fun entry member =>
        visited entry (List.mem_cons_of_mem _ member)
      have fewer : rest.length < ((key, value) :: rest).length + rounds := by
        rw [List.length_cons]
        omega
      obtain ⟨left, ran, entries⟩ := induction next splitNext others fewer
      refine ⟨left, ?_, ?_⟩
      · rw [WhileLoop.runUntil, goes]
        exact ran
      · rw [entries, List.append_assoc, ← List.filterMap_append]
        rfl

/-- The loop ends when its visits do, and leaves the survivors. -/
theorem endsWith_eraseMapLoop {visit : ℕ → β → Option β} {clean : β → β}
    (ends : ∀ value, EndsWith (fun fuel => visit fuel value) (clean value))
    (container : SortedMap κ β) :
    EndsWith (fun fuel => eraseMapLoop visit empty fuel container)
      (container.filterMapValues (survivor clean empty)) := by
  obtain ⟨visitBound, visited⟩ := EndsWith.forall_mem ends container.entries
  refine ⟨max visitBound (container.entries.length + 1), fun fuel enough => ?_⟩
  obtain ⟨left, ran, entries⟩ := runUntil_eraseMapRound empty
    ⟨container, container.begin_⟩ (SortedMap.SplitAt.of_begin container)
    (visited fuel (le_of_max_le_left enough)) (le_of_max_le_right enough)
  have isLeft : left = container.filterMapValues (survivor clean empty) :=
    SortedMap.ext_entries entries
  simp only [eraseMapLoop, ran, isLeft, Option.join_some]

/-- An element is left with its clean value, which is not empty. -/
theorem survivor_eq_some {clean : β → β} {left : β} :
    survivor clean empty value = some left ↔ clean value = left ∧ empty left = false := by
  rw [survivor]
  cases isEmpty : empty (clean value) with
  | true =>
      simp only [if_true, reduceCtorEq, false_iff]
      rintro ⟨rfl, notEmpty⟩
      rw [isEmpty] at notEmpty
      contradiction
  | false =>
      simp only [Bool.false_eq_true, if_false, Option.some.injEq]
      constructor
      · rintro rfl
        exact ⟨rfl, isEmpty⟩
      · exact And.left

theorem find?_survivors {clean : β → β} {container : SortedMap κ β} {left : β} :
    (container.filterMapValues (survivor clean empty)).find? key = some left ↔
      ∃ value, container.find? key = some value ∧ clean value = left ∧ empty left = false := by
  rw [SortedMap.find?_filterMapValues, Option.bind_eq_some_iff]
  exact exists_congr fun value => and_congr_right fun _ => survivor_eq_some

/-- A lookup that finds nothing in an empty element does not tell the survivors from all elements
after their visit. -/
theorem bind_find?_survivors {γ : Type} {look : β → Option γ} {clean : β → β}
    (nothing : ∀ value, empty value = true → look value = none) (container : SortedMap κ β)
    (key : κ) :
    ((container.filterMapValues (survivor clean empty)).find? key).bind look =
      (container.find? key).bind fun value => look (clean value) := by
  rw [SortedMap.find?_filterMapValues]
  cases container.find? key with
  | none => rfl
  | some value =>
      rw [Option.bind_some, Option.bind_some, survivor]
      cases isEmpty : empty (clean value) with
      | true => rw [if_pos rfl, Option.bind_none, nothing _ isEmpty]
      | false => rw [if_neg Bool.false_ne_true, Option.bind_some]

end miutil

/-! ## What is left of the data -/

variable {F : Type} [FloatLimits F] [DecidableEq F]

/-- The providers with data. -/
def ProviderPDataList.nonEmpty (providers : ProviderPDataList F) : ProviderPDataList F :=
  providers.filterMapValues (miutil.survivor id fun data => decide (data.count = 0))

/-- The valid-from times with data. -/
def FromTimeSerie.nonEmpty (fromTimes : FromTimeSerie F) : FromTimeSerie F :=
  fromTimes.filterMapValues
    (miutil.survivor ProviderPDataList.nonEmpty fun providers => providers.entries.isEmpty)

/-- The valid-to times with data. -/
def TimeSerie.nonEmpty (serie : TimeSerie F) : TimeSerie F :=
  serie.filterMapValues
    (miutil.survivor FromTimeSerie.nonEmpty fun fromTimes => fromTimes.entries.isEmpty)

/-- The locations with data. -/
def LocationPointData.nonEmpty (data : LocationPointData F) : LocationPointData F :=
  data.filterMapValues
    (miutil.survivor TimeSerie.nonEmpty fun serie => serie.entries.isEmpty)

theorem endsWith_removeEmptyProviders (providers : ProviderPDataList F) :
    miutil.EndsWith (fun fuel => removeEmptyProviders fuel providers) providers.nonEmpty :=
  miutil.endsWith_eraseMapLoop (fun _ => ⟨0, fun _ _ => rfl⟩) providers

theorem endsWith_removeEmptyFromTimes (fromTimes : FromTimeSerie F) :
    miutil.EndsWith (fun fuel => removeEmptyFromTimes fuel fromTimes)
      fromTimes.nonEmpty :=
  miutil.endsWith_eraseMapLoop endsWith_removeEmptyProviders fromTimes

theorem TimeSerie.endsWith_removeEmptyData (serie : TimeSerie F) :
    miutil.EndsWith (fun fuel => TimeSerie.removeEmptyData fuel serie) serie.nonEmpty :=
  miutil.endsWith_eraseMapLoop endsWith_removeEmptyFromTimes serie

theorem LocationPointData.endsWith_removeEmptyData (data : LocationPointData F) :
    miutil.EndsWith (fun fuel => LocationPointData.removeEmptyData fuel data) data.nonEmpty :=
  miutil.endsWith_eraseMapLoop TimeSerie.endsWith_removeEmptyData data

theorem ProviderPDataList.find?_nonEmpty (providers : ProviderPDataList F) (provider : Bytes) :
    providers.nonEmpty.find? provider =
      (providers.find? provider).filter fun data => 0 < data.count := by
  rw [nonEmpty, SortedMap.find?_filterMapValues]
  cases providers.find? provider with
  | none => rfl
  | some data =>
      by_cases noValue : data.count = 0
      · simp [miutil.survivor, Option.filter, noValue]
      · simp [miutil.survivor, Option.filter, noValue, Nat.pos_of_ne_zero noValue]

/-- The cells that are left are those with values. -/
theorem TimeSerie.cell?_nonEmpty (serie : TimeSerie F) (key : CellKey) :
    serie.nonEmpty.cell? key = (serie.cell? key).filter fun data => 0 < data.count := by
  obtain ⟨toTime, fromTime, provider⟩ := key
  rw [cell?, cell?, nonEmpty, miutil.bind_find?_survivors]
  · cases serie.find? toTime with
    | none => rfl
    | some fromTimes =>
        rw [Option.bind_some, Option.bind_some, FromTimeSerie.nonEmpty,
          miutil.bind_find?_survivors]
        · cases fromTimes.find? fromTime with
          | none => rfl
          | some providers => exact providers.find?_nonEmpty provider
        · intro providers isEmpty
          exact SortedMap.find?_of_isEmpty isEmpty provider
  · intro fromTimes isEmpty
    rw [SortedMap.find?_of_isEmpty isEmpty]
    rfl

theorem LocationPointData.cell?_nonEmpty (data : LocationPointData F) (point : LocationPoint)
    (key : CellKey) :
    data.nonEmpty.cell? point key =
      (data.cell? point key).filter fun data => 0 < data.count := by
  rw [cell?, cell?, nonEmpty, miutil.bind_find?_survivors]
  · cases data.find? point with
    | none => rfl
    | some serie => exact serie.cell?_nonEmpty key
  · intro serie isEmpty
    rw [TimeSerie.cell?, SortedMap.find?_of_isEmpty isEmpty]
    rfl

/-- The empty data is removed from the maps, and nothing else. -/
structure RemovesEmptyData (before after : LocationPointData F) : Prop where
  hasValues : ∀ point key data, after.cell? point key = some data → 0 < data.count
  kept : ∀ point key data, before.cell? point key = some data → 0 < data.count →
    after.cell? point key = some data
  nothingNew : ∀ point key data, after.cell? point key = some data →
    before.cell? point key = some data
  hasToTimes : ∀ point serie, after.find? point = some serie → serie.entries ≠ []
  hasFromTimes : ∀ point serie toTime fromTimes, after.find? point = some serie →
    serie.find? toTime = some fromTimes → fromTimes.entries ≠ []
  hasProviders : ∀ point serie toTime fromTimes fromTime providers,
    after.find? point = some serie → serie.find? toTime = some fromTimes →
    fromTimes.find? fromTime = some providers → providers.entries ≠ []

/-- The loops end, and they remove the empty data and nothing else. -/
theorem LocationPointData.removeEmptyData_spec (data : LocationPointData F) :
    ∃ after : LocationPointData F, RemovesEmptyData data after ∧
      ∃ bound, ∀ fuel ≥ bound, LocationPointData.removeEmptyData fuel data = some after := by
  refine ⟨data.nonEmpty, ?_, data.endsWith_removeEmptyData⟩
  constructor
  case hasValues =>
    intro point key cell found
    rw [LocationPointData.cell?_nonEmpty, Option.filter_eq_some_iff] at found
    simpa using found.2
  case kept =>
    intro point key cell found counted
    rw [LocationPointData.cell?_nonEmpty, Option.filter_eq_some_iff]
    exact ⟨found, by simpa using counted⟩
  case nothingNew =>
    intro point key cell found
    rw [LocationPointData.cell?_nonEmpty, Option.filter_eq_some_iff] at found
    exact found.1
  case hasToTimes =>
    intro point serie found
    obtain ⟨old, stored, cleaned, notEmpty⟩ := miutil.find?_survivors.mp found
    simpa using notEmpty
  case hasFromTimes =>
    intro point serie toTime fromTimes found foundTo
    obtain ⟨old, stored, rfl, notEmpty⟩ := miutil.find?_survivors.mp found
    obtain ⟨oldTo, storedTo, cleaned, notEmptyTo⟩ := miutil.find?_survivors.mp foundTo
    simpa using notEmptyTo
  case hasProviders =>
    intro point serie toTime fromTimes fromTime providers found foundTo foundFrom
    obtain ⟨old, stored, rfl, notEmpty⟩ := miutil.find?_survivors.mp found
    obtain ⟨oldTo, storedTo, rfl, notEmptyTo⟩ := miutil.find?_survivors.mp foundTo
    obtain ⟨oldFrom, storedFrom, cleaned, notEmptyFrom⟩ := miutil.find?_survivors.mp foundFrom
    simpa using notEmptyFrom

end Wdb2ts
