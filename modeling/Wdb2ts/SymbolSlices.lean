import Wdb2ts.Floats
import Wdb2ts.Lib.MapIterator
import Wdb2ts.Lib.SortedLists
import Wdb2ts.WeatherSymbolDataBuffer

/-!
# Slices of the symbol data

A slice of a `WeatherSymbolDataBuffer` is a pair of iterators around the times of an interval.  It
is valid when the ends of the interval are stored and the stored times in between have one
distance.
-/

namespace Wdb2ts

variable {Data : Type}

namespace WeatherSymbolDataBuffer

/-! ## Changes of the buffer -/

/-- `WeatherSymbolDataBuffer::updateWeatherSymbol`, with the assignment of the symbol. -/
def updateWeatherSymbol (buffer : WeatherSymbolDataBuffer Data) (time : PTime)
    (setSymbol : Data → Data) : WeatherSymbolDataBuffer Data :=
  match buffer.data_.find? time with
  | none => buffer
  | some data => { buffer with data_ := buffer.data_.insert time (setSymbol data) }

/-- `WeatherSymbolDataBuffer::clear`. -/
def clear (buffer : WeatherSymbolDataBuffer Data) : WeatherSymbolDataBuffer Data :=
  { buffer with data_ := ∅ }

/-- The calls that change a buffer. -/
inductive Change (Data : Type) where
  | add (time : PTime) (data : Data)
  | updateWeatherSymbol (time : PTime) (setSymbol : Data → Data)
  | clear

/-- A call. -/
def change (buffer : WeatherSymbolDataBuffer Data) : Change Data → WeatherSymbolDataBuffer Data
  | .add time data => buffer.add time data
  | .updateWeatherSymbol time setSymbol => buffer.updateWeatherSymbol time setSymbol
  | .clear => buffer.clear

/-- A new buffer behind some calls. -/
def afterChanges (size : ℕ) (changes : List (Change Data)) : WeatherSymbolDataBuffer Data :=
  changes.foldl change (create size)

/-! ## Slices -/

/-- `SliceIterator`. -/
structure SliceIterator where
  start : SortedMap.Iterator PTime
  first : SortedMap.Iterator PTime
  second : SortedMap.Iterator PTime
  timestep : ℤ
  deriving DecidableEq, Repr

/-- `SliceIterator::operator!`, negated. -/
def SliceIterator.isValid (slice : SliceIterator) : Bool := slice.first.isSome

/-- `ptime - ptime`.  The difference of special times, which no buffer has, is left open. -/
def gap (earlier later : PTime) : Option ℤ :=
  match earlier, later with
  | .ticks earlier, .ticks later => some (later - earlier)
  | _, _ => none

/-- `time_duration::hours`. -/
def hoursOf (duration : Option ℤ) : ℤ := (duration.getD 0).tdiv (PTime.hours 1)

/-- The loop of `slice` over the times behind `prevIt`.  Returns the last `prevIt`, or nothing at a
time with another distance. -/
def sliceLoop (to_ : PTime) (d : Option ℤ) : PTime → List PTime → Option PTime
  | prevIt, [] => some prevIt
  | prevIt, it :: rest =>
      if it ≤ to_ then if gap prevIt it ≠ d then none else sliceLoop to_ d it rest
      else some prevIt

section Slices

variable (buffer : WeatherSymbolDataBuffer Data)

/-- `SliceIterator( data_ )`. -/
def noSlice : SliceIterator := ⟨buffer.data_.begin_, none, none, INT_MAX⟩

/-- The times behind a time, in the order of the iteration. -/
def timesBehind (time : PTime) : List PTime :=
  buffer.data_.keys.filter fun other => time < other

/-- `WeatherSymbolDataBuffer::slice`. -/
def slice (from_ to_ : PTime) : SliceIterator :=
  match buffer.data_.find? from_ with
  | none => buffer.noSlice
  | some _ =>
      match buffer.timesBehind from_ with
      | [] => buffer.noSlice
      | it :: rest =>
          let d := gap from_ it
          match sliceLoop to_ d it rest with
          | none => buffer.noSlice
          | some prevIt =>
              if prevIt ≠ to_ then buffer.noSlice
              else ⟨some from_, buffer.data_.next from_, some prevIt, hoursOf d⟩

/-! ## Evenly spaced times -/

/-- The stored times of an interval. -/
def timesWithin (from_ to_ : PTime) : List PTime :=
  buffer.data_.keys.filter fun time => from_ ≤ time ∧ time ≤ to_

/-- The stored times of an interval have one distance. -/
def HasStep (from_ to_ : PTime) (step : ℤ) : Prop :=
  (buffer.timesWithin from_ to_).IsChain fun earlier later => gap earlier later = some step

/-- Both ends of an interval are stored, and all of its times have one distance. -/
structure EvenlySpaced (from_ to_ : PTime) : Prop where
  less : from_ < to_
  from_mem : from_ ∈ buffer.data_.keys
  to_mem : to_ ∈ buffer.data_.keys
  step : ∃ step, buffer.HasStep from_ to_ step

/-- A slice starts at the begin of an interval, its other iterators are the ends of the stored times
behind the begin, and it has the distance of the times. -/
structure Delimits (from_ to_ : PTime) (slice : SliceIterator) : Prop where
  start : slice.start = some from_
  delimited : ∃ first ∈ buffer.data_.keys, ∃ second ∈ buffer.data_.keys,
    slice.first = some first ∧ slice.second = some second ∧
      ∀ time ∈ buffer.data_.keys, first ≤ time ∧ time ≤ second ↔ from_ < time ∧ time ≤ to_
  timestep : ∀ step, buffer.HasStep from_ to_ step → slice.timestep = step / PTime.hours 1

end Slices

/-! ## Ordinary times -/

/-- No stored time is special. -/
def OrdinaryTimes (buffer : WeatherSymbolDataBuffer Data) : Prop :=
  ∀ time ∈ buffer.data_.keys, time.isSpecial = false

variable {buffer : WeatherSymbolDataBuffer Data}

theorem mem_keys_pushNewest {capacity : ℕ} {map : SortedMap PTime Data} {time other : PTime}
    {data : Data} (isKept : other ∈ (map.pushNewest capacity time data).keys) :
    other = time ∨ other ∈ map.keys := by
  have stored := SortedMap.find?_pushNewest isKept
  by_cases same : other = time
  · exact Or.inl same
  · rw [if_neg same] at stored
    rw [SortedMap.mem_keys_iff, stored, ← SortedMap.mem_keys_iff] at isKept
    exact Or.inr isKept

theorem mem_keys_updateWeatherSymbol {time other : PTime} {setSymbol : Data → Data}
    (isKept : other ∈ (buffer.updateWeatherSymbol time setSymbol).data_.keys) :
    other ∈ buffer.data_.keys := by
  rw [updateWeatherSymbol] at isKept
  cases found : buffer.data_.find? time with
  | none =>
      rw [found] at isKept
      exact isKept
  | some data =>
      rw [found] at isKept
      dsimp only at isKept
      rw [SortedMap.mem_keys_iff, SortedMap.find?_insert] at isKept
      rw [SortedMap.mem_keys_iff]
      split at isKept
      · next same => exact ⟨data, same ▸ found⟩
      · exact isKept

/-- No call stores a special time. -/
theorem OrdinaryTimes.change (ordinary : OrdinaryTimes buffer) (call : Change Data) :
    OrdinaryTimes (buffer.change call) := by
  cases call with
  | add time data =>
      intro other isKept
      rw [WeatherSymbolDataBuffer.change, WeatherSymbolDataBuffer.add] at isKept
      split at isKept
      · exact ordinary other isKept
      · next notSpecial =>
          rcases mem_keys_pushNewest isKept with rfl | old
          · exact Bool.eq_false_of_not_eq_true notSpecial
          · exact ordinary other old
  | updateWeatherSymbol time setSymbol =>
      intro other isKept
      exact ordinary other (mem_keys_updateWeatherSymbol isKept)
  | clear =>
      intro other isKept
      exact absurd isKept List.not_mem_nil

theorem ordinaryTimes_afterChanges (size : ℕ) (changes : List (Change Data)) :
    OrdinaryTimes (afterChanges size changes) := by
  induction changes using List.reverseRecOn with
  | nil =>
      intro time isKept
      exact absurd isKept List.not_mem_nil
  | append_singleton changes call ih =>
      rw [afterChanges, List.foldl_concat]
      exact ih.change call

theorem exists_gap_eq {earlier later : PTime} (earlierOrdinary : earlier.isSpecial = false)
    (laterOrdinary : later.isSpecial = false) (less : earlier < later) :
    ∃ step, gap earlier later = some step ∧ 0 < step := by
  cases earlier with
  | ticks earlier =>
      cases later with
      | ticks later => exact ⟨later - earlier, rfl, sub_pos.mpr (PTime.ticks_lt_ticks.mp less)⟩
      | negInfinity => cases laterOrdinary
      | notADateTime => cases laterOrdinary
      | posInfinity => cases laterOrdinary
  | negInfinity => cases earlierOrdinary
  | notADateTime => cases earlierOrdinary
  | posInfinity => cases earlierOrdinary

/-! ## The loop of a slice -/

/-- The loop visits the times up to `to_`, and it gets through them when they have the distance. -/
theorem sliceLoop_eq_some_iff {to_ prevIt last : PTime} {d : Option ℤ} {rest : List PTime}
    (sorted : rest.Pairwise (· < ·)) :
    sliceLoop to_ d prevIt rest = some last ↔
      (prevIt :: rest.filter (· ≤ to_)).IsChain (fun earlier later => gap earlier later = d) ∧
        (prevIt :: rest.filter (· ≤ to_)).getLast? = some last := by
  induction rest generalizing prevIt with
  | nil => simp [sliceLoop]
  | cons it rest ih =>
      rw [sliceLoop]
      by_cases upTo : it ≤ to_
      · have visited : (it :: rest).filter (· ≤ to_) = it :: rest.filter (· ≤ to_) :=
          List.filter_cons_of_pos (decide_eq_true upTo)
        rw [if_pos upTo, visited, List.isChain_cons_cons, List.getLast?_cons_cons]
        by_cases hasDistance : gap prevIt it = d
        · rw [if_neg (not_not_intro hasDistance), ih (List.Pairwise.of_cons sorted), and_assoc]
          exact (and_iff_right hasDistance).symm
        · rw [if_pos hasDistance]
          exact iff_of_false (by simp) fun chain => hasDistance chain.1.1
      · rw [if_neg upTo, SortedList.filter_le_eq_nil sorted (not_le.mp upTo)]
        simp

/-! ## The times from a stored time on -/

/-- The times of a buffer around a stored time. -/
structure TimesAround (buffer : WeatherSymbolDataBuffer Data) (from_ : PTime)
    (before behind : List PTime) : Prop where
  keys : buffer.data_.keys = before ++ from_ :: behind
  next : buffer.data_.next from_ = behind.head?
  found : ∃ data, buffer.data_.find? from_ = some data

theorem exists_timesAround {from_ : PTime} (stored : from_ ∈ buffer.data_.keys) :
    ∃ before behind, buffer.TimesAround from_ before behind := by
  obtain ⟨data, found⟩ := SortedMap.mem_keys_iff.mp stored
  obtain ⟨before, rest, entries⟩ := List.append_of_mem (SortedMap.mem_entries_iff.mpr found)
  have split : buffer.data_.SplitAt (some from_) before ((from_, data) :: rest) := ⟨entries, rfl⟩
  refine ⟨before.map Prod.fst, rest.map Prod.fst, ?_, ?_, data, found⟩
  · rw [SortedMap.keys, entries, List.map_append, List.map_cons]
  · rw [split.next_eq, List.head?_map]

namespace TimesAround

variable {from_ to_ : PTime} {before behind : List PTime}

theorem lt_of_mem_before (around : buffer.TimesAround from_ before behind) {time : PTime}
    (member : time ∈ before) : time < from_ := by
  have sorted := buffer.data_.keys_sorted
  rw [around.keys] at sorted
  exact (List.pairwise_append.mp sorted).2.2 time member from_ (List.mem_cons_self ..)

theorem sorted (around : buffer.TimesAround from_ before behind) :
    (from_ :: behind).Pairwise (· < ·) := by
  have sorted := buffer.data_.keys_sorted
  rw [around.keys] at sorted
  exact (List.pairwise_append.mp sorted).2.1

theorem lt_of_mem_behind (around : buffer.TimesAround from_ before behind) {time : PTime}
    (member : time ∈ behind) : from_ < time :=
  List.rel_of_pairwise_cons around.sorted member

theorem mem_behind_iff (around : buffer.TimesAround from_ before behind) {time : PTime} :
    time ∈ behind ↔ time ∈ buffer.data_.keys ∧ from_ < time := by
  rw [around.keys, List.mem_append, List.mem_cons]
  constructor
  · exact fun member => ⟨Or.inr (Or.inr member), around.lt_of_mem_behind member⟩
  · rintro ⟨inFront | rfl | member, later⟩
    · exact absurd later (around.lt_of_mem_before inFront).not_gt
    · exact absurd later (lt_irrefl _)
    · exact member

theorem timesBehind_eq (around : buffer.TimesAround from_ before behind) :
    buffer.timesBehind from_ = behind := by
  have front : before.filter (from_ < ·) = [] := by
    rw [List.filter_eq_nil_iff]
    intro time member
    rw [decide_eq_true_iff]
    exact (around.lt_of_mem_before member).not_gt
  have rest : behind.filter (from_ < ·) = behind :=
    List.filter_eq_self.mpr fun time member => decide_eq_true (around.lt_of_mem_behind member)
  rw [timesBehind, around.keys, List.filter_append, front, List.nil_append,
    List.filter_cons_of_neg (by simp), rest]

theorem timesWithin_eq (around : buffer.TimesAround from_ before behind) (ordered : from_ ≤ to_) :
    buffer.timesWithin from_ to_ = from_ :: behind.filter (· ≤ to_) := by
  have front : before.filter (fun time => from_ ≤ time ∧ time ≤ to_) = [] := by
    rw [List.filter_eq_nil_iff]
    intro time member
    rw [decide_eq_true_iff, not_and_or]
    exact Or.inl (around.lt_of_mem_before member).not_ge
  have rest : behind.filter (fun time => from_ ≤ time ∧ time ≤ to_) = behind.filter (· ≤ to_) := by
    apply List.filter_congr
    intro time member
    have later := (around.lt_of_mem_behind member).le
    rw [decide_eq_decide, and_iff_right later]
  have isWithin : from_ ≤ from_ ∧ from_ ≤ to_ := ⟨le_rfl, ordered⟩
  rw [timesWithin, around.keys, List.filter_append, front, List.nil_append, List.filter_cons,
    if_pos (decide_eq_true isWithin), rest]

end TimesAround

/-! ## Valid slices -/

section ValidSlices

variable {from_ to_ : PTime}

theorem slice_eq {before rest : List PTime} {it : PTime}
    (around : buffer.TimesAround from_ before (it :: rest))
    (looped : sliceLoop to_ (gap from_ it) it rest = some to_) :
    buffer.slice from_ to_ = ⟨some from_, some it, some to_, hoursOf (gap from_ it)⟩ := by
  obtain ⟨data, found⟩ := around.found
  simp only [slice, found, around.timesBehind_eq, looped, around.next, List.head?_cons, ne_eq,
    not_true_eq_false, if_false]

/-- A slice is valid exactly when its begin is stored, a time is behind the begin, and the loop
ends at its end. -/
theorem slice_isValid_iff :
    (buffer.slice from_ to_).isValid = true ↔
      ∃ before it rest, buffer.TimesAround from_ before (it :: rest) ∧
        sliceLoop to_ (gap from_ it) it rest = some to_ := by
  constructor
  · intro valid
    rw [slice] at valid
    cases found : buffer.data_.find? from_ with
    | none =>
        rw [found] at valid
        cases valid
    | some data =>
        have stored := SortedMap.mem_keys_iff.mpr ⟨data, found⟩
        obtain ⟨before, behind, around⟩ := exists_timesAround stored
        rw [found, around.timesBehind_eq] at valid
        cases behind with
        | nil => cases valid
        | cons it rest =>
            cases looped : sliceLoop to_ (gap from_ it) it rest with
            | none =>
                simp only [looped] at valid
                cases valid
            | some last =>
                simp only [looped] at valid
                by_cases isLast : last = to_
                · exact ⟨before, it, rest, around, isLast ▸ looped⟩
                · rw [if_pos isLast] at valid
                  cases valid
  · rintro ⟨before, it, rest, around, looped⟩
    rw [slice_eq around looped]
    rfl

/-- The distance of the first two times is the distance of all of them. -/
theorem hasStep_iff {before rest : List PTime} {it : PTime}
    (around : buffer.TimesAround from_ before (it :: rest)) (upTo : it ≤ to_) (step : ℤ) :
    buffer.HasStep from_ to_ step ↔
      gap from_ it = some step ∧
        (it :: rest.filter (· ≤ to_)).IsChain fun earlier later =>
          gap earlier later = some step := by
  have later := around.lt_of_mem_behind (List.mem_cons_self ..)
  have visited : (it :: rest).filter (· ≤ to_) = it :: rest.filter (· ≤ to_) :=
    List.filter_cons_of_pos (decide_eq_true upTo)
  rw [HasStep, around.timesWithin_eq (later.le.trans upTo), visited, List.isChain_cons_cons]

theorem last_eq_iff {before rest : List PTime} {it : PTime}
    (around : buffer.TimesAround from_ before (it :: rest)) (upTo : it ≤ to_) :
    (it :: rest.filter (· ≤ to_)).getLast? = some to_ ↔ to_ ∈ it :: rest := by
  have visited : (it :: rest).filter (· ≤ to_) = it :: rest.filter (· ≤ to_) :=
    List.filter_cons_of_pos (decide_eq_true upTo)
  rw [← visited]
  exact SortedList.getLast?_filter_le (List.Pairwise.of_cons around.sorted)

/-- The loop ends at the end of an interval exactly when the end is stored and the times of the
interval have one distance. -/
theorem evenlySpaced_iff (ordinary : OrdinaryTimes buffer) :
    buffer.EvenlySpaced from_ to_ ↔
      ∃ before it rest, buffer.TimesAround from_ before (it :: rest) ∧
        sliceLoop to_ (gap from_ it) it rest = some to_ := by
  constructor
  · rintro ⟨less, fromStored, toStored, step, hasStep⟩
    obtain ⟨before, behind, around⟩ := exists_timesAround fromStored
    have member := around.mem_behind_iff.mpr ⟨toStored, less⟩
    cases behind with
    | nil => cases member
    | cons it rest =>
        have sorted := List.Pairwise.of_cons around.sorted
        have upTo : it ≤ to_ := by
          rcases List.mem_cons.mp member with same | behind
          · exact same.ge
          · exact (List.rel_of_pairwise_cons sorted behind).le
        have distance := (hasStep_iff around upTo step).mp hasStep
        refine ⟨before, it, rest, around, ?_⟩
        rw [sliceLoop_eq_some_iff (List.Pairwise.of_cons sorted), distance.1]
        exact ⟨distance.2, (last_eq_iff around upTo).mpr member⟩
  · rintro ⟨before, it, rest, around, looped⟩
    have sorted := List.Pairwise.of_cons around.sorted
    have later := around.lt_of_mem_behind (List.mem_cons_self ..)
    rw [sliceLoop_eq_some_iff (List.Pairwise.of_cons sorted)] at looped
    have upTo : it ≤ to_ := by
      have member := List.mem_of_getLast? looped.2
      rcases List.mem_cons.mp member with same | behind
      · exact same.ge
      · exact (List.rel_of_pairwise_cons sorted (List.mem_filter.mp behind).1).le
    have toStored := around.mem_behind_iff.mp ((last_eq_iff around upTo).mp looped.2)
    have itStored := around.mem_behind_iff.mp (List.mem_cons_self ..)
    have fromStored := SortedMap.mem_keys_iff.mpr around.found
    obtain ⟨step, distance, -⟩ :=
      exists_gap_eq (ordinary from_ fromStored) (ordinary it itStored.1) later
    rw [distance] at looped
    exact ⟨later.trans_le upTo, fromStored, toStored.1, step,
      (hasStep_iff around upTo step).mpr ⟨distance, looped.1⟩⟩

theorem hoursOf_eq {step : ℤ} (positive : 0 < step) : hoursOf (some step) = step / PTime.hours 1 :=
  Int.tdiv_eq_ediv_of_nonneg positive.le

/-- A slice that the loop has got through delimits the interval. -/
theorem delimits_of_looped (ordinary : OrdinaryTimes buffer) {before rest : List PTime}
    {it : PTime} (around : buffer.TimesAround from_ before (it :: rest))
    (looped : sliceLoop to_ (gap from_ it) it rest = some to_) :
    buffer.Delimits from_ to_ ⟨some from_, some it, some to_, hoursOf (gap from_ it)⟩ := by
  have spaced := (evenlySpaced_iff ordinary).mpr ⟨before, it, rest, around, looped⟩
  have itStored := around.mem_behind_iff.mp (List.mem_cons_self ..)
  have sorted := List.Pairwise.of_cons around.sorted
  have least : ∀ time ∈ buffer.data_.keys, from_ < time → it ≤ time := by
    intro time isKey later
    rcases List.mem_cons.mp (around.mem_behind_iff.mpr ⟨isKey, later⟩) with same | behind
    · exact same.ge
    · exact (List.rel_of_pairwise_cons sorted behind).le
  have upTo := least to_ spaced.to_mem spaced.less
  refine ⟨rfl, ⟨it, itStored.1, to_, spaced.to_mem, rfl, rfl, ?_⟩, ?_⟩
  · intro time isKey
    exact and_congr_left fun _ => ⟨itStored.2.trans_le, least time isKey⟩
  · intro step hasStep
    obtain ⟨other, distance, positive⟩ :=
      exists_gap_eq (ordinary from_ spaced.from_mem) (ordinary it itStored.1) itStored.2
    have same := ((hasStep_iff around upTo step).mp hasStep).1
    rw [distance] at same
    dsimp only
    rw [distance, hoursOf_eq positive, Option.some.inj same]

end ValidSlices

/-- Whatever has been stored, a slice is valid exactly for evenly spaced times, and a valid slice
delimits its interval. -/
theorem slice_afterChanges (size : ℕ) (changes : List (Change Data)) (from_ to_ : PTime) :
    (((afterChanges size changes).slice from_ to_).isValid = true ↔
      (afterChanges size changes).EvenlySpaced from_ to_) ∧
        (((afterChanges size changes).slice from_ to_).isValid = true →
          (afterChanges size changes).Delimits from_ to_
            ((afterChanges size changes).slice from_ to_)) := by
  have ordinary := ordinaryTimes_afterChanges size changes
  rw [slice_isValid_iff]
  refine ⟨(evenlySpaced_iff ordinary).symm, ?_⟩
  rintro ⟨before, it, rest, around, looped⟩
  rw [slice_eq around looped]
  exact delimits_of_looped ordinary around looped

end WeatherSymbolDataBuffer

end Wdb2ts
