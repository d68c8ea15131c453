import Mathlib.Algebra.Order.Floor.Ring
import Mathlib.Order.Bounds.Basic
import Wdb2ts.IsoTimes

/-!
# The nearest time in the future

A time is rounded up to a multiple of a resolution in its day, and the offset is added to the
result.  The slots of the resolution and the offset are an offset behind the multiples, so a slot
between a time and the multiple behind it is passed over.
-/

namespace Wdb2ts

namespace miutil

/-- The reference time, for which a special value stands for the clock. -/
def referenceTime (universalTime : ℤ) : PTime → ℤ
  | .ticks microseconds => microseconds
  | _ => universalTime

/-- `nearesTimeInTheFuture`, or nothing when it divides by zero. -/
def nearesTimeInTheFuture (universalTime resolutionInSeconds : ℤ) (refTime : PTime)
    (offsetInSeconds : ℤ) : Option (Except Bytes PTime) :=
  if resolutionInSeconds = 0 then none
  else
    let from_ := referenceTime universalTime refTime
    let seconds := PTime.secondsOfDay from_
    let q := ⌈(seconds : ℚ) / resolutionInSeconds⌉
    some do
      let date ← PTime.date from_
      return (PTime.ofDate date 0).add ((q * resolutionInSeconds + offsetInSeconds) * 1000000)

/-- The instants from a time on that are a number of resolutions and the offset behind a
midnight. -/
def slots (resolutionInSeconds offsetInSeconds time : ℤ) : Set ℤ :=
  {slot | time ≤ slot ∧ ∃ day count : ℤ, slot =
    day * PTime.dayLength + (count * resolutionInSeconds + offsetInSeconds) * 1000000}

/-- The rounded time is the earliest slot. -/
def IsNearestSlot (universalTime resolutionInSeconds : ℤ) (refTime : PTime)
    (offsetInSeconds : ℤ) : Prop :=
  ∃ slot, nearesTimeInTheFuture universalTime resolutionInSeconds refTime offsetInSeconds =
      some (.ok (.ticks slot)) ∧
    IsLeast (slots resolutionInSeconds offsetInSeconds (referenceTime universalTime refTime)) slot

/-! ## Slots -/

section Slots

variable {resolution offset time : ℤ}

/-- The midnight before a time. -/
def midnight (time : ℤ) : ℤ := time / PTime.dayLength * PTime.dayLength

/-- A time of whole seconds, by its midnight. -/
theorem eq_midnight_add (wholeSecond : (1000000 : ℤ) ∣ time) :
    time = midnight time + PTime.secondsOfDay time * 1000000 := by
  simp only [midnight, PTime.secondsOfDay, PTime.dayLength]
  omega

/-- A resolution that divides a day has the slots of one day in all days. -/
theorem mem_slots_iff (divides : resolution ∣ 86400) (slot : ℤ) :
    slot ∈ slots resolution offset time ↔ time ≤ slot ∧
      ∃ count, slot = midnight time + (count * resolution + offset) * 1000000 := by
  obtain ⟨parts, daily⟩ := divides
  refine and_congr_right fun _ => ⟨?_, ?_⟩
  · rintro ⟨day, count, rfl⟩
    refine ⟨(day - time / PTime.dayLength) * parts + count, ?_⟩
    have isDay : PTime.dayLength = resolution * parts * 1000000 := by
      rw [← daily]
      rfl
    rw [midnight, isDay]
    ring
  · rintro ⟨count, rfl⟩
    exact ⟨time / PTime.dayLength, count, rfl⟩

/-- A slot behind a time is the earliest one exactly when the slot before it is not. -/
theorem isLeast_slots_iff (positive : 0 < resolution) (divides : resolution ∣ 86400)
    (wholeSecond : (1000000 : ℤ) ∣ time) {count : ℤ}
    (behind : PTime.secondsOfDay time ≤ count * resolution + offset) :
    IsLeast (slots resolution offset time)
        (midnight time + (count * resolution + offset) * 1000000) ↔
      (count - 1) * resolution + offset < PTime.secondsOfDay time := by
  have isTime := eq_midnight_add wholeSecond
  constructor
  · intro least
    by_contra notBefore
    have earlier := least.2 ((mem_slots_iff divides _).mpr
      ⟨by omega, count - 1, rfl⟩)
    have less : (count - 1) * resolution = count * resolution - resolution := by ring
    omega
  · intro before
    refine ⟨(mem_slots_iff divides _).mpr ⟨by omega, count, rfl⟩, ?_⟩
    intro slot member
    obtain ⟨notBefore, other, rfl⟩ := (mem_slots_iff divides slot).mp member
    have later : count ≤ other := by
      by_contra less
      have atMost : other * resolution ≤ (count - 1) * resolution :=
        mul_le_mul_of_nonneg_right (by omega) positive.le
      omega
    have atLeast : count * resolution ≤ other * resolution :=
      mul_le_mul_of_nonneg_right later positive.le
    omega

end Slots

/-! ## Rounding -/

/-- Rounding up to a multiple. -/
theorem ceil_mul_bounds {resolution : ℤ} (positive : 0 < resolution) (seconds : ℤ) :
    seconds ≤ ⌈(seconds : ℚ) / resolution⌉ * resolution ∧
      (⌈(seconds : ℚ) / resolution⌉ - 1) * resolution < seconds := by
  have isPositive : (0 : ℚ) < resolution := Int.cast_pos.mpr positive
  have notBefore := (div_le_iff₀ isPositive).mp (Int.le_ceil ((seconds : ℚ) / resolution))
  have isBefore := (lt_div_iff₀ isPositive).mp
    (sub_lt_iff_lt_add.mpr (Int.ceil_lt_add_one ((seconds : ℚ) / resolution)))
  exact ⟨by exact_mod_cast notBefore, by exact_mod_cast isBefore⟩

/-- The slot before the rounded one is over exactly when the offset is less than what the time has
passed of its resolution. -/
theorem slotBefore_lt_iff {resolution offset : ℤ} (offsetLess : offset < resolution)
    {seconds count : ℤ}
    (notBefore : seconds ≤ count * resolution) (isBefore : (count - 1) * resolution < seconds) :
    (count - 1) * resolution + offset < seconds ↔
      seconds % resolution = 0 ∨ offset < seconds % resolution := by
  have passed : seconds % resolution = (seconds - (count - 1) * resolution) % resolution := by
    rw [Int.sub_mul_emod_self_right]
  have expand : (count - 1) * resolution = count * resolution - resolution := by ring
  rcases notBefore.eq_or_lt with atMultiple | between
  · have isZero : seconds % resolution = 0 := by
      rw [atMultiple, Int.mul_emod_left]
    rw [isZero]
    omega
  · rw [passed, Int.emod_eq_of_lt (by omega) (by omega)]
    omega

/-- What is computed at a reference time. -/
theorem nearesTimeInTheFuture_eq {universalTime resolution : ℤ} {refTime : PTime} {offset : ℤ}
    (notZero : resolution ≠ 0) {date : Calendar.Date}
    (isDate : PTime.date (referenceTime universalTime refTime) = .ok date) :
    nearesTimeInTheFuture universalTime resolution refTime offset =
      some (.ok (.ticks (midnight (referenceTime universalTime refTime) +
        (⌈((PTime.secondsOfDay (referenceTime universalTime refTime) : ℤ) : ℚ) / resolution⌉ *
          resolution + offset) * 1000000))) := by
  have number := (PTime.date_eq_ok isDate).2.2.2
  simp only [nearesTimeInTheFuture, if_neg notZero, isDate, bind, Except.bind, pure, Except.pure,
    PTime.ofDate, PTime.add, number, midnight]
  simp

/-- The rounded time is the nearest slot exactly when the reference time is at a multiple of the
resolution, or has passed more of it than the offset. -/
theorem isNearestSlot_iff {universalTime resolution offset : ℤ} {refTime : PTime}
    (positive : 0 < resolution) (divides : resolution ∣ 86400) (offsetNonneg : 0 ≤ offset)
    (offsetLess : offset < resolution)
    (wholeSecond : (1000000 : ℤ) ∣ referenceTime universalTime refTime)
    (hasDate : ∃ date, PTime.date (referenceTime universalTime refTime) = .ok date) :
    IsNearestSlot universalTime resolution refTime offset ↔
      (PTime.secondsOfDay (referenceTime universalTime refTime) : ℤ) % resolution = 0 ∨
        offset < PTime.secondsOfDay (referenceTime universalTime refTime) % resolution := by
  obtain ⟨date, isDate⟩ := hasDate
  obtain ⟨notBefore, isBefore⟩ := ceil_mul_bounds positive
    (PTime.secondsOfDay (referenceTime universalTime refTime))
  rw [IsNearestSlot, nearesTimeInTheFuture_eq positive.ne' isDate]
  simp only [Option.some.injEq, Except.ok.injEq, PTime.ticks.injEq, exists_eq_left']
  rw [isLeast_slots_iff positive divides wholeSecond (by omega),
    slotBefore_lt_iff offsetLess notBefore isBefore]

/-- The first of January 2014, at a quarter past midnight. -/
def quarterPast : ℤ := 1388535300000000

theorem isNearestSlot_iff_quarterPast :
    IsNearestSlot 0 3600 (.ticks quarterPast) 600 ↔
      (PTime.secondsOfDay quarterPast : ℤ) % 3600 = 0 ∨
        600 < (PTime.secondsOfDay quarterPast : ℤ) % 3600 :=
  isNearestSlot_iff (by decide) (by decide) (by decide) (by decide) (by decide)
    ⟨⟨2014, 1, 1⟩, by decide +kernel⟩

/-- With an offset of half an hour the slot at half past is passed over for the next one. -/
theorem not_isNearestSlot_halfPast :
    quarterPast + 900000000 ∈ slots 3600 1800 quarterPast ∧
      nearesTimeInTheFuture 0 3600 (.ticks quarterPast) 1800 =
        some (.ok (.ticks (quarterPast + 4500000000))) ∧
      ¬IsNearestSlot 0 3600 (.ticks quarterPast) 1800 := by
  have isSlot : quarterPast + 900000000 ∈ slots 3600 1800 quarterPast :=
    ⟨by decide, 16071, 0, by decide⟩
  have rounded : nearesTimeInTheFuture 0 3600 (.ticks quarterPast) 1800 =
      some (.ok (.ticks (quarterPast + 4500000000))) := by
    decide +kernel
  refine ⟨isSlot, rounded, ?_⟩
  rintro ⟨slot, isRounded, least⟩
  rw [rounded] at isRounded
  cases isRounded
  exact absurd (least.2 isSlot) (by decide)

end miutil

end Wdb2ts
