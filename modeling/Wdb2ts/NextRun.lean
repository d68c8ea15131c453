import Mathlib.Order.Bounds.Basic
import Wdb2ts.PtimeUtil

/-!
# Next runs

An update group has a sorted list of periods of the day.  The next run of a group is at the end of
the period that its search finds for the clock of a request.
-/

namespace Wdb2ts

namespace config

/-- A time between two midnights. -/
abbrev TimeOfDay := {clock : ℤ // 0 ≤ clock ∧ clock < PTime.dayLength}

/-- `time_of_day` of a time. -/
def timeOfDay (microseconds : ℤ) : ℤ := microseconds % PTime.dayLength

/-! ## Periods -/

/-- A `TimePeriode`: its end, and its length, which is negative when it crosses midnight. -/
structure TimePeriode where
  to_ : ℤ
  dif : ℤ
  deriving DecidableEq, Repr

namespace TimePeriode

/-- `TimePeriode( from, to )`. -/
def create (from_ to_ : ℤ) : TimePeriode where
  to_ := to_
  dif := if from_ > to_ then -(PTime.dayLength - from_ + to_) else to_ - from_

/-- `TimePeriode::inPeriode`. -/
def inPeriode (period : TimePeriode) (time : ℤ) : Bool :=
  if period.dif < 0 then
    let d := if time > period.to_ then PTime.dayLength - time + period.to_ else period.to_ - time
    decide (-d ≥ period.dif)
  else
    let d := period.to_ - time
    if d < 0 then false else decide (d ≤ period.dif)

/-- The length of a period. -/
def length (period : TimePeriode) : ℤ := if period.dif < 0 then -period.dif else period.dif

/-- `TimePeriode::operator<`. -/
def lt (period rhs : TimePeriode) : Bool :=
  if period.to_ < rhs.to_ then true
  else if period.to_ = rhs.to_ then period.length < rhs.length
  else false

/-- `TimePeriode::refto`: the end of the period for a time, and its begin. -/
def refto (period : TimePeriode) (reftime : ℤ) : ℤ × ℤ :=
  let clock := timeOfDay reftime
  let d := reftime / PTime.dayLength
  let retTime :=
    if period.inPeriode clock then
      (if period.dif < 0 ∧ clock > period.to_ then d + 1 else d) * PTime.dayLength + period.to_
    else if period.dif < 0 then (d + 1) * PTime.dayLength + period.to_
    else (if clock > period.to_ then d + 1 else d) * PTime.dayLength + period.to_
  (retTime, if period.dif < 0 then retTime + period.dif else retTime - period.dif)

end TimePeriode

/-! ## Groups -/

/-- An `UpdateGroup`, by its periods. -/
structure UpdateGroup where
  timeList : List TimePeriode
  deriving DecidableEq, Repr

namespace UpdateGroup

/-- `UpdateGroup::addTimePeriod`. -/
def addTimePeriod (group : UpdateGroup) (timePeriod : TimePeriode) : UpdateGroup :=
  ⟨(group.timeList ++ [timePeriod]).mergeSort fun first second => !second.lt first⟩

/-- The group of the given first and last times of day. -/
def ofTimes (times : List (TimeOfDay × TimeOfDay)) : UpdateGroup :=
  times.foldl (fun group ends => group.addTimePeriod (TimePeriode.create ends.1 ends.2)) ⟨[]⟩

/-- The loop of `findTimePeriod` over the periods behind the first one, with `inPeriod`. -/
def findBehindFirst (time : ℤ) : List TimePeriode → Option (TimePeriode × Bool)
  | [] => none
  | period :: rest =>
      if period.inPeriode time then some (period, true)
      else if time < period.to_ then some (period, false)
      else findBehindFirst time rest

/-- `UpdateGroup::findTimePeriod`, with `inPeriod`. -/
def findTimePeriod (group : UpdateGroup) (time : ℤ) : Option (TimePeriode × Bool) :=
  match group.timeList with
  | [] => none
  | first :: rest =>
      if first.inPeriode time then some (first, true)
      else some ((findBehindFirst time rest).getD (first, false))

/-- `UpdateGroup::nextRun`, with `fromtime`, or nothing for `not_a_date_time`. -/
def nextRun (group : UpdateGroup) (reqTime : ℤ) : Option (ℤ × ℤ) :=
  (group.findTimePeriod (timeOfDay reqTime)).map fun found => found.1.refto reqTime

/-- The times at or after a request at which a period of a group ends. -/
def ends (group : UpdateGroup) (reqTime : ℤ) : Set ℤ :=
  {time | reqTime ≤ time ∧
    ∃ period ∈ group.timeList, ∃ day : ℤ, time = day * PTime.dayLength + period.to_}

/-- The next run is the earliest end of a period. -/
def NextRunIsEarliest (group : UpdateGroup) (reqTime : ℤ) : Prop :=
  ∃ run, group.nextRun reqTime = some run ∧ IsLeast (group.ends reqTime) run.1

end UpdateGroup

/-! ## Ends of periods -/

namespace TimePeriode

/-- A period that ends at a time of day, and lasts from before midnight when it crosses it. -/
structure Daily (period : TimePeriode) : Prop where
  to_nonneg : 0 ≤ period.to_
  to_lt : period.to_ < PTime.dayLength
  crosses : period.dif < 0 → period.to_ ≤ -period.dif

theorem daily_create (from_ to_ : TimeOfDay) : (create from_ to_).Daily where
  to_nonneg := to_.property.1
  to_lt := to_.property.2
  crosses _ := by
    have before := from_.property.2
    dsimp only [create] at *
    split <;> omega

/-- The time from a clock to the next end of a period. -/
def wait (period : TimePeriode) (clock : ℤ) : ℤ :=
  if clock ≤ period.to_ then period.to_ - clock else PTime.dayLength - clock + period.to_

/-- A time is in a period that crosses midnight unless its end is behind. -/
theorem inPeriode_of_crosses {period : TimePeriode} (daily : period.Daily)
    (crosses : period.dif < 0) {clock : ℤ} (nonneg : 0 ≤ clock) (notBehind : clock ≤ period.to_) :
    period.inPeriode clock = true := by
  have length := daily.crosses crosses
  simp only [inPeriode, if_pos crosses, if_neg (not_lt.mpr notBehind), decide_eq_true_eq]
  omega

/-- The end of a period that does not cross midnight is not behind the times in it. -/
theorem le_to_of_inPeriode {period : TimePeriode} {clock : ℤ} (crosses : ¬period.dif < 0)
    (inside : period.inPeriode clock = true) : clock ≤ period.to_ := by
  simp only [inPeriode, if_neg crosses] at inside
  split at inside
  · cases inside
  · omega

/-- The end that is found for a period is its next one. -/
theorem refto_eq {period : TimePeriode} (daily : period.Daily) (reftime : ℤ) :
    (period.refto reftime).1 = reftime + period.wait (timeOfDay reftime) := by
  have nonneg : 0 ≤ timeOfDay reftime := Int.emod_nonneg _ (by decide)
  have split_ : reftime = reftime / PTime.dayLength * PTime.dayLength + timeOfDay reftime :=
    (Int.ediv_mul_add_emod reftime PTime.dayLength).symm
  have nextDay : (reftime / PTime.dayLength + 1) * PTime.dayLength =
      reftime / PTime.dayLength * PTime.dayLength + PTime.dayLength := by ring
  have isNext : (if timeOfDay reftime > period.to_ then reftime / PTime.dayLength + 1
        else reftime / PTime.dayLength) * PTime.dayLength + period.to_ =
      reftime + period.wait (timeOfDay reftime) := by
    rw [wait]
    by_cases behind : timeOfDay reftime > period.to_
    · rw [if_pos behind, if_neg behind.not_ge, nextDay]
      omega
    · rw [if_neg behind, if_pos (not_lt.mp behind)]
      omega
  rw [← isNext, refto]
  dsimp only
  by_cases inside : period.inPeriode (timeOfDay reftime) = true
  · rw [if_pos inside]
    by_cases crosses : period.dif < 0
    · simp only [crosses, true_and]
    · have notBehind := (le_to_of_inPeriode crosses inside).not_gt
      rw [if_neg fun both => crosses both.1, if_neg notBehind]
  · rw [if_neg inside]
    by_cases crosses : period.dif < 0
    · have behind : timeOfDay reftime > period.to_ := by
        by_contra notBehind
        exact inside (inPeriode_of_crosses daily crosses nonneg (not_lt.mp notBehind))
      rw [if_pos crosses, if_pos behind]
    · rw [if_neg crosses]

/-- The next end of a period is the earliest one that is not before a time. -/
theorem isLeast_wait {period : TimePeriode} (daily : period.Daily) (time : ℤ) :
    IsLeast {end_ | time ≤ end_ ∧ ∃ day : ℤ, end_ = day * PTime.dayLength + period.to_}
      (time + period.wait (timeOfDay time)) := by
  have nonneg := daily.to_nonneg
  have less := daily.to_lt
  by_cases behind : timeOfDay time ≤ period.to_
  · rw [wait, if_pos behind]
    simp only [timeOfDay, PTime.dayLength] at less behind ⊢
    refine ⟨⟨by omega, time / 86400000000, by omega⟩, ?_⟩
    rintro end_ ⟨notBefore, day, rfl⟩
    omega
  · rw [wait, if_neg behind]
    simp only [timeOfDay, PTime.dayLength] at less behind ⊢
    refine ⟨⟨by omega, time / 86400000000 + 1, by omega⟩, ?_⟩
    rintro end_ ⟨notBefore, day, rfl⟩
    omega

/-! ### The interval of a period -/

/-- The clocks from a first one up to a last one, around midnight when the last one comes first. -/
def cyclicInterval (first last : ℤ) : Set ℤ :=
  {clock | (clock - first) % PTime.dayLength ≤ (last - first) % PTime.dayLength}

/-- The membership in a period, its next end, and its begin agree. -/
structure AgreesAt (from_ to_ : TimeOfDay) (time : ℤ) : Prop where
  inside : (create from_ to_).inPeriode (timeOfDay time) = true ↔
    timeOfDay time ∈ cyclicInterval from_ to_
  earliest : IsLeast {end_ | time ≤ end_ ∧ timeOfDay end_ = to_} ((create from_ to_).refto time).1
  begin_ : ((create from_ to_).refto time).2 =
    ((create from_ to_).refto time).1 - (to_ - from_) % PTime.dayLength
  reached : (create from_ to_).inPeriode (timeOfDay time) = true ↔
    ((create from_ to_).refto time).2 ≤ time

theorem dif_create_of_lt {from_ to_ : ℤ} (crosses : from_ > to_) :
    (create from_ to_).dif = -(PTime.dayLength - from_ + to_) :=
  if_pos crosses

theorem dif_create_of_le {from_ to_ : ℤ} (within : ¬from_ > to_) :
    (create from_ to_).dif = to_ - from_ :=
  if_neg within

theorem length_create (from_ to_ : TimeOfDay) :
    (create from_ to_).length = (to_ - from_) % PTime.dayLength := by
  rcases from_ with ⟨from_, fromNonneg, fromLess⟩
  rcases to_ with ⟨to_, toNonneg, toLess⟩
  dsimp only
  by_cases crosses : from_ > to_
  · rw [length, dif_create_of_lt crosses, if_pos (by omega), neg_neg,
      ← Int.add_emod_right (to_ - from_) PTime.dayLength, Int.emod_eq_of_lt (by omega) (by omega)]
    ring
  · rw [length, dif_create_of_le crosses, if_neg (by omega),
      Int.emod_eq_of_lt (by omega) (by omega)]

/-- A period begins its length before it ends. -/
theorem refto_begin (period : TimePeriode) (time : ℤ) :
    (period.refto time).2 = (period.refto time).1 - period.length := by
  simp only [refto, length]
  split
  · rw [sub_neg_eq_add]
  · rfl

/-- A clock is in a period when the next end of the period is not farther away than its length. -/
theorem inPeriode_iff_wait_le (from_ to_ : TimeOfDay) {clock : ℤ}
    (less : clock < PTime.dayLength) :
    (create from_ to_).inPeriode clock = true ↔
      (create from_ to_).wait clock ≤ (create from_ to_).length := by
  rcases from_ with ⟨from_, fromNonneg, fromLess⟩
  rcases to_ with ⟨to_, toNonneg, toLess⟩
  have isTo : (create from_ to_).to_ = to_ := rfl
  by_cases crosses : from_ > to_
  · have isDif := dif_create_of_lt crosses
    have negative : -(PTime.dayLength - from_ + to_) < 0 := by omega
    rw [inPeriode, length, wait, isDif, if_pos negative, if_pos negative, isTo]
    dsimp only
    rw [decide_eq_true_eq]
    by_cases behind : clock > to_
    · rw [if_pos behind, if_neg behind.not_ge]
      omega
    · rw [if_neg behind, if_pos (not_lt.mp behind)]
      omega
  · have isDif := dif_create_of_le crosses
    have notNegative : ¬to_ - from_ < 0 := by omega
    rw [inPeriode, length, wait, isDif, if_neg notNegative, if_neg notNegative, isTo]
    dsimp only
    by_cases behind : clock > to_
    · have isOver : to_ - clock < 0 := by omega
      rw [if_pos isOver, if_neg behind.not_ge]
      exact iff_of_false Bool.false_ne_true (by omega)
    · have notOver : ¬to_ - clock < 0 := by omega
      rw [if_neg notOver, if_pos (not_lt.mp behind), decide_eq_true_eq]

/-- The next end is as far away as the last clock is from a clock. -/
theorem wait_le_iff_mem_cyclicInterval (from_ to_ : TimeOfDay) {clock : ℤ} (nonneg : 0 ≤ clock)
    (less : clock < PTime.dayLength) :
    (create from_ to_).wait clock ≤ (to_ - from_) % PTime.dayLength ↔
      clock ∈ cyclicInterval from_ to_ := by
  rcases from_ with ⟨from_, fromNonneg, fromLess⟩
  rcases to_ with ⟨to_, toNonneg, toLess⟩
  have isTo : (create from_ to_).to_ = to_ := rfl
  rw [cyclicInterval, Set.mem_ofPred_eq, wait, isTo]
  dsimp only
  rw [PTime.dayLength] at less fromLess toLess ⊢
  by_cases behind : clock ≤ to_
  · rw [if_pos behind]
    omega
  · rw [if_neg behind]
    omega

/-- The times with the clock of the end of a period are its ends. -/
theorem timeOfDay_eq_iff (to_ : TimeOfDay) (time : ℤ) :
    timeOfDay time = to_ ↔ ∃ day : ℤ, time = day * PTime.dayLength + to_ := by
  rcases to_ with ⟨to_, nonneg, less⟩
  constructor
  · rintro rfl
    exact ⟨time / PTime.dayLength, (Int.ediv_mul_add_emod time PTime.dayLength).symm⟩
  · rintro ⟨day, rfl⟩
    rw [timeOfDay, add_comm, Int.add_mul_emod_self_right, Int.emod_eq_of_lt nonneg less]

/-- A time is in a period exactly when its clock is in the cyclic interval from the begin of the
period to its end, and exactly when the period with the next end has begun. -/
theorem agreesAt_refto (from_ to_ : TimeOfDay) (time : ℤ) : AgreesAt from_ to_ time := by
  have daily := daily_create from_ to_
  have nonneg : 0 ≤ timeOfDay time := Int.emod_nonneg _ (by decide)
  have less : timeOfDay time < PTime.dayLength := Int.emod_lt_of_pos _ (by decide)
  have inside := inPeriode_iff_wait_le from_ to_ less
  constructor
  · rw [inside, length_create]
    exact wait_le_iff_mem_cyclicInterval from_ to_ nonneg less
  · have ends : {end_ | time ≤ end_ ∧ timeOfDay end_ = to_} =
        {end_ | time ≤ end_ ∧
          ∃ day : ℤ, end_ = day * PTime.dayLength + (create from_ to_).to_} := by
      ext end_
      simp only [Set.mem_ofPred_eq, timeOfDay_eq_iff, create]
    rw [ends, refto_eq daily]
    exact isLeast_wait daily time
  · rw [refto_begin, length_create]
  · rw [inside, refto_begin, refto_eq daily]
    omega

/-- A period that does not contain a time and does not end later is over. -/
theorem to_lt_of_not_inPeriode {period : TimePeriode} (daily : period.Daily) {clock : ℤ}
    (nonneg : 0 ≤ clock) (outside : period.inPeriode clock = false)
    (notBefore : ¬clock < period.to_) : period.to_ < clock := by
  by_contra notBehind
  have atEnd : clock = period.to_ := le_antisymm (not_lt.mp notBehind) (not_lt.mp notBefore)
  by_cases crosses : period.dif < 0
  · have inside := inPeriode_of_crosses daily crosses nonneg (not_lt.mp notBehind)
    rw [outside] at inside
    cases inside
  · simp only [inPeriode, if_neg crosses, atEnd, sub_self, lt_irrefl, if_false,
      decide_eq_false_iff_not] at outside
    exact outside (not_lt.mp crosses)

/-- A period that ends later in the day ends before those that end later than it, and before those
that are over. -/
theorem wait_le_iff_of_le_to {period other : TimePeriode} (daily : period.Daily)
    (otherDaily : other.Daily) {clock : ℤ} (notBehind : clock ≤ period.to_) :
    period.wait clock ≤ other.wait clock ↔ (clock ≤ other.to_ → period.to_ ≤ other.to_) := by
  have less := daily.to_lt
  have otherNonneg := otherDaily.to_nonneg
  rw [wait, if_pos notBehind, wait]
  split <;> omega

/-- A period that is over ends before those that are over and end later in the day. -/
theorem wait_le_iff_of_to_lt {period other : TimePeriode} (daily : period.Daily)
    (otherDaily : other.Daily) {clock : ℤ} (behind : period.to_ < clock) :
    period.wait clock ≤ other.wait clock ↔ other.to_ < clock ∧ period.to_ ≤ other.to_ := by
  have nonneg := daily.to_nonneg
  have otherLess := otherDaily.to_lt
  rw [wait, if_neg behind.not_ge, wait]
  split <;> omega

/-- The order of the periods is that of their ends, and of their lengths. -/
theorem lt_iff (period rhs : TimePeriode) : period.lt rhs = true ↔
    period.to_ < rhs.to_ ∨ period.to_ = rhs.to_ ∧ period.length < rhs.length := by
  rw [lt]
  split
  · next less => exact iff_of_true rfl (Or.inl less)
  · next notLess =>
      split
      · next same => simp only [decide_eq_true_eq, same, lt_irrefl, true_and, false_or]
      · next differ => simp [notLess, differ]

end TimePeriode

/-! ## The search -/

namespace UpdateGroup

/-- A group of daily periods, by their ends. -/
structure WellFormed (group : UpdateGroup) : Prop where
  daily : ∀ period ∈ group.timeList, period.Daily
  sorted : group.timeList.Pairwise fun first second => first.to_ ≤ second.to_

theorem WellFormed.addTimePeriod {group : UpdateGroup} (wellFormed : group.WellFormed)
    {timePeriod : TimePeriode} (daily : timePeriod.Daily) :
    (group.addTimePeriod timePeriod).WellFormed := by
  constructor
  · intro period member
    rw [UpdateGroup.addTimePeriod, List.mem_mergeSort, List.mem_append,
      List.mem_singleton] at member
    rcases member with old | rfl
    · exact wellFormed.daily period old
    · exact daily
  · have trans (first second third : TimePeriode) (left : (!second.lt first) = true)
        (right : (!third.lt second) = true) : (!third.lt first) = true := by
      simp only [Bool.not_eq_true', Bool.eq_false_iff, ne_eq, TimePeriode.lt_iff] at *
      omega
    have total (first second : TimePeriode) :
        (!second.lt first || !first.lt second) = true := by
      simp only [Bool.or_eq_true, Bool.not_eq_true', Bool.eq_false_iff, ne_eq, TimePeriode.lt_iff]
      omega
    refine (List.pairwise_mergeSort trans total (group.timeList ++ [timePeriod])).imp ?_
    intro first second notLess
    rw [Bool.not_eq_true', Bool.eq_false_iff, ne_eq, TimePeriode.lt_iff] at notLess
    omega

/-- The groups of the configuration are well-formed. -/
theorem wellFormed_ofTimes (times : List (TimeOfDay × TimeOfDay)) :
    (ofTimes times).WellFormed := by
  have adds (group : UpdateGroup) (wellFormed : group.WellFormed) :
      (times.foldl (fun group ends =>
        group.addTimePeriod (TimePeriode.create ends.1 ends.2)) group).WellFormed := by
    induction times generalizing group with
    | nil => exact wellFormed
    | cons ends rest ih =>
        exact ih _ (wellFormed.addTimePeriod (TimePeriode.daily_create ends.1 ends.2))
  exact adds ⟨[]⟩ ⟨nofun, List.Pairwise.nil⟩

/-- What the loop finds: the first period that contains a time or ends later. -/
theorem findBehindFirst_eq_some {time : ℤ} {periods : List TimePeriode}
    (daily : ∀ period ∈ periods, period.Daily) (nonneg : 0 ≤ time) {found : TimePeriode × Bool}
    (finds : findBehindFirst time periods = some found) :
    ∃ before behind, periods = before ++ found.1 :: behind ∧
      (∀ period ∈ before, period.to_ < time ∧ period.inPeriode time = false) ∧
        (found.1.inPeriode time = true ∨ time < found.1.to_) := by
  induction periods with
  | nil => cases finds
  | cons period rest ih =>
      rw [findBehindFirst] at finds
      split at finds
      · next inside =>
          cases finds
          exact ⟨[], rest, rfl, nofun, Or.inl inside⟩
      · next outside =>
          split at finds
          · next later =>
              cases finds
              exact ⟨[], rest, rfl, nofun, Or.inr later⟩
          · next notLater =>
              have isOutside := Bool.eq_false_iff.mpr outside
              obtain ⟨before, behind, rfl, areOver, isFound⟩ :=
                ih (fun other member => daily other (List.mem_cons_of_mem _ member)) finds
              refine ⟨period :: before, behind, rfl, ?_, isFound⟩
              intro other member
              rcases List.mem_cons.mp member with rfl | old
              · exact ⟨TimePeriode.to_lt_of_not_inPeriode (daily other (List.mem_cons_self ..))
                  nonneg isOutside notLater, isOutside⟩
              · exact areOver other old

/-- When the loop finds nothing, all periods are over. -/
theorem findBehindFirst_eq_none {time : ℤ} {periods : List TimePeriode}
    (daily : ∀ period ∈ periods, period.Daily) (nonneg : 0 ≤ time)
    (finds : findBehindFirst time periods = none) :
    ∀ period ∈ periods, period.to_ < time ∧ period.inPeriode time = false := by
  induction periods with
  | nil => exact nofun
  | cons period rest ih =>
      rw [findBehindFirst] at finds
      split at finds
      · cases finds
      · next outside =>
          split at finds
          · cases finds
          · next notLater =>
              have isOutside := Bool.eq_false_iff.mpr outside
              intro other member
              rcases List.mem_cons.mp member with rfl | old
              · exact ⟨TimePeriode.to_lt_of_not_inPeriode (daily other (List.mem_cons_self ..))
                  nonneg isOutside notLater, isOutside⟩
              · exact ih (fun other member => daily other (List.mem_cons_of_mem _ member)) finds
                  other old

/-- A period of a group ends first exactly when its next end is the earliest one. -/
theorem isLeast_ends_iff {group : UpdateGroup} (wellFormed : group.WellFormed)
    {found : TimePeriode} (member : found ∈ group.timeList) (reqTime : ℤ) :
    IsLeast (group.ends reqTime) (found.refto reqTime).1 ↔
      ∀ period ∈ group.timeList,
        found.wait (timeOfDay reqTime) ≤ period.wait (timeOfDay reqTime) := by
  have daily := wellFormed.daily found member
  rw [TimePeriode.refto_eq daily]
  obtain ⟨notBefore, day, atEnd⟩ := (TimePeriode.isLeast_wait daily reqTime).1
  constructor
  · intro least period other
    obtain ⟨otherNotBefore, otherDay, otherEnd⟩ :=
      (TimePeriode.isLeast_wait (wellFormed.daily period other) reqTime).1
    exact le_of_add_le_add_left (least.2 ⟨otherNotBefore, period, other, otherDay, otherEnd⟩)
  · intro shortest
    refine ⟨⟨notBefore, found, member, day, atEnd⟩, ?_⟩
    rintro time ⟨timeNotBefore, period, other, timeDay, isEnd⟩
    have earliest := (TimePeriode.isLeast_wait (wellFormed.daily period other) reqTime).2
      ⟨timeNotBefore, timeDay, isEnd⟩
    exact (Int.add_le_add_left (shortest period other) reqTime).trans earliest

/-! ## The earliest end -/

/-- When the search finds the period that ends first: a request that is not behind the first end is
in the first period or there is no later end, and a period that is over does not contain the
request unless all are over and one with the first end contains it. -/
def FindsEarliest (clock : ℤ) : List TimePeriode → Prop
  | [] => False
  | first :: rest =>
      (clock ≤ first.to_ → first.inPeriode clock = true ∨
        ∀ second ∈ rest.head?, second.to_ = first.to_) ∧
      (first.to_ < clock → ∀ period ∈ first :: rest,
        period.to_ < clock → period.inPeriode clock = true →
          (∀ other ∈ first :: rest, other.to_ < clock) ∧
            ∃ other ∈ first :: rest, other.to_ = first.to_ ∧ other.inPeriode clock = true)

/-- The first period ends first in the day. -/
theorem first_to_le {first : TimePeriode} {rest : List TimePeriode}
    (sorted : (first :: rest).Pairwise fun first second => first.to_ ≤ second.to_) :
    ∀ period ∈ first :: rest, first.to_ ≤ period.to_ := by
  intro period member
  rcases List.mem_cons.mp member with rfl | behind
  · exact le_rfl
  · exact List.rel_of_pairwise_cons sorted behind

/-- A request in the first period. -/
theorem findsEarliest_iff_of_inFirst {first : TimePeriode} {rest : List TimePeriode} {clock : ℤ}
    (daily : ∀ period ∈ first :: rest, period.Daily)
    (sorted : (first :: rest).Pairwise fun first second => first.to_ ≤ second.to_)
    (inside : first.inPeriode clock = true) :
    (∀ period ∈ first :: rest, first.wait clock ≤ period.wait clock) ↔
      FindsEarliest clock (first :: rest) := by
  have isFirst := first_to_le sorted
  have firstDaily := daily first (List.mem_cons_self ..)
  by_cases notBehind : clock ≤ first.to_
  · refine iff_of_true ?_ ⟨fun _ => Or.inl inside, fun behind => absurd notBehind behind.not_ge⟩
    intro period member
    rw [TimePeriode.wait_le_iff_of_le_to firstDaily (daily period member) notBehind]
    exact fun _ => isFirst period member
  · have behind := not_le.mp notBehind
    constructor
    · intro shortest
      refine ⟨fun isNotBehind => absurd isNotBehind notBehind, fun _ _ _ _ _ => ?_⟩
      refine ⟨fun other member => ?_, first, List.mem_cons_self .., rfl, inside⟩
      exact ((TimePeriode.wait_le_iff_of_to_lt firstDaily (daily other member) behind).mp
        (shortest other member)).1
    · intro finds period member
      rw [TimePeriode.wait_le_iff_of_to_lt firstDaily (daily period member) behind]
      have allOver := (finds.2 behind first (List.mem_cons_self ..) behind inside).1
      exact ⟨allOver period member, isFirst period member⟩

/-! ### A request that is not in the first period, when the loop finds one -/

section Found

variable {first found : TimePeriode} {before behind : List TimePeriode} {clock : ℤ}

theorem found_mem : found ∈ first :: (before ++ found :: behind) :=
  List.mem_cons_of_mem _ (List.mem_append_right _ (List.mem_cons_self ..))

/-- The periods from the found one on end later. -/
theorem found_to_le
    (sorted : (first :: (before ++ found :: behind)).Pairwise
      fun first second => first.to_ ≤ second.to_) :
    ∀ period ∈ found :: behind, found.to_ ≤ period.to_ :=
  first_to_le (List.pairwise_append.mp (List.pairwise_cons.mp sorted).2).2.1

/-- A period is in front of the found one, where it is over, or from it on. -/
theorem over_or_from_found (outside : first.inPeriode clock = false)
    (firstBehind : first.to_ < clock)
    (areOver : ∀ period ∈ before, period.to_ < clock ∧ period.inPeriode clock = false)
    {period : TimePeriode} (member : period ∈ first :: (before ++ found :: behind)) :
    (period.to_ < clock ∧ period.inPeriode clock = false) ∨ period ∈ found :: behind := by
  rcases List.mem_cons.mp member with rfl | inRest
  · exact Or.inl ⟨firstBehind, outside⟩
  · rcases List.mem_append.mp inRest with isBefore | isBehind
    · exact Or.inl (areOver period isBefore)
    · exact Or.inr isBehind

/-- The periods in front of the found one are over, and it is not. -/
theorem findsEarliest_iff_of_le_found
    (daily : ∀ period ∈ first :: (before ++ found :: behind), period.Daily)
    (sorted : (first :: (before ++ found :: behind)).Pairwise
      fun first second => first.to_ ≤ second.to_)
    (outside : first.inPeriode clock = false) (firstBehind : first.to_ < clock)
    (areOver : ∀ period ∈ before, period.to_ < clock ∧ period.inPeriode clock = false)
    (notBehind : clock ≤ found.to_) :
    (∀ period ∈ first :: (before ++ found :: behind), found.wait clock ≤ period.wait clock) ↔
      FindsEarliest clock (first :: (before ++ found :: behind)) := by
  have laterEnds := found_to_le sorted
  refine iff_of_true ?_ ⟨fun isNotBehind => absurd isNotBehind firstBehind.not_ge, ?_⟩
  · intro period member
    rw [TimePeriode.wait_le_iff_of_le_to (daily found found_mem) (daily period member) notBehind]
    intro later
    rcases over_or_from_found outside firstBehind areOver member with isOver | isBehind
    · exact absurd later isOver.1.not_ge
    · exact laterEnds period isBehind
  · intro _ period member isOver contains
    rcases over_or_from_found outside firstBehind areOver member with isBefore | isBehind
    · rw [isBefore.2] at contains
      cases contains
    · exact absurd isOver (notBehind.trans (laterEnds period isBehind)).not_gt

/-- The periods in front of the found one are over, and so is the found one, which contains the
request. -/
theorem findsEarliest_iff_of_found_lt
    (daily : ∀ period ∈ first :: (before ++ found :: behind), period.Daily)
    (sorted : (first :: (before ++ found :: behind)).Pairwise
      fun first second => first.to_ ≤ second.to_)
    (outside : first.inPeriode clock = false) (firstBehind : first.to_ < clock)
    (areOver : ∀ period ∈ before, period.to_ < clock ∧ period.inPeriode clock = false)
    (foundBehind : found.to_ < clock) (contains : found.inPeriode clock = true) :
    (∀ period ∈ first :: (before ++ found :: behind), found.wait clock ≤ period.wait clock) ↔
      FindsEarliest clock (first :: (before ++ found :: behind)) := by
  have isFirst := first_to_le sorted
  have foundDaily := daily found found_mem
  constructor
  · intro shortest
    have allOver (period : TimePeriode)
        (member : period ∈ first :: (before ++ found :: behind)) :=
      (TimePeriode.wait_le_iff_of_to_lt foundDaily (daily period member) foundBehind).mp
        (shortest period member)
    have same : found.to_ = first.to_ :=
      le_antisymm (allOver first (List.mem_cons_self ..)).2 (isFirst found found_mem)
    exact ⟨fun isNotBehind => absurd isNotBehind firstBehind.not_ge, fun _ _ _ _ _ =>
      ⟨fun other member => (allOver other member).1, found, found_mem, same, contains⟩⟩
  · intro finds period member
    rw [TimePeriode.wait_le_iff_of_to_lt foundDaily (daily period member) foundBehind]
    obtain ⟨allOver, other, otherMember, same, otherContains⟩ :=
      finds.2 firstBehind found found_mem foundBehind contains
    have notLater : found.to_ ≤ first.to_ := by
      rcases over_or_from_found outside firstBehind areOver otherMember with isBefore | isBehind
      · rw [isBefore.2] at otherContains
        cases otherContains
      · exact same ▸ found_to_le sorted other isBehind
    exact ⟨allOver period member, notLater.trans (isFirst period member)⟩

/-- The first period is not over, so the loop stops at the second one. -/
theorem findsEarliest_iff_of_le_first
    (daily : ∀ period ∈ first :: found :: behind, period.Daily)
    (sorted : (first :: found :: behind).Pairwise fun first second => first.to_ ≤ second.to_)
    (outside : first.inPeriode clock = false) (notBehind : clock ≤ first.to_) :
    (∀ period ∈ first :: found :: behind, found.wait clock ≤ period.wait clock) ↔
      FindsEarliest clock (first :: found :: behind) := by
  have isFirst := first_to_le sorted
  have isMember : found ∈ first :: found :: behind :=
    List.mem_cons_of_mem _ (List.mem_cons_self ..)
  have foundDaily := daily found isMember
  have foundLater := isFirst found isMember
  constructor
  · intro shortest
    have notLater := (TimePeriode.wait_le_iff_of_le_to foundDaily
      (daily first (List.mem_cons_self ..)) (notBehind.trans foundLater)).mp
        (shortest first (List.mem_cons_self ..)) notBehind
    refine ⟨fun _ => Or.inr ?_, fun isBehind => absurd notBehind isBehind.not_ge⟩
    intro second isSecond
    cases isSecond
    exact le_antisymm notLater foundLater
  · intro finds period member
    rw [TimePeriode.wait_le_iff_of_le_to foundDaily (daily period member)
      (notBehind.trans foundLater)]
    intro _
    rcases finds.1 notBehind with contains | same
    · rw [outside] at contains
      cases contains
    · rw [same found rfl]
      exact isFirst period member

theorem findsEarliest_iff_of_some
    (daily : ∀ period ∈ first :: (before ++ found :: behind), period.Daily)
    (sorted : (first :: (before ++ found :: behind)).Pairwise
      fun first second => first.to_ ≤ second.to_)
    (outside : first.inPeriode clock = false)
    (areOver : ∀ period ∈ before, period.to_ < clock ∧ period.inPeriode clock = false)
    (isFound : found.inPeriode clock = true ∨ clock < found.to_) :
    (∀ period ∈ first :: (before ++ found :: behind), found.wait clock ≤ period.wait clock) ↔
      FindsEarliest clock (first :: (before ++ found :: behind)) := by
  by_cases firstBehind : first.to_ < clock
  · by_cases notBehind : clock ≤ found.to_
    · exact findsEarliest_iff_of_le_found daily sorted outside firstBehind areOver notBehind
    · have foundBehind := not_le.mp notBehind
      exact findsEarliest_iff_of_found_lt daily sorted outside firstBehind areOver foundBehind
        (isFound.resolve_right foundBehind.not_gt)
  · have notBehind := not_lt.mp firstBehind
    cases before with
    | nil => exact findsEarliest_iff_of_le_first daily sorted outside notBehind
    | cons second before =>
        have later := first_to_le sorted second
          (List.mem_cons_of_mem _ (List.mem_cons_self ..))
        have isOver := (areOver second (List.mem_cons_self ..)).1
        exact absurd (notBehind.trans later) isOver.not_ge

end Found

/-- A request that is not in the first period, when the loop finds none. -/
theorem findsEarliest_iff_of_none {first : TimePeriode} {rest : List TimePeriode} {clock : ℤ}
    (daily : ∀ period ∈ first :: rest, period.Daily)
    (sorted : (first :: rest).Pairwise fun first second => first.to_ ≤ second.to_)
    (outside : first.inPeriode clock = false)
    (areOver : ∀ period ∈ rest, period.to_ < clock ∧ period.inPeriode clock = false) :
    (∀ period ∈ first :: rest, first.wait clock ≤ period.wait clock) ↔
      FindsEarliest clock (first :: rest) := by
  have isFirst := first_to_le sorted
  have firstDaily := daily first (List.mem_cons_self ..)
  by_cases notBehind : clock ≤ first.to_
  · have noRest : rest = [] := by
      cases rest with
      | nil => rfl
      | cons second rest =>
          have earlier := isFirst second (List.mem_cons_of_mem _ (List.mem_cons_self ..))
          have isOver := (areOver second (List.mem_cons_self ..)).1
          omega
    subst noRest
    refine iff_of_true ?_ ⟨fun _ => Or.inr nofun, fun behind => absurd notBehind behind.not_ge⟩
    intro period member
    rw [List.mem_singleton.mp member]
  · have behind := not_le.mp notBehind
    have allOver (period : TimePeriode) (member : period ∈ first :: rest) :
        period.to_ < clock ∧ period.inPeriode clock = false := by
      rcases List.mem_cons.mp member with rfl | isBehind
      · exact ⟨behind, outside⟩
      · exact areOver period isBehind
    refine iff_of_true ?_ ⟨fun isNotBehind => absurd isNotBehind notBehind, ?_⟩
    · intro period member
      rw [TimePeriode.wait_le_iff_of_to_lt firstDaily (daily period member) behind]
      exact ⟨(allOver period member).1, isFirst period member⟩
    · intro _ period member _ contains
      rw [(allOver period member).2] at contains
      cases contains

/-- The next run of a configured group is the earliest end of a period exactly when the search
finds the period that ends first. -/
theorem nextRunIsEarliest_iff (times : List (TimeOfDay × TimeOfDay)) (reqTime : ℤ) :
    (ofTimes times).NextRunIsEarliest reqTime ↔
      FindsEarliest (timeOfDay reqTime) (ofTimes times).timeList := by
  have wellFormed := wellFormed_ofTimes times
  have nonneg : 0 ≤ timeOfDay reqTime := Int.emod_nonneg _ (by decide)
  have earliest {found : TimePeriode × Bool}
      (finds : (ofTimes times).findTimePeriod (timeOfDay reqTime) = some found)
      (member : found.1 ∈ (ofTimes times).timeList) :
      (ofTimes times).NextRunIsEarliest reqTime ↔
        ∀ period ∈ (ofTimes times).timeList,
          found.1.wait (timeOfDay reqTime) ≤ period.wait (timeOfDay reqTime) := by
    rw [← isLeast_ends_iff wellFormed member, NextRunIsEarliest, nextRun, finds]
    simp only [Option.map_some, Option.some.injEq, exists_eq_left']
  have isFound : (ofTimes times).findTimePeriod (timeOfDay reqTime) =
      match (ofTimes times).timeList with
      | [] => none
      | first :: rest =>
          if first.inPeriode (timeOfDay reqTime) then some (first, true)
          else some ((findBehindFirst (timeOfDay reqTime) rest).getD (first, false)) := rfl
  cases periods : (ofTimes times).timeList with
  | nil =>
      rw [periods] at isFound
      refine iff_of_false ?_ id
      rintro ⟨run, runs, -⟩
      rw [nextRun, isFound] at runs
      cases runs
  | cons first rest =>
      have daily := wellFormed.daily
      have sorted := wellFormed.sorted
      rw [periods] at isFound earliest daily sorted
      dsimp only at isFound
      cases inside : first.inPeriode (timeOfDay reqTime) with
      | true =>
          rw [inside, if_pos rfl] at isFound
          rw [earliest isFound (List.mem_cons_self ..)]
          exact findsEarliest_iff_of_inFirst daily sorted inside
      | false =>
          rw [inside, if_neg Bool.false_ne_true] at isFound
          have restDaily (period : TimePeriode) (member : period ∈ rest) : period.Daily :=
            daily period (List.mem_cons_of_mem _ member)
          cases finds : findBehindFirst (timeOfDay reqTime) rest with
          | none =>
              rw [finds] at isFound
              rw [earliest isFound (List.mem_cons_self ..)]
              exact findsEarliest_iff_of_none daily sorted inside
                (findBehindFirst_eq_none restDaily nonneg finds)
          | some found =>
              rw [finds] at isFound
              obtain ⟨before, behind, rfl, areOver, contains⟩ :=
                findBehindFirst_eq_some restDaily nonneg finds
              rw [earliest isFound (List.mem_cons_of_mem _ (List.mem_append_right _
                (List.mem_cons_self ..)))]
              exact findsEarliest_iff_of_some daily sorted inside areOver contains

/-- Two periods in the morning and around noon. -/
def morningAndNoon : List (TimeOfDay × TimeOfDay) :=
  [(⟨PTime.hours 5, by decide⟩, ⟨PTime.hours 6, by decide⟩),
    (⟨PTime.hours 11, by decide⟩, ⟨PTime.hours 12, by decide⟩)]

theorem timeList_morningAndNoon : (ofTimes morningAndNoon).timeList =
    [⟨PTime.hours 6, PTime.hours 1⟩, ⟨PTime.hours 12, PTime.hours 1⟩] := by
  have one : addTimePeriod ⟨[]⟩ (TimePeriode.create (PTime.hours 5) (PTime.hours 6)) =
      ⟨[⟨PTime.hours 6, PTime.hours 1⟩]⟩ :=
    congrArg UpdateGroup.mk (List.mergeSort_of_pairwise (List.pairwise_singleton _ _))
  have two : addTimePeriod ⟨[⟨PTime.hours 6, PTime.hours 1⟩]⟩
      (TimePeriode.create (PTime.hours 11) (PTime.hours 12)) =
        ⟨[⟨PTime.hours 6, PTime.hours 1⟩, ⟨PTime.hours 12, PTime.hours 1⟩]⟩ :=
    congrArg UpdateGroup.mk (List.mergeSort_of_pairwise (by decide +kernel))
  rw [ofTimes, morningAndNoon, List.foldl_cons, List.foldl_cons, List.foldl_nil, one, two]

/-- A request before the first period is sent to the end of the second one. -/
theorem nextRun_skipsFirst :
    (ofTimes morningAndNoon).nextRun (PTime.hours 3) = some (PTime.hours 12, PTime.hours 11) ∧
      PTime.hours 6 ∈ (ofTimes morningAndNoon).ends (PTime.hours 3) ∧
      ¬(ofTimes morningAndNoon).NextRunIsEarliest (PTime.hours 3) := by
  have runs : (ofTimes morningAndNoon).nextRun (PTime.hours 3) =
      some (PTime.hours 12, PTime.hours 11) := by
    rw [nextRun, findTimePeriod, timeList_morningAndNoon]
    decide +kernel
  have isEnd : PTime.hours 6 ∈ (ofTimes morningAndNoon).ends (PTime.hours 3) := by
    refine ⟨by decide, ⟨PTime.hours 6, PTime.hours 1⟩, ?_, 0, by decide⟩
    rw [timeList_morningAndNoon]
    exact List.mem_cons_self ..
  refine ⟨runs, isEnd, ?_⟩
  rintro ⟨run, isRun, least⟩
  rw [runs] at isRun
  cases isRun
  exact absurd (least.2 isEnd) (by decide)

end UpdateGroup

end config

end Wdb2ts
