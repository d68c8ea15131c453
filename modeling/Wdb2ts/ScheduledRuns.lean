import Wdb2ts.IsoTimes
import Wdb2ts.NextRunSpecs

/-!
# Scheduled runs

A list of absolute specifications stands for a set of times of day.  Its parsing gives them in
order, and the next run is the earliest instant from now on at one of them.
-/

namespace Wdb2ts

namespace MetaModelConf

/-! ## Times of day -/

namespace Reading

/-- A specification of times of day. -/
def IsAbsolute : Reading → Prop
  | .every _ step => 0 < step
  | .clock h m => (0 ≤ h ∧ h < 24) ∧ 0 ≤ m ∧ m < 60
  | _ => False

instance : DecidablePred IsAbsolute := fun reading =>
  match reading with
  | .every _ step => inferInstanceAs (Decidable (0 < step))
  | .clock h m => inferInstanceAs (Decidable ((0 ≤ h ∧ h < 24) ∧ 0 ≤ m ∧ m < 60))
  | .skipped => isFalse id
  | .error => isFalse id
  | .tooLarge => isFalse id
  | .relative _ => isFalse id

/-- The times of day of a specification, in seconds. -/
def Denotes : Reading → ℤ → Prop
  | .every offset step, s => offset ≤ s ∧ s < 86400 ∧ step ∣ s - offset
  | .clock h m, s => s = h * 3600 + m * 60
  | _, _ => False

/-- The step behind an offset of the day is in the range of `int`. -/
def InRange : Reading → Prop
  | .every offset step => offset < 86400 → offset + step ≤ 2147483647
  | _ => True

theorem IsAbsolute.inDay_iff {reading : Reading} (absolute : reading.IsAbsolute) :
    reading.InDay ↔ reading.InRange := by
  cases reading with
  | every offset step =>
      exact forall_congr' fun _ => and_iff_right absolute
  | clock h m =>
      obtain ⟨hours, minutes⟩ := absolute
      exact iff_of_true ⟨hours.1, minutes.1, by omega⟩ trivial
  | _ => exact absurd absolute id

/-- The times of day of a specification are in the day. -/
theorem IsAbsolute.denotes_bounds {reading : Reading} (absolute : reading.IsAbsolute)
    (bounded : reading.Bounded) {s : ℤ} (denotes : reading.Denotes s) : 0 ≤ s ∧ s < 86400 := by
  cases reading with
  | every offset step => exact ⟨bounded.1.trans denotes.1, denotes.2.1⟩
  | clock h m =>
      obtain ⟨hours, minutes⟩ := absolute
      rw [denotes]
      omega
  | _ => exact absurd absolute id

end Reading

/-- The times of day of a text of specifications, in seconds. -/
def times (val_ : Bytes) : Set ℤ := {s | ∃ reading ∈ readSpecs val_, reading.Denotes s}

/-- The instants from now on at one of the times of day. -/
def runs (times : Set ℤ) (now : ℤ) : Set ℤ :=
  {time | now ≤ time ∧ ∃ s ∈ times, config.timeOfDay time = s * 1000000}

/-- A new `MetaModelConf` has the times of day in order, and its next run is the earliest one. -/
def FollowsSchedule (val_ : Bytes) : Prop :=
  ∃ fuel parse, new.parseNextrun fuel val_ = some parse ∧ parse.returned = some true ∧
    parse.conf.nextrun_.Pairwise (· < ·) ∧
    (∀ td, td ∈ parse.conf.nextrun_ ↔ ∃ s ∈ times val_, td = s * 1000000) ∧
    ∀ now refTime, (∃ date, PTime.date now = .ok date) →
      ∃ run, findNextrun now parse.conf refTime = .ok (.ticks run) ∧
        IsLeast (runs (times val_) now) run

/-! ## The list of durations -/

theorem mem_insertDuration {td other : ℤ} {durations : List ℤ} :
    other ∈ insertDuration td durations ↔ other = td ∨ other ∈ durations := by
  induction durations with
  | nil => simp [insertDuration]
  | cons first rest ih =>
      rw [insertDuration]
      split
      · rw [List.mem_cons, ih, List.mem_cons, or_left_comm]
      · split
        · next same => simp [same]
        · exact List.mem_cons

theorem pairwise_insertDuration {td : ℤ} {durations : List ℤ}
    (sorted : durations.Pairwise (· < ·)) : (insertDuration td durations).Pairwise (· < ·) := by
  induction durations with
  | nil => exact List.pairwise_singleton _ _
  | cons first rest ih =>
      obtain ⟨firstLess, restSorted⟩ := List.pairwise_cons.mp sorted
      rw [insertDuration]
      split
      · next less =>
          refine List.pairwise_cons.mpr ⟨?_, ih restSorted⟩
          intro other member
          rcases mem_insertDuration.mp member with rfl | inRest
          · exact less
          · exact firstLess other inRest
      · split
        · exact sorted
        · next notLess differs =>
            have before : td < first := lt_of_le_of_ne (not_lt.mp notLess) (Ne.symm differs)
            refine List.pairwise_cons.mpr ⟨?_, sorted⟩
            intro other member
            rcases List.mem_cons.mp member with rfl | inRest
            · exact before
            · exact before.trans (firstLess other inRest)

/-- Added durations are put in their places. -/
theorem foldl_addTimeDuration (added : List ℤ) (conf : MetaModelConf) :
    (added.foldl addTimeDuration conf).specType = conf.specType ∧
      (conf.nextrun_.Pairwise (· < ·) →
        (added.foldl addTimeDuration conf).nextrun_.Pairwise (· < ·)) ∧
      ∀ td, td ∈ (added.foldl addTimeDuration conf).nextrun_ ↔
        td ∈ conf.nextrun_ ∨ td ∈ added := by
  induction added generalizing conf with
  | nil => exact ⟨rfl, id, by simp⟩
  | cons first rest ih =>
      obtain ⟨sameType, sorted, members⟩ := ih (conf.addTimeDuration first)
      refine ⟨sameType, fun isSorted => sorted (pairwise_insertDuration isSorted), ?_⟩
      intro td
      rw [List.foldl_cons, members, addTimeDuration, mem_insertDuration, List.mem_cons,
        or_comm (a := td = first), or_assoc]

/-- The durations behind the parsing are in order, and are those of its calls. -/
theorem nextrun_of_parseReadings {readings : List Reading} {fuel : ℕ} {conf : MetaModelConf}
    {parse : Parse} (parses : parseReadings fuel conf readings = some parse) :
    (conf.nextrun_.Pairwise (· < ·) → parse.conf.nextrun_.Pairwise (· < ·)) ∧
      ∀ td, td ∈ parse.conf.nextrun_ ↔
        td ∈ conf.nextrun_ ∨ ∃ call ∈ parse.calls, td ∈ call.added := by
  induction readings generalizing conf parse with
  | nil =>
      cases parses
      exact ⟨id, by simp⟩
  | cons reading rest ih =>
      simp only [parseReadings] at parses
      split at parses
      · cases parses
      · exact ih parses
      · cases parses
        exact ⟨id, by simp⟩
      · next parsed _ =>
          obtain ⟨-, sorted, members⟩ := foldl_addTimeDuration parsed.added conf
          split at parses
          · cases parses
            refine ⟨sorted, fun td => ?_⟩
            simp only [members, List.mem_singleton, exists_eq_left]
          · obtain ⟨others, parsesRest, rfl⟩ := Option.map_eq_some_iff.mp parses
            obtain ⟨restSorted, restMembers⟩ := ih parsesRest
            refine ⟨fun isSorted => restSorted (sorted isSorted), fun td => ?_⟩
            simp only [restMembers, members, List.mem_cons, exists_eq_or_imp, or_assoc]

/-! ## Absolute specifications -/

section Absolute

variable {readings : List Reading}

/-- An absolute specification in the range of `int` adds its times of day. -/
theorem parseReading_absolute {reading : Reading} (absolute : reading.IsAbsolute)
    (bounded : reading.Bounded) (inRange : reading.InRange) {fuel : ℕ} (enough : 86400 < fuel) :
    ∃ parsed, parseReading fuel reading = some (.returned parsed) ∧ parsed.spec = .absolute ∧
      ∀ td, td ∈ parsed.added ↔ ∃ s, reading.Denotes s ∧ td = s * 1000000 := by
  cases reading with
  | every offset step =>
      have notNegative := bounded.1
      have isEnough : (86400 - offset).toNat < fuel := by omega
      obtain ⟨last, more, ran, isMore⟩ := exists_everyLoop absolute [] notNegative
        inRange isEnough
      refine ⟨_, by rw [parseReading, ran]; rfl, rfl, ?_⟩
      intro td
      refine (isMore td).trans (exists_congr fun s => ?_)
      rw [and_comm]
      rfl
  | clock h m =>
      refine ⟨_, rfl, rfl, ?_⟩
      intro td
      obtain ⟨hours, minutes⟩ := absolute
      have isTime : PTime.timeDuration h m 0 = (h * 3600 + m * 60) * 1000000 := by
        rw [PTime.timeDuration, if_neg (by omega), add_zero]
      rw [List.mem_singleton, isTime]
      constructor
      · rintro rfl
        exact ⟨h * 3600 + m * 60, rfl, rfl⟩
      · rintro ⟨s, isClock, rfl⟩
        rw [isClock]
  | _ => exact absurd absolute id

/-- The parsing goes on behind absolute specifications. -/
theorem checkSpec_absolute {specType : SpecType}
    (notOther : specType = .undefined ∨ specType = .absolute) :
    checkSpec specType .absolute = some .absolute := by
  rcases notOther with rfl | rfl
  · rfl
  · rfl

theorem next_absolute {reading : Reading} (absolute : reading.IsAbsolute) {specType : SpecType}
    (notOther : specType = .undefined ∨ specType = .absolute) :
    reading.next specType = some .absolute := by
  cases reading with
  | every offset step => exact checkSpec_absolute notOther
  | clock h m => exact checkSpec_absolute notOther
  | _ => exact absurd absolute id

/-- Absolute specifications are all parsed. -/
theorem allInDay_iff (absolute : ∀ reading ∈ readings, reading.IsAbsolute) {specType : SpecType}
    (notOther : specType = .undefined ∨ specType = .absolute) :
    AllInDay specType readings ↔ ∀ reading ∈ readings, reading.InRange := by
  induction readings generalizing specType with
  | nil => exact iff_of_true trivial nofun
  | cons reading rest ih =>
      have here := absolute reading List.mem_cons_self
      have restAbsolute (other : Reading) (member : other ∈ rest) : other.IsAbsolute :=
        absolute other (List.mem_cons_of_mem reading member)
      rw [AllInDay, next_absolute here notOther, here.inDay_iff, List.forall_mem_cons]
      simp only [Option.mem_some_iff, forall_eq', ih restAbsolute (Or.inr rfl)]

/-- Absolute specifications in the range of `int` are accepted, and add their times of day. -/
theorem parseReadings_absolute (absolute : ∀ reading ∈ readings, reading.IsAbsolute)
    (bounded : ∀ reading ∈ readings, reading.Bounded)
    (inRange : ∀ reading ∈ readings, reading.InRange) {conf : MetaModelConf}
    (notOther : conf.specType = .undefined ∨ conf.specType = .absolute) {fuel : ℕ}
    (enough : 86400 < fuel) :
    ∃ parse, parseReadings fuel conf readings = some parse ∧ parse.returned = some true ∧
      (conf.specType = .absolute ∨ readings ≠ [] → parse.conf.specType = .absolute) ∧
      ∀ td, td ∈ parse.conf.nextrun_ ↔ td ∈ conf.nextrun_ ∨
        ∃ reading ∈ readings, ∃ s, reading.Denotes s ∧ td = s * 1000000 := by
  induction readings generalizing conf with
  | nil =>
      refine ⟨_, rfl, rfl, ?_, by simp⟩
      rintro (isAbsolute | notNil)
      · exact isAbsolute
      · exact absurd rfl notNil
  | cons reading rest ih =>
      obtain ⟨parsed, parses, isAbsolute, added⟩ := parseReading_absolute
        (absolute reading List.mem_cons_self) (bounded reading List.mem_cons_self)
        (inRange reading List.mem_cons_self) enough
      obtain ⟨-, -, members⟩ := foldl_addTimeDuration parsed.added conf
      let behind : MetaModelConf :=
        { parsed.added.foldl addTimeDuration conf with specType := .absolute }
      have behindType : behind.specType = .absolute := rfl
      obtain ⟨parse, parsesRest, accepted, hasType, isIn⟩ := ih
        (fun other member => absolute other (List.mem_cons_of_mem reading member))
        (fun other member => bounded other (List.mem_cons_of_mem reading member))
        (fun other member => inRange other (List.mem_cons_of_mem reading member))
        (Or.inr behindType)
      refine ⟨{ parse with calls := parsed :: parse.calls }, ?_, accepted,
        fun _ => hasType (Or.inl behindType), fun td => ?_⟩
      · simp only [parseReadings, parses, isAbsolute, checkSpec_absolute notOther]
        exact Option.map_eq_some_iff.mpr ⟨parse, parsesRest, rfl⟩
      · rw [isIn, members, added, List.exists_mem_cons_iff, or_assoc]

end Absolute

/-! ## The next run -/

/-- The first duration that is not before a time of day is the least one, and those in front of it
are before the time. -/
theorem find?_sorted {durations : List ℤ} (sorted : durations.Pairwise (· < ·)) {clock td : ℤ}
    (found : durations.find? (fun it => !decide (it < clock)) = some td) :
    td ∈ durations ∧ clock ≤ td ∧ ∀ other ∈ durations, clock ≤ other → td ≤ other := by
  obtain ⟨notBefore, front, rest, rfl, isFront⟩ := List.find?_eq_some_iff_append.mp found
  simp only [Bool.not_eq_true', decide_eq_false_iff_not, not_lt] at notBefore
  refine ⟨by simp, notBefore, ?_⟩
  intro other member later
  rcases List.mem_append.mp member with inFront | behind
  · have before := isFront other inFront
    simp only [Bool.not_not, decide_eq_true_eq] at before
    exact absurd before later.not_gt
  · rcases List.mem_cons.mp behind with rfl | inRest
    · exact le_rfl
    · exact (List.rel_of_pairwise_cons (List.pairwise_append.mp sorted).2.1 inRest).le

theorem timeOfDay_add {td : ℤ} (inDay : 0 ≤ td ∧ td < PTime.dayLength) (day : ℤ) :
    config.timeOfDay (day * PTime.dayLength + td) = td := by
  simp only [config.timeOfDay, PTime.dayLength] at inDay ⊢
  omega

/-- The first time of day that is not over is today. -/
theorem isLeast_today {durations : List ℤ} {now td : ℤ} (member : td ∈ durations)
    (inDay : 0 ≤ td ∧ td < PTime.dayLength) (notBefore : config.timeOfDay now ≤ td)
    (isFirst : ∀ other ∈ durations, config.timeOfDay now ≤ other → td ≤ other) :
    IsLeast {time | now ≤ time ∧ config.timeOfDay time ∈ durations}
      (now / PTime.dayLength * PTime.dayLength + td) := by
  refine ⟨⟨?_, ?_⟩, ?_⟩
  · simp only [config.timeOfDay, PTime.dayLength] at notBefore ⊢
    omega
  · rwa [timeOfDay_add inDay]
  · rintro time ⟨later, isTime⟩
    have least := isFirst (config.timeOfDay time) isTime
    simp only [config.timeOfDay, PTime.dayLength] at least inDay ⊢
    omega

/-- When all times of day are over, the first one is tomorrow. -/
theorem isLeast_tomorrow {durations : List ℤ} {now first : ℤ} (member : first ∈ durations)
    (inDay : 0 ≤ first ∧ first < PTime.dayLength) (isFirst : ∀ other ∈ durations, first ≤ other)
    (allBefore : ∀ other ∈ durations, other < config.timeOfDay now) :
    IsLeast {time | now ≤ time ∧ config.timeOfDay time ∈ durations}
      ((now / PTime.dayLength + 1) * PTime.dayLength + first) := by
  refine ⟨⟨?_, ?_⟩, ?_⟩
  · simp only [PTime.dayLength] at inDay ⊢
    omega
  · rwa [timeOfDay_add inDay]
  · rintro time ⟨later, isTime⟩
    have before := allBefore (config.timeOfDay time) isTime
    have least := isFirst (config.timeOfDay time) isTime
    simp only [config.timeOfDay, PTime.dayLength] at before least ⊢
    omega

/-- The next run of sorted times of day is the earliest instant at one of them. -/
theorem findNextrun_isLeast {conf : MetaModelConf} (isAbsolute : conf.specType = .absolute)
    (sorted : conf.nextrun_.Pairwise (· < ·)) (notEmpty : conf.nextrun_ ≠ [])
    (inDay : ∀ td ∈ conf.nextrun_, 0 ≤ td ∧ td < PTime.dayLength) {now : ℤ}
    (hasDate : ∃ date, PTime.date now = .ok date) (refTime : PTime) :
    ∃ run, findNextrun now conf refTime = .ok (.ticks run) ∧
      IsLeast {time | now ≤ time ∧ config.timeOfDay time ∈ conf.nextrun_} run := by
  obtain ⟨date, isDate⟩ := hasDate
  have midnight : PTime.ofDate date (PTime.timeDuration 0 0 0) =
      .ticks (now / PTime.dayLength * PTime.dayLength) := by
    rw [PTime.ofDate, (PTime.date_eq_ok isDate).2.2.2, PTime.timeDuration_zero]
    simp
  cases durations : conf.nextrun_ with
  | nil => exact absurd durations notEmpty
  | cons first rest =>
      rw [durations] at sorted inDay
      rw [findNextrun, isDate, durations, isAbsolute]
      simp only [bind, Except.bind, midnight]
      cases found : (first :: rest).find? fun it => !decide (it < config.timeOfDay now) with
      | some td =>
          obtain ⟨member, notBefore, isFirst⟩ := find?_sorted sorted found
          exact ⟨_, rfl, isLeast_today member (inDay td member) notBefore isFirst⟩
      | none =>
          have allBefore := List.find?_eq_none.mp found
          simp only [Bool.not_eq_true', decide_eq_false_iff_not, not_not] at allBefore
          have isLeast := isLeast_tomorrow List.mem_cons_self (inDay first List.mem_cons_self)
            (fun other isTime => (List.mem_cons.mp isTime).elim (fun same => same.ge)
              fun inRest => (List.rel_of_pairwise_cons sorted inRest).le) allBefore
          have nextDay : (now / PTime.dayLength + 1) * PTime.dayLength =
              now / PTime.dayLength * PTime.dayLength + PTime.hours 24 := by
            simp only [PTime.dayLength, PTime.hours]
            ring
          rw [nextDay] at isLeast
          exact ⟨_, rfl, isLeast⟩

/-! ## Schedules -/

section Schedule

variable {val_ : Bytes}

theorem bounded_readSpecs (val_ : Bytes) : ∀ reading ∈ readSpecs val_, reading.Bounded := by
  intro reading member
  obtain ⟨elem, -, rfl⟩ := List.mem_map.mp member
  exact bounded_readSpec elem

/-- The times of day of absolute specifications are in the day. -/
theorem times_bounds (absolute : ∀ reading ∈ readSpecs val_, reading.IsAbsolute) {s : ℤ}
    (isTime : s ∈ times val_) : 0 ≤ s ∧ s < 86400 := by
  obtain ⟨reading, member, denotes⟩ := isTime
  exact (absolute reading member).denotes_bounds (bounded_readSpecs val_ reading member) denotes

/-- A schedule that is followed has no steps that leave the range of `int`. -/
theorem inRange_of_followsSchedule (absolute : ∀ reading ∈ readSpecs val_, reading.IsAbsolute)
    (follows : FollowsSchedule val_) : ∀ reading ∈ readSpecs val_, reading.InRange := by
  obtain ⟨fuel, parse, parses, -, -, isTimes, -⟩ := follows
  rw [← allInDay_iff absolute (Or.inl rfl : new.specType = .undefined ∨ _)]
  refine allInDay_of_parseReadings (bounded_readSpecs val_) parses fun call member _ td added => ?_
  have isDuration := ((nextrun_of_parseReadings parses).2 td).mpr (Or.inr ⟨call, member, added⟩)
  obtain ⟨s, isTime, rfl⟩ := (isTimes td).mp isDuration
  have inDay := times_bounds absolute isTime
  rw [PTime.dayLength]
  omega

/-- A text of absolute specifications with times of day is followed exactly when the step behind
each offset of the day is in the range of `int`. -/
theorem followsSchedule_iff (absolute : ∀ reading ∈ readSpecs val_, reading.IsAbsolute)
    (nonempty : (times val_).Nonempty) :
    FollowsSchedule val_ ↔ ∀ reading ∈ readSpecs val_, reading.InRange := by
  constructor
  · exact inRange_of_followsSchedule absolute
  · intro inRange
    obtain ⟨parse, parses, accepted, hasType, members⟩ := parseReadings_absolute absolute
      (bounded_readSpecs val_) inRange (Or.inl rfl : new.specType = .undefined ∨ _)
      (Nat.lt_succ_self 86400)
    obtain ⟨some, reading, isReading, denotes⟩ := nonempty
    have isAbsolute := hasType (Or.inr (List.ne_nil_of_mem isReading))
    have sorted := (nextrun_of_parseReadings parses).1 List.Pairwise.nil
    have isTimes (td : ℤ) : td ∈ parse.conf.nextrun_ ↔ ∃ s ∈ times val_, td = s * 1000000 := by
      rw [members]
      constructor
      · rintro (old | ⟨other, member, s, isTime, rfl⟩)
        · cases old
        · exact ⟨s, ⟨other, member, isTime⟩, rfl⟩
      · rintro ⟨s, ⟨other, member, isTime⟩, rfl⟩
        exact Or.inr ⟨other, member, s, isTime, rfl⟩
    have notEmpty : parse.conf.nextrun_ ≠ [] :=
      List.ne_nil_of_mem ((isTimes _).mpr ⟨some, ⟨reading, isReading, denotes⟩, rfl⟩)
    have inDay : ∀ td ∈ parse.conf.nextrun_, 0 ≤ td ∧ td < PTime.dayLength := by
      intro td member
      obtain ⟨s, isTime, rfl⟩ := (isTimes td).mp member
      have bounds := times_bounds absolute isTime
      rw [PTime.dayLength]
      omega
    refine ⟨_, parse, parses, accepted, sorted, isTimes, ?_⟩
    intro now refTime hasDate
    obtain ⟨run, found, least⟩ := findNextrun_isLeast isAbsolute sorted notEmpty inDay hasDate
      refTime
    simp only [isTimes] at least
    exact ⟨run, found, least⟩

end Schedule

theorem followsSchedule_iff_quarters :
    FollowsSchedule (Bytes.str "04:00, */900") ↔
      ∀ reading ∈ readSpecs (Bytes.str "04:00, */900"), reading.InRange :=
  followsSchedule_iff (by decide +kernel)
    ⟨0, .every 0 900, by decide +kernel, le_rfl, by decide, by decide⟩

/-- A step to the end of the range of `int` leads below zero. -/
theorem not_followsSchedule_largest :
    readSpecs (Bytes.str "1/2147483647") = [.every 1 2147483647] ∧
      new.parseNextrun 4 (Bytes.str "1/2147483647") =
        some ⟨some true, ⟨.absolute, [-2147483648000000, -1000000, 1000000]⟩,
          [⟨.absolute, [1000000, -2147483648000000, -1000000]⟩]⟩ ∧
      ¬FollowsSchedule (Bytes.str "1/2147483647") := by
  have read : readSpecs (Bytes.str "1/2147483647") = [.every 1 2147483647] := by decide +kernel
  refine ⟨read, by decide +kernel, ?_⟩
  intro follows
  have inRange := inRange_of_followsSchedule (by decide +kernel) follows (.every 1 2147483647)
  rw [read] at inRange
  exact absurd (inRange (List.mem_singleton_self _) (by decide)) (by decide)

end MetaModelConf

end Wdb2ts
