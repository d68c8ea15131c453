import Wdb2ts.MetaModelConf

/-!
# Parsing of next-run specifications

The step through the day is a number of the text.  The loop does not end when it is zero, and runs
below zero when the last step leaves the range of `int`.
-/

namespace Wdb2ts

/-- A text of digits is cast to a number that is not negative. -/
theorem lexicalCastInt_bounds {digits : Bytes} (allDigits : digits.all isDigit = true) {number : ℤ}
    (cast : lexicalCastInt digits = some number) : 0 ≤ number ∧ number ≤ 2147483647 := by
  have noSign := filter_sign_take (List.all_eq_true.mp allDigits) 1
  have noMinus : ¬([] : Bytes) = [Bytes.chr '-'] := List.cons_ne_nil _ _ ∘ Eq.symm
  simp only [lexicalCastInt, noSign, if_neg noMinus] at cast
  split at cast
  · cases cast
  · split at cast
    · cases cast
    · next inRange =>
        cases cast
        exact ⟨Int.natCast_nonneg _, not_lt.mp (not_or.mp inRange).2⟩

namespace MetaModelConf

/-! ## Readings -/

/-- The groups of a step are numbers, but for the star. -/
theorem isnumber_of_matchEvery {val offset every : Bytes}
    (matched : matchEvery val = some (offset, every)) :
    isnumber every = true ∧ (offset.head? ≠ some (Bytes.chr '*') → isnumber offset = true) := by
  rw [matchEvery] at matched
  generalize val.dropWhile (fun byte => decide (byte = Bytes.chr ' ')) = rest at matched
  have isOffset : ∀ group, group = (if rest.head? = some (Bytes.chr '*') then rest.take 1
      else rest.takeWhile isDigit) → group.head? ≠ some (Bytes.chr '*') →
        isnumber group = true := by
    rintro group rfl notStar
    split at notStar
    · next star =>
        rw [List.head?_take, if_neg Nat.one_ne_zero] at notStar
        exact absurd star notStar
    · next noStar =>
        rw [if_neg noStar]
        exact List.all_takeWhile
  generalize (if rest.head? = some (Bytes.chr '*') then rest.take 1
      else rest.takeWhile isDigit) = group at matched isOffset
  split at matched
  · cases matched
  · split at matched
    · next isEvery =>
        cases matched
        exact ⟨isEvery.2.2.2, isOffset offset rfl⟩
    · cases matched

/-- The numbers of a step are not negative. -/
theorem bounds_of_readNextrun1 {val : Bytes} {offset every : ℤ}
    (isEvery : readNextrun1 val = .every offset every) :
    0 ≤ offset ∧ 0 ≤ every ∧ every ≤ 2147483647 := by
  simp only [readNextrun1] at isEvery
  split at isEvery
  · cases cast : lexicalCastInt _ with
    | none => rw [cast] at isEvery; cases isEvery
    | some seconds => rw [cast] at isEvery; cases isEvery
  · split at isEvery
    · next first second matched =>
        obtain ⟨isNumber, isOffset⟩ := isnumber_of_matchEvery matched
        split at isEvery
        · next number start cast castOffset =>
            cases isEvery
            have everyBounds := lexicalCastInt_bounds isNumber cast
            refine ⟨?_, everyBounds⟩
            split at castOffset
            · next notStar => exact (lexicalCastInt_bounds (isOffset notStar) castOffset).1
            · cases castOffset
              exact le_rfl
        · cases isEvery
    · cases isEvery

theorem bounds_of_readSpec {elem : Bytes} {offset every : ℤ}
    (isEvery : readSpec elem = .every offset every) :
    0 ≤ offset ∧ 0 ≤ every ∧ every ≤ 2147483647 := by
  rw [readSpec] at isEvery
  split at isEvery
  · simp only [readNextrun2] at isEvery
    split at isEvery
    · cases isEvery
    · split at isEvery
      · cases isEvery
      · split at isEvery
        · cases isEvery
        · cases isEvery
  · exact bounds_of_readNextrun1 isEvery
  · cases isEvery

/-! ## The loop -/

section Loop

variable {every : ℤ}

/-- The loop keeps the durations that it has added. -/
theorem added_subset {fuel : ℕ} {i : ℤ} {added : List ℤ} {last : ℤ × List ℤ}
    (ran : everyLoop every fuel i added = some last) : added ⊆ last.2 := by
  induction fuel generalizing i added with
  | zero => cases ran
  | succ fuel ih =>
      rw [everyLoop, WhileLoop.run] at ran
      split at ran
      · exact List.Subset.trans (List.subset_append_left _ _) (ih ran)
      · cases ran
        exact List.Subset.refl _

/-- The loop adds the steps through the day, when they stay in the range of `int`. -/
theorem exists_everyLoop (positive : 0 < every) {fuel : ℕ} {i : ℤ} (added : List ℤ)
    (notNegative : 0 ≤ i) (inRange : i < 86400 → i + every ≤ 2147483647)
    (enough : (86400 - i).toNat < fuel) :
    ∃ last more, everyLoop every fuel i added = some (last, added ++ more) ∧
      ∀ td, td ∈ more ↔ ∃ s, td = s * 1000000 ∧ i ≤ s ∧ s < 86400 ∧ every ∣ s - i := by
  induction fuel generalizing i added with
  | zero => exact absurd enough (Nat.not_lt_zero _)
  | succ fuel ih =>
      rw [everyLoop, WhileLoop.run]
      by_cases inDay : i < 86400
      · have step : toInt32 (i + every) = i + every := by
          have upper := inRange inDay
          rw [toInt32]
          omega
        rw [if_pos (decide_eq_true inDay), step]
        obtain ⟨last, more, ran, isMore⟩ := @ih (i + every) (added ++ [i * 1000000])
          (by omega) (by omega) (by omega)
        refine ⟨last, i * 1000000 :: more, ?_, ?_⟩
        · rw [everyLoop] at ran
          rw [ran, List.append_assoc, List.singleton_append]
        · intro td
          rw [List.mem_cons, isMore]
          constructor
          · rintro (rfl | ⟨s, rfl, notBefore, less, divides⟩)
            · exact ⟨i, rfl, le_rfl, inDay, by simp⟩
            · refine ⟨s, rfl, by omega, less, ?_⟩
              have shifted := dvd_add divides (dvd_refl every)
              rwa [show s - (i + every) + every = s - i by ring] at shifted
          · rintro ⟨s, rfl, notBefore, less, divides⟩
            rcases notBefore.eq_or_lt with rfl | later
            · exact Or.inl rfl
            · have atLeast := Int.le_of_dvd (by omega) divides
              have shifted := dvd_sub divides (dvd_refl every)
              rw [show s - i - every = s - (i + every) by ring] at shifted
              exact Or.inr ⟨s, rfl, by omega, less, shifted⟩
      · rw [if_neg (by simpa using inDay)]
        refine ⟨i, [], by rw [List.append_nil], ?_⟩
        intro td
        refine iff_of_false List.not_mem_nil ?_
        rintro ⟨s, -, notBefore, less, -⟩
        omega

/-- Without a step the loop does not end. -/
theorem everyLoop_zero {i : ℤ} (notNegative : 0 ≤ i) (inDay : i < 86400) (fuel : ℕ)
    (added : List ℤ) : everyLoop 0 fuel i added = none := by
  induction fuel generalizing added with
  | zero => rfl
  | succ fuel ih =>
      have same : toInt32 (i + 0) = i := by
        rw [toInt32]
        omega
      rw [everyLoop, WhileLoop.run, if_pos (decide_eq_true inDay), same]
      exact ih _

/-- A step out of the range of `int` adds a negative duration. -/
theorem exists_negative {fuel : ℕ} {i : ℤ} (inDay : i < 86400) (everyLe : every ≤ 2147483647)
    (outside : 2147483647 < i + every) {last : ℤ × List ℤ}
    (ran : everyLoop every fuel i [] = some last) : ∃ td ∈ last.2, td < 0 := by
  have wraps : toInt32 (i + every) = i + every - 4294967296 := by
    rw [toInt32]
    omega
  cases fuel with
  | zero => cases ran
  | succ fuel =>
      rw [everyLoop, WhileLoop.run, if_pos (decide_eq_true inDay), wraps] at ran
      cases fuel with
      | zero => cases ran
      | succ fuel =>
          rw [WhileLoop.run, if_pos (decide_eq_true (by omega))] at ran
          refine ⟨(i + every - 4294967296) * 1000000, added_subset ran (by simp), by omega⟩

end Loop

/-! ## Specifications in the day -/

/-- The durations of an absolute call are times of day. -/
def Parsed.InDay (parsed : Parsed) : Prop :=
  parsed.spec = .absolute → ∀ td ∈ parsed.added, 0 ≤ td ∧ td < PTime.dayLength

/-- The parsing ends, and every absolute duration that it adds is a time of day. -/
def ParsesInDay (conf : MetaModelConf) (val_ : Bytes) : Prop :=
  ∃ fuel parse, conf.parseNextrun fuel val_ = some parse ∧ ∀ call ∈ parse.calls, call.InDay

namespace Reading

/-- The numbers of a step are not negative. -/
def Bounded : Reading → Prop
  | .every offset step => 0 ≤ offset ∧ 0 ≤ step ∧ step ≤ 2147483647
  | _ => True

/-- A clock time is a time of day, and the steps through the day go on in the range of `int`. -/
def InDay : Reading → Prop
  | .every offset step => offset < 86400 → 0 < step ∧ offset + step ≤ 2147483647
  | .clock h m => 0 ≤ h ∧ 0 ≤ m ∧ h * 60 + m < 1440
  | _ => True

/-- The type behind a specification, unless the parsing stops at it. -/
def next (specType : SpecType) : Reading → Option SpecType
  | .skipped => some specType
  | .error => none
  | .tooLarge => none
  | .relative _ => checkSpec specType .relativeToLoadTime
  | .every _ _ => checkSpec specType .absolute
  | .clock _ _ => checkSpec specType .absolute

end Reading

/-- The specifications up to the one at which the parsing stops are in the day. -/
def AllInDay : SpecType → List Reading → Prop
  | _, [] => True
  | specType, reading :: rest =>
      reading.InDay ∧ ∀ next ∈ reading.next specType, AllInDay next rest

theorem bounded_readSpec (elem : Bytes) : (readSpec elem).Bounded := by
  cases isReading : readSpec elem with
  | every offset every => exact bounds_of_readSpec isReading
  | _ => trivial

/-- A duration of hours and minutes is a time of day when neither is negative and together they
are less than a day. -/
theorem timeDuration_inDay_iff (h m : ℤ) :
    (0 ≤ PTime.timeDuration h m 0 ∧ PTime.timeDuration h m 0 < PTime.dayLength) ↔
      0 ≤ h ∧ 0 ≤ m ∧ h * 60 + m < 1440 := by
  rw [PTime.timeDuration, PTime.dayLength]
  split
  · next negative =>
      have isPositive : 0 < |h| ∨ 0 < |m| := by
        rcases negative with hours | minutes | seconds
        · exact Or.inl (abs_pos_of_neg hours)
        · exact Or.inr (abs_pos_of_neg minutes)
        · exact absurd seconds (lt_irrefl 0)
      have hours := abs_nonneg h
      have minutes := abs_nonneg m
      rw [abs_zero]
      omega
  · omega

/-! ### One specification -/

section Reading

variable {reading : Reading} {fuel : ℕ} {call : Call}

/-- How a call that ends leaves the type of a `MetaModelConf`. -/
theorem next_eq (ends : parseReading fuel reading = some call) (specType : SpecType) :
    reading.next specType =
      match call with
      | .skipped => some specType
      | .throws => none
      | .returned parsed => checkSpec specType parsed.spec := by
  cases reading with
  | every offset every =>
      obtain ⟨last, -, rfl⟩ := Option.map_eq_some_iff.mp ends
      rfl
  | _ =>
      cases ends
      rfl

/-- A specification in the day ends with durations of the day. -/
theorem exists_parseReading (bounded : reading.Bounded) (inDay : reading.InDay)
    (enough : 86400 < fuel) :
    ∃ call, parseReading fuel reading = some call ∧ ∀ parsed, call = .returned parsed →
      parsed.InDay := by
  cases reading with
  | skipped =>
      refine ⟨.skipped, rfl, ?_⟩
      intro parsed returns
      cases returns
  | tooLarge =>
      refine ⟨.throws, rfl, ?_⟩
      intro parsed returns
      cases returns
  | error =>
      refine ⟨_, rfl, ?_⟩
      rintro parsed ⟨⟩ isAbsolute
      cases isAbsolute
  | relative seconds =>
      refine ⟨_, rfl, ?_⟩
      rintro parsed ⟨⟩ isAbsolute
      cases isAbsolute
  | clock h m =>
      refine ⟨_, rfl, ?_⟩
      rintro parsed ⟨⟩ - td member
      rw [List.mem_singleton.mp member]
      exact (timeDuration_inDay_iff h m).mpr inDay
  | every offset every =>
      have ended : ∃ last more, everyLoop every fuel offset [] = some (last, [] ++ more) ∧
          ∀ td ∈ more, 0 ≤ td ∧ td < PTime.dayLength := by
        by_cases inTime : offset < 86400
        · obtain ⟨positive, inRange⟩ := inDay inTime
          have notNegative := bounded.1
          have isEnough : (86400 - offset).toNat < fuel := by omega
          obtain ⟨last, more, ran, isMore⟩ := exists_everyLoop positive [] notNegative
            (fun _ => inRange) isEnough
          refine ⟨last, more, ran, ?_⟩
          intro td member
          obtain ⟨s, rfl, notBefore, less, -⟩ := (isMore td).mp member
          rw [PTime.dayLength]
          omega
        · refine ⟨offset, [], ?_, fun _ member => absurd member List.not_mem_nil⟩
          cases fuel with
          | zero => exact absurd enough (Nat.not_lt_zero _)
          | succ fuel =>
              rw [everyLoop, WhileLoop.run, if_neg (by simpa using inTime)]
              rfl
      obtain ⟨last, more, ran, inDay⟩ := ended
      refine ⟨_, by rw [parseReading, ran]; rfl, ?_⟩
      rintro parsed ⟨⟩ -
      exact inDay

/-- A specification that ends with durations of the day is in the day. -/
theorem inDay_of_parseReading (bounded : reading.Bounded)
    (ends : parseReading fuel reading = some call)
    (inDay : ∀ parsed, call = .returned parsed → parsed.InDay) : reading.InDay := by
  cases reading with
  | every offset every =>
      obtain ⟨last, ran, rfl⟩ := Option.map_eq_some_iff.mp ends
      obtain ⟨notNegative, everyNonneg, everyLe⟩ := bounded
      intro inTime
      have positive : 0 < every := by
        by_contra notPositive
        have isZero : every = 0 := by omega
        rw [isZero, everyLoop_zero notNegative inTime] at ran
        cases ran
      refine ⟨positive, ?_⟩
      by_contra outside
      obtain ⟨td, member, negative⟩ := exists_negative inTime everyLe (not_le.mp outside) ran
      exact negative.not_ge (inDay _ rfl rfl td member).1
  | clock h m =>
      cases ends
      exact (timeDuration_inDay_iff h m).mp (inDay _ rfl rfl _ (List.mem_singleton_self _))
  | _ => trivial

end Reading

/-! ### All specifications -/

/-- The specifications in the day are parsed to their end. -/
theorem exists_parseReadings {readings : List Reading}
    (bounded : ∀ reading ∈ readings, reading.Bounded) {conf : MetaModelConf}
    (inDay : AllInDay conf.specType readings) {fuel : ℕ} (enough : 86400 < fuel) :
    ∃ parse, parseReadings fuel conf readings = some parse ∧ ∀ call ∈ parse.calls, call.InDay := by
  induction readings generalizing conf with
  | nil => exact ⟨_, rfl, nofun⟩
  | cons reading rest ih =>
      have restBounded (other : Reading) (member : other ∈ rest) : other.Bounded :=
        bounded other (List.mem_cons_of_mem reading member)
      obtain ⟨call, ends, isInDay⟩ := exists_parseReading
        (bounded reading List.mem_cons_self) inDay.1 enough
      have goesOn := inDay.2
      rw [next_eq ends] at goesOn
      simp only [parseReadings, ends]
      cases call with
      | skipped => exact ih restBounded (goesOn _ rfl)
      | throws => exact ⟨_, rfl, nofun⟩
      | returned parsed =>
          dsimp only at goesOn ⊢
          cases checked : checkSpec conf.specType parsed.spec with
          | none =>
              refine ⟨_, rfl, ?_⟩
              intro call member
              rw [List.mem_singleton.mp member]
              exact isInDay parsed rfl
          | some specType =>
              let behind : MetaModelConf :=
                { parsed.added.foldl addTimeDuration conf with specType := specType }
              have restInDay : AllInDay behind.specType rest := goesOn specType checked
              obtain ⟨parse, parses, allInDay⟩ := ih restBounded restInDay
              refine ⟨_, Option.map_eq_some_iff.mpr ⟨parse, parses, rfl⟩, ?_⟩
              intro call member
              rcases List.mem_cons.mp member with rfl | inRest
              · exact isInDay call rfl
              · exact allInDay call inRest

/-- Specifications that are parsed to their end with durations of the day are in the day. -/
theorem allInDay_of_parseReadings {readings : List Reading}
    (bounded : ∀ reading ∈ readings, reading.Bounded) {conf : MetaModelConf} {fuel : ℕ}
    {parse : Parse} (parses : parseReadings fuel conf readings = some parse)
    (inDay : ∀ call ∈ parse.calls, call.InDay) : AllInDay conf.specType readings := by
  induction readings generalizing conf parse with
  | nil => trivial
  | cons reading rest ih =>
      have isBounded := bounded reading List.mem_cons_self
      have restBounded (other : Reading) (member : other ∈ rest) : other.Bounded :=
        bounded other (List.mem_cons_of_mem reading member)
      simp only [parseReadings] at parses
      cases ends : parseReading fuel reading with
      | none =>
          rw [ends] at parses
          cases parses
      | some call =>
          rw [AllInDay, next_eq ends]
          rw [ends] at parses
          cases call with
          | skipped =>
              refine ⟨inDay_of_parseReading isBounded ends nofun, ?_⟩
              rintro next ⟨⟩
              exact ih restBounded parses inDay
          | throws => exact ⟨inDay_of_parseReading isBounded ends nofun, nofun⟩
          | returned parsed =>
              dsimp only at parses ⊢
              cases checked : checkSpec conf.specType parsed.spec with
              | none =>
                  rw [checked] at parses
                  cases parses
                  refine ⟨inDay_of_parseReading isBounded ends ?_, nofun⟩
                  rintro returned ⟨⟩
                  exact inDay parsed (List.mem_singleton_self _)
              | some specType =>
                  rw [checked] at parses
                  obtain ⟨others, parsesRest, rfl⟩ := Option.map_eq_some_iff.mp parses
                  refine ⟨inDay_of_parseReading isBounded ends ?_, ?_⟩
                  · rintro returned ⟨⟩
                    exact inDay parsed List.mem_cons_self
                  · rintro next ⟨⟩
                    exact ih restBounded parsesRest fun call member =>
                      inDay call (List.mem_cons_of_mem _ member)

/-- A text is parsed in finite time, and to times of day, exactly when its specifications up to the
one at which the parsing stops are in the day. -/
theorem parsesInDay_iff (conf : MetaModelConf) (val_ : Bytes) :
    conf.ParsesInDay val_ ↔ AllInDay conf.specType (readSpecs val_) := by
  have bounded : ∀ reading ∈ readSpecs val_, reading.Bounded := by
    intro reading member
    obtain ⟨elem, -, rfl⟩ := List.mem_map.mp member
    exact bounded_readSpec elem
  constructor
  · rintro ⟨fuel, parse, parses, inDay⟩
    exact allInDay_of_parseReadings bounded parses inDay
  · intro inDay
    obtain ⟨parse, parses, isInDay⟩ := exists_parseReadings bounded inDay (Nat.lt_succ_self 86400)
    exact ⟨_, parse, parses, isInDay⟩

/-- Steps of no length are parsed forever, and an hour of 25 is added. -/
theorem not_parsesInDay_zero :
    (∀ fuel, new.parseNextrun fuel (Bytes.str "*/0") = none) ∧
      ¬new.ParsesInDay (Bytes.str "*/0") ∧
      new.parseNextrun 0 (Bytes.str "25:00") =
        some ⟨some true, ⟨.absolute, [PTime.hours 25]⟩, [⟨.absolute, [PTime.hours 25]⟩]⟩ := by
  have read : readSpecs (Bytes.str "*/0") = [.every 0 0] := by decide +kernel
  have forever (fuel : ℕ) : new.parseNextrun fuel (Bytes.str "*/0") = none := by
    rw [parseNextrun, read, parseReadings, parseReading, everyLoop_zero le_rfl (by decide)]
    rfl
  refine ⟨forever, ?_, by decide +kernel⟩
  rintro ⟨fuel, parse, parses, -⟩
  rw [forever] at parses
  cases parses

end MetaModelConf

end Wdb2ts
