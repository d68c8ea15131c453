import Wdb2ts.Lib.Fallible
import Wdb2ts.UpdateHandler

/-!
# Data versions behind time specifications

A time specification is a name or a date, with or without minutes and seconds.  A data version may
stand behind it, and the decoder of the time gets the version with it.
-/

namespace Wdb2ts

open miutil (toLower ptimeFromIsoString decodeParts decodeOffset decodeIsoTime defs Def digitNext)

namespace LocationForecastUpdateHandler

/-! ## Dates -/

/-- A number of digits. -/
structure DigitsOf (count : ℕ) (digits : Bytes) : Prop where
  length : digits.length = count
  all : ∀ byte ∈ digits, isDigit byte = true

/-- The parts of a date of `Timespec`. -/
structure DateSpec where
  year : Bytes
  month : Bytes
  day : Bytes
  separator : Byte
  hour : Bytes
  /-- The numbers behind colons: minutes, and seconds. -/
  clock : List Bytes
  mark : Bytes
  year_digits : DigitsOf 4 year
  month_digits : DigitsOf 2 month
  day_digits : DigitsOf 2 day
  separator_mem : separator ∈ Bytes.str " Tt"
  hour_digits : DigitsOf 2 hour
  clock_digits : ∀ part ∈ clock, DigitsOf 2 part
  clock_length : clock.length ≤ 2
  mark_mem : ∀ byte ∈ mark, byte ∈ Bytes.str "zZ"
  mark_length : mark.length ≤ 1

/-- The numbers of a clock, each behind a colon. -/
def clockText (clock : List Bytes) : Bytes := clock.flatMap fun part => Bytes.chr ':' :: part

namespace DateSpec

/-- The text from the hour on. -/
def timeText (spec : DateSpec) : Bytes := spec.hour ++ (clockText spec.clock ++ spec.mark)

def text (spec : DateSpec) : Bytes :=
  spec.year ++ (Bytes.str "-" ++ (spec.month ++ (Bytes.str "-" ++ (spec.day ++
    ([spec.separator] ++ spec.timeText)))))

end DateSpec

/-- A text is a time specification without a version. -/
def IsTimespec (text : Bytes) : Prop := afterTimespec text = some []

/-- A time specification is a date with hours, minutes and seconds. -/
def HasSeconds (text : Bytes) : Prop := ∃ spec : DateSpec, text = spec.text ∧ spec.clock.length = 2

/-- A time specification with a version behind it. -/
def withVersion (timeSpec : Bytes) (version : ℤ) : Bytes :=
  timeSpec ++ (Bytes.str "," ++ printInt version)

/-- A value with a version is accepted, with the reference time of the time specification alone and
with the version. -/
structure DecodesVersion (universalTime : ℤ) (provider timeSpec : Bytes) (version : ℤ)
    (newRefTime : ProviderRefTimeList) : Prop where
  accepted : (decodeQueryValue universalTime provider (withVersion timeSpec version) newRefTime).2 =
    some true
  decoded : ∃ alone versioned,
    (decodeQueryValue universalTime provider timeSpec newRefTime).1.find? provider = some alone ∧
      (decodeQueryValue universalTime provider (withVersion timeSpec version)
        newRefTime).1.find? provider = some versioned ∧
      versioned.refTime = alone.refTime ∧ versioned.dataversion = version ∧
      versioned.dataversionRequest = true

/-! ## Matches -/

theorem afterDigits_eq_some_iff {count : ℕ} {text rest : Bytes} :
    afterDigits count text = some rest ↔
      ∃ digits, DigitsOf count digits ∧ text = digits ++ rest := by
  rw [afterDigits]
  constructor
  · intro matched
    split at matched
    · next found =>
        cases matched
        exact ⟨text.take count, ⟨found.1, List.all_eq_true.mp found.2⟩,
          (List.take_append_drop count text).symm⟩
    · cases matched
  · rintro ⟨digits, isDigits, rfl⟩
    have front : (digits ++ rest).take count = digits := List.take_left' isDigits.length
    rw [front, if_pos ⟨isDigits.length, List.all_eq_true.mpr isDigits.all⟩,
      List.drop_left' isDigits.length]

theorem scanByte_eq_some_iff {byte : Byte} {text rest : Bytes} :
    scanByte byte text = some rest ↔ text = byte :: rest := by
  cases text with
  | nil => simp [scanByte]
  | cons other behind =>
      rw [scanByte]
      split
      · next same => rw [same, Option.some_inj, List.cons.injEq, and_iff_right rfl]
      · next differs => exact iff_of_false (by simp) fun same => differs (List.cons.inj same).1

theorem afterOneOf_eq_some_iff {bytes text rest : Bytes} :
    afterOneOf bytes text = some rest ↔ ∃ byte ∈ bytes, text = byte :: rest := by
  cases text with
  | nil => simp [afterOneOf]
  | cons other behind =>
      rw [afterOneOf]
      split
      · next isOne => simp [List.contains_iff_mem.mp isOne]
      · next isNone =>
          have absent : other ∉ bytes := fun isOne => isNone (List.contains_iff_mem.mpr isOne)
          simpa using fun same => absurd same absent

/-- What `afterClock` skips are numbers behind colons. -/
theorem exists_clock (count : ℕ) (text : Bytes) : ∃ clock, clock.length ≤ count ∧
    (∀ part ∈ clock, DigitsOf 2 part) ∧ text = clockText clock ++ afterClock count text := by
  induction count generalizing text with
  | zero => exact ⟨[], le_rfl, fun _ member => absurd member List.not_mem_nil, rfl⟩
  | succ count ih =>
      rw [afterClock]
      split
      · next rest matched =>
          obtain ⟨behind, colon, number⟩ := Option.bind_eq_some_iff.mp matched
          obtain ⟨part, isDigits, rfl⟩ := afterDigits_eq_some_iff.mp number
          obtain ⟨clock, short, allDigits, isRest⟩ := ih rest
          refine ⟨part :: clock, Nat.succ_le_succ short, ?_, ?_⟩
          · intro other member
            rcases List.mem_cons.mp member with rfl | member
            · exact isDigits
            · exact allDigits other member
          · rw [scanByte_eq_some_iff.mp colon, clockText, List.flatMap_cons, List.append_assoc,
              List.cons_append, ← clockText, ← isRest]
      · exact ⟨[], Nat.zero_le _, fun _ member => absurd member List.not_mem_nil, rfl⟩

/-- Numbers behind colons are skipped. -/
theorem afterClock_clockText {clock : List Bytes} (allDigits : ∀ part ∈ clock, DigitsOf 2 part)
    {count : ℕ} (short : clock.length ≤ count) {tail : Bytes}
    (ends : ∀ byte ∈ tail.head?, byte ≠ Bytes.chr ':') :
    afterClock count (clockText clock ++ tail) = tail := by
  induction clock generalizing count with
  | nil =>
      cases count with
      | zero => rfl
      | succ count =>
          have noColon : scanByte (Bytes.chr ':') tail = none := by
            cases tail with
            | nil => rfl
            | cons byte rest => exact if_neg (ends byte rfl)
          rw [clockText, List.flatMap_nil, List.nil_append, afterClock, noColon, Option.bind_none]
  | cons part clock ih =>
      cases count with
      | zero => exact absurd short (Nat.not_succ_le_zero _)
      | succ count =>
          have isDigits := allDigits part List.mem_cons_self
          have matched : (scanByte (Bytes.chr ':') (clockText (part :: clock) ++ tail)).bind
              (afterDigits 2) = some (clockText clock ++ tail) := by
            rw [clockText, List.flatMap_cons, ← clockText, List.append_assoc, List.cons_append,
              scanByte_eq_some_iff.mpr rfl, Option.bind_some, afterDigits_eq_some_iff]
            exact ⟨part, isDigits, rfl⟩
          rw [afterClock, matched]
          exact ih (fun other member => allDigits other (List.mem_cons_of_mem part member))
            (Nat.le_of_succ_le_succ short)

/-- A match of a date has the parts of one. -/
theorem exists_dateSpec {text rest : Bytes} (matched : afterDate text = some rest) :
    ∃ spec : DateSpec, text = spec.text ++ rest := by
  simp only [afterDate, Option.bind_eq_bind, Option.bind_eq_some_iff, Option.pure_def,
    Option.some_inj, afterDigits_eq_some_iff, scanByte_eq_some_iff, afterOneOf_eq_some_iff]
    at matched
  obtain ⟨_, ⟨year, yearDigits, rfl⟩, _, rfl, _, ⟨month, monthDigits, rfl⟩, _, rfl, _,
    ⟨day, dayDigits, rfl⟩, _, ⟨separator, isSeparator, rfl⟩, behind, ⟨hour, hourDigits, rfl⟩,
    isRest⟩ := matched
  obtain ⟨clock, short, clockDigits, isClock⟩ := exists_clock 2 behind
  have marked : ∃ mark, (∀ byte ∈ mark, byte ∈ Bytes.str "zZ") ∧ mark.length ≤ 1 ∧
      afterClock 2 behind = mark ++ rest := by
    cases found : afterOneOf (Bytes.str "zZ") (afterClock 2 behind) with
    | none =>
        rw [found] at isRest
        exact ⟨[], fun _ member => absurd member List.not_mem_nil, Nat.zero_le _, isRest⟩
    | some other =>
        obtain ⟨byte, isMark, starts⟩ := afterOneOf_eq_some_iff.mp found
        rw [found] at isRest
        cases isRest
        refine ⟨[byte], ?_, le_rfl, starts⟩
        intro other member
        rw [List.mem_singleton.mp member]
        exact isMark
  obtain ⟨mark, isMark, markLength, marks⟩ := marked
  refine ⟨⟨year, month, day, separator, hour, clock, mark, yearDigits, monthDigits, dayDigits,
    isSeparator, hourDigits, clockDigits, short, isMark, markLength⟩, ?_⟩
  simp only [DateSpec.text, DateSpec.timeText, List.append_assoc]
  rw [← marks, ← isClock]
  rfl

/-- A date is matched in front of a version. -/
theorem afterDate_text (spec : DateSpec) {tail : Bytes}
    (ends : ∀ byte ∈ tail.head?, byte = Bytes.chr ',') :
    afterDate (spec.text ++ tail) = some tail := by
  have clockEnds : ∀ byte ∈ (spec.mark ++ tail).head?, byte ≠ Bytes.chr ':' := by
    intro byte first
    rw [List.head?_append] at first
    cases mark : spec.mark.head? with
    | none =>
        rw [mark, Option.none_or] at first
        rw [ends byte first]
        decide
    | some other =>
        rw [mark] at first
        cases first
        have isMark := spec.mark_mem byte (List.mem_of_mem_head? mark)
        rintro rfl
        exact absurd isMark (by decide)
  have clocked := afterClock_clockText spec.clock_digits spec.clock_length clockEnds
  have marked : (afterOneOf (Bytes.str "zZ") (spec.mark ++ tail)).getD (spec.mark ++ tail) =
      tail := by
    have isMark := spec.mark_mem
    have short := spec.mark_length
    cases mark : spec.mark with
    | nil =>
        cases tail with
        | nil => rfl
        | cons byte rest =>
            rw [ends byte rfl]
            rfl
    | cons byte others =>
        rw [mark] at isMark short
        cases others with
        | nil =>
            have matched : afterOneOf (Bytes.str "zZ") (byte :: tail) = some tail :=
              afterOneOf_eq_some_iff.mpr ⟨byte, isMark byte List.mem_cons_self, rfl⟩
            rw [List.singleton_append, matched, Option.getD_some]
        | cons other others => exact absurd short (by simp)
  simp only [afterDate, Option.bind_eq_bind, Option.bind_eq_some_iff, Option.pure_def,
    Option.some_inj, afterDigits_eq_some_iff, scanByte_eq_some_iff, afterOneOf_eq_some_iff]
  refine ⟨_, ⟨spec.year, spec.year_digits, ?_⟩, _, rfl, _, ⟨spec.month, spec.month_digits, rfl⟩, _,
    rfl, _, ⟨spec.day, spec.day_digits, rfl⟩, _, ⟨spec.separator, spec.separator_mem, rfl⟩,
    clockText spec.clock ++ (spec.mark ++ tail), ⟨spec.hour, spec.hour_digits, rfl⟩, ?_⟩
  · simp [DateSpec.text, DateSpec.timeText, Bytes.str]
  · rw [clocked, marked]

/-! ## Time specifications -/

/-- No name of a time begins with another one. -/
theorem eq_of_timeName_append : ∀ name ∈ timeNames, ∀ other ∈ timeNames, name <+: other →
    name = other := by
  decide +kernel

/-- The names begin with no digit, no blank and no `en` or `di`. -/
theorem timeNames_head : ∀ name ∈ timeNames, name.length ≥ 2 ∧
    name.take 2 ≠ Bytes.str "en" ∧ name.take 2 ≠ Bytes.str "di" ∧ Bytes.chr ':' ∉ name ∧
    ∀ byte ∈ name.head?, isDigit byte = false ∧ byte ≠ Bytes.chr ' ' ∧ byte ≠ Bytes.chr ',' := by
  decide +kernel

theorem toLower_of_isDigit : ∀ byte : Byte, isDigit byte = true → toLower byte = byte := by
  decide +kernel

/-- What a text begins with, if it is a time specification. -/
theorem isTimespec_cases {timeSpec : Bytes} (isTimespec : IsTimespec timeSpec) :
    timeSpec.map toLower ∈ timeNames ∨ ∃ spec : DateSpec, timeSpec = spec.text := by
  rw [IsTimespec, afterTimespec] at isTimespec
  split at isTimespec
  · next name found =>
      have matched := List.find?_some found
      have nothing := List.drop_eq_nil_iff.mp (Option.some.inj isTimespec)
      rw [decide_eq_true_iff, List.take_of_length_le nothing] at matched
      rw [matched]
      exact Or.inl (List.mem_of_find?_eq_some found)
  · obtain ⟨spec, isText⟩ := exists_dateSpec isTimespec
    rw [List.append_nil] at isText
    exact Or.inr ⟨spec, isText⟩

/-- A name is matched in front of anything. -/
theorem afterTimespec_name {timeSpec : Bytes} (isName : timeSpec.map toLower ∈ timeNames)
    (tail : Bytes) : afterTimespec (timeSpec ++ tail) = some tail := by
  have matches_ (name : Bytes) (isPrefix : name <+: (timeSpec ++ tail).map toLower) :
      ((timeSpec ++ tail).take name.length).map toLower = name := by
    rw [List.map_take, ← List.prefix_iff_eq_take.mp isPrefix]
  have isPrefix : timeSpec.map toLower <+: (timeSpec ++ tail).map toLower := by
    rw [List.map_append]
    exact List.prefix_append _ _
  have some_ : (timeNames.find? fun name => ((timeSpec ++ tail).take name.length).map toLower =
      name).isSome = true :=
    List.find?_isSome.mpr ⟨_, isName, decide_eq_true (matches_ _ isPrefix)⟩
  obtain ⟨name, found⟩ := Option.isSome_iff_exists.mp some_
  have other : name <+: (timeSpec ++ tail).map toLower := by
    have matched := List.find?_some found
    rw [decide_eq_true_iff, List.map_take] at matched
    rw [← matched]
    exact List.take_prefix _ _
  have member := List.mem_of_find?_eq_some found
  have same : name = timeSpec.map toLower := by
    rcases List.prefix_or_prefix_of_prefix other isPrefix with front | front
    · exact eq_of_timeName_append _ member _ isName front
    · exact (eq_of_timeName_append _ isName _ member front).symm
  rw [afterTimespec, found]
  dsimp only
  rw [same, List.length_map, List.drop_left]

theorem DateSpec.exists_head (spec : DateSpec) : ∃ first second rest,
    spec.text = first :: second :: rest ∧ isDigit first = true ∧ isDigit second = true := by
  have isYear := spec.year_digits
  cases year : spec.year with
  | nil =>
      rw [year] at isYear
      cases isYear.length
  | cons first others =>
      cases others with
      | nil =>
          rw [year] at isYear
          cases isYear.length
      | cons second others =>
          rw [year] at isYear
          rw [DateSpec.text, year]
          exact ⟨first, second, _, rfl, isYear.all first List.mem_cons_self,
            isYear.all second (List.mem_cons_of_mem first List.mem_cons_self)⟩

/-- A date is matched in front of a version. -/
theorem afterTimespec_date (spec : DateSpec) {tail : Bytes}
    (ends : ∀ byte ∈ tail.head?, byte = Bytes.chr ',') :
    afterTimespec (spec.text ++ tail) = some tail := by
  obtain ⟨first, second, rest, starts, firstDigit, -⟩ := spec.exists_head
  have noName : (timeNames.find? fun name =>
      ((spec.text ++ tail).take name.length).map toLower = name) = none := by
    rw [List.find?_eq_none]
    intro name member matched
    have matched := of_decide_eq_true matched
    have head := timeNames_head name member
    rw [starts, List.cons_append] at matched
    cases name with
    | nil => exact absurd head.1 (by simp)
    | cons byte others =>
        rw [List.length_cons, List.take_succ_cons, List.map_cons,
          toLower_of_isDigit first firstDigit] at matched
        have noDigit := (head.2.2.2.2 byte rfl).1
        rw [← (List.cons.inj matched).1, firstDigit] at noDigit
        cases noDigit
  rw [afterTimespec, noName]
  exact afterDate_text spec ends

theorem afterTimespec_append {timeSpec : Bytes} (isTimespec : IsTimespec timeSpec) {tail : Bytes}
    (ends : ∀ byte ∈ tail.head?, byte = Bytes.chr ',') :
    afterTimespec (timeSpec ++ tail) = some tail := by
  rcases isTimespec_cases isTimespec with isName | ⟨spec, rfl⟩
  · exact afterTimespec_name isName tail
  · exact afterTimespec_date spec ends

/-! ## Values of time specifications -/

theorem toLower_separator : ∀ byte : Byte, byte = Bytes.chr ' ' ∨ byte = Bytes.chr ',' →
    toLower byte = byte := by
  decide +kernel

theorem not_disableEnable_of_isDigit : ∀ byte : Byte, isDigit byte = true →
    byte ≠ Bytes.chr 'e' ∧ byte ≠ Bytes.chr 'd' ∧ byte ≠ Bytes.chr ' ' ∧ byte ≠ Bytes.chr ',' := by
  decide +kernel

/-- The first two bytes of a time specification. -/
structure StartsTime (first second : Byte) : Prop where
  noSeparator : first ≠ Bytes.chr ' ' ∧ first ≠ Bytes.chr ','
  noZero : first = Bytes.chr '0' → second ≠ Bytes.chr ' ' ∧ second ≠ Bytes.chr ','
  noEnable : [first, second].map toLower ≠ Bytes.str "en"
  noDisable : [first, second].map toLower ≠ Bytes.str "di"

theorem IsTimespec.exists_start {timeSpec : Bytes} (isTimespec : IsTimespec timeSpec) :
    ∃ first second rest, timeSpec = first :: second :: rest ∧ StartsTime first second := by
  rcases isTimespec_cases isTimespec with isName | ⟨spec, rfl⟩
  · have head := timeNames_head _ isName
    match timeSpec with
    | [] => exact absurd head.1 (by simp)
    | [_] => exact absurd head.1 (by simp)
    | first :: second :: rest =>
        obtain ⟨-, noEnable, noDisable, -, isFirst⟩ := head
        obtain ⟨noDigit, noBlank, noComma⟩ := isFirst (toLower first) rfl
        refine ⟨first, second, rest, rfl, ⟨?_, ?_⟩, ?_, noEnable, noDisable⟩
        · intro blank
          exact noBlank ((toLower_separator first (Or.inl blank)).trans blank)
        · intro comma
          exact noComma ((toLower_separator first (Or.inr comma)).trans comma)
        · rintro rfl
          exact absurd noDigit (by decide)
  · obtain ⟨first, second, rest, starts, firstDigit, secondDigit⟩ := spec.exists_head
    have noFirst := not_disableEnable_of_isDigit first firstDigit
    have noSecond := not_disableEnable_of_isDigit second secondDigit
    refine ⟨first, second, rest, starts, noFirst.2.2, fun _ => noSecond.2.2, ?_, ?_⟩
    · intro enable
      rw [List.map_cons, toLower_of_isDigit first firstDigit] at enable
      exact noFirst.1 (List.cons.inj enable).1
    · intro disable
      rw [List.map_cons, toLower_of_isDigit first firstDigit] at disable
      exact noFirst.2.1 (List.cons.inj disable).1

theorem matchVersion_eq_none {byte : Byte} {rest : Bytes} (noBlank : byte ≠ Bytes.chr ' ')
    (noComma : byte ≠ Bytes.chr ',') : matchVersion (byte :: rest) = none := by
  rw [matchVersion, List.dropWhile_cons_of_neg (by simpa using noBlank)]
  exact if_neg fun matched => noComma matched.1

theorem matchDisableEnable_timespec {timeSpec : Bytes} (isTimespec : IsTimespec timeSpec)
    (tail : Bytes) : matchDisableEnable (timeSpec ++ tail) = false := by
  obtain ⟨first, second, rest, rfl, starts⟩ := isTimespec.exists_start
  have front : ((first :: second :: rest) ++ tail).take 2 = [first, second] := rfl
  rw [matchDisableEnable, front, decide_eq_false starts.noEnable, decide_eq_false starts.noDisable,
    Bool.or_self, Bool.false_and]

theorem matchOnlyVersion_timespec {timeSpec : Bytes} (isTimespec : IsTimespec timeSpec)
    (tail : Bytes) : matchOnlyVersion (timeSpec ++ tail) = none := by
  obtain ⟨first, second, rest, rfl, starts⟩ := isTimespec.exists_start
  have front : ((first :: second :: rest) ++ tail).take 1 = [first] := rfl
  rw [matchOnlyVersion, front]
  by_cases zero : first = Bytes.chr '0'
  · have isZero : [first].filter (fun byte => byte = Bytes.chr '0') = [first] :=
      List.filter_cons_of_pos (decide_eq_true zero)
    rw [isZero, Option.map_eq_none_iff]
    exact matchVersion_eq_none (starts.noZero zero).1 (starts.noZero zero).2
  · have noZero : [first].filter (fun byte => byte = Bytes.chr '0') = [] := by
      rw [List.filter_cons_of_neg (by simpa using zero), List.filter_nil]
    rw [noZero, Option.map_eq_none_iff]
    exact matchVersion_eq_none starts.noSeparator.1 starts.noSeparator.2

/-- The text of a version is matched. -/
theorem matchVersion_printInt {version : ℤ} (nonneg : 0 ≤ version) :
    matchVersion (Bytes.str "," ++ printInt version) = some (printInt version) := by
  have printed : printInt version = printNat version.natAbs := by
    rw [printInt, if_neg (not_lt.mpr nonneg)]
  have allDigits : ∀ byte ∈ printNat version.natAbs, isDigit byte = true :=
    fun _ member => isDigit_of_mem_printNat member
  have notEmpty : printNat version.natAbs ≠ [] := by simp [printNat]
  have noBlanks : (printNat version.natAbs).dropWhile (fun byte => byte = Bytes.chr ' ') =
      printNat version.natAbs := by
    apply Bytes.dropWhile_of_head?
    intro byte first
    have digit := allDigits byte (List.mem_of_mem_head? first)
    exact decide_eq_false (not_disableEnable_of_isDigit byte digit).2.2.1
  have comma : (Bytes.str "," ++ printNat version.natAbs).dropWhile
      (fun byte => byte = Bytes.chr ' ') = Bytes.chr ',' :: printNat version.natAbs := rfl
  rw [printed, matchVersion, comma]
  dsimp only
  rw [noBlanks, filter_sign_take allDigits, List.length_nil, List.drop_zero,
    if_pos ⟨rfl, notEmpty, List.all_eq_true.mpr allDigits⟩]

/-- The times of a time specification, with the version behind it. -/
theorem decodeProviderTimes_timespec (universalTime : ℤ) {timeSpec tail version : Bytes}
    {providerTimes : ProviderTimes} (isTimespec : IsTimespec timeSpec)
    (ends : ∀ byte ∈ tail.head?, byte = Bytes.chr ',')
    (matched : (if tail.isEmpty then some [] else matchVersion tail) = some version)
    (versioned : withDataversion default version = some providerTimes) :
    decodeProviderTimes universalTime (timeSpec ++ tail) =
      withRefTime providerTimes (ptimeFromIsoString universalTime (timeSpec ++ tail)) := by
  have notEmpty : (timeSpec ++ tail).isEmpty = false := by
    obtain ⟨first, second, rest, rfl, -⟩ := isTimespec.exists_start
    rfl
  have isMatch : matchTimeAndVersion (timeSpec ++ tail) = some version := by
    rw [matchTimeAndVersion, afterTimespec_append isTimespec ends, Option.bind_some, matched]
  simp only [decodeProviderTimes, notEmpty, matchDisableEnable_timespec isTimespec tail,
    matchOnlyVersion_timespec isTimespec tail, isMatch, versioned, Bool.false_eq_true, if_false]

/-! ## Names with a version -/

theorem scanWord_suffix {width : ℕ} {text word rest : Bytes}
    (scanned : scanWord width text = some (word, rest)) : rest <:+ text := by
  rw [scanWord] at scanned
  split at scanned
  · cases scanned
  · cases scanned
    exact (List.drop_suffix _ _).trans (List.dropWhile_suffix _)

theorem scanField_suffix {width : ℕ} {text rest : Bytes} {number : ℤ}
    (scanned : scanField width text = some (number, rest)) : rest <:+ text := by
  rw [scanField] at scanned
  dsimp only at scanned
  split at scanned
  · cases scanned
  · cases scanned
    exact (List.drop_suffix _ _).trans (List.dropWhile_suffix _)

/-- A scanned date has a colon. -/
theorem colon_mem_of_scanRfc1123 {text : Bytes} {scanned : miutil.Rfc1123}
    (found : miutil.scanRfc1123 text = some scanned) : Bytes.chr ':' ∈ text := by
  simp only [miutil.scanRfc1123, Option.bind_eq_bind, Option.bind_eq_some_iff, Prod.exists,
    scanByte_eq_some_iff] at found
  obtain ⟨_, _, sday, behindDay, rfl, _, _, day, _, _, smon, _, behindYear, year, _, _, hour, _,
    rfl, -⟩ := found
  have inHour := (scanField_suffix hour).subset List.mem_cons_self
  have inYear := (scanField_suffix year).subset inHour
  have inMonth := (scanWord_suffix smon).subset inYear
  have inDay := (scanField_suffix day).subset inMonth
  have inText := (scanWord_suffix sday).subset (List.mem_cons_of_mem _ inDay)
  exact (List.takeWhile_prefix _).subset inText

theorem noColon_of_isDigit : ∀ byte : Byte, isDigit byte = true → byte ≠ Bytes.chr ':' := by
  decide +kernel

theorem toLower_colon : toLower (Bytes.chr ':') = Bytes.chr ':' := by decide

/-- The names have no comma. -/
theorem comma_notMem_names : ∀ name ∈ timeNames, Bytes.chr ',' ∉ name := by decide +kernel

variable (universalTime : ℤ) {timeSpec : Bytes}

/-- A text that begins with no digit is decoded as the date of an HTTP header, which has a colon. -/
theorem ptimeFromIsoString_noColon {first : Byte} {rest : Bytes}
    (noName : Bytes.chr ',' ∈ first :: rest) (noBlank : first ≠ Bytes.chr ' ')
    (noDigit : isDigit first = false) (noColon : Bytes.chr ':' ∉ first :: rest) :
    ∃ what, ptimeFromIsoString universalTime (first :: rest) = .error what := by
  have differs (name : Bytes) (isName : name ∈ timeNames) : first :: rest ≠ name := by
    intro same
    rw [same] at noName
    exact comma_notMem_names name isName noName
  have noDate : miutil.rfc1123date (first :: rest) = .ok .notADateTime := by
    rw [miutil.rfc1123date]
    cases found : miutil.scanRfc1123 (first :: rest) with
    | none => rfl
    | some scanned => exact absurd (colon_mem_of_scanRfc1123 found) noColon
  rw [ptimeFromIsoString, if_neg (differs _ (by decide)), if_neg (differs _ (by decide)),
    if_neg (differs _ (by decide)), if_neg (differs _ (by decide)), if_neg (differs _ (by decide)),
    if_neg (differs _ (by decide)), if_neg (differs _ (by decide)),
    List.dropWhile_cons_of_neg (by simpa using noBlank)]
  dsimp only
  rw [noDigit, noDate]
  exact ⟨_, rfl⟩

/-- A name with a version is no time. -/
theorem ptimeFromIsoString_name (isName : timeSpec.map toLower ∈ timeNames) {version : ℤ}
    (nonneg : 0 ≤ version) :
    ∃ what, ptimeFromIsoString universalTime (withVersion timeSpec version) = .error what := by
  have head := timeNames_head _ isName
  have printed : printInt version = printNat version.natAbs := by
    rw [printInt, if_neg (not_lt.mpr nonneg)]
  cases timeSpec with
  | nil => exact absurd head.1 (by simp)
  | cons first rest =>
      have isFirst := head.2.2.2.2 (toLower first) rfl
      have noColon : Bytes.chr ':' ∉ first :: rest := fun member =>
        head.2.2.2.1 (toLower_colon ▸ List.mem_map_of_mem member)
      have stillNoColon : Bytes.chr ':' ∉ withVersion (first :: rest) version := by
        intro member
        rcases List.mem_append.mp member with inName | inVersion
        · exact noColon inName
        · rcases List.mem_cons.mp inVersion with isComma | inDigits
          · exact absurd isComma (by decide)
          · rw [printed] at inDigits
            exact noColon_of_isDigit _ (isDigit_of_mem_printNat inDigits) rfl
      apply ptimeFromIsoString_noColon
      · exact List.mem_append_right (first :: rest) List.mem_cons_self
      · intro blank
        exact isFirst.2.1 ((toLower_separator first (Or.inl blank)).trans blank)
      · by_contra digit
        rw [Bool.not_eq_false] at digit
        rw [toLower_of_isDigit first digit, digit] at isFirst
        cases isFirst.1
      · exact stillNoColon

/-! ## Dates with a version -/

section Dates

variable (isoTime : Bytes)

theorem DigitsOf.digitNext {count : ℕ} {digits : Bytes} (isDigits : DigitsOf (count + 1) digits)
    (rest : Bytes) : digitNext (digits ++ rest) = true := by
  cases digits with
  | nil => cases isDigits.length
  | cons byte others => exact isDigits.all byte List.mem_cons_self

/-- A part in front of another one. -/
theorem decodeParts_part {entry : Def} {digits sep rest : Bytes} (wellFormed : entry.WellFormed)
    (isDigits : DigitsOf entry.numberOfChars digits)
    (separators : ∀ byte ∈ sep, byte ∈ entry.nextSep) (starts : digitNext rest = true)
    (others : List Def) :
    decodeParts isoTime (entry :: others) (digits ++ (sep ++ rest)) =
      (decodeParts isoTime others rest).map fun parts =>
        ((decimalNumber digits 0 : ℤ) :: parts.1, parts.2) := by
  cases rest with
  | nil => cases starts
  | cons first behind =>
      have ends : entry.EndsBefore (first :: behind) := by
        refine ⟨fun nothing => (by cases nothing), ?_⟩
        rintro byte ⟨⟩ member
        have isDigit : isDigit first = true := starts
        rw [wellFormed.noDigit first member] at isDigit
        cases isDigit
      rw [miutil.decodeParts_digits isoTime isDigits.length wellFormed.noOverflow isDigits.all
        separators ends, if_neg (List.cons_ne_nil first behind)]

theorem noSeparators (entry : Def) : ∀ byte ∈ ([] : Bytes), byte ∈ entry.nextSep :=
  fun _ member => absurd member List.not_mem_nil

/-- A part in front of what is neither a digit nor a separator. -/
theorem decodeParts_noPart {entry other : Def} {digits rest : Bytes} {byte : Byte}
    (wellFormed : entry.WellFormed) (otherWellFormed : other.WellFormed)
    (isDigits : DigitsOf entry.numberOfChars digits) (noDigit : isDigit byte = false)
    (noSeparator : byte ∉ entry.nextSep) (others : List Def) :
    ∃ what, decodeParts isoTime (entry :: other :: others) (digits ++ byte :: rest) =
      .error what := by
  have ends : entry.EndsBefore (byte :: rest) :=
    ⟨fun nothing => (by cases nothing), by rintro first ⟨⟩; exact noSeparator⟩
  have noNumber : ∃ what, decodeParts isoTime (other :: others) (byte :: rest) = .error what := by
    have positive := otherWellFormed.positive
    rw [decodeParts, miutil.getInt, if_neg (not_lt.mpr otherWellFormed.noOverflow)]
    cases width : other.numberOfChars with
    | zero => exact absurd positive (by rw [width]; exact lt_irrefl 0)
    | succ count =>
        rw [miutil.getIntLoop, noDigit]
        exact ⟨_, rfl⟩
  obtain ⟨what, isError⟩ := noNumber
  have decoded := miutil.decodeParts_digits isoTime isDigits.length wellFormed.noOverflow
    isDigits.all (noSeparators entry) ends (other :: others)
  rw [List.nil_append, if_neg (List.cons_ne_nil byte rest), isError] at decoded
  exact ⟨what, decoded⟩

/-- The last part in front of what is no blank. -/
theorem decodeParts_last {entry : Def} {digits rest : Bytes} (wellFormed : entry.WellFormed)
    (isDigits : DigitsOf entry.numberOfChars digits) (ends : entry.EndsBefore rest) :
    decodeParts isoTime [entry] (digits ++ rest) = .ok ([(decimalNumber digits 0 : ℤ)], rest) := by
  have decoded := miutil.decodeParts_digits isoTime isDigits.length wellFormed.noOverflow
    isDigits.all (noSeparators entry) ends []
  rw [List.nil_append] at decoded
  rw [decoded]
  split
  · next nothing =>
      rw [nothing]
      rfl
  · rfl

/-! ### The entries of the table -/

def yearDef : Def := ⟨4, Bytes.str "-", true⟩

def monthDef : Def := ⟨2, Bytes.str "-", true⟩

def dayDef : Def := ⟨2, Bytes.str "T ", false⟩

/-- The entry of the hour and of the minute. -/
def clockDef : Def := ⟨2, Bytes.str ":", false⟩

def secondDef : Def := ⟨2, Bytes.str " ", false⟩

theorem defs_eq : defs = [yearDef, monthDef, dayDef, clockDef, clockDef, secondDef] := rfl

theorem yearDef_wellFormed : yearDef.WellFormed :=
  miutil.defs_wellFormed yearDef (defs_eq ▸ by simp)

theorem monthDef_wellFormed : monthDef.WellFormed :=
  miutil.defs_wellFormed monthDef (defs_eq ▸ by simp)

theorem dayDef_wellFormed : dayDef.WellFormed :=
  miutil.defs_wellFormed dayDef (defs_eq ▸ by simp)

theorem clockDef_wellFormed : clockDef.WellFormed :=
  miutil.defs_wellFormed clockDef (defs_eq ▸ by simp)

theorem secondDef_wellFormed : secondDef.WellFormed :=
  miutil.defs_wellFormed secondDef (defs_eq ▸ by simp)

/-- Neither a mark nor a comma is a digit or a separator of the clock. -/
theorem end_noPart : ∀ byte ∈ Bytes.str "zZ,", isDigit byte = false ∧ byte ∉ clockDef.nextSep ∧
    byte ∉ secondDef.nextSep := by
  decide +kernel

namespace DateSpec

variable (spec : DateSpec) {tail : Bytes}

/-- The numbers of a date. -/
def numbers : List ℤ :=
  (spec.year :: spec.month :: spec.day :: spec.hour :: spec.clock).map fun part =>
    (decimalNumber part 0 : ℤ)

theorem mark_ends (ends : ∀ byte ∈ tail.head?, byte = Bytes.chr ',') :
    ∀ byte ∈ (spec.mark ++ tail).head?, byte ∈ Bytes.str "zZ," := by
  intro byte first
  rw [List.head?_append] at first
  cases mark : spec.mark.head? with
  | none =>
      rw [mark, Option.none_or] at first
      rw [ends byte first]
      decide
  | some other =>
      rw [mark] at first
      cases first
      exact List.mem_append_left (Bytes.str ",")
        (spec.mark_mem byte (List.mem_of_mem_head? mark))

/-- The year and the month. -/
theorem decodeParts_month {rest : Bytes} (starts : digitNext rest = true) :
    decodeParts isoTime defs (spec.year ++ (Bytes.str "-" ++ (spec.month ++ (Bytes.str "-" ++
        rest)))) =
      (decodeParts isoTime [dayDef, clockDef, clockDef, secondDef] rest).map fun parts =>
        ((decimalNumber spec.year 0 : ℤ) :: decimalNumber spec.month 0 :: parts.1, parts.2) := by
  have behindYear : ∀ byte ∈ Bytes.str "-", byte ∈ yearDef.nextSep := fun _ member => member
  have behindMonth : ∀ byte ∈ Bytes.str "-", byte ∈ monthDef.nextSep := fun _ member => member
  rw [defs_eq, decodeParts_part isoTime yearDef_wellFormed spec.year_digits behindYear
      (spec.month_digits.digitNext _),
    decodeParts_part isoTime monthDef_wellFormed spec.month_digits behindMonth starts]
  cases decodeParts isoTime [dayDef, clockDef, clockDef, secondDef] rest with
  | error what => rfl
  | ok parts => rfl

/-- The numbers in front of the separator. -/
theorem decodeParts_day {rest : Bytes} (starts : digitNext rest = true)
    (separator : spec.separator ≠ Bytes.chr 't') :
    decodeParts isoTime defs (spec.year ++ (Bytes.str "-" ++ (spec.month ++ (Bytes.str "-" ++
        (spec.day ++ ([spec.separator] ++ rest)))))) =
      (decodeParts isoTime [clockDef, clockDef, secondDef] rest).map fun parts =>
        ((decimalNumber spec.year 0 : ℤ) :: decimalNumber spec.month 0 ::
          decimalNumber spec.day 0 :: parts.1, parts.2) := by
  have isSeparator : ∀ byte ∈ [spec.separator], byte ∈ dayDef.nextSep := by
    have upperCase : ∀ byte ∈ Bytes.str " Tt", byte ≠ Bytes.chr 't' → byte ∈ dayDef.nextSep := by
      decide +kernel
    intro byte member
    rw [List.mem_singleton.mp member]
    exact upperCase _ spec.separator_mem separator
  rw [spec.decodeParts_month isoTime (spec.day_digits.digitNext _),
    decodeParts_part isoTime dayDef_wellFormed spec.day_digits isSeparator starts]
  cases decodeParts isoTime [clockDef, clockDef, secondDef] rest with
  | error what => rfl
  | ok parts => rfl

/-- The decoder knows no small `t`. -/
theorem decodeParts_separator {rest : Bytes} (separator : spec.separator = Bytes.chr 't') :
    ∃ what, decodeParts isoTime defs (spec.year ++ (Bytes.str "-" ++ (spec.month ++
      (Bytes.str "-" ++ (spec.day ++ ([spec.separator] ++ rest)))))) = .error what := by
  have noPart : isDigit (Bytes.chr 't') = false ∧ Bytes.chr 't' ∉ dayDef.nextSep := by
    decide +kernel
  obtain ⟨what, isError⟩ : ∃ what, decodeParts isoTime [dayDef, clockDef, clockDef, secondDef]
      (spec.day ++ Bytes.chr 't' :: rest) = .error what :=
    decodeParts_noPart isoTime dayDef_wellFormed clockDef_wellFormed spec.day_digits noPart.1
      noPart.2 [clockDef, secondDef]
  rw [spec.decodeParts_month isoTime (spec.day_digits.digitNext _), separator,
    List.singleton_append, isError]
  exact ⟨what, rfl⟩

/-- The numbers of a date with seconds are decoded whatever is behind it. -/
theorem decodeParts_seconds (ends : ∀ byte ∈ tail.head?, byte = Bytes.chr ',')
    (separator : spec.separator ≠ Bytes.chr 't') (seconds : spec.clock.length = 2) :
    decodeParts isoTime defs (spec.text ++ tail) = .ok (spec.numbers, spec.mark ++ tail) := by
  have isClock := spec.clock_digits
  obtain ⟨minute, second, clock⟩ := List.length_eq_two.mp seconds
  rw [clock] at isClock
  have minuteDigits := isClock minute (by simp)
  have secondDigits := isClock second (by simp)
  have lastEnds : secondDef.EndsBefore (spec.mark ++ tail) :=
    ⟨fun _ => rfl, fun byte first => (end_noPart byte (spec.mark_ends ends byte first)).2.2⟩
  have text : spec.text ++ tail = spec.year ++ (Bytes.str "-" ++ (spec.month ++ (Bytes.str "-" ++
      (spec.day ++ ([spec.separator] ++ (spec.hour ++ (Bytes.str ":" ++ (minute ++
        (Bytes.str ":" ++ (second ++ (spec.mark ++ tail))))))))))) := by
    simp [DateSpec.text, timeText, clock, clockText, Bytes.str]
  have colon : ∀ byte ∈ Bytes.str ":", byte ∈ clockDef.nextSep := fun _ member => member
  rw [text, spec.decodeParts_day isoTime (spec.hour_digits.digitNext _) separator,
    decodeParts_part isoTime clockDef_wellFormed spec.hour_digits colon
      (minuteDigits.digitNext _),
    decodeParts_part isoTime clockDef_wellFormed minuteDigits colon (secondDigits.digitNext _),
    decodeParts_last isoTime secondDef_wellFormed secondDigits lastEnds, numbers, clock]
  rfl

/-- Without seconds, a number is expected where the version is. -/
theorem decodeParts_noSeconds {first : Byte} {rest : Bytes} (isEnd : first ∈ Bytes.str "zZ,")
    (separator : spec.separator ≠ Bytes.chr 't') (noSeconds : spec.clock.length ≠ 2)
    (marked : spec.mark ++ tail = first :: rest) :
    ∃ what, decodeParts isoTime defs (spec.text ++ tail) = .error what := by
  have isClock := spec.clock_digits
  have short := spec.clock_length
  obtain ⟨noDigit, noColon, -⟩ := end_noPart first isEnd
  have text : spec.text ++ tail = spec.year ++ (Bytes.str "-" ++ (spec.month ++ (Bytes.str "-" ++
      (spec.day ++ ([spec.separator] ++ (spec.hour ++ (clockText spec.clock ++
        (first :: rest)))))))) := by
    rw [← marked]
    simp [DateSpec.text, timeText, Bytes.str]
  have clockError : ∃ what, decodeParts isoTime [clockDef, clockDef, secondDef]
      (spec.hour ++ (clockText spec.clock ++ (first :: rest))) = .error what := by
    cases clock : spec.clock with
    | nil =>
        exact decodeParts_noPart isoTime clockDef_wellFormed clockDef_wellFormed spec.hour_digits
          noDigit noColon [secondDef]
    | cons minute others =>
        rw [clock] at isClock short noSeconds
        have minuteDigits := isClock minute List.mem_cons_self
        have noOther : others = [] := by
          rw [← List.length_eq_zero_iff]
          rw [List.length_cons] at short noSeconds
          omega
        obtain ⟨what, isError⟩ : ∃ what, decodeParts isoTime [clockDef, secondDef]
            (minute ++ first :: rest) = .error what :=
          decodeParts_noPart isoTime clockDef_wellFormed secondDef_wellFormed minuteDigits noDigit
            noColon []
        have colon : ∀ byte ∈ Bytes.str ":", byte ∈ clockDef.nextSep := fun _ member => member
        have minuteText : clockText [minute] ++ first :: rest =
            Bytes.str ":" ++ (minute ++ first :: rest) := by
          simp [clockText, Bytes.str]
        rw [noOther, minuteText, decodeParts_part isoTime clockDef_wellFormed spec.hour_digits colon
          (minuteDigits.digitNext _), isError]
        exact ⟨what, rfl⟩
  obtain ⟨what, isError⟩ := clockError
  rw [text, spec.decodeParts_day isoTime (spec.hour_digits.digitNext _) separator, isError]
  exact ⟨what, rfl⟩

/-- A mark and a version are no offset. -/
theorem decodeOffset_mark (ends : ∀ byte ∈ tail.head?, byte = Bytes.chr ',') :
    decodeOffset isoTime (spec.mark ++ tail) = .ok (0, 0) := by
  have noOffset : ∀ byte ∈ Bytes.str "zZ,", ∀ rest, decodeOffset isoTime (byte :: rest) =
      .ok (0, 0) := by
    intro byte isEnd rest
    rw [decodeOffset]
    rcases List.mem_cons.mp isEnd with rfl | isEnd
    · exact if_pos (by decide)
    · rcases List.mem_cons.mp isEnd with rfl | isEnd
      · exact if_pos (by decide)
      · rw [List.mem_singleton.mp isEnd, if_neg (by decide), if_neg (by decide)]
  have isEnd := spec.mark_ends ends
  cases behind : spec.mark ++ tail with
  | nil => rfl
  | cons byte rest =>
      rw [behind] at isEnd
      exact noOffset byte (isEnd byte rfl) rest

theorem ptimeFromIsoString_text (universalTime : ℤ) (tail : Bytes) :
    ptimeFromIsoString universalTime (spec.text ++ tail) =
      decodeIsoTime (spec.text ++ tail) (spec.text ++ tail) := by
  apply miutil.ptimeFromIsoString_digit
  obtain ⟨first, second, rest, starts, digit, -⟩ := spec.exists_head
  rw [starts]
  exact digit

/-- A date with a small `t` is no time. -/
theorem ptimeFromIsoString_separator (universalTime : ℤ) (tail : Bytes)
    (separator : spec.separator = Bytes.chr 't') :
    ∃ what, ptimeFromIsoString universalTime (spec.text ++ tail) = .error what := by
  obtain ⟨what, isError⟩ : ∃ what, decodeParts (spec.text ++ tail) defs (spec.year ++
      (Bytes.str "-" ++ (spec.month ++ (Bytes.str "-" ++ (spec.day ++ ([spec.separator] ++
        (spec.timeText ++ tail))))))) = .error what :=
    spec.decodeParts_separator (spec.text ++ tail) separator
  have text : spec.year ++ (Bytes.str "-" ++ (spec.month ++ (Bytes.str "-" ++ (spec.day ++
      ([spec.separator] ++ (spec.timeText ++ tail)))))) = spec.text ++ tail := by
    simp [DateSpec.text]
  rw [text] at isError
  rw [spec.ptimeFromIsoString_text, decodeIsoTime, isError]
  exact ⟨what, rfl⟩

/-- A version behind a date with seconds changes nothing. -/
theorem ptimeFromIsoString_seconds (universalTime : ℤ)
    (ends : ∀ byte ∈ tail.head?, byte = Bytes.chr ',')
    (separator : spec.separator ≠ Bytes.chr 't') (seconds : spec.clock.length = 2) :
    ptimeFromIsoString universalTime (spec.text ++ tail) =
      (PTime.gregorianDate (spec.numbers.getD 0 0) (spec.numbers.getD 1 0)
        (spec.numbers.getD 2 0)).map fun date =>
          (PTime.ofDate date (PTime.timeDuration (spec.numbers.getD 3 0) (spec.numbers.getD 4 0)
            (spec.numbers.getD 5 0))).sub (PTime.timeDuration 0 0 0) := by
  rw [spec.ptimeFromIsoString_text, decodeIsoTime,
    spec.decodeParts_seconds (spec.text ++ tail) ends separator seconds]
  simp only [bind, Except.bind, pure, Except.pure, spec.decodeOffset_mark (spec.text ++ tail) ends]
  cases PTime.gregorianDate (spec.numbers.getD 0 0) (spec.numbers.getD 1 0)
      (spec.numbers.getD 2 0) with
  | error what => rfl
  | ok date => rfl

/-- A version behind a date without seconds is taken as a number of the date. -/
theorem ptimeFromIsoString_noSeconds (universalTime : ℤ) {rest : Bytes}
    (noSeconds : spec.clock.length ≠ 2) :
    ∃ what, ptimeFromIsoString universalTime (spec.text ++ (Bytes.str "," ++ rest)) =
      .error what := by
  by_cases separator : spec.separator = Bytes.chr 't'
  · exact spec.ptimeFromIsoString_separator universalTime _ separator
  · have isEnd : ∀ byte ∈ (spec.mark ++ (Bytes.str "," ++ rest)).head?, byte ∈ Bytes.str "zZ," :=
      spec.mark_ends (by rintro byte ⟨⟩; rfl)
    cases marked : spec.mark ++ (Bytes.str "," ++ rest) with
    | nil => exact absurd (List.append_eq_nil_iff.mp marked).2 (by simp [Bytes.str])
    | cons first behind =>
        rw [marked] at isEnd
        obtain ⟨what, isError⟩ := spec.decodeParts_noSeconds
          (spec.text ++ (Bytes.str "," ++ rest)) (isEnd first rfl) separator noSeconds marked
        rw [spec.ptimeFromIsoString_text, decodeIsoTime, isError]
        exact ⟨what, rfl⟩

end DateSpec

end Dates

/-! ## Versions behind time specifications -/

section Versions

variable (universalTime : ℤ) {timeSpec provider : Bytes} {version : ℤ}
  {newRefTime : ProviderRefTimeList}

theorem ends_version (version : ℤ) :
    ∀ byte ∈ (Bytes.str "," ++ printInt version).head?, byte = Bytes.chr ',' := by
  rintro byte ⟨⟩
  rfl

/-- The times of a version alone. -/
def versionTimes (version : ℤ) : ProviderTimes :=
  { (default : ProviderTimes) with dataversion := version, dataversionRequest := true }

theorem decodeProviderTimes_alone (isTimespec : IsTimespec timeSpec) :
    decodeProviderTimes universalTime timeSpec =
      withRefTime default (ptimeFromIsoString universalTime timeSpec) := by
  have noTail : ∀ byte ∈ ([] : Bytes).head?, byte = Bytes.chr ',' := by rintro byte ⟨⟩
  have noVersion : withDataversion default [] = some (default : ProviderTimes) := rfl
  have decoded := decodeProviderTimes_timespec universalTime isTimespec noTail rfl noVersion
  rwa [List.append_nil] at decoded

theorem decodeProviderTimes_version (isTimespec : IsTimespec timeSpec) (nonneg : 0 ≤ version)
    (isInt : version ≤ 2147483647) :
    decodeProviderTimes universalTime (withVersion timeSpec version) =
      withRefTime (versionTimes version)
        (ptimeFromIsoString universalTime (withVersion timeSpec version)) := by
  have printed : (printInt version).isEmpty = false := by
    rw [printInt, if_neg (not_lt.mpr nonneg), List.isEmpty_eq_false_iff]
    simp [printNat]
  have cast := lexicalCastInt_printInt (by omega) isInt
  apply decodeProviderTimes_timespec universalTime isTimespec (ends_version version)
    (matchVersion_printInt nonneg)
  rw [withDataversion, printed, cast]
  rfl

theorem decodeQueryValue_eq (hasName : provider.isEmpty = false) (val : Bytes) :
    decodeQueryValue universalTime provider val newRefTime =
      (newRefTime.insert provider (decodeProviderTimes universalTime val).1,
        (decodeProviderTimes universalTime val).2) := by
  rw [decodeQueryValue, hasName, if_neg Bool.false_ne_true]

theorem withRefTime_accepted {providerTimes : ProviderTimes} {decoded : Except Bytes PTime}
    (accepted : (withRefTime providerTimes decoded).2 = some true) :
    ∃ refTime, decoded = .ok refTime := by
  cases decoded with
  | error what => cases accepted
  | ok refTime => exact ⟨refTime, rfl⟩

/-- A version is decoded with its time specification exactly when the decoder of the time skips
it. -/
theorem decodesVersion_iff_decoded (isTimespec : IsTimespec timeSpec)
    (accepted : (decodeQueryValue universalTime provider timeSpec newRefTime).2 = some true)
    (nonneg : 0 ≤ version) (isInt : version ≤ 2147483647) :
    DecodesVersion universalTime provider timeSpec version newRefTime ↔
      ptimeFromIsoString universalTime (withVersion timeSpec version) =
        ptimeFromIsoString universalTime timeSpec := by
  have alone := decodeProviderTimes_alone universalTime isTimespec
  have versioned := decodeProviderTimes_version universalTime isTimespec nonneg isInt
  have hasName : provider.isEmpty = false := by
    cases isEmpty : provider.isEmpty with
    | false => rfl
    | true =>
        rw [decodeQueryValue, isEmpty] at accepted
        cases accepted
  rw [decodeQueryValue_eq universalTime hasName, alone] at accepted
  obtain ⟨refTime, decoded⟩ := withRefTime_accepted accepted
  constructor
  · rintro ⟨versionAccepted, aloneTimes, times, isAlone, isVersion, sameTime, -, -⟩
    rw [decodeQueryValue_eq universalTime hasName] at versionAccepted isAlone isVersion
    rw [versioned] at versionAccepted isVersion
    obtain ⟨otherTime, versionDecoded⟩ := withRefTime_accepted versionAccepted
    rw [versionDecoded, SortedMap.find?_insert_self] at isVersion
    rw [alone, decoded, SortedMap.find?_insert_self] at isAlone
    cases isAlone
    cases isVersion
    rw [versionDecoded, decoded]
    exact congrArg Except.ok sameTime
  · intro same
    rw [decoded] at same
    refine ⟨?_, (withRefTime default (.ok refTime)).1,
      (withRefTime (versionTimes version) (.ok refTime)).1, ?_, ?_, rfl, rfl, rfl⟩
    · rw [decodeQueryValue_eq universalTime hasName, versioned, same]
      rfl
    · rw [decodeQueryValue_eq universalTime hasName, alone, decoded]
      exact SortedMap.find?_insert_self ..
    · rw [decodeQueryValue_eq universalTime hasName, versioned, same]
      exact SortedMap.find?_insert_self ..

/-- A version can follow a time specification exactly when that is a date with seconds. -/
theorem decodesVersion_iff (isTimespec : IsTimespec timeSpec)
    (accepted : (decodeQueryValue universalTime provider timeSpec newRefTime).2 = some true)
    (nonneg : 0 ≤ version) (isInt : version ≤ 2147483647) :
    DecodesVersion universalTime provider timeSpec version newRefTime ↔ HasSeconds timeSpec := by
  have alone := decodeProviderTimes_alone universalTime isTimespec
  obtain ⟨refTime, decoded⟩ : ∃ refTime,
      ptimeFromIsoString universalTime timeSpec = .ok refTime := by
    rw [decodeQueryValue] at accepted
    split at accepted
    · cases accepted
    · rw [alone] at accepted
      exact withRefTime_accepted accepted
  have notError (versionError : ∃ what,
      ptimeFromIsoString universalTime (withVersion timeSpec version) = .error what) :
      ptimeFromIsoString universalTime (withVersion timeSpec version) ≠
        ptimeFromIsoString universalTime timeSpec := by
    obtain ⟨what, isError⟩ := versionError
    rw [isError, decoded]
    intro same
    cases same
  rw [decodesVersion_iff_decoded universalTime isTimespec accepted nonneg isInt]
  constructor
  · intro same
    rcases isTimespec_cases isTimespec with isName | ⟨spec, rfl⟩
    · exact absurd same (notError (ptimeFromIsoString_name universalTime isName nonneg))
    · by_contra noSeconds
      apply notError _ same
      apply spec.ptimeFromIsoString_noSeconds universalTime
      intro seconds
      exact noSeconds ⟨spec, rfl, seconds⟩
  · rintro ⟨spec, rfl, seconds⟩
    have separator : spec.separator ≠ Bytes.chr 't' := by
      intro isSmall
      obtain ⟨what, isError⟩ := spec.ptimeFromIsoString_separator universalTime [] isSmall
      rw [List.append_nil, decoded] at isError
      cases isError
    have withTail := spec.ptimeFromIsoString_seconds universalTime (ends_version version) separator
      seconds
    have noTail : ∀ byte ∈ ([] : Bytes).head?, byte = Bytes.chr ',' := by rintro byte ⟨⟩
    have withoutTail := spec.ptimeFromIsoString_seconds universalTime noTail separator seconds
    rw [List.append_nil] at withoutTail
    exact withTail.trans withoutTail.symm

/-- Midnight with a version. -/
theorem decodesVersion_midnight :
    IsTimespec (Bytes.str "2010-01-01T00:00:00") ∧
      (DecodesVersion 0 (Bytes.str "met.no") (Bytes.str "2010-01-01T00:00:00") 3 ∅ ↔
        HasSeconds (Bytes.str "2010-01-01T00:00:00")) := by
  have isTimespec : IsTimespec (Bytes.str "2010-01-01T00:00:00") := by
    rw [IsTimespec]
    decide +kernel
  have accepted : (decodeQueryValue 0 (Bytes.str "met.no") (Bytes.str "2010-01-01T00:00:00") ∅).2 =
      some true := by
    decide +kernel
  exact ⟨isTimespec, decodesVersion_iff 0 isTimespec accepted (by decide) (by decide)⟩

/-- The name `now` is accepted alone, and it is rejected with a version. -/
theorem not_decodesVersion_now :
    IsTimespec (Bytes.str "now") ∧
      (decodeQueryValue 0 (Bytes.str "met.no") (Bytes.str "now") ∅).2 = some true ∧
        (decodeQueryValue 0 (Bytes.str "met.no") (withVersion (Bytes.str "now") 3) ∅).2 =
          some false ∧
          ¬DecodesVersion 0 (Bytes.str "met.no") (Bytes.str "now") 3 ∅ := by
  have isTimespec : IsTimespec (Bytes.str "now") := by
    rw [IsTimespec]
    decide +kernel
  have rejected : (decodeQueryValue 0 (Bytes.str "met.no") (withVersion (Bytes.str "now") 3) ∅).2 =
      some false := by
    decide +kernel
  refine ⟨isTimespec, by decide +kernel, rejected, ?_⟩
  intro decodes
  have accepted := decodes.accepted
  rw [rejected] at accepted
  cases accepted

end Versions

end LocationForecastUpdateHandler

end Wdb2ts
