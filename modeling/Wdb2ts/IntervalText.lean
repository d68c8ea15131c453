import Wdb2ts.EncodeCSV
import Wdb2ts.IsoTimes

/-!
# The texts of intervals

A time specification of two times in the format of the CSV export and an indeterminate code is
decoded to these times.  Only a code without meaning for one time makes the decoder throw.
-/

namespace Wdb2ts

/-- A pattern is not found in a text without its first byte. -/
theorem findText_eq_none {first : Byte} {pattern text : Bytes} (absent : first ∉ text) :
    findText (first :: pattern) text = none := by
  induction text with
  | nil => rfl
  | cons byte rest ih =>
      have differs : (first == byte) = false :=
        beq_eq_false_iff_ne.mpr fun same => absent (same ▸ List.mem_cons_self ..)
      rw [findText, List.isPrefixOf_cons_cons, differs, Bool.false_and, if_neg Bool.false_ne_true,
        ih fun inRest => absent (List.mem_cons_of_mem _ inRest)]
      rfl

namespace UrlParamTimeSpec

variable (F : Type) [TextFunctions F]

/-- The times of a client are read by `ptimeFromIsoString`, at some time of the clock. -/
def ReadsIsoTimes : Prop :=
  ∀ text, ∃ universalTime, TextFunctions.ptimeFromIsoString F text =
    miutil.ptimeFromIsoString universalTime text

/-- A text of a time that the decoder takes as it is. -/
structure IsTimeText (text : Bytes) (time : PTime) : Prop where
  valid : validDate text = true
  inert : miutil.IsInert (Bytes.chr ',') (Bytes.chr '"') text
  noDollar : Bytes.chr '$' ∉ text
  reads : TextFunctions.ptimeFromIsoString F text = .ok time

variable {F}

/-- The text of a time is read as its second. -/
theorem isTimeText_ticks (readsIsoTimes : ReadsIsoTimes F) {microseconds : ℤ} {text : Bytes}
    (written : miutil.isotimeString (.ticks microseconds) true true = .ok text) :
    IsTimeText F text (.ticks (microseconds / 1000000 * 1000000)) := by
  obtain ⟨⟨day, found⟩, digit, bytes⟩ := miutil.isotimeString_ticks written
  have isInert : ∀ byte ∈ miutil.dateBytes, byte ≠ Bytes.chr ',' ∧ byte ≠ Bytes.chr '"' ∧
      miutil.blanks.contains byte = false := by
    decide +kernel
  have noDollar : Bytes.chr '$' ∉ miutil.dateBytes := by decide +kernel
  have isValid : ∀ byte ∈ miutil.dateBytes,
      (Bytes.str "1234567890-:TtZ ").contains byte = true := by
    decide +kernel
  refine ⟨?_, fun byte member => isInert byte (bytes byte member),
    fun member => noDollar (bytes _ member), ?_⟩
  · cases text with
    | nil => cases digit
    | cons first rest =>
        have allValid : (first :: rest).all (Bytes.str "1234567890-:TtZ ").contains = true :=
          List.all_eq_true.mpr fun byte member => isValid byte (bytes byte member)
        have isDigit_ : isDigit first = true := digit
        rw [validDate, allValid, isDigit_]
        exact Bool.or_true _
  · obtain ⟨universalTime, reads⟩ := readsIsoTimes text
    have sameDay : microseconds / 1000000 * 1000000 / PTime.dayLength =
        microseconds / PTime.dayLength := by
      rw [PTime.dayLength]
      omega
    have wholeSecond : miutil.WholeSecond (.ticks (microseconds / 1000000 * 1000000)) := by
      refine ⟨by omega, day, ?_⟩
      rw [PTime.date, sameDay]
      exact found
    obtain ⟨other, otherWritten, otherReads⟩ :=
      miutil.ptimeFromIsoString_isotimeString universalTime wholeSecond true true
    rw [miutil.isotimeString_floor, written] at otherWritten
    cases otherWritten
    rw [reads, otherReads]

theorem isTimeText_negInfinity (readsIsoTimes : ReadsIsoTimes F) :
    IsTimeText F (Bytes.str "-infinity") .negInfinity := by
  have isInert : ∀ byte ∈ Bytes.str "-infinity", byte ≠ Bytes.chr ',' ∧ byte ≠ Bytes.chr '"' ∧
      miutil.blanks.contains byte = false := by
    decide +kernel
  refine ⟨by decide +kernel, isInert, by decide +kernel, ?_⟩
  obtain ⟨universalTime, reads⟩ := readsIsoTimes (Bytes.str "-infinity")
  rw [reads]
  rfl

/-- The parameter behind the times of an interval. -/
def withTimes (fromTime toTime : PTime) (ind : Bytes) (param : UrlParamTimeSpec) :
    UrlParamTimeSpec :=
  { param with
    useProviderList_ := false
    isDecoded := true
    fromTime := fromTime
    toTime := toTime
    indCode := ind }

variable {fromText toText ind : Bytes} {fromTime toTime : PTime}

/-- The values of an interval are its texts. -/
theorem decodeValues_interval (isFrom : IsTimeText F fromText fromTime)
    (isTo : IsTimeText F toText toTime)
    (isInd : ind = Bytes.str "exact" ∨ ind = Bytes.str "inside") (protocol : ℤ) :
    decodeValues protocol (fromText ++ Bytes.str "," ++ toText ++ Bytes.str "," ++ ind) =
      .ok (some ⟨fromText, toText, ind⟩) := by
  have exactInert : ∀ byte ∈ Bytes.str "exact", byte ≠ Bytes.chr ',' ∧ byte ≠ Bytes.chr '"' ∧
      miutil.blanks.contains byte = false := by
    decide +kernel
  have insideInert : ∀ byte ∈ Bytes.str "inside", byte ≠ Bytes.chr ',' ∧ byte ≠ Bytes.chr '"' ∧
      miutil.blanks.contains byte = false := by
    decide +kernel
  have indInert : miutil.IsInert (Bytes.chr ',') (Bytes.chr '"') ind := by
    rcases isInd with rfl | rfl
    · exact exactInert
    · exact insideInert
  have isCode : validIndCode protocol ind = true := by
    rcases isInd with rfl | rfl <;> simp [validIndCode]
  have someCode : ind.isEmpty = false := by
    rcases isInd with rfl | rfl <;> rfl
  have inert : ∀ elem ∈ [fromText, toText, ind],
      miutil.IsInert (Bytes.chr ',') (Bytes.chr '"') elem := by
    intro elem member
    simp only [List.mem_cons, List.not_mem_nil, or_false] at member
    rcases member with rfl | rfl | rfl
    · exact isFrom.inert
    · exact isTo.inert
    · exact indInert
  have joined : fromText ++ Bytes.str "," ++ toText ++ Bytes.str "," ++ ind =
      fromText ++ [toText, ind].flatMap fun elem => Bytes.chr ',' :: elem := by
    simp only [List.flatMap_cons, List.flatMap_nil, List.append_nil, List.append_assoc]
    rfl
  have split : splitComma (fromText ++ Bytes.str "," ++ toText ++ Bytes.str "," ++ ind) =
      [fromText, toText, ind] := by
    rw [splitComma, joined]
    exact miutil.splitstr_join (by decide) inert
  have someFrom : fromText.isEmpty = false := by
    cases fromText with
    | nil => cases isFrom.valid
    | cons first rest => rfl
  have notNull (text : Bytes) (valid : validDate text = true) : text ≠ Bytes.str "NULL" := by
    rintro rfl
    exact absurd valid (by decide +kernel)
  simp only [decodeValues, split, List.map_cons, List.map_nil,
    miutil.trimstr_of_isInert isFrom.inert, miutil.trimstr_of_isInert isTo.inert,
    miutil.trimstr_of_isInert indInert]
  simp [fillIn, someFrom, someCode, isCode, isFrom.valid, isTo.valid,
    notNull fromText isFrom.valid, notNull toText isTo.valid]

/-- An interval is decoded to its times. -/
theorem decode_interval (isFrom : IsTimeText F fromText fromTime)
    (isTo : IsTimeText F toText toTime)
    (isInd : ind = Bytes.str "exact" ∨ ind = Bytes.str "inside") (param : UrlParamTimeSpec) :
    ∃ isProtocol1,
      param.decode F (fromText ++ Bytes.str "," ++ toText ++ Bytes.str "," ++ ind) =
        select isProtocol1 ⟨fromText, toText, ind⟩ (withTimes fromTime toTime ind param) := by
  have noDollar : Bytes.chr '$' ∉ fromText ++ Bytes.str "," ++ toText ++ Bytes.str "," ++ ind := by
    have inComma : Bytes.chr '$' ∉ Bytes.str "," := by decide
    have inInd : Bytes.chr '$' ∉ ind := by
      rcases isInd with rfl | rfl <;> decide
    simp only [List.mem_append, isFrom.noDollar, isTo.noDollar, inComma, inInd, or_self,
      not_false_eq_true]
  have provider : findText (Bytes.str "$\x7b")
      (fromText ++ Bytes.str "," ++ toText ++ Bytes.str "," ++ ind) = none :=
    findText_eq_none noDollar
  have times (isProtocol1 : Bool) (param : UrlParamTimeSpec) :
      param.decodeProtocol F isProtocol1
          (fromText ++ Bytes.str "," ++ toText ++ Bytes.str "," ++ ind) =
        select isProtocol1 ⟨fromText, toText, ind⟩
          { param with
            isDecoded := true
            fromTime := fromTime
            toTime := toTime
            indCode := ind } := by
    rw [decodeProtocol, provider]
    simp only [decodeTimes, decodeValues_interval isFrom isTo isInd, storeTimes, isFrom.reads,
      isTo.reads]
  rw [decode]
  split
  · exact ⟨true, times _ _⟩
  · split
    · exact ⟨false, times _ _⟩
    · exact ⟨true, times _ _⟩

/-- Selecting the values of an interval keeps its times. -/
theorem times_select (isProtocol1 : Bool) (values : TimeValues) (param : UrlParamTimeSpec) :
    (select isProtocol1 values param).2.fromTime = param.fromTime ∧
      (select isProtocol1 values param).2.toTime = param.toTime := by
  rw [select]
  split_ifs <;> exact ⟨rfl, rfl⟩

/-- An interval has a meaning when it has two times or its code is `exact`. -/
theorem select_eq_none (isProtocol1 : Bool) {values : TimeValues} {param : UrlParamTimeSpec}
    (meaning : param.fromTime = param.toTime → values.ind = Bytes.str "exact") :
    (select isProtocol1 values param).1 = none := by
  rw [select]
  split
  · rfl
  · split
    · next same => rw [if_pos (Or.inl (meaning same))]
    · rfl

end UrlParamTimeSpec

end Wdb2ts
