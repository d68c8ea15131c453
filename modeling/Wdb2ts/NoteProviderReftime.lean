import Wdb2ts.IsoTimes
import Wdb2ts.NoteUpdates
import Wdb2ts.ProviderReftimes
import Wdb2ts.ProviderText

/-!
# Saved reference times

The note of the reference times is saved with one line for every provider, and loaded line by line.
A line that cannot be read loses the whole note.
-/

namespace Wdb2ts

namespace NoteProviderReftimes

/-- The line of an entry. -/
def writeEntry (entry : Bytes × ProviderTimes) : Except Bytes Bytes := do
  let refTime ← miutil.isotimeString entry.2.refTime true false
  let updatedTime ← miutil.isotimeString entry.2.updatedTime true false
  return entry.1 ++ Bytes.str "|" ++ refTime ++ Bytes.str "|" ++ updatedTime ++ Bytes.str "|" ++
    printInt entry.2.dataversion ++ Bytes.str "|" ++
    (if entry.2.disabled then Bytes.str "true" else Bytes.str "false") ++ Bytes.str "\n"

/-- `NoteProviderReftimes::saveNote`. -/
def saveNote (note : ProviderRefTimeList) : SaveResult :=
  match note.entries.mapM writeEntry with
  | .ok lines => .saved lines.flatten
  | .error _ => .failed

/-- The entry of a line. -/
def loadEntry (universalTime : ℤ) (buf : Bytes) : Option (Bytes × ProviderTimes) :=
  match miutil.splitstr buf (Bytes.chr '|') (Bytes.chr '"') with
  | name :: refTime :: updatedTime :: dataversion :: more => do
      let refTime ← (miutil.ptimeFromIsoString universalTime refTime).toOption
      let updatedTime ← (miutil.ptimeFromIsoString universalTime updatedTime).toOption
      let dataversion ← lexicalCastInt dataversion
      let disabled := match more with
        | (first :: _) :: _ => first = Bytes.chr 't' ∨ first = Bytes.chr 'T'
        | _ => false
      return (name, { ProviderTimes.create refTime updatedTime with disabled, dataversion })
  | _ => none

/-- `NoteProviderReftimes::loadNote`.  The entries are also written to the log. -/
def loadNote (universalTime : ℤ) (text : Bytes) : Option ProviderRefTimeList := do
  let entries ← (getlines text []).mapM (loadEntry universalTime)
  let note := SortedMap.ofList entries
  match note.entries.mapM writeEntry with
  | .ok _ => return note
  | .error _ => none

/-- The streams of the note, at a time of the clock. -/
def streams (universalTime : ℤ) : NoteStreams ProviderRefTimeList :=
  ⟨saveNote, fun _ => loadNote universalTime⟩

/-! ## Fields -/

/-- A field that is split off as it is. -/
abbrev IsField : Bytes → Prop := miutil.IsInert (Bytes.chr '|') (Bytes.chr '"')

theorem isField_append {left right : Bytes} (isLeft : IsField left) (isRight : IsField right) :
    IsField (left ++ right) := by
  intro byte member
  rcases List.mem_append.mp member with inLeft | inRight
  · exact isLeft byte inLeft
  · exact isRight byte inRight

theorem isField_of_all {text : Bytes}
    (checked : (text.all fun byte => byte ≠ Bytes.chr '|' ∧ byte ≠ Bytes.chr '"' ∧
      miutil.blanks.contains byte = false) = true) : IsField text := fun byte member =>
  of_decide_eq_true (List.all_eq_true.mp checked byte member)

theorem isField_of_digits {text : Bytes} (digits : ∀ byte ∈ text, isDigit byte = true) :
    IsField text := by
  intro byte member
  have isDigit := digits byte member
  refine ⟨?_, ?_, ?_⟩
  · rintro rfl
    exact absurd isDigit (by decide)
  · rintro rfl
    exact absurd isDigit (by decide)
  · rw [← Bool.not_eq_true, List.contains_iff_mem]
    intro blank
    simp only [miutil.blanks, List.mem_cons, List.not_mem_nil, or_false] at blank
    rcases blank with same | same | same | same <;> subst same <;> exact absurd isDigit (by decide)

theorem isField_printInt (number : ℤ) : IsField (printInt number) := by
  have digits : IsField (printNat number.natAbs) :=
    isField_of_digits fun _ member => isDigit_of_mem_printNat member
  rw [printInt]
  split
  · have minus : IsField [Bytes.chr '-'] := isField_of_all (by decide)
    exact isField_append minus digits
  · exact digits

/-- The text of a time is a field. -/
theorem isField_isotimeString {time : PTime} {text : Bytes}
    (written : miutil.isotimeString time true false = .ok text) : IsField text := by
  cases time with
  | negInfinity =>
      cases written
      exact isField_of_all (by decide)
  | posInfinity =>
      cases written
      exact isField_of_all (by decide)
  | notADateTime =>
      cases written
      exact isField_of_all (by decide)
  | ticks microseconds =>
      have plain : IsField miutil.dateBytes := isField_of_all (by decide)
      intro byte member
      exact plain byte ((miutil.isotimeString_ticks written).2.2 byte member)

/-! ## Entries -/

/-- The members of an entry that are saved. -/
def saved (times : ProviderTimes) : ProviderTimes :=
  { ProviderTimes.create times.refTime times.updatedTime with
    disabled := times.disabled, dataversion := times.dataversion }

/-- A time that is written: a whole second or undefined. -/
def IsWritten (time : PTime) : Prop := time = .notADateTime ∨ miutil.WholeSecond time

/-- An entry of a list that is saved. -/
structure Savable (entry : Bytes × ProviderTimes) : Prop where
  noSeparator : Bytes.chr '|' ∉ entry.1
  noQuote : Bytes.chr '"' ∉ entry.1
  oneLine : Bytes.chr '\n' ∉ entry.1
  trimmed : Bytes.TrimmedBy (fun byte => miutil.blanks.contains byte) entry.1
  refTime : IsWritten entry.2.refTime
  updatedTime : IsWritten entry.2.updatedTime
  dataversion_ge : -2147483648 ≤ entry.2.dataversion
  dataversion_le : entry.2.dataversion ≤ 2147483647

/-- Both times of an entry are defined. -/
def Defined (entry : Bytes × ProviderTimes) : Prop :=
  entry.2.refTime ≠ .notADateTime ∧ entry.2.updatedTime ≠ .notADateTime

/-- The field of a time.  An undefined time cannot be read. -/
theorem exists_timeField (universalTime : ℤ) {time : PTime} (isWritten : IsWritten time) :
    ∃ text, miutil.isotimeString time true false = .ok text ∧ IsField text ∧
      (miutil.ptimeFromIsoString universalTime text).toOption =
        if time = .notADateTime then none else some time := by
  rcases isWritten with rfl | wholeSecond
  · exact ⟨[], rfl, isField_of_all rfl, rfl⟩
  · rcases miutil.ptimeFromIsoString_isotimeString universalTime wholeSecond true false with
      ⟨text, written, read⟩
    have defined : time ≠ .notADateTime := by
      rintro rfl
      exact wholeSecond
    exact ⟨text, written, isField_isotimeString written, by rw [read, if_neg defined]; rfl⟩

/-- A line is split at the fields behind the name. -/
theorem splitstr_line {name first : Bytes} {others : List Bytes}
    (noSeparator : Bytes.chr '|' ∉ name) (noQuote : Bytes.chr '"' ∉ name)
    (trimmed : Bytes.TrimmedBy (fun byte => miutil.blanks.contains byte) name)
    (fields : ∀ field ∈ first :: others, IsField field) :
    miutil.splitstr (name ++ Bytes.chr '|' :: (first ++
        others.flatMap fun field => Bytes.chr '|' :: field)) (Bytes.chr '|') (Bytes.chr '"') =
      name :: first :: others := by
  have plain : ∀ byte ∈ name, byte ≠ Bytes.chr '|' ∧ byte ≠ Bytes.chr '"' := by
    intro byte member
    constructor
    · rintro rfl
      exact noSeparator member
    · rintro rfl
      exact noQuote member
  have different : Bytes.chr '|' ≠ Bytes.chr '"' := by decide
  rw [miutil.splitstr, miutil.splitLoop_plain plain, List.nil_append, miutil.splitLoop,
    if_neg (fun quote => different quote.1), if_neg Bool.false_ne_true, if_neg (not_not.mpr rfl),
    miutil.splitLoop_join different fields, miutil.trimstr, trimmed.trimBy_eq]

theorem newline_notMem_of_isField {text : Bytes} (isField : IsField text) :
    Bytes.chr '\n' ∉ text := fun member => absurd (isField _ member).2.2 (by decide)

/-- The line of an entry is read back when both times are defined, and cannot be read otherwise. -/
theorem exists_line (universalTime : ℤ) {entry : Bytes × ProviderTimes}
    (savable : Savable entry) :
    ∃ line, writeEntry entry = .ok (line ++ Bytes.str "\n") ∧ Bytes.chr '\n' ∉ line ∧
      (Defined entry → loadEntry universalTime line = some (entry.1, saved entry.2)) ∧
      (¬Defined entry → loadEntry universalTime line = none) := by
  rcases exists_timeField universalTime savable.refTime with
    ⟨refTime, refWritten, refField, refRead⟩
  rcases exists_timeField universalTime savable.updatedTime with
    ⟨updatedTime, updatedWritten, updatedField, updatedRead⟩
  have versionField := isField_printInt entry.2.dataversion
  have versionRead := lexicalCastInt_printInt savable.dataversion_ge savable.dataversion_le
  let flag := if entry.2.disabled then Bytes.str "true" else Bytes.str "false"
  have flagField : IsField flag := by
    simp only [flag]
    split
    · exact isField_of_all (by decide)
    · exact isField_of_all (by decide)
  have fields : ∀ field ∈ [refTime, updatedTime, printInt entry.2.dataversion, flag],
      IsField field := by
    simp [refField, updatedField, versionField, flagField]
  have split := splitstr_line savable.noSeparator savable.noQuote savable.trimmed fields
  refine ⟨entry.1 ++ Bytes.chr '|' :: (refTime ++ [updatedTime, printInt entry.2.dataversion,
    flag].flatMap fun field => Bytes.chr '|' :: field), ?_, ?_, ?_, ?_⟩
  · have bar : Bytes.str "|" = [Bytes.chr '|'] := rfl
    simp only [writeEntry, refWritten, updatedWritten, bar, List.flatMap_cons, List.flatMap_nil,
      List.append_assoc, List.cons_append, List.nil_append]
    rfl
  · have notBar : Bytes.chr '\n' ≠ Bytes.chr '|' := by decide
    simp [savable.oneLine, newline_notMem_of_isField refField, notBar,
      newline_notMem_of_isField updatedField, newline_notMem_of_isField versionField,
      newline_notMem_of_isField flagField]
  · intro defined
    simp only [loadEntry, split, refRead, updatedRead, versionRead, defined.1, defined.2, if_false]
    simp only [flag, saved]
    cases entry.2.disabled <;> rfl
  · intro notDefined
    simp only [loadEntry, split, refRead, updatedRead]
    by_cases refUndefined : entry.2.refTime = .notADateTime
    · rw [if_pos refUndefined]
      rfl
    · have updatedUndefined : entry.2.updatedTime = .notADateTime := by
        by_contra updatedDefined
        exact notDefined ⟨refUndefined, updatedDefined⟩
      rw [if_neg refUndefined, if_pos updatedUndefined]
      rfl

/-- The lines of saved entries, and what they are read as. -/
theorem exists_lines (universalTime : ℤ) {entries : List (Bytes × ProviderTimes)}
    (savable : ∀ entry ∈ entries, Savable entry) :
    ∃ lines : List Bytes,
      entries.mapM writeEntry = .ok (lines.map fun line => line ++ Bytes.str "\n") ∧
      (∀ line ∈ lines, Bytes.chr '\n' ∉ line) ∧
      ((∀ entry ∈ entries, Defined entry) → lines.mapM (loadEntry universalTime) =
        some (entries.map fun entry => (entry.1, saved entry.2))) ∧
      ((¬∀ entry ∈ entries, Defined entry) → lines.mapM (loadEntry universalTime) = none) := by
  induction entries with
  | nil => exact ⟨[], rfl, by simp, fun _ => rfl, fun undefined => absurd (by simp) undefined⟩
  | cons entry others ih =>
      rcases exists_line universalTime (savable entry List.mem_cons_self) with
        ⟨line, written, oneLine, read, unread⟩
      rcases ih fun other member => savable other (List.mem_cons_of_mem entry member) with
        ⟨lines, writtenLines, oneLines, readLines, unreadLines⟩
      refine ⟨line :: lines, ?_, List.forall_mem_cons.mpr ⟨oneLine, oneLines⟩, ?_, ?_⟩
      · rw [List.mapM_cons, written, writtenLines]
        rfl
      · intro defined
        rw [List.forall_mem_cons] at defined
        rw [List.mapM_cons, read defined.1, readLines defined.2]
        rfl
      · intro undefined
        rw [List.mapM_cons]
        by_cases here : Defined entry
        · have undefinedOthers : ¬∀ other ∈ others, Defined other := fun defined =>
            undefined (List.forall_mem_cons.mpr ⟨here, defined⟩)
          rw [read here, unreadLines undefinedOthers]
          rfl
        · rw [unread here]
          rfl

/-- The members of an entry that are saved can be saved again. -/
theorem Savable.saved {entry : Bytes × ProviderTimes} (savable : Savable entry) :
    Savable (entry.1, NoteProviderReftimes.saved entry.2) :=
  ⟨savable.noSeparator, savable.noQuote, savable.oneLine, savable.trimmed, savable.refTime,
    savable.updatedTime, savable.dataversion_ge, savable.dataversion_le⟩

/-! ## Notes -/

/-- The saved text is loaded into the same reference times, flags and versions. -/
def Restores (universalTime : ℤ) (note : ProviderRefTimeList) : Prop :=
  ∃ text, saveNote note = .saved text ∧
    loadNote universalTime text = some (note.mapValues saved)

theorem Restores.of_defined (universalTime : ℤ) {note : ProviderRefTimeList}
    (savable : ∀ entry ∈ note.entries, Savable entry)
    (defined : ∀ entry ∈ note.entries, Defined entry) : Restores universalTime note := by
  rcases exists_lines universalTime savable with ⟨lines, written, oneLine, read, -⟩
  have built : SortedMap.ofList (note.entries.map fun entry => (entry.1, saved entry.2)) =
      note.mapValues saved := SortedMap.ofList_entries (note.mapValues saved)
  have savableAgain : ∀ entry ∈ (note.mapValues saved).entries, Savable entry := by
    intro entry member
    rcases List.mem_map.mp member with ⟨old, isIn, rfl⟩
    exact (savable old isIn).saved
  rcases exists_lines universalTime savableAgain with ⟨logLines, logged, -⟩
  refine ⟨lines.flatMap fun line => line ++ Bytes.str "\n", ?_, ?_⟩
  · rw [saveNote, written, List.flatMap_def]
  · rw [loadNote, getlines_flatMap oneLine, read defined]
    simp only [bind, Option.bind, built, logged]
    rfl

theorem Restores.defined {universalTime : ℤ} {note : ProviderRefTimeList}
    (restores : Restores universalTime note) (savable : ∀ entry ∈ note.entries, Savable entry) :
    ∀ entry ∈ note.entries, Defined entry := by
  rcases restores with ⟨text, isText, loaded⟩
  rcases exists_lines universalTime savable with ⟨lines, written, oneLine, -, unread⟩
  rw [saveNote, written] at isText
  cases isText
  by_contra undefined
  rw [loadNote, ← List.flatMap_def, getlines_flatMap oneLine, unread undefined] at loaded
  cases loaded

/-- A saved note is restored exactly when all times are defined. -/
theorem restores_iff (universalTime : ℤ) {note : ProviderRefTimeList}
    (savable : ∀ entry ∈ note.entries, Savable entry) :
    Restores universalTime note ↔ ∀ entry ∈ note.entries, Defined entry :=
  ⟨fun restores => restores.defined savable, Restores.of_defined universalTime savable⟩

/-- A note manager can save a note with defined times and without requests. -/
theorem streams_saves (universalTime : ℤ) {note : ProviderRefTimeList}
    (savable : ∀ entry ∈ note.entries, Savable entry)
    (defined : ∀ entry ∈ note.entries, Defined entry) (noRequests : note.mapValues saved = note) :
    (streams universalTime).Saves note := by
  rcases Restores.of_defined universalTime savable defined with ⟨text, written, loaded⟩
  rw [noRequests] at loaded
  exact ⟨text, written, loaded⟩

/-- A list of one provider, with a version and an update at 2008-10-18T18:00:00. -/
def oneProvider (refTime : PTime) : ProviderRefTimeList :=
  SortedMap.ofList [(Bytes.str "arome",
    { ProviderTimes.create refTime (.ticks 1224352800000000) with dataversion := 1 })]

theorem savable_oneProvider {refTime : PTime} (isWritten : IsWritten refTime) :
    ∀ entry ∈ (oneProvider refTime).entries, Savable entry := by
  have updated : miutil.WholeSecond (.ticks 1224352800000000) :=
    ⟨by decide, ⟨2008, 10, 18⟩, by decide⟩
  have name : IsField (Bytes.str "arome") := isField_of_all (by decide)
  intro entry member
  cases List.mem_singleton.mp member
  exact ⟨fun isIn => (name _ isIn).1 rfl, fun isIn => (name _ isIn).2.1 rfl,
    newline_notMem_of_isField name,
    Bytes.trimmedBy_of_forall fun byte isIn => (name byte isIn).2.2,
    isWritten, .inr updated, (by decide : (-2147483648 : ℤ) ≤ 1),
    (by decide : (1 : ℤ) ≤ 2147483647)⟩

/-- The reference time 2008-10-18T12:00:00 is restored. -/
theorem restores_iff_wholeSecond : Restores 0 (oneProvider (.ticks 1224331200000000)) := by
  have wholeSecond : miutil.WholeSecond (.ticks 1224331200000000) :=
    ⟨by decide, ⟨2008, 10, 18⟩, by decide⟩
  rw [restores_iff 0 (savable_oneProvider (.inr wholeSecond))]
  intro entry member
  cases List.mem_singleton.mp member
  exact ⟨fun same => (by cases same), fun same => (by cases same)⟩

/-- An undefined reference time loses the list. -/
theorem undefinedTime_lost :
    (∀ entry ∈ (oneProvider .notADateTime).entries, Savable entry) ∧
      ¬Restores 0 (oneProvider .notADateTime) := by
  refine ⟨savable_oneProvider (.inl rfl), ?_⟩
  rintro ⟨text, saved, loaded⟩
  have line : (oneProvider .notADateTime).entries.mapM writeEntry =
      .ok [Bytes.str "arome||2008-10-18T18:00:00|1|false\n"] := by
    decide +kernel
  rw [saveNote, line] at saved
  cases saved
  have lost : loadNote 0 (Bytes.str "arome||2008-10-18T18:00:00|1|false\n") = none := by
    decide +kernel
  cases lost.symm.trans loaded

end NoteProviderReftimes

end Wdb2ts
