import Wdb2ts.Lib.Fallible
import Wdb2ts.ReadMapFile

/-!
# The files of maps

A file describes a map when its header values are valid and its data lines have the rows and
columns that the header names.  The data begin with the first line whose first word is an
integer.  Reading returns exactly the maps of such files as long as `readHeader` stops at that
line and no number is stored behind the rows and columns of the header.
-/

namespace Wdb2ts

namespace MapFile

variable {F : Type} [MapReading F]

/-! ## The parts of a file -/

/-- The first word of a line is an integer. -/
def beginsData (line : Bytes) : Bool := ((words line).head?.bind scanBased).isSome

/-- Does `readHeader` stop at a line? -/
def stopsHeader (line : Bytes) : Bool := headerLine line = .data

/-- The header behind a line. -/
def storeLine (hpar : HeaderParams F) (line : Bytes) : HeaderParams F :=
  match headerLine line with
  | .entry name value => (storeHeader name value header hpar []).1
  | _ => hpar

/-- The header values of the lines before the data, on top of other values. -/
def headerFrom (begins : Bytes → Bool) (lines : List Bytes) (hpar : HeaderParams F) :
    HeaderParams F :=
  (lines.takeWhile fun line => !begins line).foldl storeLine hpar

/-- The lines from the first one of the data up to an empty one. -/
def linesFrom (begins : Bytes → Bool) (lines : List Bytes) : List Bytes :=
  match lines.dropWhile fun line => !begins line with
  | [] => []
  | first :: rest => first :: rest.takeWhile fun line => !line.isEmpty

/-- The header values and the data lines of a file. -/
structure Parts (F : Type) where
  hpar : HeaderParams F
  data : List Bytes
  deriving DecidableEq

variable (F) in
/-- The parts of a file as it is written: the data begin with the first line whose first word is
an integer. -/
def written (lines : List Bytes) : Parts F :=
  ⟨headerFrom beginsData lines (HeaderParams.new F), linesFrom beginsData lines⟩

variable (F) in
/-- The parts of a file as they are read: the data begin with the line at which `readHeader`
stops. -/
def taken (lines : List Bytes) : Parts F :=
  ⟨headerFrom stopsHeader lines (HeaderParams.new F), linesFrom stopsHeader lines⟩

/-- The integers of a line. -/
def IsRow (line : Bytes) (row : List ℤ) : Prop := (words line).map scanBased = row.map some

/-- The rows of the map that the parts of a file describe. -/
structure Parts.Describes [DecidableEq F] (parts : Parts F) (rows : List (List ℤ)) : Prop where
  valid : parts.hpar.valid = true
  integers : List.Forall₂ IsRow parts.data rows
  nrows : (rows.length : ℤ) = parts.hpar.nrows
  ncols : ∀ row ∈ rows, (row.length : ℤ) = parts.hpar.ncols

/-- A map has the given rows. -/
structure HasRows (map : Map F) (rows : List (List ℤ)) : Prop where
  nrows : map.nrows_ = rows.length
  ncols : ∀ row ∈ rows, map.ncols_ = row.length
  cells : ∀ (r c : ℕ) row value, rows[r]? = some row → row[c]? = some value →
    map.matrix.get r c = .ok value

/-- A map is the one that is described, and a null pointer comes with a text and without such a
map. -/
def Answers (describes : List (List ℤ) → Prop) : Option (Map F) × Bytes → Prop
  | (some map, _) => ∃ rows, describes rows ∧ HasRows map rows
  | (none, error) => error ≠ [] ∧ ¬∃ rows, describes rows

/-- Every number is stored in the map, and the `int`s of the computation do not overflow. -/
structure Parts.StaysInside (parts : Parts F) : Prop where
  size : FitsInt (parts.hpar.nrows * parts.hpar.ncols)
  height : FitsInt (parts.hpar.nrows * parts.hpar.cellsize)
  width : FitsInt (parts.hpar.ncols * parts.hpar.cellsize)
  count : 0 ≤ parts.hpar.nrows * parts.hpar.ncols → (parts.data.length : ℤ) ≤ INT_MAX
  words : 0 ≤ parts.hpar.nrows * parts.hpar.ncols →
    ∀ (r : ℕ) line, parts.data[r]? = some line → words line ≠ [] →
      r < parts.hpar.nrows ∧ ((MapFile.words line).length : ℤ) ≤ parts.hpar.ncols

/-- Behind a valid header, the data lines stay inside the map. -/
def Parts.Safe [DecidableEq F] (parts : Parts F) : Prop :=
  parts.hpar.valid = true → parts.data ≠ [] → parts.StaysInside

/-- The rows of the map that is made of the parts of a file.  Without data lines there is none. -/
def Parts.Yields [DecidableEq F] (parts : Parts F) (rows : List (List ℤ)) : Prop :=
  parts.data ≠ [] ∧ parts.Describes rows

variable (F) in
/-- The condition on a file.  When `readHeader` stops at another line than the first one of the
data, the lines from there have to describe the same map as the data lines do, as when neither
describes one. -/
structure Readable [DecidableEq F] (lines : List Bytes) : Prop where
  safe : (taken F lines).Safe
  same : if written F lines = taken F lines then
      (taken F lines).hpar.valid = true → (taken F lines).data = [] →
        (taken F lines).hpar.nrows ≠ 0
    else ∀ rows, (written F lines).Describes rows ↔ (taken F lines).Yields rows

/-! ## Headers -/

section ReadHeader

variable [DecidableEq F]

end ReadHeader

/-! ## Words -/

/-- What reading some words of a line does. -/
structure WordsRead (row col : ℤ) (sentence : List Bytes) (state after : ReadState F) : Prop where
  nrows : after.map.nrows_ = state.map.nrows_
  ncols : after.map.ncols_ = state.map.ncols_
  inside : sentence ≠ [] →
    row < state.map.nrows_ ∧ col + sentence.length ≤ state.map.ncols_
  hasError : after.hasError =
    (state.hasError || sentence.any fun word => (scanBased word).isNone)
  reported : (state.hasError = true → state.error ≠ []) → after.hasError = true → after.error ≠ []
  stored : ∀ (c : ℕ) word value, sentence[c]? = some word → scanBased word = some value →
    after.map.matrix.get row (col + c) = .ok value
  kept : ∀ r c value, state.map.matrix.InRange r c → r ≠ row ∨ c < col →
    (after.map.matrix.get r c = .ok value ↔ state.map.matrix.get r c = .ok value)

@[simp] theorem convert_map (state : ReadState F) (sval : Bytes) :
    (state.convert sval).map = state.map := by
  rw [ReadState.convert]
  split <;> rfl

theorem convert_hasError (state : ReadState F) (sval : Bytes) :
    (state.convert sval).hasError = (state.hasError || (scanBased sval).isNone) := by
  rw [ReadState.convert]
  split
  · rename_i isInt
    simp [isInt]
  · rename_i noInt
    simp [noInt]

theorem convert_ival {state : ReadState F} {sval : Bytes} {value : ℤ}
    (isInt : scanBased sval = some value) : (state.convert sval).ival = value := by
  rw [ReadState.convert, isInt]

theorem convert_reported {state : ReadState F} (sval : Bytes)
    (reported : state.hasError = true → state.error ≠ [])
    (hasError : (state.convert sval).hasError = true) : (state.convert sval).error ≠ [] := by
  rw [ReadState.convert] at hasError ⊢
  split
  · rename_i isInt
    rw [isInt] at hasError
    exact reported hasError
  · exact List.append_ne_nil_of_right_ne_nil _ (by decide)

/-- A word is stored, and the words behind it are read from there. -/
theorem WordsRead.cons {row col : ℤ} (row_nonneg : 0 ≤ row) (col_nonneg : 0 ≤ col) {sval : Bytes}
    {rest : List Bytes} {state after : ReadState F} {map : Map F}
    (sets : (state.convert sval).map.setCell row col (state.convert sval).ival = .ok map)
    (read : WordsRead row (col + 1) rest { state.convert sval with map := map } after) :
    WordsRead row col (sval :: rest) state after := by
  have grid := Map.setCell_eq_ok sets
  have first := (Map.exists_setCell_iff row_nonneg col_nonneg _).mp ⟨map, sets⟩
  rw [convert_map] at grid first
  have firstRange : state.map.matrix.InRange row col :=
    Map.inRange_iff.mpr ⟨row_nonneg, first.1, col_nonneg, first.2⟩
  constructor
  case nrows => exact read.nrows.trans grid.1
  case ncols => exact read.ncols.trans grid.2.1
  case inside =>
    intro _
    refine ⟨first.1, ?_⟩
    rw [List.length_cons]
    push_cast
    cases rest with
    | nil =>
        simp only [List.length_nil]
        omega
    | cons second others =>
        have inside := (read.inside (List.cons_ne_nil _ _)).2
        simp only [grid.2.1] at inside
        omega
  case hasError =>
    rw [read.hasError, convert_hasError, List.any_cons, Bool.or_assoc]
  case reported =>
    intro reported
    exact read.reported (convert_reported sval reported)
  case stored =>
    intro c word value isWord isInt
    cases c with
    | zero =>
        cases isWord
        have changed := Map.inRange_of_size_eq grid.1 grid.2.1 firstRange
        rw [Nat.cast_zero, add_zero, read.kept row col value changed (Or.inr (lt_add_one col)),
          Matrix.get_set state.map.hasMemory firstRange grid.2.2 firstRange, if_pos ⟨rfl, rfl⟩,
          convert_ival isInt]
    | succ c =>
        have isStored := read.stored c word value isWord isInt
        rw [← isStored]
        congr 1
        push_cast
        ring
  case kept =>
    intro r c value inRange other
    have changed := Map.inRange_of_size_eq grid.1 grid.2.1 inRange
    rw [read.kept r c value changed (other.imp_right fun less => less.trans (lt_add_one col)),
      Matrix.get_set state.map.hasMemory firstRange grid.2.2 inRange, if_neg]
    intro isCell
    rcases other with differ | less
    · exact differ isCell.1
    · exact less.ne isCell.2

theorem wordsRead_of_readWords {row col : ℤ} (row_nonneg : 0 ≤ row) (col_nonneg : 0 ≤ col)
    {sentence : List Bytes} {state : ReadState F} {result : ℤ × ReadState F}
    (reads : readWords row sentence col state = .ok result) :
    result.1 = col + sentence.length ∧ WordsRead row col sentence state result.2 := by
  induction sentence generalizing col state with
  | nil =>
      cases reads
      refine ⟨by simp, rfl, rfl, fun some => absurd rfl some, by simp, id, ?_, ?_⟩
      · intro c word value isWord
        cases isWord
      · intro r c value _ _
        exact Iff.rfl
  | cons sval rest ih =>
      obtain ⟨map, sets, reads⟩ := Fallible.exists_of_bind_eq_ok reads
      obtain ⟨isCol, read⟩ := ih (Int.add_nonneg col_nonneg zero_le_one) reads
      refine ⟨?_, .cons row_nonneg col_nonneg sets read⟩
      rw [isCol, List.length_cons]
      push_cast
      ring

/-- A line has a word that is no integer, or not as many words as the map has columns. -/
def isWrong (ncols : ℤ) (line : Bytes) : Bool :=
  (words line).any (fun word => (scanBased word).isNone) ||
    decide (((words line).length : ℤ) ≠ ncols)

/-- What reading a line does, apart from the error. -/
theorem wordsRead_of_readLine {ncols row : ℤ} (row_nonneg : 0 ≤ row) {line : Bytes}
    {state after : ReadState F} (reads : readLine ncols row line state = .ok after) :
    ∃ middle, WordsRead row 0 (words line) state middle ∧ after.map = middle.map ∧
      after.hasError = (state.hasError || isWrong ncols line) ∧
        ((state.hasError = true → state.error ≠ []) → after.hasError = true →
          after.error ≠ []) := by
  obtain ⟨result, isRead, reads⟩ := Fallible.exists_of_bind_eq_ok reads
  obtain ⟨isCol, read⟩ := wordsRead_of_readWords row_nonneg le_rfl isRead
  rw [zero_add] at isCol
  refine ⟨result.2, read, ?_⟩
  dsimp only at reads
  by_cases same : result.1 = ncols
  · rw [if_neg (not_not.mpr same)] at reads
    cases reads
    refine ⟨rfl, ?_, read.reported⟩
    rw [read.hasError, isWrong, ← isCol, same]
    simp
  · rw [if_pos same] at reads
    cases reads
    refine ⟨rfl, ?_, fun _ _ => List.append_ne_nil_of_right_ne_nil _ (by decide)⟩
    rw [isWrong, ← isCol]
    simp [same]

/-- What reading the data lines does. -/
structure LinesRead (ncols row : ℤ) (lines : List Bytes) (state after : ReadState F) : Prop where
  nrows : after.map.nrows_ = state.map.nrows_
  ncols_eq : after.map.ncols_ = state.map.ncols_
  hasError : after.hasError = (state.hasError || lines.any (isWrong ncols))
  reported : (state.hasError = true → state.error ≠ []) → after.hasError = true → after.error ≠ []
  stored : ∀ (r c : ℕ) line word value, lines[r]? = some line → (words line)[c]? = some word →
    scanBased word = some value → after.map.matrix.get (row + r) c = .ok value
  kept : ∀ r c value, state.map.matrix.InRange r c → r < row →
    (after.map.matrix.get r c = .ok value ↔ state.map.matrix.get r c = .ok value)

/-- The lines behind a line that is read store their numbers below it. -/
theorem LinesRead.cons {ncols row : ℤ} (row_nonneg : 0 ≤ row) {line : Bytes} {rest : List Bytes}
    {state next after : ReadState F} (reads : readLine ncols row line state = .ok next)
    (later : LinesRead ncols (row + 1) rest next after) :
    LinesRead ncols row (line :: rest) state after := by
  obtain ⟨middle, read, sameMap, hasError, reported⟩ := wordsRead_of_readLine row_nonneg reads
  have nrows : next.map.nrows_ = state.map.nrows_ := by rw [sameMap, read.nrows]
  have ncols_eq : next.map.ncols_ = state.map.ncols_ := by rw [sameMap, read.ncols]
  constructor
  case nrows => exact later.nrows.trans nrows
  case ncols_eq => exact later.ncols_eq.trans ncols_eq
  case hasError => rw [later.hasError, hasError, List.any_cons, Bool.or_assoc]
  case reported =>
    intro initial
    exact later.reported (reported initial)
  case stored =>
    intro r c other word value isLine isWord isInt
    cases r with
    | zero =>
        cases isLine
        have some : words line ≠ [] := by
          intro isEmpty
          rw [isEmpty] at isWord
          cases isWord
        have inside := read.inside some
        have less := (List.getElem?_eq_some_iff.mp isWord).1
        have inRange : state.map.matrix.InRange row c :=
          Map.inRange_iff.mpr ⟨row_nonneg, inside.1, Int.natCast_nonneg c, by omega⟩
        have isStored := read.stored c word value isWord isInt
        rw [Nat.cast_zero, add_zero, later.kept row c value
          (Map.inRange_of_size_eq nrows ncols_eq inRange) (lt_add_one row), sameMap, ← isStored,
          zero_add]
    | succ r =>
        have isStored := later.stored r c other word value isLine isWord isInt
        rw [← isStored]
        congr 1
        push_cast
        ring
  case kept =>
    intro r c value inRange less
    rw [later.kept r c value (Map.inRange_of_size_eq nrows ncols_eq inRange)
      (less.trans (lt_add_one row)), sameMap, read.kept r c value inRange (Or.inl less.ne)]

theorem IsRow.word {line : Bytes} {row : List ℤ} (isRow : IsRow line row) {c : ℕ} {value : ℤ}
    (isValue : row[c]? = some value) :
    ∃ word, (words line)[c]? = some word ∧ scanBased word = some value := by
  have same := congrArg (fun list => list[c]?) isRow
  simp only [List.getElem?_map, isValue, Option.map_some] at same
  exact Option.map_eq_some_iff.mp same

/-! ## Files -/

section Files

variable [DecidableEq F] (surroundings : Surroundings F) (filename : Bytes)

section Parts

variable {parts : Parts F} {rows : List (List ℤ)}

end Parts

end Files

/-! ## One answer for two descriptions -/

section Same

/-- The rows of a map are its cells. -/
theorem HasRows.unique {map : Map F} {rows others : List (List ℤ)} (hasRows : HasRows map rows)
    (hasOthers : HasRows map others) : rows = others := by
  have length : rows.length = others.length := by
    have nrows := hasRows.nrows.symm.trans hasOthers.nrows
    omega
  apply List.ext_getElem length
  intro r inRows inOthers
  have ncols := (hasRows.ncols _ (List.getElem_mem inRows)).symm.trans
    (hasOthers.ncols _ (List.getElem_mem inOthers))
  apply List.ext_getElem (by omega)
  intro c inRow inOther
  have cell := hasRows.cells r c _ _ (List.getElem?_eq_getElem inRows)
    (List.getElem?_eq_getElem inRow)
  have other := hasOthers.cells r c _ _ (List.getElem?_eq_getElem inOthers)
    (List.getElem?_eq_getElem inOther)
  exact Except.ok.inj (cell.symm.trans other)

theorem IsRow.unique {line : Bytes} {row other : List ℤ} (isRow : IsRow line row)
    (isOther : IsRow line other) : row = other :=
  List.map_injective_iff.mpr (Option.some_injective ℤ) (isRow.symm.trans isOther)

variable [DecidableEq F]

/-- The parts of a file describe one map at most. -/
theorem Parts.Describes.unique {parts : Parts F} {rows others : List (List ℤ)}
    (describes : parts.Describes rows) (describesOthers : parts.Describes others) :
    rows = others := by
  have integers := describes.integers
  have otherIntegers := describesOthers.integers
  clear describes describesOthers
  generalize parts.data = lines at integers otherIntegers
  induction integers generalizing others with
  | nil =>
      cases otherIntegers
      rfl
  | cons isRow _ ih =>
      cases otherIntegers with
      | cons isOther rest => rw [isRow.unique isOther, ih rest]

/-- An answer that is right for two descriptions makes them the same. -/
theorem Answers.same {first second : Parts F} {answer : Option (Map F) × Bytes}
    (isFirst : Answers first.Describes answer) (isSecond : Answers second.Yields answer)
    (rows : List (List ℤ)) : first.Describes rows ↔ second.Yields rows := by
  match answer, isFirst, isSecond with
  | (none, _), isFirst, isSecond =>
      exact iff_of_false (fun describes => isFirst.2 ⟨rows, describes⟩)
        fun yields => isSecond.2 ⟨rows, yields⟩
  | (some map, _), ⟨written, describes, hasWritten⟩, ⟨taken, yields, hasTaken⟩ =>
      cases hasWritten.unique hasTaken
      constructor
      · intro other
        rw [other.unique describes]
        exact yields
      · intro other
        rw [other.2.unique yields.2]
        exact describes

omit [DecidableEq F] in
/-- Two descriptions of the same rows have the same answers. -/
theorem Answers.congr {first second : List (List ℤ) → Prop} {answer : Option (Map F) × Bytes}
    (answers : Answers second answer) (same : ∀ rows, first rows ↔ second rows) :
    Answers first answer := by
  have equal : first = second := funext fun rows => propext (same rows)
  rw [equal]
  exact answers

end Same

/-- The header of a map with one cell. -/
def oneCell : String := "ncols 1\nnrows 1\ncellsize 1\nxllcorner 0\nyllcorner 0\nNODATA_value -99\n"

/-- Memory of zeros, without a projection. -/
def zeros : Surroundings ℚ := ⟨fun _ => 0, 0, none⟩

end MapFile

end Wdb2ts
