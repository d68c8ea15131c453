import Wdb2ts.Decimal
import Wdb2ts.Map

/-!
# Map files

`readMapFile` reads the header of a map file up to the first line that starts with a number, and
then the heights, line by line.  It stores each number before it compares the counts with the
header.  All texts of the error are kept.
-/

namespace Wdb2ts

/-! ## Scanning -/

/-- Read octal digits onto a number, up to the first other byte. -/
def octalNumber : Bytes → ℕ → ℕ
  | [], number => number
  | byte :: rest, number =>
      if 48 ≤ byte.val ∧ byte.val ≤ 55 then octalNumber rest (number * 8 + (byte.val - 48))
      else number

/-- The digits of a number with the base that its prefix names. -/
def basedNumber : Bytes → Option ℕ
  | [] => none
  | first :: others =>
      if first = Bytes.chr '0' then
        match others with
        | [] => some 0
        | x :: digits =>
            if x = Bytes.chr 'x' ∨ x = Bytes.chr 'X' then some (hexNumber digits 0).1
            else some (octalNumber others 0)
      else if isDigit first then some (decimalNumber (first :: others) 0)
      else none

/-- `sscanf` with `%i`. -/
def scanBased (text : Bytes) : Option ℤ :=
  let rest := (cString text).dropWhile isSpace
  let sign := (rest.take 1).filter fun byte => byte = Bytes.chr '-' ∨ byte = Bytes.chr '+'
  (basedNumber (rest.drop sign.length)).map fun number =>
    toInt32 (toLong (if sign = [Bytes.chr '-'] then -(number : ℤ) else number))

/-- The reading of the floats of a header. -/
class MapReading (F : Type) extends Floats F where
  /-- `sscanf` with `%f`. -/
  scanFloat : Bytes → Option F

/-- A float is read as a whole number. -/
instance : MapReading ℚ where
  scanFloat text := (scanInt text).map fun number => (number : ℚ)

namespace MapFile

/-! ## Headers -/

/-- `HeaderParams`. -/
structure HeaderParams (F : Type) where
  ncols : ℤ
  nrows : ℤ
  cellsize : ℤ
  xllcorner : F
  yllcorner : F
  NODATA_value : ℤ
  deriving DecidableEq

/-- `HeaderParams()`. -/
def HeaderParams.new (F : Type) [FloatLimits F] : HeaderParams F :=
  ⟨-1, -1, -1, FLT_MIN, FLT_MIN, INT_MIN⟩

/-- `HeaderParams::valid`. -/
def HeaderParams.valid {F : Type} [FloatLimits F] [DecidableEq F] (hpar : HeaderParams F) : Bool :=
  hpar.ncols ≠ -1 && hpar.nrows ≠ -1 && hpar.cellsize ≠ -1 && hpar.xllcorner ≠ FLT_MIN &&
    hpar.yllcorner ≠ FLT_MIN && hpar.NODATA_value ≠ INT_MIN

/-- An entry of the table `header`: the name, the kind that its errors name, and how the value of
a text is stored. -/
structure Header (F : Type) where
  name : Bytes
  kind : Bytes
  store : Bytes → HeaderParams F → Option (HeaderParams F)

variable {F : Type}

/-- An entry with an `int`. -/
def intHeader (name : String) (assign : HeaderParams F → ℤ → HeaderParams F) : Header F where
  name := Bytes.str name
  kind := Bytes.str "int"
  store value hpar := (scanBased value).map (assign hpar)

/-- An entry with a `float`. -/
def floatHeader [MapReading F] (name : String) (assign : HeaderParams F → F → HeaderParams F) :
    Header F where
  name := Bytes.str name
  kind := Bytes.str "float"
  store value hpar := (MapReading.scanFloat value).map (assign hpar)

/-- The table `header`. -/
def header [MapReading F] : List (Header F) :=
  [intHeader "ncols" fun hpar ival => { hpar with ncols := ival },
    intHeader "nrows" fun hpar ival => { hpar with nrows := ival },
    intHeader "cellsize" fun hpar ival => { hpar with cellsize := ival },
    intHeader "NODATA_value" fun hpar ival => { hpar with NODATA_value := ival },
    floatHeader "xllcorner" fun hpar fval => { hpar with xllcorner := fval },
    floatHeader "yllcorner" fun hpar fval => { hpar with yllcorner := fval }]

/-- The loop over the table.  Behind an entry whose value cannot be read the loop goes on. -/
def storeHeader (name value : Bytes) :
    List (Header F) → HeaderParams F → Bytes → HeaderParams F × Bytes
  | [], hpar, error =>
      (hpar, error ++ Bytes.str "WARNING: Header (" ++ name ++ Bytes.str "): unknown name!\n")
  | entry :: others, hpar, error =>
      if entry.name = cString name then
        match entry.store value hpar with
        | some stored => (stored, error)
        | none =>
            storeHeader name value others hpar (error ++ Bytes.str "ERROR: Header (" ++
              entry.name ++ Bytes.str "): " ++ entry.kind ++ Bytes.str " error <" ++ value ++
                Bytes.str ">\n")
      else storeHeader name value others hpar error

/-- The bytes that stand between words. -/
def blanks : Bytes := [Bytes.chr '\r', Bytes.chr '\t', Bytes.chr ' ']

/-- What a line is for `readHeader`. -/
inductive HeaderLine where
  | skipped
  | entry (name value : Bytes)
  | data
  deriving DecidableEq, Repr

/-- The body of the loop of `readHeader`, up to the search in the table. -/
def headerLine (lastline : Bytes) : HeaderLine :=
  let start := lastline.dropWhile blanks.contains
  let name := start.takeWhile fun byte => !blanks.contains byte
  let behind := start.drop name.length
  if start.isEmpty || behind.isEmpty then .skipped
  else if name.head? ≠ some (Bytes.chr '-') ∧ ¬(name.head?.map isDigit).getD false then
    let value := behind.dropWhile blanks.contains
    if value.isEmpty then .skipped else .entry name value
  else .data

/-- The words that the loop over a line finds.  None of them is empty, so that the branch for an
unexpected empty value is never taken. -/
def words (line : Bytes) : List Bytes :=
  ((line.splitOnP fun byte => byte = Bytes.chr ' ' ∨ byte = Bytes.chr '\t').map fun part =>
    part.dropWhile fun byte => byte = Bytes.chr '\r').filter fun word => !word.isEmpty

variable [Floats F]

/-- The variables of the loop over the lines.  `nNullVals` and `nNotNullVals` are never read. -/
structure ReadState (F : Type) [Floats F] where
  map : Map F
  ival : ℤ
  hasError : Bool
  error : Bytes

/-- The conversion of a word.  Without a number `ival` keeps its value. -/
def ReadState.convert (state : ReadState F) (sval : Bytes) : ReadState F :=
  match scanBased sval with
  | some ival => { state with ival := ival }
  | none =>
      { state with
        hasError := true
        error := state.error ++ Bytes.str "ERROR: convert to int failed <" ++ sval ++
          Bytes.str ">\n" }

/-- The loop over the words of a line, with `col` after it. -/
def readWords (row : ℤ) : List Bytes → ℤ → ReadState F → Except Failure (ℤ × ReadState F)
  | [], col, state => .ok (col, state)
  | sval :: rest, col, state => do
      let converted := state.convert sval
      let map ← converted.map.setCell row col converted.ival
      readWords row rest (col + 1) { converted with map := map }

/-- The body of the loop over the lines. -/
def readLine (ncols row : ℤ) (line : Bytes) (state : ReadState F) :
    Except Failure (ReadState F) := do
  let (col, state) ← readWords row (words line) 0 state
  if col ≠ ncols then
    return { state with
      hasError := true
      error := state.error ++ Bytes.str "WARNING: line: " ++ printInt row ++
        Bytes.str ": Collumn Count (" ++ printInt col ++ Bytes.str ") expected: " ++
          printInt ncols ++ Bytes.str "." }
  else return state

/-- `row++`, which is not defined behind the last `int`. -/
def increment (row : ℤ) : Except Failure ℤ :=
  if row < INT_MAX then .ok (row + 1) else .error .undefined

/-- The loop over the lines, with `row` after it.  An empty line ends it. -/
def readLines (ncols : ℤ) :
    Bytes → List Bytes → ℤ → ReadState F → Except Failure (ℤ × ReadState F)
  | line, [], row, state => do
      let state ← readLine ncols row line state
      return (← increment row, state)
  | line, next :: rest, row, state => do
      let state ← readLine ncols row line state
      let row ← increment row
      if next.isEmpty then return (row, state) else readLines ncols next rest row state

/-- What is in memory that is not initialised, and what `pj_init_plus` and `pj_transform` do. -/
structure Surroundings (F : Type) where
  cells : ℕ → ℤ
  ival : ℤ
  latLonToXY : Option (F → F → Option (F × F))

/-- The products of `int`s for the size and for the corners of a map. -/
def HeaderParams.Fits (hpar : HeaderParams F) : Prop :=
  FitsInt (hpar.nrows * hpar.ncols) ∧ FitsInt (hpar.nrows * hpar.cellsize) ∧
    FitsInt (hpar.ncols * hpar.cellsize)

instance (hpar : HeaderParams F) : Decidable hpar.Fits := inferInstanceAs (Decidable (_ ∧ _ ∧ _))

/-- The check of the number of lines, and the map unless there was an error. -/
def finish (nrows row : ℤ) (state : ReadState F) : Option (Map F) × Bytes :=
  if row ≠ nrows then
    (none, state.error ++ Bytes.str "ERROR: Number of rows " ++ printInt row ++
      Bytes.str ", expected " ++ printInt nrows ++ Bytes.str "\n")
  else if state.hasError then (none, state.error)
  else (some state.map, state.error)

end MapFile

end Wdb2ts
