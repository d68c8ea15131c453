import Wdb2ts.Lib.WhileLoop
import Wdb2ts.NextRun

/-!
# The next run of a model

A `MetaModelConf` reads a list of next-run specifications: times of day, equal steps through the
day from an offset on, or a time behind the load time.  It keeps their durations in a sorted list,
in which the next run of the model is looked up.
-/

namespace Wdb2ts

/-- `MetaModelConf::SpecType`. -/
inductive SpecType where
  | error
  | undefined
  | absolute
  | relativeToLoadTime
  deriving DecidableEq, Repr

/-- A `MetaModelConf`, without the name.  The durations are in microseconds. -/
structure MetaModelConf where
  specType : SpecType
  nextrun_ : List ℤ
  deriving DecidableEq, Repr

namespace MetaModelConf

/-- `MetaModelConf()`. -/
def new : MetaModelConf := ⟨.undefined, []⟩

/-- Insert a duration in front of the first one that is not less, unless it is the same. -/
def insertDuration (td : ℤ) : List ℤ → List ℤ
  | [] => [td]
  | first :: rest =>
      if first < td then first :: insertDuration td rest
      else if first = td then first :: rest
      else td :: first :: rest

/-- `addTimeDuration`. -/
def addTimeDuration (conf : MetaModelConf) (td : ℤ) : MetaModelConf :=
  { conf with nextrun_ := insertDuration td conf.nextrun_ }

/-! ## Reading -/

/-- What the text of a specification says. -/
inductive Reading where
  /-- The number of parts between colons is neither one nor two. -/
  | skipped
  | error
  /-- A number is not an `int`, and `lexical_cast` throws. -/
  | tooLarge
  | relative (seconds : ℤ)
  | every (offset every : ℤ)
  | clock (h m : ℤ)
  deriving DecidableEq, Repr

/-- `isnumber`. -/
def isnumber (val : Bytes) : Bool := val.all isDigit

/-- A match of ` *\+?(\d+)`, with its group. -/
def matchRelativeToLoadtime (val : Bytes) : Option Bytes :=
  let rest := val.dropWhile fun byte => byte = Bytes.chr ' '
  let digits := if rest.head? = some (Bytes.chr '+') then rest.tail else rest
  if digits ≠ [] ∧ isnumber digits then some digits else none

/-- A match of ` *(\*|\d+)/(\d+)`, with its groups. -/
def matchEvery (val : Bytes) : Option (Bytes × Bytes) :=
  let rest := val.dropWhile fun byte => byte = Bytes.chr ' '
  let offset := if rest.head? = some (Bytes.chr '*') then rest.take 1 else rest.takeWhile isDigit
  match rest.drop offset.length with
  | [] => none
  | slash :: every =>
      if slash = Bytes.chr '/' ∧ offset ≠ [] ∧ every ≠ [] ∧ isnumber every then
        some (offset, every)
      else none

/-- The matches of `parseNextrun1`, with their numbers. -/
def readNextrun1 (val : Bytes) : Reading :=
  match matchRelativeToLoadtime val with
  | some digits => ((lexicalCastInt digits).map .relative).getD .tooLarge
  | none =>
      match matchEvery val with
      | some (first, second) =>
          match lexicalCastInt second,
            if first.head? ≠ some (Bytes.chr '*') then lexicalCastInt first else some 0 with
          | some every, some offset => .every offset every
          | _, _ => .tooLarge
      | none => .error

/-- The numbers of `parseNextrun2`. -/
def readNextrun2 (val1 val2 : Bytes) : Reading :=
  let sHH := miutil.trimstr val1 miutil.blanks
  let sMM := miutil.trimstr val2 miutil.blanks
  if sHH.isEmpty ∨ sMM.isEmpty then .error
  else if !isnumber sHH ∨ !isnumber sMM then .error
  else
    match scanInt sHH, scanInt sMM with
    | some h, some m => .clock h m
    | _, _ => .error

/-- The parts of a specification, as `parseNextrun` hands them over. -/
def readSpec (elem : Bytes) : Reading :=
  match miutil.splitstr elem (Bytes.chr ':') (Bytes.chr '"') with
  | [val1, val2] => readNextrun2 val1 val2
  | [val] => readNextrun1 val
  | _ => .skipped

/-! ## Parsing -/

/-- What a call of `parseNextrun1` or `parseNextrun2` does: the type that it returns, and the
durations of its calls of `addTimeDuration`. -/
structure Parsed where
  spec : SpecType
  added : List ℤ
  deriving DecidableEq, Repr

/-- The loop of `parseNextrun1`, from a number of seconds on. -/
def everyLoop (every : ℤ) (fuel : ℕ) (i : ℤ) (added : List ℤ) : Option (ℤ × List ℤ) :=
  WhileLoop.run (fun state => decide (state.1 < 86400))
    (fun state => (toInt32 (state.1 + every), state.2 ++ [state.1 * 1000000])) fuel (i, added)

/-- How the parsing of one specification ends. -/
inductive Call where
  | skipped
  | throws
  | returned (parsed : Parsed)
  deriving DecidableEq, Repr

/-- What is done for a specification, if it ends within the fuel of the loop. -/
def parseReading (fuel : ℕ) : Reading → Option Call
  | .skipped => some .skipped
  | .error => some (.returned ⟨.error, []⟩)
  | .tooLarge => some .throws
  | .relative seconds => some (.returned ⟨.relativeToLoadTime, [seconds * 1000000]⟩)
  | .every offset every =>
      (everyLoop every fuel offset []).map fun last => .returned ⟨.absolute, last.2⟩
  | .clock h m => some (.returned ⟨.absolute, [PTime.timeDuration h m 0]⟩)

/-- The type of a `MetaModelConf` behind a specification, or nothing when `parseNextrun` returns
false. -/
def checkSpec (specType spec : SpecType) : Option SpecType :=
  if spec = .error then none
  else if specType = .undefined then some spec
  else if specType = .absolute ∧ spec ≠ specType then none
  else if specType = .relativeToLoadTime then none
  else some specType

/-- What `parseNextrun` does: what it returns, if it does not throw, the `MetaModelConf` behind it,
and its calls that returned. -/
structure Parse where
  returned : Option Bool
  conf : MetaModelConf
  calls : List Parsed
  deriving DecidableEq, Repr

/-- The loop of `parseNextrun`. -/
def parseReadings (fuel : ℕ) (conf : MetaModelConf) : List Reading → Option Parse
  | [] => some ⟨some true, conf, []⟩
  | reading :: rest =>
      match parseReading fuel reading with
      | none => none
      | some .skipped => parseReadings fuel conf rest
      | some .throws => some ⟨none, conf, []⟩
      | some (.returned parsed) =>
          let added := parsed.added.foldl addTimeDuration conf
          match checkSpec conf.specType parsed.spec with
          | none => some ⟨some false, added, [parsed]⟩
          | some specType =>
              (parseReadings fuel { added with specType := specType } rest).map fun parse =>
                { parse with calls := parsed :: parse.calls }

/-- The specifications of a text. -/
def readSpecs (val_ : Bytes) : List Reading := (splitComma val_).map readSpec

/-- `parseNextrun`. -/
def parseNextrun (fuel : ℕ) (conf : MetaModelConf) (val_ : Bytes) : Option Parse :=
  parseReadings fuel conf (readSpecs val_)

/-! ## Searching -/

/-- `findNextrun`, at a time of the clock. -/
def findNextrun (now : ℤ) (conf : MetaModelConf) (refTime : PTime) : Except Bytes PTime := do
  let date ← PTime.date now
  let midnight := PTime.ofDate date (PTime.timeDuration 0 0 0)
  let tdNow := config.timeOfDay now
  match conf.nextrun_, conf.specType with
  | [], _ => return .notADateTime
  | first :: rest, .absolute =>
      match (first :: rest).find? fun it => !decide (it < tdNow) with
      | some it => return midnight.add it
      | none => return (midnight.add (PTime.hours 24)).add first
  | first :: _, .relativeToLoadTime =>
      if refTime.isSpecial then return .notADateTime else return refTime.add first
  | _, _ => return .notADateTime

end MetaModelConf

end Wdb2ts
