import Wdb2ts.PTime
import Mathlib.Data.List.Sort
import Mathlib.Data.List.Destutter

/-!
# Symbol holders

A `SymbolHolder` keeps the weather symbols of one time span in the order of their times.  The
symbols themselves come from a library, so their type and its operations are parameters.
-/

namespace Wdb2ts

/-- A `miutil::miTime`, in seconds since 1970-01-01T00:00:00. -/
abbrev MiTime := ℤ

namespace MiTime

/-- `miTime::addHour`. -/
def addHour (time : MiTime) (hours : ℤ) : MiTime := time + 3600 * hours

/-- The `miTime` with the date and the time of day of a `ptime`.  The date of a special value has
no year, and asking for it throws. -/
def ofPTime : PTime → Option MiTime
  | .ticks microseconds => some (microseconds / 1000000)
  | _ => none

end MiTime

/-- The type `miSymbol` and the class `symbolMaker` of the symbol library. -/
class SymbolMaker (S : Type) (F : outParam Type) where
  getTime : S → MiTime
  setTime : S → MiTime → S
  setLightStat : S → MiTime → F → S
  getSymbol : ℤ → S
  getErrorSymbol : S
  equal : S → S → Bool
  hasThunder : S → Bool
  turnOnThunder : S → S
  turnOffThunder : S → S

export SymbolMaker (getTime)

/-- What the holders rely on when they place a symbol in time. -/
structure SymbolMaker.KeepsTimes (S : Type) {F : Type} [SymbolMaker S F] : Prop where
  getTime_setTime (symbol : S) (time : MiTime) : getTime (setTime symbol time) = time
  getTime_setLightStat (symbol : S) (time : MiTime) (latitude : F) :
    getTime (setLightStat symbol time latitude) = getTime symbol

/-- The operations on thunder agree with each other and leave the time of a symbol alone. -/
structure SymbolMaker.ThunderAgrees (S : Type) {F : Type} [SymbolMaker S F] : Prop where
  hasThunder_turnOn (symbol : S) : hasThunder (turnOnThunder symbol) = true
  hasThunder_turnOff (symbol : S) : hasThunder (turnOffThunder symbol) = false
  getTime_turnOn (symbol : S) : getTime (turnOnThunder symbol) = getTime symbol
  getTime_turnOff (symbol : S) : getTime (turnOffThunder symbol) = getTime symbol

/-- A `SymbolHolder::Symbol`. -/
structure Symbol (S F : Type) where
  min : ℤ
  max : ℤ
  symbol : S
  probability : F
  withOutStateOfAgregate : Bool
  oldThunderSymbol : S

namespace Symbol

variable {S F : Type} [SymbolMaker S F]

/-- `Symbol::from`. -/
def fromTime (symbol : Symbol S F) : MiTime :=
  MiTime.addHour (getTime symbol.symbol) (-1 * symbol.min - 1)

/-- `Symbol::to`. -/
def toTime (symbol : Symbol S F) : MiTime := MiTime.addHour (getTime symbol.symbol) symbol.max

/-- `Symbol::hasThunder`. -/
def hasThunder (symbol : Symbol S F) : Bool := SymbolMaker.hasThunder symbol.symbol

/-- `Symbol::turnOnThunder`. -/
def turnOnThunder (symbol : Symbol S F) : Symbol S F :=
  { symbol with symbol := SymbolMaker.turnOnThunder symbol.symbol }

/-- `Symbol::turnOffThunder`. -/
def turnOffThunder (symbol : Symbol S F) : Symbol S F :=
  { symbol with symbol := SymbolMaker.turnOffThunder symbol.symbol }

end Symbol

/-- A `SymbolHolder`.  Every symbol spans as many hours as its holder says. -/
structure SymbolHolder (S F : Type) where
  symbols_ : List (Symbol S F)
  min_ : ℤ
  max_ : ℤ
  spans : ∀ symbol ∈ symbols_, symbol.max + symbol.min = max_ + min_

namespace SymbolHolder

variable {S F : Type}

/-- `SymbolHolder( min, max )`. -/
def create (min max : ℤ) : SymbolHolder S F := ⟨[], min, max, by simp⟩

instance : Inhabited (SymbolHolder S F) := ⟨create 0 0⟩

/-- `SymbolHolder::timespanInHours`. -/
def timespanInHours (holder : SymbolHolder S F) : ℤ := holder.max_ + holder.min_ + 1

@[simp] theorem symbols_create (min max : ℤ) :
    (create min max : SymbolHolder S F).symbols_ = [] := rfl

@[simp] theorem timespanInHours_create (min max : ℤ) :
    (create min max : SymbolHolder S F).timespanInHours = max + min + 1 := rfl

variable [SymbolMaker S F]

/-- The symbols are in the order of their start times. -/
def Sorted (holder : SymbolHolder S F) : Prop :=
  holder.symbols_.Pairwise fun earlier later => earlier.fromTime ≤ later.fromTime

instance (holder : SymbolHolder S F) : Decidable holder.Sorted :=
  inferInstanceAs (Decidable (List.Pairwise _ _))

/-- A symbol covers as many hours as the time span of its holder. -/
theorem toTime_eq (holder : SymbolHolder S F) {symbol : Symbol S F}
    (member : symbol ∈ holder.symbols_) :
    symbol.toTime = symbol.fromTime + 3600 * holder.timespanInHours := by
  have spans := holder.spans symbol member
  simp only [Symbol.toTime, Symbol.fromTime, MiTime.addHour, timespanInHours, ← spans]
  ring

/-! ## Adding symbols -/

/-- Where `addSymbol` puts a new symbol of a time. -/
def insertSymbol (miT : MiTime) (new : Symbol S F) (symbols : List (Symbol S F)) :
    List (Symbol S F) :=
  match symbols.getLast? with
  | none => [new]
  | some last =>
      if getTime last.symbol < miT then symbols ++ [new]
      else
        let position := symbols.findIdx fun symbol => !decide (getTime symbol.symbol < miT)
        symbols.insertIdx position new

theorem mem_insertSymbol {miT : MiTime} {new symbol : Symbol S F} {symbols : List (Symbol S F)} :
    symbol ∈ insertSymbol miT new symbols ↔ symbol = new ∨ symbol ∈ symbols := by
  simp only [insertSymbol]
  split
  · rename_i none
    simp [List.getLast?_eq_none_iff.mp none]
  · split
    · simp [or_comm]
    · rw [List.mem_insertIdx List.findIdx_le_length]

variable [Inhabited S]

/-- The symbol `addSymbol` makes, with its time and the light of that time. -/
def newSymbol (holder : SymbolHolder S F) (time : MiTime) (custNumber : ℤ) (latitude : F)
    (withOutStateOfAgregate : Bool) (proability : F) : Symbol S F :=
  let sym := SymbolMaker.setTime (SymbolMaker.getSymbol custNumber) time
  { min := holder.min_
    max := holder.max_
    symbol := SymbolMaker.setLightStat sym time latitude
    probability := proability
    withOutStateOfAgregate := withOutStateOfAgregate
    oldThunderSymbol := default }

/-- Is the number that of a symbol? -/
def isSymbolNumber (S : Type) {F : Type} [SymbolMaker S F] (custNumber : ℤ) : Bool :=
  !SymbolMaker.equal (SymbolMaker.getErrorSymbol : S) (SymbolMaker.getSymbol custNumber)

/-- `SymbolHolder::addSymbol`.  A time without a date throws before anything is changed. -/
def addSymbol (holder : SymbolHolder S F) (time : PTime) (custNumber : ℤ) (latitude : F)
    (withOutStateOfAgregate : Bool) (proability : F) : SymbolHolder S F :=
  match MiTime.ofPTime time with
  | none => holder
  | some miT =>
      if isSymbolNumber S custNumber then
        let new := holder.newSymbol miT custNumber latitude withOutStateOfAgregate proability
        { symbols_ := insertSymbol miT new holder.symbols_
          min_ := holder.min_
          max_ := holder.max_
          spans := by
            intro symbol member
            rcases mem_insertSymbol.mp member with same | old
            · subst same
              rfl
            · exact holder.spans symbol old }
      else holder

/-- `SymbolHolder::findSymbol`, which drops the seconds of the time it looks for.  A time without
a date throws. -/
def findSymbol (holder : SymbolHolder S F) : PTime → Option (Symbol S F)
  | .ticks microseconds =>
      let miFromTime : MiTime := 60 * (microseconds / 60000000)
      (holder.symbols_.find? fun symbol => decide (miFromTime ≤ symbol.fromTime)).bind
        fun symbol => if symbol.fromTime = miFromTime then some symbol else none
  | _ => none

end SymbolHolder

/-! ## A small library -/

/-- A symbol of a small library: a number, a time and whether the symbol shows thunder. -/
structure PlainSymbol where
  number : ℤ
  time : MiTime
  thunder : Bool
  deriving DecidableEq, Inhabited

/-- The numbers from 1 to 23 are symbols, and four of them show thunder. -/
instance : SymbolMaker PlainSymbol ℚ where
  getTime := PlainSymbol.time
  setTime symbol time := { symbol with time := time }
  setLightStat symbol _ _ := symbol
  getSymbol custNumber :=
    if 1 ≤ custNumber ∧ custNumber ≤ 23 then
      ⟨custNumber, 0, decide (custNumber ∈ ([6, 11, 14, 22] : List ℤ))⟩
    else ⟨0, 0, false⟩
  getErrorSymbol := ⟨0, 0, false⟩
  equal left right := left.number == right.number
  hasThunder := PlainSymbol.thunder
  turnOnThunder symbol := { symbol with thunder := true }
  turnOffThunder symbol := { symbol with thunder := false }

theorem PlainSymbol.keepsTimes : SymbolMaker.KeepsTimes PlainSymbol where
  getTime_setTime _ _ := rfl
  getTime_setLightStat _ _ _ := rfl

theorem PlainSymbol.thunderAgrees : SymbolMaker.ThunderAgrees PlainSymbol where
  hasThunder_turnOn _ := rfl
  hasThunder_turnOff _ := rfl
  getTime_turnOn _ := rfl
  getTime_turnOff _ := rfl

end Wdb2ts
