import Wdb2ts.EnableTimePeriod
import Wdb2ts.IsoTimes
import Wdb2ts.ProviderReftimes

/-!
# Values of an update request

An update request has one value for each provider: nothing, `enable` or `disable`, a data version,
or a time specification that a data version may follow.  The expressions that tell them apart are
matched by what stands behind the match of a part.
-/

namespace Wdb2ts

open miutil (toLower ptimeFromIsoString)

namespace LocationForecastUpdateHandler

/-! ## Parts of the expressions -/

/-- `\w`. -/
def isWordByte (byte : Byte) : Bool :=
  isDigit byte || decide (65 ≤ byte.val ∧ byte.val ≤ 90 ∨ 97 ≤ byte.val ∧ byte.val ≤ 122 ∨
    byte = Bytes.chr '_')

/-- The text behind as many digits as there must be. -/
def afterDigits (count : ℕ) (text : Bytes) : Option Bytes :=
  if (text.take count).length = count ∧ (text.take count).all isDigit then some (text.drop count)
  else none

/-- The text behind one of some bytes. -/
def afterOneOf (bytes : Bytes) : Bytes → Option Bytes
  | [] => none
  | byte :: rest => if bytes.contains byte then some rest else none

/-- The text behind `(:\d{2})`, at most so many times. -/
def afterClock : ℕ → Bytes → Bytes
  | 0, text => text
  | count + 1, text =>
      match (scanByte (Bytes.chr ':') text).bind (afterDigits 2) with
      | some rest => afterClock count rest
      | none => text

/-- The text behind `\d{4}-\d{2}-\d{2}[ T]\d{2}(:\d{2}){0,2}z?`, without regard to case. -/
def afterDate (val : Bytes) : Option Bytes := do
  let rest ← afterDigits 4 val
  let rest ← scanByte (Bytes.chr '-') rest
  let rest ← afterDigits 2 rest
  let rest ← scanByte (Bytes.chr '-') rest
  let rest ← afterDigits 2 rest
  let rest ← afterOneOf (Bytes.str " Tt") rest
  let rest ← afterDigits 2 rest
  let rest := afterClock 2 rest
  return (afterOneOf (Bytes.str "zZ") rest).getD rest

/-- The names of `Timespec`. -/
def timeNames : List Bytes :=
  ["today", "now", "tomorrow", "infinity", "-infinity", "yesterday", "epoch"].map Bytes.str

/-- The text behind `Timespec`. -/
def afterTimespec (val : Bytes) : Option Bytes :=
  match timeNames.find? fun name => (val.take name.length).map toLower = name with
  | some name => some (val.drop name.length)
  | none => afterDate val

/-! ## Expressions -/

/-- A match of ` *, *([\-+]?\d+)`, with its group. -/
def matchVersion (text : Bytes) : Option Bytes :=
  match text.dropWhile fun byte => byte = Bytes.chr ' ' with
  | [] => none
  | comma :: rest =>
      let number := rest.dropWhile fun byte => byte = Bytes.chr ' '
      let sign := (number.take 1).filter fun byte => byte = Bytes.chr '-' ∨ byte = Bytes.chr '+'
      let digits := number.drop sign.length
      if comma = Bytes.chr ',' ∧ digits ≠ [] ∧ digits.all isDigit then some number else none

/-- A match of `(en|di)\w*`, without regard to case. -/
def matchDisableEnable (val : Bytes) : Bool :=
  ((val.take 2).map toLower = Bytes.str "en" || (val.take 2).map toLower = Bytes.str "di") &&
    (val.drop 2).all isWordByte

/-- A match of `(0)? *, *([\-+]?\d+)`, with its groups. -/
def matchOnlyVersion (val : Bytes) : Option (Bytes × Bytes) :=
  let zero := (val.take 1).filter fun byte => byte = Bytes.chr '0'
  (matchVersion (val.drop zero.length)).map fun version => (zero, version)

/-- A match of `Timespec` with an optional version, with the group of the version. -/
def matchTimeAndVersion (val : Bytes) : Option Bytes :=
  (afterTimespec val).bind fun rest => if rest.isEmpty then some [] else matchVersion rest

/-! ## Values -/

/-- The times with the version of a time specification, unless `lexical_cast` throws. -/
def withDataversion (providerTimes : ProviderTimes) (version : Bytes) : Option ProviderTimes :=
  if version.isEmpty then some providerTimes
  else (lexicalCastInt version).map fun dataversion =>
    { providerTimes with dataversion := dataversion, dataversionRequest := true }

/-- The times with a decoded reference time, and what is returned. -/
def withRefTime (providerTimes : ProviderTimes) : Except Bytes PTime → ProviderTimes × Option Bool
  | .ok refTime =>
      ({ providerTimes with refTime := refTime, reftimeUpdateRequest := true }, some true)
  | .error _ => (providerTimes, some false)

/-- The times of a value, as `decodeQueryValue` assigns them, and what it returns.  Nothing is
returned when `lexical_cast` throws. -/
def decodeProviderTimes (universalTime : ℤ) (val : Bytes) : ProviderTimes × Option Bool :=
  let providerTimes : ProviderTimes := default
  if val.isEmpty then ({ providerTimes with reftimeUpdateRequest := true }, some true)
  else if matchDisableEnable val then
    ({ providerTimes with
        disableEnableRequest := true
        disabled := decide ((val.take 1).map toLower = Bytes.str "d") }, some true)
  else
    match matchOnlyVersion val with
    | some (zero, version) =>
        match lexicalCastInt version with
        | none => (providerTimes, none)
        | some dataversion =>
            ({ providerTimes with
                dataversion := dataversion
                dataversionRequest := true
                reftimeUpdateRequest := !zero.isEmpty }, some true)
    | none =>
        match matchTimeAndVersion val with
        | none => (providerTimes, some false)
        | some version =>
            match withDataversion providerTimes version with
            | none => (providerTimes, none)
            | some providerTimes =>
                -- The whole value is decoded, and not the group of the time.
                withRefTime providerTimes (ptimeFromIsoString universalTime val)

/-- `decodeQueryValue`. -/
def decodeQueryValue (universalTime : ℤ) (provider val : Bytes) (newRefTime : ProviderRefTimeList) :
    ProviderRefTimeList × Option Bool :=
  if provider.isEmpty then (newRefTime, some false)
  else
    let (providerTimes, result) := decodeProviderTimes universalTime val
    (newRefTime.insert provider providerTimes, result)

end LocationForecastUpdateHandler

end Wdb2ts
