import Wdb2ts.Miutil
import Wdb2ts.Lib.SortedMap

/-!
# URL queries

A `UrlQuery` holds the parameters of a query.  `decode` reads them from the text of a
query, and `encode` writes them behind a path.
-/

namespace Wdb2ts

/-- The exceptions of the standard library that decoding throws, with their texts. -/
inductive StdException where
  | rangeError (what : Bytes)
  | logicError (what : Bytes)
  deriving DecidableEq, Repr

/-- `std::exception::what`. -/
def StdException.what : StdException → Bytes
  | .rangeError what => what
  | .logicError what => what

/-! ## Characters and numbers -/

/-- `isdigit`. -/
def isDigit (byte : Byte) : Bool := 48 ≤ byte.val ∧ byte.val ≤ 57

/-- `isalnum` in the C locale. -/
def isAlnum (byte : Byte) : Bool :=
  isDigit byte || decide (65 ≤ byte.val ∧ byte.val ≤ 90) ||
    decide (97 ≤ byte.val ∧ byte.val ≤ 122)

/-- The value of a hexadecimal digit. -/
def hexValue (byte : Byte) : Option ℕ :=
  if 48 ≤ byte.val ∧ byte.val ≤ 57 then some (byte.val - 48)
  else if 65 ≤ byte.val ∧ byte.val ≤ 70 then some (byte.val - 55)
  else if 97 ≤ byte.val ∧ byte.val ≤ 102 then some (byte.val - 87)
  else none

/-- The hexadecimal digit that `printf` writes for a number below sixteen. -/
def hexDigit (number : ℕ) : Byte :=
  Bytes.ofNat (if number < 10 then 48 + number else 87 + number)

/-- The text of a character array, up to its first zero byte. -/
def cString (buf : Bytes) : Bytes :=
  buf.takeWhile fun byte => byte ≠ Bytes.chr (Char.ofNat 0)

/-- Read hexadecimal digits onto a number, up to the first other byte. -/
def hexNumber : Bytes → ℕ → ℕ × Bytes
  | [], number => (number, [])
  | byte :: rest, number =>
      match hexValue byte with
      | none => (number, byte :: rest)
      | some digit => hexNumber rest (number * 16 + digit)

/-- `strtol` with base sixteen, for texts that are too short for a digit after the prefix
`0x`: the number and the text where the conversion ended. -/
def strtol (text : Bytes) : ℤ × Bytes :=
  match text.dropWhile isSpace with
  | [] => (0, text)
  | sign :: digits =>
      if sign = Bytes.chr '-' ∨ sign = Bytes.chr '+' then
        if (digits.head?.bind hexValue).isSome then
          let converted := hexNumber digits 0
          (if sign = Bytes.chr '-' then -(converted.1 : ℤ) else converted.1, converted.2)
        else (0, text)
      else if (hexValue sign).isSome then
        let converted := hexNumber (sign :: digits) 0
        (converted.1, converted.2)
      else (0, text)

/-- `static_cast<char>`. -/
def charOfLong (number : ℤ) : Byte := Bytes.ofNat (number % 256).toNat

/-! ## Queries -/

/-- The members of a `UrlQuery`.  The separator is a signed character. -/
structure UrlQuery where
  params : SortedMap Bytes Bytes
  seperator : ℤ
  path : Bytes

namespace UrlQuery

/-- `UrlQuery()`. -/
def new : UrlQuery := ⟨∅, -1, []⟩

/-- `UrlQuery::getParamSeparator` for the separation characters `;` and `&`. -/
def getParamSeparator (urlQuery : Bytes) : ℤ :=
  match urlQuery.find? fun byte => byte = Bytes.chr ';' ∨ byte = Bytes.chr '&' with
  | none => -1
  | some byte => byte.val

/-- `UrlQuery::unescape`. -/
def unescape : Bytes → Except StdException Bytes
  | [] => .ok []
  | byte :: rest =>
      if byte = Bytes.chr '%' then
        match rest with
        | high :: low :: rest =>
            let buf := cString [high, low]
            let converted := strtol buf
            if converted.2.isEmpty then
              (unescape rest).map fun result => charOfLong converted.1 :: result
            else
              .error (.logicError
                (Bytes.str "Format error: Expecting an hexadecimal value on the form %xx. " ++
                  Bytes.str "Given value '" ++ buf ++ Bytes.str "'."))
        | _ =>
            .error (.rangeError
              (Bytes.str "Format error: Expecting at least 2 chars after an % character."))
      else (unescape rest).map fun result => byte :: result

/-- One round of `UrlQuery::escape`.  `isalnum` is only defined for the bytes below 128, and
`sprintf` writes the others, which are negative, with eight digits into a buffer for two. -/
def escapeByte (byte : Byte) : Option Bytes :=
  if 128 ≤ byte.val then none
  else if isAlnum byte then some [byte]
  else some [Bytes.chr '%', hexDigit (byte.val / 16), hexDigit (byte.val % 16)]

/-- `UrlQuery::escape`.  There is no result where the behaviour is undefined. -/
def escape : Bytes → Option Bytes
  | [] => some []
  | byte :: rest => do
      let escaped ← escapeByte byte
      let result ← escape rest
      some (escaped ++ result)

/-! ### Decoding -/

/-- The error of a parameter with more than one `=`. -/
def invalidKeyVal (param : Bytes) (parts : ℕ) : StdException :=
  .logicError (Bytes.str "Invalid key=val spec: " ++ param ++ Bytes.str ". Number of '=' " ++
    Bytes.str (toString (parts - 1)) ++ Bytes.str ".")

/-- The body of the loop of `decode`. -/
def decodeParam (param : Bytes) (query : UrlQuery) : Except StdException UrlQuery :=
  if param.isEmpty then .ok query
  else
    match miutil.splitstr param (Bytes.chr '=') (Bytes.chr '"') with
    | [] => .ok query
    | [keyText] => do
        let key ← unescape keyText
        .ok { query with params := query.params.insert key [] }
    | [keyText, valText] => do
        let key ← unescape keyText
        let val ← unescape valText
        .ok { query with params := query.params.insert key val }
    | keyText :: others => do
        let _ ← unescape keyText
        .error (invalidKeyVal param (others.length + 1))

/-- The loop of `decode`: the exception, if one is thrown, and the query after it. -/
def decodeParams : List Bytes → UrlQuery → Option StdException × UrlQuery
  | [], query => (none, query)
  | param :: rest, query =>
      match decodeParam param query with
      | .error exception => (some exception, query)
      | .ok query => decodeParams rest query

/-- What `decode` does to the text with the path: the path and the query text. -/
def splitPath (urlQuery : Bytes) : Bytes × Bytes :=
  match findByte urlQuery (Bytes.chr '?') with
  | none => (urlQuery, [])
  | some iPath =>
      let path := miutil.trimstr (urlQuery.take iPath) miutil.blanks
      (if path.getLast? = some (Bytes.chr '/') then path.dropLast else path,
        urlQuery.drop (iPath + 1))

/-- The parameters of a query text. -/
def paramList (seperator : ℤ) (urlQuery : Bytes) : List Bytes :=
  if 0 < seperator then
    miutil.splitstr urlQuery (Bytes.ofNat seperator.toNat) (Bytes.chr '"')
  else [urlQuery]

/-- `UrlQuery::decode` of a query text without a path. -/
def decodeQuery (urlQuery : Bytes) (query : UrlQuery) : Option StdException × UrlQuery :=
  if urlQuery.isEmpty then (none, query)
  else
    let seperator := getParamSeparator urlQuery
    decodeParams (paramList seperator urlQuery) { query with seperator := seperator }

/-- `UrlQuery::decode`: the exception, if one is thrown, and the query after it. -/
def decode (urlQuery : Bytes) (withPath : Bool) (query : UrlQuery) :
    Option StdException × UrlQuery :=
  if withPath then
    let parts := splitPath urlQuery
    decodeQuery parts.2 { query with path := parts.1 }
  else decodeQuery urlQuery query

/-! ### Encoding -/

/-- The variable `sep` of `encode`, which has no value when the separator is set. -/
def encodeSep (query : UrlQuery) : Option Byte :=
  if query.seperator ≤ 0 then some (Bytes.chr ';') else none

/-- A parameter in the text of `encode`. -/
def encodeParam (param : Bytes × Bytes) : Option Bytes := do
  let key ← escape param.1
  let val ← escape param.2
  some (key ++ Bytes.chr '=' :: val)

/-- The loop of `encode` after the first parameter. -/
def encodeRest (sep : Option Byte) : List (Bytes × Bytes) → Option Bytes
  | [] => some []
  | param :: rest => do
      let byte ← sep
      let text ← encodeParam param
      let others ← encodeRest sep rest
      some (byte :: text ++ others)

/-- `UrlQuery::encode`.  There is no result where the behaviour is undefined. -/
def encode (query : UrlQuery) (path : Bytes) : Option Bytes :=
  match query.params.entries with
  | [] => some path
  | param :: rest => do
      let text ← encodeParam param
      let others ← encodeRest query.encodeSep rest
      some (path ++ Bytes.chr '?' :: (text ++ others))

end UrlQuery

end Wdb2ts
