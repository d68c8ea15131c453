import Wdb2ts.UrlRoundTrip

/-!
# Percent decoding

`unescape` leaves the two bytes behind a percent sign to `strtol`, which reads more than two
hexadecimal digits.  The escapes of a text that it reads to their end are described here,
and the texts that are decoded as the form `%xx` says.
-/

namespace Wdb2ts

/-! ## Hexadecimal digits -/

/-- A byte that is a hexadecimal digit. -/
def isHex (byte : Byte) : Bool := (hexValue byte).isSome

/-- The byte that two hexadecimal digits denote. -/
def hexByte (high low : Byte) : Option Byte := do
  let upper ← hexValue high
  let lower ← hexValue low
  some (Bytes.ofNat (upper * 16 + lower))

theorem isHex_iff (byte : Byte) :
    isHex byte = true ↔ (48 ≤ byte.val ∧ byte.val ≤ 57) ∨ (65 ≤ byte.val ∧ byte.val ≤ 70) ∨
      (97 ≤ byte.val ∧ byte.val ≤ 102) := by
  simp only [isHex, hexValue]
  split
  · simp_all
  · split
    · simp_all
    · split
      · simp_all
      · simp_all

/-- A hexadecimal digit is none of the other bytes that `strtol` passes over. -/
structure IsDigitOnly (byte : Byte) : Prop where
  notZero : byte ≠ Bytes.chr (Char.ofNat 0)
  notSpace : isSpace byte = false
  notMinus : byte ≠ Bytes.chr '-'
  notPlus : byte ≠ Bytes.chr '+'

theorem isDigitOnly_of_isHex {byte : Byte} (hex : isHex byte = true) : IsDigitOnly byte := by
  rw [isHex_iff] at hex
  have differs : ∀ {other : Byte}, other.val < 48 → byte ≠ other := by
    intro other small equal
    rw [equal] at hex
    omega
  constructor
  · exact differs (by decide)
  · simp only [isSpace, decide_eq_false_iff_not]
    omega
  · exact differs (by decide)
  · exact differs (by decide)

theorem hexByte_isSome (high low : Byte) :
    (hexByte high low).isSome = (isHex high && isHex low) := by
  rw [isHex, isHex, hexByte]
  cases hexValue high with
  | none => rfl
  | some upper =>
      cases hexValue low with
      | none => rfl
      | some lower => rfl

namespace UrlQuery

/-! ## Two bytes behind a percent sign -/

/-- The byte that `unescape` takes for the two bytes behind a percent sign. -/
def readEscape (high low : Byte) : Option Byte :=
  let converted := strtol (cString [high, low])
  if converted.2.isEmpty then some (charOfLong converted.1) else none

/-- Two bytes that are hexadecimal digits. -/
def isHexPair : Bytes → Bool
  | [high, low] => isHex high && isHex low
  | _ => false

/-- Two bytes that `strtol` reads to their end without being two hexadecimal digits: a zero
byte with any byte behind it, a digit and a zero byte, and a digit behind a blank or a
sign. -/
def isLenient : Bytes → Bool
  | [high, low] =>
      decide (high = Bytes.chr (Char.ofNat 0)) ||
        (isHex high && decide (low = Bytes.chr (Char.ofNat 0))) ||
        ((isSpace high || decide (high = Bytes.chr '-') || decide (high = Bytes.chr '+')) &&
          isHex low)
  | _ => false

/-- What `unescape` does not read behind a percent sign. -/
def isRejected (escape : Bytes) : Bool := !isHexPair escape && !isLenient escape

theorem readEscape_of_zero (low : Byte) :
    (readEscape (Bytes.chr (Char.ofNat 0)) low).isSome = true := by
  simp [readEscape, cString, strtol]

theorem cString_of_ne {high low : Byte} (notZero : high ≠ Bytes.chr (Char.ofNat 0)) :
    cString [high, low] = if low = Bytes.chr (Char.ofNat 0) then [high] else [high, low] := by
  rw [cString, List.takeWhile_cons_of_pos (by simpa using notZero)]
  split
  next zero => rw [List.takeWhile_cons_of_neg (by simpa using zero)]
  next notZero => rw [List.takeWhile_cons_of_pos (by simpa using notZero), List.takeWhile_nil]

/-- `strtol` reads one byte to its end exactly when it is a digit. -/
theorem strtol_single (byte : Byte) : (strtol [byte]).2.isEmpty = isHex byte := by
  cases hex : isHex byte with
  | true =>
      have only := isDigitOnly_of_isHex hex
      obtain ⟨digit, value⟩ := Option.isSome_iff_exists.mp hex
      simp [strtol, only.notSpace, only.notMinus, only.notPlus, value, hexNumber]
  | false =>
      have noValue : hexValue byte = none := by simpa [isHex] using hex
      cases space : isSpace byte with
      | true => simp [strtol, space]
      | false => simp [strtol, space, noValue]

/-- `strtol` reads two bytes to their end when they are digits, or a digit behind a blank or
a sign. -/
theorem strtol_pair (high low : Byte) :
    (strtol [high, low]).2.isEmpty =
      ((isHex high || isSpace high || decide (high = Bytes.chr '-') ||
        decide (high = Bytes.chr '+')) && isHex low) := by
  cases space : isSpace high with
  | true =>
      have skipped : (strtol [high, low]).2.isEmpty = (strtol [low]).2.isEmpty := by
        cases lowSpace : isSpace low with
        | true => simp [strtol, space, lowSpace]
        | false =>
            simp only [strtol, List.dropWhile_cons, space, lowSpace, if_true,
              Bool.false_eq_true, if_false]
            split
            · split
              · rfl
              · rfl
            · split
              · rfl
              · rfl
      rw [skipped, strtol_single]
      simp
  | false =>
      cases hex : isHex high with
      | true =>
          have only := isDigitOnly_of_isHex hex
          obtain ⟨digit, value⟩ := Option.isSome_iff_exists.mp hex
          cases lowValue : hexValue low with
          | none =>
              simp [strtol, space, only.notMinus, only.notPlus, value, hexNumber, lowValue, isHex]
          | some lowDigit =>
              simp [strtol, space, only.notMinus, only.notPlus, value, hexNumber, lowValue, isHex]
      | false =>
          have noValue : hexValue high = none := by simpa [isHex] using hex
          by_cases sign : high = Bytes.chr '-' ∨ high = Bytes.chr '+'
          · cases lowValue : hexValue low with
            | none =>
                simp [strtol, space, sign, lowValue, isHex]
            | some lowDigit =>
                simp [strtol, space, sign, lowValue, hexNumber, isHex]
          · have neither : ¬(high = Bytes.chr '-') ∧ ¬(high = Bytes.chr '+') := by
              simpa using sign
            simp [strtol, space, neither, noValue]

/-- The two bytes that are read behind a percent sign. -/
theorem readEscape_isSome (high low : Byte) :
    (readEscape high low).isSome = (isHexPair [high, low] || isLenient [high, low]) := by
  have read : (readEscape high low).isSome = (strtol (cString [high, low])).2.isEmpty := by
    rw [readEscape]
    split
    · simp_all
    · simp_all
  by_cases zero : high = Bytes.chr (Char.ofNat 0)
  · rw [zero, readEscape_of_zero]
    simp [isLenient]
  · rw [read, cString_of_ne zero]
    by_cases lowZero : low = Bytes.chr (Char.ofNat 0)
    · have notHex : isHex (Bytes.chr (Char.ofNat 0)) = false := by rfl
      rw [if_pos lowZero, strtol_single]
      simp [isHexPair, isLenient, zero, lowZero, notHex]
    · rw [if_neg lowZero, strtol_pair]
      simp only [isHexPair, isLenient, zero, lowZero]
      cases isHex high with
      | true => simp
      | false => simp

/-- Two hexadecimal digits are read as the byte that they denote. -/
theorem readEscape_of_hexByte {high low byte : Byte} (denotes : hexByte high low = some byte) :
    readEscape high low = some byte := by
  have digits : isHex high = true ∧ isHex low = true := by
    have isSome := hexByte_isSome high low
    rw [denotes] at isSome
    simpa using isSome.symm
  have highOnly := isDigitOnly_of_isHex digits.1
  have lowOnly := isDigitOnly_of_isHex digits.2
  obtain ⟨upper, highValue⟩ := Option.isSome_iff_exists.mp digits.1
  obtain ⟨lower, lowValue⟩ := Option.isSome_iff_exists.mp digits.2
  have value : strtol [high, low] = (((upper * 16 + lower : ℕ) : ℤ), []) := by
    simp [strtol, highOnly.notSpace, highOnly.notMinus, highOnly.notPlus, highValue, lowValue,
      hexNumber]
  have isByte : byte = Bytes.ofNat (upper * 16 + lower) := by
    simpa [hexByte, highValue, lowValue] using denotes.symm
  rw [readEscape, cString_of_ne highOnly.notZero, if_neg lowOnly.notZero, value, isByte]
  simp only [List.isEmpty_nil, if_true, Option.some.injEq]
  apply Fin.ext
  simp only [charOfLong, Bytes.val_ofNat]
  omega

/-! ## The escapes of a text -/

/-- The bytes behind the percent signs of a text, read from the left: two for each sign, or
the rest of the text where it ends before. -/
def escapes : Bytes → List Bytes
  | [] => []
  | byte :: rest =>
      if byte = Bytes.chr '%' then
        match rest with
        | high :: low :: rest => [high, low] :: escapes rest
        | _ => [rest]
      else escapes rest

theorem escapes_of_ne {byte : Byte} (notPercent : byte ≠ Bytes.chr '%') (rest : Bytes) :
    escapes (byte :: rest) = escapes rest := by
  rw [escapes.eq_def]
  simp [notPercent]

/-- Less than two bytes behind a percent sign at the end of a text. -/
theorem escapes_of_short {rest : Bytes}
    (short : ∀ (high low : Byte) (tail : Bytes), rest ≠ high :: low :: tail) :
    escapes (Bytes.chr '%' :: rest) = [rest] := by
  rw [escapes]
  · simp
  · exact short

/-- A text of which `unescape` is to make the other one: each percent sign and the two
hexadecimal digits behind it stand for the byte that the digits denote, and the other bytes
stand for themselves. -/
inductive Denotes : Bytes → Bytes → Prop
  | nil : Denotes [] []
  | plain {byte : Byte} {rest result : Bytes} (notPercent : byte ≠ Bytes.chr '%')
      (tail : Denotes rest result) : Denotes (byte :: rest) (byte :: result)
  | escape {high low byte : Byte} {rest result : Bytes} (digits : hexByte high low = some byte)
      (tail : Denotes rest result) :
      Denotes (Bytes.chr '%' :: high :: low :: rest) (byte :: result)

/-- Percent decoding as the form `%xx` says: a text that denotes another one is decoded to
it, and any other text is refused with an exception. -/
structure DecodesStrictly (text : Bytes) : Prop where
  decoded : ∀ result, Denotes text result → unescape text = .ok result
  refused : (¬∃ result, Denotes text result) → ∃ exception, unescape text = .error exception

theorem unescape_escape (high low : Byte) (rest : Bytes) :
    (∃ byte, readEscape high low = some byte ∧
        unescape (Bytes.chr '%' :: high :: low :: rest) =
          (unescape rest).map fun result => byte :: result) ∨
      (readEscape high low = none ∧
        ∃ exception, unescape (Bytes.chr '%' :: high :: low :: rest) = .error exception) := by
  rw [unescape]
  simp only [if_true, readEscape]
  split
  · left
    exact ⟨_, rfl, rfl⟩
  · right
    exact ⟨rfl, _, rfl⟩

theorem isRejected_eq (high low : Byte) :
    isRejected [high, low] = (readEscape high low).isNone := by
  rw [isRejected, ← Option.not_isSome, readEscape_isSome, Bool.not_or]

theorem isRejected_of_short {rest : Bytes}
    (short : ∀ (high low : Byte) (tail : Bytes), rest ≠ high :: low :: tail) :
    isRejected rest = true ∧ isHexPair rest = false := by
  match rest with
  | [] => exact ⟨rfl, rfl⟩
  | [byte] => exact ⟨rfl, rfl⟩
  | high :: low :: tail => exact absurd rfl (short high low tail)

/-- A text is decoded when each of its escapes is read. -/
theorem exists_unescape_iff (text : Bytes) :
    (∃ result, unescape text = .ok result) ↔
      ∀ escape ∈ escapes text, isRejected escape = false := by
  induction text using escapes.induct with
  | case1 => simp [unescape, escapes]
  | case2 high low rest induction =>
      rw [escapes, if_pos rfl]
      simp only [List.forall_mem_cons, ← induction, isRejected_eq]
      rcases unescape_escape high low rest with ⟨byte, read, decodes⟩ | ⟨read, exception, fails⟩
      · rw [read, decodes]
        cases unescape rest with
        | error exception => simp [Except.map]
        | ok result => simp [Except.map]
      · rw [read, fails]
        simp
  | case3 rest short =>
      have fails : ∃ exception, unescape (Bytes.chr '%' :: rest) = .error exception := by
        rw [unescape]
        · simp
        · exact short
      obtain ⟨exception, fails⟩ := fails
      rw [escapes_of_short short, fails]
      simp [(isRejected_of_short short).1]
  | case4 byte rest notPercent induction =>
      rw [escapes_of_ne notPercent, unescape_of_ne notPercent, ← induction]
      cases unescape rest with
      | error exception => simp [Except.map]
      | ok result => simp [Except.map]

theorem isHexPair_pair (high low : Byte) :
    isHexPair [high, low] = (hexByte high low).isSome := by
  rw [isHexPair, hexByte_isSome]

/-- A text denotes another one when each of its escapes is two hexadecimal digits. -/
theorem exists_denotes_iff (text : Bytes) :
    (∃ result, Denotes text result) ↔ ∀ escape ∈ escapes text, isHexPair escape = true := by
  induction text using escapes.induct with
  | case1 => simpa [escapes] using ⟨[], Denotes.nil⟩
  | case2 high low rest induction =>
      rw [escapes, if_pos rfl]
      simp only [List.forall_mem_cons, ← induction, isHexPair_pair]
      constructor
      · rintro ⟨result, denotes⟩
        cases denotes with
        | plain notPercent tail => exact absurd rfl notPercent
        | escape digits tail => exact ⟨by rw [digits]; rfl, _, tail⟩
      · rintro ⟨digits, result, tail⟩
        obtain ⟨byte, denotes⟩ := Option.isSome_iff_exists.mp digits
        exact ⟨byte :: result, .escape denotes tail⟩
  | case3 rest short =>
      rw [escapes_of_short short]
      simp only [List.forall_mem_singleton, (isRejected_of_short short).2]
      constructor
      · rintro ⟨result, denotes⟩
        cases denotes with
        | plain notPercent tail => exact absurd rfl notPercent
        | escape digits tail => exact absurd rfl (short _ _ _)
      · intro impossible
        contradiction
  | case4 byte rest notPercent induction =>
      rw [escapes_of_ne notPercent, ← induction]
      constructor
      · rintro ⟨result, denotes⟩
        cases denotes with
        | plain notPercent tail => exact ⟨_, tail⟩
        | escape digits tail => exact absurd rfl notPercent
      · rintro ⟨result, tail⟩
        exact ⟨byte :: result, .plain notPercent tail⟩

/-- A text that denotes another one is decoded to it. -/
theorem unescape_of_denotes {text result : Bytes} (denotes : Denotes text result) :
    unescape text = .ok result := by
  induction denotes with
  | nil => rfl
  | plain notPercent tail induction =>
      rw [unescape_of_ne notPercent, induction]
      rfl
  | @escape high low byte rest result digits tail induction =>
      have read := readEscape_of_hexByte digits
      rcases unescape_escape high low rest with ⟨other, same, decodes⟩ | ⟨none, exception, fails⟩
      · rw [read, Option.some.injEq] at same
        rw [decodes, induction, same]
        rfl
      · rw [read] at none
        contradiction

theorem not_isHexPair_of_isLenient {escape : Bytes} (lenient : isLenient escape = true) :
    isHexPair escape = false := by
  match escape with
  | [] => rfl
  | [byte] => rfl
  | [high, low] =>
      by_contra hexPair
      have digits : isHex high = true ∧ isHex low = true := by
        simpa [isHexPair] using hexPair
      have highOnly := isDigitOnly_of_isHex digits.1
      have lowOnly := isDigitOnly_of_isHex digits.2
      simp [isLenient, highOnly.notZero, highOnly.notSpace, highOnly.notMinus, highOnly.notPlus,
        lowOnly.notZero] at lenient
  | _ :: _ :: _ :: _ => rfl

/-- A text is decoded strictly unless it has a lenient escape and none that is rejected. -/
theorem decodesStrictly_iff (text : Bytes) :
    DecodesStrictly text ↔
      ((∃ escape ∈ escapes text, isLenient escape = true) →
        ∃ escape ∈ escapes text, isRejected escape = true) := by
  constructor
  · rintro ⟨decoded, refused⟩ ⟨escape, member, lenient⟩
    by_contra noneRejected
    have read : ∃ result, unescape text = .ok result := by
      rw [exists_unescape_iff]
      simpa using noneRejected
    have notDenotes : ¬∃ result, Denotes text result := by
      rw [exists_denotes_iff]
      intro allDigits
      have digits := allDigits escape member
      rw [not_isHexPair_of_isLenient lenient] at digits
      contradiction
    obtain ⟨result, decodes⟩ := read
    obtain ⟨exception, fails⟩ := refused notDenotes
    rw [decodes] at fails
    contradiction
  · intro accompanied
    constructor
    · intro result denotes
      exact unescape_of_denotes denotes
    · intro notDenotes
      rw [exists_denotes_iff] at notDenotes
      push Not at notDenotes
      obtain ⟨escape, member, notHexPair⟩ := notDenotes
      have rejected : ∃ escape ∈ escapes text, isRejected escape = true := by
        cases lenient : isLenient escape with
        | true => exact accompanied ⟨escape, member, lenient⟩
        | false => exact ⟨escape, member, by simp [isRejected, notHexPair, lenient]⟩
      cases decodes : unescape text with
      | error exception => exact ⟨exception, rfl⟩
      | ok result =>
          have noneRejected := (exists_unescape_iff text).mp ⟨result, decodes⟩
          obtain ⟨other, otherMember, isRejected⟩ := rejected
          rw [noneRejected other otherMember] at isRejected
          contradiction

/-- A sign in front of a digit is read as a part of the number. -/
theorem not_decodesStrictly_sign : ¬DecodesStrictly (Bytes.str "a%+1") := by
  intro strict
  have notDenotes : ¬∃ result, Denotes (Bytes.str "a%+1") result := by
    rw [exists_denotes_iff]
    decide
  obtain ⟨exception, fails⟩ := strict.refused notDenotes
  have decodes : unescape (Bytes.str "a%+1") = .ok [Bytes.chr 'a', Bytes.ofNat 1] := by decide
  rw [decodes] at fails
  contradiction

end UrlQuery

end Wdb2ts
