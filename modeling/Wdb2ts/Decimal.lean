import Wdb2ts.UrlParam

/-!
# Decimal numbers as text

Numbers are printed by `ostream` and by `printf`, and the digits are read back by `atoi`.
-/

namespace Wdb2ts

/-! ## Digits -/

section Digits

variable {byte : Byte}

theorem isSpace_of_isDigit (digit : isDigit byte = true) : isSpace byte = false := by
  simp only [isDigit, decide_eq_true_eq] at digit
  simp only [isSpace, decide_eq_false_iff_not]
  omega

theorem not_sign_of_isDigit (digit : isDigit byte = true) :
    ¬(byte = Bytes.chr '-' ∨ byte = Bytes.chr '+') := by
  rintro (rfl | rfl)
  · exact absurd digit (by decide)
  · exact absurd digit (by decide)

theorem noEnd_of_isDigit (digit : isDigit byte = true) : byte ≠ Bytes.chr (Char.ofNat 0) := by
  rintro rfl
  exact absurd digit (by decide)

/-- Digits begin with no sign. -/
theorem filter_sign_take {digits : Bytes} (allDigits : ∀ byte ∈ digits, isDigit byte = true)
    (count : ℕ) : (digits.take count).filter
      (fun byte => byte = Bytes.chr '-' ∨ byte = Bytes.chr '+') = [] := by
  rw [List.filter_eq_nil_iff]
  intro byte member sign
  exact not_sign_of_isDigit (allDigits byte (List.mem_of_mem_take member)) (of_decide_eq_true sign)

end Digits

/-! ## Printed numbers -/

/-- `boost::lexical_cast<int>`. -/
def lexicalCastInt (text : Bytes) : Option ℤ :=
  let sign := (text.take 1).filter fun byte => byte = Bytes.chr '-' ∨ byte = Bytes.chr '+'
  let digits := text.drop sign.length
  let number : ℤ := decimalNumber digits 0
  let value := if sign = [Bytes.chr '-'] then -number else number
  if digits.isEmpty ∨ ¬digits.all isDigit then none
  else if value < -2147483648 ∨ 2147483647 < value then none
  else some value

/-- `printf` of a number with `%d`, filled up with zeros to a width. -/
def zeroPadded (width number : ℕ) : Bytes :=
  List.replicate (width - (printNat number).length) (Bytes.chr '0') ++ printNat number

theorem isDigit_of_mem_zeroPadded {width number : ℕ} {byte : Byte}
    (member : byte ∈ zeroPadded width number) : isDigit byte = true := by
  rcases List.mem_append.mp member with inZeros | inDigits
  · rw [List.eq_of_mem_replicate inZeros]
    decide
  · exact isDigit_of_mem_printNat inDigits

/-- Digits are read one after the other. -/
theorem decimalNumber_append {digits : Bytes} (allDigits : ∀ byte ∈ digits, isDigit byte = true)
    (rest : Bytes) (number : ℕ) :
    decimalNumber (digits ++ rest) number = decimalNumber rest (decimalNumber digits number) := by
  induction digits generalizing number with
  | nil => rfl
  | cons byte others ih =>
      have here := allDigits byte List.mem_cons_self
      simp only [List.cons_append, decimalNumber, here, if_true]
      exact ih (fun other member => allDigits other (List.mem_cons_of_mem byte member)) _

theorem decimalNumber_map {digits : List Char} (allDigits : ∀ digit ∈ digits, digit.isDigit = true)
    (number : ℕ) :
    decimalNumber (digits.map Bytes.chr) number = Nat.ofDigitChars 10 digits number := by
  induction digits generalizing number with
  | nil => rfl
  | cons digit others ih =>
      have here := isDigit_chr (allDigits digit List.mem_cons_self)
      have zero : ('0' : Char).toNat = 48 := rfl
      rw [List.map_cons, decimalNumber, here.1, if_pos rfl, here.2, Nat.ofDigitChars_cons, zero,
        Nat.mul_comm]
      exact ih (fun other member => allDigits other (List.mem_cons_of_mem digit member)) _

/-- A printed number is read back. -/
theorem decimalNumber_printNat (number : ℕ) : decimalNumber (printNat number) 0 = number := by
  rw [printNat, decimalNumber_map fun digit isIn =>
    Nat.isDigit_of_mem_toDigits (by decide) (by decide) isIn]
  exact Nat.ofDigitChars_toDigits (by decide) (by decide)

theorem decimalNumber_replicate_zero (count : ℕ) :
    decimalNumber (List.replicate count (Bytes.chr '0')) 0 = 0 := by
  induction count with
  | zero => rfl
  | succ count ih =>
      rw [List.replicate_succ, decimalNumber, if_pos (by decide)]
      exact ih

/-- A padded number is read back. -/
theorem decimalNumber_zeroPadded (width number : ℕ) :
    decimalNumber (zeroPadded width number) 0 = number := by
  have zeros : ∀ byte ∈ List.replicate (width - (printNat number).length) (Bytes.chr '0'),
      isDigit byte = true := by
    intro byte member
    rw [List.eq_of_mem_replicate member]
    decide
  rw [zeroPadded, decimalNumber_append zeros, decimalNumber_replicate_zero, decimalNumber_printNat]

/-- A number with few digits is filled up to the width. -/
theorem length_zeroPadded {width number : ℕ} (positive : 0 < width) (fits : number < 10 ^ width) :
    (zeroPadded width number).length = width := by
  have short : (Nat.toDigits 10 number).length ≤ width :=
    (Nat.length_toDigits_le_iff (by decide) positive).mpr fits
  simp only [zeroPadded, printNat, List.length_append, List.length_replicate, List.length_map]
  omega

/-- A printed number is cast back. -/
theorem lexicalCastInt_printInt {number : ℤ} (lower : -2147483648 ≤ number)
    (upper : number ≤ 2147483647) : lexicalCastInt (printInt number) = some number := by
  have digits : ∀ byte ∈ printNat number.natAbs, isDigit byte = true :=
    fun _ member => isDigit_of_mem_printNat member
  have allDigits : (printNat number.natAbs).all isDigit = true := List.all_eq_true.mpr digits
  have some : printNat number.natAbs ≠ [] := by simp [printNat]
  have noSign := filter_sign_take digits 1
  rw [printInt]
  by_cases negative : number < 0
  · have sign : ((Bytes.chr '-' :: printNat number.natAbs).take 1).filter
        (fun byte => byte = Bytes.chr '-' ∨ byte = Bytes.chr '+') = [Bytes.chr '-'] := rfl
    rw [if_pos negative]
    simp only [lexicalCastInt, sign, List.length_singleton, List.drop_one, List.tail_cons, allDigits,
      decimalNumber_printNat, List.isEmpty_iff, some, if_true, not_true, or_self, if_false]
    rw [if_neg (by omega)]
    congr 1
    omega
  · rw [if_neg negative]
    simp only [lexicalCastInt, noSign, List.length_nil, List.drop_zero, decimalNumber_printNat,
      allDigits, List.isEmpty_iff, some, not_true, or_self, if_false, List.nil_eq,
      List.cons_ne_nil]
    rw [if_neg (by omega)]
    congr 1
    omega

end Wdb2ts
