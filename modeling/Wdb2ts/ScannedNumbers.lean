import Wdb2ts.Decimal

/-!
# Numbers in front of a text

`sscanf` with `%d` reads the number behind the blanks of a text, and what is behind the number does
not matter.
-/

namespace Wdb2ts

/-- A sign in front of the digits of a number. -/
inductive Signed : Bytes → ℕ → ℤ → Prop where
  | none (number : ℕ) : Signed [] number number
  | plus (number : ℕ) : Signed (Bytes.str "+") number number
  | minus (number : ℕ) : Signed (Bytes.str "-") number (-number)

/-- A text with a number behind its blanks. -/
structure BeginsWith (text : Bytes) (number : ℤ) : Prop where
  parts : ∃ blanks sign digits rest, text = blanks ++ (sign ++ (digits ++ rest)) ∧
    (∀ byte ∈ blanks, isSpace byte = true) ∧ digits ≠ [] ∧
    (∀ byte ∈ digits, isDigit byte = true) ∧ (∀ byte ∈ rest.head?, isDigit byte = false) ∧
    Signed sign (decimalNumber digits 0) number

theorem noEnd_of_isSpace {byte : Byte} (blank : isSpace byte = true) :
    byte ≠ Bytes.chr (Char.ofNat 0) := by
  rintro rfl
  exact absurd blank (by decide)

/-- The bytes in front of the end of a string. -/
theorem cString_append {front : Bytes} (noEnd : ∀ byte ∈ front, byte ≠ Bytes.chr (Char.ofNat 0))
    (rest : Bytes) : cString (front ++ rest) = front ++ cString rest := by
  rw [cString, cString, List.takeWhile_append_of_pos]
  intro byte member
  exact decide_eq_true (noEnd byte member)

/-- What is left of a text does not begin with what was dropped. -/
theorem head?_dropWhile {drops : Byte → Bool} {text : Bytes} {byte : Byte}
    (first : (text.dropWhile drops).head? = some byte) : drops byte = false := by
  have notDropped := List.head?_dropWhile_not drops text
  rw [first] at notDropped
  exact notDropped

/-- Digits end where there is no digit. -/
theorem decimalNumber_append_rest {digits rest : Bytes}
    (allDigits : ∀ byte ∈ digits, isDigit byte = true)
    (ends : ∀ byte ∈ rest.head?, isDigit byte = false) :
    decimalNumber (digits ++ rest) 0 = decimalNumber digits 0 := by
  rw [decimalNumber_append allDigits]
  cases rest with
  | nil => rfl
  | cons first others => rw [decimalNumber, ends first rfl, if_neg Bool.false_ne_true]

/-- The end of a string is no digit either. -/
theorem head?_cString {rest : Bytes} (ends : ∀ byte ∈ rest.head?, isDigit byte = false) :
    ∀ byte ∈ (cString rest).head?, isDigit byte = false := by
  intro byte first
  cases rest with
  | nil => cases first
  | cons other others =>
      rw [cString, List.takeWhile_cons] at first
      split at first
      · cases first
        exact ends _ rfl
      · cases first

theorem Signed.noEnd {sign : Bytes} {digits : ℕ} {number : ℤ} (signed : Signed sign digits number) :
    ∀ byte ∈ sign, byte ≠ Bytes.chr (Char.ofNat 0) := by
  cases signed with
  | none => exact nofun
  | plus => decide +kernel
  | minus => decide +kernel

/-- A number in front of a text is scanned, in the range of `int`. -/
theorem scanInt_of_beginsWith {text : Bytes} {number : ℤ} (begins : BeginsWith text number) :
    scanInt text = some (toInt32 (toLong number)) := by
  obtain ⟨blanks, sign, digits, rest, rfl, isBlank, notEmpty, allDigits, ends, signed⟩ :=
    begins.parts
  have value := decimalNumber_append_rest allDigits (head?_cString ends)
  have skips (other : Bytes) (notBlank : ∀ byte ∈ other.head?, isSpace byte = false) :
      (blanks ++ other).dropWhile isSpace = other := by
    rw [List.dropWhile_append_of_pos isBlank]
    exact Bytes.dropWhile_of_head? notBlank
  have blanksNoEnd : ∀ byte ∈ blanks, byte ≠ Bytes.chr (Char.ofNat 0) :=
    fun byte member => noEnd_of_isSpace (isBlank byte member)
  have digitsNoEnd : ∀ byte ∈ digits, byte ≠ Bytes.chr (Char.ofNat 0) :=
    fun byte member => noEnd_of_isDigit (allDigits byte member)
  cases digits with
  | nil => exact absurd rfl notEmpty
  | cons first others =>
      have isFirst := allDigits first List.mem_cons_self
      have notSign := not_sign_of_isDigit isFirst
      rw [scanInt, cString_append blanksNoEnd, cString_append signed.noEnd,
        cString_append digitsNoEnd]
      cases signed with
      | none =>
          rw [List.nil_append, skips _ (by rintro byte ⟨⟩; exact isSpace_of_isDigit isFirst)]
          dsimp only [List.cons_append] at value ⊢
          rw [if_neg notSign, if_pos isFirst, value]
      | plus =>
          have starts : Bytes.str "+" ++ (first :: others ++ cString rest) =
              Bytes.chr '+' :: (first :: others ++ cString rest) := rfl
          rw [starts, skips _ (by rintro byte ⟨⟩; decide)]
          dsimp only [List.cons_append] at value ⊢
          rw [if_pos (Or.inr rfl), if_pos (by simpa using isFirst), if_neg (by decide), value]
      | minus =>
          have starts : Bytes.str "-" ++ (first :: others ++ cString rest) =
              Bytes.chr '-' :: (first :: others ++ cString rest) := rfl
          rw [starts, skips _ (by rintro byte ⟨⟩; decide)]
          dsimp only [List.cons_append] at value ⊢
          rw [if_pos (Or.inl rfl), if_pos (by simpa using isFirst), if_pos rfl, value]

/-- The digits behind the blanks and the sign of a text are its number. -/
theorem beginsWith_of_dropWhile {text sign number : Bytes} {value : ℤ}
    (isNumber : (cString text).dropWhile isSpace = sign ++ number)
    (digit : (number.head?.map isDigit).getD false = true)
    (signed : Signed sign (decimalNumber (number.takeWhile isDigit) 0) value) :
    BeginsWith text value := by
  refine ⟨(cString text).takeWhile isSpace, sign, number.takeWhile isDigit,
    number.dropWhile isDigit ++ text.dropWhile fun byte => byte ≠ Bytes.chr (Char.ofNat 0), ?_,
    fun byte member => List.all_eq_true.mp List.all_takeWhile byte member, ?_,
    fun byte member => List.all_eq_true.mp List.all_takeWhile byte member, ?_, signed⟩
  · rw [← List.append_assoc (number.takeWhile isDigit), List.takeWhile_append_dropWhile,
      ← List.append_assoc sign, ← isNumber, ← List.append_assoc, List.takeWhile_append_dropWhile,
      cString, List.takeWhile_append_dropWhile]
  · cases number with
    | nil => cases digit
    | cons first others =>
        have isFirst : isDigit first = true := digit
        rw [List.takeWhile_cons_of_pos isFirst]
        exact List.cons_ne_nil _ _
  · intro byte first
    rw [List.head?_append] at first
    cases behind : (number.dropWhile isDigit).head? with
    | some other =>
        rw [behind] at first
        cases first
        exact head?_dropWhile behind
    | none =>
        rw [behind] at first
        have isEnd := head?_dropWhile first
        rw [decide_eq_false_iff_not, not_not] at isEnd
        rw [isEnd]
        decide

/-- A text in front of which a number is scanned has one there. -/
theorem exists_beginsWith {text : Bytes} {scanned : ℤ} (found : scanInt text = some scanned) :
    ∃ number, BeginsWith text number := by
  rw [scanInt] at found
  split at found
  · cases found
  · next sign digits isNumber =>
      split at found
      · next isSign =>
          split at found
          · next digit =>
              rcases isSign with rfl | rfl
              · have isText : (cString text).dropWhile isSpace = Bytes.str "-" ++ digits := isNumber
                exact ⟨_, beginsWith_of_dropWhile isText digit (.minus _)⟩
              · have isText : (cString text).dropWhile isSpace = Bytes.str "+" ++ digits := isNumber
                exact ⟨_, beginsWith_of_dropWhile isText digit (.plus _)⟩
          · cases found
      · split at found
        · next digit =>
            have isText : (cString text).dropWhile isSpace = [] ++ (sign :: digits) := isNumber
            exact ⟨_, beginsWith_of_dropWhile isText digit (.none _)⟩
        · cases found

/-- A number of digits alone. -/
theorem beginsWith_digits {digits : Bytes} (notEmpty : digits ≠ [])
    (allDigits : ∀ byte ∈ digits, isDigit byte = true) :
    BeginsWith digits (decimalNumber digits 0) :=
  ⟨[], [], digits, [], (List.append_nil digits).symm, nofun, notEmpty, allDigits, nofun, .none _⟩

/-- A number of an `int` is scanned as it is. -/
theorem toInt32_toLong {number : ℤ} (lower : -2147483648 ≤ number) (upper : number ≤ 2147483647) :
    toInt32 (toLong number) = number := by
  rw [toLong, if_neg (by omega), if_neg (by omega), toInt32]
  omega

end Wdb2ts
