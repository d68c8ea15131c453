import Mathlib.Tactic
import Mathlib.Data.List.Lex
import Mathlib.Data.List.TakeWhile
import Mathlib.Order.Fin.Basic

/-!
# Byte strings

A string is a list of bytes, compared lexicographically by unsigned byte value.
Character and string literals are written with `chr` and `str`.
-/

universe u

/-- One byte of a string, as an unsigned number. -/
abbrev Byte := Fin 256

/-- A byte string. -/
abbrev Bytes := List Byte

namespace Bytes

/-- The byte of a number, modulo 256. -/
def ofNat (number : ℕ) : Byte := ⟨number % 256, Nat.mod_lt number (Nat.succ_pos 255)⟩

/-- The byte of an ASCII character. -/
def chr (character : Char) : Byte := ofNat character.toNat

/-- The bytes of an ASCII literal. -/
def str (literal : String) : Bytes := literal.toList.map chr

/-- Drop the leading and the trailing bytes that satisfy `blank`. -/
def trimBy (blank : Byte → Bool) (text : Bytes) : Bytes :=
  ((text.dropWhile blank).reverse.dropWhile blank).reverse

@[simp] theorem val_ofNat (number : ℕ) : (ofNat number).val = number % 256 := rfl

/-- The text neither starts nor ends with a blank. -/
def TrimmedBy (blank : Byte → Bool) (text : Bytes) : Prop :=
  (∀ byte, text.head? = some byte → blank byte = false) ∧
    ∀ byte, text.getLast? = some byte → blank byte = false

theorem TrimmedBy.mono {blank other : Byte → Bool} {text : Bytes} (trimmed : TrimmedBy blank text)
    (weaker : ∀ byte, other byte = true → blank byte = true) : TrimmedBy other text := by
  have notOther : ∀ byte, blank byte = false → other byte = false := by
    intro byte notBlank
    by_contra isOther
    rw [weaker byte (by simpa using isOther)] at notBlank
    cases notBlank
  exact ⟨fun byte first => notOther byte (trimmed.1 byte first),
    fun byte last => notOther byte (trimmed.2 byte last)⟩

/-- The ends of a text decide whether it is trimmed. -/
theorem TrimmedBy.append {blank : Byte → Bool} {left right : Bytes}
    (trimmedLeft : TrimmedBy blank left) (someLeft : left ≠ []) (middle : Bytes)
    (trimmedRight : TrimmedBy blank right) (someRight : right ≠ []) :
    TrimmedBy blank (left ++ (middle ++ right)) := by
  constructor
  · intro byte first
    rw [List.head?_append_of_ne_nil left someLeft] at first
    exact trimmedLeft.1 byte first
  · intro byte last
    rw [← List.append_assoc, List.getLast?_append_of_ne_nil _ someRight] at last
    exact trimmedRight.2 byte last

theorem dropWhile_of_head? {blank : Byte → Bool} {text : Bytes}
    (notBlank : ∀ byte, text.head? = some byte → blank byte = false) :
    text.dropWhile blank = text := by
  cases text with
  | nil => rfl
  | cons byte rest =>
      rw [List.dropWhile_cons, notBlank byte rfl]
      rfl

/-- Trimming removes the blanks around a trimmed text. -/
theorem TrimmedBy.trimBy_append {blank : Byte → Bool} {text : Bytes}
    (trimmed : TrimmedBy blank text) (before after : Bytes)
    (blanksBefore : ∀ byte ∈ before, blank byte = true)
    (blanksAfter : ∀ byte ∈ after, blank byte = true) :
    trimBy blank (before ++ text ++ after) = text := by
  cases text with
  | nil =>
      have allBlank : ∀ byte ∈ before ++ after, blank byte = true := by
        intro byte member
        rcases List.mem_append.mp member with left | right
        · exact blanksBefore byte left
        · exact blanksAfter byte right
      have nothing : (before ++ after).dropWhile blank = [] := by
        rw [← List.append_nil (before ++ after), List.dropWhile_append_of_pos allBlank]
        rfl
      rw [List.append_nil, trimBy, nothing]
      rfl
  | cons first rest =>
      have front : ((first :: rest) ++ after).dropWhile blank = (first :: rest) ++ after :=
        dropWhile_of_head? fun byte head => trimmed.1 byte head
      have back : (first :: rest).reverse.dropWhile blank = (first :: rest).reverse := by
        apply dropWhile_of_head?
        intro byte head
        rw [List.head?_reverse] at head
        exact trimmed.2 byte head
      have blanksReversed : ∀ byte ∈ after.reverse, blank byte = true := fun byte member =>
        blanksAfter byte (List.mem_reverse.mp member)
      rw [trimBy, List.append_assoc, List.dropWhile_append_of_pos blanksBefore, front,
        List.reverse_append, List.dropWhile_append_of_pos blanksReversed, back,
        List.reverse_reverse]

theorem TrimmedBy.trimBy_eq {blank : Byte → Bool} {text : Bytes} (trimmed : TrimmedBy blank text) :
    trimBy blank text = text := by
  have whole := trimmed.trimBy_append [] [] (by simp) (by simp)
  simpa using whole

theorem trimmedBy_of_forall {blank : Byte → Bool} {text : Bytes}
    (noBlank : ∀ byte ∈ text, blank byte = false) : TrimmedBy blank text :=
  ⟨fun byte first => noBlank byte (List.mem_of_head? first),
    fun byte last => noBlank byte (List.mem_of_getLast? last)⟩

theorem trimBy_eq_self {blank : Byte → Bool} {text : Bytes}
    (noBlank : ∀ byte ∈ text, blank byte = false) : trimBy blank text = text :=
  (trimmedBy_of_forall noBlank).trimBy_eq

/-- Trimming removes a blank on each side. -/
theorem trimBy_enclosed {blank : Byte → Bool} {side : Byte} {text : Bytes}
    (isBlank : blank side = true) (noBlank : ∀ byte ∈ text, blank byte = false) :
    trimBy blank (side :: text ++ [side]) = text :=
  (trimmedBy_of_forall noBlank).trimBy_append [side] [side] (by simpa using isBlank)
    (by simpa using isBlank)

theorem mem_dropWhile_of_not {blank : Byte → Bool} {text : Bytes} {byte : Byte}
    (notBlank : blank byte = false) (member : byte ∈ text) : byte ∈ text.dropWhile blank := by
  rw [← List.takeWhile_append_dropWhile (p := blank) (l := text), List.mem_append] at member
  rcases member with before | behind
  · rw [List.mem_takeWhile_imp before] at notBlank
    cases notBlank
  · exact behind

/-- Trimming keeps what is no blank. -/
theorem mem_trimBy {blank : Byte → Bool} {text : Bytes} {byte : Byte}
    (notBlank : blank byte = false) (member : byte ∈ text) : byte ∈ trimBy blank text :=
  List.mem_reverse.mpr (mem_dropWhile_of_not notBlank
    (List.mem_reverse.mpr (mem_dropWhile_of_not notBlank member)))

/-- Trimming adds nothing. -/
theorem mem_of_mem_trimBy {blank : Byte → Bool} {text : Bytes} {byte : Byte}
    (member : byte ∈ trimBy blank text) : byte ∈ text := by
  rw [trimBy, List.mem_reverse] at member
  have inReverse := (List.dropWhile_sublist blank).subset member
  rw [List.mem_reverse] at inReverse
  exact (List.dropWhile_sublist blank).subset inReverse

/-- Trimming leaves nothing of blanks. -/
theorem trimBy_eq_nil {blank : Byte → Bool} {text : Bytes}
    (blanks : ∀ byte ∈ text, blank byte = true) : trimBy blank text = [] := by
  rw [trimBy, List.dropWhile_eq_nil_iff.mpr blanks]
  rfl

end Bytes
