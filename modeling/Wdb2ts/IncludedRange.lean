import Wdb2ts.SymbolThunder

/-!
# The symbols that include a period

In a sorted holder the symbols that include a period are next to each other.  The range of
`findSymbolsIncludedRange` stops at a symbol that does not include the period, or one symbol too
early at the end of the list.
-/

namespace Wdb2ts

namespace SymbolHolder

/-! ## Blocks -/

section Blocks

variable {α : Type} {included : α → Bool} {elements : List α}

/-- The positions of a half-open range hold the included elements: it begins at the first one, all
of its elements are included, it cannot be extended, and it has every included element. -/
structure IsBlock (included : α → Bool) (elements : List α) (range : ℕ × ℕ) : Prop where
  begins : range.1 = elements.findIdx included
  ordered : range.1 ≤ range.2
  bounded : range.2 ≤ elements.length
  inside : ∀ position (inBounds : position < elements.length), range.1 ≤ position →
    position < range.2 → included elements[position] = true
  maximal : ∀ inBounds : range.2 < elements.length, included elements[range.2] = false
  complete : ∀ position (inBounds : position < elements.length),
    included elements[position] = true → range.1 ≤ position ∧ position < range.2

/-- Both of the last two elements are included. -/
def LastTwo (included : α → Bool) (elements : List α) : Prop :=
  ∃ front second last, elements = front ++ [second, last] ∧ included second = true ∧
    included last = true

theorem lastTwo_iff : LastTwo included elements ↔
    ∃ position, ∃ inBounds : position < elements.length, ∃ before : position - 1 < elements.length,
      position + 1 = elements.length ∧ 0 < position ∧ included elements[position - 1] = true ∧
        included elements[position] = true := by
  constructor
  · rintro ⟨front, second, last, rfl, isSecond, isLast⟩
    refine ⟨front.length + 1, by simp, by simp, by simp, Nat.succ_pos _, ?_, ?_⟩
    · simpa using isSecond
    · simpa [List.getElem_append_right] using isLast
  · rintro ⟨position, inBounds, before, atEnd, positive, isSecond, isLast⟩
    refine ⟨elements.take (position - 1), elements[position - 1], elements[position], ?_, isSecond,
      isLast⟩
    have behindSecond : elements.drop (position - 1) =
        elements[position - 1] :: elements.drop position := by
      rw [List.drop_eq_getElem_cons before, Nat.sub_add_cancel positive]
    have behindLast : elements.drop position = [elements[position]] := by
      rw [List.drop_eq_getElem_cons inBounds, List.drop_of_length_le atEnd.ge]
    rw [← behindLast, ← behindSecond, List.take_append_drop]

/-- The range begins at the first included element, and it is a range of the list. -/
theorem includedRange_bounds (included : α → Bool) (elements : List α) :
    (includedRange included elements).1 = elements.findIdx included ∧
      (includedRange included elements).1 ≤ (includedRange included elements).2 ∧
        (includedRange included elements).2 ≤ elements.length := by
  rw [includedRange]
  by_cases none : elements.findIdx included = elements.length
  · simp only [none, if_true]
    exact ⟨trivial, le_rfl, le_rfl⟩
  · have begins : elements.findIdx included < elements.length :=
      lt_of_le_of_ne List.findIdx_le_length none
    have stops : (elements.drop (elements.findIdx included + 1)).findIdx
        (fun element => !included element) ≤ elements.length - (elements.findIdx included + 1) := by
      rw [← List.length_drop]
      exact List.findIdx_le_length
    simp only [if_neg none, includedEnd_eq, List.length_drop]
    refine ⟨trivial, ?_⟩
    split
    · omega
    · omega

/-- When the included elements are next to each other, the range is their block exactly when not
both of the last two elements are included. -/
theorem isBlock_iff (contiguous : Contiguous included elements) :
    IsBlock included elements (includedRange included elements) ↔
      ¬LastTwo included elements := by
  obtain ⟨begins, ordered, bounded⟩ := includedRange_bounds included elements
  rw [lastTwo_iff]
  constructor
  · rintro block ⟨position, inBounds, before, atEnd, positive, isSecond, isLast⟩
    have found := (mem_includedRange contiguous inBounds).mp
      (block.complete position inBounds isLast)
    exact found.2 ⟨atEnd, positive, isSecond⟩
  · intro notBoth
    have complete (position : ℕ) (inBounds : position < elements.length)
        (isIncluded : included elements[position] = true) :
        (includedRange included elements).1 ≤ position ∧
          position < (includedRange included elements).2 :=
      (mem_includedRange contiguous inBounds).mpr ⟨isIncluded, fun skipped =>
        notBoth ⟨position, inBounds, by omega, skipped.1, skipped.2.1, skipped.2.2, isIncluded⟩⟩
    exact {
      begins := begins
      ordered := ordered
      bounded := bounded
      inside := fun position inBounds notBefore isBefore =>
        ((mem_includedRange contiguous inBounds).mp ⟨notBefore, isBefore⟩).1
      maximal := fun inBounds => by
        rw [← Bool.not_eq_true]
        exact fun isIncluded => (complete _ inBounds isIncluded).2.false
      complete := complete }

end Blocks

/-! ## Symbols -/

section Symbols

variable {S F : Type} [SymbolMaker S F]

/-- `MiTime` as a `ptime`, as in `Symbol::fromAndToTime`. -/
def toPTime (time : MiTime) : PTime := .ticks (time * 1000000)

theorem toPTime_le_toPTime {earlier later : MiTime} :
    toPTime earlier ≤ toPTime later ↔ earlier ≤ later := by
  rw [toPTime, toPTime, PTime.ticks_le_ticks]
  exact mul_le_mul_iff_of_pos_right (by decide)

/-- The test of `findSymbolsIncludedRange`. -/
def includes (fromTime toTime : PTime) (symbol : Symbol S F) : Bool :=
  decide (toPTime symbol.fromTime ≤ fromTime) && decide (toTime ≤ toPTime symbol.toTime)

/-- `findSymbolsIncludedRange`, for any times. -/
def symbolsIncludedRange (holder : SymbolHolder S F) (fromTime toTime : PTime) : ℕ × ℕ :=
  includedRange (includes fromTime toTime) holder.symbols_

/-- The range of the period of a symbol. -/
theorem symbolsIncludedRange_toPTime (holder : SymbolHolder S F) (fromTime toTime : MiTime) :
    holder.symbolsIncludedRange (toPTime fromTime) (toPTime toTime) =
      findSymbolsIncludedRange holder.symbols_ fromTime toTime := by
  rw [symbolsIncludedRange, findSymbolsIncludedRange]
  congr
  funext symbol
  rw [includes, decide_eq_decide.mpr toPTime_le_toPTime, decide_eq_decide.mpr toPTime_le_toPTime]

/-- The symbols that include a period are next to each other in a sorted holder. -/
theorem Sorted.contiguous {holder : SymbolHolder S F} (sorted : holder.Sorted)
    (fromTime toTime : PTime) : Contiguous (includes fromTime toTime) holder.symbols_ := by
  intro first middle last inBounds lower upper isFirst isLast
  have notBehind := List.pairwise_iff_getElem.mp sorted middle last (by omega) inBounds upper
  have laterEnd := sorted.toTime_le (inBounds.trans' upper) lower
  simp only [includes, Bool.and_eq_true, decide_eq_true_eq] at isFirst isLast ⊢
  exact ⟨(toPTime_le_toPTime.mpr notBehind).trans isLast.1,
    isFirst.2.trans (toPTime_le_toPTime.mpr laterEnd)⟩

/-- The range of a sorted holder is the block of the symbols that include the period exactly when
not both of its last two symbols do. -/
theorem symbolsIncludedRange_isBlock_iff {holder : SymbolHolder S F} (sorted : holder.Sorted)
    (fromTime toTime : PTime) :
    IsBlock (includes fromTime toTime) holder.symbols_
        (holder.symbolsIncludedRange fromTime toTime) ↔
      ¬LastTwo (includes fromTime toTime) holder.symbols_ :=
  isBlock_iff (sorted.contiguous fromTime toTime)

end Symbols

/-- Two symbols of six hours, one hour apart. -/
def sixHours : SymbolHolder PlainSymbol ℚ :=
  ((create 5 0).addSymbol (.ticks (PTime.hours 6)) 10 60 true 1).addSymbol
    (.ticks (PTime.hours 7)) 10 60 true 1

theorem symbolsIncludedRange_isBlock_iff_firstHour :
    IsBlock (includes (.ticks 0) (.ticks (PTime.hours 1))) sixHours.symbols_
        (sixHours.symbolsIncludedRange (.ticks 0) (.ticks (PTime.hours 1))) ↔
      ¬LastTwo (includes (.ticks 0) (.ticks (PTime.hours 1))) sixHours.symbols_ :=
  symbolsIncludedRange_isBlock_iff (by decide +kernel) _ _

/-- Both symbols include the third hour, and the range has the first one only. -/
theorem not_isBlock_thirdHour :
    sixHours.Sorted ∧
      sixHours.symbols_.map (includes (.ticks (PTime.hours 2)) (.ticks (PTime.hours 3))) =
        [true, true] ∧
      sixHours.symbolsIncludedRange (.ticks (PTime.hours 2)) (.ticks (PTime.hours 3)) = (0, 1) ∧
      ¬IsBlock (includes (.ticks (PTime.hours 2)) (.ticks (PTime.hours 3))) sixHours.symbols_
        (sixHours.symbolsIncludedRange (.ticks (PTime.hours 2)) (.ticks (PTime.hours 3))) := by
  have range : sixHours.symbolsIncludedRange (.ticks (PTime.hours 2)) (.ticks (PTime.hours 3)) =
      (0, 1) := by
    decide +kernel
  refine ⟨by decide +kernel, by decide +kernel, range, ?_⟩
  intro block
  have last := (block.complete 1 (by decide +kernel) (by decide +kernel)).2
  rw [range] at last
  exact absurd last (by decide)

end SymbolHolder

end Wdb2ts
