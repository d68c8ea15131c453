import Wdb2ts.SymbolHolder
import Wdb2ts.Lib.KeyedLists

/-!
# Adding and merging symbols

The insertion of a symbol keeps the symbols of a holder in order, whatever order they come in, and
two holders of the same time span can be merged into one.
-/

namespace Wdb2ts

namespace SymbolHolder

variable {S F : Type} [SymbolMaker S F]

/-- The time of a symbol. -/
def symbolTime (symbol : Symbol S F) : MiTime := getTime symbol.symbol

/-- The symbols are in the order of their times, and all of them reach as far back. -/
structure InOrder (holder : SymbolHolder S F) : Prop where
  ascending : KeyedList.Ascending symbolTime holder.symbols_
  mins : ∀ symbol ∈ holder.symbols_, symbol.min = holder.min_

/-- The first symbol with a start time. -/
def symbolFrom (holder : SymbolHolder S F) (time : MiTime) : Option (Symbol S F) :=
  KeyedList.first? Symbol.fromTime holder.symbols_ time

theorem inOrder_create (min max : ℤ) : (create min max : SymbolHolder S F).InOrder where
  ascending := List.Pairwise.nil
  mins := by simp

/-- In a holder with the symbols in order a start time is a time. -/
theorem InOrder.fromTime_eq {holder : SymbolHolder S F} (inOrder : holder.InOrder)
    {symbol : Symbol S F} (member : symbol ∈ holder.symbols_) :
    symbol.fromTime = symbolTime symbol + 3600 * (-1 * holder.min_ - 1) := by
  rw [Symbol.fromTime, inOrder.mins symbol member]
  rfl

theorem InOrder.sorted {holder : SymbolHolder S F} (inOrder : holder.InOrder) : holder.Sorted := by
  apply inOrder.ascending.imp_of_mem
  intro earlier later earlierMember laterMember before
  rw [inOrder.fromTime_eq earlierMember, inOrder.fromTime_eq laterMember]
  exact add_le_add_left before _

/-- In a sorted holder `findSymbol` finds the first symbol that starts at a whole minute. -/
theorem Sorted.findSymbol_eq {holder : SymbolHolder S F} (sorted : holder.Sorted) (minutes : ℤ) :
    holder.findSymbol (.ticks (60000000 * minutes)) = holder.symbolFrom (60 * minutes) := by
  rw [findSymbol, Int.mul_ediv_cancel_left minutes (by decide)]
  exact KeyedList.Ascending.first?_eq sorted (60 * minutes)

/-! ## Adding -/

/-- Every way `addSymbol` inserts a symbol is insertion in the order of times. -/
theorem insertSymbol_eq_insert (new : Symbol S F) {symbols : List (Symbol S F)}
    (ascending : KeyedList.Ascending symbolTime symbols) :
    insertSymbol (symbolTime new) new symbols = KeyedList.insert symbolTime new symbols := by
  simp only [insertSymbol]
  split
  · rename_i none
    rw [List.getLast?_eq_none_iff.mp none]
    rfl
  · rename_i last isLast
    split
    · rename_i before
      apply Eq.symm
      apply KeyedList.insert_eq_append
      intro symbol member
      rcases List.getLast?_eq_some_iff.mp isLast with ⟨front, split⟩
      rw [split] at ascending member
      have notAfter : symbolTime symbol ≤ symbolTime last := by
        rcases List.mem_append.mp member with inFront | same
        · exact (List.pairwise_append.mp ascending).2.2 symbol inFront last
            (List.mem_singleton_self _)
        · rw [List.mem_singleton.mp same]
      exact notAfter.trans_lt before
    · exact KeyedList.insertIdx_findIdx new symbols

variable [Inhabited S]

section KeepsTimes

variable (keeps : SymbolMaker.KeepsTimes S)

include keeps

theorem symbolTime_newSymbol (holder : SymbolHolder S F) (miT : MiTime) (custNumber : ℤ)
    (latitude : F) (withOutStateOfAgregate : Bool) (proability : F) :
    symbolTime (holder.newSymbol miT custNumber latitude withOutStateOfAgregate proability) =
      miT := by
  simp only [symbolTime, newSymbol, keeps.getTime_setLightStat, keeps.getTime_setTime]

theorem InOrder.addSymbol {holder : SymbolHolder S F} (inOrder : holder.InOrder) (time : PTime)
    (custNumber : ℤ) (latitude : F) (withOutStateOfAgregate : Bool) (proability : F) :
    (holder.addSymbol time custNumber latitude withOutStateOfAgregate proability).InOrder := by
  simp only [SymbolHolder.addSymbol]
  split
  · exact inOrder
  · rename_i miT _
    split
    · constructor
      · have inserted := insertSymbol_eq_insert (holder.newSymbol miT custNumber latitude
          withOutStateOfAgregate proability) inOrder.ascending
        rw [symbolTime_newSymbol keeps] at inserted
        simp only [inserted]
        exact inOrder.ascending.insert _
      · intro symbol member
        rcases mem_insertSymbol.mp member with same | old
        · rw [same]
          rfl
        · exact inOrder.mins symbol old
    · exact inOrder

/-- The arguments of an `addSymbol` call. -/
structure Addition (F : Type) where
  time : PTime
  custNumber : ℤ
  latitude : F
  withOutStateOfAgregate : Bool
  proability : F

/-- `addSymbol` calls one after the other. -/
def addSymbols (holder : SymbolHolder S F) (additions : List (Addition F)) : SymbolHolder S F :=
  additions.foldl (fun holder addition =>
    holder.addSymbol addition.time addition.custNumber addition.latitude
      addition.withOutStateOfAgregate addition.proability) holder

omit keeps in
theorem min_addSymbol (holder : SymbolHolder S F) (time : PTime) (custNumber : ℤ) (latitude : F)
    (withOutStateOfAgregate : Bool) (proability : F) :
    (holder.addSymbol time custNumber latitude withOutStateOfAgregate proability).min_ =
      holder.min_ := by
  simp only [SymbolHolder.addSymbol]
  split
  · rfl
  · split
    · rfl
    · rfl

omit keeps in
theorem max_addSymbol (holder : SymbolHolder S F) (time : PTime) (custNumber : ℤ) (latitude : F)
    (withOutStateOfAgregate : Bool) (proability : F) :
    (holder.addSymbol time custNumber latitude withOutStateOfAgregate proability).max_ =
      holder.max_ := by
  simp only [SymbolHolder.addSymbol]
  split
  · rfl
  · split
    · rfl
    · rfl

omit keeps in
@[simp] theorem timespanInHours_addSymbol (holder : SymbolHolder S F) (time : PTime)
    (custNumber : ℤ) (latitude : F) (withOutStateOfAgregate : Bool) (proability : F) :
    (holder.addSymbol time custNumber latitude withOutStateOfAgregate proability).timespanInHours =
      holder.timespanInHours := by
  rw [timespanInHours, min_addSymbol, max_addSymbol]
  rfl

omit keeps in
/-- The symbols of a holder stay. -/
theorem mem_addSymbol {holder : SymbolHolder S F} {symbol : Symbol S F}
    (member : symbol ∈ holder.symbols_) (time : PTime) (custNumber : ℤ) (latitude : F)
    (withOutStateOfAgregate : Bool) (proability : F) :
    symbol ∈ (holder.addSymbol time custNumber latitude withOutStateOfAgregate
      proability).symbols_ := by
  simp only [SymbolHolder.addSymbol]
  split
  · exact member
  · split
    · exact mem_insertSymbol.mpr (Or.inr member)
    · exact member

/-- The symbol of a valid number and a time with a date is added. -/
theorem exists_mem_addSymbol (holder : SymbolHolder S F) {time : PTime} {miT : MiTime}
    (dated : MiTime.ofPTime time = some miT) {custNumber : ℤ}
    (valid : isSymbolNumber S custNumber = true) (latitude : F) (withOutStateOfAgregate : Bool)
    (proability : F) :
    ∃ symbol ∈ (holder.addSymbol time custNumber latitude withOutStateOfAgregate
        proability).symbols_, symbol.fromTime = MiTime.addHour miT (-1 * holder.min_ - 1) := by
  refine ⟨holder.newSymbol miT custNumber latitude withOutStateOfAgregate proability, ?_, ?_⟩
  · simp only [SymbolHolder.addSymbol, dated, valid, if_true]
    exact mem_insertSymbol.mpr (Or.inl rfl)
  · have same := symbolTime_newSymbol keeps holder miT custNumber latitude withOutStateOfAgregate
      proability
    rw [symbolTime] at same
    rw [Symbol.fromTime, same]
    rfl

omit keeps in
theorem timespanInHours_addSymbols (holder : SymbolHolder S F) (additions : List (Addition F)) :
    (holder.addSymbols additions).timespanInHours = holder.timespanInHours := by
  induction additions generalizing holder with
  | nil => rfl
  | cons addition rest ih => exact (ih _).trans (timespanInHours_addSymbol holder _ _ _ _ _)

theorem InOrder.addSymbols {holder : SymbolHolder S F} (inOrder : holder.InOrder)
    (additions : List (Addition F)) : (holder.addSymbols additions).InOrder := by
  induction additions generalizing holder with
  | nil => exact inOrder
  | cons addition rest ih =>
      exact ih (inOrder.addSymbol keeps addition.time addition.custNumber addition.latitude
        addition.withOutStateOfAgregate addition.proability)

end KeepsTimes

/-! ## Merging -/

omit [Inhabited S] in
theorem mem_merged {left right : List (Symbol S F)} {symbol : Symbol S F}
    (member : symbol ∈ KeyedList.unique Symbol.fromTime
      (KeyedList.merge Symbol.fromTime left right)) : symbol ∈ left ∨ symbol ∈ right :=
  List.mem_merge.mp (KeyedList.mem_of_mem_unique member)

omit [Inhabited S] in
theorem spans_merged {holder symbol : SymbolHolder S F}
    (equal : holder.timespanInHours = symbol.timespanInHours) :
    ∀ merged ∈ KeyedList.unique Symbol.fromTime
      (KeyedList.merge Symbol.fromTime holder.symbols_ symbol.symbols_),
      merged.max + merged.min = holder.max_ + holder.min_ := by
  intro merged member
  rcases mem_merged member with left | right
  · exact holder.spans merged left
  · rw [symbol.spans merged right]
    exact (add_right_cancel equal).symm

omit [Inhabited S] in
/-- `SymbolHolder::merge`: `std::merge` and then `std::unique`, both in the order of the start
times. -/
def merge (holder symbol : SymbolHolder S F) : Option (SymbolHolder S F) :=
  if equal : holder.timespanInHours = symbol.timespanInHours then
    some
      { symbols_ := KeyedList.unique Symbol.fromTime
          (KeyedList.merge Symbol.fromTime holder.symbols_ symbol.symbols_)
        min_ := holder.min_
        max_ := holder.max_
        spans := spans_merged equal }
  else none

/-- Two holders of the same time span, built in any order of times, are merged into one that has
one symbol for each start time of either, and the symbol of the left one where both have one.
So `findSymbol` finds at a whole minute what it finds in the left holder, or else in the right
one. -/
theorem merge_addSymbols (keeps : SymbolMaker.KeepsTimes S) (min max otherMin otherMax : ℤ)
    (additions otherAdditions : List (Addition F))
    (equal : max + min + 1 = otherMax + otherMin + 1) :
    let left : SymbolHolder S F := (create min max).addSymbols additions
    let right : SymbolHolder S F := (create otherMin otherMax).addSymbols otherAdditions
    ∃ merged, left.merge right = some merged ∧
      (merged.symbols_.Pairwise fun earlier later => earlier.fromTime < later.fromTime) ∧
      (∀ time, (∃ symbol ∈ merged.symbols_, symbol.fromTime = time) ↔
        (∃ symbol ∈ left.symbols_, symbol.fromTime = time) ∨
          ∃ symbol ∈ right.symbols_, symbol.fromTime = time) ∧
      (∀ time, merged.symbolFrom time = (left.symbolFrom time).or (right.symbolFrom time)) ∧
      ∀ minutes : ℤ, merged.findSymbol (.ticks (60000000 * minutes)) =
        (left.findSymbol (.ticks (60000000 * minutes))).or
          (right.findSymbol (.ticks (60000000 * minutes))) := by
  intro left right
  have leftInOrder : left.InOrder := (inOrder_create min max).addSymbols keeps additions
  have rightInOrder : right.InOrder :=
    (inOrder_create otherMin otherMax).addSymbols keeps otherAdditions
  have spans : left.timespanInHours = right.timespanInHours := by
    rw [timespanInHours_addSymbols, timespanInHours_addSymbols]
    exact equal
  have ascending : KeyedList.Ascending Symbol.fromTime
      (KeyedList.merge Symbol.fromTime left.symbols_ right.symbols_) :=
    KeyedList.Ascending.merge leftInOrder.sorted rightInOrder.sorted
  have first : ∀ time, KeyedList.first? Symbol.fromTime
      (KeyedList.unique Symbol.fromTime
        (KeyedList.merge Symbol.fromTime left.symbols_ right.symbols_)) time =
      (left.symbolFrom time).or (right.symbolFrom time) := by
    intro time
    rw [KeyedList.first?_unique, KeyedList.first?_merge leftInOrder.sorted]
    rfl
  rw [merge, dif_pos spans]
  refine ⟨_, rfl, ascending.unique, ?_, first, ?_⟩
  · intro time
    rw [← KeyedList.first?_isSome_iff, first, Option.isSome_or, Bool.or_eq_true,
      symbolFrom, symbolFrom, KeyedList.first?_isSome_iff, KeyedList.first?_isSome_iff]
  · intro minutes
    rw [leftInOrder.sorted.findSymbol_eq, rightInOrder.sorted.findSymbol_eq, ← first]
    refine Sorted.findSymbol_eq ?_ minutes
    exact ascending.unique.imp fun less => less.le

/-- Six, seven and again six o'clock. -/
def sixAndSeven : List (Addition ℚ) :=
  [⟨.ticks (PTime.hours 6), 10, 60, true, 1⟩, ⟨.ticks (PTime.hours 7), 9, 60, true, 1⟩,
    ⟨.ticks (PTime.hours 6), 11, 60, true, 1⟩]

theorem merge_addSymbols_sixAndSeven :
    ∃ merged, ((create 5 0).addSymbols sixAndSeven : SymbolHolder PlainSymbol ℚ).merge
        ((create 0 5).addSymbols sixAndSeven) = some merged ∧
      merged.symbols_.Pairwise fun earlier later => earlier.fromTime < later.fromTime := by
  rcases merge_addSymbols PlainSymbol.keepsTimes 5 0 0 5 sixAndSeven sixAndSeven (by decide) with
    ⟨merged, found, ascending, _⟩
  exact ⟨merged, found, ascending⟩

end SymbolHolder

end Wdb2ts
