import Wdb2ts.SymbolHolder

/-!
# Thunder in symbols of different time spans

The symbols of a longer time span get their thunder from the symbols of the next shorter one:
all thunder is turned off, and every shorter symbol with thunder turns it on again in the symbols
that include its period.
-/

namespace Wdb2ts

/-- A period lies inside another one. -/
def Within (inner outer : MiTime × MiTime) : Prop := outer.1 ≤ inner.1 ∧ inner.2 ≤ outer.2

instance (inner outer : MiTime × MiTime) : Decidable (Within inner outer) :=
  inferInstanceAs (Decidable (_ ∧ _))

namespace Symbol

variable {S F : Type} [SymbolMaker S F]

/-- The interval from the start time to the end time. -/
def period (symbol : Symbol S F) : MiTime × MiTime := (symbol.fromTime, symbol.toTime)

/-- The interval of the other symbol lies inside the one of this symbol. -/
def Covers (symbol other : Symbol S F) : Prop := Within other.period symbol.period

instance (symbol other : Symbol S F) : Decidable (symbol.Covers other) :=
  inferInstanceAs (Decidable (Within _ _))

variable (agrees : SymbolMaker.ThunderAgrees S)

include agrees

theorem period_turnOnThunder (symbol : Symbol S F) :
    symbol.turnOnThunder.period = symbol.period := by
  simp only [period, fromTime, toTime, turnOnThunder, agrees.getTime_turnOn]

theorem period_turnOffThunder (symbol : Symbol S F) :
    symbol.turnOffThunder.period = symbol.period := by
  simp only [period, fromTime, toTime, turnOffThunder, agrees.getTime_turnOff]

theorem hasThunder_turnOnThunder (symbol : Symbol S F) : symbol.turnOnThunder.hasThunder = true :=
  agrees.hasThunder_turnOn symbol.symbol

theorem hasThunder_turnOffThunder (symbol : Symbol S F) :
    symbol.turnOffThunder.hasThunder = false :=
  agrees.hasThunder_turnOff symbol.symbol

end Symbol

namespace SymbolHolder

/-! ## Ranges of included symbols -/

/-- The second loop of `findSymbolsIncludedRange`, at the position `it`. -/
def includedEnd {α : Type} (included : α → Bool) : (it end_ : ℕ) → List α → ℕ
  | _, end_, [] => end_
  | it, _, element :: rest => if included element then includedEnd included (it + 1) it rest else it

/-- The positions between the two iterators of `findSymbolsIncludedRange`, over any elements. -/
def includedRange {α : Type} (included : α → Bool) (elements : List α) : ℕ × ℕ :=
  let begin := elements.findIdx included
  if begin = elements.length then (elements.length, elements.length)
  else
    (begin, includedEnd included (begin + 1) (begin + 1) (elements.drop (begin + 1)))

section Positions

variable {α : Type} {included : α → Bool}

theorem includedEnd_eq (it : ℕ) (rest : List α) :
    includedEnd included it it rest =
      if rest.all included then it + (rest.length - 1)
      else it + rest.findIdx fun element => !included element := by
  induction rest generalizing it with
  | nil => rfl
  | cons element others ih =>
      cases inside : included element with
      | false => simp [includedEnd, inside, List.findIdx_cons]
      | true =>
          cases others with
          | nil => simp [includedEnd, inside]
          | cons next others =>
              have step : includedEnd included it it (element :: next :: others) =
                  includedEnd included (it + 1) (it + 1) (next :: others) := by
                simp [includedEnd, inside]
              have all : (element :: next :: others).all included =
                  (next :: others).all included := by
                rw [List.all_cons, inside, Bool.true_and]
              have index : (element :: next :: others).findIdx (fun element => !included element) =
                  (next :: others).findIdx (fun element => !included element) + 1 := by
                rw [List.findIdx_cons, inside]
                rfl
              rw [step, ih, all, index]
              simp only [List.length_cons]
              split
              · omega
              · omega

/-- The included elements are next to each other. -/
def Contiguous (included : α → Bool) (elements : List α) : Prop :=
  ∀ first middle last (inBounds : last < elements.length) (lower : first < middle)
    (upper : middle < last), included elements[first] = true → included elements[last] = true →
      included elements[middle] = true

/-- An element that is in the range. -/
def InRange (included : α → Bool) (elements : List α) (position : ℕ)
    (inBounds : position < elements.length) : Prop :=
  included elements[position] = true ∧
    ¬(position + 1 = elements.length ∧ 0 < position ∧ included elements[position - 1] = true)

section Begin

variable {elements : List α} {begin position : ℕ}

/-- A range from which on every element is included misses the last one. -/
theorem inRange_iff_of_all
    (notBefore : ∀ earlier (inside : earlier < elements.length),
      included elements[earlier] = true → begin ≤ earlier)
    (later : ∀ other (inside : other < elements.length), begin ≤ other →
      included elements[other] = true) (inBounds : position < elements.length) :
    (begin ≤ position ∧ position < begin + 1 + (elements.length - (begin + 1) - 1)) ↔
      InRange included elements position inBounds := by
  constructor
  · intro range
    refine ⟨later position inBounds range.1, ?_⟩
    intro skipped
    have before := notBefore (position - 1) (by omega) skipped.2.2
    omega
  · intro found
    have after := notBefore position inBounds found.1
    refine ⟨after, ?_⟩
    by_contra outside
    apply found.2
    exact ⟨by omega, by omega, later (position - 1) (by omega) (by omega)⟩

/-- A range that stops at an element holds the included ones. -/
theorem inRange_iff_of_stop {stop : ℕ} (contiguous : Contiguous included elements)
    (notBefore : ∀ earlier (inside : earlier < elements.length),
      included elements[earlier] = true → begin ≤ earlier)
    (inside : ∀ other (bounded : other < elements.length), begin ≤ other → other < stop →
      included elements[other] = true)
    (begins : begin < stop) (stops : stop < elements.length)
    (outside : included elements[stop] = false) (inBounds : position < elements.length) :
    (begin ≤ position ∧ position < stop) ↔ InRange included elements position inBounds := by
  constructor
  · intro range
    have notLast : position + 1 ≠ elements.length := by omega
    exact ⟨inside position inBounds range.1 range.2, fun skipped => notLast skipped.1⟩
  · intro found
    have after := notBefore position inBounds found.1
    refine ⟨after, ?_⟩
    by_contra beyond
    have differs : stop ≠ position := by
      intro same
      subst same
      rw [found.1] at outside
      cases outside
    have first := inside begin (begins.trans stops) (le_refl begin) begins
    have convex := contiguous begin stop position inBounds begins (by omega) first found.1
    rw [convex] at outside
    cases outside

end Begin

/-- The elements behind an included one that are all included. -/
theorem included_of_all {elements : List α} {begin : ℕ} (begins : begin < elements.length)
    (first : included elements[begin] = true)
    (all : (elements.drop (begin + 1)).all included = true) :
    ∀ other (inside : other < elements.length), begin ≤ other →
      included elements[other] = true := by
  intro other inside after
  rcases Nat.eq_or_lt_of_le after with same | less
  · subst same
    exact first
  · have member : elements[other] ∈ elements.drop (begin + 1) := by
      rw [List.mem_drop_iff_getElem]
      exact ⟨other - (begin + 1), by omega, by congr; omega⟩
    exact List.all_eq_true.mp all _ member

/-- The elements behind an included one up to the first one that is not. -/
theorem included_of_before_stop {elements : List α} {begin : ℕ} (begins : begin < elements.length)
    (first : included elements[begin] = true) :
    ∀ other (bounded : other < elements.length), begin ≤ other →
      other < begin + 1 + (elements.drop (begin + 1)).findIdx (fun element => !included element) →
        included elements[other] = true := by
  intro other bounded after before
  rcases Nat.eq_or_lt_of_le after with same | less
  · subst same
    exact first
  · have inFront : other - (begin + 1) <
        (elements.drop (begin + 1)).findIdx fun element => !included element := by omega
    have found := List.not_of_lt_findIdx inFront
    simpa [Nat.add_sub_cancel' (Nat.succ_le_of_lt less)] using found

/-- The range holds the included elements, but not the last element when the one before it is
included too. -/
theorem mem_includedRange {elements : List α} (contiguous : Contiguous included elements)
    {position : ℕ} (inBounds : position < elements.length) :
    ((includedRange included elements).1 ≤ position ∧
        position < (includedRange included elements).2) ↔
      included elements[position] = true ∧
        ¬(position + 1 = elements.length ∧ 0 < position ∧
          included elements[position - 1] = true) := by
  have notBefore : ∀ earlier (inside : earlier < elements.length),
      included elements[earlier] = true → elements.findIdx included ≤ earlier := by
    intro earlier inside found
    apply le_of_not_gt
    intro less
    rw [List.not_of_lt_findIdx less] at found
    cases found
  simp only [includedRange]
  by_cases none : elements.findIdx included = elements.length
  · have never : ¬included elements[position] = true := by
      intro found
      have := notBefore position inBounds found
      omega
    simp only [none, if_true]
    constructor
    · intro range
      omega
    · intro found
      exact absurd found.1 never
  · have begins : elements.findIdx included < elements.length :=
      lt_of_le_of_ne List.findIdx_le_length none
    have first : included elements[elements.findIdx included] = true := List.findIdx_getElem
    rw [if_neg none, includedEnd_eq]
    split
    · rename_i all
      rw [List.length_drop]
      exact inRange_iff_of_all notBefore (included_of_all begins first all) inBounds
    · rename_i notAll
      have ends : (elements.drop (elements.findIdx included + 1)).findIdx
          (fun element => !included element) <
            (elements.drop (elements.findIdx included + 1)).length := by
        apply List.findIdx_lt_length_of_exists
        simpa [List.all_eq_true] using notAll
      have outside := List.findIdx_getElem (w := ends)
      simp only [List.getElem_drop, Bool.not_eq_true'] at outside
      rw [List.length_drop] at ends
      exact inRange_iff_of_stop contiguous notBefore (included_of_before_stop begins first)
        (by omega) (by omega) outside inBounds

end Positions

section Thunder

variable {S F : Type} [SymbolMaker S F]

/-- `SymbolHolder::findSymbolsIncludedRange`. -/
def findSymbolsIncludedRange (symbols : List (Symbol S F)) (fromTime toTime : MiTime) : ℕ × ℕ :=
  includedRange
    (fun symbol => decide (symbol.fromTime ≤ fromTime) && decide (toTime ≤ symbol.toTime)) symbols

/-- Turn on the thunder between two positions. -/
def turnOnRange (range : ℕ × ℕ) (symbols : List (Symbol S F)) : List (Symbol S F) :=
  symbols.mapIdx fun position symbol =>
    if range.1 ≤ position ∧ position < range.2 then symbol.turnOnThunder else symbol

/-- What one symbol of the other holder does in `consistentCheckThunder`. -/
def turnOnFrom (symbols : List (Symbol S F)) (other : Symbol S F) : List (Symbol S F) :=
  if other.hasThunder then
    let range := findSymbolsIncludedRange symbols other.fromTime other.toTime
    if range.1 = range.2 then symbols else turnOnRange range symbols
  else symbols

/-- The first loop of `consistentCheckThunder`. -/
def turnOffAll (symbols : List (Symbol S F)) : List (Symbol S F) :=
  symbols.map fun symbol => { symbol.turnOffThunder with oldThunderSymbol := symbol.symbol }

/-- The two loops of `consistentCheckThunder`. -/
def checkedSymbols (symbols others : List (Symbol S F)) : List (Symbol S F) :=
  others.foldl turnOnFrom (turnOffAll symbols)

/-- What turning on thunder leaves alone, one symbol leaves alone in every symbol. -/
theorem map_turnOnFrom {β : Type} {view : Symbol S F → β}
    (same : ∀ symbol, view symbol.turnOnThunder = view symbol) (symbols : List (Symbol S F))
    (other : Symbol S F) : (turnOnFrom symbols other).map view = symbols.map view := by
  simp only [turnOnFrom]
  split
  · split
    · rfl
    · apply List.ext_getElem?
      intro position
      simp only [turnOnRange, List.getElem?_map, List.getElem?_mapIdx]
      cases symbols[position]? with
      | none => rfl
      | some symbol =>
          simp only [Option.map_some, Option.some.injEq]
          split
          · exact same symbol
          · rfl
  · rfl

theorem map_checkedSymbols {β : Type} {view : Symbol S F → β}
    (sameOn : ∀ symbol, view symbol.turnOnThunder = view symbol)
    (sameOff : ∀ symbol : Symbol S F,
      view { symbol.turnOffThunder with oldThunderSymbol := symbol.symbol } = view symbol)
    (symbols others : List (Symbol S F)) :
    (checkedSymbols symbols others).map view = symbols.map view := by
  have turnedOff : (turnOffAll symbols).map view = symbols.map view := by
    simp only [turnOffAll, List.map_map]
    apply List.map_congr_left
    intro symbol _
    exact sameOff symbol
  rw [checkedSymbols, ← turnedOff]
  generalize turnOffAll symbols = current
  induction others generalizing current with
  | nil => rfl
  | cons other rest ih => rw [List.foldl_cons, ih, map_turnOnFrom sameOn]

/-- `SymbolHolder::consistentCheckThunder`. -/
def consistentCheckThunder (holder otherSymbols : SymbolHolder S F) : SymbolHolder S F :=
  if holder.timespanInHours < otherSymbols.timespanInHours then holder
  else
    { symbols_ := checkedSymbols holder.symbols_ otherSymbols.symbols_
      min_ := holder.min_
      max_ := holder.max_
      spans := by
        intro symbol member
        have kept : (checkedSymbols holder.symbols_ otherSymbols.symbols_).map
            (fun symbol => symbol.max + symbol.min) =
              holder.symbols_.map fun symbol => symbol.max + symbol.min :=
          map_checkedSymbols (fun _ => rfl) (fun _ => rfl) _ _
        have image := List.mem_map_of_mem (f := fun symbol => symbol.max + symbol.min) member
        rw [kept] at image
        rcases List.mem_map.mp image with ⟨old, oldMember, same⟩
        rw [← same]
        exact holder.spans old oldMember }

@[simp] theorem timespanInHours_consistentCheckThunder (holder otherSymbols : SymbolHolder S F) :
    (holder.consistentCheckThunder otherSymbols).timespanInHours = holder.timespanInHours := by
  simp only [consistentCheckThunder]
  split
  · rfl
  · rfl

/-! ## One level -/

/-- Is the position in the range of symbols that include the period? -/
def Marked (periods : List (MiTime × MiTime)) (inner : MiTime × MiTime) (position : ℕ) : Prop :=
  let range := includedRange (fun period => decide (Within inner period)) periods
  range.1 ≤ position ∧ position < range.2

instance (periods : List (MiTime × MiTime)) (inner : MiTime × MiTime) (position : ℕ) :
    Decidable (Marked periods inner position) :=
  inferInstanceAs (Decidable (_ ∧ _))

theorem includedEnd_map {α β : Type} (image : α → β) (included : β → Bool) (it end_ : ℕ)
    (elements : List α) :
    includedEnd included it end_ (elements.map image) =
      includedEnd (included ∘ image) it end_ elements := by
  induction elements generalizing it end_ with
  | nil => rfl
  | cons element rest ih => simp only [List.map_cons, includedEnd, ih, Function.comp_apply]

theorem includedRange_map {α β : Type} (image : α → β) (included : β → Bool) (elements : List α) :
    includedRange included (elements.map image) = includedRange (included ∘ image) elements := by
  simp only [includedRange, List.findIdx_map, List.length_map, ← List.map_drop, includedEnd_map]

theorem findSymbolsIncludedRange_eq (symbols : List (Symbol S F)) (inner : MiTime × MiTime) :
    findSymbolsIncludedRange symbols inner.1 inner.2 =
      includedRange (fun period => decide (Within inner period)) (symbols.map Symbol.period) := by
  rw [includedRange_map, findSymbolsIncludedRange]
  congr
  funext symbol
  exact (Bool.decide_and _ _).symm

/-- What one symbol of the other holder does at one position. -/
theorem getElem?_turnOnFrom (symbols : List (Symbol S F)) (other : Symbol S F) (position : ℕ) :
    (turnOnFrom symbols other)[position]? = symbols[position]?.map fun symbol =>
      if other.hasThunder = true ∧ Marked (symbols.map Symbol.period) other.period position then
        symbol.turnOnThunder
      else symbol := by
  have range := findSymbolsIncludedRange_eq symbols other.period
  simp only [turnOnFrom]
  by_cases thunder : other.hasThunder = true
  · simp only [thunder, if_true, true_and, Marked]
    rw [← range]
    simp only [Symbol.period]
    split
    · rename_i empty
      have notInside : ¬((findSymbolsIncludedRange symbols other.fromTime other.toTime).1 ≤ position ∧
          position < (findSymbolsIncludedRange symbols other.fromTime other.toTime).2) := by
        intro inside
        omega
      simp [notInside]
    · rw [turnOnRange, List.getElem?_mapIdx]
      rfl
  · simp [thunder]

variable (agrees : SymbolMaker.ThunderAgrees S)

include agrees

theorem period_turnOnFrom (symbols : List (Symbol S F)) (other : Symbol S F) :
    (turnOnFrom symbols other).map Symbol.period = symbols.map Symbol.period :=
  map_turnOnFrom (Symbol.period_turnOnThunder agrees) symbols other

theorem period_checkedSymbols (symbols others : List (Symbol S F)) :
    (checkedSymbols symbols others).map Symbol.period = symbols.map Symbol.period :=
  map_checkedSymbols (Symbol.period_turnOnThunder agrees) (Symbol.period_turnOffThunder agrees)
    symbols others

theorem hasThunder_foldl_turnOnFrom {symbols others : List (Symbol S F)} {position : ℕ}
    {symbol checked : Symbol S F} (stored : symbols[position]? = some symbol)
    (found : (others.foldl turnOnFrom symbols)[position]? = some checked) :
    checked.hasThunder = true ↔ symbol.hasThunder = true ∨
      ∃ other ∈ others, other.hasThunder = true ∧
        Marked (symbols.map Symbol.period) other.period position := by
  induction others generalizing symbols symbol with
  | nil =>
      rw [List.foldl_nil, stored] at found
      cases found
      simp
  | cons other rest ih =>
      rw [List.foldl_cons] at found
      have step := getElem?_turnOnFrom symbols other position
      rw [stored, Option.map_some] at step
      rw [ih step found, period_turnOnFrom agrees]
      simp only [List.mem_cons, exists_eq_or_imp]
      by_cases marks : other.hasThunder = true ∧
          Marked (symbols.map Symbol.period) other.period position
      · simp [marks, Symbol.hasThunder_turnOnThunder agrees]
      · rw [if_neg marks]
        simp [marks]

/-- After the check of two holders the thunder symbols are the marked ones. -/
theorem hasThunder_checkedSymbols {symbols others : List (Symbol S F)} {position : ℕ}
    {checked : Symbol S F} (found : (checkedSymbols symbols others)[position]? = some checked) :
    checked.hasThunder = true ↔ ∃ other ∈ others, other.hasThunder = true ∧
      Marked (symbols.map Symbol.period) other.period position := by
  have periods : (turnOffAll symbols).map Symbol.period = symbols.map Symbol.period := by
    simp only [turnOffAll, List.map_map]
    apply List.map_congr_left
    intro symbol _
    exact Symbol.period_turnOffThunder agrees symbol
  have inBounds : position < symbols.length := by
    have lengths := congrArg List.length (period_checkedSymbols agrees symbols others)
    rw [List.length_map, List.length_map] at lengths
    rw [← lengths]
    exact (List.getElem?_eq_some_iff.mp found).1
  have stored : (turnOffAll symbols)[position]? = some
      { symbols[position].turnOffThunder with oldThunderSymbol := symbols[position].symbol } := by
    rw [turnOffAll, List.getElem?_map, List.getElem?_eq_getElem inBounds]
    rfl
  rw [hasThunder_foldl_turnOnFrom agrees stored found, periods]
  apply or_iff_right
  intro thunder
  have off := Symbol.hasThunder_turnOffThunder agrees symbols[position]
  exact absurd (thunder.symm.trans off) (by decide)

omit agrees in
/-- The earlier symbols of a sorted holder end first. -/
theorem Sorted.toTime_le {holder : SymbolHolder S F} (sorted : holder.Sorted) {first second : ℕ}
    (inBounds : second < holder.symbols_.length) (earlier : first < second) :
    holder.symbols_[first].toTime ≤ holder.symbols_[second].toTime := by
  have starts := List.pairwise_iff_getElem.mp sorted first second (by omega) inBounds earlier
  rw [holder.toTime_eq (List.getElem_mem _), holder.toTime_eq (List.getElem_mem _)]
  exact add_le_add_left starts _

omit agrees in
/-- In a sorted holder the marked symbols are the ones that cover the period, less the last one
when the one before it covers the period too. -/
theorem Sorted.marked_iff {holder : SymbolHolder S F} (sorted : holder.Sorted)
    (inner : MiTime × MiTime) {position : ℕ} (inBounds : position < holder.symbols_.length) :
    Marked (holder.symbols_.map Symbol.period) inner position ↔
      Within inner holder.symbols_[position].period ∧
        ¬(position + 1 = holder.symbols_.length ∧ 0 < position ∧
          Within inner holder.symbols_[position - 1].period) := by
  have contiguous : Contiguous (fun symbol : Symbol S F => decide (Within inner symbol.period))
      holder.symbols_ := by
    intro first middle last lastInBounds lower upper coversFirst coversLast
    have after := List.pairwise_iff_getElem.mp sorted middle last (by omega) lastInBounds upper
    have laterEnd := sorted.toTime_le (lastInBounds.trans' upper) lower
    rw [decide_eq_true_eq] at coversFirst coversLast ⊢
    constructor
    · exact after.trans coversLast.1
    · exact coversFirst.2.trans laterEnd
  simp only [Marked, includedRange_map]
  have range := mem_includedRange contiguous inBounds
  simp only [decide_eq_true_eq] at range
  exact range

end Thunder

end SymbolHolder

end Wdb2ts
