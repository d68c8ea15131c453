import Wdb2ts.SymbolThunder

/-!
# The thunder check of a provider

`checkThunder` goes through the holders of a provider in the order of their time spans, and checks
each one against the one before it.  What a longer symbol should get in the end depends on the
symbols of the shortest time span only.
-/

namespace Wdb2ts

namespace SymbolHolder

variable {S F : Type} [SymbolMaker S F]

/-- Every symbol has thunder just when a thunder symbol of the shorter holder lies inside it. -/
def FollowsThunder (holder shorter : SymbolHolder S F) : Prop :=
  ∀ symbol ∈ holder.symbols_, symbol.hasThunder = true ↔
    ∃ other ∈ shorter.symbols_, other.hasThunder = true ∧ symbol.Covers other

instance (holder shorter : SymbolHolder S F) : Decidable (FollowsThunder holder shorter) :=
  inferInstanceAs (Decidable (∀ symbol ∈ holder.symbols_, _))

/-- The symbol should have thunder when the holders of shorter time spans, the longest of them
first, are the given ones. -/
def ExpectsThunder : List (SymbolHolder S F) → Symbol S F → Prop
  | [], symbol => symbol.hasThunder = true
  | holder :: shorter, symbol =>
      ∃ other ∈ holder.symbols_, ExpectsThunder shorter other ∧ symbol.Covers other

/-- If the last of two or more symbols should have thunder, a symbol it gets thunder from does not
also lie inside the symbol before it. -/
def LastGetsThunder : List (SymbolHolder S F) → SymbolHolder S F → Prop
  | [], _ => True
  | previous :: shorter, holder => ∀ position before last,
      position + 2 = holder.symbols_.length → holder.symbols_[position]? = some before →
        holder.symbols_[position + 1]? = some last →
          ExpectsThunder (previous :: shorter) last →
            ∃ other ∈ previous.symbols_, ExpectsThunder shorter other ∧
              last.Covers other ∧ ¬before.Covers other

/-- In every holder the last symbol gets the thunder it should have. -/
def LastsGetThunder : List (SymbolHolder S F) → List (SymbolHolder S F) → Prop
  | _, [] => True
  | shorter, holder :: longer =>
      LastGetsThunder shorter holder ∧ LastsGetThunder (holder :: shorter) longer

/-! ## The loop -/

/-- The loop of `checkThunder`, with the position of the holder before. -/
def checkThunderFrom : (prev : ℕ) → List ℕ → List (SymbolHolder S F) → List (SymbolHolder S F)
  | _, [], symbols => symbols
  | prev, it :: rest, symbols =>
      checkThunderFrom it rest
        (symbols.modify it fun holder =>
          holder.consistentCheckThunder (symbols.getD prev default))

/-- The positions of the holders in the order of the sorted shallow copy. -/
def sortedPositions (symbols : List (SymbolHolder S F)) : List ℕ :=
  (List.range symbols.length).insertionSort fun left right =>
    (symbols.getD left default).timespanInHours ≤ (symbols.getD right default).timespanInHours

/-- The function `checkThunder`. -/
def checkThunder (symbols : List (SymbolHolder S F)) : List (SymbolHolder S F) :=
  if symbols.length < 2 then symbols
  else
    match sortedPositions symbols with
    | [] => symbols
    | prev :: rest => checkThunderFrom prev rest symbols

/-- The holders in the order of their time spans. -/
def byTimespan (symbols : List (SymbolHolder S F)) : List (SymbolHolder S F) :=
  symbols.insertionSort fun left right => left.timespanInHours ≤ right.timespanInHours

/-- The holders after one another, each checked against the one before. -/
def checkedInOrder (prev : SymbolHolder S F) : List (SymbolHolder S F) → List (SymbolHolder S F)
  | [] => []
  | holder :: rest =>
      holder.consistentCheckThunder prev ::
        checkedInOrder (holder.consistentCheckThunder prev) rest

omit [SymbolMaker S F] in
theorem map_sortedPositions (symbols after : List (SymbolHolder S F))
    (spans : ∀ position, (after.getD position default).timespanInHours =
      (symbols.getD position default).timespanInHours)
    (lengths : after.length = symbols.length) :
    (sortedPositions symbols).map (fun position => after.getD position default) =
      byTimespan after := by
  have positions : (List.range symbols.length).map (fun position => after.getD position default) =
      after := by
    apply List.ext_getElem
    · simp [lengths]
    · intro position _ inBounds
      simp [List.getElem?_eq_getElem inBounds]
  have sorted := List.map_insertionSort
    (fun left right =>
      (symbols.getD left default).timespanInHours ≤ (symbols.getD right default).timespanInHours)
    (fun left right : SymbolHolder S F => left.timespanInHours ≤ right.timespanInHours)
    (fun position => after.getD position default) (List.range symbols.length)
  rw [sortedPositions, byTimespan, sorted, positions]
  intro left _ right _
  rw [spans, spans]

omit [SymbolMaker S F] in
theorem getD_modify (symbols : List (SymbolHolder S F)) (it position : ℕ)
    (change : SymbolHolder S F → SymbolHolder S F) (inBounds : it < symbols.length) :
    (symbols.modify it change).getD position default =
      if position = it then change (symbols.getD it default) else symbols.getD position default := by
  simp only [List.getD_eq_getElem?_getD, List.getElem?_modify]
  by_cases same : position = it
  · subst same
    simp [inBounds]
  · simp [same, Ne.symm same]

theorem length_checkThunderFrom (prev : ℕ) (rest : List ℕ) (symbols : List (SymbolHolder S F)) :
    (checkThunderFrom prev rest symbols).length = symbols.length := by
  induction rest generalizing prev symbols with
  | nil => rfl
  | cons it rest ih =>
      rw [checkThunderFrom, ih, List.length_modify]

/-- The loop leaves the holders alone that it does not come to. -/
theorem getD_checkThunderFrom_of_not_mem {prev position : ℕ} {rest : List ℕ}
    {symbols : List (SymbolHolder S F)} (inBounds : ∀ it ∈ rest, it < symbols.length)
    (notMember : position ∉ rest) :
    (checkThunderFrom prev rest symbols).getD position default = symbols.getD position default := by
  induction rest generalizing prev symbols with
  | nil => rfl
  | cons it rest ih =>
      rw [List.mem_cons, not_or] at notMember
      rw [checkThunderFrom, ih _ notMember.2, getD_modify _ _ _ _ (inBounds it List.mem_cons_self),
        if_neg notMember.1]
      intro other member
      rw [List.length_modify]
      exact inBounds other (List.mem_cons_of_mem it member)

/-- In the order of the loop the holders are checked one after the other. -/
theorem map_checkThunderFrom {prev : ℕ} {rest : List ℕ} {symbols : List (SymbolHolder S F)}
    (distinct : (prev :: rest).Nodup) (inBounds : ∀ it ∈ rest, it < symbols.length) :
    rest.map (fun position => (checkThunderFrom prev rest symbols).getD position default) =
      checkedInOrder (symbols.getD prev default)
        (rest.map fun position => symbols.getD position default) := by
  induction rest generalizing prev symbols with
  | nil => rfl
  | cons it rest ih =>
      have it_inBounds := inBounds it List.mem_cons_self
      rw [List.nodup_cons, List.mem_cons, not_or] at distinct
      have others := List.nodup_cons.mp distinct.2
      have restInBounds : ∀ other ∈ rest, other < (symbols.modify it fun holder =>
          holder.consistentCheckThunder (symbols.getD prev default)).length := by
        intro other member
        rw [List.length_modify]
        exact inBounds other (List.mem_cons_of_mem it member)
      have unchanged : ∀ other ∈ rest, (symbols.modify it fun holder =>
          holder.consistentCheckThunder (symbols.getD prev default)).getD other default =
            symbols.getD other default := by
        intro other member
        rw [getD_modify _ _ _ _ it_inBounds, if_neg]
        intro same
        exact others.1 (same ▸ member)
      simp only [checkThunderFrom, List.map_cons, checkedInOrder]
      rw [getD_checkThunderFrom_of_not_mem restInBounds others.1, ih distinct.2 restInBounds,
        getD_modify _ _ _ _ it_inBounds, if_pos rfl, List.map_congr_left unchanged]

theorem timespan_checkThunderFrom (prev : ℕ) (rest : List ℕ) (symbols : List (SymbolHolder S F))
    (inBounds : ∀ it ∈ rest, it < symbols.length) (position : ℕ) :
    ((checkThunderFrom prev rest symbols).getD position default).timespanInHours =
      (symbols.getD position default).timespanInHours := by
  induction rest generalizing prev symbols with
  | nil => rfl
  | cons it rest ih =>
      rw [checkThunderFrom, ih, getD_modify _ _ _ _ (inBounds it List.mem_cons_self)]
      · split
        · rename_i same
          rw [same, timespanInHours_consistentCheckThunder]
        · rfl
      · intro other member
        rw [List.length_modify]
        exact inBounds other (List.mem_cons_of_mem it member)

/-- The check of a list of holders, in the order of their time spans. -/
theorem byTimespan_checkThunder (symbols : List (SymbolHolder S F)) :
    byTimespan (checkThunder symbols) =
      match byTimespan symbols with
      | [] => []
      | first :: rest => first :: checkedInOrder first rest := by
  have sorted := map_sortedPositions symbols symbols (fun _ => rfl) rfl
  have permuted : (sortedPositions symbols).Perm (List.range symbols.length) :=
    List.perm_insertionSort _ _
  have distinct : (sortedPositions symbols).Nodup := permuted.nodup_iff.mpr List.nodup_range
  have inBounds : ∀ it ∈ sortedPositions symbols, it < symbols.length := by
    intro it member
    exact List.mem_range.mp (permuted.mem_iff.mp member)
  rw [checkThunder]
  split
  · rename_i few
    rcases symbols with _ | ⟨first, _ | ⟨second, rest⟩⟩
    · rfl
    · rfl
    · simp at few
  · rw [← sorted]
    cases order : sortedPositions symbols with
    | nil =>
        rw [order] at sorted
        exact sorted.symm
    | cons prev rest =>
        rw [order] at distinct inBounds
        have restInBounds : ∀ it ∈ rest, it < symbols.length :=
          fun it member => inBounds it (List.mem_cons_of_mem prev member)
        simp only [List.map_cons]
        rw [← map_sortedPositions symbols _
            (timespan_checkThunderFrom prev rest symbols restInBounds)
            (length_checkThunderFrom prev rest symbols), order, List.map_cons,
          getD_checkThunderFrom_of_not_mem restInBounds (List.nodup_cons.mp distinct).1,
          map_checkThunderFrom distinct restInBounds]

/-! ## The levels -/

/-- The holder has been checked, and its symbols have the thunder they should have. -/
structure Settled (shorter : List (SymbolHolder S F)) (holder checked : SymbolHolder S F) :
    Prop where
  periods : checked.symbols_.map Symbol.period = holder.symbols_.map Symbol.period
  thunder (position : ℕ) (symbol after : Symbol S F) :
    holder.symbols_[position]? = some symbol → checked.symbols_[position]? = some after →
      (after.hasThunder = true ↔ ExpectsThunder shorter symbol)

theorem settled_first (holder : SymbolHolder S F) : Settled [] holder holder where
  periods := rfl
  thunder := by
    intro position symbol after stored found
    cases stored.symm.trans found
    exact Iff.rfl

variable {shorter : List (SymbolHolder S F)} {previous checked holder : SymbolHolder S F}

theorem Settled.pair (settled : Settled shorter previous checked) {position : ℕ}
    {after : Symbol S F} (found : checked.symbols_[position]? = some after) :
    ∃ symbol, previous.symbols_[position]? = some symbol ∧ after.period = symbol.period := by
  have periods := congrArg (fun list => list[position]?) settled.periods
  simp only [List.getElem?_map, found, Option.map_some] at periods
  rcases Option.map_eq_some_iff.mp periods.symm with ⟨symbol, stored, same⟩
  exact ⟨symbol, stored, same.symm⟩

theorem Settled.pair_left (settled : Settled shorter previous checked) {position : ℕ}
    {symbol : Symbol S F} (stored : previous.symbols_[position]? = some symbol) :
    ∃ after, checked.symbols_[position]? = some after ∧ after.period = symbol.period := by
  have periods := congrArg (fun list => list[position]?) settled.periods
  simp only [List.getElem?_map, stored, Option.map_some] at periods
  rcases Option.map_eq_some_iff.mp periods with ⟨after, found, same⟩
  exact ⟨after, found, same⟩

/-- Whether some thunder symbol has a period of a kind is decided before the check. -/
theorem Settled.exists_iff (settled : Settled shorter previous checked)
    (kind : MiTime × MiTime → Prop) :
    (∃ other ∈ checked.symbols_, other.hasThunder = true ∧ kind other.period) ↔
      ∃ other ∈ previous.symbols_, ExpectsThunder shorter other ∧ kind other.period := by
  constructor
  · intro some
    rcases some with ⟨after, member, thunder, isKind⟩
    rcases List.mem_iff_getElem?.mp member with ⟨position, found⟩
    rcases settled.pair found with ⟨symbol, stored, same⟩
    exact ⟨symbol, List.mem_of_getElem? stored,
      (settled.thunder position symbol after stored found).mp thunder, same ▸ isKind⟩
  · intro some
    rcases some with ⟨symbol, member, expects, isKind⟩
    rcases List.mem_iff_getElem?.mp member with ⟨position, stored⟩
    rcases settled.pair_left stored with ⟨after, found, same⟩
    exact ⟨after, List.mem_of_getElem? found,
      (settled.thunder position symbol after stored found).mpr expects, same.symm ▸ isKind⟩

section Level

variable (agrees : SymbolMaker.ThunderAgrees S)
  (notLonger : checked.timespanInHours ≤ holder.timespanInHours)

include agrees notLonger

omit agrees in
theorem symbols_consistentCheckThunder :
    (holder.consistentCheckThunder checked).symbols_ =
      checkedSymbols holder.symbols_ checked.symbols_ := by
  rw [consistentCheckThunder, if_neg (not_lt_of_ge notLonger)]

theorem periods_consistentCheckThunder :
    (holder.consistentCheckThunder checked).symbols_.map Symbol.period =
      holder.symbols_.map Symbol.period := by
  rw [symbols_consistentCheckThunder notLonger, period_checkedSymbols agrees]

/-- A symbol keeps its period in the check. -/
theorem getElem?_consistentCheckThunder {position : ℕ}
    (inBounds : position < holder.symbols_.length) :
    ∃ after, (holder.consistentCheckThunder checked).symbols_[position]? = some after ∧
      after.period = holder.symbols_[position].period := by
  have same := congrArg (fun list => list[position]?)
    (periods_consistentCheckThunder agrees notLonger)
  simp only [List.getElem?_map, List.getElem?_eq_getElem inBounds, Option.map_some] at same
  exact Option.map_eq_some_iff.mp same

/-- A symbol has thunder after the check when it covers a thunder symbol of the shorter holder,
which the symbol before the last one does not cover too. -/
theorem hasThunder_consistentCheckThunder (sorted : holder.Sorted) {position : ℕ}
    (inBounds : position < holder.symbols_.length) {after : Symbol S F}
    (found : (holder.consistentCheckThunder checked).symbols_[position]? = some after) :
    after.hasThunder = true ↔
      ∃ other ∈ checked.symbols_, other.hasThunder = true ∧
        holder.symbols_[position].Covers other ∧
          ¬(position + 1 = holder.symbols_.length ∧ 0 < position ∧
            holder.symbols_[position - 1].Covers other) := by
  rw [symbols_consistentCheckThunder notLonger] at found
  rw [hasThunder_checkedSymbols agrees found]
  simp only [sorted.marked_iff _ inBounds, Symbol.Covers]

/-- A holder follows the shorter one once its last symbol does. -/
theorem followsThunder_iff (sorted : holder.Sorted) :
    FollowsThunder (holder.consistentCheckThunder checked) checked ↔
      ∀ position before last, position + 2 = holder.symbols_.length →
        holder.symbols_[position]? = some before → holder.symbols_[position + 1]? = some last →
          (∃ other ∈ checked.symbols_, other.hasThunder = true ∧ last.Covers other) →
            ∃ other ∈ checked.symbols_, other.hasThunder = true ∧
              (last.Covers other ∧ ¬before.Covers other) := by
  constructor
  · intro follows position before last length atBefore atLast some
    rcases List.getElem?_eq_some_iff.mp atBefore with ⟨beforeInBounds, rfl⟩
    rcases List.getElem?_eq_some_iff.mp atLast with ⟨inBounds, rfl⟩
    rcases getElem?_consistentCheckThunder agrees notLonger inBounds with ⟨after, found, same⟩
    have hasThunder : after.hasThunder = true := by
      apply (follows after (List.mem_of_getElem? found)).mpr
      simpa only [Symbol.Covers, same] using some
    rcases (hasThunder_consistentCheckThunder agrees notLonger sorted inBounds found).mp
      hasThunder with ⟨other, member, on, covers, notSkipped⟩
    refine ⟨other, member, on, covers, ?_⟩
    intro coversBefore
    exact notSkipped ⟨length, Nat.succ_pos position, coversBefore⟩
  · intro lastGets symbol member
    rcases List.mem_iff_getElem?.mp member with ⟨position, found⟩
    have lengths := congrArg List.length (periods_consistentCheckThunder agrees notLonger)
    simp only [List.length_map] at lengths
    have inBounds : position < holder.symbols_.length := by
      rw [← lengths]
      exact (List.getElem?_eq_some_iff.mp found).1
    have same : symbol.period = holder.symbols_[position].period := by
      rcases getElem?_consistentCheckThunder agrees notLonger inBounds with
        ⟨after, foundAfter, same⟩
      cases found.symm.trans foundAfter
      exact same
    rw [hasThunder_consistentCheckThunder agrees notLonger sorted inBounds found]
    simp only [Symbol.Covers, same]
    constructor
    · intro some
      rcases some with ⟨other, otherMember, on, covers, _⟩
      exact ⟨other, otherMember, on, covers⟩
    · intro some
      by_cases isLast : position + 1 = holder.symbols_.length ∧ 0 < position
      · have gets := lastGets (position - 1) holder.symbols_[position - 1]
          holder.symbols_[position] (by omega) (List.getElem?_eq_getElem (by omega))
          (by rw [Nat.sub_add_cancel isLast.2]; exact List.getElem?_eq_getElem inBounds) some
        rcases gets with ⟨other, otherMember, on, covers, notBefore⟩
        refine ⟨other, otherMember, on, covers, ?_⟩
        intro skipped
        exact notBefore skipped.2.2
      · rcases some with ⟨other, otherMember, on, covers⟩
        refine ⟨other, otherMember, on, covers, ?_⟩
        intro skipped
        exact isLast ⟨skipped.1, skipped.2.1⟩

/-- The same in terms of the thunder before any check. -/
theorem Settled.followsThunder_iff (settled : Settled shorter previous checked)
    (sorted : holder.Sorted) :
    FollowsThunder (holder.consistentCheckThunder checked) checked ↔
      LastGetsThunder (previous :: shorter) holder := by
  rw [SymbolHolder.followsThunder_iff agrees notLonger sorted]
  simp only [LastGetsThunder, ExpectsThunder, Symbol.Covers]
  have covering := fun outer : MiTime × MiTime =>
    settled.exists_iff fun period => Within period outer
  have skipping := fun outer before : MiTime × MiTime =>
    settled.exists_iff fun period => Within period outer ∧ ¬Within period before
  simp only [covering, skipping]

/-- A holder that follows a settled one is settled. -/
theorem Settled.next (settled : Settled shorter previous checked)
    (follows : FollowsThunder (holder.consistentCheckThunder checked) checked) :
    Settled (previous :: shorter) holder (holder.consistentCheckThunder checked) where
  periods := periods_consistentCheckThunder agrees notLonger
  thunder := by
    intro position symbol after stored found
    have allPeriods : (holder.consistentCheckThunder checked).symbols_.map Symbol.period =
        holder.symbols_.map Symbol.period := periods_consistentCheckThunder agrees notLonger
    have periods := congrArg (fun list => list[position]?) allPeriods
    simp only [List.getElem?_map, found, stored, Option.map_some, Option.some.injEq] at periods
    rw [follows after (List.mem_of_getElem? found)]
    simp only [Symbol.Covers, periods]
    exact settled.exists_iff fun period => Within period symbol.period

end Level

/-- In a row of holders every one follows the one before it just when the last symbols get the
thunder they should have. -/
theorem Settled.isChain_iff (agrees : SymbolMaker.ThunderAgrees S)
    (settled : Settled shorter previous checked)
    (sameSpan : checked.timespanInHours = previous.timespanInHours)
    {longer : List (SymbolHolder S F)}
    (ordered : (previous :: longer).Pairwise fun left right =>
      left.timespanInHours ≤ right.timespanInHours)
    (sorted : ∀ holder ∈ longer, holder.Sorted) :
    (checked :: checkedInOrder checked longer).IsChain
        (fun shorter holder => FollowsThunder holder shorter) ↔
      LastsGetThunder (previous :: shorter) longer := by
  induction longer generalizing shorter previous checked with
  | nil => simp [checkedInOrder, LastsGetThunder]
  | cons holder longer ih =>
      rw [List.pairwise_cons] at ordered
      have notLonger : checked.timespanInHours ≤ holder.timespanInHours :=
        sameSpan.le.trans (ordered.1 holder List.mem_cons_self)
      have level := settled.followsThunder_iff agrees notLonger (sorted holder List.mem_cons_self)
      simp only [checkedInOrder, List.isChain_cons_cons, LastsGetThunder]
      rw [level]
      apply and_congr_right
      intro lastGets
      apply ih
      · exact settled.next agrees notLonger (level.mpr lastGets)
      · exact timespanInHours_consistentCheckThunder holder checked
      · exact ordered.2
      · intro other member
        exact sorted other (List.mem_cons_of_mem holder member)

/-- After the check every holder follows the one of the next shorter time span just when the last
symbol of each holder gets the thunder it should have. -/
theorem checkThunder_follows_iff (agrees : SymbolMaker.ThunderAgrees S)
    (symbols : List (SymbolHolder S F)) (sorted : ∀ holder ∈ symbols, holder.Sorted) :
    (byTimespan (checkThunder symbols)).IsChain
        (fun shorter holder => FollowsThunder holder shorter) ↔
      LastsGetThunder [] (byTimespan symbols) := by
  have ordered : (byTimespan symbols).Pairwise fun left right =>
      left.timespanInHours ≤ right.timespanInHours := by
    have total : Std.Total fun left right : SymbolHolder S F =>
        left.timespanInHours ≤ right.timespanInHours := ⟨fun _ _ => le_total _ _⟩
    have transitive : IsTrans (SymbolHolder S F) fun left right =>
        left.timespanInHours ≤ right.timespanInHours := ⟨fun _ _ _ => le_trans⟩
    exact List.pairwise_insertionSort _ symbols
  have sortedAll : ∀ holder ∈ byTimespan symbols, holder.Sorted := by
    intro holder member
    exact sorted holder ((List.mem_insertionSort _).mp member)
  rw [byTimespan_checkThunder]
  cases order : byTimespan symbols with
  | nil => simp [LastsGetThunder]
  | cons first rest =>
      rw [order] at ordered sortedAll
      simp only [LastsGetThunder, LastGetsThunder, true_and]
      exact (settled_first first).isChain_iff agrees rfl ordered
        fun holder member => sortedAll holder (List.mem_cons_of_mem first member)

/-- An hour of thunder, and two symbols of six hours that both cover it. -/
def coveredTwice : List (SymbolHolder PlainSymbol ℚ) :=
  [(create 0 0).addSymbol (.ticks (PTime.hours 3)) 11 60 true 1,
    ((create 5 0).addSymbol (.ticks (PTime.hours 6)) 10 60 true 1).addSymbol
      (.ticks (PTime.hours 7)) 10 60 true 1]

/-- The last symbol of six hours stays without the thunder that lies inside it. -/
theorem coveredTwice_not_follows :
    (∀ holder ∈ coveredTwice, holder.Sorted) ∧
      ¬(byTimespan (checkThunder coveredTwice)).IsChain
        (fun shorter holder => FollowsThunder holder shorter) := by
  constructor
  · decide +kernel
  · decide +kernel

theorem checkThunder_follows_iff_coveredTwice :
    (byTimespan (checkThunder coveredTwice)).IsChain
        (fun shorter holder => FollowsThunder holder shorter) ↔
      LastsGetThunder [] (byTimespan coveredTwice) :=
  checkThunder_follows_iff PlainSymbol.thunderAgrees coveredTwice (by decide +kernel)

end SymbolHolder

end Wdb2ts
