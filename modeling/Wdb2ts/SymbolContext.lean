import Wdb2ts.SymbolMerge
import Wdb2ts.Lib.Bytes
import Wdb2ts.Lib.Runs
import Wdb2ts.Lib.SortedMap

/-!
# The symbol table of the providers

A `SymbolContext` collects symbols as they are read.  It keeps a list of holders for each
provider, and makes a holder when the first symbol of a provider and a time span arrives.
-/

namespace Wdb2ts

/-- The `ProviderSymbolHolderList` of symbols. -/
abbrev ProviderSymbolHolderList (S F : Type) := SortedMap Bytes (List (SymbolHolder S F))

/-- The members of a `SymbolContext` that `doAddSymbol` uses. -/
structure SymbolContext (S F : Type) where
  symbols : Option (ProviderSymbolHolderList S F)
  symbolOwner : Bool
  prevProvider : Bytes

namespace SymbolContext

variable {S F : Type}

/-- `SymbolContext()`. -/
def create : SymbolContext S F := ⟨none, true, []⟩

/-- The table, which is empty until the first symbol arrives. -/
def table (context : SymbolContext S F) : ProviderSymbolHolderList S F :=
  context.symbols.getD ∅

/-- The arguments of `doAddSymbol`. -/
structure Arguments (F : Type) where
  symNumber : ℤ
  probability : F
  time : PTime
  provider : Bytes
  latitude : F
  min : ℤ
  withOutStateOfAgregate : Bool

/-- The holders of a provider with one for the time span, which is added at the end when there is
none. -/
def withHolder (min : ℤ) (holders : List (SymbolHolder S F)) : List (SymbolHolder S F) :=
  if holders.findIdx (fun holder => holder.timespanInHours = min + 1) = holders.length then
    holders ++ [SymbolHolder.create min 0]
  else holders

/-- The table with an entry for the provider, which has one holder when it is new. -/
def withProvider (provider : Bytes) (min : ℤ) (symbols : ProviderSymbolHolderList S F) :
    ProviderSymbolHolderList S F :=
  if symbols.contains provider then symbols
  else symbols.insert provider [SymbolHolder.create min 0]

variable [SymbolMaker S F] [Inhabited S]

/-- The call of `addSymbol` in `doAddSymbol`. -/
def addTo (arguments : Arguments F) (holder : SymbolHolder S F) : SymbolHolder S F :=
  holder.addSymbol arguments.time arguments.symNumber arguments.latitude
    arguments.withOutStateOfAgregate arguments.probability

/-- `SymbolContext::doAddSymbol`.  A time without a date throws in `addSymbol`. -/
def doAddSymbol (context : SymbolContext S F) (arguments : Arguments F) : SymbolContext S F :=
  let symbols := withProvider arguments.provider arguments.min context.table
  let holders := (symbols.find? arguments.provider).getD []
  let lit := holders.findIdx fun holder => holder.timespanInHours = arguments.min + 1
  { symbols := some (symbols.insert arguments.provider
      ((withHolder arguments.min holders).modify lit (addTo arguments)))
    symbolOwner := context.symbolOwner || context.symbols.isNone
    prevProvider :=
      if (MiTime.ofPTime arguments.time).isSome then arguments.provider
      else context.prevProvider }

/-! ## The holders of a provider -/

/-- One holder for each time span, and the symbols of every holder in order. -/
structure WellKept (holders : List (SymbolHolder S F)) : Prop where
  distinct : holders.Pairwise fun left right => left.timespanInHours ≠ right.timespanInHours
  inOrder : ∀ holder ∈ holders, holder.InOrder
  maxs : ∀ holder ∈ holders, holder.max_ = 0

omit [Inhabited S] in
theorem wellKept_nil : WellKept ([] : List (SymbolHolder S F)) where
  distinct := List.Pairwise.nil
  inOrder := by simp
  maxs := by simp

omit [Inhabited S] in
theorem WellKept.withHolder {holders : List (SymbolHolder S F)} (kept : WellKept holders) (min : ℤ) :
    WellKept (withHolder min holders) := by
  rw [SymbolContext.withHolder]
  split
  · rename_i absent
    have others : ∀ holder ∈ holders, holder.timespanInHours ≠ min + 1 := by
      intro holder member
      have none := List.findIdx_eq_length.mp absent holder member
      simpa using none
    constructor
    · rw [List.pairwise_append]
      refine ⟨kept.distinct, List.pairwise_singleton _ _, ?_⟩
      intro holder member new isNew
      rw [List.mem_singleton.mp isNew, SymbolHolder.timespanInHours_create, zero_add]
      exact others holder member
    · intro holder member
      rcases List.mem_append.mp member with old | new
      · exact kept.inOrder holder old
      · rw [List.mem_singleton.mp new]
        exact SymbolHolder.inOrder_create min 0
    · intro holder member
      rcases List.mem_append.mp member with old | new
      · exact kept.maxs holder old
      · rw [List.mem_singleton.mp new]
        rfl
  · exact kept

omit [SymbolMaker S F] [Inhabited S] in
theorem getElem?_withHolder (min : ℤ) (holders : List (SymbolHolder S F)) :
    ∃ holder, (withHolder min holders)[holders.findIdx fun holder =>
      holder.timespanInHours = min + 1]? = some holder ∧ holder.timespanInHours = min + 1 := by
  rw [withHolder]
  split
  · rename_i absent
    rw [absent]
    exact ⟨SymbolHolder.create min 0, List.getElem?_concat_length, by simp⟩
  · rename_i present
    have inBounds := lt_of_le_of_ne List.findIdx_le_length present
    have found := List.findIdx_getElem (w := inBounds)
    exact ⟨_, List.getElem?_eq_getElem inBounds, by simpa using found⟩

omit [SymbolMaker S F] [Inhabited S] in
/-- The position `doAddSymbol` finds is that of the holder of the time span. -/
theorem withHolder_split (min : ℤ) (holders : List (SymbolHolder S F))
    (change : SymbolHolder S F → SymbolHolder S F) :
    ∃ before holder after, withHolder min holders = before ++ holder :: after ∧
      holder.timespanInHours = min + 1 ∧
      (withHolder min holders).modify
          (holders.findIdx fun holder => holder.timespanInHours = min + 1) change =
        before ++ change holder :: after := by
  rcases getElem?_withHolder min holders with ⟨found, atPosition, spans⟩
  have inBounds := (List.getElem?_eq_some_iff.mp atPosition).1
  rcases List.exists_of_modify change inBounds with ⟨before, holder, after, split, length, changed⟩
  refine ⟨before, holder, after, split, ?_, changed⟩
  rw [split, ← length, List.getElem?_append_right (le_refl _), Nat.sub_self] at atPosition
  cases atPosition
  exact spans

/-- A symbol more leaves the holders well kept. -/
theorem WellKept.add (keeps : SymbolMaker.KeepsTimes S) {holders : List (SymbolHolder S F)}
    (kept : WellKept holders) (arguments : Arguments F) :
    WellKept ((SymbolContext.withHolder arguments.min holders).modify
      (holders.findIdx fun holder => holder.timespanInHours = arguments.min + 1)
      (addTo arguments)) := by
  rcases withHolder_split arguments.min holders (addTo arguments) with
    ⟨before, holder, after, split, _, changed⟩
  have withNew := kept.withHolder arguments.min
  rw [changed]
  rw [split] at withNew
  constructor
  · have distinct := withNew.distinct
    rw [List.pairwise_append, List.pairwise_cons] at distinct ⊢
    simp only [List.forall_mem_cons, addTo, SymbolHolder.timespanInHours_addSymbol] at distinct ⊢
    exact distinct
  · have inOrder := withNew.inOrder
    simp only [List.forall_mem_append, List.forall_mem_cons] at inOrder ⊢
    exact ⟨inOrder.1, inOrder.2.1.addSymbol keeps _ _ _ _ _, inOrder.2.2⟩
  · have maxs := withNew.maxs
    simp only [List.forall_mem_append, List.forall_mem_cons] at maxs ⊢
    exact ⟨maxs.1, (SymbolHolder.max_addSymbol _ _ _ _ _ _).trans maxs.2.1, maxs.2.2⟩

/-! ## The table -/

omit [SymbolMaker S F] [Inhabited S] in
theorem find?_withProvider (provider other : Bytes) (min : ℤ)
    (symbols : ProviderSymbolHolderList S F) :
    (withProvider provider min symbols).find? other =
      if other = provider then some ((symbols.find? other).getD [SymbolHolder.create min 0])
      else symbols.find? other := by
  rw [withProvider, SortedMap.contains]
  by_cases same : other = provider
  · subst same
    rw [if_pos rfl]
    cases stored : symbols.find? other with
    | none =>
        rw [if_neg (by simp), SortedMap.find?_insert_self]
        rfl
    | some holders =>
        rw [Option.isSome_some, if_pos rfl, stored]
        rfl
  · rw [if_neg same]
    split
    · rfl
    · exact symbols.find?_insert_of_ne same _

/-- A new symbol changes the holders of its provider only. -/
theorem find?_doAddSymbol (context : SymbolContext S F) (arguments : Arguments F)
    (provider : Bytes) :
    (context.doAddSymbol arguments).table.find? provider =
      if provider = arguments.provider then
        let holders := (context.table.find? provider).getD []
        some ((withHolder arguments.min holders).modify
          (holders.findIdx fun holder => holder.timespanInHours = arguments.min + 1)
          (addTo arguments))
      else context.table.find? provider := by
  rw [doAddSymbol, table, Option.getD_some, SortedMap.find?_insert]
  by_cases same : provider = arguments.provider
  · subst same
    rw [if_pos rfl, if_pos rfl, find?_withProvider, if_pos rfl]
    cases context.table.find? arguments.provider with
    | none => simp [withHolder]
    | some holders => rfl
  · rw [if_neg same, if_neg same, find?_withProvider, if_neg same]

/-- The holders of every provider are well kept. -/
def TableKept (table : ProviderSymbolHolderList S F) : Prop :=
  ∀ provider holders, table.find? provider = some holders → WellKept holders

/-- A symbol of a time with a date and a valid number has a symbol of the same start time in the
holder of its provider and time span. -/
def Represented (table : ProviderSymbolHolderList S F) (arguments : Arguments F) : Prop :=
  ∀ miT, MiTime.ofPTime arguments.time = some miT →
    SymbolHolder.isSymbolNumber S arguments.symNumber = true →
      ∃ holders holder symbol, table.find? arguments.provider = some holders ∧
        holder ∈ holders ∧ holder.timespanInHours = arguments.min + 1 ∧
          symbol ∈ holder.symbols_ ∧
            symbol.fromTime = MiTime.addHour miT (-(arguments.min + 1))

section KeepsTimes

variable (keeps : SymbolMaker.KeepsTimes S)

include keeps

theorem TableKept.doAddSymbol {context : SymbolContext S F} (kept : TableKept context.table)
    (arguments : Arguments F) : TableKept (context.doAddSymbol arguments).table := by
  intro provider holders stored
  rw [find?_doAddSymbol] at stored
  by_cases same : provider = arguments.provider
  · rw [if_pos same] at stored
    cases stored
    apply WellKept.add keeps
    cases old : context.table.find? provider with
    | none => exact wellKept_nil
    | some oldHolders => exact kept provider oldHolders old
  · rw [if_neg same] at stored
    exact kept provider holders stored

omit keeps in
/-- The symbols of earlier calls stay. -/
theorem Represented.doAddSymbol {context : SymbolContext S F} {earlier : Arguments F}
    (represented : Represented context.table earlier) (arguments : Arguments F) :
    Represented (context.doAddSymbol arguments).table earlier := by
  intro miT dated valid
  rcases represented miT dated valid with ⟨holders, holder, symbol, stored, member, spans, inHolder,
    start⟩
  rw [find?_doAddSymbol]
  by_cases same : earlier.provider = arguments.provider
  · rw [if_pos same, stored]
    rcases withHolder_split arguments.min holders (addTo arguments) with
      ⟨before, changed, after, split, _, modified⟩
    have inWithHolder : holder ∈ withHolder arguments.min holders := by
      rw [withHolder]
      split
      · exact List.mem_append_left _ member
      · exact member
    rw [split, List.mem_append, List.mem_cons] at inWithHolder
    simp only [Option.getD_some, modified]
    rcases inWithHolder with inBefore | isChanged | inAfter
    · exact ⟨_, holder, symbol, rfl, by simp [inBefore], spans, inHolder, start⟩
    · subst isChanged
      exact ⟨_, addTo arguments holder, symbol, rfl, by simp,
        (SymbolHolder.timespanInHours_addSymbol _ _ _ _ _ _).trans spans,
        SymbolHolder.mem_addSymbol inHolder _ _ _ _ _, start⟩
    · exact ⟨_, holder, symbol, rfl, by simp [inAfter], spans, inHolder, start⟩
  · rw [if_neg same]
    exact ⟨holders, holder, symbol, stored, member, spans, inHolder, start⟩

/-- The symbol of a call is represented after the call. -/
theorem represented_doAddSymbol {context : SymbolContext S F} (kept : TableKept context.table)
    (arguments : Arguments F) :
    Represented (context.doAddSymbol arguments).table arguments := by
  intro miT dated valid
  rcases withHolder_split arguments.min ((context.table.find? arguments.provider).getD [])
    (addTo arguments) with ⟨before, holder, after, split, spans, modified⟩
  rcases SymbolHolder.exists_mem_addSymbol keeps holder dated valid arguments.latitude
    arguments.withOutStateOfAgregate arguments.probability with ⟨symbol, member, start⟩
  refine ⟨before ++ addTo arguments holder :: after, addTo arguments holder, symbol, ?_, ?_, ?_,
    member, ?_⟩
  · rw [find?_doAddSymbol, if_pos rfl]
    exact congrArg some modified
  · exact List.mem_append_right _ List.mem_cons_self
  · exact (SymbolHolder.timespanInHours_addSymbol _ _ _ _ _ _).trans spans
  · have wellKept : WellKept ((context.table.find? arguments.provider).getD []) := by
      cases old : context.table.find? arguments.provider with
      | none => exact wellKept_nil
      | some oldHolders => exact kept arguments.provider oldHolders old
    have noMax := (wellKept.withHolder arguments.min).maxs holder
      (by rw [split]; exact List.mem_append_right _ List.mem_cons_self)
    rw [SymbolHolder.timespanInHours, noMax, zero_add] at spans
    rw [start, ← spans]
    ring_nf

/-- After any calls each provider has one holder for each time span, the symbols of every holder
are in the order of their start times, and the symbol of every call is represented. -/
theorem doAddSymbol_run (calls : List (Arguments F)) :
    let table := (Runs.run doAddSymbol (create : SymbolContext S F) calls).table
    (∀ provider holders, table.find? provider = some holders →
      (holders.Pairwise fun left right => left.timespanInHours ≠ right.timespanInHours) ∧
        ∀ holder ∈ holders, holder.Sorted) ∧
    ∀ call ∈ calls, Represented table call := by
  have each : Runs.EachStep doAddSymbol (fun _ _ => True) (create : SymbolContext S F) calls :=
    Runs.eachStep_iff_forall_split.mpr fun _ _ _ _ => trivial
  have invariant := each.historyInvariant
    (fun earlier context => TableKept context.table ∧
      ∀ call ∈ earlier, Represented context.table call)
    (by
      intro earlier context call kept _
      refine ⟨kept.1.doAddSymbol keeps call, ?_⟩
      intro other member
      rcases List.mem_append.mp member with old | new
      · exact (kept.2 other old).doAddSymbol call
      · rw [List.mem_singleton.mp new]
        exact represented_doAddSymbol keeps kept.1 call)
    (by
      constructor
      · intro provider holders stored
        cases stored
      · intro call member
        cases member)
  refine ⟨?_, invariant.2⟩
  intro provider holders stored
  have kept := invariant.1 provider holders stored
  exact ⟨kept.distinct, fun holder member => (kept.inOrder holder member).sorted⟩

end KeepsTimes

/-- Two time spans of one provider, the later symbol first, and one symbol twice. -/
def twoTimespans : List (Arguments ℚ) :=
  [⟨10, 1, .ticks (PTime.hours 7), Bytes.str "arome", 60, 0, true⟩,
    ⟨9, 1, .ticks (PTime.hours 6), Bytes.str "arome", 60, 0, true⟩,
    ⟨10, 1, .ticks (PTime.hours 6), Bytes.str "arome", 60, 5, true⟩,
    ⟨10, 1, .ticks (PTime.hours 7), Bytes.str "arome", 60, 0, true⟩]

theorem doAddSymbol_run_twoTimespans :
    Represented (Runs.run doAddSymbol (create : SymbolContext PlainSymbol ℚ) twoTimespans).table
      ⟨10, 1, .ticks (PTime.hours 7), Bytes.str "arome", 60, 0, true⟩ :=
  (doAddSymbol_run PlainSymbol.keepsTimes twoTimespans).2 _
    (List.mem_of_getLast? rfl)

end SymbolContext

end Wdb2ts
