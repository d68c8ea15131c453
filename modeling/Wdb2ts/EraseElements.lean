import Wdb2ts.Lib.WhileLoop
import Wdb2ts.SymbolHolder

/-!
# Erasing elements from a vector

`eraseElementIf` moves its iterator to the next element and then erases the one before it.  In a
vector the elements behind the erased one move down, so the iterator skips one of them, and it is
behind the end when the last element is erased.  The iterators of a vector are its positions.
-/

namespace Wdb2ts

/-- `miTime::hour`. -/
def MiTime.hour (time : MiTime) : ℤ := time / 3600 % 24

namespace miutil

variable {α : Type}

/-- `eraseElementIf` on a vector: the vector, and the iterator that it returns. -/
def eraseElementIf (container : List α) (it : ℕ) (condition : Bool) : List α × ℕ :=
  if it = container.length then (container, it)
  else (if condition then container.eraseIdx it else container, it + 1)

/-- A round of a loop that erases elements up to the end of a vector.  The condition may be
undefined, and so is the element behind the end. -/
def eraseRound (condition : α → Option Bool) :
    List α × ℕ → (List α × ℕ) ⊕ Option (List α)
  | (container, it) =>
      if it = container.length then .inr (some container)
      else
        match container[it]?.bind condition with
        | none => .inr none
        | some erased => .inl (eraseElementIf container it erased)

end miutil

namespace SymbolGenerator

variable {S F : Type} [SymbolMaker S F]

/-- The condition of the cleanup, or nothing when it divides by zero. -/
def isGarbage (precipHours : ℤ) (symbol : S) : Option Bool :=
  if precipHours = 0 then none
  else some (decide ((MiTime.hour (getTime symbol)).tmod precipHours ≠ 0))

/-- The cleanup of the symbols, or nothing when it runs behind the end. -/
def cleanup (precipHours : ℤ) (fuel : ℕ) (tmpSymbols : List S) : Option (Option (List S)) :=
  WhileLoop.runUntil (miutil.eraseRound (isGarbage precipHours)) fuel (tmpSymbols, 0)

/-- A symbol whose hour fits the precipitation hours. -/
def Fits (precipHours : ℤ) (symbol : S) : Prop := precipHours ∣ MiTime.hour (getTime symbol)

instance (precipHours : ℤ) : DecidablePred (Fits precipHours : S → Prop) := fun symbol =>
  inferInstanceAs (Decidable (precipHours ∣ MiTime.hour (getTime symbol)))

/-- The cleanup ends inside the vector, and leaves the fitting symbols in their order. -/
def CleansUp (precipHours : ℤ) (tmpSymbols : List S) : Prop :=
  ∃ fuel, cleanup precipHours fuel tmpSymbols =
    some (some (tmpSymbols.filter fun symbol => Fits precipHours symbol))

end SymbolGenerator

/-! ## What is left of a vector -/

namespace miutil

section Survivors

variable {α : Type} (erased : α → Bool)

/-- What the loop leaves of a vector, if it ends inside it. -/
def survivors : List α → Option (List α)
  | [] => some []
  | [last] => if erased last then none else some [last]
  | first :: second :: rest =>
      if erased first then (survivors rest).map (second :: ·)
      else (survivors (second :: rest)).map (first :: ·)

/-- No two neighbours are erased, and the last element is not. -/
structure Isolated (elements : List α) : Prop where
  neighbours : elements.IsChain fun first second => ¬(erased first = true ∧ erased second = true)
  last : ∀ element ∈ elements.getLast?, erased element = false

variable {erased}

/-- The loop goes on to the element behind the next one when it erases an element. -/
theorem eraseRound_erased (front : List α) {element : α} (rest : List α)
    (isErased : erased element = true) :
    eraseRound (fun element => some (erased element)) (front ++ element :: rest, front.length) =
      .inl (front ++ rest, front.length + 1) := by
  have inside : front.length ≠ (front ++ element :: rest).length := by
    rw [List.length_append, List.length_cons]
    omega
  rw [eraseRound, if_neg inside, List.getElem?_append_right le_rfl, Nat.sub_self,
    List.getElem?_cons_zero, Option.bind_some]
  dsimp only
  rw [eraseElementIf, if_neg inside, if_pos isErased, List.eraseIdx_append_of_length_le le_rfl,
    Nat.sub_self, List.eraseIdx_cons_zero]

theorem eraseRound_kept (front : List α) {element : α} (rest : List α)
    (isKept : erased element = false) :
    eraseRound (fun element => some (erased element)) (front ++ element :: rest, front.length) =
      .inl (front ++ element :: rest, front.length + 1) := by
  have inside : front.length ≠ (front ++ element :: rest).length := by
    rw [List.length_append, List.length_cons]
    omega
  rw [eraseRound, if_neg inside, List.getElem?_append_right le_rfl, Nat.sub_self,
    List.getElem?_cons_zero, Option.bind_some]
  dsimp only
  rw [eraseElementIf, if_neg inside, isKept, if_neg Bool.false_ne_true]

/-- The loop returns at the end of the vector. -/
theorem eraseRound_end (front : List α) :
    eraseRound (fun element => some (erased element)) (front, front.length) = .inr (some front) :=
  if_pos rfl

/-- Behind the end there is no element. -/
theorem eraseRound_behindEnd (front : List α) :
    eraseRound (fun element => some (erased element)) (front, front.length + 1) = .inr none := by
  rw [eraseRound, if_neg (Nat.succ_ne_self _), List.getElem?_eq_none (Nat.le_succ _)]
  rfl

/-- The loop goes on to where it returns the survivors of the elements from its iterator on. -/
theorem goes_survivors (front elements : List α) :
    ∃ last, Relation.ReflTransGen (WhileLoop.Goes (eraseRound fun element => some (erased element)))
        (front ++ elements, front.length) last ∧
      eraseRound (fun element => some (erased element)) last =
        .inr ((survivors erased elements).map (front ++ ·)) := by
  induction elements using survivors.induct erased generalizing front with
  | case1 =>
      refine ⟨_, .refl, ?_⟩
      rw [List.append_nil, eraseRound_end, survivors, Option.map_some, List.append_nil]
  | case2 last isErased =>
      have goes := eraseRound_erased front [] isErased
      rw [List.append_nil] at goes
      refine ⟨_, .single goes, ?_⟩
      rw [eraseRound_behindEnd, survivors, if_pos isErased]
      rfl
  | case3 last isKept =>
      have goes := eraseRound_kept front [] (Bool.eq_false_iff.mpr isKept)
      refine ⟨_, .single goes, ?_⟩
      rw [← List.length_singleton (a := last), ← List.length_append, eraseRound_end, survivors,
        if_neg isKept]
      rfl
  | case4 first second rest isErased ih =>
      have goes := eraseRound_erased front (second :: rest) isErased
      obtain ⟨last, goesOn, returns⟩ := ih (front ++ [second])
      rw [List.append_assoc, List.length_append, List.length_singleton,
        List.singleton_append] at goesOn
      refine ⟨last, .head goes goesOn, ?_⟩
      rw [returns, survivors, if_pos isErased, Option.map_map]
      congr
      funext kept
      simp
  | case5 first second rest isKept ih =>
      have goes := eraseRound_kept front (second :: rest) (Bool.eq_false_iff.mpr isKept)
      obtain ⟨last, goesOn, returns⟩ := ih (front ++ [first])
      rw [List.append_assoc, List.length_append, List.length_singleton,
        List.singleton_append] at goesOn
      refine ⟨last, .head goes goesOn, ?_⟩
      rw [returns, survivors, if_neg isKept, Option.map_map]
      congr
      funext kept
      simp

/-- The elements in front of a kept one do not matter to those behind it. -/
theorem isolated_cons_iff {element : α} (isKept : erased element = false) (rest : List α) :
    Isolated erased (element :: rest) ↔ Isolated erased rest := by
  cases rest with
  | nil =>
      refine iff_of_true ⟨List.isChain_singleton _, ?_⟩ ⟨List.isChain_nil, nofun⟩
      intro last isLast
      cases isLast
      exact isKept
  | cons next others =>
      constructor
      · rintro ⟨neighbours, last⟩
        exact ⟨(List.isChain_cons_cons.mp neighbours).2, last⟩
      · rintro ⟨neighbours, last⟩
        refine ⟨List.isChain_cons_cons.mpr ⟨?_, neighbours⟩, last⟩
        intro both
        rw [isKept] at both
        cases both.1

/-- The survivors are the elements that are not erased exactly when the erased ones are
isolated. -/
theorem survivors_eq_filter_iff (elements : List α) :
    survivors erased elements = some (elements.filter fun element => !erased element) ↔
      Isolated erased elements := by
  induction elements using survivors.induct erased with
  | case1 => exact iff_of_true rfl ⟨List.isChain_nil, nofun⟩
  | case2 last isErased =>
      rw [survivors, if_pos isErased]
      refine iff_of_false nofun fun isolated => ?_
      rw [isolated.last last rfl] at isErased
      cases isErased
  | case3 last isKept =>
      have kept := Bool.eq_false_iff.mpr isKept
      rw [survivors, if_neg isKept, isolated_cons_iff kept]
      refine iff_of_true ?_ ⟨List.isChain_nil, nofun⟩
      rw [List.filter_cons_of_pos (by rw [kept]; rfl), List.filter_nil]
  | case4 first second rest isErased ih =>
      rw [survivors, if_pos isErased,
        List.filter_cons_of_neg (by rw [isErased]; exact Bool.false_ne_true)]
      cases isNext : erased second with
      | true =>
          refine iff_of_false ?_ fun isolated => ?_
          · intro same
            obtain ⟨kept, -, isFilter⟩ := Option.map_eq_some_iff.mp same
            have member : second ∈ (second :: rest).filter fun element => !erased element := by
              rw [← isFilter]
              exact List.mem_cons_self
            rw [List.mem_filter, isNext] at member
            cases member.2
          · exact (List.isChain_cons_cons.mp isolated.neighbours).1 ⟨isErased, isNext⟩
      | false =>
          have same : Isolated erased (first :: second :: rest) ↔
              Isolated erased (second :: rest) := by
            constructor
            · rintro ⟨neighbours, last⟩
              exact ⟨(List.isChain_cons_cons.mp neighbours).2, last⟩
            · rintro ⟨neighbours, last⟩
              refine ⟨List.isChain_cons_cons.mpr ⟨?_, neighbours⟩, last⟩
              intro both
              rw [isNext] at both
              cases both.2
          rw [same, isolated_cons_iff isNext, ← ih,
            List.filter_cons_of_pos (by rw [isNext]; rfl), Option.map_eq_some_iff]
          simp only [List.cons.injEq, true_and, exists_eq_right]
  | case5 first second rest isKept ih =>
      have kept := Bool.eq_false_iff.mpr isKept
      rw [survivors, if_neg isKept, isolated_cons_iff kept, ← ih,
        List.filter_cons_of_pos (by rw [kept]; rfl), Option.map_eq_some_iff]
      simp only [List.cons.injEq, true_and, exists_eq_right]

end Survivors

end miutil

/-! ## Cleaning up -/

namespace SymbolGenerator

variable {S F : Type} [SymbolMaker S F]

/-- The condition of the cleanup is that a symbol does not fit. -/
theorem isGarbage_eq {precipHours : ℤ} (positive : 0 < precipHours) :
    (isGarbage precipHours : S → Option Bool) =
      fun symbol => some (!decide (Fits precipHours symbol)) := by
  funext symbol
  rw [isGarbage, if_neg positive.ne', ← decide_not]
  congr 2
  rw [Fits, Int.dvd_iff_tmod_eq_zero]

/-- The cleanup leaves the survivors of the symbols. -/
theorem cleansUp_iff_survivors {precipHours : ℤ} (positive : 0 < precipHours)
    (tmpSymbols : List S) :
    CleansUp precipHours tmpSymbols ↔
      miutil.survivors (fun symbol => !decide (Fits precipHours symbol)) tmpSymbols =
        some (tmpSymbols.filter fun symbol => Fits precipHours symbol) := by
  obtain ⟨last, goes, returns⟩ :=
    @miutil.goes_survivors S (fun symbol => !decide (Fits precipHours symbol)) [] tmpSymbols
  simp only [List.nil_append, List.length_nil, Option.map_id'] at goes returns
  rw [CleansUp]
  simp only [cleanup, isGarbage_eq positive]
  constructor
  · rintro ⟨fuel, ran⟩
    exact (WhileLoop.runUntil_of_goes goes returns ran).symm
  · intro same
    rw [← same]
    exact WhileLoop.exists_runUntil_of_goes goes returns

/-- Symbols are cleaned up exactly when those that do not fit are isolated. -/
theorem cleansUp_iff {precipHours : ℤ} (positive : 0 < precipHours) (tmpSymbols : List S) :
    CleansUp precipHours tmpSymbols ↔
      miutil.Isolated (fun symbol => !decide (Fits precipHours symbol)) tmpSymbols := by
  rw [cleansUp_iff_survivors positive, ← miutil.survivors_eq_filter_iff]
  simp only [Bool.not_not]

/-- A symbol at an hour of the first day. -/
def symbolAt (hour : ℤ) : PlainSymbol := ⟨1, 3600 * hour, false⟩

theorem cleansUp_iff_alternating :
    CleansUp 2 [symbolAt 1, symbolAt 2, symbolAt 3, symbolAt 4] ↔
      miutil.Isolated (fun symbol => !decide (Fits 2 symbol))
        [symbolAt 1, symbolAt 2, symbolAt 3, symbolAt 4] :=
  cleansUp_iff (by decide) _

/-- With neighbours that do not fit one of them is left, and with a last one the loop runs behind
the end. -/
theorem not_cleansUp_neighbours :
    cleanup 6 10 [symbolAt 6, symbolAt 7, symbolAt 8, symbolAt 12] =
        some (some [symbolAt 6, symbolAt 8, symbolAt 12]) ∧
      cleanup 6 10 [symbolAt 6, symbolAt 7] = some none ∧
      ¬CleansUp 6 [symbolAt 6, symbolAt 7, symbolAt 8, symbolAt 12] := by
  refine ⟨by decide +kernel, by decide +kernel, ?_⟩
  rw [cleansUp_iff_survivors (by decide)]
  decide +kernel

end SymbolGenerator

end Wdb2ts
