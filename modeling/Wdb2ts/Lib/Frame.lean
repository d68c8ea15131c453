import Mathlib.Tactic

/-!
# Frame rules for state monads

A program keeps a view of the state when it leaves the view as it was, from every state
whose view is safe.  Since safety is a property of the view, programs that keep it
compose.
-/

universe u v

namespace Frame

variable {σ : Type u} {ν : Type v} {α β : Type u}

/-- A program that leaves the view of a safe state as it was. -/
def Keeps (view : σ → ν) (safe : ν → Prop) (program : StateM σ α) : Prop :=
  ∀ state, safe (view state) → view (program.run state).2 = view state

variable {view : σ → ν} {safe : ν → Prop}

theorem keeps_pure (value : α) : Keeps view safe (pure value : StateM σ α) := by
  intro state _
  rfl

theorem keeps_get : Keeps view safe (get : StateM σ σ) := by
  intro state _
  rfl

theorem keeps_modify {change : σ → σ} (same : ∀ state, view (change state) = view state) :
    Keeps view safe (modify change : StateM σ PUnit) := by
  intro state _
  exact same state

theorem Keeps.bind {program : StateM σ α} {rest : α → StateM σ β}
    (first : Keeps view safe program) (second : ∀ value, Keeps view safe (rest value)) :
    Keeps view safe (program >>= rest) := by
  intro state isSafe
  have middle := first state isSafe
  have final := second (program.run state).1 (program.run state).2 (middle ▸ isSafe)
  exact final.trans middle

theorem Keeps.map {program : StateM σ α} (first : Keeps view safe program) (image : α → β) :
    Keeps view safe (image <$> program) :=
  first.bind fun value => keeps_pure (image value)

theorem keeps_ite {condition : Prop} [Decidable condition] {yes no : StateM σ α}
    (left : Keeps view safe yes) (right : Keeps view safe no) :
    Keeps view safe (if condition then yes else no) := by
  split
  · exact left
  · exact right

end Frame
