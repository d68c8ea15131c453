import Mathlib.Algebra.Order.BigOperators.Group.List
import Mathlib.Algebra.Order.Group.Defs
import Mathlib.Tactic

/-!
# Sums of positive parts

Negative values can be counted as zero one by one, or in the sum.  The two agree when the
values do not have different signs.
-/

namespace PositiveParts

variable {α : Type*} [AddCommGroup α] [LinearOrder α] [IsOrderedAddMonoid α]

theorem sum_nonneg (values : List α) : 0 ≤ (values.map (max 0)).sum := by
  induction values with
  | nil => exact le_refl 0
  | cons value rest ih =>
      rw [List.map_cons, List.sum_cons]
      exact add_nonneg (le_max_left 0 value) ih

theorem sum_le (values : List α) : values.sum ≤ (values.map (max 0)).sum := by
  induction values with
  | nil => exact le_refl 0
  | cons value rest ih =>
      rw [List.map_cons, List.sum_cons, List.sum_cons]
      exact add_le_add (le_max_right 0 value) ih

/-- The positive parts add up to the sum exactly when no value is negative. -/
theorem sum_eq_sum_iff (values : List α) :
    (values.map (max 0)).sum = values.sum ↔ ∀ value ∈ values, 0 ≤ value := by
  induction values with
  | nil => simp
  | cons value rest ih =>
      rw [List.map_cons, List.sum_cons, List.sum_cons, List.forall_mem_cons, ← ih, eq_comm,
        add_eq_add_iff_eq_and_eq (le_max_right 0 value) (sum_le rest), eq_comm, max_eq_right_iff,
        eq_comm (a := rest.sum)]

/-- The positive parts add up to nothing exactly when no value is positive. -/
theorem sum_eq_zero_iff (values : List α) :
    (values.map (max 0)).sum = 0 ↔ ∀ value ∈ values, value ≤ 0 := by
  induction values with
  | nil => simp
  | cons value rest ih =>
      rw [List.map_cons, List.sum_cons, List.forall_mem_cons, ← ih,
        add_eq_zero_iff_of_nonneg (le_max_left 0 value) (sum_nonneg rest), max_eq_left_iff]

/-- The positive parts add up to the positive part of the sum exactly when the values do not
have different signs. -/
theorem sum_eq_max_iff (values : List α) :
    (values.map (max 0)).sum = max 0 values.sum ↔
      (∀ value ∈ values, 0 ≤ value) ∨ ∀ value ∈ values, value ≤ 0 := by
  rw [← sum_eq_sum_iff, ← sum_eq_zero_iff]
  constructor
  · intro same
    rcases max_choice 0 values.sum with none | all
    · exact Or.inr (same.trans none)
    · exact Or.inl (same.trans all)
  · intro parts
    rcases parts with all | none
    · have nonneg : 0 ≤ values.sum := (sum_nonneg values).trans_eq all
      rw [all, max_eq_right nonneg]
    · have nonpos : values.sum ≤ 0 := (sum_le values).trans_eq none
      rw [none, max_eq_left nonpos]

end PositiveParts
