import Mathlib.Tactic

/-!
# Walks along sorted lists

A walk along a sorted list that stops behind a bound has visited the elements up to the bound, and
it ends at the bound if and only if the bound is an element.
-/

universe u

namespace SortedList

variable {α : Type u} [LinearOrder α] {list : List α} {bound : α}

/-- The last element of a sorted list is its greatest one. -/
theorem getLast?_eq_some_iff (sorted : list.Pairwise (· < ·)) (last : α) :
    list.getLast? = some last ↔ last ∈ list ∧ ∀ element ∈ list, element ≤ last := by
  cases list using List.reverseRecOn with
  | nil => simp
  | append_singleton front greatest =>
      have above : ∀ element ∈ front, element < greatest := fun element member =>
        (List.pairwise_append.mp sorted).2.2 element member greatest (List.mem_singleton_self _)
      rw [List.getLast?_append, List.getLast?_singleton, Option.some_or, Option.some_inj]
      constructor
      · rintro rfl
        refine ⟨List.mem_append_right _ (List.mem_singleton_self _), ?_⟩
        intro element member
        rcases List.mem_append.mp member with inFront | isLast
        · exact (above element inFront).le
        · exact (List.mem_singleton.mp isLast).le
      · rintro ⟨member, least⟩
        have notLess := least greatest (List.mem_append_right _ (List.mem_singleton_self _))
        rcases List.mem_append.mp member with inFront | isLast
        · exact absurd (above last inFront) notLess.not_gt
        · exact (List.mem_singleton.mp isLast).symm

/-- Nothing of a sorted list is up to a bound that its first element is beyond. -/
theorem filter_le_eq_nil {first : α} {rest : List α} (sorted : (first :: rest).Pairwise (· < ·))
    (beyond : bound < first) : (first :: rest).filter (· ≤ bound) = [] := by
  rw [List.filter_eq_nil_iff]
  intro element member
  rw [decide_eq_true_iff, not_le]
  rcases List.mem_cons.mp member with rfl | behind
  · exact beyond
  · exact beyond.trans (List.rel_of_pairwise_cons sorted behind)

/-- The elements of a sorted list up to a bound end at the bound exactly when it is one of them. -/
theorem getLast?_filter_le (sorted : list.Pairwise (· < ·)) :
    (list.filter (· ≤ bound)).getLast? = some bound ↔ bound ∈ list := by
  rw [getLast?_eq_some_iff (sorted.filter _), List.mem_filter]
  constructor
  · exact fun isLast => isLast.1.1
  · intro member
    refine ⟨⟨member, decide_eq_true le_rfl⟩, ?_⟩
    intro element upTo
    exact of_decide_eq_true (List.mem_filter.mp upTo).2

end SortedList
