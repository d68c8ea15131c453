import Wdb2ts.Lib.SortedMap

/-!
# First matches

A search that stops at the first element for which a partial function is defined is
`List.findSome?`.  The element it stops at is the one with the least index, and over the
entries of an ordered map it is the one with the least key.
-/

universe u v w

namespace FirstMatch

variable {α : Type u} {ω : Type w} {found : ω}

/-- The first match is the match with the least index. -/
theorem findSome?_eq_some_iff_getElem? {list : List α} {matching : α → Option ω} :
    list.findSome? matching = some found ↔
      ∃ (index : ℕ) (value : α), list[index]? = some value ∧ matching value = some found ∧
        ∀ earlier < index, ∀ other, list[earlier]? = some other → matching other = none := by
  rw [List.findSome?_eq_some_iff]
  constructor
  · intro first
    rcases first with ⟨before, value, after, split, matched, least⟩
    refine ⟨before.length, value, by simp [split], matched, ?_⟩
    intro earlier less other position
    rw [split, List.getElem?_append_left less] at position
    exact least other (List.mem_of_getElem? position)
  · intro first
    rcases first with ⟨index, value, position, matched, least⟩
    rcases List.getElem?_eq_some_iff.mp position with ⟨inBounds, atIndex⟩
    refine ⟨list.take index, value, list.drop (index + 1), ?_, matched, ?_⟩
    · rw [← atIndex, List.getElem_cons_drop, List.take_append_drop]
    · intro other member
      rcases List.mem_take_iff_getElem.mp member with ⟨earlier, less, atEarlier⟩
      have bounds := lt_min_iff.mp less
      apply least earlier bounds.1 other
      rw [List.getElem?_eq_getElem bounds.2, atEarlier]

variable {κ : Type u} {β : Type v} [LinearOrder κ]

/-- Over an ordered map, the first match is the match with the least key. -/
theorem findSome?_entries_eq_some_iff {map : SortedMap κ β} {matching : κ × β → Option ω} :
    map.entries.findSome? matching = some found ↔
      ∃ key value, map.find? key = some value ∧ matching (key, value) = some found ∧
        ∀ earlier < key, ∀ other, map.find? earlier = some other →
          matching (earlier, other) = none := by
  rw [List.findSome?_eq_some_iff]
  constructor
  · intro first
    rcases first with ⟨before, ⟨key, value⟩, after, split, matched, least⟩
    have sorted := map.sorted
    rw [split, List.pairwise_append, List.pairwise_cons] at sorted
    refine ⟨key, value, ?_, matched, ?_⟩
    · apply SortedMap.mem_entries_iff.mp
      simp [split]
    · intro earlier less other stored
      have member := SortedMap.mem_entries_iff.mpr stored
      rw [split, List.mem_append, List.mem_cons] at member
      rcases member with inBefore | same | inAfter
      · exact least _ inBefore
      · cases same
        exact absurd less (lt_irrefl _)
      · exact absurd less (sorted.2.1.1 _ inAfter).not_gt
  · intro first
    rcases first with ⟨key, value, stored, matched, least⟩
    rcases List.append_of_mem (SortedMap.mem_entries_iff.mpr stored) with
      ⟨before, after, split⟩
    refine ⟨before, (key, value), after, split, matched, ?_⟩
    intro entry member
    have sorted := map.sorted
    rw [split, List.pairwise_append] at sorted
    have less : entry.1 < key := sorted.2.2 entry member (key, value) List.mem_cons_self
    apply least entry.1 less entry.2
    apply SortedMap.mem_entries_iff.mp
    simp [split, member]

/-- A match of a search that goes through a map and, at each of its entries, through a
list. -/
def IsMatch (map : SortedMap κ β) (list : List α) (matching : κ → β → α → Option ω)
    (key : κ) (index : ℕ) (found : ω) : Prop :=
  ∃ value element, map.find? key = some value ∧ list[index]? = some element ∧
    matching key value element = some found

/-- Such a search returns the match that is first in the lexicographic order of keys and
indices. -/
theorem findSome?_lexicographic {map : SortedMap κ β} {list : List α}
    {matching : κ → β → α → Option ω} :
    (map.entries.findSome? fun entry => list.findSome? (matching entry.1 entry.2)) =
        some found ↔
      ∃ key index, IsMatch map list matching key index found ∧
        ∀ otherKey otherIndex other, IsMatch map list matching otherKey otherIndex other →
          key < otherKey ∨ key = otherKey ∧ index ≤ otherIndex := by
  rw [findSome?_entries_eq_some_iff]
  simp only [findSome?_eq_some_iff_getElem?]
  constructor
  · intro first
    rcases first with ⟨key, value, stored, ⟨index, element, position, matched, leastIndex⟩,
      leastKey⟩
    refine ⟨key, index, ⟨value, element, stored, position, matched⟩, ?_⟩
    intro otherKey otherIndex other candidate
    rcases candidate with ⟨otherValue, otherElement, otherStored, otherPosition, otherMatched⟩
    rcases lt_trichotomy key otherKey with less | same | greater
    · exact Or.inl less
    · subst same
      cases stored.symm.trans otherStored
      apply Or.inr
      constructor
      · rfl
      · apply le_of_not_gt
        intro before
        rw [leastIndex otherIndex before otherElement otherPosition] at otherMatched
        cases otherMatched
    · have none := leastKey otherKey greater otherValue otherStored
      rw [List.findSome?_eq_none_iff] at none
      rw [none otherElement (List.mem_of_getElem? otherPosition)] at otherMatched
      cases otherMatched
  · intro first
    rcases first with ⟨key, index, ⟨value, element, stored, position, matched⟩, least⟩
    refine ⟨key, value, stored, ⟨index, element, position, matched, ?_⟩, ?_⟩
    · intro earlier before other otherPosition
      apply Option.eq_none_iff_forall_ne_some.mpr
      intro result otherMatched
      rcases least key earlier result ⟨value, other, stored, otherPosition, otherMatched⟩ with
        less | same
      · exact lt_irrefl _ less
      · exact absurd same.2 (not_le_of_gt before)
    · intro earlier less other otherStored
      apply List.findSome?_eq_none_iff.mpr
      intro otherElement member
      apply Option.eq_none_iff_forall_ne_some.mpr
      intro result otherMatched
      rcases List.mem_iff_getElem?.mp member with ⟨otherIndex, otherPosition⟩
      rcases least earlier otherIndex result
        ⟨other, otherElement, otherStored, otherPosition, otherMatched⟩ with before | same
      · exact lt_asymm less before
      · exact less.ne same.1.symm

/-- Such a search fails when there is no match. -/
theorem findSome?_eq_none_iff_isMatch {map : SortedMap κ β} {list : List α}
    {matching : κ → β → α → Option ω} :
    (map.entries.findSome? fun entry => list.findSome? (matching entry.1 entry.2)) = none ↔
      ∀ key index found, ¬IsMatch map list matching key index found := by
  simp only [List.findSome?_eq_none_iff]
  constructor
  · intro never key index found candidate
    rcases candidate with ⟨value, element, stored, position, matched⟩
    rw [never (key, value) (SortedMap.mem_entries_iff.mpr stored) element
      (List.mem_of_getElem? position)] at matched
    cases matched
  · intro never entry stored element member
    apply Option.eq_none_iff_forall_ne_some.mpr
    intro found matched
    rcases List.mem_iff_getElem?.mp member with ⟨index, position⟩
    exact never entry.1 index found
      ⟨entry.2, element, SortedMap.mem_entries_iff.mp stored, position, matched⟩

end FirstMatch
