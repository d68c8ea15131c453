import Mathlib.Data.Finset.Card
import Mathlib.Data.Finset.Lattice.Fold
import Wdb2ts.Lib.SortedMap

/-!
# The newest keys

A set of bounded size keeps the greatest of the elements that have been added to it.  It stays so
when an element is added and, if there are too many elements, the smallest one is removed.  A
sorted map whose first entry is removed when it grows too large keeps the greatest of its keys.
-/

universe u v

variable {κ : Type u} [LinearOrder κ]

/-- A set has the greatest of the elements that have been added, and as many as it can hold. -/
structure Newest (capacity : ℕ) (added kept : Finset κ) : Prop where
  subset : kept ⊆ added
  card : kept.card = min capacity added.card
  newer : ∀ key ∈ kept, ∀ other ∈ added, other ∉ kept → other < key

namespace Newest

variable {capacity : ℕ} {added kept : Finset κ}

theorem empty (capacity : ℕ) : Newest capacity (∅ : Finset κ) ∅ where
  subset := Finset.Subset.refl _
  card := by simp
  newer := by simp

/-- A set that leaves an element out is full. -/
theorem card_eq_capacity (newest : Newest capacity added kept) {key : κ} (isAdded : key ∈ added)
    (leftOut : key ∉ kept) : kept.card = capacity := by
  have fewer : kept.card < added.card :=
    Finset.card_lt_card (Finset.ssubset_iff_of_subset newest.subset |>.mpr ⟨key, isAdded, leftOut⟩)
  have card := newest.card
  omega

theorem card_le_capacity (newest : Newest capacity added kept) : kept.card ≤ capacity :=
  newest.card ▸ min_le_left _ _

/-- A set with room has all elements that have been added. -/
theorem eq_added_of_lt (newest : Newest capacity added kept) (room : kept.card < capacity) :
    kept = added := by
  apply Finset.Subset.antisymm newest.subset
  intro key isAdded
  by_contra leftOut
  exact room.ne (newest.card_eq_capacity isAdded leftOut)

theorem all_of_card_le (few : added.card ≤ capacity) : Newest capacity added added where
  subset := Finset.Subset.refl added
  card := (min_eq_right few).symm
  newer := fun _ _ _ isAdded leftOut => absurd isAdded leftOut

/-- An element is added to a set with room for it. -/
theorem insert_of_le [DecidableEq κ] (newest : Newest capacity added kept) {key : κ}
    (room : (insert key kept).card ≤ capacity) :
    Newest capacity (insert key added) (insert key kept) := by
  by_cases present : key ∈ kept
  · rwa [Finset.insert_eq_self.mpr present, Finset.insert_eq_self.mpr (newest.subset present)]
  · have notFull : kept.card < capacity := by
      rw [Finset.card_insert_of_notMem present] at room
      exact room
    have all := newest.eq_added_of_lt notFull
    rw [all] at room ⊢
    exact all_of_card_le room

/-- An element is added to a full set, and the smallest element is removed. -/
theorem insert_erase [DecidableEq κ] (newest : Newest capacity added kept) {key first : κ}
    (full : capacity < (insert key kept).card) (isIn : first ∈ insert key kept)
    (smallest : ∀ other ∈ insert key kept, first ≤ other) :
    Newest capacity (insert key added) ((insert key kept).erase first) := by
  have grows := Finset.insert_subset_insert key newest.subset
  have sizes := Finset.card_le_card grows
  have one := Finset.card_insert_le key kept
  have atMost := newest.card_le_capacity
  refine ⟨(Finset.erase_subset _ _).trans grows, ?_, ?_⟩
  · rw [Finset.card_erase_of_mem isIn]
    omega
  · intro inside isInside other isAdded leftOut
    have differs := Finset.ne_of_mem_erase isInside
    have inPushed := Finset.mem_of_mem_erase isInside
    have above : first < inside := lt_of_le_of_ne (smallest inside inPushed) differs.symm
    by_cases wasPushed : other ∈ insert key kept
    · have isFirst : other = first := by
        by_contra differ
        exact leftOut (Finset.mem_erase.mpr ⟨differ, wasPushed⟩)
      rwa [isFirst]
    · rw [Finset.mem_insert, not_or] at wasPushed
      have wasAdded := (Finset.mem_insert.mp isAdded).resolve_left wasPushed.1
      rcases Finset.mem_insert.mp inPushed with isKey | wasKept
      · have firstKept := (Finset.mem_insert.mp isIn).resolve_left (isKey ▸ differs.symm)
        exact (newest.newer first firstKept other wasAdded wasPushed.2).trans above
      · exact newest.newer inside wasKept other wasAdded wasPushed.2

/-- An element that is kept has been kept since it was added. -/
theorem mem_of_subset (newest : Newest capacity added kept) {earlier earlierKept : Finset κ}
    (before : Newest capacity earlier earlierKept) (subset : earlier ⊆ added) {key : κ}
    (isKept : key ∈ kept) (isAdded : key ∈ earlier) : key ∈ earlierKept := by
  by_contra leftOut
  have full := before.card_eq_capacity isAdded leftOut
  have stay : earlierKept ⊆ kept := by
    intro other wasKept
    have above := before.newer other wasKept key isAdded leftOut
    by_contra gone
    have below := newest.newer key isKept other (subset (before.subset wasKept)) gone
    exact lt_asymm above below
  have both := Finset.card_le_card (Finset.insert_subset isKept stay)
  rw [Finset.card_insert_of_notMem leftOut, full] at both
  exact absurd newest.card_le_capacity (Nat.not_le.mpr both)

end Newest

namespace SortedMap

variable {β : Type v} {capacity : ℕ}

/-- A map without its first entry. -/
def eraseFirst (map : SortedMap κ β) : SortedMap κ β := ⟨map.entries.tail, map.sorted.tail⟩

/-- Store a value, and remove the first entry if the map becomes too large. -/
def pushNewest (capacity : ℕ) (map : SortedMap κ β) (key : κ) (value : β) : SortedMap κ β :=
  let pushed := map.insert key value
  if capacity < pushed.size then pushed.eraseFirst else pushed

theorem keys_sorted (map : SortedMap κ β) : map.keys.Pairwise (· < ·) :=
  List.pairwise_map.mpr map.sorted

theorem card_keys [DecidableEq κ] (map : SortedMap κ β) : map.keys.toFinset.card = map.size := by
  rw [List.toFinset_card_of_nodup (map.keys_sorted.imp ne_of_lt), keys, List.length_map, size]

theorem toFinset_keys_insert [DecidableEq κ] (map : SortedMap κ β) (key : κ) (value : β) :
    (map.insert key value).keys.toFinset = Insert.insert key map.keys.toFinset := by
  ext other
  rw [List.mem_toFinset, Finset.mem_insert, List.mem_toFinset, mem_keys_iff, mem_keys_iff,
    find?_insert]
  split
  · next same => simp [same]
  · next differ => simp [differ]

/-- The first key is the smallest one, and it is the one that is removed. -/
theorem exists_first [DecidableEq κ] {map : SortedMap κ β} (notEmpty : 0 < map.size) :
    ∃ first ∈ map.keys.toFinset, (∀ other ∈ map.keys.toFinset, first ≤ other) ∧
      map.eraseFirst.keys.toFinset = map.keys.toFinset.erase first ∧
        ∀ other, other ≠ first → map.eraseFirst.find? other = map.find? other := by
  obtain ⟨entries, sorted⟩ := map
  cases entries with
  | nil => exact absurd notEmpty (lt_irrefl 0)
  | cons head rest =>
      have behind := (List.pairwise_cons.mp sorted).1
      have notFirst : head.1 ∉ (rest.map Prod.fst).toFinset := by
        rw [List.mem_toFinset, List.mem_map]
        rintro ⟨entry, member, same⟩
        exact (behind entry member).ne same.symm
      refine ⟨head.1, ?_, ?_, ?_, ?_⟩
      · simp [keys]
      · intro other isKey
        simp only [keys, List.map_cons, List.toFinset_cons, Finset.mem_insert, List.mem_toFinset,
          List.mem_map] at isKey
        rcases isKey with rfl | ⟨entry, member, rfl⟩
        · exact le_rfl
        · exact (behind entry member).le
      · simp only [keys, eraseFirst, List.tail_cons, List.map_cons, List.toFinset_cons]
        exact (Finset.erase_insert notFirst).symm
      · intro other differs
        apply Option.ext
        intro value
        rw [← mem_entries_iff, ← mem_entries_iff]
        constructor
        · exact List.mem_cons_of_mem head
        · intro member
          refine (List.mem_cons.mp member).resolve_left fun same => differs ?_
          rw [← same]

/-- The keys stay the newest ones. -/
theorem Newest.pushNewest [DecidableEq κ] {added : Finset κ} {map : SortedMap κ β}
    (newest : Newest capacity added map.keys.toFinset) (key : κ) (value : β) :
    Newest capacity (Insert.insert key added) (map.pushNewest capacity key value).keys.toFinset := by
  have keys := map.toFinset_keys_insert key value
  have size := (map.insert key value).card_keys
  rw [SortedMap.pushNewest]
  split
  · next full =>
      obtain ⟨first, isIn, smallest, erased, -⟩ := exists_first (Nat.zero_lt_of_lt full)
      rw [← size, keys] at full
      rw [keys] at isIn smallest erased
      rw [erased]
      exact newest.insert_erase full isIn smallest
  · next room =>
      rw [← size, keys, Nat.not_lt] at room
      rw [keys]
      exact newest.insert_of_le room

/-- A key that is kept has the value that was stored last. -/
theorem find?_pushNewest {map : SortedMap κ β} {key other : κ} {value : β}
    (isKept : other ∈ (map.pushNewest capacity key value).keys) :
    (map.pushNewest capacity key value).find? other =
      if other = key then some value else map.find? other := by
  rw [← find?_insert]
  revert isKept
  rw [pushNewest]
  split
  · next full =>
      obtain ⟨first, -, -, erased, others⟩ := exists_first (Nat.zero_lt_of_lt full)
      intro isKept
      apply others
      rw [← List.mem_toFinset, erased] at isKept
      exact Finset.ne_of_mem_erase isKept
  · exact fun _ => rfl

end SortedMap
