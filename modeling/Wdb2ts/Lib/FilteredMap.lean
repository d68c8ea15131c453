import Wdb2ts.Lib.MapIterator

/-!
# Maps with some of their values

The values of an ordered map are changed or left out one by one.  A loop that does this in place
stores the new value at its iterator before it goes on.
-/

universe u v w

namespace SortedMap

variable {κ : Type u} {β : Type v} {γ : Type w}

/-- The entry with the new value, unless it is left out. -/
def imageOf (image : β → Option γ) (entry : κ × β) : Option (κ × γ) :=
  (image entry.2).map fun value => (entry.1, value)

theorem imageOf_eq_some {image : β → Option γ} {entry : κ × β} {key : κ} {value : γ} :
    imageOf image entry = some (key, value) ↔ entry.1 = key ∧ image entry.2 = some value := by
  rw [imageOf, Option.map_eq_some_iff]
  constructor
  · rintro ⟨stored, isImage, equal⟩
    cases equal
    exact ⟨rfl, isImage⟩
  · rintro ⟨rfl, isImage⟩
    exact ⟨value, isImage, rfl⟩

variable [LinearOrder κ]

/-- Change or leave out every value. -/
def filterMapValues (map : SortedMap κ β) (image : β → Option γ) : SortedMap κ γ :=
  ⟨map.entries.filterMap (imageOf image), by
    rw [List.pairwise_filterMap]
    apply map.sorted.imp
    rintro left right less ⟨leftKey, leftValue⟩ isLeft ⟨rightKey, rightValue⟩ isRight
    rw [imageOf_eq_some] at isLeft isRight
    rw [← isLeft.1, ← isRight.1]
    exact less⟩

theorem find?_filterMapValues (map : SortedMap κ β) (image : β → Option γ) (key : κ) :
    (map.filterMapValues image).find? key = (map.find? key).bind image := by
  apply Option.ext
  intro value
  rw [← mem_entries_iff, Option.bind_eq_some_iff]
  constructor
  · intro member
    rcases List.mem_filterMap.mp member with ⟨⟨other, old⟩, stored, isImage⟩
    rw [imageOf_eq_some] at isImage
    rw [← isImage.1]
    exact ⟨old, mem_entries_iff.mp stored, isImage.2⟩
  · rintro ⟨old, found, isImage⟩
    exact List.mem_filterMap.mpr ⟨(key, old), mem_entries_iff.mpr found,
      imageOf_eq_some.mpr ⟨rfl, isImage⟩⟩

theorem find?_of_isEmpty {map : SortedMap κ β} (isEmpty : map.entries.isEmpty = true)
    (key : κ) : map.find? key = none := by
  rw [find?, List.isEmpty_iff.mp isEmpty]
  rfl

namespace SplitAt

variable {map : SortedMap κ β} {it : Iterator κ} {before rest : List (κ × β)} {key : κ}
  {value : β}

theorem upsertEntries_append {image : Option β → β}
    (smaller : ∀ entry ∈ before, entry.1 < key) :
    upsertEntries key image (before ++ (key, value) :: rest) =
      before ++ (key, image (some value)) :: rest := by
  induction before with
  | nil => simp [upsertEntries]
  | cons head before induction =>
      have first := smaller head (List.mem_cons_self ..)
      have others : ∀ entry ∈ before, entry.1 < key := fun entry member =>
        smaller entry (List.mem_cons_of_mem _ member)
      rw [List.cons_append, upsertEntries, if_neg first.not_gt, if_neg first.ne', induction others]
      rfl

/-- Store another value at the iterator. -/
theorem insert (split : map.SplitAt it before ((key, value) :: rest)) (stored : β) :
    (map.insert key stored).SplitAt it before ((key, stored) :: rest) where
  entries := by
    rw [SortedMap.insert, upsert]
    dsimp only
    rw [split.entries]
    exact upsertEntries_append fun entry member => split.lt_of_mem_before member
  at_ := split.at_

end SplitAt

end SortedMap
