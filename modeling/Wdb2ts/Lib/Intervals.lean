import Mathlib.Tactic

/-!
# Intervals of a linear order

An interval holds the points after its first one, up to its last one.  Intervals tile a
period when each begins where the one before it ends, and then every point of the period is
in exactly one of them.
-/

namespace Intervals

variable {α : Type*} [LinearOrder α]

/-- The intervals begin at a point, each begins where the one before it ends, and the last
ends at a point. -/
def Tiles : (first last : α) → List (α × α) → Prop
  | first, last, [] => first = last
  | first, last, interval :: rest =>
      interval.1 = first ∧ first < interval.2 ∧ Tiles interval.2 last rest

/-- Every point of the period is in exactly one of the intervals. -/
def CoversOnce (first last : α) (intervals : List (α × α)) : Prop :=
  ∀ point, first < point → point ≤ last →
    ∃! position : ℕ, ∃ interval ∈ intervals[position]?, interval.1 < point ∧ point ≤ interval.2

variable {first last : α} {intervals : List (α × α)}

theorem Tiles.le (tiles : Tiles first last intervals) : first ≤ last := by
  induction intervals generalizing first with
  | nil => exact tiles.le
  | cons interval rest ih => exact (tiles.2.1.trans_le (ih tiles.2.2)).le

/-- No interval of a tiling begins before its first point. -/
theorem Tiles.first_le (tiles : Tiles first last intervals) {interval : α × α}
    (member : interval ∈ intervals) : first ≤ interval.1 := by
  induction intervals generalizing first with
  | nil => cases member
  | cons head rest ih =>
      rcases List.mem_cons.mp member with rfl | later
      · exact tiles.1.ge
      · exact tiles.2.1.le.trans (ih tiles.2.2 later)

/-- Intervals that tile a period cover every point of it exactly once. -/
theorem Tiles.coversOnce (tiles : Tiles first last intervals) :
    CoversOnce first last intervals := by
  induction intervals generalizing first with
  | nil =>
      intro point after upTo
      exact absurd after (not_lt.mpr (upTo.trans_eq (show first = last from tiles).symm))
  | cons interval rest ih =>
      rcases tiles with ⟨begins, positive, tilesRest⟩
      intro point after upTo
      by_cases inside : point ≤ interval.2
      · refine ⟨0, ⟨interval, rfl, begins ▸ after, inside⟩, ?_⟩
        intro position here
        rcases here with ⟨other, atPosition, begun, _⟩
        cases position with
        | zero => rfl
        | succ position =>
            have later : interval.2 ≤ other.1 :=
              tilesRest.first_le (List.mem_of_getElem? atPosition)
            exact absurd begun (not_lt.mpr (inside.trans later))
      · rcases ih tilesRest point (not_le.mp inside) upTo with ⟨position, here, only⟩
        refine ⟨position + 1, here, ?_⟩
        intro other there
        cases other with
        | zero =>
            rcases there with ⟨found, atPosition, _, ended⟩
            have same : interval = found := Option.some.inj atPosition
            exact absurd (same ▸ ended) inside
        | succ other => rw [only other there]

/-! ## The entries of a period -/

section Period

variable {β : Type*} {entries : List (α × β)}

/-- In ascending order, every entry up to a key is among the first that are. -/
theorem mem_takeWhile_le {key : α} {entry : α × β}
    (ascending : entries.Pairwise fun earlier later => earlier.1 < later.1)
    (member : entry ∈ entries) (upTo : entry.1 ≤ key) :
    entry ∈ entries.takeWhile fun other => other.1 ≤ key := by
  induction entries with
  | nil => cases member
  | cons head rest ih =>
      rw [List.pairwise_cons] at ascending
      rcases List.mem_cons.mp member with rfl | later
      · simp [upTo]
      · have before : head.1 ≤ key := (ascending.1 entry later).le.trans upTo
        simp only [before, decide_true, List.takeWhile_cons_of_pos, List.mem_cons]
        exact Or.inr (ih ascending.2 later)

/-- The last of ascending values is the one that none is after. -/
theorem getLastD_eq_of_mem {values : List α} {top standIn : α}
    (ascending : values.Pairwise (· < ·)) (member : top ∈ values)
    (upTo : ∀ value ∈ values, value ≤ top) : values.getLastD standIn = top := by
  induction values generalizing standIn with
  | nil => cases member
  | cons head rest ih =>
      rw [List.pairwise_cons] at ascending
      rw [List.getLastD_cons]
      rcases List.mem_cons.mp member with rfl | later
      · cases rest with
        | nil => rfl
        | cons next others =>
            have before := upTo next (List.mem_cons_of_mem _ (List.mem_cons_self ..))
            exact absurd before (not_le.mpr (ascending.1 next (List.mem_cons_self ..)))
      · exact ih ascending.2 later fun value inRest => upTo value (List.mem_cons_of_mem _ inRest)

variable [DecidableEq α]

/-- In ascending order, no entry from a key on is behind the search for the key. -/
theorem mem_dropWhile_ne {key : α} {entry : α × β}
    (ascending : entries.Pairwise fun earlier later => earlier.1 < later.1)
    (found : entries.dropWhile (fun other => other.1 ≠ key) ≠ [])
    (member : entry ∈ entries) (fromKey : key ≤ entry.1) :
    entry ∈ entries.dropWhile fun other => other.1 ≠ key := by
  induction entries with
  | nil => cases member
  | cons head rest ih =>
      rw [List.pairwise_cons] at ascending
      by_cases here : head.1 = key
      · simpa [here] using member
      · simp only [ne_eq, here, not_false_eq_true, decide_true, List.dropWhile_cons_of_pos]
          at found ⊢
        apply ih ascending.2 found
        rcases List.mem_cons.mp member with rfl | later
        · have atKey := List.head_dropWhile_not (fun other : α × β => decide (other.1 ≠ key)) found
          have equal : ((rest.dropWhile fun other => other.1 ≠ key).head found).1 = key := by
            simpa using atKey
          have after := ascending.1 _
            ((List.dropWhile_subset _) (List.head_mem found))
          rw [equal] at after
          exact absurd fromKey (not_le.mpr after)
        · exact later

/-- In ascending order, the entries from a key on are not before the key. -/
theorem le_of_mem_dropWhile_ne {key : α} {entry : α × β}
    (ascending : entries.Pairwise fun earlier later => earlier.1 < later.1)
    (member : entry ∈ entries.dropWhile fun other => other.1 ≠ key) : key ≤ entry.1 := by
  induction entries with
  | nil => cases member
  | cons head rest ih =>
      rw [List.pairwise_cons] at ascending
      by_cases here : head.1 = key
      · simp only [ne_eq, here, not_true_eq_false, decide_false, Bool.false_eq_true,
          not_false_eq_true, List.dropWhile_cons_of_neg, List.mem_cons] at member
        rcases member with rfl | later
        · exact here.ge
        · exact here.ge.trans (ascending.1 entry later).le
      · simp only [ne_eq, here, not_false_eq_true, decide_true,
          List.dropWhile_cons_of_pos] at member
        exact ih ascending.2 member

end Period

end Intervals
