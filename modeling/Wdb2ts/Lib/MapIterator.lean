import Wdb2ts.Lib.SortedMap

/-!
# Iterators of ordered maps

An iterator of an ordered map is the key of an entry, or nothing behind the last one.  When the
entries in front of it and those from it on are known, so are its entry and the next iterator.
-/

universe u v

namespace SortedMap

variable {κ : Type u} {β : Type v} [LinearOrder κ]

/-- An iterator: the key it is at, or the end. -/
abbrev Iterator (κ : Type u) := Option κ

/-- The iterator at the first entry. -/
def begin_ (map : SortedMap κ β) : Iterator κ := map.entries.head?.map Prod.fst

/-- The iterator behind a key. -/
def next (map : SortedMap κ β) (key : κ) : Iterator κ :=
  (map.entries.find? fun entry => decide (key < entry.1)).map Prod.fst

/-- An iterator at the first entry of the second part of a map. -/
structure SplitAt (map : SortedMap κ β) (it : Iterator κ) (before rest : List (κ × β)) : Prop where
  entries : map.entries = before ++ rest
  at_ : it = rest.head?.map Prod.fst

namespace SplitAt

variable {map : SortedMap κ β} {it : Iterator κ} {before rest : List (κ × β)}

theorem of_begin (map : SortedMap κ β) : map.SplitAt map.begin_ [] map.entries := ⟨rfl, rfl⟩

variable {key : κ} {value : β}

/-- The iterator is at the first entry of the second part. -/
theorem find?_eq (split : map.SplitAt it before ((key, value) :: rest)) :
    map.find? key = some value := by
  rw [← mem_entries_iff, split.entries]
  exact List.mem_append_right _ (List.mem_cons_self ..)

theorem lt_of_mem_before (split : map.SplitAt it before ((key, value) :: rest)) {entry : κ × β}
    (member : entry ∈ before) : entry.1 < key := by
  have sorted := map.sorted
  rw [split.entries] at sorted
  exact (List.pairwise_append.mp sorted).2.2 entry member (key, value) (List.mem_cons_self ..)

theorem lt_of_mem_rest (split : map.SplitAt it before ((key, value) :: rest)) {entry : κ × β}
    (member : entry ∈ rest) : key < entry.1 := by
  have sorted := map.sorted
  rw [split.entries] at sorted
  exact List.rel_of_pairwise_cons (List.pairwise_append.mp sorted).2.1 member

/-- The next iterator is behind the first entry of the second part. -/
theorem next_eq (split : map.SplitAt it before ((key, value) :: rest)) :
    map.next key = rest.head?.map Prod.fst := by
  have notBefore : before.find? (fun entry => decide (key < entry.1)) = none := by
    rw [List.find?_eq_none]
    intro entry member
    simpa using (split.lt_of_mem_before member).le
  rw [next, split.entries, List.find?_append, notBefore, Option.none_or,
    List.find?_cons_of_neg (by simp)]
  cases rest with
  | nil => rfl
  | cons other rest =>
      have isNext := split.lt_of_mem_rest (List.mem_cons_self ..)
      simp only [List.find?_cons, decide_eq_true isNext, List.head?_cons]

/-- Advance over an entry. -/
theorem advance (split : map.SplitAt it before ((key, value) :: rest)) :
    map.SplitAt (map.next key) (before ++ [(key, value)]) rest where
  entries := by rw [split.entries, List.append_assoc, List.singleton_append]
  at_ := split.next_eq

/-- Erase an entry. -/
theorem erase (split : map.SplitAt it before ((key, value) :: rest)) :
    (map.erase key).SplitAt (map.next key) before rest where
  entries := by
    have keeps (entry : κ × β) (differs : entry.1 ≠ key) : decide (entry.1 ≠ key) = true :=
      decide_eq_true differs
    rw [SortedMap.erase, restrict]
    dsimp only
    rw [split.entries, List.filter_append, List.filter_cons_of_neg (by simp)]
    congr 1
    · exact List.filter_eq_self.mpr fun entry member =>
        keeps entry (split.lt_of_mem_before member).ne
    · exact List.filter_eq_self.mpr fun entry member =>
        keeps entry (split.lt_of_mem_rest member).ne'
  at_ := split.next_eq

end SplitAt

end SortedMap
