import Mathlib.Data.List.Sort
import Mathlib.Data.List.Destutter

/-!
# Lists in the order of a key

Elements with a key are kept in ascending, not necessarily strict, key order.  What such a list
says about a key is the first element that has it.  Insertion, merging and the removal of repeated
neighbours are specified by these first elements.
-/

universe u v

namespace KeyedList

variable {α : Type u} {κ : Type v} [LinearOrder κ] (key : α → κ)

/-- The keys ascend. -/
def Ascending (list : List α) : Prop := list.Pairwise fun earlier later => key earlier ≤ key later

/-- The first element with a key. -/
def first? (list : List α) (wanted : κ) : Option α :=
  list.find? fun element => decide (key element = wanted)

/-- Put an element before the first one whose key is not less. -/
def insert (new : α) (list : List α) : List α :=
  list.orderedInsert (fun left right => key left ≤ key right) new

variable {key}

theorem first?_isSome_iff {list : List α} {wanted : κ} :
    (first? key list wanted).isSome = true ↔ ∃ element ∈ list, key element = wanted := by
  simp [first?, List.find?_isSome]

/-- A search in an ascending list may stop at the first key that is not less. -/
theorem Ascending.first?_eq {list : List α} (ascending : Ascending key list) (wanted : κ) :
    ((list.find? fun element => decide (wanted ≤ key element)).bind fun element =>
      if key element = wanted then some element else none) = first? key list wanted := by
  induction list with
  | nil => rfl
  | cons element rest ih =>
      rw [first?, List.find?_cons, List.find?_cons]
      by_cases notLess : wanted ≤ key element
      · by_cases same : key element = wanted
        · simp [same]
        · have beyond : rest.find? (fun other => decide (key other = wanted)) = none := by
            apply List.find?_eq_none.mpr
            intro other member
            have later := List.rel_of_pairwise_cons ascending member
            have less := lt_of_le_of_ne notLess (Ne.symm same)
            simpa using (less.trans_le later).ne'
          simp [notLess, same, beyond]
      · have differs : key element ≠ wanted := (not_le.mp notLess).ne
        simp only [notLess, differs, decide_false]
        exact ih (List.Pairwise.of_cons ascending)

theorem Ascending.insert {list : List α} (ascending : Ascending key list) (new : α) :
    Ascending key (insert key new list) := by
  have total : Std.Total fun left right : α => key left ≤ key right := ⟨fun _ _ => le_total _ _⟩
  have transitive : IsTrans α fun left right => key left ≤ key right := ⟨fun _ _ _ => le_trans⟩
  exact ascending.orderedInsert new list

theorem mem_insert {new element : α} {list : List α} :
    element ∈ insert key new list ↔ element = new ∨ element ∈ list :=
  List.mem_orderedInsert _

/-- The keys stay strictly ascending when the key of the new element is new. -/
theorem pairwise_lt_insert {list : List α}
    (strict : list.Pairwise fun earlier later => key earlier < key later) {new : α}
    (fresh : ∀ element ∈ list, key new ≠ key element) :
    (insert key new list).Pairwise fun earlier later => key earlier < key later := by
  have ascending : Ascending key (insert key new list) :=
    Ascending.insert (strict.imp le_of_lt) new
  have apart : (new :: list).Pairwise fun earlier later => key earlier ≠ key later :=
    List.pairwise_cons.mpr ⟨fresh, strict.imp ne_of_lt⟩
  have distinct : (insert key new list).Pairwise fun earlier later => key earlier ≠ key later :=
    apart.perm (List.perm_orderedInsert _ new list).symm fun different => Ne.symm different
  exact (ascending.and distinct).imp fun both => lt_of_le_of_ne both.1 both.2

/-- Insertion at the first position whose key is not less. -/
theorem insertIdx_findIdx (new : α) (list : List α) :
    list.insertIdx (list.findIdx fun element => !decide (key element < key new)) new =
      insert key new list := by
  induction list with
  | nil => rfl
  | cons element rest ih =>
      rw [List.findIdx_cons, KeyedList.insert, List.orderedInsert_cons]
      by_cases before : key element < key new
      · simp only [before, decide_true, Bool.not_true, cond_false, not_le.mpr before, if_false,
          List.insertIdx_succ_cons]
        rw [ih, KeyedList.insert]
      · simp [before, not_lt.mp before]

/-- Insertion behind smaller keys is insertion at the end. -/
theorem insert_eq_append {new : α} {list : List α}
    (smaller : ∀ element ∈ list, key element < key new) : insert key new list = list ++ [new] := by
  induction list with
  | nil => rfl
  | cons element rest ih =>
      rw [KeyedList.insert, List.orderedInsert_cons,
        if_neg (not_le.mpr (smaller element List.mem_cons_self)), List.cons_append]
      congr 1
      exact ih fun other member => smaller other (List.mem_cons_of_mem element member)

/-! ## Merging -/

variable (key) in
/-- Two lists in one, the elements of the first before those of the second with the same key. -/
def merge (left right : List α) : List α :=
  left.merge right fun first second => !decide (key second < key first)

theorem merge_cons_cons (first second : α) (left right : List α) :
    merge key (first :: left) (second :: right) =
      if key second < key first then second :: merge key (first :: left) right
      else first :: merge key left (second :: right) := by
  rw [merge, List.cons_merge_cons]
  by_cases before : key second < key first
  · simp [before, merge]
  · simp [before, merge]

theorem Ascending.merge {left right : List α} (ascendingLeft : Ascending key left)
    (ascendingRight : Ascending key right) : Ascending key (merge key left right) := by
  let notAfter : α → α → Bool := fun first second => !decide (key second < key first)
  have transitive : ∀ first second third : α, notAfter first second → notAfter second third →
      notAfter first third := by
    intro first second third
    simp only [notAfter, Bool.not_eq_true', decide_eq_false_iff_not, not_lt]
    exact le_trans
  have total : ∀ first second : α, notAfter first second || notAfter second first := by
    intro first second
    simp only [notAfter, Bool.or_eq_true, Bool.not_eq_true', decide_eq_false_iff_not, not_lt]
    exact le_total _ _
  have merged := List.pairwise_merge transitive total left right
    (by simpa [Ascending, notAfter] using ascendingLeft)
    (by simpa [Ascending, notAfter] using ascendingRight)
  simpa [Ascending, KeyedList.merge, notAfter] using merged

/-- The left list decides about the keys that both have. -/
theorem first?_merge {left : List α} (ascending : Ascending key left) (right : List α)
    (wanted : κ) :
    first? key (merge key left right) wanted =
      (first? key left wanted).or (first? key right wanted) := by
  induction left generalizing right with
  | nil => simp [merge, first?]
  | cons first left ihLeft =>
      induction right with
      | nil => simp [merge, first?]
      | cons second right ihRight =>
          rw [merge_cons_cons]
          by_cases before : key second < key first
          · rw [if_pos before, first?, List.find?_cons]
            by_cases found : key second = wanted
            · have absent : first? key (first :: left) wanted = none := by
                rw [first?, List.find?_eq_none]
                intro element member
                simp only [decide_eq_true_eq]
                have notLess : key first ≤ key element := by
                  rcases List.mem_cons.mp member with same | later
                  · rw [same]
                  · exact List.rel_of_pairwise_cons ascending later
                exact (found ▸ before.trans_le notLess).ne'
              rw [absent, Option.none_or]
              simp [first?, found]
            · simp only [found, decide_false]
              rw [← first?, ihRight]
              simp [first?, List.find?_cons, found]
          · rw [if_neg before, first?, List.find?_cons]
            by_cases found : key first = wanted
            · simp [first?, List.find?_cons, found]
            · simp only [found, decide_false]
              rw [← first?, ihLeft (List.Pairwise.of_cons ascending)]
              simp [first?, List.find?_cons, found]

/-! ## Repeated neighbours -/

variable (key) in
/-- Keep the first of neighbours with the same key. -/
def unique (list : List α) : List α := list.destutter fun kept next => ¬key kept = key next

theorem first?_destutter' (kept : α) (list : List α) (wanted : κ) :
    first? key (list.destutter' (fun kept next => ¬key kept = key next) kept) wanted =
      first? key (kept :: list) wanted := by
  induction list generalizing kept with
  | nil => rfl
  | cons next rest ih =>
      by_cases same : key kept = key next
      · rw [List.destutter'_cons_neg _ (not_not.mpr same), ih]
        simp only [first?, List.find?_cons, same]
        split
        · rfl
        · rfl
      · rw [List.destutter'_cons_pos _ same]
        have tail := ih next
        simp only [first?, List.find?_cons] at tail ⊢
        rw [tail]

/-- The removal keeps the first elements. -/
theorem first?_unique (list : List α) (wanted : κ) :
    first? key (unique key list) wanted = first? key list wanted := by
  cases list with
  | nil => rfl
  | cons kept rest => exact first?_destutter' kept rest wanted

theorem Ascending.unique {list : List α} (ascending : Ascending key list) :
    (unique key list).Pairwise fun earlier later => key earlier < key later := by
  have weak : (KeyedList.unique key list).Pairwise fun earlier later => key earlier ≤ key later :=
    List.Pairwise.sublist (List.destutter_sublist _ list) ascending
  have differs : (KeyedList.unique key list).IsChain fun kept next => ¬key kept = key next :=
    List.isChain_destutter _ list
  have transitive : IsTrans α fun earlier later => key earlier < key later :=
    ⟨fun _ _ _ => lt_trans⟩
  apply List.IsChain.pairwise
  have both := List.isChain_iff_getElem.mp differs
  rw [List.isChain_iff_getElem]
  intro position inBounds
  have notGreater := List.pairwise_iff_getElem.mp weak position (position + 1) (by omega) inBounds
    (by omega)
  exact lt_of_le_of_ne notGreater (both position inBounds)

theorem mem_of_mem_unique {list : List α} {element : α} (member : element ∈ unique key list) :
    element ∈ list :=
  (List.destutter_sublist _ list).subset member

end KeyedList
