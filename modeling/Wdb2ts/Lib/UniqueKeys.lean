import Mathlib.Tactic

/-!
# Lists with one element for each key

An element is put into a list in the place of the element with its key, or at the end when there
is none.  The flag decides which of two elements with the same key stays.  Such lists say about
a key what their first element with it says.
-/

universe u v

namespace UniqueKeys

variable {α : Type u} {κ : Type v} [DecidableEq κ] (key : α → κ) (replace : Bool)

/-- The first element with a key. -/
def first? (list : List α) (wanted : κ) : Option α :=
  list.find? fun element => decide (key element = wanted)

/-- Put an element into a list. -/
def put (new : α) : List α → List α
  | [] => [new]
  | old :: rest =>
      if key old = key new then (if replace then new else old) :: rest else old :: put new rest

/-- Put the elements of another list into a list. -/
def putAll (list others : List α) : List α :=
  others.foldl (fun list new => put key replace new list) list

variable {key replace}

theorem first?_isSome_iff {list : List α} {wanted : κ} :
    (first? key list wanted).isSome = true ↔ wanted ∈ list.map key := by
  simp [first?, List.find?_isSome]

theorem first?_eq_none_iff {list : List α} {wanted : κ} :
    first? key list wanted = none ↔ wanted ∉ list.map key := by
  simp [first?]

/-! ## One element -/

section Put

variable {new : α} {list : List α}

theorem put_of_notMem (fresh : key new ∉ list.map key) :
    put key replace new list = list ++ [new] := by
  induction list with
  | nil => rfl
  | cons old rest ih =>
      rw [List.map_cons, List.mem_cons, not_or] at fresh
      rw [put, if_neg (Ne.symm fresh.1), ih fresh.2, List.cons_append]

/-- The keys stay, and a new one is added behind them. -/
theorem map_put : (put key replace new list).map key =
    if key new ∈ list.map key then list.map key else list.map key ++ [key new] := by
  by_cases known : key new ∈ list.map key
  · rw [if_pos known]
    induction list with
    | nil => cases known
    | cons old rest ih =>
        by_cases same : key old = key new
        · cases replace with
          | true => simp [put, same]
          | false => simp [put, same]
        · have later : key new ∈ rest.map key := by simpa [Ne.symm same] using known
          rw [put, if_neg same, List.map_cons, ih later, List.map_cons]
  · rw [if_neg known, put_of_notMem known, List.map_append, List.map_singleton]

theorem nodup_put (distinct : (list.map key).Nodup) :
    ((put key replace new list).map key).Nodup := by
  rw [map_put]
  split
  case isTrue => exact distinct
  case isFalse fresh =>
    apply distinct.append (List.nodup_singleton _)
    rw [List.disjoint_singleton]
    exact fresh

theorem first?_put_self : first? key (put key replace new list) (key new) =
    some (if replace then new else (first? key list (key new)).getD new) := by
  induction list with
  | nil => simp [put, first?]
  | cons old rest ih =>
      by_cases same : key old = key new
      · cases replace with
        | true => simp [put, first?, same]
        | false => simp [put, first?, same]
      · rw [put, if_neg same, first?, List.find?_cons_of_neg (by simpa using same), ← first?, ih,
          first?, first?, List.find?_cons_of_neg (by simpa using same)]

theorem first?_put_of_ne {wanted : κ} (other : wanted ≠ key new) :
    first? key (put key replace new list) wanted = first? key list wanted := by
  induction list with
  | nil => simp [put, first?, Ne.symm other]
  | cons old rest ih =>
      by_cases same : key old = key new
      · cases replace with
        | true => simp [put, first?, same, Ne.symm other]
        | false => simp [put, same]
      · rw [first?] at ih
        rw [put, if_neg same, first?, List.find?_cons, ih, first?, first?, List.find?_cons]

/-- An element that is there already changes nothing. -/
theorem put_eq_self {old : α} (found : first? key list (key new) = some old)
    (kept : replace = true → old = new) : put key replace new list = list := by
  induction list with
  | nil => cases found
  | cons head rest ih =>
      by_cases same : key head = key new
      · rw [first?, List.find?_cons_of_pos (by simpa using same), Option.some_inj] at found
        rw [put, if_pos same]
        cases replace with
        | true => rw [if_pos rfl, found, kept rfl]
        | false => rw [if_neg Bool.false_ne_true]
      · rw [first?, List.find?_cons_of_neg (by simpa using same)] at found
        rw [put, if_neg same, ih found]

/-- Without replacement an element with a known key changes nothing. -/
theorem put_of_mem (known : key new ∈ list.map key) : put key false new list = list := by
  rcases Option.isSome_iff_exists.mp (first?_isSome_iff.mpr known) with ⟨old, found⟩
  exact put_eq_self found fun impossible => by cases impossible

end Put

/-! ## All elements of a list -/

section PutAll

variable {list others : List α}

theorem nodup_putAll (distinct : (list.map key).Nodup) :
    ((putAll key replace list others).map key).Nodup := by
  induction others generalizing list with
  | nil => exact distinct
  | cons new rest ih => exact ih (nodup_put distinct)

/-- The flag decides which of the two lists is asked first. -/
theorem first?_putAll (distinct : (others.map key).Nodup) (wanted : κ) :
    first? key (putAll key replace list others) wanted =
      if replace then (first? key others wanted).or (first? key list wanted)
      else (first? key list wanted).or (first? key others wanted) := by
  induction others generalizing list with
  | nil => simp [putAll, first?]
  | cons new rest ih =>
      rw [List.map_cons, List.nodup_cons] at distinct
      rw [putAll, List.foldl_cons, ← putAll, ih distinct.2]
      by_cases same : wanted = key new
      · have here : first? key (new :: rest) wanted = some new := by
          rw [first?, List.find?_cons_of_pos (by simpa using same.symm)]
        have noLater : first? key rest wanted = none := by
          rw [first?_eq_none_iff, same]
          exact distinct.1
        rw [here, noLater, same, first?_put_self]
        cases replace with
        | true => simp
        | false => cases first? key list (key new) <;> simp
      · have later : first? key (new :: rest) wanted = first? key rest wanted := by
          rw [first?, List.find?_cons_of_neg (by simpa using Ne.symm same), ← first?]
        rw [later, first?_put_of_ne same]

/-- Elements that are all there already change nothing. -/
theorem putAll_eq_self
    (known : ∀ new ∈ others, ∃ old, first? key list (key new) = some old ∧
      (replace = true → old = new)) : putAll key replace list others = list := by
  induction others with
  | nil => rfl
  | cons new rest ih =>
      rcases known new List.mem_cons_self with ⟨old, found, kept⟩
      rw [putAll, List.foldl_cons, put_eq_self found kept]
      exact ih fun other member => known other (List.mem_cons_of_mem new member)

theorem first?_of_mem (distinct : (list.map key).Nodup) {element : α} (member : element ∈ list) :
    first? key list (key element) = some element := by
  induction list with
  | nil => cases member
  | cons head rest ih =>
      rw [List.map_cons, List.nodup_cons] at distinct
      rcases List.mem_cons.mp member with isHead | isLater
      · rw [isHead, first?, List.find?_cons_of_pos (by simp)]
      · have different : key head ≠ key element := by
          intro same
          exact distinct.1 (same ▸ List.mem_map_of_mem isLater)
        rw [first?, List.find?_cons_of_neg (by simpa using different), ← first?,
          ih distinct.2 isLater]

/-- At most one element has a key. -/
theorem filter_key (distinct : (list.map key).Nodup) (wanted : κ) :
    (list.filter fun element => decide (key element = wanted)) =
      (first? key list wanted).toList := by
  induction list with
  | nil => rfl
  | cons head rest ih =>
      rw [List.map_cons, List.nodup_cons] at distinct
      by_cases same : key head = wanted
      · have noLater : first? key rest wanted = none := by
          rw [first?_eq_none_iff, ← same]
          exact distinct.1
        rw [List.filter_cons_of_pos (by simpa using same), ih distinct.2, noLater, first?,
          List.find?_cons_of_pos (by simpa using same)]
        rfl
      · rw [List.filter_cons_of_neg (by simpa using same), ih distinct.2, first?, first?,
          List.find?_cons_of_neg (by simpa using same)]

/-- Elements that are put in again change nothing. -/
theorem putAll_putAll (distinct : (others.map key).Nodup) :
    putAll key replace (putAll key replace list others) others =
      putAll key replace list others := by
  apply putAll_eq_self
  intro new member
  have found := first?_of_mem distinct member
  rw [first?_putAll distinct, found]
  cases replace with
  | true => exact ⟨new, by simp, fun _ => rfl⟩
  | false =>
      cases first? key list (key new) with
      | none => exact ⟨new, by simp, fun impossible => by cases impossible⟩
      | some old => exact ⟨old, by simp, fun impossible => by cases impossible⟩

/-- What the keys become depends on the keys only. -/
theorem map_putAll_congr {otherList moreOthers : List α}
    (sameList : list.map key = otherList.map key)
    (sameOthers : others.map key = moreOthers.map key) :
    (putAll key replace list others).map key =
      (putAll key replace otherList moreOthers).map key := by
  induction others generalizing list otherList moreOthers with
  | nil =>
      cases moreOthers with
      | nil => exact sameList
      | cons new rest => cases sameOthers
  | cons new rest ih =>
      cases moreOthers with
      | nil => cases sameOthers
      | cons otherNew otherRest =>
          rw [List.map_cons, List.map_cons, List.cons.injEq] at sameOthers
          apply ih _ sameOthers.2
          rw [map_put, map_put, sameList, sameOthers.1]

theorem mem_map_put {new : α} {wanted : κ} : wanted ∈ (put key replace new list).map key ↔
    wanted ∈ list.map key ∨ wanted = key new := by
  rw [map_put]
  split
  case isTrue known =>
    constructor
    · exact Or.inl
    · intro isEither
      rcases isEither with isOld | isNew
      · exact isOld
      · rw [isNew]
        exact known
  case isFalse => rw [List.mem_append, List.mem_singleton]

theorem mem_map_putAll {wanted : κ} : wanted ∈ (putAll key replace list others).map key ↔
    wanted ∈ list.map key ∨ wanted ∈ others.map key := by
  induction others generalizing list with
  | nil => simp [putAll]
  | cons new rest ih =>
      rw [putAll, List.foldl_cons, ← putAll, ih, mem_map_put, List.map_cons, List.mem_cons,
        or_assoc]

theorem putAll_nil_eq_nil_iff : putAll key replace [] others = [] ↔ others = [] := by
  constructor
  · intro isNil
    cases others with
    | nil => rfl
    | cons new rest =>
        have known : key new ∈ (putAll key replace [] (new :: rest)).map key :=
          mem_map_putAll.mpr (Or.inr List.mem_cons_self)
        rw [isNil] at known
        cases known
  · intro isNil
    rw [isNil]
    rfl

/-- A list that is put into itself stays as it is. -/
theorem putAll_self (distinct : (list.map key).Nodup) : putAll key replace list list = list := by
  apply putAll_eq_self
  intro element member
  exact ⟨element, first?_of_mem distinct member, fun _ => rfl⟩

end PutAll

omit [DecidableEq κ] in
/-- A list has at most one element when all its keys are the same. -/
theorem length_le_one_iff {list : List α} (distinct : (list.map key).Nodup) :
    list.length ≤ 1 ↔ ∀ element ∈ list, ∀ other ∈ list, key element = key other := by
  match list with
  | [] => simp
  | [element] => simp
  | element :: other :: rest =>
      constructor
      · intro atMostOne
        simp at atMostOne
      · intro same
        have equal := same element List.mem_cons_self other
          (List.mem_cons_of_mem _ List.mem_cons_self)
        rw [List.map_cons, List.map_cons, List.nodup_cons] at distinct
        exact absurd (List.mem_cons.mpr (Or.inl equal)) distinct.1

end UniqueKeys
