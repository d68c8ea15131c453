import Mathlib.Tactic
import Mathlib.Data.List.SplitBy
import Mathlib.Data.List.Destutter

/-!
# Runs of equal keys

The maximal runs of adjacent elements with the same key.
-/

universe u v

namespace AdjacentRuns

variable {α : Type u} {κ : Type v} [DecidableEq κ] (key : α → κ)

/-- The maximal runs of adjacent elements with the same key. -/
def runs (list : List α) : List (List α) :=
  list.splitBy fun earlier later => key earlier == key later

/-- The elements, of which there is at least one, have the given key. -/
structure IsRun (value : κ) (run : List α) : Prop where
  nonempty : run ≠ []
  keys : ∀ element ∈ run, key element = value

variable {key} {value : κ} {run rest : List α} {next : α}

@[simp] theorem runs_nil : runs key [] = [] := rfl

theorem runs_ne_nil (nonempty : run ≠ []) : runs key run ≠ [] :=
  List.splitBy_ne_nil.mpr nonempty

omit [DecidableEq κ] in
theorem isRun_singleton (element : α) : IsRun key (key element) [element] := by
  constructor
  · exact List.cons_ne_nil _ _
  · intro other member
    rw [List.mem_singleton.mp member]

omit [DecidableEq κ] in
theorem IsRun.concat (isRun : IsRun key value run) (same : key next = value) :
    IsRun key value (run ++ [next]) := by
  constructor
  · exact List.append_ne_nil_of_right_ne_nil run (List.cons_ne_nil next [])
  · intro element member
    rcases List.mem_append.mp member with earlier | isNext
    · exact isRun.keys element earlier
    · rw [List.mem_singleton.mp isNext]
      exact same

theorem IsRun.runs_eq (isRun : IsRun key value run) : runs key run = [run] := by
  apply List.splitBy_of_isChain isRun.nonempty
  apply List.Pairwise.isChain
  apply List.pairwise_of_forall_mem_list
  intro earlier before later after
  rw [isRun.keys earlier before, isRun.keys later after]
  exact beq_self_eq_true value

theorem IsRun.runs_append (isRun : IsRun key value run) (other : key next ≠ value) :
    runs key (run ++ next :: rest) = run :: runs key (next :: rest) := by
  rw [runs, List.splitBy_append_cons]
  · exact congrArg (· ++ runs key (next :: rest)) isRun.runs_eq
  · intro last isLast
    rw [isRun.keys last (List.mem_of_mem_getLast? isLast)]
    exact beq_false_of_ne (Ne.symm other)

/-- Every list is empty, a run, or a run in front of an element with another key. -/
theorem runs_induction (key : α → κ) {motive : List α → Prop} (nil : motive [])
    (last : ∀ value run, IsRun key value run → motive run)
    (append : ∀ value run next rest, IsRun key value run → key next ≠ value →
      motive (next :: rest) → motive (run ++ next :: rest)) (list : List α) : motive list := by
  have extends_ (rest : List α) : ∀ value run, IsRun key value run → motive (run ++ rest) := by
    induction rest with
    | nil =>
        intro value run isRun
        rw [List.append_nil]
        exact last value run isRun
    | cons next rest ih =>
        intro value run isRun
        by_cases same : key next = value
        · rw [List.append_cons]
          exact ih value (run ++ [next]) (isRun.concat same)
        · exact append value run next rest isRun same (ih _ [next] (isRun_singleton next))
  cases list with
  | nil => exact nil
  | cons element rest => exact extends_ rest _ [element] (isRun_singleton element)

theorem exists_isRun_of_mem_runs {list : List α} (member : run ∈ runs key list) :
    ∃ value, IsRun key value run := by
  induction list using runs_induction key with
  | nil => cases member
  | last value other isRun =>
      rw [isRun.runs_eq] at member
      rw [List.mem_singleton.mp member]
      exact ⟨value, isRun⟩
  | append value other next rest isRun different ih =>
      rw [isRun.runs_append different] at member
      rcases List.mem_cons.mp member with rfl | later
      · exact ⟨value, isRun⟩
      · exact ih later

theorem destutter'_append {keys others : List κ} (same : ∀ other ∈ keys, other = value) :
    (keys ++ others).destutter' (· ≠ ·) value = others.destutter' (· ≠ ·) value := by
  induction keys with
  | nil => rfl
  | cons head rest ih =>
      have isValue : ¬value ≠ head := fun other => other (same head List.mem_cons_self).symm
      rw [List.cons_append, List.destutter'_cons_neg _ isValue]
      exact ih fun other member => same other (List.mem_cons_of_mem head member)

/-- The keys of the runs are the keys of the list without their repetitions. -/
theorem keys_runs (key : α → κ) (list : List α) :
    (runs key list).map (fun run => run.head?.map key) =
      ((list.map key).destutter (· ≠ ·)).map some := by
  induction list using runs_induction key with
  | nil => rfl
  | last value run isRun =>
      obtain ⟨head, tail, rfl⟩ := List.exists_cons_of_ne_nil isRun.nonempty
      have same : ∀ other ∈ tail.map key, other = key head := by
        intro other member
        rcases List.mem_map.mp member with ⟨element, isElement, rfl⟩
        rw [isRun.keys element (List.mem_cons_of_mem head isElement),
          isRun.keys head List.mem_cons_self]
      have alone : (tail.map key ++ []).destutter' (· ≠ ·) (key head) = [key head] :=
        destutter'_append same
      rw [List.append_nil] at alone
      have mapped : (head :: tail).map key = key head :: tail.map key := rfl
      rw [isRun.runs_eq, mapped, List.destutter_cons', alone]
      rfl
  | append value run next rest isRun different ih =>
      obtain ⟨head, tail, rfl⟩ := List.exists_cons_of_ne_nil isRun.nonempty
      have isHead := isRun.keys head List.mem_cons_self
      have same : ∀ other ∈ tail.map key, other = key head := by
        intro other member
        rcases List.mem_map.mp member with ⟨element, isElement, rfl⟩
        rw [isRun.keys element (List.mem_cons_of_mem head isElement), isHead]
      have differs : key head ≠ key next := by
        rw [isHead]
        exact Ne.symm different
      have mapped : (head :: tail ++ next :: rest).map key =
          key head :: (tail.map key ++ key next :: rest.map key) := by
        rw [List.cons_append, List.map_cons, List.map_append, List.map_cons]
      rw [isRun.runs_append different, List.map_cons, ih, mapped, List.destutter_cons',
        destutter'_append same, List.destutter'_cons_pos _ differs]
      rfl

end AdjacentRuns
