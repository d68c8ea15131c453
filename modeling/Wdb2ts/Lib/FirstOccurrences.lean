import Mathlib.Data.List.Destutter

/-!
# First occurrences

A list in which the repeated neighbours are removed has each element once, in the order of the first
occurrences, if and only if no element stands on both sides of another one.
-/

universe u

namespace FirstOccurrences

variable {α : Type u}

/-- No element stands on both sides of another one. -/
def StandTogether (list : List α) : Prop :=
  ∀ element other, element ≠ other → ¬[element, other, element].Sublist list

theorem StandTogether.sublist {list other : List α} (together : StandTogether list)
    (sublist : other.Sublist list) : StandTogether other :=
  fun element another differ inOther => together element another differ (inOther.trans sublist)

variable [DecidableEq α]

/-- A list has the elements of another one, each once, in the order of their first occurrences. -/
structure EachOnce (list kept : List α) : Prop where
  nodup : kept.Nodup
  mem_iff : ∀ element, element ∈ kept ↔ element ∈ list
  order : kept.Pairwise fun earlier later => list.idxOf earlier < list.idxOf later

/-- A sublist without repeated neighbours stays when the repeated neighbours are removed. -/
theorem sublist_destutter' {chain list : List α} {first : α} (isChain : chain.IsChain (· ≠ ·))
    (sublist : chain.Sublist (first :: list)) : chain.Sublist (list.destutter' (· ≠ ·) first) := by
  induction list generalizing first chain with
  | nil => rwa [List.destutter'_nil]
  | cons second rest ih =>
      by_cases differ : first = second
      · rw [List.destutter'_cons_neg _ (not_not_intro differ)]
        cases sublist with
        | cons _ inRest => exact ih isChain (differ ▸ inRest)
        | @cons_cons tail _ _ inRest =>
            apply ih isChain
            cases inRest with
            | cons _ inRest => exact inRest.cons_cons first
            | cons_cons _ inRest =>
                exact absurd differ (List.isChain_cons_cons.mp isChain).1
      · rw [List.destutter'_cons_pos _ differ]
        cases sublist with
        | cons _ inRest => exact (ih isChain inRest).cons first
        | cons_cons _ inRest => exact (ih isChain.tail inRest).cons_cons first

theorem idxOf_cons_lt {first earlier later : α} {list : List α} (differs : later ≠ first)
    (less : earlier ≠ first → list.idxOf earlier < list.idxOf later) :
    (first :: list).idxOf earlier < (first :: list).idxOf later := by
  rw [List.idxOf_cons_ne list differs.symm]
  by_cases same : earlier = first
  · rw [same, List.idxOf_cons_self]
    exact Nat.succ_pos _
  · rw [List.idxOf_cons_ne list (Ne.symm same)]
    exact Nat.succ_lt_succ (less same)

/-- Without the repeated neighbours each element is there once. -/
theorem eachOnce_destutter' {list : List α} {first : α} (together : StandTogether (first :: list)) :
    EachOnce (first :: list) (list.destutter' (· ≠ ·) first) := by
  induction list generalizing first with
  | nil => exact ⟨List.nodup_singleton first, fun _ => Iff.rfl, List.pairwise_singleton _ _⟩
  | cons second rest ih =>
      by_cases differ : first = second
      · subst differ
        have once := ih (together.sublist (List.sublist_cons_self _ _))
        rw [List.destutter'_cons_neg _ (not_not_intro rfl)]
        refine ⟨once.nodup, ?_, ?_⟩
        · intro element
          rw [once.mem_iff, List.mem_cons, List.mem_cons, List.mem_cons, or_self_left]
        · apply once.order.imp
          intro earlier later less
          apply idxOf_cons_lt
          · rintro rfl
            rw [List.idxOf_cons_self] at less
            exact absurd less (Nat.not_lt_zero _)
          · exact fun _ => less
      · have once := ih (together.sublist (List.sublist_cons_self _ _))
        have absent : first ∉ second :: rest := by
          intro member
          rcases List.mem_cons.mp member with same | member
          · exact differ same
          · exact together first second differ
              (((List.singleton_sublist.mpr member).cons_cons second).cons_cons first)
        have keptAbsent : ∀ element ∈ rest.destutter' (· ≠ ·) second, element ≠ first := by
          rintro element member rfl
          exact absent ((once.mem_iff element).mp member)
        rw [List.destutter'_cons_pos _ differ]
        refine ⟨List.nodup_cons.mpr ⟨fun member => keptAbsent first member rfl, once.nodup⟩, ?_, ?_⟩
        · intro element
          rw [List.mem_cons, List.mem_cons, once.mem_iff]
        · refine List.pairwise_cons.mpr ⟨?_, ?_⟩
          · intro later member
            exact idxOf_cons_lt (keptAbsent later member) fun notFirst => absurd rfl notFirst
          · apply once.order.imp_of_mem
            intro earlier later _ isLater less
            exact idxOf_cons_lt (keptAbsent later isLater) fun _ => less

/-- Each element is there once exactly when no element stands on both sides of another one. -/
theorem eachOnce_destutter_iff (list : List α) :
    EachOnce list (list.destutter (· ≠ ·)) ↔ StandTogether list := by
  cases list with
  | nil =>
      constructor
      · intro _ element other _ sublist
        cases sublist
      · intro _
        exact ⟨List.nodup_nil, fun _ => Iff.rfl, List.Pairwise.nil⟩
  | cons first rest =>
      rw [List.destutter_cons']
      constructor
      · intro once element other differ sublist
        have isChain : [element, other, element].IsChain (· ≠ ·) := by
          simp [differ, Ne.symm differ]
        have kept := (sublist_destutter' isChain sublist).nodup once.nodup
        rw [List.nodup_cons] at kept
        exact kept.1 (List.mem_cons_of_mem other List.mem_cons_self)
      · exact eachOnce_destutter'

end FirstOccurrences
