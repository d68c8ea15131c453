import Mathlib.Tactic

/-!
# Replacing a text

The occurrences of a text are replaced from left to right, up to a limit.  A hasty search
leaves out what agrees with the text at a place where the text does not occur.  It gives the
same result exactly when there is never anything to leave out, at least for replacements
that are not shorter than the text.
-/

universe u

namespace Replacement

variable {α : Type u} [DecidableEq α]

/-- The number of leading elements two lists agree in. -/
def agreeing : List α → List α → ℕ
  | first :: others, next :: rest => if first = next then agreeing others rest + 1 else 0
  | _, _ => 0

/-- Is a limit used up?  A limit that is not positive is none, and `count` is what is left. -/
def spent (limit count : ℤ) : Bool := decide (0 < limit) && decide (count = 0)

theorem ne_zero_of_not_spent {limit count : ℤ} (more : ¬spent limit count = true)
    (bounded : 0 < limit) : count ≠ 0 := by
  intro isZero
  simp [spent, bounded, isZero] at more

theorem not_spent_zero (count : ℤ) : ¬spent 0 count = true := by simp [spent]

section Searches

variable (what replacement : List α) (limit : ℤ)

/-- Replace the occurrences in a text behind the part that is skipped. -/
def replaceFrom : (count : ℤ) → (skip : ℕ) → List α → List α
  | _, _, [] => []
  | count, skip + 1, _ :: rest => replaceFrom count skip rest
  | count, 0, next :: rest =>
      if spent limit count then next :: rest
      else if what <+: next :: rest then
        replacement ++ replaceFrom (count - 1) (what.length - 1) rest
      else next :: replaceFrom count 0 rest

/-- The places where the search looks without success. -/
def failures : (count : ℤ) → (skip : ℕ) → List α → List (List α)
  | _, _, [] => []
  | count, skip + 1, _ :: rest => failures count skip rest
  | count, 0, next :: rest =>
      if spent limit count then []
      else if what <+: next :: rest then failures (count - 1) (what.length - 1) rest
      else (next :: rest) :: failures count 0 rest

/-- The hasty search. -/
def hastyFrom : (count : ℤ) → (skip : ℕ) → List α → List α
  | _, _, [] => []
  | count, skip + 1, _ :: rest => hastyFrom count skip rest
  | count, 0, next :: rest =>
      if spent limit count then next :: rest
      else if agreeing what (next :: rest) = what.length then
        replacement ++ hastyFrom (count - 1) (what.length - 1) rest
      else if agreeing what (next :: rest) = rest.length + 1 then []
      else next :: hastyFrom count (agreeing what (next :: rest) - 1) rest

/-- At most one element agrees where the search fails, and not up to the end of the text. -/
def Safe (count : ℤ) (skip : ℕ) (text : List α) : Prop :=
  ∀ place ∈ failures what limit count skip text,
    agreeing what place < 2 ∧ agreeing what place < place.length

instance (count : ℤ) (skip : ℕ) (text : List α) : Decidable (Safe what limit count skip text) :=
  inferInstanceAs (Decidable (∀ place ∈ failures what limit count skip text, _))

/-- The number of occurrences that are replaced. -/
def replaced : (count : ℤ) → (skip : ℕ) → List α → ℕ
  | _, _, [] => 0
  | count, skip + 1, _ :: rest => replaced count skip rest
  | count, 0, next :: rest =>
      if spent limit count then 0
      else if what <+: next :: rest then replaced (count - 1) (what.length - 1) rest + 1
      else replaced count 0 rest

/-- The number of occurrences the hasty search replaces. -/
def hastyReplaced : (count : ℤ) → (skip : ℕ) → List α → ℕ
  | _, _, [] => 0
  | count, skip + 1, _ :: rest => hastyReplaced count skip rest
  | count, 0, next :: rest =>
      if spent limit count then 0
      else if agreeing what (next :: rest) = what.length then
        hastyReplaced (count - 1) (what.length - 1) rest + 1
      else if agreeing what (next :: rest) = rest.length + 1 then 0
      else hastyReplaced count (agreeing what (next :: rest) - 1) rest

end Searches

variable {what replacement : List α} {limit : ℤ}

/-! ## Agreement -/

theorem agreeing_le_length (what text : List α) :
    agreeing what text ≤ what.length ∧ agreeing what text ≤ text.length := by
  induction what generalizing text with
  | nil => simp [agreeing]
  | cons first others ih =>
      cases text with
      | nil => simp [agreeing]
      | cons next rest =>
          simp only [agreeing, List.length_cons]
          split
          · exact ⟨Nat.succ_le_succ (ih rest).1, Nat.succ_le_succ (ih rest).2⟩
          · simp

theorem agreeing_eq_length_iff (what text : List α) :
    agreeing what text = what.length ↔ what <+: text := by
  induction what generalizing text with
  | nil => simp [agreeing]
  | cons first others ih =>
      cases text with
      | nil => simp [agreeing]
      | cons next rest =>
          simp only [agreeing, List.length_cons, List.cons_prefix_cons]
          split
          · rename_i same
            simp [same, ih]
          · rename_i different
            simp [different]

/-- The agreement ends at the first difference. -/
theorem agreeing_append (common others rest : List α)
    (different : ∀ first ∈ others.head?, ∀ next ∈ rest.head?, first ≠ next) :
    agreeing (common ++ others) (common ++ rest) = common.length := by
  induction common with
  | nil =>
      cases others with
      | nil => rfl
      | cons first others =>
          cases rest with
          | nil => rfl
          | cons next rest => simp [agreeing, different first rfl next rfl]
  | cons first common ih => simp [agreeing, ih]

/-! ## Skipping -/

theorem replaceFrom_skip (count : ℤ) (skip : ℕ) (text : List α) :
    replaceFrom what replacement limit count skip text =
      replaceFrom what replacement limit count 0 (text.drop skip) := by
  induction text generalizing skip with
  | nil => simp [replaceFrom]
  | cons next rest ih =>
      cases skip with
      | zero => rfl
      | succ skip => exact ih skip

/-- What survives a replacement: everything, when the replacement has what it is to keep of the
replaced text. -/
theorem mem_replaceFrom {element : α} (someWhat : what ≠ [])
    (kept : element ∈ what → element ∈ replacement) {count : ℤ} {skip : ℕ} {text : List α}
    (member : element ∈ text.drop skip) :
    element ∈ replaceFrom what replacement limit count skip text := by
  induction text generalizing count skip with
  | nil => simp at member
  | cons next rest ih =>
      cases skip with
      | succ skip => exact ih member
      | zero =>
          rw [List.drop_zero] at member
          rw [replaceFrom]
          split
          · exact member
          · split
            · next occurs =>
                obtain ⟨behind, split⟩ := occurs
                rw [← split, List.mem_append] at member
                rcases member with inWhat | member
                · exact List.mem_append_left _ (kept inWhat)
                · have isBehind : rest.drop (what.length - 1) = behind := by
                    cases what with
                    | nil => contradiction
                    | cons first others =>
                        rw [List.cons_append, List.cons.injEq] at split
                        simp [← split.2]
                  exact List.mem_append_right _ (ih (isBehind ▸ member))
            · rcases List.mem_cons.mp member with first | later
              · exact List.mem_cons.mpr (Or.inl first)
              · exact List.mem_cons_of_mem _ (ih later)

theorem hastyFrom_skip (count : ℤ) (skip : ℕ) (text : List α) :
    hastyFrom what replacement limit count skip text =
      hastyFrom what replacement limit count 0 (text.drop skip) := by
  induction text generalizing skip with
  | nil => simp [hastyFrom]
  | cons next rest ih =>
      cases skip with
      | zero => rfl
      | succ skip => exact ih skip

/-! ## The results agree when nothing is left out -/

/-- The hasty search gives the result of the search when it never has anything to leave out. -/
theorem hastyFrom_eq_replaceFrom {count : ℤ} {skip : ℕ} {text : List α}
    (safe : Safe what limit count skip text) :
    hastyFrom what replacement limit count skip text =
      replaceFrom what replacement limit count skip text := by
  induction text generalizing count skip with
  | nil => simp [hastyFrom, replaceFrom]
  | cons next rest ih =>
      cases skip with
      | succ skip => exact ih safe
      | zero =>
          simp only [Safe, failures] at safe
          simp only [hastyFrom, replaceFrom, agreeing_eq_length_iff]
          split
          · rfl
          · rename_i more
            rw [if_neg more] at safe
            split
            · rename_i occurs
              rw [if_pos occurs] at safe
              rw [ih safe]
            · rename_i absent
              rw [if_neg absent] at safe
              have here := safe _ List.mem_cons_self
              have one : agreeing what (next :: rest) - 1 = 0 := by omega
              have notEnd : agreeing what (next :: rest) ≠ rest.length + 1 := here.2.ne
              rw [if_neg notEnd, one, ih fun place isLater =>
                safe place (List.mem_cons_of_mem _ isLater)]

/-! ## The number of replacements -/

theorem hastyReplaced_le_count (what : List α) (bounded : 0 < limit) (count : ℤ) (skip : ℕ)
    (nonneg : 0 ≤ count) (text : List α) :
    (hastyReplaced what limit count skip text : ℤ) ≤ count := by
  induction text generalizing count skip with
  | nil => simpa [hastyReplaced] using nonneg
  | cons next rest ih =>
      cases skip with
      | succ skip => exact ih count skip nonneg
      | zero =>
          simp only [hastyReplaced]
          split
          · simpa using nonneg
          · rename_i more
            have notZero := ne_zero_of_not_spent more bounded
            split
            · have later := ih (count - 1) (what.length - 1) (by omega)
              push_cast
              omega
            · split
              · simpa using nonneg
              · exact ih count _ nonneg

/-- A search that is ahead stays ahead: it has replaced more by now, or as much and skips less
of the text. -/
theorem hastyReplaced_le (what : List α) (limit : ℤ) (ahead : ℕ) (count : ℤ) (skip hastySkip : ℕ)
    (lessSkip : ahead = 0 → skip ≤ hastySkip) (skipBound : skip ≤ what.length - 1)
    (allowed : 0 < limit → (ahead : ℤ) ≤ count) (text : List α) :
    hastyReplaced what limit count hastySkip text ≤
      replaced what limit (count - ahead) skip text + ahead := by
  induction text generalizing ahead count skip hastySkip with
  | nil => simp [hastyReplaced]
  | cons next rest ih =>
      have isOccurrence := agreeing_eq_length_iff what (next :: rest)
      cases skip with
      | succ skip =>
          cases hastySkip with
          | succ hastySkip =>
              exact ih ahead count skip hastySkip
                (fun same => Nat.le_of_succ_le_succ (lessSkip same)) (by omega) allowed
          | zero =>
              have isAhead : ahead ≠ 0 := fun same => absurd (lessSkip same) (by omega)
              simp only [hastyReplaced, replaced]
              split
              · exact Nat.zero_le _
              · split
                · have later := ih (ahead - 1) (count - 1) skip (what.length - 1) (by omega)
                    (by omega) (by omega)
                  have sameCount : count - 1 - ((ahead - 1 : ℕ) : ℤ) = count - ahead := by omega
                  rw [sameCount] at later
                  omega
                · split
                  · exact Nat.zero_le _
                  · exact ih ahead count skip _ (fun same => absurd same isAhead) (by omega) allowed
      | zero =>
          simp only [replaced]
          split
          · rename_i isSpent
            simp only [spent, Bool.and_eq_true, decide_eq_true_eq] at isSpent
            have within := hastyReplaced_le_count what isSpent.1 count hastySkip (by omega)
              (next :: rest)
            omega
          · rename_i more
            have notEqual := ne_zero_of_not_spent more
            split
            · rename_i occurs
              cases hastySkip with
              | succ hastySkip =>
                  have later := ih (ahead + 1) count (what.length - 1) hastySkip (by omega) le_rfl
                    (by omega)
                  have sameCount : count - ((ahead + 1 : ℕ) : ℤ) = count - ahead - 1 := by omega
                  rw [sameCount] at later
                  simp only [hastyReplaced]
                  omega
              | zero =>
                  simp only [hastyReplaced, isOccurrence.mpr occurs, if_true]
                  split
                  · exact Nat.zero_le _
                  · have later := ih ahead (count - 1) (what.length - 1) (what.length - 1)
                      (fun _ => le_rfl) le_rfl (by omega)
                    have sameCount : count - 1 - (ahead : ℤ) = count - ahead - 1 := by omega
                    rw [sameCount] at later
                    omega
            · rename_i absent
              cases hastySkip with
              | succ hastySkip =>
                  exact ih ahead count 0 hastySkip (fun _ => Nat.zero_le _) (Nat.zero_le _) allowed
              | zero =>
                  simp only [hastyReplaced, mt isOccurrence.mp absent, if_false]
                  split
                  · exact Nat.zero_le _
                  · split
                    · exact Nat.zero_le _
                    · exact ih ahead count 0 _ (fun _ => Nat.zero_le _) (Nat.zero_le _) allowed

/-! ## The lengths of the results -/

/-- Each replacement takes the text away and puts the replacement there. -/
theorem length_replaceFrom_add (replacement : List α) (limit : ℤ) (someWhat : what ≠ [])
    (count : ℤ) (skip : ℕ) (text : List α) :
    (replaceFrom what replacement limit count skip text).length + min skip text.length +
        replaced what limit count skip text * what.length =
      text.length + replaced what limit count skip text * replacement.length := by
  have positive := List.length_pos_of_ne_nil someWhat
  induction text generalizing count skip with
  | nil => simp [replaceFrom, replaced]
  | cons next rest ih =>
      cases skip with
      | succ skip =>
          have later := ih count skip
          simp only [replaceFrom, replaced, List.length_cons, Nat.add_min_add_right]
          omega
      | zero =>
          simp only [replaceFrom, replaced]
          split
          · simp
          · split
            · rename_i occurs
              have within := occurs.length_le
              have later := ih (count - 1) (what.length - 1)
              simp only [List.length_append, List.length_cons, add_mul, one_mul] at within ⊢
              omega
            · have later := ih count 0
              simp only [List.length_cons]
              omega

/-- The replacements can be told apart by the result when the text occurs. -/
theorem replaceFrom_injective (someWhat : what ≠ []) {other : List α} {count : ℤ}
    {text : List α} (occurs : what <:+: text)
    (same : replaceFrom what replacement 0 count 0 text = replaceFrom what other 0 count 0 text) :
    replacement = other := by
  induction text generalizing count with
  | nil => exact absurd (List.infix_nil.mp occurs) someWhat
  | cons next rest ih =>
      rw [replaceFrom, if_neg (not_spent_zero count), replaceFrom,
        if_neg (not_spent_zero count)] at same
      by_cases here : what <+: next :: rest
      · rw [if_pos here, if_pos here] at same
        have first := length_replaceFrom_add replacement 0 someWhat (count - 1)
          (what.length - 1) rest
        have second := length_replaceFrom_add other 0 someWhat (count - 1)
          (what.length - 1) rest
        have lengths := congrArg List.length same
        rw [List.length_append, List.length_append] at lengths
        have product : (replaced what 0 (count - 1) (what.length - 1) rest + 1) *
            replacement.length =
              (replaced what 0 (count - 1) (what.length - 1) rest + 1) * other.length := by
          rw [add_mul, add_mul, one_mul, one_mul]
          omega
        exact (List.append_inj same (Nat.eq_of_mul_eq_mul_left (Nat.succ_pos _) product)).1
      · rw [if_neg here, if_neg here] at same
        rcases List.infix_cons_iff.mp occurs with isPrefix | inRest
        · exact absurd isPrefix here
        · exact ih inRest (List.cons.inj same).2

section Lengths

variable (limit) (someWhat : what ≠ []) (notShorter : what.length ≤ replacement.length)
include someWhat notShorter

theorem length_replaceFrom (count : ℤ) (skip : ℕ) (text : List α) :
    (replaceFrom what replacement limit count skip text).length + min skip text.length =
      text.length +
        replaced what limit count skip text * (replacement.length - what.length) := by
  have lengths := length_replaceFrom_add replacement limit someWhat count skip text
  have notLess := Nat.mul_le_mul_left (replaced what limit count skip text) notShorter
  rw [Nat.mul_sub]
  omega

theorem length_hastyFrom_le (count : ℤ) (skip : ℕ) (text : List α) :
    (hastyFrom what replacement limit count skip text).length + min skip text.length ≤
      text.length +
        hastyReplaced what limit count skip text * (replacement.length - what.length) := by
  have positive := List.length_pos_of_ne_nil someWhat
  induction text generalizing count skip with
  | nil => simp [hastyFrom, hastyReplaced]
  | cons next rest ih =>
      cases skip with
      | succ skip =>
          have later := ih count skip
          simp only [hastyFrom, hastyReplaced, List.length_cons, Nat.add_min_add_right]
          omega
      | zero =>
          simp only [hastyFrom, hastyReplaced, agreeing_eq_length_iff]
          split
          · simp
          · split
            · rename_i occurs
              have within := occurs.length_le
              have later := ih (count - 1) (what.length - 1)
              simp only [List.length_append, List.length_cons, add_mul, one_mul] at within ⊢
              omega
            · split
              · simp
              · have later := ih count (agreeing what (next :: rest) - 1)
                simp only [List.length_cons]
                omega

/-- When there is something to leave out, the result of the hasty search is shorter. -/
theorem length_hastyFrom_lt (count : ℤ) (skip : ℕ) (text : List α)
    (nonneg : 0 < limit → 0 ≤ count) (notSafe : ¬Safe what limit count skip text) :
    (hastyFrom what replacement limit count skip text).length <
      (replaceFrom what replacement limit count skip text).length := by
  induction text generalizing count skip with
  | nil => simp [Safe, failures] at notSafe
  | cons next rest ih =>
      cases skip with
      | succ skip => exact ih count skip nonneg notSafe
      | zero =>
          simp only [Safe, failures] at notSafe
          simp only [hastyFrom, replaceFrom, agreeing_eq_length_iff]
          split
          · rename_i isSpent
            simp [isSpent] at notSafe
          · rename_i more
            rw [if_neg more] at notSafe
            split
            · rename_i occurs
              rw [if_pos occurs] at notSafe
              have positive : 0 < limit → 0 ≤ count - 1 := by
                intro bounded
                have notZero := ne_zero_of_not_spent more bounded
                have atLeast := nonneg bounded
                omega
              have later := ih (count - 1) _ positive notSafe
              simp only [List.length_append]
              omega
            · rename_i absent
              rw [if_neg absent] at notSafe
              split
              · simp
              · rename_i notEnd
                simp only [List.length_cons]
                by_cases one : agreeing what (next :: rest) < 2
                · have none : agreeing what (next :: rest) - 1 = 0 := by omega
                  have within := (agreeing_le_length what (next :: rest)).2
                  have later := ih count 0 nonneg (fun safe =>
                    notSafe fun place member => by
                      rcases List.mem_cons.mp member with rfl | isLater
                      · exact ⟨one, lt_of_le_of_ne within notEnd⟩
                      · exact safe place isLater)
                  rw [none]
                  omega
                · have within := (agreeing_le_length what (next :: rest)).2
                  have short := length_hastyFrom_le limit someWhat notShorter count
                    (agreeing what (next :: rest) - 1) rest
                  have long := length_replaceFrom limit someWhat notShorter count 0 rest
                  have fewer := hastyReplaced_le what limit 0 count 0
                    (agreeing what (next :: rest) - 1)
                    (fun _ => Nat.zero_le _) (Nat.zero_le _) nonneg rest
                  simp only [Nat.cast_zero, sub_zero, add_zero] at fewer
                  have product := Nat.mul_le_mul_right (replacement.length - what.length) fewer
                  simp only [List.length_cons] at within
                  omega

end Lengths

/-- The hasty search gives the result of the search exactly when there is nothing to leave
out, for replacements that are not shorter than the text. -/
theorem hastyFrom_eq_iff (someWhat : what ≠ []) (notShorter : what.length ≤ replacement.length)
    {count : ℤ} {skip : ℕ} {text : List α} (nonneg : 0 < limit → 0 ≤ count) :
    hastyFrom what replacement limit count skip text =
        replaceFrom what replacement limit count skip text ↔
      Safe what limit count skip text := by
  constructor
  · intro equal
    by_contra notSafe
    exact (length_hastyFrom_lt limit someWhat notShorter count skip text nonneg notSafe).ne
      (congrArg _ equal)
  · exact hastyFrom_eq_replaceFrom

end Replacement
