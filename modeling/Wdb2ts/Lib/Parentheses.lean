import Mathlib.Data.List.Basic

/-!
# Matching parentheses

A list in which the parentheses match is a relation of its own.  A scanner that counts the open
parentheses finds what is behind the one that closes them.
-/

universe u

namespace Parentheses

variable {α : Type u} (opening closing : α)

/-- The parentheses of a list match. -/
inductive Balanced : List α → Prop where
  | nil : Balanced []
  | other {element : α} {rest : List α} (notOpening : element ≠ opening)
      (notClosing : element ≠ closing) (balanced : Balanced rest) : Balanced (element :: rest)
  | group {inside behind : List α} (balanced : Balanced inside) (others : Balanced behind) :
      Balanced (opening :: (inside ++ closing :: behind))

/-- Behind a number of parentheses that are open, with what matches in between. -/
inductive Behind : ℕ → List α → List α → Prop where
  | here (rest : List α) : Behind 0 rest rest
  | close {depth : ℕ} {inside behind rest : List α} (balanced : Balanced opening closing inside)
      (outside : Behind depth behind rest) : Behind (depth + 1) (inside ++ closing :: behind) rest

/-- What is behind the parenthesis that closes a number of open ones, if there is one. -/
def behindClosing [DecidableEq α] : List α → ℕ → Option (List α)
  | rest, 0 => some rest
  | [], _ + 1 => none
  | element :: rest, depth + 1 =>
      if element = closing then behindClosing rest depth
      else if element = opening then behindClosing rest (depth + 2)
      else behindClosing rest (depth + 1)

variable {opening closing} [DecidableEq α]

theorem behindClosing_cons (element : α) (rest : List α) (depth : ℕ) :
    behindClosing opening closing (element :: rest) (depth + 1) =
      if element = closing then behindClosing opening closing rest depth
      else if element = opening then behindClosing opening closing rest (depth + 2)
      else behindClosing opening closing rest (depth + 1) := rfl

/-- The scanner gets over what matches. -/
theorem behindClosing_balanced (differ : opening ≠ closing) {inside : List α}
    (balanced : Balanced opening closing inside) (rest : List α) (depth : ℕ) :
    behindClosing opening closing (inside ++ rest) (depth + 1) =
      behindClosing opening closing rest (depth + 1) := by
  induction balanced generalizing rest depth with
  | nil => rfl
  | other notOpening notClosing _ ih =>
      rw [List.cons_append, behindClosing_cons, if_neg notClosing, if_neg notOpening, ih]
  | group _ _ insideIh behindIh =>
      rw [List.cons_append, List.append_assoc, behindClosing_cons, if_neg differ, if_pos rfl,
        insideIh, List.cons_append, behindClosing_cons, if_pos rfl, behindIh]

/-- What the scanner finds is behind the open parentheses. -/
theorem behind_of_behindClosing {text rest : List α} {depth : ℕ}
    (found : behindClosing opening closing text depth = some rest) :
    Behind opening closing depth text rest := by
  induction text generalizing depth with
  | nil =>
      cases depth with
      | zero =>
          cases found
          exact .here []
      | succ depth => cases found
  | cons element behind ih =>
      cases depth with
      | zero =>
          cases found
          exact .here _
      | succ depth =>
          rw [behindClosing_cons] at found
          split at found
          · next isClosing =>
              rw [isClosing]
              exact .close .nil (ih found)
          · next notClosing =>
              split at found
              · next isOpening =>
                  rw [isOpening]
                  cases ih found with
                  | @close _ inside _ _ balanced outside =>
                      cases outside with
                      | @close _ others behind _ otherBalanced outside =>
                          have both := Balanced.group balanced otherBalanced
                          have joined := Behind.close both outside
                          rwa [List.cons_append, List.append_assoc, List.cons_append] at joined
              · next notOpening =>
                  cases ih found with
                  | @close _ inside _ _ balanced outside =>
                      exact .close (.other notOpening notClosing balanced) outside

theorem behindClosing_of_behind (differ : opening ≠ closing) {text rest : List α} {depth : ℕ}
    (behind : Behind opening closing depth text rest) :
    behindClosing opening closing text depth = some rest := by
  induction behind with
  | here rest =>
      cases rest with
      | nil => rfl
      | cons element rest => rfl
  | close balanced _ ih =>
      rw [behindClosing_balanced differ balanced, behindClosing_cons, if_pos rfl, ih]

/-- The scanner finds what is behind the parenthesis that matches. -/
theorem behindClosing_one_iff (differ : opening ≠ closing) {text rest : List α} :
    behindClosing opening closing text 1 = some rest ↔
      ∃ inside, Balanced opening closing inside ∧ text = inside ++ closing :: rest := by
  constructor
  · intro found
    cases behind_of_behindClosing found with
    | @close _ inside _ _ balanced outside =>
        cases outside
        exact ⟨inside, balanced, rfl⟩
  · rintro ⟨inside, balanced, rfl⟩
    exact behindClosing_of_behind differ (.close balanced (.here rest))

end Parentheses
