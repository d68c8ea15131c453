import Mathlib.Tactic

/-!
# While loops

A while loop runs its body on the state as long as a test holds, for a bounded number of
rounds.  A loop whose body decreases a measure ends within a bound, and what the body
preserves at the states the loop reaches holds when it ends.  A loop whose body returns goes
on until it does.
-/

universe u v

namespace WhileLoop

variable {σ : Type u} (continues : σ → Bool) (body : σ → σ)

/-- The state in which the loop ends, if it ends within the given number of tests. -/
def run : ℕ → σ → Option σ
  | 0, _ => none
  | fuel + 1, state => if continues state then run fuel (body state) else some state

/-- The states at which the loop tests. -/
inductive Reached (start : σ) : σ → Prop where
  | start : Reached start start
  | round {state : σ} (before : Reached start state) (goesOn : continues state = true) :
      Reached start (body state)

variable {continues} {body} {start : σ}

/-- An invariant that every round of the loop preserves holds at every reached state. -/
theorem Reached.invariant (invariant : σ → Prop) (initial : invariant start)
    (preserved : ∀ state, Reached continues body start state → continues state = true →
      invariant state → invariant (body state))
    {state : σ} (reached : Reached continues body start state) : invariant state := by
  induction reached with
  | start => exact initial
  | round before goesOn ih => exact preserved _ before goesOn ih

/-- A loop that ends has only finitely many reached states. -/
theorem Reached.exists_iterate {bound : ℕ} (ends : continues (body^[bound] start) = false)
    {state : σ} (reached : Reached continues body start state) :
    ∃ rounds ≤ bound, body^[rounds] start = state := by
  induction reached with
  | start => exact ⟨0, Nat.zero_le _, rfl⟩
  | round before goesOn ih =>
      rcases ih with ⟨rounds, within, equal⟩
      have notLast : rounds ≠ bound := by
        rintro rfl
        rw [equal, goesOn] at ends
        contradiction
      refine ⟨rounds + 1, by omega, ?_⟩
      rw [Function.iterate_succ_apply', equal]

/-- A loop whose body decreases a measure ends, at a reached state where the test fails. -/
theorem run_of_measure (measure : σ → ℕ)
    (decreases : ∀ state, Reached continues body start state → continues state = true →
      measure (body state) < measure state)
    {state : σ} (reached : Reached continues body start state)
    {fuel : ℕ} (enough : measure state < fuel) :
    ∃ final, run continues body fuel state = some final ∧
      Reached continues body start final ∧ continues final = false := by
  induction fuel generalizing state with
  | zero => exact absurd enough (Nat.not_lt_zero _)
  | succ fuel ih =>
      simp only [run]
      cases goesOn : continues state with
      | false => exact ⟨state, by simp, reached, goesOn⟩
      | true =>
          have less := decreases state reached goesOn
          rw [if_pos rfl]
          exact ih (reached.round goesOn) (by omega)

section Returns

variable {ρ : Type v}

/-- The result of a loop whose body goes on with a state or returns a result, if it returns
within the given number of rounds. -/
def runUntil (body : σ → σ ⊕ ρ) : ℕ → σ → Option ρ
  | 0, _ => none
  | fuel + 1, state =>
      match body state with
      | .inl next => runUntil body fuel next
      | .inr result => some result

/-- What a round of a loop does: it preserves the invariant with a smaller measure, or returns
a result with the postcondition. -/
def Round (invariant : σ → Prop) (measure : σ → ℕ) (post : ρ → Prop) (state : σ) : σ ⊕ ρ → Prop
  | .inl next => invariant next ∧ measure next < measure state
  | .inr result => post result

/-- A loop whose rounds preserve an invariant and decrease a measure returns, and its result has
the postcondition. -/
theorem runUntil_of_rounds {body : σ → σ ⊕ ρ} {invariant : σ → Prop} {measure : σ → ℕ}
    {post : ρ → Prop}
    (rounds : ∀ state, invariant state → Round invariant measure post state (body state))
    {state : σ} (holds : invariant state) {fuel : ℕ} (enough : measure state < fuel) :
    ∃ result, runUntil body fuel state = some result ∧ post result := by
  induction fuel generalizing state with
  | zero => exact absurd enough (Nat.not_lt_zero _)
  | succ fuel ih =>
      have round := rounds state holds
      simp only [runUntil]
      cases outcome : body state with
      | inl next =>
          rw [outcome] at round
          exact ih round.1 (lt_of_lt_of_le round.2 (Nat.le_of_lt_succ enough))
      | inr result =>
          rw [outcome] at round
          exact ⟨result, rfl, round⟩

/-- What the rounds of a loop preserve holds of the result that it returns. -/
theorem runUntil_of_invariant {body : σ → σ ⊕ ρ} {invariant : σ → Prop} {post : ρ → Prop}
    (rounds : ∀ state, invariant state → Sum.elim invariant post (body state))
    {state : σ} (holds : invariant state) {fuel : ℕ} {result : ρ}
    (ran : runUntil body fuel state = some result) : post result := by
  induction fuel generalizing state with
  | zero => cases ran
  | succ fuel ih =>
      have round := rounds state holds
      simp only [runUntil] at ran
      cases outcome : body state with
      | inl next =>
          rw [outcome] at round ran
          exact ih round ran
      | inr returned =>
          rw [outcome] at round ran
          cases ran
          exact round

/-- The body goes on from one state with another one. -/
def Goes (body : σ → σ ⊕ ρ) (state next : σ) : Prop := body state = .inl next

/-- A loop that goes on to a state where the body returns has the result of that state. -/
theorem runUntil_of_goes {body : σ → σ ⊕ ρ} {state last : σ}
    (goes : Relation.ReflTransGen (Goes body) state last) {result : ρ}
    (returns : body last = .inr result) {fuel : ℕ} {other : ρ}
    (ran : runUntil body fuel state = some other) : other = result := by
  induction goes using Relation.ReflTransGen.head_induction_on generalizing fuel with
  | refl =>
      cases fuel with
      | zero => cases ran
      | succ fuel =>
          simp only [runUntil, returns, Option.some.injEq] at ran
          exact ran.symm
  | head here _ ih =>
      cases fuel with
      | zero => cases ran
      | succ fuel =>
          simp only [runUntil] at ran
          rw [here] at ran
          exact ih ran

/-- A loop that goes on to a state where the body returns does so within some number of rounds. -/
theorem exists_runUntil_of_goes {body : σ → σ ⊕ ρ} {state last : σ}
    (goes : Relation.ReflTransGen (Goes body) state last) {result : ρ}
    (returns : body last = .inr result) : ∃ fuel, runUntil body fuel state = some result := by
  induction goes using Relation.ReflTransGen.head_induction_on with
  | refl => exact ⟨1, by simp only [runUntil, returns]⟩
  | head here _ ih =>
      obtain ⟨fuel, ran⟩ := ih
      refine ⟨fuel + 1, ?_⟩
      rw [runUntil, here]
      exact ran

/-- A loop that always goes on never returns. -/
theorem runUntil_eq_none {body : σ → σ ⊕ ρ} {invariant : σ → Prop}
    (goesOn : ∀ state, invariant state → ∃ next, body state = .inl next ∧ invariant next)
    {state : σ} (holds : invariant state) (fuel : ℕ) : runUntil body fuel state = none := by
  induction fuel generalizing state with
  | zero => rfl
  | succ fuel ih =>
      obtain ⟨next, goes, holdsNext⟩ := goesOn state holds
      rw [runUntil, goes]
      exact ih holdsNext

/-- A loop that goes on to a state that it does not leave never returns. -/
theorem runUntil_eq_none_of_goes {body : σ → σ ⊕ ρ} {state stuck : σ}
    (goes : Relation.ReflTransGen (Goes body) state stuck) (stays : Goes body stuck stuck)
    (fuel : ℕ) : runUntil body fuel state = none := by
  have goesOn (other : σ) (leads : Relation.ReflTransGen (Goes body) other stuck) :
      ∃ next, body other = .inl next ∧ Relation.ReflTransGen (Goes body) next stuck := by
    rcases leads.cases_head with rfl | ⟨next, here, rest⟩
    · exact ⟨other, stays, leads⟩
    · exact ⟨next, here, rest⟩
  exact runUntil_eq_none goesOn goes fuel

end Returns

end WhileLoop
