import Mathlib.Tactic

/-!
# Rules for fallible computations

A sequence of two computations succeeds when both do, and fails in one of them.  A computation
whose failures are renamed fails with a renamed failure only.
-/

namespace Fallible

variable {ε ε' α β : Type*}

/-- What the two parts of a computation that succeeds return. -/
theorem exists_of_bind_eq_ok {value : Except ε α} {next : α → Except ε β} {result : β}
    (returns : value.bind next = .ok result) :
    ∃ read, value = .ok read ∧ next read = .ok result := by
  cases value with
  | error failure => cases returns
  | ok read => exact ⟨read, rfl, returns⟩

/-- A computation fails in one of its two parts. -/
theorem of_bind_eq_error {value : Except ε α} {next : α → Except ε β} {failure : ε}
    (fails : value.bind next = .error failure) :
    value = .error failure ∨ ∃ read, value = .ok read ∧ next read = .error failure := by
  cases value with
  | error other =>
      cases fails
      exact Or.inl rfl
  | ok read => exact Or.inr ⟨read, rfl, fails⟩

theorem of_mapError_eq_ok {value : Except ε α} {rename : ε → ε'} {result : α}
    (returns : value.mapError rename = .ok result) : value = .ok result := by
  cases value with
  | error failure => cases returns
  | ok other =>
      cases returns
      rfl

theorem exists_of_mapError_eq_error {value : Except ε α} {rename : ε → ε'} {failure : ε'}
    (fails : value.mapError rename = .error failure) :
    ∃ original, value = .error original ∧ failure = rename original := by
  cases value with
  | error original =>
      cases fails
      exact ⟨original, rfl, rfl⟩
  | ok result => cases fails

end Fallible
