import Mathlib.Tactic

/-!
# Points in time

`boost::posix_time::ptime` is a tick counter with three special values.  The
comparison operators of a `ptime` compare the raw counters, and the counters of the
special values are the smallest, the largest and the second largest representable
number, so the special values take part in one linear order.
-/

namespace Wdb2ts

/-- A `ptime`, in microseconds since 1970-01-01T00:00:00. -/
inductive PTime where
  | negInfinity
  | ticks (microseconds : ℤ)
  | notADateTime
  | posInfinity
  deriving DecidableEq, Repr

namespace PTime

/-- `ptime::is_special`. -/
def isSpecial : PTime → Bool
  | .ticks _ => false
  | _ => true

/-- `ptime()`, the value of a default constructed `ptime`. -/
instance : Inhabited PTime := ⟨.notADateTime⟩

/-- Comparison of the raw tick counters. -/
protected def leb : PTime → PTime → Bool
  | .negInfinity, _ => true
  | .ticks left, .ticks right => decide (left ≤ right)
  | .ticks _, .notADateTime => true
  | .notADateTime, .notADateTime => true
  | _, .posInfinity => true
  | _, _ => false

instance : LE PTime := ⟨fun left right => left.leb right = true⟩

theorem le_iff_leb {left right : PTime} : left ≤ right ↔ left.leb right = true :=
  Iff.rfl

instance : DecidableRel (α := PTime) (· ≤ ·) := fun left right =>
  inferInstanceAs (Decidable (left.leb right = true))

instance : LinearOrder PTime where
  le_refl time := by cases time <;> simp [le_iff_leb, PTime.leb]
  le_trans first second third := by
    cases first <;> cases second <;> cases third <;> simp [le_iff_leb, PTime.leb]
    exact le_trans
  le_antisymm left right := by
    cases left <;> cases right <;> simp [le_iff_leb, PTime.leb]
    exact le_antisymm
  le_total left right := by
    cases left <;> cases right <;> simp [le_iff_leb, PTime.leb]
    exact le_total _ _
  toDecidableLE := inferInstance

@[simp] theorem isSpecial_ticks (microseconds : ℤ) :
    isSpecial (.ticks microseconds) = false := rfl

@[simp] theorem ticks_le_ticks {left right : ℤ} :
    (PTime.ticks left ≤ .ticks right) ↔ left ≤ right := by
  simp [le_iff_leb, PTime.leb]

@[simp] theorem ticks_lt_ticks {left right : ℤ} :
    (PTime.ticks left < .ticks right) ↔ left < right := by
  rw [← not_le, ← not_le, ticks_le_ticks]

/-- The given number of whole hours, `boost::posix_time::hours`. -/
def hours (count : ℤ) : ℤ := count * 3600000000

/-- `ptime - time_duration`: the special values absorb the duration. -/
def sub : PTime → ℤ → PTime
  | .ticks microseconds, duration => .ticks (microseconds - duration)
  | special, _ => special

/-- `ptime + time_duration`: the special values absorb the duration. -/
def add : PTime → ℤ → PTime
  | .ticks microseconds, duration => .ticks (microseconds + duration)
  | special, _ => special

@[simp] theorem sub_zero (time : PTime) : time.sub 0 = time := by
  cases time <;> simp [sub]

/-- 1970-01-01T00:00:00, the pseudo time of the constant fields. -/
def epoch : PTime := .ticks 0

end PTime

end Wdb2ts
