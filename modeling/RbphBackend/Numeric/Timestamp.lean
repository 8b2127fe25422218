import Mathlib.Data.Int.Notation
import Mathlib.Tactic.Basic

set_option relaxedAutoImplicit false
set_option autoImplicit false

/-!
# Timestamps

An instant is a number of microseconds from the epoch. What a statement computes must lie within
the range of the database's timestamps, or the statement fails.

## Main definitions

* `Numeric.Timestamp.check` — an instant, if it is in range.
* `Numeric.Timestamp.lastDateTime` — the last one that a query can return.
-/

namespace Numeric.Timestamp

/-- The first instant, in 4714 BC. -/
def first : ℤ := -210866803200000000

/-- The instant after the last, in 294277. -/
def afterLast : ℤ := 9224318016000000000

/-- The last instant of an `OffsetDateTime`, in 9999. An instant that a query returns is decoded as
one. -/
def lastDateTime : ℤ := 253402300799999999

/-- A computed instant. -/
def check (t : ℤ) : Except String ℤ :=
  if first ≤ t ∧ t < afterLast then .ok t else .error "timestamp out of range"

@[simp] lemma check_eq_ok {t t' : ℤ} : check t = .ok t' ↔ (first ≤ t ∧ t < afterLast) ∧ t' = t := by
  unfold check
  split
  · rename_i h
    simp [h, eq_comm]
  · rename_i h
    simp [h]

end Numeric.Timestamp
