import Mathlib.Data.Int.Notation
import Mathlib.Order.Lattice
import Mathlib.Order.Defs.LinearOrder
import Mathlib.Tactic.Basic

set_option relaxedAutoImplicit false
set_option autoImplicit false

/-!
# 64-bit column values

A value of a `BIGINT` column, or of an `i64`, is an integer together with the proof that it is in
range, so that a value out of range cannot be built. What may leave the range is fallible (a cast,
a checked operation), saturates, or wraps.

## Main definitions

* `Numeric.BigInt` — the values.
* `Numeric.BigInt.cast` — the cast of an exact number to the column type.
* `Numeric.BigInt.checkedAdd`, `checkedNeg`, `checkedSub`, `saturatingAdd`, `wrappingSub`,
  `clamp?` — the operations on them.

## Main results

* `Numeric.BigInt.cast_eq_ok` — a cast succeeds exactly in range, and keeps the number.
-/

namespace Numeric

/-! ## Fallible computations -/

section Fallible

variable {α β : Type}

/-- A composition succeeds when both parts do. -/
lemma bind_eq_ok {x : Except String α} {f : α → Except String β} {b : β} :
    x >>= f = .ok b ↔ ∃ a, x = .ok a ∧ f a = .ok b := by
  cases x <;> simp [Bind.bind, Except.bind]

lemma pure_eq_ok {a b : α} : (pure a : Except String α) = .ok b ↔ a = b := by
  simp [pure, Except.pure]

lemma map_eq_ok {x : Except String α} {f : α → β} {b : β} :
    x.map f = .ok b ↔ ∃ a, x = .ok a ∧ f a = b := by
  cases x <;> simp [Except.map]

end Fallible

/-! ## The values -/

/-- The integers of 64 bits. -/
structure BigInt where
  val : ℤ
  ge : -9223372036854775808 ≤ val
  le : val ≤ 9223372036854775807
  deriving DecidableEq

namespace BigInt

instance : Coe BigInt ℤ := ⟨BigInt.val⟩

@[ext] lemma ext {a b : BigInt} (h : a.val = b.val) : a = b := by
  cases a; cases b; simpa using h

lemma val_inj {a b : BigInt} : a.val = b.val ↔ a = b := ⟨BigInt.ext, fun h => h ▸ rfl⟩

/-- The integer is in range. -/
def InRange (x : ℤ) : Prop := -9223372036854775808 ≤ x ∧ x ≤ 9223372036854775807

instance (x : ℤ) : Decidable (InRange x) :=
  inferInstanceAs (Decidable (_ ∧ _))

lemma inRange (a : BigInt) : InRange a.val := ⟨a.ge, a.le⟩

/-- The value of an integer, if it is in range. -/
def ofInt? (x : ℤ) : Option BigInt := if h : InRange x then some ⟨x, h.1, h.2⟩ else none

@[simp] lemma ofInt?_eq_some {x : ℤ} {a : BigInt} : ofInt? x = some a ↔ a.val = x := by
  unfold ofInt?
  split
  · rename_i h
    rw [Option.some.injEq]
    exact ⟨fun e => e ▸ rfl, fun e => BigInt.ext e.symm⟩
  · rename_i h
    refine ⟨fun e => by simp at e, fun e => absurd (e ▸ a.inRange) h⟩

lemma ofInt?_eq_none {x : ℤ} : ofInt? x = none ↔ ¬ InRange x := by
  unfold ofInt?
  split <;> simp_all

@[simp] lemma ofInt?_val (a : BigInt) : ofInt? a.val = some a := ofInt?_eq_some.mpr rfl

/-- The value nearest to an integer. -/
def saturate (x : ℤ) : BigInt where
  val := max (-9223372036854775808) (min x 9223372036854775807)
  ge := by omega
  le := by omega

lemma saturate_val {x : ℤ} (h : InRange x) : (saturate x).val = x := by
  unfold InRange at h
  simp only [saturate]
  omega

instance (n : ℕ) : OfNat BigInt n := ⟨saturate n⟩

instance : Inhabited BigInt := ⟨0⟩

@[simp] lemma zero_val : (0 : BigInt).val = 0 := rfl

/-- The cast of an exact number to the column type. -/
def cast (x : ℤ) : Except String BigInt :=
  match ofInt? x with
  | some a => .ok a
  | none => .error "bigint out of range"

@[simp] lemma cast_eq_ok {x : ℤ} {a : BigInt} : cast x = .ok a ↔ a.val = x := by
  unfold cast
  rw [← ofInt?_eq_some]
  cases ofInt? x <;> simp

lemma cast_eq_error {x : ℤ} {e : String} :
    cast x = .error e ↔ ¬ InRange x ∧ e = "bigint out of range" := by
  unfold cast
  rw [← ofInt?_eq_none]
  cases ofInt? x <;> simp [eq_comm]

@[simp] lemma cast_val (a : BigInt) : cast a.val = .ok a := cast_eq_ok.mpr rfl

lemma cast_of_inRange {x : ℤ} (h : InRange x) : cast x = .ok ⟨x, h.1, h.2⟩ := cast_eq_ok.mpr rfl

/-! ## Operations -/

def checkedAdd (a b : BigInt) : Option BigInt := ofInt? (a.val + b.val)

def checkedSub (a b : BigInt) : Option BigInt := ofInt? (a.val - b.val)

def checkedNeg (a : BigInt) : Option BigInt := ofInt? (-a.val)

/-- The sum, or the end of the range beyond which it lies. -/
def saturatingAdd (a b : BigInt) : BigInt := saturate (a.val + b.val)

/-- The difference modulo `2 ^ 64`. -/
def wrappingSub (a b : BigInt) : BigInt where
  val := (a.val - b.val + 9223372036854775808) % 18446744073709551616 - 9223372036854775808
  ge := by omega
  le := by omega

/-- The lesser of two values. -/
def min (a b : BigInt) : BigInt := if a.val ≤ b.val then a else b

/-- The greater of two values. -/
def max (a b : BigInt) : BigInt := if a.val ≤ b.val then b else a

/-- The nearest value between two bounds; there is none where the bounds are crossed. -/
def clamp? (a lo hi : BigInt) : Option BigInt :=
  if lo.val ≤ hi.val then some (max lo (min a hi)) else none

@[simp] lemma checkedAdd_eq_some {a b c : BigInt} :
    a.checkedAdd b = some c ↔ c.val = a.val + b.val := ofInt?_eq_some

@[simp] lemma checkedSub_eq_some {a b c : BigInt} :
    a.checkedSub b = some c ↔ c.val = a.val - b.val := ofInt?_eq_some

@[simp] lemma checkedNeg_eq_some {a c : BigInt} : a.checkedNeg = some c ↔ c.val = -a.val :=
  ofInt?_eq_some

@[simp] lemma min_val (a b : BigInt) : (min a b).val = Min.min a.val b.val := by
  unfold min
  split <;> omega

@[simp] lemma max_val (a b : BigInt) : (max a b).val = Max.max a.val b.val := by
  unfold max
  split <;> omega

lemma saturatingAdd_val (a b : BigInt) : (a.saturatingAdd b).val =
    Max.max (-9223372036854775808) (Min.min (a.val + b.val) 9223372036854775807) := rfl

/-- Wrapping loses nothing in range. -/
lemma wrappingSub_val {a b : BigInt} (h : InRange (a.val - b.val)) :
    (a.wrappingSub b).val = a.val - b.val := by
  unfold InRange at h
  simp only [wrappingSub]
  omega

@[simp] lemma clamp?_eq_some {a lo hi c : BigInt} : a.clamp? lo hi = some c ↔
    lo.val ≤ hi.val ∧ c.val = Max.max lo.val (Min.min a.val hi.val) := by
  unfold clamp?
  split
  · rename_i h
    rw [Option.some.injEq, ← val_inj, max_val, min_val]
    exact ⟨fun e => ⟨h, e.symm⟩, fun e => e.2.symm⟩
  · rename_i h
    simp [h]

end BigInt

end Numeric
