import Mathlib.Data.Nat.Notation
import Mathlib.Tactic.Basic

set_option relaxedAutoImplicit false
set_option autoImplicit false

/-!
# Base 64 for addresses

Three bytes are four characters of an alphabet of 64 that may stand in an address. The last bytes
are not padded; the bits of their last character that no byte has are zero.

## Main definitions

* `Numeric.Base64.encode`, `Numeric.Base64.decode` — `URL_SAFE_NO_PAD`.

## Main results

* `Numeric.Base64.decode_encode` — the bytes are found again.
-/

namespace Numeric.Base64

/-- A character of the alphabet. -/
def char (n : ℕ) : Char :=
  if n < 26 then Char.ofNat (65 + n) else if n < 52 then Char.ofNat (97 + (n - 26))
  else if n < 62 then Char.ofNat (48 + (n - 52)) else if n = 62 then '-' else '_'

/-- The value of a character of the alphabet. -/
def value (c : Char) : Option ℕ :=
  if 65 ≤ c.toNat ∧ c.toNat ≤ 90 then some (c.toNat - 65)
  else if 97 ≤ c.toNat ∧ c.toNat ≤ 122 then some (c.toNat - 97 + 26)
  else if 48 ≤ c.toNat ∧ c.toNat ≤ 57 then some (c.toNat - 48 + 52)
  else if c = '-' then some 62
  else if c = '_' then some 63
  else none

lemma value_char {n : ℕ} (h : n < 64) : value (char n) = some n := by
  have hall : ∀ n < 64, value (char n) = some n := by decide
  exact hall n h

/-- The text of bytes. -/
def encode : List UInt8 → List Char
  | [] => []
  | [a] => [char (a.toNat / 4), char (a.toNat % 4 * 16)]
  | [a, b] =>
    [char (a.toNat / 4), char (a.toNat % 4 * 16 + b.toNat / 16), char (b.toNat % 16 * 4)]
  | a :: b :: c :: bytes =>
    char (a.toNat / 4) :: char (a.toNat % 4 * 16 + b.toNat / 16) ::
      char (b.toNat % 16 * 4 + c.toNat / 64) :: char (c.toNat % 64) :: encode bytes

/-- The bytes of the values of a text. -/
def bytes : List ℕ → Option (List UInt8)
  | [] => some []
  | [_] => none
  | [x, y] => if y % 16 = 0 then some [UInt8.ofNat (x * 4 + y / 16)] else none
  | [x, y, z] =>
    if z % 4 = 0 then some [UInt8.ofNat (x * 4 + y / 16), UInt8.ofNat (y % 16 * 16 + z / 4)]
    else none
  | x :: y :: z :: w :: values => do
    let rest ← bytes values
    some (UInt8.ofNat (x * 4 + y / 16) :: UInt8.ofNat (y % 16 * 16 + z / 4) ::
      UInt8.ofNat (z % 4 * 64 + w) :: rest)

/-- The bytes of a text. -/
def decode (text : List Char) : Option (List UInt8) := do bytes (← text.mapM value)

lemma ofNat_eq {n : ℕ} {a : UInt8} (h : n = a.toNat) : UInt8.ofNat n = a := by
  rw [h, UInt8.ofNat_toNat]

/-- **The bytes are found again** from their text. -/
theorem decode_encode (data : List UInt8) : decode (encode data) = some data := by
  induction data using encode.induct with
  | case1 => rfl
  | case2 a =>
    have ha := a.toNat_lt
    simp only [encode, decode, List.mapM_cons, List.mapM_nil, Option.pure_def, Option.bind_eq_bind,
      Option.bind_some, value_char (show a.toNat / 4 < 64 by omega),
      value_char (show a.toNat % 4 * 16 < 64 by omega), bytes]
    rw [if_pos (by omega), ofNat_eq (a := a) (by omega)]
  | case3 a b =>
    have ha := a.toNat_lt
    have hb := b.toNat_lt
    simp only [encode, decode, List.mapM_cons, List.mapM_nil, Option.pure_def, Option.bind_eq_bind,
      Option.bind_some, value_char (show a.toNat / 4 < 64 by omega),
      value_char (show a.toNat % 4 * 16 + b.toNat / 16 < 64 by omega),
      value_char (show b.toNat % 16 * 4 < 64 by omega), bytes]
    rw [if_pos (by omega), ofNat_eq (a := a) (by omega), ofNat_eq (a := b) (by omega)]
  | case4 a b c data ih =>
    have ha := a.toNat_lt
    have hb := b.toNat_lt
    have hc := c.toNat_lt
    simp only [decode, Option.bind_eq_bind] at ih
    cases hvalues : (encode data).mapM value with
    | none =>
      rw [hvalues] at ih
      exact absurd ih (by simp)
    | some values =>
      rw [hvalues, Option.bind_some] at ih
      simp only [encode, decode, List.mapM_cons, Option.pure_def, Option.bind_eq_bind,
        Option.bind_some, value_char (show a.toNat / 4 < 64 by omega),
        value_char (show a.toNat % 4 * 16 + b.toNat / 16 < 64 by omega),
        value_char (show b.toNat % 16 * 4 + c.toNat / 64 < 64 by omega),
        value_char (show c.toNat % 64 < 64 by omega), hvalues, bytes, ih]
      rw [ofNat_eq (a := a) (by omega), ofNat_eq (a := b) (by omega), ofNat_eq (a := c) (by omega)]

example : String.ofList (encode [250, 251, 252, 253]) = "-vv8_Q" := by decide

end Numeric.Base64
