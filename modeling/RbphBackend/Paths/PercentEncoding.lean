import Mathlib.Data.List.Basic
import Mathlib.Data.List.GetD
import Mathlib.Tactic.Basic
import RbphBackend.Encoding.Framing

set_option relaxedAutoImplicit false
set_option autoImplicit false

/-!
# Percent encoding

A string is written over a restricted alphabet: a character outside it becomes `%XX` for every
byte of its UTF-8 encoding.

## Main definitions

* `Paths.AsciiSet`, `Paths.nonAlphanumeric` — sets of ASCII characters to encode.
* `Paths.utf8PercentEncode` — the encoding.

## Main results

* `Paths.mem_utf8PercentEncode` — the alphabet of the output.
* `Paths.utf8PercentEncode_inj` — a text is told by its encoding.
-/

namespace Paths

/-- The ASCII characters an encoding replaces. -/
abbrev AsciiSet := Char → Bool

/-- All of ASCII but letters and digits. -/
def nonAlphanumeric : AsciiSet := fun c => c.val < 128 && !c.isAlphanum

/-- The set without one character. -/
def AsciiSet.remove (set : AsciiSet) (c : Char) : AsciiSet := fun c' => set c' && c' != c

/-- What is not ASCII is always replaced. -/
def AsciiSet.shouldPercentEncode (set : AsciiSet) (c : Char) : Bool :=
  c.val ≥ 128 || set c

/-- The upper-case hexadecimal digits. -/
def hexDigits : List Char :=
  ['0', '1', '2', '3', '4', '5', '6', '7', '8', '9', 'A', 'B', 'C', 'D', 'E', 'F']

/-- An upper-case hexadecimal digit. -/
def hexDigit (n : ℕ) : Char := hexDigits.getD n '0'

/-- One byte of an encoded character. -/
def percentEncodeByte (b : UInt8) : List Char :=
  ['%', hexDigit (b.toNat / 16), hexDigit (b.toNat % 16)]

/-- One character of the output: itself, or its bytes. -/
def percentEncodeChar (set : AsciiSet) (c : Char) : List Char :=
  if set.shouldPercentEncode c then (String.utf8EncodeChar c).flatMap percentEncodeByte else [c]

/-- Percent-encode the characters of a set and everything that is not ASCII. -/
def utf8PercentEncode (value : String) (set : AsciiSet) : String :=
  String.ofList (value.toList.flatMap (percentEncodeChar set))

lemma isAlphanum_hexDigit (n : ℕ) : (hexDigit n).isAlphanum := by
  have hall : ∀ c ∈ hexDigits, c.isAlphanum = true :=
    List.all_eq_true.mp (show hexDigits.all Char.isAlphanum = true by decide)
  by_cases h : n < hexDigits.length
  · rw [hexDigit, List.getD_eq_getElem _ _ h]
    exact hall _ (List.getElem_mem h)
  · rw [hexDigit, List.getD_eq_default _ _ (Nat.le_of_not_lt h)]
    decide

/-- **The alphabet of the output**: the percent sign, letters and digits, and what the set
leaves. -/
theorem mem_utf8PercentEncode {value : String} {set : AsciiSet} {c : Char}
    (h : c ∈ (utf8PercentEncode value set).toList) :
    c = '%' ∨ c.isAlphanum ∨ set.shouldPercentEncode c = false := by
  simp only [utf8PercentEncode, String.toList_ofList, List.mem_flatMap] at h
  obtain ⟨c', -, hc⟩ := h
  unfold percentEncodeChar at hc
  split at hc
  · simp only [List.mem_flatMap, percentEncodeByte, List.mem_cons, List.not_mem_nil,
      or_false] at hc
    obtain ⟨b, -, rfl | rfl | rfl⟩ := hc
    · exact .inl rfl
    · exact .inr (.inl (isAlphanum_hexDigit _))
    · exact .inr (.inl (isAlphanum_hexDigit _))
  · rename_i hset
    obtain rfl := List.mem_singleton.mp hc
    exact .inr (.inr (by simpa using hset))

/-- A character is never encoded to nothing. -/
lemma percentEncodeChar_ne_nil (set : AsciiSet) (c : Char) : percentEncodeChar set c ≠ [] := by
  unfold percentEncodeChar
  split
  · obtain ⟨b, bs, hb⟩ := List.exists_cons_of_ne_nil (String.utf8EncodeChar_ne_nil (c := c))
    simp [hb, percentEncodeByte]
  · simp

/-- Only the empty string is encoded to the empty string. -/
lemma utf8PercentEncode_ne_empty {value : String} {set : AsciiSet} (h : value ≠ "") :
    utf8PercentEncode value set ≠ "" := by
  have hne : value.toList ≠ [] := by simpa using h
  obtain ⟨c, cs, hc⟩ := List.exists_cons_of_ne_nil hne
  intro he
  have hl := congrArg String.toList he
  simp [utf8PercentEncode, hc, percentEncodeChar_ne_nil] at hl

/-! ## The text is found again -/

section Injective

open Encoding

variable {set : AsciiSet}

/-- What one byte of the text becomes. -/
def percentFrame (set : AsciiSet) (b : UInt8) : List Char :=
  if set.shouldPercentEncode (Char.ofNat b.toNat) then percentEncodeByte b
  else [Char.ofNat b.toNat]

lemma val_ofNat {n : ℕ} (h : n < 256) : (Char.ofNat n).val.toNat = n := by
  have hvalid : n.isValidChar := .inl (by omega)
  rw [Char.ofNat, dif_pos hvalid]
  rfl

/-- The bytes of a character that is not ASCII are not ASCII either. -/
lemma le_of_mem_utf8EncodeChar {c : Char} (h : 128 ≤ c.val.toNat) {b : UInt8}
    (hb : b ∈ String.utf8EncodeChar c) : 128 ≤ b.toNat := by
  rw [String.utf8EncodeChar, if_neg (by omega)] at hb
  split_ifs at hb
  · simp only [List.mem_cons, List.not_mem_nil, or_false] at hb
    obtain rfl | rfl := hb <;> rw [UInt8.toNat_ofNat'] <;> omega
  · simp only [List.mem_cons, List.not_mem_nil, or_false] at hb
    obtain rfl | rfl | rfl := hb <;> rw [UInt8.toNat_ofNat'] <;> omega
  · simp only [List.mem_cons, List.not_mem_nil, or_false] at hb
    obtain rfl | rfl | rfl | rfl := hb <;> rw [UInt8.toNat_ofNat'] <;> omega

lemma percentEncodeChar_eq (set : AsciiSet) (c : Char) :
    percentEncodeChar set c = (String.utf8EncodeChar c).flatMap (percentFrame set) := by
  by_cases hascii : c.val.toNat ≤ 127
  · have hbyte : (UInt8.ofNat c.val.toNat).toNat = c.toNat := by
      rw [UInt8.toNat_ofNat', Nat.mod_eq_of_lt (by omega)]
      rfl
    have hone : String.utf8EncodeChar c = [UInt8.ofNat c.val.toNat] := by
      rw [String.utf8EncodeChar]
      exact if_pos hascii
    rw [percentEncodeChar, hone, List.flatMap_singleton, List.flatMap_singleton, percentFrame,
      hbyte, Char.ofNat_toNat]
  · have hset : set.shouldPercentEncode c = true := by
      rw [AsciiSet.shouldPercentEncode, Bool.or_eq_true, decide_eq_true_eq]
      exact .inl (UInt32.le_iff_toNat_le.mpr (by simp only [UInt32.reduceToNat]; omega))
    rw [percentEncodeChar, if_pos hset]
    refine List.flatMap_congr fun b hb => ?_
    have hle := le_of_mem_utf8EncodeChar (by omega) hb
    rw [percentFrame, if_pos]
    rw [AsciiSet.shouldPercentEncode, Bool.or_eq_true, decide_eq_true_eq]
    refine .inl (UInt32.le_iff_toNat_le.mpr ?_)
    rw [val_ofNat b.toNat_lt]
    exact hle

lemma hexDigit_inj {m n : ℕ} (hm : m < 16) (hn : n < 16) (h : hexDigit m = hexDigit n) : m = n := by
  have hall : ∀ m < 16, ∀ n < 16, hexDigit m = hexDigit n → m = n := by decide
  exact hall m hm n hn h

/-- **What a byte becomes tells the byte**, when percent signs are encoded. -/
theorem tells_percentFrame (hset : set.shouldPercentEncode '%' = true) :
    Tells Set.univ (percentFrame set) id := by
  -- a byte that is kept does not look like the beginning of one that is encoded
  have hkept : ∀ b : UInt8, ¬ set.shouldPercentEncode (Char.ofNat b.toNat) = true →
      Char.ofNat b.toNat ≠ '%' := fun b hb h => hb (h ▸ hset)
  intro a _ b _ x y heq
  rw [percentFrame, percentFrame] at heq
  split_ifs at heq with ha hb hb
  · simp only [percentEncodeByte, List.cons_append, List.nil_append, List.cons.injEq,
      true_and] at heq
    obtain ⟨hhi, hlo, hrest⟩ := heq
    have halt := a.toNat_lt
    have hblt := b.toNat_lt
    have hdiv := hexDigit_inj (by omega) (by omega) hhi
    have hmod := hexDigit_inj (Nat.mod_lt _ (by decide)) (Nat.mod_lt _ (by decide)) hlo
    have hab : a.toNat = b.toNat := by omega
    exact ⟨UInt8.toNat_inj.mp hab, hrest⟩
  · exact absurd (List.cons.inj heq).1.symm (hkept b hb)
  · exact absurd (List.cons.inj heq).1 (hkept a ha)
  · obtain ⟨hchar, hrest⟩ := List.cons.inj heq
    have hval := congrArg (fun c : Char => c.val.toNat) hchar
    simp only [val_ofNat a.toNat_lt, val_ofNat b.toNat_lt] at hval
    exact ⟨UInt8.toNat_inj.mp hval, hrest⟩

lemma percentFrame_ne_nil (b : UInt8) : percentFrame set b ≠ [] := by
  rw [percentFrame]
  split_ifs
  · exact List.cons_ne_nil _ _
  · exact List.cons_ne_nil _ _

/-- **A text is told by its encoding.** -/
theorem utf8PercentEncode_inj (hset : set.shouldPercentEncode '%' = true) {s t : String}
    (h : utf8PercentEncode s set = utf8PercentEncode t set) : s = t := by
  have hbytes : ∀ s : String,
      (utf8PercentEncode s set).toList = (utf8 s).flatMap (percentFrame set) := by
    intro s
    rw [utf8PercentEncode, String.toList_ofList, utf8_eq, List.flatMap_assoc]
    exact List.flatMap_congr fun c _ => percentEncodeChar_eq set c
  have hlist := congrArg String.toList h
  rw [hbytes, hbytes] at hlist
  have hutf8 := (tells_percentFrame hset).eq_of_flatMap_eq (fun b _ => percentFrame_ne_nil b)
    (fun _ _ => trivial) (fun _ _ => trivial) hlist
  rw [List.map_id, List.map_id] at hutf8
  exact utf8_inj.mp hutf8

end Injective

end Paths
