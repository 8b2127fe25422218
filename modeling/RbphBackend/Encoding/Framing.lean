import Mathlib.Data.Set.Defs
import Mathlib.Data.List.Basic
import Mathlib.Tactic.Basic

set_option relaxedAutoImplicit false
set_option autoImplicit false

/-!
# Frames

Values are written one after another. What has been written can be told apart again when the end of
each frame can be found from its beginning: its length is fixed, or given before it, or it ends at
the first mark.

## Main definitions

* `Encoding.Tells` — a frame tells something about the value it was written for, and where it ends.
* `Encoding.utf8` — the bytes of a text.

## Main results

* `Encoding.Tells.append` — a frame followed by another one.
* `Encoding.Tells.eq_of_flatMap_eq` — frames written one after another.
* `Encoding.utf8_inj` — a text is told by its bytes.
-/

namespace Encoding

universe u v w x

variable {α : Type u} {β : Type v} {κ : Type w} {μ : Type x}

/-! ## Frames -/

/-- The frame of a value of `s` tells `key` of it, and where it ends, whatever comes next. -/
def Tells (s : Set α) (frame : α → List β) (key : α → κ) : Prop :=
  ∀ ⦃a⦄, a ∈ s → ∀ ⦃b⦄, b ∈ s → ∀ x y, frame a ++ x = frame b ++ y → key a = key b ∧ x = y

section Tells

variable {s : Set α} {frame frame' : α → List β} {key : α → κ} {key' : α → μ}

lemma Tells.mono {t : Set α} (h : Tells s frame key) (hts : ∀ a ∈ t, a ∈ s) : Tells t frame key :=
  fun a ha b hb => h (hts a ha) (hts b hb)

lemma Tells.comp {f : κ → μ} (h : Tells s frame key) : Tells s frame (f ∘ key) := by
  intro a ha b hb x y heq
  obtain ⟨hkey, hrest⟩ := h ha hb x y heq
  exact ⟨congrArg f hkey, hrest⟩

/-- Frames of one length end where they are that long. -/
lemma tells_of_length {n : ℕ} (hlength : ∀ a ∈ s, (frame a).length = n)
    (hkey : ∀ a ∈ s, ∀ b ∈ s, frame a = frame b → key a = key b) : Tells s frame key := by
  intro a ha b hb x y heq
  have hlen : (frame a).length = (frame b).length := by rw [hlength a ha, hlength b hb]
  obtain ⟨hframe, hrest⟩ := List.append_inj heq hlen
  exact ⟨hkey a ha b hb hframe, hrest⟩

/-- A frame that ends with a mark which does not occur in it. -/
lemma tells_concat {mark : β} (hmark : ∀ a ∈ s, mark ∉ frame a) :
    Tells s (fun a => frame a ++ [mark]) frame := by
  have hend : ∀ p q x y : List β, mark ∉ p → mark ∉ q → p ++ mark :: x = q ++ mark :: y →
      p = q ∧ x = y := by
    intro p
    induction p with
    | nil =>
      intro q x y _ hq heq
      cases q with
      | nil => exact ⟨rfl, (List.cons.inj heq).2⟩
      | cons c q => exact absurd (List.cons.inj heq).1 fun h => hq (h ▸ List.mem_cons_self)
    | cons c p ih =>
      intro q x y hp hq heq
      cases q with
      | nil => exact absurd (List.cons.inj heq).1.symm fun h => hp (h ▸ List.mem_cons_self)
      | cons d q =>
        obtain ⟨hhead, htail⟩ := List.cons.inj heq
        obtain ⟨hpq, hxy⟩ := ih q x y (fun h => hp (List.mem_cons_of_mem c h))
          (fun h => hq (List.mem_cons_of_mem d h)) htail
        exact ⟨by rw [hhead, hpq], hxy⟩
  intro a ha b hb x y heq
  rw [List.append_assoc, List.append_assoc] at heq
  exact hend _ _ _ _ (hmark a ha) (hmark b hb) heq

/-- **A frame followed by another one.** The second may be read with what the first has told. -/
theorem Tells.append (hframe : Tells s frame key)
    (hnext : ∀ c, Tells {a | a ∈ s ∧ key a = c} frame' key') :
    Tells s (fun a => frame a ++ frame' a) fun a => (key a, key' a) := by
  intro a ha b hb x y heq
  rw [List.append_assoc, List.append_assoc] at heq
  obtain ⟨hkey, hrest⟩ := hframe ha hb _ _ heq
  obtain ⟨hkey', hxy⟩ := hnext (key b) ⟨ha, hkey⟩ ⟨hb, rfl⟩ x y hrest
  exact ⟨Prod.ext hkey hkey', hxy⟩

/-- Frames that do not depend on each other. -/
lemma Tells.append_of_tells (hframe : Tells s frame key) (hframe' : Tells s frame' key') :
    Tells s (fun a => frame a ++ frame' a) fun a => (key a, key' a) :=
  hframe.append fun _ => hframe'.mono fun _ h => h.1

/-- **Frames written one after another** tell what each one tells. -/
theorem Tells.eq_of_flatMap_eq (h : Tells s frame key) (hne : ∀ a ∈ s, frame a ≠ [])
    {as bs : List α} (has : ∀ a ∈ as, a ∈ s) (hbs : ∀ b ∈ bs, b ∈ s)
    (heq : as.flatMap frame = bs.flatMap frame) : as.map key = bs.map key := by
  induction as generalizing bs with
  | nil =>
    cases bs with
    | nil => rfl
    | cons b bs =>
      rw [List.flatMap_nil, List.flatMap_cons] at heq
      exact absurd (List.append_eq_nil_iff.mp heq.symm).1 (hne b (hbs b List.mem_cons_self))
  | cons a as ih =>
    cases bs with
    | nil =>
      rw [List.flatMap_nil, List.flatMap_cons] at heq
      exact absurd (List.append_eq_nil_iff.mp heq).1 (hne a (has a List.mem_cons_self))
    | cons b bs =>
      rw [List.flatMap_cons, List.flatMap_cons] at heq
      obtain ⟨hkey, hrest⟩ :=
        h (has a List.mem_cons_self) (hbs b List.mem_cons_self) _ _ heq
      have htail := ih (fun a ha => has a (List.mem_cons_of_mem _ ha))
        (fun b hb => hbs b (List.mem_cons_of_mem _ hb)) hrest
      rw [List.map_cons, List.map_cons, hkey, htail]

end Tells

/-! ## The bytes of a text -/

section Utf8

/-- The bytes of a text. -/
def utf8 (text : String) : List UInt8 := text.toUTF8.toList

lemma toList_loop (bytes : ByteArray) (i : ℕ) (read : List UInt8) :
    ByteArray.toList.loop bytes i read = read.reverse ++ bytes.data.toList.drop i := by
  induction i, read using ByteArray.toList.loop.induct bytes with
  | case1 i read hi ih =>
    have hlength : i < bytes.data.toList.length := by simpa using hi
    have hget : bytes.get! i = bytes.data.toList[i] := by
      simp [ByteArray.get!, getElem!_pos, hi]
    rw [ByteArray.toList.loop, if_pos hi, ih, List.reverse_cons, List.append_assoc,
      List.singleton_append, hget, ← List.drop_eq_getElem_cons]
  | case2 i read hi =>
    have hdrop : bytes.data.toList.drop i = [] :=
      List.drop_eq_nil_of_le (by simpa using Nat.le_of_not_lt hi)
    rw [ByteArray.toList.loop, if_neg hi, hdrop, List.append_nil]

lemma utf8_eq (text : String) : utf8 text = text.toList.flatMap String.utf8EncodeChar := by
  rw [utf8, ByteArray.toList, toList_loop, List.reverse_nil, List.nil_append, List.drop_zero]
  conv_lhs => rw [← String.ofList_toList (s := text)]
  rw [String.toUTF8, String.toByteArray_ofList, List.utf8Encode, List.toList_data_toByteArray]

lemma length_utf8 (text : String) : (utf8 text).length = text.utf8ByteSize := by
  rw [utf8, ByteArray.toList, toList_loop, List.reverse_nil, List.nil_append, List.drop_zero]
  rfl

/-- **A text is told by its bytes.** -/
theorem utf8_inj {s t : String} : utf8 s = utf8 t ↔ s = t := by
  refine ⟨fun h => ?_, fun h => by rw [h]⟩
  rw [utf8, utf8, ByteArray.toList, ByteArray.toList, toList_loop, toList_loop] at h
  simp only [List.reverse_nil, List.nil_append, List.drop_zero] at h
  exact String.toByteArray_inj.mp (ByteArray.ext (Array.toList_inj.mp h))

end Utf8

end Encoding
