import Mathlib.Algebra.BigOperators.Group.List.Basic
import Mathlib.Algebra.Ring.Nat
import Mathlib.Data.List.AList
import Mathlib.Data.List.Dedup

set_option relaxedAutoImplicit false
set_option autoImplicit false

/-!
# Maps with a queue of their keys

A cache keeps a map and, beside it, a queue of the keys of the map in the order in which they are to
be dropped. The two are changed one after the other. Here are the changes that keep them in step,
and the total weight of the values of a map.

## Main definitions

* `Caching.Lists` — a queue lists the keys of a map, each once.
* `Caching.weight` — the total weight of the values.

## Main results

* `Caching.Lists.insert`, `Caching.Lists.tail`, `Caching.Lists.erase`, `Caching.Lists.touch` — a key
  is added, dropped from the front, removed, or moved to the back.
* `Caching.sublist_dedup_touch` — the queue stays in the order of last uses.
* `Caching.weight_insert`, `Caching.weight_erase` — the weight after a change.
-/

namespace Caching

universe u v

variable {κ : Type u} {β : Type v} [DecidableEq κ]

/-- The queue lists the keys of the map, each once. -/
structure Lists (order : List κ) (m : AList fun _ : κ => β) : Prop where
  nodup : order.Nodup
  mem : ∀ k, k ∈ order ↔ k ∈ m

namespace Lists

variable {order rest : List κ} {m : AList fun _ : κ => β} {k : κ} {b : β}

omit [DecidableEq κ] in
lemma nil : Lists [] (∅ : AList fun _ : κ => β) where
  nodup := List.nodup_nil
  mem k := by simp

omit [DecidableEq κ] in
lemma perm (h : Lists order m) : order.Perm m.keys :=
  (List.perm_ext_iff_of_nodup h.nodup m.nodupKeys).mpr fun k => h.mem k

omit [DecidableEq κ] in
lemma length_eq (h : Lists order m) : order.length = m.keys.length := h.perm.length_eq

/-- A new key comes to the back. -/
lemma insert (h : Lists order m) (hk : k ∉ m) : Lists (order ++ [k]) (m.insert k b) where
  nodup := by
    refine h.nodup.append (List.nodup_singleton k) ?_
    rw [List.disjoint_singleton, h.mem]
    exact hk
  mem j := by rw [List.mem_append, List.mem_singleton, AList.mem_insert, h.mem, or_comm]

/-- The key at the front is dropped. -/
lemma tail (h : Lists (k :: rest) m) : Lists rest (m.erase k) where
  nodup := h.nodup.of_cons
  mem j := by
    have hk := (List.nodup_cons.mp h.nodup).1
    rw [AList.mem_erase, ← h.mem, List.mem_cons]
    refine ⟨fun hj => ⟨fun heq => hk (heq ▸ hj), .inr hj⟩, ?_⟩
    rintro ⟨hne, heq | hj⟩
    · exact absurd heq hne
    · exact hj

/-- A key is removed wherever it is. -/
lemma erase (h : Lists order m) : Lists (order.filter (· ≠ k)) (m.erase k) where
  nodup := h.nodup.filter _
  mem j := by
    rw [List.mem_filter, decide_eq_true_eq, h.mem, AList.mem_erase, and_comm]

/-- A key is moved to the back, with a new value. -/
lemma touch (h : Lists order m) : Lists (order.filter (· ≠ k) ++ [k]) (m.insert k b) where
  nodup := by
    refine (h.nodup.filter _).append (List.nodup_singleton k) ?_
    rw [List.disjoint_singleton, List.mem_filter]
    simp
  mem j := by
    rw [List.mem_append, List.mem_filter, decide_eq_true_eq, List.mem_singleton, AList.mem_insert,
      h.mem]
    by_cases hj : j = k <;> simp [hj]

end Lists

/-! ## The order of last uses -/

/-- In a list of uses, the oldest first, `List.dedup` keeps the last use of each key; one more use
moves its key to the back. -/
lemma dedup_concat (uses : List κ) (k : κ) :
    (uses ++ [k]).dedup = uses.dedup.filter (· ≠ k) ++ [k] := by
  induction uses with
  | nil => simp
  | cons a uses ih =>
    rw [List.cons_append, List.dedup_cons, List.dedup_cons, ih]
    by_cases hak : a = k
    · subst hak
      by_cases ha : a ∈ uses <;> simp [ha]
    · by_cases ha : a ∈ uses <;> simp [ha, hak]

/-- Moving a key to the back keeps the order of last uses. -/
lemma sublist_dedup_touch {order uses : List κ} (h : order.Sublist uses.dedup) (k : κ) :
    (order.filter (· ≠ k) ++ [k]).Sublist (uses ++ [k]).dedup := by
  rw [dedup_concat]
  exact (h.filter _).append_right [k]

/-! ## Weights -/

section Weight

variable (w : β → ℕ) {m : AList fun _ : κ => β} {k : κ} {b : β}

/-- The total weight of the values. -/
def weight (m : AList fun _ : κ => β) : ℕ := (m.entries.map fun e => w e.2).sum

omit [DecidableEq κ] in
@[simp] lemma weight_empty : weight w (∅ : AList fun _ : κ => β) = 0 := rfl

/-- The value that comes in, and those of the other keys. -/
lemma weight_insert (m : AList fun _ : κ => β) (k : κ) (b : β) :
    weight w (m.insert k b) = w b + weight w (m.erase k) := by
  rw [weight, AList.entries_insert, List.map_cons, List.sum_cons]
  rfl

lemma weight_erase_of_notMem (hk : k ∉ m) : weight w (m.erase k) = weight w m := by
  have herase : List.kerase k m.entries = m.entries := List.kerase_of_notMem_keys hk
  show ((List.kerase k m.entries).map fun e => w e.2).sum = _
  rw [herase, weight]

/-- The value that goes, and those of the other keys. -/
lemma weight_erase (hk : m.lookup k = some b) : weight w m = w b + weight w (m.erase k) := by
  have hmem : k ∈ m.entries.keys := AList.lookup_isSome.mp (by rw [hk]; rfl)
  obtain ⟨b', front, back, hfront, hentries, herase⟩ := List.exists_of_kerase hmem
  have hb : b' = b := by
    have hin : Sigma.mk k b' ∈ m.entries := by simp [hentries]
    have hlookup := AList.mem_lookup_iff.mpr hin
    rw [hk, Option.mem_def, Option.some.injEq] at hlookup
    exact hlookup.symm
  show _ = w b + ((List.kerase k m.entries).map fun e => w e.2).sum
  rw [weight, herase, hentries, hb]
  simp only [List.map_append, List.map_cons, List.sum_append, List.sum_cons]
  omega

end Weight

end Caching
