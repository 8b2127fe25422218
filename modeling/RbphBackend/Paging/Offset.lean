import Mathlib.Data.List.Basic

set_option relaxedAutoImplicit false
set_option autoImplicit false

/-!
# Reading by offset

A page has the items from an offset on, and the offset of the next page is a page further. Between
the pages items may be put in anywhere.

## Main definitions

* `Paging.Offset.page` — the items of a page.
* `Paging.Offset.Walk` — the pages that a reader gets, with the list that each of them is taken of.

## Main results

* `Paging.Offset.flatMap_range_page_of_length_le` — the pages of a list that does not change.
* `Paging.Offset.Walk.mem_flatten` — what is there from the start is read, though it may be twice.
* `Paging.Offset.Walk.flatten_eq` — a list that does not change is read as it is.
-/

namespace Paging.Offset

variable {α : Type} (n : ℕ)

/-- The items of a page. -/
def page (items : List α) (offset : ℕ) : List α := (items.drop offset).take n

/-- The pages that a reader gets, and the list that is there at each, until a page is the last one
of its list. -/
inductive Walk : ℕ → List (List α) → List (List α) → Prop
  | last {offset : ℕ} {items : List α} : items.length ≤ offset + n →
      Walk offset [items] [page n items offset]
  | more {offset : ℕ} {items : List α} {found pages : List (List α)} :
      Walk (offset + n) found pages → Walk offset (items :: found) (page n items offset :: pages)

variable {n} {items : List α} {offset : ℕ} {found pages : List (List α)}

/-- The last page has the rest of the list. -/
lemma page_of_length_le (h : items.length ≤ offset + n) :
    page n items offset = items.drop offset := by
  refine List.take_of_length_le ?_
  rw [List.length_drop]
  omega

/-- Some pages one after the other. -/
lemma flatMap_range_page (k : ℕ) :
    ((List.range k).flatMap fun i => page n items (i * n)) = items.take (k * n) := by
  induction k with
  | zero => simp
  | succ k ih =>
    rw [List.range_succ, List.flatMap_append, ih, List.flatMap_cons, List.flatMap_nil,
      List.append_nil, page, Nat.succ_mul, List.take_add]

/-- **The pages of a list** that does not change, as many as it takes. -/
theorem flatMap_range_page_of_length_le {k : ℕ} (hk : items.length ≤ k * n) :
    ((List.range k).flatMap fun i => page n items (i * n)) = items := by
  rw [flatMap_range_page, List.take_of_length_le hk]

/-- **What is there from the start is read**, where items are put in only and what is read of an
item is what it is told by. -/
theorem Walk.mem_flatten {κ : Type} {key : α → κ} (h : Walk n offset found pages)
    (hgrows : found.Pairwise fun l l' => (l.map key).Sublist (l'.map key)) {k : κ}
    (hk : ∀ l, found.head? = some l → k ∈ (l.map key).drop offset) :
    k ∈ pages.flatten.map key := by
  induction h with
  | last hlast =>
    have hmem := hk _ rfl
    rw [← List.map_drop, ← page_of_length_le hlast] at hmem
    rwa [List.flatten_cons, List.flatten_nil, List.append_nil]
  | @more offset items found pages _ ih =>
    rw [List.pairwise_cons] at hgrows
    have hmem := hk items rfl
    rw [← List.take_append_drop n ((items.map key).drop offset), List.mem_append,
      List.drop_drop] at hmem
    rw [List.flatten_cons, List.map_append, List.mem_append]
    rcases hmem with hmem | hmem
    · exact .inl (by rwa [page, List.map_take, List.map_drop])
    · exact .inr (ih hgrows.2 fun l hl =>
        ((hgrows.1 l (List.mem_of_mem_head? hl)).drop _).subset hmem)

/-- **Where the list does not change** it is read from the offset on. -/
theorem Walk.flatten_eq (h : Walk n offset found pages) (hsame : ∀ l ∈ found, l = items) :
    pages.flatten = items.drop offset := by
  induction h with
  | last hlast =>
    obtain rfl := hsame _ (List.mem_singleton_self _)
    rw [List.flatten_cons, List.flatten_nil, List.append_nil, page_of_length_le hlast]
  | @more offset l found pages _ ih =>
    obtain rfl := hsame l List.mem_cons_self
    rw [List.flatten_cons, ih fun l' hl' => hsame l' (List.mem_cons_of_mem _ hl'), page,
      ← List.drop_drop, List.take_append_drop]

end Paging.Offset
