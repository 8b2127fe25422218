import Mathlib.Data.List.Basic
import Mathlib.Order.Defs.Unbundled

set_option relaxedAutoImplicit false
set_option autoImplicit false

/-!
# Following a cursor

A list is in the strict order of the keys of its items. A page has the first items whose keys come
after a cursor; the cursor of the next page is the key of the last item. The reader who begins
without a cursor and does not stop at a full page has read the list.

## Main definitions

* `Paging.Keyset.after`, `Paging.Keyset.pageAfter` — the items after a cursor, and the first of
  them.
* `Paging.Keyset.Serves` — reading gives these pages.
* `Paging.Keyset.Walk` — the pages that a reader gets.

## Main results

* `Paging.Keyset.exists_walk` — a reader comes to an end.
* `Paging.Keyset.Walk.flatten_eq` — the reader has got every item once, in order.
-/

namespace Paging.Keyset

variable {α κ : Type} (lt : κ → κ → Prop) [DecidableRel lt] (key : α → κ)

/-- The items after a cursor. -/
def after (items : List α) (cursor : Option κ) : List α :=
  items.filter fun item => cursor.all fun c => decide (lt c (key item))

/-- The first items after a cursor. -/
def pageAfter (n : ℕ) (items : List α) (cursor : Option κ) : List α :=
  (after lt key items cursor).take n

/-- Whoever reads with a cursor that an item has gets the page after it. -/
def Serves (n : ℕ) (items : List α) (read : Option κ → List α → Prop) : Prop :=
  ∀ cursor, (∀ k, cursor = some k → ∃ item ∈ items, key item = k) → ∀ page,
    read cursor page ↔ page = pageAfter lt key n items cursor

/-- The pages that a reader gets: it asks for the next one with the key of the last item, until a
page is one to stop at. -/
inductive Walk (stop : List α → Prop) (read : Option κ → List α → Prop) :
    Option κ → List (List α) → Prop
  | last {cursor : Option κ} {page : List α} : read cursor page → stop page →
      Walk stop read cursor [page]
  | more {cursor : Option κ} {page : List α} {item : α} {pages : List (List α)} :
      read cursor page → ¬ stop page → page.getLast? = some item →
      Walk stop read (some (key item)) pages → Walk stop read cursor (page :: pages)

variable {lt key} {n : ℕ} {items : List α} {cursor : Option κ} {pages : List (List α)}
  {stop : List α → Prop} {read : Option κ → List α → Prop}

@[simp] lemma after_none : after lt key items none = items := by
  simp [after]

lemma pairwise_after (h : items.Pairwise fun a b => lt (key a) (key b)) (cursor : Option κ) :
    (after lt key items cursor).Pairwise fun a b => lt (key a) (key b) :=
  h.sublist List.filter_sublist

/-- The items after the last one of a page are those that the page has left. -/
lemma after_getLast [IsStrictOrder κ lt] (h : items.Pairwise fun a b => lt (key a) (key b))
    {item : α} (hitem : (pageAfter lt key n items cursor).getLast? = some item) :
    after lt key items (some (key item)) = (after lt key items cursor).drop n := by
  have hne : pageAfter lt key n items cursor ≠ [] := by
    intro hnil
    rw [hnil] at hitem
    cases hitem
  have hlast : (pageAfter lt key n items cursor).getLast hne = item := by
    rw [List.getLast?_eq_some_getLast hne] at hitem
    exact Option.some.inj hitem
  have hmem : item ∈ after lt key items cursor :=
    List.mem_of_mem_take (hlast ▸ List.getLast_mem hne)
  -- what comes after the item comes after the cursor
  have hwithin : after lt key items (some (key item)) =
      (after lt key items cursor).filter fun b => decide (lt (key item) (key b)) := by
    rw [after, after, List.filter_filter]
    refine List.filter_congr fun b _ => ?_
    cases cursor with
    | none => simp
    | some c =>
      have hc : lt c (key item) := by simpa [after] using (List.mem_filter.mp hmem).2
      by_cases hb : lt (key item) (key b)
      · simp [hb, IsTrans.trans _ _ _ hc hb]
      · simp [hb]
  have hsorted := pairwise_after h cursor
  rw [← List.take_append_drop n (after lt key items cursor), List.pairwise_append] at hsorted
  obtain ⟨hpage, -, hacross⟩ := hsorted
  have htake : ((after lt key items cursor).take n).filter
      (fun b => decide (lt (key item) (key b))) = [] := by
    refine List.filter_eq_nil_iff.mpr fun b hb hlt => ?_
    have hlt := of_decide_eq_true hlt
    change b ∈ pageAfter lt key n items cursor at hb
    change (pageAfter lt key n items cursor).Pairwise fun a b => lt (key a) (key b) at hpage
    rw [← List.dropLast_append_getLast hne, List.pairwise_append] at hpage
    rw [← List.dropLast_append_getLast hne, List.mem_append, List.mem_singleton, hlast] at hb
    obtain hb | rfl := hb
    · have hle := hpage.2.2 b hb _ (List.mem_singleton_self _)
      rw [hlast] at hle
      exact irrefl _ (IsTrans.trans _ _ _ hle hlt)
    · exact irrefl _ hlt
  have hdrop : ((after lt key items cursor).drop n).filter
      (fun b => decide (lt (key item) (key b))) = (after lt key items cursor).drop n := by
    refine List.filter_eq_self.mpr fun b hb => decide_eq_true ?_
    exact hacross item (hlast ▸ List.getLast_mem hne) b hb
  rw [hwithin]
  conv_lhs => rw [← List.take_append_drop n (after lt key items cursor)]
  rw [List.filter_append, htake, hdrop, List.nil_append]

/-- The cursor that a page gives is that of an item. -/
lemma mem_of_getLast? {item : α} (hitem : (pageAfter lt key n items cursor).getLast? = some item) :
    item ∈ items :=
  List.mem_of_mem_filter (List.mem_of_mem_take (List.mem_of_getLast? hitem))

section Reader

variable [IsStrictOrder κ lt] (h : items.Pairwise fun a b => lt (key a) (key b))
  (hread : Serves lt key n items read) (hfull : ∀ page, stop page → page.length < n)

include h hread

/-- **A reader comes to an end** that stops at an empty page at the latest. -/
theorem exists_walk (hn : 0 < n) (hnil : stop [])
    (hcursor : ∀ k, cursor = some k → ∃ item ∈ items, key item = k) :
    ∃ pages, Walk key stop read cursor pages := by
  induction hlen : (after lt key items cursor).length using Nat.strongRecOn
    generalizing cursor with
  | ind len ih =>
    have hpage : read cursor (pageAfter lt key n items cursor) :=
      (hread cursor hcursor _).mpr rfl
    by_cases hstop : stop (pageAfter lt key n items cursor)
    · exact ⟨_, .last hpage hstop⟩
    · have hne : pageAfter lt key n items cursor ≠ [] := by
        intro hempty
        rw [hempty] at hstop
        exact hstop hnil
      have hlast := List.getLast?_eq_some_getLast hne
      have hpos : 0 < len := by
        have hlength := List.length_pos_of_ne_nil hne
        rw [pageAfter, List.length_take] at hlength
        omega
      obtain ⟨pages, hpages⟩ := ih (len - n) (by omega)
        (fun k hk => ⟨_, mem_of_getLast? hlast, Option.some.inj hk⟩)
        (by rw [after_getLast h hlast, List.length_drop, hlen])
      exact ⟨_, .more hpage hstop hlast hpages⟩

include hfull

/-- **The reader has got every item once**, in order. -/
theorem Walk.flatten_eq (hcursor : ∀ k, cursor = some k → ∃ item ∈ items, key item = k)
    (hwalk : Walk key stop read cursor pages) : pages.flatten = after lt key items cursor := by
  induction hwalk with
  | @last cursor page hpage hstop =>
    rw [hread cursor hcursor] at hpage
    subst hpage
    rw [List.flatten_cons, List.flatten_nil, List.append_nil]
    refine List.take_of_length_le ?_
    have hshort := hfull _ hstop
    rw [pageAfter, List.length_take] at hshort
    omega
  | @more cursor page item pages hpage _ hitem _ ih =>
    rw [hread cursor hcursor] at hpage
    subst hpage
    rw [List.flatten_cons, ih fun k hk => ⟨item, mem_of_getLast? hitem, Option.some.inj hk⟩,
      after_getLast h hitem]
    exact List.take_append_drop n _

end Reader

end Paging.Keyset
