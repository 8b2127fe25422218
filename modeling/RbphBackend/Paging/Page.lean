import Mathlib.Data.Int.Order.Basic
import Mathlib.Data.List.Sort
import Mathlib.Order.Nat

set_option relaxedAutoImplicit false
set_option autoImplicit false

/-!
# Reading a numbered log page by page

A reader of rows that are numbered keeps a position and reads, in the order of their numbers, the
first `n` rows after it; the position moves to the last row read.

## Main definitions

* `Paging.page` — the rows of a page.
* `Paging.next` — the position after it.

## Main results

* `Paging.mem_page_of_le_next` — a row is not passed unread.
* `Paging.next_lt_iff` — when the position stays before a number.
-/

namespace Paging

variable {α : Type} (n : ℕ) (number : α → ℕ) (position : ℤ) (rows : List α)

/-- The rows after a position, in order. -/
def beyond : List α :=
  (rows.filter fun r => decide (position < number r)).insertionSort fun a b => number a ≤ number b

/-- The first rows after a position. -/
def page : List α := (beyond number position rows).take n

/-- The position after a page. -/
def next : ℤ := (page n number position rows).getLast?.elim position fun r => number r

variable {n number position rows} {r : α}

lemma mem_beyond : r ∈ beyond number position rows ↔ r ∈ rows ∧ position < number r := by
  simp [beyond, List.mem_insertionSort]

lemma pairwise_beyond :
    (beyond number position rows).Pairwise fun a b => number a ≤ number b :=
  have : Std.Total fun a b : α => number a ≤ number b := ⟨fun _ _ => Nat.le_total _ _⟩
  have : IsTrans α fun a b => number a ≤ number b := ⟨fun _ _ _ => Nat.le_trans⟩
  List.pairwise_insertionSort _ _

lemma perm_beyond :
    (beyond number position rows).Perm (rows.filter fun r => decide (position < number r)) :=
  List.perm_insertionSort _ _

lemma mem_page (h : r ∈ page n number position rows) : r ∈ rows ∧ position < number r :=
  mem_beyond.1 (List.mem_of_mem_take h)

/-- The position after a page is that of its last row. -/
lemma next_eq (h : (page n number position rows).getLast? = some r) :
    next n number position rows = number r := by
  rw [next, h]
  rfl

lemma next_of_nil (h : page n number position rows = []) :
    next n number position rows = position := by
  rw [next, h]
  rfl

/-- A page that is not empty moves the position. -/
lemma lt_next_of_ne_nil (h : page n number position rows ≠ []) :
    position < next n number position rows := by
  have hlast := List.getLast?_eq_some_getLast h
  rw [next_eq hlast]
  exact (mem_page (List.getLast_mem h)).2

lemma le_next : position ≤ next n number position rows := by
  by_cases h : page n number position rows = []
  · rw [next_of_nil h]
  · exact (lt_next_of_ne_nil h).le

/-- The rows of a page are not beyond the position after it. -/
lemma number_le_next (h : r ∈ page n number position rows) :
    (number r : ℤ) ≤ next n number position rows := by
  have hne : page n number position rows ≠ [] := List.ne_nil_of_mem h
  rw [next_eq (List.getLast?_eq_some_getLast hne)]
  have hsorted : (page n number position rows).Pairwise fun a b => number a ≤ number b :=
    pairwise_beyond.sublist (List.take_sublist _ _)
  rw [← List.dropLast_append_getLast hne, List.pairwise_append] at hsorted
  rw [← List.dropLast_append_getLast hne, List.mem_append, List.mem_singleton] at h
  rcases h with h | h
  · exact_mod_cast hsorted.2.2 r h _ (List.mem_singleton_self _)
  · rw [← h]

/-- The rows beyond a page come after all of its rows. -/
lemma mem_page_or_drop (h : r ∈ rows) (hr : position < number r) :
    r ∈ page n number position rows ∨ r ∈ (beyond number position rows).drop n := by
  have hmem : r ∈ beyond number position rows := mem_beyond.2 ⟨h, hr⟩
  rwa [← List.take_append_drop n (beyond number position rows), List.mem_append] at hmem

/-- A row that a page leaves out is not before the position after it, and the page is full. -/
lemma of_mem_drop (h : r ∈ (beyond number position rows).drop n) :
    next n number position rows ≤ max position (number r) ∧
      (page n number position rows).length = n := by
  constructor
  · by_cases hne : page n number position rows = []
    · rw [next_of_nil hne]
      exact le_max_left _ _
    · rw [next_eq (List.getLast?_eq_some_getLast hne)]
      have hsorted : (beyond number position rows).Pairwise fun a b => number a ≤ number b :=
        pairwise_beyond
      rw [← List.take_append_drop n (beyond number position rows), List.pairwise_append] at hsorted
      exact (Int.ofNat_le.2 (hsorted.2.2 _ (List.getLast_mem hne) r h)).trans (le_max_right _ _)
  · have hpos := List.length_pos_of_mem h
    rw [List.length_drop] at hpos
    rw [page, List.length_take]
    omega

/-- **A row is not passed unread**: where numbers are unique, a row after the old position and not
after the new one is in the page. -/
theorem mem_page_of_le_next (hinj : ∀ a ∈ rows, ∀ b ∈ rows, number a = number b → a = b)
    (h : r ∈ rows) (hr : position < number r)
    (hle : (number r : ℤ) ≤ next n number position rows) : r ∈ page n number position rows := by
  rcases mem_page_or_drop (n := n) h hr with hpage | hdrop
  · exact hpage
  · by_cases hne : page n number position rows = []
    · rw [next_of_nil hne] at hle
      omega
    · rw [next_eq (List.getLast?_eq_some_getLast hne)] at hle
      have hlast := List.getLast_mem hne
      have hge := (of_mem_drop hdrop).1
      rw [next_eq (List.getLast?_eq_some_getLast hne)] at hge
      have heq := hinj _ h _ (mem_page hlast).1 (by omega)
      rw [heq]
      exact hlast

/-- A row ahead moves the position. -/
lemma lt_next (hn : 0 < n) (h : r ∈ rows) (hr : position < number r) :
    position < next n number position rows := by
  apply lt_next_of_ne_nil
  rcases mem_page_or_drop (n := n) h hr with hpage | hdrop
  · exact List.ne_nil_of_mem hpage
  · have hlen := (of_mem_drop hdrop).2
    intro hnil
    rw [hnil] at hlen
    exact hn.ne hlen

/-- In an ordered list the rows before a number come first. -/
lemma filter_append_filter {l : List α} {d : ℕ}
    (h : l.Pairwise fun a b => number a ≤ number b) :
    l.filter (fun r => decide (number r < d)) ++ l.filter (fun r => !decide (number r < d)) = l := by
  induction l with
  | nil => rfl
  | cons a l ih =>
    rw [List.pairwise_cons] at h
    by_cases ha : number a < d
    · simpa [ha] using ih h.2
    · have hall : ∀ b ∈ l, ¬ number b < d := by
        intro b hb
        have := h.1 b hb
        omega
      have hnone : l.filter (fun r => decide (number r < d)) = [] := by simpa using hall
      have hself : l.filter (fun r => !decide (number r < d)) = l := by
        apply List.filter_eq_self.2
        intro b hb
        simp [hall b hb]
      rw [List.filter_cons_of_neg (by simpa using ha), hnone, List.nil_append,
        List.filter_cons_of_pos (by simpa using ha), hself]

/-- **When the position stays before a number**: all rows are before that number, or the page is
full before it. -/
theorem next_lt_iff {d : ℕ} :
    next n number position rows < d ↔
      position < d ∧ ((∀ r ∈ rows, number r < d) ∨
        n ≤ (rows.filter fun r => decide (position < number r ∧ number r < d)).length) := by
  have hcount : (rows.filter fun r => decide (position < number r ∧ number r < d)).length =
      ((beyond number position rows).filter fun r => decide (number r < d)).length := by
    rw [(perm_beyond.filter _).length_eq, List.filter_filter]
    congr 2
    funext r
    by_cases h₁ : position < number r <;> by_cases h₂ : number r < d <;> simp [h₁, h₂]
  rw [hcount]
  constructor
  · intro hlt
    refine ⟨lt_of_le_of_lt le_next hlt, ?_⟩
    by_cases hall : ∀ r ∈ rows, number r < d
    · exact Or.inl hall
    · right
      push Not at hall
      obtain ⟨r, hr, hdr⟩ := hall
      have hpos : position < number r := by
        have := lt_of_le_of_lt le_next hlt
        omega
      -- the row beyond the number is left out, so the page is full of rows before it
      have hdrop : r ∈ (beyond number position rows).drop n := by
        rcases mem_page_or_drop (n := n) hr hpos with hpage | hdrop
        · have := number_le_next hpage
          omega
        · exact hdrop
      have hbefore : (page n number position rows).filter (fun r => decide (number r < d)) =
          page n number position rows := by
        apply List.filter_eq_self.2
        intro q hq
        have := number_le_next hq
        simp only [decide_eq_true_eq]
        omega
      calc n = (page n number position rows).length := (of_mem_drop hdrop).2.symm
        _ = ((page n number position rows).filter fun r => decide (number r < d)).length := by
          rw [hbefore]
        _ ≤ ((beyond number position rows).filter fun r => decide (number r < d)).length :=
          ((List.take_sublist _ _).filter _).length_le
  · rintro ⟨hpos, hall | hfull⟩
    · by_cases hne : page n number position rows = []
      · rwa [next_of_nil hne]
      · rw [next_eq (List.getLast?_eq_some_getLast hne)]
        exact_mod_cast hall _ (mem_page (List.getLast_mem hne)).1
    · by_cases hne : page n number position rows = []
      · rwa [next_of_nil hne]
      · rw [next_eq (List.getLast?_eq_some_getLast hne)]
        have hlast := List.getLast_mem hne
        have hpage : page n number position rows =
            ((beyond number position rows).filter fun r => decide (number r < d)).take n := by
          rw [page]
          conv_lhs => rw [← filter_append_filter (d := d) pairwise_beyond]
          exact List.take_append_of_le_length hfull
        generalize List.getLast _ hne = q at hlast ⊢
        rw [hpage] at hlast
        have hq := List.mem_of_mem_take hlast
        rw [List.mem_filter] at hq
        exact_mod_cast of_decide_eq_true hq.2

end Paging
