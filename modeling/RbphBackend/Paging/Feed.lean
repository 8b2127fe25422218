import Mathlib.Data.List.Sort
import Mathlib.Order.Nat

set_option relaxedAutoImplicit false
set_option autoImplicit false

/-!
# Following a feed that grows

Rows are numbered, and a page has the last of those before a number, the latest first. The next page
is of the rows before the last one of the page. Between the pages rows may come and go.

## Main definitions

* `Paging.Feed.preceding`, `Paging.Feed.page` — the rows before a number, and the last of them.
* `Paging.Feed.Walk` — the pages that a reader gets, with the rows that each of them is taken of.

## Main results

* `Paging.Feed.Walk.pairwise_flatten` — no number is read twice.
* `Paging.Feed.Walk.mem_flatten` — what is there all the time is read.
* `Paging.Feed.Walk.perm_flatten` — rows that do not change are read, each of them once.
-/

namespace Paging.Feed

variable {α : Type} (number : α → ℕ) (n : ℕ)

/-- The rows before a number, the latest first. -/
def preceding (rows : List α) (before : Option ℕ) : List α :=
  (rows.filter fun r => before.all fun b => decide (number r < b)).insertionSort
    fun a b => number b ≤ number a

/-- The last rows before a number. -/
def page (rows : List α) (before : Option ℕ) : List α := (preceding number rows before).take n

/-- The pages that a reader gets, and the rows that are there at each: it asks for the next page
with the number of the last row, until a page is not full. -/
inductive Walk : Option ℕ → List (List α) → List (List α) → Prop
  | last {before : Option ℕ} {rows : List α} : (page number n rows before).length < n →
      Walk before [rows] [page number n rows before]
  | more {before : Option ℕ} {rows : List α} {r : α} {found pages : List (List α)} :
      (page number n rows before).length = n → (page number n rows before).getLast? = some r →
      Walk (some (number r)) found pages →
      Walk before (rows :: found) (page number n rows before :: pages)

variable {number n} {rows : List α} {before : Option ℕ} {r : α} {found pages : List (List α)}

lemma mem_preceding :
    r ∈ preceding number rows before ↔ r ∈ rows ∧ ∀ b, before = some b → number r < b := by
  simp only [preceding, List.mem_insertionSort, List.mem_filter]
  cases before <;> simp

lemma pairwise_preceding :
    (preceding number rows before).Pairwise fun a b => number b ≤ number a :=
  have : Std.Total fun a b : α => number b ≤ number a := ⟨fun _ _ => Nat.le_total _ _⟩
  have : IsTrans α fun a b => number b ≤ number a := ⟨fun _ _ _ hab hbc => Nat.le_trans hbc hab⟩
  List.pairwise_insertionSort _ _

lemma mem_page (h : r ∈ page number n rows before) :
    r ∈ rows ∧ ∀ b, before = some b → number r < b :=
  mem_preceding.1 (List.mem_of_mem_take h)

/-- Where no two rows have one number, the order is strict. -/
lemma pairwise_lt_preceding (hinj : (rows.map number).Nodup) :
    (preceding number rows before).Pairwise fun a b => number b < number a := by
  have hnodup : ((preceding number rows before).map number).Nodup :=
    ((List.perm_insertionSort _ _).map number).nodup_iff.2
      (hinj.sublist (List.filter_sublist.map _))
  exact pairwise_preceding.imp₂ (fun a b hle hne => lt_of_le_of_ne hle fun h => hne h.symm)
    (List.pairwise_map.1 hnodup)

lemma pairwise_page (hinj : (rows.map number).Nodup) :
    (page number n rows before).Pairwise fun a b => number b < number a :=
  (pairwise_lt_preceding hinj).sublist (List.take_sublist _ _)

/-- The rows of a page are not before its last one. -/
lemma number_getLast_le (hlast : (page number n rows before).getLast? = some r) {a : α}
    (ha : a ∈ page number n rows before) : number r ≤ number a := by
  have hne : page number n rows before ≠ [] := List.ne_nil_of_mem ha
  obtain rfl := Option.some.inj ((List.getLast?_eq_some_getLast hne).symm.trans hlast)
  have hsorted : (page number n rows before).Pairwise fun a b => number b ≤ number a :=
    pairwise_preceding.sublist (List.take_sublist _ _)
  rw [← List.dropLast_append_getLast hne, List.pairwise_append] at hsorted
  rw [← List.dropLast_append_getLast hne, List.mem_append, List.mem_singleton] at ha
  rcases ha with ha | ha
  · exact hsorted.2.2 a ha _ (List.mem_singleton_self _)
  · rw [ha]

/-- What a page leaves out comes before its last row. -/
lemma number_lt_getLast (hinj : (rows.map number).Nodup)
    (hlast : (page number n rows before).getLast? = some r) {a : α} (ha : a ∈ rows)
    (hbefore : ∀ b, before = some b → number a < b) (hout : a ∉ page number n rows before) :
    number a < number r := by
  have hmem : a ∈ preceding number rows before := mem_preceding.2 ⟨ha, hbefore⟩
  have hsorted : (preceding number rows before).Pairwise fun a b => number b < number a :=
    pairwise_lt_preceding hinj
  rw [← List.take_append_drop n (preceding number rows before)] at hmem hsorted
  rw [List.pairwise_append] at hsorted
  have hdrop := (List.mem_append.1 hmem).resolve_left hout
  exact hsorted.2.2 r (List.mem_of_getLast? hlast) a hdrop

/-- A page that is not full leaves nothing out. -/
lemma mem_page_of_short (hshort : (page number n rows before).length < n) {a : α} (ha : a ∈ rows)
    (hbefore : ∀ b, before = some b → number a < b) : a ∈ page number n rows before := by
  rw [page, List.take_of_length_le]
  · exact mem_preceding.2 ⟨ha, hbefore⟩
  · rw [page, List.length_take] at hshort
    omega

/-- Where rows come, those that were there stay in their order. -/
lemma preceding_sublist {rows' : List α} (hinj : (rows'.map number).Nodup)
    (h : rows.Sublist rows') :
    (preceding number rows before).Sublist (preceding number rows' before) := by
  have : Std.Antisymm fun a b : α => number b < number a :=
    ⟨fun _ _ hab hba => absurd hab (lt_asymm hba)⟩
  have hsub : (rows.filter fun r => before.all fun b => decide (number r < b)).Subperm
      (rows'.filter fun r => before.all fun b => decide (number r < b)) :=
    (h.filter _).subperm
  refine List.sublist_of_subperm_of_pairwise (r := fun a b => number b < number a) ?_
    (pairwise_lt_preceding (hinj.sublist (h.map _))) (pairwise_lt_preceding hinj)
  exact (List.perm_insertionSort _ _).subperm.trans
    (hsub.trans (List.perm_insertionSort _ _).symm.subperm)

/-- Rows may be mapped, before or after, where their numbers stay. -/
lemma page_map {f : α → α} (hf : ∀ a, number (f a) = number a) :
    page number n (rows.map f) before = (page number n rows before).map f := by
  rw [page, page, preceding, preceding, List.filter_map, List.map_take,
    List.map_insertionSort _ (fun a b => number b ≤ number a) f _ fun a _ b _ => by rw [hf, hf]]
  congr 3
  exact List.filter_congr fun a _ => by rw [Function.comp_apply, hf]

/-- The page of one row. -/
lemma page_one (hinj : (rows.map number).Nodup) (hr : r ∈ rows) :
    page number 1 rows (some (number r + 1)) = [r] := by
  have hmem : r ∈ preceding number rows (some (number r + 1)) :=
    mem_preceding.2 ⟨hr, fun b hb => Option.some.inj hb ▸ Nat.lt_succ_self _⟩
  have hsorted : (preceding number rows (some (number r + 1))).Pairwise fun a b =>
      number b < number a := pairwise_lt_preceding hinj
  rw [page]
  cases hl : preceding number rows (some (number r + 1)) with
  | nil => exact absurd hmem (by simp [hl])
  | cons a l =>
    have ha := (mem_preceding.1 (hl ▸ List.mem_cons_self : a ∈ preceding number rows _)).2 _ rfl
    rw [hl] at hmem hsorted
    rcases List.mem_cons.1 hmem with rfl | hin
    · rfl
    · have hlt := (List.pairwise_cons.1 hsorted).1 r hin
      omega

/-- What is read comes before the number that reading starts from. -/
lemma Walk.number_lt (h : Walk number n before found pages) {b : ℕ} (hb : before = some b)
    (hr : r ∈ pages.flatten) : number r < b := by
  induction h generalizing b with
  | last _ => exact (mem_page (by simpa using hr)).2 b hb
  | @more before rows s found pages _ hlast _ ih =>
    rw [List.flatten_cons, List.mem_append] at hr
    rcases hr with hr | hr
    · exact (mem_page hr).2 b hb
    · exact (ih rfl hr).trans ((mem_page (List.mem_of_getLast? hlast)).2 b hb)

/-- **No number is read twice**, and they come in order. -/
theorem Walk.pairwise_flatten (h : Walk number n before found pages)
    (hinj : ∀ rows ∈ found, (rows.map number).Nodup) :
    pages.flatten.Pairwise fun a b => number b < number a := by
  induction h with
  | last _ => simpa using pairwise_page (hinj _ (List.mem_singleton_self _))
  | @more before rows s found pages _ hlast hwalk ih =>
    rw [List.flatten_cons, List.pairwise_append]
    refine ⟨pairwise_page (hinj _ List.mem_cons_self), ih fun rows hrows =>
      hinj rows (List.mem_cons_of_mem _ hrows), fun a ha b hb => ?_⟩
    exact (hwalk.number_lt rfl hb).trans_le (number_getLast_le hlast ha)

/-- Every row that is read has been there. -/
lemma Walk.exists_mem (h : Walk number n before found pages) (hr : r ∈ pages.flatten) :
    ∃ rows ∈ found, r ∈ rows := by
  induction h with
  | last _ => exact ⟨_, List.mem_singleton_self _, (mem_page (by simpa using hr)).1⟩
  | more _ _ _ ih =>
    rw [List.flatten_cons, List.mem_append] at hr
    rcases hr with hr | hr
    · exact ⟨_, List.mem_cons_self, (mem_page hr).1⟩
    · obtain ⟨rows, hrows, hmem⟩ := ih hr
      exact ⟨rows, List.mem_cons_of_mem _ hrows, hmem⟩

/-- **What is there all the time is read**: a number that a row has at every page. -/
theorem Walk.mem_flatten (h : Walk number n before found pages)
    (hinj : ∀ rows ∈ found, (rows.map number).Nodup) {k : ℕ} (hk : ∀ b, before = some b → k < b)
    (hstays : ∀ rows ∈ found, k ∈ rows.map number) : k ∈ pages.flatten.map number := by
  induction h with
  | @last before rows hshort =>
    obtain ⟨a, ha, rfl⟩ := List.mem_map.1 (hstays rows (List.mem_singleton_self _))
    exact List.mem_map_of_mem (by simpa using mem_page_of_short hshort ha hk)
  | @more before rows s found pages _ hlast _ ih =>
    obtain ⟨a, ha, rfl⟩ := List.mem_map.1 (hstays rows List.mem_cons_self)
    rw [List.flatten_cons, List.map_append, List.mem_append]
    by_cases hin : a ∈ page number n rows before
    · exact .inl (List.mem_map_of_mem hin)
    · refine .inr (ih (fun rows hrows => hinj rows (List.mem_cons_of_mem _ hrows)) ?_
        fun rows hrows => hstays rows (List.mem_cons_of_mem _ hrows))
      rintro b hb
      obtain rfl := Option.some.inj hb
      exact number_lt_getLast (hinj _ List.mem_cons_self) hlast ha hk hin

/-- **Where the rows do not change** they are read, each of them once. -/
theorem Walk.perm_flatten (h : Walk number n none found pages) (hinj : (rows.map number).Nodup)
    (hsame : ∀ l ∈ found, l = rows) : pages.flatten.Perm rows := by
  have hinj' : ∀ l ∈ found, (l.map number).Nodup := fun l hl => by rw [hsame l hl]; exact hinj
  have hpairs := h.pairwise_flatten hinj'
  refine (List.perm_ext_iff_of_nodup (hpairs.imp fun {a b} hab he => ?_) hinj.of_map).2 fun a =>
    ⟨fun ha => ?_, fun ha => ?_⟩
  · rw [he] at hab
    exact lt_irrefl _ hab
  · obtain ⟨l, hl, hmem⟩ := h.exists_mem ha
    exact hsame l hl ▸ hmem
  · have hread := h.mem_flatten hinj' (fun b hb => by cases hb) fun l hl => by
      rw [hsame l hl]
      exact List.mem_map_of_mem ha
    obtain ⟨b, hb, heq⟩ := List.mem_map.1 hread
    obtain ⟨l, hl, hmem⟩ := h.exists_mem hb
    rwa [← List.inj_on_of_nodup_map hinj (hsame l hl ▸ hmem) ha heq]

end Paging.Feed
