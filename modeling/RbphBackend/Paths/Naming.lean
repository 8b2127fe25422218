import Mathlib.Data.List.Basic
import Mathlib.Data.List.Nodup
import Mathlib.Data.List.Perm.Subperm
import Mathlib.Data.List.Range
import Mathlib.Tactic.Basic

set_option relaxedAutoImplicit false
set_option autoImplicit false

/-!
# Distinct names

Names are requested one after another. A request gets the first of the variants of what it asks for
that no earlier request has got; the variant at zero is what is asked for.

## Main definitions

* `Naming.firstFree` — a bounded search for a variant that is not in use.
* `Naming.names` — the names a list of requests gets.
* `Naming.Claimed` — a name has been given away, said of the requests alone.

## Main results

* `Naming.nodup_names` — no name is given twice.
* `Naming.claimed_iff` — what has been given away.
-/

namespace Naming

universe u

variable {α : Type u} [DecidableEq α] (variant : α → ℕ → α)

/-! ## The search -/

/-- The first variant from `k` on that is not in use, or the last one looked at. -/
def firstFree (used : List α) (a : α) : ℕ → ℕ → α
  | 0, k => variant a k
  | fuel + 1, k => if variant a k ∈ used then firstFree used a fuel (k + 1) else variant a k

section FirstFree

variable {variant} {a : α}

/-- What the search has passed by is in use, and it gives up at the end only. -/
lemma exists_firstFree (used : List α) (a : α) (fuel k : ℕ) :
    ∃ m, k ≤ m ∧ firstFree variant used a fuel k = variant a m ∧
      (∀ l, k ≤ l → l < m → variant a l ∈ used) ∧ (variant a m ∈ used → m = k + fuel) := by
  induction fuel generalizing k with
  | zero => exact ⟨k, le_rfl, rfl, fun l hl hlm => absurd hlm (by omega), fun _ => rfl⟩
  | succ fuel ih =>
    by_cases hk : variant a k ∈ used
    · obtain ⟨m, hm, heq, hpassed, hlast⟩ := ih (k + 1)
      refine ⟨m, by omega, by rw [firstFree, if_pos hk, heq], fun l hl hlm => ?_, fun hmem => ?_⟩
      · obtain rfl | hlt := hl.eq_or_lt
        · exact hk
        · exact hpassed l hlt hlm
      · have := hlast hmem
        omega
    · exact ⟨k, le_rfl, by rw [firstFree, if_neg hk], fun l hl hlm => absurd hlm (by omega),
        fun hmem => absurd hmem hk⟩

omit [DecidableEq α] in
/-- A list is too short to hold more distinct variants than it has elements. -/
lemma exists_notMem (used : List α) (hinj : Function.Injective (variant a)) (k : ℕ) :
    ∃ l, k ≤ l ∧ l ≤ k + used.length ∧ variant a l ∉ used := by
  by_contra! h
  have hnodup : ((List.range' k (used.length + 1)).map (variant a)).Nodup :=
    List.Nodup.map hinj List.nodup_range'
  have hsub : (List.range' k (used.length + 1)).map (variant a) ⊆ used := by
    intro x hx
    obtain ⟨l, hl, rfl⟩ := List.mem_map.mp hx
    rw [List.mem_range'_1] at hl
    exact h l hl.1 (by omega)
  have hlen := (List.subperm_of_subset hnodup hsub).length_le
  rw [List.length_map, List.length_range'] at hlen
  omega

/-- **The search ends** before it has looked at one variant more than there are names in use. -/
lemma firstFree_spec (used : List α) (hinj : Function.Injective (variant a)) {fuel : ℕ}
    (hfuel : used.length ≤ fuel) (k : ℕ) :
    ∃ m, k ≤ m ∧ firstFree variant used a fuel k = variant a m ∧ variant a m ∉ used ∧
      ∀ l, k ≤ l → l < m → variant a l ∈ used := by
  obtain ⟨m, hm, heq, hpassed, hlast⟩ := exists_firstFree used a fuel k
  refine ⟨m, hm, heq, fun hmem => ?_, hpassed⟩
  obtain ⟨l, hkl, hl, hfree⟩ := exists_notMem used hinj k
  have hend := hlast hmem
  obtain rfl | hlt := (show l ≤ m by omega).eq_or_lt
  · exact hfree hmem
  · exact hfree (hpassed l hkl hlt)

end FirstFree

/-! ## The names of a list of requests -/

/-- The name of a request. -/
def fresh (used : List α) (a : α) : α := firstFree variant used a used.length 0

/-- The names of requests, when some are in use. -/
def namesFrom (used : List α) : List α → List α
  | [] => []
  | a :: as => fresh variant used a :: namesFrom (used ++ [fresh variant used a]) as

/-- The names of requests. -/
def names (requests : List α) : List α := namesFrom variant [] requests

/-- A name has been given away before the request at a place: an earlier request is for something
of which it is a variant, and the variants before it have been given away before that request. -/
inductive Claimed (requests : List α) : α → ℕ → Prop
  | of_request {a : α} {j n k : ℕ} (hj : requests[j]? = some a) (hn : j < n)
      (hbefore : ∀ l < k, Claimed requests (variant a l) j) : Claimed requests (variant a k) n

section Names

variable {variant} {used requests : List α} {a p : α}

lemma fresh_spec (used : List α) (hinj : Function.Injective (variant a)) :
    ∃ m, fresh variant used a = variant a m ∧ variant a m ∉ used ∧ ∀ l < m, variant a l ∈ used := by
  obtain ⟨m, -, heq, hfree, hpassed⟩ := firstFree_spec used hinj le_rfl 0
  exact ⟨m, heq, hfree, fun l hl => hpassed l (Nat.zero_le l) hl⟩

/-- The name of a request is the only variant that is free and comes after none that is. -/
lemma fresh_eq (hinj : Function.Injective (variant a)) {m : ℕ} (hfree : variant a m ∉ used)
    (hpassed : ∀ l < m, variant a l ∈ used) : fresh variant used a = variant a m := by
  obtain ⟨m', heq, hfree', hpassed'⟩ := fresh_spec used hinj
  rcases lt_trichotomy m m' with hlt | rfl | hlt
  · exact absurd (hpassed' m hlt) hfree
  · exact heq
  · exact absurd (hpassed m' hlt) hfree'

lemma fresh_notMem (hinj : Function.Injective (variant a)) : fresh variant used a ∉ used := by
  obtain ⟨m, heq, hfree, -⟩ := fresh_spec used hinj
  rwa [heq]

/-- What is free is given to who asks for it. -/
lemma fresh_eq_self (hinj : Function.Injective (variant a)) (hzero : variant a 0 = a)
    (h : a ∉ used) : fresh variant used a = a := by
  rw [fresh_eq hinj (m := 0) (by rwa [hzero]) (fun l hl => absurd hl l.not_lt_zero), hzero]

@[simp] lemma length_namesFrom : (namesFrom variant used requests).length = requests.length := by
  induction requests generalizing used with
  | nil => rfl
  | cons a as ih => rw [namesFrom, List.length_cons, ih, List.length_cons]

@[simp] lemma length_names : (names variant requests).length = requests.length := length_namesFrom

lemma namesFrom_append (as bs : List α) : namesFrom variant used (as ++ bs) =
    namesFrom variant used as ++ namesFrom variant (used ++ namesFrom variant used as) bs := by
  induction as generalizing used with
  | nil => rw [List.nil_append, namesFrom, List.append_nil, List.nil_append]
  | cons a as ih =>
    rw [List.cons_append, namesFrom, ih, namesFrom, List.cons_append, List.append_assoc,
      List.singleton_append]

/-- The names given before a place are those of the requests before it. -/
lemma names_take (n : ℕ) : names variant (requests.take n) = (names variant requests).take n := by
  conv_rhs => rw [← List.take_append_drop n requests, names, namesFrom_append]
  rw [List.take_append]
  by_cases hn : n ≤ requests.length
  · have hlen : (namesFrom variant [] (requests.take n)).length = n := by
      rw [length_namesFrom, List.length_take, min_eq_left hn]
    rw [hlen, Nat.sub_self, List.take_zero, List.append_nil, List.take_of_length_le hlen.le, names]
  · have hlen : (namesFrom variant [] requests).length ≤ n := by
      rw [length_namesFrom]
      omega
    rw [List.drop_eq_nil_of_le (by omega), namesFrom, List.take_nil, List.append_nil,
      List.take_of_length_le (by omega), List.take_of_length_le hlen, names]

variable (variant) in
/-- **The name at a place** is that of its request, after those given before. -/
lemma names_getElem? {j : ℕ} (hj : requests[j]? = some a) :
    (names variant requests)[j]? = some (fresh variant ((names variant requests).take j) a) := by
  have hlt : j < requests.length := (List.getElem?_eq_some_iff.mp hj).1
  have hsplit : requests.take (j + 1) = requests.take j ++ [a] := by
    rw [List.take_add_one, hj, Option.toList_some]
  have hnames : (names variant requests).take (j + 1) =
      (names variant requests).take j ++ [fresh variant ((names variant requests).take j) a] := by
    rw [← names_take, hsplit, names, namesFrom_append, List.nil_append, ← names, namesFrom,
      namesFrom, names_take]
  have hlen : ((names variant requests).take j).length = j := by
    rw [List.length_take, length_names, min_eq_left hlt.le]
  calc (names variant requests)[j]?
      = ((names variant requests).take (j + 1))[j]? := by
        rw [List.getElem?_take_of_lt (Nat.lt_succ_self j)]
    _ = some (fresh variant ((names variant requests).take j) a) := by
        rw [hnames, List.getElem?_append_right hlen.le, hlen, Nat.sub_self]
        rfl

/-- Every name is a variant of a request. -/
lemma exists_of_mem_names (hinj : ∀ a, Function.Injective (variant a))
    (h : p ∈ names variant requests) : ∃ a ∈ requests, ∃ k, p = variant a k := by
  obtain ⟨j, hj⟩ := List.mem_iff_getElem?.mp h
  have hlt := (List.getElem?_eq_some_iff.mp hj).1
  rw [length_names] at hlt
  rw [names_getElem? variant (List.getElem?_eq_getElem hlt), Option.some.injEq] at hj
  obtain ⟨k, heq, -, -⟩ := fresh_spec ((names variant requests).take j) (hinj requests[j])
  exact ⟨requests[j], List.getElem_mem hlt, k, by rw [← hj, heq]⟩

/-- **No name is given twice.** -/
theorem nodup_names (hinj : ∀ a, Function.Injective (variant a)) :
    (names variant requests).Nodup := by
  rw [List.nodup_iff_getElem?_ne_getElem?]
  intro i j hij hj he
  rw [length_names] at hj
  have hname := names_getElem? variant (List.getElem?_eq_getElem hj)
  have hfree : fresh variant ((names variant requests).take j) requests[j] ∉
      (names variant requests).take j := fresh_notMem (hinj requests[j])
  refine hfree ?_
  rw [List.mem_iff_getElem?]
  exact ⟨i, by rw [List.getElem?_take_of_lt hij, he, hname]⟩

/-- Distinct requests get what they ask for. -/
lemma names_eq_self (hinj : ∀ a, Function.Injective (variant a)) (hzero : ∀ a, variant a 0 = a)
    (h : requests.Nodup) : names variant requests = requests := by
  induction requests using List.reverseRecOn with
  | nil => rfl
  | append_singleton as a ih =>
    rw [List.nodup_append] at h
    have has : names variant as = as := ih h.1
    have hfree : a ∉ as := fun hmem => h.2.2 a hmem a List.mem_cons_self rfl
    rw [names, namesFrom_append, List.nil_append, ← names, has, namesFrom, namesFrom,
      fresh_eq_self (hinj a) (hzero a) hfree]

/-! ## What has been given away -/

lemma mem_names_of_claimed (hinj : ∀ a, Function.Injective (variant a)) {n : ℕ}
    (h : Claimed variant requests p n) : p ∈ (names variant requests).take n := by
  induction h with
  | @of_request a j n k hj hn _ ih =>
    have hname := names_getElem? variant hj
    obtain ⟨m, heq, hfree, hpassed⟩ :=
      fresh_spec ((names variant requests).take j) (hinj a)
    by_cases hk : variant a k ∈ (names variant requests).take j
    · exact List.take_subset_take_left _ hn.le hk
    · -- the request gets the variant, which is the first free one
      obtain rfl : m = k := by
        rcases lt_trichotomy m k with hlt | rfl | hlt
        · exact absurd (ih m hlt) hfree
        · rfl
        · exact absurd (hpassed k hlt) hk
      rw [List.mem_iff_getElem?]
      exact ⟨j, by rw [List.getElem?_take_of_lt hn, hname, heq]⟩

lemma claimed_of_names (hinj : ∀ a, Function.Injective (variant a)) {j n : ℕ}
    (hj : (names variant requests)[j]? = some p) (hn : j < n) : Claimed variant requests p n := by
  induction j using Nat.strongRecOn generalizing p n with
  | ind j ih =>
    have hlt : j < requests.length := by
      have hlt' := (List.getElem?_eq_some_iff.mp hj).1
      rwa [length_names] at hlt'
    have hname := names_getElem? variant (List.getElem?_eq_getElem hlt)
    obtain ⟨m, heq, -, hpassed⟩ :=
      fresh_spec ((names variant requests).take j) (hinj requests[j])
    obtain rfl : variant requests[j] m = p := by
      rw [← heq]
      exact Option.some.inj (hname.symm.trans hj)
    refine .of_request (List.getElem?_eq_getElem hlt) hn fun l hl => ?_
    obtain ⟨i, hi⟩ := List.mem_iff_getElem?.mp (hpassed l hl)
    have hij : i < j := by
      by_contra! hji
      rw [List.getElem?_take, if_neg (by omega)] at hi
      cases hi
    rw [List.getElem?_take_of_lt hij] at hi
    exact ih i hij hi hij

/-- **What has been given away** before a place are the names of the requests before it. -/
theorem claimed_iff (hinj : ∀ a, Function.Injective (variant a)) {n : ℕ} :
    Claimed variant requests p n ↔ p ∈ (names variant requests).take n := by
  refine ⟨mem_names_of_claimed hinj, fun h => ?_⟩
  obtain ⟨j, hj⟩ := List.mem_iff_getElem?.mp h
  have hjn : j < n := by
    by_contra! hnj
    rw [List.getElem?_take, if_neg (by omega)] at hj
    cases hj
  rw [List.getElem?_take_of_lt hjn] at hj
  exact claimed_of_names hinj hj hjn

end Names

end Naming
