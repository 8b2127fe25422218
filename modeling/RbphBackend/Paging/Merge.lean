import Mathlib.Data.List.Perm.Subperm
import Mathlib.Data.List.Sort
import Mathlib.Order.Basic

set_option relaxedAutoImplicit false
set_option autoImplicit false

/-!
# Pages of two merged lists

Two lists of items are read in the order of the items' keys. A page is made of the first items of
each list: they are merged and the first of them are taken. Where keys tell the items apart this is
a page of the whole.

## Main definitions

* `Paging.Merge.ascending`, `Paging.Merge.descending` — the items in the order of their keys, and in
  the opposite order.
* `Paging.Merge.latest` — the last items of a list.

## Main results

* `Paging.Merge.take_merge` — the first items of the merged parts are the first of the whole.
* `Paging.Merge.latest_merge` — so are the last ones.
-/

namespace Paging.Merge

variable {α κ : Type} [LinearOrder κ] (f : α → κ)

/-- The items in the order of their keys. -/
def ascending (l : List α) : List α := l.insertionSort fun a b => f a ≤ f b

/-- The items in the opposite order of their keys. -/
def descending (l : List α) : List α := l.insertionSort fun a b => f b ≤ f a

/-- The last items of a list. -/
def latest (k : ℕ) (l : List α) : List α := l.drop (l.length - k)

variable {f} {l l₁ l₂ a b : List α} {k n : ℕ}

/-! ## Sorted lists -/

lemma perm_ascending : (ascending f l).Perm l := List.perm_insertionSort _ _

lemma perm_descending : (descending f l).Perm l := List.perm_insertionSort _ _

@[simp] lemma mem_ascending {x : α} : x ∈ ascending f l ↔ x ∈ l := perm_ascending.mem_iff

@[simp] lemma length_ascending : (ascending f l).length = l.length := perm_ascending.length_eq

@[simp] lemma length_descending : (descending f l).length = l.length :=
  perm_descending.length_eq

/-- Keys that tell the items apart are strictly increasing. -/
lemma pairwise_ascending (h : (l.map f).Nodup) :
    (ascending f l).Pairwise fun a b => f a < f b := by
  have : Std.Total fun a b : α => f a ≤ f b := ⟨fun _ _ => le_total _ _⟩
  have : IsTrans α fun a b => f a ≤ f b := ⟨fun _ _ _ => le_trans⟩
  have hle : (ascending f l).Pairwise fun a b => f a ≤ f b := List.pairwise_insertionSort _ _
  have hnodup : ((ascending f l).map f).Nodup := (perm_ascending.map f).nodup_iff.2 h
  rw [List.Nodup, List.pairwise_map] at hnodup
  exact hle.imp₂ (fun _ _ h₁ h₂ => lt_of_le_of_ne h₁ h₂) hnodup

/-- Strictly increasing lists of the same items are equal. -/
lemma eq_of_perm (h : l₁.Perm l₂) (h₁ : l₁.Pairwise fun a b => f a < f b)
    (h₂ : l₂.Pairwise fun a b => f a < f b) : l₁ = l₂ :=
  h.eq_of_pairwise (fun _ _ _ _ hab hba => absurd hab hba.asymm) h₁ h₂

lemma ascending_filter (p : α → Bool) (h : (l.map f).Nodup) :
    ascending f (l.filter p) = (ascending f l).filter p :=
  eq_of_perm (perm_ascending.trans (perm_ascending.symm.filter p))
    (pairwise_ascending (h.sublist (List.filter_sublist.map f))) ((pairwise_ascending h).filter p)

/-- The opposite order is the reverse. -/
lemma descending_eq_reverse (h : (l.map f).Nodup) :
    descending f l = (ascending f l).reverse := by
  refine eq_of_perm (f := fun x => OrderDual.toDual (f x))
    (perm_descending.trans (perm_ascending.symm.trans (List.reverse_perm _).symm))
    (pairwise_ascending h) ?_
  rw [List.pairwise_reverse]
  exact (pairwise_ascending h).imp fun hlt => OrderDual.toDual_lt_toDual.2 hlt

/-! ## The first items -/

/-- A filter that all of the first items pass does not change them. -/
lemma take_filter {p : α → Bool} (h : ∀ x ∈ l.take k, p x = true) :
    (l.filter p).take k = l.take k := by
  have hsplit : l.filter p = l.take k ++ (l.drop k).filter p := by
    conv_lhs => rw [← List.take_append_drop k l]
    rw [List.filter_append, List.filter_eq_self.2 h]
  rw [hsplit]
  rcases Nat.le_total k l.length with hk | hk
  · rw [List.take_append_of_le_length (by rw [List.length_take]; omega), List.take_take,
      Nat.min_self]
  · rw [List.drop_of_length_le hk, List.filter_nil, List.append_nil, List.take_take, Nat.min_self]

/-- An item of a part that is among the first of the whole is among the first of its part. -/
lemma mem_take_part {x : α} (hl : l.Pairwise fun a b => f a < f b) (ha : (a.map f).Nodup)
    (hsub : a ⊆ l) (hk : k ≤ n) (hx : x ∈ a) (hfirst : x ∈ l.take k) :
    x ∈ (ascending f a).take n := by
  by_contra hnot
  -- all of the first `n` items of the part come before `x`
  have hsorted := pairwise_ascending ha
  rw [← List.take_append_drop n (ascending f a), List.pairwise_append] at hsorted
  have hdrop : x ∈ (ascending f a).drop n := by
    have hmem : x ∈ ascending f a := mem_ascending.2 hx
    rw [← List.take_append_drop n (ascending f a), List.mem_append] at hmem
    exact hmem.resolve_left hnot
  have hlen : ((ascending f a).take n).length = n := by
    have hpos := List.length_pos_of_mem hdrop
    rw [List.length_drop] at hpos
    rw [List.length_take]
    omega
  obtain ⟨i, hi, rfl⟩ := List.getElem_of_mem hfirst
  rw [List.length_take] at hi
  rw [List.getElem_take] at hdrop
  -- but there are fewer of them in the whole
  have hsubset : (ascending f a).take n ⊆ l.take i := by
    intro y hy
    have hlt := hsorted.2.2 y hy _ hdrop
    obtain ⟨j, hj, rfl⟩ := List.getElem_of_mem (hsub (mem_ascending.1 (List.mem_of_mem_take hy)))
    have hji : j < i := by
      by_contra hge
      rcases Nat.lt_or_eq_of_le (Nat.le_of_not_lt hge) with hij | rfl
      · exact hlt.asymm ((List.pairwise_iff_getElem.1 hl) i j _ _ hij)
      · exact lt_irrefl _ hlt
    exact List.mem_take_iff_getElem.2 ⟨j, by omega, rfl⟩
  have hnodup : ((ascending f a).take n).Nodup :=
    (hsorted.1.imp fun hlt heq => hlt.ne (congrArg f heq))
  have hle := (List.Nodup.subperm hnodup hsubset).length_le
  rw [hlen, List.length_take] at hle
  omega

/-- Items of a list in order: those that the list in order has of them. -/
lemma ascending_eq_filter [DecidableEq α] (h : (l.map f).Nodup) (ha : (a.map f).Nodup)
    (hsub : a ⊆ l) : ascending f a = (ascending f l).filter fun x => decide (x ∈ a) := by
  refine eq_of_perm ?_ (pairwise_ascending ha) ((pairwise_ascending h).filter _)
  refine perm_ascending.trans ?_
  rw [List.perm_ext_iff_of_nodup (List.Nodup.of_map _ ha)
    ((perm_ascending.nodup_iff.2 (List.Nodup.of_map _ h)).filter _)]
  intro x
  rw [List.mem_filter, mem_ascending, decide_eq_true_iff]
  exact ⟨fun hx => ⟨hsub hx, hx⟩, fun hx => hx.2⟩

omit [LinearOrder κ] in
/-- Parts of two lists have items of the lists, each once. -/
lemma nodup_parts {a' b' : List α} (ha : a'.Perm a) (hb : b'.Perm b)
    (h : ((a ++ b).map f).Nodup) :
    ((a'.take n ++ b'.take n).map f).Nodup ∧ a'.take n ++ b'.take n ⊆ a ++ b := by
  have hsub : (a'.take n ++ b'.take n).Sublist (a' ++ b') :=
    (List.take_sublist n _).append (List.take_sublist n _)
  have hperm : (a' ++ b').Perm (a ++ b) := ha.append hb
  exact ⟨((hperm.map f).nodup_iff.2 h).sublist (hsub.map f), fun x hx =>
    hperm.subset (hsub.subset hx)⟩

/-- **The first items of the merged parts** are the first of the whole. -/
theorem take_merge (h : ((a ++ b).map f).Nodup) (hk : k ≤ n) :
    (ascending f ((ascending f a).take n ++ (ascending f b).take n)).take k =
      (ascending f (a ++ b)).take k := by
  classical
  have hwhole := pairwise_ascending h
  obtain ⟨ha, hb, -⟩ := List.nodup_append.1 (List.map_append ▸ h)
  obtain ⟨hnodup, hsub⟩ :=
    nodup_parts (n := n) (perm_ascending (f := f)) (perm_ascending (f := f)) h
  rw [ascending_eq_filter h hnodup hsub]
  apply take_filter
  intro x hx
  rw [decide_eq_true_iff, List.mem_append]
  rcases List.mem_append.1 (mem_ascending.1 (List.mem_of_mem_take hx)) with hxa | hxb
  · exact Or.inl (mem_take_part hwhole ha
      (fun y hy => mem_ascending.2 (List.mem_append_left _ hy)) hk hxa hx)
  · exact Or.inr (mem_take_part hwhole hb
      (fun y hy => mem_ascending.2 (List.mem_append_right _ hy)) hk hxb hx)

/-! ## The last items -/

/-- The last items are the first of the opposite order. -/
lemma latest_ascending (h : (l.map f).Nodup) :
    latest k (ascending f l) = ((descending f l).take k).reverse := by
  rw [descending_eq_reverse h, List.take_reverse, List.reverse_reverse]
  rfl

/-- **The last items of the merged parts** are the last of the whole. -/
theorem latest_merge (h : ((a ++ b).map f).Nodup) (hk : k ≤ n) :
    latest k (ascending f ((descending f a).take n ++ (descending f b).take n)) =
      latest k (ascending f (a ++ b)) := by
  obtain ⟨hnodup, -⟩ :=
    nodup_parts (n := n) (perm_descending (f := f)) (perm_descending (f := f)) h
  rw [latest_ascending hnodup, latest_ascending h]
  congr 1
  exact take_merge (f := fun x => OrderDual.toDual (f x)) h hk

/-- The merged parts are more than a page if and only if the whole is. -/
lemma lt_length_merge :
    k < ((a.take (k + 1)) ++ (b.take (k + 1))).length ↔ k < (a ++ b).length := by
  simp only [List.length_append, List.length_take]
  omega

/-! ## What is left to read -/

section

variable {l l₁ l₂ : List κ} {c d : κ}

/-- Before an item of an increasing list are those that it has before it. -/
lemma filter_lt_append (h : (l₁ ++ d :: l₂).Pairwise (· < ·)) :
    (l₁ ++ d :: l₂).filter (fun c => decide (c < d)) = l₁ := by
  obtain ⟨-, h₂, hlt⟩ := List.pairwise_append.1 h
  rw [List.filter_append, List.filter_eq_self.2 fun c hc =>
    decide_eq_true (hlt c hc d List.mem_cons_self), List.filter_eq_nil_iff.2, List.append_nil]
  intro c hc hcd
  rw [decide_eq_true_iff] at hcd
  rcases List.mem_cons.1 hc with rfl | hc
  · exact lt_irrefl _ hcd
  · exact hcd.asymm ((List.pairwise_cons.1 h₂).1 c hc)

/-- After it are those that it has after it. -/
lemma filter_gt_append (h : (l₁ ++ d :: l₂).Pairwise (· < ·)) :
    (l₁ ++ d :: l₂).filter (fun c => decide (d < c)) = l₂ := by
  obtain ⟨-, h₂, hlt⟩ := List.pairwise_append.1 h
  have hnil : l₁.filter (fun c => decide (d < c)) = [] := by
    refine List.filter_eq_nil_iff.2 fun c hc hdc => ?_
    exact (hlt c hc d List.mem_cons_self).asymm (of_decide_eq_true hdc)
  rw [List.filter_append, hnil, List.nil_append, List.filter_cons_of_neg (by simp),
    List.filter_eq_self.2 fun c hc => decide_eq_true ((List.pairwise_cons.1 h₂).1 c hc)]

omit [LinearOrder κ] in
/-- The last items of a list that has more begin with an item that has the others before it. -/
lemma exists_latest (hk : 0 < k) (h : k < l.length) :
    ∃ l₁ d l₂, latest k l = d :: l₂ ∧ l = l₁ ++ d :: l₂ ∧ l₁.length < l.length := by
  have hne : latest k l ≠ [] := by
    intro hnil
    have hlen := congrArg List.length hnil
    rw [latest, List.length_drop, List.length_nil] at hlen
    omega
  obtain ⟨d, l₂, hd⟩ := List.exists_cons_of_ne_nil hne
  refine ⟨l.take (l.length - k), d, l₂, hd, ?_, ?_⟩
  · rw [← hd, latest, List.take_append_drop]
  · rw [List.length_take]
    omega

omit [LinearOrder κ] in
/-- A list that has more than its last items has a first one before them. -/
lemma exists_latest_cons (hk : 0 < k) (h : k < l.length) :
    ∃ first l₁ d l₂, latest k l = d :: l₂ ∧ l = first :: (l₁ ++ d :: l₂) := by
  obtain ⟨l₁, d, l₂, hlatest, hsplit, -⟩ := exists_latest hk h
  cases l₁ with
  | nil =>
    have hlen := congrArg List.length hlatest
    rw [latest, List.length_drop, hsplit, List.nil_append] at hlen
    rw [hsplit, List.nil_append] at h
    omega
  | cons first l₁ => exact ⟨first, l₁, d, l₂, hlatest, hsplit⟩

omit [LinearOrder κ] in
/-- The first items end with an item that has the others after it. -/
lemma exists_take (hk : 0 < k) (h : k < l.length) :
    ∃ l₁ d l₂, l.take k = l₁ ++ [d] ∧ l = l₁ ++ d :: l₂ ∧ l₂.length < l.length := by
  have hne : l.take k ≠ [] := by
    intro hnil
    have hlen := congrArg List.length hnil
    rw [List.length_take, List.length_nil] at hlen
    omega
  refine ⟨(l.take k).dropLast, (l.take k).getLast hne, l.drop k,
    (List.dropLast_append_getLast hne).symm, ?_, ?_⟩
  · rw [List.append_cons, List.dropLast_append_getLast hne, List.take_append_drop]
  · rw [List.length_drop]
    omega

end

end Paging.Merge
