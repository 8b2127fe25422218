import Mathlib.Data.Set.Finite.Basic
import Mathlib.Logic.Relation
import Mathlib.Order.Preorder.Finite

set_option relaxedAutoImplicit false
set_option autoImplicit false

/-!
# Following a chain

Every element names the next one, or none. Who follows the names comes to an end, or goes on
forever; where there are only finitely many names, it goes on forever exactly when it comes to a
cycle.

## Main definitions

* `Paging.Chain.walk` — the element after some steps.
* `Paging.Chain.Cyclic` — a cycle is met.

## Main results

* `Paging.Chain.ends_iff` — a chain of finitely many names ends unless it is cyclic.
-/

namespace Paging.Chain

open Relation

universe u

variable {α : Type u} (next : α → Option α)

/-- The element after some steps, if the chain goes so far. -/
def walk : ℕ → α → Option α
  | 0, a => some a
  | n + 1, a => (next a).bind (walk n)

/-- An element names another one. -/
def Names (a b : α) : Prop := next a = some b

/-- A chain comes to an element from which it comes back to it. -/
def Cyclic (a : α) : Prop := ∃ b, ReflTransGen (Names next) a b ∧ TransGen (Names next) b b

section Walk

variable {next} {a b : α} {n m : ℕ}

lemma walk_add (n m : ℕ) (a : α) : walk next (n + m) a = (walk next n a).bind (walk next m) := by
  induction n generalizing a with
  | zero => rw [Nat.zero_add, walk, Option.bind_some]
  | succ n ih =>
    rw [Nat.succ_add, walk, walk, Option.bind_assoc]
    exact Option.bind_congr fun b _ => ih b

lemma walk_succ (n : ℕ) (a : α) : walk next (n + 1) a = (walk next n a).bind next := by
  rw [walk_add]
  exact Option.bind_congr fun b _ => Option.bind_fun_some (next b)

lemma reflTransGen_of_walk (h : walk next n a = some b) : ReflTransGen (Names next) a b := by
  induction n generalizing a with
  | zero =>
    cases h
    exact .refl
  | succ n ih =>
    obtain ⟨c, hc, hrest⟩ := Option.bind_eq_some_iff.mp h
    exact .head hc (ih hrest)

lemma transGen_of_walk (h : walk next (n + 1) a = some b) : TransGen (Names next) a b := by
  obtain ⟨c, hc, hrest⟩ := Option.bind_eq_some_iff.mp h
  exact .head' hc (reflTransGen_of_walk hrest)

/-- On a cycle there is always a next element, and it is on the cycle. -/
lemma exists_walk_of_cycle (h : TransGen (Names next) a a) (n : ℕ) :
    ∃ b, walk next n a = some b := by
  induction n generalizing a with
  | zero => exact ⟨a, rfl⟩
  | succ n ih =>
    obtain ⟨c, hc, hback⟩ := TransGen.head'_iff.mp h
    obtain ⟨b, hb⟩ := ih (TransGen.tail' hback hc)
    exact ⟨b, by rw [walk, show next a = some c from hc, Option.bind_some, hb]⟩

lemma exists_walk_of_cyclic (h : Cyclic next a) (n : ℕ) : ∃ b, walk next n a = some b := by
  obtain ⟨c, hreach, hcycle⟩ := h
  induction hreach using ReflTransGen.head_induction_on generalizing n with
  | refl => exact exists_walk_of_cycle hcycle n
  | head hstep _ ih =>
    cases n with
    | zero => exact ⟨_, rfl⟩
    | succ n =>
      obtain ⟨b, hb⟩ := ih n
      exact ⟨b, by rw [walk, show next _ = some _ from hstep, Option.bind_some, hb]⟩

/-- A chain that never ends comes to one of finitely many names twice. -/
lemma cyclic_of_walk (hfin : {b | ∃ a, next a = some b}.Finite)
    (h : ∀ n, ∃ b, walk next n a = some b) : Cyclic next a := by
  choose f hf using h
  have hnamed : ∀ n, f (n + 1) ∈ {b | ∃ a, next a = some b} := by
    intro n
    have hlast := hf (n + 1)
    rw [walk_succ, hf n] at hlast
    exact ⟨f n, hlast⟩
  obtain ⟨i, j, hij, heq⟩ := hfin.exists_lt_map_eq_of_forall_mem hnamed
  obtain ⟨k, rfl⟩ := Nat.exists_eq_add_of_lt hij
  refine ⟨f (i + 1), reflTransGen_of_walk (hf (i + 1)), ?_⟩
  have hround := hf (i + 1 + (k + 1))
  rw [walk_add, hf (i + 1), Option.bind_some, show i + 1 + (k + 1) = i + k + 1 + 1 by omega,
    ← heq] at hround
  exact transGen_of_walk hround

/-- **A chain of finitely many names ends unless it comes to a cycle.** -/
theorem ends_iff (hfin : {b | ∃ a, next a = some b}.Finite) :
    (∃ n, walk next n a = none) ↔ ¬ Cyclic next a := by
  constructor
  · rintro ⟨n, hn⟩ hcyclic
    obtain ⟨b, hb⟩ := exists_walk_of_cyclic hcyclic n
    rw [hn] at hb
    cases hb
  · intro hacyclic
    by_contra! h
    exact hacyclic (cyclic_of_walk hfin fun n => Option.ne_none_iff_exists'.mp (h n))

end Walk

end Paging.Chain
