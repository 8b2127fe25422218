import Mathlib.Data.Nat.Notation
import Mathlib.Logic.Relation
import Mathlib.Tactic.Basic

set_option relaxedAutoImplicit false
set_option autoImplicit false

/-!
# Transition systems that compute

A system is a function that gives the state an event leaves, where the event can happen. Its runs
take one event after the other in any order; a run may be restricted to the events that meet a
condition on the state they come in.

## Main definitions

* `Concurrency.System` — the systems.
* `Concurrency.System.Leads` — the states a run leads to.
* `Concurrency.System.play` — plays given events.

## Main results

* `Concurrency.System.invariant` — what every admitted event keeps holds in every state reached.
* `Concurrency.System.exists_leads` — what given events lead to is reached.
-/

namespace Concurrency

/-- A transition system: the state an event leaves, if it can happen. -/
abbrev System (σ ε : Type) := σ → ε → Option σ

namespace System

variable {σ ε : Type}

/-- The condition that admits every event. -/
def Any : σ → ε → Prop := fun _ _ => True

instance (s : σ) (e : ε) : Decidable (Any s e) := instDecidableTrue

/-- One event that `ok` admits. -/
def Event (S : System σ ε) (ok : σ → ε → Prop) (s s' : σ) : Prop :=
  ∃ e, ok s e ∧ S s e = some s'

/-- The states a run of admitted events leads to. -/
def Leads (S : System σ ε) (ok : σ → ε → Prop) : σ → σ → Prop :=
  Relation.ReflTransGen (S.Event ok)

variable {S : System σ ε} {ok : σ → ε → Prop} {s s' : σ}

/-- **The invariant rule**, by induction on the run. -/
theorem invariant {Inv : σ → Prop} (h₀ : Inv s)
    (hstep : ∀ s e s', Inv s → ok s e → S s e = some s' → Inv s') (h : S.Leads ok s s') :
    Inv s' := by
  induction h with
  | refl => exact h₀
  | tail _ he ih =>
    obtain ⟨e, hok, hs⟩ := he
    exact hstep _ e _ ih hok hs

/-- A relation that every admitted event keeps relates the ends of a run. -/
theorem relation {R : σ → σ → Prop} (hrefl : ∀ s, R s s)
    (htrans : ∀ s₁ s₂ s₃, R s₁ s₂ → R s₂ s₃ → R s₁ s₃)
    (hstep : ∀ s e s', ok s e → S s e = some s' → R s s') (h : S.Leads ok s s') : R s s' := by
  induction h with
  | refl => exact hrefl s
  | tail _ he ih =>
    obtain ⟨e, hok, hs⟩ := he
    exact htrans _ _ _ ih (hstep _ e _ hok hs)

lemma leads_any (h : S.Leads ok s s') : S.Leads Any s s' := by
  induction h with
  | refl => exact .refl
  | tail _ he ih =>
    obtain ⟨e, -, hs⟩ := he
    exact ih.tail ⟨e, trivial, hs⟩

section Play

variable (S) (ok) [∀ s e, Decidable (ok s e)]

/-- Play events one after the other, as long as they are admitted and can happen. -/
def play : σ → List ε → Option σ
  | s, [] => some s
  | s, e :: es => if ok s e then (S s e).bind fun s' => play s' es else none

variable {S} {ok}

lemma play_leads {es : List ε} (h : S.play ok s es = some s') : S.Leads ok s s' := by
  induction es generalizing s with
  | nil =>
    obtain rfl := Option.some.inj h
    exact .refl
  | cons e es ih =>
    rw [play] at h
    split at h
    · rename_i hok
      obtain ⟨s₁, hs, h⟩ := Option.bind_eq_some_iff.mp h
      exact .head ⟨e, hok, hs⟩ (ih h)
    · cases h

/-- **What given events lead to** is reached. -/
theorem exists_leads (S : System σ ε) (ok : σ → ε → Prop) [∀ s e, Decidable (ok s e)] (s : σ)
    (p : σ → Bool) (es : List ε) (h : (S.play ok s es).any p = true) :
    ∃ s', S.Leads ok s s' ∧ p s' = true := by
  cases hs : S.play ok s es with
  | none =>
    rw [hs] at h
    cases h
  | some s' =>
    rw [hs] at h
    exact ⟨s', play_leads hs, h⟩

end Play

end System

end Concurrency
