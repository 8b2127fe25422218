import RbphBackend.Concurrency.Work

set_option relaxedAutoImplicit false
set_option autoImplicit false
set_option linter.unusedSectionVars false

/-!
# Disciplines

What a session may commit can depend on the store it commits to: on the rows it holds there, and on
the journal so far. A discipline says it for all sessions, together with the contract they keep to
by it and with an invariant that every such commit keeps.

## Main definitions

* `ReadCommitted.Discipline` — what may be committed where, the contract, the invariant.
* `ReadCommitted.Discipline.Others` — what a session relies on among others that keep to it.

## Main results

* `ReadCommitted.Discipline.stable_of_other` — an assertion that one step of the others keeps is
  stable.
* `ReadCommitted.Discipline.reaches` — sessions that keep to a discipline keep its invariant and
  meet their postconditions.
-/

namespace ReadCommitted

open Concurrency

variable {K : Type} [DecidableEq K] {V : K → Type} {E L α : Type}

/-- What the sessions of a store may commit. -/
structure Discipline (V : K → Type) (E : Type) where
  contract : Contract V
  Commits : Tid → Db V E → Commit V E → Prop
  Inv : Db V E → Prop
  /-- Where a guard may not be locked, rows change as the guard lets them. -/
  guarded : ∀ {t d e guard}, Commits t d e → ¬ (d.rows guard).Lockable t →
    ∀ k, contract.Guarded guard k (e.before k) (e.after k)
  inv_moves : ∀ {t d d'}, Inv d → Moves (Commits t d) t d d' → Inv d'
  inv_tick : ∀ {d} (n : ℕ), Inv d → Inv (d.tick n)

namespace Discipline

variable {D : Discipline V E} {t : Tid} {d d' : Db V E}

/-- One step of the others: the clock, or a move of another session. -/
def Other (D : Discipline V E) (t : Tid) (d d' : Db V E) : Prop :=
  D.Inv d ∧ (Tick d d' ∨ ∃ u, u ≠ t ∧ Moves (D.Commits u d) u d d')

/-- What session `t` relies on. -/
def Others (D : Discipline V E) (t : Tid) : Db V E → Db V E → Prop :=
  Relation.ReflTransGen (D.Other t)

/-- An assertion that every step of the others keeps. -/
lemma stable_of_other {A : Db V E → Prop} (h : ∀ d d', A d → D.Other t d d' → A d') :
    Stable (D.Others t) A := by
  intro d d' ha hr
  induction hr with
  | refl => exact ha
  | tail _ hstep ih => exact h _ _ ih hstep

/-- An assertion about the journal and what is committed that every commit of the others keeps. -/
lemma stable_of_commits {A : List (Commit V E) → ((k : K) → V k) → Prop}
    (h : ∀ d u e, D.Inv d → u ≠ t → A d.journal d.committed → e.tid = u →
      e.before = d.committed → D.Commits u d e → A (d.journal ++ [e]) e.after) :
    Stable (D.Others t) fun d => A d.journal d.committed := by
  refine stable_of_other fun d d' ha ho => ?_
  obtain ⟨hinv, ⟨n, rfl⟩ | ⟨u, hu, hm⟩⟩ := ho
  · exact ha
  · rcases hm.commits with ⟨hj, hc⟩ | ⟨e, he, hb, hafter, hj, hP⟩
    · rwa [hj, hc]
    · rw [hj, ← hafter]
      exact h d u e hinv hu ha he hb hP

/-- One step of the others leaves what is `t`'s own. -/
lemma Other.rely (h : D.Other t d d') : Rely (fun _ => True) t d d' := by
  obtain ⟨-, ⟨n, rfl⟩ | ⟨u, hu, hm⟩⟩ := h
  · exact Rely.tick _ t n d
  · exact Rely.of_moves (Ne.symm hu) (hm.mono fun _ _ => trivial)

/-- One step of the others changes rows as a row of `t` lets them. -/
lemma Other.guarded (h : D.Other t d d') {guard : K} (hg : (d.rows guard).HeldBy t) (k : K) :
    D.contract.Guarded guard k (d.committed k) (d'.committed k) := by
  obtain ⟨-, ⟨n, rfl⟩ | ⟨u, hu, hm⟩⟩ := h
  · exact D.contract.refl _
  · rcases hm.commits with ⟨-, hc⟩ | ⟨e, -, hb, ha, -, hP⟩
    · rw [hc]
      exact D.contract.refl _
    · rw [← ha, ← hb]
      exact D.guarded hP (fun hl => hu (hl.heldBy_imp hg).symm) k

/-- The others change rows as a row of `t` lets them, and leave the row to `t`. -/
lemma Others.guarded (h : D.Others t d d') {guard : K} (hg : (d.rows guard).HeldBy t) :
    (∀ k, D.contract.Guarded guard k (d.committed k) (d'.committed k)) ∧
      (d'.rows guard).HeldBy t := by
  induction h with
  | refl => exact ⟨fun k => D.contract.refl _, hg⟩
  | tail _ hstep ih =>
    obtain ⟨hc, hh⟩ := ih
    refine ⟨fun k => D.contract.trans (hc k) (hstep.guarded hh k), ?_⟩
    rwa [hstep.rely.keeps.held guard (.inl hh)]

instance (D : Discipline V E) (t : Tid) : Honours D.contract t (D.Others t) where
  refl _ := .refl
  rely h := by
    induction h with
    | refl => exact Rely.refl _ t _
    | tail _ hstep ih => exact ih.trans hstep.rely
  guarded h _ hg := (Others.guarded h hg).1

/-- What a session that keeps to the discipline guarantees. -/
abbrev Guarantee (D : Discipline V E) (t : Tid) :
    L → Db V E → Db V E → Prog L (Db V E) α → Prop :=
  Plain fun _ d d' => Moves (D.Commits t d) t d d'

/-- The sessions that keep to a discipline fit together. -/
lemma relyGuarantee {ok : Tid → L → Db V E → Prop} :
    RelyGuarantee Tick ok D.Inv D.Others fun t => D.Guarantee (L := L) (α := α) t where
  refl _ _ := .refl
  trans _ _ _ _ h h' := h.trans h'
  guarantee _ u _ _ _ _ hu hinv _ h := .single ⟨hinv, .inr ⟨u, Ne.symm hu, h⟩⟩
  interference _ _ _ hinv h := .single ⟨hinv, .inl h⟩
  inv_step _ _ _ _ _ hinv _ h := D.inv_moves hinv h
  inv_env := by
    rintro d _ hinv ⟨n, rfl⟩
    exact D.inv_tick n hinv

/-- **Sessions that keep to a discipline** keep its invariant in every run, and what they return
meets their postconditions. -/
theorem reaches {ok : Tid → L → Db V E → Prop} {Q : Tid → α → Db V E → Prop}
    {c c' : Config L (Db V E) α} (hinv : D.Inv c.shared)
    (hsat : ∀ t, (c.threads t).Sat (D.Others t) (fun l d => ok t l d ∧ D.Inv d) (D.Guarantee t)
      (Q t) c.shared)
    (hr : Reaches Tick ok c c') :
    D.Inv c'.shared ∧ ∀ t a, c'.threads t = .ret a → Q t a c'.shared := by
  have hgood : c.Good ok D.Inv D.Others (fun t => D.Guarantee t) Q := ⟨hinv, hsat⟩
  exact ⟨(relyGuarantee.reaches hgood hr).1, fun t a ha => relyGuarantee.result hgood hr ha⟩

end Discipline

end ReadCommitted
