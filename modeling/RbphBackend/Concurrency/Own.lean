import RbphBackend.Concurrency.Transaction

set_option relaxedAutoImplicit false
set_option autoImplicit false
set_option linter.unusedSectionVars false

/-!
# Programs of one session

What a program's actions do can be known without knowing when they run: whatever the state, the
actions of a program may keep to a relation. A program made of the actions of session `t` commits for
session `t` only, whatever its statements are.

## Main definitions

* `Concurrency.Prog.Steps` — every action of a program keeps to a relation.
* `ReadCommitted.Tx.Own` — a program of the actions of one session.

## Main results

* `Concurrency.Prog.Steps.sat` — such a program guarantees the relation among any others.
* `ReadCommitted.Tx.steps_transaction` — the actions of a transaction.
* `ReadCommitted.Tx.Own.bind`, `ReadCommitted.Tx.Own.recover`, `ReadCommitted.Tx.own_transaction` — the
  rules of composition.
-/

namespace Concurrency

/-! ## Actions -/

namespace Prog

variable {L σ α β : Type} {G G' : σ → σ → Prop}

/-- Every action of the program keeps to `G`, in whatever state it runs. -/
def Steps (G : σ → σ → Prop) : Prog L σ α → Prop
  | .ret _ => True
  | .act _ f k => (∀ s b s', f s = some (b, s') → G s s') ∧ ∀ b, (k b).Steps G

lemma steps_ret (a : α) : (Prog.ret a : Prog L σ α).Steps G := trivial

lemma steps_atomic {l : L} {f : σ → Option (α × σ)} (h : ∀ s a s', f s = some (a, s') → G s s') :
    (atomic l f).Steps G := ⟨h, fun _ => trivial⟩

/-- Composition, by induction on the first program. -/
lemma Steps.bind {p : Prog L σ α} {k : α → Prog L σ β} (hp : p.Steps G) (hk : ∀ a, (k a).Steps G) :
    (p.bind k).Steps G := by
  induction p with
  | ret a => exact hk a
  | act l f k' ih => exact ⟨hp.1, fun b => ih b (hp.2 b)⟩

/-- **A program whose actions keep to `G`** guarantees `G`, whatever the others do. -/
lemma Steps.sat {R : σ → σ → Prop} {ok : L → σ → Prop} {p : Prog L σ α} (hp : p.Steps G)
    (hG : ∀ s s', G s s' → G' s s') (s : σ) :
    p.Sat R ok (Plain fun _ => G') (fun _ _ => True) s := by
  induction p generalizing s with
  | ret a => exact fun _ _ => trivial
  | act l f k ih => exact fun s₁ _ _ b s₂ hf => ⟨hG _ _ (hp.1 _ _ _ hf), ih b (hp.2 b) s₂⟩

/-- What is shown of such a program with another guarantee. -/
lemma Steps.guarantee {R : σ → σ → Prop} {ok : L → σ → Prop} {Φ : L → σ → σ → Prog L σ α → Prop}
    {Q : α → σ → Prop} {p : Prog L σ α} (hp : p.Steps G) {s : σ} (h : p.Sat R ok Φ Q s) :
    p.Sat R ok (Plain fun _ => G) Q s := by
  induction p generalizing s with
  | ret a => exact h
  | act l f k ih =>
    intro s₁ hr ho b s₂ hf
    exact ⟨hp.1 s₁ b s₂ hf, ih b (hp.2 b) (h s₁ hr ho b s₂ hf).2⟩

end Prog

/-- What is left of such programs in a run. -/
lemma steps_of_reaches {L σ α : Type} {G : Tid → σ → σ → Prop} {env : σ → σ → Prop}
    {ok : Tid → L → σ → Prop} {c c' : Config L σ α} (h : ∀ t, (c.threads t).Steps (G t))
    (hr : Reaches env ok c c') (t : Tid) : (c'.threads t).Steps (G t) := by
  induction hr with
  | refl => exact h t
  | tail _ hstep ih =>
    cases hstep with
    | env he => exact ih
    | run u hp ho hf =>
      by_cases hu : t = u
      · subst hu
        rw [hp] at ih
        simpa only [Function.update_self] using ih.2 _
      · simpa only [Function.update_of_ne hu] using ih

-- what the actions of a program do is shown by the rules; to unfold it would run the program
attribute [irreducible] Prog.Steps

end Concurrency

namespace ReadCommitted

open Concurrency

variable {K : Type} [DecidableEq K] {V : K → Type} {E L α β : Type}

/-! ## Sessions -/

namespace Tx

variable {t : Tid} {l : L}

/-- The rule of composition. -/
lemma steps_bind {G : Db V E → Db V E → Prop} {p : Tx L V E β} {k : β → Tx L V E α}
    (hp : p.run.Steps G) (hk : ∀ b, (k b).run.Steps G) : (p >>= k).run.Steps G := by
  refine Prog.Steps.bind hp fun r => ?_
  cases r with
  | ok b => exact hk b
  | error e => exact Prog.steps_ret _

/-- **The actions of a transaction** are those of its body, its begin and its end. -/
lemma steps_transaction {G : Db V E → Db V E → Prop} {body : Tx L V E (Bool × α)}
    (hbegin : ∀ d r d', Db.beginTx t d = some (r, d') → G d d')
    (hcommit : ∀ d r d', Db.commitTx t d = some (r, d') → G d d')
    (hrollback : ∀ d r d', Db.rollbackTx t d = some (r, d') → G d d') (h : body.run.Steps G) :
    (transaction t l body).run.Steps G := by
  refine steps_bind (p := beginTx t l) (Prog.steps_atomic hbegin) fun _ => ?_
  refine Prog.Steps.bind h fun r => ?_
  have hdrop : (rollback t l : Tx L V E Unit).run.Steps G := Prog.steps_atomic hrollback
  rcases r with e | ⟨_ | _, a⟩
  · exact steps_bind hdrop fun _ => Prog.steps_ret _
  · exact steps_bind hdrop fun _ => Prog.steps_ret _
  · exact steps_bind (p := commit t l) (Prog.steps_atomic hcommit) fun _ => Prog.steps_ret _

/-- The actions of the program are those of session `t`. -/
def Own (t : Tid) (p : Tx L V E α) : Prop := p.run.Steps (Moves (fun e => e.tid = t) t)

namespace Own

lemma pure (a : α) : Own t (Pure.pure a : Tx L V E α) := Prog.steps_ret _

lemma throw (e : String) : Own t (MonadExcept.throw e : Tx L V E α) := Prog.steps_ret _

/-- The rule of composition. -/
lemma bind {p : Tx L V E β} {k : β → Tx L V E α} (hp : Own t p) (hk : ∀ b, Own t (k b)) :
    Own t (p >>= k) := steps_bind hp hk

/-- A part that goes on after an error. -/
lemma recover {p : Tx L V E β} {k : Except String β → Tx L V E α} (hp : Own t p)
    (hk : ∀ r, Own t (k r)) : Own t (ExceptT.mk (p.run.bind fun r => (k r).run) : Tx L V E α) :=
  Prog.Steps.bind hp hk

end Own

lemma own_query {stmt : Stmt V E β} : Own t (query t l stmt) :=
  Prog.steps_atomic fun _ _ _ h => Db.query_moves h

lemma own_pool {stmt : Stmt V E β} : Own t (pool t l stmt) :=
  Prog.steps_atomic fun _ _ _ h => Db.pool_moves h fun _ _ _ => rfl

/-- **A transaction** whose body is made of the actions of its session. -/
lemma own_transaction {body : Tx L V E (Bool × α)} (h : Own t body) :
    Own t (transaction t l body) :=
  steps_transaction (fun _ _ _ => Db.beginTx_moves) (fun _ _ _ hc => Db.commitTx_moves hc fun _ _ => rfl)
    (fun _ _ _ => Db.rollbackTx_moves) h

end Tx

end ReadCommitted
