import RbphBackend.Concurrency.Alone
import RbphBackend.Concurrency.Transaction

set_option relaxedAutoImplicit false
set_option autoImplicit false
set_option linter.unusedSectionVars false

/-!
# Calls on an idle store

A call that runs while no other session has a transaction waits for nothing: what it answers and
what it leaves is computed from the committed rows and the clock, statement by statement.

## Main definitions

* `ReadCommitted.Quiet` — a store no row of which is held.
* `ReadCommitted.Solo` — the transaction of a session beside which there is no other one.
* `ReadCommitted.Plays`, `ReadCommitted.Halts`, `ReadCommitted.Answers` — what a part of a transaction,
  one that fails, and a call do there.
* `ReadCommitted.Misses` — what a call does not answer there.

## Main results

* `ReadCommitted.Answers.committed`, `ReadCommitted.Answers.dropped`, `ReadCommitted.Answers.failed` —
  a transaction.
* `ReadCommitted.Plays.bind`, `ReadCommitted.Answers.bind` — composition.
-/

namespace ReadCommitted

open Concurrency

variable {K : Type} [DecidableEq K] {V : K → Type} {E L α β : Type}

/-- No row of the store is held, and session `t` has no transaction. -/
structure Quiet (t : Tid) (now : ℤ) (v : (k : K) → V k) (d : Db V E) : Prop where
  free : ∀ k, (d.rows k).IsFree
  sess : d.sess t = none
  committed : d.committed = v
  now : d.now = now

/-- Session `t` has a transaction that has begun `now` and sees `v`; it may lock every row, and `v₀`
is committed. -/
structure Solo (t : Tid) (now : ℤ) (v₀ v : (k : K) → V k) (d : Db V E) : Prop where
  lockable : ∀ k, (d.rows k).Lockable t
  sess : ∃ S, d.sess t = some S ∧ S.start = now
  committed : d.committed = v₀
  view : d.view t = v
  now : d.now = now

/-- In such a transaction, `p` returns `a` and leaves the view `v'`. -/
def Plays (t : Tid) (p : Tx L V E α) (now : ℤ) (v : (k : K) → V k) (a : α)
    (v' : (k : K) → V k) : Prop :=
  ∀ v₀ d, Solo t now v₀ v d → ∃ d', p.run.alone d = some (.ok a, d') ∧ Solo t now v₀ v' d'

/-- In such a transaction, `p` fails with `e`, and leaves nothing committed. -/
def Halts (t : Tid) (p : Tx L V E α) (now : ℤ) (v : (k : K) → V k) (e : String) : Prop :=
  ∀ v₀ d, Solo t now v₀ v d → ∃ d', p.run.alone d = some (.error e, d') ∧
    (∀ k, (d'.rows k).Lockable t) ∧ d'.committed = v₀ ∧ d'.now = now

/-- In such a transaction, `p` ends so: it returns a value and leaves a view, or it fails. -/
def Ends (t : Tid) (p : Tx L V E α) (now : ℤ) (v : (k : K) → V k) :
    Except String (α × ((k : K) → V k)) → Prop
  | .ok (a, v') => Plays t p now v a v'
  | .error e => Halts t p now v e

/-- On a quiet store, `p` answers `r` and leaves `v'` committed. -/
def Answers (t : Tid) (p : Tx L V E α) (now : ℤ) (v : (k : K) → V k) (r : Except String α)
    (v' : (k : K) → V k) : Prop :=
  ∀ d, Quiet t now v d → ∃ d', p.run.alone d = some (r, d') ∧ Quiet t now v' d'

/-- A store that a run begins with is quiet. -/
lemma Quiet.init (t : Tid) (now : ℤ) (v : (k : K) → V k) : Quiet t now v (Db.init now v : Db V E) :=
  ⟨fun _ => trivial, rfl, rfl, rfl⟩

/-! ## Statements -/

section Statements

variable {t : Tid} {now : ℤ} {v : (k : K) → V k} {S : Session E} {d : Db V E} {l : L}

lemma Row.IsFree.lockable {γ : Type} {r : Row γ} (h : r.IsFree) : r.Lockable t := by
  cases r with
  | free v => trivial
  | held u v w => exact h.elim

/-- A row that the session may lock and that its transaction has given up is free. -/
private lemma isFree_release {γ : Type} {r : Row γ} {x : γ} (h : r.Lockable t) :
    (if r.HeldBy t then .free x else r : Row γ).IsFree := by
  cases r with
  | free v => trivial
  | held u v w =>
    rw [if_pos (show (Row.held u v w).HeldBy t from h)]
    trivial

/-- The rows a statement takes are the session's. -/
lemma Db.lockable_afterQuery {eff : Effect V E β} (h : ∀ k, (d.rows k).Lockable t) (k : K) :
    ((d.afterQuery t S eff).rows k).Lockable t := by
  by_cases hk : k ∈ eff.puts.map (·.1)
  · have hrow : (d.afterQuery t S eff).rows k = .held t (d.rows k).committed
        (applyPuts eff.puts (d.view t) k) := Db.putRows_of_mem hk
    rw [hrow]
    rfl
  · have hrow : (d.afterQuery t S eff).rows k = d.rows k := Db.putRows_of_notMem hk
    rw [hrow]
    exact h k

/-- **A statement that succeeds.** -/
lemma Plays.query {stmt : Stmt V E β} {eff : Effect V E β} (h : stmt v now = .ok eff) :
    Plays t (Tx.query t l stmt : Tx L V E β) now v eff.val (applyPuts eff.puts v) := by
  intro v₀ d hd
  obtain ⟨S, hS, hstart⟩ := hd.sess
  have hstmt : stmt (d.view t) S.start = .ok eff := by rw [hd.view, hstart, h]
  refine ⟨d.afterQuery t S eff, ?_, Db.lockable_afterQuery hd.lockable, ⟨_, Db.afterQuery_sess, hstart⟩,
    Db.afterQuery_committed.trans hd.committed, ?_, hd.now⟩
  · rw [Tx.query, Fallible.alone_atomic, Db.query, hS]
    simp only [hstmt]
    rw [if_pos fun k _ => hd.lockable k]
    rfl
  · rw [Db.view_afterQuery, hd.view]

/-- A statement that only reads. -/
lemma Plays.read {f : ((k : K) → V k) → ℤ → Except String β} {b : β} (h : f v now = .ok b) :
    Plays t (Tx.query t l (Stmt.read f) : Tx L V E β) now v b v :=
  Plays.query (Stmt.read_eq_ok.2 ⟨b, h, rfl⟩)

/-- A part that has ended. -/
lemma Plays.pure (a : α) : Plays t (Pure.pure a : Tx L V E α) now v a v :=
  fun _ d hd => ⟨d, rfl, hd⟩

/-- **Composition.** -/
lemma Plays.bind {p : Tx L V E β} {k : β → Tx L V E α} {b : β} {a : α} {v₁ v₂ : (k : K) → V k}
    (hp : Plays t p now v b v₁) (hk : Plays t (k b) now v₁ a v₂) :
    Plays t (p >>= k) now v a v₂ := by
  intro v₀ d hd
  obtain ⟨d₁, h₁, hd₁⟩ := hp v₀ d hd
  obtain ⟨d₂, h₂, hd₂⟩ := hk v₀ d₁ hd₁
  refine ⟨d₂, ?_, hd₂⟩
  rw [Fallible.alone_bind, h₁]
  exact h₂

/-- **A statement that fails.** -/
lemma Halts.query {stmt : Stmt V E β} {e : String} (h : stmt v now = .error e) :
    Halts t (Tx.query t l stmt : Tx L V E β) now v e := by
  intro v₀ d hd
  obtain ⟨S, hS, hstart⟩ := hd.sess
  have hstmt : stmt (d.view t) S.start = .error e := by rw [hd.view, hstart, h]
  refine ⟨d.rollback t, ?_, fun k => (isFree_release (hd.lockable k)).lockable,
    Db.rollback_committed.trans hd.committed, hd.now⟩
  rw [Tx.query, Fallible.alone_atomic, Db.query, hS]
  simp only [hstmt]

/-- A part that ends with an error. -/
lemma Halts.throw (e : String) : Halts t (MonadExcept.throw e : Tx L V E α) now v e :=
  fun _ d hd => ⟨d, rfl, hd.lockable, hd.committed, hd.now⟩

/-- What follows a part that fails is not run. -/
lemma Halts.bind {p : Tx L V E β} {k : β → Tx L V E α} {e : String} (hp : Halts t p now v e) :
    Halts t (p >>= k) now v e := by
  intro v₀ d hd
  obtain ⟨d', h, hd'⟩ := hp v₀ d hd
  refine ⟨d', ?_, hd'⟩
  rw [Fallible.alone_bind, h]
  rfl

/-- A part that fails after another one. -/
lemma Plays.halts {p : Tx L V E β} {k : β → Tx L V E α} {b : β} {v₁ : (k : K) → V k} {e : String}
    (hp : Plays t p now v b v₁) (hk : Halts t (k b) now v₁ e) : Halts t (p >>= k) now v e := by
  intro v₀ d hd
  obtain ⟨d₁, h₁, hd₁⟩ := hp v₀ d hd
  obtain ⟨d₂, h₂, hd₂⟩ := hk v₀ d₁ hd₁
  refine ⟨d₂, ?_, hd₂⟩
  rw [Fallible.alone_bind, h₁]
  exact h₂

/-- A part that ends after another one. -/
lemma Plays.ends {p : Tx L V E β} {k : β → Tx L V E α} {b : β} {v₁ : (k : K) → V k}
    {r : Except String (α × ((k : K) → V k))} (hp : Plays t p now v b v₁)
    (hk : Ends t (k b) now v₁ r) : Ends t (p >>= k) now v r := by
  cases r with
  | ok r => exact Plays.bind hp hk
  | error e => exact Plays.halts hp hk

/-- What a part returns is changed without a statement. -/
lemma Ends.map {p : Tx L V E β} {f : β → α} {r : Except String (β × ((k : K) → V k))}
    (h : Ends t p now v r) :
    Ends t (p >>= fun b => Pure.pure (f b)) now v (r.map fun r => (f r.1, r.2)) := by
  cases r with
  | ok r => exact Plays.bind h (Plays.pure _)
  | error e => exact Halts.bind h

/-! ## Calls -/

/-- A call that has ended. -/
lemma Answers.pure (a : α) : Answers t (Pure.pure a : Tx L V E α) now v (.ok a) v :=
  fun d hd => ⟨d, rfl, hd⟩

/-- A call that has ended with an error. -/
lemma Answers.throw (e : String) :
    Answers t (MonadExcept.throw e : Tx L V E α) now v (.error e) v :=
  fun d hd => ⟨d, rfl, hd⟩

/-- **Composition.** -/
lemma Answers.bind {p : Tx L V E β} {k : β → Tx L V E α} {b : β} {r : Except String α}
    {v₁ v₂ : (k : K) → V k} (hp : Answers t p now v (.ok b) v₁)
    (hk : Answers t (k b) now v₁ r v₂) : Answers t (p >>= k) now v r v₂ := by
  intro d hd
  obtain ⟨d₁, h₁, hd₁⟩ := hp d hd
  obtain ⟨d₂, h₂, hd₂⟩ := hk d₁ hd₁
  refine ⟨d₂, ?_, hd₂⟩
  rw [Fallible.alone_bind, h₁]
  exact h₂

/-- A statement of its own that only reads. -/
lemma Answers.pool_read {f : ((k : K) → V k) → ℤ → Except String β} {b : β}
    (h : f v now = .ok b) :
    Answers t (Tx.pool t l (Stmt.read f) : Tx L V E β) now v (.ok b) v := by
  intro d hd
  refine ⟨d, ?_, hd⟩
  have hstmt : (Stmt.read f : Stmt V E β) d.committed d.now = .ok { val := b } :=
    Stmt.read_eq_ok.2 ⟨b, by rw [hd.committed, hd.now, h], rfl⟩
  rw [Tx.pool, Fallible.alone_atomic, Db.pool, hstmt]
  simp [Effect.keys]

/-- The transaction begins. -/
private lemma alone_beginTx (hd : Quiet t now v d) :
    ∃ d', (Tx.beginTx t l : Tx L V E Unit).run.alone d = some (.ok (), d') ∧
      Solo t now v v d' := by
  have hview : d.view t = d.committed := by
    funext k
    exact Db.view_of_not_heldBy (hd.free k).not_heldBy
  refine ⟨{ d with sess := Function.update d.sess t (some ⟨d.now, []⟩) }, ?_,
    fun k => (hd.free k).lockable, ⟨_, Function.update_self .., hd.now⟩, hd.committed,
    hview.trans hd.committed, hd.now⟩
  rw [Tx.beginTx, Fallible.alone_atomic, Db.beginTx, hd.sess]

/-- The end of a transaction, by what its body has answered. -/
private lemma alone_transaction {body : Tx L V E (Bool × α)} {d₁ d₂ d' : Db V E}
    {r : Except String (Bool × α)} {q : Except String α}
    (hbegin : (Tx.beginTx t l : Tx L V E Unit).run.alone d = some (.ok (), d₁))
    (hbody : body.run.alone d₁ = some (r, d₂))
    (hend : (Tx.finish t l r : Tx L V E α).run.alone d₂ = some (q, d')) :
    (Tx.transaction t l body).run.alone d = some (q, d') := by
  rw [Tx.transaction, Fallible.alone_bind, hbegin]
  show Prog.alone (Prog.bind _ _) d₁ = _
  rw [Prog.alone_bind, hbody]
  exact hend

/-- **A transaction that is committed.** -/
lemma Answers.committed {body : Tx L V E (Bool × α)} {a : α} {v' : (k : K) → V k}
    (h : Plays t body now v (true, a) v') :
    Answers t (Tx.transaction t l body : Tx L V E α) now v (.ok a) v' := by
  intro d hd
  obtain ⟨d₁, hbegin, hd₁⟩ := alone_beginTx (l := l) hd
  obtain ⟨d₂, hbody, hd₂⟩ := h v d₁ hd₁
  obtain ⟨S, hS, -⟩ := hd₂.sess
  refine ⟨d₂.afterCommit t S, alone_transaction hbegin hbody ?_,
    fun k => isFree_release (hd₂.lockable k), by simp [Db.afterCommit], ?_, hd₂.now⟩
  · rw [Tx.finish, Fallible.alone_bind, Tx.commit, Fallible.alone_atomic, Db.commitTx, hS]
    rfl
  · rw [Db.afterCommit_committed, hd₂.view]

/-- **A transaction that is dropped.** -/
lemma Answers.dropped {body : Tx L V E (Bool × α)} {a : α} {v' : (k : K) → V k}
    (h : Plays t body now v (false, a) v') :
    Answers t (Tx.transaction t l body : Tx L V E α) now v (.ok a) v := by
  intro d hd
  obtain ⟨d₁, hbegin, hd₁⟩ := alone_beginTx (l := l) hd
  obtain ⟨d₂, hbody, hd₂⟩ := h v d₁ hd₁
  refine ⟨d₂.rollback t, alone_transaction hbegin hbody ?_,
    fun k => isFree_release (hd₂.lockable k), Db.noTx_rollback, ?_, hd₂.now⟩
  · rw [Tx.finish, Fallible.alone_bind, Tx.rollback, Fallible.alone_atomic, Db.rollbackTx]
    rfl
  · rw [Db.rollback_committed, hd₂.committed]

/-- **A transaction that fails.** -/
lemma Answers.failed {body : Tx L V E (Bool × α)} {e : String} (h : Halts t body now v e) :
    Answers t (Tx.transaction t l body : Tx L V E α) now v (.error e) v := by
  intro d hd
  obtain ⟨d₁, hbegin, hd₁⟩ := alone_beginTx (l := l) hd
  obtain ⟨d₂, hbody, hrows, hcommitted, hnow⟩ := h v d₁ hd₁
  refine ⟨d₂.rollback t, alone_transaction hbegin hbody ?_,
    fun k => isFree_release (hrows k), Db.noTx_rollback, ?_, hnow⟩
  · rw [Tx.finish, Fallible.alone_bind, Tx.rollback, Fallible.alone_atomic, Db.rollbackTx]
    rfl
  · rw [Db.rollback_committed, hcommitted]

/-- On a quiet store, `p` does not answer `a`. -/
def Misses (t : Tid) (p : Tx L V E α) (now : ℤ) (v : (k : K) → V k) (a : α) : Prop :=
  ∀ d d', Quiet t now v d → p.run.alone d ≠ some (.ok a, d')

/-- A program that never returns it. -/
lemma Misses.of_never {p : Tx L V E α} {a : α} (h : Fallible.Never p a) : Misses t p now v a :=
  fun d d' _ => h d d'

/-- What follows a part that has answered does not answer it. -/
lemma Misses.bind {p : Tx L V E β} {k : β → Tx L V E α} {b : β} {a : α} {v₁ : (k : K) → V k}
    (hp : Answers t p now v (.ok b) v₁) (hk : Misses t (k b) now v₁ a) :
    Misses t (p >>= k) now v a := by
  intro d d' hd heq
  obtain ⟨d₁, h₁, hd₁⟩ := hp d hd
  rw [Fallible.alone_bind, h₁] at heq
  exact hk d₁ d' hd₁ heq

lemma Misses.not_answers {p : Tx L V E α} {a : α} {v' : (k : K) → V k} (h : Misses t p now v a) :
    ¬ Answers t p now v (.ok a) v' := by
  intro ha
  obtain ⟨d', heq, -⟩ := ha _ (Quiet.init t now v)
  exact h _ _ (Quiet.init t now v) heq

/-- A call answers once. -/
lemma Answers.unique {p : Tx L V E α} {r r' : Except String α} {v₁ v₂ : (k : K) → V k}
    (h : Answers t p now v r v₁) (h' : Answers t p now v r' v₂) : r = r' ∧ v₁ = v₂ := by
  obtain ⟨d₁, heq, hd₁⟩ := h _ (Quiet.init t now v)
  obtain ⟨d₂, heq', hd₂⟩ := h' _ (Quiet.init t now v)
  rw [heq] at heq'
  cases heq'
  exact ⟨rfl, hd₁.committed.symm.trans hd₂.committed⟩

end Statements

end ReadCommitted
