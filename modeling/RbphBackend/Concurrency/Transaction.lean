import RbphBackend.Concurrency.Fallible
import RbphBackend.Concurrency.Journal

set_option relaxedAutoImplicit false
set_option autoImplicit false
set_option linter.unusedSectionVars false

/-!
# Programs of database sessions

The programs of a session are fallible programs whose actions are those of the store. This file
has the proof rules: what a session knows while its transaction is open (`InTx`, `Pinned`) is stable,
and each action takes one such assertion to the next.

## Main definitions

* `ReadCommitted.Tx` — session programs; `Tx.beginTx`, `Tx.query`, `Tx.commit`, `Tx.rollback`,
  `Tx.pool` — their actions.
* `ReadCommitted.InTx`, `ReadCommitted.NoTx`, `ReadCommitted.Pinned` — a session's transaction is
  open, with these log records and at most these rows; it has none; it holds a row, with these
  versions.
* `ReadCommitted.commitsOf` — the commits of one session.

## Main results

* `ReadCommitted.Tx.query_triple`, `ReadCommitted.Tx.pool_triple`,
  `ReadCommitted.Tx.commit_triple`, `ReadCommitted.Tx.transaction_triple` — the rules.
-/

namespace ReadCommitted

open Concurrency

variable {K : Type} [DecidableEq K] {V : K → Type} {E L α β : Type}

/-! ## The programs -/

/-- A session program: it ends with a result or with an error. -/
abbrev Tx (L : Type) (V : K → Type) (E α : Type) : Type 1 := Fallible L (Db V E) α

namespace Tx

/-- Open the transaction of session `t`. -/
def beginTx (t : Tid) (l : L) : Tx L V E Unit := ExceptT.mk (.atomic l (Db.beginTx t))

/-- Run a statement in it. -/
def query (t : Tid) (l : L) (stmt : Stmt V E β) : Tx L V E β :=
  ExceptT.mk (.atomic l (Db.query t stmt))

/-- Commit it. -/
def commit (t : Tid) (l : L) : Tx L V E Unit := ExceptT.mk (.atomic l (Db.commitTx t))

/-- Drop it. -/
def rollback (t : Tid) (l : L) : Tx L V E Unit := ExceptT.mk (.atomic l (Db.rollbackTx t))

/-- Run a statement outside it, as a transaction of its own. -/
def pool (t : Tid) (l : L) (stmt : Stmt V E β) : Tx L V E β :=
  ExceptT.mk (.atomic l (Db.pool t stmt))

/-- End a transaction as its body says: commit it where the body asks for it, drop it where the
body does not or has ended with an error. -/
def finish (t : Tid) (l : L) : Except String (Bool × α) → Tx L V E α
  | .ok (true, a) => do commit t l; return a
  | .ok (false, a) => do rollback t l; return a
  | .error e => do rollback t l; throw e

/-- Open a transaction, run `body` in it and end it. -/
def transaction (t : Tid) (l : L) (body : Tx L V E (Bool × α)) : Tx L V E α := do
  beginTx t l
  ExceptT.mk (body.run.bind fun r => (finish t l r).run)

end Tx

/-- A statement that only reads. -/
def Stmt.read (f : ((k : K) → V k) → ℤ → Except String β) : Stmt V E β :=
  fun v now => (f v now).map fun b => { val := b }

@[simp] lemma Stmt.read_eq_ok {f : ((k : K) → V k) → ℤ → Except String β} {v : (k : K) → V k}
    {now : ℤ} {eff : Effect V E β} :
    Stmt.read f v now = .ok eff ↔ ∃ b, f v now = .ok b ∧ eff = { val := b } := by
  unfold Stmt.read
  cases f v now with
  | error e => simp [Except.map]
  | ok b => simp [Except.map, eq_comm]

@[simp] lemma Stmt.read_eq_error {f : ((k : K) → V k) → ℤ → Except String β} {v : (k : K) → V k}
    {now : ℤ} {e : String} : (Stmt.read f : Stmt V E β) v now = .error e ↔ f v now = .error e := by
  unfold Stmt.read
  cases f v now <;> simp [Except.map]

/-! ## What a session knows -/

/-- The commits of session `t`. -/
def commitsOf (t : Tid) (d : Db V E) : List (Commit V E) := d.journal.filter (·.tid = t)

/-- Session `t` has no open transaction. -/
def NoTx (t : Tid) (d : Db V E) : Prop := d.sess t = none

/-- The transaction `S` of session `t` is open and holds no rows but `H`. -/
structure InTx (t : Tid) (S : Session E) (H : List K) (d : Db V E) : Prop where
  sess : d.sess t = some S
  held : ∀ k, (d.rows k).HeldBy t → k ∈ H

/-- Session `t` holds row `k`, committed as `x` and made into `y`. -/
def Pinned (t : Tid) (k : K) (x y : V k) (d : Db V E) : Prop := d.rows k = .held t x y

lemma Pinned.heldBy {t : Tid} {k : K} {x y : V k} {d : Db V E} (h : Pinned t k x y d) :
    (d.rows k).HeldBy t := by rw [Pinned] at h; simp [h]

@[simp] lemma Pinned.committed {t : Tid} {k : K} {x y : V k} {d : Db V E}
    (h : Pinned t k x y d) : d.committed k = x := by rw [Pinned] at h; simp [Db.committed, h]

@[simp] lemma Pinned.view {t : Tid} {k : K} {x y : V k} {d : Db V E} (h : Pinned t k x y d) :
    d.view t k = y := by rw [Pinned] at h; simp [Db.view, h]

/-- A transaction sees the committed version of a row it does not hold. -/
lemma InTx.view_of_notMem {t : Tid} {S : Session E} {H : List K} {d : Db V E}
    (h : InTx t S H d) {k : K} (hk : k ∉ H) : d.view t k = d.committed k :=
  Db.view_of_not_heldBy fun hh => hk (h.held k hh)

section Stable

variable {R : Db V E → Db V E → Prop} {t : Tid} [IsRely t R]

lemma stable_noTx : Stable R (NoTx t : Db V E → Prop) :=
  fun _ _ h hr => (IsRely.keeps (t := t) hr).sess.trans h

lemma stable_inTx {S : Session E} {H : List K} :
    Stable R (InTx t S H : Db V E → Prop) := by
  intro d d' h hr
  refine ⟨(IsRely.keeps (t := t) hr).sess.trans h.sess, fun k hk => h.held k ?_⟩
  rwa [(IsRely.keeps (t := t) hr).held k (.inr hk)] at hk

lemma stable_pinned {k : K} {x y : V k} :
    Stable R (Pinned t k x y : Db V E → Prop) :=
  fun _ _ h hr => ((IsRely.keeps (t := t) hr).held k (.inl h.heldBy)).trans h

/-- The others do not commit for `t`. -/
lemma commitsOf_rely {d d' : Db V E} (hr : R d d') : commitsOf t d' = commitsOf t d := by
  obtain ⟨l, hl, hn⟩ := (IsRely.keeps (t := t) hr).journal
  have hnone : l.filter (·.tid = t) = [] := by simpa [List.filter_eq_nil_iff] using hn
  rw [commitsOf, hl, List.filter_append, hnone, List.append_nil, commitsOf]

lemma stable_commitsOf {p : List (Commit V E) → Prop} :
    Stable R fun d : Db V E => p (commitsOf t d) := by
  intro d d' h hr
  rwa [commitsOf_rely hr]

end Stable

/-! ## What an action of the session leaves -/

namespace Db

variable {t : Tid} {d : Db V E} {S : Session E} {H : List K}

/-- The store after a statement of the open transaction `S` has taken effect. -/
def afterQuery (t : Tid) (S : Session E) (eff : Effect V E β) (d : Db V E) : Db V E :=
  { d with
    rows := d.putRows t eff.puts
    sess := Function.update d.sess t (some { S with inserted := S.inserted ++ eff.inserts }) }

/-- The store after the commit of the open transaction `S`. -/
def afterCommit (t : Tid) (S : Session E) (d : Db V E) : Db V E :=
  { d with
    rows := fun k => if (d.rows k).HeldBy t then .free (d.view t k) else d.rows k
    sess := Function.update d.sess t none
    journal := d.journal ++ [⟨t, S.start, d.committed, d.view t, S.inserted⟩] }

/-- The store after a statement that is a transaction of its own. -/
def afterPool (t : Tid) (eff : Effect V E β) (d : Db V E) : Db V E :=
  { d with
    rows := fun k => if k ∈ eff.keys then .free (applyPuts eff.puts d.committed k) else d.rows k
    journal := d.journal ++
      [⟨t, d.now, d.committed, applyPuts eff.puts d.committed, eff.inserts⟩] }

variable {eff : Effect V E β}

@[simp] lemma afterQuery_committed : (d.afterQuery t S eff).committed = d.committed := by
  funext k
  by_cases hm : k ∈ eff.puts.map (·.1) <;> simp [afterQuery, committed, putRows, hm]

@[simp] lemma afterQuery_commitsOf (u : Tid) :
    commitsOf u (d.afterQuery t S eff) = commitsOf u d := rfl

@[simp] lemma afterQuery_now : (d.afterQuery t S eff).now = d.now := rfl

@[simp] lemma afterQuery_sess : (d.afterQuery t S eff).sess t =
    some { S with inserted := S.inserted ++ eff.inserts } := by simp [afterQuery]

/-- A statement that writes, locks and logs nothing. -/
lemma afterQuery_of_empty (hS : d.sess t = some S) (hp : eff.puts = []) (hi : eff.inserts = []) :
    d.afterQuery t S eff = d := by
  have hs : Function.update d.sess t (some S) = d.sess := by
    rw [← hS, Function.update_eq_self]
  cases d
  simp only [afterQuery, hp, hi, List.append_nil, Db.mk.injEq, true_and, and_true] at hs ⊢
  exact ⟨funext fun k => putRows_of_notMem (by simp), hs⟩

lemma inTx_afterQuery (h : InTx t S H d) :
    InTx t { S with inserted := S.inserted ++ eff.inserts } (eff.keys ++ H)
      (d.afterQuery t S eff) := by
  refine ⟨by simp [afterQuery], fun k hk => ?_⟩
  by_cases hm : k ∈ eff.puts.map (·.1)
  · exact List.mem_append_left _ hm
  · have hrow : (d.afterQuery t S eff).rows k = d.rows k := putRows_of_notMem hm
    rw [hrow] at hk
    exact List.mem_append_right _ (h.held k hk)

lemma pinned_afterQuery {k : K} (hk : k ∈ eff.keys) :
    Pinned t k (d.committed k) (applyPuts eff.puts (d.view t) k) (d.afterQuery t S eff) :=
  putRows_of_mem hk

/-- What the transaction sees after its statement. -/
lemma view_afterQuery :
    (d.afterQuery t S eff).view t = applyPuts eff.puts (d.view t) := by
  funext k
  by_cases hk : k ∈ eff.puts.map (·.1)
  · have h : (d.afterQuery t S eff).rows k = .held t (d.rows k).committed
        (applyPuts eff.puts (d.view t) k) := putRows_of_mem hk
    simp [view, h]
  · have h : (d.afterQuery t S eff).rows k = d.rows k := putRows_of_notMem hk
    rw [applyPuts_of_notMem hk, view, h, view]

/-- The one row a statement writes. -/
lemma pinned_write {k : K} {x : V k} {b : β} {l : List E} :
    Pinned t k (d.committed k) x
      (d.afterQuery t S { val := b, puts := [⟨k, x⟩], inserts := l }) := by
  have h : Pinned t k (d.committed k) (applyPuts [⟨k, x⟩] (d.view t) k)
      (d.afterQuery t S { val := b, puts := [⟨k, x⟩], inserts := l }) :=
    pinned_afterQuery (by simp [Effect.keys])
  simpa using h

/-- A row locked as it is seen. -/
lemma pinned_of_locks {k : K} (hk : k ∈ eff.keys) (hl : ∀ p ∈ eff.puts, p.2 = d.view t p.1) :
    Pinned t k (d.committed k) (d.view t k) (d.afterQuery t S eff) := by
  have h := pinned_afterQuery (S := S) (d := d) (t := t) hk
  rwa [applyPuts_of_locks hl] at h

/-- A held row stays as it is while other rows are written. -/
lemma pinned_afterQuery_of_notMem {k : K} {x y : V k} (h : Pinned t k x y d)
    (hk : k ∉ eff.keys) : Pinned t k x y (d.afterQuery t S eff) :=
  (putRows_of_notMem hk).trans h

@[simp] lemma noTx_rollback : NoTx t (d.rollback t) := by simp [NoTx, rollback]

@[simp] lemma rollback_committed : (d.rollback t).committed = d.committed := by
  funext k
  by_cases hh : (d.rows k).HeldBy t <;> simp [rollback, committed, hh]

@[simp] lemma rollback_commitsOf (u : Tid) : commitsOf u (d.rollback t) = commitsOf u d := rfl

@[simp] lemma noTx_afterCommit : NoTx t (d.afterCommit t S) := by simp [NoTx, afterCommit]

@[simp] lemma afterCommit_committed : (d.afterCommit t S).committed = d.view t := by
  funext k
  by_cases hh : (d.rows k).HeldBy t
  · simp [afterCommit, committed, hh]
  · simp [afterCommit, committed, hh, view_of_not_heldBy hh]

@[simp] lemma afterCommit_commitsOf : commitsOf t (d.afterCommit t S) =
    commitsOf t d ++ [⟨t, S.start, d.committed, d.view t, S.inserted⟩] := by
  simp [commitsOf, afterCommit]

@[simp] lemma noTx_afterPool : NoTx t (d.afterPool t eff) ↔ NoTx t d := Iff.rfl

@[simp] lemma afterPool_committed :
    (d.afterPool t eff).committed = applyPuts eff.puts d.committed := by
  funext k
  by_cases hm : k ∈ eff.keys
  · simp [afterPool, committed, hm]
  · rw [applyPuts_of_notMem hm]
    simp [afterPool, committed, hm]

@[simp] lemma afterPool_commitsOf : commitsOf t (d.afterPool t eff) =
    commitsOf t d ++
      [⟨t, d.now, d.committed, applyPuts eff.puts d.committed, eff.inserts⟩] := by
  simp [commitsOf, afterPool]

end Db

/-! ## The rules -/

namespace Tx

variable {ok : L → Db V E → Prop} {A : Db V E → Prop} {F : String → Db V E → Prop}

section Actions

variable {t : Tid} {l : L} {P : Db V E → Commit V E → Prop} {R : Db V E → Db V E → Prop}
  [IsRely t R]

/-- A session that has no transaction opens one: it holds no rows yet. -/
lemma beginTx_triple {B : Db V E → Prop} (hwf : ∀ d, ok l d → d.WF) (hA : Stable R A)
    (hB : Stable R B) (hF : ∀ e, Stable R (F e))
    (h : ∀ d d', A d → ok l d → NoTx t d → InTx t ⟨d.now, []⟩ [] d' → d'.committed = d.committed →
      d'.journal = d.journal → d'.now = d.now → B d') :
    Prog.Triple R ok (Plain fun _ d d' => Moves (P d) t d d') A (beginTx t l : Tx L V E Unit).run
      (Post (fun _ => B) F) := by
  refine Fallible.atomic_triple hA (stable_post (fun _ => hB) hF) fun d r d' ha ho hf => ?_
  refine ⟨Db.beginTx_moves hf, ?_⟩
  obtain ⟨hs, rfl, rfl⟩ := Db.beginTx_eq hf
  refine h d _ ha ho hs ⟨by simp, fun k hk => ?_⟩ rfl rfl rfl
  exact absurd hs (hwf d ho k t hk)

/-- A statement of an open transaction. -/
lemma query_triple {stmt : Stmt V E β} {B : β → Db V E → Prop} (hA : Stable R A)
    (hB : ∀ b, Stable R (B b)) (hF : ∀ e, Stable R (F e))
    (hopen : ∀ d, A d → ¬ NoTx t d)
    (hok : ∀ d S eff, A d → ok l d → d.sess t = some S → stmt (d.view t) S.start = .ok eff →
      B eff.val (d.afterQuery t S eff))
    (herr : ∀ d S e, A d → ok l d → d.sess t = some S → stmt (d.view t) S.start = .error e →
      F e (d.rollback t)) :
    Prog.Triple R ok (Plain fun _ d d' => Moves (P d) t d d') A (query t l stmt : Tx L V E β).run
      (Post B F) := by
  refine Fallible.atomic_triple hA (stable_post hB hF) fun d r d' ha ho hf => ?_
  refine ⟨Db.query_moves hf, ?_⟩
  rcases Db.query_cases hf with ⟨hs, -, -⟩ | ⟨S, hS, ⟨e, he, rfl, rfl⟩ | ⟨eff, he, rfl, -, rfl⟩⟩
  · exact absurd hs (hopen d ha)
  · exact herr d S e ha ho hS he
  · exact hok d S eff ha ho hS he

/-- The commit of an open transaction. -/
lemma commit_triple {B : Db V E → Prop} (hA : Stable R A) (hB : Stable R B)
    (hF : ∀ e, Stable R (F e)) (hopen : ∀ d, A d → ok l d → ¬ NoTx t d)
    (h : ∀ d S, A d → ok l d → d.sess t = some S →
      P d ⟨t, S.start, d.committed, d.view t, S.inserted⟩ ∧ B (d.afterCommit t S)) :
    Prog.Triple R ok (Plain fun _ d d' => Moves (P d) t d d') A (commit t l : Tx L V E Unit).run
      (Post (fun _ => B) F) := by
  refine Fallible.atomic_triple hA (stable_post (fun _ => hB) hF) fun d r d' ha ho hf => ?_
  refine ⟨Db.commitTx_moves hf fun S hS => (h d S ha ho hS).1, ?_⟩
  rcases Db.commitTx_cases hf with ⟨hs, -, -⟩ | ⟨S, hS, rfl, rfl⟩
  · exact absurd hs (hopen d ha ho)
  · exact (h d S ha ho hS).2

/-- Dropping the transaction, if there is one. -/
lemma rollback_triple {B : Db V E → Prop} (hA : Stable R A) (hB : Stable R B)
    (hF : ∀ e, Stable R (F e)) (h : ∀ d, A d → ok l d → B (d.rollback t)) :
    Prog.Triple R ok (Plain fun _ d d' => Moves (P d) t d d') A (rollback t l : Tx L V E Unit).run
      (Post (fun _ => B) F) := by
  refine Fallible.atomic_triple hA (stable_post (fun _ => hB) hF) fun d r d' ha ho hf => ?_
  refine ⟨Db.rollbackTx_moves hf, ?_⟩
  obtain ⟨rfl, rfl⟩ := Db.rollbackTx_eq hf
  exact h d ha ho

/-- A statement that is a transaction of its own. -/
lemma pool_triple {stmt : Stmt V E β} {B : β → Db V E → Prop} (hA : Stable R A)
    (hB : ∀ b, Stable R (B b)) (hF : ∀ e, Stable R (F e))
    (hread : ∀ d eff, A d → ok l d → stmt d.committed d.now = .ok eff → eff.puts = [] →
      eff.inserts = [] → B eff.val d)
    (hwrite : ∀ d eff, A d → ok l d → stmt d.committed d.now = .ok eff →
      (eff.puts ≠ [] ∨ eff.inserts ≠ []) →
      P d ⟨t, d.now, d.committed, applyPuts eff.puts d.committed, eff.inserts⟩ ∧
        B eff.val (d.afterPool t eff))
    (herr : ∀ d e, A d → ok l d → stmt d.committed d.now = .error e → F e d) :
    Prog.Triple R ok (Plain fun _ d d' => Moves (P d) t d d') A (pool t l stmt : Tx L V E β).run
      (Post B F) := by
  refine Fallible.atomic_triple hA (stable_post hB hF) fun d r d' ha ho hf => ?_
  refine ⟨Db.pool_moves hf fun eff he hne => (hwrite d eff ha ho he hne).1, ?_⟩
  rcases Db.pool_cases hf with ⟨e, he, rfl, rfl⟩ | ⟨eff, he, rfl, -, ⟨hp, hi, rfl⟩ | ⟨hne, rfl⟩⟩
  · exact herr d' e ha ho he
  · exact hread d' eff ha ho he hp hi
  · exact (hwrite d eff ha ho he hne).2

/-- A statement outside the transaction that only reads. -/
lemma pool_read_triple {f : ((k : K) → V k) → ℤ → Except String β} {B : β → Db V E → Prop}
    (hA : Stable R A) (hB : ∀ b, Stable R (B b))
    (hF : ∀ e, Stable R (F e))
    (hok : ∀ d b, A d → ok l d → f d.committed d.now = .ok b → B b d)
    (herr : ∀ d e, A d → ok l d → f d.committed d.now = .error e → F e d) :
    Prog.Triple R ok (Plain fun _ d d' => Moves (P d) t d d') A
      (pool t l (Stmt.read f) : Tx L V E β).run (Post B F) := by
  refine pool_triple hA hB hF (fun d eff ha ho he _ _ => ?_) (fun d eff ha ho he hne => ?_)
    fun d e ha ho he => herr d e ha ho (by simpa using he)
  · obtain ⟨b, hb, rfl⟩ := Stmt.read_eq_ok.mp he
    exact hok d b ha ho hb
  · obtain ⟨b, -, rfl⟩ := Stmt.read_eq_ok.mp he
    simp at hne

/-- A statement of the transaction that only reads leaves it as it is. -/
lemma query_read_triple {f : ((k : K) → V k) → ℤ → Except String β} {B : β → Db V E → Prop}
    (hA : Stable R A) (hB : ∀ b, Stable R (B b))
    (hF : ∀ e, Stable R (F e)) (hopen : ∀ d, A d → ¬ NoTx t d)
    (hok : ∀ d S b, A d → ok l d → d.sess t = some S → f (d.view t) S.start = .ok b → B b d)
    (herr : ∀ d S e, A d → ok l d → d.sess t = some S → f (d.view t) S.start = .error e →
      F e (d.rollback t)) :
    Prog.Triple R ok (Plain fun _ d d' => Moves (P d) t d d') A
      (query t l (Stmt.read f) : Tx L V E β).run (Post B F) := by
  refine query_triple hA hB hF hopen (fun d S eff ha ho hS he => ?_)
    fun d S e ha ho hS he => herr d S e ha ho hS (by simpa using he)
  obtain ⟨b, hb, rfl⟩ := Stmt.read_eq_ok.mp he
  rw [Db.afterQuery_of_empty hS rfl rfl]
  exact hok d S b ha ho hS hb

/-- **The rule of a transaction**: what holds once it is open, what its body leaves, and what holds
after it is committed or dropped. -/
lemma transaction_triple {G : Db V E → Prop} {B : Bool × α → Db V E → Prop}
    {Q : Except String α → Db V E → Prop} {body : Tx L V E (Bool × α)}
    (hwf : ∀ d, ok l d → d.WF) (hA : Stable R A) (hG : Stable R G)
    (hB : ∀ r, Stable R (B r)) (hF : ∀ e, Stable R (F e))
    (hQ : ∀ r, Stable R (Q r))
    (hbegin : ∀ d d', A d → ok l d → NoTx t d → InTx t ⟨d.now, []⟩ [] d' →
      d'.committed = d.committed → d'.journal = d.journal → d'.now = d.now → G d')
    (hbody : Prog.Triple R ok (Plain fun _ d d' => Moves (P d) t d d') G body.run (Post B F))
    (hcommit : ∀ d a, B (true, a) d → ok l d → ∃ S, d.sess t = some S ∧
      P d ⟨t, S.start, d.committed, d.view t, S.inserted⟩ ∧ Q (.ok a) (d.afterCommit t S))
    (hdrop : ∀ d a, B (false, a) d → ok l d → Q (.ok a) (d.rollback t))
    (herr : ∀ d e, F e d → ok l d → Q (.error e) (d.rollback t)) :
    Prog.Triple R ok (Plain fun _ d d' => Moves (P d) t d d') A (transaction t l body : Tx L V E α).run
      Q := by
  have hrefl : ∀ d : Db V E, R d d := IsRely.refl t
  refine Fallible.bind_triple (B := fun _ => G) (F := fun _ _ => False)
    (beginTx_triple hwf hA hG (fun _ => Stable.const False) hbegin) (fun _ _ _ _ h => h) hrefl
    (fun _ _ _ h => h.elim) fun _ => ?_
  refine Prog.Triple.bind hbody (fun _ _ _ _ h => h) hrefl fun r => ?_
  have hret : ∀ r : Except String α, Prog.Triple R ok (Plain fun _ d d' => Moves (P d) t d d') (Q r)
      (.ret r) Q := fun r => Prog.Triple.ret (hQ r) fun _ h => h
  rcases r with e | ⟨done, a⟩
  · refine Fallible.bind_triple (B := fun _ => Q (.error e)) (F := fun _ _ => False)
      (rollback_triple (hF e) (hQ _) (fun _ => Stable.const False) fun d hd ho => herr d e hd ho)
      (fun _ _ _ _ h => h) hrefl (fun _ _ _ h => h.elim) fun _ => hret (.error e)
  · cases done with
    | true =>
      refine Fallible.bind_triple (B := fun _ => Q (.ok a)) (F := fun _ _ => False)
        (commit_triple (hB _) (hQ _) (fun _ => Stable.const False) ?_ ?_)
        (fun _ _ _ _ h => h) hrefl (fun _ _ _ h => h.elim) fun _ => hret (.ok a)
      · intro d hd ho hno
        obtain ⟨S, hS, -⟩ := hcommit d a hd ho
        rw [hno] at hS
        simp at hS
      · intro d S hd ho hS
        obtain ⟨S', hS', h⟩ := hcommit d a hd ho
        obtain rfl : S = S' := Option.some.inj (hS.symm.trans hS')
        exact h
    | false =>
      refine Fallible.bind_triple (B := fun _ => Q (.ok a)) (F := fun _ _ => False)
        (rollback_triple (hB _) (hQ _) (fun _ => Stable.const False) fun d hd ho => hdrop d a hd ho)
        (fun _ _ _ _ h => h) hrefl (fun _ _ _ h => h.elim) fun _ => hret (.ok a)

end Actions

end Tx

end ReadCommitted
