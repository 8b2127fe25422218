import Mathlib.Logic.Function.Basic
import Mathlib.Data.Int.Notation
import Mathlib.Tactic.Basic
import RbphBackend.Concurrency.RelyGuarantee

set_option relaxedAutoImplicit false
set_option autoImplicit false
set_option linter.unusedSectionVars false

/-!
# A relational store at isolation level READ COMMITTED

The store maps keys to rows. A statement is atomic: it reads what is committed together with the
writes of its own transaction, and it writes or locks rows, which it then holds until the
transaction ends. A statement that needs a row another transaction holds is not enabled, so it
runs later, on the row's newest committed version. `NOW()` is the instant the transaction began.
A statement that fails aborts its transaction.

Every commit is recorded in a journal with the committed state before and after it and the
log records it inserted, so that what a call did is a property of the final state.

## Main definitions

* `ReadCommitted.Row`, `ReadCommitted.Db` — rows with their lock and their two versions; the store.
* `ReadCommitted.Stmt` — statements, as functions of what the transaction sees.
* `ReadCommitted.Db.beginTx`, `Db.query`, `Db.commitTx`, `Db.rollbackTx`, `Db.pool` — the actions
  of a session; `pool` is a statement that commits by itself.
* `ReadCommitted.Keeps` — what the actions of the other sessions leave alone.
* `ReadCommitted.Moves` — what an action of a session may do, with a property of its commits.

## Main results

* `ReadCommitted.Db.query_moves`, `Db.commitTx_moves` and so on — every action is such a move.
-/

namespace ReadCommitted

open Concurrency

/-! ## Rows -/

/-- A row: unlocked, with its committed version, or held by a transaction, with the committed
version and the version the transaction made of it. -/
inductive Row (α : Type) where
  | free (v : α)
  | held (owner : Tid) (old new : α)

namespace Row

variable {α : Type}

/-- The version a statement outside the owner's transaction sees. -/
def committed : Row α → α
  | free v => v
  | held _ old _ => old

/-- The version session `t` sees. -/
def view (t : Tid) : Row α → α
  | free v => v
  | held u old new => if u = t then new else old

/-- Session `t` holds the row's lock. -/
def HeldBy (t : Tid) : Row α → Prop
  | free _ => False
  | held u _ _ => u = t

/-- Session `t` holds the row's lock or may take it. -/
def Lockable (t : Tid) : Row α → Prop
  | free _ => True
  | held u _ _ => u = t

/-- No transaction holds the row. -/
def IsFree : Row α → Prop
  | free _ => True
  | held .. => False

instance (t : Tid) : (r : Row α) → Decidable (r.HeldBy t)
  | free _ => instDecidableFalse
  | held u _ _ => inferInstanceAs (Decidable (u = t))

instance (t : Tid) : (r : Row α) → Decidable (r.Lockable t)
  | free _ => instDecidableTrue
  | held u _ _ => inferInstanceAs (Decidable (u = t))

instance : (r : Row α) → Decidable r.IsFree
  | free _ => instDecidableTrue
  | held .. => instDecidableFalse

@[simp] lemma committed_free (v : α) : (free v).committed = v := rfl
@[simp] lemma committed_held (u : Tid) (v w : α) : (held u v w).committed = v := rfl
@[simp] lemma view_free (t : Tid) (v : α) : (free v).view t = v := rfl
@[simp] lemma view_held_self (t : Tid) (v w : α) : (held t v w).view t = w := if_pos rfl
@[simp] lemma heldBy_free (t : Tid) (v : α) : ¬ (free v).HeldBy t := id
@[simp] lemma heldBy_held (t u : Tid) (v w : α) : (held u v w).HeldBy t ↔ u = t := Iff.rfl

/-- A session sees the committed version of a row it does not hold. -/
lemma view_of_not_heldBy {t : Tid} {r : Row α} (h : ¬ r.HeldBy t) : r.view t = r.committed := by
  cases r with
  | free v => rfl
  | held u v w => exact if_neg h

/-- A row has one holder. -/
lemma HeldBy.unique {t u : Tid} {r : Row α} (ht : r.HeldBy t) (hu : r.HeldBy u) : t = u := by
  cases r with
  | free v => exact ht.elim
  | held w x y => exact ht.symm.trans hu

lemma Lockable.heldBy_imp {t u : Tid} {r : Row α} (h : r.Lockable t) (hu : r.HeldBy u) :
    u = t := by
  cases r with
  | free v => exact hu.elim
  | held w x y => exact hu.symm.trans h

lemma HeldBy.lockable {t : Tid} {r : Row α} (h : r.HeldBy t) : r.Lockable t := by
  cases r with
  | free v => exact h.elim
  | held u v w => exact h

lemma IsFree.not_heldBy {t : Tid} {r : Row α} (h : r.IsFree) : ¬ r.HeldBy t := by
  cases r with
  | free v => exact id
  | held w x y => exact h.elim

end Row

/-! ## The store -/

section Defs

variable {K : Type} (V : K → Type) (E : Type)

/-- An open transaction: the instant it began, which is its `NOW()`, and the log records it has
inserted. -/
structure Session where
  start : ℤ
  inserted : List E

/-- A committed transaction: who, its `NOW()`, the committed state before and after, the log
records it inserted. -/
structure Commit where
  tid : Tid
  start : ℤ
  before : (k : K) → V k
  after : (k : K) → V k
  inserted : List E

/-- The store. -/
structure Db where
  now : ℤ
  rows : (k : K) → Row (V k)
  sess : Tid → Option (Session E)
  journal : List (Commit V E)

/-- What a statement does: its result, the rows it writes or locks (a lock writes the version
seen) and the log records it inserts. -/
structure Effect (β : Type) where
  val : β
  puts : List (Σ k, V k) := []
  inserts : List E := []

/-- A statement, as a function of the versions it sees and of `NOW()`. -/
abbrev Stmt (β : Type) := ((k : K) → V k) → ℤ → Except String (Effect V E β)

end Defs

section Actions

variable {K : Type} [DecidableEq K] {V : K → Type} {E β : Type}

/-- The rows a statement touches. -/
def Effect.keys (eff : Effect V E β) : List K := eff.puts.map (·.1)

/-- Write rows in order. -/
def applyPuts (puts : List (Σ k, V k)) (v : (k : K) → V k) : (k : K) → V k :=
  puts.foldl (fun v p => Function.update v p.1 p.2) v

@[simp] lemma applyPuts_nil (v : (k : K) → V k) : applyPuts [] v = v := rfl

@[simp] lemma applyPuts_cons (p : Σ k, V k) (ps : List (Σ k, V k)) (v : (k : K) → V k) :
    applyPuts (p :: ps) v = applyPuts ps (Function.update v p.1 p.2) := rfl

/-- Rows that are not written stay. -/
lemma applyPuts_of_notMem {puts : List (Σ k, V k)} {v : (k : K) → V k} {k : K}
    (h : k ∉ puts.map (·.1)) : applyPuts puts v k = v k := by
  induction puts generalizing v with
  | nil => rfl
  | cons p ps ih =>
    simp only [List.map_cons, List.mem_cons, not_or] at h
    rw [applyPuts_cons, ih h.2, Function.update_of_ne h.1]

/-- Rows written as they are seen. -/
lemma applyPuts_of_locks {puts : List (Σ k, V k)} {v : (k : K) → V k}
    (h : ∀ p ∈ puts, p.2 = v p.1) : applyPuts puts v = v := by
  induction puts with
  | nil => rfl
  | cons p ps ih =>
    rw [applyPuts_cons, h p List.mem_cons_self, Function.update_eq_self]
    exact ih fun q hq => h q (List.mem_cons_of_mem _ hq)

namespace Db

/-- What is committed. -/
def committed (d : Db V E) (k : K) : V k := (d.rows k).committed

/-- What session `t` sees. -/
def view (d : Db V E) (t : Tid) (k : K) : V k := (d.rows k).view t

/-- The time passes. -/
def tick (n : ℕ) (d : Db V E) : Db V E := { d with now := d.now + n }

/-- Open a transaction. -/
def beginTx (t : Tid) (d : Db V E) : Option (Except String Unit × Db V E) :=
  match d.sess t with
  | some _ => none
  | none => some (.ok (), { d with sess := Function.update d.sess t (some ⟨d.now, []⟩) })

/-- Undo the transaction of session `t` and release its rows. -/
def rollback (t : Tid) (d : Db V E) : Db V E :=
  { d with
    rows := fun k => if (d.rows k).HeldBy t then .free (d.rows k).committed else d.rows k
    sess := Function.update d.sess t none }

/-- Drop the transaction of session `t`. -/
def rollbackTx (t : Tid) (d : Db V E) : Option (Except String Unit × Db V E) :=
  some (.ok (), d.rollback t)

/-- The rows after session `t` has written `puts`. -/
def putRows (t : Tid) (puts : List (Σ k, V k)) (d : Db V E) (k : K) : Row (V k) :=
  if k ∈ puts.map (·.1) then .held t (d.rows k).committed (applyPuts puts (d.view t) k)
  else d.rows k

/-- Run a statement in the transaction of session `t`. It waits while another transaction holds
a row it writes or locks; where it fails the transaction is aborted. -/
def query (t : Tid) (stmt : Stmt V E β) (d : Db V E) : Option (Except String β × Db V E) :=
  match d.sess t with
  | none => some (.error "no open transaction", d)
  | some S =>
    match stmt (d.view t) S.start with
    | .error e => some (.error e, d.rollback t)
    | .ok eff =>
      if ∀ k ∈ eff.keys, (d.rows k).Lockable t then
        some (.ok eff.val, { d with
          rows := d.putRows t eff.puts
          sess := Function.update d.sess t (some { S with inserted := S.inserted ++ eff.inserts }) })
      else none

/-- Commit the transaction of session `t`. -/
def commitTx (t : Tid) (d : Db V E) : Option (Except String Unit × Db V E) :=
  match d.sess t with
  | none => some (.error "no open transaction", d)
  | some S =>
    some (.ok (), { d with
      rows := fun k => if (d.rows k).HeldBy t then .free (d.view t k) else d.rows k
      sess := Function.update d.sess t none
      journal := d.journal ++ [⟨t, S.start, d.committed, d.view t, S.inserted⟩] })

/-- Run a statement that is a transaction of its own, on a connection of its own. It waits while
any transaction holds a row it writes or locks. -/
def pool (t : Tid) (stmt : Stmt V E β) (d : Db V E) : Option (Except String β × Db V E) :=
  match stmt d.committed d.now with
  | .error e => some (.error e, d)
  | .ok eff =>
    if ∀ k ∈ eff.keys, (d.rows k).IsFree then
      if eff.puts.isEmpty && eff.inserts.isEmpty then some (.ok eff.val, d)
      else
        some (.ok eff.val, { d with
          rows := fun k =>
            if k ∈ eff.keys then .free (applyPuts eff.puts d.committed k) else d.rows k
          journal := d.journal ++
            [⟨t, d.now, d.committed, applyPuts eff.puts d.committed, eff.inserts⟩] })
    else none

/-- A store no transaction of which is open, at the start of its journal. -/
structure Idle (d : Db V E) : Prop where
  free : ∀ k, (d.rows k).IsFree
  sess : ∀ t, d.sess t = none
  journal : d.journal = []

/-- The store with these committed rows, at instant `now`. -/
def init (now : ℤ) (v : (k : K) → V k) : Db V E := ⟨now, fun k => .free (v k), fun _ => none, []⟩

lemma init_idle (now : ℤ) (v : (k : K) → V k) : (init now v : Db V E).Idle :=
  ⟨fun _ => trivial, fun _ => rfl, rfl⟩

/-- Only open transactions hold rows. -/
def WF (d : Db V E) : Prop := ∀ k t, (d.rows k).HeldBy t → d.sess t ≠ none

lemma Idle.wf {d : Db V E} (h : d.Idle) : d.WF := fun k _ hk => ((h.free k).not_heldBy hk).elim

/-- A session sees the committed version of a row it does not hold. -/
lemma view_of_not_heldBy {d : Db V E} {t : Tid} {k : K} (h : ¬ (d.rows k).HeldBy t) :
    d.view t k = d.committed k := Row.view_of_not_heldBy h

end Db

/-- The environment: the clock advances. -/
def Tick (d d' : Db V E) : Prop := ∃ n : ℕ, d' = d.tick n

@[simp] lemma tick_tick (n : ℕ) (d : Db V E) : Tick d (d.tick n) := ⟨n, rfl⟩

end Actions

/-! ## What the actions of a session leave alone -/

section Moves

variable {K : Type} [DecidableEq K] {V : K → Type} {E β : Type}

/-- What the other sessions leave to session `t`: its transaction, the rows it holds, and the
journal, which only grows, by commits that are not `t`'s. -/
structure Keeps (t : Tid) (d d' : Db V E) : Prop where
  now_le : d.now ≤ d'.now
  sess : d'.sess t = d.sess t
  held : ∀ k, (d.rows k).HeldBy t ∨ (d'.rows k).HeldBy t → d'.rows k = d.rows k
  journal : ∃ l, d'.journal = d.journal ++ l ∧ ∀ e ∈ l, e.tid ≠ t

namespace Keeps

lemma refl (t : Tid) (d : Db V E) : Keeps t d d :=
  ⟨Int.le_refl _, rfl, fun _ _ => rfl, [], by simp, by simp⟩

lemma trans {t : Tid} {d₁ d₂ d₃ : Db V E} (h : Keeps t d₁ d₂) (h' : Keeps t d₂ d₃) :
    Keeps t d₁ d₃ := by
  refine ⟨Int.le_trans h.now_le h'.now_le, h'.sess.trans h.sess, fun k hk => ?_, ?_⟩
  · rcases hk with hk | hk
    · have h₁ := h.held k (.inl hk)
      rw [← h₁, h'.held k (.inl (h₁ ▸ hk))]
    · have h₂ := h'.held k (.inr hk)
      rw [h₂, h.held k (.inr (h₂ ▸ hk))]
  · obtain ⟨l, hl, hn⟩ := h.journal
    obtain ⟨l', hl', hn'⟩ := h'.journal
    refine ⟨l ++ l', by rw [hl', hl, List.append_assoc], fun e he => ?_⟩
    rcases List.mem_append.mp he with he | he
    · exact hn e he
    · exact hn' e he

lemma tick (t : Tid) (n : ℕ) (d : Db V E) : Keeps t d (d.tick n) :=
  ⟨by simp only [Db.tick]; omega, rfl, fun _ _ => rfl, [], by simp [Db.tick], by simp⟩

end Keeps

/-- What an action of session `t` does: the other sessions keep what is theirs, and it commits
nothing or commits one transaction that meets `P`. -/
structure Moves (P : Commit V E → Prop) (t : Tid) (d d' : Db V E) : Prop where
  keeps : ∀ u, u ≠ t → Keeps u d d'
  wf : d.WF → d'.WF
  commits : (d'.journal = d.journal ∧ d'.committed = d.committed) ∨
    ∃ e : Commit V E, e.tid = t ∧ e.before = d.committed ∧ e.after = d'.committed ∧
      d'.journal = d.journal ++ [e] ∧ P e

lemma Moves.mono {P P' : Commit V E → Prop} (h : ∀ e, P e → P' e) {t : Tid} {d d' : Db V E}
    (hm : Moves P t d d') : Moves P' t d d' := by
  refine ⟨hm.keeps, hm.wf, hm.commits.imp_right ?_⟩
  rintro ⟨e, ht, hb, ha, hj, hP⟩
  exact ⟨e, ht, hb, ha, hj, h e hP⟩

/-- Doing nothing is a move. -/
lemma Moves.refl (P : Commit V E → Prop) (t : Tid) (d : Db V E) : Moves P t d d :=
  ⟨fun u _ => Keeps.refl u d, id, .inl ⟨rfl, rfl⟩⟩

namespace Db

variable {P : Commit V E → Prop} {t : Tid} {d d' : Db V E}

lemma beginTx_eq {r : Except String Unit} (h : d.beginTx t = some (r, d')) :
    d.sess t = none ∧ r = .ok () ∧
      d' = { d with sess := Function.update d.sess t (some ⟨d.now, []⟩) } := by
  unfold beginTx at h
  split at h
  · simp at h
  · rename_i hs
    simp only [Option.some.injEq, Prod.mk.injEq] at h
    exact ⟨hs, h.1.symm, h.2.symm⟩

/-- Changing only `t`'s own session is a move. -/
private lemma moves_sess {s : Option (Session E)} (hs : s ≠ none) :
    Moves P t d { d with sess := Function.update d.sess t s } := by
  refine ⟨fun u hu => ⟨Int.le_refl _, by simp [hu], fun _ _ => rfl, [], by simp, by simp⟩,
    fun hwf k u hk => ?_, .inl ⟨rfl, rfl⟩⟩
  by_cases hu : u = t
  · subst hu; simpa using hs
  · simpa [hu] using hwf k u hk

lemma beginTx_moves {r : Except String Unit} (h : d.beginTx t = some (r, d')) :
    Moves P t d d' := by
  obtain ⟨-, -, rfl⟩ := beginTx_eq h
  exact moves_sess (by simp)

/-- A rollback releases the rows and commits nothing. -/
lemma rollback_moves : Moves P t d (d.rollback t) := by
  refine ⟨fun u hu => ⟨Int.le_refl _, by simp [rollback, hu], fun k hk => ?_, [], by simp [rollback],
    by simp⟩, fun hwf k u hk => ?_, .inl ⟨rfl, ?_⟩⟩
  · by_cases ht : (d.rows k).HeldBy t
    · simp only [rollback, ht, if_true, Row.heldBy_free, or_false] at hk
      exact absurd (hk.unique ht) hu
    · simp [rollback, ht]
  · by_cases ht : (d.rows k).HeldBy t
    · simp [rollback, ht] at hk
    · simp only [rollback, ht, if_false] at hk ⊢
      have hu : u ≠ t := fun e => ht (e ▸ hk)
      simpa [hu] using hwf k u hk
  · funext k
    by_cases ht : (d.rows k).HeldBy t <;> simp [committed, rollback, ht]

lemma rollbackTx_eq {r : Except String Unit} (h : d.rollbackTx t = some (r, d')) :
    r = .ok () ∧ d' = d.rollback t := by
  simp only [rollbackTx, Option.some.injEq, Prod.mk.injEq] at h
  exact ⟨h.1.symm, h.2.symm⟩

lemma rollbackTx_moves {r : Except String Unit} (h : d.rollbackTx t = some (r, d')) :
    Moves P t d d' := by
  obtain ⟨-, rfl⟩ := rollbackTx_eq h
  exact rollback_moves

/-- **What a statement can do**: there is no transaction; it fails and aborts the transaction;
it succeeds, having taken the rows it needs. -/
lemma query_cases {stmt : Stmt V E β} {r : Except String β} (h : d.query t stmt = some (r, d')) :
    (d.sess t = none ∧ r = .error "no open transaction" ∧ d' = d) ∨
    ∃ S, d.sess t = some S ∧
      ((∃ e, stmt (d.view t) S.start = .error e ∧ r = .error e ∧ d' = d.rollback t) ∨
      ∃ eff, stmt (d.view t) S.start = .ok eff ∧ r = .ok eff.val ∧
        (∀ k ∈ eff.keys, (d.rows k).Lockable t) ∧
        d' = { d with
          rows := d.putRows t eff.puts
          sess := Function.update d.sess t
            (some { S with inserted := S.inserted ++ eff.inserts }) }) := by
  unfold query at h
  split at h
  · rename_i hs
    simp only [Option.some.injEq, Prod.mk.injEq] at h
    exact .inl ⟨hs, h.1.symm, h.2.symm⟩
  · rename_i S hs
    refine .inr ⟨S, hs, ?_⟩
    split at h
    · rename_i e he
      simp only [Option.some.injEq, Prod.mk.injEq] at h
      exact .inl ⟨e, he, h.1.symm, h.2.symm⟩
    · rename_i eff he
      split at h
      · rename_i hl
        simp only [Option.some.injEq, Prod.mk.injEq] at h
        exact .inr ⟨eff, he, h.1.symm, hl, h.2.symm⟩
      · simp at h

@[simp] lemma putRows_of_notMem {puts : List (Σ k, V k)} {k : K} (h : k ∉ puts.map (·.1)) :
    d.putRows t puts k = d.rows k := if_neg h

@[simp] lemma putRows_of_mem {puts : List (Σ k, V k)} {k : K} (h : k ∈ puts.map (·.1)) :
    d.putRows t puts k = .held t (d.rows k).committed (applyPuts puts (d.view t) k) := if_pos h

/-- A statement of `t` leaves the rows others hold, and commits nothing. -/
lemma query_moves {stmt : Stmt V E β} {r : Except String β} (h : d.query t stmt = some (r, d')) :
    Moves P t d d' := by
  rcases query_cases h with ⟨-, -, rfl⟩ | ⟨S, hS, ⟨e, -, -, rfl⟩ | ⟨eff, -, -, hl, rfl⟩⟩
  · exact Moves.refl P t d'
  · exact rollback_moves
  · refine ⟨fun u hu => ⟨Int.le_refl _, by simp [hu], fun k hk => ?_, [], by simp, by simp⟩,
      fun hwf k u hk => ?_, .inl ⟨rfl, ?_⟩⟩
    · by_cases hm : k ∈ eff.puts.map (·.1)
      · simp only [putRows_of_mem hm, Row.heldBy_held] at hk
        rcases hk with hk | hk
        · exact absurd ((hl k hm).heldBy_imp hk) hu
        · exact absurd hk.symm hu
      · simp [hm]
    · by_cases hu : u = t
      · subst hu; simp
      · simp only [ne_eq, hu, not_false_eq_true, Function.update_of_ne]
        by_cases hm : k ∈ eff.puts.map (·.1)
        · simp only [putRows_of_mem hm, Row.heldBy_held] at hk
          exact absurd hk.symm hu
        · simp only [putRows_of_notMem hm] at hk
          exact hwf k u hk
    · funext k
      by_cases hm : k ∈ eff.puts.map (·.1) <;> simp [committed, putRows, hm]

lemma commitTx_cases {r : Except String Unit} (h : d.commitTx t = some (r, d')) :
    (d.sess t = none ∧ r = .error "no open transaction" ∧ d' = d) ∨
    ∃ S, d.sess t = some S ∧ r = .ok () ∧ d' = { d with
      rows := fun k => if (d.rows k).HeldBy t then .free (d.view t k) else d.rows k
      sess := Function.update d.sess t none
      journal := d.journal ++ [⟨t, S.start, d.committed, d.view t, S.inserted⟩] } := by
  unfold commitTx at h
  split at h
  · rename_i hs
    simp only [Option.some.injEq, Prod.mk.injEq] at h
    exact .inl ⟨hs, h.1.symm, h.2.symm⟩
  · rename_i S hs
    simp only [Option.some.injEq, Prod.mk.injEq] at h
    exact .inr ⟨S, hs, h.1.symm, h.2.symm⟩

/-- A commit makes what the session sees the committed state, in one step. -/
lemma commitTx_moves {r : Except String Unit} (h : d.commitTx t = some (r, d'))
    (hP : ∀ S, d.sess t = some S → P ⟨t, S.start, d.committed, d.view t, S.inserted⟩) :
    Moves P t d d' := by
  rcases commitTx_cases h with ⟨-, -, rfl⟩ | ⟨S, hS, -, rfl⟩
  · exact Moves.refl P t d'
  · refine ⟨fun u hu => ⟨Int.le_refl _, by simp [hu], fun k hk => ?_, _, rfl, ?_⟩,
      fun hwf k u hk => ?_, .inr ⟨_, rfl, rfl, ?_, rfl, hP S hS⟩⟩
    · by_cases ht : (d.rows k).HeldBy t
      · simp only [ht, if_true, Row.heldBy_free, or_false] at hk
        exact absurd (hk.unique ht) hu
      · simp [ht]
    · simpa using Ne.symm hu
    · by_cases ht : (d.rows k).HeldBy t
      · simp [ht] at hk
      · simp only [ht, if_false] at hk ⊢
        have hu : u ≠ t := fun e => ht (e ▸ hk)
        simpa [hu] using hwf k u hk
    · funext k
      by_cases ht : (d.rows k).HeldBy t
      · simp [committed, ht]
      · simp [committed, ht, view, Row.view_of_not_heldBy ht]

lemma pool_cases {stmt : Stmt V E β} {r : Except String β} (h : d.pool t stmt = some (r, d')) :
    (∃ e, stmt d.committed d.now = .error e ∧ r = .error e ∧ d' = d) ∨
    ∃ eff, stmt d.committed d.now = .ok eff ∧ r = .ok eff.val ∧
      (∀ k ∈ eff.keys, (d.rows k).IsFree) ∧
      ((eff.puts = [] ∧ eff.inserts = [] ∧ d' = d) ∨
        (eff.puts ≠ [] ∨ eff.inserts ≠ []) ∧ d' = { d with
          rows := fun k =>
            if k ∈ eff.keys then .free (applyPuts eff.puts d.committed k) else d.rows k
          journal := d.journal ++
            [⟨t, d.now, d.committed, applyPuts eff.puts d.committed, eff.inserts⟩] }) := by
  unfold pool at h
  split at h
  · rename_i e he
    simp only [Option.some.injEq, Prod.mk.injEq] at h
    exact .inl ⟨e, he, h.1.symm, h.2.symm⟩
  · rename_i eff he
    refine .inr ⟨eff, he, ?_⟩
    split at h
    · rename_i hl
      split at h
      · rename_i hem
        simp only [Option.some.injEq, Prod.mk.injEq] at h
        simp only [Bool.and_eq_true, List.isEmpty_iff] at hem
        exact ⟨h.1.symm, hl, .inl ⟨hem.1, hem.2, h.2.symm⟩⟩
      · rename_i hem
        simp only [Option.some.injEq, Prod.mk.injEq] at h
        simp only [Bool.and_eq_true, List.isEmpty_iff, not_and_or] at hem
        exact ⟨h.1.symm, hl, .inr ⟨hem, h.2.symm⟩⟩
    · simp at h

/-- A statement that commits by itself writes rows no transaction holds, in one step. -/
lemma pool_moves {stmt : Stmt V E β} {r : Except String β} (h : d.pool t stmt = some (r, d'))
    (hP : ∀ eff, stmt d.committed d.now = .ok eff → (eff.puts ≠ [] ∨ eff.inserts ≠ []) →
      P ⟨t, d.now, d.committed, applyPuts eff.puts d.committed, eff.inserts⟩) :
    Moves P t d d' := by
  rcases pool_cases h with ⟨e, -, -, rfl⟩ | ⟨eff, heff, -, hl, ⟨-, -, rfl⟩ | ⟨hne, rfl⟩⟩
  · exact Moves.refl P t d'
  · exact Moves.refl P t d'
  · refine ⟨fun u hu => ⟨Int.le_refl _, rfl, fun k hk => ?_, _, rfl, ?_⟩,
      fun hwf k u hk => ?_, .inr ⟨_, rfl, rfl, ?_, rfl, hP eff heff hne⟩⟩
    · by_cases hm : k ∈ eff.keys
      · simp only [hm, if_true, Row.heldBy_free, or_false] at hk
        exact absurd hk (hl k hm).not_heldBy
      · simp [hm]
    · simpa using Ne.symm hu
    · by_cases hm : k ∈ eff.keys
      · simp [hm] at hk
      · simp only [hm, if_false] at hk
        exact hwf k u hk
    · funext k
      by_cases hm : k ∈ eff.keys
      · simp [committed, hm]
      · simp only [committed, hm, if_false]
        exact applyPuts_of_notMem hm

end Db

end Moves

end ReadCommitted
