import RbphBackend.Concurrency.Own

set_option relaxedAutoImplicit false
set_option autoImplicit false
set_option linter.unusedSectionVars false

/-!
# Rows that only grow

A preorder on the versions of every row. A statement sees the newest committed version of a row, or
the version its own transaction made of it, and it holds what it writes. So where every statement
leaves the rows at or above what it has seen, every commit leaves them at or above what was
committed, in whatever order the statements of the sessions run.

## Main definitions

* `ReadCommitted.RowOrder` — the preorder; `RowOrder.Respects` — a statement lets rows only grow.
* `ReadCommitted.RowOrder.Above` — a store that has grown.
* `ReadCommitted.Tx.Grows` — the statements of a program let rows only grow.
* `ReadCommitted.RowOrder.Reads` — what a part of a transaction returns is read in between.

## Main results

* `ReadCommitted.RowOrder.above_of_reaches` — what is committed only grows in a run.
* `ReadCommitted.RowOrder.transaction_triple` — what a transaction returns is read between what was
  committed when it began and what it commits.
-/

namespace ReadCommitted

open Concurrency

variable {K : Type} [DecidableEq K] {V : K → Type} {E L α β : Type}

/-- A preorder on the versions of every row. -/
structure RowOrder (V : K → Type) where
  le : (k : K) → V k → V k → Prop
  refl : ∀ k x, le k x x
  trans : ∀ {k x y z}, le k x y → le k y z → le k x z

namespace RowOrder

variable (O : RowOrder V)

/-- Every row has stayed or grown. -/
def Le (v w : (k : K) → V k) : Prop := ∀ k, O.le k (v k) (w k)

/-- The statement lets rows only grow. -/
def Respects (stmt : Stmt V E β) : Prop :=
  ∀ v now eff, stmt v now = .ok eff → O.Le v (applyPuts eff.puts v)

/-- The commit lets rows only grow. -/
def Rises (e : Commit V E) : Prop := O.Le e.before e.after

/-- In every open transaction, rows have only grown. -/
def Drafts (d : Db V E) : Prop := ∀ t, O.Le d.committed (d.view t)

/-- What an action of session `t` does where rows have only grown in every open transaction. -/
def Acts (t : Tid) (d d' : Db V E) : Prop := O.Drafts d → Moves O.Rises t d d' ∧ O.Drafts d'

/-- The store has grown from the rows `v`. -/
structure Above (v : (k : K) → V k) (d : Db V E) : Prop where
  wf : d.WF
  drafts : O.Drafts d
  le : O.Le v d.committed

variable {O}

lemma le_refl (v : (k : K) → V k) : O.Le v v := fun k => O.refl k (v k)

lemma le_trans {u v w : (k : K) → V k} (h : O.Le u v) (h' : O.Le v w) : O.Le u w :=
  fun k => O.trans (h k) (h' k)

lemma Above.of_idle {d : Db V E} (h : d.Idle) : O.Above d.committed d := by
  refine ⟨h.wf, fun t k => ?_, le_refl _⟩
  rw [Db.view_of_not_heldBy (h.free k).not_heldBy]
  exact O.refl k _

/-! ## The actions of a session -/

section Actions

variable {t : Tid} {d d' : Db V E}

lemma beginTx_acts {r : Except String Unit} (h : d.beginTx t = some (r, d')) : O.Acts t d d' := by
  refine fun hd => ⟨Db.beginTx_moves h, ?_⟩
  obtain ⟨-, -, rfl⟩ := Db.beginTx_eq h
  exact hd

lemma drafts_rollback (hd : O.Drafts d) : O.Drafts (d.rollback t) := by
  intro u k
  have hu := hd u k
  by_cases ht : (d.rows k).HeldBy t
  · simpa [Db.rollback, Db.committed, Db.view, ht] using O.refl k _
  · simpa [Db.rollback, Db.committed, Db.view, ht] using hu

lemma rollbackTx_acts {r : Except String Unit} (h : d.rollbackTx t = some (r, d')) :
    O.Acts t d d' := by
  refine fun hd => ⟨Db.rollbackTx_moves h, ?_⟩
  obtain ⟨-, rfl⟩ := Db.rollbackTx_eq h
  exact drafts_rollback hd

/-- A statement writes what it has seen or more, and it has seen what is committed or more. -/
lemma query_acts {stmt : Stmt V E β} {r : Except String β} (hstmt : O.Respects stmt)
    (h : d.query t stmt = some (r, d')) : O.Acts t d d' := by
  refine fun hd => ⟨Db.query_moves h, ?_⟩
  rcases Db.query_cases h with ⟨-, -, rfl⟩ | ⟨S, -, ⟨e, -, -, rfl⟩ | ⟨eff, he, -, -, rfl⟩⟩
  · exact hd
  · exact drafts_rollback hd
  · intro u k
    have hu := hd u k
    have ht := O.trans (hd t k) (hstmt _ _ _ he k)
    by_cases hk : k ∈ eff.puts.map (·.1)
    · by_cases htu : t = u
      · subst htu
        simpa [Db.committed, Db.view, Db.putRows, hk] using ht
      · simpa [Db.committed, Db.view, Db.putRows, hk, Row.view, htu] using O.refl k _
    · simpa [Db.committed, Db.view, Db.putRows, hk] using hu

/-- A commit makes what the session sees the committed state. -/
lemma commitTx_acts {r : Except String Unit} (h : d.commitTx t = some (r, d')) : O.Acts t d d' := by
  refine fun hd => ⟨Db.commitTx_moves h fun S _ => hd t, ?_⟩
  rcases Db.commitTx_cases h with ⟨-, -, rfl⟩ | ⟨S, -, -, rfl⟩
  · exact hd
  · intro u k
    have hu := hd u k
    by_cases ht : (d.rows k).HeldBy t
    · simpa [Db.committed, Db.view, ht] using O.refl k _
    · simpa [Db.committed, Db.view, ht] using hu

lemma pool_acts {stmt : Stmt V E β} {r : Except String β} (hstmt : O.Respects stmt)
    (h : d.pool t stmt = some (r, d')) : O.Acts t d d' := by
  refine fun hd => ⟨Db.pool_moves h fun eff he _ => hstmt _ _ _ he, ?_⟩
  rcases Db.pool_cases h with ⟨e, -, -, rfl⟩ | ⟨eff, -, -, -, ⟨-, -, rfl⟩ | ⟨-, rfl⟩⟩
  · exact hd
  · exact hd
  · intro u k
    have hu := hd u k
    by_cases hk : k ∈ eff.keys
    · simpa [Db.committed, Db.view, hk] using O.refl k _
    · simpa [Db.committed, Db.view, hk] using hu

end Actions

end RowOrder

/-! ## Programs -/

namespace Tx

variable {O : RowOrder V} {t : Tid} {l : L}

/-- The actions of the program are those of session `t`, and its statements let rows only grow. -/
def Grows (O : RowOrder V) (t : Tid) (p : Tx L V E α) : Prop := p.run.Steps (O.Acts t)

namespace Grows

lemma pure (a : α) : Grows O t (Pure.pure a : Tx L V E α) := Prog.steps_ret _

lemma throw (e : String) : Grows O t (MonadExcept.throw e : Tx L V E α) := Prog.steps_ret _

/-- The rule of composition. -/
lemma bind {p : Tx L V E β} {k : β → Tx L V E α} (hp : Grows O t p) (hk : ∀ b, Grows O t (k b)) :
    Grows O t (p >>= k) := steps_bind hp hk

/-- A part that goes on after an error. -/
lemma recover {p : Tx L V E β} {k : Except String β → Tx L V E α} (hp : Grows O t p)
    (hk : ∀ r, Grows O t (k r)) :
    Grows O t (ExceptT.mk (p.run.bind fun r => (k r).run) : Tx L V E α) :=
  Prog.Steps.bind hp hk

lemma query {stmt : Stmt V E β} (h : O.Respects stmt) : Grows O t (Tx.query t l stmt) :=
  Prog.steps_atomic fun _ _ _ hq => RowOrder.query_acts h hq

lemma pool {stmt : Stmt V E β} (h : O.Respects stmt) : Grows O t (Tx.pool t l stmt) :=
  Prog.steps_atomic fun _ _ _ hq => RowOrder.pool_acts h hq

lemma transaction {body : Tx L V E (Bool × α)} (h : Grows O t body) :
    Grows O t (Tx.transaction t l body) :=
  steps_transaction (fun _ _ _ => RowOrder.beginTx_acts) (fun _ _ _ => RowOrder.commitTx_acts)
    (fun _ _ _ => RowOrder.rollbackTx_acts) h

end Grows

end Tx

/-! ## Runs -/

namespace RowOrder

variable {O : RowOrder V}

section Runs

variable {ok : Tid → L → Db V E → Prop} {v : (k : K) → V k} {c c' : Config L (Db V E) α}

lemma Above.acts {t : Tid} {d d' : Db V E} (h : O.Above v d) (ha : O.Acts t d d') :
    O.Above v d' := by
  obtain ⟨hm, hd⟩ := ha h.drafts
  refine ⟨hm.wf h.wf, hd, ?_⟩
  rcases hm.commits with ⟨-, hc⟩ | ⟨e, -, hb, hafter, -, he⟩
  · rw [hc]
    exact h.le
  · have hrise : O.Le e.before e.after := he
    rw [hb, hafter] at hrise
    exact le_trans h.le hrise

/-- Sessions whose statements let rows only grow form a sound pool. -/
lemma relyGuarantee (v : (k : K) → V k) : RelyGuarantee Tick ok (O.Above v) (Rely O.Rises)
    (fun t => Plain (L := L) (α := α) fun _ => O.Acts t) where
  refl t d := Rely.refl O.Rises t d
  trans _ _ _ _ h h' := h.trans h'
  guarantee _ _ _ _ _ _ hu hinv _ h := Rely.of_moves hu (h hinv.drafts).1
  interference := by
    rintro t d _ - ⟨n, rfl⟩
    exact Rely.tick O.Rises t n d
  inv_step _ _ _ _ _ hinv _ h := hinv.acts h
  inv_env := by
    rintro d _ hinv ⟨n, rfl⟩
    exact ⟨hinv.wf, hinv.drafts, hinv.le⟩

/-- **What a thread returns**, which may know what was committed where the run has begun. -/
theorem result_of_reaches (h : O.Above v c.shared)
    (hc : ∀ u, (c.threads u).Steps (O.Acts u)) {t : Tid} {Q : α → Db V E → Prop}
    {Φ : L → Db V E → Db V E → Prog L (Db V E) α → Prop}
    (hsat : (c.threads t).Sat (Rely O.Rises t) (fun l d => ok t l d ∧ O.Above v d) Φ Q c.shared)
    (hr : Reaches Tick ok c c') {a : α} (ha : c'.threads t = .ret a) : Q a c'.shared := by
  have hgood : c.Good ok (O.Above v) (Rely O.Rises) (fun u => Plain fun _ => O.Acts u)
      fun u a d => u = t → Q a d := by
    refine ⟨h, fun u => ?_⟩
    by_cases hu : u = t
    · subst hu
      exact ((hc u).guarantee hsat).mono (fun _ _ h => h) (fun _ _ h => h) (fun _ _ _ _ h => h)
        fun _ _ h _ => h
    · exact ((hc u).sat (fun _ _ h => h) c.shared).mono (fun _ _ h => h) (fun _ _ h => h)
        (fun _ _ _ _ h => h) fun _ _ _ h => absurd h hu
  exact (relyGuarantee v).result hgood hr ha rfl

/-- **What is committed only grows** in a run of such sessions. -/
theorem above_of_reaches (h : O.Above v c.shared) (hc : ∀ u, (c.threads u).Steps (O.Acts u))
    (hr : Reaches Tick ok c c') : O.Above v c'.shared := by
  have hgood : c.Good ok (O.Above v) (Rely O.Rises) (fun u => Plain fun _ => O.Acts u)
      fun _ _ _ => True := ⟨h, fun u => (hc u).sat (fun _ _ h => h) c.shared⟩
  exact ((relyGuarantee v).reaches hgood hr).1

end Runs

/-! ## What a transaction returns -/

section Reads

variable (O) in
/-- Session `t` has a transaction that sees the rows `w` or more. -/
structure Sees (t : Tid) (w : (k : K) → V k) (d : Db V E) : Prop where
  opened : ¬ NoTx t d
  le : O.Le w (d.view t)

variable (O) in
/-- What a part of a transaction returns is told by `S` of rows between those it began with and
those it leaves. -/
def Reads (t : Tid) (ok : L → Db V E → Prop) (p : Tx L V E α)
    (S : ((k : K) → V k) → α → Prop) : Prop :=
  ∀ w, Prog.Triple (Rely O.Rises t) ok (Plain fun _ d d' => Moves (fun _ => True) t d d')
    (O.Sees t w) p.run (Post (fun a d => ∃ u, O.Le w u ∧ S u a ∧ O.Sees t u d) fun _ _ => True)

variable {t : Tid} {l : L} {ok : L → Db V E → Prop} {w : (k : K) → V k}
  {S : ((k : K) → V k) → α → Prop} {T : ((k : K) → V k) → β → Prop}

/-- What the others commit has only grown, and what the session holds stays. -/
lemma le_of_rely {d d' : Db V E} (h : Rely O.Rises t d d') : O.Le d.committed d'.committed :=
  h.invariant (p := O.Le d.committed) (fun _ he hle => le_trans hle he) (le_refl _)

lemma stable_sees : Stable (Rely O.Rises t) (O.Sees t w : Db V E → Prop) := by
  intro d d' h hr
  refine ⟨fun hno => h.opened ?_, fun k => ?_⟩
  · exact hr.keeps.sess.symm.trans hno
  · by_cases hk : (d.rows k).HeldBy t ∨ (d'.rows k).HeldBy t
    · have hsame : d'.view t k = d.view t k := by
        rw [Db.view, Db.view, hr.keeps.held k hk]
      rw [hsame]
      exact h.le k
    · obtain ⟨hno, hno'⟩ := not_or.mp hk
      have hle := h.le k
      rw [Db.view_of_not_heldBy hno] at hle
      rw [Db.view_of_not_heldBy hno']
      exact O.trans hle (le_of_rely hr k)

lemma stable_told (p : ((k : K) → V k) → Prop) : Stable (Rely O.Rises t)
    fun d : Db V E => ∃ u, O.Le w u ∧ p u ∧ O.Sees t u d :=
  Stable.exists fun _ => (Stable.const _).and ((Stable.const _).and stable_sees)

namespace Reads

lemma mono {S' : ((k : K) → V k) → α → Prop} {p : Tx L V E α} (hp : O.Reads t ok p S)
    (h : ∀ u a, S u a → S' u a) : O.Reads t ok p S' := by
  refine fun w => (hp w).conseq (fun _ hw => hw) fun r d hr => ?_
  cases r with
  | error e => trivial
  | ok a =>
    obtain ⟨u, hwu, hS, hu⟩ := hr
    exact ⟨u, hwu, h u a hS, hu⟩

lemma pure {a : α} (h : ∀ u, S u a) : O.Reads t ok (Pure.pure a : Tx L V E α) S :=
  fun w => Fallible.pure_triple stable_sees fun _ hw => ⟨w, le_refl w, h w, hw⟩

lemma throw {e : String} : O.Reads t ok (MonadExcept.throw e : Tx L V E α) S :=
  fun _ => Fallible.throw_triple stable_sees fun _ _ => trivial

/-- A statement that lets rows only grow. -/
lemma query {stmt : Stmt V E β} (h : O.Respects stmt) :
    O.Reads t ok (Tx.query t l stmt) fun _ _ => True := by
  intro w
  refine Tx.query_triple (P := fun _ _ => True) stable_sees
    (fun _ => stable_told fun _ => True) (fun _ => Stable.const True)
    (fun _ hw => hw.opened) (fun d S eff hw _ hS he => ?_) fun _ _ _ _ _ _ _ => trivial
  refine ⟨w, le_refl w, trivial, fun hno => ?_, fun k => ?_⟩
  · simp [NoTx] at hno
  · rw [Db.view_afterQuery]
    exact O.trans (hw.le k) (h _ _ _ he k)

/-- A statement that only reads. -/
lemma read {f : ((k : K) → V k) → ℤ → Except String β} :
    O.Reads t ok (Tx.query t l (Stmt.read f)) fun u b => ∃ now, f u now = .ok b := by
  intro w
  refine Tx.query_read_triple (P := fun _ _ => True) stable_sees
    (fun b => stable_told fun u => ∃ now, f u now = .ok b)
    (fun _ => Stable.const True) (fun _ hw => hw.opened) (fun d S b hw _ _ hb => ?_)
    fun _ _ _ _ _ _ _ => trivial
  exact ⟨d.view t, hw.le, ⟨S.start, hb⟩, hw.opened, le_refl _⟩

/-- Composition: the rows of either part. -/
lemma bind {p : Tx L V E β} {k : β → Tx L V E α} (hp : O.Reads t ok p T)
    (hk : ∀ b, O.Reads t ok (k b) fun u a => S u a ∨ ∀ u', T u' b → S u' a) :
    O.Reads t ok (p >>= k) S := by
  intro w
  refine Fallible.bind_triple (hp w) (fun _ _ _ _ h => h) (Rely.refl _ t)
    (fun _ _ _ _ _ => trivial) fun b d hd => ?_
  obtain ⟨u, hwu, hT, hu⟩ := hd
  refine (hk b u d hu).mono (fun _ _ h => h) (fun _ _ h => h) (fun _ _ _ _ h => h) fun r d' h => ?_
  cases r with
  | error e => trivial
  | ok a =>
    obtain ⟨u', huu', hS | hS, hu'⟩ := h
    · exact ⟨u', le_trans hwu huu', hS, hu'⟩
    · exact ⟨u, hwu, hS u hT, hu'.opened, le_trans huu' hu'.le⟩

end Reads

/-- **What a transaction returns** is read between what was committed when it began and what it
leaves committed. -/
theorem transaction_triple {v : (k : K) → V k} {body : Tx L V E (Bool × α)}
    (hok : ∀ l d, ok l d → O.Above v d)
    (hbody : O.Reads t ok body fun u r => r.1 = true ∧ S u r.2) :
    Prog.Triple (Rely O.Rises t) ok (Plain fun _ d d' => Moves (fun _ => True) t d d')
      (fun _ => True) (Tx.transaction t l body).run
      (Post (fun a d => ∃ u, O.Le v u ∧ O.Le u d.committed ∧ S u a) fun _ _ => True) := by
  have hstable : ∀ r, Stable (Rely O.Rises t) (Post (fun a (d : Db V E) =>
      ∃ u, O.Le v u ∧ O.Le u d.committed ∧ S u a) (fun _ _ => True) r) := by
    refine stable_post (fun a => ?_) fun _ => Stable.const True
    rintro d d' ⟨u, hvu, hud, hS⟩ hr
    exact ⟨u, hvu, le_trans hud (le_of_rely hr), hS⟩
  refine Tx.transaction_triple (G := O.Sees t v) (P := fun _ _ => True)
    (B := fun r d => ∃ u, O.Le v u ∧ (r.1 = true ∧ S u r.2) ∧ O.Sees t u d)
    (fun d h => (hok _ d h).wf) (Stable.const True) stable_sees
    (fun r => stable_told fun u => r.1 = true ∧ S u r.2)
    (fun _ => Stable.const True) hstable ?_ (hbody v) ?_ ?_ fun _ _ _ _ => trivial
  · intro d d' _ ho _ hin hc _ _
    refine ⟨fun hno => ?_, fun k => ?_⟩
    · rw [NoTx, hin.sess] at hno
      cases hno
    · rw [hin.view_of_notMem List.not_mem_nil, hc]
      exact (hok _ d ho).le k
  · rintro d a ⟨u, hvu, ⟨-, hS⟩, hu⟩ -
    obtain ⟨X, hX⟩ := Option.ne_none_iff_exists'.mp hu.opened
    refine ⟨X, hX, trivial, u, hvu, ?_, hS⟩
    rw [Db.afterCommit_committed]
    exact hu.le
  · rintro d a ⟨u, -, ⟨hfalse, -⟩, -⟩
    cases hfalse

end Reads

end RowOrder

end ReadCommitted
