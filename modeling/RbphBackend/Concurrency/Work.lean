import RbphBackend.Concurrency.Transaction

set_option relaxedAutoImplicit false
set_option autoImplicit false
set_option linter.unusedSectionVars false

/-!
# What a transaction has done

A transaction holds every row it has written or locked, so what it sees is what is committed with
its own writes applied, whatever the others commit meanwhile. Its work so far is then a value: the
writes, the committed versions of the rows it holds, the log records. A statement extends the
work; a commit records it.

## Main definitions

* `ReadCommitted.Work` — the work of a transaction; `Work.after` — with one more statement.
* `ReadCommitted.Working` — the session's transaction has done this work.
* `ReadCommitted.Work.Commits` — what a commit of this work looks like.
* `ReadCommitted.Contract`, `ReadCommitted.Honours` — how rows may change while a guard is held.
* `ReadCommitted.Works` — the transaction has done this work among sessions that keep to a
  contract.
* `ReadCommitted.Ended` — how a transaction may end.

## Main results

* `ReadCommitted.Tx.query_bind_works_triple` — the rule of a statement.
* `ReadCommitted.Tx.transaction_works_triple` — the rule of a transaction.
-/

namespace ReadCommitted

open Concurrency

variable {K : Type} [DecidableEq K] {V : K → Type} {E L α β : Type}

/-- What a write makes of a row depends on that row only. -/
lemma applyPuts_congr {puts : List (Σ k, V k)} {v w : (k : K) → V k} {k : K} (h : v k = w k) :
    applyPuts puts v k = applyPuts puts w k := by
  induction puts generalizing v w with
  | nil => exact h
  | cons p ps ih =>
    refine ih ?_
    show Function.update v p.1 p.2 k = Function.update w p.1 p.2 k
    by_cases hk : k = p.1
    · subst hk
      simp
    · rw [Function.update_of_ne hk, Function.update_of_ne hk, h]

lemma applyPuts_append {puts puts' : List (Σ k, V k)} {v : (k : K) → V k} :
    applyPuts (puts ++ puts') v = applyPuts puts' (applyPuts puts v) := by
  simp [applyPuts, List.foldl_append]

/-! ## Work -/

/-- The work of an open transaction: the instant it began, the log records it inserted, the rows
it holds with their committed versions, what it wrote, and the session's earlier commits. -/
structure Work (V : K → Type) (E : Type) where
  start : ℤ
  logged : List E
  held : List K
  seen : (k : K) → V k
  puts : List (Σ k, V k)
  earlier : List (Commit V E)

namespace Work

/-- A transaction that has just begun. -/
def begun (start : ℤ) (seen : (k : K) → V k) (earlier : List (Commit V E)) : Work V E :=
  ⟨start, [], [], seen, [], earlier⟩

/-- A committed state in which the held rows are as the transaction has them. -/
def Agrees (W : Work V E) (v : (k : K) → V k) : Prop := ∀ k ∈ W.held, v k = W.seen k

/-- What the transaction sees where `v` is committed. -/
def view (W : Work V E) (v : (k : K) → V k) : (k : K) → V k := applyPuts W.puts v

/-- The work with one more statement, run where `v` was committed. -/
def after (W : Work V E) (v : (k : K) → V k) (eff : Effect V E β) : Work V E where
  start := W.start
  logged := W.logged ++ eff.inserts
  held := eff.keys ++ W.held
  seen := v
  puts := W.puts ++ eff.puts
  earlier := W.earlier

/-- What the commit of this work by session `t` looks like. -/
structure Commits (W : Work V E) (t : Tid) (e : Commit V E) : Prop where
  tid : e.tid = t
  start : e.start = W.start
  agrees : W.Agrees e.before
  after : e.after = W.view e.before
  inserted : e.inserted = W.logged

@[simp] lemma after_start (W : Work V E) (v : (k : K) → V k) (eff : Effect V E β) :
    (W.after v eff).start = W.start := rfl

@[simp] lemma after_earlier (W : Work V E) (v : (k : K) → V k) (eff : Effect V E β) :
    (W.after v eff).earlier = W.earlier := rfl

@[simp] lemma after_logged (W : Work V E) (v : (k : K) → V k) (eff : Effect V E β) :
    (W.after v eff).logged = W.logged ++ eff.inserts := rfl

@[simp] lemma after_held (W : Work V E) (v : (k : K) → V k) (eff : Effect V E β) :
    (W.after v eff).held = eff.keys ++ W.held := rfl

@[simp] lemma after_seen (W : Work V E) (v : (k : K) → V k) (eff : Effect V E β) :
    (W.after v eff).seen = v := rfl

@[simp] lemma after_puts (W : Work V E) (v : (k : K) → V k) (eff : Effect V E β) :
    (W.after v eff).puts = W.puts ++ eff.puts := rfl

@[simp] lemma begun_agrees {start : ℤ} {seen v : (k : K) → V k} {earlier : List (Commit V E)} :
    (begun start seen earlier).Agrees v := by simp [Agrees, begun]

@[simp] lemma begun_view {start : ℤ} {seen v : (k : K) → V k} {earlier : List (Commit V E)} :
    (begun start seen earlier).view v = v := rfl

/-- The view with one more statement. -/
@[simp] lemma view_after (W : Work V E) (v x : (k : K) → V k) (eff : Effect V E β) :
    (W.after v eff).view x = applyPuts eff.puts (W.view x) := applyPuts_append

/-- The rows held before a statement are held after it. -/
lemma Agrees.of_after {W : Work V E} {v x : (k : K) → V k} {eff : Effect V E β}
    (hv : W.Agrees v) (h : (W.after v eff).Agrees x) : W.Agrees x :=
  fun k hk => (h k (List.mem_append_right _ hk)).trans (hv k hk)

/-- What a statement touches is as it saw it. -/
lemma Agrees.of_keys {W : Work V E} {v x : (k : K) → V k} {eff : Effect V E β}
    (h : (W.after v eff).Agrees x) {k : K} (hk : k ∈ eff.keys) : x k = v k :=
  h k (List.mem_append_left _ hk)

end Work

/-- The open transaction of session `t` has done the work `W`. -/
structure Working (t : Tid) (W : Work V E) (d : Db V E) : Prop where
  inTx : InTx t ⟨W.start, W.logged⟩ W.held d
  pinned : ∀ k ∈ W.held, Pinned t k (W.seen k) (W.view W.seen k) d
  keys : ∀ p ∈ W.puts, p.1 ∈ W.held
  commits : commitsOf t d = W.earlier

section Working

variable {t : Tid} {W : Work V E} {d : Db V E}

lemma stable_working {R : Db V E → Db V E → Prop} [IsRely t R] : Stable R (Working t W) := by
  intro d d' h hr
  exact ⟨stable_inTx _ _ h.inTx hr, fun k hk => stable_pinned _ _ (h.pinned k hk) hr, h.keys,
    stable_commitsOf (p := fun l => l = W.earlier) _ _ h.commits hr⟩

lemma Working.not_noTx (h : Working t W d) : ¬ NoTx t d := by simp [NoTx, h.inTx.sess]

/-- The rows the transaction holds are as it has them. -/
lemma Working.agrees (h : Working t W d) : W.Agrees d.committed :=
  fun k hk => (h.pinned k hk).committed

/-- **A transaction sees what is committed, with its own writes.** -/
lemma Working.view_eq (h : Working t W d) : d.view t = W.view d.committed := by
  funext k
  by_cases hk : k ∈ W.held
  · rw [(h.pinned k hk).view]
    exact applyPuts_congr (h.agrees k hk).symm
  · rw [h.inTx.view_of_notMem hk]
    refine (applyPuts_of_notMem fun hm => hk ?_).symm
    obtain ⟨p, hp, rfl⟩ := List.mem_map.mp hm
    exact h.keys p hp

/-- A statement extends the work. -/
lemma Working.afterQuery (h : Working t W d) (eff : Effect V E β) :
    Working t (W.after d.committed eff) (d.afterQuery t ⟨W.start, W.logged⟩ eff) := by
  refine ⟨Db.inTx_afterQuery h.inTx, fun k hk => ?_, fun p hp => ?_, h.commits⟩
  · by_cases hke : k ∈ eff.keys
    · have hp := Db.pinned_afterQuery (t := t) (S := ⟨W.start, W.logged⟩) (d := d) hke
      rw [h.view_eq] at hp
      simpa [Work.view, applyPuts_append] using hp
    · have hkh : k ∈ W.held := by
        rcases List.mem_append.mp hk with hk | hk
        · exact absurd hk hke
        · exact hk
      have hp := Db.pinned_afterQuery_of_notMem (S := ⟨W.start, W.logged⟩) (h.pinned k hkh) hke
      have hview : applyPuts (W.puts ++ eff.puts) d.committed k = W.view W.seen k := by
        rw [applyPuts_append, applyPuts_of_notMem hke]
        exact applyPuts_congr (h.agrees k hkh)
      simpa only [Work.after_seen, Work.view, Work.after_puts, h.agrees k hkh, hview] using hp
  · rcases List.mem_append.mp hp with hp | hp
    · exact List.mem_append_right _ (h.keys p hp)
    · exact List.mem_append_left _ (List.mem_map.mpr ⟨p, hp, rfl⟩)

/-- A commit records the work. -/
lemma Working.commits_of (h : Working t W d) :
    W.Commits t ⟨t, W.start, d.committed, d.view t, W.logged⟩ :=
  ⟨rfl, rfl, h.agrees, h.view_eq, rfl⟩

end Working

/-! ## Contracts

A row that every session changes in some ways only while it may lock another row, its guard, does
not change in these ways under a transaction that holds the guard, even where the transaction does
not hold the row itself. -/

/-- What all sessions of a store keep to: how a row may change while another session holds a
guard. -/
structure Contract (V : K → Type) where
  Guarded : (guard k : K) → V k → V k → Prop
  refl : ∀ {guard k : K} (x : V k), Guarded guard k x x
  trans : ∀ {guard k : K} {x y z : V k}, Guarded guard k x y → Guarded guard k y z →
    Guarded guard k x z

/-- The contract that asks for nothing. -/
def Contract.none (V : K → Type) : Contract V :=
  ⟨fun _ _ _ _ => True, fun _ => trivial, fun _ _ => trivial⟩

/-- A rely of session `t` under which the others keep to the contract. -/
class Honours (T : Contract V) (t : Tid) (R : Db V E → Db V E → Prop) : Prop
    extends IsRely t R where
  guarded : ∀ {d d'}, R d d' → ∀ {guard}, (d.rows guard).HeldBy t →
    ∀ k, T.Guarded guard k (d.committed k) (d'.committed k)

instance (P : Commit V E → Prop) (t : Tid) :
    Honours (Contract.none V) t (Rely P t : Db V E → Db V E → Prop) where
  guarded _ _ _ _ := trivial

/-- A committed state that may be found after the work `W`: the held rows are as the transaction has
them, and the others have changed the rows as the held rows let them. -/
structure Work.Fixed (T : Contract V) (W : Work V E) (v : (k : K) → V k) : Prop where
  agrees : W.Agrees v
  guarded : ∀ guard ∈ W.held, ∀ k, T.Guarded guard k (W.seen k) (v k)

/-- The open transaction of session `t` has done the work `W`, and what is committed may be found
after it. -/
structure Works (T : Contract V) (t : Tid) (W : Work V E) (d : Db V E) : Prop where
  working : Working t W d
  fixed : W.Fixed T d.committed

section Works

variable {T : Contract V} {t : Tid} {W : Work V E} {d : Db V E}

/-- What may be found after a statement could be found before it. -/
lemma Work.Fixed.of_after {v x : (k : K) → V k} {eff : Effect V E β} (hv : W.Fixed T v)
    (h : (W.after v eff).Fixed T x) : W.Fixed T x :=
  ⟨hv.agrees.of_after h.agrees, fun guard hg k =>
    T.trans (hv.guarded guard hg k) (h.guarded guard (List.mem_append_right _ hg) k)⟩

/-- What a statement touches is as it saw it. -/
lemma Work.Fixed.of_keys {v x : (k : K) → V k} {eff : Effect V E β}
    (h : (W.after v eff).Fixed T x) {k : K} (hk : k ∈ eff.keys) : x k = v k := h.agrees.of_keys hk

lemma stable_works {R : Db V E → Db V E → Prop} [Honours T t R] : Stable R (Works T t W) := by
  intro d d' h hr
  refine ⟨stable_working _ _ h.working hr, ⟨fun k hk => ?_, fun guard hg k => ?_⟩⟩
  · exact (stable_working _ _ h.working hr).agrees k hk
  · exact T.trans (h.fixed.guarded guard hg k)
      (Honours.guarded (t := t) hr (h.working.pinned _ hg).heldBy k)

lemma Works.not_noTx (h : Works T t W d) : ¬ NoTx t d := h.working.not_noTx

lemma Works.afterQuery (h : Works T t W d) (eff : Effect V E β) :
    Works T t (W.after d.committed eff) (d.afterQuery t ⟨W.start, W.logged⟩ eff) := by
  refine ⟨h.working.afterQuery eff, ?_⟩
  rw [Db.afterQuery_committed]
  exact ⟨fun _ _ => rfl, fun _ _ k => T.refl _⟩

/-- A transaction that has just begun. -/
lemma Working.works_begun {start : ℤ} {v : (k : K) → V k} {earlier : List (Commit V E)}
    (h : Working t (Work.begun start v earlier) d) (hv : d.committed = v) :
    Works T t (Work.begun start v earlier) d := by
  subst hv
  exact ⟨h, fun _ _ => rfl, fun _ _ _ => T.refl _⟩

lemma works_none : Works (Contract.none V) t W d ↔ Working t W d :=
  ⟨fun h => h.working, fun h => ⟨h, h.agrees, fun _ _ _ => trivial⟩⟩

end Works

/-! ## The rules -/

/-- How a transaction ends whose body meets `B` and whose errors meet `F`: committed where the body
asks for it, dropped otherwise. -/
abbrev Ended (t : Tid) (earlier : List (Commit V E)) (B : Work V E → Bool × α → Prop)
    (F : String → Prop) : Except String α → Db V E → Prop :=
  Post (fun a d => NoTx t d ∧
      ((∃ W e, B W (true, a) ∧ W.Commits t e ∧ commitsOf t d = earlier ++ [e]) ∨
        (∃ W, B W (false, a)) ∧ commitsOf t d = earlier))
    fun e d => NoTx t d ∧ F e ∧ commitsOf t d = earlier

lemma stable_ended {R : Db V E → Db V E → Prop} {t : Tid} [IsRely t R]
    {earlier : List (Commit V E)} {B : Work V E → Bool × α → Prop} {F : String → Prop}
    (r : Except String α) : Stable R (Ended t earlier B F r) := by
  intro d d' h hr
  have hj := commitsOf_rely (t := t) hr
  cases r with
  | ok a => exact ⟨stable_noTx _ _ h.1 hr, by simpa only [hj] using h.2⟩
  | error e => exact ⟨stable_noTx _ _ h.1 hr, h.2.1, hj.trans h.2.2⟩

namespace Tx

section Honours

variable {T : Contract V} {ok : L → Db V E → Prop} {t : Tid} {l : L}
  {R : Db V E → Db V E → Prop} [Honours T t R] {P : Db V E → Commit V E → Prop} {W : Work V E}

/-- **The rule of a statement** in a transaction that has done the work `W`; `C` is what the
condition on the run says of what is committed when the statement runs. -/
lemma query_works_triple {stmt : Stmt V E β} (C : ((k : K) → V k) → Prop)
    (hC : ∀ d, Works T t W d → ok l d → C d.committed) :
    Prog.Triple R ok (Plain fun _ d d' => Moves (P d) t d d') (Works T t W)
      (query t l stmt : Tx L V E β).run
      (Post (fun b d => ∃ v eff, W.Fixed T v ∧ C v ∧ stmt (W.view v) W.start = .ok eff ∧
          b = eff.val ∧ Works T t (W.after v eff) d)
        fun e d => (∃ v, W.Fixed T v ∧ C v ∧ stmt (W.view v) W.start = .error e) ∧
          NoTx t d ∧ commitsOf t d = W.earlier) := by
  have hstart : ∀ d S, Works T t W d → d.sess t = some S → ⟨W.start, W.logged⟩ = S :=
    fun d S h hS => Option.some.inj (h.working.inTx.sess.symm.trans hS)
  refine query_triple stable_works (fun b => ?_)
    (fun _ => (Stable.const _).and (stable_noTx.and
      (stable_commitsOf (p := fun l => l = W.earlier))))
    (fun _ h => h.not_noTx) (fun d S eff h ho hS he => ?_) fun d S e h ho hS he => ?_
  · rintro d d' ⟨v, eff, hv, hc, he, hb, hW⟩ hr
    exact ⟨v, eff, hv, hc, he, hb, stable_works _ _ hW hr⟩
  · obtain rfl := hstart d S h hS
    rw [h.working.view_eq] at he
    exact ⟨d.committed, eff, h.fixed, hC d h ho, he, rfl, h.afterQuery eff⟩
  · obtain rfl := hstart d S h hS
    rw [h.working.view_eq] at he
    exact ⟨⟨d.committed, h.fixed, hC d h ho, he⟩, Db.noTx_rollback, h.working.commits⟩

/-- **The rule of a statement before the rest of the transaction**: the rest may use what the
statement has read and written. -/
lemma query_bind_works_triple {γ : Type} {stmt : Stmt V E β} {k : β → Tx L V E γ}
    {Q : Except String γ → Db V E → Prop} (C : ((k : K) → V k) → Prop)
    (hC : ∀ d, Works T t W d → ok l d → C d.committed)
    (hk : ∀ v eff, W.Fixed T v → C v → stmt (W.view v) W.start = .ok eff →
      Prog.Triple R ok (Plain fun _ d d' => Moves (P d) t d d') (Works T t (W.after v eff))
        (k eff.val).run Q)
    (hF : ∀ e v d, W.Fixed T v → C v → stmt (W.view v) W.start = .error e → NoTx t d →
      commitsOf t d = W.earlier → Q (.error e) d) :
    Prog.Triple R ok (Plain fun _ d d' => Moves (P d) t d d') (Works T t W)
      (query t l stmt >>= k : Tx L V E γ).run Q := by
  refine Fallible.bind_triple (query_works_triple C hC) (fun _ _ _ _ h => h)
    (IsRely.refl t) ?_ fun b => ?_
  · rintro e d d' ⟨⟨v, hv, hc, he⟩, hno, hj⟩ hr
    exact hF e v d' hv hc he (stable_noTx _ _ hno hr) ((commitsOf_rely hr).trans hj)
  · rintro d ⟨v, eff, hv, hc, he, rfl, hW⟩
    exact hk v eff hv hc he d hW

/-- **The rule of a transaction** among what holds of the journal and of what is committed: `A` is
kept while nothing is committed, `I` is known of the instant it begins, `B` is what the body leaves
of its work with its result, `F` what it fails with. -/
lemma transaction_works_triple {A : Db V E → Prop} {I : ℤ → Prop}
    {body : Tx L V E (Bool × α)} {B : Work V E → Bool × α → Prop} {F : String → Prop}
    {Q : Except String α → Db V E → Prop} (hwf : ∀ d, ok l d → d.WF) (hA : Stable R A)
    (hquiet : ∀ d d' : Db V E, d'.journal = d.journal → d'.committed = d.committed →
      d.now ≤ d'.now → A d → A d')
    (hI : ∀ d, A d → ok l d → I d.now)
    (hbody : ∀ start v earlier, I start →
      Prog.Triple R ok (Plain fun _ => Moves (fun _ => False) t)
        (Works T t (Work.begun start v earlier)) body.run
        (Post (fun r d => ∃ W, Works T t W d ∧ W.earlier = earlier ∧ B W r)
          fun e d => F e ∧ commitsOf t d = earlier))
    (hQ : ∀ r, Stable R (Q r))
    (hcommit : ∀ d W a, A d → ok l d → Works T t W d → B W (true, a) →
      P d ⟨t, W.start, d.committed, d.view t, W.logged⟩ ∧
        Q (.ok a) (d.afterCommit t ⟨W.start, W.logged⟩))
    (hdrop : ∀ d W a, A d → ok l d → Works T t W d → B W (false, a) → Q (.ok a) (d.rollback t))
    (herr : ∀ d e, A d → ok l d → F e → Q (.error e) (d.rollback t)) :
    Prog.Triple R ok (Plain fun _ d d' => Moves (P d) t d d') (fun d => NoTx t d ∧ A d)
      (transaction t l body : Tx L V E α).run Q := by
  have hframe : ∀ l d d' (q : Prog L (Db V E) (Except String (Bool × α))),
      Plain (fun _ => Moves (fun _ => False) t) l d d' q → A d → A d' := by
    intro _ d d' _ hm ha
    obtain ⟨hj, hc⟩ := hm.commits.resolve_right (by rintro ⟨e, -, -, -, -, h⟩; exact h)
    exact hquiet d d' hj hc (hm.keeps (t + 1) (Nat.succ_ne_self t)).now_le ha
  refine transaction_triple
    (G := fun d => (∃ start v earlier, I start ∧ Works T t (Work.begun start v earlier) d) ∧ A d)
    (B := fun r d => (∃ W, Works T t W d ∧ B W r) ∧ A d) (F := fun e d => F e ∧ A d) hwf
    (stable_noTx.and hA) ?_ (fun r => ?_) (fun e => (Stable.const _).and hA) hQ
    (fun d d' h ho _ hin hc hj hn => ?_) ?_ (fun d a h ho => ?_) (fun d a h ho => ?_)
    fun d e h ho => herr d e h.2 ho h.1
  · refine (Stable.exists fun start => Stable.exists fun v => Stable.exists fun earlier => ?_).and hA
    exact (Stable.const _).and stable_works
  · exact (Stable.exists fun W => stable_works.and (Stable.const _)).and hA
  · refine ⟨⟨d.now, d.committed, commitsOf t d, hI d h.2 ho, Working.works_begun ?_ hc⟩,
      hquiet d d' hj hc (Int.le_of_eq hn.symm) h.2⟩
    exact ⟨hin, by simp [Work.begun], by simp [Work.begun], by rw [commitsOf, hj]; rfl⟩
  · rintro d ⟨⟨start, v, earlier, hstart, hW⟩, ha⟩
    have hrun := (hbody start v earlier hstart d hW).frame (P := A) hA hframe ha
    refine hrun.mono (fun _ _ => id) (fun _ _ => id)
      (fun _ _ _ _ hm => hm.mono fun _ h => h.elim) fun r d' h => ?_
    cases r with
    | ok r =>
      obtain ⟨⟨W, hW, -, hB⟩, ha⟩ := h
      exact ⟨⟨W, hW, hB⟩, ha⟩
    | error e => exact ⟨h.1.1, h.2⟩
  · obtain ⟨⟨W, hW, hB⟩, ha⟩ := h
    exact ⟨_, hW.working.inTx.sess, hcommit d W a ha ho hW hB⟩
  · obtain ⟨⟨W, hW, hB⟩, ha⟩ := h
    exact hdrop d W a ha ho hW hB

end Honours

section Rely

variable {ok : L → Db V E → Prop} {t : Tid} {l : L} {P P' : Commit V E → Prop}
  {W : Work V E}

/-- The rule of a statement before the rest of the transaction, where no row is guarded. -/
lemma query_bind_triple {γ : Type} {stmt : Stmt V E β} {k : β → Tx L V E γ}
    {Q : Except String γ → Db V E → Prop} (C : ((k : K) → V k) → Prop)
    (hC : ∀ d, Working t W d → ok l d → C d.committed)
    (hk : ∀ v eff, W.Agrees v → C v → stmt (W.view v) W.start = .ok eff →
      Prog.Triple (Rely P t) ok (Plain fun _ => Moves P' t) (Working t (W.after v eff))
        (k eff.val).run Q)
    (hF : ∀ e v d, W.Agrees v → C v → stmt (W.view v) W.start = .error e →
      commitsOf t d = W.earlier → Q (.error e) d) :
    Prog.Triple (Rely P t) ok (Plain fun _ => Moves P' t) (Working t W)
      (query t l stmt >>= k : Tx L V E γ).run Q := by
  have h := query_bind_works_triple (T := Contract.none V) (R := Rely P t) (P := fun _ => P')
    (W := W) (Q := Q) (k := k) (l := l) C (fun d h => hC d h.working)
    (fun v eff hv hc he => (hk v eff hv.agrees hc he).conseq (fun d h => h.working) fun _ _ => id)
    fun e v d hv hc he _ => hF e v d hv.agrees hc he
  exact h.conseq (fun d h => works_none.mpr h) fun _ _ => id

/-- The rule of a transaction all of whose commits meet `P`. -/
lemma transaction_work_triple {body : Tx L V E (Bool × α)} {B : Work V E → Bool × α → Prop}
    {F : String → Prop} {earlier : List (Commit V E)}
    (hwf : ∀ d, ok l d → d.WF)
    (hbody : ∀ start v earlier, Prog.Triple (Rely P t) ok (Plain fun _ => Moves (fun _ => False) t)
      (Working t (Work.begun start v earlier)) body.run
      (Post (fun r d => ∃ W, Working t W d ∧ W.earlier = earlier ∧ B W r)
        fun e d => F e ∧ commitsOf t d = earlier))
    (hP : ∀ W a e, B W (true, a) → W.Commits t e → P e) :
    Prog.Triple (Rely P t) ok (Plain fun _ => Moves P t)
      (fun d => NoTx t d ∧ commitsOf t d = earlier) (transaction t l body : Tx L V E α).run
      (Ended t earlier B F) := by
  refine transaction_works_triple (T := Contract.none V) (P := fun _ => P) (I := fun _ => True)
    (A := fun d => commitsOf t d = earlier) (B := B) (F := F) hwf
    (stable_commitsOf (p := fun l => l = earlier)) (fun d d' hj _ _ h => by rwa [commitsOf, hj])
    (fun _ _ _ => trivial) (fun start v earlier' _ => ?_) stable_ended
    (fun d W a hj _ hW hB => ?_) (fun d W a hj _ hW hB => ?_) fun d e hj _ hF => ?_
  · refine (hbody start v earlier').conseq (fun d h => h.working) fun r d h => ?_
    cases r with
    | ok r =>
      obtain ⟨W, hW, he, hB⟩ := h
      exact ⟨W, works_none.mpr hW, he, hB⟩
    | error e => exact h
  · refine ⟨hP W a _ hB hW.working.commits_of, Db.noTx_afterCommit, .inl ?_⟩
    exact ⟨W, _, hB, hW.working.commits_of, by rw [Db.afterCommit_commitsOf, hj]⟩
  · exact ⟨Db.noTx_rollback, .inr ⟨⟨W, hB⟩, hj⟩⟩
  · exact ⟨Db.noTx_rollback, hF, hj⟩

end Rely

end Tx

end ReadCommitted
