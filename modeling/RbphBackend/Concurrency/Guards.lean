import RbphBackend.Concurrency.Discipline
import RbphBackend.Concurrency.Draft

set_option relaxedAutoImplicit false
set_option autoImplicit false
set_option linter.unusedSectionVars false

/-!
# Rows that are guarded by locks

Sessions whose commits meet one property, and that change what a row guards only while they may lock
that row, keep to a discipline. A transaction keeps to it by what its body drafts.

## Main definitions

* `ReadCommitted.guards` — the discipline.
* `ReadCommitted.Draft.Respects` — a draft changes only what its rows guard.
* `ReadCommitted.Wrote` — what a draft has written, what it holds and what it knows.
* `ReadCommitted.Closed` — how a transaction has ended.

## Main results

* `ReadCommitted.Draws.guards_commit_triple`, `ReadCommitted.Tx.pool_guards_triple` — the rules of a
  transaction, and of a statement that is one.
-/

namespace ReadCommitted

open Concurrency

variable {K : Type} [DecidableEq K] {V : K → Type} {E L α β : Type}

/-- Commits that meet `P`, and that change rows as the guards that their sessions may not lock let
them. -/
def guards (T : Contract V) (P : Commit V E → Prop) (v₀ : (k : K) → V k) : Discipline V E where
  contract := T
  Commits t d e := P e ∧
    ∀ guard, ¬ (d.rows guard).Lockable t → ∀ k, T.Guarded guard k (e.before k) (e.after k)
  Inv := Journaled P v₀
  guarded h hl := h.2 _ hl
  inv_moves h hm := h.moves (hm.mono fun _ h => h.1)
  inv_tick n h := h.tick n

/-- The draft changes rows as the guards it does not hold let it. -/
def Draft.Respects (T : Contract V) (dr : Draft V E) : Prop :=
  ∀ guard, guard ∉ dr.held → ∀ k, T.Guarded guard k (dr.before k) (dr.after k)

/-! ## What a draft has written -/

/-- Rows that are written as `w` has them, where the others are as `w` has them. -/
lemma applyPuts_eq_of_forall {puts : List (Σ k, V k)} {v w : (k : K) → V k}
    (hputs : ∀ p ∈ puts, p.2 = w p.1) (hrest : ∀ k, k ∉ puts.map (·.1) → v k = w k) :
    applyPuts puts v = w := by
  induction puts generalizing v with
  | nil => exact funext fun k => hrest k (by simp)
  | cons p ps ih =>
    rw [applyPuts_cons]
    refine ih (fun q hq => hputs q (List.mem_cons_of_mem _ hq)) fun k hk => ?_
    by_cases hkp : k = p.1
    · subst hkp
      rw [Function.update_self]
      exact hputs p List.mem_cons_self
    · rw [Function.update_of_ne hkp]
      exact hrest k (by simpa [hkp] using hk)

/-- A row is as it was, or as it was written. -/
lemma applyPuts_cases (puts : List (Σ k, V k)) (v : (k : K) → V k) (k : K) :
    (k ∉ puts.map (·.1) ∧ applyPuts puts v k = v k) ∨
      ∃ x, ⟨k, x⟩ ∈ puts ∧ applyPuts puts v k = x := by
  induction puts generalizing v with
  | nil => exact .inl ⟨by simp, rfl⟩
  | cons p ps ih =>
    rw [applyPuts_cons]
    rcases ih (Function.update v p.1 p.2) with ⟨hk, h⟩ | ⟨x, hx, h⟩
    · by_cases hkp : k = p.1
      · subst hkp
        exact .inr ⟨p.2, List.mem_cons_self, h.trans (Function.update_self _ _ _)⟩
      · rw [Function.update_of_ne hkp] at h
        exact .inl ⟨by simpa [hkp] using hk, h⟩
    · exact .inr ⟨x, List.mem_cons_of_mem _ hx, h⟩

/-- The transaction of session `t` holds the rows `H`, has written `W` and nothing else, and knows `F`
of what is committed. -/
structure Wrote (t : Tid) (H : List K) (W : List (Σ k, V k)) (F : ((k : K) → V k) → Prop)
    (dr : Draft V E) : Prop where
  tid : dr.tid = t
  held : ∀ k ∈ H, k ∈ dr.held
  after : dr.after = applyPuts W dr.before
  facts : F dr.before

namespace Wrote

variable {t : Tid} {H : List K} {W : List (Σ k, V k)} {F F' : ((k : K) → V k) → Prop}
  {dr dr₀ : Draft V E} {b : β} {k : K}

lemma begun {start : ℤ} {v : (k : K) → V k} :
    Wrote t ([] : List K) [] (fun _ => True) (.begun t start v : Draft V E) :=
  ⟨rfl, by simp, rfl, trivial⟩

/-- Knowing other things of what is committed. -/
lemma know (h : Wrote t H W F dr) (hF : F' dr.before) : Wrote t H W F' dr :=
  ⟨h.tid, h.held, h.after, hF⟩

/-- Inserting records writes no row. -/
lemma log {l : List E} (h : Wrote t H W F dr) :
    Wrote t H W F (dr.add ({ val := b, inserts := l } : Effect V E β)) :=
  ⟨h.tid, h.held, h.after, h.facts⟩

/-- Locking a row as it is. -/
lemma lock {x : V k} (h : Wrote t H W F dr) (hx : x = dr.after k) :
    Wrote t (k :: H) W F (dr.add ({ val := b, puts := [⟨k, x⟩] } : Effect V E β)) := by
  refine ⟨h.tid, fun k' hk' => ?_, ?_, h.facts⟩
  · rcases List.mem_cons.1 hk' with rfl | hk'
    · exact List.mem_append_left _ (List.mem_singleton_self _)
    · exact List.mem_append_right _ (h.held k' hk')
  · rw [Draft.add_after, applyPuts_of_locks]
    · exact h.after
    · intro p hp
      obtain rfl := List.mem_singleton.1 hp
      exact hx

/-- Writing rows. -/
lemma write (h : Wrote t H W F dr) (b : β) (puts : List (Σ k, V k)) (l : List E) :
    Wrote t (puts.map (·.1) ++ H) (W ++ puts) F
      (dr.add ({ val := b, puts := puts, inserts := l } : Effect V E β)) := by
  refine ⟨h.tid, fun k' hk' => ?_, ?_, h.facts⟩
  · rcases List.mem_append.1 hk' with hk' | hk'
    · exact List.mem_append_left _ hk'
    · exact List.mem_append_right _ (h.held k' hk')
  · rw [Draft.add_after, h.after, applyPuts_append]
    rfl

/-- Writing a row. -/
lemma put {l : List E} {x : V k} (h : Wrote t H W F dr) :
    Wrote t (k :: H) (W ++ [⟨k, x⟩]) F
      (dr.add ({ val := b, puts := [⟨k, x⟩], inserts := l } : Effect V E β)) :=
  h.write b [⟨k, x⟩] l

/-- The rows that are not written. -/
lemma rest (h : Wrote t H W F dr) (hk : k ∉ W.map (·.1)) : dr.after k = dr.before k := by
  rw [h.after, applyPuts_of_notMem hk]

/-- Nothing is written yet. -/
lemma after_eq (h : Wrote t H [] F dr) : dr.after = dr.before := h.after

/-- A row that is held is the same when the statement has run. -/
lemma later_eq {T : Contract V} {keys : List K} (h : Wrote t H W F dr)
    (hlater : dr₀.Later T keys dr) (hk : k ∈ keys ∨ k ∈ H) :
    dr.before k = dr₀.before k ∧ dr.after k = dr₀.after k := by
  have hmem : k ∈ keys ++ dr.held := List.mem_append.2 (hk.imp id (h.held k))
  exact ⟨hlater.before_eq k hmem, hlater.after_eq k hmem⟩

/-- The other rows have changed as a row that is held lets them. -/
lemma later_guarded {T : Contract V} {keys : List K} (h : Wrote t H W F dr)
    (hlater : dr₀.Later T keys dr) {guard : K} (hg : guard ∈ H) :
    T.Guarded guard k (dr₀.after k) (dr.after k) :=
  hlater.guarded guard (List.mem_append_right _ (h.held guard hg)) k

end Wrote

/-! ## Transactions -/

/-- How a transaction has ended: with the commit of a draft that meets `N` where it says so, without
a commit otherwise. -/
def Closed (t : Tid) (earlier : List (Commit V E)) (N : Bool × α → Draft V E → Prop) :
    Except String α → Db V E → Prop :=
  Post (fun a d => NoTx t d ∧
      ((∃ dr, N (true, a) dr ∧ commitsOf t d = earlier ++ [dr.toCommit]) ∨
        (∃ dr, N (false, a) dr) ∧ commitsOf t d = earlier))
    fun _ d => NoTx t d ∧ commitsOf t d = earlier

section Guards

variable {T : Contract V} {P : Commit V E → Prop} {v₀ : (k : K) → V k} {t : Tid} {l : L}
  {ok : L → Db V E → Prop} {earlier : List (Commit V E)}

lemma stable_closed {R : Db V E → Db V E → Prop} [IsRely t R] {N : Bool × α → Draft V E → Prop}
    (r : Except String α) : Stable R (Closed t earlier N r) := by
  intro d d' h hr
  have hcommits := commitsOf_rely (t := t) hr
  cases r with
  | ok a => exact ⟨stable_noTx _ _ h.1 hr, by simpa only [hcommits] using h.2⟩
  | error e => exact ⟨stable_noTx _ _ h.1 hr, hcommits.trans h.2⟩

instance : Honours T t ((guards T P v₀).Others t) :=
  inferInstanceAs (Honours (guards T P v₀).contract t _)

/-- **The rule of a transaction** whose drafts meet `P` and respect the guards, by what holds where it
commits. -/
lemma Draws.guards_commit_triple {I : ((k : K) → V k) → Prop} {body : Tx L V E (Bool × α)}
    {N : Bool × α → Draft V E → Prop} {Z : Draft V E → Prop}
    (hok : ∀ d, ok l d → Journaled P v₀ d) (hI : ∀ d, ok l d → I d.committed)
    (hbody : Draws ((guards T P v₀).Others t) ok T t I
      (fun dr => dr = .begun t dr.start dr.before) body N Z)
    (hN : ∀ d a dr, ok l d → dr.tid = t → dr.before = d.committed → d.view t = dr.after →
      (∀ k ∈ dr.held, (d.rows k).HeldBy t) → N (true, a) dr → P dr.toCommit ∧ dr.Respects T) :
    Prog.Triple ((guards T P v₀).Others t) ok ((guards T P v₀).Guarantee t)
      (fun d => NoTx t d ∧ commitsOf t d = earlier) (Tx.transaction t l body).run
      (Closed t earlier N) := by
  have hbegun : Draws ((guards T P v₀).Others t) ok T t I
      (fun dr => True ∧ dr = .begun t dr.start dr.before) body N Z :=
    hbody.conseq (fun _ _ h => h.2) (fun _ _ _ h => h) fun _ _ h => h
  refine hbegun.transaction_view_triple (S := fun _ => True) (P := (guards T P v₀).Commits t)
    (A := fun d => commitsOf t d = earlier) (fun d h => (hok d h).wf) hI
    (stable_commitsOf (p := fun l => l = earlier)) ?_ (fun _ _ _ => trivial)
    (fun r => stable_closed r) ?_ ?_ ?_
  · intro d d' hj _ _ h
    rwa [commitsOf, hj]
  · intro d d' a dr ha ho hheld hview hrec hdr
    obtain ⟨hP, hrespects⟩ := hN d a dr ho hrec.tid hrec.before hview hheld hdr
    refine ⟨⟨hP, fun guard hguard k => hrespects guard (fun hmem => ?_) k⟩, hrec.noTx,
      .inl ⟨dr, hdr, by rw [hrec.commitsOf_eq, ha]⟩⟩
    exact hguard (hheld guard hmem).lockable
  · intro d d' a ha _ hdrop hdr
    exact ⟨hdrop.noTx, .inr ⟨hdr, hdrop.commitsOf_eq.trans ha⟩⟩
  · intro d d' e ha _ hdrop
    exact ⟨hdrop.noTx, hdrop.commitsOf_eq.trans ha⟩

/-- The rule of a transaction whose drafts meet `P` and respect the guards. -/
lemma Draws.guards_triple {I : ((k : K) → V k) → Prop} {body : Tx L V E (Bool × α)}
    {N : Bool × α → Draft V E → Prop} {Z : Draft V E → Prop}
    (hok : ∀ d, ok l d → Journaled P v₀ d) (hI : ∀ d, ok l d → I d.committed)
    (hbody : Draws ((guards T P v₀).Others t) ok T t I
      (fun dr => dr = .begun t dr.start dr.before) body N Z)
    (hN : ∀ a dr, I dr.before → N (true, a) dr → P dr.toCommit ∧ dr.Respects T) :
    Prog.Triple ((guards T P v₀).Others t) ok ((guards T P v₀).Guarantee t)
      (fun d => NoTx t d ∧ commitsOf t d = earlier) (Tx.transaction t l body).run
      (Closed t earlier N) :=
  hbody.guards_commit_triple hok hI fun d a dr ho _ hbefore _ _ =>
    hN a dr (hbefore ▸ hI d ho)

/-- **The rule of a statement that is a transaction of its own**, whose commit meets `P` and respects
the guards. -/
lemma Tx.pool_guards_triple {stmt : Stmt V E β} {A : Db V E → Prop}
    {Q : Except String β → Db V E → Prop} (hA : Stable ((guards T P v₀).Others t) A)
    (hQ : ∀ r, Stable ((guards T P v₀).Others t) (Q r)) (hno : ∀ d, A d → NoTx t d)
    (hread : ∀ d eff, A d → ok l d → stmt d.committed d.now = .ok eff → eff.puts = [] →
      eff.inserts = [] → Q (.ok eff.val) d)
    (hwrite : ∀ d d' eff, A d → ok l d → stmt d.committed d.now = .ok eff →
      Records t ⟨t, d.now, d.committed, applyPuts eff.puts d.committed, eff.inserts⟩ d d' →
      P ⟨t, d.now, d.committed, applyPuts eff.puts d.committed, eff.inserts⟩ ∧
        Draft.Respects T ⟨⟨t, d.now, d.committed, applyPuts eff.puts d.committed, eff.inserts⟩,
          eff.keys⟩ ∧ Q (.ok eff.val) d')
    (herr : ∀ d e, A d → ok l d → stmt d.committed d.now = .error e → Q (.error e) d) :
    Prog.Triple ((guards T P v₀).Others t) ok ((guards T P v₀).Guarantee t) A
      (Tx.pool t l stmt).run Q := by
  refine Tx.pool_records_triple hA hQ hno hread
    (fun d d' eff ha ho he hlock hrec => ?_) herr
  obtain ⟨hP, hrespects, hq⟩ := hwrite d d' eff ha ho he hrec
  exact ⟨⟨hP, fun guard hguard => hrespects guard fun hmem => hguard (hlock guard hmem)⟩, hq⟩

end Guards

end ReadCommitted
