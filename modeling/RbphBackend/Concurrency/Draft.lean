import RbphBackend.Concurrency.Work

set_option relaxedAutoImplicit false
set_option autoImplicit false
set_option linter.unusedSectionVars false

/-!
# Drafts

The work of an open transaction, seen from what is committed now, is the commit it would make: a
draft. What is claimed of a transaction is claimed of its draft after each of its statements,
whatever the others may have committed until then, and so of its commit in the end.

## Main definitions

* `ReadCommitted.Draft` — the commit a transaction would make, with the rows it holds.
* `ReadCommitted.Draft.Later` — the same draft at a later committed state.
* `ReadCommitted.Draws` — a part of a transaction takes drafts that meet one assertion to drafts that
  meet another one.
* `ReadCommitted.Endures`, `ReadCommitted.Fails` — a part that goes on after an error, and a part that
  does not.
* `ReadCommitted.Records`, `ReadCommitted.Drops` — the store after a commit and after a rollback.

## Main results

* `ReadCommitted.Draws.query`, `ReadCommitted.Draws.bind` — the rules of a part of a transaction.
* `ReadCommitted.Draws.transaction_triple` — the rule of the whole.
-/

namespace ReadCommitted

open Concurrency

variable {K : Type} [DecidableEq K] {V : K → Type} {E L α β : Type}

/-! ## Drafts -/

/-- The commit an open transaction would make, with the rows it holds. -/
structure Draft {K : Type} (V : K → Type) (E : Type) extends Commit V E where
  held : List K

namespace Draft

/-- The draft of a transaction that has just begun. -/
def begun (t : Tid) (start : ℤ) (v : (k : K) → V k) : Draft V E := ⟨⟨t, start, v, v, []⟩, []⟩

/-- The draft with one more statement. -/
def add (dr : Draft V E) (eff : Effect V E β) : Draft V E where
  tid := dr.tid
  start := dr.start
  before := dr.before
  after := applyPuts eff.puts dr.after
  inserted := dr.inserted ++ eff.inserts
  held := eff.keys ++ dr.held

variable {dr dr₀ : Draft V E} {eff : Effect V E β}

@[simp] lemma add_tid : (dr.add eff).tid = dr.tid := rfl
@[simp] lemma add_start : (dr.add eff).start = dr.start := rfl
@[simp] lemma add_before : (dr.add eff).before = dr.before := rfl
@[simp] lemma add_after : (dr.add eff).after = applyPuts eff.puts dr.after := rfl
@[simp] lemma add_inserted : (dr.add eff).inserted = dr.inserted ++ eff.inserts := rfl
@[simp] lemma add_held : (dr.add eff).held = eff.keys ++ dr.held := rfl

/-- A statement that only reads leaves the draft. -/
@[simp] lemma add_read {b : β} : dr.add ({ val := b } : Effect V E β) = dr := by
  simp [add, Effect.keys]

/-- The draft `dr₀` at a later committed state: the rows of `keys` and the rows held are the same,
and the others have changed as these rows let them. -/
structure Later (T : Contract V) (keys : List K) (dr₀ dr : Draft V E) : Prop where
  tid : dr.tid = dr₀.tid
  start : dr.start = dr₀.start
  inserted : dr.inserted = dr₀.inserted
  held : dr.held = dr₀.held
  before_eq : ∀ k ∈ keys ++ dr.held, dr.before k = dr₀.before k
  after_eq : ∀ k ∈ keys ++ dr.held, dr.after k = dr₀.after k
  guarded : ∀ guard ∈ keys ++ dr.held, ∀ k, T.Guarded guard k (dr₀.after k) (dr.after k)

end Draft

/-- The draft of the work `W`, from the committed state `v`. -/
def Work.draft (W : Work V E) (t : Tid) (v : (k : K) → V k) : Draft V E :=
  ⟨⟨t, W.start, v, W.view v, W.logged⟩, W.held⟩

lemma Work.draft_after {W : Work V E} {t : Tid} {v x : (k : K) → V k} {eff : Effect V E β} :
    (W.after v eff).draft t x = (W.draft t x).add eff := by
  simp [Work.draft, Draft.add]

/-- What was drafted when a statement ran, and what is after it, are one draft. -/
lemma Work.Fixed.later {T : Contract V} {W : Work V E} {t : Tid} {v x : (k : K) → V k}
    {eff : Effect V E β} (hx : (W.after v eff).Fixed T x) (hkeys : ∀ p ∈ W.puts, p.1 ∈ W.held) :
    (W.draft t v).Later T eff.keys (W.draft t x) := by
  have hsame : ∀ k ∈ eff.keys ++ W.held, x k = v k := fun k hk => hx.agrees k hk
  refine ⟨rfl, rfl, rfl, rfl, hsame, fun k hk => applyPuts_congr (hsame k hk), fun guard hg k => ?_⟩
  by_cases hk : k ∈ W.held
  · have heq : W.view x k = W.view v k :=
      applyPuts_congr (hsame k (List.mem_append_right _ hk))
    show T.Guarded guard k (W.view v k) (W.view x k)
    rw [heq]
    exact T.refl _
  · have hnone : ∀ y : (k : K) → V k, W.view y k = y k := fun y =>
      applyPuts_of_notMem fun hm => hk (by
        obtain ⟨p, hp, rfl⟩ := List.mem_map.mp hm
        exact hkeys p hp)
    show T.Guarded guard k (W.view v k) (W.view x k)
    rw [hnone, hnone]
    exact hx.guarded guard hg k

/-! ## What a transaction drafts -/

/-- An assertion beside a transaction that holds the rows of `H`. -/
structure Beside (T : Contract V) (R : Db V E → Db V E → Prop) (t : Tid) (H : List K)
    (A : Db V E → Prop) : Prop where
  stable : ∀ {W d d'}, H ⊆ W.held → Works T t W d → A d → R d d' → A d'
  quiet : ∀ {d d' : Db V E}, d'.journal = d.journal → d'.committed = d.committed → A d → A d'

lemma Beside.mono {T : Contract V} {R : Db V E → Db V E → Prop} {t : Tid} {H H' : List K}
    {A : Db V E → Prop} (h : Beside T R t H A) (hH : H ⊆ H') : Beside T R t H' A :=
  ⟨fun hW => h.stable (List.Subset.trans hH hW), h.quiet⟩

/-- What is left of a draft: `N` of a result, `Z` of an error. -/
def Leaves (N : β → Draft V E → Prop) (Z : Draft V E → Prop) : Except String β → Draft V E → Prop
  | .ok b, dr => N b dr
  | .error _, dr => Z dr

/-- The transaction has gone on from the work `W`, and its draft meets `p`. -/
def Drafted (T : Contract V) (t : Tid) (I : ((k : K) → V k) → Prop) (W : Work V E)
    (A : Db V E → Prop) (p : Draft V E → Prop) (d : Db V E) : Prop :=
  ∃ W', Works T t W' d ∧ A d ∧ W'.earlier = W.earlier ∧ W.held ⊆ W'.held ∧
    ∀ x, I x → W'.Fixed T x → p (W'.draft t x)

/-- The transaction is gone, and the session has committed nothing since `earlier`. -/
def Gone (t : Tid) (earlier : List (Commit V E)) (d : Db V E) : Prop :=
  NoTx t d ∧ commitsOf t d = earlier

lemma stable_gone {R : Db V E → Db V E → Prop} {t : Tid} [IsRely t R]
    {earlier : List (Commit V E)} : Stable R (Gone t earlier) :=
  stable_noTx.and (stable_commitsOf (p := fun l => l = earlier))

lemma stable_drafted {T : Contract V} {R : Db V E → Db V E → Prop} {t : Tid} [Honours T t R]
    {I : ((k : K) → V k) → Prop} {W : Work V E} {A : Db V E → Prop} {p : Draft V E → Prop}
    (hA : Beside T R t W.held A) : Stable R (Drafted T t I W A p) := by
  rintro d d' ⟨W', hW, ha, he, hsub, hp⟩ hr
  exact ⟨W', stable_works _ _ hW hr, hA.stable hsub hW ha hr, he, hsub, hp⟩

/-- Beside an open transaction: it drafts, or it is gone and the result is an error. -/
def Stands (T : Contract V) (t : Tid) (I : ((k : K) → V k) → Prop) (W : Work V E)
    (A : Db V E → Prop) (N : β → Draft V E → Prop) (Z : Draft V E → Prop) (r : Except String β)
    (d : Db V E) : Prop :=
  Drafted T t I W A (Leaves N Z r) d ∨ (∃ e, r = .error e) ∧ Gone t W.earlier d

lemma stable_stands {T : Contract V} {R : Db V E → Db V E → Prop} {t : Tid} [Honours T t R]
    {I : ((k : K) → V k) → Prop} {W : Work V E} {A : Db V E → Prop} {N : β → Draft V E → Prop}
    {Z : Draft V E → Prop} (hA : Beside T R t W.held A) (r : Except String β) :
    Stable R (Stands T t I W A N Z r) := by
  rintro d d' (h | ⟨he, h⟩) hr
  · exact .inl (stable_drafted hA d d' h hr)
  · exact .inr ⟨he, stable_gone d d' h hr⟩

/-- A part of a transaction takes drafts that meet `M` to drafts that meet `N` of its result, or `Z`
where it ends with an error of its own; a statement that fails ends the transaction. Once the
transaction is gone, nothing more happens to the store. `I` holds of what is committed. -/
structure Draws (R : Db V E → Db V E → Prop) (ok : L → Db V E → Prop) (T : Contract V) (t : Tid)
    (I : ((k : K) → V k) → Prop) (M : Draft V E → Prop) (p : Tx L V E β)
    (N : β → Draft V E → Prop) (Z : Draft V E → Prop) : Prop where
  alive : ∀ (A : Db V E → Prop) W, Beside T R t W.held A →
    (∀ x, I x → W.Fixed T x → M (W.draft t x)) →
    Prog.Triple R ok (Plain fun _ => Moves (fun _ => False) t) (fun d => Works T t W d ∧ A d) p.run
      (Stands T t I W A N Z)
  gone : ∀ earlier, Prog.Triple R ok (Plain fun _ => Moves (fun _ => False) t) (Gone t earlier) p.run
    fun _ => Gone t earlier

namespace Draws

variable {R : Db V E → Db V E → Prop} {ok : L → Db V E → Prop} {T : Contract V} {t : Tid}
  [Honours T t R] {I : ((k : K) → V k) → Prop} {M : Draft V E → Prop} {N : β → Draft V E → Prop}
  {Z : Draft V E → Prop} {l : L}

/-- **The rule of a statement**, where `I` and a condition of the run on what is committed and on
what the transaction sees hold. -/
lemma statement {stmt : Stmt V E β} (C : ((k : K) → V k) → ((k : K) → V k) → Prop)
    (hI : ∀ d, ok l d → I d.committed) (hC : ∀ d, ok l d → C d.committed (d.view t))
    (hN : ∀ dr₀ dr eff, M dr₀ → M dr → I dr₀.before → I dr.before → C dr₀.before dr₀.after →
      stmt dr₀.after dr₀.start = .ok eff → dr₀.Later T eff.keys dr → N eff.val (dr.add eff)) :
    Draws R ok T t I M (Tx.query t l stmt) N Z := by
  refine ⟨fun A W hA hM => ?_, fun earlier => ?_⟩
  · refine Fallible.atomic_triple (fun d d' h hr => ?_) (stable_stands hA) fun d r d' h ho hq => ?_
    · exact ⟨stable_works _ _ h.1 hr, hA.stable (List.Subset.refl _) h.1 h.2 hr⟩
    obtain ⟨hW, ha⟩ := h
    refine ⟨Db.query_moves hq, ?_⟩
    rcases Db.query_cases hq with ⟨hs, -, -⟩ | ⟨S, hS, ⟨e, -, rfl, rfl⟩ | ⟨eff, he, rfl, -, rfl⟩⟩
    · exact absurd hs hW.not_noTx
    · exact .inr ⟨⟨e, rfl⟩, Db.noTx_rollback, hW.working.commits⟩
    · obtain rfl : ⟨W.start, W.logged⟩ = S := Option.some.inj (hW.working.inTx.sess.symm.trans hS)
      have hview := hW.working.view_eq
      rw [hview] at he
      have hcom : (d.afterQuery t ⟨W.start, W.logged⟩ eff).committed = d.committed :=
        Db.afterQuery_committed
      refine .inl ⟨W.after d.committed eff, hW.afterQuery eff, hA.quiet (d := d) rfl hcom ha, rfl,
        List.subset_append_right _ _, fun x hx hfix => ?_⟩
      rw [Work.draft_after]
      refine hN (W.draft t d.committed) (W.draft t x) eff (hM _ (hI d ho) hW.fixed)
        (hM x hx (hW.fixed.of_after hfix)) (hI d ho) hx ?_ he (hfix.later hW.working.keys)
      have hc := hC d ho
      rwa [hview] at hc
  · refine Fallible.atomic_triple stable_gone (fun _ => stable_gone) fun d r d' h ho hq => ?_
    refine ⟨Db.query_moves hq, ?_⟩
    rcases Db.query_cases hq with ⟨-, -, rfl⟩ | ⟨S, hS, -⟩
    · exact h
    · exact absurd h.1 (by simp [NoTx, hS])

/-- The rule of a statement where a condition of the run on what the transaction sees holds. -/
lemma query {stmt : Stmt V E β} (C : ((k : K) → V k) → Prop)
    (hI : ∀ d, ok l d → I d.committed) (hC : ∀ d, ok l d → C (d.view t))
    (hN : ∀ dr₀ dr eff, M dr₀ → M dr → I dr₀.before → I dr.before → C dr₀.after →
      stmt dr₀.after dr₀.start = .ok eff → dr₀.Later T eff.keys dr → N eff.val (dr.add eff)) :
    Draws R ok T t I M (Tx.query t l stmt) N Z := statement (fun _ => C) hI hC hN

/-- The rule of a statement that only reads. -/
lemma read {f : ((k : K) → V k) → ℤ → Except String β} (hI : ∀ d, ok l d → I d.committed)
    (hN : ∀ dr₀ dr b, M dr₀ → M dr → I dr₀.before → I dr.before →
      f dr₀.after dr₀.start = .ok b → dr₀.Later T [] dr → N b dr) :
    Draws R ok T t I M (Tx.query t l (Stmt.read f)) N Z := by
  refine query (fun _ => True) hI (fun _ _ => trivial) fun dr₀ dr eff h₀ h hi₀ hi _ he hlater => ?_
  obtain ⟨b, hb, rfl⟩ := Stmt.read_eq_ok.1 he
  rw [Draft.add_read]
  exact hN dr₀ dr b h₀ h hi₀ hi hb hlater

/-- A statement on another connection that only reads. -/
lemma pool_read {f : ((k : K) → V k) → ℤ → Except String β} :
    Draws R ok T t I M (Tx.pool t l (Stmt.read f)) (fun _ => M) M := by
  have hsame : ∀ {d d' : Db V E} {r : Except String β},
      d.pool t (Stmt.read f) = some (r, d') → d' = d := by
    intro d d' r hq
    rcases Db.pool_cases hq with ⟨-, -, -, h⟩ | ⟨eff, he, -, -, ⟨-, -, h⟩ | ⟨hne, -⟩⟩
    · exact h
    · exact h
    · obtain ⟨b, -, rfl⟩ := Stmt.read_eq_ok.mp he
      simp at hne
  refine ⟨fun A W hA hM => ?_, fun earlier => ?_⟩
  · refine Fallible.atomic_triple (fun d d' h hr => ?_) (stable_stands hA) fun d r d' h ho hq => ?_
    · exact ⟨stable_works _ _ h.1 hr, hA.stable (List.Subset.refl _) h.1 h.2 hr⟩
    obtain rfl := hsame hq
    refine ⟨Moves.refl _ t d', .inl ⟨W, h.1, h.2, rfl, List.Subset.refl _, fun x hx hfix => ?_⟩⟩
    cases r <;> exact hM x hx hfix
  · refine Fallible.atomic_triple stable_gone (fun _ => stable_gone) fun d r d' h ho hq => ?_
    obtain rfl := hsame hq
    exact ⟨Moves.refl _ t d', h⟩

/-- A part that has ended. -/
lemma pure {b : β} (h : ∀ dr, I dr.before → M dr → N b dr) :
    Draws R ok T t I M (Pure.pure b : Tx L V E β) N Z := by
  refine ⟨fun A W hA hM => ?_, fun earlier => Fallible.pure_triple stable_gone fun _ h => h⟩
  refine Fallible.pure_triple (fun d d' h hr => ?_) fun d hd => ?_
  · exact ⟨stable_works _ _ h.1 hr, hA.stable (List.Subset.refl _) h.1 h.2 hr⟩
  · exact .inl ⟨W, hd.1, hd.2, rfl, List.Subset.refl _, fun x hx hfix => h _ hx (hM x hx hfix)⟩

/-- A part that has ended with an error. -/
lemma throw {e : String} (h : ∀ dr, I dr.before → M dr → Z dr) :
    Draws R ok T t I M (MonadExcept.throw e : Tx L V E β) N Z := by
  refine ⟨fun A W hA hM => ?_, fun earlier => Fallible.throw_triple stable_gone fun _ h => h⟩
  refine Fallible.throw_triple (fun d d' h hr => ?_) fun d hd => ?_
  · exact ⟨stable_works _ _ h.1 hr, hA.stable (List.Subset.refl _) h.1 h.2 hr⟩
  · exact .inl ⟨W, hd.1, hd.2, rfl, List.Subset.refl _, fun x hx hfix => h _ hx (hM x hx hfix)⟩

/-- Strengthening the assertion, weakening what is left. -/
lemma conseq {M' : Draft V E → Prop} {N' : β → Draft V E → Prop} {Z' : Draft V E → Prop}
    {p : Tx L V E β} (h : Draws R ok T t I M p N Z) (hM : ∀ dr, I dr.before → M' dr → M dr)
    (hN : ∀ b dr, I dr.before → N b dr → N' b dr) (hZ : ∀ dr, I dr.before → Z dr → Z' dr) :
    Draws R ok T t I M' p N' Z' := by
  refine ⟨fun A W hA hM' => ?_, h.gone⟩
  refine (h.alive A W hA fun x hx hfix => hM _ hx (hM' x hx hfix)).conseq (fun _ => id) ?_
  rintro r d (⟨W', hW, ha, he, hsub, hp⟩ | hgone)
  · refine .inl ⟨W', hW, ha, he, hsub, fun x hx hfix => ?_⟩
    have hl := hp x hx hfix
    cases r with
    | ok b => exact hN b _ hx hl
    | error e => exact hZ _ hx hl
  · exact .inr hgone

/-- Weakening what is left of a result. -/
lemma post {N' : β → Draft V E → Prop} {p : Tx L V E β} (h : Draws R ok T t I M p N Z)
    (hN : ∀ b dr, N b dr → N' b dr) : Draws R ok T t I M p N' Z :=
  h.conseq (fun _ _ h => h) (fun b dr _ => hN b dr) fun _ _ h => h

omit [Honours T t R] in
/-- A part that has ended, before the rest. -/
lemma pure_bind {b : β} {k : β → Tx L V E α} {N' : α → Draft V E → Prop}
    (h : Draws R ok T t I M (k b) N' Z) : Draws R ok T t I M (Pure.pure b >>= k) N' Z := h

/-- **The rule of composition.** -/
lemma bind {p : Tx L V E β} {k : β → Tx L V E α} {N' : α → Draft V E → Prop}
    (hp : Draws R ok T t I M p N Z) (hk : ∀ b, Draws R ok T t I (N b) (k b) N' Z) :
    Draws R ok T t I M (p >>= k) N' Z := by
  have hrefl : ∀ d : Db V E, R d d := IsRely.refl t
  refine ⟨fun A W hA hM => ?_, fun earlier => ?_⟩
  · refine Prog.Triple.bind (hp.alive A W hA hM) (fun _ _ _ _ h => h) hrefl fun r => ?_
    cases r with
    | ok b =>
      rintro d (⟨W', hW, ha, he, hsub, hN⟩ | ⟨⟨e, hbad⟩, -⟩)
      · refine ((hk b).alive A W' (hA.mono hsub) hN d ⟨hW, ha⟩).mono (fun _ _ => id)
          (fun _ _ => id) (fun _ _ _ _ => id) ?_
        rintro r d' (⟨W'', hW'', ha', he', hsub', hN'⟩ | ⟨hr, hgone⟩)
        · exact .inl ⟨W'', hW'', ha', he'.trans he, List.Subset.trans hsub hsub', hN'⟩
        · exact .inr ⟨hr, he ▸ hgone⟩
      · simp at hbad
    | error e =>
      intro d hd d' hr
      rcases stable_stands hA _ d d' hd hr with ⟨W', hW, ha, he, hsub, hZ⟩ | ⟨-, hgone⟩
      · exact .inl ⟨W', hW, ha, he, hsub, hZ⟩
      · exact .inr ⟨⟨e, rfl⟩, hgone⟩
  · refine Prog.Triple.bind (hp.gone earlier) (fun _ _ _ _ h => h) hrefl fun r => ?_
    cases r with
    | ok b => exact (hk b).gone earlier
    | error e => exact fun d hd d' hr => stable_gone d d' hd hr

end Draws

/-! ## Parts that go on after an error

A function that is run inside a transaction may catch the error of a statement and go on; the
transaction is gone then, and the next statement fails. -/

/-- A part of a transaction whose drafts keep to `M`, whatever it returns; the transaction may be
gone. -/
structure Endures (R : Db V E → Db V E → Prop) (ok : L → Db V E → Prop) (T : Contract V) (t : Tid)
    (I : ((k : K) → V k) → Prop) (M : Draft V E → Prop) (p : Tx L V E β) : Prop where
  alive : ∀ (A : Db V E → Prop) W, Beside T R t W.held A →
    (∀ x, I x → W.Fixed T x → M (W.draft t x)) →
    Prog.Triple R ok (Plain fun _ => Moves (fun _ => False) t) (fun d => Works T t W d ∧ A d) p.run
      fun _ d => Drafted T t I W A M d ∨ Gone t W.earlier d
  gone : ∀ earlier, Prog.Triple R ok (Plain fun _ => Moves (fun _ => False) t) (Gone t earlier) p.run
    fun _ => Gone t earlier

/-- A part of a transaction that fails where the transaction is gone. -/
def Fails (R : Db V E → Db V E → Prop) (ok : L → Db V E → Prop) (t : Tid) (p : Tx L V E β) : Prop :=
  ∀ earlier, Prog.Triple R ok (Plain fun _ => Moves (fun _ => False) t) (Gone t earlier) p.run
    fun r d => (∃ e, r = .error e) ∧ Gone t earlier d

section Fails

variable {R : Db V E → Db V E → Prop} {ok : L → Db V E → Prop} {t : Tid} [IsRely t R] {l : L}

lemma Fails.query {stmt : Stmt V E β} : Fails R ok t (Tx.query t l stmt : Tx L V E β) := by
  intro earlier
  refine Fallible.atomic_triple stable_gone
    (fun r => (Stable.const _).and stable_gone) fun d r d' h ho hq => ?_
  refine ⟨Db.query_moves hq, ?_⟩
  rcases Db.query_cases hq with ⟨-, rfl, rfl⟩ | ⟨S, hS, -⟩
  · exact ⟨⟨_, rfl⟩, h⟩
  · exact absurd h.1 (by simp [NoTx, hS])

lemma Fails.throw {e : String} : Fails R ok t (MonadExcept.throw e : Tx L V E β) :=
  fun _ => Fallible.throw_triple stable_gone fun _ h => ⟨⟨e, rfl⟩, h⟩

lemma Fails.bind {p : Tx L V E β} {k : β → Tx L V E α} (hp : Fails R ok t p) :
    Fails R ok t (p >>= k) := by
  intro earlier
  refine Prog.Triple.bind (hp earlier) (fun _ _ _ _ h => h) (IsRely.refl t) fun r => ?_
  rintro d ⟨⟨e, rfl⟩, hd⟩ d' hr
  exact ⟨⟨e, rfl⟩, stable_gone d d' hd hr⟩

end Fails

section Endures

variable {R : Db V E → Db V E → Prop} {ok : L → Db V E → Prop} {T : Contract V} {t : Tid}
  [Honours T t R] {I : ((k : K) → V k) → Prop} {M : Draft V E → Prop} {N : β → Draft V E → Prop}
  {Z : Draft V E → Prop}

/-- A part that ends where the transaction is gone endures. -/
lemma Draws.endures {p : Tx L V E β} (h : Draws R ok T t I M p (fun _ => M) M) :
    Endures R ok T t I M p := by
  refine ⟨fun A W hA hM => (h.alive A W hA hM).conseq (fun _ => id) fun r d hd => ?_, h.gone⟩
  rcases hd with ⟨W', hW, ha, he, hsub, hl⟩ | ⟨-, hgone⟩
  · refine .inl ⟨W', hW, ha, he, hsub, fun x hx hfix => ?_⟩
    have hlx := hl x hx hfix
    cases r <;> exact hlx
  · exact .inr hgone

/-- What may be done whatever a part that endures returns. -/
lemma Endures.run_bind {p : Tx L V E β} {k : Except String β → Prog L (Db V E) (Except String α)}
    (hp : Endures R ok T t I M p)
    (hk : ∀ r, Endures R ok T t I M (ExceptT.mk (k r) : Tx L V E α)) :
    Endures R ok T t I M (ExceptT.mk (p.run.bind k) : Tx L V E α) := by
  have hrefl : ∀ d : Db V E, R d d := IsRely.refl t
  refine ⟨fun A W hA hM => ?_, fun earlier => ?_⟩
  · refine Prog.Triple.bind (hp.alive A W hA hM) (fun _ _ _ _ h => h) hrefl fun r => ?_
    rintro d (⟨W', hW, ha, he, hsub, hM'⟩ | hgone)
    · refine ((hk r).alive A W' (hA.mono hsub) hM' d ⟨hW, ha⟩).mono (fun _ _ => id)
        (fun _ _ => id) (fun _ _ _ _ => id) ?_
      rintro r' d' (⟨W'', hW'', ha', he', hsub', hM''⟩ | hgone)
      · exact .inl ⟨W'', hW'', ha', he'.trans he, List.Subset.trans hsub hsub', hM''⟩
      · exact .inr (he ▸ hgone)
    · exact ((hk r).gone W.earlier d hgone).mono (fun _ _ => id) (fun _ _ => id)
        (fun _ _ _ _ => id) fun _ _ => .inr
  · exact Prog.Triple.bind (hp.gone earlier) (fun _ _ _ _ h => h) hrefl fun r => (hk r).gone earlier

/-- **A part that endures, before a part that fails where the transaction is gone.** -/
lemma Endures.bind {p : Tx L V E β} {k : β → Tx L V E α} {N' : α → Draft V E → Prop}
    (hp : Endures R ok T t I M p) (hk : ∀ b, Draws R ok T t I M (k b) N' Z)
    (hf : ∀ b, Fails R ok t (k b)) (hZ : ∀ dr, M dr → Z dr) :
    Draws R ok T t I M (p >>= k) N' Z := by
  have hrefl : ∀ d : Db V E, R d d := IsRely.refl t
  refine ⟨fun A W hA hM => ?_, fun earlier => ?_⟩
  · refine Prog.Triple.bind (hp.alive A W hA hM) (fun _ _ _ _ h => h) hrefl fun r => ?_
    cases r with
    | ok b =>
      rintro d (⟨W', hW, ha, he, hsub, hM'⟩ | hgone)
      · refine ((hk b).alive A W' (hA.mono hsub) hM' d ⟨hW, ha⟩).mono (fun _ _ => id)
          (fun _ _ => id) (fun _ _ _ _ => id) ?_
        rintro r d' (⟨W'', hW'', ha', he', hsub', hN'⟩ | ⟨hr, hgone⟩)
        · exact .inl ⟨W'', hW'', ha', he'.trans he, List.Subset.trans hsub hsub', hN'⟩
        · exact .inr ⟨hr, he ▸ hgone⟩
      · exact (hf b W.earlier d hgone).mono (fun _ _ => id) (fun _ _ => id)
          (fun _ _ _ _ => id) fun _ _ => .inr
    | error e =>
      rintro d hd d' hr
      rcases hd with hd | hgone
      · obtain ⟨W', hW, ha, he, hsub, hM'⟩ := stable_drafted hA d d' hd hr
        exact .inl ⟨W', hW, ha, he, hsub, fun x hx hfix => hZ _ (hM' x hx hfix)⟩
      · exact .inr ⟨⟨e, rfl⟩, stable_gone d d' hgone hr⟩
  · refine Prog.Triple.bind (hp.gone earlier) (fun _ _ _ _ h => h) hrefl fun r => ?_
    cases r with
    | ok b => exact (hk b).gone earlier
    | error e => exact fun d hd d' hr => stable_gone d d' hd hr

end Endures

/-! ## Transactions -/

/-- The store after session `t` has committed `e`. -/
structure Records (t : Tid) (e : Commit V E) (d d' : Db V E) : Prop where
  tid : e.tid = t
  before : e.before = d.committed
  journal : d'.journal = d.journal ++ [e]
  committed : d'.committed = e.after
  now : d'.now = d.now
  noTx : NoTx t d'

/-- The store after session `t` has dropped its transaction. -/
structure Drops (t : Tid) (d d' : Db V E) : Prop where
  journal : d'.journal = d.journal
  committed : d'.committed = d.committed
  now : d'.now = d.now
  noTx : NoTx t d'

section Records

variable {t : Tid} {e : Commit V E} {d d' : Db V E}

lemma Records.commitsOf_eq (h : Records t e d d') : commitsOf t d' = commitsOf t d ++ [e] := by
  simp [commitsOf, h.journal, h.tid]

lemma Drops.commitsOf_eq (h : Drops t d d') : commitsOf t d' = commitsOf t d := by
  rw [commitsOf, h.journal, commitsOf]

lemma Db.drops_rollback : Drops t d (d.rollback t) :=
  ⟨rfl, Db.rollback_committed, rfl, Db.noTx_rollback⟩

/-- A commit records the draft of the work. -/
lemma Works.records {T : Contract V} {W : Work V E} (h : Works T t W d) :
    Records t (W.draft t d.committed).toCommit d (d.afterCommit t ⟨W.start, W.logged⟩) := by
  have hview := h.working.view_eq
  refine ⟨rfl, rfl, ?_, ?_, rfl, Db.noTx_afterCommit⟩
  · simp [Db.afterCommit, Work.draft, hview]
  · rw [Db.afterCommit_committed, hview]
    rfl

lemma Db.records_afterPool {eff : Effect V E β} (h : NoTx t d) :
    Records t ⟨t, d.now, d.committed, applyPuts eff.puts d.committed, eff.inserts⟩ d
      (d.afterPool t eff) :=
  ⟨rfl, rfl, rfl, Db.afterPool_committed, rfl, h⟩

end Records

section Transaction

variable {R : Db V E → Db V E → Prop} {ok : L → Db V E → Prop} {T : Contract V} {t : Tid}
  [Honours T t R] {I : ((k : K) → V k) → Prop} {l : L} {P : Db V E → Commit V E → Prop}
  {A : Db V E → Prop} {Q : Except String α → Db V E → Prop}

/-- **The rule of a transaction** whose body leaves drafts that meet `N`. `A` is kept while nothing
is committed, `S` is known of the instant the transaction begins; a commit records what the
transaction sees. -/
lemma Draws.transaction_view_triple {S : ℤ → Prop} {body : Tx L V E (Bool × α)}
    {N : Bool × α → Draft V E → Prop} {Z : Draft V E → Prop} (hwf : ∀ d, ok l d → d.WF)
    (hI : ∀ d, ok l d → I d.committed) (hA : Stable R A)
    (hquiet : ∀ d d' : Db V E, d'.journal = d.journal → d'.committed = d.committed →
      d.now ≤ d'.now → A d → A d')
    (hS : ∀ d, A d → ok l d → S d.now)
    (hbody : Draws R ok T t I (fun dr => S dr.start ∧ dr = .begun t dr.start dr.before) body N Z)
    (hQ : ∀ r, Stable R (Q r))
    (hcommit : ∀ d d' a (dr : Draft V E), A d → ok l d → (∀ k ∈ dr.held, (d.rows k).HeldBy t) →
      d.view t = dr.after → Records t dr.toCommit d d' → N (true, a) dr →
        P d dr.toCommit ∧ Q (.ok a) d')
    (hdrop : ∀ d d' a, A d → ok l d → Drops t d d' → (∃ dr, N (false, a) dr) → Q (.ok a) d')
    (herr : ∀ d d' e, A d → ok l d → Drops t d d' → Q (.error e) d') :
    Prog.Triple R ok (Plain fun _ d d' => Moves (P d) t d d') (fun d => NoTx t d ∧ A d)
      (Tx.transaction t l body : Tx L V E α).run Q := by
  refine Tx.transaction_works_triple (T := T) (I := S) (F := fun _ => True)
    (B := fun W r => ∀ x, I x → W.Fixed T x → N r (W.draft t x)) hwf hA hquiet hS
    (fun start v earlier hstart => ?_) hQ (fun d W a ha ho hW hB => ?_) (fun d W a ha ho hW hB => ?_)
    fun d e ha ho _ => herr d _ e ha ho Db.drops_rollback
  · have hbegun := hbody.alive (fun _ => True) (Work.begun start v earlier)
      ⟨fun _ _ _ _ => trivial, fun _ _ _ => trivial⟩ fun x _ _ => ⟨hstart, rfl⟩
    refine hbegun.conseq (fun d h => ⟨h, trivial⟩) ?_
    rintro r d (⟨W', hW, -, he, -, hN⟩ | ⟨⟨e, rfl⟩, hgone⟩)
    · cases r with
      | ok r => exact ⟨W', hW, he, hN⟩
      | error e => exact ⟨trivial, hW.working.commits.trans he⟩
    · exact ⟨trivial, hgone.2⟩
  · have hdr := hB d.committed (hI d ho) hW.fixed
    have h := hcommit d _ a _ ha ho (fun k hk => (hW.working.pinned k hk).heldBy)
      hW.working.view_eq hW.records hdr
    rw [hW.working.view_eq]
    exact h
  · exact hdrop d _ a ha ho Db.drops_rollback ⟨_, hB d.committed (hI d ho) hW.fixed⟩

/-- The rule of a transaction, where what it sees when it commits does not matter. -/
lemma Draws.transaction_triple {S : ℤ → Prop} {body : Tx L V E (Bool × α)}
    {N : Bool × α → Draft V E → Prop} {Z : Draft V E → Prop} (hwf : ∀ d, ok l d → d.WF)
    (hI : ∀ d, ok l d → I d.committed) (hA : Stable R A)
    (hquiet : ∀ d d' : Db V E, d'.journal = d.journal → d'.committed = d.committed →
      d.now ≤ d'.now → A d → A d')
    (hS : ∀ d, A d → ok l d → S d.now)
    (hbody : Draws R ok T t I (fun dr => S dr.start ∧ dr = .begun t dr.start dr.before) body N Z)
    (hQ : ∀ r, Stable R (Q r))
    (hcommit : ∀ d d' a (dr : Draft V E), A d → ok l d → (∀ k ∈ dr.held, (d.rows k).HeldBy t) →
      Records t dr.toCommit d d' → N (true, a) dr → P d dr.toCommit ∧ Q (.ok a) d')
    (hdrop : ∀ d d' a, A d → ok l d → Drops t d d' → (∃ dr, N (false, a) dr) → Q (.ok a) d')
    (herr : ∀ d d' e, A d → ok l d → Drops t d d' → Q (.error e) d') :
    Prog.Triple R ok (Plain fun _ d d' => Moves (P d) t d d') (fun d => NoTx t d ∧ A d)
      (Tx.transaction t l body : Tx L V E α).run Q :=
  hbody.transaction_view_triple hwf hI hA hquiet hS hQ
    (fun d d' a dr ha ho hheld _ => hcommit d d' a dr ha ho hheld) hdrop herr

/-- **The rule of a statement that is a transaction of its own**, where none is open. -/
lemma Tx.pool_records_triple {stmt : Stmt V E β} {Q : Except String β → Db V E → Prop}
    (hA : Stable R A) (hQ : ∀ r, Stable R (Q r)) (hno : ∀ d, A d → NoTx t d)
    (hread : ∀ d eff, A d → ok l d → stmt d.committed d.now = .ok eff → eff.puts = [] →
      eff.inserts = [] → Q (.ok eff.val) d)
    (hwrite : ∀ d d' eff, A d → ok l d → stmt d.committed d.now = .ok eff →
      (∀ k ∈ eff.keys, (d.rows k).Lockable t) →
      Records t ⟨t, d.now, d.committed, applyPuts eff.puts d.committed, eff.inserts⟩ d d' →
      P d ⟨t, d.now, d.committed, applyPuts eff.puts d.committed, eff.inserts⟩ ∧ Q (.ok eff.val) d')
    (herr : ∀ d e, A d → ok l d → stmt d.committed d.now = .error e → Q (.error e) d) :
    Prog.Triple R ok (Plain fun _ d d' => Moves (P d) t d d') A (pool t l stmt : Tx L V E β).run
      Q := by
  have hfree : ∀ {α : Type} (r : Row α), r.IsFree → r.Lockable t := by
    intro α r hr
    cases r with
    | free v => trivial
    | held u v w => exact hr.elim
  refine Fallible.atomic_triple hA hQ fun d r d' ha ho hf => ?_
  have hrec : ∀ eff : Effect V E β,
      Records t ⟨t, d.now, d.committed, applyPuts eff.puts d.committed, eff.inserts⟩ d
        (d.afterPool t eff) := fun _ => Db.records_afterPool (hno d ha)
  refine ⟨Db.pool_moves (P := P d) hf fun eff he hne => ?_, ?_⟩
  · rcases Db.pool_cases hf with ⟨e, he', -, -⟩ | ⟨eff', he', -, hl, -⟩
    · rw [he] at he'
      simp at he'
    · obtain rfl := Except.ok.inj (he.symm.trans he')
      exact (hwrite d _ eff ha ho he (fun k hk => hfree _ (hl k hk)) (hrec eff)).1
  · rcases Db.pool_cases hf with ⟨e, he, rfl, rfl⟩ | ⟨eff, he, rfl, hl, ⟨hp, hi, rfl⟩ | ⟨hne, rfl⟩⟩
    · exact herr d' e ha ho he
    · exact hread d' eff ha ho he hp hi
    · exact (hwrite d _ eff ha ho he (fun k hk => hfree _ (hl k hk)) (hrec eff)).2

end Transaction

end ReadCommitted
