import RbphBackend.Play.Conduct
import RbphBackend.Play.Transactions

set_option relaxedAutoImplicit false
set_option autoImplicit false

/-!
# What a call owes between its commits

Between two of its commits a call may still have to mark the board, to look for puzzles or to mark
the content blocks of the team. What is not due has been done: every commit of the call that changes
what the board ranks is followed by a mark, and where the last commit of the run that changes what
conditions see is the call's, the team has every puzzle its state opens.

## Main definitions

* `Play.Due`, `Play.Knows` — what is due, and what holds of the rest.

## Main results

* `Play.stable_knows` — the commits of the others keep it.
* `Play.deeds_transaction_triple`, `Play.calm_pool_triple`, `Play.markTeamDirty_pool_triple`,
  `Play.updateTeam_pool_triple` — the transactions and the statements that are their own.
-/

namespace Play

open Concurrency ReadCommitted Numeric Database Currency

/-! ## What is due -/

/-- What a call still has to do: to mark the board, to look for puzzles, to mark the content blocks. -/
structure Due where
  mark : Prop := False
  scan : Prop := False
  pay : Prop := False

/-- What is not due has been done. -/
structure Knows (S : Setting) (t : Tid) (due : Due) (d : Store) : Prop where
  paid : ¬ due.pay → ¬ Owes S.team (commitsOf t d)
  marked : S.fin → ¬ due.mark → Followed (Reranks S.team) (Marks S.team) (commitsOf t d)
  scanned : ¬ due.scan → LastBy (Advances S.team) t d.journal →
    Unlocked S.cfg S.team S.gameId d.committed

/-- A call with no open transaction. -/
def Rests (S : Setting) (t : Tid) (due : Due) (d : Store) : Prop := NoTx t d ∧ Knows S t due d

section Knows

variable {S : Setting} {t : Tid} {due due' : Due} {d d' : Store} {e : GameCommit}

/-- What holds where the last commit that changes what conditions see is the session's own is kept by
the commits of the others. -/
lemma stable_lastBy {p : View → Prop}
    (hp : ∀ {v w : View}, p v → GateSame S.team v w → (∀ k, Evolves S.team k (v k) (w k)) → p w) :
    Stable ((conduct S).Others t) fun d => LastBy (Advances S.team) t d.journal → p d.committed := by
  refine Discipline.stable_of_commits
    (A := fun l v => LastBy (Advances S.team) t l → p v) fun d u e _ hu h he hb hc hlast => ?_
  rcases lastBy_snoc.mp hlast with ⟨-, htid⟩ | ⟨hadv, hlast⟩
  · exact absurd (he.symm.trans htid) hu
  · exact hp (hb ▸ h hlast) (not_not.mp hadv) (Commits.plays hc).rows

/-- **The commits of the others keep what a call knows.** -/
lemma stable_knows : Stable ((conduct S).Others t) (Knows S t due) := by
  intro d d' h hr
  refine ⟨?_, ?_, fun hs => ?_⟩
  · exact stable_commitsOf (t := t) (p := fun l => ¬ due.pay → ¬ Owes S.team l) _ _ h.paid hr
  · exact stable_commitsOf (t := t)
      (p := fun l => S.fin → ¬ due.mark → Followed (Reranks S.team) (Marks S.team) l) _ _ h.marked hr
  · exact stable_lastBy (p := Unlocked S.cfg S.team S.gameId)
      (fun h hg hrows => h.of_gateSame hg hrows) _ _ (h.scanned hs) hr

lemma stable_rests : Stable ((conduct S).Others t) (Rests S t due) :=
  stable_noTx.and stable_knows

/-- A thread that has committed nothing in a run that has not begun. -/
lemma rests_of_idle (h : d.Idle) : Rests S t {} d := by
  have hnone : commitsOf t d = [] := by simp [commitsOf, h.journal]
  refine ⟨h.sess t, fun _ => ?_, fun _ _ => ?_, fun _ hlast => ?_⟩
  · rw [hnone]
    exact not_owes_nil
  · rw [hnone]
    exact followed_nil
  · rw [h.journal] at hlast
    exact absurd hlast not_lastBy_nil

/-- More may be due. -/
lemma Knows.mono (h : Knows S t due d) (hmark : S.fin → due.mark → due'.mark)
    (hscan : due.scan → due'.scan) (hpay : due.pay → due'.pay) : Knows S t due' d :=
  ⟨fun hn => h.paid (mt hpay hn), fun hf hn => h.marked hf (mt (hmark hf) hn),
    fun hn => h.scanned (mt hscan hn)⟩

/-- What changes no commit and nothing committed. -/
lemma Knows.quiet (h : Knows S t due d) (hj : d'.journal = d.journal)
    (hc : d'.committed = d.committed) : Knows S t due d' := by
  have hcom : commitsOf t d' = commitsOf t d := by rw [commitsOf, hj, commitsOf]
  refine ⟨?_, ?_, ?_⟩
  · rw [hcom]
    exact h.paid
  · rw [hcom]
    exact h.marked
  · rw [hj, hc]
    exact h.scanned

/-- After a commit of the call. -/
lemma Knows.commit (h : Knows S t due d) (hr : Records t e d d')
    (hpay : ¬ due'.pay → ¬ Inserts S.team e)
    (hmark : S.fin → ¬ due'.mark → ¬ Reranks S.team e ∧ (Marks S.team e ∨ ¬ due.mark))
    (hscan : ¬ due'.scan → Advances S.team e ∨ LastBy (Advances S.team) t d.journal →
      Unlocked S.cfg S.team S.gameId e.after) : Knows S t due' d' := by
  have hcom := hr.commitsOf_eq
  refine ⟨fun hn => ?_, fun hf hn => ?_, fun hn hlast => ?_⟩
  · rw [hcom, owes_snoc]
    exact hpay hn
  · rw [hcom]
    obtain ⟨hrank, hm⟩ := hmark hf hn
    exact .snoc hrank (hm.imp_right (h.marked hf))
  · rw [hr.committed]
    rw [hr.journal, lastBy_snoc] at hlast
    exact hscan hn (hlast.imp And.left And.right)

/-- After a commit that changes nothing conditions see, the team has what it had. -/
lemma Knows.unlocked_after (h : Knows S t due d) (hb : e.before = d.committed)
    (hrows : ∀ k, Evolves S.team k (e.before k) (e.after k))
    (hsame : GateSame S.team e.before e.after) (hn : ¬ due.scan)
    (hlast : Advances S.team e ∨ LastBy (Advances S.team) t d.journal) :
    Unlocked S.cfg S.team S.gameId e.after := by
  have hlast' := hlast.resolve_left (fun hadv => hadv hsame)
  exact (hb ▸ h.scanned hn hlast').of_gateSame hsame hrows

end Knows

/-- No deeds are tidy. -/
lemma tidy_calm {a : Id} {submits : Bool} : Deeds.Tidy {} a submits :=
  ⟨by simp, by simp [Deeds.gates], by simp, by simp, by simp⟩

/-! ## Transactions -/

section Rules

variable {S : Setting} {t : Tid} {ok : Label → Store → Prop} {due : Due} {a : Id} {α β : Type}

instance (S : Setting) (t : Tid) : Honours (contract S.team) t ((conduct S).Others t) :=
  inferInstanceAs (Honours (conduct S).contract t _)

/-- What a call may do between two assertions. -/
abbrev Keeps (S : Setting) (t : Tid) (ok : Label → Store → Prop) (A : Store → Prop) (p : Call α)
    (Q : Except String α → Store → Prop) : Prop :=
  Prog.Triple ((conduct S).Others t) ok ((conduct S).Guarantee t) A p.run Q

lemma hasTeam_of_ok (hok : ∀ l d, ok l d → Conducted S d) (l : Label) (d : Store) (ho : ok l d) :
    HasTeam S.team S.gameId d.committed := (hok l d ho).team

/-- After the commit of tidy deeds. -/
lemma Knows.deeds {d d' : Store} {dr : Draft Val EventLogInput} {f : Deeds}
    (h : Knows S t due d) (hr : Records t dr.toCommit d d')
    (hp : Progress S.cfg S.team S.new a f dr) (ht : f.Tidy a (S.submits t))
    (hlocks : ∀ k ∈ dr.held, (d.rows k).Lockable t)
    (hpays : due.pay → a = S.team ∧ f.marked = true ∧ f.locked = true)
    (hcleans : a = S.team → f.cleaned = true →
      Recorded S.cfg S.team S.gameId S.start dr.after ∨ ∃ u, u ≠ t ∧ Owes S.team (commitsOf u d)) :
    Commits S t d dr.toCommit ∧
      Knows S t ⟨due.mark ∨ a = S.team ∧ f.ranks, due.scan ∨ a = S.team ∧ f.gates, False⟩ d' := by
  have ht' : f.Tidy a (S.submits dr.tid) := by rwa [hr.tid]
  have hc : Commits S t d dr.toCommit := by
    refine ht'.commits hp hlocks (fun ho => ?_) hcleans
    by_contra hn
    exact h.paid (fun hd => hn (hpays hd)) ho
  refine ⟨hc, h.commit hr (fun _ => not_inserts hp) (fun _ hn => ?_) fun hn hlast => ?_⟩
  · rw [not_or] at hn
    exact ⟨not_not.mpr (boardSame_of_not_ranks hp hn.2), .inr hn.1⟩
  · rw [not_or] at hn
    exact h.unlocked_after hr.before hc.plays.rows (gateSame_of_not_gates hp hn.2) hn.1 hlast

/-- **A transaction with tidy deeds.** -/
lemma deeds_transaction_triple (hok : ∀ l d, ok l d → Conducted S d) (mark scan : α → Prop)
    {body : Call (Bool × α)} {N : Bool × α → Draft Val EventLogInput → Prop}
    (hbody : Draws ((conduct S).Others t) ok (contract S.team) t (HasTeam S.team S.gameId)
      (Progress S.cfg S.team S.new a {}) body N fun _ => True)
    (hN : ∀ x dr, N (true, x) dr → ∃ f : Deeds, f.Tidy a (S.submits t) ∧ f.cleaned = false ∧
      Progress S.cfg S.team S.new a f dr ∧ (S.fin → a = S.team → f.ranks → mark x) ∧
        (a = S.team → f.gates → scan x)) :
    Keeps S t ok (Rests S t {}) (Tx.transaction t .stmt body)
      (Post (fun x => Rests S t { mark := mark x, scan := scan x }) fun _ => Rests S t {}) := by
  have hwf : ∀ l d, ok l d → d.WF := fun l d ho => (hok l d ho).journaled.wf
  refine Draws.transaction_triple (S := fun _ => True) (hwf .stmt)
    (fun d ho => (hok .stmt d ho).team) stable_knows (fun d d' hj hc _ h => h.quiet hj hc)
    (fun _ _ _ => trivial) (hbody.conseq (fun dr _ h => ?_) (fun _ _ _ h => h) fun _ _ h => h)
    (stable_post (fun _ => stable_rests) fun _ => stable_rests)
    (fun d d' x dr hk ho hheld hr hn => ?_) (fun d d' x hk ho hdrop _ => ?_)
    fun d d' e hk ho hdrop => ⟨hdrop.noTx, hk.quiet hdrop.journal hdrop.committed⟩
  · rw [h.2]
    exact progress_begun
  · obtain ⟨f, ht, hclean, hp, hmark, hscan⟩ := hN x dr hn
    have hlocks : ∀ k ∈ dr.held, (d.rows k).Lockable t := fun k hk => (hheld k hk).lockable
    obtain ⟨hc, hk'⟩ := hk.deeds hr hp ht hlocks False.elim fun _ hc =>
      absurd hc (by simp [hclean])
    refine ⟨hc, hr.noTx, hk'.mono (fun hf h => ?_) (fun h => ?_) id⟩
    · exact hmark hf (h.resolve_left id).1 (h.resolve_left id).2
    · exact hscan (h.resolve_left id).1 (h.resolve_left id).2
  · exact ⟨hdrop.noTx, (hk.quiet hdrop.journal hdrop.committed).mono (fun _ => False.elim) False.elim id⟩

/-- A transaction that adds no deed. -/
lemma calm_transaction_triple (hok : ∀ l d, ok l d → Conducted S d) {p : Call α}
    (hp : ∀ {Φ : ∀ {β : Type}, Call β → Prop}, Closed Φ →
      (∀ {β : Type} (stmt : Statement β), IsQuiet stmt → Φ (Tx.query t .stmt stmt)) → Φ p) :
    Keeps S t ok (Rests S t {}) (ownTx t p) fun _ => Rests S t {} := by
  have hI := hasTeam_of_ok hok
  have hcalm : CalmPart S.cfg S.team S.new S.team t ((conduct S).Others t) ok
      (HasTeam S.team S.gameId) p :=
    hp closed_calmPart (calmPart_query hI)
  refine (deeds_transaction_triple (a := S.team) hok (fun _ => False) (fun _ => False)
    (ownTx_calm hcalm) fun x dr h => ?_).conseq (fun _ => id) fun r d h => ?_
  · exact ⟨{}, tidy_calm, rfl, h.2, by simp [Deeds.ranks], by simp [Deeds.gates]⟩
  · cases r <;> exact h

/-- A part of a call that leaves nothing due, whatever it returns. -/
abbrev Settles (S : Setting) (t : Tid) (ok : Label → Store → Prop) (A : Store → Prop)
    (p : Call α) : Prop := Keeps S t ok A p fun _ => Rests S t {}

lemma Settles.pure {A : Store → Prop} {x : α} (hA : Stable ((conduct S).Others t) A)
    (h : ∀ d, A d → Rests S t {} d) : Settles S t ok A (Pure.pure x : Call α) :=
  Fallible.pure_triple hA h

lemma Settles.throw {e : String} :
    Settles S t ok (Rests S t {}) (MonadExcept.throw e : Call α) :=
  Fallible.throw_triple stable_rests fun _ h => h

/-- What leaves something due, before what does it. -/
lemma Settles.bind {A : Store → Prop} {B : α → Store → Prop} {p : Call α} {k : α → Call β}
    (hp : Keeps S t ok A p (Post B fun _ => Rests S t {}))
    (hk : ∀ x, Settles S t ok (B x) (k x)) : Settles S t ok A (p >>= k) :=
  Fallible.bind_triple hp (fun _ _ _ _ h => h) (IsRely.refl t)
    (fun _ d d' h hr => stable_rests d d' h hr) hk

/-- What leaves the same due whether it fails or not, before what does it. -/
lemma Settles.step {A : Store → Prop} {p : Call α} {k : α → Call β}
    (hp : Settles S t ok A p) (hk : ∀ x, Settles S t ok (Rests S t {}) (k x)) :
    Settles S t ok A (p >>= k) :=
  Settles.bind (B := fun _ => Rests S t {})
    (hp.conseq (fun _ h => h) fun r d h => by cases r <;> exact h) hk

lemma closed_settles : Closed fun {_} p => Settles S t ok (Rests S t {}) p where
  pure _ := Settles.pure stable_rests fun _ h => h
  throw _ := Settles.throw
  bind hp hk := Settles.step hp hk

/-! ## Statements that are transactions of their own -/

/-- What a statement that is a transaction of its own commits. -/
abbrev poolDraft (t : Tid) (d : Store) (eff : Effect Val EventLogInput β) :
    Draft Val EventLogInput := (Draft.begun t d.now d.committed).add eff

lemma poolDraft_later {d : Store} {T : Contract Val} {keys : List Key} :
    (Draft.begun t d.now d.committed : Draft Val EventLogInput).Later T keys
      (Draft.begun t d.now d.committed) :=
  ⟨rfl, rfl, rfl, rfl, fun _ _ => rfl, fun _ _ => rfl, fun _ _ _ => T.refl _⟩

lemma poolDraft_lockable {d : Store} {eff : Effect Val EventLogInput β}
    (h : ∀ k ∈ eff.keys, (d.rows k).Lockable t) :
    ∀ k ∈ (poolDraft t d eff).held, (d.rows k).Lockable t := by
  intro k hk
  rw [Draft.add_held, Draft.begun, List.append_nil] at hk
  exact h k hk

/-- A statement that adds no deed. -/
lemma calm_poolDraft {d : Store} {stmt : Statement β} {eff : Effect Val EventLogInput β}
    (h : IsCalm stmt) (he : stmt d.committed d.now = .ok eff) :
    Progress S.cfg S.team S.new a {} (poolDraft t d eff) :=
  progress_begun.add_calm (h _ _ _ he).1 (h _ _ _ he).2

/-- A statement that adds no deed, and where it fails. -/
lemma calm_pool_post_triple (hpay : ¬ due.pay) {l : Label} {stmt : Statement β} (h : IsCalm stmt) :
    Keeps S t ok (Rests S t due) (Tx.pool t l stmt)
      (Post (fun _ => Rests S t due) fun e d => (∃ v now, stmt v now = .error e) ∧ Rests S t due d) := by
  refine Tx.pool_records_triple stable_rests
    (stable_post (fun _ => stable_rests) fun _ => (Stable.const _).and stable_rests) (fun d hd => hd.1)
    (fun d eff hd _ _ _ _ => hd) (fun d d' eff hd ho he hlock hr => ?_)
    fun d e hd _ he => ⟨⟨_, _, he⟩, hd⟩
  have hrec : Records t (poolDraft t d eff).toCommit d d' := hr
  obtain ⟨hc, hk⟩ := hd.2.deeds hrec (calm_poolDraft (a := S.team) h he) tidy_calm
    (poolDraft_lockable hlock) (fun hp => absurd hp hpay) (by simp)
  refine ⟨hc, hr.noTx, hk.mono (fun _ h => ?_) (fun h => ?_) False.elim⟩
  · exact h.resolve_right (by simp [Deeds.ranks])
  · exact h.resolve_right (by simp [Deeds.gates])

/-- **A statement that adds no deed.** -/
lemma calm_pool_triple (hpay : ¬ due.pay) {l : Label} {stmt : Statement β} (h : IsCalm stmt) :
    Keeps S t ok (Rests S t due) (Tx.pool t l stmt) fun _ => Rests S t due :=
  (calm_pool_post_triple hpay h).conseq (fun _ => id) fun r d hd => by
    cases r with
    | ok x => exact hd
    | error e => exact hd.2

/-- A statement that adds no deed and does not fail, while something else is due. -/
lemma calm_total_pool_triple (hpay : ¬ due.pay) {l : Label} {stmt : Statement β} (h : IsCalm stmt)
    (htotal : ∀ v now e, stmt v now ≠ .error e) :
    Keeps S t ok (Rests S t due) (Tx.pool t l stmt)
      (Post (fun _ => Rests S t due) fun _ => Rests S t {}) :=
  (calm_pool_post_triple hpay h).conseq (fun _ => id) fun r d hd => by
    cases r with
    | ok x => exact hd
    | error e =>
      obtain ⟨⟨v, now, he⟩, -⟩ := hd
      exact absurd he (htotal v now e)

/-- The team is there. -/
lemma Conducted.exists_team {d : Store} (h : Conducted S d) :
    ∃ tm, d.committed (.team S.team) = some tm := by
  obtain ⟨tm, htm, -⟩ := h.team.exists
  exact ⟨tm, htm⟩

/-- **The mark of the content blocks**: it is no longer due. -/
lemma markTeamDirty_pool_triple (hok : ∀ l d, ok l d → Conducted S d) {l : Label}
    {mark scan p : Prop} :
    Keeps S t ok (Rests S t ⟨mark, scan, a = S.team ∧ p⟩) (Tx.pool t l (markTeamDirty a))
      fun _ => Rests S t ⟨mark, scan, False⟩ := by
  have hsome : ∀ {d}, ok l d → a = S.team → ∃ tm, d.committed (.team a) = some tm := by
    rintro d ho rfl
    exact (hok l d ho).exists_team
  refine Tx.pool_records_triple stable_rests (fun _ => stable_rests) (fun d hd => hd.1)
    (fun d eff hd ho he hputs _ => ?_) (fun d d' eff hd ho he hlock hr => ?_) fun d e hd _ he => ?_
  · refine ⟨hd.1, hd.2.mono (fun _ => id) id fun hp => ?_⟩
    obtain ⟨tm, htm⟩ := hsome ho hp.1
    rw [markTeamDirty, htm] at he
    obtain rfl := Except.ok.inj he
    cases hputs
  · have hp : Progress S.cfg S.team S.new a { marked := true, locked := true } (poolDraft t d eff) :=
      progress_begun.add_markTeamDirty (T := contract S.team) (fun ha => hsome ho ha) he
        poolDraft_later
    have htidy : Deeds.Tidy { marked := true, locked := true } a (S.submits t) :=
      ⟨by simp, by simp [Deeds.gates], by simp, by simp, by simp⟩
    have hrec : Records t (poolDraft t d eff).toCommit d d' := hr
    obtain ⟨hc, hk⟩ := hd.2.deeds hrec hp htidy (poolDraft_lockable hlock)
      (fun hdue => ⟨hdue.1, rfl, rfl⟩) (by simp)
    refine ⟨hc, hr.noTx, hk.mono (fun _ h => ?_) (fun h => ?_) id⟩
    · exact h.resolve_right (by simp [Deeds.ranks])
    · exact h.resolve_right (by simp [Deeds.gates])
  · rw [markTeamDirty] at he
    split at he <;> cases he

/-- **The mark of the board**: it is no longer due. -/
lemma updateTeam_pool_triple (hok : ∀ l d, ok l d → Conducted S d) {l : Label} {scan p : Prop}
    {affectsOrder : Bool} :
    Keeps S t ok (Rests S t ⟨a = S.team ∧ p, scan, False⟩) (Tx.pool t l (updateTeam a affectsOrder))
      (Post (fun _ => Rests S t { scan := scan }) fun _ => Rests S t {}) := by
  have hsome : ∀ {d}, ok l d → a = S.team → ∃ tm, d.committed (.team a) = some tm := by
    rintro d ho rfl
    exact (hok l d ho).exists_team
  refine Tx.pool_records_triple stable_rests
    (stable_post (fun _ => stable_rests) fun _ => stable_rests) (fun d hd => hd.1)
    (fun d eff hd ho he hputs _ => ?_) (fun d d' eff hd ho he hlock hr => ?_) fun d e hd _ he => ?_
  · refine ⟨hd.1, hd.2.mono (fun _ hp => ?_) id id⟩
    obtain ⟨tm, htm⟩ := hsome ho hp.1
    rw [updateTeam, htm] at he
    obtain rfl := Except.ok.inj he
    cases hputs
  · have hp : Progress S.cfg S.team S.new a {} (poolDraft t d eff) := calm_poolDraft isQuiet_updateTeam.calm he
    have hrec : Records t (poolDraft t d eff).toCommit d d' := hr
    obtain ⟨hc, -⟩ := hd.2.deeds hrec hp tidy_calm (poolDraft_lockable hlock) False.elim (by simp)
    have hrank : BoardSame S.team d.committed (poolDraft t d eff).after :=
      boardSame_of_not_ranks hp (by simp [Deeds.ranks])
    refine ⟨hc, hr.noTx, hd.2.commit hr (fun _ => not_inserts hp) (fun _ _ => ?_) fun hn hlast => ?_⟩
    · refine ⟨not_not.mpr hrank, ?_⟩
      by_cases ha : a = S.team
      · obtain ⟨tm, htm⟩ := hsome ho ha
        rw [updateTeam, htm] at he
        obtain rfl := Except.ok.inj he
        subst ha
        exact .inl (by simp [Marks])
      · exact .inr fun hm => ha hm.1
    · exact hd.2.unlocked_after hr.before hc.plays.rows
        (gateSame_of_not_gates hp (by simp [Deeds.gates])) hn hlast
  · rw [updateTeam] at he
    split at he <;> cases he

/-! ## Where a thread runs -/

/-- Where a thread runs: the run keeps to the discipline, and the named statements are run as the
setting says. -/
structure Admits (S : Setting) (t : Tid) (ok : Label → Store → Prop) : Prop where
  conducted : ∀ l d, ok l d → Conducted S d
  fin : S.fin → ∀ puzzle submission d, ok (.solveBackend S.team puzzle submission) d →
    missesMark S.team puzzle submission (d.view t) = false
  new : ∀ hint, S.new hint → ∀ d, ok (.unlockHint S.team hint) d →
    d.view t (.teamHint S.team hint) ≠ some true

end Rules

end Play
