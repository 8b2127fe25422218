import RbphBackend.Play.DeedStatements

set_option relaxedAutoImplicit false
set_option autoImplicit false

/-!
# The deeds of a submission

What the transaction of `submit_answer` has done when it commits, by its result: a stored trigger, a
solved puzzle with its event and its closed tickets, a start, the end of the game, and the mark that
goes with all but the last.

## Main definitions

* `Play.submitDeeds` — the deeds of a submission.

## Main results

* `Play.judge_draws` — judging adds no deed.
* `Play.submitBody_draws` — the deeds of the transaction.
-/

namespace Play

open Concurrency ReadCommitted Numeric Database Currency
open Release (PuzzleRow)

section Draws

variable {cfg : Config} {team gameId : Id} {new : Id → Prop} {a : Id} {t : Tid}
  {R : Store → Store → Prop} [Honours (contract team) t R] {ok : Label → Store → Prop}

/-! ## Calm parts -/

section Calm

variable {I : View → Prop}

/-- A part that adds no deed. -/
abbrev CalmPart (cfg : Config) (team : Id) (new : Id → Prop) (a : Id) (t : Tid)
    (R : Store → Store → Prop) [Honours (contract team) t R] (ok : Label → Store → Prop)
    (I : View → Prop) {β : Type} (p : Call β) : Prop :=
  ∀ f, Draws R ok (contract team) t I (Progress cfg team new a f) p
    (fun _ => Progress cfg team new a f) (Progress cfg team new a f)

lemma closed_calmPart : Closed fun {_} p => CalmPart cfg team new a t R ok I p where
  pure _ _ := Draws.pure fun _ _ h => h
  throw _ _ := Draws.throw fun _ _ h => h
  bind hp hk f := Draws.bind (hp f) fun b => hk b f

lemma calmPart_query (hI : ∀ l d, ok l d → I d.committed) {β : Type} (stmt : Statement β)
    (h : IsQuiet stmt) : CalmPart cfg team new a t R ok I (Tx.query t .stmt stmt) :=
  fun _ => calm_draws hI h.calm

/-- A judge function goes on after an error of a host call. -/
lemma run_judgeHost_endures (hI : ∀ l d, ok l d → I d.committed) {rt : RuntimeContext} {α : Type}
    {f : Deeds} (program : HostProgram cfg.doubles α) :
    Endures R ok (contract team) t I (Progress cfg team new a f)
      (program.run (judgeHost cfg rt t)) := by
  induction program with
  | done result =>
    have hΦ : Closed fun {_} p => CalmPart cfg team new a t R ok I p := closed_calmPart
    cases result with
    | ok b => exact Draws.endures (hΦ.pure b f)
    | error e => exact Draws.endures (hΦ.throw (β := α) e f)
  | call c k ih =>
    refine Endures.run_bind (Draws.endures ?_) fun reply => ih reply
    exact judgeHost_closed closed_calmPart (calmPart_query hI) c f

/-- `executeJudgeConn`: where a statement of the function has failed, the statement after it fails,
too. -/
lemma executeJudgeConn_calm (hI : ∀ l d, ok l d → I d.committed) {rt : RuntimeContext}
    {program : HostProgram cfg.doubles (Option JudgeBackendOutput)} :
    CalmPart cfg team new a t R ok I (executeJudgeConn cfg rt t program) := by
  have hΦ : Closed fun {_} p => CalmPart cfg team new a t R ok I p := closed_calmPart
  refine hΦ.bind (calmPart_query hI _ isQuiet_setLocal) fun _ f => ?_
  refine Endures.bind (run_judgeHost_endures hI program) (fun output => ?_) (fun output => ?_)
    fun _ h => h
  · exact hΦ.bind (hΦ.when (hΦ.throw _))
      (fun _ => hΦ.bind (calmPart_query hI _ isQuiet_setLocal) fun _ => hΦ.pure _) f
  · unfold Play.when
    split
    · exact Fails.bind Fails.throw
    · exact Fails.bind (k := fun _ => pure output) Fails.query

variable {ctx : SubmitContext}

/-- `judgeCustom`. -/
lemma judgeCustom_calm (hI : ∀ l d, ok l d → I d.committed) {rule : JudgeRule} :
    CalmPart cfg team new a t R ok I (judgeCustom cfg t ctx rule) := by
  have hΦ : Closed fun {_} p => CalmPart cfg team new a t R ok I p := closed_calmPart
  unfold judgeCustom
  split
  · exact hΦ.throw _
  · exact hΦ.throw _
  · exact hΦ.throw _
  · exact hΦ.throw _
  · refine hΦ.bind (fun _ => Draws.pool_read) fun tm => ?_
    cases tm with
    | none => exact hΦ.throw _
    | some tm => exact hΦ.bind (executeJudgeConn_calm hI) fun output => hΦ.pure _

/-- **Judging adds no deed.** -/
lemma judge_calm (hI : ∀ l d, ok l d → I d.committed) (rules : List JudgeRule) :
    CalmPart cfg team new a t R ok I (judge cfg t ctx rules) := by
  have hΦ : Closed fun {_} p => CalmPart cfg team new a t R ok I p := closed_calmPart
  induction rules with
  | nil => exact hΦ.pure _
  | cons rule rules ih =>
    unfold judge
    split
    · split
      · exact hΦ.pure _
      · exact ih
    · split
      · refine hΦ.bind (judgeCustom_calm hI) fun result => ?_
        cases result with
        | none => exact ih
        | some result => exact hΦ.pure _
      · split
        · exact hΦ.pure _
        · exact ih

/-- A part that adds no deed, before others. -/
lemma CalmPart.draws {β : Type} {p : Call β} (h : CalmPart cfg team new a t R ok I p) (f : Deeds) :
    Draws R ok (contract team) t I (Progress cfg team new a f) p
      (fun _ => Progress cfg team new a f) fun _ => True :=
  (h f).conseq (fun _ _ h => h) (fun _ _ _ h => h) fun _ _ _ => trivial

end Calm

/-! ## The parts of a judgement -/

variable {ctx : SubmitContext} {f : Deeds}

/-- A part of a transaction that leaves these deeds of its result. -/
abbrev DeedPart (cfg : Config) (team gameId : Id) (new : Id → Prop) (a : Id) (t : Tid)
    (R : Store → Store → Prop) [Honours (contract team) t R] (ok : Label → Store → Prop) (f : Deeds)
    {β : Type} (p : Call β) (f' : β → Deeds) : Prop :=
  Draws R ok (contract team) t (HasTeam team gameId) (Progress cfg team new a f) p
    (fun b => Progress cfg team new a (f' b)) fun _ => True

/-- The triggers of a result. -/
lemma storeTriggers_deeds (hI : ∀ l d, ok l d → HasTeam team gameId d.committed)
    (hf : f.triggered = false) (hlock : f.locked = true) {result : JudgeResult} :
    DeedPart cfg team gameId new ctx.team t R ok f (storeTriggers t ctx result)
      fun b => { f with triggered := b, marked := f.marked || b } := by
  have hsame : ({ f with triggered := false, marked := f.marked } : Deeds) = f := by rw [← hf]
  unfold storeTriggers
  split
  · refine Draws.bind (insertTriggers_draws hI hf) fun n => ?_
    by_cases hn : 0 < n
    · rw [Play.when, if_pos hn]
      refine Draws.bind (markTeamDirty_draws hI) fun _ => Draws.pure fun dr _ h => ?_
      simpa [hn, hlock] using h
    · rw [Play.when, if_neg hn]
      refine Draws.pure_bind (Draws.pure fun dr _ h => ?_)
      simpa [hn] using h
  · refine Draws.pure fun dr _ h => ?_
    simpa [hsame] using h

/-- The deeds of a transaction that solves a puzzle, or finds it solved. -/
def solveDeeds (f : Deeds) (puzzle : Id) (events : List EventLogInput) (finished solved : Bool) :
    Deeds :=
  { f with
    solved := if solved then some puzzle else none
    finished := finished
    marked := f.marked || solved
    closed := if solved then some puzzle else none
    logged := f.logged ++ if solved then events else [] }

/-- Solving a puzzle. -/
lemma applySolve_deeds (hI : ∀ l d, ok l d → HasTeam team gameId d.committed)
    (hs : f.solved = none) (hc : f.closed = none) (hfin : f.finished = false)
    (hlock : f.locked = true) {action : RbJudgeAction} :
    DeedPart cfg team gameId new ctx.team t R ok f (applySolve cfg t ctx action)
      (solveDeeds f ctx.info.id [ctx.solvedEvent] (decide (action = .finishGame))) := by
  refine Draws.bind (setSolved_draws hI hs) fun solved => ?_
  refine Draws.bind (N := fun _ => Progress cfg team new ctx.team
    { f with
      solved := if solved = true then some ctx.info.id else none
      finished := decide (action = .finishGame) }) ?_ fun _ => ?_
  · by_cases ha : action = .finishGame
    · rw [Play.when, if_pos ha]
      refine (setFinished_draws hI).post fun _ dr h => ?_
      simpa [ha] using h
    · rw [Play.when, if_neg ha]
      refine Draws.pure fun dr _ h => ?_
      simpa [ha, ← hfin] using h
  · cases solved with
    | false =>
      refine Draws.pure_bind (Draws.pure fun dr _ h => ?_)
      simpa [solveDeeds, hc] using h
    | true =>
      refine Draws.bind (N := fun _ => Progress cfg team new ctx.team
        (solveDeeds f ctx.info.id [ctx.solvedEvent] (decide (action = .finishGame)) true)) ?_
        fun _ => Draws.pure fun _ _ h => h
      refine Draws.bind (markTeamDirty_draws hI) fun _ => ?_
      refine Draws.bind (insertEvent_draws hI rfl) fun _ => ?_
      refine Draws.post (closePuzzleTicketsOnSolve_draws hI (by exact hc) (by rfl)) fun _ dr h => ?_
      simpa [solveDeeds, hlock] using h

/-- Starting the game. -/
lemma applyStart_deeds (hI : ∀ l d, ok l d → HasTeam team gameId d.committed)
    (hs : f.started = false) (hlock : f.locked = true) :
    DeedPart cfg team gameId new ctx.team t R ok f (applyStart cfg t ctx)
      fun b => { f with started := b, marked := f.marked || b } := by
  refine Draws.bind ((calmPart_query hI _ isQuiet_lockFeature).draws f) fun feature => ?_
  cases feature with
  | none => exact Draws.throw fun _ _ _ => trivial
  | some feature =>
    refine Draws.bind (setStarted_draws hI hs) fun started => ?_
    cases started with
    | none => exact Draws.throw fun _ _ _ => trivial
    | some started =>
      refine Draws.bind (N := fun _ => Progress cfg team new ctx.team
        { f with started := started, marked := f.marked || started }) ?_ fun _ => ?_
      · cases started with
        | false => exact Draws.pure fun dr _ h => by simpa using h
        | true =>
          refine Draws.bind (markTeamDirty_draws hI) fun _ => ?_
          refine ((calmPart_query hI _ (isQuiet_insertEvent rfl)).draws _).post fun _ dr h => ?_
          simpa [hlock] using h
      · refine Draws.bind ((calmPart_query hI _ isQuiet_insertTeamCurrencies).draws _) fun _ => ?_
        exact Draws.pure fun _ _ h => h

/-- A wrong answer solves and starts nothing. -/
lemma applyFail_draws (hI : ∀ l d, ok l d → HasTeam team gameId d.committed) :
    Draws R ok (contract team) t (HasTeam team gameId) (Progress cfg team new a f)
      (applyFail cfg t ctx)
      (fun effects dr => effects.solved = false ∧ effects.started = false ∧
        Progress cfg team new a f dr) fun _ => True := by
  have hq : ∀ {β : Type} (stmt : Statement β), IsQuiet stmt →
      CalmPart cfg team new a t R ok (HasTeam team gameId) (Tx.query t .stmt stmt) :=
    calmPart_query hI
  refine Draws.bind ((hq _ isQuiet_read).draws f) fun info => ?_
  cases info with
  | none => exact Draws.throw fun _ _ _ => trivial
  | some info =>
    obtain ⟨failureCount, document⟩ := info
    dsimp only
    split
    · exact Draws.throw fun _ _ _ => trivial
    · refine Draws.bind ((applyPenalties_closed closed_calmPart hq _ _ _).draws f) fun out => ?_
      refine Draws.bind ((applyCooldown_closed closed_calmPart hq out.1).draws f) fun till => ?_
      refine Draws.bind ((hq _ (isQuiet_insertEvent rfl)).draws f) fun _ => ?_
      exact Draws.pure fun _ _ h => ⟨rfl, rfl, h⟩

/-! ## The transaction -/

/-- **The deeds of a submission.** -/
def submitDeeds (ctx : SubmitContext) (action : RbJudgeAction) (effects : SubmitEffects) : Deeds where
  triggered := effects.triggerInserted
  solved := if effects.solved then some ctx.info.id else none
  started := effects.started
  finished := decide (action = .finishGame)
  marked := effects.doUnlock
  closed := if effects.solved then some ctx.info.id else none
  locked := true
  logged := if effects.solved then [ctx.solvedEvent] else []

/-- What an action can bring about. -/
structure Brings (action : RbJudgeAction) (effects : SubmitEffects) : Prop where
  solved : effects.solved = true → action.sideEffect = true
  started : effects.started = true → action.sideEffect = true

/-- What a judgement leaves. -/
def JudgementLeaves (cfg : Config) (team : Id) (new : Id → Prop) (ctx : SubmitContext)
    (action : RbJudgeAction) (effects : SubmitEffects) (dr : Draft Val EventLogInput) : Prop :=
  Brings action effects ∧ Progress cfg team new ctx.team (submitDeeds ctx action effects) dr

/-- The branches of the action, after the triggers. -/
lemma applyAction_deeds (triggered : Bool) (hI : ∀ l d, ok l d → HasTeam team gameId d.committed)
    {action : RbJudgeAction} :
    Draws R ok (contract team) t (HasTeam team gameId)
      (Progress cfg team new ctx.team { triggered := triggered, marked := triggered, locked := true })
      (applyAction cfg t ctx action)
      (fun effects dr => JudgementLeaves cfg team new ctx action
        { effects with triggerInserted := triggered } dr) fun _ => True := by
  have hsolve : ∀ action : RbJudgeAction, action.sideEffect = true →
      Draws R ok (contract team) t (HasTeam team gameId)
        (Progress cfg team new ctx.team { triggered := triggered, marked := triggered, locked := true })
        (do
          let solved ← applySolve cfg t ctx action
          return ({ solved := solved } : SubmitEffects))
        (fun effects dr => JudgementLeaves cfg team new ctx action
          { effects with triggerInserted := triggered } dr) fun _ => True := by
    intro action ha
    refine Draws.bind (applySolve_deeds hI rfl rfl rfl rfl) fun solved => ?_
    refine Draws.pure fun dr _ h => ⟨⟨fun _ => ha, by simp⟩, ?_⟩
    simpa [solveDeeds, submitDeeds, SubmitEffects.doUnlock, Bool.or_comm] using h
  have hcalm : ∀ action : RbJudgeAction, action ≠ .finishGame → ∀ effects : SubmitEffects,
      effects.solved = false → effects.started = false → ∀ dr, Progress cfg team new ctx.team
        { triggered := triggered, marked := triggered, locked := true } dr →
      JudgementLeaves cfg team new ctx action { effects with triggerInserted := triggered } dr := by
    intro action ha effects hs hst dr h
    refine ⟨⟨by simp [hs], by simp [hst]⟩, ?_⟩
    simpa [submitDeeds, SubmitEffects.doUnlock, hs, hst, ha] using h
  cases action with
  | correct => exact hsolve _ rfl
  | finishGame => exact hsolve _ rfl
  | startGame =>
    refine Draws.bind (applyStart_deeds hI rfl rfl) fun started => ?_
    refine Draws.pure fun dr _ h => ⟨⟨by simp, fun _ => rfl⟩, ?_⟩
    simpa [submitDeeds, SubmitEffects.doUnlock, Bool.or_comm] using h
  | fail =>
    exact (applyFail_draws hI).post fun effects dr h =>
      hcalm _ (by decide) effects h.1 h.2.1 dr h.2.2
  | _ => exact Draws.pure fun dr _ h => hcalm _ (by decide) {} rfl rfl dr h

variable (ctx) in
/-- What follows the judgement. -/
lemma applyJudgement_deeds (hI : ∀ l d, ok l d → HasTeam team gameId d.committed)
    {result : JudgeResult} :
    Draws R ok (contract team) t (HasTeam team gameId)
      (Progress cfg team new ctx.team { locked := true }) (applyJudgement cfg t ctx result)
      (JudgementLeaves cfg team new ctx result.action) fun _ => True := by
  unfold applyJudgement
  split
  · refine Draws.bind ((calmPart_query hI _ isQuiet_updateSubmission).draws _) fun _ => ?_
    refine Draws.bind (storeTriggers_deeds hI rfl rfl) fun triggered => ?_
    refine Draws.bind ((calmPart_query hI _ (isQuiet_insertEvent rfl)).draws _) fun _ => ?_
    refine Draws.bind ((applyAction_deeds triggered hI).conseq (fun _ _ h => ?_)
      (fun _ _ _ h => h) fun _ _ h => h) fun effects => Draws.pure fun _ _ h => h
    simpa using h
  · exact Draws.throw fun _ _ _ => trivial

/-- What the transaction of a submission leaves: a refusal does not commit. -/
def SubmitLeaves (cfg : Config) (team : Id) (new : Id → Prop) (a : Id) :
    Bool × Submitted → Draft Val EventLogInput → Prop
  | (committed, .inl _), _ => committed = false
  | (committed, .inr (result, effects, _)), dr => committed = true ∧ ∃ ctx : SubmitContext,
      ctx.team = a ∧ JudgementLeaves cfg team new ctx result.action effects dr

variable {user : AuthUser} {puzzle : Id} {answer : String} {submitId : Id}

/-- The transaction once access is granted. -/
lemma submitAllowed_deeds (hI : ∀ l d, ok l d → HasTeam team gameId d.committed) {info : PuzzleRow}
    {norm : String} :
    Draws R ok (contract team) t (HasTeam team gameId) (Progress cfg team new a { locked := true })
      (submitAllowed cfg t user puzzle answer submitId a info norm) (SubmitLeaves cfg team new a)
      fun _ => True := by
  have hq : ∀ {β : Type} (stmt : Statement β), IsQuiet stmt →
      CalmPart cfg team new a t R ok (HasTeam team gameId) (Tx.query t .stmt stmt) :=
    calmPart_query hI
  have hrefuse : ∀ refused, Draws R ok (contract team) t (HasTeam team gameId)
      (Progress cfg team new a { locked := true }) (pure (false, .inl refused))
      (SubmitLeaves cfg team new a) fun _ => True :=
    fun refused => Draws.pure fun _ _ _ => rfl
  unfold submitAllowed
  split
  · exact Draws.throw fun _ _ _ => trivial
  · split
    · exact hrefuse _
    · split
      · exact hrefuse _
      · refine Draws.bind ((submitRequirementsConn_closed closed_calmPart hq _).draws _) fun b => ?_
        cases b with
        | false => exact hrefuse _
        | true =>
          refine Draws.bind ((hq _ isQuiet_insertSubmission).draws _) fun submission => ?_
          cases submission with
          | none => exact hrefuse _
          | some submission =>
            refine Draws.bind ((judge_calm hI _).draws _) fun result => ?_
            refine Draws.bind
              (applyJudgement_deeds ⟨a, user.uid, info, submission, answer⟩ hI) fun effects => ?_
            exact Draws.pure fun dr _ h => ⟨rfl, _, rfl, h⟩

/-- **The deeds of the transaction.** -/
lemma submitBody_deeds (hI : ∀ l d, ok l d → HasTeam team gameId d.committed) {norm : String} :
    Draws R ok (contract team) t (HasTeam team gameId) (Progress cfg team new a {})
      (submitBody cfg t user puzzle answer submitId a norm) (SubmitLeaves cfg team new a)
      fun _ => True := by
  have hq : ∀ {β : Type} (stmt : Statement β), IsQuiet stmt →
      CalmPart cfg team new a t R ok (HasTeam team gameId) (Tx.query t .stmt stmt) :=
    calmPart_query hI
  refine Draws.bind (lockTeam_draws hI) fun _ => ?_
  refine Draws.bind ((hq _ isQuiet_selectAccess).draws _) fun access => ?_
  rcases access with _ | _ | _
  · exact Draws.pure fun _ _ _ => rfl
  · exact Draws.pure fun _ _ _ => rfl
  · refine Draws.bind ((hq _ isQuiet_read).draws _) fun allowed => ?_
    rcases allowed with _ | _ | _
    · exact Draws.throw fun _ _ _ => trivial
    · exact Draws.pure fun _ _ _ => rfl
    · dsimp only
      split
      · exact Draws.throw fun _ _ _ => trivial
      · exact submitAllowed_deeds hI

end Draws

end Play
