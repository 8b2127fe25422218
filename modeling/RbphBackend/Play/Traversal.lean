import RbphBackend.Play.CalmCalls

set_option relaxedAutoImplicit false
set_option autoImplicit false

/-!
# What all statements of a call have in common

Every statement of a call leaves the recorded instants. So a call has every property that such
statements have and that composition and transactions keep, whatever its branches are.

## Main definitions

* `Play.Carries` — a property that statements, composition and transactions carry.

## Main results

* `Play.Carries.submitAnswer`, `Play.Carries.purchaseHint`, `Play.Carries.solveBackendPuzzle`,
  `Play.Carries.refreshTeamUnlocksIfDirty` — the calls have it.
-/

namespace Play

open Concurrency ReadCommitted Numeric Database Currency
open Release (PuzzleRow)

/-- A property of the calls of session `t` that statements which leave the recorded instants have,
and that composition, transactions and parts that go on after an error keep. -/
structure Carries (t : Tid) (Φ : ∀ {β : Type}, Call β → Prop) : Prop extends Closed Φ where
  query : ∀ {β : Type} {l : Label} {stmt : Statement β}, KeepsOrigins stmt → Φ (Tx.query t l stmt)
  pool : ∀ {β : Type} {l : Label} {stmt : Statement β}, KeepsOrigins stmt → Φ (Tx.pool t l stmt)
  transaction : ∀ {β : Type} {l : Label} {body : Call (Bool × β)}, Φ body →
    Φ (Tx.transaction t l body)
  recover : ∀ {β γ : Type} {p : Call β} {k : Except String β → Call γ}, Φ p → (∀ r, Φ (k r)) →
    Φ (ExceptT.mk (p.run.bind fun r => (k r).run) : Call γ)

namespace Carries

variable {cfg : Config} {t : Tid} {Φ : ∀ {β : Type}, Call β → Prop}

lemma query_quiet (h : Carries t Φ) {β : Type} (stmt : Statement β) (hs : IsQuiet stmt) :
    Φ (Tx.query t .stmt stmt) := h.query hs.origins

lemma pool_quiet (h : Carries t Φ) {β : Type} (stmt : Statement β) (hs : IsQuiet stmt) :
    Φ (Tx.pool t .stmt stmt) := h.pool hs.origins

lemma pool_read (h : Carries t Φ) {β : Type} {f : View → ℤ → Except String β} :
    Φ (Tx.pool t .stmt (.read f)) := h.pool_quiet _ isQuiet_read

/-- A backend function, by induction on it. -/
lemma run (h : Carries t Φ) {host : HostCall cfg.doubles → Call HostReply}
    (hhost : ∀ c, Φ (host c)) {α : Type} (program : HostProgram cfg.doubles α) :
    Φ (program.run host) := by
  induction program with
  | done result =>
    cases result with
    | ok a => exact h.pure a
    | error e => exact h.throw (β := α) e
  | call c k ih => exact h.recover (hhost c) ih

/-! ## Solving and unlocking -/

section Solve

variable {team user puzzle submission : Id}

/-- `unlock_new_puzzles`. -/
lemma unlockNewPuzzles (h : Carries t Φ) : Φ (unlockNewPuzzles cfg t team) := by
  refine h.bind h.pool_read fun info => ?_
  cases info with
  | none => exact h.pure _
  | some info =>
    refine h.bind h.pool_read fun triggers => ?_
    show Φ (insertUnlocks ..)
    unfold insertUnlocks
    split
    · exact h.pure _
    · refine h.bind (h.pool keepsOrigins_insertTeamPuzzles) fun inserted => ?_
      split
      · exact h.pure _
      · refine h.bind (h.pool keepsOrigins_markTeamDirty) fun _ => ?_
        exact h.bind (h.forM (fun _ => h.pool keepsOrigins_insertEvent) _) fun _ => h.pure _

/-- `refresh_team_hint_states`. -/
lemma refreshTeamHintStates (h : Carries t Φ) {puzzle : Option Id} :
    Φ (refreshTeamHintStates cfg t team puzzle) := by
  refine h.transaction (h.bind ?_ fun _ => h.pure _)
  exact refreshTeamHintStatesConn_closed h.toClosed h.query_quiet

/-- `unlock_new_puzzles` and `refresh_team_hint_states`, where the state has changed. -/
lemma unlockAfter (h : Carries t Φ) {doUnlock : Bool} : Φ (unlockAfter cfg t team doUnlock) := by
  unfold Play.unlockAfter
  split
  · exact h.bind h.unlockNewPuzzles fun _ => h.bind h.refreshTeamHintStates fun _ => h.pure _
  · exact h.pure _

/-- **`solve_backend_puzzle`.** -/
lemma solveBackendPuzzle (h : Carries t Φ) :
    Φ (solveBackendPuzzle cfg t team user puzzle submission) := by
  have hbody : Φ (solveBackendBody cfg t team puzzle submission) := by
    refine h.bind (h.query_quiet _ isQuiet_lockTeam) fun _ => ?_
    refine h.bind (h.query_quiet _ isQuiet_selectSubmission) fun s => ?_
    cases s with
    | none => exact h.throw _
    | some s =>
      refine h.bind (h.query keepsOrigins_setSolved) fun solved => ?_
      refine h.bind (h.when (h.query keepsOrigins_setFinished)) fun _ => ?_
      refine h.bind (h.when ?_) fun _ => h.pure _
      exact h.bind (h.query keepsOrigins_markTeamDirty) fun _ =>
        h.query keepsOrigins_closePuzzleTicketsOnSolve
  refine h.bind (h.transaction hbody) fun x => ?_
  obtain ⟨solved, action⟩ := x
  refine h.bind (h.when ?_) fun _ => h.pure _
  refine h.bind (h.pool_quiet _ isQuiet_updateTeam) fun _ => h.bind ?_ fun _ => ?_
  · split
    · exact h.pure _
    · exact h.pool keepsOrigins_insertEvent
  · refine h.bind (h.when (h.pool_quiet _ isQuiet_updateTeam)) fun _ => ?_
    exact h.bind h.unlockNewPuzzles fun _ => h.pure _

/-- **`refresh_team_unlocks_if_dirty`.** -/
lemma refreshTeamUnlocksIfDirty (h : Carries t Φ) {gameId : Id} :
    Φ (refreshTeamUnlocksIfDirty cfg t team gameId) := by
  have hblocks : ∀ states pending, Φ (unlockBlocks t team states pending) := by
    intro states pending
    induction pending with
    | nil => exact h.pure _
    | cons cb pending ih =>
      exact h.bind (h.when (h.query keepsOrigins_insertContentBlockUnlock)) fun _ => ih
  refine h.transaction (h.bind (h.query keepsOrigins_lockTeamOfGame) fun tm => ?_)
  cases tm with
  | none => exact h.pure _
  | some tm =>
    show Φ (if _ then _ else _)
    split
    · refine h.bind (h.query_quiet _ isQuiet_read) fun blocks => ?_
      refine h.bind (h.query_quiet _ isQuiet_read) fun unlocked => h.bind ?_ fun _ => ?_
      · unfold unlockPending
        split
        · exact h.pure _
        · refine h.bind (h.bind (h.query_quiet _ isQuiet_read) fun solved => ?_) fun states =>
            hblocks states _
          exact h.bind (h.query_quiet _ isQuiet_read) fun triggers => h.pure _
      · exact h.bind (h.query keepsOrigins_markTeamClean) fun _ => h.pure _
    · exact h.pure _

end Solve

/-! ## Submissions -/

section Submit

variable {ctx : SubmitContext}

/-- Judging. -/
lemma judge (h : Carries t Φ) (rules : List JudgeRule) : Φ (judge cfg t ctx rules) := by
  have hcustom : ∀ rule, Φ (judgeCustom cfg t ctx rule) := by
    intro rule
    unfold judgeCustom
    split
    · exact h.throw _
    · exact h.throw _
    · exact h.throw _
    · exact h.throw _
    · refine h.bind h.pool_read fun tm => ?_
      cases tm with
      | none => exact h.throw _
      | some tm =>
        refine h.bind (h.bind (h.query_quiet _ isQuiet_setLocal) fun _ => h.bind (h.run ?_ _)
          fun output => ?_) fun output => h.pure _
        · exact judgeHost_closed h.toClosed h.query_quiet
        · refine h.bind (h.when (h.throw _)) fun _ => ?_
          exact h.bind (h.query_quiet _ isQuiet_setLocal) fun _ => h.pure _
  induction rules with
  | nil => exact h.pure _
  | cons rule rules ih =>
    unfold Play.judge
    split
    · split
      · exact h.pure _
      · exact ih
    · split
      · refine h.bind (hcustom rule) fun result => ?_
        cases result with
        | none => exact ih
        | some result => exact h.pure _
      · split
        · exact h.pure _
        · exact ih

/-- A solved puzzle. -/
lemma applySolve (h : Carries t Φ) {action : RbJudgeAction} : Φ (applySolve cfg t ctx action) := by
  refine h.bind (h.query keepsOrigins_setSolved) fun solved => ?_
  refine h.bind (h.when (h.query keepsOrigins_setFinished)) fun _ => ?_
  refine h.bind (h.when ?_) fun _ => h.pure _
  refine h.bind (h.query keepsOrigins_markTeamDirty) fun _ => ?_
  exact h.bind (h.query keepsOrigins_insertEvent) fun _ =>
    h.query keepsOrigins_closePuzzleTicketsOnSolve

/-- The start of the game. -/
lemma applyStart (h : Carries t Φ) : Φ (applyStart cfg t ctx) := by
  refine h.bind (h.query_quiet _ isQuiet_lockFeature) fun feature => ?_
  cases feature with
  | none => exact h.throw _
  | some feature =>
    refine h.bind (h.query keepsOrigins_setStarted) fun started => ?_
    cases started with
    | none => exact h.throw _
    | some started =>
      refine h.bind (h.when ?_) fun _ => ?_
      · exact h.bind (h.query keepsOrigins_markTeamDirty) fun _ => h.query keepsOrigins_insertEvent
      · exact h.bind (h.query_quiet _ isQuiet_insertTeamCurrencies) fun _ => h.pure _

/-- A wrong answer. -/
lemma applyFail (h : Carries t Φ) : Φ (applyFail cfg t ctx) := by
  refine h.bind (h.query_quiet _ isQuiet_read) fun info => ?_
  cases info with
  | none => exact h.throw _
  | some info =>
    obtain ⟨failureCount, document⟩ := info
    dsimp only
    split
    · exact h.throw _
    · refine h.bind (applyPenalties_closed h.toClosed h.query_quiet _ _ _) fun out => ?_
      refine h.bind (applyCooldown_closed h.toClosed h.query_quiet _) fun till => ?_
      exact h.bind (h.query keepsOrigins_insertEvent) fun _ => h.pure _

/-- What follows the judgement. -/
lemma applyJudgement (h : Carries t Φ) {result : JudgeResult} :
    Φ (applyJudgement cfg t ctx result) := by
  have htriggers : Φ (storeTriggers t ctx result) := by
    unfold storeTriggers
    split
    · exact h.bind (h.query keepsOrigins_insertTriggers) fun n =>
        h.bind (h.when (h.query keepsOrigins_markTeamDirty)) fun _ => h.pure _
    · exact h.pure _
  have haction : Φ (applyAction cfg t ctx result.action) := by
    unfold applyAction
    split
    · exact h.bind h.applySolve fun _ => h.pure _
    · exact h.bind h.applySolve fun _ => h.pure _
    · exact h.bind h.applyStart fun _ => h.pure _
    · exact h.applyFail
    · exact h.pure _
  unfold Play.applyJudgement
  split
  · refine h.bind (h.query_quiet _ isQuiet_updateSubmission) fun _ => h.bind htriggers fun _ => ?_
    exact h.bind (h.query keepsOrigins_insertEvent) fun _ => h.bind haction fun _ => h.pure _
  · exact h.throw _

variable {user : AuthUser} {puzzle : Id} {answer : String} {submitId : Id}

/-- The transaction of a submission. -/
lemma submitBody (h : Carries t Φ) {team : Id} {norm : String} :
    Φ (submitBody cfg t user puzzle answer submitId team norm) := by
  refine h.bind (h.query_quiet _ isQuiet_lockTeam) fun _ => ?_
  refine h.bind (h.query_quiet _ isQuiet_selectAccess) fun access => ?_
  rcases access with _ | _ | _
  · exact h.pure _
  · exact h.pure _
  refine h.bind (h.query_quiet _ isQuiet_read) fun allowed => ?_
  rcases allowed with _ | _ | _
  · exact h.throw _
  · exact h.pure _
  dsimp only
  split
  · exact h.throw _
  unfold submitAllowed
  split
  · exact h.throw _
  · split
    · exact h.pure _
    · split
      · exact h.pure _
      · refine h.bind (submitRequirementsConn_closed h.toClosed h.query_quiet _) fun b => ?_
        cases b with
        | false => exact h.pure _
        | true =>
          refine h.bind (h.query_quiet _ isQuiet_insertSubmission) fun submission => ?_
          cases submission with
          | none => exact h.pure _
          | some submission =>
            exact h.bind (h.judge _) fun result => h.bind h.applyJudgement fun _ => h.pure _

/-- **`submit_answer`.** -/
lemma submitAnswer (h : Carries t Φ) : Φ (submitAnswer cfg t user puzzle answer submitId) := by
  unfold Play.submitAnswer
  dsimp only
  split
  · exact h.pure _
  · split
    · exact h.throw _
    · refine h.bind (h.transaction h.submitBody) fun submitted => ?_
      rcases submitted with refused | ⟨result, effects, hasCustom⟩
      · exact h.pure _
      · refine h.bind (h.when (h.pool_quiet _ isQuiet_updateTeam)) fun _ => ?_
        refine h.bind h.unlockAfter fun _ => h.bind h.pool_read fun _ => h.bind ?_ fun _ => h.pure _
        split
        · exact h.pool_read
        · exact h.pure _

end Submit

/-! ## Purchases -/

section Purchase

variable {rt : RuntimeContext} {normalize : String → String}

/-- The host of a hint function. -/
lemma hintHost (h : Carries t Φ) (c : HostCall cfg.doubles) :
    Φ (hintHost cfg rt t normalize c) := by
  have hΦ : Closed Φ := h.toClosed
  have hown : ∀ {α : Type} {p : Call α}, Φ p → Φ (ownTx t p) := fun hp =>
    h.transaction (h.bind hp fun _ => h.pure _)
  cases c with
  | kv at_ call => exact kvCall_closed hΦ h.pool_quiet
  | currencyQuery team checkTeam currency =>
    exact h.bind (ensureCurrencyTeam_closed hΦ h.pool_quiet) fun _ =>
      currencyQuery_closed hΦ h.pool_quiet
  | currencyCost team checkTeam currency amount reason =>
    refine h.bind (ensureCurrencyTeam_closed hΦ h.pool_quiet) fun _ => ?_
    exact h.bind (hown (costCurrencyRef_closed hΦ h.query_quiet)) fun _ => h.pure _
  | currencyAdd team checkTeam currency amount reason =>
    refine h.bind (ensureCurrencyTeam_closed hΦ h.pool_quiet) fun _ => ?_
    exact h.bind (hown (addCurrencyRef_closed hΦ h.query_quiet)) fun _ => h.pure _
  | currencyUpdate team checkTeam currency options reason =>
    refine h.bind (ensureCurrencyTeam_closed hΦ h.pool_quiet) fun _ => ?_
    exact h.bind (hown (updateCurrencyRef_closed hΦ h.query_quiet)) fun _ => h.pure _
  | submissionAdd data id =>
    refine h.bind (h.bind (h.pool_quiet _ isQuiet_insertBackendSubmission) fun row => ?_) fun _ =>
      h.pure _
    refine h.bind ?_ fun _ => h.pure _
    split
    · exact h.pure _
    · exact h.pool keepsOrigins_insertEvent
  | puzzleSolve submission =>
    refine h.bind ?_ fun _ => h.pure _
    unfold solveBackendPuzzleWithSubmission
    split
    · exact h.solveBackendPuzzle
    · exact h.throw _
  | interrupted e => exact h.pool_quiet _ isQuiet_error

variable {user : Id} {info : HintPurchaseInfo}

/-- The transaction of a purchase. -/
lemma purchaseBody (h : Carries t Φ) : Φ (purchaseBody t user info) := by
  have hcharge : Φ (chargeHint t info) := by
    unfold chargeHint
    split
    · exact h.pure _
    · exact h.bind (h.query isQuiet_chargeCurrency.origins) fun _ => h.pure _
  refine h.bind hcharge fun data => ?_
  cases data with
  | none => exact h.pure _
  | some data =>
    refine h.bind (h.query keepsOrigins_upsertTeamHint) fun _ => h.bind ?_ fun _ => ?_
    · unfold storeHintTriggers
      split
      · exact h.pure _
      · exact h.bind (h.query keepsOrigins_insertTriggers) fun n =>
          h.bind (h.when (h.query keepsOrigins_markTeamDirty)) fun _ => h.pure _
    · exact h.bind (h.query keepsOrigins_insertEvent) fun _ => h.pure _

/-- A purchase, once the hint may be purchased. -/
lemma purchaseAvailable (h : Carries t Φ) : Φ (purchaseAvailable cfg t user info) := by
  have hcheck : Φ (precheckHint t info) := by
    unfold precheckHint
    split
    · exact h.pure _
    · exact h.bind h.pool_read fun _ => h.pure _
  refine h.bind hcheck fun data => ?_
  cases data with
  | none => exact h.pure _
  | some data =>
    refine h.bind ?_ fun _ => h.bind (h.transaction h.purchaseBody) fun inserted => ?_
    · unfold runHintFunction
      split
      · exact h.pure _
      · split
        · exact h.throw _
        · split
          · exact h.throw _
          · exact h.run h.hintHost _
    · cases inserted with
      | none => exact h.pure _
      | some inserted => exact h.bind h.unlockAfter fun _ => h.pure _

/-- **`purchase_hint`.** -/
lemma purchaseHint (h : Carries t Φ) {hint : Id} : Φ (purchaseHint cfg t user hint) := by
  refine h.bind h.pool_read fun target => ?_
  rcases target with _ | ⟨team, puzzle⟩
  · exact h.pure _
  · refine h.bind h.refreshTeamHintStates fun _ => h.bind h.pool_read fun info => ?_
    cases info with
    | none => exact h.pure _
    | some info =>
      refine h.bind (teamGateStateConn_closed h.toClosed h.pool_quiet) fun state => ?_
      cases state with
      | none => exact h.pure _
      | some state =>
        show Φ (if _ then _ else _)
        split
        · exact h.purchaseAvailable
        · exact h.pure _

end Purchase

end Carries

end Play
