import RbphBackend.Play.Host

set_option relaxedAutoImplicit false
set_option autoImplicit false

/-!
# Submitting an answer

`submit_answer` judges an answer in one transaction that holds the team's row from its first
statement on, and marks the board and looks for new puzzles after the commit. What a wrong answer
costs is added to the data of its event, here as a record of its own.

## Main definitions

* `Play.Config.normalizeAnswer`, `Play.Config.valueToJudge` — the judge's documents.
* `Play.judge` — the loop over the rules of a puzzle.
* `Play.submitAnswer` — the call.
-/

namespace Play

open Concurrency ReadCommitted Numeric Database Currency
open Release (PuzzleRow)

/-! ## Rules -/

namespace Config

variable (cfg : Config)

/-- `normalize_answer`. -/
def normalizeAnswer (s : String) : String :=
  String.ofList ((s.toList.filter fun c => !Expr.isWhitespace c).flatMap cfg.toLowercase)

/-- What `value_to_judge` makes of a rule. -/
def normalizeRule (rule : JudgeRule) : JudgeRule :=
  if rule.rtype = some "exact" then
    { rule with answer := rule.answer.or rule.text, text := rule.text.map cfg.normalizeAnswer }
  else rule

/-- `value_to_judge`. -/
def valueToJudge (document : String) : Except String (List JudgeRule) := do
  let rules ← cfg.judgeRules document
  if rules.all fun rule => rule.triggers.all Expr.validKey then
    return rules.map cfg.normalizeRule
  else throw "judge rule contains an invalid trigger key"

end Config

/-- The result a rule gives by itself. -/
def JudgeRule.toResult (rule : JudgeRule) : JudgeResult where
  action := .ofName rule.action
  result := rule.result
  answer := rule.answer
  ignored := false
  triggers := rule.triggers

/-- The result where no rule applies. -/
def JudgeResult.wrong : JudgeResult := ⟨.fail, none, none, false, []⟩

/-- The user as the request authenticates it. -/
structure AuthUser where
  uid : Id
  teamId : Option Id
  deriving DecidableEq

/-! ## Statements -/

section Statements

variable (cfg : Config) (team puzzle : Id)

/-- A wrong answer that counts. -/
def Submission.isFailure (s : Submission) : Bool := s.saction = 0 && !s.ignored

/-- `SELECT .. AS "access!" .. FOR UPDATE OF tp`. -/
def selectAccess : Statement (Option Bool) := fun v now =>
  match v (.teamPuzzle team puzzle), v (.team team), cfg.effectiveRelease puzzle with
  | some tp, some tm, some releaseAt => .ok {
      val := some (0 ≤ tp.state && releaseAt ≤ now && !tm.isBanned)
      puts := [lockRow v (.teamPuzzle team puzzle)] }
  | _, _, _ => .ok { val := none }

/-- The cooldown is over and the limit is not reached. -/
def selectAllowed : Statement (Option Bool) := .read fun v now => .ok <|
  match v (.teamPuzzle team puzzle), cfg.puzzle puzzle with
  | some tp, some p =>
    let count : ℤ := (v (.submissions team puzzle)).countP Submission.isFailure
    some (tp.cooldownTill.all (· ≤ now) && p.maxSubmit.all fun limit => count < limit + tp.maxSubmit)
  | _, _ => none

/-- The balance a requirement asks for, locked. -/
def selectRequirementAmount (gameId currency : Id) : Statement (Option BigInt) := fun v now =>
  match walletOf v team currency with
  | none => .ok { val := none }
  | some w =>
    if w.currency.gameId = gameId then do
      let current ← runtimeAmount w.currency w.team w.feature.state now
      return { val := some current, puts := [lockRow v (.teamCurrency team currency)] }
    else .ok { val := none }

/-- `INSERT INTO rb_submission .. ON CONFLICT DO NOTHING RETURNING ..`. -/
def insertSubmission (id user : Id) (answer norm : String) : Statement (Option Submission) :=
  fun v now =>
    let rows := v (.submissions team puzzle)
    if rows.any fun s => !s.ignored && s.normAnswer = norm then .ok { val := none }
    else
      let row : Submission := ⟨id, user, answer, norm, RbJudgeAction.pending.code, none, none, false, now⟩
      .ok { val := some row, puts := [⟨.submissions team puzzle, rows ++ [row]⟩] }

/-- `UPDATE rb_submission SET .. WHERE id = ..`. -/
def updateSubmission (id : Id) (result : JudgeResult) : Statement Unit := fun v _ => .ok {
  val := ()
  puts := [⟨.submissions team puzzle, (v (.submissions team puzzle)).map fun s =>
    if s.id = id then { s with
      saction := result.action.code
      sresult := result.result
      realAnswer := result.answer
      ignored := result.ignored || result.action = .error }
    else s⟩] }

/-- `INSERT INTO rb_team_puzzle_trigger .. ON CONFLICT DO NOTHING`; it returns how many rows there
are more. The keys have to meet the constraint of the table. -/
def insertTriggers (keys : List String) (source : TriggerSource) : Statement ℕ := fun v _ =>
  if keys.all Expr.validKey then
    let inserted := keys.dedup.filter fun key => (v (.trigger team puzzle key)).isNone
    .ok {
      val := inserted.length
      puts := inserted.map fun key => ⟨.trigger team puzzle key, some source⟩ }
  else .error "rb_team_puzzle_trigger_trigger_key_check"

/-- `SELECT state, utime_at FROM rb_game_feature .. FOR UPDATE`. -/
def lockFeature (gameId : Id) : Statement (Option GameFeature) := fun v _ =>
  match v (.feature gameId) with
  | none => .ok { val := none }
  | some gf => .ok { val := some gf, puts := [lockRow v (.feature gameId)] }

/-- The statement that starts the game of a team; it returns whether it had not started. -/
def setStarted (startAt : ℤ) : Statement (Option Bool) := fun v _ =>
  match v (.team team) with
  | none => .ok { val := none }
  | some tm => .ok {
      val := some tm.startAt.isNone
      puts := [⟨.team team, some { tm with
        isLocked := true, startAt := some (tm.startAt.getD startAt) }⟩] }

/-- `INSERT INTO rb_team_currency .. ON CONFLICT DO NOTHING`. -/
def insertTeamCurrencies (utimeAt : ℤ) : Statement Unit := fun v _ => .ok {
  val := ()
  puts := cfg.currencyIds.filterMap fun id =>
    match v (.team team), v (.currency id), v (.teamCurrency team id) with
    | some tm, some c, none =>
      if c.val.gameId = tm.gameId then
        some ⟨.teamCurrency team id, some ⟨c.val.initAmount, 0, c.val.initHidden, utimeAt⟩⟩
      else none
    | _, _, _ => none }

/-- The number of wrong answers that count, and the puzzle's penalties. -/
def selectFailureInfo : Statement (Option (ℕ × String)) := .read fun v _ => .ok <|
  (cfg.puzzle puzzle).map fun p =>
    ((v (.submissions team puzzle)).countP Submission.isFailure, p.penalty)

/-- The statement that takes a penalty, whether the balance covers it or not. -/
def penalizeCurrency (currency : Id) (amount : BigInt) : Statement (Option CurrencyEventData) :=
  fun v now =>
    match v (.teamCurrency team currency), v (.currency currency) with
    | some tc, some c => do
      let current ← purchaseAmount c tc now
      let after ← BigInt.cast (current.val - amount.val)
      return {
        val := some ⟨c.val.id, c.val.slug, c.val.name, c.val.prec, current, after⟩
        puts := [⟨.teamCurrency team currency, some { tc with amount := after, utimeAt := now }⟩,
          lockRow v (.currency currency)] }
    | _, _ => .ok { val := none }

/-- `UPDATE rb_team_puzzle SET cooldown_till = NOW() + .. RETURNING cooldown_till`. -/
def setCooldown (seconds : BigInt) : Statement (Option ℤ) := fun v now =>
  match v (.teamPuzzle team puzzle) with
  | none => .ok { val := none }
  | some tp => do
    let interval ← BigInt.cast (seconds.val * 1000000)
    let till ← Timestamp.check (now + interval.val)
    return {
      val := some till
      puts := [⟨.teamPuzzle team puzzle, some { tp with cooldownTill := some till }⟩] }

end Statements

/-! ## Events -/

/-- The puzzle and the submission the events of a call are about. -/
structure SubmitContext where
  team : Id
  user : Id
  info : PuzzleRow
  submission : Submission
  answer : String

namespace SubmitContext

variable (ctx : SubmitContext)

/-- What the events of a call share. -/
def event (eventType : String) (data : EventData) : EventLogInput where
  eventType := eventType
  gameId := some ctx.info.gameId
  teamId := some ctx.team
  userId := some ctx.user
  puzzleId := some ctx.info.id
  roundId := some ctx.info.roundId
  submissionId := some ctx.submission.id
  data := data

def judgedEvent (result : JudgeResult) : EventLogInput :=
  { ctx.event "submission.judged" (.judged ctx.submission.id ctx.answer ctx.submission.normAnswer
      result.action.code result.result (result.ignored || result.action = .error) ctx.info.id
      ctx.info.title) with
    severity := if result.action = .error then .warning else .info }

def solvedEvent : EventLogInput :=
  ctx.event "puzzle.solved"
    (.submission ctx.info.id ctx.info.title ctx.submission.id (some ctx.answer))

def startedEvent : EventLogInput :=
  ctx.event "game.started"
    (.submission ctx.info.id ctx.info.title ctx.submission.id (some ctx.answer))

def penaltyEvent (data : CurrencyEventData) (amount : BigInt) : EventLogInput :=
  { ctx.event "currency.penalty" (.penalty data ((0 : BigInt).wrappingSub amount)
      ctx.submission.id ctx.info.id ctx.info.title) with
    currencyId := some data.id
    deltaAmount := some ((0 : BigInt).wrappingSub amount) }

/-- What is added to the data of the judged event. -/
def consequencesEvent (cooldownSeconds : Option BigInt) (penalties : List CurrencyPenaltyShowData) :
    EventLogInput :=
  ctx.event "submission.judged" (.consequences (cooldownSeconds.map (·.val)) penalties)

end SubmitContext

/-! ## Judging -/

section Judge

variable (cfg : Config) (t : Tid) (ctx : SubmitContext)

/-- The call of a custom judge function. -/
def judgeCustom (rule : JudgeRule) : Call (Option JudgeResult) := do
  match rule.function, cfg.backend ctx.info.id, cfg.puzzle ctx.info.id, cfg.user ctx.user with
  | none, _, _, _ => throw "custom judge function is missing"
  | some _, none, _, _ => throw "backend not found"
  | some _, some _, none, _ => throw "puzzle not found"
  | some _, some _, some _, none => throw rowNotFound
  | some function, some backend, some info, some nickname =>
    match ← Tx.pool t .stmt (selectTeam ctx.team) with
    | none => throw "team not found"
    | some tm =>
      let rt : RuntimeContext :=
        ⟨info.gameId, info.id, ctx.team, ctx.user, info.title, nickname, tm.name⟩
      let output ← executeJudgeConn cfg rt t (backend.judge function
        ⟨rt, ctx.answer, ctx.submission.normAnswer, ⟨ctx.submission, ctx.team, ctx.info.id⟩⟩)
      return output.map (·.toResult)

/-- The loop over the rules. -/
def judge : List JudgeRule → Call JudgeResult
  | [] => return .wrong
  | rule :: rules =>
    if rule.rtype = some "exact" then
      if rule.text = some ctx.submission.normAnswer then return rule.toResult else judge rules
    else if rule.rtype = some "custom" then do
      match ← judgeCustom cfg t ctx rule with
      | some result => return result
      | none => judge rules
    else if rule.rtype = some "all" then return rule.toResult
    else judge rules

end Judge

/-! ## What a judged answer does -/

/-- What a call has done by the end of its transaction. -/
structure SubmitEffects where
  solved : Bool := false
  started : Bool := false
  triggerInserted : Bool := false
  cooldownTill : Option ℤ := none
  currencyUpdated : Bool := false
  currencyPenalty : List CurrencyPenaltyShowData := []
  deriving DecidableEq

/-- `do_unlock`. -/
def SubmitEffects.doUnlock (effects : SubmitEffects) : Bool :=
  effects.solved || effects.started || effects.triggerInserted

section Actions

variable (cfg : Config) (t : Tid) (ctx : SubmitContext)

/-- The triggers of the result; whether one is new. -/
def storeTriggers (result : JudgeResult) : Call Bool :=
  if !result.ignored && result.action ≠ .error && !result.triggers.isEmpty then do
    let inserted ← Tx.query t .stmt (insertTriggers ctx.team ctx.info.id result.triggers
      ⟨some ctx.submission.id, none⟩)
    when (0 < inserted) (Tx.query t .stmt (markTeamDirty ctx.team))
    return decide (0 < inserted)
  else return false

/-- The branch of `Correct` and `FinishGame`: whether the puzzle is newly solved. -/
def applySolve (action : RbJudgeAction) : Call Bool := do
  let solved ← Tx.query t .stmt (setSolved ctx.team ctx.info.id)
  when (action = .finishGame) (Tx.query t .stmt (setFinished ctx.team))
  when (solved = true) do
    Tx.query t .stmt (markTeamDirty ctx.team)
    Tx.query t .stmt (insertEvent ctx.solvedEvent)
    Tx.query t .stmt (closePuzzleTicketsOnSolve cfg ctx.team ctx.info.id)
  return solved

/-- The branch of `StartGame`: whether the team has newly started. -/
def applyStart : Call Bool := do
  match ← Tx.query t .stmt (lockFeature ctx.info.gameId) with
  | none => throw rowNotFound
  | some feature =>
    let currencyStartAt :=
      if feature.state = .opened then max ctx.submission.ctimeAt feature.utimeAt
      else ctx.submission.ctimeAt
    match ← Tx.query t .stmt (setStarted ctx.team ctx.submission.ctimeAt) with
    | none => throw rowNotFound
    | some started =>
      when (started = true) do
        Tx.query t .stmt (markTeamDirty ctx.team)
        Tx.query t .stmt (insertEvent ctx.startedEvent)
      Tx.query t .stmt (insertTeamCurrencies cfg ctx.team currencyStartAt)
      return started

/-- The currency and the amount of a penalty, if its arguments give them. -/
def PenaltyRule.currencyArgs (rule : PenaltyRule) : Option (Id × BigInt) :=
  match rule.args with
  | currency :: amount :: _ =>
    if 0 ≤ currency.val ∧ currency.val ≤ 2147483647 then some (currency.val.toNat, amount) else none
  | _ => none

/-- A penalty in a currency. -/
def applyCurrencyPenalty (currency : Id) (amount : BigInt) :
    Call (List CurrencyPenaltyShowData) := do
  match ← Tx.query t .stmt (penalizeCurrency ctx.team currency amount) with
  | none => return []
  | some data =>
    Tx.query t .stmt (insertEvent (ctx.penaltyEvent data amount))
    return [⟨data.id, data.name, data.prec, amount⟩]

/-- The loop over the penalties: the seconds of the cooldown, by the last rule that gives them, and
the currencies charged. -/
def applyPenalties (failureCount : ℕ) : List PenaltyRule → Option BigInt →
    List CurrencyPenaltyShowData → Call (Option BigInt × List CurrencyPenaltyShowData)
  | [], seconds, penalties => return (seconds, penalties)
  | rule :: rules, seconds, penalties =>
    match rule.rtype with
    | .no => applyPenalties failureCount rules seconds penalties
    | .fixedTime => applyPenalties failureCount rules (rule.args.head?.or seconds) penalties
    | .linearTime =>
      let linear := rule.args.head?.map fun x => BigInt.saturate (x.val * failureCount)
      applyPenalties failureCount rules (linear.or seconds) penalties
    | .currency =>
      match rule.currencyArgs with
      | none => applyPenalties failureCount rules seconds penalties
      | some (currency, amount) => do
        let penalty ← applyCurrencyPenalty t ctx currency amount
        applyPenalties failureCount rules seconds (penalties ++ penalty)

/-- The cooldown of a wrong answer, if its penalties give one. -/
def applyCooldown : Option BigInt → Call (Option ℤ)
  | none => return none
  | some seconds => do
    match ← Tx.query t .stmt (setCooldown ctx.team ctx.info.id seconds) with
    | none => throw rowNotFound
    | some till =>
      if till ≤ Timestamp.lastDateTime then return some till
      else throw "resulting value is out of range"

/-- The branch of `Fail`, with the amendment of the judged event. -/
def applyFail : Call SubmitEffects := do
  match ← Tx.query t .stmt (selectFailureInfo cfg ctx.team ctx.info.id) with
  | none => throw rowNotFound
  | some (failureCount, document) =>
    match cfg.penaltyRules document with
    | .error e => throw e
    | .ok rules =>
      let (seconds, penalties) ← applyPenalties t ctx failureCount rules none []
      let till ← applyCooldown t ctx seconds
      Tx.query t .stmt (insertEvent (ctx.consequencesEvent seconds penalties))
      return { cooldownTill := till, currencyUpdated := !penalties.isEmpty, currencyPenalty := penalties }

/-- The branches of the action. -/
def applyAction (action : RbJudgeAction) : Call SubmitEffects :=
  match action with
  | .correct | .finishGame => do
    let solved ← applySolve cfg t ctx action
    return { solved := solved }
  | .startGame => do
    let started ← applyStart cfg t ctx
    return { started := started }
  | .fail => applyFail cfg t ctx
  | _ => return {}

/-- What follows the judgement, up to the commit. -/
def applyJudgement (result : JudgeResult) : Call SubmitEffects :=
  if result.triggers.all Expr.validKey then do
    Tx.query t .stmt (updateSubmission ctx.team ctx.info.id ctx.submission.id result)
    let triggerInserted ← storeTriggers t ctx result
    Tx.query t .stmt (insertEvent (ctx.judgedEvent result))
    let effects ← applyAction cfg t ctx result.action
    return { effects with triggerInserted := triggerInserted }
  else throw "judge returned an invalid trigger key"

end Actions

/-! ## The call -/

/-- `get_puzzle_team_state`. -/
structure RbPuzzleTeamStateShowData where
  state : ℤ
  maxSubmit : Option ℤ
  submitCount : ℕ
  answers : List String
  utimeAt : ℤ
  cooldownTill : Option ℤ
  deriving DecidableEq

structure SubmitStateUpdate where
  state : Option RbPuzzleTeamStateShowData
  currency : List RbCurrencyShowData
  currencyPenalty : List CurrencyPenaltyShowData
  contentChanged : Bool
  deriving DecidableEq

/-- The result of a call; the events a judge function emits are left out. -/
inductive SubmitAnswerResult where
  | ok (result : JudgeResult) (solved : Bool) (unlocks : List Id) (cooldownTill : Option ℤ)
      (update : SubmitStateUpdate)
  | locked
  | duplicate
  | invalid
  | notFound
  deriving DecidableEq

section Call

variable (cfg : Config) (t : Tid) (user : AuthUser) (puzzle : Id) (answer : String)
  (submitId : Id)

/-- `get_puzzle_team_state`. -/
def getPuzzleTeamState (team : Id) : Statement (Option RbPuzzleTeamStateShowData) :=
  .read fun v now => .ok <|
    match v (.teamPuzzle team puzzle), cfg.puzzle puzzle, cfg.effectiveRelease puzzle with
    | some tp, some p, some releaseAt =>
      if 0 ≤ tp.state ∧ releaseAt ≤ now then
        let rows := v (.submissions team puzzle)
        some {
          state := tp.state
          maxSubmit := p.maxSubmit.map (tp.maxSubmit + ·)
          submitCount := rows.countP Submission.isFailure
          answers := ((rows.filter fun s => s.saction = 1).filterMap (·.realAnswer)).dedup
          utimeAt := max tp.ctimeAt releaseAt
          cooldownTill := tp.cooldownTill }
      else none
    | _, _, _ => none

/-- The currencies of the team that are not hidden. -/
def getCurrencyInfos (team : Id) : Statement (List RbCurrencyShowData) := .read fun v now =>
  ((cfg.currencyIds.filterMap (walletOf v team)).filter fun w => !w.team.hidden).mapM fun w =>
    getCurrencyInfo w.currency w.team w.feature.state now

/-- The checks of the requirements, in order. -/
def submitRequirementsConn (team gameId : Id) : List PuzzleSubmitRequirement → Call Bool
  | [] => return true
  | .currencyMinimum currency minimum :: requirements => do
    match ← Tx.query t .stmt (selectRequirementAmount team gameId currency) with
    | none => return false
    | some amount =>
      if amount.val < minimum.val then return false
      else submitRequirementsConn team gameId requirements

/-- What the transaction ends with: a refusal, or what it has done. -/
abbrev Submitted : Type := SubmitAnswerResult ⊕ (JudgeResult × SubmitEffects × Bool)

/-- The transaction once the submission is stored. -/
def judgeSubmission (ctx : SubmitContext) (rules : List JudgeRule) :
    Call (Bool × Submitted) := do
  let result ← judge cfg t ctx rules
  let effects ← applyJudgement cfg t ctx result
  return (true, .inr (result, effects, rules.any fun rule => rule.rtype = some "custom"))

/-- The transaction once access is granted. -/
def submitAllowed (team : Id) (info : PuzzleRow) (norm : String) : Call (Bool × Submitted) :=
  match cfg.valueToJudge info.judge with
  | .error e => throw e
  | .ok rules =>
    if rules.isEmpty then return (false, .inl .locked)
    else
      match cfg.submitRequirements info.submitRequirements with
      | .error _ => return (false, .inl .locked)
      | .ok requirements => do
        match ← submitRequirementsConn t team info.gameId requirements with
        | false => return (false, .inl .locked)
        | true =>
          match ← Tx.query t .stmt (insertSubmission team puzzle submitId user.uid answer norm) with
          | none => return (false, .inl .duplicate)
          | some submission =>
            judgeSubmission cfg t ⟨team, user.uid, info, submission, answer⟩ rules

/-- The transaction. -/
def submitBody (team : Id) (norm : String) : Call (Bool × Submitted) := do
  Tx.query t .stmt (lockTeam team)
  match ← Tx.query t .stmt (selectAccess cfg team puzzle) with
  | none => return (false, .inl .notFound)
  | some false => return (false, .inl .locked)
  | some true =>
    match ← Tx.query t .stmt (selectAllowed cfg team puzzle) with
    | none => throw rowNotFound
    | some false => return (false, .inl .locked)
    | some true =>
      match cfg.puzzle puzzle with
      | none => throw rowNotFound
      | some info => submitAllowed cfg t user puzzle answer submitId team info norm

/-- `unlock_new_puzzles` and `refresh_team_hint_states`, where the state has changed. -/
def unlockAfter (team : Id) (doUnlock : Bool) : Call (List Id) :=
  if doUnlock then do
    let unlocks ← unlockNewPuzzles cfg t team
    refreshTeamHintStates cfg t team none
    return unlocks
  else return []

/-- What follows the commit. -/
def afterSubmit (team : Id) (result : JudgeResult) (effects : SubmitEffects) (hasCustom : Bool) :
    Call SubmitAnswerResult := do
  when (result.action.sideEffect = true) (Tx.pool t .stmt (updateTeam team true))
  let unlocks ← unlockAfter cfg t team effects.doUnlock
  let state ← Tx.pool t .stmt (getPuzzleTeamState cfg puzzle team)
  let currency ←
    (if effects.currencyUpdated ∨ result.action = .startGame ∨ hasCustom then
      Tx.pool t .stmt (getCurrencyInfos cfg team)
    else pure [])
  return .ok result effects.solved unlocks effects.cooldownTill
    ⟨state, currency, effects.currencyPenalty, effects.doUnlock || !unlocks.isEmpty⟩

/-- `submit_answer`. -/
def submitAnswer : Call SubmitAnswerResult :=
  let norm := cfg.normalizeAnswer answer
  if norm = "" then return .invalid
  else
    match user.teamId with
    | none => throw "Require team_id"
    | some team => do
      match ← Tx.transaction t .stmt (submitBody cfg t user puzzle answer submitId team norm) with
      | .inl refused => return refused
      | .inr (result, effects, hasCustom) => afterSubmit cfg t puzzle team result effects hasCustom

end Call

end Play
