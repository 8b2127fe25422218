import RbphBackend.Play.Solve

set_option relaxedAutoImplicit false
set_option autoImplicit false

/-!
# Host calls

What the host calls of a backend function do. A judge function runs inside the transaction of the
submission it judges; an SQL error in a host call aborts that transaction, whatever the function
makes of it. A hint function runs on connections of its own, so what its calls do is committed call
by call.

## Main definitions

* `Play.HostProgram.run` — a backend function with a meaning for its host calls.
* `Play.judgeHost`, `Play.executeJudgeConn` — judge functions.
* `Play.hintHost`, `Play.executeHintPurchase` — hint functions.
-/

namespace Play

open Concurrency ReadCommitted Numeric Database Currency

/-- A backend function, run by a host. -/
def HostProgram.run {D : Backend.Doubles} {α : Type} (host : HostCall D → Call HostReply) :
    HostProgram D α → Call α
  | .done result => ExceptT.mk (pure result)
  | .call c k => ExceptT.mk ((host c).run.bind fun reply => ((k reply).run host).run)

/-! ## Statements -/

section Statements

variable (cfg : Config) (rt : RuntimeContext)

/-- `ensure_scope_in_game_conn`. -/
def ensureScopeInGame (scope : Backend.BackendScope) : Statement Bool := .read fun v _ =>
  let teamInGame (team : Id) := (v (.team team)).any fun tm => tm.gameId = rt.gameId
  let puzzleInGame (puzzle : Id) := (cfg.puzzle puzzle).any fun p => p.gameId = rt.gameId
  .ok <| match scope with
    | .global => true
    | .team team => teamInGame team
    | .puzzle puzzle => puzzleInGame puzzle
    | .teamPuzzle team puzzle => teamInGame team && puzzleInGame puzzle

/-- The statements of a call on the key-value store. -/
def kvStatement (at_ : Backend.Instants) (call : Backend.KvCall cfg.doubles) :
    Statement HostReply := fun v _ =>
  let old := v (.kv call.key)
  match Backend.execRow at_ old call with
  | .error e => .error e
  | .ok (reply, row) => .ok {
      val := .kv reply
      puts := if row = old then [] else [⟨.kv call.key, row⟩] }

/-- The currency of a game that has a slug. -/
def currencyBySlug (v : View) (slug : String) : Option Id :=
  cfg.currencyIds.find? fun id => (v (.currency id)).any fun c =>
    c.val.gameId = rt.gameId && c.val.slug = slug

/-- The currency a host call names. -/
def HostCurrencyRef.resolve (v : View) : HostCurrencyRef → Option Id
  | .id currencyId => some currencyId
  | .slug name => currencyBySlug cfg rt v name

/-- `lock_currency_runtime_conn` and `lock_currency_runtime_by_slug_conn`. -/
def lockCurrencyRef (team : Id) (currency : HostCurrencyRef) :
    Statement (Option CurrencyRuntimeRow) := fun v now =>
  match currency.resolve cfg rt v with
  | none => .ok { val := none }
  | some id => lockCurrencyRuntimeConn team id v now

/-- `get_currency_info_one_all_conn`, `get_currency_info_one_by_slug_all_conn`. -/
def getCurrencyInfoRef (team : Id) (currency : HostCurrencyRef) :
    Statement (Option RbCurrencyShowData) := fun v now =>
  match currency.resolve cfg rt v with
  | none => .ok { val := none }
  | some id => getCurrencyInfoOneAll team id v now

/-- `get_currency_info_all_conn`. -/
def getCurrencyInfoAll (team : Id) : Statement (List RbCurrencyShowData) := .read fun v now =>
  (cfg.currencyIds.filterMap (walletOf v team)).mapM fun w =>
    getCurrencyInfo w.currency w.team w.feature.state now

/-- `insert_backend_submission`. -/
def insertBackendSubmission (normalize : String → String) (data : BackendSubmissionInput) (id : Id) :
    Statement BackendSubmissionShowData := fun v now =>
  let rows := v (.submissions rt.teamId rt.puzzleId)
  let norm := data.normAnswer.getD (normalize data.userAnswer)
  if !data.ignored && rows.any fun s => !s.ignored && s.normAnswer = norm then
    .error "duplicate key value violates unique constraint"
  else
    let row : Submission := ⟨id, rt.userId, data.userAnswer, norm, data.action.code, data.result,
      data.realAnswer, data.ignored, now⟩
    .ok {
      val := ⟨row, rt.teamId, rt.puzzleId⟩
      puts := [⟨.submissions rt.teamId rt.puzzleId, rows ++ [row]⟩] }

end Statements

/-! ## Currencies -/

section Currency

variable (cfg : Config) (rt : RuntimeContext) (t : Tid) (team : Id) (currency : HostCurrencyRef)

/-- The event context of a host call. -/
def RuntimeContext.eventContext (reason : Option String) : CurrencyEventContext :=
  ⟨some rt.puzzleId, some rt.puzzleTitle, reason⟩

/-- `cost_currency_conn`, `cost_currency_by_slug_conn`. -/
def costCurrencyRef (amount : BigInt) (reason : Option String) : Call Bool := do
  match ← Tx.query t .stmt (lockCurrencyRef cfg rt team currency) with
  | none => return false
  | some row => costCurrencyLockedConn t team row amount (some (rt.eventContext reason))

/-- `add_currency_conn`, `add_currency_by_slug_conn`. -/
def addCurrencyRef (amount : BigInt) (reason : Option String) : Call (Option BigInt) := do
  match ← Tx.query t .stmt (lockCurrencyRef cfg rt team currency) with
  | none => return none
  | some row => addCurrencyLockedConn t team row amount (some (rt.eventContext reason))

/-- `update_currency_conn`, `update_currency_by_slug_conn`. -/
def updateCurrencyRef (options : UpdateCurrencyOptions) (reason : Option String) :
    Call (Option RbCurrencyShowData) := do
  match ← Tx.query t .stmt (lockCurrencyRef cfg rt team currency) with
  | none => return none
  | some row =>
    applyCurrencyUpdateConn t team row options
    (match options.amount with
      | none => pure ()
      | some amount =>
        insertBackendCurrencyUpdateEventConn t team row (BigInt.min amount row.maxAmount)
          (some (rt.eventContext reason)))
    Tx.query t .stmt (getCurrencyInfoOneAll team row.id)

/-- `currency_query`. -/
def currencyQuery (run : Executor) : Option HostCurrencyRef → Call HostReply
  | some currency => do
    let row ← run (getCurrencyInfoRef cfg rt team currency)
    return .currency row
  | none => do
    let rows ← run (getCurrencyInfoAll cfg team)
    return .currencies rows

/-- `ensure_currency_team`, where the call asks for it. -/
def ensureCurrencyTeam (run : Executor) (checkTeam : Bool) : Call Unit :=
  when (checkTeam = true) do
    match ← run (ensureScopeInGame cfg rt (.team team)) with
    | true => return ()
    | false => throw "$game.currency team does not belong to current game"

end Currency

/-- A call on the key-value store: its keys are those of the current game. -/
def kvCall (cfg : Config) (rt : RuntimeContext) (run : Executor) (at_ : Backend.Instants)
    (call : Backend.KvCall cfg.doubles) : Call HostReply := do
  match ← run (ensureScopeInGame cfg rt call.key.scope) with
  | true =>
    if call.key.gameId = rt.gameId then run (kvStatement cfg at_ call)
    else throw "backend scope does not belong to current game"
  | false => throw "backend scope does not belong to current game"

/-! ## Judge functions -/

section Judge

variable (cfg : Config) (rt : RuntimeContext) (t : Tid)

/-- The host of a judge function: every statement runs in the transaction of the submission. -/
def judgeHost : HostCall cfg.doubles → Call HostReply
  | .kv at_ call => kvCall cfg rt (Tx.query t .stmt) at_ call
  | .currencyQuery team checkTeam currency => do
    ensureCurrencyTeam cfg rt team (Tx.query t .stmt) checkTeam
    currencyQuery cfg rt team (Tx.query t .stmt) currency
  | .currencyCost team checkTeam currency amount reason => do
    ensureCurrencyTeam cfg rt team (Tx.query t .stmt) checkTeam
    let paid ← costCurrencyRef cfg rt t team currency amount reason
    return .paid paid
  | .currencyAdd team checkTeam currency amount reason => do
    ensureCurrencyTeam cfg rt team (Tx.query t .stmt) checkTeam
    let added ← addCurrencyRef cfg rt t team currency amount reason
    return .added added
  | .currencyUpdate team checkTeam currency options reason => do
    ensureCurrencyTeam cfg rt team (Tx.query t .stmt) checkTeam
    let row ← updateCurrencyRef cfg rt t team currency options reason
    return .currency row
  | .submissionAdd .. => throw "$this.submission.add is not available in judge functions"
  | .puzzleSolve _ => throw "$this.solve is not available in judge functions"
  | .interrupted e => Tx.query t .stmt fun _ _ => .error e

/-- `SET LOCAL ..`. -/
def setLocal : Statement Unit := fun _ _ => .ok { val := () }

/-- `execute_judge_conn`. -/
def executeJudgeConn (program : HostProgram cfg.doubles (Option JudgeBackendOutput)) :
    Call (Option JudgeBackendOutput) := do
  Tx.query t .stmt setLocal
  let output ← program.run (judgeHost cfg rt t)
  when (output.any (fun o => o.ignored.isSome && o.action.isNone) = true)
    (throw "judge output ignored requires action")
  Tx.query t .stmt setLocal
  return output

end Judge

/-! ## Hint functions -/

section Hint

variable (cfg : Config) (rt : RuntimeContext) (t : Tid) (normalize : String → String)

/-- A call that is a transaction of its own. -/
def ownTx {α : Type} (p : Call α) : Call α :=
  Tx.transaction t .stmt do
    let a ← p
    return (true, a)

def backendAddedEvent (info : Release.PuzzleRow) (row : BackendSubmissionShowData) :
    EventLogInput where
  eventType := "submission.backend_added"
  gameId := some info.gameId
  teamId := some rt.teamId
  userId := some rt.userId
  puzzleId := some rt.puzzleId
  submissionId := some row.id
  data := .judged row.id row.userAnswer row.normAnswer row.saction row.sresult row.ignored info.id
    info.title

/-- `add_backend_submission`. -/
def addBackendSubmission (data : BackendSubmissionInput) (id : Id) :
    Call BackendSubmissionShowData := do
  let row ← Tx.pool t .stmt (insertBackendSubmission rt normalize data id)
  (match cfg.puzzle rt.puzzleId with
    | none => pure ()
    | some info => Tx.pool t .stmt (insertEvent (backendAddedEvent rt info row)))
  return row

/-- `solve_backend_puzzle_with_submission`. -/
def solveBackendPuzzleWithSubmission (submission : BackendSubmissionShowData) : Call Bool :=
  if submission.teamId = rt.teamId ∧ submission.userId = rt.userId ∧
      submission.puzzleId = rt.puzzleId then
    solveBackendPuzzle cfg t rt.teamId rt.userId rt.puzzleId submission.id
  else throw "submission does not match current runtime"

/-- The host of a hint function. -/
def hintHost : HostCall cfg.doubles → Call HostReply
  | .kv at_ call => kvCall cfg rt (Tx.pool t .stmt) at_ call
  | .currencyQuery team checkTeam currency => do
    ensureCurrencyTeam cfg rt team (Tx.pool t .stmt) checkTeam
    currencyQuery cfg rt team (Tx.pool t .stmt) currency
  | .currencyCost team checkTeam currency amount reason => do
    ensureCurrencyTeam cfg rt team (Tx.pool t .stmt) checkTeam
    let paid ← ownTx t (costCurrencyRef cfg rt t team currency amount reason)
    return .paid paid
  | .currencyAdd team checkTeam currency amount reason => do
    ensureCurrencyTeam cfg rt team (Tx.pool t .stmt) checkTeam
    let added ← ownTx t (addCurrencyRef cfg rt t team currency amount reason)
    return .added added
  | .currencyUpdate team checkTeam currency options reason => do
    ensureCurrencyTeam cfg rt team (Tx.pool t .stmt) checkTeam
    let row ← ownTx t (updateCurrencyRef cfg rt t team currency options reason)
    return .currency row
  | .submissionAdd data id => do
    let row ← addBackendSubmission cfg rt t normalize data id
    return .submission row
  | .puzzleSolve submission => do
    let solved ← solveBackendPuzzleWithSubmission cfg rt t submission
    return .solved solved
  | .interrupted e => Tx.pool t .stmt fun _ _ => .error e

/-- `execute_hint_purchase`. -/
def executeHintPurchase (program : HostProgram cfg.doubles Unit) : Call Unit :=
  program.run (hintHost cfg rt t normalize)

end Hint

end Play
