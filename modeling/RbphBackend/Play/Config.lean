import RbphBackend.Currency.Charge
import RbphBackend.Currency.Transactions
import RbphBackend.Expr.Compiler
import RbphBackend.Gate.States
import RbphBackend.Release.Tables

set_option relaxedAutoImplicit false
set_option autoImplicit false

/-!
# What a running game is configured with

The rows that no call of a player writes, and the functions of the puzzle backends. A backend
function runs in an engine of its own and touches the database through host calls only, so it is a
tree of host calls: what it does next may depend on every reply, and a reply may be an error.

## Main definitions

* `Play.RbJudgeAction`, `Play.JudgeRule`, `Play.PenaltyRule`, `Play.PuzzleSubmitRequirement` — what
  the documents of a puzzle hold.
* `Play.HostCall`, `Play.HostProgram` — host calls and backend functions.
* `Play.Config` — the configuration.
* `Play.Config.effectiveRelease` — the view `rb_puzzle_effective_release`.
-/

namespace Play

open Concurrency ReadCommitted Numeric Database Currency
open Release (RoundRow PuzzleRow ReleasePhase)

/-! ## Documents -/

inductive RbJudgeAction where
  | error
  | pending
  | fail
  | correct
  | milestone
  | startGame
  | easterEgg
  | finishGame
  | invalid
  deriving DecidableEq

namespace RbJudgeAction

/-- `i16::from`. -/
def code : RbJudgeAction → ℤ
  | error => -2
  | pending => -1
  | fail => 0
  | correct => 1
  | milestone => 2
  | startGame => 3
  | easterEgg => 4
  | finishGame => 5
  | invalid => 6

/-- `From<Option<String>>`. -/
def ofName : Option String → RbJudgeAction
  | some "fail" => fail
  | some "correct" => correct
  | some "milestone" => milestone
  | some "start_game" => startGame
  | some "easter_egg" => easterEgg
  | some "finish_game" => finishGame
  | _ => error

/-- `side_effect`. -/
def sideEffect : RbJudgeAction → Bool
  | correct | startGame | finishGame => true
  | _ => false

end RbJudgeAction

/-- A rule of the document `judge`. -/
structure JudgeRule where
  rtype : Option String
  text : Option String
  action : Option String
  result : Option String
  answer : Option String
  function : Option String
  triggers : List String
  deriving DecidableEq

structure JudgeResult where
  action : RbJudgeAction
  result : Option String
  answer : Option String
  ignored : Bool
  triggers : List String
  deriving DecidableEq

/-- What a judge function returns. -/
structure JudgeBackendOutput where
  action : Option RbJudgeAction
  result : Option String
  answer : Option String
  ignored : Option Bool
  triggers : List String
  deriving DecidableEq

/-- `From<JudgeBackendOutput>`. -/
def JudgeBackendOutput.toResult (output : JudgeBackendOutput) : JudgeResult where
  action := output.action.getD .fail
  result := output.result
  answer := output.answer
  ignored := output.ignored.getD false
  triggers := output.triggers

inductive RbPuzzlePenaltyType where
  | no
  | fixedTime
  | linearTime
  | currency
  deriving DecidableEq

/-- A rule of the document `penalty`. -/
structure PenaltyRule where
  rtype : RbPuzzlePenaltyType
  args : List BigInt
  deriving DecidableEq

/-- An entry of the document `submit_requirements`. -/
inductive PuzzleSubmitRequirement where
  | currencyMinimum (currencyId : Id) (minimum : BigInt)
  deriving DecidableEq

/-! ## Backend functions -/

structure BackendSubmissionInput where
  userAnswer : String
  normAnswer : Option String
  action : RbJudgeAction
  result : Option String
  realAnswer : Option String
  ignored : Bool
  deriving DecidableEq

structure BackendSubmissionShowData extends Submission where
  teamId : Id
  puzzleId : Id
  deriving DecidableEq

inductive HostCurrencyRef where
  | id (currencyId : Id)
  | slug (slug : String)
  deriving DecidableEq

/-- The host calls that touch the tables; `submissionAdd` carries the id the sequence gives to the
new row. `interrupted` is a statement on any table that fails or runs out of time. -/
inductive HostCall (D : Backend.Doubles) where
  | kv (at_ : Backend.Instants) (call : Backend.KvCall D)
  | currencyQuery (teamId : Id) (checkTeam : Bool) (currency : Option HostCurrencyRef)
  | currencyCost (teamId : Id) (checkTeam : Bool) (currency : HostCurrencyRef) (amount : BigInt)
      (reason : Option String)
  | currencyAdd (teamId : Id) (checkTeam : Bool) (currency : HostCurrencyRef) (amount : BigInt)
      (reason : Option String)
  | currencyUpdate (teamId : Id) (checkTeam : Bool) (currency : HostCurrencyRef)
      (options : UpdateCurrencyOptions) (reason : Option String)
  | submissionAdd (submission : BackendSubmissionInput) (id : Id)
  | puzzleSolve (submission : BackendSubmissionShowData)
  | interrupted (error : String)

/-- What a host call replies. -/
inductive HostReply where
  | kv (reply : Backend.KvReply)
  | currency (row : Option RbCurrencyShowData)
  | currencies (rows : List RbCurrencyShowData)
  | paid (paid : Bool)
  | added (amount : Option BigInt)
  | submission (row : BackendSubmissionShowData)
  | solved (solved : Bool)

/-- A backend function: it ends, or it makes a host call and goes on with the reply. -/
inductive HostProgram (D : Backend.Doubles) (α : Type) where
  | done (result : Except String α)
  | call (c : HostCall D) (k : Except String HostReply → HostProgram D α)

structure RuntimeContext where
  gameId : Id
  puzzleId : Id
  teamId : Id
  userId : Id
  puzzleTitle : String
  userNickname : String
  teamName : String
  deriving DecidableEq

structure JudgeRuntimeContext where
  runtime : RuntimeContext
  userAnswer : String
  normAnswer : String
  submission : BackendSubmissionShowData
  deriving DecidableEq

structure HintPurchaseRuntimeContext where
  runtime : RuntimeContext
  hintId : Id
  hintTitle : String
  costId : Option Id
  costAmount : BigInt
  currency : Option CurrencyEventData
  deriving DecidableEq

/-- A row of `rb_puzzle_backend`, with the functions its source exports. -/
structure PuzzleBackend (D : Backend.Doubles) where
  enabled : Bool
  exportEnabled : String → Bool
  judge : String → JudgeRuntimeContext → HostProgram D (Option JudgeBackendOutput)
  hintPurchase : String → HintPurchaseRuntimeContext → HostProgram D Unit

/-! ## The configuration -/

/-- A row of `rb_hint`. -/
structure Hint where
  id : Id
  title : String
  content : String
  contentType : ℤ
  cooldown : ℤ
  cooldownOrigin : ℤ
  costId : Option Id
  costAmount : BigInt
  backendFunction : Option String
  puzzleId : Id
  enableCond : Option String
  displayCondition : Option String
  titleDisplayCondition : Option String
  triggers : List String

/-- A row of `rb_content_block`. -/
structure ContentBlock where
  id : Id
  puzzleId : Option Id
  roundId : Option Id
  visibilityCond : Option String

/-- The rows no call of a player writes, the readers of the documents, `char::to_lowercase`, and
the ids of the tables a statement goes through as a whole. -/
structure Config where
  rounds : List RoundRow
  puzzles : List PuzzleRow
  phases : List ReleasePhase
  hints : List Hint
  contentBlocks : List ContentBlock
  user : Id → Option String
  doubles : Backend.Doubles
  backend : Id → Option (PuzzleBackend doubles)
  currencyIds : List Id
  ticketIds : List Id
  judgeRules : String → Except String (List JudgeRule)
  penaltyRules : String → Except String (List PenaltyRule)
  submitRequirements : String → Except String (List PuzzleSubmitRequirement)
  toLowercase : Char → List Char

namespace Config

variable (cfg : Config)

/-- The puzzle with an id. -/
def puzzle (puzzleId : Id) : Option PuzzleRow := cfg.puzzles.find? (·.id = puzzleId)

/-- The round with an id. -/
def round (roundId : Id) : Option RoundRow := cfg.rounds.find? (·.id = roundId)

/-- The hint with an id. -/
def hint (hintId : Id) : Option Hint := cfg.hints.find? (·.id = hintId)

/-- `rb_puzzle_effective_release`: the instant a puzzle is released, if it has one. -/
def effectiveRelease (puzzleId : Id) : Option ℤ :=
  (cfg.puzzle puzzleId).bind fun p =>
    p.immediateReleaseAt.or <| p.releasePhaseId.bind fun phase =>
      (cfg.phases.find? (·.id = phase)).map (·.releaseAt)

/-- `release.release_at <= NOW()`. -/
def released (puzzleId : Id) (now : ℤ) : Bool :=
  (cfg.effectiveRelease puzzleId).any fun releaseAt => decide (releaseAt ≤ now)

end Config

end Play
