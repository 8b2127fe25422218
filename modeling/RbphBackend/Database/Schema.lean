import RbphBackend.Backend.KeyValue
import RbphBackend.Concurrency.Transaction
import RbphBackend.Currency.Operations

set_option relaxedAutoImplicit false
set_option autoImplicit false

/-!
# The tables

The tables the modelled calls write, as a store with one key for each row that may exist, and the
event log as the log records of a commit. A row that does not exist is `none`. What no modelled
call writes (the game's content, users) is a parameter of the calls, `Database.Content`.

## Main definitions

* `Database.Key`, `Database.Val` — the rows.
* `Database.Content` — the rows no modelled call writes.
* `Database.EventLogInput` — the records of `rb_event_log`.
* `Database.Label` — the actions a condition on a run may speak of.
* `Database.Store`, `Database.Call` — the store and the programs of the calls.
-/

namespace Database

open Concurrency ReadCommitted Numeric Currency

abbrev Id := ℕ

/-! ## Rows -/

/-- A row of `rb_team`; instants are in microseconds. -/
structure Team where
  gameId : Id
  name : String
  isBanned : Bool
  isLocked : Bool
  startAt : Option ℤ
  finishAt : Option ℤ
  contentBlocksDirty : Bool
  deriving DecidableEq

/-- A row of `rb_team_puzzle`. -/
structure TeamPuzzle where
  state : ℤ
  maxSubmit : ℤ
  ctimeAt : ℤ
  solveAt : Option ℤ
  cooldownTill : Option ℤ
  deriving DecidableEq

/-- Where a row of `rb_team_puzzle_trigger` comes from. -/
structure TriggerSource where
  submissionId : Option Id
  hintId : Option Id
  deriving DecidableEq

/-- A row of `rb_team_hint_visibility`. -/
structure HintVisibility where
  displayedAt : Option ℤ
  titleDisplayedAt : Option ℤ
  deriving DecidableEq

/-- A row of `rb_submission`, without its team and puzzle. -/
structure Submission where
  id : Id
  userId : Id
  userAnswer : String
  normAnswer : String
  saction : ℤ
  sresult : Option String
  realAnswer : Option String
  ignored : Bool
  ctimeAt : ℤ
  deriving DecidableEq

/-- A row of `rb_leaderboard_dirty_team` of the main board. -/
structure LeaderboardDirtyTeam where
  revision : ℕ
  affectsOrder : Bool
  deriving DecidableEq

/-- A row of `rb_ticket`. -/
structure Ticket where
  state : ℤ
  teamId : Id
  puzzleId : Option Id
  deriving DecidableEq

/-- A row of `rb_message`. -/
structure Message where
  ticketId : Id
  sender : Id
  senderType : ℤ
  content : String
  contentType : ℤ
  costId : Option Id
  costAmount : BigInt
  unlocked : Bool
  unlockAt : Option ℤ
  unlockAfterSeconds : ℤ
  ctimeAt : ℤ
  utimeAt : Option ℤ
  deriving DecidableEq

/-- The rows of the store. `teamMember` is keyed by its unique constraint on user and game;
`feature` is the currency feature of a game. The submissions of a team to a puzzle are one row, so a
submission that a backend function adds waits for a call that has submitted an answer to end.
`leaderboardDirtyRevision` is the sequence `rb_leaderboard_dirty_revision_seq`. -/
inductive Key where
  | team (team : Id)
  | teamMember (user game : Id)
  | teamPuzzle (team puzzle : Id)
  | submissions (team puzzle : Id)
  | trigger (team puzzle : Id) (key : String)
  | contentBlockUnlock (team contentBlock : Id)
  | leaderboardDirty (team : Id)
  | leaderboardDirtyRevision
  | teamHint (team hint : Id)
  | hintEnable (team hint : Id)
  | hintVisibility (team hint : Id)
  | currency (currency : Id)
  | teamCurrency (team currency : Id)
  | feature (game : Id)
  | ticket (ticket : Id)
  | message (message : Id)
  | kv (key : Backend.KvKey)
  deriving DecidableEq

/-- What a row holds. A member row holds its team; a `rb_team_hint` row whether it is unlocked;
a `rb_team_hint_enable` row and a `rb_team_content_block_unlock` row the instant. -/
abbrev Val : Key → Type
  | .team _ => Option Team
  | .teamMember .. => Option Id
  | .teamPuzzle .. => Option TeamPuzzle
  | .submissions .. => List Submission
  | .trigger .. => Option TriggerSource
  | .contentBlockUnlock .. => Option ℤ
  | .leaderboardDirty _ => Option LeaderboardDirtyTeam
  | .leaderboardDirtyRevision => ℕ
  | .teamHint .. => Option Bool
  | .hintEnable .. => Option ℤ
  | .hintVisibility .. => Option HintVisibility
  | .currency currency => Option {c : CurrencyRow // c.id = currency}
  | .teamCurrency .. => Option TeamCurrencyRow
  | .feature _ => Option GameFeature
  | .ticket _ => Option Ticket
  | .message _ => Option Message
  | .kv _ => Option Backend.KvRow

/-! ## What no call writes -/

/-- A row of `rb_puzzle`. -/
structure Puzzle where
  gameId : Id
  roundId : Id
  title : String
  deriving DecidableEq

/-- The users, by their nicknames, and the puzzles. -/
structure Content where
  user : Id → Option String
  puzzle : Id → Option Puzzle

/-! ## The event log -/

inductive EventScope where
  | teamActivity
  | system
  | admin
  | security
  deriving DecidableEq

inductive EventSeverity where
  | info
  | warning
  | error
  deriving DecidableEq

/-- The currency part of an event's data. -/
structure CurrencyEventData where
  id : Id
  slug : String
  name : String
  prec : ℤ
  before : BigInt
  after : BigInt
  deriving DecidableEq

/-- The change of the balance, as `i64` arithmetic gives it. -/
def CurrencyEventData.delta (data : CurrencyEventData) : BigInt :=
  data.after.wrappingSub data.before

/-- What a wrong answer cost. -/
structure CurrencyPenaltyShowData where
  currencyId : Id
  name : String
  prec : ℤ
  amount : BigInt
  deriving DecidableEq

/-- The data of an event, by the shape of its document. `consequences` is what is added to the data
of a judged submission once its penalties are known. -/
inductive EventData where
  | judged (submissionId : Id) (answer normAnswer : String) (action : ℤ) (result : Option String)
      (ignored : Bool) (puzzleId : Id) (puzzleTitle : String)
  | consequences (cooldownSeconds : Option ℤ) (currencyPenalty : List CurrencyPenaltyShowData)
  | submission (puzzleId : Id) (puzzleTitle : String) (submissionId : Id) (answer : Option String)
  | penalty (currency : CurrencyEventData) (delta : BigInt) (submissionId puzzleId : Id)
      (puzzleTitle : String)
  | currency (data : CurrencyEventData) (reason : Option String) (puzzleId : Option Id)
      (puzzleTitle : Option String)
  | hintPurchased (hintId : Id) (hintTitle : String) (costId : Option Id) (costAmount : BigInt)
      (puzzleId : Id) (puzzleTitle : String) (currency : Option CurrencyEventData)
  | ticketMessagePurchased (staff : Bool) (ticketId messageId : Id) (puzzleId : Option Id)
      (puzzleTitle : Option String) (costId : Option Id) (costAmount : BigInt)
      (currency : Option CurrencyEventData)
  | puzzle (puzzleId : Id) (puzzleTitle : String)
  | team (teamId : Id)
  deriving DecidableEq

/-- A record of `rb_event_log`. -/
structure EventLogInput where
  eventType : String
  eventScope : EventScope := .teamActivity
  severity : EventSeverity := .info
  gameId : Option Id := none
  teamId : Option Id := none
  userId : Option Id := none
  puzzleId : Option Id := none
  roundId : Option Id := none
  hintId : Option Id := none
  ticketId : Option Id := none
  submissionId : Option Id := none
  currencyId : Option Id := none
  deltaAmount : Option BigInt := none
  data : EventData
  deriving DecidableEq

/-! ## Calls -/

/-- The actions of a call. The statements a condition on a run speaks of are named. -/
inductive Label where
  | stmt
  | solveBackend (team puzzle submission : Id)
  | unlockHint (team hint : Id)
  | lockRuntime (team currency : Id)
  | chargeHint (team hint : Id) (cost : Option (Id × BigInt))
  | chargeTicketMessage (team message : Id)
  | deleteTeam (team : Id)
  deriving DecidableEq

/-- What a statement sees. -/
abbrev View := (k : Key) → Val k

/-- The store. -/
abbrev Store := Db Val EventLogInput

/-- The program of a call. -/
abbrev Call (α : Type) := Tx Label Val EventLogInput α

/-- A statement. -/
abbrev Statement (α : Type) := Stmt Val EventLogInput α

/-- No row exists. -/
def noRows : View
  | .submissions .. => []
  | .leaderboardDirtyRevision => 1
  | .team _ | .teamMember .. | .teamPuzzle .. | .trigger .. | .contentBlockUnlock ..
  | .leaderboardDirty _ | .teamHint .. | .hintEnable .. | .hintVisibility .. | .currency _
  | .teamCurrency .. | .feature _ | .ticket _ | .message _ | .kv _ => none

/-- A row a statement only locks. -/
def lockRow (v : View) (k : Key) : Σ k, Val k := ⟨k, v k⟩

/-- `event_log::insert_conn` and `insert_pool`. -/
def insertEvent (event : EventLogInput) : Statement Unit :=
  fun _ _ => .ok { val := (), inserts := [event] }

end Database
