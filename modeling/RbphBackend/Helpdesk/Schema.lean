import RbphBackend.Concurrency.Transaction
import RbphBackend.Database.Schema
import RbphBackend.Threads.Desk

set_option relaxedAutoImplicit false
set_option autoImplicit false

/-!
# The store of the tickets

The rows that the calls about tickets read and write. The messages of a ticket are one row, in the
order of their insertion, and so are its operations: whoever adds to them holds the ticket locked,
or has just inserted it.

## Main definitions

* `Helpdesk.Key`, `Helpdesk.Val` — the rows.
* `Helpdesk.Config` — the rows no call writes.
* `Helpdesk.Label`, `Helpdesk.Record`, `Helpdesk.Call`, `Helpdesk.Statement` — the programs.
-/

namespace Helpdesk

open Concurrency ReadCommitted Numeric Threads

abbrev Id := ℕ

/-! ## Rows -/

/-- A row of `rb_team`. -/
structure Team where
  gameId : Id
  deriving DecidableEq

/-- A row of `rb_team_puzzle`. -/
structure TeamPuzzle where
  state : ℤ
  ctimeAt : ℤ
  deriving DecidableEq

/-- A row of `rb_ticket`. -/
structure Ticket where
  state : ℤ
  teamId : Id
  puzzleId : Option Id
  assignee : Option Id
  deriving DecidableEq

/-- A row of `rb_message`. -/
structure Message where
  id : Id
  content : String
  contentType : ℤ
  sender : Id
  senderType : ℤ
  costId : Option Id
  costAmount : BigInt
  unlocked : Bool
  unlockAt : Option ℤ
  unlockAfterSeconds : ℤ
  ctimeAt : ℤ
  utimeAt : Option ℤ
  deriving DecidableEq

/-- A row of `rb_ticket_operation`. -/
structure Operation where
  action : ℤ
  actor : Id
  actorType : ℤ
  messageId : Option Id
  ctimeAt : ℤ
  deriving DecidableEq

/-- The rows of the store. A `teamMember` row says whether the user is a member; a `gameFeature` row
holds the state of a feature and a `teamFeature` row whether it is enabled, by its type; a
`teamCurrency` row whether the currency is hidden. -/
inductive Key where
  | team (team : Id)
  | user (user : Id)
  | teamMember (team user : Id)
  | teamPuzzle (team puzzle : Id)
  | gameFeature (game featureType : Id)
  | teamFeature (team featureType : Id)
  | teamCurrency (team currency : Id)
  | ticket (ticket : Id)
  | messages (ticket : Id)
  | operations (ticket : Id)
  deriving DecidableEq

/-- What a row holds. -/
abbrev Val : Key → Type
  | .team _ => Option Team
  | .user _ => Option UserRow
  | .teamMember .. => Bool
  | .teamPuzzle .. => Option TeamPuzzle
  | .gameFeature .. => Option ℤ
  | .teamFeature .. => Option Bool
  | .teamCurrency .. => Option Bool
  | .ticket _ => Option Ticket
  | .messages _ => List Message
  | .operations _ => List Operation

/-- What a statement sees. -/
abbrev View := (k : Key) → Val k

/-! ## What no call writes -/

/-- A row of `rb_round`. -/
structure Round where
  id : Id
  gameId : Id
  slug : Option String
  title : String

/-- A row of `rb_puzzle`. Instants are in microseconds. -/
structure Puzzle where
  id : Id
  gameId : Id
  roundId : Id
  slug : Option String
  title : String
  immediateReleaseAt : Option ℤ
  releasePhaseId : Option Id
  ticketEnabled : Bool
  ticketCooldown : ℤ

/-- The rows no call writes, the ids of the tickets there are or may come to be, the address of an
avatar, and `get_ticket_thread` of the first page, by the rows it reads. -/
structure Config where
  rounds : List Round
  puzzles : List Puzzle
  /-- The instants of the release phases. -/
  phase : Id → Option ℤ
  /-- The games of the currencies. -/
  currencyGame : Id → Option Id
  ticketIds : List Id
  avatarUrl : String → ℤ → String
  ticketThread : View → ℤ → Id → TicketUserInfo → Option TicketThread

namespace Config

variable (cfg : Config)

/-- The puzzle with an id. -/
def puzzle (puzzleId : Id) : Option Puzzle := cfg.puzzles.find? (·.id = puzzleId)

/-- The round with an id. -/
def round (roundId : Id) : Option Round := cfg.rounds.find? (·.id = roundId)

/-- `rb_puzzle_effective_release`. -/
def effectiveRelease (p : Puzzle) : Option ℤ :=
  p.immediateReleaseAt.or (p.releasePhaseId.bind cfg.phase)

end Config

/-! ## Records -/

/-- The data of an event about a ticket. -/
structure TicketEventData where
  staff : Option Bool := none
  ticketId : Id
  puzzleId : Option Id
  puzzleTitle : Option String
  deriving DecidableEq

/-- A record of `rb_event_log`. -/
structure EventLogInput where
  eventType : String
  eventScope : Database.EventScope := .teamActivity
  severity : Database.EventSeverity := .info
  gameId : Option Id
  teamId : Option Id
  userId : Option Id
  puzzleId : Option Id
  roundId : Option Id
  ticketId : Option Id
  data : TicketEventData
  deriving DecidableEq

/-- What the calls insert and never read: events, and notifications of replies. -/
inductive Record where
  | event (event : EventLogInput)
  | ticketReply (teamId sourceId actor ticketId : Id) (puzzleId : Option Id)
      (puzzleTitle : Option String)
  deriving DecidableEq

/-! ## Calls -/

/-- The actions of a call; `lockForSend` locks the ticket that a message is sent to, and says
whether a closed ticket was refused to its sender before. -/
inductive Label where
  | stmt
  | lockForSend (ticket : Id) (refusesClosed : Bool)
  deriving DecidableEq

/-- The store. -/
abbrev Store := Db Val Record

/-- A commit of a call. -/
abbrev TicketCommit := Commit Val Record

/-- The program of a call. -/
abbrev Call (α : Type) := Tx Label Val Record α

/-- A statement. -/
abbrev Statement (α : Type) := Stmt Val Record α

/-- No row exists. -/
def noRows : View
  | .teamMember .. => false
  | .messages _ | .operations _ => []
  | .team _ | .user _ | .teamPuzzle .. | .gameFeature .. | .teamFeature .. | .teamCurrency ..
  | .ticket _ => none

/-- A row a statement only locks. -/
def lockRow (v : View) (k : Key) : Σ k, Val k := ⟨k, v k⟩

/-- `event_log::insert_conn`. -/
def insertEvent (event : EventLogInput) : Statement Unit :=
  fun _ _ => .ok { val := (), inserts := [.event event] }

end Helpdesk
