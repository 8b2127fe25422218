import RbphBackend.Concurrency.Transaction
import RbphBackend.Database.Schema
import RbphBackend.Games.Settings

set_option relaxedAutoImplicit false
set_option autoImplicit false

/-!
# The store of the teams

The rows that the calls about games and teams read and write. A user has one membership in a game at
most: the memberships are kept by game and user, which is the unique key of their table.

## Main definitions

* `Teams.Key`, `Teams.Val` — the rows.
* `Teams.Config` — the rows no call writes.
* `Teams.memberOf`, `Teams.membersOf` — the members of a team.
* `Teams.Label`, `Teams.Record`, `Teams.Call`, `Teams.Statement` — the programs.
-/

namespace Teams

open Concurrency ReadCommitted Games

abbrev Id := ℕ

/-! ## Rows -/

/-- A row of `rb_game`. -/
structure Game where
  title : String
  cover : Option String
  isListed : Bool
  isActive : Bool
  settings : Value
  ctimeAt : ℤ

/-- A row of `rb_team`. -/
structure Team where
  name : String
  pass : String
  bio : String
  gameId : Id
  isBanned : Bool
  isLocked : Bool
  isBeta : Bool
  deriving DecidableEq

/-- A row of `rb_team_member`. -/
structure Member where
  teamId : Id
  isCaptain : Bool
  ctimeAt : ℤ
  deriving DecidableEq

/-- The rows of the store. A `gameFeature` row holds the state of a feature, by its type. -/
inductive Key where
  | game (game : Id)
  | gameFeature (game featureType : Id)
  | team (team : Id)
  | member (game user : Id)
  deriving DecidableEq

/-- What a row holds. -/
abbrev Val : Key → Type
  | .game _ => Option Game
  | .gameFeature .. => Option ℤ
  | .team _ => Option Team
  | .member .. => Option Member

/-- What a statement sees. -/
abbrev View := (k : Key) → Val k

/-! ## What no call writes -/

/-- A puzzle, as far as it is given to new teams. -/
structure Puzzle where
  id : Id
  gameId : Id
  hasUnlockCond : Bool
  deriving DecidableEq

/-- The users there are, the puzzles, the ids of the teams there are or may come to be, the function
that names are compared by, and what the refresh of the hints of a new team returns. -/
structure Config where
  userIds : List Id
  puzzles : List Puzzle
  teamIds : List Id
  /-- `LOWER(BTRIM(name))`. -/
  normalized : String → String
  refreshTeamHintEnablements : View → Id → Except String Unit

/-! ## Members -/

/-- The row with a team and a user, which is in the game of the team. -/
def memberOf (v : View) (teamId user : Id) : Option Member :=
  (v (.team teamId)).bind fun team =>
    (v (.member team.gameId user)).filter fun m => decide (m.teamId = teamId)

/-- The rows with a team, with their users. -/
def membersOf (cfg : Config) (v : View) (teamId : Id) : List (Id × Member) :=
  cfg.userIds.filterMap fun user => (memberOf v teamId user).map (Prod.mk user)

/-! ## Records -/

/-- The data of an event. -/
inductive TeamEventData where
  | empty
  | created (team : Id) (name : String)
  | disbanded (team : Id)
  | updated (name pass bio : Bool)
  deriving DecidableEq

/-- A record of `rb_event_log`. -/
structure EventLogInput where
  eventType : String
  eventScope : Database.EventScope := .teamActivity
  severity : Database.EventSeverity := .info
  gameId : Option Id := none
  teamId : Option Id := none
  userId : Option Id := none
  targetUserId : Option Id := none
  data : TeamEventData := .empty
  deriving DecidableEq

/-- What the calls insert and never read: events, the puzzles of a new team, and the marks of the
leaderboard. -/
inductive Record where
  | event (event : EventLogInput)
  | teamPuzzle (team puzzle : Id)
  | dirtyTeam (team : Id) (affectsOrder : Bool)
  | dirtyGame (game : Id)
  deriving DecidableEq

/-! ## Calls -/

/-- The actions of a call. `leaving` takes a user out of a team; `joining` and `removing` begin and
end the transactions of a new member and of a removal by the staff; `promoting` makes a user captain
of the members there were when the statement began; and `settling` stores settings that were made of
those read before. -/
inductive Label where
  | stmt
  | leaving (team user : Id)
  | joining (team : Id)
  | removing (team user : Id)
  | promoting (team user : Id) (members : List Id)
  | settling (game : Id) (read : Option Value)

/-- The store. -/
abbrev Store := Db Val Record

/-- A commit of a call. -/
abbrev TeamCommit := Commit Val Record

/-- The program of a call. -/
abbrev Call (α : Type) := Tx Label Val Record α

/-- A statement. -/
abbrev Statement (α : Type) := Stmt Val Record α

/-- No row exists. -/
def noRows : View
  | .game _ | .gameFeature .. | .team _ | .member .. => none

/-- A row a statement only locks. -/
def lockRow (v : View) (k : Key) : Σ k, Val k := ⟨k, v k⟩

/-- `event_log::insert_conn` and `event_log::insert_pool`, with the foreign key of the team. -/
def insertEvent (event : EventLogInput) : Statement Unit := fun v _ =>
  if event.teamId.any fun teamId => (v (.team teamId)).isNone then
    .error "rb_event_log_team_id_fkey"
  else .ok { val := (), inserts := [.event event] }

end Teams
