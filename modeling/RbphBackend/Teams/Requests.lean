import RbphBackend.Teams.Calls

set_option relaxedAutoImplicit false
set_option autoImplicit false

/-!
# Requests about one's own team

Before the handler of such a request runs, the middleware reads the team of the user in the game and,
but for leaving, whether the user is a captain.

## Main definitions

* `Teams.selfRequest` — the requests.
* `Teams.TeamCall` — the calls a pool may make.
-/

namespace Teams

open Concurrency ReadCommitted Games

/-! ## The requests -/

/-- What a member asks for. -/
inductive SelfAction where
  | leave
  | disband
  | promote (target : Id)
  | kick (target : Id)
  deriving DecidableEq

/-- A request: the game of its path, the user, and the role the session was checked to have. -/
structure SelfRequest where
  gameId : Id
  userId : Id
  role : ℤ
  action : SelfAction

/-- How a request ends. -/
inductive SelfOutcome where
  | notFound
  | forbidden
  | targetSelf
  | bad
  | ok
  deriving DecidableEq

/-- `RbUserRole::is_admin`. -/
def isAdmin (role : ℤ) : Bool := decide (role = 3 ∨ role = 4)

section Requests

variable (cfg : Config) (t : Tid)

/-- `get_game_user_info`: the team of the user, where the user has access to the game. -/
def getGameUserInfo (gameId userId : Id) (role : ℤ) : Statement (Option (Option Id)) :=
  .read fun v _ => .ok <|
    match v (.game gameId) with
    | none => none
    | some game =>
      let teamId := (v (.member gameId userId)).map Member.teamId
      let isBeta := (teamId.bind fun teamId => v (.team teamId)).any Team.isBeta
      if game.isActive || isAdmin role || isBeta then some teamId else none

/-- `is_leader_in_game`. -/
def isLeaderInGame (gameId userId : Id) : Statement Bool :=
  .read fun v _ => .ok ((v (.member gameId userId)).any Member.isCaptain)

def outcome (done : Bool) : SelfOutcome := if done then .ok else .bad

/-- `leave_self`. -/
def leaveSelf (teamId : Option Id) (userId : Id) : Call SelfOutcome :=
  match teamId with
  | none => return .bad
  | some teamId => do
    let done ← leave t teamId userId
    return outcome done

/-- `disband_self`. -/
def disbandSelf (teamId : Option Id) : Call SelfOutcome :=
  match teamId with
  | none => return .notFound
  | some teamId => do
    let done ← disband cfg t teamId
    return outcome done

/-- `promote_self`. -/
def promoteSelf (teamId : Option Id) (userId target : Id) : Call SelfOutcome :=
  if target = userId then return .targetSelf
  else
    match teamId with
    | none => return .notFound
    | some teamId => do
      let done ← promoteMember cfg t teamId target
      return outcome done

/-- `kick_self`. -/
def kickSelf (teamId : Option Id) (userId target : Id) : Call SelfOutcome :=
  if target = userId then return .targetSelf
  else
    match teamId with
    | none => return .notFound
    | some teamId => do
      let done ← kickMember t teamId target
      return outcome done

/-- `check_leader_middleware` before a handler. -/
def asLeader (gameId userId : Id) (handler : Call SelfOutcome) : Call SelfOutcome := do
  match ← Tx.pool t .stmt (isLeaderInGame gameId userId) with
  | true => handler
  | false => return .forbidden

/-- A request with `check_game_middleware` before it. -/
def selfRequest (req : SelfRequest) : Call SelfOutcome := do
  match ← Tx.pool t .stmt (getGameUserInfo req.gameId req.userId req.role) with
  | none => return .notFound
  | some teamId =>
    match req.action with
    | .leave => leaveSelf t teamId req.userId
    | .disband => asLeader t req.gameId req.userId (disbandSelf cfg t teamId)
    | .promote target =>
      asLeader t req.gameId req.userId (promoteSelf cfg t teamId req.userId target)
    | .kick target => asLeader t req.gameId req.userId (kickSelf t teamId req.userId target)

end Requests

/-! ## The calls of a pool -/

/-- A call about games and teams. -/
inductive TeamCall where
  | updateGame (game : Id) (data : RbGameUpdateData)
  | join (team user : Id) (password : String)
  | userCreate (user team : Id) (data : RbTeamPutData)
  | userUpdate (game user : Id) (data : UserUpdateData)
  | leave (team user : Id)
  | kick (team user : Id)
  | promote (team user : Id)
  | disband (team : Id)
  | adminRemove (game team user : Id)
  | adminPromote (game team user : Id)
  | self (req : SelfRequest)

/-- What a call answers. -/
inductive TeamAnswer where
  | game (game : Option RbGame)
  | joined (answer : JoinAnswer)
  | created (result : TeamCreateResult)
  | updated (result : UserUpdateResult)
  | done (done : Bool)
  | admin (result : AdminMemberResult)
  | self (outcome : SelfOutcome)

/-- What a call answers, from what its function returns. -/
def answered {α : Type} (f : α → TeamAnswer) (p : Call α) : Call TeamAnswer := do
  let a ← p
  return f a

/-- The program of a call. -/
def TeamCall.run (cfg : Config) (t : Tid) : TeamCall → Call TeamAnswer
  | .updateGame game data => answered .game (Teams.updateGame t game data)
  | .join team user password => answered .joined (Teams.join cfg t team user password)
  | .userCreate user team data => answered .created (Teams.userCreate cfg t user team data)
  | .userUpdate game user data => answered .updated (Teams.userUpdate cfg t game user data)
  | .leave team user => answered .done (Teams.leave t team user)
  | .kick team user => answered .done (kickMember t team user)
  | .promote team user => answered .done (promoteMember cfg t team user)
  | .disband team => answered .done (Teams.disband cfg t team)
  | .adminRemove game team user => answered .admin (adminRemoveMember cfg t team user game)
  | .adminPromote game team user => answered .admin (adminPromoteMember cfg t team user game)
  | .self req => answered .self (selfRequest cfg t req)

end Teams
