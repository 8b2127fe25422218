import RbphBackend.Teams.Schema

set_option relaxedAutoImplicit false
set_option autoImplicit false

/-!
# The calls about teams

A team is created, and renamed, under the lock of its game, and joined under its own lock. Members
leave and are kicked by one statement; the staff removes them in a transaction that appoints a new
captain where the captain is removed. The settings of a game are read, merged with a patch and
stored.

## Main definitions

* `Teams.updateGame` — `game::update`.
* `Teams.join`, `Teams.userCreate`, `Teams.userUpdate`, `Teams.leave`, `Teams.disband`,
  `Teams.kickMember`, `Teams.promoteMember`, `Teams.adminRemoveMember`,
  `Teams.adminPromoteMember` — the calls.
-/

namespace Teams

open Concurrency ReadCommitted Games

/-! ## Settings of a game -/

/-- `RbGame`. -/
structure RbGame where
  id : Id
  title : String
  cover : Option String
  isListed : Bool
  isActive : Bool
  settings : RbGameSettings
  ctimeAt : ℤ

/-- `RbGameUpdateData`. -/
structure RbGameUpdateData where
  title : Option String := none
  cover : Option (Option String) := none
  isListed : Option Bool := none
  isActive : Option Bool := none
  settings : Option Value := none

/-- The row after the `UPDATE`. -/
def Game.updated (game : Game) (data : RbGameUpdateData) (settings : Option Value) : Game where
  title := data.title.getD game.title
  cover := data.cover.getD game.cover
  isListed := data.isListed.getD game.isListed
  isActive := data.isActive.getD game.isActive
  settings := settings.getD game.settings
  ctimeAt := game.ctimeAt

section Settings

variable (t : Tid) (gameId : Id)

/-- `SELECT settings FROM rb_game`. -/
def selectSettings : Statement (Option Value) :=
  .read fun v _ => .ok ((v (.game gameId)).map Game.settings)

/-- The `UPDATE` of a game. -/
def updateRow (data : RbGameUpdateData) (settings : Option Value) : Statement Bool := fun v _ =>
  match v (.game gameId) with
  | none => .ok { val := false }
  | some game => .ok {
      val := true
      puts := [⟨.game gameId, some (game.updated data settings)⟩] }

/-- `get_full_by_id`. -/
def getFullById : Statement (Option RbGame) :=
  .read fun v _ => .ok <| (v (.game gameId)).map fun game =>
    { id := gameId
      title := game.title
      cover := game.cover
      isListed := game.isListed
      isActive := game.isActive
      settings := .sanitize game.settings
      ctimeAt := game.ctimeAt }

/-- What is stored for a patch of the settings that have been read. -/
def patched (current patch : Value) : Value := sanitizeStorage (mergeSettingsPatch current patch)

/-- The transaction of `update`: whether there is such a game. -/
def updateBody (data : RbGameUpdateData) : Call (Bool × Bool) :=
  match data.settings with
  | none => do
    let updated ← Tx.query t .stmt (updateRow gameId data none)
    return (true, updated)
  | some patch => do
    match ← Tx.query t .stmt (selectSettings gameId) with
    | none => return (false, false)
    | some current =>
      let updated ← Tx.query t (.settling gameId (some current))
        (updateRow gameId data (some (patched current patch)))
      return (true, updated)

/-- `game::update`. -/
def updateGame (data : RbGameUpdateData) : Call (Option RbGame) := do
  match ← Tx.transaction t .stmt (updateBody t gameId data) with
  | true => Tx.pool t .stmt (getFullById gameId)
  | false => return none

/-- `get_team_max_members`. -/
def getTeamMaxMembers : Statement (Option (Option ℤ)) :=
  .read fun v _ => .ok <| (v (.game gameId)).map fun game =>
    (decodeTeamSettings ((game.settings.atPath ["team"]).getD .null)).maxMembers

end Settings

/-! ## Shared statements -/

section Shared

variable (cfg : Config) (t : Tid)

/-- The feature of teams is open in the game. -/
def teamOpen (v : View) (gameId : Id) : Bool :=
  (v (.gameFeature gameId 0)).all fun state => decide (state = 1)

/-- The `INSERT` of a member, with the keys of its table; the game is that of the team. Where the
user is in a team of the game already, it inserts nothing or fails. -/
def insertMember (teamId user : Id) (isCaptain doNothing : Bool) : Statement Bool := fun v now =>
  match v (.team teamId) with
  | none => .error "rb_team_member_game_id_not_null"
  | some team =>
    if user ∉ cfg.userIds then .error "rb_team_member_user_id_fkey"
    else
      match v (.member team.gameId user) with
      | some _ =>
        if doNothing then .ok { val := false } else .error "rb_team_member_user_id_game_id_key"
      | none => .ok {
          val := true
          puts := [⟨.member team.gameId user, some ⟨teamId, isCaptain, now⟩⟩] }

/-- `COUNT(*)` of the members. -/
def countMembers (teamId : Id) : Statement ℕ :=
  .read fun v _ => .ok (membersOf cfg v teamId).length

/-- The `DELETE` of a member of a team that is not locked. -/
def deleteMember (teamId user : Id) : Statement (Option Id) := fun v _ =>
  match v (.team teamId), memberOf v teamId user with
  | some team, some _ =>
    if team.isLocked then .ok { val := none }
    else .ok { val := some team.gameId, puts := [⟨.member team.gameId user, none⟩] }
  | _, _ => .ok { val := none }

/-- The team that a mark of the leaderboard is for. -/
def selectTarget (teamId : Id) : Statement Bool :=
  .read fun v _ => .ok (v (.team teamId)).isSome

/-- The mark, with the foreign key of the team. -/
def insertDirtyTeam (teamId : Id) : Statement Unit := fun v _ =>
  if (v (.team teamId)).isNone then .error "rb_leaderboard_dirty_team_team_id_fkey"
  else .ok { val := (), inserts := [.dirtyTeam teamId false] }

/-- `invalidate_team_info`: one statement that finds the team when it begins, and checks the foreign
key when it has inserted the mark. The notification is left out. -/
def invalidateTeamInfo (teamId : Id) : Call Unit := do
  match ← Tx.pool t .stmt (selectTarget teamId) with
  | true => Tx.pool t .stmt (insertDirtyTeam teamId)
  | false => return ()

/-- The mark of a whole game. -/
def insertDirtyGame (gameId : Id) : Statement Unit :=
  fun _ _ => .ok { val := (), inserts := [.dirtyGame gameId] }

end Shared

/-! ## Joining -/

inductive TeamJoinResult where
  | notFound
  | notOpen
  | wrongPwd
  | teamFull
  | banned
  | toMany
  | ok
  deriving DecidableEq

/-- What `join` returns, with the limit that it has read. -/
structure JoinAnswer where
  result : TeamJoinResult
  maxMembers : Option ℤ := none
  deriving DecidableEq

/-- What `join` reads of the team. -/
structure JoinVerify where
  isBanned : Bool
  pass : String
  gameId : Id
  teamOpen : Bool

section Join

variable (cfg : Config) (t : Tid) (teamId user : Id)

/-- The team; its row is locked. -/
def selectForJoin : Statement (Option JoinVerify) := fun v _ =>
  match v (.team teamId) with
  | none => .ok { val := none }
  | some team => .ok {
      val := some ⟨team.isBanned, team.pass, team.gameId, teamOpen v team.gameId⟩
      puts := [lockRow v (.team teamId)] }

def memberJoinedEvent (gameId : Id) : EventLogInput where
  eventType := "team.member.joined"
  gameId := some gameId
  teamId := some teamId
  userId := some user

/-- A team is full where it has as many members as the limit. -/
def teamFull (maxMembers : Option ℤ) : Call Bool :=
  match maxMembers with
  | none => return false
  | some maxMembers => do
    let memberCount ← Tx.query t .stmt (countMembers cfg teamId)
    return decide (maxMembers ≤ memberCount)

/-- The end of `join`: the user becomes a member. -/
def joinInsert (gameId : Id) (maxMembers : Option ℤ) : Call (Bool × JoinAnswer) := do
  match ← Tx.query t .stmt (insertMember cfg teamId user false false) with
  | true =>
    Tx.query t .stmt (insertEvent (memberJoinedEvent teamId user gameId))
    return (true, ⟨.ok, maxMembers⟩)
  | false => return (false, ⟨.toMany, maxMembers⟩)

/-- The checks of `join` once the team is locked. -/
def joinVerified (password : String) (verify : JoinVerify) : Call (Bool × JoinAnswer) :=
  if verify.teamOpen = false then return (false, ⟨.notOpen, none⟩)
  else if verify.isBanned = true then return (false, ⟨.banned, none⟩)
  else if verify.pass ≠ password then return (false, ⟨.wrongPwd, none⟩)
  else do
    match ← Tx.pool t .stmt (getTeamMaxMembers verify.gameId) with
    | none => throw "Game not found"
    | some maxMembers =>
      match ← teamFull cfg t teamId maxMembers with
      | true => return (false, ⟨.teamFull, maxMembers⟩)
      | false => joinInsert cfg t teamId user verify.gameId maxMembers

/-- The transaction of `join`. -/
def joinBody (password : String) : Call (Bool × JoinAnswer) := do
  match ← Tx.query t .stmt (selectForJoin teamId) with
  | none => return (false, ⟨.notFound, none⟩)
  | some verify => joinVerified cfg t teamId user password verify

/-- `join`. -/
def join (password : String) : Call JoinAnswer := do
  let answer ← Tx.transaction t (.joining teamId) (joinBody cfg t teamId user password)
  match answer.result with
  | .ok => do
    invalidateTeamInfo t teamId
    return answer
  | _ => return answer

end Join

/-! ## Creating and renaming -/

/-- `RbTeamPutData`. -/
structure RbTeamPutData where
  name : String
  pass : String
  bio : String
  gameId : Id

inductive TeamCreateResult where
  | notOpen
  | toMany
  | nameConflict
  | ok (team : Id)
  deriving DecidableEq

section Names

variable (cfg : Config) (t : Tid)

/-- `lock_duplicate_name_policy_conn`. -/
def lockDuplicateNamePolicy (gameId : Id) : Statement (Option Bool) := fun v _ =>
  match v (.game gameId) with
  | none => .ok { val := none }
  | some game => .ok {
      val := some (allowDuplicateNames game.settings)
      puts := [lockRow v (.game gameId)] }

/-- The team is another one of the game, of this name. -/
def hasName (gameId : Id) (name : String) (team : Team) : Bool :=
  decide (team.gameId = gameId ∧ cfg.normalized team.name = cfg.normalized name)

/-- `duplicate_team_name_exists_conn`. -/
def duplicateTeamNameExists (gameId : Id) (name : String) (excludeTeamId : Option Id) :
    Statement Bool :=
  .read fun v _ => .ok <| cfg.teamIds.any fun id =>
    (v (.team id)).any (hasName cfg gameId name) && excludeTeamId.all fun team => decide (id ≠ team)

/-- `normalized_team_names_equal_conn`. -/
def normalizedTeamNamesEqual (left right : String) : Statement Bool :=
  .read fun _ _ => .ok (decide (cfg.normalized left = cfg.normalized right))

end Names

section Create

variable (cfg : Config) (t : Tid) (user teamId : Id) (data : RbTeamPutData)

/-- Teams can be created in the game. -/
def selectTeamOpen : Statement Bool :=
  .read fun v _ => .ok ((v (.game data.gameId)).isSome && teamOpen v data.gameId)

/-- The `INSERT` of a team, with the keys of its table; `teamId` is what the sequence gives. -/
def insertTeam : Statement Unit := fun v _ =>
  if (v (.team teamId)).isSome then .error "rb_team_pkey"
  else if (v (.game data.gameId)).isNone then .error "rb_team_game_id_fkey"
  else .ok {
    val := ()
    puts := [⟨.team teamId,
      some ⟨data.name, data.pass, data.bio, data.gameId, false, false, false⟩⟩] }

/-- `init_team_puzzles_conn`. -/
def initTeamPuzzles : Statement Unit := fun _ _ =>
  let puzzles := cfg.puzzles.filter fun p => decide (p.gameId = data.gameId) && !p.hasUnlockCond
  .ok { val := (), inserts := puzzles.map fun p => .teamPuzzle teamId p.id }

def teamCreatedEvent : EventLogInput where
  eventType := "team.created"
  gameId := some data.gameId
  teamId := some teamId
  userId := some user
  data := .created teamId data.name

/-- The check of the name, where names must differ. -/
def nameConflict (allowed : Bool) (gameId : Id) (name : String) (excludeTeamId : Option Id) :
    Call Bool :=
  match allowed with
  | true => return false
  | false => Tx.query t .stmt (duplicateTeamNameExists cfg gameId name excludeTeamId)

/-- The writes of `user_create`. -/
def createTeam : Call (Bool × TeamCreateResult) := do
  Tx.query t .stmt (insertTeam teamId data)
  match ← Tx.query t .stmt (insertMember cfg teamId user true true) with
  | false => return (false, .toMany)
  | true =>
    Tx.query t .stmt (initTeamPuzzles cfg teamId data)
    Tx.query t .stmt (insertEvent (teamCreatedEvent user teamId data))
    return (true, .ok teamId)

/-- The transaction of `user_create`. -/
def createBody : Call (Bool × TeamCreateResult) := do
  match ← Tx.query t .stmt (lockDuplicateNamePolicy data.gameId) with
  | none => return (false, .notOpen)
  | some allowed =>
    match ← Tx.query t .stmt (selectTeamOpen data) with
    | false => return (false, .notOpen)
    | true =>
      match ← nameConflict cfg t allowed data.gameId data.name none with
      | true => return (false, .nameConflict)
      | false => createTeam cfg t user teamId data

/-- `refresh_team_hint_enablements` of the new team. -/
def refreshHints : Statement Unit := .read fun v _ => cfg.refreshTeamHintEnablements v teamId

/-- `user_create`. -/
def userCreate : Call TeamCreateResult := do
  match ← Tx.transaction t .stmt (createBody cfg t user teamId data) with
  | .ok teamId => do
    Tx.pool t .stmt (refreshHints cfg teamId)
    return .ok teamId
  | refused => return refused

end Create

/-- `UserUpdateData`. -/
structure UserUpdateData where
  name : Option String := none
  pass : Option String := none
  bio : Option String := none

inductive UserUpdateResult where
  | bad
  | nameConflict
  | ok
  deriving DecidableEq

section Update

variable (cfg : Config) (t : Tid) (gameId user : Id) (data : UserUpdateData)

/-- The team the user is captain of; its row is locked. -/
def selectCaptained : Statement (Option (Id × Team)) := fun v _ =>
  match v (.member gameId user) with
  | none => .ok { val := none }
  | some m =>
    match v (.team m.teamId) with
    | none => .ok { val := none }
    | some team =>
      if m.isCaptain then
        .ok { val := some (m.teamId, team), puts := [lockRow v (.team m.teamId)] }
      else .ok { val := none }

/-- The row after the `UPDATE`. -/
def Team.updated (team : Team) (data : UserUpdateData) : Team :=
  { team with
    name := data.name.getD team.name
    pass := data.pass.getD team.pass
    bio := data.bio.getD team.bio }

/-- The `UPDATE` of a team. -/
def updateTeam (teamId : Id) : Statement Bool := fun v _ =>
  match v (.team teamId) with
  | none => .ok { val := false }
  | some team => .ok {
      val := true
      puts := [⟨.team teamId, some (team.updated data)⟩] }

def teamUpdatedEvent (teamId : Id) : EventLogInput where
  eventType := "team.updated"
  gameId := some gameId
  teamId := some teamId
  userId := some user
  data := .updated data.name.isSome data.pass.isSome data.bio.isSome

/-- The writes of `user_update`; the team that has been updated. -/
def writeUpdate (teamId : Id) : Call (Bool × UserUpdateResult × Id) := do
  if data.name.isNone ∧ data.pass.isNone ∧ data.bio.isNone then return (false, .bad, teamId)
  else
    match ← Tx.query t .stmt (updateTeam data teamId) with
    | false => return (false, .bad, teamId)
    | true =>
      Tx.query t .stmt (insertEvent (teamUpdatedEvent gameId user data teamId))
      return (true, .ok, teamId)

/-- The checks of a new name. -/
def checkName (allowed : Bool) (teamId : Id) (current : Team) : Call (Option UserUpdateResult) :=
  match data.name with
  | none => return none
  | some name =>
    if current.isLocked then return some .bad
    else do
      match ← Tx.query t .stmt (normalizedTeamNamesEqual cfg current.name name) with
      | true => return none
      | false =>
        match ← nameConflict cfg t allowed gameId name (some teamId) with
        | true => return some .nameConflict
        | false => return none

/-- The transaction of `user_update`. -/
def userUpdateBody : Call (Bool × UserUpdateResult × Id) := do
  match ← Tx.query t .stmt (lockDuplicateNamePolicy gameId) with
  | none => return (false, .bad, 0)
  | some allowed =>
    match ← Tx.query t .stmt (selectCaptained gameId user) with
    | none => return (false, .bad, 0)
    | some (teamId, current) =>
      match ← checkName cfg t gameId data allowed teamId current with
      | some refused => return (false, refused, teamId)
      | none => writeUpdate t gameId user data teamId

/-- `user_update`. -/
def userUpdate : Call UserUpdateResult := do
  let answer ← Tx.transaction t .stmt (userUpdateBody cfg t gameId user data)
  match answer.1 with
  | .ok => do
    invalidateTeamInfo t answer.2
    return .ok
  | refused => return refused

end Update

/-! ## Leaving -/

section Leave

variable (cfg : Config) (t : Tid) (teamId user : Id)

def memberLeftEvent (gameId : Id) : EventLogInput where
  eventType := "team.member.left"
  gameId := some gameId
  teamId := some teamId
  userId := some user

def memberKickedEvent (gameId : Id) : EventLogInput where
  eventType := "team.member.kicked"
  severity := .warning
  gameId := some gameId
  teamId := some teamId
  targetUserId := some user

/-- Take a user out of a team by one statement, and log it. -/
def takeOut (event : Id → EventLogInput) : Call Bool := do
  match ← Tx.pool t (.leaving teamId user) (deleteMember teamId user) with
  | some gameId => do
    Tx.pool t .stmt (insertEvent (event gameId))
    invalidateTeamInfo t teamId
    return true
  | none => return false

/-- `leave`. -/
def leave : Call Bool := takeOut t teamId user (memberLeftEvent teamId user)

/-- `kick_member`. -/
def kickMember : Call Bool := takeOut t teamId user (memberKickedEvent teamId user)

/-- The members of a team that is not locked. -/
def selectUnlocked : Statement (List Id) :=
  .read fun v _ => .ok <|
    if (v (.team teamId)).any fun team => !team.isLocked then
      (membersOf cfg v teamId).map Prod.fst
    else []

/-- The `DELETE` of a team, which takes its members with it. -/
def deleteTeam : Statement (Option Id) := fun v _ =>
  match v (.team teamId) with
  | none => .ok { val := none }
  | some team => .ok {
      val := some team.gameId
      puts := ⟨.team teamId, none⟩ ::
        (membersOf cfg v teamId).map fun p => ⟨.member team.gameId p.1, none⟩ }

def teamDisbandedEvent (gameId : Id) : EventLogInput where
  eventType := "team.disbanded"
  severity := .warning
  gameId := some gameId
  data := .disbanded teamId

/-- The transaction of `disband`: the game of the team that has been deleted. -/
def disbandBody : Call (Bool × Option Id) := do
  let members ← Tx.query t .stmt (selectUnlocked cfg teamId)
  if members = [] then return (false, none)
  else
    match ← Tx.query t .stmt (deleteTeam cfg teamId) with
    | none => return (false, none)
    | some gameId =>
      Tx.query t .stmt (insertEvent (teamDisbandedEvent teamId gameId))
      return (true, some gameId)

/-- `disband`. -/
def disband : Call Bool := do
  match ← Tx.transaction t .stmt (disbandBody cfg t teamId) with
  | none => return false
  | some gameId => do
    Tx.pool t .stmt (insertDirtyGame gameId)
    return true

end Leave

/-! ## Captains -/

inductive AdminMemberResult where
  | conflict
  | lastMember
  | notFound
  | ok
  deriving DecidableEq

section Captains

variable (cfg : Config) (t : Tid) (teamId user : Id)

/-- What the statement of `promote_member` sees when it begins: the game, if the user is a member,
and the members. -/
def selectPromotion : Statement (Option Id × List Id) :=
  .read fun v _ => .ok
    ((memberOf v teamId user).bind fun _ => (v (.team teamId)).map Team.gameId,
      (membersOf cfg v teamId).map Prod.fst)

/-- A member, with or without the role of captain. -/
def setCaptain (v : View) (teamId : Id) (isCaptain : Id → Bool) (user : Id) :
    Option (Σ k, Val k) :=
  match v (.team teamId), memberOf v teamId user with
  | some team, some m =>
    some ⟨.member team.gameId user, some { m with isCaptain := isCaptain user }⟩
  | _, _ => none

/-- The `UPDATE` of the members that the statement has seen and that are still there. -/
def updateCaptains (members : List Id) : Statement Unit := fun v _ =>
  .ok {
    val := ()
    puts := members.filterMap (setCaptain v teamId fun member => decide (member = user)) }

/-- The statement of `promote_member`, which waits for the rows it writes. -/
def promoteBody : Call (Bool × Option Id) := do
  match ← Tx.query t .stmt (selectPromotion cfg teamId user) with
  | (none, _) => return (false, none)
  | (some gameId, members) =>
    Tx.query t (.promoting teamId user members) (updateCaptains teamId user members)
    return (true, some gameId)

def memberPromotedEvent (gameId : Id) : EventLogInput where
  eventType := "team.member.promoted"
  gameId := some gameId
  teamId := some teamId
  targetUserId := some user

/-- `promote_member`. -/
def promoteMember : Call Bool := do
  match ← Tx.transaction t .stmt (promoteBody cfg t teamId user) with
  | none => return false
  | some gameId => do
    Tx.pool t .stmt (insertEvent (memberPromotedEvent teamId user gameId))
    invalidateTeamInfo t teamId
    return true

/-- The team is one of the game. -/
def teamExists (gameId : Id) : Statement Bool :=
  .read fun v _ => .ok ((v (.team teamId)).any fun team => decide (team.gameId = gameId))

/-- The `DELETE` of a member by the staff. -/
def adminDeleteMember : Statement Bool := fun v _ =>
  match v (.team teamId), memberOf v teamId user with
  | some team, some _ => .ok { val := true, puts := [⟨.member team.gameId user, none⟩] }
  | _, _ => .ok { val := false }

/-- A member is captain. -/
def hasCaptain : Statement Bool :=
  .read fun v _ => .ok ((membersOf cfg v teamId).any fun p => p.2.isCaptain)

/-- The member of the earliest row. -/
def oldest : List (Id × Member) → Option (Id × Member)
  | [] => none
  | p :: ps =>
    match oldest ps with
    | none => some p
    | some q => if q.2.ctimeAt < p.2.ctimeAt then some q else some p

/-- The member that is to be captain, as the `UPDATE` sees it when it begins. -/
def selectOldest : Statement (Option Id) :=
  .read fun v _ => .ok ((oldest (membersOf cfg v teamId)).map Prod.fst)

/-- The `UPDATE` of this member, if it is still there. -/
def appoint (successor : Id) : Statement Unit := fun v _ =>
  .ok { val := (), puts := (setCaptain v teamId (fun _ => true) successor).toList }

/-- A new captain, where there is none. -/
def appointCaptain : Call Unit := do
  match ← Tx.query t .stmt (hasCaptain cfg teamId) with
  | true => return ()
  | false =>
    match ← Tx.query t .stmt (selectOldest cfg teamId) with
    | none => return ()
    | some successor => Tx.query t .stmt (appoint teamId successor)

/-- The transaction of `admin_remove_member`. -/
def removeBody (gameId : Id) : Call (Bool × AdminMemberResult) := do
  match ← Tx.query t .stmt (teamExists teamId gameId) with
  | false => return (false, .notFound)
  | true =>
    let count ← Tx.query t .stmt (countMembers cfg teamId)
    if count ≤ 1 then return (false, .lastMember)
    else
      match ← Tx.query t .stmt (adminDeleteMember teamId user) with
      | false => return (false, .notFound)
      | true =>
        appointCaptain cfg t teamId
        return (true, .ok)

/-- `admin_remove_member`. -/
def adminRemoveMember (gameId : Id) : Call AdminMemberResult := do
  match ← Tx.transaction t (.removing teamId user) (removeBody cfg t teamId user gameId) with
  | .ok => do
    invalidateTeamInfo t teamId
    return .ok
  | refused => return refused

/-- The user is a member of the team of the game. -/
def memberExists (gameId : Id) : Statement Bool :=
  .read fun v _ => .ok ((v (.member gameId user)).any fun m => decide (m.teamId = teamId))

/-- `admin_promote_member`. -/
def adminPromoteMember (gameId : Id) : Call AdminMemberResult := do
  match ← Tx.pool t .stmt (memberExists teamId user gameId) with
  | false => return .notFound
  | true =>
    let _ ← promoteMember cfg t teamId user
    return .ok

end Captains

end Teams
