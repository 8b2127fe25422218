import Mathlib.Data.List.Dedup
import RbphBackend.Threads.Pages

set_option relaxedAutoImplicit false
set_option autoImplicit false

/-!
# Threads as they are sent

A thread is sent with a summary of its ticket, a page of its items and what its reader may do with
it. Readers who are not moderators do not see whom the ticket is assigned to; where the game has a
staff identity, they see it in place of the staff.

## Main definitions

* `Threads.Desk` — the rows that threads are made of.
* `Threads.Desk.getTicketThread`, `Threads.Desk.getDmTicketThread` — the threads.
* `Threads.TicketThread.anonymizeStaff` — the thread with the staff identity.
* `Threads.Desk.notifyTicketUpdated` — the messages that are sent when a ticket changes.
-/

namespace Threads

/-! ## Rows -/

/-- `RbTicketState`. -/
inductive RbTicketState where
  | closed
  | open
  | invalid
  deriving DecidableEq

/-- `RbTicketState::from_primitive`. -/
def RbTicketState.fromPrimitive (value : ℤ) : RbTicketState :=
  if value = 0 then .closed else if value = 1 then .open else .invalid

/-- A row of `rb_ticket`. -/
structure TicketRow where
  id : ℕ
  state : ℤ
  teamId : ℕ
  puzzleId : Option ℕ
  assignee : Option ℕ

/-- A row of `rb_team`. -/
structure TeamRow where
  id : ℕ
  name : String
  isBanned : Bool
  startAt : Option ℤ
  finishAt : Option ℤ
  gameId : ℕ

/-- A row of `rb_round`. -/
structure RoundRow where
  id : ℕ
  slug : Option String
  title : String
  deriving DecidableEq

/-- A row of `rb_puzzle`, with its round and its effective release. -/
structure PuzzleRow where
  id : ℕ
  slug : Option String
  title : String
  round : RoundRow
  releaseAt : Option ℤ

/-- `RbGameDisplaySettings`, as far as the staff is concerned. -/
structure RbGameDisplaySettings where
  staffNickname : Option String
  staffAvatarEmail : Option String
  staffAvatarProvider : ℤ

/-- `RbCurrencyShowData`: a currency by its id, with what is shown of it. -/
structure RbCurrencyShowData where
  id : ℕ
  shown : List (String × String)
  deriving DecidableEq

/-- The rows that threads are made of. -/
structure Desk extends Tables where
  tickets : List TicketRow
  teams : List TeamRow
  puzzles : List PuzzleRow
  /-- The members of a team. -/
  members : ℕ → List ℕ
  /-- The state of a puzzle for a team. -/
  teamPuzzle : ℕ → ℕ → Option ℤ
  /-- The state of a feature of a game, by its type. -/
  gameFeature : ℕ → ℕ → Option ℤ
  /-- Whether a feature is enabled for a team, by its type. -/
  teamFeature : ℕ → ℕ → Option Bool
  /-- `get_currency_info`: what a team sees of its currencies. -/
  currencyInfo : ℕ → List RbCurrencyShowData
  /-- The display settings of a game, where they can be read. -/
  displaySettings : ℕ → Option RbGameDisplaySettings
  assignee_exists : ∀ t ∈ tickets, ∀ u ∈ t.assignee, ∃ row ∈ users, row.id = u

/-! ## Summaries -/

/-- `TicketAggreInfoTeam`. -/
structure TicketAggreInfoTeam where
  id : ℕ
  name : String
  isBanned : Bool
  startAt : Option ℤ
  finishAt : Option ℤ
  currency : List RbCurrencyShowData
  deriving DecidableEq

/-- `RbTeamPuzzleState`. -/
inductive RbTeamPuzzleState where
  | locked
  | unlocked
  | solved
  | invalid
  deriving DecidableEq

/-- `RbTeamPuzzleState::from_primitive`. -/
def RbTeamPuzzleState.fromPrimitive (value : ℤ) : RbTeamPuzzleState :=
  if value = -1 then .locked else if value = 0 then .unlocked
  else if value = 1 then .solved else .invalid

/-- `TicketAggreInfoPuzzle`. -/
structure TicketAggreInfoPuzzle where
  id : ℕ
  slug : Option String
  title : String
  state : RbTeamPuzzleState
  round : RoundRow
  deriving DecidableEq

/-- `TicketSummary`. -/
structure TicketSummary where
  id : ℕ
  state : RbTicketState
  gameId : Option ℕ
  team : Option TicketAggreInfoTeam
  puzzle : Option TicketAggreInfoPuzzle
  msgCount : Option ℕ
  lastAt : Option ℤ
  lastBy : Option RbTicketSenderType
  assignee : Option TicketAggreInfoUser
  deriving DecidableEq

/-- `TicketSummary::hide_assignee`. -/
def TicketSummary.hideAssignee (s : TicketSummary) : TicketSummary := { s with assignee := none }

/-- `TicketSummary::is_puzzle_ticket`. -/
def TicketSummary.isPuzzleTicket (s : TicketSummary) : Bool := s.puzzle.isSome

/-- `TicketSummary::currency_ids`. -/
def TicketSummary.currencyIds (s : TicketSummary) : List ℕ :=
  match s.team with
  | some team => team.currency.map RbCurrencyShowData.id
  | none => []

/-- `TicketSendBlock`. -/
inductive TicketSendBlock where
  | ok
  | noAccess
  | closed
  | pending
  | featureClosed
  | featureExistingOnly
  | teamFeatureBanned
  deriving DecidableEq

/-- `PlayerFeatureAccess`. -/
inductive PlayerFeatureAccess where
  | open
  | existingOnly
  | gameClosed
  | teamFeatureBanned
  deriving DecidableEq

/-- `PlayerFeatureAccess::from_value`. -/
def PlayerFeatureAccess.fromValue (value : ℤ) : PlayerFeatureAccess :=
  if value = 2 then .open else if value = 1 then .existingOnly
  else if value = -2 then .teamFeatureBanned else .gameClosed

/-- `PlayerFeatureAccess::send_block`. -/
def PlayerFeatureAccess.sendBlock (access : PlayerFeatureAccess) (hasExisting : Bool) :
    TicketSendBlock :=
  match access with
  | .open => .ok
  | .existingOnly => if hasExisting then .ok else .featureExistingOnly
  | .gameClosed => .featureClosed
  | .teamFeatureBanned => .teamFeatureBanned

/-- `TicketPerm`. -/
structure TicketPerm where
  sendBlock : TicketSendBlock
  canHost : Bool
  canViewLocked : Bool
  contentType : List RbContentType
  currency : List ℕ
  deriving DecidableEq

/-- `TicketPerm::new`. -/
def TicketPerm.new (canHost canViewLocked canUseTrustedContent : Bool) (currency : List ℕ)
    (sendBlock : TicketSendBlock) : TicketPerm where
  sendBlock
  canHost
  canViewLocked
  contentType :=
    if canUseTrustedContent then [.markdown, .html, .unsafeMarkdown] else [.unsafeMarkdown]
  currency

/-- `TicketThread`. -/
structure TicketThread where
  ticket : Option TicketSummary
  messages : List TicketThreadItem
  history : TicketHistory
  perm : TicketPerm
  deriving DecidableEq

/-- `TicketThread::anonymize_staff`. -/
def TicketThread.anonymizeStaff (thread : TicketThread) (identity : RbGameStaffIdentity) :
    TicketThread :=
  { thread with
    ticket := thread.ticket.map fun ticket =>
      { ticket with assignee := ticket.assignee.map fun u => u.anonymize identity }
    messages := thread.messages.map fun item => item.anonymizeStaff identity }

/-- `TicketUserInfo`, as far as a thread is concerned. -/
structure TicketUserInfo where
  memberAccess : Bool
  modAccess : Bool
  adminAccess : Bool

namespace Desk

variable (desk : Desk) (json : CursorJson) (avatarUrl : String → ℤ → String)

/-- `user_avatar`, with the address of an avatar by the value of its provider. -/
def userAvatar (email : Option String) (provider : Option ℤ) : Option String :=
  email.map fun email => avatarUrl email (provider.getD 0)

/-- A ticket by its id. -/
def ticket (id : ℕ) : Option TicketRow := desk.tickets.find? fun t => t.id = id

/-- A team by its id. -/
def team (id : ℕ) : Option TeamRow := desk.teams.find? fun t => t.id = id

/-- A puzzle by its id. -/
def puzzle (id : ℕ) : Option PuzzleRow := desk.puzzles.find? fun p => p.id = id

/-- The messages of a ticket. -/
def messagesOf (ticketId : ℕ) : List MessageRow :=
  desk.messages.filter fun m => m.ticketId = ticketId

/-- `make_puzzle`: the puzzle of a ticket, where the team has a state of it. -/
def makePuzzle (teamId : ℕ) (puzzleId : Option ℕ) : Option TicketAggreInfoPuzzle := do
  let p ← puzzleId.bind desk.puzzle
  let state ← desk.teamPuzzle teamId p.id
  some ⟨p.id, p.slug, p.title, .fromPrimitive state, p.round⟩

/-- The user that a ticket is assigned to. -/
def assigneeInfo (assignee : Option ℕ) : Option TicketAggreInfoUser := do
  let u ← assignee.bind desk.user
  some ⟨u.id, u.nickname, userAvatar avatarUrl u.email (some u.avatarProvider), u.email⟩

/-- `get_ticket_summary`. -/
def getTicketSummary (ticketId : ℕ) (includeTeam : Bool) : Option TicketSummary := do
  let tk ← desk.ticket ticketId
  let t ← desk.team tk.teamId
  let messages := desk.messagesOf ticketId
  let last := (messages.insertionSort fun a b =>
    toLex (b.ctimeAt, b.id) ≤ toLex (a.ctimeAt, a.id)).head?
  some
    { id := ticketId
      state := .fromPrimitive tk.state
      gameId := some t.gameId
      team := if includeTeam then
          some ⟨t.id, t.name, t.isBanned, t.startAt, t.finishAt, desk.currencyInfo t.id⟩
        else none
      puzzle := desk.makePuzzle t.id tk.puzzleId
      msgCount := if messages.isEmpty then none else some messages.length
      lastAt := (messages.map MessageRow.ctimeAt).max?
      lastBy := last.map fun m => .fromPrimitive m.senderType
      assignee := desk.assigneeInfo avatarUrl tk.assignee }

/-- `get_pending_count`. -/
def getPendingCount (ticketId : ℕ) : ℕ :=
  ((desk.messagesOf ticketId).filter fun m => m.senderType = 0 ∧
    ∀ reply ∈ desk.messagesOf ticketId, ¬ (reply.senderType = 1 ∧ m.id < reply.id)).length

/-- `calc_send_block`. -/
def calcSendBlock (ticketId : ℕ) (state : RbTicketState) (canSend : Bool)
    (maxPending : Option ℕ) : TicketSendBlock :=
  if !canSend then .noAccess
  else if state = .closed then .closed
  else if ∃ limit ∈ maxPending, limit ≤ desk.getPendingCount ticketId then .pending
  else .ok

/-- The type of the feature of a ticket: direct messages, or tickets of puzzles. -/
def featureType (puzzleId : Option ℕ) : ℕ := if puzzleId.isNone then 1 else 2

/-- `player_ticket_feature_access`. -/
def playerTicketFeatureAccess (now : ℤ) (ticketId : ℕ) : PlayerFeatureAccess :=
  let value : Option ℤ := do
    let tk ← desk.ticket ticketId
    let t ← desk.team tk.teamId
    let feature := (desk.gameFeature t.gameId (featureType tk.puzzleId)).getD 2
    some <|
      if (desk.teamFeature t.id (featureType tk.puzzleId)).getD true = false then -2
      else if feature = 0 then 0
      else if ¬ (tk.puzzleId = none ∨ ∃ p ∈ tk.puzzleId.bind desk.puzzle,
          ∃ release ∈ p.releaseAt, release ≤ now) then 0
      else feature
  .fromValue (value.getD 0)

/-- `player_dm_feature_access`. -/
def playerDmFeatureAccess (teamId : ℕ) : PlayerFeatureAccess :=
  let value : Option ℤ := do
    let t ← desk.team teamId
    some <|
      if (desk.teamFeature t.id 1).getD true = false then -2
      else (desk.gameFeature t.gameId 1).getD 2
  .fromValue (value.getD 0)

/-- The summary as a reader sees it. -/
def shownSummary (modAccess : Bool) (summary : TicketSummary) : TicketSummary :=
  if modAccess then summary else summary.hideAssignee

/-- `get_ticket_thread`. -/
def getTicketThread (clock : ℕ → ℤ) (ticketId : ℕ) (info : TicketUserInfo)
    (request : TicketPageRequest) : Option TicketThread := do
  let summary ← desk.getTicketSummary avatarUrl ticketId true
  let ticket := shownSummary info.modAccess summary
  let page := desk.getTicketPage json clock ticketId info.modAccess ticket.isPuzzleTicket request
  let featureBlock := (desk.playerTicketFeatureAccess (clock 6) ticketId).sendBlock true
  let sendBlock :=
    if info.memberAccess ∧ featureBlock ≠ .ok then featureBlock
    else desk.calcSendBlock ticketId ticket.state (info.memberAccess || info.modAccess) (some 1)
  let currency := if info.modAccess then ticket.currencyIds else []
  some
    { ticket := some ticket
      messages := page.items
      history := page.history
      perm := .new info.modAccess info.modAccess info.adminAccess currency sendBlock }

/-- `get_dm_ticket_thread`. -/
def getDmTicketThread (clock : ℕ → ℤ) (teamId : ℕ) (canViewLocked canUseTrustedContent : Bool)
    (request : TicketPageRequest) : TicketThread :=
  let access := desk.playerDmFeatureAccess teamId
  match desk.tickets.find? fun t => t.teamId = teamId ∧ t.puzzleId = none with
  | none =>
    { ticket := none
      messages := []
      history := {}
      perm := .new canViewLocked canViewLocked canUseTrustedContent [] (access.sendBlock false) }
  | some row =>
    let ticket := (desk.getTicketSummary avatarUrl row.id false).map (shownSummary canViewLocked)
    let page := desk.getTicketPage json clock row.id canViewLocked false request
    let state := (ticket.map TicketSummary.state).getD .invalid
    let sendBlock :=
      if access.sendBlock true ≠ .ok then access.sendBlock true
      else desk.calcSendBlock row.id state true (some 3)
    { ticket
      messages := page.items
      history := page.history
      perm := .new canViewLocked canViewLocked canUseTrustedContent [] sendBlock }

end Desk

/-! ## Notifications -/

/-- `RbGameDisplaySettings::staff_identity`. -/
def RbGameDisplaySettings.staffIdentity (avatarUrl : String → ℤ → String)
    (settings : RbGameDisplaySettings) : Option RbGameStaffIdentity :=
  settings.staffNickname.map fun nickname =>
    ⟨nickname, settings.staffAvatarEmail.map fun email =>
      avatarUrl email settings.staffAvatarProvider⟩

/-- What is sent when a ticket changes. -/
structure TicketUpdated where
  event : String
  ticketId : ℕ
  messageId : Option ℕ
  actorId : ℕ
  teamId : ℕ
  puzzleId : Option ℕ
  gameId : ℕ
  deriving DecidableEq

/-- Data that is published to users. -/
structure Published where
  ids : List ℕ
  data : TicketUpdated
  deriving DecidableEq

namespace Desk

variable (desk : Desk) (avatarUrl : String → ℤ → String)

/-- `get_staff_identity`. -/
def getStaffIdentity (gameId : ℕ) : Option RbGameStaffIdentity :=
  (desk.displaySettings gameId).bind fun settings => settings.staffIdentity avatarUrl

/-- The users whose role is at least that of moderators. -/
def moderators : List ℕ := (desk.users.filter fun u => 2 ≤ u.urole).map UserRow.id

/-- `publish_users`. -/
def publishUsers (users : List ℕ) (data : TicketUpdated) : List Published :=
  let users := (users.insertionSort (· ≤ ·)).dedup
  if users.isEmpty then [] else [⟨users, data⟩]

/-- `notify_ticket_updated`. The query for the ticket fails where there is none. -/
def notifyTicketUpdated (ticketId : ℕ) (event : String) (messageId : Option ℕ) (actorId : ℕ) :
    Option (List Published) := do
  let tk ← desk.ticket ticketId
  let t ← desk.team tk.teamId
  let data : TicketUpdated := ⟨event, ticketId, messageId, actorId, t.id, tk.puzzleId, t.gameId⟩
  let members := desk.members t.id
  some <|
    if (desk.getStaffIdentity avatarUrl t.gameId).isSome ∧ actorId ∈ desk.moderators then
      let players := members.filter fun u => u ∉ desk.moderators
      publishUsers players { data with actorId := staffAliasUserId } ++
        publishUsers desk.moderators data
    else publishUsers (members ++ desk.moderators) data

end Desk

end Threads
