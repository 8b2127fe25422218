import RbphBackend.Helpdesk.Schema

set_option relaxedAutoImplicit false
set_option autoImplicit false

/-!
# The calls about tickets

A ticket is opened under the lock of its team. Its messages are added, and it is closed by a member
or by the staff, under its own lock; when its puzzle is solved it is closed by an `UPDATE` of the
tickets that are not closed.

## Main definitions

* `Helpdesk.openPuzzleTicket`, `Helpdesk.sendTicketMessage`, `Helpdesk.closeTicket`,
  `Helpdesk.closePuzzleTicketsOnSolveConn` — the calls.
-/

namespace Helpdesk

open Concurrency ReadCommitted Numeric Threads

/-! ## Codes -/

/-- `i16::from` of a sender type. -/
def senderTypeCode : RbTicketSenderType → ℤ
  | .team => 0
  | .host => 1
  | .invalid => 2

/-- `i16::from` of a content type. -/
def contentTypeCode : RbContentType → ℤ
  | .markdown => 0
  | .html => 1
  | .unsafeMarkdown => 2
  | .invalid => 3

/-- `i16::from` of an action. -/
def actionCode : TicketOperationAction → ℤ
  | .opened => 1
  | .close => 2
  | .autoCloseSolved => 3

/-- A second, in microseconds. -/
def secondMicros : ℤ := 1000000

/-! ## Messages -/

/-- `SendMessageData`. -/
structure SendMessageData where
  content : String
  contentType : RbContentType
  senderId : Id
  senderType : RbTicketSenderType
  costId : Option Id
  costAmount : BigInt
  unlockAfterSeconds : ℤ

section Messages

variable (cfg : Config) (t : Tid)

/-- The row of a new message. -/
def SendMessageData.row (data : SendMessageData) (id : Id) (now : ℤ) : Message where
  id := id
  content := data.content
  contentType := contentTypeCode data.contentType
  sender := data.senderId
  senderType := senderTypeCode data.senderType
  costId := data.costId
  costAmount := data.costAmount
  unlocked := data.costId.isNone && decide (data.unlockAfterSeconds = 0)
  unlockAt :=
    if 0 < data.unlockAfterSeconds then some (now + data.unlockAfterSeconds * secondMicros) else none
  unlockAfterSeconds := data.unlockAfterSeconds
  ctimeAt := now
  utimeAt := none

/-- The `INSERT` of a message, with the foreign keys and the check of its table. -/
def insertMessage (ticketId id : Id) (data : SendMessageData) : Statement Unit := fun v now =>
  if (v (.ticket ticketId)).isNone then .error "rb_message_ticket_id_fkey"
  else if (v (.user data.senderId)).isNone then .error "rb_message_sender_fkey"
  else if data.costId.any fun currency => (cfg.currencyGame currency).isNone then
    .error "rb_message_cost_id_fkey"
  else if data.unlockAfterSeconds < 0 then .error "rb_message_unlock_after_seconds_check"
  else .ok {
    val := ()
    puts := [⟨.messages ticketId, v (.messages ticketId) ++ [data.row id now]⟩] }

/-- The notification of a reply of the staff. -/
def insertTicketReply (ticketId id : Id) (data : SendMessageData) : Statement Unit := fun v _ =>
  match v (.ticket ticketId) with
  | none => .ok { val := () }
  | some tk =>
    let puzzle := tk.puzzleId.bind cfg.puzzle
    .ok {
      val := ()
      inserts := [.ticketReply tk.teamId id data.senderId ticketId (puzzle.map (·.id))
        (puzzle.map (·.title))] }

/-- `insert_ticket_message_conn`; the sequence gives the id. -/
def insertTicketMessageConn (ticketId id : Id) (data : SendMessageData) : Call Unit := do
  Tx.query t .stmt (insertMessage cfg ticketId id data)
  match data.senderType with
  | .host => Tx.query t .stmt (insertTicketReply cfg ticketId id data)
  | _ => return ()

/-- The `UPDATE` that assigns a ticket nobody is assigned to. -/
def assignTicket (ticketId user : Id) : Statement Unit := fun v _ =>
  match v (.ticket ticketId) with
  | some tk =>
    if tk.assignee.isNone then
      .ok { val := (), puts := [⟨.ticket ticketId, some { tk with assignee := some user }⟩] }
    else .ok { val := () }
  | none => .ok { val := () }

/-- `auto_assign_ticket_on_staff_message_conn`. -/
def autoAssignTicketOnStaffMessageConn (ticketId : Id) (data : SendMessageData) : Call Unit :=
  match data.senderType with
  | .host => Tx.query t .stmt (assignTicket ticketId data.senderId)
  | _ => return ()

/-- The `INSERT` of an operation, with the foreign keys of its table. -/
def insertOperation (ticketId : Id) (action : TicketOperationAction) (actor : Id)
    (actorType : RbTicketSenderType) (messageId : Option Id) : Statement Unit := fun v now =>
  if (v (.ticket ticketId)).isNone then .error "rb_ticket_operation_ticket_id_fkey"
  else if (v (.user actor)).isNone then .error "rb_ticket_operation_actor_fkey"
  else .ok {
    val := ()
    puts := [⟨.operations ticketId, v (.operations ticketId) ++
      [⟨actionCode action, actor, senderTypeCode actorType, messageId, now⟩]⟩] }

/-- The message, by its id. -/
def findMessage (v : View) (id : Id) : Option Message :=
  (cfg.ticketIds.flatMap fun ticketId => v (.messages ticketId)).find? (·.id = id)

/-- `get_ticket_message`. -/
def getTicketMessage (id : Id) (canViewLocked : Bool) : Statement (Option TicketMessage) :=
  .read fun v now => .ok do
    let m ← findMessage cfg v id
    let u ← v (.user m.sender)
    let unlocked := m.unlocked ||
      m.costId.isNone && m.unlockAt.any fun unlockAt => decide (unlockAt ≤ now)
    some
      { id := m.id
        sender := ⟨u.id, u.nickname, none, none⟩
        senderType := .fromPrimitive m.senderType
        costId := m.costId
        costAmount := m.costAmount.val
        unlocked := unlocked
        unlockAt := m.unlockAt
        unlockAfterSeconds := m.unlockAfterSeconds.toNat
        content := if canViewLocked || unlocked then some m.content else none
        contentType := if canViewLocked || unlocked then some (.fromPrimitive m.contentType) else none
        ctimeAt := m.ctimeAt
        utimeAt := m.utimeAt }

/-- The user a ticket is assigned to, as a refusal shows them. -/
def assignedUser (assignee : Id) (u : Option UserRow) : TicketAggreInfoUser where
  id := assignee
  nickname := (u.map UserRow.nickname).getD ""
  avatar := Desk.userAvatar cfg.avatarUrl (u.bind UserRow.email) (u.map UserRow.avatarProvider)
  email := u.bind UserRow.email

end Messages

/-! ## Sending -/

/-- `SendTicketMessageResult`. -/
inductive SendTicketMessageResult where
  | ok (message : TicketMessage)
  | pending
  | assigned (assignee : TicketAggreInfoUser)
  deriving DecidableEq

section Send

variable (cfg : Config) (t : Tid)

/-- The assignee of the ticket; its row is locked. -/
def selectForSend (ticketId : Id) : Statement (Option (Id × Option UserRow)) := fun v _ =>
  match v (.ticket ticketId) with
  | none => .error "no rows returned by a query that expected to return at least one row"
  | some tk => .ok {
      val := tk.assignee.map fun assignee => (assignee, v (.user assignee))
      puts := [lockRow v (.ticket ticketId)] }

/-- The messages of the team that have no later reply of the staff. -/
def pendingCount (messages : List Message) : ℕ :=
  (messages.filter fun m => m.senderType = 0 ∧
    ∀ reply ∈ messages, ¬ (reply.senderType = 1 ∧ m.id < reply.id)).length

/-- The `SELECT` that counts them. -/
def countPending (ticketId : Id) : Statement ℕ :=
  .read fun v _ => .ok (pendingCount (v (.messages ticketId)))

/-- A message of the team is refused where so many are pending. -/
def pendingReached (maxPending : Option ℤ) (data : SendMessageData) (ticketId : Id) : Call Bool :=
  match maxPending, data.senderType with
  | some maxPending, .team => do
    let pending ← Tx.query t .stmt (countPending ticketId)
    return decide (maxPending ≤ pending)
  | _, _ => return false

/-- A ticket assigned to another one of the staff is not answered, unless it is forced. -/
def assignedToOther (assignee : Option (Id × Option UserRow)) (actor : Id) (force : Bool) :
    Option TicketAggreInfoUser :=
  match assignee with
  | some (user, row) => if user ≠ actor ∧ force = false then some (assignedUser cfg user row) else none
  | none => none

/-- The transaction of `send_ticket_message`. -/
def sendBody (l : Label) (ticketId id : Id) (data : SendMessageData) (maxPending : Option ℤ)
    (forceAssignee : Bool) : Call (Bool × Option SendTicketMessageResult) := do
  let assignee ← Tx.query t l (selectForSend ticketId)
  let other := match data.senderType with
    | .host => assignedToOther cfg assignee data.senderId forceAssignee
    | _ => none
  match other with
  | some user => return (false, some (.assigned user))
  | none =>
    match ← pendingReached t maxPending data ticketId with
    | true => return (false, some .pending)
    | false =>
      autoAssignTicketOnStaffMessageConn t ticketId data
      insertTicketMessageConn cfg t ticketId id data
      return (true, none)

/-- `send_ticket_message`; `id` is what the sequence gives a new message. -/
def sendTicketMessage (l : Label) (ticketId id : Id) (data : SendMessageData)
    (maxPending : Option ℤ) (forceAssignee : Bool) : Call SendTicketMessageResult := do
  match ← Tx.transaction t .stmt (sendBody cfg t l ticketId id data maxPending forceAssignee) with
  | some refused => return refused
  | none =>
    match ← Tx.pool t .stmt (getTicketMessage cfg id true) with
    | none => throw "Inserted ticket message not found"
    | some message => return .ok message

end Send

/-! ## Closing -/

/-- `CloseTicketResult`. -/
inductive CloseTicketResult where
  | ok (message : Option Id)
  | closed
  | assigned (assignee : TicketAggreInfoUser)
  deriving DecidableEq

/-- What `close_ticket` reads first. -/
structure CloseInfo where
  teamId : Id
  puzzleId : Option Id
  state : ℤ
  assignee : Option (Id × Option UserRow)
  gameId : Id
  roundId : Option Id
  puzzleTitle : Option String

/-- What `close_ticket` is asked: by whom, and the message with the id the sequence gives it. -/
structure CloseRequest where
  ticketId : Id
  actorId : Id
  actorType : RbTicketSenderType
  message : Option (Id × SendMessageData)
  forceAssignee : Bool

section Close

variable (cfg : Config) (t : Tid)

/-- The ticket; its row is locked. -/
def selectForClose (ticketId : Id) : Statement (Option CloseInfo) := fun v _ =>
  match v (.ticket ticketId) with
  | none => .ok { val := none }
  | some tk =>
    match v (.team tk.teamId) with
    | none => .ok { val := none }
    | some team =>
      let puzzle := tk.puzzleId.bind cfg.puzzle
      .ok {
        val := some ⟨tk.teamId, tk.puzzleId, tk.state,
          tk.assignee.map fun assignee => (assignee, v (.user assignee)), team.gameId,
          puzzle.map (·.roundId), puzzle.map (·.title)⟩
        puts := [lockRow v (.ticket ticketId)] }

/-- The `UPDATE` of a ticket that is not closed. -/
def setClosed (ticketId : Id) : Statement Bool := fun v _ =>
  match v (.ticket ticketId) with
  | some tk =>
    if tk.state ≠ 0 then
      .ok { val := true, puts := [⟨.ticket ticketId, some { tk with state := 0 }⟩] }
    else .ok { val := false }
  | none => .ok { val := false }

def ticketClosedEvent (req : CloseRequest) (info : CloseInfo) : EventLogInput where
  eventType := "ticket.closed"
  gameId := some info.gameId
  teamId := some info.teamId
  userId := some req.actorId
  puzzleId := info.puzzleId
  roundId := info.roundId
  ticketId := some req.ticketId
  data := {
    staff := some (match req.actorType with | .host => true | _ => false)
    ticketId := req.ticketId
    puzzleId := info.puzzleId
    puzzleTitle := info.puzzleTitle }

/-- The message of a closing, where there is one. -/
def closingMessage (req : CloseRequest) : Call (Option Id) :=
  match req.message with
  | some (id, data) => do
    autoAssignTicketOnStaffMessageConn t req.ticketId data
    insertTicketMessageConn cfg t req.ticketId id data
    return some id
  | none => return none

/-- A closing with a message is refused where the ticket is assigned to another one. -/
def closeRefused (req : CloseRequest) (info : CloseInfo) : Option TicketAggreInfoUser :=
  match req.message, req.actorType with
  | some _, .host => assignedToOther cfg info.assignee req.actorId req.forceAssignee
  | _, _ => none

/-- The transaction of `close_ticket` once the ticket is locked and may be closed. -/
def closeLocked (req : CloseRequest) (info : CloseInfo) : Call (Bool × CloseTicketResult) := do
  match ← Tx.query t .stmt (setClosed req.ticketId) with
  | false => return (true, .closed)
  | true =>
    let messageId ← closingMessage cfg t req
    Tx.query t .stmt (insertOperation req.ticketId .close req.actorId req.actorType messageId)
    Tx.query t .stmt (insertEvent (ticketClosedEvent req info))
    return (true, .ok messageId)

/-- The transaction of `close_ticket`. -/
def closeBody (req : CloseRequest) : Call (Bool × CloseTicketResult) := do
  match ← Tx.query t .stmt (selectForClose cfg req.ticketId) with
  | none => return (false, .closed)
  | some info =>
    if info.state = 0 then return (false, .closed)
    else
      match closeRefused cfg req info with
      | some user => return (false, .assigned user)
      | none => closeLocked cfg t req info

/-- `close_ticket`. -/
def closeTicket (req : CloseRequest) : Call CloseTicketResult :=
  Tx.transaction t .stmt (closeBody cfg t req)

/-- The ticket of the puzzle is one that a solve closes. -/
def closesOnSolve (teamId puzzleId : Id) (v : View) (ticketId : Id) : Bool :=
  (v (.ticket ticketId)).any fun tk =>
    decide (tk.teamId = teamId ∧ tk.puzzleId = some puzzleId ∧ tk.state ≠ 0)

/-- The `UPDATE` that closes the tickets of a puzzle, with `RETURNING`. -/
def setClosedOnSolve (teamId puzzleId : Id) : Statement (List Id) := fun v _ =>
  let ids := cfg.ticketIds.filter (closesOnSolve teamId puzzleId v)
  .ok {
    val := ids
    puts := ids.map fun id => ⟨.ticket id, (v (.ticket id)).map fun tk => { tk with state := 0 }⟩ }

/-- The operations of the tickets that a solve has closed, one after the other. -/
def logClosedOnSolve (actorId : Id) : List Id → Call Unit
  | [] => return ()
  | id :: ids => do
    Tx.query t .stmt (insertOperation id .autoCloseSolved actorId .team none)
    logClosedOnSolve actorId ids

/-- `close_puzzle_tickets_on_solve_conn`. -/
def closePuzzleTicketsOnSolveConn (teamId puzzleId actorId : Id) : Call Unit := do
  let ids ← Tx.query t .stmt (setClosedOnSolve cfg teamId puzzleId)
  logClosedOnSolve t actorId ids

/-- A solve, as far as the tickets of its puzzle are concerned. -/
def solvePuzzle (teamId puzzleId actorId : Id) : Call Unit :=
  Tx.transaction t .stmt do
    closePuzzleTicketsOnSolveConn cfg t teamId puzzleId actorId
    return (true, ())

end Close

/-! ## Opening -/

/-- `OpenPuzzleTicketResult`. -/
inductive OpenPuzzleTicketResult where
  | ok (thread : TicketThread)
  | pendingExists
  | cooldown
  | disabled
  | featureClosed
  | featureExistingOnly
  | teamFeatureBanned
  deriving DecidableEq

/-- What `open_puzzle_ticket` is asked, with the ids the sequences give. -/
structure OpenRequest where
  teamId : Id
  puzzleId : Id
  message : SendMessageData
  ticketId : Id
  messageId : Id

/-- What `open_puzzle_ticket` reads of the puzzle. -/
structure TicketAvailability where
  ticketEnabled : Bool
  puzzleTitle : String
  roundId : Id
  gameId : Id
  cooldownReady : Bool

/-- An open ticket of the team for a puzzle. -/
def Ticket.isOpenFor (teamId : Id) (tk : Ticket) : Bool :=
  decide (tk.state = 1 ∧ tk.teamId = teamId) && tk.puzzleId.isSome

section Open

variable (cfg : Config) (t : Tid)

/-- `SELECT FROM rb_team … FOR UPDATE`. -/
def lockTeam (teamId : Id) : Statement Unit := fun v _ =>
  match v (.team teamId) with
  | none => .ok { val := () }
  | some _ => .ok { val := (), puts := [lockRow v (.team teamId)] }

/-- The team has an open ticket for a puzzle. -/
def pendingExists (teamId : Id) : Statement Bool :=
  .read fun v _ => .ok (cfg.ticketIds.any fun id => (v (.ticket id)).any (Ticket.isOpenFor teamId))

/-- The puzzle has been unlocked for the team for the time of its cooldown. -/
def cooldownReady (v : View) (now : ℤ) (teamId : Id) (p : Puzzle) : Bool :=
  match v (.teamPuzzle teamId p.id), cfg.effectiveRelease p with
  | some tp, some releaseAt =>
    decide (0 ≤ tp.state ∧ max tp.ctimeAt releaseAt ≤ now - p.ticketCooldown * secondMicros)
  | _, _ => false

/-- The puzzle, if it is released. -/
def selectAvailability (teamId puzzleId : Id) : Statement (Option TicketAvailability) :=
  .read fun v now => .ok do
    let p ← cfg.puzzle puzzleId
    let r ← cfg.round p.roundId
    let releaseAt ← cfg.effectiveRelease p
    if releaseAt ≤ now then
      some ⟨p.ticketEnabled, p.title, p.roundId, r.gameId, cooldownReady cfg v now teamId p⟩
    else none

/-- What a team may do with a feature of a game, as a number. -/
def featureValue (v : View) (teamId gameId featureType : Id) : ℤ :=
  if (v (.teamFeature teamId featureType)).getD true = false then -2
  else (v (.gameFeature gameId featureType)).getD 2

/-- What the team may do with tickets of puzzles, if it is a team of the game. -/
def selectAccess (teamId gameId : Id) : Statement (Option ℤ) :=
  .read fun v _ => .ok do
    let team ← v (.team teamId)
    if team.gameId = gameId then some (featureValue v teamId gameId 2) else none

/-- The `INSERT` of a ticket, with the keys of its table. -/
def insertTicket (req : OpenRequest) : Statement Unit := fun v _ =>
  if (v (.ticket req.ticketId)).isSome then .error "rb_ticket_pkey"
  else if (v (.team req.teamId)).isNone then .error "rb_ticket_team_id_fkey"
  else if (cfg.puzzle req.puzzleId).isNone then .error "rb_ticket_puzzle_id_fkey"
  else .ok {
    val := ()
    puts := [⟨.ticket req.ticketId, some ⟨1, req.teamId, some req.puzzleId, none⟩⟩] }

def ticketOpenedEvent (req : OpenRequest) (info : TicketAvailability) : EventLogInput where
  eventType := "ticket.opened"
  gameId := some info.gameId
  teamId := some req.teamId
  userId := some req.message.senderId
  puzzleId := some req.puzzleId
  roundId := some info.roundId
  ticketId := some req.ticketId
  data := {
    ticketId := req.ticketId
    puzzleId := some req.puzzleId
    puzzleTitle := some info.puzzleTitle }

/-- The refusal that the access to the feature means. -/
def accessRefused : PlayerFeatureAccess → Option OpenPuzzleTicketResult
  | .open => none
  | .existingOnly => some .featureExistingOnly
  | .gameClosed => some .featureClosed
  | .teamFeatureBanned => some .teamFeatureBanned

/-- The check of the feature: only players are refused. -/
def checkAccess (req : OpenRequest) (gameId : Id) : Call (Option OpenPuzzleTicketResult) :=
  match req.message.senderType with
  | .team => do
    let access ← Tx.query t .stmt (selectAccess req.teamId gameId)
    return accessRefused (.fromValue (access.getD 0))
  | _ => return none

/-- The writes of `open_puzzle_ticket`. -/
def writeTicket (req : OpenRequest) (info : TicketAvailability) :
    Call (Bool × Option OpenPuzzleTicketResult) := do
  Tx.query t .stmt (insertTicket cfg req)
  insertTicketMessageConn cfg t req.ticketId req.messageId req.message
  Tx.query t .stmt (insertOperation req.ticketId .opened req.message.senderId
    req.message.senderType (some req.messageId))
  Tx.query t .stmt (insertEvent (ticketOpenedEvent req info))
  return (true, none)

/-- The checks of `open_puzzle_ticket` once no ticket is pending. -/
def openAvailable (req : OpenRequest) : Call (Bool × Option OpenPuzzleTicketResult) := do
  match ← Tx.query t .stmt (selectAvailability cfg req.teamId req.puzzleId) with
  | none => return (false, some .disabled)
  | some info =>
    match ← checkAccess t req info.gameId with
    | some refused => return (false, some refused)
    | none =>
      if info.ticketEnabled = false then return (false, some .disabled)
      else if info.cooldownReady = false then return (false, some .cooldown)
      else writeTicket cfg t req info

/-- The transaction of `open_puzzle_ticket`. -/
def openBody (req : OpenRequest) : Call (Bool × Option OpenPuzzleTicketResult) := do
  Tx.query t .stmt (lockTeam req.teamId)
  match ← Tx.query t .stmt (pendingExists cfg req.teamId) with
  | true => return (false, some .pendingExists)
  | false => openAvailable cfg t req

/-- Who reads the thread of a ticket just opened. -/
def openerInfo (senderType : RbTicketSenderType) : TicketUserInfo where
  memberAccess := match senderType with | .team => true | _ => false
  modAccess := match senderType with | .host => true | _ => false
  adminAccess := false

/-- `open_puzzle_ticket`. -/
def openPuzzleTicket (req : OpenRequest) : Call OpenPuzzleTicketResult := do
  match ← Tx.transaction t .stmt (openBody cfg t req) with
  | some refused => return refused
  | none =>
    match ← Tx.pool t .stmt (.read fun v now =>
        .ok (cfg.ticketThread v now req.ticketId (openerInfo req.message.senderType))) with
    | none => throw "Opened ticket not found"
    | some thread => return .ok thread

end Open

end Helpdesk
