import RbphBackend.Helpdesk.Calls

set_option relaxedAutoImplicit false
set_option autoImplicit false

/-!
# Requests to send a message

Before its handler runs, the middleware of a request reads the ticket: its state, and who the user is
to it. The handler checks the message and what was read, and sends the message.

## Main definitions

* `Helpdesk.getTicketUserInfo` — what the middleware reads.
* `Helpdesk.doSendTicketMessage` — the handler.
* `Helpdesk.sendRequest` — the request.
* `Helpdesk.TicketCall` — the calls a pool may make.
-/

namespace Helpdesk

open Concurrency ReadCommitted Numeric Threads

/-! ## The request -/

/-- `TicketSendRequest`. -/
structure TicketSendRequest where
  content : String
  contentType : RbContentType
  senderType : RbTicketSenderType
  costId : Option Id
  costAmount : BigInt
  unlockAfterSeconds : ℤ
  forceAssignee : Bool

/-- The validation of the fields: the number of characters of the content. -/
def TicketSendRequest.validate (req : TicketSendRequest) : Bool :=
  decide (1 ≤ req.content.length ∧ req.content.length ≤ 1000)

/-- `AuthUser`: the user, with the role the session was checked to have. -/
structure AuthUser where
  uid : Id
  role : Option ℤ

/-- `RbUserRole::is_moderator`. -/
def isModerator (role : ℤ) : Bool := decide (role = 2 ∨ role = 3 ∨ role = 4)

/-- `RbUserRole::is_admin`. -/
def isAdmin (role : ℤ) : Bool := decide (role = 3 ∨ role = 4)

/-- `RbContentType::is_trusted`. -/
def isTrusted : RbContentType → Bool
  | .markdown | .html => true
  | .unsafeMarkdown | .invalid => false

/-- `TicketUserInfo`: the ticket as the middleware has read it. -/
structure LoadedInfo extends TicketUserInfo where
  ticketId : Id
  state : RbTicketState

/-- How a request ends. -/
inductive SendOutcome where
  | notFound
  | forbidden
  | closed
  | invalid
  | badContentType
  | badCost
  | pendingExists
  | assignedToOther (assignee : TicketAggreInfoUser)
  | blocked (block : TicketSendBlock)
  | ok (message : TicketMessage)
  deriving DecidableEq

section Handler

variable (cfg : Config) (t : Tid)

/-- `get_ticket_user_info`. -/
def getTicketUserInfo (ticketId userId : Id) : Statement (Option LoadedInfo) :=
  .read fun v _ => .ok do
    let tk ← v (.ticket ticketId)
    let u ← v (.user userId)
    some
      { ticketId := ticketId
        state := .fromPrimitive tk.state
        memberAccess := v (.teamMember tk.teamId userId)
        modAccess := isModerator u.urole
        adminAccess := isAdmin u.urole }

/-- `player_ticket_feature_access`. -/
def playerTicketFeatureAccess (ticketId : Id) : Statement PlayerFeatureAccess :=
  .read fun v now =>
    let value : Option ℤ := do
      let tk ← v (.ticket ticketId)
      let team ← v (.team tk.teamId)
      let featureType := if tk.puzzleId.isNone then 1 else 2
      let feature := (v (.gameFeature team.gameId featureType)).getD 2
      some <|
        if (v (.teamFeature tk.teamId featureType)).getD true = false then -2
        else if feature = 0 then 0
        else if ¬ (tk.puzzleId.isNone ∨ (tk.puzzleId.bind cfg.puzzle).any fun p =>
            (cfg.effectiveRelease p).any fun releaseAt => decide (releaseAt ≤ now)) then 0
        else feature
    .ok (.fromValue (value.getD 0))

/-- `normalize_unlock_values`: the request with a cost that can be asked, if there is one. -/
def TicketSendRequest.normalizeUnlockValues (req : TicketSendRequest) : Option TicketSendRequest :=
  if req.costAmount.val < 0 ∨ req.unlockAfterSeconds < 0 then none
  else
    let costId := if req.costAmount.val = 0 then none else req.costId
    if req.costAmount.val ≠ 0 ∧ costId.isNone then none
    else if req.senderType ≠ .host ∧ (costId.isSome ∨ 0 < req.unlockAfterSeconds) then none
    else some { req with costId := costId }

/-- The currency is one that the team sees. -/
def selectCostValid (teamId currency : Id) : Statement Bool :=
  .read fun v _ => .ok <|
    match v (.teamCurrency teamId currency), cfg.currencyGame currency, v (.team teamId) with
    | some hidden, some game, some team =>
      !hidden && decide (team.gameId = game) && decide (v (.gameFeature game 4) = some 1)
    | _, _, _ => false

/-- `SELECT team_id FROM rb_ticket`. -/
def selectTeamId (ticketId : Id) : Statement Id :=
  .read fun v _ =>
    match v (.ticket ticketId) with
    | some tk => .ok tk.teamId
    | none => .error "no rows returned by a query that expected to return at least one row"

/-- `normalize_unlock_requirements`. -/
def normalizeUnlockRequirements (req : TicketSendRequest) (teamId : Id) :
    Call (Option TicketSendRequest) :=
  match req.normalizeUnlockValues with
  | none => return none
  | some req =>
    match req.costId with
    | none => return some req
    | some currency => do
      match ← Tx.pool t .stmt (selectCostValid cfg teamId currency) with
      | true => return some req
      | false => return none

/-- The data of the message that a request asks to send. -/
def TicketSendRequest.data (req : TicketSendRequest) (user : AuthUser) : SendMessageData where
  content := req.content
  contentType := req.contentType
  senderId := user.uid
  senderType := req.senderType
  costId := req.costId
  costAmount := req.costAmount
  unlockAfterSeconds := req.unlockAfterSeconds

/-- The user may send messages of this kind. -/
def LoadedInfo.accessible (info : LoadedInfo) : RbTicketSenderType → Bool
  | .team => info.memberAccess
  | .host => info.modAccess
  | .invalid => false

/-- The answer to what `send_ticket_message` returns. -/
def SendTicketMessageResult.outcome : SendTicketMessageResult → SendOutcome
  | .ok message => .ok message
  | .pending => .pendingExists
  | .assigned assignee => .assignedToOther assignee

/-- The handler refuses closed tickets to this sender. -/
def refusesClosed (admin : Bool) (senderType : RbTicketSenderType) : Bool :=
  !admin && decide (senderType = .team)

/-- The checks of what the request says and of what the middleware has read. -/
def checkSend (info : LoadedInfo) (admin : Bool) (req : TicketSendRequest) : Option SendOutcome :=
  if admin = false ∧ isTrusted req.contentType = true then some .badContentType
  else if refusesClosed admin req.senderType = true ∧ info.state = .closed then some .closed
  else none

/-- The end of the handler, once the message is checked: what it reads of the ticket to answer with,
after the message has been sent, is left out. -/
def sendChecked (info : LoadedInfo) (user : AuthUser) (admin : Bool) (req : TicketSendRequest)
    (maxPending : Option ℤ) (id : Id) : Call SendOutcome := do
  let teamId ← Tx.pool t .stmt (selectTeamId info.ticketId)
  match ← normalizeUnlockRequirements cfg t req teamId with
  | none => return .badCost
  | some req =>
    let result ← sendTicketMessage cfg t
      (.lockForSend info.ticketId (refusesClosed admin req.senderType)) info.ticketId id
      (req.data user) maxPending req.forceAssignee
    return result.outcome

/-- The check of the feature: only players are refused. -/
def checkFeature (info : LoadedInfo) (req : TicketSendRequest) : Call TicketSendBlock :=
  match req.senderType with
  | .team => do
    let access ← Tx.pool t .stmt (playerTicketFeatureAccess cfg info.ticketId)
    return access.sendBlock true
  | _ => return .ok

/-- `do_send_ticket_message`. -/
def doSendTicketMessage (info : LoadedInfo) (user : AuthUser) (req : TicketSendRequest)
    (maxPending : Option ℤ) (id : Id) : Call SendOutcome := do
  if info.accessible req.senderType = false then return .forbidden
  else
    match ← checkFeature cfg t info req with
    | .ok =>
      if req.validate = false then return .invalid
      else
        match user.role with
        | none => throw "Missing user role"
        | some role =>
          match checkSend info (isAdmin role) req with
          | some refused => return refused
          | none => sendChecked cfg t info user (isAdmin role) req maxPending id
    | block => return .blocked block

/-- What a request is made of; `id` is what the sequence gives its message. -/
structure SendCall where
  ticketId : Id
  user : AuthUser
  req : TicketSendRequest
  maxPending : Option ℤ
  id : Id

/-- The request: the middleware reads the ticket, and lets members and the staff through. -/
def sendRequest (call : SendCall) : Call SendOutcome := do
  match ← Tx.pool t .stmt (getTicketUserInfo call.ticketId call.user.uid) with
  | none => return .notFound
  | some info =>
    if info.memberAccess = false ∧ info.modAccess = false then return .notFound
    else doSendTicketMessage cfg t info call.user call.req call.maxPending call.id

end Handler

/-! ## The calls of a pool -/

/-- A call about tickets. -/
inductive TicketCall where
  | openTicket (req : OpenRequest)
  | closeTicket (req : CloseRequest)
  | solve (teamId puzzleId actorId : Id)
  | send (ticketId id : Id) (data : SendMessageData) (maxPending : Option ℤ) (forceAssignee : Bool)
  | request (call : SendCall)

/-- What a call answers. -/
inductive TicketAnswer where
  | opened (result : OpenPuzzleTicketResult)
  | closed (result : CloseTicketResult)
  | solved
  | sent (result : SendTicketMessageResult)
  | answered (outcome : SendOutcome)
  deriving DecidableEq

/-- The program of a call. -/
def TicketCall.run (cfg : Config) (t : Tid) : TicketCall → Call TicketAnswer
  | .openTicket req => do
    let result ← openPuzzleTicket cfg t req
    return .opened result
  | .closeTicket req => do
    let result ← Helpdesk.closeTicket cfg t req
    return .closed result
  | .solve teamId puzzleId actorId => do
    solvePuzzle cfg t teamId puzzleId actorId
    return .solved
  | .send ticketId id data maxPending forceAssignee => do
    let result ← sendTicketMessage cfg t (.lockForSend ticketId false) ticketId id data maxPending
      forceAssignee
    return .sent result
  | .request call => do
    let outcome ← sendRequest cfg t call
    return .answered outcome

end Helpdesk
