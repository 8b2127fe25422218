import RbphBackend.EventLog.Activity
import RbphBackend.Helpdesk.Calls

set_option relaxedAutoImplicit false
set_option autoImplicit false

/-!
# Tickets in the activity of a team

The events of tickets that are opened and closed, as rows of the log. The data of a closing say
whether it was done as staff, those of an opening do not, so that players are shown who of the staff
has opened a ticket for them.

## Main definitions

* `EventLog.ticketRow` — the row of an event about a ticket.

## Main results

* `EventLog.ticketEvents_shown` — whom players are shown to have opened or closed a ticket.
-/

namespace EventLog

open Games Helpdesk Threads

/-! ## Rows -/

/-- `i16::from` of a scope. -/
def scopeCode : Database.EventScope → ℤ
  | .teamActivity => 1
  | .system => 2
  | .admin => 3
  | .security => 4

/-- `i16::from` of a severity. -/
def severityCode : Database.EventSeverity → ℤ
  | .info => 0
  | .warning => 1
  | .error => 2

/-- A value that may be missing. -/
def orNull {α : Type} (f : α → Value) (a : Option α) : Value := a.elim .null f

/-- The data of an event about a ticket. -/
def ticketData (data : TicketEventData) : Fields :=
  (data.staff.elim [] fun staff => [("staff", .bool staff)]) ++
    [("ticket", .object [("id", .int data.ticketId)]),
      ("puzzle", .object [("id", orNull (fun id : Id => .int id) data.puzzleId),
        ("title", orNull .string data.puzzleTitle)])]

/-- The row that `insert_conn` inserts; `id` is what the sequence gives. -/
def ticketRow (id : Id) (now : ℤ) (event : EventLogInput) : EventLogData where
  id := id
  eventType := event.eventType
  scope := scopeCode event.eventScope
  severity := severityCode event.severity
  gameId := event.gameId
  teamId := event.teamId
  userId := event.userId
  targetUserId := none
  puzzleId := event.puzzleId
  roundId := event.roundId
  hintId := none
  ticketId := event.ticketId
  submissionId := none
  currencyId := none
  deltaAmount := none
  data := ticketData event.data
  ctimeAt := now

lemma isStaff_ticketRow (id : Id) (now : ℤ) (event : EventLogInput) :
    (ticketRow id now event).isStaff = event.data.staff.getD false := by
  rw [EventLogData.isStaff, ticketRow, ticketData]
  cases event.data.staff <;> rfl

/-! ## What is shown -/

section Shown

variable {db : Db} {now at₀ : ℤ} {team id u : Id} {i : RbGameStaffIdentity} {event : EventLogInput}

/-- The user in the data. -/
def userValue (user : Id) (nickname : String) : Value :=
  .object [("id", .int user), ("nickname", .string nickname)]

/-- What is shown of an event has its user, with the nickname. -/
lemma lookup_user_shown {r : EventLogData} {nickname : String} (hu : r.userId = some u)
    (hnickname : db.nickname u = some nickname) :
    (db.shown r).data.lookup "user" = some (userValue u nickname) := by
  rw [Db.shown, lookup_concat fun p hp => key_of_mem_userField hp ▸ by decide, hu, Db.userOf,
    Option.bind_some, hnickname]
  exact (lookup_insertKey _ _ _ _).trans (if_pos rfl)

/-- Whom players are shown on the page of an event about a ticket. -/
lemma ticketRow_shown (hr : ticketRow id at₀ event ∈ db.rows)
    (hsel : db.selects now team none (ticketRow id at₀ event) = true) (hu : event.userId = some u) :
    ∃ nickname e, db.nickname u = some nickname ∧
      getSelfActivity db now team none (some i) false (some (id + 1)) (some 1) = [e] ∧
      (event.data.staff = some true → e.userId = some staffAliasUserId ∧
        e.data.lookup "user" = some (userValue staffAliasUserId i.nickname)) ∧
      (event.data.staff ≠ some true → e.userId = some u ∧
        e.data.lookup "user" = some (userValue u nickname)) := by
  obtain ⟨nickname, hnickname⟩ := Option.isSome_iff_exists.1 ((db.refers _ hr).1 u hu)
  have hpage : Paging.Feed.page EventLogData.id 1 (db.activity now team none) (some (id + 1)) =
      [ticketRow id at₀ event] :=
    Paging.Feed.page_one (activity_nodup db now) (List.mem_filter.2 ⟨hr, hsel⟩)
  refine ⟨nickname, (db.shown (ticketRow id at₀ event)).anonymizeStaff i, hnickname, ?_, ?_, ?_⟩
  · rw [getSelfActivity, listTeamActivity, show clampLimit ((some 1).getD 30) = 1 from rfl]
    exact congrArg (fun l => (l.map db.shown).map (EventLogData.seen (some i) false)) hpage
  · intro hstaff
    rw [EventLogData.anonymizeStaff, isStaff_shown, isStaff_ticketRow, hstaff, Option.getD_some,
      if_neg (by decide), show (db.shown (ticketRow id at₀ event)).userId = some u from hu]
    exact ⟨rfl, (lookup_insertKey _ _ _ _).trans (if_pos rfl)⟩
  · intro hstaff
    have hnot : event.data.staff.getD false = false := by
      cases hs : event.data.staff with
      | none => rfl
      | some staff =>
        cases staff with
        | false => rfl
        | true => exact absurd hs hstaff
    rw [EventLogData.anonymizeStaff, isStaff_shown, isStaff_ticketRow, hnot, if_pos rfl]
    exact ⟨hu, lookup_user_shown hu hnickname⟩

/-- The event is about no puzzle, or one that is released. -/
lemma selects_ticketRow (hteam : event.teamId = some team)
    (hscope : event.eventScope = .teamActivity) (htype : event.eventType ≠ "currency.penalty")
    (hreleased : db.released now (ticketRow id at₀ event) = true) :
    db.selects now team none (ticketRow id at₀ event) = true := by
  refine Db.selects_iff.2 ⟨⟨hteam, ?_⟩, .inl ⟨rfl, htype⟩, hreleased⟩
  rw [ticketRow, hscope]
  rfl

end Shown

/-- **Whom players are shown** where the game has a staff identity. Of an opening it is the one who
has opened the ticket, also where that is one of the staff who has opened it for them; of a closing
it is the identity where the staff has closed it, and else the one who has. -/
theorem ticketEvents_shown (db : Db) (now : ℤ) (i : RbGameStaffIdentity) :
    (∀ (id : Id) (at₀ : ℤ) (req : OpenRequest) (info : TicketAvailability),
      ticketRow id at₀ (ticketOpenedEvent req info) ∈ db.rows →
      db.released now (ticketRow id at₀ (ticketOpenedEvent req info)) = true →
      ∃ nickname e, db.nickname req.message.senderId = some nickname ∧
        getSelfActivity db now req.teamId none (some i) false (some (id + 1)) (some 1) = [e] ∧
        e.userId = some req.message.senderId ∧
        e.data.lookup "user" = some (userValue req.message.senderId nickname)) ∧
    ∀ (id : Id) (at₀ : ℤ) (req : CloseRequest) (info : CloseInfo),
      ticketRow id at₀ (ticketClosedEvent req info) ∈ db.rows →
      db.released now (ticketRow id at₀ (ticketClosedEvent req info)) = true →
      ∃ nickname e, db.nickname req.actorId = some nickname ∧
        getSelfActivity db now info.teamId none (some i) false (some (id + 1)) (some 1) = [e] ∧
        (req.actorType = .host → e.userId = some staffAliasUserId ∧
          e.data.lookup "user" = some (userValue staffAliasUserId i.nickname)) ∧
        (req.actorType ≠ .host → e.userId = some req.actorId ∧
          e.data.lookup "user" = some (userValue req.actorId nickname)) := by
  constructor
  · intro id at₀ req info hr hreleased
    obtain ⟨nickname, e, hnickname, hpage, -, hshown⟩ :=
      ticketRow_shown (i := i) hr (selects_ticketRow rfl rfl
        (show "ticket.opened" ≠ "currency.penalty" by decide) hreleased) rfl
    exact ⟨nickname, e, hnickname, hpage, hshown fun h => (by cases h)⟩
  · intro id at₀ req info hr hreleased
    obtain ⟨nickname, e, hnickname, hpage, hstaff, hother⟩ :=
      ticketRow_shown (i := i) hr (selects_ticketRow rfl rfl
        (show "ticket.closed" ≠ "currency.penalty" by decide) hreleased) rfl
    refine ⟨nickname, e, hnickname, hpage, fun htype => hstaff ?_, fun htype => hother ?_⟩
    · rw [ticketClosedEvent, htype]
    · rw [ticketClosedEvent]
      cases h : req.actorType with
      | host => exact absurd h htype
      | team | invalid => exact fun hsame => (by cases hsame)

end EventLog
