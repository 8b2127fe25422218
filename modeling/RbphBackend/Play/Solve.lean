import RbphBackend.Play.Unlock

set_option relaxedAutoImplicit false
set_option autoImplicit false

/-!
# Solving a puzzle

The statements that solve a puzzle and finish the game, and `solve_backend_puzzle`, with which a
backend function solves its own puzzle for a submission. The records of `rb_ticket_operation`,
which no call reads, are left out.

## Main definitions

* `Play.setSolved`, `Play.setFinished`, `Play.closePuzzleTicketsOnSolve` — the statements.
* `Play.solveBackendPuzzle` — the call.
-/

namespace Play

open Concurrency ReadCommitted Numeric Database Currency

/-! ## Statements -/

/-- What `fetch_one` fails with. -/
def rowNotFound : String :=
  "no rows returned by a query that expected to return at least one row"

/-- `SELECT id FROM rb_team WHERE id = $1 FOR UPDATE`. -/
def lockTeam (team : Id) : Statement Unit := fun v _ =>
  .ok { val := (), puts := if (v (.team team)).isSome then [lockRow v (.team team)] else [] }

/-- `UPDATE rb_team_puzzle SET state = 1, solve_at = NOW() WHERE .. AND state = 0`; it returns
whether there was a row to update. -/
def setSolved (team puzzle : Id) : Statement Bool := fun v now =>
  match v (.teamPuzzle team puzzle) with
  | some tp =>
    if tp.state = 0 then .ok {
      val := true
      puts := [⟨.teamPuzzle team puzzle, some { tp with state := 1, solveAt := some now }⟩] }
    else .ok { val := false }
  | none => .ok { val := false }

/-- `UPDATE rb_team SET finish_at = COALESCE(finish_at, NOW()) WHERE .. AND start_at IS NOT NULL`. -/
def setFinished (team : Id) : Statement Unit := fun v now =>
  match v (.team team) with
  | some tm =>
    if tm.startAt.isSome then .ok {
      val := ()
      puts := [⟨.team team, some { tm with finishAt := some (tm.finishAt.getD now) }⟩] }
    else .ok { val := () }
  | none => .ok { val := () }

/-- A ticket of the team and the puzzle that is not closed. -/
def Ticket.isOpen (team puzzle : Id) (ticket : Ticket) : Bool :=
  ticket.teamId = team && ticket.puzzleId = some puzzle && ticket.state ≠ 0

/-- `close_puzzle_tickets_on_solve_conn`. -/
def closePuzzleTicketsOnSolve (cfg : Config) (team puzzle : Id) : Statement Unit := fun v _ => .ok {
  val := ()
  puts := cfg.ticketIds.filterMap fun id =>
    match v (.ticket id) with
    | some ticket =>
      if Ticket.isOpen team puzzle ticket then some ⟨.ticket id, some { ticket with state := 0 }⟩
      else none
    | none => none }

/-! ## The call -/

section Call

variable (cfg : Config) (t : Tid) (team user puzzle submission : Id)

/-- `SELECT .. FROM rb_submission WHERE id = .. FOR UPDATE`. -/
def selectSubmission : Statement (Option Submission) := fun v _ =>
  match (v (.submissions team puzzle)).find? (·.id = submission) with
  | none => .ok { val := none }
  | some s => .ok { val := some s, puts := [lockRow v (.submissions team puzzle)] }

/-- The transaction: whether it has solved the puzzle, and the action of the submission. -/
def solveBackendBody : Call (Bool × Bool × ℤ) := do
  Tx.query t .stmt (lockTeam team)
  match ← Tx.query t .stmt (selectSubmission team puzzle submission) with
  | none => throw rowNotFound
  | some s =>
    let solved ← Tx.query t (.solveBackend team puzzle submission) (setSolved team puzzle)
    when (s.saction = RbJudgeAction.finishGame.code) (Tx.query t .stmt (setFinished team))
    when (solved = true) do
      Tx.query t .stmt (markTeamDirty team)
      Tx.query t .stmt (closePuzzleTicketsOnSolve cfg team puzzle)
    return (true, solved, s.saction)

def backendSolvedEvent (info : Release.PuzzleRow) : EventLogInput where
  eventType := "puzzle.backend_solved"
  gameId := some info.gameId
  teamId := some team
  userId := some user
  puzzleId := some puzzle
  submissionId := some submission
  data := .submission info.id info.title submission none

/-- What follows a commit that has solved the puzzle. -/
def afterBackendSolve (action : ℤ) : Call Unit := do
  Tx.pool t .stmt (updateTeam team true)
  (match cfg.puzzle puzzle with
    | none => pure ()
    | some info => Tx.pool t .stmt (insertEvent (backendSolvedEvent team user puzzle submission info)))
  when (action = RbJudgeAction.finishGame.code) (Tx.pool t .stmt (updateTeam team false))
  let _ ← unlockNewPuzzles cfg t team

/-- `solve_backend_puzzle`. -/
def solveBackendPuzzle : Call Bool := do
  let (solved, action) ← Tx.transaction t .stmt (solveBackendBody cfg t team puzzle submission)
  when (solved = true) (afterBackendSolve cfg t team user puzzle submission action)
  return solved

end Call

end Play
