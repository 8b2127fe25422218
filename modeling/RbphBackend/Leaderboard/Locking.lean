import RbphBackend.Concurrency.Deferred
import RbphBackend.Release.Features

set_option relaxedAutoImplicit false
set_option autoImplicit false

/-!
# Locking the leaderboard

The board of a game is locked and opened again by changes of its feature, each a transaction of
several statements, while teams solve puzzles and finish, and while snapshots are built by four
statements that are no transaction.

## Main definitions

* `BoardLock.fetchTeams`, `BoardLock.buildSnapshot` — the snapshots.
* `BoardLock.lockLeaderboardConn`, `BoardLock.setStateConn`,
  `BoardLock.setManualState`, `BoardLock.applyPhaseChanges` — the changes.
* `BoardLock.TeamEdit` — what other transactions may do to the board.
* `BoardLock.Steady` — each read finds the lock as the read before it found it.

## Main results

* `BoardLock.release_lockLeaderboardConn` — the statements of a lock make up the one step
  of `Release.lockLeaderboardConn`.
-/

namespace BoardLock

open Concurrency Deferred
open Leaderboard (Id LeaderBoardSnapshot LeaderBoardTeamInfo LockTeamRow Tables assemble isLocked
  joinMembers lockedAt memberRows teamRows)
open Release (FeatureDb FeatureChangeData FeatureChangeRow FeatureHistoryRow FeatureRow GameFeature
  rankedRows)

/-! ## The store -/

/-- The rows a statement waits for. -/
inductive Lock where
  | feature (game : Id) (featureType : ℤ)
  | leaderboardLock (game : Id)
  deriving DecidableEq

/-- The actions a condition on a run may speak of: the read of the teams, with what the first read
has found, and the read of the lock's time, with what it was when the teams were read. -/
inductive Label where
  | stmt
  | readTeams (game : Id) (locked : Bool)
  | readLockedAt (game : Id) (seen : Option ℤ)
  deriving DecidableEq

abbrev Site := Store FeatureDb Lock

/-- The program of a call. -/
abbrev Call (α : Type) := Deferred.Call Label FeatureDb Lock α

/-! ## Snapshots -/

section Snapshots

variable (game : Id)

/-- `fetch_teams`. The second component is for the label of the last read only. -/
def fetchTeams : Call (List LeaderBoardTeamInfo × Option ℤ) := do
  let locked ← read .stmt fun d => isLocked d.board game
  let teams ← read (.readTeams game locked) fun d =>
    (teamRows d.board game locked, lockedAt d.board game)
  let members ← read .stmt fun d => memberRows d.board game
  return (joinMembers teams.1 members, teams.2)

def buildSnapshot (version : ℤ) : Call LeaderBoardSnapshot := do
  let data ← fetchTeams game
  let lockedAt ← read (.readLockedAt game data.2) fun d => lockedAt d.board game
  return assemble data.1 lockedAt version

end Snapshots

/-! ## Changes of features -/

/-- A change of the board's tables. -/
def onBoard (f : Tables → Tables) (d : FeatureDb) : FeatureDb := { d with board := f d.board }

/-- The lock of a game is inserted. -/
def insertLock (game : Id) (lockedAt : ℤ) (board : Tables) : Tables :=
  { board with leaderboardLock := Function.update board.leaderboardLock game (some lockedAt) }

/-- Rows of `rb_leaderboard_lock_team` are inserted. -/
def insertLockTeams (rows : List LockTeamRow) (board : Tables) : Tables :=
  { board with leaderboardLockTeam := board.leaderboardLockTeam ++ rows }

section Changes

variable (t : Tid) (game : Id)

/-- The insertion does nothing where the game has a lock, and it waits while another transaction
inserts or deletes one. -/
def lockLeaderboardConn (lockedAt : ℤ) : Call Unit := do
  let inserted ← query t .stmt [.leaderboardLock game] fun d =>
    if isLocked d.board game then .ok (false, id)
    else .ok (true, onBoard (insertLock game lockedAt))
  if inserted then
    query t .stmt [] fun d => .ok ((), onBoard (insertLockTeams (rankedRows d.board game)))
  else return ()

/-- `DELETE FROM rb_leaderboard_lock`. -/
def deleteLock : Call Unit :=
  query t .stmt [.leaderboardLock game] fun _ =>
    .ok ((), onBoard fun board => Release.unlockLeaderboard board game)

/-- The leaderboard's part of a change. -/
def changeBoard (change : FeatureChangeData) (effectiveAt : ℤ) : Call Unit :=
  match change.feature, change.state with
  | .leaderboard, .locked => lockLeaderboardConn t game effectiveAt
  | .leaderboard, .live => deleteLock t game
  | .leaderboard, _ => throw "Invalid leaderboard state"
  | _, _ => return ()

/-- The currencies' part of a change. -/
def changeCurrencies (change : FeatureChangeData) (differs : Bool) (effectiveAt : ℤ) : Call Unit :=
  if differs ∧ change.feature = .currency then
    query t .stmt [] fun d =>
      (Release.changeCurrencies d game change differs effectiveAt).map fun _ => ((), fun d => { d with
        teamCurrencies := (Release.changeCurrencies d game change differs effectiveAt).toOption.getD
          d.teamCurrencies })
  else return ()

/-- The phase has made this change before. -/
def phaseApplied (phaseId : Option Id) (featureType : ℤ) : Call Bool :=
  match phaseId with
  | none => return false
  | some phase => query t .stmt [] fun d => .ok (Release.inHistory d phase featureType, id)

/-- `SELECT state FROM rb_game_feature .. FOR UPDATE`. -/
def selectState (featureType : ℤ) : Call ℤ :=
  query t .stmt [.feature game featureType] fun d =>
    match d.features game featureType with
    | none => .error "no rows returned by a query that expected to return at least one row"
    | some old => .ok (old.state, id)

def updateFeature (featureType : ℤ) (row : FeatureRow) : Call Unit :=
  query t .stmt [] fun _ => .ok ((), fun d => { d with
    features := Function.update d.features game
      (Function.update (d.features game) featureType (some row)) })

def insertHistory (row : FeatureHistoryRow) : Call Unit :=
  query t .stmt [] fun _ => .ok ((), fun d => { d with history := d.history ++ [row] })

def setStateConn (change : FeatureChangeData) (phaseId actorId : Option Id) (effectiveAt : ℤ) :
    Call Bool :=
  let featureType := change.feature.value
  match change.feature.encodeState change.state with
  | none => throw "Invalid game feature state"
  | some target => do
    if ← phaseApplied t phaseId featureType then return false
    else
      let old ← selectState t game featureType
      changeBoard t game change effectiveAt
      changeCurrencies t game change (decide (old ≠ target)) effectiveAt
      updateFeature t game featureType ⟨target, phaseId, effectiveAt⟩
      insertHistory t ⟨game, featureType, old, target, phaseId, actorId, effectiveAt⟩
      return (decide (old ≠ target) || change.feature = .leaderboard)

/-- `set_manual_state`. -/
def setManualState (change : FeatureChangeData) (actor : Id) (effectiveAt : ℤ) :
    Call (Option Bool) :=
  if Release.validChange change then
    transaction t .stmt do
      if ← query t .stmt [] fun d => .ok (decide (game ∈ d.games), id) then
        let changed ← setStateConn t game change none (some actor) effectiveAt
        return (true, some changed)
      else return (false, none)
  else return none

/-- One of a phase's changes. -/
def applyRow (phase : Id) (effectiveAt : ℤ) (row : FeatureChangeRow) : Call Bool :=
  match GameFeature.fromValue row.featureType with
  | none => throw "Invalid game feature"
  | some feature =>
    match feature.decodeState row.targetState with
    | none => throw "Invalid game feature state"
    | some state => setStateConn t game ⟨feature, state⟩ (some phase) none effectiveAt

def applyRows (phase : Id) (effectiveAt : ℤ) : List FeatureChangeRow → Call Bool
  | [] => return false
  | row :: rows => do
    let changed ← applyRow t game phase effectiveAt row
    let leaderboardChanged ← applyRows phase effectiveAt rows
    return ((changed && row.featureType = GameFeature.leaderboard.value) || leaderboardChanged)

/-- The changes of a phase; its primary key has one of each feature. -/
structure PhaseChanges where
  rows : List FeatureChangeRow
  nodup : (rows.map (·.featureType)).Nodup

/-- `apply_phase_changes`. -/
def applyPhaseChanges (phase : Id) (effectiveAt : ℤ) (changes : PhaseChanges) : Call Bool :=
  transaction t .stmt do
    let leaderboardChanged ← applyRows t game phase effectiveAt changes.rows
    return (true, leaderboardChanged)

end Changes

/-! ## Other transactions -/

/-- A statement on the board's tables that neither locks nor opens a board: it may delete frozen
teams, as the deletion of a team does. -/
structure TeamEdit where
  run : Tables → Tables
  lock : ∀ board, (run board).leaderboardLock = board.leaderboardLock
  teams : ∀ board, (run board).leaderboardLockTeam ⊆ board.leaderboardLockTeam

/-- `UPDATE rb_team_puzzle SET state = 1, solve_at = NOW()` of a puzzle that is not solved. -/
def solve (team puzzle : Id) (now : ℤ) : TeamEdit where
  run board := { board with
    teamPuzzle := board.teamPuzzle.map fun tp =>
      if tp.teamId = team ∧ tp.puzzleId = puzzle ∧ tp.state = 0 then
        { tp with state := 1, solveAt := some now }
      else tp }
  lock _ := rfl
  teams _ := List.Subset.refl _

/-- `UPDATE rb_team SET finish_at = COALESCE(finish_at, NOW())` of a team that has started. -/
def finish (team : Id) (now : ℤ) : TeamEdit where
  run board := { board with
    team := board.team.map fun tm =>
      if tm.id = team ∧ tm.startAt.isSome then
        { tm with finishAt := some (tm.finishAt.getD now) }
      else tm }
  lock _ := rfl
  teams _ := List.Subset.refl _

/-- The statements of a transaction. -/
def runEdits (t : Tid) : List TeamEdit → Call Unit
  | [] => return ()
  | edit :: edits => do
    query t .stmt [] fun _ => .ok ((), onBoard edit.run)
    runEdits t edits

/-- A transaction of such statements. -/
def update (t : Tid) (edits : List TeamEdit) : Call Unit :=
  transaction t .stmt do
    runEdits t edits
    return (true, ())

/-! ## The pool -/

inductive Request where
  | buildSnapshot (game : Id) (version : ℤ)
  | setManualState (game : Id) (change : FeatureChangeData) (actor : Id) (effectiveAt : ℤ)
  | applyPhaseChanges (game phase : Id) (effectiveAt : ℤ) (changes : PhaseChanges)
  | update (edits : List TeamEdit)

inductive Reply where
  | snapshot (snapshot : LeaderBoardSnapshot)
  | stateChanged (changed : Option Bool)
  | phaseApplied (leaderboardChanged : Bool)
  | updated

/-- The program of a request. -/
def Request.run (t : Tid) : Request → Call Reply
  | .buildSnapshot game version => do
    let snapshot ← BoardLock.buildSnapshot game version
    return .snapshot snapshot
  | .setManualState game change actor effectiveAt => do
    let changed ← BoardLock.setManualState t game change actor effectiveAt
    return .stateChanged changed
  | .applyPhaseChanges game phase effectiveAt changes => do
    let leaderboardChanged ← BoardLock.applyPhaseChanges t game phase effectiveAt changes
    return .phaseApplied leaderboardChanged
  | .update edits => do
    BoardLock.update t edits
    return .updated

/-- The pool that runs the requests on a database. -/
def site (requests : Tid → Request) (d : FeatureDb) :
    Concurrency.Config Label Site (Except String Reply) :=
  ⟨.idle d, fun t => ((requests t).run t).run⟩

/-- Nothing changes by itself. -/
def Still : Site → Site → Prop := fun _ _ => False

/-- **Each read finds the lock as the read before it found it**: the board is locked or open as it
was at the first read when the teams are read, and its lock is the same when its time is read. -/
def Steady (_ : Tid) : Label → Site → Prop
  | .stmt, _ => True
  | .readTeams game locked, s => isLocked s.committed.board game = locked
  | .readLockedAt game seen, s => lockedAt s.committed.board game = seen

instance (t : Tid) (l : Label) (s : Site) : Decidable (Steady t l s) :=
  match l with
  | .stmt => instDecidableTrue
  | .readTeams .. => inferInstanceAs (Decidable (_ = _))
  | .readLockedAt .. => inferInstanceAs (Decidable (_ = _))

/-! ## The statements of a lock -/

/-- Without what others commit between them, the statements of a lock leave the tables that
`Release.lockLeaderboardConn` leaves. -/
theorem release_lockLeaderboardConn (board : Tables) (game : Id) (lockedAt : ℤ) :
    Release.lockLeaderboardConn board game lockedAt =
      if isLocked board game then board
      else insertLockTeams (rankedRows (insertLock game lockedAt board) game)
        (insertLock game lockedAt board) := rfl

end BoardLock
