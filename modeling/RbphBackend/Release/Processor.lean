import RbphBackend.Leaderboard.Refresh
import RbphBackend.Release.Features

set_option relaxedAutoImplicit false
set_option autoImplicit false

/-!
# The release processor

Under an advisory lock a processor writes the events of the phases that are due and works through
the events that have not been notified: it applies the changes of the phase, invalidates the board
if its feature has changed, and marks the event as its last step. A process may stop between any two
of its actions, and with it goes its lock.

## Main definitions

* `Release.Server` — the shared state; `Release.Event` — what has happened to it.
* `Release.processDueReleases`, `Release.updateFeature` — the calls; `Release.Request` — these, and
  a stop.
* `Release.Changes` — what changes by itself.
-/

namespace Release

open Concurrency

/-! ## The shared state -/

/-- What happens: a history row is committed, a board is invalidated, clients are told. -/
inductive Event where
  | applied (t : Tid) (row : FeatureHistoryRow)
  | invalidated (game : Id)
  | told (game event : Id)
  deriving DecidableEq

/-- The database (which may be down), the cached boards of each process, the holder of the
processor's lock, and the threads that have been stopped. `hints` stands for the rows that the
hints of a team are refreshed in, and `log` is only written. -/
structure Server (H : Type) where
  db : FeatureDb
  tables : Tables
  featureChanges : List FeatureChangeRow
  refreshState : Id → Option Leaderboard.RefreshState
  boardCache : ℕ → Id → Option Leaderboard.LeaderBoardSnapshot
  contentBlocksDirty : Id → Bool
  hints : H
  now : ℤ
  dbUp : Bool
  lock : Option Tid
  stopped : Tid → Bool
  log : List Event

/-- The actions a condition on a run may speak of. -/
inductive Label where
  | step
  | invalidate
  | stop (t : Tid)
  deriving DecidableEq

/-- The program of a call. -/
abbrev ReleaseCall (H α : Type) := Fallible Label (Server H) α

/-! ## Actions -/

section Actions

variable {H α : Type} (t : Tid)

/-- An action of a thread that has not been stopped. -/
def act (l : Label) (f : Server H → Option (Except String α × Server H)) : ReleaseCall H α :=
  ExceptT.mk (.atomic l fun s => if s.stopped t then none else f s)

/-- A statement or a transaction. -/
def sql (l : Label) (f : Server H → Except String α × Server H) : ReleaseCall H α :=
  act t l fun s => some (if s.dbUp then f s else (.error "database unavailable", s))

/-- `pg_advisory_xact_lock`: it waits for the lock. -/
def acquireLock : ReleaseCall H Bool :=
  act t .step fun s =>
    if s.dbUp then if s.lock = none then some (.ok true, { s with lock := some t }) else none
    else some (.error "database unavailable", s)

/-- `try_acquire_process_lock`. -/
def tryAcquireProcessLock : ReleaseCall H Bool :=
  sql t .step fun s =>
    if s.lock = none then (.ok true, { s with lock := some t }) else (.ok false, s)

/-- The transaction that holds the lock ends. -/
def rollbackLock : ReleaseCall H Unit :=
  act t .step fun s => some (if s.dbUp then .ok () else .error "database unavailable",
    { s with lock := if s.lock = some t then none else s.lock })

end Actions

/-! ## The calls -/

section Calls

variable {H : Type} (refreshTeamHintEnablements : Id → H → Except String H) (server : ℕ) (t : Tid)

/-- The phases that are due, in the order of their release. -/
def duePhases (now : ℤ) (tables : Tables) : List ReleasePhase :=
  (tables.phases.filter fun rp => decide (rp.releaseAt ≤ now)).insertionSort
    fun a b => toLex (a.releaseAt, a.id) ≤ toLex (b.releaseAt, b.id)

/-- The insertion of the event of a phase; an id is drawn for a row that conflicts, too. -/
def insertPhaseEvent (tables : Tables) (rp : ReleasePhase) : Tables :=
  { tables with
    nextEvent := tables.nextEvent + 1
    events := tables.events ++
      if tables.events.any (·.phaseId = some rp.id) then []
      else [⟨tables.nextEvent, some rp.id, rp.releaseAt, none, rp.gameId, 0⟩] }

def materializeDue : ReleaseCall H Unit :=
  sql t .step fun s =>
    (.ok (), { s with tables := (duePhases s.now s.tables).foldl insertPhaseEvent s.tables })

def pendingNotifications : ReleaseCall H (List ReleaseEvent) :=
  sql t .step fun s => (.ok ((s.tables.events.filter (·.notifiedAt.isNone)).insertionSort
    fun a b => a.id ≤ b.id), s)

def applyPhaseChanges (game phase : Id) (effectiveAt : ℤ) : ReleaseCall H Bool := do
  let rows ← sql t .step fun s => (.ok ((s.featureChanges.filter (·.phaseId = phase)).insertionSort
    fun a b => a.featureType ≤ b.featureType), s)
  sql t .step fun s =>
    match applyRows game phase effectiveAt rows s.db with
    | .error e => (.error e, s)
    | .ok (leaderboardChanged, db) => (.ok leaderboardChanged, { s with
        db := db
        log := s.log ++ (db.history.drop s.db.history.length).map (.applied t) })

/-- `invalidate_game`, which is `mark_game_dirty`. -/
def invalidateGame (l : Label) (game : Id) : ReleaseCall H Unit := do
  sql t l fun s =>
    if game ∈ s.db.games then
      (.ok (), { s with
        refreshState := Function.update s.refreshState game
          (some ⟨((s.refreshState game).map (·.nextVersion)).getD 0, true⟩)
        log := s.log ++ [.invalidated game] })
    else (.error "rb_leaderboard_refresh_state_game_id_fkey", s)
  act t .step fun s => some (.ok (), { s with
    boardCache := Function.update s.boardCache server
      (Function.update (s.boardCache server) game none) })

/-- An event has released a puzzle that the team has. -/
def releasedTo (tables : Tables) (event : Id) (phase : Option Id) (team : Id) : Bool :=
  tables.teamPuzzles.any fun (tm, puzzle, state) =>
    tm = team && decide (0 ≤ state) && (tables.puzzles.any fun p =>
      p.id = puzzle && ((phase.isSome && p.releasePhaseId = phase) ||
        tables.eventPuzzleTeams.any fun r =>
          r.eventId = event && r.puzzleId = puzzle && r.teamId = team))

def markContentBlocksDirty (event : Id) (phase : Option Id) : ReleaseCall H Unit :=
  sql t .step fun s => (.ok (), { s with
    contentBlocksDirty := fun team =>
      s.contentBlocksDirty team || releasedTo s.tables event phase team })

def releasedTeamIds (event : Id) (phase : Option Id) : ReleaseCall H (List Id) :=
  sql t .step fun s => (.ok (((s.tables.teamPuzzles.map (·.1)).dedup.filter
    (releasedTo s.tables event phase)).insertionSort (· ≤ ·)), s)

/-- `refresh_team_hint_enablements` of a team. -/
def refreshHints (team : Id) : ReleaseCall H Unit :=
  sql t .step fun s =>
    match refreshTeamHintEnablements team s.hints with
    | .error e => (.error e, s)
    | .ok hints => (.ok (), { s with hints := hints })

def refreshAllHints : List Id → ReleaseCall H Unit
  | [] => return ()
  | team :: teams => do
    refreshHints refreshTeamHintEnablements t team
    refreshAllHints teams

def notifyGameReleaseUpdated (game event : Id) : ReleaseCall H Unit :=
  act t .step fun s => some (.ok (), { s with log := s.log ++ [.told game event] })

def markNotified (event : Id) : ReleaseCall H Unit :=
  sql t .step fun s => (.ok (), { s with
    tables := { s.tables with
      events := s.tables.events.map fun re =>
        if re.id = event ∧ re.notifiedAt = none then { re with notifiedAt := some s.now }
        else re } })

/-- The changes of an event's phase, if it is of one. -/
def applyEvent (event : ReleaseEvent) : ReleaseCall H Unit :=
  match event.phaseId with
  | none => return ()
  | some phase => do
    if ← applyPhaseChanges t event.gameId phase event.occurredAt then
      invalidateGame server t .invalidate event.gameId
    else return ()

/-- One round of the processor's loop. -/
def processEvent (event : ReleaseEvent) : ReleaseCall H Unit := do
  applyEvent server t event
  markContentBlocksDirty t event.id event.phaseId
  let teams ← releasedTeamIds t event.id event.phaseId
  refreshAllHints refreshTeamHintEnablements t teams
  notifyGameReleaseUpdated t event.gameId event.id
  markNotified t event.id

def processEvents : List ReleaseEvent → ReleaseCall H Unit
  | [] => return ()
  | event :: events => do
    processEvent refreshTeamHintEnablements server t event
    processEvents events

def processDueReleasesLocked : ReleaseCall H Unit := do
  materializeDue t
  let pending ← pendingNotifications t
  processEvents refreshTeamHintEnablements server t pending

/-- Give back the lock, however the body has ended; the body's error comes first. -/
def underLock (body : ReleaseCall H Unit) : ReleaseCall H Unit :=
  ExceptT.mk (body.run.bind fun result => (rollbackLock t).run.bind fun released =>
    .ret (match result with
      | .ok () => released
      | .error e => .error e))

/-- `process_due_releases`, or `process_due_releases_wait`. -/
def processDueReleases (wait : Bool) : ReleaseCall H Unit := do
  let locked ← if wait then acquireLock t else tryAcquireProcessLock t
  if locked then underLock t (processDueReleasesLocked refreshTeamHintEnablements server t)
  else rollbackLock t

/-- An administrator's change of a feature; the instant is that of the request's clock. -/
def updateFeature (game : Id) (change : FeatureChangeData) (actor : Id) : ReleaseCall H Unit := do
  processDueReleases refreshTeamHintEnablements server t true
  let changed ← sql t .step fun s =>
    match setManualState s.db game change actor s.now with
    | .error e => (.error e, s)
    | .ok (changed, db) => (.ok changed, { s with
        db := db
        log := s.log ++ (db.history.drop s.db.history.length).map (.applied t) })
  if changed = some true then invalidateGame server t .step game
  else return ()

/-- The process of a thread stops, and its transactions end. -/
def stop (target : Tid) : ReleaseCall H Unit :=
  ExceptT.mk (.atomic (.stop target) fun s => some (.ok (), { s with
    stopped := Function.update s.stopped target true
    lock := if s.lock = some target then none else s.lock }))

/-- What a thread does. -/
inductive Request where
  | processDueReleases (server : ℕ) (wait : Bool)
  | updateFeature (server : ℕ) (game : Id) (change : FeatureChangeData) (actor : Id)
  | stop (target : Tid)

/-- The program of a request. -/
def Request.run : Request → ReleaseCall H Unit
  | .processDueReleases server wait =>
    Release.processDueReleases refreshTeamHintEnablements server t wait
  | .updateFeature server game change actor =>
    Release.updateFeature refreshTeamHintEnablements server t game change actor
  | .stop target => Release.stop target

end Calls

/-- What changes by itself: everything but the features and their history, the phases with their
changes, the events of phases, the lock and the stopped threads. Events of puzzles released at once
may come; the ids of events are unique and drawn from the sequence. -/
structure Changes {H : Type} (s s' : Server H) : Prop where
  games : s'.db.games = s.db.games
  features : s'.db.features = s.db.features
  history : s'.db.history = s.db.history
  phases : s'.tables.phases = s.tables.phases
  events : ∃ new, s'.tables.events = s.tables.events ++ new ∧ ∀ e ∈ new, e.phaseId = none
  nodup : (s'.tables.events.map (·.id)).Nodup
  ids : ∀ e ∈ s'.tables.events, e.id < s'.tables.nextEvent
  featureChanges : s'.featureChanges = s.featureChanges
  lock : s'.lock = s.lock
  stopped : s'.stopped = s.stopped
  log : s'.log = s.log

end Release
