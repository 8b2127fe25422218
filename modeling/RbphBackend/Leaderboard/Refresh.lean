import RbphBackend.Concurrency.Fallible
import RbphBackend.Concurrency.Trace
import RbphBackend.Leaderboard.Snapshot

set_option relaxedAutoImplicit false
set_option autoImplicit false

/-!
# Refreshing the leaderboard

A game whose board may have changed is marked by a flag. A refresher takes the game's advisory
lock, clears the flag as it draws the next version, builds a snapshot and stores it; `refresh_game`
clears the flag once more at its end, `rebuild_and_publish` does not. Statements are committed one
by one; the store of snapshots may fail.

## Main definitions

* `Leaderboard.Board` — the shared state; `Leaderboard.Event` — what has happened to it.
* `Leaderboard.refreshGame`, `Leaderboard.rebuildAndPublish`, `Leaderboard.markGameDirty` — the
  calls; `Leaderboard.dirtyGames` — the games listed.
-/

namespace Leaderboard

open Concurrency

/-! ## The shared state -/

/-- A row of `rb_leaderboard_refresh_state`, of the board type `main`. -/
structure RefreshState where
  nextVersion : ℤ
  fullRebuild : Bool
  deriving DecidableEq

/-- A row of `rb_leaderboard_dirty_team`, of the board type `main`. -/
structure DirtyTeam where
  gameId : Id
  teamId : Id
  revision : ℤ
  affectsOrder : Bool
  deriving DecidableEq

/-- What happens to the board. A `cleared` takes a flag down; a `reading` is the first read of a
`build_snapshot`, a `readTeams` its read of the teams; the thread is the refresher's. -/
inductive Event where
  | changed (tables : Tables)
  | marked (game : Id)
  | cleared (t : Tid) (game : Id)
  | reading (t : Tid) (game : Id)
  | readTeams (t : Tid) (game : Id)
  | published (t : Tid) (game : Id) (snapshot : LeaderBoardSnapshot)

/-- The database, the advisory locks with their holders, the store of snapshots (which may be
down), and the cache of each server process. `history` is only written. -/
structure Board where
  games : List Id
  tables : Tables
  refreshState : Id → Option RefreshState
  dirtyTeams : List DirtyTeam
  advisory : Id → Option Tid
  kvUp : Bool
  latest : Id → Option LeaderBoardSnapshot
  snapshots : Id → ℤ → Option LeaderBoardSnapshot
  cache : ℕ → Id → Option LeaderBoardSnapshot
  history : List Event

namespace Board

/-- Record an event. -/
def log (e : Event) (d : Board) : Board := { d with history := d.history ++ [e] }

/-- The flag of a game is up. -/
def flagged (d : Board) (game : Id) : Bool := (d.refreshState game).any (·.fullRebuild)

/-- Write the row of a game. -/
def setRefreshState (game : Id) (s : RefreshState) (d : Board) : Board :=
  { d with refreshState := Function.update d.refreshState game (some s) }

/-- Write the row of a game with its flag down. -/
def clear (t : Tid) (game : Id) (version : ℤ) (d : Board) : Board :=
  if d.flagged game then (d.setRefreshState game ⟨version, false⟩).log (.cleared t game)
  else d.setRefreshState game ⟨version, false⟩

/-- Write the stored snapshot of a version. -/
def setSnapshot (game : Id) (version : ℤ) (snapshot : Option LeaderBoardSnapshot)
    (d : Board) : Board :=
  { d with
    snapshots := Function.update d.snapshots game
      (Function.update (d.snapshots game) version snapshot) }

/-- Write a server's cache of a game. -/
def setCache (server : ℕ) (game : Id) (snapshot : Option LeaderBoardSnapshot) (d : Board) : Board :=
  { d with
    cache := Function.update d.cache server (Function.update (d.cache server) game snapshot) }

end Board

/-- The games that `dirty_games` lists. -/
def dirtyGames (d : Board) : List Id :=
  (d.games.filter fun game =>
    d.dirtyTeams.any (·.gameId = game) || d.flagged game).insertionSort (· ≤ ·)

/-! ## The calls -/

/-- The actions a condition on a run may speak of. -/
inductive Label where
  | sql
  | store (game : Id)
  | clearFlag (game : Id)
  deriving DecidableEq

/-- The program of a call. -/
abbrev Round (α : Type) := Fallible Label Board α

/-- One statement or command. -/
def act {α : Type} (l : Label) (f : Board → Except String α × Board) : Round α :=
  ExceptT.mk (.atomic l fun d => some (f d))

section Calls

variable (server : ℕ) (t : Tid) (game : Id)

def tryAdvisoryLock : Round Bool :=
  act .sql fun d =>
    if d.advisory game = none then
      (.ok true, { d with advisory := Function.update d.advisory game (some t) })
    else (.ok false, d)

def advisoryUnlock : Round Unit :=
  act .sql fun d =>
    if d.advisory game = some t then
      (.ok (), { d with advisory := Function.update d.advisory game none })
    else (.ok (), d)

/-- `MAX(revision)` of the game's dirty teams. -/
def maxRevision : Round (Option ℤ) :=
  act .sql fun d =>
    (.ok (sqlMax ((d.dirtyTeams.filter (·.gameId = game)).map fun dt => some dt.revision)), d)

/-- A row that is inserted keeps the column's default, and that is a flag that is up. -/
def nextVersion : Round ℤ :=
  act .sql fun d =>
    if game ∈ d.games then
      match d.refreshState game with
      | none => (.ok 1, d.setRefreshState game ⟨1, true⟩)
      | some s => (.ok (s.nextVersion + 1), d.clear t game (s.nextVersion + 1))
    else (.error "rb_leaderboard_refresh_state_game_id_fkey", d)

def buildSnapshot (version : ℤ) : Round LeaderBoardSnapshot := do
  let locked ← act .sql fun d => (.ok (isLocked d.tables game), d.log (.reading t game))
  let teams ← act .sql fun d => (.ok (teamRows d.tables game locked), d.log (.readTeams t game))
  let members ← act .sql fun d => (.ok (memberRows d.tables game), d)
  let lockedAt ← act .sql fun d => (.ok (lockedAt d.tables game), d)
  return assemble (joinMembers teams members) lockedAt version

def insertCache (snapshot : LeaderBoardSnapshot) : Round Unit :=
  act .sql fun d => (.ok (), d.setCache server game (some snapshot))

def publishSnapshot (snapshot : LeaderBoardSnapshot) : Round LeaderBoardSnapshot := do
  act (.store game) fun d =>
    if d.kvUp then
      (.ok (), d.setSnapshot game snapshot.version (some snapshot))
    else (.error "kv unavailable", d)
  act (.store game) fun d =>
    if d.kvUp then
      (.ok (), ({ d with latest := Function.update d.latest game (some snapshot) } : Board).log
        (.published t game snapshot))
    else (.error "kv unavailable", d)
  insertCache server game snapshot
  return snapshot

/-- The `None` version of `load_snapshot`; a snapshot loaded is cached. -/
def loadSnapshot : Round (Option LeaderBoardSnapshot) := do
  match ← act .sql fun d => (if d.kvUp then .ok (d.latest game) else .error "kv unavailable", d) with
  | none => return none
  | some snapshot =>
    insertCache server game snapshot
    return some snapshot

/-- The tries of a round that does not get the lock. -/
def awaitSnapshot : ℕ → Round (Option LeaderBoardSnapshot)
  | 0 => act .sql fun d => (.ok (d.cache server game), d)
  | n + 1 => ExceptT.mk ((loadSnapshot server game).run.bind fun r =>
      match r with
      | .ok (some snapshot) => .ret (.ok (some snapshot))
      | _ => (awaitSnapshot n).run)

/-- A snapshot that cannot be stored is only cached. -/
def publishOrCache (snapshot : LeaderBoardSnapshot) : Round LeaderBoardSnapshot :=
  ExceptT.mk ((publishSnapshot server t game snapshot).run.bind fun r =>
    match r with
    | .ok snapshot => .ret (.ok snapshot)
    | .error _ => (do insertCache server game snapshot; return snapshot : Round _).run)

/-- Give back the lock, however the body has ended. -/
def underLock {α : Type} (body : Round α) : Round α :=
  ExceptT.mk (body.run.bind fun r => (do advisoryUnlock t game; ExceptT.mk (.ret r)).run)

def rebuildAndPublish : Round (Option LeaderBoardSnapshot) := do
  if ← tryAdvisoryLock t game then
    let snapshot ← underLock t game (do
      let version ← nextVersion t game
      let snapshot ← buildSnapshot t game version
      publishOrCache server t game snapshot)
    return some snapshot
  else awaitSnapshot server game 5

/-- Delete the dirty teams that were there when the round began. -/
def deleteDirtyTeams : Option ℤ → Round Unit
  | none => pure ()
  | some maxRevision => act .sql fun d =>
      (.ok (), { d with dirtyTeams :=
        d.dirtyTeams.filter fun dt => ¬(dt.gameId = game ∧ dt.revision ≤ maxRevision) })

/-- The final `UPDATE` of `refresh_game`. -/
def clearFlag : Round Unit :=
  act (.clearFlag game) fun d =>
    match d.refreshState game with
    | none => (.ok (), d)
    | some s => (.ok (), d.clear t game s.nextVersion)

def refreshGame : Round Unit := do
  if ← tryAdvisoryLock t game then
    underLock t game (do
      let maxRevision ← maxRevision game
      let version ← nextVersion t game
      let snapshot ← buildSnapshot t game version
      let _ ← publishSnapshot server t game snapshot
      deleteDirtyTeams game maxRevision
      clearFlag t game)
  else return ()

def markGameDirty : Round Unit := do
  act .sql fun d =>
    if game ∈ d.games then
      (.ok (), (d.setRefreshState game
        ⟨((d.refreshState game).map (·.nextVersion)).getD 0, true⟩).log (.marked game))
    else (.error "rb_leaderboard_refresh_state_game_id_fkey", d)
  act .sql fun d => (.ok (), d.setCache server game none)

end Calls

/-- A call of a server process. -/
inductive Request where
  | markGameDirty (server : ℕ) (game : Id)
  | refreshGame (server : ℕ) (game : Id)
  | rebuildAndPublish (server : ℕ) (game : Id)

/-- The program of a request. -/
def Request.run (t : Tid) : Request → Round Unit
  | .markGameDirty server game => Leaderboard.markGameDirty server game
  | .refreshGame server game => Leaderboard.refreshGame server t game
  | .rebuildAndPublish server game => do
    let _ ← Leaderboard.rebuildAndPublish server t game
    return ()

/-- What changes by itself: the tables, whether the store of snapshots is up, and how long it keeps
the snapshot of a version. -/
inductive Changes : Board → Board → Prop where
  | tables (d : Board) (tables : Tables) :
      Changes d (({ d with tables := tables } : Board).log (.changed tables))
  | kv (d : Board) (up : Bool) : Changes d { d with kvUp := up }
  | expire (d : Board) (game : Id) (version : ℤ) : Changes d (d.setSnapshot game version none)

end Leaderboard
