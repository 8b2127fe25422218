import Mathlib.Data.List.ReduceOption
import Mathlib.Data.List.Sort
import Mathlib.Data.Prod.Lex
import Mathlib.Order.BooleanAlgebra.Defs

set_option relaxedAutoImplicit false
set_option autoImplicit false

/-!
# Leaderboard snapshots

`build_snapshot` reads the board of a game with four statements: whether the board is locked, the
teams (frozen ones where it is locked, live ones where it is not), their members, and the time of
the lock. Each sees what is committed when it runs, so the four may see four states of the tables.

## Main definitions

* `Leaderboard.Tables` — the tables a snapshot is read from.
* `Leaderboard.isLocked`, `Leaderboard.teamRows`, `Leaderboard.memberRows`, `Leaderboard.lockedAt` —
  the four reads.
* `Leaderboard.snapshotOf` — the snapshot from four states of the tables.
-/

namespace Leaderboard

abbrev Id := ℕ

/-! ## Tables -/

/-- A row of `rb_team`; instants are in microseconds. -/
structure TeamRow where
  id : Id
  gameId : Id
  name : String
  bio : String
  startAt : Option ℤ
  finishAt : Option ℤ
  isBanned : Bool
  deriving DecidableEq

/-- A row of `rb_team_puzzle`. -/
structure TeamPuzzleRow where
  teamId : Id
  puzzleId : Id
  state : ℤ
  solveAt : Option ℤ
  deriving DecidableEq

/-- A row of `rb_team_feature`. -/
structure TeamFeatureRow where
  teamId : Id
  featureType : ℤ
  enabled : Bool
  deriving DecidableEq

/-- A row of `rb_leaderboard_lock_team`. -/
structure LockTeamRow where
  gameId : Id
  teamId : Id
  rank : ℤ
  solves : ℤ
  finishAt : Option ℤ
  lastSolvedAt : Option ℤ
  deriving DecidableEq

/-- A row of `rb_team_member`. -/
structure TeamMemberRow where
  teamId : Id
  userId : Id
  gameId : Id
  isCaptain : Bool
  ctimeAt : ℤ
  deriving DecidableEq

/-- The tables of the board; `leaderboardLock` holds the time of a game's lock, `nickname` a
user's. -/
structure Tables where
  team : List TeamRow
  teamPuzzle : List TeamPuzzleRow
  teamFeature : List TeamFeatureRow
  leaderboardLock : Id → Option ℤ
  leaderboardLockTeam : List LockTeamRow
  teamMember : List TeamMemberRow
  nickname : Id → Option String

/-! ## What is read -/

/-- A team as the board's queries return it. -/
structure LeaderBoardTeamRow where
  id : Id
  name : String
  bio : String
  finishAt : Option ℤ
  lastSolvedAt : Option ℤ
  solves : ℤ
  deriving DecidableEq

structure LeaderBoardTeamInfo where
  rank : ℕ
  id : Id
  name : String
  bio : String
  finishAt : Option ℤ
  lastSolvedAt : Option ℤ
  solves : ℤ
  members : List String
  deriving DecidableEq

structure LeaderBoardSnapshot where
  order : List Id
  teams : Id → Option LeaderBoardTeamInfo
  lockedAt : Option ℤ
  version : ℤ

namespace Tables

variable (db : Tables) (game : Id)

/-- The team takes part in the board: the feature of type 3 is not turned off for it. -/
def visible (team : Id) : Bool :=
  ((db.teamFeature.find? fun tf => tf.teamId = team ∧ tf.featureType = 3).map (·.enabled)).getD true

/-- The solves of a team. -/
def solved (team : Id) : List TeamPuzzleRow :=
  db.teamPuzzle.filter fun tp => tp.teamId = team ∧ tp.state = 1

end Tables

/-- `MAX` of a column, which skips `NULL`. -/
def sqlMax (column : List (Option ℤ)) : Option ℤ :=
  column.reduceOption.foldr (fun x m => some (m.elim x (max x))) none

/-- The greatest value is one of the column. -/
lemma mem_of_sqlMax {column : List (Option ℤ)} {k : ℤ} (h : sqlMax column = some k) :
    some k ∈ column := by
  rw [← List.reduceOption_mem_iff]
  unfold sqlMax at h
  generalize column.reduceOption = values at h
  induction values generalizing k with
  | nil => simp at h
  | cons x values ih =>
    rw [List.foldr_cons, Option.some.injEq] at h
    cases hm : values.foldr (fun x m => some (m.elim x (max x))) none with
    | none =>
      rw [hm] at h
      exact List.mem_cons.mpr (.inl h.symm)
    | some m =>
      rw [hm] at h
      rcases le_total m x with hx | hx
      · exact List.mem_cons.mpr (.inl (h.symm.trans (max_eq_left hx)))
      · exact List.mem_cons_of_mem _ (ih (hm.trans (congrArg some ((max_eq_right hx).symm.trans h))))

section Reads

variable (db : Tables) (game : Id)

/-- The board is locked. -/
def isLocked : Bool := (db.leaderboardLock game).isSome

/-- The live board's order: finished teams by their times, then the most solves, then the earliest
last solve, then the id. -/
def liveKey (row : LeaderBoardTeamRow) : (Bool ×ₗ ℤ) ×ₗ ℤ ×ₗ (Bool ×ₗ ℤ) ×ₗ ℕ :=
  toLex (toLex (row.finishAt.isNone, row.finishAt.getD 0), toLex (-row.solves,
    toLex (toLex (row.lastSolvedAt.isNone, row.lastSolvedAt.getD 0), row.id)))

/-- The live teams. -/
def liveRows : List LeaderBoardTeamRow :=
  ((db.team.filter fun t =>
      t.gameId = game ∧ t.startAt.isSome ∧ t.isBanned = false ∧ db.visible t.id).map fun t =>
    { id := t.id
      name := t.name
      bio := t.bio
      finishAt := t.finishAt
      lastSolvedAt := sqlMax ((db.solved t.id).map (·.solveAt))
      solves := (db.solved t.id).length }).insertionSort fun a b => liveKey a ≤ liveKey b

/-- The frozen teams, without those that are hidden now. -/
def lockedRows : List LeaderBoardTeamRow :=
  (((db.leaderboardLockTeam.filter (·.gameId = game)).filterMap fun s =>
      (db.team.find? fun t => t.id = s.teamId ∧ t.isBanned = false ∧ db.visible t.id).map
        fun t => (s, t)).insertionSort
      fun a b => toLex (a.1.rank, a.2.id) ≤ toLex (b.1.rank, b.2.id)).map fun (s, t) =>
    { id := t.id
      name := t.name
      bio := t.bio
      finishAt := s.finishAt
      lastSolvedAt := s.lastSolvedAt
      solves := s.solves }

/-- The teams, once it is known whether the board is locked. -/
def teamRows (locked : Bool) : List LeaderBoardTeamRow :=
  if locked then lockedRows db game else liveRows db game

/-- The members of the game's teams, captains first. -/
def memberRows : List (Id × String) :=
  ((db.teamMember.filter (·.gameId = game)).insertionSort
      fun a b => toLex (!a.isCaptain, a.ctimeAt) ≤ toLex (!b.isCaptain, b.ctimeAt)).filterMap
    fun tm => (db.nickname tm.userId).map fun nickname => (tm.teamId, nickname)

/-- The time of the lock. -/
def lockedAt : Option ℤ := db.leaderboardLock game

end Reads

/-- The teams with their members. -/
def joinMembers (teams : List LeaderBoardTeamRow) (members : List (Id × String)) :
    List LeaderBoardTeamInfo :=
  teams.map fun team =>
    { rank := 0
      id := team.id
      name := team.name
      bio := team.bio
      finishAt := team.finishAt
      lastSolvedAt := team.lastSolvedAt
      solves := team.solves
      members := (members.filter (·.1 = team.id)).map (·.2) }

/-- The snapshot from what was read. -/
def assemble (data : List LeaderBoardTeamInfo) (lockedAt : Option ℤ) (version : ℤ) :
    LeaderBoardSnapshot where
  order := data.map (·.id)
  teams id := data.reverse.find? (·.id = id)
  lockedAt := lockedAt
  version := version

/-- **The snapshot four reads give**, each of its own state of the tables. -/
def snapshotOf (game : Id) (version : ℤ) (db₁ db₂ db₃ db₄ : Tables) : LeaderBoardSnapshot :=
  assemble (joinMembers (teamRows db₂ game (isLocked db₁ game)) (memberRows db₃ game))
    (lockedAt db₄ game) version

end Leaderboard
