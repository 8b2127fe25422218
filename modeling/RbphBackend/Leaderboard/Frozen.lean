import RbphBackend.Leaderboard.Pages
import RbphBackend.Paging.Merge
import RbphBackend.Release.Features

set_option relaxedAutoImplicit false
set_option autoImplicit false

/-!
# A locked board

A lock freezes the ranking of the teams that have started and are not banned, hidden ones included.
The board of a locked game is read from the frozen rows, without the teams that are banned or hidden
at the time.

## Main definitions

* `Leaderboard.Frozen.fetchTeams` — `fetch_teams` on one state of the tables.
* `Leaderboard.Frozen.Change` — what may happen while a board is locked.
* `Leaderboard.Frozen.everyTeam` — the board with hidden teams.

## Main results

* `Leaderboard.Frozen.frozen_of_later` — the frozen rows stay.
* `Leaderboard.Frozen.map_place_lockedRows` — what is read from them.
* `Leaderboard.Frozen.locked_board` — what a locked board shows.
-/

namespace Leaderboard.Frozen

open Pages (Keyed)
open Release (lockLeaderboardConn rankedRows unlockLeaderboard)

/-! ## The board -/

/-- `fetch_teams`, where nothing is committed between its statements. -/
def fetchTeams (db : Tables) (game : Id) : List LeaderBoardTeamInfo :=
  joinMembers (teamRows db game (isLocked db game)) (memberRows db game)

/-- A team's place: the team, its times and its solves. -/
structure Place where
  id : Id
  finishAt : Option ℤ
  lastSolvedAt : Option ℤ
  solves : ℤ
  deriving DecidableEq

/-- The place of a team of the board. -/
def place (team : LeaderBoardTeamInfo) : Place :=
  ⟨team.id, team.finishAt, team.lastSolvedAt, team.solves⟩

/-- The place that a row has. -/
def placeOf (row : LeaderBoardTeamRow) : Place :=
  ⟨row.id, row.finishAt, row.lastSolvedAt, row.solves⟩

/-- The place of a frozen row. -/
def placeOfLock (row : LockTeamRow) : Place :=
  ⟨row.teamId, row.finishAt, row.lastSolvedAt, row.solves⟩

/-- There is such a team, not banned and not hidden. -/
def shown (db : Tables) (team : Id) : Bool :=
  db.team.any fun t => t.id = team ∧ t.isBanned = false ∧ db.visible t.id

/-- No team is hidden. -/
def everyTeam (db : Tables) : Tables := { db with teamFeature := [] }

/-- The keys of the tables, and that frozen rows have a lock. -/
structure Constrained (db : Tables) : Prop extends Keyed db where
  lockOf : ∀ row ∈ db.leaderboardLockTeam, (db.leaderboardLock row.gameId).isSome

/-- What may happen while the board of a game is locked: teams are banned, finish or are changed
otherwise, teams join, puzzles are unlocked and solved, features of teams and members change, a
board is locked, this one included, and another one is opened. -/
inductive Change (game : Id) : Tables → Tables → Prop
  | teams {db : Tables} (f : TeamRow → TeamRow) : (∀ t, (f t).id = t.id) →
      Change game db { db with team := db.team.map f }
  | newTeam {db : Tables} (t : TeamRow) : (∀ t' ∈ db.team, t'.id ≠ t.id) →
      Change game db { db with team := db.team ++ [t] }
  | puzzles {db : Tables} (teamPuzzle : List TeamPuzzleRow) :
      Change game db { db with teamPuzzle := teamPuzzle }
  | features {db : Tables} (teamFeature : List TeamFeatureRow) :
      Change game db { db with teamFeature := teamFeature }
  | members {db : Tables} (teamMember : List TeamMemberRow) (nickname : Id → Option String) :
      Change game db { db with teamMember := teamMember, nickname := nickname }
  | lock {db : Tables} (other : Id) (lockedAt : ℤ) :
      Change game db (lockLeaderboardConn db other lockedAt)
  | unlock {db : Tables} (other : Id) : other ≠ game →
      Change game db (unlockLeaderboard db other)

/-- Any number of changes. -/
abbrev Later (game : Id) : Tables → Tables → Prop := Relation.ReflTransGen (Change game)

section Frozen

variable {db db' : Tables} {game : Id} {lockedAt : ℤ}

/-- The frozen rows of a game. -/
def frozen (db : Tables) (game : Id) : List LockTeamRow :=
  db.leaderboardLockTeam.filter (·.gameId = game)

/-- Locking a locked board changes nothing. -/
lemma lock_of_isLocked (h : isLocked db game = true) (lockedAt : ℤ) :
    lockLeaderboardConn db game lockedAt = db := if_pos h

lemma frozen_rankedRows (db : Tables) (game other : Id) :
    (rankedRows db other).filter (·.gameId = game) =
      if other = game then rankedRows db other else [] := by
  split_ifs with heq
  · refine List.filter_eq_self.mpr fun row hrow => ?_
    obtain ⟨p, -, rfl⟩ := List.mem_map.mp hrow
    exact decide_eq_true heq
  · refine List.filter_eq_nil_iff.mpr fun row hrow => ?_
    obtain ⟨p, -, rfl⟩ := List.mem_map.mp hrow
    simpa using heq

/-- **What a change leaves**: the board stays locked, with its frozen rows. -/
lemma Change.frozen_eq (h : Change game db db') (hlocked : isLocked db game = true) :
    isLocked db' game = true ∧ frozen db' game = frozen db game := by
  cases h with
  | lock other lockedAt =>
    by_cases hother : (db.leaderboardLock other).isSome = true
    · rw [lockLeaderboardConn, if_pos hother]
      exact ⟨hlocked, rfl⟩
    · have hne : game ≠ other := by
        rintro rfl
        exact hother hlocked
      rw [lockLeaderboardConn, if_neg hother]
      constructor
      · change (Function.update db.leaderboardLock other _ game).isSome = true
        rwa [Function.update_of_ne hne]
      · change (db.leaderboardLockTeam ++ _).filter (·.gameId = game) = _
        rw [List.filter_append, frozen_rankedRows, if_neg hne.symm, List.append_nil]
        rfl
  | unlock other hne =>
    constructor
    · change (Function.update db.leaderboardLock other none game).isSome = true
      rwa [Function.update_of_ne hne.symm]
    · change (db.leaderboardLockTeam.filter (·.gameId ≠ other)).filter (·.gameId = game) = _
      rw [List.filter_filter]
      refine List.filter_congr fun row _ => ?_
      by_cases hrow : row.gameId = game
      · simp [hrow, hne.symm]
      · simp [hrow]
  | _ => exact ⟨hlocked, rfl⟩

/-- **The frozen rows stay**, from the lock on: those of the ranking, as it was then. -/
theorem frozen_of_later (hc : Constrained db) (hopen : isLocked db game = false)
    (h : Later game (lockLeaderboardConn db game lockedAt) db') :
    isLocked db' game = true ∧ frozen db' game = rankedRows db game := by
  induction h with
  | refl =>
    have hnone : frozen db game = [] := by
      refine List.filter_eq_nil_iff.mpr fun row hrow hgame => ?_
      have hlock := hc.lockOf row hrow
      rw [of_decide_eq_true hgame] at hlock
      exact absurd hlock (by rw [← isLocked, hopen]; decide)
    have hlock : lockLeaderboardConn db game lockedAt = { db with
        leaderboardLock := Function.update db.leaderboardLock game (some lockedAt)
        leaderboardLockTeam := db.leaderboardLockTeam ++ rankedRows db game } :=
      if_neg fun hsome => Bool.false_ne_true (hopen.symm.trans hsome)
    rw [hlock]
    constructor
    · change (Function.update db.leaderboardLock game (some lockedAt) game).isSome = true
      rw [Function.update_self]
      rfl
    · change (db.leaderboardLockTeam ++ _).filter (·.gameId = game) = _
      rw [List.filter_append, frozen_rankedRows, if_pos rfl]
      exact congrArg (· ++ _) hnone
  | tail _ hstep ih =>
    obtain ⟨hlocked, hfrozen⟩ := hstep.frozen_eq ih.1
    exact ⟨hlocked, hfrozen.trans ih.2⟩

end Frozen

/-! ## What is read -/

section Read

variable {db db' : Tables} {game : Id}

/-- With no team hidden the board is the ranking that a lock freezes. -/
lemma liveRows_everyTeam (db : Tables) (game : Id) : liveRows (everyTeam db) game =
    ((db.team.filter fun t => t.gameId = game ∧ t.startAt.isSome ∧ t.isBanned = false).map fun t =>
      { id := t.id
        name := t.name
        bio := t.bio
        finishAt := t.finishAt
        lastSolvedAt := sqlMax ((db.solved t.id).map (·.solveAt))
        solves := (db.solved t.id).length }).insertionSort fun a b => liveKey a ≤ liveKey b := by
  have hvisible : ∀ team, (everyTeam db).visible team = true := fun _ => rfl
  rw [liveRows]
  simp only [hvisible, and_true]
  rfl

/-- The rows that a lock freezes, with their places. -/
lemma rankedRows_eq (db : Tables) (game : Id) : rankedRows db game =
    (liveRows (everyTeam db) game).zipIdx.map fun p =>
      ⟨game, p.1.id, p.2 + 1, p.1.solves, p.1.finishAt, p.1.lastSolvedAt⟩ := by
  rw [liveRows_everyTeam]
  rfl

/-- They come in the order of their ranks. -/
lemma pairwise_rankedRows (db : Tables) (game : Id) :
    (rankedRows db game).Pairwise fun a b => a.rank < b.rank := by
  rw [rankedRows_eq, List.pairwise_map]
  have hplaces : ((liveRows (everyTeam db) game).zipIdx.map Prod.snd).Pairwise (· < ·) := by
    rw [List.zipIdx_map_snd]
    exact List.pairwise_lt_range'
  exact (List.pairwise_map.mp hplaces).imp fun hlt => by simpa using hlt

/-- **What is read from frozen rows**: those of the teams that are shown now, in the order of their
ranks. -/
lemma map_place_lockedRows (hranks : (frozen db game).Pairwise fun a b => a.rank < b.rank) :
    (lockedRows db game).map placeOf =
      ((frozen db game).filter fun row => shown db row.teamId).map placeOfLock := by
  set join := fun row : LockTeamRow => (db.team.find? fun t =>
    t.id = row.teamId ∧ t.isBanned = false ∧ db.visible t.id).map fun t => (row, t) with hjoin
  have hsorted : ((frozen db game).filterMap join).insertionSort
      (fun a b => toLex (a.1.rank, a.2.id) ≤ toLex (b.1.rank, b.2.id)) =
        (frozen db game).filterMap join := by
    refine List.Pairwise.insertionSort_eq (List.pairwise_filterMap.mpr (hranks.imp ?_))
    intro row row' hlt p hp p' hp'
    obtain ⟨t, -, rfl⟩ := Option.map_eq_some_iff.mp hp
    obtain ⟨t', -, rfl⟩ := Option.map_eq_some_iff.mp hp'
    exact Prod.Lex.toLex_le_toLex.mpr (.inl hlt)
  have hrows : lockedRows db game = (((frozen db game).filterMap join).insertionSort
      (fun a b => toLex (a.1.rank, a.2.id) ≤ toLex (b.1.rank, b.2.id))).map fun p =>
        { id := p.2.id
          name := p.2.name
          bio := p.2.bio
          finishAt := p.1.finishAt
          lastSolvedAt := p.1.lastSolvedAt
          solves := p.1.solves } := rfl
  rw [hrows, hsorted, List.map_map, List.map_filterMap, ← List.filterMap_eq_filter,
    List.map_filterMap]
  refine List.filterMap_congr fun row _ => ?_
  rw [hjoin]
  dsimp only
  cases hfind : db.team.find? fun t => t.id = row.teamId ∧ t.isBanned = false ∧ db.visible t.id with
  | none =>
    have hhidden : shown db row.teamId = false := by
      rw [shown, List.any_eq_false]
      exact List.find?_eq_none.mp hfind
    simp [Option.guard, hhidden]
  | some t =>
    have hfound := List.find?_some hfind
    have hshown : shown db row.teamId = true := by
      rw [shown, List.any_eq_true]
      exact ⟨t, List.mem_of_find?_eq_some hfind, hfound⟩
    rw [decide_eq_true_eq] at hfound
    simp [Option.guard, hshown, placeOf, placeOfLock, hfound.1]

/-- The frozen teams that are shown, by their rows of the board with no team hidden. -/
lemma map_placeOfLock_rankedRows (db : Tables) (game : Id) (p : Id → Bool) :
    ((rankedRows db game).filter fun row => p row.teamId).map placeOfLock =
      ((liveRows (everyTeam db) game).filter fun row => p row.id).map placeOf := by
  have hrows : ((liveRows (everyTeam db) game).zipIdx.map Prod.fst) =
      liveRows (everyTeam db) game := List.zipIdx_map_fst _ _
  rw [rankedRows_eq, List.filter_map, List.map_map]
  conv_rhs => rw [← hrows, List.filter_map, List.map_map]
  rfl

/-- Whoever has a place on the board has it with no team hidden. -/
lemma liveRows_eq_filter (hc : Keyed db) :
    liveRows db game = (liveRows (everyTeam db) game).filter fun row => db.visible row.id := by
  set mk := fun t : TeamRow => ({
    id := t.id
    name := t.name
    bio := t.bio
    finishAt := t.finishAt
    lastSolvedAt := sqlMax ((db.solved t.id).map (·.solveAt))
    solves := (db.solved t.id).length } : LeaderBoardTeamRow) with hmk
  set rows := (db.team.filter fun t =>
    t.gameId = game ∧ t.startAt.isSome ∧ t.isBanned = false).map mk with hrows
  have hevery : liveRows (everyTeam db) game = Paging.Merge.ascending liveKey rows :=
    liveRows_everyTeam db game
  have hlive : liveRows db game =
      Paging.Merge.ascending liveKey (rows.filter fun row => db.visible row.id) := by
    rw [hrows, List.filter_map, List.filter_filter]
    unfold liveRows Paging.Merge.ascending
    congr 2
    refine List.filter_congr fun t _ => ?_
    rw [Bool.eq_iff_iff, Bool.and_eq_true, decide_eq_true_eq, decide_eq_true_eq]
    simp only [Function.comp_apply, hmk]
    tauto
  have hkeys : (rows.map liveKey).Nodup := by
    have hids : ((rows.map liveKey).map fun k => (ofLex (ofLex (ofLex k).2).2).2).Nodup := by
      rw [hrows, List.map_map, List.map_map]
      exact hc.team.sublist (List.filter_sublist.map _)
    exact hids.of_map _
  rw [hlive, hevery, Paging.Merge.ascending_filter _ hkeys]

lemma map_id_liveRows_nodup (hc : Keyed db) : ((liveRows db game).map (·.id)).Nodup :=
  (hc.teamRows game false).1

end Read

/-! ## What a locked board shows -/

section Shows

variable {db db' db'' : Tables} {game : Id} {lockedAt : ℤ}

lemma map_place_joinMembers (rows : List LeaderBoardTeamRow) (members : List (Id × String))
    (p : Id → Bool) : ((joinMembers rows members).filter fun team => p team.id).map place =
      (rows.filter fun row => p row.id).map placeOf := by
  rw [joinMembers, List.filter_map, List.map_map]
  rfl

/-- The places of a locked board: those of the teams shown now, on the board when it was locked. -/
lemma places_of_later (hc : Constrained db) (hopen : isLocked db game = false)
    (h : Later game (lockLeaderboardConn db game lockedAt) db') (p : Id → Bool) :
    ((fetchTeams db' game).filter fun team => p team.id).map place =
      ((liveRows (everyTeam db) game).filter fun row => p row.id && shown db' row.id).map
        placeOf := by
  obtain ⟨hlocked, hfrozen⟩ := frozen_of_later hc hopen h
  have hranks : (frozen db' game).Pairwise fun a b => a.rank < b.rank := by
    rw [hfrozen]
    exact pairwise_rankedRows db game
  have hplaces := map_place_lockedRows hranks
  rw [hfrozen, map_placeOfLock_rankedRows db game (shown db')] at hplaces
  rw [fetchTeams, map_place_joinMembers, teamRows, if_pos hlocked]
  have hfilter : ∀ rows : List LeaderBoardTeamRow, (rows.filter fun row => p row.id).map placeOf =
      (rows.map placeOf).filter fun q => p q.id := fun rows => by
    rw [List.filter_map]
    rfl
  rw [hfilter, hplaces, ← hfilter, List.filter_filter]

/-- Of two items of a list without repetitions one comes first. -/
lemma not_sublist_swap {α : Type} {l : List α} (h : l.Nodup) {x y : α} (hxy : [x, y].Sublist l) :
    ¬ [y, x].Sublist l := by
  induction l with
  | nil => cases hxy
  | cons a l ih =>
    rw [List.nodup_cons] at h
    intro hyx
    cases hxy with
    | cons _ hxy =>
      cases hyx with
      | cons _ hyx => exact ih h.2 hxy hyx
      | cons_cons _ hx => exact h.1 (hxy.subset (List.mem_cons_of_mem _ List.mem_cons_self))
    | cons_cons _ hy =>
      cases hyx with
      | cons _ hyx => exact h.1 (hyx.subset (List.mem_cons_of_mem _ List.mem_cons_self))
      | cons_cons _ _ => exact h.1 (hy.subset List.mem_cons_self)

/-- The teams of a locked board are in the order that the board had when it was locked. -/
lemma sublist_of_later (hc : Constrained db) (hopen : isLocked db game = false)
    (h : Later game (lockLeaderboardConn db game lockedAt) db') :
    ((fetchTeams db' game).map (·.id)).Sublist ((liveRows (everyTeam db) game).map (·.id)) := by
  have hplaces := places_of_later hc hopen h fun _ => true
  have hids := congrArg (List.map Place.id) hplaces
  rw [List.map_map, List.map_map] at hids
  have hleft : ((fetchTeams db' game).filter fun _ => true) = fetchTeams db' game :=
    List.filter_eq_self.mpr fun _ _ => rfl
  rw [hleft] at hids
  exact hids ▸ List.filter_sublist.map _

/-- **What a locked board shows**, whatever teams, puzzles, features and members have become: the
places that the board had when it was locked, hidden teams included, of the teams that are shown
now; so of the teams shown at both times, the places that it showed. No two teams change their order
while it stays locked, and to lock it again changes nothing. -/
theorem locked_board (hc : Constrained db) (hopen : isLocked db game = false)
    (h : Later game (lockLeaderboardConn db game lockedAt) db') :
    (fetchTeams db' game).map place =
      ((fetchTeams (everyTeam db) game).filter fun team => shown db' team.id).map place ∧
    ((fetchTeams db' game).filter fun team => db.visible team.id).map place =
      ((fetchTeams db game).filter fun team => shown db' team.id).map place ∧
    (∀ db'', Later game (lockLeaderboardConn db game lockedAt) db'' → ∀ x y : Id,
      [x, y].Sublist ((fetchTeams db' game).map (·.id)) →
      ¬ [y, x].Sublist ((fetchTeams db'' game).map (·.id))) ∧
    isLocked db' game = true ∧
    ∀ lockedAt', lockLeaderboardConn db' game lockedAt' = db' := by
  have hlocked := (frozen_of_later hc hopen h).1
  have hlive : ∀ d, isLocked d game = false → fetchTeams d game =
      joinMembers (liveRows d game) (memberRows d game) := by
    intro d hd
    rw [fetchTeams, teamRows, hd]
    rfl
  refine ⟨?_, ?_, ?_, hlocked, lock_of_isLocked hlocked⟩
  · have hplaces := places_of_later hc hopen h fun _ => true
    rw [hlive (everyTeam db) hopen, map_place_joinMembers]
    simpa using hplaces
  · rw [places_of_later hc hopen h, hlive db hopen, map_place_joinMembers,
      liveRows_eq_filter hc.toKeyed, List.filter_filter]
    congr 1
    exact List.filter_congr fun row _ => Bool.and_comm _ _
  · intro db'' h'' x y hxy hyx
    have hkeyed : Keyed (everyTeam db) := ⟨hc.team, hc.range, hc.lockTeam⟩
    exact not_sublist_swap (map_id_liveRows_nodup hkeyed)
      (hxy.trans (sublist_of_later hc hopen h)) (hyx.trans (sublist_of_later hc hopen h''))

end Shows

/-- Two teams have started, and the first one is hidden. -/
def hiddenTeam : Tables where
  team := [⟨1, 7, "a", "", some 0, none, false⟩, ⟨2, 7, "b", "", some 0, some 9, false⟩]
  teamPuzzle := [⟨1, 4, 1, some 3⟩]
  teamFeature := [⟨1, 3, false⟩]
  leaderboardLock := fun _ => none
  leaderboardLockTeam := []
  teamMember := []
  nickname := fun _ => none

/-- After the lock the first team is shown again, and the second is banned. -/
theorem locked_board_hiddenTeam :
    let locked := lockLeaderboardConn hiddenTeam 7 5
    let later := { locked with
      teamFeature := []
      team := locked.team.map fun t => { t with isBanned := decide (t.id = 2) } }
    (fetchTeams later 7).map place =
      ((fetchTeams (everyTeam hiddenTeam) 7).filter fun team => shown later team.id).map place := by
  intro locked later
  have hc : Constrained hiddenTeam := ⟨⟨by decide, by decide, by decide⟩, by decide⟩
  have hlater : Later 7 locked later :=
    .tail (.tail .refl (.features [])) (.teams (fun t => { t with isBanned := decide (t.id = 2) })
      fun _ => rfl)
  exact (locked_board hc rfl hlater).1

end Leaderboard.Frozen
