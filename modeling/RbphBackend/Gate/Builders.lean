import RbphBackend.Gate.States

set_option relaxedAutoImplicit false
set_option autoImplicit false

/-!
# Three builders of one state

The constraints of the tables make the builders for unlocking, for an administrator's unlocking and
for hints build the same state of a team.

## Main definitions

* `Gate.rbState` — the state of a team.

## Main results

* `Gate.unlockNewPuzzlesState_eq`, `Gate.teamGateStateConn_eq`, `Gate.eq_of_mem_adminUnlockStates` —
  the builders build it.
-/

namespace Gate

open Release (RoundRow PuzzleRow)

variable {t : Tables}

/-! ## Rows -/

lemma mem_joinRounds {rounds : List RoundRow} {puzzles : List PuzzleRow}
    {row : PuzzleRow × RoundRow} : row ∈ joinRounds rounds puzzles ↔
      row.1 ∈ puzzles ∧ row.2 ∈ rounds ∧ row.2.id = row.1.roundId := by
  obtain ⟨p, r⟩ := row
  simp only [joinRounds, List.mem_flatMap, List.mem_map, List.mem_filter, decide_eq_true_eq,
    Prod.mk.injEq]
  constructor
  · rintro ⟨p', hp', r', ⟨hr', hid⟩, rfl, rfl⟩
    exact ⟨hp', hr', hid⟩
  · rintro ⟨hp, hr, hid⟩
    exact ⟨p, hp, r, ⟨hr, hid⟩, rfl, rfl⟩

/-- Rows with distinct keys: one with a key is the one found. -/
lemma eq_of_id_eq {ρ : Type} {id : ρ → Id} {rows : List ρ} (h : (rows.map id).Nodup) {a b : ρ}
    (ha : a ∈ rows) (hb : b ∈ rows) (hab : id a = id b) : a = b :=
  List.inj_on_of_nodup_map h ha hb hab

/-- The one row with a key. -/
lemma filter_id_eq {ρ : Type} {id : ρ → Id} {rows : List ρ} (h : (rows.map id).Nodup) {a : ρ}
    (ha : a ∈ rows) : (rows.filter fun b => id b = id a) = [a] := by
  induction rows with
  | nil => simp at ha
  | cons b rows ih =>
    rw [List.map_cons, List.nodup_cons] at h
    rcases List.mem_cons.mp ha with rfl | ha
    · have hnone : (rows.filter fun b => id b = id a) = [] := by
        rw [List.filter_eq_nil_iff]
        intro c hc hid
        exact h.1 (List.mem_map.mpr ⟨c, hc, of_decide_eq_true hid⟩)
      rw [List.filter_cons_of_pos (by simp), hnone]
    · have hne : id b ≠ id a := fun hid => h.1 (List.mem_map.mpr ⟨a, ha, hid.symm⟩)
      rw [List.filter_cons_of_neg (by simpa using hne), ih h.2 ha]

/-- Every puzzle is joined with its one round. -/
lemma joinRounds_map_fst (ht : t.WellFormed) :
    (joinRounds t.rounds t.puzzles).map (·.1) = t.puzzles := by
  have hone : ∀ p ∈ t.puzzles,
      ((t.rounds.filter fun r => r.id = p.roundId).map fun r => (p, r)).map (·.1) = [p] := by
    intro p hp
    obtain ⟨r, hr, hid, -⟩ := ht.puzzleRound p hp
    rw [← hid, filter_id_eq ht.rounds hr]
    rfl
  rw [joinRounds, List.map_flatMap]
  calc (t.puzzles.flatMap fun p =>
        ((t.rounds.filter fun r => r.id = p.roundId).map fun r => (p, r)).map (·.1))
      = t.puzzles.flatMap fun p => [p] := by
        rw [List.flatMap_def, List.flatMap_def, List.map_congr_left hone]
    _ = t.puzzles := by simp

/-- A puzzle's game is its round's. -/
lemma gameId_of_mem_joinRounds (ht : t.WellFormed) {row : PuzzleRow × RoundRow}
    (h : row ∈ joinRounds t.rounds t.puzzles) : row.2.gameId = row.1.gameId := by
  obtain ⟨hp, hr, hid⟩ := mem_joinRounds.mp h
  obtain ⟨r, hr', hid', hgame⟩ := ht.puzzleRound row.1 hp
  obtain rfl : row.2 = r := eq_of_id_eq ht.rounds hr hr' (hid.trans hid'.symm)
  exact hgame

/-- It does not matter whose game is asked for. -/
lemma puzzleRows_gameId (ht : t.WellFormed) (gameId : Id) :
    (puzzleRows t.rounds t.puzzles fun row => row.2.gameId = gameId) =
      puzzleRows t.rounds t.puzzles fun row => row.1.gameId = gameId := by
  unfold puzzleRows
  congr 1
  refine List.filter_congr fun row hrow => ?_
  rw [gameId_of_mem_joinRounds ht hrow]

/-! ## The state of a team -/

/-- The state of a team. -/
def rbState (t : Tables) (team : TeamRow) : RbPuzzleStates :=
  assemble (roundRows t team.gameId)
    (puzzleRows t.rounds t.puzzles fun row => row.1.gameId = team.gameId)
    (solvedIds t team.id).contains (triggerKeys t team.id).contains team.startAt.isSome

lemma leftJoin_filterMap {α β : Type} (row : α) (rows : List β) :
    (leftJoin row rows).filterMap (·.2) = rows := by
  unfold leftJoin
  split
  · rename_i h
    rw [List.isEmpty_iff.mp h]
    rfl
  · simp [List.filterMap_map]

lemma leftJoin_eq_map {α β : Type} (row : α) (rows : List β) :
    ∃ o os, leftJoin row rows = (o :: os).map fun b => (row, b) := by
  unfold leftJoin
  split
  · exact ⟨none, [], rfl⟩
  · rename_i h
    cases rows with
    | nil => simp at h
    | cons b bs => exact ⟨some b, bs.map some, by simp⟩

section Team

variable {team : TeamRow}

/-- **`team_gate_state_conn`** builds it. -/
theorem teamGateStateConn_eq (ht : t.WellFormed) (hteam : team ∈ t.teams) :
    teamGateStateConn t team.id = some (rbState t team) := by
  have hfind : (t.teams.find? fun team' => team'.id = team.id) = some team := by
    rw [← List.head?_filter, filter_id_eq ht.teams hteam]
    rfl
  rw [teamGateStateConn, hfind]
  rfl

/-- **`unlock_new_puzzles`** builds it. -/
theorem unlockNewPuzzlesState_eq (ht : t.WellFormed) (hteam : team ∈ t.teams) :
    unlockNewPuzzlesState t team.id = some (rbState t team) := by
  obtain ⟨o, os, heq⟩ := leftJoin_eq_map team (solvedIds t team.id)
  have hinfo : ((t.teams.filter fun team' => team'.id = team.id).flatMap fun team' =>
      leftJoin team' (solvedIds t team'.id)) = leftJoin team (solvedIds t team.id) := by
    rw [filter_id_eq ht.teams hteam]
    simp
  have hsolved : (leftJoin team (solvedIds t team.id)).filterMap (·.2) = solvedIds t team.id :=
    leftJoin_filterMap team _
  unfold unlockNewPuzzlesState
  dsimp only
  rw [hinfo, hsolved, heq, List.map_cons, List.head?_cons, Option.map_some, puzzleRows_gameId ht]
  rfl

/-! ### The loop over the candidates -/

variable {α : Type} {flush : Id → Bool → List Id → α}

/-- The rows of the team whose rows have begun. -/
lemma flushTeams_same (os : List (Option Id)) (started : Bool) (solved : List Id)
    (rows : List (TeamRow × Option Id)) :
    flushTeams flush (some team.id) started solved (os.map (fun o => (team, o)) ++ rows) =
      flushTeams flush (some team.id) started (solved ++ os.filterMap id) rows := by
  induction os generalizing solved with
  | nil => simp
  | cons o os ih =>
    rw [List.map_cons, List.cons_append, flushTeams, if_neg (by simp), ih]
    cases o <;> simp

/-- The rows of teams whose rows have not begun. -/
lemma flushTeams_flatMap {teams : List TeamRow} (hteams : (teams.map (·.id)).Nodup)
    (ids : TeamRow → List Id) {current : Option Id} (hnew : ∀ team ∈ teams, current ≠ some team.id)
    (started : Bool) (solved : List Id) :
    flushTeams flush current started solved
        (teams.flatMap fun team => leftJoin team (ids team)) =
      (current.toList.map fun id => flush id started solved) ++
        teams.map fun team => flush team.id team.startAt.isSome (ids team) := by
  induction teams generalizing current started solved with
  | nil => simp [flushTeams]
  | cons team teams ih =>
    rw [List.map_cons, List.nodup_cons] at hteams
    obtain ⟨o, os, heq⟩ := leftJoin_eq_map team (ids team)
    have hsolved : o.toList ++ os.filterMap id = ids team := by
      have h := leftJoin_filterMap team (ids team)
      rw [heq] at h
      rw [← h]
      cases o <;> simp [List.filterMap_map]
    have hrest : ∀ team' ∈ teams, some team.id ≠ some team'.id := by
      intro team' hteam' h
      exact hteams.1 (List.mem_map.mpr ⟨team', hteam', (Option.some.inj h).symm⟩)
    rw [List.flatMap_cons, heq, List.map_cons, List.cons_append, flushTeams,
      if_pos (hnew team List.mem_cons_self), flushTeams_same, hsolved,
      ih hteams.2 hrest]
    simp

/-- The triggers of the teams of a team's game, and of the team. -/
lemma gameTriggerKeys_eq (hteam : team ∈ t.teams) :
    gameTriggerKeys t team.gameId team.id = triggerKeys t team.id := by
  unfold gameTriggerKeys triggerKeys
  congr 1
  rw [List.filter_filter]
  refine List.filter_congr fun row _ => ?_
  rw [Bool.and_eq_left_iff_imp]
  intro hrow
  rw [decide_eq_true_eq] at hrow
  exact List.any_eq_true.mpr ⟨team, hteam, by simp [hrow]⟩

/-- **`admin_unlock_puzzle_for_eligible_teams`** builds it, for each team it asks. -/
theorem eq_of_mem_adminUnlockStates (ht : t.WellFormed) (hteam : team ∈ t.teams) {puzzleId : Id}
    {s : RbPuzzleStates} (h : (team.id, s) ∈ adminUnlockStates t puzzleId team.gameId) :
    s = rbState t team := by
  unfold adminUnlockStates candidateRows at h
  set teams := (t.teams.filter fun team' => team'.gameId = team.gameId ∧
    ¬ t.teamPuzzles.any fun row => row.teamId = team'.id ∧ row.puzzleId = puzzleId).insertionSort
      fun a b => a.id ≤ b.id with hdef
  have hperm := List.perm_insertionSort (fun a b : TeamRow => a.id ≤ b.id)
    (t.teams.filter fun team' => team'.gameId = team.gameId ∧
      ¬ t.teamPuzzles.any fun row => row.teamId = team'.id ∧ row.puzzleId = puzzleId)
  have hnodup : (teams.map (·.id)).Nodup := by
    rw [(hperm.map (·.id)).nodup_iff]
    exact ht.teams.sublist (List.filter_sublist.map _)
  rw [flushTeams_flatMap hnodup _ (by simp)] at h
  simp only [Option.toList_none, List.map_nil, List.nil_append, List.mem_map, Prod.mk.injEq] at h
  obtain ⟨team', hteam', hid, rfl⟩ := h
  have hmem : team' ∈ t.teams := List.mem_of_mem_filter (hperm.mem_iff.mp hteam')
  obtain rfl : team' = team := eq_of_id_eq ht.teams hmem hteam hid
  rw [puzzleRows_gameId ht, gameTriggerKeys_eq hteam]
  rfl

end Team

end Gate
