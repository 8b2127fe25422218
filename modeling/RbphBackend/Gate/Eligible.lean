import RbphBackend.Gate.Builders

set_option relaxedAutoImplicit false
set_option autoImplicit false

/-!
# The teams a puzzle is unlocked for

An administrator unlocks a puzzle for the teams of a game that have no row for it and meet its
condition. The teams come with what they have solved, one row for each, in the order of their ids;
a loop gathers the rows of a team and asks the condition when those of the next one begin.

## Main definitions

* `Gate.eligibleTeamIds`, `Gate.adminUnlockPuzzleForEligibleTeams` —
  `admin_unlock_puzzle_for_eligible_teams`.
* `Gate.Candidates` — the rows that the loop may be given.
* `Gate.Eligible` — a team that the puzzle is to be unlocked for.

## Main results

* `Gate.flushTeams_groups` — what the loop makes of rows that are grouped by teams.
* `Gate.adminUnlock_eq` — the teams it is unlocked for.
-/

namespace Gate

open Expr (GateExpr ExprError)

/-! ## The function -/

/-- `entry(team_id).or_default().insert(..)`. -/
def insertTrigger (m : Id → Option (List (Id × String))) (row : TriggerRow) :
    Id → Option (List (Id × String)) :=
  Function.update m row.teamId
    (some ((m row.teamId).getD [] ++ [(row.puzzleId, row.triggerKey)]))

/-- The triggers of the teams of a game. -/
def teamTriggers (t : Tables) (gameId : Id) : Id → Option (List (Id × String)) :=
  (t.triggers.filter fun row => t.teams.any fun team =>
    team.id = row.teamId ∧ team.gameId = gameId).foldl insertTrigger fun _ => none

/-- `unlock_cond.map(compile_gate_expr).transpose()`. -/
def compileUnlockCond : Option String → Except ExprError (Option GateExpr)
  | none => .ok none
  | some text => (Expr.compileGateExpr text).map some

/-- The loop over the candidates: a team that is eligible is pushed when it is flushed. -/
def eligibleTeamIds (t : Tables) (gameId : Id) (cond : Option GateExpr)
    (rows : List (TeamRow × Option Id)) : List Id :=
  (flushTeams (fun teamId started solved =>
    let state := assemble (roundRows t gameId)
      (puzzleRows t.rounds t.puzzles fun row => row.2.gameId = gameId)
      solved.contains ((teamTriggers t gameId teamId).getD []).contains started
    if cond.all fun cond => Expr.evalCompiled state.states cond then some teamId else none)
    none false [] rows).reduceOption

/-- `INSERT … ON CONFLICT DO NOTHING RETURNING team_id`. -/
def insertTeamPuzzles (t : Tables) (puzzleId : Id) (teamIds : List Id) : List Id :=
  teamIds.filter fun id => ¬ t.teamPuzzles.any fun row => row.teamId = id ∧ row.puzzleId = puzzleId

/-- The teams that got a row for the puzzle. -/
def adminUnlockPuzzleForEligibleTeams (t : Tables) (puzzleId gameId : Id)
    (unlockCond : Option String) (rows : List (TeamRow × Option Id)) :
    Except ExprError (List Id) := do
  let cond ← compileUnlockCond unlockCond
  let ids := eligibleTeamIds t gameId cond rows
  if ids.isEmpty then return []
  return insertTeamPuzzles t puzzleId ids

/-- The rows of the candidates, in the order of the ids of the teams; those of one team may come in
any order. -/
structure Candidates (t : Tables) (puzzleId gameId : Id) (rows : List (TeamRow × Option Id)) :
    Prop where
  perm : rows.Perm (candidateRows t puzzleId gameId)
  sorted : rows.Pairwise fun a b => a.1.id ≤ b.1.id

/-- A team of the game without a row for the puzzle, whose own state meets the condition, if there
is one. -/
structure Eligible (t : Tables) (puzzleId gameId : Id) (cond : Option GateExpr) (team : TeamRow) :
    Prop where
  mem : team ∈ t.teams
  game : team.gameId = gameId
  missing : ∀ row ∈ t.teamPuzzles, ¬ (row.teamId = team.id ∧ row.puzzleId = puzzleId)
  meets : ∀ c, cond = some c → Expr.evalCompiled (rbState t team).states c = true

variable {t : Tables} {puzzleId gameId : Id}

/-! ## Rows grouped by teams -/

section Groups

variable {α : Type} {flush : Id → Bool → List Id → α} {group : TeamRow → List (Option Id)}

/-- **What the loop makes of groups of rows**: each team is flushed once, with what is in its own
rows. -/
theorem flushTeams_groups {teams : List TeamRow} (hteams : (teams.map (·.id)).Nodup)
    (hgroup : ∀ team ∈ teams, group team ≠ []) {current : Option Id}
    (hnew : ∀ team ∈ teams, current ≠ some team.id) (started : Bool) (solved : List Id) :
    flushTeams flush current started solved
        (teams.flatMap fun team => (group team).map fun o => (team, o)) =
      (current.toList.map fun id => flush id started solved) ++
        teams.map fun team => flush team.id team.startAt.isSome ((group team).filterMap id) := by
  induction teams generalizing current started solved with
  | nil => simp [flushTeams]
  | cons team teams ih =>
    rw [List.map_cons, List.nodup_cons] at hteams
    obtain ⟨o, os, heq⟩ := List.exists_cons_of_ne_nil (hgroup team List.mem_cons_self)
    have hsolved : o.toList ++ os.filterMap id = (group team).filterMap id := by
      rw [heq]
      cases o <;> simp
    have hrest : ∀ team' ∈ teams, some team.id ≠ some team'.id := by
      intro team' hteam' h
      exact hteams.1 (List.mem_map.mpr ⟨team', hteam', (Option.some.inj h).symm⟩)
    rw [List.flatMap_cons, heq, List.map_cons, List.cons_append, flushTeams,
      if_pos (hnew team List.mem_cons_self), flushTeams_same, hsolved,
      ih hteams.2 (fun team' hteam' => hgroup team' (List.mem_cons_of_mem _ hteam')) hrest]
    simp

/-- Sorted rows begin with those of the least team. -/
lemma rows_eq_append {rows : List (TeamRow × Option Id)} {least : Id}
    (hsorted : rows.Pairwise fun a b => a.1.id ≤ b.1.id) (hleast : ∀ row ∈ rows, least ≤ row.1.id) :
    rows = rows.filter (fun row => row.1.id = least) ++
      rows.filter fun row => ¬ row.1.id = least := by
  induction rows with
  | nil => rfl
  | cons row rows ih =>
    rw [List.pairwise_cons] at hsorted
    have htail := ih hsorted.2 fun row' hrow' => hleast row' (List.mem_cons_of_mem _ hrow')
    by_cases hrow : row.1.id = least
    · rw [List.filter_cons_of_pos (by simpa using hrow), List.filter_cons_of_neg (by simpa using hrow),
        List.cons_append, ← htail]
    · -- no row of the least team comes after a row of another one
      have hnone : rows.filter (fun row => row.1.id = least) = [] := by
        rw [List.filter_eq_nil_iff]
        intro row' hrow' hid
        have hle := hsorted.1 row' hrow'
        have hge := hleast row List.mem_cons_self
        rw [of_decide_eq_true hid] at hle
        exact hrow (le_antisymm hle hge)
      rw [hnone, List.nil_append] at htail
      rw [List.filter_cons_of_neg (by simpa using hrow), List.filter_cons_of_pos (by simpa using hrow),
        hnone, List.nil_append, ← htail]

/-- Sorted rows of teams are grouped by them. -/
lemma exists_groups {teams : List TeamRow} {rows : List (TeamRow × Option Id)}
    (hteams : teams.Pairwise fun a b => a.id < b.id)
    (hsorted : rows.Pairwise fun a b => a.1.id ≤ b.1.id)
    (hperm : rows.Perm (teams.flatMap fun team => (group team).map fun o => (team, o))) :
    ∃ group' : TeamRow → List (Option Id), (∀ team ∈ teams, (group' team).Perm (group team)) ∧
      rows = teams.flatMap fun team => (group' team).map fun o => (team, o) := by
  induction teams generalizing rows with
  | nil => exact ⟨group, fun _ h => absurd h List.not_mem_nil, hperm.eq_nil⟩
  | cons team teams ih =>
    rw [List.pairwise_cons] at hteams
    rw [List.flatMap_cons] at hperm
    have hmine : ((group team).map fun o => (team, o)).filter
        (fun row : TeamRow × Option Id => row.1.id = team.id) =
          (group team).map fun o => (team, o) := by
      refine List.filter_eq_self.mpr fun row hrow => ?_
      obtain ⟨o, -, rfl⟩ := List.mem_map.mp hrow
      exact decide_eq_true rfl
    have hothers : ∀ row ∈ teams.flatMap fun team => (group team).map fun o => (team, o),
        team.id < row.1.id := by
      intro row hrow
      obtain ⟨team', hteam', hrow⟩ := List.mem_flatMap.mp hrow
      obtain ⟨o, -, rfl⟩ := List.mem_map.mp hrow
      exact hteams.1 team' hteam'
    have hleast : ∀ row ∈ rows, team.id ≤ row.1.id := by
      intro row hrow
      obtain hrow | hrow := List.mem_append.mp (hperm.mem_iff.mp hrow)
      · obtain ⟨o, -, rfl⟩ := List.mem_map.mp hrow
        exact le_rfl
      · exact (hothers row hrow).le
    have hfirst : (rows.filter fun row => row.1.id = team.id).Perm
        ((group team).map fun o => (team, o)) := by
      have h := hperm.filter fun row : TeamRow × Option Id => row.1.id = team.id
      rwa [List.filter_append, hmine, List.filter_eq_nil_iff.mpr (fun row hrow hid =>
        absurd (of_decide_eq_true hid) (hothers row hrow).ne'), List.append_nil] at h
    have hrest : (rows.filter fun row => ¬ row.1.id = team.id).Perm
        (teams.flatMap fun team => (group team).map fun o => (team, o)) := by
      have h := hperm.filter fun row : TeamRow × Option Id => ¬ row.1.id = team.id
      have hnone : ((group team).map fun o => (team, o)).filter
          (fun row : TeamRow × Option Id => ¬ row.1.id = team.id) = [] := by
        refine List.filter_eq_nil_iff.mpr fun row hrow => ?_
        obtain ⟨o, -, rfl⟩ := List.mem_map.mp hrow
        simp
      rwa [List.filter_append, hnone, List.nil_append, List.filter_eq_self.mpr fun row hrow =>
        decide_eq_true (hothers row hrow).ne'] at h
    obtain ⟨group', hgroup', hrows⟩ := ih hteams.2 (hsorted.filter _) hrest
    -- the rows of the first team, with the team left out
    have hne : ∀ team' ∈ teams, team' ≠ team := by
      rintro team' hteam' rfl
      exact lt_irrefl _ (hteams.1 team' hteam')
    have hmap : ((rows.filter fun row => row.1.id = team.id).map (·.2)).map (fun o => (team, o)) =
        rows.filter fun row => row.1.id = team.id := by
      rw [List.map_map]
      conv_rhs => rw [← List.map_id (rows.filter fun row => row.1.id = team.id)]
      refine List.map_congr_left fun row hrow => ?_
      obtain ⟨o, -, rfl⟩ := List.mem_map.mp (hfirst.mem_iff.mp hrow)
      rfl
    refine ⟨fun team' => if team' = team then
      (rows.filter fun row => row.1.id = team.id).map (·.2) else group' team', ?_, ?_⟩
    · intro team' hteam'
      by_cases heq : team' = team
      · subst heq
        dsimp only
        rw [if_pos rfl]
        have h := hfirst.map (·.2)
        rwa [List.map_map, show (fun row : TeamRow × Option Id => row.2) ∘ (fun o => (team', o)) = id
          from rfl, List.map_id] at h
      · dsimp only
        rw [if_neg heq]
        exact hgroup' team' ((List.mem_cons.mp hteam').resolve_left heq)
    · have htail : (teams.flatMap fun team' => (if team' = team then
          (rows.filter fun row => row.1.id = team.id).map (·.2) else group' team').map
            fun o => (team', o)) = teams.flatMap fun team' => (group' team').map fun o => (team', o) := by
        refine List.flatMap_congr fun team' hteam' => ?_
        rw [if_neg (hne team' hteam')]
      rw [List.flatMap_cons, htail]
      dsimp only
      rw [if_pos rfl, hmap, ← hrows]
      exact rows_eq_append hsorted hleast

end Groups

/-! ## The teams that are selected -/

section Selected

variable {rows : List (TeamRow × Option Id)} {cond : Option GateExpr}

/-- What the map has for a team are the triggers of its rows. -/
lemma foldl_insertTrigger (rows : List TriggerRow) (m : Id → Option (List (Id × String)))
    (teamId : Id) : ((rows.foldl insertTrigger m) teamId).getD [] = (m teamId).getD [] ++
      (rows.filter fun row => row.teamId = teamId).map fun row => (row.puzzleId, row.triggerKey) := by
  induction rows generalizing m with
  | nil => simp
  | cons row rows ih =>
    rw [List.foldl_cons, ih]
    by_cases hrow : row.teamId = teamId
    · subst hrow
      rw [insertTrigger, Function.update_self, List.filter_cons_of_pos (by simp)]
      simp
    · rw [insertTrigger, Function.update_of_ne (Ne.symm hrow),
        List.filter_cons_of_neg (by simpa using hrow)]

lemma teamTriggers_eq {team : TeamRow} (hteam : team ∈ t.teams) :
    (teamTriggers t team.gameId team.id).getD [] = triggerKeys t team.id := by
  rw [teamTriggers, foldl_insertTrigger, Option.getD_none, List.nil_append, ← gameTriggerKeys_eq hteam]
  rfl

/-- The teams that the candidates are of. -/
def candidateTeams (t : Tables) (puzzleId gameId : Id) : List TeamRow :=
  (t.teams.filter fun team => team.gameId = gameId ∧
    ¬ t.teamPuzzles.any fun row => row.teamId = team.id ∧ row.puzzleId = puzzleId).insertionSort
      fun a b => a.id ≤ b.id

lemma mem_candidateTeams {team : TeamRow} : team ∈ candidateTeams t puzzleId gameId ↔
    team ∈ t.teams ∧ team.gameId = gameId ∧
      ∀ row ∈ t.teamPuzzles, ¬ (row.teamId = team.id ∧ row.puzzleId = puzzleId) := by
  rw [candidateTeams, List.mem_insertionSort, List.mem_filter, decide_eq_true_eq,
    Bool.not_eq_true, List.any_eq_false]
  simp only [decide_eq_true_eq]

lemma nodup_candidateTeams (ht : t.WellFormed) :
    ((candidateTeams t puzzleId gameId).map (·.id)).Nodup := by
  have hperm : (candidateTeams t puzzleId gameId).Perm _ := List.perm_insertionSort _ _
  rw [(hperm.map (·.id)).nodup_iff]
  exact ht.teams.sublist (List.filter_sublist.map _)

lemma pairwise_candidateTeams (ht : t.WellFormed) :
    (candidateTeams t puzzleId gameId).Pairwise fun a b => a.id < b.id := by
  have hle : (candidateTeams t puzzleId gameId).Pairwise fun a b => a.id ≤ b.id :=
    List.pairwise_insertionSort _ _
  have hnodup : ((candidateTeams t puzzleId gameId).map (·.id)).Nodup := nodup_candidateTeams ht
  have hne := List.pairwise_map.mp hnodup
  exact hle.imp₂ (fun _ _ h h' => lt_of_le_of_ne h h') hne

/-- The solved puzzles of a team, as a join has them. -/
def solvedGroup (t : Tables) (team : TeamRow) : List (Option Id) :=
  (leftJoin team (solvedIds t team.id)).map (·.2)

lemma map_solvedGroup (team : TeamRow) :
    (solvedGroup t team).map (fun o => (team, o)) = leftJoin team (solvedIds t team.id) := by
  obtain ⟨o, os, heq⟩ := leftJoin_eq_map team (solvedIds t team.id)
  rw [solvedGroup, heq, List.map_map, List.map_map]
  rfl

lemma solvedGroup_ne_nil (team : TeamRow) : solvedGroup t team ≠ [] := by
  obtain ⟨o, os, heq⟩ := leftJoin_eq_map team (solvedIds t team.id)
  rw [solvedGroup, heq]
  exact List.cons_ne_nil _ _

lemma filterMap_solvedGroup (team : TeamRow) :
    (solvedGroup t team).filterMap id = solvedIds t team.id := by
  rw [solvedGroup, List.filterMap_map]
  exact leftJoin_filterMap team (solvedIds t team.id)

/-- The candidates come grouped, each team with what it has solved in some order. -/
lemma Candidates.exists_groups (ht : t.WellFormed) (hrows : Candidates t puzzleId gameId rows) :
    ∃ group : TeamRow → List (Option Id),
      (∀ team ∈ candidateTeams t puzzleId gameId, (group team).Perm (solvedGroup t team)) ∧
      rows = (candidateTeams t puzzleId gameId).flatMap fun team =>
        (group team).map fun o => (team, o) := by
  refine Gate.exists_groups (pairwise_candidateTeams ht) hrows.sorted ?_
  have heq : candidateRows t puzzleId gameId = (candidateTeams t puzzleId gameId).flatMap fun team =>
      (solvedGroup t team).map fun o => (team, o) := by
    refine List.flatMap_congr fun team _ => ?_
    exact (map_solvedGroup team).symm
  rw [← heq]
  exact hrows.perm

/-- A team that is flushed with what it has solved, in any order, is asked in its own state. -/
lemma assemble_eq_rbState (ht : t.WellFormed) {team : TeamRow} (hteam : team ∈ t.teams)
    {solved : List Id} (hsolved : solved.Perm (solvedIds t team.id)) :
    assemble (roundRows t team.gameId)
      (puzzleRows t.rounds t.puzzles fun row => row.2.gameId = team.gameId) solved.contains
      ((teamTriggers t team.gameId team.id).getD []).contains team.startAt.isSome =
        rbState t team := by
  have hcontains : solved.contains = (solvedIds t team.id).contains := by
    funext id
    exact hsolved.contains_eq
  rw [hcontains, teamTriggers_eq hteam, puzzleRows_gameId ht]
  rfl

/-- **The teams that the loop pushes** are the candidates whose own state meets the condition. -/
theorem eligibleTeamIds_eq (ht : t.WellFormed) (hrows : Candidates t puzzleId gameId rows) :
    eligibleTeamIds t gameId cond rows = ((candidateTeams t puzzleId gameId).filter fun team =>
      cond.all fun cond => Expr.evalCompiled (rbState t team).states cond).map (·.id) := by
  obtain ⟨group, hgroup, heq⟩ := hrows.exists_groups ht
  have hne : ∀ team ∈ candidateTeams t puzzleId gameId, group team ≠ [] := by
    intro team hteam hnil
    exact solvedGroup_ne_nil team ((hnil ▸ hgroup team hteam).symm.eq_nil)
  rw [eligibleTeamIds, heq, flushTeams_groups (nodup_candidateTeams ht) hne (by simp)]
  simp only [Option.toList_none, List.map_nil, List.nil_append]
  have hreduce : ∀ column : List (Option Id), column.reduceOption = column.filterMap id := fun _ => rfl
  rw [hreduce, List.filterMap_map, ← List.filterMap_eq_filter, List.map_filterMap]
  refine List.filterMap_congr fun team hteam => ?_
  obtain ⟨hmem, rfl, -⟩ := mem_candidateTeams.mp hteam
  have hsolved : ((group team).filterMap id).Perm (solvedIds t team.id) := by
    rw [← filterMap_solvedGroup]
    exact (hgroup team hteam).filterMap id
  dsimp only [Function.comp_apply, id]
  rw [assemble_eq_rbState ht hmem hsolved]
  by_cases h : (cond.all fun cond => Expr.evalCompiled (rbState t team).states cond) = true
  · simp [h, Option.guard]
  · simp [h, Option.guard]

lemma mem_eligibleTeamIds (ht : t.WellFormed) (hrows : Candidates t puzzleId gameId rows)
    {teamId : Id} : teamId ∈ eligibleTeamIds t gameId cond rows ↔
      ∃ team, team.id = teamId ∧ Eligible t puzzleId gameId cond team := by
  rw [eligibleTeamIds_eq ht hrows, List.mem_map]
  constructor
  · rintro ⟨team, hteam, rfl⟩
    obtain ⟨hcand, hall⟩ := List.mem_filter.mp hteam
    obtain ⟨hmem, hgame, hmissing⟩ := mem_candidateTeams.mp hcand
    refine ⟨team, rfl, hmem, hgame, hmissing, ?_⟩
    rintro c rfl
    exact hall
  · rintro ⟨team, rfl, hteam⟩
    refine ⟨team, List.mem_filter.mpr ⟨?_, ?_⟩, rfl⟩
    · exact mem_candidateTeams.mpr ⟨hteam.mem, hteam.game, hteam.missing⟩
    · cases cond with
      | none => rfl
      | some c => exact hteam.meets c rfl

lemma nodup_eligibleTeamIds (ht : t.WellFormed) (hrows : Candidates t puzzleId gameId rows) :
    (eligibleTeamIds t gameId cond rows).Nodup := by
  rw [eligibleTeamIds_eq ht hrows]
  exact (nodup_candidateTeams ht).sublist (List.filter_sublist.map _)

/-- No row of an eligible team stands in the way of its new one. -/
lemma insertTeamPuzzles_eligibleTeamIds (ht : t.WellFormed)
    (hrows : Candidates t puzzleId gameId rows) :
    insertTeamPuzzles t puzzleId (eligibleTeamIds t gameId cond rows) =
      eligibleTeamIds t gameId cond rows := by
  refine List.filter_eq_self.mpr fun teamId hteamId => ?_
  obtain ⟨team, rfl, hteam⟩ := (mem_eligibleTeamIds ht hrows).mp hteamId
  rw [decide_eq_true_eq, Bool.not_eq_true, List.any_eq_false]
  intro row hrow hown
  exact hteam.missing row hrow (of_decide_eq_true hown)

/-- **The teams a puzzle is unlocked for**: a condition that does not compile is an error; with any
other, the teams that get a row are the eligible ones, each once, and each is asked in its own
state. -/
theorem adminUnlock_eq (ht : t.WellFormed) (hrows : Candidates t puzzleId gameId rows)
    (unlockCond : Option String) :
    (∀ e, compileUnlockCond unlockCond = .error e →
      adminUnlockPuzzleForEligibleTeams t puzzleId gameId unlockCond rows = .error e) ∧
    ∀ cond, compileUnlockCond unlockCond = .ok cond → ∃ ids,
      adminUnlockPuzzleForEligibleTeams t puzzleId gameId unlockCond rows = .ok ids ∧ ids.Nodup ∧
      ∀ teamId, teamId ∈ ids ↔ ∃ team, team.id = teamId ∧ Eligible t puzzleId gameId cond team := by
  constructor
  · intro e he
    rw [adminUnlockPuzzleForEligibleTeams, he]
    rfl
  · intro cond hcond
    refine ⟨eligibleTeamIds t gameId cond rows, ?_, nodup_eligibleTeamIds ht hrows,
      fun teamId => mem_eligibleTeamIds ht hrows⟩
    have hinsert : insertTeamPuzzles t puzzleId (eligibleTeamIds t gameId cond rows) =
        eligibleTeamIds t gameId cond rows := insertTeamPuzzles_eligibleTeamIds ht hrows
    have hrun : adminUnlockPuzzleForEligibleTeams t puzzleId gameId unlockCond rows =
        if (eligibleTeamIds t gameId cond rows).isEmpty then .ok []
        else .ok (insertTeamPuzzles t puzzleId (eligibleTeamIds t gameId cond rows)) := by
      rw [adminUnlockPuzzleForEligibleTeams, hcond]
      rfl
    rw [hrun, hinsert]
    cases eligibleTeamIds t gameId cond rows <;> rfl

end Selected

/-- The first team has the puzzle, the second has solved two others, the third none. -/
def unlockTables : Tables where
  rounds := [⟨1, none, 0, 1, none⟩]
  puzzles := []
  teams := [⟨3, 1, some 0⟩, ⟨1, 1, some 0⟩, ⟨2, 1, none⟩]
  teamPuzzles := [⟨1, 9, 0⟩, ⟨2, 5, 1⟩, ⟨2, 6, 1⟩]
  triggers := [⟨2, 5, "door"⟩]

/-- The rows of the second team, in the other order, and then the one of the third. -/
theorem adminUnlock_eq_unlockTables : ∃ ids,
    adminUnlockPuzzleForEligibleTeams unlockTables 9 1 none
      [(⟨2, 1, none⟩, some 6), (⟨2, 1, none⟩, some 5), (⟨3, 1, some 0⟩, none)] = .ok ids ∧
    ids.Nodup ∧ ∀ teamId, teamId ∈ ids ↔
      ∃ team, team.id = teamId ∧ Eligible unlockTables 9 1 none team := by
  have ht : unlockTables.WellFormed := by constructor <;> decide
  have hrows : Candidates unlockTables 9 1
      [(⟨2, 1, none⟩, some 6), (⟨2, 1, none⟩, some 5), (⟨3, 1, some 0⟩, none)] := by
    constructor <;> decide
  exact (adminUnlock_eq ht hrows none).2 none rfl

end Gate
