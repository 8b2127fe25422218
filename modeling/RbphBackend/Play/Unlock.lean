import RbphBackend.Play.Config

set_option relaxedAutoImplicit false
set_option autoImplicit false

/-!
# What the state of a team unlocks

The calls that look at a team's solved puzzles, its triggers and whether it has started:
`unlock_new_puzzles`, which unlocks puzzles, and `refresh_team_hint_states`, which enables and
displays hints. The tables of rounds and puzzles are configuration, so they are read without a
statement.

## Main definitions

* `Play.isSolved`, `Play.isTriggered` — what of a team's rows a condition can see.
* `Play.teamGateStateConn` — `team_gate_state_conn`.
* `Play.unlockNewPuzzles` — `unlock_new_puzzles`.
* `Play.refreshTeamHintStates` — `refresh_team_hint_states`.
-/

namespace Play

open Concurrency ReadCommitted Numeric Database Currency
open Release (RoundRow PuzzleRow)

/-- Where a statement runs: in a transaction, or on a connection of its own. -/
abbrev Executor : Type 1 := ∀ {β : Type}, Statement β → Call β

/-- A part of a call that is run on a condition. -/
def when (c : Prop) [Decidable c] (p : Call Unit) : Call Unit := if c then p else pure ()

/-! ## The state of a team -/

/-- The team has solved the puzzle. -/
def isSolved (v : View) (team puzzle : Id) : Bool :=
  (v (.teamPuzzle team puzzle)).any fun tp => decide (1 ≤ tp.state)

/-- The team has the trigger. -/
def isTriggered (v : View) (team : Id) (key : Id × String) : Bool :=
  (v (.trigger team key.1 key.2)).isSome

/-- `SELECT .. FROM rb_team WHERE id = $1`. -/
def selectTeam (team : Id) : Statement (Option Team) := .read fun v _ => .ok (v (.team team))

/-- `SELECT puzzle_id FROM rb_team_puzzle WHERE team_id = $1 AND state >= 1`. -/
def selectSolved (team : Id) : Statement (Id → Bool) := .read fun v _ => .ok (isSolved v team)

/-- `SELECT puzzle_id, trigger_key FROM rb_team_puzzle_trigger WHERE team_id = $1`. -/
def selectTriggers (team : Id) : Statement (Id × String → Bool) :=
  .read fun v _ => .ok (isTriggered v team)

/-- The state made of the rounds of a game and of the puzzles `keep` selects. -/
def Config.gateState (cfg : Config) (gameId : Id) (keep : PuzzleRow × RoundRow → Bool)
    (solved : Id → Bool) (triggers : Id × String → Bool) (gameStarted : Bool) :
    Gate.RbPuzzleStates :=
  Gate.assemble (cfg.rounds.filter fun r => r.gameId = gameId)
    (Gate.puzzleRows cfg.rounds cfg.puzzles keep) solved triggers gameStarted

/-- `team_gate_state_conn`. -/
def teamGateStateConn (cfg : Config) (run : Executor) (team : Id) :
    Call (Option Gate.RbPuzzleStates) := do
  match ← run (selectTeam team) with
  | none => return none
  | some tm =>
    let solved ← run (selectSolved team)
    let triggers ← run (selectTriggers team)
    return some (cfg.gateState tm.gameId (fun row => row.1.gameId = tm.gameId) solved triggers
      tm.startAt.isSome)

/-- A condition that compiles and holds. -/
def condHolds (states : Expr.PuzzleStates) (cond : String) : Bool :=
  match Expr.compileGateExpr cond with
  | .ok expr => Expr.evalCompiled states expr
  | .error _ => false

/-! ## Dirty marks -/

/-- `content::mark_team_dirty_conn`. -/
def markTeamDirty (team : Id) : Statement Unit := fun v _ =>
  match v (.team team) with
  | none => .ok { val := () }
  | some tm => .ok { val := (), puts := [⟨.team team, some { tm with contentBlocksDirty := true }⟩] }

/-- `LEADER_BOARD_CACHE.update_team`: the mark of the main board. -/
def updateTeam (team : Id) (affectsOrder : Bool) : Statement Unit := fun v _ =>
  match v (.team team) with
  | none => .ok { val := () }
  | some _ =>
    let revision := v .leaderboardDirtyRevision
    let affects := ((v (.leaderboardDirty team)).any (·.affectsOrder)) || affectsOrder
    .ok {
      val := ()
      puts := [⟨.leaderboardDirty team, some ⟨revision, affects⟩⟩,
        ⟨.leaderboardDirtyRevision, revision + 1⟩] }

/-! ## Puzzles -/

section Unlock

variable (cfg : Config) (t : Tid) (team : Id)

/-- The game of a team, when it started, and what it has solved. -/
def selectUnlockInfo : Statement (Option (Id × Option ℤ × (Id → Bool))) :=
  .read fun v _ => .ok ((v (.team team)).map fun tm => (tm.gameId, tm.startAt, isSolved v team))

/-- The puzzles whose condition holds, of those not solved. -/
def unlockCandidates (state : Gate.RbPuzzleStates) (gameId : Id) : List Id :=
  (Gate.puzzleRows cfg.rounds cfg.puzzles fun row => row.2.gameId = gameId).filterMap fun row =>
    match row.1.unlockCond with
    | none => none
    | some cond =>
      if !state.states.isSolved row.1.id && condHolds state.states cond then some row.1.id else none

/-- `INSERT INTO rb_team_puzzle .. ON CONFLICT DO NOTHING RETURNING puzzle_id`. -/
def insertTeamPuzzles (unlocks : List Id) : Statement (List PuzzleRow) := fun v now =>
  let inserted := unlocks.dedup.filter fun puzzle => (v (.teamPuzzle team puzzle)).isNone
  .ok {
    val := inserted.filterMap cfg.puzzle
    puts := inserted.map fun puzzle => ⟨.teamPuzzle team puzzle, some ⟨0, 0, now, none, none⟩⟩ }

def puzzleUnlockedEvent (gameId : Id) (puzzle : PuzzleRow) : EventLogInput where
  eventType := "puzzle.unlocked"
  gameId := some gameId
  teamId := some team
  puzzleId := some puzzle.id
  roundId := some puzzle.roundId
  data := .puzzle puzzle.id puzzle.title

/-- The end of `unlock_new_puzzles`, with the puzzles whose condition holds. -/
def insertUnlocks (gameId : Id) (unlocks : List Id) : Call (List Id) :=
  if unlocks.isEmpty then return []
  else do
    let inserted ← Tx.pool t .stmt (insertTeamPuzzles cfg team unlocks)
    if inserted.isEmpty then return []
    else do
      Tx.pool t .stmt (markTeamDirty team)
      inserted.forM fun puzzle => Tx.pool t .stmt (insertEvent (puzzleUnlockedEvent team gameId puzzle))
      return inserted.map (·.id)

/-- `unlock_new_puzzles`. -/
def unlockNewPuzzles : Call (List Id) := do
  match ← Tx.pool t .stmt (selectUnlockInfo team) with
  | none => return []
  | some (gameId, startAt, solved) =>
    let triggers ← Tx.pool t .stmt (selectTriggers team)
    let state := cfg.gateState gameId (fun row => row.2.gameId = gameId) solved triggers
      startAt.isSome
    insertUnlocks cfg t team gameId (unlockCandidates cfg state gameId)

end Unlock

/-! ## Hints -/

section Hints

variable (cfg : Config) (t : Tid) (team : Id) (puzzle : Option Id)

/-- `hint_display_condition_met`. -/
def hintDisplayConditionMet (condition : Option String) (default : Bool)
    (state : Gate.RbPuzzleStates) (enabled cooldownComplete : Bool) : Bool :=
  match condition with
  | none => default
  | some condition =>
    match Expr.compileHintDisplayExpr condition with
    | .ok expr => Expr.evalHintDisplayCompiled state.states enabled cooldownComplete expr
    | .error _ => false

/-- A hint whose state may have to change. -/
structure PendingHint where
  hint : Hint
  enabled : Bool
  displayPending : Bool
  titleDisplayPending : Bool

/-- The hints of released puzzles the team has that are not purchased and whose state may have to
change. -/
def selectPendingHints : Statement (List PendingHint) :=
  .read fun v now => .ok <| cfg.hints.filterMap fun h =>
    let enabled := h.enableCond.isNone || (v (.hintEnable team h.id)).isSome
    let visibility := v (.hintVisibility team h.id)
    let displayPending := h.cooldownOrigin = 2 && (visibility.bind (·.displayedAt)).isNone
    let titleDisplayPending := h.cooldownOrigin = 3 && (visibility.bind (·.titleDisplayedAt)).isNone
    if cfg.released h.puzzleId now
        && (v (.teamPuzzle team h.puzzleId)).any (fun tp => decide (0 ≤ tp.state))
        && (!enabled || displayPending || titleDisplayPending)
        && !(v (.teamHint team h.id)).any id
        && puzzle.all (· = h.puzzleId) then
      some ⟨h, enabled, displayPending, titleDisplayPending⟩
    else none

/-- The pending hint is enabled by the state. -/
def PendingHint.newlyEnabled (state : Gate.RbPuzzleStates) (p : PendingHint) : Bool :=
  !p.enabled && p.hint.enableCond.any (condHolds state.states)

/-- Whether the pending hint becomes visible, and if so whether it is displayed or only its title
is. -/
def PendingHint.newlyVisible (state : Gate.RbPuzzleStates) (p : PendingHint) : Option Bool :=
  let enabled := p.enabled || p.newlyEnabled state
  if p.hint.cooldownOrigin = 2 && p.displayPending then
    if hintDisplayConditionMet p.hint.displayCondition true state enabled false then some true
    else none
  else if p.hint.cooldownOrigin = 3 && p.titleDisplayPending then
    if hintDisplayConditionMet p.hint.titleDisplayCondition false state enabled false then some false
    else none
  else none

/-- `INSERT INTO rb_team_hint_enable .. ON CONFLICT DO NOTHING`. -/
def insertHintEnables (hints : List Id) : Statement Unit := fun v now => .ok {
  val := ()
  puts := (hints.filter fun h => (v (.hintEnable team h)).isNone).map fun h =>
    ⟨.hintEnable team h, some now⟩ }

/-- The upsert of `rb_team_hint_visibility`; instants that are set stay. -/
def upsertHintVisibility (hints : List (Id × Bool)) : Statement Unit := fun v now => .ok {
  val := ()
  puts := hints.map fun h =>
    let old := v (.hintVisibility team h.1)
    ⟨.hintVisibility team h.1, some
      ⟨(old.bind (·.displayedAt)).or (if h.2 then some now else none),
        (old.bind (·.titleDisplayedAt)).or (if h.2 then none else some now)⟩⟩ }

/-- The writes of `refresh_team_hint_states_conn`. -/
def applyHintStates (state : Gate.RbPuzzleStates) (pending : List PendingHint) :
    Call Unit := do
  let enabled := (pending.filter (·.newlyEnabled state)).map (·.hint.id)
  let visible := pending.filterMap fun p => (p.newlyVisible state).map fun shown => (p.hint.id, shown)
  when (enabled ≠ []) (Tx.query t .stmt (insertHintEnables team enabled))
  when (visible ≠ []) (Tx.query t .stmt (upsertHintVisibility team visible))

/-- `refresh_team_hint_states_conn`. -/
def refreshTeamHintStatesConn : Call Unit := do
  let pending ← Tx.query t .stmt (selectPendingHints cfg team puzzle)
  if pending.isEmpty then return ()
  else
    match ← teamGateStateConn cfg (Tx.query t .stmt) team with
    | none => return ()
    | some state => applyHintStates t team state pending

/-- `refresh_team_hint_states`. -/
def refreshTeamHintStates : Call Unit :=
  Tx.transaction t .stmt do
    refreshTeamHintStatesConn cfg t team puzzle
    return (true, ())

end Hints

end Play
