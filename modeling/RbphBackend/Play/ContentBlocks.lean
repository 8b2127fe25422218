import RbphBackend.Play.Unlock

set_option relaxedAutoImplicit false
set_option autoImplicit false

/-!
# Unlocking content blocks

`refresh_team_unlocks_if_dirty` looks at a team that is marked dirty: in one transaction that holds
the team's row it records the content blocks whose condition holds and takes the mark down.

## Main definitions

* `Play.Config.isAccessible` — the team has the puzzle of the block, or a puzzle of its round.
* `Play.teamStatesConn` — `team_states_conn`.
* `Play.refreshTeamUnlocksIfDirty` — `refresh_team_unlocks_if_dirty`.
-/

namespace Play

open Concurrency ReadCommitted Numeric Database Currency
open Release (RoundRow PuzzleRow)

/-! ## Blocks -/

namespace Config

variable (cfg : Config)

/-- The game of a block: that of its puzzle, or of its round. -/
def blockGame (cb : ContentBlock) : Option Id :=
  ((cb.puzzleId.bind cfg.puzzle).map (·.gameId)).or ((cb.roundId.bind cfg.round).map (·.gameId))

/-- The puzzle is a puzzle of a game. -/
def puzzleInGame (gameId puzzle : Id) : Bool := (cfg.puzzle puzzle).any fun p => p.gameId = gameId

/-- The team has the puzzle, and the puzzle is released. -/
def hasReleased (v : View) (now : ℤ) (team puzzle : Id) : Bool :=
  (v (.teamPuzzle team puzzle)).any (fun tp => decide (0 ≤ tp.state)) && cfg.released puzzle now

/-- The team has the released puzzle of the block, or one of its round. -/
def isAccessible (v : View) (now : ℤ) (team : Id) (cb : ContentBlock) : Bool :=
  cb.puzzleId.any (cfg.hasReleased v now team) ||
    cb.roundId.any fun round => cfg.puzzles.any fun p =>
      p.roundId = round && cfg.hasReleased v now team p.id

end Config

/-! ## Statements -/

section Statements

variable (cfg : Config) (team gameId : Id)

/-- `SELECT content_blocks_dirty, start_at FROM rb_team WHERE .. FOR UPDATE`. -/
def lockTeamOfGame : Statement (Option Team) := fun v _ =>
  match v (.team team) with
  | none => .ok { val := none }
  | some tm =>
    if tm.gameId = gameId then .ok { val := some tm, puts := [lockRow v (.team team)] }
    else .ok { val := none }

/-- The blocks of the game that have a condition and are accessible, by their ids. -/
def selectBlocks : Statement (List ContentBlock) := .read fun v now => .ok <|
  (cfg.contentBlocks.filter fun cb => cfg.blockGame cb = some gameId && cb.visibilityCond.isSome
    && cfg.isAccessible v now team cb).insertionSort fun a b => a.id ≤ b.id

/-- `SELECT content_block_id FROM rb_team_content_block_unlock WHERE team_id = $1`. -/
def selectUnlocked : Statement (Id → Bool) :=
  .read fun v _ => .ok fun cb => (v (.contentBlockUnlock team cb)).isSome

/-- The puzzles of the game the team has solved. -/
def selectSolvedOfGame : Statement (Id → Bool) :=
  .read fun v _ => .ok fun puzzle => cfg.puzzleInGame gameId puzzle && isSolved v team puzzle

/-- The triggers the team has for puzzles of the game. -/
def selectTriggersOfGame : Statement (Id × String → Bool) :=
  .read fun v _ => .ok fun key => cfg.puzzleInGame gameId key.1 && isTriggered v team key

/-- `INSERT INTO rb_team_content_block_unlock .. ON CONFLICT DO NOTHING`. -/
def insertContentBlockUnlock (contentBlock : Id) : Statement Unit := fun v now =>
  if (v (.contentBlockUnlock team contentBlock)).isNone then .ok {
    val := ()
    puts := [⟨.contentBlockUnlock team contentBlock, some now⟩] }
  else .ok { val := () }

/-- `UPDATE rb_team SET content_blocks_dirty = FALSE WHERE id = $1`. -/
def markTeamClean : Statement Unit := fun v _ =>
  match v (.team team) with
  | none => .ok { val := () }
  | some tm => .ok { val := (), puts := [⟨.team team, some { tm with contentBlocksDirty := false }⟩] }

end Statements

/-! ## The call -/

/-- What `team_states_conn` makes of the rows of a game. -/
def Config.contentStates (cfg : Config) (gameId : Id) (solved : Id → Bool)
    (triggers : Id × String → Bool) (gameStarted : Bool) : Gate.TeamContentStates :=
  Gate.assembleContent (cfg.rounds.filter fun r => r.gameId = gameId)
    (cfg.puzzles.filter fun p => p.gameId = gameId) solved triggers gameStarted

section Call

variable (cfg : Config) (t : Tid) (team gameId : Id)

/-- `team_states_conn`. -/
def teamStatesConn (gameStarted : Bool) : Call Gate.TeamContentStates := do
  let solved ← Tx.query t .stmt (selectSolvedOfGame cfg team gameId)
  let triggers ← Tx.query t .stmt (selectTriggersOfGame cfg team gameId)
  return cfg.contentStates gameId solved triggers gameStarted

/-- The state shows the block. -/
def ContentBlock.isAllowed (states : Expr.PuzzleStates) (cb : ContentBlock) : Bool :=
  cb.visibilityCond.any (condHolds states)

/-- The loop over the pending blocks. -/
def unlockBlocks (states : Gate.TeamContentStates) : List ContentBlock → Call Unit
  | [] => return ()
  | cb :: pending => do
    when (cb.isAllowed states.states = true)
      (Tx.query t .stmt (insertContentBlockUnlock team cb.id))
    unlockBlocks states pending

/-- The blocks that are not recorded, and the records of those whose condition holds. -/
def unlockPending (tm : Team) (pending : List ContentBlock) : Call Unit :=
  if pending.isEmpty then return ()
  else do
    let states ← teamStatesConn cfg t team gameId tm.startAt.isSome
    unlockBlocks t team states pending

/-- The transaction. -/
def refreshBody : Call (Bool × Unit) := do
  match ← Tx.query t .stmt (lockTeamOfGame team gameId) with
  | none => return (true, ())
  | some tm =>
    if tm.contentBlocksDirty then do
      let blocks ← Tx.query t .stmt (selectBlocks cfg team gameId)
      let unlocked ← Tx.query t .stmt (selectUnlocked team)
      unlockPending cfg t team gameId tm (blocks.filter fun cb => !unlocked cb.id)
      Tx.query t .stmt (markTeamClean team)
      return (true, ())
    else return (true, ())

/-- `refresh_team_unlocks_if_dirty`. -/
def refreshTeamUnlocksIfDirty : Call Unit := Tx.transaction t .stmt (refreshBody cfg t team gameId)

end Call

end Play
