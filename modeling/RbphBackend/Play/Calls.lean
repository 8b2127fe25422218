import RbphBackend.Play.Rows

set_option relaxedAutoImplicit false
set_option autoImplicit false

/-!
# The calls of a game

The calls that act for a team, as the threads of a pool, and what their commits are asked about: do
they change what conditions see or what the board ranks, do they give the team a puzzle, do they mark
the board; does the team have every puzzle and every content block that its state opens.

## Main definitions

* `Play.GameCall`, `Play.pool` — the calls, and the pool that runs one call in each thread.
* `Play.Advances`, `Play.Reranks`, `Play.Inserts`, `Play.Marks` — what a commit does for a team.
* `Play.Unlocked`, `Play.Recorded` — every puzzle, every content block that the state of the team
  opens is there.
-/

namespace Play

open Concurrency ReadCommitted Numeric Database Currency
open Release (RoundRow PuzzleRow)

/-! ## Calls -/

inductive GameCall where
  | submitAnswer (user : AuthUser) (puzzle : Id) (answer : String) (submitId : Id)
  | purchaseHint (user hint : Id)
  | solveBackendPuzzle (team user puzzle submission : Id)
  | refreshTeamUnlocksIfDirty (team gameId : Id)

inductive GameResult where
  | submitted (result : SubmitAnswerResult)
  | purchased (result : PurchaseHintResult)
  | solved (solved : Bool)
  | refreshed

/-- The program of a call. -/
def GameCall.run (cfg : Config) (t : Tid) : GameCall → Call GameResult
  | submitAnswer user puzzle answer submitId => do
    let result ← Play.submitAnswer cfg t user puzzle answer submitId
    return .submitted result
  | purchaseHint user hint => do
    let result ← Play.purchaseHint cfg t user hint
    return .purchased result
  | solveBackendPuzzle team user puzzle submission => do
    let solved ← Play.solveBackendPuzzle cfg t team user puzzle submission
    return .solved solved
  | refreshTeamUnlocksIfDirty team gameId => do
    Play.refreshTeamUnlocksIfDirty cfg t team gameId
    return .refreshed

/-- The call is a submission. -/
def GameCall.submits : GameCall → Bool
  | submitAnswer .. => true
  | _ => false

/-- What a thread runs: its call, or nothing. -/
def thread (cfg : Config) (calls : Tid → Option GameCall) (t : Tid) :
    Prog Label Store (Except String (Option GameResult)) :=
  match calls t with
  | none => .ret (.ok none)
  | some call => (do let result ← call.run cfg t; return some result : Call (Option GameResult)).run

/-- The pool that runs the calls on a store. -/
def pool (cfg : Config) (calls : Tid → Option GameCall) (d : Store) :
    Concurrency.Config Label Store (Except String (Option GameResult)) :=
  ⟨d, thread cfg calls⟩

/-! ## Commits -/

/-- A committed transaction. -/
abbrev GameCommit := Commit Val EventLogInput

section Commits

variable (team : Id) (e : GameCommit)

/-- What conditions see of the team has changed: a puzzle is solved, a trigger is stored, the game
has started. -/
def Advances : Prop := ¬ GateSame team e.before e.after

/-- What the board ranks of the team has changed. -/
def Reranks : Prop := ¬ BoardSame team e.before e.after

/-- The team has a puzzle it did not have. -/
def Inserts : Prop := ∃ p, e.before (.teamPuzzle team p) = none ∧ e.after (.teamPuzzle team p) ≠ none

/-- The team is marked on the board, with a revision of its own. -/
def Marks : Prop :=
  (e.after (.leaderboardDirty team)).map (·.revision) = some (e.before .leaderboardDirtyRevision) ∧
    e.after .leaderboardDirtyRevision = e.before .leaderboardDirtyRevision + 1

/-- The last thing the session has done is to give the team a puzzle: the mark of its content blocks
is due. -/
def Owes (team : Id) (commits : List GameCommit) : Prop := ∃ l e, commits = l ++ [e] ∧ Inserts team e

end Commits

/-- The event of a solved puzzle. -/
def isSolvedEvent (team puzzle : Id) (ev : EventLogInput) : Bool :=
  ev.eventType = "puzzle.solved" && ev.teamId = some team && ev.puzzleId = some puzzle

/-- The event of a purchased hint. -/
def isPurchaseEvent (team hint : Id) (ev : EventLogInput) : Bool :=
  ev.eventType = "hint.purchased" && ev.teamId = some team && ev.hintId = some hint

/-! ## What a state opens -/

namespace Config

variable (cfg : Config) (team gameId : Id)

/-- The state on which the conditions of puzzles are evaluated for a team. -/
def unlockState (v : View) : Gate.RbPuzzleStates :=
  cfg.gateState gameId (fun row => row.2.gameId = gameId) (isSolved v team) (isTriggered v team)
    (isStarted v team)

/-- The state on which the conditions of content blocks are evaluated for a team. -/
def blockState (v : View) : Gate.TeamContentStates :=
  cfg.contentStates gameId (fun puzzle => cfg.puzzleInGame gameId puzzle && isSolved v team puzzle)
    (fun key => cfg.puzzleInGame gameId key.1 && isTriggered v team key) (isStarted v team)

/-- The puzzles of the game with their rounds. -/
def gamePuzzles : List (PuzzleRow × RoundRow) :=
  Gate.puzzleRows cfg.rounds cfg.puzzles fun row => row.2.gameId = gameId

end Config

/-- The team has every puzzle whose condition its state meets. -/
def Unlocked (cfg : Config) (team gameId : Id) (v : View) : Prop :=
  ∀ row ∈ cfg.gamePuzzles gameId,
    row.1.unlockCond.any (condHolds (cfg.unlockState team gameId v).states) = true →
      (v (.teamPuzzle team row.1.id)).isSome = true

/-- Every content block of the game that is accessible at instant `now` and whose condition the state
of the team meets is recorded. -/
def Recorded (cfg : Config) (team gameId : Id) (now : ℤ) (v : View) : Prop :=
  ∀ cb ∈ cfg.contentBlocks, cfg.blockGame cb = some gameId → cfg.isAccessible v now team cb = true →
    cb.isAllowed (cfg.blockState team gameId v).states = true →
      (v (.contentBlockUnlock team cb.id)).isSome = true

/-! ## Lemmas -/

section Lemmas

variable {cfg : Config} {team gameId : Id} {v w : View} {e : GameCommit} {l : List GameCommit}

lemma not_owes_nil : ¬ Owes team [] := by
  rintro ⟨l, e, h, -⟩
  simp at h

@[simp] lemma owes_snoc : Owes team (l ++ [e]) ↔ Inserts team e := by
  constructor
  · rintro ⟨l', e', h, hins⟩
    obtain ⟨-, hlast⟩ := List.append_inj' h rfl
    rwa [List.singleton_inj.mp hlast]
  · exact fun h => ⟨l, e, rfl, h⟩

lemma unlockState_congr (h : GateSame team v w) :
    cfg.unlockState team gameId w = cfg.unlockState team gameId v := by
  rw [Config.unlockState, h.solved, h.triggers, h.started, Config.unlockState]

lemma blockState_congr (h : GateSame team v w) :
    cfg.blockState team gameId w = cfg.blockState team gameId v := by
  rw [Config.blockState, h.solved, h.triggers, h.started, Config.blockState]

/-- A puzzle the team has stays with it. -/
lemma isSome_of_evolves {p : Id} (h : Evolves team (.teamPuzzle team p) (v (.teamPuzzle team p))
    (w (.teamPuzzle team p))) (hv : (v (.teamPuzzle team p)).isSome = true) :
    (w (.teamPuzzle team p)).isSome = true := by
  obtain ⟨tp, htp⟩ := Option.isSome_iff_exists.mp hv
  obtain ⟨tp', htp', -⟩ := h tp htp
  rw [htp']
  rfl

/-- Where what conditions see stays, so does having every puzzle. -/
lemma Unlocked.of_gateSame (h : Unlocked cfg team gameId v) (hg : GateSame team v w)
    (hrows : ∀ k, Evolves team k (v k) (w k)) : Unlocked cfg team gameId w := by
  intro row hrow hcond
  rw [unlockState_congr hg] at hcond
  exact isSome_of_evolves (hrows _) (h row hrow hcond)

/-- A state that is not negative was not negative. -/
lemma hasReleased_of_evolves {now : ℤ} {p : Id}
    (h : Evolves team (.teamPuzzle team p) (v (.teamPuzzle team p)) (w (.teamPuzzle team p)))
    (hv : w (.teamPuzzle team p) ≠ none → v (.teamPuzzle team p) ≠ none)
    (hw : cfg.hasReleased w now team p = true) : cfg.hasReleased v now team p = true := by
  rw [Config.hasReleased, Bool.and_eq_true] at hw ⊢
  refine ⟨?_, hw.2⟩
  obtain ⟨tp', htp', hstate⟩ := (Option.any_eq_true _ _).mp hw.1
  obtain ⟨tp, htp⟩ := Option.ne_none_iff_exists'.mp (hv (by simp [htp']))
  obtain ⟨tp'', htp'', hcore⟩ := h tp htp
  obtain rfl := Option.some.inj (htp'.symm.trans htp'')
  simp only [decide_eq_true_eq] at hstate
  simp only [htp, Option.any_some, decide_eq_true_eq]
  rcases hcore with hcore | ⟨h0, -⟩
  · have hsame : tp'.state = tp.state := congrArg Prod.fst hcore
    omega
  · omega

/-- What is accessible depends on the released puzzles of the team. -/
lemma isAccessible_imp {now now' : ℤ} {cb : ContentBlock}
    (h : ∀ p, cfg.hasReleased v now team p = true → cfg.hasReleased w now' team p = true)
    (hv : cfg.isAccessible v now team cb = true) : cfg.isAccessible w now' team cb = true := by
  rw [Config.isAccessible, Bool.or_eq_true] at hv ⊢
  refine hv.imp (fun hp => ?_) fun hr => ?_
  · obtain ⟨p, hp, hacc⟩ := (Option.any_eq_true _ _).mp hp
    exact (Option.any_eq_true _ _).mpr ⟨p, hp, h p hacc⟩
  · obtain ⟨r, hr, hacc⟩ := (Option.any_eq_true _ _).mp hr
    obtain ⟨p, hp, hacc⟩ := List.any_eq_true.mp hacc
    rw [Bool.and_eq_true] at hacc
    refine (Option.any_eq_true _ _).mpr ⟨r, hr, List.any_eq_true.mpr ⟨p, hp, ?_⟩⟩
    rw [Bool.and_eq_true]
    exact ⟨hacc.1, h p.id hacc.2⟩

/-- Where the team has no more puzzles, no more blocks are accessible. -/
lemma isAccessible_of_evolves {now : ℤ} {cb : ContentBlock}
    (h : ∀ k, Evolves team k (v k) (w k))
    (hv : ∀ p, w (.teamPuzzle team p) ≠ none → v (.teamPuzzle team p) ≠ none)
    (hw : cfg.isAccessible w now team cb = true) : cfg.isAccessible v now team cb = true :=
  isAccessible_imp (fun p => hasReleased_of_evolves (h _) (hv p)) hw

/-- What was released is released. -/
lemma isAccessible_mono {now now' : ℤ} {cb : ContentBlock} (hn : now ≤ now')
    (h : cfg.isAccessible v now team cb = true) : cfg.isAccessible v now' team cb = true := by
  refine isAccessible_imp (fun p hp => ?_) h
  rw [Config.hasReleased, Bool.and_eq_true] at hp ⊢
  refine ⟨hp.1, ?_⟩
  obtain ⟨i, hi, hle⟩ := (Option.any_eq_true _ _).mp hp.2
  refine (Option.any_eq_true _ _).mpr ⟨i, hi, ?_⟩
  simp only [decide_eq_true_eq] at hle ⊢
  omega

/-- Where what conditions see stays and the team has no more puzzles, the records stay complete. -/
lemma Recorded.of_gateSame {now : ℤ} (h : Recorded cfg team gameId now v) (hg : GateSame team v w)
    (hrows : ∀ k, Evolves team k (v k) (w k))
    (hv : ∀ p, w (.teamPuzzle team p) ≠ none → v (.teamPuzzle team p) ≠ none) :
    Recorded cfg team gameId now w := by
  intro cb hcb hgame hacc hallow
  rw [blockState_congr hg] at hallow
  have hrec := h cb hcb hgame (isAccessible_of_evolves hrows hv hacc) hallow
  have hrow : v (.contentBlockUnlock team cb.id) ≠ none → w (.contentBlockUnlock team cb.id) =
      v (.contentBlockUnlock team cb.id) := hrows (.contentBlockUnlock team cb.id)
  rwa [hrow (by rw [Option.ne_none_iff_isSome]; exact hrec)]

end Lemmas

end Play
