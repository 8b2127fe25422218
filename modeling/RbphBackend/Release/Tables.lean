import Mathlib.Data.Int.Notation
import Mathlib.Data.Nat.Notation
import Mathlib.Tactic.Basic

set_option relaxedAutoImplicit false
set_option autoImplicit false

/-!
# The tables of rounds, puzzles and releases

The rows that the release of puzzles rests on, as lists of rows, with the constraints of the table
of puzzles. The statements of an administrator are functions of these tables; a transaction keeps
what its body leaves when it commits.

## Main definitions

* `Release.RoundRow`, `Release.PuzzleRow`, `Release.ReleasePhase`, `Release.ReleaseEvent` — rows.
* `Release.Tables` — the tables; `Release.Tables.checkPuzzle` — the constraints of a puzzle.
* `Release.Outcome`, `Release.runTx` — how a transaction ends.
* `Release.updatePuzzles` — an `UPDATE` of puzzles with `RETURNING`.
-/

namespace Release

abbrev Id := ℕ

/-! ## Rows -/

/-- A row of `rb_round`, as far as puzzles are concerned. -/
structure RoundRow where
  id : Id
  slug : Option String
  sort : ℤ
  gameId : Id
  puzzle : Option Id
  deriving DecidableEq

/-- A row of `rb_puzzle`; `judge`, `penalty` and `submit_requirements` are JSON documents, and
instants are in microseconds. -/
structure PuzzleRow where
  id : Id
  gameId : Id
  slug : Option String
  sort : ℤ
  title : String
  ptype : ℤ
  judge : String
  penalty : String
  submitRequirements : String
  maxSubmit : Option ℤ
  unlockCond : Option String
  releasePhaseId : Option Id
  immediateReleaseAt : Option ℤ
  roundId : Id
  ticketEnabled : Bool
  ticketCooldown : ℤ
  ctimeAt : ℤ
  deriving DecidableEq

/-- A row of `rb_release_phase`. -/
structure ReleasePhase where
  id : Id
  gameId : Id
  title : String
  description : String
  contentType : ℤ
  releaseAt : ℤ
  visibility : ℤ
  deriving DecidableEq

/-- A row of `rb_release_event`: of a phase (type 0) or of puzzles released at once (type 1). -/
structure ReleaseEvent where
  id : Id
  phaseId : Option Id
  occurredAt : ℤ
  notifiedAt : Option ℤ
  gameId : Id
  eventType : ℤ
  deriving DecidableEq

/-- A row of `rb_release_event_puzzle`. -/
structure ReleaseEventPuzzle where
  eventId : Id
  puzzleId : Id
  deriving DecidableEq

/-- A row of `rb_release_event_puzzle_team`. -/
structure ReleaseEventPuzzleTeam where
  eventId : Id
  puzzleId : Id
  teamId : Id
  deriving DecidableEq

/-- The tables. `teamPuzzles` holds team, puzzle and state of the rows of `rb_team_puzzle`, and
`nextEvent` is the next value of the sequence of `rb_release_event`. -/
structure Tables where
  rounds : List RoundRow
  puzzles : List PuzzleRow
  phases : List ReleasePhase
  events : List ReleaseEvent
  eventPuzzles : List ReleaseEventPuzzle
  eventPuzzleTeams : List ReleaseEventPuzzleTeam
  teamPuzzles : List (Id × Id × ℤ)
  nextEvent : Id
  deriving DecidableEq

/-! ## Constraints -/

/-- A text stored in a column `VARCHAR(n)`: what is too long may only be spaces. -/
def varchar (n : ℕ) (s : String) : Except String String :=
  if s.length ≤ n then .ok s
  else if (s.toList.drop n).all (· = ' ') then .ok (String.ofList (s.toList.take n))
  else .error s!"value too long for type character varying({n})"

/-- `^[A-Za-z_][A-Za-z0-9_-]*$`. -/
def slugAtom (slug : String) : Bool :=
  match slug.toList with
  | [] => false
  | c :: cs => (c.isAlpha || c = '_') && cs.all fun c => c.isAlphanum || c = '_' || c = '-'

namespace Tables

variable (t : Tables)

/-- The constraints on a row of `rb_puzzle` that has been written. -/
def checkPuzzle (p : PuzzleRow) : Except String Unit := do
  unless p.slug.all slugAtom do throw "rb_ck_puzzle_slug_atom"
  unless p.releasePhaseId.isNone || p.immediateReleaseAt.isNone do
    throw "rb_ck_puzzle_release_source"
  unless p.slug.isNone ||
      t.puzzles.all fun q => q.id = p.id || !(q.gameId = p.gameId && q.slug = p.slug) do
    throw "rb_idx_puzzle_game_slug"
  unless t.rounds.any (·.id = p.roundId) do throw "rb_puzzle_round_id_fkey"
  unless p.releasePhaseId.all fun phase =>
      t.phases.any fun rp => rp.id = phase && rp.gameId = p.gameId do
    throw "rb_fk_puzzle_release_phase_game"

/-- `rb_puzzle_set_game_id`. -/
def setGameId (p : PuzzleRow) : Except String PuzzleRow :=
  match t.rounds.find? (·.id = p.roundId) with
  | none => .error "null value in column \"game_id\""
  | some round => .ok { p with gameId := round.gameId }

end Tables

/-! ## Statements and transactions -/

/-- An `UPDATE` of the puzzles that satisfy a condition, and the rows it returns. -/
def updatePuzzles (condition : PuzzleRow → Bool) (set : PuzzleRow → Except String PuzzleRow)
    (t : Tables) : Except String (List PuzzleRow × Tables) := do
  let returned ← (t.puzzles.filter condition).mapM set
  let t := { t with
    puzzles := t.puzzles.map fun p =>
      if condition p then (returned.find? (·.id = p.id)).getD p else p }
  returned.forM t.checkPuzzle
  return (returned, t)

/-- How the body of a transaction ends: by a commit, or by a return before it. -/
inductive Outcome (α : Type) where
  | commit (result : α) (t : Tables)
  | drop (result : α)

/-- A transaction: its result and the tables after it. -/
def runTx {α : Type} (t : Tables) : Except String (Outcome α) → Except String α × Tables
  | .error e => (.error e, t)
  | .ok (.drop result) => (.ok result, t)
  | .ok (.commit result t) => (.ok result, t)

section Update

variable {condition : PuzzleRow → Bool} {set : PuzzleRow → Except String PuzzleRow} {t : Tables}

/-- A statement whose condition no row satisfies returns nothing and writes nothing. -/
lemma updatePuzzles_of_forall (h : ∀ p ∈ t.puzzles, condition p = false) :
    updatePuzzles condition set t = .ok ([], t) := by
  have hnone : t.puzzles.filter condition = [] := by simpa using h
  have hsame : (t.puzzles.map fun p => if condition p then p else p) = t.puzzles := by simp
  unfold updatePuzzles
  rw [hnone]
  simp [pure, Except.pure, bind, Except.bind]

lemma mapM_ne_nil {α β : Type} {f : α → Except String β} {a : α} {l : List α} :
    (a :: l).mapM f ≠ .ok [] := by
  intro h
  rw [List.mapM_cons] at h
  cases ha : f a with
  | error e => simp [ha, bind, Except.bind] at h
  | ok b => cases hl : l.mapM f <;> simp [ha, hl, bind, Except.bind, pure, Except.pure] at h

/-- A statement that returns nothing has found no row. -/
lemma forall_of_updatePuzzles {t' : Tables} (h : updatePuzzles condition set t = .ok ([], t')) :
    ∀ p ∈ t.puzzles, condition p = false := by
  suffices hnone : t.puzzles.filter condition = [] by simpa using hnone
  cases hl : t.puzzles.filter condition with
  | nil => rfl
  | cons p ps =>
    unfold updatePuzzles at h
    rw [hl] at h
    cases hm : (p :: ps).mapM set with
    | error e => simp [hm, bind, Except.bind] at h
    | ok returned =>
      have hne : returned ≠ [] := by
        rintro rfl
        exact mapM_ne_nil hm
      rw [hm] at h
      simp only [bind, Except.bind, pure, Except.pure] at h
      split at h
      · cases h
      · simp only [Except.ok.injEq, Prod.mk.injEq] at h
        exact absurd h.1 hne

end Update

end Release
