import Mathlib.Data.List.Sort
import Mathlib.Data.Prod.Lex
import Mathlib.Order.BooleanAlgebra.Defs
import RbphBackend.Expr.Compiler
import RbphBackend.Release.Tables

set_option relaxedAutoImplicit false
set_option autoImplicit false

/-!
# Gate states

The state on which conditions are evaluated is built four times: where puzzles are unlocked after a
change, where an administrator unlocks a puzzle, for the hints of a team, and for its content
blocks. Ids are not negative, so that the conversions of `i32` ids to `u32` do not fail.

## Main definitions

* `Gate.Tables` — the tables read; `Gate.Tables.WellFormed` — their constraints.
* `Gate.RbPuzzleStates`, `Gate.TeamContentStates` — what is built, and the conditions' view of it.
* `Gate.unlockNewPuzzlesState`, `Gate.adminUnlockStates`, `Gate.teamGateStateConn`,
  `Gate.teamStatesConn` — the builders.

## Main results

* `Gate.hashMap_eq_of_mem_iff`, `Gate.pushAll_eq` — what the loops build.
-/

namespace Gate

open Release (RoundRow PuzzleRow)

abbrev Id := ℕ

/-! ## Tables -/

/-- A row of `rb_team`. -/
structure TeamRow where
  id : Id
  gameId : Id
  startAt : Option ℤ
  deriving DecidableEq

/-- A row of `rb_team_puzzle`. -/
structure TeamPuzzleRow where
  teamId : Id
  puzzleId : Id
  state : ℤ
  deriving DecidableEq

/-- A row of `rb_team_puzzle_trigger`. -/
structure TriggerRow where
  teamId : Id
  puzzleId : Id
  triggerKey : String
  deriving DecidableEq

structure Tables where
  rounds : List RoundRow
  puzzles : List PuzzleRow
  teams : List TeamRow
  teamPuzzles : List TeamPuzzleRow
  triggers : List TriggerRow

/-- The primary keys, the foreign key and the trigger that give a puzzle its round and game, the
unique slugs of a game, the keys of triggers, and the range of an `INT`. -/
structure Tables.WellFormed (t : Tables) : Prop where
  rounds : (t.rounds.map (·.id)).Nodup
  puzzles : (t.puzzles.map (·.id)).Nodup
  teams : (t.teams.map (·.id)).Nodup
  puzzleRound : ∀ p ∈ t.puzzles, ∃ r ∈ t.rounds, r.id = p.roundId ∧ r.gameId = p.gameId
  roundSlug : ∀ r ∈ t.rounds, ∀ r' ∈ t.rounds, r.gameId = r'.gameId → r.slug ≠ none →
    r.slug = r'.slug → r.id = r'.id
  puzzleSlug : ∀ p ∈ t.puzzles, ∀ p' ∈ t.puzzles, p.gameId = p'.gameId → p.slug ≠ none →
    p.slug = p'.slug → p.id = p'.id
  triggerKey : ∀ row ∈ t.triggers, Expr.validKey row.triggerKey = true
  roundRange : ∀ r ∈ t.rounds, r.id < 2 ^ 31
  puzzleRange : ∀ p ∈ t.puzzles, p.id < 2 ^ 31
  teamPuzzleRange : ∀ row ∈ t.teamPuzzles, row.puzzleId < 2 ^ 31
  triggerRange : ∀ row ∈ t.triggers, row.puzzleId < 2 ^ 31

/-! ## Maps -/

section Maps

variable {α : Type} [DecidableEq α]

/-- `insert` into a map. -/
def insertEntry (m : α → Option Id) (e : α × Id) : α → Option Id := Function.update m e.1 (some e.2)

/-- A map with the entries inserted in order. -/
def hashMap (entries : List (α × Id)) : α → Option Id := entries.foldl insertEntry fun _ => none

/-- `entry(key).or_default().push(id)`. -/
def pushEntry (m : Id → Option (List Id)) (e : Id × Id) : Id → Option (List Id) :=
  Function.update m e.1 (some ((m e.1).getD [] ++ [e.2]))

/-- A map of lists, with the entries pushed in order. -/
def pushAll (entries : List (Id × Id)) : Id → Option (List Id) :=
  entries.foldl pushEntry fun _ => none

private lemma foldl_insert {entries : List (α × Id)} {m : α → Option Id} {a : α} {v : Id}
    (h : entries.foldl insertEntry m a = some v) :
    (a, v) ∈ entries ∨ m a = some v := by
  induction entries generalizing m with
  | nil => exact .inr h
  | cons e entries ih =>
    rcases ih h with hmem | hm
    · exact .inl (List.mem_cons_of_mem e hmem)
    · by_cases ha : a = e.1
      · subst ha
        rw [insertEntry, Function.update_self, Option.some.injEq] at hm
        subst hm
        exact .inl List.mem_cons_self
      · rw [insertEntry, Function.update_of_ne ha] at hm
        exact .inr hm

private lemma foldl_insert_ne_none {entries : List (α × Id)} {m : α → Option Id} {a : α}
    (h : m a ≠ none ∨ ∃ v, (a, v) ∈ entries) :
    entries.foldl insertEntry m a ≠ none := by
  induction entries generalizing m with
  | nil => simpa using h
  | cons e entries ih =>
    refine ih ?_
    by_cases ha : a = e.1
    · subst ha
      exact .inl (by simp [insertEntry])
    · rw [insertEntry, Function.update_of_ne ha]
      refine h.imp_right ?_
      rintro ⟨v, hv⟩
      refine ⟨v, (List.mem_cons.mp hv).resolve_left ?_⟩
      rintro rfl
      exact ha rfl

/-- What the map holds was inserted. -/
lemma mem_of_hashMap {entries : List (α × Id)} {a : α} {v : Id}
    (h : hashMap entries a = some v) : (a, v) ∈ entries := by
  rcases foldl_insert h with hmem | hm
  · exact hmem
  · simp at hm

/-- **Where no key has two values**, the order of the entries does not matter. -/
lemma hashMap_eq_of_mem_iff {entries entries' : List (α × Id)}
    (hmem : ∀ e, e ∈ entries ↔ e ∈ entries')
    (hone : ∀ a v w, (a, v) ∈ entries → (a, w) ∈ entries → v = w) :
    hashMap entries = hashMap entries' := by
  funext a
  cases h : hashMap entries a with
  | none =>
    cases h' : hashMap entries' a with
    | none => rfl
    | some w =>
      have hne : hashMap entries a ≠ none :=
        foldl_insert_ne_none (.inr ⟨w, (hmem _).mpr (mem_of_hashMap h')⟩)
      exact absurd h hne
  | some v =>
    have hv := mem_of_hashMap h
    cases h' : hashMap entries' a with
    | none =>
      have hne : hashMap entries' a ≠ none := foldl_insert_ne_none (.inr ⟨v, (hmem _).mp hv⟩)
      exact absurd h' hne
    | some w => rw [hone a v w hv ((hmem _).mpr (mem_of_hashMap h'))]

private lemma foldl_push {entries : List (Id × Id)} {m : Id → Option (List Id)} {r : Id} :
    entries.foldl pushEntry m r =
      if (entries.filter (·.1 = r)).isEmpty then m r
      else some ((m r).getD [] ++ (entries.filter (·.1 = r)).map (·.2)) := by
  induction entries generalizing m with
  | nil => rfl
  | cons e entries ih =>
    rw [List.foldl_cons, ih]
    by_cases hr : e.1 = r
    · subst hr
      rw [pushEntry, Function.update_self, List.filter_cons_of_pos (by simp)]
      cases entries.filter (·.1 = e.1) with
      | nil => rfl
      | cons e' es => simp
    · rw [pushEntry, Function.update_of_ne (Ne.symm hr), List.filter_cons_of_neg (by simpa using hr)]

/-- The ids pushed for a key, if there are any. -/
lemma pushAll_eq (entries : List (Id × Id)) (r : Id) :
    pushAll entries r = if (entries.filter (·.1 = r)).isEmpty then none
      else some ((entries.filter (·.1 = r)).map (·.2)) := foldl_push

end Maps

/-! ## States -/

/-- `i32::MAX`. -/
def i32Max : ℕ := 2147483647

/-- `id.try_into().unwrap_or(i32::MAX)`. -/
def toI32 (id : Expr.PuzzleId) : Id := if id ≤ i32Max then id else i32Max

/-- A set is its membership test. -/
structure RbPuzzleStates where
  solved : Id → Bool
  puzzleSlugs : String → Option Id
  roundSlugs : String → Option Id
  roundPuzzles : Id → Option (List Id)
  triggers : Id × String → Bool
  gameStarted : Bool

/-- `impl PuzzleStates for RbPuzzleStates`. -/
def RbPuzzleStates.states (s : RbPuzzleStates) : Expr.PuzzleStates where
  isSolved id := s.solved (toI32 id)
  puzzleSlug := s.puzzleSlugs
  roundSlug := s.roundSlugs
  roundPuzzles := s.roundPuzzles
  gameStarted := s.gameStarted
  isTriggered id key := s.triggers (toI32 id, key)

structure TeamContentStates where
  solved : Id → Bool
  puzzleSlugs : String → Option Id
  roundSlugs : String → Option Id
  roundPuzzles : Id → Option (List Id)
  triggers : Id × String → Bool
  gameStarted : Bool

/-- `impl PuzzleStates for TeamContentStates`. -/
def TeamContentStates.states (s : TeamContentStates) : Expr.PuzzleStates where
  isSolved := s.solved
  puzzleSlug := s.puzzleSlugs
  roundSlug := s.roundSlugs
  roundPuzzles := s.roundPuzzles
  gameStarted := s.gameStarted
  isTriggered id key := s.triggers (id, key)

/-! ## Rows -/

/-- `rb_puzzle p JOIN rb_round r ON r.id = p.round_id`. -/
def joinRounds (rounds : List RoundRow) (puzzles : List PuzzleRow) : List (PuzzleRow × RoundRow) :=
  puzzles.flatMap fun p => (rounds.filter fun r => r.id = p.roundId).map fun r => (p, r)

/-- `ORDER BY r.sort, r.id, (p.id IS DISTINCT FROM r.puzzle), p.sort, p.id`. -/
def rowKey (row : PuzzleRow × RoundRow) : ℤ ×ₗ Id ×ₗ Bool ×ₗ ℤ ×ₗ Id :=
  toLex (row.2.sort, toLex (row.2.id, toLex (some row.1.id ≠ row.2.puzzle,
    toLex (row.1.sort, row.1.id))))

/-- The rows of the puzzles with their rounds, in order. -/
def puzzleRows (rounds : List RoundRow) (puzzles : List PuzzleRow)
    (keep : PuzzleRow × RoundRow → Bool) : List (PuzzleRow × RoundRow) :=
  ((joinRounds rounds puzzles).filter keep).insertionSort fun a b => rowKey a ≤ rowKey b

/-- The slugs of rows that have one, with their ids. -/
def slugEntries {ρ : Type} (slug : ρ → Option String) (id : ρ → Id) (rows : List ρ) :
    List (String × Id) :=
  rows.filterMap fun row => (slug row).map fun s => (s, id row)

/-- What three builders make of their rows: a round's own puzzle is not one of its puzzles. -/
def assemble (roundRows : List RoundRow) (rows : List (PuzzleRow × RoundRow)) (solved : Id → Bool)
    (triggers : Id × String → Bool) (gameStarted : Bool) : RbPuzzleStates where
  solved := solved
  puzzleSlugs := hashMap (slugEntries (fun row : PuzzleRow × RoundRow => row.1.slug) (·.1.id) rows)
  roundSlugs := hashMap (slugEntries (fun r : RoundRow => r.slug) (·.id) roundRows)
  roundPuzzles := pushAll ((rows.filter fun row => row.2.puzzle ≠ some row.1.id).map fun row =>
    (row.1.roundId, row.1.id))
  triggers := triggers
  gameStarted := gameStarted

/-- What the builder for content blocks makes of its rows. -/
def assembleContent (roundRows : List RoundRow) (puzzles : List PuzzleRow) (solved : Id → Bool)
    (triggers : Id × String → Bool) (gameStarted : Bool) : TeamContentStates where
  solved := solved
  puzzleSlugs := hashMap (slugEntries (fun p : PuzzleRow => p.slug) (·.id) puzzles)
  roundSlugs := hashMap (slugEntries (fun r : RoundRow => r.slug) (·.id) roundRows)
  roundPuzzles := pushAll (puzzles.map fun p => (p.roundId, p.id))
  triggers := triggers
  gameStarted := gameStarted

/-! ## The builders -/

section Builders

variable (t : Tables)

/-- `SELECT puzzle_id FROM rb_team_puzzle WHERE team_id = $1 AND state >= 1`. -/
def solvedIds (teamId : Id) : List Id :=
  (t.teamPuzzles.filter fun row => row.teamId = teamId ∧ 1 ≤ row.state).map (·.puzzleId)

/-- `SELECT puzzle_id, trigger_key FROM rb_team_puzzle_trigger WHERE team_id = $1`. -/
def triggerKeys (teamId : Id) : List (Id × String) :=
  (t.triggers.filter fun row => row.teamId = teamId).map fun row => (row.puzzleId, row.triggerKey)

/-- The rounds of a game. -/
def roundRows (gameId : Id) : List RoundRow := t.rounds.filter fun r => r.gameId = gameId

/-- A row with each of its matches, or with none. -/
def leftJoin {α β : Type} (row : α) (rows : List β) : List (α × Option β) :=
  if rows.isEmpty then [(row, none)] else rows.map fun b => (row, some b)

/-- The state that `unlock_new_puzzles` builds. -/
def unlockNewPuzzlesState (teamId : Id) : Option RbPuzzleStates :=
  let info := (t.teams.filter fun team => team.id = teamId).flatMap fun team =>
    leftJoin team (solvedIds t team.id)
  info.head?.map fun first =>
    assemble (roundRows t first.1.gameId)
      (puzzleRows t.rounds t.puzzles fun row => row.2.gameId = first.1.gameId)
      (info.filterMap (·.2)).contains (triggerKeys t teamId).contains first.1.startAt.isSome

/-- `team_gate_state_conn`. -/
def teamGateStateConn (teamId : Id) : Option RbPuzzleStates :=
  (t.teams.find? fun team => team.id = teamId).map fun team =>
    assemble (roundRows t team.gameId)
      (puzzleRows t.rounds t.puzzles fun row => row.1.gameId = team.gameId)
      (solvedIds t teamId).contains (triggerKeys t teamId).contains team.startAt.isSome

/-- The teams of the game without a row for the puzzle, by their ids, each with every puzzle it has
solved. -/
def candidateRows (puzzleId gameId : Id) : List (TeamRow × Option Id) :=
  ((t.teams.filter fun team => team.gameId = gameId ∧
      ¬ t.teamPuzzles.any fun row => row.teamId = team.id ∧ row.puzzleId = puzzleId).insertionSort
    fun a b => a.id ≤ b.id).flatMap fun team => leftJoin team (solvedIds t team.id)

/-- The loop over the candidates: `flush` gets a team, whether it has started and what it has
solved, when the rows of the next team begin and at the end. -/
def flushTeams {α : Type} (flush : Id → Bool → List Id → α) :
    Option Id → Bool → List Id → List (TeamRow × Option Id) → List α
  | current, started, solved, [] => current.toList.map fun id => flush id started solved
  | current, started, solved, (team, puzzle) :: rows =>
    if current ≠ some team.id then
      (current.toList.map fun id => flush id started solved) ++
        flushTeams flush (some team.id) team.startAt.isSome puzzle.toList rows
    else flushTeams flush current started (solved ++ puzzle.toList) rows

/-- The triggers of the teams of a game, one team's. -/
def gameTriggerKeys (gameId teamId : Id) : List (Id × String) :=
  (((t.triggers.filter fun row => t.teams.any fun team =>
    team.id = row.teamId ∧ team.gameId = gameId).filter fun row => row.teamId = teamId).map
      fun row => (row.puzzleId, row.triggerKey))

/-- The states that `admin_unlock_puzzle_for_eligible_teams` builds, with their teams. -/
def adminUnlockStates (puzzleId gameId : Id) : List (Id × RbPuzzleStates) :=
  flushTeams (fun teamId started solved =>
    (teamId, assemble (roundRows t gameId)
      (puzzleRows t.rounds t.puzzles fun row => row.2.gameId = gameId)
      solved.contains (gameTriggerKeys t gameId teamId).contains started)) none false []
    (candidateRows t puzzleId gameId)

/-- The game the puzzle of an id belongs to. -/
def inGame (gameId puzzleId : Id) : Bool :=
  t.puzzles.any fun p => p.id = puzzleId ∧ p.gameId = gameId

/-- `team_states_conn`. -/
def teamStatesConn (teamId gameId : Id) (gameStarted : Bool) : TeamContentStates :=
  assembleContent (roundRows t gameId) (t.puzzles.filter fun p => p.gameId = gameId)
    ((solvedIds t teamId).filter (inGame t gameId)).contains
    ((triggerKeys t teamId).filter fun e => inGame t gameId e.1).contains gameStarted

end Builders

end Gate
