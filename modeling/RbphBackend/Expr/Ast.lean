import Mathlib.Algebra.Group.Nat.Defs
import Mathlib.Data.Nat.Notation
import Mathlib.Tactic.Basic

set_option relaxedAutoImplicit false
set_option autoImplicit false

/-!
# Conditions

A condition on the progress of a team speaks of puzzles and rounds, by their ids or their slugs.
What it is evaluated on, `Expr.PuzzleStates`, is all it can see of the team and of the game.

## Main definitions

* `Expr.GateExpr`, `Expr.HintDisplayExpr` — the conditions.
* `Expr.PuzzleStates` — what a condition is evaluated on.
* `Expr.evalCompiled`, `Expr.evalHintDisplayCompiled` — their values.

## Main results

* `Expr.Agree.evalCompiled` — a value depends on what the condition can ask.
-/

namespace Expr

/-- A `u32`. -/
abbrev PuzzleId := ℕ

/-- A `u32`. -/
abbrev RoundId := ℕ

inductive PuzzleRef where
  | id (id : PuzzleId)
  | slug (slug : String)
  deriving DecidableEq

inductive RoundRef where
  | id (id : RoundId)
  | slug (slug : String)
  deriving DecidableEq

inductive CmpOp where
  | gt
  | ge
  | lt
  | le
  | eq
  | ne
  deriving DecidableEq

inductive SetExpr where
  | puzzles (puzzles : List PuzzleRef)
  | puzzleRange (start finish : PuzzleId)
  | round (round : RoundRef)
  deriving DecidableEq

inductive ValueExpr where
  | solvedCount (set : SetExpr)
  | number (n : ℕ)
  deriving DecidableEq

inductive GateExpr where
  | true
  | false
  | and (xs : List GateExpr)
  | or (xs : List GateExpr)
  | not (x : GateExpr)
  | solved (puzzle : PuzzleRef)
  | allSolved (set : SetExpr)
  | anySolved (set : SetExpr)
  | gameStarted
  | triggered (puzzle : PuzzleRef) (key : String)
  | cmp (op : CmpOp) (lhs rhs : ValueExpr)

inductive HintDisplayExpr where
  | gate (expr : GateExpr)
  | and (exprs : List HintDisplayExpr)
  | or (exprs : List HintDisplayExpr)
  | not (expr : HintDisplayExpr)
  | hintEnabled
  | hintCooledDown

/-- What a condition can see. -/
structure PuzzleStates where
  isSolved : PuzzleId → Bool
  puzzleSlug : String → Option PuzzleId
  roundSlug : String → Option RoundId
  roundPuzzles : RoundId → Option (List PuzzleId)
  gameStarted : Bool
  isTriggered : PuzzleId → String → Bool

/-! ## Values -/

def cmpUsize : CmpOp → ℕ → ℕ → Bool
  | .gt, lhs, rhs => lhs > rhs
  | .ge, lhs, rhs => lhs ≥ rhs
  | .lt, lhs, rhs => lhs < rhs
  | .le, lhs, rhs => lhs ≤ rhs
  | .eq, lhs, rhs => lhs = rhs
  | .ne, lhs, rhs => lhs ≠ rhs

section Eval

variable (state : PuzzleStates)

def resolvePuzzle : PuzzleRef → Option PuzzleId
  | .id id => some id
  | .slug slug => state.puzzleSlug slug

def resolveRound : RoundRef → Option (List PuzzleId)
  | .id id => state.roundPuzzles id
  | .slug slug => (state.roundSlug slug).bind state.roundPuzzles

/-- The ids from the smaller end of a range to the greater. -/
def rangeIds (a b : PuzzleId) : List PuzzleId :=
  if a ≤ b then List.range' a (b + 1 - a) else List.range' b (a + 1 - b)

/-- An unknown puzzle makes a set of puzzles unknown. -/
def materializeSet : SetExpr → Option (List PuzzleId)
  | .puzzles puzzles => puzzles.mapM (resolvePuzzle state)
  | .puzzleRange start finish => some (rangeIds start finish)
  | .round round => resolveRound state round

def evalValue : ValueExpr → ℕ
  | .solvedCount set => (((materializeSet state set).getD []).filter state.isSolved).length
  | .number n => n

mutual

def evalCompiled : GateExpr → Bool
  | .true => Bool.true
  | .false => Bool.false
  | .and xs => evalAll xs
  | .or xs => evalAny xs
  | .not x => !evalCompiled x
  | .solved puzzle => (resolvePuzzle state puzzle).any state.isSolved
  | .allSolved set => (materializeSet state set).any fun ids => ids.all state.isSolved
  | .anySolved set => (materializeSet state set).any fun ids => ids.any state.isSolved
  | .gameStarted => state.gameStarted
  | .triggered puzzle key => (resolvePuzzle state puzzle).any fun id => state.isTriggered id key
  | .cmp op lhs rhs => cmpUsize op (evalValue state lhs) (evalValue state rhs)

/-- All of the conditions hold. -/
def evalAll : List GateExpr → Bool
  | [] => Bool.true
  | x :: xs => evalCompiled x && evalAll xs

/-- One of the conditions holds. -/
def evalAny : List GateExpr → Bool
  | [] => Bool.false
  | x :: xs => evalCompiled x || evalAny xs

end

variable (hintEnabled hintCooledDown : Bool)

mutual

def evalHintDisplayCompiled : HintDisplayExpr → Bool
  | .gate expr => evalCompiled state expr
  | .and exprs => evalHintDisplayAll exprs
  | .or exprs => evalHintDisplayAny exprs
  | .not expr => !evalHintDisplayCompiled expr
  | .hintEnabled => hintEnabled
  | .hintCooledDown => hintCooledDown

/-- All of the conditions hold. -/
def evalHintDisplayAll : List HintDisplayExpr → Bool
  | [] => Bool.true
  | x :: xs => evalHintDisplayCompiled x && evalHintDisplayAll xs

/-- One of the conditions holds. -/
def evalHintDisplayAny : List HintDisplayExpr → Bool
  | [] => Bool.false
  | x :: xs => evalHintDisplayCompiled x || evalHintDisplayAny xs

end

end Eval

mutual

def hintDisplayUsesCooldown : HintDisplayExpr → Bool
  | .and exprs => anyUsesCooldown exprs
  | .or exprs => anyUsesCooldown exprs
  | .not expr => hintDisplayUsesCooldown expr
  | .hintCooledDown => Bool.true
  | .gate _ => Bool.false
  | .hintEnabled => Bool.false

/-- One of the conditions does. -/
def anyUsesCooldown : List HintDisplayExpr → Bool
  | [] => Bool.false
  | x :: xs => hintDisplayUsesCooldown x || anyUsesCooldown xs

end

/-! ## What a value depends on -/

/-- The two states answer alike; of the puzzles of a round it matters whether all or some of them
are solved, and how many. -/
structure Agree (s s' : PuzzleStates) : Prop where
  isSolved : s.isSolved = s'.isSolved
  puzzleSlug : s.puzzleSlug = s'.puzzleSlug
  roundSlug : s.roundSlug = s'.roundSlug
  gameStarted : s.gameStarted = s'.gameStarted
  isTriggered : s.isTriggered = s'.isTriggered
  roundAll : ∀ id, ((s.roundPuzzles id).any fun ids => ids.all s.isSolved) =
    (s'.roundPuzzles id).any fun ids => ids.all s'.isSolved
  roundAny : ∀ id, ((s.roundPuzzles id).any fun ids => ids.any s.isSolved) =
    (s'.roundPuzzles id).any fun ids => ids.any s'.isSolved
  roundCount : ∀ id, (((s.roundPuzzles id).getD []).filter s.isSolved).length =
    (((s'.roundPuzzles id).getD []).filter s'.isSolved).length

namespace Agree

variable {s s' : PuzzleStates}

lemma resolvePuzzle (h : Agree s s') (puzzle : PuzzleRef) :
    resolvePuzzle s puzzle = Expr.resolvePuzzle s' puzzle := by
  cases puzzle with
  | id id => rfl
  | slug slug => exact congrFun h.puzzleSlug slug

/-- What is asked of a set is answered alike. -/
lemma materializeSet (h : Agree s s') {α : Type} {f g : Option (List PuzzleId) → α} (set : SetExpr)
    (hround : ∀ id, f (s.roundPuzzles id) = g (s'.roundPuzzles id)) (hnone : f none = g none)
    (hfg : ∀ ids : List PuzzleId, f (some ids) = g (some ids)) :
    f (materializeSet s set) = g (Expr.materializeSet s' set) := by
  have hsame : ∀ o : Option (List PuzzleId), f o = g o := fun o => by
    cases o with
    | none => exact hnone
    | some ids => exact hfg ids
  cases set with
  | puzzles puzzles =>
    have heq : puzzles.mapM (Expr.resolvePuzzle s) = puzzles.mapM (Expr.resolvePuzzle s') := by
      congr 1
      funext puzzle
      exact h.resolvePuzzle puzzle
    show f (puzzles.mapM (Expr.resolvePuzzle s)) = g (puzzles.mapM (Expr.resolvePuzzle s'))
    rw [heq]
    exact hsame _
  | puzzleRange start finish => exact hfg _
  | round round =>
    cases round with
    | id id => exact hround id
    | slug slug =>
      show f ((s.roundSlug slug).bind s.roundPuzzles) = g ((s'.roundSlug slug).bind s'.roundPuzzles)
      rw [h.roundSlug]
      cases s'.roundSlug slug with
      | none => exact hnone
      | some id => exact hround id

lemma evalValue (h : Agree s s') (v : ValueExpr) : evalValue s v = Expr.evalValue s' v := by
  cases v with
  | number n => rfl
  | solvedCount set =>
    exact h.materializeSet (f := fun o => ((o.getD []).filter s.isSolved).length)
      (g := fun o => ((o.getD []).filter s'.isSolved).length) set h.roundCount rfl
      fun ids => by rw [h.isSolved]

mutual

/-- **A value depends on what the condition can ask.** -/
theorem evalCompiled (h : Agree s s') (e : GateExpr) :
    Expr.evalCompiled s e = Expr.evalCompiled s' e := by
  cases e with
  | true => rfl
  | false => rfl
  | and xs => exact h.evalAll xs
  | or xs => exact h.evalAny xs
  | not x =>
    show (!Expr.evalCompiled s x) = !Expr.evalCompiled s' x
    rw [h.evalCompiled x]
  | solved puzzle =>
    show (Expr.resolvePuzzle s puzzle).any s.isSolved = (Expr.resolvePuzzle s' puzzle).any s'.isSolved
    rw [h.resolvePuzzle, h.isSolved]
  | allSolved set =>
    exact h.materializeSet (f := fun o => o.any fun ids => ids.all s.isSolved)
      (g := fun o => o.any fun ids => ids.all s'.isSolved) set h.roundAll rfl
      fun ids => by rw [h.isSolved]
  | anySolved set =>
    exact h.materializeSet (f := fun o => o.any fun ids => ids.any s.isSolved)
      (g := fun o => o.any fun ids => ids.any s'.isSolved) set h.roundAny rfl
      fun ids => by rw [h.isSolved]
  | gameStarted => exact h.gameStarted
  | triggered puzzle key =>
    show ((Expr.resolvePuzzle s puzzle).any fun id => s.isTriggered id key) =
      (Expr.resolvePuzzle s' puzzle).any fun id => s'.isTriggered id key
    rw [h.resolvePuzzle, h.isTriggered]
  | cmp op lhs rhs =>
    show cmpUsize op (Expr.evalValue s lhs) (Expr.evalValue s rhs) =
      cmpUsize op (Expr.evalValue s' lhs) (Expr.evalValue s' rhs)
    rw [h.evalValue lhs, h.evalValue rhs]

theorem evalAll (h : Agree s s') (xs : List GateExpr) : Expr.evalAll s xs = Expr.evalAll s' xs := by
  cases xs with
  | nil => rfl
  | cons x xs =>
    show (Expr.evalCompiled s x && Expr.evalAll s xs) = (Expr.evalCompiled s' x && Expr.evalAll s' xs)
    rw [h.evalCompiled x, h.evalAll xs]

theorem evalAny (h : Agree s s') (xs : List GateExpr) : Expr.evalAny s xs = Expr.evalAny s' xs := by
  cases xs with
  | nil => rfl
  | cons x xs =>
    show (Expr.evalCompiled s x || Expr.evalAny s xs) = (Expr.evalCompiled s' x || Expr.evalAny s' xs)
    rw [h.evalCompiled x, h.evalAny xs]

end

end Agree

end Expr
