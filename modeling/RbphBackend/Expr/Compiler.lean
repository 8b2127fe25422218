import RbphBackend.Expr.Ast
import RbphBackend.Expr.Parser

set_option relaxedAutoImplicit false
set_option autoImplicit false

/-!
# Compiling conditions

An S-expression is compiled to a condition. Constants are folded, nested conjunctions and
disjunctions are flattened, and a double negation is dropped; an ill-formed part is an error
wherever it stands.

## Main definitions

* `Expr.compileGate`, `Expr.compileHintDisplay` — the compiler.
* `Expr.compileGateExpr`, `Expr.compileHintDisplayExpr` — from the text.
-/

namespace Expr

inductive CompileError where
  | badForm (message : String)
  | unknownOp (op : String)
  | expectedAtom
  | expectedNumber
  | expectedSetExpr
  | expectedValueExpr
  deriving DecidableEq

/-! ## Atoms -/

def atom : RawSexpr → Except CompileError String
  | .atom a => .ok a
  | .list _ => .error .expectedAtom

/-- `str::parse` of an unsigned type with values below the bound: a sign `+` may come first. -/
def parseUnsigned (bound : ℕ) (s : String) : Option ℕ :=
  let digits := if s.toList.head? = some '+' then s.toList.tail else s.toList
  if digits ≠ [] ∧ digits.all Char.isDigit = true ∧ Nat.ofDigitChars 10 digits 0 < bound then
    some (Nat.ofDigitChars 10 digits 0)
  else none

def parseU32 (s : RawSexpr) : Except CompileError ℕ := do
  match parseUnsigned (2 ^ 32) (← atom s) with
  | some n => return n
  | none => throw .expectedNumber

/-- A `usize` has 64 bits. -/
def parseUsize (s : RawSexpr) : Except CompileError ℕ := do
  match parseUnsigned (2 ^ 64) (← atom s) with
  | some n => return n
  | none => throw .expectedNumber

def parsePuzzleRef (s : RawSexpr) : Except CompileError PuzzleRef := do
  let a ← atom s
  match parseUnsigned (2 ^ 32) a with
  | some id => return .id id
  | none => return .slug a

def parseRoundRef (s : RawSexpr) : Except CompileError RoundRef := do
  let a ← atom s
  match parseUnsigned (2 ^ 32) a with
  | some id => return .id id
  | none => return .slug a

def opToCmp : String → Option CmpOp
  | "gt" => some .gt
  | "ge" => some .ge
  | "lt" => some .lt
  | "le" => some .le
  | "eq" => some .eq
  | "ne" => some .ne
  | _ => none

/-- A key of a trigger; all its characters are ASCII, so that its length in bytes is theirs. -/
def validKey (key : String) : Bool :=
  match key.toList with
  | [] => false
  | c :: cs => key.utf8ByteSize ≤ 64 && c.isAlpha &&
      cs.all fun c => c.isAlphanum || c = '_' || c = '-'

/-! ## Folding -/

namespace GateExpr

def isTrue : GateExpr → Bool
  | .true => Bool.true
  | _ => Bool.false

def isFalse : GateExpr → Bool
  | .false => Bool.true
  | _ => Bool.false

end GateExpr

namespace HintDisplayExpr

def isTrue : HintDisplayExpr → Bool
  | .gate .true => Bool.true
  | _ => Bool.false

def isFalse : HintDisplayExpr → Bool
  | .gate .false => Bool.true
  | _ => Bool.false

end HintDisplayExpr

/-- What an operand adds to a conjunction. -/
def flattenAnd : GateExpr → List GateExpr
  | .true => []
  | .and children => children
  | child => [child]

/-- What an operand adds to a disjunction. -/
def flattenOr : GateExpr → List GateExpr
  | .false => []
  | .or children => children
  | child => [child]

/-- The end of `compile_gate_and`. -/
def foldAnd (children : List GateExpr) : GateExpr :=
  if children.any (·.isFalse) then .false
  else
    match children.flatMap flattenAnd with
    | [] => .true
    | [x] => x
    | compiled => .and compiled

/-- The end of `compile_gate_or`. -/
def foldOr (children : List GateExpr) : GateExpr :=
  if children.any (·.isTrue) then .true
  else
    match children.flatMap flattenOr with
    | [] => .false
    | [x] => x
    | compiled => .or compiled

def negateGate : GateExpr → GateExpr
  | .true => .false
  | .false => .true
  | .not inner => inner
  | expr => .not expr

/-- What an operand adds to a conjunction. -/
def flattenHintAnd : HintDisplayExpr → List HintDisplayExpr
  | .gate .true => []
  | .and children => children
  | child => [child]

/-- What an operand adds to a disjunction. -/
def flattenHintOr : HintDisplayExpr → List HintDisplayExpr
  | .gate .false => []
  | .or children => children
  | child => [child]

/-- The end of `compile_hint_and`. -/
def foldHintAnd (children : List HintDisplayExpr) : HintDisplayExpr :=
  if children.any (·.isFalse) then .gate .false
  else
    match children.flatMap flattenHintAnd with
    | [] => .gate .true
    | [x] => x
    | compiled => .and compiled

/-- The end of `compile_hint_or`. -/
def foldHintOr (children : List HintDisplayExpr) : HintDisplayExpr :=
  if children.any (·.isTrue) then .gate .true
  else
    match children.flatMap flattenHintOr with
    | [] => .gate .false
    | [x] => x
    | compiled => .or compiled

def negateHint : HintDisplayExpr → HintDisplayExpr
  | .gate .true => .gate .false
  | .gate .false => .gate .true
  | .not inner => inner
  | expr => .not expr

/-! ## The compiler -/

def compileSet : RawSexpr → Except CompileError SetExpr
  | .atom _ => .error .expectedSetExpr
  | .list [] => .error (.badForm "empty list")
  | .list (head :: args) => do
    match ← atom head with
    | "puzzles" => return .puzzles (← args.mapM parsePuzzleRef)
    | "puzzle-range" =>
      match args with
      | [start, finish] => return .puzzleRange (← parseU32 start) (← parseU32 finish)
      | _ => throw (.badForm "puzzle-range expects 2 args")
    | "round" =>
      match args with
      | [round] => return .round (← parseRoundRef round)
      | _ => throw (.badForm "round expects 1 arg")
    | _ => throw .expectedSetExpr

def compileValue : RawSexpr → Except CompileError ValueExpr
  | .atom a => return .number (← parseUsize (.atom a))
  | .list [] => .error (.badForm "empty list")
  | .list (head :: args) => do
    match ← atom head with
    | "solved-count" =>
      match args with
      | [set] => return .solvedCount (← compileSet set)
      | _ => throw (.badForm "solved-count expects 1 set arg")
    | _ => throw .expectedValueExpr

mutual

def compileGate : RawSexpr → Except CompileError GateExpr
  | .atom _ => .error (.badForm "bare atom not allowed")
  | .list [] => .error (.badForm "empty list")
  | .list (head :: args) => do
    match ← atom head with
    | "true" => if args.isEmpty then return .true else throw (.badForm "true expects 0 arg")
    | "false" => if args.isEmpty then return .false else throw (.badForm "false expects 0 arg")
    | "and" => return foldAnd (← compileGates args)
    | "or" => return foldOr (← compileGates args)
    | "not" =>
      match args with
      | [x] => return negateGate (← compileGate x)
      | _ => throw (.badForm "not expects 1 arg")
    | "solved" =>
      match args with
      | [puzzle] => return .solved (← parsePuzzleRef puzzle)
      | _ => throw (.badForm "solved expects 1 arg")
    | "all-solved" =>
      match args with
      | [set] => return .allSolved (← compileSet set)
      | _ => throw (.badForm "all-solved expects 1 set arg")
    | "any-solved" =>
      match args with
      | [set] => return .anySolved (← compileSet set)
      | _ => throw (.badForm "any-solved expects 1 set arg")
    | "game-started" =>
      if args.isEmpty then return .gameStarted else throw (.badForm "game-started expects 0 arg")
    | "triggered" =>
      match args with
      | [puzzle, key] => do
        let key ← atom key
        if validKey key then return .triggered (← parsePuzzleRef puzzle) key
        else throw (.badForm "invalid trigger key")
      | _ => throw (.badForm "triggered expects 2 args")
    | op =>
      match opToCmp op with
      | some cmp =>
        match args with
        | [lhs, rhs] => return .cmp cmp (← compileValue lhs) (← compileValue rhs)
        | _ => throw (.badForm "comparison expects 2 args")
      | none => throw (.unknownOp op)

/-- The operands, up to the first that is ill-formed. -/
def compileGates : List RawSexpr → Except CompileError (List GateExpr)
  | [] => .ok []
  | item :: items => do
    let child ← compileGate item
    let children ← compileGates items
    return child :: children

end

mutual

def compileHintDisplay : RawSexpr → Except CompileError HintDisplayExpr
  | .atom _ => .error (.badForm "bare atom not allowed")
  | .list [] => .error (.badForm "empty list")
  | .list (head :: args) => do
    match ← atom head with
    | "hint-enabled" =>
      if args.isEmpty then return .hintEnabled else throw (.badForm "hint-enabled expects 0 arg")
    | "hint-cooled-down" =>
      if args.isEmpty then return .hintCooledDown
      else throw (.badForm "hint-cooled-down expects 0 arg")
    | "and" => return foldHintAnd (← compileHintDisplays args)
    | "or" => return foldHintOr (← compileHintDisplays args)
    | "not" =>
      match args with
      | [x] => return negateHint (← compileHintDisplay x)
      | _ => throw (.badForm "not expects 1 arg")
    | _ => return .gate (← compileGate (.list (head :: args)))

/-- The operands, up to the first that is ill-formed. -/
def compileHintDisplays : List RawSexpr → Except CompileError (List HintDisplayExpr)
  | [] => .ok []
  | item :: items => do
    let child ← compileHintDisplay item
    let children ← compileHintDisplays items
    return child :: children

end

/-- Why a text is not accepted as a condition. -/
inductive ExprError where
  | parse (e : ParseFailure)
  | compile (e : CompileError)
  deriving DecidableEq

/-- Parse a text and compile it. -/
def compileText {α : Type} (compile : RawSexpr → Except CompileError α) (expr : String) :
    Except ExprError α :=
  match parse expr with
  | .error e => .error (.parse e)
  | .ok s => (compile s).mapError .compile

/-- `compile_gate_expr_uncached`. -/
def compileGateExpr (expr : String) : Except ExprError GateExpr := compileText compileGate expr

/-- `compile_hint_display_expr_uncached`. -/
def compileHintDisplayExpr (expr : String) : Except ExprError HintDisplayExpr :=
  compileText compileHintDisplay expr

end Expr
