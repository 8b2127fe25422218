import Mathlib.Data.List.Forall2
import RbphBackend.Expr.Compiler

set_option relaxedAutoImplicit false
set_option autoImplicit false

/-!
# The rules of the compiler

The expressions the compiler accepts, and how it comes to a condition: one rule for each operator.
Whatever is proved of the compiler is proved by these rules, by induction on the expression.

## Main definitions

* `Expr.Operand` — a condition that an expression is made of.
* `Expr.Fits` — an operator with the operands it takes.
* `Expr.GateRule`, `Expr.HintRule` — the rules.

## Main results

* `Expr.compileGate_iff`, `Expr.compileHintDisplay_iff` — the compiler follows the rules.
* `Expr.compileGate_isOk_iff` — it accepts what is made of operators with the operands they take.
-/

namespace Expr

/-! ## Expressions -/

/-- Induction on an expression: a list is made of its items. -/
@[elab_as_elim]
theorem RawSexpr.induction {motive : RawSexpr → Prop} (atom : ∀ a, motive (.atom a))
    (list : ∀ items, (∀ x ∈ items, motive x) → motive (.list items)) (s : RawSexpr) : motive s := by
  refine @RawSexpr.rec motive (fun items => ∀ x ∈ items, motive x) atom list ?_ ?_ s
  · intro x hx
    cases hx
  · intro item items hitem hitems x hx
    rcases List.mem_cons.mp hx with rfl | hx
    · exact hitem
    · exact hitems x hx

/-- The condition is one of those that an expression is made of, or the expression itself. -/
inductive Operand : RawSexpr → RawSexpr → Prop where
  | refl (x : RawSexpr) : Operand x x
  | and {x y : RawSexpr} {args : List RawSexpr} (hy : y ∈ args) (h : Operand x y) :
    Operand x (.list (.atom "and" :: args))
  | or {x y : RawSexpr} {args : List RawSexpr} (hy : y ∈ args) (h : Operand x y) :
    Operand x (.list (.atom "or" :: args))
  | not {x y : RawSexpr} (h : Operand x y) : Operand x (.list [.atom "not", y])

/-- A set of puzzles. -/
inductive SetForm : RawSexpr → Prop where
  | puzzles {args : List RawSexpr} (h : ∀ x ∈ args, ∃ a, x = .atom a) :
    SetForm (.list (.atom "puzzles" :: args))
  | puzzleRange {a b : String} (ha : (parseUnsigned (2 ^ 32) a).isSome = true)
    (hb : (parseUnsigned (2 ^ 32) b).isSome = true) :
    SetForm (.list [.atom "puzzle-range", .atom a, .atom b])
  | round (a : String) : SetForm (.list [.atom "round", .atom a])

/-- A number. -/
inductive ValueForm : RawSexpr → Prop where
  | number {a : String} (h : (parseUnsigned (2 ^ 64) a).isSome = true) : ValueForm (.atom a)
  | solvedCount {set : RawSexpr} (h : SetForm set) : ValueForm (.list [.atom "solved-count", set])

/-- An operator with the operands it takes; of the conditions among them nothing is asked. -/
inductive Fits : RawSexpr → Prop where
  | true : Fits (.list [.atom "true"])
  | false : Fits (.list [.atom "false"])
  | and (args : List RawSexpr) : Fits (.list (.atom "and" :: args))
  | or (args : List RawSexpr) : Fits (.list (.atom "or" :: args))
  | not (x : RawSexpr) : Fits (.list [.atom "not", x])
  | solved (a : String) : Fits (.list [.atom "solved", .atom a])
  | allSolved {set : RawSexpr} (h : SetForm set) : Fits (.list [.atom "all-solved", set])
  | anySolved {set : RawSexpr} (h : SetForm set) : Fits (.list [.atom "any-solved", set])
  | gameStarted : Fits (.list [.atom "game-started"])
  | triggered (a : String) {key : String} (h : validKey key = Bool.true) :
    Fits (.list [.atom "triggered", .atom a, .atom key])
  | cmp {op : String} {lhs rhs : RawSexpr} (hop : op ∈ ["gt", "ge", "lt", "le", "eq", "ne"])
    (hl : ValueForm lhs) (hr : ValueForm rhs) : Fits (.list [.atom op, lhs, rhs])

/-! ## Atoms, sets and numbers -/

lemma atom_eq_ok {s : RawSexpr} {a : String} : atom s = .ok a ↔ s = .atom a := by
  cases s <;> simp [atom, eq_comm]

/-- The puzzle an atom refers to. -/
def puzzleRefOf (a : String) : PuzzleRef :=
  match parseUnsigned (2 ^ 32) a with
  | some id => .id id
  | none => .slug a

/-- The round an atom refers to. -/
def roundRefOf (a : String) : RoundRef :=
  match parseUnsigned (2 ^ 32) a with
  | some id => .id id
  | none => .slug a

lemma parsePuzzleRef_eq_ok {s : RawSexpr} {p : PuzzleRef} :
    parsePuzzleRef s = .ok p ↔ ∃ a, s = .atom a ∧ puzzleRefOf a = p := by
  cases s with
  | list items => simp [parsePuzzleRef, atom, bind, Except.bind]
  | atom a =>
    simp only [parsePuzzleRef, atom, puzzleRefOf, bind, Except.bind, RawSexpr.atom.injEq,
      exists_eq_left']
    cases parseUnsigned (2 ^ 32) a <;> simp [pure, Except.pure]

lemma parseRoundRef_eq_ok {s : RawSexpr} {r : RoundRef} :
    parseRoundRef s = .ok r ↔ ∃ a, s = .atom a ∧ roundRefOf a = r := by
  cases s with
  | list items => simp [parseRoundRef, atom, bind, Except.bind]
  | atom a =>
    simp only [parseRoundRef, atom, roundRefOf, bind, Except.bind, RawSexpr.atom.injEq,
      exists_eq_left']
    cases parseUnsigned (2 ^ 32) a <;> simp [pure, Except.pure]

lemma parseU32_eq_ok {s : RawSexpr} {n : ℕ} :
    parseU32 s = .ok n ↔ ∃ a, s = .atom a ∧ parseUnsigned (2 ^ 32) a = some n := by
  cases s with
  | list items => simp [parseU32, atom, bind, Except.bind]
  | atom a =>
    simp only [parseU32, atom, bind, Except.bind, RawSexpr.atom.injEq, exists_eq_left']
    cases parseUnsigned (2 ^ 32) a <;> simp [pure, Except.pure, throw, throwThe, MonadExceptOf.throw]

lemma parseUsize_eq_ok {s : RawSexpr} {n : ℕ} :
    parseUsize s = .ok n ↔ ∃ a, s = .atom a ∧ parseUnsigned (2 ^ 64) a = some n := by
  cases s with
  | list items => simp [parseUsize, atom, bind, Except.bind]
  | atom a =>
    simp only [parseUsize, atom, bind, Except.bind, RawSexpr.atom.injEq, exists_eq_left']
    cases parseUnsigned (2 ^ 64) a <;> simp [pure, Except.pure, throw, throwThe, MonadExceptOf.throw]

/-- How a set is compiled. -/
inductive SetRule : RawSexpr → SetExpr → Prop where
  | puzzles (as : List String) :
    SetRule (.list (.atom "puzzles" :: as.map .atom)) (.puzzles (as.map puzzleRefOf))
  | puzzleRange {a b : String} {start finish : ℕ} (ha : parseUnsigned (2 ^ 32) a = some start)
    (hb : parseUnsigned (2 ^ 32) b = some finish) :
    SetRule (.list [.atom "puzzle-range", .atom a, .atom b]) (.puzzleRange start finish)
  | round (a : String) : SetRule (.list [.atom "round", .atom a]) (.round (roundRefOf a))

/-- How a number is compiled. -/
inductive ValueRule : RawSexpr → ValueExpr → Prop where
  | number {a : String} {n : ℕ} (h : parseUnsigned (2 ^ 64) a = some n) :
    ValueRule (.atom a) (.number n)
  | solvedCount {s : RawSexpr} {set : SetExpr} (h : SetRule s set) :
    ValueRule (.list [.atom "solved-count", s]) (.solvedCount set)

lemma bind_ok_iff {α β : Type} {x : Except CompileError α} {f : α → Except CompileError β} {b : β} :
    (x >>= f) = .ok b ↔ ∃ a, x = .ok a ∧ f a = .ok b := by
  cases x <;> simp [bind, Except.bind]

lemma pure_ok_iff {α : Type} {a b : α} : (pure a : Except CompileError α) = .ok b ↔ a = b := by
  simp [pure, Except.pure]

lemma throw_ok_iff {α : Type} {e : CompileError} {b : α} :
    (throw e : Except CompileError α) = .ok b ↔ False := by
  simp [throw, throwThe, MonadExceptOf.throw]

lemma mapM_parsePuzzleRef_eq_ok {args : List RawSexpr} {ps : List PuzzleRef} :
    args.mapM parsePuzzleRef = .ok ps ↔ ∃ as : List String, args = as.map .atom ∧
      as.map puzzleRefOf = ps := by
  induction args generalizing ps with
  | nil => simp [List.mapM_nil, pure_ok_iff]
  | cons x args ih =>
    simp only [List.mapM_cons, bind_ok_iff, pure_ok_iff, parsePuzzleRef_eq_ok, ih]
    constructor
    · rintro ⟨p, ⟨a, rfl, rfl⟩, ps', ⟨as, rfl, rfl⟩, rfl⟩
      exact ⟨a :: as, rfl, rfl⟩
    · rintro ⟨_ | ⟨a, as⟩, h, rfl⟩
      · cases h
      · obtain ⟨rfl, rfl⟩ := List.cons.inj h
        exact ⟨_, ⟨a, rfl, rfl⟩, _, ⟨as, rfl, rfl⟩, rfl⟩

lemma compileSet_iff {s : RawSexpr} {set : SetExpr} : compileSet s = .ok set ↔ SetRule s set := by
  constructor
  · intro h
    rcases s with a | items
    · cases h
    rcases items with _ | ⟨head, args⟩
    · cases h
    unfold compileSet at h
    rw [bind_ok_iff] at h
    obtain ⟨op, hop, h⟩ := h
    obtain rfl := atom_eq_ok.mp hop
    split at h
    · obtain ⟨ps, hps, h⟩ := bind_ok_iff.mp h
      obtain ⟨as, rfl, rfl⟩ := mapM_parsePuzzleRef_eq_ok.mp hps
      obtain rfl := pure_ok_iff.mp h
      exact .puzzles as
    · split at h
      · obtain ⟨start, hstart, h⟩ := bind_ok_iff.mp h
        obtain ⟨finish, hfinish, h⟩ := bind_ok_iff.mp h
        obtain rfl := pure_ok_iff.mp h
        obtain ⟨a, rfl, ha⟩ := parseU32_eq_ok.mp hstart
        obtain ⟨b, rfl, hb⟩ := parseU32_eq_ok.mp hfinish
        exact .puzzleRange ha hb
      · exact (throw_ok_iff.mp h).elim
    · split at h
      · obtain ⟨r, hr, h⟩ := bind_ok_iff.mp h
        obtain rfl := pure_ok_iff.mp h
        obtain ⟨a, rfl, rfl⟩ := parseRoundRef_eq_ok.mp hr
        exact .round a
      · exact (throw_ok_iff.mp h).elim
    · exact (throw_ok_iff.mp h).elim
  · rintro (as | ⟨ha, hb⟩ | a)
    · exact bind_ok_iff.mpr ⟨_, rfl, bind_ok_iff.mpr
        ⟨_, mapM_parsePuzzleRef_eq_ok.mpr ⟨as, rfl, rfl⟩, rfl⟩⟩
    · exact bind_ok_iff.mpr ⟨_, rfl, bind_ok_iff.mpr ⟨_, parseU32_eq_ok.mpr ⟨_, rfl, ha⟩,
        bind_ok_iff.mpr ⟨_, parseU32_eq_ok.mpr ⟨_, rfl, hb⟩, rfl⟩⟩⟩
    · exact bind_ok_iff.mpr ⟨_, rfl, bind_ok_iff.mpr
        ⟨_, parseRoundRef_eq_ok.mpr ⟨a, rfl, rfl⟩, rfl⟩⟩

lemma compileValue_iff {s : RawSexpr} {v : ValueExpr} : compileValue s = .ok v ↔ ValueRule s v := by
  constructor
  · intro h
    rcases s with a | items
    · obtain ⟨n, hn, h⟩ := bind_ok_iff.mp h
      obtain ⟨a', heq, hn⟩ := parseUsize_eq_ok.mp hn
      obtain rfl := RawSexpr.atom.inj heq
      obtain rfl := pure_ok_iff.mp h
      exact .number hn
    rcases items with _ | ⟨head, args⟩
    · cases h
    unfold compileValue at h
    rw [bind_ok_iff] at h
    obtain ⟨op, hop, h⟩ := h
    obtain rfl := atom_eq_ok.mp hop
    split at h
    · split at h
      · obtain ⟨set, hset, h⟩ := bind_ok_iff.mp h
        obtain rfl := pure_ok_iff.mp h
        exact .solvedCount (compileSet_iff.mp hset)
      · exact (throw_ok_iff.mp h).elim
    · exact (throw_ok_iff.mp h).elim
  · rintro (h | h)
    · exact bind_ok_iff.mpr ⟨_, parseUsize_eq_ok.mpr ⟨_, rfl, h⟩, rfl⟩
    · exact bind_ok_iff.mpr ⟨_, rfl, bind_ok_iff.mpr ⟨_, compileSet_iff.mpr h, rfl⟩⟩

/-! ## Conditions -/

/-- How a condition is compiled. -/
inductive GateRule : RawSexpr → GateExpr → Prop where
  | true : GateRule (.list [.atom "true"]) .true
  | false : GateRule (.list [.atom "false"]) .false
  | and {args : List RawSexpr} {children : List GateExpr} (h : compileGates args = .ok children) :
    GateRule (.list (.atom "and" :: args)) (foldAnd children)
  | or {args : List RawSexpr} {children : List GateExpr} (h : compileGates args = .ok children) :
    GateRule (.list (.atom "or" :: args)) (foldOr children)
  | not {x : RawSexpr} {e : GateExpr} (h : compileGate x = .ok e) :
    GateRule (.list [.atom "not", x]) (negateGate e)
  | solved (a : String) : GateRule (.list [.atom "solved", .atom a]) (.solved (puzzleRefOf a))
  | allSolved {s : RawSexpr} {set : SetExpr} (h : SetRule s set) :
    GateRule (.list [.atom "all-solved", s]) (.allSolved set)
  | anySolved {s : RawSexpr} {set : SetExpr} (h : SetRule s set) :
    GateRule (.list [.atom "any-solved", s]) (.anySolved set)
  | gameStarted : GateRule (.list [.atom "game-started"]) .gameStarted
  | triggered (a : String) {key : String} (h : validKey key = Bool.true) :
    GateRule (.list [.atom "triggered", .atom a, .atom key]) (.triggered (puzzleRefOf a) key)
  | cmp {op : String} {c : CmpOp} {lhs rhs : RawSexpr} {l r : ValueExpr} (hop : opToCmp op = some c)
    (hl : ValueRule lhs l) (hr : ValueRule rhs r) :
    GateRule (.list [.atom op, lhs, rhs]) (.cmp c l r)

lemma opToCmp_eq_some {op : String} {c : CmpOp} (h : opToCmp op = some c) :
    (op, c) ∈ [("gt", CmpOp.gt), ("ge", .ge), ("lt", .lt), ("le", .le), ("eq", .eq),
      ("ne", .ne)] := by
  unfold opToCmp at h
  split at h <;> first | cases h; simp | cases h

/-- **The compiler follows the rules.** -/
theorem compileGate_iff {s : RawSexpr} {e : GateExpr} : compileGate s = .ok e ↔ GateRule s e := by
  constructor
  · intro h
    rcases s with a | items
    · cases h
    rcases items with _ | ⟨head, args⟩
    · cases h
    unfold compileGate at h
    rw [bind_ok_iff] at h
    obtain ⟨op, hop, h⟩ := h
    obtain rfl := atom_eq_ok.mp hop
    split at h
    · split at h
      · rename_i hargs
        obtain rfl := List.isEmpty_iff.mp hargs
        obtain rfl := pure_ok_iff.mp h
        exact .true
      · exact (throw_ok_iff.mp h).elim
    · split at h
      · rename_i hargs
        obtain rfl := List.isEmpty_iff.mp hargs
        obtain rfl := pure_ok_iff.mp h
        exact .false
      · exact (throw_ok_iff.mp h).elim
    · obtain ⟨children, hchildren, h⟩ := bind_ok_iff.mp h
      obtain rfl := pure_ok_iff.mp h
      exact .and hchildren
    · obtain ⟨children, hchildren, h⟩ := bind_ok_iff.mp h
      obtain rfl := pure_ok_iff.mp h
      exact .or hchildren
    · split at h
      · obtain ⟨e', he', h⟩ := bind_ok_iff.mp h
        obtain rfl := pure_ok_iff.mp h
        exact .not he'
      · exact (throw_ok_iff.mp h).elim
    · split at h
      · obtain ⟨p, hp, h⟩ := bind_ok_iff.mp h
        obtain rfl := pure_ok_iff.mp h
        obtain ⟨a, rfl, rfl⟩ := parsePuzzleRef_eq_ok.mp hp
        exact .solved a
      · exact (throw_ok_iff.mp h).elim
    · split at h
      · obtain ⟨set, hset, h⟩ := bind_ok_iff.mp h
        obtain rfl := pure_ok_iff.mp h
        exact .allSolved (compileSet_iff.mp hset)
      · exact (throw_ok_iff.mp h).elim
    · split at h
      · obtain ⟨set, hset, h⟩ := bind_ok_iff.mp h
        obtain rfl := pure_ok_iff.mp h
        exact .anySolved (compileSet_iff.mp hset)
      · exact (throw_ok_iff.mp h).elim
    · split at h
      · rename_i hargs
        obtain rfl := List.isEmpty_iff.mp hargs
        obtain rfl := pure_ok_iff.mp h
        exact .gameStarted
      · exact (throw_ok_iff.mp h).elim
    · split at h
      · rw [bind_ok_iff] at h
        obtain ⟨key, hkey, h⟩ := h
        obtain rfl := atom_eq_ok.mp hkey
        split at h
        · rename_i hvalid
          obtain ⟨p, hp, h⟩ := bind_ok_iff.mp h
          obtain rfl := pure_ok_iff.mp h
          obtain ⟨a, rfl, rfl⟩ := parsePuzzleRef_eq_ok.mp hp
          exact .triggered a hvalid
        · exact (throw_ok_iff.mp h).elim
      · exact (throw_ok_iff.mp h).elim
    · split at h
      · rename_i c hc
        split at h
        · obtain ⟨l, hl, h⟩ := bind_ok_iff.mp h
          obtain ⟨r, hr, h⟩ := bind_ok_iff.mp h
          obtain rfl := pure_ok_iff.mp h
          exact .cmp hc (compileValue_iff.mp hl) (compileValue_iff.mp hr)
        · exact (throw_ok_iff.mp h).elim
      · exact (throw_ok_iff.mp h).elim
  · intro h
    unfold compileGate
    cases h with
    | true => rfl
    | false => rfl
    | and h => exact bind_ok_iff.mpr ⟨_, rfl, bind_ok_iff.mpr ⟨_, h, rfl⟩⟩
    | or h => exact bind_ok_iff.mpr ⟨_, rfl, bind_ok_iff.mpr ⟨_, h, rfl⟩⟩
    | not h => exact bind_ok_iff.mpr ⟨_, rfl, bind_ok_iff.mpr ⟨_, h, rfl⟩⟩
    | solved a =>
      exact bind_ok_iff.mpr ⟨_, rfl, bind_ok_iff.mpr ⟨_, parsePuzzleRef_eq_ok.mpr ⟨a, rfl, rfl⟩, rfl⟩⟩
    | allSolved h =>
      exact bind_ok_iff.mpr ⟨_, rfl, bind_ok_iff.mpr ⟨_, compileSet_iff.mpr h, rfl⟩⟩
    | anySolved h =>
      exact bind_ok_iff.mpr ⟨_, rfl, bind_ok_iff.mpr ⟨_, compileSet_iff.mpr h, rfl⟩⟩
    | gameStarted => rfl
    | @triggered a key h =>
      refine bind_ok_iff.mpr ⟨_, rfl, bind_ok_iff.mpr ⟨key, rfl, ?_⟩⟩
      rw [if_pos h]
      exact bind_ok_iff.mpr ⟨_, parsePuzzleRef_eq_ok.mpr ⟨a, rfl, rfl⟩, rfl⟩
    | @cmp op c lhs rhs l r hop hl hr =>
      have hmem := opToCmp_eq_some hop
      simp only [List.mem_cons, Prod.mk.injEq, List.not_mem_nil, or_false] at hmem
      refine bind_ok_iff.mpr ⟨op, rfl, ?_⟩
      rcases hmem with ⟨rfl, rfl⟩ | ⟨rfl, rfl⟩ | ⟨rfl, rfl⟩ | ⟨rfl, rfl⟩ | ⟨rfl, rfl⟩ | ⟨rfl, rfl⟩ <;>
      · exact bind_ok_iff.mpr ⟨_, compileValue_iff.mpr hl,
          bind_ok_iff.mpr ⟨_, compileValue_iff.mpr hr, rfl⟩⟩

namespace GateRule

variable {args : List RawSexpr} {x : RawSexpr} {e : GateExpr}

lemma of_and (h : GateRule (.list (.atom "and" :: args)) e) :
    ∃ children, compileGates args = .ok children ∧ foldAnd children = e := by
  generalize hs : RawSexpr.list (.atom "and" :: args) = s at h
  cases h with
  | and h =>
    simp only [RawSexpr.list.injEq, List.cons.injEq, true_and] at hs
    exact ⟨_, hs ▸ h, rfl⟩
  | cmp hop =>
    simp only [RawSexpr.list.injEq, List.cons.injEq, RawSexpr.atom.injEq] at hs
    rw [← hs.1] at hop
    cases hop
  | _ => simp at hs

lemma of_or (h : GateRule (.list (.atom "or" :: args)) e) :
    ∃ children, compileGates args = .ok children ∧ foldOr children = e := by
  generalize hs : RawSexpr.list (.atom "or" :: args) = s at h
  cases h with
  | or h =>
    simp only [RawSexpr.list.injEq, List.cons.injEq, true_and] at hs
    exact ⟨_, hs ▸ h, rfl⟩
  | cmp hop =>
    simp only [RawSexpr.list.injEq, List.cons.injEq, RawSexpr.atom.injEq] at hs
    rw [← hs.1] at hop
    cases hop
  | _ => simp at hs

lemma of_not (h : GateRule (.list [.atom "not", x]) e) :
    ∃ e', compileGate x = .ok e' ∧ negateGate e' = e := by
  generalize hs : RawSexpr.list [.atom "not", x] = s at h
  cases h with
  | not h =>
    simp only [RawSexpr.list.injEq, List.cons.injEq, true_and, and_true] at hs
    exact ⟨_, hs ▸ h, rfl⟩
  | _ => simp at hs

end GateRule

/-- The operands are compiled one by one. -/
lemma compileGates_iff {args : List RawSexpr} {children : List GateExpr} :
    compileGates args = .ok children ↔
      List.Forall₂ (fun x e => compileGate x = .ok e) args children := by
  induction args generalizing children with
  | nil => cases children <;> simp [compileGates]
  | cons x args ih =>
    rw [compileGates]
    simp only [bind_ok_iff, pure_ok_iff, ih]
    constructor
    · rintro ⟨e, he, es, hes, rfl⟩
      exact .cons he hes
    · rintro (_ | ⟨he, hes⟩)
      exact ⟨_, he, _, hes, rfl⟩

/-! ## Conditions of hints -/

/-- The operators of the language of hints that are not passed on to the language of conditions. -/
def hintOps : List String := ["hint-enabled", "hint-cooled-down", "and", "or", "not"]

/-- How the condition of a hint is compiled. -/
inductive HintRule : RawSexpr → HintDisplayExpr → Prop where
  | hintEnabled : HintRule (.list [.atom "hint-enabled"]) .hintEnabled
  | hintCooledDown : HintRule (.list [.atom "hint-cooled-down"]) .hintCooledDown
  | and {args : List RawSexpr} {children : List HintDisplayExpr}
    (h : compileHintDisplays args = .ok children) :
    HintRule (.list (.atom "and" :: args)) (foldHintAnd children)
  | or {args : List RawSexpr} {children : List HintDisplayExpr}
    (h : compileHintDisplays args = .ok children) :
    HintRule (.list (.atom "or" :: args)) (foldHintOr children)
  | not {x : RawSexpr} {e : HintDisplayExpr} (h : compileHintDisplay x = .ok e) :
    HintRule (.list [.atom "not", x]) (negateHint e)
  | gate {op : String} {args : List RawSexpr} {e : GateExpr} (hop : op ∉ hintOps)
    (h : compileGate (.list (.atom op :: args)) = .ok e) :
    HintRule (.list (.atom op :: args)) (.gate e)

/-- **The compiler of hints follows the rules.** -/
theorem compileHintDisplay_iff {s : RawSexpr} {e : HintDisplayExpr} :
    compileHintDisplay s = .ok e ↔ HintRule s e := by
  constructor
  · intro h
    rcases s with a | items
    · cases h
    rcases items with _ | ⟨head, args⟩
    · cases h
    unfold compileHintDisplay at h
    rw [bind_ok_iff] at h
    obtain ⟨op, hop, h⟩ := h
    obtain rfl := atom_eq_ok.mp hop
    split at h
    · split at h
      · rename_i hargs
        obtain rfl := List.isEmpty_iff.mp hargs
        obtain rfl := pure_ok_iff.mp h
        exact .hintEnabled
      · exact (throw_ok_iff.mp h).elim
    · split at h
      · rename_i hargs
        obtain rfl := List.isEmpty_iff.mp hargs
        obtain rfl := pure_ok_iff.mp h
        exact .hintCooledDown
      · exact (throw_ok_iff.mp h).elim
    · obtain ⟨children, hchildren, h⟩ := bind_ok_iff.mp h
      obtain rfl := pure_ok_iff.mp h
      exact .and hchildren
    · obtain ⟨children, hchildren, h⟩ := bind_ok_iff.mp h
      obtain rfl := pure_ok_iff.mp h
      exact .or hchildren
    · split at h
      · obtain ⟨e', he', h⟩ := bind_ok_iff.mp h
        obtain rfl := pure_ok_iff.mp h
        exact .not he'
      · exact (throw_ok_iff.mp h).elim
    · rename_i hne₁ hne₂ hne₃ hne₄ hne₅
      obtain ⟨e', he', h⟩ := bind_ok_iff.mp h
      obtain rfl := pure_ok_iff.mp h
      refine .gate ?_ he'
      simp only [hintOps, List.mem_cons, List.not_mem_nil, or_false, not_or]
      exact ⟨hne₁, hne₂, hne₃, hne₄, hne₅⟩
  · intro h
    unfold compileHintDisplay
    cases h with
    | hintEnabled => rfl
    | hintCooledDown => rfl
    | and h => exact bind_ok_iff.mpr ⟨_, rfl, bind_ok_iff.mpr ⟨_, h, rfl⟩⟩
    | or h => exact bind_ok_iff.mpr ⟨_, rfl, bind_ok_iff.mpr ⟨_, h, rfl⟩⟩
    | not h => exact bind_ok_iff.mpr ⟨_, rfl, bind_ok_iff.mpr ⟨_, h, rfl⟩⟩
    | @gate op args e hop h =>
      refine bind_ok_iff.mpr ⟨op, rfl, ?_⟩
      simp only [hintOps, List.mem_cons, List.not_mem_nil, or_false, not_or] at hop
      obtain ⟨h₁, h₂, h₃, h₄, h₅⟩ := hop
      split
      · exact absurd rfl h₁
      · exact absurd rfl h₂
      · exact absurd rfl h₃
      · exact absurd rfl h₄
      · exact absurd rfl h₅
      · exact bind_ok_iff.mpr ⟨e, h, rfl⟩

lemma compileHintDisplays_iff {args : List RawSexpr} {children : List HintDisplayExpr} :
    compileHintDisplays args = .ok children ↔
      List.Forall₂ (fun x e => compileHintDisplay x = .ok e) args children := by
  induction args generalizing children with
  | nil => cases children <;> simp [compileHintDisplays]
  | cons x args ih =>
    rw [compileHintDisplays]
    simp only [bind_ok_iff, pure_ok_iff, ih]
    constructor
    · rintro ⟨e, he, es, hes, rfl⟩
      exact .cons he hes
    · rintro (_ | ⟨he, hes⟩)
      exact ⟨_, he, _, hes, rfl⟩

/-! ## What is accepted -/

lemma setForm_iff {s : RawSexpr} : SetForm s ↔ ∃ set, SetRule s set := by
  constructor
  · rintro (h | ⟨ha, hb⟩ | a)
    · rename_i args
      have hargs : ∃ as : List String, args = as.map .atom := by
        induction args with
        | nil => exact ⟨[], rfl⟩
        | cons x args ih =>
          obtain ⟨a, rfl⟩ := h x List.mem_cons_self
          obtain ⟨as, rfl⟩ := ih fun y hy => h y (List.mem_cons_of_mem _ hy)
          exact ⟨a :: as, rfl⟩
      obtain ⟨as, rfl⟩ := hargs
      exact ⟨_, .puzzles as⟩
    · obtain ⟨start, hstart⟩ := Option.isSome_iff_exists.mp ha
      obtain ⟨finish, hfinish⟩ := Option.isSome_iff_exists.mp hb
      exact ⟨_, .puzzleRange hstart hfinish⟩
    · exact ⟨_, .round a⟩
  · rintro ⟨set, as | ⟨ha, hb⟩ | a⟩
    · refine .puzzles fun x hx => ?_
      obtain ⟨a, -, rfl⟩ := List.mem_map.mp hx
      exact ⟨a, rfl⟩
    · exact .puzzleRange (by rw [ha]; rfl) (by rw [hb]; rfl)
    · exact .round a

lemma valueForm_iff {s : RawSexpr} : ValueForm s ↔ ∃ v, ValueRule s v := by
  constructor
  · rintro (h | h)
    · obtain ⟨n, hn⟩ := Option.isSome_iff_exists.mp h
      exact ⟨_, .number hn⟩
    · obtain ⟨set, hset⟩ := setForm_iff.mp h
      exact ⟨_, .solvedCount hset⟩
  · rintro ⟨v, h | h⟩
    · exact .number (by rw [h]; rfl)
    · exact .solvedCount (setForm_iff.mpr ⟨_, h⟩)

/-- A list of expressions is compiled where each of them is. -/
lemma exists_compileGates {args : List RawSexpr} (h : ∀ x ∈ args, ∃ e, compileGate x = .ok e) :
    ∃ children, compileGates args = .ok children := by
  induction args with
  | nil => exact ⟨[], rfl⟩
  | cons x args ih =>
    obtain ⟨e, he⟩ := h x List.mem_cons_self
    obtain ⟨es, hes⟩ := ih fun y hy => h y (List.mem_cons_of_mem _ hy)
    exact ⟨e :: es, compileGates_iff.mpr (.cons he (compileGates_iff.mp hes))⟩

/-- Each of the expressions that are compiled together is compiled. -/
lemma exists_compileGate_of_mem {args : List RawSexpr} {children : List GateExpr}
    (h : compileGates args = .ok children) {x : RawSexpr} (hx : x ∈ args) :
    ∃ e, compileGate x = .ok e := by
  have hall := compileGates_iff.mp h
  clear h
  induction hall with
  | nil => cases hx
  | cons he _ ih =>
    rcases List.mem_cons.mp hx with rfl | hx
    · exact ⟨_, he⟩
    · exact ih hx

/-- **What the compiler accepts**: expressions that are made of operators with the operands they take,
also below an operator that would fold. -/
theorem compileGate_isOk_iff (s : RawSexpr) :
    (∃ e, compileGate s = .ok e) ↔ ∀ x, Operand x s → Fits x := by
  constructor
  · rintro ⟨e, he⟩ x hx
    induction hx generalizing e with
    | refl =>
      cases compileGate_iff.mp he with
      | true => exact .true
      | false => exact .false
      | and => exact .and _
      | or => exact .or _
      | not => exact .not _
      | solved a => exact .solved a
      | allSolved h => exact .allSolved (setForm_iff.mpr ⟨_, h⟩)
      | anySolved h => exact .anySolved (setForm_iff.mpr ⟨_, h⟩)
      | gameStarted => exact .gameStarted
      | triggered a h => exact .triggered a h
      | cmp hop hl hr =>
        refine .cmp ?_ (valueForm_iff.mpr ⟨_, hl⟩) (valueForm_iff.mpr ⟨_, hr⟩)
        have hmem := opToCmp_eq_some hop
        simp only [List.mem_cons, Prod.mk.injEq, List.not_mem_nil, or_false] at hmem
        rcases hmem with ⟨rfl, -⟩ | ⟨rfl, -⟩ | ⟨rfl, -⟩ | ⟨rfl, -⟩ | ⟨rfl, -⟩ | ⟨rfl, -⟩ <;> simp
    | and hy _ ih =>
      obtain ⟨children, hchildren, -⟩ := (compileGate_iff.mp he).of_and
      obtain ⟨e', he'⟩ := exists_compileGate_of_mem hchildren hy
      exact ih e' he'
    | or hy _ ih =>
      obtain ⟨children, hchildren, -⟩ := (compileGate_iff.mp he).of_or
      obtain ⟨e', he'⟩ := exists_compileGate_of_mem hchildren hy
      exact ih e' he'
    | not _ ih =>
      obtain ⟨e', he', -⟩ := (compileGate_iff.mp he).of_not
      exact ih e' he'
  · induction s using RawSexpr.induction with
    | atom a =>
      intro h
      cases h _ (.refl _)
    | list items ih =>
      intro h
      cases h _ (.refl _) with
      | true => exact ⟨_, compileGate_iff.mpr .true⟩
      | false => exact ⟨_, compileGate_iff.mpr .false⟩
      | and args =>
        obtain ⟨children, hchildren⟩ := exists_compileGates fun y hy =>
          ih y (List.mem_cons_of_mem _ hy) fun x hx => h x (.and hy hx)
        exact ⟨_, compileGate_iff.mpr (.and hchildren)⟩
      | or args =>
        obtain ⟨children, hchildren⟩ := exists_compileGates fun y hy =>
          ih y (List.mem_cons_of_mem _ hy) fun x hx => h x (.or hy hx)
        exact ⟨_, compileGate_iff.mpr (.or hchildren)⟩
      | not x =>
        obtain ⟨e, he⟩ := ih x (by simp) fun y hy => h y (.not hy)
        exact ⟨_, compileGate_iff.mpr (.not he)⟩
      | solved a => exact ⟨_, compileGate_iff.mpr (.solved a)⟩
      | allSolved hset =>
        obtain ⟨set, hset⟩ := setForm_iff.mp hset
        exact ⟨_, compileGate_iff.mpr (.allSolved hset)⟩
      | anySolved hset =>
        obtain ⟨set, hset⟩ := setForm_iff.mp hset
        exact ⟨_, compileGate_iff.mpr (.anySolved hset)⟩
      | gameStarted => exact ⟨_, compileGate_iff.mpr .gameStarted⟩
      | triggered a hkey => exact ⟨_, compileGate_iff.mpr (.triggered a hkey)⟩
      | @cmp op lhs rhs hop hl hr =>
        obtain ⟨l, hl⟩ := valueForm_iff.mp hl
        obtain ⟨r, hr⟩ := valueForm_iff.mp hr
        have hcmp : ∃ c, opToCmp op = some c := by
          simp only [List.mem_cons, List.not_mem_nil, or_false] at hop
          rcases hop with rfl | rfl | rfl | rfl | rfl | rfl <;> exact ⟨_, rfl⟩
        obtain ⟨c, hc⟩ := hcmp
        exact ⟨_, compileGate_iff.mpr (.cmp hc hl hr)⟩

end Expr
