import RbphBackend.Expr.Truth

set_option relaxedAutoImplicit false
set_option autoImplicit false

/-!
# Progress never locks again

A condition without negations whose comparisons ask for a number of solved puzzles, or more, stays
true while a team makes progress. The compiler makes such conditions of such expressions.

## Main definitions

* `Expr.Below` — a state with at least the progress of another.
* `Expr.Positive`, `Expr.PositiveSource` — the conditions and the expressions.

## Main results

* `Expr.evalCompiled_mono` — a positive condition stays true.
* `Expr.positive_of_compileGate` — a positive expression is compiled to a positive condition.
-/

namespace Expr

/-! ## Positive conditions -/

/-- The second state is of the same game, and has at least the progress of the first. -/
structure Below (s s' : PuzzleStates) : Prop where
  puzzleSlug : s'.puzzleSlug = s.puzzleSlug
  roundSlug : s'.roundSlug = s.roundSlug
  roundPuzzles : s'.roundPuzzles = s.roundPuzzles
  isSolved : ∀ p, s.isSolved p = true → s'.isSolved p = true
  isTriggered : ∀ p key, s.isTriggered p key = true → s'.isTriggered p key = true
  gameStarted : s.gameStarted = true → s'.gameStarted = true

/-- A comparison that bounds from below by a number. -/
inductive RisingCmp : CmpOp → ValueExpr → ValueExpr → Prop where
  | ge (v : ValueExpr) (n : ℕ) : RisingCmp .ge v (.number n)
  | gt (v : ValueExpr) (n : ℕ) : RisingCmp .gt v (.number n)
  | le (n : ℕ) (v : ValueExpr) : RisingCmp .le (.number n) v
  | lt (n : ℕ) (v : ValueExpr) : RisingCmp .lt (.number n) v

/-- A condition without negations whose comparisons bound from below. -/
inductive Positive : GateExpr → Prop where
  | true : Positive .true
  | false : Positive .false
  | and {xs : List GateExpr} (h : ∀ x ∈ xs, Positive x) : Positive (.and xs)
  | or {xs : List GateExpr} (h : ∀ x ∈ xs, Positive x) : Positive (.or xs)
  | solved (puzzle : PuzzleRef) : Positive (.solved puzzle)
  | allSolved (set : SetExpr) : Positive (.allSolved set)
  | anySolved (set : SetExpr) : Positive (.anySolved set)
  | gameStarted : Positive .gameStarted
  | triggered (puzzle : PuzzleRef) (key : String) : Positive (.triggered puzzle key)
  | cmp {op : CmpOp} {lhs rhs : ValueExpr} (h : RisingCmp op lhs rhs) : Positive (.cmp op lhs rhs)

namespace Below

variable {s s' : PuzzleStates}

lemma resolvePuzzle (h : Below s s') (puzzle : PuzzleRef) :
    resolvePuzzle s' puzzle = Expr.resolvePuzzle s puzzle := by
  cases puzzle with
  | id id => rfl
  | slug slug => rw [Expr.resolvePuzzle, Expr.resolvePuzzle, h.puzzleSlug]

/-- A set is made of the same puzzles. -/
lemma materializeSet (h : Below s s') (set : SetExpr) :
    materializeSet s' set = Expr.materializeSet s set := by
  cases set with
  | puzzles puzzles =>
    rw [Expr.materializeSet, Expr.materializeSet]
    congr 1
    funext puzzle
    exact h.resolvePuzzle puzzle
  | puzzleRange start finish => rfl
  | round round =>
    cases round with
    | id id => rw [Expr.materializeSet, Expr.materializeSet, resolveRound, resolveRound, h.roundPuzzles]
    | slug slug =>
      rw [Expr.materializeSet, Expr.materializeSet, resolveRound, resolveRound, h.roundPuzzles,
        h.roundSlug]

/-- More puzzles of a set are solved, whether it is known or not. -/
lemma evalValue (h : Below s s') (v : ValueExpr) : evalValue s v ≤ Expr.evalValue s' v := by
  cases v with
  | number n => exact Nat.le_refl n
  | solvedCount set =>
    rw [Expr.evalValue, Expr.evalValue, h.materializeSet, ← List.countP_eq_length_filter,
      ← List.countP_eq_length_filter]
    exact List.countP_mono_left fun p _ => h.isSolved p

/-- A comparison that bounds from below stays true. -/
lemma rising (h : Below s s') {op : CmpOp} {l r : ValueExpr} (hc : RisingCmp op l r)
    (ht : cmpUsize op (Expr.evalValue s l) (Expr.evalValue s r) = true) :
    Expr.cmpUsize op (Expr.evalValue s' l) (Expr.evalValue s' r) = true := by
  cases hc with
  | ge =>
    have hle := h.evalValue l
    rw [Expr.cmpUsize, decide_eq_true_eq] at ht ⊢
    exact Nat.le_trans ht hle
  | gt =>
    have hle := h.evalValue l
    rw [Expr.cmpUsize, decide_eq_true_eq] at ht ⊢
    exact Nat.lt_of_lt_of_le ht hle
  | le =>
    have hle := h.evalValue r
    rw [Expr.cmpUsize, decide_eq_true_eq] at ht ⊢
    exact Nat.le_trans ht hle
  | lt =>
    have hle := h.evalValue r
    rw [Expr.cmpUsize, decide_eq_true_eq] at ht ⊢
    exact Nat.lt_of_lt_of_le ht hle

end Below

/-- **A positive condition stays true**, by induction on it. -/
theorem evalCompiled_mono {e : GateExpr} (he : Positive e) {s s' : PuzzleStates} (h : Below s s')
    (ht : evalCompiled s e = true) : evalCompiled s' e = true := by
  induction he with
  | true => rw [evalCompiled]
  | false => rw [evalCompiled] at ht; cases ht
  | and _ ih =>
    rw [evalCompiled, evalAll_eq, List.all_eq_true] at ht ⊢
    exact fun x hx => ih x hx (ht x hx)
  | or _ ih =>
    rw [evalCompiled, evalAny_eq, List.any_eq_true] at ht ⊢
    obtain ⟨x, hx, ht⟩ := ht
    exact ⟨x, hx, ih x hx ht⟩
  | solved puzzle =>
    rw [evalCompiled, Option.any_eq_true] at ht ⊢
    obtain ⟨p, hp, ht⟩ := ht
    exact ⟨p, by rw [h.resolvePuzzle, hp], h.isSolved p ht⟩
  | allSolved set =>
    rw [evalCompiled, Option.any_eq_true] at ht ⊢
    obtain ⟨ids, hids, ht⟩ := ht
    rw [List.all_eq_true] at ht
    refine ⟨ids, by rw [h.materializeSet, hids], List.all_eq_true.mpr fun p hp => ?_⟩
    exact h.isSolved p (ht p hp)
  | anySolved set =>
    rw [evalCompiled, Option.any_eq_true] at ht ⊢
    obtain ⟨ids, hids, ht⟩ := ht
    obtain ⟨p, hp, ht⟩ := List.any_eq_true.mp ht
    exact ⟨ids, by rw [h.materializeSet, hids], List.any_eq_true.mpr ⟨p, hp, h.isSolved p ht⟩⟩
  | gameStarted =>
    rw [evalCompiled] at ht ⊢
    exact h.gameStarted ht
  | triggered puzzle key =>
    rw [evalCompiled, Option.any_eq_true] at ht ⊢
    obtain ⟨p, hp, ht⟩ := ht
    exact ⟨p, by rw [h.resolvePuzzle, hp], h.isTriggered p key ht⟩
  | cmp hc =>
    rw [evalCompiled] at ht ⊢
    exact h.rising hc ht

/-! ## Positive expressions -/

/-- The expression is not a negation, and if it is a comparison, it bounds from below by a number. -/
structure PositiveAt (x : RawSexpr) : Prop where
  not : ∀ args, x ≠ .list (.atom "not" :: args)
  cmp : ∀ op lhs rhs, x = .list [.atom op, lhs, rhs] → op ∈ ["gt", "ge", "lt", "le", "eq", "ne"] →
    (op = "ge" ∨ op = "gt") ∧ (∃ n, rhs = .atom n) ∨ (op = "le" ∨ op = "lt") ∧ ∃ n, lhs = .atom n

/-- The expressions that the expression is made of are positive. -/
def PositiveSource (s : RawSexpr) : Prop := ∀ x, Operand x s → PositiveAt x

section Folding

variable {xs : List GateExpr} {x y : GateExpr}

lemma positive_of_mem_flattenAnd (hx : Positive x) (hy : y ∈ flattenAnd x) : Positive y := by
  unfold flattenAnd at hy
  split at hy
  · cases hy
  · cases hx with
    | and h => exact h y hy
  · rwa [List.mem_singleton.mp hy]

lemma positive_of_mem_flattenOr (hx : Positive x) (hy : y ∈ flattenOr x) : Positive y := by
  unfold flattenOr at hy
  split at hy
  · cases hy
  · cases hx with
    | or h => exact h y hy
  · rwa [List.mem_singleton.mp hy]

lemma positive_foldAnd (h : ∀ x ∈ xs, Positive x) : Positive (foldAnd xs) := by
  rw [foldAnd_eq]
  split
  · exact .false
  · have hflat : ∀ y ∈ xs.flatMap flattenAnd, Positive y := fun y hy => by
      obtain ⟨x, hx, hy⟩ := List.mem_flatMap.mp hy
      exact positive_of_mem_flattenAnd (h x hx) hy
    exact connect_cases .true hflat fun _ => .and hflat

lemma positive_foldOr (h : ∀ x ∈ xs, Positive x) : Positive (foldOr xs) := by
  rw [foldOr_eq]
  split
  · exact .true
  · have hflat : ∀ y ∈ xs.flatMap flattenOr, Positive y := fun y hy => by
      obtain ⟨x, hx, hy⟩ := List.mem_flatMap.mp hy
      exact positive_of_mem_flattenOr (h x hx) hy
    exact connect_cases .false hflat fun _ => .or hflat

end Folding

/-- A comparison that bounds from below is compiled to one. -/
lemma risingCmp_of_positiveAt {op : String} {c : CmpOp} {lhs rhs : RawSexpr} {l r : ValueExpr}
    (h : PositiveAt (.list [.atom op, lhs, rhs])) (hop : opToCmp op = some c)
    (hl : ValueRule lhs l) (hr : ValueRule rhs r) : RisingCmp c l r := by
  have hmem := opToCmp_eq_some hop
  simp only [List.mem_cons, Prod.mk.injEq, List.not_mem_nil, or_false] at hmem
  have hop' : op ∈ ["gt", "ge", "lt", "le", "eq", "ne"] := by
    rcases hmem with ⟨rfl, -⟩ | ⟨rfl, -⟩ | ⟨rfl, -⟩ | ⟨rfl, -⟩ | ⟨rfl, -⟩ | ⟨rfl, -⟩ <;> simp
  rcases h.cmp op lhs rhs rfl hop' with ⟨rfl | rfl, n, rfl⟩ | ⟨rfl | rfl, n, rfl⟩
  · obtain rfl := Option.some.inj hop
    cases hr with
    | number hn => exact .ge l _
  · obtain rfl := Option.some.inj hop
    cases hr with
    | number hn => exact .gt l _
  · obtain rfl := Option.some.inj hop
    cases hl with
    | number hn => exact .le _ r
  · obtain rfl := Option.some.inj hop
    cases hl with
    | number hn => exact .lt _ r

/-- **A positive expression is compiled to a positive condition**, by induction on it. -/
theorem positive_of_compileGate {s : RawSexpr} {e : GateExpr} (hs : PositiveSource s)
    (h : compileGate s = .ok e) : Positive e := by
  induction s using RawSexpr.induction generalizing e with
  | atom a => cases h
  | list items ih =>
    cases compileGate_iff.mp h with
    | true => exact .true
    | false => exact .false
    | and hc =>
      refine positive_foldAnd fun y hy => ?_
      obtain ⟨x, hx, hxy⟩ := exists_of_mem_forall₂ (compileGates_iff.mp hc) hy
      exact ih x (List.mem_cons_of_mem _ hx) (fun z hz => hs z (.and hx hz)) hxy
    | or hc =>
      refine positive_foldOr fun y hy => ?_
      obtain ⟨x, hx, hxy⟩ := exists_of_mem_forall₂ (compileGates_iff.mp hc) hy
      exact ih x (List.mem_cons_of_mem _ hx) (fun z hz => hs z (.or hx hz)) hxy
    | not hc => exact absurd rfl ((hs _ (.refl _)).not _)
    | solved a => exact .solved _
    | allSolved hset => exact .allSolved _
    | anySolved hset => exact .anySolved _
    | gameStarted => exact .gameStarted
    | triggered a hkey => exact .triggered _ _
    | cmp hop hl hr => exact .cmp (risingCmp_of_positiveAt (hs _ (.refl _)) hop hl hr)

/-- **Progress never locks again**: a positive condition that holds in a state holds in every state
with at least its progress, and so does every condition that is compiled from a positive
expression. -/
theorem progress_keeps :
    (∀ e, Positive e → ∀ s s', Below s s' → evalCompiled s e = true → evalCompiled s' e = true) ∧
    ∀ src e, PositiveSource src → compileGate src = .ok e →
      Positive e ∧ ∀ s s', Below s s' → evalCompiled s e = true → evalCompiled s' e = true :=
  ⟨fun _ he _ _ h => evalCompiled_mono he h, fun _ _ hsrc hc =>
    ⟨positive_of_compileGate hsrc hc,
      fun _ _ h => evalCompiled_mono (positive_of_compileGate hsrc hc) h⟩⟩

end Expr
