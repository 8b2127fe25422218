import RbphBackend.Expr.Rules

set_option relaxedAutoImplicit false
set_option autoImplicit false

/-!
# What a condition says

An expression has a truth value of its own, read off its text operator by operator. The compiler
folds constants, flattens, unwraps and drops double negations, and keeps this value.

## Main definitions

* `Expr.truth` — the truth value of an expression.
* `Expr.connect` — what a connective makes of its operands.
* `Expr.Normal` — the normal forms of conditions.

## Main results

* `Expr.evalCompiled_foldAnd`, `Expr.evalCompiled_foldOr` — folding keeps the value.
* `Expr.normal_foldAnd`, `Expr.normal_foldOr` — folding keeps the normal form.
* `Expr.compileGate_meaning` — the compiler keeps the value, gives normal forms, and fails exactly
  where a part is ill-formed.
-/

namespace Expr

/-! ## Truth values -/

/-- The atom, if the expression is one. -/
def RawSexpr.atom? : RawSexpr → Option String
  | .atom a => some a
  | .list _ => none

section Truth

variable (state : PuzzleStates)

/-- The puzzle an atom refers to, by its id or by its slug. -/
def puzzleOf (a : String) : Option PuzzleId :=
  match parseUnsigned (2 ^ 32) a with
  | some id => some id
  | none => state.puzzleSlug a

/-- The puzzles of the round an atom refers to, by its id or by its slug. -/
def roundOf (a : String) : Option (List PuzzleId) :=
  match parseUnsigned (2 ^ 32) a with
  | some id => state.roundPuzzles id
  | none => (state.roundSlug a).bind state.roundPuzzles

/-- The puzzles of a set. -/
def setOf : RawSexpr → Option (List PuzzleId)
  | .list (.atom op :: args) =>
    if op = "puzzles" then args.mapM fun x => x.atom?.bind (puzzleOf state)
    else if op = "puzzle-range" then
      match args with
      | [.atom a, .atom b] =>
        (parseUnsigned (2 ^ 32) a).bind fun start =>
          (parseUnsigned (2 ^ 32) b).map fun finish => rangeIds start finish
      | _ => none
    else if op = "round" then
      match args with
      | [.atom a] => roundOf state a
      | _ => none
    else none
  | _ => none

/-- A number: a numeral, or how many puzzles of a set are solved. -/
def numberOf : RawSexpr → ℕ
  | .atom a => (parseUnsigned (2 ^ 64) a).getD 0
  | .list [_, set] => ((setOf state set).getD []).countP state.isSolved
  | .list _ => 0

/-- A comparison. -/
def compares (op : String) (m n : ℕ) : Bool :=
  if op = "gt" then n < m
  else if op = "ge" then n ≤ m
  else if op = "lt" then m < n
  else if op = "le" then m ≤ n
  else if op = "eq" then m = n
  else op = "ne" && m ≠ n

/-- An operator that takes no conditions. -/
def leafTruth (op : String) (args : List RawSexpr) : Bool :=
  if op = "true" then true
  else if op = "game-started" then state.gameStarted
  else
    match args with
    | [x] =>
      if op = "solved" then (x.atom?.bind (puzzleOf state)).any state.isSolved
      else if op = "all-solved" then (setOf state x).any fun ids => ids.all state.isSolved
      else op = "any-solved" && (setOf state x).any fun ids => ids.any state.isSolved
    | [x, y] =>
      if op = "triggered" then
        (x.atom?.bind (puzzleOf state)).any fun id => y.atom?.any fun key => state.isTriggered id key
      else compares op (numberOf state x) (numberOf state y)
    | _ => false

mutual

/-- The truth value of an expression. -/
def truth : RawSexpr → Bool
  | .list (.atom op :: args) =>
    if op = "and" then truthAll args
    else if op = "or" then truthAny args
    else if op = "not" then !truthAll args
    else leafTruth state op args
  | _ => false

/-- All of the expressions are true. -/
def truthAll : List RawSexpr → Bool
  | [] => true
  | x :: xs => truth x && truthAll xs

/-- One of the expressions is true. -/
def truthAny : List RawSexpr → Bool
  | [] => false
  | x :: xs => truth x || truthAny xs

end

lemma truthAll_eq (xs : List RawSexpr) : truthAll state xs = xs.all (truth state) := by
  induction xs with
  | nil => rfl
  | cons x xs ih => rw [truthAll, ih, List.all_cons]

lemma truthAny_eq (xs : List RawSexpr) : truthAny state xs = xs.any (truth state) := by
  induction xs with
  | nil => rfl
  | cons x xs ih => rw [truthAny, ih, List.any_cons]

lemma evalAll_eq (xs : List GateExpr) : evalAll state xs = xs.all (evalCompiled state) := by
  induction xs with
  | nil => rfl
  | cons x xs ih => rw [evalAll, ih, List.all_cons]

lemma evalAny_eq (xs : List GateExpr) : evalAny state xs = xs.any (evalCompiled state) := by
  induction xs with
  | nil => rfl
  | cons x xs ih => rw [evalAny, ih, List.any_cons]

end Truth

/-! ## Connectives -/

/-- What a connective makes of its operands: it is not written where there is none or only one. -/
def connect {α : Type} (unit : α) (mk : List α → α) : List α → α
  | [] => unit
  | [x] => x
  | x :: y :: xs => mk (x :: y :: xs)

section Connect

variable {α : Type} {unit : α} {mk : List α → α} {l : List α}

/-- What holds of the unit, of the only operand and of an application holds of a connective. -/
lemma connect_cases {P : α → Prop} (hunit : P unit) (hone : ∀ x ∈ l, P x)
    (hmk : 2 ≤ l.length → P (mk l)) : P (connect unit mk l) := by
  rcases l with _ | ⟨x, _ | ⟨y, l⟩⟩
  · exact hunit
  · exact hone x List.mem_cons_self
  · exact hmk (by simp)

/-- The value of a conjunction. -/
lemma connect_all (val : α → Bool) (hunit : val unit = true) (hmk : ∀ l, val (mk l) = l.all val) :
    val (connect unit mk l) = l.all val := by
  rcases l with _ | ⟨x, _ | ⟨y, l⟩⟩
  · exact hunit
  · simp [connect]
  · exact hmk _

/-- The value of a disjunction. -/
lemma connect_any (val : α → Bool) (hunit : val unit = false) (hmk : ∀ l, val (mk l) = l.any val) :
    val (connect unit mk l) = l.any val := by
  rcases l with _ | ⟨x, _ | ⟨y, l⟩⟩
  · exact hunit
  · simp [connect]
  · exact hmk _

end Connect

lemma foldAnd_eq (xs : List GateExpr) : foldAnd xs =
    if xs.any (·.isFalse) then .false else connect .true .and (xs.flatMap flattenAnd) := by
  rw [foldAnd]
  congr 1
  rcases xs.flatMap flattenAnd with _ | ⟨x, _ | ⟨y, l⟩⟩ <;> rfl

lemma foldOr_eq (xs : List GateExpr) : foldOr xs =
    if xs.any (·.isTrue) then .true else connect .false .or (xs.flatMap flattenOr) := by
  rw [foldOr]
  congr 1
  rcases xs.flatMap flattenOr with _ | ⟨x, _ | ⟨y, l⟩⟩ <;> rfl

/-! ## Folding keeps the value -/

section Folding

variable (state : PuzzleStates)

lemma eq_false_of_isFalse {e : GateExpr} (h : e.isFalse = true) : e = .false := by
  cases e <;> first | rfl | cases h

lemma eq_true_of_isTrue {e : GateExpr} (h : e.isTrue = true) : e = .true := by
  cases e <;> first | rfl | cases h

/-- Flattening keeps the value. -/
lemma all_flattenAnd (x : GateExpr) :
    (flattenAnd x).all (evalCompiled state) = evalCompiled state x := by
  cases x with
  | true => rfl
  | and children => exact (evalAll_eq state children).symm
  | _ => simp [flattenAnd]

lemma any_flattenOr (x : GateExpr) :
    (flattenOr x).any (evalCompiled state) = evalCompiled state x := by
  cases x with
  | false => rfl
  | or children => exact (evalAny_eq state children).symm
  | _ => simp [flattenOr]

/-- **Folding a conjunction** keeps its value. -/
lemma evalCompiled_foldAnd (xs : List GateExpr) :
    evalCompiled state (foldAnd xs) = xs.all (evalCompiled state) := by
  rw [foldAnd_eq]
  split
  · rename_i hfalse
    obtain ⟨x, hx, hxf⟩ := List.any_eq_true.mp hfalse
    obtain rfl := eq_false_of_isFalse hxf
    exact (List.all_eq_false.mpr ⟨_, hx, by simp [evalCompiled]⟩).symm
  · calc evalCompiled state (connect .true .and (xs.flatMap flattenAnd))
      _ = (xs.flatMap flattenAnd).all (evalCompiled state) :=
        connect_all (evalCompiled state) (by rw [evalCompiled]) fun l => by
          rw [evalCompiled, evalAll_eq]
      _ = xs.all fun x => (flattenAnd x).all (evalCompiled state) := List.all_flatMap
      _ = xs.all (evalCompiled state) := by
        congr 1
        funext x
        exact all_flattenAnd state x

/-- **Folding a disjunction** keeps its value. -/
lemma evalCompiled_foldOr (xs : List GateExpr) :
    evalCompiled state (foldOr xs) = xs.any (evalCompiled state) := by
  rw [foldOr_eq]
  split
  · rename_i htrue
    obtain ⟨x, hx, hxt⟩ := List.any_eq_true.mp htrue
    obtain rfl := eq_true_of_isTrue hxt
    exact (List.any_eq_true.mpr ⟨_, hx, by simp [evalCompiled]⟩).symm
  · calc evalCompiled state (connect .false .or (xs.flatMap flattenOr))
      _ = (xs.flatMap flattenOr).any (evalCompiled state) :=
        connect_any (evalCompiled state) (by rw [evalCompiled]) fun l => by
          rw [evalCompiled, evalAny_eq]
      _ = xs.any fun x => (flattenOr x).any (evalCompiled state) := List.any_flatMap
      _ = xs.any (evalCompiled state) := by
        congr 1
        funext x
        exact any_flattenOr state x

/-- Negating drops a double negation and keeps the value. -/
lemma evalCompiled_negateGate (e : GateExpr) :
    evalCompiled state (negateGate e) = !evalCompiled state e := by
  cases e <;> simp [negateGate, evalCompiled]

end Folding

/-! ## Normal forms -/

/-- No constant, no double negation, and no connective that is an operand of itself or has fewer than
two operands. -/
inductive Reduced : GateExpr → Prop where
  | and {xs : List GateExpr} (hlen : 2 ≤ xs.length) (hxs : ∀ x ∈ xs, Reduced x)
    (hand : ∀ x ∈ xs, ∀ ys, x ≠ .and ys) : Reduced (.and xs)
  | or {xs : List GateExpr} (hlen : 2 ≤ xs.length) (hxs : ∀ x ∈ xs, Reduced x)
    (hor : ∀ x ∈ xs, ∀ ys, x ≠ .or ys) : Reduced (.or xs)
  | not {x : GateExpr} (hx : Reduced x) (hnot : ∀ y, x ≠ .not y) : Reduced (.not x)
  | solved (puzzle : PuzzleRef) : Reduced (.solved puzzle)
  | allSolved (set : SetExpr) : Reduced (.allSolved set)
  | anySolved (set : SetExpr) : Reduced (.anySolved set)
  | gameStarted : Reduced .gameStarted
  | triggered (puzzle : PuzzleRef) (key : String) : Reduced (.triggered puzzle key)
  | cmp (op : CmpOp) (lhs rhs : ValueExpr) : Reduced (.cmp op lhs rhs)

/-- A normal form: a constant, or a condition without constants. -/
def Normal (e : GateExpr) : Prop := e = .true ∨ e = .false ∨ Reduced e

section Normal

variable {xs : List GateExpr} {x y : GateExpr}

/-- What an operand adds to a conjunction. -/
lemma reduced_of_mem_flattenAnd (hx : Normal x) (hne : x.isFalse = false) (hy : y ∈ flattenAnd x) :
    Reduced y ∧ ∀ ys, y ≠ .and ys := by
  rcases hx with rfl | rfl | hx
  · cases hy
  · cases hne
  · cases hx with
    | and hlen hxs hand => exact ⟨hxs y hy, hand y hy⟩
    | or hlen hxs hor =>
      obtain rfl := List.mem_singleton.mp hy
      exact ⟨.or hlen hxs hor, by simp⟩
    | not hx hnot =>
      obtain rfl := List.mem_singleton.mp hy
      exact ⟨.not hx hnot, by simp⟩
    | _ =>
      obtain rfl := List.mem_singleton.mp hy
      exact ⟨by constructor, by simp⟩

/-- What an operand adds to a disjunction. -/
lemma reduced_of_mem_flattenOr (hx : Normal x) (hne : x.isTrue = false) (hy : y ∈ flattenOr x) :
    Reduced y ∧ ∀ ys, y ≠ .or ys := by
  rcases hx with rfl | rfl | hx
  · cases hne
  · cases hy
  · cases hx with
    | or hlen hxs hor => exact ⟨hxs y hy, hor y hy⟩
    | and hlen hxs hand =>
      obtain rfl := List.mem_singleton.mp hy
      exact ⟨.and hlen hxs hand, by simp⟩
    | not hx hnot =>
      obtain rfl := List.mem_singleton.mp hy
      exact ⟨.not hx hnot, by simp⟩
    | _ =>
      obtain rfl := List.mem_singleton.mp hy
      exact ⟨by constructor, by simp⟩

/-- **Folding a conjunction** of normal forms gives a normal form. -/
lemma normal_foldAnd (h : ∀ x ∈ xs, Normal x) : Normal (foldAnd xs) := by
  rw [foldAnd_eq]
  split
  · exact .inr (.inl rfl)
  · rename_i hfalse
    have hflat : ∀ y ∈ xs.flatMap flattenAnd, Reduced y ∧ ∀ ys, y ≠ .and ys := by
      intro y hy
      obtain ⟨x, hx, hy⟩ := List.mem_flatMap.mp hy
      refine reduced_of_mem_flattenAnd (h x hx) ?_ hy
      exact Bool.eq_false_iff.mpr fun hx' => hfalse (List.any_eq_true.mpr ⟨x, hx, hx'⟩)
    exact connect_cases (.inl rfl) (fun x hx => .inr (.inr (hflat x hx).1)) fun hlen =>
      .inr (.inr (.and hlen (fun x hx => (hflat x hx).1) fun x hx => (hflat x hx).2))

/-- **Folding a disjunction** of normal forms gives a normal form. -/
lemma normal_foldOr (h : ∀ x ∈ xs, Normal x) : Normal (foldOr xs) := by
  rw [foldOr_eq]
  split
  · exact .inl rfl
  · rename_i htrue
    have hflat : ∀ y ∈ xs.flatMap flattenOr, Reduced y ∧ ∀ ys, y ≠ .or ys := by
      intro y hy
      obtain ⟨x, hx, hy⟩ := List.mem_flatMap.mp hy
      refine reduced_of_mem_flattenOr (h x hx) ?_ hy
      exact Bool.eq_false_iff.mpr fun hx' => htrue (List.any_eq_true.mpr ⟨x, hx, hx'⟩)
    exact connect_cases (.inr (.inl rfl)) (fun x hx => .inr (.inr (hflat x hx).1)) fun hlen =>
      .inr (.inr (.or hlen (fun x hx => (hflat x hx).1) fun x hx => (hflat x hx).2))

lemma normal_negateGate (h : Normal x) : Normal (negateGate x) := by
  rcases h with rfl | rfl | hx
  · exact .inr (.inl rfl)
  · exact .inl rfl
  · refine .inr (.inr ?_)
    cases hx with
    | not hx _ => exact hx
    | and hlen hxs hand => exact .not (.and hlen hxs hand) (by simp)
    | or hlen hxs hor => exact .not (.or hlen hxs hor) (by simp)
    | _ => exact .not (by constructor) (by simp)

end Normal

/-! ## The compiler keeps the value -/

section Leaves

variable {state : PuzzleStates} {s : RawSexpr}

lemma resolvePuzzle_puzzleRefOf (a : String) :
    resolvePuzzle state (puzzleRefOf a) = puzzleOf state a := by
  rw [puzzleRefOf, puzzleOf]
  cases parseUnsigned (2 ^ 32) a <;> rfl

lemma resolveRound_roundRefOf (a : String) :
    resolveRound state (roundRefOf a) = roundOf state a := by
  rw [roundRefOf, roundOf]
  cases parseUnsigned (2 ^ 32) a <;> rfl

lemma materializeSet_eq {set : SetExpr} (h : SetRule s set) :
    materializeSet state set = setOf state s := by
  cases h with
  | puzzles as =>
    have hmap : ∀ as : List String, (as.map puzzleRefOf).mapM (resolvePuzzle state) =
        (as.map RawSexpr.atom).mapM fun x => x.atom?.bind (puzzleOf state) := by
      intro as
      induction as with
      | nil => rfl
      | cons a as ih =>
        rw [List.map_cons, List.map_cons, List.mapM_cons, List.mapM_cons, ih,
          resolvePuzzle_puzzleRefOf]
        rfl
    simpa [materializeSet, setOf] using hmap as
  | puzzleRange ha hb => simp [materializeSet, setOf, -Nat.reducePow, ha, hb]
  | round a => simp [materializeSet, setOf, resolveRound_roundRefOf]

lemma evalValue_eq {v : ValueExpr} (h : ValueRule s v) : evalValue state v = numberOf state s := by
  cases h with
  | number h => simp [evalValue, numberOf, -Nat.reducePow, h]
  | solvedCount h => simp [evalValue, numberOf, materializeSet_eq h, List.countP_eq_length_filter]

end Leaves

/-- A comparison is read as it is compiled. -/
lemma compares_eq {op : String} {c : CmpOp} (h : opToCmp op = some c) (m n : ℕ) :
    cmpUsize c m n = compares op m n := by
  have hmem := opToCmp_eq_some h
  simp only [List.mem_cons, Prod.mk.injEq, List.not_mem_nil, or_false] at hmem
  rcases hmem with ⟨rfl, rfl⟩ | ⟨rfl, rfl⟩ | ⟨rfl, rfl⟩ | ⟨rfl, rfl⟩ | ⟨rfl, rfl⟩ | ⟨rfl, rfl⟩ <;>
    simp [cmpUsize, compares]

/-- A comparison is none of the other operators. -/
lemma truth_cmp {state : PuzzleStates} {op : String} {c : CmpOp} (h : opToCmp op = some c)
    (x y : RawSexpr) : truth state (.list [.atom op, x, y]) =
      compares op (numberOf state x) (numberOf state y) := by
  have hmem := opToCmp_eq_some h
  simp only [List.mem_cons, Prod.mk.injEq, List.not_mem_nil, or_false] at hmem
  rcases hmem with ⟨rfl, -⟩ | ⟨rfl, -⟩ | ⟨rfl, -⟩ | ⟨rfl, -⟩ | ⟨rfl, -⟩ | ⟨rfl, -⟩ <;>
    simp [truth, leafTruth]

/-- Operands that are compiled to their values have their values. -/
lemma values_eq {state : PuzzleStates} {args : List RawSexpr} {children : List GateExpr}
    (h : compileGates args = .ok children)
    (ih : ∀ x ∈ args, ∀ e, compileGate x = .ok e → evalCompiled state e = truth state x) :
    children.map (evalCompiled state) = args.map (truth state) := by
  have hall := compileGates_iff.mp h
  clear h
  induction hall with
  | nil => rfl
  | cons he _ ihs =>
    rw [List.map_cons, List.map_cons, ih _ List.mem_cons_self _ he,
      ihs fun x hx => ih x (List.mem_cons_of_mem _ hx)]

/-- **The compiler keeps the truth value**, by induction on the expression. -/
theorem evalCompiled_eq_truth {state : PuzzleStates} {s : RawSexpr} {e : GateExpr}
    (h : compileGate s = .ok e) : evalCompiled state e = truth state s := by
  induction s using RawSexpr.induction generalizing e with
  | atom a => cases h
  | list items ih =>
    cases compileGate_iff.mp h with
    | true => simp [evalCompiled, truth, leafTruth]
    | false => simp [evalCompiled, truth, leafTruth]
    | @and args children hc =>
      have hvalues := values_eq hc fun x hx e => ih x (List.mem_cons_of_mem _ hx)
      rw [evalCompiled_foldAnd, truth, if_pos rfl, truthAll_eq]
      simpa using congrArg (List.all · id) hvalues
    | @or args children hc =>
      have hvalues := values_eq hc fun x hx e => ih x (List.mem_cons_of_mem _ hx)
      rw [evalCompiled_foldOr, truth, if_neg (by simp), if_pos rfl, truthAny_eq]
      simpa using congrArg (List.any · id) hvalues
    | @not x e' hc =>
      rw [evalCompiled_negateGate, ih x (by simp) hc]
      simp [truth, truthAll]
    | solved a =>
      simp [evalCompiled, truth, leafTruth, RawSexpr.atom?, resolvePuzzle_puzzleRefOf]
    | allSolved hset => simp [evalCompiled, truth, leafTruth, materializeSet_eq hset]
    | anySolved hset => simp [evalCompiled, truth, leafTruth, materializeSet_eq hset]
    | gameStarted => simp [evalCompiled, truth, leafTruth]
    | triggered a hkey =>
      simp [evalCompiled, truth, leafTruth, RawSexpr.atom?, resolvePuzzle_puzzleRefOf]
    | cmp hop hl hr =>
      rw [evalCompiled, truth_cmp hop, compares_eq hop, evalValue_eq hl, evalValue_eq hr]

lemma exists_of_mem_forall₂ {α β : Type} {R : α → β → Prop} {l : List α} {l' : List β}
    (h : List.Forall₂ R l l') {b : β} (hb : b ∈ l') : ∃ a ∈ l, R a b := by
  induction h with
  | nil => cases hb
  | cons hab _ ih =>
    rcases List.mem_cons.mp hb with rfl | hb
    · exact ⟨_, List.mem_cons_self, hab⟩
    · obtain ⟨a, ha, hR⟩ := ih hb
      exact ⟨a, List.mem_cons_of_mem _ ha, hR⟩

/-- **The compiler gives normal forms.** -/
theorem normal_of_compileGate {s : RawSexpr} {e : GateExpr} (h : compileGate s = .ok e) :
    Normal e := by
  induction s using RawSexpr.induction generalizing e with
  | atom a => cases h
  | list items ih =>
    have hchildren : ∀ {args : List RawSexpr} {children : List GateExpr},
        (∀ x ∈ args, x ∈ items) → compileGates args = .ok children → ∀ y ∈ children, Normal y := by
      intro args children hargs hc y hy
      have hall := compileGates_iff.mp hc
      obtain ⟨x, hx, hxy⟩ := exists_of_mem_forall₂ hall hy
      exact ih x (hargs x hx) hxy
    cases compileGate_iff.mp h with
    | true => exact .inl rfl
    | false => exact .inr (.inl rfl)
    | and hc => exact normal_foldAnd (hchildren (fun x hx => List.mem_cons_of_mem _ hx) hc)
    | or hc => exact normal_foldOr (hchildren (fun x hx => List.mem_cons_of_mem _ hx) hc)
    | not hc => exact normal_negateGate (ih _ (by simp) hc)
    | _ => exact .inr (.inr (by constructor))

/-- **What the compiler does**: what it gives is in normal form and has the truth value of the
expression in every state; and it fails exactly where an expression below connectives, also one that
folding would discard, is not an operator with the operands it takes. -/
theorem compileGate_meaning (s : RawSexpr) :
    (∀ e, compileGate s = .ok e →
      (∀ state, evalCompiled state e = truth state s) ∧ Normal e) ∧
    ((∃ err, compileGate s = .error err) ↔ ∃ x, Operand x s ∧ ¬ Fits x) := by
  refine ⟨fun e h => ⟨fun state => evalCompiled_eq_truth h, normal_of_compileGate h⟩, ?_⟩
  have hok := compileGate_isOk_iff s
  constructor
  · rintro ⟨err, herr⟩
    by_contra hnone
    obtain ⟨e, he⟩ := hok.mpr fun x hx => by
      by_contra hfits
      exact hnone ⟨x, hx, hfits⟩
    rw [he] at herr
    cases herr
  · rintro ⟨x, hx, hfits⟩
    cases he : compileGate s with
    | error err => exact ⟨err, rfl⟩
    | ok e => exact absurd (hok.mp ⟨e, he⟩ x hx) hfits

end Expr
