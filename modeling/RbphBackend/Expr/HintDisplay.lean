import RbphBackend.Expr.Truth

set_option relaxedAutoImplicit false
set_option autoImplicit false

/-!
# Conditions of hints

The language of hints has two more atoms. Its connectives are compiled by functions of their own,
which fold the constants of the language of conditions below; all other operators are passed on.

## Main definitions

* `Expr.hintTruth` — the truth value of an expression, with the two atoms.
* `Expr.Occurs` — an atom stands somewhere in an expression.

## Main results

* `Expr.evalHintDisplayCompiled_eq_hintTruth` — the compiler of hints keeps the truth value.
* `Expr.hintDisplay_extends_gate` — the language of hints extends the language of conditions.
* `Expr.hintDisplayUsesCooldown_sound` — what a condition is said not to use does not matter to it.
-/

namespace Expr

/-! ## Truth values -/

/-- The atom stands somewhere in the expression. -/
inductive Occurs (a : String) : RawSexpr → Prop where
  | atom : Occurs a (.atom a)
  | list {x : RawSexpr} {items : List RawSexpr} (hx : x ∈ items) (h : Occurs a x) :
    Occurs a (.list items)

/-- Induction on the condition of a hint. -/
@[elab_as_elim]
theorem HintDisplayExpr.induction {motive : HintDisplayExpr → Prop}
    (gate : ∀ e, motive (.gate e)) (and : ∀ xs, (∀ x ∈ xs, motive x) → motive (.and xs))
    (or : ∀ xs, (∀ x ∈ xs, motive x) → motive (.or xs)) (not : ∀ x, motive x → motive (.not x))
    (hintEnabled : motive .hintEnabled) (hintCooledDown : motive .hintCooledDown)
    (e : HintDisplayExpr) : motive e := by
  refine @HintDisplayExpr.rec motive (fun xs => ∀ x ∈ xs, motive x) gate and or not hintEnabled
    hintCooledDown ?_ ?_ e
  · intro x hx
    cases hx
  · intro y ys hy hys x hx
    rcases List.mem_cons.mp hx with rfl | hx
    · exact hy
    · exact hys x hx

attribute [local simp] evalCompiled evalAll evalAny evalHintDisplayCompiled evalHintDisplayAll
  evalHintDisplayAny hintDisplayUsesCooldown anyUsesCooldown

section Truth

variable (state : PuzzleStates) (hintEnabled hintCooledDown : Bool)

mutual

/-- The truth value of an expression, with the two atoms of a hint. -/
def hintTruth : RawSexpr → Bool
  | .list (.atom op :: args) =>
    if op = "hint-enabled" then hintEnabled
    else if op = "hint-cooled-down" then hintCooledDown
    else if op = "and" then hintTruthAll args
    else if op = "or" then hintTruthAny args
    else if op = "not" then !hintTruthAll args
    else leafTruth state op args
  | _ => false

/-- All of the expressions are true. -/
def hintTruthAll : List RawSexpr → Bool
  | [] => true
  | x :: xs => hintTruth x && hintTruthAll xs

/-- One of the expressions is true. -/
def hintTruthAny : List RawSexpr → Bool
  | [] => false
  | x :: xs => hintTruth x || hintTruthAny xs

end

lemma hintTruthAll_eq (xs : List RawSexpr) : hintTruthAll state hintEnabled hintCooledDown xs =
    xs.all (hintTruth state hintEnabled hintCooledDown) := by
  induction xs with
  | nil => rfl
  | cons x xs ih => rw [hintTruthAll, ih, List.all_cons]

lemma hintTruthAny_eq (xs : List RawSexpr) : hintTruthAny state hintEnabled hintCooledDown xs =
    xs.any (hintTruth state hintEnabled hintCooledDown) := by
  induction xs with
  | nil => rfl
  | cons x xs ih => rw [hintTruthAny, ih, List.any_cons]

lemma evalHintDisplayAll_eq (xs : List HintDisplayExpr) :
    evalHintDisplayAll state hintEnabled hintCooledDown xs =
      xs.all (evalHintDisplayCompiled state hintEnabled hintCooledDown) := by
  induction xs with
  | nil => rfl
  | cons x xs ih => rw [evalHintDisplayAll, ih, List.all_cons]

lemma evalHintDisplayAny_eq (xs : List HintDisplayExpr) :
    evalHintDisplayAny state hintEnabled hintCooledDown xs =
      xs.any (evalHintDisplayCompiled state hintEnabled hintCooledDown) := by
  induction xs with
  | nil => rfl
  | cons x xs ih => rw [evalHintDisplayAny, ih, List.any_cons]

end Truth

attribute [local simp] hintTruth hintTruthAll hintTruthAny

/-! ## Folding keeps the value -/

lemma foldHintAnd_eq (xs : List HintDisplayExpr) : foldHintAnd xs =
    if xs.any (·.isFalse) then .gate .false
    else connect (.gate .true) .and (xs.flatMap flattenHintAnd) := by
  rw [foldHintAnd]
  congr 1
  rcases xs.flatMap flattenHintAnd with _ | ⟨x, _ | ⟨y, l⟩⟩ <;> rfl

lemma foldHintOr_eq (xs : List HintDisplayExpr) : foldHintOr xs =
    if xs.any (·.isTrue) then .gate .true
    else connect (.gate .false) .or (xs.flatMap flattenHintOr) := by
  rw [foldHintOr]
  congr 1
  rcases xs.flatMap flattenHintOr with _ | ⟨x, _ | ⟨y, l⟩⟩ <;> rfl

lemma eq_gate_false_of_isFalse {e : HintDisplayExpr} (h : e.isFalse = true) : e = .gate .false := by
  unfold HintDisplayExpr.isFalse at h
  split at h
  · rfl
  · cases h

lemma eq_gate_true_of_isTrue {e : HintDisplayExpr} (h : e.isTrue = true) : e = .gate .true := by
  unfold HintDisplayExpr.isTrue at h
  split at h
  · rfl
  · cases h

section Folding

variable (state : PuzzleStates) (hintEnabled hintCooledDown : Bool)

lemma all_flattenHintAnd (x : HintDisplayExpr) :
    (flattenHintAnd x).all (evalHintDisplayCompiled state hintEnabled hintCooledDown) =
      evalHintDisplayCompiled state hintEnabled hintCooledDown x := by
  unfold flattenHintAnd
  split
  · simp
  · rw [evalHintDisplayCompiled, evalHintDisplayAll_eq]
  · simp

lemma any_flattenHintOr (x : HintDisplayExpr) :
    (flattenHintOr x).any (evalHintDisplayCompiled state hintEnabled hintCooledDown) =
      evalHintDisplayCompiled state hintEnabled hintCooledDown x := by
  unfold flattenHintOr
  split
  · simp
  · rw [evalHintDisplayCompiled, evalHintDisplayAny_eq]
  · simp

/-- **Folding a conjunction** keeps its value. -/
lemma evalHintDisplayCompiled_foldHintAnd (xs : List HintDisplayExpr) :
    evalHintDisplayCompiled state hintEnabled hintCooledDown (foldHintAnd xs) =
      xs.all (evalHintDisplayCompiled state hintEnabled hintCooledDown) := by
  rw [foldHintAnd_eq]
  split
  · rename_i hfalse
    obtain ⟨x, hx, hxf⟩ := List.any_eq_true.mp hfalse
    obtain rfl := eq_gate_false_of_isFalse hxf
    exact (List.all_eq_false.mpr
      ⟨_, hx, by simp⟩).symm
  · rw [connect_all (evalHintDisplayCompiled state hintEnabled hintCooledDown)
      (by rw [evalHintDisplayCompiled, evalCompiled])
      (fun l => by rw [evalHintDisplayCompiled, evalHintDisplayAll_eq]), List.all_flatMap]
    congr 1
    funext x
    exact all_flattenHintAnd state hintEnabled hintCooledDown x

/-- **Folding a disjunction** keeps its value. -/
lemma evalHintDisplayCompiled_foldHintOr (xs : List HintDisplayExpr) :
    evalHintDisplayCompiled state hintEnabled hintCooledDown (foldHintOr xs) =
      xs.any (evalHintDisplayCompiled state hintEnabled hintCooledDown) := by
  rw [foldHintOr_eq]
  split
  · rename_i htrue
    obtain ⟨x, hx, hxt⟩ := List.any_eq_true.mp htrue
    obtain rfl := eq_gate_true_of_isTrue hxt
    exact (List.any_eq_true.mpr
      ⟨_, hx, by simp⟩).symm
  · rw [connect_any (evalHintDisplayCompiled state hintEnabled hintCooledDown)
      (by rw [evalHintDisplayCompiled, evalCompiled])
      (fun l => by rw [evalHintDisplayCompiled, evalHintDisplayAny_eq]), List.any_flatMap]
    congr 1
    funext x
    exact any_flattenHintOr state hintEnabled hintCooledDown x

lemma evalHintDisplayCompiled_negateHint (e : HintDisplayExpr) :
    evalHintDisplayCompiled state hintEnabled hintCooledDown (negateHint e) =
      !evalHintDisplayCompiled state hintEnabled hintCooledDown e := by
  unfold negateHint
  split <;> simp

end Folding

/-! ## The compiler keeps the value -/

section Compiler

variable {state : PuzzleStates} {hintEnabled hintCooledDown : Bool}

/-- Operands that are compiled to their values have their values. -/
lemma hintValues_eq {args : List RawSexpr} {children : List HintDisplayExpr}
    (h : compileHintDisplays args = .ok children)
    (ih : ∀ x ∈ args, ∀ e, compileHintDisplay x = .ok e →
      evalHintDisplayCompiled state hintEnabled hintCooledDown e =
        hintTruth state hintEnabled hintCooledDown x) :
    children.map (evalHintDisplayCompiled state hintEnabled hintCooledDown) =
      args.map (hintTruth state hintEnabled hintCooledDown) := by
  have hall := compileHintDisplays_iff.mp h
  clear h
  induction hall with
  | nil => rfl
  | cons he _ ihs =>
    rw [List.map_cons, List.map_cons, ih _ List.mem_cons_self _ he,
      ihs fun x hx => ih x (List.mem_cons_of_mem _ hx)]

/-- An operator that is passed on is read alike in both languages. -/
lemma hintTruth_of_notMem {op : String} (hop : op ∉ hintOps) (args : List RawSexpr) :
    hintTruth state hintEnabled hintCooledDown (.list (.atom op :: args)) =
      truth state (.list (.atom op :: args)) := by
  simp only [hintOps, List.mem_cons, List.not_mem_nil, or_false, not_or] at hop
  obtain ⟨h₁, h₂, h₃, h₄, h₅⟩ := hop
  rw [hintTruth, if_neg h₁, if_neg h₂, if_neg h₃, if_neg h₄, if_neg h₅, truth, if_neg h₃, if_neg h₄,
    if_neg h₅]

/-- **The compiler of hints keeps the truth value**, by induction on the expression. -/
theorem evalHintDisplayCompiled_eq_hintTruth {s : RawSexpr} {e : HintDisplayExpr}
    (h : compileHintDisplay s = .ok e) :
    evalHintDisplayCompiled state hintEnabled hintCooledDown e =
      hintTruth state hintEnabled hintCooledDown s := by
  induction s using RawSexpr.induction generalizing e with
  | atom a => cases h
  | list items ih =>
    cases compileHintDisplay_iff.mp h with
    | hintEnabled => simp
    | hintCooledDown => simp
    | @and args children hc =>
      have hvalues := hintValues_eq hc fun x hx e => ih x (List.mem_cons_of_mem _ hx)
      rw [evalHintDisplayCompiled_foldHintAnd, hintTruth, if_neg (by simp), if_neg (by simp),
        if_pos rfl, hintTruthAll_eq]
      simpa using congrArg (List.all · id) hvalues
    | @or args children hc =>
      have hvalues := hintValues_eq hc fun x hx e => ih x (List.mem_cons_of_mem _ hx)
      rw [evalHintDisplayCompiled_foldHintOr, hintTruth, if_neg (by simp), if_neg (by simp),
        if_neg (by simp), if_pos rfl, hintTruthAny_eq]
      simpa using congrArg (List.any · id) hvalues
    | @not x e' hc =>
      rw [evalHintDisplayCompiled_negateHint, ih x (by simp) hc]
      simp
    | gate hop hgate =>
      rw [evalHintDisplayCompiled, hintTruth_of_notMem hop, evalCompiled_eq_truth hgate]

end Compiler

/-! ## The language of conditions -/

/-- A comparison is passed on. -/
lemma notMem_hintOps_of_opToCmp {op : String} {c : CmpOp} (h : opToCmp op = some c) :
    op ∉ hintOps := by
  have hmem := opToCmp_eq_some h
  simp only [List.mem_cons, Prod.mk.injEq, List.not_mem_nil, or_false] at hmem
  rcases hmem with ⟨rfl, -⟩ | ⟨rfl, -⟩ | ⟨rfl, -⟩ | ⟨rfl, -⟩ | ⟨rfl, -⟩ | ⟨rfl, -⟩ <;> simp [hintOps]

/-- A list of expressions is compiled where each of them is. -/
lemma exists_compileHintDisplays {args : List RawSexpr}
    (h : ∀ x ∈ args, ∃ e, compileHintDisplay x = .ok e) :
    ∃ children, compileHintDisplays args = .ok children := by
  induction args with
  | nil => exact ⟨[], rfl⟩
  | cons x args ih =>
    obtain ⟨e, he⟩ := h x List.mem_cons_self
    obtain ⟨es, hes⟩ := ih fun y hy => h y (List.mem_cons_of_mem _ hy)
    exact ⟨e :: es, compileHintDisplays_iff.mpr (.cons he (compileHintDisplays_iff.mp hes))⟩

/-- Each of the expressions that are compiled together is compiled. -/
lemma exists_compileHintDisplay_of_mem {args : List RawSexpr} {children : List HintDisplayExpr}
    (h : compileHintDisplays args = .ok children) {x : RawSexpr} (hx : x ∈ args) :
    ∃ e, compileHintDisplay x = .ok e := by
  have hall := compileHintDisplays_iff.mp h
  clear h
  induction hall with
  | nil => cases hx
  | cons he _ ih =>
    rcases List.mem_cons.mp hx with rfl | hx
    · exact ⟨_, he⟩
    · exact ih hx

/-- What the language of conditions accepts, the language of hints does, and reads alike. -/
lemma exists_compileHintDisplay {s : RawSexpr} {e : GateExpr} (h : compileGate s = .ok e) :
    (∃ d, compileHintDisplay s = .ok d) ∧
      ∀ state hintEnabled hintCooledDown,
        hintTruth state hintEnabled hintCooledDown s = truth state s := by
  induction s using RawSexpr.induction generalizing e with
  | atom a => cases h
  | list items ih =>
    have hleaf : ∀ {op args}, items = .atom op :: args → op ∉ hintOps →
        (∃ d, compileHintDisplay (.list items) = .ok d) ∧ ∀ state hintEnabled hintCooledDown,
          hintTruth state hintEnabled hintCooledDown (.list items) = truth state (.list items) := by
      rintro op args rfl hop
      exact ⟨⟨_, compileHintDisplay_iff.mpr (.gate hop h)⟩, fun _ _ _ => hintTruth_of_notMem hop args⟩
    cases compileGate_iff.mp h with
    | @and args children hc =>
      have hargs : ∀ x ∈ args, _ := fun x hx =>
        ih x (List.mem_cons_of_mem _ hx) (exists_compileGate_of_mem hc hx).choose_spec
      obtain ⟨ds, hds⟩ := exists_compileHintDisplays fun x hx => (hargs x hx).1
      refine ⟨⟨_, compileHintDisplay_iff.mpr (.and hds)⟩, fun state b c => ?_⟩
      have hall : args.all (hintTruth state b c) = args.all (truth state) := by
        refine Bool.eq_iff_iff.mpr ?_
        simp only [List.all_eq_true]
        exact forall₂_congr fun x hx => by rw [(hargs x hx).2 state b c]
      simpa [hintTruth, truth, hintTruthAll_eq, truthAll_eq] using hall
    | @or args children hc =>
      have hargs : ∀ x ∈ args, _ := fun x hx =>
        ih x (List.mem_cons_of_mem _ hx) (exists_compileGate_of_mem hc hx).choose_spec
      obtain ⟨ds, hds⟩ := exists_compileHintDisplays fun x hx => (hargs x hx).1
      refine ⟨⟨_, compileHintDisplay_iff.mpr (.or hds)⟩, fun state b c => ?_⟩
      have hany : args.any (hintTruth state b c) = args.any (truth state) := by
        refine Bool.eq_iff_iff.mpr ?_
        simp only [List.any_eq_true]
        exact exists_congr fun x => and_congr_right fun hx => by rw [(hargs x hx).2 state b c]
      simpa [hintTruth, truth, hintTruthAny_eq, truthAny_eq] using hany
    | @not x e' hc =>
      obtain ⟨⟨d, hd⟩, hvalue⟩ := ih x (by simp) hc
      refine ⟨⟨_, compileHintDisplay_iff.mpr (.not hd)⟩, fun state b c => ?_⟩
      simp [truth, truthAll, hvalue state b c]
    | cmp hop _ _ => exact hleaf rfl (notMem_hintOps_of_opToCmp hop)
    | _ => exact hleaf rfl (by simp [hintOps])

/-- Without the atoms of hints, what the language of hints accepts is a condition. -/
lemma exists_compileGate_of_compileHintDisplay {s : RawSexpr} {d : HintDisplayExpr}
    (hen : ¬ Occurs "hint-enabled" s) (hcd : ¬ Occurs "hint-cooled-down" s)
    (h : compileHintDisplay s = .ok d) : ∃ e, compileGate s = .ok e := by
  induction s using RawSexpr.induction generalizing d with
  | atom a => cases h
  | list items ih =>
    have hitem : ∀ x ∈ items, ∀ d, compileHintDisplay x = .ok d → ∃ e, compileGate x = .ok e :=
      fun x hx d hd => ih x hx (fun ho => hen (.list hx ho)) (fun ho => hcd (.list hx ho)) hd
    cases compileHintDisplay_iff.mp h with
    | hintEnabled => exact absurd (.list List.mem_cons_self .atom) hen
    | hintCooledDown => exact absurd (.list List.mem_cons_self .atom) hcd
    | and hc =>
      obtain ⟨children, hchildren⟩ := exists_compileGates fun x hx =>
        hitem x (List.mem_cons_of_mem _ hx) _ (exists_compileHintDisplay_of_mem hc hx).choose_spec
      exact ⟨_, compileGate_iff.mpr (.and hchildren)⟩
    | or hc =>
      obtain ⟨children, hchildren⟩ := exists_compileGates fun x hx =>
        hitem x (List.mem_cons_of_mem _ hx) _ (exists_compileHintDisplay_of_mem hc hx).choose_spec
      exact ⟨_, compileGate_iff.mpr (.or hchildren)⟩
    | not hc =>
      obtain ⟨e, he⟩ := hitem _ (by simp) _ hc
      exact ⟨_, compileGate_iff.mpr (.not he)⟩
    | gate hop hgate => exact ⟨_, hgate⟩

/-- **The language of hints extends the language of conditions**: what is a condition is compiled to
the same values, whatever the hint; what is not one has an atom of hints; and the value of what is
accepted is the truth value of the expression, with the two atoms. -/
theorem hintDisplay_extends_gate (s : RawSexpr) :
    (∀ e, compileGate s = .ok e → ∃ d, compileHintDisplay s = .ok d ∧
      ∀ state hintEnabled hintCooledDown,
        evalHintDisplayCompiled state hintEnabled hintCooledDown d = evalCompiled state e) ∧
    (¬ Occurs "hint-enabled" s → ¬ Occurs "hint-cooled-down" s →
      ∀ d, compileHintDisplay s = .ok d → ∃ e, compileGate s = .ok e) ∧
    ∀ d, compileHintDisplay s = .ok d → ∀ state hintEnabled hintCooledDown,
      evalHintDisplayCompiled state hintEnabled hintCooledDown d =
        hintTruth state hintEnabled hintCooledDown s := by
  refine ⟨fun e h => ?_, fun hen hcd d h => exists_compileGate_of_compileHintDisplay hen hcd h,
    fun d h _ _ _ => evalHintDisplayCompiled_eq_hintTruth h⟩
  obtain ⟨⟨d, hd⟩, hvalue⟩ := exists_compileHintDisplay h
  refine ⟨d, hd, fun state b c => ?_⟩
  rw [evalHintDisplayCompiled_eq_hintTruth hd, hvalue, evalCompiled_eq_truth h]

/-! ## The cooldown of a hint -/

lemma anyUsesCooldown_eq (xs : List HintDisplayExpr) :
    anyUsesCooldown xs = xs.any hintDisplayUsesCooldown := by
  induction xs with
  | nil => rfl
  | cons x xs ih => rw [anyUsesCooldown, ih, List.any_cons]

/-- What the condition does not use does not matter to it. -/
lemma evalHintDisplayCompiled_of_not_uses {state : PuzzleStates} {hintEnabled : Bool}
    {e : HintDisplayExpr} (h : hintDisplayUsesCooldown e = false) (b c : Bool) :
    evalHintDisplayCompiled state hintEnabled b e =
      evalHintDisplayCompiled state hintEnabled c e := by
  induction e using HintDisplayExpr.induction with
  | gate e => rw [evalHintDisplayCompiled, evalHintDisplayCompiled]
  | and xs ih =>
    rw [hintDisplayUsesCooldown, anyUsesCooldown_eq, List.any_eq_false] at h
    rw [evalHintDisplayCompiled, evalHintDisplayCompiled, evalHintDisplayAll_eq,
      evalHintDisplayAll_eq, Bool.eq_iff_iff, List.all_eq_true, List.all_eq_true]
    exact forall₂_congr fun x hx => by rw [ih x hx (Bool.eq_false_iff.mpr (h x hx))]
  | or xs ih =>
    rw [hintDisplayUsesCooldown, anyUsesCooldown_eq, List.any_eq_false] at h
    rw [evalHintDisplayCompiled, evalHintDisplayCompiled, evalHintDisplayAny_eq,
      evalHintDisplayAny_eq, Bool.eq_iff_iff, List.any_eq_true, List.any_eq_true]
    exact exists_congr fun x => and_congr_right fun hx => by
      rw [ih x hx (Bool.eq_false_iff.mpr (h x hx))]
  | not x ih =>
    rw [hintDisplayUsesCooldown] at h
    rw [evalHintDisplayCompiled, evalHintDisplayCompiled, ih h]
  | hintEnabled => rw [evalHintDisplayCompiled, evalHintDisplayCompiled]
  | hintCooledDown => cases h

/-- What no operand uses, a connective does not use. -/
lemma not_uses_connect {unit : HintDisplayExpr} {mk : List HintDisplayExpr → HintDisplayExpr}
    {xs : List HintDisplayExpr} (hunit : hintDisplayUsesCooldown unit = false)
    (hmk : ∀ l, hintDisplayUsesCooldown (mk l) = l.any hintDisplayUsesCooldown)
    (h : ∀ x ∈ xs, hintDisplayUsesCooldown x = false) :
    hintDisplayUsesCooldown (connect unit mk xs) = false := by
  refine connect_cases (P := fun e => hintDisplayUsesCooldown e = false) hunit h fun _ => ?_
  rw [hmk, List.any_eq_false]
  exact fun x hx => Bool.eq_false_iff.mp (h x hx)

lemma not_uses_of_mem_flattenHintAnd {x y : HintDisplayExpr}
    (h : hintDisplayUsesCooldown x = false) (hy : y ∈ flattenHintAnd x) :
    hintDisplayUsesCooldown y = false := by
  unfold flattenHintAnd at hy
  split at hy
  · cases hy
  · rw [hintDisplayUsesCooldown, anyUsesCooldown_eq, List.any_eq_false] at h
    exact Bool.eq_false_iff.mpr (h y hy)
  · rwa [List.mem_singleton.mp hy]

lemma not_uses_of_mem_flattenHintOr {x y : HintDisplayExpr}
    (h : hintDisplayUsesCooldown x = false) (hy : y ∈ flattenHintOr x) :
    hintDisplayUsesCooldown y = false := by
  unfold flattenHintOr at hy
  split at hy
  · cases hy
  · rw [hintDisplayUsesCooldown, anyUsesCooldown_eq, List.any_eq_false] at h
    exact Bool.eq_false_iff.mpr (h y hy)
  · rwa [List.mem_singleton.mp hy]

lemma not_uses_foldHintAnd {xs : List HintDisplayExpr}
    (h : ∀ x ∈ xs, hintDisplayUsesCooldown x = false) :
    hintDisplayUsesCooldown (foldHintAnd xs) = false := by
  rw [foldHintAnd_eq]
  split
  · rw [hintDisplayUsesCooldown]
  · refine not_uses_connect (by rw [hintDisplayUsesCooldown])
      (fun l => by rw [hintDisplayUsesCooldown, anyUsesCooldown_eq]) fun y hy => ?_
    obtain ⟨x, hx, hy⟩ := List.mem_flatMap.mp hy
    exact not_uses_of_mem_flattenHintAnd (h x hx) hy

lemma not_uses_foldHintOr {xs : List HintDisplayExpr}
    (h : ∀ x ∈ xs, hintDisplayUsesCooldown x = false) :
    hintDisplayUsesCooldown (foldHintOr xs) = false := by
  rw [foldHintOr_eq]
  split
  · rw [hintDisplayUsesCooldown]
  · refine not_uses_connect (by rw [hintDisplayUsesCooldown])
      (fun l => by rw [hintDisplayUsesCooldown, anyUsesCooldown_eq]) fun y hy => ?_
    obtain ⟨x, hx, hy⟩ := List.mem_flatMap.mp hy
    exact not_uses_of_mem_flattenHintOr (h x hx) hy

lemma not_uses_negateHint {e : HintDisplayExpr} (h : hintDisplayUsesCooldown e = false) :
    hintDisplayUsesCooldown (negateHint e) = false := by
  unfold negateHint
  split
  · rw [hintDisplayUsesCooldown]
  · rw [hintDisplayUsesCooldown]
  · rwa [hintDisplayUsesCooldown] at h
  · rwa [hintDisplayUsesCooldown]

/-- An expression without the atom is compiled to a condition that does not use it. -/
lemma not_uses_of_compileHintDisplay {s : RawSexpr} {e : HintDisplayExpr}
    (hcd : ¬ Occurs "hint-cooled-down" s) (h : compileHintDisplay s = .ok e) :
    hintDisplayUsesCooldown e = false := by
  induction s using RawSexpr.induction generalizing e with
  | atom a => cases h
  | list items ih =>
    have hitem : ∀ x ∈ items, ∀ d, compileHintDisplay x = .ok d →
        hintDisplayUsesCooldown d = false :=
      fun x hx d hd => ih x hx (fun ho => hcd (.list hx ho)) hd
    cases compileHintDisplay_iff.mp h with
    | hintEnabled => rw [hintDisplayUsesCooldown]
    | hintCooledDown => exact absurd (.list List.mem_cons_self .atom) hcd
    | and hc =>
      refine not_uses_foldHintAnd fun d hd => ?_
      obtain ⟨x, hx, hxd⟩ := exists_of_mem_forall₂ (compileHintDisplays_iff.mp hc) hd
      exact hitem x (List.mem_cons_of_mem _ hx) d hxd
    | or hc =>
      refine not_uses_foldHintOr fun d hd => ?_
      obtain ⟨x, hx, hxd⟩ := exists_of_mem_forall₂ (compileHintDisplays_iff.mp hc) hd
      exact hitem x (List.mem_cons_of_mem _ hx) d hxd
    | not hc => exact not_uses_negateHint (hitem _ (by simp) _ hc)
    | gate hop hgate => rw [hintDisplayUsesCooldown]

/-- **The check for the cooldown is sound**: a condition that passes it has one value, cooled down or
not; and an expression that does not speak of the cooldown passes it. -/
theorem hintDisplayUsesCooldown_sound :
    (∀ e, hintDisplayUsesCooldown e = false → ∀ state hintEnabled,
      evalHintDisplayCompiled state hintEnabled true e =
        evalHintDisplayCompiled state hintEnabled false e) ∧
    ∀ s, ¬ Occurs "hint-cooled-down" s → ∀ e, compileHintDisplay s = .ok e →
      hintDisplayUsesCooldown e = false :=
  ⟨fun _ h _ _ => evalHintDisplayCompiled_of_not_uses h true false,
    fun _ hcd _ h => not_uses_of_compileHintDisplay hcd h⟩

end Expr
