import RbphBackend.Expr.Compiler

set_option relaxedAutoImplicit false
set_option autoImplicit false

/-!
# Hints and their validation

What an administrator may make of a hint. The instant that its cooldown counts from is chosen by
`cooldown_origin`: 1 is the instant at which `enable_cond` comes true, 2 and 3 those at which
`display_condition` and `title_display_condition` do, which then must not wait for the cooldown
themselves.

## Main definitions

* `Hints.RbHintAdminData`, `Hints.RbHintCreateData`, `Hints.RbHintUpdateData` — a row, and what a
  request says of it.
* `Hints.validateCreate`, `Hints.validateUpdate` — the validations, as far as they need no other
  table.
* `Hints.RbHintAdminData.update` — what the statement of an update makes of a row.
* `Hints.RbHintAdminData.grounds` — the row has what a cooldown of a given origin rests on.
-/

namespace Hints

abbrev Id := ℤ

/-! ## The data -/

/-- A row of `rb_hint`. -/
structure RbHintAdminData where
  id : Id
  sort : ℤ
  title : String
  hiddenTitle : Option String
  content : String
  contentType : ℤ
  cooldown : ℤ
  titleDisplayCondition : Option String
  displayCondition : Option String
  enableCond : Option String
  cooldownOrigin : ℤ
  costId : Option Id
  costAmount : ℤ
  backendFunction : Option String
  triggers : List String
  puzzleId : Id
  ctimeAt : ℤ
  deriving DecidableEq

structure RbHintCreateData where
  sort : ℤ := 0
  title : String
  hiddenTitle : Option String := none
  content : String
  contentType : ℤ := 0
  cooldown : ℤ := 0
  titleDisplayCondition : Option String := none
  displayCondition : Option String := none
  enableCond : Option String := none
  cooldownOrigin : ℤ := 0
  costId : Option Id := none
  costAmount : ℤ := 0
  backendFunction : Option String := none
  triggers : List String := []
  puzzleId : Id
  deriving DecidableEq

/-- A patch: of a column that may be null, `some none` is the null. -/
structure RbHintUpdateData where
  sort : Option ℤ := none
  title : Option String := none
  hiddenTitle : Option (Option String) := none
  content : Option String := none
  contentType : Option ℤ := none
  cooldown : Option ℤ := none
  titleDisplayCondition : Option (Option String) := none
  displayCondition : Option (Option String) := none
  enableCond : Option (Option String) := none
  cooldownOrigin : Option ℤ := none
  costId : Option (Option Id) := none
  costAmount : Option ℤ := none
  backendFunction : Option (Option String) := none
  triggers : Option (List String) := none
  puzzleId : Option Id := none
  deriving DecidableEq

/-! ## The checks of single fields -/

def validateContentType (value : ℤ) : Bool := value = 0 || value = 1 || value = 2

def validateTitle (value : String) : Bool :=
  !value.toList.all Expr.isWhitespace && value.length ≤ 120

def validDisplayCondition (value : String) : Bool :=
  match Expr.compileHintDisplayExpr value with
  | .ok _ => true
  | .error _ => false

def displayConditionUsesCooldown (value : Option String) : Bool :=
  value.any fun condition =>
    match Expr.compileHintDisplayExpr condition with
    | .ok e => Expr.hintDisplayUsesCooldown e
    | .error _ => false

/-- The keys that `valid_trigger_key` accepts are those that a condition may name. -/
def validateTriggers (values : List String) : Bool := values.all Expr.validKey

def validateBackendFunction (value : String) : Bool :=
  match value.toList with
  | [] => false
  | first :: chars =>
    (first.isAlpha || first = '_') && (chars.all fun ch => ch.isAlphanum || ch = '_') &&
      value.utf8ByteSize ≤ 64

def validateEnableCondition (value : Option String) : Bool :=
  value.all fun condition =>
    match Expr.compileGateExpr condition with
    | .ok _ => true
    | .error _ => false

structure HintBasicValidation where
  title : Option String
  hiddenTitle : Option String
  contentType : Option ℤ
  cooldown : Option ℤ
  cooldownOrigin : Option ℤ
  titleDisplayCondition : Option String
  displayCondition : Option String
  costAmount : Option ℤ
  backendFunction : Option String
  triggers : Option (List String)

def validateBasic (data : HintBasicValidation) : Bool :=
  data.title.all validateTitle &&
  data.hiddenTitle.all validateTitle &&
  data.contentType.all validateContentType &&
  (data.cooldown.all fun value => 0 ≤ value) &&
  (data.cooldownOrigin.all fun value => 0 ≤ value && value ≤ 3) &&
  data.titleDisplayCondition.all validDisplayCondition &&
  data.displayCondition.all validDisplayCondition &&
  (data.costAmount.all fun value => 0 ≤ value) &&
  data.backendFunction.all validateBackendFunction &&
  data.triggers.all validateTriggers

/-- What both validations ask of the conditions together with the origin. -/
def validateConditions (enableCond : Option String) (cooldownOrigin : ℤ)
    (displayCondition titleDisplayCondition : Option String) : Bool :=
  !(!validateEnableCondition enableCond ||
    (enableCond.isNone && cooldownOrigin = 1) ||
    (displayCondition.isNone && cooldownOrigin = 2) ||
    (titleDisplayCondition.isNone && cooldownOrigin = 3) ||
    (cooldownOrigin = 2 && displayConditionUsesCooldown displayCondition) ||
    (cooldownOrigin = 3 && displayConditionUsesCooldown titleDisplayCondition))

/-! ## The validations -/

/-- `validate_create`, up to its first query. -/
def validateCreate (data : RbHintCreateData) : Bool :=
  validateBasic {
    title := some data.title
    hiddenTitle := data.hiddenTitle
    contentType := some data.contentType
    cooldown := some data.cooldown
    cooldownOrigin := some data.cooldownOrigin
    titleDisplayCondition := data.titleDisplayCondition
    displayCondition := data.displayCondition
    costAmount := some data.costAmount
    backendFunction := data.backendFunction
    triggers := some data.triggers } &&
  validateConditions data.enableCond data.cooldownOrigin data.displayCondition
    data.titleDisplayCondition

section Update

variable (current : RbHintAdminData) (data : RbHintUpdateData)

/-- The origin that `validate_update` expects the update to leave. -/
def expectedCooldownOrigin : ℤ :=
  if data.enableCond = some none ∧ data.cooldownOrigin.getD current.cooldownOrigin = 1 then 0
  else data.cooldownOrigin.getD current.cooldownOrigin

/-- `validate_update`, up to its first query. -/
def validateUpdate : Bool :=
  validateBasic {
    title := data.title
    hiddenTitle := data.hiddenTitle.join
    contentType := data.contentType
    cooldown := data.cooldown
    cooldownOrigin := data.cooldownOrigin
    titleDisplayCondition := data.titleDisplayCondition.join
    displayCondition := data.displayCondition.join
    costAmount := data.costAmount
    backendFunction := data.backendFunction.getD current.backendFunction
    triggers := data.triggers } &&
  validateConditions (data.enableCond.getD current.enableCond) (expectedCooldownOrigin current data)
    (data.displayCondition.getD current.displayCondition)
    (data.titleDisplayCondition.getD current.titleDisplayCondition)

end Update

/-! ## The statements -/

/-- `CASE WHEN set THEN value ELSE column END`. -/
def caseSet {α : Type} (patch : Option (Option α)) (column : Option α) : Option α :=
  if patch.isSome then patch.join else column

/-- What `admin_update_hint` makes of the row `h`. -/
def RbHintAdminData.update (h : RbHintAdminData) (data : RbHintUpdateData) : RbHintAdminData where
  id := h.id
  sort := data.sort.getD h.sort
  title := data.title.getD h.title
  hiddenTitle := caseSet data.hiddenTitle h.hiddenTitle
  content := data.content.getD h.content
  contentType := data.contentType.getD h.contentType
  cooldown := data.cooldown.getD h.cooldown
  titleDisplayCondition := caseSet data.titleDisplayCondition h.titleDisplayCondition
  displayCondition := caseSet data.displayCondition h.displayCondition
  costId := caseSet data.costId h.costId
  costAmount :=
    if data.costId.isSome ∧ data.costId.join = none then 0 else data.costAmount.getD h.costAmount
  backendFunction := caseSet data.backendFunction h.backendFunction
  enableCond := caseSet data.enableCond h.enableCond
  cooldownOrigin :=
    if data.enableCond.isSome ∧ data.enableCond.join = none ∧
        data.cooldownOrigin.getD h.cooldownOrigin = 1 then 0
    else data.cooldownOrigin.getD h.cooldownOrigin
  triggers := data.triggers.getD h.triggers
  puzzleId := data.puzzleId.getD h.puzzleId
  ctimeAt := h.ctimeAt

/-- The row that `admin_create_hint` inserts. -/
def RbHintCreateData.row (data : RbHintCreateData) (id : Id) (ctimeAt : ℤ) : RbHintAdminData where
  id
  sort := data.sort
  title := data.title
  hiddenTitle := data.hiddenTitle
  content := data.content
  contentType := data.contentType
  cooldown := data.cooldown
  titleDisplayCondition := data.titleDisplayCondition
  displayCondition := data.displayCondition
  enableCond := data.enableCond
  cooldownOrigin := data.cooldownOrigin
  costId := data.costId
  costAmount := data.costAmount
  backendFunction := data.backendFunction
  triggers := data.triggers
  puzzleId := data.puzzleId
  ctimeAt

/-! ## What a cooldown rests on -/

/-- A condition that is there, compiles and does not depend on the cooldown. -/
def independent (condition : Option String) : Bool :=
  condition.any fun condition =>
    match Expr.compileHintDisplayExpr condition with
    | .ok e => !Expr.hintDisplayUsesCooldown e
    | .error _ => false

/-- The conditions have what a cooldown of that origin rests on. -/
def grounded (enableCond displayCondition titleDisplayCondition : Option String) (origin : ℤ) :
    Bool :=
  match origin with
  | 1 => enableCond.isSome
  | 2 => independent displayCondition
  | 3 => independent titleDisplayCondition
  | _ => true

/-- The row has what a cooldown of that origin rests on. -/
def RbHintAdminData.grounds (h : RbHintAdminData) (origin : ℤ) : Bool :=
  grounded h.enableCond h.displayCondition h.titleDisplayCondition origin

/-- The rule for a row. -/
structure RbHintAdminData.Founded (h : RbHintAdminData) : Prop where
  enable : h.cooldownOrigin = 1 → h.enableCond ≠ none
  display : h.cooldownOrigin = 2 → ∃ condition e, h.displayCondition = some condition ∧
    Expr.compileHintDisplayExpr condition = .ok e ∧ Expr.hintDisplayUsesCooldown e = false
  titleDisplay : h.cooldownOrigin = 3 → ∃ condition e, h.titleDisplayCondition = some condition ∧
    Expr.compileHintDisplayExpr condition = .ok e ∧ Expr.hintDisplayUsesCooldown e = false

/-- The display conditions of the row compile. -/
def RbHintAdminData.Compiles (h : RbHintAdminData) : Prop :=
  h.displayCondition.all validDisplayCondition = true ∧
    h.titleDisplayCondition.all validDisplayCondition = true

lemma independent_iff {value : Option String} : independent value = true ↔
    ∃ condition e, value = some condition ∧ Expr.compileHintDisplayExpr condition = .ok e ∧
      Expr.hintDisplayUsesCooldown e = false := by
  cases value with
  | none => simp [independent]
  | some condition => cases h : Expr.compileHintDisplayExpr condition <;> simp [independent, h]

lemma RbHintAdminData.founded_iff {h : RbHintAdminData} :
    h.Founded ↔ h.grounds h.cooldownOrigin = true := by
  constructor
  · intro hf
    simp only [grounds, grounded]
    split
    · exact Option.isSome_iff_ne_none.mpr (hf.enable ‹_›)
    · exact independent_iff.mpr (hf.display ‹_›)
    · exact independent_iff.mpr (hf.titleDisplay ‹_›)
    · rfl
  · intro hg
    refine ⟨fun ho => ?_, fun ho => ?_, fun ho => ?_⟩ <;> simp only [grounds, grounded, ho] at hg
    · exact Option.isSome_iff_ne_none.mp hg
    · exact independent_iff.mp hg
    · exact independent_iff.mp hg

/-- Of a condition that compiles the validations test whether it is independent. -/
lemma independent_eq {value : Option String} (h : value.all validDisplayCondition = true) :
    independent value = !(value.isNone || displayConditionUsesCooldown value) := by
  cases value with
  | none => rfl
  | some condition =>
    cases hc : Expr.compileHintDisplayExpr condition with
    | error e => simp [validDisplayCondition, hc] at h
    | ok e => simp [independent, displayConditionUsesCooldown, hc]

lemma validateConditions_eq {enableCond displayCondition titleDisplayCondition : Option String}
    {origin : ℤ} (hd : displayCondition.all validDisplayCondition = true)
    (ht : titleDisplayCondition.all validDisplayCondition = true) :
    validateConditions enableCond origin displayCondition titleDisplayCondition =
      (validateEnableCondition enableCond &&
        grounded enableCond displayCondition titleDisplayCondition origin) := by
  simp only [grounded, validateConditions, independent_eq hd, independent_eq ht]
  split
  · cases enableCond <;> simp
  · cases displayCondition <;> simp
  · cases titleDisplayCondition <;> simp
  · rename_i h1 h2 h3
    have h1 : origin ≠ 1 := h1
    have h2 : origin ≠ 2 := h2
    have h3 : origin ≠ 3 := h3
    simp [h1, h2, h3]

/-- A validated creation follows the rule. -/
lemma founded_row {data : RbHintCreateData} (hv : validateCreate data = true) (id : Id)
    (ctimeAt : ℤ) : (data.row id ctimeAt).Founded ∧ (data.row id ctimeAt).Compiles := by
  simp only [validateCreate, validateBasic, Bool.and_eq_true] at hv
  obtain ⟨⟨⟨⟨⟨⟨-, htitle⟩, hdisplay⟩, -⟩, -⟩, -⟩, hcond⟩ := hv
  rw [validateConditions_eq hdisplay htitle, Bool.and_eq_true] at hcond
  exact ⟨RbHintAdminData.founded_iff.mpr hcond.2, hdisplay, htitle⟩

/-! ## What an update leaves of it -/

namespace RbHintUpdateData

variable (data : RbHintUpdateData)

/-- The patch says nothing of what a cooldown of that origin rests on. -/
def leaves (origin : ℤ) : Bool :=
  match origin with
  | 1 => data.enableCond.isNone
  | 2 => data.displayCondition.isNone
  | 3 => data.titleDisplayCondition.isNone
  | _ => true

/-- The patch sets what a cooldown of that origin rests on. -/
def offers (origin : ℤ) : Bool :=
  grounded data.enableCond.join data.displayCondition.join data.titleDisplayCondition.join origin

/-- The patch takes away what a cooldown of that origin rests on. Where it clears the enabling
condition the statement resets the origin. -/
def ruins (origin : ℤ) : Bool := origin ≠ 1 && !data.leaves origin && !data.offers origin

/-- The statement of an update finds what its validation has: where the patch sets the origin only,
whether there is what a cooldown of that origin rests on, and where it takes that away from an
origin, whether that is the origin. -/
structure Undisturbed (current h : RbHintAdminData) : Prop where
  ground : ∀ origin, data.cooldownOrigin = some origin → data.leaves origin = true →
    h.grounds origin = current.grounds origin
  origin : ∀ origin, data.cooldownOrigin = none → data.ruins origin = true →
    (h.cooldownOrigin = origin ↔ current.cooldownOrigin = origin)

end RbHintUpdateData

section Update

variable {current h : RbHintAdminData} {data : RbHintUpdateData}

lemma caseSet_eq {α : Type} (patch : Option (Option α)) (column : Option α) :
    caseSet patch column = patch.getD column := by
  cases patch <;> rfl

lemma grounded_getD (h : RbHintAdminData) (origin : ℤ) :
    grounded (data.enableCond.getD h.enableCond) (data.displayCondition.getD h.displayCondition)
        (data.titleDisplayCondition.getD h.titleDisplayCondition) origin =
      if data.leaves origin then h.grounds origin else data.offers origin := by
  simp only [grounded, RbHintUpdateData.leaves, RbHintUpdateData.offers, RbHintAdminData.grounds]
  split
  · cases data.enableCond <;> simp
  · cases data.displayCondition <;> simp
  · cases data.titleDisplayCondition <;> simp
  · rfl

/-- The statement leaves the origin that the validation would expect of the row. -/
lemma update_cooldownOrigin : (h.update data).cooldownOrigin = expectedCooldownOrigin h data := by
  simp only [RbHintAdminData.update, expectedCooldownOrigin]
  rcases data.enableCond with _ | _ | condition <;> simp

lemma founded_update_iff : (h.update data).Founded ↔
    (if data.leaves (expectedCooldownOrigin h data) then h.grounds (expectedCooldownOrigin h data)
      else data.offers (expectedCooldownOrigin h data)) = true := by
  rw [RbHintAdminData.founded_iff, update_cooldownOrigin, ← grounded_getD]
  simp only [RbHintAdminData.grounds, RbHintAdminData.update, caseSet_eq]

/-- The validation has checked the rule on what it expects the update to leave. -/
lemma founded_of_validateUpdate (hv : validateUpdate current data = true)
    (hc : current.Compiles) :
    (if data.leaves (expectedCooldownOrigin current data) then
        current.grounds (expectedCooldownOrigin current data)
      else data.offers (expectedCooldownOrigin current data)) = true := by
  simp only [validateUpdate, validateBasic, Bool.and_eq_true] at hv
  obtain ⟨⟨⟨⟨⟨⟨-, htitle⟩, hdisplay⟩, -⟩, -⟩, -⟩, hcond⟩ := hv
  rw [validateConditions_eq, Bool.and_eq_true, grounded_getD] at hcond
  · exact hcond.2
  · rcases hd : data.displayCondition with _ | _ | condition
    · exact hc.1
    · rfl
    · simpa [hd] using hdisplay
  · rcases ht : data.titleDisplayCondition with _ | _ | condition
    · exact hc.2
    · rfl
    · simpa [ht] using htitle

lemma compiles_update (hv : validateUpdate current data = true) (hc : h.Compiles) :
    (h.update data).Compiles := by
  simp only [validateUpdate, validateBasic, Bool.and_eq_true] at hv
  obtain ⟨⟨⟨⟨⟨⟨-, htitle⟩, hdisplay⟩, -⟩, -⟩, -⟩, -⟩ := hv
  refine ⟨?_, ?_⟩ <;> simp only [RbHintAdminData.update, caseSet_eq]
  · rcases hd : data.displayCondition with _ | _ | condition
    · exact hc.1
    · rfl
    · simpa [hd] using hdisplay
  · rcases ht : data.titleDisplayCondition with _ | _ | condition
    · exact hc.2
    · rfl
    · simpa [ht] using htitle

/-- Where the patch sets the origin, the row must have what that rests on. -/
lemma founded_update_iff_of_some {origin : ℤ} (ho : data.cooldownOrigin = some origin)
    (hv : validateUpdate current data = true) (hc : current.Compiles) :
    (h.update data).Founded ↔ data.Undisturbed current h := by
  have hval := founded_of_validateUpdate hv hc
  have hother : ∀ origin', data.cooldownOrigin = none → data.ruins origin' = true →
      (h.cooldownOrigin = origin' ↔ current.cooldownOrigin = origin') := by
    intro origin' hnone
    cases ho.symm.trans hnone
  have heq : expectedCooldownOrigin h data = expectedCooldownOrigin current data := by
    simp [expectedCooldownOrigin, ho]
  rw [founded_update_iff, heq]
  by_cases hreset : data.enableCond = some none ∧ origin = 1
  · -- the statement resets the origin, and the patch has said what the old one rests on
    obtain ⟨hclear, rfl⟩ := hreset
    have hzero : expectedCooldownOrigin current data = 0 := by
      simp [expectedCooldownOrigin, ho, hclear]
    rw [hzero]
    refine ⟨fun _ => ⟨fun origin hsome hleaves => ?_, hother⟩, fun _ => rfl⟩
    obtain rfl := Option.some.inj (ho.symm.trans hsome)
    simp [RbHintUpdateData.leaves, hclear] at hleaves
  · have hexp : expectedCooldownOrigin current data = origin := by
      simp only [expectedCooldownOrigin, ho, Option.getD_some, if_neg hreset]
    rw [hexp] at hval ⊢
    by_cases hleaves : data.leaves origin = true
    · rw [if_pos hleaves] at hval ⊢
      constructor
      · intro hg
        refine ⟨fun origin' hsome _ => ?_, hother⟩
        obtain rfl := Option.some.inj (ho.symm.trans hsome)
        rw [hg, hval]
      · intro hu
        rw [hu.ground origin ho hleaves, hval]
    · rw [if_neg hleaves] at hval ⊢
      refine ⟨fun _ => ⟨fun origin' hsome hl => ?_, hother⟩, fun _ => hval⟩
      obtain rfl := Option.some.inj (ho.symm.trans hsome)
      exact absurd hl hleaves

/-- Where it leaves the origin alone, it must not take away what that rests on. -/
lemma founded_update_iff_ruins (ho : data.cooldownOrigin = none) (hf : h.Founded) :
    (h.update data).Founded ↔ data.ruins h.cooldownOrigin = false := by
  have hrow := RbHintAdminData.founded_iff.mp hf
  rw [founded_update_iff]
  by_cases hreset : data.enableCond = some none ∧ h.cooldownOrigin = 1
  · have hzero : expectedCooldownOrigin h data = 0 := by
      simp [expectedCooldownOrigin, ho, hreset]
    rw [hzero, hreset.2]
    exact ⟨fun _ => rfl, fun _ => rfl⟩
  · have hexp : expectedCooldownOrigin h data = h.cooldownOrigin := by
      simp only [expectedCooldownOrigin, ho, Option.getD_none, if_neg hreset]
    rw [hexp]
    by_cases hleaves : data.leaves h.cooldownOrigin = true
    · simp [RbHintUpdateData.ruins, hleaves, hrow]
    · rw [if_neg hleaves]
      by_cases hone : h.cooldownOrigin = 1
      · -- the enabling condition is set and not cleared
        rw [hone] at hleaves hreset ⊢
        rcases hen : data.enableCond with _ | _ | condition
        · simp [RbHintUpdateData.leaves, hen] at hleaves
        · simp [hen] at hreset
        · simp [RbHintUpdateData.offers, RbHintUpdateData.ruins, grounded, hen]
      · simp [RbHintUpdateData.ruins, hleaves, hone]

lemma ne_of_ruins {origin : ℤ} (ho : data.cooldownOrigin = none)
    (hv : validateUpdate current data = true) (hc : current.Compiles)
    (hr : data.ruins origin = true) : current.cooldownOrigin ≠ origin := by
  rintro rfl
  have hval := founded_of_validateUpdate hv hc
  simp only [RbHintUpdateData.ruins, Bool.and_eq_true, Bool.not_eq_true', decide_eq_true_eq] at hr
  obtain ⟨⟨hone, hleaves⟩, hoffers⟩ := hr
  have hexp : expectedCooldownOrigin current data = current.cooldownOrigin := by
    simp [expectedCooldownOrigin, ho, hone]
  rw [hexp, hleaves, hoffers] at hval
  cases hval

/-- **A validated update keeps the rule exactly if it is undisturbed.** -/
theorem founded_update_iff_undisturbed (hv : validateUpdate current data = true)
    (hc : current.Compiles) (hf : h.Founded) :
    (h.update data).Founded ↔ data.Undisturbed current h := by
  cases ho : data.cooldownOrigin with
  | some origin => exact founded_update_iff_of_some ho hv hc
  | none =>
    rw [founded_update_iff_ruins ho hf]
    constructor
    · intro hruins
      refine ⟨fun origin hsome => ?_, fun origin _ hr => ⟨?_, ?_⟩⟩
      · cases ho.symm.trans hsome
      · rintro rfl
        cases hr.symm.trans hruins
      · intro heq
        exact absurd heq (ne_of_ruins ho hv hc hr)
    · intro hu
      cases hr : data.ruins h.cooldownOrigin with
      | false => rfl
      | true => exact absurd ((hu.origin _ ho hr).mp rfl) (ne_of_ruins ho hv hc hr)

end Update

end Hints
