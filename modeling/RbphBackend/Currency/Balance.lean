import RbphBackend.Numeric.BigInt
import Mathlib.Tactic.SplitIfs

set_option relaxedAutoImplicit false
set_option autoImplicit false

/-!
# Balances

A team's balance grows by the minute while the game's currency feature is open. The growth is not
written as it accrues: the row keeps an amount and the instant it was written, and every query
that needs the balance computes it. The formula stands in the source once for each such query, in
three shapes, which this file embeds.

## Main definitions

* `Currency.CurrencyRow`, `Currency.TeamCurrencyRow` — rows of `rb_currency` and `rb_team_currency`.
* `Currency.runtimeAmount`, `Currency.purchaseAmount`, `Currency.settleCurrencyGrowth` — the three
  shapes.
* `Currency.BalanceUse`, `Currency.amountOf` — the queries that compute a balance.
* `Currency.OneBalance` — the states in which they agree.

## Main results

* `Currency.balances_agree_iff` — the queries agree exactly there.
-/

namespace Currency

open Numeric

/-! ## Rows -/

/-- A row of `rb_currency`. -/
structure CurrencyRow where
  id : ℕ
  gameId : ℕ
  slug : String
  name : String
  growth : BigInt
  initAmount : BigInt
  initHidden : Bool
  maxAmount : BigInt
  prec : ℤ
  deriving DecidableEq

/-- A row of `rb_team_currency`; instants are in microseconds. -/
structure TeamCurrencyRow where
  amount : BigInt
  growth : BigInt
  hidden : Bool
  utimeAt : ℤ
  deriving DecidableEq

/-- The states of the currency feature; `Open` is stored as 1. -/
inductive FeatureState where
  | closed
  | opened
  deriving DecidableEq

/-- The currency feature's row of `rb_game_feature`. -/
structure GameFeature where
  state : FeatureState
  utimeAt : ℤ
  deriving DecidableEq

/-- What `lock_currency_runtime_conn` returns. -/
structure CurrencyRuntimeRow where
  id : ℕ
  gameId : ℕ
  slug : String
  name : String
  prec : ℤ
  currentAmount : BigInt
  maxAmount : BigInt
  deriving DecidableEq

/-- What a team is shown of a currency. -/
structure RbCurrencyShowData where
  id : ℕ
  slug : String
  name : String
  growth : BigInt
  gameGrowth : BigInt
  teamGrowth : BigInt
  initAmount : BigInt
  prec : ℤ
  amount : BigInt
  currentAmount : BigInt
  maxAmount : BigInt
  hidden : Bool
  utimeAt : ℤ
  deriving DecidableEq

/-! ## The formulas -/

/-- The whole minutes from `since` to `now`: `FLOOR(EXTRACT(EPOCH FROM (now - since)) / 60)`. -/
def minutes (since now : ℤ) : ℤ := (now - since) / 60000000

/-- `c.growth + tc.growth`, a sum of columns. -/
def growthSum (c : CurrencyRow) (tc : TeamCurrencyRow) : Except String BigInt :=
  BigInt.cast (c.growth.val + tc.growth.val)

/-- `LEAST(amount + minutes * growth, max)`, on exact numbers. -/
def leastGrown (amount n growth maxAmount : ℤ) : ℤ := min (amount + n * growth) maxAmount

/-- `GREATEST(LEAST(amount, 0), LEAST(amount + minutes * growth, max))`, on exact numbers. -/
def clampGrown (amount n growth maxAmount : ℤ) : ℤ :=
  max (min amount 0) (leastGrown amount n growth maxAmount)

/-- The balance of the queries that consult the feature. -/
def runtimeAmount (c : CurrencyRow) (tc : TeamCurrencyRow) (state : FeatureState) (now : ℤ) :
    Except String BigInt :=
  match state with
  | .opened => do
    let growth ← growthSum c tc
    BigInt.cast (clampGrown tc.amount.val (minutes tc.utimeAt now) growth.val c.maxAmount.val)
  | .closed => .ok tc.amount

/-- The balance of the queries that take a penalty or a price. -/
def purchaseAmount (c : CurrencyRow) (tc : TeamCurrencyRow) (now : ℤ) : Except String BigInt := do
  let growth ← growthSum c tc
  BigInt.cast (leastGrown tc.amount.val (minutes tc.utimeAt now) growth.val c.maxAmount.val)

/-- What `settle_currency_growth_conn` writes to a row. -/
def settleCurrencyGrowth (c : CurrencyRow) (tc : TeamCurrencyRow) (effectiveAt : ℤ) :
    Except String TeamCurrencyRow := do
  let growth ← growthSum c tc
  let amount ← BigInt.cast
    (clampGrown tc.amount.val (max (minutes tc.utimeAt effectiveAt) 0) growth.val c.maxAmount.val)
  return { tc with amount := amount, utimeAt := max tc.utimeAt effectiveAt }

/-- The row `lock_currency_runtime_conn` returns; the by-slug query selects the same. -/
def lockCurrencyRuntime (c : CurrencyRow) (tc : TeamCurrencyRow) (state : FeatureState) (now : ℤ) :
    Except String CurrencyRuntimeRow := do
  let current ← runtimeAmount c tc state now
  return ⟨c.id, c.gameId, c.slug, c.name, c.prec, current, c.maxAmount⟩

/-- A row of `get_currency_info_conn` and of its variants, which also select the growth. -/
def getCurrencyInfo (c : CurrencyRow) (tc : TeamCurrencyRow) (state : FeatureState) (now : ℤ) :
    Except String RbCurrencyShowData := do
  let growth ← growthSum c tc
  let current ← runtimeAmount c tc state now
  return ⟨c.id, c.slug, c.name, growth, c.growth, tc.growth, c.initAmount, c.prec, tc.amount,
    current, c.maxAmount, tc.hidden, tc.utimeAt⟩

/-! ## The uses of a balance -/

/-- The places that compute a balance. -/
inductive BalanceUse where
  | shown
  | runtime
  | penalty
  | hintPrecheck
  | hintCharge
  | ticketCharge
  | settled

/-- The balance each of them uses at one instant. -/
def amountOf (c : CurrencyRow) (tc : TeamCurrencyRow) (state : FeatureState) (now : ℤ) :
    BalanceUse → Except String BigInt
  | .shown => (getCurrencyInfo c tc state now).map (·.currentAmount)
  | .runtime => (lockCurrencyRuntime c tc state now).map (·.currentAmount)
  | .penalty => purchaseAmount c tc now
  | .hintPrecheck => purchaseAmount c tc now
  | .hintCharge => purchaseAmount c tc now
  | .ticketCharge => purchaseAmount c tc now
  | .settled => (settleCurrencyGrowth c tc now).map (·.amount)

/-- The states in which all of them compute one number. The growth is a sum in range. Where the
feature is open, the row has not fallen below the lower bound the runtime queries put on it, and
its clock is not ahead unless that makes no difference; where it is closed, there is no growth to
credit. -/
def OneBalance (c : CurrencyRow) (tc : TeamCurrencyRow) (state : FeatureState) (now : ℤ) : Prop :=
  let a := tc.amount.val
  let m := c.maxAmount.val
  let n := minutes tc.utimeAt now
  let g := c.growth.val + tc.growth.val
  BigInt.InRange g ∧
    match state with
    | .opened => min a 0 ≤ m ∧ min a 0 ≤ a + n * g ∧ (n < 0 → n * g = 0 ∨ m ≤ a ∧ m ≤ a + n * g)
    | .closed => a ≤ m ∧ (n * g = 0 ∨ a = m ∧ 0 ≤ n * g)

/-! ## Agreement -/

section Formulas

variable {c : CurrencyRow} {tc : TeamCurrencyRow} {state : FeatureState} {now : ℤ}

lemma growthSum_eq_ok {g : BigInt} :
    growthSum c tc = .ok g ↔ g.val = c.growth.val + tc.growth.val := BigInt.cast_eq_ok

/-- The clamped formula never leaves the range. -/
lemma inRange_clampGrown (a m : BigInt) (n g : ℤ) :
    BigInt.InRange (clampGrown a.val n g m.val) := by
  have ha := a.inRange
  have hm := m.inRange
  unfold BigInt.InRange at *
  simp only [clampGrown, leastGrown]
  omega

/-- **The runtime queries while the feature is open.** -/
lemma runtimeAmount_opened_eq_ok {b : BigInt} : runtimeAmount c tc .opened now = .ok b ↔
    BigInt.InRange (c.growth.val + tc.growth.val) ∧
      b.val = clampGrown tc.amount.val (minutes tc.utimeAt now)
        (c.growth.val + tc.growth.val) c.maxAmount.val := by
  unfold runtimeAmount growthSum
  by_cases h : BigInt.InRange (c.growth.val + tc.growth.val)
  · rw [BigInt.cast_of_inRange h]
    simp [Bind.bind, Except.bind, h]
  · rw [BigInt.cast_eq_error.mpr ⟨h, rfl⟩]
    simp [Bind.bind, Except.bind, h]

/-- While the feature is closed the balance is the stored amount. -/
@[simp] lemma runtimeAmount_closed : runtimeAmount c tc .closed now = .ok tc.amount := rfl

/-- **The queries that take a penalty or a price**, in either state of the feature. -/
lemma purchaseAmount_eq_ok {b : BigInt} : purchaseAmount c tc now = .ok b ↔
    BigInt.InRange (c.growth.val + tc.growth.val) ∧
      b.val = leastGrown tc.amount.val (minutes tc.utimeAt now)
        (c.growth.val + tc.growth.val) c.maxAmount.val := by
  unfold purchaseAmount growthSum
  by_cases h : BigInt.InRange (c.growth.val + tc.growth.val)
  · rw [BigInt.cast_of_inRange h]
    simp [Bind.bind, Except.bind, h]
  · rw [BigInt.cast_eq_error.mpr ⟨h, rfl⟩]
    simp [Bind.bind, Except.bind, h]

/-- **What settling writes.** -/
lemma settleCurrencyGrowth_eq_ok {tc' : TeamCurrencyRow} {effectiveAt : ℤ} :
    settleCurrencyGrowth c tc effectiveAt = .ok tc' ↔
      BigInt.InRange (c.growth.val + tc.growth.val) ∧
        tc'.amount.val = clampGrown tc.amount.val (max (minutes tc.utimeAt effectiveAt) 0)
          (c.growth.val + tc.growth.val) c.maxAmount.val ∧
        tc'.growth = tc.growth ∧ tc'.hidden = tc.hidden ∧
        tc'.utimeAt = max tc.utimeAt effectiveAt := by
  unfold settleCurrencyGrowth growthSum
  by_cases h : BigInt.InRange (c.growth.val + tc.growth.val)
  · rw [BigInt.cast_of_inRange h]
    simp only [Bind.bind, Except.bind]
    rw [BigInt.cast_of_inRange (inRange_clampGrown tc.amount c.maxAmount _ _)]
    obtain ⟨amount, growth, hidden, utimeAt⟩ := tc'
    simp only [pure, Except.pure, Except.ok.injEq, TeamCurrencyRow.mk.injEq, ← BigInt.val_inj, h,
      true_and]
    constructor
    · rintro ⟨h₁, h₂, h₃, h₄⟩
      exact ⟨h₁.symm, h₂.symm, h₃.symm, h₄.symm⟩
    · rintro ⟨h₁, h₂, h₃, h₄⟩
      exact ⟨h₁.symm, h₂.symm, h₃.symm, h₄.symm⟩
  · rw [BigInt.cast_eq_error.mpr ⟨h, rfl⟩]
    simp [Bind.bind, Except.bind, h]

lemma getCurrencyInfo_amount_eq_ok {b : BigInt} :
    (getCurrencyInfo c tc state now).map (·.currentAmount) = .ok b ↔
      BigInt.InRange (c.growth.val + tc.growth.val) ∧ runtimeAmount c tc state now = .ok b := by
  unfold getCurrencyInfo growthSum
  by_cases h : BigInt.InRange (c.growth.val + tc.growth.val)
  · rw [BigInt.cast_of_inRange h]
    cases runtimeAmount c tc state now <;>
      simp [Bind.bind, Except.bind, Except.map, pure, Except.pure, h]
  · rw [BigInt.cast_eq_error.mpr ⟨h, rfl⟩]
    simp [Bind.bind, Except.bind, Except.map, h]

lemma lockCurrencyRuntime_eq_ok {row : CurrencyRuntimeRow} :
    lockCurrencyRuntime c tc state now = .ok row ↔
      ∃ b, runtimeAmount c tc state now = .ok b ∧
        row = ⟨c.id, c.gameId, c.slug, c.name, c.prec, b, c.maxAmount⟩ := by
  unfold lockCurrencyRuntime
  cases runtimeAmount c tc state now <;>
    simp [Bind.bind, Except.bind, pure, Except.pure, eq_comm]

lemma lockCurrencyRuntime_amount_eq_ok {b : BigInt} :
    (lockCurrencyRuntime c tc state now).map (·.currentAmount) = .ok b ↔
      runtimeAmount c tc state now = .ok b := by
  unfold lockCurrencyRuntime
  cases runtimeAmount c tc state now <;>
    simp [Bind.bind, Except.bind, Except.map, pure, Except.pure]

end Formulas

/-- All uses agree when the three shapes do. -/
lemma amountOf_eq_ok_iff {c : CurrencyRow} {tc : TeamCurrencyRow} {state : FeatureState} {now : ℤ}
    {b : BigInt} : (∀ use, amountOf c tc state now use = .ok b) ↔
      runtimeAmount c tc state now = .ok b ∧ purchaseAmount c tc now = .ok b ∧
        (settleCurrencyGrowth c tc now).map (·.amount) = .ok b := by
  constructor
  · intro h
    exact ⟨lockCurrencyRuntime_amount_eq_ok.mp (h .runtime), h .penalty, h .settled⟩
  · rintro ⟨hr, hp, hs⟩ (_ | _ | _ | _ | _ | _ | _)
    · exact getCurrencyInfo_amount_eq_ok.mpr ⟨(purchaseAmount_eq_ok.mp hp).1, hr⟩
    · exact lockCurrencyRuntime_amount_eq_ok.mpr hr
    · exact hp
    · exact hp
    · exact hp
    · exact hp
    · exact hs

/-- The amount settling writes. -/
lemma settle_amount_eq_ok {c : CurrencyRow} {tc : TeamCurrencyRow} {now : ℤ} {b : BigInt} :
    (settleCurrencyGrowth c tc now).map (·.amount) = .ok b ↔
      BigInt.InRange (c.growth.val + tc.growth.val) ∧
        b.val = clampGrown tc.amount.val (max (minutes tc.utimeAt now) 0)
          (c.growth.val + tc.growth.val) c.maxAmount.val := by
  constructor
  · intro h
    cases hs : settleCurrencyGrowth c tc now with
    | error e => simp [hs, Except.map] at h
    | ok tc' =>
      obtain ⟨hg, ha, -⟩ := settleCurrencyGrowth_eq_ok.mp hs
      simp only [hs, Except.map, Except.ok.injEq] at h
      exact ⟨hg, h ▸ ha⟩
  · rintro ⟨hg, hb⟩
    have hs : settleCurrencyGrowth c tc now =
        .ok { tc with amount := b, utimeAt := max tc.utimeAt now } :=
      settleCurrencyGrowth_eq_ok.mpr ⟨hg, hb, rfl, rfl, rfl⟩
    rw [hs]
    rfl

/-- The three shapes agree on exact numbers, the feature open. -/
private lemma shapes_agree_opened (a m n g : ℤ) :
    (leastGrown a n g m = clampGrown a n g m ∧ clampGrown a (max n 0) g m = clampGrown a n g m) ↔
      min a 0 ≤ m ∧ min a 0 ≤ a + n * g ∧ (n < 0 → n * g = 0 ∨ m ≤ a ∧ m ≤ a + n * g) := by
  rcases Int.lt_or_le n 0 with hn | hn
  · rw [show max n 0 = 0 by omega]
    simp only [clampGrown, leastGrown, Int.zero_mul]
    generalize n * g = x
    omega
  · rw [show max n 0 = n by omega]
    simp only [clampGrown, leastGrown, not_lt.mpr hn, false_imp_iff, and_true]
    generalize n * g = x
    omega

/-- The three shapes agree on exact numbers, the feature closed. -/
private lemma shapes_agree_closed (a m n g : ℤ) :
    (leastGrown a n g m = a ∧ clampGrown a (max n 0) g m = a) ↔
      a ≤ m ∧ (n * g = 0 ∨ a = m ∧ 0 ≤ n * g) := by
  rcases Int.lt_or_le n 0 with hn | hn
  · rw [show max n 0 = 0 by omega]
    simp only [clampGrown, leastGrown, Int.zero_mul]
    generalize n * g = x
    omega
  · rw [show max n 0 = n by omega]
    simp only [clampGrown, leastGrown]
    generalize n * g = x
    constructor
    · rintro ⟨h, -⟩
      omega
    · rintro ⟨h, hx | hx⟩ <;> omega

/-- **When the balances agree.** The balance shown and spent, the balance a penalty is taken from,
the balance of a purchase and the settled balance are one number exactly in the states
`OneBalance` describes. -/
theorem balances_agree_iff (c : CurrencyRow) (tc : TeamCurrencyRow) (state : FeatureState) (now : ℤ) :
    (∃ b, ∀ use, amountOf c tc state now use = .ok b) ↔ OneBalance c tc state now := by
  simp only [amountOf_eq_ok_iff, purchaseAmount_eq_ok, settle_amount_eq_ok]
  cases state with
  | opened =>
    simp only [runtimeAmount_opened_eq_ok, OneBalance, ← shapes_agree_opened]
    constructor
    · rintro ⟨b, ⟨hg, hr⟩, ⟨-, hp⟩, -, hs⟩
      exact ⟨hg, hp.symm.trans hr, hs.symm.trans hr⟩
    · rintro ⟨hg, hp, hs⟩
      obtain ⟨hge, hle⟩ := inRange_clampGrown tc.amount c.maxAmount (minutes tc.utimeAt now)
        (c.growth.val + tc.growth.val)
      exact ⟨⟨_, hge, hle⟩, ⟨hg, rfl⟩, ⟨hg, hp.symm⟩, hg, hs.symm⟩
  | closed =>
    simp only [runtimeAmount_closed, Except.ok.injEq, OneBalance, ← shapes_agree_closed]
    constructor
    · rintro ⟨b, rfl, ⟨hg, hp⟩, -, hs⟩
      exact ⟨hg, hp.symm, hs.symm⟩
    · rintro ⟨hg, hp, hs⟩
      exact ⟨tc.amount, rfl, ⟨hg, hp.symm⟩, hg, hs.symm⟩

/-- A currency that grows by 10 a minute. -/
def points : CurrencyRow := ⟨1, 1, "points", "Points", 10, 0, false, 1000000, 0⟩

lemma points_id : points.id = 1 := rfl

/-- With the feature closed for five minutes a team is shown 100, and a purchase may spend 150. -/
theorem shown_ne_charge_closed :
    amountOf points ⟨100, 0, false, 0⟩ .closed 300000000 .shown = .ok 100 ∧
      amountOf points ⟨100, 0, false, 0⟩ .closed 300000000 .hintCharge = .ok 150 ∧
      ¬ ∃ b, ∀ use, amountOf points ⟨100, 0, false, 0⟩ .closed 300000000 use = .ok b := by
  have hshown : amountOf points ⟨100, 0, false, 0⟩ .closed 300000000 .shown = .ok 100 := by decide
  have hcharge : amountOf points ⟨100, 0, false, 0⟩ .closed 300000000 .hintCharge = .ok 150 := by
    decide
  refine ⟨hshown, hcharge, fun ⟨b, hb⟩ => ?_⟩
  have h : (Except.ok 100 : Except String BigInt) = .ok 150 := by
    rw [← hshown, ← hcharge, hb, hb]
  revert h
  decide

end Currency
