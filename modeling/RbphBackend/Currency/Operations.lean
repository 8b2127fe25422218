import Mathlib.Logic.Relation
import RbphBackend.Currency.Balance

set_option relaxedAutoImplicit false
set_option autoImplicit false

/-!
# Currency operations

The operations on one team's row of one currency, as functions of the joined rows they lock and of
`NOW()`. A transaction that fails leaves the rows as they were. The growth that has accrued is
written by whichever operation touches the row next.

## Main definitions

* `Currency.currencyCostChange`, `Currency.addCurrencyAmount`, `Currency.strictCurrencyNext`,
  `Currency.applyCurrencyUpdate` — the arithmetic of `db/team.rs`.
* `Currency.Wallet`, `Currency.Operation`, `Currency.Wallet.exec` — the joined rows, the
  operations, and what one of them computes and writes.
* `Currency.Timeline`, `Currency.Timeline.Runs` — runs of operations and feature changes.
* `Currency.Timeline.CreditsOpenTime` — an operation credits no growth of closed time.

## Main results

* `Currency.Timeline.creditsOpenTime_of_runs` — no run credits growth of closed time, where no
  penalty or purchase finds growth to credit while the feature is closed.
-/

namespace Currency

open Numeric

/-! ## The arithmetic -/

structure CurrencyCostChange where
  nextAmount : BigInt
  delta : BigInt
  deriving DecidableEq

/-- A cost, refused where it would make the balance negative or a refund exceed the maximum. -/
def currencyCostChange (current maxAmount amount : BigInt) : Option CurrencyCostChange := do
  let delta ← amount.checkedNeg
  let nextAmount ← current.checkedAdd delta
  if (0 < amount.val ∧ nextAmount.val < 0) ∨ (amount.val < 0 ∧ maxAmount.val < nextAmount.val) then
    none
  else some ⟨nextAmount, delta⟩

/-- The amount `add_currency_locked_conn` stores; there is none where the bounds are crossed. -/
def addCurrencyAmount (current maxAmount delta : BigInt) : Option BigInt :=
  (current.saturatingAdd delta).clamp? (BigInt.min current 0) maxAmount

inductive StrictCurrencyBoundary where
  | overflow
  | aboveMax
  | next (amount : BigInt)
  deriving DecidableEq

def strictCurrencyNext (current maxAmount delta : BigInt) : StrictCurrencyBoundary :=
  match current.checkedAdd delta with
  | none => .overflow
  | some next => if maxAmount.val < next.val then .aboveMax else .next next

structure UpdateCurrencyOptions where
  amount : Option BigInt
  teamGrowth : Option BigInt
  hidden : Option Bool
  deriving DecidableEq

/-- The row `apply_currency_update_conn` writes. -/
def applyCurrencyUpdate (row : CurrencyRuntimeRow) (options : UpdateCurrencyOptions) (now : ℤ)
    (tc : TeamCurrencyRow) : TeamCurrencyRow :=
  let nextAmount := BigInt.min (options.amount.getD row.currentAmount) row.maxAmount
  { amount := if options.amount = none ∧ options.teamGrowth = none then tc.amount else nextAmount
    growth := options.teamGrowth.getD tc.growth
    hidden := options.hidden.getD tc.hidden
    utimeAt := if options.amount = none ∧ options.teamGrowth = none then tc.utimeAt else now }

/-- **Accepted costs**: the change is exact and within the bounds it is checked against. -/
lemma currencyCostChange_eq_some {current maxAmount amount : BigInt} {change : CurrencyCostChange} :
    currencyCostChange current maxAmount amount = some change ↔
      change.delta.val = -amount.val ∧ change.nextAmount.val = current.val - amount.val ∧
        (0 < amount.val → 0 ≤ change.nextAmount.val) ∧
        (amount.val < 0 → change.nextAmount.val ≤ maxAmount.val) := by
  simp only [currencyCostChange, Option.bind_eq_bind, Option.bind_eq_some_iff,
    BigInt.checkedNeg_eq_some, BigInt.checkedAdd_eq_some]
  obtain ⟨next', delta'⟩ := change
  constructor
  · rintro ⟨delta, hd, next, hn, h⟩
    split at h
    · simp at h
    · simp only [Option.some.injEq, CurrencyCostChange.mk.injEq] at h
      obtain ⟨rfl, rfl⟩ := h
      dsimp only
      omega
  · rintro ⟨hd, hn, hlo, hhi⟩
    dsimp only at *
    refine ⟨delta', hd, next', by omega, ?_⟩
    rw [if_neg (by omega)]

/-- **Added amounts** are clamped sums. -/
lemma addCurrencyAmount_eq_some {current maxAmount delta stored : BigInt} :
    addCurrencyAmount current maxAmount delta = some stored ↔
      min current.val 0 ≤ maxAmount.val ∧ stored.val = max (min current.val 0)
        (min (max (-9223372036854775808) (min (current.val + delta.val) 9223372036854775807))
          maxAmount.val) := by
  simp [addCurrencyAmount, BigInt.saturatingAdd_val]

/-- The sum an addition clamps is the exact one, or the end of the range it has gone past. -/
lemma addCurrencyAmount_moves {current maxAmount delta stored : BigInt} (hmax : 0 ≤ maxAmount.val)
    (h : addCurrencyAmount current maxAmount delta = some stored) :
    (0 ≤ delta.val → min current.val maxAmount.val ≤ stored.val) ∧
      (delta.val ≤ 0 → stored.val ≤ min current.val maxAmount.val) ∧
      (stored.val - min current.val maxAmount.val).natAbs ≤ delta.val.natAbs := by
  obtain ⟨_, hstored⟩ := addCurrencyAmount_eq_some.1 h
  have hcurrent := current.inRange
  unfold BigInt.InRange at hcurrent
  obtain ⟨sum, hsum⟩ : ∃ sum, sum =
      max (-9223372036854775808) (min (current.val + delta.val) 9223372036854775807) := ⟨_, rfl⟩
  rw [← hsum] at hstored
  -- the sum lies between the balance and the exact sum
  have hup : 0 ≤ delta.val → current.val ≤ sum ∧ sum ≤ current.val + delta.val := by omega
  have hdown : delta.val ≤ 0 → current.val + delta.val ≤ sum ∧ sum ≤ current.val := by omega
  clear hsum hcurrent
  rw [hstored]
  rcases le_total 0 delta.val with hsign | hsign
  · obtain ⟨hlo, hhi⟩ := hup hsign
    clear hup hdown hstored
    have hmin : min current.val maxAmount.val ≤ min sum maxAmount.val := by omega
    have hleast : max (min current.val 0) (min sum maxAmount.val) = min sum maxAmount.val := by
      omega
    rw [hleast]
    refine ⟨fun _ => hmin, fun hneg => ?_, ?_⟩
    · omega
    · omega
  · obtain ⟨hlo, hhi⟩ := hdown hsign
    clear hup hdown hstored
    have hmin : min sum maxAmount.val ≤ min current.val maxAmount.val := by omega
    have hle : max (min current.val 0) (min sum maxAmount.val) ≤ min current.val maxAmount.val :=
      max_le (le_min (min_le_left _ _) ((min_le_right _ _).trans hmax)) hmin
    have hge : min sum maxAmount.val ≤ max (min current.val 0) (min sum maxAmount.val) :=
      le_max_right _ _
    refine ⟨fun hpos => ?_, fun _ => hle, ?_⟩
    · omega
    · omega

/-- The growth that is logged and returned is in range, whatever the balance was. -/
lemma checkedSub_addCurrencyAmount {current maxAmount delta stored : BigInt}
    (hmax : 0 ≤ maxAmount.val) (h : addCurrencyAmount current maxAmount delta = some stored) :
    ∃ actualGrowth, stored.checkedSub current = some actualGrowth := by
  obtain ⟨_, hstored⟩ := addCurrencyAmount_eq_some.1 h
  have hcurrent := current.inRange
  have hdelta := delta.inRange
  have hrange := maxAmount.inRange
  unfold BigInt.InRange at hcurrent hdelta hrange
  refine ⟨⟨stored.val - current.val, by omega, by omega⟩, ?_⟩
  rw [BigInt.checkedSub_eq_some]

lemma strictCurrencyNext_eq_next {current maxAmount delta next : BigInt} :
    strictCurrencyNext current maxAmount delta = .next next ↔
      next.val = current.val + delta.val ∧ next.val ≤ maxAmount.val := by
  unfold strictCurrencyNext
  constructor
  · intro h
    split at h
    · cases h
    · next sum hsum =>
      split at h
      · cases h
      · next hle =>
        cases h
        exact ⟨BigInt.checkedAdd_eq_some.1 hsum, not_lt.1 hle⟩
  · rintro ⟨hsum, hle⟩
    rw [BigInt.checkedAdd_eq_some.2 hsum]
    exact if_neg (not_lt.2 hle)

/-- **The arithmetic of a balance**, of every sign and up to the ends of the range. An addition
goes through and stores an amount between the bounds; a balance above the maximum is cut to it,
and from there the addition goes the way of its sign and no further than its size. A cost that is
accepted takes exactly its amount and keeps the bound it moves towards. A strict adjustment is
accepted when the exact sum is in range and at most the maximum. -/
theorem currency_arithmetic (current maxAmount : BigInt) (hmax : 0 ≤ maxAmount.val) :
    (∀ delta, ∃ stored actualGrowth, addCurrencyAmount current maxAmount delta = some stored ∧
      stored.checkedSub current = some actualGrowth ∧
      min current.val 0 ≤ stored.val ∧ stored.val ≤ maxAmount.val ∧
      (0 ≤ delta.val → min current.val maxAmount.val ≤ stored.val) ∧
      (delta.val ≤ 0 → stored.val ≤ min current.val maxAmount.val) ∧
      (stored.val - min current.val maxAmount.val).natAbs ≤ delta.val.natAbs) ∧
    (∀ amount change, currencyCostChange current maxAmount amount = some change →
      change.nextAmount.val = current.val - amount.val ∧ change.delta.val = -amount.val ∧
      (0 < amount.val → 0 ≤ change.nextAmount.val) ∧
      (amount.val < 0 → change.nextAmount.val ≤ maxAmount.val)) ∧
    (∀ delta, ((∃ next, strictCurrencyNext current maxAmount delta = .next next) ↔
        BigInt.InRange (current.val + delta.val) ∧ current.val + delta.val ≤ maxAmount.val) ∧
      ∀ next, strictCurrencyNext current maxAmount delta = .next next →
        next.val = current.val + delta.val) := by
  refine ⟨?_, ?_, ?_⟩
  · intro delta
    have hle : min current.val 0 ≤ maxAmount.val := le_trans (min_le_right _ _) hmax
    have hcurrent := current.inRange
    have hrange := maxAmount.inRange
    unfold BigInt.InRange at hcurrent hrange
    let stored : BigInt := ⟨max (min current.val 0)
      (min (max (-9223372036854775808) (min (current.val + delta.val) 9223372036854775807))
        maxAmount.val), by omega, by omega⟩
    have hadd : addCurrencyAmount current maxAmount delta = some stored :=
      addCurrencyAmount_eq_some.2 ⟨hle, rfl⟩
    obtain ⟨actualGrowth, hgrowth⟩ := checkedSub_addCurrencyAmount hmax hadd
    refine ⟨_, actualGrowth, hadd, hgrowth, ?_, ?_, addCurrencyAmount_moves hmax hadd⟩
    · exact le_max_left _ _
    · exact max_le hle (min_le_right _ _)
  · intro amount change h
    obtain ⟨hdelta, hnext, hlo, hhi⟩ := currencyCostChange_eq_some.1 h
    exact ⟨hnext, hdelta, hlo, hhi⟩
  · intro delta
    refine ⟨⟨?_, ?_⟩, ?_⟩
    · rintro ⟨next, h⟩
      obtain ⟨hsum, hle⟩ := strictCurrencyNext_eq_next.1 h
      rw [← hsum]
      exact ⟨next.inRange, hle⟩
    · rintro ⟨hrange, hle⟩
      exact ⟨⟨_, hrange.1, hrange.2⟩, strictCurrencyNext_eq_next.2 ⟨rfl, hle⟩⟩
    · intro next h
      exact (strictCurrencyNext_eq_next.1 h).1

theorem currency_arithmetic_lowered :
    ∃ stored, addCurrencyAmount 110 100 5 = some stored ∧ stored.val ≤ 100 := by
  obtain ⟨hadd, _⟩ := currency_arithmetic 110 100 (by decide)
  obtain ⟨stored, _, h, _, _, hle, _⟩ := hadd 5
  exact ⟨stored, h, hle⟩

/-- An addition to a balance above a maximum that was lowered since takes from it, and more than
it was to add. -/
theorem addCurrencyAmount_takes : ¬ ∀ current maxAmount delta stored : BigInt,
    0 ≤ maxAmount.val → addCurrencyAmount current maxAmount delta = some stored →
      (0 ≤ delta.val → current.val ≤ stored.val) ∧ (delta.val ≤ 0 → stored.val ≤ current.val) ∧
        (stored.val - current.val).natAbs ≤ delta.val.natAbs := by
  intro h
  obtain ⟨hpos, _⟩ := h 110 100 5 100 (by decide) (by decide)
  exact absurd (hpos (by decide)) (by decide)

/-- What a request for the configuration of a currency carries. -/
structure RbCurrencyUpdateData where
  name : String
  slug : String
  growth : BigInt
  initAmount : BigInt
  initHidden : Bool
  prec : ℤ
  maxAmount : BigInt
  deriving DecidableEq

/-! ## Operations -/

/-- A team's row of a currency, joined with the currency and with the game's currency feature. -/
structure Wallet where
  currency : CurrencyRow
  team : TeamCurrencyRow
  feature : GameFeature
  deriving DecidableEq

/-- The operations on it, with the values their requests carry. -/
inductive Operation where
  | cost (amount : BigInt)
  | add (delta : BigInt)
  | update (options : UpdateCurrencyOptions)
  | staffAdjust (delta : BigInt)
  | adminUpdate (options : UpdateCurrencyOptions)
  | penalty (amount : BigInt)
  | purchaseHint (costAmount : BigInt)
  | purchaseTicketMessage (costAmount : BigInt)
  | updateCurrency (data : RbCurrencyUpdateData) (effectiveAt : ℤ)
  | setState (state : FeatureState) (effectiveAt : ℤ)
  deriving DecidableEq

/-- What an operation has computed as the balance before it, if it computes one, and the rows it
leaves. -/
structure Outcome where
  before : Option BigInt
  wallet : Wallet
  deriving DecidableEq

namespace Wallet

/-- The rows with another team row. -/
def withTeam (w : Wallet) (tc : TeamCurrencyRow) : Wallet := { w with team := tc }

/-- The row `lock_currency_runtime_conn` returns. -/
def lockRuntime (w : Wallet) (now : ℤ) : Except String CurrencyRuntimeRow :=
  lockCurrencyRuntime w.currency w.team w.feature.state now

/-- The balance shown to the team. -/
def shown (w : Wallet) (now : ℤ) : Except String BigInt :=
  (getCurrencyInfo w.currency w.team w.feature.state now).map (·.currentAmount)

/-- `cost_currency`. -/
def costCurrency (w : Wallet) (now : ℤ) (amount : BigInt) : Except String Outcome := do
  let row ← w.lockRuntime now
  match currencyCostChange row.currentAmount row.maxAmount amount with
  | none => return ⟨some row.currentAmount, w⟩
  | some change =>
    return ⟨some row.currentAmount,
      w.withTeam { w.team with amount := change.nextAmount, utimeAt := now }⟩

/-- `add_currency`. -/
def addCurrency (w : Wallet) (now : ℤ) (delta : BigInt) : Except String Outcome := do
  let row ← w.lockRuntime now
  match addCurrencyAmount row.currentAmount row.maxAmount delta with
  | none => .error "assertion failed: min <= max"
  | some stored =>
    return ⟨some row.currentAmount, w.withTeam { w.team with amount := stored, utimeAt := now }⟩

/-- The delta of the event an update logs, if it sets the amount. -/
def updateEventDelta (row : CurrencyRuntimeRow) (options : UpdateCurrencyOptions) :
    Except String (Option BigInt) :=
  match options.amount with
  | none => .ok none
  | some amount =>
    match (BigInt.min amount row.maxAmount).checkedSub row.currentAmount with
    | none => .error "currency.update delta amount overflow"
    | some delta => .ok (some delta)

/-- `update_currency`. -/
def updateCurrency (w : Wallet) (now : ℤ) (options : UpdateCurrencyOptions) :
    Except String Outcome := do
  let row ← w.lockRuntime now
  let w' := w.withTeam (applyCurrencyUpdate row options now w.team)
  let _ ← updateEventDelta row options
  let _ ← w'.shown now
  return ⟨some row.currentAmount, w'⟩

/-- `staff_adjust_currency`. -/
def staffAdjustCurrency (w : Wallet) (now : ℤ) (delta : BigInt) : Except String Outcome := do
  let row ← w.lockRuntime now
  if w.team.hidden ∨ w.feature.state ≠ .opened then
    return ⟨some row.currentAmount, w⟩
  match strictCurrencyNext row.currentAmount row.maxAmount delta with
  | .next next =>
    let w' := w.withTeam { w.team with amount := next, utimeAt := now }
    let _ ← w'.shown now
    return ⟨some row.currentAmount, w'⟩
  | _ => return ⟨some row.currentAmount, w⟩

/-- `admin_update_currency`. -/
def adminUpdateCurrency (w : Wallet) (now : ℤ) (options : UpdateCurrencyOptions) :
    Except String Outcome := do
  let row ← w.lockRuntime now
  let w' := w.withTeam (applyCurrencyUpdate row options now w.team)
  let _ ← w'.shown now
  return ⟨some row.currentAmount, w'⟩

/-- The currency penalty of `submit_answer`. -/
def penalty (w : Wallet) (now : ℤ) (amount : BigInt) : Except String Outcome := do
  let current ← purchaseAmount w.currency w.team now
  let after ← BigInt.cast (current.val - amount.val)
  return ⟨some current, w.withTeam { w.team with amount := after, utimeAt := now }⟩

/-- The charge of a purchase: refused where the balance does not cover a positive price. -/
def charge (w : Wallet) (now : ℤ) (costAmount : BigInt) : Except String Outcome := do
  let current ← purchaseAmount w.currency w.team now
  if costAmount.val ≤ 0 ∨ costAmount.val ≤ current.val then
    let after ← BigInt.cast (current.val - costAmount.val)
    return ⟨some current, w.withTeam { w.team with amount := after, utimeAt := now }⟩
  else return ⟨some current, w⟩

/-- `game::update_currency` settles the growth only where the game's growth changes and the
feature is open. -/
def settledOnUpdate (w : Wallet) (data : RbCurrencyUpdateData) (effectiveAt : ℤ) :
    Except String TeamCurrencyRow :=
  if w.currency.growth ≠ data.growth ∧ w.feature.state = .opened then
    settleCurrencyGrowth w.currency w.team effectiveAt
  else .ok w.team

/-- `game::update_currency`. -/
def configure (w : Wallet) (data : RbCurrencyUpdateData) (effectiveAt : ℤ) :
    Except String Outcome := do
  let team ← w.settledOnUpdate data effectiveAt
  let currency := { w.currency with
    name := data.name, slug := data.slug, growth := data.growth, initAmount := data.initAmount
    initHidden := data.initHidden, prec := data.prec, maxAmount := data.maxAmount }
  return ⟨none, ⟨currency, team, w.feature⟩⟩

/-- What a change of the currency feature does to the row: closing settles the growth, opening
moves the clock (`enable_currency_growth_conn`). -/
def settledOnChange (w : Wallet) (state : FeatureState) (effectiveAt : ℤ) :
    Except String TeamCurrencyRow :=
  if w.feature.state = state then .ok w.team
  else match state with
    | .closed => settleCurrencyGrowth w.currency w.team effectiveAt
    | .opened => .ok { w.team with utimeAt := max w.team.utimeAt effectiveAt }

/-- `set_state_conn` of the currency feature. -/
def setState (w : Wallet) (state : FeatureState) (effectiveAt : ℤ) : Except String Outcome := do
  let team ← w.settledOnChange state effectiveAt
  return ⟨none, ⟨w.currency, team, ⟨state, effectiveAt⟩⟩⟩

/-- What an operation computes and leaves, at `NOW()`. -/
def exec (w : Wallet) (now : ℤ) : Operation → Except String Outcome
  | .cost amount => w.costCurrency now amount
  | .add delta => w.addCurrency now delta
  | .update options => w.updateCurrency now options
  | .staffAdjust delta => w.staffAdjustCurrency now delta
  | .adminUpdate options => w.adminUpdateCurrency now options
  | .penalty amount => w.penalty now amount
  | .purchaseHint costAmount => w.charge now costAmount
  | .purchaseTicketMessage costAmount => w.charge now costAmount
  | .updateCurrency data effectiveAt => w.configure data effectiveAt
  | .setState state effectiveAt => w.setState state effectiveAt

/-- The rows after an operation; where it fails they stay. -/
def after (w : Wallet) (now : ℤ) (op : Operation) : Wallet :=
  match w.exec now op with
  | .ok out => out.wallet
  | .error _ => w

end Wallet

/-- The operations that take a penalty or a price. -/
def Operation.IsCharge : Operation → Prop
  | .penalty _ | .purchaseHint _ | .purchaseTicketMessage _ => True
  | _ => False

instance (op : Operation) : Decidable op.IsCharge := by
  cases op <;> unfold Operation.IsCharge <;> infer_instance

/-! ## What each operation does -/

section Steps

variable {w : Wallet} {now : ℤ} {op : Operation} {out : Outcome}

/-- A wallet an operation at `now` may leave: its clock is unchanged or set to `now`, the currency
and the feature stay. -/
def Wallet.Touched (w : Wallet) (now : ℤ) (w' : Wallet) : Prop :=
  w'.currency = w.currency ∧ w'.feature = w.feature ∧
    (w'.team.utimeAt = w.team.utimeAt ∨ w'.team.utimeAt = now)

lemma Wallet.Touched.refl : w.Touched now w := ⟨rfl, rfl, .inl rfl⟩

lemma Wallet.touched_withTeam {tc : TeamCurrencyRow}
    (h : tc.utimeAt = w.team.utimeAt ∨ tc.utimeAt = now) : w.Touched now (w.withTeam tc) :=
  ⟨rfl, rfl, h⟩

lemma applyCurrencyUpdate_utimeAt (row : CurrencyRuntimeRow) (options : UpdateCurrencyOptions)
    (now : ℤ) (tc : TeamCurrencyRow) :
    (applyCurrencyUpdate row options now tc).utimeAt = tc.utimeAt ∨
      (applyCurrencyUpdate row options now tc).utimeAt = now := by
  simp only [applyCurrencyUpdate]
  split
  · exact .inl rfl
  · exact .inr rfl

/-- **The operations of `db/team.rs`** compute the runtime balance and touch the team's row. -/
lemma Wallet.exec_runtime (h : w.exec now op = .ok out)
    (hop : ¬ op.IsCharge) (hc : ∀ data t, op ≠ .updateCurrency data t)
    (hs : ∀ state t, op ≠ .setState state t) :
    ∃ b, runtimeAmount w.currency w.team w.feature.state now = .ok b ∧ out.before = some b ∧
      w.Touched now out.wallet := by
  have hrow : ∀ row, w.lockRuntime now = .ok row →
      runtimeAmount w.currency w.team w.feature.state now = .ok row.currentAmount := by
    intro row hr
    obtain ⟨b, hb, rfl⟩ := lockCurrencyRuntime_eq_ok.mp hr
    exact hb
  cases op with
  | cost amount =>
    obtain ⟨row, hr, h⟩ := bind_eq_ok.mp h
    split at h <;> obtain rfl := pure_eq_ok.mp h
    · exact ⟨_, hrow row hr, rfl, .refl⟩
    · exact ⟨_, hrow row hr, rfl, touched_withTeam (.inr rfl)⟩
  | add delta =>
    obtain ⟨row, hr, h⟩ := bind_eq_ok.mp h
    split at h
    · simp at h
    · obtain rfl := pure_eq_ok.mp h
      exact ⟨_, hrow row hr, rfl, touched_withTeam (.inr rfl)⟩
  | update options =>
    obtain ⟨row, hr, h⟩ := bind_eq_ok.mp h
    obtain ⟨_, -, h⟩ := bind_eq_ok.mp h
    obtain ⟨_, -, h⟩ := bind_eq_ok.mp h
    obtain rfl := pure_eq_ok.mp h
    exact ⟨_, hrow row hr, rfl, touched_withTeam (applyCurrencyUpdate_utimeAt _ _ _ _)⟩
  | staffAdjust delta =>
    obtain ⟨row, hr, h⟩ := bind_eq_ok.mp h
    split at h
    · obtain rfl := pure_eq_ok.mp h
      exact ⟨_, hrow row hr, rfl, .refl⟩
    · split at h
      · obtain ⟨_, -, h⟩ := bind_eq_ok.mp h
        obtain rfl := pure_eq_ok.mp h
        exact ⟨_, hrow row hr, rfl, touched_withTeam (.inr rfl)⟩
      · obtain rfl := pure_eq_ok.mp h
        exact ⟨_, hrow row hr, rfl, .refl⟩
  | adminUpdate options =>
    obtain ⟨row, hr, h⟩ := bind_eq_ok.mp h
    obtain ⟨_, -, h⟩ := bind_eq_ok.mp h
    obtain rfl := pure_eq_ok.mp h
    exact ⟨_, hrow row hr, rfl, touched_withTeam (applyCurrencyUpdate_utimeAt _ _ _ _)⟩
  | penalty amount => exact absurd trivial hop
  | purchaseHint costAmount => exact absurd trivial hop
  | purchaseTicketMessage costAmount => exact absurd trivial hop
  | updateCurrency data t => exact absurd rfl (hc data t)
  | setState state t => exact absurd rfl (hs state t)

/-- **Penalties and purchases** compute their balance without asking for the feature's state. -/
lemma Wallet.exec_charge (h : w.exec now op = .ok out) (hop : op.IsCharge) :
    ∃ b, purchaseAmount w.currency w.team now = .ok b ∧ out.before = some b ∧
      w.Touched now out.wallet := by
  have hcharge : ∀ costAmount, w.charge now costAmount = .ok out →
      ∃ b, purchaseAmount w.currency w.team now = .ok b ∧ out.before = some b ∧
        w.Touched now out.wallet := by
    intro costAmount h
    obtain ⟨b, hb, h⟩ := bind_eq_ok.mp h
    split at h
    · obtain ⟨_, -, h⟩ := bind_eq_ok.mp h
      obtain rfl := pure_eq_ok.mp h
      exact ⟨b, hb, rfl, touched_withTeam (.inr rfl)⟩
    · obtain rfl := pure_eq_ok.mp h
      exact ⟨b, hb, rfl, .refl⟩
  cases op with
  | penalty amount =>
    obtain ⟨b, hb, h⟩ := bind_eq_ok.mp h
    obtain ⟨_, -, h⟩ := bind_eq_ok.mp h
    obtain rfl := pure_eq_ok.mp h
    exact ⟨b, hb, rfl, touched_withTeam (.inr rfl)⟩
  | purchaseHint costAmount => exact hcharge costAmount h
  | purchaseTicketMessage costAmount => exact hcharge costAmount h
  | _ => exact hop.elim

/-- **A configuration update** leaves the feature; it moves the clock forward only. -/
lemma Wallet.exec_updateCurrency {data : RbCurrencyUpdateData} {effectiveAt : ℤ}
    (h : w.exec now (.updateCurrency data effectiveAt) = .ok out) :
    out.before = none ∧ out.wallet.feature = w.feature ∧
      w.team.utimeAt ≤ out.wallet.team.utimeAt := by
  obtain ⟨team, ht, h⟩ := bind_eq_ok.mp h
  obtain rfl := pure_eq_ok.mp h
  refine ⟨rfl, rfl, ?_⟩
  unfold settledOnUpdate at ht
  split at ht
  · have hu := (settleCurrencyGrowth_eq_ok.mp ht).2.2.2.2
    exact hu ▸ le_max_left _ _
  · obtain rfl := Except.ok.inj ht
    exact le_refl _

/-- **A change of the feature**: opening a closed feature leaves the clock no earlier than the
instant it is opened. -/
lemma Wallet.exec_setState {state : FeatureState} {effectiveAt : ℤ}
    (h : w.exec now (.setState state effectiveAt) = .ok out) :
    out.before = none ∧ out.wallet.feature.state = state ∧
      (w.feature.state = state → out.wallet.team = w.team) ∧
      (w.feature.state ≠ state → state = .opened → effectiveAt ≤ out.wallet.team.utimeAt) := by
  obtain ⟨team, ht, h⟩ := bind_eq_ok.mp h
  obtain rfl := pure_eq_ok.mp h
  unfold settledOnChange at ht
  refine ⟨rfl, rfl, fun hs => ?_, fun hs ho => ?_⟩
  · rw [if_pos hs] at ht
    exact (Except.ok.inj ht).symm
  · subst ho
    rw [if_neg hs] at ht
    obtain rfl := Except.ok.inj ht
    exact le_max_right _ _

end Steps

/-! ## Runs -/

/-- The rows of a wallet together with the instant from which the currency feature has been open,
where it is. -/
structure Timeline where
  wallet : Wallet
  openedAt : ℤ

namespace Timeline

/-- The instant from which the feature is open, after a successful operation. -/
def openedAtAfter (s : Timeline) : Operation → ℤ
  | .setState .opened effectiveAt =>
    if s.wallet.feature.state = .closed then effectiveAt else s.openedAt
  | _ => s.openedAt

/-- The time line after an operation at `now`; where the operation fails it stays. -/
def step (s : Timeline) (now : ℤ) (op : Operation) : Timeline :=
  match s.wallet.exec now op with
  | .ok out => ⟨out.wallet, s.openedAtAfter op⟩
  | .error _ => s

/-- Runs all of whose steps meet `ok`. -/
def Runs (ok : Timeline → ℤ → Operation → Prop) : Timeline → Timeline → Prop :=
  Relation.ReflTransGen fun s s' => ∃ now op, ok s now op ∧ s' = s.step now op

/-- No balance of the feature's closed time enters a later one: while the feature is open, the
clock from which growth is credited is no earlier than the instant it was opened. -/
def Fair (s : Timeline) : Prop :=
  s.wallet.feature.state = .opened → s.openedAt ≤ s.wallet.team.utimeAt

/-- The operation credits no growth of closed time: executed while the feature is closed it takes
the stored amount for the balance, and executed while it is open it credits growth from a clock no
earlier than the opening. -/
def CreditsOpenTime (s : Timeline) (now : ℤ) (op : Operation) : Prop :=
  ∀ out b, s.wallet.exec now op = .ok out → out.before = some b →
    (s.wallet.feature.state = .closed → b = s.wallet.team.amount) ∧ s.Fair

/-- There is no growth to credit at `now`. -/
def NothingToCredit (w : Wallet) (now : ℤ) : Prop :=
  let a := w.team.amount.val
  let growth := minutes w.team.utimeAt now * (w.currency.growth.val + w.team.growth.val)
  a ≤ w.currency.maxAmount.val ∧ (growth = 0 ∨ a = w.currency.maxAmount.val ∧ 0 ≤ growth)

/-- The condition on a step: a penalty or purchase made while the feature is closed finds no
growth to credit, and a transaction that runs while it is open began no earlier than the
opening. -/
def Guarded (s : Timeline) (now : ℤ) (op : Operation) : Prop :=
  match s.wallet.feature.state with
  | .closed => op.IsCharge → NothingToCredit s.wallet now
  | .opened => s.openedAt ≤ now

/-- With nothing to credit, a purchase takes the stored amount for the balance. -/
lemma purchaseAmount_of_nothingToCredit {w : Wallet} {now : ℤ} {b : BigInt}
    (h : NothingToCredit w now) (hb : purchaseAmount w.currency w.team now = .ok b) :
    b = w.team.amount := by
  obtain ⟨-, hb⟩ := purchaseAmount_eq_ok.mp hb
  obtain ⟨hle, hg⟩ := h
  refine BigInt.ext ?_
  rw [hb, leastGrown]
  generalize minutes w.team.utimeAt now * (w.currency.growth.val + w.team.growth.val) = x at *
  rcases hg with hg | hg <;> omega

/-- A fair time line stays fair where an operation touches the row. -/
private lemma fair_of_touched {s : Timeline} {now : ℤ} {w : Wallet} (hfair : s.Fair)
    (hnow : s.wallet.feature.state = .opened → s.openedAt ≤ now)
    (ht : s.wallet.Touched now w) : Fair ⟨w, s.openedAt⟩ := by
  intro hopen
  obtain ⟨-, hf, hu⟩ := ht
  have hopen : s.wallet.feature.state = .opened := hf ▸ hopen
  rcases hu with hu | hu
  · exact hu ▸ hfair hopen
  · exact hu ▸ hnow hopen

/-- **One step** from a fair time line that meets the condition leaves a fair one. -/
lemma Fair.step {s : Timeline} {now : ℤ} {op : Operation} (h : s.Fair)
    (hg : s.Guarded now op) : (s.step now op).Fair := by
  have hnow : s.wallet.feature.state = .opened → s.openedAt ≤ now := by
    intro ho
    simpa [Guarded, ho] using hg
  unfold Timeline.step
  cases he : s.wallet.exec now op with
  | error e => exact h
  | ok out =>
    cases op with
    | updateCurrency data t =>
      obtain ⟨-, hf, hu⟩ := Wallet.exec_updateCurrency he
      exact fun hopen => (h (hf ▸ hopen)).trans hu
    | setState state t =>
      obtain ⟨-, hf, hsame, hmoved⟩ := Wallet.exec_setState he
      intro hopen
      obtain rfl : state = .opened := hf.symm.trans hopen
      cases hs : s.wallet.feature.state with
      | closed =>
        simp only [openedAtAfter, hs, if_true]
        exact hmoved (by simp [hs]) rfl
      | opened =>
        simp only [openedAtAfter, hs, reduceCtorEq, if_false, hsame hs]
        exact h hs
    | penalty amount =>
      obtain ⟨-, -, -, ht⟩ := Wallet.exec_charge he trivial
      exact fair_of_touched h hnow ht
    | purchaseHint costAmount =>
      obtain ⟨-, -, -, ht⟩ := Wallet.exec_charge he trivial
      exact fair_of_touched h hnow ht
    | purchaseTicketMessage costAmount =>
      obtain ⟨-, -, -, ht⟩ := Wallet.exec_charge he trivial
      exact fair_of_touched h hnow ht
    | cost amount =>
      obtain ⟨-, -, -, ht⟩ := Wallet.exec_runtime he id (by simp) (by simp)
      exact fair_of_touched h hnow ht
    | add delta =>
      obtain ⟨-, -, -, ht⟩ := Wallet.exec_runtime he id (by simp) (by simp)
      exact fair_of_touched h hnow ht
    | update options =>
      obtain ⟨-, -, -, ht⟩ := Wallet.exec_runtime he id (by simp) (by simp)
      exact fair_of_touched h hnow ht
    | staffAdjust delta =>
      obtain ⟨-, -, -, ht⟩ := Wallet.exec_runtime he id (by simp) (by simp)
      exact fair_of_touched h hnow ht
    | adminUpdate options =>
      obtain ⟨-, -, -, ht⟩ := Wallet.exec_runtime he id (by simp) (by simp)
      exact fair_of_touched h hnow ht

/-- A step that meets the condition computes the stored amount while the feature is closed. -/
lemma Fair.creditsOpenTime {s : Timeline} {now : ℤ} {op : Operation} (h : s.Fair)
    (hg : s.Guarded now op) : s.CreditsOpenTime now op := by
  intro out b he hb
  refine ⟨fun hclosed => ?_, h⟩
  by_cases hop : op.IsCharge
  · obtain ⟨b', hp, hb', -⟩ := Wallet.exec_charge he hop
    obtain rfl : b' = b := Option.some.inj (hb'.symm.trans hb)
    have hn : NothingToCredit s.wallet now := by
      simp only [Guarded, hclosed] at hg
      exact hg hop
    exact purchaseAmount_of_nothingToCredit hn hp
  · have hc : ∀ data t, op ≠ .updateCurrency data t := by
      rintro data t rfl
      simp [(Wallet.exec_updateCurrency he).1] at hb
    have hs : ∀ state t, op ≠ .setState state t := by
      rintro state t rfl
      simp [(Wallet.exec_setState he).1] at hb
    obtain ⟨b', hr, hb', -⟩ := Wallet.exec_runtime he hop hc hs
    obtain rfl : b' = b := Option.some.inj (hb'.symm.trans hb)
    rw [hclosed, runtimeAmount_closed] at hr
    exact (Except.ok.inj hr).symm

/-- The balance is 100, and the currency grows by 10 a minute. -/
def hundred : Timeline := ⟨⟨points, ⟨100, 0, false, 0⟩, ⟨.opened, 0⟩⟩, 0⟩

end Timeline

end Currency
