import RbphBackend.Currency.Operations

set_option relaxedAutoImplicit false
set_option autoImplicit false

/-!
# The events of balances

What each operation on a balance logs beside what it writes. Some of the deltas are computed with
checked arithmetic and some with plain arithmetic, which wraps.

## Main definitions

* `Currency.LoggedChange` — the balance before and after, and the delta, of an event.
* `Currency.BalanceOperation`, `Currency.Wallet.leaves` — the operations, with the rows and the
  event they leave.
* `Currency.Accounted` — the event tells the change of the balance exactly.
* `Currency.Accountable` — the inputs for which it does.
* `Currency.Reachable` — the rows the operations lead to.

## Main results

* `Currency.accounted_iff_accountable` — an operation is accounted for exactly there.
-/

namespace Currency

open Numeric

/-! ## Valid configurations -/

/-- The characters `str::trim` removes. -/
def isWhitespace (c : Char) : Bool :=
  let n := c.toNat
  (9 ≤ n && n ≤ 13) || n = 0x20 || n = 0x85 || n = 0xa0 || n = 0x1680 ||
    (0x2000 ≤ n && n ≤ 0x200a) || n = 0x2028 || n = 0x2029 || n = 0x202f || n = 0x205f || n = 0x3000

/-- `valid_currency_slug`. -/
def validCurrencySlug (slug : String) : Bool :=
  1 ≤ slug.utf8ByteSize && slug.utf8ByteSize ≤ 40 &&
    slug.toList.all fun c => c.isLower || c.isDigit || c = '_' || c = '-'

/-- `valid_currency_data`. -/
def validCurrencyData (name slug : String) (prec : ℤ) (initAmount maxAmount : BigInt) : Bool :=
  !name.toList.all isWhitespace && name.length ≤ 40 && validCurrencySlug slug &&
    0 ≤ prec && prec ≤ 6 && 0 ≤ initAmount.val && 0 ≤ maxAmount.val &&
    initAmount.val ≤ maxAmount.val

lemma le_of_validCurrencyData {name slug : String} {prec : ℤ} {initAmount maxAmount : BigInt}
    (h : validCurrencyData name slug prec initAmount maxAmount = true) : 0 ≤ maxAmount.val := by
  simp only [validCurrencyData, Bool.and_eq_true, decide_eq_true_eq] at h
  exact h.1.2

/-! ## The operations with their events -/

/-- The numbers of an event: `before` and `after` of its data, the column `delta_amount` and the
`delta` of its data. -/
structure LoggedChange where
  before : BigInt
  after : BigInt
  deltaAmount : BigInt
  delta : BigInt
  deriving DecidableEq

/-- The event with `CurrencyEventData` as its data, whose delta is a plain difference. -/
def LoggedChange.ofData (before after deltaAmount : BigInt) : LoggedChange :=
  ⟨before, after, deltaAmount, after.wrappingSub before⟩

/-- The rows an operation leaves and the event it logs, if it logs one. -/
structure Left where
  wallet : Wallet
  event : Option LoggedChange
  deriving DecidableEq

/-- The operations on a balance. An update may run in a transaction of its caller, which can go on
after an error. -/
inductive BalanceOperation where
  | cost (amount : BigInt)
  | add (delta : BigInt)
  | update (inCaller : Bool) (options : UpdateCurrencyOptions)
  | staffAdjust (delta : BigInt)
  | adminUpdate (options : UpdateCurrencyOptions)
  | penalty (amount : BigInt)
  deriving DecidableEq

/-- What the interface admits: a staff adjustment is not 0 and the amount of a penalty is
positive. -/
def BalanceOperation.Admitted : BalanceOperation → Prop
  | staffAdjust delta => delta ≠ 0
  | penalty amount => 0 < amount.val
  | _ => True

namespace Wallet

variable (w : Wallet) (now : ℤ)

/-- The available balance under the row lock. -/
def available : Except String BigInt := (w.lockRuntime now).map (·.currentAmount)

/-- `cost_currency`. -/
def costLogged (amount : BigInt) : Except String Left := do
  let row ← w.lockRuntime now
  match currencyCostChange row.currentAmount row.maxAmount amount with
  | none => return ⟨w, none⟩
  | some change =>
    return ⟨w.withTeam { w.team with amount := change.nextAmount, utimeAt := now },
      some (.ofData row.currentAmount change.nextAmount change.delta)⟩

/-- `add_currency`. -/
def addLogged (delta : BigInt) : Except String Left := do
  let row ← w.lockRuntime now
  match addCurrencyAmount row.currentAmount row.maxAmount delta with
  | none => .error "assertion failed: min <= max"
  | some stored =>
    let actualGrowth := stored.wrappingSub row.currentAmount
    return ⟨w.withTeam { w.team with amount := stored, utimeAt := now },
      some (.ofData row.currentAmount stored actualGrowth)⟩

/-- `insert_backend_currency_update_event_conn`, where an amount is given. -/
def updateEvent (row : CurrencyRuntimeRow) (options : UpdateCurrencyOptions) :
    Except String (Option LoggedChange) :=
  match options.amount with
  | none => .ok none
  | some amount =>
    let after := BigInt.min amount row.maxAmount
    match after.checkedSub row.currentAmount with
    | none => .error "currency.update delta amount overflow"
    | some delta => .ok (some (.ofData row.currentAmount after delta))

/-- `update_currency`. -/
def updateLogged (options : UpdateCurrencyOptions) : Except String Left := do
  let row ← w.lockRuntime now
  let w' := w.withTeam (applyCurrencyUpdate row options now w.team)
  let event ← updateEvent row options
  let _ ← w'.shown now
  return ⟨w', event⟩

/-- `staff_adjust_currency`. -/
def staffAdjustLogged (delta : BigInt) : Except String Left := do
  let row ← w.lockRuntime now
  if w.team.hidden ∨ w.feature.state ≠ .opened then
    return ⟨w, none⟩
  match strictCurrencyNext row.currentAmount row.maxAmount delta with
  | .next next =>
    let w' := w.withTeam { w.team with amount := next, utimeAt := now }
    let _ ← w'.shown now
    return ⟨w', some (.ofData row.currentAmount next (next.wrappingSub row.currentAmount))⟩
  | _ => return ⟨w, none⟩

/-- The event of `admin_update_currency`, by `insert_staff_currency_event_conn`. -/
def adminUpdateEvent (row : CurrencyRuntimeRow) (options : UpdateCurrencyOptions) :
    Option LoggedChange :=
  match options.amount with
  | none => none
  | some amount =>
    let after := BigInt.min amount row.maxAmount
    if after ≠ row.currentAmount then
      some (.ofData row.currentAmount after (after.wrappingSub row.currentAmount))
    else none

/-- `admin_update_currency`. -/
def adminUpdateLogged (options : UpdateCurrencyOptions) : Except String Left := do
  let row ← w.lockRuntime now
  let w' := w.withTeam (applyCurrencyUpdate row options now w.team)
  let _ ← w'.shown now
  return ⟨w', adminUpdateEvent row options⟩

/-- The currency penalty of `submit_answer`: the statement computes the balance and the amount
after it, and the deltas of the event are the negated amount. -/
def penaltyLogged (amount : BigInt) : Except String Left := do
  let before ← purchaseAmount w.currency w.team now
  let after ← BigInt.cast (before.val - amount.val)
  return ⟨w.withTeam { w.team with amount := after, utimeAt := now },
    some ⟨before, after, (0 : BigInt).wrappingSub amount, (0 : BigInt).wrappingSub amount⟩⟩

/-- What `update_currency_conn` leaves in a transaction that goes on: an SQL error has aborted it,
the error of the event has not. -/
def updateConnLogged (options : UpdateCurrencyOptions) : Except String Left := do
  let row ← w.lockRuntime now
  let w' := w.withTeam (applyCurrencyUpdate row options now w.team)
  match updateEvent row options with
  | .error _ => return ⟨w', none⟩
  | .ok event =>
    let _ ← w'.shown now
    return ⟨w', event⟩

/-- An operation, as far as it is not undone by an error. -/
def logged : BalanceOperation → Except String Left
  | .cost amount => w.costLogged now amount
  | .add delta => w.addLogged now delta
  | .update false options => w.updateLogged now options
  | .update true options => w.updateConnLogged now options
  | .staffAdjust delta => w.staffAdjustLogged now delta
  | .adminUpdate options => w.adminUpdateLogged now options
  | .penalty amount => w.penaltyLogged now amount

/-- What an operation leaves; an error leaves the rows as they were. -/
def leaves (op : BalanceOperation) : Left :=
  match w.logged now op with
  | .ok left => left
  | .error _ => ⟨w, none⟩

end Wallet

/-! ## The rows they write are those of the operations -/

/-- The operation without its event. -/
def BalanceOperation.operation : BalanceOperation → Operation
  | cost amount => .cost amount
  | add delta => .add delta
  | update _ options => .update options
  | staffAdjust delta => .staffAdjust delta
  | adminUpdate options => .adminUpdate options
  | penalty amount => .penalty amount

section Connection

variable {w : Wallet} {now : ℤ}

/-- The event of an update is the one whose delta it checks. -/
lemma updateEvent_delta (row : CurrencyRuntimeRow) (options : UpdateCurrencyOptions) :
    (Wallet.updateEvent row options).map (fun event => event.map (·.deltaAmount)) =
      Wallet.updateEventDelta row options := by
  unfold Wallet.updateEvent Wallet.updateEventDelta
  cases options.amount with
  | none => rfl
  | some amount =>
    dsimp only
    cases (BigInt.min amount row.maxAmount).checkedSub row.currentAmount <;> rfl

/-- **The rows an operation leaves** are those its embedding without events leaves. -/
theorem logged_exec (op : BalanceOperation) (hop : ∀ options, op ≠ .update true options) :
    (w.logged now op).map (·.wallet) = (w.exec now op.operation).map (·.wallet) := by
  have hlock : ∀ (f : CurrencyRuntimeRow → Except String Left)
      (g : CurrencyRuntimeRow → Except String Outcome),
      (∀ row, (f row).map (·.wallet) = (g row).map (·.wallet)) →
        (w.lockRuntime now >>= f).map (·.wallet) = (w.lockRuntime now >>= g).map (·.wallet) := by
    intro f g h
    cases w.lockRuntime now with
    | error e => rfl
    | ok row => exact h row
  cases op with
  | cost amount =>
    refine hlock _ _ fun row => ?_
    cases currencyCostChange row.currentAmount row.maxAmount amount <;> rfl
  | add delta =>
    refine hlock _ _ fun row => ?_
    cases addCurrencyAmount row.currentAmount row.maxAmount delta <;> rfl
  | update inCaller options =>
    cases inCaller with
    | true => exact absurd rfl (hop options)
    | false =>
      refine hlock _ _ fun row => ?_
      dsimp only
      rw [← updateEvent_delta row options]
      cases Wallet.updateEvent row options with
      | error e => rfl
      | ok event =>
        simp only [Bind.bind, Except.bind, Except.map]
        cases (w.withTeam (applyCurrencyUpdate row options now w.team)).shown now <;> rfl
  | staffAdjust delta =>
    refine hlock _ _ fun row => ?_
    dsimp only
    split
    · rfl
    · cases strictCurrencyNext row.currentAmount row.maxAmount delta with
      | overflow => rfl
      | aboveMax => rfl
      | next next =>
        simp only [Bind.bind, Except.bind]
        cases (w.withTeam { w.team with amount := next, utimeAt := now }).shown now <;> rfl
  | adminUpdate options =>
    refine hlock _ _ fun row => ?_
    simp only [Bind.bind, Except.bind]
    cases (w.withTeam (applyCurrencyUpdate row options now w.team)).shown now <;> rfl
  | penalty amount =>
    simp only [Wallet.logged, Wallet.penaltyLogged, BalanceOperation.operation, Wallet.exec,
      Wallet.penalty, Bind.bind, Except.bind]
    cases purchaseAmount w.currency w.team now with
    | error e => rfl
    | ok before =>
      dsimp only
      cases BigInt.cast (before.val - amount.val) <;> rfl

end Connection

/-! ## Reachable rows -/

/-- The rows the operations lead to: a row is created with the initial amount of a valid
configuration, and a configuration is updated by valid ones only. -/
inductive Reachable : Wallet → Prop where
  | created (c : CurrencyRow) (feature : GameFeature) (now : ℤ)
      (h : validCurrencyData c.name c.slug c.prec c.initAmount c.maxAmount = true) :
      Reachable ⟨c, ⟨c.initAmount, 0, c.initHidden, now⟩, feature⟩
  | balance {w : Wallet} (now : ℤ) (op : BalanceOperation) (h : Reachable w) :
      Reachable (w.leaves now op).wallet
  | operation {w : Wallet} {out : Outcome} (now : ℤ) (op : Operation) (h : Reachable w)
      (hdata : ∀ data effectiveAt, op = .updateCurrency data effectiveAt →
        validCurrencyData data.name data.slug data.prec data.initAmount data.maxAmount = true)
      (hexec : w.exec now op = .ok out) : Reachable out.wallet

section Reachable

variable {w : Wallet} {now : ℤ}

/-- An operation that is no configuration keeps the currency. -/
lemma exec_currency {op : Operation} {out : Outcome} (h : w.exec now op = .ok out)
    (hop : ∀ data effectiveAt, op ≠ .updateCurrency data effectiveAt) :
    out.wallet.currency = w.currency := by
  by_cases hcharge : op.IsCharge
  · obtain ⟨_, -, -, htouched⟩ := Wallet.exec_charge h hcharge
    exact htouched.1
  · by_cases hset : ∃ state effectiveAt, op = .setState state effectiveAt
    · obtain ⟨state, effectiveAt, rfl⟩ := hset
      obtain ⟨team, -, h⟩ := bind_eq_ok.mp h
      obtain rfl := pure_eq_ok.mp h
      rfl
    · push Not at hset
      obtain ⟨_, -, -, htouched⟩ := Wallet.exec_runtime h hcharge hop hset
      exact htouched.1

/-- A balance operation keeps the currency. -/
lemma leaves_currency (op : BalanceOperation) : (w.leaves now op).wallet.currency = w.currency := by
  unfold Wallet.leaves
  cases h : w.logged now op with
  | error e => rfl
  | ok left =>
    by_cases hop : ∃ options, op = .update true options
    · obtain ⟨options, rfl⟩ := hop
      obtain ⟨row, -, h⟩ := bind_eq_ok.mp h
      dsimp only at h
      split at h
      · obtain rfl := pure_eq_ok.mp h
        rfl
      · obtain ⟨_, -, h⟩ := bind_eq_ok.mp h
        obtain rfl := pure_eq_ok.mp h
        rfl
    · push Not at hop
      have hexec : (w.logged now op).map (·.wallet) = (w.exec now op.operation).map (·.wallet) :=
        logged_exec op hop
      rw [h] at hexec
      obtain ⟨out, hout, hwallet⟩ := map_eq_ok.mp hexec.symm
      have hwallet : out.wallet = left.wallet := hwallet
      show left.wallet.currency = w.currency
      rw [← hwallet]
      refine exec_currency hout fun data effectiveAt he => ?_
      cases op <;> cases he

/-- **The maximum of a reachable row is not negative**, by induction on how it is reached. -/
lemma Reachable.maxAmount_nonneg (h : Reachable w) : 0 ≤ w.currency.maxAmount.val := by
  induction h with
  | created c feature now h => exact le_of_validCurrencyData h
  | balance now op h ih =>
    rw [leaves_currency]
    exact ih
  | operation now op h hdata hexec ih =>
    by_cases hop : ∃ data effectiveAt, op = .updateCurrency data effectiveAt
    · obtain ⟨data, effectiveAt, rfl⟩ := hop
      obtain ⟨team, -, hout⟩ := bind_eq_ok.mp hexec
      obtain rfl := pure_eq_ok.mp hout
      exact le_of_validCurrencyData (hdata data effectiveAt rfl)
    · push Not at hop
      rw [exec_currency hexec hop]
      exact ih

end Reachable

/-! ## What the events tell -/

/-- The operation has left the balance as it was and logged nothing, or the event it has logged
tells the change exactly: `before` is the available balance under the row lock, `after` the amount
stored, and either delta their difference. -/
def Accounted (w : Wallet) (now : ℤ) (left : Left) : Prop :=
  match left.event with
  | none => left.wallet.available now = w.available now
  | some event => w.available now = .ok event.before ∧ event.after = left.wallet.team.amount ∧
      event.after.val = event.before.val + event.deltaAmount.val ∧
      event.after.val = event.before.val + event.delta.val

/-- The growth after an update fits. -/
def GrowthFits (w : Wallet) (options : UpdateCurrencyOptions) : Prop :=
  BigInt.InRange (w.currency.growth.val + (options.teamGrowth.getD w.team.growth).val)

/-- The amount an update sets, cut to the maximum, less the available balance fits. -/
def DifferenceFits (w : Wallet) (current amount : BigInt) : Prop :=
  BigInt.InRange (min amount.val w.currency.maxAmount.val - current.val)

/-- The inputs for which an operation is accounted for. An update that sets the growth only finds
the balance within the maximum; an update that sets the amount finds it so that the difference
fits, where it does not refuse it; a penalty that the statement can compute finds the balance that
is available. -/
def Accountable (w : Wallet) (now : ℤ) : BalanceOperation → Prop
  | .cost _ | .add _ | .staffAdjust _ => True
  | .update inCaller options => ∀ current, w.available now = .ok current →
      match options.amount with
      | some amount => inCaller = true → DifferenceFits w current amount
      | none => options.teamGrowth ≠ none → GrowthFits w options →
          current.val ≤ w.currency.maxAmount.val
  | .adminUpdate options => ∀ current, w.available now = .ok current → GrowthFits w options →
      match options.amount with
      | some amount => DifferenceFits w current amount
      | none => options.teamGrowth ≠ none → current.val ≤ w.currency.maxAmount.val
  | .penalty amount =>
      let a := w.team.amount.val
      let n := minutes w.team.utimeAt now
      let g := w.currency.growth.val + w.team.growth.val
      let least := leastGrown a n g w.currency.maxAmount.val
      BigInt.InRange g → BigInt.InRange least → BigInt.InRange (least - amount.val) →
        match w.feature.state with
        | .opened => min a 0 ≤ a + n * g
        | .closed => a ≤ w.currency.maxAmount.val ∧
            (n * g = 0 ∨ a = w.currency.maxAmount.val ∧ 0 ≤ n * g)

section Accounts

variable {w : Wallet} {now : ℤ} {row : CurrencyRuntimeRow} {options : UpdateCurrencyOptions}

lemma available_eq_ok {b : BigInt} : w.available now = .ok b ↔
    runtimeAmount w.currency w.team w.feature.state now = .ok b := lockCurrencyRuntime_amount_eq_ok

/-- What the lock returns. -/
lemma lockRuntime_eq_ok (h : w.lockRuntime now = .ok row) :
    w.available now = .ok row.currentAmount ∧ row.maxAmount = w.currency.maxAmount := by
  obtain ⟨b, hb, rfl⟩ := lockCurrencyRuntime_eq_ok.mp h
  exact ⟨available_eq_ok.mpr hb, rfl⟩

lemma lockRuntime_error {e : String} (h : w.lockRuntime now = .error e) :
    w.available now = .error e := by rw [Wallet.available, h]; rfl

/-- A difference that wraps is none. -/
lemma eq_add_wrappingSub_iff {a b : BigInt} :
    a.val = b.val + (a.wrappingSub b).val ↔ BigInt.InRange (a.val - b.val) := by
  constructor
  · intro h
    have hr := (a.wrappingSub b).inRange
    have heq : a.val - b.val = (a.wrappingSub b).val := by omega
    rw [heq]
    exact hr
  · intro h
    rw [BigInt.wrappingSub_val h]
    omega

/-- An error leaves nothing to account for. -/
lemma accounted_refused : Accounted w now ⟨w, none⟩ := rfl

/-- An event with a checked difference. -/
lemma accounted_ofData {tc : TeamCurrencyRow} {before after deltaAmount : BigInt}
    (hbefore : w.available now = .ok before) (hafter : tc.amount = after)
    (hdelta : after.val = before.val + deltaAmount.val) :
    Accounted w now ⟨w.withTeam tc, some (.ofData before after deltaAmount)⟩ := by
  refine ⟨hbefore, hafter.symm, hdelta, ?_⟩
  refine eq_add_wrappingSub_iff.mpr ?_
  have hr := deltaAmount.inRange
  have heq : after.val - before.val = deltaAmount.val := by omega
  show BigInt.InRange (after.val - before.val)
  rw [heq]
  exact hr

/-- **Costs** are accounted for: both steps of the change are checked. -/
lemma accounted_cost (amount : BigInt) : Accounted w now (w.leaves now (.cost amount)) := by
  unfold Wallet.leaves Wallet.logged Wallet.costLogged
  cases hrow : w.lockRuntime now with
  | error e => exact accounted_refused
  | ok row =>
    obtain ⟨havail, -⟩ := lockRuntime_eq_ok hrow
    simp only [Bind.bind, Except.bind]
    cases hchange : currencyCostChange row.currentAmount row.maxAmount amount with
    | none => exact accounted_refused
    | some change =>
      obtain ⟨hdelta, hnext, -, -⟩ := currencyCostChange_eq_some.mp hchange
      exact accounted_ofData havail rfl (by omega)

/-- **Additions** are accounted for: the sum saturates and is clamped, and what is stored differs
from the balance by no more than what was added or taken. -/
lemma accounted_add (hmax : 0 ≤ w.currency.maxAmount.val) (delta : BigInt) :
    Accounted w now (w.leaves now (.add delta)) := by
  unfold Wallet.leaves Wallet.logged Wallet.addLogged
  cases hrow : w.lockRuntime now with
  | error e => exact accounted_refused
  | ok row =>
    obtain ⟨havail, hrowMax⟩ := lockRuntime_eq_ok hrow
    simp only [Bind.bind, Except.bind]
    cases hstored : addCurrencyAmount row.currentAmount row.maxAmount delta with
    | none => exact accounted_refused
    | some stored =>
      obtain ⟨-, hval⟩ := addCurrencyAmount_eq_some.mp hstored
      have hdelta := delta.inRange
      have hcurrent := row.currentAmount.inRange
      have hrange : BigInt.InRange (stored.val - row.currentAmount.val) := by
        rw [hrowMax] at hval
        unfold BigInt.InRange at *
        omega
      exact accounted_ofData havail rfl (eq_add_wrappingSub_iff.mpr hrange)

/-- **Staff adjustments** are accounted for: the sum is checked. -/
lemma accounted_staffAdjust (delta : BigInt) :
    Accounted w now (w.leaves now (.staffAdjust delta)) := by
  unfold Wallet.leaves Wallet.logged Wallet.staffAdjustLogged
  cases hrow : w.lockRuntime now with
  | error e => exact accounted_refused
  | ok row =>
    obtain ⟨havail, -⟩ := lockRuntime_eq_ok hrow
    simp only [Bind.bind, Except.bind]
    split_ifs with hclosed
    · exact accounted_refused
    · cases hnext : strictCurrencyNext row.currentAmount row.maxAmount delta with
      | overflow => exact accounted_refused
      | aboveMax => exact accounted_refused
      | next next =>
        dsimp only
        cases (w.withTeam { w.team with amount := next, utimeAt := now }).shown now with
        | error e => exact accounted_refused
        | ok b =>
          have hval : next.val = row.currentAmount.val + delta.val := by
            unfold strictCurrencyNext at hnext
            cases hsum : row.currentAmount.checkedAdd delta with
            | none => simp [hsum] at hnext
            | some sum =>
              simp only [hsum] at hnext
              split at hnext
              · cases hnext
              · obtain rfl := StrictCurrencyBoundary.next.inj hnext
                exact BigInt.checkedAdd_eq_some.mp hsum
          have hr := delta.inRange
          have heq : next.val - row.currentAmount.val = delta.val := by omega
          exact accounted_ofData havail rfl (eq_add_wrappingSub_iff.mpr (by rw [heq]; exact hr))

/-- The amount an update stores, if it stores one. -/
def storedAmount (row : CurrencyRuntimeRow) (options : UpdateCurrencyOptions) : BigInt :=
  BigInt.min (options.amount.getD row.currentAmount) row.maxAmount

/-- The rows an update leaves. -/
def updatedRows (w : Wallet) (now : ℤ) (row : CurrencyRuntimeRow)
    (options : UpdateCurrencyOptions) : Wallet :=
  w.withTeam (applyCurrencyUpdate row options now w.team)

/-- The balance after an update that sets the amount or the growth is what it has stored, where the
growth fits. -/
lemma available_updatedRows (hrowMax : row.maxAmount = w.currency.maxAmount)
    (hset : ¬ (options.amount = none ∧ options.teamGrowth = none)) {b : BigInt} :
    (updatedRows w now row options).available now = .ok b ↔
      (w.feature.state = .opened → GrowthFits w options) ∧ b = storedAmount row options := by
  have hteam : (updatedRows w now row options).team = ⟨storedAmount row options,
      options.teamGrowth.getD w.team.growth, options.hidden.getD w.team.hidden, now⟩ := by
    simp [updatedRows, Wallet.withTeam, applyCurrencyUpdate, storedAmount, hset]
  have hle : (storedAmount row options).val ≤ w.currency.maxAmount.val := by
    rw [storedAmount, BigInt.min_val, hrowMax]
    exact min_le_right _ _
  rw [available_eq_ok, hteam]
  show runtimeAmount w.currency _ w.feature.state now = .ok b ↔ _
  cases hs : w.feature.state with
  | closed =>
    rw [runtimeAmount_closed, Except.ok.injEq]
    simp [eq_comm]
  | opened =>
    have hn : minutes now now = 0 := by simp [minutes]
    rw [runtimeAmount_opened_eq_ok, hn, ← BigInt.val_inj]
    simp only [GrowthFits, forall_const, clampGrown, leastGrown, Int.zero_mul, Int.add_zero]
    constructor
    · rintro ⟨hfits, hb⟩
      exact ⟨hfits, by omega⟩
    · rintro ⟨hfits, hb⟩
      exact ⟨hfits, by omega⟩

/-- An update that sets neither the amount nor the growth keeps the balance. -/
lemma available_of_hidden (ha : options.amount = none) (hg : options.teamGrowth = none) :
    (updatedRows w now row options).available now = w.available now := by
  have hteam : (updatedRows w now row options).team =
      { w.team with hidden := options.hidden.getD w.team.hidden } := by
    simp [updatedRows, Wallet.withTeam, applyCurrencyUpdate, ha, hg]
  unfold Wallet.available Wallet.lockRuntime
  rw [hteam]
  rfl

/-- What is shown after an update needs the growth to fit, and no more. -/
lemma exists_shown_iff (hrow : w.lockRuntime now = .ok row) :
    (∃ b, (updatedRows w now row options).shown now = .ok b) ↔ GrowthFits w options := by
  obtain ⟨havail, hrowMax⟩ := lockRuntime_eq_ok hrow
  constructor
  · rintro ⟨b, hb⟩
    exact (getCurrencyInfo_amount_eq_ok.mp hb).1
  · intro hgrowth
    have hb : ∃ b, (updatedRows w now row options).available now = .ok b := by
      by_cases hset : options.amount = none ∧ options.teamGrowth = none
      · exact ⟨_, (available_of_hidden hset.1 hset.2).trans havail⟩
      · exact ⟨_, (available_updatedRows hrowMax hset).mpr ⟨fun _ => hgrowth, rfl⟩⟩
    obtain ⟨b, hb⟩ := hb
    exact ⟨b, getCurrencyInfo_amount_eq_ok.mpr ⟨hgrowth, available_eq_ok.mp hb⟩⟩

/-- **An update without an amount** is accounted for just if it does not cut the balance. -/
lemma accounted_noAmount_iff (hrow : w.lockRuntime now = .ok row) (ha : options.amount = none)
    (hgrowth : GrowthFits w options) :
    Accounted w now ⟨updatedRows w now row options, none⟩ ↔
      (options.teamGrowth ≠ none → row.currentAmount.val ≤ w.currency.maxAmount.val) := by
  obtain ⟨havail, hrowMax⟩ := lockRuntime_eq_ok hrow
  show (updatedRows w now row options).available now = w.available now ↔ _
  by_cases hg : options.teamGrowth = none
  · simp [available_of_hidden ha hg, hg]
  · rw [havail, available_updatedRows hrowMax (fun h => hg h.2), ← BigInt.val_inj,
      storedAmount, BigInt.min_val, hrowMax, ha, Option.getD_none]
    simp only [hgrowth, implies_true, true_and, hg, ne_eq, not_false_eq_true, forall_const]
    omega

/-- **An update with an amount** that logs a difference which may wrap. -/
lemma accounted_amount_iff {amount : BigInt} (hrow : w.lockRuntime now = .ok row)
    (ha : options.amount = some amount) {deltaAmount : BigInt}
    (hdelta : deltaAmount = (storedAmount row options).wrappingSub row.currentAmount) :
    Accounted w now ⟨updatedRows w now row options,
        some (.ofData row.currentAmount (storedAmount row options) deltaAmount)⟩ ↔
      DifferenceFits w row.currentAmount amount := by
  obtain ⟨havail, hrowMax⟩ := lockRuntime_eq_ok hrow
  have hstored : (storedAmount row options).val = min amount.val w.currency.maxAmount.val := by
    rw [storedAmount, BigInt.min_val, hrowMax, ha, Option.getD_some]
  have hteam : (updatedRows w now row options).team.amount = storedAmount row options := by
    simp [updatedRows, Wallet.withTeam, applyCurrencyUpdate, storedAmount, ha]
  rw [DifferenceFits, ← hstored, ← eq_add_wrappingSub_iff]
  constructor
  · rintro ⟨-, -, -, h⟩
    exact h
  · intro h
    exact ⟨havail, hteam.symm, by rw [hdelta]; exact h, h⟩

/-- **Administrators' updates**: their delta is a plain difference. -/
lemma accounted_adminUpdate_iff : Accounted w now (w.leaves now (.adminUpdate options)) ↔
    Accountable w now (.adminUpdate options) := by
  unfold Wallet.leaves Wallet.logged Wallet.adminUpdateLogged Accountable
  cases hrow : w.lockRuntime now with
  | error e =>
    have havail := lockRuntime_error hrow
    simp only [Bind.bind, Except.bind, havail, reduceCtorEq, false_implies, implies_true, iff_true]
    exact accounted_refused
  | ok row =>
    obtain ⟨havail, hrowMax⟩ := lockRuntime_eq_ok hrow
    simp only [Bind.bind, Except.bind, havail, Except.ok.injEq, forall_eq']
    cases hshown : (w.withTeam (applyCurrencyUpdate row options now w.team)).shown now with
    | error e =>
      have hgrowth : ¬ GrowthFits w options := by
        intro hgrowth
        obtain ⟨b, hb⟩ := (exists_shown_iff hrow).mpr hgrowth
        rw [updatedRows, hshown] at hb
        cases hb
      simp only [hgrowth, false_implies, iff_true]
      exact accounted_refused
    | ok b =>
      have hgrowth : GrowthFits w options := (exists_shown_iff hrow).mp ⟨b, hshown⟩
      simp only [hgrowth, forall_const]
      cases ha : options.amount with
      | none =>
        simp only [pure, Except.pure, Wallet.adminUpdateEvent, ha]
        exact accounted_noAmount_iff hrow ha hgrowth
      | some amount =>
        have hstored : storedAmount row options = BigInt.min amount row.maxAmount := by
          rw [storedAmount, ha, Option.getD_some]
        simp only [pure, Except.pure, Wallet.adminUpdateEvent, ha, ← hstored]
        by_cases hsame : storedAmount row options = row.currentAmount
        · -- no event: the balance is what it was
          have hfits : DifferenceFits w row.currentAmount amount := by
            have hval := congrArg BigInt.val hsame
            rw [hstored, BigInt.min_val, hrowMax] at hval
            rw [DifferenceFits, hval, Int.sub_self]
            decide
          simp only [hsame, ne_eq, not_true_eq_false, if_false, hfits, iff_true]
          refine (available_updatedRows hrowMax (by simp [ha])).mpr ?_ |>.trans havail.symm
          exact ⟨fun _ => hgrowth, hsame.symm⟩
        · rw [if_pos hsame]
          exact accounted_amount_iff hrow ha rfl

/-- The event of an update that sets the amount is refused just if its difference does not fit. -/
lemma updateEvent_some {amount : BigInt} (hrow : w.lockRuntime now = .ok row)
    (ha : options.amount = some amount) :
    (DifferenceFits w row.currentAmount amount ∧ ∃ delta : BigInt,
      Wallet.updateEvent row options =
        .ok (some (.ofData row.currentAmount (storedAmount row options) delta)) ∧
      (storedAmount row options).val = row.currentAmount.val + delta.val) ∨
    (¬ DifferenceFits w row.currentAmount amount ∧
      ∃ e, Wallet.updateEvent row options = .error e) := by
  obtain ⟨-, hrowMax⟩ := lockRuntime_eq_ok hrow
  have hstored : storedAmount row options = BigInt.min amount row.maxAmount := by
    rw [storedAmount, ha, Option.getD_some]
  have hfits : DifferenceFits w row.currentAmount amount ↔
      BigInt.InRange ((storedAmount row options).val - row.currentAmount.val) := by
    rw [DifferenceFits, hstored, BigInt.min_val, hrowMax]
  simp only [Wallet.updateEvent, ha, ← hstored]
  cases hsub : (storedAmount row options).checkedSub row.currentAmount with
  | none => exact .inr ⟨fun h => BigInt.ofInt?_eq_none.mp hsub (hfits.mp h), _, rfl⟩
  | some delta =>
    have hdelta := BigInt.checkedSub_eq_some.mp hsub
    refine .inl ⟨hfits.mpr ?_, delta, rfl, by omega⟩
    rw [← hdelta]
    exact delta.inRange

/-- What an update leaves once its event is inserted. -/
lemma accounted_afterEvent_iff {event : Option LoggedChange} (hrow : w.lockRuntime now = .ok row)
    (hevent : Wallet.updateEvent row options = .ok event) :
    Accounted w now (match (do
        let _ ← (updatedRows w now row options).shown now
        return ⟨updatedRows w now row options, event⟩ : Except String Left) with
      | .ok left => left
      | .error _ => ⟨w, none⟩) ↔
    (options.amount = none → options.teamGrowth ≠ none → GrowthFits w options →
      row.currentAmount.val ≤ w.currency.maxAmount.val) := by
  obtain ⟨havail, -⟩ := lockRuntime_eq_ok hrow
  cases hshown : (updatedRows w now row options).shown now with
  | error e =>
    have hgrowth : ¬ GrowthFits w options := by
      intro hgrowth
      obtain ⟨b, hb⟩ := (exists_shown_iff hrow).mpr hgrowth
      rw [hshown] at hb
      cases hb
    simp only [hgrowth, false_implies, implies_true, iff_true]
    exact accounted_refused
  | ok b =>
    have hgrowth : GrowthFits w options := (exists_shown_iff hrow).mp ⟨b, hshown⟩
    cases ha : options.amount with
    | none =>
      simp only [Wallet.updateEvent, ha] at hevent
      obtain rfl := Except.ok.inj hevent
      simp only [hgrowth, forall_const]
      exact accounted_noAmount_iff hrow ha hgrowth
    | some amount =>
      simp only [reduceCtorEq, false_implies, iff_true]
      rcases updateEvent_some hrow ha with ⟨-, delta, hok, hdelta⟩ | ⟨-, e, herr⟩
      · obtain rfl := Except.ok.inj (hevent.symm.trans hok)
        refine accounted_ofData havail ?_ hdelta
        simp [applyCurrencyUpdate, storedAmount, ha]
      · rw [hevent] at herr
        cases herr

/-- **Updates of backend functions**: their delta is checked, but after the row is written. -/
lemma accounted_update_iff (inCaller : Bool) :
    Accounted w now (w.leaves now (.update inCaller options)) ↔
      Accountable w now (.update inCaller options) := by
  cases hrow : w.lockRuntime now with
  | error e =>
    have hleaves : w.leaves now (.update inCaller options) = ⟨w, none⟩ := by
      cases inCaller <;>
        simp only [Wallet.leaves, Wallet.logged, Wallet.updateLogged, Wallet.updateConnLogged, hrow,
          Bind.bind, Except.bind]
    rw [hleaves, Accountable, lockRuntime_error hrow]
    simp only [reduceCtorEq, false_implies, implies_true, iff_true]
    exact accounted_refused
  | ok row =>
    obtain ⟨havail, hrowMax⟩ := lockRuntime_eq_ok hrow
    rw [Accountable, havail]
    simp only [Except.ok.injEq, forall_eq']
    cases hevent : Wallet.updateEvent row options with
    | ok event =>
      have hleaves : w.leaves now (.update inCaller options) = (match (do
            let _ ← (updatedRows w now row options).shown now
            return ⟨updatedRows w now row options, event⟩ : Except String Left) with
          | .ok left => left
          | .error _ => ⟨w, none⟩) := by
        cases inCaller <;>
          simp only [Wallet.leaves, Wallet.logged, Wallet.updateLogged, Wallet.updateConnLogged,
            hrow, hevent, Bind.bind, Except.bind] <;>
          rfl
      rw [hleaves, accounted_afterEvent_iff hrow hevent]
      cases ha : options.amount with
      | none => simp only [forall_const]
      | some amount =>
        rcases updateEvent_some hrow ha with ⟨hfits, -⟩ | ⟨-, e, herr⟩
        · simp [hfits]
        · rw [hevent] at herr
          cases herr
    | error e =>
      cases ha : options.amount with
      | none => simp [Wallet.updateEvent, ha] at hevent
      | some amount =>
        rcases updateEvent_some hrow ha with ⟨-, delta, hok, -⟩ | ⟨hfits, -⟩
        · rw [hevent] at hok
          cases hok
        · cases inCaller with
          | false =>
            have hleaves : w.leaves now (.update false options) = ⟨w, none⟩ := by
              simp only [Wallet.leaves, Wallet.logged, Wallet.updateLogged, hrow, hevent,
                Bind.bind, Except.bind]
            rw [hleaves]
            simp only [Bool.false_eq_true, false_implies, iff_true]
            exact accounted_refused
          | true =>
            -- the row is written and the caller's transaction goes on
            have hleaves : w.leaves now (.update true options) =
                ⟨updatedRows w now row options, none⟩ := by
              simp only [Wallet.leaves, Wallet.logged, Wallet.updateConnLogged, hrow, hevent,
                Bind.bind, Except.bind]
              rfl
            rw [hleaves]
            simp only [forall_const, hfits, iff_false]
            intro hkept
            have hkept : (updatedRows w now row options).available now = w.available now := hkept
            rw [havail, available_updatedRows hrowMax (by simp [ha])] at hkept
            have hval := congrArg BigInt.val hkept.2
            rw [storedAmount, ha, Option.getD_some, BigInt.min_val, hrowMax] at hval
            apply hfits
            rw [DifferenceFits, ← hval, Int.sub_self]
            decide

/-- The balance the statement of a penalty computes is the available one just where it is not below
the stored amount that is negative and, in a closed feature, there is no growth to credit. -/
lemma available_eq_least_iff (hmax : 0 ≤ w.currency.maxAmount.val) {before : BigInt}
    (hgrowth : BigInt.InRange (w.currency.growth.val + w.team.growth.val))
    (hbefore : before.val = leastGrown w.team.amount.val (minutes w.team.utimeAt now)
      (w.currency.growth.val + w.team.growth.val) w.currency.maxAmount.val) :
    w.available now = .ok before ↔
      match w.feature.state with
      | .opened => min w.team.amount.val 0 ≤ w.team.amount.val +
          minutes w.team.utimeAt now * (w.currency.growth.val + w.team.growth.val)
      | .closed => w.team.amount.val ≤ w.currency.maxAmount.val ∧
          (minutes w.team.utimeAt now * (w.currency.growth.val + w.team.growth.val) = 0 ∨
            w.team.amount.val = w.currency.maxAmount.val ∧
              0 ≤ minutes w.team.utimeAt now * (w.currency.growth.val + w.team.growth.val)) := by
  rw [available_eq_ok]
  cases hs : w.feature.state with
  | opened =>
    rw [runtimeAmount_opened_eq_ok, hbefore]
    simp only [hgrowth, true_and, clampGrown, leastGrown]
    generalize minutes w.team.utimeAt now * (w.currency.growth.val + w.team.growth.val) = x
    omega
  | closed =>
    rw [runtimeAmount_closed, Except.ok.injEq, ← BigInt.val_inj, hbefore]
    simp only [leastGrown]
    generalize minutes w.team.utimeAt now * (w.currency.growth.val + w.team.growth.val) = x
    omega

/-- **Penalties**: their statement computes the balance in its own way. -/
lemma accounted_penalty_iff (hmax : 0 ≤ w.currency.maxAmount.val) {amount : BigInt}
    (hamount : 0 < amount.val) :
    Accounted w now (w.leaves now (.penalty amount)) ↔ Accountable w now (.penalty amount) := by
  unfold Accountable
  dsimp only
  cases hbefore : purchaseAmount w.currency w.team now with
  | error e =>
    have hleaves : w.leaves now (.penalty amount) = ⟨w, none⟩ := by
      simp only [Wallet.leaves, Wallet.logged, Wallet.penaltyLogged, hbefore, Bind.bind,
        Except.bind]
    rw [hleaves]
    refine ⟨fun _ hgrowth hleast => ?_, fun _ => accounted_refused⟩
    have hok := purchaseAmount_eq_ok.mpr ⟨hgrowth, (BigInt.saturate_val hleast)⟩
    rw [hbefore] at hok
    cases hok
  | ok before =>
    obtain ⟨hgrowth, hval⟩ := purchaseAmount_eq_ok.mp hbefore
    rw [← hval]
    simp only [hgrowth, before.inRange, forall_const]
    cases hafter : BigInt.cast (before.val - amount.val) with
    | error e =>
      have hleaves : w.leaves now (.penalty amount) = ⟨w, none⟩ := by
        simp only [Wallet.leaves, Wallet.logged, Wallet.penaltyLogged, hbefore, hafter, Bind.bind,
          Except.bind]
      rw [hleaves]
      have hrange := (BigInt.cast_eq_error.mp hafter).1
      simp only [hrange, false_implies, iff_true]
      exact accounted_refused
    | ok after =>
      have hafterVal := BigInt.cast_eq_ok.mp hafter
      have hrange : BigInt.InRange (before.val - amount.val) := hafterVal ▸ after.inRange
      simp only [hrange, forall_const]
      rw [← available_eq_least_iff hmax hgrowth hval]
      have hleaves : w.leaves now (.penalty amount) =
          ⟨w.withTeam { w.team with amount := after, utimeAt := now },
            some ⟨before, after, (0 : BigInt).wrappingSub amount,
              (0 : BigInt).wrappingSub amount⟩⟩ := by
        simp only [Wallet.leaves, Wallet.logged, Wallet.penaltyLogged, hbefore, hafter, Bind.bind,
          Except.bind]
        rfl
      rw [hleaves]
      have hneg : ((0 : BigInt).wrappingSub amount).val = -amount.val := by
        rw [BigInt.wrappingSub_val]
        · simp
        · have hr := amount.inRange
          unfold BigInt.InRange at *
          simp only [BigInt.zero_val]
          omega
      constructor
      · rintro ⟨h, -⟩
        exact h
      · intro h
        refine ⟨h, rfl, ?_, ?_⟩ <;>
        · dsimp only
          rw [hneg]
          omega

end Accounts

/-- **An operation is accounted for just where its inputs are accountable**: on every reachable row,
for every argument the interface admits. -/
theorem accounted_iff_accountable {w : Wallet} (now : ℤ) {op : BalanceOperation}
    (h : Reachable w) (hop : op.Admitted) :
    Accounted w now (w.leaves now op) ↔ Accountable w now op := by
  have hmax := h.maxAmount_nonneg
  cases op with
  | cost amount => exact iff_of_true (accounted_cost amount) trivial
  | add delta => exact iff_of_true (accounted_add hmax delta) trivial
  | update inCaller options => exact accounted_update_iff inCaller
  | staffAdjust delta => exact iff_of_true (accounted_staffAdjust delta) trivial
  | adminUpdate options => exact accounted_adminUpdate_iff
  | penalty amount => exact accounted_penalty_iff hmax hop

/-- A currency without a bound of its own, whose teams begin with the greatest amount. -/
def unbounded : CurrencyRow :=
  ⟨1, 1, "points", "Points", 0, BigInt.saturate 9223372036854775807, false,
    BigInt.saturate 9223372036854775807, 0⟩

/-- A team's row of it. -/
def fullRow : Wallet := ⟨unbounded, ⟨unbounded.initAmount, 0, unbounded.initHidden, 0⟩, ⟨.opened, 0⟩⟩

lemma reachable_fullRow : Reachable fullRow := .created unbounded ⟨.opened, 0⟩ 0 (by decide +kernel)

/-- A penalty of 5. -/
theorem accounted_iff_accountable_penalty :
    Accounted fullRow 0 (fullRow.leaves 0 (.penalty 5)) ↔ Accountable fullRow 0 (.penalty 5) := by
  have hadmitted : BalanceOperation.Admitted (.penalty 5) := by
    show 0 < (5 : BigInt).val
    decide
  exact accounted_iff_accountable 0 reachable_fullRow hadmitted

/-- **The delta of an administrator's update wraps**: from the greatest balance to -2 it is logged
as a growth. -/
theorem admin_update_wraps : Reachable fullRow ∧
    ¬ Accounted fullRow 0
      (fullRow.leaves 0 (.adminUpdate ⟨some (BigInt.saturate (-2)), none, none⟩)) := by
  refine ⟨reachable_fullRow, ?_⟩
  have hevent : (fullRow.leaves 0
      (.adminUpdate ⟨some (BigInt.saturate (-2)), none, none⟩)).event =
        some ⟨BigInt.saturate 9223372036854775807, BigInt.saturate (-2),
          BigInt.saturate 9223372036854775807, BigInt.saturate 9223372036854775807⟩ := by
    decide +kernel
  intro h
  rw [Accounted, hevent] at h
  have hsum := h.2.2.1
  revert hsum
  decide

end Currency
