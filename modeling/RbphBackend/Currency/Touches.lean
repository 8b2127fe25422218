import RbphBackend.Currency.Operations

set_option relaxedAutoImplicit false
set_option autoImplicit false

/-!
# Writes that change no balance

Every write of a team's row floors the minutes that have passed and starts the clock again, so a
write that leaves the balance as it is takes the fraction of the current minute away from the
growth to come. Only a write a whole number of minutes after the row's clock has no such effect.
This file compares two runs of the same operations, one of which has such extra writes.

## Main definitions

* `Currency.Touch` — the operations that leave the balance as it is.
* `Currency.TwoRuns` — two runs that differ by touches on whole minutes.
* `Currency.SameGrowth` — two rows one of which has credited some whole minutes of growth.

## Main results

* `Currency.shown_eq_of_twoRuns` — both runs show the same balance.
-/

namespace Currency

open Numeric

/-- The operations that leave the balance as it is. -/
inductive Touch where
  | costZero
  | addZero
  | settle
  | updateCurrent
  deriving DecidableEq

/-- What a touch computes and leaves, at `NOW()`. -/
def Touch.exec (w : Wallet) (now : ℤ) : Touch → Except String Outcome
  | .costZero => w.costCurrency now 0
  | .addZero => w.addCurrency now 0
  | .settle => (settleCurrencyGrowth w.currency w.team now).map fun tc => ⟨none, w.withTeam tc⟩
  | .updateCurrent => do
    let row ← w.lockRuntime now
    w.updateCurrency now ⟨some row.currentAmount, none, none⟩

/-- The rows after a touch; where it fails they stay. -/
def Touch.after (w : Wallet) (now : ℤ) (touch : Touch) : Wallet :=
  match touch.exec w now with
  | .ok out => out.wallet
  | .error _ => w

/-- The game's and the team's growth together. -/
def Wallet.growth (w : Wallet) : ℤ := w.currency.growth.val + w.team.growth.val

/-- An operation of both runs: the feature stays as it is, an accepted configuration has a maximum
that is not negative, and a penalty or purchase is not made while the growth is negative. -/
def Operation.Common (w : Wallet) (now : ℤ) : Operation → Prop
  | .setState .. => False
  | .updateCurrency data effectiveAt => effectiveAt = now ∧ 0 ≤ data.maxAmount.val
  | op => op.IsCharge → 0 ≤ w.growth

/-- The row's clock is a whole number of minutes back. -/
def Wallet.OnTheMinute (w : Wallet) (now : ℤ) : Prop := (now - w.team.utimeAt) % 60000000 = 0

/-- What has accrued does not exceed the maximum. -/
def Wallet.BelowMax (w : Wallet) (now : ℤ) : Prop :=
  w.team.amount.val + minutes w.team.utimeAt now * w.growth ≤ w.currency.maxAmount.val

/-- Two runs from `w₀` at `t₀`: the first executes operations, the second executes the same ones
and touches in between. -/
inductive TwoRuns (w₀ : Wallet) (t₀ : ℤ) : ℤ → Wallet → Wallet → Prop where
  | start : TwoRuns w₀ t₀ t₀ w₀ w₀
  | op {t : ℤ} {w w' : Wallet} (h : TwoRuns w₀ t₀ t w w') (now : ℤ) (op : Operation)
      (ht : t ≤ now) (hop : op.Common w now) : TwoRuns w₀ t₀ now (w.after now op) (w'.after now op)
  | touch {t : ℤ} {w w' : Wallet} (h : TwoRuns w₀ t₀ t w w') (now : ℤ) (touch : Touch)
      (ht : t ≤ now) (hmin : w'.OnTheMinute now) (hmax : w'.BelowMax now) :
      TwoRuns w₀ t₀ now w (touch.after w' now)

/-! ## Rows that have credited some minutes -/

/-- The second row has credited `k` whole minutes of the growth that the first has still to
credit. -/
structure SameGrowth (t : ℤ) (w w' : Wallet) : Prop where
  currency : w'.currency = w.currency
  feature : w'.feature = w.feature
  teamGrowth : w'.team.growth = w.team.growth
  hidden : w'.team.hidden = w.team.hidden
  opened : w.feature.state = .opened
  maxAmount : 0 ≤ w.currency.maxAmount.val
  utimeAt : w.team.utimeAt ≤ t ∧ w'.team.utimeAt ≤ t
  minutes : ∃ k : ℤ, 0 ≤ k ∧ w'.team.utimeAt = w.team.utimeAt + 60000000 * k ∧
    w'.team.amount.val = max (min w.team.amount.val 0) (w.team.amount.val + k * w.growth)

namespace SameGrowth

variable {t now : ℤ} {w w' : Wallet}

lemma refl (ho : w.feature.state = .opened) (hm : 0 ≤ w.currency.maxAmount.val)
    (hu : w.team.utimeAt ≤ t) : SameGrowth t w w :=
  ⟨rfl, rfl, rfl, rfl, ho, hm, ⟨hu, hu⟩, 0, by omega, by omega, by simp⟩

lemma mono (h : SameGrowth t w w') (ht : t ≤ now) : SameGrowth now w w' :=
  { h with utimeAt := ⟨h.utimeAt.1.trans ht, h.utimeAt.2.trans ht⟩ }

lemma growth_eq (h : SameGrowth t w w') : w'.growth = w.growth := by
  rw [Wallet.growth, Wallet.growth, h.currency, h.teamGrowth]

/-- Growth of one sign over the minutes before and after. -/
private lemma sign (g k j : ℤ) (hk : 0 ≤ k) (hj : 0 ≤ j) :
    (0 ≤ g ∧ 0 ≤ k * g ∧ 0 ≤ j * g) ∨ (g < 0 ∧ k * g ≤ 0 ∧ j * g ≤ 0) := by
  rcases Int.lt_or_le g 0 with hg | hg
  · exact .inr ⟨hg, Int.mul_nonpos_of_nonneg_of_nonpos hk hg.le,
      Int.mul_nonpos_of_nonneg_of_nonpos hj hg.le⟩
  · exact .inl ⟨hg, Int.mul_nonneg hk hg, Int.mul_nonneg hj hg⟩

/-- What is credited is the growth, unless it has fallen under the least balance. -/
private lemma credited_cases {g a x y : ℤ}
    (hs : 0 ≤ g ∧ 0 ≤ x ∧ 0 ≤ y ∨ g < 0 ∧ x ≤ 0 ∧ y ≤ 0) :
    (0 ≤ x ∧ 0 ≤ y ∧ max (min a 0) (a + x) = a + x) ∨
      (x ≤ 0 ∧ y ≤ 0 ∧ (a + x ≤ min a 0 ∧ max (min a 0) (a + x) = min a 0 ∨
        min a 0 ≤ a + x ∧ max (min a 0) (a + x) = a + x)) := by
  rcases hs with ⟨-, hx, hy⟩ | ⟨-, hx, hy⟩
  · exact .inl ⟨hx, hy, max_eq_right (by omega)⟩
  · rcases le_total (a + x) (min a 0) with hle | hle
    · exact .inr ⟨hx, hy, .inl ⟨hle, max_eq_left hle⟩⟩
    · exact .inr ⟨hx, hy, .inr ⟨hle, max_eq_right hle⟩⟩

/-- What is clamped is the same, whether a part of the growth has been credited or none. -/
private lemma clamp_of_credited {g a x y m : ℤ}
    (hs : 0 ≤ g ∧ 0 ≤ x ∧ 0 ≤ y ∨ g < 0 ∧ x ≤ 0 ∧ y ≤ 0) (hm : 0 ≤ m) :
    max (min (max (min a 0) (a + x)) 0) (min (max (min a 0) (a + x) + y) m) =
      max (min a 0) (min (a + (x + y)) m) := by
  replace hs := credited_cases (a := a) hs
  rcases hs with ⟨hx, hy, hc⟩ | ⟨hx, hy, ⟨hle, hc⟩ | ⟨hle, hc⟩⟩
  · rw [hc, Int.add_assoc, max_eq_right (by omega), max_eq_right (by omega)]
  · rw [hc, max_eq_left (by omega), max_eq_left (by omega), min_assoc, min_self]
  · have hmin : min (a + x) 0 = min a 0 := by omega
    rw [hc, Int.add_assoc, hmin]

/-- Below the maximum it is not clamped. -/
private lemma clamp_of_credited_le {g a x y m : ℤ}
    (hs : 0 ≤ g ∧ 0 ≤ x ∧ 0 ≤ y ∨ g < 0 ∧ x ≤ 0 ∧ y ≤ 0)
    (hmax : max (min a 0) (a + x) + y ≤ m) :
    max (min (max (min a 0) (a + x)) 0) (min (max (min a 0) (a + x) + y) m) =
      max (min a 0) (a + (x + y)) := by
  rw [min_eq_left hmax]
  replace hs := credited_cases (a := a) hs
  rcases hs with ⟨hx, hy, hc⟩ | ⟨hx, hy, ⟨hle, hc⟩ | ⟨hle, hc⟩⟩ <;> rw [hc] <;> omega

/-- The minutes since the first row's clock are those credited and those since the second's. -/
private lemma minutes_split (h : SameGrowth t w w') (ht : t ≤ now) :
    ∃ k j : ℤ, 0 ≤ k ∧ 0 ≤ j ∧ Currency.minutes w.team.utimeAt now = k + j ∧
      Currency.minutes w'.team.utimeAt now = j ∧
      w'.team.amount.val = max (min w.team.amount.val 0) (w.team.amount.val + k * w.growth) := by
  obtain ⟨k, hk, hu, ha⟩ := h.minutes
  have hle := h.utimeAt.2
  refine ⟨k, Currency.minutes w'.team.utimeAt now, hk, ?_, ?_, rfl, ha⟩
  · unfold Currency.minutes
    omega
  · unfold Currency.minutes
    omega

/-- **The runtime balance is the same.** -/
lemma runtimeAmount_eq (h : SameGrowth t w w') (ht : t ≤ now) :
    runtimeAmount w'.currency w'.team w'.feature.state now =
      runtimeAmount w.currency w.team w.feature.state now := by
  obtain ⟨k, j, hk, hj, hn, hn', ha⟩ := h.minutes_split ht
  have hm := h.maxAmount
  have hclamp : clampGrown w'.team.amount.val j w.growth w.currency.maxAmount.val =
      clampGrown w.team.amount.val (k + j) w.growth w.currency.maxAmount.val := by
    simp only [clampGrown, leastGrown, Int.add_mul, ha]
    exact clamp_of_credited (sign w.growth k j hk hj) hm
  have hg : growthSum w.currency w'.team = growthSum w.currency w.team := by
    rw [growthSum, growthSum, h.teamGrowth]
  rw [h.feature, h.currency, h.opened]
  simp only [runtimeAmount, hg, hn, hn']
  cases hgs : growthSum w.currency w.team with
  | error e => rfl
  | ok g =>
    have hgv : g.val = w.growth := growthSum_eq_ok.mp hgs
    simp only [Bind.bind, Except.bind, hgv, hclamp]

/-- **The balance of a purchase is the same**, the growth not negative. -/
lemma purchaseAmount_eq (h : SameGrowth t w w') (ht : t ≤ now) (hg0 : 0 ≤ w.growth) :
    purchaseAmount w'.currency w'.team now = purchaseAmount w.currency w.team now := by
  obtain ⟨k, j, hk, hj, hn, hn', ha⟩ := h.minutes_split ht
  have hleast : leastGrown w'.team.amount.val j w.growth w.currency.maxAmount.val =
      leastGrown w.team.amount.val (k + j) w.growth w.currency.maxAmount.val := by
    have hx : 0 ≤ k * w.growth := Int.mul_nonneg hk hg0
    simp only [leastGrown, Int.add_mul, ha]
    generalize k * w.growth = x at *
    generalize j * w.growth = y at *
    omega
  have hg : growthSum w.currency w'.team = growthSum w.currency w.team := by
    rw [growthSum, growthSum, h.teamGrowth]
  rw [h.currency]
  simp only [purchaseAmount, hg, hn, hn']
  cases hgs : growthSum w.currency w.team with
  | error e => rfl
  | ok g =>
    have hgv : g.val = w.growth := growthSum_eq_ok.mp hgs
    simp only [Bind.bind, Except.bind, hgv, hleast]

lemma lockRuntime_eq (h : SameGrowth t w w') (ht : t ≤ now) :
    w'.lockRuntime now = w.lockRuntime now := by
  rw [Wallet.lockRuntime, Wallet.lockRuntime, lockCurrencyRuntime, lockCurrencyRuntime,
    h.runtimeAmount_eq ht, h.currency]

/-- **The balance shown is the same.** -/
lemma shown_eq (h : SameGrowth t w w') (ht : t ≤ now) : w'.shown now = w.shown now := by
  have hg : growthSum w.currency w'.team = growthSum w.currency w.team := by
    rw [growthSum, growthSum, h.teamGrowth]
  have hr := h.runtimeAmount_eq ht
  rw [h.currency] at hr
  rw [Wallet.shown, Wallet.shown, getCurrencyInfo, getCurrencyInfo, h.currency, hg, hr]
  cases growthSum w.currency w.team <;>
    cases runtimeAmount w.currency w.team w.feature.state now <;> rfl

/-- Writing an amount and the clock makes the rows equal. -/
lemma withTeam_eq (h : SameGrowth t w w') (amount : BigInt) (u : ℤ) :
    w'.withTeam { w'.team with amount := amount, utimeAt := u } =
      w.withTeam { w.team with amount := amount, utimeAt := u } := by
  simp only [Wallet.withTeam, h.currency, h.feature, h.teamGrowth, h.hidden]

/-- Two rows written with one amount at `now` are one row. -/
lemma written (h : SameGrowth t w w') (amount : BigInt) :
    SameGrowth now (w.withTeam { w.team with amount := amount, utimeAt := now })
      (w'.withTeam { w'.team with amount := amount, utimeAt := now }) := by
  rw [h.withTeam_eq]
  exact refl h.opened h.maxAmount (le_refl now)

/-- An update keeps the relation. -/
lemma updated (h : SameGrowth t w w') (ht : t ≤ now) (row : CurrencyRuntimeRow)
    (options : UpdateCurrencyOptions) :
    SameGrowth now (w.withTeam (applyCurrencyUpdate row options now w.team))
      (w'.withTeam (applyCurrencyUpdate row options now w'.team)) := by
  by_cases hn : options.amount = none ∧ options.teamGrowth = none
  · -- neither the amount nor the growth is written
    have hupd : ∀ tc, applyCurrencyUpdate row options now tc =
        { tc with hidden := options.hidden.getD tc.hidden } := by
      intro tc
      simp [applyCurrencyUpdate, hn]
    have hm := h.mono ht
    rw [hupd, hupd]
    refine ⟨hm.currency, hm.feature, hm.teamGrowth, ?_, hm.opened, hm.maxAmount, hm.utimeAt,
      hm.minutes⟩
    exact congrArg (options.hidden.getD ·) hm.hidden
  · have hupd : applyCurrencyUpdate row options now w'.team =
        applyCurrencyUpdate row options now w.team := by
      simp [applyCurrencyUpdate, hn, h.teamGrowth, h.hidden]
    have hu : (applyCurrencyUpdate row options now w.team).utimeAt = now := by
      simp [applyCurrencyUpdate, hn]
    have hw : w'.withTeam (applyCurrencyUpdate row options now w'.team) =
        w.withTeam (applyCurrencyUpdate row options now w.team) := by
      rw [hupd, Wallet.withTeam, Wallet.withTeam, h.currency, h.feature]
    rw [hw]
    exact refl h.opened h.maxAmount hu.le

/-- Two computations of an outcome that fail together, or leave related rows. -/
private def Agree (now : ℤ) (x x' : Except String Outcome) : Prop :=
  (∃ e, x = .error e ∧ x' = .error e) ∨
    ∃ out out', x = .ok out ∧ x' = .ok out' ∧ SameGrowth now out.wallet out'.wallet

private lemma Agree.after {op : Operation} (h : SameGrowth now w w')
    (ha : Agree now (w.exec now op) (w'.exec now op)) :
    SameGrowth now (w.after now op) (w'.after now op) := by
  unfold Wallet.after
  rcases ha with ⟨e, hx, hx'⟩ | ⟨out, out', hx, hx', hr⟩
  · rw [hx, hx']; exact h
  · rw [hx, hx']; exact hr

/-- What follows the same successful computation agrees. -/
private lemma Agree.bind {α : Type} {x x' : Except String α} {f f' : α → Except String Outcome}
    (hx : x' = x) (hf : ∀ a, Agree now (f a) (f' a)) :
    Agree now (x >>= f) (x' >>= f') := by
  subst hx
  cases x' with
  | error e => exact .inl ⟨e, rfl, rfl⟩
  | ok a => exact hf a

private lemma Agree.ret {b b' : Option BigInt} {v v' : Wallet} (h : SameGrowth now v v') :
    Agree now (pure ⟨b, v⟩) (pure ⟨b', v'⟩) :=
  .inr ⟨_, _, rfl, rfl, h⟩

private lemma agree_cost (h : SameGrowth t w w') (ht : t ≤ now) (amount : BigInt) :
    Agree now (w.costCurrency now amount) (w'.costCurrency now amount) := by
  refine .bind (h.lockRuntime_eq ht) fun row => ?_
  cases currencyCostChange row.currentAmount row.maxAmount amount with
  | none => exact .ret (h.mono ht)
  | some change => exact .ret (h.written _)

private lemma agree_add (h : SameGrowth t w w') (ht : t ≤ now) (delta : BigInt) :
    Agree now (w.addCurrency now delta) (w'.addCurrency now delta) := by
  refine .bind (h.lockRuntime_eq ht) fun row => ?_
  cases addCurrencyAmount row.currentAmount row.maxAmount delta with
  | none => exact .inl ⟨_, rfl, rfl⟩
  | some stored => exact .ret (h.written _)

private lemma agree_update (h : SameGrowth t w w') (ht : t ≤ now)
    (options : UpdateCurrencyOptions) :
    Agree now (w.updateCurrency now options) (w'.updateCurrency now options) := by
  refine .bind (h.lockRuntime_eq ht) fun row => .bind rfl fun _ => ?_
  have hu := h.updated ht row options
  exact .bind (hu.shown_eq (le_refl now)) fun _ => .ret hu

private lemma agree_staffAdjust (h : SameGrowth t w w') (ht : t ≤ now) (delta : BigInt) :
    Agree now (w.staffAdjustCurrency now delta) (w'.staffAdjustCurrency now delta) := by
  refine .bind (h.lockRuntime_eq ht) fun row => ?_
  by_cases hc : w.team.hidden ∨ w.feature.state ≠ .opened
  · rw [if_pos hc, if_pos (by rwa [h.hidden, h.feature])]
    exact .ret (h.mono ht)
  · rw [if_neg hc, if_neg (by rwa [h.hidden, h.feature])]
    cases strictCurrencyNext row.currentAmount row.maxAmount delta with
    | overflow => exact .ret (h.mono ht)
    | aboveMax => exact .ret (h.mono ht)
    | next next =>
      have hw : SameGrowth now (w.withTeam { w.team with amount := next, utimeAt := now })
          (w'.withTeam { w'.team with amount := next, utimeAt := now }) := h.written next
      exact .bind (hw.shown_eq (le_refl now)) fun _ => .ret hw

private lemma agree_adminUpdate (h : SameGrowth t w w') (ht : t ≤ now)
    (options : UpdateCurrencyOptions) :
    Agree now (w.adminUpdateCurrency now options) (w'.adminUpdateCurrency now options) := by
  refine .bind (h.lockRuntime_eq ht) fun row => ?_
  have hu := h.updated ht row options
  exact .bind (hu.shown_eq (le_refl now)) fun _ => .ret hu

private lemma agree_penalty (h : SameGrowth t w w') (ht : t ≤ now) (hg : 0 ≤ w.growth)
    (amount : BigInt) : Agree now (w.penalty now amount) (w'.penalty now amount) :=
  .bind (h.purchaseAmount_eq ht hg) fun _ => .bind rfl fun _ => .ret (h.written _)

private lemma agree_charge (h : SameGrowth t w w') (ht : t ≤ now) (hg : 0 ≤ w.growth)
    (costAmount : BigInt) : Agree now (w.charge now costAmount) (w'.charge now costAmount) := by
  refine .bind (h.purchaseAmount_eq ht hg) fun current => ?_
  split
  · exact .bind rfl fun _ => .ret (h.written _)
  · exact .ret (h.mono ht)

/-- Settling makes the rows equal. -/
lemma settle_eq (h : SameGrowth t w w') (ht : t ≤ now) :
    settleCurrencyGrowth w'.currency w'.team now = settleCurrencyGrowth w.currency w.team now := by
  have hr := h.runtimeAmount_eq ht
  have hn : 0 ≤ Currency.minutes w.team.utimeAt now ∧ 0 ≤ Currency.minutes w'.team.utimeAt now := by
    obtain ⟨k, j, hk, hj, hn, hn', -⟩ := h.minutes_split ht
    omega
  have hu := h.utimeAt
  rw [h.feature, h.opened, h.currency] at hr
  simp only [runtimeAmount, growthSum, h.teamGrowth] at hr
  simp only [settleCurrencyGrowth, growthSum, h.currency, h.teamGrowth, h.hidden,
    max_eq_left hn.1, max_eq_left hn.2, max_eq_right (hu.1.trans ht), max_eq_right (hu.2.trans ht)]
  cases hg : BigInt.cast (w.currency.growth.val + w.team.growth.val) with
  | error e => rfl
  | ok g =>
    simp only [hg, Bind.bind, Except.bind] at hr ⊢
    rw [hr]

private lemma agree_configure (h : SameGrowth t w w') (ht : t ≤ now)
    (data : RbCurrencyUpdateData) (hmax : 0 ≤ data.maxAmount.val) :
    Agree now (w.configure data now) (w'.configure data now) := by
  have hm := h.mono ht
  by_cases hg : w.currency.growth = data.growth
  · have hs : ∀ v : Wallet, v.currency = w.currency → v.settledOnUpdate data now = .ok v.team := by
      intro v hv
      simp [Wallet.settledOnUpdate, hv, hg]
    rw [Wallet.configure, Wallet.configure, hs w rfl, hs w' h.currency, h.currency]
    refine .ret ⟨rfl, hm.feature, hm.teamGrowth, hm.hidden, hm.opened, hmax, hm.utimeAt, ?_⟩
    simpa only [Wallet.growth, hg] using hm.minutes
  · have hs : w.settledOnUpdate data now = settleCurrencyGrowth w.currency w.team now := by
      simp [Wallet.settledOnUpdate, hg, h.opened]
    have hs' : w'.settledOnUpdate data now = settleCurrencyGrowth w.currency w.team now := by
      rw [← h.settle_eq ht]
      simp [Wallet.settledOnUpdate, h.currency, hg, h.feature, h.opened]
    rw [Wallet.configure, Wallet.configure, hs, hs', h.currency, h.feature]
    cases hw : settleCurrencyGrowth w.currency w.team now with
    | error e => exact .inl ⟨e, rfl, rfl⟩
    | ok tc =>
      refine .ret (refl h.opened hmax ?_)
      have hu := (settleCurrencyGrowth_eq_ok.mp hw).2.2.2.2
      exact hu.le.trans (max_le hm.utimeAt.1 (le_refl now))

/-- **One operation** of both runs keeps the relation. -/
lemma op (h : SameGrowth t w w') (ht : t ≤ now) {op : Operation} (hop : op.Common w now) :
    SameGrowth now (w.after now op) (w'.after now op) := by
  refine Agree.after (h.mono ht) ?_
  cases op with
  | cost amount => exact agree_cost h ht amount
  | add delta => exact agree_add h ht delta
  | update options => exact agree_update h ht options
  | staffAdjust delta => exact agree_staffAdjust h ht delta
  | adminUpdate options => exact agree_adminUpdate h ht options
  | penalty amount => exact agree_penalty h ht (hop trivial) amount
  | purchaseHint costAmount => exact agree_charge h ht (hop trivial) costAmount
  | purchaseTicketMessage costAmount => exact agree_charge h ht (hop trivial) costAmount
  | updateCurrency data effectiveAt =>
    obtain ⟨rfl, hmax⟩ := hop
    exact agree_configure h ht data hmax
  | setState state effectiveAt => exact hop.elim

/-- What has accrued without exceeding the maximum is a balance below it. -/
private lemma le_maxAmount (h : SameGrowth t w w') (hmax : w'.BelowMax now) {b : BigInt}
    (hb : runtimeAmount w'.currency w'.team w'.feature.state now = .ok b) :
    b.val ≤ w'.currency.maxAmount.val := by
  rw [h.feature, h.opened, runtimeAmount_opened_eq_ok] at hb
  have hm := h.maxAmount
  rw [← h.currency] at hm
  rw [hb.2, clampGrown, leastGrown]
  unfold Wallet.BelowMax Wallet.growth at hmax
  omega

/-- What a touch leaves: nothing is written, or the runtime balance is, with the clock. -/
private lemma touch_cases (h : SameGrowth t w w') (ht : t ≤ now) (hmax : w'.BelowMax now)
    (touch : Touch) : touch.after w' now = w' ∨
      ∃ b, runtimeAmount w'.currency w'.team w'.feature.state now = .ok b ∧
        touch.after w' now = w'.withTeam { w'.team with amount := b, utimeAt := now } := by
  cases he : touch.exec w' now with
  | error e => exact .inl (by simp [Touch.after, he])
  | ok out =>
    have hafter : touch.after w' now = out.wallet := by simp [Touch.after, he]
    rw [hafter]
    cases touch with
    | costZero =>
      obtain ⟨row, hr, he⟩ := bind_eq_ok.mp he
      obtain ⟨b, hb, rfl⟩ := lockCurrencyRuntime_eq_ok.mp hr
      have hchange : currencyCostChange b w'.currency.maxAmount 0 = some ⟨b, 0⟩ :=
        currencyCostChange_eq_some.mpr (by simp)
      rw [hchange] at he
      obtain rfl := pure_eq_ok.mp he
      exact .inr ⟨b, hb, rfl⟩
    | addZero =>
      obtain ⟨row, hr, he⟩ := bind_eq_ok.mp he
      obtain ⟨b, hb, rfl⟩ := lockCurrencyRuntime_eq_ok.mp hr
      have hle := h.le_maxAmount hmax hb
      have hrange := b.inRange
      unfold BigInt.InRange at hrange
      have hadd : addCurrencyAmount b w'.currency.maxAmount 0 = some b :=
        addCurrencyAmount_eq_some.mpr (by simp only [BigInt.zero_val]; omega)
      rw [hadd] at he
      obtain rfl := pure_eq_ok.mp he
      exact .inr ⟨b, hb, rfl⟩
    | settle =>
      obtain ⟨tc, htc, rfl⟩ := map_eq_ok.mp he
      obtain ⟨hg, ha, hgrowth, hhidden, hu⟩ := settleCurrencyGrowth_eq_ok.mp htc
      have hn : 0 ≤ Currency.minutes w'.team.utimeAt now := by
        obtain ⟨k, j, -, hj, -, hn', -⟩ := h.minutes_split ht
        omega
      rw [max_eq_left hn] at ha
      rw [max_eq_right (h.utimeAt.2.trans ht)] at hu
      refine .inr ⟨tc.amount, ?_, ?_⟩
      · rw [h.feature, h.opened]
        exact runtimeAmount_opened_eq_ok.mpr ⟨hg, ha⟩
      · show w'.withTeam tc = w'.withTeam ⟨tc.amount, w'.team.growth, w'.team.hidden, now⟩
        rw [← hgrowth, ← hhidden, ← hu]
    | updateCurrent =>
      obtain ⟨row, hr, he⟩ := bind_eq_ok.mp he
      obtain ⟨row', hr', he⟩ := bind_eq_ok.mp he
      obtain rfl : row = row' := Except.ok.inj (hr.symm.trans hr')
      obtain ⟨_, -, he⟩ := bind_eq_ok.mp he
      obtain ⟨_, -, he⟩ := bind_eq_ok.mp he
      obtain rfl := pure_eq_ok.mp he
      obtain ⟨b, hb, rfl⟩ := lockCurrencyRuntime_eq_ok.mp hr
      have hmin : BigInt.min b w'.currency.maxAmount = b :=
        BigInt.ext (by rw [BigInt.min_val, min_eq_left (h.le_maxAmount hmax hb)])
      refine .inr ⟨b, hb, ?_⟩
      simp [applyCurrencyUpdate, hmin]

/-- **One touch** on a whole minute keeps the relation. -/
lemma touch (h : SameGrowth t w w') (ht : t ≤ now) (hmin : w'.OnTheMinute now)
    (hmax : w'.BelowMax now) (touch : Touch) : SameGrowth now w (touch.after w' now) := by
  rcases touch_cases h ht hmax touch with he | ⟨b, hb, he⟩
  · rw [he]; exact h.mono ht
  · rw [he]
    obtain ⟨k, hk, hu, ha⟩ := h.minutes
    have hle := h.utimeAt.2
    rw [h.feature, h.opened, runtimeAmount_opened_eq_ok] at hb
    obtain ⟨-, hb⟩ := hb
    unfold Wallet.OnTheMinute at hmin
    unfold Wallet.BelowMax at hmax
    obtain ⟨j, hj⟩ : ∃ j, Currency.minutes w'.team.utimeAt now = j := ⟨_, rfl⟩
    have hj0 : 0 ≤ j ∧ now = w'.team.utimeAt + 60000000 * j := by
      unfold Currency.minutes at hj
      omega
    refine ⟨h.currency, h.feature, h.teamGrowth, h.hidden, h.opened, h.maxAmount,
      ⟨h.utimeAt.1.trans ht, le_refl now⟩, k + j, by omega, ?_, ?_⟩
    · show now = w.team.utimeAt + 60000000 * (k + j)
      omega
    · show b.val = _
      rw [hj, h.growth_eq, ha] at hmax
      rw [hb, hj, ← Wallet.growth, h.growth_eq, clampGrown, leastGrown, ha, Int.add_mul]
      exact clamp_of_credited_le (sign w.growth k j hk hj0.1) hmax

end SameGrowth

/-! ## Both runs -/

/-- The two runs lead to rows one of which has credited some minutes of growth. -/
lemma TwoRuns.sameGrowth {w₀ : Wallet} {t₀ t : ℤ} {w w' : Wallet}
    (hopen : w₀.feature.state = .opened) (hmax : 0 ≤ w₀.currency.maxAmount.val)
    (hu : w₀.team.utimeAt ≤ t₀) (h : TwoRuns w₀ t₀ t w w') : SameGrowth t w w' := by
  induction h with
  | start => exact .refl hopen hmax hu
  | op _ now op ht hop ih => exact ih.op ht hop
  | touch _ now touch ht hmin hmax ih => exact ih.touch ht hmin hmax touch

/-- **Touches on whole minutes change no balance shown**: two runs over the same time with the
same operations, one of which has extra touches a whole number of minutes after the row's clock
and below the maximum, show the same balance at every later instant. -/
theorem shown_eq_of_twoRuns {w₀ : Wallet} {t₀ t : ℤ} {w w' : Wallet}
    (hopen : w₀.feature.state = .opened) (hmax : 0 ≤ w₀.currency.maxAmount.val)
    (hu : w₀.team.utimeAt ≤ t₀) (h : TwoRuns w₀ t₀ t w w') {now : ℤ} (ht : t ≤ now) :
    w'.shown now = w.shown now :=
  (h.sameGrowth hopen hmax hu).shown_eq ht

/-- A touch after two minutes, then a cost. -/
theorem shown_eq_of_twoRuns_cost :
    let w₀ : Wallet := ⟨points, ⟨100, 0, false, 0⟩, ⟨.opened, 0⟩⟩
    (((Touch.costZero).after w₀ 120000000).after 150000000 (.cost 5)).shown 200000000 =
      (w₀.after 150000000 (.cost 5)).shown 200000000 := by
  intro w₀
  have htouch : TwoRuns w₀ 0 120000000 w₀ (Touch.costZero.after w₀ 120000000) := by
    refine .touch .start 120000000 .costZero (by decide) ?_ ?_
    · show (120000000 - 0 : ℤ) % 60000000 = 0
      decide
    · show (100 : ℤ) + minutes 0 120000000 * (10 + 0) ≤ 1000000
      decide
  have hruns := htouch.op 150000000 (.cost 5) (by decide) fun h => h.elim
  have hle : (150000000 : ℤ) ≤ 200000000 := by decide
  have hshown := shown_eq_of_twoRuns rfl (by decide) (by decide) hruns hle
  exact hshown

/-- **Touches off the minute lose growth**: with a growth of 10 a minute, one touch after a minute
and a half makes the balance after two minutes 110 instead of 120. And a touch on the minute shows
in the balance of a penalty while the growth is negative: the row has been clamped at 0. -/
theorem touch_loses_growth :
    (Touch.costZero.after ⟨points, ⟨100, 0, false, 0⟩, ⟨.opened, 0⟩⟩ 90000000).shown 120000000 =
        .ok 110 ∧
      (⟨points, ⟨100, 0, false, 0⟩, ⟨.opened, 0⟩⟩ : Wallet).shown 120000000 = .ok 120 ∧
      ((Touch.costZero.after ⟨points, ⟨5, .saturate (-20), false, 0⟩, ⟨.opened, 0⟩⟩ 60000000).after
        120000000 (.penalty 3)).shown 120000000 = .ok (.saturate (-13)) ∧
      ((⟨points, ⟨5, .saturate (-20), false, 0⟩, ⟨.opened, 0⟩⟩ : Wallet).after
        120000000 (.penalty 3)).shown 120000000 = .ok (.saturate (-18)) := by
  decide

end Currency
