import Mathlib.Order.MinMax
import RbphBackend.Currency.Events

set_option relaxedAutoImplicit false
set_option autoImplicit false

/-!
# Updates of a currency's configuration

Balances are evaluated with the current growth and maximum, from the instant their row was written.
`update_currency` settles the rows where the growth changes; where only the maximum changes, what
has grown beyond the old maximum is evaluated with the new one.

## Main definitions

* `Currency.KeepsBalance` — the balance after an update is the one before it, cut to the new maximum.
* `Currency.Reconfigurable` — the inputs for which it is.

## Main results

* `Currency.keepsBalance_iff` — the balance is kept exactly there.
-/

namespace Currency

open Numeric

/-- The balance available after an update at an instant is the one available before it, cut to the
new maximum. -/
def KeepsBalance (w : Wallet) (data : RbCurrencyUpdateData) (at_ : ℤ) (w' : Wallet) : Prop :=
  ∀ before, w.available at_ = .ok before →
    ∃ after, w'.available at_ = .ok after ∧ after.val = min before.val data.maxAmount.val

/-- The growth has not been changed and the maximum has not been raised above a balance it cuts;
or the growth has been changed and the row was not written later than the update, unless its clock
makes no difference between the bounds. -/
def Reconfigurable (w : Wallet) (data : RbCurrencyUpdateData) (at_ : ℤ) : Prop :=
  let a := w.team.amount.val
  let m := w.currency.maxAmount.val
  let n := minutes w.team.utimeAt at_
  let g := w.currency.growth.val + w.team.growth.val
  let g' := data.growth.val + w.team.growth.val
  BigInt.InRange g → BigInt.InRange g' ∧
    if w.currency.growth = data.growth then data.maxAmount.val ≤ m ∨ a + n * g ≤ m
    else 0 ≤ n ∨ max (min a 0) (min (min a m + n * g') data.maxAmount.val) =
      max (min a 0) (min (a + n * g) (min m data.maxAmount.val))

section Balance

variable {w : Wallet} {data : RbCurrencyUpdateData} {at_ : ℤ} {out : Outcome}

/-- The balance of an open feature. -/
lemma available_opened_eq_ok (hopen : w.feature.state = .opened) {b : BigInt} :
    w.available at_ = .ok b ↔ BigInt.InRange (w.currency.growth.val + w.team.growth.val) ∧
      b.val = clampGrown w.team.amount.val (minutes w.team.utimeAt at_)
        (w.currency.growth.val + w.team.growth.val) w.currency.maxAmount.val := by
  rw [available_eq_ok, hopen]
  exact runtimeAmount_opened_eq_ok

/-- There is a balance just if the growth fits. -/
lemma exists_available_iff (at_ : ℤ) (hopen : w.feature.state = .opened) {x : ℤ} :
    (∃ b, w.available at_ = .ok b ∧ b.val = x) ↔
      BigInt.InRange (w.currency.growth.val + w.team.growth.val) ∧
        clampGrown w.team.amount.val (minutes w.team.utimeAt at_)
          (w.currency.growth.val + w.team.growth.val) w.currency.maxAmount.val = x := by
  constructor
  · rintro ⟨b, hb, rfl⟩
    obtain ⟨hgrowth, hval⟩ := (available_opened_eq_ok hopen).mp hb
    exact ⟨hgrowth, hval.symm⟩
  · rintro ⟨hgrowth, rfl⟩
    have hrange := inRange_clampGrown w.team.amount w.currency.maxAmount
      (minutes w.team.utimeAt at_) (w.currency.growth.val + w.team.growth.val)
    exact ⟨⟨_, hrange.1, hrange.2⟩, (available_opened_eq_ok hopen).mpr ⟨hgrowth, rfl⟩, rfl⟩

/-- **What an accepted update leaves**: the rows with the new configuration, settled where the
growth has changed. -/
lemma configure_eq_ok (hopen : w.feature.state = .opened)
    (h : w.configure data at_ = .ok out) :
    out.wallet.feature = w.feature ∧ out.wallet.currency.growth = data.growth ∧
      out.wallet.currency.maxAmount = data.maxAmount ∧
      ((w.currency.growth = data.growth ∧ out.wallet.team = w.team) ∨
        (w.currency.growth ≠ data.growth ∧
          settleCurrencyGrowth w.currency w.team at_ = .ok out.wallet.team)) := by
  obtain ⟨team, hteam, h⟩ := bind_eq_ok.mp h
  obtain rfl := pure_eq_ok.mp h
  refine ⟨rfl, rfl, rfl, ?_⟩
  unfold Wallet.settledOnUpdate at hteam
  by_cases hgrowth : w.currency.growth = data.growth
  · rw [if_neg (by simp [hgrowth])] at hteam
    exact .inl ⟨hgrowth, (Except.ok.inj hteam).symm⟩
  · rw [if_pos ⟨hgrowth, hopen⟩] at hteam
    exact .inr ⟨hgrowth, hteam⟩

/-- The whole minutes since an instant that lies ahead are negative. -/
lemma minutes_neg_iff {since now : ℤ} : minutes since now < 0 ↔ now < since := by
  unfold minutes
  omega

/-- A balance that has been cut once is cut again. -/
lemma min_clamp {a y m m' : ℤ} (hm' : 0 ≤ m') :
    min (max (min a 0) (min y m)) m' = max (min a 0) (min y (min m m')) := by
  rw [min_max_distrib_right, min_eq_left ((min_le_right a 0).trans hm'), min_assoc]

/-- What has grown is evaluated with another maximum. -/
lemma clamp_of_max_iff {a x m m' : ℤ} (hm : 0 ≤ m) (hm' : 0 ≤ m') :
    max (min a 0) (min (a + x) m') = min (max (min a 0) (min (a + x) m)) m' ↔
      m' ≤ m ∨ a + x ≤ m := by
  rw [min_clamp hm']
  constructor
  · intro h
    by_cases hcut : m' ≤ m
    · exact .inl hcut
    · rw [min_eq_left (le_of_not_ge hcut)] at h
      omega
  · rintro (h | h)
    · rw [min_eq_right h]
    · rw [← min_assoc, min_eq_left h]

/-- A settled balance is cut. -/
lemma clamp_of_settled {b m' : ℤ} (hm' : 0 ≤ m') : max (min b 0) (min b m') = min b m' := by
  omega

/-- A balance settled at an instant before its clock. -/
lemma clamp_of_ahead_iff {a x y m m' : ℤ} (hm : 0 ≤ m) (hm' : 0 ≤ m') :
    max (min (max (min a 0) (min a m)) 0) (min (max (min a 0) (min a m) + y) m') =
        min (max (min a 0) (min (a + x) m)) m' ↔
      max (min a 0) (min (min a m + y) m') = max (min a 0) (min (a + x) (min m m')) := by
  have hstored : max (min a 0) (min a m) = min a m := by omega
  have hleast : min (min a m) 0 = min a 0 := by omega
  rw [hstored, hleast, min_clamp hm']

/-- **A balance is kept by an update just if the update is one that settles or cuts it**: on every
reachable row of a currency whose feature is open, for every valid configuration. -/
theorem keepsBalance_iff (h : Reachable w) (hopen : w.feature.state = .opened)
    (hdata : validCurrencyData data.name data.slug data.prec data.initAmount data.maxAmount = true)
    (hok : w.configure data at_ = .ok out) :
    KeepsBalance w data at_ out.wallet ↔ Reconfigurable w data at_ := by
  have hm := h.maxAmount_nonneg
  have hm' := le_of_validCurrencyData hdata
  obtain ⟨hfeature, hgrowth', hmax', hteam⟩ := configure_eq_ok hopen hok
  have hopen' : out.wallet.feature.state = .opened := by rw [hfeature, hopen]
  unfold Reconfigurable KeepsBalance
  dsimp only
  by_cases hfits : BigInt.InRange (w.currency.growth.val + w.team.growth.val)
  · obtain ⟨before, hbefore, hval⟩ := (exists_available_iff at_ hopen).mpr ⟨hfits, rfl⟩
    simp only [hbefore, Except.ok.injEq, forall_eq', hfits, forall_const]
    rw [exists_available_iff at_ hopen', hval, hgrowth', hmax']
    rcases hteam with ⟨hsame, hteam⟩ | ⟨hchanged, hsettled⟩
    · -- the row stays, and what was cut is evaluated anew
      rw [hteam, if_pos hsame, ← hsame]
      simp only [hfits, true_and]
      exact clamp_of_max_iff hm hm'
    · obtain ⟨-, hamount, hteamGrowth, -, hclock⟩ := settleCurrencyGrowth_eq_ok.mp hsettled
      rw [if_neg hchanged, hteamGrowth]
      refine and_congr_right fun hfits' => ?_
      rw [hamount, hclock]
      by_cases hn : 0 ≤ minutes w.team.utimeAt at_
      · -- the row is settled at the instant it is read
        have hle : w.team.utimeAt ≤ at_ := not_lt.mp fun hlt => by
          have := minutes_neg_iff.mpr hlt
          omega
        have hzero : minutes (max w.team.utimeAt at_) at_ = 0 := by
          rw [max_eq_right hle]
          simp [minutes]
        rw [hzero, max_eq_left hn]
        simp only [hn, true_or, iff_true]
        unfold clampGrown leastGrown
        rw [Int.zero_mul, Int.add_zero]
        exact clamp_of_settled hm'
      · have hneg : minutes w.team.utimeAt at_ < 0 := not_le.mp hn
        have hlt : at_ < w.team.utimeAt := minutes_neg_iff.mp hneg
        rw [max_eq_left (le_of_lt hlt), max_eq_right (le_of_lt hneg)]
        simp only [hn, false_or]
        unfold clampGrown leastGrown
        rw [Int.zero_mul, Int.add_zero]
        exact clamp_of_ahead_iff hm hm'
  · have hnone : ∀ before, w.available at_ ≠ .ok before := by
      intro before hbefore
      exact hfits ((available_opened_eq_ok hopen).mp hbefore).1
    simp [hnone, hfits]

end Balance

/-- A currency that grows by 10 a minute, up to 100. -/
def capped : CurrencyRow := ⟨1, 1, "points", "Points", 10, 0, false, 100, 0⟩

/-- A team's row of it, written at 0. -/
def cappedRow : Wallet := ⟨capped, ⟨0, 0, capped.initHidden, 0⟩, ⟨.opened, 0⟩⟩

lemma reachable_cappedRow : Reachable cappedRow := .created capped ⟨.opened, 0⟩ 0 (by decide +kernel)

/-- The configuration with another growth and another maximum. -/
def cappedData (growth maxAmount : BigInt) : RbCurrencyUpdateData :=
  ⟨"Points", "points", growth, 0, false, 0, maxAmount⟩

/-- Twice the growth, 20 minutes later. -/
theorem keepsBalance_iff_doubled : ∃ out,
    cappedRow.configure (cappedData 20 100) 1200000000 = .ok out ∧
      (KeepsBalance cappedRow (cappedData 20 100) 1200000000 out.wallet ↔
        Reconfigurable cappedRow (cappedData 20 100) 1200000000) := by
  have hok : cappedRow.configure (cappedData 20 100) 1200000000 =
      .ok ⟨none, ⟨{ capped with growth := 20 }, ⟨100, 0, false, 1200000000⟩, ⟨.opened, 0⟩⟩⟩ := by
    decide +kernel
  exact ⟨_, hok, keepsBalance_iff reachable_cappedRow rfl (by decide +kernel) hok⟩

/-- **A raised maximum credits what it has cut off**: 20 minutes after it was written the row has
grown to its maximum of 100, and with a maximum of 1000 its balance is 200. -/
theorem raised_max_credits : Reachable cappedRow ∧ ∃ out,
    cappedRow.configure (cappedData 10 1000) 1200000000 = .ok out ∧
      ¬ KeepsBalance cappedRow (cappedData 10 1000) 1200000000 out.wallet := by
  have hok : cappedRow.configure (cappedData 10 1000) 1200000000 =
      .ok ⟨none, ⟨{ capped with maxAmount := 1000 }, cappedRow.team, ⟨.opened, 0⟩⟩⟩ := by
    decide +kernel
  refine ⟨reachable_cappedRow, _, hok, ?_⟩
  intro hkeeps
  have hbefore : cappedRow.available 1200000000 = .ok 100 := by decide +kernel
  obtain ⟨after, hafter, hval⟩ := hkeeps 100 hbefore
  have hgrown : (Wallet.mk { capped with maxAmount := 1000 } cappedRow.team
      ⟨.opened, 0⟩).available 1200000000 = .ok 200 := by decide +kernel
  obtain rfl := Except.ok.inj (hgrown.symm.trans hafter)
  revert hval
  decide

end Currency
