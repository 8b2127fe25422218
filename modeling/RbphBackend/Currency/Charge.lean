import RbphBackend.Database.Schema

set_option relaxedAutoImplicit false
set_option autoImplicit false

/-!
# The charge of a purchase

The statement with which a purchase of a hint or of a ticket message takes its price: it locks the
team's row, and writes it if the balance covers the price.

## Main definitions

* `Currency.chargeCurrency` — the statement.
* `Currency.Charged` — what it does where it takes the price.

## Main results

* `Currency.chargeCurrency_eq_ok` — it does nothing, or it takes the price.
-/

namespace Currency

open Concurrency ReadCommitted Numeric Database

/-- The `current` and `updated` queries of a charge. `eligible` is what the purchase asks of the
currency beyond the balance. -/
def chargeCurrency (team currency : Id) (costAmount : BigInt)
    (eligible : View → CurrencyRow → Bool) : Statement (Option CurrencyEventData) := fun v now =>
  match v (.teamCurrency team currency), v (.currency currency) with
  | some tc, some c =>
    if eligible v c then do
      let current ← purchaseAmount c tc now
      if costAmount.val ≤ 0 ∨ costAmount.val ≤ current.val then
        let after ← BigInt.cast (current.val - costAmount.val)
        return {
          val := some ⟨c.val.id, c.val.slug, c.val.name, c.val.prec, current, after⟩
          puts := [⟨.teamCurrency team currency, some { tc with amount := after, utimeAt := now }⟩,
            lockRow v (.currency currency)] }
      else return { val := none }
    else return { val := none }
  | _, _ => .ok { val := none }

/-- A charge of `costAmount` that takes the row from `tc` to `tc'`, as its event has it. -/
structure Charged (c : CurrencyRow) (costAmount : BigInt) (now : ℤ) (tc tc' : TeamCurrencyRow)
    (data : CurrencyEventData) : Prop where
  before : purchaseAmount c tc now = .ok data.before
  after : data.after.val = data.before.val - costAmount.val
  covered : costAmount.val ≤ 0 ∨ costAmount.val ≤ data.before.val
  row : tc' = { tc with amount := data.after, utimeAt := now }
  currency : data.id = c.id ∧ data.slug = c.slug ∧ data.name = c.name ∧ data.prec = c.prec

variable {team currency : Id} {costAmount : BigInt} {eligible : View → CurrencyRow → Bool}
  {v : View} {now : ℤ} {eff : Effect Val EventLogInput (Option CurrencyEventData)}

/-- **What a charge does**: nothing, or it takes the price from the row and locks the currency. -/
lemma chargeCurrency_eq_ok (h : chargeCurrency team currency costAmount eligible v now = .ok eff) :
    eff = { val := none } ∨ ∃ tc tc' c data, v (.teamCurrency team currency) = some tc ∧
      v (.currency currency) = some c ∧ eligible v c ∧ Charged c costAmount now tc tc' data ∧
      eff = {
        val := some data
        puts := [⟨.teamCurrency team currency, some tc'⟩, lockRow v (.currency currency)] } := by
  unfold chargeCurrency at h
  split at h
  · rename_i tc c htc hc
    split at h
    · rename_i helig
      obtain ⟨current, hcur, h⟩ := bind_eq_ok.mp h
      split at h
      · rename_i hcov
        obtain ⟨after, hafter, h⟩ := bind_eq_ok.mp h
        obtain rfl := pure_eq_ok.mp h
        refine .inr ⟨tc, _, c, _, htc, hc, helig, ⟨hcur, ?_, hcov, rfl, rfl, rfl, rfl, rfl⟩, rfl⟩
        exact BigInt.cast_eq_ok.mp hafter
      · exact .inl (pure_eq_ok.mp h).symm
    · exact .inl (pure_eq_ok.mp h).symm
  · exact .inl (Except.ok.inj h).symm

/-- The operation on the wallet is the same charge. -/
lemma charged_exec {w : Wallet} {tc' : TeamCurrencyRow} {data : CurrencyEventData}
    (h : Charged w.currency costAmount now w.team tc' data) :
    w.charge now costAmount = .ok ⟨some data.before, w.withTeam tc'⟩ := by
  unfold Wallet.charge
  rw [h.before]
  show (if costAmount.val ≤ 0 ∨ costAmount.val ≤ data.before.val then _ else _) = _
  rw [if_pos h.covered, BigInt.cast_eq_ok.mpr h.after, h.row]
  rfl

end Currency
