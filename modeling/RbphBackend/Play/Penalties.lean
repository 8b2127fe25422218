import Mathlib.Algebra.BigOperators.Group.List.Basic
import Mathlib.Algebra.Ring.Int.Defs
import RbphBackend.Concurrency.Solo
import RbphBackend.Play.Submit

set_option relaxedAutoImplicit false
set_option autoImplicit false

/-!
# The penalties of a wrong answer

A wrong answer starts a cooldown and takes from balances, in the transaction that stores it. The
seconds and the amounts are 64-bit numbers that an administrator has configured, and nothing bounds
them; where an instant or a balance leaves its range, the statement fails and the answer is rolled
back with it.

## Main definitions

* `Play.validatePenaltyCurrency` — the penalties that are accepted.
* `Play.penaltySeconds`, `Play.penaltyIn` — the cooldown, and what is taken from a balance in total.
* `Play.Payable`, `Play.CooldownFits` — the balances and the instant stay in range.
* `Play.Judged` — the call has come to a judgement.
* `Play.PenaltyKept` — the answer, its cooldown and its penalties are stored.

## Main results

* `Play.plays_applyPenalties`, `Play.halts_applyPenalties` — the loop over the penalties.
-/

namespace Play

open Concurrency ReadCommitted Numeric Database Currency
open Release (PuzzleRow)

/-! ## The configuration -/

/-- `validate_penalty_currency`, in a game with the currencies of `belongs`. -/
def validatePenaltyCurrency (belongs : Id → Bool) : Bool → List PenaltyRule → Bool
  | _, [] => true
  | hasCooldown, rule :: rules =>
    match rule.rtype with
    | .fixedTime | .linearTime =>
      if hasCooldown then false
      else if rule.args.head?.all fun value => decide (value.val < 0) then false
      else validatePenaltyCurrency belongs true rules
    | .currency =>
      match rule.args with
      | currencyId :: amount :: _ =>
        if currencyId.val ≤ 0 ∨ 2147483647 < currencyId.val ∨ amount.val ≤ 0 ∨
            !belongs currencyId.val.toNat then false
        else validatePenaltyCurrency belongs hasCooldown rules
      | _ => false
    | .no => validatePenaltyCurrency belongs hasCooldown rules

/-- The seconds of a cooldown, by a rule that gives them. -/
def PenaltyRule.seconds (failureCount : ℕ) (rule : PenaltyRule) : Option BigInt :=
  match rule.rtype with
  | .fixedTime => rule.args.head?
  | .linearTime => rule.args.head?.map fun x => BigInt.saturate (x.val * failureCount)
  | _ => none

/-- The seconds of the cooldown, by the last rule that gives them. -/
def penaltySeconds (failureCount : ℕ) (rules : List PenaltyRule) (seconds : Option BigInt) :
    Option BigInt :=
  rules.foldl (fun seconds rule => (rule.seconds failureCount).or seconds) seconds

/-- What a rule takes from the balance in a currency. -/
def PenaltyRule.amountIn (currency : Id) (rule : PenaltyRule) : ℤ :=
  match rule.rtype, rule.currencyArgs with
  | .currency, some (id, amount) => if id = currency then amount.val else 0
  | _, _ => 0

/-- What the rules take from the balance in a currency. -/
def penaltyIn (currency : Id) (rules : List PenaltyRule) : ℤ :=
  (rules.map (·.amountIn currency)).sum

/-- A rule that is accepted: its amount is positive, its seconds are not negative. -/
structure PenaltyRule.Proper (rule : PenaltyRule) : Prop where
  amount : rule.rtype = .currency →
    ∃ id amount, rule.currencyArgs = some (id, amount) ∧ 0 < amount.val
  seconds : rule.rtype = .fixedTime ∨ rule.rtype = .linearTime →
    ∀ x, rule.args.head? = some x → 0 ≤ x.val

lemma currencyArgs_eq {rule : PenaltyRule} {currencyId amount : BigInt} {args : List BigInt}
    (h : rule.args = currencyId :: amount :: args) (hlo : 0 ≤ currencyId.val)
    (hhi : currencyId.val ≤ 2147483647) :
    rule.currencyArgs = some (currencyId.val.toNat, amount) := by
  unfold PenaltyRule.currencyArgs
  rw [h]
  exact if_pos ⟨hlo, hhi⟩

/-- What is accepted is proper, rule by rule. -/
lemma proper_of_validatePenaltyCurrency {belongs : Id → Bool} {hasCooldown : Bool}
    {rules : List PenaltyRule} (h : validatePenaltyCurrency belongs hasCooldown rules = true) :
    ∀ rule ∈ rules, rule.Proper := by
  have hcooldown : ∀ {args : List BigInt}, ¬ args.head?.all (fun x => decide (x.val < 0)) = true →
      ∀ x, args.head? = some x → 0 ≤ x.val := by
    intro args hall x hx
    rw [hx] at hall
    simpa using hall
  induction rules generalizing hasCooldown with
  | nil => exact fun rule hrule => absurd hrule List.not_mem_nil
  | cons rule rules ih =>
    have hstep : rule.Proper ∧ ∃ hasCooldown',
        validatePenaltyCurrency belongs hasCooldown' rules = true := by
      rw [validatePenaltyCurrency] at h
      split at h
      · next htype =>
        split at h
        · cases h
        · split at h
          · cases h
          · next hall =>
            refine ⟨⟨fun hc => ?_, fun _ => hcooldown hall⟩, _, h⟩
            rw [htype] at hc
            cases hc
      · next htype =>
        split at h
        · cases h
        · split at h
          · cases h
          · next hall =>
            refine ⟨⟨fun hc => ?_, fun _ => hcooldown hall⟩, _, h⟩
            rw [htype] at hc
            cases hc
      · next htype =>
        split at h
        · next currencyId amount args hargs =>
          split at h
          · cases h
          · next hok =>
            refine ⟨⟨fun _ => ⟨_, amount, currencyArgs_eq hargs (by omega) (by omega), by omega⟩,
              fun hc => ?_⟩, _, h⟩
            rw [htype] at hc
            rcases hc with hc | hc
            · cases hc
            · cases hc
        · cases h
      · next htype =>
        refine ⟨⟨fun hc => ?_, fun hc => ?_⟩, _, h⟩
        · rw [htype] at hc
          cases hc
        · rw [htype] at hc
          rcases hc with hc | hc
          · cases hc
          · cases hc
    obtain ⟨hproper, hasCooldown', hrest⟩ := hstep
    intro r hr
    rcases List.mem_cons.1 hr with rfl | hr
    · exact hproper
    · exact ih hrest r hr

lemma PenaltyRule.Proper.amountIn_nonneg {rule : PenaltyRule} (h : rule.Proper) (currency : Id) :
    0 ≤ rule.amountIn currency := by
  unfold PenaltyRule.amountIn
  split
  · next id amount htype hargs =>
    obtain ⟨id', amount', hargs', hpos⟩ := h.amount htype
    rw [hargs] at hargs'
    cases hargs'
    split
    · exact hpos.le
    · exact le_refl 0
  · exact le_refl 0

lemma penaltyIn_cons (currency : Id) (rule : PenaltyRule) (rules : List PenaltyRule) :
    penaltyIn currency (rule :: rules) = rule.amountIn currency + penaltyIn currency rules := by
  rw [penaltyIn, List.map_cons, List.sum_cons, penaltyIn]

lemma penaltyIn_nonneg {rules : List PenaltyRule} (h : ∀ rule ∈ rules, rule.Proper)
    (currency : Id) : 0 ≤ penaltyIn currency rules := by
  induction rules with
  | nil => exact le_refl 0
  | cons rule rules ih =>
    rw [penaltyIn_cons]
    have hhead := (h rule List.mem_cons_self).amountIn_nonneg currency
    have htail := ih fun r hr => h r (List.mem_cons_of_mem rule hr)
    omega

lemma saturate_nonneg {x : ℤ} (h : 0 ≤ x) : 0 ≤ (BigInt.saturate x).val := by
  simp only [BigInt.saturate]
  omega

/-- The cooldown is not negative. -/
lemma penaltySeconds_nonneg {failureCount : ℕ} {rules : List PenaltyRule}
    (h : ∀ rule ∈ rules, rule.Proper) {seconds : Option BigInt}
    (hseconds : ∀ s, seconds = some s → 0 ≤ s.val) :
    ∀ s, penaltySeconds failureCount rules seconds = some s → 0 ≤ s.val := by
  induction rules generalizing seconds with
  | nil => exact hseconds
  | cons rule rules ih =>
    refine ih (fun r hr => h r (List.mem_cons_of_mem rule hr)) ?_
    intro s hs
    rcases Option.or_eq_some_iff.1 hs with hrule | ⟨_, hs⟩
    · have hproper := h rule List.mem_cons_self
      unfold PenaltyRule.seconds at hrule
      split at hrule
      · next htype => exact hproper.seconds (.inl htype) s hrule
      · next htype =>
        obtain ⟨x, hx, rfl⟩ := Option.map_eq_some_iff.1 hrule
        have hpos := hproper.seconds (.inr htype) x hx
        exact saturate_nonneg (Int.mul_nonneg hpos (Int.natCast_nonneg failureCount))
      · cases hrule
    · exact hseconds s hs

/-! ## Balances -/

section Loop

variable {t : Tid} {ctx : SubmitContext} {team : Id} {now : ℤ} {v : View}

/-- The balances that the rules take from stay in range. -/
def Payable (team : Id) (now : ℤ) (v : View) (rules : List PenaltyRule) : Prop :=
  ∀ currency tc c, v (.teamCurrency team currency) = some tc → v (.currency currency) = some c →
    0 < penaltyIn currency rules →
    ∃ b, purchaseAmount c.val tc now = .ok b ∧
      -9223372036854775808 ≤ b.val - penaltyIn currency rules

/-- The rows after a penalty has been taken from a balance. -/
def chargedRow (tc : TeamCurrencyRow) (after : BigInt) (now : ℤ) : TeamCurrencyRow :=
  { tc with amount := after, utimeAt := now }

/-- What was taken from a balance is what is found there at the same instant. -/
lemma purchaseAmount_chargedRow {c : CurrencyRow} {tc : TeamCurrencyRow} {b after : BigInt}
    {amount : ℤ} (hb : purchaseAmount c tc now = .ok b) (hafter : after.val = b.val - amount)
    (hamount : 0 ≤ amount) : purchaseAmount c (chargedRow tc after now) now = .ok after := by
  obtain ⟨hgrowth, hval⟩ := purchaseAmount_eq_ok.1 hb
  refine purchaseAmount_eq_ok.2 ⟨hgrowth, ?_⟩
  have hmax : b.val ≤ c.maxAmount.val := by
    rw [hval]
    exact min_le_right _ _
  have hminutes : minutes now now = 0 := by
    rw [minutes, sub_self]
    rfl
  show after.val = min (after.val + minutes now now * _) _
  rw [hminutes, Int.zero_mul, Int.add_zero]
  omega

/-- A team without the currency pays nothing. -/
lemma penalizeCurrency_none {id : Id} {amount : BigInt}
    (h : ∀ tc c, v (.teamCurrency team id) = some tc → v (.currency id) = some c → False) :
    penalizeCurrency team id amount v now = .ok { val := none } := by
  unfold penalizeCurrency
  cases htc : v (.teamCurrency team id) with
  | none => rfl
  | some tc =>
    cases hc : v (.currency id) with
    | none => rfl
    | some c => exact (h tc c htc hc).elim

lemma penalizeCurrency_ok {id : Id} {amount b after : BigInt} {tc : TeamCurrencyRow}
    {c : {c : CurrencyRow // c.id = id}} (htc : v (.teamCurrency team id) = some tc)
    (hc : v (.currency id) = some c) (hb : purchaseAmount c.val tc now = .ok b)
    (hafter : after.val = b.val - amount.val) :
    penalizeCurrency team id amount v now = .ok {
      val := some ⟨c.val.id, c.val.slug, c.val.name, c.val.prec, b, after⟩
      puts := [⟨.teamCurrency team id, some (chargedRow tc after now)⟩, lockRow v (.currency id)] } := by
  have hcast : BigInt.cast (b.val - amount.val) = .ok after := BigInt.cast_eq_ok.2 hafter
  simp only [penalizeCurrency, htc, hc, hb, Bind.bind, Except.bind, hcast]
  rfl

lemma penalizeCurrency_error {id : Id} {amount : BigInt} {tc : TeamCurrencyRow}
    {c : {c : CurrencyRow // c.id = id}} (htc : v (.teamCurrency team id) = some tc)
    (hc : v (.currency id) = some c)
    (h : ¬ ∃ b after : BigInt, purchaseAmount c.val tc now = .ok b ∧
      after.val = b.val - amount.val) :
    ∃ e, penalizeCurrency team id amount v now = .error e := by
  simp only [penalizeCurrency, htc, hc, Bind.bind, Except.bind]
  cases hb : purchaseAmount c.val tc now with
  | error e => exact ⟨e, rfl⟩
  | ok b =>
    cases hcast : BigInt.cast (b.val - amount.val) with
    | error e =>
      refine ⟨e, ?_⟩
      simp only [hcast]
    | ok after => exact absurd ⟨b, after, hb, BigInt.cast_eq_ok.1 hcast⟩ h

/-- What a penalty writes. -/
lemma applyPuts_charged {id : Id} {row : Option TeamCurrencyRow} :
    applyPuts [⟨.teamCurrency team id, row⟩, lockRow v (.currency id)] v =
      Function.update v (.teamCurrency team id) row := by
  funext k
  by_cases hk : k = .teamCurrency team id
  · subst hk
    simp [applyPuts, lockRow]
  · by_cases hc : k = .currency id
    · subst hc
      simp [applyPuts, lockRow, hk]
    · simp [applyPuts, lockRow, hk, hc]

/-- A balance is not the row of its currency. -/
lemma update_teamCurrency_currency (id : Id) (row : Option TeamCurrencyRow) (currency : Id) :
    Function.update v (.teamCurrency team id) row (.currency currency) = v (.currency currency) :=
  Function.update_of_ne (by simp) _ _

/-- What a rule takes from the balance of its currency. -/
lemma amountIn_self {rule : PenaltyRule} {id : Id} {amount : BigInt} (htype : rule.rtype = .currency)
    (hargs : rule.currencyArgs = some (id, amount)) : rule.amountIn id = amount.val := by
  unfold PenaltyRule.amountIn
  rw [htype, hargs]
  exact if_pos rfl

/-- It takes nothing from the others. -/
lemma amountIn_other {rule : PenaltyRule} {id currency : Id} {amount : BigInt}
    (htype : rule.rtype = .currency) (hargs : rule.currencyArgs = some (id, amount))
    (hne : currency ≠ id) : rule.amountIn currency = 0 := by
  unfold PenaltyRule.amountIn
  rw [htype, hargs]
  exact if_neg (Ne.symm hne)

/-- A rule that takes from the balance of a team that has the currency: it is in range before and
after, and the rest is paid from what is left. -/
lemma payable_cons {rule : PenaltyRule} {rules : List PenaltyRule} {id : Id} {amount : BigInt}
    {tc : TeamCurrencyRow} {c : {c : CurrencyRow // c.id = id}} (htype : rule.rtype = .currency)
    (hargs : rule.currencyArgs = some (id, amount)) (hamount : 0 < amount.val)
    (hproper : ∀ rule ∈ rules, rule.Proper) (htc : v (.teamCurrency team id) = some tc)
    (hc : v (.currency id) = some c) :
    Payable team now v (rule :: rules) ↔ ∃ b after : BigInt, purchaseAmount c.val tc now = .ok b ∧
      after.val = b.val - amount.val ∧
      Payable team now (Function.update v (.teamCurrency team id)
        (some (chargedRow tc after now))) rules := by
  have hhead := amountIn_self htype hargs
  have hother : ∀ currency, currency ≠ id → rule.amountIn currency = 0 := fun _ hne =>
    amountIn_other htype hargs hne
  have hnonneg := penaltyIn_nonneg hproper
  constructor
  · intro h
    have hid := h id tc c htc hc
    rw [penaltyIn_cons, hhead] at hid
    have hpos := hnonneg id
    obtain ⟨b, hb, hle⟩ := hid (by omega)
    have hrange := b.inRange
    unfold BigInt.InRange at hrange
    refine ⟨b, ⟨b.val - amount.val, by omega, by omega⟩, hb, rfl, ?_⟩
    intro currency tc' c' htc' hc' hpenalty
    rw [update_teamCurrency_currency] at hc'
    by_cases hne : currency = id
    · subst hne
      rw [Function.update_self] at htc'
      cases htc'
      rw [hc] at hc'
      cases hc'
      refine ⟨_, purchaseAmount_chargedRow hb rfl hamount.le, ?_⟩
      show _ ≤ b.val - amount.val - penaltyIn currency rules
      omega
    · rw [Function.update_of_ne (by simpa using hne)] at htc'
      obtain ⟨b', hb', hle'⟩ := h currency tc' c' htc' hc' (by
        rw [penaltyIn_cons, hother currency hne]
        omega)
      rw [penaltyIn_cons, hother currency hne] at hle'
      exact ⟨b', hb', by omega⟩
  · rintro ⟨b, after, hb, hafter, h⟩ currency tc' c' htc' hc' hpenalty
    rw [penaltyIn_cons] at hpenalty ⊢
    by_cases hne : currency = id
    · subst hne
      rw [htc] at htc'
      cases htc'
      rw [hc] at hc'
      cases hc'
      refine ⟨b, hb, ?_⟩
      rw [hhead]
      have hlo := after.inRange
      unfold BigInt.InRange at hlo
      have hpos := hnonneg currency
      rcases hpos.lt_or_eq with hlt | hzero
      · obtain ⟨b', hb', hle⟩ := h currency _ _
          (Function.update_self _ _ _) ((update_teamCurrency_currency _ _ _).trans hc) hlt
        rw [purchaseAmount_chargedRow hb hafter hamount.le] at hb'
        cases hb'
        omega
      · omega
    · rw [hother currency hne] at hpenalty ⊢
      obtain ⟨b', hb', hle⟩ := h currency tc' c'
        ((Function.update_of_ne (by simpa using hne) _ _).trans htc')
        ((update_teamCurrency_currency _ _ _).trans hc') (by omega)
      exact ⟨b', hb', by omega⟩

/-- What the rules have taken from the balances. -/
structure Charged (team : Id) (now : ℤ) (rules : List PenaltyRule) (v v' : View) : Prop where
  kept : ∀ k, (∀ currency, k = .teamCurrency team currency → penaltyIn currency rules = 0) →
    v' k = v k
  taken : ∀ currency tc c, v (.teamCurrency team currency) = some tc →
    v (.currency currency) = some c → 0 < penaltyIn currency rules →
    ∃ b tc', purchaseAmount c.val tc now = .ok b ∧ v' (.teamCurrency team currency) = some tc' ∧
      tc'.amount.val = b.val - penaltyIn currency rules

/-- A rule that takes nothing from a balance of the team. -/
lemma Charged.cons_idle {rule : PenaltyRule} {rules : List PenaltyRule} {v' : View}
    (h : Charged team now rules v v') (hproper : ∀ rule ∈ rules, rule.Proper)
    (hrule : rule.Proper)
    (hidle : ∀ currency tc c, v (.teamCurrency team currency) = some tc →
      v (.currency currency) = some c → rule.amountIn currency = 0) :
    Charged team now (rule :: rules) v v' where
  kept k hk := by
    refine h.kept k ?_
    intro currency hcurrency
    have hsum := hk currency hcurrency
    rw [penaltyIn_cons] at hsum
    have hhead := hrule.amountIn_nonneg currency
    have htail := penaltyIn_nonneg hproper currency
    omega
  taken currency tc c htc hc hpos := by
    have hzero := hidle currency tc c htc hc
    rw [penaltyIn_cons, hzero, Int.zero_add] at hpos ⊢
    exact h.taken currency tc c htc hc hpos

lemma Payable.cons_idle {rule : PenaltyRule} {rules : List PenaltyRule}
    (hidle : ∀ currency tc c, v (.teamCurrency team currency) = some tc →
      v (.currency currency) = some c → rule.amountIn currency = 0) :
    Payable team now v (rule :: rules) ↔ Payable team now v rules := by
  constructor
  · intro h currency tc c htc hc hpos
    have hcons := h currency tc c htc hc
    rw [penaltyIn_cons, hidle currency tc c htc hc, Int.zero_add] at hcons
    exact hcons hpos
  · intro h currency tc c htc hc hpos
    rw [penaltyIn_cons, hidle currency tc c htc hc, Int.zero_add] at hpos ⊢
    exact h currency tc c htc hc hpos

/-- A rule that takes from a balance, before the others. -/
lemma Charged.cons {rule : PenaltyRule} {rules : List PenaltyRule} {id : Id}
    {amount b after : BigInt} {tc : TeamCurrencyRow} {c : {c : CurrencyRow // c.id = id}} {v' : View}
    (htype : rule.rtype = .currency) (hargs : rule.currencyArgs = some (id, amount))
    (hamount : 0 < amount.val) (hproper : ∀ rule ∈ rules, rule.Proper)
    (htc : v (.teamCurrency team id) = some tc) (hc : v (.currency id) = some c)
    (hb : purchaseAmount c.val tc now = .ok b) (hafter : after.val = b.val - amount.val)
    (h : Charged team now rules
      (Function.update v (.teamCurrency team id) (some (chargedRow tc after now))) v') :
    Charged team now (rule :: rules) v v' := by
  have hhead := amountIn_self htype hargs
  have hother : ∀ currency, currency ≠ id → rule.amountIn currency = 0 := fun _ hne =>
    amountIn_other htype hargs hne
  refine ⟨?_, ?_⟩
  · intro k hk
    have hne : k ≠ .teamCurrency team id := by
      rintro rfl
      have hsum := hk id rfl
      rw [penaltyIn_cons, hhead] at hsum
      have htail := penaltyIn_nonneg hproper id
      omega
    rw [h.kept k, Function.update_of_ne hne]
    rintro currency rfl
    have hsum := hk currency rfl
    rwa [penaltyIn_cons, hother currency (fun heq => hne (by rw [heq])), Int.zero_add] at hsum
  · intro currency tc' c' htc' hc' hpos
    by_cases hne : currency = id
    · subst hne
      rw [htc] at htc'
      obtain rfl := Option.some.inj htc'
      rw [hc] at hc'
      obtain rfl := Option.some.inj hc'
      rw [penaltyIn_cons, hhead]
      have htail := penaltyIn_nonneg hproper currency
      rcases htail.lt_or_eq with hlt | hzero
      · obtain ⟨b', tc', hb', hrow, hval⟩ := h.taken currency _ _ (Function.update_self _ _ _)
          ((update_teamCurrency_currency _ _ _).trans hc) hlt
        rw [purchaseAmount_chargedRow hb hafter hamount.le] at hb'
        obtain rfl := Except.ok.inj hb'
        exact ⟨b, tc', hb, hrow, by omega⟩
      · have hkept := h.kept (.teamCurrency team currency) (by
          intro currency' heq
          cases heq
          exact hzero.symm)
        rw [Function.update_self] at hkept
        refine ⟨b, _, hb, hkept, ?_⟩
        show after.val = _
        omega
    · rw [penaltyIn_cons, hother currency hne, Int.zero_add] at hpos ⊢
      exact h.taken currency tc' c'
        ((Function.update_of_ne (by simpa using hne) _ _).trans htc')
        ((update_teamCurrency_currency _ _ _).trans hc') hpos

/-! ## The loop -/

lemma plays_insertEvent (event : EventLogInput) :
    Plays t (Tx.query t .stmt (insertEvent event) : Call Unit) now v () v := by
  have hstmt : insertEvent event v now = .ok { val := (), inserts := [event] } := rfl
  exact Plays.query hstmt

/-- A penalty that the team pays. -/
lemma plays_applyCurrencyPenalty {id : Id} {amount b after : BigInt} {tc : TeamCurrencyRow}
    {c : {c : CurrencyRow // c.id = id}} (htc : v (.teamCurrency ctx.team id) = some tc)
    (hc : v (.currency id) = some c) (hb : purchaseAmount c.val tc now = .ok b)
    (hafter : after.val = b.val - amount.val) :
    ∃ penalty, Plays t (applyCurrencyPenalty t ctx id amount) now v penalty
      (Function.update v (.teamCurrency ctx.team id) (some (chargedRow tc after now))) := by
  have hstmt := Plays.query (t := t) (L := Label) (l := .stmt)
    (penalizeCurrency_ok htc hc hb hafter)
  rw [applyPuts_charged] at hstmt
  exact ⟨_, Plays.bind hstmt (Plays.bind (plays_insertEvent _) (Plays.pure _))⟩

/-- A penalty in a currency that the team does not have. -/
lemma plays_applyCurrencyPenalty_none {id : Id} {amount : BigInt}
    (h : ∀ tc c, v (.teamCurrency ctx.team id) = some tc → v (.currency id) = some c → False) :
    Plays t (applyCurrencyPenalty t ctx id amount) now v [] v :=
  Plays.bind (Plays.query (penalizeCurrency_none h)) (Plays.pure _)

/-- A rule that is no penalty in a currency leaves the balances alone. -/
lemma amountIn_of_ne {rule : PenaltyRule} (h : rule.rtype ≠ .currency) (currency : Id) :
    rule.amountIn currency = 0 := by
  unfold PenaltyRule.amountIn
  split
  · next htype _ => exact absurd htype h
  · rfl

lemma amountIn_of_none {rule : PenaltyRule} {id : Id} {amount : BigInt}
    (hargs : rule.currencyArgs = some (id, amount))
    (h : ∀ tc c, v (.teamCurrency team id) = some tc → v (.currency id) = some c → False)
    (currency : Id) (tc : TeamCurrencyRow) (c : {c : CurrencyRow // c.id = currency})
    (htc : v (.teamCurrency team currency) = some tc) (hc : v (.currency currency) = some c) :
    rule.amountIn currency = 0 := by
  unfold PenaltyRule.amountIn
  rw [hargs]
  split
  · next id' amount' _ heq =>
    cases heq
    refine if_neg ?_
    rintro rfl
    exact h tc c htc hc
  · rfl

lemma penaltySeconds_cons (n : ℕ) (rule : PenaltyRule) (rules : List PenaltyRule)
    (seconds : Option BigInt) : penaltySeconds n (rule :: rules) seconds =
      penaltySeconds n rules ((rule.seconds n).or seconds) := rfl

lemma applyPenalties_cons {n : ℕ} {rule : PenaltyRule} {rules : List PenaltyRule}
    {seconds : Option BigInt} {penalties : List CurrencyPenaltyShowData}
    (h : rule.rtype ≠ .currency) : applyPenalties t ctx n (rule :: rules) seconds penalties =
      applyPenalties t ctx n rules ((rule.seconds n).or seconds) penalties := by
  rw [applyPenalties, PenaltyRule.seconds]
  cases htype : rule.rtype with
  | no => rfl
  | fixedTime => rfl
  | linearTime => rfl
  | currency => exact absurd htype h

lemma applyPenalties_cons_currency {n : ℕ} {rule : PenaltyRule} {rules : List PenaltyRule} {id : Id}
    {amount : BigInt} {seconds : Option BigInt} {penalties : List CurrencyPenaltyShowData}
    (htype : rule.rtype = .currency) (hargs : rule.currencyArgs = some (id, amount)) :
    applyPenalties t ctx n (rule :: rules) seconds penalties = (do
      let penalty ← applyCurrencyPenalty t ctx id amount
      applyPenalties t ctx n rules seconds (penalties ++ penalty)) := by
  rw [applyPenalties, htype, hargs]

lemma seconds_of_currency {n : ℕ} {rule : PenaltyRule} (h : rule.rtype = .currency) :
    rule.seconds n = none := by
  unfold PenaltyRule.seconds
  rw [h]

variable (t ctx) in
/-- **The loop over the penalties** goes through where they are paid. The induction is on the rules;
what a rule has taken is what the next one finds. -/
lemma plays_applyPenalties (n : ℕ) {rules : List PenaltyRule}
    (hproper : ∀ rule ∈ rules, rule.Proper) (hpay : Payable ctx.team now v rules)
    (seconds : Option BigInt) (penalties : List CurrencyPenaltyShowData) :
    ∃ out v', Plays t (applyPenalties t ctx n rules seconds penalties) now v
      (penaltySeconds n rules seconds, out) v' ∧ Charged ctx.team now rules v v' := by
  induction rules generalizing v seconds penalties with
  | nil =>
    refine ⟨penalties, v, Plays.pure _, fun _ _ => rfl, ?_⟩
    intro currency tc c _ _ hpos
    exact absurd hpos (lt_irrefl 0)
  | cons rule rules ih =>
    have hrule := hproper rule List.mem_cons_self
    have hrest : ∀ rule ∈ rules, rule.Proper :=
      fun r hr => hproper r (List.mem_cons_of_mem rule hr)
    by_cases htype : rule.rtype = .currency
    · obtain ⟨id, amount, hargs, hamount⟩ := hrule.amount htype
      rw [applyPenalties_cons_currency htype hargs, penaltySeconds_cons,
        seconds_of_currency htype, Option.none_or]
      by_cases hrows : ∀ tc c, v (.teamCurrency ctx.team id) = some tc →
          v (.currency id) = some c → False
      · have hidle := amountIn_of_none hargs hrows
        obtain ⟨out, v', hplays, hcharged⟩ := ih hrest ((Payable.cons_idle hidle).1 hpay) seconds
          (penalties ++ [])
        exact ⟨out, v', Plays.bind (plays_applyCurrencyPenalty_none hrows) hplays,
          hcharged.cons_idle hrest hrule hidle⟩
      · push Not at hrows
        obtain ⟨tc, c, htc, hc, -⟩ := hrows
        obtain ⟨b, after, hb, hafter, hpay'⟩ :=
          (payable_cons htype hargs hamount hrest htc hc).1 hpay
        obtain ⟨penalty, hpenalty⟩ := plays_applyCurrencyPenalty (t := t) htc hc hb hafter
        obtain ⟨out, v', hplays, hcharged⟩ := ih hrest hpay' seconds (penalties ++ penalty)
        exact ⟨out, v', Plays.bind hpenalty hplays,
          hcharged.cons htype hargs hamount hrest htc hc hb hafter⟩
    · have hidle : ∀ currency tc c, v (.teamCurrency ctx.team currency) = some tc →
          v (.currency currency) = some c → rule.amountIn currency = 0 :=
        fun currency _ _ _ _ => amountIn_of_ne htype currency
      obtain ⟨out, v', hplays, hcharged⟩ := ih hrest ((Payable.cons_idle hidle).1 hpay)
        ((rule.seconds n).or seconds) penalties
      rw [applyPenalties_cons htype]
      exact ⟨out, v', hplays, hcharged.cons_idle hrest hrule hidle⟩

variable (t ctx) in
/-- It fails where one of them is not. -/
lemma halts_applyPenalties (n : ℕ) {rules : List PenaltyRule}
    (hproper : ∀ rule ∈ rules, rule.Proper) (hpay : ¬ Payable ctx.team now v rules)
    (seconds : Option BigInt) (penalties : List CurrencyPenaltyShowData) :
    ∃ e, Halts t (applyPenalties t ctx n rules seconds penalties) now v e := by
  induction rules generalizing v seconds penalties with
  | nil =>
    refine absurd ?_ hpay
    intro currency tc c _ _ hpos
    exact absurd hpos (lt_irrefl 0)
  | cons rule rules ih =>
    have hrule := hproper rule List.mem_cons_self
    have hrest : ∀ rule ∈ rules, rule.Proper :=
      fun r hr => hproper r (List.mem_cons_of_mem rule hr)
    by_cases htype : rule.rtype = .currency
    · obtain ⟨id, amount, hargs, hamount⟩ := hrule.amount htype
      rw [applyPenalties_cons_currency htype hargs]
      by_cases hrows : ∀ tc c, v (.teamCurrency ctx.team id) = some tc →
          v (.currency id) = some c → False
      · have hidle := amountIn_of_none hargs hrows
        obtain ⟨e, he⟩ := ih hrest (fun h => hpay ((Payable.cons_idle hidle).2 h)) seconds
          (penalties ++ [])
        exact ⟨e, Plays.halts (plays_applyCurrencyPenalty_none hrows) he⟩
      · push Not at hrows
        obtain ⟨tc, c, htc, hc, -⟩ := hrows
        by_cases hpaid : ∃ b after : BigInt, purchaseAmount c.val tc now = .ok b ∧
            after.val = b.val - amount.val
        · obtain ⟨b, after, hb, hafter⟩ := hpaid
          obtain ⟨penalty, hpenalty⟩ := plays_applyCurrencyPenalty (t := t) htc hc hb hafter
          have hpay' : ¬ Payable ctx.team now (Function.update v (.teamCurrency ctx.team id)
              (some (chargedRow tc after now))) rules := by
            intro h
            exact hpay ((payable_cons htype hargs hamount hrest htc hc).2
              ⟨b, after, hb, hafter, h⟩)
          obtain ⟨e, he⟩ := ih hrest hpay' seconds (penalties ++ penalty)
          exact ⟨e, Plays.halts hpenalty he⟩
        · obtain ⟨e, he⟩ := penalizeCurrency_error htc hc hpaid
          exact ⟨e, Halts.bind (Halts.bind (Halts.query he))⟩
    · have hidle : ∀ currency tc c, v (.teamCurrency ctx.team currency) = some tc →
          v (.currency currency) = some c → rule.amountIn currency = 0 :=
        fun currency _ _ _ _ => amountIn_of_ne htype currency
      rw [applyPenalties_cons htype]
      exact ih hrest (fun h => hpay ((Payable.cons_idle hidle).2 h)) _ penalties

/-! ## The cooldown -/

/-- The cooldown ends at an instant that can be returned. -/
def CooldownFits (now : ℤ) (seconds : Option BigInt) : Prop :=
  ∀ s, seconds = some s → now + s.val * 1000000 ≤ Timestamp.lastDateTime

lemma setCooldown_ok {puzzle : Id} {tp : TeamPuzzle} {s : BigInt} (hclock : Timestamp.first ≤ now)
    (htp : v (.teamPuzzle team puzzle) = some tp) (hs : 0 ≤ s.val)
    (hfits : now + s.val * 1000000 ≤ Timestamp.lastDateTime) :
    setCooldown team puzzle s v now = .ok {
      val := some (now + s.val * 1000000)
      puts := [⟨.teamPuzzle team puzzle,
        some { tp with cooldownTill := some (now + s.val * 1000000) }⟩] } := by
  unfold Timestamp.first at hclock
  unfold Timestamp.lastDateTime at hfits
  have hcast : BigInt.cast (s.val * 1000000) =
      .ok ⟨s.val * 1000000, by omega, by omega⟩ := BigInt.cast_eq_ok.2 rfl
  have hcheck : Timestamp.check (now + s.val * 1000000) = .ok (now + s.val * 1000000) := by
    rw [Timestamp.check_eq_ok]
    unfold Timestamp.first Timestamp.afterLast
    omega
  simp only [setCooldown, htp, Bind.bind, Except.bind, hcast, hcheck]
  rfl

lemma plays_applyCooldown {tp : TeamPuzzle} {s : BigInt} (hclock : Timestamp.first ≤ now)
    (htp : v (.teamPuzzle ctx.team ctx.info.id) = some tp) (hs : 0 ≤ s.val)
    (hfits : now + s.val * 1000000 ≤ Timestamp.lastDateTime) :
    Plays t (applyCooldown t ctx (some s)) now v (some (now + s.val * 1000000))
      (Function.update v (.teamPuzzle ctx.team ctx.info.id)
        (some { tp with cooldownTill := some (now + s.val * 1000000) })) := by
  have hstmt := Plays.query (t := t) (L := Label) (l := .stmt) (setCooldown_ok hclock htp hs hfits)
  refine Plays.bind hstmt ?_
  show Plays t (if now + s.val * 1000000 ≤ Timestamp.lastDateTime then _ else _) now _ _ _
  rw [if_pos hfits]
  exact Plays.pure _

variable (t ctx) in
/-- A cooldown that ends too late fails, at the statement or where the instant is decoded. -/
lemma halts_applyCooldown {tp : TeamPuzzle} {s : BigInt}
    (htp : v (.teamPuzzle ctx.team ctx.info.id) = some tp)
    (hfits : ¬ now + s.val * 1000000 ≤ Timestamp.lastDateTime) :
    ∃ e, Halts t (applyCooldown t ctx (some s)) now v e := by
  have hstep : (∃ e, setCooldown ctx.team ctx.info.id s v now = .error e) ∨
      ∃ eff, setCooldown ctx.team ctx.info.id s v now = .ok eff ∧
        eff.val = some (now + s.val * 1000000) := by
    simp only [setCooldown, htp, Bind.bind, Except.bind]
    cases hcast : BigInt.cast (s.val * 1000000) with
    | error e => exact .inl ⟨e, rfl⟩
    | ok interval =>
      have hinterval := BigInt.cast_eq_ok.1 hcast
      dsimp only
      cases hcheck : Timestamp.check (now + interval.val) with
      | error e => exact .inl ⟨e, rfl⟩
      | ok till =>
        obtain ⟨_, rfl⟩ := Timestamp.check_eq_ok.1 hcheck
        refine .inr ⟨_, rfl, ?_⟩
        rw [hinterval]
  rcases hstep with ⟨e, he⟩ | ⟨eff, heff, hval⟩
  · exact ⟨e, Halts.bind (Halts.query he)⟩
  · refine ⟨"resulting value is out of range", Plays.halts (Plays.query heff) ?_⟩
    rw [hval]
    show Halts t (if now + s.val * 1000000 ≤ Timestamp.lastDateTime then _ else _) now _ _
    rw [if_neg hfits]
    exact Halts.throw _

end Loop

/-! ## Judging a wrong answer -/

section Judged

variable {cfg : Config} {t : Tid} {user : AuthUser} {puzzle : Id} {answer : String} {submitId : Id}
  {team : Id} {now : ℤ} {v w : View} {info : PuzzleRow} {submission : Submission}
  {result : JudgeResult} {tp : TeamPuzzle}

/-- The transaction of `submit_answer`, begun `now` where it sees `v`, has come to a judgement: the
team may submit, the answer is stored as `submission`, and the rules of the puzzle give `result` and
leave `w`. -/
structure Judged (cfg : Config) (t : Tid) (user : AuthUser) (puzzle : Id) (answer : String)
    (submitId team : Id) (now : ℤ) (v : View) (info : PuzzleRow) (submission : Submission)
    (result : JudgeResult) (w : View) (tp : TeamPuzzle) : Prop where
  clock : Timestamp.first ≤ now
  access : selectAccess cfg team puzzle v now =
    .ok { val := some true, puts := [lockRow v (.teamPuzzle team puzzle)] }
  allowed : selectAllowed cfg team puzzle v now = .ok { val := some true }
  found : cfg.puzzle puzzle = some info
  requirements : ∃ requirements, cfg.submitRequirements info.submitRequirements = .ok requirements ∧
    Plays t (submitRequirementsConn t team info.gameId requirements) now v true v
  stored : insertSubmission team puzzle submitId user.uid answer (cfg.normalizeAnswer answer) v now =
    .ok { val := some submission,
          puts := [⟨.submissions team puzzle, v (.submissions team puzzle) ++ [submission]⟩] }
  judged : ∃ rules, cfg.valueToJudge info.judge = .ok rules ∧ rules.isEmpty = false ∧
    Plays t (judge cfg t ⟨team, user.uid, info, submission, answer⟩ rules) now
      (applyPuts [⟨.submissions team puzzle, v (.submissions team puzzle) ++ [submission]⟩] v)
      result w
  triggers : result.triggers.all Expr.validKey = true
  row : w (.teamPuzzle team puzzle) = some tp

/-- The submissions once the judgement is stored. -/
def judgedRows (submissionId : Id) (result : JudgeResult) (rows : List Submission) :
    List Submission :=
  rows.map fun s =>
    if s.id = submissionId then { s with
      saction := result.action.code
      sresult := result.result
      realAnswer := result.answer
      ignored := result.ignored || result.action = .error }
    else s

/-- The wrong answers that count, with this one. -/
def failureCount (submissionId : Id) (result : JudgeResult) (rows : List Submission) : ℕ :=
  (judgedRows submissionId result rows).countP Submission.isFailure

/-- The answer is stored, and its cooldown and its penalties with it. -/
structure PenaltyKept (team puzzle : Id) (now : ℤ) (submissionId : Id) (result : JudgeResult)
    (rules : List PenaltyRule) (w v' : View) : Prop where
  submission : v' (.submissions team puzzle) =
    judgedRows submissionId result (w (.submissions team puzzle))
  cooldown : ∀ s, penaltySeconds (failureCount submissionId result (w (.submissions team puzzle)))
      rules none = some s →
    ∃ tp, v' (.teamPuzzle team puzzle) = some tp ∧
      tp.cooldownTill = some (now + s.val * 1000000)
  taken : ∀ currency tc c, w (.teamCurrency team currency) = some tc →
    w (.currency currency) = some c → 0 < penaltyIn currency rules →
    ∃ b tc', purchaseAmount c.val tc now = .ok b ∧ v' (.teamCurrency team currency) = some tc' ∧
      tc'.amount.val = b.val - penaltyIn currency rules
  delta : ∀ rule ∈ rules, ∀ id amount, rule.rtype = .currency →
    rule.currencyArgs = some (id, amount) → ∃ delta, amount.checkedNeg = some delta

/-- The cooldown and the penalties of the answer stay in range. -/
structure PenaltyFits (team puzzle : Id) (now : ℤ) (submissionId : Id) (result : JudgeResult)
    (rules : List PenaltyRule) (w : View) : Prop where
  payable : Payable team now w rules
  cooldown : CooldownFits now (penaltySeconds
    (failureCount submissionId result (w (.submissions team puzzle))) rules none)

lemma id_of_puzzle (h : cfg.puzzle puzzle = some info) : info.id = puzzle := by
  have hfound := List.find?_some h
  simpa using hfound

/-- The rows that a judgement stores besides the submission. -/
structure Touched (team puzzle : Id) (v v' : View) : Prop where
  same : ∀ k, k ≠ .team team → (∀ key, k ≠ .trigger team puzzle key) → v' k = v k

lemma Touched.refl (v : View) : Touched team puzzle v v := ⟨fun _ _ _ => rfl⟩

variable (t puzzle team now v) in
lemma plays_markTeamDirty : ∃ v', Plays t (Tx.query t .stmt (markTeamDirty team) : Call Unit) now v
    () v' ∧ Touched team puzzle v v' := by
  cases hteam : v (.team team) with
  | none =>
    have hstmt : markTeamDirty team v now = .ok { val := () } := by
      unfold markTeamDirty
      rw [hteam]
    exact ⟨v, Plays.query hstmt, Touched.refl v⟩
  | some tm =>
    have hstmt : markTeamDirty team v now = .ok {
        val := (), puts := [⟨.team team, some { tm with contentBlocksDirty := true }⟩] } := by
      unfold markTeamDirty
      rw [hteam]
    refine ⟨_, Plays.query hstmt, ⟨?_⟩⟩
    intro k hk _
    exact applyPuts_of_notMem (by simpa using hk)

lemma Touched.trans {v₁ v₂ v₃ : View} (h : Touched team puzzle v₁ v₂)
    (h' : Touched team puzzle v₂ v₃) : Touched team puzzle v₁ v₃ :=
  ⟨fun k hk hkey => (h'.same k hk hkey).trans (h.same k hk hkey)⟩

/-- A part that is run on a condition. -/
lemma plays_when {c : Prop} [Decidable c] {p : Call Unit}
    (h : ∃ v', Plays t p now v () v' ∧ Touched team puzzle v v') :
    ∃ v', Plays t (when c p) now v () v' ∧ Touched team puzzle v v' := by
  unfold Play.when
  split
  · exact h
  · exact ⟨v, Plays.pure (), Touched.refl v⟩

variable (puzzle team now v) in
lemma insertTriggers_eq {keys : List String} (source : TriggerSource)
    (hkeys : keys.all Expr.validKey = true) :
    ∃ eff, insertTriggers team puzzle keys source v now = .ok eff ∧
      Touched team puzzle v (applyPuts eff.puts v) := by
  refine ⟨_, if_pos hkeys, ⟨?_⟩⟩
  intro k _ hkey
  refine applyPuts_of_notMem ?_
  intro hmem
  obtain ⟨q, hq, rfl⟩ := List.mem_map.1 hmem
  obtain ⟨key, _, rfl⟩ := List.mem_map.1 hq
  exact hkey key rfl

/-- The triggers of the result are stored. -/
lemma plays_storeTriggers (t : Tid) (ctx : SubmitContext) (now : ℤ) (v : View)
    (hkeys : result.triggers.all Expr.validKey = true) :
    ∃ inserted v', Plays t (storeTriggers t ctx result) now v inserted v' ∧
      Touched ctx.team ctx.info.id v v' := by
  unfold storeTriggers
  split
  · obtain ⟨eff, hstmt, hinsert⟩ := insertTriggers_eq ctx.info.id ctx.team now v
      ⟨some ctx.submission.id, none⟩ hkeys
    obtain ⟨v', hmark, htouched⟩ := plays_when (c := 0 < eff.val)
      (plays_markTeamDirty t ctx.info.id ctx.team now (applyPuts eff.puts v))
    exact ⟨_, v', Plays.bind (Plays.query hstmt) (Plays.bind hmark (Plays.pure _)),
      hinsert.trans htouched⟩
  · exact ⟨false, v, Plays.pure _, Touched.refl v⟩

section Fail

variable {ctx : SubmitContext} {rules : List PenaltyRule} {n : ℕ}

/-- What the branch of a wrong answer reads of it. -/
lemma plays_selectFailureInfo (hinfo : cfg.puzzle ctx.info.id = some ctx.info)
    (hn : (v (.submissions ctx.team ctx.info.id)).countP Submission.isFailure = n) :
    Plays t (Tx.query t .stmt (selectFailureInfo cfg ctx.team ctx.info.id) :
      Call (Option (ℕ × String))) now v (some (n, ctx.info.penalty)) v := by
  refine Plays.read ?_
  rw [hinfo, hn]
  rfl

/-- The branch once its penalties are read. -/
lemma plays_applyFail_of {out : List CurrencyPenaltyShowData} {till : Option ℤ} {v₁ v₂ : View}
    (hinfo : cfg.puzzle ctx.info.id = some ctx.info)
    (hrules : cfg.penaltyRules ctx.info.penalty = .ok rules)
    (hn : (v (.submissions ctx.team ctx.info.id)).countP Submission.isFailure = n)
    (hloop : Plays t (applyPenalties t ctx n rules none []) now v
      (penaltySeconds n rules none, out) v₁)
    (hcooldown : Plays t (applyCooldown t ctx (penaltySeconds n rules none)) now v₁ till v₂) :
    Plays t (applyFail cfg t ctx) now v
      { cooldownTill := till, currencyUpdated := !out.isEmpty, currencyPenalty := out } v₂ := by
  refine Plays.bind (plays_selectFailureInfo hinfo hn) ?_
  dsimp only
  rw [hrules]
  exact Plays.bind hloop (Plays.bind hcooldown (Plays.bind (plays_insertEvent _) (Plays.pure _)))

variable (cfg t ctx) in
/-- **The branch of a wrong answer** goes through where its penalties stay in range. -/
lemma plays_applyFail (hinfo : cfg.puzzle ctx.info.id = some ctx.info)
    (hrules : cfg.penaltyRules ctx.info.penalty = .ok rules)
    (hn : (v (.submissions ctx.team ctx.info.id)).countP Submission.isFailure = n)
    (hproper : ∀ rule ∈ rules, rule.Proper) (hclock : Timestamp.first ≤ now)
    (htp : v (.teamPuzzle ctx.team ctx.info.id) = some tp)
    (hpay : Payable ctx.team now v rules)
    (hfits : CooldownFits now (penaltySeconds n rules none)) :
    ∃ effects v₁ v', Plays t (applyFail cfg t ctx) now v effects v' ∧
      Charged ctx.team now rules v v₁ ∧
      (∀ k, k ≠ .teamPuzzle ctx.team ctx.info.id → v' k = v₁ k) ∧
      ∀ s, penaltySeconds n rules none = some s →
        ∃ tp, v' (.teamPuzzle ctx.team ctx.info.id) = some tp ∧
          tp.cooldownTill = some (now + s.val * 1000000) := by
  obtain ⟨out, v₁, hloop, hcharged⟩ :=
    plays_applyPenalties t ctx n hproper hpay none []
  have htp₁ : v₁ (.teamPuzzle ctx.team ctx.info.id) = some tp :=
    (hcharged.kept _ fun _ heq => by cases heq).trans htp
  cases hseconds : penaltySeconds n rules none with
  | none =>
    have hcooldown : Plays t (applyCooldown t ctx (penaltySeconds n rules none)) now v₁ none v₁ := by
      rw [hseconds]
      exact Plays.pure none
    exact ⟨_, v₁, v₁, plays_applyFail_of hinfo hrules hn hloop hcooldown, hcharged,
      fun _ _ => rfl, fun s hs => by cases hs⟩
  | some s =>
    have hs : 0 ≤ s.val := penaltySeconds_nonneg hproper (fun _ h => by cases h) s hseconds
    have hcooldown := plays_applyCooldown (t := t) hclock htp₁ hs (hfits s hseconds)
    rw [← hseconds] at hcooldown
    refine ⟨_, v₁, _, plays_applyFail_of hinfo hrules hn hloop hcooldown, hcharged,
      fun k hk => Function.update_of_ne hk _ _, ?_⟩
    intro s' hs'
    cases hs'
    exact ⟨_, Function.update_self _ _ _, rfl⟩

variable (cfg t now v ctx) in
/-- It fails where they do not. -/
lemma halts_applyFail (hinfo : cfg.puzzle ctx.info.id = some ctx.info)
    (hrules : cfg.penaltyRules ctx.info.penalty = .ok rules)
    (hn : (v (.submissions ctx.team ctx.info.id)).countP Submission.isFailure = n)
    (hproper : ∀ rule ∈ rules, rule.Proper)
    (htp : v (.teamPuzzle ctx.team ctx.info.id) = some tp)
    (hfits : ¬ (Payable ctx.team now v rules ∧ CooldownFits now (penaltySeconds n rules none))) :
    ∃ e, Halts t (applyFail cfg t ctx) now v e := by
  by_cases hpay : Payable ctx.team now v rules
  · obtain ⟨out, v₁, hloop, hcharged⟩ :=
      plays_applyPenalties t ctx n hproper hpay none []
    have hlate : ¬ CooldownFits now (penaltySeconds n rules none) := fun h => hfits ⟨hpay, h⟩
    unfold CooldownFits at hlate
    push Not at hlate
    obtain ⟨s, hseconds, hlate⟩ := hlate
    have htp₁ : v₁ (.teamPuzzle ctx.team ctx.info.id) = some tp :=
      (hcharged.kept _ fun _ heq => by cases heq).trans htp
    obtain ⟨e, he⟩ := halts_applyCooldown t ctx htp₁ hlate.not_ge
    rw [hseconds] at hloop
    refine ⟨e, Plays.halts (plays_selectFailureInfo hinfo hn) ?_⟩
    dsimp only
    rw [hrules]
    exact Plays.halts hloop (Halts.bind he)
  · obtain ⟨e, he⟩ := halts_applyPenalties t ctx n hproper hpay none []
    refine ⟨e, Plays.halts (plays_selectFailureInfo hinfo hn) ?_⟩
    dsimp only
    rw [hrules]
    exact Halts.bind he

end Fail

/-- The transaction ends as what follows the judgement ends. -/
lemma Judged.ends (h : Judged cfg t user puzzle answer submitId team now v info submission result w tp)
    {r : Except String (SubmitEffects × View)}
    (hr : Ends t (applyJudgement cfg t ⟨team, user.uid, info, submission, answer⟩ result) now w r) :
    ∃ hasCustom, Ends t (submitBody cfg t user puzzle answer submitId team
      (cfg.normalizeAnswer answer)) now v
        (r.map fun r => ((true, .inr (result, r.1, hasCustom)), r.2)) := by
  obtain ⟨requirements, hrequirements, hmeets⟩ := h.requirements
  obtain ⟨rules, hrules, hne, hjudge⟩ := h.judged
  have hlocks : ∀ k : Key, applyPuts [lockRow v k] v = v := by
    intro k
    refine applyPuts_of_locks ?_
    intro q hq
    obtain rfl := List.mem_singleton.1 hq
    rfl
  have hteam : Plays t (Tx.query t .stmt (lockTeam team) : Call Unit) now v () v := by
    have hstmt : lockTeam team v now = .ok {
        val := (), puts := if (v (.team team)).isSome then [lockRow v (.team team)] else [] } := rfl
    have hplays := Plays.query (t := t) (L := Label) (l := .stmt) hstmt
    dsimp only at hplays
    split at hplays
    · rwa [hlocks] at hplays
    · exact hplays
  have haccess : Plays t (Tx.query t .stmt (selectAccess cfg team puzzle) : Call (Option Bool)) now v
      (some true) v := by
    have hplays := Plays.query (t := t) (L := Label) (l := .stmt) h.access
    rwa [hlocks] at hplays
  refine ⟨rules.any fun rule => rule.rtype = some "custom", ?_⟩
  refine Plays.ends hteam (Plays.ends haccess (Plays.ends (Plays.query h.allowed) ?_))
  dsimp only
  rw [h.found]
  show Ends t (submitAllowed cfg t user puzzle answer submitId team info _) now v _
  rw [submitAllowed, hrules]
  show Ends t (if rules.isEmpty then _ else _) now v _
  rw [if_neg (by rw [hne]; exact Bool.false_ne_true), hrequirements]
  refine Plays.ends hmeets (Plays.ends (Plays.query h.stored) ?_)
  exact Plays.ends hjudge (Ends.map hr)

variable (cfg t now w) in
/-- What is stored of a judgement comes before what its action does. -/
lemma ends_applyJudgement (ctx : SubmitContext) (hfail : result.action = .fail)
    (hkeys : result.triggers.all Expr.validKey = true) :
    ∃ w', (∀ k, k ≠ .submissions ctx.team ctx.info.id → k ≠ .team ctx.team →
        (∀ key, k ≠ .trigger ctx.team ctx.info.id key) → w' k = w k) ∧
      w' (.submissions ctx.team ctx.info.id) =
        judgedRows ctx.submission.id result (w (.submissions ctx.team ctx.info.id)) ∧
      ∃ inserted, ∀ {r : Except String (SubmitEffects × View)},
        Ends t (applyFail cfg t ctx) now w' r →
        Ends t (applyJudgement cfg t ctx result) now w
          (r.map fun r => ({ r.1 with triggerInserted := inserted }, r.2)) := by
  have hstmt : updateSubmission ctx.team ctx.info.id ctx.submission.id result w now = .ok {
      val := ()
      puts := [⟨.submissions ctx.team ctx.info.id,
        judgedRows ctx.submission.id result (w (.submissions ctx.team ctx.info.id))⟩] } := rfl
  obtain ⟨inserted, w', htriggers, htouched⟩ := plays_storeTriggers t ctx now
    (applyPuts [⟨.submissions ctx.team ctx.info.id,
      judgedRows ctx.submission.id result (w (.submissions ctx.team ctx.info.id))⟩] w) hkeys
  refine ⟨w', ?_, ?_, inserted, ?_⟩
  · intro k hk hteam hkey
    rw [htouched.same k hteam hkey]
    exact applyPuts_of_notMem (by simpa using hk)
  · rw [htouched.same _ (by simp) (fun _ => by simp)]
    exact Function.update_self _ _ _
  · intro r hr
    rw [applyJudgement, if_pos hkeys]
    refine Plays.ends (Plays.query hstmt) (Plays.ends htriggers
      (Plays.ends (plays_insertEvent _) ?_))
    rw [hfail]
    exact Ends.map hr

/-- Whether the penalties are paid is told by the rows of the currencies. -/
lemma Payable.congr {rules : List PenaltyRule} {w' : View}
    (hteam : ∀ currency, w' (.teamCurrency team currency) = w (.teamCurrency team currency))
    (hcurrency : ∀ currency, w' (.currency currency) = w (.currency currency))
    (h : Payable team now w rules) : Payable team now w' rules := by
  intro currency tc c htc hc hpos
  rw [hteam] at htc
  rw [hcurrency] at hc
  exact h currency tc c htc hc hpos

/-- The transaction ends, by whether the penalties stay in range: with everything stored, or with an
error. -/
lemma Judged.penalty {rules : List PenaltyRule} {belongs : Id → Bool}
    (h : Judged cfg t user puzzle answer submitId team now v info submission result w tp)
    (hfail : result.action = .fail) (hrules : cfg.penaltyRules info.penalty = .ok rules)
    (hvalid : validatePenaltyCurrency belongs false rules = true) :
    (PenaltyFits team puzzle now submission.id result rules w →
      ∃ submitted v', Answers t (Tx.transaction t .stmt (submitBody cfg t user puzzle answer
          submitId team (cfg.normalizeAnswer answer))) now v (.ok submitted) v' ∧
        PenaltyKept team puzzle now submission.id result rules w v') ∧
    (¬ PenaltyFits team puzzle now submission.id result rules w →
      ∃ e, Answers t (Tx.transaction t .stmt (submitBody cfg t user puzzle answer
        submitId team (cfg.normalizeAnswer answer))) now v (.error e) v) := by
  have hproper := proper_of_validatePenaltyCurrency hvalid
  have hid : info.id = puzzle := id_of_puzzle h.found
  obtain ⟨w', hsame, hrows, inserted, hends⟩ := ends_applyJudgement cfg t now w
    ⟨team, user.uid, info, submission, answer⟩ hfail h.triggers
  dsimp only at hsame hrows hends
  rw [hid] at hsame hrows
  have hinfo : cfg.puzzle info.id = some info := by rw [hid, h.found]
  have htp' : w' (.teamPuzzle team info.id) = some tp := by
    rw [hid, hsame _ (by simp) (by simp) (fun _ => by simp), h.row]
  have hteam : ∀ currency, w' (.teamCurrency team currency) = w (.teamCurrency team currency) :=
    fun currency => hsame _ (by simp) (by simp) (fun _ => by simp)
  have hcurrency : ∀ currency, w' (.currency currency) = w (.currency currency) :=
    fun currency => hsame _ (by simp) (by simp) (fun _ => by simp)
  have hn : (w' (.submissions team info.id)).countP Submission.isFailure =
      failureCount submission.id result (w (.submissions team puzzle)) := by
    rw [hid, hrows, failureCount]
  constructor
  · rintro ⟨hpay, hfits⟩
    obtain ⟨effects, v₁, v', hplays, hcharged, hkept, hcooldown⟩ := plays_applyFail cfg t
      ⟨team, user.uid, info, submission, answer⟩ hinfo hrules hn hproper h.clock
      htp' (hpay.congr hteam hcurrency) hfits
    dsimp only at hcharged hkept hcooldown
    rw [hid] at hkept hcooldown
    have hfailEnds : Ends t (applyFail cfg t ⟨team, user.uid, info, submission, answer⟩) now w'
        (.ok (effects, v')) := hplays
    obtain ⟨hasCustom, hbody⟩ := h.ends (hends hfailEnds)
    refine ⟨_, v', Answers.committed hbody, ?_, hcooldown, ?_, ?_⟩
    · rw [hkept _ (by simp), hcharged.kept _ (fun _ heq => by cases heq), hrows]
    · intro currency tc c htc hc hpos
      obtain ⟨b, tc', hb, hrow, hval⟩ := hcharged.taken currency tc c
        ((hteam currency).trans htc) ((hcurrency currency).trans hc) hpos
      exact ⟨b, tc', hb, (hkept _ (by simp)).trans hrow, hval⟩
    · intro rule hrule id amount htype hargs
      obtain ⟨id', amount', hargs', hpos⟩ := (hproper rule hrule).amount htype
      rw [hargs] at hargs'
      cases hargs'
      have hrange := amount.inRange
      unfold BigInt.InRange at hrange
      exact ⟨⟨-amount.val, by omega, by omega⟩, BigInt.checkedNeg_eq_some.2 rfl⟩
  · intro hfits
    obtain ⟨e, he⟩ := halts_applyFail cfg t now w'
      ⟨team, user.uid, info, submission, answer⟩ hinfo hrules hn hproper htp' (by
        rintro ⟨hpay, hcooldown⟩
        exact hfits ⟨hpay.congr (fun currency => (hteam currency).symm)
          (fun currency => (hcurrency currency).symm), hcooldown⟩)
    have hfailEnds : Ends t (applyFail cfg t ⟨team, user.uid, info, submission, answer⟩) now w'
        (.error e) := he
    obtain ⟨hasCustom, hbody⟩ := h.ends (hends hfailEnds)
    exact ⟨e, Answers.failed hbody⟩

/-- **A wrong answer is committed**, with its cooldown and its penalties, exactly where they stay in
range; where they do not, the call ends with an error and leaves nothing of the answer. -/
theorem wrongAnswer_committed_iff {rules : List PenaltyRule} {belongs : Id → Bool}
    (h : Judged cfg t user puzzle answer submitId team now v info submission result w tp)
    (hfail : result.action = .fail) (hrules : cfg.penaltyRules info.penalty = .ok rules)
    (hvalid : validatePenaltyCurrency belongs false rules = true) :
    ((∃ submitted v', Answers t (Tx.transaction t .stmt (submitBody cfg t user puzzle answer
          submitId team (cfg.normalizeAnswer answer))) now v (.ok submitted) v' ∧
        PenaltyKept team puzzle now submission.id result rules w v') ↔
      PenaltyFits team puzzle now submission.id result rules w) ∧
    (¬ PenaltyFits team puzzle now submission.id result rules w →
      ∃ e, Answers t (Tx.transaction t .stmt (submitBody cfg t user puzzle answer
        submitId team (cfg.normalizeAnswer answer))) now v (.error e) v) := by
  obtain ⟨hkept, hlost⟩ := h.penalty hfail hrules hvalid
  refine ⟨⟨?_, hkept⟩, hlost⟩
  rintro ⟨submitted, v', hanswers, -⟩
  by_contra hfits
  obtain ⟨e, herror⟩ := hlost hfits
  obtain ⟨heq, -⟩ := hanswers.unique herror
  cases heq

end Judged

/-! ## A puzzle with penalties -/

/-- A game of one puzzle, with its penalties. -/
def penaltyGame (rules : List PenaltyRule) : Config where
  rounds := [⟨1, none, 0, 1, none⟩]
  puzzles := [⟨1, 1, none, 0, "a puzzle", 0, "", "", "", none, none, none, some 0, 1, false, 0, 0⟩]
  phases := []
  hints := []
  contentBlocks := []
  user _ := some "a user"
  doubles := Backend.integers
  backend _ := none
  currencyIds := [1]
  ticketIds := []
  judgeRules _ := .ok [⟨some "exact", some "right", some "correct", none, none, none, []⟩]
  penaltyRules _ := .ok rules
  submitRequirements _ := .ok []
  toLowercase c := [c]

/-- A team that has solved nothing and has nothing. -/
def penaltyView : View := applyPuts [⟨.team 1, some ⟨1, "a team", false, false, some 0, none, true⟩⟩,
  ⟨.teamPuzzle 1 1, some ⟨0, 0, 0, none, none⟩⟩,
  ⟨.currency 1, some ⟨⟨1, 1, "points", "Points", 0, 0, false, 100, 0⟩, rfl⟩⟩,
  ⟨.teamCurrency 1 1, some ⟨0, 0, false, 0⟩⟩] noRows

/-- Its wrong answer. -/
def penaltySubmission (rules : List PenaltyRule) : Submission :=
  ⟨5, 7, "wrong", (penaltyGame rules).normalizeAnswer "wrong", -1, none, none, false, 0⟩

/-- The view once the answer is stored. -/
def storedView (rules : List PenaltyRule) : View :=
  applyPuts [⟨.submissions 1 1, [penaltySubmission rules]⟩] penaltyView

lemma judged_penaltyGame (rules : List PenaltyRule) :
    Judged (penaltyGame rules) 0 ⟨7, some 1⟩ 1 "wrong" 5 1 0 penaltyView
      ⟨1, 1, none, 0, "a puzzle", 0, "", "", "", none, none, none, some 0, 1, false, 0, 0⟩
      (penaltySubmission rules) .wrong (storedView rules) ⟨0, 0, 0, none, none⟩ where
  clock := by decide
  access := rfl
  allowed := rfl
  found := rfl
  requirements := ⟨[], rfl, Plays.pure true⟩
  stored := rfl
  judged := by
    refine ⟨[⟨some "exact", some ((penaltyGame rules).normalizeAnswer "right"), some "correct", none,
      some "right", none, []⟩], rfl, rfl, ?_⟩
    have hne : (penaltyGame rules).normalizeAnswer "right" ≠
        (penaltyGame rules).normalizeAnswer "wrong" := by
      have hr : (penaltyGame rules).normalizeAnswer "right" =
          (penaltyGame []).normalizeAnswer "right" :=
        rfl
      have hw : (penaltyGame rules).normalizeAnswer "wrong" =
          (penaltyGame []).normalizeAnswer "wrong" :=
        rfl
      rw [hr, hw]
      decide +kernel
    rw [judge, if_pos rfl]
    show Plays 0 (if some ((penaltyGame rules).normalizeAnswer "right") =
      some ((penaltyGame rules).normalizeAnswer "wrong") then _ else _) 0 _ _ _
    rw [if_neg (fun heq => hne (Option.some.inj heq)), judge]
    exact Plays.pure _
  triggers := rfl
  row := rfl

/-- A minute of cooldown and five points are stored. -/
theorem wrongAnswer_committed_iff_minute :
    ∃ submitted v', Answers 0 (Tx.transaction 0 .stmt (submitBody (penaltyGame
        [⟨.fixedTime, [60]⟩, ⟨.currency, [1, 5]⟩]) 0 ⟨7, some 1⟩ 1 "wrong" 5 1
        ((penaltyGame [⟨.fixedTime, [60]⟩, ⟨.currency, [1, 5]⟩]).normalizeAnswer "wrong")))
        0 penaltyView (.ok submitted) v' ∧
      PenaltyKept 1 1 0 5 .wrong [⟨.fixedTime, [60]⟩, ⟨.currency, [1, 5]⟩]
        (storedView [⟨.fixedTime, [60]⟩, ⟨.currency, [1, 5]⟩]) v' := by
  have hvalid : validatePenaltyCurrency (fun _ => true) false
      [⟨.fixedTime, [60]⟩, ⟨.currency, [1, 5]⟩] = true := rfl
  refine (wrongAnswer_committed_iff (judged_penaltyGame _) rfl rfl
    hvalid).1.2 ⟨?_, ?_⟩
  · intro currency tc c htc hc hpos
    by_cases h : currency = 1
    · subst h
      cases htc
      cases hc
      exact ⟨0, rfl, by decide⟩
    · have hzero : penaltyIn currency [⟨.fixedTime, [60]⟩, ⟨.currency, [1, 5]⟩] = 0 := by
        show 0 + ((if 1 = currency then (5 : BigInt).val else 0) + 0) = 0
        rw [if_neg (Ne.symm h)]
        rfl
      rw [hzero] at hpos
      exact absurd hpos (lt_irrefl 0)
  · intro s hs
    cases hs
    decide

/-- **A wrong answer is lost**: the greatest number of seconds is accepted, and the interval does not
fit. -/
theorem wrongAnswer_lost :
    validatePenaltyCurrency (fun _ => true) false
      [⟨.fixedTime, [BigInt.saturate 9223372036854775807]⟩] = true ∧
    ∃ e, Answers 0 (Tx.transaction 0 .stmt (submitBody (penaltyGame
        [⟨.fixedTime, [BigInt.saturate 9223372036854775807]⟩]) 0 ⟨7, some 1⟩ 1 "wrong" 5 1
        ((penaltyGame [⟨.fixedTime, [BigInt.saturate 9223372036854775807]⟩]).normalizeAnswer "wrong")))
        0 penaltyView (.error e) penaltyView := by
  have hvalid : validatePenaltyCurrency (fun _ => true) false
      [⟨.fixedTime, [BigInt.saturate 9223372036854775807]⟩] = true := rfl
  refine ⟨hvalid, ((judged_penaltyGame _).penalty rfl rfl hvalid).2 ?_⟩
  intro hfits
  have hlate := hfits.cooldown _ rfl
  exact absurd hlate (by decide)

end Play
