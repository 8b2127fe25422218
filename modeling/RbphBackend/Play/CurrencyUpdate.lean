import RbphBackend.Concurrency.Alone
import RbphBackend.Play.Host

set_option relaxedAutoImplicit false
set_option autoImplicit false

/-!
# Errors of currency updates

`update_currency_conn` writes the row first and computes the delta of its event afterwards. An
update whose delta does not fit an `i64` ends in an error that no SQL statement has raised, so the
caller's transaction is still open, with the row written.

## Main definitions

* `Play.KeepsRows` — where a call ends in such an error, the transaction sees what it saw before.
* `Play.DeltaFits` — the delta of the event of an update is in range.

## Main results

* `Play.updateCurrency_keepsRows_iff` — an update keeps the rows just if the delta fits; in a
  transaction of its own it always does.
-/

namespace Play

open Concurrency ReadCommitted Numeric Database Currency

/-! ## What is said of a call -/

/-- Where the call ends in an error and the transaction has not been aborted, it sees the rows it
saw before the call. -/
def KeepsRows {α : Type} (t : Tid) (call : Call α) (d : Store) : Prop :=
  ∀ e d', call.run.alone d = some (.error e, d') → d'.sess t ≠ none → d'.view t = d.view t

/-- The delta of the event of an update: what is stored less what the lock has found fits. -/
def DeltaFits (cfg : Config) (rt : RuntimeContext) (team : Id) (currency : HostCurrencyRef)
    (options : UpdateCurrencyOptions) (v : View) (now : ℤ) : Prop :=
  ∀ eff row amount, lockCurrencyRef cfg rt team currency v now = .ok eff → eff.val = some row →
    options.amount = some amount →
      BigInt.InRange (min amount.val row.maxAmount.val - row.currentAmount.val)

/-! ## The statements on their own -/

section Statements

variable {β : Type} {t : Tid} {d d' : Store} {S : Session EventLogInput} {l : Label}
  {r : Except String β}

/-- **A statement of an open transaction**: it aborts the transaction, or takes effect. -/
lemma alone_query_cases {stmt : Statement β} (hS : d.sess t = some S)
    (h : (Tx.query t l stmt : Call β).run.alone d = some (r, d')) :
    (∃ e, stmt (d.view t) S.start = .error e ∧ r = .error e ∧ d' = d.rollback t) ∨
      ∃ eff, stmt (d.view t) S.start = .ok eff ∧ r = .ok eff.val ∧
        d' = d.afterQuery t S eff := by
  rw [Tx.query, Fallible.alone_atomic] at h
  rcases Db.query_cases h with ⟨hnone, -, -⟩ | ⟨S', hS', hcase⟩
  · rw [hS] at hnone
    cases hnone
  · obtain rfl : S' = S := Option.some.inj (hS'.symm.trans hS)
    rcases hcase with herr | ⟨eff, heff, hr, -, hd⟩
    · exact .inl herr
    · exact .inr ⟨eff, heff, hr, hd⟩

/-- What the transaction sees after its statement. -/
lemma view_afterQuery {eff : Effect Val EventLogInput β} :
    (d.afterQuery t S eff).view t = applyPuts eff.puts (d.view t) := by
  funext k
  by_cases hk : k ∈ eff.puts.map (·.1)
  · have h : (d.afterQuery t S eff).rows k = .held t (d.rows k).committed
        (applyPuts eff.puts (d.view t) k) := Db.putRows_of_mem hk
    simp [Db.view, h]
  · have h : (d.afterQuery t S eff).rows k = d.rows k := Db.putRows_of_notMem hk
    rw [applyPuts_of_notMem hk, Db.view, h, Db.view]

lemma sess_rollback : (d.rollback t).sess t = none := by simp [Db.rollback]

end Statements

/-! ## An update -/

section Update

variable {cfg : Config} {rt : RuntimeContext} {t : Tid} {team : Id} {currency : HostCurrencyRef}
  {options : UpdateCurrencyOptions} {reason : Option String} {d d' : Store}
  {S : Session EventLogInput} {row : CurrencyRuntimeRow}
  {r : Except String (Option RbCurrencyShowData)}

/-- What an update does once it has locked the row. -/
def updateCurrencyLocked (rt : RuntimeContext) (t : Tid) (team : Id)
    (options : UpdateCurrencyOptions) (reason : Option String) (row : CurrencyRuntimeRow) :
    Call (Option RbCurrencyShowData) := do
  applyCurrencyUpdateConn t team row options
  (match options.amount with
    | none => pure ()
    | some amount =>
      insertBackendCurrencyUpdateEventConn t team row (BigInt.min amount row.maxAmount)
        (some (rt.eventContext reason)))
  Tx.query t .stmt (getCurrencyInfoOneAll team row.id)

/-- The view in which the row of the currency has been written. -/
def writtenRow (team : Id) (row : CurrencyRuntimeRow) (options : UpdateCurrencyOptions) (now : ℤ)
    (v : View) : View :=
  match v (.teamCurrency team row.id) with
  | none => v
  | some tc => Function.update v (.teamCurrency team row.id)
      (some (applyCurrencyUpdate row options now tc))

/-- The delta of the event fits, where there is one. -/
def RowFits (row : CurrencyRuntimeRow) (options : UpdateCurrencyOptions) : Prop :=
  ∀ amount, options.amount = some amount →
    BigInt.InRange (min amount.val row.maxAmount.val - row.currentAmount.val)

/-- The first statement writes the row. -/
lemma applyCurrencyUpdateConn_alone {r : Except String Unit} (hS : d.sess t = some S)
    (h : (applyCurrencyUpdateConn t team row options).run.alone d = some (r, d')) :
    r = .ok () ∧ d'.sess t = some S ∧
      d'.view t = writtenRow team row options S.start (d.view t) := by
  rcases alone_query_cases hS h with ⟨e, he, -, -⟩ | ⟨eff, heff, rfl, rfl⟩
  · unfold setTeamCurrency at he
    split at he <;> cases he
  · rw [view_afterQuery, Db.afterQuery_sess]
    unfold setTeamCurrency at heff
    unfold writtenRow
    split at heff
    · rename_i htc
      obtain rfl := Except.ok.inj heff
      simp [htc]
    · rename_i tc htc
      obtain rfl := Except.ok.inj heff
      simp [htc]

/-- The event is inserted just if its delta fits. -/
lemma insertBackendCurrencyUpdateEventConn_alone {amount : BigInt} {r : Except String Unit}
    {context : Option CurrencyEventContext} (hS : d.sess t = some S)
    (h : (insertBackendCurrencyUpdateEventConn t team row (BigInt.min amount row.maxAmount)
      context).run.alone d = some (r, d')) :
    (BigInt.InRange (min amount.val row.maxAmount.val - row.currentAmount.val) ∧ r = .ok () ∧
      d'.sess t ≠ none) ∨
    (¬ BigInt.InRange (min amount.val row.maxAmount.val - row.currentAmount.val) ∧
      r = .error "currency.update delta amount overflow" ∧ d' = d) := by
  unfold insertBackendCurrencyUpdateEventConn at h
  cases hsub : (BigInt.min amount row.maxAmount).checkedSub row.currentAmount with
  | none =>
    rw [hsub] at h
    obtain ⟨rfl, rfl⟩ := Prod.mk.inj (Option.some.inj h)
    refine .inr ⟨?_, rfl, rfl⟩
    rw [← BigInt.min_val]
    exact BigInt.ofInt?_eq_none.mp hsub
  | some delta =>
    rw [hsub] at h
    have hdelta := BigInt.checkedSub_eq_some.mp hsub
    rw [BigInt.min_val] at hdelta
    rcases alone_query_cases hS h with ⟨e, he, -, -⟩ | ⟨eff, -, rfl, rfl⟩
    · cases he
    · refine .inl ⟨by rw [← hdelta]; exact delta.inRange, rfl, ?_⟩
      rw [Db.afterQuery_sess]
      exact Option.some_ne_none _

/-- The last statement ends in an error only by aborting the transaction. -/
lemma getCurrencyInfoOneAll_alone {e : String} {id : Id} (hS : d.sess t ≠ none)
    (h : (Tx.query t .stmt (getCurrencyInfoOneAll team id) :
      Call (Option RbCurrencyShowData)).run.alone d = some (.error e, d')) : d'.sess t = none := by
  obtain ⟨S, hS⟩ := Option.ne_none_iff_exists'.mp hS
  rcases alone_query_cases hS h with ⟨e, -, -, rfl⟩ | ⟨eff, -, hr, -⟩
  · exact sess_rollback
  · cases hr

/-- **What an update does with the locked row**: where the delta fits, an error has aborted the
transaction; where it does not, the transaction goes on with the row written. -/
lemma updateCurrencyLocked_alone (hS : d.sess t = some S)
    (h : (updateCurrencyLocked rt t team options reason row).run.alone d = some (r, d')) :
    (RowFits row options ∧ ∀ e, r = .error e → d'.sess t = none) ∨
    (¬ RowFits row options ∧ (∃ e, r = .error e) ∧ d'.sess t ≠ none ∧
      d'.view t = writtenRow team row options S.start (d.view t)) := by
  unfold updateCurrencyLocked at h
  rw [Fallible.alone_bind] at h
  obtain ⟨⟨r₁, d₁⟩, h₁, h'⟩ := Option.bind_eq_some_iff.mp h
  obtain ⟨rfl, hS₁, hview⟩ := applyCurrencyUpdateConn_alone hS h₁
  dsimp only at h'
  rw [Fallible.alone_bind] at h'
  obtain ⟨⟨r₂, d₂⟩, h₂, hlast⟩ := Option.bind_eq_some_iff.mp h'
  cases hamount : options.amount with
  | none =>
    rw [hamount] at h₂
    obtain ⟨rfl, rfl⟩ := Prod.mk.inj (Option.some.inj h₂)
    refine .inl ⟨?_, ?_⟩
    · intro amount ha
      rw [hamount] at ha
      cases ha
    · rintro e rfl
      exact getCurrencyInfoOneAll_alone (by rw [hS₁]; exact Option.some_ne_none _) hlast
  | some amount =>
    rw [hamount] at h₂
    rcases insertBackendCurrencyUpdateEventConn_alone hS₁ h₂ with
      ⟨hfits, rfl, hS₂⟩ | ⟨hfits, rfl, rfl⟩
    · refine .inl ⟨fun amount' ha => ?_, ?_⟩
      · obtain rfl := Option.some.inj (hamount.symm.trans ha)
        exact hfits
      · rintro e rfl
        exact getCurrencyInfoOneAll_alone hS₂ hlast
    · obtain ⟨rfl, rfl⟩ := Prod.mk.inj (Option.some.inj hlast)
      refine .inr ⟨fun hall => hfits (hall amount hamount), ⟨_, rfl⟩, ?_, hview⟩
      rw [hS₁]
      exact Option.some_ne_none _

/-- What the locking statement has found. -/
lemma lockCurrencyRef_eq_ok {v : View} {now : ℤ}
    {eff : Effect Val EventLogInput (Option CurrencyRuntimeRow)}
    (h : lockCurrencyRef cfg rt team currency v now = .ok eff) :
    (∀ p ∈ eff.puts, p.2 = v p.1) ∧ ∀ row, eff.val = some row →
      ∃ w : Wallet, w.lockRuntime now = .ok row ∧ v (.teamCurrency team row.id) = some w.team := by
  unfold lockCurrencyRef at h
  split at h
  · obtain rfl := Except.ok.inj h
    simp
  · rename_i id hid
    unfold lockCurrencyRuntimeConn at h
    split at h
    · obtain rfl := Except.ok.inj h
      simp
    · rename_i w hw
      split at h
      · cases h
      · rename_i row hrow
        obtain rfl := Except.ok.inj h
        obtain ⟨htc, ⟨c, hcw, -⟩, -⟩ := walletOf_eq_some.mp hw
        refine ⟨by simp [lockRow], fun row' hrow' => ?_⟩
        obtain rfl := Option.some.inj hrow'
        refine ⟨w, hrow, ?_⟩
        obtain ⟨b, -, hb⟩ := lockCurrencyRuntime_eq_ok.mp hrow
        have hrowId : row.id = id := by
          rw [hb]
          show w.currency.id = id
          rw [← hcw]
          exact c.property
        rw [hrowId]
        exact htc

/-- An update whose delta does not fit changes the row. -/
lemma applyCurrencyUpdate_ne {w : Wallet} {now : ℤ} (hrow : w.lockRuntime now = .ok row)
    (hfits : ¬ RowFits row options) : applyCurrencyUpdate row options now w.team ≠ w.team := by
  intro heq
  apply hfits
  intro amount hamount
  obtain ⟨b, hb, rfl⟩ := lockCurrencyRuntime_eq_ok.mp hrow
  have hclock := congrArg TeamCurrencyRow.utimeAt heq
  have hstored := congrArg (fun tc => tc.amount.val) heq
  simp only [applyCurrencyUpdate, hamount, reduceCtorEq, false_and, if_false, Option.getD_some,
    BigInt.min_val] at hclock hstored
  -- the row was written at this very instant, so no growth stands between it and the balance
  have hbalance : b.val = w.team.amount.val := by
    cases hs : w.feature.state with
    | closed =>
      rw [hs, runtimeAmount_closed] at hb
      rw [Except.ok.inj hb]
    | opened =>
      rw [hs] at hb
      obtain ⟨-, hb⟩ := runtimeAmount_opened_eq_ok.mp hb
      have hn : minutes w.team.utimeAt now = 0 := by
        unfold minutes
        omega
      rw [hn] at hb
      simp only [clampGrown, leastGrown, Int.zero_mul] at hb
      omega
  dsimp only
  rw [hstored, hbalance, Int.sub_self]
  decide

/-- Nothing has been committed in between. -/
structure SameCommitted (d d' : Store) : Prop where
  committed : d'.committed = d.committed
  wf : d.WF → d'.WF

namespace SameCommitted

lemma refl (d : Store) : SameCommitted d d := ⟨rfl, id⟩

lemma trans (d₁ d₂ d₃ : Store) (h : SameCommitted d₁ d₂) (h' : SameCommitted d₂ d₃) :
    SameCommitted d₁ d₃ := ⟨h'.committed.trans h.committed, fun hwf => h'.wf (h.wf hwf)⟩

end SameCommitted

lemma leavesCommitted_query {β : Type} {l : Label} {stmt : Statement β} :
    (Tx.query t l stmt : Call β).LeavesRelated SameCommitted := by
  refine .atomic fun d r d' h => ?_
  have hmoves := Db.query_moves (P := fun _ => False) h
  refine ⟨?_, hmoves.wf⟩
  rcases hmoves.commits with ⟨-, hcommitted⟩ | ⟨e, -, -, -, -, hfalse⟩
  · exact hcommitted
  · exact hfalse.elim

/-- No update commits by itself. -/
lemma leavesCommitted_updateCurrencyRef :
    (updateCurrencyRef cfg rt t team currency options reason).LeavesRelated SameCommitted := by
  refine .bind SameCommitted.trans leavesCommitted_query fun row => ?_
  cases row with
  | none => exact .pure SameCommitted.refl _
  | some row =>
    refine .bind SameCommitted.trans leavesCommitted_query fun _ => ?_
    refine .bind SameCommitted.trans ?_ fun _ => leavesCommitted_query
    cases options.amount with
    | none => exact .pure SameCommitted.refl _
    | some amount =>
      show (insertBackendCurrencyUpdateEventConn t team row _ _).LeavesRelated SameCommitted
      unfold insertBackendCurrencyUpdateEventConn
      cases (BigInt.min amount row.maxAmount).checkedSub row.currentAmount with
      | none => exact .throw SameCommitted.refl _
      | some delta => exact leavesCommitted_query

/-- A session without a transaction sees what is committed. -/
lemma view_of_sess_none (hwf : d.WF) (h : d.sess t = none) : d.view t = d.committed := by
  funext k
  exact Db.view_of_not_heldBy fun hheld => hwf k t hheld h

lemma view_rollback : (d.rollback t).view t = d.committed := by
  funext k
  by_cases hh : (d.rows k).HeldBy t
  · simp [Db.rollback, Db.view, Db.committed, hh]
  · simp [Db.rollback, Db.view, Db.committed, hh, Row.view_of_not_heldBy]

/-- Where the end of a transaction is an error, nothing has been committed. -/
lemma view_of_finish_error {α : Type} {r : Except String (Bool × α)} {e : String} (hwf : d.WF)
    (h : (Tx.finish t .stmt r : Call α).run.alone d = some (.error e, d')) :
    d'.view t = d.committed := by
  match r with
  | .ok (true, a) =>
    rw [Tx.finish, Fallible.alone_bind, Tx.commit, Fallible.alone_atomic] at h
    cases hS : d.sess t with
    | none =>
      simp only [Db.commitTx, hS, Option.bind_some, Option.some.injEq, Prod.mk.injEq] at h
      rw [← h.2]
      exact view_of_sess_none hwf hS
    | some S => simp [Db.commitTx, hS] at h
  | .ok (false, a) =>
    rw [Tx.finish, Fallible.alone_bind, Tx.rollback, Fallible.alone_atomic] at h
    simp [Db.rollbackTx] at h
  | .error e' =>
    rw [Tx.finish, Fallible.alone_bind, Tx.rollback, Fallible.alone_atomic] at h
    simp only [Db.rollbackTx, Option.bind_some, Fallible.alone_throw, Option.some.injEq,
      Prod.mk.injEq] at h
    rw [← h.2]
    exact view_rollback

/-- **A call in a transaction of its own** that ends in an error leaves what was there. -/
lemma ownTx_keeps {α : Type} {call : Call α} (hcall : call.LeavesRelated SameCommitted)
    (hwf : d.WF) (hnone : d.sess t = none) {e : String}
    (h : (ownTx t call).run.alone d = some (.error e, d')) : d'.view t = d.view t := by
  unfold ownTx Tx.transaction at h
  rw [Fallible.alone_bind] at h
  obtain ⟨⟨r₁, d₁⟩, h₁, h'⟩ := Option.bind_eq_some_iff.mp h
  rw [Tx.beginTx, Fallible.alone_atomic] at h₁
  obtain ⟨-, rfl, hd₁⟩ := Db.beginTx_eq h₁
  have hcommitted₁ : d₁.committed = d.committed := by rw [hd₁]; rfl
  have hwf₁ : d₁.WF := (Db.beginTx_moves (P := fun _ => False) h₁).wf hwf
  have hbody : (do let a ← call; return (true, a) : Call (Bool × α)).LeavesRelated
      SameCommitted :=
    .bind SameCommitted.trans hcall fun a => .pure SameCommitted.refl _
  change (Prog.bind _ _).alone d₁ = _ at h'
  rw [Prog.alone_bind] at h'
  obtain ⟨⟨r₂, d₂⟩, h₂, hlast⟩ := Option.bind_eq_some_iff.mp h'
  obtain ⟨hcommitted₂, hwf₂⟩ := hbody d₁ r₂ d₂ h₂
  have hfinal : d'.view t = d₂.committed := view_of_finish_error (hwf₂ hwf₁) hlast
  rw [hfinal, hcommitted₂, hcommitted₁, view_of_sess_none hwf hnone]

/-- **An update that ends in an error keeps the rows just if the delta of its event fits.** In the
caller's transaction, from which it returns, an error that is not an SQL error leaves the rows as
they were if and only if the delta fits; in a transaction of its own an error always does. -/
theorem updateCurrency_keepsRows_iff (hS : d.sess t = some S)
    (hreturns : ((updateCurrencyRef cfg rt t team currency options reason).run.alone d).isSome) :
    (KeepsRows t (updateCurrencyRef cfg rt t team currency options reason) d ↔
      DeltaFits cfg rt team currency options (d.view t) S.start) ∧
    ∀ (own own' : Store) (e : String), own.WF → own.sess t = none →
      (ownTx t (updateCurrencyRef cfg rt t team currency options reason)).run.alone own =
        some (.error e, own') → own'.view t = own.view t := by
  refine ⟨?_, fun own own' e hwf hnone h =>
    ownTx_keeps leavesCommitted_updateCurrencyRef hwf hnone h⟩
  obtain ⟨⟨r, d'⟩, hrun⟩ := Option.isSome_iff_exists.mp hreturns
  have hkeeps : KeepsRows t (updateCurrencyRef cfg rt t team currency options reason) d ↔
      ∀ e, r = .error e → d'.sess t ≠ none → d'.view t = d.view t := by
    simp only [KeepsRows, hrun, Option.some.injEq, Prod.mk.injEq]
    constructor
    · intro h e hr
      exact h e d' ⟨hr, rfl⟩
    · rintro h e _ ⟨hr, rfl⟩
      exact h e hr
  rw [hkeeps]
  unfold updateCurrencyRef at hrun
  rw [Fallible.alone_bind] at hrun
  obtain ⟨⟨r₁, d₁⟩, hlock, hrest⟩ := Option.bind_eq_some_iff.mp hrun
  rcases alone_query_cases hS hlock with ⟨e, herr, rfl, rfl⟩ | ⟨eff, heff, rfl, rfl⟩
  · -- the locking statement has aborted the transaction
    obtain ⟨rfl, rfl⟩ := Prod.mk.inj (Option.some.inj hrest)
    constructor
    · intro _ eff row amount heff
      rw [herr] at heff
      cases heff
    · intro _ e' _ hopen
      exact absurd sess_rollback hopen
  · obtain ⟨hlocks, hfound⟩ := lockCurrencyRef_eq_ok heff
    have hview : (d.afterQuery t S eff).view t = d.view t := by
      rw [view_afterQuery, applyPuts_of_locks hlocks]
    cases hval : eff.val with
    | none =>
      rw [hval] at hrest
      obtain ⟨rfl, rfl⟩ := Prod.mk.inj (Option.some.inj hrest)
      constructor
      · intro _ eff' row amount heff' hrow
        obtain rfl := Except.ok.inj (heff.symm.trans heff')
        rw [hval] at hrow
        cases hrow
      · intro _ e he
        cases he
    | some row =>
      rw [hval] at hrest
      obtain ⟨w, hw, htc⟩ := hfound row hval
      have hfits : DeltaFits cfg rt team currency options (d.view t) S.start ↔
          RowFits row options := by
        constructor
        · intro h amount hamount
          exact h eff row amount heff hval hamount
        · intro h eff' row' amount heff' hrow' hamount
          obtain rfl := Except.ok.inj (heff.symm.trans heff')
          obtain rfl := Option.some.inj (hval.symm.trans hrow')
          exact h amount hamount
      rw [hfits]
      rcases updateCurrencyLocked_alone Db.afterQuery_sess hrest with
        ⟨hrow, haborted⟩ | ⟨hrow, ⟨e, rfl⟩, hopen, hwritten⟩
      · constructor
        · intro _
          exact hrow
        · intro _ e hr hopen
          exact absurd (haborted e hr) hopen
      · constructor
        · intro h
          have hsame := congrFun (h e rfl hopen) (.teamCurrency team row.id)
          rw [hwritten, hview] at hsame
          unfold writtenRow at hsame
          simp only [htc, Function.update_self, Option.some.injEq] at hsame
          exact absurd hsame (applyCurrencyUpdate_ne hw hrow)
        · intro h
          exact absurd h hrow

end Update

/-! ## An update whose delta does not fit -/

/-- A game without puzzles, with one currency. -/
def bareGame : Config where
  rounds := []
  puzzles := []
  phases := []
  hints := []
  contentBlocks := []
  user _ := none
  doubles := Backend.integers
  backend _ := none
  currencyIds := [1]
  ticketIds := []
  judgeRules _ := .ok []
  penaltyRules _ := .ok []
  submitRequirements _ := .ok []
  toLowercase c := [c]

/-- A backend of its first puzzle. -/
def bareRuntime : RuntimeContext := ⟨1, 1, 1, 1, "", "", ""⟩

/-- The greatest balance there may be. -/
def fullWallet : Wallet where
  currency := ⟨1, 1, "points", "Points", 0, 0, false, BigInt.saturate 9223372036854775807, 0⟩
  team := ⟨BigInt.saturate 9223372036854775807, 0, false, 0⟩
  feature := ⟨.opened, 0⟩

/-- A store with this balance, in which a transaction is open. -/
def fullStore : Store :=
  { Db.init 0 (applyPuts [⟨.teamCurrency 1 1, some fullWallet.team⟩,
      ⟨.currency 1, some ⟨fullWallet.currency, rfl⟩⟩, ⟨.feature 1, some fullWallet.feature⟩]
      noRows) with
    sess := Function.update (fun _ => none) 0 (some ⟨0, []⟩) }

/-- The update that sets an amount. -/
def setAmount (amount : ℤ) : Call (Option RbCurrencyShowData) :=
  updateCurrencyRef bareGame bareRuntime 0 1 (.slug "points")
    ⟨some (BigInt.saturate amount), none, none⟩ none

/-- The delta from the greatest balance to none fits. -/
theorem updateCurrency_keepsRows_iff_zero :
    KeepsRows 0 (setAmount 0) fullStore ↔
      DeltaFits bareGame bareRuntime 1 (.slug "points") ⟨some (BigInt.saturate 0), none, none⟩
        (fullStore.view 0) 0 :=
  (updateCurrency_keepsRows_iff (S := ⟨0, []⟩) rfl (by decide +kernel)).1

/-- **The row is written and no event is logged**: an update from the greatest balance to -2 ends
in an error, and the transaction goes on with the new amount. -/
theorem update_error_writes : ¬ KeepsRows 0 (setAmount (-2)) fullStore := by
  have hrun : ((setAmount (-2)).run.alone fullStore).any (fun r =>
      r.1 = .error "currency.update delta amount overflow" ∧ (r.2.sess 0).isSome ∧
        ((r.2.view 0 (.teamCurrency 1 1)).map (·.amount.val)) = some (-2)) = true := by
    decide +kernel
  cases h : (setAmount (-2)).run.alone fullStore with
  | none =>
    rw [h] at hrun
    cases hrun
  | some r =>
    obtain ⟨r, d'⟩ := r
    rw [h] at hrun
    simp only [Option.any_some, decide_eq_true_eq] at hrun
    obtain ⟨rfl, hopen, hamount⟩ := hrun
    intro hkeeps
    have hview := hkeeps _ d' h (Option.isSome_iff_ne_none.mp hopen)
    rw [hview] at hamount
    revert hamount
    decide +kernel

end Play
