import RbphBackend.Play.Origins

set_option relaxedAutoImplicit false
set_option autoImplicit false

/-!
# Calm calls

Most of what a call does adds no deed: it reads, it locks, it changes balances, stored values and
submissions. What such a part of a call keeps, all its statements keep; this is proved once for
statements in a transaction and for statements that are transactions of their own.

## Main results

* `Play.isQuiet_lockTeam` and so on — the statements.
* `Play.kvCall_closed`, `Play.judgeHost_closed` — host calls.
* `Play.applyPenalties_closed`, `Play.refreshTeamHintStatesConn_closed` — parts of the transactions.
-/

namespace Play

open Concurrency ReadCommitted Numeric Database Currency

/-! ## Statements -/

section Statements

variable {β : Type} {cfg : Config} {rt : RuntimeContext} {team puzzle : Id}

lemma isQuiet_lockTeam : IsQuiet (lockTeam team) := by
  refine IsQuiet.of_locks ?_
  rintro v now eff ⟨⟩
  refine ⟨fun p hp => ?_, rfl⟩
  simp only at hp
  split_ifs at hp
  · obtain rfl := List.mem_singleton.mp hp
    rfl
  · simp at hp

lemma isQuiet_selectSubmission {submission : Id} :
    IsQuiet (selectSubmission team puzzle submission) := by
  refine IsQuiet.of_locks fun v now eff h => ?_
  unfold selectSubmission at h
  split at h <;> obtain rfl := Except.ok.inj h
  · simp
  · simp [lockRow]

lemma isQuiet_selectAccess : IsQuiet (selectAccess cfg team puzzle) := by
  refine IsQuiet.of_locks fun v now eff h => ?_
  unfold selectAccess at h
  split at h <;> obtain rfl := Except.ok.inj h
  · simp [lockRow]
  · simp

lemma isQuiet_lockFeature {gameId : Id} : IsQuiet (lockFeature gameId) := by
  refine IsQuiet.of_locks fun v now eff h => ?_
  unfold lockFeature at h
  split at h <;> obtain rfl := Except.ok.inj h
  · simp
  · simp [lockRow]

lemma isQuiet_selectRequirementAmount {gameId currency : Id} :
    IsQuiet (selectRequirementAmount team gameId currency) := by
  refine IsQuiet.of_locks fun v now eff h => ?_
  unfold selectRequirementAmount at h
  split at h
  · obtain rfl := Except.ok.inj h
    simp
  · split_ifs at h
    · obtain ⟨current, -, h⟩ := bind_eq_ok.mp h
      obtain rfl := pure_eq_ok.mp h
      simp [lockRow]
    · obtain rfl := Except.ok.inj h
      simp

lemma isQuiet_lockCurrencyRuntimeConn {currency : Id} :
    IsQuiet (lockCurrencyRuntimeConn team currency) := by
  refine IsQuiet.of_locks fun v now eff h => ?_
  unfold lockCurrencyRuntimeConn at h
  split at h
  · obtain rfl := Except.ok.inj h
    simp
  · split at h
    · simp at h
    · obtain rfl := Except.ok.inj h
      simp [lockRow]

lemma isQuiet_lockCurrencyRef {currency : HostCurrencyRef} :
    IsQuiet (lockCurrencyRef cfg rt team currency) := by
  refine .of_puts fun v now eff h => ?_
  unfold lockCurrencyRef at h
  split at h
  · obtain rfl := Except.ok.inj h
    simp
  · exact isQuiet_lockCurrencyRuntimeConn.puts h

lemma isQuiet_getCurrencyInfoRef {currency : HostCurrencyRef} :
    IsQuiet (getCurrencyInfoRef cfg rt team currency) := by
  refine .of_puts fun v now eff h => ?_
  unfold getCurrencyInfoRef at h
  split at h
  · obtain rfl := Except.ok.inj h
    simp
  · exact isQuiet_read.puts h

lemma isQuiet_setTeamCurrency {currency : Id} {f : TeamCurrencyRow → ℤ → TeamCurrencyRow} :
    IsQuiet (setTeamCurrency team currency f) := by
  refine .of_puts fun v now eff h => ?_
  unfold setTeamCurrency at h
  split at h <;> obtain rfl := Except.ok.inj h <;> simp [OriginKept]

lemma isQuiet_kvStatement {at_ : Backend.Instants} {call : Backend.KvCall cfg.doubles} :
    IsQuiet (kvStatement cfg at_ call) := by
  refine .of_puts fun v now eff h => ?_
  unfold kvStatement at h
  dsimp only at h
  split at h
  · simp at h
  · obtain rfl := Except.ok.inj h
    refine ⟨fun p hp => ?_, by simp⟩
    simp only at hp
    split_ifs at hp
    · simp at hp
    · obtain rfl := List.mem_singleton.mp hp
      exact ⟨trivial, trivial⟩

lemma isQuiet_insertBackendSubmission {normalize : String → String} {data : BackendSubmissionInput}
    {id : Id} : IsQuiet (insertBackendSubmission rt normalize data id) := by
  refine .of_puts fun v now eff h => ?_
  unfold insertBackendSubmission at h
  dsimp only at h
  split_ifs at h
  obtain rfl := Except.ok.inj h
  simp [OriginKept]

lemma isQuiet_error {e : String} : IsQuiet (fun _ _ => .error e : Statement β) := by
  refine .of_puts fun v now eff h => ?_
  simp at h

lemma isQuiet_setLocal : IsQuiet setLocal := by
  refine .of_puts ?_
  rintro v now eff ⟨⟩
  simp

lemma isQuiet_insertSubmission {id user : Id} {answer norm : String} :
    IsQuiet (insertSubmission team puzzle id user answer norm) := by
  refine .of_puts fun v now eff h => ?_
  unfold insertSubmission at h
  dsimp only at h
  split_ifs at h <;> obtain rfl := Except.ok.inj h <;> simp [OriginKept]

lemma isQuiet_updateSubmission {id : Id} {result : JudgeResult} :
    IsQuiet (updateSubmission team puzzle id result) := by
  refine .of_puts ?_
  rintro v now eff ⟨⟩
  simp [OriginKept]

lemma isQuiet_insertTeamCurrencies {utimeAt : ℤ} :
    IsQuiet (insertTeamCurrencies cfg team utimeAt) := by
  refine .of_puts ?_
  rintro v now eff ⟨⟩
  refine ⟨fun p hp => ?_, by simp⟩
  obtain ⟨id, -, hid⟩ := List.mem_filterMap.mp hp
  split at hid
  · split_ifs at hid
    obtain rfl := Option.some.inj hid
    exact ⟨trivial, trivial⟩
  · simp at hid

lemma isQuiet_penalizeCurrency {currency : Id} {amount : BigInt} :
    IsQuiet (penalizeCurrency team currency amount) := by
  refine .of_puts fun v now eff h => ?_
  unfold penalizeCurrency at h
  split at h
  · obtain ⟨current, -, h⟩ := bind_eq_ok.mp h
    obtain ⟨after, -, h⟩ := bind_eq_ok.mp h
    obtain rfl := pure_eq_ok.mp h
    simp [lockRow, OriginKept]
  · obtain rfl := Except.ok.inj h
    simp

/-- A cooldown is not ranked. -/
lemma isQuiet_setCooldown {seconds : BigInt} : IsQuiet (setCooldown team puzzle seconds) := by
  refine .of_puts fun v now eff h => ?_
  unfold setCooldown at h
  split at h
  · obtain rfl := Except.ok.inj h
    simp
  · rename_i tp htp
    obtain ⟨interval, -, h⟩ := bind_eq_ok.mp h
    obtain ⟨till, -, h⟩ := bind_eq_ok.mp h
    obtain rfl := pure_eq_ok.mp h
    refine ⟨fun p hp => ?_, by simp⟩
    obtain rfl := List.mem_singleton.mp hp
    simp [htp, core, OriginKept]

lemma isQuiet_chargeCurrency {currency : Id} {amount : BigInt}
    {eligible : View → CurrencyRow → Bool} :
    IsQuiet (chargeCurrency team currency amount eligible) := by
  refine .of_puts fun v now eff h => ?_
  rcases chargeCurrency_eq_ok h with rfl | ⟨tc, tc', c, data, -, -, -, -, rfl⟩
  · simp
  · simp [lockRow, OriginKept]

lemma isQuiet_updateTeam {affectsOrder : Bool} : IsQuiet (updateTeam team affectsOrder) := by
  refine .of_puts fun v now eff h => ?_
  unfold updateTeam at h
  split at h <;> obtain rfl := Except.ok.inj h <;> simp [Calm, OriginKept]

lemma isQuiet_insertHintEnables {hints : List Id} : IsQuiet (insertHintEnables team hints) where
  calm := by
    rintro v now eff ⟨⟩
    refine ⟨fun p hp => ?_, by simp⟩
    obtain ⟨hint, -, rfl⟩ := List.mem_map.mp hp
    trivial
  origins := keepsOrigins_insertHintEnables

lemma isQuiet_upsertHintVisibility {hints : List (Id × Bool)} :
    IsQuiet (upsertHintVisibility team hints) where
  calm := by
    rintro v now eff ⟨⟩
    refine ⟨fun p hp => ?_, by simp⟩
    obtain ⟨hint, -, rfl⟩ := List.mem_map.mp hp
    trivial
  origins := keepsOrigins_upsertHintVisibility

end Statements

/-! ## Calls on any connection -/

section Executor

variable {Φ : ∀ {β : Type}, Call β → Prop} {cfg : Config} {rt : RuntimeContext} {team : Id}
  {run : Executor}

/-- `kvCall`. -/
lemma kvCall_closed (hΦ : Closed Φ)
    (hrun : ∀ {β : Type} (stmt : Statement β), IsQuiet stmt → Φ (run stmt)) {at_ : Backend.Instants}
    {call : Backend.KvCall cfg.doubles} : Φ (kvCall cfg rt run at_ call) := by
  refine hΦ.bind (hrun _ isQuiet_read) fun b => ?_
  cases b with
  | false => exact hΦ.throw _
  | true =>
    show Φ (if _ then _ else _)
    split
    · exact hrun _ isQuiet_kvStatement
    · exact hΦ.throw _

/-- `ensureCurrencyTeam`. -/
lemma ensureCurrencyTeam_closed (hΦ : Closed Φ)
    (hrun : ∀ {β : Type} (stmt : Statement β), IsQuiet stmt → Φ (run stmt)) {checkTeam : Bool} :
    Φ (ensureCurrencyTeam cfg rt team run checkTeam) := by
  refine hΦ.when (hΦ.bind (hrun _ isQuiet_read) fun b => ?_)
  cases b with
  | false => exact hΦ.throw _
  | true => exact hΦ.pure _

/-- `currencyQuery`. -/
lemma currencyQuery_closed (hΦ : Closed Φ)
    (hrun : ∀ {β : Type} (stmt : Statement β), IsQuiet stmt → Φ (run stmt))
    {currency : Option HostCurrencyRef} : Φ (currencyQuery cfg rt team run currency) := by
  cases currency with
  | none => exact hΦ.bind (hrun _ isQuiet_read) fun rows => hΦ.pure _
  | some currency => exact hΦ.bind (hrun _ isQuiet_getCurrencyInfoRef) fun row => hΦ.pure _

/-- `teamGateStateConn`. -/
lemma teamGateStateConn_closed (hΦ : Closed Φ)
    (hrun : ∀ {β : Type} (stmt : Statement β), IsQuiet stmt → Φ (run stmt)) :
    Φ (teamGateStateConn cfg run team) := by
  refine hΦ.bind (hrun _ isQuiet_read) fun tm => ?_
  cases tm with
  | none => exact hΦ.pure _
  | some tm =>
    exact hΦ.bind (hrun _ isQuiet_read) fun solved =>
      hΦ.bind (hrun _ isQuiet_read) fun triggers => hΦ.pure _

end Executor

/-! ## Calls in a transaction -/

section Transaction

variable {Φ : ∀ {β : Type}, Call β → Prop} {cfg : Config} {rt : RuntimeContext} {t : Tid}
  {team : Id}

/-- `costCurrencyRef`. -/
lemma costCurrencyRef_closed (hΦ : Closed Φ)
    (hq : ∀ {β : Type} (stmt : Statement β), IsQuiet stmt → Φ (Tx.query t .stmt stmt))
    {currency : HostCurrencyRef} {amount : BigInt} {reason : Option String} :
    Φ (costCurrencyRef cfg rt t team currency amount reason) := by
  refine hΦ.bind (hq _ isQuiet_lockCurrencyRef) fun row => ?_
  cases row with
  | none => exact hΦ.pure _
  | some row =>
    show Φ (costCurrencyLockedConn t team row amount _)
    unfold costCurrencyLockedConn
    split
    · exact hΦ.pure _
    · refine hΦ.bind (hq _ isQuiet_setTeamCurrency) fun _ => hΦ.bind (hq _ ?_) fun _ => hΦ.pure _
      exact isQuiet_insertEvent rfl

/-- `addCurrencyRef`. -/
lemma addCurrencyRef_closed (hΦ : Closed Φ)
    (hq : ∀ {β : Type} (stmt : Statement β), IsQuiet stmt → Φ (Tx.query t .stmt stmt))
    {currency : HostCurrencyRef} {amount : BigInt} {reason : Option String} :
    Φ (addCurrencyRef cfg rt t team currency amount reason) := by
  refine hΦ.bind (hq _ isQuiet_lockCurrencyRef) fun row => ?_
  cases row with
  | none => exact hΦ.pure _
  | some row =>
    show Φ (addCurrencyLockedConn t team row amount _)
    unfold addCurrencyLockedConn
    split
    · exact hΦ.throw _
    · refine hΦ.bind (hq _ isQuiet_setTeamCurrency) fun _ => hΦ.bind (hq _ ?_) fun _ => hΦ.pure _
      exact isQuiet_insertEvent rfl

/-- `updateCurrencyRef`. -/
lemma updateCurrencyRef_closed (hΦ : Closed Φ)
    (hq : ∀ {β : Type} (stmt : Statement β), IsQuiet stmt → Φ (Tx.query t .stmt stmt))
    {currency : HostCurrencyRef} {options : UpdateCurrencyOptions} {reason : Option String} :
    Φ (updateCurrencyRef cfg rt t team currency options reason) := by
  refine hΦ.bind (hq _ isQuiet_lockCurrencyRef) fun row => ?_
  cases row with
  | none => exact hΦ.pure _
  | some row =>
    refine hΦ.bind (hq _ isQuiet_setTeamCurrency) fun _ => hΦ.bind ?_ fun _ => hq _ isQuiet_read
    cases options.amount with
    | none => exact hΦ.pure _
    | some amount =>
      show Φ (insertBackendCurrencyUpdateEventConn t team row _ _)
      unfold insertBackendCurrencyUpdateEventConn
      split
      · exact hΦ.throw _
      · exact hq _ (isQuiet_insertEvent rfl)

/-- The host of a judge function. -/
lemma judgeHost_closed (hΦ : Closed Φ)
    (hq : ∀ {β : Type} (stmt : Statement β), IsQuiet stmt → Φ (Tx.query t .stmt stmt))
    (c : HostCall cfg.doubles) : Φ (judgeHost cfg rt t c) := by
  cases c with
  | kv at_ call => exact kvCall_closed hΦ hq
  | currencyQuery team checkTeam currency =>
    exact hΦ.bind (ensureCurrencyTeam_closed hΦ hq) fun _ => currencyQuery_closed hΦ hq
  | currencyCost team checkTeam currency amount reason =>
    exact hΦ.bind (ensureCurrencyTeam_closed hΦ hq) fun _ =>
      hΦ.bind (costCurrencyRef_closed hΦ hq) fun _ => hΦ.pure _
  | currencyAdd team checkTeam currency amount reason =>
    exact hΦ.bind (ensureCurrencyTeam_closed hΦ hq) fun _ =>
      hΦ.bind (addCurrencyRef_closed hΦ hq) fun _ => hΦ.pure _
  | currencyUpdate team checkTeam currency options reason =>
    exact hΦ.bind (ensureCurrencyTeam_closed hΦ hq) fun _ =>
      hΦ.bind (updateCurrencyRef_closed hΦ hq) fun _ => hΦ.pure _
  | submissionAdd submission id => exact hΦ.throw _
  | puzzleSolve submission => exact hΦ.throw _
  | interrupted e => exact hq _ isQuiet_error

/-- `submitRequirementsConn`. -/
lemma submitRequirementsConn_closed (hΦ : Closed Φ)
    (hq : ∀ {β : Type} (stmt : Statement β), IsQuiet stmt → Φ (Tx.query t .stmt stmt))
    {gameId : Id} (requirements : List PuzzleSubmitRequirement) :
    Φ (submitRequirementsConn t team gameId requirements) := by
  induction requirements with
  | nil => exact hΦ.pure _
  | cons requirement requirements ih =>
    cases requirement with
    | currencyMinimum currency minimum =>
      refine hΦ.bind (hq _ isQuiet_selectRequirementAmount) fun amount => ?_
      cases amount with
      | none => exact hΦ.pure _
      | some amount =>
        show Φ (if _ then _ else _)
        split
        · exact hΦ.pure _
        · exact ih

variable {ctx : SubmitContext}

/-- The loop over the penalties. -/
lemma applyPenalties_closed (hΦ : Closed Φ)
    (hq : ∀ {β : Type} (stmt : Statement β), IsQuiet stmt → Φ (Tx.query t .stmt stmt))
    {failureCount : ℕ} (rules : List PenaltyRule) (seconds : Option BigInt)
    (penalties : List CurrencyPenaltyShowData) :
    Φ (applyPenalties t ctx failureCount rules seconds penalties) := by
  induction rules generalizing seconds penalties with
  | nil => exact hΦ.pure _
  | cons rule rules ih =>
    unfold applyPenalties
    split
    · exact ih seconds penalties
    · exact ih _ penalties
    · exact ih _ penalties
    · split
      · exact ih seconds penalties
      · refine hΦ.bind ?_ fun penalty => ih seconds _
        refine hΦ.bind (hq _ isQuiet_penalizeCurrency) fun data => ?_
        cases data with
        | none => exact hΦ.pure _
        | some data =>
          exact hΦ.bind (hq _ (isQuiet_insertEvent rfl))
            fun _ => hΦ.pure _

/-- The cooldown of a wrong answer. -/
lemma applyCooldown_closed (hΦ : Closed Φ)
    (hq : ∀ {β : Type} (stmt : Statement β), IsQuiet stmt → Φ (Tx.query t .stmt stmt))
    (seconds : Option BigInt) : Φ (applyCooldown t ctx seconds) := by
  cases seconds with
  | none => exact hΦ.pure _
  | some seconds =>
    refine hΦ.bind (hq _ isQuiet_setCooldown) fun till => ?_
    cases till with
    | none => exact hΦ.throw _
    | some till =>
      show Φ (if _ then _ else _)
      split
      · exact hΦ.pure _
      · exact hΦ.throw _

/-- The hints that a refresh enables or makes visible. -/
lemma applyHintStates_closed (hΦ : Closed Φ)
    (hq : ∀ {β : Type} (stmt : Statement β), IsQuiet stmt → Φ (Tx.query t .stmt stmt))
    {state : Gate.RbPuzzleStates} {pending : List PendingHint} :
    Φ (applyHintStates t team state pending) :=
  hΦ.bind (hΦ.when (hq _ isQuiet_insertHintEnables)) fun _ =>
    hΦ.when (hq _ isQuiet_upsertHintVisibility)

/-- `refresh_team_hint_states_conn`. -/
lemma refreshTeamHintStatesConn_closed (hΦ : Closed Φ)
    (hq : ∀ {β : Type} (stmt : Statement β), IsQuiet stmt → Φ (Tx.query t .stmt stmt))
    {puzzle : Option Id} : Φ (refreshTeamHintStatesConn cfg t team puzzle) := by
  refine hΦ.bind (hq _ isQuiet_read) fun pending => ?_
  show Φ (if _ then _ else _)
  split
  · exact hΦ.pure _
  · refine hΦ.bind (teamGateStateConn_closed hΦ hq) fun state => ?_
    cases state with
    | none => exact hΦ.pure _
    | some state => exact applyHintStates_closed hΦ hq

end Transaction

end Play
