import RbphBackend.Play.Scan

set_option relaxedAutoImplicit false
set_option autoImplicit false

/-!
# What is due when a call returns

Nothing: whatever a call of a game returns, every commit of it that the board ranks is followed by a
mark, and it has looked for puzzles after every commit that conditions see. `solve_backend_puzzle`
marks the board only where it has solved the puzzle, which is enough unless it ends the game beside a
puzzle that is not to be solved.

## Main results

* `Play.submitAnswer_settles`, `Play.solveBackendPuzzle_settles`, `Play.purchaseHint_settles`.
-/

namespace Play

open Concurrency ReadCommitted Numeric Database Currency

section Settles

variable {S : Setting} {t : Tid} {ok : Label → Store → Prop} {a : Id}

/-! ## What follows a commit -/

/-- The mark of the board, where it is due. -/
lemma when_updateTeam_triple (h : Admits S t ok) {c scan : Prop} [Decidable c]
    {affectsOrder : Bool} :
    Keeps S t ok (Rests S t { mark := a = S.team ∧ c, scan := scan })
      (when c (Tx.pool t .stmt (updateTeam a affectsOrder)))
      (Post (fun _ => Rests S t { scan := scan }) fun _ => Rests S t {}) := by
  unfold Play.when
  split
  · exact updateTeam_pool_triple h.conducted
  · rename_i hc
    refine Fallible.pure_triple stable_rests fun d hd => ?_
    exact ⟨hd.1, hd.2.mono (fun _ hm => hc hm.2) id id⟩

/-- `refresh_team_hint_states`. -/
lemma refreshTeamHintStates_settles (h : Admits S t ok) {puzzle : Option Id} :
    Settles S t ok (Rests S t {}) (refreshTeamHintStates S.cfg t a puzzle) :=
  calm_transaction_triple (p := refreshTeamHintStatesConn S.cfg t a puzzle) h.conducted fun hΦ hq =>
    refreshTeamHintStatesConn_closed hΦ hq

/-- `unlock_new_puzzles` and `refresh_team_hint_states`, where the state has changed. -/
lemma unlockAfter_settles (h : Admits S t ok) (hcfg : S.cfg.InRange) {doUnlock : Bool} :
    Settles S t ok (Rests S t { scan := a = S.team ∧ doUnlock = true })
      (unlockAfter S.cfg t a doUnlock) := by
  cases doUnlock with
  | false =>
    exact Settles.pure stable_rests fun d hd => ⟨hd.1, hd.2.mono (fun _ => id) (fun hs => by simp at hs) id⟩
  | true =>
    refine Settles.step (unlockNewPuzzles_triple h.conducted hcfg) fun unlocks => ?_
    exact Settles.step (refreshTeamHintStates_settles h) fun _ => Settles.pure stable_rests fun _ h => h

/-! ## `submit_answer` -/

section Submit

variable {user : AuthUser} {puzzle : Id} {answer norm : String} {submitId : Id}

lemma isSolvedEvent_solvedEvent {ctx : SubmitContext} {team p : Id} :
    isSolvedEvent team p ctx.solvedEvent = true ↔ ctx.team = team ∧ ctx.info.id = p := by
  simp [isSolvedEvent, SubmitContext.solvedEvent, SubmitContext.event]

/-- The deeds of a submission are tidy. -/
lemma tidy_submitDeeds {ctx : SubmitContext} {action : RbJudgeAction} {effects : SubmitEffects} :
    (submitDeeds ctx action effects).Tidy ctx.team true := by
  refine ⟨fun p hp => hp, fun hg => ?_, fun _ => rfl, fun team p => ?_, fun team hint hev => ?_⟩
  · simp only [Deeds.gates, submitDeeds] at hg
    simp only [submitDeeds, SubmitEffects.doUnlock, Bool.or_eq_true]
    rcases hg with hg | hg | hg
    · exact .inr hg
    · refine .inl (.inl ?_)
      by_contra hs
      simp [hs] at hg
    · exact .inl (.inr hg)
  · cases hs : effects.solved with
    | false => simp [submitDeeds, hs]
    | true =>
      simp only [submitDeeds, hs, if_true, List.countP_singleton, true_and, Option.some.injEq]
      refine if_congr ?_ rfl rfl
      rw [isSolvedEvent_solvedEvent]
      exact and_congr_left' ⟨Eq.symm, Eq.symm⟩
  · cases hs : effects.solved with
    | false => simp [submitDeeds, hs] at hev
    | true =>
      obtain ⟨ev, hmem, hp⟩ := List.any_eq_true.mp hev
      simp only [submitDeeds, hs, if_true, List.mem_singleton] at hmem
      subst hmem
      have htype : ctx.solvedEvent.eventType ≠ "hint.purchased" := by
        show "puzzle.solved" ≠ "hint.purchased"
        decide
      rw [isPurchaseEvent_of_type htype] at hp
      cases hp

/-- What is due after the commit of a submission. -/
def submitMarks : Submitted → Prop
  | .inl _ => False
  | .inr (result, _, _) => result.action.sideEffect = true

def submitScans : Submitted → Prop
  | .inl _ => False
  | .inr (_, effects, _) => effects.doUnlock = true

/-- The transaction of a submission. -/
lemma submitBody_triple (h : Admits S t ok) (hsubmits : S.submits t = true) :
    Keeps S t ok (Rests S t {})
      (Tx.transaction t .stmt (submitBody S.cfg t user puzzle answer submitId a norm))
      (Post (fun x => Rests S t
        { mark := a = S.team ∧ submitMarks x, scan := a = S.team ∧ submitScans x })
        fun _ => Rests S t {}) := by
  refine deeds_transaction_triple (a := a) h.conducted _ _
    (submitBody_deeds (hasTeam_of_ok h.conducted)) fun x dr hN => ?_
  rcases x with refused | ⟨result, effects, hasCustom⟩
  · cases (show true = false from hN)
  · obtain ⟨-, ctx, rfl, hbrings, hp⟩ := hN
    refine ⟨_, hsubmits ▸ tidy_submitDeeds, rfl, hp, fun _ ha hr => ⟨ha, ?_⟩, fun ha hg => ⟨ha, ?_⟩⟩
    · simp only [Deeds.ranks, submitDeeds] at hr
      show result.action.sideEffect = true
      rcases hr with hr | hr | hr
      · refine hbrings.solved ?_
        by_contra hs
        simp [hs] at hr
      · exact hbrings.started hr
      · rw [of_decide_eq_true hr]
        rfl
    · exact tidy_submitDeeds.marks hg

/-- What follows the commit of a submission. -/
lemma afterSubmit_settles (h : Admits S t ok) (hcfg : S.cfg.InRange) {result : JudgeResult}
    {effects : SubmitEffects} {hasCustom : Bool} :
    Settles S t ok
      (Rests S t { mark := a = S.team ∧ result.action.sideEffect = true,
                   scan := a = S.team ∧ effects.doUnlock = true })
      (afterSubmit S.cfg t puzzle a result effects hasCustom) := by
  refine Settles.bind (when_updateTeam_triple h) fun _ => ?_
  refine Settles.step (unlockAfter_settles h hcfg) fun unlocks => ?_
  refine Settles.step (calm_pool_triple id isCalm_read) fun state => ?_
  refine Settles.step ?_ fun currency => Settles.pure stable_rests fun _ h => h
  split
  · exact calm_pool_triple id isCalm_read
  · exact Settles.pure stable_rests fun _ h => h

/-- **`submit_answer`** leaves nothing due. -/
lemma submitAnswer_settles (h : Admits S t ok) (hcfg : S.cfg.InRange)
    (hsubmits : S.submits t = true) :
    Settles S t ok (Rests S t {}) (submitAnswer S.cfg t user puzzle answer submitId) := by
  unfold submitAnswer
  dsimp only
  split
  · exact Settles.pure stable_rests fun _ h => h
  · split
    · exact Settles.throw
    · refine Settles.bind (submitBody_triple h hsubmits) fun x => ?_
      rcases x with refused | ⟨result, effects, hasCustom⟩
      · exact Settles.pure stable_rests fun d hd =>
          ⟨hd.1, hd.2.mono (fun _ hm => hm.2) (fun hs => hs.2) id⟩
      · exact afterSubmit_settles h hcfg

end Submit

/-! ## `solve_backend_puzzle` -/

section Solve

variable {user puzzle submission : Id}

/-- The deeds of `solve_backend_puzzle` are tidy; it logs no event in its transaction. -/
lemma tidy_solveDeeds {finished solved : Bool} :
    (solveDeeds { locked := true } puzzle [] finished solved).Tidy a false := by
  refine ⟨fun p hp => hp, fun hg => ?_, fun _ => rfl, fun team p => ?_, fun team hint hev => ?_⟩
  · simpa [Deeds.gates, solveDeeds] using hg
  · simp [solveDeeds]
  · simp [solveDeeds] at hev

/-- The transaction of `solve_backend_puzzle`. -/
lemma solveBackendBody_triple (h : Admits S t ok) (hsubmits : S.submits t = false) :
    Keeps S t ok (Rests S t {})
      (Tx.transaction t .stmt (solveBackendBody S.cfg t a puzzle submission))
      (Post (fun x => Rests S t
        { mark := a = S.team ∧ x.1 = true, scan := a = S.team ∧ x.1 = true })
        fun _ => Rests S t {}) := by
  refine deeds_transaction_triple (a := a) (N := BackendLeaves S.cfg S.team S.new S.fin a puzzle)
    h.conducted _ _ (solveBackendBody_deeds (hasTeam_of_ok h.conducted) fun hfin ha d ho => ?_)
    fun x dr hN => ?_
  · subst ha
    exact h.fin hfin _ _ d ho
  · obtain ⟨-, finished, -, hfin, hp⟩ := hN
    refine ⟨_, hsubmits ▸ tidy_solveDeeds, rfl, hp, fun hf ha hr => ⟨ha, ?_⟩, fun ha hg => ⟨ha, ?_⟩⟩
    · by_contra hx
      rw [Bool.not_eq_true] at hx
      have hfinished : finished = false := hfin hf ha hx
      simp [Deeds.ranks, solveDeeds, hfinished, hx] at hr
    · simpa [Deeds.gates, solveDeeds] using hg

/-- What follows a commit that has solved the puzzle. -/
lemma afterBackendSolve_settles (h : Admits S t ok) (hcfg : S.cfg.InRange) {p : Prop} {action : ℤ} :
    Settles S t ok (Rests S t { mark := a = S.team ∧ p, scan := a = S.team ∧ p })
      (afterBackendSolve S.cfg t a user puzzle submission action) := by
  have hstay : ∀ {stmt : Statement Unit}, IsCalm stmt → (∀ v now e, stmt v now ≠ .error e) →
      Keeps S t ok (Rests S t { scan := a = S.team ∧ p }) (Tx.pool t .stmt stmt)
        (Post (fun _ => Rests S t { scan := a = S.team ∧ p }) fun _ => Rests S t {}) :=
    fun hcalm htotal => calm_total_pool_triple id hcalm htotal
  have hskip : Keeps S t ok (Rests S t { scan := a = S.team ∧ p }) (pure () : Call Unit)
      (Post (fun _ => Rests S t { scan := a = S.team ∧ p }) fun _ => Rests S t {}) :=
    Fallible.pure_triple stable_rests fun _ h => h
  refine Settles.bind (updateTeam_pool_triple h.conducted) fun _ => ?_
  refine Settles.bind (B := fun _ => Rests S t { scan := a = S.team ∧ p }) ?_ fun _ => ?_
  · split
    · exact hskip
    · exact hstay (isCalm_insertEvent rfl) fun _ _ _ he => by cases he
  · refine Settles.bind (B := fun _ => Rests S t { scan := a = S.team ∧ p }) ?_ fun _ => ?_
    · unfold Play.when
      split
      · refine hstay isQuiet_updateTeam.calm fun v now e he => ?_
        rw [updateTeam] at he
        split at he <;> cases he
      · exact hskip
    · exact Settles.step (unlockNewPuzzles_triple h.conducted hcfg) fun _ =>
        Settles.pure stable_rests fun _ h => h

/-- **`solve_backend_puzzle`** leaves nothing due. -/
lemma solveBackendPuzzle_settles (h : Admits S t ok) (hcfg : S.cfg.InRange)
    (hsubmits : S.submits t = false) :
    Settles S t ok (Rests S t {}) (solveBackendPuzzle S.cfg t a user puzzle submission) := by
  refine Settles.bind (solveBackendBody_triple h hsubmits) fun x => ?_
  obtain ⟨solved, action⟩ := x
  refine Settles.step ?_ fun _ => Settles.pure stable_rests fun _ h => h
  cases solved with
  | false =>
    refine Settles.pure stable_rests fun d hd => ⟨hd.1, hd.2.mono (fun _ hm => ?_) (fun hs => ?_) id⟩
    · simp at hm
    · simp at hs
  | true => exact afterBackendSolve_settles h hcfg

end Solve

/-! ## Host calls of a hint function -/

section Host

variable {rt : RuntimeContext} {normalize : String → String}

/-- The host of a hint function. -/
lemma hintHost_settles (h : Admits S t ok) (hcfg : S.cfg.InRange) (hsubmits : S.submits t = false)
    (c : HostCall S.cfg.doubles) :
    Settles S t ok (Rests S t {}) (hintHost S.cfg rt t normalize c) := by
  have hΦ : Closed fun {_} p => Settles S t ok (Rests S t {}) p := closed_settles
  have hrun : ∀ {β : Type} (stmt : Statement β), IsQuiet stmt →
      Settles S t ok (Rests S t {}) (Tx.pool t .stmt stmt) := fun _ hs => calm_pool_triple id hs.calm
  cases c with
  | kv at_ call => exact kvCall_closed hΦ hrun
  | currencyQuery team checkTeam currency =>
    exact hΦ.bind (ensureCurrencyTeam_closed hΦ hrun) fun _ => currencyQuery_closed hΦ hrun
  | currencyCost team checkTeam currency amount reason =>
    refine hΦ.bind (ensureCurrencyTeam_closed hΦ hrun) fun _ => hΦ.bind ?_ fun _ => hΦ.pure _
    exact calm_transaction_triple h.conducted fun hΦ hq => costCurrencyRef_closed hΦ hq
  | currencyAdd team checkTeam currency amount reason =>
    refine hΦ.bind (ensureCurrencyTeam_closed hΦ hrun) fun _ => hΦ.bind ?_ fun _ => hΦ.pure _
    exact calm_transaction_triple h.conducted fun hΦ hq => addCurrencyRef_closed hΦ hq
  | currencyUpdate team checkTeam currency options reason =>
    refine hΦ.bind (ensureCurrencyTeam_closed hΦ hrun) fun _ => hΦ.bind ?_ fun _ => hΦ.pure _
    exact calm_transaction_triple h.conducted fun hΦ hq => updateCurrencyRef_closed hΦ hq
  | submissionAdd submission id =>
    refine hΦ.bind (hΦ.bind (hrun _ isQuiet_insertBackendSubmission) fun row => ?_) fun _ => hΦ.pure _
    refine hΦ.bind ?_ fun _ => hΦ.pure _
    split
    · exact hΦ.pure _
    · exact hrun _ (isQuiet_insertEvent rfl)
  | puzzleSolve submission =>
    refine hΦ.bind ?_ fun _ => hΦ.pure _
    unfold solveBackendPuzzleWithSubmission
    split
    · exact solveBackendPuzzle_settles h hcfg hsubmits
    · exact hΦ.throw _
  | interrupted e => exact hrun _ isQuiet_error

/-- A hint function goes on after an error of a host call; its host calls leave nothing due. -/
lemma executeHintPurchase_settles (h : Admits S t ok) (hcfg : S.cfg.InRange)
    (hsubmits : S.submits t = false) (program : HostProgram S.cfg.doubles Unit) :
    Settles S t ok (Rests S t {}) (executeHintPurchase S.cfg rt t normalize program) := by
  unfold executeHintPurchase
  induction program with
  | done result =>
    cases result with
    | ok b => exact Settles.pure stable_rests fun _ h => h
    | error e => exact Settles.throw
  | call c k ih =>
    exact Prog.Triple.bind (hintHost_settles h hcfg hsubmits c) (fun _ _ _ _ h => h) (IsRely.refl t)
      fun reply => ih reply

end Host

/-! ## `purchase_hint` -/

section Purchase

variable {user hint : Id} {info : HintPurchaseInfo}

/-- The deeds of a purchase are tidy. -/
lemma tidy_purchase {submits inserted : Bool} {data : Option CurrencyEventData} :
    Deeds.Tidy { triggered := inserted, marked := inserted, unlocked := some info.hint.id,
                 locked := inserted, logged := [purchasedEvent user info data] }
      info.team submits := by
  refine ⟨by simp, fun hg => ?_, fun hl => ?_, fun team p => ?_, fun team hint hev => ?_⟩
  · simpa [Deeds.gates] using hg
  · simpa using hl
  · have htype : (purchasedEvent user info data).eventType ≠ "puzzle.solved" := by
      show "hint.purchased" ≠ "puzzle.solved"
      decide
    simp [isSolvedEvent_of_type htype]
  · simp only [List.any_cons, List.any_nil, Bool.or_false, isPurchaseEvent, Bool.and_eq_true,
      decide_eq_true_eq] at hev
    exact ⟨(Option.some.inj hev.1.2).symm, hev.2⟩

/-- The transaction of a purchase. -/
lemma purchaseBody_triple (h : Admits S t ok) :
    Keeps S t ok (Rests S t {}) (Tx.transaction t .stmt (purchaseBody t user info))
      (Post (fun x => Rests S t { scan := info.team = S.team ∧ x.getD false = true })
        fun _ => Rests S t {}) := by
  refine (deeds_transaction_triple (a := info.team) h.conducted (fun _ => False)
    (fun x => info.team = S.team ∧ x.getD false = true)
    (purchaseBody_deeds (hasTeam_of_ok h.conducted) fun ha hn d ho => ?_) fun x dr hN => ?_)
  · rw [ha] at ho ⊢
    exact h.new _ hn d ho
  · rcases x with _ | inserted
    · cases (show true = false from hN)
    · obtain ⟨-, data, -, hp⟩ := hN
      refine ⟨_, tidy_purchase, rfl, hp, fun _ _ hr => ?_, fun ha hg => ⟨ha, ?_⟩⟩
      · simp [Deeds.ranks] at hr
      · simpa [Deeds.gates] using hg

/-- The backend function of the hint, where it has one. -/
lemma runHintFunction_settles (h : Admits S t ok) (hcfg : S.cfg.InRange)
    (hsubmits : S.submits t = false) {currency : Option CurrencyEventData} :
    Settles S t ok (Rests S t {}) (runHintFunction S.cfg t user info currency) := by
  have hΦ : Closed fun {_} p => Settles S t ok (Rests S t {}) p := closed_settles
  unfold runHintFunction
  split
  · exact hΦ.pure _
  · split
    · exact hΦ.throw _
    · split
      · exact hΦ.throw _
      · exact executeHintPurchase_settles h hcfg hsubmits _

/-- The call once the hint may be purchased. -/
lemma purchaseAvailable_settles (h : Admits S t ok) (hcfg : S.cfg.InRange)
    (hsubmits : S.submits t = false) :
    Settles S t ok (Rests S t {}) (purchaseAvailable S.cfg t user info) := by
  have hΦ : Closed fun {_} p => Settles S t ok (Rests S t {}) p := closed_settles
  refine hΦ.bind ?_ fun data => ?_
  · unfold precheckHint
    split
    · exact hΦ.pure _
    · exact hΦ.bind (calm_pool_triple id isCalm_read) fun _ => hΦ.pure _
  · cases data with
    | none => exact hΦ.pure _
    | some data =>
      refine hΦ.bind (runHintFunction_settles h hcfg hsubmits) fun _ => ?_
      refine Settles.bind (purchaseBody_triple h) fun inserted => ?_
      cases inserted with
      | none =>
        refine Settles.pure stable_rests fun d hd => ⟨hd.1, hd.2.mono (fun _ => id) (fun hs => ?_) id⟩
        cases hs.2
      | some inserted =>
        exact Settles.step (unlockAfter_settles h hcfg) fun _ => Settles.pure stable_rests fun _ h => h

/-- **`purchase_hint`** leaves nothing due. -/
lemma purchaseHint_settles (h : Admits S t ok) (hcfg : S.cfg.InRange)
    (hsubmits : S.submits t = false) :
    Settles S t ok (Rests S t {}) (purchaseHint S.cfg t user hint) := by
  have hΦ : Closed fun {_} p => Settles S t ok (Rests S t {}) p := closed_settles
  have hrun : ∀ {β : Type} (stmt : Statement β), IsQuiet stmt →
      Settles S t ok (Rests S t {}) (Tx.pool t .stmt stmt) := fun _ hs => calm_pool_triple id hs.calm
  refine hΦ.bind (hrun _ isQuiet_read) fun target => ?_
  rcases target with _ | ⟨team, puzzle⟩
  · exact hΦ.pure _
  · refine hΦ.bind (refreshTeamHintStates_settles h) fun _ => ?_
    refine hΦ.bind (hrun _ isQuiet_read) fun info => ?_
    cases info with
    | none => exact hΦ.pure _
    | some info =>
      refine hΦ.bind (teamGateStateConn_closed hΦ hrun) fun state => ?_
      cases state with
      | none => exact hΦ.pure _
      | some state =>
        show Settles S t ok _ (if _ then _ else _)
        split
        · exact purchaseAvailable_settles h hcfg hsubmits
        · exact hΦ.pure _

end Purchase

end Settles

end Play
