import RbphBackend.Play.Judgement

set_option relaxedAutoImplicit false
set_option autoImplicit false

/-!
# The deeds of the other transactions

`solve_backend_puzzle` solves a puzzle, or finds it solved, and may set the end of the game;
`purchase_hint` unlocks a hint and may store triggers. The transactions that refresh the state of
hints or change a balance add no deed.

## Main definitions

* `Play.missesMark` — a submission that ends the game is found for a puzzle that is not to be solved.

## Main results

* `Play.solveBackendBody_deeds`, `Play.purchaseBody_deeds`, `Play.ownTx_calm`.
-/

namespace Play

open Concurrency ReadCommitted Numeric Database Currency

/-- The statement that is to solve the puzzle finds nothing to solve, while the submission ends the
game of a team that has started and has not finished. -/
def missesMark (team puzzle submission : Id) (v : View) : Bool :=
  ((v (.submissions team puzzle)).find? fun s => s.id = submission).any
      (fun s => s.saction = RbJudgeAction.finishGame.code) &&
    !(v (.teamPuzzle team puzzle)).any (fun tp => tp.state = 0) &&
    (v (.team team)).any fun tm => tm.startAt.isSome && tm.finishAt.isNone

section Draws

variable {cfg : Config} {team gameId : Id} {new : Id → Prop} {fin : Prop} {a : Id} {t : Tid}
  {R : Store → Store → Prop} [Honours (contract team) t R] {ok : Label → Store → Prop} {f : Deeds}

/-! ## Solving for a backend function -/

/-- What the transaction of `solve_backend_puzzle` leaves. It always commits. -/
def BackendLeaves (cfg : Config) (team : Id) (new : Id → Prop) (fin : Prop) (a puzzle : Id)
    (r : Bool × Bool × ℤ) (dr : Draft Val EventLogInput) : Prop :=
  r.1 = true ∧ ∃ finished : Bool, (finished = true → r.2.2 = RbJudgeAction.finishGame.code) ∧
    (fin → a = team → r.2.1 = false → finished = false) ∧
    Progress cfg team new a (solveDeeds { locked := true } puzzle [] finished r.2.1) dr

/-- The team has not started, or it has finished. -/
def IsSettled (team : Id) (v : View) : Prop :=
  (v (.team team)).all (fun tm => tm.startAt.isNone || tm.finishAt.isSome) = true

/-- The submission, with the row locked. -/
def HasSubmission (team puzzle submission : Id) (s : Submission) (dr : Draft Val EventLogInput) :
    Prop :=
  ((dr.after (.submissions team puzzle)).find? fun x => x.id = submission) = some s

lemma selectSubmission_draws (hI : ∀ l d, ok l d → HasTeam team gameId d.committed)
    {puzzle submission : Id} :
    Draws R ok (contract team) t (HasTeam team gameId) (Progress cfg team new a f)
      (Tx.query t .stmt (selectSubmission a puzzle submission))
      (fun s dr => Progress cfg team new a f dr ∧
        ∀ s', s = some s' → HasSubmission a puzzle submission s' dr) fun _ => True := by
  refine Draws.query (fun _ => True) (hI .stmt) (fun _ _ => trivial)
    fun dr₀ dr eff h₀ h _ _ _ he hl => ?_
  obtain ⟨hputs, hlog⟩ := isQuiet_selectSubmission.calm _ _ _ he
  refine ⟨h.add_calm (fun p hp => ?_) hlog, fun s' hs' => ?_⟩
  · rw [hl.after_eq p.1 (List.mem_append_left _ (List.mem_map.mpr ⟨p, hp, rfl⟩))]
    exact hputs p hp
  · unfold selectSubmission at he
    split at he
    · obtain rfl := Except.ok.inj he
      simp at hs'
    · rename_i s hs
      obtain rfl := Except.ok.inj he
      obtain rfl := Option.some.inj hs'
      simpa [HasSubmission, lockRow] using hs

/-- Where nothing is solved and the condition of the run holds, nothing is to be set. -/
lemma setSolved_settled_draws (hI : ∀ l d, ok l d → HasTeam team gameId d.committed)
    {puzzle submission : Id} {s : Submission}
    (hfin : fin → a = team → ∀ d, ok (.solveBackend a puzzle submission) d →
      missesMark a puzzle submission (d.view t) = false)
    (hf : f.solved = none) (hlock : f.locked = true) :
    Draws R ok (contract team) t (HasTeam team gameId)
      (fun dr => Progress cfg team new a f dr ∧ HasSubmission a puzzle submission s dr)
      (Tx.query t (.solveBackend a puzzle submission) (setSolved a puzzle))
      (fun b dr =>
        Progress cfg team new a { f with solved := if b = true then some puzzle else none } dr ∧
          (fin → a = team → b = false → s.saction = RbJudgeAction.finishGame.code →
            IsSettled a dr.after))
      fun _ => True := by
  refine Draws.query (fun v => fin → a = team → missesMark a puzzle submission v = false) (hI _)
    (fun d ho hn ha => hfin hn ha d ho) fun dr₀ dr eff h₀ h _ _ hC he hl => ?_
  refine ⟨h.1.add_setSolved hf he hl, fun hn ha hb haction => ?_⟩
  have hmiss := hC hn ha
  have hstate : (dr₀.after (.teamPuzzle a puzzle)).any (fun tp => decide (tp.state = 0)) = false := by
    unfold setSolved at he
    split at he
    · rename_i tp htp
      split_ifs at he with hs
      · obtain rfl := Except.ok.inj he
        simp at hb
      · simp [htp, hs]
    · rename_i htp
      simp [htp]
  have hputs : eff.puts = [] := by
    unfold setSolved at he
    split at he
    · split_ifs at he <;> obtain rfl := Except.ok.inj he
      · simp at hb
      · rfl
    · obtain rfl := Except.ok.inj he
      rfl
  have hteam : dr.after (.team a) = dr₀.after (.team a) :=
    hl.after_eq (.team a) (List.mem_append_right _ (h.1.held ha hlock))
  have hfind := h₀.2
  rw [HasSubmission] at hfind
  rw [IsSettled, Draft.add_after, hputs, applyPuts_nil, hteam]
  rw [missesMark, hfind, hstate] at hmiss
  cases htm : dr₀.after (.team a) with
  | none => rfl
  | some tm =>
    rw [htm] at hmiss
    simp only [Option.any_some, haction, decide_true, Bool.not_false, Bool.and_true, Bool.true_and,
      Bool.and_eq_false_imp] at hmiss
    cases hst : tm.startAt <;> cases hfi : tm.finishAt <;> simp_all

open Classical in
/-- The transaction is to set the end of the game, as far as it is told of `team`. -/
noncomputable def setsEnd (fin : Prop) (team a : Id) (action : ℤ) (solved : Bool) : Bool :=
  decide (action = RbJudgeAction.finishGame.code ∧ ¬ (fin ∧ a = team ∧ solved = false))

lemma setsEnd_eq_true {action : ℤ} {solved : Bool} : setsEnd fin team a action solved = true ↔
    action = RbJudgeAction.finishGame.code ∧ ¬ (fin ∧ a = team ∧ solved = false) := by
  simp [setsEnd]

lemma setsEnd_eq_false {action : ℤ} {solved : Bool} (hn : fin) (ha : a = team)
    (hs : solved = false) : setsEnd fin team a action solved = false :=
  Bool.eq_false_iff.mpr fun h => (setsEnd_eq_true.mp h).2 ⟨hn, ha, hs⟩

/-- The end of the game, where the submission ends it. -/
lemma finish_draws (hI : ∀ l d, ok l d → HasTeam team gameId d.committed) {action : ℤ}
    {solved : Bool} (hfin : f.finished = false) :
    Draws R ok (contract team) t (HasTeam team gameId)
      (fun dr => Progress cfg team new a f dr ∧ (fin → a = team → solved = false →
        action = RbJudgeAction.finishGame.code → IsSettled a dr.after))
      (when (action = RbJudgeAction.finishGame.code) (Tx.query t .stmt (setFinished a)))
      (fun _ => Progress cfg team new a { f with finished := setsEnd fin team a action solved })
      fun _ => True := by
  have hsame : ({ f with finished := false } : Deeds) = f := by rw [← hfin]
  by_cases haction : action = RbJudgeAction.finishGame.code
  · rw [Play.when, if_pos haction]
    by_cases hP : fin ∧ a = team ∧ solved = false
    · obtain ⟨hn, ha, hs⟩ := hP
      have hends : setsEnd fin team a action solved = false := setsEnd_eq_false hn ha hs
      rw [hends, hsame]
      refine Draws.query (fun _ => True) (hI .stmt) (fun _ _ => trivial)
        fun dr₀ dr eff h₀ h _ _ _ he hl => ?_
      obtain ⟨hputs, hlog⟩ := setFinished_of_settled (h₀.2 hn ha hs haction) he
      refine h.1.add_calm (fun p hp => ?_) (by simp [hlog])
      rw [hl.after_eq p.1 (List.mem_append_left _ (List.mem_map.mpr ⟨p, hp, rfl⟩)), hputs p hp]
      exact calm_refl p.1 _
    · have hends : setsEnd fin team a action solved = true := setsEnd_eq_true.mpr ⟨haction, hP⟩
      rw [hends]
      exact (setFinished_draws hI).conseq (fun dr _ h => h.1) (fun _ _ _ h => h) fun _ _ h => h
  · have hends : setsEnd fin team a action solved = false :=
      Bool.eq_false_iff.mpr fun h => haction (setsEnd_eq_true.mp h).1
    rw [Play.when, if_neg haction, hends, hsame]
    exact Draws.pure fun dr _ h => h.1

/-- **The deeds of `solve_backend_puzzle`.** -/
lemma solveBackendBody_deeds (hI : ∀ l d, ok l d → HasTeam team gameId d.committed)
    {puzzle submission : Id}
    (hfin : fin → a = team → ∀ d, ok (.solveBackend a puzzle submission) d →
      missesMark a puzzle submission (d.view t) = false) :
    Draws R ok (contract team) t (HasTeam team gameId) (Progress cfg team new a {})
      (solveBackendBody cfg t a puzzle submission) (BackendLeaves cfg team new fin a puzzle)
      fun _ => True := by
  refine Draws.bind (lockTeam_draws hI) fun _ => ?_
  refine Draws.bind (selectSubmission_draws hI) fun s => ?_
  cases s with
  | none => exact Draws.throw fun _ _ _ => trivial
  | some s =>
    refine Draws.bind ((setSolved_settled_draws (s := s) hI hfin rfl rfl).conseq
      (fun dr _ h => ⟨h.1, h.2 s rfl⟩) (fun _ _ _ h => h) fun _ _ h => h) fun solved => ?_
    refine Draws.bind (finish_draws hI rfl) fun _ => ?_
    have hends : setsEnd fin team a s.saction solved = true →
        s.saction = RbJudgeAction.finishGame.code ∧ ¬ (fin ∧ a = team ∧ solved = false) :=
      setsEnd_eq_true.mp
    cases solved with
    | false =>
      refine Draws.pure_bind (Draws.pure fun dr _ h =>
        ⟨rfl, _, fun he => (hends he).1, setsEnd_eq_false, ?_⟩)
      simpa [solveDeeds] using h
    | true =>
      refine Draws.bind (N := fun _ => Progress cfg team new a
        (solveDeeds { locked := true } puzzle [] (setsEnd fin team a s.saction true) true)) ?_
        fun _ => Draws.pure fun dr _ h => ⟨rfl, _, fun he => (hends he).1, setsEnd_eq_false, h⟩
      refine Draws.bind (markTeamDirty_draws hI) fun _ => ?_
      refine Draws.post (closePuzzleTicketsOnSolve_draws hI (by rfl) (by rfl)) fun _ dr h => ?_
      simpa [solveDeeds] using h

/-! ## Purchasing a hint -/

variable {user : Id} {info : HintPurchaseInfo}

/-- What the transaction of `purchase_hint` leaves; without the price nothing is committed. -/
def PurchaseLeaves (cfg : Config) (team : Id) (new : Id → Prop) (user : Id) (info : HintPurchaseInfo) :
    Bool × Option Bool → Draft Val EventLogInput → Prop
  | (committed, none), _ => committed = false
  | (committed, some inserted), dr => committed = true ∧ ∃ data : Option CurrencyEventData,
      data.isSome = info.cost.isSome ∧ Progress cfg team new info.team
        { triggered := inserted
          marked := inserted
          unlocked := some info.hint.id
          locked := inserted
          logged := [purchasedEvent user info data] } dr

/-- The triggers of the hint. -/
lemma storeHintTriggers_deeds (hI : ∀ l d, ok l d → HasTeam team gameId d.committed)
    (hf : f.triggered = false) (hm : f.marked = false) (hl : f.locked = false) :
    Draws R ok (contract team) t (HasTeam team gameId) (Progress cfg team new info.team f)
      (storeHintTriggers t info)
      (fun b => Progress cfg team new info.team { f with triggered := b, marked := b, locked := b })
      fun _ => True := by
  have hsame : ({ f with triggered := false, marked := false, locked := false } : Deeds) = f := by
    cases f
    simp_all
  unfold storeHintTriggers
  split
  · refine Draws.pure fun dr _ h => ?_
    rwa [hsame]
  · refine Draws.bind (insertTriggers_draws hI hf) fun n => ?_
    by_cases hn : 0 < n
    · rw [Play.when, if_pos hn]
      refine Draws.bind (markTeamDirty_draws hI) fun _ => Draws.pure fun dr _ h => ?_
      simpa [hn] using h
    · rw [Play.when, if_neg hn]
      refine Draws.pure_bind (Draws.pure fun dr _ h => ?_)
      have hb : decide (0 < n) = false := by simpa using hn
      rw [hb, hsame]
      simpa [hb, ← hf] using h

/-- The transaction once the price is taken. -/
lemma purchaseCharged_deeds (data : Option CurrencyEventData)
    (hI : ∀ l d, ok l d → HasTeam team gameId d.committed)
    (hnew : info.team = team → new info.hint.id → ∀ d, ok (.unlockHint info.team info.hint.id) d →
      d.view t (.teamHint info.team info.hint.id) ≠ some true)
    (hdata : data.isSome = info.cost.isSome) :
    Draws R ok (contract team) t (HasTeam team gameId) (Progress cfg team new info.team {})
      (do
        Tx.query t (.unlockHint info.team info.hint.id) (upsertTeamHint info.hint.id info.team)
        let inserted ← storeHintTriggers t info
        Tx.query t .stmt (insertEvent (purchasedEvent user info data))
        return (true, some inserted))
      (PurchaseLeaves cfg team new user info) fun _ => True := by
  refine Draws.bind (upsertTeamHint_draws hI hnew rfl) fun _ => ?_
  refine Draws.bind (storeHintTriggers_deeds hI rfl rfl rfl) fun inserted => ?_
  refine Draws.bind (insertEvent_draws hI rfl) fun _ => ?_
  exact Draws.pure fun dr _ h => ⟨rfl, data, hdata, h⟩

/-- **The deeds of `purchase_hint`.** -/
lemma purchaseBody_deeds (hI : ∀ l d, ok l d → HasTeam team gameId d.committed)
    (hnew : info.team = team → new info.hint.id → ∀ d, ok (.unlockHint info.team info.hint.id) d →
      d.view t (.teamHint info.team info.hint.id) ≠ some true) :
    Draws R ok (contract team) t (HasTeam team gameId) (Progress cfg team new info.team {})
      (purchaseBody t user info) (PurchaseLeaves cfg team new user info) fun _ => True := by
  unfold purchaseBody chargeHint
  cases hcost : info.cost with
  | none => exact purchaseCharged_deeds none hI hnew (by simp [hcost])
  | some cost =>
    obtain ⟨currency, amount⟩ := cost
    have hcharge : Draws R ok (contract team) t (HasTeam team gameId)
        (Progress cfg team new info.team {})
        (Tx.query t (.chargeHint info.team info.hint.id (some (currency, amount)))
          (chargeCurrency info.team currency amount fun _ _ => true))
        (fun _ => Progress cfg team new info.team {}) fun _ => True :=
      (calm_draws hI isQuiet_chargeCurrency.calm).conseq (fun _ _ h => h) (fun _ _ _ h => h)
        fun _ _ _ => trivial
    rw [Fallible.bind_assoc]
    refine Draws.bind hcharge fun data => ?_
    cases data with
    | none => exact Draws.pure fun dr _ h => rfl
    | some data => exact purchaseCharged_deeds (some data) hI hnew (by simp [hcost])

/-! ## Transactions that add no deed -/

/-- A transaction that always commits and adds no deed. -/
lemma ownTx_calm {I : View → Prop} {β : Type} {p : Call β}
    (h : CalmPart cfg team new a t R ok I p) :
    Draws R ok (contract team) t I (Progress cfg team new a {})
      (do let b ← p; return (true, b))
      (fun r dr => r.1 = true ∧ Progress cfg team new a {} dr) fun _ => True :=
  Draws.bind (h.draws {}) fun _ => Draws.pure fun _ _ h => ⟨rfl, h⟩

end Draws

end Play
