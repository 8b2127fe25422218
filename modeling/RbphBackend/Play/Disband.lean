import RbphBackend.Concurrency.Own
import RbphBackend.Play.Runs
import RbphBackend.Play.Traversal

set_option relaxedAutoImplicit false
set_option autoImplicit false

/-!
# Disbanding a team

`disband` reads the members of a team that is not locked and then deletes the team, in two
statements. The first takes no lock, so a submission that starts the game of the team can commit
between the two. The `DELETE` waits for the team's row and deletes it whatever it holds then.

The marks of the board and the notice that follow the commit are left out. A submission that commits
before the team is deleted goes on to insert rows for the team, which the database refuses then.

## Main definitions

* `Play.disband` — the call.
* `Play.MemberCall`, `Play.clubhouse` — the calls of the members of teams, and the pool.
* `Play.Team.hasStarted` — the start of the team's game has been committed.
* `Play.StillWaiting` — the team a `DELETE` finds has not started.

## Main results

* `Play.submitAnswer_own` — a submission commits for its session only.
* `Play.startedKept_of_reaches` — a team that has started is not deleted.
* `Play.disband_deletes_started` — a start between the two statements is lost.
-/

namespace Play

open Concurrency ReadCommitted Numeric Database Currency
open Release (PuzzleRow)

/-! ## The call -/

section Disband

variable (rows : List Key) (t : Tid) (team : Id)

/-- The row is deleted with the team: it is the team's, or a message of a ticket of the team. -/
def belongsTo (v : View) : Key → Bool
  | .team a | .teamPuzzle a _ | .submissions a _ | .trigger a _ _ | .contentBlockUnlock a _
  | .leaderboardDirty a | .teamHint a _ | .hintEnable a _ | .hintVisibility a _
  | .teamCurrency a _ => a = team
  | .teamMember user game => v (.teamMember user game) = some team
  | .ticket id => (v (.ticket id)).any (·.teamId = team)
  | .message id => (v (.message id)).any fun m => (v (.ticket m.ticketId)).any (·.teamId = team)
  | .kv key => key.scope = .team team ||
      match key.scope with
      | .teamPuzzle a _ => a = team
      | _ => false
  | .leaderboardDirtyRevision | .currency _ | .feature _ => false

/-- The members of a team that is not locked, among the rows that exist. -/
def selectUnlockedMembers : Statement (List Id) := .read fun v _ => .ok <|
  if (v (.team team)).any fun tm => !tm.isLocked then
    rows.filterMap fun
      | .teamMember user game => if v (.teamMember user game) = some team then some user else none
      | _ => none
  else []

/-- `DELETE FROM rb_team .. RETURNING game_id`, with the rows that refer to the team. -/
def deleteTeam : Statement (Option Id) := fun v _ =>
  match v (.team team) with
  | none => .ok { val := none }
  | some tm => .ok {
      val := some tm.gameId
      puts := (.team team :: rows.filter (belongsTo team v)).map fun k => ⟨k, noRows k⟩ }

def teamDisbandedEvent (gameId : Id) : EventLogInput where
  eventType := "team.disbanded"
  severity := .warning
  gameId := some gameId
  data := .team team

/-- The transaction: whether the team has been deleted. -/
def disbandBody : Call (Bool × Bool) := do
  let members ← Tx.query t .stmt (selectUnlockedMembers rows team)
  if members = [] then return (false, false)
  else
    match ← Tx.query t (.deleteTeam team) (deleteTeam rows team) with
    | none => return (false, false)
    | some gameId =>
      Tx.query t .stmt (insertEvent (teamDisbandedEvent team gameId))
      return (true, true)

/-- `disband`. -/
def disband : Call Bool := Tx.transaction t .stmt (disbandBody rows t team)

end Disband

/-! ## The pool -/

inductive MemberCall where
  | submitAnswer (user : AuthUser) (puzzle : Id) (answer : String) (submitId : Id)
  | disband (team : Id)

inductive MemberResult where
  | submitted (result : SubmitAnswerResult)
  | disbanded (disbanded : Bool)

/-- The program of a call. -/
def MemberCall.run (cfg : Config) (rows : List Key) (t : Tid) : MemberCall → Call MemberResult
  | submitAnswer user puzzle answer submitId => do
    let result ← Play.submitAnswer cfg t user puzzle answer submitId
    return .submitted result
  | disband team => do
    let disbanded ← Play.disband rows t team
    return .disbanded disbanded

/-- The call deletes teams. -/
def MemberCall.disbands : MemberCall → Bool
  | submitAnswer .. => false
  | disband _ => true

/-- The pool that runs the calls on a store. -/
def clubhouse (cfg : Config) (rows : List Key) (calls : Tid → MemberCall) (d : Store) :
    Concurrency.Config Label Store (Except String MemberResult) :=
  ⟨d, fun t => ((calls t).run cfg rows t).run⟩

/-! ## What is asked of a commit -/

/-- The start of the team's game has been committed. -/
def Team.hasStarted (tm : Team) : Bool := tm.isLocked && tm.startAt.isSome

/-- The commit deletes no team that has started. -/
def KeepsStarted (e : GameCommit) : Prop :=
  ∀ a, (e.before (.team a)).any Team.hasStarted = true → e.after (.team a) ≠ none

/-- The team a `DELETE` finds has not started. -/
def StillWaiting (t : Tid) : Label → Store → Prop
  | .deleteTeam team, d => (d.view t (.team team)).any Team.hasStarted = false
  | _, _ => True

instance (t : Tid) (l : Label) (d : Store) : Decidable (StillWaiting t l d) :=
  match l with
  | .deleteTeam _ => inferInstanceAs (Decidable (_ = false))
  | .stmt | .unlockHint .. | .lockRuntime .. | .chargeHint .. | .chargeTicketMessage ..
  | .solveBackend .. => instDecidableTrue

/-! ## Submissions commit for their session -/

section Own

variable {cfg : Config} {t : Tid}

lemma carries_own : Carries t fun {_} (p : Call _) => Tx.Own t p where
  pure := Tx.Own.pure
  throw := Tx.Own.throw
  bind := Tx.Own.bind
  query _ := Tx.own_query
  pool _ := Tx.own_pool
  transaction := Tx.own_transaction
  recover := Tx.Own.recover

/-- **A submission commits for its session only.** -/
lemma submitAnswer_own {user : AuthUser} {puzzle : Id} {answer : String} {submitId : Id} :
    Tx.Own t (submitAnswer cfg t user puzzle answer submitId) :=
  Carries.submitAnswer carries_own

end Own

/-! ## What disbanding drafts -/

section Draws

variable {rows : List Key} {t : Tid} {team : Id} {R : Store → Store → Prop}
  [Honours (Contract.none Val) t R] {ok : Label → Store → Prop}

/-- A draft that has written nothing. -/
lemma KeepsStarted.of_after_eq {dr : Draft Val EventLogInput} (h : dr.after = dr.before) :
    KeepsStarted dr.toCommit := by
  intro a ha
  rw [h]
  rintro hnone
  rw [hnone] at ha
  exact absurd ha (by simp)

/-- Among the teams, the `DELETE` writes the one it is about. -/
lemma team_notMem_deleteTeam {v : View} {a : Id} (hne : a ≠ team) :
    .team a ∉ ((.team team :: rows.filter (belongsTo team v)).map fun k =>
      (⟨k, noRows k⟩ : Σ k, Val k)).map (·.1) := by
  simp only [List.map_cons, List.map_map, List.mem_cons, List.mem_map, List.mem_filter]
  rintro (h | ⟨k, ⟨-, hk⟩, rfl⟩)
  · exact hne (Key.team.inj h)
  · exact hne (of_decide_eq_true hk)

/-- The team that is deleted has not started: it is held since it was found so. -/
lemma deleteTeam_draws
    (hwait : ∀ d, ok (.deleteTeam team) d → StillWaiting t (.deleteTeam team) d) :
    Draws R ok (Contract.none Val) t (fun _ => True) (fun dr => dr.after = dr.before)
      (Tx.query t (.deleteTeam team) (deleteTeam rows team)) (fun _ dr => KeepsStarted dr.toCommit)
      fun _ => True := by
  refine Draws.query (fun v => (v (.team team)).any Team.hasStarted = false) (fun _ _ => trivial)
    hwait fun dr₀ dr eff h₀ h _ _ hfound he hlater => ?_
  unfold deleteTeam at he
  split at he
  · obtain rfl := Except.ok.inj he
    rw [Draft.add_read]
    exact .of_after_eq h
  · obtain rfl := Except.ok.inj he
    intro a ha
    by_cases hteam : a = team
    · subst hteam
      have hsame : dr.before (.team a) = dr₀.before (.team a) :=
        hlater.before_eq _ (List.mem_append_left _ (by simp [Effect.keys]))
      rw [Draft.add_before, hsame, ← h₀, hfound] at ha
      exact absurd ha (by simp)
    · rw [Draft.add_after, applyPuts_of_notMem (team_notMem_deleteTeam hteam)]
      exact KeepsStarted.of_after_eq h a ha

/-- **The transaction deletes no team that has started**, where its `DELETE` does not find one. -/
lemma disbandBody_draws
    (hwait : ∀ d, ok (.deleteTeam team) d → StillWaiting t (.deleteTeam team) d) :
    Draws R ok (Contract.none Val) t (fun _ => True) (fun dr => dr = .begun t dr.start dr.before)
      (disbandBody rows t team) (fun _ dr => KeepsStarted dr.toCommit) fun _ => True := by
  have hread : Draws R ok (Contract.none Val) t (fun _ => True)
      (fun dr => dr = .begun t dr.start dr.before) (Tx.query t .stmt (selectUnlockedMembers rows team))
      (fun _ dr => dr.after = dr.before) fun _ => True := by
    refine Draws.read (fun _ _ => trivial) fun _ dr _ _ h _ _ _ _ => ?_
    rw [h]
    rfl
  refine hread.bind fun members => ?_
  by_cases hmembers : members = []
  · rw [if_pos hmembers]
    exact Draws.pure fun dr _ h => .of_after_eq h
  · rw [if_neg hmembers]
    refine (deleteTeam_draws hwait).bind fun deleted => ?_
    cases deleted with
    | none => exact Draws.pure fun dr _ h => h
    | some gameId =>
      refine Draws.bind (N := fun _ dr => KeepsStarted dr.toCommit) ?_ fun _ =>
        Draws.pure fun dr _ h => h
      refine Draws.query (fun _ => True) (fun _ _ => trivial) (fun _ _ => trivial)
        fun dr₀ dr eff _ h _ _ _ he _ => ?_
      obtain rfl := Except.ok.inj he
      exact h

end Draws

/-! ## The rule of the pool -/

section Runs

variable {cfg : Config} {rows : List Key} {calls : Tid → MemberCall} {d : Store}
  {c' : Concurrency.Config Label Store (Except String MemberResult)}

/-- What is asked of the commits of a pool. -/
abbrev Spares (calls : Tid → MemberCall) (e : GameCommit) : Prop :=
  (calls e.tid).disbands = true → KeepsStarted e

/-- A disbanding keeps to what is asked of its commits. -/
lemma disband_triple {t : Tid} {team : Id} : Prog.Triple (Rely (Spares calls) t)
    (fun l d' => StillWaiting t l d' ∧ Journaled (Spares calls) d.committed d')
    (Plain fun _ => Moves (Spares calls) t) (fun d => NoTx t d ∧ True) (disband rows t team).run
    (Post (fun _ _ => True) fun _ _ => True) := by
  have htrue : Stable (Rely (Spares calls) t : Store → Store → Prop) fun _ => True := Stable.const _
  have hQ : ∀ r : Except String Bool, Stable (Rely (Spares calls) t : Store → Store → Prop)
      (Post (fun _ _ => True) (fun _ _ => True) r) := stable_post (fun _ => htrue) fun _ => htrue
  have hpost : ∀ (r : Except String Bool) (d : Store),
      Post (fun _ _ => True) (fun _ _ => True) r d := by
    intro r d
    cases r <;> trivial
  have hbody : Draws (Rely (Spares calls) t)
      (fun l d' => StillWaiting t l d' ∧ Journaled (Spares calls) d.committed d')
      (Contract.none Val) t (fun _ => True) (fun dr => True ∧ dr = .begun t dr.start dr.before)
      (disbandBody rows t team) (fun _ dr => KeepsStarted dr.toCommit) fun _ => True :=
    (disbandBody_draws fun _ h => h.1).conseq (fun _ _ h => h.2) (fun _ _ _ h => h) fun _ _ h => h
  exact hbody.transaction_triple (P := fun _ => Spares calls) (S := fun _ => True)
    (fun d h => h.2.wf) (fun _ _ => trivial) htrue (fun _ _ _ _ _ _ => trivial)
    (fun _ _ _ => trivial) hQ (fun d d' a dr _ _ _ _ hkeeps => ⟨fun _ => hkeeps, hpost _ _⟩)
    (fun _ _ _ _ _ _ _ => hpost _ _) fun _ _ _ _ _ _ => hpost _ _

/-- A call keeps to what is asked of its commits. -/
lemma memberCall_sat {t : Tid} (hno : NoTx t d) :
    ((calls t).run cfg rows t).run.Sat (Rely (Spares calls) t)
      (fun l d' => StillWaiting t l d' ∧ Journaled (Spares calls) d.committed d')
      (Plain fun _ => Moves (Spares calls) t) (fun _ _ => True) d := by
  cases hcall : calls t with
  | submitAnswer user puzzle answer submitId =>
    have hown : Tx.Own t ((MemberCall.submitAnswer user puzzle answer submitId).run cfg rows t) :=
      Tx.Own.bind submitAnswer_own fun _ => Tx.Own.pure _
    refine Prog.Steps.sat hown (fun s s' h => h.mono fun e he hdisbands => ?_) d
    rw [he, hcall] at hdisbands
    cases hdisbands
  | disband team =>
    exact Fallible.bind_triple disband_triple (fun _ _ _ _ h => h) (Rely.refl _ t)
      (fun _ _ _ _ _ => trivial)
      (fun _ => Fallible.pure_triple (Stable.const True) fun _ _ => trivial) d ⟨hno, trivial⟩

/-- **A team that has started is not deleted**, in every run of submissions and disbandings in which
no `DELETE` finds a team that has started. -/
theorem startedKept_of_reaches (hidle : d.Idle)
    (hr : Reaches Tick StillWaiting (clubhouse cfg rows calls d) c') :
    ∀ e ∈ c'.shared.journal, (calls e.tid).disbands = true → KeepsStarted e :=
  (journal_of_reaches (P := Spares calls) hidle (fun t => memberCall_sat (hidle.sess t)) hr).1.commits

/-- The small game, whose puzzle starts the game of a team. -/
def openingGame : Config := { smallGame with
  judgeRules := fun _ => .ok [⟨some "all", none, some "start_game", none, none, none, []⟩] }

/-- The captain disbands the team while a member submits an answer. -/
def parting : Tid → MemberCall
  | 0 => .disband 1
  | _ => .submitAnswer ⟨7, some 1⟩ 1 "answer" 6

/-- The rows of the members. -/
def memberRows : List Key := [.teamMember 7 1, .teamMember 8 1]

/-- The team has not started. -/
def partingStore : Store := Db.init 0 (applyPuts [
  ⟨.team 1, some ⟨1, "a team", false, false, none, none, false⟩⟩, ⟨.teamMember 7 1, some 1⟩,
  ⟨.teamMember 8 1, some 1⟩, ⟨.teamPuzzle 1 1, some ⟨0, 0, 0, none, none⟩⟩,
  ⟨.feature 1, some ⟨.opened, 0⟩⟩] noRows)

/-- The team is disbanded before the answer is submitted. -/
theorem startedKept_of_reaches_parting : ∃ c',
    Reaches Tick StillWaiting (clubhouse openingGame memberRows parting partingStore) c' ∧
      c'.shared.committed (.team 1) = none ∧
        ∀ e ∈ c'.shared.journal, (parting e.tid).disbands = true → KeepsStarted e := by
  obtain ⟨c', hr, hc'⟩ := exists_reaches_of_exec Tick StillWaiting
    (c := clubhouse openingGame memberRows parting partingStore)
    (List.replicate 5 (.thread 0) ++ List.replicate 4 (.thread 1))
    (p := fun c' => c'.shared.committed (.team 1) = none) (by simp) (by decide +kernel)
  exact ⟨c', hr, of_decide_eq_true hc', startedKept_of_reaches (Db.init_idle _ _) hr⟩

/-- **A start is lost**: the members have been read while the team was not locked, and the submission
that starts the game commits before the `DELETE`. -/
theorem disband_deletes_started : ∃ c',
    Reaches Tick Always (clubhouse openingGame memberRows parting partingStore) c' ∧
      ∃ e ∈ c'.shared.journal, parting e.tid = .disband 1 ∧
        (e.before (.team 1)).any Team.hasStarted = true ∧ e.after (.team 1) = none := by
  obtain ⟨c', hr, hc'⟩ := exists_reaches_of_exec Tick Always
    (c := clubhouse openingGame memberRows parting partingStore)
    (List.replicate 2 (.thread 0) ++ List.replicate 13 (.thread 1) ++ List.replicate 3 (.thread 0))
    (p := fun c' => c'.shared.journal.any fun e => e.tid = 0 &&
      (e.before (.team 1)).any Team.hasStarted && e.after (.team 1) = none)
    (by simp) (by decide +kernel)
  obtain ⟨e, he, h⟩ := List.any_eq_true.mp hc'
  simp only [Bool.and_eq_true, decide_eq_true_eq] at h
  obtain ⟨⟨htid, hstarted⟩, hgone⟩ := h
  exact ⟨c', hr, e, he, by rw [htid]; rfl, hstarted, hgone⟩

end Runs

end Play
