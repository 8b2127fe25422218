import RbphBackend.Helpdesk.Conduct
import RbphBackend.Helpdesk.OpenBlock

set_option relaxedAutoImplicit false
set_option autoImplicit false

/-!
# Runs of the calls about tickets

Any calls, in any interleaving: what every commit does, one after the other, and what holds of the
tickets because of it.

## Main definitions

* `Helpdesk.TicketLog` — the operations of a ticket tell its history.
* `Helpdesk.ClosedBy` — a commit closes a ticket.

## Main results

* `Helpdesk.tickets_of_reaches` — a team has one open ticket at a time, a ticket is closed once, and
  the limit of pending messages is observed.
* `Helpdesk.noMessage_of_reaches` — where requests find tickets as they have read them, no message of
  a player is added to a closed ticket.
-/

namespace Helpdesk

open Concurrency ReadCommitted Numeric Threads

/-! ## One call -/

/-- A call that has not begun. -/
def Fresh (t : Tid) (d : Store) : Prop := NoTx t d ∧ commitsOf t d = []

section Calls

variable {S : Setting} {t : Tid} {α β : Type}

/-- A part of a call, outside its transaction. -/
abbrev Stage (S : Setting) (t : Tid) (A : Store → Prop) (p : Call α)
    (Q : Except String α → Store → Prop) : Prop :=
  Prog.Triple (Among S t) (Admitted S) ((guards guardedRows (Does S) S.origin).Guarantee t) A p.run Q

/-- Whatever a call returns. -/
abbrev Anything : Except String α → Store → Prop := fun _ _ => True

/-- Before the transaction of a call. -/
abbrev Still (t : Tid) : Except String α → Store → Prop := Post (fun _ => Fresh t) fun _ _ => True

lemma stable_fresh : Stable (Among S t) (Fresh t) :=
  stable_noTx.and (stable_commitsOf (p := fun l => l = []))

lemma Stage.pure {A : Store → Prop} (hA : Stable (Among S t) A) (a : α) :
    Stage S t A (Pure.pure a) Anything := Fallible.pure_triple hA fun _ _ => trivial

lemma Stage.throw {A : Store → Prop} (hA : Stable (Among S t) A) (e : String) :
    Stage S t A (MonadExcept.throw e : Call α) Anything :=
  Fallible.throw_triple hA fun _ _ => trivial

/-- Composition: an error ends the call. -/
lemma Stage.bind {A : Store → Prop} {B : β → Store → Prop} {F : String → Store → Prop}
    {p : Call β} {k : β → Call α} (hp : Stage S t A p (Post B F))
    (hk : ∀ b, Stage S t (B b) (k b) Anything) : Stage S t A (p >>= k) Anything :=
  Fallible.bind_triple hp (fun _ _ _ _ h => h) (IsRely.refl t) (fun _ _ _ _ _ => trivial) hk

/-- A read before the transaction. -/
lemma Stage.read_fresh {f : View → ℤ → Except String β} :
    Stage S t (Fresh t) (Tx.pool t .stmt (Stmt.read f)) (Still t) :=
  Tx.pool_read_triple stable_fresh (fun _ => stable_fresh) (fun _ => Stable.const _)
    (fun _ _ h _ _ => h) fun _ _ _ _ _ => trivial

/-- A read after the transaction. -/
lemma Stage.read {f : View → ℤ → Except String β} {A : Store → Prop} (hA : Stable (Among S t) A) :
    Stage S t A (Tx.pool t .stmt (Stmt.read f)) (Post (fun _ _ => True) fun _ _ => True) :=
  Tx.pool_read_triple hA (fun _ => Stable.const _) (fun _ => Stable.const _)
    (fun _ _ _ _ _ => trivial) fun _ _ _ _ _ => trivial

/-- A transaction whose drafts are what commits do. -/
lemma Stage.transaction {body : Call (Bool × α)}
    (h : Part S t (fun dr => dr = .begun t dr.start dr.before) body fun r dr =>
      r.1 = true → Writes S dr) :
    Stage S t (Fresh t) (Tx.transaction t .stmt body) (Post (fun _ _ => True) fun _ _ => True) :=
  (Draws.guards_triple (fun _ h => h.2) (fun _ => sameTeams_of_admitted) h
    fun _ _ _ h => h rfl).conseq (fun _ h => h) fun r _ _ => by cases r <;> trivial

lemma sendTicketMessage_stage {id messageId : Id} {flag : Bool} {data : SendMessageData}
    {maxPending : Option ℤ} {force : Bool}
    (hmax : ∀ n, (S.calls t).maxPending = some n → maxPending = some n)
    (hflag : (S.calls t).refuses = true → data.senderType = .team → flag = true) :
    Stage S t (Fresh t)
      (sendTicketMessage S.cfg t (.lockForSend id flag) id messageId data maxPending force)
      (Post (fun _ _ => True) fun _ _ => True) := by
  refine (Stage.bind (Stage.transaction (sendBody_part hmax hflag)) fun refused => ?_).conseq
    (fun _ h => h) fun r _ _ => by cases r <;> trivial
  split
  · exact Stage.pure (Stable.const _) _
  · refine Stage.bind (Stage.read (Stable.const _)) fun message => ?_
    split
    · exact Stage.throw (Stable.const _) _
    · exact Stage.pure (Stable.const _) _

/-! ## Requests -/

lemma senderType_normalizeUnlockValues {req req' : TicketSendRequest}
    (h : req.normalizeUnlockValues = some req') : req'.senderType = req.senderType := by
  unfold TicketSendRequest.normalizeUnlockValues at h
  dsimp only at h
  split_ifs at h
  all_goals
    obtain rfl := Option.some.inj h
    rfl

/-- The cost is checked before the transaction; the kind of the sender stays. -/
lemma normalizeUnlockRequirements_stage {req : TicketSendRequest} {teamId : Id} :
    Stage S t (Fresh t) (normalizeUnlockRequirements S.cfg t req teamId)
      (Post (fun result d => Fresh t d ∧
        ∀ req', result = some req' → req'.senderType = req.senderType) fun _ _ => True) := by
  have hstable : ∀ result : Option TicketSendRequest, Stable (Among S t) fun d =>
      Fresh t d ∧ ∀ req', result = some req' → req'.senderType = req.senderType :=
    fun result => stable_fresh.and (Stable.const _)
  unfold normalizeUnlockRequirements
  split
  · exact Fallible.pure_triple stable_fresh fun d h => ⟨h, fun _ h => by cases h⟩
  · rename_i req' hreq'
    have hkind := senderType_normalizeUnlockValues hreq'
    split
    · refine Fallible.pure_triple stable_fresh fun d h => ⟨h, fun req'' hreq'' => ?_⟩
      obtain rfl := Option.some.inj hreq''
      exact hkind
    · refine Fallible.bind_triple Stage.read_fresh (fun _ _ _ _ h => h) (IsRely.refl t)
        (fun _ _ _ _ _ => trivial) fun valid => ?_
      cases valid with
      | true =>
        refine Fallible.pure_triple stable_fresh fun d h => ⟨h, fun req'' hreq'' => ?_⟩
        obtain rfl := Option.some.inj hreq''
        exact hkind
      | false => exact Fallible.pure_triple stable_fresh fun d h => ⟨h, fun _ h => by cases h⟩

/-- The end of the handler. -/
lemma sendChecked_stage {info : LoadedInfo} {call : SendCall} {role : ℤ}
    (hcall : S.calls t = .request call) (hrole : call.user.role = some role) :
    Stage S t (Fresh t) (sendChecked S.cfg t info call.user (isAdmin role) call.req call.maxPending
      call.id) Anything := by
  refine Stage.bind Stage.read_fresh fun teamId => Stage.bind normalizeUnlockRequirements_stage
    fun req => ?_
  cases req with
  | none => exact Stage.pure (stable_fresh.and (Stable.const _)) _
  | some req =>
    intro d ⟨hfresh, hkind⟩
    have hreq : req.senderType = call.req.senderType := hkind req rfl
    refine Stage.bind (sendTicketMessage_stage (fun n hn => ?_) fun hrefuses hteam => ?_)
      (fun result => Stage.pure (Stable.const _) _) d hfresh
    · rw [hcall] at hn
      exact hn
    · rw [hcall] at hrefuses
      have hadmin : isAdmin role = false := by
        simpa [TicketCall.refuses, hrole] using hrefuses
      have hsender : req.senderType = .team := hteam
      simp [refusesClosed, hadmin, hsender]

lemma checkFeature_stage {info : LoadedInfo} {req : TicketSendRequest} :
    Stage S t (Fresh t) (checkFeature S.cfg t info req) (Still t) := by
  unfold checkFeature
  split
  · exact Fallible.bind_triple Stage.read_fresh (fun _ _ _ _ h => h) (IsRely.refl t)
      (fun _ _ _ _ _ => trivial) fun access => Fallible.pure_triple stable_fresh fun _ h => h
  · exact Fallible.pure_triple stable_fresh fun _ h => h

/-- **A request** to send a message. -/
lemma sendRequest_stage {call : SendCall} (hcall : S.calls t = .request call) :
    Stage S t (Fresh t) (sendRequest S.cfg t call) Anything := by
  refine Stage.bind Stage.read_fresh fun info => ?_
  cases info with
  | none => exact Stage.pure stable_fresh _
  | some info =>
    dsimp only
    split
    · exact Stage.pure stable_fresh _
    · unfold doSendTicketMessage
      split
      · exact Stage.pure stable_fresh _
      · refine Stage.bind checkFeature_stage fun block => ?_
        split
        · split
          · exact Stage.pure stable_fresh _
          · split
            · exact Stage.throw stable_fresh _
            · rename_i role hrole
              split
              · exact Stage.pure stable_fresh _
              · exact sendChecked_stage hcall hrole
        · exact Stage.pure stable_fresh _

/-- **Any call.** -/
lemma run_stage (hids : S.cfg.ticketIds.Nodup)
    (hlisted : ∀ t req, S.calls t = .openTicket req → req.ticketId ∈ S.cfg.ticketIds) :
    Stage S t (Fresh t) ((S.calls t).run S.cfg t) Anything := by
  cases hcall : S.calls t with
  | openTicket req =>
    refine Stage.bind (B := fun _ _ => True) (F := fun _ _ => True) ?_ fun _ =>
      Stage.pure (Stable.const _) _
    refine (Stage.bind (Stage.transaction (openBody_part hcall (hlisted t req hcall))) fun refused =>
      ?_).conseq (fun _ h => h) fun r _ _ => by cases r <;> trivial
    split
    · exact Stage.pure (Stable.const _) _
    · refine Stage.bind (Stage.read (Stable.const _)) fun thread => ?_
      split
      · exact Stage.throw (Stable.const _) _
      · exact Stage.pure (Stable.const _) _
  | closeTicket req =>
    exact Stage.bind (Stage.transaction (closeBody_part (by rw [hcall]; rfl))) fun _ =>
      Stage.pure (Stable.const _) _
  | solve teamId puzzleId actorId =>
    exact Stage.bind (Stage.transaction (solveBody_part hids)) fun _ =>
      Stage.pure (Stable.const _) _
  | send id messageId data maxPending force =>
    refine Stage.bind (sendTicketMessage_stage (fun n hn => ?_) fun hrefuses _ => ?_) fun _ =>
      Stage.pure (Stable.const _) _
    · rwa [hcall] at hn
    · rw [hcall] at hrefuses
      cases hrefuses
  | request call =>
    refine Stage.bind (B := fun _ _ => True) (F := fun _ _ => True) ?_ fun _ =>
      Stage.pure (Stable.const _) _
    exact (sendRequest_stage hcall).conseq (fun _ h => h) fun r _ _ => by cases r <;> trivial

end Calls

/-! ## Runs -/

section Runs

variable {S : Setting} {c c' : Concurrency.Config Label Store (Except String TicketAnswer)}

/-- **The journal of a run**: every commit does what commits do. -/
lemma journaled_of_reaches (hids : S.cfg.ticketIds.Nodup)
    (hlisted : ∀ t req, S.calls t = .openTicket req → req.ticketId ∈ S.cfg.ticketIds)
    (hcalls : ∀ t, c.threads t = ((S.calls t).run S.cfg t).run) (hidle : c.shared.Idle)
    (horigin : c.shared.committed = S.origin)
    (hrun : Reaches Tick (fun _ l d => S.current → AdmitsSend l d) c c') :
    Journaled (Does S) S.origin c'.shared := by
  have hinv : Journaled (Does S) S.origin c.shared := horigin ▸ Journaled.of_idle hidle
  refine ((guards guardedRows (Does S) S.origin).reaches (Q := fun _ _ _ => True) hinv (fun t => ?_)
    hrun).1
  rw [hcalls t]
  exact run_stage hids hlisted _ ⟨hidle.sess t, by simp [commitsOf, hidle.journal]⟩

/-! ### The tickets -/

/-- The operations of a ticket tell its history: it is opened once, and closed once if it is
closed. -/
def TicketLog : Option Ticket → List Operation → Prop
  | none, ops => ops = []
  | some tk, ops => ops.countP Operation.opens = 1 ∧
      ops.countP Operation.closes = if tk.state = 0 then 1 else 0

/-- The tickets are listed, their operations tell their histories, and a team has one open ticket for
a puzzle at most. -/
structure TicketsInOrder (cfg : Config) (v : View) : Prop where
  listed : ∀ id, v (.ticket id) ≠ none → id ∈ cfg.ticketIds
  log : ∀ id, TicketLog (v (.ticket id)) (v (.operations id))
  single : ∀ T id id', OpenFor T (v (.ticket id)) → OpenFor T (v (.ticket id')) → id = id'

/-- A commit closes the ticket. -/
def ClosedBy (id : Id) (e : TicketCommit) : Bool :=
  (e.before (.ticket id)).any (fun tk => decide (tk.state ≠ 0)) &&
    (e.after (.ticket id)).any fun tk => decide (tk.state = 0)

section Steps

variable {x y : Option Ticket} {ops ops' : List Operation}

lemma TicketStep.log (h : TicketStep x y ops ops') (hx : TicketLog x ops) : TicketLog y ops' := by
  cases h with
  | kept h =>
    rcases h with rfl | ⟨tk, user, rfl, rfl⟩
    · exact hx
    · exact hx
  | opened h hop =>
    obtain ⟨rfl, rfl⟩ := h
    obtain rfl : ops = [] := hx
    simp [TicketLog, Operation.opens, Operation.closes, hop]
  | closed h hop =>
    obtain ⟨tk, tk', rfl, rfl, hopen, hclosed, -, -⟩ := h
    obtain ⟨hopens, hcloses⟩ := hx
    rw [if_neg hopen] at hcloses
    have hother : ∀ op : Operation, op.action = 2 ∨ op.action = 3 → op.opens = false := by
      rintro op (h | h) <;> simp [Operation.opens, h]
    have hkind : ∀ op : Operation, op.action = 2 ∨ op.action = 3 → op.closes = true :=
      fun op h => decide_eq_true h
    simp [TicketLog, hopens, hcloses, hclosed, hother _ hop, hkind _ hop]

/-- A ticket stays closed. -/
lemma TicketStep.stays_closed (h : TicketStep x y ops ops') {tk : Ticket} (hx : x = some tk)
    (hclosed : tk.state = 0) : ∃ tk', y = some tk' ∧ tk'.state = 0 := by
  cases h with
  | kept h =>
    rcases h with rfl | ⟨tk₁, user, hx₁, rfl⟩
    · exact ⟨tk, hx, hclosed⟩
    · obtain rfl := Option.some.inj (hx.symm.trans hx₁)
      exact ⟨_, rfl, hclosed⟩
  | opened h _ => exact absurd (h.1.symm.trans hx) (by simp)
  | closed h _ =>
    obtain ⟨tk₁, -, hx₁, -, hopen, -⟩ := h
    obtain rfl := Option.some.inj (hx.symm.trans hx₁)
    exact absurd hclosed hopen

/-- A ticket does not come to be open but as a new one. -/
lemma TicketStep.new_of_openFor {T : Id} (h : TicketStep x y ops ops') (hx : ¬ OpenFor T x)
    (hy : OpenFor T y) : x = none ∧ y ≠ none := by
  cases h with
  | kept h =>
    rcases h with rfl | ⟨tk, user, rfl, rfl⟩
    · exact absurd hy hx
    · exact absurd hy hx
  | opened h _ => exact ⟨h.1, by simp [h.2]⟩
  | closed h _ =>
    obtain ⟨tk, tk', rfl, rfl, -, hclosed, -, -⟩ := h
    simp [OpenFor, Ticket.isOpenFor, hclosed] at hy

end Steps

/-- Every commit leaves the tickets in order. -/
lemma Does.ticketsInOrder {e : TicketCommit} (h : Does S e) (hv : TicketsInOrder S.cfg e.before) :
    TicketsInOrder S.cfg e.after := by
  have hnew : ∀ T id, ¬ OpenFor T (e.before (.ticket id)) → OpenFor T (e.after (.ticket id)) →
      e.before (.ticket id) = none ∧ e.after (.ticket id) ≠ none :=
    fun T id hb ha => (h.tickets id).new_of_openFor hb ha
  have hlisted : ∀ id, e.after (.ticket id) ≠ none → id ∈ S.cfg.ticketIds := fun id ha => by
    by_cases hb : e.before (.ticket id) = none
    · exact h.listed id hb ha
    · exact hv.listed id hb
  have hexists : ∀ T id, OpenFor T (e.after (.ticket id)) → e.after (.ticket id) ≠ none :=
    fun T id ho hn => by simp [OpenFor, hn] at ho
  refine ⟨hlisted, fun id => (h.tickets id).log (hv.log id), fun T id id' ho ho' => ?_⟩
  by_cases hb : OpenFor T (e.before (.ticket id))
  · by_cases hb' : OpenFor T (e.before (.ticket id'))
    · exact hv.single T id id' hb hb'
    · exact absurd hb (h.single T id' hb' ho' id (hlisted id (hexists T id ho)))
  · by_cases hb' : OpenFor T (e.before (.ticket id'))
    · exact absurd hb' (h.single T id hb ho id' (hlisted id' (hexists T id' ho')))
    · obtain ⟨hnone, hsome⟩ := hnew T id hb ho
      obtain ⟨hnone', hsome'⟩ := hnew T id' hb' ho'
      exact h.one id id' hnone hsome hnone' hsome'

/-- A commit that closes a ticket finds it open and leaves it closed. -/
lemma closedTicket_of_closedBy {id : Id} {e : TicketCommit} (h : ClosedBy id e = true) :
    ¬ ClosedTicket e.before id ∧ ClosedTicket e.after id := by
  rw [ClosedBy, Bool.and_eq_true, Option.any_eq_true, Option.any_eq_true] at h
  obtain ⟨⟨tk, htk, hopen⟩, tk', htk', hclosed⟩ := h
  refine ⟨fun ⟨tk₁, htk₁, hclosed₁⟩ => ?_, tk', htk', of_decide_eq_true hclosed⟩
  obtain rfl := Option.some.inj (htk.symm.trans htk₁)
  exact of_decide_eq_true hopen hclosed₁

/-- **A ticket is closed once**, in a journal of such commits. -/
lemma countP_closedBy {v v' : View} {l : List TicketCommit} (hlinked : Linked v l v')
    (hdoes : ∀ e ∈ l, Does S e) (id : Id) : l.countP (ClosedBy id) ≤ 1 :=
  hlinked.countP_le_one (p := fun v => ClosedTicket v id)
    (fun _ _ h => closedTicket_of_closedBy h)
    fun e he ⟨_, htk, hclosed⟩ => ((hdoes e he).tickets id).stays_closed htk hclosed

end Runs

section Pool

variable {cfg : Config} {calls : Tid → TicketCall}
  {c c' : Concurrency.Config Label Store (Except String TicketAnswer)}

/-- A request of the member to send one more message. -/
def askAgain : SendCall :=
  ⟨1, ⟨7, some 1⟩, ⟨"still stuck", .unsafeMarkdown, .team, none, 0, 0, false⟩, some 2, 2⟩

/-- The member asks for help, asks again and closes the ticket. -/
def helpCalls : Tid → TicketCall
  | 0 => .openTicket askForHelp
  | 1 => .request askAgain
  | _ => .closeTicket ⟨1, 7, .team, none, false⟩

/-- The calls of the member, from a store with these rows. -/
def helpPool (v : View) : Concurrency.Config Label Store (Except String TicketAnswer) where
  shared := Db.init 60000000 v
  threads t := ((helpCalls t).run onePuzzle t).run

lemma helpCalls_listed (t : Tid) (req : OpenRequest) (h : helpCalls t = .openTicket req) :
    req.ticketId ∈ onePuzzle.ticketIds := by
  unfold helpCalls at h
  split at h
  · obtain rfl := TicketCall.openTicket.inj h
    exact List.mem_singleton_self 1
  · cases h
  · cases h

/-- **One open ticket, closed once**: from tickets that are in order, in every run of calls about
tickets, a team never has two open tickets for puzzles; a ticket has one operation that opens it, is
closed once at most, and has one operation that closes it just if it is closed; and a call with a
limit adds a message of the team where fewer are pending. -/
theorem tickets_of_reaches (hids : cfg.ticketIds.Nodup)
    (hlisted : ∀ t req, calls t = .openTicket req → req.ticketId ∈ cfg.ticketIds)
    (hcalls : ∀ t, c.threads t = ((calls t).run cfg t).run) (hidle : c.shared.Idle)
    (horder : TicketsInOrder cfg c.shared.committed) (hrun : Reaches Tick Always c c') :
    TicketsInOrder cfg c'.shared.committed ∧
      (∀ id, c'.shared.journal.countP (ClosedBy id) ≤ 1) ∧
      ∀ e ∈ c'.shared.journal, ∀ id, e.after (.messages id) = e.before (.messages id) ∨
        ∃ m, e.after (.messages id) = e.before (.messages id) ++ [m] ∧ (m.senderType = 0 →
          ∀ n, (calls e.tid).maxPending = some n →
            (pendingCount (e.before (.messages id)) : ℤ) < n) := by
  have hjournal := journaled_of_reaches (S := ⟨cfg, calls, c.shared.committed, False⟩) hids hlisted
    hcalls hidle rfl (hrun.mono fun _ _ _ _ h => h.elim)
  refine ⟨hjournal.linked.invariant horder fun e he => (hjournal.commits e he).ticketsInOrder,
    countP_closedBy hjournal.linked hjournal.commits, fun e he id => ?_⟩
  rcases (hjournal.commits e he).messages id with hkept | ⟨m, hm, hobserves⟩
  · exact .inl hkept
  · exact .inr ⟨m, hm, fun hteam => (hobserves hteam).limit⟩

/-- The ticket is opened, asked about again and closed. -/
theorem tickets_of_reaches_helpPool : ∃ c', Reaches Tick Always (helpPool onePuzzleRows) c' ∧
    c'.shared.journal.countP (ClosedBy 1) = 1 ∧
    (c'.shared.committed (.messages 1)).map Message.id = [1, 2] ∧
    TicketsInOrder onePuzzle c'.shared.committed := by
  obtain ⟨c', hrun, hc'⟩ := exists_reaches_of_exec Tick Always (c := helpPool onePuzzleRows)
    (List.replicate 11 (.thread 0) ++ List.replicate 8 (.thread 1) ++ List.replicate 6 (.thread 2))
    (p := fun c' => c'.shared.journal.countP (ClosedBy 1) = 1 ∧
      (c'.shared.committed (.messages 1)).map Message.id = [1, 2]) (by simp) (by decide +kernel)
  have hnone : ∀ id, onePuzzleRows (.ticket id) = none := fun _ => rfl
  have horder : TicketsInOrder onePuzzle onePuzzleRows :=
    ⟨fun id h => absurd (hnone id) h, fun id => rfl, fun T id id' h => by
      rw [OpenFor, hnone] at h
      cases h⟩
  simp only [decide_eq_true_eq] at hc'
  exact ⟨c', hrun, hc'.1, hc'.2, (tickets_of_reaches (c := helpPool onePuzzleRows) (by decide)
    helpCalls_listed (fun _ => rfl) (Db.init_idle _ _) horder hrun).1⟩

/-- **No message after the closing**: in every run in which a request of one who is not an
administrator finds the ticket open when it locks it to add a message of the team, as it had found it
before, no such request adds one to a ticket whose closing is committed. -/
theorem noMessage_of_reaches (hids : cfg.ticketIds.Nodup)
    (hlisted : ∀ t req, calls t = .openTicket req → req.ticketId ∈ cfg.ticketIds)
    (hcalls : ∀ t, c.threads t = ((calls t).run cfg t).run) (hidle : c.shared.Idle)
    (hrun : Reaches Tick (fun _ => AdmitsSend) c c') :
    ∀ e ∈ c'.shared.journal, (calls e.tid).refuses = true → ∀ id,
      e.after (.messages id) = e.before (.messages id) ∨
        ∃ m, e.after (.messages id) = e.before (.messages id) ++ [m] ∧
          (m.senderType = 0 → ¬ ClosedTicket e.before id) := by
  have hjournal := journaled_of_reaches (S := ⟨cfg, calls, c.shared.committed, True⟩) hids hlisted
    hcalls hidle rfl (hrun.mono fun _ _ _ h _ => h)
  intro e he hrefuses id
  rcases (hjournal.commits e he).messages id with hkept | ⟨m, hm, hobserves⟩
  · exact .inl hkept
  · exact .inr ⟨m, hm, fun hteam => (hobserves hteam).refuses trivial hrefuses⟩

/-- The store where the ticket is open. -/
def helpRows : View := applyPuts [⟨.ticket 1, some ⟨1, 1, some 1, none⟩⟩,
  ⟨.gameFeature 1 2, some 2⟩, ⟨.operations 1, [⟨1, 7, 0, none, 0⟩]⟩] onePuzzleRows

/-- The request finds the ticket open, and adds its message. -/
theorem noMessage_of_reaches_helpPool :
    ∃ c', Reaches Tick (fun _ => AdmitsSend) (helpPool helpRows) c' ∧
      (c'.shared.committed (.messages 1)).map Message.id = [2] ∧
      ∀ e ∈ c'.shared.journal, (helpCalls e.tid).refuses = true → ∀ id,
        e.after (.messages id) = e.before (.messages id) ∨
          ∃ m, e.after (.messages id) = e.before (.messages id) ++ [m] ∧
            (m.senderType = 0 → ¬ ClosedTicket e.before id) := by
  obtain ⟨c', hrun, hc'⟩ := exists_reaches_of_exec Tick (fun _ => AdmitsSend)
    (c := helpPool helpRows) (List.replicate 9 (.thread 1) ++ List.replicate 6 (.thread 2))
    (p := fun c' => (c'.shared.committed (.messages 1)).map Message.id = [2]) (by simp)
    (by decide +kernel)
  exact ⟨c', hrun, of_decide_eq_true hc', noMessage_of_reaches (by decide) helpCalls_listed
    (fun _ => rfl) (Db.init_idle _ _) hrun⟩

/-- **A message after the closing**: the request reads the ticket while it is open; then the ticket is
closed, and the request adds its message. -/
theorem request_addsToClosed : ∃ c', Reaches Tick Always (helpPool helpRows) c' ∧
    ∃ e ∈ c'.shared.journal, (helpCalls e.tid).refuses = true ∧ ClosedTicket e.before 1 ∧
      ∃ m, e.after (.messages 1) = e.before (.messages 1) ++ [m] ∧ m.senderType = 0 := by
  obtain ⟨c', hrun, hc'⟩ := exists_reaches_of_exec Tick Always (c := helpPool helpRows)
    (List.replicate 3 (.thread 1) ++ List.replicate 6 (.thread 2) ++ List.replicate 6 (.thread 1))
    (p := fun c' => c'.shared.journal.any fun e => decide (e.tid = 1) &&
      decide (ClosedTicket e.before 1) && decide (e.before (.messages 1) = []) &&
      decide ((e.after (.messages 1)).map Message.senderType = [0])) (by simp) (by decide +kernel)
  obtain ⟨e, he, h⟩ := List.any_eq_true.1 hc'
  simp only [Bool.and_eq_true, decide_eq_true_eq] at h
  obtain ⟨⟨⟨htid, hclosed⟩, hnone⟩, hadded⟩ := h
  obtain ⟨m, hm, hteam⟩ := List.map_eq_singleton_iff.1 hadded
  exact ⟨c', hrun, e, he, by rw [htid]; rfl, hclosed, m, by rw [hm, hnone]; rfl, hteam⟩

end Pool

end Helpdesk
