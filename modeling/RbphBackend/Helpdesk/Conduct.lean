import RbphBackend.Helpdesk.Steps

set_option relaxedAutoImplicit false
set_option autoImplicit false

/-!
# How the calls conduct themselves

What the transactions of the calls draft, statement by statement.

## Main definitions

* `Helpdesk.AdmitsSend` — a sender finds the ticket as its request has read it.
* `Helpdesk.Part` — a part of a transaction, among the calls of a pool.

## Main results

* `Helpdesk.openBody_part`, `Helpdesk.sendBody_part`, `Helpdesk.closeBody_part`,
  `Helpdesk.solveBody_part` — the transactions do what commits do.
-/

namespace Helpdesk

open Concurrency ReadCommitted Numeric Threads

/-! ## Among the calls of a pool -/

/-- A sender that refuses closed tickets finds its ticket open when it locks it. -/
def AdmitsSend : Label → Store → Prop
  | .lockForSend id true, d => ¬ ClosedTicket d.committed id
  | _, _ => True

instance : (l : Label) → (d : Store) → Decidable (AdmitsSend l d)
  | .lockForSend id true, d => inferInstanceAs (Decidable (¬ ClosedTicket d.committed id))
  | .lockForSend _ false, _ | .stmt, _ => instDecidableTrue

/-- What holds where an action is taken. -/
def Admitted (S : Setting) (l : Label) (d : Store) : Prop :=
  (S.current → AdmitsSend l d) ∧ Journaled (Does S) S.origin d

/-- The teams are those of the beginning. -/
def SameTeams (S : Setting) (v : View) : Prop := ∀ T, v (.team T) = S.origin (.team T)

/-- What the other calls of the pool do. -/
abbrev Among (S : Setting) (t : Tid) : Store → Store → Prop :=
  (guards guardedRows (Does S) S.origin).Others t

/-- A part of the transaction of a call. -/
abbrev Part {α : Type} (S : Setting) (t : Tid) (M : Draft Val Record → Prop) (p : Call α)
    (N : α → Draft Val Record → Prop) : Prop :=
  Draws (Among S t) (Admitted S) guardedRows t (SameTeams S) M p N fun _ => True

section Parts

variable {S : Setting} {t : Tid} {id : Id} {H : List Key} {F : View → Prop}
  {R : Option Ticket → Option Ticket → Prop} {M : List Message → List Message → Prop}
  {O : List Operation → List Operation → Prop} {l : Label}

lemma sameTeams_of_admitted {d : Store} (h : Admitted S l d) : SameTeams S d.committed :=
  h.2.linked.invariant (p := SameTeams S) (fun _ => rfl) fun e he hv T =>
    ((h.2.commits e he).teams T).trans (hv T)

/-- A statement that writes rows or locks them. -/
lemma Part.query {β : Type} {stmt : Statement β} {M : Draft Val Record → Prop}
    {N : β → Draft Val Record → Prop}
    (hN : ∀ dr₀ dr eff, M dr₀ → M dr → SameTeams S dr₀.before → SameTeams S dr.before →
      stmt dr₀.after dr₀.start = .ok eff → dr₀.Later guardedRows eff.keys dr →
      N eff.val (dr.add eff)) :
    Part S t M (Tx.query t l stmt) N :=
  Draws.query (fun _ => True) (fun _ => sameTeams_of_admitted) (fun _ _ => trivial)
    fun dr₀ dr eff h₀ h hs₀ hs _ => hN dr₀ dr eff h₀ h hs₀ hs

/-- A statement that reads. -/
lemma Part.read {β : Type} {f : View → ℤ → Except String β} {M : Draft Val Record → Prop}
    {N : β → Draft Val Record → Prop}
    (hN : ∀ dr₀ dr b, M dr₀ → M dr → SameTeams S dr₀.before → SameTeams S dr.before →
      f dr₀.after dr₀.start = .ok b → dr₀.Later guardedRows [] dr → N b dr) :
    Part S t M (Tx.query t l (Stmt.read f)) N :=
  Draws.read (fun _ => sameTeams_of_admitted) hN

/-- A new message is added. -/
def Adds (data : SendMessageData) (x y : List Message) : Prop :=
  ∃ m, y = x ++ [m] ∧ m.senderType = senderTypeCode data.senderType

/-- A new operation is added. -/
def Logs (action : TicketOperationAction) (x y : List Operation) : Prop :=
  ∃ op, y = x ++ [op] ∧ op.action = actionCode action

lemma insertMessage_eq_ok {cfg : Config} {messageId : Id} {data : SendMessageData} {v : View}
    {now : ℤ} {eff : Effect Val Record Unit}
    (h : insertMessage cfg id messageId data v now = .ok eff) :
    (v (.ticket id)).isSome = true ∧
      eff = { val := (), puts := [⟨.messages id, v (.messages id) ++ [data.row messageId now]⟩] } := by
  unfold insertMessage at h
  split_ifs at h with h₁
  exact ⟨by simpa [Option.isSome_iff_ne_none] using h₁, (Except.ok.inj h).symm⟩

lemma insertOperation_eq_ok {action : TicketOperationAction} {actor : Id}
    {actorType : RbTicketSenderType} {messageId : Option Id} {v : View} {now : ℤ}
    {eff : Effect Val Record Unit}
    (h : insertOperation id action actor actorType messageId v now = .ok eff) :
    ∃ op, op.action = actionCode action ∧
      eff = { val := (), puts := [⟨.operations id, v (.operations id) ++ [op]⟩] } := by
  unfold insertOperation at h
  split_ifs at h
  exact ⟨_, rfl, (Except.ok.inj h).symm⟩

/-- The message of a ticket. -/
lemma insertTicketMessageConn_part {messageId : Id} {data : SendMessageData} :
    Part S t (Drafts t id H F R Eq O) (insertTicketMessageConn S.cfg t id messageId data)
      fun _ => Drafts t id H F R (Adds data) O := by
  have hinsert : Part S t (Drafts t id H F R Eq O)
      (Tx.query t .stmt (insertMessage S.cfg id messageId data))
      fun _ => Drafts t id H F R (Adds data) O := by
    refine Part.query fun dr₀ dr eff _ h _ _ he hlater => ?_
    obtain ⟨-, rfl⟩ := insertMessage_eq_ok he
    have hsame : dr₀.after (.messages id) = dr.after (.messages id) :=
      (hlater.after_eq _ (by simp [Effect.keys])).symm
    rw [hsame, ← h.messages]
    exact h.putMessages ⟨_, rfl, rfl⟩
  refine hinsert.bind fun _ => ?_
  split
  · refine Part.query fun dr₀ dr eff _ h _ _ he _ => ?_
    unfold insertTicketReply at he
    split at he <;> obtain rfl := Except.ok.inj he <;> exact h.insert
  · exact Draws.pure fun _ _ h => h

/-- An operation of a ticket. -/
lemma insertOperation_part {action : TicketOperationAction} {actor : Id}
    {actorType : RbTicketSenderType} {messageId : Option Id} :
    Part S t (Drafts t id H F R M Eq)
      (Tx.query t .stmt (insertOperation id action actor actorType messageId))
      fun _ => Drafts t id H F R M (Logs action) := by
  refine Part.query fun dr₀ dr eff _ h _ _ he hlater => ?_
  obtain ⟨op, hop, rfl⟩ := insertOperation_eq_ok he
  have hsame : dr₀.after (.operations id) = dr.after (.operations id) :=
    (hlater.after_eq _ (by simp [Effect.keys])).symm
  rw [hsame, ← h.operations]
  exact h.putOperations ⟨op, rfl, hop⟩

/-- An event. -/
lemma insertEvent_part {event : EventLogInput} :
    Part S t (Drafts t id H F R M O) (Tx.query t .stmt (insertEvent event))
      fun _ => Drafts t id H F R M O := by
  refine Part.query fun dr₀ dr eff _ h _ _ he _ => ?_
  obtain rfl := Except.ok.inj he
  exact h.insert

/-- The assignment of a ticket, which may follow what has been done to it. -/
lemma autoAssign_part {data : SendMessageData} (hid : .ticket id ∈ H)
    (hR : ∀ x tk user, R x (some tk) → R x (some { tk with assignee := user })) :
    Part S t (Drafts t id H F R M O) (autoAssignTicketOnStaffMessageConn t id data)
      fun _ => Drafts t id H F R M O := by
  unfold autoAssignTicketOnStaffMessageConn
  split
  · refine Part.query fun dr₀ dr eff h₀ h _ _ he hlater => ?_
    have hsame : dr₀.after (.ticket id) = dr.after (.ticket id) :=
      (hlater.after_eq _ (List.mem_append_right _ (h.held _ hid))).symm
    unfold assignTicket at he
    split at he
    · rename_i tk htk
      split_ifs at he with hnone
      · obtain rfl := Except.ok.inj he
        have hrow : R (dr.before (.ticket id)) (some tk) := by
          have ht := h.ticket
          rwa [← hsame, htk] at ht
        have hput := h.putTicket (b := ()) (hR _ _ (some data.senderId) hrow)
        exact { hput with held := fun k hk => hput.held k (List.mem_cons_of_mem _ hk) }
      · obtain rfl := Except.ok.inj he
        exact h.insert
    · obtain rfl := Except.ok.inj he
      exact h.insert
  · exact Draws.pure fun _ _ h => h

/-! ## Sending -/

/-- What `send_ticket_message` knows once its checks are done. -/
def MaySend (S : Setting) (flag : Bool) (data : SendMessageData) (maxPending : Option ℤ) (id : Id)
    (v : View) : Prop :=
  (S.current → flag = true → ¬ ClosedTicket v id) ∧
    ∀ n, maxPending = some n → data.senderType = .team → (pendingCount (v (.messages id)) : ℤ) < n

lemma assigned_some (x : Option Ticket) (tk : Ticket) (user : Option Id)
    (h : Assigned x (some tk)) : Assigned x (some { tk with assignee := user }) := by
  rcases h with rfl | ⟨tk', user', rfl, hy⟩
  · exact .inr ⟨tk, user, rfl, rfl⟩
  · obtain rfl := Option.some.inj hy
    exact .inr ⟨tk', user, rfl, rfl⟩

/-- An assigned ticket is open where it was. -/
lemma Assigned.openFor {x y : Option Ticket} {T : Id} (h : Assigned x y) (hy : OpenFor T y) :
    OpenFor T x := by
  rcases h with rfl | ⟨tk, user, rfl, rfl⟩
  · exact hy
  · exact hy

lemma senderTypeCode_eq_zero {senderType : RbTicketSenderType} (h : senderTypeCode senderType = 0) :
    senderType = .team := by
  cases senderType with
  | team => rfl
  | host => cases h
  | invalid => cases h

/-- The ticket is locked, and is as the request has read it. -/
lemma selectForSend_part {flag : Bool} :
    Part S t (fun dr => dr = .begun t dr.start dr.before)
      (Tx.query t (.lockForSend id flag) (selectForSend id))
      fun _ => Unwritten t id [.ticket id] fun v => S.current → flag = true → ¬ ClosedTicket v id := by
  refine Draws.statement (fun v _ => S.current → flag = true → ¬ ClosedTicket v id)
    (fun _ => sameTeams_of_admitted) (fun d hd hcur hflag => ?_)
    fun dr₀ dr eff h₀ h _ _ hc he hlater => ?_
  · subst hflag
    exact hd.1 hcur
  · unfold selectForSend at he
    split at he
    · cases he
    · rename_i tk htk
      obtain rfl := Except.ok.inj he
      have hbegun : Unwritten t id [] (fun _ => True) dr := h ▸ Drafts.begun id
      have hkey : Key.ticket id ∈ [Key.ticket id] ++ dr.held :=
        List.mem_append_left _ (List.mem_singleton_self _)
      have hlock := hbegun.lock (b := tk.assignee.map fun assignee =>
        (assignee, dr₀.after (.user assignee))) (k := .ticket id) (dr₀.after (.ticket id))
        (hlater.after_eq _ hkey).symm
      refine hlock.know fun hcur hflag ⟨tk', htk', hstate⟩ => hc hcur hflag ⟨tk', ?_, hstate⟩
      rw [← hlater.before_eq _ hkey]
      exact htk'

/-- The messages that are pending are counted while the ticket is held. -/
lemma pendingReached_part {flag : Bool} {maxPending : Option ℤ} {data : SendMessageData} :
    Part S t
      (Unwritten t id [.ticket id] fun v => S.current → flag = true → ¬ ClosedTicket v id)
      (pendingReached t maxPending data id) fun reached dr =>
        reached = false → Unwritten t id [.ticket id] (MaySend S flag data maxPending id) dr := by
  unfold pendingReached
  split
  · rename_i n
    refine Draws.bind (N := fun pending dr =>
      (Unwritten t id [.ticket id] fun v => S.current → flag = true → ¬ ClosedTicket v id) dr ∧
        pending = pendingCount (dr.before (.messages id))) ?_ fun pending => ?_
    · refine Part.read fun dr₀ dr b _ h _ _ he hlater => ⟨h, ?_⟩
      have hguard : dr.after (.messages id) = dr₀.after (.messages id) :=
        hlater.guarded (.ticket id) (h.held _ (List.mem_singleton_self _)) (.messages id) rfl
      rw [← h.after_eq, hguard]
      exact (Except.ok.inj he).symm
    · refine Draws.pure fun dr _ h hreached => h.1.know ⟨h.1.facts, fun n' hn _ => ?_⟩
      obtain rfl := Option.some.inj hn
      rw [← h.2]
      exact not_le.1 (of_decide_eq_false hreached)
  · rename_i hno
    refine Draws.pure fun dr _ h _ => h.know ⟨h.facts, fun n hn hteam => ?_⟩
    exact absurd hteam (hno n hn)

/-- **Sending a message** does what commits do. -/
lemma sendBody_part {flag : Bool} {messageId : Id} {data : SendMessageData}
    {maxPending : Option ℤ} {force : Bool}
    (hmax : ∀ n, (S.calls t).maxPending = some n → maxPending = some n)
    (hflag : (S.calls t).refuses = true → data.senderType = .team → flag = true) :
    Part S t (fun dr => dr = .begun t dr.start dr.before)
      (sendBody S.cfg t (.lockForSend id flag) id messageId data maxPending force)
      fun r dr => r.1 = true → Writes S dr := by
  refine selectForSend_part.bind fun assignee => ?_
  dsimp only
  split
  · exact Draws.pure fun _ _ _ h => by cases h
  · refine pendingReached_part.bind fun reached => ?_
    cases reached with
    | true => exact Draws.pure fun _ _ _ h => by cases h
    | false =>
      have hassign : Part S t (fun dr => false = false →
            Unwritten t id [.ticket id] (MaySend S flag data maxPending id) dr)
          (autoAssignTicketOnStaffMessageConn t id data) fun _ =>
            Drafts t id [.ticket id] (MaySend S flag data maxPending id) Assigned Eq Eq :=
        (autoAssign_part (R := Assigned) (List.mem_singleton_self _) assigned_some).conseq
          (fun _ _ h => (h rfl).mono (fun _ _ => .inl) (fun _ _ h => h) fun _ _ h => h)
          (fun _ _ _ h => h) fun _ _ h => h
      refine hassign.bind fun _ => insertTicketMessageConn_part.bind fun _ =>
        Draws.pure fun dr _ h _ => h.writes (List.mem_singleton_self _) ?_ ?_ ?_ ?_
      · rintro x y ops _ hxy rfl
        exact .kept hxy
      · rintro y (rfl | ⟨tk, user, hnone, -⟩) hne
        · exact absurd rfl hne
        · cases hnone
      · exact fun T x y hxy hb ha => absurd (hxy.openFor ha) hb
      · rintro v x _ ⟨hclosed, hpending⟩ rfl ⟨m, rfl, hm⟩
        refine .inr ⟨m, rfl, fun hzero => ?_⟩
        have hteam := senderTypeCode_eq_zero (hm.symm.trans hzero)
        exact ⟨fun n hn => hpending n (hmax n hn) hteam,
          fun hcur hrefuses => hclosed hcur (hflag hrefuses hteam)⟩

/-! ## Closing -/

/-- The ticket is there and not closed. -/
def OpenTicket (id : Id) (v : View) : Prop := ∃ tk, v (.ticket id) = some tk ∧ tk.state ≠ 0

lemma OpenTicket.not_closed {v : View} (h : OpenTicket id v) : ¬ ClosedTicket v id := by
  rintro ⟨tk, htk, hzero⟩
  obtain ⟨tk', htk', hstate⟩ := h
  obtain rfl := Option.some.inj (htk.symm.trans htk')
  exact hstate hzero

lemma closes_some (x : Option Ticket) (tk : Ticket) (user : Option Id)
    (h : Closes x (some tk)) : Closes x (some { tk with assignee := user }) := by
  obtain ⟨tk₀, tk', hx, hy, hstate, hzero, hteam, hpuzzle⟩ := h
  obtain rfl := Option.some.inj hy
  exact ⟨tk₀, _, hx, rfl, hstate, hzero, hteam, hpuzzle⟩

/-- A closed ticket is not open. -/
lemma Closes.not_openFor {x y : Option Ticket} {T : Id} (h : Closes x y) : ¬ OpenFor T y := by
  obtain ⟨tk, tk', -, rfl, -, hzero, -⟩ := h
  simp [OpenFor, Ticket.isOpenFor, hzero]

lemma Closes.was_some {y : Option Ticket} : ¬ Closes none y := by
  rintro ⟨tk, tk', hx, -⟩
  cases hx

/-- What has been added to the messages by a closing is in order. -/
def AddsAny (x y : List Message) : Prop := y = x ∨ ∃ m, y = x ++ [m]

/-- The ticket is locked, and its state is known. -/
lemma selectForClose_part :
    Part S t (fun dr => dr = .begun t dr.start dr.before)
      (Tx.query t .stmt (selectForClose S.cfg id)) fun info dr =>
        ∀ i, info = some i → i.state ≠ 0 → Unwritten t id [.ticket id] (OpenTicket id) dr := by
  refine Part.query fun dr₀ dr eff h₀ h _ _ he hlater i hi hstate => ?_
  unfold selectForClose at he
  split at he
  · obtain rfl := Except.ok.inj he
    cases hi
  · rename_i tk htk
    split at he
    · obtain rfl := Except.ok.inj he
      cases hi
    · obtain rfl := Except.ok.inj he
      obtain rfl := Option.some.inj hi
      have hbegun : Unwritten t id [] (fun _ => True) dr := h ▸ Drafts.begun id
      have hkey : Key.ticket id ∈ [Key.ticket id] ++ dr.held :=
        List.mem_append_left _ (List.mem_singleton_self _)
      have hrow : dr.before (.ticket id) = some tk := by
        rw [← hbegun.after_eq, hlater.after_eq _ hkey, htk]
      exact (hbegun.lock (dr₀.after (.ticket id)) (hlater.after_eq _ hkey).symm).know
        ⟨tk, hrow, hstate⟩

/-- The `UPDATE` of the ticket. -/
lemma setClosed_part :
    Part S t (Unwritten t id [.ticket id] (OpenTicket id)) (Tx.query t .stmt (setClosed id))
      fun closed => if closed then Drafts t id [.ticket id] (OpenTicket id) Closes Eq Eq
        else Unwritten t id [.ticket id] (OpenTicket id) := by
  refine Part.query fun dr₀ dr eff _ h _ _ he hlater => ?_
  have hsame : dr₀.after (.ticket id) = dr.after (.ticket id) :=
    (hlater.after_eq _ (List.mem_append_right _ (h.held _ (List.mem_singleton_self _)))).symm
  unfold setClosed at he
  split at he
  · rename_i tk htk
    split_ifs at he with hstate
    · obtain rfl := Except.ok.inj he
      have hrow : dr.before (.ticket id) = some tk := by rw [h.ticket, ← hsame, htk]
      have hcloses : Closes (dr.before (.ticket id)) (some { tk with state := 0 }) :=
        ⟨tk, _, hrow, rfl, hstate, rfl, rfl, rfl⟩
      have hput := h.putTicket (b := true) hcloses
      exact { hput with held := fun k hk => hput.held k (List.mem_cons_of_mem _ hk) }
    · obtain rfl := Except.ok.inj he
      exact h.insert
  · obtain rfl := Except.ok.inj he
    exact h.insert

/-- The message of a closing. -/
lemma closingMessage_part {req : CloseRequest} :
    Part S t (Drafts t req.ticketId [.ticket req.ticketId] (OpenTicket req.ticketId) Closes Eq Eq)
      (closingMessage S.cfg t req) fun _ =>
        Drafts t req.ticketId [.ticket req.ticketId] (OpenTicket req.ticketId) Closes AddsAny Eq := by
  unfold closingMessage
  split
  · refine (autoAssign_part (List.mem_singleton_self _) closes_some).bind fun _ =>
      insertTicketMessageConn_part.bind fun _ => Draws.pure fun dr _ h => ?_
    exact h.mono (fun _ _ h => h) (fun _ _ ⟨m, hm, _⟩ => .inr ⟨m, hm⟩) fun _ _ h => h
  · exact Draws.pure fun dr _ h => h.mono (fun _ _ h => h) (fun _ _ h => .inl h.symm) fun _ _ h => h

/-- **Closing a ticket** does what commits do. -/
lemma closeBody_part {req : CloseRequest} (hmax : (S.calls t).maxPending = none) :
    Part S t (fun dr => dr = .begun t dr.start dr.before) (closeBody S.cfg t req)
      fun r dr => r.1 = true → Writes S dr := by
  have hkept : ∀ dr, Unwritten t req.ticketId [.ticket req.ticketId] (OpenTicket req.ticketId) dr →
      Writes S dr := by
    intro dr h
    refine h.writes (List.mem_singleton_self _) ?_ (fun y hy hne => absurd hy.symm hne) ?_ ?_
    · rintro x _ ops _ rfl rfl
      exact .kept (.inl rfl)
    · rintro T x _ rfl hb ha
      exact absurd ha hb
    · rintro v x _ - - rfl
      exact .inl rfl
  refine selectForClose_part.bind fun info => ?_
  split
  · exact Draws.pure fun _ _ _ h => by cases h
  · rename_i info
    split_ifs with hzero
    · exact Draws.pure fun _ _ _ h => by cases h
    · split
      · exact Draws.pure fun _ _ _ h => by cases h
      · refine (setClosed_part.conseq (fun _ _ h => h info rfl hzero) (fun _ _ _ h => h)
          fun _ _ h => h).bind fun closed => ?_
        cases closed with
        | false => exact Draws.pure fun dr _ h _ => hkept dr h
        | true =>
          refine closingMessage_part.bind fun _ => insertOperation_part.bind fun _ =>
            insertEvent_part.bind fun _ => Draws.pure fun dr _ h _ =>
              h.writes (List.mem_singleton_self _) ?_ ?_ ?_ ?_
          · rintro x y ops _ hxy ⟨op, rfl, hop⟩
            exact .closed hxy (.inl hop)
          · exact fun y hy _ => absurd hy Closes.was_some
          · exact fun T x y hxy _ ha => absurd ha hxy.not_openFor
          · rintro v x y hopen - (rfl | ⟨m, rfl⟩)
            · exact .inl rfl
            · refine .inr ⟨m, rfl, fun _ => ⟨fun n hn => ?_, fun _ _ => hopen.not_closed⟩⟩
              rw [hmax] at hn
              cases hn

/-! ## Opening -/

/-- The rows that a team that is there holds its openings with. -/
def teamRows (S : Setting) (T : Id) : List Key :=
  if (S.origin (.team T)).isSome then [.team T] else []

/-- A team that is there has no open ticket. -/
def NoneOpen (S : Setting) (T : Id) (v : View) : Prop :=
  (S.origin (.team T)).isSome → ∀ id ∈ S.cfg.ticketIds, ¬ OpenFor T (v (.ticket id))

/-- The team is locked, if it is there. -/
lemma lockTeam_part {T : Id} :
    Part S t (fun dr => dr = .begun t dr.start dr.before) (Tx.query t .stmt (lockTeam T))
      fun _ => Unwritten t id (teamRows S T) fun _ => True := by
  refine Part.query fun dr₀ dr eff h₀ h hs₀ _ he hlater => ?_
  have hbegun₀ : Unwritten t id [] (fun _ => True) dr₀ := h₀ ▸ Drafts.begun id
  have hbegun : Unwritten t id [] (fun _ => True) dr := h ▸ Drafts.begun id
  have horigin : dr₀.after (.team T) = S.origin (.team T) := (hbegun₀.after_eq _).trans (hs₀ T)
  unfold lockTeam at he
  split at he
  · rename_i hnone
    obtain rfl := Except.ok.inj he
    have hrows : teamRows S T = [] := by simp [teamRows, ← horigin, hnone]
    rw [hrows]
    exact hbegun.insert
  · rename_i tm hsome
    obtain rfl := Except.ok.inj he
    have hrows : teamRows S T = [.team T] := by simp [teamRows, ← horigin, hsome]
    rw [hrows]
    have hkey : Key.team T ∈ [Key.team T] ++ dr.held :=
      List.mem_append_left _ (List.mem_singleton_self _)
    exact hbegun.lock (dr₀.after (.team T)) (hlater.after_eq _ hkey).symm

/-- Nothing is known that keeps the ticket `id` from being opened. -/
def MayOpen (S : Setting) (T id : Id) (v : View) : Prop :=
  v (.ticket id) = none ∧ ∀ id' ∈ S.cfg.ticketIds, ¬ OpenFor T (v (.ticket id'))

variable (id) in
/-- The open tickets are looked for while the team is held. -/
lemma pendingExists_part {T : Id} :
    Part S t (Unwritten t id (teamRows S T) fun _ => True)
      (Tx.query t .stmt (pendingExists S.cfg T)) fun pending dr =>
        pending = false → Unwritten t id (teamRows S T) (NoneOpen S T) dr := by
  refine Part.read fun dr₀ dr b _ h _ _ he hlater hb => h.know fun hsome id' hid' hopen => ?_
  subst hb
  have hheld : Key.team T ∈ dr.held := h.held _ (by simp [teamRows, hsome])
  have hopen₀ : OpenFor T (dr₀.after (.ticket id')) :=
    hlater.guarded (.team T) hheld (.ticket id') (by rwa [h.after_eq])
  have hnone := List.any_eq_false.1 (Except.ok.inj he) id' hid'
  exact hnone hopen₀

/-- The check of the feature only reads. -/
lemma checkAccess_part {req : OpenRequest} {gameId : Id} {M : Draft Val Record → Prop} :
    Part S t M (checkAccess t req gameId) fun _ => M := by
  unfold checkAccess
  split
  · exact Draws.bind (N := fun _ => M) (Part.read fun _ _ _ _ h _ _ _ _ => h) fun _ =>
      Draws.pure fun _ _ h => h
  · exact Draws.pure fun _ _ h => h

/-- The ticket is inserted; its team is there. -/
lemma insertTicket_part {req : OpenRequest} :
    Part S t (Unwritten t req.ticketId (teamRows S req.teamId) (NoneOpen S req.teamId))
      (Tx.query t .stmt (insertTicket S.cfg req)) fun _ =>
        Drafts t req.ticketId [.ticket req.ticketId, .team req.teamId]
          (MayOpen S req.teamId req.ticketId) (Opens req.teamId req.puzzleId) Eq Eq := by
  refine Part.query fun dr₀ dr eff h₀ h hs₀ _ he hlater => ?_
  unfold insertTicket at he
  split_ifs at he with hfresh hteam
  obtain rfl := Except.ok.inj he
  have hsome : (S.origin (.team req.teamId)).isSome = true := by
    rw [← hs₀, ← h₀.after_eq]
    simpa [Option.isSome_iff_ne_none] using hteam
  have hkey : Key.ticket req.ticketId ∈ [Key.ticket req.ticketId] ++ dr.held :=
    List.mem_append_left _ (List.mem_singleton_self _)
  have hnone : dr.before (.ticket req.ticketId) = none := by
    rw [← h.after_eq, hlater.after_eq _ hkey]
    simpa using hfresh
  have hopens : Opens req.teamId req.puzzleId (dr.before (.ticket req.ticketId))
      (some ⟨1, req.teamId, some req.puzzleId, none⟩) := ⟨hnone, rfl⟩
  have hrows : teamRows S req.teamId = [.team req.teamId] := by simp [teamRows, hsome]
  have hmay : MayOpen S req.teamId req.ticketId dr.before := ⟨hnone, h.facts hsome⟩
  have hput := (h.know hmay).putTicket (b := ()) hopens
  rw [hrows] at hput
  exact hput

/-- **Opening a ticket** does what commits do. -/
lemma openBody_part {req : OpenRequest} (hcall : S.calls t = .openTicket req)
    (hlisted : req.ticketId ∈ S.cfg.ticketIds) :
    Part S t (fun dr => dr = .begun t dr.start dr.before) (openBody S.cfg t req)
      fun r dr => r.1 = true → Writes S dr := by
  refine lockTeam_part.bind fun _ => (pendingExists_part req.ticketId).bind fun pending => ?_
  cases pending with
  | true => exact Draws.pure fun _ _ _ h => by cases h
  | false =>
    have havailable : Part S t (fun dr => false = false →
          Unwritten t req.ticketId (teamRows S req.teamId) (NoneOpen S req.teamId) dr)
        (Tx.query t .stmt (selectAvailability S.cfg req.teamId req.puzzleId)) fun _ =>
          Unwritten t req.ticketId (teamRows S req.teamId) (NoneOpen S req.teamId) :=
      Part.read fun _ _ _ _ h _ _ _ _ => h rfl
    refine havailable.bind fun info => ?_
    cases info with
    | none => exact Draws.pure fun _ _ _ h => by cases h
    | some info =>
      refine checkAccess_part.bind fun refused => ?_
      cases refused with
      | some refused => exact Draws.pure fun _ _ _ h => by cases h
      | none =>
        dsimp only
        split_ifs
        · exact Draws.pure fun _ _ _ h => by cases h
        · exact Draws.pure fun _ _ _ h => by cases h
        · refine insertTicket_part.bind fun _ => insertTicketMessageConn_part.bind fun _ =>
            insertOperation_part.bind fun _ => insertEvent_part.bind fun _ =>
              Draws.pure fun dr _ h _ => h.writes (by simp) ?_ (fun _ _ _ => hlisted) ?_ ?_
          · rintro x y ops _ hxy ⟨op, rfl, hop⟩
            exact .opened hxy hop
          · rintro T x y ⟨-, rfl⟩ - hopen
            obtain rfl : req.teamId = T := by
              simpa [OpenFor, Ticket.isOpenFor] using hopen
            exact ⟨by simp, fun v hv => hv.2⟩
          · rintro v x _ ⟨hnone, -⟩ - ⟨m, rfl, -⟩
            refine .inr ⟨m, rfl, fun _ => ⟨fun n hn => ?_, fun _ _ ⟨tk, htk, _⟩ => ?_⟩⟩
            · rw [hcall] at hn
              cases hn
            · rw [hnone] at htk
              cases htk

/-! ## Closing when a puzzle is solved -/

/-- Writing a row for each of several tickets. -/
lemma applyPuts_tickets (ids : List Id) (f : Id → Option Ticket) (w : View) (id : Id) :
    applyPuts (ids.map fun i => ⟨.ticket i, f i⟩) w (.ticket id) =
      if id ∈ ids then f id else w (.ticket id) := by
  induction ids generalizing w with
  | nil => rfl
  | cons i ids ih =>
    rw [List.map_cons, applyPuts_cons, ih]
    by_cases hids : id ∈ ids
    · rw [if_pos hids, if_pos (List.mem_cons_of_mem _ hids)]
    · by_cases hi : id = i
      · subst hi
        rw [if_neg hids, if_pos List.mem_cons_self]
        exact Function.update_self ..
      · rw [if_neg hids, if_neg (by simp [hi, hids])]
        exact Function.update_of_ne (by simpa using hi) ..

/-- What a solve has drafted: it has closed the tickets `ids`, and logged it for all but `todo`. -/
structure Solving (t : Tid) (ids todo : List Id) (dr : Draft Val Record) : Prop where
  tid : dr.tid = t
  held : ∀ i ∈ ids, .ticket i ∈ dr.held
  rest : ∀ k, (∀ i ∈ ids, k ≠ .ticket i ∧ k ≠ .operations i) → dr.after k = dr.before k
  closed : ∀ i ∈ ids, Closes (dr.before (.ticket i)) (dr.after (.ticket i))
  logged : ∀ i ∈ ids, i ∉ todo →
    Logs .autoCloseSolved (dr.before (.operations i)) (dr.after (.operations i))
  unlogged : ∀ i ∈ todo, dr.after (.operations i) = dr.before (.operations i)

namespace Solving

variable {ids todo : List Id} {dr : Draft Val Record}

lemma other (h : Solving t ids todo dr) {i : Id} (hi : i ∉ ids) :
    dr.after (.ticket i) = dr.before (.ticket i) ∧
      dr.after (.operations i) = dr.before (.operations i) :=
  ⟨h.rest _ fun j hj => ⟨by rintro ⟨⟩; exact hi hj, by simp⟩,
    h.rest _ fun j hj => ⟨by simp, by rintro ⟨⟩; exact hi hj⟩⟩

/-- One more closing is logged. -/
lemma log {id : Id} {op : Operation} (h : Solving t ids (id :: todo) dr) (hid : id ∈ ids)
    (hnew : id ∉ todo) (hop : op.action = actionCode .autoCloseSolved) :
    Solving t ids todo (dr.add ({ val := (), puts := [⟨.operations id,
      dr.after (.operations id) ++ [op]⟩] } : Effect Val Record Unit)) := by
  refine ⟨h.tid, fun i hi => List.mem_append_right _ (h.held i hi), fun k hk => ?_, fun i hi => ?_,
    fun i hi htodo => ?_, fun i hi => ?_⟩
  · simpa [(hk id hid).2] using h.rest k hk
  · simpa using h.closed i hi
  · by_cases hne : i = id
    · subst hne
      refine ⟨op, ?_, hop⟩
      simp [h.unlogged i List.mem_cons_self]
    · have hlogged := h.logged i hi (by simp [hne, htodo])
      simpa [hne] using hlogged
  · have hne : i ≠ id := fun he => hnew (he ▸ hi)
    simpa [hne] using h.unlogged i (List.mem_cons_of_mem _ hi)

/-- A solve that has logged all closings does what commits do. -/
lemma writes (h : Solving t ids [] dr) : Writes S dr := by
  have hnew : ∀ i, dr.before (.ticket i) = none → dr.after (.ticket i) = none := by
    intro i hnone
    by_cases hi : i ∈ ids
    · have hcloses := h.closed i hi
      rw [hnone] at hcloses
      exact absurd hcloses Closes.was_some
    · exact (h.other hi).1.trans hnone
  have hopen : ∀ T i, OpenFor T (dr.after (.ticket i)) → OpenFor T (dr.before (.ticket i)) := by
    intro T i ha
    by_cases hi : i ∈ ids
    · exact absurd ha (h.closed i hi).not_openFor
    · rwa [← (h.other hi).1]
  refine ⟨⟨fun T => h.rest _ (by simp), fun i => ?_, fun i hb ha => absurd (hnew i hb) ha,
    fun T i hb ha => absurd (hopen T i ha) hb, fun i _ hb ha => absurd (hnew i hb) ha,
    fun i => .inl (h.rest _ (by simp))⟩, fun guard hg k => ?_⟩
  · by_cases hi : i ∈ ids
    · obtain ⟨op, hops, hop⟩ := h.logged i hi List.not_mem_nil
      rw [hops]
      exact .closed (h.closed i hi) (.inr hop)
    · obtain ⟨hticket, hops⟩ := h.other hi
      rw [hticket, hops]
      exact .kept (.inl rfl)
  · cases guard with
    | team T =>
      cases k with
      | ticket i => exact hopen T i
      | _ => trivial
    | ticket i =>
      cases k with
      | messages j => exact fun _ => h.rest _ (by simp)
      | _ => trivial
    | _ => cases k <;> trivial

end Solving

/-- The `UPDATE` closes the tickets of the puzzle. -/
lemma setClosedOnSolve_part {teamId puzzleId : Id} (hids : S.cfg.ticketIds.Nodup) :
    Part S t (fun dr => dr = .begun t dr.start dr.before)
      (Tx.query t .stmt (setClosedOnSolve S.cfg teamId puzzleId)) fun ids dr =>
        ids.Nodup ∧ Solving t ids ids dr := by
  refine Part.query fun dr₀ dr eff h₀ h _ _ he hlater => ?_
  obtain rfl := Except.ok.inj he
  dsimp only
  generalize hlist : S.cfg.ticketIds.filter (closesOnSolve teamId puzzleId dr₀.after) = ids
  refine ⟨hlist ▸ hids.filter _, ?_⟩
  have hbegun : ∀ k, dr.after k = dr.before k := fun k => by rw [h]; rfl
  have hrow : ∀ i ∈ ids, dr.before (.ticket i) = dr₀.after (.ticket i) := by
    intro i hi
    rw [← hbegun]
    refine hlater.after_eq _ (List.mem_append_left _ ?_)
    simpa [Effect.keys, hlist] using hi
  refine ⟨by rw [Draft.add_tid, h]; rfl, fun i hi => ?_, fun k hk => ?_, fun i hi => ?_,
    fun i hi hnot => absurd hi hnot, fun i _ => ?_⟩
  · exact List.mem_append_left _ (by simpa [Effect.keys] using hi)
  · rw [Draft.add_after, applyPuts_of_notMem ?_]
    · exact hbegun k
    · intro hmem
      rw [List.map_map] at hmem
      obtain ⟨i, hi, rfl⟩ := List.mem_map.1 hmem
      exact (hk i hi).1 rfl
  · obtain ⟨-, hcloses⟩ := List.mem_filter.1 (hlist ▸ hi)
    obtain ⟨tk, htk, hcond⟩ := Option.any_eq_true _ _ |>.1 hcloses
    obtain ⟨-, -, hstate⟩ := of_decide_eq_true hcond
    refine ⟨tk, { tk with state := 0 }, ?_, ?_, hstate, rfl, rfl, rfl⟩
    · rw [Draft.add_before, hrow i hi, htk]
    · rw [Draft.add_after, applyPuts_tickets, if_pos hi, htk]
      rfl
  · rw [Draft.add_after, applyPuts_of_notMem (by simp)]
    exact hbegun _

/-- The operations, by induction on the tickets still to be logged. -/
lemma logClosedOnSolve_part {actorId : Id} {ids : List Id} (todo : List Id) :
    Part S t (fun dr => (todo ⊆ ids ∧ todo.Nodup) ∧ Solving t ids todo dr)
      (logClosedOnSolve t actorId todo) fun _ => Solving t ids [] := by
  induction todo with
  | nil => exact Draws.pure fun _ _ h => h.2
  | cons id todo ih =>
    refine Draws.bind (N := fun _ dr => (todo ⊆ ids ∧ todo.Nodup) ∧ Solving t ids todo dr)
      (Part.query fun dr₀ dr eff _ ⟨⟨hsub, hnodup⟩, h⟩ _ _ he hlater => ?_) fun _ => ih
    obtain ⟨hnew, hnodup⟩ := List.nodup_cons.1 hnodup
    obtain ⟨op, hop, rfl⟩ := insertOperation_eq_ok he
    have hsame : dr₀.after (.operations id) = dr.after (.operations id) :=
      (hlater.after_eq _ (by simp [Effect.keys])).symm
    rw [hsame]
    exact ⟨⟨fun i hi => hsub (List.mem_cons_of_mem _ hi), hnodup⟩,
      h.log (hsub List.mem_cons_self) hnew hop⟩

/-- **Closing the tickets of a solved puzzle** does what commits do. -/
lemma solveBody_part {teamId puzzleId actorId : Id} (hids : S.cfg.ticketIds.Nodup) :
    Part S t (fun dr => dr = .begun t dr.start dr.before)
      (do closePuzzleTicketsOnSolveConn S.cfg t teamId puzzleId actorId; return (true, ()))
      fun r dr => r.1 = true → Writes S dr := by
  have hconn : Part S t (fun dr => dr = .begun t dr.start dr.before)
      (closePuzzleTicketsOnSolveConn S.cfg t teamId puzzleId actorId)
      fun _ dr => ∃ ids, Solving t ids [] dr := by
    refine (setClosedOnSolve_part hids).bind fun ids => ?_
    exact (logClosedOnSolve_part ids).conseq
      (fun _ _ h => ⟨⟨List.Subset.refl _, h.1⟩, h.2⟩) (fun _ _ _ h => ⟨ids, h⟩) fun _ _ h => h
  exact hconn.bind fun _ => Draws.pure fun dr _ ⟨ids, h⟩ _ => h.writes

end Parts

end Helpdesk
