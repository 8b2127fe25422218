import RbphBackend.Concurrency.Guards
import RbphBackend.Helpdesk.Requests

set_option relaxedAutoImplicit false
set_option autoImplicit false

/-!
# Steps of tickets

Every commit of a call takes each ticket one step: it opens it, closes it, assigns it, or leaves it.
A team's row guards the opening of its tickets, and a ticket's row guards its messages.

## Main definitions

* `Helpdesk.TicketStep` — the steps of a ticket, with its operations.
* `Helpdesk.Does` — what a commit does.
* `Helpdesk.guardedRows` — what the rows guard.
* `Helpdesk.Drafts` — what the transaction of one ticket has drafted.

## Main results

* `Helpdesk.Drafts.writes` — such a draft is what a commit does, if its ticket has taken a step.
-/

namespace Helpdesk

open Concurrency ReadCommitted Numeric Threads

/-! ## Steps of a ticket -/

/-- The ticket is closed. -/
def ClosedTicket (v : View) (id : Id) : Prop := ∃ tk, v (.ticket id) = some tk ∧ tk.state = 0

lemma any_closed_iff {v : View} {id : Id} :
    (v (.ticket id)).any (fun tk => decide (tk.state = 0)) = true ↔ ClosedTicket v id := by
  simp [ClosedTicket, Option.any_eq_true]

instance (v : View) (id : Id) : Decidable (ClosedTicket v id) := decidable_of_iff _ any_closed_iff

/-- The team has this open ticket for a puzzle. -/
def OpenFor (teamId : Id) (x : Option Ticket) : Prop := x.any (Ticket.isOpenFor teamId) = true

/-- The ticket is as it was, up to its assignee. -/
def Assigned (x y : Option Ticket) : Prop :=
  x = y ∨ ∃ tk user, x = some tk ∧ y = some { tk with assignee := user }

/-- The ticket is closed now and was not before. -/
def Closes (x y : Option Ticket) : Prop :=
  ∃ tk tk', x = some tk ∧ y = some tk' ∧ tk.state ≠ 0 ∧ tk'.state = 0 ∧ tk'.teamId = tk.teamId ∧
    tk'.puzzleId = tk.puzzleId

/-- A ticket of the team for a puzzle is new. -/
def Opens (teamId puzzleId : Id) (x y : Option Ticket) : Prop :=
  x = none ∧ y = some ⟨1, teamId, some puzzleId, none⟩

/-- An operation that opens a ticket. -/
def Operation.opens (op : Operation) : Bool := decide (op.action = 1)

/-- An operation that closes a ticket. -/
def Operation.closes (op : Operation) : Bool := decide (op.action = 2 ∨ op.action = 3)

/-- The steps of a ticket and its operations. -/
inductive TicketStep (x y : Option Ticket) (ops : List Operation) : List Operation → Prop where
  | kept (h : Assigned x y) : TicketStep x y ops ops
  | opened {teamId puzzleId : Id} {op : Operation} (h : Opens teamId puzzleId x y)
      (hop : op.action = 1) : TicketStep x y ops (ops ++ [op])
  | closed {op : Operation} (h : Closes x y) (hop : op.action = 2 ∨ op.action = 3) :
      TicketStep x y ops (ops ++ [op])

/-! ## What a commit does -/

/-- A pool of calls, what is committed where its run begins, and whether its senders of messages
find tickets as their requests have read them. -/
structure Setting where
  cfg : Config
  calls : Tid → TicketCall
  origin : View
  current : Prop

/-- The limit of pending messages that a call observes. -/
def TicketCall.maxPending : TicketCall → Option ℤ
  | .send _ _ _ maxPending _ => maxPending
  | .request call => call.maxPending
  | .openTicket _ | .closeTicket _ | .solve .. => none

/-- The call is not to add a message of the team to a closed ticket. -/
def TicketCall.refuses : TicketCall → Bool
  | .send .. => false
  | .request call => call.user.role.any fun role => !isAdmin role
  | .openTicket _ | .closeTicket _ | .solve .. => true

/-- What a call observes when it adds a message of the team. -/
structure Observes (S : Setting) (call : TicketCall) (v : View) (id : Id) : Prop where
  limit : ∀ n, call.maxPending = some n → (pendingCount (v (.messages id)) : ℤ) < n
  refuses : S.current → call.refuses = true → ¬ ClosedTicket v id

/-- **What a commit does.** -/
structure Does (S : Setting) (e : TicketCommit) : Prop where
  teams : ∀ T, e.after (.team T) = e.before (.team T)
  tickets : ∀ id, TicketStep (e.before (.ticket id)) (e.after (.ticket id))
    (e.before (.operations id)) (e.after (.operations id))
  listed : ∀ id, e.before (.ticket id) = none → e.after (.ticket id) ≠ none →
    id ∈ S.cfg.ticketIds
  single : ∀ T id, ¬ OpenFor T (e.before (.ticket id)) → OpenFor T (e.after (.ticket id)) →
    ∀ id' ∈ S.cfg.ticketIds, ¬ OpenFor T (e.before (.ticket id'))
  one : ∀ id id', e.before (.ticket id) = none → e.after (.ticket id) ≠ none →
    e.before (.ticket id') = none → e.after (.ticket id') ≠ none → id = id'
  messages : ∀ id, e.after (.messages id) = e.before (.messages id) ∨
    ∃ m, e.after (.messages id) = e.before (.messages id) ++ [m] ∧
      (m.senderType = 0 → Observes S (S.calls e.tid) e.before id)

/-- What the rows guard: no ticket of a team is opened by others while its row is held, and no message
is added to a ticket. -/
def GuardedRow : (guard k : Key) → Val k → Val k → Prop
  | .team T, .ticket _, x, y => OpenFor T y → OpenFor T x
  | .ticket id, .messages id', x, y => id = id' → y = x
  | _, _, _, _ => True

lemma GuardedRow.refl {guard k : Key} (x : Val k) : GuardedRow guard k x x := by
  cases guard <;> cases k <;> first | exact trivial | exact id | exact fun _ => rfl

lemma GuardedRow.trans {guard k : Key} {x y z : Val k} (h : GuardedRow guard k x y)
    (h' : GuardedRow guard k y z) : GuardedRow guard k x z := by
  cases guard <;> cases k <;>
    first | exact trivial | exact fun hz => h (h' hz) | exact fun he => (h' he).trans (h he)

/-- The contract of the calls. -/
def guardedRows : Contract Val := ⟨GuardedRow, GuardedRow.refl, GuardedRow.trans⟩

/-! ## Drafts -/

/-- What a draft must be for its commit to be one of the calls. -/
def Writes (S : Setting) (dr : Draft Val Record) : Prop :=
  Does S dr.toCommit ∧ dr.Respects guardedRows

/-- What the transaction of one ticket has drafted: it holds the rows `H`, knows `F` of what is
committed, and has written nothing but the ticket, its messages and its operations. -/
structure Drafts (t : Tid) (id : Id) (H : List Key) (F : View → Prop)
    (R : Option Ticket → Option Ticket → Prop) (M : List Message → List Message → Prop)
    (O : List Operation → List Operation → Prop) (dr : Draft Val Record) : Prop where
  tid : dr.tid = t
  held : ∀ k ∈ H, k ∈ dr.held
  facts : F dr.before
  rest : ∀ k, k ≠ .ticket id → k ≠ .messages id → k ≠ .operations id → dr.after k = dr.before k
  ticket : R (dr.before (.ticket id)) (dr.after (.ticket id))
  messages : M (dr.before (.messages id)) (dr.after (.messages id))
  operations : O (dr.before (.operations id)) (dr.after (.operations id))

/-- It has written nothing. -/
abbrev Unwritten (t : Tid) (id : Id) (H : List Key) (F : View → Prop) :
    Draft Val Record → Prop := Drafts t id H F Eq Eq Eq

namespace Drafts

variable {t : Tid} {id : Id} {H : List Key} {F : View → Prop}
  {R R' : Option Ticket → Option Ticket → Prop} {M M' : List Message → List Message → Prop}
  {O O' : List Operation → List Operation → Prop} {dr : Draft Val Record} {β : Type}

lemma begun {start : ℤ} {v : View} (id : Id) :
    Unwritten t id [] (fun _ => True) (.begun t start v) :=
  ⟨rfl, by simp, trivial, fun _ _ _ _ => rfl, rfl, rfl, rfl⟩

/-- Nothing is written yet. -/
lemma after_eq (h : Unwritten t id H F dr) (k : Key) : dr.after k = dr.before k := by
  by_cases h₁ : k = .ticket id
  · exact h₁ ▸ h.ticket.symm
  by_cases h₂ : k = .messages id
  · exact h₂ ▸ h.messages.symm
  by_cases h₃ : k = .operations id
  · exact h₃ ▸ h.operations.symm
  exact h.rest k h₁ h₂ h₃

/-- Knowing other things of what is committed. -/
lemma know {F' : View → Prop} (h : Drafts t id H F R M O dr) (hF : F' dr.before) :
    Drafts t id H F' R M O dr := { h with facts := hF }

/-- A weaker account of what has been written. -/
lemma mono (h : Drafts t id H F R M O dr) (hR : ∀ x y, R x y → R' x y)
    (hM : ∀ x y, M x y → M' x y) (hO : ∀ x y, O x y → O' x y) : Drafts t id H F R' M' O' dr :=
  { h with ticket := hR _ _ h.ticket, messages := hM _ _ h.messages,
           operations := hO _ _ h.operations }

/-- Inserting records writes no row. -/
lemma insert {b : β} {l : List Record} (h : Drafts t id H F R M O dr) :
    Drafts t id H F R M O (dr.add ({ val := b, inserts := l } : Effect Val Record β)) :=
  ⟨h.tid, h.held, h.facts, h.rest, h.ticket, h.messages, h.operations⟩

/-- Locking a row as it is. -/
lemma lock {b : β} {k : Key} (h : Drafts t id H F R M O dr) (x : Val k) (hx : x = dr.after k) :
    Drafts t id (k :: H) F R M O (dr.add ({ val := b, puts := [⟨k, x⟩] } : Effect Val Record β)) := by
  have hafter : applyPuts [⟨k, x⟩] dr.after = dr.after := applyPuts_of_locks fun q hq => by
    obtain rfl := List.mem_singleton.1 hq
    exact hx
  refine ⟨h.tid, fun k' hk' => ?_, h.facts, ?_, ?_, ?_, ?_⟩
  · rcases List.mem_cons.1 hk' with rfl | hk'
    · exact List.mem_append_left _ (List.mem_singleton_self _)
    · exact List.mem_append_right _ (h.held k' hk')
  all_goals simp only [Draft.add_after, Draft.add_before, hafter]
  · exact h.rest
  · exact h.ticket
  · exact h.messages
  · exact h.operations

/-- Writing the ticket. -/
lemma putTicket {b : β} {y : Option Ticket} (h : Drafts t id H F R M O dr)
    (hR : R' (dr.before (.ticket id)) y) :
    Drafts t id (.ticket id :: H) F R' M O
      (dr.add ({ val := b, puts := [⟨.ticket id, y⟩] } : Effect Val Record β)) := by
  refine ⟨h.tid, fun k' hk' => ?_, h.facts, fun k h₁ h₂ h₃ => ?_, ?_, ?_, ?_⟩
  · rcases List.mem_cons.1 hk' with rfl | hk'
    · exact List.mem_append_left _ (List.mem_singleton_self _)
    · exact List.mem_append_right _ (h.held k' hk')
  · simpa [h₁] using h.rest k h₁ h₂ h₃
  · simpa using hR
  · simpa using h.messages
  · simpa using h.operations

/-- Writing its messages. -/
lemma putMessages {b : β} {y : List Message} (h : Drafts t id H F R M O dr)
    (hM : M' (dr.before (.messages id)) y) :
    Drafts t id H F R M' O
      (dr.add ({ val := b, puts := [⟨.messages id, y⟩] } : Effect Val Record β)) := by
  refine ⟨h.tid, fun k hk => List.mem_append_right _ (h.held k hk), h.facts,
    fun k h₁ h₂ h₃ => ?_, ?_, ?_, ?_⟩
  · simpa [h₂] using h.rest k h₁ h₂ h₃
  · simpa using h.ticket
  · simpa using hM
  · simpa using h.operations

/-- Writing its operations. -/
lemma putOperations {b : β} {y : List Operation} (h : Drafts t id H F R M O dr)
    (hO : O' (dr.before (.operations id)) y) :
    Drafts t id H F R M O'
      (dr.add ({ val := b, puts := [⟨.operations id, y⟩] } : Effect Val Record β)) := by
  refine ⟨h.tid, fun k hk => List.mem_append_right _ (h.held k hk), h.facts,
    fun k h₁ h₂ h₃ => ?_, ?_, ?_, ?_⟩
  · simpa [h₃] using h.rest k h₁ h₂ h₃
  · simpa using h.ticket
  · simpa using h.messages
  · simpa using hO

/-- **A draft of one ticket** is what a commit does, if the ticket has taken a step and what has been
added to its messages is in order. -/
lemma writes {S : Setting} (h : Drafts t id H F R M O dr) (hid : .ticket id ∈ H)
    (hstep : ∀ x y ops ops', R x y → O ops ops' → TicketStep x y ops ops')
    (hlisted : ∀ y, R none y → y ≠ none → id ∈ S.cfg.ticketIds)
    (hopen : ∀ T x y, R x y → ¬ OpenFor T x → OpenFor T y → .team T ∈ H ∧
      ∀ v, F v → ∀ id' ∈ S.cfg.ticketIds, ¬ OpenFor T (v (.ticket id')))
    (hmessage : ∀ v x y, F v → v (.messages id) = x → M x y →
      y = x ∨ ∃ m, y = x ++ [m] ∧ (m.senderType = 0 → Observes S (S.calls t) v id)) :
    Writes S dr := by
  have hother : ∀ id', id' ≠ id → dr.after (.ticket id') = dr.before (.ticket id') :=
    fun id' hne => h.rest _ (by simpa using hne) (by simp) (by simp)
  refine ⟨⟨fun T => h.rest _ (by simp) (by simp) (by simp), fun id' => ?_, fun id' hb ha => ?_,
    fun T id' hb ha => ?_, fun id₁ id₂ hb₁ ha₁ hb₂ ha₂ => ?_, fun id' => ?_⟩, fun guard hg k => ?_⟩
  · by_cases hne : id' = id
    · subst hne
      exact hstep _ _ _ _ h.ticket h.operations
    · rw [hother id' hne, h.rest (.operations id') (by simp) (by simp) (by simpa using hne)]
      exact .kept (.inl rfl)
  · by_cases hne : id' = id
    · subst hne
      exact hlisted _ (hb ▸ h.ticket) ha
    · exact absurd ((hother id' hne).trans hb) ha
  · by_cases hne : id' = id
    · subst hne
      exact (hopen T _ _ h.ticket hb ha).2 _ h.facts
    · rw [hother id' hne] at ha
      exact absurd ha hb
  · have hself : ∀ id', dr.before (.ticket id') = none → dr.after (.ticket id') ≠ none → id' = id :=
      fun id' hb ha => by_contra fun hne => ha ((hother id' hne).trans hb)
    rw [hself id₁ hb₁ ha₁, hself id₂ hb₂ ha₂]
  · by_cases hne : id' = id
    · subst hne
      have hm := hmessage dr.before _ _ h.facts rfl h.messages
      rwa [← h.tid] at hm
    · exact .inl (h.rest _ (by simp) (by simpa using hne) (by simp))
  · cases guard with
    | team T =>
      cases k with
      | ticket id' =>
        intro ha
        by_cases hne : id' = id
        · subst hne
          by_contra hb
          exact hg (h.held _ (hopen T _ _ h.ticket hb ha).1)
        · rwa [← hother id' hne]
      | _ => trivial
    | ticket id' =>
      cases k with
      | messages id'' =>
        rintro rfl
        have hne : id' ≠ id := fun he => hg (he ▸ h.held _ hid)
        exact h.rest _ (by simp) (by simpa using hne) (by simp)
      | _ => trivial
    | _ => cases k <;> trivial

end Drafts

end Helpdesk
