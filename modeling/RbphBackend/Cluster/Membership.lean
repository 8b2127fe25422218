import RbphBackend.Cluster.Registry

set_option relaxedAutoImplicit false
set_option autoImplicit false

/-!
# Cluster membership

A process renews its lease in a loop and reports itself ready as long as its last successful
renewal is recent. The clock is read when the response of a renewal has arrived; a renewal that has
timed out for the process may still run on the database. Others may delete the row once its lease
has expired.

## Main definitions

* `Cluster.Lease.Membership` — the process, its row and the renewals it has sent.
* `Cluster.Lease.MembershipEvent`, `Cluster.Lease.next` — what may happen to them.
* `Cluster.Lease.Membership.isReady` — the readiness predicate.
* `Cluster.Lease.Sound` — the invariant.

## Main results

* `Cluster.Lease.leased_of_ready` — whenever the process is ready, its lease has not expired.
-/

namespace Cluster.Lease

open Concurrency

/-! ## The process and its row -/

/-- `RENEW_INTERVAL`. -/
def renewInterval : ℤ := 15000000

/-- `RENEW_RETRY`. -/
def renewRetry : ℤ := 3000000

/-- `RENEW_TIMEOUT`. -/
def renewTimeout : ℤ := 3000000

/-- `LEASE_SAFETY_WINDOW`. -/
def leaseSafetyWindow : ℤ := 30000000

/-- What has become of a renewal on the database: it has affected a row or not. -/
inductive Progress where
  | sent
  | done (affected : Bool)
  | failed
  deriving DecidableEq

/-- A call of `renew`, with the instant it was made. -/
structure Renewal where
  started : ℤ
  progress : Progress
  deriving DecidableEq

/-- Where `run` stands. After a success the clock has been read, then `last_renewed` is written,
then `ready`; in `mark_lost`, `ready` is cleared before `terminal` is set. -/
inductive Runner where
  | sleeping (till : ℤ)
  | renewing (call : ℕ)
  | succeeded
  | renewed
  | losing
  | unready
  | returned
  deriving DecidableEq

/-- How far `shutdown` has come. -/
inductive Shutdown where
  | running
  | stopping
  | unready
  | terminal
  deriving DecidableEq

/-- The row, by the database's clock; `written` is when this version was, by the process's.
`renewing` is the renewal that holds its lock, with the lease it is going to write; `deleting` says
that another registration has deleted it and has not committed. -/
structure LeaseRow where
  leaseUntil : ℤ
  written : ℤ
  renewing : Option (ℕ × ℤ)
  deleting : Bool
  deriving DecidableEq

/-- The process, its row and the renewals it has sent; `now` is its monotonic clock. -/
structure Membership where
  now : ℤ
  ready : Bool
  terminal : Bool
  lastRenewed : ℤ
  lastSuccess : ℤ
  runner : Runner
  shutdown : Shutdown
  row : Option LeaseRow
  calls : List Renewal
  deriving DecidableEq

/-- A process that has registered. -/
def Membership.registered (now leaseUntil : ℤ) : Membership where
  now := now
  ready := false
  terminal := false
  lastRenewed := now
  lastSuccess := now
  runner := .sleeping now
  shutdown := .running
  row := some ⟨leaseUntil, now, none, false⟩
  calls := []

/-- `is_ready`. -/
def Membership.isReady (m : Membership) : Prop :=
  m.ready = true ∧ m.terminal = false ∧ m.now - m.lastRenewed < leaseSafetyWindow

instance (m : Membership) : Decidable m.isReady := inferInstanceAs (Decidable (_ ∧ _))

/-- The lease has not expired on the database, whose clock is ahead by `offset`. -/
def Membership.Leased (offset : ℤ) (m : Membership) : Prop :=
  ∃ row, m.row = some row ∧ m.now + offset < row.leaseUntil

/-! ## The events -/

/-- What may happen. `guard`, `commit` and `fail` are the database's steps of a renewal; `response`,
`error` and `timeout` are what the process learns of it; `run` and `shutdown` are the next steps of
the two tasks. -/
inductive MembershipEvent where
  | tick (n : ℕ)
  | wake
  | guard (call : ℕ) (at_ : ℤ)
  | commit (call : ℕ)
  | fail (call : ℕ)
  | response
  | error
  | timeout
  | run
  | shutdown
  | deleteExpired
  | deleteCommit
  | deleteAbort
  deriving DecidableEq

namespace Membership

variable (m : Membership)

/-- Record what has become of a renewal. -/
def settle (call : ℕ) (p : Progress) : List Renewal :=
  m.calls.modify call fun c => { c with progress := p }

/-- The loop goes round. -/
def wake : Option Membership :=
  match m.runner with
  | .sleeping till =>
    if m.shutdown ≠ .running then some { m with runner := .returned }
    else if till ≤ m.now then some { m with
      runner := .renewing m.calls.length
      calls := m.calls ++ [⟨m.now, .sent⟩] }
    else none
  | _ => none

/-- The statement of a renewal evaluates its guard, then gets the row's lock; the version that it
has evaluated is the one it locks. -/
def guard (offset : ℤ) (call : ℕ) (at_ : ℤ) : Option Membership :=
  match m.calls[call]? with
  | some ⟨started, .sent⟩ =>
    match m.row with
    | none => some { m with calls := m.settle call (.done false) }
    | some row =>
      if row.renewing.isSome ∨ row.deleting ∨ at_ < started ∨ at_ < row.written ∨
          m.now < at_ then
        none
      else if at_ + offset < row.leaseUntil then some { m with
        row := some { row with renewing := some (call, at_ + offset + leaseMicroseconds) } }
      else some { m with calls := m.settle call (.done false) }
  | _ => none

/-- The renewal that holds the lock commits. -/
def commit (call : ℕ) : Option Membership :=
  match m.row with
  | some ⟨_, _, some (holder, renewed), deleting⟩ =>
    if holder = call then some { m with
      row := some ⟨renewed, m.now, none, deleting⟩
      calls := m.settle call (.done true) }
    else none
  | _ => none

/-- A renewal is rolled back, or never arrives. -/
def fail (call : ℕ) : Option Membership :=
  match m.calls[call]? with
  | some ⟨_, .sent⟩ => some { m with
      row := m.row.map fun row =>
        if row.renewing.any (·.1 = call) then { row with renewing := none } else row
      calls := m.settle call .failed }
  | _ => none

/-- A renewal has failed or timed out. -/
def afterFailure : Membership :=
  if leaseSafetyWindow ≤ m.now - m.lastSuccess then { m with runner := .losing }
  else { m with runner := .sleeping (m.now + renewRetry) }

/-- The result arrives; it counts until the timeout of the call has elapsed. -/
def response : Option Membership :=
  match m.runner with
  | .renewing call =>
    match m.calls[call]? with
    | some ⟨started, .done affected⟩ =>
      if m.now ≤ started + renewTimeout then
        some (if affected then { m with lastSuccess := m.now, runner := .succeeded }
          else { m with runner := .losing })
      else none
    | _ => none
  | _ => none

/-- An error arrives, whatever becomes of the renewal. -/
def error : Option Membership :=
  match m.runner with
  | .renewing _ => some m.afterFailure
  | _ => none

/-- The timeout of the call elapses. -/
def timeout : Option Membership :=
  match m.runner with
  | .renewing call =>
    match m.calls[call]? with
    | some c => if c.started + renewTimeout ≤ m.now then some m.afterFailure else none
    | none => none
  | _ => none

/-- The stores after a renewal. -/
def run : Option Membership :=
  match m.runner with
  | .succeeded => some { m with lastRenewed := m.lastSuccess, runner := .renewed }
  | .renewed => some { m with ready := true, runner := .sleeping (m.now + renewInterval) }
  | .losing => some { m with ready := false, runner := .unready }
  | .unready => some { m with terminal := true, runner := .returned }
  | _ => none

/-- `shutdown`, which deletes the row at the end. -/
def shut : Option Membership :=
  match m.shutdown with
  | .running => some { m with shutdown := .stopping }
  | .stopping => some { m with ready := false, shutdown := .unready }
  | .unready => some { m with terminal := true, shutdown := .terminal }
  | .terminal =>
    match m.row with
    | some row => if row.renewing.isSome ∨ row.deleting then none else some { m with row := none }
    | none => some m

/-- Another registration deletes the row. -/
def deleteExpired (offset : ℤ) : Option Membership :=
  match m.row with
  | some row =>
    if row.renewing.isSome ∨ row.deleting ∨ m.now + offset < row.leaseUntil then none
    else some { m with row := some { row with deleting := true } }
  | none => none

/-- It commits, or is rolled back. -/
def deleteEnd (committed : Bool) : Option Membership :=
  match m.row with
  | some row =>
    if row.deleting then some { m with
      row := if committed then none else some { row with deleting := false } }
    else none
  | none => none

end Membership

/-- What an event leaves. -/
def next (offset : ℤ) : System Membership MembershipEvent := fun m e =>
  match e with
  | .tick n => some { m with now := m.now + n }
  | .wake => m.wake
  | .guard call at_ => m.guard offset call at_
  | .commit call => m.commit call
  | .fail call => m.fail call
  | .response => m.response
  | .error => m.error
  | .timeout => m.timeout
  | .run => m.run
  | .shutdown => m.shut
  | .deleteExpired => m.deleteExpired offset
  | .deleteCommit => m.deleteEnd true
  | .deleteAbort => m.deleteEnd false

/-! ## The renewals that are recorded -/

section Calls

variable {m m' : Membership} {c : Renewal} {call k : ℕ} {p : Progress}

/-- The lease of at least a minute that a renewal of this start gives. -/
def Renewal.lease (c : Renewal) : ℤ := c.started + leaseMicroseconds

/-- A renewal has succeeded that was made no longer than a timeout before `t`. -/
def Membership.Renewed (m : Membership) (t : ℤ) : Prop :=
  ∃ c ∈ m.calls, c.progress = .done true ∧ t ≤ c.started + renewTimeout

lemma settle_getElem? (m : Membership) (call k : ℕ) (p : Progress) :
    (m.settle call p)[k]? =
      m.calls[k]?.map fun c => if call = k then { c with progress := p } else c := by
  rw [Membership.settle, List.getElem?_modify]
  rfl

lemma exists_settle_getElem? (call : ℕ) (p : Progress) (hc : m.calls[k]? = some c) :
    ∃ c', (m.settle call p)[k]? = some c' ∧ c'.started = c.started := by
  rw [settle_getElem?, hc]
  refine ⟨_, rfl, ?_⟩
  split
  · rfl
  · rfl

lemma exists_of_mem_settle (hc : c ∈ m.settle call p) :
    ∃ c₀ ∈ m.calls, c₀.started = c.started ∧
      (c = c₀ ∨ c.progress = p ∧ m.calls[call]? = some c₀) := by
  obtain ⟨k, hk⟩ := List.mem_iff_getElem?.mp hc
  rw [settle_getElem?] at hk
  obtain ⟨c₀, h₀, rfl⟩ := Option.map_eq_some_iff.mp hk
  refine ⟨c₀, List.mem_of_getElem? h₀, ?_⟩
  by_cases hcall : call = k
  · rw [if_pos hcall]
    exact ⟨rfl, .inr ⟨rfl, hcall ▸ h₀⟩⟩
  · rw [if_neg hcall]
    exact ⟨rfl, .inl rfl⟩

/-- A success stays recorded. -/
lemma mem_settle (hc : c ∈ m.calls) (hdone : c.progress = .done true)
    (h : p = .done true ∨ ∃ started, m.calls[call]? = some ⟨started, .sent⟩) :
    c ∈ m.settle call p := by
  obtain ⟨k, hk⟩ := List.mem_iff_getElem?.mp hc
  apply List.mem_of_getElem? (i := k)
  rw [settle_getElem?, hk, Option.map_some]
  by_cases hcall : call = k
  · rw [if_pos hcall]
    subst hcall
    obtain rfl | ⟨started, hs⟩ := h
    · rw [← hdone]
    · rw [hs] at hk
      obtain rfl := Option.some.inj hk
      cases hdone
  · rw [if_neg hcall]

lemma Membership.Renewed.mono {t : ℤ} (h : m.Renewed t)
    (hcalls : ∀ c ∈ m.calls, c.progress = .done true → c ∈ m'.calls) : m'.Renewed t := by
  obtain ⟨c, hc, hdone, ht⟩ := h
  exact ⟨c, hcalls c hc hdone, hdone, ht⟩

end Calls

/-! ## The row -/

/-- What a renewal that has succeeded gives: the row outlasts it, unless the process has shut down
or the time is over. -/
def Membership.Covers (offset : ℤ) (m : Membership) (c : Renewal) : Prop :=
  m.shutdown = .terminal ∨ c.lease ≤ m.now ∨
    ∃ row, m.row = some row ∧ c.lease + offset ≤ row.leaseUntil ∧ c.started ≤ row.written

/-- **The invariant of the row** and of the renewals that the database has seen. -/
structure Sound (offset : ℤ) (m : Membership) : Prop where
  started : ∀ c ∈ m.calls, c.started ≤ m.now
  covers : ∀ c ∈ m.calls, c.progress = .done true → m.Covers offset c
  holder : ∀ row call lease, m.row = some row → row.renewing = some (call, lease) →
    row.written + offset + leaseMicroseconds ≤ lease ∧
      ∃ c, m.calls[call]? = some c ∧ c.lease + offset ≤ lease
  deleting : ∀ row, m.row = some row → row.deleting = true →
    row.leaseUntil ≤ m.now + offset ∧ row.renewing = none
  terminal : m.shutdown = .terminal → m.terminal = true

namespace Sound

variable {offset : ℤ} {m m' : Membership}

theorem registered (now leaseUntil : ℤ) :
    Sound offset (Membership.registered now leaseUntil) where
  started := by intro c hc; cases hc
  covers := by intro c hc; cases hc
  holder := by
    intro row call lease hrow hren
    obtain rfl := Option.some.inj hrow
    cases hren
  deleting := by
    intro row hrow hdel
    obtain rfl := Option.some.inj hrow
    cases hdel
  terminal := by intro h; cases h

/-- The steps of the process leave the row alone. -/
theorem of_process (h : Sound offset m) (hnow : m'.now = m.now) (hrow : m'.row = m.row)
    (hcalls : m'.calls = m.calls) (hshut : m.shutdown = .terminal → m'.shutdown = .terminal)
    (hterm : m'.shutdown = .terminal → m'.terminal = true) : Sound offset m' where
  started := by
    rw [hcalls, hnow]
    exact h.started
  covers := by
    intro c hc hdone
    rw [hcalls] at hc
    obtain hs | hnw | ⟨row, hr, hl⟩ := h.covers c hc hdone
    · exact .inl (hshut hs)
    · exact .inr (.inl (hnow ▸ hnw))
    · exact .inr (.inr ⟨row, hrow ▸ hr, hl⟩)
  holder := by
    rw [hrow, hcalls]
    exact h.holder
  deleting := by
    rw [hrow, hnow]
    exact h.deleting
  terminal := hterm

theorem tick (h : Sound offset m) (n : ℕ) : Sound offset { m with now := m.now + n } where
  started := by
    intro c hc
    have := h.started c hc
    show c.started ≤ m.now + n
    omega
  covers := by
    intro c hc hdone
    obtain hs | hnw | hr := h.covers c hc hdone
    · exact .inl hs
    · refine .inr (.inl ?_)
      show c.lease ≤ m.now + n
      omega
    · exact .inr (.inr hr)
  holder := h.holder
  deleting := by
    intro row hrow hdel
    obtain ⟨hl, hren⟩ := h.deleting row hrow hdel
    refine ⟨?_, hren⟩
    show row.leaseUntil ≤ m.now + n + offset
    omega
  terminal := h.terminal

/-- A new renewal. -/
theorem send (h : Sound offset m) (runner : Runner) :
    Sound offset { m with runner := runner, calls := m.calls ++ [⟨m.now, .sent⟩] } where
  started := by
    intro c hc
    obtain hc | hc := List.mem_append.mp hc
    · exact h.started c hc
    · rw [List.mem_singleton.mp hc]
  covers := by
    intro c hc hdone
    obtain hc | hc := List.mem_append.mp hc
    · exact h.covers c hc hdone
    · rw [List.mem_singleton.mp hc] at hdone
      cases hdone
  holder := by
    intro row call lease hrow hren
    obtain ⟨hw, c, hc, hl⟩ := h.holder row call lease hrow hren
    have hlt : call < m.calls.length := (List.getElem?_eq_some_iff.mp hc).1
    exact ⟨hw, c, by rw [List.getElem?_append_left hlt, hc], hl⟩
  deleting := h.deleting
  terminal := h.terminal

/-- A renewal that affects no row, or fails: the row stays, or loses its lock. -/
theorem settle (h : Sound offset m) {call : ℕ} {p : Progress} (hp : p ≠ .done true)
    {row' : Option LeaseRow}
    (hrow : ∀ row ∈ m.row, row' = some row ∨ row' = some { row with renewing := none })
    (hnone : m.row = none → row' = none) :
    Sound offset { m with row := row', calls := m.settle call p } where
  started := by
    intro c hc
    obtain ⟨c₀, h₀, hs, -⟩ := exists_of_mem_settle hc
    exact hs ▸ h.started c₀ h₀
  covers := by
    intro c hc hdone
    obtain ⟨c₀, h₀, -, rfl | ⟨hp', -⟩⟩ := exists_of_mem_settle hc
    · obtain hs | hnw | ⟨row, hr, hl⟩ := h.covers c h₀ hdone
      · exact .inl hs
      · exact .inr (.inl hnw)
      · obtain hr' | hr' := hrow row hr
        · exact .inr (.inr ⟨row, hr', hl⟩)
        · exact .inr (.inr ⟨_, hr', hl⟩)
    · exact absurd (hp'.symm.trans hdone) hp
  holder := by
    intro row call' lease hr hren
    cases hm : m.row with
    | none =>
      rw [show row' = none from hnone hm] at hr
      cases hr
    | some row₀ =>
      obtain hr' | hr' := hrow row₀ hm
      · obtain rfl : row₀ = row := Option.some.inj (hr'.symm.trans hr)
        obtain ⟨hw, c, hc, hl⟩ := h.holder _ call' lease hm hren
        obtain ⟨c', hc', hs⟩ := exists_settle_getElem? call p hc
        refine ⟨hw, c', hc', ?_⟩
        rw [Renewal.lease, hs]
        exact hl
      · obtain rfl := Option.some.inj (hr'.symm.trans hr)
        cases hren
  deleting := by
    intro row hr hdel
    cases hm : m.row with
    | none =>
      rw [show row' = none from hnone hm] at hr
      cases hr
    | some row₀ =>
      obtain hr' | hr' := hrow row₀ hm
      · obtain rfl : row₀ = row := Option.some.inj (hr'.symm.trans hr)
        exact h.deleting _ hm hdel
      · obtain rfl := Option.some.inj (hr'.symm.trans hr)
        exact ⟨(h.deleting row₀ hm hdel).1, rfl⟩
  terminal := h.terminal

/-- A renewal gets the lock: the lease that it is going to write was computed after it was made and
after the row was last written. -/
theorem lock (h : Sound offset m) {row : LeaseRow} {call : ℕ} {c : Renewal} {at_ : ℤ}
    (hrow : m.row = some row) (hc : m.calls[call]? = some c) (hdel : row.deleting = false)
    (hat : c.started ≤ at_) (hw : row.written ≤ at_) :
    Sound offset { m with
      row := some { row with renewing := some (call, at_ + offset + leaseMicroseconds) } } where
  started := h.started
  covers := by
    intro c hc hdone
    obtain hs | hnw | ⟨row₀, hr, hl⟩ := h.covers c hc hdone
    · exact .inl hs
    · exact .inr (.inl hnw)
    · obtain rfl : row₀ = row := Option.some.inj (hr.symm.trans hrow)
      exact .inr (.inr ⟨_, rfl, hl⟩)
  holder := by
    intro row' call' lease hr hren
    obtain rfl := Option.some.inj hr
    obtain ⟨rfl, rfl⟩ := Prod.mk.inj (Option.some.inj hren)
    refine ⟨?_, c, hc, ?_⟩
    · show row.written + offset + leaseMicroseconds ≤ _
      omega
    · rw [Renewal.lease]
      omega
  deleting := by
    intro row' hr hdel'
    obtain rfl := Option.some.inj hr
    rw [show row.deleting = true from hdel'] at hdel
    cases hdel
  terminal := h.terminal

/-- **A renewal commits**: its lease covers it and every success before it, since all of them were
made before the row's last version was written. -/
theorem commit (h : Sound offset m) {row : LeaseRow} {call : ℕ} {lease : ℤ}
    (hrow : m.row = some row) (hren : row.renewing = some (call, lease)) :
    Sound offset { m with
      row := some ⟨lease, m.now, none, row.deleting⟩
      calls := m.settle call (.done true) } where
  started := by
    intro c hc
    obtain ⟨c₀, h₀, hs, -⟩ := exists_of_mem_settle hc
    exact hs ▸ h.started c₀ h₀
  covers := by
    intro c hc hdone
    obtain ⟨hw, c₁, hc₁, hl₁⟩ := h.holder row call lease hrow hren
    obtain ⟨c₀, h₀, hs, hc₀⟩ := exists_of_mem_settle hc
    have hnow : c.started ≤ m.now := hs ▸ h.started c₀ h₀
    obtain rfl | ⟨-, hcall⟩ := hc₀
    · obtain hsh | hnw | ⟨row₀, hr, -, hwr⟩ := h.covers c h₀ hdone
      · exact .inl hsh
      · exact .inr (.inl hnw)
      · obtain rfl : row₀ = row := Option.some.inj (hr.symm.trans hrow)
        refine .inr (.inr ⟨_, rfl, ?_, hnow⟩)
        show c.lease + offset ≤ lease
        rw [Renewal.lease]
        omega
    · obtain rfl : c₀ = c₁ := Option.some.inj (hcall.symm.trans hc₁)
      refine .inr (.inr ⟨_, rfl, ?_, hnow⟩)
      show c.lease + offset ≤ lease
      rw [Renewal.lease, ← hs]
      exact hl₁
  holder := by
    intro row' call' lease' hr hren'
    obtain rfl := Option.some.inj hr
    cases hren'
  deleting := by
    intro row' hr hdel
    obtain rfl := Option.some.inj hr
    rw [(h.deleting row hrow hdel).2] at hren
    cases hren
  terminal := h.terminal

/-- An expired row is marked, or a mark is taken back. -/
theorem mark (h : Sound offset m) {row : LeaseRow} {deleting : Bool} (hrow : m.row = some row)
    (hmark : deleting = true → row.leaseUntil ≤ m.now + offset ∧ row.renewing = none) :
    Sound offset { m with row := some { row with deleting := deleting } } where
  started := h.started
  covers := by
    intro c hc hdone
    obtain hs | hnw | ⟨row₀, hr, hl⟩ := h.covers c hc hdone
    · exact .inl hs
    · exact .inr (.inl hnw)
    · obtain rfl : row₀ = row := Option.some.inj (hr.symm.trans hrow)
      exact .inr (.inr ⟨_, rfl, hl⟩)
  holder := by
    intro row' call lease hr hren
    obtain rfl := Option.some.inj hr
    exact h.holder row call lease hrow hren
  deleting := by
    intro row' hr hdel
    obtain rfl := Option.some.inj hr
    exact hmark hdel
  terminal := h.terminal

/-- The row goes: it has expired, or the process has shut down. -/
theorem remove (h : Sound offset m)
    (hgone : m.shutdown = .terminal ∨
      ∀ row, m.row = some row → row.leaseUntil ≤ m.now + offset) :
    Sound offset { m with row := none } where
  started := h.started
  covers := by
    intro c hc hdone
    obtain hs | hnw | ⟨row, hr, hl, -⟩ := h.covers c hc hdone
    · exact .inl hs
    · exact .inr (.inl hnw)
    · obtain hs | hexp := hgone
      · exact .inl hs
      · have := hexp row hr
        refine .inr (.inl ?_)
        show c.lease ≤ m.now
        omega
  holder := by intro row call lease hr; cases hr
  deleting := by intro row hr; cases hr
  terminal := h.terminal

end Sound

/-! ## Readiness -/

/-- **The invariant of the flags**: what `last_renewed` says is backed by a renewal. -/
structure Fresh (m : Membership) : Prop where
  ready : m.ready = true → m.Renewed m.lastRenewed
  renewed : m.runner = .renewed → m.Renewed m.lastRenewed
  succeeded : m.runner = .succeeded → m.Renewed m.lastSuccess

namespace Fresh

variable {m m' : Membership}

theorem registered (now leaseUntil : ℤ) : Fresh (Membership.registered now leaseUntil) where
  ready := by intro h; cases h
  renewed := by intro h; cases h
  succeeded := by intro h; cases h

/-- The steps of the database leave the flags alone and keep what has succeeded. -/
theorem of_database (h : Fresh m) (hready : m'.ready = m.ready)
    (hrenewed : m'.lastRenewed = m.lastRenewed) (hsuccess : m'.lastSuccess = m.lastSuccess)
    (hrunner : m'.runner = m.runner)
    (hcalls : ∀ c ∈ m.calls, c.progress = .done true → c ∈ m'.calls) : Fresh m' where
  ready := by
    intro hr
    rw [hrenewed]
    exact (h.ready (hready ▸ hr)).mono hcalls
  renewed := by
    intro hr
    rw [hrenewed]
    exact (h.renewed (hrunner ▸ hr)).mono hcalls
  succeeded := by
    intro hr
    rw [hsuccess]
    exact (h.succeeded (hrunner ▸ hr)).mono hcalls

/-- `run` goes on to where it has nothing to say, or `shutdown` clears the flag. -/
theorem of_quiet (h : Fresh m) (hready : m'.ready = true → m.ready = true)
    (hrenewed : m'.lastRenewed = m.lastRenewed) (hsuccess : m'.lastSuccess = m.lastSuccess)
    (hrunner : m'.runner = m.runner ∨ m'.runner ≠ .renewed ∧ m'.runner ≠ .succeeded)
    (hcalls : ∀ c ∈ m.calls, c ∈ m'.calls) : Fresh m' where
  ready := by
    intro hr
    rw [hrenewed]
    exact (h.ready (hready hr)).mono fun c hc _ => hcalls c hc
  renewed := by
    intro hr
    obtain hrun | ⟨hrun, -⟩ := hrunner
    · rw [hrenewed]
      exact (h.renewed (hrun ▸ hr)).mono fun c hc _ => hcalls c hc
    · exact absurd hr hrun
  succeeded := by
    intro hr
    obtain hrun | ⟨-, hrun⟩ := hrunner
    · rw [hsuccess]
      exact (h.succeeded (hrun ▸ hr)).mono fun c hc _ => hcalls c hc
    · exact absurd hr hrun

theorem afterFailure (h : Fresh m) : Fresh m.afterFailure := by
  rw [Membership.afterFailure]
  split
  · exact h.of_quiet id rfl rfl (.inr ⟨nofun, nofun⟩) fun _ hc => hc
  · exact h.of_quiet id rfl rfl (.inr ⟨nofun, nofun⟩) fun _ hc => hc

/-- **A success arrives** within the timeout of its call. -/
theorem succeed (h : Fresh m) {c : Renewal} (hc : c ∈ m.calls) (hdone : c.progress = .done true)
    (hin : m.now ≤ c.started + renewTimeout) :
    Fresh { m with lastSuccess := m.now, runner := .succeeded } where
  ready := h.ready
  renewed := by intro hr; cases hr
  succeeded := by
    intro _
    exact ⟨c, hc, hdone, hin⟩

end Fresh

/-- **Readiness is backed by the lease**: the renewal behind it was made at most the timeout before
`last_renewed`, which is less than the safety window ago; its lease lasts longer than both. -/
theorem leased_of_fresh {offset : ℤ} {m : Membership} (hs : Sound offset m) (hf : Fresh m)
    (hready : m.isReady) : m.Leased offset := by
  obtain ⟨hr, hterm, hwin⟩ := hready
  obtain ⟨c, hc, hdone, hin⟩ := hf.ready hr
  have hmargin : m.now < c.lease := by
    rw [Renewal.lease, leaseMicroseconds]
    rw [leaseSafetyWindow] at hwin
    rw [renewTimeout] at hin
    omega
  obtain hsh | hnow | ⟨row, hrow, hl, -⟩ := hs.covers c hc hdone
  · rw [hs.terminal hsh] at hterm
    cases hterm
  · omega
  · refine ⟨row, hrow, ?_⟩
    omega

/-! ## Every run -/

section Steps

variable {offset : ℤ} {m m' : Membership}

/-- Both invariants. -/
def Guarded (offset : ℤ) (m : Membership) : Prop := Sound offset m ∧ Fresh m

lemma guarded_afterFailure (h : Guarded offset m) : Guarded offset m.afterFailure := by
  refine ⟨?_, h.2.afterFailure⟩
  rw [Membership.afterFailure]
  split
  · exact h.1.of_process rfl rfl rfl id h.1.terminal
  · exact h.1.of_process rfl rfl rfl id h.1.terminal

lemma guarded_wake (h : Guarded offset m) (hm : m.wake = some m') : Guarded offset m' := by
  rw [Membership.wake] at hm
  split at hm
  · split at hm
    · obtain rfl := Option.some.inj hm
      exact ⟨h.1.of_process rfl rfl rfl id h.1.terminal,
        h.2.of_quiet id rfl rfl (.inr ⟨nofun, nofun⟩) fun _ hc => hc⟩
    · split at hm
      · obtain rfl := Option.some.inj hm
        exact ⟨h.1.send _, h.2.of_quiet id rfl rfl (.inr ⟨nofun, nofun⟩) fun c hc =>
          List.mem_append_left _ hc⟩
      · cases hm
  · cases hm

lemma guarded_guard {call : ℕ} {at_ : ℤ} (h : Guarded offset m)
    (hm : m.guard offset call at_ = some m') : Guarded offset m' := by
  rw [Membership.guard] at hm
  split at hm
  · rename_i started hcall
    split at hm
    · rename_i hrow
      obtain rfl := Option.some.inj hm
      refine ⟨?_, h.2.of_database rfl rfl rfl rfl fun c hc hdone =>
        mem_settle hc hdone (.inr ⟨_, hcall⟩)⟩
      exact h.1.settle (p := .done false) nofun (fun row hr => .inl hr) id
    · rename_i row hrow
      split at hm
      · cases hm
      · rename_i hfree
        push Not at hfree
        obtain ⟨hren, hdel, hat, hw, -⟩ := hfree
        split at hm
        · obtain rfl := Option.some.inj hm
          refine ⟨?_, h.2.of_database rfl rfl rfl rfl fun c hc _ => hc⟩
          exact h.1.lock hrow hcall (Bool.eq_false_of_not_eq_true hdel) hat hw
        · obtain rfl := Option.some.inj hm
          refine ⟨?_, h.2.of_database rfl rfl rfl rfl fun c hc hdone =>
            mem_settle hc hdone (.inr ⟨_, hcall⟩)⟩
          exact h.1.settle (p := .done false) nofun (fun row hr => .inl hr) id
  · cases hm

lemma guarded_commit {call : ℕ} (h : Guarded offset m) (hm : m.commit call = some m') :
    Guarded offset m' := by
  rw [Membership.commit] at hm
  split at hm
  · rename_i hrow
    split at hm
    · rename_i hholder
      subst hholder
      obtain rfl := Option.some.inj hm
      exact ⟨h.1.commit hrow rfl, h.2.of_database rfl rfl rfl rfl fun c hc hdone =>
        mem_settle hc hdone (.inl rfl)⟩
    · cases hm
  · cases hm

lemma guarded_fail {call : ℕ} (h : Guarded offset m) (hm : m.fail call = some m') :
    Guarded offset m' := by
  rw [Membership.fail] at hm
  split at hm
  · rename_i hcall
    obtain rfl := Option.some.inj hm
    refine ⟨h.1.settle (p := .failed) nofun (fun row hr => ?_) fun hr => ?_,
      h.2.of_database rfl rfl rfl rfl fun c hc hdone => mem_settle hc hdone (.inr ⟨_, hcall⟩)⟩
    · rw [show m.row = some row from hr, Option.map_some]
      split
      · exact .inr rfl
      · exact .inl rfl
    · rw [hr]
      rfl
  · cases hm

lemma guarded_response (h : Guarded offset m) (hm : m.response = some m') : Guarded offset m' := by
  rw [Membership.response] at hm
  split at hm
  · split at hm
    · rename_i started affected hcall
      split at hm
      · rename_i hin
        obtain rfl := Option.some.inj hm
        cases affected with
        | true =>
          exact ⟨h.1.of_process rfl rfl rfl id h.1.terminal,
            h.2.succeed (List.mem_of_getElem? hcall) rfl hin⟩
        | false =>
          exact ⟨h.1.of_process rfl rfl rfl id h.1.terminal,
            h.2.of_quiet id rfl rfl (.inr ⟨nofun, nofun⟩) fun _ hc => hc⟩
      · cases hm
    · cases hm
  · cases hm

lemma guarded_error (h : Guarded offset m) (hm : m.error = some m') : Guarded offset m' := by
  rw [Membership.error] at hm
  split at hm
  · obtain rfl := Option.some.inj hm
    exact guarded_afterFailure h
  · cases hm

lemma guarded_timeout (h : Guarded offset m) (hm : m.timeout = some m') : Guarded offset m' := by
  rw [Membership.timeout] at hm
  split at hm
  · split at hm
    · split at hm
      · obtain rfl := Option.some.inj hm
        exact guarded_afterFailure h
      · cases hm
    · cases hm
  · cases hm

lemma guarded_run (h : Guarded offset m) (hm : m.run = some m') : Guarded offset m' := by
  obtain ⟨hs, hf⟩ := h
  rw [Membership.run] at hm
  split at hm
  · rename_i hrun
    obtain rfl := Option.some.inj hm
    refine ⟨hs.of_process rfl rfl rfl id hs.terminal, ⟨?_, ?_, nofun⟩⟩
    · intro _
      exact hf.succeeded hrun
    · intro _
      exact hf.succeeded hrun
  · rename_i hrun
    obtain rfl := Option.some.inj hm
    refine ⟨hs.of_process rfl rfl rfl id hs.terminal, ⟨?_, nofun, nofun⟩⟩
    intro _
    exact hf.renewed hrun
  · obtain rfl := Option.some.inj hm
    exact ⟨hs.of_process rfl rfl rfl id hs.terminal,
      hf.of_quiet nofun rfl rfl (.inr ⟨nofun, nofun⟩) fun _ hc => hc⟩
  · obtain rfl := Option.some.inj hm
    exact ⟨hs.of_process rfl rfl rfl id fun _ => rfl,
      hf.of_quiet id rfl rfl (.inr ⟨nofun, nofun⟩) fun _ hc => hc⟩
  · cases hm

lemma guarded_shut (h : Guarded offset m) (hm : m.shut = some m') : Guarded offset m' := by
  obtain ⟨hs, hf⟩ := h
  rw [Membership.shut] at hm
  split at hm
  · rename_i hstage
    obtain rfl := Option.some.inj hm
    refine ⟨hs.of_process rfl rfl rfl (fun ht => ?_) nofun,
      hf.of_quiet id rfl rfl (.inl rfl) fun _ hc => hc⟩
    rw [hstage] at ht
    cases ht
  · rename_i hstage
    obtain rfl := Option.some.inj hm
    refine ⟨hs.of_process rfl rfl rfl (fun ht => ?_) nofun,
      hf.of_quiet nofun rfl rfl (.inl rfl) fun _ hc => hc⟩
    rw [hstage] at ht
    cases ht
  · obtain rfl := Option.some.inj hm
    exact ⟨hs.of_process rfl rfl rfl (fun _ => rfl) fun _ => rfl,
      hf.of_quiet id rfl rfl (.inl rfl) fun _ hc => hc⟩
  · rename_i hstage
    split at hm
    · split at hm
      · cases hm
      · obtain rfl := Option.some.inj hm
        exact ⟨hs.remove (.inl hstage), hf.of_database rfl rfl rfl rfl fun _ hc _ => hc⟩
    · obtain rfl := Option.some.inj hm
      exact ⟨hs, hf⟩

lemma guarded_deleteExpired (h : Guarded offset m) (hm : m.deleteExpired offset = some m') :
    Guarded offset m' := by
  rw [Membership.deleteExpired] at hm
  split at hm
  · rename_i row hrow
    split at hm
    · cases hm
    · rename_i hfree
      push Not at hfree
      obtain ⟨hren, -, hexp⟩ := hfree
      obtain rfl := Option.some.inj hm
      refine ⟨h.1.mark hrow fun _ => ⟨hexp, ?_⟩,
        h.2.of_database rfl rfl rfl rfl fun _ hc _ => hc⟩
      exact Option.not_isSome_iff_eq_none.mp hren
  · cases hm

lemma guarded_deleteEnd {committed : Bool} (h : Guarded offset m)
    (hm : m.deleteEnd committed = some m') : Guarded offset m' := by
  rw [Membership.deleteEnd] at hm
  split at hm
  · rename_i row hrow
    split at hm
    · rename_i hdel
      obtain rfl := Option.some.inj hm
      refine ⟨?_, h.2.of_database rfl rfl rfl rfl fun _ hc _ => hc⟩
      cases committed with
      | true =>
        refine h.1.remove (.inr fun row' hr => ?_)
        obtain rfl : row = row' := Option.some.inj (hrow.symm.trans hr)
        exact (h.1.deleting row hrow hdel).1
      | false => exact h.1.mark hrow nofun
    · cases hm
  · cases hm

/-- **One step** keeps both invariants. -/
theorem guarded_next {e : MembershipEvent} (h : Guarded offset m)
    (hm : next offset m e = some m') : Guarded offset m' := by
  cases e with
  | tick n =>
    obtain rfl := Option.some.inj hm
    exact ⟨h.1.tick n, h.2.of_database rfl rfl rfl rfl fun _ hc _ => hc⟩
  | wake => exact guarded_wake h hm
  | guard call at_ => exact guarded_guard h hm
  | commit call => exact guarded_commit h hm
  | fail call => exact guarded_fail h hm
  | response => exact guarded_response h hm
  | error => exact guarded_error h hm
  | timeout => exact guarded_timeout h hm
  | run => exact guarded_run h hm
  | shutdown => exact guarded_shut h hm
  | deleteExpired => exact guarded_deleteExpired h hm
  | deleteCommit => exact guarded_deleteEnd h hm
  | deleteAbort => exact guarded_deleteEnd h hm

end Steps

/-- **A process that is ready holds its lease**, whenever it looks: in every run from its
registration, with renewals that succeed, fail, time out or commit late. -/
theorem leased_of_ready {offset now leaseUntil : ℤ} {m : Membership}
    (h : (next offset).Leads System.Any (.registered now leaseUntil) m) (hready : m.isReady) :
    m.Leased offset := by
  have h₀ : Guarded offset (.registered now leaseUntil) :=
    ⟨Sound.registered now leaseUntil, Fresh.registered now leaseUntil⟩
  have hm : Guarded offset m := System.invariant h₀ (fun _ _ _ h _ hm => guarded_next h hm) h
  exact leased_of_fresh hm.1 hm.2 hready

/-- A renewal times out for the process and commits; the next one succeeds, and the process is
ready. -/
theorem leased_of_ready_retry : ∃ m : Membership,
    (next 5).Leads System.Any (.registered 0 60000000) m ∧ m.isReady ∧ m.calls.length = 2 ∧
      m.Leased 5 := by
  obtain ⟨m, hm, hp⟩ := System.exists_leads (next 5) System.Any (.registered 0 60000000)
    (fun m => m.isReady ∧ m.calls.length = 2)
    [.wake, .guard 0 0, .tick 3000000, .timeout, .tick 3000000, .wake, .commit 0, .tick 1000000,
      .guard 1 6500000, .commit 1, .response, .run, .run, .tick 29000000] (by decide +kernel)
  obtain ⟨hready, hlen⟩ := of_decide_eq_true hp
  exact ⟨m, hm, hready, hlen, leased_of_ready hm hready⟩

end Cluster.Lease
