import RbphBackend.Sync.Hub

set_option relaxedAutoImplicit false
set_option autoImplicit false

/-!
# Outages of the bus

A connection may have missed messages if it was there before the latest subscription of the bus. All
of them have been told to close, as long as no connection is inserted between the sweep of an outage
and the next subscription: `create_ws` has looked at the bus before it registers the connection, and
does not look again.

## Main definitions

* `Sync.Hub.UpToDate` — the connections that may have missed messages have been told to close.
* `Sync.NotDown` — no connection is inserted while the bus is down.

## Main results

* `Sync.upToDate_of_leads` — the connections are up to date in every run in which none is.
* `Sync.insert_in_outage_stays` — a run in which one is.
-/

namespace Sync

open Concurrency

/-- While the bus is ready, a connection in the map has been inserted since it was subscribed, or
has been told to close. -/
def Hub.UpToDate (s : Hub) : Prop :=
  s.bus = .ready → ∀ id x, s.sessions[id]? = some x → (s.connections id).isSome →
    x.epoch = s.epoch ∨ x.closing = true

/-- `connections.insert`. -/
def HubEvent.inserts : HubEvent → Bool
  | .insert _ => true
  | _ => false

/-- No connection is inserted while the bus is down. -/
def NotDown (s : Hub) (e : HubEvent) : Prop := e.inserts = true → s.bus ≠ .down

instance (s : Hub) (e : HubEvent) : Decidable (NotDown s e) :=
  inferInstanceAs (Decidable (e.inserts = true → s.bus ≠ .down))

/-! ## The invariant -/

/-- **The invariant**: between the sweep and the next subscription every connection in the map has
been told to close. -/
structure Swept (s : Hub) : Prop where
  within : ∀ id, (s.connections id).isSome → id < s.sessions.length
  ready : s.UpToDate
  down : s.bus = .down → ∀ id x, s.sessions[id]? = some x → (s.connections id).isSome →
    x.closing = true

namespace Swept

variable {s s' : Hub} {id : ℕ} {x : Connection} {user : ℤ}

theorem new : Swept Hub.new where
  within := by intro id h; cases h
  ready := by intro h; cases h
  down := by intro _ id x _ h; cases h

/-- A step that inserts nothing, and takes back no request to close. -/
theorem of_sessions (h : Swept s) (hbus : s'.bus = s.bus) (hepoch : s'.epoch = s.epoch)
    (hlen : s.sessions.length ≤ s'.sessions.length)
    (hconn : ∀ id, (s'.connections id).isSome → (s.connections id).isSome)
    (hs : ∀ (id : ℕ) (x' : Connection), s'.sessions[id]? = some x' → id < s.sessions.length →
      ∃ x : Connection, s.sessions[id]? = some x ∧ x'.epoch = x.epoch ∧
        (x.closing = true → x'.closing = true)) : Swept s' where
  within := by
    intro id hm
    exact (h.within id (hconn id hm)).trans_le hlen
  ready := by
    intro hr id x' hx' hm
    have hm₀ := hconn id hm
    obtain ⟨x, hx, hep, hcl⟩ := hs id x' hx' (h.within id hm₀)
    rw [hep, hepoch]
    obtain heq | hc := h.ready (hbus ▸ hr) id x hx hm₀
    · exact .inl heq
    · exact .inr (hcl hc)
  down := by
    intro hd id x' hx' hm
    have hm₀ := hconn id hm
    obtain ⟨x, hx, -, hcl⟩ := hs id x' hx' (h.within id hm₀)
    exact hcl (h.down (hbus ▸ hd) id x hx hm₀)

theorem check (h : Swept s) (user : ℤ) :
    Swept { s with sessions := s.sessions ++ [⟨user, .checked, false, 0⟩] } := by
  refine h.of_sessions rfl rfl ?_ (fun _ hm => hm) fun id x' hx' hlt => ?_
  · rw [List.length_append]
    omega
  · rw [List.getElem?_append_left hlt] at hx'
    exact ⟨x', hx', rfl, fun hc => hc⟩

theorem stage (h : Swept s) (id : ℕ) (stage : Stage) : Swept (s.setStage id stage) := by
  refine h.of_sessions rfl rfl ?_ (fun _ hm => hm) fun k x' hx' hlt => ?_
  · rw [Hub.setStage, List.length_modify]
  · by_cases hk : k = id
    · subst hk
      have hx := List.getElem?_eq_getElem hlt
      rw [setStage_self hx stage] at hx'
      obtain rfl := Option.some.inj hx'
      exact ⟨_, hx, rfl, fun hc => hc⟩
    · rw [setStage_of_ne hk stage] at hx'
      exact ⟨x', hx', rfl, fun hc => hc⟩

/-- The lists of the users are no concern of the bus. -/
theorem setUser (h : Swept s) (user : ℤ) (entry : Option (List ℕ)) : Swept (s.setUser user entry) :=
  ⟨h.within, h.ready, h.down⟩

theorem retain (h : Swept s) (id : ℕ) (user : ℤ) : Swept (s.retain id user) := by
  cases hu : s.users user with
  | none =>
    rw [retain_of_none hu]
    exact h.stage id .gone
  | some handles =>
    rw [retain_of_some hu]
    exact (h.setUser user _).stage id _

theorem remove (h : Swept s) (id : ℕ) : Swept (s.setConnection id none) := by
  refine h.of_sessions rfl rfl le_rfl (fun k hm => ?_) fun k x' hx' _ =>
    ⟨x', hx', rfl, fun hc => hc⟩
  by_cases hk : k = id
  · subst hk
    rw [show (s.setConnection k none).connections k = none from Function.update_self ..] at hm
    cases hm
  · rw [show (s.setConnection id none).connections k = s.connections k from
      Function.update_of_ne hk ..] at hm
    exact hm

theorem close (h : Swept s) (ids : ℕ → Bool) : Swept (s.close ids) := by
  refine h.of_sessions rfl rfl ?_ (fun _ hm => hm) fun id x' hx' _ => ?_
  · rw [Hub.close, List.length_mapIdx]
  · rw [Hub.close, List.getElem?_mapIdx] at hx'
    obtain ⟨x, hx, rfl⟩ := Option.map_eq_some_iff.mp hx'
    refine ⟨x, hx, ?_⟩
    split
    · exact ⟨rfl, fun _ => rfl⟩
    · exact ⟨rfl, fun hc => hc⟩

/-- **An insertion** while the bus is ready, or before the sweep. -/
theorem insert (h : Swept s) (hx : s.sessions[id]? = some x) (hbus : s.bus ≠ .down) :
    Swept (s.insert id x.user) where
  within := by
    intro k hm
    rw [Hub.insert, List.length_modify]
    by_cases hk : k = id
    · subst hk
      exact (List.getElem?_eq_some_iff.mp hx).1
    · rw [show (s.insert id x.user).connections k = s.connections k from
        Function.update_of_ne hk ..] at hm
      exact h.within k hm
  ready := by
    intro hr k y hy hm
    by_cases hk : k = id
    · subst hk
      rw [insert_self hx] at hy
      obtain rfl := Option.some.inj hy
      exact .inl rfl
    · rw [insert_of_ne hk] at hy
      rw [show (s.insert id x.user).connections k = s.connections k from
        Function.update_of_ne hk ..] at hm
      exact h.ready hr k y hy hm
  down := by
    intro hd
    exact absurd hd hbus

/-- The subscription is lost. -/
theorem lose (h : Swept s) : Swept { s with bus := .losing } :=
  ⟨h.within, nofun, nofun⟩

/-- **The sweep** tells every connection in the map to close. -/
theorem sweep (h : Swept s) :
    Swept { s.close fun id => (s.connections id).isSome with bus := .down } where
  within := (h.close _).within
  ready := nofun
  down := by
    intro _ id x' hx' hm
    rw [Hub.close, List.getElem?_mapIdx] at hx'
    obtain ⟨x, hx, rfl⟩ := Option.map_eq_some_iff.mp hx'
    rw [if_pos (show (s.connections id).isSome = true from hm)]

/-- A new subscription. -/
theorem recover (h : Swept s) (hd : s.bus = .down) :
    Swept { s with bus := .ready, epoch := s.epoch + 1 } where
  within := h.within
  ready := fun _ id x hx hm => .inr (h.down hd id x hx hm)
  down := nofun

/-- **One step**, as long as nothing is inserted while the bus is down. -/
theorem next {e : HubEvent} (h : Swept s) (hnot : NotDown s e) (hs : step s e = some s') :
    Swept s' := by
  cases e with
  | check user =>
    simp only [step] at hs
    split_ifs at hs
    obtain rfl := Option.some.inj hs
    exact h.check user
  | refuse id =>
    obtain ⟨x, -, -, rfl⟩ := of_at_ hs
    exact h.stage id _
  | push id =>
    obtain ⟨x, -, -, rfl⟩ := of_at_ hs
    exact (h.setUser x.user _).stage id _
  | insert id =>
    obtain ⟨x, hx, -, rfl⟩ := of_at_ hs
    exact h.insert hx (hnot rfl)
  | close id =>
    obtain rfl := Option.some.inj hs
    exact h.close _
  | finish id =>
    obtain ⟨x, -, -, rfl⟩ := of_at_ hs
    exact h.stage id _
  | remove id =>
    obtain ⟨x, -, -, rfl⟩ := of_at_ hs
    exact (h.remove id).stage id _
  | retain id =>
    obtain ⟨x, -, -, rfl⟩ := of_at_ hs
    exact h.retain id x.user
  | forget id =>
    obtain ⟨x, -, -, rfl⟩ := of_at_ hs
    exact (h.setUser x.user none).stage id _
  | cleanup user =>
    obtain rfl := Option.some.inj hs
    exact h.setUser user _
  | lose =>
    simp only [step] at hs
    split_ifs at hs
    obtain rfl := Option.some.inj hs
    exact h.lose
  | sweep =>
    simp only [step] at hs
    split_ifs at hs
    obtain rfl := Option.some.inj hs
    exact h.sweep
  | recover =>
    simp only [step] at hs
    split_ifs at hs with hd
    obtain rfl := Option.some.inj hs
    exact h.recover hd

end Swept

/-- **No connection outlives an outage** without having been told to close, in every run in which no
connection is inserted between the sweep of an outage and the next subscription. -/
theorem upToDate_of_leads {s : Hub} (h : step.Leads NotDown .new s) : s.UpToDate := by
  have hs : Swept s :=
    System.invariant Swept.new (fun _ _ _ hinv hnot hs => hinv.next hnot hs) h
  exact hs.ready

/-- A connection is inserted before the sweep of an outage, another one after it is over. -/
theorem upToDate_of_leads_outage : ∃ s, step.Leads NotDown .new s ∧ s.bus = .ready ∧
    s.sessions.map (·.closing) = [true, false] ∧ s.UpToDate := by
  obtain ⟨s, hs, hp⟩ := System.exists_leads step NotDown .new
    (fun s => s.bus = .ready ∧ s.sessions.map (·.closing) = [true, false])
    [.recover, .check 7, .check 8, .push 0, .lose, .insert 0, .sweep, .recover, .push 1, .insert 1]
    (by decide +kernel)
  obtain ⟨hbus, hclosing⟩ := of_decide_eq_true hp
  exact ⟨s, hs, hbus, hclosing, upToDate_of_leads hs⟩

/-- **A connection that is inserted in an outage stays**: the bus was ready when `create_ws` looked;
the sweep has come and gone when the connection is inserted, and nobody tells it to close. -/
theorem insert_in_outage_stays : ∃ s, step.Leads System.Any .new s ∧ s.bus = .ready ∧
    s.connections 0 = some 7 ∧
    s.sessions[0]?.any (fun x => !x.closing && decide (x.epoch < s.epoch)) = true ∧
    ¬ s.UpToDate := by
  obtain ⟨s, hs, hp⟩ := System.exists_leads step System.Any .new
    (fun s => s.bus = .ready ∧ s.connections 0 = some 7 ∧
      s.sessions[0]?.any (fun x => !x.closing && decide (x.epoch < s.epoch)) = true)
    [.recover, .check 7, .lose, .sweep, .push 0, .insert 0, .recover] (by decide +kernel)
  obtain ⟨hbus, hconn, hold⟩ := of_decide_eq_true hp
  refine ⟨s, hs, hbus, hconn, hold, fun hup => ?_⟩
  obtain ⟨x, hx, hc⟩ := (Option.any_eq_true _ _).mp hold
  obtain hep | hcl := hup hbus 0 x hx (by rw [hconn]; rfl)
  · simp [hep] at hc
  · simp [hcl] at hc

end Sync
