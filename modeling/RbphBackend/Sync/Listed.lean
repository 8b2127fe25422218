import RbphBackend.Sync.Hub

set_option relaxedAutoImplicit false
set_option autoImplicit false

/-!
# The maps of the hub

A connection that is in the map of the connections and has not been closed is listed under its user,
and one that has been removed is not, as long as nobody connects between the check that a user has
no handle left and the removal of the user's entry.

## Main definitions

* `Sync.Hub.InStep` — what the two maps say of each other.
* `Sync.StillEmpty` — an entry that is removed has no handle.

## Main results

* `Sync.inStep_of_leads` — the maps are in step in every run in which removed entries are empty.
* `Sync.connect_in_gap_unlisted` — a run in which one is not.
-/

namespace Sync

open Concurrency

/-- No call is in progress. -/
def Hub.Quiet (s : Hub) : Prop := ∀ x ∈ s.sessions, x.Idle

instance (s : Hub) : Decidable s.Quiet := inferInstanceAs (Decidable (∀ x ∈ s.sessions, x.Idle))

/-- **The two maps are in step**: a connection that has not been closed is sent what is addressed to
its user, and a connection that has been removed is in no list. -/
def Hub.InStep (s : Hub) : Prop :=
  (∀ id user, s.connections id = some user → s.closed id = false →
    id ∈ s.list user ∧ ∀ ids, user ∈ ids → id ∈ s.recipients ids) ∧
  ∀ id user, id ∈ s.list user → ∃ x, s.sessions[id]? = some x ∧ x.stage ≠ .gone

/-- The entry that is removed has no handle. -/
def StillEmpty (s : Hub) : HubEvent → Prop
  | .forget id => ∀ x ∈ s.sessions[id]?, s.list x.user = []
  | _ => True

instance (s : Hub) (e : HubEvent) : Decidable (StillEmpty s e) := by
  cases e with
  | forget id => exact inferInstanceAs (Decidable (∀ x ∈ s.sessions[id]?, s.list x.user = []))
  | _ => exact instDecidableTrue

/-! ## Recipients -/

/-- A handle in the list of a user is sent what is addressed to the user. -/
lemma mem_recipients {s : Hub} {id : ℕ} {user : ℤ} {ids : List ℤ} (h : id ∈ s.list user)
    (hu : user ∈ ids) : id ∈ s.recipients ids := by
  rw [Hub.list] at h
  cases hs : s.users user with
  | none =>
    rw [hs] at h
    cases h
  | some handles =>
    rw [hs] at h
    rw [Hub.recipients]
    apply List.mem_flatten.mpr
    refine ⟨handles, List.mem_filterMap.mpr ⟨user, ?_, hs⟩, h⟩
    exact List.mem_dedup.mpr ((List.mem_insertionSort (· ≤ ·)).mpr hu)

/-! ## The invariant -/

/-- **The invariant**: a connection is listed under its user from `push` on until its session has
ended; it is listed nowhere else, and no longer once its handle has been removed. -/
structure Tracked (s : Hub) : Prop where
  listed : ∀ id x, s.sessions[id]? = some x → x.stage = .listed ∨ x.stage = .opened →
    id ∈ s.list x.user
  known : ∀ id user, id ∈ s.list user → ∃ x, s.sessions[id]? = some x ∧ x.user = user ∧
    (x.stage = .listed ∨ x.stage = .opened ∨ x.stage = .finished ∨ x.stage = .removed)
  mapped : ∀ id user, s.connections id = some user → ∃ x, s.sessions[id]? = some x ∧
    x.user = user ∧ (x.stage = .opened ∨ x.stage = .finished)

namespace Tracked

variable {s s' : Hub} {id : ℕ} {x : Connection} {user : ℤ}

theorem new : Tracked Hub.new where
  listed := by intro id x hx; cases hx
  known := by intro id user h; cases h
  mapped := by intro id user h; cases h

/-- The invariant speaks of the users and the stages of the connections only. -/
theorem of_sessions (h : Tracked s) (hu : s'.users = s.users) (hc : s'.connections = s.connections)
    (hs : ∀ (id : ℕ) (x : Connection), s.sessions[id]? = some x →
      ∃ x' : Connection, s'.sessions[id]? = some x' ∧ x'.user = x.user ∧ x'.stage = x.stage)
    (hs' : ∀ (id : ℕ) (x' : Connection), s'.sessions[id]? = some x' → x'.stage ≠ .checked →
      ∃ x : Connection, s.sessions[id]? = some x ∧ x'.user = x.user ∧ x'.stage = x.stage) :
    Tracked s' where
  listed := by
    intro id x' hx' hst
    obtain ⟨x, hx, huser, hstage⟩ := hs' id x' hx' (by rintro hch; rw [hch] at hst; simp at hst)
    rw [Hub.list, hu, huser]
    exact h.listed id x hx (hstage ▸ hst)
  known := by
    intro id user hmem
    rw [Hub.list, hu] at hmem
    obtain ⟨x, hx, huser, hst⟩ := h.known id user hmem
    obtain ⟨x', hx', huser', hstage⟩ := hs id x hx
    exact ⟨x', hx', huser'.trans huser, hstage ▸ hst⟩
  mapped := by
    intro id user hm
    rw [hc] at hm
    obtain ⟨x, hx, huser, hst⟩ := h.mapped id user hm
    obtain ⟨x', hx', huser', hstage⟩ := hs id x hx
    exact ⟨x', hx', huser'.trans huser, hstage ▸ hst⟩

/-- The bus is no concern of the maps. -/
theorem bus (h : Tracked s) (bus : Bus) (epoch : ℕ) :
    Tracked { s with bus := bus, epoch := epoch } :=
  ⟨h.listed, h.known, h.mapped⟩

theorem close (h : Tracked s) (ids : ℕ → Bool) : Tracked (s.close ids) := by
  refine h.of_sessions rfl rfl (fun id x hx => ?_) fun id x' hx' _ => ?_
  · rw [Hub.close, List.getElem?_mapIdx, hx]
    refine ⟨_, rfl, ?_⟩
    split
    · exact ⟨rfl, rfl⟩
    · exact ⟨rfl, rfl⟩
  · rw [Hub.close, List.getElem?_mapIdx] at hx'
    obtain ⟨x, hx, rfl⟩ := Option.map_eq_some_iff.mp hx'
    refine ⟨x, hx, ?_⟩
    split
    · exact ⟨rfl, rfl⟩
    · exact ⟨rfl, rfl⟩

theorem check (h : Tracked s) (user : ℤ) :
    Tracked { s with sessions := s.sessions ++ [⟨user, .checked, false, 0⟩] } := by
  refine h.of_sessions rfl rfl (fun id x hx => ?_) fun id x' hx' hst => ?_
  · have hlt := (List.getElem?_eq_some_iff.mp hx).1
    exact ⟨x, by rw [List.getElem?_append_left hlt, hx], rfl, rfl⟩
  · by_cases hlt : id < s.sessions.length
    · rw [List.getElem?_append_left hlt] at hx'
      exact ⟨x', hx', rfl, rfl⟩
    · rw [List.getElem?_append_right (by omega)] at hx'
      obtain rfl := List.mem_singleton.mp (List.mem_of_getElem? hx')
      exact absurd rfl hst

/-- **A connection goes on**: the lists and the map have to fit its new stage, and nothing changes
for the others. -/
theorem go (h : Tracked s) (stage : Stage) (hx : s.sessions[id]? = some x)
    (hself : ∃ x', s'.sessions[id]? = some x' ∧ x'.user = x.user ∧ x'.stage = stage)
    (hother : ∀ k, k ≠ id → s'.sessions[k]? = s.sessions[k]?)
    (hlist : ∀ user k, k ≠ id → (k ∈ s'.list user ↔ k ∈ s.list user))
    (hlisted : stage = .listed ∨ stage = .opened → id ∈ s'.list x.user)
    (hknown : ∀ user, id ∈ s'.list user → user = x.user ∧
      (stage = .listed ∨ stage = .opened ∨ stage = .finished ∨ stage = .removed))
    (hconn : ∀ k, k ≠ id → s'.connections k = s.connections k)
    (hmapped : ∀ user, s'.connections id = some user → user = x.user ∧
      (stage = .opened ∨ stage = .finished)) : Tracked s' := by
  obtain ⟨x', hx', huser, rfl⟩ := hself
  refine ⟨fun k y hy hst => ?_, fun k user hmem => ?_, fun k user hm => ?_⟩
  · by_cases hk : k = id
    · subst hk
      obtain rfl := Option.some.inj (hx'.symm.trans hy)
      rw [huser]
      exact hlisted hst
    · rw [hother k hk] at hy
      exact (hlist y.user k hk).mpr (h.listed k y hy hst)
  · by_cases hk : k = id
    · subst hk
      obtain ⟨rfl, hst⟩ := hknown user hmem
      exact ⟨x', hx', huser, hst⟩
    · rw [hother k hk]
      exact h.known k user ((hlist user k hk).mp hmem)
  · by_cases hk : k = id
    · subst hk
      obtain ⟨rfl, hst⟩ := hmapped user hm
      exact ⟨x', hx', huser, hst⟩
    · rw [hconn k hk] at hm
      rw [hother k hk]
      exact h.mapped k user hm

/-- A connection whose handle and map entry are as before goes on. -/
theorem stage (h : Tracked s) {stage : Stage} (hx : s.sessions[id]? = some x)
    (hlisted : stage = .listed ∨ stage = .opened → id ∈ s.list x.user)
    (hknown : id ∈ s.list x.user →
      stage = .listed ∨ stage = .opened ∨ stage = .finished ∨ stage = .removed)
    (hmapped : ∀ user, s.connections id = some user → stage = .opened ∨ stage = .finished) :
    Tracked (s.setStage id stage) := by
  refine h.go _ hx ⟨_, setStage_self hx stage, rfl, rfl⟩ (fun k hk => setStage_of_ne hk stage)
    (fun user k _ => Iff.rfl) hlisted (fun user hmem => ?_) (fun k _ => rfl) fun user hm => ?_
  · obtain ⟨x', hx', rfl, -⟩ := h.known id user hmem
    obtain rfl := Option.some.inj (hx.symm.trans hx')
    exact ⟨rfl, hknown hmem⟩
  · obtain ⟨x', hx', rfl, -⟩ := h.mapped id user hm
    obtain rfl := Option.some.inj (hx.symm.trans hx')
    exact ⟨rfl, hmapped _ hm⟩

/-- A connection that is not listed is in no list. -/
lemma not_mem (h : Tracked s) (hx : s.sessions[id]? = some x)
    (hst : x.stage = .checked ∨ x.stage = .emptied ∨ x.stage = .gone) (user : ℤ) :
    id ∉ s.list user := by
  intro hmem
  obtain ⟨x', hx', -, hst'⟩ := h.known id user hmem
  obtain rfl := Option.some.inj (hx.symm.trans hx')
  obtain hc | hc | hc := hst <;> rw [hc] at hst' <;> simp at hst'

/-- A connection that is not open, nor has just been, is not in the map. -/
lemma not_mapped (h : Tracked s) (hx : s.sessions[id]? = some x)
    (hst : x.stage ≠ .opened ∧ x.stage ≠ .finished) (user : ℤ) :
    s.connections id ≠ some user := by
  intro hm
  obtain ⟨x', hx', -, hst'⟩ := h.mapped id user hm
  obtain rfl := Option.some.inj (hx.symm.trans hx')
  obtain hc | hc := hst'
  · exact hst.1 hc
  · exact hst.2 hc

theorem refuse (h : Tracked s) (hx : s.sessions[id]? = some x) (hst : x.stage = .checked) :
    Tracked (s.setStage id .gone) := by
  refine h.stage hx nofun (fun hmem => ?_) fun user hm => ?_
  · exact absurd hmem (h.not_mem hx (.inl hst) x.user)
  · exact absurd hm (h.not_mapped hx (by rw [hst]; decide) user)

theorem push (h : Tracked s) (hx : s.sessions[id]? = some x) (hst : x.stage = .checked) :
    Tracked ((s.setUser x.user (some (s.list x.user ++ [id]))).setStage id .listed) := by
  have hlist : ∀ user k, (k ∈ (s.setUser x.user (some (s.list x.user ++ [id]))).list user ↔
      k ∈ s.list user ∨ user = x.user ∧ k = id) := by
    intro user k
    rw [list_setUser]
    by_cases hu : user = x.user
    · rw [if_pos hu, Option.getD_some, List.mem_append, List.mem_singleton, hu]
      simp
    · rw [if_neg hu]
      simp [hu]
  refine h.go _ hx ⟨_, setStage_self hx .listed, rfl, rfl⟩
    (fun k hk => setStage_of_ne (s := s.setUser x.user _) hk .listed) (fun user k hk => ?_)
    (fun _ => (hlist x.user id).mpr (.inr ⟨rfl, rfl⟩)) (fun user hmem => ?_) (fun k _ => rfl)
    fun user hm => ?_
  · refine (hlist user k).trans ⟨fun hmem => ?_, .inl⟩
    obtain hmem | ⟨-, rfl⟩ := hmem
    · exact hmem
    · exact absurd rfl hk
  · obtain hmem | ⟨rfl, -⟩ := (hlist user id).mp hmem
    · exact absurd hmem (h.not_mem hx (.inl hst) user)
    · exact ⟨rfl, .inl rfl⟩
  · exact absurd hm (h.not_mapped hx (by rw [hst]; decide) user)

theorem insert (h : Tracked s) (hx : s.sessions[id]? = some x) (hst : x.stage = .listed) :
    Tracked (s.insert id x.user) := by
  have hlisted := h.listed id x hx (.inl hst)
  refine h.go .opened hx ⟨_, insert_self hx, rfl, rfl⟩ (fun k hk => insert_of_ne hk)
    (fun user k _ => Iff.rfl) (fun _ => hlisted) (fun user hmem => ?_) (fun k hk => ?_)
    fun user hm => ?_
  · obtain ⟨x', hx', rfl, -⟩ := h.known id user hmem
    obtain rfl := Option.some.inj (hx.symm.trans hx')
    exact ⟨rfl, .inr (.inl rfl)⟩
  · exact Function.update_of_ne hk _ _
  · rw [show (s.insert id x.user).connections id = some x.user from Function.update_self ..] at hm
    exact ⟨(Option.some.inj hm).symm, .inl rfl⟩

theorem finish (h : Tracked s) (hx : s.sessions[id]? = some x) :
    Tracked (s.setStage id .finished) :=
  h.stage hx nofun (fun _ => .inr (.inr (.inl rfl))) fun _ _ => .inr rfl

theorem remove (h : Tracked s) (hx : s.sessions[id]? = some x) :
    Tracked ((s.setConnection id none).setStage id .removed) := by
  refine h.go _ hx ⟨_, setStage_self (s := s.setConnection id none) hx .removed, rfl, rfl⟩
    (fun k hk => setStage_of_ne (s := s.setConnection id none) hk .removed)
    (fun user k _ => Iff.rfl) nofun (fun user hmem => ?_) (fun k hk => ?_) fun user hm => ?_
  · obtain ⟨x', hx', rfl, -⟩ := h.known id user hmem
    obtain rfl := Option.some.inj (hx.symm.trans hx')
    exact ⟨rfl, .inr (.inr (.inr rfl))⟩
  · exact Function.update_of_ne hk _ _
  · rw [show ((s.setConnection id none).setStage id .removed).connections id = none from
      Function.update_self ..] at hm
    cases hm

/-- The lists without a handle. -/
theorem unlist (h : Tracked s) {stage : Stage} {entry : Option (List ℕ)}
    (hx : s.sessions[id]? = some x) (hst : x.stage = .removed ∨ x.stage = .emptied)
    (hstage : stage = .emptied ∨ stage = .gone)
    (hentry : ∀ k, k ∈ entry.getD [] ↔ k ∈ s.list x.user ∧ k ≠ id) :
    Tracked ((s.setUser x.user entry).setStage id stage) := by
  have hlist : ∀ user k, k ∈ (s.setUser x.user entry).list user ↔
      k ∈ s.list user ∧ k ≠ id := by
    intro user k
    rw [list_setUser]
    by_cases hu : user = x.user
    · rw [if_pos hu, hu]
      exact hentry k
    · rw [if_neg hu]
      refine ⟨fun hmem => ⟨hmem, ?_⟩, And.left⟩
      rintro rfl
      obtain ⟨x', hx', rfl, -⟩ := h.known k user hmem
      obtain rfl := Option.some.inj (hx.symm.trans hx')
      exact hu rfl
  refine h.go _ hx ⟨_, setStage_self (s := s.setUser x.user entry) hx stage, rfl, rfl⟩
    (fun k hk => setStage_of_ne (s := s.setUser x.user entry) hk stage) (fun user k hk => ?_)
    (fun hc => ?_) (fun user hmem => ?_) (fun k _ => rfl) fun user hm => ?_
  · exact (hlist user k).trans ⟨And.left, fun hmem => ⟨hmem, hk⟩⟩
  · obtain rfl | rfl := hstage <;> simp at hc
  · exact absurd rfl ((hlist user id).mp hmem).2
  · refine absurd hm (h.not_mapped hx ?_ user)
    obtain hc | hc := hst
    · rw [hc]
      decide
    · rw [hc]
      decide

theorem retain (h : Tracked s) (hx : s.sessions[id]? = some x) (hst : x.stage = .removed) :
    Tracked (s.retain id x.user) := by
  cases hu : s.users x.user with
  | none =>
    rw [retain_of_none hu]
    refine h.stage hx (fun hc => absurd hc (by decide)) (fun hmem => ?_) fun user hm => ?_
    · rw [Hub.list, hu] at hmem
      cases hmem
    · exact absurd hm (h.not_mapped hx (by rw [hst]; decide) user)
  | some handles =>
    rw [retain_of_some hu]
    refine h.unlist hx (.inl hst) ?_ fun k => ?_
    · split
      · exact .inl rfl
      · exact .inr rfl
    · rw [Option.getD_some, List.mem_filter, Hub.list, hu, Option.getD_some]
      simp

/-- **The removal of an entry** that is still empty takes no handle away. -/
theorem forget (h : Tracked s) (hx : s.sessions[id]? = some x) (hst : x.stage = .emptied)
    (hempty : s.list x.user = []) : Tracked ((s.setUser x.user none).setStage id .gone) := by
  refine h.unlist hx (.inr hst) (.inr rfl) fun k => ?_
  rw [hempty]
  simp

/-- The handles that `cleanup` takes away belong to sessions that have ended. -/
theorem cleanup (h : Tracked s) (user : ℤ) : Tracked (s.cleanup user) where
  listed := by
    intro id x hx hst
    have hmem := h.listed id x hx hst
    refine (mem_list_cleanup s user x.user id).mpr ⟨hmem, fun _ => ?_⟩
    rw [Hub.closed, show s.sessions[id]? = some x from hx, Option.any_some, Connection.isClosed]
    obtain hc | hc := hst
    · rw [hc]
    · rw [hc]
  known := by
    intro id v hmem
    exact h.known id v ((mem_list_cleanup s user v id).mp hmem).1
  mapped := h.mapped

/-- **One step**, as long as removed entries are empty. -/
theorem next {e : HubEvent} (h : Tracked s) (hempty : StillEmpty s e) (hs : step s e = some s') :
    Tracked s' := by
  cases e with
  | check user =>
    simp only [step] at hs
    split_ifs at hs
    obtain rfl := Option.some.inj hs
    exact h.check user
  | refuse id =>
    obtain ⟨x, hx, hst, rfl⟩ := of_at_ hs
    exact h.refuse hx hst
  | push id =>
    obtain ⟨x, hx, hst, rfl⟩ := of_at_ hs
    exact h.push hx hst
  | insert id =>
    obtain ⟨x, hx, hst, rfl⟩ := of_at_ hs
    exact h.insert hx hst
  | close id =>
    obtain rfl := Option.some.inj hs
    exact h.close _
  | finish id =>
    obtain ⟨x, hx, -, rfl⟩ := of_at_ hs
    exact h.finish hx
  | remove id =>
    obtain ⟨x, hx, -, rfl⟩ := of_at_ hs
    exact h.remove hx
  | retain id =>
    obtain ⟨x, hx, hst, rfl⟩ := of_at_ hs
    exact h.retain hx hst
  | forget id =>
    obtain ⟨x, hx, hst, rfl⟩ := of_at_ hs
    exact h.forget hx hst (hempty x hx)
  | cleanup user =>
    obtain rfl := Option.some.inj hs
    exact h.cleanup user
  | lose =>
    simp only [step] at hs
    split_ifs at hs
    obtain rfl := Option.some.inj hs
    exact h.bus _ _
  | sweep =>
    simp only [step] at hs
    split_ifs at hs
    obtain rfl := Option.some.inj hs
    exact (h.close _).bus _ _
  | recover =>
    simp only [step] at hs
    split_ifs at hs
    obtain rfl := Option.some.inj hs
    exact h.bus _ _

/-- What the invariant says of the maps. -/
theorem inStep (h : Tracked s) : s.InStep := by
  refine ⟨fun id user hm hcl => ?_, fun id user hmem => ?_⟩
  · obtain ⟨x, hx, rfl, hst⟩ := h.mapped id user hm
    have hopen : x.stage = .opened := by
      obtain hc | hc := hst
      · exact hc
      · rw [Hub.closed, hx, Option.any_some, Connection.isClosed, hc] at hcl
        cases hcl
    have hmem := h.listed id x hx (.inr hopen)
    exact ⟨hmem, fun ids hu => mem_recipients hmem hu⟩
  · obtain ⟨x, hx, -, hst⟩ := h.known id user hmem
    refine ⟨x, hx, fun hc => ?_⟩
    rw [hc] at hst
    simp at hst

end Tracked

/-- **The maps are in step** in every run in which an entry that was found empty is still empty when
it is removed: whoever connects, disconnects and cleans up, and however the calls overlap. -/
theorem inStep_of_leads {s : Hub} (h : step.Leads StillEmpty .new s) : s.InStep := by
  have hs : Tracked s :=
    System.invariant Tracked.new (fun _ _ _ hinv hempty hs => hinv.next hempty hs) h
  exact hs.inStep

/-- A user connects for the first time. -/
def connect (user : ℤ) (id : ℕ) : List HubEvent := [.check user, .push id, .insert id]

/-- A user leaves and comes back. -/
theorem inStep_of_leads_reconnect : ∃ s, step.Leads StillEmpty .new s ∧ s.Quiet ∧
    s.connections 1 = some 7 ∧ s.InStep := by
  obtain ⟨s, hs, hp⟩ := System.exists_leads step StillEmpty .new
    (fun s => s.Quiet ∧ s.connections 1 = some 7)
    ([.recover] ++ connect 7 0 ++ [.finish 0, .remove 0, .retain 0, .forget 0] ++ connect 7 1)
    (by decide +kernel)
  obtain ⟨hq, hm⟩ := of_decide_eq_true hp
  exact ⟨s, hs, hq, hm, inStep_of_leads hs⟩

/-- **Who connects in the gap is not listed**: the last connection of a user has been removed from
the list, the user connects again, and the entry is removed. -/
theorem connect_in_gap_unlisted : ∃ s, step.Leads System.Any .new s ∧ s.Quiet ∧
    s.connections 1 = some 7 ∧ s.closed 1 = false ∧ s.recipients [7] = [] ∧ ¬ s.InStep := by
  obtain ⟨s, hs, hp⟩ := System.exists_leads step System.Any .new
    (fun s => s.Quiet ∧ s.connections 1 = some 7 ∧ s.closed 1 = false ∧ s.recipients [7] = [])
    ([.recover] ++ connect 7 0 ++ [.finish 0, .remove 0, .retain 0] ++ connect 7 1 ++ [.forget 0])
    (by decide +kernel)
  obtain ⟨hq, hm, hcl, hrec⟩ := of_decide_eq_true hp
  refine ⟨s, hs, hq, hm, hcl, hrec, fun hin => ?_⟩
  have hmem := (hin.1 1 7 hm hcl).2 [7] (List.mem_singleton.mpr rfl)
  rw [hrec] at hmem
  cases hmem

end Sync
