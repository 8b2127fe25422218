import Mathlib.Data.Int.Notation
import Mathlib.Data.List.Dedup
import Mathlib.Data.List.Sort
import Mathlib.Tactic.SplitIfs
import RbphBackend.Concurrency.System

set_option relaxedAutoImplicit false
set_option autoImplicit false

/-!
# The sync hub

An instance keeps the WebSocket connections of its clients in two maps: the handles of each user,
and all connections by their id. Connecting, removing and cleaning up touch the maps one after the
other. The messages come over a bus; when the subscription is lost, the hub tells every connection
to close, and it accepts no new ones until it has subscribed again.

## Main definitions

* `Sync.Hub` — the two maps, the connections, the state of the bus.
* `Sync.HubEvent`, `Sync.step` — what may happen to them, one access to a map at a time.
* `Sync.Hub.recipients` — whom `dispatch` sends a message that is addressed to users.

## Main results

* `Sync.setStage_self`, `Sync.list_setUser` — what the two kinds of writes leave.
-/

namespace Sync

open Concurrency

/-! ## Connections -/

/-- How far a connection has come in `create_ws` and `remove_connection`. It is `checked` while it
is being registered in Redis, `listed` once it is in the map of the users, `opened` once it is in
both maps; `finished` says that its session has ended, `emptied` that it was the last of its
user. -/
inductive Stage where
  | checked
  | listed
  | opened
  | finished
  | removed
  | emptied
  | gone
  deriving DecidableEq

/-- A connection with its user; `closing` says that it has been told to close, and `epoch` how many
times the bus had been subscribed when it was inserted. -/
structure Connection where
  user : ℤ
  stage : Stage
  closing : Bool
  epoch : ℕ
  deriving DecidableEq

/-- `is_closed`: the session has ended and dropped its receiver. -/
def Connection.isClosed (x : Connection) : Bool :=
  match x.stage with
  | .checked | .listed | .opened => false
  | .finished | .removed | .emptied | .gone => true

/-- A connection for which no call is in progress. -/
def Connection.Idle (x : Connection) : Prop :=
  x.stage = .opened ∨ x.stage = .finished ∨ x.stage = .gone

instance (x : Connection) : Decidable x.Idle := inferInstanceAs (Decidable (_ ∨ _))

/-- The subscription of the bus: `losing` is between the two steps of `mark_bus_unavailable`. -/
inductive Bus where
  | down
  | ready
  | losing
  deriving DecidableEq

/-- The hub of an instance; a connection's id is its place in `sessions`. -/
structure Hub where
  users : ℤ → Option (List ℕ)
  connections : ℕ → Option ℤ
  sessions : List Connection
  bus : Bus
  epoch : ℕ

/-- `SyncHub::new`. -/
def Hub.new : Hub := ⟨fun _ => none, fun _ => none, [], .down, 0⟩

/-! ## Accesses to the maps -/

namespace Hub

variable (s : Hub)

/-- The handles of a user. -/
def list (user : ℤ) : List ℕ := (s.users user).getD []

/-- The session of a connection has ended. -/
def closed (id : ℕ) : Bool := s.sessions[id]?.any Connection.isClosed

/-- The entry of a user. -/
def setUser (user : ℤ) (entry : Option (List ℕ)) : Hub :=
  { s with users := Function.update s.users user entry }

/-- A connection goes on. -/
def setStage (id : ℕ) (stage : Stage) : Hub :=
  { s with sessions := s.sessions.modify id fun x => { x with stage := stage } }

/-- An entry of the map of the connections. -/
def setConnection (id : ℕ) (entry : Option ℤ) : Hub :=
  { s with connections := Function.update s.connections id entry }

/-- `connections.insert`. -/
def insert (id : ℕ) (user : ℤ) : Hub :=
  { s.setConnection id (some user) with
    sessions := s.sessions.modify id fun x => { x with stage := .opened, epoch := s.epoch } }

/-- `users.get_mut`, then `retain`. -/
def retain (id : ℕ) (user : ℤ) : Hub :=
  match s.users user with
  | none => s.setStage id .gone
  | some handles =>
    let handles := handles.filter (· ≠ id)
    (s.setUser user (some handles)).setStage id (if handles.isEmpty then .emptied else .gone)

/-- `cleanup` at the entry of a user. -/
def cleanup (user : ℤ) : Hub :=
  s.setUser user <| (s.users user).bind fun handles =>
    let handles := handles.filter fun id => !s.closed id
    if handles.isEmpty then none else some handles

/-- Tell some connections to close. -/
def close (ids : ℕ → Bool) : Hub :=
  { s with
    sessions := s.sessions.mapIdx fun id x => if ids id then { x with closing := true } else x }

/-- The connections that `dispatch` sends a message to `SyncTarget::Users`. -/
def recipients (ids : List ℤ) : List ℕ :=
  ((ids.insertionSort (· ≤ ·)).dedup.filterMap s.users).flatten

end Hub

/-! ## The events -/

/-- What may happen. `check`, `refuse`, `push` and `insert` are `create_ws`; `finish` is the end of
a session; `remove`, `retain` and `forget` are `remove_connection`. A handle may be told to close at
any time. `lose` and `sweep` are `mark_bus_unavailable`, `recover` is a new subscription. -/
inductive HubEvent where
  | check (user : ℤ)
  | refuse (id : ℕ)
  | push (id : ℕ)
  | insert (id : ℕ)
  | close (id : ℕ)
  | finish (id : ℕ)
  | remove (id : ℕ)
  | retain (id : ℕ)
  | forget (id : ℕ)
  | cleanup (user : ℤ)
  | lose
  | sweep
  | recover
  deriving DecidableEq

/-- A step of the call of a connection that has come to a stage. -/
def Hub.at_ (s : Hub) (id : ℕ) (stage : Stage) (next : Connection → Hub) : Option Hub :=
  match s.sessions[id]? with
  | some x => if x.stage = stage then some (next x) else none
  | none => none

/-- What an event leaves. -/
def step : System Hub HubEvent := fun s e =>
  match e with
  | .check user =>
    if s.bus = .ready then some { s with sessions := s.sessions ++ [⟨user, .checked, false, 0⟩] }
    else none
  | .refuse id => s.at_ id .checked fun _ => s.setStage id .gone
  | .push id => s.at_ id .checked fun x =>
      (s.setUser x.user (some (s.list x.user ++ [id]))).setStage id .listed
  | .insert id => s.at_ id .listed fun x => s.insert id x.user
  | .close id => some (s.close (· = id))
  | .finish id => s.at_ id .opened fun _ => s.setStage id .finished
  | .remove id => s.at_ id .finished fun _ => (s.setConnection id none).setStage id .removed
  | .retain id => s.at_ id .removed fun x => s.retain id x.user
  | .forget id => s.at_ id .emptied fun x => (s.setUser x.user none).setStage id .gone
  | .cleanup user => some (s.cleanup user)
  | .lose => if s.bus = .ready then some { s with bus := .losing } else none
  | .sweep =>
    if s.bus = .losing then some { s.close fun id => (s.connections id).isSome with bus := .down }
    else none
  | .recover =>
    if s.bus = .down then some { s with bus := .ready, epoch := s.epoch + 1 } else none

/-! ## What the writes leave -/

section Writes

variable {s : Hub} {id k : ℕ} {x : Connection}

theorem setStage_self (hx : s.sessions[id]? = some x) (stage : Stage) :
    (s.setStage id stage).sessions[id]? = some { x with stage := stage } := by
  rw [Hub.setStage, List.getElem?_modify_eq, hx]
  rfl

theorem setStage_of_ne (hk : k ≠ id) (stage : Stage) :
    (s.setStage id stage).sessions[k]? = s.sessions[k]? :=
  List.getElem?_modify_ne _ _ hk.symm

theorem retain_of_none {user : ℤ} (h : s.users user = none) :
    s.retain id user = s.setStage id .gone := by
  rw [Hub.retain, h]

theorem retain_of_some {user : ℤ} {handles : List ℕ} (h : s.users user = some handles) :
    s.retain id user =
      (s.setUser user (some (handles.filter (· ≠ id)))).setStage id
        (if (handles.filter (· ≠ id)).isEmpty then .emptied else .gone) := by
  rw [Hub.retain, h]

/-- The handles of a user after an entry has been written. -/
theorem list_setUser (s : Hub) (user v : ℤ) (entry : Option (List ℕ)) :
    (s.setUser user entry).list v = if v = user then entry.getD [] else s.list v := by
  show (Function.update s.users user entry v).getD [] = _
  by_cases hv : v = user
  · rw [if_pos hv, hv, Function.update_self]
  · rw [if_neg hv, Function.update_of_ne hv]
    rfl

/-- A handle in a list after a cleanup has been there before, and its session has not ended if the
list is the one that was cleaned up. -/
theorem mem_list_cleanup (s : Hub) (user v : ℤ) (id : ℕ) :
    id ∈ (s.cleanup user).list v ↔ id ∈ s.list v ∧ (v = user → s.closed id = false) := by
  rw [Hub.cleanup, list_setUser]
  by_cases hv : v = user
  · subst hv
    rw [if_pos rfl, Hub.list]
    cases s.users v with
    | none => simp
    | some handles =>
      rw [Option.bind_some, Option.getD_some]
      dsimp only
      split
      · rename_i hempty
        rw [List.isEmpty_iff] at hempty
        have hnot : id ∉ handles.filter fun id => !s.closed id := by
          rw [hempty]
          exact List.not_mem_nil
        simpa using hnot
      · simp
  · rw [if_neg hv]
    exact ⟨fun h => ⟨h, fun hc => absurd hc hv⟩, And.left⟩

theorem insert_self (hx : s.sessions[id]? = some x) :
    (s.insert id x.user).sessions[id]? =
      some { x with stage := .opened, epoch := s.epoch } := by
  rw [Hub.insert, List.getElem?_modify_eq, hx]
  rfl

theorem insert_of_ne {user : ℤ} (hk : k ≠ id) :
    (s.insert id user).sessions[k]? = s.sessions[k]? :=
  List.getElem?_modify_ne _ _ hk.symm

/-- A call goes on from the stage it has come to. -/
theorem of_at_ {s' : Hub} {stage : Stage} {next : Connection → Hub}
    (h : s.at_ id stage next = some s') :
    ∃ x, s.sessions[id]? = some x ∧ x.stage = stage ∧ s' = next x := by
  rw [Hub.at_] at h
  split at h
  · rename_i x hx
    split at h
    · rename_i hst
      exact ⟨x, hx, hst, (Option.some.inj h).symm⟩
    · cases h
  · cases h

end Writes

end Sync
