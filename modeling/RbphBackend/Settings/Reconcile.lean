import Mathlib.Data.Int.Notation
import Mathlib.Logic.Function.Basic
import Mathlib.Tactic.SplitIfs
import RbphBackend.Concurrency.System

set_option relaxedAutoImplicit false
set_option autoImplicit false

/-!
# System settings

The settings are one row of the database, and every instance caches them. An update stamps the row
with the start of its transaction, waits for the row's lock, and the instance that has made it
installs the row it has written. Notifications and a timer make the instances reconcile: they read
the row, and install it if its stamp is later than that of the cached settings.

## Main definitions

* `Settings.Deployment` — the row, the caches, the updates and reconciliations in flight.
* `Settings.SettingsEvent`, `Settings.step` — what may happen to them.
* `Settings.Ordered` — an update that is granted the row finds an earlier stamp on it.
* `Settings.Deployment.Converged` — instances that have reconciled agree with the row.

## Main results

* `Settings.converged_of_leads` — they do, in every run in which the updates are ordered.
* `Settings.overtaken_update_diverges` — a run in which an update overtakes another.
-/

namespace Settings

open Concurrency

/-! ## The row and the caches -/

structure SystemSettings where
  registrationOpen : Bool
  requireEmailVerification : Bool
  captchaLoginRequired : Bool
  captchaRegistrationRequired : Bool
  maxSessions : ℤ
  maxWebsocketConnections : ℤ
  leaderboardRefreshIntervalSeconds : ℤ
  footerAdditionalInfo : String
  noGameMessage : String
  maintenanceEnabled : Bool
  maintenanceMessage : String
  updatedBy : Option ℤ
  updatedAt : ℤ
  deriving DecidableEq

structure SystemSettingsUpdate where
  registrationOpen : Bool
  requireEmailVerification : Bool
  captchaLoginRequired : Bool
  captchaRegistrationRequired : Bool
  maxSessions : ℤ
  maxWebsocketConnections : ℤ
  leaderboardRefreshIntervalSeconds : ℤ
  footerAdditionalInfo : String
  noGameMessage : String
  maintenanceEnabled : Bool
  maintenanceMessage : String
  updatedBy : ℤ
  deriving DecidableEq

/-- The row that `update` writes and returns; `CURRENT_TIMESTAMP` is the start of the
transaction. -/
def update (data : SystemSettingsUpdate) (currentTimestamp : ℤ) : SystemSettings where
  registrationOpen := data.registrationOpen
  requireEmailVerification := data.requireEmailVerification
  captchaLoginRequired := data.captchaLoginRequired
  captchaRegistrationRequired := data.captchaRegistrationRequired
  maxSessions := data.maxSessions
  maxWebsocketConnections := data.maxWebsocketConnections
  leaderboardRefreshIntervalSeconds := data.leaderboardRefreshIntervalSeconds
  footerAdditionalInfo := data.footerAdditionalInfo
  noGameMessage := data.noGameMessage
  maintenanceEnabled := data.maintenanceEnabled
  maintenanceMessage := data.maintenanceMessage
  updatedBy := some data.updatedBy
  updatedAt := currentTimestamp

/-- What `apply_latest_from_db` leaves in a cache, under its write lock. -/
def applyLatest (cached settings : SystemSettings) : SystemSettings :=
  if settings.updatedAt ≤ cached.updatedAt then cached else settings

/-- An update in flight: it waits for the row, or has written it. -/
structure Update where
  instanceId : ℕ
  data : SystemSettingsUpdate
  start : ℤ
  written : Bool
  deriving DecidableEq

/-- The row that the update writes. -/
def Update.settings (u : Update) : SystemSettings := update u.data u.start

/-- A run of `apply_latest_from_db` that has read the row. `last` says that no update has been in
flight since. -/
structure Reconciliation where
  instanceId : ℕ
  settings : SystemSettings
  last : Bool
  deriving DecidableEq

/-- A database and its instances; `now` is the database's clock. `reconciled` are the instances that
have finished a reconciliation since the last update was in flight. -/
structure Deployment where
  now : ℤ
  row : SystemSettings
  cached : ℕ → SystemSettings
  updates : List Update
  reconciliations : List Reconciliation
  reconciled : List ℕ

/-- Every instance has the settings it has started with. -/
def Deployment.started (now : ℤ) (row : SystemSettings) : Deployment where
  now := now
  row := row
  cached := fun _ => row
  updates := []
  reconciliations := []
  reconciled := []

/-! ## The events -/

/-- What may happen. `begin` starts the transaction of an update, `write` grants it the row and
commits it, `install` puts it into the cache of its instance; `drop` is an error of its request. -/
inductive SettingsEvent where
  | tick (n : ℕ)
  | begin (instanceId : ℕ) (data : SystemSettingsUpdate)
  | write (update : ℕ)
  | install (update : ℕ)
  | drop (update : ℕ)
  | read (instanceId : ℕ)
  | apply (reconciliation : ℕ)
  deriving DecidableEq

namespace Deployment

variable (s : Deployment)

/-- A new update: nothing has been reconciled since. -/
def begin (instanceId : ℕ) (data : SystemSettingsUpdate) : Deployment :=
  { s with
    updates := s.updates ++ [⟨instanceId, data, s.now, false⟩]
    reconciliations := s.reconciliations.map fun r => { r with last := false }
    reconciled := [] }

/-- The update at a position writes. -/
def write (i : ℕ) (u : Update) : Deployment :=
  { s with row := u.settings, updates := s.updates.set i { u with written := true } }

/-- Its instance installs what it has written. -/
def install (i : ℕ) (u : Update) : Deployment :=
  { s with
    cached := Function.update s.cached u.instanceId u.settings
    updates := s.updates.eraseIdx i }

/-- An instance reads the row. -/
def read (instanceId : ℕ) : Deployment :=
  { s with
    reconciliations := s.reconciliations ++ [⟨instanceId, s.row, s.updates.isEmpty⟩] }

/-- A reconciliation ends. -/
def apply (i : ℕ) (r : Reconciliation) : Deployment :=
  { s with
    cached := Function.update s.cached r.instanceId (applyLatest (s.cached r.instanceId) r.settings)
    reconciliations := s.reconciliations.eraseIdx i
    reconciled := if r.last then r.instanceId :: s.reconciled else s.reconciled }

end Deployment

/-- What an event leaves. -/
def step : System Deployment SettingsEvent := fun s e =>
  match e with
  | .tick n => some { s with now := s.now + n }
  | .begin instanceId data => some (s.begin instanceId data)
  | .write i =>
    match s.updates[i]? with
    | some u => if u.written then none else some (s.write i u)
    | none => none
  | .install i =>
    match s.updates[i]? with
    | some u => if u.written then some (s.install i u) else none
    | none => none
  | .drop i => some { s with updates := s.updates.eraseIdx i }
  | .read instanceId => some (s.read instanceId)
  | .apply i =>
    match s.reconciliations[i]? with
    | some r => some (s.apply i r)
    | none => none

/-- An update that is granted the row has started after the row's stamp. -/
def Ordered (s : Deployment) : SettingsEvent → Prop
  | .write i => ∀ u ∈ s.updates[i]?, s.row.updatedAt < u.start
  | _ => True

instance (s : Deployment) (e : SettingsEvent) : Decidable (Ordered s e) := by
  cases e with
  | write i => exact inferInstanceAs (Decidable (∀ u ∈ s.updates[i]?, s.row.updatedAt < u.start))
  | _ => exact instDecidableTrue

/-- Once no update is in flight, the instances that have reconciled agree with the row. -/
def Deployment.Converged (s : Deployment) : Prop :=
  s.updates = [] → ∀ i ∈ s.reconciled, s.cached i = s.row

/-! ## Versions of the row -/

/-- Settings that the row has or has had; the row's stamp tells them apart. -/
def Version (row settings : SystemSettings) : Prop :=
  settings.updatedAt < row.updatedAt ∨ settings = row

section Versions

variable {row row' cached settings : SystemSettings}

lemma version_self (row : SystemSettings) : Version row row := .inr rfl

/-- A later row is written. -/
lemma Version.write (h : Version row settings) (hlt : row.updatedAt < row'.updatedAt) :
    Version row' settings := by
  obtain hs | rfl := h
  · left
    omega
  · exact .inl hlt

lemma Version.applyLatest (hc : Version row cached) (hs : Version row settings) :
    Version row (applyLatest cached settings) := by
  rw [Settings.applyLatest]
  split
  · exact hc
  · exact hs

/-- **Reconciling with the row** gives the row, whatever version is cached. -/
lemma applyLatest_row (hc : Version row cached) : applyLatest cached row = row := by
  rw [applyLatest]
  split
  · rename_i hle
    obtain hlt | rfl := hc
    · omega
    · rfl
  · rfl

end Versions

/-! ## The invariant -/

/-- **The invariant**: everything in flight and in the caches is a version of the row; what has been
read since the last update is the row itself. -/
structure Inv (s : Deployment) : Prop where
  cached : ∀ i, Version s.row (s.cached i)
  written : ∀ u ∈ s.updates, u.written = true → Version s.row u.settings
  read : ∀ r ∈ s.reconciliations, Version s.row r.settings
  last : ∀ r ∈ s.reconciliations, r.last = true → s.updates = [] ∧ r.settings = s.row
  reconciled : ∀ i ∈ s.reconciled, s.updates = [] ∧ s.cached i = s.row

namespace Inv

variable {s s' : Deployment} {i : ℕ} {u : Update} {r : Reconciliation}

theorem started (now : ℤ) (row : SystemSettings) : Inv (.started now row) where
  cached := fun _ => version_self row
  written := by intro u hu; cases hu
  read := by intro r hr; cases hr
  last := by intro r hr; cases hr
  reconciled := by intro i hi; cases hi

theorem begin (h : Inv s) (instanceId : ℕ) (data : SystemSettingsUpdate) :
    Inv (s.begin instanceId data) where
  cached := h.cached
  written := by
    intro u hu hw
    obtain hu | hu := List.mem_append.mp hu
    · exact h.written u hu hw
    · rw [List.mem_singleton.mp hu] at hw
      cases hw
  read := by
    intro r hr
    obtain ⟨r₀, hr₀, rfl⟩ := List.mem_map.mp hr
    exact h.read r₀ hr₀
  last := by
    intro r hr hlast
    obtain ⟨r₀, -, rfl⟩ := List.mem_map.mp hr
    cases hlast
  reconciled := by intro i hi; cases hi

/-- **A later update writes**: what was the row becomes a version of it. No reconciliation has ended
since, because the update is in flight. -/
theorem write (h : Inv s) (hu : s.updates[i]? = some u) (hlt : s.row.updatedAt < u.start) :
    Inv (s.write i u) where
  cached := fun j => (h.cached j).write hlt
  written := by
    intro u' hu' hw
    obtain hmem | rfl := List.mem_or_eq_of_mem_set hu'
    · exact (h.written u' hmem hw).write hlt
    · exact version_self _
  read := fun r hr => (h.read r hr).write hlt
  last := by
    intro r hr hlast
    have hnil := (h.last r hr hlast).1
    rw [hnil] at hu
    cases hu
  reconciled := by
    intro j hj
    have hnil := (h.reconciled j hj).1
    rw [hnil] at hu
    cases hu

/-- The cache of an instance changes, to another version. -/
theorem cache (h : Inv s) {instanceId : ℕ} {settings : SystemSettings}
    (hv : Version s.row settings) (hr : instanceId ∈ s.reconciled → settings = s.row) :
    Inv { s with cached := Function.update s.cached instanceId settings } where
  cached := by
    intro j
    show Version s.row (Function.update s.cached instanceId settings j)
    by_cases hj : j = instanceId
    · subst hj
      rw [Function.update_self]
      exact hv
    · rw [Function.update_of_ne hj]
      exact h.cached j
  written := h.written
  read := h.read
  last := h.last
  reconciled := by
    intro j hj
    obtain ⟨hnil, hrow⟩ := h.reconciled j hj
    refine ⟨hnil, ?_⟩
    show Function.update s.cached instanceId settings j = s.row
    by_cases hji : j = instanceId
    · subst hji
      rw [Function.update_self]
      exact hr hj
    · rw [Function.update_of_ne hji]
      exact hrow

/-- An update is over. -/
theorem drop (h : Inv s) (i : ℕ) : Inv { s with updates := s.updates.eraseIdx i } where
  cached := h.cached
  written := fun u hu => h.written u (List.mem_of_mem_eraseIdx hu)
  read := h.read
  last := by
    intro r hr hlast
    obtain ⟨hnil, hrow⟩ := h.last r hr hlast
    refine ⟨?_, hrow⟩
    show s.updates.eraseIdx i = []
    rw [hnil]
    rfl
  reconciled := by
    intro j hj
    obtain ⟨hnil, hrow⟩ := h.reconciled j hj
    refine ⟨?_, hrow⟩
    show s.updates.eraseIdx i = []
    rw [hnil]
    rfl

theorem install (h : Inv s) (hu : s.updates[i]? = some u) (hw : u.written = true) :
    Inv (s.install i u) := by
  refine (h.cache (h.written u (List.mem_of_getElem? hu) hw) fun hr => ?_).drop i
  have hnil := (h.reconciled _ hr).1
  rw [hnil] at hu
  cases hu

theorem readRow (h : Inv s) (instanceId : ℕ) : Inv (s.read instanceId) where
  cached := h.cached
  written := h.written
  read := by
    intro r hr
    obtain hr | hr := List.mem_append.mp hr
    · exact h.read r hr
    · rw [List.mem_singleton.mp hr]
      exact version_self _
  last := by
    intro r hr hlast
    obtain hr | hr := List.mem_append.mp hr
    · exact h.last r hr hlast
    · rw [List.mem_singleton.mp hr] at hlast ⊢
      exact ⟨List.isEmpty_iff.mp hlast, rfl⟩
  reconciled := h.reconciled

/-- **A reconciliation ends**: the cache is a version of the row, and the row itself if that is what
the reconciliation has read. -/
theorem apply (h : Inv s) (hr : s.reconciliations[i]? = some r) : Inv (s.apply i r) := by
  have hmem := List.mem_of_getElem? hr
  have hv := (h.cached r.instanceId).applyLatest (h.read r hmem)
  have hrec : r.instanceId ∈ s.reconciled →
      applyLatest (s.cached r.instanceId) r.settings = s.row := by
    intro hi
    obtain ⟨-, hrow⟩ := h.reconciled _ hi
    rw [hrow, applyLatest]
    split
    · rfl
    · obtain hlt | heq := h.read r hmem
      · omega
      · exact heq
  have hc := h.cache hv hrec
  refine ⟨hc.cached, hc.written, fun r' hr' => hc.read r' (List.mem_of_mem_eraseIdx hr'),
    fun r' hr' => hc.last r' (List.mem_of_mem_eraseIdx hr'), ?_⟩
  intro j hj
  rw [Deployment.apply] at hj
  dsimp only at hj
  split at hj
  · rename_i hlast
    obtain rfl | hj := List.mem_cons.mp hj
    · obtain ⟨hnil, hrow⟩ := h.last r hmem hlast
      refine ⟨hnil, ?_⟩
      show Function.update s.cached r.instanceId _ r.instanceId = s.row
      rw [Function.update_self, hrow]
      exact applyLatest_row (h.cached _)
    · exact hc.reconciled j hj
  · exact hc.reconciled j hj

/-- **One step**, as long as the updates are ordered. -/
theorem next {e : SettingsEvent} (h : Inv s) (hord : Ordered s e) (hs : step s e = some s') :
    Inv s' := by
  cases e with
  | tick n =>
    obtain rfl := Option.some.inj hs
    exact ⟨h.cached, h.written, h.read, h.last, h.reconciled⟩
  | begin instanceId data =>
    obtain rfl := Option.some.inj hs
    exact h.begin instanceId data
  | write i =>
    simp only [step] at hs
    split at hs
    · rename_i u hu
      split_ifs at hs
      obtain rfl := Option.some.inj hs
      exact h.write hu (hord u hu)
    · cases hs
  | install i =>
    simp only [step] at hs
    split at hs
    · rename_i u hu
      split_ifs at hs with hw
      obtain rfl := Option.some.inj hs
      exact h.install hu hw
    · cases hs
  | drop i =>
    obtain rfl := Option.some.inj hs
    exact h.drop i
  | read instanceId =>
    obtain rfl := Option.some.inj hs
    exact h.readRow instanceId
  | apply i =>
    simp only [step] at hs
    split at hs
    · rename_i r hr
      obtain rfl := Option.some.inj hs
      exact h.apply hr
    · cases hs

end Inv

/-- **The caches converge**: in every run in which each update that is granted the row has started
after the row's stamp, whatever the order of installs, notifications and reconciliations. -/
theorem converged_of_leads {now : ℤ} {row : SystemSettings} {s : Deployment}
    (h : step.Leads Ordered (.started now row) s) : s.Converged := by
  have hs : Inv s :=
    System.invariant (Inv.started now row) (fun _ _ _ hinv hord hs => hinv.next hord hs) h
  intro _ i hi
  exact (hs.reconciled i hi).2

/-! ## Two runs -/

/-- An update that opens or closes the registration. -/
def opening (registrationOpen : Bool) : SystemSettingsUpdate where
  registrationOpen := registrationOpen
  requireEmailVerification := false
  captchaLoginRequired := false
  captchaRegistrationRequired := false
  maxSessions := 5
  maxWebsocketConnections := 5
  leaderboardRefreshIntervalSeconds := 60
  footerAdditionalInfo := ""
  noGameMessage := ""
  maintenanceEnabled := false
  maintenanceMessage := ""
  updatedBy := 1

/-- Two updates, one after the other, and a third instance that reconciles. -/
theorem converged_of_leads_third :
    ∃ s, step.Leads Ordered (.started 0 (update (opening false) 0)) s ∧
      s.reconciled = [3] ∧ (s.cached 3).updatedAt = 2 ∧ s.Converged := by
  obtain ⟨s, hs, hp⟩ := System.exists_leads step Ordered (.started 0 (update (opening false) 0))
    (fun s => s.reconciled = [3] ∧ (s.cached 3).updatedAt = 2)
    [.tick 1, .begin 1 (opening true), .write 0, .read 3, .tick 1, .begin 2 (opening false),
      .install 0, .write 0, .install 0, .read 3, .apply 0, .apply 0] (by decide +kernel)
  obtain ⟨hrec, hstamp⟩ := of_decide_eq_true hp
  exact ⟨s, hs, hrec, hstamp, converged_of_leads hs⟩

/-- **An update that is overtaken** writes last, with the earlier stamp: the instance of the other
update has reconciled and still has the settings it has installed. -/
theorem overtaken_update_diverges :
    ∃ s, step.Leads System.Any (.started 0 (update (opening false) 0)) s ∧ s.updates = [] ∧
      2 ∈ s.reconciled ∧ s.row.registrationOpen = true ∧ (s.cached 2).registrationOpen = false ∧
      ¬ s.Converged := by
  obtain ⟨s, hs, hp⟩ := System.exists_leads step System.Any
    (.started 0 (update (opening false) 0))
    (fun s => s.updates = [] ∧ 2 ∈ s.reconciled ∧ s.row.registrationOpen = true ∧
      (s.cached 2).registrationOpen = false)
    [.tick 1, .begin 1 (opening true), .tick 1, .begin 2 (opening false), .write 1, .write 0,
      .install 0, .install 0, .read 2, .apply 0] (by decide +kernel)
  obtain ⟨hnil, hrec, hrow, hcached⟩ := of_decide_eq_true hp
  refine ⟨s, hs, hnil, hrec, hrow, hcached, fun hc => ?_⟩
  rw [hc hnil 2 hrec, hrow] at hcached
  cases hcached

end Settings
