import Mathlib.Data.List.Nodup
import Mathlib.Data.List.Sort
import RbphBackend.Concurrency.System
import RbphBackend.Numeric.BigInt

set_option relaxedAutoImplicit false
set_option autoImplicit false

/-!
# The cluster registry

Every server process holds a lease on a row of `rb_cluster_instance`. A process registers under the
deployment gate, an advisory lock that one session holds at a time, and in one transaction: it
deletes the expired rows, reads the rows that are active, agrees with them or takes the cluster
over, and inserts its row. Renewals and shutdowns run outside the gate. A renewal evaluates its
guard under the row's lock and writes the new lease when it commits.

## Main definitions

* `Cluster.Registry` — the tables, the holder of the gate, the clock.
* `Cluster.ClusterEvent`, `Cluster.step` — what may happen to them.
* `Cluster.Prompt` — no lease runs out while a renewal of it is in progress.
* `Cluster.Agreement` — what the registry is for.

## Main results

* `Cluster.agreement_of_leads` — it holds in every run in which renewals are prompt.
-/

namespace Cluster

open Concurrency Numeric

abbrev Id := ℕ

/-! ## The tables -/

inductive DeploymentMode where
  | single
  | cluster
  deriving DecidableEq

/-- The row of `rb_cluster_config`. -/
structure ClusterConfig where
  deploymentMode : DeploymentMode
  fingerprint : String
  generation : BigInt
  deriving DecidableEq

/-- A row of `rb_cluster_instance`; instants are in microseconds. `renewing` is the lease that a
renewal in progress, which holds the row's lock, is going to write. -/
structure Instance where
  instanceId : Id
  config : ClusterConfig
  startedAt : ℤ
  leaseUntil : ℤ
  renewing : Option ℤ
  deriving DecidableEq

/-- `LEASE_SECONDS`. -/
def leaseMicroseconds : ℤ := 60000000

/-- The lease has not expired. -/
def Instance.Active (now : ℤ) (row : Instance) : Prop := now < row.leaseUntil

instance (now : ℤ) : DecidablePred (Instance.Active now) :=
  fun row => inferInstanceAs (Decidable (now < row.leaseUntil))

/-- How far a registration has come. -/
inductive Stage where
  | gate
  | cleaned
  | read (active : List Instance)
  | decided (config : ClusterConfig)
  | inserted (row : Instance)
  deriving DecidableEq

/-- The registration that holds the gate, with the rows its transaction has deleted. -/
structure Registration where
  instanceId : Id
  mode : DeploymentMode
  fingerprint : String
  deleted : List Id
  stage : Stage
  deriving DecidableEq

/-- What is committed, and the holder of the gate. `registered` and `revived` are only written: what
each registration was given, and whether a renewal has written a lease that had expired. -/
structure Registry where
  now : ℤ
  config : Option ClusterConfig
  rows : List Instance
  gate : Option Registration
  registered : List ClusterConfig
  revived : Bool
  deriving DecidableEq

/-- An empty database. -/
def Registry.empty (now : ℤ) : Registry := ⟨now, none, [], none, [], false⟩

/-! ## What a registration decides -/

/-- The order of the rows that are read: `ORDER BY started_at, instance_id`. -/
def Instance.before (row row' : Instance) : Bool :=
  row.startedAt < row'.startedAt ||
    (row.startedAt = row'.startedAt && row.instanceId ≤ row'.instanceId)

/-- The rows a registration reads. -/
def activeRows (now : ℤ) (rows : List Instance) : List Instance :=
  (rows.filter fun row => decide (row.Active now)).insertionSort fun row row' => row.before row'

/-- The row of `rb_cluster_config` after a takeover. -/
def takeOver (config : Option ClusterConfig) (mode : DeploymentMode) (fingerprint : String) :
    Except String ClusterConfig :=
  match config with
  | none => .ok ⟨mode, fingerprint, 1⟩
  | some c =>
    if c.deploymentMode = mode ∧ c.fingerprint = fingerprint then .ok c
    else match c.generation.checkedAdd 1 with
      | none => .error "bigint out of range"
      | some generation => .ok ⟨mode, fingerprint, generation⟩

/-- What `register_instance` decides once it has read the active rows: the configuration its row is
given. -/
def decideConfig (config : Option ClusterConfig) (mode : DeploymentMode) (fingerprint : String)
    (active : List Instance) : Except String ClusterConfig :=
  match active with
  | [] => takeOver config mode fingerprint
  | first :: _ =>
    if mode = .single then .error "single deployment mode already has an active instance"
    else if active.any fun row =>
        row.config.deploymentMode ≠ mode || row.config.fingerprint ≠ fingerprint then
      .error "active instances use a different deployment mode or cluster configuration"
    else if config = some ⟨mode, fingerprint, first.config.generation⟩ then
      .ok ⟨mode, fingerprint, first.config.generation⟩
    else .error "cluster configuration baseline is inconsistent"

/-! ## The events -/

/-- What may happen. A registration may fail at any stage, which rolls its transaction back and
releases the gate. -/
inductive ClusterEvent where
  | tick (n : ℕ)
  | acquireGate (instanceId : Id) (mode : DeploymentMode) (fingerprint : String)
  | ensureNoActiveInstances
  | deleteExpired
  | readActive
  | decide
  | insert
  | commit
  | abort
  | renew (instanceId : Id)
  | renewCommit (instanceId : Id)
  | renewAbort (instanceId : Id)
  | shutdown (instanceId : Id)
  deriving DecidableEq

namespace Registry

variable (s : Registry)

/-- The row's lock is held by a renewal or by the registration that has deleted the row. -/
def Locked (row : Instance) : Prop :=
  row.renewing.isSome ∨ s.gate.any fun r => row.instanceId ∈ r.deleted

instance : DecidablePred s.Locked := fun _ => inferInstanceAs (Decidable (_ ∨ _))

/-- The row of an instance. -/
def row? (instanceId : Id) : Option Instance := s.rows.find? (·.instanceId = instanceId)

/-- Write a row. -/
def setRow (instanceId : Id) (f : Instance → Instance) : Registry :=
  { s with rows := s.rows.map fun row => if row.instanceId = instanceId then f row else row }

/-- The next stage of the registration. -/
def toStage (r : Registration) (stage : Stage) : Registry :=
  { s with gate := some { r with stage := stage } }

/-- The expired rows, unless one of them is locked: a delete waits for it. -/
def expired? : Option (List Id) :=
  let expired := s.rows.filter fun row => decide ¬ row.Active s.now
  if expired.any fun row => decide (s.Locked row) then none
  else some (expired.map (·.instanceId))

end Registry

/-- The row `register_instance` inserts. -/
def newRow (r : Registration) (config : ClusterConfig) (now : ℤ) : Instance :=
  ⟨r.instanceId, config, now, now + leaseMicroseconds, none⟩

/-- What an event leaves. -/
def step : System Registry ClusterEvent := fun s e =>
  match e with
  | .tick n => some { s with now := s.now + n }
  | .acquireGate instanceId mode fingerprint =>
    match s.gate with
    | some _ => none
    | none => some { s with gate := some ⟨instanceId, mode, fingerprint, [], .gate⟩ }
  | .ensureNoActiveInstances =>
    match s.gate with
    | some ⟨_, _, _, _, .gate⟩ => s.expired?.map fun expired =>
        { s with rows := s.rows.filter fun row => decide (row.instanceId ∉ expired) }
    | _ => none
  | .deleteExpired =>
    match s.gate with
    | some ⟨instanceId, mode, fingerprint, _, .gate⟩ => s.expired?.map fun expired =>
        { s with gate := some ⟨instanceId, mode, fingerprint, expired, .cleaned⟩ }
    | _ => none
  | .readActive =>
    match s.gate with
    | some r =>
      match r.stage with
      | .cleaned => some (s.toStage r (.read (activeRows s.now s.rows)))
      | _ => none
    | none => none
  | .decide =>
    match s.gate with
    | some r =>
      match r.stage with
      | .read active =>
        match decideConfig s.config r.mode r.fingerprint active with
        | .ok config => some (s.toStage r (.decided config))
        | .error _ => some { s with gate := none }
      | _ => none
    | none => none
  | .insert =>
    match s.gate with
    | some r =>
      match r.stage with
      | .decided config =>
        if s.rows.any fun row => row.instanceId = r.instanceId && row.instanceId ∉ r.deleted then
          some { s with gate := none }
        else some (s.toStage r (.inserted (newRow r config s.now)))
      | _ => none
    | none => none
  | .commit =>
    match s.gate with
    | some r =>
      match r.stage with
      | .inserted row => some { s with
          config := some row.config
          rows := (s.rows.filter fun row => decide (row.instanceId ∉ r.deleted)) ++ [row]
          gate := none
          registered := s.registered ++ [row.config] }
      | _ => none
    | none => none
  | .abort => if s.gate.isSome then some { s with gate := none } else none
  | .renew instanceId =>
    match s.row? instanceId with
    | none => some s
    | some row =>
      if s.Locked row then none
      else if row.Active s.now then
        some (s.setRow instanceId fun row =>
          { row with renewing := some (s.now + leaseMicroseconds) })
      else some s
  | .renewCommit instanceId =>
    match s.row? instanceId with
    | some ⟨_, _, _, leaseUntil, some renewed⟩ =>
      some { s.setRow instanceId (fun row =>
          { row with leaseUntil := renewed, renewing := none }) with
        revived := s.revived || decide (leaseUntil ≤ s.now) }
    | _ => none
  | .renewAbort instanceId =>
    match s.row? instanceId with
    | some ⟨_, _, _, _, some _⟩ =>
      some (s.setRow instanceId fun row => { row with renewing := none })
    | _ => none
  | .shutdown instanceId =>
    match s.row? instanceId with
    | none => some s
    | some row =>
      if s.Locked row then none
      else some { s with rows := s.rows.filter fun row => decide (row.instanceId ≠ instanceId) }

/-! ## What holds -/

/-- No lease runs out while a renewal of it is in progress. -/
def Prompt (s : Registry) : ClusterEvent → Prop
  | .tick n => ∀ row ∈ s.rows, row.renewing.isSome → row.Active (s.now + n)
  | _ => True

instance (s : Registry) (e : ClusterEvent) : Decidable (Prompt s e) := by
  unfold Prompt
  split <;> infer_instance

/-- What the registry is for: the instances whose lease has not expired agree on mode, fingerprint
and generation, and one in single mode is alone; registrations that share a generation share mode
and fingerprint; no renewal has written a lease that had expired. -/
structure Agreement (s : Registry) : Prop where
  keys : (s.rows.map (·.instanceId)).Nodup
  agree : ∀ row ∈ s.rows, ∀ row' ∈ s.rows, row.Active s.now → row'.Active s.now →
    row.config = row'.config
  alone : ∀ row ∈ s.rows, row.Active s.now → row.config.deploymentMode = .single →
    ∀ row' ∈ s.rows, row'.Active s.now → row' = row
  generations : ∀ c ∈ s.registered, ∀ c' ∈ s.registered, c.generation = c'.generation → c = c'
  kept : s.revived = false

/-- Every lease has expired. -/
def Registry.Idle (s : Registry) : Prop := ∀ row ∈ s.rows, ¬ row.Active s.now

/-- The configuration is the committed one, or its generation is a later one. -/
def Follows (config : Option ClusterConfig) (c : ClusterConfig) : Prop :=
  ∀ c₀, config = some c₀ → c₀ = c ∨ c₀.generation.val < c.generation.val

/-- A registration may be given the configuration: it joins the committed one, not in single mode,
or nobody is there. -/
def MayGive (s : Registry) (c : ClusterConfig) : Prop :=
  (s.config = some c ∧ c.deploymentMode ≠ .single) ∨ (s.Idle ∧ Follows s.config c)

/-- What holds of the registration under way. -/
def StageInv (s : Registry) (r : Registration) : Prop :=
  match r.stage with
  | .gate | .cleaned => True
  | .read active => active = [] → s.Idle
  | .decided config => MayGive s config
  | .inserted row => MayGive s row.config ∧ row.renewing = none ∧
      ∀ row' ∈ s.rows, row'.instanceId = row.instanceId → row'.instanceId ∈ r.deleted

/-- The invariant of the registry. -/
structure Inv (s : Registry) : Prop where
  active : ∀ row ∈ s.rows, row.Active s.now → s.config = some row.config
  alone : ∀ c, s.config = some c → c.deploymentMode = .single → ∀ row ∈ s.rows, ∀ row' ∈ s.rows,
    row.Active s.now → row'.Active s.now → row.instanceId = row'.instanceId
  nodup : (s.rows.map (·.instanceId)).Nodup
  issued : ∀ a ∈ s.registered, ∃ c, s.config = some c ∧
    (a = c ∨ a.generation.val < c.generation.val)
  distinct : ∀ a ∈ s.registered, ∀ b ∈ s.registered, a.generation = b.generation → a = b
  renewing : ∀ row ∈ s.rows, row.renewing.isSome → row.Active s.now
  stage : ∀ r, s.gate = some r → StageInv s r
  kept : s.revived = false

section Invariant

variable {s s' : Registry}

/-- A row of an instance is determined by it. -/
lemma eq_of_instanceId {rows : List Instance} (h : (rows.map (·.instanceId)).Nodup)
    {row row' : Instance} (hrow : row ∈ rows) (hrow' : row' ∈ rows)
    (hid : row.instanceId = row'.instanceId) : row = row' :=
  List.inj_on_of_nodup_map h hrow hrow' hid

/-- The invariant gives the agreement. -/
lemma Inv.agreement (h : Inv s) : Agreement s := by
  refine ⟨h.nodup, ?_, ?_, h.distinct, h.kept⟩
  · intro row hrow row' hrow' ha ha'
    exact Option.some.inj ((h.active row hrow ha).symm.trans (h.active row' hrow' ha'))
  · intro row hrow ha hmode row' hrow' ha'
    have hid := h.alone row.config (h.active row hrow ha) hmode row' hrow' row hrow ha' ha
    exact eq_of_instanceId h.nodup hrow' hrow hid

lemma inv_empty (now : ℤ) : Inv (.empty now) := by
  refine ⟨?_, ?_, List.nodup_nil, ?_, ?_, ?_, ?_, rfl⟩ <;> intro a h <;> cases h

/-- Every row of `s'` is a row of `s` that was active if it is active, and is active if a renewal of
it is in progress. -/
structure Ages (s s' : Registry) : Prop where
  row : ∀ row' ∈ s'.rows, ∃ row ∈ s.rows, row.instanceId = row'.instanceId ∧
    row.config = row'.config ∧ (row'.Active s'.now → row.Active s.now) ∧
      (row'.renewing.isSome → row'.Active s'.now)
  nodup : (s'.rows.map (·.instanceId)).Nodup

lemma Ages.idle (h : Ages s s') (hidle : s.Idle) : s'.Idle := by
  intro row' hrow' ha
  obtain ⟨row, hrow, -, -, hback, -⟩ := h.row row' hrow'
  exact hidle row hrow (hback ha)

lemma Ages.mayGive (h : Ages s s') (hconfig : s'.config = s.config) {c : ClusterConfig}
    (hgive : MayGive s c) : MayGive s' c := by
  unfold MayGive
  rw [hconfig]
  exact hgive.imp_right fun ⟨hidle, hfollows⟩ => ⟨h.idle hidle, hfollows⟩

/-- **What rows that age keep**: time passes, renewals end, rows are deleted. -/
lemma Inv.of_ages (h : Inv s) (hages : Ages s s') (hconfig : s'.config = s.config)
    (hgate : s'.gate = s.gate) (hregistered : s'.registered = s.registered)
    (hrevived : s'.revived = s.revived) : Inv s' := by
  refine ⟨?_, ?_, hages.nodup, ?_, ?_, ?_, ?_, hrevived.trans h.kept⟩
  · intro row' hrow' ha
    obtain ⟨row, hrow, -, hsame, hback, -⟩ := hages.row row' hrow'
    rw [hconfig, h.active row hrow (hback ha), hsame]
  · intro c hc hmode row₁ hrow₁ row₂ hrow₂ ha₁ ha₂
    obtain ⟨row₁', hrow₁', hid₁, -, hback₁, -⟩ := hages.row row₁ hrow₁
    obtain ⟨row₂', hrow₂', hid₂, -, hback₂, -⟩ := hages.row row₂ hrow₂
    rw [← hid₁, ← hid₂]
    exact h.alone c (hconfig ▸ hc) hmode row₁' hrow₁' row₂' hrow₂' (hback₁ ha₁) (hback₂ ha₂)
  · rw [hregistered, hconfig]
    exact h.issued
  · rw [hregistered]
    exact h.distinct
  · intro row' hrow' hrenewing
    obtain ⟨-, -, -, -, -, hactive⟩ := hages.row row' hrow'
    exact hactive hrenewing
  · intro r hr
    have hstage := h.stage r (hgate ▸ hr)
    unfold StageInv at hstage ⊢
    split at hstage
    · trivial
    · trivial
    · exact fun hnil => hages.idle (hstage hnil)
    · exact hages.mayGive hconfig hstage
    · obtain ⟨hgive, hnone, hfresh⟩ := hstage
      refine ⟨hages.mayGive hconfig hgive, hnone, ?_⟩
      intro row' hrow' hid
      obtain ⟨row, hrow, hid', -⟩ := hages.row row' hrow'
      rw [← hid']
      exact hfresh row hrow (hid'.trans hid)

/-- What a new stage of the registration keeps. -/
lemma Inv.of_gate (h : Inv s) {gate : Option Registration}
    (hstage : ∀ r, gate = some r → StageInv s r) : Inv { s with gate := gate } :=
  ⟨h.active, h.alone, h.nodup, h.issued, h.distinct, h.renewing, hstage, h.kept⟩

/-! ## The events, one by one -/

lemma row?_eq_some {instanceId : Id} {row : Instance} (h : s.row? instanceId = some row) :
    row ∈ s.rows ∧ row.instanceId = instanceId :=
  ⟨List.mem_of_find?_eq_some h, by simpa using List.find?_some h⟩

/-- Time passes, and no renewal misses its lease. -/
lemma ages_tick {n : ℕ} (h : Inv s) (hok : Prompt s (.tick n)) :
    Ages s { s with now := s.now + n } := by
  refine ⟨fun row hrow => ⟨row, hrow, rfl, rfl, ?_, hok row hrow⟩, h.nodup⟩
  intro ha
  have ha : s.now + n < row.leaseUntil := ha
  show s.now < row.leaseUntil
  omega

/-- Rows are deleted. -/
lemma ages_filter (h : Inv s) (p : Instance → Bool) :
    Ages s { s with rows := s.rows.filter p } := by
  refine ⟨fun row hrow => ?_, ?_⟩
  · have hmem := (List.mem_filter.mp hrow).1
    exact ⟨row, hmem, rfl, rfl, id, h.renewing row hmem⟩
  · exact h.nodup.sublist ((List.filter_sublist).map _)

/-- A row is written that keeps its instance and its configuration. -/
lemma ages_setRow (h : Inv s) {instanceId : Id} {f : Instance → Instance}
    (hf : ∀ row ∈ s.rows, row.instanceId = instanceId →
      (f row).instanceId = row.instanceId ∧ (f row).config = row.config ∧
        ((f row).Active s.now → row.Active s.now) ∧
        ((f row).renewing.isSome → (f row).Active s.now)) :
    Ages s (s.setRow instanceId f) := by
  have hrow : ∀ row ∈ s.rows, ∀ row', row' = (if row.instanceId = instanceId then f row else row) →
      row.instanceId = row'.instanceId ∧ row.config = row'.config ∧
        (row'.Active s.now → row.Active s.now) ∧ (row'.renewing.isSome → row'.Active s.now) := by
    rintro row hmem row' rfl
    split_ifs with hid
    · obtain ⟨hid', hconfig, hback, hactive⟩ := hf row hmem hid
      exact ⟨hid'.symm, hconfig.symm, hback, hactive⟩
    · exact ⟨rfl, rfl, id, h.renewing row hmem⟩
  refine ⟨fun row' hrow' => ?_, ?_⟩
  · obtain ⟨row, hmem, heq⟩ := List.mem_map.mp hrow'
    exact ⟨row, hmem, hrow row hmem row' heq.symm⟩
  · have hids : (s.setRow instanceId f).rows.map (·.instanceId) = s.rows.map (·.instanceId) := by
      rw [Registry.setRow, List.map_map]
      refine List.map_congr_left fun row hmem => ?_
      exact (hrow row hmem _ rfl).1.symm
    rw [hids]
    exact h.nodup

/-- The row an event finds is the one it writes. -/
lemma Inv.eq_row (h : Inv s) {instanceId : Id} {row row₀ : Instance}
    (hfound : s.row? instanceId = some row₀) (hrow : row ∈ s.rows)
    (hid : row.instanceId = instanceId) : row = row₀ := by
  obtain ⟨hmem, hid₀⟩ := row?_eq_some hfound
  exact eq_of_instanceId h.nodup hrow hmem (hid.trans hid₀.symm)

/-- A renewal begins where its guard holds. -/
lemma inv_renew (h : Inv s) {instanceId : Id} (hs : step s (.renew instanceId) = some s') :
    Inv s' := by
  simp only [step] at hs
  split at hs
  · obtain rfl := Option.some.inj hs
    exact h
  · rename_i row₀ hfound
    split_ifs at hs with hlocked hactive
    · obtain rfl := Option.some.inj hs
      refine h.of_ages (ages_setRow h fun row hrow hid => ?_) rfl rfl rfl rfl
      obtain rfl := h.eq_row hfound hrow hid
      exact ⟨rfl, rfl, id, fun _ => hactive⟩
    · obtain rfl := Option.some.inj hs
      exact h

/-- A renewal that commits finds its lease valid. -/
lemma inv_renewCommit (h : Inv s) {instanceId : Id}
    (hs : step s (.renewCommit instanceId) = some s') : Inv s' := by
  simp only [step] at hs
  split at hs
  · rename_i id config startedAt leaseUntil renewed hfound
    obtain rfl := Option.some.inj hs
    obtain ⟨hmem, -⟩ := row?_eq_some hfound
    have hactive := h.renewing _ hmem rfl
    have hkept : (s.revived || decide (leaseUntil ≤ s.now)) = s.revived := by
      have hlt : s.now < leaseUntil := hactive
      simp [not_le.mpr hlt]
    rw [hkept]
    refine h.of_ages (ages_setRow h fun row hrow hid => ?_) rfl rfl rfl rfl
    obtain rfl := h.eq_row hfound hrow hid
    exact ⟨rfl, rfl, fun _ => hactive, fun hrenewing => absurd hrenewing (by simp)⟩
  · cases hs

/-- A renewal that fails leaves the lease. -/
lemma inv_renewAbort (h : Inv s) {instanceId : Id}
    (hs : step s (.renewAbort instanceId) = some s') : Inv s' := by
  simp only [step] at hs
  split at hs
  · obtain rfl := Option.some.inj hs
    refine h.of_ages (ages_setRow h fun row hrow hid => ?_) rfl rfl rfl rfl
    exact ⟨rfl, rfl, id, fun hrenewing => absurd hrenewing (by simp)⟩
  · cases hs

/-- What is decided may be given. -/
lemma mayGive_of_decideConfig {mode : DeploymentMode} {fingerprint : String}
    {active : List Instance} {config : ClusterConfig} (hidle : active = [] → s.Idle)
    (hok : decideConfig s.config mode fingerprint active = .ok config) : MayGive s config := by
  cases active with
  | nil =>
    refine .inr ⟨hidle rfl, ?_⟩
    intro c₀ hc₀
    simp only [decideConfig, takeOver, hc₀] at hok
    split at hok
    · exact .inl (Except.ok.inj hok)
    · split at hok
      · cases hok
      · rename_i generation hgeneration
        obtain rfl := Except.ok.inj hok
        have hval := BigInt.checkedAdd_eq_some.mp hgeneration
        refine .inr ?_
        show c₀.generation.val < generation.val
        rw [hval]
        have hone : (1 : BigInt).val = 1 := by decide
        omega
  | cons first rest =>
    simp only [decideConfig] at hok
    split_ifs at hok with hmode hsame hbase
    · obtain rfl := Except.ok.inj hok
      exact .inl ⟨hbase, hmode⟩

/-- Nobody is there where no active row is read. -/
lemma idle_of_activeRows (h : activeRows s.now s.rows = []) : s.Idle := by
  intro row hrow ha
  have hmem : row ∈ activeRows s.now s.rows := by
    rw [activeRows, List.mem_insertionSort]
    exact List.mem_filter.mpr ⟨hrow, by simpa using ha⟩
  rw [h] at hmem
  cases hmem

/-- **A registration commits**: its row joins rows that agree with it, or it is alone with a
configuration that follows every one before it. -/
lemma inv_commit (h : Inv s) {r : Registration} {row : Instance}
    (hstage : StageInv s { r with stage := .inserted row }) :
    Inv { s with
      config := some row.config
      rows := (s.rows.filter fun row => decide (row.instanceId ∉ r.deleted)) ++ [row]
      gate := none
      registered := s.registered ++ [row.config] } := by
  obtain ⟨hgive, hnone, hfresh⟩ := hstage
  have hold : ∀ row' ∈ s.rows, row'.Active s.now →
      row'.config = row.config ∧ row.config.deploymentMode ≠ .single := by
    intro row' hrow' ha
    rcases hgive with ⟨hconfig, hmode⟩ | ⟨hidle, -⟩
    · exact ⟨Option.some.inj ((h.active row' hrow' ha).symm.trans hconfig), hmode⟩
    · exact absurd ha (hidle row' hrow')
  have hmem : ∀ row' ∈ (s.rows.filter fun row => decide (row.instanceId ∉ r.deleted)) ++ [row],
      (row' ∈ s.rows ∧ row'.instanceId ∉ r.deleted) ∨ row' = row := by
    intro row' hrow'
    simpa using hrow'
  have hissued : ∀ a ∈ s.registered, a = row.config ∨
      a.generation.val < row.config.generation.val := by
    intro a ha
    obtain ⟨c, hc, hac⟩ := h.issued a ha
    rcases hgive with ⟨hconfig, -⟩ | ⟨-, hfollows⟩
    · obtain rfl := Option.some.inj (hc.symm.trans hconfig)
      exact hac
    · rcases hfollows c hc with rfl | hlt
      · exact hac
      · rcases hac with rfl | hac
        · exact .inr hlt
        · exact .inr (by omega)
  refine ⟨?_, ?_, ?_, ?_, ?_, ?_, (by intro r hr; cases hr), h.kept⟩
  · intro row' hrow' ha
    rcases hmem row' hrow' with ⟨hrow', -⟩ | rfl
    · exact congrArg some (hold row' hrow' ha).1.symm
    · rfl
  · rintro c hc hmode row₁ hrow₁ row₂ hrow₂ ha₁ ha₂
    obtain rfl := Option.some.inj hc
    -- in single mode no row but the new one is active
    rcases hmem row₁ hrow₁ with ⟨hrow₁, -⟩ | rfl
    · exact absurd hmode (hold row₁ hrow₁ ha₁).2
    · rcases hmem row₂ hrow₂ with ⟨hrow₂, -⟩ | rfl
      · exact absurd hmode (hold row₂ hrow₂ ha₂).2
      · rfl
  · rw [List.map_append, List.nodup_append]
    refine ⟨h.nodup.sublist ((List.filter_sublist).map _), by simp, ?_⟩
    intro id hid id' hid' heq
    obtain ⟨row', hrow', rfl⟩ := List.mem_map.mp hid
    obtain ⟨hrow', hkept⟩ := List.mem_filter.mp hrow'
    have hid' : id' = row.instanceId := by simpa using hid'
    have hdeleted := hfresh row' hrow' (heq.trans hid')
    simp [hdeleted] at hkept
  · intro a ha
    refine ⟨row.config, rfl, ?_⟩
    rcases List.mem_append.mp ha with ha | ha
    · exact hissued a ha
    · exact .inl (List.mem_singleton.mp ha)
  · intro a ha b hb heq
    rcases List.mem_append.mp ha with ha | ha <;> rcases List.mem_append.mp hb with hb | hb
    · exact h.distinct a ha b hb heq
    · obtain rfl := List.mem_singleton.mp hb
      exact (hissued a ha).resolve_right (by rw [heq]; exact lt_irrefl _)
    · obtain rfl := List.mem_singleton.mp ha
      exact ((hissued b hb).resolve_right (by rw [heq]; exact lt_irrefl _)).symm
    · rw [List.mem_singleton.mp ha, List.mem_singleton.mp hb]
  · intro row' hrow' hrenewing
    rcases hmem row' hrow' with ⟨hrow', -⟩ | rfl
    · exact h.renewing row' hrow' hrenewing
    · rw [hnone] at hrenewing
      cases hrenewing

/-- **Every prompt event keeps the invariant.** -/
lemma inv_step (h : Inv s) {e : ClusterEvent} (hok : Prompt s e) (hs : step s e = some s') :
    Inv s' := by
  have hstage : ∀ {r stage}, s.gate = some r → r.stage = stage →
      StageInv s { r with stage := stage } := by
    rintro r stage hr rfl
    exact h.stage r hr
  cases e with
  | tick n =>
    obtain rfl := Option.some.inj hs
    exact h.of_ages (ages_tick h hok) rfl rfl rfl rfl
  | acquireGate instanceId mode fingerprint =>
    simp only [step] at hs
    split at hs
    · cases hs
    · obtain rfl := Option.some.inj hs
      refine h.of_gate fun r hr => ?_
      obtain rfl := Option.some.inj hr
      trivial
  | ensureNoActiveInstances =>
    simp only [step] at hs
    split at hs
    · obtain ⟨expired, -, rfl⟩ := Option.map_eq_some_iff.mp hs
      exact h.of_ages (ages_filter h _) rfl rfl rfl rfl
    · cases hs
  | deleteExpired =>
    simp only [step] at hs
    split at hs
    · obtain ⟨expired, -, rfl⟩ := Option.map_eq_some_iff.mp hs
      refine h.of_gate fun r hr => ?_
      obtain rfl := Option.some.inj hr
      trivial
    · cases hs
  | readActive =>
    simp only [step] at hs
    split at hs
    · split at hs
      · obtain rfl := Option.some.inj hs
        refine h.of_gate fun r hr => ?_
        obtain rfl := Option.some.inj hr
        exact idle_of_activeRows
      · cases hs
    · cases hs
  | decide =>
    simp only [step] at hs
    split at hs
    · rename_i r hr
      split at hs
      · rename_i active hread
        have hidle : active = [] → s.Idle := hstage hr hread
        split at hs
        · rename_i config hconfig
          obtain rfl := Option.some.inj hs
          refine h.of_gate fun r' hr' => ?_
          obtain rfl := Option.some.inj hr'
          exact mayGive_of_decideConfig hidle hconfig
        · obtain rfl := Option.some.inj hs
          exact h.of_gate fun r hr => by cases hr
      · cases hs
    · cases hs
  | insert =>
    simp only [step] at hs
    split at hs
    · rename_i r hr
      split at hs
      · rename_i config hdecided
        have hgive : MayGive s config := hstage hr hdecided
        split_ifs at hs with htaken
        · obtain rfl := Option.some.inj hs
          exact h.of_gate fun r hr => by cases hr
        · obtain rfl := Option.some.inj hs
          refine h.of_gate fun r' hr' => ?_
          obtain rfl := Option.some.inj hr'
          refine ⟨hgive, rfl, fun row' hrow' hid => ?_⟩
          by_contra hdeleted
          apply htaken
          refine List.any_eq_true.mpr ⟨row', hrow', ?_⟩
          have hid : row'.instanceId = r.instanceId := hid
          have hdeleted : row'.instanceId ∉ r.deleted := hdeleted
          simpa [hid] using hdeleted
      · cases hs
    · cases hs
  | commit =>
    simp only [step] at hs
    split at hs
    · rename_i r hr
      split at hs
      · rename_i row hinserted
        obtain rfl := Option.some.inj hs
        exact inv_commit h (hstage hr hinserted)
      · cases hs
    · cases hs
  | abort =>
    simp only [step] at hs
    split_ifs at hs
    obtain rfl := Option.some.inj hs
    exact h.of_gate fun r hr => by cases hr
  | renew instanceId => exact inv_renew h hs
  | renewCommit instanceId => exact inv_renewCommit h hs
  | renewAbort instanceId => exact inv_renewAbort h hs
  | shutdown instanceId =>
    simp only [step] at hs
    split at hs
    · obtain rfl := Option.some.inj hs
      exact h
    · split_ifs at hs
      obtain rfl := Option.some.inj hs
      exact h.of_ages (ages_filter h _) rfl rfl rfl rfl

end Invariant

/-- **The instances agree in every run in which renewals are prompt**: whatever instances register,
renew, fail, shut down and expire, in any order. -/
theorem agreement_of_leads {now : ℤ} {s : Registry} (h : step.Leads Prompt (.empty now) s) :
    Agreement s :=
  (System.invariant (inv_empty now) (fun _ _ _ hinv hok hs => inv_step hinv hok hs) h).agreement

/-! ## Two runs -/

/-- A registration without a stop. -/
def register (instanceId : Id) (mode : DeploymentMode) (fingerprint : String) :
    List ClusterEvent :=
  [.acquireGate instanceId mode fingerprint, .deleteExpired, .readActive, .decide, .insert, .commit]

/-- Two instances register and renew in turn; one shuts down. -/
theorem agreement_of_leads_pair : ∃ s, step.Leads Prompt (.empty 0) s ∧ s.rows.length = 1 ∧
    Agreement s := by
  obtain ⟨s, hs, hp⟩ := System.exists_leads step Prompt (.empty 0) (fun s => s.rows.length = 1)
    (register 1 .cluster "a" ++ [.tick 30000000, .renew 1, .renewCommit 1] ++
      register 2 .cluster "a" ++ [.tick 50000000, .shutdown 1]) (by decide +kernel)
  exact ⟨s, hs, by simpa using hp, agreement_of_leads hs⟩

/-- **A late renewal resurrects its lease**: the guard of a renewal has been evaluated when the
lease runs out; a registration that has deleted the expired rows before then reads no active row,
and takes the cluster over; then the renewal commits. -/
theorem late_renewal_revives : ∃ s, step.Leads System.Any (.empty 0) s ∧
    (activeRows s.now s.rows).map (·.config) = [⟨.single, "a", 1⟩, ⟨.cluster, "b", 2⟩] ∧
    ¬ Agreement s := by
  obtain ⟨s, hs, hp⟩ := System.exists_leads step System.Any (.empty 0) (fun s => s.revived ∧
      (activeRows s.now s.rows).map (·.config) = [⟨.single, "a", 1⟩, ⟨.cluster, "b", 2⟩])
    (register 1 .single "a" ++ [.tick 59000000, .renew 1, .acquireGate 2 .cluster "b",
      .deleteExpired, .tick 2000000, .readActive, .decide, .insert, .commit, .renewCommit 1])
    (by decide +kernel)
  obtain ⟨hrevived, hmodes⟩ := of_decide_eq_true hp
  refine ⟨s, hs, hmodes, fun h => ?_⟩
  rw [h.kept] at hrevived
  cases hrevived

end Cluster
