import Mathlib.Data.List.Sort
import Mathlib.Data.Prod.Lex
import RbphBackend.Concurrency.Solo
import RbphBackend.Helpdesk.Calls

set_option relaxedAutoImplicit false
set_option autoImplicit false

/-!
# What keeps a ticket from being opened

The list of a team's tickets says whether a ticket of a puzzle can be opened, and if not, why. The
call that opens a ticket checks the same conditions in another order, with other statements.

## Main definitions

* `Helpdesk.getTeamPuzzleTickets` — the list.
* `Helpdesk.Openable` — the conditions.

## Main results

* `Helpdesk.opensTicket_iff_openBlock` — the list says that a ticket can be opened just if the call
  opens one.
-/

namespace Helpdesk

open Concurrency ReadCommitted Numeric Threads

/-! ## The list -/

/-- `TicketOpenInfo`. -/
structure TicketOpenInfo where
  id : Id
  puzzleId : Id
  puzzleTitle : String
  deriving DecidableEq

/-- `TicketOpenBlock`. -/
inductive TicketOpenBlock where
  | ok
  | currentPuzzlePending
  | pendingLimit
  | cooldown
  | disabled
  | featureClosed
  | featureExistingOnly
  | teamFeatureBanned
  deriving DecidableEq

/-- `TicketPuzzleList`. -/
structure TicketPuzzleList where
  openBlock : TicketOpenBlock
  cooldownTill : Option ℤ
  openTickets : List TicketOpenInfo
  tickets : List TicketSummary
  deriving DecidableEq

/-- What the list reads of the puzzle. -/
structure TicketCooldown where
  ticketEnabled : Option Bool
  ready : Bool
  cooldownTill : Option ℤ

section List

variable (cfg : Config) (t : Tid)

/-- The tickets of a team, the latest first. -/
def teamTickets (v : View) (teamId : Id) : List (Id × Ticket) :=
  (cfg.ticketIds.insertionSort fun a b => b ≤ a).filterMap fun id =>
    (v (.ticket id)).bind fun tk => if tk.teamId = teamId then some (id, tk) else none

/-- The tickets of a team for puzzles, as the list shows them. -/
def selectTickets (teamId : Id) : Statement (List TicketSummary) :=
  .read fun v _ => .ok <| (teamTickets cfg v teamId).filterMap fun row => do
    let p ← row.2.puzzleId.bind cfg.puzzle
    let r ← cfg.round p.roundId
    let messages := v (.messages row.1)
    let last := (messages.insertionSort fun a b =>
      toLex (b.ctimeAt, b.id) ≤ toLex (a.ctimeAt, a.id)).head?
    some
      { id := row.1
        state := .fromPrimitive row.2.state
        gameId := some p.gameId
        team := none
        puzzle := some ⟨p.id, p.slug, p.title,
          .fromPrimitive (((v (.teamPuzzle teamId p.id)).map (·.state)).getD (-1)),
          ⟨r.id, r.slug, r.title⟩⟩
        msgCount := if messages.isEmpty then none else some messages.length
        lastAt := (messages.map (·.ctimeAt)).max?
        lastBy := last.map fun m => .fromPrimitive m.senderType
        assignee := none }

/-- The open tickets of a team for puzzles. -/
def selectOpenTickets (teamId : Id) : Statement (List TicketOpenInfo) :=
  .read fun v _ => .ok <| (teamTickets cfg v teamId).filterMap fun row => do
    let p ← row.2.puzzleId.bind cfg.puzzle
    if row.2.state = 1 then some ⟨row.1, p.id, p.title⟩ else none

/-- The puzzle, if it is released and the team has unlocked it, with the instant it was both. -/
def unlockedPuzzle (v : View) (now : ℤ) (teamId puzzleId : Id) : Option (Puzzle × ℤ) := do
  let p ← cfg.puzzle puzzleId
  let releaseAt ← cfg.effectiveRelease p
  let tp ← v (.teamPuzzle teamId p.id)
  if 0 ≤ tp.state ∧ releaseAt ≤ now then some (p, max tp.ctimeAt releaseAt) else none

/-- The `SELECT` of the cooldown. -/
def selectCooldown (teamId puzzleId : Id) : Statement TicketCooldown :=
  .read fun v now =>
    let row := unlockedPuzzle cfg v now teamId puzzleId
    .ok {
      ticketEnabled := row.map fun (p, _) => p.ticketEnabled
      ready := row.any fun (p, since) =>
        p.ticketEnabled && decide (since ≤ now - p.ticketCooldown * secondMicros)
      cooldownTill := row.bind fun (p, since) =>
        if p.ticketEnabled then some (since + p.ticketCooldown * secondMicros) else none }

/-- What the team may do with tickets of the puzzle, if it is one of the team's game. -/
def selectFeatureAccess (teamId puzzleId : Id) : Statement (Option ℤ) :=
  .read fun v _ => .ok do
    let p ← cfg.puzzle puzzleId
    let r ← cfg.round p.roundId
    let team ← v (.team teamId)
    if team.gameId = r.gameId then some (featureValue v teamId r.gameId 2) else none

/-- What keeps a ticket from being opened; the staff is exempt from what the feature says. -/
def openBlock (featureExempt : Bool) (featureAccess : PlayerFeatureAccess)
    (openTickets : List TicketOpenInfo) (puzzleId : Id) (cooldown : TicketCooldown) :
    TicketOpenBlock :=
  if !featureExempt && decide (featureAccess = .teamFeatureBanned) then .teamFeatureBanned
  else if !featureExempt && decide (featureAccess = .gameClosed) then .featureClosed
  else if !featureExempt && decide (featureAccess = .existingOnly) then .featureExistingOnly
  else if openTickets.any fun ticket => decide (ticket.puzzleId = puzzleId) then
    .currentPuzzlePending
  else if !cooldown.ticketEnabled.getD false then .disabled
  else if !cooldown.ready then .cooldown
  else if !openTickets.isEmpty then .pendingLimit
  else .ok

/-- `get_team_puzzle_tickets`. -/
def getTeamPuzzleTickets (teamId puzzleId : Id) (featureExempt : Bool) : Call TicketPuzzleList := do
  let tickets ← Tx.pool t .stmt (selectTickets cfg teamId)
  let openTickets ← Tx.pool t .stmt (selectOpenTickets cfg teamId)
  let cooldown ← Tx.pool t .stmt (selectCooldown cfg teamId puzzleId)
  let access ← Tx.pool t .stmt (selectFeatureAccess cfg teamId puzzleId)
  let featureAccess := (access.map PlayerFeatureAccess.fromValue).getD .gameClosed
  return {
    openBlock := openBlock featureExempt featureAccess openTickets puzzleId cooldown
    cooldownTill := cooldown.cooldownTill
    openTickets := openTickets
    tickets := tickets }

end List

/-! ## The conditions -/

/-- What the foreign keys say of the tickets. -/
def Referential (cfg : Config) (v : View) : Prop :=
  ∀ id tk, v (.ticket id) = some tk → ∀ p, tk.puzzleId = some p → (cfg.puzzle p).isSome = true

/-- A request to open a ticket of a puzzle of the team's game, by a player or by the staff, with a
message that can be stored and an id no ticket has. -/
structure OpenRequest.Proper (cfg : Config) (v : View) (req : OpenRequest) (p : Puzzle) (r : Round)
    (tm : Team) : Prop where
  puzzle : cfg.puzzle req.puzzleId = some p
  round : cfg.round p.roundId = some r
  team : v (.team req.teamId) = some tm
  game : tm.gameId = r.gameId
  kind : req.message.senderType = .team ∨ req.message.senderType = .host
  sender : (v (.user req.message.senderId)).isSome = true
  cost : ∀ currency, req.message.costId = some currency → (cfg.currencyGame currency).isSome = true
  delay : 0 ≤ req.message.unlockAfterSeconds
  fresh : v (.ticket req.ticketId) = none

/-- The team has an open ticket for a puzzle. -/
def HasOpen (cfg : Config) (v : View) (teamId : Id) : Prop :=
  ∃ id ∈ cfg.ticketIds, (v (.ticket id)).any (Ticket.isOpenFor teamId) = true

/-- A ticket of the puzzle `p` of the round `r` can be opened. -/
structure Openable (cfg : Config) (v : View) (now : ℤ) (req : OpenRequest) (p : Puzzle)
    (r : Round) : Prop where
  unique : ¬ HasOpen cfg v req.teamId
  released : ∃ releaseAt ≤ now, cfg.effectiveRelease p = some releaseAt
  access : req.message.senderType = .team → featureValue v req.teamId r.gameId 2 = 2
  enabled : p.ticketEnabled = true
  ready : cooldownReady cfg v now req.teamId p = true

section Conditions

variable {cfg : Config} {v : View} {now : ℤ} {req : OpenRequest} {p : Puzzle} {r : Round}
  {tm : Team}

lemma fromValue_eq_open (n : ℤ) : PlayerFeatureAccess.fromValue n = .open ↔ n = 2 := by
  unfold PlayerFeatureAccess.fromValue
  split_ifs with h₁ h₂ h₃
  · exact ⟨fun _ => h₁, fun _ => rfl⟩
  all_goals
    refine ⟨fun h => ?_, fun h => absurd h h₁⟩
    cases h

lemma accessRefused_eq_none (access : PlayerFeatureAccess) :
    accessRefused access = none ↔ access = .open := by
  cases access <;> simp [accessRefused]

lemma puzzle_id (h : cfg.puzzle req.puzzleId = some p) : p.id = req.puzzleId := by
  simpa using List.find?_some h

variable (v now) in
/-- The cooldown is over just if the list says so. -/
lemma ready_selectCooldown (h : cfg.puzzle req.puzzleId = some p) :
    ((∃ releaseAt ≤ now, cfg.effectiveRelease p = some releaseAt) ∧ p.ticketEnabled = true ∧
      cooldownReady cfg v now req.teamId p = true) ↔
    ∃ since, unlockedPuzzle cfg v now req.teamId req.puzzleId = some (p, since) ∧
      p.ticketEnabled = true ∧ since ≤ now - p.ticketCooldown * secondMicros := by
  unfold unlockedPuzzle cooldownReady
  rw [h]
  simp only [Option.bind_eq_bind, Option.bind_some]
  cases hrel : cfg.effectiveRelease p with
  | none => simp
  | some releaseAt =>
    cases htp : v (.teamPuzzle req.teamId p.id) with
    | none => simp
    | some tp =>
      simp only [Option.bind_some, Option.some.injEq, decide_eq_true_eq,
        Option.ite_none_right_eq_some, Prod.mk.injEq, true_and]
      constructor
      · rintro ⟨⟨_, hle, rfl⟩, hen, hstate, hready⟩
        exact ⟨_, ⟨⟨hstate, hle⟩, rfl⟩, hen, hready⟩
      · rintro ⟨_, ⟨⟨hstate, hle⟩, rfl⟩, hen, hready⟩
        exact ⟨⟨_, hle, rfl⟩, hen, hstate, hready⟩

lemma unlockedPuzzle_fst {q : Puzzle} {since : ℤ} (h : cfg.puzzle req.puzzleId = some p)
    (hrow : unlockedPuzzle cfg v now req.teamId req.puzzleId = some (q, since)) : q = p := by
  unfold unlockedPuzzle at hrow
  rw [h] at hrow
  simp only [Option.bind_eq_bind, Option.bind_some] at hrow
  obtain ⟨releaseAt, -, hrow⟩ := Option.bind_eq_some_iff.1 hrow
  obtain ⟨tp, -, hrow⟩ := Option.bind_eq_some_iff.1 hrow
  obtain ⟨-, hpair⟩ := Option.ite_none_right_eq_some.1 hrow
  exact (Prod.mk.inj (Option.some.inj hpair)).1.symm

/-- The open tickets of the list. -/
def openTickets (cfg : Config) (v : View) (teamId : Id) : List TicketOpenInfo :=
  (teamTickets cfg v teamId).filterMap fun row => do
    let p ← row.2.puzzleId.bind cfg.puzzle
    if row.2.state = 1 then some ⟨row.1, p.id, p.title⟩ else none

/-- The list has an open ticket just if there is one. -/
lemma openTickets_eq_nil (hv : Referential cfg v) :
    openTickets cfg v req.teamId = [] ↔ ¬ HasOpen cfg v req.teamId := by
  rw [openTickets, List.filterMap_eq_nil_iff]
  constructor
  · rintro h ⟨id, hid, hopen⟩
    obtain ⟨tk, htk, hfor⟩ := Option.any_eq_true _ _ |>.1 hopen
    simp only [Ticket.isOpenFor, Bool.and_eq_true, decide_eq_true_eq] at hfor
    obtain ⟨⟨hstate, hteam⟩, hpuzzle⟩ := hfor
    obtain ⟨q, hq⟩ := Option.isSome_iff_exists.1 hpuzzle
    obtain ⟨p', hp'⟩ := Option.isSome_iff_exists.1 (hv id tk htk q hq)
    have hmem : (id, tk) ∈ teamTickets cfg v req.teamId :=
      List.mem_filterMap.2 ⟨id, (List.mem_insertionSort _).2 hid, by simp [htk, hteam]⟩
    have hnone := h (id, tk) hmem
    simp [hq, hp', hstate] at hnone
  · rintro hno ⟨id, tk⟩ hmem
    obtain ⟨id', hid', hrow⟩ := List.mem_filterMap.1 hmem
    obtain ⟨tk', htk', hif⟩ := Option.bind_eq_some_iff.1 hrow
    obtain ⟨hteam, hpair⟩ := Option.ite_none_right_eq_some.1 hif
    obtain ⟨rfl, rfl⟩ := Prod.mk.inj (Option.some.inj hpair)
    cases hp : tk'.puzzleId.bind cfg.puzzle with
    | none => rfl
    | some p' =>
      refine if_neg fun hstate => hno ⟨id', (List.mem_insertionSort _).1 hid', ?_⟩
      obtain ⟨q, hq, -⟩ := Option.bind_eq_some_iff.1 hp
      have hone : tk'.state = 1 := hstate
      simp [htk', Ticket.isOpenFor, hone, hteam, hq]

lemma openBlock_eq_ok {exempt : Bool} {access : PlayerFeatureAccess}
    {tickets : List TicketOpenInfo} {puzzleId : Id} {cooldown : TicketCooldown} :
    openBlock exempt access tickets puzzleId cooldown = .ok ↔
      (exempt = false → access = .open) ∧ tickets = [] ∧ cooldown.ticketEnabled = some true ∧
        cooldown.ready = true := by
  unfold openBlock
  constructor
  · intro h
    split_ifs at h with h₁ h₂ h₃ h₄ h₅ h₆ h₇
    simp only [Bool.not_eq_true', List.isEmpty_eq_false_iff, ne_eq, not_not] at h₅ h₆ h₇
    refine ⟨fun he => ?_, h₇, ?_, by simpa using h₆⟩
    · subst he
      cases access <;> simp at h₁ h₂ h₃ ⊢
    · cases hen : cooldown.ticketEnabled with
      | none => simp [hen] at h₅
      | some b => simpa [hen] using h₅
  · rintro ⟨haccess, rfl, henabled, hready⟩
    cases exempt with
    | true => simp [henabled, hready]
    | false => simp [haccess rfl, henabled, hready]

/-- **The list says that a ticket can be opened** just if the conditions hold. -/
lemma openBlock_iff_openable (hv : Referential cfg v) (hreq : req.Proper cfg v p r tm)
    {cooldown : TicketCooldown} {access : PlayerFeatureAccess}
    (hcooldown : selectCooldown cfg req.teamId req.puzzleId v now = .ok { val := cooldown })
    (haccess : access = .open ↔ featureValue v req.teamId r.gameId 2 = 2) :
    openBlock (decide (req.message.senderType = .host)) access (openTickets cfg v req.teamId)
      req.puzzleId cooldown = .ok ↔ Openable cfg v now req p r := by
  obtain rfl : _ = cooldown := congrArg Effect.val (Except.ok.inj hcooldown)
  have hready := ready_selectCooldown v now hreq.puzzle
  have hexempt : decide (req.message.senderType = .host) = false ↔
      req.message.senderType = .team := by
    rcases hreq.kind with h | h <;> simp [h]
  rw [openBlock_eq_ok, hexempt, haccess, openTickets_eq_nil hv]
  constructor
  · rintro ⟨hfeature, hnone, henabled, hcool⟩
    obtain ⟨⟨q, since⟩, hrow, hq⟩ := Option.any_eq_true _ _ |>.1 hcool
    obtain rfl : q = p := unlockedPuzzle_fst hreq.puzzle hrow
    simp only [Bool.and_eq_true, decide_eq_true_eq] at hq
    obtain ⟨hrel, hen, hre⟩ := hready.2 ⟨since, hrow, hq⟩
    exact ⟨hnone, hrel, hfeature, hen, hre⟩
  · intro h
    obtain ⟨since, hrow, henabled, hle⟩ := hready.1 ⟨h.released, h.enabled, h.ready⟩
    refine ⟨h.access, h.unique, ?_, ?_⟩
    · simp [hrow, henabled]
    · simp [hrow, henabled, hle]

end Conditions

/-! ## The call -/

/-- The call leaves a ticket that was not there. -/
def Creates (v v' : View) : Prop := ∃ id, v (.ticket id) = none ∧ (v' (.ticket id)).isSome = true

section Open

variable {cfg : Config} {t : Tid} {v : View} {now : ℤ} {req : OpenRequest} {p : Puzzle} {r : Round}
  {tm : Team}

/-- Locking a row changes nothing. -/
lemma applyPuts_lockRow (v : View) (k : Key) : applyPuts [lockRow v k] v = v :=
  applyPuts_of_locks fun q hq => by
    obtain rfl := List.mem_singleton.1 hq
    rfl

variable (t now) in
lemma plays_lockTeam (h : v (.team req.teamId) = some tm) :
    Plays t (Tx.query t .stmt (lockTeam req.teamId) : Call Unit) now v () v := by
  have hstmt : lockTeam req.teamId v now =
      .ok { val := (), puts := [lockRow v (.team req.teamId)] } := by
    unfold lockTeam
    rw [h]
  have hplays := Plays.query (t := t) (L := Label) (l := .stmt) hstmt
  rwa [applyPuts_lockRow] at hplays

lemma insertTicketReply_eq {ticketId id : Id} {data : SendMessageData} {tk : Ticket}
    (h : v (.ticket ticketId) = some tk) :
    insertTicketReply cfg ticketId id data v now = .ok {
      val := ()
      inserts := [.ticketReply tk.teamId id data.senderId ticketId
        ((tk.puzzleId.bind cfg.puzzle).map (·.id))
        ((tk.puzzleId.bind cfg.puzzle).map (·.title))] } := by
  unfold insertTicketReply
  rw [h]

variable (t now) in
/-- A message whose foreign keys are in order is stored. -/
lemma plays_insertTicketMessageConn {ticketId : Id} (id : Id) {data : SendMessageData}
    (hticket : (v (.ticket ticketId)).isSome = true) (hsender : (v (.user data.senderId)).isSome = true)
    (hcost : ∀ currency, data.costId = some currency → (cfg.currencyGame currency).isSome = true)
    (hdelay : 0 ≤ data.unlockAfterSeconds) :
    ∃ v', Plays t (insertTicketMessageConn cfg t ticketId id data) now v () v' ∧
      ∀ k, k ≠ .messages ticketId → v' k = v k := by
  have hfk : ¬ data.costId.any (fun currency => (cfg.currencyGame currency).isNone) = true := by
    intro hany
    obtain ⟨currency, hc, hnone⟩ := Option.any_eq_true _ _ |>.1 hany
    have hsome := hcost currency hc
    rw [Option.isNone_iff_eq_none] at hnone
    rw [hnone] at hsome
    cases hsome
  obtain ⟨tk, htk⟩ := Option.isSome_iff_exists.1 hticket
  obtain ⟨u, hu⟩ := Option.isSome_iff_exists.1 hsender
  have hstmt : insertMessage cfg ticketId id data v now = .ok {
      val := ()
      puts := [⟨.messages ticketId, v (.messages ticketId) ++ [data.row id now]⟩] } := by
    unfold insertMessage
    rw [if_neg (by simp [htk]), if_neg (by simp [hu]), if_neg hfk, if_neg (by omega)]
  refine ⟨applyPuts [⟨.messages ticketId, v (.messages ticketId) ++ [data.row id now]⟩] v,
    Plays.bind (Plays.query hstmt) ?_, fun k hk => applyPuts_of_notMem (by simpa using hk)⟩
  cases data.senderType with
  | team => exact Plays.pure ()
  | invalid => exact Plays.pure ()
  | host =>
    -- the `UPDATE` has left the ticket
    have hrow : applyPuts [⟨Key.messages ticketId, v (.messages ticketId) ++ [data.row id now]⟩] v
        (.ticket ticketId) = some tk := (applyPuts_of_notMem (by simp)).trans htk
    exact Plays.query (insertTicketReply_eq hrow)

variable (t now) in
/-- An operation whose foreign keys are in order is stored. -/
lemma plays_insertOperation {ticketId actor : Id} (action : TicketOperationAction)
    (actorType : RbTicketSenderType) (messageId : Option Id)
    (hticket : (v (.ticket ticketId)).isSome = true) (hactor : (v (.user actor)).isSome = true) :
    ∃ v', Plays t (Tx.query t .stmt (insertOperation ticketId action actor actorType messageId) :
      Call Unit) now v () v' ∧ ∀ k, k ≠ .operations ticketId → v' k = v k := by
  obtain ⟨tk, htk⟩ := Option.isSome_iff_exists.1 hticket
  obtain ⟨u, hu⟩ := Option.isSome_iff_exists.1 hactor
  have hstmt : insertOperation ticketId action actor actorType messageId v now = .ok {
      val := ()
      puts := [⟨.operations ticketId, v (.operations ticketId) ++
        [⟨actionCode action, actor, senderTypeCode actorType, messageId, now⟩]⟩] } := by
    unfold insertOperation
    rw [if_neg (by simp [htk]), if_neg (by simp [hu])]
  exact ⟨_, Plays.query hstmt, fun k hk => applyPuts_of_notMem (by simpa using hk)⟩

variable (t now) in
/-- **The writes of a proper request succeed.** -/
lemma plays_writeTicket (hreq : req.Proper cfg v p r tm) (info : TicketAvailability) :
    ∃ v', Plays t (writeTicket cfg t req info) now v (true, none) v' ∧ Creates v v' := by
  have hstmt : insertTicket cfg req v now = .ok {
      val := ()
      puts := [⟨.ticket req.ticketId, some ⟨1, req.teamId, some req.puzzleId, none⟩⟩] } := by
    unfold insertTicket
    rw [if_neg (by simp [hreq.fresh]), if_neg (by simp [hreq.team]), if_neg (by simp [hreq.puzzle])]
  have hinsert := Plays.query (t := t) (L := Label) (l := .stmt) hstmt
  generalize hv₁ : applyPuts _ v = v₁ at hinsert
  have hticket : (v₁ (.ticket req.ticketId)).isSome = true := by simp [← hv₁]
  have huser : v₁ (.user req.message.senderId) = v (.user req.message.senderId) := by
    rw [← hv₁]
    exact applyPuts_of_notMem (by simp)
  obtain ⟨v₂, hmessage, hv₂⟩ := plays_insertTicketMessageConn t now req.messageId hticket
    (huser ▸ hreq.sender) hreq.cost hreq.delay
  obtain ⟨v₃, hoperation, hv₃⟩ := plays_insertOperation t now .opened req.message.senderType
    (some req.messageId) ((congrArg Option.isSome (hv₂ _ (by simp))).trans hticket)
    ((congrArg Option.isSome ((hv₂ _ (by simp)).trans huser)).trans hreq.sender)
  refine ⟨v₃, Plays.bind hinsert (Plays.bind hmessage (Plays.bind hoperation
    (Plays.bind (Plays.query rfl) (Plays.pure _)))), req.ticketId, hreq.fresh, ?_⟩
  rw [hv₃ _ (by simp), hv₂ _ (by simp)]
  exact hticket

variable (t now) in
/-- The feature refuses players who may not open tickets. -/
lemma plays_checkAccess (hreq : req.Proper cfg v p r tm) :
    ∃ refused, Plays t (checkAccess t req r.gameId) now v refused v ∧
      (refused = none ↔
        (req.message.senderType = .team → featureValue v req.teamId r.gameId 2 = 2)) := by
  unfold checkAccess
  rcases hreq.kind with hkind | hkind
  · rw [hkind]
    refine ⟨_, Plays.bind (Plays.read (b := some (featureValue v req.teamId r.gameId 2)) ?_)
      (Plays.pure _), ?_⟩
    · simp [hreq.team, hreq.game]
    · rw [accessRefused_eq_none, fromValue_eq_open]
      exact ⟨fun h _ => h, fun h => h rfl⟩
  · rw [hkind]
    exact ⟨none, Plays.pure none, fun _ h => RbTicketSenderType.noConfusion h, fun _ => rfl⟩

variable (t now) in
/-- **The checks** let a proper request through just if a ticket can be opened. -/
lemma plays_openAvailable (hreq : req.Proper cfg v p r tm)
    (hunique : ¬ HasOpen cfg v req.teamId) :
    ∃ a v', Plays t (openAvailable cfg t req) now v a v' ∧
      ((a = (true, none) ∧ Creates v v' ∧ Openable cfg v now req p r) ∨
        ∃ refused, a = (false, some refused) ∧ ¬ Openable cfg v now req p r) := by
  unfold openAvailable
  by_cases hrel : ∃ releaseAt ≤ now, cfg.effectiveRelease p = some releaseAt
  · have havailable : Plays t (Tx.query t .stmt
        (selectAvailability cfg req.teamId req.puzzleId) : Call (Option TicketAvailability)) now v
        (some ⟨p.ticketEnabled, p.title, p.roundId, r.gameId,
          cooldownReady cfg v now req.teamId p⟩) v := by
      obtain ⟨releaseAt, hle, hrel⟩ := hrel
      refine Plays.read ?_
      simp [hreq.puzzle, hreq.round, hrel, hle]
    obtain ⟨refused, haccess, hrefused⟩ := plays_checkAccess t now hreq
    cases refused with
    | some refused =>
      refine ⟨_, v, Plays.bind havailable (Plays.bind haccess (Plays.pure _)),
        .inr ⟨refused, rfl, fun h => ?_⟩⟩
      cases hrefused.2 h.access
    | none =>
      cases hen : p.ticketEnabled with
      | false =>
        refine ⟨_, v, Plays.bind havailable (Plays.bind haccess ?_),
          .inr ⟨.disabled, rfl, fun h => ?_⟩⟩
        · simp only [hen, if_true]
          exact Plays.pure _
        · exact absurd h.enabled (by simp [hen])
      | true =>
        cases hready : cooldownReady cfg v now req.teamId p with
        | false =>
          refine ⟨_, v, Plays.bind havailable (Plays.bind haccess ?_),
            .inr ⟨.cooldown, rfl, fun h => ?_⟩⟩
          · simp only [hen, hready, if_true, Bool.true_eq_false, if_false]
            exact Plays.pure _
          · exact absurd h.ready (by simp [hready])
        | true =>
          obtain ⟨v', hwrite, hcreates⟩ := plays_writeTicket t now hreq
            ⟨true, p.title, p.roundId, r.gameId, true⟩
          refine ⟨_, v', Plays.bind havailable (Plays.bind haccess ?_),
            .inl ⟨rfl, hcreates, hunique, hrel, hrefused.1 rfl, hen, hready⟩⟩
          simp only [hen, hready, Bool.true_eq_false, if_false]
          exact hwrite
  · have hnone : Plays t (Tx.query t .stmt
        (selectAvailability cfg req.teamId req.puzzleId) : Call (Option TicketAvailability)) now v
        none v := by
      refine Plays.read ?_
      cases heff : cfg.effectiveRelease p with
      | none => simp [hreq.puzzle, hreq.round, heff]
      | some releaseAt =>
        have hlate : ¬ releaseAt ≤ now := fun hle => hrel ⟨releaseAt, hle, heff⟩
        simp [hreq.puzzle, hreq.round, heff, hlate]
    exact ⟨_, v, Plays.bind hnone (Plays.pure _), .inr ⟨.disabled, rfl, fun h => hrel h.released⟩⟩

variable (t now) in
/-- **The call creates a ticket** just if one can be opened. -/
lemma openPuzzleTicket_answers (hreq : req.Proper cfg v p r tm) :
    ∃ answer v', Answers t (openPuzzleTicket cfg t req) now v answer v' ∧
      (Creates v v' ↔ Openable cfg v now req p r) := by
  have hself : ¬ Creates v v := by
    rintro ⟨id, hnone, hsome⟩
    rw [hnone] at hsome
    cases hsome
  have hlock := plays_lockTeam t now hreq.team
  have hpending : Plays t (Tx.query t .stmt (pendingExists cfg req.teamId) : Call Bool) now v
      (cfg.ticketIds.any fun id => (v (.ticket id)).any (Ticket.isOpenFor req.teamId)) v :=
    Plays.read rfl
  have hany : (cfg.ticketIds.any fun id => (v (.ticket id)).any (Ticket.isOpenFor req.teamId)) = true
      ↔ HasOpen cfg v req.teamId := List.any_eq_true
  by_cases hopen : HasOpen cfg v req.teamId
  · rw [hany.2 hopen] at hpending
    have hbody : Plays t (openBody cfg t req) now v (false, some .pendingExists) v :=
      Plays.bind hlock (Plays.bind hpending (Plays.pure _))
    exact ⟨_, v, Answers.bind (Answers.dropped hbody) (Answers.pure _),
      fun h => absurd h hself, fun h => absurd hopen h.unique⟩
  · rw [Bool.eq_false_iff.2 fun h => hopen (hany.1 h)] at hpending
    obtain ⟨a, v', havailable, ⟨rfl, hcreates, hopenable⟩ | ⟨refused, rfl, hnot⟩⟩ :=
      plays_openAvailable t now hreq hopen
    · have hbody : Plays t (openBody cfg t req) now v (true, none) v' :=
        Plays.bind hlock (Plays.bind hpending havailable)
      have hiff : Creates v v' ↔ Openable cfg v now req p r :=
        ⟨fun _ => hopenable, fun _ => hcreates⟩
      cases hthread : cfg.ticketThread v' now req.ticketId (openerInfo req.message.senderType) with
      | none => exact ⟨_, v', Answers.bind (Answers.committed hbody) (Answers.bind
          (Answers.pool_read (congrArg Except.ok hthread)) (Answers.throw _)), hiff⟩
      | some thread => exact ⟨_, v', Answers.bind (Answers.committed hbody) (Answers.bind
          (Answers.pool_read (congrArg Except.ok hthread)) (Answers.pure _)), hiff⟩
    · have hbody : Plays t (openBody cfg t req) now v (false, some refused) v' :=
        Plays.bind hlock (Plays.bind hpending havailable)
      exact ⟨_, v, Answers.bind (Answers.dropped hbody) (Answers.pure _),
        fun h => absurd h hself, fun h => absurd h hnot⟩

variable (t now) in
/-- The list says what the conditions say. -/
lemma getTeamPuzzleTickets_answers (hv : Referential cfg v) (hreq : req.Proper cfg v p r tm) :
    ∃ list, Answers t (getTeamPuzzleTickets cfg t req.teamId req.puzzleId
        (decide (req.message.senderType = .host))) now v (.ok list) v ∧
      (list.openBlock = .ok ↔ Openable cfg v now req p r) := by
  have haccess : Answers t (Tx.pool t .stmt (selectFeatureAccess cfg req.teamId req.puzzleId) :
      Call (Option ℤ)) now v (.ok (some (featureValue v req.teamId r.gameId 2))) v := by
    refine Answers.pool_read ?_
    simp [hreq.puzzle, hreq.round, hreq.team, hreq.game]
  refine ⟨_, Answers.bind (Answers.pool_read rfl) (Answers.bind (Answers.pool_read rfl)
    (Answers.bind (Answers.pool_read rfl) (Answers.bind haccess (Answers.pure _)))), ?_⟩
  exact openBlock_iff_openable hv hreq rfl (fromValue_eq_open _)

/-- **The list and the call agree**: on every state, for every puzzle of the team's game and a
message of either kind of sender, the list says that a ticket can be opened just if the call, made at
that instant, creates one. -/
theorem opensTicket_iff_openBlock (cfg : Config) (t : Tid) (v : View) (now : ℤ) (req : OpenRequest)
    (p : Puzzle) (r : Round) (tm : Team) (hv : Referential cfg v) (hreq : req.Proper cfg v p r tm) :
    ∃ list d answer d',
      (getTeamPuzzleTickets cfg t req.teamId req.puzzleId
        (decide (req.message.senderType = .host))).run.alone (Db.init now v) = some (.ok list, d) ∧
      (openPuzzleTicket cfg t req).run.alone (Db.init now v) = some (answer, d') ∧
      (list.openBlock = .ok ↔ Creates v d'.committed) := by
  obtain ⟨list, hlist, hblock⟩ := getTeamPuzzleTickets_answers t now hv hreq
  obtain ⟨answer, v', hanswer, hcreates⟩ := openPuzzleTicket_answers t now hreq
  obtain ⟨d, hd, -⟩ := hlist _ (Quiet.init t now v)
  obtain ⟨d', hd', hquiet⟩ := hanswer _ (Quiet.init t now v)
  refine ⟨list, d, answer, d', hd, hd', ?_⟩
  rw [hquiet.committed, hblock, hcreates]

/-- A game with one puzzle that has been released at the instant 0. -/
def onePuzzle : Config where
  rounds := [⟨1, 1, none, "a round"⟩]
  puzzles := [⟨1, 1, 1, none, "a puzzle", some 0, none, true, 60⟩]
  phase _ := none
  currencyGame _ := none
  ticketIds := [1]
  avatarUrl email _ := email
  ticketThread _ _ _ _ := none

/-- A team that has unlocked the puzzle, and a member of it. -/
def onePuzzleRows : View := applyPuts [⟨.team 1, some ⟨1⟩⟩, ⟨.teamPuzzle 1 1, some ⟨0, 0⟩⟩,
  ⟨.user 7, some ⟨7, "a member", none, 0, 0⟩⟩, ⟨.teamMember 1 7, true⟩] noRows

/-- The member asks for help. -/
def askForHelp : OpenRequest := ⟨1, 1, ⟨"help", .unsafeMarkdown, 7, .team, none, 0, 0⟩, 1, 1⟩

/-- The list says that the member can, a minute after the release, and the ticket is opened. -/
theorem opensTicket_iff_openBlock_askForHelp :
    ∃ list d answer d',
      (getTeamPuzzleTickets onePuzzle 0 1 1 false).run.alone (Db.init 60000000 onePuzzleRows) =
        some (.ok list, d) ∧
      (openPuzzleTicket onePuzzle 0 askForHelp).run.alone (Db.init 60000000 onePuzzleRows) =
        some (answer, d') ∧
      list.openBlock = .ok ∧ Creates onePuzzleRows d'.committed := by
  have hv : Referential onePuzzle onePuzzleRows := by
    intro id tk h
    cases h
  obtain ⟨list, d, answer, d', hlist, hopen, hiff⟩ := opensTicket_iff_openBlock onePuzzle 0
    onePuzzleRows 60000000 askForHelp ⟨1, 1, 1, none, "a puzzle", some 0, none, true, 60⟩
    ⟨1, 1, none, "a round"⟩ ⟨1⟩ hv
    ⟨by simp [onePuzzle, Config.puzzle, askForHelp], by simp [onePuzzle, Config.round], rfl, rfl,
      .inl rfl, rfl, fun _ h => (nomatch h), by decide, rfl⟩
  have hblock : ((getTeamPuzzleTickets onePuzzle 0 1 1 false).run.alone
      (Db.init 60000000 onePuzzleRows)).map (fun r => match r.1 with
        | .ok list => list.openBlock
        | .error _ => .disabled) = some .ok := by decide +kernel
  change (getTeamPuzzleTickets onePuzzle 0 1 1 false).run.alone _ = _ at hlist
  rw [hlist] at hblock
  have hok : list.openBlock = .ok := Option.some.inj hblock
  exact ⟨list, d, answer, d', hlist, hopen, hok, hiff.1 hok⟩

end Open

end Helpdesk
