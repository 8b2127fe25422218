import RbphBackend.Concurrency.Work
import RbphBackend.Currency.Charge

set_option relaxedAutoImplicit false
set_option autoImplicit false

/-!
# Purchases of ticket messages

`purchase_ticket_message` unlocks a message for its price. Its first statement locks the message
and checks it, and it takes the price while it holds that lock.

## Main definitions

* `Tickets.purchaseTicketMessage` — the call.
* `Tickets.Purchases` — what a commit of such a call does.
* `Tickets.ChargesFor` — it takes the price of a message.

## Main results

* `Tickets.purchaseTicketMessage_triple` — one call among others.
* `Tickets.chargedOnce_of_reaches` — any number of calls in any interleaving.
-/

namespace Tickets

open Concurrency ReadCommitted Numeric Database Currency

/-! ## The call -/

/-- What a ticket message shows to whoever may see locked messages. -/
structure TicketMessage where
  id : Id
  sender : Id × String
  senderType : ℤ
  costId : Option Id
  costAmount : BigInt
  unlocked : Bool
  unlockAt : Option ℤ
  unlockAfterSeconds : ℤ
  content : Option String
  contentType : Option ℤ
  ctimeAt : ℤ
  utimeAt : Option ℤ
  deriving DecidableEq

inductive PurchaseTicketMessageResult where
  | insufficient
  | unavailable
  | ok (message : TicketMessage)
  deriving DecidableEq

/-- The message and its ticket, as the call reads them. -/
structure MessageInfo where
  teamId : Id
  puzzleId : Option Id
  gameId : Id
  roundId : Option Id
  puzzleTitle : Option String
  costId : Option Id
  costAmount : BigInt

/-- What a request carries. -/
structure Request where
  needsPay : Bool
  userId : Id
  ticketId : Id
  messageId : Id

/-- The message's time lock has run out. -/
def Message.due (m : Message) (now : ℤ) : Bool :=
  match m.unlockAt with
  | none => true
  | some unlockAt => decide (unlockAt ≤ now)

section Call

variable (content : Content) (t : Tid) (req : Request)

/-- The message, if it may be bought; its row is locked. -/
def selectForPurchase : Statement (Option MessageInfo) := fun v now =>
  match v (.message req.messageId), v (.ticket req.ticketId) with
  | some m, some ticket =>
    if m.ticketId = req.ticketId ∧ m.unlocked = false ∧ Message.due m now then
      match v (.team ticket.teamId) with
      | some team =>
        let puzzle := ticket.puzzleId.bind content.puzzle
        .ok {
          val := some ⟨ticket.teamId, ticket.puzzleId, team.gameId, puzzle.map (·.roundId),
            puzzle.map (·.title), m.costId, m.costAmount⟩
          puts := [lockRow v (.message req.messageId)] }
      | none => .ok { val := none }
    else .ok { val := none }
  | _, _ => .ok { val := none }

/-- The currency is one of the game the user plays in with the team. -/
def playsFor (user team : Id) (v : View) (c : CurrencyRow) : Bool :=
  decide (v (.teamMember user c.gameId) = some team)

/-- The `UPDATE` that unlocks the message; it returns whether there was a row to unlock. -/
def unlockMessage : Statement Bool := fun v now =>
  match v (.message req.messageId) with
  | some m =>
    if m.ticketId = req.ticketId ∧ m.unlocked = false then
      .ok {
        val := true
        puts := [⟨.message req.messageId, some { m with unlocked := true, utimeAt := some now }⟩] }
    else .ok { val := false }
  | none => .ok { val := false }

def messagePurchasedEvent (info : MessageInfo) (currency : Option CurrencyEventData) :
    EventLogInput where
  eventType := "ticket.message_purchased"
  gameId := some info.gameId
  teamId := some info.teamId
  userId := some req.userId
  puzzleId := info.puzzleId
  roundId := info.roundId
  ticketId := some req.ticketId
  currencyId := currency.map (·.id)
  deltaAmount := currency.map (·.delta)
  data := .ticketMessagePurchased (!req.needsPay) req.ticketId req.messageId info.puzzleId
    info.puzzleTitle info.costId info.costAmount currency

/-- The end of the transaction, once the price has been taken or there is none to take. -/
def unlockAndLog (info : MessageInfo) (currency : Option CurrencyEventData) :
    Call (Bool × Option PurchaseTicketMessageResult) := do
  match ← Tx.query t .stmt (unlockMessage req) with
  | false => return (false, some .unavailable)
  | true =>
    Tx.query t .stmt (insertEvent (messagePurchasedEvent req info currency))
    return (true, none)

/-- The transaction once the message is locked: it takes the price, if the user is to pay. -/
def chargeAndUnlock (info : MessageInfo) : Call (Bool × Option PurchaseTicketMessageResult) :=
  match req.needsPay, info.costId with
  | true, none => return (false, some .unavailable)
  | true, some costId => do
    match ← Tx.query t (.chargeTicketMessage info.teamId req.messageId)
        (chargeCurrency info.teamId costId info.costAmount (playsFor req.userId info.teamId)) with
    | none => return (false, some .insufficient)
    | some currency => unlockAndLog t req info (some currency)
  | false, _ => unlockAndLog t req info none

/-- The transaction; a result ends it without a commit. -/
def purchaseBody : Call (Bool × Option PurchaseTicketMessageResult) := do
  match ← Tx.query t .stmt (selectForPurchase content req) with
  | none => return (false, some .unavailable)
  | some info => chargeAndUnlock t req info

/-- `get_ticket_message`. -/
def getTicketMessage (message : Id) (canViewLocked : Bool) : Statement (Option TicketMessage) :=
  .read fun v now => .ok <|
    match v (.message message) with
    | none => none
    | some m => (content.user m.sender).map fun nickname =>
      let unlocked := m.unlocked || (m.costId.isNone && m.unlockAt.isSome && Message.due m now)
      let shown := canViewLocked || unlocked
      { id := message
        sender := (m.sender, nickname)
        senderType := m.senderType
        costId := m.costId
        costAmount := m.costAmount
        unlocked := unlocked
        unlockAt := m.unlockAt
        unlockAfterSeconds := m.unlockAfterSeconds
        content := if shown then some m.content else none
        contentType := if shown then some m.contentType else none
        ctimeAt := m.ctimeAt
        utimeAt := m.utimeAt }

/-- `purchase_ticket_message`. -/
def purchaseTicketMessage : Call PurchaseTicketMessageResult := do
  match ← Tx.transaction t .stmt (purchaseBody content t req) with
  | some refused => return refused
  | none =>
    match ← Tx.pool t .stmt (getTicketMessage content req.messageId true) with
    | none => throw "Unlocked ticket message not found"
    | some message => return .ok message

end Call

/-! ## What a commit does -/

/-- The team's row that a purchase charges, before and after. -/
structure ChargedRow where
  team : Id
  currency : Id
  before : TeamCurrencyRow
  after : TeamCurrencyRow

/-- The rows of the store that a purchase of `message` writes: the message, and the team's row
where it takes a price. -/
def writes (message : Id) (charge : Option ChargedRow) : List Key :=
  .message message :: (charge.map fun r => .teamCurrency r.team r.currency).toList

/-- What the log of a purchase says about the charge: there is one exactly where its event has a
currency. -/
def LogsCharge (message : Id) (charge : Option ChargedRow) (event : EventLogInput) : Prop :=
  ∃ staff ticket puzzle title costId costAmount currency,
    event.data = .ticketMessagePurchased staff ticket message puzzle title costId costAmount
      currency ∧ currency.isSome = charge.isSome

/-- **What a purchase commits**: a locked message becomes an unlocked one, the price is taken from
one row or none, and nothing else changes. -/
structure Purchases (e : Commit Val EventLogInput) (message : Id) (m : Message)
    (charge : Option ChargedRow) : Prop where
  locked : e.before (.message message) = some m ∧ m.unlocked = false
  unlocked : e.after (.message message) =
    some { m with unlocked := true, utimeAt := some e.start }
  charged : ∀ r ∈ charge, m.costId = some r.currency ∧
    e.before (.teamCurrency r.team r.currency) = some r.before ∧
    e.after (.teamCurrency r.team r.currency) = some r.after ∧
    ∃ c data, e.before (.currency r.currency) = some c ∧
      Charged c m.costAmount e.start r.before r.after data
  rest : ∀ k, k ∉ writes message charge → e.after k = e.before k
  logged : ∃ event, e.inserted = [event] ∧ LogsCharge message charge event

/-- The commit takes the price of the message. -/
def ChargesFor (message : Id) (e : Commit Val EventLogInput) : Bool :=
  e.inserted.any fun event =>
    match event.data with
    | .ticketMessagePurchased _ _ m _ _ _ _ (some _) => m = message
    | _ => false

/-! ## The statements -/

section Statements

variable {content : Content} {req : Request} {v : View} {now : ℤ}

lemma selectForPurchase_eq_ok {eff : Effect Val EventLogInput (Option MessageInfo)}
    (h : selectForPurchase content req v now = .ok eff) :
    eff = { val := none } ∨ ∃ m info, v (.message req.messageId) = some m ∧ m.unlocked = false ∧
      info.costId = m.costId ∧ info.costAmount = m.costAmount ∧
      eff = { val := some info, puts := [lockRow v (.message req.messageId)] } := by
  unfold selectForPurchase at h
  split at h
  · rename_i m ticket hm htk
    split at h
    · rename_i hcond
      split at h
      · exact .inr ⟨m, _, hm, hcond.2.1, rfl, rfl, (Except.ok.inj h).symm⟩
      · exact .inl (Except.ok.inj h).symm
    · exact .inl (Except.ok.inj h).symm
  · exact .inl (Except.ok.inj h).symm

lemma unlockMessage_eq_ok {eff : Effect Val EventLogInput Bool}
    (h : unlockMessage req v now = .ok eff) :
    eff = { val := false } ∨ ∃ m, v (.message req.messageId) = some m ∧ m.unlocked = false ∧
      eff = {
        val := true
        puts := [⟨.message req.messageId, some { m with unlocked := true, utimeAt := some now }⟩] } := by
  unfold unlockMessage at h
  split at h
  · rename_i m hm
    split at h
    · rename_i hcond
      exact .inr ⟨m, hm, hcond.2, (Except.ok.inj h).symm⟩
    · exact .inl (Except.ok.inj h).symm
  · exact .inl (Except.ok.inj h).symm

end Statements

/-! ## One call -/

/-- The transaction is ready to unlock the message `m`: it holds it locked, and it has taken the
price from one row or none. -/
structure Prepared (message : Id) (m : Message) (charge : Option ChargedRow)
    (W : Work Val EventLogInput) : Prop where
  held : .message message ∈ W.held
  seen : W.seen (.message message) = some m
  locked : m.unlocked = false
  logged : W.logged = []
  rest : ∀ v, W.Agrees v → ∀ k,
    k ∉ (charge.map fun r => Key.teamCurrency r.team r.currency).toList → W.view v k = v k
  charged : ∀ r ∈ charge, m.costId = some r.currency ∧ ∀ v, W.Agrees v →
    v (.teamCurrency r.team r.currency) = some r.before ∧
    W.view v (.teamCurrency r.team r.currency) = some r.after ∧
    ∃ c data, v (.currency r.currency) = some c ∧
      Charged c m.costAmount W.start r.before r.after data

/-- How the body of a purchase ends. -/
def Ends (message : Id) (W : Work Val EventLogInput) :
    Bool × Option PurchaseTicketMessageResult → Prop
  | (true, a) => a = none ∧ ∀ t e, W.Commits t e → ∃ m charge, Purchases e message m charge
  | (false, a) => a = some .insufficient ∨ a = some .unavailable

section Body

variable {content : Content} {t : Tid} {req : Request}
  {ok : Label → Store → Prop} {P P' : Commit Val EventLogInput → Prop}
  {earlier : List (Commit Val EventLogInput)}

/-- The view of a purchase that has unlocked the message. -/
lemma Prepared.purchases {m : Message} {charge : Option ChargedRow} {W : Work Val EventLogInput}
    {e : Commit Val EventLogInput} {event : EventLogInput}
    (h : Prepared req.messageId m charge W) (hagree : W.Agrees e.before)
    (hstart : e.start = W.start)
    (hafter : e.after = Function.update (W.view e.before) (.message req.messageId)
      (some { m with unlocked := true, utimeAt := some W.start }))
    (hlogged : e.inserted = [event]) (hlog : LogsCharge req.messageId charge event) :
    Purchases e req.messageId m charge where
  locked := ⟨(hagree _ h.held).trans h.seen, h.locked⟩
  unlocked := by rw [hafter, hstart, Function.update_self]
  charged := by
    intro r hr
    obtain ⟨hcost, hrow⟩ := h.charged r hr
    obtain ⟨hb, ha, hc⟩ := hrow e.before hagree
    refine ⟨hcost, hb, ?_, hstart ▸ hc⟩
    rw [hafter, Function.update_of_ne (by simp), ha]
  rest := by
    intro k hk
    simp only [writes, List.mem_cons, not_or] at hk
    rw [hafter, Function.update_of_ne hk.1]
    exact h.rest e.before hagree k hk.2
  logged := ⟨event, hlogged, hlog⟩

/-- Nothing has been written before the charge. -/
lemma Prepared.view_eq {message : Id} {m : Message} {W : Work Val EventLogInput} {v : View}
    (h : Prepared message m none W) (hv : W.Agrees v) : W.view v = v :=
  funext fun k => h.rest v hv k (by simp)

/-- Taking the price. -/
lemma Prepared.charge {message team currency : Id} {m : Message} {W : Work Val EventLogInput}
    {v : View} {tc tc' : TeamCurrencyRow} {c : {c : CurrencyRow // c.id = currency}}
    {data : CurrencyEventData} (h : Prepared message m none W) (hv : W.Agrees v)
    (hcost : m.costId = some currency) (htc : v (.teamCurrency team currency) = some tc)
    (hc : v (.currency currency) = some c) (hcharged : Charged c m.costAmount W.start tc tc' data) :
    Prepared message m (some ⟨team, currency, tc, tc'⟩) (W.after v ({
      val := some data
      puts := [⟨.teamCurrency team currency, some tc'⟩, lockRow v (.currency currency)] } :
        Effect Val EventLogInput (Option CurrencyEventData))) := by
  refine ⟨List.mem_append_right _ h.held, ?_, h.locked, by simp [h.logged], fun x hx k hk => ?_,
    fun r hr => ?_⟩
  · exact (hv _ h.held).trans h.seen
  · have hcur : x (.currency currency) = v (.currency currency) :=
      hx.of_keys (by simp [Effect.keys, lockRow])
    simp only [Option.map_some, Option.toList_some, List.mem_singleton] at hk
    rw [Work.view_after, h.view_eq (hv.of_after hx)]
    by_cases hkc : k = .currency currency
    · subst hkc
      simp [lockRow, hcur]
    · simp [lockRow, Function.update_of_ne hk, Function.update_of_ne hkc]
  · obtain rfl : (⟨team, currency, tc, tc'⟩ : ChargedRow) = r := by simpa using hr
    refine ⟨hcost, fun x hx => ⟨?_, ?_, c, data, ?_, hcharged⟩⟩
    · exact (hx.of_keys (by simp [Effect.keys, lockRow])).trans htc
    · rw [Work.view_after]
      simp [lockRow]
    · exact (hx.of_keys (by simp [Effect.keys, lockRow])).trans hc

/-- The event says whether there was a charge. -/
lemma logsCharge_messagePurchasedEvent {info : MessageInfo} {charge : Option ChargedRow}
    {currency : Option CurrencyEventData} (h : currency.isSome = charge.isSome) :
    LogsCharge req.messageId charge (messagePurchasedEvent req info currency) :=
  ⟨_, _, _, _, _, _, _, rfl, h⟩

/-- What holds of the session once the body has ended. -/
abbrev BodyPost (t : Tid) (earlier : List (Commit Val EventLogInput)) (message : Id) :
    Except String (Bool × Option PurchaseTicketMessageResult) → Store → Prop :=
  Post (fun r d => ∃ W, Working t W d ∧ W.earlier = earlier ∧ Ends message W r)
    fun _ d => True ∧ commitsOf t d = earlier

/-- A body that ends as it should. -/
lemma ends_triple {W : Work Val EventLogInput} {message : Id}
    {r : Bool × Option PurchaseTicketMessageResult} (hearlier : W.earlier = earlier)
    (h : Ends message W r) :
    Prog.Triple (Rely P t) ok (Plain fun _ => Moves P' t) (Working t W)
      (pure r : Call (Bool × Option PurchaseTicketMessageResult)).run
      (BodyPost t earlier message) :=
  Fallible.pure_triple stable_working fun _ hW => ⟨W, hW, hearlier, h⟩

/-- **The end of the transaction** unlocks the message and logs the purchase. -/
lemma unlockAndLog_triple {m : Message} {charge : Option ChargedRow} {W : Work Val EventLogInput}
    {info : MessageInfo} {currency : Option CurrencyEventData}
    (hearlier : W.earlier = earlier) (h : Prepared req.messageId m charge W)
    (hc : currency.isSome = charge.isSome) :
    Prog.Triple (Rely P t) ok (Plain fun _ => Moves P' t) (Working t W)
      (unlockAndLog t req info currency).run (BodyPost t earlier req.messageId) := by
  refine Tx.query_bind_triple (fun _ => True) (fun _ _ _ => trivial)
    (fun v eff hv _ he => ?_) fun _ _ _ _ _ _ hj => ⟨trivial, hj.trans hearlier⟩
  rcases unlockMessage_eq_ok he with rfl | ⟨m', hm', -, rfl⟩
  · exact ends_triple hearlier (.inr rfl)
  · refine Tx.query_bind_triple (fun _ => True) (fun _ _ _ => trivial)
      (fun v' eff' hv' _ he' => ?_) fun _ _ _ _ _ _ hj => ⟨trivial, hj.trans hearlier⟩
    obtain rfl := Except.ok.inj he'
    refine ends_triple hearlier ⟨rfl, fun u e he => ?_⟩
    have hagree : W.Agrees e.before := hv.of_after (hv'.of_after he.agrees)
    -- the row the `UPDATE` saw is the one locked at the beginning
    have hview : W.view v (.message req.messageId) = some m := by
      rw [h.rest v hv _ (by cases charge <;> simp), hv _ h.held, h.seen]
    obtain rfl : m = m' := Option.some.inj (hview.symm.trans hm')
    have hlogged : e.inserted = [messagePurchasedEvent req info currency] := by
      rw [he.inserted]
      simp [h.logged]
    refine ⟨m, charge, h.purchases hagree he.start ?_ hlogged (logsCharge_messagePurchasedEvent hc)⟩
    rw [he.after]
    simp

/-- **The transaction once the message is locked.** -/
lemma chargeAndUnlock_triple {m : Message} {W : Work Val EventLogInput} {info : MessageInfo}
    (hearlier : W.earlier = earlier) (h : Prepared req.messageId m none W)
    (hcost : info.costId = m.costId) (hamount : info.costAmount = m.costAmount) :
    Prog.Triple (Rely P t) ok (Plain fun _ => Moves P' t) (Working t W)
      (chargeAndUnlock t req info).run (BodyPost t earlier req.messageId) := by
  unfold chargeAndUnlock
  rw [hcost, hamount]
  cases req.needsPay with
  | false => exact unlockAndLog_triple hearlier h rfl
  | true =>
    cases hcid : m.costId with
    | none => exact ends_triple hearlier (.inr rfl)
    | some costId =>
      refine Tx.query_bind_triple (fun _ => True) (fun _ _ _ => trivial)
        (fun v eff hv _ he => ?_) fun _ _ _ _ _ _ hj => ⟨trivial, hj.trans hearlier⟩
      rw [h.view_eq hv] at he
      rcases chargeCurrency_eq_ok he with rfl | ⟨tc, tc', c, data, htc, hc, -, hch, rfl⟩
      · exact ends_triple hearlier (.inl rfl)
      · exact unlockAndLog_triple hearlier (h.charge hv hcid htc hc hch) rfl

/-- **The body of the transaction.** -/
lemma purchaseBody_triple (start : ℤ) (v₀ : View) :
    Prog.Triple (Rely P t) ok (Plain fun _ => Moves P' t)
      (Working t (Work.begun start v₀ earlier)) (purchaseBody content t req).run
      (BodyPost t earlier req.messageId) := by
  refine Tx.query_bind_triple (fun _ => True) (fun _ _ _ => trivial)
    (fun v eff hv _ he => ?_) fun _ _ _ _ _ _ hj => ⟨trivial, hj⟩
  rcases selectForPurchase_eq_ok he with rfl | ⟨m, info, hm, hlocked, hcost, hamount, rfl⟩
  · exact ends_triple rfl (.inr rfl)
  · refine chargeAndUnlock_triple rfl ?_ hcost hamount
    refine ⟨by simp [Effect.keys, lockRow], hm, hlocked, rfl, fun x hx k _ => ?_, by simp⟩
    have hlock : x (.message req.messageId) = v (.message req.messageId) :=
      hx.of_keys (by simp [Effect.keys, lockRow])
    simp [lockRow, ← hlock, Function.update_eq_self]

end Body

/-- A commit that is a purchase. -/
def IsPurchase (e : Commit Val EventLogInput) : Prop := ∃ message m charge, Purchases e message m charge

/-- A purchase keeps every message, and its unlocked state. -/
lemma IsPurchase.message {e : Commit Val EventLogInput} (h : IsPurchase e) {message : Id}
    {m : Message} (hm : e.before (.message message) = some m) :
    ∃ m', e.after (.message message) = some m' ∧ (m.unlocked = true → m'.unlocked = true) := by
  obtain ⟨message', m', charge, hp⟩ := h
  by_cases heq : message = message'
  · subst heq
    exact ⟨_, hp.unlocked, fun _ => rfl⟩
  · refine ⟨m, ?_, id⟩
    rw [hp.rest _ ?_, hm]
    cases charge <;> simp [writes, heq]

/-- Every message's sender is a user, as the foreign key has it. -/
def SendersExist (content : Content) (v : View) : Prop :=
  ∀ message m, v (.message message) = some m → (content.user m.sender).isSome

/-- A purchase keeps the senders. -/
lemma IsPurchase.sendersExist {content : Content} {e : Commit Val EventLogInput}
    (h : IsPurchase e) (hs : SendersExist content e.before) : SendersExist content e.after := by
  obtain ⟨message', m', charge, hp⟩ := h
  intro message m hm
  by_cases heq : message = message'
  · subst heq
    obtain rfl := Option.some.inj (hp.unlocked.symm.trans hm)
    exact hs message m' hp.locked.1
  · rw [hp.rest _ (by cases charge <;> simp [writes, heq])] at hm
    exact hs message m hm

/-- What a call guarantees of its result: one that does not hand out the message has committed
nothing, and no transaction of it is open. -/
def Answered (t : Tid) : Except String PurchaseTicketMessageResult → Store → Prop
  | .ok (.ok _), _ => True
  | _, d => NoTx t d ∧ commitsOf t d = []

section Call

variable {content : Content} {t : Tid} {req : Request} {ok : Label → Store → Prop} {v₀ : View}

/-- A message that has been bought can be read. -/
lemma message_of_bought (hsenders : SendersExist content v₀) {d : Store}
    (hj : Journaled IsPurchase v₀ d) {e : Commit Val EventLogInput} (he : e ∈ d.journal)
    {message : Id} {m : Message} (hm : e.before (.message message) = some m) :
    ∃ m' nickname, d.committed (.message message) = some m' ∧
      content.user m'.sender = some nickname := by
  obtain ⟨l₁, l₂, hl, -, hafter⟩ := hj.linked.split he
  have hrow : ∃ m', d.committed (.message message) = some m' := by
    refine hafter.invariant (p := fun v => ∃ m', v (.message message) = some m') ?_ ?_
    · obtain ⟨m', hm', -⟩ := (hj.commits e he).message hm
      exact ⟨m', hm'⟩
    · rintro e' he' ⟨m', hm'⟩
      have hmem : e' ∈ d.journal := by simp [hl, he']
      obtain ⟨m'', hm'', -⟩ := (hj.commits e' hmem).message hm'
      exact ⟨m'', hm''⟩
  have hall : SendersExist content d.committed :=
    hj.linked.invariant hsenders fun e' he' hs => (hj.commits e' he').sendersExist hs
  obtain ⟨m', hm'⟩ := hrow
  obtain ⟨nickname, hu⟩ := Option.isSome_iff_exists.mp (hall message m' hm')
  exact ⟨m', nickname, hm', hu⟩

/-- The transaction's commits are purchases. -/
lemma purchaseTx_triple (hok : ∀ l d, ok l d → Journaled IsPurchase v₀ d) :
    Prog.Triple (Rely IsPurchase t) ok (Plain fun _ => Moves IsPurchase t)
      (fun d => NoTx t d ∧ commitsOf t d = [])
      (Tx.transaction t .stmt (purchaseBody content t req) :
        Call (Option PurchaseTicketMessageResult)).run
      (Ended t [] (Ends req.messageId) fun _ => True) := by
  refine Tx.transaction_work_triple (fun d ho => (hok _ d ho).wf)
    (fun start v _ => purchaseBody_triple start v)
    fun W a e hB he => ?_
  obtain ⟨m, charge, hp⟩ := hB.2 t e he
  exact ⟨_, m, charge, hp⟩

/-- **One call** among others: it answers without the message only where it has committed
nothing. -/
theorem purchaseTicketMessage_triple (hsenders : SendersExist content v₀)
    (hok : ∀ l d, ok l d → Journaled IsPurchase v₀ d) :
    Prog.Triple (Rely IsPurchase t) ok (Plain fun _ => Moves IsPurchase t)
      (fun d => NoTx t d ∧ commitsOf t d = []) (purchaseTicketMessage content t req).run
      (Answered t) := by
  have hrefl : ∀ d : Store, Rely IsPurchase t d d := Rely.refl IsPurchase t
  have hstable : Stable (Rely IsPurchase t) fun d : Store => NoTx t d ∧ commitsOf t d = [] :=
    stable_noTx.and (stable_commitsOf (p := fun l => l = []))
  have hended : ∀ a, Stable (Rely IsPurchase t)
      (Ended t [] (Ends req.messageId) (fun _ => True) (.ok a)) := fun a => stable_ended (.ok a)
  refine Fallible.bind_triple (purchaseTx_triple hok) (fun _ _ _ _ h => h) hrefl
    (fun e d d' h hr => hstable d d' ⟨h.1, h.2.2⟩ hr) fun a => ?_
  cases a with
  | some refused =>
    -- the transaction was dropped, and what refuses the purchase is not the message
    refine Fallible.pure_triple (hended (some refused)) ?_
    rintro d ⟨hno, ⟨W, e, hB, -, -⟩ | ⟨⟨W, hB⟩, hj⟩⟩
    · exact absurd hB.1 (by simp)
    · rcases hB with hB | hB <;> obtain rfl := Option.some.inj hB <;> exact ⟨hno, hj⟩
  | none =>
    refine Fallible.bind_triple (B := fun b _ => b.isSome = true) (F := fun _ _ => False)
      (Tx.pool_read_triple (hended none) (fun _ => Stable.const _)
        (fun _ => Stable.const _) ?_ fun _ _ _ _ h => by simp at h)
      (fun _ _ _ _ h => h) hrefl (fun _ _ _ h => h.elim) fun b => ?_
    · -- the message bought is there to be read
      rintro d b ⟨-, ⟨W, e, hB, he, hj⟩ | ⟨⟨W, hB⟩, -⟩⟩ ho hb
      · obtain ⟨m, charge, hp⟩ := hB.2 t e he
        have hmem : e ∈ d.journal := by
          have he' : e ∈ commitsOf t d := by simp [hj]
          exact (List.mem_filter.mp he').1
        obtain ⟨m', nickname, hm', hu⟩ := message_of_bought hsenders (hok _ d ho) hmem hp.locked.1
        rw [hm'] at hb
        obtain rfl := Except.ok.inj hb
        simp [hu]
      · simp [Ends] at hB
    · cases b with
      | none => exact fun d h => by simp at h
      | some message => exact Fallible.pure_triple (Stable.const _) fun _ _ => trivial

end Call

/-! ## Any number of calls -/

/-- The log tells which purchases took a price. -/
lemma Purchases.chargesFor_iff {e : Commit Val EventLogInput} {message : Id} {m : Message}
    {charge : Option ChargedRow} (h : Purchases e message m charge) (message' : Id) :
    ChargesFor message' e = true ↔ message' = message ∧ charge.isSome := by
  obtain ⟨event, hins, staff, ticket, puzzle, title, costId, costAmount, currency, hdata, hcur⟩ :=
    h.logged
  rw [← hcur, ChargesFor, hins, List.any_cons, List.any_nil, Bool.or_false, hdata]
  cases currency <;> simp [eq_comm]

section Run

variable {content : Content} {reqs : Tid → Request}
  {c c' : Config Label Store (Except String PurchaseTicketMessageResult)}

/-- **A message is charged for at most once**: in every run of purchases, however they are
interleaved, the price of a message is taken by at most one commit, every commit moves a message
from locked to unlocked, and a call that does not hand out the message has committed nothing. -/
theorem chargedOnce_of_reaches
    (hcalls : ∀ t, c.threads t = (purchaseTicketMessage content t (reqs t)).run)
    (hidle : c.shared.Idle) (hsenders : SendersExist content c.shared.committed)
    (hrun : Reaches Tick Always c c') :
    Linked c.shared.committed c'.shared.journal c'.shared.committed ∧
      (∀ message, c'.shared.journal.countP (ChargesFor message) ≤ 1) ∧
      (∀ e ∈ c'.shared.journal, ∃ message m charge, Purchases e message m charge ∧
        (ChargesFor message e = true ↔ charge.isSome)) ∧
      ∀ t r, c'.threads t = .ret r → Answered t r c'.shared := by
  have hstart : ∀ t, NoTx t c.shared ∧ commitsOf t c.shared = [] := by
    intro t
    exact ⟨hidle.sess t, by simp [commitsOf, hidle.journal]⟩
  obtain ⟨hj, hanswers⟩ := journal_of_reaches (P := IsPurchase) (Q := Answered)
    hidle (fun t => by
      rw [hcalls t]
      exact purchaseTicketMessage_triple hsenders (fun _ _ h => h.2) _ (hstart t)) hrun
  refine ⟨hj.linked, fun message => ?_, fun e he => ?_, hanswers⟩
  · refine hj.linked.countP_le_one
      (p := fun v => ∃ m, v (.message message) = some m ∧ m.unlocked = true)
      (fun e he hx => ?_) fun e he => ?_
    · obtain ⟨message', m, charge, hp⟩ := hj.commits e he
      obtain ⟨rfl, -⟩ := (hp.chargesFor_iff message).mp hx
      refine ⟨?_, _, hp.unlocked, rfl⟩
      rintro ⟨m', hm', hu⟩
      obtain rfl := Option.some.inj (hp.locked.1.symm.trans hm')
      rw [hp.locked.2] at hu
      simp at hu
    · rintro ⟨m, hm, hu⟩
      obtain ⟨m', hm', hu'⟩ := (hj.commits e he).message hm
      exact ⟨m', hm', hu' hu⟩
  · obtain ⟨message, m, charge, hp⟩ := hj.commits e he
    exact ⟨message, m, charge, hp, by simp [hp.chargesFor_iff]⟩

/-- A message locked at a price of 10, and a team with a balance of 100 two of whose members buy
it. -/
def twoBuyers : Config Label Store (Except String PurchaseTicketMessageResult) where
  shared := Db.init 0 (applyPuts [⟨.team 1, some ⟨1, "a team", false, false, none, none, false⟩⟩,
    ⟨.teamMember 7 1, some 1⟩, ⟨.teamMember 8 1, some 1⟩, ⟨.currency 1, some ⟨points, points_id⟩⟩,
    ⟨.teamCurrency 1 1, some ⟨100, 0, false, 0⟩⟩, ⟨.ticket 1, some ⟨1, 1, none⟩⟩,
    ⟨.message 1, some ⟨1, 9, 1, "the answer", 2, some 1, 10, false, none, 0, 0, none⟩⟩] noRows)
  threads t := (purchaseTicketMessage ⟨fun _ => some "a user", fun _ => none⟩ t
    ⟨true, if t = 0 then 7 else 8, 1, 1⟩).run

/-- Both have begun their transactions when the first buys; the second is refused. -/
theorem chargedOnce_of_reaches_twoBuyers : ∃ c', Reaches Tick Always twoBuyers c' ∧
    (c'.threads 1).result? = some (.ok .unavailable) ∧
    c'.shared.committed (.teamCurrency 1 1) = some ⟨90, 0, false, 0⟩ ∧
    c'.shared.journal.length = 1 ∧
    ∀ message, c'.shared.journal.countP (ChargesFor message) ≤ 1 := by
  obtain ⟨c', hrun, hc'⟩ := exists_reaches_of_exec Tick Always (c := twoBuyers)
    ([.thread 0, .thread 1] ++ List.replicate 6 (.thread 0) ++ List.replicate 2 (.thread 1))
    (p := fun c' => (c'.threads 1).result? = some (.ok .unavailable) ∧
      c'.shared.committed (.teamCurrency 1 1) = some ⟨90, 0, false, 0⟩ ∧
      c'.shared.journal.length = 1) (by simp) (by decide +kernel)
  simp only [decide_eq_true_eq] at hc'
  refine ⟨c', hrun, hc'.1, hc'.2.1, hc'.2.2, ?_⟩
  exact (chargedOnce_of_reaches (fun _ => rfl) (Db.init_idle _ _) (fun _ _ _ => rfl) hrun).2.1

end Run

end Tickets
