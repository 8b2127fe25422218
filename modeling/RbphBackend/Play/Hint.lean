import RbphBackend.Play.Submit

set_option relaxedAutoImplicit false
set_option autoImplicit false

/-!
# Purchasing a hint

`purchase_hint` checks on connections of its own whether the hint may be bought and whether the
balance covers its price, runs the hint's backend function, and then takes the price and unlocks the
hint in one transaction.

## Main definitions

* `Play.selectHintInfo`, `Play.hintPurchaseAvailable`, `Play.precheckCurrency` — the checks.
* `Play.purchaseBody` — the transaction.
* `Play.purchaseHint` — the call.
-/

namespace Play

open Concurrency ReadCommitted Numeric Database Currency
open Release (PuzzleRow)

/-! ## Statements -/

/-- A hint a team may purchase. -/
structure HintPurchaseInfo where
  gameId : Id
  team : Id
  teamName : String
  userNickname : String
  puzzle : PuzzleRow
  hint : Hint

section Statements

variable (cfg : Config) (user hint : Id)

/-- The team and the puzzle a purchase is about. -/
def selectHintTarget : Statement (Option (Id × Id)) := .read fun v _ => .ok do
  let h ← cfg.hint hint
  let p ← cfg.puzzle h.puzzleId
  let team ← v (.teamMember user p.gameId)
  return (team, h.puzzleId)

/-- The instant a hint's cooldown counts from. -/
def cooldownOrigin (v : View) (team : Id) (h : Hint) (tp : TeamPuzzle) (releaseAt : ℤ) : Option ℤ :=
  match h.cooldownOrigin with
  | 1 => v (.hintEnable team h.id)
  | 2 => (v (.hintVisibility team h.id)).bind (·.displayedAt)
  | 3 => (v (.hintVisibility team h.id)).bind (·.titleDisplayedAt)
  | _ => some (max tp.ctimeAt releaseAt)

/-- The hint, where the team has its puzzle, has not unlocked it, has it enabled and its cooldown is
over. -/
def selectHintInfo : Statement (Option HintPurchaseInfo) := .read fun v now => .ok do
  let h ← cfg.hint hint
  let p ← cfg.puzzle h.puzzleId
  let r ← cfg.round p.roundId
  let releaseAt ← cfg.effectiveRelease p.id
  let team ← v (.teamMember user r.gameId)
  let tm ← v (.team team)
  let nickname ← cfg.user user
  let tp ← v (.teamPuzzle team p.id)
  let unlocked := (v (.teamHint team h.id)).getD false
  let enabled := h.enableCond.isNone || (v (.hintEnable team h.id)).isSome
  let cooled := (cooldownOrigin v team h tp releaseAt).any fun instant =>
    decide (instant ≤ now - h.cooldown * 1000000)
  if 0 ≤ tp.state ∧ releaseAt ≤ now ∧ !unlocked ∧ enabled ∧ cooled then
    return ⟨r.gameId, team, tm.name, nickname, p, h⟩
  else none

/-- The balance that is to cover the price, where it does. -/
def precheckCurrency (team currency : Id) (costAmount : BigInt) :
    Statement (Option CurrencyEventData) := .read fun v now =>
  match v (.teamCurrency team currency), v (.currency currency) with
  | some tc, some c => do
    let current ← purchaseAmount c.val tc now
    if costAmount.val ≤ 0 ∨ costAmount.val ≤ current.val then
      return some ⟨c.val.id, c.val.slug, c.val.name, c.val.prec, current,
        current.wrappingSub costAmount⟩
    else return none
  | _, _ => return none

/-- `INSERT INTO rb_team_hint .. ON CONFLICT .. DO UPDATE SET unlocked = TRUE`. -/
def upsertTeamHint (team : Id) : Statement Unit := fun _ _ => .ok {
  val := ()
  puts := [⟨.teamHint team hint, some true⟩] }

end Statements

/-- `hint_purchase_available`. -/
def hintPurchaseAvailable (condition : Option String) (state : Gate.RbPuzzleStates)
    (enabled cooldownComplete : Bool) : Bool :=
  enabled && cooldownComplete && hintDisplayConditionMet condition true state enabled cooldownComplete

/-! ## The call -/

structure RbHintTeamStateShowData where
  id : Id
  title : String
  content : String
  contentType : ℤ
  deriving DecidableEq

def Hint.show (h : Hint) : RbHintTeamStateShowData := ⟨h.id, h.title, h.content, h.contentType⟩

/-- The result of a call; the events a hint function emits are left out. -/
inductive PurchaseHintResult where
  | insufficient
  | unavailable
  | ok (result : RbHintTeamStateShowData) (unlocks : List Id) (contentChanged : Bool)
  deriving DecidableEq

section Call

variable (cfg : Config) (t : Tid) (user hint : Id) (info : HintPurchaseInfo)

/-- The price, where the hint has one. -/
def HintPurchaseInfo.cost : Option (Id × BigInt) :=
  info.hint.costId.map fun currency => (currency, info.hint.costAmount)

def purchasedEvent (data : Option CurrencyEventData) : EventLogInput where
  eventType := "hint.purchased"
  gameId := some info.gameId
  teamId := some info.team
  userId := some user
  puzzleId := some info.puzzle.id
  roundId := some info.puzzle.roundId
  hintId := some info.hint.id
  currencyId := data.map (·.id)
  deltaAmount := data.map (·.delta)
  data := .hintPurchased info.hint.id info.hint.title info.hint.costId info.hint.costAmount
    info.puzzle.id info.puzzle.title data

/-- The check of the balance: `none` where it does not cover the price. -/
def precheckHint : Call (Option (Option CurrencyEventData)) :=
  match info.cost with
  | none => return some none
  | some (currency, amount) => do
    let data ← Tx.pool t .stmt (precheckCurrency info.team currency amount)
    return data.map some

/-- The backend function of the hint, where it has one. -/
def runHintFunction (currency : Option CurrencyEventData) : Call Unit :=
  match info.hint.backendFunction with
  | none => return ()
  | some function =>
    match cfg.backend info.puzzle.id with
    | none => throw "hint backend function not found"
    | some backend =>
      if !backend.enabled || !backend.exportEnabled function then
        throw "hint backend function not callable"
      else
        let rt : RuntimeContext := ⟨info.gameId, info.puzzle.id, info.team, user, info.puzzle.title,
          info.userNickname, info.teamName⟩
        executeHintPurchase cfg rt t cfg.normalizeAnswer (backend.hintPurchase function
          ⟨rt, info.hint.id, info.hint.title, info.hint.costId, info.hint.costAmount, currency⟩)

/-- The charge: `none` where the balance does not cover the price. -/
def chargeHint : Call (Option (Option CurrencyEventData)) :=
  match info.cost with
  | none => return some none
  | some (currency, amount) => do
    let data ← Tx.query t (.chargeHint info.team info.hint.id info.cost)
      (chargeCurrency info.team currency amount fun _ _ => true)
    return data.map some

/-- The triggers of the hint; whether one is new. -/
def storeHintTriggers : Call Bool :=
  if info.hint.triggers.isEmpty then return false
  else do
    let inserted ← Tx.query t .stmt (insertTriggers info.team info.puzzle.id info.hint.triggers
      ⟨none, some info.hint.id⟩)
    when (0 < inserted) (Tx.query t .stmt (markTeamDirty info.team))
    return decide (0 < inserted)

/-- The transaction: whether a trigger is new, or `none` where the balance does not cover the
price. -/
def purchaseBody : Call (Bool × Option Bool) := do
  match ← chargeHint t info with
  | none => return (false, none)
  | some data =>
    Tx.query t (.unlockHint info.team info.hint.id) (upsertTeamHint info.hint.id info.team)
    let inserted ← storeHintTriggers t info
    Tx.query t .stmt (insertEvent (purchasedEvent user info data))
    return (true, some inserted)

/-- The call once the hint may be purchased. -/
def purchaseAvailable : Call PurchaseHintResult := do
  match ← precheckHint t info with
  | none => return .insufficient
  | some data =>
    runHintFunction cfg t user info data
    match ← Tx.transaction t .stmt (purchaseBody t user info) with
    | none => return .insufficient
    | some inserted =>
      let unlocks ← unlockAfter cfg t info.team inserted
      return .ok info.hint.show unlocks inserted

/-- `purchase_hint`. -/
def purchaseHint : Call PurchaseHintResult := do
  match ← Tx.pool t .stmt (selectHintTarget cfg user hint) with
  | none => return .unavailable
  | some (team, puzzle) =>
    refreshTeamHintStates cfg t team (some puzzle)
    match ← Tx.pool t .stmt (selectHintInfo cfg user hint) with
    | none => return .unavailable
    | some info =>
      match ← teamGateStateConn cfg (Tx.pool t .stmt) info.team with
      | none => return .unavailable
      | some state =>
        if hintPurchaseAvailable info.hint.displayCondition state true true then
          purchaseAvailable cfg t user info
        else return .unavailable

end Call

end Play
