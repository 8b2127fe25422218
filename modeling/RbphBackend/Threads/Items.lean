import Mathlib.Data.Int.Notation
import Mathlib.Data.Nat.Notation
import Mathlib.Data.Prod.Lex

set_option relaxedAutoImplicit false
set_option autoImplicit false

/-!
# The items of a ticket's thread

A thread shows the messages of a ticket and the operations on it, an operation with the message that
came with it. Items are ordered by the time they were made, their rank and their id; what comes at
one time is opened first, then written to, then closed.

## Main definitions

* `Threads.TicketThreadItem` — a message or an operation.
* `Threads.TicketCursor` — the place of an item.
* `Threads.TicketThreadItem.anonymizeStaff` — the item as players see it where a game has a staff
  identity.

## Main results

* `Threads.itemCursor_anonymizeStaff` — it keeps its place.
-/

namespace Threads

/-- `RbTicketSenderType`. -/
inductive RbTicketSenderType where
  | team
  | host
  | invalid
  deriving DecidableEq

/-- `RbTicketSenderType::from_primitive`. -/
def RbTicketSenderType.fromPrimitive (value : ℤ) : RbTicketSenderType :=
  if value = 0 then .team else if value = 1 then .host else .invalid

/-- `RbContentType`. -/
inductive RbContentType where
  | markdown
  | html
  | unsafeMarkdown
  | invalid
  deriving DecidableEq

/-- `RbContentType::from_primitive`. -/
def RbContentType.fromPrimitive (value : ℤ) : RbContentType :=
  if value = 0 then .markdown else if value = 1 then .html
  else if value = 2 then .unsafeMarkdown else .invalid

/-- `TicketAggreInfoUser`. -/
structure TicketAggreInfoUser where
  id : ℕ
  nickname : String
  avatar : Option String
  email : Option String
  deriving DecidableEq

/-- `RbGameStaffIdentity`: who the staff is to players. -/
structure RbGameStaffIdentity where
  nickname : String
  avatar : Option String
  deriving DecidableEq

/-- `STAFF_ALIAS_USER_ID`. -/
def staffAliasUserId : ℕ := 0

/-- `TicketAggreInfoUser::anonymize`. -/
def TicketAggreInfoUser.anonymize (_ : TicketAggreInfoUser) (identity : RbGameStaffIdentity) :
    TicketAggreInfoUser :=
  ⟨staffAliasUserId, identity.nickname, identity.avatar, none⟩

/-- `TicketMessage`. Instants are microseconds. -/
structure TicketMessage where
  id : ℕ
  sender : TicketAggreInfoUser
  senderType : RbTicketSenderType
  costId : Option ℕ
  costAmount : ℤ
  unlocked : Bool
  unlockAt : Option ℤ
  unlockAfterSeconds : ℕ
  content : Option String
  contentType : Option RbContentType
  ctimeAt : ℤ
  utimeAt : Option ℤ
  deriving DecidableEq

/-- `TicketMessage::anonymize_staff`. -/
def TicketMessage.anonymizeStaff (m : TicketMessage) (identity : RbGameStaffIdentity) :
    TicketMessage :=
  if m.senderType = .host then { m with sender := m.sender.anonymize identity } else m

/-- `TicketOperationAction`. -/
inductive TicketOperationAction where
  | opened
  | close
  | autoCloseSolved
  deriving DecidableEq

/-- `TicketOperationAction::from`. -/
def TicketOperationAction.fromPrimitive (value : ℤ) : TicketOperationAction :=
  if value = 1 then .opened else if value = 2 then .close
  else if value = 3 then .autoCloseSolved else .close

/-- `TicketOperation`. -/
structure TicketOperation where
  id : ℕ
  action : TicketOperationAction
  actor : TicketAggreInfoUser
  actorType : RbTicketSenderType
  message : Option TicketMessage
  ctimeAt : ℤ
  deriving DecidableEq

/-- `TicketThreadItem`. -/
inductive TicketThreadItem where
  | message (m : TicketMessage)
  | operation (o : TicketOperation)
  deriving DecidableEq

namespace TicketThreadItem

/-- `TicketThreadItem::anonymize_staff`. -/
def anonymizeStaff (identity : RbGameStaffIdentity) : TicketThreadItem → TicketThreadItem
  | message m => message (m.anonymizeStaff identity)
  | operation o =>
    operation { o with
      actor := if o.actorType = .host then o.actor.anonymize identity else o.actor
      message := o.message.map fun m => m.anonymizeStaff identity }

/-- `TicketThreadItem::ctime_at`. -/
def ctimeAt : TicketThreadItem → ℤ
  | message m => m.ctimeAt
  | operation o => o.ctimeAt

/-- `TicketThreadItem::id`. -/
def id : TicketThreadItem → ℕ
  | message m => m.id
  | operation o => o.id

/-- `TicketThreadItem::same_time_rank`. -/
def sameTimeRank : TicketThreadItem → ℤ
  | operation o =>
    match o.action with
    | .opened => 0
    | .close => 2
    | .autoCloseSolved => 2
  | message _ => 1

/-- `TicketThreadItem::message_id`. -/
def messageId : TicketThreadItem → Option ℕ
  | message m => some m.id
  | operation o => o.message.map TicketMessage.id

end TicketThreadItem

/-! ## Places -/

/-- `TicketCursor`. -/
structure TicketCursor where
  atTime : ℤ
  rank : ℤ
  id : ℤ
  deriving DecidableEq

namespace TicketCursor

/-- Places are compared by the time, the rank and the id. -/
def key (c : TicketCursor) : ℤ ×ₗ ℤ ×ₗ ℤ := toLex (c.atTime, toLex (c.rank, c.id))

lemma key_injective : Function.Injective key := by
  rintro ⟨t, r, i⟩ ⟨t', r', i'⟩ h
  simp only [key, EmbeddingLike.apply_eq_iff_eq, Prod.mk.injEq] at h
  obtain ⟨rfl, rfl, rfl⟩ := h
  rfl

instance : LinearOrder TicketCursor := LinearOrder.lift' key key_injective

lemma lt_iff {c d : TicketCursor} :
    c < d ↔ c.atTime < d.atTime ∨
      c.atTime = d.atTime ∧ (c.rank < d.rank ∨ c.rank = d.rank ∧ c.id < d.id) := by
  change key c < key d ↔ _
  simp only [key, Prod.Lex.toLex_lt_toLex]

end TicketCursor

/-- `item_cursor`. -/
def itemCursor (item : TicketThreadItem) : TicketCursor :=
  ⟨item.ctimeAt, item.sameTimeRank, item.id⟩

/-- What an item is: a message or an operation, by its id. -/
inductive ItemRef where
  | message (id : ℕ)
  | operation (id : ℕ)
  deriving DecidableEq

/-- What the item is. -/
def TicketThreadItem.ref : TicketThreadItem → ItemRef
  | message m => .message m.id
  | operation o => .operation o.id

/-- What stands at a place. -/
def TicketCursor.ref (c : TicketCursor) : ItemRef :=
  if c.rank = 1 then .message c.id.toNat else .operation c.id.toNat

@[simp] lemma ref_itemCursor (item : TicketThreadItem) : (itemCursor item).ref = item.ref := by
  rcases item with m | o
  · rfl
  · rcases o with ⟨id, action, actor, actorType, message, ctimeAt⟩
    cases action <;> rfl

/-- An item keeps its place without the names of the staff. -/
@[simp] lemma itemCursor_anonymizeStaff (identity : RbGameStaffIdentity) (item : TicketThreadItem) :
    itemCursor (item.anonymizeStaff identity) = itemCursor item := by
  rcases item with m | o
  · simp only [TicketThreadItem.anonymizeStaff, TicketMessage.anonymizeStaff]
    split_ifs <;> rfl
  · rfl

end Threads
