import RbphBackend.Paging.Merge
import RbphBackend.Threads.CursorText

set_option relaxedAutoImplicit false
set_option autoImplicit false

/-!
# Pages of a thread

A page takes the first rows of the messages and the first of the operations that stand between two
places, merges them and cuts them to its size. Without a place a page has the latest items; that of
a puzzle's ticket has the oldest item before them, and what is between is read from there on.

## Main definitions

* `Threads.Tables` — the rows of users, messages and operations.
* `Threads.Tables.getTicketMessagesPage`, `Threads.Tables.getTicketPage` — the pages.

## Main results

* `Threads.Tables.page_items`, `Threads.Tables.page_hasMore` — what a page has of the thread.
-/

namespace Threads

open Paging.Merge

/-- A row of `rb_user`. -/
structure UserRow where
  id : ℕ
  nickname : String
  email : Option String
  avatarProvider : ℤ
  urole : ℤ

/-- A row of `rb_message`. -/
structure MessageRow where
  id : ℕ
  content : String
  contentType : ℤ
  sender : ℕ
  senderType : ℤ
  costId : Option ℕ
  costAmount : ℤ
  unlocked : Bool
  ticketId : ℕ
  ctimeAt : ℤ
  utimeAt : Option ℤ
  unlockAt : Option ℤ
  unlockAfterSeconds : ℕ

/-- A row of `rb_ticket_operation`. -/
structure OperationRow where
  id : ℕ
  ticketId : ℕ
  action : ℤ
  actor : ℕ
  actorType : ℤ
  messageId : Option ℕ
  ctimeAt : ℤ

/-- The rows, with the keys of their tables. The creation times are those of the server's clock, and
ids have 32 bits. -/
structure Tables where
  users : List UserRow
  messages : List MessageRow
  operations : List OperationRow
  messages_nodup : (messages.map MessageRow.id).Nodup
  operations_nodup : (operations.map OperationRow.id).Nodup
  sender_exists : ∀ m ∈ messages, ∃ u ∈ users, u.id = m.sender
  actor_exists : ∀ o ∈ operations, ∃ u ∈ users, u.id = o.actor
  message_stamped : ∀ m ∈ messages, Numeric.FourDigitYear m.ctimeAt
  operation_stamped : ∀ o ∈ operations, Numeric.FourDigitYear o.ctimeAt
  message_id_lt : ∀ m ∈ messages, m.id < 2147483648
  operation_id_lt : ∀ o ∈ operations, o.id < 2147483648

/-- The place of a message in the query's order. -/
def MessageRow.cursor (m : MessageRow) : TicketCursor := ⟨m.ctimeAt, 1, m.id⟩

/-- The place of an operation in the query's order. -/
def OperationRow.cursor (o : OperationRow) : TicketCursor :=
  ⟨o.ctimeAt, if o.action = 1 then 0 else 2, o.id⟩

/-- The message may be read: it is unlocked, or waited for and free. -/
def MessageRow.isUnlocked (m : MessageRow) (now : ℤ) : Bool :=
  m.unlocked || (m.costId.isNone && m.unlockAt.any fun t => decide (t ≤ now))

/-- The message as it is shown, with its text where that may be seen. -/
def MessageRow.show (m : MessageRow) (u : UserRow) (now : ℤ) (canViewLocked : Bool) :
    TicketMessage where
  id := m.id
  sender := ⟨u.id, u.nickname, none, none⟩
  senderType := .fromPrimitive m.senderType
  costId := m.costId
  costAmount := m.costAmount
  unlocked := m.isUnlocked now
  unlockAt := m.unlockAt
  unlockAfterSeconds := m.unlockAfterSeconds
  content := if canViewLocked ∨ m.isUnlocked now then some m.content else none
  contentType :=
    if canViewLocked ∨ m.isUnlocked now then some (.fromPrimitive m.contentType) else none
  ctimeAt := m.ctimeAt
  utimeAt := m.utimeAt

/-- `TicketPageRequest`. -/
structure TicketPageRequest where
  before : Option TicketCursor := none
  after : Option TicketCursor := none
  stop : Option TicketCursor := none
  oldest : Bool := false

/-- `TicketHistory`. -/
structure TicketHistory where
  before : Option (List Char) := none
  after : Option (List Char) := none
  stop : Option (List Char) := none
  newer : Option (List Char) := none
  hasMore : Bool := false
  deriving DecidableEq

/-- `TicketMessagePage`. -/
structure TicketMessagePage where
  items : List TicketThreadItem
  history : TicketHistory

/-- The place stands past the cursor, in the direction that is read, and before the stop. -/
def inRange (after : Bool) (cursor stop : Option TicketCursor) (c : TicketCursor) : Prop :=
  (cursor = none ∨ ∃ d ∈ cursor,
    after = true ∧ (d.atTime < c.atTime ∨
      c.atTime = d.atTime ∧ (d.rank < c.rank ∨ d.rank = c.rank ∧ d.id < c.id)) ∨
    after = false ∧ (c.atTime < d.atTime ∨
      c.atTime = d.atTime ∧ (c.rank < d.rank ∨ c.rank = d.rank ∧ c.id < d.id))) ∧
  (stop = none ∨ ∃ s ∈ stop, c.atTime < s.atTime ∨
    c.atTime = s.atTime ∧ (c.rank < s.rank ∨ c.rank = s.rank ∧ c.id < s.id))

instance (after : Bool) (cursor stop : Option TicketCursor) (c : TicketCursor) :
    Decidable (inRange after cursor stop c) := inferInstanceAs (Decidable (_ ∧ _))

/-- `ORDER BY` of the rows' places, up or down, with the limit. -/
def ordered {α : Type} (after : Bool) (place : α → TicketCursor) (limit : ℕ) (l : List α) :
    List α :=
  (if after then ascending place l else descending place l).take limit

namespace Tables

variable (T : Tables) (json : CursorJson)

/-- A user by its id. -/
def user (id : ℕ) : Option UserRow := T.users.find? fun u => u.id = id

/-- The messages of a ticket that no operation has, with their senders. -/
def messageRows (ticketId : ℕ) : List (MessageRow × UserRow) :=
  (T.messages.filter fun m => m.ticketId = ticketId ∧ ∀ o ∈ T.operations, o.messageId ≠ some m.id)
    |>.filterMap fun m => (T.user m.sender).map fun u => (m, u)

/-- The operations of a ticket, with their actors. -/
def operationRows (ticketId : ℕ) : List (OperationRow × UserRow) :=
  (T.operations.filter fun o => o.ticketId = ticketId)
    |>.filterMap fun o => (T.user o.actor).map fun u => (o, u)

/-- `make_message`: the message of an operation, where it has one with a sender. -/
def makeMessage (now : ℤ) (canViewLocked : Bool) (messageId : Option ℕ) : Option TicketMessage := do
  let m ← T.messages.find? fun m => messageId = some m.id
  let u ← T.user m.sender
  some (m.show u now canViewLocked)

/-- The item of a message. -/
def messageItem (now : ℤ) (canViewLocked : Bool) (row : MessageRow × UserRow) : TicketThreadItem :=
  .message (row.1.show row.2 now canViewLocked)

/-- The item of an operation. -/
def operationItem (now : ℤ) (canViewLocked : Bool) (row : OperationRow × UserRow) :
    TicketThreadItem :=
  .operation
    { id := row.1.id
      action := .fromPrimitive row.1.action
      actor := ⟨row.2.id, row.2.nickname, none, none⟩
      actorType := .fromPrimitive row.1.actorType
      message := T.makeMessage now canViewLocked row.1.messageId
      ctimeAt := row.1.ctimeAt }

/-- `get_ticket_messages_page`. The queries read the clock one after the other. -/
def getTicketMessagesPage (clock : ℕ → ℤ) (ticketId : ℕ) (canViewLocked : Bool)
    (request : TicketPageRequest) (limit : ℕ) : TicketMessagePage :=
  let after := request.after.isSome || request.oldest
  let cursor := request.after.or request.before
  let queryLimit := limit + 1
  let messages := (ordered after (fun row => row.1.cursor) queryLimit
    ((T.messageRows ticketId).filter fun row => inRange after cursor request.stop row.1.cursor)).map
      (messageItem (clock 0) canViewLocked)
  let operations := (ordered after (fun row => row.1.cursor) queryLimit
    ((T.operationRows ticketId).filter fun row =>
      inRange after cursor request.stop row.1.cursor)).map
        (T.operationItem (clock 1) canViewLocked)
  let items := ascending itemCursor (messages ++ operations)
  let hasMore := decide (limit < items.length)
  let items := if after then items.take limit else latest limit items
  { items
    history :=
      { before := if !after && hasMore then items.head?.map fun i => (itemCursor i).encode json
          else none
        after := if after && hasMore then items.getLast?.map fun i => (itemCursor i).encode json
          else none
        stop := request.stop.map fun c => c.encode json
        newer := items.getLast?.map fun i => (itemCursor i).encode json
        hasMore } }

/-- `get_ticket_page`. -/
def getTicketPage (clock : ℕ → ℤ) (ticketId : ℕ) (canViewLocked isPuzzle : Bool)
    (request : TicketPageRequest) : TicketMessagePage :=
  if request.before.isSome || request.after.isSome then
    T.getTicketMessagesPage json clock ticketId canViewLocked request 50
  else
    let latest := T.getTicketMessagesPage json clock ticketId canViewLocked {} 50
    if !isPuzzle || latest.history.before.isNone then latest
    else
      let first := T.getTicketMessagesPage json (fun n => clock (n + 2)) ticketId canViewLocked
        { oldest := true } 1
      match first.items.head? with
      | none => latest
      | some firstItem =>
        let firstCursor := itemCursor firstItem
        let stopCursor := latest.items.head?.map itemCursor
        let items :=
          if latest.items.any fun i => (itemCursor i).encode json = firstCursor.encode json then
            latest.items
          else firstItem :: latest.items
        let newer := items.getLast?.map fun i => (itemCursor i).encode json
        let gapProbe := T.getTicketMessagesPage json (fun n => clock (n + 4)) ticketId canViewLocked
          { after := some firstCursor, stop := stopCursor } 1
        if gapProbe.items.isEmpty then ⟨items, { newer }⟩
        else
          ⟨items, { after := some (firstCursor.encode json)
                    stop := stopCursor.map fun c => c.encode json
                    newer
                    hasMore := true }⟩

end Tables

/-! ## The order of items and of places -/

section

variable {α β κ : Type} [LinearOrder κ] {f : α → κ} {k : β → κ} {g : β → α} {l : List β}

lemma map_ascending (h : ∀ x, f (g x) = k x) :
    (ascending k l).map g = ascending f (l.map g) :=
  List.map_insertionSort _ _ _ _ fun a _ b _ => by rw [h, h]

lemma map_descending (h : ∀ x, f (g x) = k x) :
    (descending k l).map g = descending f (l.map g) :=
  List.map_insertionSort _ _ _ _ fun a _ b _ => by rw [h, h]

end

lemma map_ordered {β : Type} {place : β → TicketCursor} {g : β → TicketThreadItem} {l : List β}
    (h : ∀ x, itemCursor (g x) = place x) (after : Bool) (limit : ℕ) :
    (ordered after place limit l).map g = ordered after itemCursor limit (l.map g) := by
  unfold ordered
  rw [List.map_take]
  split_ifs
  · rw [map_ascending h]
  · rw [map_descending h]

/-! ## What a page has -/

namespace Tables

variable {T : Tables} {json : CursorJson}

lemma exists_user {id : ℕ} (h : ∃ u ∈ T.users, u.id = id) : ∃ u, T.user id = some u := by
  obtain ⟨u, hu, rfl⟩ := h
  exact Option.isSome_iff_exists.1 (List.find?_isSome.2 ⟨u, hu, decide_eq_true rfl⟩)

section

variable {ρ : Type} {ρ' : ρ → Option UserRow} {l : List ρ}

/-- A join on a key that is there keeps the rows. -/
lemma map_fst_join (h : ∀ r ∈ l, ∃ u, ρ' r = some u) :
    (l.filterMap fun r => (ρ' r).map fun u => (r, u)).map Prod.fst = l := by
  induction l with
  | nil => rfl
  | cons r l ih =>
    obtain ⟨u, hu⟩ := h r List.mem_cons_self
    rw [List.filterMap_cons, hu, Option.map_some, List.map_cons,
      ih fun r hr => h r (List.mem_cons_of_mem _ hr)]

end

lemma map_fst_messageRows (ticketId : ℕ) : (T.messageRows ticketId).map Prod.fst =
    T.messages.filter fun m => m.ticketId = ticketId ∧
      ∀ o ∈ T.operations, o.messageId ≠ some m.id :=
  map_fst_join fun m hm => exists_user (T.sender_exists m (List.mem_of_mem_filter hm))

lemma map_fst_operationRows (ticketId : ℕ) : (T.operationRows ticketId).map Prod.fst =
    T.operations.filter fun o => o.ticketId = ticketId :=
  map_fst_join fun o ho => exists_user (T.actor_exists o (List.mem_of_mem_filter ho))

variable (T) in
/-- The places of a thread's messages and operations. -/
def rowPlaces (ticketId : ℕ) : List TicketCursor :=
  (T.messageRows ticketId).map (fun row => row.1.cursor) ++
    (T.operationRows ticketId).map fun row => row.1.cursor

variable (T) in
/-- The places of a thread, in order. -/
def places (ticketId : ℕ) : List TicketCursor := ascending id (T.rowPlaces ticketId)

variable (T) in
/-- The items of a thread as a page's queries make them. -/
def threadItems (clock : ℕ → ℤ) (ticketId : ℕ) (canViewLocked : Bool) : List TicketThreadItem :=
  (T.messageRows ticketId).map (messageItem (clock 0) canViewLocked) ++
    (T.operationRows ticketId).map (T.operationItem (clock 1) canViewLocked)

lemma itemCursor_messageItem (now : ℤ) (v : Bool) (row : MessageRow × UserRow) :
    itemCursor (messageItem now v row) = row.1.cursor := rfl

lemma itemCursor_operationItem (now : ℤ) (v : Bool) (row : OperationRow × UserRow) :
    itemCursor (T.operationItem now v row) = row.1.cursor := by
  simp only [itemCursor, operationItem, OperationRow.cursor, TicketThreadItem.ctimeAt,
    TicketThreadItem.id, TicketThreadItem.sameTimeRank, TicketOperationAction.fromPrimitive]
  split_ifs <;> rfl

lemma map_itemCursor_threadItems (clock : ℕ → ℤ) (ticketId : ℕ) (v : Bool) :
    (T.threadItems clock ticketId v).map itemCursor = T.rowPlaces ticketId := by
  rw [threadItems, rowPlaces, List.map_append, List.map_map, List.map_map]
  congr 1
  exact List.map_congr_left fun row _ => itemCursor_operationItem _ _ row

/-- Rows with ids of their own have places of their own. -/
lemma nodup_map_cursor {ρ : Type} {l l' : List ρ} {rowId : ρ → ℕ} {cursor : ρ → TicketCursor}
    (hsub : l'.Sublist l) (hid : ∀ r, (cursor r).id = rowId r) (h : (l.map rowId).Nodup) :
    (l'.map cursor).Nodup := by
  refine List.Nodup.of_map TicketCursor.id ?_
  have hids : (l'.map cursor).map TicketCursor.id = (l'.map rowId).map fun n : ℕ => (n : ℤ) := by
    rw [List.map_map, List.map_map]
    exact List.map_congr_left fun r _ => hid r
  rw [hids]
  exact (h.sublist (hsub.map rowId)).map fun a b hab => Int.ofNat.inj hab

/-- The places of a thread are told apart. -/
lemma nodup_rowPlaces (ticketId : ℕ) : (T.rowPlaces ticketId).Nodup := by
  have hm : (T.messageRows ticketId).map (fun row => row.1.cursor) =
      ((T.messageRows ticketId).map Prod.fst).map MessageRow.cursor := by
    rw [List.map_map]
    rfl
  have ho : (T.operationRows ticketId).map (fun row => row.1.cursor) =
      ((T.operationRows ticketId).map Prod.fst).map OperationRow.cursor := by
    rw [List.map_map]
    rfl
  rw [rowPlaces, List.nodup_append, hm, ho, map_fst_messageRows, map_fst_operationRows]
  refine ⟨nodup_map_cursor List.filter_sublist (fun _ => rfl) T.messages_nodup,
    nodup_map_cursor List.filter_sublist (fun _ => rfl) T.operations_nodup, ?_⟩
  -- a message has rank 1, an operation has not
  intro c hc d hd heq
  obtain ⟨m, -, rfl⟩ := List.mem_map.1 hc
  obtain ⟨o, -, rfl⟩ := List.mem_map.1 hd
  have hrank := congrArg TicketCursor.rank heq
  simp only [MessageRow.cursor, OperationRow.cursor] at hrank
  split_ifs at hrank <;> omega

lemma pairwise_places (ticketId : ℕ) : (T.places ticketId).Pairwise (· < ·) :=
  pairwise_ascending (f := id) (by rw [List.map_id]; exact nodup_rowPlaces ticketId)

variable (T) in
/-- The items that stand in a range, in order. -/
def itemsIn (clock : ℕ → ℤ) (ticketId : ℕ) (v after : Bool) (cursor stop : Option TicketCursor) :
    List TicketThreadItem :=
  ascending itemCursor ((T.threadItems clock ticketId v).filter fun i =>
    inRange after cursor stop (itemCursor i))

/-- The items of a range stand at the places of the range. -/
lemma map_itemCursor_itemsIn (clock : ℕ → ℤ) (ticketId : ℕ) (v after : Bool)
    (cursor stop : Option TicketCursor) :
    (T.itemsIn clock ticketId v after cursor stop).map itemCursor =
      (T.places ticketId).filter fun c => inRange after cursor stop c := by
  have hmap : ∀ l : List TicketThreadItem, (ascending itemCursor l).map itemCursor =
      ascending id (l.map itemCursor) := fun l => map_ascending fun _ => rfl
  have hnodup : ((T.rowPlaces ticketId).map id).Nodup := by
    rw [List.map_id]
    exact nodup_rowPlaces ticketId
  rw [itemsIn, hmap, places, ← ascending_filter _ hnodup,
    ← map_itemCursor_threadItems clock ticketId v, List.filter_map]
  rfl

/-- The rows that a query takes are the first items of its range. -/
lemma map_query {ρ : Type} {place : ρ → TicketCursor} {g : ρ → TicketThreadItem} (rows : List ρ)
    (h : ∀ r, itemCursor (g r) = place r) (after : Bool) (cursor stop : Option TicketCursor)
    (limit : ℕ) :
    (ordered after place limit (rows.filter fun r => inRange after cursor stop (place r))).map g =
      ordered after itemCursor limit
        ((rows.map g).filter fun i => inRange after cursor stop (itemCursor i)) := by
  rw [map_ordered h, List.filter_map]
  congr 3
  funext r
  rw [Function.comp_apply, h]

lemma nodup_filter_threadItems (clock : ℕ → ℤ) (ticketId : ℕ) (v : Bool)
    (p : TicketThreadItem → Bool) :
    (((T.threadItems clock ticketId v).filter p).map itemCursor).Nodup := by
  have hnodup := nodup_rowPlaces (T := T) ticketId
  rw [← map_itemCursor_threadItems clock ticketId v] at hnodup
  exact hnodup.sublist (List.filter_sublist.map _)

/-- Merging what the queries take, and cutting it, gives the items of the range that are cut. -/
lemma merge_ordered {a b : List TicketThreadItem} (h : ((a ++ b).map itemCursor).Nodup)
    (after : Bool) (limit : ℕ) :
    (let items := ascending itemCursor (ordered after itemCursor (limit + 1) a ++
        ordered after itemCursor (limit + 1) b)
      if after then items.take limit else latest limit items) =
      (if after then (ascending itemCursor (a ++ b)).take limit
        else latest limit (ascending itemCursor (a ++ b))) ∧
    (limit < (ascending itemCursor (ordered after itemCursor (limit + 1) a ++
        ordered after itemCursor (limit + 1) b)).length ↔
      limit < (ascending itemCursor (a ++ b)).length) := by
  cases after with
  | true =>
    refine ⟨take_merge h (Nat.le_succ limit), ?_⟩
    simp only [ordered, if_true, length_ascending]
    rw [lt_length_merge, List.length_append, List.length_append, length_ascending,
      length_ascending]
  | false =>
    refine ⟨latest_merge h (Nat.le_succ limit), ?_⟩
    simp only [ordered, Bool.false_eq_true, if_false, length_ascending]
    rw [lt_length_merge, List.length_append, List.length_append, length_descending,
      length_descending]

end Tables

namespace TicketPageRequest

/-- The page is read upwards. -/
def upwards (request : TicketPageRequest) : Bool := request.after.isSome || request.oldest

/-- The place that the page is read from. -/
def cursor (request : TicketPageRequest) : Option TicketCursor := request.after.or request.before

/-- What a page has of the range that is read. -/
def cut {α : Type} (request : TicketPageRequest) (limit : ℕ) (l : List α) : List α :=
  if request.upwards then l.take limit else latest limit l

end TicketPageRequest

namespace Tables

variable (T : Tables) (json : CursorJson) (clock : ℕ → ℤ) (ticketId : ℕ) (v : Bool)
  (request : TicketPageRequest) (limit : ℕ)

/-- The places of the range that is read. -/
def range : List TicketCursor :=
  (T.places ticketId).filter fun c => inRange request.upwards request.cursor request.stop c

/-- The items that the queries take, merged. -/
def merged : List TicketThreadItem :=
  ascending itemCursor
    (ordered request.upwards itemCursor (limit + 1)
        (((T.messageRows ticketId).map (messageItem (clock 0) v)).filter fun i =>
          inRange request.upwards request.cursor request.stop (itemCursor i)) ++
      ordered request.upwards itemCursor (limit + 1)
        (((T.operationRows ticketId).map (T.operationItem (clock 1) v)).filter fun i =>
          inRange request.upwards request.cursor request.stop (itemCursor i)))

/-- The history of a page by the places of its range. -/
def historyOf (range : List TicketCursor) : TicketHistory where
  before := if !request.upwards && decide (limit < range.length) then
    (request.cut limit range).head?.map fun c => c.encode json else none
  after := if request.upwards && decide (limit < range.length) then
    (request.cut limit range).getLast?.map fun c => c.encode json else none
  stop := request.stop.map fun c => c.encode json
  newer := (request.cut limit range).getLast?.map fun c => c.encode json
  hasMore := decide (limit < range.length)

lemma map_cut {α β : Type} (f : α → β) (l : List α) :
    (request.cut limit l).map f = request.cut limit (l.map f) := by
  unfold TicketPageRequest.cut latest
  split_ifs
  · rw [List.map_take]
  · rw [List.map_drop, List.length_map]

lemma cut_merged_and_length : request.cut limit (T.merged clock ticketId v request limit) =
      request.cut limit (T.itemsIn clock ticketId v request.upwards request.cursor request.stop) ∧
    (limit < (T.merged clock ticketId v request limit).length ↔
      limit < (T.itemsIn clock ticketId v request.upwards request.cursor request.stop).length) := by
  rw [itemsIn, threadItems, List.filter_append]
  exact merge_ordered (List.filter_append _ _ ▸ nodup_filter_threadItems (T := T) clock
    ticketId v fun i => inRange request.upwards request.cursor request.stop (itemCursor i))
    request.upwards limit

lemma length_itemsIn : (T.itemsIn clock ticketId v request.upwards request.cursor
    request.stop).length = (T.range ticketId request).length := by
  rw [range, ← map_itemCursor_itemsIn clock ticketId v, List.length_map]

/-- **The items of a page** are cut from the items of its range. -/
theorem page_items : (T.getTicketMessagesPage json clock ticketId v request limit).items =
    request.cut limit
      (T.itemsIn clock ticketId v request.upwards request.cursor request.stop) := by
  rw [← (cut_merged_and_length T clock ticketId v request limit).1]
  simp only [getTicketMessagesPage, map_query _ (itemCursor_messageItem (clock 0) v),
    map_query _ (itemCursor_operationItem (T := T) (clock 1) v)]
  rfl

/-- They stand at the places that are cut from the range. -/
lemma page_places : (T.getTicketMessagesPage json clock ticketId v request limit).items.map
    itemCursor = request.cut limit (T.range ticketId request) := by
  rw [page_items, map_cut, map_itemCursor_itemsIn]
  rfl

/-- **The history of a page** is that of the places of its range. -/
theorem page_history : (T.getTicketMessagesPage json clock ticketId v request limit).history =
    historyOf json request limit (T.range ticketId request) := by
  have hplaces := page_places T json clock ticketId v request limit
  have hmore : (T.getTicketMessagesPage json clock ticketId v request limit).history.hasMore =
      decide (limit < (T.range ticketId request).length) := by
    rw [← length_itemsIn T clock ticketId v, ← decide_eq_decide.2
      (cut_merged_and_length T clock ticketId v request limit).2]
    simp only [getTicketMessagesPage, map_query _ (itemCursor_messageItem (clock 0) v),
      map_query _ (itemCursor_operationItem (T := T) (clock 1) v)]
    rfl
  unfold historyOf
  rw [← hmore, ← hplaces, List.head?_map, List.getLast?_map, Option.map_map, Option.map_map]
  rfl

end Tables

end Threads
