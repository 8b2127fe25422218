import RbphBackend.Paging.Feed
import RbphBackend.Threads.Items

set_option relaxedAutoImplicit false
set_option autoImplicit false

/-!
# The inbox of a team

A reply of the staff is put into the inbox of the team of its ticket. The team reads the inbox page by
page, the latest first, and marks what it has read: one by one, some of them, those of the messages it
has seen, or all.

## Main definitions

* `Notifications.Table` — the notifications.
* `Notifications.markRead`, `Notifications.markManyRead`, `Notifications.markTicketMessagesRead`,
  `Notifications.markAllRead` — the marks.
* `Notifications.listForTeam`, `Notifications.unreadCount` — what a team sees.
* `Notifications.Write`, `Notifications.Table.run` — what is written, in any order.
* `Notifications.Reads` — the pages that a team gets, among the writes of others.

## Main results

* `Notifications.mark_of_run` — a mark stays as it was first made.
* `Notifications.unreadCount_write` — what a mark says of the number of the unread.
* `Notifications.reads_all` — what a team has read in the end.
-/

namespace Notifications

open Threads

abbrev Id := ℕ

/-! ## The table -/

/-- `NotificationKind`. -/
inductive NotificationKind where
  | ticketReply
  | unknown (value : ℤ)
  deriving DecidableEq

/-- `i16::from(NotificationKind)`. -/
def NotificationKind.value : NotificationKind → ℤ
  | .ticketReply => 1
  | .unknown value => value

/-- The data of a reply. -/
structure TicketReplyData where
  ticketId : Id
  messageId : Id
  puzzleId : Option Id
  puzzleTitle : Option String
  deriving DecidableEq

/-- A row of `rb_notification`. -/
structure Row where
  id : Id
  teamId : Id
  kind : ℤ
  sourceId : Id
  actor : Option Id
  data : TicketReplyData
  readAt : Option ℤ
  ctimeAt : ℤ
  deriving DecidableEq

/-- What a notification is told by in its kind. -/
def Row.source (r : Row) : ℤ × Id := (r.kind, r.sourceId)

/-- The rows: their ids differ, and a source has one notification. -/
structure Table where
  rows : List Row
  ids : (rows.map Row.id).Nodup
  sources : (rows.map Row.source).Nodup

/-- The ticket of a reply, with its puzzle. -/
structure Ticket where
  id : Id
  teamId : Id
  puzzleId : Option Id
  puzzleTitle : Option String
  deriving DecidableEq

/-- The row that `insert_ticket_message_conn` inserts. -/
def replyRow (id : Id) (now : ℤ) (ticket : Ticket) (message sender : Id) : Row where
  id := id
  teamId := ticket.teamId
  kind := NotificationKind.ticketReply.value
  sourceId := message
  actor := some sender
  data := ⟨ticket.id, message, ticket.puzzleId, ticket.puzzleTitle⟩
  readAt := none
  ctimeAt := now

/-- The `INSERT`, with the keys of the table; `id` is what the sequence gives. -/
def Table.insert (t : Table) (r : Row) : Table :=
  if h : r.id ∉ t.rows.map Row.id ∧ r.source ∉ t.rows.map Row.source then
    ⟨r :: t.rows, List.nodup_cons.2 ⟨h.1, t.ids⟩, List.nodup_cons.2 ⟨h.2, t.sources⟩⟩
  else t

/-- `ON DELETE CASCADE` from the team. -/
def Table.deleteTeam (t : Table) (teamId : Id) : Table where
  rows := t.rows.filter fun r => decide (r.teamId ≠ teamId)
  ids := t.ids.sublist (List.filter_sublist.map _)
  sources := t.sources.sublist (List.filter_sublist.map _)

/-! ## Marks -/

/-- A row after a mark. -/
def Row.marked (now : ℤ) (p : Row → Bool) (r : Row) : Row :=
  if p r && r.readAt.isNone then { r with readAt := some now } else r

lemma Row.marked_id {now : ℤ} {p : Row → Bool} (r : Row) : (r.marked now p).id = r.id := by
  unfold marked
  split_ifs <;> rfl

lemma Row.marked_source {now : ℤ} {p : Row → Bool} (r : Row) :
    (r.marked now p).source = r.source := by
  unfold marked
  split_ifs <;> rfl

lemma Row.marked_teamId {now : ℤ} {p : Row → Bool} (r : Row) :
    (r.marked now p).teamId = r.teamId := by
  unfold marked
  split_ifs <;> rfl

section Marks

variable (t : Table) (now : ℤ)

/-- The `UPDATE` of the unread rows that meet a condition, and whether there are any. -/
def Table.mark (p : Row → Bool) : Table × Bool where
  fst :=
    { rows := t.rows.map (Row.marked now p)
      ids := by
        rw [List.map_map, show Row.id ∘ Row.marked now p = Row.id from funext Row.marked_id]
        exact t.ids
      sources := by
        rw [List.map_map, show Row.source ∘ Row.marked now p = Row.source from
          funext Row.marked_source]
        exact t.sources }
  snd := t.rows.any fun r => p r && r.readAt.isNone

/-- `mark_read`. -/
def markRead (teamId notificationId : Id) : Table × Bool :=
  t.mark now fun r => decide (r.id = notificationId ∧ r.teamId = teamId)

/-- `mark_many_read`. -/
def markManyRead (teamId : Id) (notificationIds : List Id) : Table × Bool :=
  if notificationIds.isEmpty then (t, false)
  else t.mark now fun r => decide (r.teamId = teamId ∧ r.id ∈ notificationIds)

/-- `mark_ticket_messages_read`. -/
def markTicketMessagesRead (teamId : Id) (messageIds : List Id) : Table × Bool :=
  if messageIds.isEmpty then (t, false)
  else t.mark now fun r => decide (r.teamId = teamId ∧
    r.kind = NotificationKind.ticketReply.value ∧ r.sourceId ∈ messageIds)

/-- `mark_all_read`. -/
def markAllRead (teamId : Id) : Table × Bool :=
  t.mark now fun r => decide (r.teamId = teamId)

end Marks

/-! ## What a team sees -/

/-- `NotificationActor`. -/
structure NotificationActor where
  id : Id
  nickname : String
  avatar : Option String
  deriving DecidableEq

/-- `notification_actor`. -/
def notificationActor (id : Id) (nickname : String) :
    Option RbGameStaffIdentity → NotificationActor
  | some identity => ⟨staffAliasUserId, identity.nickname, identity.avatar⟩
  | none => ⟨id, nickname, none⟩

/-- `TeamNotification`. -/
structure TeamNotification where
  id : Id
  kind : ℤ
  actor : Option NotificationActor
  data : TicketReplyData
  read : Bool
  readAt : Option ℤ
  ctimeAt : ℤ
  deriving DecidableEq

/-- `NotificationUnreadCount`. -/
structure NotificationUnreadCount where
  count : ℕ
  dmCount : ℕ
  deriving DecidableEq

section Views

variable (users : Id → Option String) (identity : Option RbGameStaffIdentity)

/-- What is shown of a row; `users` has the nicknames. -/
def Row.shown (r : Row) : TeamNotification where
  id := r.id
  kind := r.kind
  actor := r.actor.bind fun id => (users id).map fun nickname =>
    notificationActor id nickname identity
  data := r.data
  read := r.readAt.isSome
  readAt := r.readAt
  ctimeAt := r.ctimeAt

/-- The rows of a team. -/
def Table.ofTeam (t : Table) (teamId : Id) : List Row :=
  t.rows.filter fun r => decide (r.teamId = teamId)

/-- `list_for_team`. -/
def listForTeam (t : Table) (teamId : Id) (before : Option ℕ) (limit : ℕ) :
    List TeamNotification :=
  (Paging.Feed.page Row.id limit (t.ofTeam teamId) before).map (Row.shown users identity)

/-- `get_for_team`. -/
def getForTeam (t : Table) (teamId notificationId : Id) : Option TeamNotification :=
  (t.rows.find? fun r => decide (r.teamId = teamId ∧ r.id = notificationId)).map
    (Row.shown users identity)

/-- `unread_count`. -/
def unreadCount (t : Table) (teamId : Id) : NotificationUnreadCount where
  count := (t.ofTeam teamId).countP fun r => r.readAt.isNone
  dmCount := (t.ofTeam teamId).countP fun r => r.readAt.isNone && r.data.puzzleId.isNone

end Views

/-! ## Runs -/

/-- What is written. -/
inductive Write where
  | reply (id : Id) (now : ℤ) (ticket : Ticket) (message sender : Id)
  | read (now : ℤ) (teamId notificationId : Id)
  | readMany (now : ℤ) (teamId : Id) (notificationIds : List Id)
  | readTicketMessages (now : ℤ) (teamId : Id) (messageIds : List Id)
  | readAll (now : ℤ) (teamId : Id)
  | deleteTeam (teamId : Id)
  deriving DecidableEq

/-- A write, and what it returns. -/
def Table.write (t : Table) : Write → Table × Bool
  | .reply id now ticket message sender => (t.insert (replyRow id now ticket message sender), true)
  | .read now teamId notificationId => markRead t now teamId notificationId
  | .readMany now teamId notificationIds => markManyRead t now teamId notificationIds
  | .readTicketMessages now teamId messageIds => markTicketMessagesRead t now teamId messageIds
  | .readAll now teamId => markAllRead t now teamId
  | .deleteTeam teamId => (t.deleteTeam teamId, true)

/-- Writes, one after the other. -/
def Table.run (t : Table) (writes : List Write) : Table :=
  writes.foldl (fun t w => (t.write w).1) t

/-- The instant of a mark, and the team that it is made for. -/
def Write.mark? : Write → Option (ℤ × Id)
  | .read now teamId _ | .readMany now teamId _ | .readTicketMessages now teamId _
  | .readAll now teamId => some (now, teamId)
  | .reply .. | .deleteTeam _ => none

section Marks

variable {t : Table} {now : ℤ} {p : Row → Bool} {r : Row} {teamId : Id}

lemma eq_of_id_eq {r r' : Row} (h : r ∈ t.rows) (h' : r' ∈ t.rows) (hid : r.id = r'.id) : r = r' :=
  List.inj_on_of_nodup_map t.ids h h' hid

lemma mem_insert {r' : Row} (h : r ∈ t.rows) : r ∈ (t.insert r').rows := by
  unfold Table.insert
  split_ifs
  · exact List.mem_cons_of_mem _ h
  · exact h

/-- What a mark is made of: the unread rows of its team that meet a condition. -/
lemma exists_mark {w : Write} (h : w.mark? = some (now, teamId)) :
    (∃ p, t.write w = t.mark now p ∧ ∀ r, p r = true → r.teamId = teamId) ∨
      t.write w = (t, false) := by
  have hmark : ∀ q : Row → Prop, ∀ _ : DecidablePred q, (∀ r, q r → r.teamId = teamId) →
      ∃ p, t.mark now (fun r => decide (q r)) = t.mark now p ∧ ∀ r, p r = true → r.teamId = teamId :=
    fun q _ hq => ⟨_, rfl, fun r hr => hq r (of_decide_eq_true hr)⟩
  cases w with
  | reply | deleteTeam => cases h
  | read =>
    obtain ⟨rfl, rfl⟩ := Prod.mk.inj (Option.some.inj h)
    exact .inl (hmark _ _ fun r hr => hr.2)
  | readAll =>
    obtain ⟨rfl, rfl⟩ := Prod.mk.inj (Option.some.inj h)
    exact .inl (hmark _ _ fun r hr => hr)
  | readMany =>
    obtain ⟨rfl, rfl⟩ := Prod.mk.inj (Option.some.inj h)
    simp only [Table.write, markManyRead]
    split_ifs
    · exact .inr rfl
    · exact .inl (hmark _ _ fun r hr => hr.1)
  | readTicketMessages =>
    obtain ⟨rfl, rfl⟩ := Prod.mk.inj (Option.some.inj h)
    simp only [Table.write, markTicketMessagesRead]
    split_ifs
    · exact .inr rfl
    · exact .inl (hmark _ _ fun r hr => hr.1)

/-- **A row after a write**: it is as it was, up to the instant of its first mark, unless its team is
deleted. -/
lemma exists_row_of_write (w : Write) (hr : r ∈ t.rows) (hteam : w ≠ .deleteTeam r.teamId) :
    ∃ r' ∈ (t.write w).1.rows, r' = { r with readAt := r'.readAt } ∧
      (r'.readAt = r.readAt ∨ r.readAt = none ∧ ∃ now, w.mark? = some (now, r.teamId) ∧
        r'.readAt = some now) := by
  have hkept : r ∈ (t.write w).1.rows → ∃ r' ∈ (t.write w).1.rows, r' = { r with readAt := r'.readAt } ∧
      (r'.readAt = r.readAt ∨ r.readAt = none ∧ ∃ now, w.mark? = some (now, r.teamId) ∧
        r'.readAt = some now) := fun h => ⟨r, h, rfl, .inl rfl⟩
  cases hmark : w.mark? with
  | some x =>
    obtain ⟨now, teamId⟩ := x
    rcases exists_mark (t := t) hmark with ⟨p, hw, hp⟩ | hw
    · rw [hw]
      refine ⟨r.marked now p, List.mem_map_of_mem hr, ?_⟩
      unfold Row.marked
      split_ifs with h
      · simp only [Bool.and_eq_true, Option.isNone_iff_eq_none] at h
        obtain rfl := hp r h.1
        exact ⟨rfl, .inr ⟨h.2, now, rfl, rfl⟩⟩
      · exact ⟨rfl, .inl rfl⟩
    · rw [← hmark]
      exact hkept (by rwa [hw])
  | none =>
    rw [← hmark]
    refine hkept ?_
    cases w with
    | reply => exact mem_insert hr
    | deleteTeam teamId =>
      refine List.mem_filter.2 ⟨hr, decide_eq_true fun he => hteam ?_⟩
      rw [he]
    | _ => cases hmark

/-- A row is still there after a run, with its id and its team, by induction on the writes. -/
lemma exists_row_of_run {writes : List Write} (hr : r ∈ t.rows)
    (hteam : Write.deleteTeam r.teamId ∉ writes) :
    ∃ r' ∈ (t.run writes).rows, r'.id = r.id ∧ r'.teamId = r.teamId := by
  induction writes generalizing t r with
  | nil => exact ⟨r, hr, rfl, rfl⟩
  | cons w writes ih =>
    rw [List.mem_cons, not_or] at hteam
    obtain ⟨r₁, hr₁, heq, -⟩ := exists_row_of_write w hr (Ne.symm hteam.1)
    have hid₁ : r₁.id = r.id := by rw [heq]
    have hteam₁ : r₁.teamId = r.teamId := by rw [heq]
    obtain ⟨r', hr', hid, hsame⟩ := ih hr₁ (by rw [hteam₁]; exact hteam.2)
    exact ⟨r', hr', hid.trans hid₁, hsame.trans hteam₁⟩

/-- **A mark stays as it was first made**: whatever is written, a notification of a team that is not
deleted is still there; it is as it was but for being read; one that was read has been read at the
instant it had been, and one that is read and was not has been marked at that instant, for its
team. -/
theorem mark_of_run {writes : List Write} (hr : r ∈ t.rows)
    (hteam : Write.deleteTeam r.teamId ∉ writes) :
    ∃ r' ∈ (t.run writes).rows, r' = { r with readAt := r'.readAt } ∧
      (∀ at₀, r.readAt = some at₀ → r'.readAt = some at₀) ∧
      ∀ at₁, r.readAt = none → r'.readAt = some at₁ →
        ∃ w ∈ writes, w.mark? = some (at₁, r.teamId) := by
  induction writes generalizing t r with
  | nil =>
    exact ⟨r, hr, rfl, fun _ h => h, fun at₁ h h' => by rw [h] at h'; cases h'⟩
  | cons w writes ih =>
    rw [List.mem_cons, not_or] at hteam
    obtain ⟨r₁, hr₁, heq, hread⟩ := exists_row_of_write w hr (Ne.symm hteam.1)
    have hteam₁ : r₁.teamId = r.teamId := by rw [heq]
    obtain ⟨r', hr', heq', hstays, hmarked⟩ := ih hr₁ (by rw [hteam₁]; exact hteam.2)
    refine ⟨r', hr', by rw [heq', heq], fun at₀ h => ?_, fun at₁ h h' => ?_⟩
    · rcases hread with hread | ⟨hnone, -⟩
      · exact hstays at₀ (hread.trans h)
      · rw [hnone] at h
        cases h
    · rcases hread with hread | ⟨-, now, hw, hread⟩
      · obtain ⟨w', hw', hmark⟩ := hmarked at₁ (hread.trans h) h'
        exact ⟨w', List.mem_cons_of_mem _ hw', hmark.trans (by rw [hteam₁])⟩
      · obtain rfl := Option.some.inj ((hstays now hread).symm.trans h')
        exact ⟨w, List.mem_cons_self, hw⟩

/-- Two replies, the first of which is read. -/
def replies : Table :=
  (Table.mk [] List.nodup_nil List.nodup_nil).run [.reply 1 10 ⟨1, 1, none, none⟩ 1 9,
    .reply 2 20 ⟨1, 1, none, none⟩ 2 9, .read 25 1 1]

/-- All are read then: the first reply has been read before. -/
theorem mark_of_run_replies :
    ∃ r' ∈ (replies.run [.readAll 30 1]).rows, r'.id = 1 ∧ r'.readAt = some 25 := by
  have hr : (⟨1, 1, 1, 1, some 9, ⟨1, 1, none, none⟩, some 25, 10⟩ : Row) ∈ replies.rows := by decide
  have hteam : Write.deleteTeam 1 ∉ [Write.readAll 30 1] := by decide
  obtain ⟨r', hr', heq, hstays, -⟩ := mark_of_run hr hteam
  exact ⟨r', hr', by rw [heq], hstays 25 rfl⟩

/-! ### The number of the unread -/

lemma marked_readAt_isNone (r : Row) :
    (r.marked now p).readAt.isNone = (r.readAt.isNone && !p r) := by
  unfold Row.marked
  cases hread : r.readAt <;> cases hp : p r <;> simp [hread]

lemma marked_data (r : Row) : (r.marked now p).data = r.data := by
  unfold Row.marked
  split_ifs <;> rfl

lemma ofTeam_mark (team : Id) :
    (t.mark now p).1.ofTeam team = (t.ofTeam team).map (Row.marked now p) := by
  rw [Table.ofTeam, Table.ofTeam, Table.mark, List.filter_map]
  congr 1
  exact List.filter_congr fun r _ => by simp [Row.marked_teamId]

/-- The unread that meet a condition, after a mark. -/
lemma countP_ofTeam_mark (q : Row → Bool) (hq : ∀ r, q (r.marked now p) = q r) (team : Id) :
    ((t.mark now p).1.ofTeam team).countP (fun r => r.readAt.isNone && q r) =
      (t.ofTeam team).countP fun r => (r.readAt.isNone && q r) && !p r := by
  rw [ofTeam_mark, List.countP_map]
  refine List.countP_congr fun r _ => ?_
  simp only [Function.comp_apply, marked_readAt_isNone, hq]
  cases r.readAt.isNone <;> cases p r <;> cases q r <;> simp

lemma unreadCount_mark (team : Id) : unreadCount (t.mark now p).1 team =
    ⟨(t.ofTeam team).countP fun r => r.readAt.isNone && !p r,
      (t.ofTeam team).countP fun r => (r.readAt.isNone && r.data.puzzleId.isNone) && !p r⟩ := by
  have hall := @countP_ofTeam_mark t now p (fun _ => true) (fun _ => rfl) team
  have hdm := @countP_ofTeam_mark t now p (fun r => r.data.puzzleId.isNone)
    (fun r => by rw [marked_data]) team
  simp only [Bool.and_true] at hall
  rw [unreadCount, hall, hdm]

/-- Leaving out some of what is counted. -/
lemma countP_and_not_lt_iff {l : List Row} {q : Row → Bool} :
    l.countP (fun r => q r && !p r) < l.countP q ↔ ∃ r ∈ l, q r = true ∧ p r = true := by
  have hsplit : l.countP q = l.countP (fun r => q r && p r) + l.countP fun r => q r && !p r := by
    induction l with
    | nil => rfl
    | cons r l ih =>
      simp only [List.countP_cons, ih]
      cases q r <;> cases p r <;> simp <;> omega
  rw [hsplit, Nat.lt_add_left_iff_pos, List.countP_pos_iff]
  simp

/-- **What a mark says**: it returns whether the number of the unread of its team has fallen; no number
rises, and those of the other teams stay. -/
theorem unreadCount_write {w : Write} (h : w.mark? = some (now, teamId)) :
    ((t.write w).2 = true ↔
      (unreadCount (t.write w).1 teamId).count < (unreadCount t teamId).count) ∧
    (∀ team, (unreadCount (t.write w).1 team).count ≤ (unreadCount t team).count ∧
      (unreadCount (t.write w).1 team).dmCount ≤ (unreadCount t team).dmCount) ∧
    (∀ team, team ≠ teamId → unreadCount (t.write w).1 team = unreadCount t team) ∧
    ∀ now', w = .readAll now' teamId → (unreadCount (t.write w).1 teamId).count = 0 := by
  have hzero : ∀ now', w = .readAll now' teamId →
      (unreadCount (t.write w).1 teamId).count = 0 := by
    rintro now' rfl
    simp only [Table.write, markAllRead, unreadCount_mark]
    refine List.countP_eq_zero.2 fun r hr => ?_
    have hteam := of_decide_eq_true (List.mem_filter.1 hr).2
    simp [hteam]
  rcases exists_mark (t := t) h with ⟨p, hw, hp⟩ | hw
  · rw [hw] at hzero ⊢
    simp only [unreadCount_mark] at hzero ⊢
    refine ⟨?_, fun team => ⟨?_, ?_⟩, fun team hteam => ?_, hzero⟩
    · rw [unreadCount, countP_and_not_lt_iff, Table.mark, List.any_eq_true]
      constructor
      · rintro ⟨r, hr, hmark⟩
        rw [Bool.and_eq_true] at hmark
        exact ⟨r, List.mem_filter.2 ⟨hr, decide_eq_true (hp r hmark.1)⟩, hmark.2, hmark.1⟩
      · rintro ⟨r, hr, hread, hpr⟩
        exact ⟨r, (List.mem_filter.1 hr).1, by rw [hpr, hread]; rfl⟩
    · exact List.countP_mono_left fun r _ hr => (Bool.and_eq_true_iff.1 hr).1
    · exact List.countP_mono_left fun r _ hr => (Bool.and_eq_true_iff.1 hr).1
    · have hother : ∀ r ∈ t.ofTeam team, p r = false := fun r hr => by
        by_contra hpr
        rw [Bool.not_eq_false] at hpr
        exact hteam ((of_decide_eq_true (List.mem_filter.1 hr).2).symm.trans (hp r hpr))
      rw [unreadCount]
      congr 1 <;> exact List.countP_congr fun r hr => by simp [hother r hr]
  · rw [hw] at hzero ⊢
    exact ⟨by simp, fun team => ⟨le_rfl, le_rfl⟩, fun team _ => rfl, hzero⟩

/-- The second one is read, and the number falls. -/
theorem unreadCount_write_replies : (replies.write (.read 30 1 2)).2 = true :=
  (unreadCount_write (w := .read 30 1 2) rfl).1.2 (by decide)

end Marks

/-- The pages that a team gets, and the tables that they are taken of: it asks for the next page with
the id of the last notification, until a page is not full; between the pages anything is written. -/
inductive Reads (users : Id → Option String) (identity : Option RbGameStaffIdentity) (teamId : Id)
    (limit : ℕ) : Table → Option ℕ → List Table → List (List TeamNotification) → Prop
  | last {t : Table} {before : Option ℕ} :
      (listForTeam users identity t teamId before limit).length < limit →
      Reads users identity teamId limit t before [t] [listForTeam users identity t teamId before limit]
  | more {t : Table} {before : Option ℕ} {n : TeamNotification} {writes : List Write}
      {found : List Table} {pages : List (List TeamNotification)} :
      (listForTeam users identity t teamId before limit).length = limit →
      (listForTeam users identity t teamId before limit).getLast? = some n →
      Write.deleteTeam teamId ∉ writes →
      Reads users identity teamId limit (t.run writes) (some n.id) found pages →
      Reads users identity teamId limit t before (t :: found)
        (listForTeam users identity t teamId before limit :: pages)

/-! ## Reading -/

section Reading

variable {users : Id → Option String} {identity : Option RbGameStaffIdentity} {teamId : Id}
  {limit : ℕ} {t : Table} {before : Option ℕ} {found : List Table}
  {pages : List (List TeamNotification)}

/-- The pages are those of a feed. -/
lemma Reads.exists_walk (h : Reads users identity teamId limit t before found pages) :
    ∃ rows, Paging.Feed.Walk Row.id limit before (found.map fun t => t.ofTeam teamId) rows ∧
      pages = rows.map (List.map (Row.shown users identity)) := by
  induction h with
  | last hshort => exact ⟨_, .last (by simpa [listForTeam] using hshort), rfl⟩
  | more hfull hlast _ _ ih =>
    obtain ⟨rows, hwalk, rfl⟩ := ih
    rw [listForTeam, List.getLast?_map, Option.map_eq_some_iff] at hlast
    obtain ⟨r, hr, rfl⟩ := hlast
    exact ⟨_, .more (by simpa [listForTeam] using hfull) hr hwalk, rfl⟩

/-- What is there when a team begins to read is there all the time. -/
lemma Reads.mem_found (h : Reads users identity teamId limit t before found pages) {r : Row}
    (hr : r ∈ t.rows) (hteam : r.teamId = teamId) :
    ∀ t' ∈ found, ∃ r' ∈ t'.ofTeam teamId, r'.id = r.id := by
  induction h generalizing r with
  | @last t before _ =>
    intro t' ht'
    obtain rfl := List.mem_singleton.1 ht'
    exact ⟨r, List.mem_filter.2 ⟨hr, decide_eq_true hteam⟩, rfl⟩
  | @more t before n writes found pages _ _ hkeeps _ ih =>
    intro t' ht'
    rcases List.mem_cons.1 ht' with rfl | ht'
    · exact ⟨r, List.mem_filter.2 ⟨hr, decide_eq_true hteam⟩, rfl⟩
    · have hkeeps' : Write.deleteTeam r.teamId ∉ writes := by rwa [hteam]
      obtain ⟨r₁, hr₁, hid₁, hteam₁⟩ := exists_row_of_run hr hkeeps'
      obtain ⟨r', hr', hid⟩ := ih hr₁ (hteam₁.trans hteam) t' ht'
      exact ⟨r', hr', hid.trans hid₁⟩

/-- What a team has read, as a set. -/
lemma reads_mem (h : Reads users identity teamId limit t none found pages) :
    pages.flatten.Pairwise (fun a b => b.id < a.id) ∧
    ∀ r ∈ t.rows, r.teamId = teamId → r.id ∈ pages.flatten.map TeamNotification.id := by
  obtain ⟨rows, hwalk, rfl⟩ := h.exists_walk
  have hinj : ∀ l ∈ found.map fun t => t.ofTeam teamId, (l.map Row.id).Nodup := by
    intro l hl
    obtain ⟨t', -, rfl⟩ := List.mem_map.1 hl
    exact t'.ids.sublist (List.filter_sublist.map _)
  rw [← List.map_flatten]
  refine ⟨List.pairwise_map.2 (hwalk.pairwise_flatten hinj), fun r hr hteam => ?_⟩
  rw [List.map_map]
  refine hwalk.mem_flatten hinj (fun b hb => by cases hb) fun l hl => ?_
  obtain ⟨t', ht', rfl⟩ := List.mem_map.1 hl
  obtain ⟨r', hr', hid⟩ := h.mem_found hr hteam t' ht'
  exact List.mem_map.2 ⟨r', hr', hid⟩

/-- Where nothing is written, the rows of the team are shown. -/
lemma reads_perm (h : Reads users identity teamId limit t none found pages)
    (hsame : ∀ t' ∈ found, t' = t) :
    pages.flatten.Perm ((t.ofTeam teamId).map (Row.shown users identity)) := by
  obtain ⟨rows, hwalk, rfl⟩ := h.exists_walk
  rw [← List.map_flatten]
  refine (hwalk.perm_flatten (t.ids.sublist (List.filter_sublist.map _)) fun l hl => ?_).map _
  obtain ⟨t', ht', rfl⟩ := List.mem_map.1 hl
  rw [hsame t' ht']
  rfl

/-- **What a team has read in the end**, whatever is written meanwhile: the ids fall, so that none is
shown twice; every notification that was there at the start is shown; and where nothing is written, as
many are shown as unread as are counted. -/
theorem reads_all (h : Reads users identity teamId limit t none found pages) :
    pages.flatten.Pairwise (fun a b => b.id < a.id) ∧
    (∀ r ∈ t.rows, r.teamId = teamId → r.id ∈ pages.flatten.map TeamNotification.id) ∧
    ((∀ t' ∈ found, t' = t) →
      pages.flatten.countP (fun n => !n.read) = (unreadCount t teamId).count ∧
      pages.flatten.countP (fun n => !n.read && n.data.puzzleId.isNone) =
        (unreadCount t teamId).dmCount) := by
  refine ⟨(reads_mem h).1, (reads_mem h).2, fun hsame => ?_⟩
  rw [(reads_perm h hsame).countP_eq, (reads_perm h hsame).countP_eq, List.countP_map, List.countP_map]
  constructor <;> exact List.countP_congr fun r _ => by simp [Row.shown]

/-- A third reply comes between the pages, and the team has read both. -/
theorem reads_all_replies : ∃ found pages,
    Reads (fun _ => none) none 1 1 replies none found pages ∧
    2 ∈ pages.flatten.map TeamNotification.id ∧ 1 ∈ pages.flatten.map TeamNotification.id := by
  have hreply : Write.deleteTeam 1 ∉ [Write.reply 3 30 ⟨1, 1, none, none⟩ 3 9] := by decide
  have hnothing : Write.deleteTeam 1 ∉ ([] : List Write) := by decide
  have h : Reads (fun _ => none) none 1 1 replies none _ _ :=
    .more rfl rfl hreply (.more rfl rfl hnothing (.last (by decide)))
  have hall := (reads_all h).2.1
  exact ⟨_, _, h, hall ⟨2, 1, 1, 2, some 9, ⟨1, 2, none, none⟩, none, 20⟩ (by decide) rfl,
    hall ⟨1, 1, 1, 1, some 9, ⟨1, 1, none, none⟩, some 25, 10⟩ (by decide) rfl⟩

end Reading

end Notifications
