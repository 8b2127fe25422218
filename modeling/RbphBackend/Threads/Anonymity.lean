import Mathlib.Data.List.Forall2
import RbphBackend.Threads.Desk

set_option relaxedAutoImplicit false
set_option autoImplicit false

/-!
# Staff that players cannot tell apart

Where a game has a staff identity, players see it in place of everybody who wrote to them or closed
their ticket as staff. Two states that differ only in who that was show the same threads and send
the same messages to players. A member of the staff who wrote as a member of a team, before leaving
it, is shown as one.

## Main definitions

* `Threads.Desk.StaffSwap` — two members of the staff of the same role, outside of a team.
* `Threads.Desk.Replaced` — the states that differ in users that may be replaced.

## Main results

* `Threads.Desk.staff_indistinguishable` — players receive the same from such states.
* `Threads.Desk.team_message_shows_sender` — not where a message as a member is replaced.
-/

namespace Threads

open Paging.Merge

namespace Desk

/-- Two members of the staff of the same role who are not members of the team. -/
structure StaffSwap (desk : Desk) (teamId u u' : ℕ) : Prop where
  role : ∃ row ∈ desk.users, ∃ row' ∈ desk.users, row.id = u ∧ row'.id = u' ∧
    row.urole = row'.urole ∧ 2 ≤ row.urole
  outside : u ∉ desk.members teamId
  outside' : u' ∉ desk.members teamId

/-- The user is the same, or may be replaced. -/
def Swapped (may : ℕ → ℕ → Prop) (u u' : ℕ) : Prop := u' = u ∨ may u u'

/-- The states differ in senders and actors that may be replaced, by the type they acted as, and in
whom tickets are assigned to. -/
structure Replaced (may : ℤ → ℕ → ℕ → Prop) (assigned : ℕ → ℕ → Prop) (desk desk' : Desk) :
    Prop where
  users : desk'.users = desk.users
  messages : List.Forall₂ (fun m m' => m' = { m with sender := m'.sender } ∧
    Swapped (may m.senderType) m.sender m'.sender) desk.messages desk'.messages
  operations : List.Forall₂ (fun o o' => o' = { o with actor := o'.actor } ∧
    Swapped (may o.actorType) o.actor o'.actor) desk.operations desk'.operations
  tickets : List.Forall₂ (fun t t' => t' = { t with assignee := t'.assignee } ∧
    Option.Rel (Swapped assigned) t.assignee t'.assignee) desk.tickets desk'.tickets
  teams : desk'.teams = desk.teams
  puzzles : desk'.puzzles = desk.puzzles
  members : desk'.members = desk.members
  teamPuzzle : desk'.teamPuzzle = desk.teamPuzzle
  gameFeature : desk'.gameFeature = desk.gameFeature
  teamFeature : desk'.teamFeature = desk.teamFeature
  currencyInfo : desk'.currencyInfo = desk.currencyInfo
  displaySettings : desk'.displaySettings = desk.displaySettings

/-- What was done as staff may be replaced by others of the staff. -/
def StaffReplaced (desk desk' : Desk) (teamId : ℕ) : Prop :=
  Replaced (fun type u u' => type = 1 ∧ desk.StaffSwap teamId u u') (desk.StaffSwap teamId)
    desk desk'

/-! ## Related lists -/

section

variable {α β γ : Type} {R : α → β → Prop} {l : List α} {l' : List β}

lemma map_eq_of_forall₂ {f : α → γ} {g : β → γ} (h : List.Forall₂ R l l')
    (hfg : ∀ a b, R a b → f a = g b) : l.map f = l'.map g := by
  induction h with
  | nil => rfl
  | cons hab _ ih => rw [List.map_cons, List.map_cons, hfg _ _ hab, ih]

lemma forall_mem_iff_of_forall₂ {P : α → Prop} {Q : β → Prop} (h : List.Forall₂ R l l')
    (hPQ : ∀ a b, R a b → (P a ↔ Q b)) : (∀ a ∈ l, P a) ↔ ∀ b ∈ l', Q b := by
  induction h with
  | nil => simp
  | cons hab _ ih => rw [List.forall_mem_cons, List.forall_mem_cons, hPQ _ _ hab, ih]

lemma isEmpty_eq_of_forall₂ (h : List.Forall₂ R l l') : l'.isEmpty = l.isEmpty := by
  cases h <;> rfl

lemma rel_find {p : α → Bool} {q : β → Bool} (h : List.Forall₂ R l l')
    (hpq : ∀ a b, R a b → p a = q b) : Option.Rel R (l.find? p) (l'.find? q) := by
  induction h with
  | nil => exact .none
  | @cons a b _ _ hab _ ih =>
    rw [List.find?_cons, List.find?_cons, ← hpq _ _ hab]
    cases p a with
    | true => exact .some hab
    | false => exact ih

lemma rel_option_imp {S : α → β → Prop} {o : Option α} {o' : Option β} (h : Option.Rel R o o')
    (hRS : ∀ a b, R a b → S a b) : Option.Rel S o o' := by
  cases h with
  | some hab => exact .some (hRS _ _ hab)
  | none => exact .none

/-- What is known of the items of both lists may be used of related ones. -/
lemma forall₂_and {P : α → Prop} {Q : β → Prop} (h : List.Forall₂ R l l') (hP : ∀ a ∈ l, P a)
    (hQ : ∀ b ∈ l', Q b) : List.Forall₂ (fun a b => R a b ∧ P a ∧ Q b) l l' := by
  induction h with
  | nil => exact .nil
  | cons hab _ ih =>
    exact .cons ⟨hab, hP _ List.mem_cons_self, hQ _ List.mem_cons_self⟩
      (ih (fun a ha => hP a (List.mem_cons_of_mem _ ha))
        fun b hb => hQ b (List.mem_cons_of_mem _ hb))

end

/-! ## The items of related states -/

variable {desk desk' : Desk} {w : RbGameStaffIdentity}

/-- The states differ in what was done as staff and in whom tickets are assigned to. -/
abbrev Alike (desk desk' : Desk) : Prop :=
  Replaced (fun type _ _ => type = 1) (fun _ _ => True) desk desk'

lemma StaffReplaced.alike {teamId : ℕ} (h : StaffReplaced desk desk' teamId) :
    Alike desk desk' :=
  { h with
    messages := h.messages.imp fun _ _ hm => ⟨hm.1, hm.2.imp_right And.left⟩
    operations := h.operations.imp fun _ _ ho => ⟨ho.1, ho.2.imp_right And.left⟩
    tickets := h.tickets.imp fun _ _ ht =>
      ⟨ht.1, rel_option_imp ht.2 fun _ _ hu => hu.imp_right fun _ => trivial⟩ }

namespace Replaced

lemma user_eq (h : Alike desk desk') : desk'.user = desk.user := by
  funext id
  rw [Tables.user, Tables.user, h.users]

/-- Messages of the two states, with their senders. -/
def SameMessage (desk : Desk) (m m' : MessageRow) : Prop :=
  m' = { m with sender := m'.sender } ∧ (m.senderType = 1 ∨ m'.sender = m.sender) ∧
    (∃ u, desk.user m.sender = some u) ∧ ∃ u, desk.user m'.sender = some u

/-- Operations of the two states, with their actors. -/
def SameOperation (desk : Desk) (o o' : OperationRow) : Prop :=
  o' = { o with actor := o'.actor } ∧ (o.actorType = 1 ∨ o'.actor = o.actor) ∧
    (∃ u, desk.user o.actor = some u) ∧ ∃ u, desk.user o'.actor = some u

lemma sameMessages (h : Alike desk desk') :
    List.Forall₂ (SameMessage desk) desk.messages desk'.messages := by
  refine (forall₂_and h.messages
    (fun m hm => Tables.exists_user (desk.sender_exists m hm))
    (fun m hm => Tables.exists_user (desk'.sender_exists m hm))).imp ?_
  rintro m m' ⟨⟨heq, hswap⟩, hu, hu'⟩
  rw [h.user_eq] at hu'
  exact ⟨heq, hswap.symm, hu, hu'⟩

lemma sameOperations (h : Alike desk desk') :
    List.Forall₂ (SameOperation desk) desk.operations desk'.operations := by
  refine (forall₂_and h.operations
    (fun o ho => Tables.exists_user (desk.actor_exists o ho))
    (fun o ho => Tables.exists_user (desk'.actor_exists o ho))).imp ?_
  rintro o o' ⟨⟨heq, hswap⟩, hu, hu'⟩
  rw [h.user_eq] at hu'
  exact ⟨heq, hswap.symm, hu, hu'⟩

/-- A message is shown alike with the staff identity. -/
lemma show_anonymizeStaff {m m' : MessageRow} {u u' : UserRow}
    (heq : m' = { m with sender := m'.sender }) (hu : m.senderType = 1 ∨ u' = u) (now : ℤ) (v : Bool) :
    (m.show u now v).anonymizeStaff w = (m'.show u' now v).anonymizeStaff w := by
  rw [heq]
  rcases hu with hhost | rfl
  · simp only [TicketMessage.anonymizeStaff, MessageRow.show, hhost,
      RbTicketSenderType.fromPrimitive]
    rfl
  · rfl

lemma eq_of_lookup {id id' : ℕ} {u u' : UserRow} (h : id' = id) (hu : desk.user id = some u)
    (hu' : desk.user id' = some u') : u' = u := by
  rw [h, hu] at hu'
  exact (Option.some.inj hu').symm

lemma makeMessage_eq (h : Alike desk desk') (now : ℤ) (v : Bool) (messageId : Option ℕ) :
    (desk.makeMessage now v messageId).map (fun m => m.anonymizeStaff w) =
      (desk'.makeMessage now v messageId).map fun m => m.anonymizeStaff w := by
  have hfind := rel_find (p := fun m => decide (messageId = some m.id))
    (q := fun m => decide (messageId = some m.id)) h.sameMessages
    fun m m' hm => by rw [hm.1]
  unfold Tables.makeMessage
  rw [h.user_eq]
  generalize desk.messages.find? (fun m => decide (messageId = some m.id)) = found at hfind ⊢
  generalize desk'.messages.find? (fun m => decide (messageId = some m.id)) = found' at hfind ⊢
  cases hfind with
  | none => rfl
  | @some m m' hm =>
    obtain ⟨heq, hsender, ⟨u, hu⟩, u', hu'⟩ := hm
    simp only [Option.bind_eq_bind, Option.bind_some, hu, hu', Option.map_some, Option.some.injEq]
    exact show_anonymizeStaff heq (hsender.imp_right fun hs => eq_of_lookup hs hu hu') now v

/-- The items of the messages are shown alike with the staff identity. -/
lemma messageItems_eq (h : Alike desk desk') (ticketId : ℕ) (now : ℤ) (v : Bool) :
    ((desk.messageRows ticketId).map (Tables.messageItem now v)).map
        (TicketThreadItem.anonymizeStaff w) =
      ((desk'.messageRows ticketId).map (Tables.messageItem now v)).map
        (TicketThreadItem.anonymizeStaff w) := by
  have hfree : ∀ id : ℕ, (∀ o ∈ desk.operations, o.messageId ≠ some id) ↔
      ∀ o ∈ desk'.operations, o.messageId ≠ some id := fun id =>
    forall_mem_iff_of_forall₂ h.sameOperations fun o o' ho => by rw [ho.1]
  rw [List.map_map, List.map_map]
  refine map_eq_of_forall₂ (R := fun r r' => (Tables.messageItem now v r).anonymizeStaff w =
    (Tables.messageItem now v r').anonymizeStaff w) ?_ fun _ _ hr => hr
  unfold Tables.messageRows
  rw [h.user_eq]
  refine List.rel_filterMap ?_ (List.rel_filter ?_ h.sameMessages)
  · rintro m m' ⟨heq, hsender, ⟨u, hu⟩, u', hu'⟩
    simp only [hu, hu', Option.map_some]
    refine .some (congrArg TicketThreadItem.message ?_)
    exact show_anonymizeStaff heq (hsender.imp_right fun hs => eq_of_lookup hs hu hu') now v
  · intro m m' hm
    simp only [decide_eq_true_eq]
    rw [hm.1]
    exact and_congr_right' (hfree m.id)

/-- The items of the operations are shown alike with the staff identity. -/
lemma operationItems_eq (h : Alike desk desk') (ticketId : ℕ) (now : ℤ) (v : Bool) :
    ((desk.operationRows ticketId).map (desk.operationItem now v)).map
        (TicketThreadItem.anonymizeStaff w) =
      ((desk'.operationRows ticketId).map (desk'.operationItem now v)).map
        (TicketThreadItem.anonymizeStaff w) := by
  rw [List.map_map, List.map_map]
  refine map_eq_of_forall₂ (R := fun r r' => (desk.operationItem now v r).anonymizeStaff w =
    (desk'.operationItem now v r').anonymizeStaff w) ?_ fun _ _ hr => hr
  unfold Tables.operationRows
  rw [h.user_eq]
  refine List.rel_filterMap ?_ (List.rel_filter ?_ h.sameOperations)
  · rintro o o' ⟨heq, hactor, ⟨u, hu⟩, u', hu'⟩
    simp only [hu, hu', Option.map_some]
    refine .some ?_
    simp only [TicketThreadItem.anonymizeStaff, Tables.operationItem, h.makeMessage_eq]
    rw [heq]
    rcases hactor with hhost | hactor
    · simp only [hhost, RbTicketSenderType.fromPrimitive]
      rfl
    · rw [eq_of_lookup hactor hu hu']
  · intro o o' ho
    simp only [decide_eq_true_eq]
    rw [ho.1]

lemma threadItems_eq (h : Alike desk desk') (clock : ℕ → ℤ) (ticketId : ℕ) (v : Bool) :
    (desk.threadItems clock ticketId v).map (TicketThreadItem.anonymizeStaff w) =
      (desk'.threadItems clock ticketId v).map (TicketThreadItem.anonymizeStaff w) := by
  unfold Tables.threadItems
  rw [List.map_append, List.map_append, h.messageItems_eq, h.operationItems_eq]

/-! ## The pages of related states -/

/-- Pages that are alike with the staff identity. -/
def PagesAlike (w : RbGameStaffIdentity) (p p' : TicketMessagePage) : Prop :=
  p.items.map (TicketThreadItem.anonymizeStaff w) =
    p'.items.map (TicketThreadItem.anonymizeStaff w) ∧ p.history = p'.history

lemma map_itemCursor_anonymizeStaff (l : List TicketThreadItem) :
    (l.map (TicketThreadItem.anonymizeStaff w)).map itemCursor = l.map itemCursor := by
  rw [List.map_map]
  exact List.map_congr_left fun i _ => itemCursor_anonymizeStaff w i

lemma PagesAlike.places {p p' : TicketMessagePage} (h : PagesAlike w p p') :
    p.items.map itemCursor = p'.items.map itemCursor := by
  rw [← map_itemCursor_anonymizeStaff (w := w) p.items, h.1,
    map_itemCursor_anonymizeStaff]

lemma places_eq (h : Alike desk desk') (ticketId : ℕ) :
    desk.places ticketId = desk'.places ticketId := by
  have hrow : desk.rowPlaces ticketId = desk'.rowPlaces ticketId := by
    rw [← Tables.map_itemCursor_threadItems (fun _ => 0) ticketId true,
      ← Tables.map_itemCursor_threadItems (fun _ => 0) ticketId true,
      ← map_itemCursor_anonymizeStaff (w := ⟨"", none⟩), h.threadItems_eq,
      map_itemCursor_anonymizeStaff]
  rw [Tables.places, Tables.places, hrow]

lemma itemsIn_eq (h : Alike desk desk') (clock : ℕ → ℤ) (ticketId : ℕ) (v up : Bool)
    (cursor stop : Option TicketCursor) :
    (desk.itemsIn clock ticketId v up cursor stop).map (TicketThreadItem.anonymizeStaff w) =
      (desk'.itemsIn clock ticketId v up cursor stop).map
        (TicketThreadItem.anonymizeStaff w) := by
  have hitems : ∀ d : Desk, (d.itemsIn clock ticketId v up cursor stop).map
      (TicketThreadItem.anonymizeStaff w) = ascending itemCursor
        (((d.threadItems clock ticketId v).map (TicketThreadItem.anonymizeStaff w)).filter
          fun i => inRange up cursor stop (itemCursor i)) := by
    intro d
    rw [Tables.itemsIn, map_ascending (itemCursor_anonymizeStaff w), List.filter_map]
    congr 3
    funext i
    rw [Function.comp_apply, itemCursor_anonymizeStaff]
  rw [hitems desk, hitems desk', h.threadItems_eq]

lemma messagesPage_alike (h : Alike desk desk') (json : CursorJson) (clock : ℕ → ℤ) (ticketId : ℕ)
    (v : Bool) (request : TicketPageRequest) (limit : ℕ) :
    PagesAlike w (desk.getTicketMessagesPage json clock ticketId v request limit)
      (desk'.getTicketMessagesPage json clock ticketId v request limit) := by
  constructor
  · rw [Tables.page_items, Tables.page_items, Tables.map_cut, Tables.map_cut, h.itemsIn_eq]
  · rw [Tables.page_history, Tables.page_history, Tables.range, Tables.range, h.places_eq]

/-- The items of a first page with the oldest item in front, where it is not there yet. -/
def stitched (json : CursorJson) (firstItem : TicketThreadItem) (items : List TicketThreadItem) :
    List TicketThreadItem :=
  if items.any fun i => (itemCursor i).encode json = (itemCursor firstItem).encode json then items
  else firstItem :: items

lemma stitched_alike {firstItem firstItem' : TicketThreadItem}
    {items items' : List TicketThreadItem} (json : CursorJson)
    (hfirst : firstItem.anonymizeStaff w = firstItem'.anonymizeStaff w)
    (hitems : items.map (TicketThreadItem.anonymizeStaff w) =
      items'.map (TicketThreadItem.anonymizeStaff w)) :
    (stitched json firstItem items).map (TicketThreadItem.anonymizeStaff w) =
      (stitched json firstItem' items').map (TicketThreadItem.anonymizeStaff w) := by
  have hcursor : itemCursor firstItem = itemCursor firstItem' := by
    rw [← itemCursor_anonymizeStaff w firstItem, hfirst, itemCursor_anonymizeStaff]
  have hany : ∀ l : List TicketThreadItem, (l.any fun i =>
      decide ((itemCursor i).encode json = (itemCursor firstItem').encode json)) =
        (l.map (TicketThreadItem.anonymizeStaff w)).any fun i =>
          decide ((itemCursor i).encode json = (itemCursor firstItem').encode json) := by
    intro l
    rw [List.any_map]
    congr 1
    funext i
    rw [Function.comp_apply, itemCursor_anonymizeStaff]
  unfold stitched
  rw [hcursor, hany items, hitems, ← hany items']
  split_ifs
  · exact hitems
  · rw [List.map_cons, List.map_cons, hfirst, hitems]

/-- The first page of a long thread of a puzzle. -/
def assembled (json : CursorJson) (latest : TicketMessagePage) (firstItem : TicketThreadItem)
    (noGap : Bool) : TicketMessagePage :=
  let items := stitched json firstItem latest.items
  let newer := items.getLast?.map fun i => (itemCursor i).encode json
  if noGap then ⟨items, { newer }⟩
  else
    ⟨items, { after := some ((itemCursor firstItem).encode json)
              stop := (latest.items.head?.map itemCursor).map fun c => c.encode json
              newer
              hasMore := true }⟩

lemma assembled_alike {latest latest' : TicketMessagePage} {firstItem firstItem' : TicketThreadItem}
    (json : CursorJson) (hlatest : PagesAlike w latest latest')
    (hfirst : firstItem.anonymizeStaff w = firstItem'.anonymizeStaff w)
    (noGap : Bool) :
    PagesAlike w (assembled json latest firstItem noGap)
      (assembled json latest' firstItem' noGap) := by
  have hitems := stitched_alike json hfirst hlatest.1
  have hplaces : (stitched json firstItem latest.items).map itemCursor =
      (stitched json firstItem' latest'.items).map itemCursor := by
    rw [← map_itemCursor_anonymizeStaff (w := w), hitems,
      map_itemCursor_anonymizeStaff]
  have hnewer : (stitched json firstItem latest.items).getLast?.map
      (fun i => (itemCursor i).encode json) =
      (stitched json firstItem' latest'.items).getLast?.map
        fun i => (itemCursor i).encode json := by
    have hmap : ∀ l : List TicketThreadItem,
        (l.getLast?.map fun i => (itemCursor i).encode json) =
          (l.map itemCursor).getLast?.map fun c => c.encode json := fun l => by
      rw [List.getLast?_map, Option.map_map]
      rfl
    rw [hmap, hmap, hplaces]
  have hcursor : itemCursor firstItem = itemCursor firstItem' := by
    rw [← itemCursor_anonymizeStaff w firstItem, hfirst, itemCursor_anonymizeStaff]
  have hhead : latest.items.head?.map itemCursor = latest'.items.head?.map itemCursor := by
    rw [← List.head?_map, ← List.head?_map, hlatest.places]
  unfold assembled
  cases noGap with
  | true =>
    refine ⟨hitems, ?_⟩
    simp only [if_true, hnewer]
  | false =>
    refine ⟨hitems, ?_⟩
    simp only [Bool.false_eq_true, if_false, hnewer, hcursor, hhead]

/-- **A page is alike** with the staff identity. -/
lemma page_alike (h : Alike desk desk') (json : CursorJson) (clock : ℕ → ℤ) (ticketId : ℕ)
    (v isPuzzle : Bool) (request : TicketPageRequest) :
    PagesAlike w (desk.getTicketPage json clock ticketId v isPuzzle request)
      (desk'.getTicketPage json clock ticketId v isPuzzle request) := by
  have hlatest := h.messagesPage_alike (w := w) json clock ticketId v {} 50
  have hfirst := h.messagesPage_alike (w := w) json (fun n => clock (n + 2)) ticketId
    v { oldest := true } 1
  have hgap := fun request => h.messagesPage_alike (w := w) json
    (fun n => clock (n + 4)) ticketId v request 1
  unfold Tables.getTicketPage
  by_cases hdirect : (request.before.isSome || request.after.isSome) = true
  · rw [if_pos hdirect, if_pos hdirect]
    exact h.messagesPage_alike json clock ticketId v request 50
  rw [if_neg hdirect, if_neg hdirect]
  simp only [← hlatest.2]
  by_cases hshort : (!isPuzzle || (desk.getTicketMessagesPage json clock ticketId v {}
      50).history.before.isNone) = true
  · rw [if_pos hshort, if_pos hshort]
    exact hlatest
  rw [if_neg hshort, if_neg hshort]
  generalize desk.getTicketMessagesPage json clock ticketId v {} 50 = latest at hlatest ⊢
  generalize desk'.getTicketMessagesPage json clock ticketId v {} 50 = latest' at hlatest ⊢
  generalize desk.getTicketMessagesPage json (fun n => clock (n + 2)) ticketId v { oldest := true }
    1 = first at hfirst ⊢
  generalize desk'.getTicketMessagesPage json (fun n => clock (n + 2)) ticketId v { oldest := true }
    1 = first' at hfirst ⊢
  obtain ⟨firstItems, firstHistory⟩ := first
  obtain ⟨firstItems', firstHistory'⟩ := first'
  cases firstItems with
  | nil =>
    cases firstItems' with
    | nil => exact hlatest
    | cons i' l' => exact absurd hfirst.1 (by simp)
  | cons i l =>
    cases firstItems' with
    | nil => exact absurd hfirst.1 (by simp)
    | cons i' l' =>
      have hitem : i.anonymizeStaff w = i'.anonymizeStaff w :=
        (List.cons.inj hfirst.1).1
      have hcursor : itemCursor i = itemCursor i' := by
        rw [← itemCursor_anonymizeStaff w i, hitem, itemCursor_anonymizeStaff]
      have hhead : latest.items.head?.map itemCursor = latest'.items.head?.map itemCursor := by
        rw [← List.head?_map, ← List.head?_map, hlatest.places]
      have hrequest : ({ after := some (itemCursor i)
                         stop := latest.items.head?.map itemCursor } : TicketPageRequest) =
          { after := some (itemCursor i'), stop := latest'.items.head?.map itemCursor } := by
        rw [hcursor, hhead]
      have hempty := congrArg List.isEmpty (hgap { after := some (itemCursor i)
                                                   stop := latest.items.head?.map itemCursor }).1
      rw [List.isEmpty_map, List.isEmpty_map] at hempty
      have halike : PagesAlike w
          (assembled json latest i (desk.getTicketMessagesPage json (fun n => clock (n + 4))
            ticketId v { after := some (itemCursor i), stop := latest.items.head?.map itemCursor }
            1).items.isEmpty)
          (assembled json latest' i' (desk'.getTicketMessagesPage json (fun n => clock (n + 4))
            ticketId v { after := some (itemCursor i'), stop := latest'.items.head?.map itemCursor }
            1).items.isEmpty) := by
        rw [← hrequest, ← hempty]
        exact assembled_alike json hlatest hitem _
      exact halike

/-! ## What players receive -/

/-- The summary with the staff identity. -/
def summaryAnonymized (w : RbGameStaffIdentity) (s : TicketSummary) : TicketSummary :=
  { s with assignee := s.assignee.map fun u => u.anonymize w }

/-- Tickets of the two states, both assigned or not. -/
def SameTicket (desk : Desk) (t t' : TicketRow) : Prop :=
  t' = { t with assignee := t'.assignee } ∧
    (t.assignee.bind desk.user).isSome = (t'.assignee.bind desk.user).isSome

lemma sameTickets (h : Alike desk desk') :
    List.Forall₂ (SameTicket desk) desk.tickets desk'.tickets := by
  refine (forall₂_and h.tickets desk.assignee_exists desk'.assignee_exists).imp ?_
  rintro ⟨id, state, teamId, puzzleId, assignee⟩ ⟨id', state', teamId', puzzleId', assignee'⟩
    ⟨⟨heq, hrel⟩, hu, hu'⟩
  refine ⟨heq, ?_⟩
  cases hrel with
  | none => rfl
  | some _ =>
    obtain ⟨row, hrow⟩ := Tables.exists_user (hu _ rfl)
    obtain ⟨row', hrow'⟩ := Tables.exists_user (hu' _ rfl)
    rw [h.user_eq] at hrow'
    simp only [Option.bind_some, hrow, hrow', Option.isSome_some]

lemma sameMessagesOf (h : Alike desk desk') (ticketId : ℕ) :
    List.Forall₂ (SameMessage desk) (desk.messagesOf ticketId) (desk'.messagesOf ticketId) :=
  List.rel_filter (fun m m' hm => by rw [hm.1]) h.sameMessages

/-- The latest message of both states has one type of sender. -/
lemma lastBy_eq {l l' : List MessageRow} (h : List.Forall₂ (SameMessage desk) l l') :
    (l.insertionSort fun a b => toLex (b.ctimeAt, b.id) ≤ toLex (a.ctimeAt, a.id)).head?.map
        MessageRow.senderType =
      (l'.insertionSort fun a b => toLex (b.ctimeAt, b.id) ≤ toLex (a.ctimeAt, a.id)).head?.map
        MessageRow.senderType := by
  let place : MessageRow → ℤ × ℕ × ℤ := fun m => (m.ctimeAt, m.id, m.senderType)
  have hplace : l.map place = l'.map place := map_eq_of_forall₂ h fun m m' hm => by
    simp only [place]
    rw [hm.1]
  have hsort : ∀ l : List MessageRow, (l.insertionSort fun a b =>
      toLex (b.ctimeAt, b.id) ≤ toLex (a.ctimeAt, a.id)).head?.map MessageRow.senderType =
        ((l.map place).insertionSort fun a b =>
          toLex (b.1, b.2.1) ≤ toLex (a.1, a.2.1)).head?.map fun x => x.2.2 := by
    intro l
    rw [← List.map_insertionSort (r := fun a b : MessageRow =>
      toLex (b.ctimeAt, b.id) ≤ toLex (a.ctimeAt, a.id)) _ _ l fun _ _ _ _ => Iff.rfl,
      List.head?_map, Option.map_map]
    rfl
  rw [hsort, hsort, hplace]

/-- The summaries are alike: but for whom the ticket is assigned to they are the same. -/
lemma summary_eq (h : Alike desk desk') (avatarUrl : String → ℤ → String) (ticketId : ℕ)
    (includeTeam : Bool) :
    (desk.getTicketSummary avatarUrl ticketId includeTeam).map (summaryAnonymized w) =
      (desk'.getTicketSummary avatarUrl ticketId includeTeam).map
        (summaryAnonymized w) := by
  have hfind := rel_find (p := fun t => decide (t.id = ticketId))
    (q := fun t => decide (t.id = ticketId)) h.sameTickets fun t t' ht => by rw [ht.1]
  have hmessages := h.sameMessagesOf ticketId
  have hlast := lastBy_eq hmessages
  unfold getTicketSummary Desk.ticket
  generalize desk.tickets.find? (fun t => decide (t.id = ticketId)) = found at hfind ⊢
  generalize desk'.tickets.find? (fun t => decide (t.id = ticketId)) = found' at hfind ⊢
  cases hfind with
  | none => rfl
  | @some t t' ht =>
    obtain ⟨heq, hassignee⟩ := ht
    have hteam : desk'.team = desk.team := by
      funext id
      rw [Desk.team, Desk.team, h.teams]
    have hfindPuzzle : desk'.puzzle = desk.puzzle := by
      funext id
      rw [Desk.puzzle, Desk.puzzle, h.puzzles]
    have hpuzzle : desk'.makePuzzle = desk.makePuzzle := by
      funext teamId puzzleId
      simp only [makePuzzle, hfindPuzzle, h.teamPuzzle]
    have hempty := isEmpty_eq_of_forall₂ hmessages
    have hctime : (desk'.messagesOf ticketId).map MessageRow.ctimeAt =
        (desk.messagesOf ticketId).map MessageRow.ctimeAt :=
      (map_eq_of_forall₂ hmessages fun m m' hm => by rw [hm.1]).symm
    have hby : ∀ l : List MessageRow, (l.head?.map fun m =>
        RbTicketSenderType.fromPrimitive m.senderType) =
          (l.head?.map MessageRow.senderType).map RbTicketSenderType.fromPrimitive := fun l => by
      rw [Option.map_map]
      rfl
    have hassigned : (desk'.assigneeInfo avatarUrl t'.assignee).map
        (fun u => u.anonymize w) =
          (desk.assigneeInfo avatarUrl t.assignee).map fun u => u.anonymize w := by
      unfold assigneeInfo
      rw [h.user_eq]
      revert hassignee
      generalize t.assignee.bind desk.user = u
      generalize t'.assignee.bind desk.user = u'
      intro hu
      cases u <;> cases u' <;> first | rfl | exact absurd hu (by simp)
    rw [heq]
    simp only [Option.bind_eq_bind, Option.bind_some, hteam]
    cases desk.team t.teamId with
    | none => rfl
    | some team =>
      simp only [Option.bind_some, Option.map_some, summaryAnonymized, hassigned, hpuzzle, hempty,
        hctime, hby, ← hlast, hmessages.length_eq, h.currencyInfo]

lemma pendingCount_eq (h : Alike desk desk') (ticketId : ℕ) :
    desk.getPendingCount ticketId = desk'.getPendingCount ticketId := by
  have hmessages := h.sameMessagesOf ticketId
  refine (List.rel_filter ?_ hmessages).length_eq
  intro m m' hm
  simp only [decide_eq_true_eq]
  rw [hm.1]
  refine and_congr_right' (forall_mem_iff_of_forall₂ hmessages fun reply reply' hreply => ?_)
  rw [hreply.1]

lemma sendBlock_eq (h : Alike desk desk') (ticketId : ℕ) :
    desk.calcSendBlock ticketId = desk'.calcSendBlock ticketId := by
  funext state canSend maxPending
  rw [calcSendBlock, calcSendBlock, h.pendingCount_eq]

lemma team_eq (h : Alike desk desk') : desk.team = desk'.team := by
  funext id
  rw [Desk.team, Desk.team, h.teams]

lemma puzzle_eq (h : Alike desk desk') : desk.puzzle = desk'.puzzle := by
  funext id
  rw [Desk.puzzle, Desk.puzzle, h.puzzles]

lemma ticketFeatureAccess_eq (h : Alike desk desk') (now : ℤ) (ticketId : ℕ) :
    desk.playerTicketFeatureAccess now ticketId = desk'.playerTicketFeatureAccess now ticketId := by
  have hfind := rel_find (p := fun t => decide (t.id = ticketId))
    (q := fun t => decide (t.id = ticketId)) h.sameTickets fun t t' ht => by rw [ht.1]
  unfold playerTicketFeatureAccess Desk.ticket
  generalize desk.tickets.find? (fun t => decide (t.id = ticketId)) = found at hfind ⊢
  generalize desk'.tickets.find? (fun t => decide (t.id = ticketId)) = found' at hfind ⊢
  cases hfind with
  | none => rfl
  | @some t t' ht =>
    rw [ht.1]
    simp only [Option.bind_eq_bind, Option.bind_some, h.team_eq, h.puzzle_eq, h.gameFeature,
      h.teamFeature]

lemma dmFeatureAccess_eq (h : Alike desk desk') (teamId : ℕ) :
    desk.playerDmFeatureAccess teamId = desk'.playerDmFeatureAccess teamId := by
  unfold playerDmFeatureAccess
  rw [h.team_eq, h.gameFeature, h.teamFeature]

/-- Summaries that are alike are shown alike. -/
lemma shown_eq {s s' : TicketSummary}
    (h : summaryAnonymized w s = summaryAnonymized w s') (modAccess : Bool) :
    summaryAnonymized w (shownSummary modAccess s) =
      summaryAnonymized w (shownSummary modAccess s') := by
  cases modAccess with
  | true => exact h
  | false =>
    obtain ⟨id, state, gameId, team, puzzle, msgCount, lastAt, lastBy, assignee⟩ := s
    obtain ⟨id', state', gameId', team', puzzle', msgCount', lastAt', lastBy', assignee'⟩ := s'
    simp only [summaryAnonymized, TicketSummary.mk.injEq] at h
    obtain ⟨rfl, rfl, rfl, rfl, rfl, rfl, rfl, rfl, -⟩ := h
    rfl

/-- **A thread is the same** with the staff identity. -/
theorem thread_eq (h : Alike desk desk') (json : CursorJson) (avatarUrl : String → ℤ → String)
    (clock : ℕ → ℤ) (ticketId : ℕ) (info : TicketUserInfo) (request : TicketPageRequest) :
    (desk.getTicketThread json avatarUrl clock ticketId info request).map
        (fun thread => thread.anonymizeStaff w) =
      (desk'.getTicketThread json avatarUrl clock ticketId info request).map
        fun thread => thread.anonymizeStaff w := by
  have hsummary := h.summary_eq (w := w) avatarUrl ticketId true
  unfold getTicketThread
  cases hs : desk.getTicketSummary avatarUrl ticketId true with
  | none =>
    rw [hs, Option.map_none, eq_comm, Option.map_eq_none_iff] at hsummary
    rw [hsummary]
    rfl
  | some s =>
    rw [hs, Option.map_some, eq_comm, Option.map_eq_some_iff] at hsummary
    obtain ⟨s', hs', heq⟩ := hsummary
    rw [hs']
    have hshown := shown_eq heq.symm info.modAccess
    have hpuzzle : (shownSummary info.modAccess s).isPuzzleTicket =
        (shownSummary info.modAccess s').isPuzzleTicket := by
      have hfield := congrArg TicketSummary.isPuzzleTicket hshown
      exact hfield
    have hstate : (shownSummary info.modAccess s).state =
        (shownSummary info.modAccess s').state := by
      have hfield := congrArg TicketSummary.state hshown
      exact hfield
    have hcurrency : (shownSummary info.modAccess s).currencyIds =
        (shownSummary info.modAccess s').currencyIds := by
      have hfield := congrArg TicketSummary.currencyIds hshown
      exact hfield
    obtain ⟨hitems, hhistory⟩ := h.page_alike (w := w) json clock ticketId
      info.modAccess (shownSummary info.modAccess s').isPuzzleTicket request
    simp only [Option.bind_eq_bind, Option.bind_some, Option.map_some, TicketThread.anonymizeStaff,
      hpuzzle, hstate, hcurrency, hitems, hhistory, h.sendBlock_eq, h.ticketFeatureAccess_eq]
    congr 3
    nth_rewrite 1 [← hstate]
    exact hshown

/-- A thread of direct messages is the same with the staff identity. -/
theorem dmThread_eq (h : Alike desk desk') (json : CursorJson) (avatarUrl : String → ℤ → String)
    (clock : ℕ → ℤ) (teamId : ℕ) (v trusted : Bool) (request : TicketPageRequest) :
    (desk.getDmTicketThread json avatarUrl clock teamId v trusted request).anonymizeStaff w =
      (desk'.getDmTicketThread json avatarUrl clock teamId v trusted request).anonymizeStaff
        w := by
  have hfind := rel_find (p := fun t => decide (t.teamId = teamId ∧ t.puzzleId = none))
    (q := fun t => decide (t.teamId = teamId ∧ t.puzzleId = none)) h.sameTickets
    fun t t' ht => by rw [ht.1]
  unfold getDmTicketThread
  simp only [h.dmFeatureAccess_eq]
  generalize desk.tickets.find? (fun t => decide (t.teamId = teamId ∧ t.puzzleId = none)) = found
    at hfind ⊢
  generalize desk'.tickets.find? (fun t => decide (t.teamId = teamId ∧ t.puzzleId = none)) = found'
    at hfind ⊢
  cases hfind with
  | none => rfl
  | @some t t' ht =>
    have hid : t'.id = t.id := by rw [ht.1]
    have hsummary := h.summary_eq (w := w) avatarUrl t.id false
    obtain ⟨hitems, hhistory⟩ := h.page_alike (w := w) json clock t.id v false request
    have hstate : ∀ o : Option TicketSummary, ((o.map (shownSummary v)).map TicketSummary.state) =
        (o.map (summaryAnonymized w)).map TicketSummary.state := fun o => by
      cases o with
      | none => rfl
      | some s => cases v <;> rfl
    have hticket : ∀ o : Option TicketSummary,
        (o.map (shownSummary v)).map (summaryAnonymized w) =
          (o.map (summaryAnonymized w)).map fun s =>
            if v then s else { s with assignee := none } := fun o => by
      cases o with
      | none => rfl
      | some s => cases v <;> rfl
    have hshown := (hticket _).trans ((congrArg _ hsummary).trans (hticket _).symm)
    simp only [TicketThread.anonymizeStaff, hid, hitems, hhistory, hstate, hsummary, h.sendBlock_eq]
    congr 1

/-- What is sent for the same actor is the same. -/
lemma notify_eq (h : Alike desk desk') (avatarUrl : String → ℤ → String) (ticketId : ℕ)
    (event : String) (messageId : Option ℕ) (actorId : ℕ) :
    desk.notifyTicketUpdated avatarUrl ticketId event messageId actorId =
      desk'.notifyTicketUpdated avatarUrl ticketId event messageId actorId := by
  have hfind := rel_find (p := fun t => decide (t.id = ticketId))
    (q := fun t => decide (t.id = ticketId)) h.sameTickets fun t t' ht => by rw [ht.1]
  have hidentity : desk.getStaffIdentity avatarUrl = desk'.getStaffIdentity avatarUrl := by
    funext gameId
    rw [getStaffIdentity, getStaffIdentity, h.displaySettings]
  have hmoderators : desk.moderators = desk'.moderators := by
    rw [moderators, moderators, h.users]
  unfold notifyTicketUpdated Desk.ticket
  generalize desk.tickets.find? (fun t => decide (t.id = ticketId)) = found at hfind ⊢
  generalize desk'.tickets.find? (fun t => decide (t.id = ticketId)) = found' at hfind ⊢
  cases hfind with
  | none => rfl
  | @some t t' ht =>
    rw [ht.1]
    simp only [Option.bind_eq_bind, Option.bind_some, h.team_eq, h.members, hidentity, hmoderators]

end Replaced

/-- The data that a user receives. -/
def received (published : List Published) (user : ℕ) : List TicketUpdated :=
  (published.filter fun p => user ∈ p.ids).map Published.data

lemma mem_ids {users : List ℕ} {data : TicketUpdated} {p : Published} {user : ℕ}
    (hp : p ∈ publishUsers users data) : user ∈ p.ids ↔ user ∈ users := by
  unfold publishUsers at hp
  simp only at hp
  split_ifs at hp with hempty
  · cases hp
  · rw [List.mem_singleton.1 hp, List.mem_dedup, List.mem_insertionSort]

/-- Users receive nothing that is published to others. -/
lemma received_publishUsers {users : List ℕ} {data : TicketUpdated} {user : ℕ}
    (h : user ∉ users) : received (publishUsers users data) user = [] := by
  unfold received
  rw [List.filter_eq_nil_iff.2, List.map_nil]
  intro p hp
  rw [decide_eq_true_iff, mem_ids hp]
  exact h

lemma received_append (l l' : List Published) (user : ℕ) :
    received (l ++ l') user = received l user ++ received l' user := by
  rw [received, List.filter_append, List.map_append]
  rfl

lemma StaffSwap.mem_moderators {desk : Desk} {teamId u u' : ℕ} (h : desk.StaffSwap teamId u u') :
    u ∈ desk.moderators ∧ u' ∈ desk.moderators := by
  obtain ⟨row, hrow, row', hrow', rfl, rfl, hrole, hstaff⟩ := h.role
  refine ⟨List.mem_map_of_mem (List.mem_filter.2 ⟨hrow, decide_eq_true hstaff⟩),
    List.mem_map_of_mem (List.mem_filter.2 ⟨hrow', decide_eq_true ?_⟩)⟩
  rw [← hrole]
  exact hstaff

/-- Players do not learn which of the moderators acted. -/
lemma received_eq {desk : Desk} {avatarUrl : String → ℤ → String} {ticketId : ℕ} {tk : TicketRow}
    {t : TeamRow} (htk : desk.ticket ticketId = some tk) (ht : desk.team tk.teamId = some t)
    (hidentity : (desk.getStaffIdentity avatarUrl t.gameId).isSome) {actor actor' : ℕ}
    (hactor : actor ∈ desk.moderators) (hactor' : actor' ∈ desk.moderators) (event : String)
    (messageId : Option ℕ) {player : ℕ} (hplayer : player ∉ desk.moderators) :
    (desk.notifyTicketUpdated avatarUrl ticketId event messageId actor).map
        (fun published => received published player) =
      (desk.notifyTicketUpdated avatarUrl ticketId event messageId actor').map
        fun published => received published player := by
  unfold notifyTicketUpdated
  simp only [htk, Option.bind_eq_bind, Option.bind_some, ht, hidentity, hactor, hactor', and_self,
    if_true, Option.map_some, received_append, received_publishUsers hplayer]

/-- **Players receive the same** from states that differ in who acted as staff. -/
theorem staff_indistinguishable (desk desk' : Desk) (json : CursorJson)
    (avatarUrl : String → ℤ → String) (team : TeamRow) (identity : RbGameStaffIdentity)
    (hteam : desk.team team.id = some team)
    (hidentity : desk.getStaffIdentity avatarUrl team.gameId = some identity)
    (h : StaffReplaced desk desk' team.id) :
    (∀ clock ticketId info request,
      (desk.getTicketThread json avatarUrl clock ticketId info request).map
          (fun thread => thread.anonymizeStaff identity) =
        (desk'.getTicketThread json avatarUrl clock ticketId info request).map
          fun thread => thread.anonymizeStaff identity) ∧
    (∀ clock teamId v trusted request,
      (desk.getDmTicketThread json avatarUrl clock teamId v trusted request).anonymizeStaff
          identity =
        (desk'.getDmTicketThread json avatarUrl clock teamId v trusted request).anonymizeStaff
          identity) ∧
    ∀ ticketId tk event messageId actor actor' player, desk.ticket ticketId = some tk →
      tk.teamId = team.id → Swapped (desk.StaffSwap team.id) actor actor' →
      player ∉ desk.moderators →
      (desk.notifyTicketUpdated avatarUrl ticketId event messageId actor).map
          (fun published => received published player) =
        (desk'.notifyTicketUpdated avatarUrl ticketId event messageId actor').map
          fun published => received published player := by
  refine ⟨fun _ _ _ _ => h.alike.thread_eq json avatarUrl _ _ _ _,
    fun _ _ _ _ _ => h.alike.dmThread_eq json avatarUrl _ _ _ _ _, ?_⟩
  intro ticketId tk event messageId actor actor' player htk htkteam hswap hplayer
  rw [← h.alike.notify_eq]
  rcases hswap with rfl | hswap
  · rfl
  · exact received_eq htk (htkteam ▸ hteam) (by rw [hidentity]; rfl) hswap.mem_moderators.1
      hswap.mem_moderators.2 event messageId hplayer

/-! A team of a member and two moderators outside of it, with one message of one of them. -/

def helpdeskUsers : List UserRow :=
  [⟨2, "solver", none, 0, 1⟩, ⟨5, "ada", none, 0, 2⟩, ⟨6, "ben", none, 0, 2⟩]

def helpdeskMessages (senderType : ℤ) (sender : ℕ) : List MessageRow :=
  [⟨3, "We are stuck.", 2, sender, senderType, none, 0, true, 7, 1728000000000001, none, none, 0⟩]

lemma helpdeskMessages_nodup (senderType : ℤ) (sender : ℕ) :
    ((helpdeskMessages senderType sender).map MessageRow.id).Nodup := List.nodup_singleton 3

lemma helpdesk_sender {senderType : ℤ} {sender : ℕ} (h : sender = 5 ∨ sender = 6) :
    ∀ m ∈ helpdeskMessages senderType sender, ∃ u ∈ helpdeskUsers, u.id = m.sender := by
  intro m hm
  rw [List.mem_singleton.1 hm]
  have hall : ∀ n ∈ [5, 6], ∃ u ∈ helpdeskUsers, u.id = n := by decide
  exact hall sender (by simpa using h)

lemma helpdesk_stamped {senderType : ℤ} {sender : ℕ} :
    ∀ m ∈ helpdeskMessages senderType sender,
      Numeric.FourDigitYear m.ctimeAt ∧ m.id < 2147483648 := by
  intro m hm
  rw [List.mem_singleton.1 hm]
  exact show Numeric.FourDigitYear 1728000000000001 ∧ 3 < 2147483648 by decide

def helpdesk (senderType : ℤ) (sender : ℕ) (h : sender = 5 ∨ sender = 6) : Desk where
  users := helpdeskUsers
  messages := helpdeskMessages senderType sender
  operations := []
  messages_nodup := helpdeskMessages_nodup senderType sender
  operations_nodup := List.nodup_nil
  sender_exists := helpdesk_sender h
  actor_exists := List.forall_mem_nil _
  message_stamped m hm := (helpdesk_stamped m hm).1
  operation_stamped := List.forall_mem_nil _
  message_id_lt m hm := (helpdesk_stamped m hm).2
  operation_id_lt := List.forall_mem_nil _
  tickets := [⟨7, 1, 1, none, none⟩]
  teams := [⟨1, "Solvers", false, none, none, 9⟩]
  puzzles := []
  members _ := [2]
  teamPuzzle _ _ := none
  gameFeature _ _ := none
  teamFeature _ _ := none
  currencyInfo _ := []
  displaySettings _ := some ⟨some "Staff", none, 0⟩
  assignee_exists t ht u hu := by
    rw [List.mem_singleton.1 ht] at hu
    cases hu

lemma helpdesk_swap (senderType : ℤ) :
    (helpdesk senderType 5 (Or.inl rfl)).StaffSwap 1 5 6 where
  role := ⟨⟨5, "ada", none, 0, 2⟩, List.mem_cons_of_mem _ List.mem_cons_self,
    ⟨6, "ben", none, 0, 2⟩, List.mem_cons_of_mem _ (List.mem_cons_of_mem _ List.mem_cons_self),
    rfl, rfl, rfl, show (2 : ℤ) ≤ 2 from le_refl 2⟩
  outside := show 5 ∉ [2] by decide
  outside' := show 6 ∉ [2] by decide

/-- The message of the one moderator may be that of the other. -/
lemma helpdesk_replaced {may : ℤ → ℕ → ℕ → Prop} {assigned : ℕ → ℕ → Prop} {senderType : ℤ}
    (h : may senderType 5 6) :
    Replaced may assigned (helpdesk senderType 5 (Or.inl rfl))
      (helpdesk senderType 6 (Or.inr rfl)) where
  users := rfl
  messages := .cons ⟨rfl, Or.inr h⟩ .nil
  operations := .nil
  tickets := .cons ⟨rfl, .none⟩ .nil
  teams := rfl
  puzzles := rfl
  members := rfl
  teamPuzzle := rfl
  gameFeature := rfl
  teamFeature := rfl
  currencyInfo := rfl
  displaySettings := rfl

theorem staff_indistinguishable_helpdesk :
    ((helpdesk 1 5 (Or.inl rfl)).getTicketThread .compact (fun _ _ => "") (fun _ => 0) 7
        ⟨true, false, false⟩ {}).map (fun thread => thread.anonymizeStaff ⟨"Staff", none⟩) =
      ((helpdesk 1 6 (Or.inr rfl)).getTicketThread .compact (fun _ _ => "") (fun _ => 0) 7
        ⟨true, false, false⟩ {}).map (fun thread => thread.anonymizeStaff ⟨"Staff", none⟩) ∧
    ((helpdesk 1 5 (Or.inl rfl)).notifyTicketUpdated (fun _ _ => "") 7 "message" (some 3) 5).map
        (fun published => received published 2) =
      ((helpdesk 1 6 (Or.inr rfl)).notifyTicketUpdated (fun _ _ => "") 7 "message" (some 3) 6).map
        fun published => received published 2 := by
  have h := staff_indistinguishable (helpdesk 1 5 (Or.inl rfl)) (helpdesk 1 6 (Or.inr rfl)) .compact
    (fun _ _ => "") ⟨1, "Solvers", false, none, none, 9⟩ ⟨"Staff", none⟩ rfl rfl
    (helpdesk_replaced ⟨rfl, helpdesk_swap 1⟩)
  exact ⟨h.1 _ 7 _ _, h.2.2 7 _ "message" (some 3) 5 6 2 rfl rfl (Or.inr (helpdesk_swap 1))
    (by decide)⟩

/-- A message that a moderator sent as a member of the team, before leaving it, shows who sent
it. -/
theorem team_message_shows_sender :
    Replaced (fun _ => (helpdesk 0 5 (Or.inl rfl)).StaffSwap 1)
        ((helpdesk 0 5 (Or.inl rfl)).StaffSwap 1) (helpdesk 0 5 (Or.inl rfl))
        (helpdesk 0 6 (Or.inr rfl)) ∧
      (helpdesk 0 5 (Or.inl rfl)).getStaffIdentity (fun _ _ => "") 9 = some ⟨"Staff", none⟩ ∧
      ((helpdesk 0 5 (Or.inl rfl)).getTicketThread .compact (fun _ _ => "") (fun _ => 0) 7
          ⟨true, false, false⟩ {}).map (fun thread => thread.anonymizeStaff ⟨"Staff", none⟩) ≠
        ((helpdesk 0 6 (Or.inr rfl)).getTicketThread .compact (fun _ _ => "") (fun _ => 0) 7
          ⟨true, false, false⟩ {}).map fun thread => thread.anonymizeStaff ⟨"Staff", none⟩ := by
  refine ⟨helpdesk_replaced (helpdesk_swap 0), rfl, fun heq => ?_⟩
  have hmessages := congrArg (Option.map TicketThread.messages) heq
  revert hmessages
  decide +kernel

end Desk

end Threads
