import RbphBackend.Threads.Pages

set_option relaxedAutoImplicit false
set_option autoImplicit false

/-!
# Reading a thread to its end

A reader asks for a page without a place, and then for what the history of the last page leaves to
read, until a page has no more. The pages may be made at different times, at which different
messages are unlocked.

## Main definitions

* `Threads.ticketPageRequest` — the request of a query.
* `Threads.Tables.readThread` — the pages of a reader.

## Main results

* `Threads.Tables.readThread_complete` — they have every item of the thread once.
-/

namespace Threads

open Paging.Merge

/-- `TicketThreadQuery`. -/
structure TicketThreadQuery where
  before : Option (List Char) := none
  after : Option (List Char) := none
  stop : Option (List Char) := none

/-- `RbError::bad_req`, with its code. -/
inductive RbError where
  | badReq (code : ℤ)
  deriving DecidableEq

section

variable (json : CursorJson)

/-- A cursor of a query, where it has one. -/
def decodeCursor : Option (List Char) → Except RbError (Option TicketCursor)
  | none => .ok none
  | some text =>
    match TicketCursor.decode json text with
    | some c => .ok (some c)
    | none => .error (.badReq (-1))

/-- `ticket_page_request`. -/
def ticketPageRequest (query : TicketThreadQuery) : Except RbError TicketPageRequest :=
  if (query.before.isSome && query.after.isSome) || (query.stop.isSome && query.after.isNone) then
    .error (.badReq (-1))
  else do
    let before ← decodeCursor json query.before
    let after ← decodeCursor json query.after
    let stop ← decodeCursor json query.stop
    return { before, after, stop }

end

/-- The query for what a page leaves to read. -/
def TicketHistory.next (history : TicketHistory) : TicketThreadQuery :=
  ⟨history.before, history.after, history.stop⟩

/-- The texts of a history. -/
def TicketHistory.texts (history : TicketHistory) : List (List Char) :=
  [history.before, history.after, history.stop, history.newer].filterMap id

lemma TicketHistory.mem_texts {history : TicketHistory} {text : List Char} :
    text ∈ history.texts ↔ history.before = some text ∨ history.after = some text ∨
      history.stop = some text ∨ history.newer = some text := by
  simp only [texts, List.mem_filterMap, List.mem_cons, List.not_mem_nil, or_false, id_eq,
    exists_eq_or_imp, exists_eq_left]

/-- The pages of a reader who asks, at most so many times, for what is left to read. The queries of
a page read the clock one after the other. -/
def Tables.readThread (T : Tables) (json : CursorJson) (ticketId : ℕ) (v isPuzzle : Bool)
    (clock : ℕ → ℕ → ℤ) : ℕ → TicketThreadQuery → Option (List TicketMessagePage)
  | 0, _ => none
  | n + 1, query =>
    match ticketPageRequest json query with
    | .error _ => none
    | .ok request =>
      let page := T.getTicketPage json (clock n) ticketId v isPuzzle request
      if page.history.hasMore then
        (T.readThread json ticketId v isPuzzle clock n page.history.next).map (page :: ·)
      else some [page]

/-- What a thread has: the messages that no operation has, and the operations. -/
def Tables.threadRefs (T : Tables) (ticketId : ℕ) : List ItemRef :=
  (T.messages.filter fun m => m.ticketId = ticketId ∧
      ∀ o ∈ T.operations, o.messageId ≠ some m.id).map (fun m => .message m.id) ++
    (T.operations.filter fun o => o.ticketId = ticketId).map fun o => .operation o.id

namespace Tables

variable {T : Tables} {json : CursorJson} {ticketId : ℕ} {v isPuzzle : Bool}
  {clock : ℕ → ℕ → ℤ} {c d s : TicketCursor}

/-! ## Places and their texts -/

lemma storable_of_mem_places (h : c ∈ T.places ticketId) : c.Storable := by
  rw [places, mem_ascending, rowPlaces, List.mem_append] at h
  rcases h with h | h
  · obtain ⟨row, hrow, rfl⟩ := List.mem_map.1 h
    have hm : row.1 ∈ T.messages := by
      have hfst := List.mem_map_of_mem (f := Prod.fst) hrow
      rw [map_fst_messageRows] at hfst
      exact List.mem_of_mem_filter hfst
    have hlt := T.message_id_lt _ hm
    refine ⟨T.message_stamped _ hm, show (-128 : ℤ) ≤ 1 ∧ (1 : ℤ) < 128 by decide, ?_⟩
    simp only [MessageRow.cursor]
    omega
  · obtain ⟨row, hrow, rfl⟩ := List.mem_map.1 h
    have ho : row.1 ∈ T.operations := by
      have hfst := List.mem_map_of_mem (f := Prod.fst) hrow
      rw [map_fst_operationRows] at hfst
      exact List.mem_of_mem_filter hfst
    have hlt := T.operation_id_lt _ ho
    refine ⟨T.operation_stamped _ ho, ?_, ?_⟩
    · simp only [OperationRow.cursor]
      split_ifs <;> decide
    · simp only [OperationRow.cursor]
      omega

/-- The places of a thread are its messages and operations. -/
lemma map_ref_places_perm : ((T.places ticketId).map TicketCursor.ref).Perm
    (T.threadRefs ticketId) := by
  refine (perm_ascending.map _).trans ?_
  rw [rowPlaces, threadRefs, List.map_append, List.map_map, List.map_map,
    ← map_fst_messageRows, ← map_fst_operationRows, List.map_map, List.map_map]
  refine List.Perm.of_eq ?_
  congr 1
  exact List.map_congr_left fun row _ => by
    simp only [Function.comp_apply, OperationRow.cursor, TicketCursor.ref]
    split_ifs <;> first | rfl | omega

lemma nodup_threadRefs (ticketId : ℕ) : (T.threadRefs ticketId).Nodup := by
  rw [threadRefs, List.nodup_append]
  refine ⟨?_, ?_, ?_⟩
  · refine List.Nodup.of_map (fun | .message id => id | .operation id => id) ?_
    rw [List.map_map]
    exact T.messages_nodup.sublist (List.filter_sublist.map MessageRow.id)
  · refine List.Nodup.of_map (fun | .message id => id | .operation id => id) ?_
    rw [List.map_map]
    exact T.operations_nodup.sublist (List.filter_sublist.map OperationRow.id)
  · intro a ha b hb heq
    obtain ⟨m, -, rfl⟩ := List.mem_map.1 ha
    obtain ⟨o, -, rfl⟩ := List.mem_map.1 hb
    cases heq

lemma inRange_up : inRange true (some c) (some s) d ↔ c < d ∧ d < s := by
  simp [inRange, TicketCursor.lt_iff, eq_comm]

lemma inRange_down : inRange false (some c) none d ↔ d < c := by
  simp [inRange, TicketCursor.lt_iff]

lemma inRange_all (up : Bool) : inRange up none none d := ⟨Or.inl rfl, Or.inl rfl⟩

/-! ## Following a history -/

variable (T json ticketId) in
/-- The items of a page are in order, and the texts of its history are those of places. -/
structure WellFormed (p : TicketMessagePage) : Prop where
  sorted : (p.items.map itemCursor).Pairwise (· < ·)
  texts : ∀ text ∈ p.history.texts, ∃ c ∈ T.places ticketId, text = c.encode json

variable (T json ticketId) in
/-- The pages have these places, each once, and are well formed. -/
def Delivers (pages : List TicketMessagePage) (R : List TicketCursor) : Prop :=
  (pages.flatMap fun p => p.items.map itemCursor).Perm R ∧
    ∀ p ∈ pages, T.WellFormed json ticketId p

lemma delivers_singleton {p : TicketMessagePage} {R : List TicketCursor}
    (h : p.items.map itemCursor = R) (hp : T.WellFormed json ticketId p) :
    T.Delivers json ticketId [p] R := by
  refine ⟨?_, fun q hq => ?_⟩
  · rw [List.flatMap_singleton, h]
  · rw [List.mem_singleton.1 hq]
    exact hp

lemma Delivers.cons {p : TicketMessagePage} {pages : List TicketMessagePage}
    {R whole : List TicketCursor} (h : T.Delivers json ticketId pages R)
    (hp : T.WellFormed json ticketId p) (hperm : (p.items.map itemCursor ++ R).Perm whole) :
    T.Delivers json ticketId (p :: pages) whole := by
  refine ⟨?_, fun q hq => ?_⟩
  · rw [List.flatMap_cons]
    exact (h.1.append_left _).trans hperm
  · rcases List.mem_cons.1 hq with rfl | hq
    · exact hp
    · exact h.2 q hq

lemma readThread_succ {n : ℕ} {query : TicketThreadQuery} {request : TicketPageRequest}
    (h : ticketPageRequest json query = .ok request) :
    T.readThread json ticketId v isPuzzle clock (n + 1) query =
      let page := T.getTicketPage json (clock n) ticketId v isPuzzle request
      if page.history.hasMore then
        (T.readThread json ticketId v isPuzzle clock n page.history.next).map (page :: ·)
      else some [page] := by
  rw [readThread, h]

lemma decodeCursor_encode (hjson : json.Faithful) (h : c.Storable) :
    decodeCursor json (some (c.encode json)) = .ok (some c) := by
  rw [decodeCursor, TicketCursor.decode_encode hjson h]

lemma ticketPageRequest_before (hjson : json.Faithful) (h : c.Storable) :
    ticketPageRequest json ⟨some (c.encode json), none, none⟩ = .ok { before := some c } := by
  rw [ticketPageRequest, if_neg (by simp), decodeCursor_encode hjson h]
  rfl

lemma ticketPageRequest_after (hjson : json.Faithful) (h : c.Storable) (h' : s.Storable) :
    ticketPageRequest json ⟨none, some (c.encode json), some (s.encode json)⟩ =
      .ok { after := some c, stop := some s } := by
  rw [ticketPageRequest, if_neg (by simp), decodeCursor_encode hjson h,
    decodeCursor_encode hjson h']
  rfl

variable (T ticketId) in
/-- The places before one. -/
def placesBefore (c : TicketCursor) : List TicketCursor :=
  (T.places ticketId).filter fun d => decide (d < c)

variable (T ticketId) in
/-- The places between two. -/
def placesBetween (c s : TicketCursor) : List TicketCursor :=
  (T.places ticketId).filter fun d => decide (c < d ∧ d < s)

lemma range_before : T.range ticketId { before := some c } = T.placesBefore ticketId c := by
  unfold range placesBefore
  exact List.filter_congr fun d _ => decide_eq_decide.2 inRange_down

lemma range_between : T.range ticketId { after := some c, stop := some s } =
    T.placesBetween ticketId c s := by
  unfold range placesBetween
  exact List.filter_congr fun d _ => decide_eq_decide.2 inRange_up

lemma placesBefore_of_lt (h : d < c) :
    (T.placesBefore ticketId c).filter (fun e => decide (e < d)) = T.placesBefore ticketId d := by
  rw [placesBefore, List.filter_filter, placesBefore]
  refine List.filter_congr fun e _ => ?_
  rw [← Bool.decide_and]
  exact decide_eq_decide.2 ⟨And.left, fun hlt => ⟨hlt, hlt.trans h⟩⟩

lemma placesBetween_of_lt (h : c < d) :
    (T.placesBetween ticketId c s).filter (fun e => decide (d < e)) =
      T.placesBetween ticketId d s := by
  rw [placesBetween, List.filter_filter, placesBetween]
  refine List.filter_congr fun e _ => ?_
  rw [← Bool.decide_and]
  exact decide_eq_decide.2 ⟨fun hlt => ⟨hlt.1, hlt.2.2⟩, fun hlt => ⟨hlt.1, h.trans hlt.1, hlt.2⟩⟩

section

variable (T json ticketId v isPuzzle) (next : TicketCursor → TicketThreadQuery)
  (rest : TicketCursor → List TicketCursor)

/-- The page of a query, at any time, is the end of what is left, or leaves less to be read. -/
def Advances (query : TicketThreadQuery) (left : List TicketCursor) : Prop :=
  ∃ request, ticketPageRequest json query = .ok request ∧ ∀ now,
    let page := T.getTicketPage json now ticketId v isPuzzle request
    let found := page.items.map itemCursor
    T.WellFormed json ticketId page ∧
      (page.history.hasMore = false ∧ found = left ∨
        page.history.hasMore = true ∧ ∃ d ∈ T.places ticketId, page.history.next = next d ∧
          (found ++ rest d).Perm left ∧ (rest d).length < left.length)

end

/-- **A reader gets what is left**, where each page advances. -/
lemma readThread_of_advances {next : TicketCursor → TicketThreadQuery}
    {rest : TicketCursor → List TicketCursor}
    (hnext : ∀ d ∈ T.places ticketId,
      T.Advances json ticketId v isPuzzle next rest (next d) (rest d))
    {query : TicketThreadQuery} {left : List TicketCursor}
    (h : T.Advances json ticketId v isPuzzle next rest query left) {n : ℕ}
    (hn : left.length < n) :
    ∃ pages, T.readThread json ticketId v isPuzzle clock n query = some pages ∧
      T.Delivers json ticketId pages left := by
  induction n generalizing query left with
  | zero => exact absurd hn (Nat.not_lt_zero _)
  | succ n ih =>
    obtain ⟨request, hrequest, hpage⟩ := h
    obtain ⟨hpage, ⟨hmore, hleft⟩ | ⟨hmore, d, hd, hhistory, hperm, hlt⟩⟩ := hpage (clock n)
    · refine ⟨_, ?_, delivers_singleton hleft hpage⟩
      rw [readThread_succ hrequest]
      simp only [hmore, Bool.false_eq_true, if_false]
    · obtain ⟨pages, hread, hdelivers⟩ := ih (hnext d hd) (by omega)
      refine ⟨_, ?_, hdelivers.cons hpage hperm⟩
      rw [readThread_succ hrequest]
      simp only [hmore, if_true, hhistory, hread, Option.map_some]

/-! ## The pages of the two directions -/

/-- A page is well formed where its stop is a place. -/
lemma wellFormed_page (now : ℕ → ℤ) (request : TicketPageRequest) (limit : ℕ)
    (hstop : ∀ s ∈ request.stop, s ∈ T.places ticketId) :
    T.WellFormed json ticketId (T.getTicketMessagesPage json now ticketId v request limit) := by
  have hrange : (T.range ticketId request).Sublist (T.places ticketId) := List.filter_sublist
  have hsub : (request.cut limit (T.range ticketId request)).Sublist (T.places ticketId) := by
    unfold TicketPageRequest.cut latest
    split_ifs
    · exact (List.take_sublist _ _).trans hrange
    · exact (List.drop_sublist _ _).trans hrange
  constructor
  · rw [page_places]
    exact (pairwise_places ticketId).sublist hsub
  · intro text htext
    have hplace : ∀ o : Option TicketCursor, (∀ c ∈ o, c ∈ T.places ticketId) →
        (o.map fun c => c.encode json) = some text →
        ∃ c ∈ T.places ticketId, text = c.encode json := by
      intro o ho heq
      obtain ⟨c, rfl, rfl⟩ := Option.map_eq_some_iff.1 heq
      exact ⟨c, ho c rfl, rfl⟩
    rw [page_history, TicketHistory.mem_texts] at htext
    rcases htext with h | h | h | h
    · simp only [historyOf, Option.ite_none_right_eq_some] at h
      exact hplace _ (fun c hc => hsub.subset (List.mem_of_head? hc)) h.2
    · simp only [historyOf, Option.ite_none_right_eq_some] at h
      exact hplace _ (fun c hc => hsub.subset (List.mem_of_getLast? hc)) h.2
    · exact hplace _ hstop h
    · exact hplace _ (fun c hc => hsub.subset (List.mem_of_getLast? hc)) h

/-- The query for the places before one. -/
def queryBefore (json : CursorJson) (c : TicketCursor) : TicketThreadQuery :=
  ⟨some (c.encode json), none, none⟩

/-- The query for the places between two. -/
def queryBetween (json : CursorJson) (s c : TicketCursor) : TicketThreadQuery :=
  ⟨none, some (c.encode json), some (s.encode json)⟩

/-- Reading downwards, a page leaves the places before its first. -/
lemma advances_before (hjson : json.Faithful) (hc : c ∈ T.places ticketId) :
    T.Advances json ticketId v isPuzzle (queryBefore json) (T.placesBefore ticketId)
      (queryBefore json c) (T.placesBefore ticketId c) := by
  refine ⟨_, ticketPageRequest_before hjson (storable_of_mem_places hc), fun now => ?_⟩
  have hsorted : (T.placesBefore ticketId c).Pairwise (· < ·) :=
    (pairwise_places ticketId).filter _
  have hformed : T.WellFormed json ticketId
      (T.getTicketMessagesPage json now ticketId v { before := some c } 50) :=
    wellFormed_page now _ 50 fun s hs => by cases hs
  have hpage : T.getTicketPage json now ticketId v isPuzzle { before := some c } =
      T.getTicketMessagesPage json now ticketId v { before := some c } 50 := rfl
  have hitems := page_places T json now ticketId v { before := some c } 50
  have hhistory := page_history T json now ticketId v { before := some c } 50
  rw [range_before] at hitems hhistory
  simp only [hpage, hitems, hhistory]
  refine ⟨hformed, ?_⟩
  by_cases hmore : 50 < (T.placesBefore ticketId c).length
  · obtain ⟨l₁, d, l₂, hlatest, hsplit, hlt⟩ := exists_latest (by decide) hmore
    have hd : d ∈ T.placesBefore ticketId c := by
      rw [hsplit]
      exact List.mem_append_right _ List.mem_cons_self
    have hrest : T.placesBefore ticketId d = l₁ := by
      rw [← placesBefore_of_lt (of_decide_eq_true (List.mem_filter.1 hd).2), hsplit]
      exact filter_lt_append (hsplit ▸ hsorted)
    have hcut : TicketPageRequest.cut { before := some c } 50 (T.placesBefore ticketId c) =
        d :: l₂ := hlatest
    refine Or.inr ⟨decide_eq_true hmore, d, List.mem_of_mem_filter hd, ?_, ?_, ?_⟩
    · simp [historyOf, TicketHistory.next, queryBefore, hcut, hmore, TicketPageRequest.upwards]
    · rw [hcut, hrest, hsplit]
      exact List.perm_append_comm
    · rw [hrest]
      exact hlt
  · refine Or.inl ⟨decide_eq_false hmore, ?_⟩
    show latest 50 (T.placesBefore ticketId c) = _
    rw [latest, Nat.sub_eq_zero_of_le (Nat.le_of_not_lt hmore), List.drop_zero]

/-- Reading upwards, a page leaves the places after its last. -/
lemma advances_between (hjson : json.Faithful) (hs : s ∈ T.places ticketId)
    (hc : c ∈ T.places ticketId) :
    T.Advances json ticketId v isPuzzle (queryBetween json s)
      (fun d => T.placesBetween ticketId d s) (queryBetween json s c)
      (T.placesBetween ticketId c s) := by
  refine ⟨_, ticketPageRequest_after hjson (storable_of_mem_places hc)
    (storable_of_mem_places hs), fun now => ?_⟩
  have hsorted : (T.placesBetween ticketId c s).Pairwise (· < ·) :=
    (pairwise_places ticketId).filter _
  have hformed : T.WellFormed json ticketId
      (T.getTicketMessagesPage json now ticketId v { after := some c, stop := some s } 50) :=
    wellFormed_page now _ 50 fun d hd => Option.some.inj hd ▸ hs
  have hpage : T.getTicketPage json now ticketId v isPuzzle { after := some c, stop := some s } =
      T.getTicketMessagesPage json now ticketId v { after := some c, stop := some s } 50 := rfl
  have hitems := page_places T json now ticketId v
    { after := some c, stop := some s } 50
  have hhistory := page_history T json now ticketId v
    { after := some c, stop := some s } 50
  rw [range_between] at hitems hhistory
  simp only [hpage, hitems, hhistory]
  refine ⟨hformed, ?_⟩
  by_cases hmore : 50 < (T.placesBetween ticketId c s).length
  · obtain ⟨l₁, d, l₂, htake, hsplit, hlt⟩ := exists_take (by decide) hmore
    have hd : d ∈ T.placesBetween ticketId c s := by
      rw [hsplit]
      exact List.mem_append_right _ List.mem_cons_self
    have hrest : T.placesBetween ticketId d s = l₂ := by
      rw [← placesBetween_of_lt (of_decide_eq_true (List.mem_filter.1 hd).2).1, hsplit]
      exact filter_gt_append (hsplit ▸ hsorted)
    have hcut : TicketPageRequest.cut { after := some c, stop := some s } 50
        (T.placesBetween ticketId c s) = l₁ ++ [d] := htake
    refine Or.inr ⟨decide_eq_true hmore, d, List.mem_of_mem_filter hd, ?_, ?_, ?_⟩
    · simp [historyOf, TicketHistory.next, queryBetween, hcut, hmore, TicketPageRequest.upwards]
    · rw [hcut, hrest, hsplit, List.append_assoc]
      exact List.Perm.refl _
    · rw [hrest]
      exact hlt
  · refine Or.inl ⟨decide_eq_false hmore, ?_⟩
    show (T.placesBetween ticketId c s).take 50 = _
    rw [List.take_of_length_le (Nat.le_of_not_lt hmore)]

/-! ## The first page -/

lemma range_all (oldest : Bool) : T.range ticketId { oldest } = T.places ticketId :=
  List.filter_eq_self.2 fun _ _ => decide_eq_true (inRange_all _)

/-- The latest places, where there are more of them than a page has. -/
lemma placesBefore_of_split {l₁ l₂ : List TicketCursor} (h : T.places ticketId = l₁ ++ d :: l₂) :
    T.placesBefore ticketId d = l₁ := by
  have hsorted := pairwise_places (T := T) ticketId
  rw [placesBefore, h]
  exact filter_lt_append (h ▸ hsorted)

variable (T json ticketId v) in
/-- What a first page has that is the latest one. -/
lemma latest_page (now : ℕ → ℤ) :
    let page := T.getTicketMessagesPage json now ticketId v {} 50
    T.WellFormed json ticketId page ∧
      page.items.map itemCursor = latest 50 (T.places ticketId) ∧
      page.history = historyOf json {} 50 (T.places ticketId) := by
  have hitems := page_places T json now ticketId v {} 50
  have hhistory := page_history T json now ticketId v {} 50
  rw [range_all false] at hitems hhistory
  exact ⟨wellFormed_page now _ 50 fun s hs => (by cases hs), hitems, hhistory⟩

/-- The page without a place is the latest one, but for long threads of puzzles. -/
lemma advances_latest (h : isPuzzle = false ∨ ¬ 50 < (T.places ticketId).length) :
    T.Advances json ticketId v isPuzzle (queryBefore json) (T.placesBefore ticketId) {}
      (T.places ticketId) := by
  refine ⟨{}, rfl, fun now => ?_⟩
  obtain ⟨hformed, hitems, hhistory⟩ := latest_page T json ticketId v now
  have hpage : T.getTicketPage json now ticketId v isPuzzle {} =
      T.getTicketMessagesPage json now ticketId v {} 50 := by
    unfold getTicketPage
    rw [if_neg (by simp)]
    rcases h with rfl | hle
    · rfl
    · rw [if_pos]
      rw [hhistory]
      simp [historyOf, hle]
  simp only [hpage, hitems, hhistory]
  refine ⟨hformed, ?_⟩
  by_cases hmore : 50 < (T.places ticketId).length
  · obtain ⟨l₁, d, l₂, hlatest, hsplit, hlt⟩ := exists_latest (by decide) hmore
    have hcut : TicketPageRequest.cut {} 50 (T.places ticketId) = d :: l₂ := hlatest
    refine Or.inr ⟨decide_eq_true hmore, d, ?_, ?_, ?_, ?_⟩
    · rw [hsplit]
      exact List.mem_append_right _ List.mem_cons_self
    · simp [historyOf, TicketHistory.next, queryBefore, hcut, hmore, TicketPageRequest.upwards]
    · rw [placesBefore_of_split hsplit, hlatest, hsplit]
      exact List.perm_append_comm
    · rw [placesBefore_of_split hsplit]
      exact hlt
  · refine Or.inl ⟨decide_eq_false hmore, ?_⟩
    rw [latest, Nat.sub_eq_zero_of_le (Nat.le_of_not_lt hmore), List.drop_zero]

/-- The page that has the oldest item in front of the latest ones. -/
lemma getTicketPage_stitched {now : ℕ → ℤ} {firstItem : TicketThreadItem}
    (hbefore : (T.getTicketMessagesPage json now ticketId v {} 50).history.before ≠ none)
    (hfirst : (T.getTicketMessagesPage json (fun n => now (n + 2)) ticketId v
      { oldest := true } 1).items = [firstItem])
    (hhead : (T.getTicketMessagesPage json now ticketId v {} 50).items.head?.map itemCursor =
      some s)
    (hnew : ∀ i ∈ (T.getTicketMessagesPage json now ticketId v {} 50).items,
      (itemCursor i).encode json ≠ (itemCursor firstItem).encode json) :
    let latest := T.getTicketMessagesPage json now ticketId v {} 50
    let newer := (firstItem :: latest.items).getLast?.map fun i => (itemCursor i).encode json
    T.getTicketPage json now ticketId v true {} = ⟨firstItem :: latest.items,
      if (T.getTicketMessagesPage json (fun n => now (n + 4)) ticketId v
          { after := some (itemCursor firstItem), stop := some s } 1).items.isEmpty then { newer }
      else
        { after := some ((itemCursor firstItem).encode json)
          stop := some (s.encode json)
          newer
          hasMore := true }⟩ := by
  have hany : ((T.getTicketMessagesPage json now ticketId v {} 50).items.any fun i =>
      decide ((itemCursor i).encode json = (itemCursor firstItem).encode json)) = false :=
    List.any_eq_false.2 fun i hi => by
      rw [decide_eq_true_iff]
      exact hnew i hi
  unfold getTicketPage
  rw [if_neg (by simp), if_neg (by simpa using hbefore)]
  simp only [hfirst, List.head?_cons, hhead, hany, Bool.false_eq_true, if_false, Option.map_some]
  split_ifs <;> rfl

/-- The places between the oldest one and the latest ones. -/
lemma placesBetween_of_split {first : TicketCursor} {l l₂ : List TicketCursor}
    (h : T.places ticketId = first :: (l ++ s :: l₂)) : T.placesBetween ticketId first s = l := by
  have hsorted := pairwise_places (T := T) ticketId
  rw [h] at hsorted
  have hup : (T.places ticketId).filter (fun d => decide (first < d)) = l ++ s :: l₂ := by
    rw [h]
    exact filter_gt_append (show ([] ++ first :: (l ++ s :: l₂)).Pairwise (· < ·) from hsorted)
  have hand : T.placesBetween ticketId first s = ((T.places ticketId).filter fun d =>
      decide (first < d)).filter fun d => decide (d < s) := by
    rw [placesBetween, List.filter_filter]
    refine List.filter_congr fun d _ => ?_
    rw [← Bool.decide_and]
    exact decide_eq_decide.2 and_comm
  rw [hand, hup]
  exact filter_lt_append (List.pairwise_cons.1 hsorted).2

/-- The first page of a long thread of a puzzle has the oldest item and the latest ones. -/
lemma advances_stitched (hjson : json.Faithful) (h : 50 < (T.places ticketId).length) :
    ∃ s ∈ T.places ticketId, T.Advances json ticketId v true (queryBetween json s)
      (fun d => T.placesBetween ticketId d s) {} (T.places ticketId) := by
  obtain ⟨first, l, s, l₂, hlatest, hsplit⟩ := exists_latest_cons (by decide) h
  have hsorted := pairwise_places (T := T) ticketId
  have hmem : ∀ c, c ∈ T.places ticketId ↔ c = first ∨ c ∈ l ∨ c = s ∨ c ∈ l₂ := fun c => by
    rw [hsplit, List.mem_cons, List.mem_append, List.mem_cons]
  have hs : s ∈ T.places ticketId := (hmem s).2 (Or.inr (Or.inr (Or.inl rfl)))
  have hfirst : first ∈ T.places ticketId := (hmem first).2 (Or.inl rfl)
  rw [hsplit, List.pairwise_cons] at hsorted
  refine ⟨s, hs, {}, rfl, fun now => ?_⟩
  obtain ⟨hformed, hitems, hhistory⟩ := latest_page T json ticketId v now
  have hcut : TicketPageRequest.cut {} 50 (T.places ticketId) = s :: l₂ := hlatest
  rw [hlatest] at hitems
  -- the page of the oldest item, and that of what is between
  have holdest := page_places T json (fun n => now (n + 2)) ticketId v { oldest := true } 1
  rw [range_all true, hsplit] at holdest
  obtain ⟨firstItem, hfirstItem, rfl⟩ := List.map_eq_singleton_iff.1 holdest
  have hgap := page_places T json (fun n => now (n + 4)) ticketId v
    { after := some (itemCursor firstItem), stop := some s } 1
  rw [range_between, placesBetween_of_split hsplit] at hgap
  have hpage := getTicketPage_stitched (T := T) (v := v) (s := s)
    (by rw [hhistory]; simp [historyOf, hcut, h, TicketPageRequest.upwards]) hfirstItem
    (by rw [← List.head?_map, hitems]; rfl) (fun i hi => by
      have hplace : itemCursor i ∈ s :: l₂ := hitems ▸ List.mem_map_of_mem hi
      have hi' : itemCursor i ∈ T.places ticketId := by
        rw [hsplit]
        exact List.mem_cons_of_mem _ (List.mem_append_right _ hplace)
      rw [Ne, TicketCursor.encode_inj hjson (storable_of_mem_places hi')
        (storable_of_mem_places hfirst)]
      exact (hsorted.1 _ (List.mem_append_right _ hplace)).ne')
  rw [hpage]
  have hfound : (firstItem :: (T.getTicketMessagesPage json now ticketId v {} 50).items).map
      itemCursor = itemCursor firstItem :: s :: l₂ := by
    rw [List.map_cons, hitems]
  have hnewer : ∀ text, ((firstItem ::
      (T.getTicketMessagesPage json now ticketId v {} 50).items).getLast?.map fun i =>
        (itemCursor i).encode json) = some text →
      ∃ c ∈ T.places ticketId, text = c.encode json := by
    intro text htext
    obtain ⟨i, hi, rfl⟩ := Option.map_eq_some_iff.1 htext
    have hi' := List.mem_map_of_mem (f := itemCursor) (List.mem_of_getLast? hi)
    rw [hfound, List.mem_cons, List.mem_cons] at hi'
    exact ⟨_, (hmem _).2 (hi'.imp_right Or.inr), rfl⟩
  have hincreasing : (itemCursor firstItem :: s :: l₂).Pairwise (· < ·) :=
    List.pairwise_cons.2 ⟨fun c hc => hsorted.1 c (List.mem_append_right _ hc),
      (List.pairwise_append.1 hsorted.2).2.1⟩
  cases l with
  | nil =>
    have hempty : (T.getTicketMessagesPage json (fun n => now (n + 4)) ticketId v
        { after := some (itemCursor firstItem), stop := some s } 1).items = [] :=
      List.map_eq_nil_iff.1 hgap
    rw [hempty, List.isEmpty_nil, if_pos rfl]
    refine ⟨⟨hfound ▸ hincreasing, fun text htext => ?_⟩, Or.inl ⟨rfl, hfound.trans hsplit.symm⟩⟩
    rcases TicketHistory.mem_texts.1 htext with h | h | h | h
    · cases h
    · cases h
    · cases h
    · exact hnewer text h
  | cons d l =>
    have hne : (T.getTicketMessagesPage json (fun n => now (n + 4)) ticketId v
        { after := some (itemCursor firstItem), stop := some s } 1).items.isEmpty = false := by
      rw [← List.isEmpty_map (f := itemCursor), hgap]
      rfl
    rw [hne, if_neg Bool.false_ne_true]
    refine ⟨⟨hfound ▸ hincreasing, fun text htext => ?_⟩, Or.inr ⟨rfl, itemCursor firstItem, hfirst,
      rfl, ?_, ?_⟩⟩
    · rcases TicketHistory.mem_texts.1 htext with h | h | h | h
      · cases h
      · exact ⟨_, hfirst, (Option.some.inj h).symm⟩
      · exact ⟨_, hs, (Option.some.inj h).symm⟩
      · exact hnewer text h
    · simp only [hfound, placesBetween_of_split hsplit]
      rw [hsplit]
      exact List.Perm.cons _ List.perm_append_comm
    · simp only [placesBetween_of_split hsplit]
      rw [hsplit, List.length_cons (a := itemCursor firstItem), List.length_append]
      omega

variable (v isPuzzle clock) in
/-- A reader gets the places of the thread. -/
lemma exists_readThread (hjson : json.Faithful) {n : ℕ} (hn : (T.places ticketId).length < n) :
    ∃ pages, T.readThread json ticketId v isPuzzle clock n {} = some pages ∧
      T.Delivers json ticketId pages (T.places ticketId) := by
  by_cases h : isPuzzle = true ∧ 50 < (T.places ticketId).length
  · obtain ⟨rfl, hlong⟩ := h
    obtain ⟨s, hs, hstart⟩ := advances_stitched (v := v) hjson hlong
    exact readThread_of_advances (fun d hd => advances_between hjson hs hd) hstart hn
  · refine readThread_of_advances (fun d hd => advances_before hjson hd) (advances_latest ?_) hn
    rcases Bool.eq_false_or_eq_true isPuzzle with hpuzzle | hpuzzle
    · exact Or.inr fun hlong => h ⟨hpuzzle, hlong⟩
    · exact Or.inl hpuzzle

/-- **A reader gets every item of a thread once**, each page in order, and the texts of places are
decoded to them. -/
theorem readThread_complete (T : Tables) (json : CursorJson) (hjson : json.Faithful)
    (ticketId : ℕ) (v isPuzzle : Bool) (clock : ℕ → ℕ → ℤ) (n : ℕ)
    (hn : (T.threadRefs ticketId).length < n) :
    ∃ pages, T.readThread json ticketId v isPuzzle clock n {} = some pages ∧
      (T.threadRefs ticketId).Nodup ∧
      (pages.flatMap fun p => p.items.map TicketThreadItem.ref).Perm (T.threadRefs ticketId) ∧
      ∀ p ∈ pages, (p.items.Pairwise fun i j => itemCursor i < itemCursor j) ∧
        (∀ i ∈ p.items, TicketCursor.decode json ((itemCursor i).encode json) =
          some (itemCursor i)) ∧
        ∀ text ∈ p.history.texts, ∃ c : TicketCursor, text = c.encode json ∧
          TicketCursor.decode json text = some c := by
  have hperm : ((T.places ticketId).map TicketCursor.ref).Perm (T.threadRefs ticketId) :=
    map_ref_places_perm
  have hlength : (T.places ticketId).length < n := by
    rw [← hperm.length_eq, List.length_map] at hn
    exact hn
  obtain ⟨pages, hread, hdelivers⟩ := exists_readThread v isPuzzle clock hjson hlength
  have hrefs : (pages.flatMap fun p => p.items.map TicketThreadItem.ref) =
      (pages.flatMap fun p => p.items.map itemCursor).map TicketCursor.ref := by
    rw [List.map_flatMap]
    refine List.flatMap_congr fun p _ => ?_
    rw [List.map_map]
    exact List.map_congr_left fun i _ => (ref_itemCursor i).symm
  refine ⟨pages, hread, nodup_threadRefs ticketId, ?_, fun p hp => ⟨?_, fun i hi => ?_, ?_⟩⟩
  · rw [hrefs]
    exact (hdelivers.1.map _).trans hperm
  · exact List.pairwise_map.1 (hdelivers.2 p hp).sorted
  · have hplace : itemCursor i ∈ T.places ticketId :=
      hdelivers.1.subset (List.mem_flatMap.2 ⟨p, hp, List.mem_map_of_mem hi⟩)
    exact TicketCursor.decode_encode hjson (storable_of_mem_places hplace)
  · intro text htext
    obtain ⟨c, hc, rfl⟩ := (hdelivers.2 p hp).texts text htext
    exact ⟨c, rfl, TicketCursor.decode_encode hjson (storable_of_mem_places hc)⟩

/-! A ticket that was opened and answered at one time. -/

def openedMessages : List MessageRow :=
  [⟨3, "Is it plausible?", 2, 1, 0, none, 0, true, 7, 1728000000000001, none, none, 0⟩,
   ⟨4, "Think twice.", 2, 2, 1, none, 0, true, 7, 1728000000000001, none, none, 0⟩]

def openedOperations : List OperationRow := [⟨1, 7, 1, 1, 0, some 3, 1728000000000001⟩]

def openedUsers : List UserRow := [⟨1, "solver", none, 0, 1⟩, ⟨2, "host", none, 0, 2⟩]

lemma openedMessages_rows : ((openedMessages.map MessageRow.id).Nodup ∧
    (openedOperations.map OperationRow.id).Nodup) ∧
    (∀ m ∈ openedMessages, ∃ u ∈ openedUsers, u.id = m.sender) ∧
    (∀ o ∈ openedOperations, ∃ u ∈ openedUsers, u.id = o.actor) ∧
    (∀ m ∈ openedMessages, Numeric.FourDigitYear m.ctimeAt ∧ m.id < 2147483648) ∧
    ∀ o ∈ openedOperations, Numeric.FourDigitYear o.ctimeAt ∧ o.id < 2147483648 := by
  decide

def opened : Tables where
  users := openedUsers
  messages := openedMessages
  operations := openedOperations
  messages_nodup := openedMessages_rows.1.1
  operations_nodup := openedMessages_rows.1.2
  sender_exists := openedMessages_rows.2.1
  actor_exists := openedMessages_rows.2.2.1
  message_stamped m hm := (openedMessages_rows.2.2.2.1 m hm).1
  operation_stamped o ho := (openedMessages_rows.2.2.2.2 o ho).1
  message_id_lt m hm := (openedMessages_rows.2.2.2.1 m hm).2
  operation_id_lt o ho := (openedMessages_rows.2.2.2.2 o ho).2

theorem readThread_complete_opened : ∃ pages,
    opened.readThread .compact 7 false true (fun _ _ => 1728000000000001) 3 {} = some pages ∧
      (opened.threadRefs 7).Nodup ∧
      (pages.flatMap fun p => p.items.map TicketThreadItem.ref).Perm (opened.threadRefs 7) ∧
      ∀ p ∈ pages, (p.items.Pairwise fun i j => itemCursor i < itemCursor j) ∧
        (∀ i ∈ p.items, TicketCursor.decode .compact ((itemCursor i).encode .compact) =
          some (itemCursor i)) ∧
        ∀ text ∈ p.history.texts, ∃ c : TicketCursor, text = c.encode .compact ∧
          TicketCursor.decode .compact text = some c :=
  readThread_complete opened .compact CursorJson.compact_faithful 7 false true _ 3 (by decide)

end Tables

end Threads
