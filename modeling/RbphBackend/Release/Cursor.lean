import Mathlib.Data.Prod.Lex
import Mathlib.Order.BooleanAlgebra.Basic
import Mathlib.Order.MinMax
import RbphBackend.Paging.Page
import RbphBackend.Release.Tables

set_option relaxedAutoImplicit false
set_option autoImplicit false

/-!
# Following the release events

A client keeps a cursor, the id of the last event it has been told of, and asks for the events
after it, a hundred at a time. Events get their ids when they are inserted and are seen when their
transaction commits.

## Main definitions

* `Release.syncEvents`, `Release.releaseCursor` — the queries of a client.
* `Release.Feed`, `Release.Action`, `Release.step` — the events, the writers and one client.
* `Release.Orderly` — a query of the client that no writer is late for.

## Main results

* `Release.orderly_iff` — the queries that do not pass the id of an event in flight.
* `Release.followed_of_run` — in a run of such queries the client is told of every event.
-/

namespace Release

open Paging

/-! ## The queries of a client -/

structure ReleasedPuzzleData where
  id : Id
  slug : Option String
  title : String
  roundId : Id
  roundSlug : Option String
  isRoundPuzzle : Bool
  deriving DecidableEq

structure PlayerReleasePhaseData where
  id : Id
  title : String
  description : String
  contentType : ℤ
  releaseAt : ℤ
  deriving DecidableEq

structure ReleaseSyncEvent where
  id : Id
  eventType : String
  occurredAt : ℤ
  phase : Option PlayerReleasePhaseData
  puzzles : List ReleasedPuzzleData
  deriving DecidableEq

structure ReleaseSyncResult where
  cursor : ℤ
  events : List ReleaseSyncEvent
  deriving DecidableEq

section Queries

variable (t : Tables)

/-- The order of the puzzles of a game: by round, the round's own puzzle first. -/
def puzzleOrder (row : RoundRow × PuzzleRow) : ℤ ×ₗ ℕ ×ₗ Bool ×ₗ ℤ ×ₗ ℕ :=
  toLex (row.1.sort, toLex (row.1.id, toLex (decide (row.1.puzzle ≠ some row.2.id),
    toLex (row.2.sort, row.2.id))))

/-- The puzzles that an event released for a team. -/
def releasedPuzzles (team : Id) (re : ReleaseEvent) : List ReleasedPuzzleData :=
  let rows := t.puzzles.flatMap fun p => (t.rounds.filter (·.id = p.roundId)).map fun r => (r, p)
  let released (p : PuzzleRow) : Bool :=
    (re.eventType = 0 && re.phaseId.isSome && p.releasePhaseId = re.phaseId) ||
    (re.eventType = 1 && t.eventPuzzles.any (fun rep => rep.eventId = re.id && rep.puzzleId = p.id)
      && t.eventPuzzleTeams.any (fun r => r.eventId = re.id && r.puzzleId = p.id && r.teamId = team)
      && p.immediateReleaseAt.isSome)
  ((rows.filter fun (_, p) =>
      t.teamPuzzles.any (fun (tm, puzzle, state) =>
        tm = team && puzzle = p.id && decide (0 ≤ state)) && released p).insertionSort
    fun a b => puzzleOrder a ≤ puzzleOrder b).map fun (r, p) =>
      ⟨p.id, p.slug, p.title, p.roundId, r.slug, r.puzzle = some p.id⟩

def getPlayerPhase (phase : Id) : Option PlayerReleasePhaseData :=
  (t.phases.find? (·.id = phase)).map fun rp =>
    ⟨rp.id, rp.title, rp.description, rp.contentType, rp.releaseAt⟩

end Queries

/-- An event as the client is told of it, if it is; each query sees the tables of its own
instant. -/
def syncEvent (team : Option Id) (puzzlesAt phaseAt : ReleaseEvent → Tables) (re : ReleaseEvent) :
    Except String (Option ReleaseSyncEvent) :=
  let puzzles := team.elim [] fun team => releasedPuzzles (puzzlesAt re) team re
  if re.eventType = 0 then do
    let phase ← re.phaseId.elim (.error "Release phase event has no phase") .ok
    let data ← (getPlayerPhase (phaseAt re) phase).elim (.error "Release phase not found") .ok
    return some ⟨re.id, "phase_released", re.occurredAt, some data, puzzles⟩
  else if re.eventType = 1 then
    if puzzles = [] then .ok none
    else .ok (some ⟨re.id, "puzzles_released", re.occurredAt, none, puzzles⟩)
  else .error "Invalid release event type"

/-- The events of a game. -/
def ofGame (game : Id) (events : List ReleaseEvent) : List ReleaseEvent :=
  events.filter (·.gameId = game)

/-- The rows that `sync_events` reads. -/
def syncRows (events : List ReleaseEvent) (game : Id) (after : ℤ) : List ReleaseEvent :=
  page 100 (·.id) (max after 0) (ofGame game events)

/-- The cursor that `sync_events` returns. -/
def syncCursor (events : List ReleaseEvent) (game : Id) (after : ℤ) : ℤ :=
  (syncRows events game after).getLast?.elim (max after 0) fun row => row.id

def syncEvents (events : List ReleaseEvent) (puzzlesAt phaseAt : ReleaseEvent → Tables) (game : Id)
    (team : Option Id) (after : ℤ) : Except String ReleaseSyncResult := do
  let told ← (syncRows events game after).mapM (syncEvent team puzzlesAt phaseAt)
  return ⟨syncCursor events game after, told.reduceOption⟩

/-- `COALESCE(MAX(id), 0)` of the game's events. -/
def releaseCursor (events : List ReleaseEvent) (game : Id) : ℤ :=
  ((ofGame game events).map (·.id)).foldr max 0

/-! ## Writers and a client -/

abbrev TxId := ℕ

/-- The committed events, those of open transactions, the sequence, and the cursor of a client of
the game. A transaction that is rolled back leaves nothing but the ids it has drawn, and is not
kept here. `polls`, `since` and `told` are only written: the successful polls, the events committed
since the client took its first cursor (with the number of polls until then), and the rows that
polls have read. -/
structure Feed where
  nextId : Id
  inFlight : List (TxId × ReleaseEvent)
  events : List ReleaseEvent
  cursor : Option ℤ
  polls : ℕ
  since : List (ReleaseEvent × ℕ)
  told : List ReleaseEvent

/-- What happens. -/
inductive Action where
  | draw
  | insert (t : TxId) (phaseId : Option Id) (occurredAt : ℤ) (gameId : Id) (eventType : ℤ)
  | commit (t : TxId)
  | takeCursor
  | poll (team : Option Id) (puzzlesAt phaseAt : ReleaseEvent → Tables)
  | pollFailed

namespace Feed

/-- The rows of a transaction. -/
def rowsOf (s : Feed) (t : TxId) : List ReleaseEvent :=
  (s.inFlight.filter (·.1 = t)).map Prod.snd

/-- An event that an open transaction has inserted. -/
def Flies (s : Feed) (e : ReleaseEvent) : Prop := e ∈ s.inFlight.map Prod.snd

end Feed

section Step

variable (game : Id) (s : Feed)

/-- A statement draws an id whose row is never seen; a row is inserted; a transaction commits; the
client takes its first cursor; a poll succeeds, or fails and leaves the client its cursor. -/
def step : Action → Option Feed
  | .draw => some { s with nextId := s.nextId + 1 }
  | .insert t phaseId occurredAt gameId eventType =>
    some { s with
      nextId := s.nextId + 1
      inFlight := s.inFlight ++ [(t, ⟨s.nextId, phaseId, occurredAt, none, gameId, eventType⟩)] }
  | .commit t =>
    some { s with
      events := s.events ++ s.rowsOf t
      inFlight := s.inFlight.filter (·.1 ≠ t)
      since := s.since ++
        if s.cursor.isSome then (ofGame game (s.rowsOf t)).map fun e => (e, s.polls) else [] }
  | .takeCursor =>
    if s.cursor.isSome then none else some { s with cursor := some (releaseCursor s.events game) }
  | .poll team puzzlesAt phaseAt =>
    match s.cursor with
    | none => none
    | some after =>
      match syncEvents s.events puzzlesAt phaseAt game team after with
      | .error _ => none
      | .ok r =>
        some { s with
          cursor := some r.cursor
          polls := s.polls + 1
          told := s.told ++ syncRows s.events game after }
  | .pollFailed => some s

/-- A run. -/
def run : List Action → Feed → Option Feed
  | [], s => some s
  | a :: as, s => (step game s a).bind (run as)

/-- No writer is late for the query: an event of the game that is in flight has no committed one
beyond it, or, in a poll, a hundred unread ones before it. -/
def Orderly : Action → Prop
  | .takeCursor =>
    ∀ e, s.Flies e → e.gameId = game → ∀ e' ∈ ofGame game s.events, e'.id < e.id
  | .poll .. =>
    ∀ after, s.cursor = some after → ∀ e, s.Flies e → e.gameId = game →
      max after 0 < e.id ∧ ((∀ e' ∈ ofGame game s.events, e'.id < e.id) ∨
        100 ≤ ((ofGame game s.events).filter fun e' =>
          decide (max after 0 < e'.id ∧ e'.id < e.id)).length)
  | _ => True

/-- Every query of a run is orderly. -/
def OrderlyRun : List Action → Feed → Prop
  | [], _ => True
  | a :: as, s => Orderly game s a ∧ ∀ s', step game s a = some s' → OrderlyRun as s'

end Step

/-- No transaction is open and there is no client; ids start from 1. -/
structure FeedInitial (s : Feed) : Prop where
  inFlight : s.inFlight = []
  cursor : s.cursor = none
  since : s.since = []
  ids : ∀ e ∈ s.events, 0 < e.id ∧ e.id < s.nextId
  nodup : (s.events.map (·.id)).Nodup
  next : 0 < s.nextId

/-- Every event of the game that committed since the first cursor was told of by a poll, or is
still ahead of the cursor, and then fewer polls have succeeded since than its id counts. -/
def Followed (s : Feed) : Prop :=
  ∀ p ∈ s.since, p.1 ∈ s.told ∨
    ∃ cursor, s.cursor = some cursor ∧ cursor < p.1.id ∧ s.polls < p.2 + p.1.id

/-! ## The queries that pass no event in flight -/

section Queries

variable {game : Id} {s s' : Feed} {e : ReleaseEvent}

lemma mem_ofGame {events : List ReleaseEvent} :
    e ∈ ofGame game events ↔ e ∈ events ∧ e.gameId = game := by
  simp [ofGame]

lemma syncCursor_eq (events : List ReleaseEvent) (after : ℤ) :
    syncCursor events game after = next 100 (·.id) (max after 0) (ofGame game events) := rfl

/-- The greatest id is below a number exactly where all ids are. -/
lemma releaseCursor_lt_iff {events : List ReleaseEvent} {d : ℕ} (hd : 0 < d) :
    releaseCursor events game < d ↔ ∀ e' ∈ ofGame game events, e'.id < d := by
  unfold releaseCursor
  generalize ofGame game events = l
  induction l with
  | nil => simpa using hd
  | cons a l ih =>
    rw [List.map_cons, List.foldr_cons, max_lt_iff, ih]
    simp

lemma releaseCursor_nonneg (events : List ReleaseEvent) : 0 ≤ releaseCursor events game := by
  unfold releaseCursor
  induction ofGame game events with
  | nil => exact le_rfl
  | cons a l ih =>
    rw [List.map_cons, List.foldr_cons]
    exact le_max_of_le_right ih

/-- **The queries that pass no event in flight**: the first cursor of an orderly query is below the
id of every event of the game that is in flight. -/
theorem orderly_takeCursor_iff (hpos : ∀ e, s.Flies e → 0 < e.id) :
    Orderly game s .takeCursor ↔
      ∀ e, s.Flies e → e.gameId = game → releaseCursor s.events game < e.id := by
  constructor
  · intro h e he hgame
    exact (releaseCursor_lt_iff (hpos e he)).2 (h e he hgame)
  · intro h e he hgame
    exact (releaseCursor_lt_iff (hpos e he)).1 (h e he hgame)

/-- **The queries that pass no event in flight**: the cursor that an orderly poll returns is below
the id of every event of the game that is in flight. -/
theorem orderly_poll_iff {team : Option Id} {puzzlesAt phaseAt : ReleaseEvent → Tables} :
    Orderly game s (.poll team puzzlesAt phaseAt) ↔
      ∀ after, s.cursor = some after → ∀ e, s.Flies e → e.gameId = game →
        syncCursor s.events game after < e.id := by
  simp only [Orderly, syncCursor_eq, next_lt_iff]

end Queries

/-! ## A run of orderly queries -/

/-- What holds between the steps of an orderly run. -/
structure FeedInv (game : Id) (s : Feed) : Prop where
  pos : 0 < s.nextId
  ids : ∀ e, e ∈ s.events ∨ s.Flies e → 0 < e.id ∧ e.id < s.nextId
  nodup : ((s.events ++ s.inFlight.map Prod.snd).map (·.id)).Nodup
  cursor : ∀ c, s.cursor = some c → 0 ≤ c ∧ c < s.nextId
  flying : ∀ c, s.cursor = some c → ∀ e, s.Flies e → e.gameId = game → c < e.id
  since : ∀ p ∈ s.since, p.1 ∈ s.told ∨
    (p.1 ∈ ofGame game s.events ∧
      ∃ c, s.cursor = some c ∧ c < p.1.id ∧ (s.polls : ℤ) ≤ p.2 + c)

section Run

variable {game : Id} {s s' : Feed}

lemma FeedInv.init (h : FeedInitial s) : FeedInv game s where
  pos := h.next
  ids := by
    rintro e (he | he)
    · exact h.ids e he
    · simp [Feed.Flies, h.inFlight] at he
  nodup := by simpa [h.inFlight] using h.nodup
  cursor := by simp [h.cursor]
  flying := by simp [h.cursor]
  since := by simp [h.since]

lemma FeedInv.followed (h : FeedInv game s) : Followed s := by
  intro p hp
  rcases h.since p hp with htold | ⟨_, c, hc, hlt, hpolls⟩
  · exact Or.inl htold
  · exact Or.inr ⟨c, hc, hlt, by omega⟩

/-- Committed events of one id are one event. -/
lemma FeedInv.eq_of_id (h : FeedInv game s) : ∀ a ∈ ofGame game s.events, ∀ b ∈ ofGame game s.events,
    a.id = b.id → a = b := by
  intro a ha b hb hid
  have hnodup : (s.events.map (·.id)).Nodup := by
    have := h.nodup
    rw [List.map_append] at this
    exact this.of_append_left
  exact List.inj_on_of_nodup_map hnodup (mem_ofGame.1 ha).1 (mem_ofGame.1 hb).1 hid

lemma FeedInv.draw (h : FeedInv game s) : FeedInv game { s with nextId := s.nextId + 1 } where
  pos := Nat.succ_pos _
  ids := fun e he => ⟨(h.ids e he).1, (h.ids e he).2.trans (Nat.lt_succ_self _)⟩
  nodup := h.nodup
  cursor := fun c hc =>
    ⟨(h.cursor c hc).1, (h.cursor c hc).2.trans (Int.ofNat_lt.2 (Nat.lt_succ_self _))⟩
  flying := h.flying
  since := h.since

/-- The id of an inserted event is beyond the cursor. -/
lemma FeedInv.insert (h : FeedInv game s) (t : TxId) {e : ReleaseEvent} (hid : e.id = s.nextId) :
    FeedInv game { s with nextId := s.nextId + 1, inFlight := s.inFlight ++ [(t, e)] } where
  pos := Nat.succ_pos _
  ids := by
    rintro e' (he' | he')
    · exact ⟨(h.ids e' (Or.inl he')).1, (h.ids e' (Or.inl he')).2.trans (Nat.lt_succ_self _)⟩
    · rw [Feed.Flies, List.map_append, List.mem_append] at he'
      rcases he' with he' | he'
      · exact ⟨(h.ids e' (Or.inr he')).1, (h.ids e' (Or.inr he')).2.trans (Nat.lt_succ_self _)⟩
      · simp only [List.map_cons, List.map_nil, List.mem_singleton] at he'
        rw [he', hid]
        exact ⟨h.pos, Nat.lt_succ_self _⟩
  nodup := by
    simp only [List.map_append, List.map_cons, List.map_nil]
    rw [← List.append_assoc, ← List.map_append, List.nodup_append]
    refine ⟨h.nodup, List.nodup_singleton _, ?_⟩
    intro a ha b hb
    simp only [List.mem_singleton] at hb
    obtain ⟨e', he', rfl⟩ := List.mem_map.1 ha
    have hlt := (h.ids e' (List.mem_append.1 he')).2
    rw [hb, hid]
    exact hlt.ne
  cursor := fun c hc =>
    ⟨(h.cursor c hc).1, (h.cursor c hc).2.trans (Int.ofNat_lt.2 (Nat.lt_succ_self _))⟩
  flying := by
    intro c hc e' he' hgame
    rw [Feed.Flies, List.map_append, List.mem_append] at he'
    rcases he' with he' | he'
    · exact h.flying c hc e' he' hgame
    · simp only [List.map_cons, List.map_nil, List.mem_singleton] at he'
      rw [he', hid]
      exact (h.cursor c hc).2
  since := h.since

lemma flies_of_mem_rowsOf {t : TxId} {e : ReleaseEvent} (h : e ∈ s.rowsOf t) : s.Flies e := by
  obtain ⟨p, hp, rfl⟩ := List.mem_map.1 h
  exact List.mem_map_of_mem (List.mem_of_mem_filter hp)

/-- A commit only moves rows from flight into the table. -/
lemma commit_perm (t : TxId) :
    (s.events ++ s.rowsOf t ++ (s.inFlight.filter (·.1 ≠ t)).map Prod.snd).Perm
      (s.events ++ s.inFlight.map Prod.snd) := by
  rw [List.append_assoc, Feed.rowsOf, ← List.map_append]
  refine List.Perm.append_left _ (List.Perm.map _ ?_)
  simpa using List.filter_append_perm (fun p : TxId × ReleaseEvent => decide (p.1 = t)) s.inFlight

/-- The events of a commit are ahead of the cursor. -/
lemma FeedInv.commit (h : FeedInv game s) (t : TxId) : FeedInv game
    { s with
      events := s.events ++ s.rowsOf t
      inFlight := s.inFlight.filter (·.1 ≠ t)
      since := s.since ++
        if s.cursor.isSome then (ofGame game (s.rowsOf t)).map fun e => (e, s.polls)
        else [] } where
  pos := h.pos
  ids := by
    intro e he
    have hmem : e ∈ s.events ++ s.rowsOf t ++ (s.inFlight.filter (·.1 ≠ t)).map Prod.snd :=
      List.mem_append.2 he
    exact h.ids e (List.mem_append.1 ((commit_perm t).mem_iff.1 hmem))
  nodup := ((commit_perm t).map _).nodup_iff.2 h.nodup
  cursor := h.cursor
  flying := by
    intro c hc e he hgame
    obtain ⟨p, hp, rfl⟩ := List.mem_map.1 he
    exact h.flying c hc _ (List.mem_map_of_mem (List.mem_of_mem_filter hp)) hgame
  since := by
    intro p hp
    rcases List.mem_append.1 hp with hp | hp
    · rcases h.since p hp with htold | ⟨hmem, hahead⟩
      · exact Or.inl htold
      · rw [mem_ofGame] at hmem
        exact Or.inr ⟨mem_ofGame.2 ⟨List.mem_append_left _ hmem.1, hmem.2⟩, hahead⟩
    · right
      cases hc : s.cursor with
      | none => simp [hc] at hp
      | some c =>
        simp only [hc, Option.isSome_some, if_true] at hp
        obtain ⟨e, he, rfl⟩ := List.mem_map.1 hp
        rw [mem_ofGame] at he
        have hlt := h.flying c hc e (flies_of_mem_rowsOf he.1) he.2
        have hpos := (h.cursor c hc).1
        exact ⟨mem_ofGame.2 ⟨List.mem_append_right _ he.1, he.2⟩, c, rfl, hlt, by simp only; omega⟩

lemma FeedInv.takeCursor (h : FeedInv game s) (hc : s.cursor = none)
    (horderly : Orderly game s .takeCursor) :
    FeedInv game { s with cursor := some (releaseCursor s.events game) } where
  pos := h.pos
  ids := h.ids
  nodup := h.nodup
  cursor := by
    rintro c ⟨⟩
    refine ⟨releaseCursor_nonneg _, (releaseCursor_lt_iff h.pos).2 ?_⟩
    intro e he
    exact (h.ids e (Or.inl (mem_ofGame.1 he).1)).2
  flying := by
    rintro c ⟨⟩ e he hgame
    exact (orderly_takeCursor_iff fun e he => (h.ids e (Or.inr he)).1).1 horderly e he hgame
  since := by
    intro p hp
    rcases h.since p hp with htold | ⟨_, c, hc', _⟩
    · exact Or.inl htold
    · rw [hc] at hc'
      cases hc'

/-- The rows that a poll reads are those of the game with ids up to the cursor it returns. -/
lemma FeedInv.poll (h : FeedInv game s) {after : ℤ} (hc : s.cursor = some after)
    (horderly : ∀ e, s.Flies e → e.gameId = game → syncCursor s.events game after < e.id) :
    FeedInv game
      { s with
        cursor := some (syncCursor s.events game after)
        polls := s.polls + 1
        told := s.told ++ syncRows s.events game after } where
  pos := h.pos
  ids := h.ids
  nodup := h.nodup
  cursor := by
    rintro c ⟨⟩
    have hafter := h.cursor after hc
    rw [syncCursor_eq]
    have hle : max after 0 ≤ next 100 (·.id) (max after 0) (ofGame game s.events) := le_next
    refine ⟨(le_max_right _ _).trans hle, next_lt_iff.2 ⟨by simp only; omega, Or.inl ?_⟩⟩
    intro e he
    exact (h.ids e (Or.inl (mem_ofGame.1 he).1)).2
  flying := by
    rintro c ⟨⟩
    exact horderly
  since := by
    intro p hp
    rcases h.since p hp with htold | ⟨hmem, c, hc', hlt, hpolls⟩
    · exact Or.inl (List.mem_append_left _ htold)
    · rw [hc] at hc'
      cases hc'
      have hmax : max after 0 = after := max_eq_left (h.cursor after hc).1
      have hahead : max after 0 < p.1.id := by rwa [hmax]
      by_cases hle : (p.1.id : ℤ) ≤ syncCursor s.events game after
      · exact Or.inl (List.mem_append_right _ (mem_page_of_le_next h.eq_of_id hmem hahead hle))
      · have hmove : after < syncCursor s.events game after := by
          rw [syncCursor_eq]
          exact lt_of_le_of_lt hmax.ge (lt_next (by omega) hmem hahead)
        exact Or.inr ⟨hmem, _, rfl, by omega, by push_cast; omega⟩

/-- An orderly step keeps the invariant. -/
lemma FeedInv.step (h : FeedInv game s) {a : Action} (horderly : Orderly game s a)
    (hstep : step game s a = some s') : FeedInv game s' := by
  cases a with
  | draw =>
    cases hstep
    exact h.draw
  | insert t phaseId occurredAt gameId eventType =>
    cases hstep
    exact h.insert t rfl
  | commit t =>
    cases hstep
    exact h.commit t
  | takeCursor =>
    simp only [Release.step] at hstep
    split at hstep
    · cases hstep
    · rename_i hc
      cases hstep
      exact h.takeCursor (by simpa using hc) horderly
  | poll team puzzlesAt phaseAt =>
    simp only [Release.step] at hstep
    split at hstep
    · cases hstep
    · rename_i after hc
      split at hstep
      · cases hstep
      · rename_i r hr
        have hcursor : r.cursor = syncCursor s.events game after := by
          unfold syncEvents at hr
          cases hm : (syncRows s.events game after).mapM (syncEvent team puzzlesAt phaseAt) with
          | error e => simp [hm, bind, Except.bind] at hr
          | ok told =>
            rw [hm] at hr
            cases hr
            rfl
        cases hstep
        rw [hcursor]
        exact h.poll hc (orderly_poll_iff.1 horderly after hc)
  | pollFailed =>
    cases hstep
    exact h

/-- An orderly run keeps the invariant. -/
lemma FeedInv.run (h : FeedInv game s) {as : List Action} (horderly : OrderlyRun game as s)
    (hrun : run game as s = some s') : FeedInv game s' := by
  induction as generalizing s with
  | nil =>
    cases hrun
    exact h
  | cons a as ih =>
    rw [Release.run, Option.bind_eq_some_iff] at hrun
    obtain ⟨s₁, hstep, hrest⟩ := hrun
    exact ih (h.step horderly.1 hstep) (horderly.2 s₁ hstep) hrest

/-- **The client is told of every event**: in a run whose queries no writer is late for, an event of
the game that commits after the client took its first cursor is ahead of the cursor until a poll
reads it, and one does before more polls have succeeded than its id counts. -/
theorem followed_of_run {as : List Action} (hinit : FeedInitial s) (horderly : OrderlyRun game as s)
    (hrun : run game as s = some s') : Followed s' :=
  ((FeedInv.init hinit).run horderly hrun).followed

end Run

/-! ## Runs -/

/-- No event has happened. -/
def noEvents : Feed := ⟨1, [], [], none, 0, [], []⟩

lemma noEvents_initial : FeedInitial noEvents := by
  constructor <;> simp [noEvents]

/-- The tables of a game without phases and puzzles. -/
def noContent : Tables := ⟨[], [], [], [], [], [], [], 1⟩

/-- A poll of a client that has no team. -/
def pollNoTeam : Action := .poll none (fun _ => noContent) (fun _ => noContent)

/-- An event commits and is polled. -/
theorem followed_of_run_oneWriter :
    ∃ s', run 1 [.takeCursor, .insert 7 none 5 1 1, .commit 7, pollNoTeam] noEvents = some s' ∧
      s'.since.length = 1 ∧ Followed s' := by
  have horderly :
      OrderlyRun 1 [.takeCursor, .insert 7 none 5 1 1, .commit 7, pollNoTeam] noEvents := ?_
  · exact ⟨_, rfl, rfl, followed_of_run noEvents_initial horderly rfl⟩
  refine ⟨?_, fun s₁ h₁ => ⟨trivial, fun s₂ h₂ => ⟨trivial, fun s₃ h₃ => ⟨?_, fun _ _ => trivial⟩⟩⟩⟩
  · intro e he
    simp [Feed.Flies, noEvents] at he
  · cases h₁
    cases h₂
    cases h₃
    intro after _ e he
    simp [Feed.Flies, noEvents] at he

/-- Of two writers the later one commits first: the poll between the commits moves the cursor past
the event of the other, which no poll reads. -/
theorem event_in_flight_passed :
    ¬ ∀ (game : Id) (s s' : Feed) (as : List Action),
      FeedInitial s → run game as s = some s' → Followed s' := by
  intro h
  have hrun := h 1 noEvents _ [.takeCursor, .insert 7 none 5 1 1, .insert 8 none 6 1 1, .commit 8,
    pollNoTeam, .commit 7] noEvents_initial rfl
  rcases hrun (⟨1, none, 5, none, 1, 1⟩, 1) (by decide) with htold | ⟨cursor, hcursor, hlt, _⟩
  · revert htold
    decide
  · cases hcursor
    revert hlt
    decide

end Release
