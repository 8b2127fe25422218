import RbphBackend.Games.Merge
import RbphBackend.Numeric.BigInt

set_option relaxedAutoImplicit false
set_option autoImplicit false

/-!
# The table of events

Events are inserted, that of a judgement with what its transaction adds to the data, and not changed
after, except that a reference to what is deleted is set to null; the events of a game go with it.
Beside them stand the rows that the listings join: the nicknames of the users and the instants at
which puzzles are released.

## Main definitions

* `EventLog.EventLogData`, `EventLog.Db` — an event, and the rows.
* `EventLog.Write`, `EventLog.Db.run` — what is written, in any order.

## Main results

* `EventLog.Db.mem_run` — what writes leave of an event.
-/

namespace EventLog

open Games Numeric

abbrev Id := ℕ

/-! ## Rows -/

/-- A row of `rb_event_log`, and `EventLogData`: what is listed of one has the same columns. Every
writer gives an object as data. -/
structure EventLogData where
  id : Id
  eventType : String
  scope : ℤ
  severity : ℤ
  gameId : Option Id
  teamId : Option Id
  userId : Option Id
  targetUserId : Option Id
  puzzleId : Option Id
  roundId : Option Id
  hintId : Option Id
  ticketId : Option Id
  submissionId : Option Id
  currencyId : Option Id
  deltaAmount : Option BigInt
  data : Fields
  ctimeAt : ℤ

/-- The users and the puzzle of an event are there. -/
abbrev EventLogData.Refers (nickname : Id → Option String) (puzzle : Id → Option (Option ℤ))
    (r : EventLogData) : Prop :=
  (∀ u ∈ r.userId, (nickname u).isSome) ∧ (∀ u ∈ r.targetUserId, (nickname u).isSome) ∧
    ∀ p ∈ r.puzzleId, (puzzle p).isSome

/-- The rows: the events, the nicknames of the users, and the puzzles with the instants of
`rb_puzzle_effective_release`. -/
structure Db where
  rows : List EventLogData
  nickname : Id → Option String
  puzzle : Id → Option (Option ℤ)
  ids : (rows.map EventLogData.id).Nodup
  refers : ∀ r ∈ rows, r.Refers nickname puzzle

/-! ## Writes -/

/-- What a column of an event refers to, where the reference is set to null. -/
inductive Ref where
  | team
  | user
  | puzzle
  | round
  | hint
  | ticket
  | submission
  | currency
  deriving DecidableEq

/-- `ON DELETE SET NULL` of one reference. -/
def unset (id : Id) (ref : Option Id) : Option Id := ref.filter fun i => decide (i ≠ id)

/-- `ON DELETE SET NULL`. -/
def EventLogData.unref (r : EventLogData) (id : Id) : Ref → EventLogData
  | .team => { r with teamId := unset id r.teamId }
  | .user => { r with userId := unset id r.userId, targetUserId := unset id r.targetUserId }
  | .puzzle => { r with puzzleId := unset id r.puzzleId }
  | .round => { r with roundId := unset id r.roundId }
  | .hint => { r with hintId := unset id r.hintId }
  | .ticket => { r with ticketId := unset id r.ticketId }
  | .submission => { r with submissionId := unset id r.submissionId }
  | .currency => { r with currencyId := unset id r.currencyId }

/-- What is written: an event, what deletes something that events refer to, and what the listings
join. -/
inductive Write where
  | insert (event : EventLogData)
  | deleteGame (game : Id)
  | delete (ref : Ref) (id : Id)
  | user (user : Id) (nickname : String)
  | release (puzzle : Id) (releaseAt : Option ℤ)

section Lemmas

variable {id i : Id} {o : Option Id} {ref : Ref} {r : EventLogData}
  {nickname nickname' : Id → Option String} {puzzle puzzle' : Id → Option (Option ℤ)}

lemma unset_eq_some_iff : unset id o = some i ↔ o = some i ∧ i ≠ id := by
  simp [unset]

@[simp] lemma unref_id : (r.unref id ref).id = r.id := by
  cases ref <;> rfl

@[simp] lemma unref_gameId : (r.unref id ref).gameId = r.gameId := by
  cases ref <;> rfl

lemma EventLogData.Refers.mono (h : r.Refers nickname puzzle)
    (huser : ∀ u, (nickname u).isSome → (nickname' u).isSome)
    (hpuzzle : ∀ p, (puzzle p).isSome → (puzzle' p).isSome) : r.Refers nickname' puzzle' :=
  ⟨fun u hu => huser u (h.1 u hu), fun u hu => huser u (h.2.1 u hu),
    fun p hp => hpuzzle p (h.2.2 p hp)⟩

/-- What is deleted is referred to no more. -/
lemma EventLogData.Refers.unref (h : r.Refers nickname puzzle) (id : Id) (ref : Ref) :
    (r.unref id ref).Refers
      (if ref = .user then Function.update nickname id none else nickname)
      (if ref = .puzzle then Function.update puzzle id none else puzzle) := by
  cases ref with
  | user =>
    refine ⟨fun u hu => ?_, fun u hu => ?_, h.2.2⟩ <;>
      obtain ⟨hu, hne⟩ := unset_eq_some_iff.1 hu <;>
      rw [if_pos rfl, Function.update_of_ne hne]
    · exact h.1 u hu
    · exact h.2.1 u hu
  | puzzle =>
    refine ⟨h.1, h.2.1, fun p hp => ?_⟩
    obtain ⟨hp, hne⟩ := unset_eq_some_iff.1 hp
    rw [if_pos rfl, Function.update_of_ne hne]
    exact h.2.2 p hp
  | team | round | hint | ticket | submission | currency => exact h

lemma isSome_update {α : Type} (f : Id → Option α) (id : Id) (a : α) {i : Id} (h : (f i).isSome) :
    (Function.update f id (some a) i).isSome := by
  rcases eq_or_ne i id with rfl | hne
  · rw [Function.update_self]
    rfl
  · rwa [Function.update_of_ne hne]

end Lemmas

namespace Db

variable (db : Db)

/-- The `INSERT`, with the keys of the table. -/
def insert (r : EventLogData) : Db :=
  if h : r.id ∉ db.rows.map EventLogData.id ∧ r.Refers db.nickname db.puzzle then
    { db with
      rows := r :: db.rows
      ids := List.nodup_cons.2 ⟨h.1, db.ids⟩
      refers := List.forall_mem_cons.2 ⟨h.2, db.refers⟩ }
  else db

/-- `ON DELETE CASCADE` from the game. -/
def deleteGame (game : Id) : Db :=
  { db with
    rows := db.rows.filter fun r => decide (r.gameId ≠ some game)
    ids := db.ids.sublist (List.filter_sublist.map _)
    refers := fun r hr => db.refers r (List.mem_of_mem_filter hr) }

/-- `ON DELETE SET NULL`, and what is deleted. -/
def delete (ref : Ref) (id : Id) : Db where
  rows := db.rows.map fun r => r.unref id ref
  nickname := if ref = .user then Function.update db.nickname id none else db.nickname
  puzzle := if ref = .puzzle then Function.update db.puzzle id none else db.puzzle
  ids := by
    rw [List.map_map, show EventLogData.id ∘ (fun r => r.unref id ref) = EventLogData.id from
      funext fun r => unref_id]
    exact db.ids
  refers := List.forall_mem_map.2 fun r hr => (db.refers r hr).unref id ref

/-- A user, with a nickname. -/
def setUser (user : Id) (nickname : String) : Db :=
  { db with
    nickname := Function.update db.nickname user (some nickname)
    refers := fun r hr => (db.refers r hr).mono (fun _ => isSome_update _ _ _) fun _ => id }

/-- A puzzle, with the instant of its release. -/
def setRelease (puzzle : Id) (releaseAt : Option ℤ) : Db :=
  { db with
    puzzle := Function.update db.puzzle puzzle (some releaseAt)
    refers := fun r hr => (db.refers r hr).mono (fun _ => id) fun _ => isSome_update _ _ _ }

/-- A write. -/
def write : Write → Db
  | .insert r => db.insert r
  | .deleteGame game => db.deleteGame game
  | .delete ref id => db.delete ref id
  | .user user nickname => db.setUser user nickname
  | .release puzzle releaseAt => db.setRelease puzzle releaseAt

/-- Writes, one after the other. -/
def run (writes : List Write) : Db := writes.foldl write db

end Db

/-! ## What writes leave of an event -/

/-- What a write leaves of an event. -/
def EventLogData.after (r : EventLogData) : Write → EventLogData
  | .delete ref id => r.unref id ref
  | _ => r

section Runs

variable {db : Db} {r r' : EventLogData} {w : Write} {writes : List Write}

namespace Db

lemma mem_insert (h : r ∈ db.rows) : r ∈ (db.insert r').rows := by
  unfold insert
  split_ifs
  · exact List.mem_cons_of_mem _ h
  · exact h

/-- One write leaves an event, unless its game is deleted. -/
lemma mem_write (hr : r ∈ db.rows) (hgame : ∀ g, w = .deleteGame g → r.gameId ≠ some g) :
    r.after w ∈ (db.write w).rows := by
  cases w with
  | insert _ => exact mem_insert hr
  | deleteGame g => exact List.mem_filter.2 ⟨hr, decide_eq_true (hgame g rfl)⟩
  | delete ref id => exact List.mem_map_of_mem hr
  | user _ _ | release _ _ => exact hr

end Db

lemma after_id : (r.after w).id = r.id := by
  cases w with
  | delete => exact unref_id
  | _ => rfl

lemma after_gameId : (r.after w).gameId = r.gameId := by
  cases w with
  | delete => exact unref_gameId
  | _ => rfl

/-- **What writes leave of an event**: as long as its game is not deleted, it is there, with what it
refers to set to null where that is deleted. -/
theorem Db.mem_run (hr : r ∈ db.rows) (hgame : ∀ g, r.gameId = some g → .deleteGame g ∉ writes) :
    writes.foldl EventLogData.after r ∈ (db.run writes).rows := by
  induction writes generalizing db r with
  | nil => exact hr
  | cons w writes ih =>
    refine ih (mem_write hr fun g hw hg => hgame g hg (hw ▸ List.mem_cons_self)) fun g hg hmem => ?_
    rw [after_gameId] at hg
    exact hgame g hg (List.mem_cons_of_mem _ hmem)

end Runs

end EventLog
