import RbphBackend.Release.Tables

set_option relaxedAutoImplicit false
set_option autoImplicit false

/-!
# Updating the release of a puzzle

Both updates take back the events by which a puzzle was released at once before their guarded
statement decides whether the request is accepted. The update of one puzzle commits in any case;
that of several is dropped when a puzzle was refused.

## Main definitions

* `Release.adminUpdate`, `Release.adminBatchUpdateReleasePhase` — the calls.
* `Release.updateAccepts` — the condition of the guarded statement.

## Main results

* `Release.adminUpdate_eq_none_iff` — which updates are refused.
* `Release.refused_unchanged_iff` — which refused updates leave the tables as they were.
-/

namespace Release

/-- The fields of a request; in those that may be set to nothing, the outer option says whether the
field is given. -/
structure RbPuzzleUpdateData where
  slug : Option (Option String) := none
  sort : Option ℤ := none
  title : Option String := none
  ptype : Option ℤ := none
  judge : Option String := none
  penalty : Option String := none
  submitRequirements : Option String := none
  maxSubmit : Option (Option ℤ) := none
  unlockCond : Option (Option String) := none
  releasePhaseId : Option (Option Id) := none
  releaseImmediately : Option Bool := none
  roundId : Option Id := none
  ticketEnabled : Option Bool := none
  ticketCooldown : Option ℤ := none

namespace RbPuzzleUpdateData

variable (data : RbPuzzleUpdateData)

def immediately : Bool := data.releaseImmediately = some true

/-- `release_is_set`. -/
def releaseIsSet : Bool := data.releasePhaseId.isSome || data.immediately

end RbPuzzleUpdateData

/-! ## The statements -/

section Statements

variable (now : ℤ) (t : Tables)

/-- An event that released puzzles at once. -/
def Tables.isImmediate (event : Id) : Bool :=
  t.events.any fun re => re.id = event && re.eventType = 1

/-- The rows of `rb_release_event_puzzle` that go, and with them their teams. -/
def clearImmediateReleaseEventsConn (puzzleIds : List Id) : Tables :=
  let goes (event puzzle : Id) := t.isImmediate event && decide (puzzle ∈ puzzleIds)
  { t with
    eventPuzzles := t.eventPuzzles.filter fun rep => !goes rep.eventId rep.puzzleId
    eventPuzzleTeams := t.eventPuzzleTeams.filter fun r =>
      !t.eventPuzzles.any fun rep =>
        goes rep.eventId rep.puzzleId && rep.eventId = r.eventId && rep.puzzleId = r.puzzleId }

/-- `create_immediate_release_event_conn`. -/
def createImmediateReleaseEventConn (gameId : Id) (puzzleIds : List Id) (occurredAt : ℤ) : Tables :=
  let event : ReleaseEvent := ⟨t.nextEvent, none, occurredAt, none, gameId, 1⟩
  let puzzles := t.puzzles.filter fun p => p.gameId = gameId && decide (p.id ∈ puzzleIds)
  { t with
    nextEvent := t.nextEvent + 1
    events := t.events ++ [event]
    eventPuzzles := t.eventPuzzles ++ puzzles.map fun p => ⟨event.id, p.id⟩
    eventPuzzleTeams := t.eventPuzzleTeams ++
      (t.teamPuzzles.filter fun (_, puzzle, state) =>
        puzzles.any (·.id = puzzle) && decide (0 ≤ state)).map
        fun (team, puzzle, _) => ⟨event.id, puzzle, team⟩ }

/-- A phase of the game that is still to come. -/
def phaseAhead (phase game : Id) : Bool :=
  t.phases.any fun rp =>
    rp.id = phase && rp.gameId = game && decide (now < rp.releaseAt) &&
      !t.events.any (·.phaseId = some rp.id)

/-- The `WHERE` of the update of a puzzle. -/
def updateAccepts (puzzleId : Id) (data : RbPuzzleUpdateData) (p : PuzzleRow) : Bool :=
  p.id = puzzleId && !(data.immediately && data.releasePhaseId.isSome) &&
    (data.releasePhaseId.join.all fun phase => phaseAhead now t phase p.gameId) &&
    (data.roundId.all fun round => t.rounds.any (·.id = round)) &&
    (data.roundId.all fun round =>
      !t.rounds.any fun owner => owner.puzzle = some p.id && owner.id ≠ round)

/-- The `SET` of the update of a puzzle, with the columns' types and the trigger. -/
def updateSet (data : RbPuzzleUpdateData) (p : PuzzleRow) : Except String PuzzleRow := do
  let slug ← (data.slug.getD p.slug).mapM (varchar 120)
  let title ← varchar 120 (data.title.getD p.title)
  t.setGameId { p with
    slug := slug
    sort := if t.rounds.any (·.puzzle = some p.id) then p.sort else data.sort.getD p.sort
    title := title
    ptype := data.ptype.getD p.ptype
    judge := data.judge.getD p.judge
    penalty := data.penalty.getD p.penalty
    submitRequirements := data.submitRequirements.getD p.submitRequirements
    maxSubmit := data.maxSubmit.getD p.maxSubmit
    unlockCond := data.unlockCond.getD p.unlockCond
    releasePhaseId :=
      if data.immediately then none else data.releasePhaseId.getD p.releasePhaseId
    immediateReleaseAt :=
      if data.immediately then some now
      else if data.releasePhaseId.isSome then none
      else p.immediateReleaseAt
    roundId :=
      ((t.rounds.find? fun r => some r.id = data.roundId).map (·.id)).getD p.roundId
    ticketEnabled := data.ticketEnabled.getD p.ticketEnabled
    ticketCooldown := data.ticketCooldown.getD p.ticketCooldown }

/-- The `WHERE` of the update of several puzzles. -/
def batchAccepts (gameId : Id) (puzzleIds : List Id) (releasePhaseId : Option Id)
    (releaseImmediately : Bool) (p : PuzzleRow) : Bool :=
  p.gameId = gameId && decide (p.id ∈ puzzleIds) &&
    !(releaseImmediately && releasePhaseId.isSome) &&
    releasePhaseId.all fun phase => phaseAhead now t phase p.gameId

/-- The `SET` of the update of several puzzles. -/
def batchSet (releasePhaseId : Option Id) (releaseImmediately : Bool) (p : PuzzleRow) :
    PuzzleRow :=
  { p with
    releasePhaseId := if releaseImmediately then none else releasePhaseId
    immediateReleaseAt := if releaseImmediately then some now else none }

end Statements

/-! ## The calls -/

section Calls

variable (now : ℤ) (t : Tables)

/-- The tables before the guarded statement of `admin_update`. -/
def cleared (puzzleId : Id) (data : RbPuzzleUpdateData) : Tables :=
  if data.releaseIsSet then clearImmediateReleaseEventsConn t [puzzleId] else t

/-- The event of a puzzle that has been released at once. -/
def announce (data : RbPuzzleUpdateData) (result : Option PuzzleRow) : Tables :=
  match result with
  | none => t
  | some puzzle =>
    match puzzle.immediateReleaseAt with
    | some releasedAt =>
      if data.immediately then
        createImmediateReleaseEventConn t puzzle.gameId [puzzle.id] releasedAt
      else t
    | none => t

def adminUpdate (puzzleId : Id) (data : RbPuzzleUpdateData) :
    Except String (Option PuzzleRow) × Tables :=
  runTx t do
    let t := cleared t puzzleId data
    let (returned, t) ← updatePuzzles (updateAccepts now t puzzleId data) (updateSet now t data) t
    let result := returned.head?
    return .commit result (announce t data result)

def adminBatchUpdateReleasePhase (gameId : Id) (puzzleIds : List Id) (releasePhaseId : Option Id)
    (releaseImmediately : Bool) : Except String (Option (List PuzzleRow)) × Tables :=
  runTx t do
    let t := clearImmediateReleaseEventsConn t puzzleIds
    let (puzzles, t) ←
      updatePuzzles (batchAccepts now t gameId puzzleIds releasePhaseId releaseImmediately)
        (fun p => .ok (batchSet now releasePhaseId releaseImmediately p)) t
    if puzzles.length ≠ puzzleIds.length then
      return .drop none
    else
      match releaseImmediately, puzzles.head?.bind (·.immediateReleaseAt) with
      | true, some releasedAt =>
        return .commit (some puzzles)
          (createImmediateReleaseEventConn t gameId puzzleIds releasedAt)
      | _, _ => return .commit (some puzzles) t

end Calls

/-! ## What a refused update leaves -/

section Refused

variable {now : ℤ} {t : Tables} {puzzleId : Id} {data : RbPuzzleUpdateData}

/-- No puzzle is accepted by the guarded statement. -/
def Refuses (now : ℤ) (t : Tables) (puzzleId : Id) (data : RbPuzzleUpdateData) : Prop :=
  ∀ p ∈ t.puzzles, updateAccepts now t puzzleId data p = false

/-- The puzzle was released at once. -/
def ReleasedAtOnce (t : Tables) (puzzleId : Id) : Prop :=
  ∃ rep ∈ t.eventPuzzles, rep.puzzleId = puzzleId ∧ t.isImmediate rep.eventId = true

/-- Taking back the events of a puzzle changes nothing where there are none. -/
lemma clear_eq_self_iff :
    clearImmediateReleaseEventsConn t [puzzleId] = t ↔ ¬ ReleasedAtOnce t puzzleId := by
  constructor
  · rintro h ⟨rep, hrep, hid, hev⟩
    have hmem : rep ∈ (clearImmediateReleaseEventsConn t [puzzleId]).eventPuzzles := by rwa [h]
    simp [clearImmediateReleaseEventsConn, hid, hev] at hmem
  · intro h
    have hstay : ∀ rep ∈ t.eventPuzzles,
        (t.isImmediate rep.eventId && decide (rep.puzzleId ∈ [puzzleId])) = false := by
      intro rep hrep
      rw [Bool.eq_false_iff]
      intro hgoes
      simp only [Bool.and_eq_true, decide_eq_true_eq, List.mem_singleton] at hgoes
      exact h ⟨rep, hrep, hgoes.2, hgoes.1⟩
    have hteams : ∀ r : ReleaseEventPuzzleTeam, (t.eventPuzzles.any fun rep =>
        (t.isImmediate rep.eventId && decide (rep.puzzleId ∈ [puzzleId])) &&
          rep.eventId = r.eventId && rep.puzzleId = r.puzzleId) = false := by
      intro r
      rw [List.any_eq_false]
      intro rep hrep
      rw [hstay rep hrep]
      simp
    unfold clearImmediateReleaseEventsConn
    have hrest : (t.eventPuzzleTeams.filter fun _ => !false) = t.eventPuzzleTeams :=
      List.filter_eq_self.2 fun _ _ => rfl
    have hpuzzles : (t.eventPuzzles.filter fun rep =>
        !(t.isImmediate rep.eventId && decide (rep.puzzleId ∈ [puzzleId]))) = t.eventPuzzles := by
      apply List.filter_eq_self.2
      intro rep hrep
      rw [hstay rep hrep]
      rfl
    simp only [hteams, hrest, hpuzzles]

@[simp] lemma cleared_puzzles : (cleared t puzzleId data).puzzles = t.puzzles := by
  unfold cleared
  split <;> rfl

/-- The guarded statement does not look at the events of puzzles. -/
lemma updateAccepts_cleared :
    updateAccepts now (cleared t puzzleId data) puzzleId data =
      updateAccepts now t puzzleId data := by
  unfold cleared
  split <;> rfl

/-- A refused update, as a run of its statements. -/
lemma adminUpdate_of_refuses (h : Refuses now t puzzleId data) :
    adminUpdate now t puzzleId data = (.ok none, cleared t puzzleId data) := by
  have hforall : ∀ p ∈ (cleared t puzzleId data).puzzles,
      updateAccepts now (cleared t puzzleId data) puzzleId data p = false := by
    rw [updateAccepts_cleared, cleared_puzzles]
    exact h
  have hupdate : updatePuzzles (updateAccepts now (cleared t puzzleId data) puzzleId data)
      (updateSet now (cleared t puzzleId data) data) (cleared t puzzleId data) =
        .ok ([], cleared t puzzleId data) := updatePuzzles_of_forall hforall
  simp only [adminUpdate, hupdate]
  rfl

/-- **Which updates are refused**: those of which the guarded statement finds no puzzle. -/
theorem adminUpdate_eq_none_iff :
    (adminUpdate now t puzzleId data).1 = .ok none ↔ Refuses now t puzzleId data := by
  constructor
  · intro h
    cases hupdate : updatePuzzles (updateAccepts now (cleared t puzzleId data) puzzleId data)
        (updateSet now (cleared t puzzleId data) data) (cleared t puzzleId data) with
    | error e =>
      simp only [adminUpdate, hupdate] at h
      cases h
    | ok r =>
      obtain ⟨returned, t'⟩ := r
      simp only [adminUpdate, hupdate] at h
      have hnone : returned.head? = none := by
        simpa [bind, Except.bind, pure, Except.pure, runTx] using h
      rw [List.head?_eq_none_iff] at hnone
      rw [hnone] at hupdate
      have hall := forall_of_updatePuzzles hupdate
      rwa [updateAccepts_cleared, cleared_puzzles] at hall
  · intro h
    rw [adminUpdate_of_refuses h]

/-- An update of several puzzles that is refused is dropped. -/
lemma batch_unchanged_of_none {gameId : Id} {puzzleIds : List Id} {releasePhaseId : Option Id}
    {releaseImmediately : Bool}
    (h : (adminBatchUpdateReleasePhase now t gameId puzzleIds releasePhaseId
      releaseImmediately).1 = .ok none) :
    (adminBatchUpdateReleasePhase now t gameId puzzleIds releasePhaseId
      releaseImmediately).2 = t := by
  simp only [adminBatchUpdateReleasePhase] at h ⊢
  generalize updatePuzzles _ _ _ = r at h ⊢
  cases r with
  | error e => rfl
  | ok r =>
    obtain ⟨puzzles, t'⟩ := r
    simp only [bind, Except.bind, pure, Except.pure] at h ⊢
    by_cases hlen : puzzles.length ≠ puzzleIds.length
    · rw [if_pos hlen]
      rfl
    · rw [if_neg hlen] at h
      split at h <;> cases h

/-- **A refused update leaves the tables as they were** exactly where it does not ask for another
release, or the puzzle was not released at once; a refused update of several puzzles always does. -/
theorem refused_unchanged_iff (now : ℤ) (t : Tables) :
    (∀ puzzleId data,
      ((adminUpdate now t puzzleId data).1 = .ok none →
        (adminUpdate now t puzzleId data).2 = t) ↔
      ¬ (Refuses now t puzzleId data ∧ data.releaseIsSet = true ∧ ReleasedAtOnce t puzzleId)) ∧
    (∀ gameId puzzleIds releasePhaseId releaseImmediately,
      (adminBatchUpdateReleasePhase now t gameId puzzleIds releasePhaseId
        releaseImmediately).1 = .ok none →
      (adminBatchUpdateReleasePhase now t gameId puzzleIds releasePhaseId
        releaseImmediately).2 = t) := by
  refine ⟨fun puzzleId data => ?_, fun _ _ _ _ h => batch_unchanged_of_none h⟩
  rw [adminUpdate_eq_none_iff]
  constructor
  · rintro h ⟨hrefuses, hset, hreleased⟩
    have hsame := h hrefuses
    rw [adminUpdate_of_refuses hrefuses] at hsame
    simp only [cleared, hset, if_true] at hsame
    exact clear_eq_self_iff.1 hsame hreleased
  · intro h hrefuses
    rw [adminUpdate_of_refuses hrefuses]
    unfold cleared
    split
    · rename_i hset
      exact clear_eq_self_iff.2 fun hreleased => h ⟨hrefuses, hset, hreleased⟩
    · rfl

/-- A puzzle released at once, whose round and game are the only ones. -/
def releasedPuzzle : Tables where
  rounds := [⟨1, none, 0, 1, none⟩]
  puzzles := [⟨2, 1, none, 0, "Gate", 0, "[]", "[]", "[]", none, none, none, some 5, 1, true, 0, 0⟩]
  phases := []
  events := [⟨3, none, 5, some 5, 1, 1⟩]
  eventPuzzles := [⟨3, 2⟩]
  eventPuzzleTeams := []
  teamPuzzles := []
  nextEvent := 4

/-- Asked to move the puzzle to a phase that does not exist, the update is refused and the puzzle's
release event is gone. -/
theorem refused_update_clears_event :
    ¬ ∀ (now : ℤ) (t : Tables) (puzzleId : Id) (data : RbPuzzleUpdateData),
      (adminUpdate now t puzzleId data).1 = .ok none →
        (adminUpdate now t puzzleId data).2 = t := by
  intro h
  have hrefuses : Refuses 10 releasedPuzzle 2 { releasePhaseId := some (some 7) } := by
    unfold Refuses
    decide
  have hsame := h 10 releasedPuzzle 2 _ (adminUpdate_eq_none_iff.2 hrefuses)
  rw [adminUpdate_of_refuses hrefuses] at hsame
  have hgone := congrArg Tables.eventPuzzles hsame
  revert hgone
  decide

end Refused

end Release
