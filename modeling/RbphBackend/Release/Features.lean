import RbphBackend.Currency.Balance
import RbphBackend.Leaderboard.Snapshot
import RbphBackend.Release.Tables

set_option relaxedAutoImplicit false
set_option autoImplicit false

/-!
# Game features

The features of a game change by hand and with the phases of its release. A change writes the
feature's row and a row of its history; that of a phase is skipped where the history has one of
that phase and feature. The changes of a phase are one transaction.

## Main definitions

* `Release.GameFeature`, `Release.GameFeatureState` — features and their states.
* `Release.FeatureDb` — the tables; `Release.setStateConn` — one change.
* `Release.applyRows`, `Release.setManualState` — the transactions.
* `Release.Recorded` — the features are as their history tells.

## Main results

* `Release.setStateConn_cases` — what a change can do.
* `Release.applyRows_spec` — what the changes of a phase can do.
-/

namespace Release

open Currency

/-! ## Features -/

inductive GameFeature where
  | teamFormation
  | directMessage
  | puzzleTicket
  | leaderboard
  | currency
  deriving DecidableEq

inductive GameFeatureState where
  | closed
  | existingOnly
  | opened
  | live
  | locked
  deriving DecidableEq

namespace GameFeature

def all : List GameFeature := [teamFormation, directMessage, puzzleTicket, leaderboard, currency]

def value : GameFeature → ℤ
  | teamFormation => 0
  | directMessage => 1
  | puzzleTicket => 2
  | leaderboard => 3
  | currency => 4

def encodeState : GameFeature → GameFeatureState → Option ℤ
  | teamFormation, .closed => some 0
  | teamFormation, .opened => some 1
  | directMessage, .closed | puzzleTicket, .closed => some 0
  | directMessage, .existingOnly | puzzleTicket, .existingOnly => some 1
  | directMessage, .opened | puzzleTicket, .opened => some 2
  | leaderboard, .live => some 0
  | leaderboard, .locked => some 1
  | currency, .closed => some 0
  | currency, .opened => some 1
  | _, _ => none

def decodeState : GameFeature → ℤ → Option GameFeatureState
  | teamFormation, 0 => some .closed
  | teamFormation, 1 => some .opened
  | directMessage, 0 | puzzleTicket, 0 => some .closed
  | directMessage, 1 | puzzleTicket, 1 => some .existingOnly
  | directMessage, 2 | puzzleTicket, 2 => some .opened
  | leaderboard, 0 => some .live
  | leaderboard, 1 => some .locked
  | currency, 0 => some .closed
  | currency, 1 => some .opened
  | _, _ => none

def fromValue (value : ℤ) : Option GameFeature := all.find? (·.value = value)

lemma value_of_fromValue {value : ℤ} {feature : GameFeature} (h : fromValue value = some feature) :
    feature.value = value := by
  simpa using List.find?_some h

lemma value_injective : Function.Injective value := by
  intro a b h
  cases a <;> cases b <;> first | rfl | cases h

end GameFeature

structure FeatureChangeData where
  feature : GameFeature
  state : GameFeatureState
  deriving DecidableEq

/-- `valid_changes` of one change. -/
def validChange (change : FeatureChangeData) : Bool :=
  (change.feature.encodeState change.state).isSome

/-! ## Tables -/

/-- A row of `rb_release_phase_feature_change`. -/
structure FeatureChangeRow where
  phaseId : Id
  gameId : Id
  featureType : ℤ
  targetState : ℤ
  deriving DecidableEq

/-- A row of `rb_game_feature`. -/
structure FeatureRow where
  state : ℤ
  sourcePhaseId : Option Id
  utimeAt : ℤ
  deriving DecidableEq

/-- A row of `rb_game_feature_history`. -/
structure FeatureHistoryRow where
  gameId : Id
  featureType : ℤ
  oldState : ℤ
  newState : ℤ
  phaseId : Option Id
  actorId : Option Id
  effectiveAt : ℤ
  deriving DecidableEq

/-- A row of `rb_team_currency` with its key. -/
structure TeamCurrency where
  teamId : Id
  currencyId : Id
  row : TeamCurrencyRow
  deriving DecidableEq

/-- The tables that a change of a feature reads and writes. -/
structure FeatureDb where
  games : List Id
  features : Id → ℤ → Option FeatureRow
  history : List FeatureHistoryRow
  board : Leaderboard.Tables
  currencies : List CurrencyRow
  teamCurrencies : List TeamCurrency

/-! ## Statements -/

/-- The ranking that `lock_leaderboard_conn` freezes. -/
def rankedRows (board : Leaderboard.Tables) (game : Id) : List Leaderboard.LockTeamRow :=
  (((board.team.filter fun t => t.gameId = game ∧ t.startAt.isSome ∧ t.isBanned = false).map
      fun t => ({
        id := t.id
        name := t.name
        bio := t.bio
        finishAt := t.finishAt
        lastSolvedAt := Leaderboard.sqlMax ((board.solved t.id).map (·.solveAt))
        solves := (board.solved t.id).length } : Leaderboard.LeaderBoardTeamRow)).insertionSort
    fun a b => Leaderboard.liveKey a ≤ Leaderboard.liveKey b).zipIdx.map fun (row, i) =>
      ⟨game, row.id, i + 1, row.solves, row.finishAt, row.lastSolvedAt⟩

def lockLeaderboardConn (board : Leaderboard.Tables) (game : Id) (lockedAt : ℤ) :
    Leaderboard.Tables :=
  if (board.leaderboardLock game).isSome then board
  else { board with
    leaderboardLock := Function.update board.leaderboardLock game (some lockedAt)
    leaderboardLockTeam := board.leaderboardLockTeam ++ rankedRows board game }

/-- The lock of a game goes, and with it its teams. -/
def unlockLeaderboard (board : Leaderboard.Tables) (game : Id) : Leaderboard.Tables :=
  { board with
    leaderboardLock := Function.update board.leaderboardLock game none
    leaderboardLockTeam := board.leaderboardLockTeam.filter (·.gameId ≠ game) }

/-- The rows of the game's currencies, or of one of them, through a function. -/
def updateTeamCurrencies (d : FeatureDb) (game : Id) (currency : Option Id)
    (f : CurrencyRow → TeamCurrencyRow → Except String TeamCurrencyRow) :
    Except String (List TeamCurrency) :=
  d.teamCurrencies.mapM fun tc =>
    match d.currencies.find? fun c => c.id = tc.currencyId with
    | none => .ok tc
    | some c =>
      if c.gameId = game ∧ currency.all (· = c.id) then
        (f c tc.row).map fun row => { tc with row := row }
      else .ok tc

def settleCurrencyGrowthConn (d : FeatureDb) (game : Id) (currency : Option Id) (effectiveAt : ℤ) :
    Except String (List TeamCurrency) :=
  updateTeamCurrencies d game currency fun c tc => settleCurrencyGrowth c tc effectiveAt

def enableCurrencyGrowthConn (d : FeatureDb) (game : Id) (effectiveAt : ℤ) :
    Except String (List TeamCurrency) :=
  updateTeamCurrencies d game none fun _ tc =>
    .ok { tc with utimeAt := max tc.utimeAt effectiveAt }

/-- The leaderboard's part of a change. -/
def changeBoard (d : FeatureDb) (game : Id) (change : FeatureChangeData) (effectiveAt : ℤ) :
    Except String Leaderboard.Tables :=
  match change.feature, change.state with
  | .leaderboard, .locked => .ok (lockLeaderboardConn d.board game effectiveAt)
  | .leaderboard, .live => .ok (unlockLeaderboard d.board game)
  | .leaderboard, _ => .error "Invalid leaderboard state"
  | _, _ => .ok d.board

/-- The currencies' part of a change. -/
def changeCurrencies (d : FeatureDb) (game : Id) (change : FeatureChangeData) (differs : Bool)
    (effectiveAt : ℤ) : Except String (List TeamCurrency) :=
  match differs, change.feature, change.state with
  | true, .currency, .closed => settleCurrencyGrowthConn d game none effectiveAt
  | true, .currency, .opened => enableCurrencyGrowthConn d game effectiveAt
  | true, .currency, _ => .error "Invalid currency state"
  | _, _, _ => .ok d.teamCurrencies

/-- The history has a row of a phase and a feature. -/
def inHistory (d : FeatureDb) (phase : Id) (featureType : ℤ) : Bool :=
  d.history.any fun h => h.phaseId = some phase && h.featureType = featureType

/-- The state and the history of a feature after a change. -/
def writeFeature (d : FeatureDb) (row : FeatureHistoryRow) : FeatureDb :=
  { d with
    features := Function.update d.features row.gameId (Function.update (d.features row.gameId)
      row.featureType (some ⟨row.newState, row.phaseId, row.effectiveAt⟩))
    history := d.history ++ [row] }

def setStateConn (d : FeatureDb) (game : Id) (change : FeatureChangeData)
    (phaseId actorId : Option Id) (effectiveAt : ℤ) : Except String (Bool × FeatureDb) :=
  let feature := change.feature.value
  match change.feature.encodeState change.state with
  | none => .error "Invalid game feature state"
  | some target =>
    if phaseId.any fun phase => inHistory d phase feature then .ok (false, d)
    else match d.features game feature with
      | none => .error "no rows returned by a query that expected to return at least one row"
      | some old => do
        let board ← changeBoard d game change effectiveAt
        let teamCurrencies ←
          changeCurrencies d game change (decide (old.state ≠ target)) effectiveAt
        return (decide (old.state ≠ target) || change.feature = .leaderboard,
          writeFeature { d with board := board, teamCurrencies := teamCurrencies }
            ⟨game, feature, old.state, target, phaseId, actorId, effectiveAt⟩)

/-! ## Transactions -/

/-- One of a phase's changes. -/
def applyRow (d : FeatureDb) (game phase : Id) (effectiveAt : ℤ) (row : FeatureChangeRow) :
    Except String (Bool × FeatureDb) :=
  match GameFeature.fromValue row.featureType with
  | none => .error "Invalid game feature"
  | some feature =>
    match feature.decodeState row.targetState with
    | none => .error "Invalid game feature state"
    | some state => setStateConn d game ⟨feature, state⟩ (some phase) none effectiveAt

/-- The transaction of `apply_phase_changes`: whether the leaderboard has changed, and the tables it
commits. -/
def applyRows (game phase : Id) (effectiveAt : ℤ) :
    List FeatureChangeRow → FeatureDb → Except String (Bool × FeatureDb)
  | [], d => .ok (false, d)
  | row :: rows, d => do
    let (changed, d) ← applyRow d game phase effectiveAt row
    let (leaderboardChanged, d) ← applyRows game phase effectiveAt rows d
    return ((changed && row.featureType = GameFeature.leaderboard.value) || leaderboardChanged, d)

/-- `set_manual_state`. -/
def setManualState (d : FeatureDb) (game : Id) (change : FeatureChangeData) (actor : Id)
    (effectiveAt : ℤ) : Except String (Option Bool × FeatureDb) :=
  if validChange change && decide (game ∈ d.games) then do
    let (changed, d) ← setStateConn d game change none (some actor) effectiveAt
    return (some changed, d)
  else .ok (none, d)

/-! ## What a change can do -/

/-- The features are as their history tells: each phase has changed a feature once at most, and a
feature that has been changed is as the last change left it. -/
structure Recorded (d : FeatureDb) : Prop where
  once : ∀ phase featureType,
    d.history.countP (fun h => h.phaseId = some phase && h.featureType = featureType) ≤ 1
  current : ∀ game featureType h,
    (d.history.filter fun h => h.gameId = game && h.featureType = featureType).getLast? = some h →
      d.features game featureType = some ⟨h.newState, h.phaseId, h.effectiveAt⟩

section Spec

variable {d d' : FeatureDb} {game phase : Id} {change : FeatureChangeData}
  {phaseId actorId : Option Id} {effectiveAt : ℤ} {changed : Bool}

lemma inHistory_iff {featureType : ℤ} : inHistory d phase featureType = true ↔
    ∃ h ∈ d.history, h.phaseId = some phase ∧ h.featureType = featureType := by
  simp [inHistory]

/-- **What a change can do**: it is skipped, as its phase has made it before; or it writes one row of
the history, which names it. -/
theorem setStateConn_cases
    (h : setStateConn d game change phaseId actorId effectiveAt = .ok (changed, d')) :
    (changed = false ∧ d' = d ∧
        ∃ phase, phaseId = some phase ∧ inHistory d phase change.feature.value = true) ∨
      (∃ row : FeatureHistoryRow, row.gameId = game ∧ row.featureType = change.feature.value ∧
        row.phaseId = phaseId ∧
        (∀ phase, phaseId = some phase → inHistory d phase change.feature.value = false) ∧
        d'.history = d.history ++ [row] ∧ d'.games = d.games ∧
        d'.features = (writeFeature d row).features ∧
        (change.feature = .leaderboard → changed = true)) := by
  unfold setStateConn at h
  cases henc : change.feature.encodeState change.state with
  | none => simp [henc] at h
  | some target =>
    simp only [henc] at h
    split at h
    · rename_i hskip
      cases h
      rw [Option.any_eq_true] at hskip
      exact Or.inl ⟨rfl, rfl, hskip⟩
    · rename_i hfresh
      cases hold : d.features game change.feature.value with
      | none => simp [hold] at h
      | some old =>
        simp only [hold] at h
        cases hb : changeBoard d game change effectiveAt with
        | error e => simp [hb, bind, Except.bind] at h
        | ok board =>
          cases hc : changeCurrencies d game change (decide (old.state ≠ target)) effectiveAt with
          | error e =>
            simp only [hb, hc, bind, Except.bind] at h
            cases h
          | ok teamCurrencies =>
            simp only [hb, hc, bind, Except.bind, pure, Except.pure, Except.ok.injEq,
              Prod.mk.injEq] at h
            obtain ⟨rfl, rfl⟩ := h
            refine Or.inr ⟨_, rfl, rfl, rfl, ?_, rfl, rfl, rfl, ?_⟩
            · intro phase hphase
              simpa [hphase] using hfresh
            · intro hboard
              simp [hboard]

/-- A change by hand writes one row of the history. -/
lemma setStateConn_manual
    (h : setStateConn d game change none actorId effectiveAt = .ok (changed, d')) :
    ∃ row : FeatureHistoryRow, row.phaseId = none ∧ d'.history = d.history ++ [row] ∧
      d'.games = d.games ∧ d'.features = (writeFeature d row).features := by
  rcases setStateConn_cases h with ⟨_, _, phase, hphase, _⟩ | ⟨row, _, _, hp, _, hh, hg, hf, _⟩
  · cases hphase
  · exact ⟨row, hp, hh, hg, hf⟩

/-- A row that the history does not have of its phase is recorded. -/
lemma Recorded.write (hd : Recorded d) (row : FeatureHistoryRow)
    (hfresh : ∀ phase, row.phaseId = some phase → inHistory d phase row.featureType = false)
    (hhist : d'.history = d.history ++ [row]) (hfeat : d'.features = (writeFeature d row).features) :
    Recorded d' := by
  constructor
  · intro phase featureType
    rw [hhist, List.countP_append, List.countP_singleton]
    split
    · rename_i hrow
      simp only [Bool.and_eq_true, decide_eq_true_eq] at hrow
      have hnone := hfresh phase hrow.1
      have hzero : d.history.countP
          (fun h => h.phaseId = some phase && h.featureType = featureType) = 0 := by
        rw [List.countP_eq_zero]
        intro h hh hsame
        rw [← hrow.2] at hsame
        unfold inHistory at hnone
        exact (List.any_eq_false.1 hnone h hh) hsame
      omega
    · exact hd.once phase featureType
  · intro game featureType h hlast
    rw [hhist, List.filter_append] at hlast
    rw [hfeat]
    by_cases hrow : row.gameId = game ∧ row.featureType = featureType
    · obtain ⟨rfl, rfl⟩ := hrow
      simp only [List.filter_cons, List.filter_nil, decide_true, Bool.and_self, if_true,
        List.getLast?_append, List.getLast?_singleton, Option.some_or, Option.some.injEq] at hlast
      subst hlast
      simp [writeFeature]
    · have hskip : (row.gameId = game && row.featureType = featureType : Bool) = false := by
        simpa using hrow
      simp only [List.filter_cons, hskip, Bool.false_eq_true, if_false, List.filter_nil,
        List.append_nil] at hlast
      rw [← hd.current game featureType h hlast]
      by_cases hgame : game = row.gameId
      · subst hgame
        have htype : featureType ≠ row.featureType := fun heq => hrow ⟨rfl, heq.symm⟩
        simp [writeFeature, Function.update_of_ne htype]
      · simp [writeFeature, Function.update_of_ne hgame]

/-- What one of a phase's changes can do. -/
lemma applyRow_cases {row : FeatureChangeRow}
    (h : applyRow d game phase effectiveAt row = .ok (changed, d')) :
    (changed = false ∧ d' = d ∧ inHistory d phase row.featureType = true) ∨
      (∃ new : FeatureHistoryRow, new.gameId = game ∧ new.featureType = row.featureType ∧
        new.phaseId = some phase ∧ inHistory d phase row.featureType = false ∧
        d'.history = d.history ++ [new] ∧ d'.games = d.games ∧
        d'.features = (writeFeature d new).features ∧
        (row.featureType = GameFeature.leaderboard.value → changed = true)) := by
  unfold applyRow at h
  split at h
  · cases h
  · rename_i feature hfeature
    have hvalue := GameFeature.value_of_fromValue hfeature
    split at h
    · cases h
    · rcases setStateConn_cases h with ⟨rfl, rfl, q, hq, hin⟩ |
        ⟨new, hg, ht, hp, hfresh, hh, hgames, hf, hb⟩
      · cases hq
        exact Or.inl ⟨rfl, rfl, by rwa [hvalue] at hin⟩
      · refine Or.inr ⟨new, hg, ht.trans hvalue, hp, ?_, hh, hgames, hf, fun hboard => hb ?_⟩
        · rw [← hvalue]
          exact hfresh phase rfl
        · rw [← hvalue] at hboard
          exact GameFeature.value_injective hboard

/-- **What the changes of a phase can do**: they append rows of that phase to the history, each of
them once, so that it has one of each change; the leaderboard is reported as changed where one of
the rows is of the leaderboard. -/
theorem applyRows_spec {rows : List FeatureChangeRow} (hd : Recorded d)
    (h : applyRows game phase effectiveAt rows d = .ok (changed, d')) :
    Recorded d' ∧ d'.games = d.games ∧
      (∀ row ∈ rows, inHistory d' phase row.featureType = true) ∧
      ∃ new : List FeatureHistoryRow, d'.history = d.history ++ new ∧
        (∀ r ∈ new, r.gameId = game ∧ r.phaseId = some phase) ∧
        ((∃ r ∈ new, r.featureType = GameFeature.leaderboard.value) → changed = true) := by
  induction rows generalizing d changed with
  | nil =>
    cases h
    exact ⟨hd, rfl, by simp, [], by simp, by simp, by simp⟩
  | cons row rows ih =>
    rw [applyRows] at h
    cases hrow : applyRow d game phase effectiveAt row with
    | error e => simp [hrow, bind, Except.bind] at h
    | ok r =>
      obtain ⟨first, d₁⟩ := r
      simp only [hrow, bind, Except.bind] at h
      cases hrest : applyRows game phase effectiveAt rows d₁ with
      | error e => simp [hrest] at h
      | ok r =>
        obtain ⟨rest, d₂⟩ := r
        simp only [hrest, pure, Except.pure, Except.ok.injEq, Prod.mk.injEq] at h
        obtain ⟨rfl, rfl⟩ := h
        rcases applyRow_cases hrow with ⟨rfl, rfl, hin⟩ |
          ⟨new, hg, ht, hp, hfresh, hh, hgames, hf, hb⟩
        · -- the phase has made the change before
          obtain ⟨hrec, hgames, hall, more, hmore, hof, hboard⟩ := ih hd hrest
          refine ⟨hrec, hgames, ?_, more, hmore, hof, fun hm => by simp [hboard hm]⟩
          intro row' hrow'
          rcases List.mem_cons.1 hrow' with rfl | hrow'
          · obtain ⟨q, hq, hsame⟩ := inHistory_iff.1 hin
            exact inHistory_iff.2 ⟨q, by rw [hmore]; exact List.mem_append_left _ hq, hsame⟩
          · exact hall row' hrow'
        · have hd₁ : Recorded d₁ := hd.write new (by
            intro q hq
            rw [hp] at hq
            cases hq
            rwa [ht]) hh hf
          obtain ⟨hrec, hgames', hall, more, hmore, hof, hboard⟩ := ih hd₁ hrest
          have hmem : new ∈ d₂.history := by
            rw [hmore, hh]
            simp
          refine ⟨hrec, hgames'.trans hgames, ?_, new :: more, ?_, ?_, ?_⟩
          · intro row' hrow'
            rcases List.mem_cons.1 hrow' with rfl | hrow'
            · exact inHistory_iff.2 ⟨new, hmem, hp, ht⟩
            · exact hall row' hrow'
          · rw [hmore, hh]
            simp
          · intro r hr
            rcases List.mem_cons.1 hr with rfl | hr
            · exact ⟨hg, hp⟩
            · exact hof r hr
          · rintro ⟨r, hr, htype⟩
            rcases List.mem_cons.1 hr with rfl | hr
            · have hrowtype : row.featureType = GameFeature.leaderboard.value := ht.symm.trans htype
              simp [hb hrowtype, hrowtype]
            · simp [hboard ⟨r, hr, htype⟩]

/-- A change by hand keeps what is recorded, and appends a row of no phase, if any. -/
lemma setManualState_spec {actor : Id} {result : Option Bool} (hd : Recorded d)
    (h : setManualState d game change actor effectiveAt = .ok (result, d')) :
    Recorded d' ∧ d'.games = d.games ∧ ∃ new : List FeatureHistoryRow,
      d'.history = d.history ++ new ∧ ∀ r ∈ new, r.phaseId = none := by
  unfold setManualState at h
  split at h
  · cases hs : setStateConn d game change none (some actor) effectiveAt with
    | error e => simp [hs, bind, Except.bind] at h
    | ok r =>
      obtain ⟨changed, d₁⟩ := r
      simp only [hs, bind, Except.bind, pure, Except.pure, Except.ok.injEq, Prod.mk.injEq] at h
      obtain ⟨_, rfl⟩ := h
      obtain ⟨row, hp, hh, hg, hf⟩ := setStateConn_manual hs
      refine ⟨hd.write row (by simp [hp]) hh hf, hg, [row], hh, ?_⟩
      simpa using hp
  · cases h
    exact ⟨hd, rfl, [], by simp, by simp⟩

end Spec

end Release
