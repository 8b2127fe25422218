import RbphBackend.Leaderboard.Locking

set_option relaxedAutoImplicit false
set_option autoImplicit false

/-!
# Snapshots of a locked board

`build_snapshot` reads whether the board is locked, then the teams, and then the time of the lock.
Where each of these reads finds the lock as the one before it has found it, the snapshot is what the
tables held at one moment, and a locked board shows no solve made after the lock. A lock that is
committed between the reads puts its time on teams that were read live.

## Main definitions

* `BoardLock.Shows` — the snapshot is of one state of the tables.
* `BoardLock.RankedAt` — its teams are as they were ranked while the board was open.
* `BoardLock.Built` — a run in which a snapshot is built.
* `BoardLock.Sealed` — the invariant: frozen teams were ranked while the board was open.

## Main results

* `BoardLock.buildSnapshot_consistent` — any requests in any interleaving.
* `BoardLock.buildSnapshot_torn` — a lock committed between the reads.
-/

namespace BoardLock

open Concurrency Deferred
open Leaderboard (Id LeaderBoardSnapshot LeaderBoardTeamInfo LeaderBoardTeamRow LockTeamRow Tables
  assemble isLocked joinMembers lockedAt lockedRows mem_of_sqlMax teamRows)
open Release (FeatureDb FeatureChangeData FeatureChangeRow GameFeature rankedRows)

/-! ## What is asked of a snapshot -/

/-- A team of a snapshot without its rank and its members. -/
def rowOf (info : LeaderBoardTeamInfo) : LeaderBoardTeamRow where
  id := info.id
  name := info.name
  bio := info.bio
  finishAt := info.finishAt
  lastSolvedAt := info.lastSolvedAt
  solves := info.solves

/-- **The snapshot is of this state of the tables**: it is labelled as the board is, and its order
and its teams are the frozen ones that are visible where it is labelled locked, and the live ones
where it is not. -/
structure Shows (board : Tables) (game : Id) (s : LeaderBoardSnapshot) : Prop where
  lockedAt : s.lockedAt = Leaderboard.lockedAt board game
  order : s.order = (teamRows board game s.lockedAt.isSome).map (·.id)
  teams : ∀ id, (s.teams id).map rowOf =
    (teamRows board game s.lockedAt.isSome).reverse.find? (·.id = id)

/-- The teams of a snapshot labelled `lockedAt` are as they were ranked in this state of the tables,
in which the board was open: with no later solve, and by the clock, with none after the lock, where
this state has none. -/
structure RankedAt (board : Tables) (game : Id) (lockedAt : ℤ) (s : LeaderBoardSnapshot) :
    Prop where
  opened : isLocked board game = false
  teams : ∀ id info, s.teams id = some info → ∃ r ∈ rankedRows board game, r.teamId = id ∧
    r.solves = info.solves ∧ r.finishAt = info.finishAt ∧ r.lastSolvedAt = info.lastSolvedAt
  clock : (∀ tp ∈ board.teamPuzzle, tp.state = 1 → ∀ solveAt ∈ tp.solveAt, solveAt ≤ lockedAt) →
    ∀ id info, s.teams id = some info → ∀ solvedAt ∈ info.lastSolvedAt, solvedAt ≤ lockedAt

/-- The frozen teams of a game. -/
def frozen (board : Tables) (game : Id) : List LockTeamRow :=
  board.leaderboardLockTeam.filter (·.gameId = game)

/-- The board of a game is open. -/
def IsOpen (board : Tables) (game : Id) : Prop :=
  board.leaderboardLock game = none ∧ frozen board game = []

/-- A run in which session `t` builds a snapshot of a game: it has not begun in `c`, and has returned
in `c'`. -/
structure Built (ok : Tid → Label → Site → Prop) (requests : Tid → Request) (db : FeatureDb)
    (t : Tid) (game : Id) (version : ℤ) (s : LeaderBoardSnapshot)
    (c c' : Concurrency.Config Label Site (Except String Reply)) : Prop where
  request : requests t = .buildSnapshot game version
  before : Reaches Still ok (site requests db) c
  begun : c.threads t = ((requests t).run t).run
  run : Reaches Still ok c c'
  returned : c'.threads t = .ret (.ok (.snapshot s))

/-- **What is asked of the snapshot**: it is of one state of the tables committed while it was built;
and where it is labelled locked and the board was open at first, its teams are as they were ranked
while it was open. -/
def IsConsistent (db : FeatureDb) (game : Id) (s : LeaderBoardSnapshot) (site₀ site site' : Site) :
    Prop :=
  (∃ d ∈ site.since site', Shows d.board game s) ∧
    (IsOpen db.board game → ∀ lockedAt, s.lockedAt = some lockedAt →
      ∃ d ∈ site₀.since site', RankedAt d.board game lockedAt s)

/-! ## Snapshots of one state -/

section Snapshots

variable {board : Tables} {game : Id} {members : List (Id × String)} {version : ℤ}

/-- The row of a team with its members. -/
lemma joinMembers_row (members : List (Id × String)) (rows : List LeaderBoardTeamRow) :
    (joinMembers rows members).map rowOf = rows := by
  rw [joinMembers, List.map_map]
  exact List.map_id' rows

lemma teams_row (members : List (Id × String)) (version : ℤ) (rows : List LeaderBoardTeamRow)
    (lockedAt : Option ℤ) (id : Id) :
    ((assemble (joinMembers rows members) lockedAt version).teams id).map rowOf =
      rows.reverse.find? (·.id = id) := by
  have h := congrArg List.reverse (joinMembers_row members rows)
  rw [← List.map_reverse] at h
  rw [← h, List.find?_map]
  rfl

/-- What is read of one state shows it. -/
lemma shows_assemble : Shows board game (assemble
    (joinMembers (teamRows board game (isLocked board game)) members)
    (lockedAt board game) version) where
  lockedAt := rfl
  order := by
    have h := congrArg (List.map (·.id))
      (joinMembers_row members (teamRows board game (isLocked board game)))
    rw [List.map_map] at h
    exact h
  teams := teams_row _ _ _ _

/-- A row of a locked board is that of a frozen team. -/
lemma exists_frozen_of_mem {row : LeaderBoardTeamRow} (h : row ∈ lockedRows board game) :
    ∃ r ∈ frozen board game, r.teamId = row.id ∧ r.solves = row.solves ∧ r.finishAt = row.finishAt ∧
      r.lastSolvedAt = row.lastSolvedAt := by
  obtain ⟨⟨r, tm⟩, hmem, rfl⟩ := List.mem_map.mp h
  rw [List.mem_insertionSort] at hmem
  obtain ⟨r', hr', hfind⟩ := List.mem_filterMap.mp hmem
  obtain ⟨tm', htm, heq⟩ := Option.map_eq_some_iff.mp hfind
  obtain ⟨rfl, rfl⟩ := Prod.mk.inj heq
  have hid : tm'.id = r'.teamId ∧ tm'.isBanned = false ∧ board.visible tm'.id = true := by
    simpa using List.find?_some htm
  exact ⟨r', hr', hid.1.symm, rfl, rfl, rfl⟩

/-- The solves that a ranking tells of. -/
lemma exists_solve_of_mem {r : LockTeamRow} {k : ℤ} (h : r ∈ rankedRows board game)
    (hk : r.lastSolvedAt = some k) : ∃ tp ∈ board.teamPuzzle, tp.state = 1 ∧ tp.solveAt = some k := by
  obtain ⟨⟨row, i⟩, hrow, rfl⟩ := List.mem_map.mp h
  have hrow := List.fst_mem_of_mem_zipIdx hrow
  rw [List.mem_insertionSort] at hrow
  obtain ⟨tm, -, rfl⟩ := List.mem_map.mp hrow
  obtain ⟨tp, htp, hsolve⟩ := List.mem_map.mp (mem_of_sqlMax hk)
  obtain ⟨hmem, hstate⟩ := List.mem_filter.mp htp
  exact ⟨tp, hmem, (of_decide_eq_true hstate).2, hsolve⟩

/-- The teams of a locked board, where its frozen teams are those of a ranking. -/
lemma rankedAt_of_frozen {board₀ : Tables} {lockedAt : ℤ} (hopen : isLocked board₀ game = false)
    (hfrozen : ∀ r ∈ frozen board game, r ∈ rankedRows board₀ game) :
    RankedAt board₀ game lockedAt
      (assemble (joinMembers (lockedRows board game) members) (some lockedAt) version) := by
  have hteams : ∀ id info,
      (assemble (joinMembers (lockedRows board game) members) (some lockedAt) version).teams id =
        some info → ∃ r ∈ rankedRows board₀ game, r.teamId = id ∧ r.solves = info.solves ∧
          r.finishAt = info.finishAt ∧ r.lastSolvedAt = info.lastSolvedAt := by
    intro id info h
    have hfind := teams_row members version (lockedRows board game) (some lockedAt) id
    rw [h, Option.map_some] at hfind
    have hid : info.id = id := of_decide_eq_true
      (List.find?_some (p := fun row : LeaderBoardTeamRow => decide (row.id = id)) hfind.symm)
    obtain ⟨r, hr, hteam, hrest⟩ :=
      exists_frozen_of_mem (List.mem_reverse.mp (List.mem_of_find?_eq_some hfind.symm))
    exact ⟨r, hfrozen r hr, hteam.trans hid, hrest⟩
  refine ⟨hopen, hteams, fun hclock id info h k hk => ?_⟩
  obtain ⟨r, hr, -, -, -, hlast⟩ := hteams id info h
  obtain ⟨tp, htp, hstate, hsolve⟩ := exists_solve_of_mem hr (hlast.trans hk)
  exact hclock tp htp hstate k hsolve

end Snapshots

/-! ## What is committed -/

/-- The lock of a game and its frozen teams change by what the holder of the lock's row commits;
others may delete frozen teams. -/
def guards : Guards FeatureDb Lock where
  rel
    | .leaderboardLock game, d, d' => d'.board.leaderboardLock game = d.board.leaderboardLock game ∧
        frozen d'.board game ⊆ frozen d.board game
    | .feature .., _, _ => True
  refl
    | .leaderboardLock _, _ => ⟨rfl, List.Subset.refl _⟩
    | .feature .., _ => trivial
  trans
    | .leaderboardLock _, _, _, _, h, h' => ⟨h'.1.trans h.1, List.Subset.trans h'.2 h.2⟩
    | .feature .., _, _, _, _, _ => trivial

/-- **The invariant**, of a run from `db`: an open board has no frozen teams, and those of a locked
board were ranked in one committed state in which it was open. -/
structure Sealed (game : Id) (db d : FeatureDb) (history : List FeatureDb) : Prop where
  mem : d ∈ db :: history
  opened : IsOpen db.board game → isLocked d.board game = false → frozen d.board game = []
  locked : IsOpen db.board game → isLocked d.board game = true →
    ∃ d₀ ∈ db :: history, isLocked d₀.board game = false ∧
      ∀ r ∈ frozen d.board game, r ∈ rankedRows d₀.board game

/-! ## What a transaction has written -/

section Drafts

variable (game : Id) (db : FeatureDb) (t : Tid)

/-- The writes leave the lock of the game alone. -/
def Keeps (f : FeatureDb → FeatureDb) : Prop :=
  ∀ d, guards.rel (.leaderboardLock game) d (f d)

/-- The writes of a change of features: they leave the teams alone, and change only the locks that the
transaction holds. -/
structure Drafted (f : FeatureDb → FeatureDb) (s : Site) : Prop where
  ranks : ∀ d, rankedRows (f d).board game = rankedRows d.board game
  guarded : ∀ k, s.holder k ≠ some t → ∀ d, guards.rel k d (f d)

/-- The transaction has inserted the lock of the game. -/
structure Inserted (f : FeatureDb → FeatureDb) (s : Site) : Prop where
  held : s.holder (.leaderboardLock game) = some t
  opened : isLocked s.committed.board game = false
  locked : ∀ d, isLocked (f d).board game = true
  frozen : ∀ d, frozen (f d).board game ⊆ frozen d.board game

/-- What a transaction has done to the lock of the game when it may commit: it has left it alone, or
has locked the open board with its ranking, or has opened it. -/
inductive Settled (f : FeatureDb → FeatureDb) (s : Site) : Prop where
  | kept (h : Keeps game f)
  | locked (d₀ : FeatureDb) (held : s.holder (.leaderboardLock game) = some t)
      (opened : isLocked s.committed.board game = false) (mem : d₀ ∈ db :: s.history)
      (opened₀ : isLocked d₀.board game = false) (locked : ∀ d, isLocked (f d).board game = true)
      (frozen : ∀ d, frozen (f d).board game ⊆ frozen d.board game ++ rankedRows d₀.board game)
  | opened (opened : ∀ d, isLocked (f d).board game = false)
      (frozen : ∀ d, frozen (f d).board game = [])

end Drafts

section Stable

variable {game : Id} {db : FeatureDb} {t : Tid} {f : FeatureDb → FeatureDb}

/-- The lock of a game that the session holds. -/
lemma isLocked_of_held {s s' : Site} (hr : Others guards t s s')
    (hheld : s.holder (.leaderboardLock game) = some t) :
    isLocked s'.committed.board game = isLocked s.committed.board game :=
  congrArg Option.isSome (hr.guarded _ hheld).1

lemma stable_drafted : Stable (Others guards t) (Drafted game t f) := fun _ _ h hr =>
  ⟨h.ranks, fun k hk => h.guarded k fun hheld => hk ((hr.held k).mpr hheld)⟩

lemma stable_inserted : Stable (Others guards t) (Inserted game t f) := fun _ _ h hr =>
  ⟨(hr.held _).mpr h.held, (isLocked_of_held hr h.held).trans h.opened, h.locked, h.frozen⟩

lemma stable_settled : Stable (Others guards t) (Settled game db t f) := by
  intro s s' h hr
  cases h with
  | kept h => exact .kept h
  | locked d₀ held opened mem opened₀ locked frozen =>
    exact .locked d₀ ((hr.held _).mpr held) ((isLocked_of_held hr held).trans opened)
      (hr.later.cons_subset db mem) opened₀ locked frozen
  | opened h hf => exact .opened h hf

end Stable

/-! ## Statements that leave the board alone -/

/-- What a session knows of its transaction however the others act, and after each statement that
leaves the board alone. -/
structure Lasting (t : Tid) (P : (FeatureDb → FeatureDb) → Site → Prop) : Prop where
  stable : ∀ f, Stable (Others guards t) (P f)
  write : ∀ s f g locks, P f s → (∀ d, (g d).board = d.board) → P (g ∘ f) (s.write t locks (g ∘ f))

section Lasting

variable {game : Id} {db : FeatureDb} {t : Tid}

lemma Lasting.and {P Q : (FeatureDb → FeatureDb) → Site → Prop} (hP : Lasting t P)
    (hQ : Lasting t Q) : Lasting t fun f s => P f s ∧ Q f s where
  stable f := (hP.stable f).and (hQ.stable f)
  write s f g locks h hg := ⟨hP.write s f g locks h.1 hg, hQ.write s f g locks h.2 hg⟩

lemma Lasting.imp {P : (FeatureDb → FeatureDb) → Site → Prop} (hP : Lasting t P) (p : Prop) :
    Lasting t fun f s => p → P f s where
  stable f s s' h hr hp := hP.stable f s s' (h hp) hr
  write s f g locks h hg hp := hP.write s f g locks (h hp) hg

/-- What a lock guards is part of the board. -/
lemma rel_congr {k : Lock} {d d₁ d₂ : FeatureDb} (h : guards.rel k d d₁)
    (hboard : d₂.board = d₁.board) : guards.rel k d d₂ := by
  cases k with
  | leaderboardLock g =>
    show d₂.board.leaderboardLock g = d.board.leaderboardLock g ∧ frozen d₂.board g ⊆ frozen d.board g
    rw [hboard]
    exact h
  | feature g featureType => trivial

lemma lasting_drafted : Lasting t (Drafted game t) where
  stable _ := stable_drafted
  write s f g locks h hg := {
    ranks := fun d => by
      show rankedRows (g (f d)).board game = rankedRows d.board game
      rw [hg, h.ranks]
    guarded := fun k hk d =>
      rel_congr (h.guarded k (fun hheld => hk (Store.write_held hheld)) d) (hg _) }

lemma lasting_keeps : Lasting t fun f _ => Keeps game f where
  stable _ := Stable.const _
  write _ _ _ _ h hg d := rel_congr (h d) (hg _)

lemma lasting_settled : Lasting t (Settled game db t) where
  stable _ := stable_settled
  write s f g locks h hg := by
    cases h with
    | kept h => exact .kept fun d => rel_congr (h d) (hg _)
    | locked d₀ held opened mem opened₀ locked hfrozen =>
      refine .locked d₀ (Store.write_held held) opened mem opened₀ (fun d => ?_) fun d => ?_
      · show isLocked (g (f d)).board game = true
        rw [hg]
        exact locked d
      · show frozen (g (f d)).board game ⊆ _
        rw [hg]
        exact hfrozen d
    | opened h hfrozen =>
      refine .opened (fun d => ?_) fun d => ?_
      · show isLocked (g (f d)).board game = false
        rw [hg]
        exact h d
      · show frozen (g (f d)).board game = []
        rw [hg]
        exact hfrozen d

end Lasting

section Changes

variable {game : Id} {db : FeatureDb} {t : Tid} {ok : Label → Site → Prop}
  {P Q : (FeatureDb → FeatureDb) → Site → Prop}

/-- A triple of a part of a transaction. -/
abbrev TxTriple {α : Type} (game : Id) (db : FeatureDb) (ok : Label → Site → Prop) (t : Tid)
    (P : (FeatureDb → FeatureDb) → Site → Prop) (p : Call α)
    (Q : (FeatureDb → FeatureDb) → Site → Prop) : Prop :=
  CallTriple guards (Sealed game db) ok t (InTx t P) p fun _ => InTx t Q

/-- A statement that leaves the board alone. -/
lemma statement_triple {α : Type} (hP : Lasting t P) {locks : List Lock}
    {stmt : FeatureDb → Except String (α × (FeatureDb → FeatureDb))}
    (h : ∀ d b g, stmt d = .ok (b, g) → ∀ d', (g d').board = d'.board) :
    TxTriple game db ok t P (query t .stmt locks stmt) P :=
  query_triple hP.stable (fun _ => hP.stable) fun s f b g hs _ hstmt =>
    hP.write s f g locks hs (h _ b g hstmt)

/-- A statement that reads. -/
lemma select_triple {α : Type} (hP : Lasting t P) {locks : List Lock} {f : FeatureDb → α} :
    TxTriple game db ok t P (query t .stmt locks fun d => .ok (f d, id)) P :=
  statement_triple hP fun _ _ _ h _ => by
    obtain ⟨-, rfl⟩ := Prod.mk.inj (Except.ok.inj h)
    rfl

lemma changeCurrencies_triple (hP : Lasting t P) {g : Id} {change : FeatureChangeData}
    {differs : Bool} {effectiveAt : ℤ} :
    TxTriple game db ok t P (changeCurrencies t g change differs effectiveAt) P := by
  unfold changeCurrencies
  split
  · refine statement_triple hP fun d b h hstmt d' => ?_
    cases hc : Release.changeCurrencies d g change differs effectiveAt with
    | error e =>
      rw [hc] at hstmt
      cases hstmt
    | ok teamCurrencies =>
      rw [hc] at hstmt
      obtain ⟨-, rfl⟩ := Prod.mk.inj (Except.ok.inj hstmt)
      rfl
  · exact .pure (stable_inTx hP.stable) fun _ h => h

lemma phaseApplied_triple (hP : Lasting t P) {phaseId : Option Id} {featureType : ℤ} :
    TxTriple game db ok t P (phaseApplied t phaseId featureType) P := by
  cases phaseId with
  | none => exact .pure (stable_inTx hP.stable) fun _ h => h
  | some phase => exact select_triple hP

lemma selectState_triple (hP : Lasting t P) {g : Id} {featureType : ℤ} :
    TxTriple game db ok t P (selectState t g featureType) P := by
  refine statement_triple hP fun d b h hstmt d' => ?_
  cases hrow : d.features g featureType with
  | none =>
    rw [hrow] at hstmt
    cases hstmt
  | some old =>
    rw [hrow] at hstmt
    obtain ⟨-, rfl⟩ := Prod.mk.inj (Except.ok.inj hstmt)
    rfl

/-- **A change of a feature** does to the board what its part for the board does. -/
lemma setStateConn_triple (hP : Lasting t P) (hQ : Lasting t Q) (hPQ : ∀ f s, P f s → Q f s) {g : Id}
    {change : FeatureChangeData} {phaseId actorId : Option Id} {effectiveAt : ℤ}
    (hboard : TxTriple game db ok t P (changeBoard t g change effectiveAt) Q) :
    TxTriple game db ok t P (setStateConn t g change phaseId actorId effectiveAt) Q := by
  unfold setStateConn
  dsimp only
  cases change.feature.encodeState change.state with
  | none => exact .throw
  | some target =>
    refine (phaseApplied_triple hP).bind fun applied => ?_
    split
    · exact .pure (stable_inTx hP.stable) fun s ⟨f, hf, h⟩ => ⟨f, hf, hPQ f s h⟩
    · refine (selectState_triple hP).bind fun old => hboard.bind fun _ => ?_
      refine (changeCurrencies_triple hQ).bind fun _ => ?_
      refine (statement_triple hQ fun _ _ _ h _ => ?_).bind fun _ =>
        (statement_triple hQ fun _ _ _ h _ => ?_).bind fun _ =>
          .pure (stable_inTx hQ.stable) fun _ h => h
      · obtain ⟨-, rfl⟩ := Prod.mk.inj (Except.ok.inj h)
        rfl
      · obtain ⟨-, rfl⟩ := Prod.mk.inj (Except.ok.inj h)
        rfl

end Changes

/-! ## Statements that lock or open a board -/

lemma frozen_insertLockTeams (rows : List LockTeamRow) (board : Tables) (g : Id) :
    frozen (insertLockTeams rows board) g = frozen board g ++ rows.filter (·.gameId = g) :=
  List.filter_append _ _

/-- The rows of a ranking are those of its game. -/
lemma filter_rankedRows {g g' : Id} (hne : g' ≠ g) (board : Tables) :
    (rankedRows board g).filter (·.gameId = g') = [] := by
  rw [List.filter_eq_nil_iff]
  intro r hr
  obtain ⟨⟨row, i⟩, -, rfl⟩ := List.mem_map.mp hr
  simpa using hne.symm

section Board

variable {game g : Id} {db : FeatureDb} {t : Tid} {ok : Label → Site → Prop} {s : Site}
  {f : FeatureDb → FeatureDb} {e : Tables → Tables}

/-- A change of the board that leaves the lock of the game alone. -/
lemma Keeps.onBoard (h : Keeps game f)
    (he : ∀ board, (e board).leaderboardLock game = board.leaderboardLock game ∧
      frozen (e board) game ⊆ frozen board game) : Keeps game (onBoard e ∘ f) :=
  fun d => guards.trans _ _ _ _ (h d) (he (f d).board)

/-- A change of the board of `g`, whose lock the transaction holds then. -/
lemma Drafted.onBoard {locks : List Lock} (h : Drafted game t f s)
    (hheld : (s.write t locks (onBoard e ∘ f)).holder (.leaderboardLock g) = some t)
    (hranks : ∀ board, rankedRows (e board) game = rankedRows board game)
    (he : ∀ g' ≠ g, ∀ board, (e board).leaderboardLock g' = board.leaderboardLock g' ∧
      frozen (e board) g' ⊆ frozen board g') :
    Drafted game t (onBoard e ∘ f) (s.write t locks (onBoard e ∘ f)) where
  ranks d := (hranks (f d).board).trans (h.ranks d)
  guarded k hk d := by
    refine guards.trans k _ _ _ (h.guarded k (fun hheld => hk (Store.write_held hheld)) d) ?_
    cases k with
    | leaderboardLock g' => exact he g' (fun heq => hk (heq ▸ hheld)) (f d).board
    | feature g' featureType => trivial

/-- What the transaction knows once it has inserted the lock of `g`. -/
structure LockInserted (game g : Id) (t : Tid) (f : FeatureDb → FeatureDb) (s : Site) : Prop where
  drafted : Drafted game t f s
  held : s.holder (.leaderboardLock g) = some t
  keeps : g ≠ game → Keeps game f
  inserted : g = game → Inserted game t f s

lemma stable_lockInserted : Stable (Others guards t) (LockInserted game g t f) := fun s s' h hr =>
  ⟨stable_drafted s s' h.drafted hr, (hr.held _).mpr h.held, h.keeps,
    fun hg => stable_inserted s s' (h.inserted hg) hr⟩

/-- The insertion of a lock. -/
lemma LockInserted.of_keeps {lockedAt : ℤ} (h : Drafted game t f s) (hkeeps : Keeps game f)
    (hopen : isLocked (f s.committed).board g = false) :
    LockInserted game g t (onBoard (insertLock g lockedAt) ∘ f)
      (s.write t [.leaderboardLock g] (onBoard (insertLock g lockedAt) ∘ f)) := by
  have hheld := Store.write_holder (t := t) (s := s) (f := onBoard (insertLock g lockedAt) ∘ f)
    (List.mem_singleton_self (Lock.leaderboardLock g))
  have hother : ∀ g' ≠ g, ∀ board,
      (insertLock g lockedAt board).leaderboardLock g' = board.leaderboardLock g' ∧
        frozen (insertLock g lockedAt board) g' ⊆ frozen board g' :=
    fun g' hne board => ⟨Function.update_of_ne hne _ _, List.Subset.refl _⟩
  refine ⟨h.onBoard hheld (fun _ => rfl) hother, hheld,
    fun hne => hkeeps.onBoard (hother game hne.symm), ?_⟩
  rintro rfl
  refine ⟨hheld, ?_, fun d => ?_, fun d => (hkeeps d).2⟩
  · have hlock : isLocked (f s.committed).board g = isLocked s.committed.board g :=
      congrArg Option.isSome (hkeeps s.committed).1
    exact hlock.symm.trans hopen
  · show (Function.update (f d).board.leaderboardLock g (some lockedAt) g).isSome = true
    rw [Function.update_self]
    rfl

/-- The insertion of the ranking. -/
lemma LockInserted.settled (h : LockInserted game g t f s) (hmem : s.committed ∈ db :: s.history) :
    Drafted game t (onBoard (insertLockTeams (rankedRows (f s.committed).board g)) ∘ f)
        (s.write t [] (onBoard (insertLockTeams (rankedRows (f s.committed).board g)) ∘ f)) ∧
      Settled game db t (onBoard (insertLockTeams (rankedRows (f s.committed).board g)) ∘ f)
        (s.write t [] (onBoard (insertLockTeams (rankedRows (f s.committed).board g)) ∘ f)) := by
  have hother : ∀ g' ≠ g, ∀ board,
      (insertLockTeams (rankedRows (f s.committed).board g) board).leaderboardLock g' =
          board.leaderboardLock g' ∧
        frozen (insertLockTeams (rankedRows (f s.committed).board g) board) g' ⊆ frozen board g' := by
    intro g' hne board
    rw [frozen_insertLockTeams, filter_rankedRows hne, List.append_nil]
    exact ⟨rfl, List.Subset.refl _⟩
  refine ⟨h.drafted.onBoard (Store.write_held h.held) (fun _ => rfl) hother, ?_⟩
  by_cases hg : g = game
  · obtain ⟨held, opened, locked, hfrozen⟩ := h.inserted hg
    subst hg
    refine .locked s.committed (Store.write_held held) opened hmem opened locked fun d => ?_
    show frozen (insertLockTeams (rankedRows (f s.committed).board g) (f d).board) g ⊆ _
    rw [frozen_insertLockTeams, h.drafted.ranks]
    exact List.append_subset.mpr
      ⟨List.subset_append_of_subset_left _ (hfrozen d),
        List.subset_append_of_subset_right _ (List.filter_subset_self _)⟩
  · exact .kept ((h.keeps hg).onBoard (hother game (Ne.symm hg)))

/-- The deletion of a lock, with its teams. -/
lemma Settled.of_delete (h : Drafted game t f s) (hkeeps : Keeps game f) :
    Drafted game t (onBoard (Release.unlockLeaderboard · g) ∘ f)
        (s.write t [.leaderboardLock g] (onBoard (Release.unlockLeaderboard · g) ∘ f)) ∧
      Settled game db t (onBoard (Release.unlockLeaderboard · g) ∘ f)
        (s.write t [.leaderboardLock g] (onBoard (Release.unlockLeaderboard · g) ∘ f)) := by
  have hother : ∀ g' ≠ g, ∀ board,
      (Release.unlockLeaderboard board g).leaderboardLock g' = board.leaderboardLock g' ∧
        frozen (Release.unlockLeaderboard board g) g' ⊆ frozen board g' := by
    refine fun g' hne board => ⟨Function.update_of_ne hne _ _, ?_⟩
    exact (List.filter_sublist.filter _).subset
  refine ⟨h.onBoard (Store.write_holder (List.mem_singleton_self _)) (fun _ => rfl) hother, ?_⟩
  by_cases hg : g = game
  · subst hg
    refine .opened (fun d => ?_) fun d => ?_
    · show (Function.update (f d).board.leaderboardLock g none g).isSome = false
      rw [Function.update_self]
      rfl
    · show ((f d).board.leaderboardLockTeam.filter (·.gameId ≠ g)).filter (·.gameId = g) = []
      rw [List.filter_filter, List.filter_eq_nil_iff]
      intro r _
      simp
  · exact .kept (hkeeps.onBoard (hother game (Ne.symm hg)))

lemma lasting_closed : Lasting t fun f s => Drafted game t f s ∧ Settled game db t f s :=
  lasting_drafted.and lasting_settled

lemma lasting_untouched : Lasting t fun f s => Drafted game t f s ∧ Keeps game f :=
  lasting_drafted.and lasting_keeps

/-- **A lock**, of any game: where it inserts the lock's row, it freezes the ranking of what is
committed then. -/
lemma lockLeaderboardConn_triple {lockedAt : ℤ} :
    TxTriple game db ok t (fun f s => Drafted game t f s ∧ Keeps game f)
      (lockLeaderboardConn t g lockedAt) fun f s => Drafted game t f s ∧ Settled game db t f s := by
  let B : Bool → (FeatureDb → FeatureDb) → Site → Prop := fun inserted f s =>
    if inserted then LockInserted game g t f s else Drafted game t f s ∧ Keeps game f
  have hB : ∀ inserted f, Stable (Others guards t) (B inserted f) := by
    rintro (_ | _) f
    · exact lasting_untouched.stable f
    · exact stable_lockInserted
  refine CallTriple.bind (B := fun inserted => InTx t (B inserted)) (query_triple
    lasting_untouched.stable hB fun s f b e ⟨hdrafted, hkeeps⟩ _ hstmt => ?_) fun inserted => ?_
  · split at hstmt
    · obtain ⟨rfl, rfl⟩ := Prod.mk.inj (Except.ok.inj hstmt)
      exact lasting_untouched.write s f id _ ⟨hdrafted, hkeeps⟩ fun _ => rfl
    · rename_i hopen
      obtain ⟨rfl, rfl⟩ := Prod.mk.inj (Except.ok.inj hstmt)
      exact .of_keeps hdrafted hkeeps (Bool.eq_false_iff.mpr hopen)
  · cases inserted with
    | false =>
      exact .pure (stable_inTx (hB false)) fun s ⟨f, hf, hdrafted, hkeeps⟩ =>
        ⟨f, hf, hdrafted, .kept hkeeps⟩
    | true =>
      refine query_triple (hB true) (fun _ => lasting_closed.stable) fun s f b e h hinv hstmt => ?_
      obtain ⟨-, rfl⟩ := Prod.mk.inj (Except.ok.inj hstmt)
      exact LockInserted.settled h hinv.mem

/-- What a change of the leaderboard does to the board. -/
lemma changeBoard_triple {change : FeatureChangeData} {effectiveAt : ℤ} :
    TxTriple game db ok t (fun f s => Drafted game t f s ∧ Keeps game f)
      (changeBoard t g change effectiveAt) fun f s => Drafted game t f s ∧ Settled game db t f s := by
  unfold changeBoard
  split
  · exact lockLeaderboardConn_triple
  · refine query_triple lasting_untouched.stable (fun _ => lasting_closed.stable)
      fun s f b e ⟨hdrafted, hkeeps⟩ _ hstmt => ?_
    obtain ⟨-, rfl⟩ := Prod.mk.inj (Except.ok.inj hstmt)
    exact Settled.of_delete hdrafted hkeeps
  · exact .throw
  · exact .pure (stable_inTx lasting_untouched.stable) fun s ⟨f, hf, hdrafted, hkeeps⟩ =>
      ⟨f, hf, hdrafted, .kept hkeeps⟩

/-- A change of another feature leaves the board alone. -/
lemma changeBoard_other_triple {P : (FeatureDb → FeatureDb) → Site → Prop} (hP : Lasting t P)
    {change : FeatureChangeData} {effectiveAt : ℤ} (h : change.feature ≠ .leaderboard) :
    TxTriple game db ok t P (changeBoard t g change effectiveAt) P := by
  unfold changeBoard
  split
  · exact absurd ‹_› h
  · exact absurd ‹_› h
  · exact absurd ‹_› h
  · exact .pure (stable_inTx hP.stable) fun _ h => h

/-! ## The transactions -/

/-- What a transaction has done to the lock of the game before the changes `rows`: one more change of
the leaderboard finds it left alone. -/
def Ahead (game : Id) (db : FeatureDb) (t : Tid) (rows : List FeatureChangeRow)
    (f : FeatureDb → FeatureDb) (s : Site) : Prop :=
  (Drafted game t f s ∧ Settled game db t f s) ∧
    (GameFeature.leaderboard.value ∈ rows.map (·.featureType) → Keeps game f)

lemma lasting_ahead {rows : List FeatureChangeRow} : Lasting t (Ahead game db t rows) :=
  lasting_closed.and (lasting_keeps.imp _)

/-- The changes of a phase, by induction on them. -/
lemma applyRows_triple {phase : Id} {effectiveAt : ℤ} {rows : List FeatureChangeRow}
    (hrows : (rows.map (·.featureType)).Nodup) :
    TxTriple game db ok t (Ahead game db t rows) (applyRows t g phase effectiveAt rows)
      fun f s => Drafted game t f s ∧ Settled game db t f s := by
  induction rows with
  | nil => exact .pure (stable_inTx lasting_ahead.stable) fun s ⟨f, hf, h, _⟩ => ⟨f, hf, h⟩
  | cons row rows ih =>
    obtain ⟨hnew, hrows⟩ := List.nodup_cons.mp hrows
    refine CallTriple.bind (B := fun _ => InTx t (Ahead game db t rows)) ?_ fun changed =>
      (ih hrows).bind fun _ => .pure (stable_inTx lasting_closed.stable) fun _ h => h
    unfold applyRow
    split
    · exact .throw
    · rename_i feature hfeature
      have hvalue := GameFeature.value_of_fromValue hfeature
      split
      · exact .throw
      · by_cases hboard : feature = .leaderboard
        · subst hboard
          have hlast : ∀ f s, (Drafted game t f s ∧ Settled game db t f s) →
              Ahead game db t rows f s := fun f s h =>
            ⟨h, fun hmem => absurd (show row.featureType ∈ _ from hvalue ▸ hmem) hnew⟩
          refine CallTriple.weaken (setStateConn_triple lasting_untouched lasting_ahead
            (fun f s h => hlast f s ⟨h.1, .kept h.2⟩) (changeBoard_triple.post fun _ s h => ?_))
            fun s ⟨f, hf, h, hkeeps⟩ => ⟨f, hf, h.1, hkeeps ?_⟩
          · obtain ⟨f, hf, h⟩ := h
            exact ⟨f, hf, hlast f s h⟩
          · rw [List.map_cons, hvalue]
            exact List.mem_cons_self
        · refine CallTriple.weaken (setStateConn_triple lasting_ahead lasting_ahead
            (fun _ _ h => h) (changeBoard_other_triple lasting_ahead hboard))
            fun s ⟨f, hf, h, hkeeps⟩ => ⟨f, hf, h, fun hmem => hkeeps (List.mem_cons_of_mem _ hmem)⟩

/-- **A commit keeps the invariant**: it shows no frozen teams but those the board had, or those that
were ranked while it was open. -/
lemma Sealed.commit {d : FeatureDb} {s : Site} (h : Sealed game db s.committed s.history)
    (hdraft : Settled game db t f s) (hd : d = f s.committed) :
    Sealed game db d (s.history ++ [d]) := by
  have hsub : db :: s.history ⊆ db :: (s.history ++ [d]) :=
    List.cons_subset_cons _ (List.subset_append_left _ _)
  have hmem : d ∈ db :: (s.history ++ [d]) :=
    List.mem_cons_of_mem _ (List.mem_append_right _ List.mem_cons_self)
  subst hd
  cases hdraft with
  | kept hkeeps =>
    obtain ⟨hlock, hfrozen⟩ := hkeeps s.committed
    have hsame : isLocked (f s.committed).board game = isLocked s.committed.board game :=
      congrArg Option.isSome hlock
    refine ⟨hmem, fun hdb hopen => ?_, fun hdb hlocked => ?_⟩
    · have hnil := h.opened hdb (hsame.symm.trans hopen)
      exact List.subset_nil.mp (hnil ▸ hfrozen)
    · obtain ⟨d₀, hd₀, hopen, hranked⟩ := h.locked hdb (hsame.symm.trans hlocked)
      exact ⟨d₀, hsub hd₀, hopen, fun r hr => hranked r (hfrozen hr)⟩
  | locked d₀ held opened mem opened₀ locked hfrozen =>
    refine ⟨hmem, fun _ hopen => absurd (locked s.committed) (Bool.eq_false_iff.mp hopen),
      fun hdb _ => ⟨d₀, hsub mem, opened₀, fun r hr => ?_⟩⟩
    have hr := hfrozen s.committed hr
    rwa [h.opened hdb opened, List.nil_append] at hr
  | opened hopened hfrozen =>
    exact ⟨hmem, fun _ _ => hfrozen s.committed,
      fun _ hlocked => absurd hlocked (Bool.eq_false_iff.mp (hopened s.committed))⟩

/-- A transaction of changes of features. -/
lemma changes_triple {α : Type} {body : Call (Bool × α)}
    (h : TxTriple game db ok t (fun f s => Drafted game t f s ∧ Keeps game f) body
      fun f s => Drafted game t f s ∧ Settled game db t f s) :
    CallTriple guards (Sealed game db) ok t (NoTx t) (transaction t .stmt body) fun _ _ => True := by
  refine transaction_triple (B := fun _ f s => Drafted game t f s ∧ Settled game db t f s)
    (h.weaken fun s ⟨f, hf, hid⟩ => ⟨f, hf, ?_⟩) (fun _ => lasting_closed.stable)
    fun s f a ⟨hdrafted, hsettled⟩ hinv => ⟨fun k hk => hdrafted.guarded k hk _,
      hinv.commit hsettled rfl⟩
  subst hid
  exact ⟨⟨fun _ => rfl, fun k _ d => guards.refl k d⟩, fun d => guards.refl _ d⟩

lemma setManualState_triple {change : FeatureChangeData} {actor : Id} {effectiveAt : ℤ} :
    CallTriple guards (Sealed game db) ok t (NoTx t)
      (setManualState t g change actor effectiveAt) fun _ _ => True := by
  unfold setManualState
  split
  · refine changes_triple ((select_triple lasting_untouched).bind fun found => ?_)
    split
    · exact (setStateConn_triple lasting_untouched lasting_closed (fun f s h => ⟨h.1, .kept h.2⟩)
        changeBoard_triple).bind fun _ => .pure (stable_inTx lasting_closed.stable) fun _ h => h
    · exact .pure (stable_inTx lasting_untouched.stable) fun s ⟨f, hf, h⟩ =>
        ⟨f, hf, h.1, .kept h.2⟩
  · exact .pure stable_noTx fun _ _ => trivial

lemma applyPhaseChanges_triple {phase : Id} {effectiveAt : ℤ} {changes : PhaseChanges} :
    CallTriple guards (Sealed game db) ok t (NoTx t)
      (applyPhaseChanges t g phase effectiveAt changes) fun _ _ => True := by
  refine changes_triple (CallTriple.bind (CallTriple.weaken (applyRows_triple changes.nodup)
    fun s ⟨f, hf, h⟩ => ⟨f, hf, ⟨h.1, .kept h.2⟩, fun _ => h.2⟩) fun _ =>
      .pure (stable_inTx lasting_closed.stable) fun _ h => h)

/-- Another transaction changes no lock. -/
lemma update_triple {edits : List TeamEdit} :
    CallTriple guards (Sealed game db) ok t (NoTx t) (update t edits) fun _ _ => True := by
  let A : (FeatureDb → FeatureDb) → Site → Prop := fun f _ => ∀ g, Keeps g f
  have hA : ∀ f, Stable (Others guards t) (A f) := fun f => Stable.const _
  have hedits : TxTriple game db ok t A (runEdits t edits) A := by
    induction edits with
    | nil => exact .pure (stable_inTx hA) fun _ h => h
    | cons edit edits ih =>
      refine CallTriple.bind (B := fun _ => InTx t A)
        (query_triple hA (fun _ => hA) fun s f b e h _ hstmt g => ?_) fun _ => ih
      obtain ⟨-, rfl⟩ := Prod.mk.inj (Except.ok.inj hstmt)
      refine (h g).onBoard fun board => ⟨congrFun (edit.lock board) g, fun r hr => ?_⟩
      obtain ⟨hmem, hgame⟩ := List.mem_filter.mp hr
      exact List.mem_filter.mpr ⟨edit.teams board hmem, hgame⟩
  refine transaction_triple (B := fun _ => A) (CallTriple.weaken (hedits.bind fun _ =>
    .pure (stable_inTx hA) fun _ h => h) fun s ⟨f, hf, hid⟩ => ⟨f, hf, fun g => ?_⟩)
    (fun _ => hA) fun s f a h hinv =>
      ⟨fun k _ => ?_, hinv.commit (Settled.kept (t := t) (h game)) rfl⟩
  · subst hid
    exact fun d => guards.refl _ d
  · cases k with
    | leaderboardLock g => exact h g _
    | feature g featureType => trivial

/-! ## Building a snapshot -/

/-- What holds in `s` of a state committed since `s₀`. -/
structure Moment (game : Id) (db : FeatureDb) (s₀ : Site) (d : FeatureDb) (s : Site) : Prop where
  later : Later s₀ s
  mem : d ∈ s₀.since s
  locked : IsOpen db.board game → isLocked d.board game = true →
    ∃ d₀ ∈ db :: s.history, isLocked d₀.board game = false ∧
      ∀ r ∈ frozen d.board game, r ∈ rankedRows d₀.board game

lemma stable_moment {s₀ : Site} {d : FeatureDb} :
    Stable (Others guards t) (Moment game db s₀ d) := by
  intro s s' h hr
  refine ⟨h.later.trans hr.later, h.later.since_subset hr.later h.mem, fun hdb hlocked => ?_⟩
  obtain ⟨d₀, hd₀, hopen, hranked⟩ := h.locked hdb hlocked
  exact ⟨d₀, hr.later.cons_subset db hd₀, hopen, hranked⟩

/-- `fetch_teams` reads the teams of one moment. -/
lemma fetchTeams_triple {s₀ : Site} :
    CallTriple guards (Sealed game db) (Steady t) t (fun s => Later s₀ s) (fetchTeams game)
      fun data s => ∃ d, Moment game db s₀ d s ∧ data.2 = lockedAt d.board game ∧
        ∃ members, data.1 = joinMembers (teamRows d.board game (isLocked d.board game)) members := by
  have hlater : Stable (Others guards t) fun s : Site => Later s₀ s :=
    fun _ _ h hr => h.trans hr.later
  have hteams : ∀ teams : List LeaderBoardTeamRow × Option ℤ, Stable (Others guards t) fun s =>
      ∃ d, Moment game db s₀ d s ∧ teams.2 = lockedAt d.board game ∧
        teams.1 = teamRows d.board game (isLocked d.board game) :=
    fun teams => Stable.exists fun d => stable_moment.and (Stable.const _)
  refine (read_triple (B := fun _ s => Later s₀ s) hlater (fun _ => hlater)
    fun _ h _ _ => h).bind fun locked => ?_
  refine (read_triple (B := fun teams s => ∃ d, Moment game db s₀ d s ∧
    teams.2 = lockedAt d.board game ∧ teams.1 = teamRows d.board game (isLocked d.board game))
    hlater hteams fun s h hsteady hinv => ?_).bind fun teams => ?_
  · -- the board is locked or open as the first read found it
    have hlocked : isLocked s.committed.board game = locked := hsteady
    exact ⟨s.committed, ⟨h, h.mem_since, hinv.locked⟩, rfl, by rw [hlocked]⟩
  refine (read_triple (hteams teams) (fun _ => hteams teams) fun _ h _ _ => h).bind fun members => ?_
  refine .pure (hteams teams) fun s ⟨d, hd, hseen, hrows⟩ => ⟨d, hd, hseen, members, ?_⟩
  rw [hrows]

/-- **`build_snapshot`** gives what the tables held at one moment. -/
lemma buildSnapshot_triple {s₀ : Site} {version : ℤ} :
    CallTriple guards (Sealed game db) (Steady t) t (fun s => Later s₀ s)
      (buildSnapshot game version) fun snapshot s => ∃ d, Moment game db s₀ d s ∧
        ∃ members, snapshot = assemble
          (joinMembers (teamRows d.board game (isLocked d.board game)) members)
          (lockedAt d.board game) version := by
  refine fetchTeams_triple.bind fun data => ?_
  refine CallTriple.bind (B := fun lockedAt s => ∃ d, Moment game db s₀ d s ∧
    lockedAt = Leaderboard.lockedAt d.board game ∧
      ∃ members, data.1 = joinMembers (teamRows d.board game (isLocked d.board game)) members)
    (read_triple (Stable.exists fun d => stable_moment.and (Stable.const _))
      (fun _ => Stable.exists fun d => stable_moment.and (Stable.const _)) ?_) fun lockedAt => ?_
  · rintro s ⟨d, hd, hseen, hdata⟩ hsteady -
    -- the lock is the one there was when the teams were read
    have hsame : Leaderboard.lockedAt s.committed.board game = data.2 := hsteady
    exact ⟨d, hd, hsame.trans hseen, hdata⟩
  · refine .pure (Stable.exists fun d => stable_moment.and (Stable.const _)) ?_
    rintro s ⟨d, hd, rfl, members, hdata⟩
    exact ⟨d, hd, members, by rw [hdata]⟩

/-- Every request keeps the invariant. -/
lemma request_triple (request : Request) :
    CallTriple guards (Sealed game db) ok t (NoTx t) (request.run t) fun _ _ => True := by
  have htrue : ∀ {α : Type} (_ : α), Stable (Others guards t) fun _ : Site => True :=
    fun _ => Stable.const True
  cases request with
  | buildSnapshot g version =>
    have hread : ∀ {α : Type} {l : Label} {f : FeatureDb → α},
        CallTriple guards (Sealed game db) ok t (fun _ => True) (read l f) fun _ _ => True :=
      read_triple (htrue ()) htrue fun _ _ _ _ => trivial
    refine CallTriple.weaken (A := fun _ => True) (CallTriple.bind (B := fun _ _ => True)
      (CallTriple.bind (B := fun _ _ => True) ?_ fun _ => hread.bind fun _ =>
        .pure (htrue ()) fun _ h => h) fun _ => .pure (htrue ()) fun _ h => h) fun _ _ => trivial
    exact hread.bind fun _ => hread.bind fun _ => hread.bind fun _ => .pure (htrue ()) fun _ h => h
  | setManualState g change actor effectiveAt =>
    exact setManualState_triple.bind fun _ => .pure (htrue ()) fun _ h => h
  | applyPhaseChanges g phase effectiveAt changes =>
    exact applyPhaseChanges_triple.bind fun _ => .pure (htrue ()) fun _ h => h
  | update edits => exact update_triple.bind fun _ => .pure (htrue ()) fun _ h => h

end Board

/-! ## Every interleaving -/

/-- **A snapshot is of one moment**, in every interleaving in which each of its reads finds the lock
as the one before has found it, and a board that is labelled locked shows no solve made after the
lock. -/
theorem buildSnapshot_consistent {requests : Tid → Request} {db : FeatureDb} {t : Tid} {game : Id}
    {version : ℤ} {snapshot : LeaderBoardSnapshot}
    {c c' : Concurrency.Config Label Site (Except String Reply)}
    (h : Built Steady requests db t game version snapshot c c') :
    IsConsistent db game snapshot (site requests db).shared c.shared c'.shared := by
  have hsealed : Sealed game db db [] :=
    ⟨List.mem_cons_self, fun hdb _ => hdb.2, fun hdb hlocked => by
      rw [isLocked, hdb.1] at hlocked
      cases hlocked⟩
  have hgood := good_of_reaches (G := guards) (fun t => request_triple (t := t) (requests t)) hsealed
    h.before
  have hcall : CallTriple guards (Sealed game db) (Steady t) t (fun s => Later c.shared s)
      ((requests t).run t) fun reply s => ∃ d, Moment game db c.shared d s ∧
        ∃ members, reply = .snapshot (assemble
          (joinMembers (teamRows d.board game (isLocked d.board game)) members)
          (lockedAt d.board game) version) := by
    rw [h.request]
    refine buildSnapshot_triple.bind fun s => ?_
    refine .pure (Stable.exists fun d => stable_moment.and (Stable.const _)) ?_
    rintro s ⟨d, hd, members, rfl⟩
    exact ⟨d, hd, members, rfl⟩
  obtain ⟨d, hd, members, hsnapshot⟩ :=
    returns_of_reaches hgood hcall h.begun (.refl _) h.run h.returned
  obtain rfl := Reply.snapshot.inj hsnapshot
  refine ⟨⟨d, hd.mem, shows_assemble⟩, fun hdb k hk => ?_⟩
  have hlock : lockedAt d.board game = some k := hk
  have hlocked : isLocked d.board game = true := by
    rw [isLocked, show d.board.leaderboardLock game = some k from hlock]
    rfl
  obtain ⟨d₀, hd₀, hopen, hranked⟩ := hd.locked hdb hlocked
  refine ⟨d₀, hd₀, ?_⟩
  rw [hlocked, hlock]
  exact rankedAt_of_frozen hopen hranked

/-- A schedule after which the session has returned a snapshot that meets `q`. -/
lemma exists_built (ok : Tid → Label → Site → Prop) [∀ t l s, Decidable (ok t l s)]
    (requests : Tid → Request) (db : FeatureDb) (t : Tid) {game : Id} {version : ℤ}
    (hrequest : requests t = .buildSnapshot game version) (schedule : List Tid)
    (q : LeaderBoardSnapshot → Site → Bool)
    (h : (exec ok (site requests db) (schedule.map .thread)).any (fun c =>
      match (c.threads t).result? with
      | some (.ok (.snapshot s)) => q s c.shared
      | _ => false) = true) :
    ∃ s c', Built ok requests db t game version s (site requests db) c' ∧ q s c'.shared = true := by
  obtain ⟨c', hrun, hq⟩ := exists_reaches_of_exec Still ok _ (by simp) h
  split at hq
  · rename_i s hresult
    exact ⟨s, c', ⟨hrequest, .refl, rfl, hrun, Prog.eq_ret_of_result? hresult⟩, hq⟩
  · cases hq

/-- Two teams, of which the second has solved the puzzle. -/
def openDb : FeatureDb where
  games := [1]
  features := fun _ _ => some ⟨0, none, 0⟩
  history := []
  board := {
    team := [⟨1, 1, "North", "", some 0, none, false⟩, ⟨2, 1, "South", "", some 0, none, false⟩]
    teamPuzzle := [⟨1, 5, 0, none⟩, ⟨2, 5, 1, some 3⟩]
    teamFeature := []
    leaderboardLock := fun _ => none
    leaderboardLockTeam := []
    teamMember := []
    nickname := fun _ => none }
  currencies := []
  teamCurrencies := []

/-- A snapshot is built while the board is locked and the first team solves the puzzle after. -/
def lateSolve : Tid → Request
  | 0 => .buildSnapshot 1 7
  | 1 => .setManualState 1 ⟨.leaderboard, .locked⟩ 9 10
  | 2 => .update [solve 1 5 11]
  | _ => .update []

/-- A snapshot that is built after the lock and the solve. -/
theorem buildSnapshot_consistent_locked : ∃ s c', Built Steady lateSolve openDb 0 1 7 s
      (site lateSolve openDb) c' ∧ s.lockedAt = some 10 ∧
    IsConsistent openDb 1 s (site lateSolve openDb).shared (site lateSolve openDb).shared
      c'.shared := by
  obtain ⟨s, c', hbuilt, hlocked⟩ := exists_built Steady lateSolve openDb 0 rfl
    (List.replicate 8 1 ++ List.replicate 3 2 ++ List.replicate 4 0)
    (fun s _ => decide (s.lockedAt = some 10)) (by decide +kernel)
  exact ⟨s, c', hbuilt, of_decide_eq_true hlocked, buildSnapshot_consistent hbuilt⟩

/-- **A lock that is committed between the reads** puts its time on a board that shows a solve made
after it: the first read finds the board open, and the teams are read after the lock and the
solve. -/
theorem buildSnapshot_torn : ¬ ∀ (requests : Tid → Request) (db : FeatureDb) (t : Tid) (game : Id)
    (version : ℤ) (snapshot : LeaderBoardSnapshot)
    (c c' : Concurrency.Config Label Site (Except String Reply)),
    Built Always requests db t game version snapshot c c' →
      IsConsistent db game snapshot (site requests db).shared c.shared c'.shared := by
  intro hall
  obtain ⟨s, c', hbuilt, hq⟩ := exists_built Always lateSolve openDb 0 rfl
    ([0] ++ List.replicate 8 1 ++ List.replicate 3 2 ++ List.replicate 3 0)
    (fun s site' => decide (s.lockedAt = some 10) &&
      ((site lateSolve openDb).shared.since site').all fun d =>
        decide ((s.teams 1).map rowOf ≠ (teamRows d.board 1 true).reverse.find? (·.id = 1)))
    (by decide +kernel)
  obtain ⟨hlocked, hnone⟩ := (Bool.and_eq_true _ _).mp hq
  obtain ⟨⟨d, hd, hshows⟩, -⟩ := hall _ _ _ _ _ _ _ _ hbuilt
  have hteam := hshows.teams 1
  rw [of_decide_eq_true hlocked] at hteam
  exact of_decide_eq_true (List.all_eq_true.mp hnone d hd) hteam

end BoardLock
