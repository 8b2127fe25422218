import RbphBackend.Concurrency.Within
import RbphBackend.Leaderboard.Rounds

set_option relaxedAutoImplicit false
set_option autoImplicit false

/-!
# Dirty teams

A change of a team's score is announced by `mark_team_dirty`, an upsert of the team's row of
`rb_leaderboard_dirty_team`. The row takes its revision from a sequence, and a revision may be
drawn long before it is committed. `refresh_game` deletes the rows up to the largest revision that
it found committed before it read the board.

## Main definitions

* `Leaderboard.MarkedBoard` — the board with the sequence and the rows that upserts have locked.
* `Leaderboard.markTeamDirty` — the statement, step by step.
* `Leaderboard.MarkInv` — the invariant of the marks.
-/

namespace Leaderboard

open Concurrency

/-! ## The state -/

/-- A mark that has been committed. -/
structure Mark where
  gameId : Id
  teamId : Id
  revision : ℤ
  deriving DecidableEq

/-- The board, the last value drawn from `rb_leaderboard_dirty_revision_seq`, and the threads whose
upsert has locked the row of a game's team. `announced` and `marks` are only written: how much had
happened when the mark that drew a revision was issued, and the marks in the order of their
commits. -/
structure MarkedBoard where
  board : Board
  seq : ℤ
  rowLock : Id → Id → Option Tid
  announced : ℤ → ℕ
  marks : List Mark

namespace MarkedBoard

/-- The team has a dirty row. -/
def isDirty (game team : Id) (d : MarkedBoard) : Prop :=
  ∃ dt ∈ d.board.dirtyTeams, dt.gameId = game ∧ dt.teamId = team

/-- Lock or free the row of a game's team. -/
def setRowLock (game team : Id) (holder : Option Tid) (d : MarkedBoard) : MarkedBoard :=
  { d with
    rowLock := Function.update d.rowLock game (Function.update (d.rowLock game) team holder) }

/-- Write the row, and insert the row of the game's state if it has none. -/
def upsert (row : DirtyTeam) (d : MarkedBoard) : MarkedBoard :=
  { d with
    board := { d.board with
      refreshState := Function.update d.board.refreshState row.gameId
        (some ((d.board.refreshState row.gameId).getD ⟨0, true⟩))
      dirtyTeams :=
        (d.board.dirtyTeams.filter fun dt => ¬(dt.gameId = row.gameId ∧ dt.teamId = row.teamId)) ++
          [row] }
    marks := d.marks ++ [⟨row.gameId, row.teamId, row.revision⟩] }

end MarkedBoard

/-- The board is a part of the state; a row that an upsert has locked is not deleted before that
upsert has ended. -/
def boardPart : Part MarkedBoard Board where
  get d := d.board
  set b d := { d with board := b }
  free d b := d.board.dirtyTeams.all fun dt =>
    d.rowLock dt.gameId dt.teamId = none || dt ∈ b.dirtyTeams

/-! ## The calls -/

/-- The program of a call. -/
abbrev Marking (α : Type) := Fallible Label MarkedBoard α

/-- One step of a statement. -/
def markStep {α : Type} (f : MarkedBoard → Option (Except String α × MarkedBoard)) : Marking α :=
  ExceptT.mk (.atomic .sql f)

section Calls

variable (t : Tid) (game team : Id)

/-- `target`, in the statement's snapshot. How much has happened by then comes along. -/
def target : Marking (Option Id × ℕ) :=
  markStep fun d =>
    some (.ok ((d.board.tables.team.find? (·.id = team)).map (·.gameId), d.board.history.length), d)

def nextval (issued : ℕ) : Marking ℤ :=
  markStep fun d =>
    some (.ok (d.seq + 1),
      { d with
        seq := d.seq + 1
        announced := Function.update d.announced (d.seq + 1) issued })

/-- The search for a conflict waits for an upsert of the same row, and locks the row. -/
def lockRow : Marking (Option DirtyTeam) :=
  markStep fun d =>
    if d.rowLock game team = none then
      some (.ok (d.board.dirtyTeams.find? fun dt => dt.gameId = game ∧ dt.teamId = team),
        d.setRowLock game team (some t))
    else none

/-- The end of the statement, which is its commit. -/
def commitRow (row : DirtyTeam) : Marking Unit :=
  markStep fun d =>
    if row.gameId ∈ d.board.games then
      some (.ok (), (d.upsert row).setRowLock row.gameId row.teamId none)
    else
      some (.error "rb_leaderboard_refresh_state_game_id_fkey",
        d.setRowLock row.gameId row.teamId none)

/-- The column's default is drawn whether or not there is a conflict; a conflict draws again. -/
def markTeamDirty (affectsOrder : Bool) : Marking Unit := do
  let (target, issued) ← target team
  match target with
  | none => return ()
  | some game =>
    let revision ← nextval issued
    match ← lockRow t game team with
    | none => commitRow ⟨game, team, revision, affectsOrder⟩
    | some dt =>
      let revision ← nextval issued
      commitRow ⟨game, team, revision, dt.affectsOrder || affectsOrder⟩

end Calls

/-- A mark, or a call on the board. -/
inductive DirtyRequest where
  | markTeamDirty (team : Id) (affectsOrder : Bool)
  | call (req : Request)

/-- The program of a request. -/
def DirtyRequest.run (t : Tid) : DirtyRequest → Marking Unit
  | .markTeamDirty team affectsOrder => Leaderboard.markTeamDirty t team affectsOrder
  | .call req => Fallible.within boardPart (req.run t)

/-- What changes by itself. -/
inductive MarkedChanges (d : MarkedBoard) : MarkedBoard → Prop where
  | board {b : Board} (h : Changes d.board b) : MarkedChanges d { d with board := b }

/-! ## What marks promise -/

/-- The versions published for a game, in order. -/
def publishedVersions (game : Id) (l : List Event) : List ℤ :=
  (l.filterMap (Event.publication game)).map fun p => p.2.version

/-- The last mark of the team to be committed. -/
def lastMark (game team : Id) (marks : List Mark) : Option Mark :=
  lastSome (fun m => if m.gameId = game ∧ m.teamId = team then some m else none) marks

/-- A snapshot published by round `t` that was read after the first `n` events. -/
def Met (db : Tables) (t : Tid) (game : Id) (n : ℕ) (l : List Event) : Prop :=
  ∃ s, .published t game s ∈ l ∧ BuiltAfter db game (l.take n) l s

/-- The invariant of the marks. -/
structure MarkInv (db : Tables) (d : MarkedBoard) : Prop where
  tables : d.board.tables = tablesAt db d.board.history
  announced : ∀ r ≤ d.seq, d.announced r ≤ d.board.history.length
  rows : ∀ dt ∈ d.board.dirtyTeams, dt.revision ≤ d.seq
  marks : ∀ m ∈ d.marks, m.revision ≤ d.seq
  last : ∀ dt ∈ d.board.dirtyTeams, ∀ m, lastMark dt.gameId dt.teamId d.marks = some m →
    m.revision = dt.revision
  increasing : ∀ game, (publishedVersions game d.board.history).Pairwise (· < ·)
  version : ∀ game, ∀ v ∈ publishedVersions game d.board.history,
    ∃ s, d.board.refreshState game = some s ∧ v ≤ s.nextVersion
  met : ∀ m ∈ d.marks, (∃ dt ∈ d.board.dirtyTeams, dt.gameId = m.gameId ∧ dt.teamId = m.teamId ∧
    m.revision ≤ dt.revision) ∨ ∃ t, Met db t m.gameId (d.announced m.revision) d.board.history

section Events

variable {db : Tables} {t : Tid} {game : Id} {l l' : List Event} {e : Event} {n : ℕ}

lemma publishedVersions_append : publishedVersions game (l ++ l') =
    publishedVersions game l ++ publishedVersions game l' := by
  simp [publishedVersions]

lemma publishedVersions_singleton (he : e.publication game = none) :
    publishedVersions game [e] = [] := by
  simp [publishedVersions, he]

lemma publication_of_ne (hpub : ∀ r s, e ≠ .published r game s) : e.publication game = none := by
  rw [Option.eq_none_iff_forall_not_mem]
  exact fun x hx => hpub _ _ (Event.publication_eq_some.mp hx)

/-- More events leave what a snapshot was read after. -/
lemma Met.append (h : Met db t game n l) (hn : n ≤ l.length) (l' : List Event) :
    Met db t game n (l ++ l') := by
  obtain ⟨s, hs, q, hq, q₂, q₃, q₄, h₁, h₂, h₃, h₄, heq⟩ := h
  refine ⟨s, List.mem_append_left _ hs, q, ?_, q₂, q₃, q₄, h₁, h₂, h₃,
    h₄.trans (List.prefix_append l l'), heq⟩
  rwa [List.take_append_of_le_length hn]

end Events

/-! ## What keeps the invariant -/

section Keep

variable {db : Tables} {d : MarkedBoard} {t : Tid} {game : Id}

/-- The versions of the games' states have not gone down. -/
def VersionsKept (b b' : Board) : Prop :=
  ∀ g s, b.refreshState g = some s → ∃ s', b'.refreshState g = some s' ∧
    s.nextVersion ≤ s'.nextVersion

lemma VersionsKept.of_eq {b b' : Board} (h : b'.refreshState = b.refreshState) :
    VersionsKept b b' := fun g s hs => ⟨s, by rw [h, hs], le_rfl⟩

/-- Events other than a publication. -/
lemma MarkInv.extend (h : MarkInv db d) {b : Board} (l : List Event)
    (hhist : b.history = d.board.history ++ l)
    (htables : b.tables = tablesAt db b.history) (hdirty : b.dirtyTeams = d.board.dirtyTeams)
    (hpub : ∀ e ∈ l, ∀ r g s, e ≠ .published r g s) (hversion : VersionsKept d.board b) :
    MarkInv db { d with board := b } := by
  have hnone : ∀ g, publishedVersions g l = [] := by
    intro g
    have hmap : l.filterMap (Event.publication g) = [] := by
      rw [List.filterMap_eq_nil_iff]
      exact fun e he => publication_of_ne fun r s => hpub e he r g s
    simp [publishedVersions, hmap]
  constructor
  case tables => exact htables
  case announced =>
    intro r hr
    have hle := h.announced r hr
    show d.announced r ≤ b.history.length
    rw [hhist, List.length_append]
    omega
  case rows => exact fun dt hdt => h.rows dt (hdirty ▸ hdt)
  case marks => exact h.marks
  case last => exact fun dt hdt => h.last dt (hdirty ▸ hdt)
  case increasing =>
    intro g
    show (publishedVersions g b.history).Pairwise _
    rw [hhist, publishedVersions_append, hnone g, List.append_nil]
    exact h.increasing g
  case version =>
    intro g v hv
    have hv' : v ∈ publishedVersions g d.board.history := by
      have hv₁ : v ∈ publishedVersions g b.history := hv
      rwa [hhist, publishedVersions_append, hnone g, List.append_nil] at hv₁
    obtain ⟨s, hs, hle⟩ := h.version g v hv'
    obtain ⟨s', hs', hle'⟩ := hversion g s hs
    exact ⟨s', hs', hle.trans hle'⟩
  case met =>
    intro m hm
    rcases h.met m hm with ⟨dt, hdt, hkey⟩ | ⟨r, hr⟩
    · exact .inl ⟨dt, (congrArg (dt ∈ ·) hdirty).mpr hdt, hkey⟩
    · refine .inr ⟨r, ?_⟩
      show Met db r m.gameId (d.announced m.revision) b.history
      rw [hhist]
      exact hr.append (h.announced _ (h.marks m hm)) l

/-- A round that holds the lock publishes a version above all that have been published. -/
lemma MarkInv.publish (h : MarkInv db d) {s : LeaderBoardSnapshot} {r : RefreshState}
    (hstate : d.board.refreshState game = some r) (hle : s.version ≤ r.nextVersion)
    (hlt : ∀ v ∈ publishedVersions game d.board.history, v < s.version) :
    MarkInv db { d with
      board := ({ d.board with latest := Function.update d.board.latest game (some s) } : Board).log
        (.published t game s) } := by
  have hversions : ∀ g, publishedVersions g (d.board.history ++ [Event.published t game s]) =
      publishedVersions g d.board.history ++ if game = g then [s.version] else [] := by
    intro g
    rw [publishedVersions_append]
    by_cases hg : game = g
    · simp [publishedVersions, Event.publication, hg]
    · simp [publishedVersions, Event.publication, hg]
  constructor
  case tables =>
    show d.board.tables = tablesAt db (d.board.history ++ [.published t game s])
    rw [h.tables, tablesAt, tablesAt]
    simp [Event.tables]
  case announced =>
    intro r hr
    have hle := h.announced r hr
    show d.announced r ≤ (d.board.history ++ [Event.published t game s]).length
    rw [List.length_append]
    omega
  case rows => exact h.rows
  case marks => exact h.marks
  case last => exact h.last
  case increasing =>
    intro g
    show (publishedVersions g (d.board.history ++ [Event.published t game s])).Pairwise _
    rw [hversions g]
    split
    · rename_i hg
      subst hg
      rw [List.pairwise_append]
      refine ⟨h.increasing game, List.pairwise_singleton _ _, fun v hv w hw => ?_⟩
      obtain rfl := List.mem_singleton.mp hw
      exact hlt v hv
    · rw [List.append_nil]
      exact h.increasing g
  case version =>
    intro g v hv
    have hv' : v ∈ publishedVersions g (d.board.history ++ [Event.published t game s]) := hv
    rw [hversions g, List.mem_append] at hv'
    rcases hv' with hv' | hv'
    · exact h.version g v hv'
    · by_cases hg : game = g
      · subst hg
        rw [if_pos rfl, List.mem_singleton] at hv'
        exact ⟨r, hstate, hv' ▸ hle⟩
      · simp [hg] at hv'
  case met =>
    intro m hm
    rcases h.met m hm with hrow | ⟨r, hr⟩
    · exact .inl hrow
    · exact .inr ⟨r, hr.append (h.announced _ (h.marks m hm)) _⟩

/-- The game's rows up to a revision are deleted, once a snapshot is published that was read after
all that the revisions announce. -/
lemma MarkInv.delete (h : MarkInv db d) {k : ℤ}
    (hmet : ∀ r ≤ k, Met db t game (d.announced r) d.board.history) :
    MarkInv db { d with
      board := { d.board with
        dirtyTeams :=
          (d.board.dirtyTeams.filter fun dt => ¬(dt.gameId = game ∧ dt.revision ≤ k)) } } := by
  refine ⟨h.tables, h.announced, fun dt hdt => h.rows dt (List.mem_of_mem_filter hdt), h.marks,
    fun dt hdt => h.last dt (List.mem_of_mem_filter hdt), h.increasing, h.version, fun m hm => ?_⟩
  rcases h.met m hm with ⟨dt, hdt, hgame, hteam, hle⟩ | hr
  · by_cases hgone : dt.gameId = game ∧ dt.revision ≤ k
    · refine .inr ⟨t, ?_⟩
      rw [← hgame, hgone.1]
      exact hmet m.revision (hle.trans hgone.2)
    · exact .inl ⟨dt, List.mem_filter.mpr ⟨hdt, decide_eq_true hgone⟩, hgame, hteam, hle⟩
  · exact .inr hr

/-- A revision is drawn for a mark that was issued before. -/
lemma MarkInv.nextval (h : MarkInv db d) {issued : ℕ} (hissued : issued ≤ d.board.history.length) :
    MarkInv db { d with
      seq := d.seq + 1
      announced := Function.update d.announced (d.seq + 1) issued } := by
  have hsame : ∀ r ≤ d.seq, Function.update d.announced (d.seq + 1) issued r = d.announced r :=
    fun r hr => Function.update_of_ne (by omega) _ _
  constructor
  case tables => exact h.tables
  case announced =>
    intro r hr
    show Function.update d.announced (d.seq + 1) issued r ≤ _
    by_cases hnew : r = d.seq + 1
    · rw [hnew, Function.update_self]
      exact hissued
    · have hr' : r ≤ d.seq + 1 := hr
      rw [hsame r (by omega)]
      exact h.announced r (by omega)
  case rows => exact fun dt hdt => (h.rows dt hdt).trans (Int.le_add_one le_rfl)
  case marks => exact fun m hm => (h.marks m hm).trans (Int.le_add_one le_rfl)
  case last => exact h.last
  case increasing => exact h.increasing
  case version => exact h.version
  case met =>
    intro m hm
    rcases h.met m hm with hrow | ⟨r, hr⟩
    · exact .inl hrow
    · refine .inr ⟨r, ?_⟩
      show Met db r m.gameId (Function.update d.announced (d.seq + 1) issued m.revision) _
      rw [hsame _ (h.marks m hm)]
      exact hr

/-- What the invariant does not speak of. -/
lemma MarkInv.setRowLock (h : MarkInv db d) (game team : Id) (holder : Option Tid) :
    MarkInv db (d.setRowLock game team holder) :=
  ⟨h.tables, h.announced, h.rows, h.marks, h.last, h.increasing, h.version, h.met⟩

lemma mem_upsert {d : MarkedBoard} {row dt : DirtyTeam} :
    dt ∈ (d.upsert row).board.dirtyTeams ↔ dt = row ∨ dt ∈ d.board.dirtyTeams ∧
      ¬(dt.gameId = row.gameId ∧ dt.teamId = row.teamId) := by
  simp only [MarkedBoard.upsert, List.mem_append, List.mem_filter, List.mem_singleton,
    decide_eq_true_eq]
  exact or_comm

lemma versionsKept_upsert (d : MarkedBoard) (row : DirtyTeam) :
    ∀ g s, d.board.refreshState g = some s → (d.upsert row).board.refreshState g = some s := by
  intro g s hs
  show Function.update d.board.refreshState row.gameId _ g = some s
  by_cases hg : g = row.gameId
  · subst hg
    rw [Function.update_self, hs]
    rfl
  · rw [Function.update_of_ne hg]
    exact hs

/-- **A mark is committed**: its revision is no older than that of the row it replaces. -/
lemma MarkInv.upsert (h : MarkInv db d) {row : DirtyTeam} (hseq : row.revision ≤ d.seq)
    (hnew : ∀ dt ∈ d.board.dirtyTeams, dt.gameId = row.gameId → dt.teamId = row.teamId →
      dt.revision ≤ row.revision) :
    MarkInv db (d.upsert row) := by
  constructor
  case tables => exact h.tables
  case announced => exact h.announced
  case rows =>
    intro dt hdt
    rcases mem_upsert.mp hdt with rfl | ⟨hdt, -⟩
    · exact hseq
    · exact h.rows dt hdt
  case marks =>
    intro m hm
    rcases List.mem_append.mp hm with hm | hm
    · exact h.marks m hm
    · rw [List.mem_singleton.mp hm]
      exact hseq
  case last =>
    intro dt hdt m hm
    have hm' : lastMark dt.gameId dt.teamId
        (d.marks ++ [⟨row.gameId, row.teamId, row.revision⟩]) = some m := hm
    rw [lastMark, lastSome_snoc] at hm'
    rcases mem_upsert.mp hdt with rfl | ⟨hdt, hkey⟩
    · simp only [and_self, if_true, Option.some_or, Option.some.injEq] at hm'
      rw [← hm']
    · rw [if_neg (fun hk => hkey ⟨hk.1.symm, hk.2.symm⟩), Option.none_or] at hm'
      exact h.last dt hdt m hm'
  case increasing => exact h.increasing
  case version =>
    intro g v hv
    obtain ⟨s, hs, hle⟩ := h.version g v hv
    exact ⟨s, versionsKept_upsert d row g s hs, hle⟩
  case met =>
    intro m hm
    have hrow : row ∈ (d.upsert row).board.dirtyTeams := mem_upsert.mpr (.inl rfl)
    rcases List.mem_append.mp hm with hm | hm
    · rcases h.met m hm with ⟨dt, hdt, hgame, hteam, hle⟩ | hr
      · by_cases hkey : dt.gameId = row.gameId ∧ dt.teamId = row.teamId
        · exact .inl ⟨row, hrow, hkey.1.symm.trans hgame, hkey.2.symm.trans hteam,
            hle.trans (hnew dt hdt hkey.1 hkey.2)⟩
        · exact .inl ⟨dt, mem_upsert.mpr (.inr ⟨hdt, hkey⟩), hgame, hteam, hle⟩
      · exact .inr hr
    · rw [List.mem_singleton.mp hm]
      exact .inl ⟨row, hrow, rfl, rfl, le_rfl⟩

end Keep

end Leaderboard
