import Mathlib.Algebra.Ring.Nat
import Mathlib.Logic.Relation
import RbphBackend.Leaderboard.Snapshot

set_option relaxedAutoImplicit false
set_option autoImplicit false

/-!
# Reading the board page by page

Snapshots are numbered. Each is kept under its version for some time, the latest one and one in each
process without a limit. A page is taken of the snapshot whose version the reader passes back; where
that one is gone, it is the first page of another one, and the reader is told to start over.

## Main definitions

* `Leaderboard.Pages.getInfo` — `get_info`, by what its reads have found.
* `Leaderboard.Pages.Server`, `Leaderboard.Pages.Step` — where snapshots are kept, and what the
  processes do with them.
* `Leaderboard.Pages.Call` — a call among the steps of others.
* `Leaderboard.Pages.Reader`, `Leaderboard.Pages.Reading` — a reader, and where its calls lead to.

## Main results

* `Leaderboard.Pages.sound_of_reading` — a version has one snapshot.
* `Leaderboard.Pages.reading_whole` — what a reader has read in the end.
-/

namespace Leaderboard.Pages

/-! ## The answer -/

structure LeaderBoardInfo where
  data : List LeaderBoardTeamInfo
  version : ℤ
  total : ℕ
  hasMore : Bool
  reset : Bool
  state : String
  lockedAt : Option ℤ

/-- A `usize` has 64 bits. -/
def usizeMax : ℕ := 18446744073709551615

section Answer

variable (snapshot : LeaderBoardSnapshot)

/-- The team of a place of the order, with its rank. -/
def rankTeam (place : Id × ℕ) : Option LeaderBoardTeamInfo :=
  (snapshot.teams place.1).map fun team => { team with rank := place.2 + 1 }

/-- The teams of a page. -/
def pageTeams (pageOffset limit : ℕ) : List LeaderBoardTeamInfo :=
  ((snapshot.order.zipIdx.drop pageOffset).take limit).filterMap (rankTeam snapshot)

def infoOf (reset : Bool) (offset limit : ℕ) : LeaderBoardInfo :=
  let pageOffset := if reset then 0 else offset
  { data := pageTeams snapshot pageOffset limit
    version := snapshot.version
    total := snapshot.order.length
    hasMore := min (pageOffset + limit) usizeMax < snapshot.order.length
    reset := reset
    state := if snapshot.lockedAt.isSome then "locked" else "live"
    lockedAt := snapshot.lockedAt }

/-- `get_info`, by what is found under the version and as the latest snapshot, by what a rebuild
gives and by what the process has. A read that is not made has no bearing. -/
def getInfo (byVersion latest rebuilt cached : Option LeaderBoardSnapshot)
    (prevVersion : Option ℤ) (offset limit : ℕ) : Option LeaderBoardInfo :=
  let paged := if 0 < offset then prevVersion.bind fun _ => byVersion else none
  let reset := paged.isNone ∧ 0 < offset
  let snapshot := ((paged.or latest).or rebuilt).or cached
  snapshot.bind fun snapshot =>
    if offset = 0 ∧ prevVersion = some snapshot.version then none
    else some (infoOf snapshot reset offset limit)

end Answer

/-! ## Where snapshots are kept -/

/-- A process. -/
abbrev Node := ℕ

/-- The keys of the tables that a board is read from, and the range of an `INT`. -/
structure Keyed (db : Tables) : Prop where
  team : (db.team.map (·.id)).Nodup
  range : ∀ t ∈ db.team, t.id < 2 ^ 31
  lockTeam : (db.leaderboardLockTeam.map fun row => (row.gameId, row.teamId)).Nodup

/-- The snapshots of a game: `issued` is the last number that `next_version` has given, `built` has
the snapshot that was built under each, and the others are where they are kept. -/
structure Server where
  issued : ℤ
  built : ℤ → Option LeaderBoardSnapshot
  snapshots : ℤ → Option LeaderBoardSnapshot
  latest : Option LeaderBoardSnapshot
  caches : Node → Option LeaderBoardSnapshot

/-- Nothing has been built. -/
def Server.empty : Server := ⟨0, fun _ => none, fun _ => none, none, fun _ => none⟩

/-- What a process does, or the passing of time: a number is given, and whoever has it builds one
snapshot, of four states of the tables; it is kept under its version, as the latest one or in a
process, at any time after; and it is lost again. -/
inductive Step (game : Id) : Server → Server → Prop
  | nextVersion {s : Server} : Step game s { s with issued := s.issued + 1 }
  | build {s : Server} {version : ℤ} {db₁ db₂ db₃ db₄ : Tables} : 0 < version →
      version ≤ s.issued → s.built version = none → Keyed db₂ →
      Step game s { s with built := Function.update s.built version
                             (some (snapshotOf game version db₁ db₂ db₃ db₄)) }
  | setSnapshot {s : Server} {version : ℤ} {snapshot : LeaderBoardSnapshot} :
      s.built version = some snapshot →
      Step game s { s with snapshots := Function.update s.snapshots version (some snapshot) }
  | setLatest {s : Server} {version : ℤ} {snapshot : LeaderBoardSnapshot} :
      s.built version = some snapshot → Step game s { s with latest := some snapshot }
  | expire {s : Server} (version : ℤ) :
      Step game s { s with snapshots := Function.update s.snapshots version none }
  | dropLatest {s : Server} : Step game s { s with latest := none }
  | cacheBuilt {s : Server} (node : Node) {version : ℤ} {snapshot : LeaderBoardSnapshot} :
      s.built version = some snapshot →
      Step game s { s with caches := Function.update s.caches node (some snapshot) }
  | cacheLatest {s : Server} (node : Node) {snapshot : LeaderBoardSnapshot} :
      s.latest = some snapshot →
      Step game s { s with caches := Function.update s.caches node (some snapshot) }
  | uncache {s : Server} (node : Node) :
      Step game s { s with caches := Function.update s.caches node none }

/-- Any number of steps. -/
abbrev Leads (game : Id) : Server → Server → Prop := Relation.ReflTransGen (Step game)

/-- What `rebuild_and_publish` gives: the latest snapshot or the process's own, while another process
rebuilds, or the one that was built. -/
inductive Rebuilt (s : Server) (node : Node) : Option LeaderBoardSnapshot → Prop
  | latest : Rebuilt s node s.latest
  | cached : Rebuilt s node (s.caches node)
  | built (version : ℤ) : Rebuilt s node (s.built version)

/-- A call of `get_info` that succeeds: its reads one after the other, each of which may fail, among
the steps of all processes, its own included. -/
inductive Call (game : Id) (node : Node) (prevVersion : Option ℤ) (offset limit : ℕ) :
    Server → Option LeaderBoardInfo → Server → Prop
  | mk {s s₁ s₂ s₃ s₄ : Server} {byVersion latest rebuilt : Option LeaderBoardSnapshot} :
      Leads game s s₁ →
      byVersion = none ∨ byVersion = prevVersion.bind s₁.snapshots →
      Leads game s₁ s₂ →
      latest = none ∨ latest = s₂.latest →
      Leads game s₂ s₃ →
      Rebuilt s₃ node rebuilt →
      Leads game s₃ s₄ →
      Call game node prevVersion offset limit s
        (getInfo byVersion latest rebuilt (s₄.caches node) prevVersion offset limit) s₄

/-! ## The reader -/

/-- What a reader has: the teams of the pages, the version and whether it has stopped. -/
structure Reader where
  teams : List LeaderBoardTeamInfo
  version : Option ℤ
  done : Bool

def Reader.start : Reader := ⟨[], none, false⟩

/-- The reader starts over from a page that says so, and stops where there is no more. -/
def Reader.take (r : Reader) (info : LeaderBoardInfo) : Reader where
  teams := if info.reset then info.data else r.teams ++ info.data
  version := some info.version
  done := !info.hasMore

/-- Where the calls of a reader lead to, among the steps of the processes: it passes back the
version, and the number of the teams it has as the offset. -/
inductive Reading (game : Id) : Server → Reader → Prop
  | start {s : Server} : Leads game Server.empty s → Reading game s Reader.start
  | step {s s' : Server} {r : Reader} : Reading game s r → Step game s s' → Reading game s' r
  | call {s s' : Server} {r : Reader} {node : Node} {limit : ℕ} {info : Option LeaderBoardInfo} :
      Reading game s r → r.done = false → 0 < limit →
      Call game node r.version r.teams.length limit s info s' →
      Reading game s' (info.elim r r.take)

/-! ## A whole snapshot -/

/-- The teams of a snapshot, with their ranks. -/
def ranked (snapshot : LeaderBoardSnapshot) : List LeaderBoardTeamInfo :=
  snapshot.order.zipIdx.filterMap (rankTeam snapshot)

/-- The order has each team once, and all of them are there. -/
structure Whole (snapshot : LeaderBoardSnapshot) : Prop where
  nodup : snapshot.order.Nodup
  teams : ∀ id ∈ snapshot.order, ∃ team, snapshot.teams id = some team ∧ team.id = id
  size : snapshot.order.length ≤ usizeMax

section Lists

variable {α β : Type} {f : α → Option β} {l : List α}

/-- A map that drops no item keeps the places. -/
lemma filterMap_take (h : ∀ a ∈ l, (f a).isSome) (k : ℕ) :
    (l.take k).filterMap f = (l.filterMap f).take k := by
  induction l generalizing k with
  | nil => simp
  | cons a l ih =>
    obtain ⟨b, hb⟩ := Option.isSome_iff_exists.mp (h a List.mem_cons_self)
    cases k with
    | zero => simp
    | succ k =>
      rw [List.take_succ_cons, List.filterMap_cons_some hb, List.filterMap_cons_some hb,
        List.take_succ_cons, ih fun a ha => h a (List.mem_cons_of_mem _ ha)]

lemma filterMap_drop (h : ∀ a ∈ l, (f a).isSome) (k : ℕ) :
    (l.drop k).filterMap f = (l.filterMap f).drop k := by
  induction l generalizing k with
  | nil => simp
  | cons a l ih =>
    obtain ⟨b, hb⟩ := Option.isSome_iff_exists.mp (h a List.mem_cons_self)
    cases k with
    | zero => simp
    | succ k =>
      rw [List.drop_succ_cons, List.filterMap_cons_some hb, List.drop_succ_cons,
        ih fun a ha => h a (List.mem_cons_of_mem _ ha)]

lemma map_filterMap_of_isSome {γ : Type} {g : β → γ} {k : α → γ} (h : ∀ a ∈ l, (f a).isSome)
    (hg : ∀ a ∈ l, ∀ b, f a = some b → g b = k a) : (l.filterMap f).map g = l.map k := by
  induction l with
  | nil => rfl
  | cons a l ih =>
    obtain ⟨b, hb⟩ := Option.isSome_iff_exists.mp (h a List.mem_cons_self)
    rw [List.filterMap_cons_some hb, List.map_cons, List.map_cons, hg a List.mem_cons_self b hb,
      ih (fun a ha => h a (List.mem_cons_of_mem _ ha)) fun a ha => hg a (List.mem_cons_of_mem _ ha)]

end Lists

section Whole

variable {snapshot : LeaderBoardSnapshot}

lemma Whole.isSome_rankTeam (h : Whole snapshot) :
    ∀ place ∈ snapshot.order.zipIdx, (rankTeam snapshot place).isSome := by
  intro place hplace
  obtain ⟨team, hteam, -⟩ := h.teams place.1 (List.fst_mem_of_mem_zipIdx hplace)
  rw [rankTeam, hteam]
  rfl

/-- A page has the teams of its places. -/
lemma Whole.pageTeams_eq (h : Whole snapshot) (pageOffset limit : ℕ) :
    pageTeams snapshot pageOffset limit = ((ranked snapshot).drop pageOffset).take limit := by
  rw [pageTeams, filterMap_take, filterMap_drop h.isSome_rankTeam, ranked]
  exact fun place hplace => h.isSome_rankTeam place (List.mem_of_mem_drop hplace)

/-- The teams are in the order of the snapshot. -/
lemma Whole.map_id_ranked (h : Whole snapshot) : (ranked snapshot).map (·.id) = snapshot.order := by
  rw [ranked, map_filterMap_of_isSome (k := Prod.fst) h.isSome_rankTeam, List.zipIdx_map_fst]
  intro place hplace team hrank
  obtain ⟨team', hteam, hid⟩ := h.teams place.1 (List.fst_mem_of_mem_zipIdx hplace)
  rw [rankTeam, hteam, Option.map_some, Option.some.injEq] at hrank
  rw [← hrank, ← hid]

/-- Their ranks count from one. -/
lemma Whole.map_rank_ranked (h : Whole snapshot) :
    (ranked snapshot).map (·.rank) = List.range' 1 snapshot.order.length := by
  have hplaces : snapshot.order.zipIdx.map (fun place => 1 + place.2) =
      (snapshot.order.zipIdx.map Prod.snd).map (1 + ·) := by
    rw [List.map_map]
    rfl
  rw [ranked, map_filterMap_of_isSome (k := fun place => 1 + place.2) h.isSome_rankTeam, hplaces,
    List.zipIdx_map_snd, List.map_add_range']
  intro place _ team hrank
  obtain ⟨team', -, rfl⟩ := Option.map_eq_some_iff.mp hrank
  exact Nat.add_comm _ _

lemma Whole.length_ranked (h : Whole snapshot) :
    (ranked snapshot).length = snapshot.order.length := by
  rw [← h.map_id_ranked, List.length_map]

/-- They are the teams of the snapshot. -/
lemma Whole.mem_ranked (h : Whole snapshot) {team : LeaderBoardTeamInfo}
    (hteam : team ∈ ranked snapshot) :
    ∃ team', snapshot.teams team.id = some team' ∧ team = { team' with rank := team.rank } := by
  obtain ⟨place, hplace, hrank⟩ := List.mem_filterMap.mp hteam
  obtain ⟨team', hteam', rfl⟩ := Option.map_eq_some_iff.mp hrank
  obtain ⟨team'', hteam'', hid⟩ := h.teams place.1 (List.fst_mem_of_mem_zipIdx hplace)
  obtain rfl := Option.some.inj (hteam'.symm.trans hteam'')
  exact ⟨team', by rw [hid, hteam'], rfl⟩

end Whole

/-! ## What is built -/

section Built

variable {db : Tables} {game : Id}

/-- The ids of the teams of a board are those of teams, each once. -/
lemma Keyed.teamRows (h : Keyed db) (game : Id) (locked : Bool) :
    ((teamRows db game locked).map (·.id)).Nodup ∧
      ∀ row ∈ teamRows db game locked, ∃ t ∈ db.team, t.id = row.id := by
  cases locked with
  | false =>
    have hperm : (liveRows db game).Perm ((db.team.filter fun t =>
        t.gameId = game ∧ t.startAt.isSome ∧ t.isBanned = false ∧ db.visible t.id).map _) :=
      List.perm_insertionSort _ _
    constructor
    · refine (hperm.map (·.id)).nodup_iff.mpr ?_
      rw [List.map_map]
      exact h.team.sublist (List.filter_sublist.map _)
    · intro row hrow
      obtain ⟨t, ht, rfl⟩ := List.mem_map.mp (hperm.mem_iff.mp hrow)
      exact ⟨t, List.mem_of_mem_filter ht, rfl⟩
  | true =>
    have hperm := List.perm_insertionSort
      (fun a b : LockTeamRow × TeamRow => toLex (a.1.rank, a.2.id) ≤ toLex (b.1.rank, b.2.id))
      ((db.leaderboardLockTeam.filter (·.gameId = game)).filterMap fun s =>
        (db.team.find? fun t => t.id = s.teamId ∧ t.isBanned = false ∧ db.visible t.id).map
          fun t => (s, t))
    constructor
    · -- the frozen rows of a game are of different teams
      have hrows : (db.leaderboardLockTeam.filter (·.gameId = game)).Pairwise fun s s' =>
          s.teamId ≠ s'.teamId := by
        have hpairs := (List.pairwise_map.mp h.lockTeam).filter (fun row => row.gameId = game)
        refine hpairs.imp_of_mem fun {s s'} hs hs' hne heq => hne ?_
        have hgame := of_decide_eq_true (List.mem_filter.mp hs).2
        have hgame' := of_decide_eq_true (List.mem_filter.mp hs').2
        rw [hgame, hgame', heq]
      change ((List.insertionSort _ _).map _ |>.map _).Nodup
      rw [List.map_map, (hperm.map _).nodup_iff]
      refine List.pairwise_map.mpr (List.pairwise_filterMap.mpr (hrows.imp fun {s s'} hne => ?_))
      intro p hp p' hp' heq
      obtain ⟨t, ht, rfl⟩ := Option.map_eq_some_iff.mp hp
      obtain ⟨t', ht', rfl⟩ := Option.map_eq_some_iff.mp hp'
      have hfound := List.find?_some ht
      have hfound' := List.find?_some ht'
      rw [decide_eq_true_eq] at hfound hfound'
      exact hne (hfound.1.symm.trans (heq.trans hfound'.1))
    · intro row hrow
      obtain ⟨p, hp, rfl⟩ := List.mem_map.mp hrow
      obtain ⟨s, -, hfind⟩ := List.mem_filterMap.mp (hperm.mem_iff.mp hp)
      obtain ⟨t, ht, rfl⟩ := Option.map_eq_some_iff.mp hfind
      exact ⟨t, List.mem_of_find?_eq_some ht, rfl⟩

/-- As many teams as an `INT` has numbers, at most. -/
lemma Keyed.length_le (h : Keyed db) : db.team.length ≤ 2 ^ 31 := by
  have hsub : (db.team.map (·.id)).Subperm (List.range (2 ^ 31)) :=
    List.subperm_of_subset h.team fun id hid => by
      obtain ⟨t, ht, rfl⟩ := List.mem_map.mp hid
      exact List.mem_range.mpr (h.range t ht)
  have hle := hsub.length_le
  rwa [List.length_map, List.length_range] at hle

/-- **What is built is whole.** -/
theorem whole_snapshotOf {version : ℤ} {db₁ db₃ db₄ : Tables} (h : Keyed db) :
    Whole (snapshotOf game version db₁ db db₃ db₄) := by
  obtain ⟨hnodup, hmem⟩ := h.teamRows game (isLocked db₁ game)
  have horder : (snapshotOf game version db₁ db db₃ db₄).order =
      (Leaderboard.teamRows db game (isLocked db₁ game)).map (·.id) := by
    rw [snapshotOf, assemble, joinMembers, List.map_map]
    rfl
  constructor
  · rw [horder]
    exact hnodup
  · intro id hid
    obtain ⟨team, hteam, rfl⟩ := List.mem_map.mp hid
    have hsome : ((joinMembers (Leaderboard.teamRows db game (isLocked db₁ game))
        (memberRows db₃ game)).reverse.find? (·.id = team.id)).isSome :=
      List.find?_isSome.mpr ⟨team, List.mem_reverse.mpr hteam, decide_eq_true rfl⟩
    obtain ⟨team', hteam'⟩ := Option.isSome_iff_exists.mp hsome
    have hfound := List.find?_some hteam'
    exact ⟨team', hteam', of_decide_eq_true hfound⟩
  · have hsub : ((Leaderboard.teamRows db game (isLocked db₁ game)).map (·.id)).Subperm
        (db.team.map (·.id)) := List.subperm_of_subset hnodup fun id hid => by
      obtain ⟨row, hrow, rfl⟩ := List.mem_map.mp hid
      obtain ⟨t, ht, heq⟩ := hmem row hrow
      exact List.mem_map.mpr ⟨t, ht, heq⟩
    rw [horder]
    refine hsub.length_le.trans ?_
    rw [List.length_map]
    exact h.length_le.trans (by decide)

end Built

/-! ## One snapshot for each version -/

/-- Wherever a snapshot is kept, it is the one that was built under its version. -/
structure Sound (s : Server) : Prop where
  built : ∀ version snapshot, s.built version = some snapshot →
    snapshot.version = version ∧ Whole snapshot
  snapshots : ∀ version snapshot, s.snapshots version = some snapshot →
    s.built version = some snapshot
  latest : ∀ snapshot, s.latest = some snapshot → s.built snapshot.version = some snapshot
  caches : ∀ node snapshot, s.caches node = some snapshot →
    s.built snapshot.version = some snapshot

section Server

variable {game : Id} {s s' : Server} {snapshot : LeaderBoardSnapshot}

lemma sound_empty : Sound Server.empty := by
  constructor <;> intros <;> contradiction

/-- What a key has after it or another one was written. -/
lemma eq_of_update {κ α : Type} [DecidableEq κ] {f : κ → Option α} {k k' : κ} {o : Option α} {a : α}
    (h : Function.update f k o k' = some a) : (k' = k ∧ o = some a) ∨ f k' = some a := by
  by_cases heq : k' = k
  · rw [heq, Function.update_self] at h
    exact .inl ⟨heq, h⟩
  · rw [Function.update_of_ne heq] at h
    exact .inr h

/-- What has been built stays. -/
lemma Step.built_mono (h : Step game s s') {version : ℤ} (hbuilt : s.built version = some snapshot) :
    s'.built version = some snapshot := by
  cases h with
  | @build version' db₁ db₂ db₃ db₄ _ _ hnew _ =>
    have hne : version ≠ version' := by
      rintro rfl
      rw [hnew] at hbuilt
      cases hbuilt
    exact (Function.update_of_ne hne _ _).trans hbuilt
  | _ => exact hbuilt

lemma Leads.built_mono (h : Leads game s s') {version : ℤ}
    (hbuilt : s.built version = some snapshot) : s'.built version = some snapshot := by
  induction h with
  | refl => exact hbuilt
  | tail _ hstep ih => exact hstep.built_mono ih

/-- A built snapshot is under its version. -/
lemma Sound.built_version (h : Sound s) {version : ℤ} (hbuilt : s.built version = some snapshot) :
    s.built snapshot.version = some snapshot := by
  rwa [(h.built version snapshot hbuilt).1]

lemma Sound.step (h : Sound s) (hstep : Step game s s') : Sound s' := by
  have hmono : ∀ version snapshot, s.built version = some snapshot →
      s'.built version = some snapshot := fun _ _ hbuilt => hstep.built_mono hbuilt
  cases hstep with
  | nextVersion => exact ⟨h.built, h.snapshots, h.latest, h.caches⟩
  | build _ _ _ hkeyed =>
    refine ⟨fun v snapshot' hv => ?_, fun v snapshot' hv => hmono _ _ (h.snapshots v snapshot' hv),
      fun snapshot' hlatest => hmono _ _ (h.latest snapshot' hlatest),
      fun node snapshot' hcache => hmono _ _ (h.caches node snapshot' hcache)⟩
    obtain ⟨rfl, hnew⟩ | hold := eq_of_update hv
    · obtain rfl := Option.some.inj hnew
      exact ⟨rfl, whole_snapshotOf hkeyed⟩
    · exact h.built v snapshot' hold
  | setSnapshot hbuilt =>
    refine ⟨h.built, fun v snapshot' hv => ?_, h.latest, h.caches⟩
    obtain ⟨rfl, hnew⟩ | hold := eq_of_update hv
    · exact hbuilt.trans hnew
    · exact h.snapshots v snapshot' hold
  | setLatest hbuilt =>
    refine ⟨h.built, h.snapshots, fun snapshot' hlatest => ?_, h.caches⟩
    obtain rfl := Option.some.inj hlatest
    exact h.built_version hbuilt
  | expire version =>
    refine ⟨h.built, fun v snapshot' hv => ?_, h.latest, h.caches⟩
    obtain ⟨-, hnew⟩ | hold := eq_of_update hv
    · cases hnew
    · exact h.snapshots v snapshot' hold
  | dropLatest => exact ⟨h.built, h.snapshots, fun _ hlatest => (nomatch hlatest), h.caches⟩
  | cacheBuilt node hbuilt =>
    refine ⟨h.built, h.snapshots, h.latest, fun n snapshot' hn => ?_⟩
    obtain ⟨-, hnew⟩ | hold := eq_of_update hn
    · obtain rfl := Option.some.inj hnew
      exact h.built_version hbuilt
    · exact h.caches n snapshot' hold
  | cacheLatest node hlatest =>
    refine ⟨h.built, h.snapshots, h.latest, fun n snapshot' hn => ?_⟩
    obtain ⟨-, hnew⟩ | hold := eq_of_update hn
    · obtain rfl := Option.some.inj hnew
      exact h.latest _ hlatest
    · exact h.caches n snapshot' hold
  | uncache node =>
    refine ⟨h.built, h.snapshots, h.latest, fun n snapshot' hn => ?_⟩
    obtain ⟨-, hnew⟩ | hold := eq_of_update hn
    · cases hnew
    · exact h.caches n snapshot' hold

lemma Sound.leads (h : Sound s) (hleads : Leads game s s') : Sound s' := by
  induction hleads with
  | refl => exact h
  | tail _ hstep ih => exact ih.step hstep

end Server

/-! ## What a call gives -/

section Calls

variable {game : Id} {node : Node} {s s' : Server} {prevVersion : Option ℤ} {offset limit : ℕ}
  {info : LeaderBoardInfo}

/-- A page is of the snapshot that the reader has asked for, or the first one of another. -/
lemma getInfo_eq_some {byVersion latest rebuilt cached : Option LeaderBoardSnapshot}
    (h : getInfo byVersion latest rebuilt cached prevVersion offset limit = some info) :
    ∃ snapshot reset, info = infoOf snapshot reset offset limit ∧
      ((reset = false ∧ byVersion = some snapshot ∧ prevVersion.isSome) ∨
        (reset = decide (0 < offset) ∧
          (latest = some snapshot ∨ rebuilt = some snapshot ∨ cached = some snapshot))) := by
  unfold getInfo at h
  dsimp only at h
  generalize hpaged : (if 0 < offset then prevVersion.bind fun _ => byVersion else none) = paged at h
  obtain ⟨snapshot, hsnapshot, h⟩ := Option.bind_eq_some_iff.mp h
  split_ifs at h
  obtain rfl := Option.some.inj h
  refine ⟨snapshot, _, rfl, ?_⟩
  cases paged with
  | some paged =>
    obtain rfl := Option.some.inj hsnapshot
    split_ifs at hpaged
    obtain ⟨version, rfl, hby⟩ := Option.bind_eq_some_iff.mp hpaged
    exact .inl ⟨rfl, hby, rfl⟩
  | none =>
    rw [Option.none_or, Option.or_eq_some_iff, Option.or_eq_some_iff] at hsnapshot
    refine .inr ⟨by simp, ?_⟩
    tauto

lemma Call.leads {answer : Option LeaderBoardInfo}
    (h : Call game node prevVersion offset limit s answer s') : Leads game s s' := by
  cases h with
  | mk h₁ _ h₂ _ h₃ _ h₄ => exact ((h₁.trans h₂).trans h₃).trans h₄

/-- A rebuild gives a snapshot that is built. -/
lemma Sound.rebuilt (h : Sound s) {o : Option LeaderBoardSnapshot} (hrebuilt : Rebuilt s node o)
    {snapshot : LeaderBoardSnapshot} (ho : o = some snapshot) :
    s.built snapshot.version = some snapshot := by
  cases hrebuilt with
  | latest => exact h.latest snapshot ho
  | cached => exact h.caches node snapshot ho
  | built version => exact h.built_version ho

/-- **A call gives a page** of a snapshot that has been built: of the one under the reader's version,
or of another one from the start. -/
theorem Call.spec (hs : Sound s) (h : Call game node prevVersion offset limit s (some info) s') :
    Sound s' ∧ ∃ snapshot reset, s'.built snapshot.version = some snapshot ∧
      info = infoOf snapshot reset offset limit ∧
      (reset = false → offset = 0 ∨ prevVersion = some snapshot.version) := by
  generalize hanswer : some info = answer at h
  cases h with
  | @mk s₁ s₂ s₃ _ byVersion latest rebuilt h₁ hby h₂ hlatest h₃ hrebuilt h₄ =>
  obtain ⟨snapshot, reset, hinfo, hcases⟩ := getInfo_eq_some hanswer.symm
  have hs₁ := hs.leads h₁
  have hs₂ := hs₁.leads h₂
  have hs₃ := hs₂.leads h₃
  have hs₄ := hs₃.leads h₄
  refine ⟨hs₄, snapshot, reset, ?_⟩
  obtain ⟨rfl, rfl, -⟩ | ⟨rfl, hread⟩ := hcases
  · -- the page is of the reader's version
    obtain hnone | hsome := hby
    · cases hnone
    · obtain ⟨version, rfl, hkept⟩ := Option.bind_eq_some_iff.mp hsome.symm
      have hbuilt := hs₁.snapshots version snapshot hkept
      obtain rfl := (hs₁.built version snapshot hbuilt).1
      exact ⟨Leads.built_mono ((h₂.trans h₃).trans h₄) hbuilt, hinfo, fun _ => .inr rfl⟩
  · refine ⟨?_, hinfo, fun hreset => .inl ?_⟩
    · obtain hread | hread | hread := hread
      · obtain rfl | rfl := hlatest
        · cases hread
        · exact Leads.built_mono (h₃.trans h₄) (hs₂.latest snapshot hread)
      · exact Leads.built_mono h₄ (hs₃.rebuilt hrebuilt hread)
      · exact hs₄.caches node snapshot hread
    · exact Nat.eq_zero_of_not_pos (of_decide_eq_false hreset)

end Calls

/-! ## What a reader has -/

section Readers

variable {game : Id} {node : Node} {s s' : Server} {r : Reader} {snapshot : LeaderBoardSnapshot}
  {reset : Bool} {limit : ℕ}

/-- The reader has the first teams of a snapshot: some while there are more, and all in the end. -/
structure Part (s : Server) (r : Reader) (snapshot : LeaderBoardSnapshot) : Prop where
  built : s.built snapshot.version = some snapshot
  version : r.version = some snapshot.version
  teams : r.teams <+: ranked snapshot
  begun : r.done = false → r.teams ≠ []
  ended : r.done = true → r.teams = ranked snapshot

/-- What a reader has. -/
def Held (s : Server) (r : Reader) : Prop := r = Reader.start ∨ ∃ snapshot, Part s r snapshot

lemma Held.step (h : Held s r) (hstep : Step game s s') : Held s' r := by
  obtain rfl | ⟨snapshot, hpart⟩ := h
  · exact .inl rfl
  · exact .inr ⟨snapshot, hstep.built_mono hpart.built, hpart.version, hpart.teams, hpart.begun,
      hpart.ended⟩

lemma Held.leads (h : Held s r) (hleads : Leads game s s') : Held s' r := by
  induction hleads with
  | refl => exact h
  | tail _ hstep ih => exact ih.step hstep

/-- The places that a reader has after a page. -/
lemma Held.take_teams (h : Held s r) (hwhole : Whole snapshot)
    (hbuilt : s.built snapshot.version = some snapshot) (reset : Bool) (limit : ℕ)
    (hreset : reset = false → r.teams.length = 0 ∨ r.version = some snapshot.version) :
    (r.take (infoOf snapshot reset r.teams.length limit)).teams =
      (ranked snapshot).take ((if reset then 0 else r.teams.length) + limit) := by
  cases reset with
  | true =>
    change pageTeams snapshot 0 limit = (ranked snapshot).take (0 + limit)
    rw [hwhole.pageTeams_eq, List.drop_zero, Nat.zero_add]
  | false =>
    have hteams : r.teams = (ranked snapshot).take r.teams.length := by
      obtain hzero | hversion := hreset rfl
      · rw [List.length_eq_zero_iff.mp hzero]
        rfl
      · -- the reader has the first teams of this snapshot
        obtain rfl | ⟨snapshot', hpart⟩ := h
        · cases hversion
        · have heq : snapshot'.version = snapshot.version :=
            Option.some.inj (hpart.version.symm.trans hversion)
          have hsame : snapshot' = snapshot :=
            Option.some.inj (hpart.built.symm.trans (heq ▸ hbuilt))
          exact List.prefix_iff_eq_take.mp (hsame ▸ hpart.teams)
    change r.teams ++ pageTeams snapshot r.teams.length limit =
      (ranked snapshot).take (r.teams.length + limit)
    rw [hwhole.pageTeams_eq, List.take_add, ← hteams]

/-- **A page keeps what a reader has**: the first teams of the snapshot of the page. -/
lemma Held.take (h : Held s r) (hwhole : Whole snapshot)
    (hbuilt : s.built snapshot.version = some snapshot)
    (hreset : reset = false → r.teams.length = 0 ∨ r.version = some snapshot.version)
    (hlimit : 0 < limit) :
    Part s (r.take (infoOf snapshot reset r.teams.length limit)) snapshot := by
  have hteams := h.take_teams hwhole hbuilt reset limit hreset
  set k := (if reset then 0 else r.teams.length) + limit with hk
  have hmore : (infoOf snapshot reset r.teams.length limit).hasMore =
      decide (min k usizeMax < snapshot.order.length) := rfl
  refine ⟨hbuilt, rfl, ?_, fun hdone => ?_, fun hdone => ?_⟩
  · rw [hteams]
    exact List.take_prefix _ _
  · rw [hteams]
    intro hnil
    rw [List.take_eq_nil_iff, ← List.length_eq_zero_iff, hwhole.length_ranked] at hnil
    have hlt := of_decide_eq_true (hmore.symm.trans (Bool.not_eq_false' _ |>.mp hdone))
    omega
  · rw [hteams]
    have hge := of_decide_eq_false (hmore.symm.trans (Bool.not_eq_true' _ |>.mp hdone))
    refine List.take_of_length_le ?_
    rw [hwhole.length_ranked]
    omega

/-- A page that does not start over is the last one or has teams that the reader has not. -/
lemma Held.length_lt (h : Held s r) (hwhole : Whole snapshot)
    (hbuilt : s.built snapshot.version = some snapshot)
    (hsame : r.teams.length = 0 ∨ r.version = some snapshot.version) (hlimit : 0 < limit)
    (hmore : (infoOf snapshot false r.teams.length limit).hasMore = true) :
    r.teams.length < (r.take (infoOf snapshot false r.teams.length limit)).teams.length := by
  have hteams := h.take_teams hwhole hbuilt false limit fun _ => hsame
  have hlt : min (r.teams.length + limit) usizeMax < snapshot.order.length := of_decide_eq_true hmore
  have hsize := hwhole.size
  rw [hteams, List.length_take, hwhole.length_ranked]
  simp only [Bool.false_eq_true, if_false]
  omega

/-- **Where the calls of a reader lead to**: a version has one snapshot, and the reader has the first
teams of one. -/
theorem sound_of_reading (h : Reading game s r) : Sound s ∧ Held s r := by
  induction h with
  | start hleads => exact ⟨sound_empty.leads hleads, .inl rfl⟩
  | step _ hstep ih => exact ⟨ih.1.step hstep, ih.2.step hstep⟩
  | @call s s' r node limit info _ hdone hlimit hcall ih =>
    have hleads := hcall.leads
    cases info with
    | none => exact ⟨ih.1.leads hleads, ih.2.leads hleads⟩
    | some info =>
      obtain ⟨hs', snapshot, reset, hbuilt, rfl, hreset⟩ := hcall.spec ih.1
      have hheld := ih.2.leads hleads
      refine ⟨hs', .inr ⟨snapshot, hheld.take (hs'.built _ _ hbuilt).2 hbuilt (fun hr => ?_) hlimit⟩⟩
      exact hreset hr

/-- **What a reader has read in the end**: the teams of one snapshot, each once, in its order and
with the ranks from one on. While there is more, a page that does not start over is the last one or
brings teams, and never more than there are. -/
theorem reading_whole (h : Reading game s r) :
    (r.done = true → ∃ snapshot, s.built snapshot.version = some snapshot ∧
      r.version = some snapshot.version ∧ snapshot.order.Nodup ∧
      r.teams.map (·.id) = snapshot.order ∧
      r.teams.map (·.rank) = List.range' 1 snapshot.order.length ∧
      ∀ team ∈ r.teams, ∃ team', snapshot.teams team.id = some team' ∧
        team = { team' with rank := team.rank }) ∧
    (r.done = false → ∀ (node : Node) (limit : ℕ) (info : LeaderBoardInfo) (s' : Server),
      0 < limit → Call game node r.version r.teams.length limit s (some info) s' →
      (r.take info).teams.length ≤ info.total ∧
      (info.reset = false →
        (r.take info).done = true ∨ r.teams.length < (r.take info).teams.length)) := by
  obtain ⟨hs, hheld⟩ := sound_of_reading h
  constructor
  · intro hdone
    obtain rfl | ⟨snapshot, hpart⟩ := hheld
    · cases hdone
    · have hwhole := (hs.built _ _ hpart.built).2
      have hteams := hpart.ended hdone
      refine ⟨snapshot, hpart.built, hpart.version, hwhole.nodup, ?_, ?_, fun team hteam => ?_⟩
      · rw [hteams, hwhole.map_id_ranked]
      · rw [hteams, hwhole.map_rank_ranked]
      · rw [hteams] at hteam
        exact hwhole.mem_ranked hteam
  · intro _ node limit info s' hlimit hcall
    have hheld' := hheld.leads hcall.leads
    obtain ⟨hs', snapshot, reset, hbuilt, rfl, hreset⟩ := hcall.spec hs
    have hwhole := (hs'.built _ _ hbuilt).2
    have hteams := hheld'.take_teams hwhole hbuilt reset limit hreset
    refine ⟨?_, fun hr => ?_⟩
    · rw [hteams, List.length_take, hwhole.length_ranked]
      exact Nat.min_le_right _ _
    · obtain rfl : reset = false := hr
      cases hmore : (infoOf snapshot false r.teams.length limit).hasMore with
      | false => exact .inl (by rw [Reader.take, hmore]; rfl)
      | true => exact .inr (hheld'.length_lt hwhole hbuilt (hreset rfl) hlimit hmore)

end Readers

/-- Two teams have started. -/
def twoTeams : Tables where
  team := [⟨1, 7, "a", "", some 0, none, false⟩, ⟨2, 7, "b", "", some 0, some 9, false⟩]
  teamPuzzle := []
  teamFeature := []
  leaderboardLock := fun _ => none
  leaderboardLockTeam := []
  teamMember := []
  nickname := fun _ => none

/-- Their snapshot is the first one, and the latest. -/
def twoTeamsServer : Server where
  issued := 1
  built := Function.update (fun _ => none) 1
    (some (snapshotOf 7 1 twoTeams twoTeams twoTeams twoTeams))
  snapshots := fun _ => none
  latest := some (snapshotOf 7 1 twoTeams twoTeams twoTeams twoTeams)
  caches := fun _ => none

lemma leads_twoTeamsServer : Leads 7 Server.empty twoTeamsServer := by
  have hkeyed : Keyed twoTeams := ⟨by decide, by decide, by decide⟩
  have hbuild := @Step.build 7 { Server.empty with issued := 1 } 1 twoTeams twoTeams twoTeams twoTeams
    (by decide) (by decide) rfl hkeyed
  have hlatest := @Step.setLatest 7 { twoTeamsServer with latest := none } 1
    (snapshotOf 7 1 twoTeams twoTeams twoTeams twoTeams) rfl
  exact .tail (.tail (.tail .refl .nextVersion) hbuild) hlatest

/-- The reader that has got both on one page. -/
def twoTeamsReader : Reader :=
  Reader.start.take (infoOf (snapshotOf 7 1 twoTeams twoTeams twoTeams twoTeams) false 0 2)

lemma call_twoTeams : Call 7 0 none 0 2 twoTeamsServer
    (some (infoOf (snapshotOf 7 1 twoTeams twoTeams twoTeams twoTeams) false 0 2))
      twoTeamsServer := by
  have hcall := @Call.mk 7 0 none 0 2 twoTeamsServer twoTeamsServer twoTeamsServer twoTeamsServer
    twoTeamsServer none _ _ .refl (.inl rfl) .refl (.inr rfl) .refl .cached .refl
  exact hcall

theorem reading_whole_twoTeams : ∃ snapshot,
    twoTeamsServer.built snapshot.version = some snapshot ∧
      twoTeamsReader.version = some snapshot.version ∧ snapshot.order.Nodup ∧
      twoTeamsReader.teams.map (·.id) = snapshot.order ∧
      twoTeamsReader.teams.map (·.rank) = List.range' 1 snapshot.order.length ∧
      ∀ team ∈ twoTeamsReader.teams, ∃ team', snapshot.teams team.id = some team' ∧
        team = { team' with rank := team.rank } := by
  have hreading : Reading 7 twoTeamsServer twoTeamsReader :=
    .call (.start leads_twoTeamsServer) rfl (by decide) call_twoTeams
  exact (reading_whole hreading).1 (by decide)

end Leaderboard.Pages
