import RbphBackend.Concurrency.Guards
import RbphBackend.Teams.Requests

set_option relaxedAutoImplicit false
set_option autoImplicit false

/-!
# What the calls about teams do

Every commit of a call does one thing: it stores settings, adds or takes out a member, creates,
renames or deletes a team, or hands on the role of captain. A game's row guards the names of its
teams, a team's row guards the number of its members.

## Main definitions

* `Teams.IsMember`, `Teams.IsCaptain`, `Teams.Manned` — the members of the teams, and their captains.
* `Teams.Referential` — the rows refer to rows there are.
* `Teams.Setting` — a pool of calls.
* `Teams.Deed` — what a commit does.
* `Teams.guardedRows` — what the rows guard.

## Main results

* `Teams.Deed.referential`, `Teams.Deed.manned` — what commits keep.
-/

namespace Teams

open Concurrency ReadCommitted Games

/-! ## Members -/

/-- The user is a member of the team. -/
def IsMember (v : View) (T u : Id) : Prop := ∃ m, memberOf v T u = some m

/-- The user is a captain of the team. -/
def IsCaptain (v : View) (T u : Id) : Prop := ∃ m, memberOf v T u = some m ∧ m.isCaptain = true

/-- A team that has a member has one captain. -/
def MannedTeam (v : View) (T : Id) : Prop :=
  ∀ u, IsMember v T u → ∃ c, IsCaptain v T c ∧ ∀ c', IsCaptain v T c' → c' = c

/-- **Every team that has a member has one captain.** -/
def Manned (v : View) : Prop := ∀ T, MannedTeam v T

/-- The rows refer to rows there are: a member to a team of the game. The teams and the users are
listed. -/
structure Referential (cfg : Config) (v : View) : Prop where
  team : ∀ g u m, v (.member g u) = some m →
    ∃ team, v (.team m.teamId) = some team ∧ team.gameId = g
  user : ∀ g u, v (.member g u) ≠ none → u ∈ cfg.userIds
  listed : ∀ T, v (.team T) ≠ none → T ∈ cfg.teamIds

section Members

variable {cfg : Config} {v v' : View} {T T' u u' g : Id} {m : Member} {team : Team}

lemma IsCaptain.isMember (h : IsCaptain v T u) : IsMember v T u :=
  h.imp fun _ h => h.1

lemma memberOf_eq_some : memberOf v T u = some m ↔
    ∃ team, v (.team T) = some team ∧ v (.member team.gameId u) = some m ∧ m.teamId = T := by
  simp [memberOf, Option.bind_eq_some_iff, Option.filter_eq_some_iff]

/-- The row of a member of a team that there is. -/
lemma memberOf_of_team (h : v (.team T) = some team) :
    memberOf v T u = (v (.member team.gameId u)).filter fun m => decide (m.teamId = T) := by
  simp [memberOf, h]

lemma memberOf_eq_some_of_team (h : v (.team T) = some team) :
    memberOf v T u = some m ↔ v (.member team.gameId u) = some m ∧ m.teamId = T := by
  rw [memberOf_of_team h, Option.filter_eq_some_iff, decide_eq_true_eq]

lemma Referential.memberOf (h : Referential cfg v) (hm : v (.member g u) = some m) :
    memberOf v m.teamId u = some m := by
  obtain ⟨team, hteam, rfl⟩ := h.team g u m hm
  exact memberOf_eq_some.2 ⟨team, hteam, hm, rfl⟩

/-- The same game of a team, and the same row of a member. -/
lemma memberOf_congr (hteam : (v' (.team T)).map Team.gameId = (v (.team T)).map Team.gameId)
    (hm : ∀ team, v (.team T) = some team → v' (.member team.gameId u) = v (.member team.gameId u)) :
    memberOf v' T u = memberOf v T u := by
  cases h : v (.team T) with
  | none =>
    rw [h, Option.map_none, Option.map_eq_none_iff] at hteam
    simp [memberOf, h, hteam]
  | some team =>
    rw [h, Option.map_some, Option.map_eq_some_iff] at hteam
    obtain ⟨team', hteam', hgame⟩ := hteam
    rw [memberOf_of_team h, memberOf_of_team hteam', hgame, hm team h]

/-- A row of a member changes, up to whether it says that the member is of the team. -/
lemma memberOf_congr_of_filter (hteam : v' (.team T) = v (.team T))
    (hm : ∀ g, (v' (.member g u)).filter (fun m => decide (m.teamId = T)) =
      (v (.member g u)).filter fun m => decide (m.teamId = T)) :
    memberOf v' T u = memberOf v T u := by
  unfold memberOf
  rw [hteam]
  exact congrArg _ (funext fun team => hm team.gameId)

lemma MannedTeam.congr (h : MannedTeam v T) (heq : ∀ u, memberOf v' T u = memberOf v T u) :
    MannedTeam v' T := by
  unfold MannedTeam IsMember IsCaptain at h ⊢
  simpa only [heq] using h

lemma membersOf_mem_iff {p : Id × Member} :
    p ∈ membersOf cfg v T ↔ p.1 ∈ cfg.userIds ∧ memberOf v T p.1 = some p.2 := by
  obtain ⟨u, m⟩ := p
  simp only [membersOf, List.mem_filterMap, Option.map_eq_some_iff, Prod.mk.injEq]
  constructor
  · rintro ⟨u', hu', m', hm', rfl, rfl⟩
    exact ⟨hu', hm'⟩
  · rintro ⟨hu, hm⟩
    exact ⟨u, hu, m, hm, rfl, rfl⟩

lemma Referential.mem_userIds (h : Referential cfg v) (hu : IsMember v T u) : u ∈ cfg.userIds := by
  obtain ⟨m, hm⟩ := hu
  obtain ⟨team, -, hrow, -⟩ := memberOf_eq_some.1 hm
  exact h.user team.gameId u (by simp [hrow])

end Members

/-! ## Pools of calls -/

/-- A pool of calls, what is committed where its run begins, and whether its calls that store
settings, and those that change who is in a team, find what they have read. -/
structure Setting where
  cfg : Config
  calls : Tid → TeamCall
  origin : View
  settled : Prop
  manned : Prop
  nodup : cfg.userIds.Nodup
  listed : ∀ t u T data, calls t = .userCreate u T data → T ∈ cfg.teamIds
  referential : Referential cfg origin
  begins : manned → Manned origin

/-- What is stored for the settings: a patch of those that have been read, which are the settings of
the row where the call finds what it has read. -/
def Stored (S : Setting) (game : Game) (data : RbGameUpdateData) (stored : Option Value) : Prop :=
  (data.settings = none ∧ stored = none) ∨
    ∃ patch read, data.settings = some patch ∧ stored = some (patched read patch) ∧
      (S.settled → game.settings = read)

/-- The team is one of the game, of this normalised name. -/
def Named (cfg : Config) (g : Id) (n : String) (x : Option Team) : Prop :=
  ∃ team, x = some team ∧ team.gameId = g ∧ cfg.normalized team.name = n

/-- No other team of the game has the name, where names must differ. -/
def Free (cfg : Config) (v : View) (g : Id) (name : String) (T : Id) : Prop :=
  ∃ game, v (.game g) = some game ∧ (allowDuplicateNames game.settings = false →
    ∀ id ∈ cfg.teamIds, id ≠ T → ¬ Named cfg g (cfg.normalized name) (v (.team id)))

/-- The rows without a team and its members. -/
def View.dropTeam (v : View) (T : Id) : View
  | .game g => v (.game g)
  | .gameFeature g featureType => v (.gameFeature g featureType)
  | .team T' => if T' = T then none else v (.team T')
  | .member g u => (v (.member g u)).filter fun m => decide (m.teamId ≠ T)

/-- A member with the role of captain. -/
def Member.promoted (m : Member) : Member := { m with isCaptain := true }

/-- **What a commit does.** -/
inductive Deed (S : Setting) (t : Tid) (v v' : View) : Prop where
  | kept (h : v' = v)
  | settled {g : Id} {data : RbGameUpdateData} {game : Game} {stored : Option Value}
      (hcall : S.calls t = .updateGame g data) (hrow : v (.game g) = some game)
      (hstored : Stored S game data stored)
      (h : v' = Function.update v (.game g) (some (game.updated data stored)))
  | joined {T u : Id} {team : Team} {now : ℤ} (hteam : v (.team T) = some team)
      (hnone : v (.member team.gameId u) = none) (huser : u ∈ S.cfg.userIds)
      (hmanned : S.manned → ∃ u, IsMember v T u)
      (h : v' = Function.update v (.member team.gameId u) (some ⟨T, false, now⟩))
  | left {T u : Id} {team : Team} {m : Member} (hteam : v (.team T) = some team)
      (hmember : memberOf v T u = some m)
      (hmanned : S.manned → m.isCaptain = true → ∀ u', IsMember v T u' → u' = u)
      (h : v' = Function.update v (.member team.gameId u) none)
  | created {T u : Id} {data : RbTeamPutData} {now : ℤ} (hteam : v (.team T) = none)
      (hnone : v (.member data.gameId u) = none) (huser : u ∈ S.cfg.userIds)
      (hlisted : T ∈ S.cfg.teamIds) (hfree : Free S.cfg v data.gameId data.name T)
      (h : v' = Function.update
        (Function.update v (.team T)
          (some ⟨data.name, data.pass, data.bio, data.gameId, false, false, false⟩))
        (.member data.gameId u) (some ⟨T, true, now⟩))
  | renamed {T : Id} {team : Team} {data : UserUpdateData} (hteam : v (.team T) = some team)
      (hname : S.cfg.normalized (team.updated data).name = S.cfg.normalized team.name ∨
        Free S.cfg v team.gameId (team.updated data).name T)
      (h : v' = Function.update v (.team T) (some (team.updated data)))
  | disbanded {T : Id} {team : Team} (hteam : v (.team T) = some team)
      (h : v' = View.dropTeam v T)
  | promoted {T u : Id} {team : Team} (hteam : v (.team T) = some team)
      (hmember : ∀ g u', v' (.member g u') = v (.member g u') ∨ ∃ m,
        v (.member g u') = some m ∧ m.teamId = T ∧
          v' (.member g u') = some { m with isCaptain := decide (u' = u) })
      (hmanned : S.manned → IsCaptain v' T u ∧ ∀ u', IsCaptain v' T u' → u' = u)
      (h : ∀ k, (∀ g u', k ≠ .member g u') → v' k = v k)
  | replaced {T u s : Id} {team : Team} {m ms : Member} (hteam : v (.team T) = some team)
      (hmember : memberOf v T u = some m) (hsuccessor : memberOf v T s = some ms) (hne : s ≠ u)
      (hmanned : S.manned → m.isCaptain = true)
      (h : v' = Function.update (Function.update v (.member team.gameId u) none)
        (.member team.gameId s) (some ms.promoted))

/-! ## What commits keep -/

section Keep

variable {S : Setting} {t : Tid} {v v' : View} {cfg : Config}

lemma update_member_team {g u T : Id} {x : Option Member} :
    Function.update v (.member g u) x (.team T) = v (.team T) :=
  Function.update_of_ne (by simp) _ _

/-- Changing a member of a team leaves the other teams, if the row was not theirs. -/
lemma memberOf_update_of_ne {g u T u' : Id} {x : Option Member}
    (hold : ∀ m, v (.member g u) = some m → m.teamId ≠ T) (hnew : ∀ m, x = some m → m.teamId ≠ T) :
    memberOf (Function.update v (.member g u) x) T u' = memberOf v T u' := by
  ext m
  simp only [memberOf_eq_some, update_member_team]
  refine exists_congr fun team => and_congr_right fun _ => ?_
  by_cases hk : (Key.member team.gameId u' : Key) = .member g u
  · obtain ⟨rfl, rfl⟩ := Key.member.inj hk
    rw [Function.update_self]
    exact ⟨fun h => absurd h.2 (hnew m h.1), fun h => absurd h.2 (hold m h.1)⟩
  · rw [Function.update_of_ne hk]

/-- Changing a member of a team leaves the other members of it. -/
lemma memberOf_update_of_user_ne {g u T u' : Id} {x : Option Member} (hu : u' ≠ u) :
    memberOf (Function.update v (.member g u) x) T u' = memberOf v T u' :=
  memberOf_congr (congrArg _ update_member_team) fun _ _ =>
    Function.update_of_ne (fun hk => hu (Key.member.inj hk).2) _ _

/-- The member that is changed. -/
lemma memberOf_update_self {u T : Id} {team : Team} {x : Option Member}
    (hteam : v (.team T) = some team) :
    memberOf (Function.update v (.member team.gameId u) x) T u =
      x.filter fun m => decide (m.teamId = T) := by
  rw [memberOf_of_team (update_member_team.trans hteam), Function.update_self]

/-- Teams stay in their games, and every member is one that was there, up to its role, or is a user of
the list that has come to a team of the game. -/
lemma Referential.step (h : Referential cfg v)
    (hteams : ∀ T team, v (.team T) = some team →
      ∃ team', v' (.team T) = some team' ∧ team'.gameId = team.gameId)
    (hlisted : ∀ T, v' (.team T) ≠ none → v (.team T) ≠ none ∨ T ∈ cfg.teamIds)
    (hmembers : ∀ g u m, v' (.member g u) = some m →
      (∃ m', v (.member g u) = some m' ∧ m'.teamId = m.teamId) ∨
        u ∈ cfg.userIds ∧ ∃ team, v' (.team m.teamId) = some team ∧ team.gameId = g) :
    Referential cfg v' := by
  refine ⟨fun g u m hm => ?_, fun g u hne => ?_, fun T hT => ?_⟩
  · rcases hmembers g u m hm with ⟨m', hm', hteam⟩ | ⟨-, hteam⟩
    · obtain ⟨team, hrow, rfl⟩ := h.team g u m' hm'
      rw [← hteam]
      exact hteams m'.teamId team hrow
    · exact hteam
  · obtain ⟨m, hm⟩ := Option.ne_none_iff_exists'.1 hne
    rcases hmembers g u m hm with ⟨m', hm', -⟩ | ⟨hu, -⟩
    · exact h.user g u (by simp [hm'])
    · exact hu
  · rcases hlisted T hT with hT | hT
    · exact h.listed T hT
    · exact hT

/-- Taking out a member. -/
lemma Referential.leave (h : Referential cfg v) (g u : Id) :
    Referential cfg (Function.update v (.member g u) none) := by
  refine h.step (fun T team hteam => ⟨team, update_member_team.trans hteam, rfl⟩)
    (fun T hT => .inl (by rwa [update_member_team] at hT)) fun g' u' m hm => .inl ?_
  by_cases hk : (Key.member g' u' : Key) = .member g u
  · obtain ⟨rfl, rfl⟩ := Key.member.inj hk
    rw [Function.update_self] at hm
    cases hm
  · rw [Function.update_of_ne hk] at hm
    exact ⟨m, hm, rfl⟩

/-- Setting a member. -/
lemma Referential.setMember (h : Referential cfg v) {g u : Id} {m : Member} {team : Team}
    (hteam : v (.team m.teamId) = some team) (hgame : team.gameId = g) (hu : u ∈ cfg.userIds) :
    Referential cfg (Function.update v (.member g u) (some m)) := by
  refine h.step (fun T team hteam => ⟨team, update_member_team.trans hteam, rfl⟩)
    (fun T hT => .inl (by rwa [update_member_team] at hT)) fun g' u' m' hm => ?_
  by_cases hk : (Key.member g' u' : Key) = .member g u
  · obtain ⟨rfl, rfl⟩ := Key.member.inj hk
    rw [Function.update_self] at hm
    obtain rfl := Option.some.inj hm
    exact .inr ⟨hu, team, update_member_team.trans hteam, hgame⟩
  · rw [Function.update_of_ne hk] at hm
    exact .inl ⟨m', hm, rfl⟩

/-- Setting a team that stays in its game, or is new. -/
lemma Referential.setTeam (h : Referential cfg v) {T : Id} {team : Team}
    (hgame : ∀ team', v (.team T) = some team' → team.gameId = team'.gameId)
    (hT : v (.team T) ≠ none ∨ T ∈ cfg.teamIds) :
    Referential cfg (Function.update v (.team T) (some team)) := by
  refine h.step (fun T' team' hteam' => ?_) (fun T' hT' => ?_) fun g u m hm => .inl ⟨m, ?_, rfl⟩
  · by_cases hk : T' = T
    · subst hk
      exact ⟨team, Function.update_self _ _ _, hgame team' hteam'⟩
    · exact ⟨team', by rw [Function.update_of_ne (by simpa using hk)]; exact hteam', rfl⟩
  · by_cases hk : T' = T
    · exact hk ▸ hT
    · rw [Function.update_of_ne (by simpa using hk)] at hT'
      exact .inl hT'
  · rwa [Function.update_of_ne (by simp)] at hm

/-- **The rows still refer to rows there are.** -/
lemma Deed.referential (h : Deed S t v v') (hv : Referential S.cfg v) : Referential S.cfg v' := by
  cases h with
  | kept h => exact h ▸ hv
  | settled _ _ _ h =>
    subst h
    exact hv.step (fun T team hteam => ⟨team, by simpa using hteam, rfl⟩)
      (fun T hT => .inl (by simpa using hT)) fun g u m hm => .inl ⟨m, by simpa using hm, rfl⟩
  | joined hteam _ huser _ h =>
    subst h
    exact hv.setMember hteam rfl huser
  | left _ _ _ h =>
    subst h
    exact hv.leave _ _
  | created hteam _ huser hlisted _ h =>
    subst h
    refine (hv.setTeam (fun team' hteam' => ?_) (.inr hlisted)).setMember
      (Function.update_self _ _ _) rfl huser
    rw [hteam] at hteam'
    cases hteam'
  | renamed hteam _ h =>
    subst h
    refine hv.setTeam (fun team' hteam' => ?_) (.inl (by simp [hteam]))
    obtain rfl := Option.some.inj (hteam.symm.trans hteam')
    rfl
  | @disbanded T team hteam h =>
    subst h
    refine ⟨fun g u m hm => ?_, fun g u hne => ?_, fun T' hT' => ?_⟩
    · obtain ⟨hm, hne⟩ := Option.filter_eq_some_iff.1 hm
      obtain ⟨team', hteam', hgame⟩ := hv.team g u m hm
      exact ⟨team', (if_neg (of_decide_eq_true hne)).trans hteam', hgame⟩
    · refine hv.user g u fun hnone => hne ?_
      show (v (.member g u)).filter _ = none
      rw [hnone]
      rfl
    · refine hv.listed T' fun hnone => hT' ?_
      show (if T' = T then none else v (.team T')) = none
      rw [hnone, ite_self]
  | @promoted T u team hteam hmember _ h =>
    refine hv.step (fun T' team' hteam' => ⟨team', (h _ (by simp)).trans hteam', rfl⟩)
      (fun T' hT' => .inl (by rwa [h _ (by simp)] at hT')) fun g u' m hm => .inl ?_
    rcases hmember g u' with hsame | ⟨m', hm', -, hnew⟩
    · exact ⟨m, hsame.symm.trans hm, rfl⟩
    · obtain rfl := Option.some.inj (hnew.symm.trans hm)
      exact ⟨m', hm', rfl⟩
  | @replaced T u s team m ms hteam hmember hsuccessor _ _ h =>
    subst h
    obtain ⟨team', hteam', -, hms⟩ := memberOf_eq_some.1 hsuccessor
    obtain rfl := Option.some.inj (hteam.symm.trans hteam')
    have hrow : v (.team ms.promoted.teamId) = some team := by
      rw [show ms.promoted.teamId = T from hms]
      exact hteam
    exact (hv.leave _ _).setMember (update_member_team.trans hrow) rfl
      (hv.mem_userIds ⟨ms, hsuccessor⟩)

/-! ### Captains -/

/-- Taking out a member that is no captain, or the last one. -/
lemma MannedTeam.leave {T u : Id} {team : Team} {m : Member} (h : MannedTeam v T)
    (hteam : v (.team T) = some team) (hm : memberOf v T u = some m)
    (hlast : m.isCaptain = true → ∀ u', IsMember v T u' → u' = u) :
    MannedTeam (Function.update v (.member team.gameId u) none) T := by
  set v' := Function.update v (.member team.gameId u) none with hv'
  have hself : memberOf v' T u = none := memberOf_update_self hteam
  have hother : ∀ u', u' ≠ u → memberOf v' T u' = memberOf v T u' :=
    fun u' hu' => memberOf_update_of_user_ne hu'
  have hne : ∀ u', IsMember v' T u' → u' ≠ u := by
    rintro u' ⟨m', hm'⟩ rfl
    rw [hself] at hm'
    cases hm'
  intro u' hu'
  have hold : IsMember v T u' := by
    rw [IsMember, ← hother u' (hne u' hu')]
    exact hu'
  obtain ⟨c, hc, huniq⟩ := h u' hold
  have hcu : c ≠ u := by
    rintro rfl
    obtain ⟨m', hm', hcaptain⟩ := hc
    obtain rfl := Option.some.inj (hm.symm.trans hm')
    exact hne u' hu' (hlast hcaptain u' hold)
  refine ⟨c, ?_, fun c' hc' => huniq c' ?_⟩
  · rwa [IsCaptain, hother c hcu]
  · have hcu' : c' ≠ u := hne c' hc'.isMember
    rwa [IsCaptain, hother c' hcu'] at hc'

/-- A member that is no captain comes to a team that has members. -/
lemma MannedTeam.join {T u : Id} {team : Team} {now : ℤ} (h : MannedTeam v T)
    (hteam : v (.team T) = some team) (hnone : v (.member team.gameId u) = none)
    (hmember : ∃ u, IsMember v T u) :
    MannedTeam (Function.update v (.member team.gameId u) (some ⟨T, false, now⟩)) T := by
  set v' := Function.update v (.member team.gameId u) (some (⟨T, false, now⟩ : Member)) with hv'
  have hself : memberOf v' T u = some ⟨T, false, now⟩ := by
    rw [memberOf_update_self hteam]
    simp
  have hold : memberOf v T u = none := by
    rw [memberOf_of_team hteam, hnone]
    rfl
  have hother : ∀ u', u' ≠ u → memberOf v' T u' = memberOf v T u' :=
    fun u' hu' => memberOf_update_of_user_ne hu'
  have hcaptain : ∀ c, IsCaptain v' T c ↔ IsCaptain v T c := by
    intro c
    by_cases hc : c = u
    · subst hc
      simp [IsCaptain, hself, hold]
    · rw [IsCaptain, IsCaptain, hother c hc]
  obtain ⟨u₀, hu₀⟩ := hmember
  obtain ⟨c, hc, huniq⟩ := h u₀ hu₀
  exact fun u' _ => ⟨c, (hcaptain c).2 hc, fun c' hc' => huniq c' ((hcaptain c').1 hc')⟩

/-- The captain is taken out, and another member is made captain. -/
lemma MannedTeam.replace {T u s : Id} {team : Team} {m ms : Member} (h : MannedTeam v T)
    (hteam : v (.team T) = some team) (hm : memberOf v T u = some m)
    (hcaptain : m.isCaptain = true) (hs : memberOf v T s = some ms) (hne : s ≠ u) :
    MannedTeam (Function.update (Function.update v (.member team.gameId u) none)
      (.member team.gameId s) (some ms.promoted)) T := by
  set w := Function.update v (.member team.gameId u) none with hw
  set v' := Function.update w (.member team.gameId s) (some ms.promoted) with hv'
  have hwteam : w (.team T) = some team := update_member_team.trans hteam
  obtain ⟨-, -, -, hteamId⟩ := memberOf_eq_some.1 hs
  have hself : memberOf v' T s = some ms.promoted := by
    rw [memberOf_update_self hwteam, Option.filter_eq_some_iff]
    exact ⟨rfl, decide_eq_true hteamId⟩
  have hgone : memberOf v' T u = none := by
    rw [memberOf_update_of_user_ne hne.symm, memberOf_update_self hteam]
    rfl
  have hother : ∀ u', u' ≠ s → u' ≠ u → memberOf v' T u' = memberOf v T u' := fun u' h₁ h₂ =>
    (memberOf_update_of_user_ne h₁).trans (memberOf_update_of_user_ne h₂)
  obtain ⟨c, -, huniq⟩ := h u ⟨m, hm⟩
  have hcu : u = c := huniq u ⟨m, hm, hcaptain⟩
  refine fun u' _ => ⟨s, ⟨_, hself, rfl⟩, fun c' hc' => ?_⟩
  by_contra hcs
  by_cases hcu' : c' = u
  · subst hcu'
    obtain ⟨m', hm', -⟩ := hc'
    rw [hgone] at hm'
    cases hm'
  · rw [IsCaptain, hother c' hcs hcu'] at hc'
    exact hcu' ((huniq c' hc').trans hcu.symm)

/-- **A team that has a member still has one captain.** -/
lemma Deed.manned (h : Deed S t v v') (hS : S.manned) (hv : Referential S.cfg v) (hm : Manned v) :
    Manned v' := by
  cases h with
  | kept h => exact h ▸ hm
  | settled _ _ _ h =>
    subst h
    exact fun T => (hm T).congr fun u => memberOf_congr (by simp) fun _ _ => by simp
  | @joined T u team now hteam hnone _ hmember h =>
    subst h
    intro T'
    by_cases hT : T' = T
    · subst hT
      exact (hm T').join hteam hnone (hmember hS)
    · refine (hm T').congr fun u' => memberOf_update_of_ne (fun m hm' => ?_) fun m hm' => ?_
      · rw [hnone] at hm'
        cases hm'
      · obtain rfl := Option.some.inj hm'
        exact fun he => hT he.symm
  | @left T u team m hteam hmember hlast h =>
    subst h
    intro T'
    by_cases hT : T' = T
    · subst hT
      exact (hm T').leave hteam hmember (hlast hS)
    · obtain ⟨team', hteam', hrow, hteamId⟩ := memberOf_eq_some.1 hmember
      obtain rfl := Option.some.inj (hteam.symm.trans hteam')
      refine (hm T').congr fun u' => memberOf_update_of_ne (fun m' hm' => ?_) fun m' hm' => ?_
      · obtain rfl := Option.some.inj (hrow.symm.trans hm')
        exact fun he => hT (he.symm.trans hteamId)
      · cases hm'
  | @created T u data now hteam hnone _ _ _ h =>
    subst h
    set w := Function.update v (.team T)
      (some (⟨data.name, data.pass, data.bio, data.gameId, false, false, false⟩ : Team)) with hw
    have hwteam : w (.team T) = some ⟨data.name, data.pass, data.bio, data.gameId, false, false,
        false⟩ := Function.update_self _ _ _
    have hwmember : ∀ g u', w (.member g u') = v (.member g u') :=
      fun g u' => Function.update_of_ne (by simp) _ _
    intro T'
    by_cases hT : T' = T
    · subst hT
      have hself := memberOf_update_self (u := u) (x := some ⟨T', true, now⟩) hwteam
      rw [Option.filter_some, if_pos (decide_eq_true rfl)] at hself
      have honly : ∀ u', IsMember (Function.update w (.member data.gameId u)
          (some ⟨T', true, now⟩)) T' u' → u' = u := by
        rintro u' ⟨m', hm'⟩
        by_contra hu'
        rw [memberOf_update_of_user_ne hu', memberOf_of_team hwteam, hwmember,
          Option.filter_eq_some_iff, decide_eq_true_eq] at hm'
        obtain ⟨team', hteam', -⟩ := hv.team _ u' m' hm'.1
        rw [hm'.2, hteam] at hteam'
        cases hteam'
      exact fun u' _ => ⟨u, ⟨_, hself, rfl⟩, fun c' hc' => honly c' hc'.isMember⟩
    · refine (hm T').congr fun u' => (memberOf_update_of_ne (fun m' hm' => ?_) fun m' hm' => ?_).trans
        (memberOf_congr (by rw [hw, Function.update_of_ne (by simpa using hT)]) fun _ _ =>
          hwmember _ _)
      · rw [hwmember, hnone] at hm'
        cases hm'
      · obtain rfl := Option.some.inj hm'
        exact fun he => hT he.symm
  | @renamed T team data hteam _ h =>
    subst h
    refine fun T' => (hm T').congr fun u => memberOf_congr ?_ fun _ _ => by simp
    by_cases hT : T' = T
    · subst hT
      simp [hteam, Team.updated]
    · rw [Function.update_of_ne (by simpa using hT)]
  | @disbanded T team hteam h =>
    subst h
    intro T'
    by_cases hT : T' = T
    · subst hT
      rintro u ⟨m, hm'⟩
      obtain ⟨team', hteam', -⟩ := memberOf_eq_some.1 hm'
      rw [show View.dropTeam v T' (.team T') = none from if_pos rfl] at hteam'
      cases hteam'
    · refine (hm T').congr fun u => memberOf_congr_of_filter (if_neg hT) fun g => ?_
      show ((v (.member g u)).filter _).filter _ = _
      rw [Option.filter_filter]
      congr 1
      funext m
      by_cases hmT : m.teamId = T'
      · simp [hmT, hT]
      · simp [hmT]
  | @promoted T u team hteam hmember hcaptain h =>
    intro T'
    by_cases hT : T' = T
    · subst hT
      obtain ⟨hu, huniq⟩ := hcaptain hS
      exact fun _ _ => ⟨u, hu, huniq⟩
    · refine (hm T').congr fun u' => memberOf_congr_of_filter (h _ (by simp)) fun g => ?_
      rcases hmember g u' with hsame | ⟨m, hrow, hteamId, hnew⟩
      · rw [hsame]
      · rw [hnew, hrow, Option.filter_some, Option.filter_some]
        have hmT : ¬ m.teamId = T' := fun he => hT (he.symm.trans hteamId)
        simp [hmT]
  | @replaced T u s team m ms hteam hmember hsuccessor hne hcaptain h =>
    subst h
    intro T'
    by_cases hT : T' = T
    · subst hT
      exact (hm T').replace hteam hmember (hcaptain hS) hsuccessor hne
    · obtain ⟨team', hteam', hrow, hteamId⟩ := memberOf_eq_some.1 hmember
      obtain rfl := Option.some.inj (hteam.symm.trans hteam')
      obtain ⟨team', hteam', hrows, hteamIds⟩ := memberOf_eq_some.1 hsuccessor
      obtain rfl := Option.some.inj (hteam.symm.trans hteam')
      refine (hm T').congr fun u' => (memberOf_update_of_ne (fun m' hm' => ?_) fun m' hm' => ?_).trans
        (memberOf_update_of_ne (fun m' hm' => ?_) fun m' hm' => ?_)
      · rw [Function.update_of_ne (fun hk => hne (Key.member.inj hk).2)] at hm'
        obtain rfl := Option.some.inj (hrows.symm.trans hm')
        exact fun he => hT (he.symm.trans hteamIds)
      · obtain rfl := Option.some.inj hm'
        exact fun he => hT (he.symm.trans hteamIds)
      · obtain rfl := Option.some.inj (hrow.symm.trans hm')
        exact fun he => hT (he.symm.trans hteamId)
      · cases hm'

/-! ### Names -/

/-- No two teams of the game have one normalised name. -/
def DistinctNames (cfg : Config) (g : Id) (v : View) : Prop :=
  ∀ n T T', Named cfg g n (v (.team T)) → Named cfg g n (v (.team T')) → T = T'

/-- The names of the teams of the game must differ. -/
def NamesDiffer (v : View) (g : Id) : Prop :=
  ∀ game, v (.game g) = some game → allowDuplicateNames game.settings = false

/-- Fewer teams. -/
lemma DistinctNames.mono {g : Id} (h : DistinctNames cfg g v)
    (hle : ∀ n T, Named cfg g n (v' (.team T)) → Named cfg g n (v (.team T))) :
    DistinctNames cfg g v' :=
  fun n T T' hT hT' => h n T T' (hle n T hT) (hle n T' hT')

/-- A team gets a name that is free. -/
lemma DistinctNames.name {g T : Id} {team : Team} (h : DistinctNames cfg g v)
    (hv : Referential cfg v) (hdiffer : NamesDiffer v g)
    (hfree : team.gameId = g → Free cfg v g team.name T) :
    DistinctNames cfg g (Function.update v (.team T) (some team)) := by
  have hother : ∀ T', T' ≠ T →
      Function.update v (.team T) (some team) (.team T') = v (.team T') :=
    fun T' hT' => Function.update_of_ne (by simpa using hT') _ _
  have hclash : ∀ n T', T' ≠ T → Named cfg g n (some team) → ¬ Named cfg g n (v (.team T')) := by
    rintro n T' hT' ⟨team₁, he, hgame, rfl⟩ hnamed
    obtain rfl := Option.some.inj he
    obtain ⟨game, hrow, hnone⟩ := hfree hgame
    obtain ⟨team', hteam', -⟩ := id hnamed
    exact hnone (hdiffer game hrow) T' (hv.listed T' (by simp [hteam'])) hT' hnamed
  intro n T₁ T₂ h₁ h₂
  by_cases hT₁ : T₁ = T
  · by_cases hT₂ : T₂ = T
    · exact hT₁.trans hT₂.symm
    · subst hT₁
      rw [Function.update_self] at h₁
      rw [hother T₂ hT₂] at h₂
      exact absurd h₂ (hclash n T₂ hT₂ h₁)
  · by_cases hT₂ : T₂ = T
    · subst hT₂
      rw [Function.update_self] at h₂
      rw [hother T₁ hT₁] at h₁
      exact absurd h₁ (hclash n T₁ hT₁ h₂)
    · rw [hother T₁ hT₁] at h₁
      rw [hother T₂ hT₂] at h₂
      exact h n T₁ T₂ h₁ h₂

/-- **No two teams have one name still**, where names must differ. -/
lemma Deed.distinctNames {g : Id} (h : Deed S t v v') (hv : Referential S.cfg v)
    (hdiffer : NamesDiffer v g) (hn : DistinctNames S.cfg g v) : DistinctNames S.cfg g v' := by
  cases h with
  | kept h => exact h ▸ hn
  | settled _ _ _ h =>
    subst h
    exact hn.mono fun n T hT => by simpa using hT
  | joined _ _ _ _ h =>
    subst h
    exact hn.mono fun n T hT => by rwa [update_member_team] at hT
  | left _ _ _ h =>
    subst h
    exact hn.mono fun n T hT => by rwa [update_member_team] at hT
  | @created T u data now hteam _ _ _ hfree h =>
    subst h
    refine (hn.name hv hdiffer fun hgame => ?_).mono fun n T hT => by
      rwa [update_member_team] at hT
    subst hgame
    exact hfree
  | @renamed T team data hteam hname h =>
    subst h
    rcases hname with hsame | hfree
    · refine hn.mono fun n T' hT' => ?_
      by_cases hT : T' = T
      · subst hT
        rw [Function.update_self] at hT'
        obtain ⟨team', he, hgame, rfl⟩ := hT'
        obtain rfl := Option.some.inj he
        exact ⟨team, hteam, hgame, hsame.symm⟩
      · rwa [Function.update_of_ne (by simpa using hT)] at hT'
    · refine hn.name hv hdiffer fun hgame => ?_
      subst hgame
      exact hfree
  | @disbanded T team hteam h =>
    subst h
    refine hn.mono fun n T' hT' => ?_
    by_cases hT : T' = T
    · rw [show View.dropTeam v T (.team T') = none from if_pos hT] at hT'
      obtain ⟨team', he, -⟩ := hT'
      cases he
    · rwa [show View.dropTeam v T (.team T') = v (.team T') from if_neg hT] at hT'
  | promoted _ _ _ h => exact hn.mono fun n T hT => by rwa [h _ (by simp)] at hT
  | replaced _ _ _ _ _ h =>
    subst h
    exact hn.mono fun n T hT => by rwa [update_member_team, update_member_team] at hT

/-! ### Games -/

/-- The games are those there have been. -/
lemma Deed.game_isSome {g : Id} (h : Deed S t v v') :
    (v' (.game g)).isSome = (v (.game g)).isSome := by
  cases h with
  | kept h => rw [h]
  | @settled g' data game stored _ hrow _ h =>
    subst h
    by_cases hg : g = g'
    · subst hg
      simp [hrow]
    · rw [Function.update_of_ne (by simpa using hg)]
  | joined _ _ _ _ h | left _ _ _ h | created _ _ _ _ _ h | renamed _ _ h | replaced _ _ _ _ _ h =>
    subst h
    simp
  | disbanded _ h =>
    subst h
    rfl
  | promoted _ _ _ h => rw [h _ (by simp)]

end Keep

/-! ## Rows and locks -/

/-- What the rows guard: while the row of a team is held, others add no members to it; while the row
of a game is held, others give no names to its teams. -/
def GuardedRow (cfg : Config) : (guard k : Key) → Val k → Val k → Prop
  | .team T, .member .., x, y =>
    (∃ m, y = some m ∧ m.teamId = T) → ∃ m, x = some m ∧ m.teamId = T
  | .game g, .team _, x, y => ∀ n, Named cfg g n y → Named cfg g n x
  | _, _, _, _ => True

lemma GuardedRow.refl {cfg : Config} {guard k : Key} (x : Val k) : GuardedRow cfg guard k x x := by
  cases guard <;> cases k <;> first | exact trivial | exact id | exact fun _ => id

lemma GuardedRow.trans {cfg : Config} {guard k : Key} {x y z : Val k}
    (h : GuardedRow cfg guard k x y) (h' : GuardedRow cfg guard k y z) :
    GuardedRow cfg guard k x z := by
  cases guard <;> cases k <;>
    first | exact trivial | exact fun hz => h (h' hz) | exact fun n hz => h n (h' n hz)

/-- The contract of the calls. -/
def guardedRows (cfg : Config) : Contract Val := ⟨GuardedRow cfg, GuardedRow.refl, GuardedRow.trans⟩

/-- **What a call does that stores settings**: nothing, where there is no such game. -/
inductive Settles (S : Setting) (g : Id) (data : RbGameUpdateData) (v v' : View) : Prop where
  | kept (h : v' = v) (hnone : v (.game g) = none)
  | stored {game : Game} {stored : Option Value} (hrow : v (.game g) = some game)
      (hstored : Stored S game data stored)
      (h : v' = Function.update v (.game g) (some (game.updated data stored)))

/-- A commit of a pool. -/
structure Does (S : Setting) (e : TeamCommit) : Prop where
  deed : Deed S e.tid e.before e.after
  settles : ∀ g data, S.calls e.tid = .updateGame g data → Settles S g data e.before e.after

/-- What a draft must be for its commit to be one of the pool. -/
def Writes (S : Setting) (dr : Draft Val Record) : Prop :=
  Deed S dr.tid dr.before dr.after ∧ dr.Respects (guardedRows S.cfg)

/-- A draft that gives names to teams of games it holds, and members to teams it holds, keeps to what
the rows guard. -/
lemma respects_of {cfg : Config} {dr : Draft Val Record}
    (hteam : ∀ T g n, Named cfg g n (dr.after (.team T)) → Named cfg g n (dr.before (.team T)) ∨
      Key.game g ∈ dr.held)
    (hmember : ∀ g u m, dr.after (.member g u) = some m →
      (∃ m', dr.before (.member g u) = some m' ∧ m'.teamId = m.teamId) ∨
        Key.team m.teamId ∈ dr.held) : dr.Respects (guardedRows cfg) := by
  intro guard hguard k
  cases guard with
  | game g =>
    cases k with
    | team T => exact fun n hn => (hteam T g n hn).resolve_right hguard
    | _ => trivial
  | team T =>
    cases k with
    | member g u =>
      rintro ⟨m, hm, rfl⟩
      exact (hmember g u m hm).resolve_right hguard
    | _ => trivial
  | _ => cases k <;> trivial

end Teams
