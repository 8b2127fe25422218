import RbphBackend.Teams.Conduct

set_option relaxedAutoImplicit false
set_option autoImplicit false

/-!
# Deleting teams and handing on the role of captain

A team is deleted with all its members; a promotion hands on the role of captain; and the staff takes
out a member, for whom another one becomes captain.

## Main results

* `Teams.disbandBody_part`, `Teams.promoteBody_part`, `Teams.removeBody_part` — the transactions.
* `Teams.Removing.writes`, `Teams.Replacing.writes` — a removal is a deed.
-/

namespace Teams

open Concurrency ReadCommitted Games

section Parts

variable {S : Setting} {t : Tid} {T u g : Id}

/-! ## Disbanding -/

/-- The `DELETE` of a team and of the members it has seen leaves neither, where these are all its
members. -/
lemma applyPuts_deleteTeam {cfg : Config} {v : View} {team : Team} {users : List Id}
    (hv : Referential cfg v) (hteam : v (.team T) = some team)
    (hall : ∀ u, IsMember v T u → u ∈ users) (hmembers : ∀ u ∈ users, IsMember v T u) :
    applyPuts (⟨.team T, none⟩ :: users.map fun u => ⟨.member team.gameId u, none⟩) v =
      View.dropTeam v T := by
  refine applyPuts_eq_of_forall (fun p hp => ?_) fun k hk => ?_
  · rcases List.mem_cons.1 hp with rfl | hp
    · exact (if_pos rfl).symm
    · obtain ⟨u, hu, rfl⟩ := List.mem_map.1 hp
      obtain ⟨m, hm⟩ := hmembers u hu
      obtain ⟨hrow, hteamId⟩ := (memberOf_eq_some_of_team hteam).1 hm
      show none = (v (.member team.gameId u)).filter fun m => decide (m.teamId ≠ T)
      rw [hrow, Option.filter_some, if_neg (by simp [hteamId])]
  · cases k with
    | game g => rfl
    | gameFeature g featureType => rfl
    | team T' => exact (if_neg fun h => hk (by simp [h])).symm
    | member g u =>
      show v (.member g u) = (v (.member g u)).filter fun m => decide (m.teamId ≠ T)
      cases hrow : v (.member g u) with
      | none => rfl
      | some m =>
        have hteamId : m.teamId ≠ T := by
          rintro rfl
          obtain ⟨team', hteam', rfl⟩ := hv.team g u m hrow
          obtain rfl := Option.some.inj (hteam.symm.trans hteam')
          exact hk (by simpa using hall u ⟨m, hv.memberOf hrow⟩)
        rw [Option.filter_some, if_pos (decide_eq_true hteamId)]

/-- A draft without a team that there is, is what a commit does. -/
lemma writes_of_dropTeam {team : Team} {dr : Draft Val Record}
    (hbefore : dr.before (.team T) = some team) (hafter : dr.after = View.dropTeam dr.before T) :
    Writes S dr := by
  refine ⟨.disbanded hbefore hafter, respects_of (fun T' g n hn => .inl ?_) fun g u m hm => .inl ?_⟩
  · rw [hafter] at hn
    by_cases hT : T' = T
    · rw [show View.dropTeam dr.before T (.team T') = none from if_pos hT] at hn
      obtain ⟨team', he, -⟩ := hn
      cases he
    · rwa [show View.dropTeam dr.before T (.team T') = dr.before (.team T') from if_neg hT] at hn
  · rw [hafter] at hm
    exact ⟨m, (Option.filter_eq_some_iff.1 hm).1, rfl⟩

/-- Deleting a team: the members that the statement takes with it are all there are, because others
add none once the row of the team is locked. -/
lemma deleteTeam_part :
    Part S t (Begun t) (Tx.query t .stmt (deleteTeam S.cfg T)) fun deleted dr =>
      deleted ≠ none → Writes S dr := by
  refine Part.query fun dr₀ dr eff h₀ h hs₀ hs he hlater hval => ?_
  have hbegun : Wrote t [] [] (fun _ => True) dr := h ▸ Wrote.begun
  have hafter : dr₀.after = dr₀.before := by rw [h₀]; rfl
  unfold deleteTeam at he
  cases hteam : dr₀.after (.team T) with
  | none =>
    rw [hteam] at he
    obtain rfl := Except.ok.inj he
    exact absurd rfl hval
  | some team =>
    rw [hteam] at he
    obtain rfl := Except.ok.inj he
    have hkeep := fun k hk => (hbegun.later_eq hlater (k := k) (.inl hk)).1
    have hbefore : dr.before (.team T) = some team := by
      rw [hkeep _ List.mem_cons_self, ← hafter]
      exact hteam
    have hall : ∀ u, IsMember dr.before T u → u ∈ (membersOf S.cfg dr₀.after T).map Prod.fst := by
      rintro u ⟨m, hm⟩
      obtain ⟨hrow, hteamId⟩ := (memberOf_eq_some_of_team hbefore).1 hm
      rw [← hbegun.after_eq] at hrow
      obtain ⟨m', hm', hteamId'⟩ := hlater.guarded (.team T) (by simp [Effect.keys])
        (.member team.gameId u) ⟨m, hrow, hteamId⟩
      exact List.mem_map.2 ⟨(u, m'), membersOf_mem_iff.2 ⟨hs.referential.mem_userIds ⟨m, hm⟩,
        (memberOf_eq_some_of_team hteam).2 ⟨hm', hteamId'⟩⟩, rfl⟩
    have hmembers : ∀ u ∈ (membersOf S.cfg dr₀.after T).map Prod.fst, IsMember dr.before T u := by
      intro u hu
      obtain ⟨p, hp, rfl⟩ := List.mem_map.1 hu
      have hm := (memberOf_eq_some_of_team hteam).1 (membersOf_mem_iff.1 hp).2
      refine ⟨p.2, (memberOf_eq_some_of_team hbefore).2 ⟨?_, hm.2⟩⟩
      rw [hkeep _ (List.mem_cons_of_mem _ (List.mem_map.2 ⟨_, List.mem_map.2 ⟨p, hp, rfl⟩, rfl⟩)),
        ← hafter]
      exact hm.1
    have hdrop := applyPuts_deleteTeam hs.referential hbefore hall hmembers
    rw [List.map_map] at hdrop
    refine writes_of_dropTeam hbefore ?_
    rw [Draft.add_after, hbegun.after_eq]
    exact hdrop

/-- **Disbanding a team** is a deed. -/
lemma disbandBody_part :
    Part S t (Begun t) (disbandBody S.cfg t T) fun r dr => r.1 = true → Writes S dr := by
  refine Part.skip.bind fun members => ?_
  split_ifs
  · exact refused_part
  refine deleteTeam_part.bind fun deleted => ?_
  cases deleted with
  | none => exact refused_part
  | some gameId =>
    refine Draws.bind (insertEvent_writes.conseq (fun _ _ h => h (by simp)) (fun _ _ _ h => h)
      fun _ _ h => h) fun _ => Draws.pure fun dr _ h _ => h

/-! ## Captains -/

/-- A row that is written by the `UPDATE` of the members: a member's, with or without the role. -/
lemma setCaptain_eq_some {v : View} {isCaptain : Id → Bool} {p : Σ k, Val k}
    (h : setCaptain v T isCaptain u = some p) : ∃ team m, v (.team T) = some team ∧
      memberOf v T u = some m ∧
        p = ⟨.member team.gameId u, some { m with isCaptain := isCaptain u }⟩ := by
  unfold setCaptain at h
  split at h
  · rename_i team m hteam hm
    exact ⟨team, m, hteam, hm, (Option.some.inj h).symm⟩
  · cases h

lemma setCaptain_of_member {v : View} {isCaptain : Id → Bool} {team : Team} {m : Member}
    (hteam : v (.team T) = some team) (hm : memberOf v T u = some m) :
    setCaptain v T isCaptain u =
      some ⟨.member team.gameId u, some { m with isCaptain := isCaptain u }⟩ := by
  unfold setCaptain
  rw [hteam, hm]

/-- The rows that the `UPDATE` of the members writes. -/
abbrev captainPuts (v : View) (T u : Id) (members : List Id) : List (Σ k, Val k) :=
  members.filterMap (setCaptain v T fun member => decide (member = u))

lemma mem_captainPuts {v : View} {members : List Id} {p : Σ k, Val k}
    (h : p ∈ captainPuts v T u members) :
    ∃ u' team m, u' ∈ members ∧ v (.team T) = some team ∧ memberOf v T u' = some m ∧
      p = ⟨.member team.gameId u', some { m with isCaptain := decide (u' = u) }⟩ := by
  obtain ⟨u', hu', hp⟩ := List.mem_filterMap.1 h
  obtain ⟨team, m, hteam, hm, rfl⟩ := setCaptain_eq_some hp
  exact ⟨u', team, m, hu', hteam, hm, rfl⟩

lemma key_mem_captainPuts {v : View} {members : List Id} {team : Team} {u' : Id}
    (hteam : v (.team T) = some team) (hmember : IsMember v T u') (hu' : u' ∈ members) :
    Key.member team.gameId u' ∈ (captainPuts v T u members).map (·.1) := by
  obtain ⟨m, hm⟩ := hmember
  exact List.mem_map.2 ⟨_, List.mem_filterMap.2 ⟨u', hu', setCaptain_of_member hteam hm⟩, rfl⟩

section Captains

variable {v w : View} {members : List Id}

/-- The rows of members after the `UPDATE`, from rows that are those it has seen where it writes
them. -/
lemma member_captainPuts (hkeep : ∀ k ∈ (captainPuts v T u members).map (·.1), w k = v k)
    (g u' : Id) :
    (Key.member g u' ∉ (captainPuts v T u members).map (·.1) ∧
      applyPuts (captainPuts v T u members) w (.member g u') = w (.member g u')) ∨
      ∃ m, w (.member g u') = some m ∧ m.teamId = T ∧
        applyPuts (captainPuts v T u members) w (.member g u') =
          some { m with isCaptain := decide (u' = u) } := by
  rcases applyPuts_cases (captainPuts v T u members) w (.member g u') with h | ⟨x, hx, h⟩
  · exact .inl h
  · obtain ⟨u'', team, m, hu'', hteam, hm, he⟩ := mem_captainPuts hx
    cases he
    obtain ⟨hrow, hteamId⟩ := (memberOf_eq_some_of_team hteam).1 hm
    exact .inr ⟨m, (hkeep _ (List.mem_map_of_mem hx)).trans hrow, hteamId, h⟩

/-- The other rows. -/
lemma rest_captainPuts {k : Key} (hk : ∀ g u', k ≠ .member g u') :
    applyPuts (captainPuts v T u members) w k = w k := by
  refine applyPuts_of_notMem fun hmem => ?_
  obtain ⟨p, hp, rfl⟩ := List.mem_map.1 hmem
  obtain ⟨u', team, m, -, -, -, rfl⟩ := mem_captainPuts hp
  exact hk _ _ rfl

/-- **The promoted member is the one captain**, where the team had one captain when the statement ran
and when it commits, and the statement has seen that captain and finds the promoted one. -/
lemma captain_captainPuts (hkeep : ∀ k ∈ (captainPuts v T u members).map (·.1), w k = v k)
    (hw : Referential S.cfg w) (hmv : MannedTeam v T) (hmw : MannedTeam w T)
    (hu : IsMember v T u) (hmem : u ∈ members) (hcaptains : ∀ c, IsCaptain v T c → c ∈ members) :
    IsCaptain (applyPuts (captainPuts v T u members) w) T u ∧
      ∀ u', IsCaptain (applyPuts (captainPuts v T u members) w) T u' → u' = u := by
  set w' := applyPuts (captainPuts v T u members) w with hw'
  obtain ⟨m, hm⟩ := id hu
  obtain ⟨team, hteam, hrow, hteamId⟩ := memberOf_eq_some.1 hm
  -- the team that is there when the members are written, and when it commits
  have hkey : ∀ u', IsMember v T u' → u' ∈ members →
      Key.member team.gameId u' ∈ (captainPuts v T u members).map (·.1) :=
    fun u' hu' hmem' => key_mem_captainPuts hteam hu' hmem'
  obtain ⟨team', hteam', hgame⟩ := hw.team team.gameId u m ((hkeep _ (hkey u hu hmem)).trans hrow)
  rw [hteamId] at hteam'
  have hteamw : w' (.team T) = some team' := (rest_captainPuts (by simp)).trans hteam'
  refine ⟨?_, fun u' ⟨m', hm', hcaptain⟩ => ?_⟩
  · rcases member_captainPuts hkeep team.gameId u with ⟨hnot, -⟩ | ⟨m', -, hteamId', hnew⟩
    · exact absurd (hkey u hu hmem) hnot
    · refine ⟨{ m' with isCaptain := decide (u = u) }, ?_, decide_eq_true rfl⟩
      exact (memberOf_eq_some_of_team hteamw).2 ⟨hgame ▸ hnew, hteamId'⟩
  · obtain ⟨hrow', hteamId'⟩ := (memberOf_eq_some_of_team hteamw).1 hm'
    rw [hgame] at hrow'
    rcases member_captainPuts hkeep team.gameId u' with ⟨hnot, hsame⟩ | ⟨m'', -, -, hnew⟩
    · -- the captain that has been seen is captain still, and so the member that is not written
      obtain ⟨c, hc, -⟩ := hmv u hu
      have hmemc : c ∈ members := hcaptains c hc
      obtain ⟨mc, hmc, hcaptainc⟩ := id hc
      obtain ⟨hrowc, hteamIdc⟩ := (memberOf_eq_some_of_team hteam).1 hmc
      have hcw : IsCaptain w T c := by
        refine ⟨mc, (memberOf_eq_some_of_team hteam').2 ⟨?_, hteamIdc⟩, hcaptainc⟩
        rw [hgame]
        exact (hkeep _ (hkey c hc.isMember hmemc)).trans hrowc
      have hu'w : IsCaptain w T u' := by
        refine ⟨m', (memberOf_eq_some_of_team hteam').2 ⟨?_, hteamId'⟩, hcaptain⟩
        rw [hgame]
        exact hsame.symm.trans hrow'
      obtain ⟨c', -, huniq⟩ := hmw c hcw.isMember
      obtain rfl : c = u' := (huniq c hcw).trans (huniq u' hu'w).symm
      exact absurd (hkey c hc.isMember hmemc) hnot
    · obtain rfl := Option.some.inj (hnew.symm.trans hrow')
      exact of_decide_eq_true hcaptain

end Captains

/-- Handing on the role of captain. -/
lemma updateCaptains_part {members : List Id} :
    Part S t (fun dr => Begun t dr ∧ u ∈ members)
      (Tx.query t (.promoting T u members) (updateCaptains T u members)) fun _ => Writes S := by
  refine Draws.statement (fun v _ => S.manned → IsMember v T u ∧ ∀ c, IsCaptain v T c → c ∈ members)
    (fun _ => sound_of_admitted) (fun d hd => hd.1.2) fun dr₀ dr eff h₀ h hs₀ hs hc he hlater => ?_
  have hbegun : Wrote t [] [] (fun _ => True) dr := h.1 ▸ Wrote.begun
  have hafter : dr₀.after = dr₀.before := by rw [h₀.1]; rfl
  unfold updateCaptains at he
  obtain rfl := Except.ok.inj he
  have hkeep : ∀ k ∈ (captainPuts dr₀.after T u members).map (·.1), dr.before k = dr₀.after k :=
    fun k hk => hafter ▸ (hbegun.later_eq hlater (k := k) (.inl hk)).1
  have hrows : (dr.add ({ val := (), puts := captainPuts dr₀.after T u members } :
      Effect Val Record Unit)).after = applyPuts (captainPuts dr₀.after T u members) dr.before := by
    rw [Draft.add_after, hbegun.after_eq]
  refine ⟨?_, respects_of (fun T' g n hn => .inl ?_) fun g u' m hm => .inl ?_⟩
  · by_cases hnil : captainPuts dr₀.after T u members = []
    · refine .kept ?_
      show applyPuts (captainPuts dr₀.after T u members) dr.after = dr.before
      rw [hnil, hbegun.after_eq, applyPuts_nil]
    · obtain ⟨p, hp⟩ := List.exists_mem_of_ne_nil _ hnil
      obtain ⟨u', team, m, -, hteam, hm, rfl⟩ := mem_captainPuts hp
      obtain ⟨hrow, hteamId⟩ := (memberOf_eq_some_of_team hteam).1 hm
      obtain ⟨team', hteam', -⟩ := hs.referential.team team.gameId u' m
        ((hkeep _ (List.mem_map_of_mem hp)).trans hrow)
      rw [hteamId] at hteam'
      refine .promoted (u := u) hteam' (fun g u' => ?_) (fun hS => ?_) fun k hk => ?_
      · rw [hrows]
        exact (member_captainPuts hkeep g u').imp (fun h => h.2) id
      · rw [hrows]
        obtain ⟨hmember, hcaptains⟩ := hc hS
        rw [← hafter] at hmember hcaptains
        exact captain_captainPuts hkeep hs.referential (hafter ▸ hs₀.manned hS T) (hs.manned hS T)
          hmember h.2 hcaptains
      · rw [hrows]
        exact rest_captainPuts hk
  · rwa [hrows, rest_captainPuts (by simp)] at hn
  · rw [hrows] at hm
    rcases member_captainPuts hkeep g u' with ⟨-, hsame⟩ | ⟨m', hm', -, hnew⟩
    · exact ⟨m, hsame.symm.trans hm, rfl⟩
    · obtain rfl := Option.some.inj (hnew.symm.trans hm)
      exact ⟨m', hm', rfl⟩

/-- **Handing on the role of captain** is a deed. -/
lemma promoteBody_part :
    Part S t (Begun t) (promoteBody S.cfg t T u) fun r dr => r.1 = true → Writes S dr := by
  refine Draws.bind (N := fun found dr => Begun t dr ∧ ∀ g, found.1 = some g → u ∈ found.2)
    (Part.read fun dr₀ dr b h₀ h hs₀ _ he _ => ⟨h, fun g hg => ?_⟩) fun found => ?_
  · obtain rfl := Except.ok.inj he
    obtain ⟨m, hm, -⟩ := Option.bind_eq_some_iff.1 hg
    have hafter : dr₀.after = dr₀.before := by rw [h₀]; rfl
    have hu : u ∈ S.cfg.userIds := hs₀.referential.mem_userIds (T := T) ⟨m, hafter ▸ hm⟩
    exact List.mem_map.2 ⟨(u, m), membersOf_mem_iff.2 ⟨hu, hm⟩, rfl⟩
  · rcases found with ⟨_ | gameId, members⟩
    · exact refused_part
    · refine Draws.bind (updateCaptains_part.conseq (fun _ _ h => ⟨h.1, h.2 gameId rfl⟩)
        (fun _ _ _ h => h) fun _ _ h => h) fun _ => Draws.pure fun dr _ h _ => h

/-! ## Removal by the staff -/

/-- The draft without a member. -/
def Removing (t : Tid) (T u : Id) (dr : Draft Val Record) : Prop :=
  ∃ g m, Wrote t [.member g u] [⟨.member g u, none⟩]
    (fun v => v (.member g u) = some m ∧ m.teamId = T) dr

/-- The draft without a member, and with another one as captain. -/
def Replacing (S : Setting) (t : Tid) (T u : Id) (dr : Draft Val Record) : Prop :=
  ∃ g m s g' ms, s ≠ u ∧ (S.manned → m.isCaptain = true) ∧
    Wrote t [.member g' s, .member g u]
      [⟨.member g u, none⟩, ⟨.member g' s, some (Member.promoted ms)⟩]
      (fun v => (v (.member g u) = some m ∧ m.teamId = T) ∧
        v (.member g' s) = some ms ∧ ms.teamId = T) dr

/-- The team that the member is taken out of. -/
lemma Removing.out {dr : Draft Val Record} (h : Removing t T u dr) (hs : Referential S.cfg dr.before) :
    ∃ team m, dr.before (.team T) = some team ∧ memberOf dr.before T u = some m ∧
      dr.after = Function.update dr.before (.member team.gameId u) none := by
  obtain ⟨g, m, h⟩ := h
  obtain ⟨hrow, rfl⟩ := h.facts
  obtain ⟨team, hteam, rfl⟩ := hs.team g u m hrow
  exact ⟨team, m, hteam, hs.memberOf hrow, h.after⟩

/-- What is taken out is the same later. -/
lemma Removing.member_eq {keys : List Key} {dr₀ dr : Draft Val Record} (h₀ : Removing t T u dr₀)
    (hs₀ : Referential S.cfg dr₀.before) (hs : Referential S.cfg dr.before)
    (hlater : dr₀.Later (guardedRows S.cfg) keys dr) :
    memberOf dr.before T u = memberOf dr₀.before T u := by
  obtain ⟨g, m, h₀⟩ := h₀
  obtain ⟨hrow, rfl⟩ := h₀.facts
  have hkeep : dr.before (.member g u) = some m := by
    rw [hlater.before_eq _ (List.mem_append_right _ (hlater.held ▸ h₀.held _ (by simp)))]
    exact hrow
  rw [hs.memberOf hkeep, hs₀.memberOf hrow]

lemma oldest_mem {ps : List (Id × Member)} {p : Id × Member} (h : oldest ps = some p) : p ∈ ps := by
  induction ps generalizing p with
  | nil => cases h
  | cons q ps ih =>
    unfold oldest at h
    split at h
    · obtain rfl := Option.some.inj h
      exact List.mem_cons_self
    · rename_i r hr
      split_ifs at h
      · obtain rfl := Option.some.inj h
        exact List.mem_cons_of_mem _ (ih hr)
      · obtain rfl := Option.some.inj h
        exact List.mem_cons_self

/-- The `DELETE` of the member. -/
lemma adminDeleteMember_part :
    Part S t (Begun t) (Tx.query t .stmt (adminDeleteMember T u)) fun deleted dr =>
      deleted = true → Removing t T u dr := by
  refine Part.query fun dr₀ dr eff h₀ h _ _ he hlater hval => ?_
  have hbegun : Wrote t [] [] (fun _ => True) dr := h ▸ Wrote.begun
  have hafter : dr₀.after = dr₀.before := by rw [h₀]; rfl
  unfold adminDeleteMember at he
  split at he
  · rename_i team m hteam hm
    obtain rfl := Except.ok.inj he
    obtain ⟨hrow, hteamId⟩ := (memberOf_eq_some_of_team hteam).1 hm
    refine ⟨team.gameId, m, hbegun.put.know ⟨?_, hteamId⟩⟩
    rw [Draft.add_before, (hbegun.later_eq hlater (k := .member team.gameId u) (.inl (by
      simp [Effect.keys]))).1, ← hafter]
    exact hrow
  · obtain rfl := Except.ok.inj he
    cases hval

/-- A team without a captain has lost the one that has been taken out. -/
lemma isCaptain_of_removing {dr : Draft Val Record} (h : Removing t T u dr)
    (hs : Referential S.cfg dr.before) (hm : MannedTeam dr.before T)
    (hnone : ∀ p ∈ membersOf S.cfg dr.after T, p.2.isCaptain ≠ true) : IsCaptain dr.before T u := by
  obtain ⟨team, m, hteam, hmember, hafter⟩ := h.out hs
  obtain ⟨c, hc, -⟩ := hm u ⟨m, hmember⟩
  by_cases hcu : c = u
  · exact hcu ▸ hc
  · obtain ⟨mc, hmc, hcaptain⟩ := id hc
    refine absurd hcaptain (hnone (c, mc) (membersOf_mem_iff.2 ⟨hs.mem_userIds hc.isMember, ?_⟩))
    rw [hafter, memberOf_update_of_user_ne hcu]
    exact hmc

/-- There is a captain, or it is the one that has been taken out. -/
lemma hasCaptain_part :
    Part S t (Removing t T u) (Tx.query t .stmt (hasCaptain S.cfg T)) fun found dr =>
      Removing t T u dr ∧ (found = false → S.manned → IsCaptain dr.before T u) := by
  refine Part.read fun dr₀ dr b h₀ h hs₀ hs he hlater => ⟨h, fun hb hS => ?_⟩
  obtain rfl := Except.ok.inj he
  have hcaptain : IsCaptain dr₀.before T u := by
    refine isCaptain_of_removing h₀ hs₀.referential (hs₀.manned hS T) fun p hp hc => ?_
    rw [List.any_eq_false] at hb
    exact hb p hp hc
  rw [IsCaptain, h₀.member_eq hs₀.referential hs.referential hlater]
  exact hcaptain

/-- The one to be captain is another one. -/
lemma selectOldest_part :
    Part S t (fun dr => Removing t T u dr ∧ (S.manned → IsCaptain dr.before T u))
      (Tx.query t .stmt (selectOldest S.cfg T)) fun found dr =>
        (Removing t T u dr ∧ (S.manned → IsCaptain dr.before T u)) ∧
          ∀ s, found = some s → s ≠ u := by
  refine Part.read fun dr₀ dr b h₀ h hs₀ _ he _ => ⟨h, fun s hs => ?_⟩
  obtain rfl := Except.ok.inj he
  obtain ⟨p, hp, rfl⟩ := Option.map_eq_some_iff.1 hs
  obtain ⟨team, m, hteam, -, hafter⟩ := h₀.1.out hs₀.referential
  have hmember := (membersOf_mem_iff.1 (oldest_mem hp)).2
  intro hu
  rw [hu, hafter, memberOf_update_self hteam] at hmember
  cases hmember

/-- The other one is captain, if it is a member still. -/
lemma appoint_part {s : Id} :
    Part S t (fun dr => (Removing t T u dr ∧ (S.manned → IsCaptain dr.before T u)) ∧ s ≠ u)
      (Tx.query t .stmt (appoint T s)) fun _ dr =>
        Removing t T u dr ∨ Replacing S t T u dr := by
  refine Part.query fun dr₀ dr eff h₀ h hs₀ hs he hlater => ?_
  unfold appoint at he
  cases hput : setCaptain dr₀.after T (fun _ => true) s with
  | none =>
    rw [hput] at he
    obtain rfl := Except.ok.inj he
    refine .inl ?_
    rw [Option.toList_none, Draft.add_read]
    exact h.1.1
  | some p =>
    rw [hput] at he
    obtain rfl := Except.ok.inj he
    obtain ⟨team, ms, hteam, hms, rfl⟩ := setCaptain_eq_some hput
    obtain ⟨hrow, hteamId⟩ := (memberOf_eq_some_of_team hteam).1 hms
    obtain ⟨team₀, m₀, hteam₀, -, hafter₀⟩ := h₀.1.1.out hs₀.referential
    obtain ⟨⟨⟨g, m, h⟩, hcaptain⟩, hne⟩ := h
    refine .inr ⟨g, m, s, team.gameId, ms, hne, fun hS => ?_, h.put.know ⟨h.facts, ?_, hteamId⟩⟩
    · obtain ⟨m', hm', hc⟩ := hcaptain hS
      obtain ⟨hrow', rfl⟩ := h.facts
      obtain rfl := Option.some.inj ((hs.referential.memberOf hrow').symm.trans hm')
      exact hc
    · rw [hafter₀, Function.update_of_ne (fun hk => h₀.2 (Key.member.inj hk).2)] at hrow
      exact (h.later_eq hlater (.inl (by simp [Effect.keys]))).1.trans hrow

lemma appointCaptain_part :
    Part S t (Removing t T u) (appointCaptain S.cfg t T) fun _ dr =>
      Removing t T u dr ∨ Replacing S t T u dr := by
  refine hasCaptain_part.bind fun found => ?_
  cases found with
  | true => exact Draws.pure fun _ _ h => .inl h.1
  | false =>
    refine Draws.bind (selectOldest_part.conseq (fun _ _ h => ⟨h.1, h.2 rfl⟩) (fun _ _ _ h => h)
      fun _ _ h => h) fun found => ?_
    cases found with
    | none => exact Draws.pure fun _ _ h => .inl h.1.1
    | some s =>
      exact appoint_part.conseq (fun _ _ h => ⟨h.1, h.2 s rfl⟩) (fun _ _ _ h => h) fun _ _ h => h

/-- **Removing a member** takes it out, and may make another one captain. -/
lemma removeBody_part :
    Part S t (Begun t) (removeBody S.cfg t T u g) fun r dr =>
      r.1 = true → Removing t T u dr ∨ Replacing S t T u dr := by
  refine Part.skip.bind fun found => ?_
  cases found with
  | false => exact refused_part
  | true =>
    refine Part.skip.bind fun count => ?_
    split_ifs
    · exact refused_part
    refine adminDeleteMember_part.bind fun deleted => ?_
    cases deleted with
    | false => exact refused_part
    | true =>
      exact Draws.bind (appointCaptain_part.conseq (fun _ _ h => h rfl) (fun _ _ _ h => h)
        fun _ _ h => h) fun _ => Draws.pure fun dr _ h _ => h

/-- Taking out a member is a deed where it leaves a captain if it leaves members. -/
lemma Removing.writes {dr : Draft Val Record} (h : Removing t T u dr) (hs : Sound S dr.before)
    (hmanned : S.manned → ¬ IsMember dr.after T u → (∃ u', IsMember dr.after T u') →
      ∃ u', IsCaptain dr.after T u') : Writes S dr := by
  obtain ⟨team, m, hteam, hm, hafter⟩ := h.out hs.referential
  have hgone : ¬ IsMember dr.after T u := by
    rintro ⟨m', hm'⟩
    rw [hafter, memberOf_update_self hteam] at hm'
    cases hm'
  have hothers : ∀ u', u' ≠ u → memberOf dr.after T u' = memberOf dr.before T u' := fun u' hu' => by
    rw [hafter, memberOf_update_of_user_ne hu']
  refine left_writes hteam hm (fun hS hcaptain u' hu' => ?_) hafter
  by_contra hne
  obtain ⟨c, hc⟩ := hmanned hS hgone ⟨u', by rwa [IsMember, hothers u' hne]⟩
  have hcu : c ≠ u := fun hcu => hgone (hcu ▸ hc.isMember)
  rw [IsCaptain, hothers c hcu] at hc
  obtain ⟨c', -, huniq⟩ := hs.manned hS T u ⟨m, hm⟩
  exact hcu ((huniq c hc).trans (huniq u ⟨m, hm, hcaptain⟩).symm)

/-- And so is taking out the captain for another one. -/
lemma Replacing.writes {dr : Draft Val Record} (h : Replacing S t T u dr) (hs : Sound S dr.before) :
    Writes S dr := by
  obtain ⟨g, m, s, g', ms, hne, hcaptain, h⟩ := h
  obtain ⟨⟨hrow, hteamId⟩, hrow', hteamId'⟩ := h.facts
  obtain ⟨team, hteam, rfl⟩ := hs.referential.team g u m hrow
  obtain ⟨team', hteam', rfl⟩ := hs.referential.team g' s ms hrow'
  rw [hteamId] at hteam
  rw [hteamId'] at hteam'
  obtain rfl := Option.some.inj (hteam.symm.trans hteam')
  have hm := (memberOf_eq_some_of_team hteam).2 ⟨hrow, hteamId⟩
  have hms := (memberOf_eq_some_of_team hteam).2 ⟨hrow', hteamId'⟩
  refine ⟨.replaced hteam hm hms hne hcaptain h.after, respects_of (fun T' g n hn => .inl ?_)
    fun g u' m' hm' => .inl ?_⟩
  · rwa [h.rest (by simp)] at hn
  · rcases applyPuts_cases _ dr.before (.member g u') with ⟨-, hsame⟩ | ⟨x, hx, hnew⟩
    · rw [h.after, hsame] at hm'
      exact ⟨m', hm', rfl⟩
    · rw [h.after, hnew] at hm'
      subst hm'
      rcases List.mem_cons.1 hx with he | hx
      · cases he
      · cases List.mem_singleton.1 hx
        exact ⟨ms, hrow', rfl⟩

end Parts

end Teams
