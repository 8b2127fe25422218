import Mathlib.Data.List.Count
import RbphBackend.Teams.Steps

set_option relaxedAutoImplicit false
set_option autoImplicit false

/-!
# The transactions about teams

What the transaction of each call has drafted after each of its statements, whatever the others commit
meanwhile, and that its commit is a deed.

## Main definitions

* `Teams.AdmitsSettling`, `Teams.AdmitsMembers` — a call finds what it has read.
* `Teams.Sound` — what holds of every committed state.
* `Teams.Part` — a part of a transaction, among the calls of a pool.

## Main results

* `Teams.updateBody_part`, `Teams.joinBody_part`, `Teams.createBody_part`,
  `Teams.userUpdateBody_part` — the transactions of settings, of new members and of names.
-/

namespace Teams

open Concurrency ReadCommitted Games

/-! ## Among the calls of a pool -/

/-- Settings are stored where they are still those that have been read. -/
def AdmitsSettling : Label → Store → Prop
  | .settling g (some read), d => (d.committed (.game g)).map Game.settings = some read
  | _, _ => True

/-- A captain leaves, or is taken out, as the last member; a new member finds one where it commits; a
removal by the staff leaves no members where it leaves no captain; and a promotion finds the user a
member still, and has seen the captain. -/
def AdmitsMembers (t : Tid) : Label → Store → Prop
  | .leaving T u, d => IsCaptain d.committed T u → ∀ u', IsMember d.committed T u' → u' = u
  | .joining T, d => (d.rows (.team T)).HeldBy t → ∃ u, IsMember d.committed T u
  | .removing T u, d => ¬ IsMember (d.view t) T u → (∃ u', IsMember (d.view t) T u') →
      ∃ u', IsCaptain (d.view t) T u'
  | .promoting T u members, d =>
    IsMember d.committed T u ∧ ∀ c, IsCaptain d.committed T c → c ∈ members
  | _, _ => True

/-- What holds where an action is taken. -/
def Admitted (S : Setting) (t : Tid) (l : Label) (d : Store) : Prop :=
  ((S.settled → AdmitsSettling l d) ∧ (S.manned → AdmitsMembers t l d)) ∧
    Journaled (Does S) S.origin d

/-- What holds of every committed state. -/
structure Sound (S : Setting) (v : View) : Prop where
  referential : Referential S.cfg v
  manned : S.manned → Manned v
  games : ∀ g, (v (.game g)).isSome = (S.origin (.game g)).isSome

/-- What the other calls of the pool do. -/
abbrev Among (S : Setting) (t : Tid) : Store → Store → Prop :=
  (guards (guardedRows S.cfg) (Does S) S.origin).Others t

/-- A part of the transaction of a call. -/
abbrev Part {α : Type} (S : Setting) (t : Tid) (M : Draft Val Record → Prop) (p : Call α)
    (N : α → Draft Val Record → Prop) : Prop :=
  Draws (Among S t) (Admitted S t) (guardedRows S.cfg) t (Sound S) M p N fun _ => True

/-- The draft of a transaction that has just begun. -/
abbrev Begun (t : Tid) (dr : Draft Val Record) : Prop := dr = .begun t dr.start dr.before

section Parts

variable {S : Setting} {t : Tid} {l : Label} {H : List Key} {W : List (Σ k, Val k)}
  {F : View → Prop} {T u g : Id}

lemma Deed.sound {v v' : View} (h : Deed S t v v') (hv : Sound S v) : Sound S v' :=
  ⟨h.referential hv.referential, fun hS => h.manned hS hv.referential (hv.manned hS),
    fun g => h.game_isSome.trans (hv.games g)⟩

lemma sound_of_journaled {d : Store} (h : Journaled (Does S) S.origin d) : Sound S d.committed :=
  h.linked.invariant (p := Sound S) ⟨S.referential, S.begins, fun _ => rfl⟩
    fun e he hv => (h.commits e he).deed.sound hv

lemma sound_of_admitted {d : Store} (h : Admitted S t l d) : Sound S d.committed :=
  sound_of_journaled h.2

/-- A statement that writes rows or locks them. -/
lemma Part.query {β : Type} {stmt : Statement β} {M : Draft Val Record → Prop}
    {N : β → Draft Val Record → Prop}
    (hN : ∀ dr₀ dr eff, M dr₀ → M dr → Sound S dr₀.before → Sound S dr.before →
      stmt dr₀.after dr₀.start = .ok eff → dr₀.Later (guardedRows S.cfg) eff.keys dr →
      N eff.val (dr.add eff)) :
    Part S t M (Tx.query t l stmt) N :=
  Draws.query (fun _ => True) (fun _ => sound_of_admitted) (fun _ _ => trivial)
    fun dr₀ dr eff h₀ h hs₀ hs _ => hN dr₀ dr eff h₀ h hs₀ hs

/-- A statement that reads. -/
lemma Part.read {β : Type} {f : View → ℤ → Except String β} {M : Draft Val Record → Prop}
    {N : β → Draft Val Record → Prop}
    (hN : ∀ dr₀ dr b, M dr₀ → M dr → Sound S dr₀.before → Sound S dr.before →
      f dr₀.after dr₀.start = .ok b → dr₀.Later (guardedRows S.cfg) [] dr → N b dr) :
    Part S t M (Tx.query t l (Stmt.read f)) N :=
  Draws.read (fun _ => sound_of_admitted) hN

/-- A statement whose result does not matter. -/
lemma Part.skip {β : Type} {f : View → ℤ → Except String β} {M : Draft Val Record → Prop} :
    Part S t M (Tx.query t l (Stmt.read f)) fun _ => M :=
  Part.read fun _ _ _ _ h _ _ _ _ => h

/-- A statement on another connection. -/
lemma Part.pool {β : Type} {f : View → ℤ → Except String β} {M : Draft Val Record → Prop} :
    Part S t M (Tx.pool t l (Stmt.read f)) fun _ => M :=
  Draws.pool_read.conseq (fun _ _ h => h) (fun _ _ _ h => h) fun _ _ _ => trivial

/-- An event, where inserting one changes nothing. -/
lemma insertEvent_part {event : EventLogInput} {M : Draft Val Record → Prop}
    (hM : ∀ dr (inserts : List Record), M dr →
      M (dr.add ({ val := (), inserts := inserts } : Effect Val Record Unit))) :
    Part S t M (Tx.query t .stmt (insertEvent event)) fun _ => M := by
  refine Part.query fun dr₀ dr eff _ h _ _ he _ => ?_
  unfold insertEvent at he
  split_ifs at he
  obtain rfl := Except.ok.inj he
  exact hM dr _ h

/-- An event changes nothing of what a commit does. -/
lemma insertEvent_writes {event : EventLogInput} :
    Part S t (Writes S) (Tx.query t .stmt (insertEvent event)) fun _ => Writes S :=
  insertEvent_part fun _ _ h => h

/-- A part that returns what is not to be committed. -/
lemma refused_part {α : Type} {M N : Draft Val Record → Prop} {a : α} :
    Part S t M (return (false, a)) fun r dr => r.1 = true → N dr :=
  Draws.pure fun _ _ _ h => by cases h

/-! ## Drafts that are deeds -/

/-- A draft that changes nothing. -/
lemma kept_writes {dr : Draft Val Record} (hsame : dr.after = dr.before) : Writes S dr := by
  refine ⟨.kept hsame, respects_of (fun T g n hn => .inl ?_) fun g u m hm => .inl ⟨m, ?_, rfl⟩⟩
  · rwa [hsame] at hn
  · rwa [hsame] at hm

/-- A draft without a member, who is the last one if it is captain. -/
lemma left_writes {team : Team} {m : Member} {dr : Draft Val Record}
    (hteam : dr.before (.team T) = some team) (hm : memberOf dr.before T u = some m)
    (hmanned : S.manned → m.isCaptain = true → ∀ u', IsMember dr.before T u' → u' = u)
    (hafter : dr.after = Function.update dr.before (.member team.gameId u) none) : Writes S dr := by
  refine ⟨.left hteam hm hmanned hafter, respects_of (fun T' g n hn => .inl ?_) fun g u' m' hm' =>
    .inl ⟨m', ?_, rfl⟩⟩
  · rwa [hafter, update_member_team] at hn
  · by_cases hk : (Key.member g u' : Key) = .member team.gameId u
    · obtain ⟨rfl, rfl⟩ := Key.member.inj hk
      rw [hafter, Function.update_self] at hm'
      cases hm'
    · rwa [hafter, Function.update_of_ne hk] at hm'

/-! ## Settings -/

/-- What `update` has drafted: the row of the game, if there is one. -/
def Updates (S : Setting) (t : Tid) (g : Id) (data : RbGameUpdateData) (stored : Option Value)
    (dr : Draft Val Record) : Prop :=
  (∃ game, Wrote t [.game g] [⟨.game g, some (game.updated data stored)⟩]
      (fun v => v (.game g) = some game) dr ∧ Stored S game data stored) ∨
    Wrote t [] [] (fun v => v (.game g) = none) dr

lemma updateRow_part {data : RbGameUpdateData} {stored : Option Value}
    (hstored : ∀ d, Admitted S t l d → ∀ game, d.committed (.game g) = some game →
      Stored S game data stored) :
    Part S t (Begun t) (Tx.query t l (updateRow g data stored))
      fun _ => Updates S t g data stored := by
  refine Draws.statement (fun v _ => ∀ game, v (.game g) = some game → Stored S game data stored)
    (fun _ => sound_of_admitted) hstored fun dr₀ dr eff h₀ h hs₀ hs hc he hlater => ?_
  have hbegun : Wrote t [] [] (fun _ => True) dr := h ▸ Wrote.begun
  have hafter : dr₀.after = dr₀.before := by rw [h₀]; rfl
  unfold updateRow at he
  rw [hafter] at he
  split at he
  · rename_i hnone
    obtain rfl := Except.ok.inj he
    refine .inr (hbegun.log.know ?_)
    have hsame := (hs.games g).trans (hs₀.games g).symm
    rw [hnone] at hsame
    simpa using hsame
  · rename_i game hgame
    obtain rfl := Except.ok.inj he
    refine .inl ⟨game, hbegun.put.know ?_, hc game hgame⟩
    exact (hbegun.later_eq hlater (.inl (by simp [Effect.keys]))).1.trans hgame

/-- A draft of settings is what a commit does. -/
lemma Updates.settles {data : RbGameUpdateData} {stored : Option Value} {dr : Draft Val Record}
    (h : Updates S t g data stored dr) (hcall : S.calls t = .updateGame g data) :
    Writes S dr ∧ Settles S g data dr.before dr.after := by
  rcases h with ⟨game, h, hstored⟩ | h
  · have hrest : ∀ k, k ≠ .game g → dr.after k = dr.before k :=
      fun k hk => h.rest (by simpa using hk)
    refine ⟨⟨?_, respects_of (fun T g n hn => .inl ?_) fun g u m hm => .inl ⟨m, ?_, rfl⟩⟩,
      .stored h.facts hstored h.after⟩
    · rw [h.tid]
      exact .settled hcall h.facts hstored h.after
    · rwa [hrest _ (by simp)] at hn
    · rwa [hrest _ (by simp)] at hm
  · exact ⟨kept_writes h.after_eq, .kept h.after_eq h.facts⟩

/-- **Storing settings** is a deed. -/
lemma updateBody_part {data : RbGameUpdateData} (hcall : S.calls t = .updateGame g data) :
    Part S t (Begun t) (updateBody t g data) fun r dr =>
      (r.1 = true → Writes S dr ∧ Settles S g data dr.before dr.after) ∧
        (r.1 = false → r.2 = false) := by
  unfold updateBody
  split
  · rename_i hnone
    refine (updateRow_part fun d hd game hgame => .inl ⟨hnone, rfl⟩).bind fun updated => ?_
    exact Draws.pure fun dr _ h => ⟨fun _ => h.settles hcall, fun he => (by cases he)⟩
  · rename_i patch hpatch
    refine Part.skip.bind fun current => ?_
    cases current with
    | none => exact Draws.pure fun _ _ _ => ⟨fun he => (by cases he), fun _ => rfl⟩
    | some current =>
      refine (updateRow_part fun d hd game hgame =>
        .inr ⟨patch, current, hpatch, rfl, fun hS => ?_⟩).bind fun updated => ?_
      · have hread : (d.committed (.game g)).map Game.settings = some current := hd.1.1 hS
        rw [hgame] at hread
        exact Option.some.inj hread
      · exact Draws.pure fun dr _ h => ⟨fun _ => h.settles hcall, fun he => (by cases he)⟩

/-! ## Joining -/

section Count

variable {cfg : Config} {v v' : View}

lemma length_membersOf :
    (membersOf cfg v T).length = cfg.userIds.countP fun u => (memberOf v T u).isSome := by
  simp [membersOf, List.length_filterMap_eq_countP]

/-- Fewer members. -/
lemma length_membersOf_mono (h : ∀ u, IsMember v' T u → IsMember v T u) :
    (membersOf cfg v' T).length ≤ (membersOf cfg v T).length := by
  rw [length_membersOf, length_membersOf]
  refine List.countP_mono_left fun u _ hu => ?_
  exact Option.isSome_iff_exists.2 (h u (Option.isSome_iff_exists.1 hu))

/-- Counting by a test that differs at one place. -/
lemma countP_le_succ {p q : Id → Bool} {users : List Id} (hnodup : users.Nodup)
    (h : ∀ u' ∈ users, u' ≠ u → q u' = true → p u' = true) :
    users.countP q ≤ users.countP p + 1 := by
  induction users with
  | nil => simp
  | cons a users ih =>
    rw [List.nodup_cons] at hnodup
    by_cases ha : a = u
    · subst ha
      have hle : users.countP q ≤ users.countP p := List.countP_mono_left fun u' hu' hq =>
        h u' (List.mem_cons_of_mem _ hu') (fun he => hnodup.1 (he ▸ hu')) hq
      rw [List.countP_cons, List.countP_cons]
      split_ifs <;> omega
    · have hle := ih hnodup.2 fun u' hu' => h u' (List.mem_cons_of_mem _ hu')
      have hfirst := h a List.mem_cons_self ha
      rw [List.countP_cons, List.countP_cons]
      by_cases hq : q a = true
      · rw [if_pos hq, if_pos (hfirst hq)]
        omega
      · rw [if_neg hq]
        split_ifs <;> omega

/-- One more member at most. -/
lemma length_membersOf_update (hnodup : cfg.userIds.Nodup) {x : Option Member} :
    (membersOf cfg (Function.update v (.member g u) x) T).length ≤
      (membersOf cfg v T).length + 1 := by
  rw [length_membersOf, length_membersOf]
  refine countP_le_succ (u := u) hnodup fun u' _ hu' h => ?_
  rwa [memberOf_update_of_user_ne hu'] at h

end Count

/-- The user can come to the team: there is place for one more member. -/
structure Joinable (S : Setting) (T u : Id) (team : Team) (maxMembers : Option ℤ) (v : View) :
    Prop where
  row : v (.team T) = some team
  absent : v (.member team.gameId u) = none
  user : u ∈ S.cfg.userIds
  place : ∀ n, maxMembers = some n → ((membersOf S.cfg v T).length : ℤ) < n

/-- What `join` has drafted: the new member. -/
def Joins (S : Setting) (t : Tid) (T u : Id) (r : Bool × JoinAnswer) (dr : Draft Val Record) :
    Prop :=
  (r.1 = true → r.2.result = .ok ∧ ∃ team now, Wrote t [.member team.gameId u, .team T]
      [⟨.member team.gameId u, some ⟨T, false, now⟩⟩] (Joinable S T u team r.2.maxMembers) dr) ∧
    (r.1 = false → r.2.result ≠ .ok)

lemma refused_joins {M : Draft Val Record → Prop} {answer : JoinAnswer}
    (h : answer.result ≠ .ok) : Part S t M (return (false, answer)) (Joins S t T u) :=
  Draws.pure fun _ _ _ => ⟨fun he => (by cases he), fun _ => h⟩

/-- The `INSERT` of a member. -/
lemma insertMember_eq_ok {cfg : Config} {isCaptain doNothing : Bool} {v : View} {now : ℤ}
    {eff : Effect Val Record Bool}
    (h : insertMember cfg T u isCaptain doNothing v now = .ok eff) :
    eff = { val := false } ∨ ∃ team, v (.team T) = some team ∧ u ∈ cfg.userIds ∧
      v (.member team.gameId u) = none ∧ eff = {
        val := true
        puts := [⟨.member team.gameId u, some ⟨T, isCaptain, now⟩⟩] } := by
  unfold insertMember at h
  cases hteam : v (.team T) with
  | none =>
    rw [hteam] at h
    cases h
  | some team =>
    rw [hteam] at h
    dsimp only at h
    by_cases hu : u ∈ cfg.userIds
    · rw [if_neg (not_not.2 hu)] at h
      cases hrow : v (.member team.gameId u) with
      | some m =>
        rw [hrow] at h
        dsimp only at h
        split_ifs at h
        exact .inl (Except.ok.inj h).symm
      | none =>
        rw [hrow] at h
        exact .inr ⟨team, rfl, hu, hrow, (Except.ok.inj h).symm⟩
    · rw [if_pos hu] at h
      cases h

/-- The team is locked. -/
lemma selectForJoin_part :
    Part S t (Begun t) (Tx.query t .stmt (selectForJoin T)) fun verify dr =>
      ∀ ver, verify = some ver →
        Wrote t [.team T] [] (fun v => ∃ team, v (.team T) = some team) dr := by
  refine Part.query fun dr₀ dr eff h₀ h _ _ he hlater ver hver => ?_
  have hbegun : Wrote t [] [] (fun _ => True) dr := h ▸ Wrote.begun
  have hafter : dr₀.after = dr₀.before := by rw [h₀]; rfl
  unfold selectForJoin at he
  split at he
  · obtain rfl := Except.ok.inj he
    cases hver
  · rename_i team hteam
    obtain rfl := Except.ok.inj he
    obtain ⟨hbefore, hsame⟩ := hbegun.later_eq hlater (k := .team T) (.inl (by
      simp [Effect.keys, lockRow]))
    refine (hbegun.lock hsame.symm).know ⟨team, ?_⟩
    rw [Draft.add_before, hbefore, ← hafter]
    exact hteam

/-- The team is there, with place for one more member. -/
abbrev HasPlace (S : Setting) (T : Id) (maxMembers : Option ℤ) (v : View) : Prop :=
  (∃ team, v (.team T) = some team) ∧
    ∀ n, maxMembers = some n → ((membersOf S.cfg v T).length : ℤ) < n

/-- The members are counted while the team is held: others add none. -/
lemma teamFull_part {maxMembers : Option ℤ} :
    Part S t (Wrote t [.team T] [] fun v => ∃ team, v (.team T) = some team)
      (teamFull S.cfg t T maxMembers) fun full dr => full = false →
        Wrote t [.team T] [] (HasPlace S T maxMembers) dr := by
  unfold teamFull
  split
  · exact Draws.pure fun dr _ h _ => h.know ⟨h.facts, fun n hn => by cases hn⟩
  · rename_i n
    refine Draws.bind (N := fun count dr =>
      Wrote t [.team T] [] (fun v => ∃ team, v (.team T) = some team) dr ∧
        (membersOf S.cfg dr.before T).length ≤ count) ?_ fun count => ?_
    · refine Part.read fun dr₀ dr b _ h _ _ he hlater => ⟨h, ?_⟩
      obtain rfl := Except.ok.inj he
      rw [← h.after_eq]
      refine length_membersOf_mono fun u ⟨m, hm⟩ => ?_
      obtain ⟨team', hteam', hrow, hteamId⟩ := memberOf_eq_some.1 hm
      rw [(h.later_eq hlater (k := .team T) (.inr (List.mem_singleton_self _))).2] at hteam'
      obtain ⟨m', hm', hteamId'⟩ := h.later_guarded hlater (k := .member team'.gameId u)
        (List.mem_singleton_self (Key.team T)) ⟨m, hrow, hteamId⟩
      exact ⟨m', memberOf_eq_some.2 ⟨team', hteam', hm', hteamId'⟩⟩
    · refine Draws.pure fun dr _ h hfull => h.1.know ⟨h.1.facts, fun n' hn' => ?_⟩
      obtain rfl := Option.some.inj hn'
      have hlt : (count : ℤ) < n := not_le.1 (of_decide_eq_false hfull)
      have hle := h.2
      omega

/-- The new member. -/
lemma joinInsert_part {maxMembers : Option ℤ} :
    Part S t (Wrote t [.team T] [] (HasPlace S T maxMembers))
      (joinInsert S.cfg t T u g maxMembers) (Joins S t T u) := by
  refine Draws.bind (N := fun inserted dr => inserted = true → ∃ team now,
    Wrote t [.member team.gameId u, .team T] [⟨.member team.gameId u, some ⟨T, false, now⟩⟩]
      (Joinable S T u team maxMembers) dr) ?_ fun inserted => ?_
  · refine Part.query fun dr₀ dr eff h₀ h _ _ he hlater hval => ?_
    rcases insertMember_eq_ok he with rfl | ⟨team, hteam, hu, hnone, rfl⟩
    · cases hval
    · rw [h₀.after_eq] at hteam hnone
      have hkeep := fun k hk => (h.later_eq hlater (k := k) hk).1
      refine ⟨team, _, h.put.know ⟨?_, ?_, hu, h.facts.2⟩⟩
      · exact (hkeep _ (.inr (List.mem_singleton_self _))).trans hteam
      · exact (hkeep _ (.inl (by simp [Effect.keys]))).trans hnone
  · cases inserted with
    | false => exact refused_joins (by simp)
    | true =>
      refine Draws.bind (N := fun _ dr => ∃ team now,
        Wrote t [.member team.gameId u, .team T] [⟨.member team.gameId u, some ⟨T, false, now⟩⟩]
          (Joinable S T u team maxMembers) dr) ?_ fun _ =>
        Draws.pure fun dr _ h => ⟨fun _ => ⟨rfl, h⟩, fun h => by cases h⟩
      refine (insertEvent_part fun dr inserts h => ?_).conseq (fun _ _ h => h rfl)
        (fun _ _ _ h => h) fun _ _ h => h
      obtain ⟨team, now, h⟩ := h
      exact ⟨team, now, h.log⟩

/-- **Joining a team** adds the user, where there is place. -/
lemma joinBody_part {password : String} :
    Part S t (Begun t) (joinBody S.cfg t T u password) (Joins S t T u) := by
  refine selectForJoin_part.bind fun verify => ?_
  cases verify with
  | none => exact refused_joins (by simp)
  | some ver =>
    dsimp only
    unfold joinVerified
    split_ifs
    · exact refused_joins (by simp)
    · exact refused_joins (by simp)
    · exact refused_joins (by simp)
    · refine Part.pool.bind fun maxMembers => ?_
      cases maxMembers with
      | none => exact Draws.throw fun _ _ _ => trivial
      | some maxMembers =>
        refine Draws.bind (teamFull_part.conseq (fun _ _ h => h ver rfl) (fun _ _ _ h => h)
          fun _ _ _ => trivial) fun full => ?_
        cases full with
        | true => exact refused_joins (by simp)
        | false =>
          exact joinInsert_part.conseq (fun _ _ h => h rfl) (fun _ _ _ h => h) fun _ _ _ => trivial

/-- A new member is a deed where its team has one already. -/
lemma Joins.writes {r : JoinAnswer} {dr : Draft Val Record} (h : Joins S t T u (true, r) dr)
    (hmanned : S.manned → ∃ u', IsMember dr.before T u') : Writes S dr := by
  obtain ⟨-, team, now, h⟩ := h.1 rfl
  have hteams : ∀ T', dr.after (.team T') = dr.before (.team T') := fun T' => h.rest (by simp)
  refine ⟨.joined h.facts.row h.facts.absent h.facts.user hmanned h.after,
    respects_of (fun T' g n hn => .inl (hteams T' ▸ hn)) fun g' u' m hm => ?_⟩
  by_cases hk : (Key.member g' u' : Key) = .member team.gameId u
  · obtain ⟨rfl, rfl⟩ := Key.member.inj hk
    have hself : dr.after (.member team.gameId u') = some ⟨T, false, now⟩ := by
      rw [h.after]
      exact Function.update_self _ _ _
    obtain rfl := Option.some.inj (hself.symm.trans hm)
    exact .inr (h.held _ (by simp))
  · rw [h.rest (by simpa using hk)] at hm
    exact .inl ⟨m, hm, rfl⟩

/-! ## Names -/

/-- The policy of the names of a game, whose row is locked. -/
abbrev HasPolicy (g : Id) (allowed : Bool) (v : View) : Prop :=
  ∃ game, v (.game g) = some game ∧ allowDuplicateNames game.settings = allowed

lemma lockDuplicateNamePolicy_part :
    Part S t (Begun t) (Tx.query t .stmt (lockDuplicateNamePolicy g)) fun policy dr =>
      ∀ allowed, policy = some allowed → Wrote t [.game g] [] (HasPolicy g allowed) dr := by
  refine Part.query fun dr₀ dr eff h₀ h _ _ he hlater allowed hallowed => ?_
  have hbegun : Wrote t [] [] (fun _ => True) dr := h ▸ Wrote.begun
  have hafter : dr₀.after = dr₀.before := by rw [h₀]; rfl
  unfold lockDuplicateNamePolicy at he
  split at he
  · obtain rfl := Except.ok.inj he
    cases hallowed
  · rename_i game hgame
    obtain rfl := Except.ok.inj he
    obtain ⟨hbefore, hsame⟩ := hbegun.later_eq hlater (k := .game g) (.inl (by
      simp [Effect.keys, lockRow]))
    refine (hbegun.lock hsame.symm).know ⟨game, ?_, Option.some.inj hallowed⟩
    rw [Draft.add_before, hbefore, ← hafter]
    exact hgame

/-- A name that is not found is free while the game is held: others give no names to its teams. -/
lemma nameConflict_part {allowed : Bool} {name : String} {exclude : Option Id}
    (hg : Key.game g ∈ H) (hF : ∀ v, F v → HasPolicy g allowed v)
    (hexclude : ∀ T', exclude = some T' → T' = T) :
    Part S t (Wrote t H [] F) (nameConflict S.cfg t allowed g name exclude) fun conflict dr =>
      conflict = false → Wrote t H [] (fun v => F v ∧ Free S.cfg v g name T) dr := by
  unfold nameConflict
  cases allowed with
  | true =>
    refine Draws.pure fun dr _ h _ => h.know ⟨h.facts, ?_⟩
    obtain ⟨game, hgame, hallowed⟩ := hF _ h.facts
    refine ⟨game, hgame, fun hdiffer => ?_⟩
    rw [hallowed] at hdiffer
    cases hdiffer
  | false =>
    refine Part.read fun dr₀ dr b _ h _ _ he hlater hb => h.know ⟨h.facts, ?_⟩
    obtain ⟨game, hgame, -⟩ := hF _ h.facts
    refine ⟨game, hgame, fun _ id hid hne hnamed => ?_⟩
    rw [← h.after_eq] at hnamed
    have hbefore : Named S.cfg g (S.cfg.normalized name) (dr₀.after (.team id)) :=
      h.later_guarded hlater (k := .team id) hg _ hnamed
    obtain ⟨team, hteam, hgameId, hname⟩ := hbefore
    obtain rfl := Except.ok.inj he
    refine absurd hb (ne_false_of_eq_true ?_)
    refine List.any_eq_true.2 ⟨id, hid, ?_⟩
    rw [Bool.and_eq_true]
    refine ⟨?_, ?_⟩
    · rw [hteam]
      exact decide_eq_true ⟨hgameId, hname⟩
    · cases exclude with
      | none => rfl
      | some T' =>
        obtain rfl := hexclude T' rfl
        exact decide_eq_true hne

/-- What `user_create` has drafted: the team and its captain. -/
def Creates (S : Setting) (T : Id) (r : Bool × TeamCreateResult) (dr : Draft Val Record) : Prop :=
  (r.1 = true → r.2 = .ok T ∧ Writes S dr) ∧ (r.1 = false → ∀ T', r.2 ≠ .ok T')

lemma refused_creates {M : Draft Val Record → Prop} {result : TeamCreateResult}
    (h : ∀ T', result ≠ .ok T') : Part S t M (return (false, result)) (Creates S T) :=
  Draws.pure fun _ _ _ => ⟨fun he => (by cases he), fun _ => h⟩

/-- The row of a new team. -/
def RbTeamPutData.row (data : RbTeamPutData) : Team :=
  ⟨data.name, data.pass, data.bio, data.gameId, false, false, false⟩

/-- A new team with its captain is a deed. -/
lemma created_writes {data : RbTeamPutData} {now : ℤ} {dr : Draft Val Record}
    (hlisted : T ∈ S.cfg.teamIds)
    (h : Wrote t [.member data.gameId u, .team T, .game data.gameId]
      [⟨.team T, some data.row⟩, ⟨.member data.gameId u, some ⟨T, true, now⟩⟩]
      (fun v => v (.team T) = none ∧ v (.member data.gameId u) = none ∧ u ∈ S.cfg.userIds ∧
        Free S.cfg v data.gameId data.name T) dr) : Writes S dr := by
  obtain ⟨hteam, hnone, huser, hfree⟩ := h.facts
  refine ⟨.created hteam hnone huser hlisted hfree h.after,
    respects_of (fun T' g n hn => ?_) fun g' u' m hm => ?_⟩
  · by_cases hT : T' = T
    · subst hT
      have hself : dr.after (.team T') = some data.row := by
        rw [h.after, applyPuts_cons, applyPuts_cons, applyPuts_nil, update_member_team,
          Function.update_self]
      obtain ⟨team, he, hgame, -⟩ := hn
      obtain rfl := Option.some.inj (hself.symm.trans he)
      subst hgame
      exact .inr (h.held _ (by simp [RbTeamPutData.row]))
    · rw [h.rest (by simpa using hT)] at hn
      exact .inl hn
  · by_cases hk : (Key.member g' u' : Key) = .member data.gameId u
    · obtain ⟨rfl, rfl⟩ := Key.member.inj hk
      have hself : dr.after (.member data.gameId u') = some ⟨T, true, now⟩ := by
        rw [h.after]
        exact Function.update_self _ _ _
      obtain rfl := Option.some.inj (hself.symm.trans hm)
      exact .inr (h.held _ (by simp))
    · rw [h.rest (by simpa using hk)] at hm
      exact .inl ⟨m, hm, rfl⟩

/-- The writes of `user_create`. -/
lemma createTeam_part {data : RbTeamPutData} (hlisted : T ∈ S.cfg.teamIds) :
    Part S t (Wrote t [.game data.gameId] [] fun v => Free S.cfg v data.gameId data.name T)
      (createTeam S.cfg t u T data) (Creates S T) := by
  refine Draws.bind (N := fun _ => Wrote t [.team T, .game data.gameId]
    [⟨.team T, some data.row⟩] fun v => v (.team T) = none ∧
      Free S.cfg v data.gameId data.name T) ?_ fun _ => ?_
  · refine Part.query fun dr₀ dr eff h₀ h _ _ he hlater => ?_
    unfold insertTeam at he
    split_ifs at he with hteam hgame
    obtain rfl := Except.ok.inj he
    refine h.put.know ⟨?_, h.facts⟩
    rw [h₀.after_eq, Bool.not_eq_true, Option.isSome_eq_false_iff, Option.isNone_iff_eq_none] at hteam
    exact (h.later_eq hlater (.inl (by simp [Effect.keys]))).1.trans hteam
  refine Draws.bind (N := fun inserted dr => inserted = true → ∃ now,
    Wrote t [.member data.gameId u, .team T, .game data.gameId]
      [⟨.team T, some data.row⟩, ⟨.member data.gameId u, some ⟨T, true, now⟩⟩]
      (fun v => v (.team T) = none ∧ v (.member data.gameId u) = none ∧ u ∈ S.cfg.userIds ∧
        Free S.cfg v data.gameId data.name T) dr) ?_ fun inserted => ?_
  · refine Part.query fun dr₀ dr eff h₀ h _ _ he hlater hval => ?_
    rcases insertMember_eq_ok he with rfl | ⟨team, hteam, hu, hnone, rfl⟩
    · cases hval
    · have hself : dr₀.after (.team T) = some data.row := by
        rw [h₀.after]
        exact Function.update_self _ _ _
      obtain rfl := Option.some.inj (hself.symm.trans hteam)
      rw [h₀.rest (by simp)] at hnone
      refine ⟨_, h.put.know ⟨h.facts.1, ?_, hu, h.facts.2⟩⟩
      exact (h.later_eq hlater (.inl (List.mem_singleton_self _))).1.trans hnone
  cases inserted with
  | false => exact refused_creates (by simp)
  | true =>
    refine Draws.bind (N := fun _ => Writes S) ?_ fun _ => ?_
    · refine Part.query fun dr₀ dr eff _ h _ _ he _ => ?_
      obtain ⟨now, h⟩ := h rfl
      obtain rfl := Except.ok.inj he
      exact created_writes hlisted h.log
    · refine Draws.bind insertEvent_writes fun _ => Draws.pure fun dr _ h => ?_
      exact ⟨fun _ => ⟨rfl, h⟩, fun he => (by cases he)⟩

/-- **Creating a team** is a deed. -/
lemma createBody_part {data : RbTeamPutData} (hlisted : T ∈ S.cfg.teamIds) :
    Part S t (Begun t) (createBody S.cfg t u T data) (Creates S T) := by
  refine lockDuplicateNamePolicy_part.bind fun policy => ?_
  cases policy with
  | none => exact refused_creates (by simp)
  | some allowed =>
    refine Part.skip.bind fun isOpen => ?_
    cases isOpen with
    | false => exact refused_creates (by simp)
    | true =>
      refine Draws.bind ((nameConflict_part (T := T) (List.mem_singleton_self _) (fun _ h => h)
        (by simp)).conseq (fun _ _ h => h allowed rfl) (fun _ _ _ h => h) fun _ _ h => h)
          fun conflict => ?_
      cases conflict with
      | true => exact refused_creates (by simp)
      | false =>
        exact (createTeam_part hlisted).conseq (fun _ _ h => (h rfl).know (h rfl).facts.2)
          (fun _ _ _ h => h) fun _ _ h => h

/-- What `user_update` has drafted: the team it writes. -/
def Renames (S : Setting) (r : Bool × UserUpdateResult × Id) (dr : Draft Val Record) : Prop :=
  (r.1 = true → r.2.1 = .ok ∧ Writes S dr) ∧ (r.1 = false → r.2.1 ≠ .ok)

lemma refused_renames {M : Draft Val Record → Prop} {result : UserUpdateResult} {id : Id}
    (h : result ≠ .ok) : Part S t M (return (false, result, id)) (Renames S) :=
  Draws.pure fun _ _ _ => ⟨fun he => (by cases he), fun _ => h⟩

/-- The team of the game that the user is captain of, as it is read. -/
abbrev Captained (g T : Id) (allowed : Bool) (current : Team) (v : View) : Prop :=
  HasPolicy g allowed v ∧ v (.team T) = some current ∧ current.gameId = g

/-- The team is locked. -/
lemma selectCaptained_part {allowed : Bool} :
    Part S t (Wrote t [.game g] [] (HasPolicy g allowed))
      (Tx.query t .stmt (selectCaptained g u)) fun found dr => ∀ T current,
        found = some (T, current) →
          Wrote t [.team T, .game g] [] (Captained g T allowed current) dr := by
  refine Part.query fun dr₀ dr eff h₀ h hs₀ _ he hlater T current hfound => ?_
  unfold selectCaptained at he
  cases hm : dr₀.after (.member g u) with
  | none =>
    rw [hm] at he
    obtain rfl := Except.ok.inj he
    cases hfound
  | some m =>
    rw [hm] at he
    dsimp only at he
    rw [h₀.after_eq] at hm
    obtain ⟨team, hteam, hgame⟩ := hs₀.referential.team g u m hm
    rw [← h₀.after_eq] at hteam
    rw [hteam] at he
    dsimp only at he
    split_ifs at he
    · obtain rfl := Except.ok.inj he
      obtain ⟨rfl, rfl⟩ := Prod.mk.inj (Option.some.inj hfound)
      obtain ⟨hbefore, hsame⟩ := h.later_eq hlater (k := .team m.teamId) (.inl (by
        simp [Effect.keys, lockRow]))
      refine (h.lock hsame.symm).know ⟨h.facts, ?_, hgame⟩
      rw [Draft.add_before, hbefore, ← h₀.after_eq]
      exact hteam
    · obtain rfl := Except.ok.inj he
      cases hfound

/-- The name is the one there is, or it is free. -/
abbrev NameFound (S : Setting) (g T : Id) (data : UserUpdateData) (current : Team) (v : View) :
    Prop :=
  v (.team T) = some current ∧ current.gameId = g ∧
    (S.cfg.normalized (current.updated data).name = S.cfg.normalized current.name ∨
      Free S.cfg v current.gameId (current.updated data).name T)

/-- The checks of a new name. -/
lemma checkName_part {allowed : Bool} {current : Team} {data : UserUpdateData} :
    Part S t (Wrote t [.team T, .game g] [] (Captained g T allowed current))
      (checkName S.cfg t g data allowed T current) fun refused dr =>
        refused ≠ some .ok ∧ (refused = none →
          Wrote t [.team T, .game g] [] (NameFound S g T data current) dr) := by
  unfold checkName
  split
  · rename_i hname
    refine Draws.pure fun dr _ h => ⟨by simp, fun _ => h.know ⟨h.facts.2.1, h.facts.2.2, .inl ?_⟩⟩
    simp [Team.updated, hname]
  · rename_i name hname
    have hnew : (current.updated data).name = name := by simp [Team.updated, hname]
    split_ifs
    · exact Draws.pure fun dr _ h => ⟨by simp, fun he => (by cases he)⟩
    refine Draws.bind (N := fun same dr =>
      Wrote t [.team T, .game g] [] (Captained g T allowed current) dr ∧
        (same = true → S.cfg.normalized current.name = S.cfg.normalized name))
      (Part.read fun dr₀ dr b _ h _ _ he _ => ⟨h, fun hb => ?_⟩) fun same => ?_
    · obtain rfl := Except.ok.inj he
      exact of_decide_eq_true hb
    cases same with
    | true =>
      refine Draws.pure fun dr _ h => ⟨by simp, fun _ => ?_⟩
      refine h.1.know ⟨h.1.facts.2.1, h.1.facts.2.2, .inl ?_⟩
      rw [hnew]
      exact (h.2 rfl).symm
    | false =>
      refine Draws.bind ((nameConflict_part (T := T) (H := [.team T, .game g])
        (F := Captained g T allowed current) (by simp) (fun _ h => h.1)
        (fun T' h => (Option.some.inj h).symm)).conseq (fun _ _ h => h.1) (fun _ _ _ h => h)
          fun _ _ h => h) fun conflict => ?_
      cases conflict with
      | true => exact Draws.pure fun dr _ h => ⟨by simp, fun he => (by cases he)⟩
      | false =>
        refine Draws.pure fun dr _ h => ⟨by simp, fun _ => ?_⟩
        obtain ⟨⟨-, hteam, hgame⟩, hfree⟩ := (h rfl).facts
        refine (h rfl).know ⟨hteam, hgame, .inr ?_⟩
        rwa [hgame, hnew]

/-- A team with a name that is free is a deed. -/
lemma renamed_writes {data : UserUpdateData} {current : Team} {dr : Draft Val Record}
    (h : Wrote t [.team T, .team T, .game g] [⟨.team T, some (current.updated data)⟩]
      (NameFound S g T data current) dr) : Writes S dr := by
  obtain ⟨hteam, rfl, hname⟩ := h.facts
  refine ⟨.renamed hteam hname h.after, respects_of (fun T' g n hn => ?_) fun g' u' m hm =>
    .inl ⟨m, ?_, rfl⟩⟩
  · by_cases hT : T' = T
    · subst hT
      have hself : dr.after (.team T') = some (current.updated data) := by
        rw [h.after]
        exact Function.update_self _ _ _
      obtain ⟨team, he, hgame, -⟩ := hn
      obtain rfl := Option.some.inj (hself.symm.trans he)
      subst hgame
      exact .inr (h.held _ (by simp [Team.updated]))
    · rw [h.rest (by simpa using hT)] at hn
      exact .inl hn
  · rwa [h.rest (by simp)] at hm

lemma writeUpdate_part {data : UserUpdateData} {current : Team} :
    Part S t (Wrote t [.team T, .game g] [] (NameFound S g T data current))
      (writeUpdate t g u data T) (Renames S) := by
  unfold writeUpdate
  split_ifs
  · exact refused_renames (by simp)
  refine Draws.bind (N := fun updated dr => updated = true → Writes S dr)
    (Part.query fun dr₀ dr eff h₀ h _ _ he hlater hval => ?_) fun updated => ?_
  · unfold updateTeam at he
    rw [h₀.after_eq, h₀.facts.1] at he
    obtain rfl := Except.ok.inj he
    exact renamed_writes h.put
  cases updated with
  | false => exact refused_renames (by simp)
  | true =>
    refine Draws.bind (insertEvent_writes.conseq (fun _ _ h => h rfl) (fun _ _ _ h => h)
      fun _ _ h => h) fun _ => Draws.pure fun dr _ h => ?_
    exact ⟨fun _ => ⟨rfl, h⟩, fun he => (by cases he)⟩

/-- **Updating a team** is a deed. -/
lemma userUpdateBody_part {data : UserUpdateData} :
    Part S t (Begun t) (userUpdateBody S.cfg t g u data) (Renames S) := by
  refine lockDuplicateNamePolicy_part.bind fun policy => ?_
  cases policy with
  | none => exact refused_renames (by simp)
  | some allowed =>
    refine Draws.bind (selectCaptained_part.conseq (fun _ _ h => h allowed rfl) (fun _ _ _ h => h)
      fun _ _ h => h) fun found => ?_
    rcases found with _ | ⟨T, current⟩
    · exact refused_renames (by simp)
    refine Draws.bind (checkName_part.conseq (fun _ _ h => h T current rfl) (fun _ _ _ h => h)
      fun _ _ h => h) fun refused => ?_
    cases refused with
    | some result =>
      exact Draws.pure fun dr _ h => ⟨fun he => (by cases he), fun _ he => h.1 (congrArg _ he)⟩
    | none =>
      exact writeUpdate_part.conseq (fun _ _ h => h.2 rfl) (fun _ _ _ h => h) fun _ _ h => h

end Parts

end Teams
