import RbphBackend.Teams.Captains

set_option relaxedAutoImplicit false
set_option autoImplicit false

/-!
# Runs of the calls about teams

Any calls, in any interleaving: what every commit does, one after the other, and what the calls that
have ended tell of their own commits.

## Main definitions

* `Teams.Stage` — a part of a call, with what it tells of its commits.
* `Teams.Told` — what the answer of a call tells.

## Main results

* `Teams.journaled_of_reaches` — every commit is a deed, and every answer tells what was committed.
* `Teams.join_of_reaches` — a `join` adds one member within the limit it has read, or nothing.
* `Teams.distinctNames_of_reaches` — where the names of a game must differ, they do.
-/

namespace Teams

open Concurrency ReadCommitted Games

/-! ## Parts of a call -/

/-- Between transactions: the commits of the call so far. -/
def At (t : Tid) (C : List TeamCommit → Prop) (d : Store) : Prop := NoTx t d ∧ C (commitsOf t d)

/-- The first commit meets `J`, and the others change no row. -/
def Led (J : TeamCommit → Prop) (l : List TeamCommit) : Prop :=
  ∃ e rest, l = e :: rest ∧ J e ∧ ∀ e' ∈ rest, e'.after = e'.before

lemma Led.snoc {J : TeamCommit → Prop} {l : List TeamCommit} {e : TeamCommit} (h : Led J l)
    (he : e.after = e.before) : Led J (l ++ [e]) := by
  obtain ⟨e₁, rest, rfl, hJ, hrest⟩ := h
  refine ⟨e₁, rest ++ [e], rfl, hJ, fun e' he' => ?_⟩
  rcases List.mem_append.1 he' with he' | he'
  · exact hrest e' he'
  · rw [List.mem_singleton.1 he']
    exact he

/-! ## What answers tell -/

/-- The commit of a new member, with as many members as the limit at most. -/
structure Joined (cfg : Config) (T u : Id) (maxMembers : Option ℤ) (e : TeamCommit) : Prop where
  added : ∃ team now, e.before (.team T) = some team ∧ e.before (.member team.gameId u) = none ∧
    e.after = Function.update e.before (.member team.gameId u) (some ⟨T, false, now⟩)
  place : ∀ n, maxMembers = some n → ((membersOf cfg e.after T).length : ℤ) ≤ n

/-- What the answer of a `join` tells. -/
def JoinTold (cfg : Config) (T u : Id) : Except String JoinAnswer → List TeamCommit → Prop
  | .ok answer, l => (answer.result = .ok → Led (Joined cfg T u answer.maxMembers) l) ∧
      (answer.result ≠ .ok → l = [])
  | .error _, l => l = [] ∨ ∃ maxMembers, Led (Joined cfg T u maxMembers) l

/-- What the answer of a call tells of its commits. -/
def Told (cfg : Config) : TeamCall → Except String TeamAnswer → List TeamCommit → Prop
  | .updateGame .., r, l => ∃ r', r = Except.map .game r' ∧ ∀ game, r' = .ok (some game) → ∃ e, l = [e]
  | .join T u _, r, l => ∃ r', r = Except.map .joined r' ∧ JoinTold cfg T u r' l
  | .userCreate .., r, l => ∃ r', r = Except.map .created r' ∧
      ∀ result, r' = .ok result → (∀ T, result ≠ .ok T) → l = []
  | .userUpdate .., r, l => ∃ r', r = Except.map .updated r' ∧
      ∀ result, r' = .ok result → result ≠ .ok → l = []
  | _, _, _ => True

section Stages

variable {S : Setting} {t : Tid} {α β : Type} {C : List TeamCommit → Prop} {T u g : Id}

/-- A part of a call, outside its transaction. -/
abbrev Stage (S : Setting) (t : Tid) (C : List TeamCommit → Prop) (p : Call α)
    (Q : Except String α → List TeamCommit → Prop) : Prop :=
  Prog.Triple (Among S t) (Admitted S t)
    ((guards (guardedRows S.cfg) (Does S) S.origin).Guarantee t) (At t C) p.run fun r => At t (Q r)

/-- Whatever a call returns, and has committed. -/
abbrev Anything : Except String α → List TeamCommit → Prop := fun _ _ => True

lemma stable_at : Stable (Among S t) (At t C) := stable_noTx.and stable_commitsOf

lemma At.mono {C' : List TeamCommit → Prop} {d : Store} (h : At t C d) (hC : ∀ l, C l → C' l) :
    At t C' d := ⟨h.1, hC _ h.2⟩

lemma Stage.pure {Q : Except String α → List TeamCommit → Prop} {a : α} (h : ∀ l, C l → Q (.ok a) l) :
    Stage S t C (Pure.pure a) Q :=
  Fallible.pure_triple stable_at fun _ hd => hd.mono h

/-- Composition: an error ends the call. -/
lemma Stage.bind {B : Except String β → List TeamCommit → Prop}
    {Q : Except String α → List TeamCommit → Prop} {p : Call β} {k : β → Call α}
    (hp : Stage S t C p B) (herr : ∀ e l, B (.error e) l → Q (.error e) l)
    (hk : ∀ b, Stage S t (B (.ok b)) (k b) Q) : Stage S t C (p >>= k) Q := by
  refine Fallible.bind_triple (B := fun b => At t (B (.ok b))) (F := fun e => At t (B (.error e)))
    (hp.conseq (fun _ h => h) fun r d h => ?_) (fun _ _ _ _ h => h) (IsRely.refl t)
    (fun e d d' h hr => stable_at d d' (h.mono (herr e)) hr) hk
  cases r <;> exact h

/-- What the answer of a call is made of. -/
lemma Stage.answered {Q : Except String TeamAnswer → List TeamCommit → Prop} {p : Call α}
    {f : α → TeamAnswer} (h : Stage S t C p fun r => Q (r.map f)) :
    Stage S t C (Teams.answered f p) Q :=
  Stage.bind h (fun _ _ h => h) fun _ => Stage.pure fun _ h => h

/-- A read. -/
lemma Stage.read {f : View → ℤ → Except String β} {l : Label} :
    Stage S t C (Tx.pool t l (Stmt.read f)) fun _ => C := by
  refine (Tx.pool_read_triple (B := fun _ => At t C) (F := fun _ => At t C) stable_at
    (fun _ => stable_at) (fun _ => stable_at) (fun _ _ h _ _ => h) fun _ _ h _ _ => h).conseq
      (fun _ h => h) fun r _ h => ?_
  cases r <;> exact h

/-- A statement of its own that only inserts records. -/
lemma Stage.insert {stmt : Statement β} (hcall : ∀ g data, S.calls t ≠ .updateGame g data)
    (hputs : ∀ v now eff, stmt v now = .ok eff → eff.puts = [])
    (hC : ∀ l e, C l → e.after = e.before → C (l ++ [e])) :
    Stage S t C (Tx.pool t .stmt stmt) fun _ => C := by
  refine Tx.pool_guards_triple stable_at (fun _ => stable_at) (fun _ h => h.1)
    (fun _ _ h _ _ _ _ => h) (fun d d' eff h _ he hrec => ?_) fun _ _ h _ _ => h
  have hsame : applyPuts eff.puts d.committed = d.committed := by rw [hputs _ _ _ he, applyPuts_nil]
  have h' : Writes S ⟨⟨t, d.now, d.committed, applyPuts eff.puts d.committed, eff.inserts⟩,
      eff.keys⟩ := kept_writes hsame
  refine ⟨⟨h'.1, fun g data hg => absurd hg (hcall g data)⟩, h'.2, hrec.noTx, ?_⟩
  rw [hrec.commitsOf_eq]
  exact hC _ _ h.2 hsame

/-- **A transaction**, from what holds where it commits. -/
lemma Stage.transaction {l : Label} {body : Call (Bool × α)} {N : Bool × α → Draft Val Record → Prop}
    {Q : Except String α → List TeamCommit → Prop}
    (hbody : Part S t (Begun t) body N)
    (hN : ∀ d a (dr : Draft Val Record), Admitted S t l d → dr.before = d.committed →
      d.view t = dr.after → (∀ k ∈ dr.held, (d.rows k).HeldBy t) → N (true, a) dr → Writes S dr)
    (hsettles : ∀ g data, S.calls t = .updateGame g data → ∀ a (dr : Draft Val Record),
      N (true, a) dr → Settles S g data dr.before dr.after)
    (hcommit : ∀ a (dr : Draft Val Record), N (true, a) dr → Q (.ok a) [dr.toCommit])
    (hdrop : ∀ a (dr : Draft Val Record), N (false, a) dr → Q (.ok a) [])
    (herr : ∀ e, Q (.error e) []) :
    Stage S t (fun l => l = []) (Tx.transaction t l body) Q := by
  refine (Draws.guards_commit_triple (fun _ h => h.2) (fun _ => sound_of_admitted)
    hbody fun d a dr ho htid hbefore hview hheld h => ?_).conseq (fun _ h => h) fun r d h => ?_
  · obtain ⟨hdeed, hrespects⟩ := hN d a dr ho hbefore hview hheld h
    exact ⟨⟨hdeed, fun g data hcall => hsettles g data (htid ▸ hcall) a dr h⟩, hrespects⟩
  cases r with
  | error e => exact ⟨h.1, h.2.symm ▸ herr e⟩
  | ok a =>
    refine ⟨h.1, ?_⟩
    rcases h.2 with ⟨dr, hdr, hcommits⟩ | ⟨⟨dr, hdr⟩, hcommits⟩
    · rw [hcommits]
      exact hcommit a dr hdr
    · rw [hcommits]
      exact hdrop a dr hdr

/-- A transaction whose drafts are what commits do, and that tells nothing. -/
lemma Stage.deed {l : Label} {body : Call (Bool × α)}
    (hcall : ∀ g data, S.calls t ≠ .updateGame g data)
    (hbody : Part S t (Begun t) body fun r dr => r.1 = true → Writes S dr) :
    Stage S t (fun l => l = []) (Tx.transaction t l body) Anything :=
  Stage.transaction hbody (fun _ _ _ _ _ _ _ h => h rfl) (fun g data h => absurd h (hcall g data))
    (fun _ _ _ => trivial) (fun _ _ _ => trivial) fun _ => trivial

/-! ## The calls -/

/-- The events and marks that the calls leave. -/
lemma insertEvent_stage {event : EventLogInput} (hcall : ∀ g data, S.calls t ≠ .updateGame g data)
    (hC : ∀ l e, C l → e.after = e.before → C (l ++ [e])) :
    Stage S t C (Tx.pool t .stmt (insertEvent event)) fun _ => C := by
  refine Stage.insert hcall (fun v now eff he => ?_) hC
  unfold insertEvent at he
  split_ifs at he
  obtain rfl := Except.ok.inj he
  rfl

lemma invalidateTeamInfo_stage (hcall : ∀ g data, S.calls t ≠ .updateGame g data)
    (hC : ∀ l e, C l → e.after = e.before → C (l ++ [e])) :
    Stage S t C (invalidateTeamInfo t T) fun _ => C := by
  refine Stage.bind Stage.read (fun _ _ h => h) fun found => ?_
  cases found with
  | false => exact Stage.pure fun _ h => h
  | true =>
    refine Stage.insert hcall (fun v now eff he => ?_) hC
    unfold insertDirtyTeam at he
    split_ifs at he
    obtain rfl := Except.ok.inj he
    rfl

/-- Taking out a member is a deed where a captain is the last one. -/
lemma deleteMember_stage (hcall : ∀ g data, S.calls t ≠ .updateGame g data) :
    Stage S t C (Tx.pool t (.leaving T u) (deleteMember T u)) Anything := by
  refine (Tx.pool_guards_triple (A := At t C) (Q := fun _ => At t fun _ => True) stable_at
    (fun _ => stable_at) (fun _ h => h.1) (fun _ _ h _ _ _ _ => h.mono fun _ _ => trivial)
    (fun d d' eff h ho he hrec => ?_) fun _ _ h _ _ => h.mono fun _ _ => trivial)
  have hend : At t (fun _ => True) d' := ⟨hrec.noTx, trivial⟩
  have hkept : eff.puts = [] → Writes S ⟨⟨t, d.now, d.committed, applyPuts eff.puts d.committed,
      eff.inserts⟩, eff.keys⟩ := fun hputs =>
    kept_writes (by rw [hputs, applyPuts_nil])
  have hnot : ∀ e : TeamCommit, e.tid = t → ∀ g data, S.calls e.tid = .updateGame g data →
      Settles S g data e.before e.after := fun e he g data hg => absurd (he ▸ hg) (hcall g data)
  unfold deleteMember at he
  split at he
  · rename_i team m hteam hm
    split_ifs at he
    · obtain rfl := Except.ok.inj he
      exact ⟨⟨(hkept rfl).1, hnot _ rfl⟩, (hkept rfl).2, hend⟩
    · obtain rfl := Except.ok.inj he
      have hadmits : S.manned → IsCaptain d.committed T u →
          ∀ u', IsMember d.committed T u' → u' = u := ho.1.2
      have hwrites : Writes S ⟨⟨t, d.now, d.committed,
          Function.update d.committed (.member team.gameId u) none, []⟩, [.member team.gameId u]⟩ :=
        left_writes hteam hm (fun hS hc => hadmits hS ⟨m, hm, hc⟩) rfl
      exact ⟨⟨hwrites.1, hnot _ rfl⟩, hwrites.2, hend⟩
  · obtain rfl := Except.ok.inj he
    exact ⟨⟨(hkept rfl).1, hnot _ rfl⟩, (hkept rfl).2, hend⟩

lemma Joins.joined {answer : JoinAnswer} {dr : Draft Val Record}
    (h : Joins S t T u (true, answer) dr) : Joined S.cfg T u answer.maxMembers dr.toCommit := by
  obtain ⟨-, team, now, h⟩ := h.1 rfl
  refine ⟨⟨team, now, h.facts.row, h.facts.absent, h.after⟩, fun n hn => ?_⟩
  have hplace := h.facts.place n hn
  have hle : (membersOf S.cfg dr.after T).length ≤ (membersOf S.cfg dr.before T).length + 1 := by
    rw [h.after]
    exact length_membersOf_update S.nodup
  omega

/-- **Joining a team.** -/
lemma join_stage {password : String} (hcall : S.calls t = .join T u password) :
    Stage S t (fun l => l = []) (join S.cfg t T u password) (JoinTold S.cfg T u) := by
  have hother : ∀ g data, S.calls t ≠ .updateGame g data := fun g data h => by
    rw [hcall] at h
    cases h
  refine Stage.bind (B := fun r l => match r with
    | .ok answer => (answer.result = .ok → Led (Joined S.cfg T u answer.maxMembers) l) ∧
        (answer.result ≠ .ok → l = [])
    | .error _ => l = []) (Stage.transaction joinBody_part (fun d a dr ho hbefore _ hheld h => ?_)
      (fun g data h => absurd h (hother g data))
      (fun a dr h => ⟨fun _ => ⟨_, [], rfl, h.joined, by simp⟩, fun hne => absurd (h.1 rfl).1 hne⟩)
      (fun a dr h => ⟨fun he => absurd he (h.2 rfl), fun _ => rfl⟩) fun e => rfl)
    (fun e l h => .inl h) fun answer => ?_
  · refine h.writes fun hS => ?_
    obtain ⟨-, team, now, hw⟩ := h.1 rfl
    rw [hbefore]
    exact ho.1.2 hS (hheld _ (hw.held _ (by simp)))
  · cases hresult : answer.result with
    | ok =>
      refine Stage.bind (B := fun _ => Led (Joined S.cfg T u answer.maxMembers)) ?_
        (fun e l h => .inr ⟨_, h⟩) fun _ => Stage.pure fun l h => ⟨fun _ => h, fun hne => ?_⟩
      · exact (invalidateTeamInfo_stage hother fun l e h he => h.snoc he).conseq
          (fun _ h => h.mono fun _ h => h.1 hresult) fun _ _ h => h
      · exact absurd hresult hne
    | _ => exact Stage.pure fun l h => h

/-- **Creating a team.** -/
lemma userCreate_stage {data : RbTeamPutData} (hcall : S.calls t = .userCreate u T data) :
    Stage S t (fun l => l = []) (userCreate S.cfg t u T data) fun r l =>
      ∀ result, r = .ok result → (∀ T', result ≠ .ok T') → l = [] := by
  have hother : ∀ g data, S.calls t ≠ .updateGame g data := fun g data h => by
    rw [hcall] at h
    cases h
  refine Stage.bind (B := fun r l => ∀ result, r = .ok result → (∀ T', result ≠ .ok T') → l = [])
    (Stage.transaction (createBody_part (S.listed t u T data hcall))
      (fun _ _ _ _ _ _ _ h => (h.1 rfl).2) (fun g data h => absurd h (hother g data))
      (fun a dr h result hr hne => ?_) (fun a dr h _ _ _ => rfl) fun e result hr => by cases hr)
    (fun e l h result hr => by cases hr) fun result => ?_
  · obtain rfl := Except.ok.inj hr
    exact absurd (h.1 rfl).1 (hne T)
  · cases result with
    | ok T' =>
      refine Stage.bind (B := fun _ _ => True) (Stage.read.conseq (fun _ h => h) fun _ _ h =>
        h.mono fun _ _ => trivial) (fun e l h result hr => by cases hr) fun _ =>
          Stage.pure fun l _ result hr hne => ?_
      obtain rfl := Except.ok.inj hr
      exact absurd rfl (hne T')
    | _ => exact Stage.pure fun l h => h

/-- **Updating a team.** -/
lemma userUpdate_stage {data : UserUpdateData} (hcall : S.calls t = .userUpdate g u data) :
    Stage S t (fun l => l = []) (userUpdate S.cfg t g u data) fun r l =>
      ∀ result, r = .ok result → result ≠ .ok → l = [] := by
  have hother : ∀ g data, S.calls t ≠ .updateGame g data := fun g data h => by
    rw [hcall] at h
    cases h
  refine Stage.bind (B := fun r l => ∀ answer, r = .ok answer → answer.1 ≠ .ok → l = [])
    (Stage.transaction userUpdateBody_part
      (fun _ _ _ _ _ _ _ h => (h.1 rfl).2) (fun g data h => absurd h (hother g data))
      (fun a dr h result hr hne => ?_) (fun a dr h _ _ _ => rfl) fun e result hr => by cases hr)
    (fun e l h result hr => by cases hr) fun answer => ?_
  · obtain rfl := Except.ok.inj hr
    exact absurd (h.1 rfl).1 hne
  · cases hresult : answer.1 with
    | ok =>
      refine Stage.bind (B := fun _ _ => True) ((invalidateTeamInfo_stage hother fun _ _ _ _ =>
        trivial).conseq (fun _ h => h.mono fun _ _ => trivial) fun _ _ h => h)
          (fun e l h result hr => by cases hr) fun _ => Stage.pure fun l _ result hr hne => ?_
      obtain rfl := Except.ok.inj hr
      exact absurd rfl hne
    | _ =>
      refine Stage.pure fun l h result hr hne => h answer rfl ?_
      rw [hresult]
      simp

/-- **Storing settings.** -/
lemma updateGame_stage {data : RbGameUpdateData} (hcall : S.calls t = .updateGame g data) :
    Stage S t (fun l => l = []) (updateGame t g data) fun r l =>
      ∀ game, r = .ok (some game) → ∃ e, l = [e] := by
  refine Stage.bind (B := fun r l => r = .ok true → ∃ e, l = [e])
    (Stage.transaction (updateBody_part hcall) (fun _ _ _ _ _ _ _ h => (h.1 rfl).1)
      (fun g data h a dr hN => ?_) (fun a dr _ _ => ⟨_, rfl⟩) (fun a dr h hr => ?_) fun e hr => by cases hr)
    (fun e l h game hr => by cases hr) fun updated => ?_
  · obtain ⟨rfl, rfl⟩ := TeamCall.updateGame.inj (hcall.symm.trans h)
    exact (hN.1 rfl).2
  · obtain rfl := Except.ok.inj hr
    cases h.2 rfl
  · cases updated with
    | false => exact Stage.pure fun l _ game hr => by cases hr
    | true =>
      exact Stage.read.conseq (fun _ h => h.mono fun _ h => h rfl) fun r _ h =>
        h.mono fun _ h _ _ => h

/-- The handler runs for captains. -/
lemma asLeader_stage {handler : Call SelfOutcome}
    (h : Stage S t (fun l => l = []) handler Anything) :
    Stage S t (fun l => l = []) (asLeader t g u handler) Anything := by
  refine Stage.bind Stage.read (fun _ _ _ => trivial) fun leader => ?_
  cases leader with
  | false => exact Stage.pure fun _ _ => trivial
  | true => exact h

/-- A handler ends with whether it has done what was asked for. -/
lemma outcome_stage {p : Call Bool} (h : Stage S t (fun l => l = []) p Anything) :
    Stage S t (fun l => l = []) (do let done ← p; return outcome done) Anything :=
  Stage.bind h (fun _ _ h => h) fun _ => Stage.pure fun _ h => h

section Others

variable (hcall : ∀ g data, S.calls t ≠ .updateGame g data)
include hcall

lemma takeOut_stage {event : Id → EventLogInput} :
    Stage S t C (takeOut t T u event) Anything := by
  refine Stage.bind (deleteMember_stage hcall) (fun _ _ h => h) fun deleted => ?_
  cases deleted with
  | none => exact Stage.pure fun _ h => h
  | some gameId =>
    exact Stage.bind (insertEvent_stage hcall fun _ _ _ _ => trivial) (fun _ _ h => h) fun _ =>
      Stage.bind (invalidateTeamInfo_stage hcall fun _ _ _ _ => trivial) (fun _ _ h => h) fun _ =>
        Stage.pure fun _ h => h

lemma disband_stage : Stage S t (fun l => l = []) (disband S.cfg t T) Anything := by
  refine Stage.bind (Stage.deed hcall disbandBody_part) (fun _ _ h => h) fun deleted => ?_
  cases deleted with
  | none => exact Stage.pure fun _ h => h
  | some gameId =>
    refine Stage.bind (Stage.insert hcall (fun v now eff he => ?_) fun _ _ _ _ => trivial)
      (fun _ _ h => h) fun _ => Stage.pure fun _ h => h
    obtain rfl := Except.ok.inj he
    rfl

lemma promoteMember_stage : Stage S t (fun l => l = []) (promoteMember S.cfg t T u) Anything := by
  refine Stage.bind (Stage.deed hcall promoteBody_part) (fun _ _ h => h) fun promoted => ?_
  cases promoted with
  | none => exact Stage.pure fun _ h => h
  | some gameId =>
    exact Stage.bind (insertEvent_stage hcall fun _ _ _ _ => trivial) (fun _ _ h => h) fun _ =>
      Stage.bind (invalidateTeamInfo_stage hcall fun _ _ _ _ => trivial) (fun _ _ h => h) fun _ =>
        Stage.pure fun _ h => h

lemma adminRemoveMember_stage :
    Stage S t (fun l => l = []) (adminRemoveMember S.cfg t T u g) Anything := by
  refine Stage.bind (B := Anything) (Stage.transaction removeBody_part
    (fun d a dr ho hbefore hview _ h => ?_) (fun g data h => absurd h (hcall g data))
      (fun _ _ _ => trivial) (fun _ _ _ => trivial) fun _ => trivial) (fun _ _ h => h) fun result => ?_
  · have hs : Sound S dr.before := hbefore ▸ sound_of_admitted ho
    rcases h rfl with h | h
    · refine h.writes hs fun hS => ?_
      have hremoving := ho.1.2 hS
      simp only [AdmitsMembers, hview] at hremoving
      exact hremoving
    · exact h.writes hs
  · cases result with
    | ok =>
      exact Stage.bind (invalidateTeamInfo_stage hcall fun _ _ _ _ => trivial) (fun _ _ h => h)
        fun _ => Stage.pure fun _ h => h
    | _ => exact Stage.pure fun _ h => h

lemma adminPromoteMember_stage :
    Stage S t (fun l => l = []) (adminPromoteMember S.cfg t T u g) Anything := by
  refine Stage.bind Stage.read (fun _ _ _ => trivial) fun found => ?_
  cases found with
  | false => exact Stage.pure fun _ _ => trivial
  | true =>
    exact Stage.bind (promoteMember_stage hcall) (fun _ _ h => h) fun _ => Stage.pure fun _ h => h

lemma selfRequest_stage {req : SelfRequest} :
    Stage S t (fun l => l = []) (selfRequest S.cfg t req) Anything := by
  refine Stage.bind Stage.read (fun _ _ _ => trivial) fun teamId => ?_
  cases teamId with
  | none => exact Stage.pure fun _ _ => trivial
  | some teamId =>
    dsimp only
    cases req.action with
    | leave =>
      cases teamId with
      | none => exact Stage.pure fun _ _ => trivial
      | some teamId => exact outcome_stage (takeOut_stage hcall)
    | disband =>
      refine asLeader_stage ?_
      cases teamId with
      | none => exact Stage.pure fun _ _ => trivial
      | some teamId => exact outcome_stage (disband_stage hcall)
    | promote target =>
      refine asLeader_stage ?_
      unfold promoteSelf
      split_ifs
      · exact Stage.pure fun _ _ => trivial
      · cases teamId with
        | none => exact Stage.pure fun _ _ => trivial
        | some teamId => exact outcome_stage (promoteMember_stage hcall)
    | kick target =>
      refine asLeader_stage ?_
      unfold kickSelf
      split_ifs
      · exact Stage.pure fun _ _ => trivial
      · cases teamId with
        | none => exact Stage.pure fun _ _ => trivial
        | some teamId => exact outcome_stage (takeOut_stage hcall)

end Others

/-- **Any call.** -/
lemma run_stage : Stage S t (fun l => l = []) ((S.calls t).run S.cfg t) (Told S.cfg (S.calls t)) := by
  have hother : ∀ {call : TeamCall}, S.calls t = call → (∀ g data, call ≠ .updateGame g data) →
      ∀ g data, S.calls t ≠ .updateGame g data := fun h hne g data => h ▸ hne g data
  -- the calls whose answers tell nothing of their commits
  have hsilent : ∀ {γ : Type} {p : Call γ} {f : γ → TeamAnswer} {call : TeamCall},
      Stage S t (fun l => l = []) p Anything → (∀ r l, Told S.cfg call (Except.map f r) l) →
      Stage S t (fun l => l = []) (answered f p) (Told S.cfg call) := fun h htold =>
    Stage.answered (h.conseq (fun _ h => h) fun r _ h => h.mono fun l _ => htold r l)
  cases hcall : S.calls t with
  | updateGame g data =>
    exact Stage.answered ((updateGame_stage hcall).conseq (fun _ h => h) fun r _ h =>
      h.mono fun _ h => ⟨r, rfl, h⟩)
  | join T u password =>
    exact Stage.answered ((join_stage hcall).conseq (fun _ h => h) fun r _ h =>
      h.mono fun _ h => ⟨r, rfl, h⟩)
  | userCreate u T data =>
    exact Stage.answered ((userCreate_stage hcall).conseq (fun _ h => h) fun r _ h =>
      h.mono fun _ h => ⟨r, rfl, h⟩)
  | userUpdate g u data =>
    exact Stage.answered ((userUpdate_stage hcall).conseq (fun _ h => h) fun r _ h =>
      h.mono fun _ h => ⟨r, rfl, h⟩)
  | leave T u => exact hsilent (takeOut_stage (hother hcall (by simp))) fun _ _ => trivial
  | kick T u => exact hsilent (takeOut_stage (hother hcall (by simp))) fun _ _ => trivial
  | promote T u => exact hsilent (promoteMember_stage (hother hcall (by simp))) fun _ _ => trivial
  | disband T => exact hsilent (disband_stage (hother hcall (by simp))) fun _ _ => trivial
  | adminRemove g T u =>
    exact hsilent (adminRemoveMember_stage (hother hcall (by simp))) fun _ _ => trivial
  | adminPromote g T u =>
    exact hsilent (adminPromoteMember_stage (hother hcall (by simp))) fun _ _ => trivial
  | self req => exact hsilent (selfRequest_stage (hother hcall (by simp))) fun _ _ => trivial

end Stages

/-! ## Runs -/

section Runs

variable {S : Setting} {c c' : Concurrency.Config Label Store (Except String TeamAnswer)}

/-- **The journal of a run**: every commit is a deed, and every answer tells what was committed. -/
lemma journaled_of_reaches (hcalls : ∀ t, c.threads t = ((S.calls t).run S.cfg t).run)
    (hidle : c.shared.Idle) (horigin : c.shared.committed = S.origin)
    (hrun : Reaches Tick (fun t l d => (S.settled → AdmitsSettling l d) ∧
      (S.manned → AdmitsMembers t l d)) c c') :
    Journaled (Does S) S.origin c'.shared ∧
      ∀ t r, c'.threads t = .ret r → Told S.cfg (S.calls t) r (commitsOf t c'.shared) := by
  have hinv : Journaled (Does S) S.origin c.shared := horigin ▸ Journaled.of_idle hidle
  have hreaches := (guards (guardedRows S.cfg) (Does S) S.origin).reaches
    (Q := fun t r => At t (Told S.cfg (S.calls t) r)) hinv (fun t => by
      rw [hcalls t]
      exact run_stage _ ⟨hidle.sess t, by simp [commitsOf, hidle.journal]⟩) hrun
  exact ⟨hreaches.1, fun t r h => (hreaches.2 t r h).2⟩

end Runs

section Pool

variable {cfg : Config} {calls : Tid → TeamCall}
  {c c' : Concurrency.Config Label Store (Except String TeamAnswer)}

/-- A club of one member, with place for another one. -/
def clubRows : View := applyPuts [
  ⟨.game 1, some ⟨"a game", none, true, true,
    .object [("team", .object [("max_members", .int 2)])], 0⟩⟩,
  ⟨.team 1, some ⟨"club", "pw", "", 1, false, false, false⟩⟩,
  ⟨.member 1 1, some ⟨1, true, 0⟩⟩] noRows

/-- The users and the teams beside the club. -/
def oneClub : Config := ⟨[1, 2, 3], [], [1, 2, 3], id, fun _ _ => .ok ()⟩

lemma team_clubRows {T : Id} (h : clubRows (.team T) ≠ none) : T = 1 := by
  rcases applyPuts_cases _ noRows (.team T) with ⟨-, hrow⟩ | ⟨x, hx, -⟩
  · exact absurd hrow h
  · simp at hx
    exact hx.1

lemma member_clubRows {g u : Id} {m : Member} (h : clubRows (.member g u) = some m) :
    g = 1 ∧ u = 1 ∧ m.teamId = 1 := by
  rcases applyPuts_cases _ noRows (.member g u) with ⟨-, hrow⟩ | ⟨x, hx, hrow⟩
  · cases hrow.symm.trans h
  · obtain rfl := hrow.symm.trans h
    simp at hx
    obtain ⟨⟨rfl, rfl⟩, rfl⟩ := hx
    exact ⟨rfl, rfl, rfl⟩

lemma referential_clubRows : Referential oneClub clubRows := by
  refine ⟨fun g u m h => ?_, fun g u h => ?_, fun T h => ?_⟩
  · obtain ⟨rfl, -, hteam⟩ := member_clubRows h
    exact ⟨⟨"club", "pw", "", 1, false, false, false⟩, by rw [hteam]; rfl, rfl⟩
  · obtain ⟨m, hm⟩ := Option.ne_none_iff_exists'.1 h
    obtain ⟨-, rfl, -⟩ := member_clubRows hm
    decide
  · obtain rfl := team_clubRows h
    decide

lemma manned_clubRows : Manned clubRows := by
  have hmember : ∀ T u, IsMember clubRows T u → T = 1 ∧ u = 1 := by
    rintro T u ⟨m, hm⟩
    obtain ⟨team, -, hrow, rfl⟩ := memberOf_eq_some.1 hm
    obtain ⟨-, hu, hT⟩ := member_clubRows hrow
    exact ⟨hT, hu⟩
  intro T u hu
  obtain ⟨rfl, rfl⟩ := hmember T u hu
  exact ⟨1, ⟨⟨1, true, 0⟩, rfl, rfl⟩, fun c' hc' => (hmember 1 c' hc'.isMember).2⟩

/-- The calls of a pool, from the club. -/
def clubPool (calls : Tid → TeamCall) :
    Concurrency.Config Label Store (Except String TeamAnswer) where
  shared := Db.init 0 clubRows
  threads t := ((calls t).run oneClub t).run

/-- One joins the club, and one disbands it. -/
def joinCalls : Tid → TeamCall
  | 0 => .join 1 2 "pw"
  | _ => .disband 1

/-- What a `join` has ended with. -/
def joinEnds (p : Prog Label Store (Except String TeamAnswer)) : Option (Option JoinAnswer) :=
  match p.result? with
  | some (.ok (.joined answer)) => some (some answer)
  | some (.error _) => some none
  | _ => none

lemma ret_of_joinEnds {p : Prog Label Store (Except String TeamAnswer)} {answer : JoinAnswer}
    (h : joinEnds p = some (some answer)) : p = .ret (.ok (.joined answer)) := by
  unfold joinEnds at h
  split at h
  · rename_i answer' hp
    obtain rfl := Option.some.inj (Option.some.inj h)
    exact Prog.eq_ret_of_result? hp
  · cases h
  · cases h

/-- **Names that must differ do**: from teams of a game whose normalised names differ, in every run of
calls about teams and games while the setting that names may be equal stays false, no two teams of the
game have one normalised name; and a call that reports a conflict of names, or a second membership,
has committed nothing. -/
theorem distinctNames_of_reaches (hnodup : cfg.userIds.Nodup)
    (hlisted : ∀ t u T data, calls t = .userCreate u T data → T ∈ cfg.teamIds)
    (hcalls : ∀ t, c.threads t = ((calls t).run cfg t).run) (hidle : c.shared.Idle)
    (hreferential : Referential cfg c.shared.committed) {g : Id}
    (hdistinct : DistinctNames cfg g c.shared.committed) (hdiffer : NamesDiffer c.shared.committed g)
    (hrun : Reaches Tick Always c c') (hstays : ∀ e ∈ c'.shared.journal, NamesDiffer e.after g) :
    DistinctNames cfg g c'.shared.committed ∧ ∀ t,
      (∀ u T data result, calls t = .userCreate u T data →
        c'.threads t = .ret (.ok (.created result)) → (result = .nameConflict ∨ result = .toMany) →
          commitsOf t c'.shared = []) ∧
      ∀ g u data, calls t = .userUpdate g u data →
        c'.threads t = .ret (.ok (.updated .nameConflict)) → commitsOf t c'.shared = [] := by
  obtain ⟨hjournal, htold⟩ := journaled_of_reaches (S := ⟨cfg, calls, c.shared.committed, False,
    False, hnodup, hlisted, hreferential, fun h => h.elim⟩) hcalls hidle rfl
    (hrun.mono fun _ _ _ _ => ⟨fun h => h.elim, fun h => h.elim⟩)
  refine ⟨?_, fun t => ⟨fun u T data result hcall hret hrefused => ?_, fun g u data hcall hret => ?_⟩⟩
  · refine (hjournal.linked.invariant (p := fun v => Referential cfg v ∧ NamesDiffer v g ∧
      DistinctNames cfg g v) ⟨hreferential, hdiffer, hdistinct⟩ fun e he hv => ?_).2.2
    have hdeed := (hjournal.commits e he).deed
    exact ⟨hdeed.referential hv.1, hstays e he, hdeed.distinctNames hv.1 hv.2.1 hv.2.2⟩
  · have h := htold t _ hret
    dsimp only at h
    rw [hcall] at h
    obtain ⟨r', hr', h⟩ := h
    rcases r' with _ | result'
    · cases hr'
    · obtain rfl := TeamAnswer.created.inj (Except.ok.inj hr')
      refine h result rfl fun T' => ?_
      rcases hrefused with rfl | rfl <;> simp
  · have h := htold t _ hret
    dsimp only at h
    rw [hcall] at h
    obtain ⟨r', hr', h⟩ := h
    rcases r' with _ | result
    · cases hr'
    · obtain rfl := TeamAnswer.updated.inj (Except.ok.inj hr')
      exact h _ rfl (by simp)

/-- One creates a team, and the captain of the club wants its name. -/
def nameCalls : Tid → TeamCall
  | 0 => .userCreate 2 2 ⟨"rivals", "pw", "", 1⟩
  | _ => .userUpdate 1 1 { name := some "rivals" }

/-- What an update of a team has ended with. -/
def updateEnds (p : Prog Label Store (Except String TeamAnswer)) : Option UserUpdateResult :=
  match p.result? with
  | some (.ok (.updated result)) => some result
  | _ => none

lemma ret_of_updateEnds {p : Prog Label Store (Except String TeamAnswer)}
    {result : UserUpdateResult} (h : updateEnds p = some result) :
    p = .ret (.ok (.updated result)) := by
  unfold updateEnds at h
  split at h
  · rename_i result' hp
    obtain rfl := Option.some.inj h
    exact Prog.eq_ret_of_result? hp
  · cases h

/-- The team is created, and the club keeps its name. -/
theorem distinctNames_of_reaches_nameCalls : ∃ c', Reaches Tick Always (clubPool nameCalls) c' ∧
    (c'.shared.committed (.team 2)).map Team.name = some "rivals" ∧
    c'.threads 1 = .ret (.ok (.updated .nameConflict)) ∧ commitsOf 1 c'.shared = [] ∧
    DistinctNames oneClub 1 c'.shared.committed := by
  obtain ⟨c', hrun, hc'⟩ := exists_reaches_of_exec Tick Always (c := clubPool nameCalls)
    (List.replicate 10 (.thread 0) ++ List.replicate 6 (.thread 1))
    (p := fun c' => decide ((c'.shared.committed (.team 2)).map Team.name = some "rivals") &&
      decide (updateEnds (c'.threads 1) = some .nameConflict) &&
      c'.shared.journal.all fun e => (e.after (.game 1)).all fun game =>
        !allowDuplicateNames game.settings) (by simp) (by decide +kernel)
  simp only [Bool.and_eq_true, decide_eq_true_eq, List.all_eq_true] at hc'
  obtain ⟨⟨hname, hends⟩, hall⟩ := hc'
  have hret := ret_of_updateEnds hends
  have hstays : ∀ e ∈ c'.shared.journal, NamesDiffer e.after 1 := by
    intro e he game hgame
    have h := hall e he
    rw [hgame] at h
    simpa using h
  have hteam : ∀ n T, Named oneClub 1 n (clubRows (.team T)) → T = 1 := by
    rintro n T ⟨team, hteam, -⟩
    exact team_clubRows (by simp [hteam])
  have hcalls : ∀ t, (clubPool nameCalls).threads t = ((nameCalls t).run oneClub t).run :=
    fun _ => rfl
  obtain ⟨hdistinct, hrefused⟩ := distinctNames_of_reaches (g := 1) (by decide)
    (fun t u T data h => by
      unfold nameCalls at h
      split at h
      · obtain ⟨-, rfl, -⟩ := TeamCall.userCreate.inj h
        decide
      · cases h)
    hcalls (Db.init_idle _ _) referential_clubRows
    (fun n T T' hT hT' => (hteam n T hT).trans (hteam n T' hT').symm)
    (fun game h => by
      obtain rfl := Option.some.inj h
      rfl) hrun hstays
  exact ⟨c', hrun, hname, hret, (hrefused 1).2 1 1 _ rfl hret, hdistinct⟩

end Pool

end Teams
