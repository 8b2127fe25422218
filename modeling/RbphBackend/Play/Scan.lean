import Mathlib.Data.List.Dedup
import RbphBackend.Play.Standing

set_option relaxedAutoImplicit false
set_option autoImplicit false

/-!
# Looking for puzzles

`unlock_new_puzzles` reads what conditions see of the team with two statements, and gives the team
the puzzles whose conditions hold with a third one. Where nothing that conditions see has changed
since the call's own commit, the three statements see one state, so the team has every puzzle that
this state opens.

## Main results

* `Play.unlocked_of_candidates` — the candidates are what the state opens.
* `Play.insertTeamPuzzles_triple` — the statement that gives the puzzles.
* `Play.unlockNewPuzzles_triple` — `unlock_new_puzzles`.
-/

namespace Play

open Concurrency ReadCommitted Numeric Database Currency
open Release (RoundRow PuzzleRow)

/-! ## Candidates -/

section Candidates

variable {cfg : Config} {team gameId : Id} {v w : View}

/-- The ids of the puzzles are those of an `INT` column. -/
def Config.InRange (cfg : Config) : Prop := ∀ p ∈ cfg.puzzles, p.id ≤ Gate.i32Max

lemma mem_puzzles_of_mem_gamePuzzles {row : PuzzleRow × RoundRow}
    (h : row ∈ cfg.gamePuzzles gameId) : row.1 ∈ cfg.puzzles := by
  rw [Config.gamePuzzles, Gate.puzzleRows, List.mem_insertionSort, List.mem_filter,
    Gate.joinRounds, List.mem_flatMap] at h
  obtain ⟨⟨p, hp, hrow⟩, -⟩ := h
  obtain ⟨r, -, rfl⟩ := List.mem_map.mp hrow
  exact hp

/-- **The candidates are what the state opens**: once the team has them, it has every puzzle. -/
lemma unlocked_of_candidates (hcfg : cfg.InRange) (hsame : GateSame team v w)
    (hrows : ∀ k, Evolves team k (v k) (w k))
    (h : ∀ p ∈ unlockCandidates cfg (cfg.unlockState team gameId v) gameId,
      (w (.teamPuzzle team p)).isSome = true) : Unlocked cfg team gameId w := by
  intro row hrow hcond
  rw [unlockState_congr hsame] at hcond
  obtain ⟨cond, hc, hholds⟩ := (Option.any_eq_true _ _).mp hcond
  have hid : Gate.toI32 row.1.id = row.1.id := if_pos (hcfg _ (mem_puzzles_of_mem_gamePuzzles hrow))
  cases hsolved : isSolved v team row.1.id with
  | true =>
    obtain ⟨tp, htp, -⟩ := (Option.any_eq_true _ _).mp hsolved
    exact isSome_of_evolves (hrows _) (by rw [htp]; rfl)
  | false =>
    refine h _ (List.mem_filterMap.mpr ⟨row, hrow, ?_⟩)
    have hunsolved : (cfg.unlockState team gameId v).states.isSolved row.1.id = false := by
      show isSolved v team (Gate.toI32 row.1.id) = false
      rw [hid, hsolved]
    simp [hc, hunsolved, hholds]

/-- A candidate is a puzzle. -/
lemma puzzle_of_candidate {state : Gate.RbPuzzleStates} {p : Id}
    (h : p ∈ unlockCandidates cfg state gameId) : (cfg.puzzle p).isSome = true := by
  obtain ⟨row, hrow, heq⟩ := List.mem_filterMap.mp h
  split at heq
  · cases heq
  · split_ifs at heq
    obtain rfl := Option.some.inj heq
    rw [Config.puzzle, List.find?_isSome]
    exact ⟨row.1, mem_puzzles_of_mem_gamePuzzles hrow, by simp⟩

end Candidates

/-! ## The statement that gives the puzzles -/

section Insert

variable {cfg : Config} {team a : Id} {unlocks : List Id} {v : View} {now : ℤ}
  {eff : Effect Val EventLogInput (List PuzzleRow)}

/-- The puzzles of a list that the team does not have. -/
abbrev missing (a : Id) (unlocks : List Id) (v : View) : List Id :=
  unlocks.dedup.filter fun p => (v (.teamPuzzle a p)).isNone

lemma insertTeamPuzzles_eq_ok (h : insertTeamPuzzles cfg a unlocks v now = .ok eff) :
    eff.val = (missing a unlocks v).filterMap cfg.puzzle ∧ eff.inserts = [] ∧
      eff.puts = (missing a unlocks v).map fun p => ⟨.teamPuzzle a p, some ⟨0, 0, now, none, none⟩⟩ := by
  obtain rfl := Except.ok.inj h
  exact ⟨rfl, rfl, rfl⟩

/-- A row that is given was not there; the others stay. -/
def GivenRow (a : Id) : (k : Key) → Val k → Val k → Prop
  | .teamPuzzle b _, x, y =>
    y = x ∨ b = a ∧ x = none ∧ ∃ tp, y = some tp ∧ tp.state = 0 ∧ tp.solveAt = none
  | _, x, y => y = x

lemma givenRow_refl (k : Key) (x : Val k) : GivenRow a k x x := by
  cases k <;> simp [GivenRow]

lemma insertTeamPuzzles_rows (h : insertTeamPuzzles cfg a unlocks v now = .ok eff) (k : Key) :
    GivenRow a k (v k) (applyPuts eff.puts v k) := by
  obtain ⟨-, -, hputs⟩ := insertTeamPuzzles_eq_ok h
  refine applyPuts_induction (q := fun k y => GivenRow a k (v k) y) (fun p hp => ?_) k
    fun _ => givenRow_refl k _
  rw [hputs] at hp
  obtain ⟨q, hq, rfl⟩ := List.mem_map.mp hp
  exact .inr ⟨rfl, by simpa using (List.mem_filter.mp hq).2, _, rfl, rfl, rfl⟩

/-- The row of a puzzle is there, where it is one of these. -/
def HasRow (a p : Id) : (k : Key) → Val k → Prop
  | .teamPuzzle b q, y => b = a ∧ q = p → y.isSome = true
  | _, _ => True

/-- Every puzzle of the list is there. -/
lemma insertTeamPuzzles_isSome (h : insertTeamPuzzles cfg a unlocks v now = .ok eff) {p : Id}
    (hp : p ∈ unlocks) : (applyPuts eff.puts v (.teamPuzzle a p)).isSome = true := by
  obtain ⟨-, -, hputs⟩ := insertTeamPuzzles_eq_ok h
  have hrow : HasRow a p (.teamPuzzle a p) (applyPuts eff.puts v (.teamPuzzle a p)) := by
    refine applyPuts_induction (q := HasRow a p) (fun r hr => ?_) (.teamPuzzle a p) fun hnot _ => ?_
    · rw [hputs] at hr
      obtain ⟨q, -, rfl⟩ := List.mem_map.mp hr
      intro _
      rfl
    · by_contra hnone
      refine hnot (List.mem_map.mpr ⟨⟨.teamPuzzle a p, some ⟨0, 0, now, none, none⟩⟩, ?_, rfl⟩)
      rw [hputs]
      refine List.mem_map.mpr ⟨p, List.mem_filter.mpr ⟨List.mem_dedup.mpr hp, ?_⟩, rfl⟩
      simpa using hnone
  exact hrow ⟨rfl, rfl⟩

/-- What is given is written down. -/
lemma insertTeamPuzzles_val (h : insertTeamPuzzles cfg a unlocks v now = .ok eff)
    (hcfg : ∀ p ∈ unlocks, (cfg.puzzle p).isSome = true) (hval : eff.val = []) : eff.puts = [] := by
  obtain ⟨hv, -, hputs⟩ := insertTeamPuzzles_eq_ok h
  rw [hputs, List.map_eq_nil_iff]
  rw [hv] at hval
  by_contra hne
  obtain ⟨p, hp⟩ := List.exists_mem_of_ne_nil _ hne
  obtain ⟨row, hrow⟩ := Option.isSome_iff_exists.mp
    (hcfg p (List.mem_dedup.mp (List.mem_of_mem_filter hp)))
  exact List.ne_nil_of_mem (List.mem_filterMap.mpr ⟨p, hp, hrow⟩) hval

section Given

variable {w : View} (h : ∀ k, GivenRow a k (v k) (w k))
include h

lemma evolves_of_given (k : Key) : Evolves team k (v k) (w k) := by
  have hk := h k
  cases k with
  | teamPuzzle b p =>
    intro tp htp
    rcases hk with hk | ⟨-, hnone, -⟩
    · exact ⟨tp, hk.trans htp, .inl rfl⟩
    · rw [hnone] at htp
      cases htp
  | _ =>
    simp only [GivenRow] at hk
    rw [hk]
    exact evolves_refl _ _ _

lemma guardedRow_of_given (k : Key) : GuardedRow team k (v k) (w k) := by
  have hk := h k
  cases k with
  | teamPuzzle b p =>
    intro _
    rcases hk with hk | ⟨-, hnone, tp, hsome, hstate, -⟩
    · rw [hk]
    · simp [hnone, hsome, hstate]
  | _ =>
    simp only [GivenRow] at hk
    rw [hk]
    exact guardedRow_refl _ _ _

/-- A puzzle that is given is not solved, and conditions do not see that it is there. -/
lemma gateSame_of_given : GateSame team v w := by
  refine ⟨funext fun p => guardedRow_of_given h (.teamPuzzle team p) rfl, ?_, ?_⟩
  · funext key
    have hk : w (.trigger team key.1 key.2) = v (.trigger team key.1 key.2) :=
      h (.trigger team key.1 key.2)
    rw [isTriggered, hk, isTriggered]
  · have hk : w (.team team) = v (.team team) := h (.team team)
    rw [isStarted, hk, isStarted]

/-- Nor does the board. -/
lemma boardSame_of_given : BoardSame team v w := by
  refine ⟨funext fun p => ?_, ?_⟩
  · rcases h (.teamPuzzle team p) with hk | ⟨-, hnone, tp, hsome, hstate, hsolve⟩
    · rw [ranked, hk, ranked]
    · simp [ranked, hnone, hsome, core, hstate, hsolve]
  · have hk : w (.team team) = v (.team team) := h (.team team)
    rw [hk]

lemma isDirty_of_given : isDirty w team = isDirty v team := by
  have hk : w (.team team) = v (.team team) := h (.team team)
  rw [isDirty, hk, isDirty]

lemma not_solves_of_given (p : Id) : ¬ Solves team p v w := by
  rintro ⟨h0, h1⟩
  rcases h (.teamPuzzle team p) with hk | ⟨-, hnone, -⟩
  · rw [hk] at h1
    cases hv : v (.teamPuzzle team p) with
    | none => simp [hv] at h0
    | some tp =>
      simp only [hv, Option.any_some, decide_eq_true_eq] at h0 h1
      omega
  · simp [hnone] at h0

end Given

end Insert

/-! ## The call -/

section Triples

variable {S : Setting} {t : Tid} {ok : Label → Store → Prop} {a : Id} {d d' : Store}

/-- The commit that gives the team puzzles. -/
lemma commits_of_given {e : GameCommit}
    (hrows : ∀ k, GivenRow a k (e.before k) (e.after k)) (hlog : e.inserted = [])
    (hpaid : ¬ Owes S.team (commitsOf t d)) : Commits S t d e := by
  have hsolve : ∀ p, ¬ Solves S.team p e.before e.after := not_solves_of_given hrows
  refine ⟨⟨fun k => evolves_of_given hrows k, fun p tp hnone hsome => ?_, fun p hs => absurd hs (hsolve p),
    fun p => ?_, fun hint _ hev => ?_⟩, .inr fun k => guardedRow_of_given hrows k,
    fun hadv => absurd (gateSame_of_given hrows) hadv, fun hd hn => ?_, fun ho => absurd ho hpaid⟩
  · rcases hrows (.teamPuzzle S.team p) with hk | ⟨-, -, tp', hsome', hstate, hsolve⟩
    · rw [hk, hnone] at hsome
      cases hsome
    · obtain rfl := Option.some.inj (hsome'.symm.trans hsome)
      rw [core, hstate, hsolve]
  · rw [hlog, if_neg fun hs => hsolve p hs.2]
    rfl
  · rw [hlog] at hev
    cases hev
  · rw [isDirty_of_given hrows, hd] at hn
    cases hn

/-- The list is what the state of the team opens, as far as the call can know. -/
def Opens (S : Setting) (t : Tid) (a : Id) (unlocks : List Id) (d : Store) : Prop :=
  a = S.team → LastBy (Advances S.team) t d.journal →
    unlocks = unlockCandidates S.cfg (S.cfg.unlockState S.team S.gameId d.committed) S.gameId

lemma stable_opens {unlocks : List Id} : Stable ((conduct S).Others t) (Opens S t a unlocks) := by
  intro d d' h hr ha
  refine stable_lastBy (p := fun v =>
    unlocks = unlockCandidates S.cfg (S.cfg.unlockState S.team S.gameId v) S.gameId)
    (fun h hg _ => ?_) d d' (h ha) hr
  rwa [unlockState_congr hg]

/-- What the statement leaves. -/
lemma unlocked_of_insert {unlocks : List Id} {eff : Effect Val EventLogInput (List PuzzleRow)}
    {scan : Prop} (hcfg : S.cfg.InRange) (hopen : Opens S t a unlocks d)
    (hk : Knows S t { scan := a = S.team ∧ scan } d)
    (he : insertTeamPuzzles S.cfg a unlocks d.committed d.now = .ok eff)
    (hlast : LastBy (Advances S.team) t d.journal) :
    Unlocked S.cfg S.team S.gameId (applyPuts eff.puts d.committed) := by
  have hrows := insertTeamPuzzles_rows he
  have hsame : GateSame S.team d.committed (applyPuts eff.puts d.committed) :=
    gateSame_of_given hrows
  by_cases ha : a = S.team
  · subst ha
    refine unlocked_of_candidates hcfg hsame (fun k => evolves_of_given hrows k) fun p hp => ?_
    rw [← hopen rfl hlast] at hp
    exact insertTeamPuzzles_isSome he hp
  · exact (hk.scanned (fun hs => ha hs.1) hlast).of_gateSame hsame fun k => evolves_of_given hrows k

/-- **The statement that gives the puzzles**: the team then has every puzzle its state opens, and
where there is something to give the mark of the content blocks is due. -/
lemma insertTeamPuzzles_triple (hcfg : S.cfg.InRange) {scan : Prop} {unlocks : List Id}
    (hunlocks : ∀ p ∈ unlocks, (S.cfg.puzzle p).isSome = true) :
    Keeps S t ok
      (fun d => Rests S t { scan := a = S.team ∧ scan } d ∧ Opens S t a unlocks d)
      (Tx.pool t .stmt (insertTeamPuzzles S.cfg a unlocks))
      (Post (fun rows => Rests S t { pay := a = S.team ∧ rows ≠ [] }) fun _ => Rests S t {}) := by
  refine Tx.pool_records_triple (stable_rests.and stable_opens)
    (stable_post (fun _ => stable_rests) fun _ => stable_rests) (fun d hd => hd.1.1)
    (fun d eff hd _ he hputs _ => ?_) (fun d d' eff hd _ he _ hr => ?_) fun d e _ _ he => ?_
  · refine ⟨hd.1.1, fun _ => hd.1.2.paid id, fun hf _ => hd.1.2.marked hf id, fun _ hlast => ?_⟩
    have hun := unlocked_of_insert hcfg hd.2 hd.1.2 he hlast
    rwa [hputs] at hun
  · have hrows := insertTeamPuzzles_rows he
    have hsame : GateSame S.team d.committed (applyPuts eff.puts d.committed) :=
      gateSame_of_given hrows
    refine ⟨commits_of_given hrows (insertTeamPuzzles_eq_ok he).2.1 (hd.1.2.paid id), hr.noTx,
      hd.1.2.commit hr (fun hpay => ?_) (fun _ _ => ?_) fun _ hlast => ?_⟩
    · rintro ⟨p, hnone, hsome⟩
      rcases hrows (.teamPuzzle S.team p) with hk | ⟨ha, -⟩
      · exact hsome (hk.trans hnone)
      · have hval : eff.val = [] := not_not.mp fun hne => hpay ⟨ha.symm, hne⟩
        have hputs : eff.puts = [] := insertTeamPuzzles_val he hunlocks hval
        rw [hputs] at hsome
        exact hsome hnone
    · exact ⟨not_not.mpr (boardSame_of_given hrows), .inr id⟩
    · exact unlocked_of_insert hcfg hd.2 hd.1.2 he (hlast.resolve_left fun hadv => hadv hsame)
  · cases he

/-- Where there is nothing to give, the team has what its state opens. -/
lemma Opens.rests {scan : Prop} (hcfg : S.cfg.InRange) (h : Opens S t a [] d)
    (hd : Rests S t { scan := a = S.team ∧ scan } d) : Rests S t {} d := by
  refine ⟨hd.1, fun _ => hd.2.paid id, fun hf _ => hd.2.marked hf id, fun _ hlast => ?_⟩
  by_cases ha : a = S.team
  · refine unlocked_of_candidates hcfg (GateSame.refl _ _) (fun k => evolves_refl _ _ _) fun p hp => ?_
    rw [← h ha hlast] at hp
    cases hp
  · exact hd.2.scanned (fun hs => ha hs.1) hlast

/-- The end of the call: the puzzles, the mark of the content blocks, the events. -/
lemma insertUnlocks_triple (hok : ∀ l d, ok l d → Conducted S d) (hcfg : S.cfg.InRange)
    {scan : Prop} {gameId : Id} {unlocks : List Id}
    (hunlocks : ∀ p ∈ unlocks, (S.cfg.puzzle p).isSome = true) :
    Keeps S t ok
      (fun d => Rests S t { scan := a = S.team ∧ scan } d ∧ Opens S t a unlocks d)
      (insertUnlocks S.cfg t a gameId unlocks) fun _ => Rests S t {} := by
  unfold insertUnlocks
  split
  · rename_i hempty
    rw [List.isEmpty_iff] at hempty
    subst hempty
    exact Settles.pure (stable_rests.and stable_opens) fun d hd => hd.2.rests hcfg hd.1
  · refine Settles.bind (insertTeamPuzzles_triple hcfg hunlocks) fun rows => ?_
    split
    · rename_i hrows
      rw [List.isEmpty_iff] at hrows
      refine Settles.pure stable_rests fun d hd => ⟨hd.1, hd.2.mono (fun _ => id) id fun hp => ?_⟩
      exact hp.2 hrows
    · refine Settles.step (markTeamDirty_pool_triple hok) fun _ => ?_
      refine Settles.step (closed_settles.forM (fun row => ?_) rows) fun _ =>
        Settles.pure stable_rests fun _ h => h
      exact calm_pool_triple id (isCalm_insertEvent rfl)

/-- The first read sees the state of the team, as far as the call can know. -/
def Sees (S : Setting) (t : Tid) (a : Id) : Option (Id × Option ℤ × (Id → Bool)) → Store → Prop
  | none, _ => a ≠ S.team
  | some (gameId, startAt, solved), d => a = S.team → gameId = S.gameId ∧
      (LastBy (Advances S.team) t d.journal →
        solved = isSolved d.committed S.team ∧ startAt.isSome = isStarted d.committed S.team)

lemma stable_sees (info : Option (Id × Option ℤ × (Id → Bool))) :
    Stable ((conduct S).Others t) (Sees S t a info) := by
  intro d d' h hr
  cases info with
  | none => exact h
  | some info =>
    intro ha
    refine ⟨(h ha).1, stable_lastBy (p := fun v =>
      info.2.2 = isSolved v S.team ∧ info.2.1.isSome = isStarted v S.team)
      (fun h hg _ => ?_) d d' (h ha).2 hr⟩
    rwa [hg.solved, hg.started]

lemma selectUnlockInfo_sees {info : Option (Id × Option ℤ × (Id → Bool))} (hd : Conducted S d)
    (h : (.ok ((d.committed (.team a)).map fun tm =>
      (tm.gameId, tm.startAt, isSolved d.committed a)) : Except String _) = .ok info) :
    Sees S t a info d := by
  obtain rfl := Except.ok.inj h
  obtain ⟨tm', htm', hgame⟩ := hd.team.exists
  cases htm : d.committed (.team a) with
  | none =>
    rintro rfl
    rw [htm] at htm'
    cases htm'
  | some tm =>
    rintro rfl
    obtain rfl := Option.some.inj (htm.symm.trans htm')
    exact ⟨hgame, fun _ => ⟨rfl, by simp [isStarted, htm]⟩⟩

/-- **`unlock_new_puzzles`** finds what the call's own commit has opened. -/
lemma unlockNewPuzzles_triple (hok : ∀ l d, ok l d → Conducted S d) (hcfg : S.cfg.InRange)
    {scan : Prop} :
    Settles S t ok (Rests S t { scan := a = S.team ∧ scan }) (unlockNewPuzzles S.cfg t a) := by
  refine Settles.bind (B := fun info d => Rests S t { scan := a = S.team ∧ scan } d ∧
    Sees S t a info d)
    (Tx.pool_read_triple stable_rests (fun info => stable_rests.and (stable_sees info))
      (fun _ => stable_rests) (fun d info hd ho hinfo => ⟨hd, selectUnlockInfo_sees (hok _ d ho) hinfo⟩)
      fun d e _ _ he => by cases he) fun info => ?_
  rcases info with _ | ⟨gameId, startAt, solved⟩
  · refine Settles.pure (stable_rests.and (stable_sees none)) fun d hd => ?_
    exact ⟨hd.1.1, hd.1.2.mono (fun _ => id) (fun hs => hd.2 hs.1) id⟩
  · refine Settles.bind (B := fun triggers d => Rests S t { scan := a = S.team ∧ scan } d ∧
      Opens S t a (unlockCandidates S.cfg (S.cfg.gateState gameId
        (fun row => row.2.gameId = gameId) solved triggers startAt.isSome) gameId) d)
      (Tx.pool_read_triple (stable_rests.and (stable_sees _)) (fun _ => stable_rests.and stable_opens)
        (fun _ => stable_rests) (fun d triggers hd _ htr => ?_) fun d e _ _ he => by cases he)
      fun triggers => insertUnlocks_triple hok hcfg fun p hp => puzzle_of_candidate hp
    obtain rfl := Except.ok.inj htr
    refine ⟨hd.1, fun ha hlast => ?_⟩
    obtain ⟨hgame, hsees⟩ := hd.2 ha
    obtain ⟨hsolved, hstarted⟩ := hsees hlast
    rw [hgame, hsolved, hstarted, ha]
    rfl

end Triples

end Play
