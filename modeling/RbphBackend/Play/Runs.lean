import RbphBackend.Play.CallTriples
import RbphBackend.Play.Refresher

set_option relaxedAutoImplicit false
set_option autoImplicit false

/-!
# Runs of the calls of a game

Any number of calls, interleaved in any way. Every commit conducts itself as the discipline says, so
a puzzle is solved once, with its event and its tickets; and nothing is due of a call that has
returned, so the team has every puzzle and every content block its state opens, and the board is
marked.

## Main definitions

* `Play.Begins` — where a run begins.
* `Play.Progressed` — what one commit does to the progress of a team.

## Main results

* `Play.conducted_of_reaches` — the rule of the pool.
* `Play.solvedOnce_of_reaches` — a puzzle is solved at most once.
* `Play.unlocked_of_reaches` — no puzzle is lost to two calls that race.
* `Play.recorded_of_reaches` — a team that is not marked dirty has all its content blocks.
* `Play.marked_of_reaches` — what the board ranks changes only before a mark.
* `Play.hintChargedOnce_of_reaches` — a hint that is not unlocked is charged for once.
-/

namespace Play

open Concurrency ReadCommitted Numeric Database Currency

/-! ## The rule of the pool -/

/-- Where a run begins. -/
structure Begins (S : Setting) (d : Store) : Prop where
  idle : d.Idle
  origin : S.origin = d.committed
  team : HasTeam S.team S.gameId d.committed
  start_le : S.start ≤ d.now
  clean : isDirty d.committed S.team = false → Recorded S.cfg S.team S.gameId S.start d.committed

section Pool

variable {S : Setting} {t : Tid} {ok : Tid → Label → Store → Prop} {d : Store}
  {c' : Concurrency.Config Label Store (Except String (Option GameResult))}

lemma Begins.conducted (h : Begins S d) : Conducted S d :=
  ⟨h.origin ▸ Journaled.of_idle h.idle, h.team, h.start_le, fun hclean => .inl (h.clean hclean)⟩

/-- The call of a thread leaves nothing due. -/
lemma call_settles {ok : Label → Store → Prop} (h : Admits S t ok) (hcfg : S.cfg.InRange)
    {call : GameCall} (hcall : S.calls t = some call) :
    Settles S t ok (Rests S t {}) (call.run S.cfg t) := by
  have hΦ : Closed fun {_} p => Settles S t ok (Rests S t {}) p := closed_settles
  have hsubmits : S.submits t = call.submits := by rw [Setting.submits, hcall, Option.any_some]
  cases call with
  | submitAnswer user puzzle answer submitId =>
    exact hΦ.bind (submitAnswer_settles h hcfg hsubmits) fun _ => hΦ.pure _
  | purchaseHint user hint =>
    exact hΦ.bind (purchaseHint_settles h hcfg hsubmits) fun _ => hΦ.pure _
  | solveBackendPuzzle team user puzzle submission =>
    exact hΦ.bind (solveBackendPuzzle_settles h hcfg hsubmits) fun _ => hΦ.pure _
  | refreshTeamUnlocksIfDirty team gameId =>
    exact hΦ.bind (refreshTeamUnlocksIfDirty_settles h) fun _ => hΦ.pure _

/-- A thread leaves nothing due. -/
lemma thread_triple {ok : Label → Store → Prop} (h : Admits S t ok) (hcfg : S.cfg.InRange) :
    Prog.Triple ((conduct S).Others t) ok ((conduct S).Guarantee t) (Rests S t {})
      (thread S.cfg S.calls t) fun _ => Rests S t {} := by
  unfold thread
  split
  · exact Prog.Triple.ret stable_rests fun _ h => h
  · rename_i call hcall
    exact Settles.step (call_settles h hcfg hcall) fun _ => Settles.pure stable_rests fun _ h => h

/-- **The rule of the pool**: every run conducts itself, and nothing is due of a thread that has
returned. -/
theorem conducted_of_reaches (hcfg : S.cfg.InRange) (hd : Begins S d)
    (hadmits : ∀ t, Admits S t fun l d => ok t l d ∧ Conducted S d)
    (hr : Reaches Tick ok (pool S.cfg S.calls d) c') :
    Conducted S c'.shared ∧ ∀ t r, c'.threads t = .ret r → Rests S t {} c'.shared :=
  Discipline.reaches (D := conduct S) (c := pool S.cfg S.calls d) (Q := fun t _ => Rests S t {})
    hd.conducted
    (fun t => thread_triple (hadmits t) hcfg _ (rests_of_idle hd.idle)) hr

end Pool

/-! ## Where nothing is released -/

section Release

variable {cfg : Config} {team gameId : Id} {d : Store} {now : ℤ}

/-- The instants at which puzzles are released. -/
def Config.releases (cfg : Config) : List ℤ :=
  cfg.puzzles.filterMap (·.immediateReleaseAt) ++ cfg.phases.map (·.releaseAt)

lemma effectiveRelease_mem {p : Id} {i : ℤ} (h : cfg.effectiveRelease p = some i) :
    i ∈ cfg.releases := by
  obtain ⟨row, hrow, hi⟩ := Option.bind_eq_some_iff.mp h
  rw [Config.releases, List.mem_append, List.mem_filterMap, List.mem_map]
  rcases Option.or_eq_some_iff.mp hi with himm | ⟨-, hphase⟩
  · exact .inl ⟨row, List.mem_of_find?_eq_some hrow, himm⟩
  · obtain ⟨phase, -, hphase⟩ := Option.bind_eq_some_iff.mp hphase
    obtain ⟨ph, hph, rfl⟩ := Option.map_eq_some_iff.mp hphase
    exact .inr ⟨ph, List.mem_of_find?_eq_some hph, rfl⟩

/-- There is an instant before all releases. -/
lemma exists_unreleased (cfg : Config) (now : ℤ) :
    ∃ start ≤ now, ∀ p, cfg.released p start = false := by
  obtain ⟨b, hb⟩ : ∃ b : ℤ, ∀ i ∈ cfg.releases, b ≤ i := by
    induction cfg.releases with
    | nil => exact ⟨0, by simp⟩
    | cons i l ih =>
      obtain ⟨b, hb⟩ := ih
      refine ⟨min b i, fun j hj => ?_⟩
      rcases List.mem_cons.mp hj with rfl | hj
      · exact min_le_right _ _
      · exact (min_le_left _ _).trans (hb j hj)
  refine ⟨min now (b - 1), min_le_left _ _, fun p => ?_⟩
  rw [Config.released]
  cases hi : cfg.effectiveRelease p with
  | none => rfl
  | some i =>
    have hle := hb i (effectiveRelease_mem hi)
    rw [Option.any_some, decide_eq_false_iff_not]
    omega

/-- Where nothing is released, every record is there. -/
lemma recorded_of_unreleased {v : View} (h : ∀ p, cfg.released p now = false) :
    Recorded cfg team gameId now v := by
  intro cb _ _ hacc
  have hnone : ∀ p, cfg.hasReleased v now team p = false := fun p => by
    rw [Config.hasReleased, h, Bool.and_false]
  rw [Config.isAccessible, Bool.or_eq_true] at hacc
  rcases hacc with hp | hr
  · obtain ⟨p, -, hp⟩ := (Option.any_eq_true _ _).mp hp
    rw [hnone] at hp
    cases hp
  · obtain ⟨r, -, hr⟩ := (Option.any_eq_true _ _).mp hr
    obtain ⟨p, -, hp⟩ := List.any_eq_true.mp hr
    rw [hnone, Bool.and_false] at hp
    cases hp

end Release

/-! ## A small game -/

/-- A game of one puzzle that any answer solves. -/
def smallGame : Config where
  rounds := [⟨1, none, 0, 1, none⟩]
  puzzles := [⟨1, 1, none, 0, "a puzzle", 0, "", "", "", none, none, none, some 0, 1, false, 0, 0⟩]
  phases := []
  hints := []
  contentBlocks := []
  user _ := some "a user"
  doubles := Backend.integers
  backend _ := none
  currencyIds := []
  ticketIds := []
  judgeRules _ := .ok [⟨some "all", none, some "correct", none, none, none, []⟩]
  penaltyRules _ := .ok []
  submitRequirements _ := .ok []
  toLowercase c := [c]

lemma smallGame_inRange : smallGame.InRange := by simp [Config.InRange, smallGame, Gate.i32Max]

/-- The row of a team that has started and has not finished. -/
def smallTeam : Σ k, Val k := ⟨.team 1, some ⟨1, "a team", false, false, some 0, none, true⟩⟩

/-- A submission, and a backend function that solves the puzzle for another one. -/
def racers : Tid → Option GameCall
  | 0 => some (.submitAnswer ⟨7, some 1⟩ 1 "answer" 6)
  | 1 => some (.solveBackendPuzzle 1 7 1 5)
  | _ => none

/-- The puzzle is not solved. -/
def racedStore : Store := Db.init 0 (applyPuts [smallTeam, ⟨.teamMember 7 1, some 1⟩,
  ⟨.teamPuzzle 1 1, some ⟨0, 0, 0, none, none⟩⟩,
  ⟨.submissions 1 1, [⟨5, 7, "first", "first", 1, none, none, false, 0⟩]⟩] noRows)

lemma hasTeam_racedStore : HasTeam 1 1 racedStore.committed := by
  rw [HasTeam]
  decide +kernel

/-- The backend function waits for the submission, and finds the puzzle solved. -/
def racedSchedule : List (Move Store) :=
  [.thread 0, .thread 1] ++ List.replicate 11 (.thread 0) ++ List.replicate 4 (.thread 1) ++
    List.replicate 7 (.thread 0)

lemma exists_ret_ok {α : Type} {p : Prog Label Store (Except String α)}
    (h : p.result?.any Except.isOk = true) : ∃ r, p = .ret (.ok r) := by
  obtain ⟨r, hr, hok⟩ := (Option.any_eq_true _ _).mp h
  cases r with
  | error e => cases hok
  | ok r => exact ⟨r, Prog.eq_ret_of_result? hr⟩

/-- The run of the two. -/
lemma exists_raced (ok : Tid → Label → Store → Prop) [∀ t l d, Decidable (ok t l d)]
    (h : (exec ok (pool smallGame racers racedStore) racedSchedule).any (fun c' =>
      (c'.threads 0).result?.any Except.isOk && (c'.threads 1).result?.any Except.isOk &&
        c'.shared.now = 0 && c'.shared.journal.any fun e =>
          isSolved e.after 1 1 && !isSolved e.before 1 1) = true) :
    ∃ c', Reaches Tick ok (pool smallGame racers racedStore) c' ∧
      (∀ t, ∃ r, c'.threads t = .ret (.ok r)) ∧ c'.shared.now = 0 ∧
        ∃ e ∈ c'.shared.journal, Advances 1 e := by
  obtain ⟨c', hr, hc'⟩ := exists_reaches_of_exec Tick ok racedSchedule (by simp [racedSchedule]) h
  simp only [Bool.and_eq_true, decide_eq_true_eq] at hc'
  obtain ⟨⟨⟨h0, h1⟩, hnow⟩, hadv⟩ := hc'
  refine ⟨c', hr, fun t => ?_, hnow, ?_⟩
  · match t with
    | 0 => exact exists_ret_ok h0
    | 1 => exact exists_ret_ok h1
    | t + 2 => exact ⟨none, hr.ret rfl⟩
  · obtain ⟨e, he, hsolved⟩ := List.any_eq_true.mp hadv
    refine ⟨e, he, fun hsame => ?_⟩
    rw [hsame.solved] at hsolved
    simp at hsolved

/-! ## Every run -/

section Reaches

variable {cfg : Config} {calls : Tid → Option GameCall} {team gameId : Id} {d : Store}
  {ok : Tid → Label → Store → Prop}
  {c' : Concurrency.Config Label Store (Except String (Option GameResult))}

/-- A run from a store with no open transaction, where the team plays the game. A hint of `new` is
unlocked only where it was not; where `fin`, no submission ends the game beside a puzzle that is not
to be solved. -/
lemma exists_conducted (new : Id → Prop) (fin : Prop) (hcfg : cfg.InRange) (hidle : d.Idle)
    (hteam : HasTeam team gameId d.committed)
    (hfin : fin → ∀ t puzzle submission d, ok t (.solveBackend team puzzle submission) d →
      missesMark team puzzle submission (d.view t) = false)
    (hnew : ∀ hint, new hint → ∀ t d, ok t (.unlockHint team hint) d →
      d.view t (.teamHint team hint) ≠ some true)
    (hr : Reaches Tick ok (pool cfg calls d) c') :
    ∃ start, Conducted ⟨cfg, calls, team, gameId, new, fin, d.committed, start⟩ c'.shared ∧
      ∀ t r, c'.threads t = .ret r →
        Rests ⟨cfg, calls, team, gameId, new, fin, d.committed, start⟩ t {} c'.shared := by
  obtain ⟨start, hle, hun⟩ := exists_unreleased cfg d.now
  refine ⟨start, conducted_of_reaches (d := d) hcfg ?_ (fun t => ?_) hr⟩
  · exact ⟨hidle, rfl, hteam, hle, fun _ => recorded_of_unreleased hun⟩
  · exact ⟨fun _ _ ho => ho.2, fun hf puzzle submission d ho => hfin hf t _ _ d ho.1,
      fun hint hn d ho => hnew hint hn t d ho.1⟩

/-- What one commit does to the progress of a team: it changes the instant a puzzle was solved only
where it solves the puzzle, it keeps the instants the game was started and finished, it closes the
tickets of a puzzle it solves, and logs the puzzle once where it is a submission. -/
structure Progressed (cfg : Config) (calls : Tid → Option GameCall) (team : Id) (e : GameCommit) :
    Prop where
  solveAt : ∀ p, (e.after (.teamPuzzle team p)).bind (·.solveAt) ≠
    (e.before (.teamPuzzle team p)).bind (·.solveAt) → Solves team p e.before e.after
  startAt : ∀ i, (e.before (.team team)).bind (·.startAt) = some i →
    (e.after (.team team)).bind (·.startAt) = some i
  finishAt : ∀ i, (e.before (.team team)).bind (·.finishAt) = some i →
    (e.after (.team team)).bind (·.finishAt) = some i
  solvedEvents : ∀ p, e.inserted.countP (isSolvedEvent team p) =
    if (calls e.tid).any GameCall.submits = true ∧ Solves team p e.before e.after then 1 else 0
  closes : ∀ p, Solves team p e.before e.after → ∀ id ∈ cfg.ticketIds,
    (e.before (.ticket id)).any (Ticket.isOpen team p) = true →
      (e.after (.ticket id)).any (fun tk => decide (tk.state = 0)) = true

lemma Plays.progressed {S : Setting} {e : GameCommit} (h : Plays S e) :
    Progressed S.cfg S.calls S.team e := by
  have hrow := h.rows (.team S.team) rfl
  refine ⟨fun p hne => ?_, fun i hi => ?_, fun i hi => ?_, h.solvedEvents, h.closes⟩
  · cases hx : e.before (.teamPuzzle S.team p) with
    | none =>
      rw [hx] at hne
      cases hy : e.after (.teamPuzzle S.team p) with
      | none => rw [hy] at hne; exact absurd rfl hne
      | some tp =>
        have hcore := congrArg Prod.snd (h.given p tp hx hy)
        rw [hy] at hne
        exact absurd hcore hne
    | some tp =>
      obtain ⟨tp', hy, hcore | ⟨h0, h1⟩⟩ := h.rows (.teamPuzzle S.team p) tp hx
      · rw [hx, hy] at hne
        exact absurd (congrArg Prod.snd hcore) hne
      · exact ⟨by simp [hx, h0], by simp [hy, h1]⟩
  · obtain ⟨tm, hx, hstart⟩ := Option.bind_eq_some_iff.mp hi
    cases hy : e.after (.team S.team) with
    | none => rw [hx, hy] at hrow; cases hrow
    | some tm' =>
      rw [hx, hy] at hrow
      cases hrow with
      | some hrow => exact hrow.2.1 i hstart
  · obtain ⟨tm, hx, hfinish⟩ := Option.bind_eq_some_iff.mp hi
    cases hy : e.after (.team S.team) with
    | none => rw [hx, hy] at hrow; cases hrow
    | some tm' =>
      rw [hx, hy] at hrow
      cases hrow with
      | some hrow => exact hrow.2.2 i hfinish

/-- A commit that solves a puzzle finds it unsolved, and a solved puzzle stays solved. -/
lemma countP_solves_le_one {S : Setting} {d : Store} (h : Conducted S d) (p : Id) :
    d.journal.countP (fun e => decide (Solves S.team p e.before e.after)) ≤ 1 := by
  refine h.journaled.linked.countP_le_one
    (p := fun v => (v (.teamPuzzle S.team p)).any (fun tp => decide (tp.state = 1)) = true)
    (fun e _ hs => ?_) fun e he hup => ?_
  · obtain ⟨h0, h1⟩ := of_decide_eq_true hs
    refine ⟨fun hup => ?_, h1⟩
    obtain ⟨tp, htp, hstate⟩ := (Option.any_eq_true _ _).mp hup
    rw [htp, Option.any_some, decide_eq_true_eq] at h0
    rw [decide_eq_true_eq] at hstate
    omega
  · obtain ⟨tp, htp, hstate⟩ := (Option.any_eq_true _ _).mp hup
    obtain ⟨tp', htp', hcore⟩ := (h.journaled.commits e he).rows (.teamPuzzle S.team p) tp htp
    rw [decide_eq_true_eq] at hstate
    rcases hcore with hcore | ⟨h0, -⟩
    · have hsame : tp'.state = tp.state := congrArg Prod.fst hcore
      simp [htp', hsame, hstate]
    · omega

/-- **A puzzle is solved at most once**, in every run, and every commit keeps to what the progress of
a team is made of. -/
theorem solvedOnce_of_reaches (hcfg : cfg.InRange) (hidle : d.Idle)
    (hteam : HasTeam team gameId d.committed) (hr : Reaches Tick Always (pool cfg calls d) c') :
    Linked d.committed c'.shared.journal c'.shared.committed ∧
      (∀ p, c'.shared.journal.countP (fun e => decide (Solves team p e.before e.after)) ≤ 1) ∧
      ∀ e ∈ c'.shared.journal, Progressed cfg calls team e := by
  obtain ⟨start, hcon, -⟩ := exists_conducted (fun _ => False) False hcfg hidle hteam False.elim
    (fun _ => False.elim) hr
  exact ⟨hcon.journaled.linked, fun p => countP_solves_le_one hcon p,
    fun e he => (hcon.journaled.commits e he).progressed⟩

/-- A submission and a backend function that race for one puzzle. -/
theorem solvedOnce_of_reaches_raced : ∃ c', Reaches Tick Always (pool smallGame racers racedStore) c' ∧
    (∃ e ∈ c'.shared.journal, Advances 1 e) ∧
    ∀ p, c'.shared.journal.countP (fun e => decide (Solves 1 p e.before e.after)) ≤ 1 := by
  obtain ⟨c', hr, -, -, hadv⟩ := exists_raced Always (by decide +kernel)
  exact ⟨c', hr, hadv, (solvedOnce_of_reaches smallGame_inRange (Db.init_idle _ _)
    hasTeam_racedStore hr).2.1⟩

/-- The commit gives the team the puzzle. -/
def Gives (team puzzle : Id) (e : GameCommit) : Bool :=
  (e.before (.teamPuzzle team puzzle)).isNone && (e.after (.teamPuzzle team puzzle)).isSome

/-- A puzzle is given once. -/
lemma countP_gives_le_one {S : Setting} {d : Store} (h : Conducted S d) (p : Id) :
    d.journal.countP (Gives S.team p) ≤ 1 := by
  refine h.journaled.linked.countP_le_one
    (p := fun v => (v (.teamPuzzle S.team p)).isSome = true) (fun e _ hg => ?_) fun e he hup => ?_
  · rw [Gives, Bool.and_eq_true, Option.isNone_iff_eq_none] at hg
    exact ⟨by simp [hg.1], hg.2⟩
  · exact isSome_of_evolves ((h.journaled.commits e he).rows _) hup

/-- No submission that ends the game is found beside a puzzle that is not to be solved. -/
def EndsBySolving (team : Id) (t : Tid) : Label → Store → Prop
  | .solveBackend b puzzle submission, d =>
    b = team → missesMark b puzzle submission (d.view t) = false
  | _, _ => True

instance (team : Id) (t : Tid) (l : Label) (d : Store) : Decidable (EndsBySolving team t l d) :=
  match l with
  | .solveBackend .. => inferInstanceAs (Decidable (_ → _))
  | .stmt | .unlockHint .. | .lockRuntime .. | .chargeHint .. | .chargeTicketMessage ..
  | .deleteTeam _ => instDecidableTrue

/-- **What the board ranks changes only before a mark**, in every run in which no submission ends the
game beside a puzzle that is not to be solved: when a call has returned, each of its commits that
changes what the board ranks of the team is followed by one of its commits that marks the team. -/
theorem marked_of_reaches (hcfg : cfg.InRange) (hidle : d.Idle)
    (hteam : HasTeam team gameId d.committed)
    (hr : Reaches Tick (EndsBySolving team) (pool cfg calls d) c') {t : Tid}
    {r : Option GameResult} (ht : c'.threads t = .ret (.ok r)) :
    Followed (Reranks team) (Marks team) (commitsOf t c'.shared) := by
  obtain ⟨start, -, hrests⟩ := exists_conducted (fun _ => False) True hcfg hidle hteam
    (fun _ t puzzle submission d ho => ho rfl) (fun _ => False.elim) hr
  exact (hrests t _ ht).2.marked trivial id

/-- The submission marks the board. -/
theorem marked_of_reaches_raced : ∃ c',
    Reaches Tick (EndsBySolving 1) (pool smallGame racers racedStore) c' ∧
      Followed (Reranks 1) (Marks 1) (commitsOf 0 c'.shared) := by
  obtain ⟨c', hr, hdone, -, -⟩ := exists_raced (EndsBySolving 1) (by decide +kernel)
  obtain ⟨r, ht⟩ := hdone 0
  exact ⟨c', hr, marked_of_reaches smallGame_inRange (Db.init_idle _ _)
    hasTeam_racedStore hr ht⟩

/-- The puzzle is solved, and the submission ends the game. -/
def endedStore : Store := Db.init 0 (applyPuts [smallTeam,
  ⟨.teamPuzzle 1 1, some ⟨1, 0, 0, some 0, none⟩⟩,
  ⟨.submissions 1 1, [⟨5, 7, "first", "first", 5, none, none, false, 0⟩]⟩] noRows)

/-- **The end of the game is not marked**: the backend function finds the puzzle solved, sets the end
of the game, and returns. -/
theorem ended_unmarked : ∃ c' r, Reaches Tick Always (pool smallGame racers endedStore) c' ∧
    c'.threads 1 = .ret (.ok r) ∧ ¬ Followed (Reranks 1) (Marks 1) (commitsOf 1 c'.shared) := by
  obtain ⟨c', hr, hc'⟩ := exists_reaches_of_exec Tick Always (c := pool smallGame racers endedStore)
    (List.replicate 6 (.thread 1)) (p := fun c' => (c'.threads 1).result?.any Except.isOk &&
      ((commitsOf 1 c'.shared).length = 1) && (commitsOf 1 c'.shared).all fun e =>
        ((e.before (.team 1)).map fun tm => (tm.startAt, tm.finishAt)) = some (some 0, none) &&
        ((e.after (.team 1)).map fun tm => (tm.startAt, tm.finishAt)) = some (some 0, some 0))
    (by simp) (by decide +kernel)
  simp only [Bool.and_eq_true, decide_eq_true_eq] at hc'
  obtain ⟨⟨h1, hlen⟩, hall⟩ := hc'
  obtain ⟨e, he⟩ := List.length_eq_one_iff.mp hlen
  obtain ⟨r, ht⟩ := exists_ret_ok h1
  refine ⟨c', r, hr, ht, fun hf => ?_⟩
  rw [he, List.all_cons, List.all_nil, Bool.and_true, Bool.and_eq_true, decide_eq_true_eq,
    decide_eq_true_eq] at hall
  obtain ⟨e', he', -⟩ := hf [] e [] he fun hsame => by
    have hteam := hsame.team
    rw [hall.1, hall.2] at hteam
    simp at hteam
  simp at he'

/-- The commit takes the price of the hint: its event says how much. -/
def ChargesHint (team hint : Id) (e : GameCommit) : Bool :=
  e.inserted.any fun ev => isPurchaseEvent team hint ev && ev.deltaAmount.isSome

/-- The hint is not unlocked when a purchase unlocks it. -/
def UnlocksNew (team hint : Id) (t : Tid) (l : Label) (d : Store) : Prop :=
  l = .unlockHint team hint → d.view t (.teamHint team hint) ≠ some true

instance (team hint : Id) (t : Tid) (l : Label) (d : Store) : Decidable (UnlocksNew team hint t l d) :=
  inferInstanceAs (Decidable (_ → _))

/-- **A hint is charged for at most once**, in every run in which no purchase unlocks a hint that is
unlocked. -/
theorem hintChargedOnce_of_reaches {hint : Id} (hcfg : cfg.InRange) (hidle : d.Idle)
    (hteam : HasTeam team gameId d.committed)
    (hr : Reaches Tick (UnlocksNew team hint) (pool cfg calls d) c') :
    c'.shared.journal.countP (ChargesHint team hint) ≤ 1 := by
  obtain ⟨start, hcon, -⟩ := exists_conducted (fun h => h = hint) False hcfg hidle hteam False.elim
    (fun h hh t d ho => by rw [hh] at ho ⊢; exact ho rfl) hr
  refine hcon.journaled.linked.countP_le_one (p := fun v => v (.teamHint team hint) = some true)
    (fun e he hx => ?_) fun e he hup => (hcon.journaled.commits e he).rows (.teamHint team hint) hup
  refine (hcon.journaled.commits e he).purchases hint rfl ?_
  obtain ⟨ev, hmem, hev⟩ := List.any_eq_true.mp hx
  rw [Bool.and_eq_true] at hev
  exact List.any_eq_true.mpr ⟨ev, hmem, hev.1⟩

/-- The small game with a hint for 10 points. -/
def hintGame : Config := { smallGame with
  hints := [⟨3, "a hint", "look up", 0, 0, 0, some 1, 10, none, 1, none, none, none, []⟩]
  currencyIds := [1] }

/-- Two members of a team purchase the hint. -/
def buyers : Tid → Option GameCall
  | 0 => some (.purchaseHint 7 3)
  | 1 => some (.purchaseHint 8 3)
  | _ => none

/-- The team has 100 points. -/
def buyersStore : Store := Db.init 0 (applyPuts [smallTeam, ⟨.teamMember 7 1, some 1⟩,
  ⟨.teamMember 8 1, some 1⟩, ⟨.teamPuzzle 1 1, some ⟨0, 0, 0, none, none⟩⟩,
  ⟨.currency 1, some ⟨points, points_id⟩⟩, ⟨.teamCurrency 1 1, some ⟨100, 0, false, 0⟩⟩] noRows)

lemma hasTeam_buyersStore : HasTeam 1 1 buyersStore.committed := by
  rw [HasTeam]
  decide +kernel

/-- One member purchases the hint. -/
theorem hintChargedOnce_of_reaches_one : ∃ c',
    Reaches Tick (UnlocksNew 1 3) (pool hintGame buyers buyersStore) c' ∧
      c'.shared.committed (.teamCurrency 1 1) = some ⟨90, 0, false, 0⟩ ∧
        c'.shared.journal.countP (ChargesHint 1 3) ≤ 1 := by
  obtain ⟨c', hr, hc'⟩ := exists_reaches_of_exec Tick (UnlocksNew 1 3)
    (c := pool hintGame buyers buyersStore) (List.replicate 14 (.thread 0))
    (p := fun c' => c'.shared.committed (.teamCurrency 1 1) = some ⟨90, 0, false, 0⟩)
    (by simp) (by decide +kernel)
  refine ⟨c', hr, of_decide_eq_true hc', ?_⟩
  exact hintChargedOnce_of_reaches (show hintGame.InRange from smallGame_inRange)
    (Db.init_idle _ _) hasTeam_buyersStore hr

/-- **Both members are charged**: both have found the hint not unlocked before the first unlocks
it. -/
theorem buyers_charged_twice : ∃ c', Reaches Tick Always (pool hintGame buyers buyersStore) c' ∧
    c'.shared.committed (.teamCurrency 1 1) = some ⟨80, 0, false, 0⟩ ∧
      c'.shared.journal.countP (ChargesHint 1 3) = 2 := by
  obtain ⟨c', hr, hc'⟩ := exists_reaches_of_exec Tick Always (c := pool hintGame buyers buyersStore)
    (List.replicate 8 (.thread 0) ++ List.replicate 8 (.thread 1) ++ List.replicate 6 (.thread 0) ++
      List.replicate 6 (.thread 1))
    (p := fun c' => c'.shared.committed (.teamCurrency 1 1) = some ⟨80, 0, false, 0⟩ ∧
      c'.shared.journal.countP (ChargesHint 1 3) = 2) (by simp) (by decide +kernel)
  exact ⟨c', hr, of_decide_eq_true hc'⟩

end Reaches

end Play
