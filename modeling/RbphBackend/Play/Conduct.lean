import RbphBackend.Concurrency.Discipline
import RbphBackend.Play.Calls
import RbphBackend.Play.Progress

set_option relaxedAutoImplicit false
set_option autoImplicit false

/-!
# How the calls of a game conduct themselves

What every commit of the calls does to the rows of one team, and when: a commit that changes what
conditions see leaves the content blocks marked dirty; the mark is taken down only where the records
are complete, or where another call is about to mark the team. The rows that the team's row guards
change only under its lock.

## Main definitions

* `Play.Setting` — the calls of a pool, the team they are asked about, and where the run begins.
* `Play.Plays` — what every commit does to the rows of the team, and what it logs.
* `Play.Commits` — what a commit needs of the store it is made in.
* `Play.conduct` — the discipline.

## Main results

* `Play.Deeds.Tidy.commits` — the deeds of a transaction make its commit one of these.
-/

namespace Play

open Concurrency ReadCommitted Numeric Database Currency

/-! ## The discipline -/

/-- A pool, the team that its run is asked about, and what is committed where the run begins. A hint
of `new` is unlocked only where it was not; where `fin`, no submission ends the game beside a puzzle
that is not to be solved. -/
structure Setting where
  cfg : Config
  calls : Tid → Option GameCall
  team : Id
  gameId : Id
  new : Id → Prop
  fin : Prop
  origin : View
  start : ℤ

/-- The thread submits an answer. -/
def Setting.submits (S : Setting) (t : Tid) : Bool := (S.calls t).any GameCall.submits

/-- What every commit does to the rows of the team, and what it logs. -/
structure Plays (S : Setting) (e : GameCommit) : Prop where
  rows : ∀ k, Evolves S.team k (e.before k) (e.after k)
  given : ∀ p tp, e.before (.teamPuzzle S.team p) = none →
    e.after (.teamPuzzle S.team p) = some tp → core tp = (0, none)
  closes : ∀ p, Solves S.team p e.before e.after → ∀ id ∈ S.cfg.ticketIds,
    (e.before (.ticket id)).any (Ticket.isOpen S.team p) = true →
    (e.after (.ticket id)).any (fun tk => decide (tk.state = 0)) = true
  solvedEvents : ∀ p, e.inserted.countP (isSolvedEvent S.team p) =
    if S.submits e.tid = true ∧ Solves S.team p e.before e.after then 1 else 0
  purchases : ∀ hint, S.new hint → e.inserted.any (isPurchaseEvent S.team hint) = true →
    e.before (.teamHint S.team hint) ≠ some true ∧ e.after (.teamHint S.team hint) = some true

/-- What a commit needs of the store it is made in. -/
structure Commits (S : Setting) (t : Tid) (d : Store) (e : GameCommit) : Prop where
  plays : Plays S e
  locks : (d.rows (.team S.team)).Lockable t ∨
    ∀ k, GuardedRow S.team k (e.before k) (e.after k)
  marks : Advances S.team e → isDirty e.after S.team = true
  cleans : isDirty e.before S.team = true → isDirty e.after S.team = false →
    Recorded S.cfg S.team S.gameId S.start e.after ∨ ∃ u, u ≠ t ∧ Owes S.team (commitsOf u d)
  pays : Owes S.team (commitsOf t d) →
    (d.rows (.team S.team)).Lockable t ∧ isDirty e.after S.team = true

/-- What holds of every store of a run. -/
structure Conducted (S : Setting) (d : Store) : Prop where
  journaled : Journaled (Plays S) S.origin d
  team : HasTeam S.team S.gameId d.committed
  start_le : S.start ≤ d.now
  clean : isDirty d.committed S.team = false →
    Recorded S.cfg S.team S.gameId S.start d.committed ∨ ∃ u, Owes S.team (commitsOf u d)

section Conduct

variable {S : Setting} {t : Tid} {d d' : Store} {e : GameCommit}

/-- The team keeps its game. -/
lemma HasTeam.of_evolves {team gameId : Id} {v w : View} (h : HasTeam team gameId v)
    (hrow : Evolves team (.team team) (v (.team team)) (w (.team team))) :
    HasTeam team gameId w := by
  obtain ⟨tm, htm, hgame⟩ := h.exists
  have hr := hrow rfl
  rw [htm] at hr
  cases hw : w (.team team) with
  | none => rw [hw] at hr; cases hr
  | some tm' =>
    rw [hw] at hr
    cases hr with
    | some hr => simp [HasTeam, hw, hr.1, hgame]

/-- A session's move adds nothing to the commits of another one. -/
lemma commitsOf_of_moves {P : GameCommit → Prop} {u : Tid} (hm : Moves P t d d') (hu : u ≠ t) :
    commitsOf u d' = commitsOf u d := by
  rcases hm.commits with ⟨hj, -⟩ | ⟨e, he, -, -, hj, -⟩
  · rw [commitsOf, hj, commitsOf]
  · simp [commitsOf, hj, he, Ne.symm hu]

/-- A session's commit is its last one. -/
lemma commitsOf_of_journal (hj : d'.journal = d.journal ++ [e]) (he : e.tid = t) :
    commitsOf t d' = commitsOf t d ++ [e] := by
  simp [commitsOf, hj, he]

/-- **The records stay complete or owed**, after a commit. -/
lemma Commits.clean (h : Commits S t d e) (hb : e.before = d.committed)
    (hclean : isDirty d.committed S.team = false →
      Recorded S.cfg S.team S.gameId S.start d.committed ∨ ∃ u, Owes S.team (commitsOf u d))
    (hafter : isDirty e.after S.team = false) :
    Recorded S.cfg S.team S.gameId S.start e.after ∨ Inserts S.team e ∨
      ∃ u, u ≠ t ∧ Owes S.team (commitsOf u d) := by
  have hpaid : ¬ Owes S.team (commitsOf t d) := by
    intro ho
    rw [(h.pays ho).2] at hafter
    cases hafter
  have hsame : GateSame S.team e.before e.after := by
    by_contra hadv
    rw [h.marks hadv] at hafter
    cases hafter
  cases hdirty : isDirty e.before S.team with
  | true => exact (h.cleans hdirty hafter).imp_right .inr
  | false =>
    rw [hb] at hdirty
    rcases hclean hdirty with hrec | ⟨u, hu⟩
    · by_cases hins : Inserts S.team e
      · exact .inr (.inl hins)
      · rw [← hb] at hrec
        refine .inl (hrec.of_gateSame hsame h.plays.rows fun p hp hnone => hins ⟨p, hnone, hp⟩)
    · refine .inr (.inr ⟨u, ?_, hu⟩)
      rintro rfl
      exact hpaid hu

lemma Conducted.moves (h : Conducted S d) (hm : Moves (Commits S t d) t d d') :
    Conducted S d' := by
  refine ⟨h.journaled.moves (hm.mono fun _ hc => hc.plays), ?_, ?_, fun hafter => ?_⟩
  · rcases hm.commits with ⟨-, hc⟩ | ⟨e, -, hb, ha, -, hc⟩
    · rw [hc]
      exact h.team
    · rw [← ha]
      exact (hb ▸ h.team).of_evolves (hc.plays.rows _)
  · have hle := (hm.keeps (t + 1) (Nat.succ_ne_self t)).now_le
    have hstart := h.start_le
    omega
  · rcases hm.commits with ⟨hj, hc⟩ | ⟨e, he, hb, ha, hj, hc⟩
    · rw [hc] at hafter ⊢
      simpa only [commitsOf, hj] using h.clean hafter
    · rw [← ha] at hafter ⊢
      rcases hc.clean hb h.clean hafter with hrec | hins | ⟨u, hu, ho⟩
      · exact .inl hrec
      · exact .inr ⟨t, by rwa [commitsOf_of_journal hj he, owes_snoc]⟩
      · exact .inr ⟨u, by rwa [commitsOf_of_moves hm hu]⟩

lemma Conducted.tick (h : Conducted S d) (n : ℕ) : Conducted S (d.tick n) := by
  refine ⟨h.journaled.tick n, h.team, ?_, h.clean⟩
  have hstart := h.start_le
  simp only [Db.tick]
  omega

/-- Where the team's row may not be locked, the rows it guards stay. -/
lemma Commits.guarded {guard : Key} (h : Commits S t d e) (hlock : ¬ (d.rows guard).Lockable t)
    (k : Key) : (contract S.team).Guarded guard k (e.before k) (e.after k) := by
  rintro rfl
  exact h.locks.resolve_left hlock k

/-- **How the calls of a pool conduct themselves.** -/
def conduct (S : Setting) : Discipline Val EventLogInput where
  contract := contract S.team
  Commits := Commits S
  Inv := Conducted S
  guarded hc hlock k := hc.guarded hlock k
  inv_moves := Conducted.moves
  inv_tick n h := h.tick n

end Conduct

/-! ## The deeds of a commit -/

/-- The deeds change what conditions see. -/
def Deeds.gates (f : Deeds) : Prop := f.triggered = true ∨ f.solved ≠ none ∨ f.started = true

/-- The deeds change what the board ranks. -/
def Deeds.ranks (f : Deeds) : Prop := f.solved ≠ none ∨ f.started = true ∨ f.finished = true

/-- Deeds of a call for team `a` that are done under the lock of the team's row, are marked and log
what they do; `submits` says that the call is a submission. -/
structure Deeds.Tidy (f : Deeds) (a : Id) (submits : Bool) : Prop where
  closes : ∀ p, f.solved = some p → f.closed = some p
  marks : f.gates → f.marked = true
  locks : f.triggered = true ∨ f.solved ≠ none ∨ f.cleaned = true ∨ f.closed ≠ none →
    f.locked = true
  solvedEvents : ∀ team p, f.logged.countP (isSolvedEvent team p) =
    if submits = true ∧ team = a ∧ f.solved = some p then 1 else 0
  purchases : ∀ team hint, f.logged.any (isPurchaseEvent team hint) = true →
    team = a ∧ f.unlocked = some hint

section Tidy

variable {S : Setting} {a : Id} {f : Deeds} {t : Tid} {d : Store}
  {dr : Draft Val EventLogInput}

lemma isSolvedEvent_of_type {team p : Id} {ev : EventLogInput}
    (h : ev.eventType ≠ "puzzle.solved") : isSolvedEvent team p ev = false := by
  simp [isSolvedEvent, h]

lemma isPurchaseEvent_of_type {team hint : Id} {ev : EventLogInput}
    (h : ev.eventType ≠ "hint.purchased") : isPurchaseEvent team hint ev = false := by
  simp [isPurchaseEvent, h]

lemma isNotable_of_solved {team p : Id} {ev : EventLogInput} (h : isSolvedEvent team p ev = true) :
    isNotable ev = true := by
  simp only [isSolvedEvent, Bool.and_eq_true, decide_eq_true_eq] at h
  simp [isNotable, h.1.1]

lemma isNotable_of_purchase {team hint : Id} {ev : EventLogInput}
    (h : isPurchaseEvent team hint ev = true) : isNotable ev = true := by
  simp only [isPurchaseEvent, Bool.and_eq_true, decide_eq_true_eq] at h
  simp [isNotable, h.1.1]

/-- The solved events of a draft are those its deeds log. -/
lemma Progress.countP_solved {cfg : Config} {team : Id} {new : Id → Prop}
    (h : Progress cfg team new a f dr) (p : Id) :
    dr.inserted.countP (isSolvedEvent team p) = f.logged.countP (isSolvedEvent team p) := by
  rw [← h.logged, List.countP_filter]
  refine List.countP_congr fun ev _ => ?_
  rw [Bool.and_eq_true]
  exact ⟨fun hev => ⟨hev, isNotable_of_solved hev⟩, And.left⟩

/-- The purchases of a draft are those its deeds log. -/
lemma Progress.any_purchase {cfg : Config} {team hint : Id} {new : Id → Prop}
    (h : Progress cfg team new a f dr)
    (hev : dr.inserted.any (isPurchaseEvent team hint) = true) :
    f.logged.any (isPurchaseEvent team hint) = true := by
  obtain ⟨ev, hmem, hp⟩ := List.any_eq_true.mp hev
  rw [← h.logged]
  exact List.any_eq_true.mpr ⟨ev, List.mem_filter.mpr ⟨hmem, isNotable_of_purchase hp⟩, hp⟩

/-- What tidy deeds do to the rows of the team. -/
lemma Deeds.Tidy.plays (ht : f.Tidy a (S.submits dr.tid))
    (hp : Progress S.cfg S.team S.new a f dr) : Plays S dr.toCommit := by
  refine ⟨fun k => (hp.rows k).evolves, fun p tp hnone hsome => ?_, fun p hs id hid hopen => ?_,
    fun p => ?_, fun hint hn hev => ?_⟩
  · exfalso
    have hr := hp.rows (.teamPuzzle S.team p)
    rw [row_teamPuzzle] at hr
    split_ifs at hr
    · obtain ⟨tp₀, -, hx, -⟩ := hr
      rw [hnone] at hx
      cases hx
    · rw [hnone, hsome] at hr
      cases hr
  · obtain ⟨rfl, hsolved⟩ := (solves_iff_of_row hp.rows p).mp hs
    exact hp.closes rfl p (ht.closes p hsolved) id hid hopen
  · have hiff := solves_iff_of_row hp.rows p
    rw [hp.countP_solved, ht.solvedEvents]
    exact if_congr (and_congr_right fun _ => hiff.symm) rfl rfl
  · obtain ⟨rfl, hunlocked⟩ := ht.purchases _ _ (hp.any_purchase hev)
    refine ⟨hp.fresh rfl hint hn hunlocked, ?_⟩
    have hr := hp.rows (.teamHint S.team hint)
    rwa [row_teamHint, if_pos ⟨rfl, hunlocked⟩] at hr

/-- **Tidy deeds make a commit one of the discipline**, where the rows the transaction holds may be
locked, a mark that is due is among the deeds, and the mark is taken down for a reason. -/
lemma Deeds.Tidy.commits (ht : f.Tidy a (S.submits dr.tid))
    (hp : Progress S.cfg S.team S.new a f dr)
    (hheld : ∀ k ∈ dr.held, (d.rows k).Lockable t)
    (hpays : Owes S.team (commitsOf t d) → a = S.team ∧ f.marked = true ∧ f.locked = true)
    (hcleans : a = S.team → f.cleaned = true →
      Recorded S.cfg S.team S.gameId S.start dr.after ∨ ∃ u, u ≠ t ∧ Owes S.team (commitsOf u d)) :
    Commits S t d dr.toCommit := by
  refine ⟨ht.plays hp, ?_, fun hadv => ?_, fun hb hafter => ?_, fun ho => ?_⟩
  · by_cases hlock : a = S.team ∧ f.locked = true
    · exact .inl (hheld _ (hlock.1 ▸ hp.held hlock.1 hlock.2))
    · refine .inr fun k => (hp.rows k).guarded fun ha => ?_
      have hl : f.locked ≠ true := fun hl => hlock ⟨ha, hl⟩
      refine ⟨?_, ?_, ?_, ?_⟩
      · exact Bool.eq_false_iff.mpr fun h => hl (ht.locks (.inl h))
      · exact not_not.mp fun h => hl (ht.locks (.inr (.inl h)))
      · exact Bool.eq_false_iff.mpr fun h => hl (ht.locks (.inr (.inr (.inl h))))
      · exact not_not.mp fun h => hl (ht.locks (.inr (.inr (.inr h))))
  · by_cases hg : a = S.team ∧ f.gates
    · obtain ⟨rfl, hgates⟩ := hg
      exact isDirty_of_marked hp.rows (ht.marks hgates)
    · refine absurd (gateSame_of_row hp.rows fun ha => ?_) hadv
      have hng : ¬ f.gates := fun h => hg ⟨ha, h⟩
      simp only [Deeds.gates, not_or, not_not, Bool.not_eq_true] at hng
      exact hng
  · by_cases hclean : a = S.team ∧ f.cleaned = true
    · exact hcleans hclean.1 hclean.2
    · rw [isDirty_of_row hp.rows (fun ha => Bool.eq_false_iff.mpr fun h => hclean ⟨ha, h⟩) hb]
        at hafter
      cases hafter
  · obtain ⟨rfl, hmark, hlock⟩ := hpays ho
    exact ⟨hheld _ (hp.held rfl hlock), isDirty_of_marked hp.rows hmark⟩

/-- What tidy deeds leave of what the board ranks. -/
lemma boardSame_of_not_ranks {cfg : Config} {team : Id} {new : Id → Prop}
    (hp : Progress cfg team new a f dr) (h : ¬ (a = team ∧ f.ranks)) :
    BoardSame team dr.before dr.after := by
  refine boardSame_of_row hp.rows fun ha => ?_
  have hnr : ¬ f.ranks := fun hr => h ⟨ha, hr⟩
  simp only [Deeds.ranks, not_or, not_not, Bool.not_eq_true] at hnr
  exact hnr

lemma gateSame_of_not_gates {cfg : Config} {team : Id} {new : Id → Prop}
    (hp : Progress cfg team new a f dr) (h : ¬ (a = team ∧ f.gates)) :
    GateSame team dr.before dr.after := by
  refine gateSame_of_row hp.rows fun ha => ?_
  have hng : ¬ f.gates := fun hg => h ⟨ha, hg⟩
  simp only [Deeds.gates, not_or, not_not, Bool.not_eq_true] at hng
  exact hng

/-- A draft of deeds gives the team no puzzle. -/
lemma not_inserts {cfg : Config} {team : Id} {new : Id → Prop} (hp : Progress cfg team new a f dr) :
    ¬ Inserts team dr.toCommit := by
  rintro ⟨p, hnone, hsome⟩
  have hr := hp.rows (.teamPuzzle team p)
  rw [row_teamPuzzle] at hr
  split_ifs at hr
  · obtain ⟨tp, -, hx, -⟩ := hr
    rw [hnone] at hx
    cases hx
  · rw [hnone, Option.map_none, Option.map_eq_none_iff] at hr
    exact hsome hr

end Tidy

end Play
