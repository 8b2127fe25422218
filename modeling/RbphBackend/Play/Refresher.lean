import RbphBackend.Play.Standing

set_option relaxedAutoImplicit false
set_option autoImplicit false

/-!
# Taking the mark of the content blocks down

`refresh_team_unlocks_if_dirty` holds the team's row from its first statement on, so what conditions
see of the team does not change under it, and nobody marks the team. A puzzle may still be given to
the team after the blocks have been read; then the call that gives it has its mark still to make.

## Main results

* `Play.refreshTail_draws` — what the transaction records, once the blocks are read.
* `Play.refreshTeamUnlocksIfDirty_triple` — the call.
-/

namespace Play

open Concurrency ReadCommitted Numeric Database Currency

section Draws

variable {cfg : Config} {team gameId : Id} {new : Id → Prop} {a : Id} {t : Tid}
  {R : Store → Store → Prop} [Honours (contract team) t R] {ok : Label → Store → Prop} {f : Deeds}
  {dr₀ dr : Draft Val EventLogInput} {keys : List Key}

/-! ## Under the lock of the team's row -/

/-- What conditions see of the team, and its records, are the same. -/
structure Frozen (team : Id) (v w : View) : Prop where
  row : w (.team team) = v (.team team)
  rows : ∀ k, GuardedRow team k (v k) (w k)

lemma Frozen.gateSame {v w : View} (h : Frozen team v w) : GateSame team v w := by
  refine ⟨funext fun p => h.rows (.teamPuzzle team p) rfl, funext fun key => ?_, ?_⟩
  · exact h.rows (.trigger team key.1 key.2) rfl
  · rw [isStarted, h.row, isStarted]

lemma Frozen.block {v w : View} (h : Frozen team v w) (cb : Id) :
    w (.contentBlockUnlock team cb) = v (.contentBlockUnlock team cb) :=
  h.rows (.contentBlockUnlock team cb) rfl

/-- A draft that holds the team's row sees what it saw. -/
lemma Progress.frozen (h : Progress cfg team new a f dr) (ha : a = team) (hlock : f.locked = true)
    (hl : dr₀.Later (contract team) keys dr) : Frozen team dr₀.after dr.after := by
  have hmem : .team team ∈ keys ++ dr.held := List.mem_append_right _ (ha ▸ h.held ha hlock)
  exact ⟨hl.after_eq _ hmem, fun k => hl.guarded _ hmem k rfl⟩

/-! ## The parts of the transaction -/

/-- The deeds of a transaction that takes the mark down. -/
def cleanDeeds : Deeds := { cleaned := true, locked := true }

/-- The transaction may take the mark down. -/
lemma Progress.clean (h : Progress cfg team new a { locked := true } dr) :
    Progress cfg team new a cleanDeeds dr := by
  refine ⟨fun k => ?_, h.held, h.closes, h.logged, h.fresh⟩
  have hr := h.rows k
  cases k with
  | team b =>
    rw [row_team] at hr ⊢
    split_ifs at hr ⊢
    · intro ha
      replace hr := hr ha
      cases hx : dr.before (.team b) <;> cases hy : dr.after (.team b) <;> rw [hx, hy] at hr <;>
        cases hr
      · exact .none
      · rename_i hr
        exact .some ⟨hr.game, hr.start, hr.finish, fun hc => by simp [cleanDeeds] at hc, hr.marked,
          hr.unmarked⟩
    · exact hr
  | contentBlockUnlock b cb =>
    rw [row_contentBlockUnlock, if_neg (by simp)] at hr
    rw [row_contentBlockUnlock]
    split_ifs
    · exact fun _ => hr
    · exact hr
  | _ => exact hr

/-- The transaction holds the team's row `tm`, and the blocks of `done` whose condition holds are
recorded. -/
structure Closing (cfg : Config) (team gameId : Id) (new : Id → Prop) (a : Id) (tm : Team)
    (done : List ContentBlock) (dr : Draft Val EventLogInput) : Prop where
  progress : Progress cfg team new a cleanDeeds dr
  row : a = team → dr.after (.team team) = some tm
  recorded : a = team → ∀ cb ∈ done,
    cb.isAllowed (cfg.blockState team gameId dr.after).states = true →
      (dr.after (.contentBlockUnlock team cb.id)).isSome = true

variable {tm : Team} {done : List ContentBlock} {g : Id}

/-- What the first statement finds: the team's row, locked, where the team plays the game. -/
def Locks (cfg : Config) (team gameId : Id) (new : Id → Prop) (a g : Id) :
    Option Team → Draft Val EventLogInput → Prop
  | none, dr => Progress cfg team new a {} dr
  | some tm, dr => Progress cfg team new a { locked := true } dr ∧
      (a = team → dr.after (.team team) = some tm ∧ g = gameId)

lemma lockTeamOfGame_draws (hI : ∀ l d, ok l d → HasTeam team gameId d.committed) {start : ℤ} :
    Draws R ok (contract team) t (HasTeam team gameId)
      (fun dr => start ≤ dr.start ∧ Progress cfg team new a {} dr)
      (Tx.query t .stmt (lockTeamOfGame a g))
      (fun row dr => start ≤ dr.start ∧ Locks cfg team gameId new a g row dr) fun _ => True := by
  refine Draws.query (fun _ => True) (hI .stmt) (fun _ _ => trivial)
    fun dr₀ dr eff _ h hI₀ hI₁ _ he hl => ⟨h.1, ?_⟩
  unfold lockTeamOfGame at he
  cases hv : dr₀.after (.team a) with
  | none =>
    rw [hv] at he
    obtain rfl := Except.ok.inj he
    have hadd : dr.add ({ val := none } : Effect Val EventLogInput (Option Team)) = dr :=
      Draft.add_read
    rw [hadd]
    exact h.2
  | some tm =>
    rw [hv] at he
    dsimp only at he
    split_ifs at he with hgame <;> obtain rfl := Except.ok.inj he
    · have hafter : dr.after (.team a) = some tm :=
        (hl.after_eq (.team a) (by simp [Effect.keys, lockRow])).trans hv
      refine ⟨(h.2.add_calm (fun p hp => ?_) (by simp)).lock fun _ => by
        simp [Effect.keys, lockRow], fun ha => ?_⟩
      · obtain rfl := List.mem_singleton.mp hp
        simp [lockRow, hafter, hv]
      · subst ha
        refine ⟨by simp [lockRow, hv], ?_⟩
        obtain ⟨tm₀, htm₀, hgame₀⟩ := hI₁.exists
        have hr := (h.2.rows (.team a)).evolves rfl
        rw [htm₀, hafter] at hr
        cases hr with
        | some hr => exact (hgame.symm.trans hr.1).trans hgame₀
    · have hadd : dr.add ({ val := none } : Effect Val EventLogInput (Option Team)) = dr :=
        Draft.add_read
      rw [hadd]
      exact h.2

/-- A statement that only reads what the team's row guards. -/
lemma closing_read_draws (hI : ∀ l d, ok l d → HasTeam team gameId d.committed) {β : Type}
    {read : View → ℤ → Except String β} {p : β → View → Prop} {M : Draft Val EventLogInput → Prop}
    (hM : ∀ dr, M dr → Closing cfg team gameId new a tm done dr)
    (hread : ∀ v now b, read v now = .ok b → p b v)
    (hp : a = team → ∀ b v w, p b v → Frozen team v w → p b w) :
    Draws R ok (contract team) t (HasTeam team gameId) M (Tx.query t .stmt (.read read))
      (fun b dr => M dr ∧ (a = team → p b dr.after)) fun _ => True := by
  refine Draws.query (fun _ => True) (hI .stmt) (fun _ _ => trivial)
    fun dr₀ dr eff _ h _ _ _ he hl => ?_
  obtain ⟨b, hb, rfl⟩ := Stmt.read_eq_ok.mp he
  rw [Draft.add_read]
  exact ⟨h, fun ha => hp ha _ _ _ (hread _ _ _ hb) ((hM dr h).progress.frozen ha rfl hl)⟩

/-- `team_states_conn` makes the state of the team. -/
lemma teamStatesConn_draws (hI : ∀ l d, ok l d → HasTeam team gameId d.committed)
    (hg : a = team → g = gameId) :
    Draws R ok (contract team) t (HasTeam team gameId) (Closing cfg team gameId new a tm done)
      (teamStatesConn cfg t a g tm.startAt.isSome)
      (fun states dr => Closing cfg team gameId new a tm done dr ∧
        (a = team → states = cfg.blockState team gameId dr.after)) fun _ => True := by
  refine Draws.bind (closing_read_draws hI (fun _ h => h)
    (p := fun solved v => solved = fun puzzle => cfg.puzzleInGame g puzzle && isSolved v a puzzle)
    (fun v now b hb => (Except.ok.inj hb).symm) fun ha b v w hb hf => ?_) fun solved => ?_
  · subst ha
    rw [hb, hf.gateSame.solved]
  · refine Draws.bind (closing_read_draws hI (fun _ h => h.1)
      (p := fun triggers v =>
        triggers = fun key => cfg.puzzleInGame g key.1 && isTriggered v a key)
      (fun v now b hb => (Except.ok.inj hb).symm) fun ha b v w hb hf => ?_) fun triggers => ?_
    · subst ha
      rw [hb, hf.gateSame.triggers]
    · refine Draws.pure fun dr _ h => ⟨h.1.1, fun ha => ?_⟩
      have hstart : isStarted dr.after team = tm.startAt.isSome := by
        simp [isStarted, h.1.1.row ha]
      rw [h.1.2 ha, h.2 ha, Config.blockState, hstart, ha, hg ha]

omit [Honours (contract team) t R] in
/-- What conditions see of a team does not depend on its records. -/
lemma gateSame_update {v : View} {cb : Id} {x : Option ℤ} :
    GateSame team v (Function.update v (.contentBlockUnlock a cb) x) := by
  refine ⟨funext fun p => ?_, funext fun key => ?_, ?_⟩
  · rw [isSolved, Function.update_of_ne (by simp), isSolved]
  · rw [isTriggered, Function.update_of_ne (by simp), isTriggered]
  · rw [isStarted, Function.update_of_ne (by simp), isStarted]

omit [Honours (contract team) t R] in
/-- One record, in a draft. -/
lemma Closing.insert {T : Contract Val} {cb : ContentBlock} {eff : Effect Val EventLogInput Unit}
    (h : Closing cfg team gameId new a tm done dr)
    (he : insertContentBlockUnlock a cb.id dr₀.after dr₀.start = .ok eff)
    (hfrozen : a = team → Frozen team dr₀.after dr.after) (hl : dr₀.Later T eff.keys dr) :
    Closing cfg team gameId new a tm (cb :: done) (dr.add eff) ∧
      GateSame team dr.after (dr.add eff).after := by
  unfold insertContentBlockUnlock at he
  split_ifs at he with hnone
  · obtain rfl := Except.ok.inj he
    have hafter : dr.after (.contentBlockUnlock a cb.id) = none := by
      rw [hl.after_eq (.contentBlockUnlock a cb.id) (by simp [Effect.keys])]
      simpa using hnone
    have hsame : GateSame team dr.after
        (Function.update dr.after (.contentBlockUnlock a cb.id) (some dr₀.start)) := gateSame_update
    refine ⟨⟨?_, fun ha => ?_, fun ha cb' hcb hallow => ?_⟩, hsame⟩
    · refine h.progress.add_of_eq (fun p hp => ?_) (fun _ _ hr => hr) (fun _ hl => .inl hl) rfl
        (by simp [Effect.keys]) (by simp) rfl
      obtain rfl := List.mem_singleton.mp hp
      rw [row_contentBlockUnlock, if_pos ⟨rfl, rfl⟩]
      intro hne
      have hr := h.progress.rows (.contentBlockUnlock a cb.id)
      rw [row_contentBlockUnlock, if_pos ⟨rfl, rfl⟩] at hr
      rw [hafter] at hr
      exact absurd (hr hne).symm hne
    · show Function.update dr.after (.contentBlockUnlock a cb.id) (some dr₀.start) (.team team) = _
      rw [Function.update_of_ne (by simp)]
      exact h.row ha
    · subst ha
      show (Function.update dr.after (.contentBlockUnlock a cb.id) (some dr₀.start)
        (.contentBlockUnlock a cb'.id)).isSome = true
      by_cases hid : cb'.id = cb.id
      · rw [hid, Function.update_self]
        rfl
      · rw [Function.update_of_ne (by simpa using hid)]
        refine h.recorded rfl cb' ?_ ?_
        · rcases List.mem_cons.mp hcb with rfl | hcb
          · exact absurd rfl hid
          · exact hcb
        · rwa [← blockState_congr hsame]
  · obtain rfl := Except.ok.inj he
    have hadd : dr.add ({ val := () } : Effect Val EventLogInput Unit) = dr := Draft.add_read
    rw [hadd]
    refine ⟨⟨h.progress, h.row, fun ha cb' hcb hallow => ?_⟩, GateSame.refl _ _⟩
    rcases List.mem_cons.mp hcb with rfl | hcb
    · subst ha
      rw [(hfrozen rfl).block, ← Option.ne_none_iff_isSome]
      simpa using hnone
    · exact h.recorded ha cb' hcb hallow

/-- One record. -/
lemma insertContentBlockUnlock_draws (hI : ∀ l d, ok l d → HasTeam team gameId d.committed)
    {states : Gate.TeamContentStates} {cb : ContentBlock} :
    Draws R ok (contract team) t (HasTeam team gameId)
      (fun dr => Closing cfg team gameId new a tm done dr ∧
        (a = team → states = cfg.blockState team gameId dr.after))
      (Tx.query t .stmt (insertContentBlockUnlock a cb.id))
      (fun _ dr => Closing cfg team gameId new a tm (cb :: done) dr ∧
        (a = team → states = cfg.blockState team gameId dr.after)) fun _ => True := by
  refine Draws.query (fun _ => True) (hI .stmt) (fun _ _ => trivial)
    fun dr₀ dr eff _ h _ _ _ he hl => ?_
  obtain ⟨hclosing, hsame⟩ := h.1.insert he (fun ha => h.1.progress.frozen ha rfl hl) hl
  refine ⟨hclosing, fun ha => ?_⟩
  rw [blockState_congr hsame]
  exact h.2 ha

/-- The loop over the pending blocks. -/
lemma unlockBlocks_draws (hI : ∀ l d, ok l d → HasTeam team gameId d.committed)
    {states : Gate.TeamContentStates} (pending : List ContentBlock) :
    Draws R ok (contract team) t (HasTeam team gameId)
      (fun dr => Closing cfg team gameId new a tm done dr ∧
        (a = team → states = cfg.blockState team gameId dr.after))
      (unlockBlocks t a states pending)
      (fun _ => Closing cfg team gameId new a tm (done ++ pending)) fun _ => True := by
  induction pending generalizing done with
  | nil => exact Draws.pure fun dr _ h => by simpa using h.1
  | cons cb pending ih =>
    refine Draws.bind (N := fun _ dr => Closing cfg team gameId new a tm (cb :: done) dr ∧
      (a = team → states = cfg.blockState team gameId dr.after)) ?_ fun _ => ?_
    · unfold Play.when
      split
      · exact insertContentBlockUnlock_draws hI
      · rename_i hallow
        refine Draws.pure fun dr _ h => ⟨⟨h.1.progress, h.1.row, fun ha cb' hcb hcond => ?_⟩, h.2⟩
        rcases List.mem_cons.mp hcb with rfl | hcb
        · rw [← h.2 ha] at hcond
          exact absurd hcond hallow
        · exact h.1.recorded ha cb' hcb hcond
    · refine (@ih (cb :: done)).post fun _ dr h => ⟨h.progress, h.row, fun ha cb' hcb => ?_⟩
      refine h.recorded ha cb' ?_
      simp only [List.mem_append, List.mem_cons] at hcb ⊢
      tauto

/-- The blocks that are not recorded. -/
lemma unlockPending_draws (hI : ∀ l d, ok l d → HasTeam team gameId d.committed)
    (hg : a = team → g = gameId) (pending : List ContentBlock) :
    Draws R ok (contract team) t (HasTeam team gameId) (Closing cfg team gameId new a tm done)
      (unlockPending cfg t a g tm pending)
      (fun _ => Closing cfg team gameId new a tm (done ++ pending)) fun _ => True := by
  unfold unlockPending
  split
  · rename_i hempty
    rw [List.isEmpty_iff.mp hempty, List.append_nil]
    exact Draws.pure fun _ _ h => h
  · exact Draws.bind (teamStatesConn_draws hI hg) fun states => unlockBlocks_draws hI pending

/-- What the transaction leaves, once the blocks are read. -/
def Closes (cfg : Config) (team gameId : Id) (new : Id → Prop) (a : Id) (blocks : List ContentBlock)
    (dr : Draft Val EventLogInput) : Prop :=
  Progress cfg team new a cleanDeeds dr ∧ (a = team → ∀ cb ∈ blocks,
    cb.isAllowed (cfg.blockState team gameId dr.after).states = true →
      (dr.after (.contentBlockUnlock team cb.id)).isSome = true)

/-- The mark is taken down. -/
lemma markTeamClean_draws (hI : ∀ l d, ok l d → HasTeam team gameId d.committed) :
    Draws R ok (contract team) t (HasTeam team gameId) (Closing cfg team gameId new a tm done)
      (Tx.query t .stmt (markTeamClean a)) (fun _ => Closes cfg team gameId new a done)
      fun _ => True := by
  refine Draws.query (fun _ => True) (hI .stmt) (fun _ _ => trivial)
    fun dr₀ dr eff _ h _ _ _ he hl => ?_
  unfold markTeamClean at he
  cases hv : dr₀.after (.team a) with
  | none =>
    rw [hv] at he
    obtain rfl := Except.ok.inj he
    have hadd : dr.add ({ val := () } : Effect Val EventLogInput Unit) = dr := Draft.add_read
    rw [hadd]
    exact ⟨h.progress, h.recorded⟩
  | some tm' =>
    rw [hv] at he
    obtain rfl := Except.ok.inj he
    have hafter : dr.after (.team a) = some tm' :=
      (hl.after_eq (.team a) (by simp [Effect.keys])).trans hv
    have hsame : GateSame team dr.after (Function.update dr.after (.team a)
        (some { tm' with contentBlocksDirty := false })) := by
      refine ⟨funext fun p => ?_, funext fun key => ?_, ?_⟩
      · rw [isSolved, Function.update_of_ne (by simp), isSolved]
      · rw [isTriggered, Function.update_of_ne (by simp), isTriggered]
      · by_cases ha : team = a
        · subst ha
          rw [isStarted, Function.update_self, isStarted, hafter]
          rfl
        · rw [isStarted, Function.update_of_ne (by simpa using ha), isStarted]
    refine ⟨?_, fun ha cb hcb hallow => ?_⟩
    · refine h.progress.add_of_eq (fun p hp => ?_) (fun _ _ hr => hr) (fun _ hl => .inl hl) rfl
        (by simp [Effect.keys]) (by simp) rfl
      obtain rfl := List.mem_singleton.mp hp
      have hr := h.progress.rows (.team a)
      rw [hafter] at hr
      exact hr.team_put fun tm₀ hrow => ⟨hrow.game, hrow.start, hrow.finish,
        fun hc => by simp [cleanDeeds] at hc, fun hm => by simp [cleanDeeds] at hm,
        fun _ hd => by simp at hd⟩
    · rw [Draft.add_after, applyPuts_of_notMem (by simp)]
      refine h.recorded ha cb hcb ?_
      rwa [← blockState_congr hsame]

/-- **What the transaction records**, once the blocks are read: those whose condition holds. -/
lemma refreshTail_draws (hI : ∀ l d, ok l d → HasTeam team gameId d.committed)
    (hg : a = team → g = gameId) (blocks : List ContentBlock) :
    Draws R ok (contract team) t (HasTeam team gameId) (Closing cfg team gameId new a tm [])
      (do
        let unlocked ← Tx.query t .stmt (selectUnlocked a)
        unlockPending cfg t a g tm (blocks.filter fun cb => !unlocked cb.id)
        Tx.query t .stmt (markTeamClean a)
        return (true, ()))
      (fun r dr => r.1 = true ∧ Closes cfg team gameId new a blocks dr) fun _ => True := by
  refine Draws.bind (closing_read_draws hI (fun _ h => h)
    (p := fun unlocked v => unlocked = fun cb => (v (.contentBlockUnlock a cb)).isSome)
    (fun v now b hb => (Except.ok.inj hb).symm) fun ha b v w hb hf => ?_) fun unlocked => ?_
  · subst ha
    rw [hb]
    funext cb
    rw [hf.block]
  · refine Draws.bind (N := fun _ => Closing cfg team gameId new a tm
      (blocks.filter (fun cb => unlocked cb.id) ++ blocks.filter fun cb => !unlocked cb.id)) ?_
      fun _ => ?_
    · refine (unlockPending_draws hI hg _).conseq (fun dr _ h => ?_) (fun _ _ _ h => h) fun _ _ h => h
      refine ⟨h.1.progress, h.1.row, fun ha cb hcb _ => ?_⟩
      have hun := (List.mem_filter.mp hcb).2
      rw [h.2 ha] at hun
      subst ha
      exact hun
    · refine Draws.bind (markTeamClean_draws hI) fun _ => Draws.pure fun dr _ h => ⟨rfl, h.1, ?_⟩
      intro ha cb hcb
      refine h.2 ha cb ?_
      rw [List.mem_append, List.mem_filter, List.mem_filter]
      cases hun : unlocked cb.id with
      | true => exact .inl ⟨hcb, rfl⟩
      | false => exact .inr ⟨hcb, rfl⟩

end Draws

/-! ## While the transaction is open -/

section Covers

variable {S : Setting} {t : Tid} {ok : Label → Store → Prop} {a g : Id} {d d' : Store}
  {blocks : List ContentBlock}

/-- The blocks of a list are all that were accessible at some point; since then the team has been
given no puzzle, or a call has its mark still to make. -/
structure Covers (S : Setting) (t : Tid) (blocks : List ContentBlock) (w : View) (d : Store) :
    Prop where
  all : ∀ cb ∈ S.cfg.contentBlocks, S.cfg.blockGame cb = some S.gameId →
    cb.visibilityCond.isSome = true → S.cfg.isAccessible w S.start S.team cb = true → cb ∈ blocks
  rows : ∀ k, Evolves S.team k (w k) (d.committed k)
  given : (∀ p, d.committed (.teamPuzzle S.team p) ≠ none → w (.teamPuzzle S.team p) ≠ none) ∨
    ∃ u, u ≠ t ∧ Owes S.team (commitsOf u d)

/-- A step of the others, while the team's row is held. -/
lemma Covers.other {w : View} (h : Covers S t blocks w d) (ho : (conduct S).Other t d d')
    (hheld : (d.rows (.team S.team)).HeldBy t) : Covers S t blocks w d' := by
  obtain ⟨-, ⟨n, rfl⟩ | ⟨u, hu, hm⟩⟩ := ho
  · exact ⟨h.all, h.rows, h.given⟩
  · rcases hm.commits with ⟨hj, hc⟩ | ⟨e, he, hb, ha, hj, hcom⟩
    · refine ⟨h.all, hc ▸ h.rows, ?_⟩
      simpa only [hc, commitsOf, hj] using h.given
    · have hcom' : Commits S u d e := hcom
      refine ⟨h.all, fun k => ?_, ?_⟩
      · rw [← ha]
        exact (h.rows k).trans (hb ▸ hcom'.plays.rows k)
      · rcases h.given with hsub | ⟨u₁, hu₁, ho⟩
        · by_cases hins : Inserts S.team e
          · exact .inr ⟨u, hu, by rwa [commitsOf_of_journal hj he, owes_snoc]⟩
          · refine .inl fun p hp => hsub p fun hnone => hins ⟨p, ?_, ?_⟩
            · rw [hb]
              exact hnone
            · rw [ha]
              exact hp
        · have hne : u₁ ≠ u := by
            rintro rfl
            exact hu ((hcom'.pays ho).1.heldBy_imp hheld).symm
          exact .inr ⟨u₁, hu₁, by rwa [commitsOf_of_moves hm hne]⟩

/-- What the others do, while the team's row is held. -/
lemma Covers.others {w : View} (h : Covers S t blocks w d) (ho : (conduct S).Others t d d')
    (hheld : (d.rows (.team S.team)).HeldBy t) : Covers S t blocks w d' := by
  induction ho with
  | refl => exact h
  | tail hr hstep ih => exact ih.other hstep (Discipline.Others.guarded hr hheld).2

/-- Where the blocks are read. -/
lemma covers_read {w : View} (hw : d.committed = w)
    (hblocks : ∀ cb ∈ S.cfg.contentBlocks, S.cfg.blockGame cb = some S.gameId →
      cb.visibilityCond.isSome = true → S.cfg.isAccessible w S.start S.team cb = true →
        cb ∈ blocks) : Covers S t blocks w d := by
  subst hw
  exact ⟨hblocks, fun k => evolves_refl _ _ _, .inl fun _ h => h⟩

/-- **The records are complete** where the transaction commits, or a mark is still to be made. -/
lemma Closes.recorded {w : View} {dr : Draft Val EventLogInput}
    (h : Closes S.cfg S.team S.gameId S.new S.team blocks dr) (hb : dr.before = d.committed)
    (hc : Covers S t blocks w d) :
    Recorded S.cfg S.team S.gameId S.start dr.after ∨ ∃ u, u ≠ t ∧ Owes S.team (commitsOf u d) := by
  refine hc.given.imp_left fun hsub cb hcb hgame hacc hallow => ?_
  refine h.2 rfl cb (hc.all cb hcb hgame ?_ ?_) hallow
  · obtain ⟨cond, hcond, -⟩ := (Option.any_eq_true _ _).mp hallow
    rw [hcond]
    rfl
  · have hrows : ∀ k, Evolves S.team k (w k) (dr.after k) := fun k =>
      (hc.rows k).trans (hb ▸ (h.1.rows k).evolves)
    refine isAccessible_of_evolves hrows (fun p hp => hsub p ?_) hacc
    have hr := h.1.rows (.teamPuzzle S.team p)
    rw [row_teamPuzzle, if_neg (by simp [cleanDeeds])] at hr
    rw [← hb]
    intro hnone
    rw [hnone, Option.map_none, Option.map_eq_none_iff] at hr
    exact hp hr

/-! ## The transaction -/

/-- What the body leaves: it has locked the team's row or not, or it takes the mark down. -/
def Ends (S : Setting) (t : Tid) (a : Id) (W : Work Val EventLogInput) (d : Store) : Prop :=
  (∃ f : Deeds, (f = {} ∨ f = { locked := true }) ∧ ∀ x, HasTeam S.team S.gameId x →
    W.Fixed (contract S.team) x → Progress S.cfg S.team S.new a f (W.draft t x)) ∨
  ∃ blocks, (∀ x, HasTeam S.team S.gameId x → W.Fixed (contract S.team) x →
    Closes S.cfg S.team S.gameId S.new a blocks (W.draft t x)) ∧
      (a = S.team → .team S.team ∈ W.held ∧ ∃ w, Covers S t blocks w d)

/-- The transaction has done its work. -/
def HasEnded (S : Setting) (t : Tid) (a : Id) (d : Store) : Prop :=
  ∃ W, Works (contract S.team) t W d ∧ Ends S t a W d

lemma stable_hasEnded : Stable ((conduct S).Others t) (HasEnded S t a) := by
  rintro d d' ⟨W, hW, hend⟩ hr
  refine ⟨W, stable_works _ _ hW hr, hend.imp_right ?_⟩
  rintro ⟨blocks, hcl, hcov⟩
  refine ⟨blocks, hcl, fun ha => ?_⟩
  obtain ⟨hmem, w, hw⟩ := hcov ha
  exact ⟨hmem, w, hw.others hr (hW.working.pinned _ hmem).heldBy⟩

/-- Nothing that a call has drafted takes a released puzzle away. -/
lemma Progress.isAccessible_after {cfg : Config} {team a : Id} {new : Id → Prop} {f : Deeds}
    {dr : Draft Val EventLogInput} (h : Progress cfg team new a f dr) (hf : f.solved = none) {now : ℤ}
    {cb : ContentBlock} (hv : cfg.isAccessible dr.before now team cb = true) :
    cfg.isAccessible dr.after now team cb = true := by
  refine isAccessible_imp (fun p hp => ?_) hv
  have hr := h.rows (.teamPuzzle team p)
  rw [row_teamPuzzle, if_neg (by simp [hf])] at hr
  rw [Config.hasReleased, Bool.and_eq_true] at hp ⊢
  refine ⟨?_, hp.2⟩
  obtain ⟨tp, htp, hstate⟩ := (Option.any_eq_true _ _).mp hp.1
  rw [htp, Option.map_some] at hr
  obtain ⟨tp', htp', hcore⟩ := Option.map_eq_some_iff.mp hr
  have hsame : tp'.state = tp.state := congrArg Prod.fst hcore
  rw [htp', Option.any_some, hsame]
  exact hstate

/-- The team's row is locked, in a transaction that begins after the run. -/
def Locked (S : Setting) (t : Tid) (a g : Id) (row : Option Team) (d : Store) : Prop :=
  ∃ W, Works (contract S.team) t W d ∧ ∀ x, HasTeam S.team S.gameId x →
    W.Fixed (contract S.team) x →
      S.start ≤ (W.draft t x).start ∧ Locks S.cfg S.team S.gameId S.new a g row (W.draft t x)

/-- The blocks are read, under the lock of the team's row. -/
def HasRead (S : Setting) (t : Tid) (a g : Id) (tm : Team) (blocks : List ContentBlock) (d : Store) :
    Prop :=
  ∃ W, Works (contract S.team) t W d ∧
    (∀ x, HasTeam S.team S.gameId x → W.Fixed (contract S.team) x →
      Locks S.cfg S.team S.gameId S.new a g (some tm) (W.draft t x)) ∧
    (a = S.team → g = S.gameId ∧ .team S.team ∈ W.held ∧ ∃ w, Covers S t blocks w d)

lemma stable_locked {row : Option Team} : Stable ((conduct S).Others t) (Locked S t a g row) :=
  Stable.exists fun _ => stable_works.and (Stable.const _)

lemma stable_hasRead {tm : Team} :
    Stable ((conduct S).Others t) (HasRead S t a g tm blocks) := by
  rintro d d' ⟨W, hW, hM, hcov⟩ hr
  refine ⟨W, stable_works _ _ hW hr, hM, fun ha => ?_⟩
  obtain ⟨hg, hmem, w, hw⟩ := hcov ha
  exact ⟨hg, hmem, w, hw.others hr (hW.working.pinned _ hmem).heldBy⟩

/-- The blocks are read. -/
lemma selectBlocks_triple (h : Admits S t ok) {tm : Team} :
    Prog.Triple ((conduct S).Others t) ok (Plain fun _ => Moves (fun _ => False) t)
      (Locked S t a g (some tm))
      (Tx.query t .stmt (selectBlocks S.cfg a g) : Call (List ContentBlock)).run
      (Post (HasRead S t a g tm) fun _ _ => True) := by
  refine Tx.query_read_triple (P := fun _ _ => False) stable_locked (fun _ => stable_hasRead)
    (fun _ => Stable.const True) (fun d hd => ?_) (fun d sess blocks hd ho hsess hread => ?_)
    fun _ _ _ _ _ _ _ => trivial
  · obtain ⟨W, hW, -⟩ := hd
    exact hW.not_noTx
  · obtain ⟨W, hW, hM⟩ := hd
    obtain rfl : ⟨W.start, W.logged⟩ = sess :=
      Option.some.inj (hW.working.inTx.sess.symm.trans hsess)
    rw [hW.working.view_eq] at hread
    obtain rfl := Except.ok.inj hread
    refine ⟨W, hW, fun x hx hfix => (hM x hx hfix).2, fun ha => ?_⟩
    obtain ⟨hstart, hp, hrow⟩ := hM _ (h.conducted _ d ho).team hW.fixed
    obtain ⟨-, rfl⟩ := hrow ha
    refine ⟨rfl, ha ▸ hp.held ha rfl, _, covers_read rfl fun cb hcb hgame hcond hacc => ?_⟩
    refine (List.mem_insertionSort _).mpr (List.mem_filter.mpr ⟨hcb, ?_⟩)
    have hacc' : S.cfg.isAccessible (W.view d.committed) W.start S.team cb = true :=
      isAccessible_mono hstart (hp.isAccessible_after rfl hacc)
    rw [Bool.and_eq_true, Bool.and_eq_true, decide_eq_true_eq]
    exact ⟨⟨hgame, hcond⟩, ha ▸ hacc'⟩

/-- What follows, until the transaction has done its work. -/
lemma refreshTail_triple (h : Admits S t ok) {tm : Team} :
    Prog.Triple ((conduct S).Others t) ok (Plain fun _ => Moves (fun _ => False) t)
      (HasRead S t a g tm blocks)
      (do
        let unlocked ← Tx.query t .stmt (selectUnlocked a)
        unlockPending S.cfg t a g tm (blocks.filter fun cb => !unlocked cb.id)
        Tx.query t .stmt (markTeamClean a)
        return (true, ()) : Call (Bool × Unit)).run
      (Post (fun _ => HasEnded S t a) fun _ _ => True) := by
  rintro d ⟨W, hW, hM, hcov⟩
  have hbeside : Beside (contract S.team) ((conduct S).Others t) t W.held
      fun d => a = S.team → ∃ w, Covers S t blocks w d := by
    refine ⟨fun {W' d d'} hsub hW' hA hr ha => ?_, fun {d d'} hj hc hA ha => ?_⟩
    · obtain ⟨w, hw⟩ := hA ha
      exact ⟨w, hw.others hr (hW'.working.pinned _ (hsub (hcov ha).2.1)).heldBy⟩
    · obtain ⟨w, hw⟩ := hA ha
      refine ⟨w, hw.all, hc ▸ hw.rows, ?_⟩
      simpa only [hc, commitsOf, hj] using hw.given
  have htail := (@refreshTail_draws S.cfg S.team S.gameId S.new a t ((conduct S).Others t) _ ok tm g
    (hasTeam_of_ok h.conducted) (fun ha => (hcov ha).1) blocks).alive _ W hbeside fun x hx hfix => ?_
  · refine (htail d ⟨hW, fun ha => (hcov ha).2.2⟩).mono (fun _ _ => id) (fun _ _ => id)
      (fun _ _ _ _ => id) ?_
    rintro r d' (⟨W', hW', hA, -, hsub, hN⟩ | ⟨⟨e, rfl⟩, -⟩)
    · cases r with
      | error e => trivial
      | ok r =>
        refine ⟨W', hW', .inr ⟨blocks, fun x hx hfix => (hN x hx hfix).2, fun ha => ?_⟩⟩
        exact ⟨hsub (hcov ha).2.1, hA ha⟩
    · trivial
  · obtain ⟨hp, hrow⟩ := hM x hx hfix
    exact ⟨hp.clean, fun ha => (hrow ha).1, fun _ _ hcb => absurd hcb (by simp)⟩

/-- The body of the transaction. -/
lemma refreshBody_triple (h : Admits S t ok) :
    Prog.Triple ((conduct S).Others t) ok (Plain fun _ => Moves (fun _ => False) t)
      (Locked S t a g none) (refreshBody S.cfg t a g).run
      (Post (fun _ => HasEnded S t a) fun _ _ => True) := by
  refine Fallible.bind_triple (B := Locked S t a g) (F := fun _ _ => True) ?_
    (fun _ _ _ _ h => h) (IsRely.refl t) (fun _ _ _ _ _ => trivial) fun row => ?_
  · rintro d ⟨W, hW, hM⟩
    refine ((lockTeamOfGame_draws (hasTeam_of_ok h.conducted)).alive (fun _ => True) W
      ⟨fun _ _ _ _ => trivial, fun _ _ _ => trivial⟩ hM d ⟨hW, trivial⟩).mono (fun _ _ => id)
      (fun _ _ => id) (fun _ _ _ _ => id) ?_
    rintro r d' (⟨W', hW', -, -, -, hN⟩ | ⟨⟨e, rfl⟩, -⟩)
    · cases r with
      | error e => trivial
      | ok row => exact ⟨W', hW', hN⟩
    · trivial
  · cases row with
    | none =>
      refine Fallible.pure_triple stable_locked fun d hd => ?_
      obtain ⟨W, hW, hM⟩ := hd
      exact ⟨W, hW, .inl ⟨{}, .inl rfl, fun x hx hfix => (hM x hx hfix).2⟩⟩
    | some tm =>
      dsimp only
      split
      · exact Fallible.bind_triple (selectBlocks_triple h) (fun _ _ _ _ h => h) (IsRely.refl t)
          (fun _ _ _ _ _ => trivial) fun blocks => refreshTail_triple h
      · refine Fallible.pure_triple stable_locked fun d hd => ?_
        obtain ⟨W, hW, hM⟩ := hd
        exact ⟨W, hW, .inl ⟨{ locked := true }, .inr rfl, fun x hx hfix => (hM x hx hfix).2.1⟩⟩

/-- The deeds of the transaction are tidy. -/
lemma tidy_cleanDeeds {submits : Bool} : cleanDeeds.Tidy a submits :=
  ⟨by simp [cleanDeeds], by simp [Deeds.gates, cleanDeeds], fun _ => rfl, by simp [cleanDeeds],
    by simp [cleanDeeds]⟩

lemma tidy_locked {submits : Bool} : Deeds.Tidy { locked := true } a submits :=
  ⟨by simp, by simp [Deeds.gates], fun _ => rfl, by simp, by simp⟩

/-- **`refresh_team_unlocks_if_dirty`** takes the mark down for a reason. -/
lemma refreshTeamUnlocksIfDirty_settles (h : Admits S t ok) :
    Settles S t ok (Rests S t {}) (refreshTeamUnlocksIfDirty S.cfg t a g) := by
  have hquiet : ∀ {d}, Knows S t {} d → Rests S t {} (d.rollback t) := fun hk =>
    ⟨Db.noTx_rollback, hk.quiet Db.drops_rollback.journal Db.drops_rollback.committed⟩
  have hframe : ∀ l d d' (q : Prog Label Store (Except String (Bool × Unit))),
      Plain (fun _ => Moves (fun _ => False) t) l d d' q → Knows S t {} d → Knows S t {} d' := by
    intro _ d d' _ hm hk
    obtain ⟨hj, hc⟩ := hm.commits.resolve_right (by rintro ⟨e, -, -, -, -, h⟩; exact h)
    exact hk.quiet hj hc
  refine Tx.transaction_triple (G := fun d => Locked S t a g none d ∧ Knows S t {} d)
    (B := fun _ d => HasEnded S t a d ∧ Knows S t {} d) (F := fun _ => Knows S t {})
    (fun d ho => (h.conducted _ d ho).journaled.wf) stable_rests (stable_locked.and stable_knows)
    (fun _ => stable_hasEnded.and stable_knows) (fun _ => stable_knows) (fun _ => stable_rests)
    (fun d d' hd ho _ hin hc hj hn => ⟨?_, hd.2.quiet hj hc⟩) ?_ (fun d x hd ho => ?_)
    (fun d x hd _ => hquiet hd.2) fun d e hk _ => hquiet hk
  · refine ⟨Work.begun d.now d.committed (commitsOf t d), Working.works_begun ?_ hc,
      fun x _ _ => ⟨(h.conducted _ d ho).start_le, ?_⟩⟩
    · exact ⟨hin, by simp [Work.begun], by simp [Work.begun], by rw [commitsOf, hj]; rfl⟩
    · exact progress_begun
  · rintro d ⟨hd, hk⟩
    refine ((refreshBody_triple h d hd).frame (P := Knows S t {}) stable_knows hframe hk).mono
      (fun _ _ => id) (fun _ _ => id) (fun _ _ _ _ hm => hm.mono fun _ h => h.elim) fun r d' h => ?_
    cases r with
    | ok r => exact h
    | error e => exact h.2
  · obtain ⟨⟨W, hW, hend⟩, hk⟩ := hd
    have hteam := (h.conducted _ d ho).team
    have hlocks : ∀ k ∈ (W.draft t d.committed).held, (d.rows k).Lockable t := fun k hk =>
      (hW.working.pinned k hk).heldBy.lockable
    refine ⟨_, hW.working.inTx.sess, ?_⟩
    rw [hW.working.view_eq]
    rcases hend with ⟨f, hf, hp⟩ | ⟨blocks, hcl, hcov⟩
    · have ht : f.Tidy a (S.submits t) := by
        rcases hf with rfl | rfl
        · exact tidy_calm
        · exact tidy_locked
      have hclean : f.cleaned = false := by rcases hf with rfl | rfl <;> rfl
      have hgates : ¬ f.gates := by rcases hf with rfl | rfl <;> simp [Deeds.gates]
      have hranks : ¬ f.ranks := by rcases hf with rfl | rfl <;> simp [Deeds.ranks]
      obtain ⟨hc, hk'⟩ := hk.deeds hW.records (hp _ hteam hW.fixed) ht hlocks False.elim
        fun _ hc => absurd hc (by simp [hclean])
      exact ⟨hc, hW.records.noTx, hk'.mono (fun _ hm => hranks (hm.resolve_left id).2)
        (fun hs => hgates (hs.resolve_left id).2) id⟩
    · have hrec : a = S.team → cleanDeeds.cleaned = true →
          Recorded S.cfg S.team S.gameId S.start (W.draft t d.committed).after ∨
            ∃ u, u ≠ t ∧ Owes S.team (commitsOf u d) := by
        intro ha _
        obtain ⟨-, w, hw⟩ := hcov ha
        subst ha
        exact (hcl _ hteam hW.fixed).recorded rfl hw
      obtain ⟨hc, hk'⟩ := hk.deeds hW.records (hcl _ hteam hW.fixed).1 tidy_cleanDeeds hlocks
        False.elim hrec
      refine ⟨hc, hW.records.noTx, hk'.mono (fun _ hm => ?_) (fun hs => ?_) id⟩
      · simpa [Deeds.ranks, cleanDeeds] using (hm.resolve_left id).2
      · simpa [Deeds.gates, cleanDeeds] using (hs.resolve_left id).2

end Covers

end Play
