import RbphBackend.Play.CalmCalls

set_option relaxedAutoImplicit false
set_option autoImplicit false

/-!
# The statements that are deeds

Each statement that changes what conditions see, what the board ranks, the mark of the content
blocks, the tickets or the hints of a team adds one deed to the progress of its transaction.

## Main results

* `Play.Row.extend` — rows a deed does not concern.
* `Play.markTeamDirty_draws`, `Play.setSolved_draws` and so on — the statements.
-/

namespace Play

open Concurrency ReadCommitted Numeric Database Currency

/-! ## Rows a deed does not concern -/

section Row

variable {team a : Id} {f f' : Deeds} {k : Key} {x y : Val k}

lemma TeamRow.congr {tm tm' : Team} (h : TeamRow f tm tm') (hs : f'.started = f.started)
    (hf : f'.finished = f.finished) (hc : f'.cleaned = f.cleaned) (hm : f'.marked = f.marked) :
    TeamRow f' tm tm' :=
  ⟨h.game, by rw [hs]; exact h.start, by rw [hf]; exact h.finish, by rw [hc]; exact h.kept,
    by rw [hm]; exact h.marked, by rw [hm]; exact h.unmarked⟩

/-- **A row that the new deeds do not concern** is as it was. -/
lemma Row.extend (h : Row team a f k x y)
    (hteam : k = .team a → a = team → f'.started = f.started ∧ f'.finished = f.finished ∧
      f'.cleaned = f.cleaned ∧ f'.marked = f.marked)
    (hsolved : ∀ p, k = .teamPuzzle a p → (f'.solved = some p ↔ f.solved = some p))
    (htriggered : f.triggered = true → f'.triggered = true)
    (hcleaned : f.cleaned = true → f'.cleaned = true) (hclosed : f.closed ≠ none → f'.closed ≠ none)
    (hunlocked : ∀ hint, k = .teamHint a hint → (f'.unlocked = some hint ↔ f.unlocked = some hint)) :
    Row team a f' k x y := by
  cases k with
  | team b =>
    rw [row_team] at h ⊢
    split_ifs at h ⊢ with hb
    · intro ha
      obtain ⟨h1, h2, h3, h4⟩ := hteam (by rw [hb]) ha
      cases h ha with
      | none => exact .none
      | some hr => exact .some (hr.congr h1 h2 h3 h4)
    · exact h
  | teamPuzzle b p =>
    rw [row_teamPuzzle] at h ⊢
    by_cases hb : b = a
    · subst hb
      simpa only [hsolved p rfl] using h
    · rwa [if_neg (fun hn => hb hn.1)] at h ⊢
  | trigger b p key =>
    rw [row_trigger] at h ⊢
    by_cases hf : b = a ∧ f.triggered = true
    · rw [if_pos hf] at h
      rwa [if_pos ⟨hf.1, htriggered hf.2⟩]
    · rw [if_neg hf] at h
      split_ifs
      · exact fun _ => h
      · exact h
  | contentBlockUnlock b cb =>
    rw [row_contentBlockUnlock] at h ⊢
    by_cases hf : b = a ∧ f.cleaned = true
    · rw [if_pos hf] at h
      rwa [if_pos ⟨hf.1, hcleaned hf.2⟩]
    · rw [if_neg hf] at h
      split_ifs
      · exact fun _ => h
      · exact h
  | ticket id =>
    rw [row_ticket] at h ⊢
    by_cases hf : f.closed = none
    · rw [if_pos hf] at h
      subst h
      split_ifs
      · rfl
      · exact option_rel_refl (fun tk => ⟨rfl, rfl, .inl rfl⟩) y
    · rw [if_neg hf] at h
      rwa [if_neg (hclosed hf)]
  | teamHint b hint =>
    rw [row_teamHint] at h ⊢
    by_cases hb : b = a
    · subst hb
      simpa only [hunlocked hint rfl] using h
    · rwa [if_neg (fun hn => hb hn.1)] at h ⊢
  | _ => trivial

/-- The team's row, written. -/
lemma Row.team_put {tm tm' : Team} {x : Option Team} (h : Row team a f (.team a) x (some tm))
    (hr : ∀ tm₀, TeamRow f tm₀ tm → TeamRow f' tm₀ tm') :
    Row team a f' (.team a) x (some tm') := by
  rw [row_team, if_pos rfl] at h ⊢
  intro ha
  cases h ha with
  | some hrow => exact .some (hr _ hrow)

end Row

section Progress

variable {cfg : Config} {team gameId : Id} {new : Id → Prop} {a : Id} {f : Deeds}
  {dr : Draft Val EventLogInput}

/-- The team is there. -/
lemma Progress.exists_team (h : Progress cfg team new a f dr) (hI : HasTeam team gameId dr.before) :
    ∃ tm, dr.after (.team team) = some tm := by
  obtain ⟨tm, htm, -⟩ := hI.exists
  have hr := (h.rows (.team team)).evolves rfl
  rw [htm] at hr
  cases hy : dr.after (.team team) with
  | none => rw [hy] at hr; cases hr
  | some tm' => exact ⟨tm', rfl⟩

end Progress

/-! ## The statements -/

/-- A ticket's row that is closed. -/
def ClosedTicket : (k : Key) → Val k → Prop
  | .ticket _, y => y.any (fun tk => decide (tk.state = 0)) = true
  | _, _ => True

section Draws

variable {cfg : Config} {team gameId : Id} {new : Id → Prop} {a : Id} {f : Deeds} {t : Tid} {l : Label}
  {R : Store → Store → Prop} [Honours (contract team) t R] {ok : Label → Store → Prop}
  {Z : Draft Val EventLogInput → Prop}

/-- The mark of the content blocks, in a draft. -/
lemma Progress.add_markTeamDirty {T : Contract Val} {dr₀ dr : Draft Val EventLogInput}
    {eff : Effect Val EventLogInput Unit} (h : Progress cfg team new a f dr)
    (hteam : a = team → ∃ tm, dr₀.after (.team a) = some tm)
    (he : markTeamDirty a dr₀.after dr₀.start = .ok eff) (hl : dr₀.Later T eff.keys dr) :
    Progress cfg team new a { f with marked := true, locked := true } (dr.add eff) := by
  unfold markTeamDirty at he
  cases hv : dr₀.after (.team a) with
  | none =>
    rw [hv] at he
    obtain rfl := Except.ok.inj he
    have ha : a ≠ team := by
      intro ha
      obtain ⟨tm, htm⟩ := hteam ha
      rw [hv] at htm
      simp at htm
    refine h.add_of_eq (by simp) (fun k _ hr => ?_) (fun hteam => absurd hteam ha) rfl
      (by simp [Effect.keys]) (by simp) rfl
    exact hr.extend (fun _ hteam => absurd hteam ha) (by simp) id id id (by simp)
  | some tm =>
    rw [hv] at he
    obtain rfl := Except.ok.inj he
    have hafter : dr.after (.team a) = some tm :=
      (hl.after_eq (.team a) (by simp [Effect.keys])).trans hv
    refine h.add_of_eq (fun p hp => ?_) (fun k hk hr => ?_)
      (fun _ _ => .inr (by simp [Effect.keys])) rfl (by simp [Effect.keys]) (by simp) rfl
    · obtain rfl := List.mem_singleton.mp hp
      have hr := h.rows (.team a)
      rw [hafter] at hr
      exact hr.team_put fun tm₀ hrow =>
        ⟨hrow.game, hrow.start, hrow.finish, fun _ _ => rfl, fun _ => rfl, by simp⟩
    · refine hr.extend (fun hteam => ?_) (by simp) id id id (by simp)
      simp [Effect.keys, hteam] at hk

/-- The mark of the content blocks. -/
lemma markTeamDirty_draws (hI : ∀ l d, ok l d → HasTeam team gameId d.committed) :
    Draws R ok (contract team) t (HasTeam team gameId) (Progress cfg team new a f)
      (Tx.query t l (markTeamDirty a))
      (fun _ => Progress cfg team new a { f with marked := true, locked := true }) Z := by
  refine Draws.query (fun _ => True) (hI l) (fun _ _ => trivial)
    fun dr₀ dr eff h₀ h hI₀ _ _ he hl => h.add_markTeamDirty (fun ha => ?_) he hl
  subst ha
  exact h₀.exists_team hI₀

/-- The triggers of a puzzle that the team does not have. -/
lemma insertTriggers_draws (hI : ∀ l d, ok l d → HasTeam team gameId d.committed) {puzzle : Id}
    {keys : List String} {source : TriggerSource} (hf : f.triggered = false) :
    Draws R ok (contract team) t (HasTeam team gameId) (Progress cfg team new a f)
      (Tx.query t l (insertTriggers a puzzle keys source))
      (fun n => Progress cfg team new a { f with triggered := decide (0 < n) }) Z := by
  refine Draws.query (fun _ => True) (hI l) (fun _ _ => trivial)
    fun dr₀ dr eff h₀ h _ _ _ he hl => ?_
  unfold insertTriggers at he
  split_ifs at he
  obtain rfl := Except.ok.inj he
  refine h.add_of_eq (fun p hp => ?_) (fun k hk hr => ?_) (fun _ hlock => .inl hlock) rfl ?_ (by simp) rfl
  · obtain ⟨key, hkey, rfl⟩ := List.mem_map.mp hp
    have hnone : dr₀.after (.trigger a puzzle key) = none := by
      simpa using (List.mem_filter.mp hkey).2
    have hafter : dr.after (.trigger a puzzle key) = none := by
      refine (hl.after_eq (.trigger a puzzle key) ?_).trans hnone
      exact List.mem_append_left _ (List.mem_map.mpr ⟨_, hp, rfl⟩)
    have hbefore : dr.before (.trigger a puzzle key) = none := by
      have hr := h.rows (.trigger a puzzle key)
      rw [row_trigger, if_neg (by simp [hf]), hafter] at hr
      exact hr.symm
    have hpos : 0 < ((keys.dedup.filter fun key =>
        (dr₀.after (.trigger a puzzle key)).isNone)).length := List.length_pos_of_mem hkey
    rw [row_trigger, if_pos ⟨rfl, by simpa using hpos⟩, hbefore]
    exact fun hne => absurd rfl hne
  · exact hr.extend (fun _ _ => ⟨rfl, rfl, rfl, rfl⟩) (by simp) (by simp [hf]) id id (by simp)
  · intro id
    simp [Effect.keys]

/-- The puzzle is solved, where it was not. -/
lemma Progress.add_setSolved {T : Contract Val} {puzzle : Id} {dr₀ dr : Draft Val EventLogInput}
    {eff : Effect Val EventLogInput Bool} (h : Progress cfg team new a f dr) (hf : f.solved = none)
    (he : setSolved a puzzle dr₀.after dr₀.start = .ok eff) (hl : dr₀.Later T eff.keys dr) :
    Progress cfg team new a { f with solved := if eff.val = true then some puzzle else none }
      (dr.add eff) := by
  have hsame : ({ f with solved := none } : Deeds) = f := by rw [← hf]
  unfold setSolved at he
  split at he
  · rename_i tp htp
    split_ifs at he with hstate
    · obtain rfl := Except.ok.inj he
      have hafter : dr.after (.teamPuzzle a puzzle) = some tp :=
        (hl.after_eq (.teamPuzzle a puzzle) (by simp [Effect.keys])).trans htp
      have hr := h.rows (.teamPuzzle a puzzle)
      rw [row_teamPuzzle, if_neg (by simp [hf]), hafter] at hr
      obtain ⟨tp₀, hbefore, hcore⟩ := Option.map_eq_some_iff.mp hr.symm
      refine h.add_of_eq (fun p hp => ?_) (fun k hk hr => ?_) (fun _ hlock => .inl hlock) rfl
        (by simp [Effect.keys]) (by simp) rfl
      · obtain rfl := List.mem_singleton.mp hp
        rw [row_teamPuzzle, if_pos ⟨rfl, by simp⟩]
        exact ⟨tp₀, _, hbefore, rfl, (congrArg Prod.fst hcore).trans hstate, rfl⟩
      · refine hr.extend (fun _ _ => ⟨rfl, rfl, rfl, rfl⟩) (fun p hp => ?_) id id id (by simp)
        have hne : p ≠ puzzle := by
          rintro rfl
          simp [Effect.keys, hp] at hk
        simp [hf, Ne.symm hne]
    · obtain rfl := Except.ok.inj he
      simpa [hsame] using h
  · obtain rfl := Except.ok.inj he
    simpa [hsame] using h

lemma setSolved_draws (hI : ∀ l d, ok l d → HasTeam team gameId d.committed) {puzzle : Id}
    (hf : f.solved = none) :
    Draws R ok (contract team) t (HasTeam team gameId) (Progress cfg team new a f)
      (Tx.query t l (setSolved a puzzle))
      (fun b => Progress cfg team new a { f with solved := if b = true then some puzzle else none })
      Z :=
  Draws.query (fun _ => True) (hI l) (fun _ _ => trivial)
    fun _ _ _ _ h _ _ _ he hl => h.add_setSolved hf he hl

/-- The end of the game is set, unless it is. -/
lemma setFinished_draws (hI : ∀ l d, ok l d → HasTeam team gameId d.committed) :
    Draws R ok (contract team) t (HasTeam team gameId) (Progress cfg team new a f)
      (Tx.query t l (setFinished a))
      (fun _ => Progress cfg team new a { f with finished := true }) Z := by
  refine Draws.query (fun _ => True) (hI l) (fun _ _ => trivial)
    fun dr₀ dr eff h₀ h hI₀ hI₁ _ he hl => ?_
  have hkeep : ∀ tm tm', TeamRow f tm tm' → TeamRow { f with finished := true } tm tm' := by
    intro tm tm' hrow
    refine ⟨hrow.game, hrow.start, ?_, hrow.kept, hrow.marked, hrow.unmarked⟩
    have hfin := hrow.finish
    split_ifs at hfin
    · exact hfin
    · exact fun i hi => hfin.trans hi
  have hrest : Progress cfg team new a { f with finished := true } dr := by
    refine ⟨fun k => ?_, h.held, h.closes, h.logged, h.fresh⟩
    have hr := h.rows k
    cases k with
    | team b =>
      rw [row_team] at hr ⊢
      split_ifs at hr ⊢
      · intro ha
        cases hx : dr.before (.team b) <;> cases hy : dr.after (.team b) <;>
          (have hrow := hr ha; rw [hx, hy] at hrow; cases hrow)
        · exact .none
        · exact .some (hkeep _ _ (by assumption))
      · exact hr
    | _ => exact hr
  unfold setFinished at he
  split at he
  · rename_i tm htm
    split_ifs at he with hstart
    · obtain rfl := Except.ok.inj he
      have hafter : dr.after (.team a) = some tm :=
        (hl.after_eq (.team a) (by simp [Effect.keys])).trans htm
      refine h.add_of_eq (fun p hp => ?_) (fun k hk hr => ?_) (fun _ hlock => .inl hlock) rfl
        (by simp [Effect.keys]) (by simp) rfl
      · obtain rfl := List.mem_singleton.mp hp
        have hr := h.rows (.team a)
        rw [hafter] at hr
        refine hr.team_put fun tm₀ hrow => ?_
        refine ⟨hrow.game, hrow.start, fun i hi => ?_, hrow.kept, hrow.marked, hrow.unmarked⟩
        have hfin := (hkeep tm₀ tm hrow).finish
        rw [if_pos rfl] at hfin
        simp [hfin i hi]
      · refine hr.extend (fun hteam => ?_) (by simp) id id id (by simp)
        simp [Effect.keys, hteam] at hk
    · obtain rfl := Except.ok.inj he
      simpa using hrest
  · obtain rfl := Except.ok.inj he
    simpa using hrest

/-- Where the game has not started or has an end, there is nothing to set. -/
lemma setFinished_of_settled {v : View} {now : ℤ} {eff : Effect Val EventLogInput Unit}
    (h : (v (.team a)).all (fun tm => tm.startAt.isNone || tm.finishAt.isSome) = true)
    (he : setFinished a v now = .ok eff) :
    (∀ p ∈ eff.puts, p.2 = v p.1) ∧ eff.inserts = [] := by
  unfold setFinished at he
  split at he
  · rename_i tm htm
    split_ifs at he with hstart
    · obtain rfl := Except.ok.inj he
      refine ⟨fun p hp => ?_, rfl⟩
      obtain rfl := List.mem_singleton.mp hp
      rw [htm, Option.all_some] at h
      cases hf : tm.finishAt with
      | none => simp_all
      | some i =>
        show some ({ tm with finishAt := some i } : Team) = v (.team a)
        rw [htm, ← hf]
    · obtain rfl := Except.ok.inj he
      simp
  · obtain rfl := Except.ok.inj he
    simp

/-- The team starts, unless it has. -/
lemma setStarted_draws (hI : ∀ l d, ok l d → HasTeam team gameId d.committed) {startAt : ℤ}
    (hf : f.started = false) :
    Draws R ok (contract team) t (HasTeam team gameId) (Progress cfg team new a f)
      (Tx.query t l (setStarted a startAt))
      (fun b => Progress cfg team new a { f with started := b.getD false }) Z := by
  refine Draws.query (fun _ => True) (hI l) (fun _ _ => trivial)
    fun dr₀ dr eff h₀ h _ _ _ he hl => ?_
  have hsame : ({ f with started := false } : Deeds) = f := by rw [← hf]
  unfold setStarted at he
  split at he
  · obtain rfl := Except.ok.inj he
    simpa [hsame] using h
  · rename_i tm htm
    obtain rfl := Except.ok.inj he
    have hafter : dr.after (.team a) = some tm :=
      (hl.after_eq (.team a) (by simp [Effect.keys])).trans htm
    refine h.add_of_eq (fun p hp => ?_) (fun k hk hr => ?_) (fun _ hlock => .inl hlock) rfl
      (by simp [Effect.keys]) (by simp) rfl
    · obtain rfl := List.mem_singleton.mp hp
      have hr := h.rows (.team a)
      rw [hafter] at hr
      refine hr.team_put fun tm₀ hrow => ?_
      have hst := hrow.start
      rw [if_neg (by simp [hf])] at hst
      refine ⟨hrow.game, ?_, hrow.finish, hrow.kept, hrow.marked, hrow.unmarked⟩
      cases hs : tm.startAt with
      | none => simp [← hst, hs]
      | some i => simp [← hst, hs]
    · refine hr.extend (fun hteam => ?_) (by simp) id id id (by simp)
      simp [Effect.keys, hteam] at hk

/-- The lock of the team's row. -/
lemma lockTeam_draws (hI : ∀ l d, ok l d → HasTeam team gameId d.committed) :
    Draws R ok (contract team) t (HasTeam team gameId) (Progress cfg team new a f)
      (Tx.query t l (lockTeam a)) (fun _ => Progress cfg team new a { f with locked := true }) Z := by
  refine Draws.query (fun _ => True) (hI l) (fun _ _ => trivial)
    fun dr₀ dr eff h₀ h hI₀ _ _ he hl => ?_
  obtain ⟨hputs, hlog⟩ := isQuiet_lockTeam.calm _ _ _ he
  refine (h.add_calm (fun p hp => ?_) hlog).lock fun ha => ?_
  · rw [hl.after_eq p.1 (List.mem_append_left _ (List.mem_map.mpr ⟨p, hp, rfl⟩))]
    exact hputs p hp
  · obtain ⟨tm, htm⟩ := h₀.exists_team hI₀
    obtain rfl := Except.ok.inj he
    subst ha
    simp [htm, Effect.keys, lockRow]

/-- A counted event. -/
lemma insertEvent_draws (hI : ∀ l d, ok l d → HasTeam team gameId d.committed) {ev : EventLogInput}
    (hev : isNotable ev = true) :
    Draws R ok (contract team) t (HasTeam team gameId) (Progress cfg team new a f)
      (Tx.query t l (insertEvent ev))
      (fun _ => Progress cfg team new a { f with logged := f.logged ++ [ev] }) Z := by
  refine Draws.query (fun _ => True) (hI l) (fun _ _ => trivial)
    fun dr₀ dr eff h₀ h _ _ _ he hl => ?_
  obtain rfl := Except.ok.inj he
  refine h.add_of_eq (by simp) (fun k _ hr => ?_) (fun _ hlock => .inl hlock) rfl
    (by simp [Effect.keys]) (by simp [hev]) rfl
  exact hr.extend (fun _ _ => ⟨rfl, rfl, rfl, rfl⟩) (by simp) id id id (by simp)

/-- The tickets of the puzzle are closed; a lock of the team's row keeps others from opening any. -/
lemma closePuzzleTicketsOnSolve_draws (hI : ∀ l d, ok l d → HasTeam team gameId d.committed)
    {puzzle : Id} (hf : f.closed = none) (hlock : f.locked = true) :
    Draws R ok (contract team) t (HasTeam team gameId) (Progress cfg team new a f)
      (Tx.query t l (closePuzzleTicketsOnSolve cfg a puzzle))
      (fun _ => Progress cfg team new a { f with closed := some puzzle }) Z := by
  refine Draws.query (fun _ => True) (hI l) (fun _ _ => trivial)
    fun dr₀ dr eff h₀ h _ _ _ he hl => ?_
  unfold closePuzzleTicketsOnSolve at he
  obtain rfl := Except.ok.inj he
  have hsame : ∀ id, dr.after (.ticket id) = dr.before (.ticket id) := by
    intro id
    have hr := h.rows (.ticket id)
    rwa [row_ticket, if_pos hf] at hr
  refine h.add (fun p hp => ?_) (fun k hk hr => ?_) (fun _ hlock => .inl hlock)
    (fun ha q hq id hid hopen => ?_)
    (by simp) h.fresh
  · obtain ⟨id, -, hid⟩ := List.mem_filterMap.mp hp
    split at hid
    · rename_i tk htk
      split_ifs at hid with hopen
      obtain rfl := Option.some.inj hid
      have hafter : dr.after (.ticket id) = some tk := by
        refine (hl.after_eq (.ticket id) ?_).trans htk
        exact List.mem_append_left _ (List.mem_map.mpr ⟨_, hp, rfl⟩)
      rw [row_ticket, if_neg (by simp), ← hsame id, hafter]
      refine .some ⟨rfl, rfl, .inr ⟨?_, rfl⟩⟩
      simp only [Ticket.isOpen, Bool.and_eq_true, decide_eq_true_eq] at hopen
      exact hopen.1.1
    · simp at hid
  · exact hr.extend (fun _ _ => ⟨rfl, rfl, rfl, rfl⟩) (by simp) id id (by simp) (by simp)
  · obtain rfl := Option.some.inj hq
    have hguard := hl.guarded (.team a) (List.mem_append_right _ (h.held ha hlock)) (.ticket id)
      (by rw [ha]) puzzle
    subst ha
    rw [hsame id, hopen] at hguard
    have hopened : ∃ tk, dr₀.after (.ticket id) = some tk ∧ Ticket.isOpen a puzzle tk = true := by
      cases htk : dr₀.after (.ticket id) with
      | none => simp [htk] at hguard
      | some tk => exact ⟨tk, rfl, by simpa [htk] using hguard.symm⟩
    obtain ⟨tk, htk, hopentk⟩ := hopened
    refine applyPuts_induction (q := fun k y => ClosedTicket k y) (fun p hp => ?_) (.ticket id)
      fun hnot => absurd ?_ hnot
    · obtain ⟨id', -, hid'⟩ := List.mem_filterMap.mp hp
      split at hid'
      · split_ifs at hid'
        obtain rfl := Option.some.inj hid'
        simp [ClosedTicket]
      · simp at hid'
    · refine List.mem_map.mpr ⟨⟨.ticket id, some { tk with state := 0 }⟩, ?_, rfl⟩
      refine List.mem_filterMap.mpr ⟨id, hid, ?_⟩
      simp [htk, hopentk]

/-- The hint is unlocked; where it is one of `new`, it was not. -/
lemma upsertTeamHint_draws (hI : ∀ l d, ok l d → HasTeam team gameId d.committed) {hint : Id}
    (hnew : a = team → new hint → ∀ d, ok l d → d.view t (.teamHint a hint) ≠ some true)
    (hf : f.unlocked = none) :
    Draws R ok (contract team) t (HasTeam team gameId) (Progress cfg team new a f)
      (Tx.query t l (upsertTeamHint hint a))
      (fun _ => Progress cfg team new a { f with unlocked := some hint }) Z := by
  refine Draws.query (fun v => a = team → new hint → v (.teamHint a hint) ≠ some true) (hI l)
    (fun d ho ha hn => hnew ha hn d ho) fun dr₀ dr eff h₀ h _ _ hC he hl => ?_
  obtain rfl := Except.ok.inj he
  have hrow := h.rows (.teamHint a hint)
  rw [row_teamHint, if_neg (by simp [hf])] at hrow
  refine h.add (fun p hp => ?_) (fun k hk hr => ?_) (fun _ hlock => .inl hlock)
    (fun ha p hp id hid hopen => ?_) (by simp) fun ha x hn hx => ?_
  · obtain rfl := List.mem_singleton.mp hp
    rw [row_teamHint, if_pos ⟨rfl, rfl⟩]
  · refine hr.extend (fun _ _ => ⟨rfl, rfl, rfl, rfl⟩) (by simp) id id id fun x hx => ?_
    have hne : x ≠ hint := by
      rintro rfl
      simp [Effect.keys, hx] at hk
    simp [hf, Ne.symm hne]
  · rw [applyPuts_of_notMem (by simp)]
    exact h.closes ha p hp id hid hopen
  · obtain rfl := Option.some.inj hx
    rw [← hrow, hl.after_eq (.teamHint a hint) (by simp [Effect.keys])]
    exact hC ha hn

end Draws

end Play
