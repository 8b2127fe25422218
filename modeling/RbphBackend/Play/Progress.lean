import RbphBackend.Play.Rows

set_option relaxedAutoImplicit false
set_option autoImplicit false

/-!
# The progress of a transaction

What the draft of a transaction shows of its deeds, and the statements that add none. The row of a
team is the guard of what conditions see of it and of its tickets: whoever changes them holds it.

## Main definitions

* `Play.contract` — the row of a team as a guard.
* `Play.Progress` — the draft shows these deeds.
* `Play.IsCalm` — a statement adds no deed.
* `Play.Closed` — a property of calls that composition keeps.

## Main results

* `Play.Progress.add` — the draft after a statement.
* `Play.calm_draws` — a statement that adds no deed.
-/

namespace Play

open Concurrency ReadCommitted Numeric Database Currency

/-! ## The row of a team as a guard -/

/-- How a row may change while another session holds the team's row. -/
def GuardedRow (team : Id) : (k : Key) → Val k → Val k → Prop
  | .teamPuzzle b _, x, y =>
    b = team → y.any (fun tp => decide (1 ≤ tp.state)) = x.any fun tp => decide (1 ≤ tp.state)
  | .trigger b _ _, x, y => b = team → y.isSome = x.isSome
  | .contentBlockUnlock b _, x, y => b = team → y = x
  | .ticket _, x, y => ∀ p, y.any (Ticket.isOpen team p) = x.any (Ticket.isOpen team p)
  | _, _, _ => True

lemma guardedRow_refl (team : Id) (k : Key) (x : Val k) : GuardedRow team k x x := by
  cases k <;> simp [GuardedRow]

lemma GuardedRow.trans {team : Id} {k : Key} {x y z : Val k} (h : GuardedRow team k x y)
    (h' : GuardedRow team k y z) : GuardedRow team k x z := by
  cases k with
  | teamPuzzle b p => exact fun hb => (h' hb).trans (h hb)
  | trigger b p key => exact fun hb => (h' hb).trans (h hb)
  | contentBlockUnlock b cb => exact fun hb => (h' hb).trans (h hb)
  | ticket id => exact fun p => (h' p).trans (h p)
  | _ => trivial

/-- The row of the team guards what conditions see of the team, its content blocks and tickets. -/
def contract (team : Id) : Contract Val where
  Guarded guard k x y := guard = .team team → GuardedRow team k x y
  refl _ _ := guardedRow_refl _ _ _
  trans h h' hg := (h hg).trans (h' hg)

/-- The team exists and plays this game. -/
def HasTeam (team gameId : Id) (v : View) : Prop :=
  (v (.team team)).map (·.gameId) = some gameId

lemma HasTeam.exists {team gameId : Id} {v : View} (h : HasTeam team gameId v) :
    ∃ tm, v (.team team) = some tm ∧ tm.gameId = gameId := Option.map_eq_some_iff.mp h

section Guarded

variable {team a : Id} {f : Deeds} {k : Key} {x y : Val k}

private lemma ticketRow_isOpen (ha : a ≠ team) {tk tk' : Ticket} (h : TicketRow a tk tk') (p : Id) :
    Ticket.isOpen team p tk' = Ticket.isOpen team p tk := by
  unfold Ticket.isOpen
  rw [h.team, h.puzzle]
  rcases h.state with hs | ⟨hteam, -⟩
  · rw [hs]
  · have hne : tk.teamId ≠ team := fun heq => ha (hteam.symm.trans heq)
    simp [hne]

/-- **Deeds that need no lock**: those of a call for another team, and those that change nothing the
team's row guards. -/
lemma Row.guarded (h : Row team a f k x y) (hf : a = team → f.triggered = false ∧ f.solved = none ∧
    f.cleaned = false ∧ f.closed = none) : GuardedRow team k x y := by
  cases k with
  | teamPuzzle b p =>
    rintro rfl
    rw [row_teamPuzzle, if_neg (by rintro ⟨rfl, hs⟩; simp [(hf rfl).2.1] at hs)] at h
    cases x with
    | none => rw [Option.map_none, Option.map_eq_none_iff] at h; rw [h]
    | some tp =>
      obtain ⟨tp', rfl, hcore⟩ := Option.map_eq_some_iff.mp h
      have hstate : tp'.state = tp.state := congrArg Prod.fst hcore
      simp [hstate]
  | trigger b p key =>
    rintro rfl
    rw [row_trigger, if_neg (by rintro ⟨rfl, hs⟩; simp [(hf rfl).1] at hs)] at h
    rw [h]
  | contentBlockUnlock b cb =>
    rintro rfl
    rwa [row_contentBlockUnlock, if_neg (by rintro ⟨rfl, hs⟩; simp [(hf rfl).2.2.1] at hs)] at h
  | ticket id =>
    intro p
    rw [row_ticket] at h
    split_ifs at h with hc
    · rw [h]
    · have ha : a ≠ team := fun ha => hc (hf ha).2.2.2
      cases h with
      | none => rfl
      | some hr => simp [ticketRow_isOpen ha hr]
  | _ => trivial

end Guarded

/-! ## Progress -/

/-- The draft of a transaction of a call for team `a` shows these deeds. The tickets are those of the
configuration. A hint of `new` is unlocked only where it was not. -/
structure Progress (cfg : Config) (team : Id) (new : Id → Prop) (a : Id) (f : Deeds)
    (dr : Draft Val EventLogInput) : Prop where
  rows : ∀ k, Row team a f k (dr.before k) (dr.after k)
  held : a = team → f.locked = true → .team a ∈ dr.held
  closes : a = team → ∀ p, f.closed = some p → ∀ id ∈ cfg.ticketIds,
    (dr.before (.ticket id)).any (Ticket.isOpen a p) = true →
    (dr.after (.ticket id)).any (fun tk => decide (tk.state = 0)) = true
  logged : dr.inserted.filter isNotable = f.logged
  fresh : a = team → ∀ h, new h → f.unlocked = some h → dr.before (.teamHint a h) ≠ some true

/-- A statement that adds no deed. -/
def IsCalm {β : Type} (stmt : Statement β) : Prop :=
  ∀ v now eff, stmt v now = .ok eff →
    (∀ p ∈ eff.puts, Calm p.1 (v p.1) p.2) ∧ ∀ ev ∈ eff.inserts, isNotable ev = false

section Progress

variable {cfg : Config} {team : Id} {new : Id → Prop} {a : Id} {f f' : Deeds} {β : Type}
  {dr : Draft Val EventLogInput} {eff : Effect Val EventLogInput β}

/-- A transaction that has just begun has done nothing. -/
lemma progress_begun {t : Tid} {start : ℤ} {v : View} :
    Progress cfg team new a {} (.begun t start v) :=
  ⟨fun k => row_refl team a k (v k), by simp, by simp, rfl, by simp⟩

/-- **The draft after a statement**, by what the deeds mean for the rows it writes and for the
rows it does not. -/
lemma Progress.add (h : Progress cfg team new a f dr)
    (hputs : ∀ p ∈ eff.puts, Row team a f' p.1 (dr.before p.1) p.2)
    (hrest : ∀ k ∉ eff.keys, Row team a f k (dr.before k) (dr.after k) →
      Row team a f' k (dr.before k) (dr.after k))
    (hheld : a = team → f'.locked = true → f.locked = true ∨ .team a ∈ eff.keys)
    (hcloses : a = team → ∀ p, f'.closed = some p → ∀ id ∈ cfg.ticketIds,
      (dr.before (.ticket id)).any (Ticket.isOpen a p) = true →
      (applyPuts eff.puts dr.after (.ticket id)).any (fun tk => decide (tk.state = 0)) = true)
    (hlogged : f'.logged = f.logged ++ eff.inserts.filter isNotable)
    (hfresh : a = team → ∀ x, new x → f'.unlocked = some x →
      dr.before (.teamHint a x) ≠ some true) :
    Progress cfg team new a f' (dr.add eff) := by
  refine ⟨fun k => ?_, fun ha hl => ?_, hcloses, ?_, hfresh⟩
  · exact applyPuts_induction (q := fun k y => Row team a f' k (dr.before k) y) hputs k
      fun hk => hrest k hk (h.rows k)
  · rcases hheld ha hl with hf | hk
    · exact List.mem_append_right _ (h.held ha hf)
    · exact List.mem_append_left _ hk
  · rw [Draft.add_inserted, List.filter_append, h.logged, hlogged]

/-- A statement that closes no ticket and unlocks no hint. -/
lemma Progress.add_of_eq (h : Progress cfg team new a f dr)
    (hputs : ∀ p ∈ eff.puts, Row team a f' p.1 (dr.before p.1) p.2)
    (hrest : ∀ k ∉ eff.keys, Row team a f k (dr.before k) (dr.after k) →
      Row team a f' k (dr.before k) (dr.after k))
    (hheld : a = team → f'.locked = true → f.locked = true ∨ .team a ∈ eff.keys)
    (hclosed : f'.closed = f.closed) (hticket : ∀ id, .ticket id ∉ eff.keys)
    (hlogged : f'.logged = f.logged ++ eff.inserts.filter isNotable)
    (hunlocked : f'.unlocked = f.unlocked) : Progress cfg team new a f' (dr.add eff) := by
  refine h.add hputs hrest hheld (fun ha p hp id hid hopen => ?_) hlogged fun ha x hn hx => ?_
  · rw [applyPuts_of_notMem (hticket id)]
    exact h.closes ha p (hclosed ▸ hp) id hid hopen
  · exact h.fresh ha x hn (hunlocked ▸ hx)

/-- A statement that adds no deed. -/
lemma Progress.add_calm (h : Progress cfg team new a f dr)
    (hputs : ∀ p ∈ eff.puts, Calm p.1 (dr.after p.1) p.2)
    (hlog : ∀ ev ∈ eff.inserts, isNotable ev = false) : Progress cfg team new a f (dr.add eff) := by
  have hcalm : ∀ k, Calm k (dr.after k) (applyPuts eff.puts dr.after k) := fun k =>
    applyPuts_induction (q := fun k y => Calm k (dr.after k) y) hputs k fun _ => calm_refl k _
  refine ⟨fun k => (h.rows k).calm (hcalm k), fun ha hl => List.mem_append_right _ (h.held ha hl),
    fun ha p hp id hid hopen => ?_, ?_, h.fresh⟩
  · have hid' : applyPuts eff.puts dr.after (.ticket id) = dr.after (.ticket id) :=
      hcalm (.ticket id)
    rw [Draft.add_after, hid']
    exact h.closes ha p hp id hid hopen
  · have hnone : eff.inserts.filter isNotable = [] := by
      rw [List.filter_eq_nil_iff]
      intro ev hev
      simp [hlog ev hev]
    rw [Draft.add_inserted, List.filter_append, hnone, List.append_nil, h.logged]

/-- The team's row is locked, beside. -/
lemma Progress.lock (h : Progress cfg team new a f dr) (hk : a = team → .team a ∈ dr.held) :
    Progress cfg team new a { f with locked := true } dr := by
  refine ⟨fun k => ?_, fun ha _ => hk ha, h.closes, h.logged, h.fresh⟩
  have hr := h.rows k
  cases k with
  | team b =>
    rw [row_team] at hr ⊢
    split_ifs at hr ⊢
    · intro hteam
      replace hr := hr hteam
      cases hx : dr.before (.team b) <;> cases hy : dr.after (.team b) <;> rw [hx, hy] at hr <;>
        cases hr
      · exact .none
      · rename_i hr
        exact .some ⟨hr.game, hr.start, hr.finish, hr.kept, hr.marked, hr.unmarked⟩
    · exact hr
  | _ => exact hr

end Progress

/-! ## Calm statements -/

section Calm

variable {β : Type}

lemma isCalm_read {f : View → ℤ → Except String β} : IsCalm (.read f : Statement β) := by
  intro v now eff h
  obtain ⟨b, -, rfl⟩ := Stmt.read_eq_ok.mp h
  simp

lemma isCalm_insertEvent {ev : EventLogInput} (h : isNotable ev = false) :
    IsCalm (insertEvent ev) := by
  rintro v now eff ⟨⟩
  simpa using h

section Draws

variable {cfg : Config} {team : Id} {new : Id → Prop} {a : Id} {f : Deeds} {t : Tid} {l : Label}
  {R : Store → Store → Prop} [Honours (contract team) t R] {ok : Label → Store → Prop}
  {I : View → Prop}

/-- **A statement that adds no deed.** -/
lemma calm_draws {stmt : Statement β} (hI : ∀ l d, ok l d → I d.committed) (h : IsCalm stmt) :
    Draws R ok (contract team) t I (Progress cfg team new a f) (Tx.query t l stmt)
      (fun _ => Progress cfg team new a f) (Progress cfg team new a f) := by
  refine Draws.query (fun _ => True) (hI l) (fun _ _ => trivial) fun dr₀ dr eff _ hdr _ _ _ he hl => ?_
  obtain ⟨hputs, hlog⟩ := h _ _ _ he
  refine hdr.add_calm (fun p hp => ?_) hlog
  rw [hl.after_eq p.1 (List.mem_append_left _ (List.mem_map.mpr ⟨p, hp, rfl⟩))]
  exact hputs p hp

end Draws

end Calm

/-! ## Properties of calls -/

/-- A property of calls that composition keeps. -/
structure Closed (Φ : ∀ {β : Type}, Call β → Prop) : Prop where
  pure : ∀ {β : Type} (b : β), Φ (Pure.pure b : Call β)
  throw : ∀ {β : Type} (e : String), Φ (MonadExcept.throw e : Call β)
  bind : ∀ {β γ : Type} {p : Call β} {k : β → Call γ}, Φ p → (∀ b, Φ (k b)) → Φ (p >>= k)

/-- A part that is run on a condition. -/
lemma Closed.when {Φ : ∀ {β : Type}, Call β → Prop} (h : Closed Φ) {c : Prop} [Decidable c]
    {p : Call Unit} (hp : Φ p) : Φ (when c p) := by
  unfold Play.when
  split
  · exact hp
  · exact h.pure ()

/-- A loop over a list. -/
lemma Closed.forM {Φ : ∀ {β : Type}, Call β → Prop} (h : Closed Φ) {α : Type} {f : α → Call Unit}
    (hf : ∀ x, Φ (f x)) (l : List α) : Φ (l.forM f) := by
  induction l with
  | nil => exact h.pure ()
  | cons x l ih => exact h.bind (hf x) fun _ => ih

end Play
