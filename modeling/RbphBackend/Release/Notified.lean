import RbphBackend.Release.Processor

set_option relaxedAutoImplicit false
set_option autoImplicit false

/-!
# What a notified event stands for

The history of the features keeps the changes of a phase from being made twice, whoever stops and
whenever. That the board has been invalidated is not recorded: a processor that stops between the
changes of a phase and the invalidation leaves it undone, as the next one finds the changes made.

## Main definitions

* `Release.Settled` — the board changes of a thread have been followed by an invalidation.
* `Release.Attentive` — no processor is cut off between the two.
* `Release.Ready`, `Release.Notified` — what holds of an event before it is marked notified.

## Main results

* `Release.notified_of_reaches` — any number of calls and stops in any interleaving.
-/

namespace Release

open Concurrency

/-! ## Board changes in a log -/

/-- The game whose board a history row of thread `t` has changed for a phase. -/
def Event.boardOf (t : Tid) : Event → Option Id
  | .applied u row =>
    if u = t ∧ row.phaseId.isSome ∧ row.featureType = GameFeature.leaderboard.value then
      some row.gameId
    else none
  | _ => none

/-- Every board change of thread `t` is followed by an invalidation of the board. -/
def Settled (t : Tid) : List Event → Prop
  | [] => True
  | e :: l => (∀ game ∈ e.boardOf t, .invalidated game ∈ l) ∧ Settled t l

instance decidableSettled (t : Tid) : DecidablePred (Settled t)
  | [] => instDecidableTrue
  | e :: l =>
    have := decidableSettled t l
    inferInstanceAs (Decidable ((∀ game ∈ e.boardOf t, .invalidated game ∈ l) ∧ Settled t l))

/-- A board change of a phase is followed by an invalidation. -/
def Invalidated (l : List Event) (game phase : Id) : Prop :=
  ∃ t row, row.phaseId = some phase ∧ row.featureType = GameFeature.leaderboard.value ∧
    [.applied t row, .invalidated game].Sublist l

section Log

variable {t : Tid} {l l' new : List Event} {game phase : Id} {e : Event}

/-- Events that change no board for `t` may come anywhere. -/
lemma Settled.insert (h : Settled t (l ++ l')) (hnew : ∀ e ∈ new, e.boardOf t = none) :
    Settled t (l ++ (new ++ l')) := by
  induction l with
  | nil =>
    induction new with
    | nil => exact h
    | cons e new ih =>
      refine ⟨fun game hgame => ?_, ih fun e he => hnew e (List.mem_cons_of_mem _ he)⟩
      rw [hnew e List.mem_cons_self] at hgame
      cases hgame
  | cons e l ih =>
    refine ⟨fun game hgame => ?_, ih h.2⟩
    have hmem : .invalidated game ∈ l ++ l' := h.1 game hgame
    have hsub : (l ++ l').Sublist (l ++ (new ++ l')) :=
      (List.Sublist.refl l).append (List.sublist_append_right new l')
    exact hsub.subset hmem

lemma Settled.append (h : Settled t l) (hnew : ∀ e ∈ new, e.boardOf t = none) :
    Settled t (l ++ new) := by
  have h' : Settled t (l ++ []) := by simpa using h
  simpa using h'.insert hnew

/-- The board changes of a log that are followed by those of one game are settled by its
invalidation. -/
lemma Settled.invalidate (h : Settled t l)
    (hnew : ∀ e ∈ new, ∀ g ∈ e.boardOf t, g = game) :
    Settled t (l ++ (new ++ [.invalidated game])) := by
  induction l with
  | nil =>
    induction new with
    | nil =>
      show Settled t [.invalidated game]
      exact ⟨nofun, trivial⟩
    | cons e new ih =>
      refine ⟨fun g hg => ?_, ih fun e he => hnew e (List.mem_cons_of_mem _ he)⟩
      rw [hnew e List.mem_cons_self g hg]
      simp
  | cons e l ih =>
    exact ⟨fun g hg => List.mem_append_left _ (h.1 g hg), ih h.2⟩

lemma Settled.mem (h : Settled t (l ++ e :: l')) (he : game ∈ e.boardOf t) :
    .invalidated game ∈ l' := by
  induction l with
  | nil => exact h.1 game he
  | cons a l ih => exact ih h.2

lemma Invalidated.mono (h : Invalidated l game phase) (hl : l.Sublist l') :
    Invalidated l' game phase := by
  obtain ⟨t, row, hp, hf, hsub⟩ := h
  exact ⟨t, row, hp, hf, hsub.trans hl⟩

end Log

/-! ## The condition on a run -/

/-- No processor is cut off between a phase's change of the board and its invalidation: a thread is
stopped only where its board changes are settled, and the invalidation does not fail. -/
def Attentive {H : Type} (_ : Tid) : Label → Server H → Prop
  | .stop t, s => Settled t s.log
  | .invalidate, s => s.dbUp = true
  | .step, _ => True

instance {H : Type} (t : Tid) (l : Label) (s : Server H) : Decidable (Attentive t l s) := by
  cases l <;> unfold Attentive <;> infer_instance

/-- The condition, if it is asked for. -/
def Admits {H : Type} (attentive : Bool) (t : Tid) (l : Label) (s : Server H) : Prop :=
  attentive = true → Attentive t l s

section Invariant

variable {H : Type}

/-- The changes of the event's phase have been made, and if the run is attentive its board has been
invalidated since, with the events `l` to come. -/
def Ready (attentive : Bool) (l : List Event) (e : ReleaseEvent) (s : Server H) : Prop :=
  ∀ phase, e.phaseId = some phase → ∀ c ∈ s.featureChanges, c.phaseId = phase →
    inHistory s.db phase c.featureType = true ∧
      (attentive = true → c.featureType = GameFeature.leaderboard.value →
        Invalidated (s.log ++ l) e.gameId phase)

/-- The event is one of a phase of its game, if of any. -/
def OfGame (e : ReleaseEvent) (s : Server H) : Prop :=
  ∀ phase, e.phaseId = some phase →
    e.gameId ∈ s.db.games ∧ ∃ rp ∈ s.tables.phases, rp.id = phase ∧ rp.gameId = e.gameId

/-- The event is in the table, notified or not. -/
def Listed (e : ReleaseEvent) (s : Server H) : Prop :=
  ∃ e' ∈ s.tables.events, e'.id = e.id ∧ e'.phaseId = e.phaseId ∧ e'.gameId = e.gameId

/-- **What a notified event stands for**: each phase has changed a feature once at most, a feature
is as its last change left it, and the changes of a notified event's phase have been made. -/
structure Notified (attentive : Bool) (s : Server H) : Prop where
  recorded : Recorded s.db
  ready : ∀ e ∈ s.tables.events, e.notifiedAt ≠ none → Ready attentive [] e s

/-- The invariant of a run. -/
structure Inv (attentive : Bool) (s : Server H) : Prop extends Notified attentive s where
  games : ∀ rp ∈ s.tables.phases, rp.gameId ∈ s.db.games
  unique : ∀ a ∈ s.tables.phases, ∀ b ∈ s.tables.phases, a.id = b.id → a.gameId = b.gameId
  nodup : (s.tables.events.map (·.id)).Nodup
  ids : ∀ e ∈ s.tables.events, e.id < s.tables.nextEvent
  ofGame : ∀ e ∈ s.tables.events, OfGame e s
  logged : ∀ row ∈ s.db.history, ∀ phase, row.phaseId = some phase →
    (∃ t, .applied t row ∈ s.log) ∧ ∃ rp ∈ s.tables.phases, rp.id = phase ∧ rp.gameId = row.gameId
  held : attentive = true → ∀ t, ¬ Settled t s.log → s.lock = some t

/-- What thread `t` relies on. -/
structure Rely (t : Tid) (s s' : Server H) : Prop where
  stopped : s.stopped t = true → s'.stopped t = true
  lock : s'.stopped t = false → s.lock = some t → s'.lock = some t
  free : s.lock ≠ some t → s'.lock ≠ some t
  log : ∃ new, s'.log = s.log ++ new ∧ ∀ e ∈ new, e.boardOf t = none
  history : s.db.history <+: s'.db.history
  games : s'.db.games = s.db.games
  phases : s'.tables.phases = s.tables.phases
  events : ∀ e, Listed e s → Listed e s'
  featureChanges : s'.featureChanges = s.featureChanges

lemma Rely.refl (t : Tid) (s : Server H) : Rely t s s :=
  ⟨id, fun _ => id, id, ⟨[], by simp, by simp⟩, List.prefix_rfl, rfl, rfl, fun _ => id, rfl⟩

lemma Rely.trans {t : Tid} {s₁ s₂ s₃ : Server H} (h : Rely t s₁ s₂) (h' : Rely t s₂ s₃) :
    Rely t s₁ s₃ where
  stopped hs := h'.stopped (h.stopped hs)
  lock hs hl := by
    refine h'.lock hs (h.lock ?_ hl)
    rw [Bool.eq_false_iff]
    intro hne
    rw [h'.stopped hne] at hs
    cases hs
  free hs := h'.free (h.free hs)
  log := by
    obtain ⟨new, hnew, hof⟩ := h.log
    obtain ⟨new', hnew', hof'⟩ := h'.log
    refine ⟨new ++ new', by rw [hnew', hnew, List.append_assoc], fun e he => ?_⟩
    rcases List.mem_append.1 he with he | he
    · exact hof e he
    · exact hof' e he
  history := h.history.trans h'.history
  games := h'.games.trans h.games
  phases := h'.phases.trans h.phases
  events e he := h'.events e (h.events e he)
  featureChanges := h'.featureChanges.trans h.featureChanges

/-- What a move of thread `t` keeps. -/
structure Moves (attentive : Bool) (t : Tid) (s s' : Server H) : Prop where
  others : ∀ u, u ≠ t → Rely u s s'
  inv : Inv attentive s'

variable {attentive : Bool} {t : Tid} {l : List Event} {e : ReleaseEvent} {s s' : Server H}

lemma Ready.mono (h : Ready attentive l e s) (hc : s'.featureChanges = s.featureChanges)
    (hh : s.db.history <+: s'.db.history) (hl : (s.log ++ l).Sublist (s'.log ++ l)) :
    Ready attentive l e s' := by
  intro phase hphase c hmem hcp
  rw [hc] at hmem
  obtain ⟨hin, hboard⟩ := h phase hphase c hmem hcp
  refine ⟨?_, fun ha hf => (hboard ha hf).mono hl⟩
  obtain ⟨row, hrow, hsame⟩ := inHistory_iff.1 hin
  exact inHistory_iff.2 ⟨row, hh.subset hrow, hsame⟩

lemma Listed.of_mem (h : e ∈ s.tables.events) : Listed e s := ⟨e, h, rfl, rfl, rfl⟩

lemma Inv.ofGame_of_listed (h : Inv attentive s) (he : Listed e s) : OfGame e s := by
  obtain ⟨e', hmem, -, hphase, hgame⟩ := he
  have hof := h.ofGame e' hmem
  unfold OfGame at hof ⊢
  rwa [hphase, hgame] at hof

/-- Nothing that the invariant speaks of has changed. -/
structure Same (s s' : Server H) : Prop where
  db : s'.db = s.db
  phases : s'.tables.phases = s.tables.phases
  events : s'.tables.events = s.tables.events
  nextEvent : s'.tables.nextEvent = s.tables.nextEvent
  featureChanges : s'.featureChanges = s.featureChanges
  lock : s'.lock = s.lock
  stopped : s'.stopped = s.stopped
  log : s'.log = s.log

lemma Same.rely (h : Same s s') : Rely t s s' := by
  refine ⟨?_, ?_, ?_, ⟨[], by simp [h.log], by simp⟩, ?_, ?_, h.phases, ?_, h.featureChanges⟩
  · rw [h.stopped]
    exact id
  · rw [h.lock]
    exact fun _ => id
  · rw [h.lock]
    exact id
  · exact h.db ▸ List.prefix_rfl
  · rw [h.db]
  · intro e he
    unfold Listed
    rwa [h.events]

lemma Same.inv (h : Same s s') (hs : Inv attentive s) : Inv attentive s' where
  recorded := h.db ▸ hs.recorded
  ready e he hn := by
    rw [h.events] at he
    refine (hs.ready e he hn).mono h.featureChanges ?_ ?_
    · exact h.db ▸ List.prefix_rfl
    · rw [h.log]
  games := by
    rw [h.phases, h.db]
    exact hs.games
  unique := by
    rw [h.phases]
    exact hs.unique
  nodup := by
    rw [h.events]
    exact hs.nodup
  ids := by
    rw [h.events, h.nextEvent]
    exact hs.ids
  ofGame := by
    rw [h.events]
    intro e he
    unfold OfGame
    rw [h.phases, h.db]
    exact hs.ofGame e he
  logged := by
    rw [h.db, h.log, h.phases]
    exact hs.logged
  held := by
    rw [h.log, h.lock]
    exact hs.held

lemma Same.moves (h : Same s s') (hs : Inv attentive s) : Moves attentive t s s' :=
  ⟨fun _ _ => h.rely, h.inv hs⟩

lemma Moves.refl (hs : Inv attentive s) : Moves attentive t s s :=
  ⟨fun _ _ => Rely.refl _ _, hs⟩

/-- What the environment does is what every thread relies on, and keeps the invariant. -/
lemma Changes.rely (h : Changes s s') : Rely t s s' := by
  obtain ⟨new, hnew, -⟩ := h.events
  refine ⟨?_, ?_, ?_, ⟨[], by simp [h.log], by simp⟩, ?_, h.games, h.phases, ?_, h.featureChanges⟩
  · rw [h.stopped]
    exact id
  · rw [h.lock]
    exact fun _ => id
  · rw [h.lock]
    exact id
  · exact h.history ▸ List.prefix_rfl
  · rintro e ⟨e', hmem, hsame⟩
    exact ⟨e', by rw [hnew]; exact List.mem_append_left _ hmem, hsame⟩

lemma Changes.inv (h : Changes s s') (hs : Inv attentive s) : Inv attentive s' := by
  obtain ⟨new, hnew, hphase⟩ := h.events
  refine ⟨⟨⟨?_, ?_⟩, ?_⟩, ?_, ?_, h.nodup, h.ids, ?_, ?_, ?_⟩
  · rw [h.history]
    exact hs.recorded.once
  · rw [h.history, h.features]
    exact hs.recorded.current
  · intro e he hn
    rw [hnew] at he
    rcases List.mem_append.1 he with he | he
    · refine (hs.ready e he hn).mono h.featureChanges ?_ ?_
      · exact h.history ▸ List.prefix_rfl
      · rw [h.log]
    · intro phase hp
      rw [hphase e he] at hp
      cases hp
  · rw [h.phases, h.games]
    exact hs.games
  · rw [h.phases]
    exact hs.unique
  · intro e he
    rw [hnew] at he
    unfold OfGame
    rw [h.phases, h.games]
    rcases List.mem_append.1 he with he | he
    · exact hs.ofGame e he
    · intro phase hp
      rw [hphase e he] at hp
      cases hp
  · rw [h.history, h.log, h.phases]
    exact hs.logged
  · rw [h.log, h.lock]
    exact hs.held

/-- The calls form a sound pool. -/
theorem relyGuarantee {α : Type} (attentive : Bool) :
    RelyGuarantee (Changes (H := H)) (Admits attentive) (Inv attentive) Rely
      (fun t => Plain (L := Label) (α := α) fun _ => Moves attentive t) where
  refl := Rely.refl
  trans _ _ _ _ h h' := h.trans h'
  guarantee t _ _ _ _ _ hu _ _ h := h.others t hu
  interference _ _ _ _ h := h.rely
  inv_step _ _ _ _ _ _ _ h := h.inv
  inv_env _ _ hs h := h.inv hs

end Invariant

/-! ## The rules -/

section Rules

variable {H α : Type} {attentive : Bool} {t : Tid}

/-- Thread `t`, unless it has been stopped, holds the lock; its board changes are settled once the
events `l` have come, and `P` holds. -/
def Under (attentive : Bool) (t : Tid) (l : List Event) (P : Server H → Prop) (s : Server H) :
    Prop :=
  s.stopped t = false →
    s.lock = some t ∧ (attentive = true → Settled t (s.log ++ l)) ∧ P s

lemma stable_under {l : List Event} {P : Server H → Prop} (hP : Stable (Rely t) P) :
    Stable (Rely t) (Under attentive t l P) := by
  intro s s' h hr hs'
  have hs : s.stopped t = false := by
    rw [Bool.eq_false_iff]
    intro hs
    rw [hr.stopped hs] at hs'
    cases hs'
  obtain ⟨hlock, hsettled, hp⟩ := h hs
  refine ⟨hr.lock hs' hlock, fun ha => ?_, hP s s' hp hr⟩
  obtain ⟨new, hnew, hof⟩ := hr.log
  rw [hnew, List.append_assoc]
  exact (hsettled ha).insert hof

lemma stable_ready {l : List Event} {e : ReleaseEvent} :
    Stable (Rely t) (Ready (H := H) attentive l e) := by
  intro s s' h hr
  obtain ⟨new, hnew, -⟩ := hr.log
  refine h.mono hr.featureChanges hr.history ?_
  rw [hnew, List.append_assoc]
  exact (List.Sublist.refl _).append (List.sublist_append_right new l)

lemma stable_listed {e : ReleaseEvent} : Stable (Rely t) (Listed (H := H) e) :=
  fun _ _ h hr => hr.events e h

/-- What thread `t` does, from an assertion to a postcondition. -/
abbrev CallTriple (attentive : Bool) (t : Tid) (A : Server H → Prop) (p : ReleaseCall H α)
    (Q : Except String α → Server H → Prop) : Prop :=
  Prog.Triple (Rely t) (fun l s => Admits attentive t l s ∧ Inv attentive s)
    (Plain fun _ => Moves attentive t) A p.run Q

lemma bind_triple {β : Type} {A : Server H → Prop} {B : α → Server H → Prop}
    {F : String → Server H → Prop} {Q : Except String β → Server H → Prop} {p : ReleaseCall H α}
    {k : α → ReleaseCall H β} (hp : CallTriple attentive t A p (Post B F))
    (hF : ∀ e, Stable (Rely t) (F e)) (hFQ : ∀ e s, F e s → Q (.error e) s)
    (hk : ∀ a, CallTriple attentive t (B a) (k a) Q) : CallTriple attentive t A (p >>= k) Q :=
  Fallible.bind_triple hp (fun _ _ _ _ h => h) (Rely.refl t)
    (fun e s s' h hr => hFQ e s' (hF e s s' h hr)) hk

/-- An action: it runs only where its thread has not been stopped. -/
lemma act_triple {l : Label} {f : Server H → Option (Except String α × Server H)}
    {A : Server H → Prop} {Q : Except String α → Server H → Prop} (hA : Stable (Rely t) A)
    (hQ : ∀ r, Stable (Rely t) (Q r))
    (h : ∀ s r s', A s → s.stopped t = false → Admits attentive t l s → Inv attentive s →
      f s = some (r, s') → Moves attentive t s s' ∧ Q r s') :
    CallTriple attentive t A (act t l f) Q := by
  refine Fallible.atomic_triple hA hQ fun s r s' hs ho hf => ?_
  split at hf
  · cases hf
  · rename_i hrun
    exact h s r s' hs (by simpa using hrun) ho.1 ho.2 hf

/-- A statement: where the database is down it fails and changes nothing. -/
lemma sql_triple {l : Label} {f : Server H → Except String α × Server H} {A : Server H → Prop}
    {B : α → Server H → Prop} {F : String → Server H → Prop} (hA : Stable (Rely t) A)
    (hB : ∀ a, Stable (Rely t) (B a)) (hF : ∀ e, Stable (Rely t) (F e))
    (hdown : ∀ s e, A s → s.stopped t = false → Admits attentive t l s → s.dbUp = false → F e s)
    (h : ∀ s, A s → s.stopped t = false → Inv attentive s →
      Moves attentive t s (f s).2 ∧ Post B F (f s).1 (f s).2) :
    CallTriple attentive t A (sql t l f) (Post B F) := by
  refine act_triple hA (stable_post hB hF) fun s r s' hs hrun ho hinv hf => ?_
  split at hf
  · have hfs : f s = (r, s') := Option.some.inj hf
    have hmove := h s hs hrun hinv
    rwa [hfs] at hmove
  · rename_i hup
    cases hf
    exact ⟨.refl hinv, hdown s _ hs hrun ho (by simpa using hup)⟩

/-- A statement that the invariant does not speak of, which may read. -/
lemma same_triple {f : Server H → Except String α × Server H} {A : Server H → Prop}
    {B : α → Server H → Prop} (hA : Stable (Rely t) A) (hB : ∀ a, Stable (Rely t) (B a))
    (h : ∀ s, A s → s.stopped t = false → Inv attentive s → Same s (f s).2 ∧
      ∀ a, (f s).1 = .ok a → B a (f s).2) :
    CallTriple attentive t A (sql t .step f) (Post B fun _ => A) := by
  refine sql_triple hA hB (fun _ => hA) (fun s e hs _ _ _ => hs) fun s hs hrun hinv => ?_
  obtain ⟨hsame, hread⟩ := h s hs hrun hinv
  refine ⟨hsame.moves hinv, ?_⟩
  cases hr : (f s).1 with
  | ok a => exact hread a hr
  | error e => exact hA s _ hs hsame.rely

end Rules

/-! ## The statements -/

section Statements

variable {H : Type} {attentive : Bool} {t : Tid}

/-- Nothing more is known. -/
abbrev Idle : Server H → Prop := fun _ => True

lemma settled_of_free {s : Server H} (h : Inv attentive s) (hfree : s.lock = none)
    (ha : attentive = true) (u : Tid) : Settled u s.log := by
  rw [← not_not (a := Settled u s.log)]
  intro hu
  have hlock := h.held ha u hu
  rw [hfree] at hlock
  cases hlock

/-- Taking the free lock. -/
lemma Moves.lock {s : Server H} (h : Inv attentive s) (hfree : s.lock = none) :
    Moves attentive t s { s with lock := some t } ∧
      Under attentive t [] Idle { s with lock := some t } := by
  have hinv : Inv attentive { s with lock := some t } :=
    { h with held := fun ha u hu => absurd (settled_of_free h hfree ha u) hu }
  refine ⟨⟨fun u hu => ?_, hinv⟩, fun _ => ⟨rfl, fun ha => ?_, trivial⟩⟩
  · refine ⟨id, fun _ hl => ?_, fun _ hl => hu (Option.some.inj hl).symm, ⟨[], by simp, by simp⟩,
      List.prefix_rfl, rfl, rfl, fun _ => id, rfl⟩
    rw [hfree] at hl
    cases hl
  · rw [List.append_nil]
    exact settled_of_free h hfree ha t

/-- Giving back the lock. -/
lemma Moves.unlock {s : Server H} (h : Inv attentive s)
    (hs : s.lock = some t → attentive = true → Settled t s.log) :
    Moves attentive t s { s with lock := if s.lock = some t then none else s.lock } := by
  refine ⟨fun u hu => ?_, { h with held := fun ha u hu => ?_ }⟩
  · refine ⟨id, fun _ hl => ?_, fun hl => ?_, ⟨[], by simp, by simp⟩, List.prefix_rfl, rfl, rfl,
      fun _ => id, rfl⟩
    · have hne : s.lock ≠ some t := by
        rw [hl]
        exact fun heq => hu (Option.some.inj heq)
      simp only [if_neg hne]
      exact hl
    · split
      · exact nofun
      · exact hl
  · have hl := h.held ha u hu
    have hne : s.lock ≠ some t := by
      intro ht
      have hut : u = t := Option.some.inj (hl.symm.trans ht)
      exact hu (hut ▸ hs ht ha)
    simp only [if_neg hne]
    exact hl

/-- Thread `t` does not hold the lock. -/
def Outside (t : Tid) (s : Server H) : Prop := s.lock ≠ some t

lemma stable_outside : Stable (Rely t) (Outside (H := H) t) := fun _ _ h hr => hr.free h

/-- What a try for the lock has led to. -/
def Tried (attentive : Bool) (t : Tid) : Bool → Server H → Prop
  | true => Under attentive t [] Idle
  | false => Outside t

lemma stable_tried (locked : Bool) : Stable (Rely t) (Tried (H := H) attentive t locked) := by
  cases locked with
  | true => exact stable_under (Stable.const True)
  | false => exact stable_outside

lemma tryAcquireProcessLock_triple : CallTriple (H := H) attentive t (Outside t)
    (tryAcquireProcessLock t) (Post (Tried attentive t) fun _ => Idle) := by
  refine sql_triple stable_outside stable_tried (fun _ => Stable.const True)
    (fun _ _ _ _ _ _ => trivial) fun s hs _ hinv => ?_
  split
  · rename_i hfree
    exact Moves.lock hinv hfree
  · exact ⟨.refl hinv, hs⟩

lemma acquireLock_triple : CallTriple (H := H) attentive t (Outside t) (acquireLock t)
    (Post (Tried attentive t) fun _ => Idle) := by
  refine act_triple stable_outside (stable_post stable_tried fun _ => Stable.const True)
    fun s r s' _ _ _ hinv hf => ?_
  split at hf
  · split at hf
    · rename_i hfree
      cases hf
      exact Moves.lock hinv hfree
    · cases hf
  · cases hf
    exact ⟨.refl hinv, trivial⟩

lemma rollbackLock_triple {A : Server H → Prop} (hA : Stable (Rely t) A)
    (hs : ∀ s, A s → s.stopped t = false → s.lock = some t → attentive = true →
      Settled t s.log) :
    CallTriple attentive t A (rollbackLock t) fun _ => Idle := by
  refine act_triple hA (fun _ => Stable.const True) fun s r s' h hrun _ hinv hf => ?_
  cases hf
  exact ⟨.unlock hinv (hs s h hrun), trivial⟩

/-- The rows that a phase's insertion adds. -/
lemma insertPhaseEvent_foldl (phases : List ReleasePhase) {tables : Tables}
    (hnodup : (tables.events.map (·.id)).Nodup)
    (hids : ∀ e ∈ tables.events, e.id < tables.nextEvent) :
    let tables' := phases.foldl insertPhaseEvent tables
    tables'.phases = tables.phases ∧ (tables'.events.map (·.id)).Nodup ∧
      (∀ e ∈ tables'.events, e.id < tables'.nextEvent) ∧
      ∃ new, tables'.events = tables.events ++ new ∧ ∀ e ∈ new, e.notifiedAt = none ∧
        ∃ rp ∈ phases, e.phaseId = some rp.id ∧ e.gameId = rp.gameId := by
  induction phases generalizing tables with
  | nil => exact ⟨rfl, hnodup, hids, [], by simp, by simp⟩
  | cons rp phases ih =>
    have hone : ∃ new, (insertPhaseEvent tables rp).events = tables.events ++ new ∧
        ((insertPhaseEvent tables rp).events.map (·.id)).Nodup ∧
        (∀ e ∈ (insertPhaseEvent tables rp).events,
          e.id < (insertPhaseEvent tables rp).nextEvent) ∧
        ∀ e ∈ new, e.notifiedAt = none ∧ e.phaseId = some rp.id ∧ e.gameId = rp.gameId := by
      unfold insertPhaseEvent
      split
      · refine ⟨[], rfl, by simpa using hnodup, fun e he => ?_, by simp⟩
        exact Nat.lt_succ_of_lt (hids e (by simpa using he))
      · refine ⟨_, rfl, ?_, fun e he => ?_, by simp⟩
        · rw [List.map_append, List.nodup_append]
          refine ⟨hnodup, List.nodup_singleton _, ?_⟩
          intro a ha b hb
          obtain ⟨e, he, rfl⟩ := List.mem_map.1 ha
          simp only [List.map_cons, List.map_nil, List.mem_singleton] at hb
          rw [hb]
          exact (hids e he).ne
        · rcases List.mem_append.1 he with he | he
          · exact Nat.lt_succ_of_lt (hids e he)
          · rw [List.mem_singleton.1 he]
            exact Nat.lt_succ_self _
    obtain ⟨new, hnew, hnodup', hids', hof⟩ := hone
    obtain ⟨hphases, hnodup'', hids'', more, hmore, hof'⟩ := ih hnodup' hids'
    refine ⟨hphases, hnodup'', hids'', new ++ more, ?_, fun e he => ?_⟩
    · rw [List.foldl_cons, hmore, hnew, List.append_assoc]
    · rcases List.mem_append.1 he with he | he
      · obtain ⟨hn, hp, hg⟩ := hof e he
        exact ⟨hn, rp, List.mem_cons_self, hp, hg⟩
      · obtain ⟨hn, rp', hrp', hsame⟩ := hof' e he
        exact ⟨hn, rp', List.mem_cons_of_mem _ hrp', hsame⟩

lemma materializeDue_triple : CallTriple (H := H) attentive t (Under attentive t [] Idle)
    (materializeDue t)
    (Post (fun _ => Under attentive t [] Idle) fun _ => Under attentive t [] Idle) := by
  have hunder : Stable (Rely t) (Under (H := H) attentive t [] Idle) :=
    stable_under (Stable.const True)
  refine sql_triple hunder (fun _ => hunder) (fun _ => hunder) (fun _ _ h _ _ _ => h)
    fun s hs _ hinv => ?_
  obtain ⟨hphases, hnodup, hids, new, hnew, hof⟩ :=
    insertPhaseEvent_foldl (duePhases s.now s.tables) hinv.nodup hinv.ids
  have hdue : ∀ rp ∈ duePhases s.now s.tables, rp ∈ s.tables.phases := by
    intro rp hrp
    simp only [duePhases, List.mem_insertionSort, List.mem_filter] at hrp
    exact hrp.1
  have hrely : ∀ u, Rely u s
      { s with tables := (duePhases s.now s.tables).foldl insertPhaseEvent s.tables } := by
    intro u
    refine ⟨id, fun _ => id, id, ⟨[], by simp, by simp⟩, List.prefix_rfl, rfl, hphases, ?_, rfl⟩
    rintro e ⟨e', hmem, hsame⟩
    refine ⟨e', ?_, hsame⟩
    simp only [hnew]
    exact List.mem_append_left _ hmem
  refine ⟨⟨fun u _ => hrely u, ?_⟩, hunder s _ hs (hrely t)⟩
  refine { hinv with nodup := hnodup, ids := hids, ready := ?_, games := ?_, unique := ?_,
                     ofGame := ?_, logged := ?_ }
  · intro e he hn
    simp only [hnew] at he
    rcases List.mem_append.1 he with he | he
    · exact (hinv.ready e he hn).mono rfl List.prefix_rfl (List.Sublist.refl _)
    · exact absurd (hof e he).1 hn
  · simp only [hphases]
    exact hinv.games
  · simp only [hphases]
    exact hinv.unique
  · intro e he
    simp only [hnew] at he
    unfold OfGame
    simp only [hphases]
    rcases List.mem_append.1 he with he | he
    · exact hinv.ofGame e he
    · obtain ⟨-, rp, hrp, hp, hg⟩ := hof e he
      intro phase hphase
      rw [hp] at hphase
      cases hphase
      exact ⟨hg ▸ hinv.games rp (hdue rp hrp), rp, hdue rp hrp, rfl, hg.symm⟩
  · simp only [hphases]
    exact hinv.logged

/-- A log entry of another thread's history rows. -/
lemma boardOf_applied_of_ne {u : Tid} (hu : u ≠ t) (rows : List FeatureHistoryRow) :
    ∀ e ∈ rows.map (Event.applied t), e.boardOf u = none := by
  intro e he
  obtain ⟨row, -, rfl⟩ := List.mem_map.1 he
  simp [Event.boardOf, Ne.symm hu]

/-- A transaction of the features: history rows of a phase come only under the lock. -/
lemma Moves.commit {s : Server H} {db : FeatureDb} {rows : List FeatureHistoryRow}
    (h : Inv attentive s) (hrec : Recorded db) (hgames : db.games = s.db.games)
    (hrows : db.history = s.db.history ++ rows)
    (hphase : ∀ row ∈ rows, ∀ phase, row.phaseId = some phase → s.lock = some t ∧
      ∃ rp ∈ s.tables.phases, rp.id = phase ∧ rp.gameId = row.gameId) :
    Moves attentive t s { s with
      db := db
      log := s.log ++ (db.history.drop s.db.history.length).map (.applied t) } := by
  have hdrop : db.history.drop s.db.history.length = rows := by rw [hrows, List.drop_left]
  rw [hdrop]
  have hhist : s.db.history <+: db.history := by
    rw [hrows]
    exact List.prefix_append _ _
  refine ⟨fun u hu => ⟨id, fun _ => id, id, ⟨_, rfl, boardOf_applied_of_ne hu rows⟩, hhist, hgames,
    rfl, fun _ => id, rfl⟩, ?_⟩
  refine { h with recorded := hrec, ready := ?_, games := ?_, ofGame := ?_, logged := ?_,
                  held := ?_ }
  · intro e he hn
    refine (h.ready e he hn).mono rfl hhist ?_
    exact (List.sublist_append_left _ _).append (List.Sublist.refl _)
  · simp only [hgames]
    exact h.games
  · intro e he
    unfold OfGame
    simp only [hgames]
    exact h.ofGame e he
  · intro row hrow phase hp
    simp only [hrows] at hrow
    rcases List.mem_append.1 hrow with hrow | hrow
    · obtain ⟨⟨u, hu⟩, hrp⟩ := h.logged row hrow phase hp
      exact ⟨⟨u, List.mem_append_left _ hu⟩, hrp⟩
    · exact ⟨⟨t, List.mem_append_right _ (List.mem_map_of_mem hrow)⟩, (hphase row hrow phase hp).2⟩
  · intro ha u hu
    by_cases hut : u = t
    · subst hut
      -- some row is of a phase, or the log was settled before
      by_cases hany : ∃ row ∈ rows, row.phaseId ≠ none
      · obtain ⟨row, hrow, hne⟩ := hany
        obtain ⟨phase, hp⟩ := Option.ne_none_iff_exists'.1 hne
        exact (hphase row hrow phase hp).1
      · refine h.held ha u fun hsettled => hu (hsettled.append ?_)
        intro e he
        obtain ⟨row, hrow, rfl⟩ := List.mem_map.1 he
        have hnone : row.phaseId = none := not_not.1 fun hne => hany ⟨row, hrow, hne⟩
        simp [Event.boardOf, hnone]
    · exact h.held ha u fun hsettled => hu (hsettled.append (boardOf_applied_of_ne hut rows))

/-- The invalidation that a change of the board asks for. -/
def Announced (changed : Bool) (game : Id) : List Event :=
  if changed then [.invalidated game] else []

/-- **The transaction of a phase's changes** makes each of them once; a board it changes waits for
its invalidation. -/
lemma applyPhaseChanges_triple {e : ReleaseEvent} {phase : Id} (hphase : e.phaseId = some phase) :
    CallTriple (H := H) attentive t (Under attentive t [] (Listed e))
      (applyPhaseChanges t e.gameId phase e.occurredAt)
      (Post (fun changed => Under attentive t (Announced changed e.gameId) fun s =>
          Listed e s ∧ Ready attentive (Announced changed e.gameId) e s)
        fun _ => Under attentive t [] Idle) := by
  have hidle : ∀ _ : String, Stable (Rely t) (Under (H := H) attentive t [] Idle) :=
    fun _ => stable_under (Stable.const True)
  have hrows : ∀ rows : List FeatureChangeRow, Stable (Rely (H := H) t) fun s => Listed e s ∧
      ∀ c ∈ s.featureChanges, c.phaseId = phase → c ∈ rows := by
    refine fun rows => stable_listed.and fun s s' h hr => ?_
    rw [hr.featureChanges]
    exact h
  refine bind_triple (B := fun rows => Under attentive t [] fun s => Listed e s ∧
      ∀ c ∈ s.featureChanges, c.phaseId = phase → c ∈ rows)
    (F := fun _ => Under attentive t [] (Listed e)) ?_ (fun _ => stable_under stable_listed)
    (fun _ _ h hs => ⟨(h hs).1, (h hs).2.1, trivial⟩) fun rows => ?_
  · refine same_triple (stable_under stable_listed) (fun rows => stable_under (hrows rows))
      fun s hs hrun _ => ⟨⟨rfl, rfl, rfl, rfl, rfl, rfl, rfl, rfl⟩, ?_⟩
    intro rows hread hs'
    cases hread
    obtain ⟨hlock, hsettled, hlisted⟩ := hs hs'
    refine ⟨hlock, hsettled, hlisted, fun c hc hcp => ?_⟩
    simpa [List.mem_insertionSort, hcp] using hc
  · refine sql_triple (stable_under (hrows rows))
      (fun changed => stable_under (stable_listed.and stable_ready)) hidle
      (fun s _ hs hrun _ _ _ => ⟨(hs hrun).1, (hs hrun).2.1, trivial⟩) fun s hs hrun hinv => ?_
    obtain ⟨hlock, hsettled, hlisted, hall⟩ := hs hrun
    cases happly : applyRows e.gameId phase e.occurredAt rows s.db with
    | error err => exact ⟨.refl hinv, fun _ => ⟨hlock, hsettled, trivial⟩⟩
    | ok r =>
      obtain ⟨changed, db⟩ := r
      obtain ⟨hrec, hgames, hin, new, hnew, hof, hboard⟩ := applyRows_spec hinv.recorded happly
      obtain ⟨hgame, rp, hrp, hid, hrpgame⟩ := hinv.ofGame_of_listed hlisted phase hphase
      have hmoves := Moves.commit (t := t) hinv hrec hgames hnew fun row hrow q hq => by
        rw [(hof row hrow).2] at hq
        cases hq
        exact ⟨hlock, rp, hrp, hid, hrpgame.trans (hof row hrow).1.symm⟩
      refine ⟨hmoves, fun _ => ⟨hlock, fun ha => ?_, ?_, ?_⟩⟩
      · -- a board change among the rows is of this game, and is reported
        have hsettled' : Settled t s.log := by simpa using hsettled ha
        simp only [hnew, List.drop_left]
        rw [List.append_assoc]
        cases changed with
        | true =>
          refine hsettled'.invalidate fun ev hev g hg => ?_
          obtain ⟨row, hrow, rfl⟩ := List.mem_map.1 hev
          simp only [Event.boardOf, Option.mem_def, Option.ite_none_right_eq_some,
            Option.some.injEq] at hg
          exact hg.2.symm.trans (hof row hrow).1
        | false =>
          refine hsettled'.append fun ev hev => ?_
          obtain ⟨row, hrow, rfl⟩ : ∃ row ∈ new, Event.applied t row = ev := by
            simpa [Announced] using hev
          have hnot : row.featureType ≠ GameFeature.leaderboard.value := fun hf =>
            absurd (hboard ⟨row, hrow, hf⟩) (by simp)
          simp [Event.boardOf, hnot]
      · exact hlisted
      · intro q hq c hc hcq
        rw [hphase] at hq
        cases hq
        have hcin := hin c (hall c hc hcq)
        refine ⟨hcin, fun ha hf => ?_⟩
        obtain ⟨row, hrow, hrowphase, hrowtype⟩ := inHistory_iff.1 hcin
        rw [hf] at hrowtype
        simp only [hnew, List.drop_left]
        rw [hnew] at hrow
        rcases List.mem_append.1 hrow with hrow | hrow
        · -- made by an earlier transaction: its thread is not cut off before the invalidation
          obtain ⟨⟨u, hu⟩, rp', hrp', hid', hgame'⟩ := hinv.logged row hrow phase hrowphase
          have hsame : row.gameId = e.gameId := by
            rw [← hgame', ← hrpgame]
            exact hinv.unique _ hrp' _ hrp (hid'.trans hid.symm)
          have hu' : Settled u s.log := by
            by_cases hut : u = t
            · subst hut
              simpa using hsettled ha
            · rw [← not_not (a := Settled u s.log)]
              intro hne
              exact hut (Option.some.inj ((hinv.held ha u hne).symm.trans hlock))
          obtain ⟨l₁, l₂, hl⟩ := List.append_of_mem hu
          rw [hl] at hu'
          have hmem : .invalidated e.gameId ∈ l₂ := hu'.mem (by
            simp [Event.boardOf, hrowphase, hrowtype, hsame])
          refine ⟨u, row, hrowphase, hrowtype, ?_⟩
          rw [hl]
          have hsub : [Event.applied u row, .invalidated e.gameId].Sublist
              (.applied u row :: l₂) := (List.singleton_sublist.2 hmem).cons_cons _
          exact ((hsub.trans (List.sublist_append_right l₁ _)).trans
            (List.sublist_append_left _ _)).trans (List.sublist_append_left _ _)
        · have hch : changed = true := hboard ⟨row, hrow, hrowtype⟩
          subst hch
          refine ⟨t, row, hrowphase, hrowtype, ?_⟩
          have hfirst : [Event.applied t row].Sublist (s.log ++ new.map (.applied t)) :=
            List.singleton_sublist.2 (List.mem_append_right _ (List.mem_map_of_mem hrow))
          exact hfirst.append (List.Sublist.refl [Event.invalidated e.gameId])

/-- An event that is no board change. -/
lemma Moves.log {s : Server H} (h : Inv attentive s) {e : Event} (he : ∀ u, e.boardOf u = none)
    (refreshState : Id → Option Leaderboard.RefreshState) :
    Moves attentive t s { s with refreshState := refreshState, log := s.log ++ [e] } := by
  have hof : ∀ u, ∀ e' ∈ [e], e'.boardOf u = none := by
    intro u e' he'
    rw [List.mem_singleton.1 he']
    exact he u
  refine ⟨fun u _ => ⟨id, fun _ => id, id, ⟨[e], rfl, hof u⟩, List.prefix_rfl, rfl, rfl, fun _ => id,
    rfl⟩, ?_⟩
  refine { h with ready := ?_, logged := ?_, held := ?_ }
  · intro e' he' hn
    exact (h.ready e' he' hn).mono rfl List.prefix_rfl
      ((List.sublist_append_left _ _).append (List.Sublist.refl _))
  · intro row hrow phase hp
    obtain ⟨⟨u, hu⟩, hrp⟩ := h.logged row hrow phase hp
    exact ⟨⟨u, List.mem_append_left _ hu⟩, hrp⟩
  · exact fun ha u hu => h.held ha u fun hsettled => hu (hsettled.append (hof u))

/-- **The invalidation** settles the board changes of the phase. -/
lemma invalidateGame_triple {server : ℕ} {e : ReleaseEvent} {phase : Id}
    (hphase : e.phaseId = some phase) :
    CallTriple (H := H) attentive t
      (Under attentive t [.invalidated e.gameId] fun s =>
        Listed e s ∧ Ready attentive [.invalidated e.gameId] e s)
      (invalidateGame server t .invalidate e.gameId)
      (Post (fun _ => Under attentive t [] fun s => Listed e s ∧ Ready attentive [] e s)
        fun _ => Under attentive t [] Idle) := by
  have hready : ∀ l : List Event, Stable (Rely (H := H) t)
      (Under attentive t l fun s => Listed e s ∧ Ready attentive l e s) :=
    fun l => stable_under (stable_listed.and stable_ready)
  have hidle : ∀ _ : String, Stable (Rely t) (Under (H := H) attentive t [] Idle) :=
    fun _ => stable_under (Stable.const True)
  refine bind_triple (B := fun _ => Under attentive t [] fun s =>
    Listed e s ∧ Ready attentive [] e s) (F := fun _ => Under attentive t [] Idle) ?_ hidle
    (fun _ _ h => h) fun _ => ?_
  · refine sql_triple (hready _) (fun _ => hready _) hidle (fun s _ hs hrun ho hdown => ?_)
      fun s hs hrun hinv => ?_
    · -- in an attentive run the database is up
      refine fun _ => ⟨(hs hrun).1, fun ha => ?_, trivial⟩
      have hup : s.dbUp = true := ho ha
      rw [hdown] at hup
      cases hup
    · obtain ⟨hlock, hsettled, hlisted, hrd⟩ := hs hrun
      rw [if_pos (hinv.ofGame_of_listed hlisted phase hphase).1]
      refine ⟨.log hinv (fun _ => rfl) _, fun _ => ⟨hlock, fun ha => ?_, hlisted, ?_⟩⟩
      · rw [List.append_nil]
        exact hsettled ha
      · intro q hq c hc hcq
        obtain ⟨hin, hboard⟩ := hrd q hq c hc hcq
        refine ⟨hin, fun ha hf => ?_⟩
        rw [List.append_nil]
        exact hboard ha hf
  · refine act_triple (hready _) (stable_post (fun _ => hready _) hidle)
      fun s r s' hs hrun _ hinv hf => ?_
    cases hf
    exact ⟨Same.moves ⟨rfl, rfl, rfl, rfl, rfl, rfl, rfl, rfl⟩ hinv, hs⟩

/-- The changes of an event's phase, if it is of one. -/
lemma applyEvent_triple {server : ℕ} {e : ReleaseEvent} :
    CallTriple (H := H) attentive t (Under attentive t [] (Listed e)) (applyEvent server t e)
      (Post (fun _ => Under attentive t [] fun s => Listed e s ∧ Ready attentive [] e s)
        fun _ => Under attentive t [] Idle) := by
  have hready : Stable (Rely (H := H) t)
      (Under attentive t [] fun s => Listed e s ∧ Ready attentive [] e s) :=
    stable_under (stable_listed.and stable_ready)
  unfold applyEvent
  cases hphase : e.phaseId with
  | none =>
    refine Fallible.pure_triple (stable_under stable_listed) fun s hs hrun => ?_
    obtain ⟨hlock, hsettled, hlisted⟩ := hs hrun
    refine ⟨hlock, hsettled, hlisted, fun q hq => ?_⟩
    rw [hphase] at hq
    cases hq
  | some phase =>
    refine bind_triple (applyPhaseChanges_triple hphase)
      (fun _ => stable_under (Stable.const True)) (fun _ _ h => h) fun changed => ?_
    cases changed with
    | true => exact invalidateGame_triple hphase
    | false => exact Fallible.pure_triple hready fun _ h => h

/-- **An event is marked notified** where its phase's changes have been made and its board has been
invalidated. -/
lemma markNotified_triple {e : ReleaseEvent} :
    CallTriple (H := H) attentive t
      (Under attentive t [] fun s => Listed e s ∧ Ready attentive [] e s) (markNotified t e.id)
      (Post (fun _ => Under attentive t [] Idle) fun _ => Under attentive t [] Idle) := by
  have hidle : Stable (Rely t) (Under (H := H) attentive t [] Idle) :=
    stable_under (Stable.const True)
  refine sql_triple (stable_under (stable_listed.and stable_ready)) (fun _ => hidle)
    (fun _ => hidle) (fun s _ hs hrun _ _ _ => ⟨(hs hrun).1, (hs hrun).2.1, trivial⟩)
    fun s hs hrun hinv => ?_
  obtain ⟨hlock, hsettled, ⟨e', hmem, hid, hphase, hgame⟩, hrd⟩ := hs hrun
  -- only the time of the notification changes
  have hmark : ∀ a ∈ (s.tables.events.map fun re =>
      if re.id = e.id ∧ re.notifiedAt = none then { re with notifiedAt := some s.now } else re),
      ∃ b ∈ s.tables.events, b.id = a.id ∧ b.phaseId = a.phaseId ∧ b.gameId = a.gameId ∧
        (a = b ∨ b.id = e.id) := by
    intro a ha
    obtain ⟨b, hb, rfl⟩ := List.mem_map.1 ha
    refine ⟨b, hb, ?_⟩
    split
    · rename_i hsame
      exact ⟨rfl, rfl, rfl, Or.inr hsame.1⟩
    · exact ⟨rfl, rfl, rfl, Or.inl rfl⟩
  have hids : (s.tables.events.map fun re =>
      if re.id = e.id ∧ re.notifiedAt = none then { re with notifiedAt := some s.now }
      else re).map (·.id) = s.tables.events.map (·.id) := by
    rw [List.map_map]
    apply List.map_congr_left
    intro a _
    simp only [Function.comp_apply]
    split <;> rfl
  refine ⟨⟨fun u _ => ?_, ?_⟩, fun _ => ⟨hlock, hsettled, trivial⟩⟩
  · refine ⟨id, fun _ => id, id, ⟨[], by simp, by simp⟩, List.prefix_rfl, rfl, rfl, ?_, rfl⟩
    rintro a ⟨b, hb, hbid, hbphase, hbgame⟩
    refine ⟨_, List.mem_map_of_mem hb, ?_⟩
    split
    · exact ⟨hbid, hbphase, hbgame⟩
    · exact ⟨hbid, hbphase, hbgame⟩
  · refine { hinv with ready := ?_, nodup := ?_, ids := ?_, ofGame := ?_ }
    · intro a ha hn
      obtain ⟨b, hb, hbid, hbphase, hbgame, rfl | hbe⟩ := hmark a ha
      · exact hinv.ready a hb hn
      · have hsame : b = e' := List.inj_on_of_nodup_map hinv.nodup hb hmem (hbe.trans hid.symm)
        subst hsame
        intro q hq c hc hcq
        rw [← hbphase, hphase] at hq
        rw [← hbgame, hgame]
        exact hrd q hq c hc hcq
    · simp only [hids]
      exact hinv.nodup
    · intro a ha
      obtain ⟨b, hb, hbid, -⟩ := hmark a ha
      have hlt := hinv.ids b hb
      rwa [hbid] at hlt
    · intro a ha
      obtain ⟨b, hb, -, hbphase, hbgame, -⟩ := hmark a ha
      have hof := hinv.ofGame b hb
      unfold OfGame at hof ⊢
      rwa [hbphase, hbgame] at hof

/-- A statement between the changes of an event and its mark. -/
lemma between_triple {α : Type} {f : Server H → Except String α × Server H}
    {P : Server H → Prop} (hP : Stable (Rely t) P) (hf : ∀ s, Same s (f s).2) :
    CallTriple attentive t (Under attentive t [] P) (sql t .step f)
      (Post (fun _ => Under attentive t [] P) fun _ => Under attentive t [] P) :=
  same_triple (stable_under hP) (fun _ => stable_under hP) fun s hs _ _ =>
    ⟨hf s, fun _ _ => stable_under hP s _ hs (hf s).rely⟩

variable {refreshTeamHintEnablements : Id → H → Except String H} {server : ℕ}

lemma refreshHints_same (team : Id) (s : Server H) :
    Same s (match refreshTeamHintEnablements team s.hints with
      | .error e => ((.error e, s) : Except String Unit × Server H)
      | .ok hints => (.ok (), { s with hints := hints })).2 := by
  cases refreshTeamHintEnablements team s.hints with
  | error e => exact ⟨rfl, rfl, rfl, rfl, rfl, rfl, rfl, rfl⟩
  | ok hints => exact ⟨rfl, rfl, rfl, rfl, rfl, rfl, rfl, rfl⟩

lemma refreshAllHints_triple {P : Server H → Prop} (hP : Stable (Rely t) P) (teams : List Id) :
    CallTriple attentive t (Under attentive t [] P)
      (refreshAllHints refreshTeamHintEnablements t teams)
      (Post (fun _ => Under attentive t [] P) fun _ => Under attentive t [] P) := by
  induction teams with
  | nil => exact Fallible.pure_triple (stable_under hP) fun _ h => h
  | cons team teams ih =>
    exact bind_triple (between_triple hP (refreshHints_same team)) (fun _ => stable_under hP)
      (fun _ _ h => h) fun _ => ih

/-- One round of the processor's loop. -/
lemma processEvent_triple {e : ReleaseEvent} :
    CallTriple (H := H) attentive t (Under attentive t [] (Listed e))
      (processEvent refreshTeamHintEnablements server t e)
      (Post (fun _ => Under attentive t [] Idle) fun _ => Under attentive t [] Idle) := by
  have hready : Stable (Rely (H := H) t) fun s => Listed e s ∧ Ready attentive [] e s :=
    stable_listed.and stable_ready
  have hidle : ∀ _ : String, Stable (Rely t) (Under (H := H) attentive t [] Idle) :=
    fun _ => stable_under (Stable.const True)
  have hweak : ∀ (err : String) (s : Server H),
      Under attentive t [] (fun s => Listed e s ∧ Ready attentive [] e s) s →
        Under attentive t [] Idle s :=
    fun _ s hs hrun => ⟨(hs hrun).1, (hs hrun).2.1, trivial⟩
  refine bind_triple applyEvent_triple hidle (fun _ _ h => h) fun _ => ?_
  refine bind_triple (between_triple hready fun s => ⟨rfl, rfl, rfl, rfl, rfl, rfl, rfl, rfl⟩)
    (fun _ => stable_under hready) hweak fun _ => ?_
  refine bind_triple (between_triple hready fun s => ⟨rfl, rfl, rfl, rfl, rfl, rfl, rfl, rfl⟩)
    (fun _ => stable_under hready) hweak fun teams => ?_
  refine bind_triple (refreshAllHints_triple hready teams) (fun _ => stable_under hready) hweak
    fun _ => ?_
  refine bind_triple (B := fun _ => Under attentive t [] fun s =>
      Listed e s ∧ Ready attentive [] e s) (F := fun _ => Under attentive t [] Idle) ?_ hidle
    (fun _ _ h => h) fun _ => markNotified_triple
  refine act_triple (stable_under hready) (stable_post (fun _ => stable_under hready) hidle)
    fun s r s' hs hrun _ hinv hf => ?_
  cases hf
  have hmoves : Moves attentive t s { s with log := s.log ++ [.told e.gameId e.id] } :=
    .log hinv (fun _ => rfl) s.refreshState
  refine ⟨hmoves, fun _ => ?_⟩
  obtain ⟨hlock, hsettled, hlisted, hrd⟩ := hs hrun
  refine ⟨hlock, fun ha => ?_, hlisted, hrd.mono rfl List.prefix_rfl ?_⟩
  · have hsettled' : Settled t s.log := by simpa using hsettled ha
    rw [List.append_nil]
    exact hsettled'.append (by simp [Event.boardOf])
  · exact (List.sublist_append_left _ _).append (List.Sublist.refl _)

/-- The events still to be processed stay listed. -/
lemma processEvents_triple (events : List ReleaseEvent) :
    CallTriple (H := H) attentive t
      (fun s => Under attentive t [] Idle s ∧ ∀ e ∈ events, Listed e s)
      (processEvents refreshTeamHintEnablements server t events)
      (Post (fun _ => Under attentive t [] Idle) fun _ => Under attentive t [] Idle) := by
  have hidle : Stable (Rely t) (Under (H := H) attentive t [] Idle) :=
    stable_under (Stable.const True)
  induction events with
  | nil =>
    refine Fallible.pure_triple (hidle.and fun s s' h hr e he => ?_) fun s hs => hs.1
    cases he
  | cons e events ih =>
    have hrest : ∀ u, Stable (Rely (H := H) u) fun s => ∀ e ∈ events, Listed e s :=
      fun u s s' h hr e he => hr.events e (h e he)
    have htriple : CallTriple (H := H) attentive t (Under attentive t [] (Listed e))
        (processEvent refreshTeamHintEnablements server t e)
        (Post (fun _ => Under attentive t [] Idle) fun _ => Under attentive t [] Idle) :=
      processEvent_triple
    have hone := htriple.frame (hrest t) fun _ s s' _ hmove h =>
      hrest (t + 1) s s' h (hmove.others (t + 1) (Nat.succ_ne_self t))
    refine bind_triple (B := fun _ s => Under attentive t [] Idle s ∧ ∀ e ∈ events, Listed e s)
      (F := fun _ => Under attentive t [] Idle) ?_ (fun _ => hidle) (fun _ _ h => h) fun _ => ih
    refine hone.conseq (fun s hs => ⟨fun hrun => ?_, fun e' he' => ?_⟩) fun r s hs => ?_
    · exact ⟨(hs.1 hrun).1, (hs.1 hrun).2.1, hs.2 e List.mem_cons_self⟩
    · exact hs.2 e' (List.mem_cons_of_mem _ he')
    · cases r with
      | ok a => exact hs
      | error err => exact hs.1

lemma processDueReleasesLocked_triple :
    CallTriple (H := H) attentive t (Under attentive t [] Idle)
      (processDueReleasesLocked refreshTeamHintEnablements server t)
      (Post (fun _ => Under attentive t [] Idle) fun _ => Under attentive t [] Idle) := by
  have hidle : Stable (Rely t) (Under (H := H) attentive t [] Idle) :=
    stable_under (Stable.const True)
  refine bind_triple materializeDue_triple (fun _ => hidle) (fun _ _ h => h) fun _ => ?_
  refine bind_triple (B := fun events s => Under attentive t [] Idle s ∧ ∀ e ∈ events, Listed e s)
    ?_ (fun _ => hidle) (fun _ _ h => h) fun events => processEvents_triple events
  refine same_triple hidle (fun events => hidle.and fun s s' h hr e he => hr.events e (h e he))
    fun s hs _ _ => ⟨⟨rfl, rfl, rfl, rfl, rfl, rfl, rfl, rfl⟩, ?_⟩
  intro events hread
  cases hread
  refine ⟨hs, fun e he => .of_mem ?_⟩
  simp only [List.mem_insertionSort, List.mem_filter] at he
  exact he.1

lemma underLock_triple {body : ReleaseCall H Unit}
    (hbody : CallTriple attentive t (Under attentive t [] Idle) body
      (Post (fun _ => Under attentive t [] Idle) fun _ => Under attentive t [] Idle)) :
    CallTriple attentive t (Under attentive t [] Idle) (underLock t body) fun _ => Idle := by
  refine Prog.Triple.bind hbody (fun _ _ _ _ h => h) (Rely.refl t) fun result => ?_
  have hback : CallTriple (H := H) attentive t (Under attentive t [] Idle) (rollbackLock t)
      fun _ => Idle := by
    refine rollbackLock_triple (stable_under (Stable.const True)) fun s hs hrun _ ha => ?_
    have hsettled := (hs hrun).2.1 ha
    rwa [List.append_nil] at hsettled
  refine Prog.Triple.bind (B := fun _ => Idle) ?_ (fun _ _ _ _ h => h) (Rely.refl t)
    fun released => Prog.Triple.ret (Stable.const True) fun _ _ => trivial
  cases result <;> exact hback

/-- `process_due_releases`. -/
lemma processDueReleases_triple {wait : Bool} :
    CallTriple (H := H) attentive t (Outside t)
      (processDueReleases refreshTeamHintEnablements server t wait) fun _ => Idle := by
  have hrest : ∀ locked : Bool, CallTriple (H := H) attentive t (Tried attentive t locked)
      (if locked then
        underLock t (processDueReleasesLocked refreshTeamHintEnablements server t)
      else rollbackLock t) fun _ => Idle := by
    intro locked
    cases locked with
    | true => exact underLock_triple processDueReleasesLocked_triple
    | false => exact rollbackLock_triple stable_outside fun s hs _ hlock => absurd hlock hs
  cases wait with
  | true =>
    exact bind_triple acquireLock_triple (fun _ => Stable.const True) (fun _ _ _ => trivial) hrest
  | false =>
    exact bind_triple tryAcquireProcessLock_triple (fun _ => Stable.const True)
      (fun _ _ _ => trivial) hrest

/-- An administrator's change of a feature. -/
lemma updateFeature_triple {game actor : Id} {change : FeatureChangeData} :
    CallTriple (H := H) attentive t (Outside t)
      (updateFeature refreshTeamHintEnablements server t game change actor) fun _ => Idle := by
  have hconst : ∀ _ : String, Stable (Rely (H := H) t) Idle := fun _ => Stable.const True
  refine bind_triple (B := fun _ => Idle) (F := fun _ => Idle)
    (processDueReleases_triple.conseq (fun _ h => h) fun r _ _ => by cases r <;> trivial) hconst
    (fun _ _ h => h) fun _ => ?_
  refine bind_triple (B := fun _ => Idle) (F := fun _ => Idle) ?_ hconst (fun _ _ h => h)
    fun changed => ?_
  · refine sql_triple (Stable.const True) (fun _ => Stable.const True) hconst
      (fun _ _ _ _ _ _ => trivial) fun s _ _ hinv => ?_
    cases hset : setManualState s.db game change actor s.now with
    | error e => exact ⟨.refl hinv, trivial⟩
    | ok r =>
      obtain ⟨changed, db⟩ := r
      obtain ⟨hrec, hgames, new, hnew, hnone⟩ := setManualState_spec hinv.recorded hset
      refine ⟨Moves.commit hinv hrec hgames hnew fun row hrow q hq => ?_, trivial⟩
      rw [hnone row hrow] at hq
      cases hq
  · split
    · refine bind_triple (B := fun _ => Idle) (F := fun _ => Idle) ?_ hconst (fun _ _ h => h)
        fun _ => ?_
      · refine sql_triple (Stable.const True) (fun _ => Stable.const True) hconst
          (fun _ _ _ _ _ _ => trivial) fun s _ _ hinv => ?_
        split
        · exact ⟨.log hinv (fun _ => rfl) _, trivial⟩
        · exact ⟨.refl hinv, trivial⟩
      · refine act_triple (Stable.const True) (fun _ => Stable.const True)
          fun s r s' _ _ _ hinv hf => ?_
        cases hf
        exact ⟨Same.moves ⟨rfl, rfl, rfl, rfl, rfl, rfl, rfl, rfl⟩ hinv, trivial⟩
    · exact Fallible.pure_triple (Stable.const True) fun _ _ => trivial

/-- **A stop** takes the lock away from its thread. -/
lemma stop_triple {target : Tid} :
    CallTriple (H := H) attentive t (Outside t) (stop target) fun _ => Idle := by
  refine Fallible.atomic_triple stable_outside (fun _ => Stable.const True)
    fun s r s' _ ho hf => ?_
  cases hf
  obtain ⟨hadmitted, hinv⟩ := ho
  have hunlock := Moves.unlock (t := target) hinv fun _ ha => hadmitted ha
  refine ⟨⟨fun u _ => ?_, { hunlock.inv with }⟩, trivial⟩
  by_cases hu : u = target
  · subst hu
    refine ⟨fun _ => by simp, fun hs => ?_, fun hl => ?_, ⟨[], by simp, by simp⟩, List.prefix_rfl,
      rfl, rfl, fun _ => id, rfl⟩
    · simp at hs
    · simp only
      split
      · exact nofun
      · exact hl
  · have hrely := hunlock.others u hu
    refine { hrely with stopped := ?_, lock := ?_ }
    · simp [Function.update_of_ne hu]
    · intro hs hl
      refine hrely.lock ?_ hl
      simpa [Function.update_of_ne hu] using hs

/-- Every call. -/
theorem request_triple (req : Request) :
    CallTriple (H := H) attentive t (Outside t) (req.run refreshTeamHintEnablements t)
      fun _ => Idle := by
  cases req with
  | processDueReleases server wait => exact processDueReleases_triple
  | updateFeature server game change actor => exact updateFeature_triple
  | stop target => exact stop_triple

end Statements

/-! ## Any number of calls -/

/-- No phase has released anything: the events, if any, are of puzzles released at once, and the
features have been changed by hand. -/
structure Initial {H : Type} (s : Server H) : Prop where
  recorded : Recorded s.db
  history : ∀ row ∈ s.db.history, row.phaseId = none
  events : ∀ e ∈ s.tables.events, e.phaseId = none
  nodup : (s.tables.events.map (·.id)).Nodup
  ids : ∀ e ∈ s.tables.events, e.id < s.tables.nextEvent
  games : ∀ rp ∈ s.tables.phases, rp.gameId ∈ s.db.games
  unique : ∀ a ∈ s.tables.phases, ∀ b ∈ s.tables.phases, a.id = b.id → a.gameId = b.gameId
  lock : s.lock = none
  log : s.log = []

section Run

variable {H : Type} {refreshTeamHintEnablements : Id → H → Except String H}
  {calls : Tid → Request} {c c' : Config Label (Server H) (Except String Unit)}

lemma Initial.inv {attentive : Bool} {s : Server H} (h : Initial s) : Inv attentive s where
  recorded := h.recorded
  ready e he _ phase hp := by
    rw [h.events e he] at hp
    cases hp
  games := h.games
  unique := h.unique
  nodup := h.nodup
  ids := h.ids
  ofGame e he phase hp := by
    rw [h.events e he] at hp
    cases hp
  logged row hrow phase hp := by
    rw [h.history row hrow] at hp
    cases hp
  held _ t hne := by
    rw [h.log] at hne
    exact absurd trivial hne

/-- A run whose steps the condition admits, if it is asked for. -/
lemma notified_of_admits (attentive : Bool) (hinit : Initial c.shared)
    (hcalls : ∀ t, c.threads t = ((calls t).run refreshTeamHintEnablements t).run)
    (hrun : Reaches Changes (Admits attentive) c c') : Notified attentive c'.shared := by
  have hgood : c.Good (Admits attentive) (Inv attentive) Rely
      (fun t => Plain fun _ => Moves attentive t) (fun _ _ _ => True) := by
    refine ⟨hinit.inv, fun t => ?_⟩
    rw [hcalls t]
    refine request_triple (calls t) _ ?_
    unfold Outside
    rw [hinit.lock]
    exact nofun
  exact ((relyGuarantee attentive).reaches hgood hrun).1.toNotified

/-- **Notified events in every run**: whoever stops and whenever, the changes of a phase are made
once and before its event is marked notified; and in a run where no processor is cut off between a
change of the board and its invalidation, the board has been invalidated after the change. -/
theorem notified_of_reaches (hinit : Initial c.shared)
    (hcalls : ∀ t, c.threads t = ((calls t).run refreshTeamHintEnablements t).run) :
    (∀ c', Reaches Changes Always c c' → Notified false c'.shared) ∧
      ∀ c', Reaches Changes Attentive c c' → Notified true c'.shared := by
  refine ⟨fun c' hrun => ?_, fun c' hrun => ?_⟩
  · exact notified_of_admits false hinit hcalls (hrun.mono fun _ _ _ _ h => by cases h)
  · exact notified_of_admits true hinit hcalls (hrun.mono fun _ _ _ h _ => h)

/-- A game whose leaderboard is live, and a phase that is due and locks it. -/
def duePhase : Server Unit where
  db := {
    games := [1]
    features := fun game featureType =>
      if game = 1 ∧ featureType = 3 then some ⟨0, none, 0⟩ else none
    history := []
    board := ⟨[], [], [], fun _ => none, [], [], fun _ => none⟩
    currencies := []
    teamCurrencies := [] }
  tables := ⟨[], [], [⟨1, 1, "Finale", "", 0, 5, 0⟩], [], [], [], [], 1⟩
  featureChanges := [⟨1, 1, 3, 1⟩]
  refreshState := fun _ => none
  boardCache := fun _ _ => none
  contentBlocksDirty := fun _ => false
  hints := ()
  now := 10
  dbUp := true
  lock := none
  stopped := fun _ => false
  log := []

lemma duePhase_initial : Initial duePhase := by
  constructor <;> simp [duePhase]
  constructor <;> simp

/-- Two runs of the processor, and a stop of the first. -/
def stoppedProcessor : Tid → Request
  | 1 => .stop 0
  | _ => .processDueReleases 0 true

/-- The pool of these calls. -/
def stoppedPool : Config Label (Server Unit) (Except String Unit) where
  shared := duePhase
  threads t := ((stoppedProcessor t).run (fun _ => .ok) t).run

/-- The event of the phase has been marked notified. -/
def phaseNotified (s : Server Unit) : Bool :=
  s.featureChanges = [⟨1, 1, 3, 1⟩] && s.tables.events.any fun e =>
    e.phaseId = some 1 && e.gameId = 1 && e.notifiedAt.isSome

/-- The first processor comes to its end. -/
theorem notified_of_reaches_whole : ∃ c', Reaches Changes Attentive stoppedPool c' ∧
    phaseNotified c'.shared = true ∧ Notified true c'.shared := by
  obtain ⟨c', hrun, hc'⟩ := exists_reaches_of_exec Changes Attentive (c := stoppedPool)
    (List.replicate 12 (.thread 0)) (p := fun c' => phaseNotified c'.shared) (by simp)
    (by decide +kernel)
  have hcalls : ∀ t, stoppedPool.threads t = ((stoppedProcessor t).run (fun _ => .ok) t).run :=
    fun _ => rfl
  exact ⟨c', hrun, hc', (notified_of_reaches duePhase_initial hcalls).2 c' hrun⟩

/-- **The board is not invalidated**: the first processor stops after it has committed the changes
of the phase; the second finds them made and marks the event. -/
theorem invalidation_lost : ∃ c', Reaches Changes Always stoppedPool c' ∧
    phaseNotified c'.shared = true ∧ ¬ Notified true c'.shared := by
  obtain ⟨c', hrun, hc'⟩ := exists_reaches_of_exec Changes Always (c := stoppedPool)
    (List.replicate 5 (.thread 0) ++ [.thread 1] ++ List.replicate 10 (.thread 2))
    (p := fun c' => phaseNotified c'.shared && !decide (.invalidated 1 ∈ c'.shared.log)) (by simp)
    (by decide +kernel)
  simp only [Bool.and_eq_true, Bool.not_eq_true', decide_eq_false_iff_not] at hc'
  obtain ⟨hmarked, hlost⟩ := hc'
  refine ⟨c', hrun, hmarked, fun hall => hlost ?_⟩
  simp only [phaseNotified, Bool.and_eq_true, List.any_eq_true, decide_eq_true_eq] at hmarked
  obtain ⟨hchanges, e, he, ⟨hphase, hgame⟩, hnotified⟩ := hmarked
  have hready := hall.ready e he (Option.isSome_iff_ne_none.1 hnotified) 1 hphase ⟨1, 1, 3, 1⟩
    (by simp [hchanges]) rfl
  obtain ⟨t, row, -, -, hsub⟩ := hready.2 rfl rfl
  rw [List.append_nil, hgame] at hsub
  exact hsub.subset (by simp)

end Run

end Release
