import RbphBackend.Concurrency.RowOrder
import RbphBackend.Play.Progress

set_option relaxedAutoImplicit false
set_option autoImplicit false

/-!
# The instants a cooldown counts from

A hint's cooldown counts from the instant the hint was enabled, from the one it or its title was
first displayed, or from the one the team got the puzzle. The rows that hold these instants are
written once: whatever a call writes, an instant that is recorded stays.

## Main definitions

* `Play.Stays` — an instant that is recorded stays.
* `Play.originOrder` — the preorder of rows in which the recorded instants stay.
* `Play.KeepsOrigins` — a statement leaves the recorded instants.
* `Play.IsQuiet` — a statement adds no deed, and it leaves the recorded instants.

## Main results

* `Play.keepsOrigins_insertHintEnables`, `Play.keepsOrigins_upsertHintVisibility` — the statements
  that record the instants.
* `Play.keepsOrigins_setSolved` and so on — the statements that add a deed.
-/

namespace Play

open Concurrency ReadCommitted Numeric Database Currency

/-! ## Instants -/

/-- What is there stays. -/
def Stays {α : Type} (x y : Option α) : Prop := ∀ a, x = some a → y = some a

namespace Stays

variable {α : Type} {x y z : Option α}

@[simp] lemma refl (x : Option α) : Stays x x := fun _ h => h

lemma trans (h : Stays x y) (h' : Stays y z) : Stays x z := fun a ha => h' a (h a ha)

@[simp] lemma none_left (y : Option α) : Stays none y := fun _ h => by cases h

@[simp] lemma or_left (x y : Option α) : Stays x (x.or y) := fun _ h => by rw [h, Option.some_or]

end Stays

/-- The instants of the row stay. -/
def OriginKept : (k : Key) → Val k → Val k → Prop
  | .hintEnable .., x, y => Stays x y
  | .hintVisibility .., x, y =>
    Stays (x.bind (·.displayedAt)) (y.bind (·.displayedAt)) ∧
      Stays (x.bind (·.titleDisplayedAt)) (y.bind (·.titleDisplayedAt))
  | .teamPuzzle .., x, y => Stays (x.map (·.ctimeAt)) (y.map (·.ctimeAt))
  | _, _, _ => True

@[simp] lemma originKept_refl (k : Key) (x : Val k) : OriginKept k x x := by
  cases k <;> simp [OriginKept]

lemma OriginKept.trans {k : Key} {x y z : Val k} (h : OriginKept k x y) (h' : OriginKept k y z) :
    OriginKept k x z := by
  cases k with
  | hintEnable team hint => exact Stays.trans h h'
  | hintVisibility team hint => exact ⟨Stays.trans h.1 h'.1, Stays.trans h.2 h'.2⟩
  | teamPuzzle team puzzle => exact Stays.trans h h'
  | _ => trivial

/-- The recorded instants stay. -/
def originOrder : RowOrder Val where
  le := OriginKept
  refl := originKept_refl
  trans := OriginKept.trans

/-! ## Statements -/

/-- A statement that leaves the recorded instants. -/
def KeepsOrigins {β : Type} (stmt : Statement β) : Prop :=
  ∀ v now eff, stmt v now = .ok eff → ∀ p ∈ eff.puts, OriginKept p.1 (v p.1) p.2

/-- A statement that adds no deed and leaves the recorded instants. -/
structure IsQuiet {β : Type} (stmt : Statement β) : Prop where
  calm : IsCalm stmt
  origins : KeepsOrigins stmt

section Statements

variable {β : Type} {stmt : Statement β}

lemma KeepsOrigins.respects (h : KeepsOrigins stmt) : originOrder.Respects stmt :=
  fun v now eff he k =>
    applyPuts_induction (q := fun k y => OriginKept k (v k) y) (h v now eff he) k fun _ =>
      originKept_refl k (v k)

/-- What is written, row by row. -/
lemma IsQuiet.of_puts (h : ∀ v now eff, stmt v now = .ok eff →
    (∀ p ∈ eff.puts, Calm p.1 (v p.1) p.2 ∧ OriginKept p.1 (v p.1) p.2) ∧
      ∀ ev ∈ eff.inserts, isNotable ev = false) : IsQuiet stmt where
  calm v now eff he := ⟨fun p hp => ((h v now eff he).1 p hp).1, (h v now eff he).2⟩
  origins v now eff he p hp := ((h v now eff he).1 p hp).2

lemma IsQuiet.puts (h : IsQuiet stmt) {v : View} {now : ℤ} {eff : Effect Val EventLogInput β}
    (he : stmt v now = .ok eff) :
    (∀ p ∈ eff.puts, Calm p.1 (v p.1) p.2 ∧ OriginKept p.1 (v p.1) p.2) ∧
      ∀ ev ∈ eff.inserts, isNotable ev = false :=
  ⟨fun p hp => ⟨(h.calm v now eff he).1 p hp, h.origins v now eff he p hp⟩, (h.calm v now eff he).2⟩

/-- A statement that only locks rows. -/
lemma IsQuiet.of_locks (h : ∀ v now eff, stmt v now = .ok eff →
    (∀ p ∈ eff.puts, p.2 = v p.1) ∧ eff.inserts = []) : IsQuiet stmt := by
  refine .of_puts fun v now eff he => ?_
  obtain ⟨hp, hi⟩ := h v now eff he
  refine ⟨fun p hm => ?_, by simp [hi]⟩
  rw [hp p hm]
  exact ⟨calm_refl p.1 _, originKept_refl p.1 _⟩

lemma isQuiet_read {f : View → ℤ → Except String β} : IsQuiet (.read f : Statement β) where
  calm := isCalm_read
  origins v now eff h := by
    obtain ⟨b, -, rfl⟩ := Stmt.read_eq_ok.mp h
    simp

lemma keepsOrigins_insertEvent {ev : EventLogInput} : KeepsOrigins (insertEvent ev) := by
  rintro v now eff ⟨⟩
  simp

lemma isQuiet_insertEvent {ev : EventLogInput} (h : isNotable ev = false) :
    IsQuiet (insertEvent ev) := ⟨isCalm_insertEvent h, keepsOrigins_insertEvent⟩

variable {cfg : Config} {team puzzle hint : Id}

/-! ### The instants -/

/-- A hint is enabled once. -/
lemma keepsOrigins_insertHintEnables {hints : List Id} :
    KeepsOrigins (insertHintEnables team hints) := by
  rintro v now eff ⟨⟩ p hp
  obtain ⟨hint, hmem, rfl⟩ := List.mem_map.mp hp
  have hnone : v (.hintEnable team hint) = none :=
    Option.isNone_iff_eq_none.mp (of_decide_eq_true (by simpa using (List.mem_filter.mp hmem).2))
  show Stays (v (.hintEnable team hint)) _
  rw [hnone]
  exact Stays.none_left _

/-- An instant of a row is set once, whatever the other is. -/
lemma keepsOrigins_upsertHintVisibility {hints : List (Id × Bool)} :
    KeepsOrigins (upsertHintVisibility team hints) := by
  rintro v now eff ⟨⟩ p hp
  obtain ⟨hint, -, rfl⟩ := List.mem_map.mp hp
  exact ⟨Stays.or_left _ _, Stays.or_left _ _⟩

/-- A puzzle is given to a team once. -/
lemma keepsOrigins_insertTeamPuzzles {unlocks : List Id} :
    KeepsOrigins (insertTeamPuzzles cfg team unlocks) := by
  rintro v now eff ⟨⟩ p hp
  obtain ⟨puzzle, hmem, rfl⟩ := List.mem_map.mp hp
  have hnone : v (.teamPuzzle team puzzle) = none :=
    Option.isNone_iff_eq_none.mp (List.mem_filter.mp hmem).2
  show Stays ((v (.teamPuzzle team puzzle)).map (·.ctimeAt)) _
  rw [hnone]
  exact Stays.none_left _

/-- The row of a puzzle keeps its instant. -/
lemma keepsOrigins_setSolved : KeepsOrigins (setSolved team puzzle) := by
  intro v now eff h
  unfold setSolved at h
  split at h
  · rename_i tp htp
    split_ifs at h <;> obtain rfl := Except.ok.inj h
    · simp [OriginKept, htp]
    · simp
  · obtain rfl := Except.ok.inj h
    simp

/-! ### Other rows -/

lemma keepsOrigins_setFinished : KeepsOrigins (setFinished team) := by
  intro v now eff h
  unfold setFinished at h
  split at h
  · split_ifs at h <;> obtain rfl := Except.ok.inj h <;> simp [OriginKept]
  · obtain rfl := Except.ok.inj h
    simp

lemma keepsOrigins_setStarted {startAt : ℤ} : KeepsOrigins (setStarted team startAt) := by
  intro v now eff h
  unfold setStarted at h
  split at h <;> obtain rfl := Except.ok.inj h <;> simp [OriginKept]

lemma keepsOrigins_markTeamDirty : KeepsOrigins (markTeamDirty team) := by
  intro v now eff h
  unfold markTeamDirty at h
  split at h <;> obtain rfl := Except.ok.inj h <;> simp [OriginKept]

lemma keepsOrigins_markTeamClean : KeepsOrigins (markTeamClean team) := by
  intro v now eff h
  unfold markTeamClean at h
  split at h <;> obtain rfl := Except.ok.inj h <;> simp [OriginKept]

lemma keepsOrigins_lockTeamOfGame {gameId : Id} : KeepsOrigins (lockTeamOfGame team gameId) := by
  intro v now eff h
  unfold lockTeamOfGame at h
  split at h
  · obtain rfl := Except.ok.inj h
    simp
  · split_ifs at h <;> obtain rfl := Except.ok.inj h <;> simp [lockRow]

lemma keepsOrigins_closePuzzleTicketsOnSolve :
    KeepsOrigins (closePuzzleTicketsOnSolve cfg team puzzle) := by
  rintro v now eff ⟨⟩ p hp
  obtain ⟨id, -, hid⟩ := List.mem_filterMap.mp hp
  split at hid
  · split_ifs at hid
    obtain rfl := Option.some.inj hid
    trivial
  · cases hid

lemma keepsOrigins_insertTriggers {keys : List String} {source : TriggerSource} :
    KeepsOrigins (insertTriggers team puzzle keys source) := by
  intro v now eff h p hp
  unfold insertTriggers at h
  split_ifs at h
  obtain rfl := Except.ok.inj h
  obtain ⟨key, -, rfl⟩ := List.mem_map.mp hp
  trivial

lemma keepsOrigins_insertContentBlockUnlock {contentBlock : Id} :
    KeepsOrigins (insertContentBlockUnlock team contentBlock) := by
  intro v now eff h
  unfold insertContentBlockUnlock at h
  split_ifs at h <;> obtain rfl := Except.ok.inj h <;> simp [OriginKept]

lemma keepsOrigins_upsertTeamHint : KeepsOrigins (upsertTeamHint hint team) := by
  rintro v now eff ⟨⟩
  simp [OriginKept]

end Statements

end Play
