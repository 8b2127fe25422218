import RbphBackend.Concurrency.Guards
import RbphBackend.Concurrency.Solo
import RbphBackend.Play.Cooldowns
import RbphBackend.Timing.Alarms

set_option relaxedAutoImplicit false
set_option autoImplicit false

/-!
# What a team sees of the hints of a puzzle

A team is shown the hints of a puzzle that it can see, the texts of those it has purchased, and the
instant at which the next cooldown ends. Its page asks again at that instant. As long as nothing
else changes, it misses nothing so.

## Main definitions

* `Play.getHintsViewForTeam` — `get_hints_view_for_team`.
* `Play.gateOf`, `Play.hintsView` — the state of a team, and what a call answers, from the rows.
* `Play.Polls` — the calls of a page that asks again when it is told to.

## Main results

* `Play.refreshTeamHintStatesLoaded_plays` — a refresh leaves nothing to refresh later.
* `Play.syncHintCooldowns_fresh` — between its calls the page shows what a call would.
-/

namespace Play

open Concurrency ReadCommitted Numeric Database Currency

/-! ## The calls -/

structure RbPuzzleHintTeamData where
  data : List RbHintShowData
  state : List RbHintTeamStateShowData
  nextCooldownAt : Option ℤ
  deriving DecidableEq

section Calls

variable (cfg : Config) (columns : Id → HintColumns) (t : Tid) (team puzzle : Id)

/-- The texts of the hints that are purchased, of a released puzzle the team has. -/
def hintTexts (v : View) (now : ℤ) : List RbHintTeamStateShowData :=
  if cfg.released puzzle now &&
      (v (.teamPuzzle team puzzle)).any (fun tp => decide (0 ≤ tp.state)) then
    (cfg.hints.filter fun h => h.puzzleId = puzzle && (v (.teamHint team h.id)).any id).map
      Hint.show
  else []

/-- `get_hints_team_state`. -/
def getHintsTeamState : Statement (List RbHintTeamStateShowData) :=
  .read fun v now => .ok (hintTexts cfg team puzzle v now)

/-- The ends of the cooldowns of the hints that are not purchased, of a puzzle the team has. -/
def cooldownEnds (v : View) : List ℤ :=
  match v (.teamPuzzle team puzzle), cfg.effectiveRelease puzzle with
  | some tp, some releaseAt =>
    if 0 ≤ tp.state then
      (cfg.hints.filter fun h => h.puzzleId = puzzle && !(v (.teamHint team h.id)).any id).filterMap
        fun h => cooldownUntil v team h tp releaseAt
    else []
  | _, _ => []

/-- The end of a cooldown that comes next, of a released puzzle. -/
def nextCooldown (v : View) (now : ℤ) : Option ℤ :=
  if cfg.released puzzle now then Alarms.next (cooldownEnds cfg team puzzle v) now else none

/-- `next_hint_cooldown`. -/
def nextHintCooldown : Statement (Option ℤ) :=
  .read fun v now => .ok (nextCooldown cfg team puzzle v now)

/-- `get_hints_view_for_team`. -/
def getHintsViewForTeam : Call RbPuzzleHintTeamData := do
  let data ← getHintsShowForTeam cfg columns t team puzzle
  let state ← Tx.pool t .stmt (getHintsTeamState cfg team puzzle)
  let nextCooldownAt ← Tx.pool t .stmt (nextHintCooldown cfg team puzzle)
  return ⟨data, state, nextCooldownAt⟩

/-- `sync_hint_cooldowns`. -/
def syncHintCooldowns : Call RbPuzzleHintTeamData := getHintsViewForTeam cfg columns t team puzzle

end Calls

/-! ## From the rows -/

section Rows

variable (cfg : Config) (columns : Id → HintColumns) (team puzzle : Id) (v : View) (now : ℤ)

/-- The state of the team that conditions are about. -/
def gateOf : Option Gate.RbPuzzleStates :=
  (v (.team team)).map fun tm => cfg.gateState tm.gameId (fun row => row.1.gameId = tm.gameId)
    (isSolved v team) (isTriggered v team) tm.startAt.isSome

/-- What a call answers. -/
def hintsView : RbPuzzleHintTeamData where
  data := showHints (gateOf cfg team v) (hintShowRows cfg columns team puzzle v now)
  state := hintTexts cfg team puzzle v now
  nextCooldownAt := nextCooldown cfg team puzzle v now

/-- A hint as the refresh sees it. -/
def pendingHint (h : Hint) : PendingHint where
  hint := h
  enabled := h.enableCond.isNone || (v (.hintEnable team h.id)).isSome
  displayPending :=
    h.cooldownOrigin = 2 && ((v (.hintVisibility team h.id)).bind (·.displayedAt)).isNone
  titleDisplayPending :=
    h.cooldownOrigin = 3 && ((v (.hintVisibility team h.id)).bind (·.titleDisplayedAt)).isNone

/-- The hints whose state may have to change. -/
def pendingHints : List PendingHint := cfg.hints.filterMap fun h =>
  if cfg.released h.puzzleId now
      && (v (.teamPuzzle team h.puzzleId)).any (fun tp => decide (0 ≤ tp.state))
      && (!(pendingHint team v h).enabled || (pendingHint team v h).displayPending
        || (pendingHint team v h).titleDisplayPending)
      && !(v (.teamHint team h.id)).any id
      && decide (puzzle = h.puzzleId) then
    some (pendingHint team v h)
  else none

/-- The rows that a refresh leaves, where the state of the team is `state`. -/
structure Refreshed (state : Gate.RbPuzzleStates) (pending : List PendingHint) (v v' : View) :
    Prop where
  enabled : ∀ i, (v' (.hintEnable team i)).isSome = true ↔ (v (.hintEnable team i)).isSome = true ∨
    ∃ p ∈ pending, p.newlyEnabled state = true ∧ p.hint.id = i
  displayed : ∀ i, ((v' (.hintVisibility team i)).bind (·.displayedAt)).isSome = true ↔
    ((v (.hintVisibility team i)).bind (·.displayedAt)).isSome = true ∨
      ∃ p ∈ pending, p.newlyVisible state = some true ∧ p.hint.id = i
  titled : ∀ i, ((v' (.hintVisibility team i)).bind (·.titleDisplayedAt)).isSome = true ↔
    ((v (.hintVisibility team i)).bind (·.titleDisplayedAt)).isSome = true ∨
      ∃ p ∈ pending, p.newlyVisible state = some false ∧ p.hint.id = i

end Rows

/-- Only what is recorded of the hints of a team has changed. -/
def HintFrame (team : Id) (v v' : View) : Prop :=
  ∀ k, (∀ i, k ≠ .hintEnable team i) → (∀ i, k ≠ .hintVisibility team i) → v' k = v k

section Frames

variable {cfg : Config} {team puzzle : Id} {v v' : View} {now : ℤ}

lemma HintFrame.gateOf (h : HintFrame team v v') : gateOf cfg team v' = gateOf cfg team v := by
  have hteam : v' (.team team) = v (.team team) := h _ (by simp) (by simp)
  have hsolved : isSolved v' team = isSolved v team := by
    funext i
    rw [isSolved, isSolved, h _ (by simp) (by simp)]
  have htriggers : isTriggered v' team = isTriggered v team := by
    funext key
    rw [isTriggered, isTriggered, h _ (by simp) (by simp)]
  rw [Play.gateOf, Play.gateOf, hteam, hsolved, htriggers]

lemma mem_pendingHints {p : PendingHint} : p ∈ pendingHints cfg team puzzle v now ↔
    ∃ h ∈ cfg.hints, p = pendingHint team v h ∧ h.puzzleId = puzzle ∧
      cfg.released puzzle now = true ∧
      (v (.teamPuzzle team puzzle)).any (fun tp => decide (0 ≤ tp.state)) = true ∧
      (v (.teamHint team h.id)).any id = false ∧
      (p.enabled = false ∨ p.displayPending = true ∨ p.titleDisplayPending = true) := by
  simp only [pendingHints, List.mem_filterMap, Option.ite_none_right_eq_some, Bool.and_eq_true,
    Bool.or_eq_true, Bool.not_eq_true', decide_eq_true_eq, Option.some.injEq]
  constructor
  · rintro ⟨h, hh, ⟨⟨⟨⟨hreleased, hhas⟩, hwaits⟩, hbought⟩, rfl⟩, rfl⟩
    exact ⟨h, hh, rfl, rfl, hreleased, hhas, hbought, or_assoc.1 hwaits⟩
  · rintro ⟨h, hh, rfl, rfl, hreleased, hhas, hbought, hwaits⟩
    exact ⟨h, hh, ⟨⟨⟨⟨hreleased, hhas⟩, or_assoc.2 hwaits⟩, hbought⟩, rfl⟩, rfl⟩

end Frames

/-! ## A refresh -/

section Refresh

variable {cfg : Config} {t : Tid} {team puzzle : Id} {v v' : View} {now : ℤ}
  {state : Gate.RbPuzzleStates} {pending : List PendingHint}

/-- The refresh has nothing to do for the hint. -/
def PendingHint.Settled (state : Gate.RbPuzzleStates) (p : PendingHint) : Prop :=
  p.newlyEnabled state = false ∧ p.newlyVisible state = none

/-- A write on a condition, where nothing is written without it. -/
lemma plays_query_when {c : Prop} [Decidable c] {stmt : Statement Unit}
    {eff : Effect Val EventLogInput Unit} (he : stmt v now = .ok eff) (hc : ¬ c → eff.puts = []) :
    ReadCommitted.Plays t (when c (Tx.query t .stmt stmt)) now v () (applyPuts eff.puts v) := by
  unfold when
  split_ifs with h
  · exact ReadCommitted.Plays.query he
  · rw [hc h]
    exact ReadCommitted.Plays.pure ()

lemma insertHintEnables_isSome {l : List Id} {eff : Effect Val EventLogInput Unit}
    (he : insertHintEnables team l v now = .ok eff) (i : Id) :
    (applyPuts eff.puts v (.hintEnable team i)).isSome = true ↔
      (v (.hintEnable team i)).isSome = true ∨ i ∈ l := by
  have hrow := applyPuts_cases eff.puts v (.hintEnable team i)
  obtain rfl := Except.ok.inj he
  rcases hrow with ⟨hk, h⟩ | ⟨x, hx, h⟩
  · rw [h]
    refine ⟨.inl, fun hi => hi.elim id fun hi => by_contra fun hnone => hk ?_⟩
    simp only [List.mem_map, List.mem_filter]
    exact ⟨_, ⟨i, ⟨hi, by simpa using hnone⟩, rfl⟩, rfl⟩
  · obtain ⟨j, hj, heq⟩ := List.mem_map.1 hx
    obtain ⟨hkey, hval⟩ := Sigma.mk.inj heq
    obtain ⟨-, rfl⟩ := Key.hintEnable.inj hkey
    rw [h, ← eq_of_heq hval]
    exact ⟨fun _ => .inr (List.mem_filter.1 hj).1, fun _ => rfl⟩

lemma insertHintEnables_frame {l : List Id} {eff : Effect Val EventLogInput Unit}
    (he : insertHintEnables team l v now = .ok eff) {k : Key} (hk : ∀ i, k ≠ .hintEnable team i) :
    applyPuts eff.puts v k = v k := by
  obtain rfl := Except.ok.inj he
  refine applyPuts_of_notMem fun hmem => ?_
  simp only [List.map_map, List.mem_map] at hmem
  obtain ⟨i, -, rfl⟩ := hmem
  exact hk i rfl

lemma upsertHintVisibility_frame {l : List (Id × Bool)} {eff : Effect Val EventLogInput Unit}
    (he : upsertHintVisibility team l v now = .ok eff) {k : Key}
    (hk : ∀ i, k ≠ .hintVisibility team i) : applyPuts eff.puts v k = v k := by
  obtain rfl := Except.ok.inj he
  refine applyPuts_of_notMem fun hmem => ?_
  simp only [List.map_map, List.mem_map] at hmem
  obtain ⟨i, -, rfl⟩ := hmem
  exact hk i.1 rfl

lemma upsertHintVisibility_isSome {l : List (Id × Bool)} {eff : Effect Val EventLogInput Unit}
    (hnodup : (l.map (·.1)).Nodup) (he : upsertHintVisibility team l v now = .ok eff) (i : Id) :
    (((applyPuts eff.puts v (.hintVisibility team i)).bind (·.displayedAt)).isSome = true ↔
      ((v (.hintVisibility team i)).bind (·.displayedAt)).isSome = true ∨ (i, true) ∈ l) ∧
    (((applyPuts eff.puts v (.hintVisibility team i)).bind (·.titleDisplayedAt)).isSome = true ↔
      ((v (.hintVisibility team i)).bind (·.titleDisplayedAt)).isSome = true ∨ (i, false) ∈ l) := by
  have hrow := applyPuts_cases eff.puts v (.hintVisibility team i)
  obtain rfl := Except.ok.inj he
  rcases hrow with ⟨hk, h⟩ | ⟨x, hx, h⟩
  · have hnot : ∀ shown, (i, shown) ∉ l := fun shown hmem =>
      hk (List.mem_map.2 ⟨_, List.mem_map.2 ⟨(i, shown), hmem, rfl⟩, rfl⟩)
    rw [h]
    exact ⟨⟨.inl, fun h => h.resolve_right (hnot true)⟩,
      ⟨.inl, fun h => h.resolve_right (hnot false)⟩⟩
  · obtain ⟨⟨j, shown⟩, hj, heq⟩ := List.mem_map.1 hx
    obtain ⟨hkey, hval⟩ := Sigma.mk.inj heq
    obtain ⟨-, rfl⟩ := Key.hintVisibility.inj hkey
    have hone : ∀ b, (j, b) ∈ l ↔ b = shown := fun b =>
      ⟨fun hb => congrArg Prod.snd (List.inj_on_of_nodup_map hnodup hb hj rfl), fun h => h ▸ hj⟩
    rw [h, ← eq_of_heq hval, hone, hone]
    cases shown <;> simp

/-- The hints that a refresh makes visible are those that are pending. -/
lemma nodup_visible (hnodup : (pending.map (·.hint.id)).Nodup) :
    ((pending.filterMap fun p => (p.newlyVisible state).map fun shown => (p.hint.id, shown)).map
      (·.1)).Nodup := by
  refine List.Nodup.sublist ?_ hnodup
  induction pending with
  | nil => exact .slnil
  | cons p pending ih =>
    have ih := ih (List.nodup_cons.1 hnodup).2
    cases hp : p.newlyVisible state with
    | none => simpa [List.filterMap_cons, hp] using ih.cons p.hint.id
    | some shown => simpa [List.filterMap_cons, hp] using ih.cons_cons p.hint.id

variable (t team v now state) in
/-- **The writes of a refresh.** -/
lemma applyHintStates_plays (hnodup : (pending.map (·.hint.id)).Nodup) :
    ∃ v', ReadCommitted.Plays t (applyHintStates t team state pending) now v () v' ∧
      HintFrame team v v' ∧
      Refreshed team state pending v v' ∧ ((∀ p ∈ pending, p.Settled state) → v' = v) := by
  obtain ⟨eff₁, he₁⟩ : ∃ eff, insertHintEnables team
    ((pending.filter (·.newlyEnabled state)).map (·.hint.id)) v now = .ok eff := ⟨_, rfl⟩
  obtain ⟨eff₂, he₂⟩ : ∃ eff, upsertHintVisibility team (pending.filterMap fun p =>
    (p.newlyVisible state).map fun shown => (p.hint.id, shown)) (applyPuts eff₁.puts v) now =
      .ok eff := ⟨_, rfl⟩
  refine ⟨applyPuts eff₂.puts (applyPuts eff₁.puts v),
    ReadCommitted.Plays.bind (plays_query_when he₁ fun h => ?_) (plays_query_when he₂ fun h => ?_),
    fun k h₁ h₂ => ?_,
    ⟨fun i => ?_, fun i => ?_, fun i => ?_⟩, fun hsettled => ?_⟩
  · obtain rfl := Except.ok.inj he₁
    rw [not_not.1 h]
    rfl
  · obtain rfl := Except.ok.inj he₂
    rw [not_not.1 h]
    rfl
  · rw [upsertHintVisibility_frame he₂ h₂, insertHintEnables_frame he₁ h₁]
  · rw [upsertHintVisibility_frame he₂ (by simp), insertHintEnables_isSome he₁]
    simp [and_assoc]
  · rw [(upsertHintVisibility_isSome (nodup_visible hnodup) he₂ i).1,
      insertHintEnables_frame he₁ (by simp)]
    simp
  · rw [(upsertHintVisibility_isSome (nodup_visible hnodup) he₂ i).2,
      insertHintEnables_frame he₁ (by simp)]
    simp
  · have h₁ : (pending.filter (·.newlyEnabled state)).map (·.hint.id) = [] := by
      simpa using fun p hp => (hsettled p hp).1
    have h₂ : (pending.filterMap fun p => (p.newlyVisible state).map fun shown =>
        (p.hint.id, shown)) = [] := by
      simpa [List.filterMap_eq_nil_iff] using fun p hp => (hsettled p hp).2
    rw [h₁] at he₁
    rw [h₂] at he₂
    obtain rfl := Except.ok.inj he₁
    obtain rfl := Except.ok.inj he₂
    rfl

variable (team puzzle v now) in
/-- The pending hints of a puzzle have ids of their own. -/
lemma nodup_pendingHints (hkeys : (cfg.hints.map (·.id)).Nodup) :
    ((pendingHints cfg team puzzle v now).map (·.hint.id)).Nodup := by
  refine List.Nodup.sublist ?_ hkeys
  rw [pendingHints]
  induction cfg.hints with
  | nil => exact .slnil
  | cons h hints ih =>
    rw [List.filterMap_cons]
    split
    · exact ih.cons _
    · rename_i p hp
      obtain ⟨-, hp⟩ := Option.ite_none_right_eq_some.1 hp
      obtain rfl := Option.some.inj hp
      exact ih.cons_cons _

/-- What a refresh does of a hint of a released puzzle the team has, if it is not purchased. -/
lemma exists_pending_iff (hkeys : (cfg.hints.map (·.id)).Nodup) {h : Hint} (hh : h ∈ cfg.hints)
    (hreleased : cfg.released h.puzzleId now = true)
    (hhas : (v (.teamPuzzle team h.puzzleId)).any (fun tp => decide (0 ≤ tp.state)) = true)
    (hbought : (v (.teamHint team h.id)).any id = false) {q : PendingHint → Prop}
    (hq : q (pendingHint team v h) → (pendingHint team v h).enabled = false ∨
      (pendingHint team v h).displayPending = true ∨
        (pendingHint team v h).titleDisplayPending = true) :
    (∃ p ∈ pendingHints cfg team h.puzzleId v now, q p ∧ p.hint.id = h.id) ↔
      q (pendingHint team v h) := by
  constructor
  · rintro ⟨p, hp, hqp, hid⟩
    obtain ⟨h', hh', rfl, -⟩ := mem_pendingHints.1 hp
    obtain rfl : h' = h := List.inj_on_of_nodup_map hkeys hh' hh hid
    exact hqp
  · intro h₁
    exact ⟨_, mem_pendingHints.2 ⟨h, hh, rfl, rfl, hreleased, hhas, hbought, hq h₁⟩, h₁, rfl⟩

private lemma not_isSome_of_isNone {α : Type} {x : Option α} (h : x.isNone = true) :
    ¬ x.isSome = true := by
  rw [Option.isNone_iff_eq_none.1 h]
  exact Bool.false_ne_true

/-- **A hint that has been refreshed** has nothing to be refreshed any more. -/
lemma settled_of_refreshed (hkeys : (cfg.hints.map (·.id)).Nodup) {h : Hint} (hh : h ∈ cfg.hints)
    (hreleased : cfg.released h.puzzleId now = true)
    (hhas : (v (.teamPuzzle team h.puzzleId)).any (fun tp => decide (0 ≤ tp.state)) = true)
    (hbought : (v (.teamHint team h.id)).any id = false)
    (hr : Refreshed team state (pendingHints cfg team h.puzzleId v now) v v') :
    (pendingHint team v' h).Settled state := by
  have henabled := (hr.enabled h.id).trans <| or_congr_right <|
    exists_pending_iff hkeys hh hreleased hhas hbought (q := fun p => p.newlyEnabled state = true)
      fun h => .inl (by simpa using (Bool.and_eq_true_iff.1 h).1)
  have hwaits : ∀ b, (pendingHint team v h).newlyVisible state = some b →
      (pendingHint team v h).enabled = false ∨ (pendingHint team v h).displayPending = true ∨
        (pendingHint team v h).titleDisplayPending = true := by
    intro b hb
    simp only [PendingHint.newlyVisible] at hb
    split_ifs at hb with h₁ _ h₂
    · exact .inr (.inl (Bool.and_eq_true_iff.1 h₁).2)
    · exact .inr (.inr (Bool.and_eq_true_iff.1 h₂).2)
  have hdisplayed := (hr.displayed h.id).trans <| or_congr_right <|
    exists_pending_iff hkeys hh hreleased hhas hbought
      (q := fun p => p.newlyVisible state = some true) (hwaits true)
  have htitled := (hr.titled h.id).trans <| or_congr_right <|
    exists_pending_iff hkeys hh hreleased hhas hbought
      (q := fun p => p.newlyVisible state = some false) (hwaits false)
  have henabled' : (pendingHint team v' h).enabled =
      ((pendingHint team v h).enabled || (pendingHint team v h).newlyEnabled state) := by
    rw [Bool.eq_iff_iff, Bool.or_eq_true]
    simp only [pendingHint, Bool.or_eq_true, henabled]
    exact or_assoc.symm
  have hnot : (pendingHint team v' h).newlyEnabled state = false := by
    rw [PendingHint.newlyEnabled, henabled', PendingHint.newlyEnabled]
    cases (pendingHint team v h).enabled <;> simp [pendingHint]
  refine ⟨hnot, ?_⟩
  simp only [PendingHint.newlyVisible] at hdisplayed htitled ⊢
  rw [hnot, Bool.or_false, henabled']
  -- what would be recorded now would have been recorded before
  split_ifs with h₁ hmet h₂ hmet
  · obtain ⟨horigin, hpending⟩ := Bool.and_eq_true_iff.1 h₁
    have hnone := not_isSome_of_isNone (Bool.and_eq_true_iff.1 hpending).2
    have hold : (pendingHint team v h).displayPending = true := Bool.and_eq_true_iff.2
      ⟨horigin, Option.isNone_iff_eq_none.2 (Option.not_isSome_iff_eq_none.1
        fun h => hnone (hdisplayed.2 (.inl h)))⟩
    refine absurd (hdisplayed.2 (.inr ?_)) hnone
    exact (if_pos (Bool.and_eq_true_iff.2 ⟨horigin, hold⟩)).trans (if_pos hmet)
  · rfl
  · obtain ⟨horigin, hpending⟩ := Bool.and_eq_true_iff.1 h₂
    have hnone := not_isSome_of_isNone (Bool.and_eq_true_iff.1 hpending).2
    have hold : (pendingHint team v h).titleDisplayPending = true := Bool.and_eq_true_iff.2
      ⟨horigin, Option.isNone_iff_eq_none.2 (Option.not_isSome_iff_eq_none.1
        fun h => hnone (htitled.2 (.inl h)))⟩
    have hother : ¬ (decide ((pendingHint team v h).hint.cooldownOrigin = 2) &&
        (pendingHint team v h).displayPending) = true := by
      intro htwo
      have h₃ : h.cooldownOrigin = 3 := of_decide_eq_true horigin
      have h₂ : h.cooldownOrigin = 2 := of_decide_eq_true (Bool.and_eq_true_iff.1 htwo).1
      omega
    refine absurd (htitled.2 (.inr ?_)) hnone
    exact (if_neg hother).trans
      ((if_pos (Bool.and_eq_true_iff.2 ⟨horigin, hold⟩)).trans (if_pos hmet))
  · rfl
  · rfl

/-- A refresh has nothing to do for the hints of the puzzle, at any time. -/
def HintsSettled (cfg : Config) (team puzzle : Id) (v : View) : Prop :=
  ∀ now, ∀ p ∈ pendingHints cfg team puzzle v now, ∀ state, gateOf cfg team v = some state →
    p.Settled state

/-- `team_gate_state_conn` on an idle store. -/
lemma teamGateStateConn_plays :
    ReadCommitted.Plays t (teamGateStateConn cfg (Tx.query t .stmt) team) now v (gateOf cfg team v)
      v := by
  refine ReadCommitted.Plays.bind (ReadCommitted.Plays.read rfl) ?_
  rw [gateOf]
  cases v (.team team) with
  | none => exact ReadCommitted.Plays.pure none
  | some tm =>
    exact ReadCommitted.Plays.bind (ReadCommitted.Plays.read rfl)
      (ReadCommitted.Plays.bind (ReadCommitted.Plays.read rfl) (ReadCommitted.Plays.pure _))

variable (t team v) in
/-- **A refresh** of a released puzzle: what it has loaded is the state of the team; it changes what
is recorded of the hints, and leaves nothing to refresh later. -/
lemma refreshTeamHintStatesLoaded_plays (hkeys : (cfg.hints.map (·.id)).Nodup)
    (hreleased : cfg.released puzzle now = true) : ∃ loaded v',
    ReadCommitted.Plays t (refreshTeamHintStatesLoaded cfg t team (some puzzle)) now v loaded v' ∧
      (∀ state, loaded = some state → state = gateOf cfg team v') ∧ HintFrame team v v' ∧
        HintsSettled cfg team puzzle v' ∧ (HintsSettled cfg team puzzle v → v' = v) := by
  have hpending : ReadCommitted.Plays t
      (Tx.query t .stmt (selectPendingHints cfg team (some puzzle)) : Call (List PendingHint)) now v
      (pendingHints cfg team puzzle v now) v :=
    ReadCommitted.Plays.read rfl
  have hstate : ReadCommitted.Plays t (teamGateStateConn cfg (Tx.query t .stmt) team) now v
      (gateOf cfg team v) v :=
    teamGateStateConn_plays
  by_cases hempty : (pendingHints cfg team puzzle v now).isEmpty
  · refine ⟨none, v, ReadCommitted.Plays.bind hpending ?_, fun _ h => (by cases h),
      fun _ _ _ => rfl, fun later p hp => ?_, fun _ => rfl⟩
    · rw [if_pos hempty]
      exact ReadCommitted.Plays.pure none
    · obtain ⟨h, hh, hp, hpuzzle, -, hrest⟩ := mem_pendingHints.1 hp
      have hmem := mem_pendingHints.2 ⟨h, hh, hp, hpuzzle, hreleased, hrest⟩
      rw [List.isEmpty_iff.1 hempty] at hmem
      cases hmem
  · cases hgate : gateOf cfg team v with
    | none =>
      rw [hgate] at hstate
      refine ⟨some none, v, ReadCommitted.Plays.bind hpending ?_, fun _ h => ?_, fun _ _ _ => rfl,
        fun _ _ _ _ h => ?_, fun _ => rfl⟩
      · rw [if_neg hempty]
        exact ReadCommitted.Plays.bind hstate (ReadCommitted.Plays.pure _)
      · rw [hgate]
        exact (Option.some.inj h).symm
      · rw [hgate] at h
        cases h
    | some state =>
      rw [hgate] at hstate
      obtain ⟨v', hplays, hframe, hrefreshed, hsettled⟩ :=
        applyHintStates_plays t team v now state (nodup_pendingHints team puzzle v now hkeys)
      have hgate' : gateOf cfg team v' = some state := hframe.gateOf.trans hgate
      refine ⟨some (some state), v', ReadCommitted.Plays.bind hpending ?_, fun _ h => ?_, hframe,
        fun later p hp state' hstate' => ?_, fun h => hsettled fun p hp => h now p hp state hgate⟩
      · rw [if_neg hempty]
        exact ReadCommitted.Plays.bind hstate
          (ReadCommitted.Plays.bind hplays (ReadCommitted.Plays.pure _))
      · rw [hgate']
        exact (Option.some.inj h).symm
      · obtain rfl := Option.some.inj (hgate'.symm.trans hstate')
        obtain ⟨h, hh, rfl, rfl, -, hhas, hbought, -⟩ := mem_pendingHints.1 hp
        rw [hframe _ (by simp) (by simp)] at hhas hbought
        exact settled_of_refreshed hkeys hh hreleased hhas hbought hrefreshed

end Refresh

/-! ## A view -/

section View

variable {cfg : Config} {columns : Id → HintColumns} {t : Tid} {team puzzle : Id} {v v' : View}
  {now later : ℤ}

/-- Where no condition is looked at, what is shown does not depend on the state. -/
lemma showHints_of_not_needsState {rows : List RbHintShowRow} (h : needsState rows = false)
    (state state' : Option Gate.RbPuzzleStates) : showHints state rows = showHints state' rows := by
  have hcond : ∀ row ∈ rows, ∀ condition default, (condition = row.displayCondition ∨
      condition = row.titleDisplayCondition) →
      hintFieldVisible condition default state row.purchased row.enabled row.cooldownComplete =
        hintFieldVisible condition default state' row.purchased row.enabled
          row.cooldownComplete := by
    intro row hrow condition default hcondition
    have hnot := List.any_eq_false.1 h row hrow
    simp only [Bool.and_eq_true, Bool.not_eq_true', Bool.or_eq_true, not_and_or, not_or,
      Bool.not_eq_false, Bool.not_eq_true, Option.isSome_eq_false_iff, Option.isNone_iff_eq_none]
      at hnot
    rcases hnot with hbought | ⟨hdisplay, htitle⟩
    · unfold hintFieldVisible
      rw [hbought, Bool.true_or, Bool.true_or]
    · have hnone : condition = none := by
        rcases hcondition with rfl | rfl
        · exact hdisplay
        · exact htitle
      rw [hnone]
      rfl
  rw [showHints, showHints]
  rw [List.filter_congr fun row hrow => hcond row hrow row.displayCondition true (.inl rfl)]
  refine List.map_congr_left fun row hrow => ?_
  rw [RbHintShowRow.show, RbHintShowRow.show,
    hcond row (List.mem_filter.1 hrow).1 row.titleDisplayCondition _ (.inr rfl)]

/-- **What `get_hints_show_for_team` shows**, on an idle store, after its refresh. -/
lemma getHintsShowForTeam_answers {loaded : Option (Option Gate.RbPuzzleStates)}
    (hrefresh : ReadCommitted.Plays t (refreshTeamHintStatesLoaded cfg t team (some puzzle)) now v
      loaded v')
    (hloaded : ∀ state, loaded = some state → state = gateOf cfg team v') :
    Answers t (getHintsShowForTeam cfg columns t team puzzle) now v
      (.ok (hintsView cfg columns team puzzle v' now).data) v' := by
  refine Answers.committed (ReadCommitted.Plays.bind hrefresh (ReadCommitted.Plays.bind
    (b := hintShowRows cfg columns team puzzle v' now) (ReadCommitted.Plays.read rfl) ?_))
  by_cases hneeds : needsState (hintShowRows cfg columns team puzzle v' now)
  · have hstate : ReadCommitted.Plays t
        (if needsState (hintShowRows cfg columns team puzzle v' now) then
          loadTeamGateStateOnce cfg t team loaded else pure loaded.join) now v'
        (gateOf cfg team v') v' := by
      rw [if_pos hneeds]
      cases loaded with
      | none => exact teamGateStateConn_plays
      | some state => exact hloaded state rfl ▸ ReadCommitted.Plays.pure _
    exact ReadCommitted.Plays.bind hstate (ReadCommitted.Plays.pure _)
  · have hstate : ReadCommitted.Plays t
        (if needsState (hintShowRows cfg columns team puzzle v' now) then
          loadTeamGateStateOnce cfg t team loaded else pure loaded.join) now v' loaded.join v' := by
      rw [if_neg hneeds]
      exact ReadCommitted.Plays.pure _
    rw [hintsView, showHints_of_not_needsState (Bool.not_eq_true _ ▸ hneeds) (gateOf cfg team v')
      loaded.join]
    exact ReadCommitted.Plays.bind hstate (ReadCommitted.Plays.pure _)

/-- **What a call answers**, on an idle store, after its refresh. -/
lemma syncHintCooldowns_answers {loaded : Option (Option Gate.RbPuzzleStates)}
    (hrefresh : ReadCommitted.Plays t (refreshTeamHintStatesLoaded cfg t team (some puzzle)) now v
      loaded v')
    (hloaded : ∀ state, loaded = some state → state = gateOf cfg team v') :
    Answers t (syncHintCooldowns cfg columns t team puzzle) now v
      (.ok (hintsView cfg columns team puzzle v' now)) v' :=
  Answers.bind (getHintsShowForTeam_answers hrefresh hloaded)
    (Answers.bind (b := hintTexts cfg team puzzle v' now) (Answers.pool_read rfl)
      (Answers.bind (b := nextCooldown cfg team puzzle v' now) (Answers.pool_read rfl)
        (Answers.pure _)))

lemma released_of_le (hle : now ≤ later) (h : cfg.released puzzle now = true) :
    cfg.released puzzle later = true := by
  unfold Config.released at h ⊢
  cases hrelease : cfg.effectiveRelease puzzle with
  | none =>
    rw [hrelease] at h
    cases h
  | some releaseAt =>
    rw [hrelease] at h
    exact decide_eq_true ((of_decide_eq_true h).trans hle)

lemma showHints_map_congr {state : Option Gate.RbPuzzleStates} {hints : List Hint}
    {f g : Hint → RbHintShowRow}
    (hvisible : ∀ h ∈ hints, hintFieldVisible (f h).displayCondition true state (f h).purchased
      (f h).enabled (f h).cooldownComplete = hintFieldVisible (g h).displayCondition true state
        (g h).purchased (g h).enabled (g h).cooldownComplete)
    (hshow : ∀ h ∈ hints, (f h).show state = (g h).show state) :
    showHints state (hints.map f) = showHints state (hints.map g) := by
  rw [showHints, showHints, List.filter_map, List.filter_map, List.map_map, List.map_map]
  rw [List.filter_congr (p := _ ∘ f) (q := (fun row => hintFieldVisible row.displayCondition true
    state row.purchased row.enabled row.cooldownComplete) ∘ g) hvisible]
  exact List.map_congr_left fun h hh => hshow h (List.mem_filter.1 hh).1

/-- There are at most as many ends as there are hints of the puzzle. -/
lemma length_cooldownEnds_le : (cooldownEnds cfg team puzzle v).length ≤
    (cfg.hints.filter (·.puzzleId = puzzle)).length := by
  unfold cooldownEnds
  split
  · split_ifs
    · refine (List.length_filterMap_le _ _).trans (List.Sublist.length_le
        (List.monotone_filter_right _ fun h hh => ?_))
      exact (Bool.and_eq_true_iff.1 hh).1
    · exact Nat.zero_le _
  · exact Nat.zero_le _

/-- **Until the next cooldown ends** what a team sees stays. -/
lemma hintsView_eq (hreleased : cfg.released puzzle now = true) (hle : now ≤ later)
    (hnext : ∀ n, (hintsView cfg columns team puzzle v now).nextCooldownAt = some n → later < n) :
    hintsView cfg columns team puzzle v later = hintsView cfg columns team puzzle v now := by
  have hlater := released_of_le hle hreleased
  have hnext : ∀ n, Alarms.next (cooldownEnds cfg team puzzle v) now = some n → later < n :=
    fun n hn => hnext n (by rw [hintsView, nextCooldown, if_pos hreleased, hn])
  simp only [hintsView, RbPuzzleHintTeamData.mk.injEq]
  refine ⟨?_, by rw [hintTexts, hintTexts, hreleased, hlater], ?_⟩
  · unfold hintShowRows
    split
    · rename_i tp releaseAt htp hrelease
      have hat : releaseAt ≤ now := by
        rw [Config.released, hrelease] at hreleased
        exact of_decide_eq_true hreleased
      simp only [hat, hat.trans hle, and_true]
      split_ifs with hstate
      · have hrow : ∀ h ∈ cfg.hints.filter (·.puzzleId = puzzle),
            (v (.teamHint team h.id)).any id = true ∨
              hintShowRow columns team v later tp releaseAt h =
                hintShowRow columns team v now tp releaseAt h := by
          intro h hh
          refine or_iff_not_imp_left.2 fun hbought => ?_
          have hcomplete : (cooldownUntil v team h tp releaseAt).any (· ≤ later) =
              (cooldownUntil v team h tp releaseAt).any (· ≤ now) := by
            cases huntil : cooldownUntil v team h tp releaseAt with
            | none => rfl
            | some d =>
              have hd : d ∈ cooldownEnds cfg team puzzle v := by
                simp only [cooldownEnds, htp, hrelease, if_pos hstate, List.mem_filterMap,
                  List.mem_filter, Bool.and_eq_true, decide_eq_true_eq, Bool.not_eq_true']
                obtain ⟨hmem, hpuzzle⟩ := List.mem_filter.1 hh
                exact ⟨h, ⟨hmem, of_decide_eq_true hpuzzle, by simpa using hbought⟩, huntil⟩
              exact decide_eq_decide.2 (Alarms.le_iff_of_lt_next hle hnext hd)
          rw [hintShowRow, hintShowRow, hcomplete]
        -- a hint that is purchased is shown whatever its cooldown
        refine showHints_map_congr (fun h hh => ?_) fun h hh => ?_
        · rcases hrow h ((List.mem_insertionSort _).1 hh) with hbought | hsame
          · unfold hintFieldVisible
            simp only [hintShowRow, hbought, Bool.true_or]
          · rw [hsame]
        · rcases hrow h ((List.mem_insertionSort _).1 hh) with hbought | hsame
          · unfold RbHintShowRow.show hintFieldVisible
            simp only [hintShowRow, hbought, Bool.true_or, if_true]
          · rw [hsame]
      · rfl
    · rfl
  · rw [nextCooldown, nextCooldown, if_pos hreleased, if_pos hlater,
      Alarms.next_eq_of_lt_next hle hnext]

/-- The calls of a page of team and puzzle that asks at `now`, and again at the instant it is told,
where nothing else changes `v`. -/
inductive Polls (cfg : Config) (columns : Id → HintColumns) (t : Tid) (team puzzle : Id)
    (v : View) : ℤ → List (ℤ × RbPuzzleHintTeamData) → Prop
  | last {now : ℤ} {view : RbPuzzleHintTeamData}
      (h : Answers t (syncHintCooldowns cfg columns t team puzzle) now v (.ok view) v)
      (hnext : view.nextCooldownAt = none) : Polls cfg columns t team puzzle v now [(now, view)]
  | next {now n : ℤ} {view : RbPuzzleHintTeamData} {rest : List (ℤ × RbPuzzleHintTeamData)}
      (h : Answers t (syncHintCooldowns cfg columns t team puzzle) now v (.ok view) v)
      (hnext : view.nextCooldownAt = some n) (hlt : now < n)
      (hrest : Polls cfg columns t team puzzle v n rest) :
      Polls cfg columns t team puzzle v now ((now, view) :: rest)

/-- The instants of the calls are those of one who is told the ends of the cooldowns. -/
lemma polls_of_wakes (hreleased : cfg.released puzzle now = true)
    (hanswers : ∀ s, now ≤ s → Answers t (syncHintCooldowns cfg columns t team puzzle) s v
      (.ok (hintsView cfg columns team puzzle v s)) v) {l : List ℤ}
    (h : Alarms.Wakes (cooldownEnds cfg team puzzle v) now l) :
    Polls cfg columns t team puzzle v now
      (l.map fun s => (s, hintsView cfg columns team puzzle v s)) := by
  induction h with
  | last h =>
    exact .last (hanswers _ le_rfl) (by rw [hintsView, nextCooldown, if_pos hreleased, h])
  | next h _ ih =>
    have hlt := (Alarms.next_eq_some_iff.1 h).1.2
    exact .next (hanswers _ le_rfl) (by rw [hintsView, nextCooldown, if_pos hreleased, h]) hlt
      (ih (released_of_le hlt.le hreleased) fun s hs => hanswers s (hlt.le.trans hs))

variable (cfg columns t team puzzle v now) in
/-- **A page that asks again when it is told to** misses nothing: on an idle store, the first call
for a released puzzle answers and leaves rows of which this holds as long as nothing else changes
them. At most once for each hint the page is told to ask again, each time later than before; no such
call changes a row; and at every instant from the first call on, a call would answer what the last
one of the page by then has. -/
theorem syncHintCooldowns_fresh (hkeys : (cfg.hints.map (·.id)).Nodup)
    (hreleased : cfg.released puzzle now = true) : ∃ view v',
    Answers t (syncHintCooldowns cfg columns t team puzzle) now v (.ok view) v' ∧
      ∃ polls, Polls cfg columns t team puzzle v' now polls ∧
        polls.length ≤ (cfg.hints.filter (·.puzzleId = puzzle)).length + 1 ∧
        polls.head? = some (now, view) ∧
        ∀ later, now ≤ later → ∃ s ∈ polls, s.1 ≤ later ∧
          Answers t (syncHintCooldowns cfg columns t team puzzle) later v' (.ok s.2) v' := by
  obtain ⟨loaded, v', hrefresh, hloaded, -, hsettled, -⟩ :=
    refreshTeamHintStatesLoaded_plays t team v hkeys hreleased
  have hlater : ∀ s, now ≤ s → Answers t (syncHintCooldowns cfg columns t team puzzle) s v'
      (.ok (hintsView cfg columns team puzzle v' s)) v' := by
    intro s hs
    obtain ⟨loaded', v₁, hrefresh', hloaded', -, -, hsame⟩ := refreshTeamHintStatesLoaded_plays t
      team v' hkeys (released_of_le hs hreleased)
    obtain rfl := hsame hsettled
    exact syncHintCooldowns_answers hrefresh' hloaded'
  obtain ⟨l, hl, hlength⟩ := Alarms.exists_wakes (cooldownEnds cfg team puzzle v') now
  refine ⟨_, v', syncHintCooldowns_answers hrefresh hloaded, _,
    polls_of_wakes hreleased hlater hl, ?_, ?_, fun later hle => ?_⟩
  · rw [List.length_map]
    exact hlength.trans (Nat.succ_le_succ
      ((List.length_filter_le _ _).trans length_cooldownEnds_le))
  · cases hl <;> rfl
  · obtain ⟨s, hs, hsle, hlast⟩ := hl.exists_last hle
    have hnow := released_of_le (hl.le s hs) hreleased
    refine ⟨_, List.mem_map_of_mem hs, hsle, ?_⟩
    dsimp only
    rw [← hintsView_eq hnow hsle fun n hn => hlast n ?_]
    · exact hlater later hle
    · rwa [hintsView, nextCooldown, if_pos hnow] at hn

/-- The page of one hint that cools down for a minute from when it is displayed. -/
theorem syncHintCooldowns_fresh_cooldownGame : ∃ view v',
    Answers 0 (syncHintCooldowns cooldownGame (fun _ => ⟨0, none⟩) 0 1 1) 0 lookedStore.committed
      (.ok view) v' ∧ view.nextCooldownAt = some 60000000 ∧
      ∃ polls, Polls cooldownGame (fun _ => ⟨0, none⟩) 0 1 1 v' 0 polls ∧ polls.length ≤ 2 ∧
        ∀ later, 0 ≤ later → ∃ s ∈ polls, s.1 ≤ later ∧ Answers 0
          (syncHintCooldowns cooldownGame (fun _ => ⟨0, none⟩) 0 1 1) later v' (.ok s.2) v' := by
  obtain ⟨view, v', h, polls, hpolls, hlength, -, hfresh⟩ :=
    syncHintCooldowns_fresh cooldownGame (fun _ => ⟨0, none⟩) 0 1 1 lookedStore.committed 0
      (by decide) (by decide)
  obtain ⟨d', hd, -⟩ := h _ (Quiet.init 0 0 _)
  have hplay : ((syncHintCooldowns cooldownGame (fun _ => ⟨0, none⟩) 0 1 1).run.alone
      (Db.init 0 lookedStore.committed)).any (fun r => match r.1 with
        | .ok view => decide (view.nextCooldownAt = some 60000000)
        | .error _ => false) = true := by decide +kernel
  rw [hd] at hplay
  exact ⟨view, v', h, of_decide_eq_true hplay, polls, hpolls, hlength, hfresh⟩

end View

/-! ## What a page offers -/

/-- The page offers the hint: it shows it, enabled and with its cooldown over, and not its text. -/
def RbPuzzleHintTeamData.Offers (view : RbPuzzleHintTeamData) (hint : Id) (now : ℤ) : Prop :=
  (∃ r ∈ view.data, r.id = hint ∧ r.enabled = true ∧ r.cooldownUntil.any (· ≤ now) = true) ∧
    ∀ x ∈ view.state, x.id ≠ hint

instance (view : RbPuzzleHintTeamData) (hint : Id) (now : ℤ) : Decidable (view.Offers hint now) :=
  inferInstanceAs (Decidable (_ ∧ _))

/-- The user is in the team, in the game of the hint, and the rows that are referred to exist. -/
structure MayBuy (cfg : Config) (v : View) (user team : Id) (h : Hint) : Prop where
  hint : cfg.hint h.id = some h
  puzzle : ∃ p r, cfg.puzzle h.puzzleId = some p ∧ cfg.round p.roundId = some r ∧
    r.gameId = p.gameId ∧ v (.teamMember user p.gameId) = some team
  team : ∃ tm, v (.team team) = some tm
  user : ∃ nickname, cfg.user user = some nickname

/-- The hint can be purchased, but for what its display asks of the state of the team. -/
def CanBuy (cfg : Config) (v : View) (now : ℤ) (team : Id) (h : Hint) : Prop :=
  ∃ tp releaseAt, v (.teamPuzzle team h.puzzleId) = some tp ∧
    cfg.effectiveRelease h.puzzleId = some releaseAt ∧ 0 ≤ tp.state ∧ releaseAt ≤ now ∧
      (v (.teamHint team h.id)).any id = false ∧ (pendingHint team v h).enabled = true ∧
        (cooldownUntil v team h tp releaseAt).any (· ≤ now) = true

section Offers

variable {cfg : Config} {columns : Id → HintColumns} {t : Tid} {user team : Id} {v v' : View}
  {h : Hint} {now : ℤ}

lemma MayBuy.of_frame (hbuy : MayBuy cfg v user team h) (hframe : HintFrame team v v') :
    MayBuy cfg v' user team h := by
  refine ⟨hbuy.hint, ?_, ?_, hbuy.user⟩
  · obtain ⟨p, r, hp, hr, hgame, hmember⟩ := hbuy.puzzle
    exact ⟨p, r, hp, hr, hgame, (hframe _ (by simp) (by simp)).trans hmember⟩
  · obtain ⟨tm, htm⟩ := hbuy.team
    exact ⟨tm, (hframe _ (by simp) (by simp)).trans htm⟩

variable (now) in
/-- **The statement of a purchase** finds the hint where it can be purchased. -/
lemma selectHintInfo_eq (hbuy : MayBuy cfg v user team h) :
    ∃ o, selectHintInfo cfg user h.id v now = .ok { val := o } ∧
      (o.isSome = true ↔ CanBuy cfg v now team h) ∧
        ∀ info, o = some info → info.team = team ∧ info.hint = h := by
  obtain ⟨p, r, hp, hr, hgame, hmember⟩ := hbuy.puzzle
  obtain ⟨tm, htm⟩ := hbuy.team
  obtain ⟨nickname, hnickname⟩ := hbuy.user
  have hid : p.id = h.puzzleId := by simpa using List.find?_some hp
  have hmember' : v (.teamMember user r.gameId) = some team :=
    (congrArg (fun g => v (.teamMember user g)) hgame).trans hmember
  have hrow : v (.teamPuzzle team p.id) = v (.teamPuzzle team h.puzzleId) :=
    congrArg (fun i => v (.teamPuzzle team i)) hid
  have hrelease' : cfg.effectiveRelease p.id = cfg.effectiveRelease h.puzzleId :=
    congrArg cfg.effectiveRelease hid
  refine ⟨_, rfl, ?_⟩
  simp only [hbuy.hint, hp, hr, hmember', htm, hnickname, hrow, hrelease', Option.bind_eq_bind,
    Option.bind_some]
  cases hrelease : cfg.effectiveRelease h.puzzleId with
  | none => simp [CanBuy, hrelease]
  | some releaseAt =>
    cases htp : v (.teamPuzzle team h.puzzleId) with
    | none => simp [CanBuy, hrelease, htp]
    | some tp =>
      have hcooled : (cooldownOrigin v team h tp releaseAt).any (fun instant =>
          decide (instant ≤ now - h.cooldown * 1000000)) =
            (cooldownUntil v team h tp releaseAt).any (· ≤ now) := by
        rw [cooldownUntil, Option.any_map]
        congr 1
        funext instant
        exact decide_eq_decide.2 (by omega)
      have hbought : (v (.teamHint team h.id)).getD false = (v (.teamHint team h.id)).any id := by
        cases v (.teamHint team h.id) <;> rfl
      simp only [Option.bind_some, hcooled, hbought]
      split_ifs with hcan
      · refine ⟨⟨fun _ => ?_, fun _ => rfl⟩, fun info hinfo => ?_⟩
        · obtain ⟨hstate, hat, hnot, henabled, hcooled⟩ := hcan
          exact ⟨tp, releaseAt, htp, hrelease, hstate, hat, by simpa using hnot, henabled, hcooled⟩
        · obtain rfl := Option.some.inj hinfo
          exact ⟨rfl, rfl⟩
      · refine ⟨⟨fun h => (by cases h), fun h => (hcan ?_).elim⟩, fun _ h => (by cases h)⟩
        obtain ⟨tp', releaseAt', htp', hrelease', hstate, hat, hnot, henabled, hcooled⟩ := h
        obtain rfl := Option.some.inj (htp.symm.trans htp')
        obtain rfl := Option.some.inj (hrelease.symm.trans hrelease')
        exact ⟨hstate, hat, by simpa using hnot, henabled, hcooled⟩

/-- The page and a purchase ask the same of the state of the team. -/
lemma hintFieldVisible_eq {state : Gate.RbPuzzleStates} (condition : Option String) :
    hintFieldVisible condition true (some state) false true true =
      hintPurchaseAvailable condition state true true := by
  cases condition <;> rfl

variable (columns) in
/-- A hint is among the rows of its puzzle where the team has the puzzle, and once. -/
lemma mem_hintShowRows (hkeys : (cfg.hints.map (·.id)).Nodup) (hh : h ∈ cfg.hints)
    {row : RbHintShowRow} :
    row ∈ hintShowRows cfg columns team h.puzzleId v now ∧ row.id = h.id ↔
      ∃ tp releaseAt, v (.teamPuzzle team h.puzzleId) = some tp ∧
        cfg.effectiveRelease h.puzzleId = some releaseAt ∧ 0 ≤ tp.state ∧ releaseAt ≤ now ∧
          row = hintShowRow columns team v now tp releaseAt h := by
  unfold hintShowRows
  split
  · rename_i tp releaseAt htp hrelease
    simp only [htp, hrelease, Option.some.injEq, exists_and_left, exists_eq_left']
    split_ifs with hcan
    · simp only [List.mem_map, List.mem_insertionSort, List.mem_filter, decide_eq_true_eq, hcan,
        true_and]
      constructor
      · rintro ⟨⟨h', ⟨hh', -⟩, rfl⟩, hid⟩
        obtain rfl : h' = h := List.inj_on_of_nodup_map hkeys hh' hh hid
        rfl
      · rintro rfl
        exact ⟨⟨h, ⟨hh, rfl⟩, rfl⟩, rfl⟩
    · simp only [List.not_mem_nil, false_and, false_iff]
      rintro ⟨hstate, hat, -⟩
      exact hcan ⟨hstate, hat⟩
  · rename_i hnot
    simp only [List.not_mem_nil, false_and, false_iff]
    rintro ⟨tp, releaseAt, htp, hrelease, -⟩
    exact hnot tp releaseAt htp hrelease

/-- **What the page offers** can be purchased, and the other way round. -/
lemma offers_iff (hkeys : (cfg.hints.map (·.id)).Nodup) (hh : h ∈ cfg.hints)
    {state : Gate.RbPuzzleStates} (hgate : gateOf cfg team v = some state) :
    (hintsView cfg columns team h.puzzleId v now).Offers h.id now ↔ CanBuy cfg v now team h ∧
      hintPurchaseAvailable h.displayCondition state true true = true := by
  rw [← hintFieldVisible_eq, RbPuzzleHintTeamData.Offers, hintsView, hgate]
  constructor
  · rintro ⟨⟨r, hr, hid, henabled, hcooled⟩, htexts⟩
    obtain ⟨row, hrow, rfl⟩ := List.mem_map.1 hr
    obtain ⟨hrow, hvisible⟩ := List.mem_filter.1 hrow
    obtain ⟨tp, releaseAt, htp, hrelease, hstate, hat, rfl⟩ :=
      (mem_hintShowRows columns hkeys hh).1 ⟨hrow, hid⟩
    have hbought : (v (.teamHint team h.id)).any id = false := by
      refine Bool.eq_false_iff.2 fun hbought => htexts h.show ?_ rfl
      have hreleased : cfg.released h.puzzleId now = true := by
        rw [Config.released, hrelease]
        exact decide_eq_true hat
      rw [hintTexts, if_pos (by rw [hreleased, htp]; exact decide_eq_true hstate)]
      exact List.mem_map_of_mem (List.mem_filter.2 ⟨hh, by simp [hbought]⟩)
    refine ⟨⟨tp, releaseAt, htp, hrelease, hstate, hat, hbought, henabled, hcooled⟩, ?_⟩
    change (pendingHint team v h).enabled = true at henabled
    change (cooldownUntil v team h tp releaseAt).any (· ≤ now) = true at hcooled
    change hintFieldVisible h.displayCondition true (some state) ((v (.teamHint team h.id)).any id)
      (pendingHint team v h).enabled ((cooldownUntil v team h tp releaseAt).any (· ≤ now)) = true
      at hvisible
    rwa [hbought, henabled, hcooled] at hvisible
  · rintro ⟨⟨tp, releaseAt, htp, hrelease, hstate, hat, hbought, henabled, hcooled⟩, hvisible⟩
    obtain ⟨hrow, -⟩ := (mem_hintShowRows columns hkeys hh).2
      ⟨tp, releaseAt, htp, hrelease, hstate, hat, rfl⟩
    refine ⟨⟨_, List.mem_map_of_mem (List.mem_filter.2 ⟨hrow, ?_⟩), rfl, henabled, hcooled⟩, ?_⟩
    · change hintFieldVisible h.displayCondition true (some state)
        ((v (.teamHint team h.id)).any id) (pendingHint team v h).enabled
        ((cooldownUntil v team h tp releaseAt).any (· ≤ now)) = true
      rwa [hbought, henabled, hcooled]
    · intro x hx hid
      rw [hintTexts] at hx
      split_ifs at hx
      · obtain ⟨h', hh', rfl⟩ := List.mem_map.1 hx
        obtain ⟨hh', hbuy⟩ := List.mem_filter.1 hh'
        obtain rfl : h' = h := List.inj_on_of_nodup_map hkeys hh' hh hid
        rw [hbought, Bool.and_false] at hbuy
        cases hbuy
      · cases hx

/-- `team_gate_state_conn` on connections of its own. -/
lemma teamGateStateConn_answers :
    Answers t (teamGateStateConn cfg (Tx.pool t .stmt) team) now v (.ok (gateOf cfg team v)) v := by
  refine Answers.bind (Answers.pool_read rfl) ?_
  rw [gateOf]
  cases v (.team team) with
  | none => exact Answers.pure none
  | some tm =>
    exact Answers.bind (Answers.pool_read rfl)
      (Answers.bind (Answers.pool_read rfl) (Answers.pure _))

/-- A purchase that goes through the checks is not told that the hint is not available. -/
lemma purchaseAvailable_never {info : HintPurchaseInfo} :
    Fallible.Never (purchaseAvailable cfg t user info) .unavailable := by
  refine Fallible.Never.bind fun data => ?_
  cases data with
  | none => exact Fallible.Never.pure PurchaseHintResult.noConfusion
  | some data =>
    refine Fallible.Never.bind fun _ => Fallible.Never.bind fun inserted => ?_
    cases inserted with
    | none => exact Fallible.Never.pure PurchaseHintResult.noConfusion
    | some inserted =>
      exact Fallible.Never.bind fun _ => Fallible.Never.pure PurchaseHintResult.noConfusion

variable (cfg columns t user team v now) in
/-- **A page offers what can be purchased**: on an idle store, a hint of a released puzzle that a
page of the team offers is one that a member's purchase at that instant does not find unavailable,
and the other way round. -/
theorem purchaseHint_offered (hkeys : (cfg.hints.map (·.id)).Nodup) (hh : h ∈ cfg.hints)
    (hreleased : cfg.released h.puzzleId now = true) (hbuy : MayBuy cfg v user team h) :
    ∃ view v', Answers t (syncHintCooldowns cfg columns t team h.puzzleId) now v (.ok view) v' ∧
      (view.Offers h.id now ↔
        ¬ ∃ w, Answers t (purchaseHint cfg t user h.id) now v (.ok .unavailable) w) := by
  obtain ⟨loaded, v', hrefresh, hloaded, hframe, -, -⟩ :=
    refreshTeamHintStatesLoaded_plays t team v hkeys hreleased
  refine ⟨_, v', syncHintCooldowns_answers hrefresh hloaded, ?_⟩
  have hbuy' := hbuy.of_frame hframe
  obtain ⟨o, hselect, hcan, hinfo⟩ := selectHintInfo_eq now hbuy'
  obtain ⟨state, hgate⟩ : ∃ state, gateOf cfg team v' = some state := by
    obtain ⟨tm, htm⟩ := hbuy'.team
    exact ⟨_, by rw [gateOf, htm, Option.map_some]⟩
  rw [offers_iff hkeys hh hgate, ← hcan]
  -- the call comes to the check of the state
  have htarget : Answers t (Tx.pool t .stmt (selectHintTarget cfg user h.id) : Call _) now v
      (.ok (some (team, h.puzzleId))) v := by
    refine Answers.pool_read ?_
    obtain ⟨p, r, hp, -, -, hmember⟩ := hbuy.puzzle
    simp [hbuy.hint, hp, hmember]
  have hconn : Answers t (refreshTeamHintStates cfg t team (some h.puzzleId)) now v (.ok ())
      v' := by
    refine Answers.committed (ReadCommitted.Plays.bind (b := ()) ?_ (ReadCommitted.Plays.pure _))
    rw [← refreshTeamHintStatesLoaded_unit]
    exact ReadCommitted.Plays.bind hrefresh (ReadCommitted.Plays.pure ())
  have hread : Answers t (Tx.pool t .stmt (selectHintInfo cfg user h.id) : Call _) now v' (.ok o)
      v' := by
    obtain ⟨b, hb, heq⟩ := Stmt.read_eq_ok.1 hselect
    obtain rfl : o = b := congrArg Effect.val heq
    exact Answers.pool_read hb
  cases o with
  | none =>
    refine ⟨fun h => (by cases h.1), fun hno => (hno ⟨v', ?_⟩).elim⟩
    exact htarget.bind (hconn.bind (hread.bind (Answers.pure _)))
  | some info =>
    obtain ⟨hteam, hhint⟩ := hinfo info rfl
    have hstate : Answers t (teamGateStateConn cfg (Tx.pool t .stmt) info.team) now v'
        (.ok (some state)) v' := by
      rw [hteam, ← hgate]
      exact teamGateStateConn_answers
    have hcondition : info.hint.displayCondition = h.displayCondition := by rw [hhint]
    by_cases hmet : hintPurchaseAvailable h.displayCondition state true true = true
    · refine iff_of_true ⟨rfl, hmet⟩ fun ⟨w, hw⟩ => ?_
      refine Misses.not_answers ?_ hw
      refine Misses.bind htarget (Misses.bind hconn (Misses.bind hread (Misses.bind hstate ?_)))
      dsimp only
      rw [hcondition, if_pos hmet]
      exact Misses.of_never purchaseAvailable_never
    · refine iff_of_false (fun h => hmet h.2) fun hno => hno ⟨v', ?_⟩
      refine htarget.bind (hconn.bind (hread.bind (hstate.bind ?_)))
      dsimp only
      rw [hcondition, if_neg hmet]
      exact Answers.pure _

/-- The hint has been displayed for a minute, to a team that user 7 is in. -/
def offeredRows : View := applyPuts [⟨.hintVisibility 1 1, some ⟨some 0, none⟩⟩,
  ⟨.teamMember 7 1, some 1⟩] lookedStore.committed

/-- The page offers the hint, and a member can purchase it. -/
theorem purchaseHint_offered_offeredRows : ∃ view v',
    Answers 0 (syncHintCooldowns cooldownGame (fun _ => ⟨0, none⟩) 0 1 1) 60000000 offeredRows
      (.ok view) v' ∧ view.Offers 1 60000000 ∧
      ¬ ∃ w, Answers 0 (purchaseHint cooldownGame 0 7 1) 60000000 offeredRows (.ok .unavailable)
        w := by
  obtain ⟨view, v', hview, hiff⟩ := purchaseHint_offered cooldownGame (fun _ => ⟨0, none⟩) 0 7 1
    offeredRows 60000000 (by decide) (List.mem_singleton_self _) (by decide)
    ⟨rfl, ⟨_, _, rfl, rfl, rfl, rfl⟩, ⟨_, rfl⟩, ⟨_, rfl⟩⟩
  obtain ⟨d', hd, -⟩ := hview _ (Quiet.init 0 60000000 _)
  have hplay : ((syncHintCooldowns cooldownGame (fun _ => ⟨0, none⟩) 0 1 1).run.alone
      (Db.init 60000000 offeredRows)).any (fun r => match r.1 with
        | .ok view => decide (view.Offers 1 60000000)
        | .error _ => false) = true := by decide +kernel
  rw [hd] at hplay
  have hoffers : view.Offers 1 60000000 := of_decide_eq_true hplay
  exact ⟨view, v', hview, hoffers, hiff.1 hoffers⟩

end Offers

end Play
