import RbphBackend.Play.Calls
import RbphBackend.Play.Traversal

set_option relaxedAutoImplicit false
set_option autoImplicit false

/-!
# The cooldowns a team is shown

`get_hints_show_for_team` refreshes the state of the hints of a puzzle and reads, in the same
transaction, what the team is shown of them, with the ends of their cooldowns. Such calls,
`refresh_team_hint_states`, `refresh_team_hint_enablements`, purchases and submissions run side by
side. Each of them may record the instant a cooldown counts from, on conditions that may have ceased
to hold.

## Main definitions

* `Play.refreshTeamHintEnablements` — `refresh_team_hint_enablements`.
* `Play.getHintsShowForTeam` — `get_hints_show_for_team`.
* `Play.HintCall`, `Play.hintPool` — the calls, and the pool that runs one call in each thread.
* `Play.TimestampsKept` — the instants of all hints stay.

## Main results

* `Play.cooldownUntil_stays` — where the recorded instants stay, so do the ends of the cooldowns.
* `Play.getHintsShowForTeam_triple` — a call shows rows that lie between those committed when it
  begins and those committed when it ends.
* `Play.cooldowns_of_reaches` — an end that has been shown does not move.
-/

namespace Play

open Concurrency ReadCommitted Numeric Database Currency

/-! ## Enabling hints -/

section Enablements

variable (cfg : Config) (t : Tid) (team : Id) (puzzle : Option Id)

/-- The hints of released puzzles the team has that wait for their condition, with it. -/
def selectPendingEnablements : Statement (List (Id × String)) :=
  .read fun v now => .ok <| (cfg.hints.filterMap fun h => h.enableCond.bind fun enableCond =>
    if cfg.released h.puzzleId now
        && (v (.teamPuzzle team h.puzzleId)).any (fun tp => decide (0 ≤ tp.state))
        && (v (.hintEnable team h.id)).isNone
        && !(v (.teamHint team h.id)).any id
        && puzzle.all (· = h.puzzleId) then
      some (h.id, enableCond)
    else none).insertionSort fun a b => a.1 ≤ b.1

/-- `refresh_team_hint_enablements_conn`. -/
def refreshTeamHintEnablementsConn : Call Unit := do
  let pending ← Tx.query t .stmt (selectPendingEnablements cfg team puzzle)
  if pending.isEmpty then return ()
  else
    match ← teamGateStateConn cfg (Tx.query t .stmt) team with
    | none => return ()
    | some state =>
      let enabled := (pending.filter fun h => condHolds state.states h.2).map (·.1)
      when (enabled ≠ []) (Tx.query t .stmt (insertHintEnables team enabled))

/-- `refresh_team_hint_enablements`. -/
def refreshTeamHintEnablements : Call Unit :=
  Tx.transaction t .stmt do
    refreshTeamHintEnablementsConn cfg t team puzzle
    return (true, ())

end Enablements

/-! ## Showing hints -/

/-- The columns of `rb_hint` that only this call reads. -/
structure HintColumns where
  sort : ℤ
  hiddenTitle : Option String

structure RbHintShowRow where
  id : Id
  title : String
  hiddenTitle : Option String
  cooldown : ℤ
  titleDisplayCondition : Option String
  displayCondition : Option String
  purchased : Bool
  enabled : Bool
  cooldownComplete : Bool
  cooldownUntil : Option ℤ
  costId : Option Id
  costAmount : BigInt

structure RbHintShowData where
  id : Id
  title : Option String
  cooldown : ℤ
  enabled : Bool
  cooldownUntil : Option ℤ
  costId : Option Id
  costAmount : BigInt
  deriving DecidableEq

/-- The instant a hint's cooldown ends. -/
def cooldownUntil (v : View) (team : Id) (h : Hint) (tp : TeamPuzzle) (releaseAt : ℤ) : Option ℤ :=
  (cooldownOrigin v team h tp releaseAt).map (· + h.cooldown * 1000000)

section Show

variable (cfg : Config) (columns : Id → HintColumns) (t : Tid) (team puzzle : Id)

/-- The row of a hint. -/
def hintShowRow (v : View) (now : ℤ) (tp : TeamPuzzle) (releaseAt : ℤ) (h : Hint) :
    RbHintShowRow where
  id := h.id
  title := h.title
  hiddenTitle := (columns h.id).hiddenTitle
  cooldown := h.cooldown
  titleDisplayCondition := h.titleDisplayCondition
  displayCondition := h.displayCondition
  purchased := (v (.teamHint team h.id)).any id
  enabled := h.enableCond.isNone || (v (.hintEnable team h.id)).isSome
  cooldownComplete := (cooldownUntil v team h tp releaseAt).any (· ≤ now)
  cooldownUntil := cooldownUntil v team h tp releaseAt
  costId := h.costId
  costAmount := h.costAmount

/-- The rows of the hints of a released puzzle the team has, in their order. -/
def hintShowRows (v : View) (now : ℤ) : List RbHintShowRow :=
  match v (.teamPuzzle team puzzle), cfg.effectiveRelease puzzle with
  | some tp, some releaseAt =>
    if 0 ≤ tp.state ∧ releaseAt ≤ now then
      ((cfg.hints.filter (·.puzzleId = puzzle)).insertionSort fun a b =>
        (columns a.id).sort < (columns b.id).sort ∨
          (columns a.id).sort = (columns b.id).sort ∧ a.id ≤ b.id).map
        (hintShowRow columns team v now tp releaseAt)
    else []
  | _, _ => []

def selectHintShowRows : Statement (List RbHintShowRow) :=
  .read fun v now => .ok (hintShowRows cfg columns team puzzle v now)

/-- `hint_field_visible`. -/
def hintFieldVisible (condition : Option String) (default : Bool)
    (state : Option Gate.RbPuzzleStates) (purchased enabled cooldownComplete : Bool) : Bool :=
  purchased || match condition, state with
    | none, _ => default
    | some _, none => false
    | some condition, some state =>
      hintDisplayConditionMet (some condition) default state enabled cooldownComplete

/-- What the team is shown of a hint. -/
def RbHintShowRow.show (state : Option Gate.RbPuzzleStates) (row : RbHintShowRow) :
    RbHintShowData where
  id := row.id
  title := if hintFieldVisible row.titleDisplayCondition row.cooldownComplete state row.purchased
      row.enabled row.cooldownComplete then some row.title else row.hiddenTitle
  cooldown := row.cooldown
  enabled := row.enabled
  cooldownUntil := row.cooldownUntil
  costId := row.costId
  costAmount := row.costAmount

/-- The hints that are visible. -/
def showHints (state : Option Gate.RbPuzzleStates) (rows : List RbHintShowRow) :
    List RbHintShowData :=
  (rows.filter fun row => hintFieldVisible row.displayCondition true state row.purchased row.enabled
    row.cooldownComplete).map (·.show state)

/-- Some row has a condition that is looked at. -/
def needsState (rows : List RbHintShowRow) : Bool :=
  rows.any fun row =>
    !row.purchased && (row.displayCondition.isSome || row.titleDisplayCondition.isSome)

/-- `refresh_team_hint_states_conn`, with the state of the team where it has loaded it. -/
def refreshTeamHintStatesLoaded (puzzle : Option Id) :
    Call (Option (Option Gate.RbPuzzleStates)) := do
  let pending ← Tx.query t .stmt (selectPendingHints cfg team puzzle)
  if pending.isEmpty then return none
  else
    match ← teamGateStateConn cfg (Tx.query t .stmt) team with
    | none => return some none
    | some state => do
      applyHintStates t team state pending
      return some (some state)

/-- It is `refresh_team_hint_states_conn`, but for what it returns. -/
lemma refreshTeamHintStatesLoaded_unit (puzzle : Option Id) :
    (refreshTeamHintStatesLoaded cfg t team puzzle >>= fun _ => return ()) =
      refreshTeamHintStatesConn cfg t team puzzle := by
  unfold refreshTeamHintStatesLoaded refreshTeamHintStatesConn
  rw [Fallible.bind_assoc]
  congr 1
  funext pending
  show (if _ then _ else _) >>= _ = if _ then _ else _
  split
  · rfl
  · rw [Fallible.bind_assoc]
    congr 1
    funext state
    cases state with
    | none => rfl
    | some state =>
      rw [Fallible.bind_assoc]
      exact Fallible.bind_pure (applyHintStates t team state pending)

/-- `load_team_gate_state_once`. -/
def loadTeamGateStateOnce (loaded : Option (Option Gate.RbPuzzleStates)) :
    Call (Option Gate.RbPuzzleStates) :=
  match loaded with
  | some state => return state
  | none => teamGateStateConn cfg (Tx.query t .stmt) team

/-- The transaction. -/
def getHintsShowBody : Call (Bool × List RbHintShowData) := do
  let loaded ← refreshTeamHintStatesLoaded cfg t team (some puzzle)
  let rows ← Tx.query t .stmt (selectHintShowRows cfg columns team puzzle)
  let state ← (if needsState rows then loadTeamGateStateOnce cfg t team loaded
    else pure loaded.join)
  return (true, showHints state rows)

/-- `get_hints_show_for_team`. -/
def getHintsShowForTeam : Call (List RbHintShowData) :=
  Tx.transaction t .stmt (getHintsShowBody cfg columns t team puzzle)

end Show

/-! ## The pool -/

inductive HintCall where
  | play (call : GameCall)
  | unlockNewPuzzles (team : Id)
  | refreshTeamHintStates (team : Id) (puzzle : Option Id)
  | refreshTeamHintEnablements (team : Id) (puzzle : Option Id)
  | getHintsShowForTeam (team puzzle : Id)

inductive HintResult where
  | played (result : GameResult)
  | unlocked (puzzles : List Id)
  | refreshed
  | shown (hints : List RbHintShowData)

/-- The program of a call. -/
def HintCall.run (cfg : Config) (columns : Id → HintColumns) (t : Tid) : HintCall → Call HintResult
  | play call => do
    let result ← call.run cfg t
    return .played result
  | unlockNewPuzzles team => do
    let puzzles ← Play.unlockNewPuzzles cfg t team
    return .unlocked puzzles
  | refreshTeamHintStates team puzzle => do
    Play.refreshTeamHintStates cfg t team puzzle
    return .refreshed
  | refreshTeamHintEnablements team puzzle => do
    Play.refreshTeamHintEnablements cfg t team puzzle
    return .refreshed
  | getHintsShowForTeam team puzzle => do
    let hints ← Play.getHintsShowForTeam cfg columns t team puzzle
    return .shown hints

/-- The pool that runs the calls on a store. -/
def hintPool (cfg : Config) (columns : Id → HintColumns) (calls : Tid → HintCall) (d : Store) :
    Concurrency.Config Label Store (Except String HintResult) :=
  ⟨d, fun t => ((calls t).run cfg columns t).run⟩

/-- Every hint's instants stay: when it was enabled, when it was first displayed, and its title. -/
def TimestampsKept (v w : View) : Prop :=
  ∀ team hint, Stays (v (.hintEnable team hint)) (w (.hintEnable team hint)) ∧
    Stays ((v (.hintVisibility team hint)).bind (·.displayedAt))
      ((w (.hintVisibility team hint)).bind (·.displayedAt)) ∧
    Stays ((v (.hintVisibility team hint)).bind (·.titleDisplayedAt))
      ((w (.hintVisibility team hint)).bind (·.titleDisplayedAt))

/-! ## The calls leave the recorded instants -/

section Grows

variable {cfg : Config} {columns : Id → HintColumns} {t : Tid} {team : Id}
  {Φ : ∀ {β : Type}, Call β → Prop}

lemma carries_grows : Carries t fun {_} (p : Call _) => Tx.Grows originOrder t p where
  pure := Tx.Grows.pure
  throw := Tx.Grows.throw
  bind := Tx.Grows.bind
  query h := Tx.Grows.query h.respects
  pool h := Tx.Grows.pool h.respects
  transaction := Tx.Grows.transaction
  recover := Tx.Grows.recover

/-- `refresh_team_hint_states_conn`, with what it has loaded. -/
lemma refreshTeamHintStatesLoaded_closed (hΦ : Closed Φ)
    (hq : ∀ {β : Type} (stmt : Statement β), IsQuiet stmt → Φ (Tx.query t .stmt stmt))
    {puzzle : Option Id} : Φ (refreshTeamHintStatesLoaded cfg t team puzzle) := by
  refine hΦ.bind (hq _ isQuiet_read) fun pending => ?_
  show Φ (if _ then _ else _)
  split
  · exact hΦ.pure _
  · refine hΦ.bind (teamGateStateConn_closed hΦ hq) fun state => ?_
    cases state with
    | none => exact hΦ.pure _
    | some state => exact hΦ.bind (applyHintStates_closed hΦ hq) fun _ => hΦ.pure _

/-- The state of the team, where it is needed. -/
lemma loadState_closed (hΦ : Closed Φ)
    (hq : ∀ {β : Type} (stmt : Statement β), IsQuiet stmt → Φ (Tx.query t .stmt stmt))
    {loaded : Option (Option Gate.RbPuzzleStates)} {b : Bool} :
    Φ (if b then loadTeamGateStateOnce cfg t team loaded else pure loaded.join) := by
  split
  · cases loaded with
    | none => exact teamGateStateConn_closed hΦ hq
    | some state => exact hΦ.pure _
  · exact hΦ.pure _

/-- `refresh_team_hint_enablements`. -/
lemma Carries.refreshTeamHintEnablements (h : Carries t Φ) {puzzle : Option Id} :
    Φ (refreshTeamHintEnablements cfg t team puzzle) := by
  refine h.transaction (h.bind (h.bind (h.query_quiet _ isQuiet_read) fun pending => ?_)
    fun _ => h.pure _)
  show Φ (if _ then _ else _)
  split
  · exact h.pure _
  · refine h.bind (teamGateStateConn_closed h.toClosed h.query_quiet) fun state => ?_
    cases state with
    | none => exact h.pure _
    | some state => exact h.when (h.query_quiet _ isQuiet_insertHintEnables)

/-- `get_hints_show_for_team`. -/
lemma Carries.getHintsShowForTeam (h : Carries t Φ) {puzzle : Id} :
    Φ (getHintsShowForTeam cfg columns t team puzzle) := by
  refine h.transaction (h.bind (refreshTeamHintStatesLoaded_closed h.toClosed h.query_quiet)
    fun loaded => h.bind (h.query_quiet _ isQuiet_read) fun rows => ?_)
  exact h.bind (loadState_closed h.toClosed h.query_quiet) fun state => h.pure _

/-- **Whatever a call does**, it leaves the recorded instants. -/
lemma HintCall.run_grows (call : HintCall) : Tx.Grows originOrder t (call.run cfg columns t) := by
  have h : Carries t fun {_} (p : Call _) => Tx.Grows originOrder t p := carries_grows
  cases call with
  | play call =>
    refine h.bind ?_ fun _ => h.pure _
    cases call with
    | submitAnswer user puzzle answer submitId => exact h.bind h.submitAnswer fun _ => h.pure _
    | purchaseHint user hint => exact h.bind h.purchaseHint fun _ => h.pure _
    | solveBackendPuzzle team user puzzle submission =>
      exact h.bind h.solveBackendPuzzle fun _ => h.pure _
    | refreshTeamUnlocksIfDirty team gameId =>
      exact h.bind h.refreshTeamUnlocksIfDirty fun _ => h.pure _
  | unlockNewPuzzles team => exact h.bind h.unlockNewPuzzles fun _ => h.pure _
  | refreshTeamHintStates team puzzle => exact h.bind h.refreshTeamHintStates fun _ => h.pure _
  | refreshTeamHintEnablements team puzzle =>
    exact h.bind h.refreshTeamHintEnablements fun _ => h.pure _
  | getHintsShowForTeam team puzzle => exact h.bind h.getHintsShowForTeam fun _ => h.pure _

end Grows

/-! ## The end of a cooldown -/

section Cooldown

variable {cfg : Config} {columns : Id → HintColumns} {team puzzle : Id} {v w : View} {now now' : ℤ}

/-- The instants of the hints, among the rows. -/
lemma timestampsKept_of_le (h : originOrder.Le v w) : TimestampsKept v w :=
  fun team hint => ⟨h (.hintEnable team hint), h (.hintVisibility team hint)⟩

/-- **Where the recorded instants stay**, so does the end of a cooldown, whichever instant it counts
from. -/
lemma cooldownUntil_stays (hle : originOrder.Le v w) {tp tp' : TeamPuzzle}
    (htp : v (.teamPuzzle team puzzle) = some tp) (htp' : w (.teamPuzzle team puzzle) = some tp')
    (h : Hint) (releaseAt : ℤ) :
    Stays (cooldownUntil v team h tp releaseAt) (cooldownUntil w team h tp' releaseAt) := by
  have horigin : Stays (cooldownOrigin v team h tp releaseAt)
      (cooldownOrigin w team h tp' releaseAt) := by
    obtain ⟨henable, hdisplay, htitle⟩ := timestampsKept_of_le hle team h.id
    have hctime : Stays ((v (.teamPuzzle team puzzle)).map (·.ctimeAt))
        ((w (.teamPuzzle team puzzle)).map (·.ctimeAt)) := hle (.teamPuzzle team puzzle)
    rw [htp, htp'] at hctime
    have hsame : tp'.ctimeAt = tp.ctimeAt := Option.some.inj (hctime _ rfl)
    unfold cooldownOrigin
    split
    · exact henable
    · exact hdisplay
    · exact htitle
    · rw [hsame]
      exact Stays.refl _
  intro i hi
  obtain ⟨origin, ho, rfl⟩ := Option.map_eq_some_iff.mp hi
  rw [cooldownUntil, horigin origin ho, Option.map_some]

/-- The rows that are shown are those of hints of the puzzle. -/
lemma mem_showHints {state : Option Gate.RbPuzzleStates} {r : RbHintShowData}
    (hr : r ∈ showHints state (hintShowRows cfg columns team puzzle v now)) :
    ∃ h ∈ cfg.hints, ∃ tp releaseAt, v (.teamPuzzle team puzzle) = some tp ∧
      cfg.effectiveRelease puzzle = some releaseAt ∧ r.id = h.id ∧
      r.cooldownUntil = cooldownUntil v team h tp releaseAt := by
  obtain ⟨row, hrow, rfl⟩ := List.mem_map.mp hr
  have hmem := (List.mem_filter.mp hrow).1
  unfold hintShowRows at hmem
  split at hmem
  · rename_i tp releaseAt htp hrelease
    split_ifs at hmem
    · obtain ⟨h, hh, rfl⟩ := List.mem_map.mp hmem
      have hh' := (List.mem_filter.mp ((List.mem_insertionSort _).mp hh)).1
      exact ⟨h, hh', tp, releaseAt, htp, hrelease, rfl, rfl⟩
    · cases hmem
  · cases hmem

/-- The end of the cooldown of a shown hint, as rows that have stayed or grown have it. -/
lemma showHints_stays (hkeys : (cfg.hints.map (·.id)).Nodup) (hle : originOrder.Le v w)
    {state state' : Option Gate.RbPuzzleStates} {r r' : RbHintShowData}
    (hr : r ∈ showHints state (hintShowRows cfg columns team puzzle v now))
    (hr' : r' ∈ showHints state' (hintShowRows cfg columns team puzzle w now'))
    (hid : r.id = r'.id) :
    Stays r.cooldownUntil r'.cooldownUntil := by
  obtain ⟨h, hh, tp, releaseAt, htp, hrelease, hrid, hruntil⟩ := mem_showHints hr
  obtain ⟨h', hh', tp', releaseAt', htp', hrelease', hrid', hruntil'⟩ := mem_showHints hr'
  obtain rfl : h = h' := List.inj_on_of_nodup_map hkeys hh hh' (hrid.symm.trans (hid.trans hrid'))
  obtain rfl := Option.some.inj (hrelease.symm.trans hrelease')
  rw [hruntil, hruntil']
  exact cooldownUntil_stays hle htp htp' h releaseAt

/-- Two shown ends of one cooldown are the same, where the rows of both have stayed or grown. -/
lemma showHints_agree (hkeys : (cfg.hints.map (·.id)).Nodup) {z : View} (hv : originOrder.Le v z)
    (hw : originOrder.Le w z) {state state' : Option Gate.RbPuzzleStates} {r r' : RbHintShowData}
    (hr : r ∈ showHints state (hintShowRows cfg columns team puzzle v now))
    (hr' : r' ∈ showHints state' (hintShowRows cfg columns team puzzle w now')) (hid : r.id = r'.id)
    {i i' : ℤ} (hi : r.cooldownUntil = some i) (hi' : r'.cooldownUntil = some i') : i' = i := by
  obtain ⟨h, hh, tp, releaseAt, htp, hrelease, hrid, hruntil⟩ := mem_showHints hr
  obtain ⟨h', hh', tp', releaseAt', htp', hrelease', hrid', hruntil'⟩ := mem_showHints hr'
  obtain rfl : h = h' := List.inj_on_of_nodup_map hkeys hh hh' (hrid.symm.trans (hid.trans hrid'))
  obtain rfl := Option.some.inj (hrelease.symm.trans hrelease')
  have hctime : Stays ((v (.teamPuzzle team puzzle)).map (·.ctimeAt))
      ((z (.teamPuzzle team puzzle)).map (·.ctimeAt)) := hv (.teamPuzzle team puzzle)
  rw [htp] at hctime
  obtain ⟨tpz, htpz, -⟩ := Option.map_eq_some_iff.mp (hctime _ rfl)
  have hz := cooldownUntil_stays hv htp htpz h releaseAt i (hruntil ▸ hi)
  have hz' := cooldownUntil_stays hw htp' htpz h releaseAt i' (hruntil' ▸ hi')
  exact Option.some.inj (hz'.symm.trans hz)

end Cooldown

/-! ## Runs -/

section Runs

variable {cfg : Config} {columns : Id → HintColumns} {t : Tid} {team puzzle : Id}
  {ok : Label → Store → Prop}

/-- What is shown is made of these rows. -/
def ShownFrom (cfg : Config) (columns : Id → HintColumns) (team puzzle : Id) (v : View)
    (hints : List RbHintShowData) : Prop :=
  ∃ state now, hints = showHints state (hintShowRows cfg columns team puzzle v now)

lemma closed_reads : Closed fun {_} (p : Call _) => originOrder.Reads t ok p fun _ _ => True where
  pure _ := .pure fun _ => trivial
  throw _ := .throw
  bind hp hk := hp.bind fun b => (hk b).mono fun _ _ _ => .inl trivial

/-- The rows are read once, after the refresh. -/
lemma getHintsShowBody_reads :
    originOrder.Reads t ok (getHintsShowBody cfg columns t team puzzle)
      fun v r => r.1 = true ∧ ShownFrom cfg columns team puzzle v r.2 := by
  have hq : ∀ {β : Type} (stmt : Statement β), IsQuiet stmt →
      originOrder.Reads t ok (Tx.query t .stmt stmt) fun _ _ => True :=
    fun _ hs => .query hs.origins.respects
  refine RowOrder.Reads.bind (refreshTeamHintStatesLoaded_closed closed_reads hq) fun loaded => ?_
  refine RowOrder.Reads.mono (S := fun v r => r.1 = true ∧ ShownFrom cfg columns team puzzle v r.2)
    (RowOrder.Reads.bind RowOrder.Reads.read fun rows => ?_) fun _ _ => .inl
  -- what follows the rows makes of them what is shown
  have hshow : originOrder.Reads t ok (do
      let state ← (if needsState rows then loadTeamGateStateOnce cfg t team loaded
        else pure loaded.join)
      return (true, showHints state rows) : Call (Bool × List RbHintShowData))
      fun _ r => r.1 = true ∧ ∃ state, r.2 = showHints state rows := by
    refine RowOrder.Reads.bind (loadState_closed closed_reads hq) fun state => ?_
    exact .pure fun _ => .inl ⟨rfl, state, rfl⟩
  refine hshow.mono fun u r hr => .inr fun u' hrows => ?_
  obtain ⟨now, hrows⟩ := hrows
  obtain ⟨hdone, state, hstate⟩ := hr
  exact ⟨hdone, state, now, by rw [hstate, Except.ok.inj hrows]⟩

/-- **What a call shows** lies between what was committed when it began and what is when it ends. -/
theorem getHintsShowForTeam_triple {v : View} (hok : ∀ l d, ok l d → originOrder.Above v d) :
    Prog.Triple (Rely originOrder.Rises t) ok (Plain fun _ d d' => Moves (fun _ => True) t d d')
      (fun _ => True) (getHintsShowForTeam cfg columns t team puzzle).run
      (Post (fun hints d => ∃ u, originOrder.Le v u ∧ originOrder.Le u d.committed ∧
        ShownFrom cfg columns team puzzle u hints) fun _ _ => True) :=
  RowOrder.transaction_triple hok getHintsShowBody_reads

/-- The result of a call, as a result of the pool. -/
def Shows (cfg : Config) (columns : Id → HintColumns) (v : View) (call : HintCall) :
    Except String HintResult → Store → Prop :=
  fun r d => ∀ team puzzle hints, call = .getHintsShowForTeam team puzzle → r = .ok (.shown hints) →
    ∃ u, originOrder.Le v u ∧ originOrder.Le u d.committed ∧
      ShownFrom cfg columns team puzzle u hints

lemma run_shows {v : View} (hok : ∀ l d, ok l d → originOrder.Above v d) {team puzzle : Id} :
    Prog.Triple (Rely originOrder.Rises t) ok (Plain fun _ d d' => Moves (fun _ => True) t d d')
      (fun _ => True) ((HintCall.getHintsShowForTeam team puzzle).run cfg columns t).run
      (Shows cfg columns v (.getHintsShowForTeam team puzzle)) := by
  have hstable : ∀ hints, Stable (Rely originOrder.Rises t) fun d : Store =>
      ∃ u, originOrder.Le v u ∧ originOrder.Le u d.committed ∧
        ShownFrom cfg columns team puzzle u hints := by
    rintro hints d d' ⟨u, hvu, hud, hu⟩ hr
    exact ⟨u, hvu, RowOrder.le_trans hud (RowOrder.le_of_rely hr), hu⟩
  refine Fallible.bind_triple (getHintsShowForTeam_triple hok) (fun _ _ _ _ h => h) (Rely.refl _ t)
    (fun e _ _ _ _ => ?_) fun hints => Fallible.pure_triple (hstable hints) fun d hd => ?_
  · rintro team' puzzle' hints' - ⟨⟩
  · rintro team' puzzle' hints' ⟨⟩ ⟨⟩
    exact hd

section Pool

variable {calls : Tid → HintCall} {d : Store}
  {c c' : Concurrency.Config Label Store (Except String HintResult)}

/-- What a thread has shown, of a call that begins where the run does. -/
lemma shown_of_reaches {v : View} (h : originOrder.Above v c.shared)
    (hc : ∀ u, (c.threads u).Steps (originOrder.Acts u)) {team puzzle : Id}
    (ht : calls t = .getHintsShowForTeam team puzzle)
    (hthread : c.threads t = ((calls t).run cfg columns t).run) (hr : Reaches Tick Always c c')
    {hints : List RbHintShowData} (ha : c'.threads t = .ret (.ok (.shown hints))) :
    ∃ u, originOrder.Le v u ∧ originOrder.Le u c'.shared.committed ∧
      ShownFrom cfg columns team puzzle u hints := by
  have htriple : Prog.Triple (Rely originOrder.Rises t)
      (fun l d => Always t l d ∧ originOrder.Above v d)
      (Plain fun _ d d' => Moves (fun _ => True) t d d') (fun _ => True)
      ((HintCall.getHintsShowForTeam team puzzle).run cfg columns t).run
      (Shows cfg columns v (.getHintsShowForTeam team puzzle)) := run_shows fun _ _ h => h.2
  have hsat := htriple c.shared trivial
  rw [← ht, ← hthread] at hsat
  exact RowOrder.result_of_reaches h hc hsat hr ha team puzzle hints ht rfl

/-- **Cooldowns that have been shown do not move.** Along every run, the instants of the hints stay.
What a call has shown by some point of the run, and what another call for the same puzzle has shown
by a later one, have the same ends; and a call that begins after that point shows every such end. -/
theorem cooldowns_of_reaches (hkeys : (cfg.hints.map (·.id)).Nodup) (hidle : d.Idle)
    (hr : Reaches Tick Always (hintPool cfg columns calls d) c) (hr' : Reaches Tick Always c c') :
    TimestampsKept c.shared.committed c'.shared.committed ∧
      ∀ t u team puzzle hints hints', calls t = .getHintsShowForTeam team puzzle →
        calls u = .getHintsShowForTeam team puzzle → c.threads t = .ret (.ok (.shown hints)) →
        c'.threads u = .ret (.ok (.shown hints')) → ∀ r ∈ hints, ∀ r' ∈ hints', r.id = r'.id →
        ∀ i, r.cooldownUntil = some i → (∀ i', r'.cooldownUntil = some i' → i' = i) ∧
          (c.threads u = ((calls u).run cfg columns u).run → r'.cooldownUntil = some i) := by
  have hsteps : ∀ u, ((hintPool cfg columns calls d).threads u).Steps (originOrder.Acts u) :=
    fun u => (calls u).run_grows
  have hstart : originOrder.Above d.committed (hintPool cfg columns calls d).shared :=
    .of_idle hidle
  have hc := RowOrder.above_of_reaches hstart hsteps hr
  have hc' := RowOrder.above_of_reaches ⟨hc.wf, hc.drafts, RowOrder.le_refl _⟩
    (steps_of_reaches hsteps hr) hr'
  refine ⟨timestampsKept_of_le hc'.le, ?_⟩
  intro t u team puzzle hints hints' ht hu ha ha' r hr₁ r' hr₂ hid i hi
  obtain ⟨x, -, hx, state, now, rfl⟩ := shown_of_reaches hstart hsteps ht rfl hr ha
  constructor
  · intro i' hi'
    obtain ⟨y, -, hy, state', now', rfl⟩ :=
      shown_of_reaches hstart hsteps hu rfl (hr.trans hr') ha'
    exact showHints_agree hkeys (RowOrder.le_trans hx hc'.le) hy hr₁ hr₂ hid hi hi'
  · intro hthread
    obtain ⟨y, hy, -, state', now', rfl⟩ :=
      shown_of_reaches ⟨hc.wf, hc.drafts, RowOrder.le_refl _⟩ (steps_of_reaches hsteps hr) hu
        hthread hr' ha'
    exact showHints_stays hkeys (RowOrder.le_trans hx hy) hr₁ hr₂ hid i hi

/-- A game of one puzzle, with a hint that cools down for a minute from when it is displayed. -/
def cooldownGame : Config where
  rounds := [⟨1, none, 0, 1, none⟩]
  puzzles := [⟨1, 1, none, 0, "a puzzle", 0, "", "", "", none, none, none, some 0, 1, false, 0, 0⟩]
  phases := []
  hints := [⟨1, "a hint", "its text", 0, 60, 2, none, 0, none, 1, none, none, none, []⟩]
  contentBlocks := []
  user _ := some "a user"
  doubles := Backend.integers
  backend _ := none
  currencyIds := []
  ticketIds := []
  judgeRules _ := .ok []
  penaltyRules _ := .ok []
  submitRequirements _ := .ok []
  toLowercase c := [c]

/-- Two members of the team look at the hints. -/
def lookers : Tid → HintCall := fun _ => .getHintsShowForTeam 1 1

/-- The team has the puzzle. -/
def lookedStore : Store := Db.init 0 (applyPuts [
  ⟨.team 1, some ⟨1, "a team", false, false, some 0, none, true⟩⟩,
  ⟨.teamPuzzle 1 1, some ⟨0, 0, 0, none, none⟩⟩] noRows)

/-- The hints a thread has been shown. -/
def shownBy (p : Prog Label Store (Except String HintResult)) : Option (List RbHintShowData) :=
  match p.result? with
  | some (.ok (.shown hints)) => some hints
  | _ => none

lemma eq_ret_of_shownBy {p : Prog Label Store (Except String HintResult)}
    {hints : List RbHintShowData} (h : shownBy p = some hints) : p = .ret (.ok (.shown hints)) := by
  unfold shownBy at h
  split at h
  · rename_i hints' hp
    rw [Prog.eq_ret_of_result? hp, Option.some.inj h]
  · cases h

/-- The second member looks half a minute after the first. -/
theorem cooldowns_of_reaches_lookers : ∃ c c' hints hints',
    Reaches Tick Always (hintPool cooldownGame (fun _ => ⟨0, none⟩) lookers lookedStore) c ∧
      Reaches Tick Always c c' ∧ c.threads 0 = .ret (.ok (.shown hints)) ∧
        c'.threads 1 = .ret (.ok (.shown hints')) ∧ hints.any (·.cooldownUntil = some 60000000) ∧
          ∀ r ∈ hints, ∀ r' ∈ hints', r.id = r'.id → ∀ i, r.cooldownUntil = some i →
            r'.cooldownUntil = some i := by
  have hplay : ((exec Always (hintPool cooldownGame (fun _ => ⟨0, none⟩) lookers lookedStore)
      (List.replicate 8 (.thread 0))).bind fun c =>
        (exec Always c ([.env (Db.tick 30000000)] ++ List.replicate 4 (.thread 1))).map (c, ·)).any
      (fun x => (shownBy (x.1.threads 0)).any (·.any (·.cooldownUntil = some 60000000)) &&
        (shownBy (x.2.threads 1)).isSome) = true := by
    decide +kernel
  obtain ⟨⟨c, c'⟩, hx, hshown⟩ := (Option.any_eq_true _ _).mp hplay
  obtain ⟨c₁, hc, hx⟩ := Option.bind_eq_some_iff.mp hx
  obtain ⟨c₂, hc', heq⟩ := Option.map_eq_some_iff.mp hx
  obtain ⟨rfl, rfl⟩ := Prod.mk.inj heq
  simp only [Bool.and_eq_true] at hshown
  obtain ⟨hints, hhints, hany⟩ := (Option.any_eq_true _ _).mp hshown.1
  obtain ⟨hints', hhints'⟩ := Option.isSome_iff_exists.mp hshown.2
  have hr : Reaches Tick Always
      (hintPool cooldownGame (fun _ => ⟨0, none⟩) lookers lookedStore) c₁ :=
    exec_reaches (by simp) hc
  have hr' : Reaches Tick Always c₁ c₂ := exec_reaches (by simp) hc'
  have hkept := (cooldowns_of_reaches (by decide) (Db.init_idle _ _) hr hr').2 0 1 1 1 hints hints'
    rfl rfl (eq_ret_of_shownBy hhints) (eq_ret_of_shownBy hhints')
  refine ⟨c₁, c₂, hints, hints', hr, hr', eq_ret_of_shownBy hhints, eq_ret_of_shownBy hhints', hany,
    ?_⟩
  intro r hr r' hr' hid i hi
  exact (hkept r hr r' hr' hid i hi).2 (exec_threads_of_notMem hc (by simp))

end Pool

end Runs

end Play
