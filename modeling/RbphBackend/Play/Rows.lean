import RbphBackend.Concurrency.Draft
import RbphBackend.Play.ContentBlocks
import RbphBackend.Play.Hint

set_option relaxedAutoImplicit false
set_option autoImplicit false

/-!
# What the calls of a game do to rows

A transaction of a call acts for one team. What it has done to the rows that matter is said by a few
marks, its deeds: whether it has stored a trigger, which puzzle it has solved, and so on. Everything
else a transaction does is calm: it leaves these rows as they are, up to the cooldown of a puzzle.

## Main definitions

* `Play.Deeds`, `Play.Row` — what a transaction has done, and what it means for each row.
* `Play.Calm`, `Play.IsCalm` — changes that do not matter, and statements that make only such.
* `Play.Evolves` — how rows change over any number of commits.
* `Play.GateSame`, `Play.BoardSame` — no change of what conditions see, of what the board ranks.

## Main results

* `Play.Row.calm` — a calm change adds nothing to the deeds.
* `Play.Row.evolves`, `Play.gateSame_of_row`, `Play.boardSame_of_row` — what follows from the deeds.
-/

namespace ReadCommitted

variable {K : Type} [DecidableEq K] {V : K → Type}

/-- What holds of every row that is written, and of a row that is not, holds after the writes. -/
lemma applyPuts_induction {q : (k : K) → V k → Prop} {puts : List (Σ k, V k)} {v : (k : K) → V k}
    (hputs : ∀ p ∈ puts, q p.1 p.2) (k : K) (hk : k ∉ puts.map (·.1) → q k (v k)) :
    q k (applyPuts puts v k) := by
  induction puts generalizing v with
  | nil => exact hk (by simp)
  | cons p ps ih =>
    rw [applyPuts_cons]
    refine ih (fun p' hp' => hputs p' (List.mem_cons_of_mem _ hp')) fun hnot => ?_
    by_cases hp : k = p.1
    · subst hp
      rw [Function.update_self]
      exact hputs p List.mem_cons_self
    · rw [Function.update_of_ne hp]
      exact hk (by simp [hp, hnot])

end ReadCommitted

namespace Play

open Concurrency ReadCommitted Numeric Database Currency

/-! ## What a team's rows say -/

/-- The team has started. -/
def isStarted (v : View) (team : Id) : Bool := (v (.team team)).any (·.startAt.isSome)

/-- The content blocks of the team are marked dirty; a team that does not exist counts as marked. -/
def isDirty (v : View) (team : Id) : Bool := (v (.team team)).all (·.contentBlocksDirty)

/-- What conditions see of a team is the same. -/
structure GateSame (team : Id) (v w : View) : Prop where
  solved : isSolved w team = isSolved v team
  triggers : isTriggered w team = isTriggered v team
  started : isStarted w team = isStarted v team

lemma GateSame.refl (team : Id) (v : View) : GateSame team v v := ⟨rfl, rfl, rfl⟩

/-- What the board ranks of a row of a puzzle. -/
def core (tp : TeamPuzzle) : ℤ × Option ℤ := (tp.state, tp.solveAt)

/-- What the board ranks of a team's puzzle; a puzzle the team does not have is not solved. -/
def ranked (v : View) (team puzzle : Id) : ℤ × Option ℤ :=
  ((v (.teamPuzzle team puzzle)).map core).getD (0, none)

/-- What the board ranks of a team is the same: its puzzles, when it started and finished. -/
structure BoardSame (team : Id) (v w : View) : Prop where
  puzzles : ranked w team = ranked v team
  team : (w (.team team)).map (fun tm => (tm.startAt, tm.finishAt)) =
    (v (.team team)).map fun tm => (tm.startAt, tm.finishAt)

/-- The puzzle of the team goes from state 0 to state 1. -/
def Solves (team puzzle : Id) (v w : View) : Prop :=
  (v (.teamPuzzle team puzzle)).any (fun tp => decide (tp.state = 0)) = true ∧
    (w (.teamPuzzle team puzzle)).any (fun tp => decide (tp.state = 1)) = true

instance (team puzzle : Id) (v w : View) : Decidable (Solves team puzzle v w) :=
  inferInstanceAs (Decidable (_ ∧ _))

/-- An event that is counted: a puzzle is solved, a hint is purchased. -/
def isNotable (ev : EventLogInput) : Bool :=
  ev.eventType = "puzzle.solved" || ev.eventType = "hint.purchased"

/-! ## Deeds -/

/-- What a transaction has done: it has stored a trigger, solved a puzzle, started the game, set the
end of the game, marked the team dirty, taken the mark down, closed the tickets of a puzzle, unlocked
a hint, locked the team's row, and logged these counted events. -/
structure Deeds where
  triggered : Bool := false
  solved : Option Id := none
  started : Bool := false
  finished : Bool := false
  marked : Bool := false
  cleaned : Bool := false
  closed : Option Id := none
  unlocked : Option Id := none
  locked : Bool := false
  logged : List EventLogInput := []

/-- What the deeds mean for the team's row. -/
structure TeamRow (f : Deeds) (tm tm' : Team) : Prop where
  game : tm'.gameId = tm.gameId
  start : if f.started = true then tm.startAt = none ∧ tm'.startAt ≠ none
    else tm'.startAt = tm.startAt
  finish : if f.finished = true then ∀ i, tm.finishAt = some i → tm'.finishAt = some i
    else tm'.finishAt = tm.finishAt
  kept : f.cleaned = false → tm.contentBlocksDirty = true → tm'.contentBlocksDirty = true
  marked : f.marked = true → tm'.contentBlocksDirty = true
  unmarked : f.marked = false → tm'.contentBlocksDirty = true → tm.contentBlocksDirty = true

/-- A row of a puzzle that is solved. -/
def SolvedRow (x y : Option TeamPuzzle) : Prop :=
  ∃ tp tp', x = some tp ∧ y = some tp' ∧ tp.state = 0 ∧ tp'.state = 1

/-- A ticket of team `a` that may be closed. -/
structure TicketRow (a : Id) (tk tk' : Ticket) : Prop where
  team : tk'.teamId = tk.teamId
  puzzle : tk'.puzzleId = tk.puzzleId
  state : tk'.state = tk.state ∨ tk.teamId = a ∧ tk'.state = 0

/-- What the deeds of a call for team `a` mean for a row, as far as it is told of `team`. -/
def Row (team a : Id) (f : Deeds) : (k : Key) → Val k → Val k → Prop
  | .team b, x, y => if b = a then a = team → Option.Rel (TeamRow f) x y else y = x
  | .teamPuzzle b p, x, y =>
    if b = a ∧ f.solved = some p then SolvedRow x y else y.map core = x.map core
  | .trigger b _ _, x, y => if b = a ∧ f.triggered = true then x ≠ none → y = x else y = x
  | .contentBlockUnlock b _, x, y => if b = a ∧ f.cleaned = true then x ≠ none → y = x else y = x
  | .ticket _, x, y => if f.closed = none then y = x else Option.Rel (TicketRow a) x y
  | .teamHint b h, x, y => if b = a ∧ f.unlocked = some h then y = some true else y = x
  | _, _, _ => True

/-- A change that does not matter. -/
def Calm : (k : Key) → Val k → Val k → Prop
  | .team _, x, y => y = x
  | .teamPuzzle .., x, y => y.map core = x.map core
  | .trigger .., x, y => y = x
  | .contentBlockUnlock .., x, y => y = x
  | .ticket _, x, y => y = x
  | .teamHint .., x, y => y = x
  | _, _, _ => True

/-- How a row changes over any number of commits. -/
def Evolves (team : Id) : (k : Key) → Val k → Val k → Prop
  | .team b, x, y => b = team → Option.Rel (fun tm tm' => tm'.gameId = tm.gameId ∧
      (∀ i, tm.startAt = some i → tm'.startAt = some i) ∧
      ∀ i, tm.finishAt = some i → tm'.finishAt = some i) x y
  | .teamPuzzle .., x, y => ∀ tp, x = some tp → ∃ tp', y = some tp' ∧
      (core tp' = core tp ∨ tp.state = 0 ∧ tp'.state = 1)
  | .trigger .., x, y => x ≠ none → y = x
  | .contentBlockUnlock .., x, y => x ≠ none → y = x
  | .teamHint .., x, y => x = some true → y = some true
  | _, _, _ => True

/-! ## Lemmas of rows -/

section Keys

variable {team a b p cb hint : Id} {key : String} {f : Deeds}

@[simp] lemma row_team {x y : Option Team} : Row team a f (.team b) x y ↔
    if b = a then a = team → Option.Rel (TeamRow f) x y else y = x := Iff.rfl

@[simp] lemma row_teamPuzzle {x y : Option TeamPuzzle} : Row team a f (.teamPuzzle b p) x y ↔
    if b = a ∧ f.solved = some p then SolvedRow x y else y.map core = x.map core := Iff.rfl

@[simp] lemma row_trigger {x y : Val (.trigger b p key)} : Row team a f (.trigger b p key) x y ↔
    if b = a ∧ f.triggered = true then x ≠ none → y = x else y = x := Iff.rfl

@[simp] lemma row_contentBlockUnlock {x y : Val (.contentBlockUnlock b cb)} :
    Row team a f (.contentBlockUnlock b cb) x y ↔
      if b = a ∧ f.cleaned = true then x ≠ none → y = x else y = x := Iff.rfl

@[simp] lemma row_ticket {x y : Option Ticket} : Row team a f (.ticket p) x y ↔
    if f.closed = none then y = x else Option.Rel (TicketRow a) x y := Iff.rfl

@[simp] lemma row_teamHint {x y : Val (.teamHint b hint)} : Row team a f (.teamHint b hint) x y ↔
    if b = a ∧ f.unlocked = some hint then y = some true else y = x := Iff.rfl

@[simp] lemma calm_team {x y : Option Team} : Calm (.team b) x y ↔ y = x := Iff.rfl

@[simp] lemma calm_teamPuzzle {x y : Option TeamPuzzle} :
    Calm (.teamPuzzle b p) x y ↔ y.map core = x.map core := Iff.rfl

@[simp] lemma calm_submissions {x y : Val (.submissions b p)} : Calm (.submissions b p) x y := trivial

@[simp] lemma calm_teamCurrency {x y : Val (.teamCurrency b p)} : Calm (.teamCurrency b p) x y :=
  trivial

lemma evolves_teamPuzzle {x y : Option TeamPuzzle} : Evolves team (.teamPuzzle b p) x y ↔
    ∀ tp, x = some tp → ∃ tp', y = some tp' ∧
      (core tp' = core tp ∨ tp.state = 0 ∧ tp'.state = 1) := Iff.rfl

end Keys

@[simp] lemma calm_refl (k : Key) (x : Val k) : Calm k x x := by
  cases k <;> first | rfl | trivial

lemma teamRow_refl (tm : Team) : TeamRow {} tm tm :=
  ⟨rfl, by simp, by simp, fun _ h => h, by simp, fun _ h => h⟩

lemma option_rel_refl {α : Type} {r : α → α → Prop} (h : ∀ a, r a a) (x : Option α) :
    Option.Rel r x x := by
  cases x with
  | none => exact .none
  | some a => exact .some (h a)

/-- Nothing has been done. -/
lemma row_refl (team a : Id) (k : Key) (x : Val k) : Row team a {} k x x := by
  cases k with
  | team b =>
    by_cases hb : b = a
    · simpa [hb] using fun _ => option_rel_refl teamRow_refl x
    · simp [hb]
  | _ => first | trivial | simp

/-- **A calm change adds nothing to the deeds.** -/
lemma Row.calm {team a : Id} {f : Deeds} {k : Key} {x y z : Val k} (h : Row team a f k x y)
    (hc : Calm k y z) : Row team a f k x z := by
  cases k with
  | teamPuzzle b p =>
    rw [calm_teamPuzzle] at hc
    rw [row_teamPuzzle] at h ⊢
    split_ifs at h ⊢
    · obtain ⟨tp, tp', rfl, rfl, hs, hs'⟩ := h
      obtain ⟨tp'', rfl, hcore⟩ := Option.map_eq_some_iff.mp hc
      exact ⟨tp, tp'', rfl, rfl, hs, (congrArg Prod.fst hcore).trans hs'⟩
    · exact hc.trans h
  | _ =>
    first
    | (obtain rfl : z = y := hc; exact h)
    | trivial

/-- The rows have evolved. -/
lemma Row.evolves {team a : Id} {f : Deeds} {k : Key} {x y : Val k} (h : Row team a f k x y) :
    Evolves team k x y := by
  cases k with
  | team b =>
    rw [row_team] at h
    rintro rfl
    split_ifs at h with hb
    · cases h hb.symm with
      | none => exact .none
      | @some tm tm' hr =>
        refine .some ⟨hr.game, fun i hi => ?_, fun i hi => ?_⟩
        · have hs := hr.start
          split_ifs at hs
          · rw [hs.1] at hi
            simp at hi
          · rw [hs, hi]
        · have hf := hr.finish
          split_ifs at hf
          · exact hf i hi
          · rw [hf, hi]
    · subst h
      exact option_rel_refl (fun _ => ⟨rfl, fun _ h => h, fun _ h => h⟩) y
  | teamPuzzle b p =>
    rw [row_teamPuzzle] at h
    rw [evolves_teamPuzzle]
    rintro tp rfl
    split_ifs at h
    · obtain ⟨tp₀, tp', hx, rfl, hs, hs'⟩ := h
      obtain rfl := Option.some.inj hx
      exact ⟨tp', rfl, .inr ⟨hs, hs'⟩⟩
    · obtain ⟨tp', rfl, hcore⟩ := Option.map_eq_some_iff.mp h
      exact ⟨tp', rfl, .inl hcore⟩
  | trigger b p key =>
    rw [row_trigger] at h
    intro hx
    split_ifs at h
    · exact h hx
    · exact h
  | contentBlockUnlock b cb =>
    rw [row_contentBlockUnlock] at h
    intro hx
    split_ifs at h
    · exact h hx
    · exact h
  | teamHint b hint =>
    rw [row_teamHint] at h
    intro hx
    split_ifs at h
    · exact h
    · rw [h, hx]
  | _ => trivial

lemma evolves_refl (team : Id) (k : Key) (x : Val k) : Evolves team k x x :=
  (row_refl team 0 k x).evolves

lemma Evolves.trans {team : Id} {k : Key} {x y z : Val k} (h : Evolves team k x y)
    (h' : Evolves team k y z) : Evolves team k x z := by
  cases k with
  | team b =>
    intro hb
    have hxy := h hb
    have hyz := h' hb
    cases hxy with
    | none => exact hyz
    | some hr =>
      cases hyz with
      | some hr' =>
        exact .some ⟨hr'.1.trans hr.1, fun i hi => hr'.2.1 i (hr.2.1 i hi),
          fun i hi => hr'.2.2 i (hr.2.2 i hi)⟩
  | teamPuzzle b p =>
    rw [evolves_teamPuzzle] at *
    intro tp hx
    obtain ⟨tp', hy, hr⟩ := h tp hx
    obtain ⟨tp'', hz, hr'⟩ := h' tp' hy
    refine ⟨tp'', hz, ?_⟩
    rcases hr with hr | ⟨h0, h1⟩
    · rcases hr' with hr' | ⟨h0, h1⟩
      · exact .inl (hr'.trans hr)
      · exact .inr ⟨(congrArg Prod.fst hr).symm.trans h0, h1⟩
    · rcases hr' with hr' | ⟨h0', h1'⟩
      · exact .inr ⟨h0, (congrArg Prod.fst hr').trans h1⟩
      · omega
  | trigger b p key =>
    intro hx
    have hy := h hx
    rw [← hy] at hx
    rw [h' hx, hy]
  | contentBlockUnlock b cb =>
    intro hx
    have hy := h hx
    rw [← hy] at hx
    rw [h' hx, hy]
  | teamHint b hint => exact fun hx => h' (h hx)
  | _ => trivial

section Rows

variable {a team : Id} {f : Deeds} {v w : View}

/-- What conditions see of a team is left by the calls of the others, and by those of its own that
store no trigger, solve nothing and start nothing. -/
lemma gateSame_of_row (h : ∀ k, Row team a f k (v k) (w k))
    (hf : a = team → f.triggered = false ∧ f.solved = none ∧ f.started = false) :
    GateSame team v w := by
  refine ⟨?_, ?_, ?_⟩
  · funext p
    have hp := h (.teamPuzzle team p)
    rw [row_teamPuzzle, if_neg (by rintro ⟨rfl, hs⟩; simp [(hf rfl).2.1] at hs)] at hp
    unfold isSolved
    cases hv : v (.teamPuzzle team p) with
    | none => rw [hv] at hp; rw [Option.map_eq_none_iff.mp hp]
    | some tp =>
      rw [hv] at hp
      obtain ⟨tp', hw, hcore⟩ := Option.map_eq_some_iff.mp hp
      have hstate : tp'.state = tp.state := congrArg Prod.fst hcore
      simp [hw, hstate]
  · funext key
    have hk := h (.trigger team key.1 key.2)
    rw [row_trigger, if_neg (by rintro ⟨rfl, hs⟩; simp [(hf rfl).1] at hs)] at hk
    unfold isTriggered
    rw [hk]
  · have ht := h (.team team)
    unfold isStarted
    rw [row_team] at ht
    split_ifs at ht with hteam
    · have hs := (hf hteam.symm).2.2
      replace ht := ht hteam.symm
      cases ht' : v (.team team) with
      | none =>
        rw [ht'] at ht
        cases hw : w (.team team) with
        | none => rfl
        | some tm' => rw [hw] at ht; cases ht
      | some tm =>
        rw [ht'] at ht
        cases hw : w (.team team) with
        | none => rw [hw] at ht; cases ht
        | some tm' =>
          rw [hw] at ht
          cases ht with
          | some hr =>
            have hst := hr.start
            rw [if_neg (by simp [hs])] at hst
            simp [hst]
    · rw [ht]

/-- What the board ranks of a team is left by the calls of the others, and by those of its own that
solve nothing, start nothing and do not set the end of the game. -/
lemma boardSame_of_row (h : ∀ k, Row team a f k (v k) (w k))
    (hf : a = team → f.solved = none ∧ f.started = false ∧ f.finished = false) :
    BoardSame team v w := by
  refine ⟨funext fun p => ?_, ?_⟩
  · have hp := h (.teamPuzzle team p)
    rw [row_teamPuzzle, if_neg (by rintro ⟨rfl, hs⟩; simp [(hf rfl).1] at hs)] at hp
    rw [ranked, ranked, hp]
  · have ht := h (.team team)
    rw [row_team] at ht
    split_ifs at ht with hteam
    · obtain ⟨-, hs, hfin⟩ := hf hteam.symm
      replace ht := ht hteam.symm
      cases hv : v (.team team) <;> cases hw : w (.team team) <;> rw [hv, hw] at ht
      · cases ht
      · cases ht
      · cases ht with
        | some hr =>
          have hst := hr.start
          have hfi := hr.finish
          rw [if_neg (by simp [hs])] at hst
          rw [if_neg (by simp [hfin])] at hfi
          simp [hst, hfi]
    · rw [ht]

/-- The mark of a team stays up unless a call of its own takes it down. -/
lemma isDirty_of_row (h : ∀ k, Row team a f k (v k) (w k)) (hf : a = team → f.cleaned = false)
    (hd : isDirty v team = true) : isDirty w team = true := by
  have ht := h (.team team)
  rw [row_team] at ht
  unfold isDirty at hd ⊢
  split_ifs at ht with hteam
  · replace ht := ht hteam.symm
    cases hv : v (.team team) <;> cases hw : w (.team team) <;> rw [hv, hw] at ht
    · rfl
    · cases ht
    · rfl
    · cases ht with
      | some hr =>
        rw [hv] at hd
        exact hr.kept (hf hteam.symm) hd
  · rwa [ht]

/-- A team that is marked is dirty. -/
lemma isDirty_of_marked (h : ∀ k, Row team team f k (v k) (w k)) (hf : f.marked = true) :
    isDirty w team = true := by
  have ht := h (.team team)
  rw [row_team, if_pos rfl] at ht
  replace ht := ht rfl
  unfold isDirty
  cases hw : w (.team team) with
  | none => rfl
  | some tm' =>
    cases hv : v (.team team) <;> rw [hv, hw] at ht <;> cases ht
    rename_i hr
    exact hr.marked hf

/-- A transaction solves the puzzle it says, and no other. -/
lemma solves_iff_of_row (h : ∀ k, Row team a f k (v k) (w k)) (p : Id) :
    Solves team p v w ↔ team = a ∧ f.solved = some p := by
  have hp := h (.teamPuzzle team p)
  rw [row_teamPuzzle] at hp
  constructor
  · rintro ⟨h0, h1⟩
    by_contra hne
    rw [if_neg hne] at hp
    cases hv : v (.teamPuzzle team p) with
    | none => simp [hv] at h0
    | some tp =>
      rw [hv] at hp h0
      obtain ⟨tp', hw, hcore⟩ := Option.map_eq_some_iff.mp hp
      have hstate : tp'.state = tp.state := congrArg Prod.fst hcore
      simp only [hw, Option.any_some, decide_eq_true_eq] at h0 h1
      omega
  · intro heq
    rw [if_pos heq] at hp
    obtain ⟨tp, tp', hv, hw, hs, hs'⟩ := hp
    exact ⟨by simp [hv, hs], by simp [hw, hs']⟩

end Rows

end Play
