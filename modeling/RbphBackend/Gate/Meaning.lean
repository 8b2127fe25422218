import Mathlib.Data.List.Perm.Basic
import RbphBackend.Gate.Builders

set_option relaxedAutoImplicit false
set_option autoImplicit false

/-!
# The meaning of a condition

Where conditions guard puzzles and hints, a round's own puzzle is not one of the round's puzzles;
where they guard content blocks it is. The builder for content blocks also leaves out what is not
of the game, and keeps ids as they are, where the others cut them to the range of an `i32`.

## Main definitions

* `Gate.OneMeaning` — every condition has the same value, whatever it guards.
* `Gate.Unaffected` — what this takes of the rounds and of the team's progress.

## Main results

* `Gate.oneMeaning_iff` — a condition has one meaning exactly for such progress.
-/

namespace Gate

open Release (RoundRow PuzzleRow)
open Expr (RawSexpr GateExpr)

/-! ## Texts of conditions -/

section Texts

/-- A text of a condition that compiles to it is accepted. -/
lemma compileGateExpr_print {s : RawSexpr} {e : GateExpr} (hs : s.Plain)
    (h : Expr.compileGate s = .ok e) : Expr.compileGateExpr (String.ofList s.print) = .ok e := by
  rw [Expr.compileGateExpr, Expr.compileText, Expr.parse_print hs]
  dsimp only
  rw [h]
  rfl

/-- The text of a number. -/
def numeral (n : ℕ) : RawSexpr := .atom (Nat.repr n)

/-- The atoms that are words. -/
def word (s : String) : RawSexpr := .atom s

lemma isWhitespace_of_isDigit {c : Char} (h : c.isDigit = true) :
    c ≠ '(' ∧ c ≠ ')' ∧ Expr.isWhitespace c = false := by
  have hrange : 48 ≤ c.toNat ∧ c.toNat ≤ 57 := by
    simpa [Char.isDigit, UInt32.le_iff_toNat_le] using h
  refine ⟨?_, ?_, ?_⟩
  · rintro rfl
    simp at hrange
  · rintro rfl
    simp at hrange
  · simp only [Expr.isWhitespace, Bool.or_eq_false_iff, Bool.and_eq_false_iff,
      decide_eq_false_iff_not]
    omega

lemma plain_numeral (n : ℕ) : (numeral n).Plain := by
  rw [numeral, RawSexpr.Plain, Nat.toList_repr]
  exact ⟨Nat.toDigits_ne_nil, fun c hc =>
    isWhitespace_of_isDigit (Nat.isDigit_of_mem_toDigits (by decide) (by decide) hc)⟩

lemma parseUnsigned_repr {bound n : ℕ} (h : n < bound) :
    Expr.parseUnsigned bound (Nat.repr n) = some n := by
  have hdigits : ∀ c ∈ Nat.toDigits 10 n, c.isDigit = true :=
    fun c hc => Nat.isDigit_of_mem_toDigits (by decide) (by decide) hc
  have hsign : (Nat.toDigits 10 n).head? ≠ some '+' := by
    intro hhead
    have hplus := hdigits '+' (List.mem_of_mem_head? hhead)
    exact absurd hplus (by decide)
  have hvalue : Nat.ofDigitChars 10 (Nat.toDigits 10 n) 0 = n :=
    Nat.ofDigitChars_toDigits (by decide) (by decide)
  rw [Expr.parseUnsigned, Nat.toList_repr]
  rw [if_neg hsign, hvalue, if_pos ⟨Nat.toDigits_ne_nil, List.all_eq_true.mpr hdigits, h⟩]

lemma parsePuzzleRef_numeral {n : ℕ} (h : n < 2 ^ 32) :
    Expr.parsePuzzleRef (numeral n) = .ok (.id n) := by
  unfold Expr.parsePuzzleRef
  simp only [numeral, Expr.atom, parseUnsigned_repr h, bind, Except.bind, pure, Except.pure]

lemma parseRoundRef_numeral {n : ℕ} (h : n < 2 ^ 32) :
    Expr.parseRoundRef (numeral n) = .ok (.id n) := by
  unfold Expr.parseRoundRef
  simp only [numeral, Expr.atom, parseUnsigned_repr h, bind, Except.bind, pure, Except.pure]

/-- `(solved id)`. -/
def solvedText (id : Id) : RawSexpr := .list [word "solved", numeral id]

/-- `(triggered id key)`. -/
def triggeredText (id : Id) (key : String) : RawSexpr :=
  .list [word "triggered", numeral id, word key]

/-- `(round id)`. -/
def roundText (id : Id) : RawSexpr := .list [word "round", numeral id]

/-- `(all-solved (round id))`. -/
def allSolvedText (id : Id) : RawSexpr := .list [word "all-solved", roundText id]

/-- `(eq (solved-count (round id)) (solved-count (puzzles ids)))`. -/
def countText (id : Id) (ids : List Id) : RawSexpr :=
  .list [word "eq", .list [word "solved-count", roundText id],
    .list [word "solved-count", .list (word "puzzles" :: ids.map numeral)]]

lemma compile_solvedText {id : Id} (h : id < 2 ^ 32) :
    Expr.compileGate (solvedText id) = .ok (.solved (.id id)) := by
  simp only [solvedText, word, Expr.compileGate, Expr.atom, parsePuzzleRef_numeral h]
  rfl

lemma compile_triggeredText {id : Id} (h : id < 2 ^ 32) {key : String}
    (hkey : Expr.validKey key = true) :
    Expr.compileGate (triggeredText id key) = .ok (.triggered (.id id) key) := by
  simp only [triggeredText, word, Expr.compileGate, Expr.atom, parsePuzzleRef_numeral h]
  show (if Expr.validKey key = true then _ else _ : Except Expr.CompileError GateExpr) = _
  rw [if_pos hkey]
  rfl

lemma compile_roundText {id : Id} (h : id < 2 ^ 32) :
    Expr.compileSet (roundText id) = .ok (.round (.id id)) := by
  simp only [roundText, word, Expr.compileSet, Expr.atom, parseRoundRef_numeral h]
  rfl

lemma compile_allSolvedText {id : Id} (h : id < 2 ^ 32) :
    Expr.compileGate (allSolvedText id) = .ok (.allSolved (.round (.id id))) := by
  simp only [allSolvedText, word, Expr.compileGate, Expr.atom, compile_roundText h]
  rfl

lemma mapM_parsePuzzleRef {ids : List Id} (h : ∀ id ∈ ids, id < 2 ^ 32) :
    (ids.map numeral).mapM Expr.parsePuzzleRef = .ok (ids.map Expr.PuzzleRef.id) := by
  induction ids with
  | nil => rfl
  | cons id ids ih =>
    rw [List.map_cons, List.mapM_cons, parsePuzzleRef_numeral (h id List.mem_cons_self),
      ih fun i hi => h i (List.mem_cons_of_mem id hi)]
    rfl

lemma compile_countText {id : Id} (h : id < 2 ^ 32) {ids : List Id} (hids : ∀ i ∈ ids, i < 2 ^ 32) :
    Expr.compileGate (countText id ids) = .ok (.cmp .eq (.solvedCount (.round (.id id)))
      (.solvedCount (.puzzles (ids.map Expr.PuzzleRef.id)))) := by
  have hround : Expr.compileValue (.list [word "solved-count", roundText id]) =
      .ok (.solvedCount (.round (.id id))) := by
    simp only [word, Expr.compileValue, Expr.atom, compile_roundText h]
    rfl
  have hset : Expr.compileSet (.list (word "puzzles" :: ids.map numeral)) =
      .ok (.puzzles (ids.map Expr.PuzzleRef.id)) := by
    simp only [word, Expr.compileSet, Expr.atom]
    show (do return Expr.SetExpr.puzzles (← (ids.map numeral).mapM Expr.parsePuzzleRef) :
      Except Expr.CompileError Expr.SetExpr) = _
    rw [mapM_parsePuzzleRef hids]
    rfl
  have hpuzzles : Expr.compileValue
      (.list [word "solved-count", .list (word "puzzles" :: ids.map numeral)]) =
      .ok (.solvedCount (.puzzles (ids.map Expr.PuzzleRef.id))) := by
    simp only [word, Expr.compileValue, Expr.atom]
    show (do
      let set ← Expr.compileSet (.list (word "puzzles" :: ids.map numeral))
      return Expr.ValueExpr.solvedCount set : Except Expr.CompileError Expr.ValueExpr) = _
    rw [hset]
    rfl
  simp only [countText, word, Expr.compileGate, Expr.atom]
  show (do
    let lhs ← Expr.compileValue (.list [word "solved-count", roundText id])
    let rhs ← Expr.compileValue
      (.list [word "solved-count", .list (word "puzzles" :: ids.map numeral)])
    return GateExpr.cmp .eq lhs rhs : Except Expr.CompileError GateExpr) = _
  rw [hround, hpuzzles]
  rfl

/-! ### They are texts -/

lemma plain_word {s : String} (hne : s.toList ≠ [])
    (hall : (s.toList.all fun c => c != '(' && c != ')' && !Expr.isWhitespace c) = true) :
    (word s).Plain := by
  refine ⟨hne, fun c hc => ?_⟩
  have h := List.all_eq_true.mp hall c hc
  simp only [Bool.and_eq_true, bne_iff_ne, Bool.not_eq_true'] at h
  exact ⟨h.1.1, h.1.2, h.2⟩

lemma plain_solvedText (id : Id) : (solvedText id).Plain :=
  ⟨plain_word nofun rfl, plain_numeral id, trivial⟩

lemma plain_roundText (id : Id) : (roundText id).Plain :=
  ⟨plain_word nofun rfl, plain_numeral id, trivial⟩

lemma plain_allSolvedText (id : Id) : (allSolvedText id).Plain :=
  ⟨plain_word nofun rfl, plain_roundText id, trivial⟩

lemma plain_numerals (ids : List Id) : RawSexpr.PlainOf (ids.map numeral) := by
  induction ids with
  | nil => trivial
  | cons id ids ih => exact ⟨plain_numeral id, ih⟩

lemma plain_countText (id : Id) (ids : List Id) : (countText id ids).Plain :=
  ⟨plain_word nofun rfl, ⟨plain_word nofun rfl, plain_roundText id, trivial⟩,
    ⟨plain_word nofun rfl, ⟨plain_word nofun rfl, plain_numerals ids⟩, trivial⟩, trivial⟩

/-- The characters of a key. -/
lemma plain_keyChar {c : Char} (h : (c.isAlphanum || c = '_' || c = '-') = true) :
    c ≠ '(' ∧ c ≠ ')' ∧ Expr.isWhitespace c = false := by
  have hrange : (48 ≤ c.toNat ∧ c.toNat ≤ 57) ∨ (65 ≤ c.toNat ∧ c.toNat ≤ 90) ∨
      (97 ≤ c.toNat ∧ c.toNat ≤ 122) ∨ c.toNat = 95 ∨ c.toNat = 45 := by
    have hα : c.isAlphanum = (decide (c.val ≥ 65 ∧ c.val ≤ 90) ||
        (decide (c.val ≥ 97) && decide (c.val ≤ 122)) || (decide (c.val ≥ 48) && decide (c.val ≤ 57))) := rfl
    simp only [hα, Bool.or_eq_true, Bool.and_eq_true, decide_eq_true_eq, UInt32.le_iff_toNat_le,
      ge_iff_le] at h
    rcases h with (((h | h) | h) | rfl) | rfl
    · exact .inr (.inl h)
    · exact .inr (.inr (.inl h))
    · exact .inl h
    · exact .inr (.inr (.inr (.inl rfl)))
    · exact .inr (.inr (.inr (.inr rfl)))
  refine ⟨?_, ?_, ?_⟩
  · rintro rfl
    simp at hrange
  · rintro rfl
    simp at hrange
  · simp only [Expr.isWhitespace, Bool.or_eq_false_iff, Bool.and_eq_false_iff,
      decide_eq_false_iff_not]
    omega

lemma plain_key {key : String} (h : Expr.validKey key = true) : (word key).Plain := by
  rw [word, RawSexpr.Plain]
  unfold Expr.validKey at h
  split at h
  · simp at h
  · rename_i c cs hcs
    rw [hcs]
    simp only [Bool.and_eq_true, List.all_eq_true] at h
    refine ⟨by simp, fun c' hc' => ?_⟩
    rcases List.mem_cons.mp hc' with rfl | hc'
    · refine plain_keyChar ?_
      simp [Char.isAlphanum, h.1.2]
    · exact plain_keyChar (h.2 c' hc')

lemma plain_triggeredText (id : Id) {key : String} (h : Expr.validKey key = true) :
    (triggeredText id key).Plain :=
  ⟨plain_word nofun rfl, plain_numeral id, plain_key h, trivial⟩

end Texts

/-! ## What is built for a team -/

variable {t : Tables} {team : TeamRow}

/-- The state built for the content blocks of a team. -/
def contentState (t : Tables) (team : TeamRow) : TeamContentStates :=
  teamStatesConn t team.id team.gameId team.startAt.isSome

/-- A state that one of the builders builds for the team. -/
inductive Built (t : Tables) (team : TeamRow) : Expr.PuzzleStates → Prop where
  | unlock {s : RbPuzzleStates} (h : unlockNewPuzzlesState t team.id = some s) :
      Built t team s.states
  | admin {puzzleId : Id} {s : RbPuzzleStates}
      (h : (team.id, s) ∈ adminUnlockStates t puzzleId team.gameId) : Built t team s.states
  | hint {s : RbPuzzleStates} (h : teamGateStateConn t team.id = some s) : Built t team s.states
  | content : Built t team (contentState t team).states

lemma built_iff (ht : t.WellFormed) (hteam : team ∈ t.teams) {s : Expr.PuzzleStates} :
    Built t team s ↔ s = (rbState t team).states ∨ s = (contentState t team).states := by
  constructor
  · intro h
    cases h with
    | unlock h =>
      rw [unlockNewPuzzlesState_eq ht hteam, Option.some.injEq] at h
      exact .inl (by rw [h])
    | admin h => exact .inl (by rw [eq_of_mem_adminUnlockStates ht hteam h])
    | hint h =>
      rw [teamGateStateConn_eq ht hteam, Option.some.injEq] at h
      exact .inl (by rw [h])
    | content => exact .inr rfl
  · rintro (rfl | rfl)
    · exact .hint (teamGateStateConn_eq ht hteam)
    · exact .content

/-- **A condition has one meaning**: every text that is accepted has the same value on all states
built for the team. -/
def OneMeaning (t : Tables) (team : TeamRow) : Prop :=
  ∀ expr e, Expr.compileGateExpr expr = .ok e → ∀ s s', Built t team s → Built t team s' →
    Expr.evalCompiled s e = Expr.evalCompiled s' e

/-- What the team has solved and triggered is of its game, and not the puzzle with the greatest id;
a round's own puzzle is not solved, and if it is not the only one of its round, then another one is
not solved either. -/
structure Unaffected (t : Tables) (team : TeamRow) : Prop where
  solved : ∀ id ∈ solvedIds t team.id, id ≠ i32Max ∧ inGame t team.gameId id = true
  triggered : ∀ e ∈ triggerKeys t team.id, e.1 ≠ i32Max ∧ inGame t team.gameId e.1 = true
  ownPuzzle : ∀ r ∈ t.rounds, ∀ p ∈ t.puzzles, r.gameId = team.gameId → p.roundId = r.id →
    r.puzzle = some p.id → p.id ∉ solvedIds t team.id ∧
      ((∀ q ∈ t.puzzles, q.roundId = r.id → q.id = p.id) ∨
        ∃ q ∈ t.puzzles, q.roundId = r.id ∧ q.id ≠ p.id ∧ q.id ∉ solvedIds t team.id)

/-! ### Solved puzzles and triggers -/

lemma toI32_of_lt {id : Id} (h : id < 2 ^ 31) : toI32 id = id := if_pos (Nat.le_of_lt_succ h)

lemma toI32_of_le {id : Id} (h : 2 ^ 31 ≤ id) : toI32 id = i32Max := if_neg (Nat.not_le.mpr h)

lemma lt_of_mem_solvedIds (ht : t.WellFormed) {id teamId : Id} (h : id ∈ solvedIds t teamId) :
    id < 2 ^ 31 := by
  obtain ⟨row, hrow, rfl⟩ := List.mem_map.mp h
  exact ht.teamPuzzleRange row (List.mem_of_mem_filter hrow)

lemma lt_of_mem_triggerKeys (ht : t.WellFormed) {e : Id × String} {teamId : Id}
    (h : e ∈ triggerKeys t teamId) : e.1 < 2 ^ 31 ∧ Expr.validKey e.2 = true := by
  obtain ⟨row, hrow, rfl⟩ := List.mem_map.mp h
  exact ⟨ht.triggerRange row (List.mem_of_mem_filter hrow),
    ht.triggerKey row (List.mem_of_mem_filter hrow)⟩

/-- Cutting ids to the range of an `i32` finds nothing new where the greatest one is not there. -/
lemma mem_toI32_iff {α : Type} {l : List α} {f : Id → α} (hf : ∀ id, f id ∈ l → id < 2 ^ 31)
    (hmax : f i32Max ∉ l) (id : Id) : f (toI32 id) ∈ l ↔ f id ∈ l := by
  rcases Nat.lt_or_ge id (2 ^ 31) with hlt | hge
  · rw [toI32_of_lt hlt]
  · rw [toI32_of_le hge]
    exact ⟨fun h => absurd h hmax, fun h => absurd (hf id h) (Nat.not_lt.mpr hge)⟩

lemma isSolved_eq (ht : t.WellFormed) (h : Unaffected t team) :
    (rbState t team).states.isSolved = (contentState t team).states.isSolved := by
  funext id
  show (solvedIds t team.id).contains (toI32 id) =
    ((solvedIds t team.id).filter (inGame t team.gameId)).contains id
  rw [List.filter_eq_self.mpr fun id hid => (h.solved id hid).2, Bool.eq_iff_iff,
    List.contains_iff_mem, List.contains_iff_mem]
  exact mem_toI32_iff (f := fun id => id) (fun id => lt_of_mem_solvedIds ht)
    (fun hmax => (h.solved _ hmax).1 rfl) id

lemma isTriggered_eq (ht : t.WellFormed) (h : Unaffected t team) :
    (rbState t team).states.isTriggered = (contentState t team).states.isTriggered := by
  funext id key
  show (triggerKeys t team.id).contains (toI32 id, key) =
    ((triggerKeys t team.id).filter fun e => inGame t team.gameId e.1).contains (id, key)
  rw [List.filter_eq_self.mpr fun e he => (h.triggered e he).2, Bool.eq_iff_iff,
    List.contains_iff_mem, List.contains_iff_mem]
  exact mem_toI32_iff (f := fun id => (id, key)) (fun id hid => (lt_of_mem_triggerKeys ht hid).1)
    (fun hmax => (h.triggered _ hmax).1 rfl) id

/-! ### Slugs -/

lemma mem_slugEntries {ρ : Type} {slug : ρ → Option String} {id : ρ → Id} {rows : List ρ}
    {e : String × Id} :
    e ∈ slugEntries slug id rows ↔ ∃ row ∈ rows, slug row = some e.1 ∧ id row = e.2 := by
  obtain ⟨s, i⟩ := e
  simp only [slugEntries, List.mem_filterMap, Option.map_eq_some_iff, Prod.mk.injEq]
  constructor
  · rintro ⟨row, hrow, s', hs, rfl, rfl⟩
    exact ⟨row, hrow, hs, rfl⟩
  · rintro ⟨row, hrow, hs, rfl⟩
    exact ⟨row, hrow, s, hs, rfl, rfl⟩

lemma mem_puzzleRows {keep : PuzzleRow × RoundRow → Bool} {row : PuzzleRow × RoundRow} :
    row ∈ puzzleRows t.rounds t.puzzles keep ↔ (row.1 ∈ t.puzzles ∧ row.2 ∈ t.rounds ∧
      row.2.id = row.1.roundId) ∧ keep row = true := by
  rw [puzzleRows, (List.perm_insertionSort _ _).mem_iff, List.mem_filter, mem_joinRounds]

lemma puzzleSlug_eq (ht : t.WellFormed) :
    (rbState t team).states.puzzleSlug = (contentState t team).states.puzzleSlug := by
  refine hashMap_eq_of_mem_iff (fun e => ?_) fun s v w hv hw => ?_
  · rw [mem_slugEntries, mem_slugEntries]
    constructor
    · rintro ⟨row, hrow, hs, hid⟩
      obtain ⟨⟨hp, -, -⟩, hgame⟩ := mem_puzzleRows.mp hrow
      exact ⟨row.1, List.mem_filter.mpr ⟨hp, hgame⟩, hs, hid⟩
    · rintro ⟨p, hp, hs, hid⟩
      obtain ⟨hp, hgame⟩ := List.mem_filter.mp hp
      obtain ⟨r, hr, hrid, -⟩ := ht.puzzleRound p hp
      exact ⟨(p, r), mem_puzzleRows.mpr ⟨⟨hp, hr, hrid⟩, hgame⟩, hs, hid⟩
  · obtain ⟨row, hrow, hs, rfl⟩ := mem_slugEntries.mp hv
    obtain ⟨row', hrow', hs', rfl⟩ := mem_slugEntries.mp hw
    obtain ⟨⟨hp, -, -⟩, hgame⟩ := mem_puzzleRows.mp hrow
    obtain ⟨⟨hp', -, -⟩, hgame'⟩ := mem_puzzleRows.mp hrow'
    refine ht.puzzleSlug row.1 hp row'.1 hp' ?_ (by simp [hs]) (hs.trans hs'.symm)
    rw [decide_eq_true_eq] at hgame hgame'
    exact hgame.trans hgame'.symm

/-! ### The puzzles of a round -/

/-- The puzzle is the own puzzle of its round. -/
def isOwn (t : Tables) (p : PuzzleRow) : Bool :=
  t.rounds.any fun r => r.id = p.roundId ∧ r.puzzle = some p.id

/-- The puzzles of a round of the game. -/
def puzzlesOf (t : Tables) (gameId roundId : Id) : List PuzzleRow :=
  t.puzzles.filter fun p => p.gameId = gameId ∧ p.roundId = roundId

/-- A list that is not there when it is empty. -/
def orNone (ids : List Id) : Option (List Id) := if ids.isEmpty then none else some ids

lemma isOwn_iff (ht : t.WellFormed) {p : PuzzleRow} {r : RoundRow} (hr : r ∈ t.rounds)
    (hid : r.id = p.roundId) : isOwn t p = true ↔ r.puzzle = some p.id := by
  rw [isOwn, List.any_eq_true]
  constructor
  · rintro ⟨r', hr', h⟩
    rw [decide_eq_true_eq] at h
    obtain rfl : r' = r := eq_of_id_eq ht.rounds hr' hr (h.1.trans hid.symm)
    exact h.2
  · exact fun h => ⟨r, hr, by simp [hid, h]⟩

lemma mem_puzzlesOf {gameId roundId : Id} {p : PuzzleRow} : p ∈ puzzlesOf t gameId roundId ↔
    p ∈ t.puzzles ∧ p.gameId = gameId ∧ p.roundId = roundId := by
  rw [puzzlesOf, List.mem_filter, decide_eq_true_eq]

lemma orNone_map {α : Type} (l : List α) (f : α → Id) :
    (if l.isEmpty then none else some (l.map f)) = orNone (l.map f) := by
  cases l <;> rfl

/-- The puzzles of a round, where its own puzzle is left out. -/
lemma rb_roundPuzzles (team : TeamRow) (ht : t.WellFormed) (roundId : Id) :
    ∃ ids, (rbState t team).roundPuzzles roundId = orNone ids ∧
      ids.Perm (((puzzlesOf t team.gameId roundId).filter fun p => !isOwn t p).map (·.id)) := by
  refine ⟨_, (pushAll_eq _ roundId).trans (orNone_map _ _), ?_⟩
  have hperm := List.perm_insertionSort (fun a b => rowKey a ≤ rowKey b)
    ((joinRounds t.rounds t.puzzles).filter fun row => row.1.gameId = team.gameId)
  have hjoined : ((((joinRounds t.rounds t.puzzles).filter fun row =>
      row.1.gameId = team.gameId).filter fun row => row.2.puzzle ≠ some row.1.id).map
        fun row => (row.1.roundId, row.1.id)) =
      (((t.puzzles.filter fun p => p.gameId = team.gameId).filter fun p => !isOwn t p).map
        fun p => (p.roundId, p.id)) := by
    have hown : ∀ row ∈ (joinRounds t.rounds t.puzzles).filter fun row =>
        row.1.gameId = team.gameId, decide (row.2.puzzle ≠ some row.1.id) = !isOwn t row.1 := by
      intro row hrow
      obtain ⟨-, hr, hid⟩ := mem_joinRounds.mp (List.mem_of_mem_filter hrow)
      rw [Bool.eq_iff_iff, decide_eq_true_eq, Bool.not_eq_true', ← Bool.not_eq_true,
        isOwn_iff ht hr hid]
    rw [List.filter_congr hown]
    conv_rhs => rw [← joinRounds_map_fst ht, List.filter_map, List.filter_map, List.map_map]
    rfl
  have hfinal : ((((t.puzzles.filter fun p => p.gameId = team.gameId).filter fun p =>
      !isOwn t p).map fun p => (p.roundId, p.id)).filter fun e => e.1 = roundId).map (·.2) =
      ((puzzlesOf t team.gameId roundId).filter fun p => !isOwn t p).map (·.id) := by
    rw [List.filter_map, List.map_map, puzzlesOf, List.filter_filter, List.filter_filter,
      List.filter_filter]
    congr 1
    refine List.filter_congr fun p _ => ?_
    simp only [Function.comp_apply, Bool.decide_and]
    cases isOwn t p with
    | false => simp [Bool.and_comm]
    | true => simp
  rw [← hfinal, ← hjoined]
  exact ((((hperm.filter _).map _).filter _).map _)

/-- The puzzles of a round, its own among them. -/
lemma content_roundPuzzles (roundId : Id) : (contentState t team).roundPuzzles roundId =
    orNone ((puzzlesOf t team.gameId roundId).map (·.id)) := by
  refine (pushAll_eq _ roundId).trans ((orNone_map _ _).trans ?_)
  rw [List.filter_map, List.map_map, List.filter_filter, puzzlesOf]
  congr 2
  refine List.filter_congr fun p _ => ?_
  simp [Bool.and_comm]

section OrNone

variable {ids : List Id} {f : Id → Bool}

lemma orNone_all : ((orNone ids).any fun ids => ids.all f) = (!ids.isEmpty && ids.all f) := by
  cases ids <;> rfl

lemma orNone_any : ((orNone ids).any fun ids => ids.any f) = ids.any f := by
  cases ids <;> rfl

lemma orNone_getD : (orNone ids).getD [] = ids := by
  cases ids <;> rfl

end OrNone

/-- Where a round's own puzzle is not solved, the solved puzzles of the round are the same. -/
lemma filter_solved_eq {gameId roundId : Id} {f : Id → Bool}
    (hown : ∀ p ∈ puzzlesOf t gameId roundId, isOwn t p = true → f p.id = false) :
    (((puzzlesOf t gameId roundId).filter fun p => !isOwn t p).map (·.id)).filter f =
      ((puzzlesOf t gameId roundId).map (·.id)).filter f := by
  rw [List.filter_map, List.filter_map, List.filter_filter]
  congr 1
  refine List.filter_congr fun p hp => ?_
  cases hf : f p.id with
  | false => simp [hf]
  | true =>
    have hno : isOwn t p = false := by
      cases ho : isOwn t p with
      | false => rfl
      | true => exact absurd (hown p hp ho) (by simp [hf])
    simp [hf, hno]

/-- The own puzzle of a round is one puzzle. -/
lemma own_unique (ht : t.WellFormed) {gameId roundId : Id} {p q : PuzzleRow}
    (hp : p ∈ puzzlesOf t gameId roundId) (hq : q ∈ puzzlesOf t gameId roundId)
    (hpo : isOwn t p = true) (hqo : isOwn t q = true) : q.id = p.id := by
  obtain ⟨hpm, -, hpr⟩ := mem_puzzlesOf.mp hp
  obtain ⟨-, -, hqr⟩ := mem_puzzlesOf.mp hq
  obtain ⟨r, hr, hid, -⟩ := ht.puzzleRound p hpm
  have hp' := (isOwn_iff ht hr hid).mp hpo
  have hq' := (isOwn_iff ht hr (hid.trans (hpr.trans hqr.symm))).mp hqo
  exact Option.some.inj (hq'.symm.trans hp')

lemma Unaffected.own (h : Unaffected t team) (ht : t.WellFormed) {roundId : Id} {p : PuzzleRow}
    (hp : p ∈ puzzlesOf t team.gameId roundId) (ho : isOwn t p = true) :
    p.id ∉ solvedIds t team.id ∧ ((∀ q ∈ t.puzzles, q.roundId = roundId → q.id = p.id) ∨
      ∃ q ∈ t.puzzles, q.roundId = roundId ∧ q.id ≠ p.id ∧ q.id ∉ solvedIds t team.id) := by
  obtain ⟨hpm, hgame, hpr⟩ := mem_puzzlesOf.mp hp
  obtain ⟨r, hr, hid, hrg⟩ := ht.puzzleRound p hpm
  have hown := h.ownPuzzle r hr p hpm (hrg.trans hgame) hid.symm ((isOwn_iff ht hr hid).mp ho)
  rwa [hid, hpr] at hown

/-- A puzzle of a round of the game is of the game. -/
lemma mem_puzzlesOf_of_roundId (ht : t.WellFormed) {gameId roundId : Id} {p q : PuzzleRow}
    (hp : p ∈ puzzlesOf t gameId roundId) (hq : q ∈ t.puzzles) (hqr : q.roundId = roundId) :
    q ∈ puzzlesOf t gameId roundId := by
  obtain ⟨hpm, hgame, hpr⟩ := mem_puzzlesOf.mp hp
  obtain ⟨r, hr, hid, hrg⟩ := ht.puzzleRound p hpm
  obtain ⟨r', hr', hid', hrg'⟩ := ht.puzzleRound q hq
  obtain rfl : r = r' := eq_of_id_eq ht.rounds hr hr' (by rw [hid, hid', hpr, hqr])
  exact mem_puzzlesOf.mpr ⟨hq, hrg'.symm.trans (hrg.trans hgame), hqr⟩

/-- **The builders agree** where the team's progress is unaffected. -/
theorem agree_of_unaffected (ht : t.WellFormed) (h : Unaffected t team) :
    Expr.Agree (rbState t team).states (contentState t team).states := by
  have hsolved := isSolved_eq ht h
  have hunsolved : ∀ p ∈ t.puzzles, p.id ∉ solvedIds t team.id →
      (contentState t team).states.isSolved p.id = false := by
    intro p hp hno
    show ((solvedIds t team.id).filter _).contains p.id = false
    rw [← Bool.not_eq_true, List.contains_iff_mem]
    exact fun hm => hno (List.mem_of_mem_filter hm)
  have hown : ∀ roundId, ∀ p ∈ puzzlesOf t team.gameId roundId, isOwn t p = true →
      (contentState t team).states.isSolved p.id = false :=
    fun roundId p hp ho => hunsolved p (mem_puzzlesOf.mp hp).1 (h.own ht hp ho).1
  constructor
  case isSolved => exact hsolved
  case puzzleSlug => exact puzzleSlug_eq ht
  case roundSlug => rfl
  case gameStarted => rfl
  case isTriggered => exact isTriggered_eq ht h
  case roundCount =>
    intro roundId
    obtain ⟨ids, hids, hperm⟩ := rb_roundPuzzles team ht roundId
    show (((rbState t team).roundPuzzles roundId).getD [] |>.filter _).length =
      (((contentState t team).roundPuzzles roundId).getD [] |>.filter _).length
    rw [hids, content_roundPuzzles, orNone_getD, orNone_getD, hsolved,
      (hperm.filter _).length_eq, filter_solved_eq (hown roundId)]
  case roundAny =>
    intro roundId
    obtain ⟨ids, hids, hperm⟩ := rb_roundPuzzles team ht roundId
    show (((rbState t team).roundPuzzles roundId).any fun ids =>
        ids.any (rbState t team).states.isSolved) =
      ((contentState t team).roundPuzzles roundId).any fun ids =>
        ids.any (contentState t team).states.isSolved
    rw [hids, content_roundPuzzles, orNone_any, orNone_any, hsolved, hperm.any_eq,
      Bool.eq_iff_iff, List.any_eq_true, List.any_eq_true]
    constructor
    · rintro ⟨id, hid, hs⟩
      exact ⟨id, ((List.filter_sublist.map _).subset hid), hs⟩
    · rintro ⟨id, hid, hs⟩
      have hmem : id ∈ ((puzzlesOf t team.gameId roundId).map (·.id)).filter
          (contentState t team).states.isSolved := List.mem_filter.mpr ⟨hid, hs⟩
      rw [← filter_solved_eq (hown roundId)] at hmem
      exact ⟨id, List.mem_of_mem_filter hmem, hs⟩
  case roundAll =>
    intro roundId
    obtain ⟨ids, hids, hperm⟩ := rb_roundPuzzles team ht roundId
    show (((rbState t team).roundPuzzles roundId).any fun ids =>
        ids.all (rbState t team).states.isSolved) =
      ((contentState t team).roundPuzzles roundId).any fun ids =>
        ids.all (contentState t team).states.isSolved
    rw [hids, content_roundPuzzles, orNone_all, orNone_all, hsolved, hperm.all_eq,
      hperm.isEmpty_eq]
    by_cases hex : ∃ p ∈ puzzlesOf t team.gameId roundId, isOwn t p = true
    · -- an own puzzle that is not solved: neither all of them are solved nor all the others
      obtain ⟨p, hp, ho⟩ := hex
      have hright : ((puzzlesOf t team.gameId roundId).map (·.id)).all
          (contentState t team).states.isSolved = false := by
        rw [List.all_eq_false]
        exact ⟨p.id, List.mem_map_of_mem hp, by simp [hown roundId p hp ho]⟩
      rw [hright, Bool.and_false]
      rcases (h.own ht hp ho).2 with halone | ⟨q, hq, hqr, hne, hqs⟩
      · have hempty : ((puzzlesOf t team.gameId roundId).filter fun p => !isOwn t p) = [] := by
          rw [List.filter_eq_nil_iff]
          intro q hq hno
          obtain ⟨hqm, -, hqr⟩ := mem_puzzlesOf.mp hq
          obtain rfl : q = p :=
            eq_of_id_eq ht.puzzles hqm (mem_puzzlesOf.mp hp).1 (halone q hqm hqr)
          simp [ho] at hno
        rw [hempty]
        rfl
      · rw [Bool.and_eq_false_iff]
        refine .inr ?_
        rw [List.all_eq_false]
        refine ⟨q.id, List.mem_map_of_mem (List.mem_filter.mpr
          ⟨mem_puzzlesOf_of_roundId ht hp hq hqr, ?_⟩), by simp [hunsolved q hq hqs]⟩
        cases hqo : isOwn t q with
        | false => rfl
        | true =>
          have hid := own_unique ht hp (mem_puzzlesOf_of_roundId ht hp hq hqr) ho hqo
          exact absurd hid hne
    · have hself : ((puzzlesOf t team.gameId roundId).filter fun p => !isOwn t p) =
          puzzlesOf t team.gameId roundId := by
        rw [List.filter_eq_self]
        intro p hp
        cases ho : isOwn t p with
        | false => rfl
        | true => exact absurd ⟨p, hp, ho⟩ hex
      rw [hself]

/-! ### What one meaning takes -/

/-- A text has the same value for puzzles and hints as for content blocks. -/
lemma OneMeaning.eval_eq (h : OneMeaning t team) (ht : t.WellFormed) (hteam : team ∈ t.teams)
    {s : RawSexpr} {e : GateExpr} (hs : s.Plain) (he : Expr.compileGate s = .ok e) :
    Expr.evalCompiled (rbState t team).states e =
      Expr.evalCompiled (contentState t team).states e :=
  h _ e (compileGateExpr_print hs he) _ _ ((built_iff ht hteam).mpr (.inl rfl))
    ((built_iff ht hteam).mpr (.inr rfl))

lemma content_isSolved (id : Id) : (contentState t team).states.isSolved id = true ↔
    id ∈ solvedIds t team.id ∧ inGame t team.gameId id = true := by
  show ((solvedIds t team.id).filter (inGame t team.gameId)).contains id = true ↔ _
  rw [List.contains_iff_mem, List.mem_filter]

lemma rb_isSolved (id : Id) :
    (rbState t team).states.isSolved id = true ↔ toI32 id ∈ solvedIds t team.id := by
  show (solvedIds t team.id).contains (toI32 id) = true ↔ _
  rw [List.contains_iff_mem]

lemma content_isTriggered (id : Id) (key : String) :
    (contentState t team).states.isTriggered id key = true ↔
      (id, key) ∈ triggerKeys t team.id ∧ inGame t team.gameId id = true := by
  show ((triggerKeys t team.id).filter fun e => inGame t team.gameId e.1).contains (id, key) = true
    ↔ _
  rw [List.contains_iff_mem, List.mem_filter]

lemma rb_isTriggered (id : Id) (key : String) :
    (rbState t team).states.isTriggered id key = true ↔
      (toI32 id, key) ∈ triggerKeys t team.id := by
  show (triggerKeys t team.id).contains (toI32 id, key) = true ↔ _
  rw [List.contains_iff_mem]

section Converse

variable (h : OneMeaning t team) (ht : t.WellFormed) (hteam : team ∈ t.teams)
include h ht hteam

lemma OneMeaning.isSolved_iff {id : Id} (hid : id < 2 ^ 32) :
    toI32 id ∈ solvedIds t team.id ↔
      id ∈ solvedIds t team.id ∧ inGame t team.gameId id = true := by
  have heval := h.eval_eq ht hteam (plain_solvedText id) (compile_solvedText hid)
  rw [← rb_isSolved, ← content_isSolved]
  exact Bool.eq_iff_iff.mp heval

lemma OneMeaning.isTriggered_iff {id : Id} (hid : id < 2 ^ 32) {key : String}
    (hkey : Expr.validKey key = true) : (toI32 id, key) ∈ triggerKeys t team.id ↔
      (id, key) ∈ triggerKeys t team.id ∧ inGame t team.gameId id = true := by
  have heval := h.eval_eq ht hteam (plain_triggeredText id hkey) (compile_triggeredText hid hkey)
  rw [← rb_isTriggered, ← content_isTriggered]
  exact Bool.eq_iff_iff.mp heval

lemma OneMeaning.solved {id : Id} (hid : id ∈ solvedIds t team.id) :
    id ≠ i32Max ∧ inGame t team.gameId id = true := by
  have hlt : id < 2 ^ 31 := lt_of_mem_solvedIds ht hid
  constructor
  · rintro rfl
    have hcut : toI32 (2 ^ 31) ∈ solvedIds t team.id := by
      rw [toI32_of_le (Nat.le_refl _)]
      exact hid
    have hmem := ((h.isSolved_iff ht hteam (by decide)).mp hcut).1
    exact Nat.lt_irrefl _ (lt_of_mem_solvedIds ht hmem)
  · rw [← toI32_of_lt hlt] at hid
    exact ((h.isSolved_iff ht hteam (hlt.trans (by decide))).mp hid).2

lemma OneMeaning.triggered {e : Id × String} (he : e ∈ triggerKeys t team.id) :
    e.1 ≠ i32Max ∧ inGame t team.gameId e.1 = true := by
  obtain ⟨id, key⟩ := e
  obtain ⟨hlt, hkey⟩ := lt_of_mem_triggerKeys ht he
  constructor
  · rintro rfl
    have hcut : (toI32 (2 ^ 31), key) ∈ triggerKeys t team.id := by
      rw [toI32_of_le (Nat.le_refl _)]
      exact he
    have hmem := ((h.isTriggered_iff ht hteam (by decide) hkey).mp hcut).1
    exact Nat.lt_irrefl _ (lt_of_mem_triggerKeys ht hmem).1
  · have hcut : (toI32 id, key) ∈ triggerKeys t team.id := by
      rw [toI32_of_lt hlt]
      exact he
    exact ((h.isTriggered_iff ht hteam (hlt.trans (by decide)) hkey).mp hcut).2

/-- On the puzzles of the game, the states know the same ones as solved. -/
lemma OneMeaning.isSolved_eq {p : PuzzleRow} (hp : p ∈ t.puzzles) :
    (rbState t team).states.isSolved p.id = (contentState t team).states.isSolved p.id := by
  have hlt : p.id < 2 ^ 32 := (ht.puzzleRange p hp).trans (by decide)
  rw [Bool.eq_iff_iff, rb_isSolved, content_isSolved]
  exact h.isSolved_iff ht hteam hlt

/-- The puzzles of a round that do not count where its own puzzle is left out are not solved. -/
lemma OneMeaning.own_not_solved {roundId : Id} {p : PuzzleRow}
    (hp : p ∈ puzzlesOf t team.gameId roundId) (ho : isOwn t p = true) :
    (contentState t team).states.isSolved p.id = false := by
  obtain ⟨hpm, -, hpr⟩ := mem_puzzlesOf.mp hp
  have hround : roundId < 2 ^ 32 := by
    obtain ⟨r, hr, hid, -⟩ := ht.puzzleRound p hpm
    rw [← hpr, ← hid]
    exact (ht.roundRange r hr).trans (by decide)
  obtain ⟨ids, hids, hperm⟩ := rb_roundPuzzles team ht roundId
  have hmem : ∀ id ∈ ids, ∃ q ∈ puzzlesOf t team.gameId roundId, isOwn t q = false ∧ q.id = id := by
    intro id hid
    obtain ⟨q, hq, rfl⟩ := List.mem_map.mp (hperm.mem_iff.mp hid)
    obtain ⟨hq, hno⟩ := List.mem_filter.mp hq
    exact ⟨q, hq, by simpa using hno, rfl⟩
  have hrange : ∀ id ∈ ids, id < 2 ^ 32 := by
    intro id hid
    obtain ⟨q, hq, -, rfl⟩ := hmem id hid
    exact (ht.puzzleRange q (mem_puzzlesOf.mp hq).1).trans (by decide)
  have hresolve : ∀ s : Expr.PuzzleStates,
      (ids.map Expr.PuzzleRef.id).mapM (Expr.resolvePuzzle s) = some ids := by
    intro s
    clear hids hperm hmem hrange
    induction ids with
    | nil => rfl
    | cons id ids ih =>
      rw [List.map_cons, List.mapM_cons, ih]
      rfl
  -- the count of the round against the count of the puzzles the others count
  have heval := h.eval_eq ht hteam (plain_countText roundId ids) (compile_countText hround hrange)
  simp only [Expr.evalCompiled, Expr.cmpUsize, Expr.evalValue, Expr.materializeSet, hresolve,
    Expr.resolveRound, Option.getD_some] at heval
  have hrb : (rbState t team).states.roundPuzzles roundId = orNone ids := hids
  have hcontent : (contentState t team).states.roundPuzzles roundId =
      orNone ((puzzlesOf t team.gameId roundId).map (·.id)) := content_roundPuzzles roundId
  rw [hrb, hcontent, orNone_getD, orNone_getD, decide_eq_true rfl] at heval
  have hlength := of_decide_eq_true heval.symm
  rw [(hperm.filter _).length_eq] at hlength
  have hsub : ((((puzzlesOf t team.gameId roundId).filter fun p => !isOwn t p).map (·.id)).filter
      (contentState t team).states.isSolved).Sublist
        (((puzzlesOf t team.gameId roundId).map (·.id)).filter
          (contentState t team).states.isSolved) := (List.filter_sublist.map _).filter _
  have hsame := hsub.eq_of_length hlength.symm
  rw [← Bool.not_eq_true]
  intro hsolved
  have hin : p.id ∈ ((puzzlesOf t team.gameId roundId).map (·.id)).filter
      (contentState t team).states.isSolved :=
    List.mem_filter.mpr ⟨List.mem_map_of_mem hp, hsolved⟩
  rw [← hsame] at hin
  obtain ⟨q, hq, hqid⟩ := List.mem_map.mp (List.mem_of_mem_filter hin)
  obtain ⟨hq, hno⟩ := List.mem_filter.mp hq
  obtain rfl : q = p := eq_of_id_eq ht.puzzles (mem_puzzlesOf.mp hq).1 hpm hqid
  simp [ho] at hno

/-- If a round has other puzzles than its own, then one of them is not solved. -/
lemma OneMeaning.other_not_solved {roundId : Id} {p : PuzzleRow}
    (hp : p ∈ puzzlesOf t team.gameId roundId) (ho : isOwn t p = true) :
    (∀ q ∈ t.puzzles, q.roundId = roundId → q.id = p.id) ∨
      ∃ q ∈ t.puzzles, q.roundId = roundId ∧ q.id ≠ p.id ∧
        (contentState t team).states.isSolved q.id = false := by
  obtain ⟨hpm, -, hpr⟩ := mem_puzzlesOf.mp hp
  have hround : roundId < 2 ^ 32 := by
    obtain ⟨r, hr, hid, -⟩ := ht.puzzleRound p hpm
    rw [← hpr, ← hid]
    exact (ht.roundRange r hr).trans (by decide)
  obtain ⟨ids, hids, hperm⟩ := rb_roundPuzzles team ht roundId
  have heval := h.eval_eq ht hteam (plain_allSolvedText roundId) (compile_allSolvedText hround)
  simp only [Expr.evalCompiled, Expr.materializeSet, Expr.resolveRound] at heval
  have hrb : (rbState t team).states.roundPuzzles roundId = orNone ids := hids
  have hcontent : (contentState t team).states.roundPuzzles roundId =
      orNone ((puzzlesOf t team.gameId roundId).map (·.id)) := content_roundPuzzles roundId
  have hown := h.own_not_solved ht hteam hp ho
  -- not all puzzles of the round are solved, so not all of the others are
  have hall : ((puzzlesOf t team.gameId roundId).map (·.id)).all
      (contentState t team).states.isSolved = false := by
    rw [List.all_eq_false]
    exact ⟨p.id, List.mem_map_of_mem hp, by simp [hown]⟩
  rw [hrb, hcontent, orNone_all, orNone_all, hall, Bool.and_false, Bool.and_eq_false_iff] at heval
  have hother : ∀ id ∈ ids, ∃ q ∈ t.puzzles, q.roundId = roundId ∧ q.id ≠ p.id ∧ q.id = id := by
    intro id hid
    obtain ⟨q, hq, rfl⟩ := List.mem_map.mp (hperm.mem_iff.mp hid)
    obtain ⟨hq, hno⟩ := List.mem_filter.mp hq
    obtain ⟨hqm, -, hqr⟩ := mem_puzzlesOf.mp hq
    refine ⟨q, hqm, hqr, fun hqid => ?_, rfl⟩
    obtain rfl : q = p := eq_of_id_eq ht.puzzles hqm hpm hqid
    simp [ho] at hno
  rcases heval with hempty | hsome
  · refine .inl fun q hq hqr => ?_
    by_contra hne
    have hqp := mem_puzzlesOf_of_roundId ht hp hq hqr
    have hqo : isOwn t q = false := by
      rw [← Bool.not_eq_true]
      exact fun hqo => hne (own_unique ht hp hqp ho hqo)
    have hin : q.id ∈ ids :=
      hperm.mem_iff.mpr (List.mem_map_of_mem (List.mem_filter.mpr ⟨hqp, by simp [hqo]⟩))
    rw [Bool.not_eq_false', List.isEmpty_iff] at hempty
    rw [hempty] at hin
    exact absurd hin List.not_mem_nil
  · rw [List.all_eq_false] at hsome
    obtain ⟨id, hid, hs⟩ := hsome
    obtain ⟨q, hq, hqr, hne, rfl⟩ := hother id hid
    refine .inr ⟨q, hq, hqr, hne, ?_⟩
    rw [← h.isSolved_eq ht hteam hq]
    simpa using hs

/-- What one meaning takes of a team's progress. -/
lemma OneMeaning.unaffected : Unaffected t team := by
  have hsolvedOf : ∀ q ∈ t.puzzles, (contentState t team).states.isSolved q.id = false →
      q.id ∉ solvedIds t team.id := by
    intro q hq hs hid
    have htrue := (content_isSolved q.id).mpr ⟨hid, (h.solved ht hteam hid).2⟩
    simp [htrue] at hs
  refine ⟨fun id hid => h.solved ht hteam hid, fun e he => h.triggered ht hteam he, ?_⟩
  intro r hr p hp hrg hpr hown
  obtain ⟨r', hr', hid', hrg'⟩ := ht.puzzleRound p hp
  obtain rfl : r' = r := eq_of_id_eq ht.rounds hr' hr (hid'.trans hpr)
  have hpo : p ∈ puzzlesOf t team.gameId r'.id := mem_puzzlesOf.mpr ⟨hp, hrg'.symm.trans hrg, hpr⟩
  have ho : isOwn t p = true := (isOwn_iff ht hr hid').mpr hown
  refine ⟨hsolvedOf p hp (h.own_not_solved ht hteam hpo ho), ?_⟩
  rcases h.other_not_solved ht hteam hpo ho with halone | ⟨q, hq, hqr, hne, hs⟩
  · exact .inl halone
  · exact .inr ⟨q, hq, hqr, hne, hsolvedOf q hq hs⟩

end Converse

/-- **A condition has one meaning** exactly for a team whose progress is unaffected by what the
builders leave out. -/
theorem oneMeaning_iff (ht : t.WellFormed) (hteam : team ∈ t.teams) :
    OneMeaning t team ↔ Unaffected t team := by
  constructor
  · exact fun h => h.unaffected ht hteam
  · intro h expr e _ s s' hs hs'
    have hagree := (agree_of_unaffected ht h).evalCompiled e
    rcases (built_iff ht hteam).mp hs with rfl | rfl <;>
      rcases (built_iff ht hteam).mp hs' with rfl | rfl
    · rfl
    · exact hagree
    · exact hagree.symm
    · rfl

/-! ### A round with its own puzzle -/

/-- A puzzle of the one round. -/
def roundPuzzle (id : Id) : PuzzleRow where
  id := id
  gameId := 1
  slug := none
  sort := 0
  title := ""
  ptype := 0
  judge := "{}"
  penalty := "{}"
  submitRequirements := "{}"
  maxSubmit := none
  unlockCond := none
  releasePhaseId := none
  immediateReleaseAt := some 0
  roundId := 1
  ticketEnabled := false
  ticketCooldown := 0
  ctimeAt := 0

/-- One round of puzzles 1 and 2, where 1 is the round's own; the first team has solved puzzle 2,
the second team has solved nothing. -/
def roundTables : Tables where
  rounds := [⟨1, none, 0, 1, some 1⟩]
  puzzles := [roundPuzzle 1, roundPuzzle 2]
  teams := [⟨1, 1, some 0⟩, ⟨2, 1, some 0⟩]
  teamPuzzles := [⟨1, 1, 0⟩, ⟨1, 2, 1⟩]
  triggers := []

lemma roundTables_wellFormed : roundTables.WellFormed := by
  constructor <;> decide

/-- The second team's conditions have one meaning. -/
theorem oneMeaning_iff_roundTables : OneMeaning roundTables ⟨2, 1, some 0⟩ := by
  refine (oneMeaning_iff roundTables_wellFormed (by decide)).mpr ⟨?_, ?_, ?_⟩
  · decide
  · decide
  · decide

/-- The first team has all puzzles of the round solved where puzzles and hints are guarded, and not
where content blocks are. -/
theorem not_oneMeaning_roundTables : roundTables.WellFormed ∧
    (⟨1, 1, some 0⟩ : TeamRow) ∈ roundTables.teams ∧
      Expr.compileGateExpr "( all-solved ( round 1))" = .ok (.allSolved (.round (.id 1))) ∧
        ¬ OneMeaning roundTables ⟨1, 1, some 0⟩ := by
  have hprint : String.ofList (allSolvedText 1).print = "( all-solved ( round 1))" := by
    decide +kernel
  have hcompile : Expr.compileGateExpr "( all-solved ( round 1))" =
      .ok (.allSolved (.round (.id 1))) := by
    rw [← hprint]
    exact compileGateExpr_print (plain_allSolvedText 1) (compile_allSolvedText (by decide))
  refine ⟨roundTables_wellFormed, by decide, hcompile, fun h => ?_⟩
  have heval := h _ _ hcompile _ _ (.hint (teamGateStateConn_eq roundTables_wellFormed (by decide)))
    .content
  have hrb : Expr.evalCompiled (rbState roundTables ⟨1, 1, some 0⟩).states
      (.allSolved (.round (.id 1))) = true := by decide
  have hcontent : Expr.evalCompiled (contentState roundTables ⟨1, 1, some 0⟩).states
      (.allSolved (.round (.id 1))) = false := by decide
  rw [hrb, hcontent] at heval
  exact absurd heval (by decide)

end Gate
