import RbphBackend.Leaderboard.Refresh

set_option relaxedAutoImplicit false
set_option autoImplicit false

/-!
# No mark is lost

A mark is an event of the board's history. What keeps it from being lost is said of the events
after it: while the flag is down, some round has cleared it since, and that round still holds the
lock or has both read and stored the board since.

## Main definitions

* `Leaderboard.Unharmed` — the condition on a run: the final `UPDATE` finds no mark made since the
  round's first read, and a round that has cleared the flag can store its snapshot.
* `Leaderboard.BuiltAfter` — a snapshot all of whose reads came after an event.
* `Leaderboard.Sound` — the invariant.

## Main results

* `Leaderboard.Sound.builtAfter` — a mark whose flag is down is met by the board stored last.
-/

namespace Leaderboard

open Concurrency

/-! ## Events -/

namespace Event

/-- The event marks the game. -/
def marks (game : Id) : Event → Bool
  | .marked g => g = game
  | _ => false

/-- The event is the first read of round `t` of the game. -/
def reads (t : Tid) (game : Id) : Event → Bool
  | .reading t' g => t' = t ∧ g = game
  | _ => false

/-- The event is one of round `t` of the game that takes the flag down. -/
def clears (t : Tid) (game : Id) : Event → Bool
  | .cleared t' g => t' = t ∧ g = game
  | _ => false

/-- The event is the read of the teams of round `t` of the game. -/
def readsTeams (t : Tid) (game : Id) : Event → Bool
  | .readTeams t' g => t' = t ∧ g = game
  | _ => false

/-- The round an event belongs to. -/
def round : Event → Option (Tid × Id)
  | .cleared t g | .reading t g | .readTeams t g | .published t g _ => some (t, g)
  | .changed _ | .marked _ => none

/-- The snapshot of the game that the event stores. -/
def publication (game : Id) : Event → Option (Tid × LeaderBoardSnapshot)
  | .published t g snapshot => if g = game then some (t, snapshot) else none
  | _ => none

/-- The tables the event leaves. -/
def tables : Event → Option Tables
  | .changed tables => some tables
  | _ => none

@[simp] lemma marks_iff {e : Event} {game : Id} : e.marks game = true ↔ e = .marked game := by
  cases e <;> simp [marks]

@[simp] lemma reads_iff {e : Event} {t : Tid} {game : Id} :
    e.reads t game = true ↔ e = .reading t game := by cases e <;> simp [reads]

@[simp] lemma clears_iff {e : Event} {t : Tid} {game : Id} :
    e.clears t game = true ↔ e = .cleared t game := by cases e <;> simp [clears]

@[simp] lemma readsTeams_iff {e : Event} {t : Tid} {game : Id} :
    e.readsTeams t game = true ↔ e = .readTeams t game := by cases e <;> simp [readsTeams]

lemma publication_eq_some {e : Event} {game : Id} {r : Tid × LeaderBoardSnapshot} :
    e.publication game = some r ↔ e = .published r.1 game r.2 := by
  obtain ⟨t, s⟩ := r
  cases e with
  | published t' g s' =>
    by_cases hg : g = game
    · simp [publication, hg]
    · simp [publication, hg]
  | _ => simp [publication]

end Event

instance (t : Tid) (game : Id) (l : List Event) : Decidable (.reading t game ∈ l) :=
  decidable_of_iff (l.any (·.reads t game) = true) (by simp)

instance (t : Tid) (game : Id) (l : List Event) : Decidable (.cleared t game ∈ l) :=
  decidable_of_iff (l.any (·.clears t game) = true) (by simp)

instance (t : Tid) (game : Id) (l : List Event) : Decidable (.readTeams t game ∈ l) :=
  decidable_of_iff (l.any (·.readsTeams t game) = true) (by simp)

/-- The tables after a history that began with `db`. -/
def tablesAt (db : Tables) (l : List Event) : Tables := (lastSome Event.tables l).getD db

/-- The round's reads of the snapshot: the first comes where the history is `q₁`. -/
def BuiltFrom (db : Tables) (game : Id) (q₁ l : List Event) (s : LeaderBoardSnapshot) : Prop :=
  ∃ q₂ q₃ q₄, q₁ <+: q₂ ∧ q₂ <+: q₃ ∧ q₃ <+: q₄ ∧ q₄ <+: l ∧
    s = snapshotOf game s.version (tablesAt db q₁) (tablesAt db q₂) (tablesAt db q₃)
      (tablesAt db q₄)

/-- **The snapshot reflects what was committed up to `l₁`**: each of its reads was made after a
history that extends `l₁`, within `l`. -/
def BuiltAfter (db : Tables) (game : Id) (l₁ l : List Event) (s : LeaderBoardSnapshot) : Prop :=
  ∃ q₁, l₁ <+: q₁ ∧ BuiltFrom db game q₁ l s

/-- The condition on a run. -/
def Unharmed (t : Tid) (l : Label) (d : Board) : Prop :=
  match l with
  | .sql => True
  | .store game => d.kvUp = true ∨ .cleared t game ∉ d.history
  | .clearFlag game => After (Event.marks game) (fun l => .reading t game ∈ l) d.history

instance (t : Tid) (l : Label) (d : Board) : Decidable (Unharmed t l d) := by
  unfold Unharmed
  split <;> infer_instance

/-! ## The invariant -/

/-- The last snapshot stored since was also read since. -/
def Fresh (game : Id) (l : List Event) : Prop :=
  ∃ r s, lastSome (Event.publication game) l = some (r, s) ∧ .reading r game ∈ l

/-- What holds of the board, whose tables were `db` at the beginning. -/
structure Sound (db : Tables) (d : Board) : Prop where
  tables : d.tables = tablesAt db d.history
  games : ∀ game, .marked game ∈ d.history → game ∈ d.games
  once : ∀ r game, d.history.countP (·.reads r game) ≤ 1
  latest : ∀ game r s, lastSome (Event.publication game) d.history = some (r, s) →
    d.latest game = some s
  built : ∀ r game s, .published r game s ∈ d.history →
    ∃ q, q ++ [.reading r game] <+: d.history ∧ BuiltFrom db game q d.history s
  flag : ∀ game, d.flagged game = false →
    After (Event.marks game) (fun l => ∃ r, .cleared r game ∈ l) d.history
  fresh : ∀ game, After (Event.marks game) (fun l => ∀ r, .cleared r game ∈ l →
    d.advisory game = some r ∨ Fresh game l ∧ .readTeams r game ∈ l) d.history

lemma BuiltFrom.snoc {db : Tables} {game : Id} {q l : List Event} {s : LeaderBoardSnapshot}
    (h : BuiltFrom db game q l s) (e : Event) : BuiltFrom db game q (l ++ [e]) s := by
  obtain ⟨q₂, q₃, q₄, h₁, h₂, h₃, h₄, hs⟩ := h
  exact ⟨q₂, q₃, q₄, h₁, h₂, h₃, h₄.trans (List.prefix_append l [e]), hs⟩

/-- **What the invariant gives where no round is under way**: a mark whose flag is down is met by
the snapshot stored last. -/
theorem Sound.builtAfter {db : Tables} {d : Board} (h : Sound db d) {game : Id}
    {l₁ l₂ : List Event} (hl : d.history = l₁ ++ .marked game :: l₂)
    (hflag : d.flagged game = false) (hidle : d.advisory game = none) :
    ∃ s, d.latest game = some s ∧ BuiltAfter db game (l₁ ++ [.marked game]) d.history s := by
  have hmark : Event.marks game (.marked game) = true := by simp
  have hcleared := h.flag game hflag
  have hfresh := h.fresh game
  rw [hl] at hcleared hfresh
  obtain ⟨r, hr⟩ := hcleared.of_split hmark
  rcases hfresh.of_split hmark r hr with hlock | ⟨⟨r', s, hlast, hread⟩, -⟩
  · rw [hidle] at hlock
    simp at hlock
  · have hlast' : lastSome (Event.publication game) d.history = some (r', s) := by
      rw [hl, List.append_cons, lastSome_append, hlast]
      rfl
    refine ⟨s, h.latest game r' s hlast', ?_⟩
    obtain ⟨e, he, hp⟩ := exists_of_lastSome hlast'
    rw [Event.publication_eq_some] at hp
    subst hp
    obtain ⟨q, hq, hbuilt⟩ := h.built r' game s he
    refine ⟨q, ?_, hbuilt⟩
    -- the one read of the round is after the mark, so the mark is in the history read
    have hmq : l₁ ++ [.marked game] <+: d.history := ⟨l₂, by simp [hl]⟩
    rcases List.prefix_or_prefix_of_prefix hmq hq with hle | hle
    · rcases List.prefix_concat_iff.mp hle with heq | hle
      · have hlast := (List.append_inj' heq rfl).2
        simp at hlast
      · exact hle
    · exfalso
      have hmem : .reading r' game ∈ l₁ := by
        have hmem' := hle.subset (List.mem_append_right q List.mem_cons_self)
        simpa using hmem'
      have hcount := h.once r' game
      have hpos₁ : 0 < l₁.countP (·.reads r' game) := List.countP_pos_iff.mpr ⟨_, hmem, by simp⟩
      have hpos₂ : 0 < l₂.countP (·.reads r' game) := List.countP_pos_iff.mpr ⟨_, hread, by simp⟩
      rw [hl, List.countP_append, List.countP_cons] at hcount
      omega

/-! ### What keeps it -/

section Steps

variable {db : Tables} {d : Board} {t : Tid} {game : Id}

lemma Fresh.snoc {l : List Event} (h : Fresh game l) {e : Event} (he : e.publication game = none) :
    Fresh game (l ++ [e]) := by
  obtain ⟨r, s, hlast, hread⟩ := h
  exact ⟨r, s, by simp [he, hlast], List.mem_append_left _ hread⟩

/-- A snapshot stored by a round that has read since. -/
lemma fresh_published {l : List Event} {s : LeaderBoardSnapshot} (h : .reading t game ∈ l) :
    Fresh game (l ++ [.published t game s]) :=
  ⟨t, s, by simp [Event.publication], List.mem_append_left _ h⟩

/-- What the invariant does not speak of. -/
lemma Sound.congr {d' : Board} (h : Sound db d) (hhist : d'.history = d.history)
    (htables : d'.tables = d.tables) (hgames : d'.games = d.games) (hlatest : d'.latest = d.latest)
    (hstate : d'.refreshState = d.refreshState) (hlock : d'.advisory = d.advisory) :
    Sound db d' := by
  obtain ⟨games, tables, state, dirty, advisory, kv, latest, snapshots, cache, history⟩ := d
  obtain ⟨games', tables', state', dirty', advisory', kv', latest', snapshots', cache', history'⟩ := d'
  dsimp only at *
  subst hhist htables hgames hlatest hstate hlock
  exact ⟨h.tables, h.games, h.once, h.latest, h.built, h.flag, h.fresh⟩

/-- One more event of the invariant's snapshots. -/
private lemma Sound.built_snoc (h : Sound db d) (e : Event) {r : Tid} {g : Id}
    {s : LeaderBoardSnapshot} (hs : .published r g s ∈ d.history) :
    ∃ q, q ++ [.reading r g] <+: d.history ++ [e] ∧ BuiltFrom db g q (d.history ++ [e]) s := by
  obtain ⟨q, hq, hbuilt⟩ := h.built r g s hs
  exact ⟨q, hq.trans (List.prefix_append _ _), hbuilt.snoc e⟩

/-- An event other than the store of a snapshot: a first read is made once, a flag is cleared by the
holder of the lock, and a mark has put it up. -/
lemma Sound.log (h : Sound db d) {e : Event}
    (hmark : ∀ g, e = .marked g → g ∈ d.games ∧ d.flagged g = true)
    (hread : ∀ r g, e = .reading r g → .reading r g ∉ d.history)
    (hpub : ∀ r g s, e ≠ .published r g s)
    (hclear : ∀ r g, e = .cleared r g → d.advisory g = some r) :
    Sound db (({ d with tables := e.tables.getD d.tables } : Board).log e) := by
  have hnone : ∀ g, e.publication g = none := by
    intro g
    rw [Option.eq_none_iff_forall_not_mem]
    exact fun x hx => hpub _ _ _ (Event.publication_eq_some.mp hx)
  constructor
  case tables =>
    show e.tables.getD d.tables = tablesAt db (d.history ++ [e])
    rw [h.tables, tablesAt, tablesAt, lastSome_snoc]
    cases e.tables <;> rfl
  case games =>
    intro g hg
    rcases List.mem_append.mp hg with hg | hg
    · exact h.games g hg
    · exact (hmark g (List.mem_singleton.mp hg).symm).1
  case once =>
    intro r g
    show (d.history ++ [e]).countP _ ≤ 1
    rw [List.countP_append, List.countP_singleton]
    by_cases he : e.reads r g = true
    · have hzero : d.history.countP (·.reads r g) = 0 := by
        rw [List.countP_eq_zero]
        intro e' he' hr
        rw [Event.reads_iff] at he hr
        exact hread r g he (hr ▸ he')
      rw [hzero, if_pos he]
    · rw [if_neg he]
      exact h.once r g
  case latest =>
    intro g r s hs
    exact h.latest g r s (by simpa [Board.log, hnone g] using hs)
  case built =>
    intro r g s hs
    rcases List.mem_append.mp hs with hs | hs
    · exact h.built_snoc e hs
    · exact absurd (List.mem_singleton.mp hs).symm (hpub r g s)
  case flag =>
    intro g hg
    refine after_snoc.mpr ⟨(h.flag g hg).imp fun l ⟨r, hr⟩ => ⟨r, List.mem_append_left _ hr⟩, ?_⟩
    intro hm
    have hup : d.flagged g = true := (hmark g (by simpa using hm)).2
    exact absurd (hup.symm.trans hg) (by simp)
  case fresh =>
    intro g
    refine after_snoc.mpr ⟨(h.fresh g).imp fun l hl r hr => ?_, by simp⟩
    rcases List.mem_append.mp hr with hr | hr
    · rcases hl r hr with hlock | ⟨hf, ht⟩
      · exact .inl hlock
      · exact .inr ⟨hf.snoc (hnone g), List.mem_append_left _ ht⟩
    · exact .inl (hclear r g (List.mem_singleton.mp hr).symm)

/-- The row of a game is written. -/
lemma Sound.setRefreshState (h : Sound db d) {s : RefreshState}
    (hs : s.fullRebuild = false →
      After (Event.marks game) (fun l => ∃ r, .cleared r game ∈ l) d.history) :
    Sound db (d.setRefreshState game s) := by
  refine ⟨h.tables, h.games, h.once, h.latest, h.built, fun g hg => ?_, h.fresh⟩
  by_cases heq : g = game
  · subst heq
    exact hs (by simpa [Board.flagged, Board.setRefreshState] using hg)
  · exact h.flag g (by simpa [Board.flagged, Board.setRefreshState, heq] using hg)

/-- The holder of the lock takes the flag down. -/
lemma Sound.clear (h : Sound db d) (hlock : d.advisory game = some t) (version : ℤ) :
    Sound db (d.clear t game version) := by
  unfold Board.clear
  split
  · have hlog : Sound db (d.log (.cleared t game)) := by
      refine h.log (by simp) (by simp) (by simp) fun r g he => ?_
      obtain ⟨rfl, rfl⟩ := Event.cleared.inj he
      exact hlock
    refine hlog.setRefreshState (s := ⟨version, false⟩) fun _ => ?_
    refine after_snoc.mpr ⟨after_of_subset fun l _ => ⟨t, by simp⟩, fun hm => by simp at hm⟩
  · rename_i hflag
    exact h.setRefreshState fun _ => h.flag game (by simpa using hflag)

/-- A mark puts the flag up. -/
lemma Sound.mark (h : Sound db d) (hgame : game ∈ d.games) (version : ℤ) :
    Sound db ((d.setRefreshState game ⟨version, true⟩).log (.marked game)) := by
  have hup : Sound db (d.setRefreshState game ⟨version, true⟩) := h.setRefreshState (by simp)
  refine hup.log (fun g hg => ?_) (by simp) (by simp) (by simp)
  obtain rfl := Event.marked.inj hg
  exact ⟨hgame, by simp [Board.flagged, Board.setRefreshState]⟩

/-- **A snapshot is stored** by the holder of the lock: every mark that a round has cleared since
is met by the round's reads. -/
lemma Sound.publish (h : Sound db d) {s : LeaderBoardSnapshot} {q : List Event}
    (hlock : d.advisory game = some t) (hq : q ++ [.reading t game] <+: d.history)
    (hbuilt : BuiltFrom db game q d.history s)
    (hseen : After (Event.marks game)
      (fun l => .reading t game ∈ l ∨ ∀ r, .cleared r game ∉ l) d.history) :
    Sound db (({ d with latest := Function.update d.latest game (some s) } : Board).log
      (.published t game s)) where
  tables := by
    show d.tables = _
    rw [h.tables, tablesAt, tablesAt]
    simp [Board.log, Event.tables]
  games := by
    intro g hg
    exact h.games g (by simpa [Board.log] using hg)
  once := by
    intro r g
    show (d.history ++ [Event.published t game s]).countP _ ≤ 1
    rw [List.countP_append]
    simpa using h.once r g
  latest := by
    intro g r s' hs
    show Function.update d.latest game (some s) g = some s'
    by_cases hg : g = game
    · subst hg
      simp only [Board.log, lastSome_snoc, Event.publication, if_true, Option.some_or,
        Option.some.injEq, Prod.mk.injEq] at hs
      simp [hs.2]
    · rw [Function.update_of_ne hg]
      exact h.latest g r s' (by simpa [Board.log, Event.publication, Ne.symm hg] using hs)
  built := by
    intro r g s' hs
    rcases List.mem_append.mp hs with hs | hs
    · exact h.built_snoc _ hs
    · obtain ⟨rfl, rfl, rfl⟩ := Event.published.inj (List.mem_singleton.mp hs)
      exact ⟨q, hq.trans (List.prefix_append _ _), hbuilt.snoc _⟩
  flag := by
    intro g hg
    refine after_snoc.mpr ⟨(h.flag g hg).imp fun l ⟨r, hr⟩ => ⟨r, List.mem_append_left _ hr⟩, ?_⟩
    simp
  fresh := by
    intro g
    by_cases hg : g = game
    · subst hg
      refine after_snoc.mpr ⟨(h.fresh g).imp₂ hseen fun l hl hsl r hr => ?_, by simp⟩
      have hr' : .cleared r g ∈ l := by simpa using hr
      rcases hl r hr' with hlock | ⟨-, ht⟩
      · exact .inl hlock
      · rcases hsl with hread | hno
        · exact .inr ⟨fresh_published hread, List.mem_append_left _ ht⟩
        · exact absurd hr' (hno r)
    · refine after_snoc.mpr ⟨(h.fresh g).imp fun l hl r hr => ?_, by simp⟩
      rcases hl r (by simpa using hr) with hlock | ⟨hf, ht⟩
      · exact .inl hlock
      · exact .inr ⟨hf.snoc (by simp [Event.publication, Ne.symm hg]), List.mem_append_left _ ht⟩

/-- A free lock is taken. -/
lemma Sound.lock (h : Sound db d) (hfree : d.advisory game = none) :
    Sound db { d with advisory := Function.update d.advisory game (some t) } := by
  refine ⟨h.tables, h.games, h.once, h.latest, h.built, h.flag, fun g => ?_⟩
  refine (h.fresh g).imp fun l hl r hr => ?_
  rcases hl r hr with hlock | hdone
  · refine .inl ?_
    have hne : g ≠ game := by
      rintro rfl
      rw [hfree] at hlock
      simp at hlock
    simpa [hne] using hlock
  · exact .inr hdone

/-- **A round gives back the lock** once every mark it has cleared is met. -/
lemma Sound.unlock (h : Sound db d) (hlock : d.advisory game = some t)
    (hdone : After (Event.marks game)
      (fun l => .cleared t game ∈ l → Fresh game l ∧ .readTeams t game ∈ l) d.history) :
    Sound db { d with advisory := Function.update d.advisory game none } := by
  refine ⟨h.tables, h.games, h.once, h.latest, h.built, h.flag, fun g => ?_⟩
  by_cases hg : g = game
  · subst hg
    refine (h.fresh g).imp₂ hdone fun l hl hd r hr => ?_
    rcases hl r hr with hlock' | hdone
    · obtain rfl : t = r := Option.some.inj (hlock.symm.trans hlock')
      exact .inr (hd hr)
    · exact .inr hdone
  · refine (h.fresh g).imp fun l hl r hr => ?_
    simpa [hg] using hl r hr

end Steps

end Leaderboard
