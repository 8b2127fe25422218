import RbphBackend.Leaderboard.Marks

set_option relaxedAutoImplicit false
set_option autoImplicit false

/-!
# Rounds among others

A round that holds the lock of its game is the only one to clear the flag of the game and to read
and store its board. What it knows of the events since each mark is kept by the others.

## Main definitions

* `Leaderboard.Moves`, `Leaderboard.Interferes` — what a thread does, and what the others may do.
* `Leaderboard.Holding` — a round holds the lock and knows something of the events since each mark.

## Main results

* `Leaderboard.marksKept_of_reaches` — any number of calls in any interleaving.
-/

namespace Leaderboard

open Concurrency

/-! ## Moves -/

/-- A move of thread `t`: at most one event, of a round of its own under the game's lock. -/
structure Moves (db : Tables) (t : Tid) (d d' : Board) : Prop where
  event : d'.history = d.history ∨ ∃ e : Event, d'.history = d.history ++ [e] ∧
    ∀ r g, e.round = some (r, g) → r = t ∧ d.advisory g = some t
  locks : ∀ g u, u ≠ t → d.advisory g = some u → d'.advisory g = some u
  sound : Sound db d'

/-- What thread `t` sees happen. -/
structure Interferes (t : Tid) (d d' : Board) : Prop where
  event : d'.history = d.history ∨ ∃ e : Event, d'.history = d.history ++ [e] ∧
    ∀ r g, e.round = some (r, g) → r ≠ t ∧ d.advisory g ≠ some t
  locks : ∀ g, d.advisory g = some t → d'.advisory g = some t

/-- The rely of thread `t`. -/
abbrev Rely (t : Tid) : Board → Board → Prop := Relation.ReflTransGen (Interferes t)

lemma Moves.interferes {db : Tables} {t u : Tid} {d d' : Board} (hu : t ≠ u)
    (h : Moves db u d d') : Interferes t d d' := by
  refine ⟨?_, fun g hg => h.locks g t hu hg⟩
  rcases h.event with he | ⟨e, he, hround⟩
  · exact .inl he
  · refine .inr ⟨e, he, fun r g hr => ?_⟩
    obtain ⟨rfl, hlock⟩ := hround r g hr
    refine ⟨Ne.symm hu, fun ht => hu ?_⟩
    exact Option.some.inj (ht.symm.trans hlock)

lemma Changes.interferes {t : Tid} {d d' : Board} (h : Changes d d') : Interferes t d d' := by
  cases h with
  | tables tables => exact ⟨.inr ⟨_, rfl, by simp [Event.round]⟩, fun _ h => h⟩
  | kv up => exact ⟨.inl rfl, fun _ h => h⟩
  | expire game version => exact ⟨.inl rfl, fun _ h => h⟩

lemma Changes.sound {db : Tables} {d d' : Board} (h : Changes d d') (hd : Sound db d) :
    Sound db d' := by
  cases h with
  | tables tables => exact hd.log (by simp) (by simp) (by simp) (by simp)
  | kv up => exact hd.congr rfl rfl rfl rfl rfl rfl
  | expire game version => exact hd.congr rfl rfl rfl rfl rfl rfl

/-- The calls form a sound pool. -/
theorem relyGuarantee {α : Type} (db : Tables) :
    RelyGuarantee Changes Unharmed (Sound db) Rely
      (fun t => Plain (L := Label) (α := α) fun _ => Moves db t) where
  refl _ _ := .refl
  trans _ _ _ _ h h' := h.trans h'
  guarantee _ _ _ _ _ _ hu _ _ h := .single (h.interferes hu)
  interference _ _ _ _ h := .single h.interferes
  inv_step _ _ _ _ _ _ _ h := h.sound
  inv_env _ _ hd h := h.sound hd

/-! ## What a round knows -/

/-- Round `t` of the game holds the lock, and the history meets `H`. -/
def Holding (t : Tid) (game : Id) (H : List Event → Prop) (d : Board) : Prop :=
  d.advisory game = some t ∧ H d.history

/-- Thread `t` has not begun a round. -/
def NotBegun (t : Tid) (d : Board) : Prop := ∀ e ∈ d.history, ∀ g, e.round ≠ some (t, g)

section Stable

variable {t : Tid} {game : Id}

/-- What one interference keeps. -/
lemma stable_of_interferes {A : Board → Prop} (h : ∀ d d', A d → Interferes t d d' → A d') :
    Stable (Rely t) A := by
  intro d d' hd hr
  induction hr with
  | refl => exact hd
  | tail _ hstep ih => exact h _ _ ih hstep

/-- What the events of other rounds keep. -/
lemma stable_holding {H : List Event → Prop}
    (hH : ∀ l e, H l → (∀ r, e.round ≠ some (r, game)) → H (l ++ [e])) :
    Stable (Rely t) (Holding t game H) := by
  refine stable_of_interferes fun d d' ⟨hlock, hd⟩ h => ⟨h.locks game hlock, ?_⟩
  rcases h.event with he | ⟨e, he, hround⟩
  · rwa [he]
  · rw [he]
    exact hH _ _ hd fun r hr => (hround r game hr).2 hlock

lemma stable_notBegun : Stable (Rely t) (NotBegun t) := by
  refine stable_of_interferes fun d d' hd h => ?_
  rcases h.event with he | ⟨e, he, hround⟩
  · intro e' he'
    exact hd e' (he ▸ he')
  · intro e' he' g hr
    rw [he] at he'
    rcases List.mem_append.mp he' with he' | he'
    · exact hd e' he' g hr
    · obtain rfl := List.mem_singleton.mp he'
      exact (hround t g hr).1 rfl

end Stable

/-! ## The rules -/

section Rules

variable {db : Tables} {t : Tid} {game : Id} {α : Type}

/-- The condition under which thread `t` runs. -/
abbrev Runs (db : Tables) (t : Tid) (l : Label) (d : Board) : Prop := Unharmed t l d ∧ Sound db d

/-- What thread `t` does, from an assertion to a postcondition. -/
abbrev RoundTriple (db : Tables) (t : Tid) (A : Board → Prop) (p : Round α)
    (Q : Except String α → Board → Prop) : Prop :=
  Prog.Triple (Rely t) (Runs db t) (Plain fun _ => Moves db t) A p.run Q

lemma act_triple {l : Label} {f : Board → Except String α × Board} {A : Board → Prop}
    {Q : Except String α → Board → Prop} (hA : Stable (Rely t) A)
    (hQ : ∀ r, Stable (Rely t) (Q r))
    (h : ∀ d, A d → Unharmed t l d → Sound db d → Moves db t d (f d).2 ∧ Q (f d).1 (f d).2) :
    RoundTriple db t A (act l f) Q := by
  refine Fallible.atomic_triple hA hQ fun d r d' hd ho hf => ?_
  obtain ⟨rfl, rfl⟩ := Prod.mk.inj (Option.some.inj hf)
  exact h d hd ho.1 ho.2

lemma bind_triple {β : Type} {A : Board → Prop} {B : α → Board → Prop} {F : String → Board → Prop}
    {Q : Except String β → Board → Prop} {p : Round α} {k : α → Round β}
    (hp : RoundTriple db t A p (Post B F)) (hF : ∀ e, Stable (Rely t) (F e))
    (hFQ : ∀ e d, F e d → Q (.error e) d) (hk : ∀ a, RoundTriple db t (B a) (k a) Q) :
    RoundTriple db t A (p >>= k) Q :=
  Fallible.bind_triple hp (fun _ _ _ _ h => h) (fun _ => .refl)
    (fun e d d' h hr => hFQ e d' (hF e d d' h hr)) hk

/-- A move that records nothing. -/
lemma Moves.quiet {d d' : Board} (h : Sound db d') (hhist : d'.history = d.history)
    (hlock : d'.advisory = d.advisory) : Moves db t d d' :=
  ⟨.inl hhist, fun g u _ hg => by rw [hlock]; exact hg, h⟩

/-- A move that records an event of the round that holds the lock. -/
lemma Moves.record {d d' : Board} {e : Event} (h : Sound db d')
    (hhist : d'.history = d.history ++ [e]) (hlock : d'.advisory = d.advisory)
    (hround : ∀ r g, e.round = some (r, g) → r = t ∧ d.advisory g = some t) : Moves db t d d' :=
  ⟨.inr ⟨e, hhist, hround⟩, fun g u _ hg => by rw [hlock]; exact hg, h⟩

/-- Writing the flag down is a move of the round that holds the lock. -/
lemma Moves.clear {d : Board} (h : Sound db d) (hlock : d.advisory game = some t) (version : ℤ) :
    Moves db t d (d.clear t game version) := by
  have hsound := h.clear hlock version
  unfold Board.clear at hsound ⊢
  split
  · rename_i hf
    rw [if_pos hf] at hsound
    refine .record hsound rfl rfl fun r g hr => ?_
    obtain ⟨rfl, rfl⟩ := Prod.mk.inj (Option.some.inj hr)
    exact ⟨rfl, hlock⟩
  · rename_i hf
    rw [if_neg hf] at hsound
    exact .quiet hsound rfl rfl

end Rules

/-! ## One round -/

/-- The round has not read the board. -/
def Unread (t : Tid) (game : Id) (l : List Event) : Prop := .reading t game ∉ l

/-- The round has cleared nothing. -/
def Uncleared (t : Tid) (game : Id) (l : List Event) : Prop := .cleared t game ∉ l

/-- The round has begun to read the board, and has cleared nothing since. -/
def Reading (t : Tid) (game : Id) (q l : List Event) : Prop :=
  q ++ [.reading t game] <+: l ∧
    After (Event.marks game) (fun l => .reading t game ∈ l ∨ ∀ r, .cleared r game ∉ l) l

/-- The round has read the teams since its first read. -/
def TeamsRead (t : Tid) (game : Id) (l : List Event) : Prop :=
  After (Event.marks game) (fun l => .reading t game ∈ l → .readTeams t game ∈ l) l

/-- The round has stored what it has read, and has cleared nothing since. -/
def Stored (t : Tid) (game : Id) (l : List Event) : Prop :=
  After (Event.marks game) (fun l => (.reading t game ∈ l → Fresh game l ∧ .readTeams t game ∈ l) ∧
    (.cleared t game ∈ l → .reading t game ∈ l)) l

/-- Every mark that the round has cleared is met. -/
def Done (t : Tid) (game : Id) (l : List Event) : Prop :=
  After (Event.marks game) (fun l => .cleared t game ∈ l → Fresh game l ∧ .readTeams t game ∈ l) l

section Knowledge

variable {t : Tid} {game : Id} {q l l' : List Event} {e : Event}

/-- An event of another game's round, or of none. -/
private lemma mem_snoc {x : Event} {r : Tid} (hx : x.round = some (r, game))
    (he : ∀ r, e.round ≠ some (r, game)) : x ∈ l ++ [e] ↔ x ∈ l := by
  simp only [List.mem_append, List.mem_singleton, or_iff_left_iff_imp]
  rintro rfl
  exact absurd hx (he r)

/-- What is kept of the events since every mark, and holds where there are none. -/
private lemma after_kept {Q : List Event → Prop} (h : After (Event.marks game) Q l)
    (hQ : ∀ l, Q l → Q (l ++ [e])) (h0 : Q []) : After (Event.marks game) Q (l ++ [e]) :=
  after_snoc.mpr ⟨h.imp hQ, fun _ => h0⟩

private lemma publication_none (he : ∀ r, e.round ≠ some (r, game)) :
    e.publication game = none := by
  rw [Option.eq_none_iff_forall_not_mem]
  intro x hx
  rw [Option.mem_def, Event.publication_eq_some] at hx
  subst hx
  exact he x.1 rfl

lemma Unread.kept (h : Unread t game l) (he : ∀ r, e.round ≠ some (r, game)) :
    Unread t game (l ++ [e]) := fun hm => h ((mem_snoc rfl he).mp hm)

lemma Uncleared.kept (h : Uncleared t game l) (he : ∀ r, e.round ≠ some (r, game)) :
    Uncleared t game (l ++ [e]) := fun hm => h ((mem_snoc rfl he).mp hm)

lemma Reading.kept (h : Reading t game q l) (he : ∀ r, e.round ≠ some (r, game)) :
    Reading t game q (l ++ [e]) := by
  refine ⟨h.1.trans (List.prefix_append l [e]), after_kept h.2 (fun l' hl => ?_) (by simp)⟩
  rcases hl with hread | hno
  · exact .inl (List.mem_append_left _ hread)
  · exact .inr fun r hr => hno r ((mem_snoc rfl he).mp hr)

lemma TeamsRead.kept (h : TeamsRead t game l) (he : ∀ r, e.round ≠ some (r, game)) :
    TeamsRead t game (l ++ [e]) := by
  refine after_kept h (fun l' hl hr => ?_) (by simp)
  exact List.mem_append_left _ (hl ((mem_snoc rfl he).mp hr))

lemma Stored.kept (h : Stored t game l) (he : ∀ r, e.round ≠ some (r, game)) :
    Stored t game (l ++ [e]) := by
  refine after_kept h (fun l' hl => ⟨fun hr => ?_, fun hc => ?_⟩) (by simp)
  · obtain ⟨hf, ht⟩ := hl.1 ((mem_snoc rfl he).mp hr)
    exact ⟨hf.snoc (publication_none he), List.mem_append_left _ ht⟩
  · exact List.mem_append_left _ (hl.2 ((mem_snoc rfl he).mp hc))

lemma Done.kept (h : Done t game l) (he : ∀ r, e.round ≠ some (r, game)) :
    Done t game (l ++ [e]) := by
  refine after_kept h (fun l' hl hc => ?_) (by simp)
  obtain ⟨hf, ht⟩ := hl ((mem_snoc rfl he).mp hc)
  exact ⟨hf.snoc (publication_none he), List.mem_append_left _ ht⟩

/-- The first read. -/
lemma Reading.begin (l : List Event) : Reading t game l (l ++ [.reading t game]) :=
  ⟨List.prefix_rfl, after_snoc.mpr ⟨after_of_subset fun l' _ => .inl (by simp), by simp⟩⟩

/-- The read of the teams. -/
lemma Reading.readTeams (h : Reading t game q l) :
    Reading t game q (l ++ [.readTeams t game]) := by
  refine ⟨h.1.trans (List.prefix_append _ _), after_kept h.2 (fun l' hl => ?_) (by simp)⟩
  simpa using hl

lemma TeamsRead.begin (l : List Event) : TeamsRead t game (l ++ [.readTeams t game]) :=
  after_snoc.mpr ⟨after_of_subset fun l' _ _ => by simp, by simp⟩

/-- The store of the snapshot. -/
lemma Stored.begin (h : Reading t game q l) (ht : TeamsRead t game l) (s : LeaderBoardSnapshot) :
    Stored t game (l ++ [.published t game s]) := by
  refine after_snoc.mpr ⟨h.2.imp₂ ht fun l' hl htl => ⟨fun hr => ?_, fun hc => ?_⟩, by simp⟩
  · have hr' : .reading t game ∈ l' := by simpa using hr
    exact ⟨fresh_published hr', List.mem_append_left _ (htl hr')⟩
  · have hc' : .cleared t game ∈ l' := by simpa using hc
    rcases hl with hread | hno
    · exact List.mem_append_left _ hread
    · exact absurd hc' (hno t)

lemma Stored.done (h : Stored t game l) : Done t game l := h.imp fun _ hl hc => hl.1 (hl.2 hc)

lemma Uncleared.done (h : Uncleared t game l) : Done t game l :=
  after_of_subset fun _ hl hc => absurd (hl hc) h

/-- **The last clear of a round** takes away only marks made before its first read. -/
lemma Stored.clear (h : Stored t game l)
    (hok : After (Event.marks game) (fun l => .reading t game ∈ l) l) :
    Done t game (l ++ [.cleared t game]) := by
  refine after_snoc.mpr ⟨h.imp₂ hok fun l' hl hread _ => ?_, by simp⟩
  obtain ⟨hf, ht⟩ := hl.1 hread
  exact ⟨hf.snoc rfl, List.mem_append_left _ ht⟩

end Knowledge

/-! ## The calls -/

/-- What a round knows once it has the snapshot. -/
def BuiltBy (db : Tables) (t : Tid) (game : Id) (s : LeaderBoardSnapshot) (l : List Event) : Prop :=
  ∃ q, Reading t game q l ∧ TeamsRead t game l ∧ BuiltFrom db game q l s

section Calls

variable {db : Tables} {t : Tid} {game : Id} {server : ℕ}

/-- A statement of a round that reads the tables. -/
private lemma read_triple {α : Type} {f : Tables → α} {H : List Event → Prop}
    {K : α → List Event → Prop} (hH : ∀ l e, H l → (∀ r, e.round ≠ some (r, game)) → H (l ++ [e]))
    (hK : ∀ a l e, K a l → (∀ r, e.round ≠ some (r, game)) → K a (l ++ [e]))
    (h : ∀ l, H l → K (f (tablesAt db l)) l) :
    RoundTriple db t (Holding t game H) (act .sql fun d => (.ok (f d.tables), d))
      (Post (fun a => Holding t game (K a)) fun _ _ => False) := by
  refine act_triple (stable_holding hH)
    (stable_post (fun a => stable_holding (hK a)) fun _ => Stable.const False) ?_
  rintro d ⟨hlock, hd⟩ - hsound
  refine ⟨.quiet hsound rfl rfl, hlock, ?_⟩
  rw [hsound.tables]
  exact h _ hd

/-- The first read. -/
private lemma readLocked_triple :
    RoundTriple db t (Holding t game (Unread t game))
      (act .sql fun d => (.ok (isLocked d.tables game), d.log (.reading t game)))
      (Post (fun locked => Holding t game fun l => ∃ q, Reading t game q l ∧
        locked = isLocked (tablesAt db q) game) fun _ _ => False) := by
  refine act_triple (stable_holding fun l e => Unread.kept) (stable_post (fun locked => ?_)
    fun _ => Stable.const False) ?_
  · exact stable_holding fun l e ⟨q, hq, hl⟩ he => ⟨q, hq.kept he, hl⟩
  · rintro d ⟨hlock, hd⟩ - hsound
    refine ⟨.record (hsound.log (e := .reading t game) (by simp) ?_ (by simp) (by simp)) rfl rfl ?_,
      hlock, d.history, Reading.begin _, by rw [← hsound.tables]⟩
    · intro r g he
      obtain ⟨rfl, rfl⟩ := Event.reading.inj he
      exact hd
    · intro r g hr
      obtain ⟨rfl, rfl⟩ := Prod.mk.inj (Option.some.inj hr)
      exact ⟨rfl, hlock⟩

/-- The read of the teams. -/
private lemma readTeams_triple {locked : Bool} :
    RoundTriple db t (Holding t game fun l => ∃ q, Reading t game q l ∧
        locked = isLocked (tablesAt db q) game)
      (act .sql fun d => (.ok (teamRows d.tables game locked), d.log (.readTeams t game)))
      (Post (fun teams => Holding t game fun l => ∃ q q₂, Reading t game q l ∧ TeamsRead t game l ∧
        q <+: q₂ ∧ q₂ <+: l ∧
        teams = teamRows (tablesAt db q₂) game (isLocked (tablesAt db q) game))
        fun _ _ => False) := by
  refine act_triple (stable_holding fun l e ⟨q, hq, hl⟩ he => ⟨q, hq.kept he, hl⟩)
    (stable_post (fun teams => ?_) fun _ => Stable.const False) ?_
  · refine stable_holding ?_
    rintro l e ⟨q, q₂, hq, ht, h₁, h₂, rfl⟩ he
    exact ⟨q, q₂, hq.kept he, ht.kept he, h₁, h₂.trans (List.prefix_append _ _), rfl⟩
  · rintro d ⟨hlock, q, hq, rfl⟩ - hsound
    refine ⟨.record (hsound.log (e := .readTeams t game) (by simp) (by simp) (by simp) (by simp))
      rfl rfl ?_, hlock, q, d.history,
      hq.readTeams, TeamsRead.begin _, (List.prefix_append _ _).trans hq.1, List.prefix_append _ _,
      by rw [← hsound.tables]⟩
    intro r g hr
    obtain ⟨rfl, rfl⟩ := Prod.mk.inj (Option.some.inj hr)
    exact ⟨rfl, hlock⟩

/-- **`build_snapshot`** gives what its four reads saw. -/
lemma buildSnapshot_triple (version : ℤ) :
    RoundTriple db t (Holding t game (Unread t game)) (buildSnapshot t game version)
      (Post (fun s => Holding t game (BuiltBy db t game s)) fun _ _ => False) := by
  have hfalse : ∀ e : String, Stable (Rely t) fun _ => False := fun _ => Stable.const False
  refine bind_triple readLocked_triple hfalse (fun _ _ => False.elim) fun locked => ?_
  refine bind_triple readTeams_triple hfalse (fun _ _ => False.elim) fun teams => ?_
  refine bind_triple (read_triple (f := fun db => memberRows db game)
    (K := fun members l => ∃ q q₂ q₃, Reading t game q l ∧ TeamsRead t game l ∧ q <+: q₂ ∧
      q₂ <+: q₃ ∧ q₃ <+: l ∧
      teams = teamRows (tablesAt db q₂) game (isLocked (tablesAt db q) game) ∧
      members = memberRows (tablesAt db q₃) game) ?_ ?_ ?_) hfalse (fun _ _ => False.elim)
    fun members => ?_
  · rintro l e ⟨q, q₂, hq, ht, h₁, h₂, rfl⟩ he
    exact ⟨q, q₂, hq.kept he, ht.kept he, h₁, h₂.trans (List.prefix_append _ _), rfl⟩
  · rintro members l e ⟨q, q₂, q₃, hq, ht, h₁, h₂, h₃, rfl, rfl⟩ he
    exact ⟨q, q₂, q₃, hq.kept he, ht.kept he, h₁, h₂, h₃.trans (List.prefix_append _ _), rfl, rfl⟩
  · rintro l ⟨q, q₂, hq, ht, h₁, h₂, rfl⟩
    exact ⟨q, q₂, l, hq, ht, h₁, h₂, List.prefix_rfl, rfl, rfl⟩
  refine bind_triple (read_triple (f := fun db => Leaderboard.lockedAt db game)
    (K := fun lockedAt l => BuiltBy db t game
      (assemble (joinMembers teams members) lockedAt version) l) ?_ ?_ ?_) hfalse
    (fun _ _ => False.elim) fun lockedAt => ?_
  · rintro l e ⟨q, q₂, q₃, hq, ht, h₁, h₂, h₃, rfl, rfl⟩ he
    exact ⟨q, q₂, q₃, hq.kept he, ht.kept he, h₁, h₂, h₃.trans (List.prefix_append _ _), rfl, rfl⟩
  · rintro lockedAt l e ⟨q, hq, ht, hb⟩ he
    exact ⟨q, hq.kept he, ht.kept he, hb.snoc e⟩
  · rintro l ⟨q, q₂, q₃, hq, ht, h₁, h₂, h₃, rfl, rfl⟩
    exact ⟨q, hq, ht, q₂, q₃, l, h₁, h₂, h₃, List.prefix_rfl, rfl⟩
  exact Fallible.pure_triple (stable_holding fun l e ⟨q, hq, ht, hb⟩ he =>
    ⟨q, hq.kept he, ht.kept he, hb.snoc e⟩) fun _ h => h

/-- Writing the cache is not an event. -/
private lemma cache_triple {H : List Event → Prop}
    (hH : ∀ l e, H l → (∀ r, e.round ≠ some (r, game)) → H (l ++ [e]))
    (snapshot : LeaderBoardSnapshot) :
    RoundTriple db t (Holding t game H) (insertCache server game snapshot)
      (Post (fun _ => Holding t game H) fun _ _ => False) := by
  refine act_triple (stable_holding hH) (stable_post (fun _ => stable_holding hH)
    fun _ => Stable.const False) ?_
  rintro d ⟨hlock, hd⟩ - hsound
  exact ⟨.quiet (hsound.congr rfl rfl rfl rfl rfl rfl) rfl rfl, hlock, hd⟩

private lemma builtBy_kept {s : LeaderBoardSnapshot} :
    ∀ l e, BuiltBy db t game s l → (∀ r, e.round ≠ some (r, game)) →
      BuiltBy db t game s (l ++ [e]) :=
  fun _ e ⟨q, hq, ht, hb⟩ he => ⟨q, hq.kept he, ht.kept he, hb.snoc e⟩

/-- **`publish_snapshot`** stores what the round has read; it fails only where the round has cleared
nothing. -/
lemma publishSnapshot_triple (s : LeaderBoardSnapshot) :
    RoundTriple db t (Holding t game (BuiltBy db t game s)) (publishSnapshot server t game s)
      (Post (fun _ => Holding t game (Stored t game))
        fun _ => Holding t game (Uncleared t game)) := by
  have hbuilt := stable_holding (t := t) (H := BuiltBy db t game s) builtBy_kept
  have hstored := stable_holding (t := t) (H := Stored t game) fun l e => Stored.kept
  have huncleared := stable_holding (t := t) (H := Uncleared t game) fun l e => Uncleared.kept
  refine bind_triple (B := fun _ => Holding t game (BuiltBy db t game s))
    (F := fun _ => Holding t game (Uncleared t game))
    (act_triple hbuilt (stable_post (fun _ => hbuilt) fun _ => huncleared) ?_) (fun _ => huncleared)
    (fun _ _ h => h) fun _ => ?_
  · rintro d ⟨hlock, hd⟩ hok hsound
    by_cases hup : d.kvUp = true
    · rw [if_pos hup]
      exact ⟨.quiet (hsound.congr rfl rfl rfl rfl rfl rfl) rfl rfl, hlock, hd⟩
    · rw [if_neg hup]
      exact ⟨.quiet hsound rfl rfl, hlock, hok.resolve_left hup⟩
  refine bind_triple (B := fun _ => Holding t game (Stored t game))
    (F := fun _ => Holding t game (Uncleared t game))
    (act_triple hbuilt (stable_post (fun _ => hstored) fun _ => huncleared) ?_) (fun _ => huncleared)
    (fun _ _ h => h) fun _ => ?_
  · rintro d ⟨hlock, q, hq, ht, hb⟩ hok hsound
    by_cases hup : d.kvUp = true
    · rw [if_pos hup]
      refine ⟨.record (hsound.publish hlock hq.1 hb hq.2) rfl rfl fun r g hr => ?_, hlock,
        Stored.begin hq ht s⟩
      obtain ⟨rfl, rfl⟩ := Prod.mk.inj (Option.some.inj hr)
      exact ⟨rfl, hlock⟩
    · rw [if_neg hup]
      exact ⟨.quiet hsound rfl rfl, hlock, hok.resolve_left hup⟩
  refine bind_triple (cache_triple (fun l e => Stored.kept) s) (fun _ => Stable.const False)
    (fun _ _ => False.elim) fun _ => ?_
  exact Fallible.pure_triple hstored fun _ h => h

/-- A snapshot that cannot be stored leaves a round that has cleared nothing. -/
lemma publishOrCache_triple (s : LeaderBoardSnapshot) :
    RoundTriple db t (Holding t game (BuiltBy db t game s)) (publishOrCache server t game s)
      (Post (fun _ => Holding t game (Done t game)) fun _ => Holding t game (Done t game)) := by
  have hdone := stable_holding (t := t) (H := Done t game) fun l e => Done.kept
  refine Prog.Triple.bind (publishSnapshot_triple s) (fun _ _ _ _ h => h) (fun _ => .refl)
    fun r => ?_
  cases r with
  | ok s' =>
    exact Prog.Triple.ret (stable_holding fun l e => Stored.kept) fun d h => ⟨h.1, h.2.done⟩
  | error e =>
    refine bind_triple (cache_triple (fun l e => Uncleared.kept) s) (fun _ => Stable.const False)
      (fun _ _ => False.elim) fun _ => ?_
    exact Fallible.pure_triple (stable_holding fun l e => Uncleared.kept)
      fun d h => ⟨h.1, h.2.done⟩

/-- A statement of the round that the invariant does not speak of. -/
private lemma quiet_triple {α : Type} {f : Board → Except String α × Board}
    {H : List Event → Prop} (hH : ∀ l e, H l → (∀ r, e.round ≠ some (r, game)) → H (l ++ [e]))
    (hf : ∀ d, Sound db d → Sound db (f d).2 ∧ (f d).2.history = d.history ∧
      (f d).2.advisory = d.advisory) :
    RoundTriple db t (Holding t game H) (act .sql f)
      (Post (fun _ => Holding t game H) fun _ => Holding t game H) := by
  refine act_triple (stable_holding hH) (stable_post (fun _ => stable_holding hH)
    fun _ => stable_holding hH) ?_
  rintro d ⟨hlock, hd⟩ - hsound
  obtain ⟨hsound', hhist, hadv⟩ := hf d hsound
  refine ⟨.quiet hsound' hhist hadv, ?_⟩
  have hkept : Holding t game H (f d).2 := ⟨by rw [hadv]; exact hlock, by rw [hhist]; exact hd⟩
  cases (f d).1 <;> exact hkept

/-- A round that has just taken the lock. -/
def Begun (t : Tid) (game : Id) (l : List Event) : Prop := Unread t game l ∧ Uncleared t game l

lemma Begun.kept {l : List Event} {e : Event} (h : Begun t game l)
    (he : ∀ r, e.round ≠ some (r, game)) : Begun t game (l ++ [e]) :=
  ⟨h.1.kept he, h.2.kept he⟩

/-- Drawing a version: it fails where it has cleared nothing. -/
lemma nextVersion_triple :
    RoundTriple db t (Holding t game (Begun t game)) (nextVersion t game)
      (Post (fun _ => Holding t game (Unread t game))
        fun _ => Holding t game (Done t game)) := by
  refine act_triple (stable_holding fun l e => Begun.kept)
    (stable_post (fun _ => stable_holding fun l e => Unread.kept)
      fun _ => stable_holding fun l e => Done.kept) ?_
  rintro d ⟨hlock, hd⟩ - hsound
  split
  · split
    · exact ⟨.quiet (hsound.setRefreshState (by simp)) rfl rfl, hlock, hd.1⟩
    · refine ⟨.clear hsound hlock _, ?_⟩
      unfold Board.clear
      split
      · exact ⟨hlock, by simpa [Unread, Board.log, Board.setRefreshState] using hd.1⟩
      · exact ⟨hlock, hd.1⟩
  · exact ⟨.quiet hsound rfl rfl, hlock, hd.2.done⟩

/-- **The final `UPDATE`** takes away only marks that the round has met. -/
lemma clearFlag_triple :
    RoundTriple db t (Holding t game (Stored t game)) (clearFlag t game)
      (Post (fun _ => Holding t game (Done t game)) fun _ => Holding t game (Done t game)) := by
  have hdone := stable_holding (t := t) (H := Done t game) fun l e => Done.kept
  refine act_triple (stable_holding fun l e => Stored.kept)
    (stable_post (fun _ => hdone) fun _ => hdone) ?_
  rintro d ⟨hlock, hd⟩ hok hsound
  split
  · exact ⟨.quiet hsound rfl rfl, hlock, hd.done⟩
  · refine ⟨.clear hsound hlock _, ?_⟩
    unfold Board.clear
    split
    · exact ⟨hlock, hd.clear hok⟩
    · exact ⟨hlock, hd.done⟩

/-- **A body under the lock** that leaves every mark it has cleared met. -/
lemma underLock_triple {α : Type} {A : Board → Prop} {body : Round α}
    (hbody : RoundTriple db t A body
      (Post (fun _ => Holding t game (Done t game)) fun _ => Holding t game (Done t game))) :
    RoundTriple db t A (underLock t game body) fun _ _ => True := by
  have hdone := stable_holding (t := t) (H := Done t game) fun l e => Done.kept
  refine Prog.Triple.bind hbody (fun _ _ _ _ h => h) (fun _ => .refl) fun r => ?_
  have hunlock : RoundTriple db t (Holding t game (Done t game))
      (do advisoryUnlock t game; ExceptT.mk (.ret r)) fun _ _ => True := by
    refine bind_triple (B := fun _ _ => True) (F := fun _ _ => True)
      (act_triple hdone (stable_post (fun _ => Stable.const True) fun _ => Stable.const True) ?_)
      (fun _ => Stable.const True) (fun _ _ _ => trivial)
      fun _ => Prog.Triple.ret (Stable.const True) fun _ _ => trivial
    rintro d ⟨hlock, hd⟩ - hsound
    rw [if_pos hlock]
    refine ⟨⟨.inl rfl, fun g u hu hg => ?_, hsound.unlock hlock hd⟩, trivial⟩
    have hne : g ≠ game := by
      rintro rfl
      exact hu (Option.some.inj (hg.symm.trans hlock))
    simpa [hne] using hg
  cases r <;> exact hunlock

/-- Taking the lock. -/
lemma tryAdvisoryLock_triple :
    RoundTriple db t (NotBegun t) (tryAdvisoryLock t game)
      (Post (fun locked d => locked = true → Holding t game (Begun t game) d)
        fun _ _ => False) := by
  refine act_triple stable_notBegun (stable_post (fun locked => ?_) fun _ => Stable.const False) ?_
  · exact fun d d' h hr hl => stable_holding (fun l e => Begun.kept) d d' (h hl) hr
  · intro d hd _ hsound
    split
    · rename_i hfree
      refine ⟨⟨.inl rfl, fun g u _ hg => ?_, hsound.lock hfree⟩, fun _ => ⟨by simp, ?_, ?_⟩⟩
      · have hne : g ≠ game := by
          rintro rfl
          rw [hfree] at hg
          simp at hg
        simpa [hne] using hg
      · exact fun hm => hd _ hm game rfl
      · exact fun hm => hd _ hm game rfl
    · exact ⟨.quiet hsound rfl rfl, by simp [Post]⟩

/-- `refresh_game`. -/
lemma refreshGame_triple :
    RoundTriple db t (NotBegun t) (refreshGame server t game) fun _ _ => True := by
  have hdone : ∀ _ : String, Stable (Rely t) (Holding t game (Done t game)) :=
    fun _ => stable_holding fun l e => Done.kept
  refine bind_triple tryAdvisoryLock_triple (fun _ => Stable.const False) (fun _ _ => False.elim)
    fun locked => ?_
  cases locked with
  | false => exact fun _ _ _ _ => trivial
  | true =>
    refine Prog.Triple.conseq (A := Holding t game (Begun t game)) ?_ (fun _ h => h rfl)
      fun _ _ h => h
    refine underLock_triple ?_
    refine bind_triple (quiet_triple (fun l e => Begun.kept) fun d h => ⟨h, rfl, rfl⟩)
      (fun _ => stable_holding fun l e => Begun.kept) (fun _ _ h => ⟨h.1, h.2.2.done⟩) fun revision => ?_
    refine bind_triple nextVersion_triple hdone (fun _ _ h => h) fun version => ?_
    refine bind_triple (buildSnapshot_triple version) (fun _ => Stable.const False)
      (fun _ _ => False.elim) fun s => ?_
    refine bind_triple (publishSnapshot_triple s) (fun _ => stable_holding fun l e => Uncleared.kept)
      (fun _ _ h => ⟨h.1, h.2.done⟩) fun _ => ?_
    refine bind_triple (B := fun _ => Holding t game (Stored t game))
      (F := fun _ => Holding t game (Stored t game)) ?_
      (fun _ => stable_holding fun l e => Stored.kept) (fun _ _ h => ⟨h.1, h.2.done⟩)
      fun _ => clearFlag_triple
    cases revision with
    | none => exact Fallible.pure_triple (stable_holding fun l e => Stored.kept) fun _ h => h
    | some m =>
      exact quiet_triple (fun l e => Stored.kept) fun d h =>
        ⟨h.congr rfl rfl rfl rfl rfl rfl, rfl, rfl⟩

/-- A round that does not get the lock only reads the store and its cache. -/
private lemma aside_triple {α : Type} {f : Board → Except String α × Board}
    (hf : ∀ d, Sound db d → Sound db (f d).2 ∧ (f d).2.history = d.history ∧
      (f d).2.advisory = d.advisory) :
    RoundTriple db t (fun _ => True) (act .sql f) (Post (fun _ _ => True) fun _ _ => True) := by
  refine act_triple (Stable.const True)
    (stable_post (fun _ => Stable.const True) fun _ => Stable.const True) fun d _ _ hsound => ?_
  obtain ⟨hsound', hhist, hadv⟩ := hf d hsound
  exact ⟨.quiet hsound' hhist hadv, by cases (f d).1 <;> trivial⟩

lemma awaitSnapshot_triple (n : ℕ) :
    RoundTriple db t (fun _ => True) (awaitSnapshot server game n) fun _ _ => True := by
  induction n with
  | zero =>
    refine (aside_triple fun d h => ⟨h, rfl, rfl⟩).conseq (fun _ h => h) fun _ _ _ => trivial
  | succ n ih =>
    have hload : RoundTriple db t (fun _ => True) (loadSnapshot server game)
        (Post (fun _ _ => True) fun _ _ => True) := by
      refine bind_triple (aside_triple fun d h => ⟨h, rfl, rfl⟩) (fun _ => Stable.const True)
        (fun _ _ _ => trivial) fun s => ?_
      cases s with
      | none => exact Fallible.pure_triple (Stable.const True) fun _ _ => trivial
      | some s =>
        refine bind_triple (aside_triple fun d h => ⟨h.congr rfl rfl rfl rfl rfl rfl, rfl, rfl⟩)
          (fun _ => Stable.const True) (fun _ _ _ => trivial) fun _ => ?_
        exact Fallible.pure_triple (Stable.const True) fun _ _ => trivial
    refine Prog.Triple.bind hload (fun _ _ _ _ h => h) (fun _ => .refl) fun r => ?_
    rcases r with e | _ | s
    · exact ih.conseq (fun _ _ => trivial) fun _ _ h => h
    · exact ih.conseq (fun _ _ => trivial) fun _ _ h => h
    · exact fun _ _ _ _ => trivial

/-- `rebuild_and_publish`. -/
lemma rebuildAndPublish_triple :
    RoundTriple db t (NotBegun t) (rebuildAndPublish server t game) fun _ _ => True := by
  refine bind_triple tryAdvisoryLock_triple (fun _ => Stable.const False) (fun _ _ => False.elim)
    fun locked => ?_
  cases locked with
  | false => exact (awaitSnapshot_triple 5).conseq (fun _ _ => trivial) fun _ _ h => h
  | true =>
    have hround : RoundTriple db t (Holding t game (Begun t game))
        (underLock t game (do
          let version ← nextVersion t game
          let snapshot ← buildSnapshot t game version
          publishOrCache server t game snapshot)) fun _ _ => True := by
      refine underLock_triple ?_
      refine bind_triple nextVersion_triple (fun _ => stable_holding fun l e => Done.kept)
        (fun _ _ h => h) fun version => ?_
      exact bind_triple (buildSnapshot_triple version) (fun _ => Stable.const False)
        (fun _ _ => False.elim) publishOrCache_triple
    refine Prog.Triple.conseq (A := Holding t game (Begun t game)) ?_ (fun _ h => h rfl)
      fun _ _ h => h
    refine bind_triple (B := fun _ _ => True) (F := fun _ _ => True)
      (hround.conseq (fun _ h => h) fun r _ _ => by cases r <;> trivial)
      (fun _ => Stable.const True) (fun _ _ _ => trivial) fun _ => ?_
    exact Fallible.pure_triple (Stable.const True) fun _ _ => trivial

/-- `mark_game_dirty`. -/
lemma markGameDirty_triple :
    RoundTriple db t (NotBegun t) (markGameDirty server game) fun _ _ => True := by
  refine bind_triple (B := fun _ _ => True) (F := fun _ _ => True)
    (act_triple stable_notBegun
      (stable_post (fun _ => Stable.const True) fun _ => Stable.const True) ?_)
    (fun _ => Stable.const True) (fun _ _ _ => trivial) fun _ => ?_
  · intro d _ _ hsound
    split
    · rename_i hgame
      exact ⟨.record (hsound.mark hgame _) rfl rfl (by simp [Event.round]), trivial⟩
    · exact ⟨.quiet hsound rfl rfl, trivial⟩
  · exact (aside_triple fun d h => ⟨h.congr rfl rfl rfl rfl rfl rfl, rfl, rfl⟩).conseq
      (fun _ h => h) fun _ _ _ => trivial

/-- Every call. -/
theorem request_triple (req : Request) :
    RoundTriple db t (NotBegun t) (req.run t) fun _ _ => True := by
  cases req with
  | markGameDirty server game => exact markGameDirty_triple
  | refreshGame server game => exact refreshGame_triple
  | rebuildAndPublish server game =>
    refine bind_triple (B := fun _ _ => True) (F := fun _ _ => True)
      (rebuildAndPublish_triple.conseq (fun _ h => h) fun r _ _ => by cases r <;> trivial)
      (fun _ => Stable.const True) (fun _ _ _ => trivial) fun _ => ?_
    exact Fallible.pure_triple (Stable.const True) fun _ _ => trivial

end Calls

/-! ## Any number of calls -/

/-- **No mark is lost**: a round that has cleared a mark reads the teams after it, and where a game
is not listed and no round of it is under way, its stored snapshot was read after every mark. -/
def MarksKept (db : Tables) (d : Board) : Prop :=
  ∀ game l₁ l₂, d.history = l₁ ++ .marked game :: l₂ →
    (∀ r, .cleared r game ∈ l₂ → d.advisory game = some r ∨ .readTeams r game ∈ l₂) ∧
    (game ∉ dirtyGames d → d.advisory game = none →
      ∃ s, d.latest game = some s ∧ BuiltAfter db game (l₁ ++ [.marked game]) d.history s)

lemma mem_dirtyGames {d : Board} {game : Id} : game ∈ dirtyGames d ↔ game ∈ d.games ∧
    (d.dirtyTeams.any (·.gameId = game) = true ∨ d.flagged game = true) := by
  simp [dirtyGames, List.mem_insertionSort]

lemma Sound.marksKept {db : Tables} {d : Board} (h : Sound db d) : MarksKept db d := by
  intro game l₁ l₂ hl
  have hmark : Event.marks game (.marked game) = true := by simp
  constructor
  · intro r hr
    have hfresh := h.fresh game
    rw [hl] at hfresh
    rcases hfresh.of_split hmark r hr with hlock | ⟨-, ht⟩
    · exact .inl hlock
    · exact .inr ht
  · intro hlisted hidle
    refine h.builtAfter hl ?_ hidle
    have hgame : game ∈ d.games := h.games game (by simp [hl])
    rw [← Bool.not_eq_true]
    exact fun hup => hlisted (mem_dirtyGames.mpr ⟨hgame, .inr hup⟩)

section Run

variable {calls : Tid → Request} {c c' : Config Label Board (Except String Unit)}

/-- **Marks are kept in every run** in which a final `UPDATE` finds no mark made since its round's
first read, and a round that has cleared the flag can store its snapshot. -/
theorem marksKept_of_reaches (hcalls : ∀ t, c.threads t = ((calls t).run t).run)
    (hhistory : c.shared.history = []) (hrun : Reaches Changes Unharmed c c') :
    MarksKept c.shared.tables c'.shared := by
  have hsound : Sound c.shared.tables c.shared := by
    constructor <;> simp [hhistory, tablesAt]
  have hgood : c.Good Unharmed (Sound c.shared.tables) Rely
      (fun t => Plain fun _ => Moves c.shared.tables t) (fun _ _ _ => True) := by
    refine ⟨hsound, fun t => ?_⟩
    rw [hcalls t]
    exact request_triple (calls t) _ (by simp [NotBegun, hhistory])
  exact ((relyGuarantee c.shared.tables).reaches hgood hrun).1.marksKept

/-- A game whose board has two teams that have started. -/
def twoTeams : Tables where
  team := [⟨1, 1, "first", "", some 0, none, false⟩, ⟨2, 1, "second", "", some 0, none, false⟩]
  teamPuzzle := []
  teamFeature := []
  leaderboardLock _ := none
  leaderboardLockTeam := []
  teamMember := []
  nickname _ := none

/-- The first team is banned. -/
def firstBanned : Tables :=
  { twoTeams with
    team := [⟨1, 1, "first", "", some 0, none, true⟩, ⟨2, 1, "second", "", some 0, none, false⟩] }

/-- The game is marked, and a refresher and another marker come. -/
def refresherAndMarker : Config Label Board (Except String Unit) where
  shared := ⟨[1], twoTeams, fun _ => some ⟨0, true⟩, [], fun _ => none, true, fun _ => none,
    fun _ _ => none, fun _ _ => none, []⟩
  threads t := ((if t = 0 then Request.refreshGame 0 1 else .markGameDirty 0 1).run t).run

/-- Both calls have returned, and no game is listed. -/
def settled (c : Config Label Board (Except String Unit)) : Bool :=
  (c.threads 0).result? = some (.ok ()) && (c.threads 1).result? = some (.ok ()) &&
    (dirtyGames c.shared).isEmpty

/-- The team is banned and the game marked before the refresher begins. -/
theorem marksKept_of_reaches_before : ∃ c', Reaches Changes Unharmed refresherAndMarker c' ∧
    settled c' = true ∧ (c'.shared.latest 1).map (·.order) = some [2] ∧
    MarksKept twoTeams c'.shared := by
  obtain ⟨c', hrun, hc'⟩ := exists_reaches_of_exec Changes Unharmed (c := refresherAndMarker)
    ([.env fun d => ({ d with tables := firstBanned } : Board).log (.changed firstBanned)] ++
      List.replicate 2 (.thread 1) ++ List.replicate 12 (.thread 0))
    (p := fun c' => settled c' && (c'.shared.latest 1).map (·.order) = some [2])
    (by simpa using fun d => Changes.tables d firstBanned) (by decide +kernel)
  simp only [Bool.and_eq_true, decide_eq_true_eq] at hc'
  have hcalls : ∀ t, refresherAndMarker.threads t =
      ((if t = 0 then Request.refreshGame 0 1 else .markGameDirty 0 1).run t).run := fun _ => rfl
  exact ⟨c', hrun, hc'.1, hc'.2, marksKept_of_reaches hcalls rfl hrun⟩

/-- **A mark is lost**: the team is banned and the game marked after the refresher has read the
teams. All calls have returned and no game is listed, but the stored board shows the team. -/
theorem mark_lost : ∃ c', Reaches Changes Always refresherAndMarker c' ∧
    settled c' = true ∧ (c'.shared.latest 1).map (·.order) = some [1, 2] ∧
    (liveRows c'.shared.tables 1).map (·.id) = [2] ∧ ¬ MarksKept twoTeams c'.shared := by
  obtain ⟨c', hrun, hc'⟩ := exists_reaches_of_exec Changes Always (c := refresherAndMarker)
    (List.replicate 5 (.thread 0) ++
      [.env fun d => ({ d with tables := firstBanned } : Board).log (.changed firstBanned)] ++
      List.replicate 2 (.thread 1) ++ List.replicate 7 (.thread 0))
    (p := fun c' => settled c' && (c'.shared.latest 1).map (·.order) = some [1, 2] &&
      (liveRows c'.shared.tables 1).map (·.id) = [2] && c'.shared.advisory 1 = none &&
      !decide (After (Event.marks 1) (fun l => Event.cleared 0 1 ∈ l → Event.readTeams 0 1 ∈ l)
        c'.shared.history))
    (by simpa using fun d => Changes.tables d firstBanned) (by decide +kernel)
  simp only [Bool.and_eq_true, decide_eq_true_eq, Bool.not_eq_true', decide_eq_false_iff_not] at hc'
  obtain ⟨⟨⟨⟨hsettled, horder⟩, hnow⟩, hidle⟩, hlost⟩ := hc'
  refine ⟨c', hrun, hsettled, horder, hnow, fun hkept => hlost ?_⟩
  rw [after_iff]
  intro l₁ e l₂ hl he hcleared
  rw [Event.marks_iff] at he
  subst he
  rcases (hkept 1 l₁ l₂ hl).1 0 hcleared with hlock | ht
  · rw [hidle] at hlock
    simp at hlock
  · exact ht

end Run

end Leaderboard
