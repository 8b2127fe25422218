import RbphBackend.Leaderboard.DirtyRounds

set_option relaxedAutoImplicit false
set_option autoImplicit false

/-!
# What a mark announces is published

The largest revision that a round finds bounds what it may delete: a mark that drew a smaller one
was issued before the round read the board, whenever it commits. The versions of a game grow, for a
round draws and publishes them while it holds the game's lock.

## Main definitions

* `Leaderboard.Announces` — what the marks of a run promise.

## Main results

* `Leaderboard.announces_of_reaches` — any number of marks and calls in any interleaving.
-/

namespace Leaderboard

open Concurrency

section Rounds

variable {db : Tables} {t : Tid} {req : DirtyRequest} {game : Id} {server : ℕ}

/-! ## What a round knows -/

/-- The round holds the lock. -/
def HoldsLock (t : Tid) (game : Id) (d : MarkedBoard) : Prop := d.board.advisory game = some t

/-- The round has drawn a version, and holds the lock. -/
def HasVersion (t : Tid) (game : Id) (v : ℤ) (d : MarkedBoard) : Prop :=
  HoldsLock t game d ∧ (∃ s, d.board.refreshState game = some s ∧ s.nextVersion = v) ∧
    ∀ w ∈ publishedVersions game d.board.history, w < v

/-- The revisions up to the one found were drawn for marks issued among the first `n` events. -/
def Bounded (n : ℕ) (m : Option ℤ) (d : MarkedBoard) : Prop :=
  n ≤ d.board.history.length ∧ ∀ k, m = some k → k ≤ d.seq ∧ ∀ r ≤ k, d.announced r ≤ n

/-- The snapshot was read after the first `n` events. -/
def ReadAfter (db : Tables) (game : Id) (n : ℕ) (s : LeaderBoardSnapshot) (d : MarkedBoard) :
    Prop :=
  ∃ q, n ≤ q.length ∧ q <+: d.board.history ∧ BuiltFrom db game q d.board.history s

lemma stable_holdsLock : Stable (DirtyRely t) (HoldsLock t game) := fun _ _ h hr => hr.locks game h

lemma stable_hasVersion {v : ℤ} : Stable (DirtyRely t) (HasVersion t game v) := by
  rintro d d' ⟨hlock, ⟨s, hs, hv⟩, hlt⟩ hr
  obtain ⟨s', hs', hv'⟩ := hr.version game s hlock hs
  exact ⟨hr.locks game hlock, ⟨s', hs', hv'.trans hv⟩, by rw [hr.versions game hlock]; exact hlt⟩

lemma stable_bounded {n : ℕ} {m : Option ℤ} : Stable (DirtyRely t) (Bounded n m) := by
  rintro d d' ⟨hn, hm⟩ hr
  refine ⟨hn.trans hr.history.length_le, fun k hk => ?_⟩
  obtain ⟨hseq, hle⟩ := hm k hk
  exact ⟨hseq.trans hr.seq, fun r hrk => by rw [hr.announced r (hrk.trans hseq)]; exact hle r hrk⟩

/-- What is read from a history is read from a longer one. -/
lemma BuiltFrom.of_prefix {q l l' : List Event} {s : LeaderBoardSnapshot}
    (h : BuiltFrom db game q l s) (hl : l <+: l') : BuiltFrom db game q l' s := by
  obtain ⟨q₂, q₃, q₄, h₁, h₂, h₃, h₄, hs⟩ := h
  exact ⟨q₂, q₃, q₄, h₁, h₂, h₃, h₄.trans hl, hs⟩

lemma stable_readAfter {n : ℕ} {s : LeaderBoardSnapshot} :
    Stable (DirtyRely t) (ReadAfter db game n s) := by
  rintro d d' ⟨q, hn, hq, hb⟩ hr
  exact ⟨q, hn, hq.trans hr.history, hb.of_prefix hr.history⟩

/-- The reads a round has made so far. -/
def Prefixes (n : ℕ) (P : List Event → List Event → Prop) (d : MarkedBoard) : Prop :=
  ∃ q q', n ≤ q.length ∧ q <+: q' ∧ q' <+: d.board.history ∧ P q q'

lemma stable_prefixes {n : ℕ} {P : List Event → List Event → Prop} :
    Stable (DirtyRely t) (Prefixes n P) := by
  rintro d d' ⟨q, q', hn, hq, hq', hP⟩ hr
  exact ⟨q, q', hn, hq, hq'.trans hr.history, hP⟩

/-! ## The steps of a round -/

/-- A read of the tables, which leaves what is known otherwise. -/
lemma within_read_triple {α : Type} {f : Tables → α} {A : MarkedBoard → Prop}
    {B : α → MarkedBoard → Prop} (hA : Stable (DirtyRely t) A) (hB : ∀ a, Stable (DirtyRely t) (B a))
    (h : ∀ d, A d → B (f (tablesAt db d.board.history)) d) :
    MarkTriple db t req A (Fallible.within boardPart (act .sql fun d => (.ok (f d.tables), d)))
      (Post B fun _ _ => False) := by
  refine within_act_triple hA (stable_post hB fun _ => Stable.const False) fun d hd hinv _ => ?_
  refine ⟨.quiet hinv rfl rfl rfl rfl rfl, ?_⟩
  show B (f d.board.tables) d
  rw [hinv.tables]
  exact h d hd

/-- A read of the tables that is recorded. -/
lemma within_record_triple {α : Type} {f : Tables → α} {e : Event} {A : MarkedBoard → Prop}
    {B : α → MarkedBoard → Prop} (hpub : ∀ r g s, e ≠ .published r g s) (htables : e.tables = none)
    (hA : Stable (DirtyRely t) A) (hB : ∀ a, Stable (DirtyRely t) (B a))
    (h : ∀ d, A d → B (f (tablesAt db d.board.history)) { d with board := d.board.log e }) :
    MarkTriple db t req A
      (Fallible.within boardPart (act .sql fun d => (.ok (f d.tables), d.log e)))
      (Post B fun _ _ => False) := by
  refine within_act_triple hA (stable_post hB fun _ => Stable.const False) fun d hd hinv _ => ?_
  refine ⟨.log hinv hpub htables, ?_⟩
  show B (f d.board.tables) _
  rw [hinv.tables]
  exact h d hd

/-- A step on the board that the invariant does not speak of. -/
lemma within_quiet_triple {α : Type} {l : Label} {f : Board → Except String α × Board}
    {A : MarkedBoard → Prop} (hA : Stable (DirtyRely t) A)
    (hf : ∀ b, (f b).2.history = b.history ∧ (f b).2.tables = b.tables ∧
      (f b).2.dirtyTeams = b.dirtyTeams ∧ (f b).2.advisory = b.advisory ∧
      (f b).2.refreshState = b.refreshState)
    (hkeep : ∀ d b, A d → b.history = d.board.history → b.advisory = d.board.advisory →
      b.refreshState = d.board.refreshState → A { d with board := b }) :
    MarkTriple db t req A (Fallible.within boardPart (act l f))
      (Post (fun _ => A) fun _ => A) := by
  refine within_act_triple hA (stable_post (fun _ => hA) fun _ => hA) fun d hd hinv _ => ?_
  obtain ⟨hhist, htables, hdirty, hadv, hstate⟩ := hf d.board
  refine ⟨.quiet hinv hhist htables hdirty hadv hstate, ?_⟩
  have hkept : A { d with board := (f d.board).2 } := hkeep d _ hd hhist hadv hstate
  cases (f d.board).1 <;> exact hkept

/-- What the events of the round itself keep. -/
def Logged (e : Event) (A : MarkedBoard → Prop) : Prop :=
  ∀ d, A d → A { d with board := d.board.log e }

lemma logged_hasVersion {v : ℤ} {e : Event} (hpub : ∀ r g s, e ≠ .published r g s) :
    Logged e (HasVersion t game v) := by
  rintro d ⟨hlock, hs, hlt⟩
  refine ⟨hlock, hs, fun w hw => hlt w ?_⟩
  have hw' : w ∈ publishedVersions game (d.board.history ++ [e]) := hw
  rwa [publishedVersions_append, publishedVersions_singleton (publication_of_ne fun r s =>
    hpub r game s), List.append_nil] at hw'

lemma logged_bounded {n : ℕ} {m : Option ℤ} {e : Event} : Logged e (Bounded n m) := by
  rintro d ⟨hn, hm⟩
  refine ⟨?_, hm⟩
  show n ≤ (d.board.history ++ [e]).length
  rw [List.length_append]
  omega

/-- **`build_snapshot`** reads after all that was known to have happened. -/
lemma within_buildSnapshot {n : ℕ} {v : ℤ} {A : MarkedBoard → Prop}
    (hA : Stable (DirtyRely t) A) (hn : ∀ d, A d → n ≤ d.board.history.length)
    (hread : Logged (.reading t game) A) (hteams : Logged (.readTeams t game) A) :
    MarkTriple db t req A (Fallible.within boardPart (buildSnapshot t game v))
      (Post (fun s d => A d ∧ s.version = v ∧ ReadAfter db game n s d) fun _ _ => False) := by
  have hfalse : ∀ e : String, Stable (DirtyRely t) fun _ => False := fun _ => Stable.const False
  unfold buildSnapshot
  rw [Fallible.within_bind]
  refine mark_bind_triple (within_record_triple (f := fun db => isLocked db game)
    (B := fun locked d => A d ∧ Prefixes n (fun q _ => locked = isLocked (tablesAt db q) game) d)
    (by simp) rfl hA (fun _ => hA.and stable_prefixes) fun d hd => ⟨hread d hd, ?_⟩)
    hfalse (fun _ _ => False.elim) fun locked => ?_
  · exact ⟨d.board.history, d.board.history, hn d hd, List.prefix_rfl, List.prefix_append _ _, rfl⟩
  rw [Fallible.within_bind]
  refine mark_bind_triple (within_record_triple (f := fun db => teamRows db game locked)
    (B := fun teams d => A d ∧ Prefixes n (fun q q' =>
      teams = teamRows (tablesAt db q') game (isLocked (tablesAt db q) game)) d)
    (by simp) rfl (hA.and stable_prefixes) (fun _ => hA.and stable_prefixes) ?_)
    hfalse (fun _ _ => False.elim) fun teams => ?_
  · rintro d ⟨hd, q, q', hnq, hq, hq', rfl⟩
    exact ⟨hteams d hd, q, d.board.history, hnq, hq.trans hq', List.prefix_append _ _, rfl⟩
  rw [Fallible.within_bind]
  refine mark_bind_triple (within_read_triple (f := fun db => memberRows db game)
    (B := fun members d => A d ∧ Prefixes n (fun q q' => ∃ q₂, q <+: q₂ ∧ q₂ <+: q' ∧
      teams = teamRows (tablesAt db q₂) game (isLocked (tablesAt db q) game) ∧
      members = memberRows (tablesAt db q') game) d)
    (hA.and stable_prefixes) (fun _ => hA.and stable_prefixes) ?_)
    hfalse (fun _ _ => False.elim) fun members => ?_
  · rintro d ⟨hd, q, q', hnq, hq, hq', rfl⟩
    exact ⟨hd, q, d.board.history, hnq, hq.trans hq', List.prefix_rfl, q', hq, hq', rfl, rfl⟩
  rw [Fallible.within_bind]
  refine mark_bind_triple (within_read_triple (f := fun db => Leaderboard.lockedAt db game)
    (B := fun lockedAt d => A d ∧
      ReadAfter db game n (assemble (joinMembers teams members) lockedAt v) d)
    (hA.and stable_prefixes) (fun _ => hA.and stable_readAfter) ?_)
    hfalse (fun _ _ => False.elim) fun lockedAt => ?_
  · rintro d ⟨hd, q, q', hnq, hq, hq', q₂, h₂, h₃, rfl, rfl⟩
    exact ⟨hd, q, hnq, hq.trans hq', q₂, q', d.board.history, h₂, h₃, hq', List.prefix_rfl, rfl⟩
  exact Fallible.pure_triple (hA.and stable_readAfter) fun d h => ⟨h.1, rfl, h.2⟩

/-! ## The calls -/

/-- The round has published a snapshot that was read after the first `n` events. -/
def PublishedAfter (db : Tables) (t : Tid) (game : Id) (n : ℕ) (d : MarkedBoard) : Prop :=
  ∃ s, .published t game s ∈ d.board.history ∧ ReadAfter db game n s d

lemma stable_publishedAfter {n : ℕ} : Stable (DirtyRely t) (PublishedAfter db t game n) := by
  rintro d d' ⟨s, hs, hread⟩ hr
  exact ⟨s, hr.history.subset hs, stable_readAfter d d' hread hr⟩

/-- A snapshot read after `n` events meets what was announced among them. -/
lemma PublishedAfter.met {n k : ℕ} {d : MarkedBoard} (h : PublishedAfter db t game n d)
    (hk : k ≤ n) : Met db t game k d.board.history := by
  obtain ⟨s, hs, q, hn, hq, hb⟩ := h
  refine ⟨s, hs, q, ?_, hb⟩
  exact List.prefix_of_prefix_length_le (List.take_prefix k _) hq
    ((List.length_take_le k _).trans (hk.trans hn))

/-- The row of a game's state is written by the holder of its lock. -/
lemma DirtyMoves.setState {d : MarkedBoard} (h : MarkInv db d) {b : Board} (l : List Event)
    (hhist : b.history = d.board.history ++ l) (hone : l = [] ∨ ∃ e, l = [e])
    (hpub : ∀ e ∈ l, ∀ r g s, e ≠ .published r g s) (hnone : ∀ e ∈ l, e.tables = none)
    (htables : b.tables = d.board.tables) (hdirty : b.dirtyTeams = d.board.dirtyTeams)
    (hadv : b.advisory = d.board.advisory) {s' : RefreshState}
    (hstate : b.refreshState = Function.update d.board.refreshState game (some s'))
    (hle : ∀ s, d.board.refreshState game = some s → s.nextVersion ≤ s'.nextVersion)
    (hown : HoldsLock t game d ∨ ∀ s, d.board.refreshState game = some s →
      s'.nextVersion = s.nextVersion) :
    DirtyMoves db t req d { d with board := b } := by
  refine .board h l hhist hone hpub ?_ hdirty (fun g u _ hg => by rw [hadv]; exact hg) ?_ ?_
  · rw [htables, hhist, h.tables, tablesAt, tablesAt]
    rcases hone with rfl | ⟨e, rfl⟩
    · rw [List.append_nil]
    · simp [hnone e List.mem_cons_self]
  · intro g s hs
    by_cases hg : g = game
    · subst hg
      exact ⟨s', by rw [hstate, Function.update_self], hle s hs⟩
    · exact ⟨s, by rw [hstate, Function.update_of_ne hg, hs], le_rfl⟩
  · intro g u s hu hlock hs
    by_cases hg : g = game
    · subst hg
      rcases hown with hown | hsame
      · exact absurd (Option.some.inj (hlock.symm.trans hown)) hu
      · exact ⟨s', by rw [hstate, Function.update_self], hsame s hs⟩
    · exact ⟨s, by rw [hstate, Function.update_of_ne hg, hs], rfl⟩

/-- The flag is taken down; only the holder of the lock raises the version. -/
lemma DirtyMoves.clear {d : MarkedBoard} (h : MarkInv db d) {version : ℤ}
    (hle : ∀ s, d.board.refreshState game = some s → s.nextVersion ≤ version)
    (hown : HoldsLock t game d ∨ ∀ s, d.board.refreshState game = some s →
      version = s.nextVersion) :
    DirtyMoves db t req d { d with board := d.board.clear t game version } := by
  unfold Board.clear
  split
  · exact .setState h [.cleared t game] rfl (.inr ⟨_, rfl⟩) (by simp)
      (by simp [Event.tables]) rfl rfl rfl rfl hle hown
  · exact .setState h [] (by simp [Board.setRefreshState]) (.inl rfl) (by simp) (by simp) rfl rfl rfl
      rfl hle hown

lemma clear_refreshState (b : Board) (version : ℤ) :
    (b.clear t game version).refreshState = Function.update b.refreshState game
      (some ⟨version, false⟩) := by
  unfold Board.clear
  split <;> rfl

lemma clear_versions (b : Board) (version : ℤ) (g : Id) :
    publishedVersions g (b.clear t game version).history = publishedVersions g b.history := by
  unfold Board.clear
  split
  · show publishedVersions g (b.history ++ [.cleared t game]) = _
    rw [publishedVersions_append, publishedVersions_singleton rfl, List.append_nil]
  · rfl

lemma clear_advisory (b : Board) (version : ℤ) :
    (b.clear t game version).advisory = b.advisory := by
  unfold Board.clear
  split <;> rfl

lemma clear_history (b : Board) (version : ℤ) :
    b.history <+: (b.clear t game version).history := by
  unfold Board.clear
  split
  · exact List.prefix_append _ _
  · exact List.prefix_rfl

/-- **Drawing a version**: it is above all versions that have been published. -/
lemma within_nextVersion {n : ℕ} {m : Option ℤ} :
    MarkTriple db t req (fun d => HoldsLock t game d ∧ Bounded n m d)
      (Fallible.within boardPart (nextVersion t game))
      (Post (fun v d => HasVersion t game v d ∧ Bounded n m d) fun _ _ => True) := by
  refine within_act_triple (stable_holdsLock.and stable_bounded)
    (stable_post (fun _ => stable_hasVersion.and stable_bounded) fun _ => Stable.const True) ?_
  rintro d ⟨hlock, hbound⟩ hinv -
  split
  · cases hs : d.board.refreshState game with
    | none =>
      refine ⟨.setState hinv [] (by simp [Board.setRefreshState]) (.inl rfl) (by simp) (by simp) rfl
        rfl rfl rfl (by simp [hs]) (.inl hlock), ⟨hlock, ⟨⟨1, true⟩, ?_, rfl⟩, ?_⟩, hbound⟩
      · exact Function.update_self ..
      · -- a game without a row has published nothing
        intro w hw
        obtain ⟨s, hs', -⟩ := hinv.version game w hw
        rw [hs] at hs'
        simp at hs'
    | some s =>
      have hlt : ∀ w ∈ publishedVersions game d.board.history, w < s.nextVersion + 1 := by
        intro w hw
        obtain ⟨s', hs', hle⟩ := hinv.version game w hw
        obtain rfl : s = s' := Option.some.inj (hs.symm.trans hs')
        omega
      refine ⟨.clear hinv (fun s' hs' => ?_) (.inl hlock),
        ⟨?_, ⟨⟨s.nextVersion + 1, false⟩, ?_, rfl⟩, ?_⟩,
        hbound.1.trans (clear_history _ _).length_le, hbound.2⟩
      · obtain rfl : s = s' := Option.some.inj (hs.symm.trans hs')
        omega
      · exact (congrFun (clear_advisory d.board _) game).trans hlock
      · show (d.board.clear t game _).refreshState game = _
        rw [clear_refreshState, Function.update_self]
      · intro w hw
        refine hlt w ?_
        have hv : publishedVersions game (d.board.clear t game (s.nextVersion + 1)).history =
            publishedVersions game d.board.history := clear_versions ..
        rw [← hv]
        exact hw
  · exact ⟨.quiet hinv rfl rfl rfl rfl rfl, trivial⟩

/-- **`publish_snapshot`** publishes the version that the round has drawn. -/
lemma within_publishSnapshot {n : ℕ} {m : Option ℤ} {v : ℤ} {s : LeaderBoardSnapshot} :
    MarkTriple db t req
      (fun d => (HasVersion t game v d ∧ Bounded n m d) ∧ s.version = v ∧ ReadAfter db game n s d)
      (Fallible.within boardPart (publishSnapshot server t game s))
      (Post (fun _ d => Bounded n m d ∧ PublishedAfter db t game n d) fun _ _ => True) := by
  have htrue : ∀ _ : String, Stable (DirtyRely t) fun _ => True := fun _ => Stable.const True
  have hA : Stable (DirtyRely t) fun d =>
      (HasVersion t game v d ∧ Bounded n m d) ∧ s.version = v ∧ ReadAfter db game n s d :=
    (stable_hasVersion.and stable_bounded).and ((Stable.const _).and stable_readAfter)
  have hB : Stable (DirtyRely t) fun d => Bounded n m d ∧ PublishedAfter db t game n d :=
    stable_bounded.and stable_publishedAfter
  unfold publishSnapshot
  rw [Fallible.within_bind]
  refine mark_bind_triple (B := fun _ d => (HasVersion t game v d ∧ Bounded n m d) ∧
    s.version = v ∧ ReadAfter db game n s d) (F := fun _ _ => True)
    (within_act_triple hA (stable_post (fun _ => hA) htrue) fun d hd hinv _ => ?_) htrue
    (fun _ _ _ => trivial) fun _ => ?_
  · split
    · exact ⟨.quiet hinv rfl rfl rfl rfl rfl, hd⟩
    · exact ⟨.quiet hinv rfl rfl rfl rfl rfl, trivial⟩
  rw [Fallible.within_bind]
  refine mark_bind_triple (B := fun _ d => Bounded n m d ∧ PublishedAfter db t game n d)
    (F := fun _ _ => True)
    (within_act_triple hA (stable_post (fun _ => hB) htrue) ?_) htrue (fun _ _ _ => trivial)
    fun _ => ?_
  · rintro d ⟨⟨⟨hlock, ⟨r, hr, hv⟩, hlt⟩, hbound⟩, hsv, q, hn, hq, hb⟩ hinv -
    split
    · refine ⟨⟨.inr ⟨_, rfl, fun r g s he => ?_⟩, fun _ _ _ hg => hg,
        fun g u s _ _ hs => ⟨s, hs, rfl⟩, le_rfl, fun _ _ => rfl,
        fun _ _ _ _ hl => ⟨hl, fun _ _ _ => Iff.rfl⟩,
        fun dt hdt hgone => absurd ⟨dt, hdt, rfl, rfl⟩ hgone,
        hinv.publish hr (by omega) fun w hw => by rw [hsv]; exact hlt w hw⟩, logged_bounded d hbound,
        s, List.mem_append_right _ List.mem_cons_self, q, hn, hq.trans (List.prefix_append _ _),
        hb.of_prefix (List.prefix_append _ _)⟩
      obtain ⟨rfl, rfl, rfl⟩ := Event.published.inj he
      exact hlock
    · exact ⟨.quiet hinv rfl rfl rfl rfl rfl, trivial⟩
  rw [Fallible.within_bind]
  refine mark_bind_triple (within_quiet_triple hB (fun b => ⟨rfl, rfl, rfl, rfl, rfl⟩) ?_)
    (fun _ => hB) (fun _ _ _ => trivial) fun _ => Fallible.pure_triple hB fun _ h => h
  rintro d b ⟨⟨hn, hm⟩, s, hs, q, hnq, hq, hb⟩ hhist - -
  refine ⟨⟨?_, hm⟩, s, ?_, q, hnq, ?_, ?_⟩
  · show n ≤ b.history.length
    rwa [hhist]
  · show _ ∈ b.history
    rwa [hhist]
  · show q <+: b.history
    rwa [hhist]
  · show BuiltFrom db game q b.history s
    rwa [hhist]

/-- **The delete** takes away rows whose marks the round's snapshot meets. -/
lemma within_deleteDirtyTeams {n : ℕ} {m : Option ℤ}
    (hreq : req = .call (.refreshGame server game)) :
    MarkTriple db t req (fun d => Bounded n m d ∧ PublishedAfter db t game n d)
      (Fallible.within boardPart (deleteDirtyTeams game m)) (Post (fun _ _ => True) fun _ _ => True)
      := by
  cases m with
  | none => exact fun _ _ _ _ => trivial
  | some k =>
    refine within_act_triple (stable_bounded.and stable_publishedAfter)
      (stable_post (fun _ => Stable.const True) fun _ => Stable.const True) ?_
    rintro d ⟨⟨hn, hm⟩, hpub⟩ hinv hfree
    have hmet : ∀ r ≤ k, Met db t game (d.announced r) d.board.history :=
      fun r hr => hpub.met ((hm k rfl).2 r hr)
    refine ⟨⟨.inl rfl, fun _ _ _ hg => hg, fun g u s _ _ hs => ⟨s, hs, rfl⟩, le_rfl,
      fun _ _ => rfl, fun g team u hu hl => ⟨hl, fun dt hg ht => ?_⟩, fun dt hdt hgone => ?_,
      hinv.delete hmet⟩, trivial⟩
    · refine ⟨List.mem_of_mem_filter, fun hdt => ?_⟩
      have hkept := List.all_eq_true.mp hfree dt hdt
      rw [hg, ht, hl] at hkept
      simpa using hkept
    · have hkey : dt.gameId = game ∧ dt.revision ≤ k := by
        by_contra hkey
        exact hgone ⟨dt, List.mem_filter.mpr ⟨hdt, decide_eq_true hkey⟩, rfl, rfl⟩
      rw [RemovedBy, hkey.1]
      exact ⟨⟨server, hreq⟩, hmet dt.revision hkey.2⟩

/-- A step of a call that neither the invariant nor the call itself relies on. -/
lemma within_aside_triple {α : Type} {l : Label} {f : Board → Except String α × Board}
    (hf : ∀ d, MarkInv db d → DirtyMoves db t req d { d with board := (f d.board).2 }) :
    MarkTriple db t req (fun _ => True) (Fallible.within boardPart (act l f))
      (Post (fun _ _ => True) fun _ _ => True) :=
  within_act_triple (Stable.const True)
    (stable_post (fun _ => Stable.const True) fun _ => Stable.const True)
    fun d _ hinv _ => ⟨hf d hinv, by cases (f d.board).1 <;> trivial⟩

/-- Nothing is claimed of what a call returns. -/
lemma MarkTriple.any {α : Type} {A : MarkedBoard → Prop} {p : Marking α}
    {Q : Except String α → MarkedBoard → Prop} (h : MarkTriple db t req A p Q) :
    MarkTriple db t req A p (Post (fun _ _ => True) fun _ _ => True) :=
  h.conseq (fun _ h => h) fun r _ _ => by cases r <;> trivial

/-- Composition where nothing is known in between. -/
lemma mark_bind_any {α β : Type} {A : MarkedBoard → Prop} {p : Marking α} {k : α → Marking β}
    (hp : MarkTriple db t req A p (Post (fun _ _ => True) fun _ _ => True))
    (hk : ∀ a, MarkTriple db t req (fun _ => True) (k a) (Post (fun _ _ => True) fun _ _ => True)) :
    MarkTriple db t req A (p >>= k) (Post (fun _ _ => True) fun _ _ => True) :=
  mark_bind_triple hp (fun _ => Stable.const True) (fun _ _ _ => trivial) hk

/-- A body under the lock. -/
lemma within_underLock {α : Type} {A : MarkedBoard → Prop} {body : Round α}
    (hbody : MarkTriple db t req A (Fallible.within boardPart body)
      (Post (fun _ _ => True) fun _ _ => True)) :
    MarkTriple db t req A (Fallible.within boardPart (underLock t game body))
      (Post (fun _ _ => True) fun _ _ => True) := by
  have hunlock : MarkTriple db t req (fun _ => True)
      (Fallible.within boardPart (advisoryUnlock t game)) (Post (fun _ _ => True) fun _ _ => True) := by
    refine within_aside_triple fun d hinv => ?_
    split
    · rename_i hlock
      refine .board hinv [] (by simp) (.inl rfl) (by simp) hinv.tables rfl (fun g u hu hg => ?_)
        (.of_eq rfl) fun g u s _ _ hs => ⟨s, hs, rfl⟩
      have hne : g ≠ game := by
        rintro rfl
        exact hu (Option.some.inj (hg.symm.trans hlock))
      simpa [hne] using hg
    · exact .quiet hinv rfl rfl rfl rfl rfl
  unfold underLock Fallible.within
  show Prog.Triple _ _ _ A (Prog.within boardPart (Prog.bind body.run _)) _
  rw [Prog.within_bind]
  refine Prog.Triple.bind hbody (fun _ _ _ _ h => h) (DirtyRely.refl t) fun r => ?_
  have hend : MarkTriple db t req (fun _ => True)
      (Fallible.within boardPart (do advisoryUnlock t game; ExceptT.mk (.ret r)))
      (Post (fun _ _ => True) fun _ _ => True) := by
    rw [Fallible.within_bind]
    refine mark_bind_any hunlock fun _ => ?_
    cases r <;> exact fun _ _ _ _ => trivial
  exact hend.conseq (fun _ _ => trivial) fun _ _ h => h

/-- Taking the lock. -/
lemma within_tryAdvisoryLock :
    MarkTriple db t req (fun _ => True) (Fallible.within boardPart (tryAdvisoryLock t game))
      (Post (fun locked d => locked = true → HoldsLock t game d) fun _ _ => False) := by
  refine within_act_triple (Stable.const True)
    (stable_post (fun locked d d' h hr hl => stable_holdsLock d d' (h hl) hr)
      fun _ => Stable.const False) fun d _ hinv _ => ?_
  split
  · rename_i hfree
    refine ⟨.board hinv [] (by simp) (.inl rfl) (by simp) hinv.tables rfl (fun g u _ hg => ?_)
      (.of_eq rfl) fun g u s _ _ hs => ⟨s, hs, rfl⟩, fun _ => Function.update_self ..⟩
    have hne : g ≠ game := by
      rintro rfl
      rw [hfree] at hg
      simp at hg
    simpa [hne] using hg
  · exact ⟨.quiet hinv rfl rfl rfl rfl rfl, by simp [Post]⟩

/-- **`refresh_game`**: what is read before the reads of the board bounds what is deleted. -/
lemma within_refreshGame (hreq : req = .call (.refreshGame server game)) :
    MarkTriple db t req (fun _ => True) (Fallible.within boardPart (refreshGame server t game))
      (Post (fun _ _ => True) fun _ _ => True) := by
  unfold refreshGame
  rw [Fallible.within_bind]
  refine mark_bind_triple within_tryAdvisoryLock (fun _ => Stable.const False)
    (fun _ _ => False.elim) fun locked => ?_
  cases locked with
  | false => exact fun _ _ _ _ => trivial
  | true =>
    refine Prog.Triple.conseq (A := HoldsLock t game) ?_ (fun _ h => h rfl) fun _ _ h => h
    refine within_underLock ?_
    rw [Fallible.within_bind]
    refine mark_bind_triple (B := fun m d => HoldsLock t game d ∧ ∃ n, Bounded n m d)
      (F := fun _ _ => False) (within_act_triple stable_holdsLock (stable_post (fun _ =>
        stable_holdsLock.and (Stable.exists fun _ => stable_bounded)) fun _ => Stable.const False) ?_)
      (fun _ => Stable.const False) (fun _ _ => False.elim) fun m => ?_
    · -- all that has been drawn so far was announced by what has happened so far
      rintro d hlock hinv -
      refine ⟨.quiet hinv rfl rfl rfl rfl rfl, hlock, d.board.history.length, le_rfl, fun k hk => ?_⟩
      have hseq : k ≤ d.seq := by
        obtain ⟨dt, hdt, hdk⟩ := List.mem_map.mp (mem_of_sqlMax hk)
        rw [← Option.some.inj hdk]
        exact hinv.rows dt (List.mem_of_mem_filter hdt)
      exact ⟨hseq, fun r hr => hinv.announced r (hr.trans hseq)⟩
    refine Prog.Triple.conseq (A := fun d => ∃ n, HoldsLock t game d ∧ Bounded n m d) ?_
      (fun d ⟨hlock, n, hn⟩ => ⟨n, hlock, hn⟩) fun _ _ h => h
    intro d ⟨n, hd⟩
    refine (?_ : MarkTriple db t req (fun d => HoldsLock t game d ∧ Bounded n m d) _ _) d hd
    rw [Fallible.within_bind]
    refine mark_bind_triple within_nextVersion (fun _ => Stable.const True)
      (fun _ _ _ => trivial) fun v => ?_
    rw [Fallible.within_bind]
    refine mark_bind_triple (within_buildSnapshot (n := n) (stable_hasVersion.and stable_bounded)
      (fun _ h => h.2.1) (fun d h => ⟨logged_hasVersion (by simp) d h.1, logged_bounded d h.2⟩)
      fun d h => ⟨logged_hasVersion (by simp) d h.1, logged_bounded d h.2⟩)
      (fun _ => Stable.const False) (fun _ _ => False.elim) fun s => ?_
    rw [Fallible.within_bind]
    refine mark_bind_triple within_publishSnapshot (fun _ => Stable.const True)
      (fun _ _ _ => trivial) fun _ => ?_
    rw [Fallible.within_bind]
    refine mark_bind_any (within_deleteDirtyTeams hreq) fun _ => within_aside_triple fun d hinv => ?_
    cases hs : d.board.refreshState game with
    | none => exact .quiet hinv rfl rfl rfl rfl rfl
    | some s =>
      have hsame : ∀ s', d.board.refreshState game = some s' → s.nextVersion = s'.nextVersion :=
        fun s' hs' => congrArg _ (Option.some.inj (hs.symm.trans hs'))
      exact .clear hinv (fun s' hs' => (hsame s' hs').ge) (.inr hsame)

/-- A snapshot that cannot be stored is only cached. -/
lemma within_publishOrCache {n : ℕ} {m : Option ℤ} {v : ℤ} {s : LeaderBoardSnapshot} :
    MarkTriple db t req
      (fun d => (HasVersion t game v d ∧ Bounded n m d) ∧ s.version = v ∧ ReadAfter db game n s d)
      (Fallible.within boardPart (publishOrCache server t game s))
      (Post (fun _ _ => True) fun _ _ => True) := by
  unfold publishOrCache Fallible.within
  show Prog.Triple _ _ _ _ (Prog.within boardPart (Prog.bind (publishSnapshot server t game s).run _)) _
  rw [Prog.within_bind]
  refine Prog.Triple.bind within_publishSnapshot.any (fun _ _ _ _ h => h) (DirtyRely.refl t)
    fun r => ?_
  cases r with
  | ok s' => exact fun _ _ _ _ => trivial
  | error e =>
    have hcache : MarkTriple db t req (fun _ => True)
        (Fallible.within boardPart (do insertCache server game s; return s))
        (Post (fun _ _ => True) fun _ _ => True) := by
      rw [Fallible.within_bind]
      exact mark_bind_any (within_aside_triple fun d hinv => .quiet hinv rfl rfl rfl rfl rfl)
        fun _ _ _ _ _ => trivial
    exact hcache

/-- A round that does not get the lock only reads the store and its cache. -/
lemma within_awaitSnapshot (n : ℕ) :
    MarkTriple db t req (fun _ => True) (Fallible.within boardPart (awaitSnapshot server game n))
      (Post (fun _ _ => True) fun _ _ => True) := by
  induction n with
  | zero => exact within_aside_triple fun d hinv => .quiet hinv rfl rfl rfl rfl rfl
  | succ n ih =>
    have hload : MarkTriple db t req (fun _ => True)
        (Fallible.within boardPart (loadSnapshot server game))
        (Post (fun _ _ => True) fun _ _ => True) := by
      unfold loadSnapshot
      rw [Fallible.within_bind]
      refine mark_bind_any (within_aside_triple fun d hinv => .quiet hinv rfl rfl rfl rfl rfl)
        fun s => ?_
      cases s with
      | none => exact fun _ _ _ _ => trivial
      | some s =>
        rw [Fallible.within_bind]
        exact mark_bind_any (within_aside_triple fun d hinv => .quiet hinv rfl rfl rfl rfl rfl)
          fun _ _ _ _ _ => trivial
    unfold awaitSnapshot Fallible.within
    show Prog.Triple _ _ _ _ (Prog.within boardPart (Prog.bind (loadSnapshot server game).run _)) _
    rw [Prog.within_bind]
    refine Prog.Triple.bind hload (fun _ _ _ _ h => h) (DirtyRely.refl t) fun r => ?_
    rcases r with e | _ | s
    · exact ih.conseq (fun _ _ => trivial) fun _ _ h => h
    · exact ih.conseq (fun _ _ => trivial) fun _ _ h => h
    · exact fun _ _ _ _ => trivial

/-- **`rebuild_and_publish`** deletes nothing. -/
lemma within_rebuildAndPublish :
    MarkTriple db t req (fun _ => True) (Fallible.within boardPart (rebuildAndPublish server t game))
      (Post (fun _ _ => True) fun _ _ => True) := by
  unfold rebuildAndPublish
  rw [Fallible.within_bind]
  refine mark_bind_triple within_tryAdvisoryLock (fun _ => Stable.const False)
    (fun _ _ => False.elim) fun locked => ?_
  cases locked with
  | false => exact (within_awaitSnapshot 5).conseq (fun _ _ => trivial) fun _ _ h => h
  | true =>
    refine Prog.Triple.conseq (A := fun d => HoldsLock t game d ∧ Bounded 0 none d) ?_
      (fun _ h => ⟨h rfl, Nat.zero_le _, nofun⟩) fun _ _ h => h
    rw [if_pos rfl, Fallible.within_bind]
    refine mark_bind_any (within_underLock ?_) fun _ _ _ _ _ => trivial
    rw [Fallible.within_bind]
    refine mark_bind_triple within_nextVersion (fun _ => Stable.const True) (fun _ _ _ => trivial)
      fun v => ?_
    rw [Fallible.within_bind]
    exact mark_bind_triple (within_buildSnapshot (n := 0) (stable_hasVersion.and stable_bounded)
      (fun _ _ => Nat.zero_le _)
      (fun d h => ⟨logged_hasVersion (by simp) d h.1, logged_bounded d h.2⟩)
      fun d h => ⟨logged_hasVersion (by simp) d h.1, logged_bounded d h.2⟩)
      (fun _ => Stable.const False) (fun _ _ => False.elim) fun s => within_publishOrCache

/-- **`mark_game_dirty`** keeps the version. -/
lemma within_markGameDirty :
    MarkTriple db t req (fun _ => True) (Fallible.within boardPart (markGameDirty server game))
      (Post (fun _ _ => True) fun _ _ => True) := by
  unfold markGameDirty
  rw [Fallible.within_bind]
  refine mark_bind_any (within_aside_triple fun d hinv => ?_) fun _ =>
    within_aside_triple fun d hinv => .quiet hinv rfl rfl rfl rfl rfl
  split
  · have hsame : ∀ s, d.board.refreshState game = some s →
        ((d.board.refreshState game).map (·.nextVersion)).getD 0 = s.nextVersion := by
      intro s hs
      rw [hs]
      rfl
    exact .setState hinv [.marked game] rfl (.inr ⟨_, rfl⟩) (by simp) (by simp [Event.tables]) rfl
      rfl rfl rfl (fun s hs => (hsame s hs).ge) (.inr hsame)
  · exact .quiet hinv rfl rfl rfl rfl rfl

/-- Every request. -/
theorem dirtyRequest_triple (req : DirtyRequest) :
    MarkTriple db t req (fun _ => True) (req.run t) (Post (fun _ _ => True) fun _ _ => True) := by
  cases req with
  | markTeamDirty team affectsOrder => exact markTeamDirty_triple.any
  | call req =>
    cases req with
    | markGameDirty server game => exact within_markGameDirty
    | refreshGame server game => exact within_refreshGame rfl
    | rebuildAndPublish server game =>
      show MarkTriple _ _ _ _ (Fallible.within boardPart (do
        let _ ← rebuildAndPublish server t game
        return ())) _
      rw [Fallible.within_bind]
      exact mark_bind_any within_rebuildAndPublish fun _ _ _ _ _ => trivial

end Rounds

/-! ## Any number of calls -/

/-- No mark has been issued yet. -/
structure Unmarked (d : MarkedBoard) : Prop where
  history : d.board.history = []
  marks : d.marks = []
  announced : ∀ r, d.announced r = 0
  drawn : ∀ dt ∈ d.board.dirtyTeams, dt.revision ≤ d.seq

/-- **What marks announce is not left out**: the versions of a game grow, and the team of a mark is
dirty or a snapshot is published that was read after the mark was issued. -/
structure Announces (db : Tables) (d : MarkedBoard) : Prop where
  increasing : ∀ game, (publishedVersions game d.board.history).Pairwise (· < ·)
  kept : ∀ m ∈ d.marks, d.isDirty m.gameId m.teamId ∨
    ∃ t, Met db t m.gameId (d.announced m.revision) d.board.history

/-- **How a row is removed**: by a round of `refresh_game` that has published a snapshot read after
the last mark of the row was issued. -/
def RemovesMet (db : Tables) (calls : Tid → DirtyRequest)
    (c c' : Config Label MarkedBoard (Except String Unit)) : Prop :=
  ∀ dt ∈ c.shared.board.dirtyTeams, ¬ c'.shared.isDirty dt.gameId dt.teamId →
    ∃ t, (∀ u, u ≠ t → c'.threads u = c.threads u) ∧
      (∃ server, calls t = .call (.refreshGame server dt.gameId)) ∧
      ∀ m, lastMark dt.gameId dt.teamId c.shared.marks = some m →
        Met db t dt.gameId (c.shared.announced m.revision) c.shared.board.history

lemma MarkInv.announces {db : Tables} {d : MarkedBoard} (h : MarkInv db d) : Announces db d := by
  refine ⟨h.increasing, fun m hm => ?_⟩
  rcases h.met m hm with ⟨dt, hdt, hgame, hteam, -⟩ | hmet
  · exact .inl ⟨dt, hdt, hgame, hteam⟩
  · exact .inr hmet

lemma Unmarked.inv {d : MarkedBoard} (h : Unmarked d) : MarkInv d.board.tables d := by
  constructor
  case tables => simp [h.history, tablesAt]
  case announced => simp [h.announced]
  case rows => exact h.drawn
  case marks => simp [h.marks]
  case last => simp [h.marks, lastMark]
  case increasing => simp [h.history, publishedVersions]
  case version => simp [h.history, publishedVersions]
  case met => simp [h.marks]

section Run

variable {calls : Tid → DirtyRequest} {c c' : Config Label MarkedBoard (Except String Unit)}

/-- **Nothing that a mark announces is left out**, in every run of marks, rounds of `refresh_game`
and of `rebuild_and_publish`, and `mark_game_dirty`. -/
theorem announces_of_reaches (hcalls : ∀ t, c.threads t = ((calls t).run t).run)
    (hstart : Unmarked c.shared) (hrun : Reaches MarkedChanges Always c c') :
    Announces c.shared.board.tables c'.shared ∧
      ∀ c'', Step MarkedChanges Always c' c'' → RemovesMet c.shared.board.tables calls c' c'' := by
  have hgood : c.Good Always (MarkInv c.shared.board.tables) DirtyRely
      (fun t => Plain fun _ => DirtyMoves c.shared.board.tables t (calls t))
      (fun _ => Post (fun _ _ => True) fun _ _ => True) := by
    refine ⟨hstart.inv, fun t => ?_⟩
    rw [hcalls t]
    exact dirtyRequest_triple (calls t) _ trivial
  have hpool := dirtyRelyGuarantee (α := Except String Unit) c.shared.board.tables calls
  have hgood' := hpool.reaches hgood hrun
  refine ⟨hgood'.1.announces, fun c'' hstep dt hdt hgone => ?_⟩
  cases hstep with
  | run t hp hok hf =>
    have hmove := (hpool.good_run hgood' hp hok hf).1
    obtain ⟨hreq, hmet⟩ := hmove.removed dt hdt hgone
    refine ⟨t, fun u hu => Function.update_of_ne hu _ _, hreq, fun m hm => ?_⟩
    rw [hgood'.1.last dt hdt m hm]
    exact hmet
  | env he =>
    obtain ⟨-, -, -, hdirty, -⟩ := he.kept
    exact absurd ⟨dt, (congrArg (dt ∈ ·) hdirty).mpr hdt, rfl, rfl⟩ hgone

/-- A refresher, and a marker for each of two teams. -/
def twoMarks : Tid → DirtyRequest
  | 0 => .call (.refreshGame 0 1)
  | 1 => .markTeamDirty 1 true
  | _ => .markTeamDirty 2 true

/-- No team is dirty yet. -/
def refresherAndMarks : Config Label MarkedBoard (Except String Unit) where
  shared := ⟨refresherAndMarker.shared, 0, fun _ _ => none, fun _ => 0, []⟩
  threads t := ((twoMarks t).run t).run

/-- The first marker draws its revision before the second, and commits it after the refresher has
read the board, which was changed before. The row is deleted. -/
theorem announces_of_reaches_late : ∃ c', Reaches MarkedChanges Always refresherAndMarks c' ∧
    c'.shared.marks = [⟨1, 2, 2⟩, ⟨1, 1, 1⟩] ∧ c'.shared.board.dirtyTeams = [] ∧
    (c'.shared.board.latest 1).map (·.order) = some [2] ∧ Announces twoTeams c'.shared := by
  obtain ⟨c', hrun, hc'⟩ := exists_reaches_of_exec MarkedChanges Always (c := refresherAndMarks)
    ([.env fun d => { d with
        board := ({ d.board with tables := firstBanned } : Board).log (.changed firstBanned) }] ++
      List.replicate 2 (.thread 1) ++ List.replicate 4 (.thread 2) ++ List.replicate 7 (.thread 0) ++
      List.replicate 2 (.thread 1) ++ List.replicate 4 (.thread 0))
    (p := fun c' => c'.shared.marks = [⟨1, 2, 2⟩, ⟨1, 1, 1⟩] && c'.shared.board.dirtyTeams = [] &&
      (c'.shared.board.latest 1).map (·.order) = some [2])
    (by simpa using fun d => MarkedChanges.board (.tables d.board firstBanned)) (by decide +kernel)
  simp only [Bool.and_eq_true, decide_eq_true_eq] at hc'
  refine ⟨c', hrun, hc'.1.1, hc'.1.2, hc'.2, ?_⟩
  have hcalls : ∀ t, refresherAndMarks.threads t = ((twoMarks t).run t).run := fun _ => rfl
  exact (announces_of_reaches hcalls
    ⟨rfl, rfl, fun _ => rfl, by simp [refresherAndMarks, refresherAndMarker]⟩ hrun).1

end Run

end Leaderboard
