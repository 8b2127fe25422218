import RbphBackend.Leaderboard.DirtyTeams

set_option relaxedAutoImplicit false
set_option autoImplicit false

/-!
# Marks among other calls

Upserts of one row wait for each other, so the revision of the row grows while a mark is under way;
the rounds leave a row alone that an upsert has locked.

## Main definitions

* `Leaderboard.DirtyMoves`, `Leaderboard.DirtyRely` — what a call does, and what it sees happen.

## Main results

* `Leaderboard.markTeamDirty_triple` — a mark among any other calls.
-/

namespace Leaderboard

open Concurrency

/-! ## Moves -/

/-- A round of thread `t` for `refresh_game` removes the row, and has published a snapshot that was
read after all that the row's revision announces. -/
def RemovedBy (db : Tables) (t : Tid) (req : DirtyRequest) (dt : DirtyTeam) (d : MarkedBoard) :
    Prop :=
  (∃ server, req = .call (.refreshGame server dt.gameId)) ∧
    Met db t dt.gameId (d.announced dt.revision) d.board.history

/-- A move of thread `t`. -/
structure DirtyMoves (db : Tables) (t : Tid) (req : DirtyRequest) (d d' : MarkedBoard) : Prop where
  event : d'.board.history = d.board.history ∨ ∃ e : Event,
    d'.board.history = d.board.history ++ [e] ∧
      ∀ r g s, e = .published r g s → d.board.advisory g = some t
  locks : ∀ g u, u ≠ t → d.board.advisory g = some u → d'.board.advisory g = some u
  version : ∀ g u s, u ≠ t → d.board.advisory g = some u → d.board.refreshState g = some s →
    ∃ s', d'.board.refreshState g = some s' ∧ s'.nextVersion = s.nextVersion
  seq : d.seq ≤ d'.seq
  announced : ∀ r ≤ d.seq, d'.announced r = d.announced r
  rows : ∀ g team u, u ≠ t → d.rowLock g team = some u → d'.rowLock g team = some u ∧
    ∀ dt : DirtyTeam, dt.gameId = g → dt.teamId = team →
      (dt ∈ d'.board.dirtyTeams ↔ dt ∈ d.board.dirtyTeams)
  removed : ∀ dt ∈ d.board.dirtyTeams, ¬ d'.isDirty dt.gameId dt.teamId → RemovedBy db t req dt d
  inv : MarkInv db d'

/-- What thread `t` sees happen. -/
structure DirtyRely (t : Tid) (d d' : MarkedBoard) : Prop where
  history : d.board.history <+: d'.board.history
  locks : ∀ g, d.board.advisory g = some t → d'.board.advisory g = some t
  versions : ∀ g, d.board.advisory g = some t →
    publishedVersions g d'.board.history = publishedVersions g d.board.history
  version : ∀ g s, d.board.advisory g = some t → d.board.refreshState g = some s →
    ∃ s', d'.board.refreshState g = some s' ∧ s'.nextVersion = s.nextVersion
  seq : d.seq ≤ d'.seq
  announced : ∀ r ≤ d.seq, d'.announced r = d.announced r
  rows : ∀ g team, d.rowLock g team = some t → d'.rowLock g team = some t ∧
    ∀ dt : DirtyTeam, dt.gameId = g → dt.teamId = team →
      (dt ∈ d'.board.dirtyTeams ↔ dt ∈ d.board.dirtyTeams)

section Rely

variable {db : Tables} {t u : Tid} {req : DirtyRequest} {d d' d'' : MarkedBoard}

lemma DirtyRely.refl (t : Tid) (d : MarkedBoard) : DirtyRely t d d :=
  ⟨List.prefix_rfl, fun _ h => h, fun _ _ => rfl, fun _ s _ hs => ⟨s, hs, rfl⟩, le_rfl,
    fun _ _ => rfl, fun _ _ h => ⟨h, fun _ _ _ => Iff.rfl⟩⟩

lemma DirtyRely.trans (h : DirtyRely t d d') (h' : DirtyRely t d' d'') : DirtyRely t d d'' := by
  refine ⟨h.history.trans h'.history, fun g hg => h'.locks g (h.locks g hg), fun g hg => ?_,
    fun g s hg hs => ?_, h.seq.trans h'.seq, fun r hr => ?_, fun g team hl => ?_⟩
  · rw [h'.versions g (h.locks g hg), h.versions g hg]
  · obtain ⟨s', hs', heq⟩ := h.version g s hg hs
    obtain ⟨s'', hs'', heq'⟩ := h'.version g s' (h.locks g hg) hs'
    exact ⟨s'', hs'', heq'.trans heq⟩
  · rw [h'.announced r (hr.trans h.seq), h.announced r hr]
  · obtain ⟨hl', hrows⟩ := h.rows g team hl
    obtain ⟨hl'', hrows'⟩ := h'.rows g team hl'
    exact ⟨hl'', fun dt hg ht => (hrows' dt hg ht).trans (hrows dt hg ht)⟩

lemma DirtyMoves.rely (htu : t ≠ u) (h : DirtyMoves db u req d d') : DirtyRely t d d' := by
  refine ⟨?_, fun g hg => h.locks g t htu hg, fun g hg => ?_,
    fun g s hg hs => h.version g t s htu hg hs, h.seq, h.announced,
    fun g team hl => h.rows g team t htu hl⟩
  · rcases h.event with he | ⟨e, he, -⟩
    · exact he ▸ List.prefix_rfl
    · rw [he]
      exact List.prefix_append _ _
  · rcases h.event with he | ⟨e, he, hpub⟩
    · rw [he]
    · have hnone : e.publication g = none := by
        refine publication_of_ne fun r s hes => htu ?_
        exact Option.some.inj (hg.symm.trans (hpub r g s hes))
      rw [he, publishedVersions_append, publishedVersions_singleton hnone, List.append_nil]

/-- What changes by itself neither publishes nor writes a row. -/
lemma MarkedChanges.kept (h : MarkedChanges d d') :
    (∃ l, d'.board.history = d.board.history ++ l ∧ ∀ e ∈ l, ∀ r g s, e ≠ .published r g s) ∧
      d'.board.advisory = d.board.advisory ∧ d'.board.refreshState = d.board.refreshState ∧
      d'.board.dirtyTeams = d.board.dirtyTeams ∧ d'.seq = d.seq ∧ d'.announced = d.announced ∧
      d'.rowLock = d.rowLock ∧ d'.marks = d.marks := by
  obtain ⟨hb⟩ := h
  cases hb with
  | tables tables => exact ⟨⟨[.changed tables], rfl, by simp⟩, rfl, rfl, rfl, rfl, rfl, rfl, rfl⟩
  | kv up => exact ⟨⟨[], by simp⟩, rfl, rfl, rfl, rfl, rfl, rfl, rfl⟩
  | expire game version =>
    exact ⟨⟨[], by simp [Board.setSnapshot]⟩, rfl, rfl, rfl, rfl, rfl, rfl, rfl⟩

lemma MarkedChanges.rely (h : MarkedChanges d d') : DirtyRely t d d' := by
  obtain ⟨⟨l, hl, hpub⟩, hadv, hstate, hdirty, hseq, hann, hlock, -⟩ := h.kept
  refine ⟨?_, fun g hg => by rw [hadv]; exact hg, fun g _ => ?_, fun g s _ hs => ⟨s, ?_, rfl⟩,
    hseq.ge, fun r _ => by rw [hann], fun g team hg => ⟨by rw [hlock]; exact hg, fun dt _ _ => ?_⟩⟩
  · rw [hl]
    exact List.prefix_append _ _
  · have hmap : l.filterMap (Event.publication g) = [] := by
      rw [List.filterMap_eq_nil_iff]
      exact fun e he => publication_of_ne fun r s => hpub e he r g s
    rw [hl, publishedVersions_append]
    simp [publishedVersions, hmap]
  · rw [hstate, hs]
  · rw [hdirty]

lemma MarkedChanges.inv (h : MarkedChanges d d') (hd : MarkInv db d) : MarkInv db d' := by
  obtain ⟨hb⟩ := h
  cases hb with
  | tables tables =>
    refine hd.extend [.changed tables] rfl ?_ rfl (by simp) (.of_eq rfl)
    show tables = tablesAt db (d.board.history ++ [.changed tables])
    simp [tablesAt, Event.tables]
  | kv up => exact hd.extend [] (by simp) hd.tables rfl (by simp) (.of_eq rfl)
  | expire game version =>
    exact hd.extend [] (by simp [Board.setSnapshot]) hd.tables rfl (by simp) (.of_eq rfl)

/-- The marks and the calls form a sound pool. -/
theorem dirtyRelyGuarantee {α : Type} (db : Tables) (calls : Tid → DirtyRequest) :
    RelyGuarantee MarkedChanges Always (MarkInv db) DirtyRely
      (fun t => Plain (L := Label) (α := α) fun _ => DirtyMoves db t (calls t)) where
  refl := DirtyRely.refl
  trans _ _ _ _ h h' := h.trans h'
  guarantee _ _ _ _ _ _ hu _ _ h := h.rely hu
  interference _ _ _ _ h := h.rely
  inv_step _ _ _ _ _ _ _ h := h.inv
  inv_env _ _ hd h := h.inv hd

end Rely

/-! ## The rules -/

section Rules

variable {db : Tables} {t : Tid} {req : DirtyRequest} {α : Type}

/-- What thread `t` does, from an assertion to a postcondition. -/
abbrev MarkTriple (db : Tables) (t : Tid) (req : DirtyRequest) (A : MarkedBoard → Prop)
    (p : Marking α) (Q : Except String α → MarkedBoard → Prop) : Prop :=
  Prog.Triple (DirtyRely t) (fun l d => Always t l d ∧ MarkInv db d)
    (Plain fun _ => DirtyMoves db t req) A p.run Q

lemma mark_bind_triple {β : Type} {A : MarkedBoard → Prop} {B : α → MarkedBoard → Prop}
    {F : String → MarkedBoard → Prop} {Q : Except String β → MarkedBoard → Prop} {p : Marking α}
    {k : α → Marking β} (hp : MarkTriple db t req A p (Post B F))
    (hF : ∀ e, Stable (DirtyRely t) (F e)) (hFQ : ∀ e d, F e d → Q (.error e) d)
    (hk : ∀ a, MarkTriple db t req (B a) (k a) Q) : MarkTriple db t req A (p >>= k) Q :=
  Fallible.bind_triple hp (fun _ _ _ _ h => h) (DirtyRely.refl t)
    (fun e d d' h hr => hFQ e d' (hF e d d' h hr)) hk

/-- A statement on the board. -/
lemma within_act_triple {l : Label} {f : Board → Except String α × Board} {A : MarkedBoard → Prop}
    {Q : Except String α → MarkedBoard → Prop} (hA : Stable (DirtyRely t) A)
    (hQ : ∀ r, Stable (DirtyRely t) (Q r))
    (h : ∀ d, A d → MarkInv db d → boardPart.free d (f d.board).2 = true →
      DirtyMoves db t req d { d with board := (f d.board).2 } ∧
        Q (f d.board).1 { d with board := (f d.board).2 }) :
    MarkTriple db t req A (Fallible.within boardPart (act l f)) Q :=
  Fallible.within_atomic_triple hA hQ fun d hd ho hfree => h d hd ho.2 hfree

/-- One step of the upsert. -/
lemma markStep_triple {f : MarkedBoard → Option (Except String α × MarkedBoard)}
    {A : MarkedBoard → Prop} {Q : Except String α → MarkedBoard → Prop}
    (hA : Stable (DirtyRely t) A) (hQ : ∀ r, Stable (DirtyRely t) (Q r))
    (h : ∀ d r d', A d → MarkInv db d → f d = some (r, d') → DirtyMoves db t req d d' ∧ Q r d') :
    MarkTriple db t req A (markStep f) Q :=
  Fallible.atomic_triple hA hQ fun d r d' hd ho hf => h d r d' hd ho.2 hf

/-- A move on the board that publishes nothing and deletes nothing. -/
lemma DirtyMoves.board {d : MarkedBoard} (h : MarkInv db d) {b : Board} (l : List Event)
    (hhist : b.history = d.board.history ++ l) (hone : l = [] ∨ ∃ e, l = [e])
    (hpub : ∀ e ∈ l, ∀ r g s, e ≠ .published r g s) (htables : b.tables = tablesAt db b.history)
    (hdirty : b.dirtyTeams = d.board.dirtyTeams)
    (hlocks : ∀ g u, u ≠ t → d.board.advisory g = some u → b.advisory g = some u)
    (hversion : VersionsKept d.board b)
    (hsame : ∀ g u s, u ≠ t → d.board.advisory g = some u → d.board.refreshState g = some s →
      ∃ s', b.refreshState g = some s' ∧ s'.nextVersion = s.nextVersion) :
    DirtyMoves db t req d { d with board := b } := by
  refine ⟨?_, hlocks, hsame, le_rfl, fun _ _ => rfl, fun g team u _ hu => ⟨hu, fun dt _ _ => ?_⟩,
    fun dt hdt hgone => ?_, h.extend l hhist htables hdirty hpub hversion⟩
  · rcases hone with rfl | ⟨e, rfl⟩
    · exact .inl (hhist.trans (List.append_nil _))
    · exact .inr ⟨e, hhist, fun r g s he => absurd he (hpub e List.mem_cons_self r g s)⟩
  · show dt ∈ b.dirtyTeams ↔ _
    rw [hdirty]
  · refine absurd ⟨dt, ?_, rfl, rfl⟩ hgone
    show dt ∈ b.dirtyTeams
    rwa [hdirty]

/-- A move on the board that the invariant does not speak of. -/
lemma DirtyMoves.quiet {d : MarkedBoard} (h : MarkInv db d) {b : Board}
    (hhist : b.history = d.board.history) (htables : b.tables = d.board.tables)
    (hdirty : b.dirtyTeams = d.board.dirtyTeams) (hlocks : b.advisory = d.board.advisory)
    (hstate : b.refreshState = d.board.refreshState) :
    DirtyMoves db t req d { d with board := b } := by
  refine .board h [] (by simp [hhist]) (.inl rfl) (by simp) ?_ hdirty (fun g u _ hg => ?_)
    (.of_eq hstate) fun g u s _ _ hs => ⟨s, by rw [hstate, hs], rfl⟩
  · rw [htables, hhist]
    exact h.tables
  · rw [hlocks]
    exact hg

/-- A move on the board that records an event. -/
lemma DirtyMoves.log {d : MarkedBoard} (h : MarkInv db d) {e : Event}
    (hpub : ∀ r g s, e ≠ .published r g s) (htables : e.tables = none) :
    DirtyMoves db t req d { d with board := d.board.log e } := by
  refine .board h [e] rfl (.inr ⟨e, rfl⟩) ?_ ?_ rfl (fun g u _ hg => hg) (.of_eq rfl)
    fun g u s _ _ hs => ⟨s, hs, rfl⟩
  · intro e' he'
    rw [List.mem_singleton.mp he']
    exact hpub
  · show d.board.tables = tablesAt db (d.board.history ++ [e])
    rw [h.tables, tablesAt, tablesAt]
    simp [htables]

end Rules

/-! ## A mark -/

section Mark

variable {db : Tables} {t : Tid} {req : DirtyRequest} {game team : Id}

/-- The mark was issued when so much had happened. -/
def Issued (issued : ℕ) (d : MarkedBoard) : Prop := issued ≤ d.board.history.length

/-- The thread has locked the row, which is not newer than the revision. -/
def Upserting (t : Tid) (game team : Id) (r : ℤ) (d : MarkedBoard) : Prop :=
  d.rowLock game team = some t ∧ r ≤ d.seq ∧
    ∀ dt ∈ d.board.dirtyTeams, dt.gameId = game → dt.teamId = team → dt.revision ≤ r

lemma stable_issued {issued : ℕ} : Stable (DirtyRely t) (Issued issued) :=
  fun _ _ h hr => h.trans hr.history.length_le

lemma stable_drawn {r : ℤ} : Stable (DirtyRely t) fun d => r ≤ d.seq :=
  fun _ _ h hr => h.trans hr.seq

lemma stable_locked : Stable (DirtyRely t) fun d => d.rowLock game team = some t :=
  fun _ _ h hr => (hr.rows game team h).1

lemma stable_upserting {r : ℤ} : Stable (DirtyRely t) (Upserting t game team r) := by
  rintro d d' ⟨hlock, hseq, hle⟩ hr
  obtain ⟨hlock', hrows⟩ := hr.rows game team hlock
  exact ⟨hlock', hseq.trans hr.seq, fun dt hdt hg ht => hle dt ((hrows dt hg ht).mp hdt) hg ht⟩

/-- A move of an upsert: the locks of the others stay, and so do the rows they have locked. -/
lemma DirtyMoves.ofRows {d d' : MarkedBoard} (hinv : MarkInv db d')
    (hhist : d'.board.history = d.board.history) (hadv : d'.board.advisory = d.board.advisory)
    (hstate : ∀ g s, d.board.refreshState g = some s → d'.board.refreshState g = some s)
    (hseq : d.seq ≤ d'.seq) (hann : ∀ r ≤ d.seq, d'.announced r = d.announced r)
    (hrows : ∀ g team u, u ≠ t → d.rowLock g team = some u → d'.rowLock g team = some u ∧
      ∀ dt : DirtyTeam, dt.gameId = g → dt.teamId = team →
        (dt ∈ d'.board.dirtyTeams ↔ dt ∈ d.board.dirtyTeams))
    (hdirty : ∀ g team, d.isDirty g team → d'.isDirty g team) : DirtyMoves db t req d d' :=
  ⟨.inl hhist, fun g u _ hg => by rw [hadv]; exact hg, fun g _ s _ _ hs => ⟨s, hstate g s hs, rfl⟩,
    hseq, hann, hrows, fun dt hdt hgone => absurd (hdirty _ _ ⟨dt, hdt, rfl, rfl⟩) hgone, hinv⟩

/-- Writing the lock of a row that no other thread has locked. -/
lemma rowLock_setRowLock {d : MarkedBoard} {holder : Option Tid}
    (hown : ∀ u, d.rowLock game team = some u → u = t) {g tm : Id} {u : Tid} (hu : u ≠ t)
    (h : d.rowLock g tm = some u) : (d.setRowLock game team holder).rowLock g tm = some u := by
  show Function.update d.rowLock game (Function.update (d.rowLock game) team holder) g tm = some u
  by_cases hg : g = game
  · subst hg
    rw [Function.update_self]
    by_cases ht : tm = team
    · subst ht
      exact absurd (hown u h) hu
    · rw [Function.update_of_ne ht]
      exact h
  · rw [Function.update_of_ne hg]
    exact h

lemma setRowLock_moves {d : MarkedBoard} {holder : Option Tid} (h : MarkInv db d)
    (hown : ∀ u, d.rowLock game team = some u → u = t) :
    DirtyMoves db t req d (d.setRowLock game team holder) :=
  .ofRows (h.setRowLock game team holder) rfl rfl (fun _ _ hs => hs) le_rfl (fun _ _ => rfl)
    (fun _ _ _ hu hl => ⟨rowLock_setRowLock hown hu hl, fun _ _ _ => Iff.rfl⟩) fun _ _ hd => hd

/-- The statement's snapshot. -/
lemma target_triple : MarkTriple db t req (fun _ => True) (target team)
    (Post (fun r => Issued r.2) fun _ _ => False) := by
  refine markStep_triple (Stable.const True) (stable_post (fun _ => stable_issued)
    fun _ => Stable.const False) fun d r d' _ hinv hf => ?_
  obtain ⟨rfl, rfl⟩ := Prod.mk.inj (Option.some.inj hf)
  exact ⟨.ofRows hinv rfl rfl (fun _ _ hs => hs) le_rfl (fun _ _ => rfl)
    (fun _ _ _ _ hl => ⟨hl, fun _ _ _ => Iff.rfl⟩) fun _ _ hd => hd, le_rfl⟩

/-- Drawing a revision, which is above all that have been drawn. -/
lemma nextval_triple {issued : ℕ} {A : MarkedBoard → Prop} {B : ℤ → MarkedBoard → Prop}
    (hA : Stable (DirtyRely t) A) (hB : ∀ r, Stable (DirtyRely t) (B r))
    (hissued : ∀ d, A d → Issued issued d)
    (hnext : ∀ d, A d → MarkInv db d → B (d.seq + 1) { d with
      seq := d.seq + 1
      announced := Function.update d.announced (d.seq + 1) issued }) :
    MarkTriple db t req A (nextval issued) (Post B fun _ _ => False) := by
  refine markStep_triple hA (stable_post hB fun _ => Stable.const False)
    fun d r d' hd hinv hf => ?_
  obtain ⟨rfl, rfl⟩ := Prod.mk.inj (Option.some.inj hf)
  refine ⟨.ofRows (hinv.nextval (hissued d hd)) rfl rfl (fun _ _ hs => hs)
    (Int.le_add_one le_rfl) (fun r hr => ?_) (fun _ _ _ _ hl => ⟨hl, fun _ _ _ => Iff.rfl⟩)
    fun _ _ hd => hd, hnext d hd hinv⟩
  exact Function.update_of_ne (by omega) _ _

/-- Locking the row. Where there is none, there is none until the upsert ends. -/
lemma lockRow_triple {issued : ℕ} {r : ℤ} :
    MarkTriple db t req (fun d => Issued issued d ∧ r ≤ d.seq) (lockRow t game team)
      (Post (fun row d => Issued issued d ∧ d.rowLock game team = some t ∧
        (row = none → Upserting t game team r d)) fun _ _ => False) := by
  refine markStep_triple (stable_issued.and stable_drawn) (stable_post (fun row => ?_)
    fun _ => Stable.const False) fun d r' d' hd hinv hf => ?_
  · exact stable_issued.and (stable_locked.and fun d d' h hr hn => stable_upserting d d' (h hn) hr)
  · split at hf
    · rename_i hfree
      obtain ⟨rfl, rfl⟩ := Prod.mk.inj (Option.some.inj hf)
      have hlock : (d.setRowLock game team (some t)).rowLock game team = some t := by
        simp [MarkedBoard.setRowLock]
      refine ⟨setRowLock_moves hinv fun u hu => ?_, hd.1, hlock, fun hnone => ⟨hlock, hd.2, ?_⟩⟩
      · rw [hfree] at hu
        simp at hu
      · intro dt hdt hg ht
        have hno := List.find?_eq_none.mp hnone dt hdt
        simp [hg, ht] at hno
    · simp at hf

/-- **The commit** of an upsert. -/
lemma commitRow_triple (row : DirtyTeam) :
    MarkTriple db t req (Upserting t row.gameId row.teamId row.revision) (commitRow row)
      fun _ _ => True := by
  refine markStep_triple stable_upserting (fun _ => Stable.const True)
    fun d r d' ⟨hlock, hseq, hle⟩ hinv hf => ⟨?_, trivial⟩
  have hown : ∀ u, d.rowLock row.gameId row.teamId = some u → u = t :=
    fun u hu => Option.some.inj (hu.symm.trans hlock)
  split at hf
  · obtain ⟨-, rfl⟩ := Prod.mk.inj (Option.some.inj hf)
    refine .ofRows ((hinv.upsert hseq hle).setRowLock _ _ _) rfl rfl (versionsKept_upsert d row) le_rfl
      (fun _ _ => rfl) (fun g tm u hu hl => ⟨rowLock_setRowLock hown hu hl, fun dt hg ht => ?_⟩) ?_
    · -- a row that another upsert has locked is not the one written
      have hne : ¬(dt.gameId = row.gameId ∧ dt.teamId = row.teamId) := by
        rintro ⟨hg', ht'⟩
        rw [← hg, ← ht, hg', ht'] at hl
        exact hu (hown u hl)
      refine mem_upsert.trans ⟨fun h => ?_, fun h => .inr ⟨h, hne⟩⟩
      rcases h with rfl | h
      · exact absurd ⟨rfl, rfl⟩ hne
      · exact h.1
    · rintro g tm ⟨dt, hdt, hg, ht⟩
      by_cases hkey : dt.gameId = row.gameId ∧ dt.teamId = row.teamId
      · exact ⟨row, mem_upsert.mpr (.inl rfl), hkey.1.symm.trans hg, hkey.2.symm.trans ht⟩
      · exact ⟨dt, mem_upsert.mpr (.inr ⟨hdt, hkey⟩), hg, ht⟩
  · obtain ⟨-, rfl⟩ := Prod.mk.inj (Option.some.inj hf)
    exact setRowLock_moves hinv hown

/-- **`mark_team_dirty`**. -/
theorem markTeamDirty_triple {affectsOrder : Bool} :
    MarkTriple db t req (fun _ => True) (markTeamDirty t team affectsOrder) fun _ _ => True := by
  have hfalse : ∀ e : String, Stable (DirtyRely t) fun _ => False := fun _ => Stable.const False
  refine mark_bind_triple target_triple hfalse (fun _ _ => False.elim) fun r => ?_
  obtain ⟨game, issued⟩ := r
  cases game with
  | none => exact fun _ _ _ _ => trivial
  | some game =>
    refine mark_bind_triple (nextval_triple (B := fun r d => Issued issued d ∧ r ≤ d.seq)
      stable_issued (fun _ => stable_issued.and stable_drawn) (fun _ h => h)
      fun d h _ => ⟨h, le_rfl⟩) hfalse (fun _ _ => False.elim) fun r => ?_
    refine mark_bind_triple lockRow_triple hfalse (fun _ _ => False.elim) fun row => ?_
    cases row with
    | none =>
      exact (commitRow_triple ⟨game, team, r, affectsOrder⟩).conseq (fun d h => h.2.2 rfl)
        fun _ _ h => h
    | some dt =>
      refine mark_bind_triple (nextval_triple
        (A := fun d => Issued issued d ∧ d.rowLock game team = some t)
        (B := fun r => Upserting t game team r) (stable_issued.and stable_locked)
        (fun _ => stable_upserting) (fun _ h => h.1) fun d h hinv => ⟨h.2, le_rfl, ?_⟩)
        hfalse (fun _ _ => False.elim) (fun r => ?_) |>.conseq (fun d h => ⟨h.1, h.2.1⟩)
          fun _ _ h => h
      · exact fun dt' hdt' _ _ => (hinv.rows dt' hdt').trans (Int.le_add_one le_rfl)
      · exact commitRow_triple ⟨game, team, r, dt.affectsOrder || affectsOrder⟩

end Mark

end Leaderboard
