import RbphBackend.Teams.Runs

set_option relaxedAutoImplicit false
set_option autoImplicit false

/-!
# Patches of settings

The settings of a game are what the patches that were committed make of them, one after the other,
where each is merged into the settings that its `UPDATE` replaces. A patch that is merged into
settings that are no longer stored takes back what was stored meanwhile.

## Main definitions

* `Teams.patchOf` — the patch of a call.

## Main results

* `Teams.settings_of_reaches` — the settings at the end of a run.
* `Teams.patch_isLost` — a patch that is lost.
-/

namespace Teams

open Concurrency ReadCommitted Games

/-- The patch of the settings of a game that a call asks for. -/
def patchOf (g : Id) : TeamCall → Option Value
  | .updateGame g' data => if g' = g then data.settings else none
  | _ => none

section Steps

variable {S : Setting} {g : Id} {v v' : View} {e : TeamCommit}

/-- A call that stores settings patches those of its game. -/
lemma Settles.settings {g' : Id} {data : RbGameUpdateData} (h : Settles S g' data v v')
    (hS : S.settled) :
    (v' (.game g)).map Game.settings = ((v (.game g)).map Game.settings).map fun settings =>
      ((patchOf g (.updateGame g' data)).toList).foldl patched settings := by
  by_cases hg : g' = g
  · subst hg
    simp only [patchOf, if_true]
    cases h with
    | kept h hnone =>
      subst h
      rw [hnone]
      rfl
    | @stored game stored hrow hstored h =>
      subst h
      rw [Function.update_self, hrow, Option.map_some, Option.map_some, Option.map_some]
      rcases hstored with ⟨hnone, rfl⟩ | ⟨patch, read, hpatch, rfl, hread⟩
      · rw [hnone]
        rfl
      · rw [hpatch, hread hS]
        rfl
  · simp only [patchOf, if_neg hg]
    cases h with
    | kept h _ =>
      subst h
      exact Option.map_id'.symm
    | stored _ _ h =>
      subst h
      rw [Function.update_of_ne (by simpa using Ne.symm hg)]
      exact Option.map_id'.symm

/-- The other calls leave the settings. -/
lemma Deed.settings {t : Tid} (h : Deed S t v v') (hcall : ∀ g data, S.calls t ≠ .updateGame g data) :
    v' (.game g) = v (.game g) := by
  cases h with
  | kept h => rw [h]
  | settled h _ _ _ => exact absurd h (hcall _ _)
  | joined _ _ _ _ h | left _ _ _ h | created _ _ _ _ _ h | renamed _ _ h | replaced _ _ _ _ _ h =>
    subst h
    simp
  | disbanded _ h =>
    subst h
    rfl
  | promoted _ _ _ h => exact h _ (by simp)

/-- **What a commit makes of the settings.** -/
lemma Does.settings (h : Does S e) (hS : S.settled) :
    (e.after (.game g)).map Game.settings = ((e.before (.game g)).map Game.settings).map
      fun settings => ((patchOf g (S.calls e.tid)).toList).foldl patched settings := by
  by_cases hcall : ∃ g' data, S.calls e.tid = .updateGame g' data
  · obtain ⟨g', data, hcall⟩ := hcall
    rw [hcall]
    exact (h.settles g' data hcall).settings hS
  · simp only [not_exists] at hcall
    have hnone : patchOf g (S.calls e.tid) = none := by
      cases hc : S.calls e.tid with
      | updateGame g' data => exact absurd hc (hcall g' data)
      | _ => rfl
    rw [h.deed.settings hcall, hnone]
    exact Option.map_id'.symm

/-- **What a journal makes of the settings**, by induction on it. -/
lemma settings_of_linked {l : List TeamCommit} (hlinked : Linked v l v') (hdoes : ∀ e ∈ l, Does S e)
    (hS : S.settled) :
    (v' (.game g)).map Game.settings = ((v (.game g)).map Game.settings).map fun settings =>
      ((l.map Commit.tid).filterMap fun t => patchOf g (S.calls t)).foldl patched settings := by
  induction l generalizing v with
  | nil =>
    obtain rfl : v = v' := hlinked
    exact Option.map_id'.symm
  | cons e l ih =>
    obtain ⟨rfl, hlinked⟩ := hlinked
    have hstep := (hdoes e List.mem_cons_self).settings (g := g) hS
    rw [ih hlinked fun e' he' => hdoes e' (List.mem_cons_of_mem _ he'), hstep, Option.map_map]
    cases hpatch : patchOf g (S.calls e.tid) with
    | none => simp [hpatch, Function.comp_def]
    | some patch => simp [hpatch, Function.comp_def]

end Steps

section Pool

variable {cfg : Config} {calls : Tid → TeamCall}
  {c c' : Concurrency.Config Label Store (Except String TeamAnswer)}

/-- A session that has committed once is once in the order of the commits. -/
lemma count_tid_of_commitsOf {d : Store} {t : Tid} {e : TeamCommit} (h : commitsOf t d = [e]) :
    (d.journal.map Commit.tid).count t = 1 := by
  rw [List.count_eq_countP, List.countP_map, List.countP_eq_length_filter]
  exact congrArg List.length h

/-- **The patches that are stored**: in every run of calls about games and teams in which a call
stores settings where they are still those that it has read, the settings of a game at the end are
what the patches of its calls make of those at the beginning, one after the other in some order; and
each patch whose call returns the game is in that order once. -/
theorem settings_of_reaches (hnodup : cfg.userIds.Nodup)
    (hlisted : ∀ t u T data, calls t = .userCreate u T data → T ∈ cfg.teamIds)
    (hcalls : ∀ t, c.threads t = ((calls t).run cfg t).run) (hidle : c.shared.Idle)
    (hreferential : Referential cfg c.shared.committed)
    (hrun : Reaches Tick (fun _ => AdmitsSettling) c c') (g : Id) :
    ∃ order : List Tid,
      (c'.shared.committed (.game g)).map Game.settings =
        ((c.shared.committed (.game g)).map Game.settings).map (fun settings =>
          (order.filterMap fun t => patchOf g (calls t)).foldl patched settings) ∧
      ∀ t data game, calls t = .updateGame g data →
        c'.threads t = .ret (.ok (.game (some game))) → order.count t = 1 := by
  obtain ⟨hjournal, htold⟩ := journaled_of_reaches (S := ⟨cfg, calls, c.shared.committed, True,
    False, hnodup, hlisted, hreferential, fun h => h.elim⟩) hcalls hidle rfl
    (hrun.mono fun _ _ _ h => ⟨fun _ => h, fun h => h.elim⟩)
  refine ⟨c'.shared.journal.map Commit.tid,
    settings_of_linked hjournal.linked hjournal.commits trivial, fun t data game hcall hret => ?_⟩
  have h := htold t _ hret
  dsimp only at h
  rw [hcall] at h
  obtain ⟨r', hr', h⟩ := h
  rcases r' with _ | game'
  · cases hr'
  · obtain rfl := TeamAnswer.game.inj (Except.ok.inj hr')
    obtain ⟨e, he⟩ := h game rfl
    exact count_tid_of_commitsOf he

/-- A patch of the limit of the teams, and one of what is displayed. -/
def limitPatch : Value := .object [("team", .object [("max_members", .int 5)])]

@[inherit_doc limitPatch]
def displayPatch : Value := .object [("display", .object [("delay_solve_stats", .bool true)])]

/-- Both are made. -/
def patchCalls : Tid → TeamCall
  | 0 => .updateGame 1 { settings := some limitPatch }
  | _ => .updateGame 1 { settings := some displayPatch }

/-- A game without settings. -/
def bareRows : View := applyPuts [⟨.game 1, some ⟨"a game", none, true, true, .object [], 0⟩⟩] noRows

/-- The two patches, from the game without settings. -/
def patchPool : Concurrency.Config Label Store (Except String TeamAnswer) where
  shared := Db.init 0 bareRows
  threads t := ((patchCalls t).run oneClub t).run

lemma referential_bareRows : Referential oneClub bareRows :=
  ⟨fun _ _ _ h => (nomatch h), fun _ _ h => absurd rfl h, fun _ h => absurd rfl h⟩

/-- Settings of the game without any, or with the limit alone, are those that have been read. -/
def readsBare : Label → Store → Bool
  | .settling g (some (.object [])), d =>
    match (d.committed (.game g)).map Game.settings with
    | some (.object []) => true
    | _ => false
  | .settling g (some (.object [("team", .object [("max_members", .int 5)])])), d =>
    match (d.committed (.game g)).map Game.settings with
    | some (.object [("team", .object [("max_members", .int 5)])]) => true
    | _ => false
  | .settling .., _ => false
  | _, _ => true

lemma admitsSettling_of_readsBare {l : Label} {d : Store} (h : readsBare l d = true) :
    AdmitsSettling l d := by
  unfold readsBare at h
  split at h
  · split at h
    · rename_i hread
      exact hread
    · cases h
  · split at h
    · rename_i hread
      exact hread
    · cases h
  · cases h
  · rename_i hsettling
    cases l with
    | settling g read => exact absurd rfl (hsettling g read)
    | _ => trivial

/-- What an update of a game has ended with: whether it returns the game. -/
def returnsGame (p : Prog Label Store (Except String TeamAnswer)) : Bool :=
  match p.result? with
  | some (.ok (.game (some _))) => true
  | _ => false

lemma ret_of_returnsGame {p : Prog Label Store (Except String TeamAnswer)}
    (h : returnsGame p = true) : ∃ game, p = .ret (.ok (.game (some game))) := by
  unfold returnsGame at h
  split at h
  · rename_i game hp
    exact ⟨game, Prog.eq_ret_of_result? hp⟩
  · cases h

/-- The settings of the game have the limit, and what is displayed. -/
def hasLimit (settings : Option Value) : Bool :=
  (settings.bind fun settings => settings.atPath ["team", "max_members"]).isSome

@[inherit_doc hasLimit]
def hasDisplay (settings : Option Value) : Bool :=
  (settings.bind fun settings => settings.atPath ["display", "delay_solve_stats"]).isSome

/-- One patch after the other: both are stored. -/
theorem settings_of_reaches_patchPool :
    ∃ c', Reaches Tick (fun _ => AdmitsSettling) patchPool c' ∧
      hasLimit ((c'.shared.committed (.game 1)).map Game.settings) = true ∧
      hasDisplay ((c'.shared.committed (.game 1)).map Game.settings) = true ∧
      ∃ order : List Tid,
        (c'.shared.committed (.game 1)).map Game.settings =
          some ((order.filterMap fun t => patchOf 1 (patchCalls t)).foldl patched (.object [])) ∧
        order.count 0 = 1 ∧ order.count 1 = 1 := by
  obtain ⟨c', hrun, hc'⟩ := exists_reaches_of_exec Tick (fun _ l d => readsBare l d = true)
    (c := patchPool) (List.replicate 5 (.thread 0) ++ List.replicate 5 (.thread 1))
    (p := fun c' => hasLimit ((c'.shared.committed (.game 1)).map Game.settings) &&
      hasDisplay ((c'.shared.committed (.game 1)).map Game.settings) &&
      returnsGame (c'.threads 0) && returnsGame (c'.threads 1)) (by simp) (by decide +kernel)
  simp only [Bool.and_eq_true] at hc'
  obtain ⟨⟨⟨hlimit, hdisplay⟩, hends⟩, hends'⟩ := hc'
  obtain ⟨game, hret⟩ := ret_of_returnsGame hends
  obtain ⟨game', hret'⟩ := ret_of_returnsGame hends'
  have hadmits : Reaches Tick (fun _ => AdmitsSettling) patchPool c' :=
    hrun.mono fun _ _ _ h => admitsSettling_of_readsBare h
  have hcalls : ∀ t, patchPool.threads t = ((patchCalls t).run oneClub t).run := fun _ => rfl
  obtain ⟨order, horder, hcount⟩ := settings_of_reaches (by decide) (fun t u T data h => by
      unfold patchCalls at h
      split at h <;> cases h)
    hcalls (Db.init_idle _ _) referential_bareRows hadmits 1
  exact ⟨c', hadmits, hlimit, hdisplay, order, horder, hcount 0 _ game rfl hret,
    hcount 1 _ game' rfl hret'⟩

/-- **A patch that is lost**: both calls read the settings, and store what they make of them, the one
after the other; both return the game, and what is stored is neither order of the patches. -/
theorem patch_isLost : ∃ c', Reaches Tick Always patchPool c' ∧
    RbGameSettings.validatePatch limitPatch = true ∧
    RbGameSettings.validatePatch displayPatch = true ∧
    (∃ game, c'.threads 0 = .ret (.ok (.game (some game)))) ∧
    (∃ game, c'.threads 1 = .ret (.ok (.game (some game)))) ∧
    (c'.shared.committed (.game 1)).map Game.settings ≠
      some (patched (patched (.object []) limitPatch) displayPatch) ∧
    (c'.shared.committed (.game 1)).map Game.settings ≠
      some (patched (patched (.object []) displayPatch) limitPatch) := by
  obtain ⟨c', hrun, hc'⟩ := exists_reaches_of_exec Tick Always (c := patchPool)
    (List.replicate 2 (.thread 0) ++ List.replicate 2 (.thread 1) ++ List.replicate 3 (.thread 0) ++
      List.replicate 3 (.thread 1))
    (p := fun c' => !hasLimit ((c'.shared.committed (.game 1)).map Game.settings) &&
      returnsGame (c'.threads 0) && returnsGame (c'.threads 1)) (by simp) (by decide +kernel)
  simp only [Bool.and_eq_true, Bool.not_eq_true'] at hc'
  obtain ⟨⟨hlimit, hends⟩, hends'⟩ := hc'
  refine ⟨c', hrun, by decide +kernel, by decide +kernel, ret_of_returnsGame hends,
    ret_of_returnsGame hends', fun h => ?_, fun h => ?_⟩
  all_goals
    rw [h] at hlimit
    revert hlimit
    decide +kernel

end Pool

end Teams
