import RbphBackend.Storage.FolderPlans

set_option relaxedAutoImplicit false
set_option autoImplicit false

/-!
# Compensation

The renames of a request that fails are undone on some of its ways out, and not on others. What is
left of a folder is its files, less those at the places that have been written to: a row may name a
place by another path than the sanitized one, and a file is then renamed over it.

## Main definitions

* `Storage.Stranded` — all files have been renamed, and the request fails without compensation.
* `Storage.Overwrites` — a file has been renamed to the place of one that stays.
* `Storage.LosesFiles` — when a request that renames a folder harms the group.

## Main results

* `Storage.renameMoves_spec` — what the loop over the files of a folder leaves.
* `Storage.moveFolder_keepsFiles_iff` — the folder, from its first rename on.
-/

namespace Storage

open Paths Paths.Moves

/-! ## When a request harms a group -/

/-- If the request fails, every file is stored at the path that its row names. -/
def KeepsFiles (run : Patch × GroupState) : Prop := ∀ e, run.1 = .failed e → Stored run.2

section Harm

variable (backend : Option StorageBackend) (failures : Failures) (files : List AssetFile)
  (moves : List (AssetFile × String))

/-- Every file of the folder is renamed. -/
def AllRenamed : Prop := backend ≠ none ∧ ∀ i < moves.length, failures.rename i = none

/-- Every file is renamed, and then the transaction cannot begin, or an update returns an error
before one of them finds that its row is gone. -/
def Stranded : Prop :=
  AllRenamed backend failures moves ∧
    (failures.beginTx = true ∨ ∃ file, updateMoves failures 0 moves = some (.error, file))

/-- The request does not come to the metadata. -/
def StopsShort : Prop :=
  ¬ AllRenamed backend failures moves ∨ failures.beginTx = true ∨
    updateMoves failures 0 moves ≠ none ∨ failures.commit = true ∨ failures.listAgain = true

/-- The rename at a place of the list is tried, and is done, or at least a copy is made. -/
def WrittenTo (i : ℕ) : Prop :=
  backend ≠ none ∧ (∀ j < i, failures.rename j = none) ∧
    (failures.rename i = none ∨ backend = some .cos ∧ failures.rename i = some .afterCopy)

/-- A file of the folder is renamed to the place of a file that is not in the folder. -/
def Overwrites : Prop :=
  ∃ (i : ℕ) (move : AssetFile × String), moves[i]? = some move ∧ WrittenTo backend failures i ∧
    ∃ file ∈ files, (∀ m ∈ moves, m.1.id ≠ file.id) ∧
      sanitizeRelativePath file.relativePath = sanitizeRelativePath move.2

/-- A request that renames these files harms the group, if it fails. -/
def LosesFiles : Prop :=
  Stranded backend failures moves ∨
    StopsShort backend failures moves ∧ Overwrites backend failures files moves

end Harm

/-! ## Renames -/

section Renames

variable {backend : StorageBackend} {failures : Failures} {objects : Objects}
  {moves done rest : List (AssetFile × String)} {oldPath newPath : String}

lemma renameFile_none (backend : StorageBackend)
    (hpresent : objects (sanitizeRelativePath oldPath) ≠ none)
    (hne : sanitizeRelativePath oldPath ≠ sanitizeRelativePath newPath) :
    renameFile (some backend) none objects oldPath newPath =
      (true, move objects (sanitizeRelativePath oldPath) (sanitizeRelativePath newPath)) := by
  have hguard : ∀ p : Prop, ¬ p → ¬ (p ∨ objects (sanitizeRelativePath oldPath) = none) :=
    fun p hp => not_or.mpr ⟨hp, hpresent⟩
  cases backend with
  | localDisk =>
    rw [renameFile, fsRename, if_neg (hguard _ (not_not.mpr rfl)), if_neg hne]
    rfl
  | cos =>
    rw [renameFile, cosRename, if_neg (hguard _ nofun)]
    rfl

/-- What a rename that fails leaves: in a bucket nothing at the target, if it has been copied. -/
lemma renameFile_fault {fault : RenameFault}
    (hpresent : objects (sanitizeRelativePath oldPath) ≠ none) :
    renameFile (some backend) (some fault) objects oldPath newPath =
      (false, emptied objects
        (if backend = .cos ∧ fault = .afterCopy then [sanitizeRelativePath newPath] else [])) := by
  have hnil : emptied objects [] = objects := by
    funext x
    exact if_neg List.not_mem_nil
  have hone : ∀ target, Function.update objects target none = emptied objects [target] := by
    intro target
    funext x
    rw [emptied, Function.update_apply]
    exact if_congr List.mem_singleton.symm rfl rfl
  cases backend with
  | localDisk =>
    rw [renameFile, fsRename, if_pos (.inl fun h => by cases h),
      if_neg (fun h => by cases h.1), hnil]
  | cos =>
    cases fault with
    | atOnce =>
      rw [renameFile, cosRename, if_pos (.inl rfl), if_neg (fun h => by cases h.2), hnil]
    | afterCopy =>
      rw [renameFile, cosRename, if_neg (not_or.mpr ⟨fun h => (by cases h), hpresent⟩), if_pos rfl,
        if_pos ⟨rfl, rfl⟩, Function.update_idem, hone]

/-- Renames in the other direction. -/
lemma foldl_renameFile
    (h : Apart (moves.map fun move =>
      (sanitizeRelativePath move.2, sanitizeRelativePath move.1.relativePath)))
    (hpresent : ∀ move ∈ moves, objects (sanitizeRelativePath move.2) ≠ none) :
    moves.foldl (fun objects move =>
        (renameFile (some backend) none objects move.2 move.1.relativePath).2) objects =
      moveAll objects (moves.map fun move =>
        (sanitizeRelativePath move.2, sanitizeRelativePath move.1.relativePath)) := by
  induction moves generalizing objects with
  | nil => rfl
  | cons m moves ih =>
    have hne := h.disjoint _ List.mem_cons_self _ List.mem_cons_self
    rw [List.foldl_cons, renameFile_none backend (hpresent m List.mem_cons_self) hne, List.map_cons,
      moveAll]
    refine ih (h.sublist (List.sublist_cons_self _ _)) fun m' hm' => ?_
    have hsource : sanitizeRelativePath m'.2 ≠ sanitizeRelativePath m.2 := fun heq =>
      (List.nodup_cons.mp h.sources).1
        (List.mem_map.mpr ⟨_, List.mem_map_of_mem hm', heq⟩)
    have htarget := h.disjoint _ (List.mem_cons_of_mem _ (List.mem_map_of_mem hm')) _
      List.mem_cons_self
    change move objects _ _ (sanitizeRelativePath m'.2) ≠ none
    rw [move_of_ne hsource htarget]
    exact hpresent m' (List.mem_cons_of_mem m hm')

/-- Undoing renames that are apart. -/
lemma renameBack_eq (h : Apart (movePlaces moves))
    (hpresent : ∀ move ∈ moves, objects (sanitizeRelativePath move.2) ≠ none) :
    renameBack (some backend) objects moves = moveBack objects (movePlaces moves) := by
  have hswap : (movePlaces moves).map Prod.swap = moves.map fun move =>
      (sanitizeRelativePath move.2, sanitizeRelativePath move.1.relativePath) := by
    rw [movePlaces, List.map_map]
    rfl
  have hback := h.swap
  rw [moveBack, hswap, ← List.map_reverse]
  rw [hswap, ← List.map_reverse] at hback
  exact foldl_renameFile hback fun m hm => hpresent m (List.mem_reverse.mp hm)

/-- The places that a rename that fails leaves empty. -/
def emptiedBy (backend : StorageBackend) (failures : Failures) (i : ℕ)
    (move : AssetFile × String) : List String :=
  if backend = .cos ∧ failures.rename i = some .afterCopy then [sanitizeRelativePath move.2] else []

lemma movePlaces_append (moves moves' : List (AssetFile × String)) :
    movePlaces (moves ++ moves') = movePlaces moves ++ movePlaces moves' := List.map_append

/-- **The loop over the files of a folder** renames them all; or it fails at one of them, and what
it leaves is the group with some places emptied: those the files before it have been moved to, and
one more if it has been copied. -/
lemma renameMoves_spec (backend : StorageBackend) (failures : Failures) (objects : Objects)
    (done rest : List (AssetFile × String)) (h : Apart (movePlaces (done ++ rest)))
    (hpresent : ∀ move ∈ done ++ rest, objects (sanitizeRelativePath move.1.relativePath) ≠ none) :
    ((∀ i, done.length ≤ i → i < done.length + rest.length → failures.rename i = none) ∧
      renameMoves (some backend) failures (moveAll objects (movePlaces done)) done rest =
        .ok (moveAll objects (movePlaces (done ++ rest)))) ∨
    ∃ (k : ℕ) (move : AssetFile × String), done.length ≤ k ∧ (done ++ rest)[k]? = some move ∧
      (∀ i, done.length ≤ i → i < k → failures.rename i = none) ∧ failures.rename k ≠ none ∧
      renameMoves (some backend) failures (moveAll objects (movePlaces done)) done rest =
        .error (emptied objects ((movePlaces ((done ++ rest).take k)).map Prod.snd ++
          emptiedBy backend failures k move)) := by
  induction rest generalizing done with
  | nil =>
    rw [List.append_nil]
    exact .inl ⟨fun i hi hlt => absurd hlt (by simpa using hi), rfl⟩
  | cons m rest ih =>
    have hsplit : done ++ m :: rest = done ++ [m] ++ rest := by
      rw [List.append_assoc, List.singleton_append]
    have hconcat : Apart (movePlaces done ++ movePlaces [m]) := by
      rw [hsplit, movePlaces_append, movePlaces_append] at h
      exact h.sublist (List.sublist_append_left _ _)
    have hapart := hconcat.sublist (List.sublist_append_left _ _)
    have hmoved := moveAll_moved hapart objects
    obtain ⟨hsource, htarget⟩ := hconcat.notMem_of_concat
    have hm : moveAll objects (movePlaces done) (sanitizeRelativePath m.1.relativePath) ≠ none := by
      rw [hmoved.other _ hsource.1 hsource.2]
      exact hpresent m (List.mem_append_right done List.mem_cons_self)
    cases hfault : failures.rename done.length with
    | none =>
      have hne := hconcat.disjoint _ (List.mem_append_right _ List.mem_cons_self) _
        (List.mem_append_right _ List.mem_cons_self)
      have hnext : move (moveAll objects (movePlaces done))
          (sanitizeRelativePath m.1.relativePath) (sanitizeRelativePath m.2) =
            moveAll objects (movePlaces (done ++ [m])) := by
        rw [movePlaces_append]
        exact (moveAll_concat objects _ _ _).symm
      have hstep : renameMoves (some backend) failures (moveAll objects (movePlaces done)) done
          (m :: rest) = renameMoves (some backend) failures
            (moveAll objects (movePlaces (done ++ [m]))) (done ++ [m]) rest := by
        rw [renameMoves, hfault, renameFile_none backend hm hne, hnext]
      have hlen : (done ++ [m]).length = done.length + 1 := by
        rw [List.length_append, List.length_singleton]
      have hfirst : ∀ i, done.length ≤ i → ¬ done.length + 1 ≤ i → failures.rename i = none := by
        intro i hi hlt
        rw [show i = done.length by omega, hfault]
      rw [hstep, hsplit]
      rw [hsplit] at h hpresent
      obtain ⟨hall, hrun⟩ | ⟨k, m', hk, hget, hbefore, hfails, hrun⟩ := ih (done ++ [m]) h hpresent
      · refine .inl ⟨fun i hi hlt => ?_, hrun⟩
        by_cases hnew : done.length + 1 ≤ i
        · rw [List.length_cons] at hlt
          exact hall i (by omega) (by omega)
        · exact hfirst i hi hnew
      · refine .inr ⟨k, m', by omega, hget, fun i hi hlt => ?_, hfails, hrun⟩
        by_cases hnew : done.length + 1 ≤ i
        · exact hbefore i (by omega) hlt
        · exact hfirst i hi hnew
    | some fault =>
      refine .inr ⟨done.length, m, le_rfl, ?_, fun i hi hlt => absurd hlt (not_lt.mpr hi), ?_, ?_⟩
      · rw [List.getElem?_append_right le_rfl, Nat.sub_self]
        rfl
      · rw [hfault]
        exact nofun
      · have hempty : ∀ x ∈ emptiedBy backend failures done.length m,
            x ∉ (movePlaces done).map Prod.fst ∧ x ∉ (movePlaces done).map Prod.snd := by
          intro x hx
          rw [emptiedBy] at hx
          split_ifs at hx
          · rw [List.mem_singleton.mp hx]
            exact htarget
          · cases hx
        have hfaulty : (if backend = .cos ∧ fault = .afterCopy then [sanitizeRelativePath m.2]
            else []) = emptiedBy backend failures done.length m := by
          rw [emptiedBy, hfault]
          exact if_congr (and_congr_right fun _ => Option.some_inj.symm) rfl rfl
        have hback : ∀ m' ∈ done, emptied (moveAll objects (movePlaces done))
            (emptiedBy backend failures done.length m) (sanitizeRelativePath m'.2) ≠ none := by
          intro m' hm'
          have hplace := List.mem_map_of_mem (f := fun move : AssetFile × String =>
            (sanitizeRelativePath move.1.relativePath, sanitizeRelativePath move.2)) hm'
          rw [emptied, if_neg fun hx => (hempty _ hx).2 (List.mem_map_of_mem hplace),
            hmoved.target _ hplace]
          exact hpresent m' (List.mem_append_left _ hm')
        rw [renameMoves, hfault, renameFile_fault hm, hfaulty]
        dsimp only
        rw [renameBack_eq hapart hback, moveBack_emptied hapart objects hempty, List.take_left]

end Renames

/-! ## A folder -/

section Folder

variable {backend : Option StorageBackend} {failures : Failures} {s : GroupState}
  {files : List AssetFile} {objects : Objects} {moves : List (AssetFile × String)}
  {lost : List String}

lemma mem_targets {k : ℕ} {x : String} : x ∈ (movePlaces (moves.take k)).map Prod.snd ↔
    ∃ (i : ℕ) (move : AssetFile × String), i < k ∧ moves[i]? = some move ∧
      sanitizeRelativePath move.2 = x := by
  rw [movePlaces, List.map_map, List.mem_map]
  constructor
  · rintro ⟨move, hmove, heq⟩
    obtain ⟨i, hi⟩ := List.mem_iff_getElem?.mp hmove
    rw [List.getElem?_take] at hi
    split_ifs at hi with hlt
    exact ⟨i, move, hlt, hi, heq⟩
  · rintro ⟨i, move, hlt, hi, heq⟩
    refine ⟨move, List.mem_iff_getElem?.mpr ⟨i, ?_⟩, heq⟩
    rw [List.getElem?_take_of_lt hlt, hi]

/-- A file at a target of the moves is none of those that are moved. -/
lemma Planned.ne_of_target (h : Planned files moves) (hids : (files.map (·.id)).Nodup)
    {file : AssetFile} {move m : AssetFile × String} (hfile : file ∈ files) (hmove : move ∈ moves)
    (hplace : sanitizeRelativePath file.relativePath = sanitizeRelativePath move.2)
    (hm : m ∈ moves) : m.1.id ≠ file.id := by
  intro hid
  have heq : m.1 = file := List.inj_on_of_nodup_map hids (h.mem m hm) hfile hid
  rw [← heq] at hplace
  exact h.disjoint _ (List.mem_map_of_mem hm) _ (List.mem_map_of_mem hmove) hplace

/-- What is left of a group when some places are empty. -/
lemma stored_emptied (hstored : Stored ⟨files, objects⟩) {files' : List AssetFile}
    (hsub : files' ⊆ files) : Stored ⟨files', emptied objects lost⟩ ↔
      ∀ file ∈ files', sanitizeRelativePath file.relativePath ∉ lost := by
  constructor
  · intro hleft file hfile hmem
    have hmissing := hleft file hfile
    dsimp only at hmissing
    rw [emptied, if_pos hmem] at hmissing
    cases hmissing
  · intro hclear file hfile
    dsimp only
    rw [emptied, if_neg (hclear file hfile)]
    exact hstored file (hsub hfile)

/-- What is left of a group when the places that have been written to are empty: every file that
has not been overwritten. -/
lemma stored_emptied_iff (h : Planned files moves) (hids : (files.map (·.id)).Nodup)
    (hstored : Stored ⟨files, objects⟩) {files' : List AssetFile} (hsub : files' ⊆ files)
    (hkeep : ∀ file ∈ files, (∀ m ∈ moves, m.1.id ≠ file.id) → file ∈ files')
    (hlost : ∀ x, x ∈ lost ↔ ∃ (i : ℕ) (move : AssetFile × String), moves[i]? = some move ∧
      WrittenTo backend failures i ∧ sanitizeRelativePath move.2 = x) :
    Stored ⟨files', emptied objects lost⟩ ↔ ¬ Overwrites backend failures files moves := by
  rw [stored_emptied hstored hsub]
  constructor
  · rintro hleft ⟨i, move, hi, hwritten, file, hfile, hother, hplace⟩
    exact hleft file (hkeep file hfile hother) ((hlost _).mpr ⟨i, move, hi, hwritten, hplace.symm⟩)
  · intro hclear file hfile hmem
    obtain ⟨i, move, hi, hwritten, heq⟩ := (hlost _).mp hmem
    exact hclear ⟨i, move, hi, hwritten, file, hsub hfile, fun m hm =>
      h.ne_of_target hids (hsub hfile) (List.mem_of_getElem? hi) heq.symm hm, heq.symm⟩

/-- A row once the rows of the moves have been updated. -/
def renamedRow (moves : List (AssetFile × String)) (file : AssetFile) : AssetFile :=
  match moves.find? fun move => move.1.id = file.id with
  | some move => { file with relativePath := move.2 }
  | none => file

lemma foldl_adminUpdateFilePath (hids : (moves.map (·.1.id)).Nodup) (files : List AssetFile) :
    moves.foldl (fun files move => adminUpdateFilePath files move.1.id move.2) files =
      files.map (renamedRow moves) := by
  induction moves generalizing files with
  | nil => exact (List.map_id files).symm
  | cons m moves ih =>
    rw [List.map_cons, List.nodup_cons] at hids
    rw [List.foldl_cons, ih hids.2, adminUpdateFilePath, List.map_map]
    refine List.map_congr_left fun file _ => ?_
    rw [Function.comp_apply]
    by_cases hid : file.id = m.1.id
    · have hlater : moves.find? (fun move => move.1.id = file.id) = none := by
        rw [List.find?_eq_none]
        intro m' hm' heq
        rw [decide_eq_true_eq, hid] at heq
        exact hids.1 (List.mem_map.mpr ⟨m', hm', heq⟩)
      have hfirst : (m :: moves).find? (fun move => move.1.id = file.id) = some m :=
        List.find?_cons_of_pos (decide_eq_true hid.symm)
      rw [if_pos hid, renamedRow, renamedRow, hlater, hfirst]
    · have hfirst : (m :: moves).find? (fun move => move.1.id = file.id) =
          moves.find? fun move => move.1.id = file.id :=
        List.find?_cons_of_neg fun heq => hid (of_decide_eq_true heq).symm
      rw [if_neg hid, renamedRow, renamedRow, hfirst]

/-- What is left of a group when the rows of all moves have been updated: every file that has not
been overwritten. -/
lemma stored_moveAll_iff (h : Planned files moves)
    (hstored : Stored ⟨files, objects⟩) (hall : AllRenamed backend failures moves) :
    Stored ⟨files.map (renamedRow moves), moveAll objects (movePlaces moves)⟩ ↔
      ¬ Overwrites backend failures files moves := by
  obtain ⟨htarget, hsource, hother⟩ := moveAll_moved (h.apart hstored) objects
  have hmoved : ∀ move ∈ moves, moveAll objects (movePlaces moves) (sanitizeRelativePath move.2) =
      some move.1.id := fun move hmove => by
    rw [htarget _ (List.mem_map_of_mem hmove)]
    exact hstored move.1 (h.mem move hmove)
  have hstays : ∀ file, (∀ m ∈ moves, m.1.id ≠ file.id) → renamedRow moves file = file := by
    intro file hother
    rw [renamedRow, List.find?_eq_none.mpr fun m hm => by
      rw [decide_eq_true_eq]
      exact hother m hm]
  constructor
  · rintro hleft ⟨i, move, hi, -, file, hfile, hstay, hplace⟩
    have hthere := hleft file (List.mem_map.mpr ⟨file, hfile, hstays file hstay⟩)
    dsimp only at hthere
    rw [hplace, hmoved move (List.mem_of_getElem? hi), Option.some.injEq] at hthere
    exact hstay move (List.mem_of_getElem? hi) hthere
  · intro hclear row hrow
    obtain ⟨file, hfile, rfl⟩ := List.mem_map.mp hrow
    dsimp only
    cases hfind : moves.find? fun move => move.1.id = file.id with
    | some move =>
      have hid := List.find?_some hfind
      rw [decide_eq_true_eq] at hid
      rw [renamedRow, hfind]
      dsimp only
      rw [hmoved move (List.mem_of_find?_eq_some hfind), hid]
    | none =>
      have hstay : ∀ m ∈ moves, m.1.id ≠ file.id := fun m hm heq =>
        List.find?_eq_none.mp hfind m hm (decide_eq_true heq)
      rw [hstays file hstay, hother]
      · exact hstored file hfile
      · intro hmem
        obtain ⟨p, hp, hplace⟩ := List.mem_map.mp hmem
        obtain ⟨m, hm, rfl⟩ := List.mem_map.mp hp
        have heq := (hstored m.1 (h.mem m hm)).symm.trans
          ((congrArg objects hplace).trans (hstored file hfile))
        exact hstay m hm (Option.some.inj heq)
      · intro hmem
        obtain ⟨p, hp, hplace⟩ := List.mem_map.mp hmem
        obtain ⟨m, hm, rfl⟩ := List.mem_map.mp hp
        obtain ⟨i, hi⟩ := List.mem_iff_getElem?.mp hm
        have hlt := (List.getElem?_eq_some_iff.mp hi).1
        exact hclear ⟨i, m, hi, ⟨hall.1, fun j hj => hall.2 j (by omega), .inl (hall.2 i hlt)⟩,
          file, hfile, hstay, hplace.symm⟩

lemma mem_of_updateMoves {i : ℕ} {fault : StatementFault} {file : AssetFile}
    (h : updateMoves failures i moves = some (fault, file)) : ∃ move ∈ moves, move.1 = file := by
  induction moves generalizing i with
  | nil => cases h
  | cons m moves ih =>
    rw [updateMoves] at h
    split at h
    · cases h
      exact ⟨m, List.mem_cons_self, rfl⟩
    · obtain ⟨move, hmove, heq⟩ := ih h
      exact ⟨move, List.mem_cons_of_mem m hmove, heq⟩

lemma keepsFiles_failed {e : PatchError} : KeepsFiles (.failed e, s) ↔ Stored s :=
  ⟨fun h => h e rfl, fun h _ _ => h⟩

/-- A request that is not stranded and stops short loses what is overwritten. -/
lemma losesFiles_iff (hnot : ¬ Stranded backend failures moves)
    (hstops : StopsShort backend failures moves) :
    LosesFiles backend failures files moves ↔ Overwrites backend failures files moves := by
  rw [LosesFiles, or_iff_right hnot, and_iff_right hstops]

section Disk

variable {b : StorageBackend}

/-- The places that are written to when every file is renamed. -/
lemma mem_targets_iff (hall : AllRenamed (some b) failures moves) (x : String) :
    x ∈ (movePlaces moves).map Prod.snd ↔
      ∃ (i : ℕ) (move : AssetFile × String), moves[i]? = some move ∧
        WrittenTo (some b) failures i ∧ sanitizeRelativePath move.2 = x := by
  conv_lhs => rw [← List.take_length (l := moves)]
  rw [mem_targets]
  constructor
  · rintro ⟨i, m, hi, hget, hplace⟩
    exact ⟨i, m, hget, ⟨nofun, fun j hj => hall.2 j (hj.trans hi), .inl (hall.2 i hi)⟩, hplace⟩
  · rintro ⟨i, m, hget, -, hplace⟩
    exact ⟨i, m, (List.getElem?_eq_some_iff.mp hget).1, hget, hplace⟩

/-- The places that are written to when a rename fails. -/
lemma mem_targets_append_iff {k : ℕ} {move : AssetFile × String} (hget : moves[k]? = some move)
    (hbefore : ∀ i < k, failures.rename i = none) (hfails : failures.rename k ≠ none)
    (x : String) :
    x ∈ (movePlaces (moves.take k)).map Prod.snd ++ emptiedBy b failures k move ↔
      ∃ (i : ℕ) (m : AssetFile × String), moves[i]? = some m ∧
        WrittenTo (some b) failures i ∧ sanitizeRelativePath m.2 = x := by
  rw [List.mem_append, mem_targets, emptiedBy]
  constructor
  · rintro (⟨i, m, hi, hm, hplace⟩ | hcopied)
    · exact ⟨i, m, hm, ⟨nofun, fun j hj => hbefore j (hj.trans hi), .inl (hbefore i hi)⟩, hplace⟩
    · split_ifs at hcopied with hfault
      · exact ⟨k, move, hget, ⟨nofun, hbefore, .inr ⟨congrArg some hfault.1, hfault.2⟩⟩,
          (List.mem_singleton.mp hcopied).symm⟩
      · cases hcopied
  · rintro ⟨i, m, hm, ⟨-, hall, hlast⟩, hplace⟩
    rcases lt_trichotomy i k with hlt | rfl | hlt
    · exact .inl ⟨i, m, hlt, hm, hplace⟩
    · obtain rfl : m = move := Option.some.inj (hm.symm.trans hget)
      obtain hnone | ⟨hcos, hfault⟩ := hlast
      · exact absurd hnone hfails
      · rw [if_pos ⟨Option.some.inj hcos, hfault⟩]
        exact .inr (List.mem_singleton.mpr hplace.symm)
    · exact absurd (hall k hlt) hfails

/-- Without compensation no file of the folder is where its row says. -/
lemma Planned.not_stored (h : Planned files moves) (hstored : Stored ⟨files, objects⟩) :
    ¬ Stored ⟨files, moveAll objects (movePlaces moves)⟩ := by
  obtain ⟨m, hm⟩ := List.exists_mem_of_ne_nil moves h.ne_nil
  intro hstill
  have hrow := hstill m.1 (h.mem m hm)
  dsimp only at hrow
  rw [(moveAll_moved (h.apart hstored) objects).source _ (List.mem_map_of_mem hm)] at hrow
  cases hrow

lemma Planned.renameBack (h : Planned files moves) (hstored : Stored ⟨files, objects⟩) :
    renameBack (some b) (moveAll objects (movePlaces moves)) moves =
      emptied objects ((movePlaces moves).map Prod.snd) := by
  have hapart := h.apart hstored
  rw [renameBack_eq hapart, moveBack_moveAll hapart]
  intro m hm
  have hthere : objects (sanitizeRelativePath m.1.relativePath) = some m.1.id :=
    hstored m.1 (h.mem m hm)
  rw [(moveAll_moved hapart objects).target _ (List.mem_map_of_mem hm)]
  exact hthere.trans_ne (Option.some_ne_none _)

/-- The folder, when every rename succeeds. -/
lemma moveFolder_of_allRenamed (h : Planned files moves) (hids : (files.map (·.id)).Nodup)
    (hstored : Stored ⟨files, objects⟩) (hall : AllRenamed (some b) failures moves)
    (hrun : renameMoves (some b) failures objects [] moves =
      .ok (moveAll objects (movePlaces moves))) :
    KeepsFiles (moveFolder (some b) failures ⟨files, objects⟩ moves) ↔
      ¬ LosesFiles (some b) failures files moves := by
  have hlost := mem_targets_iff hall
  rw [moveFolder, hrun]
  dsimp only
  by_cases hbegin : failures.beginTx = true
  · rw [if_pos hbegin, keepsFiles_failed]
    exact iff_of_false (h.not_stored hstored) (not_not.mpr (.inl ⟨hall, .inl hbegin⟩))
  rw [if_neg hbegin]
  have hnot : (∀ file, updateMoves failures 0 moves ≠ some (.error, file)) →
      ¬ Stranded (some b) failures moves := by
    rintro herror ⟨-, hbegin' | ⟨file, hupdate⟩⟩
    · exact hbegin hbegin'
    · exact herror file hupdate
  cases hupdate : updateMoves failures 0 moves with
  | some stopped =>
    obtain ⟨fault, file⟩ := stopped
    cases fault with
    | error =>
      rw [keepsFiles_failed]
      exact iff_of_false (h.not_stored hstored)
        (not_not.mpr (.inl ⟨hall, .inr ⟨file, hupdate⟩⟩))
    | noRow =>
      have hstops : StopsShort (some b) failures moves := .inr (.inr (.inl (by
        rw [hupdate]
        exact Option.some_ne_none _)))
      have hkeep : ∀ other ∈ files, (∀ m ∈ moves, m.1.id ≠ other.id) →
          other ∈ files.filter fun other => other.id ≠ file.id := by
        intro other hother hstay
        obtain ⟨m, hm, rfl⟩ := mem_of_updateMoves hupdate
        exact List.mem_filter.mpr ⟨hother, decide_eq_true (hstay m hm).symm⟩
      dsimp only
      rw [keepsFiles_failed, h.renameBack hstored,
        losesFiles_iff (hnot fun file' => by rw [hupdate]; exact nofun) hstops]
      exact stored_emptied_iff h hids hstored (List.filter_subset_self _) hkeep hlost
  | none =>
    have hnot' := hnot fun file => by
      rw [hupdate]
      exact (Option.some_ne_none _).symm
    dsimp only
    by_cases hcommit : failures.commit = true
    · rw [if_pos hcommit, keepsFiles_failed, h.renameBack hstored,
        losesFiles_iff hnot' (.inr (.inr (.inr (.inl hcommit))))]
      exact stored_emptied_iff h hids hstored (List.Subset.refl _) (fun _ hfile _ => hfile) hlost
    rw [if_neg hcommit, foldl_adminUpdateFilePath h.ids]
    by_cases hlist : failures.listAgain = true
    · rw [if_pos hlist, keepsFiles_failed,
        losesFiles_iff hnot' (.inr (.inr (.inr (.inr hlist))))]
      exact stored_moveAll_iff h hstored hall
    · rw [if_neg hlist]
      refine iff_of_true (fun e he => nomatch he) ?_
      rintro (hstranded | ⟨hall' | hbegin' | hupdate' | hcommit' | hlist', -⟩)
      · exact hnot' hstranded
      · exact hall' hall
      · exact hbegin hbegin'
      · exact hupdate' hupdate
      · exact hcommit hcommit'
      · exact hlist hlist'

end Disk

/-- **The folder, from its first rename on**: if the request fails, the files of the group are
where their rows say, unless the request is stranded or a file has been overwritten. -/
theorem moveFolder_keepsFiles_iff (h : Planned files moves) (hids : (files.map (·.id)).Nodup)
    (hstored : Stored ⟨files, objects⟩) :
    KeepsFiles (moveFolder backend failures ⟨files, objects⟩ moves) ↔
      ¬ LosesFiles backend failures files moves := by
  cases backend with
  | none =>
    obtain ⟨m, rest, rfl⟩ := List.exists_cons_of_ne_nil h.ne_nil
    have hnot : ¬ AllRenamed none failures (m :: rest) := fun hall => hall.1 rfl
    have hclear : ¬ Overwrites none failures files (m :: rest) := by
      rintro ⟨i, move, -, hwritten, -⟩
      exact hwritten.1 rfl
    rw [moveFolder, renameMoves, renameFile]
    dsimp only
    rw [keepsFiles_failed, losesFiles_iff (fun hstranded => hnot hstranded.1) (.inl hnot)]
    exact iff_of_true hstored hclear
  | some b =>
    have hpresent : ∀ move ∈ moves, objects (sanitizeRelativePath move.1.relativePath) ≠ none := by
      intro move hmove
      have hthere : objects (sanitizeRelativePath move.1.relativePath) = some move.1.id :=
        hstored move.1 (h.mem move hmove)
      exact hthere.trans_ne (Option.some_ne_none _)
    obtain ⟨hall, hrun⟩ | ⟨k, move, -, hget, hbefore, hfails, hrun⟩ :=
      renameMoves_spec b failures objects [] moves (h.apart hstored) hpresent
    · refine moveFolder_of_allRenamed h hids hstored ⟨nofun, fun i hi => ?_⟩ hrun
      exact hall i (Nat.zero_le i) (by rwa [List.length_nil, Nat.zero_add])
    · have hfewer : k < moves.length := (List.getElem?_eq_some_iff.mp hget).1
      have hnot : ¬ AllRenamed (some b) failures moves := fun hall => hfails (hall.2 k hfewer)
      have hlost := mem_targets_append_iff (b := b) hget (fun i => hbefore i (Nat.zero_le i))
        hfails
      have hloop : renameMoves (some b) failures objects [] moves =
          .error (emptied objects ((movePlaces (moves.take k)).map Prod.snd ++
            emptiedBy b failures k move)) := hrun
      rw [moveFolder, hloop]
      dsimp only
      rw [keepsFiles_failed, losesFiles_iff (fun hstranded => hnot hstranded.1) (.inl hnot)]
      exact stored_emptied_iff h hids hstored (List.Subset.refl _) (fun _ hfile _ => hfile) hlost

end Folder

end Storage
