import RbphBackend.Storage.Compensation

set_option relaxedAutoImplicit false
set_option autoImplicit false

/-!
# What a failed rename leaves

A request that renames a file or a folder of a group, and fails before the metadata of the group is
recomputed, leaves every file where its row says, or it harms the group.

## Main definitions

* `Storage.FileHarmed`, `Storage.FolderHarmed` — when a failed request harms the group.

## Main results

* `Storage.moveFile_keepsFiles_iff` — a file, from its rename on.
* `Storage.patch_keepsFiles_iff` — when a failed request leaves every file where its row says.
* `Storage.patchFile_keepsFiles_of_sanitized`, `Storage.patchFolder_keepsFiles_iff_of_sanitized` —
  the same, where the rows name sanitized paths.
-/

namespace Storage

open Paths Paths.Moves

/-! ## When a request harms a group -/

section Harm

variable (backend : Option StorageBackend) (failures : Failures) (files : List AssetFile)

/-- When a request that renames a folder and fails harms the group. -/
def FolderHarmed (locked : Bool) (path name : String) : Prop :=
  ∃ moves, planFolder failures locked files path name = .ok moves ∧
    LosesFiles backend failures files moves

/-- A file is renamed, or at least copied, to the place of another one, or in a bucket to its own,
and the request fails. -/
def Displaces (file : AssetFile) (relativePath : String) : Prop :=
  (backend = some .cos ∧ failures.rename 0 = some .afterCopy ∧ ∃ other ∈ files,
      sanitizeRelativePath other.relativePath = sanitizeRelativePath relativePath) ∨
    (backend ≠ none ∧ failures.rename 0 = none ∧
      (failures.update 0 ≠ none ∨ failures.listAgain = true) ∧
      ((∃ other ∈ files, other.id ≠ file.id ∧
          sanitizeRelativePath other.relativePath = sanitizeRelativePath relativePath) ∨
        (backend = some .cos ∧ failures.update 0 ≠ some .noRow ∧
          sanitizeRelativePath file.relativePath = sanitizeRelativePath relativePath)))

/-- When a request that renames a file and fails harms the group. -/
def FileHarmed (locked : Bool) (fileId : ℕ) (fileName : Option String) : Prop :=
  ∃ file relativePath, planFile failures locked files fileId fileName = .ok (file, relativePath) ∧
    Displaces backend failures files file relativePath

end Harm

/-! ## A file -/

section File

variable {backend : Option StorageBackend} {failures : Failures} {files : List AssetFile}
  {objects : Objects} {file : AssetFile} {relativePath oldPath newPath : String}

/-- A rename that succeeds, and its undoing. On a disk, a file that is renamed to its own place
stays; in a bucket it is deleted. -/
lemma renameFile_cases (newPath : String) (b : StorageBackend)
    (hpresent : objects (sanitizeRelativePath oldPath) ≠ none) :
    (sanitizeRelativePath oldPath = sanitizeRelativePath newPath ∧ b = .localDisk ∧
      renameFile (some b) none objects oldPath newPath = (true, objects) ∧
      (renameFile (some b) none objects newPath oldPath).2 = objects) ∨
    ((sanitizeRelativePath oldPath ≠ sanitizeRelativePath newPath ∨ b = .cos) ∧
      renameFile (some b) none objects oldPath newPath =
        (true, move objects (sanitizeRelativePath oldPath) (sanitizeRelativePath newPath)) ∧
      (renameFile (some b) none
        (move objects (sanitizeRelativePath oldPath) (sanitizeRelativePath newPath))
        newPath oldPath).2 = emptied objects [sanitizeRelativePath newPath]) := by
  by_cases hne : sanitizeRelativePath oldPath = sanitizeRelativePath newPath
  · cases b with
    | localDisk =>
      have hguard : ¬ ((none : Option RenameFault) ≠ none ∨
          objects (sanitizeRelativePath oldPath) = none) :=
        not_or.mpr ⟨not_not.mpr rfl, hpresent⟩
      refine .inl ⟨hne, rfl, ?_, ?_⟩
      · rw [renameFile, fsRename, if_neg hguard, if_pos hne]
      · rw [renameFile, fsRename, ← hne, if_neg hguard, if_pos rfl]
    | cos =>
      have hempty : move objects (sanitizeRelativePath newPath) (sanitizeRelativePath newPath) =
          emptied objects [sanitizeRelativePath newPath] := by
        funext x
        rw [move, Function.update_eq_self, Function.update_apply, emptied]
        exact if_congr List.mem_singleton.symm rfl rfl
      have hguard : ¬ ((none : Option RenameFault) = some .atOnce ∨
          objects (sanitizeRelativePath oldPath) = none) :=
        not_or.mpr ⟨fun h => (by cases h), hpresent⟩
      refine .inr ⟨.inr rfl, ?_, ?_⟩
      · rw [renameFile, cosRename, if_neg hguard]
        rfl
      · rw [hne, renameFile, cosRename, if_pos (.inr move_source), hempty]
  · refine .inr ⟨.inl hne, renameFile_none b hpresent hne, ?_⟩
    have hapart : Apart [(sanitizeRelativePath oldPath, sanitizeRelativePath newPath)] :=
      ⟨List.nodup_singleton _, List.nodup_singleton _, fun p hp q hq => by
        rw [List.mem_singleton.mp hp, List.mem_singleton.mp hq]
        exact hne⟩
    have hmoved : move objects (sanitizeRelativePath oldPath) (sanitizeRelativePath newPath)
        (sanitizeRelativePath newPath) ≠ none := by rwa [move_target hne]
    rw [renameFile_none b hmoved (Ne.symm hne)]
    exact moveBack_moveAll hapart objects

/-- Only one file of a group is at a place. -/
lemma eq_of_place (hids : (files.map (·.id)).Nodup) (hstored : Stored ⟨files, objects⟩)
    {other : AssetFile} (hfile : file ∈ files) (hother : other ∈ files)
    (hplace : sanitizeRelativePath other.relativePath = sanitizeRelativePath file.relativePath) :
    other = file := by
  have heq := (hstored other hother).symm.trans
    ((congrArg objects hplace).trans (hstored file hfile))
  exact List.inj_on_of_nodup_map hids hother hfile (Option.some.inj heq)

lemma mem_adminUpdateFilePath {id : ℕ} {row : AssetFile} :
    row ∈ adminUpdateFilePath files id relativePath ↔
      (row ∈ files ∧ row.id ≠ id) ∨ ∃ other ∈ files, other.id = id ∧
        row = { other with relativePath } := by
  rw [adminUpdateFilePath, List.mem_map]
  constructor
  · rintro ⟨other, hother, rfl⟩
    split_ifs with hid
    · exact .inr ⟨other, hother, hid, rfl⟩
    · exact .inl ⟨hother, hid⟩
  · rintro (⟨hrow, hid⟩ | ⟨other, hother, hid, rfl⟩)
    · exact ⟨row, hrow, if_neg hid⟩
    · exact ⟨other, hother, if_pos hid⟩

/-- What is left of a group when the row of a file that has been renamed is updated. -/
lemma stored_adminUpdateFilePath (hids : (files.map (·.id)).Nodup)
    (hstored : Stored ⟨files, objects⟩) (hfile : file ∈ files) :
    Stored ⟨adminUpdateFilePath files file.id relativePath,
        move objects (sanitizeRelativePath file.relativePath) (sanitizeRelativePath relativePath)⟩ ↔
      ¬ ((∃ other ∈ files, other.id ≠ file.id ∧
          sanitizeRelativePath other.relativePath = sanitizeRelativePath relativePath) ∨
        sanitizeRelativePath file.relativePath = sanitizeRelativePath relativePath) := by
  have hthere : objects (sanitizeRelativePath file.relativePath) = some file.id :=
    hstored file hfile
  have hnew : { file with relativePath } ∈ adminUpdateFilePath files file.id relativePath :=
    mem_adminUpdateFilePath.mpr (.inr ⟨file, hfile, rfl, rfl⟩)
  constructor
  · rintro hleft (⟨other, hother, hid, hplace⟩ | hown)
    · have hrow := hleft other (mem_adminUpdateFilePath.mpr (.inl ⟨hother, hid⟩))
      have hne : sanitizeRelativePath file.relativePath ≠ sanitizeRelativePath relativePath :=
        fun hown => hid (congrArg AssetFile.id
          (eq_of_place hids hstored hfile hother (hplace.trans hown.symm)))
      dsimp only at hrow
      rw [hplace, move_target hne, hthere, Option.some.injEq] at hrow
      exact hid hrow.symm
    · have hrow := hleft _ hnew
      dsimp only at hrow
      rw [← hown, move_source] at hrow
      cases hrow
  · intro hclear row hrow
    obtain ⟨hothers, hown⟩ := not_or.mp hclear
    dsimp only
    obtain ⟨hrow, hid⟩ | ⟨other, hother, hid, rfl⟩ := mem_adminUpdateFilePath.mp hrow
    · rw [move_of_ne _ fun hplace => hothers ⟨row, hrow, hid, hplace⟩]
      · exact hstored row hrow
      · exact fun hplace => hid (congrArg AssetFile.id
          (eq_of_place hids hstored hfile hrow hplace))
    · rw [move_target hown, hthere, hid]

section Displaces

variable {b : StorageBackend} {fault : RenameFault}

lemma displaces_iff_of_fault (hfault : failures.rename 0 = some fault) :
    Displaces (some b) failures files file relativePath ↔ (b = .cos ∧ fault = .afterCopy) ∧
      ∃ other ∈ files,
        sanitizeRelativePath other.relativePath = sanitizeRelativePath relativePath := by
  rw [Displaces, hfault, Option.some_inj, Option.some_inj, and_assoc]
  exact or_iff_left fun h => Option.some_ne_none _ h.2.1

lemma displaces_iff_of_renamed (hnone : failures.rename 0 = none) :
    Displaces (some b) failures files file relativePath ↔
      (failures.update 0 ≠ none ∨ failures.listAgain = true) ∧
      ((∃ other ∈ files, other.id ≠ file.id ∧
          sanitizeRelativePath other.relativePath = sanitizeRelativePath relativePath) ∨
        (b = .cos ∧ failures.update 0 ≠ some .noRow ∧
          sanitizeRelativePath file.relativePath = sanitizeRelativePath relativePath)) := by
  rw [Displaces, hnone, Option.some_inj, or_iff_right fun h => Option.some_ne_none _ h.2.1.symm,
    and_iff_right (Option.some_ne_none b), and_iff_right rfl]

end Displaces

/-- **The file, from its rename on**: if the request fails, the files of the group are where their
rows say, unless the file has been renamed to the place of another one, or in a bucket to its
own. -/
theorem moveFile_keepsFiles_iff (hids : (files.map (·.id)).Nodup)
    (hstored : Stored ⟨files, objects⟩) (hfile : file ∈ files) :
    KeepsFiles (moveFile backend failures ⟨files, objects⟩ file relativePath) ↔
      ¬ Displaces backend failures files file relativePath := by
  have hthere : objects (sanitizeRelativePath file.relativePath) = some file.id :=
    hstored file hfile
  have hpresent : objects (sanitizeRelativePath file.relativePath) ≠ none := by
    rw [hthere]
    exact Option.some_ne_none _
  rw [moveFile]
  cases backend with
  | none =>
    rw [renameFile]
    dsimp only
    rw [keepsFiles_failed]
    refine iff_of_true hstored ?_
    rintro (⟨hcos, -⟩ | ⟨hsome, -⟩)
    · cases hcos
    · exact hsome rfl
  | some b =>
    cases hfault : failures.rename 0 with
    | some fault =>
      rw [renameFile_fault hpresent, displaces_iff_of_fault hfault]
      dsimp only
      rw [keepsFiles_failed, stored_emptied hstored (List.Subset.refl _)]
      by_cases hcopied : b = .cos ∧ fault = .afterCopy
      · rw [if_pos hcopied, and_iff_right hcopied]
        simp only [List.mem_singleton, not_exists, not_and]
      · rw [if_neg hcopied]
        exact iff_of_true (fun _ _ => List.not_mem_nil) fun h => hcopied h.1
    | none =>
      rw [displaces_iff_of_renamed hfault]
      obtain ⟨hown, rfl, hrun, hback⟩ | ⟨hne, hrun, hback⟩ :=
        renameFile_cases relativePath b hpresent
      · have hclear : ¬ ((failures.update 0 ≠ none ∨ failures.listAgain = true) ∧
            ((∃ other ∈ files, other.id ≠ file.id ∧
                sanitizeRelativePath other.relativePath = sanitizeRelativePath relativePath) ∨
              (StorageBackend.localDisk = .cos ∧ failures.update 0 ≠ some .noRow ∧
                sanitizeRelativePath file.relativePath = sanitizeRelativePath relativePath))) := by
          rintro ⟨-, ⟨other, hother, hid, hplace⟩ | ⟨hcos, -⟩⟩
          · exact hid (congrArg AssetFile.id
              (eq_of_place hids hstored hfile hother (hplace.trans hown.symm)))
          · cases hcos
        refine iff_of_true ?_ hclear
        rw [hrun]
        dsimp only
        split
        · rw [hback, keepsFiles_failed]
          exact fun other hother => hstored other (List.mem_of_mem_filter hother)
        · rwa [hback, keepsFiles_failed]
        · split_ifs
          · rw [keepsFiles_failed]
            intro row hrow
            obtain ⟨hrow, -⟩ | ⟨other, hother, hid, rfl⟩ := mem_adminUpdateFilePath.mp hrow
            · exact hstored row hrow
            · dsimp only
              rw [← hown, hthere, hid]
          · exact fun e he => (by cases he)
      · rw [hrun]
        dsimp only
        cases hupdate : failures.update 0 with
        | some stopped =>
          cases stopped with
          | noRow =>
            dsimp only
            rw [hback, keepsFiles_failed, stored_emptied hstored (List.filter_subset_self _)]
            constructor
            · rintro hleft ⟨-, ⟨other, hother, hid, hplace⟩ | ⟨-, hthere, -⟩⟩
              · exact hleft other (List.mem_filter.mpr ⟨hother, decide_eq_true hid⟩)
                  (List.mem_singleton.mpr hplace)
              · exact hthere rfl
            · intro hclear other hother hmem
              obtain ⟨hother, hid⟩ := List.mem_filter.mp hother
              exact hclear ⟨.inl (Option.some_ne_none _), .inl ⟨other, hother,
                of_decide_eq_true hid, List.mem_singleton.mp hmem⟩⟩
          | error =>
            dsimp only
            rw [hback, keepsFiles_failed, stored_emptied hstored (List.Subset.refl _)]
            constructor
            · rintro hleft ⟨-, ⟨other, hother, -, hplace⟩ | ⟨-, -, hown⟩⟩
              · exact hleft other hother (List.mem_singleton.mpr hplace)
              · exact hleft file hfile (List.mem_singleton.mpr hown)
            · intro hclear other hother hmem
              have hplace := List.mem_singleton.mp hmem
              refine hclear ⟨.inl (Option.some_ne_none _), ?_⟩
              by_cases hid : other.id = file.id
              · obtain rfl := List.inj_on_of_nodup_map hids hother hfile hid
                exact .inr ⟨hne.resolve_left (not_not.mpr hplace), fun h => (by cases h), hplace⟩
              · exact .inl ⟨other, hother, hid, hplace⟩
        | none =>
          dsimp only
          by_cases hlist : failures.listAgain = true
          · rw [if_pos hlist, keepsFiles_failed, stored_adminUpdateFilePath hids hstored hfile,
              and_iff_right (.inr hlist)]
            refine not_congr (or_congr_right ⟨fun hown => ?_, fun h => h.2.2⟩)
            exact ⟨hne.resolve_left (not_not.mpr hown), fun h => (by cases h), hown⟩
          · rw [if_neg hlist]
            refine iff_of_true (fun e he => (by cases he)) ?_
            rintro ⟨hnone | hlist', -⟩
            · exact hnone rfl
            · exact hlist hlist'

end File

/-! ## Requests -/

section Requests

variable (backend : Option StorageBackend) (group : AssetGroup) (failures : Failures)
  (locked : Bool)

lemma patchFile_keepsFiles_iff (fileId : ℕ) (fileName : Option String) :
    KeepsFiles (patchFile backend failures locked group.state fileId fileName) ↔
      ¬ FileHarmed backend failures group.state.files locked fileId fileName := by
  rw [patchFile, FileHarmed]
  cases hplan : planFile failures locked group.state.files fileId fileName with
  | error patch => exact iff_of_true (fun _ _ => group.stored) nofun
  | ok plan =>
    obtain ⟨file, relativePath⟩ := plan
    refine (moveFile_keepsFiles_iff group.ids group.stored (exists_of_planFile hplan).1).trans
      (not_congr ⟨fun h => ⟨file, relativePath, rfl, h⟩, ?_⟩)
    rintro ⟨file', relativePath', heq, h⟩
    cases heq
    exact h

lemma patchFolder_keepsFiles_iff (path name : String) :
    KeepsFiles (patchFolder backend failures locked group.state path name) ↔
      ¬ FolderHarmed backend failures group.state.files locked path name := by
  rw [patchFolder, FolderHarmed]
  cases hplan : planFolder failures locked group.state.files path name with
  | error patch => exact iff_of_true (fun _ _ => group.stored) nofun
  | ok moves =>
    refine (moveFolder_keepsFiles_iff (planned_of_planFolder group.ids hplan) group.ids
      group.stored).trans (not_congr ⟨fun h => ⟨moves, rfl, h⟩, ?_⟩)
    rintro ⟨moves', heq, h⟩
    cases heq
    exact h

/-- Where the rows name sanitized paths, the checks of a file see every place that it could be
renamed over, and **a file that cannot be renamed harms nothing**. -/
theorem patchFile_keepsFiles_of_sanitized
    (hrows : ∀ file ∈ group.state.files,
      sanitizeRelativePath file.relativePath = file.relativePath)
    (fileId : ℕ) (fileName : Option String) :
    KeepsFiles (patchFile backend failures locked group.state fileId fileName) := by
  rw [patchFile_keepsFiles_iff]
  rintro ⟨file, relativePath, hplan, hdisplaces⟩
  obtain ⟨hfile, newName, hname, rfl, hne, hfree⟩ := exists_of_planFile hplan
  set newPath := joinAssetPath (parentPath file.relativePath) newName
  have hnew : sanitizeRelativePath newPath = newPath :=
    sanitizeRelativePath_of_parts
      (sanitizedParts_joinAssetPath (sanitizedParts_of_eq_self (hrows file hfile)) hname)
  have hclear : ∀ other ∈ group.state.files,
      sanitizeRelativePath other.relativePath ≠ sanitizeRelativePath newPath := by
    intro other hother hplace
    rw [hrows other hother, hnew] at hplace
    have hid := hfree other hother hplace
    obtain rfl := List.inj_on_of_nodup_map group.ids hother hfile hid
    exact hne hplace.symm
  obtain ⟨-, -, other, hother, hplace⟩ |
    ⟨-, -, -, ⟨other, hother, -, hplace⟩ | ⟨-, -, hplace⟩⟩ := hdisplaces
  · exact hclear other hother hplace
  · exact hclear other hother hplace
  · exact hclear file hfile hplace

/-- Where the rows name sanitized paths, **only a stranded request harms the group**. -/
theorem patchFolder_keepsFiles_iff_of_sanitized
    (hrows : ∀ file ∈ group.state.files,
      sanitizeRelativePath file.relativePath = file.relativePath)
    (path name : String) :
    KeepsFiles (patchFolder backend failures locked group.state path name) ↔
      ∀ moves, planFolder failures locked group.state.files path name = .ok moves →
        ¬ Stranded backend failures moves := by
  rw [patchFolder_keepsFiles_iff]
  constructor
  · exact fun hkeeps moves hplan hstranded => hkeeps ⟨moves, hplan, .inl hstranded⟩
  rintro hnot ⟨moves, hplan, hstranded | ⟨-, i, move, hget, -, other, hother, hstays, hplace⟩⟩
  · exact hnot moves hplan hstranded
  -- the new path is sanitized, so a row that names its place is in the new folder
  obtain ⟨folder, newName, hfolder, hname, -, -, -, hfree, rfl⟩ := exists_of_planFolder hplan
  set newFolder := joinAssetPath (parentPath folder) newName
  obtain ⟨file, hfile, rfl⟩ := List.mem_map.mp (List.mem_of_getElem? hget)
  obtain ⟨hfile, hin⟩ := List.mem_filter.mp hfile
  obtain ⟨rest, hpath, hnewPath⟩ := exists_of_isPathInFolder hin newFolder
  have hrest := (sanitizedParts_split (hpath ▸ sanitizedParts_of_eq_self (hrows file hfile))).2
  have hnew : sanitizeRelativePath (newFolder ++ "/" ++ rest) = newFolder ++ "/" ++ rest := by
    refine sanitizeRelativePath_of_parts ?_
    rw [sanitizedParts_append, segments_append_slash, hrest,
      sanitizedParts_joinAssetPath (sanitizedParts_of_eq_self hfolder) hname]
  have hout : isPathInFolder other.relativePath folder = false := by
    rw [← Bool.not_eq_true]
    intro hin'
    exact hstays _ (List.mem_map_of_mem (List.mem_filter.mpr ⟨hother, hin'⟩)) rfl
  have hin' := isPathInFolder_append newFolder rest
  rw [hrows other hother, hnewPath, hnew] at hplace
  rw [← hplace, hfree other hother hout] at hin'
  cases hin'

/-- **A failed request** leaves every file of the group where its row says exactly when it is not
stranded after the last rename, and has renamed no file to the place of one that stays. -/
theorem patch_keepsFiles_iff :
    (∀ fileId fileName,
        KeepsFiles (patchFile backend failures locked group.state fileId fileName) ↔
          ¬ FileHarmed backend failures group.state.files locked fileId fileName) ∧
      ∀ path name,
        KeepsFiles (patchFolder backend failures locked group.state path name) ↔
          ¬ FolderHarmed backend failures group.state.files locked path name :=
  ⟨patchFile_keepsFiles_iff backend group failures locked,
    patchFolder_keepsFiles_iff backend group failures locked⟩

end Requests

/-- A folder with one file. -/
def oneFile : AssetGroup where
  state := ⟨[⟨1, "a/x.txt"⟩], fun path => if path = "a/x.txt" then some 1 else none⟩
  ids := List.nodup_singleton 1
  stored := by
    intro file hfile
    rw [List.mem_singleton.mp hfile]
    decide +kernel

/-- The transaction cannot begin after the file has been renamed. -/
theorem oneFile_lost :
    ¬ KeepsFiles
      (patchFolder (some .localDisk) { beginTx := true } false oneFile.state "a" "b") := by
  rw [patchFolder_keepsFiles_iff, not_not]
  refine ⟨[(⟨1, "a/x.txt"⟩, "b/x.txt")], by decide +kernel, .inl ⟨⟨nofun, ?_⟩, .inl rfl⟩⟩
  exact fun _ _ => rfl

end Storage
