import RbphBackend.Games.Settings
import RbphBackend.Paths.Moves
import RbphBackend.Storage.Groups

set_option relaxedAutoImplicit false
set_option autoImplicit false

/-!
# Renaming the files of a group

A file or a folder of a group is renamed in the storage first, and then in the rows of the group. A
request may fail at every rename, at every statement, when the transaction begins and when it is
committed; what has been renamed in the storage is then renamed back, or not. The group is on a
local disk or in a bucket.

## Main definitions

* `Storage.renameFile` — `StorageManager::rename_file`.
* `Storage.patchFile`, `Storage.patchFolder` — `api/admin/asset.rs`, until the metadata of the
  group is recomputed.
* `Storage.Stored` — every file is stored at the path that its row names.
-/

namespace Storage

open Paths.Moves

/-! ## Paths of files -/

/-- `normalize_asset_relative_path`. -/
def normalizeAssetRelativePath (path : String) : Option String :=
  let path := Games.trim path
  if path = "" ∨ 1024 < path.length then none
  else if sanitizeRelativePath path = path then some path else none

/-- `normalize_asset_path_segment`. -/
def normalizeAssetPathSegment (name : String) : Option String :=
  let name := Games.trim name
  if name = "" ∨ 255 < name.length ∨ '/' ∈ name.toList ∨ '\\' ∈ name.toList then none
  else if sanitizeRelativePath name = name then some name else none

def parentPath (path : String) : Option String :=
  (rsplitOnce '/' path.toList).map fun parts => String.ofList parts.1

def joinAssetPath (parent : Option String) (name : String) : String :=
  match parent with
  | none => name
  | some parent => parent ++ "/" ++ name

/-- `str::strip_prefix`. -/
def stripPrefix (path folder : String) : Option (List Char) :=
  if folder.toList <+: path.toList then some (path.toList.drop folder.toList.length) else none

def isPathInFolder (path folder : String) : Bool :=
  (stripPrefix path folder).any fun suffix => suffix.head? = some '/'

/-- The path of a file once its folder has another path. -/
def pathInFolder (folder newFolder path : String) : String :=
  newFolder ++ String.ofList ((stripPrefix path folder).getD [])

/-! ## The storage -/

/-- The backends that keep files outside the database. -/
inductive StorageBackend where
  | localDisk
  | cos
  deriving DecidableEq

/-- What is stored for a group: the file whose content is at an object path, by the sanitized path
that it is made of. -/
abbrev Objects := String → Option ℕ

/-- Paths that are sanitized to different ones are different files of a disk. -/
lemma objectPath_inj {storage : LocalStorage} {objectKey p q : String}
    (hp : Contained storage objectKey p) (hq : Contained storage objectKey q)
    (h : Paths.components (storage.objectPath objectKey p) =
      Paths.components (storage.objectPath objectKey q)) :
    sanitizeRelativePath p = sanitizeRelativePath q := by
  rw [components_objectPath, components_objectPath, List.append_right_inj, List.cons.injEq,
    Paths.filterMap_ofSegment?_of_safe hp.names, Paths.filterMap_ofSegment?_of_safe hq.names] at h
  have hinj : Function.Injective Paths.Component.normal := fun _ _ => Paths.Component.normal.inj
  exact Paths.segments_inj (List.map_injective_iff.mpr hinj h.2)

/-- How a rename fails: before anything has been done, or, in a bucket, when the object has been
copied and the old one cannot be deleted. -/
inductive RenameFault where
  | atOnce
  | afterCopy
  deriving DecidableEq

/-- `CosStorage::rename`: a copy, and then the old object is deleted, or else the copy. -/
def cosRename (fault : Option RenameFault) (objects : Objects) (source target : String) :
    Bool × Objects :=
  if fault = some .atOnce ∨ objects source = none then (false, objects)
  else
    let copied := Function.update objects target (objects source)
    if fault = some .afterCopy then (false, Function.update copied target none)
    else (true, Function.update copied source none)

/-- `fs::rename`. -/
def fsRename (fault : Option RenameFault) (objects : Objects) (source target : String) :
    Bool × Objects :=
  if fault ≠ none ∨ objects source = none then (false, objects)
  else if source = target then (true, objects)
  else (true, Function.update (Function.update objects target (objects source)) source none)

/-- `StorageManager::rename_file`, and whether it succeeds; no backend is an unknown one. -/
def renameFile (backend : Option StorageBackend) (fault : Option RenameFault) (objects : Objects)
    (oldPath newPath : String) : Bool × Objects :=
  match backend with
  | none => (false, objects)
  | some .localDisk =>
    fsRename fault objects (sanitizeRelativePath oldPath) (sanitizeRelativePath newPath)
  | some .cos =>
    cosRename fault objects (sanitizeRelativePath oldPath) (sanitizeRelativePath newPath)

/-! ## The rows -/

/-- The fields of a row that a rename reads. -/
structure AssetFile where
  id : ℕ
  relativePath : String
  deriving DecidableEq

/-- `admin_update_file_path`. -/
def adminUpdateFilePath (files : List AssetFile) (id : ℕ) (relativePath : String) :
    List AssetFile :=
  files.map fun file => if file.id = id then { file with relativePath } else file

/-- The rows of a group and what is stored for it. -/
structure GroupState where
  files : List AssetFile
  objects : Objects

/-- Every file is stored at the path that its row names. -/
def Stored (s : GroupState) : Prop :=
  ∀ file ∈ s.files, s.objects (sanitizeRelativePath file.relativePath) = some file.id

/-- A group whose files are stored at the paths that their rows name. -/
structure AssetGroup where
  state : GroupState
  ids : (state.files.map (·.id)).Nodup
  stored : Stored state

/-! ## Requests -/

/-- How a statement on a row fails: with an error, or because the row is gone. -/
inductive StatementFault where
  | error
  | noRow
  deriving DecidableEq

/-- What goes wrong in a request. -/
structure Failures where
  getGroup : Option StatementFault := none
  groupLocked : Bool := false
  getFile : Option StatementFault := none
  pathExists : Bool := false
  listFiles : Bool := false
  rename : ℕ → Option RenameFault := fun _ => none
  beginTx : Bool := false
  update : ℕ → Option StatementFault := fun _ => none
  commit : Bool := false
  listAgain : Bool := false

inductive PatchError where
  | notFound
  | locked
  | invalid
  | rename
  | database
  deriving DecidableEq

/-- How a request ends, or that it comes to the metadata of the group. -/
inductive Patch where
  | failed (e : PatchError)
  | unchanged
  | recompute
  deriving DecidableEq

/-- The group of a request, which is there and not locked. -/
def checkGroup (failures : Failures) (locked : Bool) : Except Patch Unit :=
  if failures.getGroup = some .error then .error (.failed .database)
  else if failures.getGroup = some .noRow then .error (.failed .notFound)
  else if failures.groupLocked then .error (.failed .database)
  else if locked then .error (.failed .locked)
  else .ok ()

/-- The files of the group, when nothing is to be renamed. -/
def listUnchanged (failures : Failures) : Patch :=
  if failures.listFiles then .failed .database else .unchanged

/-! ### A file -/

/-- `admin_get_file`. -/
def adminGetFile (failures : Failures) (files : List AssetFile) (fileId : ℕ) :
    Except Patch AssetFile :=
  if failures.getFile = some .error then .error (.failed .database)
  else if failures.getFile = some .noRow then .error (.failed .notFound)
  else
    match files.find? fun file => file.id = fileId with
    | none => .error (.failed .notFound)
    | some file => .ok file

/-- The file that is to be renamed, and its new path; or how the request ends before. -/
def planFile (failures : Failures) (locked : Bool) (files : List AssetFile) (fileId : ℕ)
    (fileName : Option String) : Except Patch (AssetFile × String) := do
  checkGroup failures locked
  let file ← adminGetFile failures files fileId
  match fileName with
  | none => .error (listUnchanged failures)
  | some fileName =>
    match normalizeAssetPathSegment fileName with
    | none => .error (.failed .invalid)
    | some fileName =>
      let relativePath := joinAssetPath (parentPath file.relativePath) fileName
      if relativePath = file.relativePath then .error (listUnchanged failures)
      else if failures.pathExists then .error (.failed .database)
      else if files.any fun other => other.relativePath = relativePath ∧ other.id ≠ fileId then
        .error (.failed .invalid)
      else .ok (file, relativePath)

/-- The part of `patch_file` that renames. -/
def moveFile (backend : Option StorageBackend) (failures : Failures) (s : GroupState)
    (file : AssetFile) (relativePath : String) : Patch × GroupState :=
  match renameFile backend (failures.rename 0) s.objects file.relativePath relativePath with
  | (false, objects) => (.failed .rename, { s with objects })
  | (true, objects) =>
    match failures.update 0 with
    | some .noRow =>
      (.failed .notFound,
        { files := s.files.filter fun other => other.id ≠ file.id
          objects := (renameFile backend none objects relativePath file.relativePath).2 })
    | some .error =>
      (.failed .database,
        { s with objects := (renameFile backend none objects relativePath file.relativePath).2 })
    | none =>
      let s : GroupState := ⟨adminUpdateFilePath s.files file.id relativePath, objects⟩
      if failures.listAgain then (.failed .database, s) else (.recompute, s)

/-- `patch_file`, until the metadata of the group is recomputed. -/
def patchFile (backend : Option StorageBackend) (failures : Failures) (locked : Bool)
    (s : GroupState) (fileId : ℕ) (fileName : Option String) : Patch × GroupState :=
  match planFile failures locked s.files fileId fileName with
  | .error patch => (patch, s)
  | .ok (file, relativePath) => moveFile backend failures s file relativePath

/-! ### A folder -/

/-- The files that are to be renamed, and their new paths; or how the request ends before. -/
def planFolder (failures : Failures) (locked : Bool) (files : List AssetFile)
    (path name : String) : Except Patch (List (AssetFile × String)) := do
  checkGroup failures locked
  match normalizeAssetRelativePath path with
  | none => .error (.failed .invalid)
  | some folderPath =>
    match normalizeAssetPathSegment name with
    | none => .error (.failed .invalid)
    | some folderName =>
      let newFolderPath := joinAssetPath (parentPath folderPath) folderName
      if newFolderPath = folderPath then .error (listUnchanged failures)
      else if failures.listFiles then .error (.failed .database)
      else
        let affected := files.filter fun file => isPathInFolder file.relativePath folderPath
        if affected = [] then .error (.failed .notFound)
        else if (files.filter fun file => !isPathInFolder file.relativePath folderPath).any
            fun file => file.relativePath = newFolderPath ||
              isPathInFolder file.relativePath newFolderPath then
          .error (.failed .invalid)
        else .ok (affected.map fun file =>
          (file, pathInFolder folderPath newFolderPath file.relativePath))

/-- The renames are undone, the last one first. -/
def renameBack (backend : Option StorageBackend) (objects : Objects)
    (renamed : List (AssetFile × String)) : Objects :=
  renamed.reverse.foldl
    (fun objects move => (renameFile backend none objects move.2 move.1.relativePath).2) objects

/-- The loop that renames the files of a folder; if a rename fails, what is stored after the others
have been undone. -/
def renameMoves (backend : Option StorageBackend) (failures : Failures) (objects : Objects)
    (renamed : List (AssetFile × String)) : List (AssetFile × String) → Except Objects Objects
  | [] => .ok objects
  | move :: moves =>
    match renameFile backend (failures.rename renamed.length) objects move.1.relativePath
        move.2 with
    | (true, objects) => renameMoves backend failures objects (renamed ++ [move]) moves
    | (false, objects) => .error (renameBack backend objects renamed)

/-- The loop that updates the rows: how it fails, and at which file. -/
def updateMoves (failures : Failures) :
    ℕ → List (AssetFile × String) → Option (StatementFault × AssetFile)
  | _, [] => none
  | i, move :: moves =>
    match failures.update i with
    | some fault => some (fault, move.1)
    | none => updateMoves failures (i + 1) moves

/-- The part of `patch_folder` that renames. -/
def moveFolder (backend : Option StorageBackend) (failures : Failures) (s : GroupState)
    (moves : List (AssetFile × String)) : Patch × GroupState :=
  match renameMoves backend failures s.objects [] moves with
  | .error objects => (.failed .rename, { s with objects })
  | .ok objects =>
    -- an error of the transaction returns from here; only what is a result is compensated
    if failures.beginTx then (.failed .database, { s with objects })
    else
      match updateMoves failures 0 moves with
      | some (.error, _) => (.failed .database, { s with objects })
      | some (.noRow, file) =>
        (.failed .notFound,
          { files := s.files.filter fun other => other.id ≠ file.id
            objects := renameBack backend objects moves })
      | none =>
        if failures.commit then
          (.failed .database, { s with objects := renameBack backend objects moves })
        else
          let files := moves.foldl
            (fun files move => adminUpdateFilePath files move.1.id move.2) s.files
          if failures.listAgain then (.failed .database, ⟨files, objects⟩)
          else (.recompute, ⟨files, objects⟩)

/-- `patch_folder`, until the metadata of the group is recomputed. -/
def patchFolder (backend : Option StorageBackend) (failures : Failures) (locked : Bool)
    (s : GroupState) (path name : String) : Patch × GroupState :=
  match planFolder failures locked s.files path name with
  | .error patch => (patch, s)
  | .ok moves => moveFolder backend failures s moves

end Storage
