import RbphBackend.Storage.Renames
import RbphBackend.Storage.UniquePaths

set_option relaxedAutoImplicit false
set_option autoImplicit false

/-!
# The plan of a folder

A folder that is renamed gets another last name, and its files keep what comes after the folder. So
no file of it is to be renamed to the place of another one of it, and no two of them to one place.

## Main definitions

* `Storage.movePlaces` — the places between which files are renamed.
* `Storage.Planned` — renames that do not meet.

## Main results

* `Storage.planned_of_planFolder` — the renames of a folder do not meet.
-/

namespace Storage

open Paths Paths.Moves

/-! ## Places of files in a folder -/

/-- The name that a segment of a path is sanitized to, unless it is dropped. -/
def keptName (segment : String) : Option String :=
  (Component.ofSegment? segment).bind fun
    | .normal part => some (sanitizeFilename part)
    | _ => none

section Folders

variable {path folder name suffix : String}

lemma sanitizedParts_eq (path : String) :
    sanitizedParts path = (segments path).filterMap keptName := by
  have hleading : ∀ f : Component → Option String, f .rootDir = none → f .curDir = none →
      (leading path).filterMap f = [] := by
    intro f hroot hcur
    rw [leading]
    split_ifs
    · rw [List.filterMap_cons_none hroot, List.filterMap_nil]
    · rw [List.filterMap_cons_none hcur, List.filterMap_nil]
    · rfl
  rw [sanitizedParts, components, List.filterMap_append, hleading _ rfl rfl, List.nil_append,
    List.filterMap_filterMap]
  refine List.filterMap_congr fun s _ => ?_
  rw [keptName]
  refine Option.bind_congr fun c _ => ?_
  cases c with
  | normal part => exact if_neg (sanitizeFilename_ne_empty part)
  | rootDir => rfl
  | curDir => rfl
  | parentDir => rfl

lemma sanitizedParts_append (p q : String) :
    sanitizedParts (p ++ "/" ++ q) = sanitizedParts p ++ sanitizedParts q := by
  rw [sanitizedParts_eq, sanitizedParts_eq, sanitizedParts_eq, segments_append_slash,
    List.filterMap_append]

/-- A sanitized path is made of its segments. -/
lemma sanitizedParts_of_eq_self (h : sanitizeRelativePath path = path) :
    sanitizedParts path = segments path := by
  have hsegs := segments_sanitizeRelativePath path
  rw [h] at hsegs
  split_ifs at hsegs with hnil
  · rw [sanitizeRelativePath, if_pos hnil] at h
    rw [← h] at hnil
    exact absurd hnil (by decide +kernel)
  · exact hsegs.symm

lemma length_sanitizedParts_le (path : String) :
    (sanitizedParts path).length ≤ (segments path).length :=
  sanitizedParts_eq path ▸ List.length_filterMap_le _ _

/-- If no segment of a path is dropped or changed, none of its front or back is. -/
lemma sanitizedParts_split {p q : String}
    (h : sanitizedParts (p ++ "/" ++ q) = segments (p ++ "/" ++ q)) :
    sanitizedParts p = segments p ∧ sanitizedParts q = segments q := by
  rw [sanitizedParts_append, segments_append_slash] at h
  have hsum := congrArg List.length h
  have hp := length_sanitizedParts_le p
  have hq := length_sanitizedParts_le q
  rw [List.length_append, List.length_append] at hsum
  exact List.append_inj h (by omega)

lemma sanitizeRelativePath_of_parts (h : sanitizedParts path = segments path) :
    sanitizeRelativePath path = path := by
  rw [sanitizeRelativePath, h, if_neg (segments_ne_nil path), intercalate_segments]

lemma append_ofList_slash (p : String) (rest : List Char) :
    p ++ String.ofList ('/' :: rest) = p ++ "/" ++ String.ofList rest := by
  apply String.toList_inj.mp
  simp

lemma slash_notMem_of_parentPath (h : parentPath path = none) : '/' ∉ path.toList := by
  rw [parentPath, Option.map_eq_none_iff] at h
  exact notMem_of_rsplitOnce_none h

/-- A path below a folder is its parent and a last segment. -/
lemma exists_of_parentPath {parent : String} (h : parentPath path = some parent) :
    ∃ last, '/' ∉ last.toList ∧ path = parent ++ "/" ++ last := by
  rw [parentPath, Option.map_eq_some_iff] at h
  obtain ⟨⟨front, back⟩, hsplit, rfl⟩ := h
  refine ⟨String.ofList back, ?_, ?_⟩
  · rw [String.toList_ofList]
    exact notMem_of_rsplitOnce hsplit
  · rw [← append_ofList_slash, ← String.ofList_append, ← rsplitOnce_eq hsplit,
      String.ofList_toList]

/-- A folder that is renamed gets another last name. -/
lemma exists_sanitizedParts_renamed (hfolder : sanitizeRelativePath folder = folder)
    (hname : sanitizeRelativePath name = name) (hslash : '/' ∉ name.toList)
    (hne : joinAssetPath (parentPath folder) name ≠ folder) :
    ∃ base last, last ≠ name ∧ sanitizedParts folder = base ++ [last] ∧
      sanitizedParts (joinAssetPath (parentPath folder) name) = base ++ [name] := by
  have hparts := sanitizedParts_of_eq_self hfolder
  have hlast : sanitizedParts name = [name] := by
    rw [sanitizedParts_of_eq_self hname, segments_eq_singleton hslash]
  cases hparent : parentPath folder with
  | none =>
    rw [hparent, joinAssetPath] at hne
    refine ⟨[], folder, hne.symm, ?_, hlast⟩
    rw [hparts, segments_eq_singleton (slash_notMem_of_parentPath hparent), List.nil_append]
  | some parent =>
    obtain ⟨last, hlastSlash, heq⟩ := exists_of_parentPath hparent
    rw [hparent, joinAssetPath] at hne
    rw [joinAssetPath]
    -- no segment of the folder is dropped, so none of its parent is
    obtain ⟨hbase, -⟩ := sanitizedParts_split (heq ▸ hparts)
    refine ⟨segments parent, last, ?_, ?_, ?_⟩
    · intro hlastName
      rw [← hlastName, ← heq] at hne
      exact hne rfl
    · conv_lhs => rw [hparts, heq]
      rw [segments_append_slash, segments_eq_singleton hlastSlash]
    · rw [sanitizedParts_append, hbase, hlast]

/-- A sanitized path that gets another last name is sanitized. -/
lemma sanitizedParts_joinAssetPath (hpath : sanitizedParts path = segments path)
    (hname : sanitizeRelativePath name = name) :
    sanitizedParts (joinAssetPath (parentPath path) name) =
      segments (joinAssetPath (parentPath path) name) := by
  have hlast := sanitizedParts_of_eq_self hname
  cases hparent : parentPath path with
  | none => exact hlast
  | some parent =>
    obtain ⟨last, -, heq⟩ := exists_of_parentPath hparent
    rw [joinAssetPath, sanitizedParts_append, segments_append_slash, hlast,
      (sanitizedParts_split (heq ▸ hpath)).1]

lemma isPathInFolder_append (folder rest : String) :
    isPathInFolder (folder ++ "/" ++ rest) folder = true := by
  have hpath : (folder ++ "/" ++ rest).toList = folder.toList ++ '/' :: rest.toList := by simp
  rw [isPathInFolder, stripPrefix, hpath, if_pos (List.prefix_append _ _), List.drop_left]
  rfl

lemma exists_of_isPathInFolder (h : isPathInFolder path folder = true) (newFolder : String) :
    ∃ rest, path = folder ++ "/" ++ rest ∧
      pathInFolder folder newFolder path = newFolder ++ "/" ++ rest := by
  rw [isPathInFolder, stripPrefix] at h
  rw [pathInFolder, stripPrefix]
  split_ifs at h ⊢ with hprefix
  · obtain ⟨suffix, hsuffix⟩ := hprefix
    rw [← hsuffix, List.drop_left] at h ⊢
    rw [Option.any_some, decide_eq_true_eq] at h
    obtain ⟨rest, rfl⟩ := List.head?_eq_some_iff.mp h
    refine ⟨String.ofList rest, ?_, append_ofList_slash newFolder rest⟩
    rw [← append_ofList_slash]
    apply String.toList_inj.mp
    rw [String.toList_append, String.toList_ofList, hsuffix]
  · cases h

/-- The names of the place of a file in a folder. -/
lemma segments_place {base : List String} {last rest : String}
    (hfolder : sanitizedParts folder = base ++ [last]) :
    segments (sanitizeRelativePath (folder ++ "/" ++ rest)) =
      base ++ last :: sanitizedParts rest := by
  have hparts : sanitizedParts (folder ++ "/" ++ rest) = base ++ last :: sanitizedParts rest := by
    rw [sanitizedParts_append, hfolder, List.append_assoc, List.singleton_append]
  rw [segments_sanitizeRelativePath, hparts, if_neg (by simp)]

end Folders

/-! ## What is planned -/

/-- The places between which files are moved. -/
def movePlaces (moves : List (AssetFile × String)) : List (String × String) :=
  moves.map fun move =>
    (sanitizeRelativePath move.1.relativePath, sanitizeRelativePath move.2)

/-- Some files of a group are to be renamed, and none to the place of another one of them. -/
structure Planned (files : List AssetFile) (moves : List (AssetFile × String)) : Prop where
  mem : ∀ move ∈ moves, move.1 ∈ files
  ids : (moves.map (·.1.id)).Nodup
  ne_nil : moves ≠ []
  disjoint : ∀ p ∈ movePlaces moves, ∀ q ∈ movePlaces moves, p.1 ≠ q.2
  injective : ∀ p ∈ movePlaces moves, ∀ q ∈ movePlaces moves, p.2 = q.2 → p.1 = q.1

section Plan

variable {failures : Failures} {locked : Bool} {files : List AssetFile}
  {moves : List (AssetFile × String)} {path name : String} {fileId : ℕ} {fileName : Option String}
  {file : AssetFile} {relativePath : String} {s : GroupState} {objects : Objects}

lemma normalizeAssetRelativePath_eq_some {folder : String}
    (h : normalizeAssetRelativePath path = some folder) : sanitizeRelativePath folder = folder := by
  rw [normalizeAssetRelativePath] at h
  split_ifs at h with hguard hself
  rw [← Option.some.inj h]
  exact hself

lemma normalizeAssetPathSegment_eq_some {segment : String}
    (h : normalizeAssetPathSegment name = some segment) :
    sanitizeRelativePath segment = segment ∧ '/' ∉ segment.toList := by
  rw [normalizeAssetPathSegment] at h
  split_ifs at h with hguard hself
  rw [← Option.some.inj h]
  exact ⟨hself, fun hslash => hguard (.inr (.inr (.inl hslash)))⟩

/-- What a folder is checked for before its files are renamed. -/
lemma exists_of_planFolder (h : planFolder failures locked files path name = .ok moves) :
    ∃ folder newName, sanitizeRelativePath folder = folder ∧
      sanitizeRelativePath newName = newName ∧ '/' ∉ newName.toList ∧
      joinAssetPath (parentPath folder) newName ≠ folder ∧
      (files.filter fun file => isPathInFolder file.relativePath folder) ≠ [] ∧
      (∀ file ∈ files, isPathInFolder file.relativePath folder = false →
        isPathInFolder file.relativePath (joinAssetPath (parentPath folder) newName) = false) ∧
      moves = (files.filter fun file => isPathInFolder file.relativePath folder).map fun file =>
        (file, pathInFolder folder (joinAssetPath (parentPath folder) newName)
          file.relativePath) := by
  rw [planFolder] at h
  cases hcheck : checkGroup failures locked with
  | error e =>
    rw [hcheck] at h
    cases h
  | ok u =>
    rw [hcheck] at h
    dsimp only [bind, Except.bind] at h
    cases hpath : normalizeAssetRelativePath path with
    | none =>
      rw [hpath] at h
      cases h
    | some folder =>
      cases hname : normalizeAssetPathSegment name with
      | none =>
        rw [hpath, hname] at h
        cases h
      | some newName =>
        rw [hpath, hname] at h
        dsimp only at h
        split_ifs at h with hsame hlist hnone hclash
        obtain ⟨hself, hslash⟩ := normalizeAssetPathSegment_eq_some hname
        refine ⟨folder, newName, normalizeAssetRelativePath_eq_some hpath, hself, hslash, hsame,
          hnone, fun file hfile hout => ?_, (Except.ok.inj h).symm⟩
        rw [← Bool.not_eq_true]
        intro hin
        refine hclash (List.any_eq_true.mpr ⟨file, List.mem_filter.mpr ⟨hfile, ?_⟩, ?_⟩)
        · rw [hout, Bool.not_false]
        · rw [hin, Bool.or_true]

/-- **The plan of a folder**: its files keep what comes after the folder, and the folder gets
another last name. -/
lemma planned_of_planFolder (hids : (files.map (·.id)).Nodup)
    (h : planFolder failures locked files path name = .ok moves) : Planned files moves := by
  obtain ⟨folder, newName, hfolder, hname, hslash, hne, hnone, -, rfl⟩ := exists_of_planFolder h
  obtain ⟨base, last, hlast, hold, hnew⟩ :=
    exists_sanitizedParts_renamed hfolder hname hslash hne
  set newFolder := joinAssetPath (parentPath folder) newName
  set affected := files.filter fun file => isPathInFolder file.relativePath folder
    with haffected
  have hplaces : ∀ p ∈ movePlaces (affected.map fun file =>
      (file, pathInFolder folder newFolder file.relativePath)),
      ∃ rest, segments p.1 = base ++ last :: sanitizedParts rest ∧
        segments p.2 = base ++ newName :: sanitizedParts rest := by
    intro p hp
    obtain ⟨move, hmove, rfl⟩ := List.mem_map.mp hp
    obtain ⟨file, hfile, rfl⟩ := List.mem_map.mp hmove
    obtain ⟨rest, hpath, hnewPath⟩ :=
      exists_of_isPathInFolder (List.mem_filter.mp hfile).2 newFolder
    refine ⟨rest, ?_, ?_⟩
    · dsimp only
      rw [hpath, segments_place hold]
    · dsimp only
      rw [hnewPath, segments_place hnew]
  refine ⟨?_, ?_, ?_, ?_, ?_⟩
  · intro move hmove
    obtain ⟨file, hfile, rfl⟩ := List.mem_map.mp hmove
    exact List.mem_of_mem_filter hfile
  · rw [List.map_map]
    exact hids.sublist (List.filter_sublist.map _)
  · rwa [Ne, List.map_eq_nil_iff]
  · intro p hp q hq heq
    obtain ⟨rest, hsource, -⟩ := hplaces p hp
    obtain ⟨rest', -, htarget⟩ := hplaces q hq
    rw [heq, htarget, List.append_right_inj, List.cons.injEq] at hsource
    exact hlast hsource.1.symm
  · intro p hp q hq heq
    obtain ⟨rest, hsource, htarget⟩ := hplaces p hp
    obtain ⟨rest', hsource', htarget'⟩ := hplaces q hq
    rw [heq, htarget', List.append_right_inj, List.cons.injEq] at htarget
    refine segments_inj ?_
    rw [hsource, hsource', htarget.2]

lemma of_adminGetFile (h : adminGetFile failures files fileId = .ok file) :
    file ∈ files ∧ file.id = fileId := by
  rw [adminGetFile] at h
  split_ifs at h
  cases hfind : files.find? fun file => file.id = fileId with
  | none =>
    rw [hfind] at h
    cases h
  | some found =>
    rw [hfind] at h
    cases h
    have hid := List.find?_some hfind
    exact ⟨List.mem_of_find?_eq_some hfind, of_decide_eq_true hid⟩

/-- What a file is checked for before it is renamed. -/
lemma exists_of_planFile
    (h : planFile failures locked files fileId fileName = .ok (file, relativePath)) :
    file ∈ files ∧ ∃ newName, sanitizeRelativePath newName = newName ∧
      relativePath = joinAssetPath (parentPath file.relativePath) newName ∧
      relativePath ≠ file.relativePath ∧
      ∀ other ∈ files, other.relativePath = relativePath → other.id = file.id := by
  rw [planFile] at h
  cases hcheck : checkGroup failures locked with
  | error e =>
    rw [hcheck] at h
    cases h
  | ok u =>
    cases hget : adminGetFile failures files fileId with
    | error e =>
      rw [hcheck, hget] at h
      cases h
    | ok found =>
      rw [hcheck, hget] at h
      dsimp only [bind, Except.bind] at h
      obtain ⟨hfile, hid⟩ := of_adminGetFile hget
      split at h
      · cases h
      · split at h
        · cases h
        · rename_i newName hname
          split_ifs at h with hsame hexists hclash
          rw [Except.ok.injEq, Prod.mk.injEq] at h
          obtain ⟨rfl, rfl⟩ := h
          refine ⟨hfile, newName, (normalizeAssetPathSegment_eq_some hname).1, rfl, hsame, ?_⟩
          intro other hother hpath
          by_contra hne
          refine hclash (List.any_eq_true.mpr ⟨other, hother, ?_⟩)
          rw [← hid]
          exact decide_eq_true ⟨hpath, hne⟩

/-- The moves of a plan share no place. -/
lemma Planned.apart (h : Planned files moves) (hstored : Stored ⟨files, objects⟩) :
    Apart (movePlaces moves) := by
  have hsources : ((movePlaces moves).map Prod.fst).Nodup := by
    refine List.Nodup.of_map objects ?_
    have hids : ((movePlaces moves).map Prod.fst).map objects =
        (moves.map (·.1.id)).map some := by
      rw [movePlaces, List.map_map, List.map_map, List.map_map]
      exact List.map_congr_left fun move hmove => hstored move.1 (h.mem move hmove)
    rw [hids]
    exact h.ids.map fun _ _ => Option.some.inj
  refine ⟨hsources, ?_, h.disjoint⟩
  rw [List.nodup_iff_pairwise_ne, List.pairwise_map] at hsources ⊢
  exact hsources.imp_of_mem fun hp hq hne heq => hne (h.injective _ hp _ hq heq)

end Plan

end Storage
