import RbphBackend.Paths.Tree
import RbphBackend.Storage.Groups

set_option relaxedAutoImplicit false
set_option autoImplicit false

/-!
# The objects of a group

The files of a group become files below one directory, or objects of a bucket whose keys begin with
the key of the group.

## Main definitions

* `Storage.groupTree` — the directory of a group, once its files have been written.
* `Storage.cosObjectPath`, `Storage.cosGroupPath` — `module/storage.rs`.

## Main results

* `Storage.exists_groupTree` — the files can be written when no path leads through another one.
* `Storage.cosObjectPath_inj` — files of different paths are different objects.
-/

namespace Storage

open Paths

/-! ## Directories -/

/-- The names and contents of the files of a group. -/
def groupFiles (files : List AssetUploadFile) : List (List String × Bytes) :=
  ((groupPaths files).map segments).zip (files.map (·.bytes))

/-- The directory of a group, once its files have been written. -/
def groupTree (files : List AssetUploadFile) : Option (Tree String Bytes) :=
  Tree.empty.writeAll (groupFiles files)

lemma map_fst_groupFiles (files : List AssetUploadFile) :
    (groupFiles files).map Prod.fst = (groupPaths files).map segments := by
  refine List.map_fst_zip (le_of_eq ?_)
  rw [List.length_map, List.length_map, length_groupPaths]

/-- **The files of a group** can be written when no path leads through another one. -/
theorem exists_groupTree {files : List AssetUploadFile}
    (hclear : (groupPaths files).Pairwise fun p q => Clear (segments p) (segments q)) :
    ∃ t, groupTree files = some t ∧ t.Holds (groupFiles files) := by
  refine exists_writeAll (fun f hf => ?_) ?_
  · have hmem : f.1 ∈ (groupPaths files).map segments :=
      map_fst_groupFiles files ▸ List.mem_map_of_mem hf
    obtain ⟨p, -, hp⟩ := List.mem_map.mp hmem
    exact hp ▸ segments_ne_nil p
  · have hpaths : ((groupFiles files).map Prod.fst).Pairwise Clear := by
      rw [map_fst_groupFiles]
      exact List.pairwise_map.mpr hclear
    exact List.pairwise_map.mp hpaths

/-! ## Objects of a bucket -/

def encodeSegment (segment : String) : String := utf8PercentEncode segment urlPathSegmentEncodeSet

def cosObjectPath (objectKey relativePath : String) : String :=
  let path := sanitizeObjectKey objectKey ++ "/" ++ sanitizeRelativePath relativePath
  "/" ++ "/".intercalate ((segments path).map encodeSegment)

def cosGroupPath (objectKey : String) : String := "/" ++ encodeSegment (sanitizeObjectKey objectKey)

section Cos

variable {objectKey p q : String}

lemma slash_notMem_encodeSegment (s : String) : '/' ∉ (encodeSegment s).toList := by
  intro h
  obtain h | h | h := mem_utf8PercentEncode h
  · exact absurd h (by decide)
  · exact absurd h (by decide)
  · exact absurd h (by decide)

lemma segments_cosObjectPath (objectKey path : String) : segments (cosObjectPath objectKey path) =
    "" :: encodeSegment (sanitizeObjectKey objectKey) ::
      (segments (sanitizeRelativePath path)).map encodeSegment := by
  have hkey := segments_eq_singleton (safeSegment_sanitizeObjectKey objectKey).slash
  have hempty : segments "" = [""] := segments_eq_singleton (by simp)
  set names := (segments (sanitizeObjectKey objectKey ++ "/" ++ sanitizeRelativePath path)).map
    encodeSegment with hnames
  have hne : names ≠ [] := by
    rw [hnames, Ne, List.map_eq_nil_iff]
    exact segments_ne_nil _
  have hslash : ∀ s ∈ names, '/' ∉ s.toList := by
    intro s hs
    obtain ⟨name, -, rfl⟩ := List.mem_map.mp hs
    exact slash_notMem_encodeSegment name
  have hpath : cosObjectPath objectKey path = "" ++ "/" ++ "/".intercalate names := by
    rw [String.empty_append]
    rfl
  rw [hpath, segments_append_slash, hempty, segments_intercalate hne hslash, hnames,
    segments_append_slash, hkey]
  rfl

/-- **Files of different paths are different objects.** -/
theorem cosObjectPath_inj (h : cosObjectPath objectKey p = cosObjectPath objectKey q) :
    sanitizeRelativePath p = sanitizeRelativePath q := by
  have hsegs := congrArg segments h
  rw [segments_cosObjectPath, segments_cosObjectPath, List.cons.injEq, List.cons.injEq] at hsegs
  have hinj : Function.Injective encodeSegment :=
    fun _ _ => utf8PercentEncode_inj (by decide)
  exact segments_inj (List.map_injective_iff.mpr hinj hsegs.2.2)

/-- The objects of a group have keys that begin with the one of the group. -/
lemma cosGroupPath_prefix (objectKey path : String) :
    (cosGroupPath objectKey ++ "/").toList <+: (cosObjectPath objectKey path).toList := by
  have hgroup : segments (cosGroupPath objectKey) =
      ["", encodeSegment (sanitizeObjectKey objectKey)] := by
    have hpath : cosGroupPath objectKey =
        "" ++ "/" ++ encodeSegment (sanitizeObjectKey objectKey) := by
      rw [String.empty_append]
      rfl
    rw [hpath, segments_append_slash, segments_eq_singleton (s := "") (by simp),
      segments_eq_singleton (slash_notMem_encodeSegment _)]
    rfl
  have hsegs := segments_cosObjectPath objectKey path
  have hpre : segments (cosGroupPath objectKey) <+: segments (cosObjectPath objectKey path) := by
    rw [hgroup, hsegs]
    exact List.prefix_append ["", encodeSegment (sanitizeObjectKey objectKey)] _
  refine (eq_or_prefix_of_segments hpre).resolve_left fun heq => ?_
  rw [← heq, hgroup] at hsegs
  have hnil := (List.cons.inj (List.cons.inj hsegs).2).2.symm
  exact segments_ne_nil _ (List.map_eq_nil_iff.mp hnil)

end Cos

end Storage
