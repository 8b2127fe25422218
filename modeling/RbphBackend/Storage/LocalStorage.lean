import RbphBackend.Paths.Components
import RbphBackend.Paths.PercentEncoding

set_option relaxedAutoImplicit false
set_option autoImplicit false

/-!
# The local storage backend

Objects are stored below the storage root: one directory for each object key, and in it the file
of a relative path. Keys and paths come from requests. A key is percent-encoded, which leaves one
directory name. A relative path is split into components, of which only the named ones are kept,
and then separators and NUL characters are removed from the names that are left, so that a name
may turn into a dot name after the dot names were dropped.

## Main definitions

* `Storage.sanitizeObjectKey`, `Storage.sanitizeRelativePath`, `Storage.LocalStorage.objectPath` —
  `module/storage.rs`.
* `Storage.Contained` — the path of an object is inside its directory.
* `Storage.HidesDots` — a name that is a dot name once backslashes and NUL characters are gone.

## Main results

* `Storage.objectPath_contained_iff` — which paths stay inside.
-/

namespace Storage

open Paths

/-! ## The sanitizers -/

def storageObjectKeyEncodeSet : AsciiSet := (nonAlphanumeric.remove '-').remove '_'

/-- One directory name for an object key. -/
def sanitizeObjectKey (value : String) : String :=
  if value = "" then "invalid-object-key"
  else utf8PercentEncode value storageObjectKeyEncodeSet

/-- A file name without separators and NUL characters. -/
def sanitizeFilename (value : String) : String :=
  let result := String.ofList (value.toList.filter fun ch => ch != '\x00' && ch != '/' && ch != '\\')
  if result = "" then "file" else result

/-- The names `sanitize_relative_path` keeps: those of the named components. -/
def sanitizedParts (value : String) : List String :=
  (components value).filterMap fun
    | .normal part =>
      let part := sanitizeFilename part
      if part = "" then none else some part
    | .curDir => none
    | _ => none

/-- A relative path made of sanitized names. -/
def sanitizeRelativePath (value : String) : String :=
  let parts := sanitizedParts value
  if parts = [] then "file" else "/".intercalate parts

structure LocalStorage where
  root : String

namespace LocalStorage

/-- The directory of an object. -/
def objectDir (self : LocalStorage) (objectKey : String) : String :=
  join self.root (sanitizeObjectKey objectKey)

/-- The file of a relative path in it. -/
def objectPath (self : LocalStorage) (objectKey relativePath : String) : String :=
  join (self.objectDir objectKey) (sanitizeRelativePath relativePath)

/-- Where the object is written before it is renamed into place. -/
def tempPath (self : LocalStorage) (objectKey : String) : String :=
  join self.root (sanitizeObjectKey objectKey ++ ".tmp")

end LocalStorage

/-! ## What containment means -/

/-- The path of an object is the root, one directory and at least one file name below it, and
both sanitizers put out safe names only. -/
structure Contained (storage : LocalStorage) (objectKey relativePath : String) : Prop where
  path : ∃ (dir : String) (names : List String), names ≠ [] ∧
    components (storage.objectPath objectKey relativePath) =
      components storage.root ++ .normal dir :: names.map .normal
  key : SafeSegment (sanitizeObjectKey objectKey)
  names : ∀ s ∈ segments (sanitizeRelativePath relativePath), SafeSegment s

/-- A name that becomes a dot name once backslashes and NUL characters are gone. -/
def HidesDots (name : String) : Prop :=
  name.toList.filter (fun ch => ch != '\x00' && ch != '\\') = ['.'] ∨
  name.toList.filter (fun ch => ch != '\x00' && ch != '\\') = ['.', '.']

/-! ## Object keys -/

/-- The characters of a sanitized key. -/
private lemma mem_sanitizeObjectKey {value : String} {c : Char}
    (h : c ∈ (sanitizeObjectKey value).toList) :
    c = '%' ∨ c = '-' ∨ c = '_' ∨ c.isAlphanum := by
  unfold sanitizeObjectKey at h
  split at h
  · have hall : "invalid-object-key".toList.all (fun c => c == '-' || c.isAlphanum) = true := by
      decide
    obtain hc | hc := Bool.or_eq_true_iff.mp (List.all_eq_true.mp hall c h)
    · simp [eq_of_beq hc]
    · simp [hc]
  · rcases mem_utf8PercentEncode h with rfl | h | h
    · simp
    · simp [h]
    · simp only [AsciiSet.shouldPercentEncode, storageObjectKeyEncodeSet, AsciiSet.remove,
        nonAlphanumeric] at h
      grind

/-- **An object key is one safe directory name**, whatever it contains. -/
lemma safeSegment_sanitizeObjectKey (value : String) : SafeSegment (sanitizeObjectKey value) := by
  have hdot : '.' ∉ (sanitizeObjectKey value).toList := by
    intro h
    have := mem_sanitizeObjectKey h
    revert this; decide
  refine ⟨?_, fun h => hdot (by simp [h]), fun h => hdot (by simp [h]), fun h => ?_, fun h => ?_⟩
  · unfold sanitizeObjectKey
    split
    · decide
    · exact utf8PercentEncode_ne_empty ‹_›
  · have := mem_sanitizeObjectKey h
    revert this; decide
  · have := mem_sanitizeObjectKey h
    revert this; decide

/-! ## Relative paths -/

lemma sanitizeFilename_ne_empty (value : String) : sanitizeFilename value ≠ "" := by
  unfold sanitizeFilename
  dsimp only
  split
  · decide
  · assumption

/-- A sanitized name holds no separator. -/
lemma separator_notMem_sanitizeFilename (value : String) :
    '/' ∉ (sanitizeFilename value).toList ∧ '\\' ∉ (sanitizeFilename value).toList := by
  unfold sanitizeFilename
  dsimp only
  split
  · decide
  · simp

/-- The sanitized names are those of the named components, in order. -/
lemma mem_sanitizedParts {value s : String} :
    s ∈ sanitizedParts value ↔
      ∃ part, .normal part ∈ components value ∧ sanitizeFilename part = s := by
  simp only [sanitizedParts, List.mem_filterMap]
  constructor
  · rintro ⟨c, hc, hs⟩
    cases c with
    | normal part =>
      simp only [sanitizeFilename_ne_empty, if_false, Option.some.injEq] at hs
      exact ⟨part, hc, hs⟩
    | rootDir => simp at hs
    | curDir => simp at hs
    | parentDir => simp at hs
  · rintro ⟨part, hc, rfl⟩
    exact ⟨.normal part, hc, by simp [sanitizeFilename_ne_empty]⟩

/-- The names of a sanitized path. -/
lemma segments_sanitizeRelativePath (value : String) :
    segments (sanitizeRelativePath value) =
      if sanitizedParts value = [] then ["file"] else sanitizedParts value := by
  unfold sanitizeRelativePath
  dsimp only
  split
  · exact segments_eq_singleton (by decide)
  · refine segments_intercalate ‹_› fun s hs => ?_
    obtain ⟨part, -, rfl⟩ := mem_sanitizedParts.mp hs
    exact (separator_notMem_sanitizeFilename part).1

/-- A sanitized path is relative. -/
lemma not_isAbsolute_sanitizeRelativePath (value : String) :
    ¬ IsAbsolute (sanitizeRelativePath value) := by
  unfold sanitizeRelativePath
  dsimp only
  split
  · decide
  · rename_i hne
    obtain ⟨s, ss, hs⟩ := List.exists_cons_of_ne_nil hne
    obtain ⟨part, -, rfl⟩ := mem_sanitizedParts.mp (hs ▸ List.mem_cons_self)
    obtain ⟨c, cs, hc⟩ := List.exists_cons_of_ne_nil
      (show (sanitizeFilename part).toList ≠ [] by simpa using sanitizeFilename_ne_empty part)
    have hslash : c ≠ '/' := by
      rintro rfl
      exact (separator_notMem_sanitizeFilename part).1 (by simp [hc])
    rw [IsAbsolute, hs, String.toList_intercalate, List.map_cons, hc]
    cases ss <;> simp [hslash]

/-- A name of a path is sanitized to a dot name exactly when it hides one. -/
lemma sanitizeFilename_dot_iff {value part : String} (h : .normal part ∈ components value) :
    (sanitizeFilename part = "." ∨ sanitizeFilename part = "..") ↔ HidesDots part := by
  have hslash : '/' ∉ part.toList :=
    slash_notMem_of_mem_segments (normal_mem_components.mp h).1
  have hfilter : part.toList.filter (fun ch => ch != '\x00' && ch != '/' && ch != '\\') =
      part.toList.filter fun ch => ch != '\x00' && ch != '\\' := by
    refine List.filter_congr fun c hc => ?_
    have hne : c ≠ '/' := fun e => hslash (e ▸ hc)
    rw [bne_iff_ne.mpr hne, Bool.and_true]
  unfold sanitizeFilename HidesDots
  rw [hfilter]
  generalize part.toList.filter _ = l
  have hdot : ∀ cs : List Char, String.ofList l = String.ofList cs ↔ l = cs :=
    fun cs => String.ofList_inj
  by_cases hl : l = []
  · subst hl
    decide
  · rw [if_neg (by simpa using hl)]
    exact or_congr (hdot ['.']) (hdot ['.', '.'])

/-! ## Containment -/

/-- What the path of an object is made of, whatever the request contains. -/
lemma components_objectPath (storage : LocalStorage) (objectKey relativePath : String) :
    components (storage.objectPath objectKey relativePath) =
      components storage.root ++ .normal (sanitizeObjectKey objectKey) ::
        (segments (sanitizeRelativePath relativePath)).filterMap Component.ofSegment? := by
  have hkey := safeSegment_sanitizeObjectKey objectKey
  have hsegs : segments (sanitizeObjectKey objectKey) = [sanitizeObjectKey objectKey] :=
    segments_eq_singleton hkey.slash
  have hone : [sanitizeObjectKey objectKey].filterMap Component.ofSegment? =
      [.normal (sanitizeObjectKey objectKey)] := by
    simp [hkey.ofSegment?]
  have hrel : ¬ IsAbsolute (sanitizeObjectKey objectKey) :=
    fun h => hkey.slash (List.mem_of_mem_head? h)
  have hdir : components (storage.objectDir objectKey) =
      components storage.root ++ [.normal (sanitizeObjectKey objectKey)] := by
    unfold LocalStorage.objectDir
    by_cases hroot : storage.root = ""
    · have hempty : components "" = [] := by
        simp [components, leading, IsAbsolute, Component.ofSegment?,
          segments_eq_singleton (s := "") (by simp)]
      have hlead : leading (sanitizeObjectKey objectKey) = [] := by
        simp [leading, hrel, hsegs, hkey.ne_dot]
      rw [hroot, components_join_empty, hempty, components, hlead, hsegs, hone]
    · rw [components_join hroot hrel, hsegs, hone]
  have hne : storage.objectDir objectKey ≠ "" := by
    intro h
    have := congrArg List.length hdir
    simp [h, components, leading, IsAbsolute, Component.ofSegment?,
      segments_eq_singleton (s := "") (by simp)] at this
  rw [LocalStorage.objectPath,
    components_join hne (not_isAbsolute_sanitizeRelativePath relativePath), hdir,
    List.append_assoc, List.singleton_append]

/-- A name that hides a dot name is put out as the dot name. -/
lemma not_hidesDots_of_contained {storage : LocalStorage} {objectKey relativePath part : String}
    (h : Contained storage objectKey relativePath) (hpart : .normal part ∈ components relativePath) :
    ¬ HidesDots part := by
  intro hdots
  have hmem : sanitizeFilename part ∈ sanitizedParts relativePath :=
    mem_sanitizedParts.mpr ⟨part, hpart, rfl⟩
  have hsafe := h.names (sanitizeFilename part) (by
    rw [segments_sanitizeRelativePath, if_neg (List.ne_nil_of_mem hmem)]
    exact hmem)
  rcases (sanitizeFilename_dot_iff hpart).mpr hdots with hd | hd
  · exact hsafe.ne_dot hd
  · exact hsafe.ne_dotdot hd

/-- **Which paths stay inside.** The path of an object is contained in its directory exactly when
no name of the relative path hides a dot name. -/
theorem objectPath_contained_iff (storage : LocalStorage) (objectKey relativePath : String) :
    Contained storage objectKey relativePath ↔
      ∀ part, .normal part ∈ components relativePath → ¬ HidesDots part := by
  refine ⟨fun h part hpart => not_hidesDots_of_contained h hpart, fun h => ?_⟩
  have hnames : ∀ s ∈ segments (sanitizeRelativePath relativePath), SafeSegment s := by
    intro s hs
    rw [segments_sanitizeRelativePath] at hs
    split at hs
    · obtain rfl := List.mem_singleton.mp hs
      exact ⟨by decide, by decide, by decide, by decide, by decide⟩
    · obtain ⟨part, hpart, rfl⟩ := mem_sanitizedParts.mp hs
      have hdots := mt (sanitizeFilename_dot_iff hpart).mp (h part hpart)
      rw [not_or] at hdots
      exact ⟨sanitizeFilename_ne_empty part, hdots.1, hdots.2,
        (separator_notMem_sanitizeFilename part).1, (separator_notMem_sanitizeFilename part).2⟩
  refine ⟨⟨sanitizeObjectKey objectKey, segments (sanitizeRelativePath relativePath),
    segments_ne_nil _, ?_⟩, safeSegment_sanitizeObjectKey objectKey, hnames⟩
  rw [components_objectPath, filterMap_ofSegment?_of_safe hnames]

/-- Two components of a backslash and two dots lead out of the object's directory and of the
storage root. -/
theorem objectPath_escapes :
    components (LocalStorage.objectPath ⟨"/srv/assets"⟩ "group-safe" "\\../\\../passwd") =
        [.rootDir, .normal "srv", .normal "assets", .normal "group-safe", .parentDir, .parentDir,
          .normal "passwd"] ∧
      ¬ Contained ⟨"/srv/assets"⟩ "group-safe" "\\../\\../passwd" := by
  refine ⟨by decide +kernel, fun h => ?_⟩
  have hpart : .normal "\\.." ∈ components "\\../\\../passwd" := by decide +kernel
  have hdots : HidesDots "\\.." := .inr (by decide +kernel)
  exact not_hidesDots_of_contained h hpart hdots

end Storage
