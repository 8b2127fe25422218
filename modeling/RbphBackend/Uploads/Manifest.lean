import RbphBackend.Encoding.Framing
import RbphBackend.Games.Settings
import RbphBackend.Storage.Objects

set_option relaxedAutoImplicit false
set_option autoImplicit false

/-!
# Upload manifests

A browser that uploads the files of a group names them first. The names, sizes and types are checked
before a session is created. When the files have been uploaded, the digest of the group is taken of
their paths, sizes and digests.

## Main definitions

* `Uploads.validateManifest`, `Uploads.validFileSpec`, `Uploads.manifestBytes` —
  `api/admin/asset_upload.rs`.
* `Uploads.Listable` — a stored file as the manifest digest takes it.

## Main results

* `Uploads.validateManifest_ok` — the files of an accepted manifest are stored at their own paths.
* `Uploads.manifestBytes_eq_iff` — what the digest of a group is taken of tells its files, but not
  their order.
-/

namespace Uploads

open Encoding Paths Storage

/-! ## Requests -/

inductive UploadPurpose where
  | asset
  | theme
  deriving DecidableEq

inductive UploadMode where
  | file
  | group
  deriving DecidableEq

structure FileSpec where
  relativePath : String
  size : UInt64
  mimeType : String
  deriving DecidableEq

/-- The fields of a request that its validation reads. -/
structure CreateRequest where
  requestId : String
  purpose : UploadPurpose
  mode : UploadMode
  puzzleId : Option ℤ
  roundId : Option ℤ
  originalName : String
  sourceSha256 : String
  sourceSize : UInt64
  files : List FileSpec

structure UploadConfig where
  direct : Bool := false
  maxFileBytes : UInt64 := 1024 * 1024 * 1024
  maxGroupBytes : UInt64 := 5 * 1024 * 1024 * 1024
  maxFiles : ℕ := 2000

def UploadConfig.validate (self : UploadConfig) : Except String Unit :=
  if self.maxFileBytes = 0 ∨ 80000 * 1024 * 1024 < self.maxFileBytes ∨
      self.maxGroupBytes < self.maxFileBytes ∨ 9223372036854775807 < self.maxGroupBytes ∨
      self.maxFiles = 0 ∨ 2000 < self.maxFiles then
    .error "invalid upload limits"
  else .ok ()

/-- A lower-case hexadecimal digit. -/
def IsHex (b : UInt8) : Prop := (48 ≤ b ∧ b ≤ 57) ∨ (97 ≤ b ∧ b ≤ 102)

instance : DecidablePred IsHex := fun _ => inferInstanceAs (Decidable (_ ∨ _))

def isSha256 (s : String) : Prop := s.utf8ByteSize = 64 ∧ ∀ b ∈ utf8 s, IsHex b

instance : DecidablePred isSha256 := fun _ => inferInstanceAs (Decidable (_ ∧ _))

/-- One digit, again and again. -/
lemma isSha256_replicate {c : Char} {b : UInt8} (hc : String.utf8EncodeChar c = [b]) (hb : IsHex b) :
    isSha256 (String.ofList (List.replicate 64 c)) := by
  have hbytes : utf8 (String.ofList (List.replicate 64 c)) = List.replicate 64 b := by
    rw [utf8_eq, String.toList_ofList, List.flatMap_replicate, hc, List.flatten_replicate_singleton]
  refine ⟨?_, fun b' hb' => ?_⟩
  · rw [← length_utf8, hbytes, List.length_replicate]
  · rw [hbytes] at hb'
    rwa [List.eq_of_mem_replicate hb']

section Validation

variable (uuid headerValue : String → Bool)

/-- One file, when the paths before it are given. `headerValue` says what may be the value of a
header of a response. -/
def validFileSpec (f : FileSpec) (limits : UploadConfig) (paths : List String) : Bool :=
  f.relativePath ≠ "" && f.relativePath.length ≤ 1024 &&
    sanitizeRelativePath f.relativePath = f.relativePath &&
    !(segments f.relativePath).any (fun part => part = "" || part = "." || part = "..") &&
    !f.relativePath.toList.contains '\\' && f.size ≤ limits.maxFileBytes &&
    f.mimeType.utf8ByteSize ≤ 120 && headerValue f.mimeType && f.mimeType.toList.contains '/' &&
    f.relativePath ∉ paths

def checkedAdd (a b : UInt64) : Option UInt64 :=
  if a.toNat + b.toNat < 2 ^ 64 then some (a + b) else none

/-- One file of the loop, with the paths and the size so far. -/
def addFile (limits : UploadConfig) (acc : List String × UInt64) (f : FileSpec) :
    Except String (List String × UInt64) :=
  if validFileSpec headerValue f limits acc.1 then
    match checkedAdd acc.2 f.size with
    | none => .error "upload too large"
    | some size =>
      if limits.maxGroupBytes < size then .error "upload exceeds group limit"
      else .ok (acc.1 ++ [f.relativePath], size)
  else .error "invalid or duplicate file path, size or MIME type"

/-- What stands before each separator of a path. -/
def beforeSlashes : List Char → List (List Char)
  | [] => []
  | c :: cs => (if c = '/' then [[]] else []) ++ (beforeSlashes cs).map (c :: ·)

/-- `validate_manifest`; `uuid` says what can be read as a UUID. -/
def validateManifest (r : CreateRequest) (l : UploadConfig) : Except String Unit :=
  if (r.mode = .file ∧ (r.files.length ≠ 1 ∨ l.maxFileBytes < r.sourceSize)) ∨
      (r.purpose = .theme ∧ r.mode ≠ .group) ∨ 64 < r.requestId.utf8ByteSize ∨
      uuid r.requestId = false ∨ ¬ isSha256 r.sourceSha256 ∨ Games.trim r.originalName = "" ∨
      255 < r.originalName.length ∨ r.files = [] ∨ l.maxFiles < r.files.length ∨
      l.maxGroupBytes < r.sourceSize ∨ (r.puzzleId.isSome ∧ r.roundId.isSome) ∨
      (r.purpose = .theme ∧ (r.puzzleId.isSome ∨ r.roundId.isSome)) then
    .error "invalid upload manifest"
  else do
    let (paths, _) ← r.files.foldlM (addFile headerValue l) ([], 0)
    if paths.any fun path => (beforeSlashes path.toList).any fun above =>
        paths.contains (String.ofList above) then
      .error "file and directory paths conflict"
    else .ok ()

end Validation

/-! ## What is accepted -/

/-- The files of a manifest: no path is another one or a directory on it, each is left as it is by
the sanitizer, and the sizes are within the limits. -/
structure Accepted (l : UploadConfig) (files : List FileSpec) : Prop where
  distinct : (files.map FileSpec.relativePath).Nodup
  noDirectory : ∀ f ∈ files, ∀ g ∈ files,
    ¬ (f.relativePath ++ "/").toList <+: g.relativePath.toList
  sanitized : ∀ f ∈ files, sanitizeRelativePath f.relativePath = f.relativePath
  safe : ∀ f ∈ files, ∀ s ∈ segments f.relativePath, SafeSegment s
  size : ∀ f ∈ files, f.size ≤ l.maxFileBytes
  total : (files.map fun f => f.size.toNat).sum ≤ l.maxGroupBytes.toNat

/-- Stored under an object key, the files are at their own paths below it, and nothing else is
made; `uploads` are the files with what is in them. -/
structure StoredAtPaths (objectKey : String) (files : List FileSpec) : Prop where
  contained : ∀ (storage : LocalStorage), ∀ f ∈ files, Contained storage objectKey f.relativePath
  tree : ∀ uploads : List AssetUploadFile,
    uploads.map AssetUploadFile.relativePath = files.map FileSpec.relativePath →
    ∃ t, groupTree uploads = some t ∧
      t.Holds (uploads.map fun file => (segments file.relativePath, file.bytes))
  objects : (files.map fun f => cosObjectPath objectKey f.relativePath).Nodup
  below : ∀ f ∈ files,
    (cosGroupPath objectKey ++ "/").toList <+: (cosObjectPath objectKey f.relativePath).toList

section Accepted

variable {uuid headerValue : String → Bool} {l : UploadConfig} {r : CreateRequest}
  {files : List FileSpec} {f : FileSpec} {paths : List String}

/-- What is known of a file that has passed. -/
lemma validFileSpec_spec (h : validFileSpec headerValue f l paths = true) :
    sanitizeRelativePath f.relativePath = f.relativePath ∧
      (∀ s ∈ segments f.relativePath, SafeSegment s) ∧ f.size ≤ l.maxFileBytes ∧
      f.relativePath ∉ paths := by
  simp only [validFileSpec, Bool.and_eq_true, decide_eq_true_eq, Bool.not_eq_true',
    List.any_eq_false, Bool.or_eq_true, not_or] at h
  obtain ⟨⟨⟨⟨⟨⟨⟨-, hsanitized⟩, hparts⟩, -⟩, hsize⟩, -⟩, -⟩, -⟩ := h.1
  refine ⟨hsanitized, fun s hs => ?_, hsize, h.2⟩
  obtain ⟨⟨hempty, hdot⟩, hdots⟩ := hparts s hs
  -- the sanitizer has left no separator of any system in a name
  have hsegs := segments_sanitizeRelativePath f.relativePath
  rw [hsanitized] at hsegs
  have hname : '\\' ∉ s.toList := by
    rw [hsegs] at hs
    split_ifs at hs
    · rw [List.mem_singleton.mp hs]
      decide
    · obtain ⟨part, -, rfl⟩ := mem_sanitizedParts.mp hs
      exact (separator_notMem_sanitizeFilename part).2
  exact ⟨hempty, hdot, hdots, slash_notMem_of_mem_segments hs, hname⟩

lemma checkedAdd_eq_some {a b c : UInt64} (h : checkedAdd a b = some c) :
    c.toNat = a.toNat + b.toNat := by
  rw [checkedAdd] at h
  split_ifs at h with hlt
  cases h
  rw [UInt64.toNat_add, Nat.mod_eq_of_lt hlt]

/-- What the loop knows of the files it has seen. -/
structure Checked (l : UploadConfig) (files : List FileSpec) (acc : List String × UInt64) :
    Prop where
  paths : acc.1 = files.map FileSpec.relativePath
  distinct : (files.map FileSpec.relativePath).Nodup
  sanitized : ∀ f ∈ files, sanitizeRelativePath f.relativePath = f.relativePath
  safe : ∀ f ∈ files, ∀ s ∈ segments f.relativePath, SafeSegment s
  size : ∀ f ∈ files, f.size ≤ l.maxFileBytes
  total : acc.2.toNat = (files.map fun f => f.size.toNat).sum
  le : acc.2 ≤ l.maxGroupBytes

lemma checked_nil : Checked l [] ([], 0) where
  paths := rfl
  distinct := List.nodup_nil
  sanitized := by simp
  safe := by simp
  size := by simp
  total := rfl
  le := UInt64.le_iff_toNat_le.mpr (Nat.zero_le _)

/-- One turn of the loop. -/
lemma Checked.addFile {acc acc' : List String × UInt64} (h : Checked l files acc)
    (hadd : addFile headerValue l acc f = .ok acc') : Checked l (files ++ [f]) acc' := by
  rw [Uploads.addFile] at hadd
  split_ifs at hadd with hvalid
  obtain ⟨hsanitized, hsafe, hsize, hnew⟩ := validFileSpec_spec hvalid
  split at hadd
  · cases hadd
  rename_i total hsum
  split_ifs at hadd with hlimit
  cases hadd
  rw [h.paths] at hnew
  have hmem : ∀ g ∈ files ++ [f], g ∈ files ∨ g = f := fun g hg => by
    rwa [List.mem_append, List.mem_singleton] at hg
  refine ⟨?_, ?_, fun g hg => ?_, fun g hg => ?_, fun g hg => ?_, ?_, ?_⟩
  · rw [h.paths, List.map_append]
    rfl
  · rw [List.map_append]
    exact List.nodup_append.mpr ⟨h.distinct, List.nodup_singleton _, fun p hp q hq heq =>
      hnew (List.mem_singleton.mp hq ▸ heq ▸ hp)⟩
  · obtain hg | rfl := hmem g hg
    · exact h.sanitized g hg
    · exact hsanitized
  · obtain hg | rfl := hmem g hg
    · exact h.safe g hg
    · exact hsafe
  · obtain hg | rfl := hmem g hg
    · exact h.size g hg
    · exact hsize
  · rw [checkedAdd_eq_some hsum, h.total, List.map_append, List.sum_append]
    simp
  · exact UInt64.not_lt.mp hlimit

lemma Checked.addFiles {rest : List FileSpec} {acc acc' : List String × UInt64}
    (h : Checked l files acc) (hadd : rest.foldlM (Uploads.addFile headerValue l) acc = .ok acc') :
    Checked l (files ++ rest) acc' := by
  induction rest generalizing files acc with
  | nil =>
    cases hadd
    rwa [List.append_nil]
  | cons f rest ih =>
    rw [List.foldlM_cons] at hadd
    cases hone : Uploads.addFile headerValue l acc f with
    | error e =>
      rw [hone] at hadd
      cases hadd
    | ok acc₁ =>
      rw [hone] at hadd
      have hall := ih (h.addFile hone) hadd
      rwa [List.append_assoc, List.singleton_append] at hall

/-- What stands before the separators of a path are its directories. -/
lemma mem_beforeSlashes {p path : List Char} :
    p ∈ beforeSlashes path ↔ p ++ ['/'] <+: path := by
  induction path generalizing p with
  | nil => simp [beforeSlashes]
  | cons c cs ih =>
    rw [beforeSlashes, List.mem_append, List.mem_map]
    cases p with
    | nil => by_cases hc : c = '/' <;> simp [hc, eq_comm]
    | cons d p =>
      have hnil : d :: p ∉ (if c = '/' then [[]] else []) := by split_ifs <;> simp
      simp only [hnil, false_or, List.cons.injEq, List.cons_append, List.cons_prefix_cons, ← ih]
      exact ⟨fun ⟨q, hq, hc, hqp⟩ => ⟨hc.symm, hqp ▸ hq⟩, fun ⟨hc, hp⟩ => ⟨p, hp, hc.symm, rfl⟩⟩

lemma accepted_of_ok (h : validateManifest uuid headerValue r l = .ok ()) : Accepted l r.files := by
  rw [validateManifest] at h
  split_ifs at h
  cases hloop : r.files.foldlM (addFile headerValue l) ([], 0) with
  | error e =>
    rw [hloop] at h
    cases h
  | ok acc =>
    rw [hloop] at h
    have hchecked : Checked l r.files acc := checked_nil.addFiles hloop
    change (if _ then _ else _) = _ at h
    split_ifs at h with hconflict
    refine ⟨hchecked.distinct, fun f hf g hg hpre => hconflict ?_, hchecked.sanitized,
      hchecked.safe, hchecked.size, ?_⟩
    · have hmem : ∀ f ∈ r.files, f.relativePath ∈ acc.1 := fun f hf =>
        hchecked.paths ▸ List.mem_map_of_mem hf
      refine List.any_eq_true.mpr ⟨g.relativePath, hmem g hg, List.any_eq_true.mpr
        ⟨f.relativePath.toList, mem_beforeSlashes.mpr ?_, ?_⟩⟩
      · rwa [String.toList_append] at hpre
      · rw [String.ofList_toList]
        exact List.contains_iff_mem.mpr (hmem f hf)
    · rw [← hchecked.total]
      exact UInt64.le_iff_toNat_le.mp hchecked.le

/-- The paths of an accepted manifest are clear of each other. -/
lemma Accepted.clear (h : Accepted l files) :
    (files.map FileSpec.relativePath).Pairwise fun p q => Clear (segments p) (segments q) := by
  have hclear : ∀ p ∈ files.map FileSpec.relativePath, ∀ q ∈ files.map FileSpec.relativePath,
      p ≠ q → ¬ segments p <+: segments q := by
    intro p hp q hq hne hpre
    obtain ⟨f, hf, rfl⟩ := List.mem_map.mp hp
    obtain ⟨g, hg, rfl⟩ := List.mem_map.mp hq
    exact h.noDirectory f hf g hg ((eq_or_prefix_of_segments hpre).resolve_left hne)
  exact h.distinct.imp_of_mem fun hp hq hne =>
    ⟨hclear _ hp _ hq hne, hclear _ hq _ hp (Ne.symm hne)⟩

/-- Files with distinct sanitized paths keep them. -/
lemma Accepted.groupPaths_eq (h : Accepted l files) {uploads : List AssetUploadFile}
    (huploads : uploads.map AssetUploadFile.relativePath = files.map FileSpec.relativePath) :
    groupPaths uploads = uploads.map AssetUploadFile.relativePath := by
  have hrequested : requestedPaths uploads = uploads.map AssetUploadFile.relativePath := by
    refine List.map_congr_left fun file hfile => ?_
    have hmem : file.relativePath ∈ files.map FileSpec.relativePath :=
      huploads ▸ List.mem_map_of_mem hfile
    obtain ⟨f, hf, hpath⟩ := List.mem_map.mp hmem
    rw [← hpath, h.sanitized f hf]
  rw [groupPaths, hrequested]
  exact Naming.names_eq_self copyName_injective (fun _ => rfl) (huploads ▸ h.distinct)

lemma Accepted.stored (h : Accepted l files) (objectKey : String) :
    StoredAtPaths objectKey files where
  contained storage f hf := by
    have hsafe : ∀ s ∈ segments (sanitizeRelativePath f.relativePath), SafeSegment s :=
      (h.sanitized f hf).symm ▸ h.safe f hf
    refine ⟨⟨sanitizeObjectKey objectKey, segments (sanitizeRelativePath f.relativePath),
      segments_ne_nil _, ?_⟩, safeSegment_sanitizeObjectKey objectKey, hsafe⟩
    rw [components_objectPath, filterMap_ofSegment?_of_safe hsafe]
  tree uploads huploads := by
    have hpaths := h.groupPaths_eq huploads
    have hfiles : groupFiles uploads =
        uploads.map fun file => (segments file.relativePath, file.bytes) := by
      rw [groupFiles, hpaths, List.map_map, List.zip_map']
      rfl
    rw [← hfiles]
    refine exists_groupTree ?_
    rw [hpaths, huploads]
    exact h.clear
  objects := by
    have hinj : ∀ p ∈ files.map FileSpec.relativePath, ∀ q ∈ files.map FileSpec.relativePath,
        cosObjectPath objectKey p = cosObjectPath objectKey q → p = q := by
      intro p hp q hq heq
      obtain ⟨f, hf, rfl⟩ := List.mem_map.mp hp
      obtain ⟨g, hg, rfl⟩ := List.mem_map.mp hq
      rw [← h.sanitized f hf, ← h.sanitized g hg]
      exact cosObjectPath_inj heq
    have hmap := h.distinct.map_on hinj
    rwa [List.map_map] at hmap
  below f _ := cosGroupPath_prefix objectKey f.relativePath

/-- **The files of an accepted manifest** are stored at their own paths under any object key, and
nothing outside it is made. -/
theorem validateManifest_ok (h : validateManifest uuid headerValue r l = .ok ())
    (objectKey : String) : Accepted l r.files ∧ StoredAtPaths objectKey r.files :=
  ⟨accepted_of_ok h, (accepted_of_ok h).stored objectKey⟩

/-- Two files, one of them in a directory. -/
theorem validateManifest_ok_two :
    let r : CreateRequest :=
      { requestId := "67e55044-10b1-426f-9247-bb680e5fe0c8"
        purpose := .asset
        mode := .group
        puzzleId := none
        roundId := none
        originalName := "x.zip"
        sourceSha256 := String.ofList (List.replicate 64 'a')
        sourceSize := 1
        files := [⟨"foo/a.txt", 1, "text/plain"⟩, ⟨"foo.txt", 2, "text/plain"⟩] }
    Accepted {} r.files ∧ StoredAtPaths "group-1" r.files := by
  intro r
  have hsha : isSha256 r.sourceSha256 := isSha256_replicate rfl (by decide : IsHex 97)
  refine @validateManifest_ok (fun s => s = "67e55044-10b1-426f-9247-bb680e5fe0c8")
    (fun s => s.toList.all fun c => 32 ≤ c.toNat && c.toNat < 127) _ _ ?_ "group-1"
  rw [validateManifest, if_neg]
  · decide +kernel
  · simp only [hsha]
    decide +kernel

end Accepted

/-! ## The digest of a group -/

def digit (v : UInt8) : UInt8 := if v ≤ 57 then v - 48 else v - 97 + 10

/-- The bytes of pairs of digits; a digit without a partner is dropped. -/
def hexPairs : Bytes → Bytes
  | hi :: lo :: rest => (digit hi * 16 + digit lo) :: hexPairs rest
  | _ => []

/-- What is hashed of a file. -/
def manifestFrame (f : StoredAssetFile) : Bytes :=
  toLeBytes f.relativePath.utf8ByteSize ++ utf8 f.relativePath ++ toLeBytes f.size ++
    hexPairs (utf8 f.sha256)

/-- The order of the bytes of the paths. -/
def pathLE (a b : StoredAssetFile) : Bool := utf8 a.relativePath ≤ utf8 b.relativePath

/-- What `manifest_digest` hashes. -/
def manifestBytes (files : List StoredAssetFile) : Bytes :=
  utf8 "rbph:manifest-v1\x00" ++ (files.mergeSort pathLE).flatMap manifestFrame

def manifestDigest (digest : Bytes → String) (files : List StoredAssetFile) : String :=
  digest (manifestBytes files)

/-- A stored file whose length and size fit into 64 bits and whose digest is well formed. -/
structure Listable (f : StoredAssetFile) : Prop where
  length : f.relativePath.utf8ByteSize < 2 ^ 64
  size : f.size < 2 ^ 64
  sha256 : isSha256 f.sha256

/-- What the digest of a group says of a file. -/
def entry (f : StoredAssetFile) : String × ℕ × String := (f.relativePath, f.size, f.sha256)

section Digits

lemma digit_toNat {v : UInt8} (h : IsHex v) :
    (digit v).toNat = if v.toNat ≤ 57 then v.toNat - 48 else v.toNat - 87 := by
  have hle : v ≤ 57 ↔ v.toNat ≤ 57 := UInt8.le_iff_toNat_le
  obtain ⟨hlow, hhigh⟩ | ⟨hlow, hhigh⟩ := h
  · rw [digit, if_pos hhigh, if_pos (hle.mp hhigh), UInt8.toNat_sub_of_le _ _ hlow]
    rfl
  · have hlow' : 97 ≤ v.toNat := UInt8.le_iff_toNat_le.mp hlow
    have hhigh' : v.toNat ≤ 102 := UInt8.le_iff_toNat_le.mp hhigh
    have hnot : ¬ v.toNat ≤ 57 := by omega
    rw [digit, if_neg (mt hle.mp hnot), if_neg hnot, UInt8.toNat_add, UInt8.toNat_sub_of_le _ _ hlow]
    simp only [UInt8.reduceToNat]
    omega

lemma digit_lt {v : UInt8} (h : IsHex v) : (digit v).toNat < 16 := by
  rw [digit_toNat h]
  obtain ⟨-, hhigh⟩ | ⟨hlow, hhigh⟩ := h
  · have := UInt8.le_iff_toNat_le.mp hhigh
    simp only [UInt8.reduceToNat] at this
    split_ifs
    omega
  · have := UInt8.le_iff_toNat_le.mp hhigh
    simp only [UInt8.reduceToNat] at this
    split_ifs <;> omega

lemma digit_inj {v w : UInt8} (hv : IsHex v) (hw : IsHex w) (h : digit v = digit w) : v = w := by
  have hnat := congrArg UInt8.toNat h
  rw [digit_toNat hv, digit_toNat hw] at hnat
  rw [← UInt8.toNat_inj]
  simp only [IsHex, UInt8.le_iff_toNat_le, UInt8.reduceToNat] at hv hw
  split_ifs at hnat <;> omega

/-- A byte tells the two digits it is made of. -/
lemma digit_pair_inj {hi lo hi' lo' : UInt8} (hhi : IsHex hi) (hlo : IsHex lo) (hhi' : IsHex hi')
    (hlo' : IsHex lo') (h : digit hi * 16 + digit lo = digit hi' * 16 + digit lo') :
    hi = hi' ∧ lo = lo' := by
  have hnat := congrArg UInt8.toNat h
  have h₁ := digit_lt hhi
  have h₂ := digit_lt hlo
  have h₃ := digit_lt hhi'
  have h₄ := digit_lt hlo'
  simp only [UInt8.toNat_add, UInt8.toNat_mul, UInt8.reduceToNat] at hnat
  refine ⟨digit_inj hhi hhi' ?_, digit_inj hlo hlo' ?_⟩
  · rw [← UInt8.toNat_inj]
    omega
  · rw [← UInt8.toNat_inj]
    omega

lemma hexPairs_inj : ∀ {s t : Bytes}, (∀ b ∈ s, IsHex b) → (∀ b ∈ t, IsHex b) → 2 ∣ s.length →
    s.length = t.length → hexPairs s = hexPairs t → s = t
  | [], t, _, _, _, hlen, _ => (List.length_eq_zero_iff.mp hlen.symm).symm
  | [_], _, _, _, heven, _, _ => absurd heven (by simp)
  | _ :: _ :: _, [], _, _, _, hlen, _ => absurd hlen (by simp)
  | _ :: _ :: _, [_], _, _, _, hlen, _ => absurd hlen (by simp)
  | hi :: lo :: s, hi' :: lo' :: t, hs, ht, heven, hlen, heq => by
    rw [hexPairs, hexPairs, List.cons.injEq] at heq
    obtain ⟨hhi, hlo⟩ := digit_pair_inj (hs hi (by simp)) (hs lo (by simp)) (ht hi' (by simp))
      (ht lo' (by simp)) heq.1
    have htail : s = t := by
      refine hexPairs_inj (fun b hb => hs b (by simp [hb])) (fun b hb => ht b (by simp [hb])) ?_ ?_
        heq.2
      · simp only [List.length_cons] at heven
        omega
      · simpa using hlen
    rw [hhi, hlo, htail]

lemma length_hexPairs : ∀ s : Bytes, (hexPairs s).length = s.length / 2
  | [] => rfl
  | [_] => by simp [hexPairs]
  | _ :: _ :: s => by
    rw [hexPairs, List.length_cons, length_hexPairs s]
    simp only [List.length_cons]
    omega

lemma isSha256.inj {s t : String} (hs : isSha256 s) (ht : isSha256 t)
    (h : hexPairs (utf8 s) = hexPairs (utf8 t)) : s = t := by
  have hslen : (utf8 s).length = 64 := by rw [length_utf8, hs.1]
  have htlen : (utf8 t).length = 64 := by rw [length_utf8, ht.1]
  exact utf8_inj.mp (hexPairs_inj hs.2 ht.2 (by rw [hslen]; decide) (by rw [hslen, htlen]) h)

end Digits

section Digest

variable {files files' : List StoredAssetFile}

/-- **What is hashed of a file tells the file**, and where the next one begins. -/
theorem tells_manifestFrame : Tells {f | Listable f} manifestFrame entry := by
  have hlen : Tells {f | Listable f} (fun f => toLeBytes f.relativePath.utf8ByteSize)
      fun f => f.relativePath.utf8ByteSize :=
    tells_of_length (fun f _ => length_toLeBytes _) fun f hf g hg => toLeBytes_inj hf.length hg.length
  have hpath : ∀ n, Tells {f | f ∈ {f | Listable f} ∧ f.relativePath.utf8ByteSize = n}
      (fun f => utf8 f.relativePath) StoredAssetFile.relativePath := fun n =>
    tells_of_length (fun f hf => (length_utf8 _).trans hf.2) fun f _ g _ => utf8_inj.mp
  have hsize : Tells {f | Listable f} (fun f => toLeBytes f.size) StoredAssetFile.size :=
    tells_of_length (fun f _ => length_toLeBytes _) fun f hf g hg => toLeBytes_inj hf.size hg.size
  have hsha : Tells {f | Listable f} (fun f => hexPairs (utf8 f.sha256)) StoredAssetFile.sha256 :=
    tells_of_length (n := 32) (fun f hf => by rw [length_hexPairs, length_utf8, hf.sha256.1])
      fun f hf g hg => hf.sha256.inj hg.sha256
  exact (((hlen.append hpath).append_of_tells hsize).append_of_tells hsha).comp
    (f := fun key => (key.1.1.2, key.1.2, key.2))

lemma manifestFrame_ne_nil (f : StoredAssetFile) : manifestFrame f ≠ [] := by
  intro h
  have hlen := congrArg List.length h
  simp only [manifestFrame, List.length_append, length_toLeBytes, List.length_nil] at hlen
  omega

lemma pairwise_pathLE (files : List StoredAssetFile) :
    (files.mergeSort pathLE).Pairwise fun a b => utf8 a.relativePath ≤ utf8 b.relativePath := by
  have hsorted : (files.mergeSort pathLE).Pairwise fun a b => pathLE a b = true :=
    List.pairwise_mergeSort (fun a b c hab hbc => by
      rw [pathLE, decide_eq_true_eq] at hab hbc ⊢
      exact List.le_trans hab hbc)
    (fun a b => by
      rw [pathLE, pathLE, Bool.or_eq_true, decide_eq_true_eq, decide_eq_true_eq]
      exact List.le_total _ _)
    files
  exact hsorted.imp fun h => of_decide_eq_true h

/-- Files with the same entries are hashed in the same order. -/
lemma map_entry_mergeSort (hfiles : (files.map StoredAssetFile.relativePath).Nodup)
    (hperm : (files.map entry).Perm (files'.map entry)) :
    (files.mergeSort pathLE).map entry = (files'.mergeSort pathLE).map entry := by
  have hsort : ((files.mergeSort pathLE).map entry).Perm ((files'.mergeSort pathLE).map entry) :=
    ((List.mergeSort_perm files pathLE).map entry).trans
      (hperm.trans ((List.mergeSort_perm files' pathLE).map entry).symm)
  have hnodup : (((files.mergeSort pathLE).map entry).map Prod.fst).Nodup := by
    rw [List.map_map]
    exact ((List.mergeSort_perm files pathLE).map _).nodup_iff.mpr hfiles
  refine @List.Perm.eq_of_pairwise _ (fun a b => utf8 a.1 ≤ utf8 b.1) _ _ ?_
    (List.pairwise_map.mpr (pairwise_pathLE files)) (List.pairwise_map.mpr (pairwise_pathLE files'))
    hsort
  -- two entries with one path are one entry
  intro a b ha hb hab hba
  exact List.inj_on_of_nodup_map hnodup ha (hsort.mem_iff.mpr hb)
    (utf8_inj.mp (List.le_antisymm hab hba))

/-- **What the digest of a group is taken of** is the same for two lists of files exactly when they
are the same files with the same sizes and digests, in any order. -/
theorem manifestBytes_eq_iff (hfiles : ∀ f ∈ files, Listable f) (hfiles' : ∀ f ∈ files', Listable f)
    (hpaths : (files.map StoredAssetFile.relativePath).Nodup) :
    manifestBytes files = manifestBytes files' ↔ (files.map entry).Perm (files'.map entry) := by
  rw [manifestBytes, manifestBytes, List.append_right_inj]
  constructor
  · intro h
    have hsorted := tells_manifestFrame.eq_of_flatMap_eq (fun f _ => manifestFrame_ne_nil f)
      (fun f hf => hfiles f (List.mem_mergeSort.mp hf))
      (fun f hf => hfiles' f (List.mem_mergeSort.mp hf)) h
    exact ((List.mergeSort_perm files pathLE).map entry).symm.trans
      (hsorted ▸ (List.mergeSort_perm files' pathLE).map entry)
  · intro hperm
    have hframes : ∀ l : List StoredAssetFile, l.flatMap manifestFrame = (l.map entry).flatMap
        fun e => toLeBytes e.1.utf8ByteSize ++ utf8 e.1 ++ toLeBytes e.2.1 ++
          hexPairs (utf8 e.2.2) := by
      intro l
      rw [List.flatMap_map]
      rfl
    rw [hframes, hframes, map_entry_mergeSort hpaths hperm]

/-- Two files in either order. -/
theorem manifestBytes_swap :
    let sha256 := String.ofList (List.replicate 64 'a')
    let a : StoredAssetFile := ⟨"a", 1, sha256, "text/plain", "a"⟩
    let b : StoredAssetFile := ⟨"b", 1, sha256, "text/plain", "b"⟩
    manifestBytes [b, a] = manifestBytes [a, b] := by
  intro sha256 a b
  have hsha : isSha256 sha256 := isSha256_replicate rfl (by decide : IsHex 97)
  have ha : Listable a := ⟨by decide, by decide, hsha⟩
  have hb : Listable b := ⟨by decide, by decide, hsha⟩
  have hba : ∀ f ∈ [b, a], Listable f := by simp [ha, hb]
  have hab : ∀ f ∈ [a, b], Listable f := by simp [ha, hb]
  exact (manifestBytes_eq_iff hba hab (by simp [a, b])).mpr ((List.Perm.swap a b []).map entry)

end Digest

end Uploads
