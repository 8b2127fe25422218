import RbphBackend.Frontend.Manifest

set_option relaxedAutoImplicit false
set_option autoImplicit false

/-!
# Uploading a theme

An archive is unpacked, checked and stored. The check reads the first file at a path; the store
gives every file a path of its own, in the order of the archive. A file that has been given a number
takes a path that a later file may have been checked under.

## Main definitions

* `Frontend.Archive.uploadPackage` — the request.
* `Frontend.Archive.TakenBy`, `Frontend.Archive.Undisturbed` — who gets a path, said of the archive.

## Main results

* `Frontend.Archive.stored_as_read_iff` — what is stored is what was checked just if no path that is
  referred to is taken by an earlier file.
* `Frontend.Archive.stored_other_icons` — an archive that stores other icons than were checked.
-/

namespace Frontend.Archive

open Storage Naming

/-! ## The request -/

structure UploadLimits where
  maxFileBytes : ℕ
  maxGroupBytes : ℕ
  maxFiles : ℕ

/-- A storage backend; the limits are those of a remote one. -/
structure ConfiguredStorageBackend where
  id : String
  recommended : Bool
  publicRead : Bool
  limits : Option UploadLimits

def maxThemeBytes : ℕ := 64 * 1024 * 1024

def databaseMaxGroupFiles : ℕ := 1000

/-- A field of the form; a chunk is missing when it cannot be read. -/
structure Field where
  name : Option String
  fileName : Option String
  chunks : List (Option Bytes)

inductive FrontendPackageResult where
  | gameNotFound
  | archiveTooLarge
  | zipRequired
  | invalidArchive
  | emptyArchive
  | invalidManifest
  | storageFailed
  | nameConflict
  deriving DecidableEq

/-- Why an upload fails. -/
inductive UploadError where
  | refused (code : FrontendPackageResult)
  | internal (message : String)
  deriving DecidableEq

/-- An uploaded theme: its manifest, its asset group, and what is stored in it. -/
structure UploadedTheme where
  manifest : ThemeManifest
  group : StoredAssetGroup
  content : String → Option Bytes

/-- What the request depends on. The archive library, the JSON parser, the digest, the writes of a
backend and the registration of what has been stored are given. -/
structure UploadHost where
  gameExists : Bool
  availableBackends : List ConfiguredStorageBackend
  objectKey : String
  zipArchive : Bytes → Except String (List (Except String ZipFile))
  manifestFromSlice : Bytes → Option ThemeManifest
  valueFromSlice : Bytes → Option Value
  digest : Bytes → String
  put : String → String → String → Bytes → Bool
  registerUploadedTheme : StoredAssetGroup → ThemeManifest → Except UploadError Unit

/-- The bytes of a file. -/
def readChunks (maxGroup : ℕ) (bytes : Bytes) :
    List (Option Bytes) → Except FrontendPackageResult Bytes
  | [] => .ok bytes
  | none :: _ => .error .invalidArchive
  | some chunk :: rest =>
    if maxGroup < min (bytes.length + chunk.length) u64Max then .error .archiveTooLarge
    else readChunks maxGroup (bytes ++ chunk) rest

/-- The first field that is a file, with its name. -/
def readPayload (maxGroup : ℕ) (upload : Option (String × Bytes)) :
    List (Option Field) → Except FrontendPackageResult (Option (String × Bytes))
  | [] => .ok upload
  | none :: _ => .error .invalidArchive
  | some field :: rest =>
    if field.name ≠ some "file" ∨ upload.isSome then
      if field.chunks.any Option.isNone then .error .invalidArchive
      else readPayload maxGroup upload rest
    else
      match readChunks maxGroup [] field.chunks with
      | .error e => .error e
      | .ok bytes => readPayload maxGroup (some (field.fileName.getD "theme.zip", bytes)) rest

namespace UploadHost

variable (host : UploadHost)

/-- The recommended one of the backends that can be read publicly, or the first. -/
def backend : Option ConfiguredStorageBackend :=
  let backends := host.availableBackends.filter (·.publicRead)
  (backends.find? (·.recommended)).or backends.head?

/-- The value, or the failure if there is none. -/
def orFail {α : Type} (e : UploadError) : Option α → Except UploadError α
  | some a => .ok a
  | none => .error e

/-- `upload_package`, after the archive has been received. -/
def storeArchive (backend : ConfiguredStorageBackend) (limits : UploadLimits) (archive : Bytes) :
    Except UploadError UploadedTheme := do
  let entries ← orFail (.refused .invalidArchive) (host.zipArchive archive).toOption
  let files ← orFail (.refused .invalidArchive) (unpackZipFilesLimited entries
    limits.maxFileBytes limits.maxGroupBytes limits.maxFiles).toOption
  if files = [] then .error (.refused .emptyArchive) else
  let manifest ← orFail (.refused .invalidManifest)
    (validateThemeFiles host.manifestFromSlice host.valueFromSlice files)
  let (group, content) ← orFail (.refused .storageFailed)
    (storeGroupFiles host.digest (host.put backend.id host.objectKey) host.objectKey files)
  let _ ← host.registerUploadedTheme group manifest
  .ok ⟨manifest, group, content⟩

/-- `upload_package`. -/
def uploadPackage (payload : List (Option Field)) : Except UploadError UploadedTheme :=
  if !host.gameExists then .error (.refused .gameNotFound) else do
  let backend ← orFail (.internal "no public asset backend is configured") host.backend
  let limits := backend.limits.getD ⟨maxThemeBytes, maxThemeBytes, databaseMaxGroupFiles⟩
  let upload ← (readPayload limits.maxGroupBytes none payload).mapError .refused
  let (_, archive) ← orFail (.refused .zipRequired)
    (upload.filter fun (name, _) => endsWithIgnoreCase name ".zip")
  host.storeArchive backend limits archive

end UploadHost

/-! ## What an upload consists of -/

/-- The archive of a payload: the content of the first field that is a file. -/
def payloadArchive (payload : List (Option Field)) : Bytes :=
  match (payload.filterMap id).find? (·.name = some "file") with
  | some field => (field.chunks.filterMap id).flatten
  | none => []

/-- The files of the archive of a payload. -/
def UploadHost.files (host : UploadHost) (payload : List (Option Field)) : List AssetUploadFile :=
  match host.zipArchive (payloadArchive payload) with
  | .ok entries => entries.filterMap toUploadFile
  | .error _ => []

/-- A file is the first one that the store may put at a path: the path has not been claimed by the
files before it, and it is once the file has come. -/
def TakenBy (files : List AssetUploadFile) (path : String) (j : ℕ) : Prop :=
  ¬ Claimed copyName (requestedPaths files) path j ∧
    Claimed copyName (requestedPaths files) path (j + 1)

/-- No file before the one that is read at a path takes the path, unless it is the same. -/
def Undisturbed (files : List AssetUploadFile) (path : String) : Prop :=
  ∀ i j f g, files.findIdx? (·.relativePath = path) = some i → files[i]? = some f → j < i →
    files[j]? = some g → TakenBy files path j → g.bytes = f.bytes

/-! ## Reading the form -/

section Payload

variable {maxGroup : ℕ} {bytes out : Bytes} {name : String}

lemma readChunks_eq {chunks : List (Option Bytes)}
    (h : readChunks maxGroup bytes chunks = .ok out) :
    out = bytes ++ (chunks.filterMap id).flatten := by
  induction chunks generalizing bytes with
  | nil =>
    rw [readChunks] at h
    cases h
    rw [List.filterMap_nil, List.flatten_nil, List.append_nil]
  | cons chunk rest ih =>
    cases chunk with
    | none => cases h
    | some chunk =>
      rw [readChunks] at h
      split_ifs at h
      rw [ih h, List.filterMap_cons_some (id_eq _), List.flatten_cons, List.append_assoc]

/-- Once there is a file the other fields are skipped. -/
lemma readPayload_some {upload : String × Bytes} {result : Option (String × Bytes)}
    {payload : List (Option Field)} (h : readPayload maxGroup (some upload) payload = .ok result) :
    result = some upload := by
  induction payload with
  | nil =>
    rw [readPayload] at h
    cases h
    rfl
  | cons field rest ih =>
    cases field with
    | none => cases h
    | some field =>
      rw [readPayload, if_pos (.inr rfl)] at h
      split_ifs at h
      exact ih h

lemma readPayload_eq {payload : List (Option Field)}
    (h : readPayload maxGroup none payload = .ok (some (name, out))) :
    out = payloadArchive payload := by
  induction payload with
  | nil => cases h
  | cons field rest ih =>
    cases field with
    | none => cases h
    | some field =>
      rw [readPayload] at h
      by_cases hname : field.name = some "file"
      · rw [if_neg (by simp [hname])] at h
        split at h
        · cases h
        · rename_i bytes hchunks
          have hfile := readPayload_some h
          rw [Option.some.injEq, Prod.mk.injEq] at hfile
          rw [payloadArchive, List.filterMap_cons_some (id_eq _),
            List.find?_cons_of_pos (by simpa using hname), hfile.2, readChunks_eq hchunks,
            List.nil_append]
      · rw [if_pos (.inl hname)] at h
        split_ifs at h
        rw [ih h, payloadArchive, payloadArchive, List.filterMap_cons_some (id_eq _),
          List.find?_cons_of_neg (by simpa using hname)]

end Payload

/-! ## Accepted uploads -/

section Accepted

variable {host : UploadHost} {payload : List (Option Field)} {u : UploadedTheme}

lemma orFail_eq_ok {α : Type} {e : UploadError} {o : Option α} {a : α}
    (h : UploadHost.orFail e o = .ok a) : o = some a := by
  cases o with
  | none => cases h
  | some b =>
    cases h
    rfl

lemma eq_ok_of_toOption {α ε : Type} {x : Except ε α} {a : α} (h : x.toOption = some a) :
    x = .ok a := by
  cases x with
  | error e => cases h
  | ok b =>
    cases h
    rfl

/-- What is known of an upload that is accepted. -/
structure UploadHost.Accepted (host : UploadHost) (files : List AssetUploadFile)
    (u : UploadedTheme) : Prop where
  validated : validateThemeFiles host.manifestFromSlice host.valueFromSlice files = some u.manifest
  stored : ∃ put, storeGroupFiles host.digest put host.objectKey files = some (u.group, u.content)
  sanitized : ∀ f ∈ files, ∃ value, sanitizeRelativePath value = f.relativePath

lemma sanitized_toUploadFile {archive : List (Except String ZipFile)} {f : AssetUploadFile}
    (h : f ∈ archive.filterMap toUploadFile) :
    ∃ value, sanitizeRelativePath value = f.relativePath := by
  obtain ⟨entry, -, hentry⟩ := List.mem_filterMap.mp h
  cases entry with
  | error e => cases hentry
  | ok file =>
    rw [toUploadFile] at hentry
    split at hentry
    · split_ifs at hentry
      cases hentry
      exact ⟨_, rfl⟩
    · cases hentry

lemma UploadHost.accepted_of_storeArchive {backend : ConfiguredStorageBackend}
    {limits : UploadLimits}
    (h : host.storeArchive backend limits (payloadArchive payload) = .ok u) :
    host.Accepted (host.files payload) u := by
  obtain ⟨entries, hzip, h⟩ := bind_eq_ok h
  obtain ⟨files, hunpack, h⟩ := bind_eq_ok h
  split_ifs at h
  obtain ⟨manifest, hvalid, h⟩ := bind_eq_ok h
  obtain ⟨⟨group, content⟩, hstore, h⟩ := bind_eq_ok h
  obtain ⟨-, -, h⟩ := bind_eq_ok h
  cases h
  have hentries := eq_ok_of_toOption (orFail_eq_ok hzip)
  have hfiles : host.files payload = files := by
    rw [UploadHost.files, hentries]
    exact (unpackZipFilesLimited_eq (eq_ok_of_toOption (orFail_eq_ok hunpack))).symm
  refine ⟨?_, ⟨host.put backend.id host.objectKey, ?_⟩, fun f hf => ?_⟩
  · rw [hfiles]
    exact orFail_eq_ok hvalid
  · rw [hfiles]
    exact orFail_eq_ok hstore
  · rw [UploadHost.files, hentries] at hf
    exact sanitized_toUploadFile hf

lemma UploadHost.accepted_of_uploadPackage (h : host.uploadPackage payload = .ok u) :
    host.Accepted (host.files payload) u := by
  rw [UploadHost.uploadPackage] at h
  split_ifs at h
  obtain ⟨backend, -, h⟩ := bind_eq_ok h
  obtain ⟨upload, hread, h⟩ := bind_eq_ok h
  obtain ⟨⟨name, archive⟩, hzip, h⟩ := bind_eq_ok h
  have hupload : upload = some (name, archive) :=
    (Option.filter_eq_some_iff.mp (orFail_eq_ok hzip)).1
  obtain rfl : archive = payloadArchive payload := by
    cases hr : readPayload (backend.limits.getD
        ⟨maxThemeBytes, maxThemeBytes, databaseMaxGroupFiles⟩).maxGroupBytes none payload with
    | error e =>
      rw [hr] at hread
      cases hread
    | ok read =>
      rw [hr] at hread
      cases hread
      exact readPayload_eq (hupload ▸ hr)
  exact accepted_of_storeArchive h

end Accepted

/-! ## What is stored -/

section Stored

variable {files : List AssetUploadFile} {path : String} {f : AssetUploadFile}

/-- The file that takes a path is the one it is stored for. -/
lemma takenBy_iff {j : ℕ} : TakenBy files path j ↔ (groupPaths files)[j]? = some path := by
  rw [TakenBy, claimed_iff copyName_injective, claimed_iff copyName_injective, ← groupPaths,
    List.take_add_one, List.mem_append, Option.mem_toList]
  refine ⟨fun h => h.2.resolve_left h.1, fun h => ⟨fun hmem => ?_, .inr h⟩⟩
  obtain ⟨i, hi⟩ := List.mem_iff_getElem?.mp hmem
  rw [List.getElem?_take] at hi
  split_ifs at hi with hij
  have hlt : j < (groupPaths files).length := (List.getElem?_eq_some_iff.mp h).1
  exact List.nodup_iff_getElem?_ne_getElem?.mp (nodup_groupPaths files) i j hij hlt
    (hi.trans h.symm)

/-- The file that is read at a path, and its place. -/
lemma exists_findIdx?_of_fileAt (h : fileAt files path = some f) :
    ∃ i, files.findIdx? (·.relativePath = path) = some i ∧ files[i]? = some f ∧
      f.relativePath = path := by
  obtain ⟨hf, i, hi, rfl, hbefore⟩ := List.find?_eq_some_iff_getElem.mp h
  refine ⟨i, ?_, List.getElem?_eq_getElem hi, of_decide_eq_true hf⟩
  rw [List.findIdx?_eq_some_iff_getElem]
  exact ⟨hi, hf, fun j hj => by simpa using hbefore j hj⟩

/-- **What is stored at a path** is what is read there just if no earlier file takes it. -/
lemma content_eq_readBytes_iff {digest : Bytes → String} {put : String → Bytes → Bool}
    {objectKey : String} {group : StoredAssetGroup} {content : String → Option Bytes}
    (hstored : storeGroupFiles digest put objectKey files = some (group, content))
    (hself : sanitizeRelativePath path = path) (hfile : fileAt files path = some f) :
    content path = readBytes files path ↔ Undisturbed files path := by
  obtain ⟨i, hidx, hf, hpath⟩ := exists_findIdx?_of_fileAt hfile
  rw [readBytes, hfile, Option.map_some]
  constructor
  · intro h i' j f' g hidx' hf' hj hg htaken
    obtain rfl : i = i' := Option.some.inj (hidx.symm.trans hidx')
    obtain rfl : f = f' := Option.some.inj (hf.symm.trans hf')
    rw [content_of_getElem? hstored hg (takenBy_iff.mp htaken), Option.some.injEq] at h
    exact h
  · intro h
    have hi : i < files.length := (List.getElem?_eq_some_iff.mp hf).1
    have hrequest : (requestedPaths files)[i]? = some path := by
      rw [requestedPaths, List.getElem?_map, hf, Option.map_some, hpath, hself]
    by_cases hmem : path ∈ (groupPaths files).take i
    · obtain ⟨j, hj⟩ := List.mem_iff_getElem?.mp hmem
      rw [List.getElem?_take] at hj
      split_ifs at hj with hji
      have hg := List.getElem?_eq_getElem (hji.trans hi)
      rw [content_of_getElem? hstored hg hj, h i j f files[j] hidx hf hji hg (takenBy_iff.mpr hj)]
    · -- the path is free when the file that is read asks for it
      have hname : (groupPaths files)[i]? = some path := by
        rw [groupPaths, names_getElem? copyName hrequest, Option.some.injEq]
        exact fresh_eq_self (copyName_injective path) rfl hmem
      exact content_of_getElem? hstored hf hname

/-- Archives whose files ask for different paths are stored as they are. -/
theorem undisturbed_of_nodup (h : (requestedPaths files).Nodup)
    (hself : sanitizeRelativePath path = path) : Undisturbed files path := by
  intro i j f g hidx hf hj hg htaken
  obtain ⟨hi, hpath, -⟩ := List.findIdx?_eq_some_iff_getElem.mp hidx
  obtain rfl : files[i] = f := Option.some.inj ((List.getElem?_eq_getElem hi).symm.trans hf)
  rw [takenBy_iff, groupPaths, names_eq_self copyName_injective (fun _ => rfl) h] at htaken
  have hrequest : (requestedPaths files)[i]? = some path := by
    rw [requestedPaths, List.getElem?_map, hf, Option.map_some, of_decide_eq_true hpath, hself]
  have hlt : i < (requestedPaths files).length := (List.getElem?_eq_some_iff.mp hrequest).1
  exact absurd (htaken.trans hrequest.symm)
    (List.nodup_iff_getElem?_ne_getElem?.mp h j i hj hlt)

end Stored

/-- **What is stored is what was checked** just if no path that the manifest refers to is taken by
a file before the one that is read there. -/
theorem stored_as_read_iff (host : UploadHost) (payload : List (Option Field)) (u : UploadedTheme)
    (h : host.uploadPackage payload = .ok u) :
    (∀ path, u.manifest.RefersTo path → u.content path = readBytes (host.files payload) path) ↔
      ∀ path, u.manifest.RefersTo path → Undisturbed (host.files payload) path := by
  have hacc := UploadHost.accepted_of_uploadPackage h
  obtain ⟨put, hstored⟩ := hacc.stored
  refine forall₂_congr fun path hpath => ?_
  obtain ⟨f, hfile⟩ := exists_file hacc.validated hpath
  obtain ⟨i, -, hf, hname⟩ := exists_findIdx?_of_fileAt hfile
  obtain ⟨value, hvalue⟩ := hacc.sanitized f (List.mem_of_getElem? hf)
  exact content_eq_readBytes_iff hstored
    (sanitizeRelativePath_eq_self (hvalue.trans hname) hpath.madeOfNames) hfile

/-! ## Two archives -/

def bytesOf (text : String) : Bytes := text.toUTF8.toList

/-- The bytes of a number that is written with so many of them. -/
def ofDigits (size n : ℕ) : Bytes :=
  (List.range size).map fun i => UInt8.ofNat (n >>> (8 * (size - 1 - i)))

/-- The entry of a file. -/
def entryOf (file : String × String) : Except String ZipFile :=
  .ok ⟨false, (bytesOf file.2).length, some file.1, .ok (bytesOf file.2)⟩

/-- What is hashed for stored files. -/
def hashedBytes (files : List (String × String)) : Bytes :=
  files.flatMap fun file =>
    bytesOf file.1 ++ [0] ++ toLeBytes (bytesOf file.2).length ++ bytesOf file.2

/-- The value that a table has for some bytes. -/
def lookupBytes {α : Type} (table : List (Bytes × α)) (bytes : Bytes) : Option α :=
  (table.find? fun row => row.1 = bytes).map (·.2)

/-- A host with a local backend, on which one archive is uploaded. -/
def localHost (archive : Bytes) (files : List (String × String)) (manifest : Bytes × ThemeManifest)
    (values : List (Bytes × Value)) (digests : List (Bytes × String)) : UploadHost where
  gameExists := true
  availableBackends := [⟨"local", true, true, none⟩]
  objectKey := "group-1"
  zipArchive := fun bytes =>
    if bytes = archive then .ok (files.map entryOf) else .error "invalid Zip archive"
  manifestFromSlice := lookupBytes [manifest]
  valueFromSlice := lookupBytes values
  digest := fun bytes => (lookupBytes digests bytes).getD ""
  put := fun _ _ _ _ => true
  registerUploadedTheme := fun _ _ => .ok ()

def archivePayload (archive : Bytes) : List (Option Field) :=
  [some ⟨some "file", some "theme.zip", [some archive]⟩]

def plainText : String :=
  "\x7b\"type\":\"rbph-theme\",\"apiVersion\":1," ++
  "\"package\":\x7b\"name\":\"i\",\"version\":\"1\"\x7d\x7d"

def plainManifest : ThemeManifest := ⟨"rbph-theme", 1, ⟨"i", "1"⟩, {}⟩

/-- An archive of a manifest. -/
def plainArchive : Bytes := [
    0x504b03041400000000000000210066731daf49000000490000000f000000726270682d7468656d652e6a736f,
    0x6e7b2274797065223a22726270682d7468656d65222c2261706956657273696f6e223a312c227061636b6167,
    0x65223a7b226e616d65223a2269222c2276657273696f6e223a2231227d7d504b010214001400000000000000,
    0x210066731daf49000000490000000f0000000000000000000000800100000000726270682d7468656d652e6a
  ].flatMap (ofDigits 44) ++
  ofDigits 25 0x736f6e504b050600000000010001003d000000760000000000

def plainHost : UploadHost :=
  localHost plainArchive [(manifestPath, plainText)] (bytesOf plainText, plainManifest) []
    [(bytesOf plainText, "e7910252adaa60783c87db52e1a69e6541399f51d443698551e03d0082b0e1cd"),
      (hashedBytes [(manifestPath, plainText)],
        "5159ca91b331b7e17cba28083c8f651a61f9d09680de9af5dc9f920149897a81")]

theorem stored_as_read_iff_plainArchive :
    ∃ u, plainHost.uploadPackage (archivePayload plainArchive) = .ok u ∧
      ∀ path, u.manifest.RefersTo path →
        u.content path = readBytes (plainHost.files (archivePayload plainArchive)) path := by
  have hrun : (plainHost.uploadPackage (archivePayload plainArchive)).toOption.map
      (fun u => packagePaths u.manifest) = some (some []) := by decide +kernel
  obtain ⟨u, hu, hpaths⟩ := Option.map_eq_some_iff.mp hrun
  have hok := eq_ok_of_toOption hu
  refine ⟨u, hok, (stored_as_read_iff plainHost _ u hok).mpr fun path hpath => ?_⟩
  obtain rfl | ⟨paths, hpaths', hp⟩ := hpath
  · exact undisturbed_of_nodup (by decide +kernel) (by decide +kernel)
  · obtain rfl : [] = paths := Option.some.inj (hpaths.symm.trans hpaths')
    cases hp

def iconsManifestText : String :=
  "\x7b\"type\":\"rbph-theme\",\"apiVersion\":1," ++
  "\"package\":\x7b\"name\":\"i\",\"version\":\"1\"\x7d," ++
  "\"features\":\x7b\"icons\":\x7b\"collections\":[\"i_1.json\"]\x7d\x7d\x7d"

def iconsManifest : ThemeManifest :=
  ⟨"rbph-theme", 1, ⟨"i", "1"⟩, { icons := some ⟨[.string "i_1.json"]⟩ }⟩

def iconsText (collectionPrefix : String) : String :=
  "\x7b\"prefix\":\"" ++ collectionPrefix ++
    "\",\"icons\":\x7b\"k\":\x7b\"body\":\"\"\x7d\x7d\x7d"

def iconsValue (collectionPrefix : String) : Value :=
  .object [("prefix", .string collectionPrefix),
    ("icons", .object [("k", .object [("body", .string "")])])]

/-- An archive of a manifest and three collections of icons, `i.json`, `./i.json` and `i_1.json`. -/
def iconsArchive : Bytes := [
    0x504b03041400000000000000210096aa5db37b0000007b0000000f000000726270682d7468656d652e6a736f,
    0x6e7b2274797065223a22726270682d7468656d65222c2261706956657273696f6e223a312c227061636b6167,
    0x65223a7b226e616d65223a2269222c2276657273696f6e223a2231227d2c226665617475726573223a7b2269,
    0x636f6e73223a7b22636f6c6c656374696f6e73223a5b22695f312e6a736f6e225d7d7d7d504b030414000000,
    0x000000002100409fa072280000002800000006000000692e6a736f6e7b22707265666978223a2261222c2269,
    0x636f6e73223a7b226b223a7b22626f6479223a22227d7d7d504b0304140000000000000021002cf4a8d72800,
    0x000028000000080000002e2f692e6a736f6e7b22707265666978223a2262222c2269636f6e73223a7b226b22,
    0x3a7b22626f6479223a22227d7d7d504b030414000000000000002100082dafb4280000002800000008000000,
    0x695f312e6a736f6e7b22707265666978223a2263222c2269636f6e73223a7b226b223a7b22626f6479223a22,
    0x227d7d7d504b010214001400000000000000210096aa5db37b0000007b0000000f0000000000000000000000,
    0x800100000000726270682d7468656d652e6a736f6e504b0102140014000000000000002100409fa072280000,
    0x00280000000600000000000000000000008001a8000000692e6a736f6e504b01021400140000000000000021,
    0x002cf4a8d728000000280000000800000000000000000000008001f40000002e2f692e6a736f6e504b010214,
    0x0014000000000000002100082dafb42800000028000000080000000000000000000000800142010000695f31
  ].flatMap (ofDigits 44) ++
  ofDigits 27 0x2e6a736f6e504b05060000000004000400dd000000900100000000

def iconsFiles : List (String × String) :=
  [(manifestPath, iconsManifestText), ("i.json", iconsText "a"), ("./i.json", iconsText "b"),
    ("i_1.json", iconsText "c")]

def iconsHost : UploadHost :=
  localHost iconsArchive iconsFiles (bytesOf iconsManifestText, iconsManifest)
    (["a", "b", "c"].map fun collectionPrefix =>
      (bytesOf (iconsText collectionPrefix), iconsValue collectionPrefix))
    [(bytesOf iconsManifestText,
        "4d5b714403d3d4668f8161fbb3a33cd641a9ce75adef69b00be8ba22d6885e26"),
      (bytesOf (iconsText "a"), "22fc5ebf00dad036f9eac0f656281c051bd812c7ef2181d470e14d94c9ee3a3b"),
      (bytesOf (iconsText "b"), "e505108831011221fb920b01c9aeb399567a95ae11e75c99cbdf2e2a17daa0d3"),
      (bytesOf (iconsText "c"), "16bd9f1caeff88d3b395873f085c80ec5444dae807b2e6e18e5f48b5e4ef007f"),
      (hashedBytes [(manifestPath, iconsManifestText), ("i.json", iconsText "a"),
          ("i_1.json", iconsText "b"), ("i_1_1.json", iconsText "c")],
        "c0c419e0cd5d7205217c9c16916150ec760fcc9f8100279588eb1cde14f1aa15")]

/-- The icons that were checked are stored at another path, and those of `./i.json` at theirs. -/
theorem stored_other_icons : ¬ ∀ (host : UploadHost) (payload : List (Option Field))
    (u : UploadedTheme), host.uploadPackage payload = .ok u →
      ∀ path, u.manifest.RefersTo path →
        u.content path = readBytes (host.files payload) path := by
  intro hall
  have hrun : (iconsHost.uploadPackage (archivePayload iconsArchive)).toOption.map
      (fun u => (packagePaths u.manifest, u.content "i_1.json")) =
        some (some ["i_1.json"], some (bytesOf (iconsText "b"))) := by decide +kernel
  obtain ⟨u, hu, hpair⟩ := Option.map_eq_some_iff.mp hrun
  rw [Prod.mk.injEq] at hpair
  have hread := hall iconsHost _ u (eq_ok_of_toOption hu) "i_1.json"
    (.inr ⟨["i_1.json"], hpair.1, List.mem_singleton.mpr rfl⟩)
  rw [hpair.2] at hread
  revert hread
  decide +kernel

end Frontend.Archive
