import Mathlib.Data.List.Sort
import RbphBackend.Encoding.Framing
import RbphBackend.Storage.Groups

set_option relaxedAutoImplicit false
set_option autoImplicit false

/-!
# The digest of a group

When a group is uploaded, its digest is taken of its files in the order of the upload. When a file
has been renamed, it is taken again, of the files in the order in which the database lists them. The
local backend reads them from the disk, where a path may lead elsewhere than its names say.

## Main definitions

* `Storage.prepareDatabaseGroup`, `Storage.summarizeDatabaseFiles`,
  `Storage.summarizeExistingGroupFiles` — `api/admin/asset.rs` and `module/storage.rs`.
* `Storage.Collation` — the order of the database.
* `Storage.diskAfter` — what the local backend has written.
* `Storage.DatabaseAgrees`, `Storage.LocalAgrees` — the digest taken again is the one of the upload.

## Main results

* `Storage.databaseAgrees_iff`, `Storage.localAgrees_iff` — when it is.
-/

namespace Storage

open Encoding Naming Paths

/-! ## What is hashed -/

/-- The paths of a group with what is stored at them, in the order of the ids. -/
abbrev Rows := List (String × Bytes)

/-- What is hashed of a file. -/
def groupFrame (row : String × Bytes) : Bytes :=
  utf8 row.1 ++ [0] ++ toLeBytes row.2.length ++ row.2

def groupStream (rows : Rows) : Bytes := rows.flatMap groupFrame

def groupLength (rows : Rows) : ℕ := (rows.map fun row => row.2.length).sum

/-- The rows of a group that has been uploaded. -/
def uploadedRows (files : List AssetUploadFile) : Rows :=
  (groupPaths files).zip (files.map (·.bytes))

/-- An order of texts. -/
structure Collation where
  le : String → String → Bool
  le_trans : ∀ a b c, le a b = true → le b c = true → le a c = true
  le_total : ∀ a b, (le a b || le b a) = true

/-- `ORDER BY relative_path, id`. -/
def Collation.listing (c : Collation) (rows : Rows) : Rows :=
  rows.mergeSort fun a b => c.le a.1 b.1

section Summaries

variable (digest : Bytes → String)

/-- The loop of `store_group_files`, with nothing to write. -/
def prepareDatabaseGroup (objectKey : String) (files : List AssetUploadFile) :
    Option (StoredAssetGroup × List Bytes) :=
  (storeGroupFiles digest (fun _ _ => true) objectKey files).map fun stored =>
    (stored.1, files.map (·.bytes))

def summarizeDatabaseFiles (files : Rows) : ℕ × String :=
  (groupLength files, digest (groupStream files))

/-- `read` finds the bytes of an object. -/
def summarizeExistingGroupFiles (read : String → Option Bytes) (relativePaths : List String) :
    Option (ℕ × String) := do
  let rows ← relativePaths.mapM fun path => (read path).map (path, ·)
  return (groupLength rows, digest (groupStream rows))

end Summaries

/-! ## The disk -/

/-- Where the system gets to along names: an empty name and a dot stay, two dots lead back. -/
def walk (dir : List String) : List String → Option (List String)
  | [] => some dir
  | s :: rest =>
    if s = "" ∨ s = "." then walk dir rest
    else if s = ".." then if dir = [] then none else walk dir.dropLast rest
    else walk (dir ++ [s]) rest

abbrev Disk := List String → Option Bytes

/-- A path below the directory that a group is written to. -/
def place (dir path : String) : Option (List String) := walk [dir] (segments path)

/-- A file is written, over what stands there. -/
def writeRow (dir : String) (disk : Disk) (row : String × Bytes) : Disk :=
  match place dir row.1 with
  | some names => Function.update disk names (some row.2)
  | none => disk

/-- What stands below the storage root after the files of a group have been written. -/
def diskAfter (dir : String) (rows : Rows) : Disk := rows.foldl (writeRow dir) fun _ => none

/-- What is read at the object path of a file. -/
def readRow (dir : String) (disk : Disk) (path : String) : Option Bytes :=
  (place dir (sanitizeRelativePath path)).bind disk

/-- `fs::rename`, from one object path to another. -/
def renameOnDisk (dir : String) (disk : Disk) (old new : String) : Disk :=
  match place dir (sanitizeRelativePath old), place dir (sanitizeRelativePath new) with
  | some source, some target =>
    Function.update (Function.update disk target (disk source)) source none
  | _, _ => disk

/-- The row of a file has another path. -/
def renameRow (rows : Rows) (i : ℕ) (path : String) : Rows :=
  rows.modify i fun row => (path, row.2)

/-! ## What it means to agree -/

/-- The files were uploaded in the order in which they are listed. -/
def InListingOrder (c : Collation) (files : List AssetUploadFile) : Prop :=
  (groupPaths files).Pairwise fun p q => c.le p q = true

/-- Every file is read where it has been written, and nothing has been written over it. -/
def ReadBack (dir : String) (files : List AssetUploadFile) : Prop :=
  ∀ row ∈ uploadedRows files,
    readRow dir (diskAfter dir (uploadedRows files)) row.1 = some row.2

/-- The database backend: the size and the digest are found again, also after a file has been
renamed and renamed back. -/
structure DatabaseAgrees (c : Collation) (files : List AssetUploadFile) : Prop where
  recomputed : ∀ digest objectKey group contents,
    prepareDatabaseGroup digest objectKey files = some (group, contents) →
    summarizeDatabaseFiles digest
      (c.listing ((group.files.map (·.relativePath)).zip contents)) = (group.size, group.sha256)
  renamed : ∀ digest objectKey group contents i path bytes other,
    prepareDatabaseGroup digest objectKey files = some (group, contents) →
    ((group.files.map (·.relativePath)).zip contents)[i]? = some (path, bytes) →
    summarizeDatabaseFiles digest (c.listing (renameRow
      (renameRow ((group.files.map (·.relativePath)).zip contents) i other) i path)) =
        (group.size, group.sha256)

/-- The local backend: the same, where `put` says what could be written. A file is renamed to a
path where none is. -/
structure LocalAgrees (c : Collation) (dir : String) (files : List AssetUploadFile) : Prop where
  recomputed : ∀ digest put objectKey group content,
    storeGroupFiles digest put objectKey files = some (group, content) →
    summarizeExistingGroupFiles digest (readRow dir (diskAfter dir (uploadedRows files)))
      ((c.listing (uploadedRows files)).map Prod.fst) = some (group.size, group.sha256)
  renamed : ∀ digest put objectKey group content i path bytes other,
    storeGroupFiles digest put objectKey files = some (group, content) →
    (uploadedRows files)[i]? = some (path, bytes) →
    readRow dir (diskAfter dir (uploadedRows files)) other = none →
    summarizeExistingGroupFiles digest
      (readRow dir (renameOnDisk dir
        (renameOnDisk dir (diskAfter dir (uploadedRows files)) path other) other path))
      ((c.listing (renameRow (renameRow (uploadedRows files) i other) i path)).map Prod.fst) =
        some (group.size, group.sha256)

/-! ## Streams -/

/-- A row that can be told from a stream: its path has no NUL character. -/
structure Framed (row : String × Bytes) : Prop where
  path : (0 : UInt8) ∉ utf8 row.1
  length : row.2.length < 2 ^ 64

section Streams

variable {rows rows' : Rows} {files : List AssetUploadFile}

/-- **What is hashed of a file** tells its path and what it contains. -/
theorem tells_groupFrame : Tells {row | Framed row} groupFrame id := by
  have hpath : Tells {row : String × Bytes | Framed row} (fun row => utf8 row.1 ++ [0])
      fun row => utf8 row.1 := tells_concat fun row h => h.path
  have hlen : Tells {row : String × Bytes | Framed row} (fun row => toLeBytes row.2.length)
      fun row => row.2.length :=
    tells_of_length (fun _ _ => length_toLeBytes _) fun a ha b hb => toLeBytes_inj ha.length hb.length
  have hbytes : ∀ k : Bytes × ℕ, Tells {row : String × Bytes | row ∈ {row | Framed row} ∧
      (utf8 row.1, row.2.length) = k} (fun row => row.2) fun row => row.2 := fun k =>
    tells_of_length (n := k.2) (fun row h => h.2 ▸ rfl) fun _ _ _ _ h => h
  intro a ha b hb x y heq
  obtain ⟨hkey, hrest⟩ := ((hpath.append_of_tells hlen).append hbytes) ha hb x y heq
  rw [Prod.mk.injEq, Prod.mk.injEq] at hkey
  exact ⟨Prod.ext (utf8_inj.mp hkey.1.1) hkey.2, hrest⟩

lemma groupStream_inj (h : ∀ row ∈ rows, Framed row) (h' : ∀ row ∈ rows', Framed row)
    (heq : groupStream rows = groupStream rows') : rows = rows' := by
  have hne : ∀ row : String × Bytes, groupFrame row ≠ [] := by
    intro row hnil
    have hlen := congrArg List.length hnil
    simp only [groupFrame, List.length_append, length_toLeBytes, List.length_nil] at hlen
    omega
  have hmap := tells_groupFrame.eq_of_flatMap_eq (fun row _ => hne row) h h' heq
  rwa [List.map_id, List.map_id] at hmap

lemma zero_notMem_utf8 {s : String} (h : '\x00' ∉ s.toList) : (0 : UInt8) ∉ utf8 s := by
  intro hmem
  rw [utf8_eq, List.mem_flatMap] at hmem
  obtain ⟨c, hc, hzero⟩ := hmem
  by_cases hascii : c.val.toNat ≤ 127
  · rw [String.utf8EncodeChar, if_pos hascii, List.mem_singleton] at hzero
    have hnat := congrArg UInt8.toNat hzero
    rw [UInt8.toNat_ofNat', UInt8.toNat_zero] at hnat
    have hval : c.val = 0 := UInt32.toNat_inj.mp (by simp only [UInt32.toNat_zero]; omega)
    exact h ((Char.ext hval : c = '\x00') ▸ hc)
  · have hle := le_of_mem_utf8EncodeChar (by omega) hzero
    simp at hle

/-- A character of a path other than the separator is in one of its names. -/
lemma exists_segment_of_mem {path : String} {ch : Char} (h : ch ∈ path.toList) (hne : ch ≠ '/') :
    ∃ s ∈ segments path, ch ∈ s.toList := by
  have hmem : ∀ parts : List String, ch ∈ ("/".intercalate parts).toList →
      ∃ s ∈ parts, ch ∈ s.toList := by
    intro parts
    rw [String.toList_intercalate]
    induction parts with
    | nil => simp
    | cons s parts ih =>
      cases parts with
      | nil => simp
      | cons t parts =>
        simp only [List.map_cons, List.intercalate_cons_cons, List.mem_append] at ih ⊢
        rintro ((hs | hslash) | hrest)
        · exact ⟨s, List.mem_cons_self, hs⟩
        · exact absurd (by simpa using hslash) hne
        · obtain ⟨u, hu, hch⟩ := ih hrest
          exact ⟨u, List.mem_cons_of_mem _ hu, hch⟩
  exact hmem _ (by rwa [intercalate_segments])

lemma nul_notMem_sanitizeFilename (value : String) : '\x00' ∉ (sanitizeFilename value).toList := by
  unfold sanitizeFilename
  dsimp only
  split
  · decide
  · simp

lemma nul_notMem_sanitizeRelativePath (value : String) :
    '\x00' ∉ (sanitizeRelativePath value).toList := by
  intro h
  obtain ⟨s, hs, hch⟩ := exists_segment_of_mem h (by decide)
  rw [segments_sanitizeRelativePath] at hs
  split_ifs at hs
  · rw [List.mem_singleton.mp hs] at hch
    exact absurd hch (by decide)
  · obtain ⟨part, -, rfl⟩ := mem_sanitizedParts.mp hs
    exact nul_notMem_sanitizeFilename part hch

/-- No NUL character is in the path of a stored file. -/
lemma nul_notMem_groupPaths {p : String} (h : p ∈ groupPaths files) : '\x00' ∉ p.toList := by
  obtain ⟨a, ha, k, rfl⟩ := exists_of_mem_names copyName_injective h
  obtain ⟨file, -, rfl⟩ := List.mem_map.mp ha
  have hrequested := nul_notMem_sanitizeRelativePath file.relativePath
  cases k with
  | zero => exact hrequested
  | succ k =>
    obtain ⟨front, back, hsplit, hnum⟩ := candidate_toList (sanitizeRelativePath file.relativePath)
    rw [hsplit, List.mem_append, not_or] at hrequested
    rw [copyName, hnum, List.mem_append, List.mem_append, List.mem_cons]
    rintro ((hfront | hunderscore | hdigit) | hback)
    · exact hrequested.1 hfront
    · exact absurd hunderscore (by decide)
    · exact absurd (Nat.isDigit_of_mem_toDigits (by decide) (by decide) hdigit) (by decide)
    · exact hrequested.2 hback

lemma length_map_bytes (files : List AssetUploadFile) :
    (groupPaths files).length = (files.map (·.bytes)).length := by
  rw [length_groupPaths, List.length_map]

lemma map_fst_uploadedRows (files : List AssetUploadFile) :
    (uploadedRows files).map Prod.fst = groupPaths files :=
  List.map_fst_zip (length_map_bytes files).le

lemma framed_uploadedRows (hlength : ∀ file ∈ files, file.bytes.length < 2 ^ 64) :
    ∀ row ∈ uploadedRows files, Framed row := by
  intro row hrow
  obtain ⟨hpath, hbytes⟩ := List.of_mem_zip hrow
  obtain ⟨file, hfile, heq⟩ := List.mem_map.mp hbytes
  exact ⟨zero_notMem_utf8 (nul_notMem_groupPaths hpath), heq ▸ hlength file hfile⟩

end Streams

/-! ## What is uploaded -/

section Uploaded

variable {digest : Bytes → String} {put : String → Bytes → Bool} {objectKey : String}
  {files rest : List AssetUploadFile} {w w' : GroupWriter}

/-- What has been hashed after some of the files. -/
structure GroupWriter.Hashed (w : GroupWriter) (files : List AssetUploadFile) : Prop where
  wrote : w.Wrote files
  stream : w.groupHasher = groupStream (uploadedRows files)
  size : w.groupSize = groupLength (uploadedRows files)

lemma GroupWriter.hashed_nil : GroupWriter.Hashed {} [] := ⟨GroupWriter.wrote_nil, rfl, rfl⟩

lemma uploadedRows_concat (files : List AssetUploadFile) (file : AssetUploadFile) :
    uploadedRows (files ++ [file]) = uploadedRows files ++
      [(fresh copyName (groupPaths files) (sanitizeRelativePath file.relativePath), file.bytes)] := by
  rw [uploadedRows, groupPaths_concat, List.map_append, List.zip_append (length_map_bytes files)]
  rfl

lemma GroupWriter.Hashed.storeFile {file : AssetUploadFile} (h : w.Hashed files)
    (hstore : w.storeFile digest put objectKey file = some w') : w'.Hashed (files ++ [file]) := by
  refine ⟨h.wrote.storeFile hstore, ?_, ?_⟩
  all_goals
    obtain ⟨hname, -⟩ :=
      uniquifyRelativePath_spec (sanitizeRelativePath file.relativePath) h.wrote.usedPaths
    rw [GroupWriter.storeFile] at hstore
    simp only [hname] at hstore
    split_ifs at hstore
    rw [Option.some.injEq] at hstore
    subst hstore
    rw [uploadedRows_concat]
  · rw [groupStream, List.flatMap_append, ← groupStream, ← h.stream, List.flatMap_singleton,
      groupFrame, utf8]
    simp only [List.append_assoc]
  · rw [groupLength, List.map_append, List.sum_append, ← groupLength, ← h.size]
    rfl

lemma GroupWriter.Hashed.storeFiles (h : w.Hashed files)
    (hstore : rest.foldlM (GroupWriter.storeFile digest put objectKey) w = some w') :
    w'.Hashed (files ++ rest) := by
  induction rest generalizing w files with
  | nil =>
    cases hstore
    rwa [List.append_nil]
  | cons file rest ih =>
    rw [List.foldlM_cons] at hstore
    obtain ⟨w₁, hfile, hrest⟩ := Option.bind_eq_some_iff.mp hstore
    have hall := ih (h.storeFile hfile) hrest
    rwa [List.append_assoc, List.singleton_append] at hall

/-- **The size and the digest of an upload** are those of its rows. -/
lemma stored_digest {group : StoredAssetGroup} {content : String → Option Bytes}
    (h : storeGroupFiles digest put objectKey files = some (group, content)) :
    group.size = groupLength (uploadedRows files) ∧
      group.sha256 = digest (groupStream (uploadedRows files)) := by
  rw [storeGroupFiles, Option.map_eq_some_iff] at h
  obtain ⟨w, hw, heq⟩ := h
  cases heq
  have hhashed := GroupWriter.hashed_nil.storeFiles hw
  exact ⟨hhashed.size, congrArg digest hhashed.stream⟩

/-- With nothing that can fail, the files are stored. -/
lemma exists_stored (digest : Bytes → String) (objectKey : String) (files : List AssetUploadFile) :
    ∃ group content,
      storeGroupFiles digest (fun _ _ => true) objectKey files = some (group, content) := by
  have hfold : ∀ w : GroupWriter, ∃ w',
      files.foldlM (GroupWriter.storeFile digest (fun _ _ => true) objectKey) w = some w' := by
    induction files with
    | nil => exact fun w => ⟨w, rfl⟩
    | cons file files ih =>
      intro w
      have hone : ∃ w₁, w.storeFile digest (fun _ _ => true) objectKey file = some w₁ := by
        rw [GroupWriter.storeFile]
        exact ⟨_, if_pos rfl⟩
      obtain ⟨w₁, hw₁⟩ := hone
      obtain ⟨w', hw'⟩ := ih w₁
      exact ⟨w', by rw [List.foldlM_cons, hw₁]; exact hw'⟩
  obtain ⟨w, hw⟩ := hfold {}
  exact ⟨_, _, by rw [storeGroupFiles, hw]; rfl⟩

lemma rows_of_prepared {group : StoredAssetGroup} {contents : List Bytes}
    (h : prepareDatabaseGroup digest objectKey files = some (group, contents)) :
    (group.files.map (·.relativePath)).zip contents = uploadedRows files ∧
      group.size = groupLength (uploadedRows files) ∧
      group.sha256 = digest (groupStream (uploadedRows files)) := by
  rw [prepareDatabaseGroup, Option.map_eq_some_iff] at h
  obtain ⟨⟨group', content⟩, hstore, heq⟩ := h
  cases heq
  exact ⟨by rw [stored_relativePath hstore]; rfl, stored_digest hstore⟩

end Uploaded

/-! ## Listings -/

section Listing

variable {c : Collation} {rows : Rows} {files : List AssetUploadFile}

lemma listing_perm (c : Collation) (rows : Rows) : (c.listing rows).Perm rows :=
  List.mergeSort_perm _ _

/-- What is in the order of the database already is listed as it is. -/
lemma listing_eq_self (h : (rows.map Prod.fst).Pairwise fun p q => c.le p q = true) :
    c.listing rows = rows :=
  List.mergeSort_of_pairwise (List.pairwise_map.mp h)

lemma pairwise_listing (c : Collation) (rows : Rows) :
    ((c.listing rows).map Prod.fst).Pairwise fun p q => c.le p q = true :=
  List.pairwise_map.mpr (List.pairwise_mergeSort (fun a b d => c.le_trans a.1 b.1 d.1)
    (fun a b => c.le_total a.1 b.1) rows)

lemma inListingOrder_iff : InListingOrder c files ↔
    c.listing (uploadedRows files) = uploadedRows files := by
  rw [InListingOrder, ← map_fst_uploadedRows]
  exact ⟨listing_eq_self, fun h => h ▸ pairwise_listing c (uploadedRows files)⟩

end Listing

/-! ## The database backend -/

section Database

variable {c : Collation} {files : List AssetUploadFile}

lemma renameRow_renameRow {rows : Rows} {i : ℕ} {path other : String} {bytes : Bytes}
    (h : rows[i]? = some (path, bytes)) : renameRow (renameRow rows i other) i path = rows := by
  refine List.ext_getElem? fun j => ?_
  rw [renameRow, renameRow, List.getElem?_modify, List.getElem?_modify]
  by_cases hj : i = j
  · subst hj
    simp [h]
  · simp [hj]

/-- Of two lists that are hashed alike by every function, one is the other. -/
lemma stream_eq_of_digest {s t : Bytes} (h : ∀ digest : Bytes → String, digest s = digest t) :
    s = t := by
  by_contra hne
  have hdigest := h fun bytes => if bytes = s then "s" else "t"
  rw [if_pos rfl, if_neg (Ne.symm hne)] at hdigest
  exact absurd hdigest (by decide)

/-- **The database backend** finds the digest of an upload again exactly when the files were
uploaded in the order in which they are listed. -/
theorem databaseAgrees_iff (hlength : ∀ file ∈ files, file.bytes.length < 2 ^ 64) :
    DatabaseAgrees c files ↔ InListingOrder c files := by
  rw [inListingOrder_iff]
  constructor
  · intro h
    have hstream : groupStream (c.listing (uploadedRows files)) =
        groupStream (uploadedRows files) := by
      refine stream_eq_of_digest fun digest => ?_
      obtain ⟨group, content, hstored⟩ := exists_stored digest "" files
      have hprepared : prepareDatabaseGroup digest "" files =
          some (group, files.map (·.bytes)) := by rw [prepareDatabaseGroup, hstored]; rfl
      obtain ⟨hrows, -, hsha⟩ := rows_of_prepared hprepared
      have hagree := h.recomputed digest "" group _ hprepared
      rw [hrows, hsha] at hagree
      exact congrArg Prod.snd hagree
    have hframed := framed_uploadedRows hlength
    exact groupStream_inj (fun row hrow => hframed row ((listing_perm c _).mem_iff.mp hrow)) hframed
      hstream
  · intro hlisting
    have hagree : ∀ digest objectKey group contents,
        prepareDatabaseGroup digest objectKey files = some (group, contents) →
        summarizeDatabaseFiles digest
          (c.listing ((group.files.map (·.relativePath)).zip contents)) =
            (group.size, group.sha256) := by
      intro digest objectKey group contents hprepared
      obtain ⟨hrows, hsize, hsha⟩ := rows_of_prepared hprepared
      rw [hrows, hlisting, summarizeDatabaseFiles, hsize, hsha]
    refine ⟨hagree, fun digest objectKey group contents i path bytes other hprepared hrow => ?_⟩
    rw [renameRow_renameRow hrow]
    exact hagree digest objectKey group contents hprepared

end Database

/-! ## The local backend -/

section Local

variable {c : Collation} {dir : String} {files : List AssetUploadFile} {rows : Rows} {disk : Disk}

/-- What is on the disk has been written by a row. -/
lemma mem_of_diskAfter {names : List String} {bytes : Bytes}
    (h : diskAfter dir rows names = some bytes) : ∃ row ∈ rows, row.2 = bytes := by
  induction rows using List.reverseRecOn with
  | nil => cases h
  | append_singleton front row ih =>
    rw [diskAfter, List.foldl_append, List.foldl_cons, List.foldl_nil, ← diskAfter, writeRow] at h
    have hfront : diskAfter dir front names = some bytes → ∃ row' ∈ front ++ [row],
        row'.2 = bytes := fun hold => by
      obtain ⟨row', hmem, heq⟩ := ih hold
      exact ⟨row', List.mem_append_left _ hmem, heq⟩
    cases hplace : place dir row.1 with
    | none =>
      simp only [hplace] at h
      exact hfront h
    | some target =>
      simp only [hplace] at h
      by_cases hnames : names = target
      · rw [hnames, Function.update_self, Option.some.injEq] at h
        exact ⟨row, List.mem_append_right _ List.mem_cons_self, h⟩
      · rw [Function.update_of_ne hnames] at h
        exact hfront h

/-- Renamed to where no file is and back, a file is where it was. -/
lemma renameOnDisk_renameOnDisk {path other : String} (hfile : readRow dir disk path ≠ none)
    (hfree : readRow dir disk other = none) :
    renameOnDisk dir (renameOnDisk dir disk path other) other path = disk := by
  rw [renameOnDisk, renameOnDisk]
  rw [readRow] at hfile hfree
  cases hsource : place dir (sanitizeRelativePath path) with
  | none => cases place dir (sanitizeRelativePath other) <;> rfl
  | some source =>
    cases htarget : place dir (sanitizeRelativePath other) with
    | none => rfl
    | some target =>
      rw [hsource, Option.bind_some] at hfile
      rw [htarget, Option.bind_some] at hfree
      have hne : target ≠ source := fun heq => hfile (heq ▸ hfree)
      funext names
      by_cases hs : names = source
      · subst hs
        simp [Function.update, hne.symm, hne]
      · by_cases ht : names = target
        · subst ht
          simp [Function.update, hfree]
        · simp [Function.update, hs, ht]

/-- A summary is taken of the paths with what is read at them. -/
lemma summarize_eq_some {digest : Bytes → String} {read : String → Option Bytes}
    {paths : List String} {size : ℕ} {sha256 : String}
    (h : summarizeExistingGroupFiles digest read paths = some (size, sha256)) :
    ∃ rows : Rows, rows.map Prod.fst = paths ∧ (∀ row ∈ rows, read row.1 = some row.2) ∧
      size = groupLength rows ∧ sha256 = digest (groupStream rows) := by
  rw [summarizeExistingGroupFiles] at h
  obtain ⟨rows, hrows, heq⟩ := Option.bind_eq_some_iff.mp h
  cases heq
  refine ⟨rows, ?_, ?_, rfl, rfl⟩
  all_goals clear h
  · induction paths generalizing rows with
    | nil =>
      cases hrows
      rfl
    | cons path paths ih =>
      rw [List.mapM_cons] at hrows
      obtain ⟨row, hrow, hrest⟩ := Option.bind_eq_some_iff.mp hrows
      obtain ⟨rest, htail, heq⟩ := Option.bind_eq_some_iff.mp hrest
      obtain ⟨bytes, -, rfl⟩ := Option.map_eq_some_iff.mp hrow
      cases heq
      rw [List.map_cons, ih rest htail]
  · induction paths generalizing rows with
    | nil =>
      cases hrows
      simp
    | cons path paths ih =>
      rw [List.mapM_cons] at hrows
      obtain ⟨row, hrow, hrest⟩ := Option.bind_eq_some_iff.mp hrows
      obtain ⟨rest, htail, heq⟩ := Option.bind_eq_some_iff.mp hrest
      obtain ⟨bytes, hread, rfl⟩ := Option.map_eq_some_iff.mp hrow
      cases heq
      intro row hmem
      obtain rfl | hmem := List.mem_cons.mp hmem
      · exact hread
      · exact ih rest htail row hmem

lemma summarize_of_read {digest : Bytes → String} {read : String → Option Bytes}
    (h : ∀ row ∈ rows, read row.1 = some row.2) :
    summarizeExistingGroupFiles digest read (rows.map Prod.fst) =
      some (groupLength rows, digest (groupStream rows)) := by
  have hmap : (rows.map Prod.fst).mapM (fun path => (read path).map (path, ·)) = some rows := by
    induction rows with
    | nil => rfl
    | cons row rows ih =>
      rw [List.map_cons, List.mapM_cons, h row List.mem_cons_self,
        ih fun row' hrow => h row' (List.mem_cons_of_mem _ hrow)]
      rfl
  rw [summarizeExistingGroupFiles, hmap]
  rfl

/-- **The local backend** finds the digest of an upload again exactly when, besides, every file is
read where it has been written. -/
theorem localAgrees_iff (hlength : ∀ file ∈ files, file.bytes.length < 2 ^ 64) :
    LocalAgrees c dir files ↔ InListingOrder c files ∧ ReadBack dir files := by
  rw [inListingOrder_iff]
  constructor
  · intro h
    -- what is read back is what has been uploaded, in the same order
    obtain ⟨read, hpaths, hread, hstream⟩ : ∃ read : Rows,
        read.map Prod.fst = (c.listing (uploadedRows files)).map Prod.fst ∧
        (∀ row ∈ read, readRow dir (diskAfter dir (uploadedRows files)) row.1 = some row.2) ∧
        groupStream read = groupStream (uploadedRows files) := by
      obtain ⟨group, content, hstored⟩ := exists_stored (fun _ => "") "" files
      obtain ⟨read, hpaths, hread, -⟩ :=
        summarize_eq_some (h.recomputed _ _ _ group content hstored)
      refine ⟨read, hpaths, hread, stream_eq_of_digest fun digest => ?_⟩
      obtain ⟨group', content', hstored'⟩ := exists_stored digest "" files
      have hagree := h.recomputed _ _ _ group' content' hstored'
      rw [← hpaths, summarize_of_read hread, (stored_digest hstored').2, Option.some.injEq] at hagree
      exact congrArg Prod.snd hagree
    have hframed := framed_uploadedRows hlength
    have heq : read = uploadedRows files := by
      refine groupStream_inj (fun row hrow => ⟨?_, ?_⟩) hframed hstream
      · have hmem : row.1 ∈ (c.listing (uploadedRows files)).map Prod.fst :=
          hpaths ▸ List.mem_map_of_mem hrow
        obtain ⟨row', hrow', hpath⟩ := List.mem_map.mp hmem
        exact hpath ▸ (hframed row' ((listing_perm c _).mem_iff.mp hrow')).path
      · obtain ⟨names, -, hdisk⟩ := Option.bind_eq_some_iff.mp (hread row hrow)
        obtain ⟨row', hrow', hbytes⟩ := mem_of_diskAfter hdisk
        exact hbytes ▸ (hframed row' hrow').length
    subst heq
    refine ⟨listing_eq_self ?_, hread⟩
    rw [hpaths]
    exact pairwise_listing c _
  · rintro ⟨hlisting, hread⟩
    have hagree : ∀ digest put objectKey group content,
        storeGroupFiles digest put objectKey files = some (group, content) →
        summarizeExistingGroupFiles digest (readRow dir (diskAfter dir (uploadedRows files)))
          ((c.listing (uploadedRows files)).map Prod.fst) = some (group.size, group.sha256) := by
      intro digest put objectKey group content hstored
      obtain ⟨hsize, hsha⟩ := stored_digest hstored
      rw [hlisting, summarize_of_read hread, hsize, hsha]
    refine ⟨hagree, ?_⟩
    intro digest put objectKey group content i path bytes other hstored hrow hfree
    have hfile := hread _ (List.mem_of_getElem? hrow)
    rw [renameOnDisk_renameOnDisk (by rw [hfile]; simp) hfree, renameRow_renameRow hrow]
    exact hagree digest put objectKey group content hstored

/-! ### Paths without dot names -/

lemma walk_of_safe {start names : List String} (h : ∀ s ∈ names, SafeSegment s) :
    walk start names = some (start ++ names) := by
  induction names generalizing start with
  | nil => rw [walk, List.append_nil]
  | cons s names ih =>
    have hs := h s List.mem_cons_self
    rw [walk, if_neg (not_or.mpr ⟨hs.ne_empty, hs.ne_dot⟩), if_neg hs.ne_dotdot,
      ih fun t ht => h t (List.mem_cons_of_mem s ht), List.append_assoc, List.singleton_append]

/-- A path of safe names without NUL characters is left as it is. -/
lemma sanitizeRelativePath_of_safe {path : String} (h : ∀ s ∈ segments path, SafeSegment s)
    (hnul : '\x00' ∉ path.toList) : sanitizeRelativePath path = path := by
  have hname : ∀ s ∈ segments path, sanitizeFilename s = s := by
    intro s hs
    have hfilter : s.toList.filter (fun ch => ch != '\x00' && ch != '/' && ch != '\\') =
        s.toList := by
      refine List.filter_eq_self.mpr fun ch hch => ?_
      have hzero : ch ≠ '\x00' := fun heq => hnul (heq ▸ mem_of_mem_segments hs hch)
      have hslash : ch ≠ '/' := fun heq => (h s hs).slash (heq ▸ hch)
      have hback : ch ≠ '\\' := fun heq => (h s hs).backslash (heq ▸ hch)
      simp [hzero, hslash, hback]
    rw [sanitizeFilename, hfilter, String.ofList_toList]
    exact if_neg (h s hs).ne_empty
  have hparts : sanitizedParts path = segments path := by
    have hlead : leading path = [] := by
      obtain ⟨first, rest, hsegs⟩ := List.exists_cons_of_ne_nil (segments_ne_nil path)
      have hfirst := h first (hsegs ▸ List.mem_cons_self)
      have habs : ¬ IsAbsolute path := by
        intro habs
        obtain ⟨cs, hcs⟩ := List.head?_eq_some_iff.mp habs
        have hpath : path = "" ++ "/" ++ String.ofList cs := by
          rw [← String.toList_inj, hcs]
          simp
        have hempty : "" ∈ segments path := by
          rw [hpath, segments_append_slash, segments_eq_singleton (s := "") (by simp)]
          exact List.mem_cons_self
        exact (h "" hempty).ne_empty rfl
      rw [leading, if_neg habs, if_neg]
      rw [hsegs, List.head?_cons, Option.some.injEq]
      exact hfirst.ne_dot
    rw [sanitizedParts, components, hlead, List.nil_append, filterMap_ofSegment?_of_safe h,
      List.filterMap_map]
    conv_rhs => rw [← List.filterMap_some (l := segments path)]
    refine List.filterMap_congr fun s hs => ?_
    simp only [Function.comp_apply, hname s hs, (h s hs).ne_empty, if_false]
  rw [sanitizeRelativePath, hparts, if_neg (segments_ne_nil path), intercalate_segments]

/-- A row of a safe path is found where it was written, when no other row has its path. -/
lemma diskAfter_of_safe (hnodup : (rows.map Prod.fst).Nodup)
    (hsafe : ∀ row ∈ rows, ∀ s ∈ segments row.1, SafeSegment s) :
    ∀ row ∈ rows, diskAfter dir rows (dir :: segments row.1) = some row.2 := by
  induction rows using List.reverseRecOn with
  | nil => simp
  | append_singleton front last ih =>
    rw [List.map_append, List.nodup_append] at hnodup
    have hplace : place dir last.1 = some (dir :: segments last.1) :=
      walk_of_safe (hsafe last (List.mem_append_right _ List.mem_cons_self))
    have hfront := ih hnodup.1 fun row hrow => hsafe row (List.mem_append_left _ hrow)
    intro row hrow
    rw [diskAfter, List.foldl_append, List.foldl_cons, List.foldl_nil, ← diskAfter, writeRow,
      hplace]
    obtain hrow | hrow := List.mem_append.mp hrow
    · have hne : dir :: segments row.1 ≠ dir :: segments last.1 := fun heq =>
        hnodup.2.2 row.1 (List.mem_map_of_mem hrow) last.1 List.mem_cons_self
          (segments_inj (List.cons.inj heq).2)
      exact (Function.update_of_ne hne _ _).trans (hfront row hrow)
    · rw [List.mem_singleton.mp hrow]
      exact Function.update_self _ _ _

/-- **Without dot names** every file is read where it has been written. -/
theorem readBack_of_safe (h : ∀ p ∈ groupPaths files, ∀ s ∈ segments p, SafeSegment s) :
    ReadBack dir files := by
  have hpath : ∀ row ∈ uploadedRows files, row.1 ∈ groupPaths files := fun row hrow =>
    map_fst_uploadedRows files ▸ List.mem_map_of_mem hrow
  intro row hrow
  have hsafe := h row.1 (hpath row hrow)
  rw [readRow, sanitizeRelativePath_of_safe hsafe (nul_notMem_groupPaths (hpath row hrow)), place,
    walk_of_safe hsafe]
  exact diskAfter_of_safe (map_fst_uploadedRows files ▸ nodup_groupPaths files)
    (fun row hrow => h row.1 (hpath row hrow)) row hrow

end Local

/-! ## Both backends -/

/-- **The digest of an upload is found again** by the database backend exactly when the files were
uploaded in the order in which they are listed, and by the local backend when, besides, every file
is read where it has been written. -/
theorem groupDigest_agrees_iff (c : Collation) (dir : String) {files : List AssetUploadFile}
    (hlength : ∀ file ∈ files, file.bytes.length < 2 ^ 64) :
    (DatabaseAgrees c files ↔ InListingOrder c files) ∧
      (LocalAgrees c dir files ↔ InListingOrder c files ∧ ReadBack dir files) :=
  ⟨databaseAgrees_iff hlength, localAgrees_iff hlength⟩

/-- The order of the bytes. -/
def Collation.bytewise : Collation where
  le a b := utf8 a ≤ utf8 b
  le_trans a b c hab hbc := by
    rw [decide_eq_true_eq] at hab hbc ⊢
    exact List.le_trans hab hbc
  le_total a b := by
    rw [Bool.or_eq_true, decide_eq_true_eq, decide_eq_true_eq]
    exact List.le_total _ _

/-- Two files in the order of their names. -/
theorem groupDigest_agrees_iff_sorted :
    let files : List AssetUploadFile := [⟨"a", [1], "text/plain"⟩, ⟨"b", [2], "text/plain"⟩]
    DatabaseAgrees .bytewise files ∧ LocalAgrees .bytewise "group.tmp" files := by
  intro files
  have hpaths : groupPaths files = ["a", "b"] := by decide +kernel
  have hsorted : InListingOrder .bytewise files := by
    have hle : utf8 "a" ≤ utf8 "b" := by
      rw [utf8_eq, utf8_eq]
      decide
    rw [InListingOrder, hpaths, List.pairwise_pair]
    exact decide_eq_true hle
  have hread : ReadBack "group.tmp" files := by
    refine readBack_of_safe fun p hp s hs => ?_
    rw [hpaths, List.mem_cons, List.mem_singleton] at hp
    obtain rfl | rfl := hp
    · rw [segments_eq_singleton (by decide), List.mem_singleton] at hs
      subst hs
      exact ⟨by decide, by decide, by decide, by decide, by decide⟩
    · rw [segments_eq_singleton (by decide), List.mem_singleton] at hs
      subst hs
      exact ⟨by decide, by decide, by decide, by decide, by decide⟩
  have hboth := @groupDigest_agrees_iff .bytewise "group.tmp" files (by simp [files])
  exact ⟨hboth.1.mpr hsorted, hboth.2.mpr ⟨hsorted, hread⟩⟩

/-- Two files in the other order: neither backend finds the digest of the upload again. -/
theorem digest_lost_of_unsorted :
    let files : List AssetUploadFile := [⟨"b", [2], "text/plain"⟩, ⟨"a", [1], "text/plain"⟩]
    ¬ DatabaseAgrees .bytewise files ∧ ¬ LocalAgrees .bytewise "group.tmp" files := by
  intro files
  have hpaths : groupPaths files = ["b", "a"] := by decide +kernel
  have hunsorted : ¬ InListingOrder .bytewise files := by
    have hlt : ¬ utf8 "b" ≤ utf8 "a" := by
      rw [utf8_eq, utf8_eq]
      decide
    rw [InListingOrder, hpaths, List.pairwise_pair]
    exact fun h => hlt (of_decide_eq_true h)
  have hlength : ∀ file ∈ files, file.bytes.length < 2 ^ 64 := by simp [files]
  exact ⟨fun h => hunsorted ((databaseAgrees_iff hlength).mp h),
    fun h => hunsorted ((localAgrees_iff hlength).mp h).1⟩

end Storage
