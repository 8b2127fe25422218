import Mathlib.Algebra.Ring.Nat
import Mathlib.Data.List.AList
import Mathlib.Logic.Function.Basic
import RbphBackend.Paths.Naming
import RbphBackend.Storage.LocalStorage

set_option relaxedAutoImplicit false
set_option autoImplicit false

/-!
# Asset groups

The files of an archive are unpacked under sanitized paths and stored as a group. A path that is in
use already is given a number. Two backends store groups, the local one and the remote one; they
differ in how a file is written.

## Main definitions

* `Storage.unpackZipFilesLimited`, `Storage.uniquifyRelativePath`, `Storage.storeGroupFiles` —
  `module/storage.rs`.
* `Storage.copyName` — the paths a file may be stored at.

## Main results

* `Storage.stored_relativePath` — the paths of a stored group.
* `Storage.content_eq_iff` — what is stored at a path.
-/

namespace Storage

open Paths Naming

abbrev Bytes := List UInt8

def u64Max : ℕ := 18446744073709551615

/-! ## Unpacking -/

structure AssetUploadFile where
  relativePath : String
  bytes : Bytes
  mimeType : String
  deriving DecidableEq

/-- An entry of an archive; its declared size, and what is read of it when it can be read. -/
structure ZipFile where
  isDir : Bool := false
  size : ℕ
  enclosedName : Option String
  content : Except String Bytes

/-- The parts before and after the last occurrence of a character. -/
def rsplitOnce (c : Char) : List Char → Option (List Char × List Char)
  | [] => none
  | x :: xs =>
    match rsplitOnce c xs with
    | some (front, back) => some (x :: front, back)
    | none => if x = c then some ([], xs) else none

/-- `Path::extension`. -/
def extension (path : String) : Option String :=
  match (components path).getLast? with
  | some (.normal name) =>
    match rsplitOnce '.' name.toList with
    | some (stem, ext) => if stem = [] then none else some (String.ofList ext)
    | none => none
  | _ => none

def guessMimeType (ext : Option String) : String :=
  match String.ofList ((ext.getD "").toList.map Char.toLower) with
  | "png" => "image/png"
  | "jpg" | "jpeg" => "image/jpeg"
  | "gif" => "image/gif"
  | "webp" => "image/webp"
  | "svg" => "image/svg+xml"
  | "bmp" => "image/bmp"
  | "ico" => "image/x-icon"
  | "avif" => "image/avif"
  | "html" | "htm" => "text/html; charset=utf-8"
  | "css" => "text/css; charset=utf-8"
  | "js" | "mjs" => "text/javascript; charset=utf-8"
  | "json" => "application/json"
  | "txt" | "md" => "text/plain; charset=utf-8"
  | "xml" => "application/xml"
  | "wasm" => "application/wasm"
  | "pdf" => "application/pdf"
  | _ => "application/octet-stream"

/-- What is read of an entry: a byte more than it declares at most. -/
def ZipFile.read (file : ZipFile) (content : Bytes) : Bytes :=
  content.take (min (file.size + 1) u64Max)

/-- The loop of `unpack_zip_files_limited`, with the files and the number of bytes so far. -/
def unpackFrom (maxFileBytes maxGroupBytes maxFiles : ℕ) (files : List AssetUploadFile)
    (totalBytes : ℕ) : List (Except String ZipFile) → Except String (List AssetUploadFile)
  | [] => .ok files
  | .error e :: _ => .error e
  | .ok file :: rest =>
    if file.isDir then unpackFrom maxFileBytes maxGroupBytes maxFiles files totalBytes rest
    else if maxFiles ≤ files.length ∨ min maxFileBytes (maxGroupBytes - totalBytes) < file.size then
      .error "asset archive exceeds configured limits"
    else
      match file.enclosedName with
      | none => unpackFrom maxFileBytes maxGroupBytes maxFiles files totalBytes rest
      | some path =>
        let relativePath := sanitizeRelativePath path
        if relativePath = "" then
          unpackFrom maxFileBytes maxGroupBytes maxFiles files totalBytes rest
        else
          match file.content with
          | .error e => .error e
          | .ok content =>
            let bytes := file.read content
            if bytes.length ≠ file.size then .error "asset archive file exceeds configured limit"
            else
              let totalBytes := min (totalBytes + bytes.length) u64Max
              if maxGroupBytes < totalBytes then
                .error "asset archive exceeds configured group limit"
              else
                unpackFrom maxFileBytes maxGroupBytes maxFiles
                  (files ++ [⟨relativePath, bytes, guessMimeType (extension path)⟩]) totalBytes rest

def unpackZipFilesLimited (archive : List (Except String ZipFile))
    (maxFileBytes maxGroupBytes maxFiles : ℕ) : Except String (List AssetUploadFile) :=
  unpackFrom maxFileBytes maxGroupBytes maxFiles [] 0 archive

/-- The file an entry of an archive is unpacked to, limits aside. -/
def toUploadFile : Except String ZipFile → Option AssetUploadFile
  | .error _ => none
  | .ok file =>
    match file.enclosedName, file.content with
    | some path, .ok content =>
      if file.isDir then none
      else some ⟨sanitizeRelativePath path, file.read content, guessMimeType (extension path)⟩
    | _, _ => none

/-! ## Storing -/

abbrev UsedPaths := AList fun _ : String => ℕ

/-- A file name with a number before its extension. -/
def candidateFile (file : List Char) (current : ℕ) : List Char :=
  let (stem, ext) := match rsplitOnce '.' file with
    | some (stem, ext) => if stem ≠ [] ∧ ext ≠ [] then (stem, some ext) else (file, none)
    | none => (file, none)
  match ext with
  | some ext => stem ++ '_' :: Nat.toDigits 10 current ++ '.' :: ext
  | none => stem ++ '_' :: Nat.toDigits 10 current

/-- A path whose file name has been given a number. -/
def candidate (path : String) (current : ℕ) : String :=
  String.ofList <| match rsplitOnce '/' path.toList with
    | some (dir, file) => dir ++ '/' :: candidateFile file current
    | none => candidateFile path.toList current

/-- A path no file is stored at yet: the path itself, or the first candidate from the number of
files that have asked for it on. -/
def uniquifyRelativePath (path : String) (usedPaths : UsedPaths) : String × UsedPaths :=
  let count := (usedPaths.lookup path).getD 0
  if count = 0 then (path, usedPaths.insert path 1)
  else
    let usedPaths := usedPaths.insert path (count + 1)
    let name := firstFree candidate usedPaths.keys path usedPaths.keys.length count
    (name, usedPaths.insert name 1)

structure StoredAssetFile where
  relativePath : String
  size : ℕ
  sha256 : String
  mimeType : String
  path : String
  deriving DecidableEq

structure StoredAssetGroup where
  size : ℕ
  sha256 : String
  files : List StoredAssetFile
  deriving DecidableEq

def urlPathSegmentEncodeSet : AsciiSet :=
  (((nonAlphanumeric.remove '-').remove '.').remove '_').remove '~'

def buildPublicPath (objectKey originalName : String) : String :=
  "/assets/" ++ utf8PercentEncode objectKey urlPathSegmentEncodeSet ++ "/" ++
    "/".intercalate ((segments (sanitizeRelativePath originalName)).map fun segment =>
      utf8PercentEncode segment urlPathSegmentEncodeSet)

/-- The bytes of a number of 64 bits, the lowest one first. -/
def toLeBytes (n : ℕ) : Bytes := (List.range 8).map fun i => UInt8.ofNat (n >>> (8 * i))

lemma length_toLeBytes (n : ℕ) : (toLeBytes n).length = 8 := by
  rw [toLeBytes, List.length_map, List.length_range]

/-- Numbers whose lowest `k` bytes are the same agree modulo `256 ^ k`. -/
lemma mod_eq_of_bytes {m n k : ℕ} (h : ∀ i < k, m / 256 ^ i % 256 = n / 256 ^ i % 256) :
    m % 256 ^ k = n % 256 ^ k := by
  induction k with
  | zero => rw [pow_zero, Nat.mod_one, Nat.mod_one]
  | succ k ih =>
    rw [Nat.mod_pow_succ, Nat.mod_pow_succ, ih fun i hi => h i (by omega), h k (by omega)]

/-- A number of 64 bits is told by its bytes. -/
lemma toLeBytes_inj {m n : ℕ} (hm : m < 2 ^ 64) (hn : n < 2 ^ 64) (h : toLeBytes m = toLeBytes n) :
    m = n := by
  have hbytes : ∀ i < 8, m / 256 ^ i % 256 = n / 256 ^ i % 256 := by
    intro i hi
    have hbyte := List.map_inj_left.mp h i (List.mem_range.mpr hi)
    simpa only [← UInt8.toNat_inj, UInt8.toNat_ofNat', Nat.shiftRight_eq_div_pow, pow_mul,
      show 2 ^ 8 = 256 from rfl] using hbyte
  have hmod : m % 2 ^ 64 = n % 2 ^ 64 := mod_eq_of_bytes hbytes
  rwa [Nat.mod_eq_of_lt hm, Nat.mod_eq_of_lt hn] at hmod

/-- What `store_group_files` has done so far; `content` is what has been written. -/
structure GroupWriter where
  storedFiles : List StoredAssetFile := []
  usedPaths : UsedPaths := ∅
  groupHasher : Bytes := []
  groupSize : ℕ := 0
  content : String → Option Bytes := fun _ => none

section Store

variable (digest : Bytes → String) (put : String → Bytes → Bool) (objectKey : String)

/-- One file of `store_group_files`; `put` says whether it can be written. -/
def GroupWriter.storeFile (w : GroupWriter) (file : AssetUploadFile) : Option GroupWriter :=
  let (relativePath, usedPaths) :=
    uniquifyRelativePath (sanitizeRelativePath file.relativePath) w.usedPaths
  if put relativePath file.bytes then
    some
      { storedFiles := w.storedFiles ++ [
          { relativePath
            size := file.bytes.length
            sha256 := digest file.bytes
            mimeType := file.mimeType
            path := buildPublicPath objectKey relativePath }]
        usedPaths
        groupHasher := w.groupHasher ++ relativePath.toUTF8.toList ++ [0] ++
          toLeBytes file.bytes.length ++ file.bytes
        groupSize := w.groupSize + file.bytes.length
        content := Function.update w.content relativePath (some file.bytes) }
  else none

/-- The group, and what is stored at its paths. -/
def storeGroupFiles (files : List AssetUploadFile) :
    Option (StoredAssetGroup × (String → Option Bytes)) :=
  (files.foldlM (GroupWriter.storeFile digest put objectKey) {}).map fun w =>
    (⟨w.groupSize, digest w.groupHasher, w.storedFiles⟩, w.content)

end Store

/-- The paths a file may be stored at, in order. -/
def copyName (path : String) : ℕ → String
  | 0 => path
  | current + 1 => candidate path (current + 1)

/-- The paths the files of a group ask for. -/
def requestedPaths (files : List AssetUploadFile) : List String :=
  files.map fun file => sanitizeRelativePath file.relativePath

/-! ## The numbered paths -/

lemma rsplitOnce_eq {c : Char} {s front back : List Char}
    (h : rsplitOnce c s = some (front, back)) : s = front ++ c :: back := by
  induction s generalizing front with
  | nil => cases h
  | cons x xs ih =>
    rw [rsplitOnce] at h
    split at h
    · rename_i hxs
      cases h
      rw [ih hxs, List.cons_append]
    · split_ifs at h with hx
      cases h
      rw [hx, List.nil_append]

lemma candidateFile_eq (file : List Char) : ∃ front back, file = front ++ back ∧
    ∀ k, candidateFile file k = front ++ '_' :: Nat.toDigits 10 k ++ back := by
  cases hdot : rsplitOnce '.' file with
  | none => exact ⟨file, [], (List.append_nil file).symm, fun k => by simp [candidateFile, hdot]⟩
  | some parts =>
    obtain ⟨stem, ext⟩ := parts
    by_cases hne : stem ≠ [] ∧ ext ≠ []
    · exact ⟨stem, '.' :: ext, rsplitOnce_eq hdot, fun k => by
        simp only [candidateFile, hdot, if_pos hne]⟩
    · exact ⟨file, [], (List.append_nil file).symm, fun k => by
        simp only [candidateFile, hdot, if_neg hne, List.append_nil]⟩

/-- A number is put into a path at one place, with an underscore. -/
lemma candidate_toList (path : String) : ∃ front back, path.toList = front ++ back ∧
    ∀ k, (candidate path k).toList = front ++ '_' :: Nat.toDigits 10 k ++ back := by
  cases hdir : rsplitOnce '/' path.toList with
  | none =>
    obtain ⟨front, back, hsplit, hnum⟩ := candidateFile_eq path.toList
    exact ⟨front, back, hsplit, fun k => by simp only [candidate, hdir, String.toList_ofList, hnum]⟩
  | some parts =>
    obtain ⟨dir, file⟩ := parts
    obtain ⟨front, back, hsplit, hnum⟩ := candidateFile_eq file
    refine ⟨dir ++ '/' :: front, back, ?_, fun k => ?_⟩
    · rw [rsplitOnce_eq hdir, hsplit, List.append_assoc, List.cons_append]
    · simp only [candidate, hdir, String.toList_ofList, hnum, List.append_assoc, List.cons_append]

lemma candidate_injective (path : String) : Function.Injective (candidate path) := by
  obtain ⟨front, back, -, hnum⟩ := candidate_toList path
  intro k l h
  have hlist := congrArg String.toList h
  rw [hnum, hnum, List.append_left_inj, List.append_right_inj, List.cons.injEq] at hlist
  calc k = Nat.ofDigitChars 10 (Nat.toDigits 10 k) 0 := Nat.ofDigitChars_ten_toDigits.symm
    _ = Nat.ofDigitChars 10 (Nat.toDigits 10 l) 0 := by rw [hlist.2]
    _ = l := Nat.ofDigitChars_ten_toDigits

lemma candidate_ne_self (path : String) (k : ℕ) : candidate path k ≠ path := by
  obtain ⟨front, back, hsplit, hnum⟩ := candidate_toList path
  intro h
  have hlist := congrArg (fun s => s.toList.length) h
  simp only [hnum, hsplit, List.length_append, List.length_cons] at hlist
  omega

/-- **The paths a file may be stored at are distinct.** -/
lemma copyName_injective (path : String) : Function.Injective (copyName path) := by
  intro k l h
  match k, l with
  | 0, 0 => rfl
  | 0, l + 1 => exact absurd h.symm (candidate_ne_self path (l + 1))
  | k + 1, 0 => exact absurd h (candidate_ne_self path (k + 1))
  | k + 1, l + 1 => exact candidate_injective path h

lemma copyName_of_pos {path : String} {k : ℕ} (h : 1 ≤ k) : copyName path k = candidate path k := by
  obtain ⟨l, rfl⟩ := Nat.exists_eq_succ_of_ne_zero (Nat.one_le_iff_ne_zero.mp h)
  rfl

/-! ## Unique paths -/

section Uniquify

variable {given : List String} {used : UsedPaths} {path : String}

/-- The map has the paths in use; a file that asks for one need not look below its count. -/
structure UsedBy (given : List String) (used : UsedPaths) : Prop where
  mem : ∀ p, p ∈ used ↔ p ∈ given
  count : ∀ p c, used.lookup p = some c → 1 ≤ c ∧ ∀ l < c, copyName p l ∈ given

lemma usedBy_empty : UsedBy [] ∅ where
  mem p := by simp
  count p c h := by simp at h

/-- A path that is given away has been asked for once. -/
lemma UsedBy.insert (h : UsedBy given used) (p : String) :
    UsedBy (given ++ [p]) (used.insert p 1) where
  mem q := by rw [AList.mem_insert, h.mem, List.mem_append, List.mem_singleton, or_comm]
  count q c hc := by
    by_cases hq : q = p
    · subst hq
      rw [AList.lookup_insert, Option.some.injEq] at hc
      subst hc
      refine ⟨le_rfl, fun l hl => ?_⟩
      obtain rfl : l = 0 := by omega
      exact List.mem_append_right _ List.mem_cons_self
    · rw [AList.lookup_insert_ne hq] at hc
      exact ⟨(h.count q c hc).1, fun l hl => List.mem_append_left _ ((h.count q c hc).2 l hl)⟩

/-- **A path is made unique** by taking the first name that is free. -/
lemma uniquifyRelativePath_spec (path : String) (h : UsedBy given used) :
    (uniquifyRelativePath path used).1 = fresh copyName given path ∧
      UsedBy (given ++ [fresh copyName given path]) (uniquifyRelativePath path used).2 := by
  have hinj := copyName_injective path
  rw [uniquifyRelativePath]
  cases hcount : used.lookup path with
  | none =>
    have hfree : path ∉ given := by
      rw [← h.mem]
      exact AList.lookup_eq_none.mp hcount
    have hname : fresh copyName given path = path := fresh_eq_self hinj rfl hfree
    rw [hname]
    exact ⟨rfl, h.insert path⟩
  | some count =>
    obtain ⟨hpos, hbelow⟩ := h.count path count hcount
    simp only [Option.getD_some, if_neg (show count ≠ 0 by omega)]
    set counted := used.insert path (count + 1) with hcounted
    have hmem : ∀ p, p ∈ counted.keys ↔ p ∈ given := by
      intro p
      rw [← AList.mem_keys, hcounted, AList.mem_insert, ← h.mem]
      refine or_iff_right_of_imp fun hp => ?_
      rw [hp, ← AList.lookup_isSome, hcount]
      rfl
    obtain ⟨m, hm, hname, hfree, hpassed⟩ :=
      firstFree_spec counted.keys (candidate_injective path) le_rfl count
    have hcopy : copyName path m = candidate path m := copyName_of_pos (by omega)
    -- what is below the count is in use, and so is what the loop has passed by
    have hfresh : fresh copyName given path = candidate path m := by
      rw [← hcopy]
      refine fresh_eq hinj (by rwa [hcopy, ← hmem]) fun l hl => ?_
      by_cases hlc : l < count
      · exact hbelow l hlc
      · rw [copyName_of_pos (by omega), ← hmem]
        exact hpassed l (by omega) hl
    have hcounted_le : ∀ l < count + 1, copyName path l ∈ given ++ [candidate path m] := by
      intro l hl
      rw [List.mem_append, List.mem_singleton]
      obtain hlt | rfl := Nat.lt_succ_iff_lt_or_eq.mp hl
      · exact .inl (hbelow l hlt)
      · rw [copyName_of_pos hpos]
        obtain rfl | hlm := hm.eq_or_lt
        · exact .inr rfl
        · exact .inl ((hmem _).mp (hpassed l le_rfl hlm))
    rw [hname, hfresh]
    refine ⟨rfl, fun p => ?_, fun p c hc => ?_⟩
    · rw [AList.mem_insert, AList.mem_keys, hmem, List.mem_append, List.mem_singleton, or_comm]
    · by_cases hp : p = candidate path m
      · have hone := (usedBy_empty.insert p).count p 1 (AList.lookup_insert _)
        rw [hp, AList.lookup_insert, Option.some.injEq] at hc
        subst hc
        exact ⟨le_rfl, fun l hl => List.mem_append_right _ (hp ▸ hone.2 l hl)⟩
      rw [AList.lookup_insert_ne hp] at hc
      by_cases hpath : p = path
      · subst hpath
        rw [hcounted, AList.lookup_insert, Option.some.injEq] at hc
        subst hc
        exact ⟨by omega, hcounted_le⟩
      · rw [hcounted, AList.lookup_insert_ne hpath] at hc
        exact ⟨(h.count p c hc).1, fun l hl => List.mem_append_left _ ((h.count p c hc).2 l hl)⟩

end Uniquify

/-! ## What a group holds -/

section Store

variable {digest : Bytes → String} {put : String → Bytes → Bool} {objectKey : String}
  {w w' : GroupWriter} {files : List AssetUploadFile} {file : AssetUploadFile}

/-- The paths of the files of a group. -/
def groupPaths (files : List AssetUploadFile) : List String := names copyName (requestedPaths files)

lemma length_groupPaths : (groupPaths files).length = files.length := by
  rw [groupPaths, length_names, requestedPaths, List.length_map]

lemma nodup_groupPaths (files : List AssetUploadFile) : (groupPaths files).Nodup :=
  nodup_names copyName_injective

lemma groupPaths_concat : groupPaths (files ++ [file]) = groupPaths files ++
    [fresh copyName (groupPaths files) (sanitizeRelativePath file.relativePath)] := by
  rw [groupPaths, requestedPaths, List.map_append, names, namesFrom_append, List.nil_append]
  rfl

/-- What has been written after some of the files. -/
structure GroupWriter.Wrote (w : GroupWriter) (files : List AssetUploadFile) : Prop where
  storedFiles : w.storedFiles.map (·.relativePath) = groupPaths files
  usedPaths : UsedBy (groupPaths files) w.usedPaths
  content : ∀ p b, w.content p = some b ↔ (p, b) ∈ (groupPaths files).zip (files.map (·.bytes))

lemma GroupWriter.wrote_nil : GroupWriter.Wrote {} [] where
  storedFiles := rfl
  usedPaths := usedBy_empty
  content p b := by simp

/-- A file is written at a path of its own. -/
lemma GroupWriter.Wrote.storeFile (h : w.Wrote files)
    (hstore : w.storeFile digest put objectKey file = some w') : w'.Wrote (files ++ [file]) := by
  obtain ⟨hname, hused⟩ :=
    uniquifyRelativePath_spec (sanitizeRelativePath file.relativePath) h.usedPaths
  rw [GroupWriter.storeFile] at hstore
  simp only [hname] at hstore
  set name := fresh copyName (groupPaths files) (sanitizeRelativePath file.relativePath) with hfresh
  have hpaths : groupPaths (files ++ [file]) = groupPaths files ++ [name] := groupPaths_concat
  have hnew : name ∉ groupPaths files := fresh_notMem (copyName_injective _)
  split_ifs at hstore
  rw [Option.some.injEq] at hstore
  subst hstore
  have hlen : (groupPaths files).length = (files.map (·.bytes)).length := by
    rw [length_groupPaths, List.length_map]
  refine ⟨?_, hpaths ▸ hused, fun p b => ?_⟩
  · rw [List.map_append, h.storedFiles, hpaths]
    rfl
  · rw [hpaths, List.map_append, List.zip_append hlen, List.mem_append, ← h.content]
    simp only [List.map_cons, List.map_nil, List.zip_cons_cons, List.zip_nil_left,
      List.mem_singleton, Prod.mk.injEq]
    by_cases hp : p = name
    · have hold : w.content p ≠ some b := by
        rw [Ne, h.content, hp]
        exact fun hmem => hnew (List.of_mem_zip hmem).1
      rw [hp] at hold ⊢
      rw [Function.update_self, Option.some.injEq]
      exact ⟨fun hb => .inr ⟨rfl, hb.symm⟩, fun hb => ((hb.resolve_left hold).2).symm⟩
    · rw [Function.update_of_ne hp]
      exact ⟨.inl, fun hb => hb.resolve_right fun hb => hp hb.1⟩

lemma GroupWriter.Wrote.storeFiles {rest : List AssetUploadFile} (h : w.Wrote files)
    (hstore : rest.foldlM (GroupWriter.storeFile digest put objectKey) w = some w') :
    w'.Wrote (files ++ rest) := by
  induction rest generalizing w files with
  | nil =>
    rw [List.foldlM_nil] at hstore
    cases hstore
    rwa [List.append_nil]
  | cons file rest ih =>
    rw [List.foldlM_cons] at hstore
    obtain ⟨w₁, hfile, hrest⟩ := Option.bind_eq_some_iff.mp hstore
    have hall := ih (h.storeFile hfile) hrest
    rwa [List.append_assoc, List.singleton_append] at hall

variable {group : StoredAssetGroup} {content : String → Option Bytes}

lemma exists_wrote (h : storeGroupFiles digest put objectKey files = some (group, content)) :
    ∃ w : GroupWriter, w.Wrote files ∧ w.storedFiles = group.files ∧ w.content = content := by
  rw [storeGroupFiles, Option.map_eq_some_iff] at h
  obtain ⟨w, hw, heq⟩ := h
  cases heq
  exact ⟨w, GroupWriter.wrote_nil.storeFiles hw, rfl, rfl⟩

/-- **The paths of a stored group** are those asked for, with the first number that is free where
one is taken already. -/
theorem stored_relativePath
    (h : storeGroupFiles digest put objectKey files = some (group, content)) :
    group.files.map (·.relativePath) = groupPaths files := by
  obtain ⟨w, hw, hfiles, -⟩ := exists_wrote h
  rw [← hfiles, hw.storedFiles]

/-- **What is stored at a path** are the bytes of the file that has been given it. -/
theorem content_eq_iff (h : storeGroupFiles digest put objectKey files = some (group, content))
    {p : String} {b : Bytes} :
    content p = some b ↔ (p, b) ∈ (groupPaths files).zip (files.map (·.bytes)) := by
  obtain ⟨w, hw, -, hcontent⟩ := exists_wrote h
  rw [← hcontent, hw.content]

lemma content_of_getElem? (h : storeGroupFiles digest put objectKey files = some (group, content))
    {p : String} {i : ℕ} (hfile : files[i]? = some file) (hpath : (groupPaths files)[i]? = some p) :
    content p = some file.bytes := by
  rw [content_eq_iff h, List.mem_iff_getElem?]
  exact ⟨i, List.getElem?_zip_eq_some.mpr ⟨hpath, by rw [List.getElem?_map, hfile]; rfl⟩⟩

end Store

/-! ## What is unpacked -/

lemma sanitizeRelativePath_ne_empty (value : String) : sanitizeRelativePath value ≠ "" := by
  intro h
  have hsegs := segments_sanitizeRelativePath value
  rw [h, segments_eq_singleton (s := "") (by simp)] at hsegs
  split_ifs at hsegs with hparts
  · exact absurd (List.head_eq_of_cons_eq hsegs) (by decide)
  · have hmem : "" ∈ sanitizedParts value := hsegs ▸ List.mem_cons_self
    obtain ⟨part, -, hpart⟩ := mem_sanitizedParts.mp hmem
    exact sanitizeFilename_ne_empty part hpart

lemma sanitizeFilename_sanitizeFilename (value : String) :
    sanitizeFilename (sanitizeFilename value) = sanitizeFilename value := by
  by_cases h : sanitizeFilename value = "file"
  · rw [h]
    decide
  · unfold sanitizeFilename at h ⊢
    dsimp only at h ⊢
    split at h
    · exact absurd rfl h
    · rename_i hne
      rw [if_neg hne, String.toList_ofList, List.filter_filter]
      simp only [Bool.and_self]
      rw [if_neg hne]

/-- A sanitized path without empty and dot names is left as it is. -/
lemma sanitizeRelativePath_eq_self {value path : String} (hpath : sanitizeRelativePath value = path)
    (h : ∀ s ∈ segments path, s ≠ "" ∧ s ≠ "." ∧ s ≠ "..") : sanitizeRelativePath path = path := by
  have hsegs := segments_sanitizeRelativePath value
  rw [hpath] at hsegs
  by_cases hparts : sanitizedParts value = []
  · rw [sanitizeRelativePath, if_pos hparts] at hpath
    subst hpath
    decide +kernel
  rw [if_neg hparts] at hsegs
  -- every name is a component, and sanitized already
  have hlead : leading path = [] := by
    have habs : ¬ IsAbsolute path := hpath ▸ not_isAbsolute_sanitizeRelativePath value
    rw [leading, if_neg habs, if_neg]
    intro hhead
    exact (h "." (List.mem_of_head? hhead)).2.1 rfl
  have hcomps : components path = (segments path).map .normal := by
    rw [components, hlead, List.nil_append, ← List.filterMap_eq_map]
    refine List.filterMap_congr fun s hs => ?_
    exact Component.ofSegment?_eq_normal.mpr ⟨rfl, h s hs⟩
  have hnames : sanitizedParts path = segments path := by
    rw [sanitizedParts, hcomps, List.filterMap_map]
    conv_rhs => rw [← List.filterMap_some (l := segments path)]
    refine List.filterMap_congr fun s hs => ?_
    rw [hsegs] at hs
    obtain ⟨part, -, rfl⟩ := mem_sanitizedParts.mp hs
    simp only [Function.comp_apply, sanitizeFilename_sanitizeFilename, sanitizeFilename_ne_empty,
      if_false]
  rw [sanitizeRelativePath, hnames, if_neg (segments_ne_nil path), hsegs, ← hpath,
    sanitizeRelativePath, if_neg hparts]

/-- An accepted entry that is neither a directory nor without a name. -/
lemma toUploadFile_ok {file : ZipFile} {path : String} {content : Bytes}
    (hdir : ¬ file.isDir = true) (hname : file.enclosedName = some path)
    (hcontent : file.content = .ok content) :
    toUploadFile (.ok file) = some
      ⟨sanitizeRelativePath path, file.read content, guessMimeType (extension path)⟩ := by
  rw [toUploadFile, hname, hcontent]
  exact if_neg hdir

lemma unpackFrom_eq {maxFileBytes maxGroupBytes maxFiles totalBytes : ℕ}
    {files unpacked : List AssetUploadFile} {archive : List (Except String ZipFile)}
    (h : unpackFrom maxFileBytes maxGroupBytes maxFiles files totalBytes archive = .ok unpacked) :
    unpacked = files ++ archive.filterMap toUploadFile := by
  induction archive generalizing files totalBytes with
  | nil =>
    rw [unpackFrom] at h
    cases h
    rw [List.filterMap_nil, List.append_nil]
  | cons entry rest ih =>
    cases entry with
    | error e => cases h
    | ok file =>
      rw [unpackFrom] at h
      split_ifs at h with hdir hlimit
      · have hskip : toUploadFile (.ok file) = none := by
          rw [toUploadFile]
          split <;> simp [hdir]
        rw [ih h, List.filterMap_cons_none hskip]
      · cases hname : file.enclosedName with
        | none =>
          have hskip : toUploadFile (.ok file) = none := by rw [toUploadFile, hname]
          rw [hname] at h
          rw [ih h, List.filterMap_cons_none hskip]
        | some path =>
          rw [hname] at h
          simp only [if_neg (sanitizeRelativePath_ne_empty path)] at h
          cases hcontent : file.content with
          | error e => rw [hcontent] at h; cases h
          | ok content =>
            rw [hcontent] at h
            dsimp only at h
            split_ifs at h with hsize htotal
            rw [ih h, List.filterMap_cons_some (toUploadFile_ok hdir hname hcontent),
              List.append_assoc, List.singleton_append]

/-- **What is unpacked** are the files of the entries, in their order. -/
theorem unpackZipFilesLimited_eq {maxFileBytes maxGroupBytes maxFiles : ℕ}
    {unpacked : List AssetUploadFile} {archive : List (Except String ZipFile)}
    (h : unpackZipFilesLimited archive maxFileBytes maxGroupBytes maxFiles = .ok unpacked) :
    unpacked = archive.filterMap toUploadFile := by
  rw [unpackZipFilesLimited] at h
  rw [unpackFrom_eq h, List.nil_append]

end Storage
