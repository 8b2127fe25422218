import RbphBackend.Storage.Groups

set_option relaxedAutoImplicit false
set_option autoImplicit false

/-!
# Unpacking within limits

An archive says how large its entries are, and its reader delivers what it likes. The loop of
`unpack_zip_files_limited` is run here with a record of what is read of every entry, read by read,
and of the bytes that were left for the group when the entry was opened.

## Main definitions

* `Storage.ZipReader` — an entry as its reader delivers it.
* `Storage.unpackReading`, `Storage.unpackArchive` — the loop with its record.
* `Storage.WithinLimits` — what the limits are to keep.

## Main results

* `Storage.unpackArchive_snd` — the record changes nothing.
* `Storage.withinLimits_unpackArchive` — the limits are kept, whatever is delivered.
-/

namespace Storage

/-! ## Readers -/

/-- An entry of an archive; its reader delivers some chunks, and then ends or fails. -/
structure ZipReader where
  isDir : Bool := false
  size : ℕ
  enclosedName : Option String
  chunks : List Bytes
  failure : Option String := none

/-- What is read of some chunks by one who stops after a number of bytes. -/
def takeChunks : ℕ → List Bytes → List Bytes
  | _, [] => []
  | limit, chunk :: chunks =>
    if limit = 0 then [] else chunk.take limit :: takeChunks (limit - chunk.length) chunks

namespace ZipReader

/-- The bytes that may be read of an entry: one more than it declares. -/
def limit (entry : ZipReader) : ℕ := min (entry.size + 1) u64Max

/-- What is read of an entry, read by read. -/
def reads (entry : ZipReader) : List Bytes := takeChunks entry.limit entry.chunks

/-- `read_to_end` of an entry. A failure is met by who reads on after the last chunk. -/
def readToEnd (entry : ZipReader) : Except String Bytes :=
  match entry.failure with
  | some e =>
    if entry.chunks.flatten.length < entry.limit then .error e else .ok entry.reads.flatten
  | none => .ok entry.reads.flatten

/-- The entry with what it delivers in one piece. -/
def file (entry : ZipReader) : ZipFile where
  isDir := entry.isDir
  size := entry.size
  enclosedName := entry.enclosedName
  content := match entry.failure with
    | some e => if entry.chunks.flatten.length < entry.limit then .error e
      else .ok entry.chunks.flatten
    | none => .ok entry.chunks.flatten

end ZipReader

/-- What has been read of an entry, and the bytes that were left for the group. -/
structure Reading where
  remainingBytes : ℕ
  reads : List Bytes

/-- The number of bytes read. -/
def Reading.size (reading : Reading) : ℕ := reading.reads.flatten.length

/-! ## The loop -/

/-- The loop of `unpack_zip_files_limited`, with what it reads. -/
def unpackReading (maxFileBytes maxGroupBytes maxFiles : ℕ) (files : List AssetUploadFile)
    (totalBytes : ℕ) :
    List (Except String ZipReader) → List Reading × Except String (List AssetUploadFile)
  | [] => ([], .ok files)
  | .error e :: _ => ([], .error e)
  | .ok entry :: rest =>
    let remainingBytes := maxGroupBytes - totalBytes
    if entry.isDir then unpackReading maxFileBytes maxGroupBytes maxFiles files totalBytes rest
    else if maxFiles ≤ files.length ∨ min maxFileBytes remainingBytes < entry.size then
      ([], .error "asset archive exceeds configured limits")
    else
      match entry.enclosedName with
      | none => unpackReading maxFileBytes maxGroupBytes maxFiles files totalBytes rest
      | some path =>
        let relativePath := sanitizeRelativePath path
        if relativePath = "" then
          unpackReading maxFileBytes maxGroupBytes maxFiles files totalBytes rest
        else
          let reading : Reading := ⟨remainingBytes, entry.reads⟩
          match entry.readToEnd with
          | .error e => ([reading], .error e)
          | .ok bytes =>
            if bytes.length ≠ entry.size then
              ([reading], .error "asset archive file exceeds configured limit")
            else
              let totalBytes := min (totalBytes + bytes.length) u64Max
              if maxGroupBytes < totalBytes then
                ([reading], .error "asset archive exceeds configured group limit")
              else
                let (readings, result) := unpackReading maxFileBytes maxGroupBytes maxFiles
                  (files ++ [⟨relativePath, bytes, guessMimeType (extension path)⟩]) totalBytes rest
                (reading :: readings, result)

section Archive

variable (openArchive : Bytes → Except String (List (Except String ZipReader))) (bytes : Bytes)
  (maxFileBytes maxGroupBytes : UInt64) (maxFiles : ℕ)

/-- `unpack_zip_files_limited`, with what it reads; the entries of the bytes are those that the
reader of archives finds there. -/
def unpackArchive : List Reading × Except String (List AssetUploadFile) :=
  match openArchive bytes with
  | .error e => ([], .error e)
  | .ok archive =>
    unpackReading maxFileBytes.toNat maxGroupBytes.toNat maxFiles [] 0 archive

/-- A file is what its entry delivers: as much as declared, under a sanitized path. -/
structure Unpacks (entry : ZipReader) (file : AssetUploadFile) : Prop where
  isDir : entry.isDir = false
  length : file.bytes.length = entry.size
  bytes : file.bytes = entry.reads.flatten
  relativePath : ∃ path, entry.enclosedName = some path ∧
    file.relativePath = sanitizeRelativePath path

/-- The limits are kept by the files that are returned, and by all that is read up to any point
of a run, whether or not it returns files. -/
structure WithinLimits (run : List Reading × Except String (List AssetUploadFile)) : Prop where
  count : ∀ files, run.2 = .ok files → files.length ≤ maxFiles
  fileBytes : ∀ files, run.2 = .ok files → ∀ file ∈ files,
    file.bytes.length ≤ maxFileBytes.toNat
  groupBytes : ∀ files, run.2 = .ok files →
    (files.map fun file => file.bytes.length).sum ≤ maxGroupBytes.toNat
  entries : ∀ files, run.2 = .ok files → ∃ (archive : List (Except String ZipReader))
    (entries : List ZipReader), openArchive bytes = .ok archive ∧
      (entries.map Except.ok).Sublist archive ∧ List.Forall₂ Unpacks entries files
  remaining : ∀ before reading after, run.1 = before ++ reading :: after →
    (before.map Reading.size).sum + reading.remainingBytes = maxGroupBytes.toNat
  read : ∀ reading ∈ run.1, ∀ reads, reads <+: reading.reads →
    reads.flatten.length ≤ reading.remainingBytes + 1

end Archive

/-! ## Reading -/

section Reading

variable {entry : ZipReader} {content : Bytes}

lemma flatten_takeChunks (limit : ℕ) (chunks : List Bytes) :
    (takeChunks limit chunks).flatten = chunks.flatten.take limit := by
  induction chunks generalizing limit with
  | nil => rw [takeChunks, List.flatten_nil, List.take_nil]
  | cons chunk chunks ih =>
    rw [takeChunks, List.flatten_cons, List.take_append]
    split_ifs with hlimit
    · rw [hlimit, List.take_zero, Nat.zero_sub, List.take_zero]
      rfl
    · rw [List.flatten_cons, ih]

lemma flatten_reads (entry : ZipReader) :
    entry.reads.flatten = entry.chunks.flatten.take (min (entry.size + 1) u64Max) :=
  flatten_takeChunks entry.limit entry.chunks

/-- At no point of an entry has more been read than it declares, and a byte. -/
lemma length_flatten_prefix_le {reads : List Bytes} (h : reads <+: entry.reads) :
    reads.flatten.length ≤ entry.size + 1 := by
  obtain ⟨rest, hrest⟩ := h
  have hlen := congrArg (fun reads => reads.flatten.length) hrest
  simp only [List.flatten_append, List.length_append, flatten_reads, List.length_take] at hlen
  omega

lemma readToEnd_eq_ok (h : entry.readToEnd = .ok content) : content = entry.reads.flatten := by
  rw [ZipReader.readToEnd] at h
  split at h
  · split_ifs at h
    cases h
    rfl
  · cases h
    rfl

/-- What is read in chunks is what is read in one piece. -/
lemma readToEnd_eq (entry : ZipReader) :
    entry.readToEnd = entry.file.content.map entry.file.read := by
  have hread : ∀ content, entry.file.read content = content.take (min (entry.size + 1) u64Max) :=
    fun content => rfl
  have hok : Except.ok (ε := String) entry.reads.flatten =
      (Except.ok entry.chunks.flatten).map entry.file.read := by
    rw [Except.map, hread, flatten_reads]
  rw [ZipReader.readToEnd, ZipReader.file.eq_def]
  cases entry.failure with
  | none => exact hok
  | some e =>
    dsimp only
    split_ifs
    · rfl
    · exact hok

end Reading

/-! ## A run of the loop -/

section Loop

variable {maxFileBytes maxGroupBytes maxFiles totalBytes : ℕ}
  {files unpacked : List AssetUploadFile} {file : AssetUploadFile} {entry : ZipReader}
  {archive rest : List (Except String ZipReader)}

/-- The loop returns what it returns without a record. -/
lemma unpackReading_snd :
    (unpackReading maxFileBytes maxGroupBytes maxFiles files totalBytes archive).2 =
      unpackFrom maxFileBytes maxGroupBytes maxFiles files totalBytes
        (archive.map fun entry => entry.map ZipReader.file) := by
  induction archive generalizing files totalBytes with
  | nil => rfl
  | cons entry rest ih =>
    cases entry with
    | error e => rfl
    | ok entry =>
      have hdir : entry.file.isDir = entry.isDir := rfl
      have hsize : entry.file.size = entry.size := rfl
      have hname : entry.file.enclosedName = entry.enclosedName := rfl
      rw [unpackReading, List.map_cons, Except.map, unpackFrom, readToEnd_eq, hdir, hsize, hname]
      dsimp only
      split_ifs
      · exact ih
      · rfl
      · cases entry.enclosedName with
        | none => exact ih
        | some path =>
          dsimp only
          rw [if_neg (sanitizeRelativePath_ne_empty path),
            if_neg (sanitizeRelativePath_ne_empty path)]
          cases entry.file.content with
          | error e => rfl
          | ok content =>
            simp only [Except.map]
            split_ifs
            · rfl
            · rfl
            · exact ih

/-- The entry is within the limits. -/
structure Fits (maxFileBytes maxGroupBytes maxFiles totalBytes : ℕ) (files : List AssetUploadFile)
    (entry : ZipReader) : Prop where
  count : files.length < maxFiles
  fileBytes : entry.size ≤ maxFileBytes
  groupBytes : entry.size ≤ maxGroupBytes - totalBytes

/-- What an entry does: it stops the loop or is skipped before it is read; or it is within the
limits, is read, and stops the loop or is unpacked. -/
lemma unpackReading_cons (maxFileBytes maxGroupBytes maxFiles : ℕ) (files : List AssetUploadFile)
    (totalBytes : ℕ) (entry : ZipReader) (rest : List (Except String ZipReader)) :
    (∃ e, unpackReading maxFileBytes maxGroupBytes maxFiles files totalBytes (.ok entry :: rest) =
      ([], .error e)) ∨
    unpackReading maxFileBytes maxGroupBytes maxFiles files totalBytes (.ok entry :: rest) =
      unpackReading maxFileBytes maxGroupBytes maxFiles files totalBytes rest ∨
    (Fits maxFileBytes maxGroupBytes maxFiles totalBytes files entry ∧
      ((∃ e, unpackReading maxFileBytes maxGroupBytes maxFiles files totalBytes
          (.ok entry :: rest) = ([⟨maxGroupBytes - totalBytes, entry.reads⟩], .error e)) ∨
        ∃ file, Unpacks entry file ∧
          unpackReading maxFileBytes maxGroupBytes maxFiles files totalBytes (.ok entry :: rest) =
            (⟨maxGroupBytes - totalBytes, entry.reads⟩ ::
                (unpackReading maxFileBytes maxGroupBytes maxFiles (files ++ [file])
                  (min (totalBytes + file.bytes.length) u64Max) rest).1,
              (unpackReading maxFileBytes maxGroupBytes maxFiles (files ++ [file])
                (min (totalBytes + file.bytes.length) u64Max) rest).2))) := by
  rw [unpackReading]
  dsimp only
  split_ifs with hdir hlimit
  · exact .inr (.inl rfl)
  · exact .inl ⟨_, rfl⟩
  · obtain ⟨hcount, hsize⟩ := not_or.mp hlimit
    rw [not_le] at hcount
    rw [not_lt, Nat.le_min] at hsize
    have hfits : Fits maxFileBytes maxGroupBytes maxFiles totalBytes files entry :=
      ⟨hcount, hsize.1, hsize.2⟩
    cases hname : entry.enclosedName with
    | none => exact .inr (.inl rfl)
    | some path =>
      dsimp only
      rw [if_neg (sanitizeRelativePath_ne_empty path)]
      refine .inr (.inr ⟨hfits, ?_⟩)
      cases hread : entry.readToEnd with
      | error e => exact .inl ⟨e, rfl⟩
      | ok bytes =>
        dsimp only
        split_ifs with hlength htotal
        · exact .inl ⟨_, rfl⟩
        · exact .inl ⟨_, rfl⟩
        · refine .inr ⟨⟨sanitizeRelativePath path, bytes, guessMimeType (extension path)⟩, ?_, rfl⟩
          exact ⟨by simpa using hdir, not_not.mp hlength, readToEnd_eq_ok hread, path, hname, rfl⟩

/-- The files that have been unpacked are within the limits, and their bytes are counted. -/
structure Kept (maxFileBytes maxGroupBytes maxFiles : ℕ) (files : List AssetUploadFile)
    (totalBytes : ℕ) : Prop where
  count : files.length ≤ maxFiles
  fileBytes : ∀ file ∈ files, file.bytes.length ≤ maxFileBytes
  total : (files.map fun file => file.bytes.length).sum = totalBytes
  groupBytes : totalBytes ≤ maxGroupBytes

/-- A file that fits is counted in full. -/
lemma Kept.concat (h : Kept maxFileBytes maxGroupBytes maxFiles files totalBytes)
    (hmax : maxGroupBytes ≤ u64Max)
    (hfits : Fits maxFileBytes maxGroupBytes maxFiles totalBytes files entry)
    (hfile : file.bytes.length = entry.size) :
    min (totalBytes + file.bytes.length) u64Max = totalBytes + entry.size ∧
      Kept maxFileBytes maxGroupBytes maxFiles (files ++ [file]) (totalBytes + entry.size) := by
  have hgroup := h.groupBytes
  have hfit := hfits.groupBytes
  refine ⟨by omega, ?_, ?_, ?_, by omega⟩
  · rw [List.length_append, List.length_singleton]
    exact hfits.count
  · intro f hf
    rcases List.mem_append.mp hf with hold | hnew
    · exact h.fileBytes f hold
    · rw [List.mem_singleton.mp hnew, hfile]
      exact hfits.fileBytes
  · rw [List.map_append, List.sum_append, h.total, List.map_singleton, List.sum_singleton, hfile]

/-- **What the loop returns** are files of some entries, within the limits. -/
lemma unpackReading_ok (hmax : maxGroupBytes ≤ u64Max)
    (h : Kept maxFileBytes maxGroupBytes maxFiles files totalBytes)
    (hrun : (unpackReading maxFileBytes maxGroupBytes maxFiles files totalBytes archive).2 =
      .ok unpacked) :
    (∃ total, Kept maxFileBytes maxGroupBytes maxFiles unpacked total) ∧
      ∃ (entries : List ZipReader) (added : List AssetUploadFile), unpacked = files ++ added ∧
        (entries.map Except.ok).Sublist archive ∧ List.Forall₂ Unpacks entries added := by
  induction archive generalizing files totalBytes with
  | nil =>
    cases hrun
    exact ⟨⟨totalBytes, h⟩, [], [], (List.append_nil _).symm, List.Sublist.refl [], .nil⟩
  | cons entry rest ih =>
    cases entry with
    | error e => cases hrun
    | ok entry =>
      obtain ⟨e, heq⟩ | heq | ⟨hfits, ⟨e, heq⟩ | ⟨file, hfile, heq⟩⟩ :=
        unpackReading_cons maxFileBytes maxGroupBytes maxFiles files totalBytes entry rest
      · rw [heq] at hrun
        cases hrun
      · rw [heq] at hrun
        obtain ⟨hkept, entries, added, hadded, hsub, hall⟩ := ih h hrun
        exact ⟨hkept, entries, added, hadded, hsub.cons _, hall⟩
      · rw [heq] at hrun
        cases hrun
      · obtain ⟨htotal, hkept⟩ := h.concat hmax hfits hfile.length
        rw [heq] at hrun
        dsimp only at hrun
        rw [htotal] at hrun
        obtain ⟨hlast, entries, added, hadded, hsub, hall⟩ := ih hkept hrun
        refine ⟨hlast, entry :: entries, file :: added, ?_, hsub.cons_cons _, .cons hfile hall⟩
        rw [hadded, List.append_assoc, List.singleton_append]

/-- **What the loop reads**: the bytes of the files so far and those that are left make up the
budget of the group, and no entry is read further than a byte beyond what is left. -/
lemma unpackReading_fst (hmax : maxGroupBytes ≤ u64Max)
    (h : Kept maxFileBytes maxGroupBytes maxFiles files totalBytes) {before after : List Reading}
    {reading : Reading}
    (hrun : (unpackReading maxFileBytes maxGroupBytes maxFiles files totalBytes archive).1 =
      before ++ reading :: after) :
    totalBytes + (before.map Reading.size).sum + reading.remainingBytes = maxGroupBytes ∧
      ∀ reads, reads <+: reading.reads → reads.flatten.length ≤ reading.remainingBytes + 1 := by
  have hgroup := h.groupBytes
  induction archive generalizing files totalBytes before with
  | nil => exact absurd hrun (by simp [unpackReading])
  | cons entry rest ih =>
    cases entry with
    | error e => exact absurd hrun (by simp [unpackReading])
    | ok entry =>
      -- the first reading is of this entry
      have hfirst : Fits maxFileBytes maxGroupBytes maxFiles totalBytes files entry →
          ∀ reads, reads <+: entry.reads →
            reads.flatten.length ≤ maxGroupBytes - totalBytes + 1 := fun hfits reads hprefix =>
        (length_flatten_prefix_le hprefix).trans (Nat.succ_le_succ hfits.groupBytes)
      obtain ⟨e, heq⟩ | heq | ⟨hfits, ⟨e, heq⟩ | ⟨file, hfile, heq⟩⟩ :=
        unpackReading_cons maxFileBytes maxGroupBytes maxFiles files totalBytes entry rest
      · rw [heq] at hrun
        exact absurd hrun (by simp)
      · rw [heq] at hrun
        exact ih h hrun hgroup
      · rw [heq] at hrun
        obtain ⟨rfl, hreading⟩ :
            before = [] ∧ reading = ⟨maxGroupBytes - totalBytes, entry.reads⟩ := by
          cases before with
          | nil => exact ⟨rfl, (List.head_eq_of_cons_eq hrun).symm⟩
          | cons b bs => exact absurd (List.tail_eq_of_cons_eq hrun) (by simp)
        subst hreading
        exact ⟨by simp only [List.map_nil, List.sum_nil]; omega, hfirst hfits⟩
      · obtain ⟨htotal, hkept⟩ := h.concat hmax hfits hfile.length
        rw [heq] at hrun
        dsimp only at hrun
        rw [htotal] at hrun
        cases before with
        | nil =>
          have hreading := List.head_eq_of_cons_eq hrun
          subst hreading
          exact ⟨by simp only [List.map_nil, List.sum_nil]; omega, hfirst hfits⟩
        | cons b bs =>
          have hb := List.head_eq_of_cons_eq hrun
          have hsize : b.size = entry.size := by
            rw [← hb, Reading.size, ← hfile.bytes, hfile.length]
          obtain ⟨hsum, hread⟩ := ih hkept (List.tail_eq_of_cons_eq hrun) hkept.groupBytes
          refine ⟨?_, hread⟩
          rw [List.map_cons, List.sum_cons, hsize]
          omega

end Loop

/-- **The record changes nothing**: what is returned is what the files in one piece give. -/
theorem unpackArchive_snd
    (openArchive : Bytes → Except String (List (Except String ZipReader))) (bytes : Bytes)
    (maxFileBytes maxGroupBytes : UInt64) (maxFiles : ℕ) :
    (unpackArchive openArchive bytes maxFileBytes maxGroupBytes maxFiles).2 =
      (openArchive bytes).bind fun archive =>
        unpackZipFilesLimited (archive.map fun entry => entry.map ZipReader.file)
          maxFileBytes.toNat maxGroupBytes.toNat maxFiles := by
  rw [unpackArchive]
  cases openArchive bytes with
  | error e => rfl
  | ok archive => exact unpackReading_snd

/-- **The limits are kept**, whatever sizes are declared and whatever is delivered. -/
theorem withinLimits_unpackArchive
    (openArchive : Bytes → Except String (List (Except String ZipReader))) (bytes : Bytes)
    (maxFileBytes maxGroupBytes : UInt64) (maxFiles : ℕ) :
    WithinLimits openArchive bytes maxFileBytes maxGroupBytes maxFiles
      (unpackArchive openArchive bytes maxFileBytes maxGroupBytes maxFiles) := by
  have hmax : maxGroupBytes.toNat ≤ u64Max := Nat.le_of_lt_succ maxGroupBytes.toNat_lt
  have hkept : Kept maxFileBytes.toNat maxGroupBytes.toNat maxFiles [] 0 :=
    ⟨Nat.zero_le _, fun file hfile => absurd hfile List.not_mem_nil, rfl, Nat.zero_le _⟩
  rw [unpackArchive]
  cases harchive : openArchive bytes with
  | error e =>
    refine ⟨?_, ?_, ?_, ?_, ?_, ?_⟩
    all_goals simp
  | ok archive =>
    refine ⟨fun files h => ?_, fun files h => ?_, fun files h => ?_, fun files h => ?_, ?_, ?_⟩
    · obtain ⟨⟨total, hlast⟩, -⟩ := unpackReading_ok hmax hkept h
      exact hlast.count
    · obtain ⟨⟨total, hlast⟩, -⟩ := unpackReading_ok hmax hkept h
      exact hlast.fileBytes
    · obtain ⟨⟨total, hlast⟩, -⟩ := unpackReading_ok hmax hkept h
      exact hlast.total.trans_le hlast.groupBytes
    · obtain ⟨-, entries, added, hadded, hsub, hall⟩ := unpackReading_ok hmax hkept h
      rw [List.nil_append] at hadded
      exact ⟨archive, entries, harchive, hsub, hadded ▸ hall⟩
    · intro before reading after hrun
      have hsum := (unpackReading_fst hmax hkept hrun).1
      rwa [Nat.zero_add] at hsum
    · intro reading hmem
      obtain ⟨before, after, hrun⟩ := List.append_of_mem hmem
      exact (unpackReading_fst hmax hkept hrun).2

end Storage
