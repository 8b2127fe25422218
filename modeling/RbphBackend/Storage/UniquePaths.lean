import RbphBackend.Storage.Groups

set_option relaxedAutoImplicit false
set_option autoImplicit false

/-!
# Paths that are made unique

The paths of a group are made unique one after the other, with a map of the paths in use. A path
that is in use gets a number before its extension; the loop that looks for one that is free ends
before it has looked at one more than there are paths in use.

## Main definitions

* `Storage.directory`, `Storage.fileExtension` — the parts of a path that stay.
* `Storage.uniquifyWithin` — `uniquify_relative_path` with a bound on the rounds of its loop.
* `Storage.uniquifyAll` — a sequence of paths, with one map.

## Main results

* `Storage.uniquifyAll_spec` — the paths that are returned.
-/

namespace Storage

open Paths Naming

/-! ## The parts of a path -/

/-- What is before the last separator. -/
def directory (path : String) : Option (List Char) := (rsplitOnce '/' path.toList).map (·.1)

/-- The name of a file in its directory. -/
def fileName (path : String) : List Char :=
  match rsplitOnce '/' path.toList with
  | some (_, file) => file
  | none => path.toList

/-- The extension of a file name, which the number is put before. -/
def fileExtension (file : List Char) : Option (List Char) :=
  match rsplitOnce '.' file with
  | some (stem, ext) => if stem ≠ [] ∧ ext ≠ [] then some ext else none
  | none => none

/-! ## The loop -/

/-- The loop of `uniquify_relative_path`, if it ends within some rounds. -/
def uniquifyLoop (used : UsedPaths) (path : String) : ℕ → ℕ → Option String
  | 0, _ => none
  | rounds + 1, current =>
    if candidate path current ∈ used then uniquifyLoop used path rounds (current + 1)
    else some (candidate path current)

/-- `uniquify_relative_path`, if its loop ends within some rounds. -/
def uniquifyWithin (rounds : ℕ) (path : String) (used : UsedPaths) : Option (String × UsedPaths) :=
  let count := (used.lookup path).getD 0
  if count = 0 then some (path, used.insert path 1)
  else
    let used := used.insert path (count + 1)
    (uniquifyLoop used path rounds count).map fun name => (name, used.insert name 1)

/-- The paths that are returned for a sequence of paths. -/
def uniquifyAll (rounds : ℕ) (used : UsedPaths) : List String → Option (List String)
  | [] => some []
  | path :: paths => do
    let (name, used) ← uniquifyWithin rounds path used
    let names ← uniquifyAll rounds used paths
    return name :: names

/-- What is returned for some paths: no path twice; a path that has not been returned, as it is;
and every path in its directory, with its extension. A name that ends in a dot has none. -/
structure Uniquified (paths returned : List String) : Prop where
  length : returned.length = paths.length
  nodup : returned.Nodup
  unchanged : ∀ (i : ℕ) (path : String), paths[i]? = some path → path ∉ returned.take i →
    returned[i]? = some path
  sameDirectory : ∀ (i : ℕ) (path name : String), paths[i]? = some path →
    returned[i]? = some name → directory name = directory path
  sameExtension : ∀ (i : ℕ) (path name : String) (ext : List Char), paths[i]? = some path →
    returned[i]? = some name → fileExtension (fileName path) = some ext →
      fileExtension (fileName name) = some ext
  noExtension : ∀ (i : ℕ) (path name : String), paths[i]? = some path →
    returned[i]? = some name → (fileName path).getLast? ≠ some '.' →
      fileExtension (fileName path) = none → fileExtension (fileName name) = none

/-! ## The last separator -/

section Split

variable {c : Char} {s front back : List Char}

lemma rsplitOnce_of_notMem (h : c ∉ back) : rsplitOnce c back = none := by
  induction back with
  | nil => rfl
  | cons x xs ih =>
    obtain ⟨hx, hxs⟩ := not_or.mp (fun hmem => h (List.mem_cons.mpr hmem))
    rw [rsplitOnce, ih hxs]
    exact if_neg (Ne.symm hx)

lemma rsplitOnce_append (front : List Char) (h : c ∉ back) :
    rsplitOnce c (front ++ c :: back) = some (front, back) := by
  induction front with
  | nil =>
    rw [List.nil_append, rsplitOnce, rsplitOnce_of_notMem h]
    exact if_pos rfl
  | cons x xs ih => rw [List.cons_append, rsplitOnce, ih]

lemma notMem_of_rsplitOnce_none (h : rsplitOnce c s = none) : c ∉ s := by
  induction s with
  | nil => exact List.not_mem_nil
  | cons x xs ih =>
    rw [rsplitOnce] at h
    split at h
    · cases h
    · rename_i hxs
      split_ifs at h with hx
      exact fun hmem => (List.mem_cons.mp hmem).elim (fun heq => hx heq.symm) (ih hxs)

lemma notMem_of_rsplitOnce (h : rsplitOnce c s = some (front, back)) : c ∉ back := by
  induction s generalizing front with
  | nil => cases h
  | cons x xs ih =>
    rw [rsplitOnce] at h
    split at h
    · rename_i hxs
      cases h
      exact ih hxs
    · rename_i hxs
      split_ifs at h
      cases h
      exact notMem_of_rsplitOnce_none hxs

end Split

/-! ## The parts stay -/

section Parts

variable {path : String} {file : List Char} {c : Char}

/-- A number brings an underscore and digits. -/
lemma notMem_candidateFile (hfile : c ∉ file) (hc : c ≠ '_') (hdigit : c.isDigit = false) (k : ℕ) :
    c ∉ candidateFile file k := by
  obtain ⟨front, back, rfl, hnum⟩ := candidateFile_eq file
  obtain ⟨hfront, hback⟩ := not_or.mp (fun hmem => hfile (List.mem_append.mpr hmem))
  have hdigits : c ∉ Nat.toDigits 10 k := fun hmem => by
    have hd := Nat.isDigit_of_mem_toDigits (by decide) (by decide) hmem
    rw [hdigit] at hd
    cases hd
  rw [hnum, List.mem_append, List.mem_append, List.mem_cons]
  exact not_or.mpr ⟨not_or.mpr ⟨hfront, not_or.mpr ⟨hc, hdigits⟩⟩, hback⟩

lemma fileName_candidate (path : String) (k : ℕ) :
    fileName (candidate path k) = candidateFile (fileName path) k ∧
      directory (candidate path k) = directory path := by
  rw [fileName, fileName, directory, directory, candidate, String.toList_ofList]
  cases hdir : rsplitOnce '/' path.toList with
  | none =>
    have hnone := rsplitOnce_of_notMem
      (notMem_candidateFile (notMem_of_rsplitOnce_none hdir) (by decide) (by decide) k)
    simp only [hnone, Option.map_none, and_self]
  | some parts =>
    obtain ⟨dir, file⟩ := parts
    have hsome := rsplitOnce_append dir
      (notMem_candidateFile (notMem_of_rsplitOnce hdir) (by decide) (by decide) k)
    simp only [hsome, Option.map_some, and_self]

/-- A number comes before the extension; a name without one stays so, unless it ends in a dot. -/
lemma fileExtension_candidateFile (hlast : file.getLast? ≠ some '.') (k : ℕ) :
    fileExtension (candidateFile file k) = fileExtension file := by
  cases hdot : rsplitOnce '.' file with
  | none =>
    have hnone := rsplitOnce_of_notMem
      (notMem_candidateFile (notMem_of_rsplitOnce_none hdot) (by decide) (by decide) k)
    rw [fileExtension, fileExtension, hnone, hdot]
  | some parts =>
    obtain ⟨stem, ext⟩ := parts
    have hext : '.' ∉ ext := notMem_of_rsplitOnce hdot
    have hne : ext ≠ [] := by
      rintro rfl
      rw [rsplitOnce_eq hdot, List.getLast?_concat] at hlast
      exact hlast rfl
    by_cases hstem : stem = []
    · -- the name is a dot and what is after it, and the number is put at its end
      have hfile : candidateFile file k = [] ++ '.' :: (ext ++ '_' :: Nat.toDigits 10 k) := by
        have hsplit := rsplitOnce_eq hdot
        rw [hstem, List.nil_append] at hsplit
        simp only [candidateFile, hdot, hstem, ne_eq, not_true_eq_false, false_and, if_false]
        rw [hsplit, List.cons_append, List.nil_append]
      have hrest : '.' ∉ ext ++ '_' :: Nat.toDigits 10 k := by
        have hnum : candidateFile ext k = ext ++ '_' :: Nat.toDigits 10 k := by
          simp only [candidateFile, rsplitOnce_of_notMem hext]
        exact hnum ▸ notMem_candidateFile hext (by decide) (by decide) k
      rw [fileExtension, fileExtension, hfile, rsplitOnce_append [] hrest, hdot]
      simp only [hstem, ne_eq, not_true_eq_false, false_and, if_false]
    · have hfile : candidateFile file k = (stem ++ '_' :: Nat.toDigits 10 k) ++ '.' :: ext := by
        simp only [candidateFile, hdot, ne_eq, hstem, hne, not_false_eq_true, and_self, if_true]
      have hfront : stem ++ '_' :: Nat.toDigits 10 k ≠ [] := by simp
      rw [fileExtension, fileExtension, hfile, rsplitOnce_append _ hext, hdot]
      simp only [ne_eq, hfront, hstem, hne, not_false_eq_true, and_self, if_true]

lemma getLast?_ne_dot {ext : List Char} (h : fileExtension file = some ext) :
    file.getLast? ≠ some '.' := by
  rw [fileExtension] at h
  split at h
  · rename_i stem ext' hdot
    split_ifs at h with hne
    rw [rsplitOnce_eq hdot, List.getLast?_append_cons, List.getLast?_cons_of_ne_nil hne.2]
    exact fun hmem => notMem_of_rsplitOnce hdot (List.mem_of_getLast? hmem)
  · cases h

/-- The names that may be taken for a path are in its directory, with its extension. -/
lemma copyName_parts (path : String) (k : ℕ) : directory (copyName path k) = directory path ∧
    ((fileName path).getLast? ≠ some '.' →
      fileExtension (fileName (copyName path k)) = fileExtension (fileName path)) := by
  cases k with
  | zero => exact ⟨rfl, fun _ => rfl⟩
  | succ k =>
    obtain ⟨hname, hdir⟩ := fileName_candidate path (k + 1)
    exact ⟨hdir, fun hlast => by rw [copyName, hname, fileExtension_candidateFile hlast]⟩

end Parts

/-! ## The loop ends -/

section Loop

variable {given paths : List String} {used : UsedPaths} {path : String} {rounds : ℕ}

lemma uniquifyLoop_eq {k m : ℕ} (hk : k ≤ m) (hrounds : m < k + rounds)
    (hfree : candidate path m ∉ used) (hpassed : ∀ l, k ≤ l → l < m → candidate path l ∈ used) :
    uniquifyLoop used path rounds k = some (candidate path m) := by
  induction rounds generalizing k with
  | zero => omega
  | succ rounds ih =>
    rw [uniquifyLoop]
    obtain rfl | hlt := hk.eq_or_lt
    · exact if_neg hfree
    · rw [if_pos (hpassed k le_rfl hlt)]
      exact ih hlt (by omega) fun l hl hlm => hpassed l (by omega) hlm

/-- **The loop ends** within one round more than there are paths in use. -/
lemma uniquifyLoop_eq_firstFree (h : used.keys.length < rounds) (k : ℕ) :
    uniquifyLoop used path rounds k =
      some (firstFree candidate used.keys path used.keys.length k) := by
  obtain ⟨m, hk, hname, hfree, hpassed⟩ :=
    firstFree_spec used.keys (candidate_injective path) le_rfl k
  obtain ⟨l, hkl, hl, hopen⟩ := exists_notMem used.keys (candidate_injective path) k
  have hml : m ≤ l := by
    by_contra! hlm
    exact hopen (hpassed l hkl hlm)
  rw [hname]
  exact uniquifyLoop_eq hk (by omega) hfree hpassed

lemma uniquifyWithin_eq (hused : UsedBy given used) (h : given.length < rounds) :
    uniquifyWithin rounds path used = some (uniquifyRelativePath path used) := by
  rw [uniquifyWithin, uniquifyRelativePath]
  dsimp only
  split_ifs with hcount
  · rfl
  · have hmem : path ∈ used := by
      rw [← AList.lookup_isSome, Option.isSome_iff_ne_none]
      intro hnone
      rw [hnone] at hcount
      exact hcount rfl
    -- the paths in use are distinct, and they have been given
    have hkeys : (used.insert path ((used.lookup path).getD 0 + 1)).keys ⊆ given := by
      intro p hp
      rw [← AList.mem_keys, AList.mem_insert] at hp
      rw [← hused.mem]
      exact hp.elim (fun heq => heq ▸ hmem) id
    have hlen := (List.subperm_of_subset (AList.keys_nodup _) hkeys).length_le
    rw [uniquifyLoop_eq_firstFree (hlen.trans_lt h), Option.map_some]

lemma uniquifyAll_eq (hused : UsedBy given used) (h : given.length + paths.length < rounds) :
    uniquifyAll rounds used paths = some (namesFrom copyName given paths) := by
  induction paths generalizing given used with
  | nil => rfl
  | cons path paths ih =>
    rw [List.length_cons] at h
    obtain ⟨hname, hnext⟩ := uniquifyRelativePath_spec path hused
    have hrest := ih hnext (by rw [List.length_append, List.length_singleton]; omega)
    rw [uniquifyAll, uniquifyWithin_eq hused (by omega), namesFrom, ← hname]
    rw [← hname] at hrest
    simp only [Option.bind_eq_bind, Option.bind_some, hrest, Option.pure_def]

/-- **The paths that are returned** are distinct; a path that has not been returned is returned as
it is, and every path stays in its directory and keeps its extension. The loop ends. -/
theorem uniquifyAll_spec (paths : List String) {rounds : ℕ} (h : paths.length < rounds) :
    ∃ returned, uniquifyAll rounds ∅ paths = some returned ∧ Uniquified paths returned := by
  have hparts : ∀ (i : ℕ) (path name : String), paths[i]? = some path →
      (names copyName paths)[i]? = some name → directory name = directory path ∧
        ((fileName path).getLast? ≠ some '.' →
          fileExtension (fileName name) = fileExtension (fileName path)) := by
    intro i path name hpath hname
    rw [names_getElem? copyName hpath, Option.some.injEq] at hname
    obtain ⟨k, hk, -, -⟩ :=
      fresh_spec ((names copyName paths).take i) (copyName_injective path)
    rw [← hname, hk]
    exact copyName_parts path k
  refine ⟨names copyName paths, uniquifyAll_eq usedBy_empty (by simpa using h), length_names,
    nodup_names copyName_injective, ?_, ?_, ?_, ?_⟩
  · intro i path hpath hfree
    rw [names_getElem? copyName hpath, fresh_eq_self (copyName_injective path) rfl hfree]
  · exact fun i path name hpath hname => (hparts i path name hpath hname).1
  · intro i path name ext hpath hname hext
    rw [(hparts i path name hpath hname).2 (getLast?_ne_dot hext), hext]
  · intro i path name hpath hname hlast hnone
    rw [(hparts i path name hpath hname).2 hlast, hnone]

/-- Two files of one name, and one whose name has been made for the second. -/
theorem uniquifyAll_spec_three :
    ∃ returned, uniquifyAll 4 ∅ ["a.txt", "a.txt", "a_1.txt"] = some returned ∧
      Uniquified ["a.txt", "a.txt", "a_1.txt"] returned :=
  uniquifyAll_spec ["a.txt", "a.txt", "a_1.txt"] (by decide)

end Loop

end Storage
