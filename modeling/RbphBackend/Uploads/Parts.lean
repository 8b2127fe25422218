import RbphBackend.Uploads.Manifest

set_option relaxedAutoImplicit false
set_option autoImplicit false

/-!
# Parts of a file

A file is uploaded in parts of one size, of which the last may be smaller. A part is authorised with
its digest before it is uploaded; when all parts are there, what the bucket lists of them is
verified. Numbers have a fixed width: a result that does not fit panics in a build with overflow
checks, and wraps in a build without.

## Main definitions

* `Uploads.authorizePart`, `Uploads.verifyParts` — `api/admin/asset_upload.rs`.
* `Uploads.Assembled` — the parts of a whole file.
* `Uploads.Authorized` — what is known of the parts that have been authorised.

## Main results

* `Uploads.verifyParts_ok` — parts that are accepted make up the file.
* `Uploads.requiredSize_eq` — the size of a part fits at every step.
* `Uploads.authorizeAll_authorized` — the digests and sizes that verification compares with.
-/

namespace Uploads

open Storage

/-! ## Arithmetic of fixed width -/

/-- A panic, or a request that is refused with a message. -/
inductive Fault where
  | panicked
  | invalid (message : String)
  deriving DecidableEq

section Arithmetic

variable (checks : Bool)

def sub64 (a b : UInt64) : Except Fault UInt64 :=
  if checks ∧ a < b then .error .panicked else .ok (a - b)

def mul64 (a b : UInt64) : Except Fault UInt64 :=
  if checks ∧ 2 ^ 64 ≤ a.toNat * b.toNat then .error .panicked else .ok (a * b)

def add32 (a b : UInt32) : Except Fault UInt32 :=
  if checks ∧ 2 ^ 32 ≤ a.toNat + b.toNat then .error .panicked else .ok (a + b)

/-- `u64::div_ceil`. -/
def divCeil (a b : UInt64) : UInt64 := if 0 < a % b then a / b + 1 else a / b

end Arithmetic

/-! ## Authorisation and verification -/

def partBytes : UInt64 := 8 * 1024 * 1024

structure ExpectedPart where
  md5 : String
  size : UInt64
  deriving DecidableEq

/-- A part as the bucket lists it. -/
structure Part where
  partNumber : UInt32
  etag : String
  size : UInt64
  deriving DecidableEq

structure PartRequest where
  partNumber : UInt32
  contentMd5 : String
  deriving DecidableEq

/-- The fields of the state of a file that these functions read. -/
structure FileState where
  parts : UInt32 → Option ExpectedPart := fun _ => none
  completing : Bool := false
  complete : Bool := false

def lowerHexDigits : List Char :=
  ['0', '1', '2', '3', '4', '5', '6', '7', '8', '9', 'a', 'b', 'c', 'd', 'e', 'f']

/-- Two digits for each byte. -/
def lowerHex (bytes : Bytes) : String :=
  String.ofList (bytes.flatMap fun b =>
    [lowerHexDigits.getD (b.toNat / 16) '0', lowerHexDigits.getD (b.toNat % 16) '0'])

/-- `trim_matches` and `to_ascii_lowercase`. -/
def normalizeEtag (etag : String) : String :=
  let quote : Char → Bool := fun c => c == '"'
  String.ofList ((((etag.toList.dropWhile quote).reverse.dropWhile quote).reverse).map Char.toLower)

section Parts

variable (decode : String → Option Bytes) (checks : Bool)

/-- The size of the part at an index. -/
def requiredSize (size : UInt64) (index : ℕ) : Except Fault UInt64 := do
  let offset ← mul64 checks (UInt64.ofNat index) partBytes
  return min (← sub64 checks size offset) partBytes

/-- The size of the part of a number. -/
def authorizedSize (size : UInt64) (partNumber : UInt32) : Except Fault UInt64 := do
  let offset ← mul64 checks (← sub64 checks partNumber.toUInt64 1) partBytes
  return min (← sub64 checks size offset) partBytes

/-- `parts`, for a file of some size; `decode` reads the base 64 of a digest. -/
def authorizePart (size : UInt64) (state : FileState) (body : PartRequest) :
    Except Fault FileState :=
  if (decode body.contentMd5).all (fun v => v.length ≠ 16) ∨ body.partNumber = 0 ∨
      divCeil size partBytes < body.partNumber.toUInt64 then
    .error (.invalid "invalid part number or MD5")
  else if state.complete ∨ state.completing then
    .error (.invalid "file is already completing")
  else if (state.parts body.partNumber).any (fun p => p.md5 ≠ body.contentMd5) then
    .error (.invalid "part content changed; start a new upload")
  else do
    let partSize ← authorizedSize checks size body.partNumber
    return { state with
      parts := Function.update state.parts body.partNumber (some ⟨body.contentMd5, partSize⟩) }

/-- One part of the loop of `verify_parts`. -/
def verifyPart (size : UInt64) (expected : UInt32 → Option ExpectedPart) (index : ℕ) (part : Part) :
    Except Fault Unit :=
  match expected part.partNumber with
  | none => .error (.invalid "unexpected COS part")
  | some wanted =>
    match decode wanted.md5 with
    | none => .error (.invalid "invalid part digest")
    | some md5 => do
      let required ← requiredSize checks size index
      let number ← add32 checks (UInt32.ofNat index) 1
      if part.partNumber ≠ number ∨ part.size ≠ wanted.size ∨ part.size ≠ required ∨
          normalizeEtag part.etag ≠ lowerHex md5 then
        .error (.invalid "COS part verification failed")
      else .ok ()

def verifyFrom (size : UInt64) (expected : UInt32 → Option ExpectedPart) :
    ℕ → List Part → Except Fault Unit
  | _, [] => .ok ()
  | index, part :: parts => do
    verifyPart decode checks size expected index part
    verifyFrom size expected (index + 1) parts

def verifyParts (size : UInt64) (expected : UInt32 → Option ExpectedPart) (actual : List Part) :
    Except Fault Unit :=
  if actual.length ≠ (divCeil size partBytes).toNat then .error (.invalid "file is missing parts")
  else verifyFrom decode checks size expected 0 actual

/-- The state after a request for a part; one that is refused changes nothing. -/
def afterPart (size : UInt64) (state : FileState) (body : PartRequest) : FileState :=
  match authorizePart decode checks size state body with
  | .ok state' => state'
  | .error _ => state

/-- The state after requests for parts. -/
def authorizeAll (size : UInt64) (requests : List PartRequest) : FileState :=
  requests.foldl (afterPart decode checks size) {}

end Parts

/-! ## The sizes of parts -/

/-- The number of parts of a file. -/
def partCount (size : UInt64) : ℕ := (size.toNat + 8388607) / 8388608

section Sizes

variable {checks : Bool} {size : UInt64} {index : ℕ}

lemma partBytes_toNat : partBytes.toNat = 8388608 := by decide

lemma toNat_min (a b : UInt64) : (min a b).toNat = min a.toNat b.toNat := by
  have hle : a ≤ b ↔ a.toNat ≤ b.toNat := UInt64.le_iff_toNat_le
  change (if a ≤ b then a else b).toNat = _
  rw [min_def]
  by_cases h : a ≤ b
  · rw [if_pos h, if_pos (hle.mp h)]
  · rw [if_neg h, if_neg (mt hle.mpr h)]

lemma divCeil_toNat (size : UInt64) : (divCeil size partBytes).toNat = partCount size := by
  have hsize := size.toNat_lt
  have hpos : 0 < size % partBytes ↔ 0 < size.toNat % 8388608 := by
    rw [UInt64.lt_iff_toNat_lt, UInt64.toNat_mod, partBytes_toNat]
    rfl
  rw [divCeil, partCount]
  split_ifs with h
  · have hrem := hpos.mp h
    rw [UInt64.toNat_add, UInt64.toNat_div, partBytes_toNat]
    simp only [UInt64.reduceToNat]
    omega
  · have hrem := mt hpos.mpr h
    rw [UInt64.toNat_div, partBytes_toNat]
    omega

lemma mul64_eq (checks : Bool) {a b : UInt64} (h : a.toNat * b.toNat < 2 ^ 64) :
    ∃ c, mul64 checks a b = .ok c ∧ c.toNat = a.toNat * b.toNat := by
  refine ⟨a * b, if_neg fun hc => absurd hc.2 (by omega), ?_⟩
  rw [UInt64.toNat_mul, Nat.mod_eq_of_lt h]

lemma sub64_eq (checks : Bool) {a b : UInt64} (h : b.toNat ≤ a.toNat) :
    ∃ c, sub64 checks a b = .ok c ∧ c.toNat = a.toNat - b.toNat := by
  have hle : b ≤ a := UInt64.le_iff_toNat_le.mpr h
  exact ⟨a - b, if_neg fun hc => absurd hc.2 (UInt64.not_lt.mpr hle),
    UInt64.toNat_sub_of_le _ _ hle⟩

/-- **The size of a part fits at every step**: nothing is less than zero or more than 64 bits. -/
theorem requiredSize_eq (h : index < partCount size) : ∃ c, requiredSize checks size index = .ok c ∧
    c.toNat = min (size.toNat - index * 8388608) 8388608 := by
  have hsize := size.toNat_lt
  rw [partCount] at h
  have hindex : (UInt64.ofNat index).toNat = index := by
    rw [UInt64.toNat_ofNat', Nat.mod_eq_of_lt (by omega)]
  obtain ⟨offset, hmul, hoffset⟩ := mul64_eq checks (a := UInt64.ofNat index)
    (b := partBytes) (by rw [hindex, partBytes_toNat]; omega)
  rw [hindex, partBytes_toNat] at hoffset
  obtain ⟨left, hsub, hleft⟩ := sub64_eq checks (a := size) (b := offset) (by omega)
  refine ⟨min left partBytes, ?_, ?_⟩
  · rw [requiredSize, hmul]
    change (sub64 checks size offset).bind _ = _
    rw [hsub]
    rfl
  · rw [toNat_min, hleft, hoffset, partBytes_toNat]

/-- **The size that is authorised** for a number is the one that is required at its index. -/
theorem authorizedSize_eq {partNumber : UInt32} (hpos : partNumber ≠ 0) :
    authorizedSize checks size partNumber = requiredSize checks size (partNumber.toNat - 1) := by
  have hne : partNumber.toNat ≠ 0 := fun h => hpos (UInt32.toNat_inj.mp h)
  have hlt := partNumber.toNat_lt
  obtain ⟨c, hsub, hc⟩ := sub64_eq checks (a := partNumber.toUInt64) (b := 1)
    (by rw [UInt32.toNat_toUInt64]; simp only [UInt64.reduceToNat]; omega)
  have heq : c = UInt64.ofNat (partNumber.toNat - 1) := by
    rw [← UInt64.toNat_inj, hc, UInt32.toNat_toUInt64, UInt64.toNat_ofNat',
      Nat.mod_eq_of_lt (by omega)]
    rfl
  rw [authorizedSize, hsub, heq]
  rfl

end Sizes

/-! ## What is accepted -/

/-- The parts of a whole file: they have the numbers from one on and the sizes that are required,
and each has the digest that is recorded for its number. -/
structure Assembled (decode : String → Option Bytes) (size : UInt64)
    (expected : UInt32 → Option ExpectedPart) (actual : List Part) : Prop where
  length : actual.length = partCount size
  number : ∀ i part, actual[i]? = some part → part.partNumber.toNat = i + 1
  full : ∀ i part, actual[i]? = some part → i + 1 < actual.length → part.size = partBytes
  total : (actual.map fun part => part.size.toNat).sum = size.toNat
  digest : ∀ part ∈ actual, ∃ wanted md5, expected part.partNumber = some wanted ∧
    wanted.size = part.size ∧ decode wanted.md5 = some md5 ∧ normalizeEtag part.etag = lowerHex md5

section Accepted

variable {decode : String → Option Bytes} {checks : Bool} {size : UInt64}
  {expected : UInt32 → Option ExpectedPart} {actual parts : List Part} {part : Part} {index : ℕ}

lemma add32_ok {a b c : UInt32} (h : add32 checks a b = .ok c) : c = a + b := by
  rw [add32] at h
  split_ifs at h
  cases h
  rfl

/-- What is known of a part that has passed. -/
lemma verifyPart_ok (hindex : index < partCount size)
    (h : verifyPart decode checks size expected index part = .ok ()) :
    part.partNumber = UInt32.ofNat index + 1 ∧
      part.size.toNat = min (size.toNat - index * 8388608) 8388608 ∧
      ∃ wanted md5, expected part.partNumber = some wanted ∧ wanted.size = part.size ∧
        decode wanted.md5 = some md5 ∧ normalizeEtag part.etag = lowerHex md5 := by
  obtain ⟨required, hrequired, hnat⟩ := @requiredSize_eq checks _ _ hindex
  rw [verifyPart] at h
  cases hwanted : expected part.partNumber with
  | none =>
    rw [hwanted] at h
    cases h
  | some wanted =>
    rw [hwanted] at h
    cases hmd5 : decode wanted.md5 with
    | none =>
      simp only [hmd5] at h
      cases h
    | some md5 =>
      simp only [hmd5, hrequired] at h
      change (add32 checks (UInt32.ofNat index) 1).bind _ = _ at h
      cases hadd : add32 checks (UInt32.ofNat index) 1 with
      | error e =>
        rw [hadd] at h
        cases h
      | ok number =>
        rw [hadd] at h
        change (if _ then _ else _) = _ at h
        split_ifs at h with hbad
        simp only [not_or, ne_eq, not_not] at hbad
        obtain ⟨hnumber, hsize, hrequired', hetag⟩ := hbad
        refine ⟨?_, by rw [hrequired', hnat], wanted, md5, rfl, hsize.symm, hmd5, hetag⟩
        rw [hnumber, add32_ok hadd]

/-- A part panics only where its number does not fit into 32 bits. -/
lemma verifyPart_panicked (hindex : index < partCount size)
    (h : verifyPart decode checks size expected index part = .error .panicked) :
    checks = true ∧ index % 2 ^ 32 = 2 ^ 32 - 1 := by
  obtain ⟨required, hrequired, -⟩ := @requiredSize_eq checks _ _ hindex
  rw [verifyPart] at h
  cases hwanted : expected part.partNumber with
  | none =>
    rw [hwanted] at h
    cases h
  | some wanted =>
    rw [hwanted] at h
    cases hmd5 : decode wanted.md5 with
    | none =>
      simp only [hmd5] at h
      cases h
    | some md5 =>
      simp only [hmd5, hrequired] at h
      change (add32 checks (UInt32.ofNat index) 1).bind _ = _ at h
      rw [add32] at h
      split_ifs at h with hchecks
      · refine ⟨hchecks.1, ?_⟩
        have hover := hchecks.2
        rw [UInt32.toNat_ofNat'] at hover
        simp only [UInt32.reduceToNat] at hover
        omega
      · change (if _ then _ else _) = _ at h
        split_ifs at h
        cases h

lemma verifyFrom_ok (h : verifyFrom decode checks size expected index parts = .ok ()) {i : ℕ}
    (hpart : parts[i]? = some part) :
    verifyPart decode checks size expected (index + i) part = .ok () := by
  induction parts generalizing index i with
  | nil => cases hpart
  | cons first rest ih =>
    rw [verifyFrom] at h
    cases hfirst : verifyPart decode checks size expected index first with
    | error e =>
      rw [hfirst] at h
      cases h
    | ok u =>
      rw [hfirst] at h
      cases i with
      | zero =>
        cases hpart
        exact hfirst
      | succ i =>
        have hrest := ih h hpart
        rwa [Nat.add_right_comm, Nat.add_assoc] at hrest

/-- The loop panics at one part, after those before it have passed. -/
lemma verifyFrom_panicked
    (h : verifyFrom decode checks size expected index parts = .error .panicked) :
    ∃ i part, parts[i]? = some part ∧
      verifyPart decode checks size expected (index + i) part = .error .panicked ∧
      ∀ j before, j < i → parts[j]? = some before →
        verifyPart decode checks size expected (index + j) before = .ok () := by
  induction parts generalizing index with
  | nil => cases h
  | cons first rest ih =>
    rw [verifyFrom] at h
    cases hfirst : verifyPart decode checks size expected index first with
    | error e =>
      rw [hfirst] at h
      cases h
      exact ⟨0, first, rfl, hfirst, fun j _ hj => absurd hj (Nat.not_lt_zero j)⟩
    | ok u =>
      rw [hfirst] at h
      obtain ⟨i, part, hpart, hpanic, hbefore⟩ := ih h
      refine ⟨i + 1, part, hpart, ?_, fun j before hj hget => ?_⟩
      · rwa [Nat.add_right_comm, Nat.add_assoc] at hpanic
      · cases j with
        | zero =>
          cases hget
          exact hfirst
        | succ j =>
          have hok := hbefore j before (by omega) hget
          rwa [Nat.add_right_comm, Nat.add_assoc] at hok

/-- The required sizes of the first parts of a file. -/
lemma sum_sizes {n : ℕ} (h : ∀ i part, actual[i]? = some part →
    part.size.toNat = min (n - i * 8388608) 8388608) :
    (actual.map fun part => part.size.toNat).sum = min n (actual.length * 8388608) := by
  induction actual using List.reverseRecOn with
  | nil => simp
  | append_singleton front last ih =>
    have hfront := ih fun i part hi => h i part (List.getElem?_append_left
      (List.getElem?_eq_some_iff.mp hi).1 ▸ hi)
    have hlast := h front.length last (by simp)
    rw [List.map_append, List.sum_append, hfront, List.map_singleton, List.sum_singleton, hlast,
      List.length_append, List.length_singleton]
    omega

lemma verifyParts_length (h : verifyParts decode checks size expected actual = .ok ()) :
    actual.length = partCount size ∧
      verifyFrom decode checks size expected 0 actual = .ok () := by
  rw [verifyParts, divCeil_toNat] at h
  split_ifs at h with hlength
  exact ⟨not_not.mp hlength, h⟩

/-- The numbers of sorted parts that have passed do not wrap. -/
lemma length_lt_of_sorted (hsorted : actual.Pairwise fun a b => a.partNumber ≤ b.partNumber)
    (hnumber : ∀ i part, actual[i]? = some part → part.partNumber = UInt32.ofNat i + 1) :
    actual.length < 2 ^ 32 := by
  by_contra hlong
  -- the part after the greatest number would be numbered zero
  obtain ⟨first, hfirst⟩ : ∃ first, actual[0]? = some first :=
    ⟨_, List.getElem?_eq_getElem (show 0 < actual.length by omega)⟩
  obtain ⟨late, hlate⟩ : ∃ late, actual[2 ^ 32 - 1]? = some late :=
    ⟨_, List.getElem?_eq_getElem (show 2 ^ 32 - 1 < actual.length by omega)⟩
  obtain ⟨hi, rfl⟩ := List.getElem?_eq_some_iff.mp hfirst
  obtain ⟨hj, rfl⟩ := List.getElem?_eq_some_iff.mp hlate
  have hle := List.pairwise_iff_getElem.mp hsorted 0 (2 ^ 32 - 1) hi hj (by decide)
  rw [hnumber 0 _ hfirst, hnumber (2 ^ 32 - 1) _ hlate] at hle
  exact absurd hle (by decide)

/-- **Parts that are accepted make up the file.** -/
theorem verifyParts_ok (hsorted : actual.Pairwise fun a b => a.partNumber ≤ b.partNumber)
    (h : verifyParts decode checks size expected actual = .ok ()) :
    Assembled decode size expected actual := by
  obtain ⟨hlength, hloop⟩ := verifyParts_length h
  have hpassed : ∀ i part, actual[i]? = some part → part.partNumber = UInt32.ofNat i + 1 ∧
      part.size.toNat = min (size.toNat - i * 8388608) 8388608 ∧
      ∃ wanted md5, expected part.partNumber = some wanted ∧ wanted.size = part.size ∧
        decode wanted.md5 = some md5 ∧ normalizeEtag part.etag = lowerHex md5 := by
    intro i part hpart
    have hi := (List.getElem?_eq_some_iff.mp hpart).1
    have hok := verifyFrom_ok hloop hpart
    rw [Nat.zero_add] at hok
    exact verifyPart_ok (hlength ▸ hi) hok
  have hshort := length_lt_of_sorted hsorted fun i part hpart => (hpassed i part hpart).1
  have hcount : actual.length = (size.toNat + 8388607) / 8388608 := hlength
  refine ⟨hlength, fun i part hpart => ?_, fun i part hpart hi => ?_, ?_, fun part hpart => ?_⟩
  · have hi := (List.getElem?_eq_some_iff.mp hpart).1
    rw [(hpassed i part hpart).1, UInt32.toNat_add, UInt32.toNat_ofNat']
    simp only [UInt32.reduceToNat]
    omega
  · rw [← UInt64.toNat_inj, (hpassed i part hpart).2.1, partBytes_toNat]
    omega
  · rw [sum_sizes fun i part hpart => (hpassed i part hpart).2.1]
    omega
  · obtain ⟨i, hi⟩ := List.mem_iff_getElem?.mp hpart
    exact (hpassed i part hi).2.2

lemma maxFileBytes_le {l : UploadConfig} (h : l.validate = .ok ()) :
    l.maxFileBytes.toNat ≤ 80000 * 1024 * 1024 := by
  rw [UploadConfig.validate] at h
  split_ifs at h with hbad
  simp only [not_or] at hbad
  exact UInt64.le_iff_toNat_le.mp (UInt64.not_lt.mp hbad.2.1)

/-- **Nothing panics**: without overflow checks, for files that a configuration may allow, and for
parts whose numbers are distinct. -/
theorem verifyParts_ne_panicked (hsorted : actual.Pairwise fun a b => a.partNumber ≤ b.partNumber)
    (hcase : checks = false ∨
      (∃ l : UploadConfig, l.validate = .ok () ∧ size ≤ l.maxFileBytes) ∨
      actual.Pairwise fun a b => a.partNumber ≠ b.partNumber) :
    verifyParts decode checks size expected actual ≠ .error .panicked := by
  intro h
  rw [verifyParts, divCeil_toNat] at h
  split_ifs at h with hlength
  · cases h
  have hlength := not_not.mp hlength
  obtain ⟨i, part, hpart, hpanic, hbefore⟩ := verifyFrom_panicked h
  have hi := (List.getElem?_eq_some_iff.mp hpart).1
  rw [Nat.zero_add] at hpanic
  obtain ⟨hchecks, hover⟩ := verifyPart_panicked (hlength ▸ hi) hpanic
  have hcount : actual.length = (size.toNat + 8388607) / 8388608 := hlength
  obtain hrelease | ⟨l, hl, hsize⟩ | hdistinct := hcase
  · rw [hchecks] at hrelease
    cases hrelease
  · have hmax := maxFileBytes_le hl
    have hsmall := UInt64.le_iff_toNat_le.mp hsize
    omega
  · -- the part before it has the greatest number there is
    obtain ⟨last, hlast⟩ : ∃ last, actual[i - 1]? = some last :=
      ⟨_, List.getElem?_eq_getElem (show i - 1 < actual.length by omega)⟩
    obtain ⟨hj, rfl⟩ := List.getElem?_eq_some_iff.mp hlast
    obtain ⟨hi', rfl⟩ := List.getElem?_eq_some_iff.mp hpart
    have hok := hbefore (i - 1) _ (by omega) hlast
    rw [Nat.zero_add] at hok
    have hnumber := (verifyPart_ok (by omega) hok).1
    have hnat : (actual[i - 1]).partNumber.toNat = 2 ^ 32 - 1 := by
      rw [hnumber, UInt32.toNat_add, UInt32.toNat_ofNat']
      simp only [UInt32.reduceToNat]
      omega
    have hle := List.pairwise_iff_getElem.mp hsorted (i - 1) i hj hi' (by omega)
    have hne := List.pairwise_iff_getElem.mp hdistinct (i - 1) i hj hi' (by omega)
    have hle' := UInt32.le_iff_toNat_le.mp hle
    have hlt := (actual[i]).partNumber.toNat_lt
    exact hne (UInt32.toNat_inj.mp (by omega))

end Accepted

/-! ## What has been authorised -/

/-- What is recorded of a part is what an authorised request has given for it, with the size that is
required. -/
structure Authorized (decode : String → Option Bytes) (checks : Bool) (size : UInt64)
    (requests : List PartRequest) (state : FileState) : Prop where
  recorded : ∀ k wanted, state.parts k = some wanted →
    k ≠ 0 ∧ k.toNat ≤ partCount size ∧ (∃ v, decode wanted.md5 = some v ∧ v.length = 16) ∧
      requiredSize checks size (k.toNat - 1) = .ok wanted.size ∧
      (⟨k, wanted.md5⟩ : PartRequest) ∈ requests

section Authorized

variable {decode : String → Option Bytes} {checks : Bool} {size : UInt64}
  {requests : List PartRequest} {state state' : FileState} {body : PartRequest}

/-- What a request that is granted has checked, and what it records. -/
lemma authorizePart_ok (h : authorizePart decode checks size state body = .ok state') :
    body.partNumber ≠ 0 ∧ body.partNumber.toNat ≤ partCount size ∧
      (∃ v, decode body.contentMd5 = some v ∧ v.length = 16) ∧
      (∀ wanted, state.parts body.partNumber = some wanted → wanted.md5 = body.contentMd5) ∧
      ∃ c, requiredSize checks size (body.partNumber.toNat - 1) = .ok c ∧
        state' = { state with
          parts := Function.update state.parts body.partNumber (some ⟨body.contentMd5, c⟩) } := by
  rw [authorizePart] at h
  split_ifs at h with hnumber hcompleting hchanged
  simp only [not_or] at hnumber
  obtain ⟨hmd5, hzero, hcount⟩ := hnumber
  have hle : body.partNumber.toNat ≤ partCount size := by
    have hle64 := UInt64.le_iff_toNat_le.mp (UInt64.not_lt.mp hcount)
    rwa [divCeil_toNat, UInt32.toNat_toUInt64] at hle64
  have hne : body.partNumber.toNat ≠ 0 := fun h0 => hzero (UInt32.toNat_inj.mp h0)
  obtain ⟨c, hc, -⟩ := @requiredSize_eq checks size (body.partNumber.toNat - 1) (by omega)
  rw [authorizedSize_eq hzero, hc] at h
  cases h
  refine ⟨hzero, hle, ?_, fun wanted hwanted => ?_, c, hc, rfl⟩
  · cases hv : decode body.contentMd5 with
    | none =>
      rw [hv] at hmd5
      exact absurd rfl hmd5
    | some v =>
      rw [hv] at hmd5
      exact ⟨v, rfl, by simpa using hmd5⟩
  · rw [hwanted] at hchanged
    simpa using hchanged

lemma authorized_empty : Authorized decode checks size [] {} where
  recorded k wanted h := by cases h

lemma Authorized.mono {requests' : List PartRequest}
    (h : Authorized decode checks size requests state) (hsub : requests ⊆ requests') :
    Authorized decode checks size requests' state where
  recorded k wanted hk := by
    obtain ⟨hzero, hle, hmd5, hsize, hmem⟩ := h.recorded k wanted hk
    exact ⟨hzero, hle, hmd5, hsize, hsub hmem⟩

lemma Authorized.authorizePart (h : Authorized decode checks size requests state)
    (hpart : authorizePart decode checks size state body = .ok state') :
    Authorized decode checks size (requests ++ [body]) state' where
  recorded k wanted hk := by
    obtain ⟨hzero, hle, hmd5, -, c, hc, rfl⟩ := authorizePart_ok hpart
    dsimp only at hk
    by_cases hkey : k = body.partNumber
    · subst hkey
      rw [Function.update_self, Option.some.injEq] at hk
      subst hk
      exact ⟨hzero, hle, hmd5, hc, List.mem_append_right _ List.mem_cons_self⟩
    · rw [Function.update_of_ne hkey] at hk
      exact (h.mono (List.subset_append_left _ _)).recorded k wanted hk

lemma Authorized.afterPart (h : Authorized decode checks size requests state) :
    Authorized decode checks size (requests ++ [body])
      (afterPart decode checks size state body) := by
  rw [Uploads.afterPart]
  cases hpart : Uploads.authorizePart decode checks size state body with
  | ok state' => exact h.authorizePart hpart
  | error e => exact h.mono (List.subset_append_left _ _)

/-- **What is recorded of the parts** after any requests is what was given when they were
authorised. -/
theorem authorizeAll_authorized (requests : List PartRequest) :
    Authorized decode checks size requests (authorizeAll decode checks size requests) := by
  induction requests using List.reverseRecOn with
  | nil => exact authorized_empty
  | append_singleton front body ih =>
    rw [authorizeAll, List.foldl_append]
    exact ih.afterPart

/-- **Verification**, of what the bucket lists of a file in the order of the numbers. It accepts
parts that make up the file only; nothing is subtracted from less, and nothing panics; the size that
is authorised for a number is the one that is required of it; and what is recorded of a part is what
has been given when it was authorised. -/
theorem verifyParts_spec {expected : UInt32 → Option ExpectedPart} {actual : List Part}
    (hsorted : actual.Pairwise fun a b => a.partNumber ≤ b.partNumber) :
    (verifyParts decode checks size expected actual = .ok () →
      Assembled decode size expected actual) ∧
    (checks = false ∨ (∃ l : UploadConfig, l.validate = .ok () ∧ size ≤ l.maxFileBytes) ∨
        (actual.Pairwise fun a b => a.partNumber ≠ b.partNumber) →
      verifyParts decode checks size expected actual ≠ .error .panicked) ∧
    (∀ index < partCount size, ∃ c, requiredSize checks size index = .ok c ∧
      c.toNat = min (size.toNat - index * 8388608) 8388608) ∧
    (∀ partNumber : UInt32, partNumber ≠ 0 →
      authorizedSize checks size partNumber = requiredSize checks size (partNumber.toNat - 1)) ∧
    ∀ requests, Authorized decode checks size requests (authorizeAll decode checks size requests) :=
  ⟨verifyParts_ok hsorted, verifyParts_ne_panicked hsorted, fun _ => requiredSize_eq,
    fun _ => authorizedSize_eq, authorizeAll_authorized⟩

/-- A file of one byte, authorised and verified. -/
theorem verifyParts_spec_one :
    let decode : String → Option Bytes := fun s =>
      if s = "AAAAAAAAAAAAAAAAAAAAAA==" then some (List.replicate 16 0) else none
    let expected := (authorizeAll decode true 1 [⟨1, "AAAAAAAAAAAAAAAAAAAAAA=="⟩]).parts
    let part : Part := ⟨1, "\"00000000000000000000000000000000\"", 1⟩
    Assembled decode 1 expected [part] := by
  intro decode expected part
  have hsorted : [part].Pairwise fun a b => a.partNumber ≤ b.partNumber :=
    List.pairwise_singleton _ _
  exact (@verifyParts_spec decode true _ _ _ hsorted).1 (by decide +kernel)

end Authorized

end Uploads
