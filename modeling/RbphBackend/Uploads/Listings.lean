import RbphBackend.Paging.Chain
import RbphBackend.Uploads.Parts

set_option relaxedAutoImplicit false
set_option autoImplicit false

/-!
# Listings of the bucket

The bucket lists the uploads that are pending and the parts that are there in pages. A page that is
cut off names a marker, and the next page is asked for with it. The loop over the parts refuses a
marker that does not grow. The loop over the uploads, whose markers are pairs of texts, refuses a
pair that is the one before; it follows a service that alternates between two pairs forever.

## Main definitions

* `Uploads.pending`, `Uploads.parts` — `module/storage/direct.rs`, with a bound on the requests.
* `Uploads.UploadService` — a service that lists uploads, with finitely many pairs of markers.
* `Uploads.UploadService.Circles` — the pages lead back to a pair.

## Main results

* `Uploads.exists_parts_eq_some` — the loop over the parts ends.
* `Uploads.listings_end_iff` — when both loops end.
-/

namespace Uploads

open Paging Relation

/-! ## Pages -/

structure PendingUpload where
  key : String
  uploadId : String
  deriving DecidableEq

/-- A page of pending uploads. -/
structure PendingUploads where
  uploads : List PendingUpload
  isTruncated : Bool := false
  nextKeyMarker : Option String := none
  nextUploadIdMarker : Option String := none

/-- A page of parts. -/
structure Parts where
  parts : List Part
  isTruncated : Bool := false
  nextPartNumberMarker : Option UInt32 := none

/-- A key marker and an upload id marker. -/
abbrev Markers := String × String

/-- The markers that a page names; absent ones are empty. -/
def PendingUploads.next (page : PendingUploads) : Markers :=
  (page.nextKeyMarker.getD "", page.nextUploadIdMarker.getD "")

/-- A service that answers every pair of markers with a page of its own or an error. The pages
that are cut off name finitely many pairs. -/
structure UploadService where
  page : Markers → Except String PendingUploads
  finite : {next | ∃ markers page', page markers = .ok page' ∧ page'.isTruncated = true ∧
    page'.next = next}.Finite

/-! ## The loops -/

/-- The loop of `pending`, if it ends within some requests. -/
def pendingLoop (page : Markers → Except String PendingUploads) (object : String) :
    ℕ → List String → Markers → Option (Except String (List String))
  | 0, _, _ => none
  | requests + 1, found, markers =>
    match page markers with
    | .error e => some (.error e)
    | .ok page' =>
      let found := found ++ (page'.uploads.filter fun u => u.key = object).map (·.uploadId)
      if ¬ page'.isTruncated then some (.ok found)
      else if page'.next = markers then some (.error "invalid COS upload pagination")
      else pendingLoop page object requests found page'.next

/-- The uploads of an object that are pending, if the loop ends within some requests. -/
def pending (service : UploadService) (key path : String) (requests : ℕ) :
    Option (Except String (List String)) :=
  pendingLoop service.page (key ++ "/" ++ path) requests [] ("", "")

/-- The loop of `parts`, if it ends within some requests. The answer to a request may depend on the
requests that have been sent before. -/
def partsLoop (answer : ℕ → UInt32 → Except String Parts) :
    ℕ → ℕ → List Part → UInt32 → Option (Except String (List Part))
  | 0, _, _, _ => none
  | requests + 1, sent, all, marker =>
    match answer sent marker with
    | .error e => some (.error e)
    | .ok page =>
      let all := all ++ page.parts
      if ¬ page.isTruncated then some (.ok all)
      else
        match page.nextPartNumberMarker with
        | none => some (.error "COS missing pagination marker")
        | some next =>
          if next ≤ marker ∨ 10000 < all.length then some (.error "invalid COS part pagination")
          else partsLoop answer requests (sent + 1) all next

/-- The parts of an upload, if the loop ends within some requests. -/
def parts (answer : ℕ → UInt32 → Except String Parts) (requests : ℕ) :
    Option (Except String (List Part)) :=
  partsLoop answer requests 0 [] 0

/-! ## The loop over the parts -/

section PartsLoop

variable {answer : ℕ → UInt32 → Except String Parts}

/-- The marker grows with every request. -/
lemma exists_partsLoop_eq_some {requests sent : ℕ} {all : List Part} {marker : UInt32}
    (h : UInt32.size - marker.toNat ≤ requests) :
    ∃ result, partsLoop answer requests sent all marker = some result := by
  induction requests generalizing sent all marker with
  | zero =>
    have hlt := marker.toNat_lt
    have hsize : UInt32.size = 2 ^ 32 := rfl
    omega
  | succ requests ih =>
    rw [partsLoop]
    cases answer sent marker with
    | error e => exact ⟨_, rfl⟩
    | ok page =>
      dsimp only
      split_ifs with htruncated
      · cases page.nextPartNumberMarker with
        | none => exact ⟨_, rfl⟩
        | some next =>
          dsimp only
          split_ifs with hstop
          · exact ⟨_, rfl⟩
          · have hgrows : marker.toNat < next.toNat :=
              UInt32.lt_iff_toNat_lt.mp (UInt32.not_le.mp (not_or.mp hstop).1)
            exact ih (by omega)
      · exact ⟨_, rfl⟩

/-- **The loop over the parts ends**, whatever is answered. -/
theorem exists_parts_eq_some (answer : ℕ → UInt32 → Except String Parts) :
    ∃ requests result, parts answer requests = some result :=
  ⟨UInt32.size, exists_partsLoop_eq_some (Nat.sub_le _ _)⟩

end PartsLoop

/-! ## The loop over the uploads -/

namespace UploadService

/-- The pair that is asked for after another one. A page that names its own pair is refused. -/
def advance (service : UploadService) (markers : Markers) : Option Markers :=
  match service.page markers with
  | .error _ => none
  | .ok page => if page.isTruncated ∧ page.next ≠ markers then some page.next else none

/-- One page is cut off and names another pair. -/
def Leads (service : UploadService) (markers next : Markers) : Prop :=
  ∃ page, service.page markers = .ok page ∧ page.isTruncated = true ∧ page.next = next ∧
    next ≠ markers

/-- The pages lead from the pair of empty markers to a pair, and from it through others back. -/
def Circles (service : UploadService) : Prop :=
  ∃ markers, ReflTransGen service.Leads ("", "") markers ∧ TransGen service.Leads markers markers

variable {service : UploadService} {markers next : Markers}

lemma advance_eq_some : service.advance markers = some next ↔ service.Leads markers next := by
  rw [advance, Leads]
  cases service.page markers with
  | error e => simp
  | ok page =>
    simp only [Except.ok.injEq, exists_eq_left']
    split_ifs with h
    · rw [Option.some.injEq]
      exact ⟨fun heq => ⟨h.1, heq, heq ▸ h.2⟩, fun hleads => hleads.2.1⟩
    · refine ⟨fun heq => absurd heq nofun, fun hleads => absurd ⟨hleads.1, ?_⟩ h⟩
      rw [hleads.2.1]
      exact hleads.2.2

lemma finite_advance (service : UploadService) :
    {next | ∃ markers, service.advance markers = some next}.Finite := by
  refine service.finite.subset fun next hnext => ?_
  obtain ⟨markers, hnext⟩ := hnext
  obtain ⟨page, hpage, htruncated, hname, -⟩ := advance_eq_some.mp hnext
  exact ⟨markers, page, hpage, htruncated, hname⟩

lemma cyclic_iff : Chain.Cyclic service.advance ("", "") ↔ service.Circles := by
  have hnames : Chain.Names service.advance = service.Leads := by
    funext markers next
    exact propext advance_eq_some
  rw [Chain.Cyclic, Circles, hnames]

end UploadService

/-- The loop has not ended as long as there is a pair to ask for. -/
lemma pendingLoop_eq_none {service : UploadService} {object : String} {requests : ℕ}
    {found : List String} {markers : Markers} :
    pendingLoop service.page object requests found markers = none ↔
      (Chain.walk service.advance requests markers).isSome := by
  induction requests generalizing found markers with
  | zero => simp [pendingLoop, Chain.walk]
  | succ requests ih =>
    rw [pendingLoop, Chain.walk, UploadService.advance]
    cases service.page markers with
    | error e => simp
    | ok page =>
      dsimp only
      by_cases htruncated : page.isTruncated = true
      · by_cases hown : page.next = markers
        · rw [if_neg (not_not.mpr htruncated), if_pos hown, if_neg fun h => h.2 hown]
          simp
        · rw [if_neg (not_not.mpr htruncated), if_neg hown, if_pos ⟨htruncated, hown⟩,
            Option.bind_some]
          exact ih
      · rw [if_pos htruncated, if_neg fun h => htruncated h.1]
        simp

lemma pending_ends_iff {service : UploadService} {key path : String} :
    (∃ requests result, pending service key path requests = some result) ↔ ¬ service.Circles := by
  rw [← UploadService.cyclic_iff, ← Chain.ends_iff service.finite_advance]
  refine exists_congr fun requests => ?_
  rw [← Option.ne_none_iff_exists', pending, Ne, pendingLoop_eq_none, Bool.not_eq_true,
    Option.isSome_eq_false_iff, Option.isNone_iff_eq_none]

/-- **Both loops end** exactly when the pages of pending uploads do not lead back to a pair of
markers through another one. -/
theorem listings_end_iff (service : UploadService) (key path : String)
    (answer : ℕ → UInt32 → Except String Parts) :
    ((∃ requests result, pending service key path requests = some result) ∧
        ∃ requests result, parts answer requests = some result) ↔ ¬ service.Circles :=
  (and_iff_left (exists_parts_eq_some answer)).trans pending_ends_iff

/-- A service that alternates between two pairs of markers. -/
def alternating : UploadService where
  page markers := .ok {
    uploads := []
    isTruncated := true
    nextKeyMarker := some (if markers = ("a", "1") then "b" else "a")
    nextUploadIdMarker := some "1" }
  finite := by
    refine (Set.toFinite {("a", "1"), ("b", "1")}).subset ?_
    rintro next ⟨markers, page, hpage, -, rfl⟩
    cases hpage
    by_cases h : markers = ("a", "1")
    · right
      simp [PendingUploads.next, h]
    · left
      simp [PendingUploads.next, h]

/-- The loop asks for the two pairs in turn. -/
theorem pending_alternating :
    ¬ ∃ requests result, pending alternating "group-test" "a.txt" requests = some result := by
  rw [pending_ends_iff, not_not]
  have hfirst : alternating.Leads ("", "") ("a", "1") := ⟨_, rfl, rfl, rfl, by decide⟩
  have hforth : alternating.Leads ("a", "1") ("b", "1") := ⟨_, rfl, rfl, rfl, by decide⟩
  have hback : alternating.Leads ("b", "1") ("a", "1") := ⟨_, rfl, rfl, rfl, by decide⟩
  exact ⟨("a", "1"), .single hfirst, .tail (.single hforth) hback⟩

end Uploads
