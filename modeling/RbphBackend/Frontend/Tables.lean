import Mathlib.Data.Int.Notation
import Mathlib.Data.List.Dedup
import Mathlib.Tactic.Basic

set_option relaxedAutoImplicit false
set_option autoImplicit false

/-!
# Themes: the tables and the queries

A game has theme packages, a published revision and a draft. A revision binds packages' renderers to
surfaces of the game, a round or a puzzle, and activates features of packages. A package that has
been replaced is pending deletion while a revision refers to it; a draft is shown with the package
that has replaced it.

## Main definitions

* `Frontend.Tables` — the tables.
* `Frontend.resolve`, `Frontend.resolveFeatures` — what a revision shows.
* `Frontend.Tables.WellFormed` — the constraints of the schema.

## Main results

* `Frontend.resolve_eq_of_rows`, `Frontend.mem_resolveFeatures` — a query depends on the rows of
  its revision only.
-/

namespace Frontend

abbrev Id := ℤ

/-- A step of a request that is accepted has succeeded. -/
lemma bind_eq_ok {ε α β : Type} {x : Except ε α} {f : α → Except ε β} {b : β}
    (h : x >>= f = .ok b) : ∃ a, x = .ok a ∧ f a = .ok b := by
  cases x with
  | error e => cases h
  | ok a => exact ⟨a, rfl, h⟩

/-! ## The data -/

inductive FrontendFeature where
  | locale
  | icons
  | ui
  deriving DecidableEq

structure ThemeRendererManifest where
  surface : String
  layout : Option String := none
  entry : String
  styles : List String := []
  deriving DecidableEq

/-- A manifest; the features that are not renderers as the texts they are. -/
structure ThemeManifest where
  name : String
  version : String
  renderers : List (String × ThemeRendererManifest) := []
  locale : Option String := none
  icons : Option String := none
  ui : Option String := none
  deriving DecidableEq

namespace ThemeManifest

variable (m : ThemeManifest)

def contains : FrontendFeature → Bool
  | .locale => m.locale.isSome
  | .icons => m.icons.isSome
  | .ui => m.ui.isSome

def renderer (id : String) : Option ThemeRendererManifest :=
  (m.renderers.find? (·.1 = id)).map (·.2)

/-- There is such a renderer, and it is for the surface. -/
def renders (id surface : String) : Bool := (m.renderer id).any (·.surface = surface)

end ThemeManifest

structure FrontendPackage where
  id : Id
  gameId : Id
  assetGroupId : Id
  name : String
  version : String
  manifestPath : String := "rbph-theme.json"
  manifest : ThemeManifest
  sha256 : String
  deletePending : Bool := false
  ctimeAt : ℤ
  deriving DecidableEq

inductive Status where
  | draft
  | published
  deriving DecidableEq

structure FrontendRevision where
  id : Id
  gameId : Id
  revision : ℤ
  status : Status
  createdBy : Option Id
  ctimeAt : ℤ
  publishedAt : Option ℤ := none
  deriving DecidableEq

structure FrontendBinding where
  revisionId : Id
  surface : String
  scopeKind : String
  scopeId : Id
  packageId : Option Id
  rendererId : Option String
  deriving DecidableEq

/-- What a binding is for; the key of the bindings of a revision. -/
structure Slot where
  surface : String
  scopeKind : String
  scopeId : Id
  deriving DecidableEq

def FrontendBinding.slot (b : FrontendBinding) : Slot := ⟨b.surface, b.scopeKind, b.scopeId⟩

structure FrontendFeatureActivation where
  revisionId : Id
  packageId : Id
  feature : FrontendFeature
  deriving DecidableEq

structure AssetGroup where
  id : Id
  objectKey : String
  backend : String
  deriving DecidableEq

/-- The tables; of rounds and puzzles the ids and games. -/
structure Tables where
  packages : List FrontendPackage
  revisions : List FrontendRevision
  bindings : List FrontendBinding
  activations : List FrontendFeatureActivation
  assetGroups : List AssetGroup
  rounds : List (Id × Id)
  puzzles : List (Id × Id)
  nextRevisionId : Id
  deriving DecidableEq

def roundPage : String := "round-page"

def puzzlePage : String := "puzzle-page"

/-- The surface is one, and has scopes of that kind. -/
def validSurface (surface scopeKind : String) : Bool :=
  (surface = roundPage || surface = puzzlePage) && !(surface = roundPage && scopeKind = "puzzle")

/-! ## The queries -/

structure ResolvedBindingRow where
  revision : ℤ
  packageId : Option Id
  rendererId : Option String
  assetGroupId : Option Id
  manifestPath : Option String
  manifest : Option ThemeManifest
  objectKey : Option String
  backend : Option String
  deriving DecidableEq

structure ResolvedFeatureRow where
  revision : ℤ
  packageId : Id
  feature : FrontendFeature
  manifestPath : String
  objectKey : String
  backend : String
  deriving DecidableEq

/-- The rows without the number of the revision. -/
def ResolvedBindingRow.content (row : ResolvedBindingRow) : ResolvedBindingRow :=
  { row with revision := 0 }

def ResolvedFeatureRow.content (row : ResolvedFeatureRow) : ResolvedFeatureRow :=
  { row with revision := 0 }

section Queries

variable (t : Tables)

def Tables.package (id : Id) : Option FrontendPackage := t.packages.find? (·.id = id)

def Tables.assetGroup (id : Id) : Option AssetGroup := t.assetGroups.find? (·.id = id)

/-- `get_package`. -/
def Tables.packageOf (gameId id : Id) : Option FrontendPackage :=
  t.packages.find? fun p => p.gameId = gameId && p.id = id

/-- `scope_valid`. -/
def Tables.scopeValid (gameId : Id) (kind : String) (id : Id) : Bool :=
  if kind = "game" then id = 0
  else if kind = "round" then (id, gameId) ∈ t.rounds
  else if kind = "puzzle" then (id, gameId) ∈ t.puzzles
  else false

/-- The package of that game and name that is not pending deletion. -/
def Tables.active (gameId : Id) (name : String) : Option FrontendPackage :=
  t.packages.find? fun p => p.gameId = gameId && p.name = name && !p.deletePending

/-- The package that a revision shows for `source`. -/
def Tables.shown (status : Status) (source : FrontendPackage) : Option FrontendPackage :=
  if status = .draft ∧ source.deletePending then t.active source.gameId source.name
  else some source

/-- The rank of a scope in `ORDER BY`. -/
def Slot.rank (s : Slot) : ℕ :=
  if s.scopeKind = "puzzle" then 3 else if s.scopeKind = "round" then 2 else 1

/-- The slot is for the surface, and its scope is the puzzle, the round or the game. -/
def Slot.serves (s : Slot) (surface : String) (roundId puzzleId : Id) : Bool :=
  s.surface = surface &&
    ((s.scopeKind = "puzzle" && s.scopeId = puzzleId) ||
      (s.scopeKind = "round" && s.scopeId = roundId) || (s.scopeKind = "game" && s.scopeId = 0))

/-- The package shown for a binding of a revision in that status. -/
def Tables.bound (status : Status) (b : FrontendBinding) : Option FrontendPackage :=
  (b.packageId.bind t.package).bind (t.shown status)

def Tables.bindingRow (r : FrontendRevision) (b : FrontendBinding) : ResolvedBindingRow :=
  let p := t.bound r.status b
  let a := p.bind fun p => t.assetGroup p.assetGroupId
  { revision := r.revision
    packageId := p.map (·.id)
    rendererId := b.rendererId
    assetGroupId := p.map (·.assetGroupId)
    manifestPath := p.map (·.manifestPath)
    manifest := p.map (·.manifest)
    objectKey := a.map (·.objectKey)
    backend := a.map (·.backend) }

/-- The revisions a query is about: the published one, or the one of that id. -/
def Tables.selected (gameId : Id) (previewRevision : Option Id) : List FrontendRevision :=
  t.revisions.filter fun r => r.gameId = gameId &&
    match previewRevision with
    | none => r.status = .published
    | some id => r.id = id

/-- The row for a binding of the revision, if it is there. -/
def Tables.slotRow (r : FrontendRevision) (b : FrontendBinding) :
    Option (Slot × ResolvedBindingRow) :=
  if b.packageId.isNone || (t.bound r.status b).isSome then some (b.slot, t.bindingRow r b)
  else none

/-- The rows of a revision. -/
def Tables.rows (r : FrontendRevision) : List (Slot × ResolvedBindingRow) :=
  (t.bindings.filter (·.revisionId = r.id)).filterMap (t.slotRow r)

/-- `ORDER BY rank DESC LIMIT 1`. -/
def firstByRank (rows : List (Slot × ResolvedBindingRow)) : Option ResolvedBindingRow :=
  (((rows.find? fun row => row.1.rank = 3).or (rows.find? fun row => row.1.rank = 2)).or
    (rows.find? fun row => row.1.rank = 1)).map (·.2)

def resolve (gameId : Id) (surface : String) (roundId puzzleId : Option Id)
    (previewRevision : Option Id) : Option ResolvedBindingRow :=
  firstByRank (((t.selected gameId previewRevision).flatMap t.rows).filter fun row =>
    row.1.serves surface (roundId.getD 0) (puzzleId.getD 0))

/-- The package shown for an activation, which must be one of the game's. -/
def Tables.activated (r : FrontendRevision) (f : FrontendFeatureActivation) :
    Option FrontendPackage :=
  ((t.package f.packageId).filter fun source => source.gameId = r.gameId).bind (t.shown r.status)

def Tables.featureRow (r : FrontendRevision) (f : FrontendFeatureActivation) :
    Option ResolvedFeatureRow := do
  let p ← t.activated r f
  let a ← t.assetGroup p.assetGroupId
  return ⟨r.revision, p.id, f.feature, p.manifestPath, a.objectKey, a.backend⟩

/-- The rows of a revision for its activations. -/
def Tables.featureRows (r : FrontendRevision) : List ResolvedFeatureRow :=
  (t.activations.filter (·.revisionId = r.id)).filterMap (t.featureRow r)

/-- `resolve_features`; the order of the rows is left open. -/
def resolveFeatures (gameId : Id) (previewRevision : Option Id) : List ResolvedFeatureRow :=
  ((t.selected gameId previewRevision).flatMap t.featureRows).dedup

end Queries

/-! ## The schema -/

/-- The checks of `rb_frontend_binding` on what a binding is for. -/
structure Slot.Valid (s : Slot) : Prop where
  surface : s.surface = roundPage ∨ s.surface = puzzlePage
  scope : (s.scopeKind = "game" ∧ s.scopeId = 0) ∨
    ((s.scopeKind = "round" ∨ s.scopeKind = "puzzle") ∧ 0 < s.scopeId)
  roundPage : s.surface = Frontend.roundPage → s.scopeKind ≠ "puzzle"

lemma Slot.valid_iff {s : Slot} : s.Valid ↔
    (s.surface = roundPage ∨ s.surface = puzzlePage) ∧
      ((s.scopeKind = "game" ∧ s.scopeId = 0) ∨
        ((s.scopeKind = "round" ∨ s.scopeKind = "puzzle") ∧ 0 < s.scopeId)) ∧
      (s.surface = roundPage → s.scopeKind ≠ "puzzle") :=
  ⟨fun h => ⟨h.surface, h.scope, h.roundPage⟩, fun h => ⟨h.1, h.2.1, h.2.2⟩⟩

instance : DecidablePred Slot.Valid := fun _ => decidable_of_iff _ Slot.valid_iff.symm

/-- The constraints of the tables. -/
structure Tables.WellFormed (t : Tables) : Prop where
  package_id : (t.packages.map (·.id)).Nodup
  /-- `rb_idx_frontend_package_active_name`. -/
  active_name : ∀ p ∈ t.packages, ∀ q ∈ t.packages, p.deletePending = false →
    q.deletePending = false → p.gameId = q.gameId → p.name = q.name → p = q
  revision_id : (t.revisions.map (·.id)).Nodup
  /-- `rb_idx_frontend_revision_draft` and `rb_idx_frontend_revision_published`. -/
  status : ∀ r ∈ t.revisions, ∀ r' ∈ t.revisions, r.gameId = r'.gameId → r.status = r'.status →
    r = r'
  revision_lt : ∀ r ∈ t.revisions, r.id < t.nextRevisionId
  binding_key : (t.bindings.map fun b => (b.revisionId, b.slot)).Nodup
  binding_revision : ∀ b ∈ t.bindings, ∃ r ∈ t.revisions, r.id = b.revisionId
  binding_package : ∀ b ∈ t.bindings, ∀ id, b.packageId = some id → (t.package id).isSome
  binding_slot : ∀ b ∈ t.bindings, b.slot.Valid
  binding_renderer : ∀ b ∈ t.bindings, b.packageId.isSome = b.rendererId.isSome
  activation_key : t.activations.Nodup
  activation_revision : ∀ f ∈ t.activations, ∃ r ∈ t.revisions, r.id = f.revisionId
  activation_package : ∀ f ∈ t.activations, (t.package f.packageId).isSome
  package_group : ∀ p ∈ t.packages, (t.assetGroup p.assetGroupId).isSome
  package_assets : (t.packages.map (·.assetGroupId)).Nodup

/-! ## Queries and rows -/

section Rows

variable {t t' : Tables} {r r' : FrontendRevision} {gameId : Id} {previewRevision : Option Id}

/-- The rows without the number of the revision. -/
def contents (rows : List (Slot × ResolvedBindingRow)) : List (Slot × ResolvedBindingRow) :=
  rows.map fun row => (row.1, row.2.content)

lemma firstByRank_contents (rows : List (Slot × ResolvedBindingRow)) :
    firstByRank (contents rows) = (firstByRank rows).map ResolvedBindingRow.content := by
  have hfind : ∀ n, (contents rows).find? (fun row => row.1.rank = n) =
      (rows.find? fun row => row.1.rank = n).map fun row => (row.1, row.2.content) := by
    intro n
    rw [contents, List.find?_map]
    rfl
  simp only [firstByRank, hfind]
  cases rows.find? fun row => row.1.rank = 3 <;> cases rows.find? fun row => row.1.rank = 2 <;>
    cases rows.find? fun row => row.1.rank = 1 <;> rfl

lemma filter_contents (rows : List (Slot × ResolvedBindingRow)) (p : Slot → Bool) :
    (contents rows).filter (fun row => p row.1) = contents (rows.filter fun row => p row.1) := by
  rw [contents, List.filter_map]
  rfl

lemma resolve_of_selected (h : t.selected gameId previewRevision = [r]) (surface : String)
    (roundId puzzleId : Option Id) :
    resolve t gameId surface roundId puzzleId previewRevision =
      firstByRank ((t.rows r).filter fun row =>
        row.1.serves surface (roundId.getD 0) (puzzleId.getD 0)) := by
  simp [resolve, h]

/-- **A query depends on the rows of its revision only.** -/
theorem resolve_eq_of_rows {previewRevision' : Option Id}
    (h : t.selected gameId previewRevision = [r]) (h' : t'.selected gameId previewRevision' = [r'])
    (hrows : t'.rows r' = t.rows r) (surface : String) (roundId puzzleId : Option Id) :
    resolve t' gameId surface roundId puzzleId previewRevision' =
      resolve t gameId surface roundId puzzleId previewRevision := by
  rw [resolve_of_selected h, resolve_of_selected h', hrows]

lemma resolve_content_eq_of_rows {previewRevision' : Option Id}
    (h : t.selected gameId previewRevision = [r]) (h' : t'.selected gameId previewRevision' = [r'])
    (hrows : contents (t'.rows r') = contents (t.rows r)) (surface : String)
    (roundId puzzleId : Option Id) :
    (resolve t' gameId surface roundId puzzleId previewRevision').map ResolvedBindingRow.content =
      (resolve t gameId surface roundId puzzleId previewRevision).map
        ResolvedBindingRow.content := by
  rw [resolve_of_selected h, resolve_of_selected h', ← firstByRank_contents, ← firstByRank_contents,
    ← filter_contents _ fun slot => slot.serves surface (roundId.getD 0) (puzzleId.getD 0),
    ← filter_contents _ fun slot => slot.serves surface (roundId.getD 0) (puzzleId.getD 0), hrows]

/-- A feature is shown if an activation of the revision shows it. -/
lemma mem_resolveFeatures (h : t.selected gameId previewRevision = [r])
    {row : ResolvedFeatureRow} : row ∈ resolveFeatures t gameId previewRevision ↔
      ∃ f ∈ t.activations, f.revisionId = r.id ∧ t.featureRow r f = some row := by
  simp only [resolveFeatures, h, List.flatMap_cons, List.flatMap_nil, List.append_nil,
    List.mem_dedup, Tables.featureRows, List.mem_filterMap, List.mem_filter, decide_eq_true_eq]
  exact ⟨fun ⟨f, ⟨hf, hr⟩, hrow⟩ => ⟨f, hf, hr, hrow⟩, fun ⟨f, hf, hr, hrow⟩ =>
    ⟨f, ⟨hf, hr⟩, hrow⟩⟩

end Rows

end Frontend
