import Mathlib.Data.List.Pairwise
import RbphBackend.Frontend.Frames

set_option relaxedAutoImplicit false
set_option autoImplicit false

/-!
# Exporting and importing a theme configuration

The document of a draft names packages instead of referring to them. An import puts the bindings and
activations of a document in the place of those of the draft, after it has checked them against the
content of the game and the packages it has then.

## Main definitions

* `Frontend.getConfig`, `Frontend.putConfig` — the two requests.
* `Frontend.Tables.Reimportable` — what a draft refers to is still there.

## Main results

* `Frontend.reimport_iff` — a draft's own document is accepted and changes nothing that is previewed
  just if the draft is reimportable.
* `Frontend.refused_without_round` — a draft whose document is refused.
-/

namespace Frontend

/-! ## The document -/

structure FrontendConfigBinding where
  surface : String
  scopeKind : String
  scopeId : Id
  packageName : Option String
  rendererId : Option String
  deriving DecidableEq

def FrontendConfigBinding.slot (c : FrontendConfigBinding) : Slot :=
  ⟨c.surface, c.scopeKind, c.scopeId⟩

structure FrontendConfigFeatures where
  packageName : String
  features : List FrontendFeature
  deriving DecidableEq

structure FrontendConfig where
  formatVersion : ℤ
  bindings : List FrontendConfigBinding
  features : List FrontendConfigFeatures
  deriving DecidableEq

inductive FrontendConfigResult where
  | invalidFormat
  | missingPackage (names : List String)
  | invalidBinding
  | rendererRequired
  | rendererUnavailable
  | invalidFeature
  deriving DecidableEq

/-- Why a request fails: it is refused, or the database refuses a statement. -/
inductive ConfigError where
  | refused (code : FrontendConfigResult)
  | internal (e : DatabaseError)
  deriving DecidableEq

/-! ## Export -/

/-- `ensure_draft`. -/
def ensureDraft (t : Tables) (gameId userId : Id) (now : ℤ) :
    Except DatabaseError (Tables × FrontendRevision) :=
  match t.draft gameId with
  | some draft => .ok (t, draft)
  | none => createDraft t gameId userId now

/-- The name of a package of the game, if a package of that name is not pending deletion. -/
def Tables.exportName (t : Tables) (gameId id : Id) : Option String :=
  (t.packageOf gameId id).bind fun p =>
    if !p.deletePending || (t.active gameId p.name).isSome then some p.name else none

def Tables.exportBinding (t : Tables) (gameId : Id) (b : FrontendBinding) :
    Option FrontendConfigBinding :=
  match b.packageId with
  | none => some ⟨b.surface, b.scopeKind, b.scopeId, none, b.rendererId⟩
  | some id => (t.exportName gameId id).map fun name =>
      ⟨b.surface, b.scopeKind, b.scopeId, some name, b.rendererId⟩

/-- `features.entry(name).or_default().push(feature)`, by ascending name. -/
def pushFeature (name : String) (feature : FrontendFeature) :
    List FrontendConfigFeatures → List FrontendConfigFeatures
  | [] => [⟨name, [feature]⟩]
  | g :: gs =>
    if g.packageName = name then ⟨name, g.features ++ [feature]⟩ :: gs
    else if name < g.packageName then ⟨name, [feature]⟩ :: g :: gs
    else g :: pushFeature name feature gs

/-- An activation under the name of its package. -/
def Tables.exportFeature (t : Tables) (gameId : Id) (f : FrontendFeatureActivation) :
    Option (String × FrontendFeature) :=
  (t.exportName gameId f.packageId).map fun name => (name, f.feature)

/-- The features of a document. -/
def groupFeatures (features : List (String × FrontendFeature)) : List FrontendConfigFeatures :=
  features.foldl (fun groups f => pushFeature f.1 f.2 groups) []

/-- The document of a revision; the order in which the rows are read is left open. -/
def Tables.exportConfig (t : Tables) (draft : FrontendRevision) : FrontendConfig where
  formatVersion := 1
  bindings := (t.bindings.filter (·.revisionId = draft.id)).filterMap
    (t.exportBinding draft.gameId)
  features := groupFeatures ((t.activations.filter (·.revisionId = draft.id)).filterMap
    (t.exportFeature draft.gameId))

def getConfig (t : Tables) (gameId userId : Id) (now : ℤ) :
    Except DatabaseError (Tables × FrontendConfig) := do
  let (t, draft) ← ensureDraft t gameId userId now
  return (t, t.exportConfig draft)

/-! ## Import -/

section Import

variable (t : Tables) (draft : FrontendRevision)

/-- The names of packages that the document refers to. -/
def FrontendConfig.referencedNames (c : FrontendConfig) : List String :=
  c.bindings.filterMap (·.packageName) ++ c.features.map (·.packageName)

/-- The package id of a binding of the document, with its checks. -/
def Tables.checkPackage (c : FrontendConfigBinding) :
    Except FrontendConfigResult (Option Id) :=
  match c.packageName with
  | none => if c.rendererId.isSome then .error .invalidBinding else .ok none
  | some name =>
    -- the names have been looked up before
    match t.active draft.gameId name with
    | none => .error (.missingPackage [name])
    | some package =>
      match c.rendererId with
      | none => .error .rendererRequired
      | some rendererId =>
        if package.manifest.renders rendererId c.surface then .ok (some package.id)
        else .error .rendererUnavailable

/-- The first loop: the bindings of the document, of which `keys` have been seen. -/
def Tables.checkBindings (keys : List Slot) :
    List FrontendConfigBinding → Except FrontendConfigResult (List FrontendBinding)
  | [] => .ok []
  | c :: cs =>
    if !validSurface c.surface c.scopeKind || !t.scopeValid draft.gameId c.scopeKind c.scopeId ||
        c.slot ∈ keys then .error .invalidBinding
    else do
      let packageId ← t.checkPackage draft c
      let bindings ← checkBindings (c.slot :: keys) cs
      return ⟨draft.id, c.surface, c.scopeKind, c.scopeId, packageId, c.rendererId⟩ :: bindings

/-- The second loop: the features of the document. -/
def Tables.checkFeatures (keys : List (Id × FrontendFeature)) :
    List (String × FrontendFeature) → Except FrontendConfigResult (List FrontendFeatureActivation)
  | [] => .ok []
  | (name, feature) :: features =>
    match t.active draft.gameId name with
    | none => .error (.missingPackage [name])
    | some package =>
      if !package.manifest.contains feature || (package.id, feature) ∈ keys then
        .error .invalidFeature
      else do
        let activations ← checkFeatures ((package.id, feature) :: keys) features
        return ⟨draft.id, package.id, feature⟩ :: activations

/-- The features of a document one by one. -/
def selections (features : List FrontendConfigFeatures) : List (String × FrontendFeature) :=
  features.flatMap fun selection => selection.features.map fun f => (selection.packageName, f)

/-- The transaction: the rows of the revision are deleted, and those of the document inserted. -/
def Tables.replaceRows (bindings : List FrontendBinding)
    (activations : List FrontendFeatureActivation) : Except ConfigError Tables :=
  if bindings.all (·.checked) then
    .ok { t with
      bindings := t.bindings.filter (·.revisionId ≠ draft.id) ++ bindings
      activations := t.activations.filter (·.revisionId ≠ draft.id) ++ activations }
  else .error (.internal .checkViolation)

def Tables.importConfig (c : FrontendConfig) : Except ConfigError Tables :=
  let missing := c.referencedNames.filter fun name => (t.active draft.gameId name).isNone
  if missing ≠ [] then .error (.refused (.missingPackage missing))
  else do
    let bindings ← (t.checkBindings draft [] c.bindings).mapError .refused
    let activations ← (t.checkFeatures draft [] (selections c.features)).mapError .refused
    t.replaceRows draft bindings activations

end Import

def putConfig (t : Tables) (gameId userId : Id) (now : ℤ) (body : FrontendConfig) :
    Except ConfigError Tables :=
  if body.formatVersion ≠ 1 then .error (.refused .invalidFormat)
  else do
    let (t, draft) ← (ensureDraft t gameId userId now).mapError .internal
    t.importConfig draft body

/-! ## What can be imported again -/

/-- The package that a package's name stands for in a document. -/
def Tables.namesake (t : Tables) (gameId id : Id) : Option FrontendPackage :=
  (t.exportName gameId id).bind (t.active gameId)

/-- What the draft refers to is still there: the round or puzzle of each binding that is exported,
the renderers and features in the packages the names stand for, each feature once for each of them;
and it shows no package of another game. -/
structure Tables.Reimportable (t : Tables) (draft : FrontendRevision) : Prop where
  scope : ∀ b ∈ t.bindings, b.revisionId = draft.id →
    (t.exportBinding draft.gameId b).isSome = true →
    t.scopeValid draft.gameId b.scopeKind b.scopeId = true
  renderer : ∀ b ∈ t.bindings, b.revisionId = draft.id → ∀ id p rendererId,
    b.packageId = some id → t.namesake draft.gameId id = some p → b.rendererId = some rendererId →
    p.manifest.renders rendererId b.surface = true
  feature : ∀ f ∈ t.activations, f.revisionId = draft.id → ∀ p,
    t.namesake draft.gameId f.packageId = some p → p.manifest.contains f.feature = true
  distinct : ∀ f ∈ t.activations, ∀ f' ∈ t.activations, f.revisionId = draft.id →
    f'.revisionId = draft.id → f.feature = f'.feature → ∀ p,
    t.namesake draft.gameId f.packageId = some p → t.namesake draft.gameId f'.packageId = some p →
    f = f'
  game : ∀ b ∈ t.bindings, b.revisionId = draft.id → ∀ id source, b.packageId = some id →
    t.package id = some source → (t.shown .draft source).isSome = true →
    source.gameId = draft.gameId

/-! ## Names -/

section Names

variable {t : Tables} {gameId id : Id} {source : FrontendPackage}

lemma active_of_mem (h : t.WellFormed) (hmem : source ∈ t.packages)
    (hp : source.deletePending = false) : t.active source.gameId source.name = some source := by
  cases hact : t.active source.gameId source.name with
  | none =>
    have hno := List.find?_eq_none.mp hact source hmem
    simp [hp] at hno
  | some active =>
    obtain ⟨hmem', hg, hn, hp'⟩ := mem_of_active hact
    rw [h.active_name active hmem' source hmem hp' hp hg hn]

lemma packageOf_of_package (h : t.WellFormed) (hsrc : t.package id = some source) :
    t.packageOf gameId id = if source.gameId = gameId then some source else none := by
  have hmem := List.mem_of_find?_eq_some hsrc
  have hid : source.id = id := by simpa using List.find?_some hsrc
  cases hof : t.packageOf gameId id with
  | none =>
    have hno := List.find?_eq_none.mp hof source hmem
    simp only [hid, decide_true, Bool.and_true, decide_eq_true_eq] at hno
    rw [if_neg hno]
  | some q =>
    have hq := List.find?_some hof
    simp only [Bool.and_eq_true, decide_eq_true_eq] at hq
    have heq : q = source := List.inj_on_of_nodup_map h.package_id (List.mem_of_find?_eq_some hof)
      hmem (hq.2.trans hid.symm)
    rw [← heq, if_pos hq.1]

/-- A name stands for the package that the draft shows. -/
lemma namesake_of_package (h : t.WellFormed) (hsrc : t.package id = some source) :
    t.namesake gameId id = if source.gameId = gameId then t.shown .draft source else none := by
  have hmem := List.mem_of_find?_eq_some hsrc
  rw [Tables.namesake, Tables.exportName, packageOf_of_package h hsrc]
  by_cases hg : source.gameId = gameId
  · subst hg
    cases hp : source.deletePending with
    | false => simp [hp, Tables.shown, active_of_mem h hmem hp]
    | true =>
      cases hact : t.active source.gameId source.name <;> simp [hp, Tables.shown, hact]
  · simp [hg]

lemma exportName_isSome (h : t.WellFormed) (hsrc : t.package id = some source) :
    (t.exportName gameId id).isSome = (t.namesake gameId id).isSome := by
  have hmem := List.mem_of_find?_eq_some hsrc
  rw [namesake_of_package h hsrc, Tables.exportName, packageOf_of_package h hsrc]
  by_cases hg : source.gameId = gameId
  · subst hg
    cases hp : source.deletePending with
    | false => simp [hp, Tables.shown]
    | true =>
      cases hact : t.active source.gameId source.name <;> simp [hp, Tables.shown, hact]
  · simp [hg]

/-- A name that is exported stands for a package. -/
lemma active_of_exportName (h : t.WellFormed) {name : String}
    (hname : t.exportName gameId id = some name) (hpackage : (t.package id).isSome = true) :
    ∃ p, t.active gameId name = some p ∧ t.namesake gameId id = some p := by
  obtain ⟨source, hsrc⟩ := Option.isSome_iff_exists.mp hpackage
  have hsome : (t.namesake gameId id).isSome = true := by
    rw [← exportName_isSome h hsrc, hname]
    rfl
  obtain ⟨p, hp⟩ := Option.isSome_iff_exists.mp hsome
  refine ⟨p, ?_, hp⟩
  rwa [Tables.namesake, hname] at hp

end Names

/-! ## Accepted bindings -/

section Bindings

variable {t : Tables} {draft : FrontendRevision}

/-- What is inserted for a binding of a document. -/
def Tables.importBinding (t : Tables) (draft : FrontendRevision) (c : FrontendConfigBinding) :
    FrontendBinding :=
  ⟨draft.id, c.surface, c.scopeKind, c.scopeId,
    c.packageName.bind fun name => (t.active draft.gameId name).map (·.id), c.rendererId⟩

/-- The checks on a binding of a document, but for the one that it is the only one of its key. -/
def Tables.Admits (t : Tables) (draft : FrontendRevision) (c : FrontendConfigBinding) : Prop :=
  validSurface c.surface c.scopeKind = true ∧
    t.scopeValid draft.gameId c.scopeKind c.scopeId = true ∧
    match c.packageName with
    | none => c.rendererId = none
    | some name => ∃ p rendererId, t.active draft.gameId name = some p ∧
        c.rendererId = some rendererId ∧ p.manifest.renders rendererId c.surface = true

lemma checkPackage_ok_iff {c : FrontendConfigBinding} {packageId : Option Id} :
    t.checkPackage draft c = .ok packageId ↔
      packageId = (t.importBinding draft c).packageId ∧
        match c.packageName with
        | none => c.rendererId = none
        | some name => ∃ p rendererId, t.active draft.gameId name = some p ∧
            c.rendererId = some rendererId ∧ p.manifest.renders rendererId c.surface = true := by
  unfold Tables.checkPackage Tables.importBinding
  cases c.packageName with
  | none => cases c.rendererId <;> simp [eq_comm]
  | some name =>
    cases hact : t.active draft.gameId name with
    | none => simp [hact]
    | some p =>
      cases c.rendererId with
      | none => simp [hact]
      | some rendererId =>
        simp only [Option.bind_some, hact, Option.map_some]
        by_cases hr : p.manifest.renders rendererId c.surface = true
        · simp only [if_pos hr, Except.ok.injEq]
          exact ⟨fun h => ⟨h.symm, p, rendererId, rfl, rfl, hr⟩, fun h => h.1.symm⟩
        · rw [if_neg hr]
          constructor
          · intro h
            cases h
          · rintro ⟨-, p', id', hp', hid', hr'⟩
            rw [Option.some.inj hp', Option.some.inj hid'] at hr
            exact absurd hr' hr

/-- **The first loop accepts** bindings of distinct keys that pass the checks. -/
lemma checkBindings_ok_iff {keys : List Slot} {cs : List FrontendConfigBinding}
    {bindings : List FrontendBinding} : t.checkBindings draft keys cs = .ok bindings ↔
      (∀ c ∈ cs, t.Admits draft c ∧ c.slot ∉ keys) ∧ (cs.map (·.slot)).Nodup ∧
        bindings = cs.map (t.importBinding draft) := by
  induction cs generalizing keys bindings with
  | nil => simp [Tables.checkBindings, eq_comm]
  | cons c cs ih =>
    rw [Tables.checkBindings]
    by_cases hguard : (!validSurface c.surface c.scopeKind ||
        !t.scopeValid draft.gameId c.scopeKind c.scopeId || decide (c.slot ∈ keys)) = true
    · rw [if_pos hguard]
      constructor
      · intro h
        cases h
      · rintro ⟨hall, -, -⟩
        obtain ⟨⟨hsurface, hscope, -⟩, hkey⟩ := hall c List.mem_cons_self
        simp [hsurface, hscope, hkey] at hguard
    · rw [if_neg hguard]
      simp only [Bool.or_eq_true, Bool.not_eq_true', decide_eq_true_eq, not_or,
        Bool.not_eq_false] at hguard
      obtain ⟨⟨hsurface, hscope⟩, hkey⟩ := hguard
      have hadmits : t.Admits draft c ↔ t.checkPackage draft c =
          .ok (t.importBinding draft c).packageId := by
        rw [checkPackage_ok_iff, Tables.Admits]
        simp only [hsurface, hscope, true_and]
      have hrest : t.checkBindings draft (c.slot :: keys) cs =
          .ok (cs.map (t.importBinding draft)) ↔
            (∀ c' ∈ cs, t.Admits draft c' ∧ c'.slot ∉ c.slot :: keys) ∧
              (cs.map (·.slot)).Nodup := by
        rw [ih]
        simp only [and_true]
      constructor
      · intro h
        obtain ⟨packageId, hp, h⟩ := bind_eq_ok h
        obtain ⟨rest, hr, h⟩ := bind_eq_ok h
        have hpid := (checkPackage_ok_iff.mp hp).1
        obtain ⟨hall, hnodup, rfl⟩ := ih.mp hr
        refine ⟨fun c' hc' => ?_, ?_, ?_⟩
        · rcases List.mem_cons.mp hc' with rfl | hc'
          · exact ⟨hadmits.mpr (hpid ▸ hp), hkey⟩
          · exact ⟨(hall c' hc').1, fun hk => (hall c' hc').2 (List.mem_cons_of_mem _ hk)⟩
        · refine List.nodup_cons.mpr ⟨fun hmem => ?_, hnodup⟩
          obtain ⟨c', hc', heq⟩ := List.mem_map.mp hmem
          exact (hall c' hc').2 (heq ▸ List.mem_cons_self)
        · rw [← Except.ok.inj h, hpid]
          rfl
      · rintro ⟨hall, hnodup, rfl⟩
        obtain ⟨hnot, hnodup⟩ := List.nodup_cons.mp hnodup
        have hr := hrest.mpr ⟨fun c' hc' => ?_, hnodup⟩
        · rw [hadmits.mp (hall c List.mem_cons_self).1, hr]
          rfl
        · obtain ⟨hc, hk⟩ := hall c' (List.mem_cons_of_mem c hc')
          refine ⟨hc, fun hmem => ?_⟩
          rcases List.mem_cons.mp hmem with heq | hmem
          · exact hnot (List.mem_map.mpr ⟨c', hc', heq⟩)
          · exact hk hmem

/-- What a binding to a package comes back as. -/
lemma importBinding_exportBinding (h : t.WellFormed) {b : FrontendBinding} {id : Id}
    {source : FrontendPackage} (hrev : b.revisionId = draft.id) (hid : b.packageId = some id)
    (hsrc : t.package id = some source) :
    (t.exportBinding draft.gameId b).map (t.importBinding draft) =
      (t.namesake draft.gameId id).map fun p => { b with packageId := some p.id } := by
  rw [Tables.exportBinding, hid, Option.map_map]
  cases hname : t.exportName draft.gameId id with
  | none => rw [Tables.namesake, hname]; rfl
  | some name =>
    obtain ⟨p, hact, hp⟩ := active_of_exportName h hname (by rw [hsrc]; rfl)
    simp [hp, Tables.importBinding, hact, hrev]

/-- **The draft's bindings come back settled**, but for those to packages of another game. -/
lemma reimport_binding (h : t.WellFormed) {b : FrontendBinding} (hb : b ∈ t.bindings)
    (hrev : b.revisionId = draft.id) : (t.exportBinding draft.gameId b).map
      (t.importBinding draft) = if b.packageId.all fun id => (t.package id).all fun source =>
        source.gameId = draft.gameId then t.settled b else none := by
  cases hid : b.packageId with
  | none =>
    rw [settled_of_none hid, Tables.exportBinding, hid]
    simp only [Option.map_some, Tables.importBinding, Option.bind_none, Option.all_none, if_true,
      ← hrev]
    rw [← hid]
  | some id =>
    obtain ⟨source, hsrc⟩ := Option.isSome_iff_exists.mp (h.binding_package b hb id hid)
    rw [importBinding_exportBinding h hrev hid hsrc, namesake_of_package h hsrc,
      settled_of_package h hid hsrc]
    by_cases hg : source.gameId = draft.gameId <;> simp [hsrc, hg]

end Bindings

/-! ## Accepted features -/

section Features

variable {t : Tables} {draft : FrontendRevision}

lemma selections_pushFeature (name : String) (feature : FrontendFeature)
    (groups : List FrontendConfigFeatures) :
    (selections (pushFeature name feature groups)).Perm
      (selections groups ++ [(name, feature)]) := by
  induction groups with
  | nil => exact .refl _
  | cons g groups ih =>
    rw [pushFeature]
    split
    · rename_i hname
      subst hname
      simp only [selections, List.flatMap_cons, List.map_append, List.map_cons, List.map_nil,
        List.append_assoc]
      exact List.perm_append_comm.append_left _
    split
    · show ([(name, feature)] ++ selections (g :: groups)).Perm _
      exact List.perm_append_comm
    · simp only [selections, List.flatMap_cons, List.append_assoc]
      exact ih.append_left _

/-- **The features of a document are those it has been made of.** -/
lemma selections_groupFeatures (features : List (String × FrontendFeature)) :
    (selections (groupFeatures features)).Perm features := by
  have hfold : ∀ (features : List (String × FrontendFeature)) (groups : List FrontendConfigFeatures),
      (selections (features.foldl (fun groups f => pushFeature f.1 f.2 groups) groups)).Perm
        (selections groups ++ features) := by
    intro features
    induction features with
    | nil => exact fun groups => by rw [List.append_nil]; rfl
    | cons f features ih =>
      intro groups
      refine (ih _).trans ?_
      rw [List.append_cons]
      exact (selections_pushFeature f.1 f.2 groups).append_right features
  exact hfold features []

lemma name_of_pushFeature {name : String} {feature : FrontendFeature}
    {groups : List FrontendConfigFeatures} {g : FrontendConfigFeatures}
    (hg : g ∈ pushFeature name feature groups) :
    g.packageName = name ∨ ∃ g' ∈ groups, g'.packageName = g.packageName := by
  induction groups with
  | nil => exact .inl (congrArg _ (List.mem_singleton.mp hg))
  | cons g₀ groups ih =>
    rw [pushFeature] at hg
    split at hg
    · rcases List.mem_cons.mp hg with rfl | hg
      · exact .inl rfl
      · exact .inr ⟨g, List.mem_cons_of_mem g₀ hg, rfl⟩
    split at hg
    · rcases List.mem_cons.mp hg with rfl | hg
      · exact .inl rfl
      · exact .inr ⟨g, hg, rfl⟩
    · rcases List.mem_cons.mp hg with rfl | hg
      · exact .inr ⟨g, List.mem_cons_self, rfl⟩
      · exact (ih hg).imp_right fun ⟨g', hg', hname⟩ => ⟨g', List.mem_cons_of_mem g₀ hg', hname⟩

/-- The names of a document are those it has been made of. -/
lemma name_of_groupFeatures {features : List (String × FrontendFeature)}
    {g : FrontendConfigFeatures} (hg : g ∈ groupFeatures features) :
    ∃ f ∈ features, f.1 = g.packageName := by
  have hfold : ∀ (features : List (String × FrontendFeature)) (groups : List FrontendConfigFeatures),
      g ∈ features.foldl (fun groups f => pushFeature f.1 f.2 groups) groups →
        (∃ f ∈ features, f.1 = g.packageName) ∨ ∃ g' ∈ groups, g'.packageName = g.packageName := by
    intro features
    induction features with
    | nil => exact fun groups hg => .inr ⟨g, hg, rfl⟩
    | cons f features ih =>
      intro groups hg
      rcases ih _ hg with ⟨f', hf', hname⟩ | ⟨g', hg', hname⟩
      · exact .inl ⟨f', List.mem_cons_of_mem f hf', hname⟩
      · rcases name_of_pushFeature hg' with heq | ⟨g'', hg'', heq⟩
        · exact .inl ⟨f, List.mem_cons_self, heq.symm.trans hname⟩
        · exact .inr ⟨g'', hg'', heq.trans hname⟩
  rcases hfold features [] hg with hf | ⟨g', hg', -⟩
  · exact hf
  · cases hg'

/-- What is inserted for a feature of a document. -/
def Tables.importFeature (t : Tables) (draft : FrontendRevision) (f : String × FrontendFeature) :
    Option FrontendFeatureActivation :=
  (t.active draft.gameId f.1).map fun p => ⟨draft.id, p.id, f.2⟩

/-- **The second loop accepts** features that their packages have, each once. -/
lemma checkFeatures_ok_iff {keys : List (Id × FrontendFeature)}
    {features : List (String × FrontendFeature)} {activations : List FrontendFeatureActivation} :
    t.checkFeatures draft keys features = .ok activations ↔
      (∀ f ∈ features, ∃ p, t.active draft.gameId f.1 = some p ∧
        p.manifest.contains f.2 = true ∧ (p.id, f.2) ∉ keys) ∧
      (features.filterMap (t.importFeature draft)).Nodup ∧
      activations = features.filterMap (t.importFeature draft) := by
  induction features generalizing keys activations with
  | nil =>
    constructor
    · intro h
      exact ⟨List.forall_mem_nil _, .nil, (Except.ok.inj h).symm⟩
    · rintro ⟨-, -, rfl⟩
      rfl
  | cons f features ih =>
    obtain ⟨name, feature⟩ := f
    rw [Tables.checkFeatures]
    cases hact : t.active draft.gameId name with
    | none => simp [hact]
    | some p =>
      have himport : t.importFeature draft (name, feature) = some ⟨draft.id, p.id, feature⟩ := by
        rw [Tables.importFeature, hact]
        rfl
      simp only [List.filterMap_cons_some himport, List.forall_mem_cons, hact]
      by_cases hguard : (!p.manifest.contains feature || decide ((p.id, feature) ∈ keys)) = true
      · rw [if_pos hguard]
        constructor
        · intro h
          cases h
        · rintro ⟨⟨⟨p', hp', hcontains, hkey⟩, -⟩, -⟩
          obtain rfl := Option.some.inj hp'
          simp [hcontains, hkey] at hguard
      · rw [if_neg hguard]
        simp only [Bool.or_eq_true, Bool.not_eq_true', decide_eq_true_eq, not_or,
          Bool.not_eq_false] at hguard
        obtain ⟨hcontains, hkey⟩ := hguard
        constructor
        · intro h
          obtain ⟨rest, hr, h⟩ := bind_eq_ok h
          obtain ⟨hall, hnodup, rfl⟩ := ih.mp hr
          refine ⟨⟨⟨p, rfl, hcontains, hkey⟩, fun f hf => ?_⟩, List.nodup_cons.mpr ⟨?_, hnodup⟩,
            (Except.ok.inj h).symm⟩
          · obtain ⟨q, hq, hc, hk⟩ := hall f hf
            exact ⟨q, hq, hc, fun hmem => hk (List.mem_cons_of_mem _ hmem)⟩
          · intro hmem
            obtain ⟨f, hf, himp⟩ := List.mem_filterMap.mp hmem
            obtain ⟨q, hq, -, hk⟩ := hall f hf
            rw [Tables.importFeature, hq, Option.map_some] at himp
            obtain ⟨-, hid, hfeature⟩ :=
              FrontendFeatureActivation.mk.inj (Option.some.inj himp)
            rw [hid, hfeature] at hk
            exact hk List.mem_cons_self
        · rintro ⟨⟨-, hall⟩, hnodup, rfl⟩
          obtain ⟨hnot, hnodup⟩ := List.nodup_cons.mp hnodup
          have hr : t.checkFeatures draft ((p.id, feature) :: keys) features =
              .ok (features.filterMap (t.importFeature draft)) := by
            refine ih.mpr ⟨fun f hf => ?_, hnodup, rfl⟩
            obtain ⟨q, hq, hc, hk⟩ := hall f hf
            refine ⟨q, hq, hc, fun hmem => ?_⟩
            rcases List.mem_cons.mp hmem with heq | hmem
            · obtain ⟨hid, hfeature⟩ := Prod.mk.inj heq
              refine hnot (List.mem_filterMap.mpr ⟨f, hf, ?_⟩)
              rw [Tables.importFeature, hq, Option.map_some, hid, hfeature]
            · exact hk hmem
          rw [hr]
          rfl

end Features

/-! ## Accepted documents -/

section Documents

variable {t t' : Tables} {draft : FrontendRevision}

lemma mapError_eq_ok {ε ε' α : Type} {x : Except ε α} {f : ε → ε'} {a : α} :
    x.mapError f = .ok a ↔ x = .ok a := by
  cases x <;> simp [Except.mapError]

/-- What an import makes of the tables. -/
def Tables.imported (t : Tables) (draft : FrontendRevision) (c : FrontendConfig) : Tables :=
  { t with
    bindings := t.bindings.filter (·.revisionId ≠ draft.id) ++
      c.bindings.map (t.importBinding draft)
    activations := t.activations.filter (·.revisionId ≠ draft.id) ++
      (selections c.features).filterMap (t.importFeature draft) }

/-- **The documents that an import accepts.** -/
lemma importConfig_ok_iff {c : FrontendConfig} : t.importConfig draft c = .ok t' ↔
    (∀ name ∈ c.referencedNames, (t.active draft.gameId name).isSome = true) ∧
      (∀ b ∈ c.bindings, t.Admits draft b) ∧ (c.bindings.map (·.slot)).Nodup ∧
      (∀ f ∈ selections c.features, ∃ p, t.active draft.gameId f.1 = some p ∧
        p.manifest.contains f.2 = true) ∧
      ((selections c.features).filterMap (t.importFeature draft)).Nodup ∧
      (c.bindings.map (t.importBinding draft)).all (·.checked) = true ∧
      t' = t.imported draft c := by
  have hmissing : c.referencedNames.filter (fun name => (t.active draft.gameId name).isNone) = [] ↔
      ∀ name ∈ c.referencedNames, (t.active draft.gameId name).isSome = true := by
    simp [List.filter_eq_nil_iff, Option.isSome_iff_ne_none]
  rw [← hmissing, Tables.importConfig]
  split
  · rename_i hne
    constructor
    · intro h
      cases h
    · exact fun h => absurd h.1 hne
  · rename_i hnil
    rw [ne_eq, not_not] at hnil
    simp only [hnil, true_and]
    constructor
    · intro h
      obtain ⟨bindings, hb, h⟩ := bind_eq_ok h
      obtain ⟨activations, hf, h⟩ := bind_eq_ok h
      obtain ⟨hadmits, hslots, rfl⟩ := checkBindings_ok_iff.mp (mapError_eq_ok.mp hb)
      obtain ⟨hfeatures, hnodup, rfl⟩ := checkFeatures_ok_iff.mp (mapError_eq_ok.mp hf)
      rw [Tables.replaceRows] at h
      split at h
      · rename_i hchecked
        refine ⟨fun b hb => (hadmits b hb).1, hslots, fun f hf => ?_, hnodup, hchecked,
          (Except.ok.inj h).symm⟩
        obtain ⟨p, hp, hc, -⟩ := hfeatures f hf
        exact ⟨p, hp, hc⟩
      · cases h
    · rintro ⟨hadmits, hslots, hfeatures, hnodup, hchecked, rfl⟩
      have hb := checkBindings_ok_iff.mpr ⟨fun b hb => ⟨hadmits b hb, List.not_mem_nil⟩, hslots, rfl⟩
      have hf := checkFeatures_ok_iff.mpr ⟨fun f hf => by
        obtain ⟨p, hp, hc⟩ := hfeatures f hf
        exact ⟨p, hp, hc, List.not_mem_nil⟩, hnodup, rfl⟩
      rw [hb, hf]
      show t.replaceRows draft _ _ = _
      rw [Tables.replaceRows, if_pos hchecked]
      rfl

end Documents

/-! ## The draft's own document -/

section Reimport

variable {t t' : Tables} {draft : FrontendRevision}

lemma exportBinding_spec {gameId : Id} {b : FrontendBinding} {c : FrontendConfigBinding}
    (hc : t.exportBinding gameId b = some c) :
    c = ⟨b.surface, b.scopeKind, b.scopeId, b.packageId.bind (t.exportName gameId), b.rendererId⟩ ∧
      ∀ id, b.packageId = some id → (t.exportName gameId id).isSome = true := by
  unfold Tables.exportBinding at hc
  cases hid : b.packageId with
  | none =>
    simp only [hid, Option.some.injEq] at hc
    exact ⟨hc.symm, fun id hid' => by cases hid'⟩
  | some id =>
    simp only [hid] at hc
    obtain ⟨name, hname, rfl⟩ := Option.map_eq_some_iff.mp hc
    refine ⟨by rw [Option.bind_some, hname], fun id' hid' => ?_⟩
    rw [← Option.some.inj hid', hname]
    rfl

/-- What the name of an exported binding stands for. -/
lemma exportBinding_package (h : t.WellFormed) {b : FrontendBinding} (hb : b ∈ t.bindings)
    {c : FrontendConfigBinding} (hc : t.exportBinding draft.gameId b = some c) :
    (b.packageId = none ∧ c.packageName = none ∧ b.rendererId = none) ∨
      ∃ id name p rendererId, b.packageId = some id ∧ c.packageName = some name ∧
        t.active draft.gameId name = some p ∧ t.namesake draft.gameId id = some p ∧
        b.rendererId = some rendererId := by
  obtain ⟨rfl, hsome⟩ := exportBinding_spec hc
  have hrenderer := h.binding_renderer b hb
  cases hid : b.packageId with
  | none =>
    rw [hid] at hrenderer
    exact .inl ⟨rfl, rfl, by simpa using hrenderer.symm⟩
  | some id =>
    rw [hid] at hrenderer
    obtain ⟨name, hname⟩ := Option.isSome_iff_exists.mp (hsome id hid)
    obtain ⟨p, hact, hp⟩ := active_of_exportName h hname (h.binding_package b hb id hid)
    obtain ⟨rendererId, hr⟩ := Option.isSome_iff_exists.mp hrenderer.symm
    exact .inr ⟨id, name, p, rendererId, rfl, hname, hact, hp, hr⟩

lemma validSurface_of_valid {slot : Slot} (hs : slot.Valid) :
    validSurface slot.surface slot.scopeKind = true := by
  simp only [validSurface, Bool.and_eq_true, Bool.or_eq_true, decide_eq_true_eq,
    Bool.not_eq_true', Bool.and_eq_false_imp, decide_eq_false_iff_not]
  exact ⟨hs.surface, hs.roundPage⟩

/-- The checks on an exported binding are on its scope and on its renderer. -/
lemma admits_exportBinding (h : t.WellFormed) {b : FrontendBinding} (hb : b ∈ t.bindings)
    {c : FrontendConfigBinding} (hc : t.exportBinding draft.gameId b = some c) :
    t.Admits draft c ↔ t.scopeValid draft.gameId b.scopeKind b.scopeId = true ∧
      ∀ id p rendererId, b.packageId = some id → t.namesake draft.gameId id = some p →
        b.rendererId = some rendererId → p.manifest.renders rendererId b.surface = true := by
  have hsurface : validSurface b.surface b.scopeKind = true :=
    validSurface_of_valid (h.binding_slot b hb)
  have hpackage := exportBinding_package h hb hc
  obtain ⟨rfl, -⟩ := exportBinding_spec hc
  simp only [Tables.Admits, hsurface, true_and]
  refine and_congr_right fun _ => ?_
  rcases hpackage with ⟨hid, hname, hr⟩ | ⟨id, name, p, rendererId, hid, hname, hact, hp, hr⟩
  · replace hname : b.packageId.bind (t.exportName draft.gameId) = none := hname
    rw [hname]
    refine ⟨fun _ id p rendererId hid' => ?_, fun _ => hr⟩
    rw [hid] at hid'
    cases hid'
  · replace hname : b.packageId.bind (t.exportName draft.gameId) = some name := hname
    rw [hname]
    simp only [hid, hr, hact]
    constructor
    · rintro ⟨p', r', hp', hr', hrenders⟩ id' q r'' hid' hq hr''
      obtain rfl := Option.some.inj hid'
      obtain rfl := Option.some.inj (hp.symm.trans hq)
      obtain rfl := Option.some.inj hp'
      rw [← Option.some.inj hr'', Option.some.inj hr']
      exact hrenders
    · exact fun hrenders => ⟨p, rendererId, rfl, rfl, hrenders id p rendererId rfl hp rfl⟩

/-- Each name of the document is that of a package not pending deletion. -/
lemma active_referencedNames (h : t.WellFormed) :
    ∀ name ∈ (t.exportConfig draft).referencedNames,
      (t.active draft.gameId name).isSome = true := by
  intro name hname
  rcases List.mem_append.mp hname with hname | hname
  · obtain ⟨c, hc, hname⟩ := List.mem_filterMap.mp hname
    obtain ⟨b, hb, hc⟩ := List.mem_filterMap.mp hc
    rcases exportBinding_package h (List.mem_filter.mp hb).1 hc with
      ⟨-, hnone, -⟩ | ⟨id, name', p, rendererId, -, hname', hact, -, -⟩
    · rw [hnone] at hname
      cases hname
    · obtain rfl := Option.some.inj (hname'.symm.trans hname)
      rw [hact]
      rfl
  · obtain ⟨g, hg, rfl⟩ := List.mem_map.mp hname
    obtain ⟨f, hf, hname⟩ := name_of_groupFeatures hg
    obtain ⟨a, ha, hf⟩ := List.mem_filterMap.mp hf
    obtain ⟨name, hexport, rfl⟩ := Option.map_eq_some_iff.mp hf
    obtain ⟨p, hact, -⟩ := active_of_exportName h hexport
      (h.activation_package a (List.mem_filter.mp ha).1)
    rw [← hname, hact]
    rfl

lemma nodup_exported (h : t.WellFormed) : ((t.exportConfig draft).bindings.map (·.slot)).Nodup := by
  have hslots : ((t.bindings.filter (·.revisionId = draft.id)).map (·.slot)).Nodup := by
    refine List.Nodup.map_on ?_ ((List.Nodup.of_map _ h.binding_key).filter _)
    intro b hb b' hb' heq
    obtain ⟨hb, hrev⟩ := List.mem_filter.mp hb
    obtain ⟨hb', hrev'⟩ := List.mem_filter.mp hb'
    simp only [decide_eq_true_eq] at hrev hrev'
    exact List.inj_on_of_nodup_map h.binding_key hb hb' (Prod.ext (hrev.trans hrev'.symm) heq)
  refine nodup_filterMap_key (fun b c hc => ?_) hslots
  obtain ⟨rfl, -⟩ := exportBinding_spec hc
  rfl

lemma checked_exported (h : t.WellFormed) :
    ((t.exportConfig draft).bindings.map (t.importBinding draft)).all (·.checked) = true := by
  simp only [List.all_eq_true, List.mem_map]
  rintro _ ⟨c, hc, rfl⟩
  obtain ⟨b, hb, hc⟩ := List.mem_filterMap.mp hc
  obtain ⟨hb, -⟩ := List.mem_filter.mp hb
  have hslot : (t.importBinding draft c).slot = b.slot := by
    obtain ⟨rfl, -⟩ := exportBinding_spec hc
    rfl
  have hrenderer : c.rendererId = b.rendererId := by
    obtain ⟨rfl, -⟩ := exportBinding_spec hc
    rfl
  simp only [FrontendBinding.checked, hslot, h.binding_slot b hb, decide_true, Bool.true_and,
    decide_eq_true_eq]
  rcases exportBinding_package h hb hc with ⟨-, hname, hr⟩ | ⟨_, _, p, _, -, hname, hact, -, hr⟩
  · simp [Tables.importBinding, hname, hrenderer, hr]
  · simp [Tables.importBinding, hname, hact, hrenderer, hr]

/-- What becomes of an activation. -/
def Tables.reimportFeature (t : Tables) (draft : FrontendRevision) (f : FrontendFeatureActivation) :
    Option FrontendFeatureActivation :=
  (t.namesake draft.gameId f.packageId).map fun p => ⟨draft.id, p.id, f.feature⟩

lemma bind_importFeature (f : FrontendFeatureActivation) :
    (t.exportFeature draft.gameId f).bind (t.importFeature draft) = t.reimportFeature draft f := by
  unfold Tables.exportFeature Tables.reimportFeature Tables.namesake
  cases t.exportName draft.gameId f.packageId <;> rfl

/-- The activations that an import of the document inserts. -/
lemma perm_reimportFeature :
    ((selections (t.exportConfig draft).features).filterMap (t.importFeature draft)).Perm
      ((t.activations.filter (·.revisionId = draft.id)).filterMap (t.reimportFeature draft)) := by
  refine ((selections_groupFeatures _).filterMap _).trans (List.Perm.of_eq ?_)
  rw [List.filterMap_filterMap]
  exact List.filterMap_congr fun f _ => bind_importFeature f

/-- Each is inserted once if each feature is there once for each name. -/
lemma nodup_reimportFeature (h : t.WellFormed) :
    ((selections (t.exportConfig draft).features).filterMap (t.importFeature draft)).Nodup ↔
      ∀ f ∈ t.activations, ∀ f' ∈ t.activations, f.revisionId = draft.id →
        f'.revisionId = draft.id → f.feature = f'.feature → ∀ p,
        t.namesake draft.gameId f.packageId = some p →
        t.namesake draft.gameId f'.packageId = some p → f = f' := by
  have hnodup : (t.activations.filter (·.revisionId = draft.id)).Nodup := h.activation_key.filter _
  have hmem : ∀ f, f ∈ t.activations.filter (·.revisionId = draft.id) ↔
      f ∈ t.activations ∧ f.revisionId = draft.id := fun f => by
    rw [List.mem_filter, decide_eq_true_eq]
  rw [perm_reimportFeature.nodup_iff, List.Nodup, List.pairwise_filterMap]
  constructor
  · intro hpair f hf f' hf' hrev hrev' hfeature p hp hp'
    by_contra hne
    have hsymm : Std.Symm fun a a' : FrontendFeatureActivation =>
        ∀ b, t.reimportFeature draft a = some b → ∀ b', t.reimportFeature draft a' = some b' →
          b ≠ b' := ⟨fun a a' haa b hb b' hb' heq => haa b' hb' b hb heq.symm⟩
    refine hpair.forall ((hmem f).mpr ⟨hf, hrev⟩) ((hmem f').mpr ⟨hf', hrev'⟩) hne
      ⟨draft.id, p.id, f.feature⟩ ?_ ⟨draft.id, p.id, f'.feature⟩ ?_ (by rw [hfeature])
    · rw [Tables.reimportFeature, hp]
      rfl
    · rw [Tables.reimportFeature, hp']
      rfl
  · intro hdistinct
    refine hnodup.pairwise_of_forall_ne fun f hf f' hf' hne b hb b' hb' heq => hne ?_
    obtain ⟨hf, hrev⟩ := (hmem f).mp hf
    obtain ⟨hf', hrev'⟩ := (hmem f').mp hf'
    obtain ⟨p, hp, rfl⟩ := Option.map_eq_some_iff.mp hb
    obtain ⟨p', hp', rfl⟩ := Option.map_eq_some_iff.mp hb'
    obtain ⟨-, hid, hfeature⟩ := FrontendFeatureActivation.mk.inj heq
    have hsame : ∀ q id, t.namesake draft.gameId id = some q → q ∈ t.packages := fun q id hq => by
      obtain ⟨name, -, hact⟩ := Option.bind_eq_some_iff.mp hq
      exact (mem_of_active hact).1
    have hpp : p = p' := List.inj_on_of_nodup_map h.package_id (hsame p _ hp) (hsame p' _ hp') hid
    exact hdistinct f hf f' hf' hrev hrev' hfeature p hp (hpp ▸ hp')

/-- The features of the document are had by the packages the names stand for. -/
lemma contains_exportFeature (h : t.WellFormed) :
    (∀ f ∈ selections (t.exportConfig draft).features, ∃ p,
      t.active draft.gameId f.1 = some p ∧ p.manifest.contains f.2 = true) ↔
    ∀ f ∈ t.activations, f.revisionId = draft.id → ∀ p,
      t.namesake draft.gameId f.packageId = some p → p.manifest.contains f.feature = true := by
  have hmem : ∀ f, f ∈ selections (t.exportConfig draft).features ↔
      ∃ a ∈ t.activations, a.revisionId = draft.id ∧
        t.exportFeature draft.gameId a = some f := fun f => by
    rw [Tables.exportConfig, (selections_groupFeatures _).mem_iff, List.mem_filterMap]
    simp only [List.mem_filter, decide_eq_true_eq, and_assoc]
  constructor
  · intro hall a ha hrev p hp
    obtain ⟨name, hname, hact⟩ := Option.bind_eq_some_iff.mp hp
    have hexport : t.exportFeature draft.gameId a = some (name, a.feature) := by
      rw [Tables.exportFeature, hname]
      rfl
    obtain ⟨q, hq, hcontains⟩ := hall _ ((hmem _).mpr ⟨a, ha, hrev, hexport⟩)
    rwa [Option.some.inj (hact.symm.trans hq)]
  · intro hall f hf
    obtain ⟨a, ha, hrev, hexport⟩ := (hmem f).mp hf
    obtain ⟨name, hname, rfl⟩ := Option.map_eq_some_iff.mp hexport
    obtain ⟨p, hact, hp⟩ := active_of_exportName h hname (h.activation_package a ha)
    exact ⟨p, hact, hall a ha hrev p hp⟩

/-- **When the draft's own document is accepted.** -/
lemma importConfig_exportConfig_iff (h : t.WellFormed) :
    t.importConfig draft (t.exportConfig draft) = .ok t' ↔
      ((∀ b ∈ t.bindings, b.revisionId = draft.id →
          (t.exportBinding draft.gameId b).isSome = true →
          t.scopeValid draft.gameId b.scopeKind b.scopeId = true) ∧
        (∀ b ∈ t.bindings, b.revisionId = draft.id → ∀ id p rendererId,
          b.packageId = some id → t.namesake draft.gameId id = some p →
          b.rendererId = some rendererId → p.manifest.renders rendererId b.surface = true) ∧
        (∀ f ∈ t.activations, f.revisionId = draft.id → ∀ p,
          t.namesake draft.gameId f.packageId = some p → p.manifest.contains f.feature = true) ∧
        ∀ f ∈ t.activations, ∀ f' ∈ t.activations, f.revisionId = draft.id →
          f'.revisionId = draft.id → f.feature = f'.feature → ∀ p,
          t.namesake draft.gameId f.packageId = some p →
          t.namesake draft.gameId f'.packageId = some p → f = f') ∧
      t' = t.imported draft (t.exportConfig draft) := by
  rw [importConfig_ok_iff, contains_exportFeature h, nodup_reimportFeature h]
  have hadmits : (∀ c ∈ (t.exportConfig draft).bindings, t.Admits draft c) ↔
      (∀ b ∈ t.bindings, b.revisionId = draft.id →
        (t.exportBinding draft.gameId b).isSome = true →
        t.scopeValid draft.gameId b.scopeKind b.scopeId = true) ∧
      ∀ b ∈ t.bindings, b.revisionId = draft.id → ∀ id p rendererId,
        b.packageId = some id → t.namesake draft.gameId id = some p →
        b.rendererId = some rendererId → p.manifest.renders rendererId b.surface = true := by
    have hmem : ∀ c, c ∈ (t.exportConfig draft).bindings ↔ ∃ b ∈ t.bindings,
        b.revisionId = draft.id ∧ t.exportBinding draft.gameId b = some c := fun c => by
      rw [Tables.exportConfig, List.mem_filterMap]
      simp only [List.mem_filter, decide_eq_true_eq, and_assoc]
    constructor
    · intro hall
      refine ⟨fun b hb hrev hsome => ?_, fun b hb hrev id p rendererId hid hp hr => ?_⟩
      · obtain ⟨c, hc⟩ := Option.isSome_iff_exists.mp hsome
        exact ((admits_exportBinding h hb hc).mp (hall c ((hmem c).mpr ⟨b, hb, hrev, hc⟩))).1
      · obtain ⟨name, hname, -⟩ := Option.bind_eq_some_iff.mp hp
        have hc : t.exportBinding draft.gameId b =
            some ⟨b.surface, b.scopeKind, b.scopeId, some name, b.rendererId⟩ := by
          rw [Tables.exportBinding, hid]
          simp only [hname, Option.map_some]
        exact ((admits_exportBinding h hb hc).mp (hall _ ((hmem _).mpr ⟨b, hb, hrev, hc⟩))).2 id p
          rendererId hid hp hr
    · rintro ⟨hscope, hrenders⟩ c hc
      obtain ⟨b, hb, hrev, hc⟩ := (hmem c).mp hc
      exact (admits_exportBinding h hb hc).mpr ⟨hscope b hb hrev (by rw [hc]; rfl),
        hrenders b hb hrev⟩
  rw [hadmits]
  have hnames := @active_referencedNames t draft h
  have hslots := @nodup_exported t draft h
  have hchecked := @checked_exported t draft h
  tauto

end Reimport

/-! ## What is previewed after -/

section Preview

variable {t : Tables} {draft : FrontendRevision}

/-- The tables after the draft's own document has been imported. -/
def Tables.reimported (t : Tables) (draft : FrontendRevision) : Tables :=
  t.imported draft (t.exportConfig draft)

/-- The binding is to no package, or to one of the game. -/
def Tables.own (t : Tables) (gameId : Id) (b : FrontendBinding) : Bool :=
  b.packageId.all fun id => (t.package id).all fun source => source.gameId = gameId

lemma shown_gameId {status : Status} {source p : FrontendPackage}
    (hp : t.shown status source = some p) : p.gameId = source.gameId := by
  unfold Tables.shown at hp
  split at hp
  · exact (mem_of_active hp).2.1
  · rw [Option.some.inj hp]

/-- **The rows after are those before**, but for bindings to packages of another game. -/
lemma rows_reimported (h : t.WellFormed) (hd : draft.status = .draft) :
    (t.reimported draft).rows draft = ((t.bindings.filter (·.revisionId = draft.id)).filter
      (t.own draft.gameId)).filterMap (t.slotRow draft) := by
  have hbindings : (t.reimported draft).bindings.filter (·.revisionId = draft.id) =
      (t.bindings.filter (·.revisionId = draft.id)).filterMap fun b =>
        (t.exportBinding draft.gameId b).map (t.importBinding draft) := by
    show (_ ++ List.map _ _).filter _ = _
    have hothers : (t.bindings.filter (·.revisionId ≠ draft.id)).filter
        (·.revisionId = draft.id) = [] := by
      refine List.filter_eq_nil_iff.mpr fun b hb => ?_
      simpa using (List.mem_filter.mp hb).2
    have hall : ∀ cs : List FrontendConfigBinding, (cs.map (t.importBinding draft)).filter
        (·.revisionId = draft.id) = cs.map (t.importBinding draft) := fun cs => by
      refine List.filter_eq_self.mpr fun b hb => ?_
      obtain ⟨c, -, rfl⟩ := List.mem_map.mp hb
      exact decide_eq_true rfl
    rw [List.filter_append, hothers, List.nil_append, hall, Tables.exportConfig, List.map_filterMap]
  have hslot : (t.reimported draft).slotRow = t.slotRow := slotRow_congr rfl rfl
  rw [Tables.rows, hbindings, hslot, List.filterMap_filterMap,
    List.filterMap_filter (p := t.own draft.gameId)]
  refine List.filterMap_congr fun b hb => ?_
  obtain ⟨hb, hrev⟩ := List.mem_filter.mp hb
  rw [reimport_binding h hb (by simpa using hrev)]
  show Option.bind (if t.own draft.gameId b = true then _ else _) _ = _
  split
  · exact slotRow_settled h hb hd rfl
  · rfl

/-- What is shown for a binding to a package. -/
lemma slotRow_draft (hd : draft.status = .draft) {b : FrontendBinding} {id : Id}
    {source : FrontendPackage} (hid : b.packageId = some id) (hsrc : t.package id = some source) :
    (t.slotRow draft b).map (fun row => row.2.packageId) =
      (t.shown .draft source).map fun p => some p.id := by
  have hbound : t.bound draft.status b = t.shown .draft source := by
    simp [Tables.bound, hid, hsrc, hd]
  simp only [Tables.slotRow, Tables.bindingRow, hbound, hid]
  cases t.shown .draft source <;> rfl

/-- The game condition is that no row is lost. -/
lemma rows_reimported_eq (h : t.WellFormed) (hd : draft.status = .draft)
    (hgame : ∀ b ∈ t.bindings, b.revisionId = draft.id → ∀ id source, b.packageId = some id →
      t.package id = some source → (t.shown .draft source).isSome = true →
      source.gameId = draft.gameId) : (t.reimported draft).rows draft = t.rows draft := by
  rw [rows_reimported h hd, Tables.rows, List.filterMap_filter (p := t.own draft.gameId)]
  refine List.filterMap_congr fun b hb => ?_
  obtain ⟨hb, hrev⟩ := List.mem_filter.mp hb
  split
  · rfl
  · rename_i hown
    cases hid : b.packageId with
    | none => simp [Tables.own, hid] at hown
    | some id =>
      obtain ⟨source, hsrc⟩ := Option.isSome_iff_exists.mp (h.binding_package b hb id hid)
      have hne : source.gameId ≠ draft.gameId := by simpa [Tables.own, hid, hsrc] using hown
      have hnone : t.shown .draft source = none := by
        rw [← Option.not_isSome_iff_eq_none]
        exact fun hs => hne (hgame b hb (by simpa using hrev) id source hid hsrc hs)
      have hrow := slotRow_draft hd hid hsrc
      rw [hnone] at hrow
      exact (Option.map_eq_none_iff.mp hrow).symm

/-! ### Features -/

/-- A draft shows the package that the name stands for. -/
lemma activated_eq_namesake (h : t.WellFormed) (hd : draft.status = .draft)
    {f : FrontendFeatureActivation} (hf : f ∈ t.activations) :
    t.activated draft f = t.namesake draft.gameId f.packageId := by
  obtain ⟨source, hsrc⟩ := Option.isSome_iff_exists.mp (h.activation_package f hf)
  rw [activated_of_package hsrc, namesake_of_package h hsrc, hd]

lemma featureRow_reimport (h : t.WellFormed) (hd : draft.status = .draft)
    {f f' : FrontendFeatureActivation} (hf : f ∈ t.activations)
    (hf' : t.reimportFeature draft f = some f') : t.featureRow draft f' = t.featureRow draft f := by
  obtain ⟨p, hp, rfl⟩ := Option.map_eq_some_iff.mp hf'
  obtain ⟨name, -, hact⟩ := Option.bind_eq_some_iff.mp hp
  obtain ⟨hmem, hg, -, hpend⟩ := mem_of_active hact
  have hactivated : t.activated draft ⟨draft.id, p.id, f.feature⟩ = some p := by
    have hpackage : t.package p.id = some p := package_of_mem h hmem
    rw [activated_of_package hpackage, if_pos hg]
    simp [Tables.shown, hpend]
  rw [Tables.featureRow, Tables.featureRow, hactivated, activated_eq_namesake h hd hf, hp]

/-- **The features after are those before.** -/
lemma mem_features_reimported (h : t.WellFormed) (hd : draft.status = .draft)
    (hsel : t.selected draft.gameId (some draft.id) = [draft]) {row : ResolvedFeatureRow} :
    row ∈ resolveFeatures (t.reimported draft) draft.gameId (some draft.id) ↔
      row ∈ resolveFeatures t draft.gameId (some draft.id) := by
  have hsel' : (t.reimported draft).selected draft.gameId (some draft.id) = [draft] := hsel
  have hfeature : (t.reimported draft).featureRow = t.featureRow := featureRow_congr_tables rfl rfl
  rw [mem_resolveFeatures hsel, mem_resolveFeatures hsel', hfeature]
  have hmem : ∀ f', f' ∈ (t.reimported draft).activations ∧ f'.revisionId = draft.id ↔
      ∃ f ∈ t.activations, f.revisionId = draft.id ∧ t.reimportFeature draft f = some f' := by
    intro f'
    have hnew : f' ∈ (selections (t.exportConfig draft).features).filterMap
        (t.importFeature draft) ↔
        ∃ f ∈ t.activations, f.revisionId = draft.id ∧ t.reimportFeature draft f = some f' := by
      rw [perm_reimportFeature.mem_iff, List.mem_filterMap]
      simp only [List.mem_filter, decide_eq_true_eq, and_assoc]
    rw [← hnew]
    constructor
    · rintro ⟨hf', hrev⟩
      rcases List.mem_append.mp hf' with hf' | hf'
      · simp [hrev] at hf'
      · exact hf'
    · intro hf'
      refine ⟨List.mem_append_right _ hf', ?_⟩
      obtain ⟨f, -, -, hf⟩ := hnew.mp hf'
      obtain ⟨p, -, rfl⟩ := Option.map_eq_some_iff.mp hf
      rfl
  constructor
  · rintro ⟨f', hf', hrev', hrow⟩
    obtain ⟨f, hf, hrev, himp⟩ := (hmem f').mp ⟨hf', hrev'⟩
    exact ⟨f, hf, hrev, (featureRow_reimport h hd hf himp) ▸ hrow⟩
  · rintro ⟨f, hf, hrev, hrow⟩
    have hsome : (t.namesake draft.gameId f.packageId).isSome = true := by
      rw [← activated_eq_namesake h hd hf]
      cases hact : t.activated draft f with
      | none => simp [Tables.featureRow, hact] at hrow
      | some p => rfl
    obtain ⟨p, hp⟩ := Option.isSome_iff_exists.mp hsome
    have himp : t.reimportFeature draft f = some ⟨draft.id, p.id, f.feature⟩ := by
      rw [Tables.reimportFeature, hp]
      rfl
    obtain ⟨hf', hrev'⟩ := (hmem _).mpr ⟨f, hf, hrev, himp⟩
    exact ⟨_, hf', hrev', (featureRow_reimport h hd hf himp).trans hrow⟩

/-! ### A lost row is missed -/

lemma mem_of_firstByRank {rows : List (Slot × ResolvedBindingRow)} {row : ResolvedBindingRow}
    (h : firstByRank rows = some row) : ∃ slot, (slot, row) ∈ rows := by
  obtain ⟨⟨slot, row'⟩, hfind, rfl⟩ := Option.map_eq_some_iff.mp h
  refine ⟨slot, ?_⟩
  rcases Option.or_eq_some_iff.mp hfind with hfind | ⟨-, hfind⟩
  · rcases Option.or_eq_some_iff.mp hfind with hfind | ⟨-, hfind⟩ <;>
      exact List.mem_of_find?_eq_some hfind
  · exact List.mem_of_find?_eq_some hfind

lemma rank_cases (slot : Slot) : slot.rank = 3 ∨ slot.rank = 2 ∨ slot.rank = 1 := by
  unfold Slot.rank
  split
  · exact .inl rfl
  split
  · exact .inr (.inl rfl)
  · exact .inr (.inr rfl)

/-- The row of the slot of the highest rank comes first. -/
lemma firstByRank_of_max {rows : List (Slot × ResolvedBindingRow)} {slot : Slot}
    {row : ResolvedBindingRow} (hmem : (slot, row) ∈ rows)
    (hmax : ∀ x ∈ rows, x.1 = slot ∨ x.1.rank < slot.rank)
    (huniq : ∀ x ∈ rows, x.1 = slot → x.2 = row) : firstByRank rows = some row := by
  have hnone : ∀ n, slot.rank < n → rows.find? (fun x => x.1.rank = n) = none := by
    intro n hn
    refine List.find?_eq_none.mpr fun x hx => ?_
    rw [decide_eq_true_eq]
    rcases hmax x hx with heq | hlt
    · rw [heq]
      exact Nat.ne_of_lt hn
    · exact Nat.ne_of_lt (Nat.lt_trans hlt hn)
  have hsome : ∃ x, rows.find? (fun x => x.1.rank = slot.rank) = some x ∧ x.2 = row := by
    cases hfind : rows.find? (fun x => x.1.rank = slot.rank) with
    | none =>
      have hno := List.find?_eq_none.mp hfind _ hmem
      simp at hno
    | some x =>
      have hx := List.mem_of_find?_eq_some hfind
      have hrank : x.1.rank = slot.rank := by simpa using List.find?_some hfind
      refine ⟨x, rfl, huniq x hx ((hmax x hx).resolve_right fun hlt => ?_)⟩
      exact Nat.ne_of_lt hlt hrank
  obtain ⟨x, hfind, rfl⟩ := hsome
  rcases rank_cases slot with hr | hr | hr
  · rw [hr] at hfind
    simp only [firstByRank, hfind, Option.some_or, Option.map_some]
  · rw [hr] at hfind hnone
    simp only [firstByRank, hfind, hnone 3 (by decide), Option.none_or, Option.some_or,
      Option.map_some]
  · rw [hr] at hfind hnone
    simp only [firstByRank, hfind, hnone 3 (by decide), hnone 2 (by decide), Option.none_or,
      Option.map_some]

/-- What serves the scope of a slot is the slot itself or of a lower rank. -/
lemma serves_own {slot other : Slot} (hs : slot.Valid) (ho : other.Valid) :
    let roundId := if slot.scopeKind = "round" then slot.scopeId else 0
    let puzzleId := if slot.scopeKind = "puzzle" then slot.scopeId else 0
    slot.serves slot.surface roundId puzzleId = true ∧
      (other.serves slot.surface roundId puzzleId = true →
        other = slot ∨ other.rank < slot.rank) := by
  obtain ⟨surface, kind, id⟩ := slot
  obtain ⟨surface', kind', id'⟩ := other
  have hscope := hs.scope
  have hscope' := ho.scope
  simp only at hscope hscope'
  rcases hscope with ⟨rfl, rfl⟩ | ⟨rfl | rfl, hpos⟩ <;>
    rcases hscope' with ⟨rfl, rfl⟩ | ⟨rfl | rfl, hpos'⟩ <;>
    simp [Slot.serves, Slot.rank]
  -- no round and no puzzle has the id 0
  all_goals exact fun _ => Int.ne_of_gt hpos'

/-- **Each row is shown somewhere**: at the round or puzzle that its binding is for. -/
lemma exists_resolve_slot (h : t.WellFormed)
    (hsel : t.selected draft.gameId (some draft.id) = [draft]) {b : FrontendBinding}
    (hb : b ∈ t.bindings) (hrev : b.revisionId = draft.id) {row : ResolvedBindingRow}
    (hrow : t.slotRow draft b = some (b.slot, row)) : ∃ roundId puzzleId : Option Id,
      resolve t draft.gameId b.surface roundId puzzleId (some draft.id) = some row := by
  refine ⟨some (if b.slot.scopeKind = "round" then b.slot.scopeId else 0),
    some (if b.slot.scopeKind = "puzzle" then b.slot.scopeId else 0), ?_⟩
  have hmem : ∀ x, x ∈ t.rows draft ↔ ∃ b' ∈ t.bindings, b'.revisionId = draft.id ∧
      t.slotRow draft b' = some x := fun x => by
    simp only [Tables.rows, List.mem_filterMap, List.mem_filter, decide_eq_true_eq, and_assoc]
  have hslot : ∀ b' x, t.slotRow draft b' = some x → x.1 = b'.slot := by
    intro b' x hx
    unfold Tables.slotRow at hx
    split at hx
    · rw [← Option.some.inj hx]
    · cases hx
  rw [resolve_of_selected hsel]
  have hserves := (serves_own (h.binding_slot b hb) (h.binding_slot b hb)).1
  refine firstByRank_of_max (List.mem_filter.mpr ⟨(hmem _).mpr ⟨b, hb, hrev, hrow⟩, hserves⟩)
    (fun x hx => ?_) fun x hx heq => ?_
  · obtain ⟨hx, hserves⟩ := List.mem_filter.mp hx
    obtain ⟨b', hb', -, hx⟩ := (hmem x).mp hx
    have hvalid : x.1.Valid := hslot b' x hx ▸ h.binding_slot b' hb'
    exact (serves_own (h.binding_slot b hb) hvalid).2 hserves
  · obtain ⟨b', hb', hrev', hx⟩ := (hmem x).mp (List.mem_filter.mp hx).1
    have hsame : b' = b := List.inj_on_of_nodup_map h.binding_key hb' hb
      (Prod.ext (hrev'.trans hrev.symm) ((hslot b' x hx).symm.trans heq))
    rw [hsame, hrow] at hx
    rw [← Option.some.inj hx]

/-- If nothing that is previewed changes, the draft shows no package of another game. -/
lemma game_of_resolve (h : t.WellFormed) (hd : draft.status = .draft)
    (hsel : t.selected draft.gameId (some draft.id) = [draft])
    (hsame : ∀ surface roundId puzzleId,
      resolve (t.reimported draft) draft.gameId surface roundId puzzleId (some draft.id) =
        resolve t draft.gameId surface roundId puzzleId (some draft.id))
    {b : FrontendBinding} (hb : b ∈ t.bindings) (hrev : b.revisionId = draft.id) {id : Id}
    {source : FrontendPackage} (hid : b.packageId = some id) (hsrc : t.package id = some source)
    (hshown : (t.shown .draft source).isSome = true) : source.gameId = draft.gameId := by
  obtain ⟨q, hq⟩ := Option.isSome_iff_exists.mp hshown
  have hrow : ∃ row, t.slotRow draft b = some (b.slot, row) ∧ row.packageId = some q.id := by
    have hmap := slotRow_draft hd hid hsrc
    rw [hq, Option.map_some] at hmap
    obtain ⟨⟨slot, row⟩, hrow, hpackage⟩ := Option.map_eq_some_iff.mp hmap
    have hslot : slot = b.slot := by
      unfold Tables.slotRow at hrow
      split at hrow
      · exact (congrArg Prod.fst (Option.some.inj hrow)).symm
      · cases hrow
    exact ⟨row, hslot ▸ hrow, hpackage⟩
  obtain ⟨row, hrow, hpackage⟩ := hrow
  obtain ⟨roundId, puzzleId, hresolve⟩ := exists_resolve_slot h hsel hb hrev hrow
  have hsel' : (t.reimported draft).selected draft.gameId (some draft.id) = [draft] := hsel
  rw [← hsame, resolve_of_selected hsel'] at hresolve
  -- the row is still there, for a binding to a package of the game
  obtain ⟨slot, hmem⟩ := mem_of_firstByRank hresolve
  rw [rows_reimported h hd] at hmem
  obtain ⟨b', hb', hrow'⟩ := List.mem_filterMap.mp (List.mem_filter.mp hmem).1
  obtain ⟨hb', hown⟩ := List.mem_filter.mp hb'
  obtain ⟨hb', -⟩ := List.mem_filter.mp hb'
  cases hid' : b'.packageId with
  | none =>
    have hnone : row.packageId = none := by
      simp only [Tables.slotRow, hid', Option.isNone_none, Bool.true_or, if_true,
        Option.some.injEq, Prod.mk.injEq] at hrow'
      rw [← hrow'.2]
      simp [Tables.bindingRow, Tables.bound, hid']
    rw [hnone] at hpackage
    cases hpackage
  | some id' =>
    obtain ⟨source', hsrc'⟩ := Option.isSome_iff_exists.mp (h.binding_package b' hb' id' hid')
    have hgame : source'.gameId = draft.gameId := by simpa [Tables.own, hid', hsrc'] using hown
    have hmap := slotRow_draft hd hid' hsrc'
    rw [hrow', Option.map_some, hpackage] at hmap
    obtain ⟨q', hq', heq⟩ := Option.map_eq_some_iff.mp hmap.symm
    have hsamePackage : q' = q := by
      have h₁ := (package_of_shown h hsrc' hq').1
      have h₂ := (package_of_shown h hsrc hq).1
      rw [Option.some.inj heq, h₂] at h₁
      exact (Option.some.inj h₁).symm
    rw [← shown_gameId hq, ← hsamePackage, shown_gameId hq', hgame]

end Preview

/-! ## The two requests -/

section Requests

variable {t : Tables} {draft : FrontendRevision} {gameId userId userId' : Id} {now now' : ℤ}

/-- **A draft's own document is accepted and leaves what is previewed as it is** just if what the
draft refers to is still there. -/
theorem reimport_iff (h : t.WellFormed) (hd : t.draft gameId = some draft) :
    (∃ t₁ config t', getConfig t gameId userId now = .ok (t₁, config) ∧
      putConfig t₁ gameId userId' now' config = .ok t' ∧
      (∀ surface roundId puzzleId,
        resolve t' gameId surface roundId puzzleId (some draft.id) =
          resolve t₁ gameId surface roundId puzzleId (some draft.id)) ∧
      ∀ row, row ∈ resolveFeatures t' gameId (some draft.id) ↔
        row ∈ resolveFeatures t₁ gameId (some draft.id)) ↔ t.Reimportable draft := by
  have hmem := List.mem_of_find?_eq_some hd
  have hp := List.find?_some hd
  simp only [Bool.and_eq_true, decide_eq_true_eq] at hp
  obtain ⟨rfl, hs⟩ := hp
  have hsel : t.selected draft.gameId (some draft.id) = [draft] := selected_some h hmem rfl
  have hget : getConfig t draft.gameId userId now = .ok (t, t.exportConfig draft) := by
    rw [getConfig, ensureDraft, hd]
    rfl
  have hput : putConfig t draft.gameId userId' now' (t.exportConfig draft) =
      t.importConfig draft (t.exportConfig draft) := by
    rw [putConfig, ensureDraft, hd, if_neg (by simp [Tables.exportConfig])]
    rfl
  constructor
  · rintro ⟨t₁, config, t', hget', hput', hsame, -⟩
    rw [hget] at hget'
    obtain ⟨rfl, rfl⟩ := Prod.mk.inj (Except.ok.inj hget')
    rw [hput] at hput'
    obtain ⟨⟨hscope, hrenderer, hfeature, hdistinct⟩, rfl⟩ :=
      (importConfig_exportConfig_iff h).mp hput'
    exact ⟨hscope, hrenderer, hfeature, hdistinct, fun b hb hrev id source hid hsrc hshown =>
      game_of_resolve h hs hsel hsame hb hrev hid hsrc hshown⟩
  · intro hr
    have hok : t.importConfig draft (t.exportConfig draft) = .ok (t.reimported draft) :=
      (importConfig_exportConfig_iff h).mpr
        ⟨⟨hr.scope, hr.renderer, hr.feature, hr.distinct⟩, rfl⟩
    have hsel' : (t.reimported draft).selected draft.gameId (some draft.id) = [draft] := hsel
    exact ⟨t, t.exportConfig draft, t.reimported draft, hget, hput.trans hok,
      resolve_eq_of_rows hsel hsel' (rows_reimported_eq h hs hr.game),
      fun row => mem_features_reimported h hs hsel⟩

/-! ### A deleted round -/

/-- The theme with a replaced package, of which the draft has the icons once. -/
def reimportableTheme : Tables :=
  { replacedTheme with activations := [⟨1, 1, .icons⟩, ⟨2, 1, .icons⟩] }

/-- The draft of the theme. -/
def themeDraft : FrontendRevision := ⟨2, 1, 2, .draft, some 7, 5, none⟩

lemma reimportableTheme_wellFormed : reimportableTheme.WellFormed :=
  replacedTheme_wellFormed.of_rows replacedTheme_wellFormed.binding_key
    (fun b hb => ⟨replacedTheme_wellFormed.binding_revision b hb,
      replacedTheme_wellFormed.binding_slot b hb, replacedTheme_wellFormed.binding_renderer b hb,
      replacedTheme_wellFormed.binding_package b hb⟩) (by decide +kernel) (by decide +kernel)

lemma reimportableTheme_reimportable : reimportableTheme.Reimportable themeDraft where
  scope := by decide +kernel
  renderer b hb hrev id p rendererId hid hp hr := by
    have hall : ∀ b ∈ reimportableTheme.bindings, b.revisionId = themeDraft.id →
        (b.packageId.bind (reimportableTheme.namesake themeDraft.gameId)).all (fun p =>
          b.rendererId.all fun r => p.manifest.renders r b.surface) = true := by decide +kernel
    simpa [hid, hp, hr] using hall b hb hrev
  feature f hf hrev p hp := by
    have hall : ∀ f ∈ reimportableTheme.activations, f.revisionId = themeDraft.id →
        (reimportableTheme.namesake themeDraft.gameId f.packageId).all (fun p =>
          p.manifest.contains f.feature) = true := by decide +kernel
    simpa [hp] using hall f hf hrev
  distinct f hf f' hf' hrev hrev' hfeature p _ _ := by
    have hall : ∀ f ∈ reimportableTheme.activations, ∀ f' ∈ reimportableTheme.activations,
        f.revisionId = themeDraft.id → f'.revisionId = themeDraft.id → f = f' := by
      decide +kernel
    exact hall f hf f' hf' hrev hrev'
  game b hb hrev id source hid hsrc _ := by
    have hall : ∀ b ∈ reimportableTheme.bindings, b.revisionId = themeDraft.id →
        reimportableTheme.own themeDraft.gameId b = true := by decide +kernel
    simpa [Tables.own, hid, hsrc] using hall b hb hrev

theorem reimport_iff_reimportableTheme : ∃ t₁ config t',
    getConfig reimportableTheme 1 7 0 = .ok (t₁, config) ∧
      putConfig t₁ 1 7 0 config = .ok t' := by
  have hiff := @reimport_iff reimportableTheme themeDraft 1 7 7 0 0 reimportableTheme_wellFormed
    (by decide +kernel)
  obtain ⟨t₁, config, t', hget, hput, -⟩ := hiff.mpr reimportableTheme_reimportable
  exact ⟨t₁, config, t', hget, hput⟩

/-- The round that the draft has a binding for has been deleted. -/
def roundlessTheme : Tables := { reimportableTheme with rounds := [] }

/-- No constraint is about rounds and puzzles. -/
lemma Tables.WellFormed.of_content (h : t.WellFormed) (rounds puzzles : List (Id × Id)) :
    Tables.WellFormed { t with rounds, puzzles } where
  package_id := h.package_id
  active_name := h.active_name
  revision_id := h.revision_id
  status := h.status
  revision_lt := h.revision_lt
  binding_key := h.binding_key
  binding_revision := h.binding_revision
  binding_package := h.binding_package
  binding_slot := h.binding_slot
  binding_renderer := h.binding_renderer
  activation_key := h.activation_key
  activation_revision := h.activation_revision
  activation_package := h.activation_package
  package_group := h.package_group
  package_assets := h.package_assets

/-- **A draft with a binding for a deleted round has a document that is refused.** -/
theorem refused_without_round : ¬ ∀ (t : Tables) (draft : FrontendRevision) (gameId userId : Id)
    (now : ℤ), t.WellFormed → t.draft gameId = some draft →
    ∃ t₁ config t', getConfig t gameId userId now = .ok (t₁, config) ∧
      putConfig t₁ gameId userId now config = .ok t' := by
  intro h
  obtain ⟨t₁, config, t', hget, hput⟩ := h roundlessTheme themeDraft 1 7 0
    (reimportableTheme_wellFormed.of_content [] []) (by decide +kernel)
  have hrefused : ((getConfig roundlessTheme 1 7 0).toOption.all fun r =>
      (putConfig r.1 1 7 0 r.2).toOption.isNone) = true := by decide +kernel
  rw [hget] at hrefused
  simp [Except.toOption, hput] at hrefused

end Requests

end Frontend
