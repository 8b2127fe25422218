import RbphBackend.Frontend.Publish

set_option relaxedAutoImplicit false
set_option autoImplicit false

/-!
# What is previewed is published

A draft is shown with the packages that have replaced those it refers to. Publishing puts these
packages into its rows, so that the published revision shows the same without any replacement, and
so does the draft that comes after it.

## Main results

* `Frontend.previewed_publish` — bindings and features before and after.
-/

namespace Frontend

/-! ## Selected revisions -/

section Selected

variable {t : Tables} {r : FrontendRevision} {gameId : Id}

lemma filter_eq_singleton {α : Type} {l : List α} {p : α → Bool} {a : α} (hnodup : l.Nodup)
    (ha : a ∈ l) (hp : p a = true) (huniq : ∀ x ∈ l, p x = true → x = a) : l.filter p = [a] := by
  refine List.perm_singleton.mp ((List.perm_ext_iff_of_nodup (hnodup.filter p)
    (List.nodup_singleton a)).mpr fun x => ?_)
  rw [List.mem_filter, List.mem_singleton]
  refine ⟨fun hx => huniq x hx.1 hx.2, ?_⟩
  rintro rfl
  exact ⟨ha, hp⟩

lemma selected_some (h : t.WellFormed) (hr : r ∈ t.revisions) (hg : r.gameId = gameId) :
    t.selected gameId (some r.id) = [r] := by
  refine filter_eq_singleton (List.Nodup.of_map _ h.revision_id) hr (by simp [hg]) fun x hx hp => ?_
  simp only [Bool.and_eq_true, decide_eq_true_eq] at hp
  exact List.inj_on_of_nodup_map h.revision_id hx hr hp.2

lemma selected_none (h : t.WellFormed) (hr : r ∈ t.revisions) (hg : r.gameId = gameId)
    (hs : r.status = .published) : t.selected gameId none = [r] := by
  refine filter_eq_singleton (List.Nodup.of_map _ h.revision_id) hr (by simp [hg, hs])
    fun x hx hp => ?_
  simp only [Bool.and_eq_true, decide_eq_true_eq] at hp
  exact h.status x hx r hr (hp.1.trans hg.symm) (hp.2.trans hs.symm)

end Selected

/-! ## Bindings -/

section Bindings

variable {t : Tables}

/-- A binding to no package pending deletion shows its package in any revision. -/
lemma bound_of_not_pending {b : FrontendBinding}
    (h : ∀ id, b.packageId = some id → t.pending id = false) (status : Status) :
    t.bound status b = b.packageId.bind t.package := by
  unfold Tables.bound
  cases hb : b.packageId with
  | none => rfl
  | some id =>
    cases hsrc : t.package id with
    | none => simp [hsrc]
    | some source =>
      have hp : source.deletePending = false := by simpa [Tables.pending, hsrc] using h id hb
      simp [hsrc, Tables.shown, hp]

lemma replacement_of_package {id : Id} {source : FrontendPackage}
    (hsrc : t.package id = some source) : t.replacement id =
      if source.deletePending then t.active source.gameId source.name else none := by
  cases hp : source.deletePending <;> simp [Tables.replacement, hsrc, Option.filter, hp]

lemma pending_of_replacement (h : t.WellFormed) {id : Id} {active : FrontendPackage}
    (hr : t.replacement id = some active) : t.pending active.id = false := by
  obtain ⟨old, -, -, hact⟩ := replacement_spec hr
  simp [Tables.pending, isSome_package_of_replacement h hr, (mem_of_active hact).2.2.2]

/-- The package that the draft shows is there, and is not pending deletion. -/
lemma package_of_shown (h : t.WellFormed) {id : Id} {source p : FrontendPackage}
    (hsrc : t.package id = some source) (hp : t.shown .draft source = some p) :
    t.package p.id = some p ∧ t.pending p.id = false := by
  have hthere : t.package p.id = some p ∧ p.deletePending = false := by
    unfold Tables.shown at hp
    split at hp
    · exact ⟨package_of_mem h (mem_of_active hp).1, (mem_of_active hp).2.2.2⟩
    · rename_i hpend
      obtain rfl := Option.some.inj hp
      exact ⟨package_of_mem h (List.mem_of_find?_eq_some hsrc), by simpa using hpend⟩
  exact ⟨hthere.1, by simp [Tables.pending, hthere.1, hthere.2]⟩

/-- **A binding settles to the package that the draft shows for it.** -/
lemma settled_of_package (h : t.WellFormed) {b : FrontendBinding} {id : Id}
    {source : FrontendPackage} (hid : b.packageId = some id) (hsrc : t.package id = some source) :
    t.settled b = (t.shown .draft source).map fun p => { b with packageId := some p.id } := by
  have hrep := replacement_of_package hsrc
  cases hp : source.deletePending with
  | false =>
    -- the package is not pending, and stays
    have hrw : t.rewritten b = b := by simp [Tables.rewritten, hid, hrep, hp]
    have hpend : t.pending id = false := by simp [Tables.pending, hsrc, hp]
    have heq : source.id = id := by simpa using List.find?_some hsrc
    have hsame : { b with packageId := some source.id } = b := by rw [heq, ← hid]
    have hset : t.settled b = some b := by simp [Tables.settled, hrw, hid, hpend]
    have hshown : t.shown .draft source = some source := by simp [Tables.shown, hp]
    rw [hset, hshown, Option.map_some, hsame]
  | true =>
    simp only [hp, if_true] at hrep
    cases hact : t.active source.gameId source.name with
    | some active =>
      -- the package is replaced
      rw [hact] at hrep
      have hrw : t.rewritten b = { b with packageId := some active.id } := by
        simp [Tables.rewritten, hid, hrep]
      simp [Tables.settled, Tables.shown, hrw, pending_of_replacement h hrep, hp, hact]
    | none =>
      -- nothing has replaced it
      rw [hact] at hrep
      have hrw : t.rewritten b = b := by simp [Tables.rewritten, hid, hrep]
      have hpend : t.pending id = true := by simp [Tables.pending, hsrc, hp]
      simp [Tables.settled, Tables.shown, hrw, hid, hpend, hp, hact]

lemma settled_of_none {b : FrontendBinding} (hid : b.packageId = none) : t.settled b = some b := by
  have hrw : t.rewritten b = b := by simp [Tables.rewritten, hid]
  simp [Tables.settled, hrw, hid]

/-- **A settled binding shows in any revision what it has shown in the draft**, and one that is
dropped has shown nothing. -/
lemma bound_settled (h : t.WellFormed) {b : FrontendBinding} (hb : b ∈ t.bindings) :
    match t.settled b with
    | some b' => ∀ status, t.bound status b' = t.bound .draft b
    | none => b.packageId.isSome ∧ t.bound .draft b = none := by
  cases hid : b.packageId with
  | none =>
    rw [settled_of_none hid]
    intro status
    simp [Tables.bound, hid]
  | some id =>
    obtain ⟨source, hsrc⟩ := Option.isSome_iff_exists.mp (h.binding_package b hb id hid)
    have hbound : t.bound .draft b = t.shown .draft source := by simp [Tables.bound, hid, hsrc]
    rw [settled_of_package h hid hsrc, hbound]
    cases hshown : t.shown .draft source with
    | none => exact ⟨rfl, rfl⟩
    | some p =>
      obtain ⟨hthere, hpend⟩ := package_of_shown h hsrc hshown
      intro status
      rw [bound_of_not_pending fun id' hid' => by rwa [← Option.some.inj hid']]
      exact hthere

/-- The rows for a binding of the draft and for what becomes of it. -/
lemma slotRow_settled (h : t.WellFormed) {b : FrontendBinding} (hb : b ∈ t.bindings)
    {draft r : FrontendRevision} (hd : draft.status = .draft) (hr : r.revision = draft.revision) :
    (t.settled b).bind (t.slotRow r) = t.slotRow draft b := by
  have hbound := bound_settled h hb
  cases hset : t.settled b with
  | none =>
    rw [hset] at hbound
    obtain ⟨hsome, hnone⟩ := hbound
    have hsome : b.packageId.isNone = false := by simpa using hsome
    simp [Tables.slotRow, hd, hnone, hsome]
  | some b' =>
    rw [hset] at hbound
    obtain ⟨rfl, -⟩ := settled_spec hset
    obtain ⟨hslot, -, hrenderer, hpackage⟩ := rewritten_slot (t := t) b
    have hnone : (t.rewritten b).packageId.isNone = b.packageId.isNone := by
      rw [← Option.not_isSome, hpackage, Option.not_isSome]
    simp only [Option.bind_some, Tables.slotRow, Tables.bindingRow, hbound r.status, hd, hr, hslot,
      hrenderer, hnone]

/-- Revisions show the same for a binding to no package pending deletion. -/
lemma slotRow_of_not_pending {b : FrontendBinding}
    (h : ∀ id, b.packageId = some id → t.pending id = false) (r r' : FrontendRevision)
    (revisionId : Id) :
    (t.slotRow r' { b with revisionId }).map (fun row => (row.1, row.2.content)) =
      (t.slotRow r b).map fun row => (row.1, row.2.content) := by
  have hb := bound_of_not_pending h r.status
  have hb' : t.bound r'.status { b with revisionId } = b.packageId.bind t.package :=
    bound_of_not_pending (b := { b with revisionId }) h r'.status
  simp only [Tables.slotRow, Tables.bindingRow, hb, hb']
  split <;> rfl

end Bindings

/-! ## Activations -/

section Activations

variable {t : Tables} {f : FrontendFeatureActivation} {draft r : FrontendRevision}

lemma activated_of_package {source : FrontendPackage} (hsrc : t.package f.packageId = some source) :
    t.activated r f = if source.gameId = r.gameId then t.shown r.status source else none := by
  by_cases hg : source.gameId = r.gameId <;> simp [Tables.activated, hsrc, Option.filter, hg]

/-- The package shown for an activation before it is moved and after. -/
lemma activated_moved (h : t.WellFormed) (hf : f ∈ t.activations) (hd : draft.status = .draft)
    (hg : r.gameId = draft.gameId) :
    if t.pending (t.moved f).packageId then t.activated draft f = none
    else t.activated r (t.moved f) = t.activated draft f := by
  obtain ⟨source, hsrc⟩ := Option.isSome_iff_exists.mp (h.activation_package f hf)
  have hrep := replacement_of_package hsrc
  have hdraft := activated_of_package (r := draft) hsrc
  cases hp : source.deletePending with
  | false =>
    have hmoved : t.moved f = f := by simp [Tables.moved, hrep, hp]
    have hpend : t.pending f.packageId = false := by simp [Tables.pending, hsrc, hp]
    rw [hmoved, hpend, hdraft, activated_of_package hsrc, hg]
    simp [Tables.shown, hp]
  | true =>
    simp only [hp, if_true] at hrep
    simp only [Tables.shown, hd, hp, true_and, if_true] at hdraft
    cases hact : t.active source.gameId source.name with
    | some active =>
      rw [hact] at hrep hdraft
      have hmoved : t.moved f = { f with packageId := active.id } := by
        simp [Tables.moved, hrep]
      have hgame : active.gameId = source.gameId := (mem_of_active hact).2.1
      have hshown : t.shown r.status active = some active := by
        simp [Tables.shown, (mem_of_active hact).2.2.2]
      rw [hmoved, pending_of_replacement h hrep, hdraft,
        activated_of_package (isSome_package_of_replacement h hrep), hgame, hg, hshown]
      simp
    | none =>
      rw [hact] at hrep hdraft
      have hmoved : t.moved f = f := by simp [Tables.moved, hrep]
      have hpend : t.pending f.packageId = true := by simp [Tables.pending, hsrc, hp]
      rw [hmoved, hpend, hdraft]
      simp

/-- The rows for an activation before it is moved and after. -/
lemma featureRow_moved (h : t.WellFormed) (hf : f ∈ t.activations) (hd : draft.status = .draft)
    (hg : r.gameId = draft.gameId) (hpend : t.pending (t.moved f).packageId = false) :
    t.featureRow r (t.moved f) =
      (t.featureRow draft f).map fun row => { row with revision := r.revision } := by
  have hact := activated_moved h hf hd hg
  simp only [hpend, Bool.false_eq_true, if_false] at hact
  simp only [Tables.featureRow, hact, (moved_spec f).2]
  cases t.activated draft f with
  | none => rfl
  | some p => cases hgroup : t.assetGroup p.assetGroupId <;> simp [hgroup]

/-- Nothing is shown for an activation of a package that nothing has replaced. -/
lemma featureRow_of_pending (h : t.WellFormed) (hf : f ∈ t.activations) (hd : draft.status = .draft)
    (hpend : t.pending (t.moved f).packageId = true) : t.featureRow draft f = none := by
  have hact := activated_moved h hf hd (r := draft) rfl
  simp only [hpend, if_true] at hact
  simp [Tables.featureRow, hact]

lemma featureRow_congr {f' : FrontendFeatureActivation} (hp : f'.packageId = f.packageId)
    (hfeature : f'.feature = f.feature) : t.featureRow r f' = t.featureRow r f := by
  simp only [Tables.featureRow, Tables.activated, hp, hfeature]

lemma featureRow_revision {row : ResolvedFeatureRow} (hrow : t.featureRow r f = some row) :
    row.revision = r.revision := by
  simp only [Tables.featureRow, bind, Option.bind_eq_some_iff, pure] at hrow
  obtain ⟨p, -, a, -, hrow⟩ := hrow
  rw [← Option.some.inj hrow]

lemma featureRow_map_revision (hr : r.revision = draft.revision) :
    (t.featureRow draft f).map (fun row => { row with revision := r.revision }) =
      t.featureRow draft f := by
  cases hrow : t.featureRow draft f with
  | none => rfl
  | some row => rw [Option.map_some, hr, ← featureRow_revision hrow]

/-- An activation that is dropped for another one has shown the same. -/
lemma exists_of_duplicate (h : t.WellFormed) (hf : f ∈ t.activations) (hd : draft.status = .draft)
    (hdup : t.duplicate f = true) : ∃ c ∈ t.activations, c.revisionId = f.revisionId ∧
      t.duplicate c = false ∧ t.moved c = c ∧ t.pending c.packageId = false ∧
      t.featureRow draft c = t.featureRow draft f := by
  obtain ⟨active, hrep, hany⟩ : ∃ active, t.replacement f.packageId = some active ∧
      t.activations.any (fun current => current.revisionId = f.revisionId &&
        current.packageId = active.id && current.feature = f.feature) = true := by
    cases hrep : t.replacement f.packageId with
    | none => simp [Tables.duplicate, hrep] at hdup
    | some active => exact ⟨active, rfl, by simpa [Tables.duplicate, hrep] using hdup⟩
  obtain ⟨c, hc, hkey⟩ := List.any_eq_true.mp hany
  simp only [Bool.and_eq_true, decide_eq_true_eq] at hkey
  obtain ⟨⟨hrev, hpackage⟩, hfeature⟩ := hkey
  have hpend := pending_of_replacement h hrep
  have hnone : t.replacement c.packageId = none := by
    have hsrc := isSome_package_of_replacement h hrep
    have hd : active.deletePending = false := by simpa [Tables.pending, hsrc] using hpend
    simp [hpackage, replacement_of_package hsrc, hd]
  have hmoved : t.moved f = { f with packageId := active.id } := by simp [Tables.moved, hrep]
  refine ⟨c, hc, hrev, by simp [Tables.duplicate, hnone], by simp [Tables.moved, hnone],
    hpackage ▸ hpend, ?_⟩
  have hrow := featureRow_moved h hf hd (r := draft) rfl (by rw [hmoved]; exact hpend)
  rw [featureRow_congr (f := t.moved f) (by rw [hmoved]; exact hpackage)
    (by rw [hmoved]; exact hfeature), hrow, featureRow_map_revision rfl]

/-- The activations of the draft that the statements leave. -/
lemma mem_settledActivations {draftId : Id} : f ∈ settledActivations t draftId ∧
    f.revisionId = draftId ↔ ∃ f₀ ∈ t.activations, f₀.revisionId = draftId ∧
      t.duplicate f₀ = false ∧ t.moved f₀ = f ∧ t.pending f.packageId = false := by
  simp only [settledActivations, movedActivations, List.mem_filter, List.mem_map,
    Bool.not_eq_true', Bool.and_eq_false_imp, decide_eq_true_eq]
  constructor
  · rintro ⟨⟨⟨f₀, ⟨hf₀, hdup⟩, hmoved⟩, hpend⟩, hrev⟩
    by_cases hrev₀ : f₀.revisionId = draftId
    · rw [if_pos hrev₀] at hmoved
      exact ⟨f₀, hf₀, hrev₀, hdup hrev₀, hmoved, hpend hrev⟩
    · rw [if_neg hrev₀] at hmoved
      exact absurd (hmoved ▸ hrev) hrev₀
  · rintro ⟨f₀, hf₀, hrev₀, hdup, hmoved, hpend⟩
    refine ⟨⟨⟨f₀, ⟨hf₀, fun _ => hdup⟩, ?_⟩, fun _ => hpend⟩, ?_⟩
    · rw [if_pos hrev₀, hmoved]
    · rw [← hmoved, (moved_spec f₀).1, hrev₀]

/-- The rows for what becomes of the draft's activations are the draft's rows. -/
lemma featureRow_settled (h : t.WellFormed) (hd : draft.status = .draft)
    (hg : r.gameId = draft.gameId) {row : ResolvedFeatureRow} :
    (∃ f, (f ∈ settledActivations t draft.id ∧ f.revisionId = draft.id) ∧
      t.featureRow r f = some row) ↔
    ∃ f ∈ t.activations, f.revisionId = draft.id ∧
      (t.featureRow draft f).map (fun row => { row with revision := r.revision }) = some row := by
  constructor
  · rintro ⟨f', hf', hrow⟩
    obtain ⟨f, hf, hrev, -, rfl, hpend⟩ := mem_settledActivations.mp hf'
    exact ⟨f, hf, hrev, (featureRow_moved h hf hd hg hpend) ▸ hrow⟩
  · rintro ⟨f, hf, hrev, hrow⟩
    -- one of the activations that show the row is not dropped for another one
    obtain ⟨c, hc, hcrev, hdup, hcrow⟩ : ∃ c ∈ t.activations, c.revisionId = draft.id ∧
        t.duplicate c = false ∧ t.featureRow draft c = t.featureRow draft f := by
      cases hdup : t.duplicate f with
      | false => exact ⟨f, hf, hrev, hdup, rfl⟩
      | true =>
        obtain ⟨c, hc, hcrev, hcdup, -, -, hcrow⟩ := exists_of_duplicate h hf hd hdup
        exact ⟨c, hc, hcrev.trans hrev, hcdup, hcrow⟩
    have hpend : t.pending (t.moved c).packageId = false := by
      rw [← Bool.not_eq_true]
      intro hpend
      rw [← hcrow, featureRow_of_pending h hc hd hpend] at hrow
      cases hrow
    refine ⟨t.moved c, mem_settledActivations.mpr ⟨c, hc, hcrev, hdup, rfl, hpend⟩, ?_⟩
    rw [featureRow_moved h hc hd hg hpend, hcrow, hrow]

end Activations

/-! ## The rows of the tables after -/

section Rows

variable {t t' : Tables}

lemma package_congr (hp : t'.packages = t.packages) : t'.package = t.package := by
  funext id
  simp only [Tables.package, hp]

lemma shown_congr (hp : t'.packages = t.packages) : t'.shown = t.shown := by
  funext status source
  simp only [Tables.shown, Tables.active, hp]

lemma assetGroup_congr (ha : t'.assetGroups = t.assetGroups) : t'.assetGroup = t.assetGroup := by
  funext id
  simp only [Tables.assetGroup, ha]

lemma bound_congr (hp : t'.packages = t.packages) : t'.bound = t.bound := by
  funext status b
  simp only [Tables.bound, package_congr hp, shown_congr hp]

/-- The rows for a binding depend on the packages and asset groups only. -/
lemma slotRow_congr (hp : t'.packages = t.packages) (ha : t'.assetGroups = t.assetGroups) :
    t'.slotRow = t.slotRow := by
  funext r b
  simp only [Tables.slotRow, Tables.bindingRow, bound_congr hp, assetGroup_congr ha]

/-- So do those for an activation. -/
lemma featureRow_congr_tables (hp : t'.packages = t.packages)
    (ha : t'.assetGroups = t.assetGroups) : t'.featureRow = t.featureRow := by
  funext r f
  simp only [Tables.featureRow, Tables.activated, package_congr hp, shown_congr hp,
    assetGroup_congr ha]

lemma filter_settledBindings (t : Tables) (draftId : Id) :
    (settledBindings t draftId).filter (·.revisionId = draftId) =
      (t.bindings.filter (·.revisionId = draftId)).filterMap t.settled := by
  unfold settledBindings
  induction t.bindings with
  | nil => rfl
  | cons b bindings ih =>
    by_cases hrev : b.revisionId = draftId
    · rw [List.filter_cons_of_pos (by simpa using hrev), List.filterMap_cons,
        List.filterMap_cons, if_pos hrev, ← ih]
      cases hset : t.settled b with
      | none => rfl
      | some b' =>
        obtain ⟨rfl, -⟩ := settled_spec hset
        exact List.filter_cons_of_pos (by simpa [(rewritten_slot b).2.1] using hrev)
    · rw [List.filter_cons_of_neg (by simpa using hrev), List.filterMap_cons, if_neg hrev, ← ih]
      exact List.filter_cons_of_neg (by simpa using hrev)

end Rows

namespace Published

variable {t t' t₁ : Tables} {gameId draftId userId : Id} {now : ℤ}
  {draft published next : FrontendRevision}
  (hp : Published t t' gameId draftId userId now draft published next t₁)
include hp

lemma packages_eq : t'.packages = t.packages ∧ t'.assetGroups = t.assetGroups := by
  rw [hp.tables_eq, (Frontend.settle_eq hp.settle_eq).1]
  exact ⟨rfl, rfl⟩

lemma not_publishedId (h : t.WellFormed) : t₁.publishedId gameId draftId = false := by
  rw [← Bool.not_eq_true]
  intro hid
  obtain ⟨r, hr, -, hs, hid⟩ := publishedId_iff.mp hid
  rw [hp.revisions₁] at hr
  rw [List.inj_on_of_nodup_map h.revision_id hr hp.mem (hid.trans hp.id_eq.symm),
    hp.status_eq] at hs
  cases hs

/-- The bindings of the published revision before they are copied. -/
lemma filter_bindings (h : t.WellFormed) :
    (replacePublished t₁ gameId draftId now).bindings.filter (·.revisionId = draftId) =
      (t.bindings.filter (·.revisionId = draftId)).filterMap t.settled := by
  rw [← filter_settledBindings, ← show t₁.bindings = settledBindings t draftId by
    rw [(Frontend.settle_eq hp.settle_eq).1]]
  show (t₁.bindings.filter _).filter _ = _
  rw [List.filter_filter]
  refine List.filter_congr fun b _ => ?_
  by_cases hrev : b.revisionId = draftId <;> simp [hrev, hp.not_publishedId h]

lemma bindings_published (h : t.WellFormed) : t'.bindings.filter (·.revisionId = draftId) =
    (t.bindings.filter (·.revisionId = draftId)).filterMap t.settled := by
  have hne := hp.draftId_ne_next h
  rw [← hp.filter_bindings h, hp.tables_eq]
  show (_ ++ List.map _ _).filter _ = _
  rw [List.filter_append, List.filter_map]
  simp [Function.comp_def, hne.symm, insertRevision]

lemma bindings_next (h : t.WellFormed) : t'.bindings.filter (·.revisionId = next.id) =
    ((t.bindings.filter (·.revisionId = draftId)).filterMap t.settled).map fun b =>
      { b with revisionId := next.id } := by
  have hne : ∀ b ∈ (replacePublished t₁ gameId draftId now).bindings,
      ¬(decide (b.revisionId = next.id)) = true := fun b hb => by
    simpa using hp.ne_next h ((hp.wellFormed₂ h).binding_revision b hb)
  rw [← hp.filter_bindings h, hp.tables_eq]
  show (_ ++ List.map _ _).filter _ = _
  rw [List.filter_append, List.filter_map]
  show List.filter _ (replacePublished t₁ gameId draftId now).bindings ++ _ = _
  rw [List.filter_eq_nil_iff.mpr hne, List.nil_append]
  simp [Function.comp_def, insertRevision]

/-- **The published revision has the rows of the draft.** -/
lemma rows_published (h : t.WellFormed) : t'.rows published = t.rows draft := by
  have hrev : published.revision = draft.revision := by rw [hp.published_eq]; rfl
  rw [Tables.rows, Tables.rows, hp.published_id, hp.id_eq, hp.bindings_published h,
    slotRow_congr hp.packages_eq.1 hp.packages_eq.2, List.filterMap_filterMap]
  refine List.filterMap_congr fun b hb => ?_
  exact slotRow_settled h (List.mem_filter.mp hb).1 hp.status_eq hrev

/-- The new draft has them as well, but for the number of the revision. -/
lemma rows_next (h : t.WellFormed) : contents (t'.rows next) = contents (t.rows draft) := by
  rw [← hp.rows_published h, Tables.rows, Tables.rows, hp.published_id, hp.bindings_published h,
    hp.bindings_next h, slotRow_congr hp.packages_eq.1 hp.packages_eq.2, contents, contents,
    List.filterMap_map, List.map_filterMap, List.map_filterMap]
  refine List.filterMap_congr fun b hb => ?_
  obtain ⟨b₀, -, hset⟩ := List.mem_filterMap.mp hb
  exact slotRow_of_not_pending (settled_spec hset).2 published next next.id

lemma activations₁ : t₁.activations = settledActivations t draftId := by
  rw [(Frontend.settle_eq hp.settle_eq).1]

/-- The activations of the published revision. -/
lemma mem_activations_published (h : t.WellFormed) {f : FrontendFeatureActivation} :
    f ∈ t'.activations ∧ f.revisionId = draftId ↔
      f ∈ settledActivations t draftId ∧ f.revisionId = draftId := by
  have hne := hp.draftId_ne_next h
  rw [hp.tables_eq]
  simp only [copyRows, List.mem_append, List.mem_map, insertRevision, replacePublished,
    setPublished, deletePublished, List.mem_filter, hp.activations₁]
  constructor
  · rintro ⟨⟨hf, -⟩ | ⟨f₀, -, rfl⟩, hrev⟩
    · exact ⟨hf, hrev⟩
    · exact absurd hrev.symm hne
  · rintro ⟨hf, hrev⟩
    refine ⟨.inl ⟨hf, ?_⟩, hrev⟩
    rw [hrev, hp.not_publishedId h]
    rfl

/-- The activations of the new draft. -/
lemma mem_activations_next (h : t.WellFormed) {f : FrontendFeatureActivation} :
    f ∈ t'.activations ∧ f.revisionId = next.id ↔
      ∃ f₀, (f₀ ∈ settledActivations t draftId ∧ f₀.revisionId = draftId) ∧
        { f₀ with revisionId := next.id } = f := by
  rw [hp.tables_eq]
  constructor
  · rintro ⟨hf, hrev⟩
    rcases List.mem_append.mp hf with hf | hf
    · exact absurd hrev (hp.ne_next h ((hp.wellFormed₂ h).activation_revision f hf))
    · obtain ⟨f₀, hf₀, rfl⟩ := List.mem_map.mp hf
      obtain ⟨hf₀, hrev₀⟩ := List.mem_filter.mp hf₀
      refine ⟨f₀, ⟨hp.activations₁ ▸ (List.mem_filter.mp hf₀).1, ?_⟩, rfl⟩
      simpa using hrev₀
  · rintro ⟨f₀, ⟨hf₀, hrev₀⟩, rfl⟩
    refine ⟨List.mem_append_right _ (List.mem_map.mpr ⟨f₀, List.mem_filter.mpr ⟨?_, ?_⟩, rfl⟩), rfl⟩
    · refine List.mem_filter.mpr ⟨hp.activations₁.symm ▸ hf₀, ?_⟩
      rw [hrev₀, hp.not_publishedId h]
      rfl
    · simpa using hrev₀

/-- The published revision has the features of the draft. -/
lemma mem_features_published (h : t.WellFormed)
    (hdraft : t.selected gameId (some draftId) = [draft])
    (hpublished : t'.selected gameId none = [published]) {row : ResolvedFeatureRow} :
    row ∈ resolveFeatures t' gameId none ↔ row ∈ resolveFeatures t gameId (some draftId) := by
  obtain rfl := hp.id_eq
  have hgame : published.gameId = draft.gameId := by rw [hp.published_eq]; rfl
  have hrevision : published.revision = draft.revision := by rw [hp.published_eq]; rfl
  have hsettled := @featureRow_settled t draft published h hp.status_eq hgame row
  simp only [featureRow_map_revision hrevision] at hsettled
  rw [mem_resolveFeatures hdraft, mem_resolveFeatures hpublished,
    featureRow_congr_tables hp.packages_eq.1 hp.packages_eq.2, hp.published_id, ← hsettled]
  simp only [← and_assoc, hp.mem_activations_published h]

/-- So has the new draft, but for the number of the revision. -/
lemma mem_features_next (h : t.WellFormed) (hdraft : t.selected gameId (some draftId) = [draft])
    (hnext : t'.selected gameId (some next.id) = [next]) {row : ResolvedFeatureRow} :
    row ∈ (resolveFeatures t' gameId (some next.id)).map ResolvedFeatureRow.content ↔
      row ∈ (resolveFeatures t gameId (some draftId)).map ResolvedFeatureRow.content := by
  obtain rfl := hp.id_eq
  have hgame : next.gameId = draft.gameId := by rw [hp.next_eq, hp.game_eq]; rfl
  simp only [List.mem_map, mem_resolveFeatures hdraft, mem_resolveFeatures hnext,
    featureRow_congr_tables hp.packages_eq.1 hp.packages_eq.2]
  constructor
  · rintro ⟨row', ⟨f, hf, hrev, hrow⟩, rfl⟩
    obtain ⟨f₀, hf₀, rfl⟩ := (hp.mem_activations_next h).mp ⟨hf, hrev⟩
    have hrow₀ : t.featureRow next f₀ = some row' := (featureRow_congr rfl rfl).trans hrow
    obtain ⟨f₁, hf₁, hrev₁, hrow₁⟩ :=
      (featureRow_settled h hp.status_eq hgame).mp ⟨f₀, hf₀, hrow₀⟩
    obtain ⟨row₁, hrow₂, rfl⟩ := Option.map_eq_some_iff.mp hrow₁
    exact ⟨row₁, ⟨f₁, hf₁, hrev₁, hrow₂⟩, rfl⟩
  · rintro ⟨row', ⟨f, hf, hrev, hrow⟩, rfl⟩
    obtain ⟨f₀, hf₀, hrow₀⟩ := (featureRow_settled h hp.status_eq hgame).mpr
      ⟨f, hf, hrev, by rw [hrow, Option.map_some]⟩
    obtain ⟨hf₁, hrev₁⟩ := (hp.mem_activations_next h).mpr ⟨f₀, hf₀, rfl⟩
    exact ⟨_, ⟨_, hf₁, hrev₁, (featureRow_congr (f := f₀) rfl rfl).trans hrow₀⟩, rfl⟩

end Published

/-! ## The transaction -/

section Transaction

variable {t t' : Tables} {gameId draftId userId : Id} {now : ℤ}
  {published next : FrontendRevision}

/-- **What a draft previews is what its publication shows**, and what the new draft previews: the
bindings of every surface, round and puzzle, and the features. -/
theorem previewed_publish (h : t.WellFormed)
    (hp : publish t gameId draftId userId now = .ok (t', some (published, next)))
    (surface : String) (roundId puzzleId : Option Id) :
    resolve t' gameId surface roundId puzzleId none =
        resolve t gameId surface roundId puzzleId (some draftId) ∧
      (∀ row, row ∈ resolveFeatures t' gameId none ↔
        row ∈ resolveFeatures t gameId (some draftId)) ∧
      (resolve t' gameId surface roundId puzzleId (some next.id)).map ResolvedBindingRow.content =
        (resolve t gameId surface roundId puzzleId (some draftId)).map
          ResolvedBindingRow.content ∧
      ∀ row, row ∈ (resolveFeatures t' gameId (some next.id)).map ResolvedFeatureRow.content ↔
        row ∈ (resolveFeatures t gameId (some draftId)).map ResolvedFeatureRow.content := by
  obtain ⟨draft, t₁, hp⟩ := publish_spec hp
  have h' := hp.wellFormed h
  have hgame : published.gameId = draft.gameId := by rw [hp.published_eq]; rfl
  have hnext : next.gameId = gameId := by rw [hp.next_eq]; rfl
  have hdraft : t.selected gameId (some draftId) = [draft] :=
    hp.id_eq ▸ selected_some h hp.mem hp.game_eq
  have hpublished : t'.selected gameId none = [published] :=
    selected_none h' hp.published_mem' (hgame.trans hp.game_eq) (by rw [hp.published_eq]; rfl)
  have hselected := selected_some h' hp.next_mem hnext
  have hfeature := featureRow_congr_tables hp.packages_eq.1 hp.packages_eq.2
  refine ⟨resolve_eq_of_rows hdraft hpublished (hp.rows_published h) surface roundId puzzleId,
    fun row => ?_,
    resolve_content_eq_of_rows hdraft hselected (hp.rows_next h) surface roundId puzzleId,
    fun row => ?_⟩
  · exact hp.mem_features_published h hdraft hpublished
  · exact hp.mem_features_next h hdraft hselected

/-! ### A replaced theme -/

/-- A manifest with a renderer of the round page and icons. -/
def plainManifest (version : String) : ThemeManifest where
  name := "plain"
  version
  renderers := [("round", { surface := roundPage, entry := "round.js" })]
  icons := some "icons.json"

def plainPackage (id : Id) (version : String) (deletePending : Bool) : FrontendPackage where
  id
  gameId := 1
  assetGroupId := id
  name := "plain"
  version
  manifest := plainManifest version
  sha256 := version
  deletePending
  ctimeAt := id

/-- The draft binds the round page to a package that has been replaced, and has its icons and those
of the package in its place. -/
def replacedTheme : Tables where
  packages := [plainPackage 1 "1" true, plainPackage 2 "2" false]
  revisions := [⟨1, 1, 1, .published, some 7, 0, some 5⟩, ⟨2, 1, 2, .draft, some 7, 5, none⟩]
  bindings := [⟨1, roundPage, "game", 0, some 1, some "round"⟩,
    ⟨2, roundPage, "game", 0, some 1, some "round"⟩, ⟨2, roundPage, "round", 3, none, none⟩]
  activations := [⟨1, 1, .icons⟩, ⟨2, 1, .icons⟩, ⟨2, 2, .icons⟩]
  assetGroups := [⟨1, "themes/1", "local"⟩, ⟨2, "themes/2", "local"⟩]
  rounds := [(3, 1)]
  puzzles := []
  nextRevisionId := 3

lemma replacedTheme_wellFormed : replacedTheme.WellFormed where
  package_id := by decide +kernel
  active_name := by decide +kernel
  revision_id := by decide +kernel
  status := by decide +kernel
  revision_lt := by decide +kernel
  binding_key := by decide +kernel
  binding_revision := by decide +kernel
  binding_package b hb id hid := by
    have hall : ∀ b ∈ replacedTheme.bindings,
        b.packageId.all (fun id => (replacedTheme.package id).isSome) = true := by decide +kernel
    simpa [hid] using hall b hb
  binding_slot := by decide +kernel
  binding_renderer := by decide +kernel
  activation_key := by decide +kernel
  activation_revision := by decide +kernel
  activation_package := by decide +kernel
  package_group := by decide +kernel
  package_assets := by decide +kernel

lemma exists_of_publishes
    {r : Except DatabaseError (Tables × Option (FrontendRevision × FrontendRevision))}
    (h : (r.toOption.bind (·.2)).isSome) :
    ∃ t' published next, r = .ok (t', some (published, next)) := by
  obtain e | ⟨t', _ | ⟨published, next⟩⟩ := r
  · cases h
  · cases h
  · exact ⟨t', published, next, rfl⟩

theorem previewed_publish_replacedTheme : ∃ t' published next,
    publish replacedTheme 1 2 7 9 = .ok (t', some (published, next)) ∧
      resolve t' 1 roundPage none none none =
        resolve replacedTheme 1 roundPage none none (some 2) ∧
      (resolve replacedTheme 1 roundPage none none (some 2)).map (·.packageId) = some (some 2) := by
  obtain ⟨t', published, next, hp⟩ :=
    exists_of_publishes (r := publish replacedTheme 1 2 7 9) (by decide +kernel)
  exact ⟨t', published, next, hp,
    (previewed_publish replacedTheme_wellFormed hp roundPage none none).1, by decide +kernel⟩

end Transaction

end Frontend
