import RbphBackend.Frontend.Preview

set_option relaxedAutoImplicit false
set_option autoImplicit false

/-!
# What the other statements change

Requests create a draft, save a binding and delete packages that nothing refers to. Each of these,
and publishing, changes what a few revisions show and nothing else.

## Main definitions

* `Frontend.createDraft`, `Frontend.upsertBinding`, `Frontend.deletePackage` — the transactions.

## Main results

* `Frontend.resolve_createDraft`, `Frontend.resolve_upsertBinding`,
  `Frontend.resolve_deletePackage`, `Frontend.Published.resolve_other` — what they leave as it is.
-/

namespace Frontend

/-! ## The transactions -/

section Statements

variable (t : Tables)

/-- The draft of the game. -/
def Tables.draft (gameId : Id) : Option FrontendRevision :=
  t.revisions.find? fun r => r.gameId = gameId && r.status = .draft

/-- The published revision of the game. -/
def Tables.published (gameId : Id) : Option FrontendRevision :=
  t.revisions.find? (·.isPublished gameId)

/-- The transaction of `ensure_draft`: the new draft is a copy of the published revision. -/
def createDraft (gameId userId : Id) (now : ℤ) :
    Except DatabaseError (Tables × FrontendRevision) :=
  let draft := newDraft t gameId userId now
  if (t.draft gameId).isSome then .error .uniqueViolation
  else match t.published gameId with
    | some published => .ok (copyRows (insertRevision t draft) published.id draft.id, draft)
    | none => .ok (insertRevision t draft, draft)

/-- The binding is one the schema admits. -/
def FrontendBinding.checked (b : FrontendBinding) : Bool :=
  b.slot.Valid && b.packageId.isSome = b.rendererId.isSome

/-- The rows that the binding refers to are there. -/
def Tables.refers (b : FrontendBinding) : Bool :=
  t.revisions.any (·.id = b.revisionId) && b.packageId.all fun id => (t.package id).isSome

def upsertBinding (b : FrontendBinding) : Except DatabaseError Tables :=
  if !b.checked then .error .checkViolation
  else if !t.refers b then .error .foreignKeyViolation
  else .ok { t with
    bindings := t.bindings.filter (fun b' => (b'.revisionId, b'.slot) ≠ (b.revisionId, b.slot)) ++
      [b] }

/-- A binding or an activation refers to the package. -/
def Tables.referenced (id : Id) : Bool :=
  t.bindings.any (·.packageId = some id) || t.activations.any (·.packageId = id)

/-- The transaction of `permanently_delete_package`. -/
def deletePackage (p : FrontendPackage) : Tables :=
  if t.referenced p.id || !t.packages.any (fun q => q.id = p.id && q.gameId = p.gameId) then t
  else { t with
    packages := t.packages.filter fun q => q.id ≠ p.id
    assetGroups := t.assetGroups.filter fun a => a.id ≠ p.assetGroupId }

end Statements

/-! ## Queries that read the same rows -/

section Congr

variable {t t' : Tables} {gameId : Id} {previewRevision : Option Id}

/-- A query is about one revision at most. -/
lemma selected_unique (h : t.WellFormed) {r r' : FrontendRevision}
    (hr : r ∈ t.selected gameId previewRevision) (hr' : r' ∈ t.selected gameId previewRevision) :
    r = r' := by
  obtain ⟨hmem, hp⟩ := List.mem_filter.mp hr
  obtain ⟨hmem', hp'⟩ := List.mem_filter.mp hr'
  cases previewRevision with
  | none =>
    simp only [Bool.and_eq_true, decide_eq_true_eq] at hp hp'
    exact h.status r hmem r' hmem' (hp.1.trans hp'.1.symm) (hp.2.trans hp'.2.symm)
  | some id =>
    simp only [Bool.and_eq_true, decide_eq_true_eq] at hp hp'
    exact List.inj_on_of_nodup_map h.revision_id hmem hmem' (hp.2.trans hp'.2.symm)

lemma selected_nodup (h : t.WellFormed) : (t.selected gameId previewRevision).Nodup :=
  (List.Nodup.of_map _ h.revision_id).filter _

/-- Tables that select the same revisions select them in the same order. -/
lemma selected_congr (h : t.WellFormed) (h' : t'.WellFormed)
    (hmem : ∀ r, r ∈ t'.selected gameId previewRevision ↔ r ∈ t.selected gameId previewRevision) :
    t'.selected gameId previewRevision = t.selected gameId previewRevision := by
  have hperm := (List.perm_ext_iff_of_nodup (selected_nodup h') (selected_nodup h)).mpr hmem
  cases hsel : t.selected gameId previewRevision with
  | nil => exact List.perm_nil.mp (hsel ▸ hperm)
  | cons r rs =>
    have hrs : rs = [] := by
      have hnodup : (t.selected gameId previewRevision).Nodup := selected_nodup h
      rw [hsel, List.nodup_cons] at hnodup
      refine List.eq_nil_iff_forall_not_mem.mpr fun r' hr' => hnodup.1 ?_
      have hmem : r ∈ t.selected gameId previewRevision := hsel ▸ List.mem_cons_self
      have hmem' : r' ∈ t.selected gameId previewRevision := hsel ▸ List.mem_cons_of_mem r hr'
      rwa [selected_unique h hmem hmem']
    rw [hsel, hrs] at hperm
    rw [hrs]
    exact List.perm_singleton.mp hperm

lemma rows_congr {r : FrontendRevision} (hp : t'.packages = t.packages)
    (ha : t'.assetGroups = t.assetGroups)
    (hb : t'.bindings.filter (·.revisionId = r.id) = t.bindings.filter (·.revisionId = r.id)) :
    t'.rows r = t.rows r := by
  rw [Tables.rows, Tables.rows, hb, slotRow_congr hp ha]

/-- **A query depends on the rows of the revisions it selects.** -/
lemma resolve_congr (hsel : t'.selected gameId previewRevision = t.selected gameId previewRevision)
    (hrows : ∀ r ∈ t.selected gameId previewRevision, t'.rows r = t.rows r) (surface : String)
    (roundId puzzleId : Option Id) :
    resolve t' gameId surface roundId puzzleId previewRevision =
      resolve t gameId surface roundId puzzleId previewRevision := by
  rw [resolve, resolve, hsel, List.flatMap_congr hrows]

end Congr

/-! ## A new draft -/

section CreateDraft

variable {t t' : Tables} {gameId userId : Id} {now : ℤ} {draft : FrontendRevision}

lemma createDraft_spec (h : createDraft t gameId userId now = .ok (t', draft)) :
    draft = newDraft t gameId userId now ∧ t.draft gameId = none ∧
      (t' = insertRevision t draft ∨ ∃ published ∈ t.revisions, published.isPublished gameId ∧
        t' = copyRows (insertRevision t draft) published.id draft.id) := by
  simp only [createDraft] at h
  split at h
  · cases h
  · rename_i hno
    have hno : t.draft gameId = none := by simpa using hno
    split at h
    · rename_i published hpub
      obtain ⟨rfl, rfl⟩ := Prod.mk.inj (Except.ok.inj h)
      have hp : published.isPublished gameId = true :=
        List.find?_some (p := fun r : FrontendRevision => r.isPublished gameId) hpub
      exact ⟨rfl, hno, .inr ⟨published, List.mem_of_find?_eq_some hpub, hp, rfl⟩⟩
    · obtain ⟨rfl, rfl⟩ := Prod.mk.inj (Except.ok.inj h)
      exact ⟨rfl, hno, .inl rfl⟩

lemma createDraft_wellFormed (h : t.WellFormed)
    (hc : createDraft t gameId userId now = .ok (t', draft)) : t'.WellFormed := by
  obtain ⟨rfl, hno, ht'⟩ := createDraft_spec hc
  have hinsert : (insertRevision t (newDraft t gameId userId now)).WellFormed := by
    refine h.insertRevision rfl fun r hr hg hs => ?_
    have hnone := List.find?_eq_none.mp hno r hr
    simp only [Bool.and_eq_true, decide_eq_true_eq, not_and] at hnone
    exact hnone hg hs
  rcases ht' with rfl | ⟨published, -, -, rfl⟩
  · exact hinsert
  · refine hinsert.copyRows ⟨_, List.mem_append_right _ (List.mem_singleton.mpr rfl), rfl⟩
      (fun b hb => ?_) fun f hf => ?_
    · obtain ⟨r, hr, hrev⟩ := h.binding_revision b hb
      exact Int.ne_of_lt (hrev ▸ h.revision_lt r hr)
    · obtain ⟨r, hr, hrev⟩ := h.activation_revision f hf
      exact Int.ne_of_lt (hrev ▸ h.revision_lt r hr)

lemma rows_copyRows {r : FrontendRevision} {fromId toId : Id} (hne : r.id ≠ toId) :
    (copyRows t fromId toId).rows r = t.rows r := by
  refine rows_congr rfl rfl ?_
  show (_ ++ List.map _ _).filter _ = _
  rw [List.filter_append, List.filter_map]
  simp [Function.comp_def, hne.symm]

lemma createDraft_id (hc : createDraft t gameId userId now = .ok (t', draft)) :
    draft.id = t.nextRevisionId := by
  rw [(createDraft_spec hc).1]
  rfl

/-- **A new draft changes the previews of its own id only.** -/
theorem resolve_createDraft (h : t.WellFormed)
    (hc : createDraft t gameId userId now = .ok (t', draft)) {otherId : Id}
    {previewRevision : Option Id}
    (hne : otherId = gameId → previewRevision ≠ some t.nextRevisionId) (surface : String)
    (roundId puzzleId : Option Id) :
    resolve t' otherId surface roundId puzzleId previewRevision =
      resolve t otherId surface roundId puzzleId previewRevision := by
  obtain ⟨rfl, -, ht'⟩ := createDraft_spec hc
  have hrevisions : t'.revisions = t.revisions ++ [newDraft t gameId userId now] := by
    rcases ht' with rfl | ⟨published, -, -, rfl⟩ <;> rfl
  have hsel : t'.selected otherId previewRevision = t.selected otherId previewRevision := by
    rw [Tables.selected, hrevisions, List.filter_append]
    refine (congrArg _ (List.filter_eq_nil_iff.mpr fun r hr => ?_)).trans (List.append_nil _)
    obtain rfl := List.mem_singleton.mp hr
    cases previewRevision with
    | none => simp [newDraft]
    | some id =>
      rw [Bool.and_eq_true, not_and, decide_eq_true_eq, decide_eq_true_eq]
      exact fun hg hid => hne (Eq.symm hg) (congrArg some (Eq.symm hid))
  refine resolve_congr hsel (fun r hr => ?_) surface roundId puzzleId
  have hlt := h.revision_lt r (List.mem_filter.mp hr).1
  rcases ht' with rfl | ⟨published, -, -, rfl⟩
  · rfl
  · exact rows_copyRows (Int.ne_of_lt hlt)

end CreateDraft

/-! ## A binding -/

section UpsertBinding

variable {t t' : Tables} {b : FrontendBinding}

lemma upsertBinding_spec (h : upsertBinding t b = .ok t') :
    b.checked = true ∧ t.refers b = true ∧ t' = { t with
      bindings := t.bindings.filter (fun b' => (b'.revisionId, b'.slot) ≠ (b.revisionId, b.slot)) ++
        [b] } := by
  unfold upsertBinding at h
  split at h
  · cases h
  split at h
  · cases h
  · rename_i hchecked hrefers
    exact ⟨by simpa using hchecked, by simpa using hrefers, (Except.ok.inj h).symm⟩

lemma upsertBinding_wellFormed (h : t.WellFormed) (hu : upsertBinding t b = .ok t') :
    t'.WellFormed := by
  obtain ⟨hchecked, hrefers, rfl⟩ := upsertBinding_spec hu
  simp only [FrontendBinding.checked, Bool.and_eq_true, decide_eq_true_eq] at hchecked
  simp only [Tables.refers, Bool.and_eq_true, List.any_eq_true, decide_eq_true_eq,
    Option.all_eq_true] at hrefers
  refine h.of_rows ?_ (fun b' hb' => ?_) h.activation_key fun f hf =>
    ⟨h.activation_revision f hf, h.activation_package f hf⟩
  · rw [List.map_append, List.nodup_append]
    refine ⟨h.binding_key.sublist (List.Sublist.map _ List.filter_sublist),
      List.nodup_singleton _, ?_⟩
    rintro _ hx _ hy rfl
    obtain ⟨b', hb', hkey⟩ := List.mem_map.mp hx
    have hne := (List.mem_filter.mp hb').2
    simp only [List.map_cons, List.map_nil, List.mem_singleton] at hy
    rw [hkey, hy] at hne
    simp at hne
  · rcases List.mem_append.mp hb' with hb' | hb'
    · obtain ⟨hb', -⟩ := List.mem_filter.mp hb'
      exact ⟨h.binding_revision b' hb', h.binding_slot b' hb', h.binding_renderer b' hb',
        h.binding_package b' hb'⟩
    · obtain rfl := List.mem_singleton.mp hb'
      exact ⟨hrefers.1, hchecked.1, hchecked.2, hrefers.2⟩

/-- **A binding changes what its own revision shows only.** -/
theorem resolve_upsertBinding (hu : upsertBinding t b = .ok t') {gameId : Id}
    {previewRevision : Option Id}
    (hne : ∀ r ∈ t.selected gameId previewRevision, r.id ≠ b.revisionId) (surface : String)
    (roundId puzzleId : Option Id) :
    resolve t' gameId surface roundId puzzleId previewRevision =
      resolve t gameId surface roundId puzzleId previewRevision := by
  obtain ⟨-, -, ht'⟩ := upsertBinding_spec hu
  have hsel : t'.selected gameId previewRevision = t.selected gameId previewRevision := by
    rw [ht']
    rfl
  refine resolve_congr hsel (fun r hr => rows_congr (by rw [ht']) (by rw [ht']) ?_) surface roundId
    puzzleId
  have hne := hne r hr
  rw [ht', List.filter_append, List.filter_filter]
  have hb : [b].filter (fun b' => decide (b'.revisionId = r.id)) = [] := by simp [hne.symm]
  rw [hb, List.append_nil]
  refine List.filter_congr fun b' _ => ?_
  by_cases hrev : b'.revisionId = r.id <;> simp [hrev, hne]

end UpsertBinding

/-! ## A package -/

section DeletePackage

variable {t : Tables} {p : FrontendPackage}

lemma deletePackage_spec (t : Tables) (p : FrontendPackage) : deletePackage t p = t ∨
    t.referenced p.id = false ∧ (∃ q ∈ t.packages, q.id = p.id) ∧ deletePackage t p = { t with
      packages := t.packages.filter fun q => q.id ≠ p.id
      assetGroups := t.assetGroups.filter fun a => a.id ≠ p.assetGroupId } := by
  unfold deletePackage
  split
  · exact .inl rfl
  · rename_i hc
    simp only [Bool.or_eq_true, Bool.not_eq_true', not_or, Bool.not_eq_true,
      Bool.not_eq_false, List.any_eq_true, Bool.and_eq_true, decide_eq_true_eq] at hc
    obtain ⟨hno, q, hq, hid, -⟩ := hc
    exact .inr ⟨hno, ⟨q, hq, hid⟩, rfl⟩

lemma find?_filter_of_imp {α : Type} {p q : α → Bool} {l : List α}
    (h : ∀ a ∈ l, p a = true → q a = true) : (l.filter q).find? p = l.find? p := by
  induction l with
  | nil => rfl
  | cons a l ih =>
    have ih := ih fun b hb => h b (List.mem_cons_of_mem a hb)
    cases hp : p a with
    | true => simp [h a List.mem_cons_self hp, hp]
    | false =>
      rw [List.find?_cons_of_neg (by simp [hp]), ← ih]
      cases hq : q a <;> simp [hq, hp]

/-- What refers to no such package reads the same packages. -/
lemma package_deletePackage {id : Id} (hne : id ≠ p.id) :
    (deletePackage t p).package id = t.package id := by
  rcases deletePackage_spec t p with heq | ⟨-, -, heq⟩
  · rw [heq]
  · rw [heq]
    refine find?_filter_of_imp fun q _ hq => ?_
    simp only [decide_eq_true_eq] at hq
    simpa [hq] using hne

/-- A package pending deletion replaces no other one. -/
lemma active_deletePackage (hpend : ∀ q ∈ t.packages, q.id = p.id → q.deletePending = true)
    (gameId : Id) (name : String) :
    (deletePackage t p).active gameId name = t.active gameId name := by
  rcases deletePackage_spec t p with heq | ⟨-, -, heq⟩
  · rw [heq]
  · rw [heq]
    refine find?_filter_of_imp fun q hq hact => ?_
    simp only [Bool.and_eq_true, decide_eq_true_eq, Bool.not_eq_true'] at hact
    simp only [decide_eq_true_eq]
    intro hid
    rw [hpend q hq hid] at hact
    cases hact.2

/-- The other packages keep their asset groups. -/
lemma assetGroup_deletePackage (h : t.WellFormed) (hsame : ∀ q ∈ t.packages, q.id = p.id → q = p)
    {q : FrontendPackage} (hq : q ∈ t.packages) (hne : q.id ≠ p.id) :
    (deletePackage t p).assetGroup q.assetGroupId = t.assetGroup q.assetGroupId := by
  rcases deletePackage_spec t p with heq | ⟨-, ⟨q', hq', hid⟩, heq⟩
  · rw [heq]
  · rw [heq]
    refine find?_filter_of_imp fun a _ ha => ?_
    simp only [decide_eq_true_eq] at ha ⊢
    intro hgroup
    have hp : p ∈ t.packages := hsame q' hq' hid ▸ hq'
    exact hne (congrArg _ (List.inj_on_of_nodup_map h.package_assets hq hp (ha ▸ hgroup)))

lemma not_referenced (href : t.referenced p.id = false) :
    (∀ b ∈ t.bindings, b.packageId ≠ some p.id) ∧ ∀ f ∈ t.activations, f.packageId ≠ p.id := by
  simpa [Tables.referenced] using href

lemma deletePackage_wellFormed (h : t.WellFormed)
    (hsame : ∀ q ∈ t.packages, q.id = p.id → q = p) : (deletePackage t p).WellFormed := by
  rcases deletePackage_spec t p with heq | ⟨href, -, heq⟩
  · rw [heq]
    exact h
  have hpackage : ∀ id, id ≠ p.id → (deletePackage t p).package id = t.package id :=
    fun id => package_deletePackage
  have hgroup := fun q (hq : q ∈ t.packages) => assetGroup_deletePackage h hsame hq
  obtain ⟨hbindings, hactivations⟩ := not_referenced href
  rw [heq] at hpackage hgroup ⊢
  exact
    { package_id := h.package_id.sublist (List.Sublist.map _ List.filter_sublist)
      active_name := fun q hq q' hq' =>
        h.active_name q (List.mem_filter.mp hq).1 q' (List.mem_filter.mp hq').1
      revision_id := h.revision_id
      status := h.status
      revision_lt := h.revision_lt
      binding_key := h.binding_key
      binding_revision := h.binding_revision
      binding_package := fun b hb id hid => by
        rw [hpackage id fun heq => hbindings b hb (heq ▸ hid)]
        exact h.binding_package b hb id hid
      binding_slot := h.binding_slot
      binding_renderer := h.binding_renderer
      activation_key := h.activation_key
      activation_revision := h.activation_revision
      activation_package := fun f hf => by
        rw [hpackage _ (hactivations f hf)]
        exact h.activation_package f hf
      package_group := fun q hq => by
        obtain ⟨hq, hne⟩ := List.mem_filter.mp hq
        rw [hgroup q hq (by simpa using hne)]
        exact h.package_group q hq
      package_assets := h.package_assets.sublist (List.Sublist.map _ List.filter_sublist) }

/-- What is shown for a binding is a package that is there. -/
lemma mem_of_bound {status : Status} {b : FrontendBinding} {q : FrontendPackage}
    (hq : t.bound status b = some q) : q ∈ t.packages ∧
      (b.packageId = some q.id ∨ q.deletePending = false) := by
  obtain ⟨source, hsource, hshown⟩ := Option.bind_eq_some_iff.mp hq
  obtain ⟨id, hid, hsource⟩ := Option.bind_eq_some_iff.mp hsource
  unfold Tables.shown at hshown
  split at hshown
  · exact ⟨(mem_of_active hshown).1, .inr (mem_of_active hshown).2.2.2⟩
  · obtain rfl := Option.some.inj hshown
    have heq : source.id = id := by simpa using List.find?_some hsource
    exact ⟨List.mem_of_find?_eq_some hsource, .inl (heq ▸ hid)⟩

lemma slotRow_deletePackage (h : t.WellFormed) (hsame : ∀ q ∈ t.packages, q.id = p.id → q = p)
    (hpend : p.deletePending = true) (r : FrontendRevision) {b : FrontendBinding}
    (hb : b ∈ t.bindings) : (deletePackage t p).slotRow r b = t.slotRow r b := by
  rcases deletePackage_spec t p with heq | ⟨href, -, -⟩
  · rw [heq]
  have hne := (not_referenced href).1 b hb
  have hbound : (deletePackage t p).bound r.status b = t.bound r.status b := by
    have hshown : (deletePackage t p).shown = t.shown := by
      funext status source
      simp only [Tables.shown,
        active_deletePackage fun q hq hid => by rw [hsame q hq hid, hpend]]
    unfold Tables.bound
    rw [hshown]
    cases hid : b.packageId with
    | none => rfl
    | some id =>
      rw [Option.bind_some, Option.bind_some,
        package_deletePackage fun heq => hne (heq ▸ hid)]
  simp only [Tables.slotRow, Tables.bindingRow, hbound]
  cases hq : t.bound r.status b with
  | none => rfl
  | some q =>
    obtain ⟨hmem, hid⟩ := mem_of_bound hq
    have hqne : q.id ≠ p.id := by
      rintro heq
      rcases hid with hid | hid
      · exact hne (heq ▸ hid)
      · rw [hsame q hmem heq, hpend] at hid
        cases hid
    simp only [Option.bind_some, assetGroup_deletePackage h hsame hmem hqne]

/-- **Deleting a package pending deletion changes nothing that is shown.** -/
theorem resolve_deletePackage (h : t.WellFormed) (hsame : ∀ q ∈ t.packages, q.id = p.id → q = p)
    (hpend : p.deletePending = true) (gameId : Id) (surface : String)
    (roundId puzzleId previewRevision : Option Id) :
    resolve (deletePackage t p) gameId surface roundId puzzleId previewRevision =
      resolve t gameId surface roundId puzzleId previewRevision := by
  have hbindings : (deletePackage t p).bindings = t.bindings ∧
      (deletePackage t p).revisions = t.revisions := by
    rcases deletePackage_spec t p with heq | ⟨-, -, heq⟩ <;> rw [heq] <;> exact ⟨rfl, rfl⟩
  have hsel : (deletePackage t p).selected gameId previewRevision =
      t.selected gameId previewRevision := by
    rw [Tables.selected, hbindings.2]
    rfl
  refine resolve_congr hsel (fun r _ => ?_) surface roundId puzzleId
  rw [Tables.rows, Tables.rows, hbindings.1]
  exact List.filterMap_congr fun b hb =>
    slotRow_deletePackage h hsame hpend r (List.mem_filter.mp hb).1

end DeletePackage

/-! ## Publication -/

namespace Published

variable {t t' t₁ : Tables} {gameId draftId userId : Id} {now : ℤ}
  {draft published next : FrontendRevision}
  (hp : Published t t' gameId draftId userId now draft published next t₁)
include hp

/-- The revisions after. -/
lemma mem_revisions (h : t.WellFormed) {r : FrontendRevision} : r ∈ t'.revisions ↔
    r = next ∨ r = published ∨
      (r ∈ t.revisions ∧ r.id ≠ draftId ∧ ¬(r.gameId = gameId ∧ r.status = .published)) := by
  have hmem : r ∈ t'.revisions ↔
      r ∈ (replacePublished t₁ gameId draftId now).revisions ∨ r = next := by
    rw [hp.tables_eq]
    exact List.mem_append.trans (or_congr_right List.mem_singleton)
  have hmap : r ∈ (replacePublished t₁ gameId draftId now).revisions ↔
      ∃ r₀, (r₀ ∈ t.revisions ∧ ¬(r₀.gameId = gameId ∧ r₀.status = .published)) ∧
        r₀.published draftId now = r := by
    rw [← hp.revisions₁]
    exact List.mem_map.trans (exists_congr fun _ => and_congr_left fun _ => mem_deletePublished)
  rw [hmem, hmap, or_comm]
  refine or_congr_right ⟨?_, ?_⟩
  · rintro ⟨r₀, ⟨hr₀, hno⟩, rfl⟩
    by_cases hid : r₀.id = draftId
    · have heq := List.inj_on_of_nodup_map h.revision_id hr₀ hp.mem (hid.trans hp.id_eq.symm)
      left
      rw [heq, hp.published_eq, FrontendRevision.published, if_pos hp.id_eq]
    · right
      rw [FrontendRevision.published, if_neg hid]
      exact ⟨hr₀, hid, hno⟩
  · rintro (rfl | ⟨hr, hid, hno⟩)
    · refine ⟨draft, ⟨hp.mem, fun hpub => ?_⟩, ?_⟩
      · have hs := hp.status_eq.symm.trans hpub.2
        cases hs
      · rw [hp.published_eq, FrontendRevision.published, if_pos hp.id_eq]
    · exact ⟨r, ⟨hr, hno⟩, by rw [FrontendRevision.published, if_neg hid]⟩

/-- The other revisions keep their bindings. -/
lemma bindings_other {id : Id} (hdraft : id ≠ draftId) (hnext : id ≠ next.id)
    (hpub : t.publishedId gameId id = false) :
    t'.bindings.filter (·.revisionId = id) = t.bindings.filter (·.revisionId = id) := by
  have hset : ∀ bindings : List FrontendBinding,
      (bindings.filterMap fun b => if b.revisionId = draftId then t.settled b else some b).filter
        (·.revisionId = id) = bindings.filter (·.revisionId = id) := by
    intro bindings
    induction bindings with
    | nil => rfl
    | cons b bindings ih =>
      by_cases hrev : b.revisionId = draftId
      · have hne : ¬decide (b.revisionId = id) = true := by simpa [hrev] using hdraft.symm
        rw [List.filterMap_cons, if_pos hrev,
          List.filter_cons_of_neg (p := fun b : FrontendBinding => decide (b.revisionId = id)) hne,
          ← ih]
        cases hs : t.settled b with
        | none => rfl
        | some b' =>
          obtain ⟨rfl, -⟩ := settled_spec hs
          exact List.filter_cons_of_neg (by rwa [(rewritten_slot b).2.1])
      · rw [List.filterMap_cons, if_neg hrev, List.filter_cons, List.filter_cons, ih]
  have hpub₁ : t₁.publishedId gameId id = false := by
    rw [Tables.publishedId, hp.revisions₁]
    exact hpub
  rw [← hset t.bindings, ← settledBindings, ← show t₁.bindings = settledBindings t draftId by
    rw [(Frontend.settle_eq hp.settle_eq).1], hp.tables_eq]
  show (t₁.bindings.filter _ ++ List.map _ _).filter _ = _
  rw [List.filter_append, List.filter_map, List.filter_filter]
  have hcopies : ∀ l : List FrontendBinding, l.filter
      ((fun b => decide (b.revisionId = id)) ∘ fun b => { b with revisionId := next.id }) = [] :=
    fun l => List.filter_eq_nil_iff.mpr fun b _ => by simpa using hnext.symm
  rw [hcopies, List.map_nil, List.append_nil]
  refine List.filter_congr fun b _ => ?_
  by_cases hrev : b.revisionId = id <;> simp [hrev, hpub₁]

lemma next_id : next.id = t.nextRevisionId := by
  rw [hp.next_eq, (Frontend.settle_eq hp.settle_eq).1]
  rfl

/-- The draft's previews stay what they are. -/
lemma resolve_draft (h : t.WellFormed) (surface : String) (roundId puzzleId : Option Id) :
    resolve t' gameId surface roundId puzzleId (some draftId) =
      resolve t gameId surface roundId puzzleId (some draftId) := by
  have hgame : published.gameId = gameId := by
    rw [hp.published_eq]
    exact hp.game_eq
  have hdraft : t.selected gameId (some draftId) = [draft] :=
    hp.id_eq ▸ selected_some h hp.mem hp.game_eq
  have hpublished : t'.selected gameId (some draftId) = [published] :=
    hp.published_id ▸ selected_some (hp.wellFormed h) hp.published_mem' hgame
  exact resolve_eq_of_rows hdraft hpublished (hp.rows_published h) surface roundId puzzleId

/-- No revision of the game has another id. -/
lemma selected_nil (h : t.WellFormed) {id : Id} (hdraft : id ≠ draftId) (hnext : id ≠ next.id)
    (hpub : t.publishedId gameId id = false) :
    t.selected gameId (some id) = [] ∧ t'.selected gameId (some id) = [] := by
  have hno : ∀ r ∈ t.revisions, r.gameId = gameId → r.id = id → False := by
    intro r hr hg hid
    cases hs : r.status with
    | draft =>
      have heq := h.status r hr draft hp.mem (hg.trans hp.game_eq.symm)
        (hs.trans hp.status_eq.symm)
      exact hdraft (hid ▸ heq ▸ hp.id_eq)
    | published =>
      rw [publishedId_iff.mpr ⟨r, hr, hg, hs, hid⟩] at hpub
      cases hpub
  refine ⟨List.filter_eq_nil_iff.mpr fun r hr => ?_, List.filter_eq_nil_iff.mpr fun r hr => ?_⟩
  · simpa using hno r hr
  · simp only [Bool.and_eq_true, decide_eq_true_eq, not_and]
    intro hg hid
    rcases (hp.mem_revisions h).mp hr with rfl | rfl | ⟨hr, -, -⟩
    · exact hnext hid.symm
    · exact hdraft (hid ▸ hp.published_id)
    · exact hno r hr hg hid

/-- The revisions of other games are those before. -/
lemma selected_other (h : t.WellFormed) {otherId : Id} (hne : otherId ≠ gameId)
    (previewRevision : Option Id) :
    t'.selected otherId previewRevision = t.selected otherId previewRevision := by
  refine selected_congr h (hp.wellFormed h) fun r => ?_
  simp only [Tables.selected, List.mem_filter, hp.mem_revisions h]
  refine and_congr_left fun hsel => ?_
  simp only [Bool.and_eq_true, decide_eq_true_eq] at hsel
  have hgame : r.gameId ≠ gameId := hsel.1 ▸ hne
  constructor
  · rintro (rfl | rfl | ⟨hr, -, -⟩)
    · exact absurd (by rw [hp.next_eq]; rfl) hgame
    · exact absurd (by rw [hp.published_eq]; exact hp.game_eq) hgame
    · exact hr
  · intro hr
    refine .inr (.inr ⟨hr, fun hid => hgame ?_, fun hpub => hgame hpub.1⟩)
    rw [List.inj_on_of_nodup_map h.revision_id hr hp.mem (hid.trans hp.id_eq.symm), hp.game_eq]

/-- **Publishing changes what the published revision shows, and the previews of the revision that it
deletes and of the new draft.** -/
theorem resolve_other (h : t.WellFormed) {otherId : Id} {previewRevision : Option Id}
    (hkey : otherId = gameId → ∃ id, previewRevision = some id ∧ id ≠ next.id ∧
      t.publishedId gameId id = false) (surface : String) (roundId puzzleId : Option Id) :
    resolve t' otherId surface roundId puzzleId previewRevision =
      resolve t otherId surface roundId puzzleId previewRevision := by
  by_cases hg : otherId = gameId
  · obtain ⟨id, rfl, hnext, hpub⟩ := hkey hg
    rw [hg]
    by_cases hdraft : id = draftId
    · rw [hdraft]
      exact hp.resolve_draft h surface roundId puzzleId
    · obtain ⟨hnil, hnil'⟩ := hp.selected_nil h hdraft hnext hpub
      rw [resolve, resolve, hnil, hnil']
      rfl
  · refine resolve_congr (hp.selected_other h hg previewRevision) (fun r hr => ?_) surface roundId
      puzzleId
    obtain ⟨hmem, hsel⟩ := List.mem_filter.mp hr
    simp only [Bool.and_eq_true, decide_eq_true_eq] at hsel
    have hgame : ∀ r' ∈ t.revisions, r'.gameId = gameId → r'.id ≠ r.id := fun r' hr' hg' hid =>
      hg (by rw [← hsel.1, ← hg', List.inj_on_of_nodup_map h.revision_id hr' hmem hid])
    refine rows_congr hp.packages_eq.1 hp.packages_eq.2 (hp.bindings_other ?_ ?_ ?_)
    · exact fun hid => hgame draft hp.mem hp.game_eq (hp.id_eq.trans hid.symm)
    · rw [hp.next_id]
      exact Int.ne_of_lt (h.revision_lt r hmem)
    · rw [← Bool.not_eq_true]
      intro hpub
      obtain ⟨r', hr', hg', -, hid⟩ := publishedId_iff.mp hpub
      exact hgame r' hr' hg' hid

end Published

end Frontend
