import RbphBackend.Frontend.Tables

set_option relaxedAutoImplicit false
set_option autoImplicit false

/-!
# Publishing a draft

Publishing makes a draft refer to the packages that have replaced those it refers to, drops what is
left of packages pending deletion, makes it the published revision in place of the one before, and
starts a new draft as a copy of it.

## Main definitions

* `Frontend.publish` — the transaction, statement by statement.

## Main results

* `Frontend.publish_wellFormed` — it keeps the constraints of the schema.
-/

namespace Frontend

/-! ## The statements -/

/-- What the database refuses: the second row of a key, a reference to no row, a row that fails a
check. -/
inductive DatabaseError where
  | uniqueViolation
  | foreignKeyViolation
  | checkViolation
  deriving DecidableEq

section Statements

variable (t : Tables) (draftId : Id)

/-- The package that has replaced a package pending deletion. -/
def Tables.replacement (id : Id) : Option FrontendPackage :=
  ((t.package id).filter (·.deletePending)).bind fun old => t.active old.gameId old.name

def Tables.pending (id : Id) : Bool := (t.package id).any (·.deletePending)

def Tables.rewritten (b : FrontendBinding) : FrontendBinding :=
  match b.packageId.bind t.replacement with
  | some active => { b with packageId := some active.id }
  | none => b

def Tables.moved (f : FrontendFeatureActivation) : FrontendFeatureActivation :=
  match t.replacement f.packageId with
  | some active => { f with packageId := active.id }
  | none => f

/-- `UPDATE rb_frontend_binding b SET package_id=active.id ..`. -/
def rewriteBindings : Tables :=
  { t with bindings := t.bindings.map fun b =>
      if b.revisionId = draftId then t.rewritten b else b }

/-- The replacement has the feature of the activation already. -/
def Tables.duplicate (f : FrontendFeatureActivation) : Bool :=
  (t.replacement f.packageId).any fun active =>
    t.activations.any fun current => current.revisionId = f.revisionId &&
      current.packageId = active.id && current.feature = f.feature

/-- `DELETE FROM rb_frontend_feature_activation old_feature ..`. -/
def deleteDuplicates : Tables :=
  { t with activations := t.activations.filter fun f =>
      !(f.revisionId = draftId && t.duplicate f) }

/-- `UPDATE rb_frontend_feature_activation f SET package_id=active.id ..`. -/
def moveActivations : Except DatabaseError Tables :=
  let activations := t.activations.map fun f =>
    if f.revisionId = draftId then t.moved f else f
  if activations.Nodup then .ok { t with activations } else .error .uniqueViolation

/-- `DELETE FROM rb_frontend_binding b USING rb_frontend_package p ..`. -/
def deletePendingBindings : Tables :=
  { t with bindings := t.bindings.filter fun b =>
      !(b.revisionId = draftId && b.packageId.any t.pending) }

/-- `DELETE FROM rb_frontend_feature_activation f USING rb_frontend_package p ..`. -/
def deletePendingActivations : Tables :=
  { t with activations := t.activations.filter fun f =>
      !(f.revisionId = draftId && t.pending f.packageId) }

/-- The revision is the published one of the game. -/
def FrontendRevision.isPublished (r : FrontendRevision) (gameId : Id) : Bool :=
  r.gameId = gameId && r.status = .published

/-- The id is that of the published revision of the game. -/
def Tables.publishedId (gameId id : Id) : Bool :=
  t.revisions.any fun r => r.isPublished gameId && r.id = id

/-- `DELETE FROM rb_frontend_revision ..`, with the rows that go with it. -/
def deletePublished (gameId : Id) : Tables :=
  { t with
    revisions := t.revisions.filter fun r => !r.isPublished gameId
    bindings := t.bindings.filter fun b => !t.publishedId gameId b.revisionId
    activations := t.activations.filter fun f => !t.publishedId gameId f.revisionId }

def FrontendRevision.publishedAtTime (r : FrontendRevision) (now : ℤ) : FrontendRevision :=
  { r with status := .published, publishedAt := some now }

/-- `UPDATE rb_frontend_revision SET status='published' ..`. -/
def setPublished (now : ℤ) : Tables :=
  { t with revisions := t.revisions.map fun r =>
      if r.id = draftId then r.publishedAtTime now else r }

/-- `next_revision`. -/
def nextRevision (gameId : Id) : ℤ :=
  (((t.revisions.filter (·.gameId = gameId)).map (·.revision)).max?).getD 0 + 1

def insertRevision (r : FrontendRevision) : Tables :=
  { t with revisions := t.revisions ++ [r], nextRevisionId := t.nextRevisionId + 1 }

/-- The two statements that copy the rows of a revision. -/
def copyRows (fromId toId : Id) : Tables :=
  { t with
    bindings := t.bindings ++ (t.bindings.filter (·.revisionId = fromId)).map fun b =>
      { b with revisionId := toId }
    activations := t.activations ++ (t.activations.filter (·.revisionId = fromId)).map fun f =>
      { f with revisionId := toId } }

/-- The draft to publish. -/
def Tables.draftToPublish (gameId : Id) : Option FrontendRevision :=
  t.revisions.find? fun r => r.id = draftId && r.gameId = gameId && r.status = .draft

end Statements

/-- The draft's rows once they refer to no package pending deletion. -/
def settle (t : Tables) (draftId : Id) : Except DatabaseError Tables := do
  let t := deleteDuplicates (rewriteBindings t draftId) draftId
  let t ← moveActivations t draftId
  return deletePendingActivations (deletePendingBindings t draftId) draftId

/-- The new draft. -/
def newDraft (t : Tables) (gameId userId : Id) (now : ℤ) : FrontendRevision where
  id := t.nextRevisionId
  gameId
  revision := nextRevision t gameId
  status := .draft
  createdBy := some userId
  ctimeAt := now

/-- `publish`: the published revision and the new draft. -/
def publish (t : Tables) (gameId draftId userId : Id) (now : ℤ) :
    Except DatabaseError (Tables × Option (FrontendRevision × FrontendRevision)) :=
  match t.draftToPublish draftId gameId with
  | none => .ok (t, none)
  | some draft => do
    let t ← settle t draftId
    let t := setPublished (deletePublished t gameId) draftId now
    let next := newDraft t gameId userId now
    return (copyRows (insertRevision t next) draftId next.id,
      some (draft.publishedAtTime now, next))

/-! ## The constraints -/

section WellFormed

variable {t t' : Tables} {draftId gameId : Id}

lemma package_of_mem (h : t.WellFormed) {p : FrontendPackage} (hp : p ∈ t.packages) :
    t.package p.id = some p := by
  have hnodup := h.package_id
  unfold Tables.package
  cases hf : t.packages.find? (·.id = p.id) with
  | none =>
    have := List.find?_eq_none.mp hf p hp
    simp at this
  | some q =>
    have hq := List.mem_of_find?_eq_some hf
    have hid : q.id = p.id := by simpa using List.find?_some hf
    rw [List.inj_on_of_nodup_map hnodup hq hp hid]

lemma mem_of_active {name : String} {p : FrontendPackage} (h : t.active gameId name = some p) :
    p ∈ t.packages ∧ p.gameId = gameId ∧ p.name = name ∧ p.deletePending = false := by
  have hp := List.find?_some h
  simp only [Bool.and_eq_true, decide_eq_true_eq, Bool.not_eq_true'] at hp
  exact ⟨List.mem_of_find?_eq_some h, hp.1.1, hp.1.2, hp.2⟩

/-- What replaces a package is a package of the same game and name, and is not pending. -/
lemma replacement_spec {id : Id} {active : FrontendPackage} (h : t.replacement id = some active) :
    ∃ old, t.package id = some old ∧ old.deletePending = true ∧
      t.active old.gameId old.name = some active := by
  obtain ⟨old, hold, hact⟩ := Option.bind_eq_some_iff.mp h
  obtain ⟨hold, hpend⟩ := Option.filter_eq_some_iff.mp hold
  exact ⟨old, hold, hpend, hact⟩

lemma isSome_package_of_replacement (h : t.WellFormed) {id : Id} {active : FrontendPackage}
    (hr : t.replacement id = some active) : t.package active.id = some active := by
  obtain ⟨old, -, -, hact⟩ := replacement_spec hr
  exact package_of_mem h (mem_of_active hact).1

lemma rewritten_slot (b : FrontendBinding) : (t.rewritten b).slot = b.slot ∧
    (t.rewritten b).revisionId = b.revisionId ∧ (t.rewritten b).rendererId = b.rendererId ∧
    (t.rewritten b).packageId.isSome = b.packageId.isSome := by
  unfold Tables.rewritten
  split
  · rename_i active hact
    obtain ⟨id, hid, -⟩ := Option.bind_eq_some_iff.mp hact
    exact ⟨rfl, rfl, rfl, by rw [hid]; rfl⟩
  · exact ⟨rfl, rfl, rfl, rfl⟩

lemma package_rewritten (h : t.WellFormed) {b : FrontendBinding} (hb : b ∈ t.bindings) {id : Id}
    (hid : (t.rewritten b).packageId = some id) : (t.package id).isSome := by
  unfold Tables.rewritten at hid
  split at hid
  · rename_i active hact
    obtain ⟨old, -, hact⟩ := Option.bind_eq_some_iff.mp hact
    obtain rfl := Option.some.inj hid
    rw [isSome_package_of_replacement h hact]
    rfl
  · exact h.binding_package b hb id hid

/-- Where the statements leave the packages, the revisions and the other tables as they are, the
constraints are those of the bindings and activations. -/
lemma Tables.WellFormed.of_rows (h : t.WellFormed) {bindings : List FrontendBinding}
    {activations : List FrontendFeatureActivation}
    (hkey : (bindings.map fun b => (b.revisionId, b.slot)).Nodup)
    (hb : ∀ b ∈ bindings, (∃ r ∈ t.revisions, r.id = b.revisionId) ∧ b.slot.Valid ∧
      b.packageId.isSome = b.rendererId.isSome ∧
      ∀ id, b.packageId = some id → (t.package id).isSome)
    (hnodup : activations.Nodup)
    (hf : ∀ f ∈ activations, (∃ r ∈ t.revisions, r.id = f.revisionId) ∧
      (t.package f.packageId).isSome) :
    Tables.WellFormed { t with bindings, activations } where
  package_id := h.package_id
  active_name := h.active_name
  revision_id := h.revision_id
  status := h.status
  revision_lt := h.revision_lt
  binding_key := hkey
  binding_revision b hbm := (hb b hbm).1
  binding_package b hbm := (hb b hbm).2.2.2
  binding_slot b hbm := (hb b hbm).2.1
  binding_renderer b hbm := (hb b hbm).2.2.1
  activation_key := hnodup
  activation_revision f hfm := (hf f hfm).1
  activation_package f hfm := (hf f hfm).2
  package_group := h.package_group
  package_assets := h.package_assets

/-! ### The statements on the draft -/

/-- The binding as the statements leave it, if they do. -/
def Tables.settled (t : Tables) (b : FrontendBinding) : Option FrontendBinding :=
  if (t.rewritten b).packageId.any t.pending then none else some (t.rewritten b)

/-- The activations after the second `UPDATE`. -/
def movedActivations (t : Tables) (draftId : Id) : List FrontendFeatureActivation :=
  (t.activations.filter fun f => !(f.revisionId = draftId && t.duplicate f)).map fun f =>
    if f.revisionId = draftId then t.moved f else f

def settledBindings (t : Tables) (draftId : Id) : List FrontendBinding :=
  t.bindings.filterMap fun b => if b.revisionId = draftId then t.settled b else some b

def settledActivations (t : Tables) (draftId : Id) : List FrontendFeatureActivation :=
  (movedActivations t draftId).filter fun f =>
    !(f.revisionId = draftId && t.pending f.packageId)

lemma filter_map_settled (t : Tables) (draftId : Id) (bindings : List FrontendBinding) :
    (bindings.map fun b => if b.revisionId = draftId then t.rewritten b else b).filter (fun b =>
        !(b.revisionId = draftId && b.packageId.any t.pending)) =
      bindings.filterMap fun b => if b.revisionId = draftId then t.settled b else some b := by
  induction bindings with
  | nil => rfl
  | cons b bindings ih =>
    rw [List.map_cons, List.filter_cons, List.filterMap_cons, ih]
    by_cases hb : b.revisionId = draftId
    · have hrev : (t.rewritten b).revisionId = draftId := (rewritten_slot b).2.1.trans hb
      by_cases hp : (t.rewritten b).packageId.any t.pending = true
      · simp [hb, hrev, hp, Tables.settled]
      · simp [hb, hrev, hp, Tables.settled]
    · simp [hb]

lemma settle_eq (h : settle t draftId = .ok t') :
    t' = { t with
      bindings := settledBindings t draftId
      activations := settledActivations t draftId } ∧ (movedActivations t draftId).Nodup := by
  simp only [settle, moveActivations, bind, Except.bind] at h
  split at h
  · cases h
  · rename_i t₁ hmove
    split at hmove
    · rename_i hnodup
      obtain rfl := Except.ok.inj hmove
      obtain rfl := Except.ok.inj h
      refine ⟨?_, hnodup⟩
      simp only [deletePendingActivations, deletePendingBindings, deleteDuplicates, rewriteBindings,
        settledBindings, settledActivations, ← filter_map_settled]
      rfl
    · cases hmove

lemma settled_spec {b b' : FrontendBinding} (hb : t.settled b = some b') :
    b' = t.rewritten b ∧ ∀ id, b'.packageId = some id → t.pending id = false := by
  unfold Tables.settled at hb
  split at hb
  · cases hb
  · rename_i hp
    obtain rfl := Option.some.inj hb
    refine ⟨rfl, fun id hid => ?_⟩
    simpa [hid] using hp

lemma mem_settledBindings {b : FrontendBinding} (hb : b ∈ settledBindings t draftId) :
    ∃ b₀ ∈ t.bindings, b.revisionId = b₀.revisionId ∧ b.slot = b₀.slot ∧
      (b = b₀ ∨ b = t.rewritten b₀) := by
  obtain ⟨b₀, hb₀, hset⟩ := List.mem_filterMap.mp hb
  refine ⟨b₀, hb₀, ?_⟩
  split at hset
  · obtain ⟨rfl, -⟩ := settled_spec hset
    exact ⟨(rewritten_slot b₀).2.1, (rewritten_slot b₀).1, .inr rfl⟩
  · obtain rfl := Option.some.inj hset
    exact ⟨rfl, rfl, .inl rfl⟩

lemma nodup_filterMap_key {α β κ : Type} {key : α → κ} {key' : β → κ} {f : α → Option β}
    (hf : ∀ a b, f a = some b → key' b = key a) {l : List α} (h : (l.map key).Nodup) :
    ((l.filterMap f).map key').Nodup := by
  induction l with
  | nil => exact .nil
  | cons a l ih =>
    rw [List.map_cons, List.nodup_cons] at h
    cases ha : f a with
    | none =>
      rw [List.filterMap_cons_none ha]
      exact ih h.2
    | some b =>
      rw [List.filterMap_cons_some ha, List.map_cons, List.nodup_cons]
      refine ⟨fun hmem => h.1 ?_, ih h.2⟩
      obtain ⟨c, hc, hkey⟩ := List.mem_map.mp hmem
      obtain ⟨a', ha', hfa'⟩ := List.mem_filterMap.mp hc
      rw [← hf a b ha, ← hkey, hf a' c hfa']
      exact List.mem_map_of_mem ha'

lemma moved_spec (f : FrontendFeatureActivation) :
    (t.moved f).revisionId = f.revisionId ∧ (t.moved f).feature = f.feature := by
  unfold Tables.moved
  split <;> exact ⟨rfl, rfl⟩

lemma package_moved (h : t.WellFormed) {f : FrontendFeatureActivation} (hf : f ∈ t.activations) :
    (t.package (t.moved f).packageId).isSome := by
  unfold Tables.moved
  split
  · rename_i active hact
    rw [isSome_package_of_replacement h hact]
    rfl
  · exact h.activation_package f hf

/-- The statements on the draft keep the constraints. -/
lemma Tables.WellFormed.settle (h : t.WellFormed) (hs : Frontend.settle t draftId = .ok t') :
    t'.WellFormed := by
  obtain ⟨rfl, hnodup⟩ := settle_eq hs
  refine h.of_rows ?_ (fun b hb => ?_) (hnodup.filter _) fun f hf => ?_
  · refine nodup_filterMap_key (fun b b' hb => ?_) h.binding_key
    split at hb
    · obtain ⟨rfl, -⟩ := settled_spec hb
      rw [(rewritten_slot b).1, (rewritten_slot b).2.1]
    · obtain rfl := Option.some.inj hb
      rfl
  · obtain ⟨b₀, hb₀, hrev, hslot, heq⟩ := mem_settledBindings hb
    rw [hrev, hslot]
    refine ⟨h.binding_revision b₀ hb₀, h.binding_slot b₀ hb₀, ?_⟩
    rcases heq with rfl | rfl
    · exact ⟨h.binding_renderer b hb₀, h.binding_package b hb₀⟩
    · rw [(rewritten_slot b₀).2.2.1, (rewritten_slot b₀).2.2.2]
      exact ⟨h.binding_renderer b₀ hb₀, fun id => package_rewritten h hb₀⟩
  · obtain ⟨f₀, hf₀, rfl⟩ := List.mem_map.mp (List.mem_filter.mp hf).1
    obtain ⟨hf₀, -⟩ := List.mem_filter.mp hf₀
    split
    · rw [(moved_spec f₀).1]
      exact ⟨h.activation_revision f₀ hf₀, package_moved h hf₀⟩
    · exact ⟨h.activation_revision f₀ hf₀, h.activation_package f₀ hf₀⟩

/-! ### The statements on the revisions -/

lemma publishedId_iff {id : Id} : t.publishedId gameId id = true ↔
    ∃ r ∈ t.revisions, r.gameId = gameId ∧ r.status = .published ∧ r.id = id := by
  simp [Tables.publishedId, FrontendRevision.isPublished, and_assoc]

/-- The revisions that the statement leaves. -/
lemma mem_deletePublished {r : FrontendRevision} : r ∈ (deletePublished t gameId).revisions ↔
    r ∈ t.revisions ∧ ¬(r.gameId = gameId ∧ r.status = .published) := by
  simp [deletePublished, FrontendRevision.isPublished, imp_iff_not_or]

lemma mem_deletePublished_of_id {r : FrontendRevision} (hr : r ∈ t.revisions)
    (hid : t.publishedId gameId r.id = false) : r ∈ (deletePublished t gameId).revisions := by
  refine mem_deletePublished.mpr ⟨hr, fun ⟨hg, hs⟩ => ?_⟩
  rw [publishedId_iff.mpr ⟨r, hr, hg, hs, rfl⟩] at hid
  cases hid

lemma Tables.WellFormed.deletePublished (h : t.WellFormed) :
    (Frontend.deletePublished t gameId).WellFormed where
  package_id := h.package_id
  active_name := h.active_name
  revision_id := h.revision_id.sublist (List.Sublist.map _ List.filter_sublist)
  status r hr r' hr' :=
    h.status r (List.mem_filter.mp hr).1 r' (List.mem_filter.mp hr').1
  revision_lt r hr := h.revision_lt r (List.mem_filter.mp hr).1
  binding_key := h.binding_key.sublist (List.Sublist.map _ List.filter_sublist)
  binding_revision b hb := by
    obtain ⟨hb, hid⟩ := List.mem_filter.mp hb
    obtain ⟨r, hr, hrev⟩ := h.binding_revision b hb
    rw [← hrev] at hid
    exact ⟨r, mem_deletePublished_of_id hr (by simpa using hid), hrev⟩
  binding_package b hb := h.binding_package b (List.mem_filter.mp hb).1
  binding_slot b hb := h.binding_slot b (List.mem_filter.mp hb).1
  binding_renderer b hb := h.binding_renderer b (List.mem_filter.mp hb).1
  activation_key := h.activation_key.filter _
  activation_revision f hf := by
    obtain ⟨hf, hid⟩ := List.mem_filter.mp hf
    obtain ⟨r, hr, hrev⟩ := h.activation_revision f hf
    rw [← hrev] at hid
    exact ⟨r, mem_deletePublished_of_id hr (by simpa using hid), hrev⟩
  activation_package f hf := h.activation_package f (List.mem_filter.mp hf).1
  package_group := h.package_group
  package_assets := h.package_assets

/-- A revision as the `UPDATE` leaves it. -/
def FrontendRevision.published (r : FrontendRevision) (draftId : Id) (now : ℤ) :
    FrontendRevision :=
  if r.id = draftId then r.publishedAtTime now else r

lemma published_spec (r : FrontendRevision) (draftId : Id) (now : ℤ) :
    (r.published draftId now).id = r.id ∧ (r.published draftId now).gameId = r.gameId ∧
      (r.published draftId now).revision = r.revision := by
  unfold FrontendRevision.published
  split <;> exact ⟨rfl, rfl, rfl⟩

lemma map_published_id (revisions : List FrontendRevision) (draftId : Id) (now : ℤ) :
    (revisions.map fun r => r.published draftId now).map (·.id) = revisions.map (·.id) := by
  rw [List.map_map]
  exact List.map_congr_left fun r _ => (published_spec r draftId now).1

lemma Tables.WellFormed.setPublished (h : t.WellFormed) {draft : FrontendRevision}
    (hd : draft ∈ t.revisions)
    (hno : ∀ r ∈ t.revisions, r.gameId = draft.gameId → r.status ≠ .published) (now : ℤ) :
    (Frontend.setPublished t draft.id now).WellFormed where
  package_id := h.package_id
  active_name := h.active_name
  revision_id := (map_published_id t.revisions draft.id now).symm ▸ h.revision_id
  status r hr r' hr' hg hs := by
    obtain ⟨r₀, hr₀, rfl⟩ := List.mem_map.mp hr
    obtain ⟨r₁, hr₁, rfl⟩ := List.mem_map.mp hr'
    have hinj : ∀ x ∈ t.revisions, x.id = draft.id → x = draft :=
      fun x hx hid => List.inj_on_of_nodup_map h.revision_id hx hd hid
    by_cases h₀ : r₀.id = draft.id <;> by_cases h₁ : r₁.id = draft.id <;>
      simp only [h₀, h₁, if_true, if_false] at hg hs ⊢
    · rw [hinj r₀ hr₀ h₀, hinj r₁ hr₁ h₁]
    · exact absurd hs.symm (hno r₁ hr₁ (by rw [← hinj r₀ hr₀ h₀]; exact hg.symm))
    · exact absurd hs (hno r₀ hr₀ (by rw [← hinj r₁ hr₁ h₁]; exact hg))
    · exact h.status r₀ hr₀ r₁ hr₁ hg hs
  revision_lt r hr := by
    obtain ⟨r₀, hr₀, rfl⟩ := List.mem_map.mp hr
    show (r₀.published draft.id now).id < _
    rw [(published_spec r₀ draft.id now).1]
    exact h.revision_lt r₀ hr₀
  binding_key := h.binding_key
  binding_revision b hb := by
    obtain ⟨r, hr, hrev⟩ := h.binding_revision b hb
    exact ⟨_, List.mem_map_of_mem hr, (published_spec r draft.id now).1.trans hrev⟩
  binding_package := h.binding_package
  binding_slot := h.binding_slot
  binding_renderer := h.binding_renderer
  activation_key := h.activation_key
  activation_revision f hf := by
    obtain ⟨r, hr, hrev⟩ := h.activation_revision f hf
    exact ⟨_, List.mem_map_of_mem hr, (published_spec r draft.id now).1.trans hrev⟩
  activation_package := h.activation_package
  package_group := h.package_group
  package_assets := h.package_assets

lemma Tables.WellFormed.insertRevision (h : t.WellFormed) {r : FrontendRevision}
    (hid : r.id = t.nextRevisionId)
    (hno : ∀ x ∈ t.revisions, x.gameId = r.gameId → x.status ≠ r.status) :
    (Frontend.insertRevision t r).WellFormed where
  package_id := h.package_id
  active_name := h.active_name
  revision_id := by
    rw [Frontend.insertRevision, List.map_append, List.nodup_append]
    refine ⟨h.revision_id, List.nodup_singleton _, ?_⟩
    rintro _ hx _ hr rfl
    obtain ⟨x, hmem, heq⟩ := List.mem_map.mp hx
    have hlt := h.revision_lt x hmem
    rw [List.map_singleton, List.mem_singleton] at hr
    rw [heq.trans (hr.trans hid)] at hlt
    exact Int.lt_irrefl _ hlt
  status x hx y hy hg hs := by
    rcases List.mem_append.mp hx with hx' | hx' <;> rcases List.mem_append.mp hy with hy' | hy'
    · exact h.status x hx' y hy' hg hs
    · obtain rfl := List.mem_singleton.mp hy'
      exact absurd hs (hno x hx' hg)
    · obtain rfl := List.mem_singleton.mp hx'
      exact absurd hs.symm (hno y hy' hg.symm)
    · rw [List.mem_singleton.mp hx', List.mem_singleton.mp hy']
  revision_lt x hx := by
    show x.id < t.nextRevisionId + 1
    rcases List.mem_append.mp hx with hx' | hx'
    · exact Int.lt_trans (h.revision_lt x hx') (Int.lt_succ t.nextRevisionId)
    · rw [List.mem_singleton.mp hx', hid]
      exact Int.lt_succ t.nextRevisionId
  binding_key := h.binding_key
  binding_revision b hb := by
    obtain ⟨x, hx, hrev⟩ := h.binding_revision b hb
    exact ⟨x, List.mem_append_left _ hx, hrev⟩
  binding_package := h.binding_package
  binding_slot := h.binding_slot
  binding_renderer := h.binding_renderer
  activation_key := h.activation_key
  activation_revision f hf := by
    obtain ⟨x, hx, hrev⟩ := h.activation_revision f hf
    exact ⟨x, List.mem_append_left _ hx, hrev⟩
  activation_package := h.activation_package
  package_group := h.package_group
  package_assets := h.package_assets

lemma nodup_append_copies {α κ : Type} {l : List α} (key : α → κ) (copy : α → α) (p : α → Bool)
    (h : (l.map key).Nodup) (hinj : ∀ a b, key (copy a) = key (copy b) → p a = true →
      p b = true → key a = key b) (hnew : ∀ a b, a ∈ l → b ∈ l → key a ≠ key (copy b)) :
    ((l ++ (l.filter p).map copy).map key).Nodup := by
  rw [List.map_append, List.nodup_append]
  refine ⟨h, ?_, ?_⟩
  · rw [List.map_map]
    refine List.Nodup.map_on ?_ ((List.Nodup.of_map key h).filter p)
    intro a ha b hb hab
    obtain ⟨ha, hpa⟩ := List.mem_filter.mp ha
    obtain ⟨hb, hpb⟩ := List.mem_filter.mp hb
    exact List.inj_on_of_nodup_map h ha hb (hinj a b hab hpa hpb)
  · rintro _ hx _ hy rfl
    obtain ⟨a, ha, heq⟩ := List.mem_map.mp hx
    obtain ⟨c, hc, heq'⟩ := List.mem_map.mp hy
    obtain ⟨b, hb, rfl⟩ := List.mem_map.mp hc
    exact hnew a b ha (List.mem_filter.mp hb).1 (heq.trans heq'.symm)

/-- No row of the revision is there before its rows are copied. -/
lemma Tables.WellFormed.copyRows (h : t.WellFormed) {fromId toId : Id}
    (hto : ∃ r ∈ t.revisions, r.id = toId) (hb : ∀ b ∈ t.bindings, b.revisionId ≠ toId)
    (hf : ∀ f ∈ t.activations, f.revisionId ≠ toId) :
    (Frontend.copyRows t fromId toId).WellFormed := by
  refine h.of_rows ?_ (fun b hbm => ?_) ?_ fun f hfm => ?_
  · refine nodup_append_copies _ _ _ h.binding_key (fun a b hab ha hb => ?_)
      fun a b ha _ hab => ?_
    · simp only [decide_eq_true_eq] at ha hb
      rw [ha, hb]
      exact congrArg (fun k => (fromId, k.2)) hab
    · exact hb a ha (congrArg Prod.fst hab)
  · rcases List.mem_append.mp hbm with hbm | hbm
    · exact ⟨h.binding_revision b hbm, h.binding_slot b hbm, h.binding_renderer b hbm,
        h.binding_package b hbm⟩
    · obtain ⟨b₀, hb₀, rfl⟩ := List.mem_map.mp hbm
      obtain ⟨hb₀, -⟩ := List.mem_filter.mp hb₀
      exact ⟨hto, h.binding_slot b₀ hb₀, h.binding_renderer b₀ hb₀, h.binding_package b₀ hb₀⟩
  · have hnodup := nodup_append_copies id (fun f => { f with revisionId := toId })
      (fun f : FrontendFeatureActivation => decide (f.revisionId = fromId))
      (by simpa using h.activation_key) (fun a b hab ha hb => ?_)
      fun a b ha _ hab => hf a ha (congrArg (·.revisionId) hab)
    · simpa using hnodup
    · obtain ⟨-, hpackage, hfeature⟩ := FrontendFeatureActivation.mk.inj hab
      simp only [decide_eq_true_eq] at ha hb
      obtain ⟨ra, pa, fa⟩ := a
      obtain ⟨rb, pb, fb⟩ := b
      simp only at ha hb hpackage hfeature
      rw [ha, hb, hpackage, hfeature]
  · rcases List.mem_append.mp hfm with hfm | hfm
    · exact ⟨h.activation_revision f hfm, h.activation_package f hfm⟩
    · obtain ⟨f₀, hf₀, rfl⟩ := List.mem_map.mp hfm
      obtain ⟨hf₀, -⟩ := List.mem_filter.mp hf₀
      exact ⟨hto, h.activation_package f₀ hf₀⟩

end WellFormed

/-! ## The transaction -/

section Transaction

variable {t t' : Tables} {gameId draftId userId : Id} {now : ℤ}

/-- The tables before the new draft is inserted. -/
def replacePublished (t : Tables) (gameId draftId : Id) (now : ℤ) : Tables :=
  setPublished (deletePublished t gameId) draftId now

/-- What a transaction that publishes consists of. -/
structure Published (t t' : Tables) (gameId draftId userId : Id) (now : ℤ)
    (draft published next : FrontendRevision) (t₁ : Tables) : Prop where
  mem : draft ∈ t.revisions
  id_eq : draft.id = draftId
  game_eq : draft.gameId = gameId
  status_eq : draft.status = .draft
  settle_eq : settle t draftId = .ok t₁
  published_eq : published = draft.publishedAtTime now
  next_eq : next = newDraft (replacePublished t₁ gameId draftId now) gameId userId now
  tables_eq : t' = copyRows (insertRevision (replacePublished t₁ gameId draftId now) next) draftId
    next.id

lemma publish_spec {published next : FrontendRevision}
    (h : publish t gameId draftId userId now = .ok (t', some (published, next))) :
    ∃ draft t₁, Published t t' gameId draftId userId now draft published next t₁ := by
  unfold publish at h
  split at h
  · cases h
  · rename_i draft hdraft
    simp only [bind, Except.bind, pure, Except.pure] at h
    split at h
    · cases h
    · rename_i t₁ hsettle
      have hp := List.find?_some hdraft
      simp only [Bool.and_eq_true, decide_eq_true_eq] at hp
      simp only [Except.ok.injEq, Prod.mk.injEq, Option.some.injEq] at h
      obtain ⟨rfl, rfl, rfl⟩ := h
      exact ⟨draft, t₁, List.mem_of_find?_eq_some hdraft, hp.1.1, hp.1.2, hp.2, hsettle, rfl, rfl,
        rfl⟩

namespace Published

variable {draft published next : FrontendRevision} {t₁ : Tables}

section Members

variable (hp : Published t t' gameId draftId userId now draft published next t₁)
include hp

lemma revisions₁ : t₁.revisions = t.revisions := by rw [(Frontend.settle_eq hp.settle_eq).1]

lemma draft_mem : draft ∈ (deletePublished t₁ gameId).revisions := by
  refine mem_deletePublished.mpr ⟨hp.revisions₁ ▸ hp.mem, fun ⟨_, hs⟩ => ?_⟩
  rw [hp.status_eq] at hs
  cases hs

lemma published_mem : published ∈ (replacePublished t₁ gameId draftId now).revisions := by
  refine List.mem_map.mpr ⟨draft, hp.draft_mem, ?_⟩
  simp [hp.id_eq, hp.published_eq]

lemma published_mem' : published ∈ t'.revisions := by
  rw [hp.tables_eq]
  exact List.mem_append_left _ hp.published_mem

lemma next_mem : next ∈ t'.revisions := by
  rw [hp.tables_eq]
  exact List.mem_append_right _ (List.mem_singleton.mpr rfl)

lemma published_id : published.id = draftId := by
  rw [hp.published_eq]
  exact hp.id_eq

end Members

section Constraints

variable (hp : Published t t' gameId draftId userId now draft published next t₁)
  (h : t.WellFormed)
include hp h

lemma wellFormed₁ : t₁.WellFormed := h.settle hp.settle_eq

lemma wellFormed₂ : (replacePublished t₁ gameId draftId now).WellFormed := by
  have hset := (hp.wellFormed₁ h).deletePublished.setPublished hp.draft_mem
    (fun r hr hg hs => (mem_deletePublished.mp hr).2 ⟨hg.trans hp.game_eq, hs⟩) now
  rwa [hp.id_eq] at hset

/-- The draft is published, so that the game has no other one. -/
lemma no_draft : ∀ r ∈ (replacePublished t₁ gameId draftId now).revisions, r.gameId = gameId →
    r.status ≠ .draft := by
  intro r hr hg hs
  obtain ⟨r₀, hr₀, rfl⟩ := List.mem_map.mp hr
  change (r₀.published draftId now).gameId = gameId at hg
  change (r₀.published draftId now).status = .draft at hs
  by_cases hid : r₀.id = draftId
  · simp [FrontendRevision.published, hid, FrontendRevision.publishedAtTime] at hs
  · simp only [FrontendRevision.published, hid, if_false] at hg hs
    obtain ⟨hr₀, -⟩ := mem_deletePublished.mp hr₀
    rw [hp.revisions₁] at hr₀
    have heq := h.status r₀ hr₀ draft hp.mem (hg.trans hp.game_eq.symm) (hs.trans hp.status_eq.symm)
    exact hid (heq ▸ hp.id_eq)

lemma wellFormed₃ : (insertRevision (replacePublished t₁ gameId draftId now) next).WellFormed := by
  refine (hp.wellFormed₂ h).insertRevision (by rw [hp.next_eq]; rfl) fun r hr hg => ?_
  rw [hp.next_eq] at hg ⊢
  exact hp.no_draft h r hr hg

/-- The ids of the revisions before are not that of the new draft. -/
lemma ne_next {id : Id}
    (hid : ∃ r ∈ (replacePublished t₁ gameId draftId now).revisions, r.id = id) :
    id ≠ next.id := by
  obtain ⟨r, hr, rfl⟩ := hid
  rw [hp.next_eq]
  exact Int.ne_of_lt ((hp.wellFormed₂ h).revision_lt r hr)

lemma wellFormed : t'.WellFormed := by
  rw [hp.tables_eq]
  have h₂ := hp.wellFormed₂ h
  refine (hp.wellFormed₃ h).copyRows ⟨next, ?_, rfl⟩ (fun b hb => ?_) fun f hf => ?_
  · exact List.mem_append_right _ (List.mem_singleton.mpr rfl)
  · exact hp.ne_next h (h₂.binding_revision b hb)
  · exact hp.ne_next h (h₂.activation_revision f hf)

lemma draftId_ne_next : draftId ≠ next.id :=
  hp.ne_next h ⟨published, hp.published_mem, hp.published_id⟩

end Constraints

end Published

/-- **Publishing keeps the constraints.** -/
theorem publish_wellFormed {published next : FrontendRevision} (h : t.WellFormed)
    (hp : publish t gameId draftId userId now = .ok (t', some (published, next))) :
    t'.WellFormed := by
  obtain ⟨draft, t₁, hp⟩ := publish_spec hp
  exact hp.wellFormed h

end Transaction

end Frontend
