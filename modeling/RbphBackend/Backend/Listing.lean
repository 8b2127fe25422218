import Mathlib.Data.List.Dedup
import Mathlib.Data.List.ReduceOption
import RbphBackend.Backend.Store
import RbphBackend.Games.Merge
import RbphBackend.Paging.Keyset

set_option relaxedAutoImplicit false
set_option autoImplicit false

/-!
# Listing the documents of a collection

The filters of a list are met by a document when it has a matching row of the index for each of
them, as the keys that match are counted and the keys of filters differ. Whoever follows the ids of
the pages gets these documents, and no other, in the order of their ids.

## Main definitions

* `Backend.Store.HasIndexed` — the index has a matching row for a filter.
* `Backend.Store.FieldEq` — the field of a document has the value of a filter.
* `Backend.Store.Indexed` — what the index has of each document.
* `Backend.Store.Follows` — what a reader gets.

## Main results

* `Backend.Store.meetsFilters_iff` — what is counted.
* `Backend.Store.indexed_of_stored`, `Backend.Store.hasIndexed_iff` — the index is that of the
  documents.
* `Backend.Store.storeList_follow` — following the ids.
-/

namespace Backend.Store

open Games (Value)
open Numeric (bind_eq_ok pure_eq_ok)

variable {D : Floats}

/-! ## Counting keys -/

section Counting

variable {t : Tables D} {doc : StoreDocRow} {es : List (PuzzleStoreIndexEntry D)}

/-- The index has a row of the document for the key of an entry, with an equal value. -/
def HasIndexed (t : Tables D) (doc : StoreDocRow) (e : PuzzleStoreIndexEntry D) : Prop :=
  ∃ i ∈ t.indexes, (i.docId = doc.id ∧ i.gameId = doc.gameId ∧ i.collection = doc.collection) ∧
    i.key = e.key ∧ i.value.eq e.value = true

lemma holds_push (filters : PuzzleStoreEqFilters D) (e : PuzzleStoreIndexEntry D) (key : String)
    (v : PuzzleStoreIndexValue D) :
    (filters.push e).holds key v = (filters.holds key v || decide (e.key = key ∧ v.eq e.value)) := by
  obtain ⟨k, x⟩ := e
  by_cases hk : k = key <;> cases x <;> cases v <;>
    simp [PuzzleStoreEqFilters.push, PuzzleStoreEqFilters.holds, PuzzleStoreIndexValue.eq, hk]

lemma len_push (filters : PuzzleStoreEqFilters D) (e : PuzzleStoreIndexEntry D) :
    (filters.push e).len = filters.len + 1 := by
  obtain ⟨k, x⟩ := e
  cases x <;> simp only [PuzzleStoreEqFilters.push, PuzzleStoreEqFilters.len, List.length_append,
    List.length_singleton] <;> omega

lemma holds_foldl_push (filters : PuzzleStoreEqFilters D) (key : String)
    (v : PuzzleStoreIndexValue D) :
    (es.foldl PuzzleStoreEqFilters.push filters).holds key v =
      (filters.holds key v || es.any fun e => e.key = key ∧ v.eq e.value) := by
  induction es generalizing filters with
  | nil => simp
  | cons e es ih => rw [List.foldl_cons, ih, holds_push, List.any_cons, Bool.or_assoc]

lemma len_foldl_push (filters : PuzzleStoreEqFilters D) :
    (es.foldl PuzzleStoreEqFilters.push filters).len = filters.len + es.length := by
  induction es generalizing filters with
  | nil => rfl
  | cons e es ih =>
    rw [List.foldl_cons, ih, len_push, List.length_cons]
    omega

/-- As many keys of a list are found as it has when all of them are. -/
lemma length_dedup_eq_iff {found keys : List String} (hkeys : keys.Nodup) (hsub : found ⊆ keys) :
    found.dedup.length = keys.length ↔ keys ⊆ found := by
  have hnodup := List.nodup_dedup found
  constructor
  · intro hlen key hkey
    have hsubperm : found.dedup.Subperm keys :=
      List.subperm_of_subset hnodup fun key hkey => hsub (List.mem_dedup.mp hkey)
    exact List.mem_dedup.mp ((hsubperm.perm_of_length_le hlen.ge).symm.subset hkey)
  · intro hall
    refine ((List.perm_ext_iff_of_nodup hnodup hkeys).mpr fun key => ?_).length_eq
    rw [List.mem_dedup]
    exact ⟨fun h => hsub h, fun h => hall h⟩

/-- **What is counted**: where the keys of the filters differ, a document meets them when the index
has a matching row for each of them. -/
theorem meetsFilters_iff (hnodup : (es.map (·.key)).Nodup) :
    meetsFilters t (es.foldl PuzzleStoreEqFilters.push PuzzleStoreEqFilters.empty) doc = true ↔
      ∀ e ∈ es, HasIndexed t doc e := by
  set filters := es.foldl PuzzleStoreEqFilters.push PuzzleStoreEqFilters.empty with hfilters
  have hlen : filters.len = (es.map (·.key)).length := by
    rw [hfilters, len_foldl_push, List.length_map]
    exact Nat.zero_add _
  have hholds : ∀ key v, filters.holds key v = true ↔
      ∃ e ∈ es, e.key = key ∧ v.eq e.value = true := by
    intro key v
    have hempty : (PuzzleStoreEqFilters.empty : PuzzleStoreEqFilters D).holds key v = false := by
      cases v <;> rfl
    rw [hfilters, holds_foldl_push, hempty, Bool.false_or, List.any_eq_true]
    simp only [decide_eq_true_eq]
  set found := (t.indexes.filter fun i => i.docId = doc.id ∧ i.gameId = doc.gameId ∧
    i.collection = doc.collection ∧ filters.holds i.key i.value).map (·.key) with hfound
  have hmem : ∀ e ∈ es, e.key ∈ found ↔ HasIndexed t doc e := by
    intro e he
    rw [hfound, List.mem_map]
    constructor
    · rintro ⟨i, hi, hkey⟩
      rw [List.mem_filter, decide_eq_true_eq] at hi
      obtain ⟨hi, hid, hgame, hcollection, hmatch⟩ := hi
      obtain ⟨e', he', hkey', heq⟩ := (hholds _ _).mp hmatch
      -- the keys of filters differ
      obtain rfl : e' = e := List.inj_on_of_nodup_map hnodup he' he (hkey'.trans hkey)
      exact ⟨i, hi, ⟨hid, hgame, hcollection⟩, hkey, heq⟩
    · rintro ⟨i, hi, ⟨hid, hgame, hcollection⟩, hkey, heq⟩
      refine ⟨i, List.mem_filter.mpr ⟨hi, decide_eq_true ⟨hid, hgame, hcollection, ?_⟩⟩, hkey⟩
      exact (hholds _ _).mpr ⟨e, he, hkey.symm, heq⟩
  have hsub : found ⊆ es.map (·.key) := by
    intro key hkey
    obtain ⟨i, hi, rfl⟩ := List.mem_map.mp hkey
    rw [List.mem_filter, decide_eq_true_eq] at hi
    obtain ⟨e, he, hkey, -⟩ := (hholds _ _).mp hi.2.2.2.2
    exact List.mem_map.mpr ⟨e, he, hkey⟩
  have hall : es.map (·.key) ⊆ found ↔ ∀ e ∈ es, HasIndexed t doc e := by
    constructor
    · intro h e he
      exact (hmem e he).mp (h (List.mem_map.mpr ⟨e, he, rfl⟩))
    · intro h key hkey
      obtain ⟨e, he, rfl⟩ := List.mem_map.mp hkey
      exact (hmem e he).mpr (h e he)
  rw [meetsFilters, decide_eq_true_eq, hlen, length_dedup_eq_iff hnodup hsub, hall]
  refine or_iff_right_of_imp fun hzero => ?_
  rw [List.length_map, List.length_eq_zero_iff] at hzero
  rw [hzero]
  exact fun e he => absurd he List.not_mem_nil

end Counting

/-! ## What the host makes of maps -/

section Maps

variable {α β : Type} {f : α → Except String β}

/-- A loop that accepts each of its items. -/
lemma forall₂_of_mapM {l : List α} {l' : List β} (h : l.mapM f = .ok l') :
    List.Forall₂ (fun a b => f a = .ok b) l l' := by
  induction l generalizing l' with
  | nil =>
    rw [List.mapM_nil, pure_eq_ok] at h
    subst h
    exact .nil
  | cons a l ih =>
    rw [List.mapM_cons] at h
    obtain ⟨b, hb, h⟩ := bind_eq_ok.mp h
    obtain ⟨bs, hbs, h⟩ := bind_eq_ok.mp h
    rw [pure_eq_ok] at h
    subst h
    exact .cons hb (ih hbs)

/-- What a loop makes of its items. -/
lemma mem_of_forall₂ {R : α → β → Prop} {l : List α} {l' : List β} (h : List.Forall₂ R l l') :
    ∀ b ∈ l', ∃ a ∈ l, R a b := by
  induction h with
  | nil => exact fun b hb => absurd hb List.not_mem_nil
  | cons hab _ ih =>
    intro b hb
    obtain rfl | hb := List.mem_cons.mp hb
    · exact ⟨_, List.mem_cons_self, hab⟩
    · obtain ⟨a, ha, hR⟩ := ih b hb
      exact ⟨a, List.mem_cons_of_mem _ ha, hR⟩

lemma exists_of_forall₂ {R : α → β → Prop} {l : List α} {l' : List β} (h : List.Forall₂ R l l') :
    ∀ a ∈ l, ∃ b ∈ l', R a b := by
  intro a ha
  obtain ⟨b, hb, hR⟩ := mem_of_forall₂ h.flip a ha
  exact ⟨b, hb, hR⟩

end Maps

/-- The entry is that of a filter: the value it has, with the type declared. -/
structure FilterOf (D : Floats) (schema : JsonMap) (filter : String × Value)
    (e : PuzzleStoreIndexEntry D) : Prop where
  key : e.key = filter.1
  typed : ∃ kind, (schema.entries.lookup filter.1).bind Value.asStr = some kind ∧
    typedValue D filterMessages kind (eqValue filter.2) = .ok e.value

lemma filterOf_of_ok {schema : JsonMap} {filter : String × Value} {e : PuzzleStoreIndexEntry D}
    (h : filterEntry D schema filter = .ok e) : FilterOf D schema filter e := by
  rw [filterEntry] at h
  obtain ⟨u, -, h⟩ := bind_eq_ok.mp h
  cases hkind : (schema.entries.lookup filter.1).bind Value.asStr with
  | none =>
    rw [hkind] at h
    cases h
  | some kind =>
    rw [hkind] at h
    obtain ⟨v, hv, h⟩ := bind_eq_ok.mp h
    rw [pure_eq_ok] at h
    subst h
    exact ⟨rfl, kind, hkind, hv⟩

/-- The entry is that of an index of a document, whose field is there and not null. -/
structure IndexOf (D : Floats) (value : Value) (index : String × Value)
    (e : PuzzleStoreIndexEntry D) : Prop where
  key : e.key = index.1
  typed : ∃ kind field, index.2.asStr = some kind ∧ valuePath value index.1 = some field ∧
    typedValue D fieldMessages kind field = .ok e.value

/-- No type has the value null. -/
lemma typedValue_null (messages : TypeMessages) (kind : String) (v : PuzzleStoreIndexValue D) :
    typedValue D messages kind .null ≠ .ok v := by
  unfold typedValue
  split_ifs <;> exact fun h => nomatch h

/-- What an index makes of a document: the entry of the field, and none where there is no field. -/
lemma indexEntry_ok {value : Value} {index : String × Value} {o : Option (PuzzleStoreIndexEntry D)}
    (h : indexEntry D value index = .ok o) (e : PuzzleStoreIndexEntry D) :
    o = some e ↔ IndexOf D value index e := by
  rw [indexEntry] at h
  obtain ⟨u, -, h⟩ := bind_eq_ok.mp h
  cases hkind : index.2.asStr with
  | none =>
    rw [hkind] at h
    cases h
  | some kind =>
    rw [hkind] at h
    cases hfield : valuePath value index.1 with
    | none =>
      rw [hfield] at h
      obtain rfl := pure_eq_ok.mp h
      refine ⟨fun h => (nomatch h), fun ⟨_, _, field, _, hfield', _⟩ => ?_⟩
      rw [hfield] at hfield'
      cases hfield'
    | some field =>
      rw [hfield] at h
      dsimp only at h
      by_cases hnull : field.isNull = true
      · rw [if_pos hnull] at h
        obtain rfl := pure_eq_ok.mp h
        refine ⟨fun h => (nomatch h), fun ⟨_, kind', field', _, hfield', hv⟩ => ?_⟩
        obtain rfl := Option.some.inj (hfield.symm.trans hfield')
        cases field with
        | null => exact absurd hv (typedValue_null _ _ _)
        | _ => cases hnull
      · rw [if_neg hnull] at h
        obtain ⟨v, hv, h⟩ := bind_eq_ok.mp h
        obtain rfl := pure_eq_ok.mp h
        constructor
        · intro heq
          obtain rfl := Option.some.inj heq
          exact ⟨rfl, kind, field, hkind, hfield, hv⟩
        · rintro ⟨hkey, kind', field', hkind', hfield', hv'⟩
          obtain rfl := Option.some.inj (hkind.symm.trans hkind')
          obtain rfl := Option.some.inj (hfield.symm.trans hfield')
          rw [hv] at hv'
          cases hv'
          cases e
          cases hkey
          rfl

/-- The entries of a document are those of its indexes. -/
lemma mem_indexEntries {value : Value} {schema : JsonMap} {es : List (PuzzleStoreIndexEntry D)}
    (h : indexEntries D value schema = .ok es) {e : PuzzleStoreIndexEntry D} :
    e ∈ es ↔ ∃ index ∈ schema.entries, IndexOf D value index e := by
  obtain ⟨os, hos, h⟩ := bind_eq_ok.mp h
  obtain rfl := pure_eq_ok.mp h
  have hloop := forall₂_of_mapM hos
  rw [List.reduceOption_mem_iff]
  constructor
  · intro hmem
    obtain ⟨index, hindex, hok⟩ := mem_of_forall₂ hloop _ hmem
    exact ⟨index, hindex, (indexEntry_ok hok e).mp rfl⟩
  · rintro ⟨index, hindex, hof⟩
    obtain ⟨o, ho, hok⟩ := exists_of_forall₂ hloop index hindex
    rwa [(indexEntry_ok hok e).mpr hof] at ho

/-! ## The index -/

section Index

variable {t t' : Tables D} {schemas : ℤ → JsonMap}

/-- The row that the index has for an entry of a document. -/
def indexRow (row : StoreDocRow) (e : PuzzleStoreIndexEntry D) : StoreIndexRow D :=
  ⟨row.id, row.gameId, row.collection, e.key, e.value⟩

/-- What the index has of each document: the entries that its schema had for it. -/
structure Indexed (t : Tables D) (schemas : ℤ → JsonMap) : Prop where
  ids : (t.docs.map (·.id)).Nodup
  range : ∀ doc ∈ t.docs, inI64 doc.id = some doc.id
  entries : ∀ doc ∈ t.docs, ∃ es, indexEntries D doc.value (schemas doc.id) = .ok es ∧
    t.indexes.filter (fun i => i.docId = doc.id) = es.map (indexRow doc)
  owned : ∀ i ∈ t.indexes, ∃ doc ∈ t.docs, doc.id = i.docId

lemma foldlM_insertIndexRow {row : StoreDocRow} {es : List (PuzzleStoreIndexEntry D)}
    {rows rows' : List (StoreIndexRow D)}
    (h : es.foldlM (insertIndexRow row.id row.gameId row.collection) rows = .ok rows') :
    rows' = rows ++ es.map (indexRow row) := by
  induction es generalizing rows with
  | nil =>
    rw [List.foldlM_nil] at h
    rw [List.map_nil, List.append_nil, pure_eq_ok.mp h]
  | cons e es ih =>
    rw [List.foldlM_cons] at h
    obtain ⟨rows₁, hrows₁, h⟩ := bind_eq_ok.mp h
    rw [insertIndexRow] at hrows₁
    split_ifs at hrows₁
    cases hrows₁
    rw [ih h, List.append_assoc, List.map_cons]
    rfl

/-- A step of a statement that is only a check. -/
lemma check_eq_ok {α : Type} {c : Prop} [Decidable c] {message : String} {x : Except String α} {a : α}
    (h : (if c then throw message else x) = .ok a) : ¬ c ∧ x = .ok a := by
  split_ifs at h with hc
  exact ⟨hc, h⟩

/-- **What an insertion does**: a new document, and its entries in the index. -/
lemma storeInsert_ok {id now : ℤ} {gameId userId : Id} {scope : HostScope} {collection : String}
    {schema : JsonMap} {value : Value} {doc : PuzzleStoreDoc}
    (h : storeInsert t id now gameId userId scope collection schema value = .ok (doc, t')) :
    ∃ row es, row.id = id ∧ row.value = value ∧ inI64 id = some id ∧ (∀ d ∈ t.docs, d.id ≠ id) ∧
      indexEntries D value schema = .ok es ∧ t'.docs = t.docs ++ [row] ∧
      t'.indexes = t.indexes ++ es.map (indexRow row) := by
  rw [storeInsert] at h
  obtain ⟨_, -, h⟩ := bind_eq_ok.mp h
  obtain ⟨-, h⟩ := check_eq_ok h
  obtain ⟨es, hes, h⟩ := bind_eq_ok.mp h
  obtain ⟨at_, -, h⟩ := bind_eq_ok.mp h
  rw [insertStoreDocConn] at h
  obtain ⟨_, -, h⟩ := bind_eq_ok.mp h
  dsimp only at h
  obtain ⟨-, h⟩ := check_eq_ok h
  obtain ⟨hrange, h⟩ := check_eq_ok h
  obtain ⟨hfresh, h⟩ := check_eq_ok h
  obtain ⟨-, h⟩ := check_eq_ok h
  obtain ⟨rows, hrows, h⟩ := bind_eq_ok.mp h
  rw [pure_eq_ok, Prod.mk.injEq] at h
  obtain ⟨-, rfl⟩ := h
  refine ⟨⟨id, gameId, (parts at_).1, (parts at_).2.1, (parts at_).2.2, collection, some userId, value,
    now, now⟩, es, rfl, rfl, ?_, ?_, hes, rfl, ?_⟩
  · unfold inI64 at hrange ⊢
    split_ifs at hrange ⊢ with hle
    · rfl
    · exact absurd rfl hrange
  · intro d hd heq
    exact hfresh (List.any_eq_true.mpr ⟨d, hd, decide_eq_true heq⟩)
  · exact foldlM_insertIndexRow hrows

/-- Rows of the index are those of one document. -/
lemma docId_of_mem_map {row : StoreDocRow} {es : List (PuzzleStoreIndexEntry D)}
    {i : StoreIndexRow D} (h : i ∈ es.map (indexRow row)) : i.docId = row.id := by
  obtain ⟨e, -, rfl⟩ := List.mem_map.mp h
  rfl

lemma Indexed.insert (hi : Indexed t schemas) {row : StoreDocRow} {schema : JsonMap}
    {es : List (PuzzleStoreIndexEntry D)} (hrange : inI64 row.id = some row.id)
    (hfresh : ∀ doc ∈ t.docs, doc.id ≠ row.id) (hes : indexEntries D row.value schema = .ok es)
    (hdocs : t'.docs = t.docs ++ [row]) (hindexes : t'.indexes = t.indexes ++ es.map (indexRow row)) :
    Indexed t' (Function.update schemas row.id schema) := by
  have hmem : ∀ doc ∈ t'.docs, doc ∈ t.docs ∨ doc = row := by
    intro doc hdoc
    rwa [hdocs, List.mem_append, List.mem_singleton] at hdoc
  constructor
  · rw [hdocs, List.map_append, List.nodup_append]
    refine ⟨hi.ids, List.nodup_singleton _, ?_⟩
    rintro id hid _ hid' rfl
    obtain ⟨doc, hdoc, rfl⟩ := List.mem_map.mp hid
    exact hfresh doc hdoc (List.mem_singleton.mp hid')
  · intro doc hdoc
    obtain hdoc | rfl := hmem doc hdoc
    · exact hi.range doc hdoc
    · exact hrange
  · intro doc hdoc
    rw [hindexes, List.filter_append]
    obtain hdoc | rfl := hmem doc hdoc
    · -- an older document has nothing new
      obtain ⟨es', hes', hrows⟩ := hi.entries doc hdoc
      have hnew : (es.map (indexRow row)).filter (fun i => i.docId = doc.id) = [] := by
        refine List.filter_eq_nil_iff.mpr fun i hmem hid => ?_
        exact hfresh doc hdoc ((of_decide_eq_true hid).symm.trans (docId_of_mem_map hmem))
      rw [Function.update_of_ne (hfresh doc hdoc), hrows, hnew, List.append_nil]
      exact ⟨es', hes', rfl⟩
    · -- no row of the index was that of the new one
      have hold : t.indexes.filter (fun i => i.docId = doc.id) = [] := by
        refine List.filter_eq_nil_iff.mpr fun i hmem hid => ?_
        obtain ⟨doc', hdoc', hid'⟩ := hi.owned i hmem
        exact hfresh doc' hdoc' (hid'.trans (of_decide_eq_true hid))
      have hnew : (es.map (indexRow doc)).filter (fun i => i.docId = doc.id) =
          es.map (indexRow doc) :=
        List.filter_eq_self.mpr fun i hmem => decide_eq_true (docId_of_mem_map hmem)
      rw [Function.update_self, hold, hnew]
      exact ⟨es, hes, rfl⟩
  · intro i hmem
    rw [hindexes, List.mem_append] at hmem
    rw [hdocs]
    obtain hold | hnew := hmem
    · obtain ⟨doc, hdoc, hid⟩ := hi.owned i hold
      exact ⟨doc, List.mem_append_left _ hdoc, hid⟩
    · exact ⟨row, List.mem_append_right _ (List.mem_singleton_self _), (docId_of_mem_map hnew).symm⟩

lemma Indexed.delete (hi : Indexed t schemas) (gone : ℤ → Bool) :
    Indexed { t with docs := t.docs.filter fun doc => ¬ gone doc.id
                     indexes := t.indexes.filter fun i => ¬ gone i.docId } schemas := by
  constructor
  · exact hi.ids.sublist (List.filter_sublist.map _)
  · exact fun doc hdoc => hi.range doc (List.mem_of_mem_filter hdoc)
  · intro doc hdoc
    obtain ⟨hdoc, hstays⟩ := List.mem_filter.mp hdoc
    obtain ⟨es, hes, hrows⟩ := hi.entries doc hdoc
    refine ⟨es, hes, ?_⟩
    rw [← hrows, List.filter_filter]
    refine List.filter_congr fun i _ => ?_
    by_cases hid : i.docId = doc.id
    · simpa [hid] using hstays
    · simp [hid]
  · intro i hmem
    obtain ⟨hmem, hstays⟩ := List.mem_filter.mp hmem
    obtain ⟨doc, hdoc, hid⟩ := hi.owned i hmem
    exact ⟨doc, List.mem_filter.mpr ⟨hdoc, hid ▸ hstays⟩, hid⟩

lemma Indexed.others (hi : Indexed t schemas) (teams puzzles : Id → Option Id)
    (users : Id → Option String) (createdBy : StoreDocRow → Option Id) :
    Indexed { t with teams := teams, puzzles := puzzles, users := users
                     docs := t.docs.map fun doc => { doc with createdBy := createdBy doc } }
      schemas := by
  constructor
  · rw [List.map_map]
    exact hi.ids
  · intro doc hdoc
    obtain ⟨doc, hmem, rfl⟩ := List.mem_map.mp hdoc
    exact hi.range doc hmem
  · intro doc hdoc
    obtain ⟨doc, hmem, rfl⟩ := List.mem_map.mp hdoc
    exact hi.entries doc hmem
  · intro i hmem
    obtain ⟨doc, hdoc, hid⟩ := hi.owned i hmem
    exact ⟨_, List.mem_map.mpr ⟨doc, hdoc, rfl⟩, hid⟩

/-- **The index is that of the documents**, in whatever order they come and go. -/
theorem indexed_of_stored (h : Stored t schemas) : Indexed t schemas := by
  induction h with
  | empty => exact ⟨List.nodup_nil, nofun, nofun, nofun⟩
  | insert _ hinsert hi =>
    obtain ⟨row, es, rfl, rfl, hrange, hfresh, hes, hdocs, hindexes⟩ := storeInsert_ok hinsert
    exact hi.insert hrange hfresh hes hdocs hindexes
  | delete gone _ hi => exact hi.delete gone
  | others teams puzzles users createdBy _ hi => exact hi.others teams puzzles users createdBy

/-- The field of the document at the filter's path equals the filter's value, both with the type
declared. -/
def FieldEq (D : Floats) (schema : JsonMap) (value : Value) (e : PuzzleStoreIndexEntry D) : Prop :=
  ∃ kind field v, (schema.entries.lookup e.key).bind Value.asStr = some kind ∧
    valuePath value e.key = some field ∧ typedValue D fieldMessages kind field = .ok v ∧
    v.eq e.value = true

/-- **A document matches a filter** when its field does. -/
theorem hasIndexed_iff (hi : Indexed t schemas) {doc : StoreDocRow} (hdoc : doc ∈ t.docs)
    {e : PuzzleStoreIndexEntry D} :
    HasIndexed t doc e ↔ FieldEq D (schemas doc.id) doc.value e := by
  obtain ⟨es, hes, hrows⟩ := hi.entries doc hdoc
  have hmem : ∀ i, (i ∈ t.indexes ∧ i.docId = doc.id) ↔ ∃ e ∈ es, indexRow doc e = i := by
    intro i
    rw [← List.mem_map, ← hrows, List.mem_filter, decide_eq_true_eq]
  constructor
  · rintro ⟨i, hmem', ⟨hid, -, -⟩, hkey, heq⟩
    obtain ⟨e', he', rfl⟩ := (hmem i).mp ⟨hmem', hid⟩
    obtain ⟨⟨key, kindValue⟩, hindex, hkey', kind, field, hkind, hfield, htyped⟩ :=
      (mem_indexEntries hes).mp he'
    obtain rfl : e'.key = key := hkey'
    have hlookup := Games.lookup_of_mem (schemas doc.id).nodup hindex
    refine ⟨kind, field, e'.value, ?_, ?_, htyped, heq⟩
    · rw [← hkey]
      exact hlookup ▸ hkind
    · rw [← hkey]
      exact hfield
  · rintro ⟨kind, field, v, hkind, hfield, htyped, heq⟩
    obtain ⟨kindValue, hlookup, hkind⟩ := Option.bind_eq_some_iff.mp hkind
    have he' : ⟨e.key, v⟩ ∈ es := (mem_indexEntries hes).mpr
      ⟨(e.key, kindValue), Games.mem_of_lookup hlookup, rfl, kind, field, hkind, hfield, htyped⟩
    obtain ⟨hmem', hid⟩ := (hmem _).mpr ⟨_, he', rfl⟩
    exact ⟨_, hmem', ⟨hid, rfl, rfl⟩, rfl, heq⟩

end Index

/-! ## Following the ids -/

section Follow

variable (t : Tables D) (gameId : Id) (scope : HostScope) (collection : String)
  (schema where_ : JsonMap)

/-- What a call checks before it reads, whatever its cursor is: the scope and the filters. -/
def prepare : Except String (BackendScope × List (PuzzleStoreIndexEntry D)) := do
  validateStoreName collection collectionMessage
  let filters ← where_.entries.mapM (filterEntry D schema)
  let at_ ← hostScope scope
  requireScopeInGame t gameId at_
  if ¬ (filters.foldl PuzzleStoreEqFilters.push PuzzleStoreEqFilters.empty).text.all
      (fun e => noNul e.2) then
    throw "invalid byte sequence for encoding UTF8: 0x00"
  return (at_, filters)

/-- The rows that are listed, in their order. -/
def listed (at_ : BackendScope) (filters : List (PuzzleStoreIndexEntry D)) (descending : Bool) :
    List StoreDocRow :=
  let rows := t.docs.filter fun doc => inCollection gameId at_ collection doc ∧
    meetsFilters t (filters.foldl PuzzleStoreEqFilters.push PuzzleStoreEqFilters.empty) doc
  if descending then Paging.Merge.descending (·.id) rows else Paging.Merge.ascending (·.id) rows

/-- A row as it is returned. -/
def view (row : StoreDocRow) : PuzzleStoreDoc :=
  storeDocFromRow row (row.createdBy.bind t.users)

variable {t gameId scope collection schema where_} {schemas : ℤ → JsonMap}

instance (descending : Bool) : IsStrictOrder ℤ (comesAfter descending) where
  irrefl a h := by
    unfold comesAfter at h
    split_ifs at h <;> omega
  trans a b c hab hbc := by
    unfold comesAfter at hab hbc ⊢
    split_ifs at hab hbc ⊢ <;> omega

/-- Rows in the order of a list. -/
lemma pairwise_sorted {rows : List StoreDocRow} (hids : (rows.map (·.id)).Nodup) (descending : Bool) :
    (if descending then Paging.Merge.descending (·.id) rows
      else Paging.Merge.ascending (·.id) rows).Pairwise fun a b =>
        comesAfter descending a.id b.id := by
  cases descending with
  | false =>
    exact (Paging.Merge.pairwise_ascending hids).imp fun h => h
  | true =>
    rw [if_pos rfl, Paging.Merge.descending_eq_reverse hids, List.pairwise_reverse]
    exact (Paging.Merge.pairwise_ascending hids).imp fun h => h

/-- What is sorted and then filtered is what is filtered and then sorted. -/
lemma sorted_filter {rows : List StoreDocRow} (hids : (rows.map (·.id)).Nodup) (descending : Bool)
    (p : StoreDocRow → Bool) :
    (if descending then Paging.Merge.descending (·.id) (rows.filter p)
      else Paging.Merge.ascending (·.id) (rows.filter p)) =
      (if descending then Paging.Merge.descending (·.id) rows
        else Paging.Merge.ascending (·.id) rows).filter p := by
  have hpart : ((rows.filter p).map (·.id)).Nodup := hids.sublist (List.filter_sublist.map _)
  cases descending with
  | false => exact Paging.Merge.ascending_filter p hids
  | true =>
    rw [if_pos rfl, if_pos rfl, Paging.Merge.descending_eq_reverse hpart,
      Paging.Merge.descending_eq_reverse hids, Paging.Merge.ascending_filter p hids,
      List.filter_reverse]

lemma clampLimit_clampLimit (limit : ℤ) : clampLimit (clampLimit limit) = clampLimit limit := by
  unfold clampLimit
  omega

/-- The rows of a page are the first of those listed that come after the cursor. -/
lemma take_sorted (hids : (t.docs.map (·.id)).Nodup) (at_ : BackendScope)
    (filters : List (PuzzleStoreIndexEntry D)) (cursor : Option ℤ) (n : ℕ) (descending : Bool) :
    ((if descending then Paging.Merge.descending (·.id) (t.docs.filter fun doc =>
        inCollection gameId at_ collection doc ∧
          (cursor.all fun cursor => comesAfter descending cursor doc.id) ∧
          meetsFilters t (filters.foldl PuzzleStoreEqFilters.push PuzzleStoreEqFilters.empty) doc)
      else Paging.Merge.ascending (·.id) (t.docs.filter fun doc =>
        inCollection gameId at_ collection doc ∧
          (cursor.all fun cursor => comesAfter descending cursor doc.id) ∧
          meetsFilters t (filters.foldl PuzzleStoreEqFilters.push PuzzleStoreEqFilters.empty)
            doc)).take n).map (view t) =
      Paging.Keyset.pageAfter (comesAfter descending) (·.id) n
        ((listed t gameId collection at_ filters descending).map (view t)) cursor := by
  set meets := fun doc : StoreDocRow => decide (inCollection gameId at_ collection doc ∧
    meetsFilters t (filters.foldl PuzzleStoreEqFilters.push PuzzleStoreEqFilters.empty) doc)
    with hmeets
  have hrows : (t.docs.filter fun doc => inCollection gameId at_ collection doc ∧
      (cursor.all fun cursor => comesAfter descending cursor doc.id) ∧
      meetsFilters t (filters.foldl PuzzleStoreEqFilters.push PuzzleStoreEqFilters.empty) doc) =
      (t.docs.filter meets).filter fun doc =>
        cursor.all fun cursor => comesAfter descending cursor doc.id := by
    rw [List.filter_filter]
    refine List.filter_congr fun doc _ => ?_
    rw [Bool.eq_iff_iff, Bool.and_eq_true, decide_eq_true_eq, hmeets, decide_eq_true_eq]
    tauto
  rw [hrows, sorted_filter (hids.sublist (List.filter_sublist.map _)), Paging.Keyset.pageAfter,
    Paging.Keyset.after, List.filter_map, List.map_take]
  rfl

/-- A call is refused whatever its cursor is, or gives a page of the rows that are listed. -/
lemma storeList_eq (hids : (t.docs.map (·.id)).Nodup) (limit : Option ℤ) (cursor : Option Value)
    (order : Option String) :
    storeList t gameId scope collection schema ⟨where_, limit, cursor, order⟩ =
      (prepare t gameId scope collection schema where_).map fun p =>
        Paging.Keyset.pageAfter (comesAfter (order ≠ some "asc")) (·.id)
          (clampLimit (limit.getD 50)).toNat
          ((listed t gameId collection p.1 p.2 (order ≠ some "asc")).map (view t))
          (cursor.bind readCursor) := by
  rw [storeList, prepare, storeListOptions]
  cases validateStoreName collection collectionMessage with
  | error e => rfl
  | ok =>
    cases where_.entries.mapM (filterEntry D schema) with
    | error e => rfl
    | ok filters =>
      cases hostScope scope with
      | error e => rfl
      | ok at_ =>
        have hpage := @take_sorted D t gameId collection hids at_ filters
          (cursor.bind readCursor) (clampLimit (limit.getD 50)).toNat (order ≠ some "asc")
        change listStoreDocsConn t gameId at_ collection
          ⟨filters.foldl PuzzleStoreEqFilters.push PuzzleStoreEqFilters.empty,
            cursor.bind readCursor, clampLimit (limit.getD 50), order ≠ some "asc"⟩ =
          Except.map _ (do
            requireScopeInGame t gameId at_
            if ¬ (filters.foldl PuzzleStoreEqFilters.push PuzzleStoreEqFilters.empty).text.all
                (fun e => noNul e.2) then
              throw "invalid byte sequence for encoding UTF8: 0x00"
            return (at_, filters))
        rw [listStoreDocsConn, clampLimit_clampLimit]
        cases requireScopeInGame t gameId at_ with
        | error e => rfl
        | ok =>
          dsimp only
          by_cases htext : (filters.foldl PuzzleStoreEqFilters.push
              PuzzleStoreEqFilters.empty).text.all (fun e => noNul e.2) = true
          · rw [if_neg (not_not_intro htext), if_neg (not_not_intro htext)]
            exact congrArg Except.ok hpage
          · rw [if_pos htext, if_pos htext]
            rfl

/-- What a call that is not refused has been given. -/
lemma prepare_ok {at_ : BackendScope} {filters : List (PuzzleStoreIndexEntry D)}
    (h : prepare t gameId scope collection schema where_ = .ok (at_, filters)) :
    hostScope scope = .ok at_ ∧ List.Forall₂ (FilterOf D schema) where_.entries filters := by
  rw [prepare] at h
  obtain ⟨_, -, h⟩ := bind_eq_ok.mp h
  obtain ⟨filters', hfilters, h⟩ := bind_eq_ok.mp h
  obtain ⟨at', hat, h⟩ := bind_eq_ok.mp h
  obtain ⟨_, -, h⟩ := bind_eq_ok.mp h
  obtain ⟨-, h⟩ := check_eq_ok h
  obtain ⟨rfl, rfl⟩ := Prod.mk.inj (pure_eq_ok.mp h)
  exact ⟨hat, (forall₂_of_mapM hfilters).imp fun _ _ h => filterOf_of_ok h⟩

lemma map_key_eq {entries : Games.Fields} {filters : List (PuzzleStoreIndexEntry D)}
    (h : List.Forall₂ (FilterOf D schema) entries filters) :
    filters.map (·.key) = entries.map (·.1) := by
  induction h with
  | nil => rfl
  | cons hof _ ih => rw [List.map_cons, List.map_cons, ih, hof.key]

/-- The keys of filters differ. -/
lemma nodup_keys {filters : List (PuzzleStoreIndexEntry D)}
    (h : List.Forall₂ (FilterOf D schema) where_.entries filters) :
    (filters.map (·.key)).Nodup := by
  rw [map_key_eq h]
  exact where_.nodup

lemma mem_listed {at_ : BackendScope} {filters : List (PuzzleStoreIndexEntry D)}
    (hnodup : (filters.map (·.key)).Nodup) (descending : Bool) {row : StoreDocRow} :
    row ∈ listed t gameId collection at_ filters descending ↔
      row ∈ t.docs ∧ inCollection gameId at_ collection row = true ∧
        ∀ e ∈ filters, HasIndexed t row e := by
  have hperm : (listed t gameId collection at_ filters descending).Perm
      (t.docs.filter fun doc => inCollection gameId at_ collection doc ∧
        meetsFilters t (filters.foldl PuzzleStoreEqFilters.push PuzzleStoreEqFilters.empty)
          doc) := by
    cases descending with
    | false => exact Paging.Merge.perm_ascending
    | true => exact Paging.Merge.perm_descending
  rw [hperm.mem_iff, List.mem_filter, decide_eq_true_eq, meetsFilters_iff hnodup]

/-- A call with the id of a document as its cursor, or with none. -/
def Reads (t : Tables D) (gameId : Id) (scope : HostScope) (collection : String)
    (schema where_ : JsonMap) (limit : Option ℤ) (order : Option String) (cursor : Option ℤ)
    (page : List PuzzleStoreDoc) : Prop :=
  storeList t gameId scope collection schema ⟨where_, limit, cursor.map Value.int, order⟩ = .ok page

lemma serves_of_prepare (hi : Indexed t schemas) {at_ : BackendScope}
    {filters : List (PuzzleStoreIndexEntry D)}
    (h : prepare t gameId scope collection schema where_ = .ok (at_, filters)) (limit : Option ℤ)
    (order : Option String) :
    Paging.Keyset.Serves (comesAfter (order ≠ some "asc")) (·.id)
      (clampLimit (limit.getD 50)).toNat
      ((listed t gameId collection at_ filters (order ≠ some "asc")).map (view t))
      (Reads t gameId scope collection schema where_ limit order) := by
  intro cursor hcursor page
  have hread : (cursor.map Value.int).bind readCursor = cursor := by
    cases cursor with
    | none => rfl
    | some k =>
      obtain ⟨item, hitem, rfl⟩ := hcursor k rfl
      obtain ⟨row, hrow, rfl⟩ := List.mem_map.mp hitem
      have hmem := (mem_listed (nodup_keys (prepare_ok h).2) _).mp hrow
      exact hi.range row hmem.1
  rw [Reads, storeList_eq hi.ids, h, hread]
  exact ⟨fun heq => (Except.ok.inj heq).symm, fun heq => congrArg Except.ok heq.symm⟩

lemma pairwise_listed (hids : (t.docs.map (·.id)).Nodup) (at_ : BackendScope)
    (filters : List (PuzzleStoreIndexEntry D)) (descending : Bool) :
    ((listed t gameId collection at_ filters descending).map (view t)).Pairwise fun a b =>
      comesAfter descending a.id b.id := by
  rw [List.pairwise_map]
  exact pairwise_sorted (hids.sublist (List.filter_sublist.map _)) descending

/-- Either every call is refused with one error, or the reader who goes on from the last id comes to
an end and has got each document of the scope and collection whose indexed fields have the values of
the filters, once, in the order of their ids. For a document inserted under this schema the indexed
field has a filter's value if and only if the field of the document has. -/
def Follows (t : Tables D) (schemas : ℤ → JsonMap) (gameId : Id) (scope : HostScope)
    (collection : String) (schema where_ : JsonMap) (limit : Option ℤ) (order : Option String) :
    Prop :=
  (∃ e, ∀ cursor,
    storeList t gameId scope collection schema ⟨where_, limit, cursor, order⟩ = .error e) ∨
  ∃ at_ filters, hostScope scope = .ok at_ ∧
    List.Forall₂ (FilterOf D schema) where_.entries filters ∧
    (∀ stop : List PuzzleStoreDoc → Prop, stop [] →
      (∀ page, stop page → page.length < (clampLimit (limit.getD 50)).toNat) →
      (∃ pages, Paging.Keyset.Walk (·.id) stop
        (Reads t gameId scope collection schema where_ limit order) none pages) ∧
      ∀ pages, Paging.Keyset.Walk (·.id) stop
          (Reads t gameId scope collection schema where_ limit order) none pages →
        pages.flatten.Pairwise (fun a b => comesAfter (order ≠ some "asc") a.id b.id) ∧
        ∀ doc, doc ∈ pages.flatten ↔ ∃ row ∈ t.docs, view t row = doc ∧
          inCollection gameId at_ collection row = true ∧ ∀ e ∈ filters, HasIndexed t row e) ∧
    ∀ row ∈ t.docs, schemas row.id = schema → ∀ e ∈ filters,
      (HasIndexed t row e ↔ FieldEq D schema row.value e)

end Follow

/-- Whole numbers. -/
def wholeNumbers : Floats where
  F := ℤ
  asF64 := Sum.elim some fun _ => none
  isFinite := fun _ => true
  eq := fun x y => x = y

def scoresSchema : JsonMap :=
  ⟨[("name", .string "string"), ("score", .string "number")], by decide⟩

/-- A document without a score. -/
def scoresTables : Tables wholeNumbers where
  teams := fun _ => none
  puzzles := fun _ => none
  users := fun _ => some "ann"
  docs := [⟨1, 7, 0, none, none, "scores", some 4, .object [("name", .string "x")], 0, 0⟩]
  indexes := [⟨1, 7, "scores", "name", .text "x"⟩]

lemma storeInsert_scores :
    storeInsert ⟨fun _ => none, fun _ => none, fun _ => some "ann", [], []⟩ 1 0 7 4 .global "scores"
      scoresSchema (.object [("name", .string "x")]) =
        .ok (⟨1, .global, "scores", some (4, "ann"), .object [("name", .string "x")], 0, 0⟩,
          scoresTables) := rfl

end Backend.Store
