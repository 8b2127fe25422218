import Mathlib.Data.List.Nodup
import RbphBackend.Games.Settings

set_option relaxedAutoImplicit false
set_option autoImplicit false

/-!
# Merging a patch of the settings

A patch names the settings it changes by the paths to them. A null takes a setting away, but for the
one that may be null, where the stored settings have an object for it to be taken from; where they
have none, the patch is stored as it is, with its nulls.

## Main definitions

* `Games.SettingsPatch` — the patches that are accepted.
* `Games.NullsMeetObjects` — every null of a patch stands where the settings have an object.
* `Games.MergeLaws` — merging once is enough, and what it does to the settings.

## Main results

* `Games.get_mergeSettingsPatchAt` — what is at a key after merging.
* `Games.mergeSettingsPatchAt_again` — merging twice is merging once, where nulls meet objects.
-/

namespace Games

open Value

/-! ## Objects -/

/-- Induction on a value: an object is made of the values of its fields. -/
@[elab_as_elim]
theorem Value.induction {motive : Value → Prop}
    (leaf : ∀ value, value.isObject = false → motive value)
    (object : ∀ fields : Fields, (∀ p ∈ fields, motive p.2) → motive (.object fields))
    (value : Value) : motive value := by
  refine @Value.rec motive (fun _ => True) (fun fields => ∀ p ∈ fields, motive p.2)
    (fun p => motive p.2) (leaf _ rfl) (fun b => leaf (.bool b) rfl) (fun n => leaf (.int n) rfl)
    (fun text => leaf (.float text) rfl) (fun s => leaf (.string s) rfl)
    (fun items _ => leaf (.array items) rfl) object trivial (fun _ _ _ _ => trivial) ?_ ?_
    (fun _ _ h => h) value
  · intro p hp
    cases hp
  · intro p fields hhead htail q hq
    rcases List.mem_cons.1 hq with rfl | hq
    · exact hhead
    · exact htail q hq

mutual

/-- No object has a key twice, as no `Map` has. -/
def Value.Distinct : Value → Prop
  | .array items => DistinctItems items
  | .object fields => (fields.map Prod.fst).Nodup ∧ DistinctFields fields
  | _ => True

/-- The same of the items of an array. -/
def DistinctItems : List Value → Prop
  | [] => True
  | item :: items => item.Distinct ∧ DistinctItems items

/-- The same of the values of an object. -/
def DistinctFields : Fields → Prop
  | [] => True
  | (_, value) :: fields => value.Distinct ∧ DistinctFields fields

end

lemma DistinctFields.mem {fields : Fields} (h : DistinctFields fields) {p : String × Value}
    (hp : p ∈ fields) : p.2.Distinct := by
  induction fields with
  | nil => cases hp
  | cons q fields ih =>
    obtain ⟨hhead, htail⟩ := h
    rcases List.mem_cons.1 hp with rfl | hp
    · exact hhead
    · exact ih htail hp

/-- A key that no field has is not found. -/
lemma lookup_eq_none_of_notMem {fields : Fields} {key : String}
    (h : key ∉ fields.map Prod.fst) : fields.lookup key = none := by
  rw [List.lookup_eq_none_iff]
  intro p hp
  have hne : key ≠ p.1 := fun heq => h (heq ▸ List.mem_map_of_mem hp)
  simpa using hne

/-- Of distinct keys each has the one value it stands with. -/
lemma lookup_of_mem {fields : Fields} (h : (fields.map Prod.fst).Nodup) {p : String × Value}
    (hp : p ∈ fields) : fields.lookup p.1 = some p.2 := by
  induction fields with
  | nil => cases hp
  | cons q fields ih =>
    rw [List.map_cons, List.nodup_cons] at h
    rcases List.mem_cons.1 hp with rfl | hp
    · exact List.lookup_cons_self
    · have hne : p.1 ≠ q.1 := fun heq => h.1 (heq ▸ List.mem_map_of_mem hp)
      rw [List.lookup_cons, beq_false_of_ne hne]
      exact ih h.2 hp

lemma mem_of_lookup {fields : Fields} {key : String} {value : Value}
    (h : fields.lookup key = some value) : (key, value) ∈ fields := by
  obtain ⟨l₁, l₂, rfl, _⟩ := List.lookup_eq_some_iff.1 h
  exact List.mem_append_right _ List.mem_cons_self

lemma lookup_removeKey (key key' : String) (fields : Fields) :
    (removeKey key fields).lookup key' = if key' = key then none else fields.lookup key' := by
  induction fields with
  | nil => simp [removeKey]
  | cons p fields ih =>
    obtain ⟨k, v⟩ := p
    rw [removeKey] at ih ⊢
    by_cases hk : k = key
    · rw [List.filter_cons_of_neg (by simp [hk]), ih, hk]
      by_cases hkey : key' = key
      · rw [if_pos hkey, if_pos hkey]
      · rw [if_neg hkey, if_neg hkey, List.lookup_cons, beq_false_of_ne hkey]
    · rw [List.filter_cons_of_pos (by simpa using hk), List.lookup_cons, List.lookup_cons, ih]
      by_cases hkey : key' = key
      · have hne : key' ≠ k := fun h => hk (h.symm.trans hkey)
        rw [beq_false_of_ne hne, if_pos hkey]
      · rw [if_neg hkey, if_neg hkey]

lemma lookup_insertKey (key key' : String) (value : Value) (fields : Fields) :
    (insertKey key value fields).lookup key' =
      if key' = key then some value else fields.lookup key' := by
  rw [insertKey, List.lookup_append, lookup_removeKey]
  by_cases h : key' = key
  · rw [if_pos h, if_pos h, h]
    simp
  · rw [if_neg h, if_neg h]
    simp [List.lookup_cons, beq_false_of_ne h]

/-! ## What a patch does to a key -/

/-- The value takes the setting at the path away. -/
def takesAway (value : Value) (path : List String) : Bool :=
  value.isNull && !isNullableSetting path

lemma takesAway_iff {value : Value} {path : List String} :
    takesAway value path = true ↔ value = .null ∧ path ≠ ["team", "max_members"] := by
  cases value <;> simp [takesAway, isNull, isNullableSetting]

/-- The value at a key, or null. -/
def getD (fields : Fields) (key : String) : Value := (fields.lookup key).getD .null

/-- What one key of a patch makes of the fields. -/
def setField (base : Fields) (key : String) (value : Value) (path : List String) : Fields :=
  if takesAway value (path ++ [key]) then removeKey key base
  else insertKey key (mergeSettingsPatchAt (getD base key) value (path ++ [key]))
    (removeKey key base)

lemma mergeSettingsFields_cons (base patch : Fields) (key : String) (value : Value)
    (path : List String) : mergeSettingsFields base ((key, value) :: patch) path =
      mergeSettingsFields (setField base key value path) patch path := by
  rw [mergeSettingsFields]
  rfl

lemma lookup_setField (base : Fields) (key key' : String) (value : Value) (path : List String) :
    (setField base key value path).lookup key' =
      if key' = key then
        if takesAway value (path ++ [key]) then none
        else some (mergeSettingsPatchAt (getD base key) value (path ++ [key]))
      else base.lookup key' := by
  rw [setField]
  split
  · rw [lookup_removeKey]
  · rw [lookup_insertKey, lookup_removeKey]
    by_cases hkey : key' = key
    · rw [if_pos hkey, if_pos hkey]
    · rw [if_neg hkey, if_neg hkey, if_neg hkey]

/-- What is at a key that the patch does not name stays; at one it names is what the value makes of
what was there. -/
lemma lookup_mergeSettingsFields {base patch : Fields} {path : List String}
    (h : (patch.map Prod.fst).Nodup) (key : String) :
    (mergeSettingsFields base patch path).lookup key =
      match patch.lookup key with
      | none => base.lookup key
      | some value =>
        if takesAway value (path ++ [key]) then none
        else some (mergeSettingsPatchAt (getD base key) value (path ++ [key])) := by
  induction patch generalizing base with
  | nil => simp [mergeSettingsFields]
  | cons p patch ih =>
    obtain ⟨k, v⟩ := p
    rw [List.map_cons, List.nodup_cons] at h
    rw [mergeSettingsFields_cons, ih h.2]
    by_cases hkey : key = k
    · subst hkey
      rw [lookup_eq_none_of_notMem h.1, List.lookup_cons_self, lookup_setField, if_pos rfl]
    · have hstep : (setField base k v path).lookup key = base.lookup key := by
        rw [lookup_setField, if_neg hkey]
      rw [List.lookup_cons, beq_false_of_ne hkey, getD, hstep]
      rfl

/-- A field of a patch, as it is stored. -/
def mergedEntry (base : Fields) (path : List String) (p : String × Value) :
    Option (String × Value) :=
  if takesAway p.2 (path ++ [p.1]) then none
  else some (p.1, mergeSettingsPatchAt (getD base p.1) p.2 (path ++ [p.1]))

lemma removeKey_removeKey (key : String) (fields : Fields) :
    removeKey key (removeKey key fields) = removeKey key fields := by
  rw [removeKey, removeKey, List.filter_filter]
  refine List.filter_congr ?_
  intro p _
  exact Bool.and_self _

/-- The fields that a patch does not name. -/
def unnamed (patch base : Fields) : Fields := base.filter fun p => (patch.lookup p.1).isNone

lemma unnamed_cons (key : String) (value : Value) (patch base : Fields) :
    unnamed ((key, value) :: patch) base = unnamed patch (removeKey key base) := by
  rw [unnamed, unnamed, removeKey, List.filter_filter]
  refine List.filter_congr ?_
  intro p _
  by_cases hk : p.1 = key
  · simp [hk]
  · simp [List.lookup_cons, beq_false_of_ne hk, hk]

/-- The fields that a patch does not name stay, before those that it sets. -/
lemma mergeSettingsFields_eq {base patch : Fields} {path : List String}
    (h : (patch.map Prod.fst).Nodup) : mergeSettingsFields base patch path =
      unnamed patch base ++ patch.filterMap (mergedEntry base path) := by
  induction patch generalizing base with
  | nil => simp [mergeSettingsFields, unnamed]
  | cons p patch ih =>
    obtain ⟨k, v⟩ := p
    rw [List.map_cons, List.nodup_cons] at h
    have hnone : patch.lookup k = none := lookup_eq_none_of_notMem h.1
    have hrest : patch.filterMap (mergedEntry (setField base k v path) path) =
        patch.filterMap (mergedEntry base path) := by
      refine List.filterMap_congr ?_
      intro q hq
      have hne : q.1 ≠ k := by
        intro heq
        have hmem := List.mem_map_of_mem (f := Prod.fst) hq
        rw [heq] at hmem
        exact h.1 hmem
      rw [mergedEntry, mergedEntry, getD, lookup_setField, if_neg hne]
      rfl
    rw [mergeSettingsFields_cons, ih h.2, hrest, unnamed_cons]
    by_cases htakes : takesAway v (path ++ [k]) = true
    · have hentry : mergedEntry base path (k, v) = none := if_pos htakes
      rw [setField, if_pos htakes, List.filterMap_cons_none hentry]
    · have hentry : mergedEntry base path (k, v) =
          some (k, mergeSettingsPatchAt (getD base k) v (path ++ [k])) := if_neg htakes
      rw [setField, if_neg htakes, List.filterMap_cons_some hentry, insertKey,
        removeKey_removeKey, unnamed, List.filter_append, unnamed, List.append_assoc]
      congr 1
      simp [hnone]

/-! ## Values at paths -/

lemma mergeSettingsPatchAt_leaf (base : Value) {value : Value} (h : value.isObject = false)
    (path : List String) : mergeSettingsPatchAt base value path = value := by
  cases value with
  | object fields => cases h
  | _ => simp [mergeSettingsPatchAt]

lemma mergeSettingsPatchAt_of_leaf {base : Value} (h : base.isObject = false) (patch : Value)
    (path : List String) : mergeSettingsPatchAt base patch path = patch := by
  cases patch with
  | object fields =>
    cases base with
    | object base => cases h
    | _ => simp [mergeSettingsPatchAt]
  | _ => simp [mergeSettingsPatchAt]

lemma mergeSettingsPatchAt_object (base patch : Fields) (path : List String) :
    mergeSettingsPatchAt (.object base) (.object patch) path =
      .object (mergeSettingsFields base patch path) := by
  rw [mergeSettingsPatchAt]

lemma isObject_iff {value : Value} : value.isObject = true ↔ ∃ fields, value = .object fields := by
  cases value <;> simp [isObject]

lemma atPath_append (value : Value) (path path' : List String) :
    value.atPath (path ++ path') = (value.atPath path).bind fun value => value.atPath path' := by
  induction path generalizing value with
  | nil => rfl
  | cons key path ih =>
    rw [List.cons_append, atPath, atPath]
    cases value.get key with
    | none => rfl
    | some value => exact ih value

/-- There is nothing below a value that is not an object. -/
lemma atPath_cons_of_leaf {value : Value} (h : value.isObject = false) (key : String)
    (path : List String) : value.atPath (key :: path) = none := by
  cases value with
  | object fields => cases h
  | _ => rfl

lemma atPath_object (fields : Fields) (key : String) (path : List String) :
    (Value.object fields).atPath (key :: path) =
      (fields.lookup key).bind fun value => value.atPath path := rfl

/-- What is below a value is in a field of it. -/
lemma exists_field {value value' : Value} {key : String} {path : List String}
    (h : value.atPath (key :: path) = some value') : ∃ fields child, value = .object fields ∧
      fields.lookup key = some child ∧ child.atPath path = some value' := by
  cases value with
  | object fields =>
    obtain ⟨child, hchild, hpath⟩ := Option.bind_eq_some_iff.1 h
    exact ⟨fields, child, rfl, hchild, hpath⟩
  | _ => cases h

lemma atPath_getD {fields : Fields} {key key' : String} {path : List String} :
    (getD fields key).atPath (key' :: path) = (Value.object fields).atPath (key :: key' :: path) := by
  rw [atPath_object, getD]
  cases fields.lookup key with
  | none => rfl
  | some child => rfl

/-- What is at a key after merging: what was there, nothing, or what the patch made of it. -/
theorem get_mergeSettingsPatchAt {base patch : Fields} (path : List String)
    (h : (Value.object patch).Distinct) (key : String) :
    (mergeSettingsPatchAt (.object base) (.object patch) path).get key =
      match patch.lookup key with
      | none => base.lookup key
      | some value =>
        if takesAway value (path ++ [key]) then none
        else some (mergeSettingsPatchAt (getD base key) value (path ++ [key])) := by
  rw [mergeSettingsPatchAt_object]
  exact lookup_mergeSettingsFields h.1 key

lemma Distinct.field {fields : Fields} (h : (Value.object fields).Distinct) {key : String}
    {child : Value} (hchild : fields.lookup key = some child) : child.Distinct :=
  h.2.mem (mem_of_lookup hchild)

/-- A patch makes what it says of a value below a key that it keeps. -/
lemma atPath_mergeSettingsPatchAt {base patch : Fields} {child : Value} {path : List String}
    (h : (Value.object patch).Distinct) {key : String} (hchild : patch.lookup key = some child)
    (hkeeps : takesAway child (path ++ [key]) = false) (rest : List String) :
    (mergeSettingsPatchAt (.object base) (.object patch) path).atPath (key :: rest) =
      (mergeSettingsPatchAt (getD base key) child (path ++ [key])).atPath rest := by
  rw [atPath, get_mergeSettingsPatchAt path h key, hchild]
  change (if takesAway child (path ++ [key]) = true then none else some _).bind _ = _
  rw [if_neg (by rw [hkeeps]; decide)]
  rfl

/-- A patch with something below it takes nothing away. -/
lemma takesAway_of_atPath {child value : Value} {path : List String}
    (h : child.atPath path = some value) (hvalue : path = [] → value ≠ .null) (keys : List String) :
    takesAway child keys = false := by
  rw [← Bool.not_eq_true, takesAway_iff]
  rintro ⟨rfl, -⟩
  cases path with
  | nil =>
    cases h
    exact hvalue rfl rfl
  | cons key path => cases h

/-- A leaf of the patch is set, a null only where it may be. -/
lemma atPath_set {base patch value : Value} {rest path : List String} (h : patch.Distinct)
    (hvalue : patch.atPath path = some value) (hleaf : value.isObject = false)
    (hnull : value = .null → rest ++ path = ["team", "max_members"]) :
    (mergeSettingsPatchAt base patch rest).atPath path = some value := by
  induction path generalizing base patch rest with
  | nil =>
    cases hvalue
    rw [mergeSettingsPatchAt_leaf base hleaf]
    rfl
  | cons key path ih =>
    cases hbase : base.isObject with
    | false => rwa [mergeSettingsPatchAt_of_leaf hbase]
    | true =>
      obtain ⟨fields, rfl⟩ := isObject_iff.1 hbase
      obtain ⟨patch, child, rfl, hchild, hpath⟩ := exists_field hvalue
      have hkeeps : takesAway child (rest ++ [key]) = false := by
        rw [← Bool.not_eq_true, takesAway_iff]
        rintro ⟨rfl, hne⟩
        cases path with
        | nil =>
          cases hpath
          exact hne (hnull rfl)
        | cons key' path => cases hpath
      rw [atPath_mergeSettingsPatchAt h hchild hkeeps]
      refine ih (Distinct.field h hchild) hpath ?_
      intro hv
      rw [List.append_assoc]
      exact hnull hv

/-- What the patch does not name stays. -/
lemma atPath_kept {base patch : Value} {fields : Fields} {rest path : List String} {key : String}
    (h : patch.Distinct) (hpatch : patch.atPath path = some (.object fields))
    (hkey : fields.lookup key = none) (below : List String) :
    (mergeSettingsPatchAt base patch rest).atPath (path ++ key :: below) =
      base.atPath (path ++ key :: below) := by
  induction path generalizing base patch rest with
  | nil =>
    cases hpatch
    cases hbase : base.isObject with
    | false =>
      rw [mergeSettingsPatchAt_of_leaf hbase, List.nil_append, atPath_cons_of_leaf hbase,
        atPath_object, hkey]
      rfl
    | true =>
      obtain ⟨base, rfl⟩ := isObject_iff.1 hbase
      rw [List.nil_append, atPath, get_mergeSettingsPatchAt rest h key, hkey]
      rfl
  | cons k path ih =>
    rw [List.cons_append]
    cases hbase : base.isObject with
    | false =>
      rw [mergeSettingsPatchAt_of_leaf hbase, atPath_cons_of_leaf hbase, ← List.cons_append,
        atPath_append, hpatch, Option.bind_some, atPath_object, hkey]
      rfl
    | true =>
      obtain ⟨base, rfl⟩ := isObject_iff.1 hbase
      obtain ⟨patch, child, rfl, hchild, hpath⟩ := exists_field hpatch
      have hkeeps := takesAway_of_atPath hpath (fun _ => Value.noConfusion) (rest ++ [k])
      rw [atPath_mergeSettingsPatchAt h hchild hkeeps, ih (Distinct.field h hchild) hpath]
      cases path with
      | nil => exact atPath_getD
      | cons k' path => exact atPath_getD

/-! ## Nulls -/

/-- Every null of the patch, but for the setting that may be null, stands at a key of an object
that the value has there too. The patch and the value are at the path. -/
def NullsMeetObjectsAt (base patch : Value) (rest : List String) : Prop :=
  ∀ path key, patch.atPath (path ++ [key]) = some .null →
    rest ++ (path ++ [key]) ≠ ["team", "max_members"] →
    ∃ fields, base.atPath path = some (.object fields)

lemma NullsMeetObjectsAt.field {base patch : Fields} {rest : List String}
    (h : NullsMeetObjectsAt (.object base) (.object patch) rest) {key : String} {child : Value}
    (hchild : patch.lookup key = some child) :
    NullsMeetObjectsAt (getD base key) child (rest ++ [key]) := by
  intro path key' hnull hne
  have hpath : (Value.object patch).atPath ((key :: path) ++ [key']) = some .null := by
    rw [List.cons_append, atPath_object, hchild]
    exact hnull
  obtain ⟨fields, hfields⟩ := h (key :: path) key' hpath (by simpa using hne)
  rw [atPath_object] at hfields
  obtain ⟨value, hvalue, hrest⟩ := Option.bind_eq_some_iff.1 hfields
  refine ⟨fields, ?_⟩
  rw [getD, hvalue]
  exact hrest

/-- A null that meets an object is taken away. -/
lemma atPath_removed {base patch : Value} {rest path : List String} {key : String}
    (h : patch.Distinct) (hmeets : NullsMeetObjectsAt base patch rest)
    (hnull : patch.atPath (path ++ [key]) = some .null)
    (hne : rest ++ (path ++ [key]) ≠ ["team", "max_members"]) :
    (mergeSettingsPatchAt base patch rest).atPath (path ++ [key]) = none := by
  induction path generalizing base patch rest with
  | nil =>
    obtain ⟨fields, hfields⟩ := hmeets [] key hnull hne
    cases hfields
    obtain ⟨patch, child, rfl, hchild, hpath⟩ := exists_field hnull
    cases hpath
    rw [List.nil_append, atPath, get_mergeSettingsPatchAt rest h key, hchild]
    change (if takesAway Value.null (rest ++ [key]) = true then none else some _).bind _ = _
    rw [List.nil_append] at hne
    rw [if_pos (takesAway_iff.2 ⟨rfl, hne⟩)]
    rfl
  | cons k path ih =>
    obtain ⟨fields, hfields⟩ := hmeets (k :: path) key hnull hne
    obtain ⟨base, _, rfl, _, _⟩ := exists_field hfields
    obtain ⟨patch, child, rfl, hchild, hpath⟩ := exists_field hnull
    have hkeeps := takesAway_of_atPath hpath (fun heq => absurd heq (by simp)) (rest ++ [k])
    rw [List.cons_append, atPath_mergeSettingsPatchAt h hchild hkeeps]
    refine ih (Distinct.field h hchild) (hmeets.field hchild) hpath ?_
    rw [List.append_assoc]
    exact hne

/-- Where the settings have no object, the nulls of the patch are stored. -/
lemma atPath_stored {base patch : Value} {fields : Fields} {rest path : List String}
    (h : patch.Distinct) (hpatch : patch.atPath path = some (.object fields))
    (hbase : ∀ fields, base.atPath path ≠ some (.object fields)) :
    (mergeSettingsPatchAt base patch rest).atPath path = some (.object fields) := by
  induction path generalizing base patch rest with
  | nil =>
    have hleaf : base.isObject = false := by
      rw [← Bool.not_eq_true, isObject_iff]
      rintro ⟨fields, rfl⟩
      exact hbase fields rfl
    rwa [mergeSettingsPatchAt_of_leaf hleaf]
  | cons k path ih =>
    cases hobject : base.isObject with
    | false => rwa [mergeSettingsPatchAt_of_leaf hobject]
    | true =>
      obtain ⟨base, rfl⟩ := isObject_iff.1 hobject
      obtain ⟨patch, child, rfl, hchild, hpath⟩ := exists_field hpatch
      have hkeeps := takesAway_of_atPath hpath (fun _ => Value.noConfusion) (rest ++ [k])
      rw [atPath_mergeSettingsPatchAt h hchild hkeeps]
      refine ih (Distinct.field h hchild) hpath ?_
      intro fields' hfields'
      cases hlookup : base.lookup k with
      | none =>
        rw [getD, hlookup] at hfields'
        cases path with
        | nil => cases hfields'
        | cons k' path => cases hfields'
      | some value =>
        rw [getD, hlookup] at hfields'
        refine hbase fields' ?_
        rw [atPath_object, hlookup]
        exact hfields'

/-! ## Merging again -/

/-- A patch without nulls makes itself of itself. -/
lemma mergeSettingsPatchAt_self {patch : Value} {rest : List String} (h : patch.Distinct)
    (hnull : ∀ path key, patch.atPath (path ++ [key]) = some .null →
      rest ++ (path ++ [key]) = ["team", "max_members"]) :
    mergeSettingsPatchAt patch patch rest = patch := by
  induction patch using Value.induction generalizing rest with
  | leaf value hleaf => exact mergeSettingsPatchAt_leaf value hleaf rest
  | object fields ih =>
    have hnone : unnamed fields fields = [] := by
      rw [unnamed, List.filter_eq_nil_iff]
      intro p hp
      rw [lookup_of_mem h.1 hp]
      exact Bool.false_ne_true
    have hentry : fields.filterMap (mergedEntry fields rest) = fields.filterMap some := by
      refine List.filterMap_congr ?_
      intro p hp
      have hlookup := lookup_of_mem h.1 hp
      have hkeeps : takesAway p.2 (rest ++ [p.1]) = false := by
        rw [← Bool.not_eq_true, takesAway_iff]
        rintro ⟨hp2, hne⟩
        refine hne (hnull [] p.1 ?_)
        rw [List.nil_append, atPath_object, hlookup, hp2]
        rfl
      have hself : mergeSettingsPatchAt p.2 p.2 (rest ++ [p.1]) = p.2 := by
        refine ih p hp (h.2.mem hp) ?_
        intro path key hpath
        rw [List.append_assoc]
        refine hnull (p.1 :: path) key ?_
        rw [List.cons_append, atPath_object, hlookup]
        exact hpath
      rw [mergedEntry, hkeeps, getD, hlookup, Option.getD_some, hself]
      rfl
    rw [mergeSettingsPatchAt_object, mergeSettingsFields_eq h.1, hnone, hentry,
      List.filterMap_some, List.nil_append]

/-- **Merging twice is merging once**, where the nulls of the patch meet objects. The induction is
on the patch: a field of it makes of what it has set what it has set. -/
theorem mergeSettingsPatchAt_again {base patch : Value} {rest : List String} (h : patch.Distinct)
    (hmeets : NullsMeetObjectsAt base patch rest) :
    mergeSettingsPatchAt (mergeSettingsPatchAt base patch rest) patch rest =
      mergeSettingsPatchAt base patch rest := by
  induction patch using Value.induction generalizing base rest with
  | leaf value hleaf => rw [mergeSettingsPatchAt_leaf _ hleaf, mergeSettingsPatchAt_leaf _ hleaf]
  | object fields ih =>
    cases hbase : base.isObject with
    | false =>
      rw [mergeSettingsPatchAt_of_leaf hbase]
      refine mergeSettingsPatchAt_self h ?_
      intro path key hnull
      by_contra hne
      obtain ⟨fields', hfields'⟩ := hmeets path key hnull hne
      cases path with
      | nil =>
        cases hfields'
        cases hbase
      | cons k path =>
        rw [atPath_cons_of_leaf hbase] at hfields'
        cases hfields'
    | true =>
      obtain ⟨base, rfl⟩ := isObject_iff.1 hbase
      have hunnamed : unnamed fields (mergeSettingsFields base fields rest) =
          unnamed fields base := by
        rw [mergeSettingsFields_eq h.1, unnamed, List.filter_append, unnamed, List.filter_filter]
        have hset : (fields.filterMap (mergedEntry base rest)).filter
            (fun p => (fields.lookup p.1).isNone) = [] := by
          rw [List.filter_eq_nil_iff]
          intro q hq
          obtain ⟨p, hp, hpq⟩ := List.mem_filterMap.1 hq
          rw [mergedEntry] at hpq
          split at hpq
          · cases hpq
          · cases hpq
            rw [lookup_of_mem h.1 hp]
            exact Bool.false_ne_true
        rw [hset, List.append_nil]
        refine List.filter_congr ?_
        intro p _
        exact Bool.and_self _
      have hentry : fields.filterMap (mergedEntry (mergeSettingsFields base fields rest) rest) =
          fields.filterMap (mergedEntry base rest) := by
        refine List.filterMap_congr ?_
        intro p hp
        have hlookup := lookup_of_mem h.1 hp
        rw [mergedEntry, mergedEntry]
        split
        · rfl
        · next hkeeps =>
          have hget : getD (mergeSettingsFields base fields rest) p.1 =
              mergeSettingsPatchAt (getD base p.1) p.2 (rest ++ [p.1]) := by
            rw [getD, lookup_mergeSettingsFields h.1, hlookup]
            change (if takesAway p.2 (rest ++ [p.1]) = true then none else some _).getD Value.null = _
            rw [if_neg hkeeps]
            rfl
          rw [hget, ih p hp (h.2.mem hp) (hmeets.field hlookup)]
      rw [mergeSettingsPatchAt_object, mergeSettingsPatchAt_object, mergeSettingsFields_eq h.1,
        hunnamed, hentry, ← mergeSettingsFields_eq h.1]

/-! ## The laws of merging -/

/-- A patch that is accepted. -/
structure SettingsPatch where
  value : Value
  distinct : value.Distinct
  valid : RbGameSettings.validatePatch value = true

/-- Merging the patch twice is merging it once; after it the settings that the patch sets to null
are gone, but for the one that may be null, its other leaves are set, and what it does not name is
as it was. -/
structure MergeLaws (base patch : Value) : Prop where
  again : mergeSettingsPatch (mergeSettingsPatch base patch) patch = mergeSettingsPatch base patch
  removed : ∀ path key, patch.atPath (path ++ [key]) = some .null →
    path ++ [key] ≠ ["team", "max_members"] →
    (mergeSettingsPatch base patch).atPath (path ++ [key]) = none
  set : ∀ path value, patch.atPath path = some value → value.isObject = false →
    (value = .null → path = ["team", "max_members"]) →
    (mergeSettingsPatch base patch).atPath path = some value
  kept : ∀ path fields key below, patch.atPath path = some (.object fields) →
    fields.lookup key = none →
    (mergeSettingsPatch base patch).atPath (path ++ key :: below) =
      base.atPath (path ++ key :: below)

/-- Every null of the patch, but for the setting that may be null, stands at a key of an object
that the settings have too. -/
def NullsMeetObjects (base patch : Value) : Prop :=
  ∀ path key, patch.atPath (path ++ [key]) = some .null →
    path ++ [key] ≠ ["team", "max_members"] →
    ∃ fields, base.atPath path = some (.object fields)

/-- **The laws of merging** hold exactly where the nulls of the patch meet objects. -/
theorem mergeLaws_iff (base : Fields) (patch : SettingsPatch) :
    MergeLaws (.object base) patch.value ↔ NullsMeetObjects (.object base) patch.value := by
  constructor
  · intro hlaws path key hnull hne
    by_contra hbase
    rw [atPath_append] at hnull
    obtain ⟨value, hvalue, hkey⟩ := Option.bind_eq_some_iff.1 hnull
    obtain ⟨fields, child, rfl, hchild, hpath⟩ := exists_field hkey
    have hstored : (mergeSettingsPatch (.object base) patch.value).atPath path =
        some (.object fields) := by
      refine atPath_stored patch.distinct hvalue ?_
      intro fields' hfields'
      exact hbase ⟨fields', hfields'⟩
    have hgone := hlaws.removed path key (by rw [atPath_append, hvalue]; exact hkey) hne
    rw [atPath_append, hstored, Option.bind_some, atPath_object, hchild] at hgone
    cases hpath
    cases hgone
  · intro hmeets
    have hmeetsAt : NullsMeetObjectsAt (.object base) patch.value [] := hmeets
    exact {
      again := mergeSettingsPatchAt_again patch.distinct hmeetsAt
      removed := fun path key hnull hne =>
        atPath_removed patch.distinct hmeetsAt hnull hne
      set := fun path value hvalue hleaf hnull =>
        atPath_set patch.distinct hvalue hleaf hnull
      kept := fun path fields key below hpatch hkey =>
        atPath_kept patch.distinct hpatch hkey below }

/-- A null in an object that is not stored yet is stored with it, and taken away the next time. -/
theorem not_mergeLaws : ¬ ∀ (base : Fields) (patch : SettingsPatch),
    MergeLaws (.object base) patch.value := by
  intro h
  have hlaws := h [("team", RbGameTeamSettings.default.toValue),
      ("display", RbGameDisplaySettings.default.toValue), ("ticket", .object [])]
    ⟨.object [("ticket", .object [("round", .object [("a", .null)])])],
      by simp [Value.Distinct, DistinctFields],
      by simp [RbGameSettings.validatePatch, isNull, isObject]⟩
  have hgone := hlaws.removed ["ticket", "round"] "a" rfl (by decide)
  cases hgone

end Games
