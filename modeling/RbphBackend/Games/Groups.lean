import RbphBackend.Games.Merge

set_option relaxedAutoImplicit false
set_option autoImplicit false

/-!
# Groups of settings

The settings of a game are read as a whole, or one group of them alone. Both readers fill in the
defaults for what is missing; where something cannot be read, the one falls back on the defaults of
all settings, the other on those of its group.

## Main definitions

* `Games.readTeam`, `Games.readDisplay` — `get_setting_group`.
* `Games.createSettings`, `Games.updateSettings` — what is stored.
* `Games.Stored` — the settings that both readers can read.
* `Games.KeepsProvider` — a patch does not take the key of a provider away.

## Main results

* `Games.Stored.update` — patches keep the settings readable.
* `Games.groupsAgree_of_run` — then a group is read alike by both.
-/

namespace Games

open Value

/-! ## Reading one group -/

/-- `settings #> path`, for a path of one key. -/
def groupValue (settings : Value) (key : String) : Value := (settings.atPath [key]).getD .null

/-- `decode_setting_group` of the settings for display. -/
def decodeDisplaySettings (value : Value) : RbGameDisplaySettings :=
  ((RbGameDisplaySettings.fromValue
    (mergePatch RbGameDisplaySettings.default.toValue value)).getD .default).sanitize

def readTeam (settings : Value) : RbGameTeamSettings :=
  decodeTeamSettings (groupValue settings "team")

def readDisplay (settings : Value) : RbGameDisplaySettings :=
  decodeDisplaySettings (groupValue settings "display")

/-- Both readers read the same. -/
structure GroupsAgree (settings : Value) : Prop where
  team : readTeam settings = (RbGameSettings.sanitize settings).team
  display : readDisplay settings = (RbGameSettings.sanitize settings).display

/-! ## What is stored -/

/-- `create`: the settings of a new game. -/
def createSettings (settings : Option SettingsPatch) : Value :=
  sanitizeStorage (mergeSettingsPatch RbGameSettings.default.toValue
    ((settings.map SettingsPatch.value).getD .null))

/-- `update`: the settings after a patch. -/
def updateSettings (current : Value) (patch : SettingsPatch) : Value :=
  sanitizeStorage (mergeSettingsPatch current patch.value)

/-- The patch does not name the provider by an object, with the key that the stored one has. -/
def KeepsProvider (current : Value) (patch : SettingsPatch) : Prop :=
  ∀ provider, ¬ (current.atPath ["display", "staff_avatar_provider"] =
      some (.object [(provider, .null)]) ∧
    patch.value.atPath ["display", "staff_avatar_provider"] = some (.object [(provider, .null)]))

/-- The settings of a game that has been created and patched. -/
inductive Run : Value → Prop
  | create (settings : Option SettingsPatch) : Run (createSettings settings)
  | update {current : Value} (patch : SettingsPatch) :
      Run current → KeepsProvider current patch → Run (updateSettings current patch)

/-! ### Settings that can be read -/

/-- The fields of the settings of teams can be read. -/
structure StoredTeam (fields : Fields) : Prop where
  nodup : (fields.map Prod.fst).Nodup
  maxMembers : ∀ v, fields.lookup "max_members" = some v →
    v = .null ∨ ∃ n : ℤ, v = .int n ∧ 0 < n ∧ n ≤ 2147483647
  allow : ∀ v, fields.lookup "allow_duplicate_names" = some v → ∃ b, v = .bool b

/-- The fields of the settings for display can be read. -/
structure StoredDisplay (fields : Fields) : Prop where
  nodup : (fields.map Prod.fst).Nodup
  nickname : ∀ v, fields.lookup "staff_nickname" = some v → v = .null ∨ ∃ s, v = .string s
  email : ∀ v, fields.lookup "staff_avatar_email" = some v → v = .null ∨ ∃ s, v = .string s
  provider : ∀ v, fields.lookup "staff_avatar_provider" = some v →
    (AvatarProvider.fromValue v).isSome
  delay : ∀ v, fields.lookup "delay_solve_stats" = some v → ∃ b, v = .bool b

/-- The fields of settings that both readers can read. -/
structure StoredFields (fields : Fields) : Prop where
  nodup : (fields.map Prod.fst).Nodup
  team : ∀ v, fields.lookup "team" = some v → ∃ team, v = .object team ∧ StoredTeam team
  display : ∀ v, fields.lookup "display" = some v →
    ∃ display, v = .object display ∧ StoredDisplay display
  ticket : fields.lookup "ticket" ≠ some .null

/-- Settings that both readers can read. -/
def Stored (settings : Value) : Prop := ∃ fields, settings = .object fields ∧ StoredFields fields

/-! ## The other merge -/

section MergeFields

lemma mergePatch_of_leaf {base : Value} (h : base.isObject = false) (patch : Value) :
    mergePatch base patch = patch := by
  cases patch with
  | object fields =>
    cases base with
    | object base => cases h
    | _ => simp [mergePatch]
  | _ => simp [mergePatch]

lemma mergePatch_object (base patch : Fields) :
    mergePatch (.object base) (.object patch) = .object (mergeFields base patch) := by
  rw [mergePatch]

/-- What one key of a patch makes of the fields. -/
def putField (base : Fields) (key : String) (value : Value) : Fields :=
  if value.isNull then removeKey key base
  else insertKey key (mergePatch (getD base key) value) (removeKey key base)

lemma mergeFields_cons (base patch : Fields) (key : String) (value : Value) :
    mergeFields base ((key, value) :: patch) = mergeFields (putField base key value) patch := by
  rw [mergeFields]
  rfl

lemma lookup_putField (base : Fields) (key key' : String) (value : Value) :
    (putField base key value).lookup key' =
      if key' = key then if value.isNull then none else some (mergePatch (getD base key) value)
      else base.lookup key' := by
  rw [putField]
  split
  · rw [lookup_removeKey]
  · rw [lookup_insertKey, lookup_removeKey]
    by_cases hkey : key' = key
    · rw [if_pos hkey, if_pos hkey]
    · rw [if_neg hkey, if_neg hkey, if_neg hkey]

/-- What is at a key after merging. -/
lemma lookup_mergeFields {base patch : Fields} (h : (patch.map Prod.fst).Nodup) (key : String) :
    (mergeFields base patch).lookup key =
      match patch.lookup key with
      | none => base.lookup key
      | some value => if value.isNull then none else some (mergePatch (getD base key) value) := by
  induction patch generalizing base with
  | nil => simp [mergeFields]
  | cons p patch ih =>
    obtain ⟨k, v⟩ := p
    rw [List.map_cons, List.nodup_cons] at h
    rw [mergeFields_cons, ih h.2]
    by_cases hkey : key = k
    · subst hkey
      rw [lookup_eq_none_of_notMem h.1, List.lookup_cons_self, lookup_putField, if_pos rfl]
    · have hstep : (putField base k v).lookup key = base.lookup key := by
        rw [lookup_putField, if_neg hkey]
      rw [List.lookup_cons, beq_false_of_ne hkey, getD, hstep]
      rfl

end MergeFields

/-! ## Patches keep the settings readable -/

section Patches

variable {base patch : Fields} {path : List String}

lemma nodup_mergeSettingsFields (hbase : (base.map Prod.fst).Nodup)
    (hpatch : (patch.map Prod.fst).Nodup) :
    ((mergeSettingsFields base patch path).map Prod.fst).Nodup := by
  have hkeys : ((patch.filterMap (mergedEntry base path)).map Prod.fst).Sublist
      (patch.map Prod.fst) := by
    clear hpatch
    induction patch with
    | nil => exact List.nil_sublist _
    | cons p patch ih =>
      by_cases htakes : takesAway p.2 (path ++ [p.1]) = true
      · have hentry : mergedEntry base path p = none := if_pos htakes
        rw [List.filterMap_cons_none hentry]
        exact ih.cons _
      · have hentry : mergedEntry base path p =
            some (p.1, mergeSettingsPatchAt (getD base p.1) p.2 (path ++ [p.1])) := if_neg htakes
        rw [List.filterMap_cons_some hentry]
        exact ih.cons_cons _
  rw [mergeSettingsFields_eq hpatch, List.map_append, List.nodup_append]
  refine ⟨(List.filter_sublist.map Prod.fst).nodup hbase, hkeys.nodup hpatch, ?_⟩
  rintro key hkept _ hset rfl
  obtain ⟨p, hp, rfl⟩ := List.mem_map.mp hkept
  obtain ⟨q, hq, hkey⟩ := List.mem_map.mp (hkeys.subset hset)
  have hnone := (List.mem_filter.mp hp).2
  rw [← hkey, lookup_of_mem hpatch hq] at hnone
  cases hnone

/-- Where a patch has no object, what is at a key after merging is from the patch or from before. -/
lemma lookup_of_leaf {key : String} {v : Value} (hpatch : (patch.map Prod.fst).Nodup)
    (hleaf : ∀ v, patch.lookup key = some v → v.isObject = false)
    (h : (mergeSettingsFields base patch path).lookup key = some v) :
    patch.lookup key = some v ∨ base.lookup key = some v := by
  rw [lookup_mergeSettingsFields hpatch] at h
  cases hlookup : patch.lookup key with
  | none =>
    rw [hlookup] at h
    exact .inr h
  | some w =>
    simp only [hlookup] at h
    split_ifs at h
    rw [mergeSettingsPatchAt_leaf _ (hleaf w hlookup)] at h
    exact .inl h

lemma StoredTeam.merge (hbase : StoredTeam base) (hpatch : StoredTeam patch) :
    StoredTeam (mergeSettingsFields base patch path) where
  nodup := nodup_mergeSettingsFields hbase.nodup hpatch.nodup
  maxMembers v hv := by
    have hleaf : ∀ v, patch.lookup "max_members" = some v → v.isObject = false := by
      intro v hv
      obtain rfl | ⟨n, rfl, -⟩ := hpatch.maxMembers v hv <;> rfl
    obtain h | h := lookup_of_leaf hpatch.nodup hleaf hv
    · exact hpatch.maxMembers v h
    · exact hbase.maxMembers v h
  allow v hv := by
    have hleaf : ∀ v, patch.lookup "allow_duplicate_names" = some v → v.isObject = false := by
      intro v hv
      obtain ⟨b, rfl⟩ := hpatch.allow v hv
      rfl
    obtain h | h := lookup_of_leaf hpatch.nodup hleaf hv
    · exact hpatch.allow v h
    · exact hbase.allow v h

/-- A text of the settings, in a field that only texts and nulls are put into. -/
lemma text_merge {key : String} (hnodup : (patch.map Prod.fst).Nodup)
    (hbase : ∀ v, base.lookup key = some v → v = .null ∨ ∃ s, v = .string s)
    (hpatch : ∀ v, patch.lookup key = some v → v = .null ∨ ∃ s, v = .string s) {v : Value}
    (hv : (mergeSettingsFields base patch path).lookup key = some v) :
    v = .null ∨ ∃ s, v = .string s := by
  have hleaf : ∀ v, patch.lookup key = some v → v.isObject = false := by
    intro v hv
    obtain rfl | ⟨s, rfl⟩ := hpatch v hv <;> rfl
  obtain h | h := lookup_of_leaf hnodup hleaf hv
  · exact hpatch v h
  · exact hbase v h

/-- A provider is a text or an object with one key. -/
lemma provider_cases {v : Value} (h : (AvatarProvider.fromValue v).isSome) :
    (∃ s, v = .string s) ∨ ∃ name, v = .object [(name, .null)] := by
  obtain ⟨provider, hprovider⟩ := Option.isSome_iff_exists.mp h
  obtain ⟨name, hname, -⟩ := Option.bind_eq_some_iff.mp hprovider
  rw [variantName.eq_def] at hname
  split at hname
  · exact .inl ⟨_, rfl⟩
  · exact .inr ⟨_, rfl⟩
  · cases hname

/-- A provider stays one, unless the patch takes its key away. -/
lemma provider_merge {old new : Value} (hold : old = .null ∨ (AvatarProvider.fromValue old).isSome)
    (hnew : (AvatarProvider.fromValue new).isSome)
    (hkeeps : ∀ name, ¬ (old = .object [(name, .null)] ∧ new = .object [(name, .null)]))
    {rest : List String} (hrest : ∀ name, rest ++ [name] ≠ ["team", "max_members"]) :
    (AvatarProvider.fromValue (mergeSettingsPatchAt old new rest)).isSome := by
  obtain ⟨s, rfl⟩ | ⟨name, rfl⟩ := provider_cases hnew
  · rwa [mergeSettingsPatchAt_leaf _ rfl]
  · obtain rfl | hold := hold
    · rwa [mergeSettingsPatchAt_of_leaf rfl]
    · obtain ⟨s, rfl⟩ | ⟨other, rfl⟩ := provider_cases hold
      · rwa [mergeSettingsPatchAt_of_leaf rfl]
      · -- the key that is taken away is not the one that is stored
        have hne : other ≠ name := fun heq => hkeeps name ⟨by rw [heq], rfl⟩
        have htakes : takesAway .null (rest ++ [name]) = true :=
          takesAway_iff.mpr ⟨rfl, hrest name⟩
        have hkept : setField [(other, Value.null)] name .null rest = [(other, .null)] := by
          rw [setField, if_pos htakes, removeKey, List.filter_cons_of_pos (by simpa using hne),
            List.filter_nil]
        rw [mergeSettingsPatchAt_object, mergeSettingsFields_cons, hkept, mergeSettingsFields]
        exact hold

lemma StoredDisplay.merge (hbase : StoredDisplay base) (hpatch : StoredDisplay patch)
    (hkeeps : ∀ name, ¬ (base.lookup "staff_avatar_provider" = some (.object [(name, .null)]) ∧
      patch.lookup "staff_avatar_provider" = some (.object [(name, .null)]))) :
    StoredDisplay (mergeSettingsFields base patch ["display"]) where
  nodup := nodup_mergeSettingsFields hbase.nodup hpatch.nodup
  nickname _ hv := text_merge hpatch.nodup hbase.nickname hpatch.nickname hv
  email _ hv := text_merge hpatch.nodup hbase.email hpatch.email hv
  provider v hv := by
    rw [lookup_mergeSettingsFields hpatch.nodup] at hv
    cases hnew : patch.lookup "staff_avatar_provider" with
    | none =>
      rw [hnew] at hv
      exact hbase.provider v hv
    | some new =>
      simp only [hnew] at hv
      split_ifs at hv
      cases hv
      refine provider_merge ?_ (hpatch.provider new hnew) ?_ (by simp)
      · rw [getD]
        cases hold : base.lookup "staff_avatar_provider" with
        | none => exact .inl rfl
        | some old => exact .inr (hbase.provider old hold)
      · rintro name ⟨hold, rfl⟩
        rw [getD] at hold
        cases hlookup : base.lookup "staff_avatar_provider" with
        | none =>
          rw [hlookup] at hold
          cases hold
        | some old =>
          rw [hlookup, Option.getD_some] at hold
          subst hold
          exact hkeeps name ⟨hlookup, hnew⟩
  delay v hv := by
    have hleaf : ∀ v, patch.lookup "delay_solve_stats" = some v → v.isObject = false := by
      intro v hv
      obtain ⟨b, rfl⟩ := hpatch.delay v hv
      rfl
    obtain h | h := lookup_of_leaf hpatch.nodup hleaf hv
    · exact hpatch.delay v h
    · exact hbase.delay v h

end Patches

/-! ### Patches that are accepted -/

section Accepted

variable {fields : Fields}

lemma maxMembers_of_valid {v : Value} (h : (v.isNull ||
    v.asI64.any fun n => decide (0 < n ∧ n ≤ 2147483647)) = true) :
    v = .null ∨ ∃ n : ℤ, v = .int n ∧ 0 < n ∧ n ≤ 2147483647 := by
  rw [Bool.or_eq_true] at h
  cases v with
  | null => exact .inl rfl
  | int n =>
    refine .inr ⟨n, rfl, ?_⟩
    rw [asI64] at h
    split_ifs at h with hn
    · simpa [isNull] using h
    · simp [isNull] at h
  | _ => simp [isNull, asI64] at h

lemma text_of_valid {v : Value} {maxLength : ℕ} (h : validText maxLength v = true) :
    v = .null ∨ ∃ s, v = .string s := by
  cases v with
  | null => exact .inl rfl
  | string s => exact .inr ⟨s, rfl⟩
  | _ => simp [validText, isNull, asStr] at h

lemma bool_of_valid {v : Value} (h : v.isBoolean = true) : ∃ b, v = .bool b := by
  cases v with
  | bool b => exact ⟨b, rfl⟩
  | _ => cases h

/-- What is valid of all fields is valid at a key. -/
lemma valid_lookup {valid : String × Value → Bool} (h : fields.all valid = true) {key : String}
    {v : Value} (hv : fields.lookup key = some v) : valid (key, v) = true :=
  List.all_eq_true.mp h (key, v) (mem_of_lookup hv)

lemma storedTeam_of_valid (hnodup : (fields.map Prod.fst).Nodup)
    (h : RbGameTeamSettings.validatePatch (.object fields) = true) : StoredTeam fields where
  nodup := hnodup
  maxMembers _ hv := maxMembers_of_valid (valid_lookup h hv)
  allow _ hv := bool_of_valid (valid_lookup h hv)

lemma storedDisplay_of_valid (hnodup : (fields.map Prod.fst).Nodup)
    (h : RbGameDisplaySettings.validatePatch (.object fields) = true) : StoredDisplay fields where
  nodup := hnodup
  nickname _ hv := text_of_valid (valid_lookup h hv)
  email _ hv := text_of_valid (valid_lookup h hv)
  provider _ hv := valid_lookup h hv
  delay _ hv := bool_of_valid (valid_lookup h hv)

/-- What an accepted patch has at the key of a group: null, or fields that can be read. -/
lemma SettingsPatch.groups (patch : SettingsPatch) : ∃ fields, patch.value = .object fields ∧
    (fields.map Prod.fst).Nodup ∧
    (∀ v, fields.lookup "team" = some v →
      v = .null ∨ ∃ team, v = .object team ∧ StoredTeam team) ∧
    ∀ v, fields.lookup "display" = some v →
      v = .null ∨ ∃ display, v = .object display ∧ StoredDisplay display := by
  obtain ⟨value, hdistinct, hvalid⟩ := patch
  cases value with
  | object fields =>
    refine ⟨fields, rfl, hdistinct.1, fun v hv => ?_, fun v hv => ?_⟩
    · have hgroup : RbGameTeamSettings.validatePatch v = true := valid_lookup hvalid hv
      have hkeys := Distinct.field hdistinct hv
      cases v with
      | null => exact .inl rfl
      | object team => exact .inr ⟨team, rfl, storedTeam_of_valid hkeys.1 hgroup⟩
      | _ => cases hgroup
    · have hgroup : RbGameDisplaySettings.validatePatch v = true := valid_lookup hvalid hv
      have hkeys := Distinct.field hdistinct hv
      cases v with
      | null => exact .inl rfl
      | object display => exact .inr ⟨display, rfl, storedDisplay_of_valid hkeys.1 hgroup⟩
      | _ => cases hgroup
  | _ => cases hvalid

end Accepted

/-- A group of the settings is what was there, what the patch has, or both merged. -/
lemma group_merge {Good : Fields → Prop} {base patch : Fields} {key : String}
    (hnodup : (patch.map Prod.fst).Nodup)
    (hbase : ∀ v, base.lookup key = some v → ∃ fields, v = .object fields ∧ Good fields)
    (hpatch : ∀ v, patch.lookup key = some v →
      v = .null ∨ ∃ fields, v = .object fields ∧ Good fields)
    (hmerge : ∀ old new, base.lookup key = some (.object old) →
      patch.lookup key = some (.object new) → Good old → Good new →
      Good (mergeSettingsFields old new [key])) :
    ∀ v, (mergeSettingsFields base patch []).lookup key = some v →
      ∃ fields, v = .object fields ∧ Good fields := by
  intro v hv
  rw [lookup_mergeSettingsFields hnodup] at hv
  cases hnew : patch.lookup key with
  | none =>
    rw [hnew] at hv
    exact hbase v hv
  | some new =>
    simp only [hnew, List.nil_append] at hv
    split_ifs at hv with htakes
    cases hv
    obtain rfl | ⟨new, rfl, hgood⟩ := hpatch new hnew
    · exact absurd (takesAway_iff.mpr ⟨rfl, by simp⟩) htakes
    · rw [getD]
      cases hold : base.lookup key with
      | none => exact ⟨new, mergeSettingsPatchAt_of_leaf rfl _ _, hgood⟩
      | some old =>
        obtain ⟨old, rfl, hgoodOld⟩ := hbase old hold
        exact ⟨_, mergeSettingsPatchAt_object _ _ _, hmerge old new hold hnew hgoodOld hgood⟩

lemma mergeSettingsPatchAt_ne_null (base : Value) {patch : Value} (h : patch ≠ .null)
    (path : List String) : mergeSettingsPatchAt base patch path ≠ .null := by
  cases hobject : patch.isObject with
  | false => rwa [mergeSettingsPatchAt_leaf _ hobject]
  | true =>
    obtain ⟨fields, rfl⟩ := isObject_iff.mp hobject
    cases hbase : base.isObject with
    | false => rwa [mergeSettingsPatchAt_of_leaf hbase]
    | true =>
      obtain ⟨base, rfl⟩ := isObject_iff.mp hbase
      rw [mergeSettingsPatchAt_object]
      exact Value.noConfusion

lemma ticket_merge {base patch : Fields} (hnodup : (patch.map Prod.fst).Nodup)
    (hbase : base.lookup "ticket" ≠ some .null) :
    (mergeSettingsFields base patch []).lookup "ticket" ≠ some .null := by
  rw [lookup_mergeSettingsFields hnodup]
  cases hlookup : patch.lookup "ticket" with
  | none => exact hbase
  | some v =>
    dsimp only
    split_ifs with htakes
    · exact Option.some_ne_none _ |>.symm
    · have hne : v ≠ .null := fun heq => htakes (takesAway_iff.mpr ⟨heq, by simp⟩)
      exact fun heq => mergeSettingsPatchAt_ne_null _ hne _ (Option.some.inj heq)

/-- **A patch keeps the settings readable**, unless it takes the key of the provider away. -/
theorem Stored.update {current : Value} {patch : SettingsPatch} (h : Stored current)
    (hkeeps : KeepsProvider current patch) : Stored (updateSettings current patch) := by
  obtain ⟨base, rfl, hbase⟩ := h
  obtain ⟨fields, hpatch, hnodup, hteam, hdisplay⟩ := patch.groups
  refine ⟨mergeSettingsFields base fields [], ?_, nodup_mergeSettingsFields hbase.nodup hnodup,
    ?_, ?_, ticket_merge hnodup hbase.ticket⟩
  · rw [updateSettings, hpatch, mergeSettingsPatch, mergeSettingsPatchAt_object]
    rfl
  · exact group_merge hnodup hbase.team hteam fun _ _ _ _ hold hnew => hold.merge hnew
  · refine group_merge hnodup hbase.display hdisplay fun old new hold hnew hgoodOld hgood =>
      hgoodOld.merge hgood ?_
    rintro name ⟨holdName, hnewName⟩
    refine hkeeps name ⟨?_, ?_⟩
    · rw [atPath_object, hold, Option.bind_some, atPath_object, holdName]
      rfl
    · rw [hpatch, atPath_object, hnew, Option.bind_some, atPath_object, hnewName]
      rfl

/-- The defaults can be read. -/
lemma stored_default : Stored RbGameSettings.default.toValue := by
  refine ⟨_, rfl, by decide, fun v hv => ?_, fun v hv => ?_, fun hv => ?_⟩
  · cases hv
    refine ⟨_, rfl, by decide, fun v hv => ?_, fun v hv => ?_⟩
    · cases hv
      exact .inl rfl
    · cases hv
      exact ⟨false, rfl⟩
  · cases hv
    refine ⟨_, rfl, by decide, fun v hv => ?_, fun v hv => ?_, fun v hv => ?_, fun v hv => ?_⟩
    · cases hv
      exact .inl rfl
    · cases hv
      exact .inl rfl
    · cases hv
      rfl
    · cases hv
      exact ⟨false, rfl⟩
  · cases hv

lemma stored_create (settings : Option SettingsPatch) : Stored (createSettings settings) := by
  cases settings with
  | none =>
    refine ⟨[], rfl, List.nodup_nil, fun v hv => ?_, fun v hv => ?_, fun hv => ?_⟩
    all_goals cases hv
  | some patch =>
    refine @Stored.update _ patch stored_default ?_
    rintro name ⟨hprovider, -⟩
    cases hprovider

/-- **The settings of a run can be read.** -/
theorem stored_of_run {settings : Value} (h : Run settings) : Stored settings := by
  induction h with
  | create settings => exact stored_create settings
  | update patch _ hkeeps ih => exact ih.update hkeeps

/-! ## Both readers -/

section Readers

variable {fields : Fields}

/-- What is read of the fields of the settings of teams. -/
def teamOf (fields : Fields) : RbGameTeamSettings :=
  ⟨(fields.lookup "max_members").bind decodeI32,
    ((fields.lookup "allow_duplicate_names").bind decodeBool).getD false⟩

/-- What is read of the fields of the settings for display. -/
def displayOf (fields : Fields) : RbGameDisplaySettings :=
  ⟨(fields.lookup "staff_nickname").bind asStr, (fields.lookup "staff_avatar_email").bind asStr,
    ((fields.lookup "staff_avatar_provider").bind AvatarProvider.fromValue).getD .cravatar,
    ((fields.lookup "delay_solve_stats").bind decodeBool).getD false⟩

/-- At every key, the merged fields have what the fields set, and the default where they have
nothing. -/
structure Fills (defaults fields merged : Fields) : Prop where
  absent : ∀ key, fields.lookup key = none → merged.lookup key = defaults.lookup key
  null : ∀ key, fields.lookup key = some .null →
    merged.lookup key = none ∨ merged.lookup key = some .null
  set : ∀ key v, fields.lookup key = some v → v ≠ .null → (getD defaults key).isObject = false →
    merged.lookup key = some v

lemma fills_mergeSettingsFields {defaults : Fields} {path : List String}
    (h : (fields.map Prod.fst).Nodup) :
    Fills defaults fields (mergeSettingsFields defaults fields path) where
  absent key hkey := by rw [lookup_mergeSettingsFields h, hkey]
  null key hkey := by
    simp only [lookup_mergeSettingsFields h, hkey, @mergeSettingsPatchAt_leaf _ .null rfl]
    split_ifs
    · exact .inl rfl
    · exact .inr rfl
  set key v hkey hne hleaf := by
    have hkeeps : ¬ takesAway v (path ++ [key]) = true := fun htakes =>
      hne (takesAway_iff.mp htakes).1
    simp only [lookup_mergeSettingsFields h, hkey, if_neg hkeeps,
      mergeSettingsPatchAt_of_leaf hleaf]

lemma fills_mergeFields {defaults : Fields} (h : (fields.map Prod.fst).Nodup) :
    Fills defaults fields (mergeFields defaults fields) where
  absent key hkey := by rw [lookup_mergeFields h, hkey]
  null key hkey := by
    rw [lookup_mergeFields h, hkey]
    exact .inl rfl
  set key v hkey hne hleaf := by
    have hnull : v.isNull = false := by cases v <;> first | rfl | exact absurd rfl hne
    simp only [lookup_mergeFields h, hkey, hnull, mergePatch_of_leaf hleaf]
    rfl

/-- A field that may be null is read as it is stored. -/
lemma decodeOption_of_fills {α : Type} {f : Value → Option α} {defaults merged : Fields}
    (hfills : Fills defaults fields merged) (key : String)
    (hdefault : defaults.lookup key = some .null)
    (hnull : f .null = none)
    (hstored : ∀ v, fields.lookup key = some v → v = .null ∨ (f v).isSome) :
    decodeOption f (merged.lookup key) = some ((fields.lookup key).bind f) := by
  cases hlookup : fields.lookup key with
  | none =>
    rw [hfills.absent key hlookup, hdefault]
    rfl
  | some v =>
    obtain rfl | hsome := hstored v hlookup
    · rw [Option.bind_some, hnull]
      obtain hm | hm := hfills.null key hlookup <;> rw [hm] <;> rfl
    · have hne : v ≠ .null := by
        rintro rfl
        rw [hnull] at hsome
        cases hsome
      obtain ⟨a, ha⟩ := Option.isSome_iff_exists.mp hsome
      have hleaf : (getD defaults key).isObject = false := by
        rw [getD, hdefault]
        rfl
      rw [hfills.set key v hlookup hne hleaf, Option.bind_some, ha]
      cases v with
      | null => exact absurd rfl hne
      | _ => rw [decodeOption, ha]; rfl; exact hne

/-- A field with a default is read as it is stored, or as the default. -/
lemma bind_of_fills {α : Type} {f : Value → Option α} {defaults merged : Fields}
    (hfills : Fills defaults fields merged) (key : String) {d : Value} {a : α}
    (hdefault : defaults.lookup key = some d) (hd : f d = some a) (hleaf : d.isObject = false)
    (hnull : f .null = none) (hstored : ∀ v, fields.lookup key = some v → (f v).isSome) :
    (merged.lookup key).bind f = some (((fields.lookup key).bind f).getD a) := by
  cases hlookup : fields.lookup key with
  | none =>
    rw [hfills.absent key hlookup, hdefault, Option.bind_some, hd]
    rfl
  | some v =>
    obtain ⟨b, hb⟩ := Option.isSome_iff_exists.mp (hstored v hlookup)
    have hne : v ≠ .null := by
      rintro rfl
      rw [hnull] at hb
      cases hb
    rw [hfills.set key v hlookup hne (by rwa [getD, hdefault, Option.getD_some]), Option.bind_some,
      hb]
    rfl

/-- The fields of the default settings of teams. -/
def teamDefaults : Fields := [("max_members", .null), ("allow_duplicate_names", .bool false)]

/-- The fields of the default settings for display. -/
def displayDefaults : Fields :=
  [("staff_nickname", .null), ("staff_avatar_email", .null),
    ("staff_avatar_provider", .string "cravatar"), ("delay_solve_stats", .bool false)]

lemma fromValue_team {merged : Fields} (h : StoredTeam fields)
    (hfills : Fills teamDefaults fields merged) :
    RbGameTeamSettings.fromValue (.object merged) = some (teamOf fields) := by
  have hmax := decodeOption_of_fills (f := decodeI32) hfills "max_members" rfl rfl
    fun v hv => by
      obtain rfl | ⟨n, rfl, hpos, hle⟩ := h.maxMembers v hv
      · exact .inl rfl
      · exact .inr (by rw [decodeI32, if_pos ⟨by omega, hle⟩]; rfl)
  have hallow := bind_of_fills (f := decodeBool) hfills "allow_duplicate_names" rfl rfl rfl
    rfl fun v hv => by
      obtain ⟨b, rfl⟩ := h.allow v hv
      rfl
  rw [RbGameTeamSettings.fromValue]
  simp only [structFields, Option.bind_eq_bind, Option.bind_some, hmax, hallow]
  rfl

lemma fromValue_display {merged : Fields} (h : StoredDisplay fields)
    (hfills : Fills displayDefaults fields merged) :
    RbGameDisplaySettings.fromValue (.object merged) = some (displayOf fields) := by
  have htext : ∀ v : Value, v = .null ∨ (∃ s, v = .string s) → v = .null ∨ (asStr v).isSome := by
    rintro v (rfl | ⟨s, rfl⟩)
    · exact .inl rfl
    · exact .inr rfl
  have hnickname := decodeOption_of_fills (f := asStr) hfills "staff_nickname" rfl rfl
    fun v hv => htext v (h.nickname v hv)
  have hemail := decodeOption_of_fills (f := asStr) hfills "staff_avatar_email" rfl rfl
    fun v hv => htext v (h.email v hv)
  have hprovider := bind_of_fills (f := AvatarProvider.fromValue) hfills
    "staff_avatar_provider" rfl rfl rfl rfl h.provider
  have hdelay := bind_of_fills (f := decodeBool) hfills "delay_solve_stats" rfl rfl rfl rfl
    fun v hv => by
      obtain ⟨b, rfl⟩ := h.delay v hv
      rfl
  rw [RbGameDisplaySettings.fromValue]
  simp only [structFields, Option.bind_eq_bind, Option.bind_some, hnickname, hemail, hprovider,
    hdelay]
  rfl

/-- The fields of the default settings. -/
def settingsDefaults : Fields :=
  [("team", .object teamDefaults), ("display", .object displayDefaults), ("ticket", .object [])]

/-- The fields of a group, if there are any. -/
def groupFields (fields : Fields) (key : String) : Fields :=
  match fields.lookup key with
  | some (.object group) => group
  | _ => []

/-- A group of the whole settings, merged with its defaults. -/
lemma exists_group {defaults : Fields} (key : String)
    (hdefault : settingsDefaults.lookup key = some (.object defaults))
    (h : (fields.map Prod.fst).Nodup)
    (hgroup : ∀ v, fields.lookup key = some v →
      ∃ group, v = .object group ∧ (group.map Prod.fst).Nodup) :
    ∃ merged, (mergeSettingsFields settingsDefaults fields []).lookup key = some (.object merged) ∧
      Fills defaults (groupFields fields key) merged := by
  rw [lookup_mergeSettingsFields h, groupFields]
  cases hlookup : fields.lookup key with
  | none =>
    refine ⟨defaults, hdefault, fun _ _ => rfl, fun _ hnull => ?_, fun _ _ hset => ?_⟩
    · cases hnull
    · cases hset
  | some v =>
    obtain ⟨group, rfl, hnodup⟩ := hgroup v hlookup
    refine ⟨mergeSettingsFields defaults group [key], ?_, fills_mergeSettingsFields hnodup⟩
    have hkeeps : takesAway (.object group) ([] ++ [key]) = false := rfl
    simp only [hkeeps, getD, hdefault, Option.getD_some, mergeSettingsPatchAt_object]
    rfl

lemma exists_ticket (h : StoredFields fields) : ∃ ticket,
    (mergeSettingsFields settingsDefaults fields []).lookup "ticket" = some ticket := by
  rw [lookup_mergeSettingsFields h.nodup]
  cases hlookup : fields.lookup "ticket" with
  | none => exact ⟨_, rfl⟩
  | some v =>
    have hkeeps : ¬ takesAway v ([] ++ ["ticket"]) = true := by
      rw [takesAway_iff]
      exact fun htakes => h.ticket (htakes.1 ▸ hlookup)
    exact ⟨_, if_neg hkeeps⟩

lemma StoredFields.teamFields (h : StoredFields fields) : StoredTeam (groupFields fields "team") := by
  rw [groupFields]
  cases hlookup : fields.lookup "team" with
  | none => exact ⟨List.nodup_nil, fun _ hv => (by cases hv), fun _ hv => (by cases hv)⟩
  | some v =>
    obtain ⟨team, rfl, hteam⟩ := h.team v hlookup
    exact hteam

lemma StoredFields.displayFields (h : StoredFields fields) :
    StoredDisplay (groupFields fields "display") := by
  rw [groupFields]
  cases hlookup : fields.lookup "display" with
  | none =>
    exact ⟨List.nodup_nil, fun _ hv => (by cases hv), fun _ hv => (by cases hv),
      fun _ hv => (by cases hv), fun _ hv => (by cases hv)⟩
  | some v =>
    obtain ⟨display, rfl, hdisplay⟩ := h.display v hlookup
    exact hdisplay

/-- The whole settings are read group by group. -/
lemma sanitize_eq (h : StoredFields fields) :
    (RbGameSettings.sanitize (.object fields)).team = teamOf (groupFields fields "team") ∧
      (RbGameSettings.sanitize (.object fields)).display =
        (displayOf (groupFields fields "display")).sanitize := by
  obtain ⟨team, hteam, hteamFills⟩ := exists_group "team" rfl h.nodup fun v hv => by
    obtain ⟨group, rfl, hgroup⟩ := h.team v hv
    exact ⟨group, rfl, hgroup.nodup⟩
  obtain ⟨display, hdisplay, hdisplayFills⟩ := exists_group "display" rfl h.nodup
    fun v hv => by
      obtain ⟨group, rfl, hgroup⟩ := h.display v hv
      exact ⟨group, rfl, hgroup.nodup⟩
  obtain ⟨ticket, hticket⟩ := exists_ticket h
  have hmerged : mergeSettingsPatch RbGameSettings.default.toValue (.object fields) =
      .object (mergeSettingsFields settingsDefaults fields []) := mergeSettingsPatchAt_object _ _ _
  have hwhole : RbGameSettings.fromValue (.object (mergeSettingsFields settingsDefaults fields [])) =
      some ⟨teamOf (groupFields fields "team"), displayOf (groupFields fields "display"),
        ticket⟩ := by
    rw [RbGameSettings.fromValue]
    simp only [structFields, Option.bind_eq_bind, Option.bind_some, hteam, hdisplay, hticket,
      fromValue_team h.teamFields hteamFills, fromValue_display h.displayFields hdisplayFills]
  rw [RbGameSettings.sanitize, hmerged, hwhole]
  exact ⟨rfl, rfl⟩

lemma groupValue_object (key : String) :
    groupValue (.object fields) key = (fields.lookup key).getD .null := by
  rw [groupValue, atPath_object]
  cases fields.lookup key <;> rfl

lemma readTeam_eq (h : StoredFields fields) :
    readTeam (.object fields) = teamOf (groupFields fields "team") := by
  rw [readTeam, groupValue_object, decodeTeamSettings, groupFields]
  cases hlookup : fields.lookup "team" with
  | none => rfl
  | some v =>
    obtain ⟨team, rfl, hteam⟩ := h.team v hlookup
    have hmerged : mergePatch RbGameTeamSettings.default.toValue (.object team) =
        .object (mergeFields teamDefaults team) := mergePatch_object _ _
    rw [Option.getD_some, hmerged, fromValue_team hteam (fills_mergeFields hteam.nodup)]
    rfl

lemma readDisplay_eq (h : StoredFields fields) : readDisplay (.object fields) =
    (displayOf (groupFields fields "display")).sanitize := by
  rw [readDisplay, groupValue_object, decodeDisplaySettings, groupFields]
  cases hlookup : fields.lookup "display" with
  | none => rfl
  | some v =>
    obtain ⟨display, rfl, hdisplay⟩ := h.display v hlookup
    have hmerged : mergePatch RbGameDisplaySettings.default.toValue (.object display) =
        .object (mergeFields displayDefaults display) := mergePatch_object _ _
    rw [Option.getD_some, hmerged, fromValue_display hdisplay (fills_mergeFields hdisplay.nodup)]
    rfl

end Readers

lemma Stored.groupsAgree {settings : Value} (h : Stored settings) : GroupsAgree settings := by
  obtain ⟨fields, rfl, hfields⟩ := h
  obtain ⟨hteam, hdisplay⟩ := sanitize_eq hfields
  exact ⟨by rw [readTeam_eq hfields, hteam], by rw [readDisplay_eq hfields, hdisplay]⟩

/-- **A group is read alike** alone and with all settings, in every state of a run in which no patch
takes the key of the provider away. -/
theorem groupsAgree_of_run {settings : Value} (h : Run settings) : GroupsAgree settings :=
  (stored_of_run h).groupsAgree

/-- Teams of four, and a provider named by an object. -/
def limitPatch : SettingsPatch where
  value := .object [("team", .object [("max_members", .int 4)]),
    ("display", .object [("staff_avatar_provider", .object [("cravatar", .null)])])]
  distinct := by simp [Value.Distinct, DistinctFields]
  valid := by decide

/-- A provider named by an object. -/
def providerPatch (name : AvatarProvider) : SettingsPatch where
  value := .object [("display", .object [("staff_avatar_provider",
    .object [(match name with | .cravatar => "cravatar" | .catavatar => "catavatar", .null)])])]
  distinct := by simp [Value.Distinct, DistinctFields]
  valid := by cases name <;> decide

/-- The other provider is named. -/
theorem groupsAgree_of_run_other : GroupsAgree
    (updateSettings (createSettings (some limitPatch)) (providerPatch .catavatar)) := by
  refine groupsAgree_of_run (.update _ (.create _) ?_)
  rintro name ⟨hold, hnew⟩
  cases hold
  simp [providerPatch, atPath, Value.get] at hnew

/-- The same provider is named again: the whole settings are the defaults then. -/
theorem not_groupsAgree : ¬ ∀ (settings : Option SettingsPatch) (patches : List SettingsPatch),
    GroupsAgree (patches.foldl updateSettings (createSettings settings)) := by
  intro h
  have hteam := (h (some limitPatch) [providerPatch .cravatar]).team
  have hgroup : readTeam (updateSettings (createSettings (some limitPatch))
      (providerPatch .cravatar)) = ⟨some 4, false⟩ := rfl
  have hwhole : (RbGameSettings.sanitize (updateSettings (createSettings (some limitPatch))
      (providerPatch .cravatar))).team = ⟨none, false⟩ := rfl
  rw [List.foldl_cons, List.foldl_nil, hgroup, hwhole] at hteam
  exact absurd hteam (by decide)

end Games
