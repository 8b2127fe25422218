import RbphBackend.Expr.Parser
import RbphBackend.Frontend.Tables
import RbphBackend.Storage.Groups

set_option relaxedAutoImplicit false
set_option autoImplicit false

/-!
# The manifest of a theme

A theme is an archive with a manifest. The manifest refers to other files of the archive by relative
paths: scripts and styles of renderers, texts, icons. The files it refers to have to be there, and
those that hold data have to hold the data they are for.

## Main definitions

* `Frontend.Archive.packagePaths` — the paths a manifest refers to.
* `Frontend.Archive.validateThemeFiles` — the checks an archive has to pass.

## Main results

* `Frontend.Archive.allNames_packagePaths` — the paths a manifest refers to are made of names.
* `Frontend.Archive.exists_file` — there is a file for each of them.
-/

namespace Frontend.Archive

open Storage Paths

/-! ## Values -/

/-- A value of a JSON document; a number as its text. -/
inductive Value where
  | null
  | bool (b : Bool)
  | number (text : String)
  | string (s : String)
  | array (items : List Value)
  | object (fields : List (String × Value))

namespace Value

def asStr : Value → Option String
  | string s => some s
  | _ => none

def asObject : Value → Option (List (String × Value))
  | object fields => some fields
  | _ => none

def isObject (v : Value) : Bool := v.asObject.isSome

def get (v : Value) (key : String) : Option Value :=
  v.asObject.bind fun fields => (fields.find? (·.1 = key)).map (·.2)

end Value

/-! ## The manifest -/

structure ThemeManifestPackage where
  name : String
  version : String

inductive ThemeLocaleEntry where
  | inline (messages : Value)
  | json (source : String)
  | module (source : String)

structure ThemeLocaleFeature where
  locales : List (String × ThemeLocaleEntry)

structure ThemeIconsFeature where
  collections : List Value

structure ThemeUiFeature where
  icons : List (String × String) := []
  source : Option String := none

structure ThemeFeatures where
  renderers : List (String × ThemeRendererManifest) := []
  locale : Option ThemeLocaleFeature := none
  icons : Option ThemeIconsFeature := none
  ui : Option ThemeUiFeature := none

/-- A manifest, with its features as the document has them. -/
structure ThemeManifest where
  kind : String
  apiVersion : ℤ
  package : ThemeManifestPackage
  features : ThemeFeatures

def manifestPath : String := "rbph-theme.json"

def maxMetadataBytes : ℕ := 1024 * 1024

/-! ## The paths it refers to -/

/-- The path without a leading `./`. -/
def stripCurDir (path : String) : String :=
  match path.toList with
  | '.' :: '/' :: rest => String.ofList rest
  | _ => path

def normalizeRelativePath (path : String) : Option String :=
  let path := stripCurDir path
  if path ≠ "" ∧ ¬ IsAbsolute path ∧
      ∀ part ∈ segments path, part ≠ "" ∧ part ≠ "." ∧ part ≠ ".." then some path
  else none

def isBlank (s : String) : Bool := s.toList.all Expr.isWhitespace

/-- The name of a renderer or a locale. -/
def validId (maxLen : ℕ) (id : String) : Bool :=
  id ≠ "" && id.utf8ByteSize ≤ maxLen &&
    id.toList.all fun c => c.isAlphanum || c = '-' || c = '_' || c = '.'

def endsWithIgnoreCase (s suffix : String) : Bool :=
  suffix.toList.isSuffixOf (s.toList.map Char.toLower)

def rendererPaths (renderer : ThemeRendererManifest) : Option (List String) :=
  if renderer.layout.all (fun layout => layout = "game" || layout = "game-full") then do
    let entry ← normalizeRelativePath renderer.entry
    let styles ← renderer.styles.mapM normalizeRelativePath
    some (entry :: styles)
  else none

/-- The path of a locale; the messages of one may be in the manifest. -/
def localePath : ThemeLocaleEntry → Option (List String)
  | .inline messages => if messages.isObject then some [] else none
  | .json source =>
    if endsWithIgnoreCase source ".json" then (normalizeRelativePath source).map ([·]) else none
  | .module source =>
    if endsWithIgnoreCase source ".js" then (normalizeRelativePath source).map ([·]) else none

def validIconCollection (collection : Value) : Bool :=
  match (collection.get "prefix").bind Value.asStr,
    (collection.get "icons").bind Value.asObject with
  | some collectionPrefix, some icons =>
    collectionPrefix ≠ "" && collectionPrefix.utf8ByteSize ≤ 64 &&
      collectionPrefix.toList.all (fun c => c.isLower || c.isDigit || c = '-') &&
      !icons.isEmpty &&
      icons.all (fun (name, icon) =>
        name ≠ "" && icon.isObject && ((icon.get "body").bind Value.asStr).isSome) &&
      (collection.get "aliases").all fun aliases => aliases.asObject.any fun aliases =>
        aliases.all fun (name, other) =>
          name ≠ "" && other.isObject && ((other.get "parent").bind Value.asStr).isSome
  | _, _ => false

/-- The path of a collection of icons; a collection may be in the manifest. -/
def collectionPath (collection : Value) : Option (List String) :=
  match collection.asStr with
  | some path => (normalizeRelativePath path).map ([·])
  | none => if validIconCollection collection then some [] else none

def validUi (ui : Value) : Bool :=
  ((ui.get "icons").bind Value.asObject).any fun icons =>
    !icons.isEmpty && icons.all fun (position, icon) =>
      position ≠ "" && icon.asStr.any fun icon => icon ≠ ""

/-- The path of the icons of the user interface, if they are not in the manifest. -/
def uiPaths (feature : ThemeUiFeature) : Option (List String) :=
  if (feature.source.isNone && feature.icons.isEmpty) ||
      (feature.source.isSome && !feature.icons.isEmpty) ||
      feature.icons.any (fun (position, icon) => position = "" || icon = "") then none
  else match feature.source with
    | some source => (normalizeRelativePath source).map ([·])
    | none => some []

/-- The paths of a feature that a manifest may have. -/
def featurePaths {α : Type} (paths : α → Option (List String)) : Option α → Option (List String)
  | some feature => paths feature
  | none => some []

def localePaths (feature : ThemeLocaleFeature) : Option (List String) :=
  if feature.locales.isEmpty || 32 < feature.locales.length ||
      feature.locales.any (fun (locale, _) => !validId 32 locale) then none
  else (feature.locales.mapM fun locale => localePath locale.2).map List.flatten

def iconsPaths (feature : ThemeIconsFeature) : Option (List String) :=
  if feature.collections.isEmpty || 32 < feature.collections.length then none
  else (feature.collections.mapM collectionPath).map List.flatten

/-- The paths a manifest refers to, if it is valid. -/
def packagePaths (manifest : ThemeManifest) : Option (List String) :=
  if manifest.kind ≠ "rbph-theme" || manifest.apiVersion ≠ 1 || isBlank manifest.package.name ||
      isBlank manifest.package.version || 128 < manifest.features.renderers.length ||
      manifest.features.renderers.any (fun (id, renderer) =>
        !validId 120 id || !(renderer.surface = roundPage || renderer.surface = puzzlePage)) then
    none
  else do
    let renderers ← manifest.features.renderers.mapM fun renderer => rendererPaths renderer.2
    let locale ← featurePaths localePaths manifest.features.locale
    let icons ← featurePaths iconsPaths manifest.features.icons
    let ui ← featurePaths uiPaths manifest.features.ui
    some (renderers.flatten ++ locale ++ icons ++ ui)

/-! ## The files -/

section Files

variable (fromSlice : Bytes → Option ThemeManifest) (valueFromSlice : Bytes → Option Value)
  (files : List AssetUploadFile)

/-- The file at a path that is read: the first one. -/
def fileAt (path : String) : Option AssetUploadFile := files.find? (·.relativePath = path)

/-- What is read at a path. -/
def readBytes (path : String) : Option Bytes := (fileAt files path).map (·.bytes)

/-- A file of data holds what it is for. -/
def validDataFile (accepts : Value → Bool) (source : String) : Bool :=
  ((normalizeRelativePath source).bind (fileAt files)).any fun file =>
    file.bytes.length ≤ maxMetadataBytes && (valueFromSlice file.bytes).any accepts

/-- The sources of messages, of collections of icons and of the icons of the user interface. -/
def jsonSources (manifest : ThemeManifest) : List String :=
  (manifest.features.locale.elim [] (·.locales)).filterMap fun
    | (_, .json source) => some source
    | _ => none

def collectionSources (manifest : ThemeManifest) : List String :=
  (manifest.features.icons.elim [] (·.collections)).filterMap Value.asStr

def uiSources (manifest : ThemeManifest) : List String :=
  (manifest.features.ui.bind (·.source)).toList

def validateThemeFiles : Option ThemeManifest := do
  let manifestFile ← fileAt files manifestPath
  if maxMetadataBytes < manifestFile.bytes.length then none else
  let manifest ← fromSlice manifestFile.bytes
  let paths ← packagePaths manifest
  if paths.any (fun path => (fileAt files path).isNone) then none else
  if (jsonSources manifest).all (validDataFile valueFromSlice files Value.isObject) &&
      (collectionSources manifest).all (validDataFile valueFromSlice files validIconCollection) &&
      (uiSources manifest).all (validDataFile valueFromSlice files validUi) then
    some manifest
  else none

end Files

/-- A path of the archive that a manifest says something about, its own included. -/
def ThemeManifest.RefersTo (manifest : ThemeManifest) (path : String) : Prop :=
  path = manifestPath ∨ ∃ paths, packagePaths manifest = some paths ∧ path ∈ paths

/-! ## What a valid archive is like -/

/-- A path made of names. -/
def MadeOfNames (path : String) : Prop := ∀ s ∈ segments path, s ≠ "" ∧ s ≠ "." ∧ s ≠ ".."

lemma madeOfNames_of_normalize {path p : String} (h : normalizeRelativePath path = some p) :
    MadeOfNames p := by
  rw [normalizeRelativePath] at h
  split_ifs at h with hp
  cases h
  exact hp.2.2

lemma madeOfNames_manifestPath : MadeOfNames manifestPath :=
  List.forall_iff_forall_mem.mp (by decide +kernel)

/-- What is collected from the elements of a list comes from one of them. -/
lemma exists_of_mem_mapM {α β : Type} {f : α → Option β} {xs : List α} {ys : List β} {y : β}
    (h : xs.mapM f = some ys) (hy : y ∈ ys) : ∃ x ∈ xs, f x = some y := by
  induction xs generalizing ys with
  | nil =>
    cases h
    cases hy
  | cons x xs ih =>
    rw [List.mapM_cons] at h
    obtain ⟨y₁, hx, h⟩ := Option.bind_eq_some_iff.mp h
    obtain ⟨ys₁, hxs, h⟩ := Option.bind_eq_some_iff.mp h
    cases h
    rcases List.mem_cons.mp hy with rfl | hy
    · exact ⟨x, List.mem_cons_self, hx⟩
    · obtain ⟨x', hx', hf⟩ := ih hxs hy
      exact ⟨x', List.mem_cons_of_mem x hx', hf⟩

/-- All the paths a part of a manifest refers to are made of names. -/
def AllNames {α : Type} (paths : α → Option (List String)) : Prop :=
  ∀ a ps, paths a = some ps → ∀ p ∈ ps, MadeOfNames p

lemma allNames_normalize : AllNames fun path => (normalizeRelativePath path).map ([·]) := by
  intro path ps h p hp
  obtain ⟨p', hp', rfl⟩ := Option.map_eq_some_iff.mp h
  obtain rfl := List.mem_singleton.mp hp
  exact madeOfNames_of_normalize hp'

lemma AllNames.mapM {α : Type} {paths : α → Option (List String)} (h : AllNames paths) :
    AllNames fun as : List α => (as.mapM paths).map List.flatten := by
  intro as ps hps p hp
  obtain ⟨pss, hpss, rfl⟩ := Option.map_eq_some_iff.mp hps
  obtain ⟨ps, hmem, hp⟩ := List.mem_flatten.mp hp
  obtain ⟨a, -, ha⟩ := exists_of_mem_mapM hpss hmem
  exact h a ps ha p hp

lemma AllNames.featurePaths {α : Type} {paths : α → Option (List String)} (h : AllNames paths) :
    AllNames (featurePaths paths) := by
  intro feature ps hps
  cases feature with
  | none =>
    cases hps
    exact fun p hp => absurd hp List.not_mem_nil
  | some feature => exact h feature ps hps

lemma allNames_rendererPaths : AllNames rendererPaths := by
  intro renderer ps hps p hp
  rw [rendererPaths] at hps
  split_ifs at hps
  obtain ⟨entry, hentry, hps⟩ := Option.bind_eq_some_iff.mp hps
  obtain ⟨styles, hstyles, hps⟩ := Option.bind_eq_some_iff.mp hps
  cases hps
  rcases List.mem_cons.mp hp with rfl | hp
  · exact madeOfNames_of_normalize hentry
  · obtain ⟨style, -, hstyle⟩ := exists_of_mem_mapM hstyles hp
    exact madeOfNames_of_normalize hstyle

lemma allNames_localePath : AllNames localePath := by
  intro entry ps hps p hp
  cases entry with
  | inline messages =>
    rw [localePath] at hps
    split_ifs at hps
    cases hps
    cases hp
  | json source =>
    rw [localePath] at hps
    split_ifs at hps
    exact allNames_normalize source ps hps p hp
  | module source =>
    rw [localePath] at hps
    split_ifs at hps
    exact allNames_normalize source ps hps p hp

lemma allNames_localePaths : AllNames localePaths := by
  intro feature ps hps
  rw [localePaths] at hps
  split_ifs at hps
  have hentries : AllNames fun locale : String × ThemeLocaleEntry => localePath locale.2 :=
    fun locale => allNames_localePath locale.2
  exact hentries.mapM feature.locales ps hps

lemma allNames_iconsPaths : AllNames iconsPaths := by
  intro feature ps hps
  rw [iconsPaths] at hps
  split_ifs at hps
  have hcollections : AllNames collectionPath := by
    intro collection ps hps p hp
    rw [collectionPath] at hps
    split at hps
    · exact allNames_normalize _ ps hps p hp
    · split_ifs at hps
      cases hps
      cases hp
  exact hcollections.mapM feature.collections ps hps

lemma allNames_uiPaths : AllNames uiPaths := by
  intro feature ps hps p hp
  rw [uiPaths] at hps
  split_ifs at hps
  split at hps
  · exact allNames_normalize _ ps hps p hp
  · cases hps
    cases hp

/-- **The paths a manifest refers to** are made of names. -/
theorem allNames_packagePaths : AllNames packagePaths := by
  intro manifest ps hps p hp
  rw [packagePaths] at hps
  split_ifs at hps
  obtain ⟨renderers, hrenderers, hps⟩ := Option.bind_eq_some_iff.mp hps
  obtain ⟨locale, hlocale, hps⟩ := Option.bind_eq_some_iff.mp hps
  obtain ⟨icons, hicons, hps⟩ := Option.bind_eq_some_iff.mp hps
  obtain ⟨ui, hui, hps⟩ := Option.bind_eq_some_iff.mp hps
  cases hps
  rw [List.mem_append, List.mem_append, List.mem_append] at hp
  rcases hp with ((hp | hp) | hp) | hp
  · obtain ⟨paths, hpaths, hp⟩ := List.mem_flatten.mp hp
    obtain ⟨renderer, -, hrenderer⟩ := exists_of_mem_mapM hrenderers hpaths
    exact allNames_rendererPaths renderer.2 paths hrenderer p hp
  · exact allNames_localePaths.featurePaths _ locale hlocale p hp
  · exact allNames_iconsPaths.featurePaths _ icons hicons p hp
  · exact allNames_uiPaths.featurePaths _ ui hui p hp

lemma ThemeManifest.RefersTo.madeOfNames {manifest : ThemeManifest} {path : String}
    (h : manifest.RefersTo path) : MadeOfNames path := by
  obtain rfl | ⟨paths, hpaths, hp⟩ := h
  · exact madeOfNames_manifestPath
  · exact allNames_packagePaths manifest paths hpaths path hp

section Files

variable {fromSlice : Bytes → Option ThemeManifest} {valueFromSlice : Bytes → Option Value}
  {files : List AssetUploadFile} {manifest : ThemeManifest} {path : String}

/-- **There is a file** for every path a manifest refers to. -/
theorem exists_file (h : validateThemeFiles fromSlice valueFromSlice files = some manifest)
    (hpath : manifest.RefersTo path) : ∃ file, fileAt files path = some file := by
  obtain ⟨manifestFile, hfile, h⟩ := Option.bind_eq_some_iff.mp h
  split_ifs at h
  obtain ⟨read, -, h⟩ := Option.bind_eq_some_iff.mp h
  obtain ⟨paths, hpaths, h⟩ := Option.bind_eq_some_iff.mp h
  split_ifs at h with hall hdata
  cases h
  obtain rfl | ⟨paths', hpaths', hp⟩ := hpath
  · exact ⟨manifestFile, hfile⟩
  · obtain rfl : paths' = paths := Option.some.inj (hpaths'.symm.trans hpaths)
    rw [List.any_eq_true] at hall
    rw [← Option.isSome_iff_exists, ← Option.not_isNone]
    simp only [Bool.not_eq_true', Bool.eq_false_iff]
    exact fun hnone => hall ⟨path, hp, hnone⟩

end Files

end Frontend.Archive
