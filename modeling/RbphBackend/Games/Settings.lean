import Mathlib.Data.Int.Notation
import Mathlib.Tactic.Basic
import RbphBackend.Expr.Parser

set_option relaxedAutoImplicit false
set_option autoImplicit false

/-!
# The settings of a game

The settings of a game are a JSON object, in one column of its row. They are changed by patches that
are merged into them, and read with defaults for what is missing.

## Main definitions

* `Games.Value` — JSON values.
* `Games.mergePatch`, `Games.mergeSettingsPatch` — merging a patch.
* `Games.RbGameSettings.validatePatch` — the patches that are accepted.
* `Games.RbGameSettings.sanitize`, `Games.decodeTeamSettings` — what is read.

## Main results

* `Games.RbGameSettings.fromValue_toValue` — settings are read as they have been written.
-/

namespace Games

/-! ## Values -/

/-- A JSON value; a number that is not an integer as its text. -/
inductive Value where
  | null
  | bool (b : Bool)
  | int (n : ℤ)
  | float (text : String)
  | string (s : String)
  | array (items : List Value)
  | object (fields : List (String × Value))

/-- The fields of an object. -/
abbrev Fields := List (String × Value)

namespace Value

def isNull : Value → Bool
  | null => true
  | _ => false

def isObject : Value → Bool
  | object _ => true
  | _ => false

def isBoolean : Value → Bool
  | bool _ => true
  | _ => false

def asI64 : Value → Option ℤ
  | int n => if -9223372036854775808 ≤ n ∧ n ≤ 9223372036854775807 then some n else none
  | _ => none

def asStr : Value → Option String
  | string s => some s
  | _ => none

/-- `Value::get` of a key. -/
def get (key : String) : Value → Option Value
  | object fields => fields.lookup key
  | _ => none

/-- The fields of a structure, from an object or from an array in their order. -/
def structFields (names : List String) : Value → Option Fields
  | object fields => some fields
  | array items => if items.length = names.length then some (names.zip items) else none
  | _ => none

end Value

/-- `Map::remove`. -/
def removeKey (key : String) (fields : Fields) : Fields := fields.filter fun p => p.1 ≠ key

/-- `Map::insert`. -/
def insertKey (key : String) (value : Value) (fields : Fields) : Fields :=
  removeKey key fields ++ [(key, value)]

/-! ## Merging -/

mutual

/-- `merge_patch`. -/
def mergePatch (base : Value) : Value → Value
  | .object patch =>
    match base with
    | .object base => .object (mergeFields base patch)
    | _ => .object patch
  | patch => patch

/-- The keys of a patch, one after the other. -/
def mergeFields (base : Fields) : Fields → Fields
  | [] => base
  | (key, value) :: patch =>
    mergeFields
      (if value.isNull then removeKey key base
      else insertKey key (mergePatch ((base.lookup key).getD .null) value) (removeKey key base))
      patch

end

/-- The setting that may be null. -/
def isNullableSetting (path : List String) : Bool := decide (path = ["team", "max_members"])

mutual

/-- `merge_settings_patch_at`. -/
def mergeSettingsPatchAt (base : Value) : Value → List String → Value
  | .object patch, path =>
    match base with
    | .object base => .object (mergeSettingsFields base patch path)
    | _ => .object patch
  | patch, _ => patch

/-- The keys of a patch of the settings at `path`, one after the other. -/
def mergeSettingsFields (base : Fields) : Fields → List String → Fields
  | [], _ => base
  | (key, value) :: patch, path =>
    mergeSettingsFields
      (if value.isNull && !isNullableSetting (path ++ [key]) then removeKey key base
      else insertKey key
        (mergeSettingsPatchAt ((base.lookup key).getD .null) value (path ++ [key]))
        (removeKey key base))
      patch path

end

/-- `merge_settings_patch`. -/
def mergeSettingsPatch (base patch : Value) : Value := mergeSettingsPatchAt base patch []

/-- `sanitize_storage` of a value. -/
def sanitizeStorage (value : Value) : Value := if value.isObject then value else .object []

/-! ## Groups of settings -/

/-- `str::trim`. -/
def trim (s : String) : String :=
  String.ofList
    ((s.toList.dropWhile Expr.isWhitespace).reverse.dropWhile Expr.isWhitespace).reverse

inductive AvatarProvider where
  | cravatar
  | catavatar
  deriving DecidableEq

structure RbGameTeamSettings where
  maxMembers : Option ℤ
  allowDuplicateNames : Bool
  deriving DecidableEq

structure RbGameDisplaySettings where
  staffNickname : Option String
  staffAvatarEmail : Option String
  staffAvatarProvider : AvatarProvider
  delaySolveStats : Bool
  deriving DecidableEq

structure RbGameSettings where
  team : RbGameTeamSettings
  display : RbGameDisplaySettings
  ticket : Value

/-! ### Writing -/

def optionValue {α : Type} (f : α → Value) : Option α → Value
  | none => .null
  | some a => f a

def AvatarProvider.toValue : AvatarProvider → Value
  | .cravatar => .string "cravatar"
  | .catavatar => .string "catavatar"

def RbGameTeamSettings.toValue (s : RbGameTeamSettings) : Value :=
  .object [("max_members", optionValue .int s.maxMembers),
    ("allow_duplicate_names", .bool s.allowDuplicateNames)]

def RbGameDisplaySettings.toValue (s : RbGameDisplaySettings) : Value :=
  .object [("staff_nickname", optionValue .string s.staffNickname),
    ("staff_avatar_email", optionValue .string s.staffAvatarEmail),
    ("staff_avatar_provider", s.staffAvatarProvider.toValue),
    ("delay_solve_stats", .bool s.delaySolveStats)]

def RbGameSettings.toValue (s : RbGameSettings) : Value :=
  .object [("team", s.team.toValue), ("display", s.display.toValue), ("ticket", s.ticket)]

/-! ### Reading -/

/-- A number of 32 bits. -/
def decodeI32 : Value → Option ℤ
  | .int n => if -2147483648 ≤ n ∧ n ≤ 2147483647 then some n else none
  | _ => none

def decodeBool : Value → Option Bool
  | .bool b => some b
  | _ => none

/-- An optional field: it may be null or missing. -/
def decodeOption {α : Type} (f : Value → Option α) : Option Value → Option (Option α)
  | none | some .null => some none
  | some value => (f value).map some

/-- The variant of an enumeration, also as an object that has it as its only key. -/
def variantName : Value → Option String
  | .string s => some s
  | .object [(key, .null)] => some key
  | _ => none

def AvatarProvider.fromValue (value : Value) : Option AvatarProvider := do
  let name ← variantName value
  if name = "cravatar" then some .cravatar
  else if name = "catavatar" then some .catavatar
  else none

def RbGameTeamSettings.fromValue (value : Value) : Option RbGameTeamSettings := do
  let fields ← value.structFields ["max_members", "allow_duplicate_names"]
  let maxMembers ← decodeOption decodeI32 (fields.lookup "max_members")
  let allowDuplicateNames ← (fields.lookup "allow_duplicate_names").bind decodeBool
  some ⟨maxMembers, allowDuplicateNames⟩

def RbGameDisplaySettings.fromValue (value : Value) : Option RbGameDisplaySettings := do
  let fields ← value.structFields
    ["staff_nickname", "staff_avatar_email", "staff_avatar_provider", "delay_solve_stats"]
  let staffNickname ← decodeOption Value.asStr (fields.lookup "staff_nickname")
  let staffAvatarEmail ← decodeOption Value.asStr (fields.lookup "staff_avatar_email")
  let staffAvatarProvider ←
    (fields.lookup "staff_avatar_provider").bind AvatarProvider.fromValue
  let delaySolveStats ← (fields.lookup "delay_solve_stats").bind decodeBool
  some ⟨staffNickname, staffAvatarEmail, staffAvatarProvider, delaySolveStats⟩

def RbGameSettings.fromValue (value : Value) : Option RbGameSettings := do
  let fields ← value.structFields ["team", "display", "ticket"]
  let team ← (fields.lookup "team").bind RbGameTeamSettings.fromValue
  let display ← (fields.lookup "display").bind RbGameDisplaySettings.fromValue
  let ticket ← fields.lookup "ticket"
  some ⟨team, display, ticket⟩

/-- A number fits, if there is one. -/
def RbGameTeamSettings.Fits (s : RbGameTeamSettings) : Prop :=
  ∀ n, s.maxMembers = some n → -2147483648 ≤ n ∧ n ≤ 2147483647

lemma RbGameTeamSettings.fromValue_toValue {s : RbGameTeamSettings} (h : s.Fits) :
    fromValue s.toValue = some s := by
  obtain ⟨maxMembers, allowDuplicateNames⟩ := s
  cases maxMembers with
  | none => rfl
  | some n =>
    have hn : decodeI32 (.int n) = some n := if_pos (h n rfl)
    show (do
      let maxMembers ← (decodeI32 (.int n)).map some
      let allowDuplicateNames ← some allowDuplicateNames
      some (⟨maxMembers, allowDuplicateNames⟩ : RbGameTeamSettings)) = _
    rw [hn]
    rfl

lemma RbGameDisplaySettings.fromValue_toValue (s : RbGameDisplaySettings) :
    fromValue s.toValue = some s := by
  obtain ⟨nickname, email, provider, delay⟩ := s
  cases nickname <;> cases email <;> cases provider <;> rfl

/-- **Settings are read as they have been written.** -/
theorem RbGameSettings.fromValue_toValue {s : RbGameSettings} (h : s.team.Fits) :
    fromValue s.toValue = some s := by
  have hteam := RbGameTeamSettings.fromValue_toValue h
  have hdisplay := RbGameDisplaySettings.fromValue_toValue s.display
  show (do
    let team ← RbGameTeamSettings.fromValue s.team.toValue
    let display ← RbGameDisplaySettings.fromValue s.display.toValue
    let ticket ← some s.ticket
    some (⟨team, display, ticket⟩ : RbGameSettings)) = some s
  rw [hteam, hdisplay]
  rfl

/-! ### Defaults -/

def RbGameTeamSettings.default : RbGameTeamSettings := ⟨none, false⟩

def RbGameDisplaySettings.default : RbGameDisplaySettings := ⟨none, none, .cravatar, false⟩

def RbGameSettings.default : RbGameSettings := ⟨.default, .default, .object []⟩

/-- A text within bounds, trimmed. -/
def sanitizeText (maxLength : ℕ) (s : Option String) : Option String :=
  (s.map trim).filter fun s => !s.isEmpty && decide (s.length ≤ maxLength)

def RbGameDisplaySettings.sanitize (s : RbGameDisplaySettings) : RbGameDisplaySettings :=
  { s with
    staffNickname := sanitizeText 60 s.staffNickname
    staffAvatarEmail := sanitizeText 255 s.staffAvatarEmail }

/-- `RbGameSettings::sanitize`: the settings of a row. -/
def RbGameSettings.sanitize (value : Value) : RbGameSettings :=
  let settings := (fromValue (mergeSettingsPatch default.toValue value)).getD default
  { settings with
    display := settings.display.sanitize
    ticket := if settings.ticket.isObject then settings.ticket else default.ticket }

/-- `decode_setting_group` of the settings of teams. -/
def decodeTeamSettings (value : Value) : RbGameTeamSettings :=
  (RbGameTeamSettings.fromValue (mergePatch RbGameTeamSettings.default.toValue value)).getD .default

/-! ### Patches -/

/-- A text a patch may set: null, or not blank and within bounds. -/
def validText (maxLength : ℕ) (value : Value) : Bool :=
  value.isNull || value.asStr.any fun s => !(trim s).isEmpty && decide (s.length ≤ maxLength)

def RbGameTeamSettings.validatePatch : Value → Bool
  | .null => true
  | .object team => team.all fun (key, value) =>
    if key = "max_members" then
      value.isNull || value.asI64.any fun n => decide (0 < n ∧ n ≤ 2147483647)
    else if key = "allow_duplicate_names" then value.isBoolean
    else false
  | _ => false

def RbGameDisplaySettings.validatePatch : Value → Bool
  | .null => true
  | .object display => display.all fun (key, value) =>
    if key = "staff_nickname" then validText 60 value
    else if key = "staff_avatar_email" then validText 255 value
    else if key = "staff_avatar_provider" then (AvatarProvider.fromValue value).isSome
    else if key = "delay_solve_stats" then value.isBoolean
    else false
  | _ => false

def RbGameSettings.validatePatch : Value → Bool
  | .object root => root.all fun (key, value) =>
    if key = "team" then RbGameTeamSettings.validatePatch value
    else if key = "display" then RbGameDisplaySettings.validatePatch value
    else if key = "ticket" then value.isNull || value.isObject
    else false
  | _ => false

/-! ### Duplicate names -/

/-- The value at a path of the settings. -/
def Value.atPath (value : Value) : List String → Option Value
  | [] => some value
  | key :: path => (value.get key).bind fun value => value.atPath path

/-- The setting that two teams may have one name is true. -/
def allowDuplicateNames (settings : Value) : Bool :=
  match settings.atPath ["team", "allow_duplicate_names"] with
  | some (.bool b) => b
  | _ => false

end Games
