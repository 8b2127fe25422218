import Mathlib.Data.Nat.Notation
import RbphBackend.Backend.Expiring
import RbphBackend.Numeric.BigInt
import RbphBackend.Numeric.Timestamp

set_option relaxedAutoImplicit false
set_option autoImplicit false

/-!
# The key-value store of the puzzle backends

Each call is one statement on the row of its key, followed by a read of the row where the statement
has written nothing. A row whose deadline has passed stays in the table, and every statement has
its own way with it.

## Main definitions

* `Backend.KvRow`, `Backend.Rows` — the table.
* `Backend.setKv`, `Backend.incrementKv`, `Backend.setKvIfAbsent`, `Backend.compareAndSetKv`,
  `Backend.deleteKv`, `Backend.getKvEntry` — the statements.
* `Backend.KvCall`, `Backend.exec`, `Backend.replies` — the calls and their replies in a run.
* `Backend.Spec.exec`, `Backend.Spec.Run` — a map with expiry, and the replies it may give.
* `Backend.Clean` — a call that does not come upon an expired row it cannot deal with.

## Main results

* `Backend.exec_refines` — one clean call.
* `Backend.kv_refines_of_runs` — any number of clean calls.
-/

namespace Backend

open Numeric Expiring

abbrev Id := ℕ

/-! ## The table -/

/-- The scopes of the store. -/
inductive BackendScope where
  | global
  | team (teamId : Id)
  | puzzle (puzzleId : Id)
  | teamPuzzle (teamId puzzleId : Id)
  deriving DecidableEq

/-- The key of a row of `rb_puzzle_kv`, by its unique index. -/
structure KvKey where
  gameId : Id
  scope : BackendScope
  key : String
  deriving DecidableEq

/-- A row of `rb_puzzle_kv`; the value is a JSON document. -/
structure KvRow where
  value : String
  version : ℤ
  expiresAt : Option ℤ
  deriving DecidableEq

abbrev Rows := KvKey → Option KvRow

/-- The row's deadline has not passed. -/
def KvRow.live (now : ℤ) (row : KvRow) : Bool :=
  match row.expiresAt with
  | none => true
  | some expiresAt => decide (now < expiresAt)

inductive PuzzleBackendKvExpiry where
  | preserve
  | permanent
  | ttl (ttlMs : ℤ)
  deriving DecidableEq

/-- Double-precision arithmetic, as the database does it: a number as a document, and the sum of a
document's number and an amount; there is none where the document is no number or the sum is out
of range. -/
structure Doubles where
  Double : Type
  isFinite : Double → Bool
  toJsonb : Double → String
  plus : String → Double → Option String

/-- The instants of a call: of its statement, of the read that may follow, and of its reply. -/
structure Instants where
  statement : ℤ
  reread : ℤ
  server : ℤ
  statement_le : statement ≤ reread
  reread_le : reread ≤ server

/-! ## The statements -/

/-- `(preserve_expiry, ttl_ms)`. -/
def PuzzleBackendKvExpiry.params : PuzzleBackendKvExpiry → Bool × Option ℤ
  | .preserve => (true, none)
  | .permanent => (false, none)
  | .ttl ttlMs => (false, some ttlMs)

/-- The `expires_at` of the row proposed for insertion. -/
def excludedExpiresAt (now : ℤ) : Option ℤ → Except String (Option ℤ)
  | none => .ok none
  | some ttlMs => (Timestamp.check (now + ttlMs * 1000)).map some

/-- The constraint `rb_ck_puzzle_kv_key`. -/
def checkKey (key : KvKey) : Except String Unit :=
  if 0 < key.key.length ∧ key.key.length ≤ 255 then .ok () else .error "rb_ck_puzzle_kv_key"

/-- The row an upsert leaves: the default version, or the next one. -/
def upsert (old : Option KvRow) (value : String) (expiresAt : Option ℤ) : KvRow where
  value := value
  version := (old.map (·.version + 1)).getD 1
  expiresAt := expiresAt

/-- The row has expired. -/
def expired (now : ℤ) (old : Option KvRow) : Bool := old.any fun row => !row.live now

section Statements

variable (now : ℤ) (key : KvKey) (old : Option KvRow)

/-- `get_kv_entry_conn`. -/
def getKvEntry : Option KvRow := old.filter (·.live now)

/-- `set_kv_conn`. -/
def setKv (value : String) (expiry : PuzzleBackendKvExpiry) : Except String KvRow := do
  let (preserveExpiry, ttlMs) := expiry.params
  checkKey key
  let excluded ← excludedExpiresAt now ttlMs
  return upsert old value
    (old.elim excluded fun row => if preserveExpiry then row.expiresAt else excluded)

/-- `increment_kv_conn`. -/
def incrementKv (D : Doubles) (amount : D.Double) (expiry : PuzzleBackendKvExpiry) :
    Except String KvRow :=
  let (preserveExpiry, ttlMs) := expiry.params
  if D.isFinite amount then do
    checkKey key
    let excluded ← excludedExpiresAt now ttlMs
    match old with
    | none => return upsert old (D.toJsonb amount) excluded
    | some row =>
      if row.live now then
        match D.plus row.value amount with
        | none => throw "null value in column \"value\""
        | some value =>
          return upsert old value (if preserveExpiry then row.expiresAt else excluded)
      else return upsert old (D.toJsonb amount) excluded
  else .error "KV increment amount must be a finite number"

/-- `set_kv_if_absent_conn`: the row written, if one is. -/
def setKvIfAbsent (value : String) (ttlMs : Option ℤ) : Except String (Option KvRow) := do
  checkKey key
  let excluded ← excludedExpiresAt now ttlMs
  if old.isNone ∨ expired now old then return some (upsert old value excluded) else return none

/-- `compare_and_set_kv_conn`: the row written, if one is. -/
def compareAndSetKv (expectedVersion : ℤ) (value : String) (expiry : PuzzleBackendKvExpiry) :
    Except String (Option KvRow) :=
  let (preserveExpiry, ttlMs) := expiry.params
  match old with
  | none => .ok none
  | some row =>
    if row.version = expectedVersion ∧ row.live now then do
      let excluded ← excludedExpiresAt now ttlMs
      return some (upsert old value (if preserveExpiry then row.expiresAt else excluded))
    else .ok none

/-- `delete_kv_conn`. -/
def deleteKv : Bool := old.isSome

end Statements

/-! ## The calls -/

structure PuzzleBackendKvMutation where
  applied : Bool
  entry : Option KvRow
  serverTime : ℤ
  deriving DecidableEq

/-- What a call replies. -/
inductive KvReply where
  | value (value : Option String)
  | entry (entry : Option KvRow)
  | mutation (result : PuzzleBackendKvMutation)
  | deleted (deleted : Bool)
  deriving DecidableEq

/-- The calls on the store. -/
inductive KvCall (D : Doubles) where
  | get (key : KvKey)
  | getEntry (key : KvKey)
  | set (key : KvKey) (value : String) (expiry : PuzzleBackendKvExpiry)
  | increment (key : KvKey) (amount : D.Double) (expiry : PuzzleBackendKvExpiry)
  | setIfAbsent (key : KvKey) (value : String) (ttlMs : Option ℤ)
  | compareAndSet (key : KvKey) (expectedVersion : ℤ) (value : String)
      (expiry : PuzzleBackendKvExpiry)
  | delete (key : KvKey)

/-- The key of a call. -/
def KvCall.key {D : Doubles} : KvCall D → KvKey
  | get key | getEntry key | set key _ _ | increment key _ _ | setIfAbsent key _ _
  | compareAndSet key _ _ _ | delete key => key

section Calls

variable {D : Doubles} (inGame : Id → BackendScope → Bool) (at_ : Instants)

/-- `current_kv_mutation_conn`, after a statement that wrote the row `applied` or nothing. -/
def currentKvMutation (old applied : Option KvRow) : KvReply :=
  .mutation ⟨applied.isSome, applied.or (getKvEntry at_.reread old), at_.server⟩

/-- A call on the row of its key: its reply and the row it leaves. -/
def execRow (old : Option KvRow) : KvCall D → Except String (KvReply × Option KvRow)
  | .get _ => .ok (.value ((getKvEntry at_.statement old).map (·.value)), old)
  | .getEntry _ => .ok (.entry (getKvEntry at_.statement old), old)
  | .set key value expiry => do
    let row ← setKv at_.statement key old value expiry
    return (currentKvMutation at_ old (some row), some row)
  | .increment key amount expiry => do
    let row ← incrementKv at_.statement key old D amount expiry
    return (currentKvMutation at_ old (some row), some row)
  | .setIfAbsent key value ttlMs => do
    let row ← setKvIfAbsent at_.statement key old value ttlMs
    return (currentKvMutation at_ old row, row.or old)
  | .compareAndSet _ expectedVersion value expiry => do
    let row ← compareAndSetKv at_.statement old expectedVersion value expiry
    return (currentKvMutation at_ old row, row.or old)
  | .delete _ => .ok (.deleted (deleteKv old), none)

/-- A call: `require_scope_in_game_conn`, then its statements. One that fails changes nothing. -/
def exec (call : KvCall D) (rows : Rows) : Except String KvReply × Rows :=
  if inGame call.key.gameId call.key.scope then
    match execRow at_ (rows call.key) call with
    | .error e => (.error e, rows)
    | .ok (reply, row) => (.ok reply, Function.update rows call.key row)
  else (.error "backend scope does not belong to current game", rows)

end Calls

/-- The replies to calls made one after the other, and the rows they leave. -/
def replies {D : Doubles} (inGame : Id → BackendScope → Bool) :
    List (Instants × KvCall D) → Rows → List (Except String KvReply) × Rows
  | [], rows => ([], rows)
  | (at_, call) :: calls, rows =>
    let (reply, rows) := exec inGame at_ call rows
    let (rest, rows) := replies inGame calls rows
    (reply :: rest, rows)

/-! ## A map with expiry -/

namespace Spec

/-- What a key holds: a document and its version. -/
structure Value where
  document : String
  version : ℤ

/-- The map. -/
abbrev Map := KvKey → Option (Entry Value)

/-- The entry as a reply shows it. -/
def show_ (e : Entry Value) : KvRow := ⟨e.value.document, e.value.version, e.expiresAt⟩

section Exec

variable {D : Doubles} (fresh : ℤ) (inGame : Id → BackendScope → Bool) (at_ : Instants)

/-- The deadline an expiry option gives to an entry that replaces `old`. -/
def deadline (old : Option (Entry Value)) : PuzzleBackendKvExpiry → Except String (Option ℤ)
  | .preserve => .ok (old.bind (·.expiresAt))
  | .permanent => .ok none
  | .ttl ttlMs => (Timestamp.check (at_.statement + ttlMs * 1000)).map some

/-- The entry that replaces `old`: a new entry has the version `fresh`. -/
def replace (old : Option (Entry Value)) (document : String) (expiresAt : Option ℤ) :
    Entry Value where
  value := ⟨document, (old.map (·.value.version + 1)).getD fresh⟩
  expiresAt := expiresAt

/-- The reply of a call that has written `e`. -/
def applied (e : Entry Value) : KvReply := .mutation ⟨true, some (show_ e), at_.server⟩

/-- The reply of a call that has written nothing where there is `later`. -/
def refused (later : Option (Entry Value)) : KvReply :=
  .mutation ⟨false, later.map show_, at_.server⟩

/-- A call on a key that shows `old` when the statement runs and `later` when it is read again:
its reply and the entry it writes; `none` leaves the key as it is. -/
def execEntry (old later : Option (Entry Value)) :
    KvCall D → Except String (KvReply × Option (Option (Entry Value)))
  | .get _ => .ok (.value (old.map (·.value.document)), none)
  | .getEntry _ => .ok (.entry (old.map show_), none)
  | .set key value expiry => do
    checkKey key
    let e := replace fresh old value (← deadline at_ old expiry)
    return (applied at_ e, some (some e))
  | .increment key amount expiry =>
    if D.isFinite amount then do
      checkKey key
      let expiresAt ← deadline at_ old expiry
      match (match old with
        | none => some (D.toJsonb amount)
        | some e => D.plus e.value.document amount) with
      | none => throw "null value in column \"value\""
      | some document =>
        let e := replace fresh old document expiresAt
        return (applied at_ e, some (some e))
    else .error "KV increment amount must be a finite number"
  | .setIfAbsent key value ttlMs => do
    checkKey key
    let expiresAt ← excludedExpiresAt at_.statement ttlMs
    match old with
    | some _ => return (refused at_ later, none)
    | none =>
      let e := replace fresh none value expiresAt
      return (applied at_ e, some (some e))
  | .compareAndSet _ expectedVersion value expiry =>
    match old with
    | none => .ok (refused at_ later, none)
    | some e₀ =>
      if e₀.value.version = expectedVersion then do
        let e := replace fresh old value (← deadline at_ old expiry)
        return (applied at_ e, some (some e))
      else .ok (refused at_ later, none)
  | .delete _ => .ok (.deleted old.isSome, some none)

/-- A call on the map: an entry whose deadline has passed is absent. -/
def exec (call : KvCall D) (m : Map) : Except String KvReply × Map :=
  if inGame call.key.gameId call.key.scope then
    match execEntry fresh at_ (lookup m at_.statement call.key) (lookup m at_.reread call.key)
      call with
    | .error e => (.error e, m)
    | .ok (reply, none) => (.ok reply, m)
    | .ok (reply, some e) => (.ok reply, Function.update m call.key e)
  else (.error "backend scope does not belong to current game", m)

end Exec

/-- The replies the map may give to calls made one after the other. -/
def Run {D : Doubles} (inGame : Id → BackendScope → Bool) :
    List (Instants × KvCall D) → Map → List (Except String KvReply) → Map → Prop
  | [], m, rs, m' => rs = [] ∧ m = m'
  | (at_, call) :: calls, m, rs, m' =>
    ∃ fresh rest, rs = (exec fresh inGame at_ call m).1 :: rest ∧
      Run inGame calls (exec fresh inGame at_ call m).2 rest m'

end Spec

/-! ## One call -/

/-- The row as an entry of the map. -/
def KvRow.entry (row : KvRow) : Entry Spec.Value := ⟨⟨row.value, row.version⟩, row.expiresAt⟩

/-- The rows as a map with expiry. -/
def entries (rows : Rows) : Spec.Map := fun k => (rows k).map KvRow.entry

/-- What a row shows at an instant. -/
def visible (now : ℤ) (old : Option KvRow) : Option (Entry Spec.Value) :=
  (getKvEntry now old).map KvRow.entry

/-- The call does not preserve the deadline of an expired row, and deletes none. -/
def Clean {D : Doubles} (rows : Rows) (at_ : Instants) : KvCall D → Prop
  | .set key _ .preserve | .delete key => expired at_.statement (rows key) = false
  | _ => True

/-- What a call on the map writes is the row it leaves. -/
def Writes (old row : Option KvRow) : Option (Option (Entry Spec.Value)) → Prop
  | none => row = old
  | some e => e = row.map KvRow.entry

section Row

variable {D : Doubles} {at_ : Instants} {key : KvKey} {now : ℤ} {old : Option KvRow} {row : KvRow}

@[simp] lemma show_entry : Spec.show_ row.entry = row := rfl

@[simp] lemma visible_none : visible now none = none := rfl

lemma visible_of_live (h : row.live now = true) : visible now (some row) = some row.entry := by
  simp [visible, getKvEntry, Option.filter, h]

lemma visible_of_not_live (h : row.live now = false) : visible now (some row) = none := by
  simp [visible, getKvEntry, Option.filter, h]

lemma show_visible : (visible now old).map Spec.show_ = getKvEntry now old := by
  rw [visible, Option.map_map]
  exact Option.map_id'

/-- The version of a new entry is the next one of the row. -/
def nextVersion (old : Option KvRow) : ℤ := (old.map (·.version + 1)).getD 1

/-- The entry that a call writes. -/
lemma replace_visible (value : String) (expiresAt : Option ℤ) :
    Spec.replace (nextVersion old) (visible now old) value expiresAt =
      (upsert old value expiresAt).entry := by
  cases old with
  | none => rfl
  | some row =>
    cases hl : row.live now with
    | false =>
      rw [visible_of_not_live hl]
      rfl
    | true =>
      rw [visible_of_live hl]
      rfl

/-- The entry that a call on an absent key writes. -/
lemma replace_none (value : String) (expiresAt : Option ℤ) :
    Spec.replace (nextVersion old) none value expiresAt = (upsert old value expiresAt).entry := rfl

/-- The deadline of a new entry. -/
lemma deadline_none (expiry : PuzzleBackendKvExpiry) :
    Spec.deadline at_ none expiry = excludedExpiresAt at_.statement expiry.params.2 := by
  cases expiry <;> rfl

/-- The deadline of an entry that replaces a row. -/
lemma deadline_entry (expiry : PuzzleBackendKvExpiry) :
    Spec.deadline at_ (some row.entry) expiry =
      (excludedExpiresAt at_.statement expiry.params.2).map fun excluded =>
        if expiry.params.1 then row.expiresAt else excluded := by
  cases expiry with
  | preserve => rfl
  | permanent => rfl
  | ttl ttlMs =>
    show (Timestamp.check _).map some = ((Timestamp.check _).map some).map _
    cases Timestamp.check (at_.statement + ttlMs * 1000) <;> rfl

/-- The call meets the map's: it fails the same way, or it replies the same and writes its row. -/
def RowRefines (at_ : Instants) (old : Option KvRow) (call : KvCall D) : Prop :=
  match execRow at_ old call with
  | .error e => Spec.execEntry (nextVersion old) at_ (visible at_.statement old)
      (visible at_.reread old) call = .error e
  | .ok (reply, row) => ∃ w, Spec.execEntry (nextVersion old) at_ (visible at_.statement old)
      (visible at_.reread old) call = .ok (reply, w) ∧ Writes old row w

/-- A set refines the map's, unless it preserves the deadline of an expired row. -/
lemma set_refines {value : String} {expiry : PuzzleBackendKvExpiry}
    (h : expiry = .preserve → expired at_.statement old = false) :
    RowRefines at_ old (.set key value expiry : KvCall D) := by
  have hdeadline : Spec.deadline at_ (visible at_.statement old) expiry =
      (excludedExpiresAt at_.statement expiry.params.2).map fun excluded =>
        old.elim excluded fun row => if expiry.params.1 then row.expiresAt else excluded := by
    cases old with
    | none =>
      rw [visible_none, deadline_none]
      cases excludedExpiresAt at_.statement expiry.params.2 <;> rfl
    | some row =>
      cases hl : row.live at_.statement with
      | true =>
        rw [visible_of_live hl, deadline_entry]
        rfl
      | false =>
        rw [visible_of_not_live hl, deadline_none]
        have hne : expiry.params.1 = false := by
          cases expiry with
          | preserve => simp [expired, hl] at h
          | permanent => rfl
          | ttl ttlMs => rfl
        rw [hne]
        cases excludedExpiresAt at_.statement expiry.params.2 <;> rfl
  simp only [RowRefines, execRow, Spec.execEntry, setKv, hdeadline, replace_visible]
  cases checkKey key with
  | error e => rfl
  | ok u =>
    cases excludedExpiresAt at_.statement expiry.params.2 with
    | error e => rfl
    | ok excluded => exact ⟨_, rfl, rfl⟩

/-- An increment refines the map's: it starts an expired row anew. -/
lemma increment_refines {amount : D.Double} {expiry : PuzzleBackendKvExpiry} :
    RowRefines at_ old (.increment key amount expiry) := by
  simp only [RowRefines, execRow, Spec.execEntry, incrementKv, replace_visible]
  cases D.isFinite amount with
  | false => rfl
  | true =>
    cases checkKey key with
    | error e => rfl
    | ok u =>
      cases old with
      | none =>
        rw [visible_none, deadline_none]
        cases excludedExpiresAt at_.statement expiry.params.2 with
        | error e => rfl
        | ok excluded => exact ⟨_, rfl, rfl⟩
      | some row =>
        cases hl : row.live at_.statement with
        | false =>
          rw [visible_of_not_live hl, deadline_none]
          cases excludedExpiresAt at_.statement expiry.params.2 with
          | error e => rfl
          | ok excluded =>
            simp only [hl, Bool.false_eq_true, if_true, if_false]
            exact ⟨_, rfl, rfl⟩
        | true =>
          rw [visible_of_live hl, deadline_entry]
          cases excludedExpiresAt at_.statement expiry.params.2 with
          | error e => rfl
          | ok excluded =>
            have hp' : D.plus row.entry.value.document amount = D.plus row.value amount := rfl
            cases hp : D.plus row.value amount with
            | none =>
              simp only [hl, hp, hp', if_true]
              rfl
            | some value =>
              simp only [hl, hp, hp', if_true]
              exact ⟨_, rfl, rfl⟩

/-- A claim refines the map's: an expired row is there to be claimed. -/
lemma setIfAbsent_refines {value : String} {ttlMs : Option ℤ} :
    RowRefines at_ old (.setIfAbsent key value ttlMs : KvCall D) := by
  simp only [RowRefines, execRow, Spec.execEntry, setKvIfAbsent, replace_none]
  cases checkKey key with
  | error e => rfl
  | ok u =>
    cases excludedExpiresAt at_.statement ttlMs with
    | error e => rfl
    | ok excluded =>
      cases old with
      | none => exact ⟨_, rfl, rfl⟩
      | some row =>
        cases hl : row.live at_.statement with
        | false =>
          rw [visible_of_not_live hl]
          have he : expired at_.statement (some row) = true := by simp [expired, hl]
          simp only [he, or_true, if_true]
          exact ⟨_, rfl, rfl⟩
        | true =>
          rw [visible_of_live hl]
          have he : expired at_.statement (some row) = false := by simp [expired, hl]
          simp only [he, Option.isNone_some, or_self, Bool.false_eq_true, if_false]
          refine ⟨none, ?_, rfl⟩
          show Except.ok _ = Except.ok _
          rw [Spec.refused, show_visible]
          rfl

/-- A comparison refines the map's. -/
lemma compareAndSet_refines {expectedVersion : ℤ} {value : String}
    {expiry : PuzzleBackendKvExpiry} :
    RowRefines at_ old (.compareAndSet key expectedVersion value expiry : KvCall D) := by
  have hrefused : ∀ old : Option KvRow,
      Spec.refused at_ (visible at_.reread old) = currentKvMutation at_ old none := by
    intro old
    rw [Spec.refused, show_visible]
    rfl
  simp only [RowRefines, execRow, Spec.execEntry, compareAndSetKv, replace_visible, hrefused]
  cases old with
  | none => exact ⟨none, rfl, rfl⟩
  | some row =>
    cases hl : row.live at_.statement with
    | false =>
      rw [visible_of_not_live hl]
      simp only [hl, Bool.false_eq_true, and_false, if_false]
      exact ⟨none, rfl, rfl⟩
    | true =>
      rw [visible_of_live hl]
      by_cases hv : row.version = expectedVersion
      · have hv' : row.entry.value.version = expectedVersion := hv
        simp only [hl, hv, hv', and_self, if_true, deadline_entry]
        cases excludedExpiresAt at_.statement expiry.params.2 with
        | error e => rfl
        | ok excluded => exact ⟨_, rfl, rfl⟩
      · have hv' : row.entry.value.version ≠ expectedVersion := hv
        simp only [hv, hv', false_and, if_false]
        exact ⟨none, rfl, rfl⟩

/-- A delete refines the map's, unless the row has expired. -/
lemma delete_refines (h : expired at_.statement old = false) :
    RowRefines at_ old (.delete key : KvCall D) := by
  refine ⟨some none, ?_, rfl⟩
  show Except.ok _ = Except.ok _
  cases old with
  | none => rfl
  | some row =>
    have hl : row.live at_.statement = true := by simpa [expired] using h
    rw [visible_of_live hl]
    rfl

end Row

/-! ## Runs -/

/-- The calls are made one after the other from instant `now` on. -/
def InOrder {D : Doubles} : ℤ → List (Instants × KvCall D) → Prop
  | _, [] => True
  | now, (at_, _) :: calls => now ≤ at_.statement ∧ InOrder at_.server calls

/-- Every call is clean when it is made. -/
def CleanRun {D : Doubles} (inGame : Id → BackendScope → Bool) :
    Rows → List (Instants × KvCall D) → Prop
  | _, [] => True
  | rows, (at_, call) :: calls =>
    Clean rows at_ call ∧ CleanRun inGame (exec inGame at_ call rows).2 calls

section Runs

variable {D : Doubles} {inGame : Id → BackendScope → Bool} {at_ : Instants} {call : KvCall D}
  {rows : Rows} {m : Spec.Map} {now : ℤ} {calls : List (Instants × KvCall D)}

instance : Decidable (Clean rows at_ call) := by
  unfold Clean
  split <;> infer_instance

/-- What the rows show as a map. -/
lemma lookup_entries (k : KvKey) : lookup (entries rows) now k = visible now (rows k) := by
  rw [lookup, entries]
  cases h : rows k with
  | none => rfl
  | some row =>
    have hlive : row.entry.live now = row.live now := rfl
    cases hl : row.live now with
    | true => simp [visible_of_live hl, Option.filter, hlive, hl]
    | false => simp [visible_of_not_live hl, Option.filter, hlive, hl]

/-- Writing a row writes its entry. -/
lemma entries_update (k : KvKey) (row : Option KvRow) :
    entries (Function.update rows k row) =
      Function.update (entries rows) k (row.map KvRow.entry) := by
  funext k'
  by_cases hk : k' = k
  · subst hk
    simp [entries]
  · simp [entries, Function.update_of_ne hk]

/-- A clean call refines the map's, on the row of its key. -/
lemma row_refines (h : Clean rows at_ call) : RowRefines at_ (rows call.key) call := by
  cases call with
  | get key =>
    refine ⟨none, ?_, rfl⟩
    show Except.ok (KvReply.value _, none) = Except.ok (KvReply.value _, none)
    rw [visible, Option.map_map]
    rfl
  | getEntry key =>
    refine ⟨none, ?_, rfl⟩
    show Except.ok (KvReply.entry _, none) = Except.ok (KvReply.entry _, none)
    rw [show_visible]
  | set key value expiry =>
    refine set_refines fun he => ?_
    subst he
    exact h
  | increment key amount expiry => exact increment_refines
  | setIfAbsent key value ttlMs => exact setIfAbsent_refines
  | compareAndSet key expectedVersion value expiry => exact compareAndSet_refines
  | delete key => exact delete_refines h

/-- **One clean call** replies as the map does, and leaves rows that show what the map shows. -/
theorem exec_refines (hm : AgreeFrom now (entries rows) m) (hnow : now ≤ at_.statement)
    (hclean : Clean rows at_ call) : ∃ fresh,
      (Spec.exec fresh inGame at_ call m).1 = (exec inGame at_ call rows).1 ∧
      AgreeFrom at_.statement (entries (exec inGame at_ call rows).2)
        (Spec.exec fresh inGame at_ call m).2 := by
  have hagree := hm.of_le hnow
  have hold : lookup m at_.statement call.key = visible at_.statement (rows call.key) := by
    rw [← hagree.lookup_eq, lookup_entries]
  have hlater : lookup m at_.reread call.key = visible at_.reread (rows call.key) := by
    rw [← hagree at_.reread at_.statement_le, lookup_entries]
  have hrow := row_refines hclean
  refine ⟨nextVersion (rows call.key), ?_⟩
  unfold exec Spec.exec
  rw [hold, hlater]
  cases inGame call.key.gameId call.key.scope with
  | false => exact ⟨rfl, hagree⟩
  | true =>
    unfold RowRefines at hrow
    cases hx : execRow at_ (rows call.key) call with
    | error e =>
      rw [hx] at hrow
      dsimp only at hrow
      rw [hrow]
      exact ⟨rfl, hagree⟩
    | ok r =>
      obtain ⟨reply, row⟩ := r
      rw [hx] at hrow
      obtain ⟨w, hw, hwrites⟩ := hrow
      rw [hw]
      cases w with
      | none =>
        have hwrites : row = rows call.key := hwrites
        subst hwrites
        refine ⟨rfl, ?_⟩
        simpa only [if_true, Function.update_eq_self] using hagree
      | some e =>
        have hwrites : e = row.map KvRow.entry := hwrites
        subst hwrites
        refine ⟨rfl, ?_⟩
        have h := hagree.update call.key (row.map KvRow.entry)
        rw [← entries_update] at h
        exact h

/-- Clean calls reply as the map does, by induction on the calls. -/
lemma run_refines (hm : AgreeFrom now (entries rows) m) (horder : InOrder now calls)
    (hclean : CleanRun inGame rows calls) :
    ∃ m', Spec.Run inGame calls m (replies inGame calls rows).1 m' := by
  induction calls generalizing now rows m with
  | nil => exact ⟨m, rfl, rfl⟩
  | cons c calls ih =>
    obtain ⟨at_, call⟩ := c
    obtain ⟨hnow, horder⟩ := horder
    obtain ⟨hcall, hclean⟩ := hclean
    obtain ⟨fresh, hreply, hm'⟩ := exec_refines hm hnow hcall
    have hserver : at_.statement ≤ at_.server := Int.le_trans at_.statement_le at_.reread_le
    obtain ⟨m', hrun⟩ := ih (hm'.of_le hserver) horder hclean
    refine ⟨m', fresh, (replies inGame calls (exec inGame at_ call rows).2).1, ?_, hrun⟩
    rw [hreply]
    rfl

/-- A set that preserves no passed deadline and gives none leaves a row that is there. -/
lemma live_of_set {key : KvKey} {value : String} {expiry : PuzzleBackendKvExpiry}
    {old : Option KvRow} {row : KvRow}
    (hclean : expiry = .preserve → expired now old = false)
    (hexpiry : ∀ ttlMs, expiry = .ttl ttlMs → 0 < ttlMs)
    (h : setKv now key old value expiry = .ok row) : row.live now = true ∧ row.value = value := by
  obtain ⟨u, -, h⟩ := bind_eq_ok.mp h
  obtain ⟨excluded, hexcluded, h⟩ := bind_eq_ok.mp h
  obtain rfl := pure_eq_ok.mp h
  refine ⟨?_, rfl⟩
  cases expiry with
  | preserve =>
    obtain rfl := Except.ok.inj hexcluded
    cases old with
    | none => rfl
    | some old =>
      have hlive : old.live now = true := by simpa [expired] using hclean rfl
      exact hlive
  | permanent =>
    obtain rfl := Except.ok.inj hexcluded
    cases old <;> rfl
  | ttl ttlMs =>
    have hpos := hexpiry ttlMs rfl
    obtain ⟨t, ht, rfl⟩ := map_eq_ok.mp hexcluded
    obtain ⟨-, rfl⟩ := Timestamp.check_eq_ok.mp ht
    have hlt : now < now + ttlMs * 1000 := by omega
    have hlive : ∀ row : KvRow, row.expiresAt = some (now + ttlMs * 1000) →
        row.live now = true := by
      intro row hrow
      simp only [KvRow.live, hrow, decide_eq_true_eq]
      exact hlt
    cases old <;> exact hlive _ rfl

/-- What a set that succeeds has done. -/
lemma exec_set_eq_ok {key : KvKey} {value : String} {expiry : PuzzleBackendKvExpiry}
    {reply : KvReply} (h : (exec inGame at_ (.set key value expiry : KvCall D) rows).1 = .ok reply) :
    inGame key.gameId key.scope = true ∧
      ∃ row, setKv at_.statement key (rows key) value expiry = .ok row ∧
        (exec inGame at_ (.set key value expiry : KvCall D) rows).2 =
          Function.update rows key (some row) := by
  unfold exec at h ⊢
  by_cases hgame : inGame key.gameId key.scope = true
  · simp only [KvCall.key, hgame, if_true, execRow] at h ⊢
    cases hx : setKv at_.statement key (rows key) value expiry with
    | error e =>
      rw [hx] at h
      simp [bind, Except.bind] at h
    | ok row => exact ⟨trivial, row, rfl, rfl⟩
  · simp [KvCall.key, hgame] at h

/-- What a get replies. -/
lemma exec_get {key : KvKey} (h : inGame key.gameId key.scope = true) :
    (exec inGame at_ (.get key : KvCall D) rows).1 =
      .ok (.value ((getKvEntry at_.statement (rows key)).map (·.value))) := by
  simp [exec, execRow, KvCall.key, h]

/-- **The store refines a map with expiry**: in every run whose calls are clean, each call replies
what the map may reply, and what is set is there right after. -/
theorem kv_refines_of_runs (horder : InOrder now calls) (hclean : CleanRun inGame rows calls) :
    (∃ m', Spec.Run inGame calls (entries rows) (replies inGame calls rows).1 m') ∧
      ∀ (rows : Rows) (at_ at' : Instants) (key : KvKey) (value : String)
        (expiry : PuzzleBackendKvExpiry) (reply : KvReply),
        Clean rows at_ (.set key value expiry : KvCall D) →
        (∀ ttlMs, expiry = .ttl ttlMs → 0 < ttlMs) → at'.statement = at_.statement →
        (exec inGame at_ (.set key value expiry : KvCall D) rows).1 = .ok reply →
        (exec inGame at' (.get key : KvCall D)
          (exec inGame at_ (.set key value expiry : KvCall D) rows).2).1 =
            .ok (.value (some value)) := by
  refine ⟨run_refines (AgreeFrom.refl now (entries rows)) horder hclean, ?_⟩
  intro rows at_ at' key value expiry reply hclean hexpiry hat hset
  have hclean : expiry = .preserve → expired at_.statement (rows key) = false := by
    rintro rfl
    exact hclean
  obtain ⟨hgame, row, hx, hrows⟩ := exec_set_eq_ok hset
  obtain ⟨hlive, hvalue⟩ := live_of_set hclean hexpiry hx
  rw [hrows, exec_get hgame, Function.update_self, hat]
  simp [getKvEntry, Option.filter, hlive, hvalue]

end Runs

/-- Whole numbers as the amounts of increments. -/
def integers : Doubles where
  Double := ℤ
  isFinite _ := true
  toJsonb n := toString n
  plus document n := document.toInt?.map fun m => toString (m + n)

/-- A call made at one instant. -/
def Instants.of (now : ℤ) : Instants := ⟨now, now, now, le_refl _, le_refl _⟩

/-- A key of the first game. -/
def claimKey : KvKey := ⟨1, .global, "claim"⟩

/-- A document with a deadline of a second that is read, preserved, let go and set anew. -/
def setAnew : List (Instants × KvCall integers) :=
  [(.of 0, .set claimKey "1" (.ttl 1000)), (.of 500000, .set claimKey "2" .preserve),
    (.of 600000, .get claimKey), (.of 2000000, .get claimKey),
    (.of 2000000, .set claimKey "3" .permanent), (.of 2000000, .get claimKey)]

/-- The run is clean. -/
theorem kv_refines_of_runs_setAnew :
    (∃ m', Spec.Run (fun _ _ => true) setAnew (entries fun _ => none)
      (replies (fun _ _ => true) setAnew fun _ => none).1 m') ∧
    (replies (fun _ _ => true) setAnew fun _ => none).1.getLast? =
      some (.ok (.value (some "3"))) := by
  have horder : InOrder 0 setAnew := by simp [setAnew, InOrder, Instants.of]
  refine ⟨(kv_refines_of_runs horder ?_).1, by decide +kernel⟩
  simp only [setAnew, CleanRun]
  decide +kernel

/-- A document with a deadline of a second, set anew two seconds later with its expiry preserved,
and then read. -/
def setExpired : List (Instants × KvCall integers) :=
  [(.of 0, .set claimKey "1" (.ttl 1000)), (.of 2000000, .set claimKey "2" .preserve),
    (.of 2000000, .get claimKey)]

/-- **What is set over an expired row is not there**: the row keeps the passed deadline, and the
map has no such replies. -/
theorem set_expired_lost :
    (replies (fun _ _ => true) setExpired fun _ => none).1.getLast? = some (.ok (.value none)) ∧
    ¬ ∃ m', Spec.Run (fun _ _ => true) setExpired (entries fun _ => none)
      (replies (fun _ _ => true) setExpired fun _ => none).1 m' := by
  have hreplies : (replies (fun _ _ => true) setExpired fun _ => none).1.getLast? =
      some (.ok (.value none)) := by decide +kernel
  refine ⟨hreplies, ?_⟩
  rintro ⟨m', f₁, r₁, h₁, f₂, r₂, h₂, f₃, r₃, h₃, h₄, -⟩
  rw [h₁, h₂, h₃, h₄] at hreplies
  revert hreplies
  have hkey : checkKey claimKey = .ok () := by decide
  simp [Spec.exec, Spec.execEntry, KvCall.key, hkey, Spec.deadline, lookup, entries,
    Instants.of, Timestamp.check, Timestamp.first, Timestamp.afterLast, Spec.replace, Entry.live,
    bind, Except.bind, pure, Except.pure, Except.map, Option.filter]

end Backend
