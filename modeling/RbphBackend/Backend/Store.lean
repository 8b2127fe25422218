import RbphBackend.Backend.KeyValue
import RbphBackend.Games.Settings
import RbphBackend.Paging.Merge

set_option relaxedAutoImplicit false
set_option autoImplicit false

/-!
# The document store of the puzzle backends

A document of a collection is inserted with a row for each of its fields that the schema of the
collection indexes. Documents are listed by their ids, those whose indexed fields have the values
asked for.

## Main definitions

* `Backend.Store.indexEntries`, `Backend.Store.storeListOptions` — what the host makes of a document
  and of the options.
* `Backend.Store.insertStoreDocConn`, `Backend.Store.listStoreDocsConn` — the statements.
* `Backend.Store.storeInsert`, `Backend.Store.storeList` — the calls.
* `Backend.Store.Stored` — the tables that calls lead to.
-/

namespace Backend.Store

open Games (Value)

/-! ## Documents -/

/-- A map of JSON values: a key has one value. -/
structure JsonMap where
  entries : Games.Fields
  nodup : (entries.map (·.1)).Nodup

/-- The numbers of documents in the columns of the database: an integer or the text of another
number as a double, which doubles are finite, and which are equal there. -/
structure Floats where
  F : Type
  asF64 : ℤ ⊕ String → Option F
  isFinite : F → Bool
  eq : F → F → Bool

/-- `Value::as_f64`. -/
def asF64 (D : Floats) : Value → Option D.F
  | .int n => D.asF64 (.inl n)
  | .float text => D.asF64 (.inr text)
  | _ => none

/-- `Value::as_bool`. -/
def asBool : Value → Option Bool
  | .bool b => some b
  | _ => none

inductive PuzzleStoreIndexValue (D : Floats) where
  | text (s : String)
  | number (x : D.F)
  | bool (b : Bool)

/-- The columns of two values are equal. -/
def PuzzleStoreIndexValue.eq {D : Floats} : PuzzleStoreIndexValue D → PuzzleStoreIndexValue D → Bool
  | .text s, .text s' => s = s'
  | .number x, .number x' => D.eq x x'
  | .bool b, .bool b' => b = b'
  | _, _ => false

structure PuzzleStoreIndexEntry (D : Floats) where
  key : String
  value : PuzzleStoreIndexValue D

def validateStoreName (name message : String) : Except String Unit :=
  if name.isEmpty ∨ 64 < name.utf8ByteSize ∨
      ¬ (name.toList.all fun c => c.isAlphanum || c = '_' || c = '-' || c = '.') then .error message
  else .ok ()

/-- `value_path`. -/
def valuePath (value : Value) (path : String) : Option Value :=
  (path.toList.splitOn '.').foldlM (fun current part => current.get (String.ofList part)) value

/-- The texts for a value that has not the type declared. -/
structure TypeMessages where
  string : String
  number : String
  boolean : String

/-- A value with the type declared. -/
def typedValue (D : Floats) (messages : TypeMessages) (kind : String) (value : Value) :
    Except String (PuzzleStoreIndexValue D) :=
  if kind = "string" then value.asStr.elim (.error messages.string) fun s => .ok (.text s)
  else if kind = "number" then
    ((asF64 D value).filter D.isFinite).elim (.error messages.number) fun x => .ok (.number x)
  else if kind = "boolean" then (asBool value).elim (.error messages.boolean) fun b => .ok (.bool b)
  else .error "$store index type must be string, number, or boolean"

def fieldMessages : TypeMessages where
  string := "$store indexed string field must be a string"
  number := "$store indexed number field must be a finite number"
  boolean := "$store indexed boolean field must be a boolean"

def filterMessages : TypeMessages where
  string := "$store string filter value must be a string"
  number := "$store number filter value must be a finite number"
  boolean := "$store boolean filter value must be a boolean"

section Host

variable (D : Floats)

/-- What an index makes of a document; a field that is missing or null has no entry. -/
def indexEntry (value : Value) (index : String × Value) :
    Except String (Option (PuzzleStoreIndexEntry D)) := do
  validateStoreName index.1 "$store index field name is invalid"
  match index.2.asStr with
  | none => throw "$store index type must be string, number, or boolean"
  | some kind =>
    match valuePath value index.1 with
    | none => return none
    | some indexValue =>
      if indexValue.isNull then return none
      return some ⟨index.1, ← typedValue D fieldMessages kind indexValue⟩

def indexEntries (value : Value) (schema : JsonMap) :
    Except String (List (PuzzleStoreIndexEntry D)) := do
  return (← schema.entries.mapM (indexEntry D value)).reduceOption

/-- The filters, by their types. -/
structure PuzzleStoreEqFilters where
  text : List (String × String)
  number : List (String × D.F)
  bool_ : List (String × Bool)

variable {D}

def PuzzleStoreEqFilters.empty : PuzzleStoreEqFilters D := ⟨[], [], []⟩

def PuzzleStoreEqFilters.len (filters : PuzzleStoreEqFilters D) : ℕ :=
  filters.text.length + filters.number.length + filters.bool_.length

def PuzzleStoreEqFilters.push (filters : PuzzleStoreEqFilters D) (e : PuzzleStoreIndexEntry D) :
    PuzzleStoreEqFilters D :=
  match e.value with
  | .text s => { filters with text := filters.text ++ [(e.key, s)] }
  | .number x => { filters with number := filters.number ++ [(e.key, x)] }
  | .bool b => { filters with bool_ := filters.bool_ ++ [(e.key, b)] }

/-- `(key, value) IN (SELECT * FROM UNNEST(..))`, of the column that has the value. -/
def PuzzleStoreEqFilters.holds (filters : PuzzleStoreEqFilters D) (key : String) :
    PuzzleStoreIndexValue D → Bool
  | .text s => filters.text.any fun e => e.1 = key ∧ s = e.2
  | .number x => filters.number.any fun e => e.1 = key ∧ D.eq x e.2
  | .bool b => filters.bool_.any fun e => e.1 = key ∧ b = e.2

/-- The value of a filter: that of `eq`, if there is one. -/
def eqValue (rawFilter : Value) : Value := (rawFilter.get "eq").getD rawFilter

variable (D)

/-- The filter of a field. -/
def filterEntry (schema : JsonMap) (filter : String × Value) :
    Except String (PuzzleStoreIndexEntry D) := do
  validateStoreName filter.1 "$store filter field name is invalid"
  match (schema.entries.lookup filter.1).bind Value.asStr with
  | none => throw ("$store filter field `" ++ filter.1 ++ "` is not indexed")
  | some kind => return ⟨filter.1, ← typedValue D filterMessages kind (eqValue filter.2)⟩

structure HostStoreListOptions where
  where_ : JsonMap
  limit : Option ℤ
  cursor : Option Value
  order : Option String

structure PuzzleStoreListOptions where
  filters : PuzzleStoreEqFilters D
  cursor : Option ℤ
  limit : ℤ
  descending : Bool

/-- A number within the range of an `i64`. -/
def inI64 (n : ℤ) : Option ℤ :=
  if -9223372036854775808 ≤ n ∧ n ≤ 9223372036854775807 then some n else none

/-- `str::parse::<i64>`. -/
def parseI64 (s : String) : Option ℤ :=
  let digits := if s.toList.head? = some '-' ∨ s.toList.head? = some '+' then s.toList.tail
    else s.toList
  if digits ≠ [] ∧ digits.all Char.isDigit = true then
    inI64 (if s.toList.head? = some '-' then -Nat.ofDigitChars 10 digits 0
      else Nat.ofDigitChars 10 digits 0)
  else none

/-- A cursor is a number or its text; any other value is none. -/
def readCursor : Value → Option ℤ
  | .int n => inI64 n
  | .string s => parseI64 s
  | _ => none

def clampLimit (limit : ℤ) : ℤ := max 1 (min limit 100)

def storeListOptions (input : HostStoreListOptions) (schema : JsonMap) :
    Except String (PuzzleStoreListOptions D) := do
  let filters ← input.where_.entries.mapM (filterEntry D schema)
  return { filters := filters.foldl PuzzleStoreEqFilters.push PuzzleStoreEqFilters.empty
           cursor := input.cursor.bind readCursor
           limit := clampLimit (input.limit.getD 50)
           descending := input.order ≠ some "asc" }

end Host

/-! ## The tables -/

/-- A row of `rb_puzzle_store_doc`. -/
structure StoreDocRow where
  id : ℤ
  gameId : Id
  scopeType : ℕ
  teamId : Option Id
  puzzleId : Option Id
  collection : String
  createdBy : Option Id
  value : Value
  ctimeAt : ℤ
  utimeAt : ℤ

/-- A row of `rb_puzzle_store_index`; one of its three columns has the value. -/
structure StoreIndexRow (D : Floats) where
  docId : ℤ
  gameId : Id
  collection : String
  key : String
  value : PuzzleStoreIndexValue D

/-- The tables: the game of a team and of a puzzle, the nickname of a user, the documents and their
index. -/
structure Tables (D : Floats) where
  teams : Id → Option Id
  puzzles : Id → Option Id
  users : Id → Option String
  docs : List StoreDocRow
  indexes : List (StoreIndexRow D)

/-! ## The statements -/

/-- A text without the character 0, which the database has none of. -/
def noNul (s : String) : Bool := s.toList.all fun c => c ≠ Char.ofNat 0

mutual

/-- A value that a `JSONB` may have. -/
def storable : Value → Bool
  | .string s => noNul s
  | .array items => storableItems items
  | .object fields => storableFields fields
  | _ => true

def storableItems : List Value → Bool
  | [] => true
  | item :: items => storable item && storableItems items

def storableFields : Games.Fields → Bool
  | [] => true
  | (key, value) :: fields => noNul key && storable value && storableFields fields

end

/-- `BackendScope::parts`. -/
def parts : BackendScope → ℕ × Option Id × Option Id
  | .global => (0, none, none)
  | .team teamId => (1, some teamId, none)
  | .puzzle puzzleId => (2, none, some puzzleId)
  | .teamPuzzle teamId puzzleId => (3, some teamId, some puzzleId)

structure PuzzleStoreDoc where
  id : ℤ
  scope : BackendScope
  collection : String
  createdBy : Option (Id × String)
  value : Value
  ctimeAt : ℤ
  utimeAt : ℤ

/-- `store_doc_from_row`. -/
def storeDocFromRow (row : StoreDocRow) (createdByNickname : Option String) : PuzzleStoreDoc where
  id := row.id
  scope := match row.scopeType with
    | 1 => .team (row.teamId.getD 0)
    | 2 => .puzzle (row.puzzleId.getD 0)
    | 3 => .teamPuzzle (row.teamId.getD 0) (row.puzzleId.getD 0)
    | _ => .global
  collection := row.collection
  createdBy := row.createdBy.bind fun id => createdByNickname.map fun nickname => (id, nickname)
  value := row.value
  ctimeAt := row.ctimeAt
  utimeAt := row.utimeAt

section Statements

variable {D : Floats} (t : Tables D)

/-- `ensure_scope_in_game_conn`. -/
def ensureScopeInGame (gameId : Id) : BackendScope → Bool
  | .global => true
  | .team teamId => t.teams teamId = some gameId
  | .puzzle puzzleId => t.puzzles puzzleId = some gameId
  | .teamPuzzle teamId puzzleId => t.teams teamId = some gameId ∧ t.puzzles puzzleId = some gameId

/-- `require_scope_in_game_conn`. -/
def requireScopeInGame (gameId : Id) (scope : BackendScope) : Except String Unit :=
  if ensureScopeInGame t gameId scope then .ok ()
  else .error "backend scope does not belong to current game"

/-- An `INSERT INTO rb_puzzle_store_index`. -/
def insertIndexRow (docId : ℤ) (gameId : Id) (collection : String) (rows : List (StoreIndexRow D))
    (e : PuzzleStoreIndexEntry D) : Except String (List (StoreIndexRow D)) :=
  if rows.any fun row => row.docId = docId ∧ row.key = e.key then
    .error "rb_puzzle_store_index_pkey"
  else .ok (rows ++ [⟨docId, gameId, collection, e.key, e.value⟩])

/-- `insert_store_doc_conn`, with the id that the sequence gives and the time of the transaction. -/
def insertStoreDocConn (id now : ℤ) (gameId : Id) (scope : BackendScope) (collection : String)
    (createdBy : Id) (value : Value) (indexes : List (PuzzleStoreIndexEntry D)) :
    Except String (PuzzleStoreDoc × Tables D) := do
  requireScopeInGame t gameId scope
  let (scopeType, teamId, puzzleId) := parts scope
  if ¬ storable value then throw "unsupported Unicode escape sequence"
  if (inI64 id).isNone then throw "nextval: reached maximum value of sequence"
  if t.docs.any fun doc => doc.id = id then throw "rb_puzzle_store_doc_pkey"
  if (t.users createdBy).isNone then throw "rb_puzzle_store_doc_created_by_fkey"
  let row : StoreDocRow :=
    ⟨id, gameId, scopeType, teamId, puzzleId, collection, some createdBy, value, now, now⟩
  let rows ← indexes.foldlM (insertIndexRow id gameId collection) t.indexes
  return (storeDocFromRow row (t.users createdBy),
    { t with docs := t.docs ++ [row], indexes := rows })

/-- The index has a matching row for each of the filters: the keys of those that match are
counted. -/
def meetsFilters (filters : PuzzleStoreEqFilters D) (doc : StoreDocRow) : Bool :=
  filters.len = 0 ∨
    ((t.indexes.filter fun i => i.docId = doc.id ∧ i.gameId = doc.gameId ∧
      i.collection = doc.collection ∧ filters.holds i.key i.value).map (·.key)).dedup.length =
        filters.len

/-- The rows of a collection of a scope. -/
def inCollection (gameId : Id) (scope : BackendScope) (collection : String) (doc : StoreDocRow) :
    Bool :=
  doc.gameId = gameId ∧ doc.scopeType = (parts scope).1 ∧ doc.teamId = (parts scope).2.1 ∧
    doc.puzzleId = (parts scope).2.2 ∧ doc.collection = collection

/-- The id comes after another one, in the order of the list. -/
def comesAfter (descending : Bool) (a b : ℤ) : Prop := if descending then b < a else a < b

instance (descending : Bool) : DecidableRel (comesAfter descending) := fun a b =>
  inferInstanceAs (Decidable (if descending then b < a else a < b))

/-- `list_store_docs_conn`. -/
def listStoreDocsConn (gameId : Id) (scope : BackendScope) (collection : String)
    (options : PuzzleStoreListOptions D) : Except String (List PuzzleStoreDoc) := do
  requireScopeInGame t gameId scope
  if ¬ options.filters.text.all fun e => noNul e.2 then
    throw "invalid byte sequence for encoding UTF8: 0x00"
  let rows := t.docs.filter fun doc => inCollection gameId scope collection doc ∧
    (options.cursor.all fun cursor => comesAfter options.descending cursor doc.id) ∧
    meetsFilters t options.filters doc
  let sorted := if options.descending then Paging.Merge.descending (·.id) rows
    else Paging.Merge.ascending (·.id) rows
  return (sorted.take (clampLimit options.limit).toNat).map fun row =>
    storeDocFromRow row (row.createdBy.bind t.users)

end Statements

/-! ## The calls -/

inductive HostScope where
  | global
  | team (teamId : ℤ)
  | puzzle (puzzleId : ℤ)
  | teamPuzzle (teamId puzzleId : ℤ)

/-- The scope of a call: ids are positive. -/
def hostScope : HostScope → Except String BackendScope
  | .global => .ok .global
  | .team teamId =>
    if 0 < teamId then .ok (.team teamId.toNat) else .error "scope contains an invalid id"
  | .puzzle puzzleId =>
    if 0 < puzzleId then .ok (.puzzle puzzleId.toNat) else .error "scope contains an invalid id"
  | .teamPuzzle teamId puzzleId =>
    if 0 < teamId ∧ 0 < puzzleId then .ok (.teamPuzzle teamId.toNat puzzleId.toNat)
    else .error "scope contains an invalid id"

def collectionMessage : String :=
  "$store collection name must be 1-64 chars using letters, numbers, _, -, or ."

section Calls

variable {D : Floats} (t : Tables D)

/-- `HostCall::StoreInsert`, within the time of an execution. -/
def storeInsert (id now : ℤ) (gameId userId : Id) (scope : HostScope) (collection : String)
    (schema : JsonMap) (value : Value) : Except String (PuzzleStoreDoc × Tables D) := do
  validateStoreName collection collectionMessage
  if ¬ value.isObject then throw "$store.collection(...).insert requires an object value"
  let indexes ← indexEntries D value schema
  let scope ← hostScope scope
  insertStoreDocConn t id now gameId scope collection userId value indexes

/-- `HostCall::StoreList`, within the time of an execution. -/
def storeList (gameId : Id) (scope : HostScope) (collection : String) (schema : JsonMap)
    (options : HostStoreListOptions) : Except String (List PuzzleStoreDoc) := do
  validateStoreName collection collectionMessage
  let options ← storeListOptions D options schema
  let scope ← hostScope scope
  listStoreDocsConn t gameId scope collection options

/-- The tables that calls lead to, with the schemas that documents were inserted under. Documents
are deleted with their index, and users may be deleted; teams, puzzles and users change. -/
inductive Stored : Tables D → (ℤ → JsonMap) → Prop
  | empty (teams puzzles : Id → Option Id) (users : Id → Option String) (schemas : ℤ → JsonMap) :
      Stored ⟨teams, puzzles, users, [], []⟩ schemas
  | insert {t t' : Tables D} {schemas : ℤ → JsonMap} {id now : ℤ} {gameId userId : Id}
      {scope : HostScope} {collection : String} {schema : JsonMap} {value : Value}
      {doc : PuzzleStoreDoc} : Stored t schemas →
      storeInsert t id now gameId userId scope collection schema value = .ok (doc, t') →
      Stored t' (Function.update schemas id schema)
  | delete {t : Tables D} {schemas : ℤ → JsonMap} (gone : ℤ → Bool) : Stored t schemas →
      Stored { t with docs := t.docs.filter fun doc => ¬ gone doc.id
                      indexes := t.indexes.filter fun i => ¬ gone i.docId } schemas
  | others {t : Tables D} {schemas : ℤ → JsonMap} (teams puzzles : Id → Option Id)
      (users : Id → Option String) (createdBy : StoreDocRow → Option Id) : Stored t schemas →
      Stored { t with teams := teams, puzzles := puzzles, users := users
                      docs := t.docs.map fun doc => { doc with createdBy := createdBy doc } } schemas

end Calls

end Backend.Store
