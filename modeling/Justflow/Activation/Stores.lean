import Justflow.Activation.Dump
import Justflow.Library.Paging
import Justflow.Library.Tables

/-!
# The activation stores

Publications, discards and activations are kept under their scope and identity, each as the text
of its record beside a few attributes.  One store has a SQL table for each kind, the other one
DynamoDB table with composed keys and an index of the activations.  Both are translated with the
checks they make, in the order in which they make them.
-/

namespace Justflow.ActivationStores

inductive RecordKind where
  | publication | discard | activation
  deriving DecidableEq, Repr

/-- What `datetime.isoformat` returns: digits and `-`, `T`, `:`, `.`, `+`, all behind `#`. -/
structure IsoText where
  text : String
  behind : text.toList.all fun c => '#' < c
  deriving DecidableEq

/-- A record: the fields that the stores read, and the others. -/
structure StoredRecord where
  identity : Digest
  scopeDigest : Digest
  requestDigest : ProvenanceDigest
  idempotencyKeyDigest : Digest
  version : Nat
  createdAt : IsoText
  rest : JsonValue
  deriving DecidableEq

/-- The JSON text of a record, and how it is read back; the text has the identity. -/
structure RecordCodec where
  dumps : RecordKind → StoredRecord → String
  modelValidateJson : RecordKind → String → Option StoredRecord
  identifies : ∀ kind record other, dumps kind record = dumps kind other →
    record.identity = other.identity

/-- The kind of an error; `overflow` is the `OverflowError` of an integer that SQL cannot hold. -/
inductive ActivationStoreError where
  | notFound
  | conflict (identity : Digest)
  | integrity
  | limit
  | unavailable
  | overflow
  deriving DecidableEq

def maxActivationPageSize : Nat := 100
def maxSqliteInteger : Nat := 2 ^ 63 - 1

variable (codec : RecordCodec)

/-- `_record_bytes`. -/
def recordBytes (kind : RecordKind) (record : StoredRecord) : Except ActivationStoreError String :=
  let payload := codec.dumps kind record
  if maxActivationRecordBytes < payload.utf8ByteSize then .error .limit else .ok payload

/-- `_publication`, `_discard` and `_activation`. -/
def storedRecord (kind : RecordKind) (payload : String) (scopeDigest : Digest) :
    Except ActivationStoreError StoredRecord :=
  match codec.modelValidateJson kind payload with
  | none => .error .integrity
  | some record =>
      if record.scopeDigest ≠ scopeDigest then .error .integrity
      else do
        let again ← recordBytes codec kind record
        if payload ≠ again then throw .integrity
        return record

def requireScope (scopeDigest recordScope : Digest) : Except ActivationStoreError Unit :=
  if recordScope ≠ scopeDigest then .error .integrity else .ok ()

/-- A repeated creation has the request and the idempotency key of the first one. -/
def requireSameRequest (existing record : StoredRecord) :
    Except ActivationStoreError StoredRecord :=
  if existing.requestDigest ≠ record.requestDigest
      ∨ existing.idempotencyKeyDigest ≠ record.idempotencyKeyDigest then
    .error (.conflict record.identity)
  else .ok existing

/-- The table and the primary key of a record. -/
structure StoreKey where
  kind : RecordKind
  scopeDigest : Digest
  identity : Digest
  deriving DecidableEq

/-! ## SQLite -/

structure SqliteRow where
  version : Nat
  createdAt : IsoText
  payload : String
  deriving DecidableEq

abbrev SqliteTables := Table StoreKey SqliteRow

def sqliteCreate (scopeDigest : Digest) (kind : RecordKind) (record : StoredRecord)
    (tables : SqliteTables) : Except ActivationStoreError (StoredRecord × SqliteTables) := do
  requireScope scopeDigest record.scopeDigest
  let payload ← recordBytes codec kind record
  match tables.get? ⟨kind, scopeDigest, record.identity⟩ with
  | some row =>
      let existing ← storedRecord codec kind row.payload scopeDigest
      return (← requireSameRequest existing record, tables)
  | none =>
      if maxSqliteInteger < record.version then throw .overflow
      return (record, tables.insert ⟨kind, scopeDigest, record.identity⟩
        ⟨record.version, record.createdAt, payload⟩)

def sqliteRead (scopeDigest : Digest) (kind : RecordKind) (identity : Digest)
    (tables : SqliteTables) : Except ActivationStoreError StoredRecord :=
  match tables.get? ⟨kind, scopeDigest, identity⟩ with
  | none => .error .notFound
  | some row => do
      let record ← storedRecord codec kind row.payload scopeDigest
      if record.identity ≠ identity then throw .integrity
      return record

/-- The column `created_at` keeps what the creation wrote. -/
def sqliteUpdate (scopeDigest : Digest) (kind : RecordKind) (record : StoredRecord)
    (expectedVersion : Nat) (tables : SqliteTables) :
    Except ActivationStoreError (StoredRecord × SqliteTables) := do
  requireScope scopeDigest record.scopeDigest
  if record.version ≠ expectedVersion + 1 then throw .integrity
  let payload ← recordBytes codec kind record
  if maxSqliteInteger < record.version then throw .overflow
  match tables.get? ⟨kind, scopeDigest, record.identity⟩ with
  | some row =>
      if row.version = expectedVersion then
        return (record, tables.insert ⟨kind, scopeDigest, record.identity⟩
          { row with version := record.version, payload })
      else throw (.conflict record.identity)
  | none => throw (.conflict record.identity)

/-- `ORDER BY created_at DESC, activation_id DESC`. -/
def RowOrder (first second : StoreKey × SqliteRow) : Prop :=
  second.2.createdAt.text < first.2.createdAt.text ∨
    second.2.createdAt.text = first.2.createdAt.text ∧
      second.1.identity.text ≤ first.1.identity.text

instance : DecidableRel RowOrder := fun _ _ => inferInstanceAs (Decidable (_ ∨ _ ∧ _))

/-- The rows of a scope in the order of the listing. -/
def orderedRows (scopeDigest : Digest) (tables : SqliteTables) : List (StoreKey × SqliteRow) :=
  (tables.entries.filter fun row =>
    row.1.kind = .activation ∧ row.1.scopeDigest = scopeDigest).insertionSort RowOrder

/-- A row behind the last one of a page. -/
def After (last : String × String) (row : StoreKey × SqliteRow) : Prop :=
  row.2.createdAt.text < last.1 ∨ row.2.createdAt.text = last.1 ∧ row.1.identity.text < last.2

instance (last : String × String) : DecidablePred (After last) :=
  fun _ => inferInstanceAs (Decidable (_ ∨ _ ∧ _))

/-- One page; its cursor has the position of the last row. -/
def sqlitePage (scopeDigest : Digest) (limit : Nat) (tables : SqliteTables)
    (cursor : Option (String × String)) :
    Except ActivationStoreError (List StoredRecord × Option (String × String)) := do
  if ¬ (1 ≤ limit ∧ limit ≤ maxActivationPageSize) then throw .limit
  let ordered := orderedRows scopeDigest tables
  let rows := match cursor with
    | none => ordered
    | some last => ordered.filter fun row => After last row
  let selected := rows.take limit
  let records ← selected.mapM fun row => storedRecord codec .activation row.2.payload scopeDigest
  return (records, if limit < rows.length then
    selected.getLast?.map fun last => (last.2.createdAt.text, last.1.identity.text) else none)

/-! ## DynamoDB -/

structure DynamoItem where
  recordType : RecordKind
  scopeDigest : Digest
  version : Nat
  activationOrder : Option String
  payload : String
  deriving DecidableEq

abbrev DynamoItems := Table StoreKey DynamoItem

/-- What the table and its client decide: the numbers that an attribute holds, and after how many
items at most, given where it starts, a page of the index ends. -/
structure DynamoHost where
  numbers : Nat → Bool
  pageItems : Nat → Nat
  wide : ∀ n ≤ maxSqliteInteger, numbers n = true
  pages : ∀ start, 0 < pageItems start

def activationOrder (createdAt : IsoText) (identity : Digest) : String :=
  createdAt.text ++ ("#" ++ identity.text)

/-- `_publication_item`, `_discard_item` and `_activation_item`. -/
def dynamoItem (scopeDigest : Digest) (kind : RecordKind) (record : StoredRecord)
    (payload : String) : DynamoItem where
  recordType := kind
  scopeDigest := scopeDigest
  version := record.version
  activationOrder :=
    if kind = .activation then some (activationOrder record.createdAt record.identity) else none
  payload := payload

def requireRecord (item : DynamoItem) (scopeDigest : Digest) (kind : RecordKind) :
    Except ActivationStoreError Unit :=
  if item.scopeDigest ≠ scopeDigest ∨ item.recordType ≠ kind then .error .integrity else .ok ()

def dynamoRead (scopeDigest : Digest) (kind : RecordKind) (identity : Digest)
    (items : DynamoItems) : Except ActivationStoreError StoredRecord :=
  match items.get? ⟨kind, scopeDigest, identity⟩ with
  | none => .error .notFound
  | some item => do
      requireRecord item scopeDigest kind
      let record ← storedRecord codec kind item.payload scopeDigest
      if record.identity ≠ identity then throw .integrity
      return record

/-- The item is built where every exception but a failed condition is `unavailable`. -/
def dynamoCreate (host : DynamoHost) (scopeDigest : Digest) (kind : RecordKind)
    (record : StoredRecord) (items : DynamoItems) :
    Except ActivationStoreError (StoredRecord × DynamoItems) := do
  requireScope scopeDigest record.scopeDigest
  match recordBytes codec kind record with
  | .error _ => throw .unavailable
  | .ok payload =>
      if host.numbers record.version = false then throw .unavailable
      if (items.get? ⟨kind, scopeDigest, record.identity⟩).isNone then
        return (record, items.insert ⟨kind, scopeDigest, record.identity⟩
          (dynamoItem scopeDigest kind record payload))
      else
        let existing ← dynamoRead codec scopeDigest kind record.identity items
        return (← requireSameRequest existing record, items)

def dynamoUpdate (host : DynamoHost) (scopeDigest : Digest) (kind : RecordKind)
    (record : StoredRecord) (expectedVersion : Nat) (items : DynamoItems) :
    Except ActivationStoreError (StoredRecord × DynamoItems) := do
  requireScope scopeDigest record.scopeDigest
  if record.version ≠ expectedVersion + 1 then throw .integrity
  let payload ← recordBytes codec kind record
  if host.numbers record.version = false then throw .unavailable
  match items.get? ⟨kind, scopeDigest, record.identity⟩ with
  | some item =>
      if item.version = expectedVersion then
        return (record, items.insert ⟨kind, scopeDigest, record.identity⟩
          (dynamoItem scopeDigest kind record payload))
      else throw (.conflict record.identity)
  | none => throw (.conflict record.identity)

/-- The entries of the index for a scope, each with its sort key, in descending order. -/
def indexEntries (scopeDigest : Digest) (items : DynamoItems) : List (String × DynamoItem) :=
  (items.entries.filterMap fun entry =>
    if entry.2.scopeDigest = scopeDigest then entry.2.activationOrder.map fun order =>
      (order, entry.2) else none).insertionSort fun first second => second.1 ≤ first.1

/-- One page of the index; a page that ends before the index does names its last key, and so may
one that ends with it. -/
def dynamoPage (host : DynamoHost) (scopeDigest : Digest) (limit : Nat) (items : DynamoItems)
    (cursor : Option String) :
    Except ActivationStoreError (List StoredRecord × Option String) := do
  if ¬ (1 ≤ limit ∧ limit ≤ maxActivationPageSize) then throw .limit
  let ordered := indexEntries scopeDigest items
  let entries := match cursor with
    | none => ordered
    | some last => ordered.filter fun entry => entry.1 < last
  let size := min limit (host.pageItems (ordered.length - entries.length))
  let selected := entries.take size
  let records ← selected.mapM fun entry => do
    requireRecord entry.2 scopeDigest .activation
    storedRecord codec .activation entry.2.payload scopeDigest
  return (records, if selected.length = size then selected.getLast?.map Prod.fst else none)

/-! ## Sequences of operations -/

inductive StoreOperation where
  | create (scopeDigest : Digest) (kind : RecordKind) (record : StoredRecord)
  | read (scopeDigest : Digest) (kind : RecordKind) (identity : Digest)
  | update (scopeDigest : Digest) (kind : RecordKind) (record : StoredRecord)
      (expectedVersion : Nat)
  /-- Every page of the activations, with this page size. -/
  | listing (scopeDigest : Digest) (limit : Nat)

/-- The records an operation returns; `none` is a listing that does not come to an end. -/
abbrev StoreAnswer := Option (Except ActivationStoreError (List StoredRecord))

/-- The answer of a writing operation, and the store after it. -/
def written {S : Type} (before : S) :
    Except ActivationStoreError (StoredRecord × S) → StoreAnswer × S
  | .ok (record, after) => (some (.ok [record]), after)
  | .error error => (some (.error error), before)

def sqliteStep (tables : SqliteTables) : StoreOperation → StoreAnswer × SqliteTables
  | .create scopeDigest kind record =>
      written tables (sqliteCreate codec scopeDigest kind record tables)
  | .read scopeDigest kind identity =>
      (some ((sqliteRead codec scopeDigest kind identity tables).map ([·])), tables)
  | .update scopeDigest kind record expectedVersion =>
      written tables (sqliteUpdate codec scopeDigest kind record expectedVersion tables)
  | .listing scopeDigest limit =>
      (Paging.follow (sqlitePage codec scopeDigest limit tables) (tables.entries.length + 1) none,
        tables)

def dynamoStep (host : DynamoHost) (items : DynamoItems) :
    StoreOperation → StoreAnswer × DynamoItems
  | .create scopeDigest kind record =>
      written items (dynamoCreate codec host scopeDigest kind record items)
  | .read scopeDigest kind identity =>
      (some ((dynamoRead codec scopeDigest kind identity items).map ([·])), items)
  | .update scopeDigest kind record expectedVersion =>
      written items (dynamoUpdate codec host scopeDigest kind record expectedVersion items)
  | .listing scopeDigest limit =>
      (Paging.follow (dynamoPage codec host scopeDigest limit items) (items.entries.length + 1)
        none, items)

/-- The answers of a sequence of operations. -/
def answers {S : Type} (step : S → StoreOperation → StoreAnswer × S) :
    S → List StoreOperation → List StoreAnswer
  | _, [] => []
  | state, operation :: rest =>
      (step state operation).1 :: answers step (step state operation).2 rest

end Justflow.ActivationStores
