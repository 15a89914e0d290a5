import Justflow.Configuration.Documents
import Justflow.Library.Tables

/-!
# The SQLite configuration store

Three tables, each operation one transaction.  A statement that changes a table with foreign keys
is refused when a reference would be left without its row; a refused operation changes nothing.
-/

open Fields JsonValue

namespace Justflow.Stores

def maxRetentionScanCount : Nat := 10000

/-- A row of `configuration_revisions`, beside its primary key. -/
structure RevisionRow where
  parentRevisionId : Option RevisionIdentity
  createdAt : UtcTime
  body : JsonValue
  deriving DecidableEq

/-- Where a page of revisions ends. -/
structure RevisionPosition where
  createdAt : String
  revisionId : String
  deriving DecidableEq

/-- A cursor names the scope that it was issued for. -/
structure ScopeCursor (Position : Type) where
  scopeDigest : Digest
  position : Position
  deriving DecidableEq

structure RevisionPage (Position : Type) where
  revisions : List RevisionSummary
  nextCursor : Option (ScopeCursor Position)
  deriving DecidableEq

/-- `decode_scope_cursor`, whose failure the stores report. -/
def decodeCursor {Position : Type} (scopeDigest : Digest) :
    Option (ScopeCursor Position) → Except ConfigurationError (Option Position)
  | none => .ok none
  | some cursor =>
      if cursor.scopeDigest = scopeDigest then .ok (some cursor.position)
      else .error ⟨.scope, "Configuration cursor is invalid for this scope"⟩

structure SqliteStore where
  drafts : Table Digest (Int × JsonValue)
  revisions : Table (Digest × RevisionIdentity) RevisionRow
  activePointers : Table Digest (RevisionIdentity × Int)

namespace SqliteStore

def empty : SqliteStore :=
  ⟨.empty, .empty, .empty⟩

variable {host : ConfigurationHost} (self : SqliteStore) (scopeDigest : Digest)

/-- Every reference to a revision has its row. -/
def foreignKeys : Bool :=
  (self.revisions.entries.all fun row => row.2.parentRevisionId.all fun parent =>
    (self.revisions.get? (row.1.1, parent)).isSome) &&
  self.activePointers.entries.all fun row => (self.revisions.get? (row.1, row.2.1)).isSome

/-- The outcome of a statement that changes a table with foreign keys. -/
def checked (message : String) : Except ConfigurationError SqliteStore :=
  if self.foreignKeys then .ok self else .error (.unavailable message)

def readDraft : Except ConfigurationError (Option (DraftRecord host)) :=
  match self.drafts.get? scopeDigest with
  | none => .ok none
  | some (version, body) => do
      let bundle ← readEnvelope host "Stored" scopeDigest body
      return some ⟨scopeDigest, version, bundle⟩

def compareAndSwapDraft (bundle : ConfigurationDocument host) (expectedVersion : Option Int) :
    Except ConfigurationError (DraftRecord host × SqliteStore) := do
  let body ← envelopeBytes scopeDigest bundle
  let currentVersion := (self.drafts.get? scopeDigest).map Prod.fst
  if currentVersion ≠ expectedVersion then throw .conflict
  let version := match currentVersion with
    | none => 1
    | some current => current + 1
  return (⟨scopeDigest, version, bundle⟩,
    { self with drafts := self.drafts.insert scopeDigest (version, body) })

/-- `_require_revision`. -/
def requireRevision (revisionId : RevisionIdentity) : Except ConfigurationError Unit :=
  if (self.revisions.get? (scopeDigest, revisionId)).isSome then .ok ()
  else .error .revisionNotFound

def createRevision (bundle : ConfigurationDocument host) (parent : Option RevisionIdentity)
    (reading : Option UtcTime) : Except ConfigurationError (RevisionRecord host × SqliteStore) := do
  let revisionId := configurationRevisionIdentity scopeDigest bundle parent
  let body ← envelopeBytes scopeDigest bundle
  let createdAt ← timestamp reading
  match parent with
  | some parentId => self.requireRevision scopeDigest parentId
  | none => pure ()
  match self.revisions.get? (scopeDigest, revisionId) with
  | some row =>
      if row.parentRevisionId ≠ parent ∨ row.body ≠ body then
        throw (.integrity "Immutable configuration revision content disagrees")
      return (⟨scopeDigest, revisionId, parent, row.createdAt, bundle⟩, self)
  | none =>
      let row : RevisionRow := ⟨parent, createdAt, body⟩
      let stored ← checked
        { self with revisions := self.revisions.insert (scopeDigest, revisionId) row }
        "Cannot create the SQLite configuration revision"
      return (⟨scopeDigest, revisionId, parent, createdAt, bundle⟩, stored)

def readRevision (revisionId : RevisionIdentity) :
    Except ConfigurationError (RevisionRecord host) :=
  match self.revisions.get? (scopeDigest, revisionId) with
  | none => .error .revisionNotFound
  | some row => do
      let bundle ← readEnvelope host "Stored" scopeDigest row.body
      if configurationRevisionIdentity scopeDigest bundle row.parentRevisionId ≠ revisionId then
        throw (.integrity "Configuration revision digest disagrees")
      return ⟨scopeDigest, revisionId, row.parentRevisionId, row.createdAt, bundle⟩

/-- `ORDER BY created_at DESC, revision_id DESC`. -/
def RowOrder (first second : RevisionSummary) : Prop :=
  second.createdAt.isoformat < first.createdAt.isoformat ∨
    second.createdAt.isoformat = first.createdAt.isoformat ∧
      second.revisionId.text ≤ first.revisionId.text

instance : DecidableRel RowOrder := fun _ _ => inferInstanceAs (Decidable (_ ∨ _ ∧ _))

/-- The columns of a row that a listing reads. -/
def summary (row : (Digest × RevisionIdentity) × RevisionRow) : RevisionSummary where
  scopeDigest := row.1.1
  revisionId := row.1.2
  parentRevisionId := row.2.parentRevisionId
  createdAt := row.2.createdAt

def orderedRows : List RevisionSummary :=
  ((self.revisions.entries.map summary).filter (·.scopeDigest = scopeDigest)).insertionSort RowOrder

/-- The rows after a position. -/
def rowsAfter (position : Option RevisionPosition) : List RevisionSummary :=
  match position with
  | none => self.orderedRows scopeDigest
  | some last => (self.orderedRows scopeDigest).filter fun row =>
      row.createdAt.isoformat < last.createdAt ∨
        row.createdAt.isoformat = last.createdAt ∧ row.revisionId.text < last.revisionId

def position (row : RevisionSummary) : RevisionPosition :=
  ⟨row.createdAt.isoformat, row.revisionId.text⟩

def listRevisions (limit : Int) (cursor : Option (ScopeCursor RevisionPosition)) :
    Except ConfigurationError (RevisionPage RevisionPosition) := do
  if ¬ (1 ≤ limit ∧ limit ≤ maxRevisionPageSize) then
    throw (.limit "Configuration revision page size is invalid")
  let start ← decodeCursor scopeDigest cursor
  let rows := (self.rowsAfter scopeDigest start).take (limit.toNat + 1)
  let pageRows := rows.take limit.toNat
  let nextCursor := if limit.toNat < rows.length then
      pageRows.getLast?.map fun last => ⟨scopeDigest, position last⟩
    else none
  return { revisions := pageRows, nextCursor }

def readActive : Option ActivePointer :=
  (self.activePointers.get? scopeDigest).map fun row =>
    { scopeDigest, revisionId := row.1, version := row.2 }

def compareAndSwapActive (revisionId : RevisionIdentity)
    (expectedRevisionId : Option RevisionIdentity) (expectedVersion : Option Int) :
    Except ConfigurationError (ActivePointer × SqliteStore) := do
  self.requireRevision scopeDigest revisionId
  let row := self.activePointers.get? scopeDigest
  let current := row.map Prod.fst
  let currentVersion := row.map Prod.snd
  if current ≠ expectedRevisionId ∨
      (expectedVersion.isSome ∧ currentVersion ≠ expectedVersion) then
    throw .conflict
  let version := match currentVersion with
    | none => 1
    | some current => current + 1
  let stored ← checked
    { self with activePointers := self.activePointers.insert scopeDigest (revisionId, version) }
    "Cannot update the SQLite active configuration pointer"
  return (⟨scopeDigest, revisionId, version⟩, stored)

/-- The revisions that a retention deletes, newest first. -/
def retentionCandidates (rows : List RevisionSummary) (active : Option ActivePointer)
    (keepLatest deleteLimit : Nat) : List RevisionSummary :=
  ((rows.drop keepLatest).filter fun row =>
    active.map (·.revisionId) ≠ some row.revisionId ∧
      ∀ other ∈ rows, other.parentRevisionId ≠ some row.revisionId).take deleteLimit

def deleteRevision (revisionId : RevisionIdentity) : Except ConfigurationError SqliteStore :=
  checked { self with revisions := self.revisions.erase (scopeDigest, revisionId) }
    "Cannot apply SQLite configuration retention"

def retainRevisions (keepLatest deleteLimit : Int) :
    Except ConfigurationError (List RevisionIdentity × SqliteStore) := do
  if keepLatest < 1 ∨ ¬ (1 ≤ deleteLimit ∧ deleteLimit ≤ maxRetentionDeleteCount) then
    throw (.limit "Configuration retention bounds are invalid")
  let rows := (self.orderedRows scopeDigest).take (maxRetentionScanCount + 1)
  if maxRetentionScanCount < rows.length then
    throw (.limit "Configuration retention scan exceeds its bound")
  let candidates := (retentionCandidates rows (self.readActive scopeDigest) keepLatest.toNat
    deleteLimit.toNat).map (·.revisionId)
  let stored ← candidates.foldlM (fun store revisionId =>
    store.deleteRevision scopeDigest revisionId) self
  return (candidates, stored)

end SqliteStore

end Justflow.Stores
