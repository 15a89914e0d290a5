import Justflow.Configuration.Sqlite
import Justflow.Library.Processes

/-!
# S3 and DynamoDB as the configuration store uses them

One bucket of objects and one table of items.  Each request is atomic; a transaction writes all
of its operations or none.  Whether a write is accepted is decided by its condition, and each
`DynamoCondition` stands for one condition expression of the store.
-/

open Fields JsonValue

namespace Justflow.Stores

/-! ## Objects and items -/

inductive BodyKind where
  | drafts | revisions
  deriving DecidableEq, Repr

/-- The key of a body, `scopes/<scope>/<kind>/<digest>.json` below the prefix of the store. -/
structure ObjectKey where
  scopeDigest : Digest
  kind : BodyKind
  digest : Digest
  deriving DecidableEq

/-- The sort keys `DRAFT`, `ACTIVE` and `REV#<revision>`. -/
inductive MetadataKey where
  | draft | active
  | revision (revisionId : RevisionIdentity)
  deriving DecidableEq

structure ItemKey where
  scopeDigest : Digest
  metadataKey : MetadataKey
  deriving DecidableEq

inductive RecordType where
  | draft | active | revision | revisionCleanup
  deriving DecidableEq, Repr

/-- The attributes of an item. -/
structure MetadataItem where
  recordType : RecordType
  scopeDigest : Digest
  version : Option Int
  bodyKey : Option ObjectKey
  revisionId : Option RevisionIdentity
  revisionOrder : Option String
  createdAt : Option UtcTime
  childReferenceCount : Option Int
  parentRevisionId : Option RevisionIdentity
  deriving DecidableEq

namespace MetadataItem

def draft (scopeDigest : Digest) (version : Int) (bodyKey : ObjectKey) : MetadataItem :=
  ⟨.draft, scopeDigest, some version, some bodyKey, none, none, none, none, none⟩

def active (scopeDigest : Digest) (revisionId : RevisionIdentity) (version : Int) : MetadataItem :=
  ⟨.active, scopeDigest, some version, none, some revisionId, none, none, none, none⟩

def cleanup (scopeDigest : Digest) (revisionId : RevisionIdentity) : MetadataItem :=
  ⟨.revisionCleanup, scopeDigest, none, none, some revisionId, none, none, none, none⟩

/-- The sort attribute of the revision index. -/
def revisionOrderOf (createdAt : UtcTime) (revisionId : RevisionIdentity) : String :=
  createdAt.isoformat ++ "#" ++ revisionId.text

def revision (scopeDigest : Digest) (revisionId : RevisionIdentity) (createdAt : UtcTime)
    (bodyKey : ObjectKey) (parent : Option RevisionIdentity) (children : Int) : MetadataItem where
  recordType := .revision
  scopeDigest := scopeDigest
  version := none
  bodyKey := some bodyKey
  revisionId := some revisionId
  revisionOrder := some (revisionOrderOf createdAt revisionId)
  createdAt := some createdAt
  childReferenceCount := some children
  parentRevisionId := parent

/-- `ADD child_reference_count :delta`. -/
def addChildren (delta : Int) (self : MetadataItem) : MetadataItem :=
  { self with childReferenceCount := some (self.childReferenceCount.getD 0 + delta) }

end MetadataItem

structure Cloud where
  objects : Table ObjectKey JsonValue
  items : Table ItemKey MetadataItem

def Cloud.empty : Cloud :=
  ⟨.empty, .empty⟩

/-! ## Conditions and transactions -/

inductive DynamoCondition where
  /-- `attribute_not_exists(metadata_key)` -/
  | notExists
  /-- `version = :expected_version` -/
  | versionIs (version : Int)
  /-- `revision_id = :expected_revision_id`, with ` AND version = :expected_version` -/
  | pointerIs (revisionId : RevisionIdentity) (version : Option Int)
  /-- `attribute_not_exists(metadata_key) OR revision_id <> :revision_id` -/
  | pointerIsNot (revisionId : RevisionIdentity)
  /-- `attribute_exists(metadata_key) AND record_type = :revision_record` -/
  | isRevision
  /-- `isRevision` with ` AND child_reference_count = :zero` -/
  | isLeaf
  /-- `isRevision` with ` AND child_reference_count > :zero` -/
  | isParent
  /-- `record_type = :cleanup_record` -/
  | isCleanup
  deriving DecidableEq

def DynamoCondition.holds : DynamoCondition → Option MetadataItem → Bool
  | .notExists, item => item.isNone
  | .versionIs version, some item => item.version = some version
  | .pointerIs revisionId none, some item => item.revisionId = some revisionId
  | .pointerIs revisionId (some version), some item =>
      item.revisionId = some revisionId ∧ item.version = some version
  | .pointerIsNot revisionId, some item => item.revisionId ≠ some revisionId
  | .pointerIsNot _, none => true
  | .isRevision, some item => item.recordType = .revision
  | .isLeaf, some item => item.recordType = .revision ∧ item.childReferenceCount = some 0
  | .isParent, some item =>
      item.recordType = .revision ∧ item.childReferenceCount.any fun children => 0 < children
  | .isCleanup, some item => item.recordType = .revisionCleanup
  | _, none => false

inductive DynamoOperation where
  | conditionCheck (key : ItemKey) (condition : DynamoCondition)
  | put (key : ItemKey) (item : MetadataItem) (condition : DynamoCondition)
  | addChildren (key : ItemKey) (delta : Int) (condition : DynamoCondition)
  | delete (key : ItemKey) (condition : DynamoCondition)
  deriving DecidableEq

abbrev Items := Table ItemKey MetadataItem

/-- One write under its condition; `none` when the condition does not hold. -/
def DynamoOperation.write (items : Items) : DynamoOperation → Option Items
  | .conditionCheck key condition =>
      if condition.holds (items.get? key) then some items else none
  | .put key item condition =>
      if condition.holds (items.get? key) then some (items.insert key item) else none
  | .addChildren key delta condition =>
      match items.get? key with
      | some item =>
          if condition.holds (some item) then some (items.insert key (item.addChildren delta))
          else none
      | none => none
  | .delete key condition =>
      if condition.holds (items.get? key) then some (items.erase key) else none

/-! ## Requests -/

/-- A key of the revision index. -/
structure IndexKey where
  key : ItemKey
  revisionOrder : String
  deriving DecidableEq

structure QueryPage where
  items : List MetadataItem
  lastEvaluatedKey : Option IndexKey
  deriving DecidableEq

inductive AwsRequest where
  | getObject (key : ObjectKey)
  | putObject (key : ObjectKey) (body : JsonValue)
  | deleteObject (key : ObjectKey)
  | getItem (key : ItemKey)
  | putItem (key : ItemKey) (item : MetadataItem) (condition : DynamoCondition)
  | deleteItem (key : ItemKey) (condition : DynamoCondition)
  | transactWriteItems (operations : List DynamoOperation)
  | query (scopeDigest : Digest) (limit : Nat) (exclusiveStartKey : Option IndexKey)
  deriving DecidableEq

@[reducible]
def AwsReply : AwsRequest → Type
  | .getObject _ => JsonValue
  | .putObject _ _ => Unit
  | .deleteObject _ => Unit
  | .getItem _ => Option MetadataItem
  | .putItem _ _ _ => Unit
  | .deleteItem _ _ => Unit
  | .transactWriteItems _ => Unit
  | .query _ _ _ => QueryPage

/-- What a client call raises: by its error code, or an error of the store itself. -/
inductive AwsFailure where
  | conditional | missing | other
  | raised (error : ConfigurationError)
  deriving DecidableEq

namespace Cloud

variable (self : Cloud)

/-- A conditional write of the table. -/
def writeItems (next : Option Items) : Except AwsFailure Unit × Cloud :=
  match next with
  | some items => (.ok (), { self with items })
  | none => (.error .conditional, self)

/-- The entries of the revision index for one scope, in descending order. -/
def indexEntries (scopeDigest : Digest) : List (IndexKey × MetadataItem) :=
  ((self.items.entries.filterMap fun entry =>
    if entry.2.scopeDigest = scopeDigest then
      entry.2.revisionOrder.map fun order => (⟨entry.1, order⟩, entry.2)
    else none).insertionSort fun first second => second.1.revisionOrder ≤ first.1.revisionOrder)

/-- A page of the revision index; a page that reaches its limit names its last key. -/
def query (scopeDigest : Digest) (limit : Nat) (start : Option IndexKey) : QueryPage :=
  let rest := match start with
    | none => self.indexEntries scopeDigest
    | some key => (self.indexEntries scopeDigest).filter fun entry =>
        entry.1.revisionOrder < key.revisionOrder
  let page := rest.take limit
  { items := page.map Prod.snd
    lastEvaluatedKey := if page.length = limit then page.getLast?.map Prod.fst else none }

/-- One request, when nothing disturbs it. -/
def serve : (request : AwsRequest) → Except AwsFailure (AwsReply request) × Cloud
  | .getObject key =>
      match self.objects.get? key with
      | some body => (.ok body, self)
      | none => (.error .missing, self)
  | .putObject key body =>
      match self.objects.get? key with
      | some _ => (.error .conditional, self)
      | none => (.ok (), { self with objects := self.objects.insert key body })
  | .deleteObject key => (.ok (), { self with objects := self.objects.erase key })
  | .getItem key => (.ok (self.items.get? key), self)
  | .putItem key item condition =>
      self.writeItems ((DynamoOperation.put key item condition).write self.items)
  | .deleteItem key condition =>
      self.writeItems ((DynamoOperation.delete key condition).write self.items)
  | .transactWriteItems operations =>
      self.writeItems (operations.foldlM DynamoOperation.write self.items)
  | .query scopeDigest limit start => (.ok (self.query scopeDigest limit start), self)

/-- What the cloud does with a request: serve it, or fail it before or after its effect. -/
inductive Disturbance where
  | none | lost | unanswered
  deriving DecidableEq, Repr

def respond (disturbance : Disturbance) (self : Cloud) (request : AwsRequest) :
    Except AwsFailure (AwsReply request) × Cloud :=
  match disturbance with
  | .none => self.serve request
  | .lost => (.error .other, self)
  | .unanswered => (.error .other, (self.serve request).2)

end Cloud

end Justflow.Stores
