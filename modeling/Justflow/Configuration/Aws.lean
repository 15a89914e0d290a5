import Justflow.Configuration.Cloud

/-!
# The AWS configuration store

Immutable bodies in S3, and metadata in DynamoDB under conditions.  A revision is registered
after its body has been stored, and a retention deletes the metadata of a revision before its
body, under a cleanup marker in the place of the metadata.
-/

open Fields JsonValue

namespace Justflow.Stores

abbrev AwsProcess := Process AwsReply AwsFailure

def awsMaxQueryItems : Nat := 10000

namespace AwsStore

open ConfigurationError (integrity unavailable)

variable {host : ConfigurationHost} {α : Type}

def raise (error : ConfigurationError) : AwsProcess α :=
  .fail (.raised error)

/-- Run a pure computation of the store. -/
def lift (result : Except ConfigurationError α) : AwsProcess α :=
  match result with
  | .ok value => .done value
  | .error error => raise error

/-- One request to a client, whose exceptions are translated. -/
def sendRequest (request : AwsRequest) (translate : AwsFailure → AwsProcess (AwsReply request)) :
    AwsProcess (AwsReply request) :=
  tryCatch (Process.call request) translate

/-- An exception of a conditional write. -/
def conditionalFailure (message : String) : AwsFailure → AwsProcess α
  | .conditional => raise .conflict
  | _ => raise (unavailable message)

/-! ## Keys -/

def draftKey (scopeDigest : Digest) : ItemKey := ⟨scopeDigest, .draft⟩
def activeKey (scopeDigest : Digest) : ItemKey := ⟨scopeDigest, .active⟩
def revisionKey (scopeDigest : Digest) (revisionId : RevisionIdentity) : ItemKey :=
  ⟨scopeDigest, .revision revisionId⟩

def draftBodyKey (host : ConfigurationHost) (scopeDigest : Digest) (body : JsonValue) : ObjectKey :=
  ⟨scopeDigest, .drafts, host.hashing.sha256 (Hashing.canonicalText body)⟩

def revisionBodyKey (scopeDigest : Digest) (revisionId : RevisionIdentity) : ObjectKey :=
  ⟨scopeDigest, .revisions, revisionId⟩

/-! ## Attributes -/

/-- A string attribute. -/
def stringOf (value : Option α) : Except ConfigurationError α :=
  match value with
  | some value => .ok value
  | none => .error (integrity "DynamoDB configuration string is invalid")

/-- `_nonnegative_number`. -/
def nonnegativeNumber (value : Option Int) : Except ConfigurationError Int :=
  match value with
  | some value =>
      if value < 0 then .error (integrity "DynamoDB configuration number is invalid")
      else .ok value
  | none => .error (integrity "DynamoDB configuration number is invalid")

/-- `_number`. -/
def number (value : Option Int) : Except ConfigurationError Int := do
  let result ← nonnegativeNumber value
  if result < 1 then throw (integrity "DynamoDB configuration number is invalid")
  return result

/-- `_require_record`. -/
def requireRecord (item : MetadataItem) (scopeDigest : Digest) (recordType : RecordType) :
    Except ConfigurationError Unit :=
  if item.scopeDigest ≠ scopeDigest ∨ item.recordType ≠ recordType then
    .error (integrity "DynamoDB configuration metadata is inconsistent")
  else .ok ()

/-! ## Requests -/

/-- `_get_metadata`. -/
def getMetadata (key : ItemKey) : AwsProcess (Option MetadataItem) :=
  sendRequest (.getItem key) fun _ =>
    raise (unavailable "Cannot read DynamoDB configuration metadata")

/-- `_conditional_put`. -/
def conditionalPut (key : ItemKey) (item : MetadataItem) (condition : DynamoCondition) :
    AwsProcess Unit :=
  sendRequest (.putItem key item condition)
    (conditionalFailure "Cannot conditionally update DynamoDB configuration metadata")

/-- `_transact_write`. -/
def transactWrite (operations : List DynamoOperation) : AwsProcess Unit :=
  sendRequest (.transactWriteItems operations)
    (conditionalFailure "Cannot atomically update DynamoDB configuration metadata")

/-- `_read_body`. -/
def readBody (key : ObjectKey) : AwsProcess JsonValue := do
  let body ← sendRequest (.getObject key) fun
    | .missing => raise (.notFound "Configuration revision body was not found")
    | _ => raise (unavailable "Cannot read S3 configuration body")
  if maxConfigurationEnvelopeBytes < canonicalBytes body then
    raise (.limit "S3 configuration body exceeds its byte limit")
  else return body

/-- `_put_immutable_body`. -/
def putImmutableBody (key : ObjectKey) (body : JsonValue) : AwsProcess Unit :=
  sendRequest (.putObject key body) fun
    | .conditional => do
        let existing ← readBody key
        if existing = body then return ()
        else raise (integrity "Immutable S3 configuration body disagrees")
    | _ => raise (unavailable "Cannot create immutable S3 configuration body")

/-- `_read_bundle`. -/
def readBundle (host : ConfigurationHost) (scopeDigest : Digest) (key : ObjectKey) :
    AwsProcess (ConfigurationDocument host) := do
  if key.scopeDigest ≠ scopeDigest then
    raise (integrity "S3 configuration body key has the wrong scope")
  else
    let payload ← readBody key
    let bundle ← lift (readEnvelope host "S3" scopeDigest payload)
    if key.kind = .drafts ∧ host.hashing.sha256 (Hashing.canonicalText payload) ≠ key.digest then
      raise (integrity "S3 configuration draft digest disagrees")
    else return bundle

/-! ## Drafts -/

def readDraft (host : ConfigurationHost) (scopeDigest : Digest) :
    AwsProcess (Option (DraftRecord host)) := do
  let item ← getMetadata (draftKey scopeDigest)
  match item with
  | none => return none
  | some item =>
      lift (requireRecord item scopeDigest .draft)
      let version ← lift (number item.version)
      let bodyKey ← lift (stringOf item.bodyKey)
      let bundle ← readBundle host scopeDigest bodyKey
      return some ⟨scopeDigest, version, bundle⟩

def compareAndSwapDraft (scopeDigest : Digest) (bundle : ConfigurationDocument host)
    (expectedVersion : Option Int) : AwsProcess (DraftRecord host) := do
  let body ← lift (envelopeBytes scopeDigest bundle)
  let bodyKey := draftBodyKey host scopeDigest body
  putImmutableBody bodyKey body
  let version := match expectedVersion with
    | none => 1
    | some expected => expected + 1
  let condition := match expectedVersion with
    | none => DynamoCondition.notExists
    | some expected => .versionIs expected
  conditionalPut (draftKey scopeDigest) (.draft scopeDigest version bodyKey) condition
  return ⟨scopeDigest, version, bundle⟩

/-! ## Revisions -/

def readRevision (host : ConfigurationHost) (scopeDigest : Digest) (revisionId : RevisionIdentity) :
    AwsProcess (RevisionRecord host) := do
  let item ← getMetadata (revisionKey scopeDigest revisionId)
  match item with
  | none => raise .revisionNotFound
  | some item =>
      lift (requireRecord item scopeDigest .revision)
      let storedRevisionId ← lift (stringOf item.revisionId)
      if storedRevisionId ≠ revisionId then
        raise (integrity "Configuration revision identity disagrees")
      else
        let bodyKey ← lift (stringOf item.bodyKey)
        let bundle ← readBundle host scopeDigest bodyKey
        if configurationRevisionIdentity scopeDigest bundle item.parentRevisionId ≠ revisionId then
          raise (integrity "Configuration revision digest disagrees")
        else
          let createdAt ← lift (stringOf item.createdAt)
          return ⟨scopeDigest, revisionId, item.parentRevisionId, createdAt, bundle⟩

/-- `_create_child_revision_metadata`. -/
def createChildOperations (scopeDigest : Digest) (item : MetadataItem)
    (revisionId parent : RevisionIdentity) : List DynamoOperation :=
  [.addChildren (revisionKey scopeDigest parent) 1 .isRevision,
    .put (revisionKey scopeDigest revisionId) item .notExists]

/-- The metadata write of a creation. -/
def registerRevision (scopeDigest : Digest) (item : MetadataItem) (revisionId : RevisionIdentity) :
    Option RevisionIdentity → AwsProcess Unit
  | none => conditionalPut (revisionKey scopeDigest revisionId) item .notExists
  | some parent => transactWrite (createChildOperations scopeDigest item revisionId parent)

/-- What a creation does when its metadata write was refused. -/
def existingRevision (host : ConfigurationHost) (scopeDigest : Digest)
    (revisionId : RevisionIdentity) (parent : Option RevisionIdentity) :
    AwsProcess (RevisionRecord host) := do
  let existing ← getMetadata (revisionKey scopeDigest revisionId)
  match existing with
  | some item =>
      if item.recordType = .revisionCleanup then raise .conflict
      else readRevision host scopeDigest revisionId
  | none =>
      match parent with
      | some parentId =>
          let _ ← readRevision host scopeDigest parentId
          raise .conflict
      | none => raise .conflict

def createRevision (scopeDigest : Digest) (bundle : ConfigurationDocument host)
    (parent : Option RevisionIdentity) (reading : Option UtcTime) :
    AwsProcess (RevisionRecord host) := do
  let revisionId := configurationRevisionIdentity scopeDigest bundle parent
  let body ← lift (envelopeBytes scopeDigest bundle)
  let bodyKey := revisionBodyKey scopeDigest revisionId
  putImmutableBody bodyKey body
  let createdAt ← lift (timestamp reading)
  let item := MetadataItem.revision scopeDigest revisionId createdAt bodyKey parent 0
  let created : RevisionRecord host := ⟨scopeDigest, revisionId, parent, createdAt, bundle⟩
  tryCatch ((registerRevision scopeDigest item revisionId parent).bind fun _ => .done created) fun
    | .raised error =>
        if error.kind = .conflict then existingRevision host scopeDigest revisionId parent
        else raise error
    | failure => .fail failure

/-- `_revision_summary`. -/
def revisionSummary (scopeDigest : Digest) (item : MetadataItem) :
    Except ConfigurationError RevisionSummary := do
  requireRecord item scopeDigest .revision
  let revisionId ← stringOf item.revisionId
  let createdAt ← stringOf item.createdAt
  return ⟨scopeDigest, revisionId, item.parentRevisionId, createdAt⟩

def listRevisions (scopeDigest : Digest) (limit : Int) (cursor : Option (ScopeCursor IndexKey)) :
    AwsProcess (RevisionPage IndexKey) := do
  if ¬ (1 ≤ limit ∧ limit ≤ maxRevisionPageSize) then
    raise (.limit "Configuration revision page size is invalid")
  else
    let start ← lift (decodeCursor scopeDigest cursor)
    let page ← sendRequest (.query scopeDigest limit.toNat start) fun _ =>
      raise (unavailable "Cannot list DynamoDB configuration revisions")
    if limit.toNat < page.items.length then
      raise (integrity "DynamoDB revision page is invalid")
    else
      let revisions ← lift (page.items.mapM (revisionSummary scopeDigest))
      return ⟨revisions, page.lastEvaluatedKey.map fun key => ⟨scopeDigest, key⟩⟩

/-! ## The active pointer -/

def readActive (scopeDigest : Digest) : AwsProcess (Option ActivePointer) := do
  let item ← getMetadata (activeKey scopeDigest)
  match item with
  | none => return none
  | some item =>
      lift (requireRecord item scopeDigest .active)
      let revisionId ← lift (stringOf item.revisionId)
      let version ← lift (number item.version)
      return some ⟨scopeDigest, revisionId, version⟩

/-- The transaction that moves the pointer. -/
def activateOperations (scopeDigest : Digest) (revisionId : RevisionIdentity) (version : Int)
    (expectedRevisionId : Option RevisionIdentity) (expectedVersion : Option Int) :
    List DynamoOperation :=
  [.conditionCheck (revisionKey scopeDigest revisionId) .isRevision,
    .put (activeKey scopeDigest) (.active scopeDigest revisionId version)
      (match expectedRevisionId with
        | none => .notExists
        | some expected => .pointerIs expected expectedVersion)]

def compareAndSwapActive (host : ConfigurationHost) (scopeDigest : Digest)
    (revisionId : RevisionIdentity) (expectedRevisionId : Option RevisionIdentity)
    (expectedVersion : Option Int) : AwsProcess ActivePointer := do
  let _ ← readRevision host scopeDigest revisionId
  let current ← readActive scopeDigest
  if current.map (·.revisionId) ≠ expectedRevisionId ∨
      (expectedVersion.isSome ∧ current.map (·.version) ≠ expectedVersion) then
    raise .conflict
  else
    let version := match current with
      | none => 1
      | some pointer => pointer.version + 1
    transactWrite (activateOperations scopeDigest revisionId version expectedRevisionId
      expectedVersion)
    return ⟨scopeDigest, revisionId, version⟩

/-! ## Retention -/

/-- `_all_revision_items`. -/
def allRevisionItems (scopeDigest : Digest) : AwsProcess (List MetadataItem) := do
  let page ← sendRequest (.query scopeDigest (awsMaxQueryItems + 1) none) fun _ =>
    raise (unavailable "Cannot scan DynamoDB configuration retention candidates")
  if awsMaxQueryItems < page.items.length ∨ page.lastEvaluatedKey.isSome then
    raise (.limit "Configuration retention scan exceeds its bound")
  else return page.items

/-- The number of items that name a revision as their parent. -/
def childCount (items : List MetadataItem) (revisionId : RevisionIdentity) : Nat :=
  items.countP fun item => item.parentRevisionId = some revisionId

/-- One item of `_validate_child_reference_counts`. -/
def validateParent (items : List MetadataItem) (item : MetadataItem) :
    Except ConfigurationError Unit :=
  match item.parentRevisionId with
  | none => .ok ()
  | some parent =>
      if items.any fun other => other.revisionId = some parent then .ok ()
      else .error (integrity "Configuration revision parent metadata is missing")

def validateChildCount (items : List MetadataItem) (item : MetadataItem) :
    Except ConfigurationError Unit := do
  let revisionId ← stringOf item.revisionId
  let children ← nonnegativeNumber item.childReferenceCount
  if children ≠ childCount items revisionId then
    throw (integrity "Configuration revision child reference count disagrees")

/-- `_validate_child_reference_counts`. -/
def validateChildReferenceCounts (items : List MetadataItem) : Except ConfigurationError Unit := do
  items.forM fun item => discard (stringOf item.revisionId)
  items.forM (validateParent items)
  items.forM (validateChildCount items)

/-- The items that a retention deletes, newest first. -/
def retentionCandidates (items : List MetadataItem) (active : Option ActivePointer)
    (keepLatest deleteLimit : Nat) : List MetadataItem :=
  ((items.drop keepLatest).filter fun item =>
    item.revisionId.all fun revisionId =>
      active.map (·.revisionId) ≠ some revisionId ∧ childCount items revisionId = 0).take
        deleteLimit

/-- The transaction of `_delete_revision_metadata`. -/
def deleteOperations (scopeDigest : Digest) (revisionId : RevisionIdentity)
    (parent : Option RevisionIdentity) : List DynamoOperation :=
  [.conditionCheck (activeKey scopeDigest) (.pointerIsNot revisionId),
    .delete (revisionKey scopeDigest revisionId) .isLeaf] ++
    (match parent with
      | none => []
      | some parent => [.addChildren (revisionKey scopeDigest parent) (-1) .isParent])

/-- The transaction of `_acquire_cleanup_marker`. -/
def markOperations (scopeDigest : Digest) (revisionId : RevisionIdentity) : List DynamoOperation :=
  [.conditionCheck (activeKey scopeDigest) (.pointerIsNot revisionId),
    .put (revisionKey scopeDigest revisionId) (.cleanup scopeDigest revisionId) .notExists]

/-- `_acquire_cleanup_marker`. -/
def acquireCleanupMarker (scopeDigest : Digest) (revisionId : RevisionIdentity) : AwsProcess Bool :=
  tryCatch ((transactWrite (markOperations scopeDigest revisionId)).bind fun _ => .done true) fun
    | .raised error => if error.kind = .conflict then .done false else raise error
    | failure => .fail failure

/-- `_release_cleanup_marker`. -/
def releaseCleanupMarker (scopeDigest : Digest) (revisionId : RevisionIdentity) : AwsProcess Unit :=
  sendRequest (.deleteItem (revisionKey scopeDigest revisionId) .isCleanup) fun
    | .conditional => do
        let item ← getMetadata (revisionKey scopeDigest revisionId)
        if item.isNone then return ()
        else raise .conflict
    | _ => raise (unavailable "Cannot release DynamoDB configuration cleanup marker")

/-- The deletion of the body under the marker, and the release of the marker. -/
def deleteBody (scopeDigest : Digest) (revisionId : RevisionIdentity) : AwsProcess Bool := do
  sendRequest (.deleteObject (revisionBodyKey scopeDigest revisionId)) fun _ => do
    releaseCleanupMarker scopeDigest revisionId
    raise (unavailable "Cannot clean up an orphaned S3 configuration body")
  releaseCleanupMarker scopeDigest revisionId
  return true

/-- The check of a marker that is there already. -/
def requireMarker (scopeDigest : Digest) (revisionId : RevisionIdentity) (item : MetadataItem) :
    Except ConfigurationError Unit := do
  requireRecord item scopeDigest .revisionCleanup
  let storedRevisionId ← stringOf item.revisionId
  if storedRevisionId ≠ revisionId then
    throw (integrity "Configuration cleanup marker identity disagrees")

/-- What a cleanup asks of the item that it finds. -/
def checkMarker (scopeDigest : Digest) (revisionId : RevisionIdentity) :
    Option MetadataItem → AwsProcess Unit
  | some item => lift (requireMarker scopeDigest revisionId item)
  | none => .done ()

/-- The marker that a cleanup works under: the one it found, or its own. -/
def holdMarker (scopeDigest : Digest) (revisionId : RevisionIdentity) :
    Option MetadataItem → AwsProcess Bool
  | some _ => .done true
  | none => acquireCleanupMarker scopeDigest revisionId

def cleanupOrphanedRevisionBody (scopeDigest : Digest) (revisionId : RevisionIdentity) :
    AwsProcess Bool := do
  let item ← getMetadata (revisionKey scopeDigest revisionId)
  checkMarker scopeDigest revisionId item
  let active ← readActive scopeDigest
  if active.map (·.revisionId) = some revisionId then return false
  else
    let held ← holdMarker scopeDigest revisionId item
    if held then deleteBody scopeDigest revisionId else return false

/-- One candidate of a retention. -/
def deleteCandidate (scopeDigest : Digest) (item : MetadataItem) : AwsProcess Unit := do
  let revisionId ← lift (stringOf item.revisionId)
  transactWrite (deleteOperations scopeDigest revisionId item.parentRevisionId)
  let _ ← cleanupOrphanedRevisionBody scopeDigest revisionId
  return ()

def retainRevisions (scopeDigest : Digest) (keepLatest deleteLimit : Int) :
    AwsProcess (List RevisionIdentity) := do
  if keepLatest < 1 ∨ ¬ (1 ≤ deleteLimit ∧ deleteLimit ≤ maxRetentionDeleteCount) then
    raise (.limit "Configuration retention bounds are invalid")
  else
    let items ← allRevisionItems scopeDigest
    lift (validateChildReferenceCounts items)
    let active ← readActive scopeDigest
    let candidates := retentionCandidates items active keepLatest.toNat deleteLimit.toNat
    Process.forEach candidates (deleteCandidate scopeDigest)
    return candidates.filterMap (·.revisionId)

end AwsStore

end Justflow.Stores
