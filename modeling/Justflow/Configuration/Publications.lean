import Justflow.Configuration.Sqlite
import Justflow.Library.Processes

/-!
# Publishing and discarding a draft

A publication validates the working draft of a scope and stores it as two immutable revisions; a
discard puts the active configuration back into the draft.  Both reserve a record under their
idempotency key first and complete it last, and talk to the two stores one request at a time, so
that any number of them may overlap, be stopped and be tried again.
-/

open Process

namespace Justflow

open Stores

/-! ## Records -/

inductive PublicationState where
  | pending | applied | failed
  deriving DecidableEq

inductive PublicationErrorCode where
  | invalidConfiguration | conflict | catalogUnavailable | storeUnavailable
  deriving DecidableEq

inductive ActivationErrorKind where
  | notFound | conflict | unavailable | integrity | limit
  deriving DecidableEq

/-- What the two operations raise. -/
inductive AuthoringFailure where
  | configuration (error : ConfigurationError)
  /-- A plain `ConfigurationError`. -/
  | authoring (message : String)
  | operation (code : PublicationErrorCode) (message : String) (retryable : Bool)
  | activation (kind : ActivationErrorKind)
  /-- `pydantic.ValidationError`. -/
  | validation
  deriving DecidableEq

structure PublicationFields where
  publicationId : Digest
  scopeDigest : Digest
  idempotencyKeyDigest : Digest
  requestDigest : ProvenanceDigest
  actorDigest : Digest
  correlationDigest : Digest
  policyDigest : ProvenanceDigest
  sourceParentRevisionId : Option RevisionIdentity := none
  expectedActiveRevisionId : Option RevisionIdentity := none
  sourceRevisionId : Option RevisionIdentity := none
  publishedRevisionId : Option RevisionIdentity := none
  state : PublicationState := .pending
  errorCode : Option PublicationErrorCode := none
  version : Nat := 1
  createdAt : Nat
  updatedAt : Nat
  deriving DecidableEq

/-- `validate_outcome`, with the bound on the version. -/
def PublicationFields.valid (self : PublicationFields) : Bool :=
  1 ≤ self.version && self.createdAt ≤ self.updatedAt &&
    match self.state with
    | .applied => self.sourceRevisionId.isSome && self.publishedRevisionId.isSome &&
        self.errorCode.isNone
    | .failed => self.errorCode.isSome
    | .pending => self.sourceRevisionId.isNone && self.publishedRevisionId.isNone &&
        self.errorCode.isNone

structure PublicationRecord extends PublicationFields where
  accepted : toPublicationFields.valid = true
  deriving DecidableEq

def PublicationFields.modelValidate (self : PublicationFields) :
    Except AuthoringFailure PublicationRecord :=
  if h : self.valid = true then .ok ⟨self, h⟩ else .error .validation

def completePublication (record : PublicationRecord)
    (sourceRevisionId publishedRevisionId : RevisionIdentity) (occurredAt : Nat) :
    Except AuthoringFailure PublicationRecord :=
  PublicationFields.modelValidate { record.toPublicationFields with
    sourceRevisionId := some sourceRevisionId
    publishedRevisionId := some publishedRevisionId
    state := .applied
    errorCode := none
    version := record.version + 1
    updatedAt := occurredAt }

def failPublication (record : PublicationRecord) (errorCode : PublicationErrorCode)
    (occurredAt : Nat) : Except AuthoringFailure PublicationRecord :=
  PublicationFields.modelValidate { record.toPublicationFields with
    state := .failed
    errorCode := some errorCode
    version := record.version + 1
    updatedAt := occurredAt }

/-- A failed publication is tried again. -/
def reopenPublication (record : PublicationRecord) (now : Nat) :
    Except AuthoringFailure PublicationRecord :=
  PublicationFields.modelValidate { record.toPublicationFields with
    sourceRevisionId := none
    publishedRevisionId := none
    state := .pending
    errorCode := none
    version := record.version + 1
    updatedAt := now }

inductive ConfigurationDiscardState where
  | pending | applied | failed
  deriving DecidableEq

inductive ConfigurationDiscardErrorCode where
  | conflict
  deriving DecidableEq

structure DiscardFields where
  discardId : Digest
  scopeDigest : Digest
  idempotencyKeyDigest : Digest
  requestDigest : ProvenanceDigest
  actorDigest : Digest
  correlationDigest : Digest
  expectedDraftVersion : Int
  expectedActiveIdentity : RevisionIdentity
  activeDocumentDigest : ProvenanceDigest
  resultDraftVersion : Option Int := none
  definitionsPublished : Option Bool := none
  state : ConfigurationDiscardState := .pending
  errorCode : Option ConfigurationDiscardErrorCode := none
  version : Nat := 1
  createdAt : Nat
  updatedAt : Nat
  deriving DecidableEq

def DiscardFields.valid (self : DiscardFields) : Bool :=
  1 ≤ self.version && 1 ≤ self.expectedDraftVersion && self.resultDraftVersion.all (1 ≤ ·) &&
    self.createdAt ≤ self.updatedAt &&
    match self.state with
    | .applied => self.resultDraftVersion.isSome && self.errorCode.isNone
    | .failed => self.errorCode.isSome && self.resultDraftVersion.isNone &&
        self.definitionsPublished.isNone
    | .pending => self.resultDraftVersion.isNone && self.errorCode.isNone &&
        self.definitionsPublished.isNone

structure ConfigurationDiscardRecord extends DiscardFields where
  accepted : toDiscardFields.valid = true
  deriving DecidableEq

def DiscardFields.modelValidate (self : DiscardFields) :
    Except AuthoringFailure ConfigurationDiscardRecord :=
  if h : self.valid = true then .ok ⟨self, h⟩ else .error .validation

/-- `complete_discard`, of a store that publishes no definitions. -/
def completeDiscard (record : ConfigurationDiscardRecord) (resultDraftVersion : Int)
    (occurredAt : Nat) : Except AuthoringFailure ConfigurationDiscardRecord :=
  DiscardFields.modelValidate { record.toDiscardFields with
    resultDraftVersion := some resultDraftVersion
    definitionsPublished := none
    state := .applied
    errorCode := none
    version := record.version + 1
    updatedAt := occurredAt }

def failDiscard (record : ConfigurationDiscardRecord) (errorCode : ConfigurationDiscardErrorCode)
    (occurredAt : Nat) : Except AuthoringFailure ConfigurationDiscardRecord :=
  DiscardFields.modelValidate { record.toDiscardFields with
    resultDraftVersion := none
    definitionsPublished := none
    state := .failed
    errorCode := some errorCode
    version := record.version + 1
    updatedAt := occurredAt }

structure ConfigurationDiscardResult where
  discardId : Digest
  workingVersion : Int
  activeIdentity : RevisionIdentity
  definitionsPublished : Option Bool
  deriving DecidableEq

/-! ## The activation store -/

/-- The fields of a record that the store reads. -/
structure ConditionalRecord (R : Type) where
  identity : R → Digest
  scopeDigest : R → Digest
  requestDigest : R → ProvenanceDigest
  idempotencyKeyDigest : R → Digest
  version : R → Nat

def publicationRecords : ConditionalRecord PublicationRecord where
  identity record := record.publicationId
  scopeDigest record := record.scopeDigest
  requestDigest record := record.requestDigest
  idempotencyKeyDigest record := record.idempotencyKeyDigest
  version record := record.version

def discardRecords : ConditionalRecord ConfigurationDiscardRecord where
  identity record := record.discardId
  scopeDigest record := record.scopeDigest
  requestDigest record := record.requestDigest
  idempotencyKeyDigest record := record.idempotencyKeyDigest
  version record := record.version

namespace ConditionalRecord

variable {R : Type} (fields : ConditionalRecord R) (scopeDigest : Digest)
  (records : Digest → Option R)

def read (identity : Digest) : Except AuthoringFailure R :=
  match records identity with
  | none => .error (.activation .notFound)
  | some record => .ok record

/-- A repeated creation returns the record that is there. -/
def create (record : R) : Except AuthoringFailure (R × (Digest → Option R)) :=
  if fields.scopeDigest record ≠ scopeDigest then .error (.activation .integrity)
  else
    match records (fields.identity record) with
    | some existing =>
        if fields.requestDigest existing ≠ fields.requestDigest record ∨
            fields.idempotencyKeyDigest existing ≠ fields.idempotencyKeyDigest record then
          .error (.activation .conflict)
        else .ok (existing, records)
    | none => .ok (record, Function.update records (fields.identity record) (some record))

def update (record : R) (expectedVersion : Nat) :
    Except AuthoringFailure (R × (Digest → Option R)) :=
  if fields.scopeDigest record ≠ scopeDigest then .error (.activation .integrity)
  else if fields.version record ≠ expectedVersion + 1 then .error (.activation .integrity)
  else
    match records (fields.identity record) with
    | some current =>
        if fields.version current = expectedVersion then
          .ok (record, Function.update records (fields.identity record) (some record))
        else .error (.activation .conflict)
    | none => .error (.activation .conflict)

end ConditionalRecord

/-! ## The two stores -/

/-- What is fixed: the documents, and what a document says of where it comes from. -/
structure AuthoringHost extends ConfigurationHost where
  isTenant : JsonValue → Bool
  tenantResolution : JsonValue → Option RevisionIdentity

abbrev AuthoringHost.Document (self : AuthoringHost) : Type :=
  ConfigurationDocument self.toConfigurationHost

structure AuthoringWorld where
  store : SqliteStore := .empty
  publications : Digest → Option PublicationRecord := fun _ => none
  discards : Digest → Option ConfigurationDiscardRecord := fun _ => none

/-- What the validation of a draft against its policy and its components says. -/
inductive DraftValidation (host : AuthoringHost) where
  | valid (resolved : host.Document)
  | unavailable
  | invalid

variable (host : AuthoringHost)

inductive AuthoringRequest where
  | readDraft
  | compareAndSwapDraft (bundle : host.Document) (expectedVersion : Option Int)
  | createRevision (bundle : host.Document) (parent : Option RevisionIdentity)
  | readRevision (revisionId : RevisionIdentity)
  | readActive
  | compareAndSwapActive (revisionId : RevisionIdentity)
      (expectedRevisionId : Option RevisionIdentity) (expectedVersion : Option Int)
  | retainRevisions (keepLatest deleteLimit : Int)
  | readPublication (publicationId : Digest)
  | createPublication (record : PublicationRecord)
  | updatePublication (record : PublicationRecord) (expectedVersion : Nat)
  | readDiscard (discardId : Digest)
  | createDiscard (record : ConfigurationDiscardRecord)
  | updateDiscard (record : ConfigurationDiscardRecord) (expectedVersion : Nat)
  | readPolicy
  | validateDraft (bundle : host.Document) (policy : JsonValue) (parent : Option RevisionIdentity)
  | now

abbrev AuthoringReply : AuthoringRequest host → Type
  | .readDraft => Option (DraftRecord host.toConfigurationHost)
  | .compareAndSwapDraft _ _ => DraftRecord host.toConfigurationHost
  | .createRevision _ _ => RevisionRecord host.toConfigurationHost
  | .readRevision _ => RevisionRecord host.toConfigurationHost
  | .readActive => Option Stores.ActivePointer
  | .compareAndSwapActive _ _ _ => Stores.ActivePointer
  | .retainRevisions _ _ => List RevisionIdentity
  | .readPublication _ => PublicationRecord
  | .createPublication _ => PublicationRecord
  | .updatePublication _ _ => PublicationRecord
  | .readDiscard _ => ConfigurationDiscardRecord
  | .createDiscard _ => ConfigurationDiscardRecord
  | .updateDiscard _ _ => ConfigurationDiscardRecord
  | .readPolicy => JsonValue
  | .validateDraft _ _ _ => DraftValidation host
  | .now => Nat

/-- What the clocks, the policy source and the backends decide.  A request that fails may have
taken effect. -/
structure AuthoringCircumstance where
  failure : Option AuthoringFailure := none
  landed : Bool := false
  now : Nat
  reading : Option UtcTime
  policy : JsonValue
  validation : DraftValidation host

variable {host}

def AuthoringWorld.withStore {α : Type} (self : AuthoringWorld) :
    Except ConfigurationError (α × SqliteStore) → Except AuthoringFailure α × AuthoringWorld
  | .ok (value, store) => (.ok value, { self with store })
  | .error error => (.error (.configuration error), self)

def AuthoringWorld.withPublications {α : Type} (self : AuthoringWorld) :
    Except AuthoringFailure (α × (Digest → Option PublicationRecord)) →
      Except AuthoringFailure α × AuthoringWorld
  | .ok (value, publications) => (.ok value, { self with publications })
  | .error error => (.error error, self)

def AuthoringWorld.withDiscards {α : Type} (self : AuthoringWorld) :
    Except AuthoringFailure (α × (Digest → Option ConfigurationDiscardRecord)) →
      Except AuthoringFailure α × AuthoringWorld
  | .ok (value, discards) => (.ok value, { self with discards })
  | .error error => (.error error, self)

/-- The answer to a request, and the world after it. -/
def AuthoringWorld.serve (self : AuthoringWorld) (scopeDigest : Digest)
    (circumstance : AuthoringCircumstance host) :
    (request : AuthoringRequest host) →
      Except AuthoringFailure (AuthoringReply host request) × AuthoringWorld
  | .readDraft => ((self.store.readDraft scopeDigest).mapError .configuration, self)
  | .compareAndSwapDraft bundle expectedVersion =>
      self.withStore (self.store.compareAndSwapDraft scopeDigest bundle expectedVersion)
  | .createRevision bundle parent =>
      self.withStore (self.store.createRevision scopeDigest bundle parent circumstance.reading)
  | .readRevision revisionId =>
      ((self.store.readRevision scopeDigest revisionId).mapError .configuration, self)
  | .readActive => (.ok (self.store.readActive scopeDigest), self)
  | .compareAndSwapActive revisionId expectedRevisionId expectedVersion =>
      self.withStore (self.store.compareAndSwapActive scopeDigest revisionId expectedRevisionId
        expectedVersion)
  | .retainRevisions keepLatest deleteLimit =>
      self.withStore (self.store.retainRevisions scopeDigest keepLatest deleteLimit)
  | .readPublication publicationId =>
      (ConditionalRecord.read self.publications publicationId, self)
  | .createPublication record =>
      self.withPublications (publicationRecords.create scopeDigest self.publications record)
  | .updatePublication record expectedVersion =>
      self.withPublications
        (publicationRecords.update scopeDigest self.publications record expectedVersion)
  | .readDiscard discardId => (ConditionalRecord.read self.discards discardId, self)
  | .createDiscard record =>
      self.withDiscards (discardRecords.create scopeDigest self.discards record)
  | .updateDiscard record expectedVersion =>
      self.withDiscards (discardRecords.update scopeDigest self.discards record expectedVersion)
  | .readPolicy => (.ok circumstance.policy, self)
  | .validateDraft _ _ _ => (.ok circumstance.validation, self)
  | .now => (.ok circumstance.now, self)

def authoringRespond (scopeDigest : Digest) (circumstance : AuthoringCircumstance host)
    (world : AuthoringWorld) (request : AuthoringRequest host) :
    Except AuthoringFailure (AuthoringReply host request) × AuthoringWorld :=
  let answer := world.serve scopeDigest circumstance request
  match circumstance.failure with
  | none => answer
  | some failure => (.error failure, if circumstance.landed then answer.2 else world)

/-! ## The service -/

abbrev AuthoringProcess (host : AuthoringHost) :=
  @Process (AuthoringRequest host) (AuthoringReply host) AuthoringFailure

/-- Publications and discards of one scope. -/
structure ConfigurationPublicationService (host : AuthoringHost) where
  scopeDigest : Digest

/-- Who asks for an operation, and under which key. -/
structure SubmittedOperation where
  idempotencyKey : String
  actorIdentity : String
  correlationIdentity : String

namespace ConfigurationPublicationService

variable (service : ConfigurationPublicationService host)

/-- One request to a store, the policy source or the clock. -/
def ask (request : AuthoringRequest host) : AuthoringProcess host (AuthoringReply host request) :=
  Process.call request

def configurationConflict {α : Type} : AuthoringProcess host α :=
  throw (.configuration .conflict)

def publicationConflict {α : Type} (message : String) : AuthoringProcess host α :=
  throw (.operation .conflict message false)

/-- `publication_identity`. -/
def publicationIdentity (idempotencyKey : String) : Digest :=
  host.hashing.safeIdentityDigest "publication"
    (service.scopeDigest.text ++ ":" ++ idempotencyKey)

def discardIdentity (idempotencyKey : String) : Digest :=
  host.hashing.safeIdentityDigest "configuration-discard"
    (service.scopeDigest.text ++ ":" ++ idempotencyKey)

/-- `_publication_digest`. -/
def publicationDigest (draftVersion : Int) (document : host.Document)
    (policyDigest : ProvenanceDigest) (activeRevisionId sourceParentRevisionId :
      Option RevisionIdentity) : ProvenanceDigest :=
  let publication := host.hashing.provenanceDigest (.obj [
    ("document_digest", .str (host.hashing.sha256 (Hashing.canonicalText document.value)).text),
    ("draft_version", .int draftVersion),
    ("scope_digest", .str service.scopeDigest.text)])
  host.hashing.provenanceDigest (.obj [
    ("active_revision_id", .ofOption (fun revision : Digest => .str revision.text)
      activeRevisionId),
    ("policy_digest", .str policyDigest.text),
    ("publication", .str publication.text),
    ("source_parent_revision_id", .ofOption (fun revision : Digest => .str revision.text)
      sourceParentRevisionId)])

def activeDocumentDigest (document : host.Document) : ProvenanceDigest :=
  host.hashing.provenanceDigest (.obj [("configuration", document.value)])

/-- The request digest of a discard. -/
def discardDigest (draftVersion : Int) (document : host.Document)
    (activeIdentity : RevisionIdentity) : ProvenanceDigest :=
  host.hashing.provenanceDigest (.obj [
    ("active_document_digest", .str (activeDocumentDigest document).text),
    ("active_identity", .str activeIdentity.text),
    ("draft_version", .int draftVersion),
    ("scope_digest", .str service.scopeDigest.text)])

/-- `read_draft`. -/
def readDraft : AuthoringProcess host (DraftRecord host.toConfigurationHost) := do
  match ← ask .readDraft with
  | none => throw (.configuration (.notFound "Configuration draft was not found"))
  | some draft =>
      if host.isTenant draft.bundle.value then return draft
      else throw (.authoring "Managed configuration draft has an invalid document type")

/-! ### Publishing -/

/-- The record of an idempotency key, if there is one. -/
def findPublication (publicationId : Digest) :
    AuthoringProcess host (Option PublicationRecord) :=
  (some <$> ask (.readPublication publicationId)).rescue fun
    | .activation .notFound => pure none
    | other => throw other

/-- A publication that was applied is answered again, for the request that it was made for. -/
def replayPublication (existing : PublicationRecord) (expectedDraftVersion : Int) :
    AuthoringProcess host PublicationRecord := do
  match existing.sourceRevisionId with
  | none => throw (.authoring "Applied publication has no source revision")
  | some sourceRevisionId =>
      let source ← ask (.readRevision sourceRevisionId)
      let submitted := service.publicationDigest expectedDraftVersion source.bundle
        existing.policyDigest existing.expectedActiveRevisionId existing.sourceParentRevisionId
      if submitted ≠ existing.requestDigest then
        publicationConflict "Publication belongs to another submitted request"
      return existing

/-- `_update_publication`: a conflict with the same request, applied, is no conflict. -/
def updatePublication (pending updated : PublicationRecord) :
    AuthoringProcess host PublicationRecord :=
  (ask (.updatePublication updated pending.version)).rescue fun
    | .activation .conflict => do
        let current ← ask (.readPublication pending.publicationId)
        if current.requestDigest = pending.requestDigest ∧ current.state = .applied then
          return current
        throw (.activation .conflict)
    | other => throw other

/-- `_record_publication_failure`. -/
def recordPublicationFailure (pending : PublicationRecord) (code : PublicationErrorCode) :
    AuthoringProcess host Unit := do
  let now ← ask .now
  let failed ← Process.lift (failPublication pending code now)
  ((fun _ => ()) <$> ask (.updatePublication failed pending.version)).rescue fun
    | .activation .conflict => return ()
    | other => throw other

/-- What is raised when a publication cannot be completed; it is recorded as failed. -/
def failedPublication {α : Type} (pending : PublicationRecord) :
    AuthoringFailure → AuthoringProcess host α
  | .operation code message retryable => do
      recordPublicationFailure pending code
      throw (.operation code message retryable)
  | .configuration ⟨.unavailable, _⟩ => do
      recordPublicationFailure pending .storeUnavailable
      throw (.operation .storeUnavailable "Configuration publication storage is unavailable" true)
  | .configuration ⟨.value, message⟩ => throw (.configuration ⟨.value, message⟩)
  | .configuration _ => do
      recordPublicationFailure pending .invalidConfiguration
      throw (.operation .invalidConfiguration "Configuration publication failed validation" false)
  | .authoring _ => do
      recordPublicationFailure pending .invalidConfiguration
      throw (.operation .invalidConfiguration "Configuration publication failed validation" false)
  | .activation kind => throw (.activation kind)
  | .validation => throw .validation

/-- Validate the draft, store its two revisions and complete the record. -/
def applyPublication (draft : DraftRecord host.toConfigurationHost) (policy : JsonValue)
    (pending : PublicationRecord) : AuthoringProcess host PublicationRecord := do
  match ← ask (.validateDraft draft.bundle policy pending.sourceParentRevisionId) with
  | .unavailable =>
      throw (.operation .catalogUnavailable "Configuration publication dependency is unavailable"
        true)
  | .invalid =>
      throw (.operation .invalidConfiguration "Configuration publication validation failed" false)
  | .valid resolved =>
      let source ← ask (.createRevision draft.bundle pending.sourceParentRevisionId)
      if source.revisionId ≠ configurationRevisionIdentity service.scopeDigest draft.bundle
          pending.sourceParentRevisionId then
        throw (.authoring "Published source revision identity changed")
      let published ← ask (.createRevision resolved pending.expectedActiveRevisionId)
      let occurredAt ← ask .now
      let completed ← Process.lift
        (completePublication pending source.revisionId published.revisionId occurredAt)
      updatePublication pending completed

/-- The reserved record, opened again if an earlier attempt failed. -/
def openPublication (pending : PublicationRecord) (now : Nat) :
    AuthoringProcess host PublicationRecord :=
  match pending.state with
  | .failed => do
      let opened ← Process.lift (reopenPublication pending now)
      ask (.updatePublication opened (opened.version - 1))
  | _ => pure pending

/-- The reservation under the idempotency key. -/
def reservePublication (record : PublicationRecord) : AuthoringProcess host PublicationRecord :=
  (ask (.createPublication record)).rescue fun
    | .activation .conflict =>
        publicationConflict "Publication idempotency key was already used for another request"
    | other => throw other

/-- The record that an attempt submits. -/
def submittedPublication (submitted : SubmittedOperation) (requestDigest : ProvenanceDigest)
    (policyDigest : ProvenanceDigest) (sourceParentRevisionId expectedActiveRevisionId :
      Option RevisionIdentity) (now : Nat) : Except AuthoringFailure PublicationRecord :=
  PublicationFields.modelValidate {
    publicationId := service.publicationIdentity submitted.idempotencyKey
    scopeDigest := service.scopeDigest
    idempotencyKeyDigest :=
      host.hashing.safeIdentityDigest "publication-key" submitted.idempotencyKey
    requestDigest
    actorDigest := host.hashing.safeIdentityDigest "publication-actor" submitted.actorIdentity
    correlationDigest :=
      host.hashing.safeIdentityDigest "publication-correlation" submitted.correlationIdentity
    policyDigest
    sourceParentRevisionId
    expectedActiveRevisionId
    createdAt := now
    updatedAt := now }

/-- `_source_revision_id`. -/
def sourceRevisionId (document : host.Document) : Option RevisionIdentity :=
  if host.isTenant document.value then none else host.tenantResolution document.value

/-- The revision that the active pointer names. -/
def readActiveRevision : Option Stores.ActivePointer →
    AuthoringProcess host (Option (RevisionRecord host.toConfigurationHost))
  | some active => some <$> ask (.readRevision active.revisionId)
  | none => pure none

/-- A publication that was not applied before. -/
def submitPublication (expectedDraftVersion : Int) (submitted : SubmittedOperation) :
    AuthoringProcess host PublicationRecord := do
  let draft ← readDraft
  if draft.version ≠ expectedDraftVersion then configurationConflict
  let active ← ask .readActive
  let activeRevision ← readActiveRevision active
  let sourceParent := activeRevision.bind fun revision => sourceRevisionId revision.bundle
  let policy ← ask .readPolicy
  let policyDigest := host.hashing.provenanceDigest policy
  let activeRevisionId := active.map fun pointer => pointer.revisionId
  let requestDigest := service.publicationDigest draft.version draft.bundle policyDigest
    activeRevisionId sourceParent
  let now ← ask .now
  let record ← Process.lift (service.submittedPublication submitted requestDigest policyDigest
    sourceParent activeRevisionId now)
  let reserved ← reservePublication record
  if reserved.state = .applied then return reserved
  if reserved.requestDigest ≠ requestDigest then
    publicationConflict "Publication request no longer matches its reserved identity"
  let pending ← openPublication reserved now
  (service.applyPublication draft policy pending).rescue (failedPublication pending)

/-- `publish`. -/
def publish (expectedDraftVersion : Int) (submitted : SubmittedOperation) :
    AuthoringProcess host PublicationRecord := do
  match ← findPublication (service.publicationIdentity submitted.idempotencyKey) with
  | none => service.submitPublication expectedDraftVersion submitted
  | some existing =>
      if existing.actorDigest ≠
          host.hashing.safeIdentityDigest "publication-actor" submitted.actorIdentity then
        publicationConflict "Publication belongs to another submitted request"
      if existing.state = .applied then
        service.replayPublication existing expectedDraftVersion
      else service.submitPublication expectedDraftVersion submitted

/-! ### Discarding -/

/-- `_active_authoring_configuration`. -/
def activeAuthoringConfiguration :
    AuthoringProcess host (Option (RevisionIdentity × host.Document)) := do
  match ← ask .readActive with
  | none => return none
  | some active =>
      let resolved ← ask (.readRevision active.revisionId)
      match sourceRevisionId resolved.bundle with
      | none => throw (.authoring "Active configuration has no tenant authoring source revision")
      | some sourceRevisionId =>
          let source ← ask (.readRevision sourceRevisionId)
          if host.isTenant source.bundle.value then
            return some (active.revisionId, source.bundle)
          else
            throw (.authoring "Active tenant authoring source has an invalid document type")

/-- The record that a discard submits. -/
def submittedDiscard (submitted : SubmittedOperation) (expectedDraftVersion : Int)
    (activeIdentity : RevisionIdentity) (active : host.Document) (now : Nat) :
    Except AuthoringFailure ConfigurationDiscardRecord :=
  DiscardFields.modelValidate {
    discardId := service.discardIdentity submitted.idempotencyKey
    scopeDigest := service.scopeDigest
    idempotencyKeyDigest := host.hashing.safeIdentityDigest "discard-key" submitted.idempotencyKey
    requestDigest := service.discardDigest expectedDraftVersion active activeIdentity
    actorDigest := host.hashing.safeIdentityDigest "discard-actor" submitted.actorIdentity
    correlationDigest :=
      host.hashing.safeIdentityDigest "discard-correlation" submitted.correlationIdentity
    expectedDraftVersion
    expectedActiveIdentity := activeIdentity
    activeDocumentDigest := activeDocumentDigest active
    createdAt := now
    updatedAt := now }

/-- `_discard_result`. -/
def discardResult (record : ConfigurationDiscardRecord) :
    Except AuthoringFailure ConfigurationDiscardResult :=
  match record.state, record.resultDraftVersion with
  | .applied, some version => .ok ⟨record.discardId, version, record.expectedActiveIdentity,
      record.definitionsPublished⟩
  | _, _ => .error (.authoring "Configuration discard has no applied outcome")

/-- `_record_discard_failure`. -/
def recordDiscardFailure (record : ConfigurationDiscardRecord) : AuthoringProcess host Unit := do
  let now ← ask .now
  let failed ← Process.lift (failDiscard record .conflict now)
  ((fun _ => ()) <$> ask (.updateDiscard failed record.version)).rescue fun
    | .activation .conflict => return ()
    | other => throw other

/-- Put the active configuration into the draft, or find that this was done. -/
def restoreDraft (expectedDraftVersion : Int) (active : host.Document) :
    AuthoringProcess host (DraftRecord host.toConfigurationHost) := do
  let current ← readDraft
  if current.version = expectedDraftVersion then
    ask (.compareAndSwapDraft active (some expectedDraftVersion))
  else if current.version = expectedDraftVersion + 1 ∧ current.bundle = active then
    return current
  else configurationConflict

/-- Complete the record of a discard whose draft is restored. -/
def finishDiscard (record : ConfigurationDiscardRecord)
    (restored : DraftRecord host.toConfigurationHost) :
    AuthoringProcess host ConfigurationDiscardResult := do
  let now ← ask .now
  let completed ← Process.lift (completeDiscard record restored.version now)
  let stored ← (ask (.updateDiscard completed record.version)).rescue fun
    | .activation .conflict => do
        let stored ← ask (.readDiscard record.discardId)
        if stored.requestDigest ≠ record.requestDigest ∨ stored.state ≠ .applied then
          configurationConflict
        return stored
    | other => throw other
  Process.lift (discardResult stored)

/-- `discard`. -/
def discard (expectedDraftVersion : Int) (expectedActiveIdentity : RevisionIdentity)
    (submitted : SubmittedOperation) : AuthoringProcess host ConfigurationDiscardResult := do
  match ← activeAuthoringConfiguration with
  | none =>
      throw (.configuration (.notFound "Active managed authoring configuration was not found"))
  | some (activeIdentity, active) =>
      if activeIdentity ≠ expectedActiveIdentity then configurationConflict
      let now ← ask .now
      let pending ← Process.lift
        (service.submittedDiscard submitted expectedDraftVersion activeIdentity active now)
      let record ← (ask (.createDiscard pending)).rescue fun
        | .activation .conflict => configurationConflict
        | other => throw other
      if record.requestDigest ≠ service.discardDigest expectedDraftVersion active
          activeIdentity then
        configurationConflict
      match record.state with
      | .applied => Process.lift (discardResult record)
      | .failed => configurationConflict
      | .pending =>
          let restored ← (restoreDraft expectedDraftVersion active).rescue fun
            | .configuration ⟨.conflict, message⟩ => do
                recordDiscardFailure record
                throw (.configuration ⟨.conflict, message⟩)
            | other => throw other
          finishDiscard record restored

/-! ## The system -/

inductive AuthoringCall (host : AuthoringHost) where
  | writeDraft (bundle : host.Document) (expectedVersion : Option Int)
  | publish (expectedDraftVersion : Int) (submitted : SubmittedOperation)
  | discard (expectedDraftVersion : Int) (expectedActiveIdentity : RevisionIdentity)
      (submitted : SubmittedOperation)
  | activate (revisionId : RevisionIdentity) (expectedRevisionId : Option RevisionIdentity)
      (expectedVersion : Option Int)
  | retain (keepLatest deleteLimit : Int)

inductive AuthoringResult where
  | published (record : PublicationRecord)
  | discarded (discardId : Digest) (result : ConfigurationDiscardResult)
  | done
  deriving DecidableEq

def program : AuthoringCall host → AuthoringProcess host AuthoringResult
  | .writeDraft bundle expectedVersion =>
      (fun _ => .done) <$> ask (.compareAndSwapDraft bundle expectedVersion)
  | .publish expectedDraftVersion submitted =>
      .published <$> service.publish expectedDraftVersion submitted
  | .discard expectedDraftVersion expectedActiveIdentity submitted =>
      .discarded (service.discardIdentity submitted.idempotencyKey) <$>
        service.discard expectedDraftVersion expectedActiveIdentity submitted
  | .activate revisionId expectedRevisionId expectedVersion =>
      (fun _ => .done) <$> ask (.compareAndSwapActive revisionId expectedRevisionId
        expectedVersion)
  | .retain keepLatest deleteLimit =>
      (fun _ => .done) <$> ask (.retainRevisions keepLatest deleteLimit)

/-- Any number of operations on the drafts and revisions of one scope. -/
def authoring : Service (AuthoringReply host) AuthoringFailure AuthoringResult AuthoringWorld
    (AuthoringCircumstance host) Unit (AuthoringCall host) Empty where
  respond := authoringRespond service.scopeDigest
  program _ := service.program
  elapse change _ := change.elim

end ConfigurationPublicationService

end Justflow
