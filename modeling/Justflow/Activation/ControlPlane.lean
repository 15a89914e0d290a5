import Justflow.Activation.Dump
import Justflow.Library.Processes

/-!
# The control plane of activations

Everything that an activation reads or changes, for one runtime scope: the active pointer, the
activation records, the definition catalog with its alias document, the Temporal schedules, the
routes of the workers, and the runtime index of each controller process.  A controller reaches
each of them by requests, and each request is atomic.

A request may be refused with any failure, and a refused write may have taken effect all the
same: the reply can be lost after the commit.
-/

open Fields

namespace Justflow

/-! ## Prepared activations -/

/-- A revision compiled for its scope. -/
structure PreparedActivation where
  scopeDigest : Digest
  revisionId : RevisionIdentity
  bundle : ConfigurationBundle
  policyDigest : ProvenanceDigest
  artifact : WorkerArtifactIdentity
  taskQueueIdentityDigest : ProvenanceDigest
  manifests : List (String × Digest)
  environmentSnapshots : List Digest
  startTargets : List (String × WorkflowStartTarget)
  desiredSchedules : List (String × DesiredSchedule)
  manifestNames : (keys manifests).Nodup
  scheduleKeys : (keys desiredSchedules).Nodup
  scheduleScopes : ∀ entry ∈ desiredSchedules, entry.2.target.scopeDigest = some scopeDigest
  deriving DecidableEq

structure PreparedWorkerDeployment where
  target : PreparedActivation
  assignments : List PreparedActivation
  assigned : target ∈ assignments
  deriving DecidableEq

def PreparedWorkerDeployment.definitionDigests (self : PreparedWorkerDeployment) : List Digest :=
  sortedDigests (self.assignments.flatMap fun assignment => assignment.manifests.map Prod.snd)

/-- What is fixed for a runtime: its scope, its hash function, two naming conventions, and the
records whose size its store admits. -/
structure ActivationHost where
  hashing : Hashing
  scopeDigest : Digest
  workflowType : WorkflowStartTarget → String
  catalogVersion : List (String × Digest) → BoundedText maxExternalVersionLength
  admits : ActivationRecord → Bool

def PreparedWorkerDeployment.registrationDigest (self : PreparedWorkerDeployment)
    (host : ActivationHost) : ProvenanceDigest :=
  host.hashing.provenanceDigest (.obj [
    ("artifact", self.target.artifact.modelDump),
    ("assignments", .arr (self.assignments.map fun assignment => .obj [
      ("configuration_revision_id", .str assignment.revisionId.text),
      ("scope_digest", .str assignment.scopeDigest.text),
      ("task_queue_identity_digest", .str assignment.taskQueueIdentityDigest.text),
      ("workflow_types", .arr (((assignment.startTargets.map fun entry =>
        host.workflowType entry.2).insertionSort (· ≤ ·)).map .str))]))])

/-! ## The state -/

structure ActivePointer where
  revisionId : RevisionIdentity
  version : Nat
  deriving DecidableEq

structure CatalogState where
  aliases : List (String × Digest)
  aliasVersion : Option (BoundedText maxExternalVersionLength)
  deriving DecidableEq

/-- What the workers route new executions to. -/
structure WorkerRoute where
  artifact : WorkerArtifactIdentity
  targets : List (String × WorkflowStartTarget)
  deriving DecidableEq

structure RuntimeIndexSnapshot where
  revisionId : RevisionIdentity
  policyDigest : ProvenanceDigest
  artifact : WorkerArtifactIdentity
  targets : List (String × WorkflowStartTarget)
  triggers : List (String × JsonValue)
  deriving DecidableEq

def PreparedActivation.route (self : PreparedActivation) : WorkerRoute :=
  ⟨self.artifact, self.startTargets⟩

def PreparedActivation.snapshot (self : PreparedActivation) : RuntimeIndexSnapshot :=
  ⟨self.revisionId, self.policyDigest, self.artifact, self.startTargets, self.bundle.triggers⟩

/-- The shared state, and the index of each controller process under its identity. -/
structure ControlPlane where
  now : Instant
  pointer : Option ActivePointer
  records : Digest → Option ActivationRecord
  bundles : RevisionIdentity → Option ConfigurationBundle
  preparation : RevisionIdentity → PreparedActivation
  otherAssignments : List PreparedActivation
  manifests : List (String × Digest)
  aliasDocument : Option (List (String × Digest))
  schedules : List (String × ObservedSchedule)
  registeredDefinitions : List Digest
  routing : Option WorkerRoute
  indexes : Digest → Option RuntimeIndexSnapshot

def ControlPlane.aliases (self : ControlPlane) : List (String × Digest) :=
  self.aliasDocument.getD []

def ControlPlane.aliasVersion (self : ControlPlane) (host : ActivationHost) :
    Option (BoundedText maxExternalVersionLength) :=
  self.aliasDocument.map host.catalogVersion

def ControlPlane.catalogState (self : ControlPlane) (host : ActivationHost) : CatalogState :=
  ⟨self.aliases, self.aliasVersion host⟩

/-- The active artifact that the workers' routes show. -/
def ControlPlane.activeArtifact (self : ControlPlane) : Option WorkerArtifactIdentity :=
  self.routing.map (·.artifact)

/-- The controller that works in one process. -/
structure Controller where
  digest : Digest
  workerBinding : Bool
  scheduleBinding : Bool
  leaseDuration : Nat
  positive : 0 < leaseDuration
  maxTargetsPerScope : Nat
  deriving DecidableEq

/-! ## Requests -/

structure ExternalOperationConfirmation where
  outcome : ActivationExternalOutcome
  observationDigest : ProvenanceDigest
  deriving DecidableEq

structure WorkerDeploymentObservation where
  observationDigest : ProvenanceDigest
  registeredDefinitionDigests : List Digest
  activeArtifact : Option WorkerArtifactIdentity
  deriving DecidableEq

inductive ScheduleUpdateReply where
  | applied | alreadyApplied | ownershipChanged
  deriving DecidableEq, Repr

inductive ActivationRequest where
  | now
  | readActivation (activationId : Digest)
  | createActivation (record : ActivationRecord)
  | updateActivation (record : ActivationRecord) (expectedVersion : Nat)
  | readActive
  | compareAndSwapActive (revisionId : RevisionIdentity)
      (expectedRevisionId : Option RevisionIdentity) (expectedVersion : Option Nat)
  | readRevision (revisionId : RevisionIdentity)
  | prepare (revisionId : RevisionIdentity)
  | prepareWorkerDeployment (prepared : PreparedActivation)
  | storeDefinitionManifest (scopeDigest : Digest) (name : String) (digest : Digest)
  | storeEnvironmentSnapshot (scopeDigest : Digest) (digest : Digest)
  | inspectCatalog
  | replaceAliases (aliases : List (String × Digest))
      (expectedVersion : Option (BoundedText maxExternalVersionLength))
  | observeWorkers
  | rollout (deployment : PreparedWorkerDeployment)
  | readiness (deployment : PreparedWorkerDeployment)
  | route (prepared : PreparedActivation)
  | observeSchedules
  | createSchedule (desired : DesiredSchedule)
  | describeSchedule (scheduleId : String)
  | updateSchedule (desired : DesiredSchedule) (expected : ObservedSchedule)
  | deleteSchedule (scheduleId : String)
  | readIndex (controllerDigest : Digest)
  | replaceIndex (controllerDigest : Digest) (snapshot : RuntimeIndexSnapshot)

@[reducible]
def ActivationReply : ActivationRequest → Type
  | .now => Instant
  | .readActivation _ => ActivationRecord
  | .createActivation _ => ActivationRecord
  | .updateActivation _ _ => ActivationRecord
  | .readActive => Option ActivePointer
  | .compareAndSwapActive _ _ _ => ActivePointer
  | .readRevision _ => ConfigurationBundle
  | .prepare _ => PreparedActivation
  | .prepareWorkerDeployment _ => PreparedWorkerDeployment
  | .storeDefinitionManifest _ _ _ => Unit
  | .storeEnvironmentSnapshot _ _ => Unit
  | .inspectCatalog => CatalogState
  | .replaceAliases _ _ => Option (BoundedText maxExternalVersionLength)
  | .observeWorkers => WorkerDeploymentObservation
  | .rollout _ => ExternalOperationConfirmation
  | .readiness _ => Option WorkerReadinessRegistration
  | .route _ => ExternalOperationConfirmation
  | .observeSchedules => List (String × ObservedSchedule)
  | .createSchedule _ => Bool
  | .describeSchedule _ => Option ObservedSchedule
  | .updateSchedule _ _ => ScheduleUpdateReply
  | .deleteSchedule _ => Unit
  | .readIndex _ => Option RuntimeIndexSnapshot
  | .replaceIndex _ _ => Unit

/-- What the control plane does not determine about one reply. -/
structure ActivationChoice where
  failure : Option ActivationFailure
  landed : Bool
  confirmation : ExternalOperationConfirmation
  readiness : Option WorkerReadinessRegistration

/-! ## How each system serves a request -/

/-- What a schedule looks like once it has been created. -/
def DesiredSchedule.observed (self : DesiredSchedule) : ObservedSchedule where
  scheduleId := self.scheduleId
  owner := some scheduleOwner
  scheduleName := some self.scheduleName
  desiredDigest := some self.desiredDigest.text
  scopeDigest := self.target.scopeDigest.map Digest.text
  actionValid := true
  corruptMetadataKeys := []

/-- `_same_managed_identity`. -/
def sameManagedIdentity (actual : ObservedSchedule) (desired : DesiredSchedule) : Bool :=
  actual.validManagedIdentity ∧ actual.scheduleId = desired.scheduleId ∧
    actual.scheduleName = some desired.scheduleName ∧
    actual.scopeDigest = desired.target.scopeDigest.map Digest.text

/-- `_matches_desired`. -/
def matchesDesired (actual : ObservedSchedule) (desired : DesiredSchedule) : Bool :=
  sameManagedIdentity actual desired ∧ actual.desiredDigest = some desired.desiredDigest.text

namespace ControlPlane

variable (host : ActivationHost) (self : ControlPlane)

/-- The state with one record written. -/
def store (record : ActivationRecord) : ControlPlane :=
  { self with records := Function.update self.records record.activationId (some record) }

def updateActivation (record : ActivationRecord) (expectedVersion : Nat) :
    Except ActivationFailure ActivationRecord × ControlPlane :=
  if record.version ≠ expectedVersion + 1 then
    (.error (.integrity "Activation version transition is invalid"), self)
  else if ¬ host.admits record then
    (.error (.limit "Activation record exceeds its byte limit"), self)
  else
    match self.records record.activationId with
    | some current =>
        if current.version = expectedVersion then (.ok record, self.store record)
        else (.error (.conflict record.activationId), self)
    | none => (.error (.conflict record.activationId), self)

def createActivation (record : ActivationRecord) :
    Except ActivationFailure ActivationRecord × ControlPlane :=
  if ¬ host.admits record then
    (.error (.limit "Activation record exceeds its byte limit"), self)
  else
  match self.records record.activationId with
  | some existing =>
      if existing.requestDigest ≠ record.requestDigest ∨
          existing.idempotencyKeyDigest ≠ record.idempotencyKeyDigest then
        (.error (.conflict record.activationId), self)
      else (.ok existing, self)
  | none => (.ok record, self.store record)

def compareAndSwapActive (revisionId : RevisionIdentity)
    (expectedRevisionId : Option RevisionIdentity) (expectedVersion : Option Nat) :
    Except ActivationFailure ActivePointer × ControlPlane :=
  if self.pointer.map (·.revisionId) ≠ expectedRevisionId ∨
      (expectedVersion.isSome ∧ self.pointer.map (·.version) ≠ expectedVersion) then
    (.error .configurationConflict, self)
  else
    let pointer : ActivePointer :=
      { revisionId, version := match self.pointer with
          | none => 1
          | some current => current.version + 1 }
    (.ok pointer, { self with pointer := some pointer })

/-- `replace_aliases` over the backend's compare-and-swap. -/
def replaceAliases (aliases : List (String × Digest))
    (expectedVersion : Option (BoundedText maxExternalVersionLength)) :
    Except ActivationFailure (Option (BoundedText maxExternalVersionLength)) × ControlPlane :=
  if ∃ entry ∈ aliases, entry ∉ self.manifests then (.error .catalog, self)
  else if self.aliasDocument = some aliases then (.ok (self.aliasVersion host), self)
  else if self.aliasVersion host ≠ expectedVersion then (.error .catalogConflict, self)
  else (.ok (some (host.catalogVersion aliases)), { self with aliasDocument := some aliases })

def createSchedule (desired : DesiredSchedule) : Except ActivationFailure Bool × ControlPlane :=
  match self.schedules.lookup desired.scheduleId with
  | some _ => (.ok false, self)
  | none => (.ok true, { self with
      schedules := self.schedules ++ [(desired.scheduleId, desired.observed)] })

def updateSchedule (desired : DesiredSchedule) (expected : ObservedSchedule) :
    Except ActivationFailure ScheduleUpdateReply × ControlPlane :=
  match self.schedules.lookup desired.scheduleId with
  | none => (.ok .ownershipChanged, self)
  | some actual =>
      if ¬ sameManagedIdentity actual desired then (.ok .ownershipChanged, self)
      else if actual.desiredDigest = some desired.desiredDigest.text then (.ok .alreadyApplied, self)
      else if actual ≠ expected then (.ok .ownershipChanged, self)
      else (.ok .applied, { self with
        schedules := set desired.scheduleId
          { actual with desiredDigest := some desired.desiredDigest.text, actionValid := true }
          self.schedules })

def deleteSchedule (scheduleId : String) : Except ActivationFailure Unit × ControlPlane :=
  (.ok (), { self with schedules := self.schedules.filter fun entry => entry.1 ≠ scheduleId })

def storeDefinitionManifest (scopeDigest : Digest) (name : String) (digest : Digest) :
    Except ActivationFailure Unit × ControlPlane :=
  if scopeDigest = host.scopeDigest ∧ (name, digest) ∉ self.manifests then
    (.ok (), { self with manifests := self.manifests ++ [(name, digest)] })
  else (.ok (), self)

/-- The digest of what a controller without worker binding observes. -/
def indexObservation (controllerDigest : Digest) : WorkerDeploymentObservation :=
  let indexed := self.indexes controllerDigest
  let definitions := (indexed.map fun snapshot =>
    snapshot.targets.map fun entry => entry.2.definitionDigest).getD []
  { observationDigest := host.hashing.provenanceDigest (.obj [
      ("artifact", .ofOption (fun snapshot => snapshot.artifact.modelDump) indexed),
      ("definitions", .arr ((sortedDigests definitions).map fun d => .str d.text)),
      ("scope_digest", .str host.scopeDigest.text)])
    registeredDefinitionDigests := definitions
    activeArtifact := indexed.map (·.artifact) }

/-- One request, when nothing refuses it. -/
def serve (choice : ActivationChoice) : (request : ActivationRequest) →
    Except ActivationFailure (ActivationReply request) × ControlPlane
  | .now => (.ok self.now, self)
  | .readActivation activationId =>
      match self.records activationId with
      | some record => (.ok record, self)
      | none => (.error .notFound, self)
  | .createActivation record => self.createActivation host record
  | .updateActivation record expectedVersion =>
      self.updateActivation host record expectedVersion
  | .readActive => (.ok self.pointer, self)
  | .compareAndSwapActive revisionId expectedRevisionId expectedVersion =>
      self.compareAndSwapActive revisionId expectedRevisionId expectedVersion
  | .readRevision revisionId =>
      match self.bundles revisionId with
      | some bundle => (.ok bundle, self)
      | none => (.error .configuration, self)
  | .prepare revisionId => (.ok (self.preparation revisionId), self)
  | .prepareWorkerDeployment prepared =>
      (.ok ⟨prepared, prepared :: self.otherAssignments, List.mem_cons_self⟩, self)
  | .storeDefinitionManifest scopeDigest name digest =>
      self.storeDefinitionManifest host scopeDigest name digest
  | .storeEnvironmentSnapshot _ _ => (.ok (), self)
  | .inspectCatalog => (.ok (self.catalogState host), self)
  | .replaceAliases aliases expectedVersion => self.replaceAliases host aliases expectedVersion
  | .observeWorkers =>
      (.ok ⟨choice.confirmation.observationDigest, self.registeredDefinitions,
        self.activeArtifact⟩, self)
  | .rollout deployment =>
      (.ok choice.confirmation, { self with
        registeredDefinitions := self.registeredDefinitions ++ deployment.definitionDigests })
  | .readiness _ => (.ok choice.readiness, self)
  | .route prepared => (.ok choice.confirmation, { self with routing := some prepared.route })
  | .observeSchedules => (.ok self.schedules, self)
  | .createSchedule desired => self.createSchedule desired
  | .describeSchedule scheduleId => (.ok (self.schedules.lookup scheduleId), self)
  | .updateSchedule desired expected => self.updateSchedule desired expected
  | .deleteSchedule scheduleId => self.deleteSchedule scheduleId
  | .readIndex controllerDigest => (.ok (self.indexes controllerDigest), self)
  | .replaceIndex controllerDigest snapshot =>
      (.ok (), { self with
        indexes := Function.update self.indexes controllerDigest (some snapshot) })

/-- One request, which may be refused with or without taking effect. -/
def respond (choice : ActivationChoice) (request : ActivationRequest) :
    Except ActivationFailure (ActivationReply request) × ControlPlane :=
  match choice.failure with
  | some failure =>
      (.error failure, if choice.landed then (self.serve host choice request).2 else self)
  | none => self.serve host choice request

end ControlPlane

/-- Changes that no controller makes. -/
inductive ActivationTick where
  | advance (duration : Nat)
  | restart (controllerDigest : Digest)
  | disturb (change : ControlPlane)

/-- Time passes, a process starts with an empty index, or an outside party changes the systems
around the pointer and the records. -/
def ControlPlane.elapse (tick : ActivationTick) (self : ControlPlane) : ControlPlane :=
  match tick with
  | .advance duration => { self with now := self.now + duration }
  | .restart controllerDigest =>
      { self with indexes := Function.update self.indexes controllerDigest none }
  | .disturb change =>
      { change with now := self.now, pointer := self.pointer, records := self.records,
                    indexes := self.indexes }

end Justflow
