import Justflow.Activation.ControlPlane

/-!
# The activation controller

The programs that a controller runs against the control plane.  `resume` takes the lease of a
record and drives it through its phases.  Each phase is an effect followed by a checkpoint, and
a phase whose checkpoint is recorded is skipped.  Conflicts of the pointer or of the catalog end
the activation as superseded, other failures leave it failed, to be resumed again; failures of
the activation store itself leave the record as it is.
-/

open Fields

namespace Justflow

abbrev ActivationProcess := Process ActivationReply ActivationFailure

open Process (lift)

/-- One request to the control plane. -/
abbrev perform (request : ActivationRequest) : ActivationProcess (ActivationReply request) :=
  Process.call request

/-- Run a host binding whose other failures mean that it is unavailable. -/
def throughBinding {α : Type} (code : ActivationOutcomeCode) (p : ActivationProcess α) :
    ActivationProcess α :=
  tryCatch p fun
    | .controller raised retryable => .fail (.controller raised retryable)
    | _ => .fail (.controller code true)

namespace Controller

variable (host : ActivationHost) (self : Controller)

/-! ## Writes of the record -/

/-- Store a changed record. -/
def save (record updated : ActivationRecord) : ActivationProcess ActivationRecord :=
  perform (.updateActivation updated record.version)

/-- Store a record unless nothing changed. -/
def saveChanged (record updated : ActivationRecord) : ActivationProcess ActivationRecord :=
  if updated = record then .done record else save record updated

/-- `_acquire`. -/
def acquire (record : ActivationRecord) : ActivationProcess ActivationRecord := do
  let now ← perform .now
  let leased ← match acquireActivationLease record self.digest now (now + self.leaseDuration) with
    | .ok leased => .done leased
    | .error _ => .fail (.conflict record.activationId)
  save record leased

/-- `_release`. -/
def release (record : ActivationRecord) : ActivationProcess ActivationRecord := do
  if record.leaseOwnerDigest = none then return record
  let now ← perform .now
  let released ← lift (releaseActivationLease record self.digest now)
  save record released

/-- `_transition`. -/
def transition (record : ActivationRecord) (state : ActivationState)
    (outcome : Option ActivationOutcomeCode) (releaseLease : Bool) :
    ActivationProcess ActivationRecord := do
  let now ← perform .now
  let updated ← lift (transitionActivation record state now outcome releaseLease)
  save record updated

/-- `_checkpoint`. -/
def checkpoint (record : ActivationRecord) (kind : ActivationCheckpointKind)
    (confirmation : ExternalOperationConfirmation) : ActivationProcess ActivationRecord := do
  let now ← perform .now
  let updated ← lift (recordActivationCheckpoint record kind confirmation.outcome
    confirmation.observationDigest now)
  saveChanged record updated

/-- `_register_readiness`. -/
def registerReadiness (record : ActivationRecord) (readiness : WorkerReadinessRegistration) :
    ActivationProcess ActivationRecord := do
  let now ← perform .now
  let updated ← lift (registerWorkerReadiness record readiness now)
  saveChanged record updated

/-- `_start_or_resume`. -/
def startOrResume (record : ActivationRecord) : ActivationProcess ActivationRecord :=
  if record.state = .pending ∨ record.state = .failed then
    transition record .running none false
  else .done record

/-- `_waiting`. -/
def waiting (record : ActivationRecord) : ActivationProcess ActivationRecord :=
  if record.state = .waitingForReadiness then self.release record
  else transition record .waitingForReadiness none true

/-- `_terminal`: the record is read again before it is written. -/
def terminal (activationId : Digest) (state : ActivationState) (outcome : ActivationOutcomeCode) :
    ActivationProcess ActivationRecord := do
  let current ← perform (.readActivation activationId)
  if current.state.terminal then return current
  transition current state (some outcome) true

/-! ## Phases -/

def stalePreparation : ActivationFailure := .controller .stalePlan false

/-- The prepared inputs are those of the plan. -/
structure Prepares (plan : ActivationPlan) (prepared : PreparedActivation)
    (deployment : PreparedWorkerDeployment) : Prop where
  policy : prepared.policyDigest = plan.policyDigest
  artifact : prepared.artifact = plan.targetArtifact
  taskQueue : prepared.taskQueueIdentityDigest = plan.targetTaskQueueIdentityDigest
  registration : deployment.registrationDigest host = plan.targetWorkerRegistrationDigest
  definitions : deployment.definitionDigests = plan.targetDefinitionDigests

instance (plan : ActivationPlan) (prepared : PreparedActivation)
    (deployment : PreparedWorkerDeployment) : Decidable (Prepares host plan prepared deployment) :=
  decidable_of_iff
    (prepared.policyDigest = plan.policyDigest ∧ prepared.artifact = plan.targetArtifact ∧
      prepared.taskQueueIdentityDigest = plan.targetTaskQueueIdentityDigest ∧
      deployment.registrationDigest host = plan.targetWorkerRegistrationDigest ∧
      deployment.definitionDigests = plan.targetDefinitionDigests)
    ⟨fun ⟨h1, h2, h3, h4, h5⟩ => ⟨h1, h2, h3, h4, h5⟩,
      fun ⟨h1, h2, h3, h4, h5⟩ => ⟨h1, h2, h3, h4, h5⟩⟩

/-- `_prepare_record`. -/
def prepareRecord (record : ActivationRecord) :
    ActivationProcess (PreparedActivation × PreparedWorkerDeployment) := do
  let prepared ← perform (.prepare record.plan.targetRevisionId)
  let deployment ← perform (.prepareWorkerDeployment prepared)
  if Prepares host record.plan prepared deployment then return (prepared, deployment)
  throw stalePreparation

/-- Store the manifests and the environment snapshots of one scope. -/
def storeAssignment (assignment : PreparedActivation) : ActivationProcess Unit := do
  Process.forEach assignment.manifests fun entry =>
    perform (.storeDefinitionManifest assignment.scopeDigest entry.1 entry.2)
  Process.forEach assignment.environmentSnapshots fun digest =>
    perform (.storeEnvironmentSnapshot assignment.scopeDigest digest)

def digestsJson (digests : List Digest) : JsonValue :=
  .arr (digests.map fun d => .str d.text)

/-- `_store_definition_objects`. -/
def storeDefinitionObjects (record : ActivationRecord) (deployment : PreparedWorkerDeployment) :
    ActivationProcess ActivationRecord := do
  if hasCheckpoint record .definitions then return record
  Process.forEach deployment.assignments storeAssignment
  checkpoint record .definitions {
    outcome := .confirmed
    observationDigest := host.hashing.provenanceDigest (.obj [
      ("definitions", digestsJson deployment.definitionDigests),
      ("registrations", .str (deployment.registrationDigest host).text)]) }

/-- `_read_worker_readiness`, for the deployment at hand. -/
def readWorkerReadiness (record : ActivationRecord) (deployment : PreparedWorkerDeployment) :
    ActivationProcess (Option WorkerReadinessRegistration) := do
  match record.workerReadiness with
  | some readiness => return some readiness
  | none =>
      if self.workerBinding then
        throughBinding .workerUnavailable (perform (.readiness deployment))
      else return none

/-- `_read_worker_readiness` without a deployment at hand, which is then prepared. -/
def readPreparedReadiness (record : ActivationRecord) :
    ActivationProcess (Option WorkerReadinessRegistration) := do
  match record.workerReadiness with
  | some readiness => return some readiness
  | none =>
      if self.workerBinding then
        let (_, deployment) ← prepareRecord host record
        throughBinding .workerUnavailable (perform (.readiness deployment))
      else return none

def readinessDigest (record : ActivationRecord) : ProvenanceDigest :=
  host.hashing.provenanceDigest (match record.workerReadiness with
    | some readiness => readiness.modelDump
    | none => .obj [])

/-- The readiness checkpoint, which is recorded once. -/
def checkpointReadiness (record : ActivationRecord)
    (confirmation : ExternalOperationConfirmation) : ActivationProcess ActivationRecord :=
  if hasCheckpoint record .workerReadiness then .done record
  else checkpoint record .workerReadiness confirmation

/-- The rollout of `_ensure_worker_ready`. -/
def rolloutWorkers (record : ActivationRecord) (deployment : PreparedWorkerDeployment) :
    ActivationProcess ActivationRecord := do
  let confirmation ← throughBinding .workerUnavailable (perform (.rollout deployment))
  checkpoint record .workerRollout confirmation

/-- The end of `_ensure_worker_ready`, once readiness is registered. -/
def confirmReadiness (record : ActivationRecord) (prepared : PreparedActivation) :
    ActivationProcess ActivationRecord := do
  match record.workerReadiness with
  | none => throw (.integrity "Worker readiness was not registered")
  | some readiness =>
      if readiness.taskQueueIdentityDigest ≠ prepared.taskQueueIdentityDigest then
        throw (.controller .workerUnavailable false)
      checkpointReadiness record ⟨.confirmed, readinessDigest host record⟩

/-- `_ensure_worker_ready` after the rollout. -/
def awaitReadiness (record : ActivationRecord) (prepared : PreparedActivation)
    (deployment : PreparedWorkerDeployment) : ActivationProcess ActivationRecord := do
  match record.workerReadiness with
  | some _ => confirmReadiness host record prepared
  | none => do
      match ← self.readWorkerReadiness record deployment with
      | none => self.waiting record
      | some readiness => do
          let record ← registerReadiness record readiness
          confirmReadiness host record prepared

/-- `_ensure_worker_ready`. -/
def ensureWorkerReady (record : ActivationRecord) (prepared : PreparedActivation)
    (deployment : PreparedWorkerDeployment) : ActivationProcess ActivationRecord := do
  if record.plan.workerAction = .none then
    checkpointReadiness record ⟨.idempotent, record.plan.workerObservationDigest⟩
  else if record.workerReadiness = none ∧ ¬ hasCheckpoint record .workerRollout then
    if self.workerBinding then
      let record ← rolloutWorkers record deployment
      self.awaitReadiness host record prepared deployment
    else self.waiting record
  else self.awaitReadiness host record prepared deployment

/-! ## Schedules -/

/-- What became of one change. -/
inductive ScheduleApplyStatus where
  | applied | alreadyApplied | failed
  deriving DecidableEq, Repr

def ScheduleApplyStatus.value : ScheduleApplyStatus → String
  | .applied => "applied"
  | .alreadyApplied => "already_applied"
  | .failed => "failed"

/-- `_create`. -/
def applyCreate (desired : DesiredSchedule) : ActivationProcess ScheduleApplyStatus := do
  if ← perform (.createSchedule desired) then return .applied
  match ← perform (.describeSchedule desired.scheduleId) with
  | some actual => return if matchesDesired actual desired then .alreadyApplied else .failed
  | none => return .failed

/-- `_update`. -/
def applyUpdate (desired : DesiredSchedule) (expected : ObservedSchedule) :
    ActivationProcess ScheduleApplyStatus := do
  match ← perform (.updateSchedule desired expected) with
  | .applied => return .applied
  | .alreadyApplied => return .alreadyApplied
  | .ownershipChanged => return .failed

/-- `_delete`. -/
def applyDelete (expected : ObservedSchedule) : ActivationProcess ScheduleApplyStatus := do
  match ← perform (.describeSchedule expected.scheduleId) with
  | none => return .alreadyApplied
  | some actual =>
      if actual ≠ expected ∨ ¬ actual.validManagedIdentity then return .failed
      perform (.deleteSchedule expected.scheduleId)
      return .applied

/-- `_apply_change`, whose failures become the status of the change. -/
def applyChange (plan : SchedulePlan) (change : ScheduleChange) :
    ActivationProcess ScheduleApplyStatus :=
  tryCatch (match change.kind with
    | .create => match plan.desired.lookup change.scheduleId with
      | some desired => applyCreate desired
      | none => .done .failed
    | .update => match plan.desired.lookup change.scheduleId, plan.observed.lookup change.scheduleId with
      | some desired, some expected => applyUpdate desired expected
      | _, _ => .done .failed
    | .delete => match plan.observed.lookup change.scheduleId with
      | some expected => applyDelete expected
      | none => .done .failed
    | .conflict => .done .failed) fun _ => .done .failed

/-- `ScheduleReconciler.apply` over the changes of a plan. -/
def applyChanges (plan : SchedulePlan) :
    List ScheduleChange → ActivationProcess (List ScheduleApplyStatus)
  | [] => .done []
  | change :: changes => do
      let status ← applyChange plan change
      let statuses ← applyChanges plan changes
      return status :: statuses

/-- `ReconcilerScheduleActivationBinding.reconcile`. -/
def reconcile (prepared : PreparedActivation) : ActivationProcess ExternalOperationConfirmation := do
  let observed ← perform .observeSchedules
  let plan ← lift (planScheduleReconciliation host.hashing prepared.desiredSchedules
    observed .requireExplicit)
  if plan.hasConflicts then throw .other
  let statuses ← applyChanges plan plan.changes
  if .failed ∈ statuses then throw (.controller .schedulesUnavailable true)
  return {
    outcome := if statuses.all (· = .alreadyApplied) then .idempotent else .confirmed
    observationDigest := host.hashing.provenanceDigest (.obj [
      ("items", .arr ((plan.changes.zip statuses).map fun item => .obj [
        ("change", .str item.1.kind.value), ("schedule_id", .str item.1.scheduleId),
        ("status", .str item.2.value)])),
      ("plan_digest", .str plan.planDigest.text),
      ("scope_digest", .str prepared.scopeDigest.text)]) }

/-- `_reconcile_schedules`. -/
def reconcileSchedules (record : ActivationRecord) (prepared : PreparedActivation) :
    ActivationProcess ActivationRecord := do
  if record.plan.scheduleAction = .none ∨ hasCheckpoint record .schedules then return record
  if ¬ self.scheduleBinding then throw (.controller .schedulesUnavailable true)
  let confirmation ← throughBinding .schedulesUnavailable (reconcile host prepared)
  checkpoint record .schedules confirmation

/-! ## Aliases, routes, pointer and index -/

def aliasesJson (aliases : List (String × Digest)) : JsonValue :=
  .obj (aliases.map fun entry => (entry.1, .str entry.2.text))

/-- The two alias mappings agree, as dictionaries do. -/
def sameAliases (first second : List (String × Digest)) : Bool :=
  sortKeys first = sortKeys second

def aliasConfirmation (prepared : PreparedActivation) (outcome : ActivationExternalOutcome)
    (version : Option (BoundedText maxExternalVersionLength)) :
    ExternalOperationConfirmation where
  outcome
  observationDigest := host.hashing.provenanceDigest (.obj [
    ("aliases", aliasesJson prepared.manifests),
    ("version", .ofOption (fun t : BoundedText _ => .str t.text) version)])

/-- Install the aliases of the target, unless they are installed. -/
def installAliases (record : ActivationRecord) (prepared : PreparedActivation) :
    ActivationProcess ExternalOperationConfirmation := do
  let inspected ← perform .inspectCatalog
  if sameAliases inspected.aliases prepared.manifests then
    return aliasConfirmation host prepared .idempotent inspected.aliasVersion
  if inspected.aliasVersion ≠ record.plan.expectedCatalogAliasVersion then
    throw .catalogConflict
  let version ← perform (.replaceAliases prepared.manifests record.plan.expectedCatalogAliasVersion)
  return aliasConfirmation host prepared .confirmed version

/-- `_switch_catalog`. -/
def switchCatalog (record : ActivationRecord) (prepared : PreparedActivation) :
    ActivationProcess ActivationRecord := do
  if record.plan.definitionAction = .none ∨ hasCheckpoint record .catalogRouting then
    return record
  let confirmation ← installAliases host record prepared
  checkpoint record .catalogRouting confirmation

/-- `_switch_worker_routing`. -/
def switchWorkerRouting (record : ActivationRecord) (prepared : PreparedActivation) :
    ActivationProcess ActivationRecord := do
  if record.plan.routingAction = .none ∨ hasCheckpoint record .workerRouting then return record
  if ¬ self.workerBinding then
    let observation := match record.workerReadiness with
      | some readiness => host.hashing.provenanceDigest readiness.modelDump
      | none => record.plan.workerObservationDigest
    checkpoint record .workerRouting ⟨.idempotent, observation⟩
  else
    let confirmation ← throughBinding .routingUnavailable (perform (.route prepared))
    checkpoint record .workerRouting confirmation

/-- The pointer that the activation moves to. -/
def targetPointer (plan : ActivationPlan) : ActivePointer where
  revisionId := plan.targetRevisionId
  version := match plan.expectedActivePointerVersion with
    | none => 1
    | some version => version + 1

def pointerDigest (pointer : ActivePointer) : ProvenanceDigest :=
  host.hashing.provenanceDigest (.obj [("scope_digest", .str host.scopeDigest.text),
    ("revision_id", .str pointer.revisionId.text), ("version", .int pointer.version)])

/-- Move the pointer, unless it is at the target already. -/
def movePointer (record : ActivationRecord) :
    ActivationProcess ExternalOperationConfirmation := do
  let current ← perform .readActive
  if current = some (targetPointer record.plan) then
    return ⟨.idempotent, pointerDigest host (targetPointer record.plan)⟩
  let pointer ← perform (.compareAndSwapActive record.plan.targetRevisionId
    record.plan.expectedActiveRevisionId record.plan.expectedActivePointerVersion)
  return ⟨.confirmed, pointerDigest host pointer⟩

/-- `_advance_active_pointer`. -/
def advanceActivePointer (record : ActivationRecord) : ActivationProcess ActivationRecord := do
  if hasCheckpoint record .activePointer then return record
  let confirmation ← movePointer host record
  checkpoint record .activePointer confirmation

/-- `_replace_runtime_index`. -/
def replaceRuntimeIndex (record : ActivationRecord) (prepared : PreparedActivation)
    (deployment : PreparedWorkerDeployment) : ActivationProcess ActivationRecord := do
  if hasCheckpoint record .runtimeIndex then return record
  if self.maxTargetsPerScope < prepared.startTargets.length then
    throw (.limit "Runtime index workflow collection exceeds its bound")
  perform (.replaceIndex self.digest prepared.snapshot)
  checkpoint record .runtimeIndex {
    outcome := .confirmed
    observationDigest := host.hashing.provenanceDigest (.obj [
      ("definitions", digestsJson deployment.definitionDigests),
      ("revision_id", .str prepared.revisionId.text),
      ("scope_digest", .str host.scopeDigest.text)]) }

/-! ## The run -/

/-- The phases after the workers are ready. -/
def applyPhases (record : ActivationRecord) (prepared : PreparedActivation)
    (deployment : PreparedWorkerDeployment) : ActivationProcess ActivationRecord := do
  let record ← self.reconcileSchedules host record prepared
  let record ← switchCatalog host record prepared
  let record ← self.switchWorkerRouting host record prepared
  let record ← advanceActivePointer host record
  let record ← self.replaceRuntimeIndex host record prepared deployment
  transition record .applied none true

/-- The phases of a running record. -/
def runPhases (record : ActivationRecord) : ActivationProcess ActivationRecord := do
  let (prepared, deployment) ← prepareRecord host record
  let record ← storeDefinitionObjects host record deployment
  let record ← self.ensureWorkerReady host record prepared deployment
  if record.state = .waitingForReadiness then return record
  self.applyPhases host record prepared deployment

/-- The body of `resume` once the lease is taken. -/
def runLeased (record : ActivationRecord) : ActivationProcess ActivationRecord := do
  let record ← startOrResume record
  if record.state = .waitingForReadiness then
    match record.workerReadiness with
    | some _ => do
        let record ← transition record .running none false
        self.runPhases host record
    | none => do
        match ← self.readPreparedReadiness host record with
        | none => self.release record
        | some readiness => do
            let record ← registerReadiness record readiness
            let record ← transition record .running none false
            self.runPhases host record
  else self.runPhases host record

/-- The error handling of `resume`. -/
def conclude (activationId : Digest) (failure : ActivationFailure) :
    ActivationProcess ActivationRecord :=
  match failure with
  | .configurationConflict => terminal activationId .superseded .configurationConflict
  | .catalogConflict => terminal activationId .superseded .stalePlan
  | .controller code retryable => do
      let _ ← terminal activationId .failed code
      throw (.controller code retryable)
  | .catalog => do
      let _ ← terminal activationId .failed .definitionsUnavailable
      throw (.controller .definitionsUnavailable true)
  | .configuration => do
      let _ ← terminal activationId .failed .internalError
      throw (.controller .internalError false)
  | failure => throw failure

/-- `resume`. -/
def resume (activationId : Digest) : ActivationProcess ActivationRecord := do
  let record ← perform (.readActivation activationId)
  if record.state.terminal then return record
  let record ← self.acquire record
  tryCatch (self.runLeased host record) (conclude activationId)

/-! ## Planning and the other operations -/

/-- The observation of the workers. -/
def workerObservation : ActivationProcess WorkerDeploymentObservation :=
  if self.workerBinding then throughBinding .workerUnavailable (perform .observeWorkers)
  else do
    let indexed ← perform (.readIndex self.digest)
    let definitions := (indexed.map fun snapshot =>
      snapshot.targets.map fun entry => entry.2.definitionDigest).getD []
    return {
      observationDigest := host.hashing.provenanceDigest (.obj [
        ("artifact", .ofOption (fun snapshot => snapshot.artifact.modelDump) indexed),
        ("definitions", digestsJson (sortedDigests definitions)),
        ("scope_digest", .str host.scopeDigest.text)])
      registeredDefinitionDigests := definitions
      activeArtifact := indexed.map (·.artifact) }

def scheduleObservationDigest (observed : List (String × ObservedSchedule)) : ProvenanceDigest :=
  host.hashing.provenanceDigest (.obj [("schedules",
    .arr ((sortKeys (observed.map fun entry => (entry.2.scheduleId, entry.2))).map fun entry =>
      .obj [("desired_digest", .ofOption .str entry.2.desiredDigest),
        ("owner", .ofOption .str entry.2.owner),
        ("schedule_id", .str entry.2.scheduleId),
        ("schedule_name", .ofOption .str entry.2.scheduleName),
        ("scope_digest", .ofOption .str entry.2.scopeDigest)]))])

/-- The observation of the schedules. -/
def scheduleObservation : ActivationProcess ProvenanceDigest :=
  if self.scheduleBinding then
    throughBinding .schedulesUnavailable do
      let observed ← perform .observeSchedules
      return scheduleObservationDigest host observed
  else return host.hashing.provenanceDigest (.obj [("binding", .str "unavailable"),
    ("scope_digest", .str host.scopeDigest.text)])

/-- The bundle of the active revision. -/
def readActiveBundle (activePointer : Option ActivePointer) :
    ActivationProcess (Option ConfigurationBundle) := do
  match activePointer with
  | some pointer =>
      let bundle ← perform (.readRevision pointer.revisionId)
      return some bundle
  | none => return none

/-- `plan`. -/
def plan (targetRevisionId : RevisionIdentity) : ActivationProcess ActivationPlan := do
  let prepared ← perform (.prepare targetRevisionId)
  let deployment ← perform (.prepareWorkerDeployment prepared)
  let activePointer ← perform .readActive
  let activeBundle ← readActiveBundle activePointer
  let catalog ← perform .inspectCatalog
  let worker ← self.workerObservation host
  let scheduleDigest ← self.scheduleObservation host
  let indexed ← perform (.readIndex self.digest)
  let current := match indexed, activePointer with
    | some snapshot, some pointer =>
        if snapshot.revisionId = pointer.revisionId then some snapshot else none
    | _, _ => none
  lift (planConfigurationActivation host.hashing
    { scopeDigest := host.scopeDigest
      revisionId := targetRevisionId
      bundle := prepared.bundle
      artifact := prepared.artifact
      taskQueueIdentityDigest := prepared.taskQueueIdentityDigest
      workerRegistrationDigest := deployment.registrationDigest host
      definitionDigests := deployment.assignments.flatMap fun assignment =>
        assignment.manifests.map Prod.snd }
    { revisionId := activePointer.map (·.revisionId)
      bundle := activeBundle
      artifact := match current with
        | some snapshot => some snapshot.artifact
        | none => worker.activeArtifact
      policyDigest := current.map (·.policyDigest) }
    { activePointerVersion := activePointer.map (·.version)
      catalogAliasVersion := catalog.aliasVersion
      policyDigest := prepared.policyDigest
      workerObservationDigest := worker.observationDigest
      scheduleObservationDigest := scheduleDigest
      registeredDefinitionDigests := worker.registeredDefinitionDigests })

end Controller

/-- The arguments of `activate`. -/
structure ActivationArguments where
  targetRevisionId : RevisionIdentity
  planDigest : ProvenanceDigest
  idempotencyKey : String
  actorIdentity : String
  correlationIdentity : String
  rollbackOfActivationId : Option Digest

namespace ActivationHost

variable (self : ActivationHost)

def maxControlIdentityInputLength : Nat := 256

/-- `control_identity_digest`. -/
def controlIdentityDigest (kind value : String) : Except ActivationFailure Digest := do
  require (value ≠ "" ∧ value.length ≤ maxControlIdentityInputLength) s!"{kind} is invalid"
  return self.hashing.safeIdentityDigest kind value

/-- `activation_identity`. -/
def activationIdentity (idempotencyKey : String) : Except ActivationFailure Digest := do
  require (idempotencyKey ≠ "" ∧ idempotencyKey.length ≤ maxControlIdentityInputLength)
    "Activation idempotency key is invalid"
  return self.hashing.safeIdentityDigest "activation"
    s!"{self.scopeDigest.text}:{idempotencyKey}"

def activationRequestDigest (plan : ActivationPlan) (rollbackOfActivationId : Option Digest) :
    ProvenanceDigest :=
  let request := self.hashing.provenanceDigest (.obj [("plan_digest", .str plan.planDigest.text),
    ("scope_digest", .str plan.scopeDigest.text),
    ("target_revision_id", .str plan.targetRevisionId.text)])
  self.hashing.provenanceDigest (.obj [("activation", .str request.text),
    ("rollback_of_activation_id",
      .ofOption (fun d : Digest => .str d.text) rollbackOfActivationId)])

end ActivationHost

namespace Controller

variable (host : ActivationHost) (self : Controller)

/-- The record that `activate` creates. -/
def pendingRecord (arguments : ActivationArguments) (activationId keyDigest actorDigest
    correlationDigest : Digest) (planned : ActivationPlan) (now : Instant) : ActivationRecord where
  activationId
  scopeDigest := host.scopeDigest
  idempotencyKeyDigest := keyDigest
  requestDigest := host.activationRequestDigest planned arguments.rollbackOfActivationId
  actorDigest
  correlationDigest
  plan := planned
  state := .pending
  version := 1
  transitions := []
  checkpoints := []
  leaseOwnerDigest := none
  leaseExpiresAt := none
  workerReadiness := none
  rollbackOfActivationId := arguments.rollbackOfActivationId
  outcomeCode := none
  createdAt := now
  updatedAt := now

/-- `activate` for an idempotency key that has no record yet. -/
def activateNew (arguments : ActivationArguments) (activationId actorDigest : Digest) :
    ActivationProcess ActivationRecord := do
  let planned ← self.plan host arguments.targetRevisionId
  if planned.planDigest ≠ arguments.planDigest then throw (.controller .stalePlan false)
  let now ← perform .now
  let keyDigest ← lift (host.controlIdentityDigest "activation-key" arguments.idempotencyKey)
  let correlationDigest ← lift (host.controlIdentityDigest "activation-correlation"
    arguments.correlationIdentity)
  let pending ← lift (pendingRecord host arguments activationId keyDigest actorDigest
    correlationDigest planned now).modelValidate
  let record ← perform (.createActivation pending)
  if record.requestDigest ≠ pending.requestDigest then throw (.conflict record.activationId)
  self.resume host record.activationId

/-- `activate`. -/
def activate (arguments : ActivationArguments) : ActivationProcess ActivationRecord := do
  let activationId ← lift (host.activationIdentity arguments.idempotencyKey)
  let actorDigest ← lift (host.controlIdentityDigest "activation-actor" arguments.actorIdentity)
  let existing ← tryCatch (do return some (← perform (.readActivation activationId))) fun
    | .notFound => .done none
    | failure => .fail failure
  match existing with
  | some existing =>
      if existing.plan.planDigest ≠ arguments.planDigest ∨
          existing.plan.targetRevisionId ≠ arguments.targetRevisionId ∨
          existing.rollbackOfActivationId ≠ arguments.rollbackOfActivationId ∨
          existing.actorDigest ≠ actorDigest then
        throw (.conflict activationId)
      self.resume host activationId
  | none => self.activateNew host arguments activationId actorDigest

/-- `register_readiness`. -/
def registerReadinessAndResume (activationId : Digest)
    (registration : WorkerReadinessRegistration) : ActivationProcess ActivationRecord := do
  let record ← perform (.readActivation activationId)
  let _ ← registerReadiness record registration
  self.resume host activationId

/-- Mark the activation that a rollback has undone. -/
def markRolledBack (original : ActivationRecord) : ActivationProcess Unit := do
  let now ← perform .now
  let updated ← lift (transitionActivation original .rolledBack now none false)
  tryCatch (do let _ ← save original updated) fun
    | .conflict identity => do
        let current ← perform (.readActivation original.activationId)
        if current.state ≠ .rolledBack then throw (.conflict identity)
    | failure => .fail failure

/-- `rollback`. -/
def rollback (activationId : Digest) (arguments : ActivationArguments) :
    ActivationProcess ActivationRecord := do
  let original ← perform (.readActivation activationId)
  if original.state ≠ .applied ∧ original.state ≠ .rolledBack then
    throw (.conflict original.activationId)
  match original.plan.expectedActiveRevisionId with
  | none => throw (.controller .configurationConflict false)
  | some targetRevisionId =>
      let rolled ← self.activate host { arguments with
        targetRevisionId, rollbackOfActivationId := some original.activationId }
      if rolled.state = .applied ∧ original.state = .applied then markRolledBack original
      return rolled

end Controller

/-- The calls that a controller receives. -/
inductive ActivationCall where
  | activate (arguments : ActivationArguments)
  | resume (activationId : Digest)
  | registerReadiness (activationId : Digest) (registration : WorkerReadinessRegistration)
  | rollback (activationId : Digest) (arguments : ActivationArguments)

def Controller.program (host : ActivationHost) (self : Controller) :
    ActivationCall → ActivationProcess ActivationRecord
  | .activate arguments => self.activate host arguments
  | .resume activationId => self.resume host activationId
  | .registerReadiness activationId registration =>
      self.registerReadinessAndResume host activationId registration
  | .rollback activationId arguments => self.rollback host activationId arguments

/-- Any number of controllers over one control plane. -/
def activationService (host : ActivationHost) :
    Service ActivationReply ActivationFailure ActivationRecord ControlPlane ActivationChoice
      Controller ActivationCall ActivationTick where
  respond choice world request := world.respond host choice request
  program controller call := controller.program host call
  elapse := ControlPlane.elapse

end Justflow
