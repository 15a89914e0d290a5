import Justflow.Config.Identity
import Mathlib.Data.List.Chain

/-!
# Activation records

The durable record of one configuration activation: its plan, its state with the history of
transitions, the checkpoints of the phases it has completed, and the lease of the controller
that works on it.

Every operation on a record builds the new record and validates it as a whole, so what the
validation asks is stated once, as `ActivationRecord.Valid`, and each operation has one lemma
that says when it succeeds and with which record.
-/

namespace Justflow

/-! ## Limits -/

def maxActivationChanges : Nat := 1000
def maxActivationHistory : Nat := 100
def maxExternalVersionLength : Nat := 256
def maxProvenanceIdentityLength : Nat := 256

/-- Microseconds of the controllers' clock. -/
abbrev Instant := Nat

structure WorkerArtifactIdentity where
  deploymentName : BoundedText maxProvenanceIdentityLength
  buildId : BoundedText maxProvenanceIdentityLength
  artifactDigest : BoundedText maxProvenanceIdentityLength
  packageVersion : BoundedText maxProvenanceIdentityLength
  sourceRevision : Option (BoundedText maxProvenanceIdentityLength)
  deriving DecidableEq

/-! ## Enumerations -/

inductive ActivationState where
  | pending | running | waitingForReadiness | applied | failed | superseded | rolledBack
  deriving DecidableEq, Repr

def ActivationState.value : ActivationState → String
  | .pending => "pending"
  | .running => "running"
  | .waitingForReadiness => "waiting_for_readiness"
  | .applied => "applied"
  | .failed => "failed"
  | .superseded => "superseded"
  | .rolledBack => "rolled_back"

inductive ActivationChangeKind where
  | workflow | service | resource | policy | schedule | artifact | deletion
  deriving DecidableEq, Repr

def ActivationChangeKind.value : ActivationChangeKind → String
  | .workflow => "workflow"
  | .service => "service"
  | .resource => "resource"
  | .policy => "policy"
  | .schedule => "schedule"
  | .artifact => "artifact"
  | .deletion => "deletion"

inductive ActivationSubjectKind where
  | workflow | service | resource | policy | schedule | artifact
  deriving DecidableEq, Repr

def ActivationSubjectKind.value : ActivationSubjectKind → String
  | .workflow => "workflow"
  | .service => "service"
  | .resource => "resource"
  | .policy => "policy"
  | .schedule => "schedule"
  | .artifact => "artifact"

inductive ActivationChangeOperation where
  | create | update | delete
  deriving DecidableEq, Repr

def ActivationChangeOperation.value : ActivationChangeOperation → String
  | .create => "create"
  | .update => "update"
  | .delete => "delete"

inductive WorkerActivationAction where
  | none | rollout
  deriving DecidableEq, Repr

def WorkerActivationAction.value : WorkerActivationAction → String
  | .none => "none"
  | .rollout => "rollout"

inductive DefinitionActivationAction where
  | none | publish
  deriving DecidableEq, Repr

def DefinitionActivationAction.value : DefinitionActivationAction → String
  | .none => "none"
  | .publish => "publish"

inductive RoutingActivationAction where
  | none | switch
  deriving DecidableEq, Repr

def RoutingActivationAction.value : RoutingActivationAction → String
  | .none => "none"
  | .switch => "switch"

inductive ScheduleActivationAction where
  | none | reconcile
  deriving DecidableEq, Repr

def ScheduleActivationAction.value : ScheduleActivationAction → String
  | .none => "none"
  | .reconcile => "reconcile"

inductive ActivationCompatibilityRisk where
  | openExecutionRetention | replayCompatibility | componentPolicyChange | externalRoutingChange
  deriving DecidableEq, Repr

def ActivationCompatibilityRisk.value : ActivationCompatibilityRisk → String
  | .openExecutionRetention => "open_execution_retention"
  | .replayCompatibility => "replay_compatibility"
  | .componentPolicyChange => "component_policy_change"
  | .externalRoutingChange => "external_routing_change"

inductive ActivationOutcomeCode where
  | definitionsUnavailable | workerUnavailable | schedulesUnavailable | routingUnavailable
  | configurationConflict | stalePlan | internalError
  deriving DecidableEq, Repr

def ActivationOutcomeCode.value : ActivationOutcomeCode → String
  | .definitionsUnavailable => "definitions_unavailable"
  | .workerUnavailable => "worker_unavailable"
  | .schedulesUnavailable => "schedules_unavailable"
  | .routingUnavailable => "routing_unavailable"
  | .configurationConflict => "configuration_conflict"
  | .stalePlan => "stale_plan"
  | .internalError => "internal_error"

inductive ActivationCheckpointKind where
  | definitions | workerRollout | workerReadiness | schedules | catalogRouting | workerRouting
  | activePointer | runtimeIndex
  deriving DecidableEq, Repr

def ActivationCheckpointKind.value : ActivationCheckpointKind → String
  | .definitions => "definitions"
  | .workerRollout => "worker_rollout"
  | .workerReadiness => "worker_readiness"
  | .schedules => "schedules"
  | .catalogRouting => "catalog_routing"
  | .workerRouting => "worker_routing"
  | .activePointer => "active_pointer"
  | .runtimeIndex => "runtime_index"

inductive ActivationExternalOutcome where
  | confirmed | idempotent
  deriving DecidableEq, Repr

def ActivationExternalOutcome.value : ActivationExternalOutcome → String
  | .confirmed => "confirmed"
  | .idempotent => "idempotent"

/-! ## Failures -/

/-- What an activation operation can raise, as far as its handlers tell failures apart. -/
inductive ActivationFailure where
  | configurationConflict
  | configuration
  | catalogConflict
  | catalog
  | controller (code : ActivationOutcomeCode) (retryable : Bool)
  | notFound
  | conflict (identity : Digest)
  | unavailable
  | integrity (message : String)
  | limit (message : String)
  | value (message : String)
  | other
  deriving DecidableEq

/-- A check that raises `ValueError`. -/
def require (condition : Prop) [Decidable condition] (message : String) :
    Except ActivationFailure Unit :=
  if condition then .ok () else .error (.value message)

@[simp]
theorem require_eq_ok {condition : Prop} [Decidable condition] {message : String} {u : Unit} :
    require condition message = .ok u ↔ condition := by
  unfold require
  split <;> simp_all

theorem require_bind_eq_ok {condition : Prop} [Decidable condition] {message : String}
    {α : Type} {next : Unit → Except ActivationFailure α} {a : α} :
    (require condition message >>= next) = .ok a ↔ condition ∧ next () = .ok a := by
  unfold require
  by_cases h : condition
  · simp [h, bind, Except.bind]
  · simp [h, bind, Except.bind]

/-! ## Plans and records -/

structure ActivationChange where
  kind : ActivationChangeKind
  subjectKind : ActivationSubjectKind
  operation : ActivationChangeOperation
  subjectDigest : Digest
  deriving DecidableEq

structure ActivationPlan where
  planDigest : ProvenanceDigest
  scopeDigest : Digest
  sourceRevisionId : Option RevisionIdentity
  targetRevisionId : RevisionIdentity
  expectedActiveRevisionId : Option RevisionIdentity
  expectedActivePointerVersion : Option Nat
  expectedCatalogAliasVersion : Option (BoundedText maxExternalVersionLength)
  policyDigest : ProvenanceDigest
  workerObservationDigest : ProvenanceDigest
  scheduleObservationDigest : ProvenanceDigest
  targetArtifact : WorkerArtifactIdentity
  targetTaskQueueIdentityDigest : ProvenanceDigest
  targetWorkerRegistrationDigest : ProvenanceDigest
  targetDefinitionDigests : List Digest
  changes : List ActivationChange
  compatibilityRisks : List ActivationCompatibilityRisk
  workerAction : WorkerActivationAction
  definitionAction : DefinitionActivationAction
  routingAction : RoutingActivationAction
  scheduleAction : ScheduleActivationAction
  deriving DecidableEq

structure ActivationTransition where
  sequence : Nat
  fromState : ActivationState
  toState : ActivationState
  occurredAt : Instant
  outcomeCode : Option ActivationOutcomeCode
  deriving DecidableEq, Repr

structure ActivationCheckpoint where
  sequence : Nat
  kind : ActivationCheckpointKind
  outcome : ActivationExternalOutcome
  occurredAt : Instant
  observationDigest : ProvenanceDigest
  deriving DecidableEq

structure WorkerReadinessRegistration where
  configurationRevisionId : RevisionIdentity
  artifact : WorkerArtifactIdentity
  definitionDigests : List Digest
  taskQueueIdentityDigest : ProvenanceDigest
  deploymentRegistrationDigest : ProvenanceDigest
  registeredAt : Instant
  deriving DecidableEq

structure ActivationRecord where
  activationId : Digest
  scopeDigest : Digest
  idempotencyKeyDigest : Digest
  requestDigest : ProvenanceDigest
  actorDigest : Digest
  correlationDigest : Digest
  plan : ActivationPlan
  state : ActivationState
  version : Nat
  transitions : List ActivationTransition
  checkpoints : List ActivationCheckpoint
  leaseOwnerDigest : Option Digest
  leaseExpiresAt : Option Instant
  workerReadiness : Option WorkerReadinessRegistration
  rollbackOfActivationId : Option Digest
  outcomeCode : Option ActivationOutcomeCode
  createdAt : Instant
  updatedAt : Instant
  deriving DecidableEq

/-- States that a controller leaves alone when it resumes a record. -/
def ActivationState.terminal (state : ActivationState) : Bool :=
  state = .applied ∨ state = .superseded ∨ state = .rolledBack

/-- States that carry an outcome code. -/
def ActivationState.unsuccessful (state : ActivationState) : Bool :=
  state = .failed ∨ state = .superseded

/-- What `ActivationRecord` validates: the bounds of its fields and `validate_state`. -/
structure ActivationRecord.Valid (record : ActivationRecord) : Prop where
  version : 1 ≤ record.version
  transitionsBound : record.transitions.length ≤ maxActivationHistory
  checkpointsBound : record.checkpoints.length ≤ 8
  scope : record.plan.scopeDigest = record.scopeDigest
  lease : record.leaseOwnerDigest.isNone = record.leaseExpiresAt.isNone
  timestamps : record.createdAt ≤ record.updatedAt
  fresh : record.transitions = [] → record.state = .pending
  last : ∀ last ∈ record.transitions.getLast?, last.toState = record.state
  sequence : record.transitions.map (·.sequence) = List.range' 1 record.transitions.length
  chain : record.transitions.IsChain fun previous transition =>
    previous.toState = transition.fromState
  checkpointKinds : (record.checkpoints.map (·.kind)).Nodup
  checkpointSequence :
    record.checkpoints.map (·.sequence) = List.range' 1 record.checkpoints.length
  coded : record.state.unsuccessful → record.outcomeCode.isSome
  uncoded : ¬ record.state.unsuccessful → record.outcomeCode = none

def ActivationRecord.modelValidate (self : ActivationRecord) :
    Except ActivationFailure ActivationRecord := do
  require (1 ≤ self.version) "Input should be greater than or equal to 1"
  require (self.transitions.length ≤ maxActivationHistory)
    "Tuple should have at most 100 items after validation"
  require (self.checkpoints.length ≤ 8) "Tuple should have at most 8 items after validation"
  require (self.plan.scopeDigest = self.scopeDigest)
    "Activation plan belongs to another runtime scope"
  require (self.leaseOwnerDigest.isNone = self.leaseExpiresAt.isNone)
    "Activation lease owner and expiry must be recorded together"
  require (self.createdAt ≤ self.updatedAt) "Activation timestamps are inconsistent"
  require (self.transitions = [] → self.state = .pending)
    "Non-pending activation requires transition history"
  require (∀ last ∈ self.transitions.getLast?, last.toState = self.state)
    "Activation transition history disagrees with current state"
  require (self.transitions.map (·.sequence) = List.range' 1 self.transitions.length)
    "Activation transition sequence is not contiguous"
  require (self.transitions.IsChain fun previous transition =>
      previous.toState = transition.fromState)
    "Activation transition history is discontinuous"
  require (self.checkpoints.map (·.kind)).Nodup "Activation checkpoint kinds must be unique"
  require (self.checkpoints.map (·.sequence) = List.range' 1 self.checkpoints.length)
    "Activation checkpoint sequence is not contiguous"
  require (self.state.unsuccessful → self.outcomeCode.isSome)
    "Failed or superseded activation requires an outcome code"
  require (¬ self.state.unsuccessful → self.outcomeCode = none)
    "Successful or pending activation cannot contain an outcome code"
  return self

theorem ActivationRecord.modelValidate_eq_ok {record updated : ActivationRecord} :
    record.modelValidate = .ok updated ↔ updated = record ∧ record.Valid := by
  simp only [ActivationRecord.modelValidate, require_bind_eq_ok]
  constructor
  · rintro ⟨h1, h2, h3, h4, h5, h6, h7, h8, h9, h10, h11, h12, h13, h14, h15⟩
    cases h15
    exact ⟨rfl, ⟨h1, h2, h3, h4, h5, h6, h7, h8, h9, h10, h11, h12, h13, h14⟩⟩
  · rintro ⟨rfl, h1, h2, h3, h4, h5, h6, h7, h8, h9, h10, h11, h12, h13, h14⟩
    exact ⟨h1, h2, h3, h4, h5, h6, h7, h8, h9, h10, h11, h12, h13, h14, rfl⟩

/-! ## Operations -/

/-- `_ALLOWED_ACTIVATION_TRANSITIONS`. -/
def allowedActivationTransitions : ActivationState → List ActivationState
  | .pending => [.running, .superseded]
  | .running => [.waitingForReadiness, .applied, .failed, .superseded, .rolledBack]
  | .waitingForReadiness => [.running, .failed, .superseded]
  | .failed => [.running, .superseded]
  | .applied => [.rolledBack]
  | .superseded => []
  | .rolledBack => []

/-- The record `transition_activation` builds. -/
def ActivationRecord.transitioned (self : ActivationRecord) (toState : ActivationState)
    (occurredAt : Instant) (outcomeCode : Option ActivationOutcomeCode) (releaseLease : Bool) :
    ActivationRecord :=
  { self with
    state := toState
    version := self.version + 1
    transitions := self.transitions ++
      [{ sequence := self.transitions.length + 1, fromState := self.state, toState,
         occurredAt, outcomeCode }]
    leaseOwnerDigest := if releaseLease then none else self.leaseOwnerDigest
    leaseExpiresAt := if releaseLease then none else self.leaseExpiresAt
    outcomeCode
    updatedAt := occurredAt }

def transitionActivation (record : ActivationRecord) (toState : ActivationState)
    (occurredAt : Instant) (outcomeCode : Option ActivationOutcomeCode)
    (releaseLease : Bool) : Except ActivationFailure ActivationRecord := do
  require (toState ∈ allowedActivationTransitions record.state)
    s!"Activation cannot transition from '{record.state.value}' to '{toState.value}'"
  require (record.transitions.length < maxActivationHistory)
    "Activation transition history exceeds its bound"
  require (toState.unsuccessful = outcomeCode.isSome)
    "Activation transition outcome does not match its state"
  (record.transitioned toState occurredAt outcomeCode releaseLease).modelValidate

theorem transitionActivation_eq_ok {record updated : ActivationRecord}
    {toState : ActivationState} {occurredAt : Instant}
    {outcomeCode : Option ActivationOutcomeCode} {releaseLease : Bool} :
    transitionActivation record toState occurredAt outcomeCode releaseLease = .ok updated ↔
      toState ∈ allowedActivationTransitions record.state ∧
        record.transitions.length < maxActivationHistory ∧
        toState.unsuccessful = outcomeCode.isSome ∧
        updated = record.transitioned toState occurredAt outcomeCode releaseLease ∧
        (record.transitioned toState occurredAt outcomeCode releaseLease).Valid := by
  simp only [transitionActivation, require_bind_eq_ok, ActivationRecord.modelValidate_eq_ok]

/-- The record `record_activation_checkpoint` builds. -/
def ActivationRecord.checkpointed (self : ActivationRecord) (kind : ActivationCheckpointKind)
    (outcome : ActivationExternalOutcome) (observationDigest : ProvenanceDigest)
    (occurredAt : Instant) : ActivationRecord :=
  { self with
    checkpoints := self.checkpoints ++
      [{ sequence := self.checkpoints.length + 1, kind, outcome, occurredAt,
         observationDigest }]
    version := self.version + 1
    updatedAt := occurredAt }

def recordActivationCheckpoint (record : ActivationRecord) (kind : ActivationCheckpointKind)
    (outcome : ActivationExternalOutcome) (observationDigest : ProvenanceDigest)
    (occurredAt : Instant) : Except ActivationFailure ActivationRecord :=
  match record.checkpoints.find? fun checkpoint => checkpoint.kind = kind with
  | some existing =>
      if existing.outcome = outcome ∧ existing.observationDigest = observationDigest then
        .ok record
      else .error (.value "Activation checkpoint already has a different outcome")
  | none => (record.checkpointed kind outcome observationDigest occurredAt).modelValidate

/-- The record has a checkpoint of this kind. -/
def hasCheckpoint (record : ActivationRecord) (kind : ActivationCheckpointKind) : Bool :=
  record.checkpoints.any fun checkpoint => checkpoint.kind = kind

theorem recordActivationCheckpoint_eq_ok {record updated : ActivationRecord}
    {kind : ActivationCheckpointKind} {outcome : ActivationExternalOutcome}
    {observationDigest : ProvenanceDigest} {occurredAt : Instant}
    (absent : hasCheckpoint record kind = false) :
    recordActivationCheckpoint record kind outcome observationDigest occurredAt = .ok updated ↔
      updated = record.checkpointed kind outcome observationDigest occurredAt ∧
        (record.checkpointed kind outcome observationDigest occurredAt).Valid := by
  have hnone : (record.checkpoints.find? fun checkpoint => checkpoint.kind = kind) = none := by
    simpa [hasCheckpoint, List.find?_eq_none] using absent
  simp only [recordActivationCheckpoint, hnone, ActivationRecord.modelValidate_eq_ok]

/-- The record `acquire_activation_lease` builds. -/
def ActivationRecord.leased (self : ActivationRecord) (ownerDigest : Digest)
    (acquiredAt expiresAt : Instant) : ActivationRecord :=
  { self with
    leaseOwnerDigest := some ownerDigest
    leaseExpiresAt := some expiresAt
    version := self.version + 1
    updatedAt := acquiredAt }

/-- Another controller holds the lease and it has not expired. -/
def ActivationRecord.heldByAnother (self : ActivationRecord) (ownerDigest : Digest)
    (now : Instant) : Prop :=
  self.leaseOwnerDigest ≠ none ∧ self.leaseOwnerDigest ≠ some ownerDigest ∧
    ∃ expires ∈ self.leaseExpiresAt, now < expires

instance (self : ActivationRecord) (ownerDigest : Digest) (now : Instant) :
    Decidable (self.heldByAnother ownerDigest now) := by
  unfold ActivationRecord.heldByAnother
  infer_instance

def acquireActivationLease (record : ActivationRecord) (ownerDigest : Digest)
    (acquiredAt expiresAt : Instant) : Except ActivationFailure ActivationRecord := do
  require (acquiredAt < expiresAt) "Activation lease expiry must follow acquisition"
  require (¬ record.heldByAnother ownerDigest acquiredAt)
    "Activation lease is held by another controller"
  (record.leased ownerDigest acquiredAt expiresAt).modelValidate

theorem acquireActivationLease_eq_ok {record updated : ActivationRecord} {ownerDigest : Digest}
    {acquiredAt expiresAt : Instant} :
    acquireActivationLease record ownerDigest acquiredAt expiresAt = .ok updated ↔
      acquiredAt < expiresAt ∧ ¬ record.heldByAnother ownerDigest acquiredAt ∧
        updated = record.leased ownerDigest acquiredAt expiresAt ∧
        (record.leased ownerDigest acquiredAt expiresAt).Valid := by
  simp only [acquireActivationLease, require_bind_eq_ok, ActivationRecord.modelValidate_eq_ok]

/-- The record `release_activation_lease` builds. -/
def ActivationRecord.released (self : ActivationRecord) (releasedAt : Instant) :
    ActivationRecord :=
  { self with
    leaseOwnerDigest := none
    leaseExpiresAt := none
    version := self.version + 1
    updatedAt := releasedAt }

def releaseActivationLease (record : ActivationRecord) (ownerDigest : Digest)
    (releasedAt : Instant) : Except ActivationFailure ActivationRecord := do
  require (record.leaseOwnerDigest = some ownerDigest)
    "Activation lease is not owned by this controller"
  (record.released releasedAt).modelValidate

theorem releaseActivationLease_eq_ok {record updated : ActivationRecord} {ownerDigest : Digest}
    {releasedAt : Instant} :
    releaseActivationLease record ownerDigest releasedAt = .ok updated ↔
      record.leaseOwnerDigest = some ownerDigest ∧ updated = record.released releasedAt ∧
        (record.released releasedAt).Valid := by
  simp only [releaseActivationLease, require_bind_eq_ok, ActivationRecord.modelValidate_eq_ok]

/-- The readiness report is about what the plan asks for. -/
structure WorkerReadinessRegistration.Matches (report : WorkerReadinessRegistration)
    (plan : ActivationPlan) : Prop where
  revision : report.configurationRevisionId = plan.targetRevisionId
  artifact : report.artifact = plan.targetArtifact
  registration : report.deploymentRegistrationDigest = plan.targetWorkerRegistrationDigest
  definitions : report.definitionDigests.Perm plan.targetDefinitionDigests

/-- The record `register_worker_readiness` builds. -/
def ActivationRecord.registered (self : ActivationRecord)
    (registration : WorkerReadinessRegistration) (occurredAt : Instant) : ActivationRecord :=
  { self with
    workerReadiness := some registration
    version := self.version + 1
    updatedAt := occurredAt }

def registerWorkerReadiness (record : ActivationRecord)
    (registration : WorkerReadinessRegistration) (occurredAt : Instant) :
    Except ActivationFailure ActivationRecord := do
  require (registration.configurationRevisionId = record.plan.targetRevisionId)
    "Worker readiness targets another configuration revision"
  require (registration.artifact = record.plan.targetArtifact)
    "Worker readiness targets another artifact"
  require
    (registration.deploymentRegistrationDigest = record.plan.targetWorkerRegistrationDigest)
    "Worker readiness targets another deployment registration"
  -- the source compares the two sorted tuples
  require (registration.definitionDigests.Perm record.plan.targetDefinitionDigests)
    "Worker readiness does not cover the planned definition set"
  match record.workerReadiness with
  | some existing => do
      require (existing = registration)
        "Worker readiness was already registered with different content"
      return record
  | none => (record.registered registration occurredAt).modelValidate

theorem registerWorkerReadiness_eq_ok {record updated : ActivationRecord}
    {registration : WorkerReadinessRegistration} {occurredAt : Instant} :
    registerWorkerReadiness record registration occurredAt = .ok updated ↔
      registration.Matches record.plan ∧
        (record.workerReadiness = some registration ∧ updated = record ∨
          record.workerReadiness = none ∧ updated = record.registered registration occurredAt ∧
            (record.registered registration occurredAt).Valid) := by
  have matching : registration.Matches record.plan ↔
      registration.configurationRevisionId = record.plan.targetRevisionId ∧
        registration.artifact = record.plan.targetArtifact ∧
        registration.deploymentRegistrationDigest = record.plan.targetWorkerRegistrationDigest ∧
        registration.definitionDigests.Perm record.plan.targetDefinitionDigests :=
    ⟨fun ⟨h1, h2, h3, h4⟩ => ⟨h1, h2, h3, h4⟩, fun ⟨h1, h2, h3, h4⟩ => ⟨h1, h2, h3, h4⟩⟩
  simp only [registerWorkerReadiness, require_bind_eq_ok, matching]
  cases hready : record.workerReadiness with
  | none => simp [ActivationRecord.modelValidate_eq_ok, and_assoc]
  | some existing =>
      have returned : (pure record : Except ActivationFailure ActivationRecord) = .ok updated ↔
          updated = record :=
        ⟨fun h => (Except.ok.inj h).symm, fun h => congrArg Except.ok h.symm⟩
      simp only [require_bind_eq_ok, returned, Option.some.injEq, reduceCtorEq, false_and,
        or_false, and_assoc]

end Justflow
