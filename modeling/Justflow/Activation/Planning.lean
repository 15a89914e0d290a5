import Justflow.Activation.Schedules

/-!
# Activation planning

The plan of an activation lists which subjects of the configuration differ between the active
and the target revision, and decides from that list which subsystems the activation will touch.
The planner sees the declarations of workflows, services, resources and triggers; it does not
see the schedules, aliases or routes that a subsystem derives from them.
-/

open Fields

namespace Justflow

/-- A resolved configuration: each subject by name, as its JSON dump. -/
structure ConfigurationBundle where
  workflows : List (String × JsonValue)
  services : List (String × JsonValue)
  resources : List (String × JsonValue)
  triggers : List (String × JsonValue)
  sourceRevisionId : Option RevisionIdentity
  deriving DecidableEq

def ConfigurationBundle.empty : ConfigurationBundle :=
  ⟨[], [], [], [], none⟩

structure ActivationObservations where
  activePointerVersion : Option Nat
  catalogAliasVersion : Option (BoundedText maxExternalVersionLength)
  policyDigest : ProvenanceDigest
  workerObservationDigest : ProvenanceDigest
  scheduleObservationDigest : ProvenanceDigest
  registeredDefinitionDigests : List Digest
  deriving DecidableEq

variable (hashing : Hashing)

/-! ## Changes -/

def singletonChange (scopeDigest : Digest) (kind : ActivationChangeKind)
    (subjectKind : ActivationSubjectKind) (operation : ActivationChangeOperation)
    (identity : String) : ActivationChange :=
  { kind, subjectKind, operation
    subjectDigest := hashing.safeIdentityDigest "activation-change"
      s!"{scopeDigest.text}:{subjectKind.value}:{identity}" }

/-- How one name changed between the active and the target mapping. -/
def nameChange (kind : ActivationChangeKind) (target active : List (String × JsonValue))
    (name : String) : Option (ActivationChangeKind × ActivationChangeOperation) :=
  match target.lookup name, active.lookup name with
  | none, _ => some (.deletion, .delete)
  | some _, none => some (kind, .create)
  | some new, some old =>
      if Hashing.canonicalText new ≠ Hashing.canonicalText old then some (kind, .update)
      else none

def mappingChanges (scopeDigest : Digest) (kind : ActivationChangeKind)
    (subjectKind : ActivationSubjectKind) (target active : List (String × JsonValue)) :
    List ActivationChange :=
  ((keys target ++ keys active).dedup.insertionSort (· ≤ ·)).filterMap fun name =>
    (nameChange kind target active name).map fun change =>
      singletonChange hashing scopeDigest change.1 subjectKind change.2 name

/-- The order of the changes in a plan. -/
def ActivationChange.sortKey (self : ActivationChange) : List String :=
  [self.kind.value, self.subjectKind.value, self.operation.value, self.subjectDigest.text]

def configurationChanges (scopeDigest : Digest) (target : ConfigurationBundle)
    (active : Option ConfigurationBundle) (targetArtifact : WorkerArtifactIdentity)
    (activeArtifact : Option WorkerArtifactIdentity) (targetPolicyDigest : ProvenanceDigest)
    (activePolicyDigest : Option ProvenanceDigest) : List ActivationChange :=
  let activeBundle := active.getD .empty
  let changes :=
    mappingChanges hashing scopeDigest .workflow .workflow target.workflows
        activeBundle.workflows ++
      mappingChanges hashing scopeDigest .service .service target.services
        activeBundle.services ++
      mappingChanges hashing scopeDigest .resource .resource target.resources
        activeBundle.resources ++
      mappingChanges hashing scopeDigest .schedule .schedule target.triggers
        activeBundle.triggers ++
      (if activePolicyDigest ≠ some targetPolicyDigest then
        [singletonChange hashing scopeDigest .policy .policy
          (if activePolicyDigest.isNone then .create else .update) targetPolicyDigest.text]
      else []) ++
      (if activeArtifact ≠ some targetArtifact then
        [singletonChange hashing scopeDigest .artifact .artifact
          (if activeArtifact.isNone then .create else .update)
          (hashing.provenanceDigest targetArtifact.modelDump).text]
      else [])
  changes.insertionSort fun first second => first.sortKey ≤ second.sortKey

/-! ## The plan -/

def ActivationChange.modelDump (self : ActivationChange) : JsonValue :=
  .obj [("kind", .str self.kind.value), ("subject_kind", .str self.subjectKind.value),
    ("operation", .str self.operation.value), ("subject_digest", .str self.subjectDigest.text)]

/-- The fields that the digest of a plan covers. -/
def ActivationPlan.digestedFields (self : ActivationPlan) : List (String × JsonValue) :=
  [("scope_digest", .str self.scopeDigest.text),
    ("source_revision_id", .ofOption (fun d : Digest => .str d.text) self.sourceRevisionId),
    ("target_revision_id", .str self.targetRevisionId.text),
    ("expected_active_revision_id",
      .ofOption (fun d : Digest => .str d.text) self.expectedActiveRevisionId),
    ("expected_active_pointer_version",
      .ofOption (fun n : Nat => .int n) self.expectedActivePointerVersion),
    ("expected_catalog_alias_version",
      .ofOption (fun t : BoundedText maxExternalVersionLength => .str t.text)
        self.expectedCatalogAliasVersion),
    ("policy_digest", .str self.policyDigest.text),
    ("worker_observation_digest", .str self.workerObservationDigest.text),
    ("schedule_observation_digest", .str self.scheduleObservationDigest.text),
    ("target_artifact", self.targetArtifact.modelDump),
    ("target_task_queue_identity_digest", .str self.targetTaskQueueIdentityDigest.text),
    ("target_worker_registration_digest", .str self.targetWorkerRegistrationDigest.text),
    ("target_definition_digests",
      .arr (self.targetDefinitionDigests.map fun d => .str d.text)),
    ("changes", .arr (self.changes.map ActivationChange.modelDump)),
    ("compatibility_risks", .arr (self.compatibilityRisks.map fun risk => .str risk.value)),
    ("worker_action", .str self.workerAction.value),
    ("definition_action", .str self.definitionAction.value),
    ("routing_action", .str self.routingAction.value),
    ("schedule_action", .str self.scheduleAction.value)]

/-- What the model of a plan validates. -/
structure ActivationPlan.Bounded (plan : ActivationPlan) : Prop where
  definitions : plan.targetDefinitionDigests.length ≤ maxActivationChanges
  changes : plan.changes.length ≤ maxActivationChanges
  risks : plan.compatibilityRisks.length ≤ 4
  pointer : ∀ version ∈ plan.expectedActivePointerVersion, 1 ≤ version

/-- `ActivationPlan.create`: the digest is that of all other fields. -/
def ActivationPlan.create (plan : ActivationPlan) : Except ActivationFailure ActivationPlan := do
  require (plan.targetDefinitionDigests.length ≤ maxActivationChanges)
    "Tuple should have at most 1000 items after validation"
  require (plan.changes.length ≤ maxActivationChanges)
    "Tuple should have at most 1000 items after validation"
  require (plan.compatibilityRisks.length ≤ 4)
    "Tuple should have at most 4 items after validation"
  require (∀ version ∈ plan.expectedActivePointerVersion, 1 ≤ version)
    "Input should be greater than or equal to 1"
  return { plan with planDigest := hashing.provenanceDigest (.obj plan.digestedFields) }

/-- The digests of a mapping, without duplicates and in order. -/
def sortedDigests (digests : List Digest) : List Digest :=
  digests.dedup.insertionSort fun first second => first.text ≤ second.text

/-- Some change concerns a subject of this kind. -/
def concerns (changes : List ActivationChange) (subjectKind : ActivationSubjectKind) : Bool :=
  changes.any fun change => change.subjectKind = subjectKind

/-- `_WORKER_CHANGE_KINDS`. -/
def workerChangeKinds : List ActivationChangeKind :=
  [.workflow, .service, .resource, .policy, .artifact]

def workerActionOf (changes : List ActivationChange) (covered : Bool) :
    WorkerActivationAction :=
  if (changes.any fun change => change.kind ∈ workerChangeKinds ∨
      change.kind = .deletion ∧ change.subjectKind ≠ .schedule) ∨ ¬ covered then .rollout
  else .none

def compatibilityRisksOf (changes : List ActivationChange)
    (workerAction : WorkerActivationAction) (routingAction : RoutingActivationAction) :
    List ActivationCompatibilityRisk :=
  (if changes.any fun change => change.kind = .deletion ∧ change.subjectKind = .workflow then
      [.openExecutionRetention] else []) ++
    (if workerAction = .rollout then [.replayCompatibility] else []) ++
    (if changes.any fun change => change.kind = .policy then [.componentPolicyChange] else []) ++
    (if routingAction = .switch then [.externalRoutingChange] else [])

/-- What the planner is told about the target. -/
structure ActivationTarget where
  scopeDigest : Digest
  revisionId : RevisionIdentity
  bundle : ConfigurationBundle
  artifact : WorkerArtifactIdentity
  taskQueueIdentityDigest : ProvenanceDigest
  workerRegistrationDigest : ProvenanceDigest
  definitionDigests : List Digest

/-- What the planner is told about the active configuration. -/
structure ActiveConfiguration where
  revisionId : Option RevisionIdentity
  bundle : Option ConfigurationBundle
  artifact : Option WorkerArtifactIdentity
  policyDigest : Option ProvenanceDigest

/-- The digests of the target are registered with the workers. -/
def covered (target : ActivationTarget) (observations : ActivationObservations) : Bool :=
  (sortedDigests target.definitionDigests).all (· ∈ observations.registeredDefinitionDigests)

def planConfigurationActivation (target : ActivationTarget) (active : ActiveConfiguration)
    (observations : ActivationObservations) : Except ActivationFailure ActivationPlan := do
  let changes := configurationChanges hashing target.scopeDigest target.bundle active.bundle
    target.artifact active.artifact observations.policyDigest active.policyDigest
  require (changes.length ≤ maxActivationChanges)
    "Activation plan exceeds its change count limit"
  let workerAction := workerActionOf changes (covered target observations)
  let definitionAction : DefinitionActivationAction :=
    if ¬ covered target observations ∨ concerns changes .workflow then .publish else .none
  let scheduleAction : ScheduleActivationAction :=
    if concerns changes .schedule then .reconcile else .none
  let routingAction : RoutingActivationAction :=
    if active.revisionId = some target.revisionId then .none else .switch
  ActivationPlan.create hashing {
    planDigest := hashing.provenanceDigest .null
    scopeDigest := target.scopeDigest
    sourceRevisionId := target.bundle.sourceRevisionId
    targetRevisionId := target.revisionId
    expectedActiveRevisionId := active.revisionId
    expectedActivePointerVersion := observations.activePointerVersion
    expectedCatalogAliasVersion := observations.catalogAliasVersion
    policyDigest := observations.policyDigest
    workerObservationDigest := observations.workerObservationDigest
    scheduleObservationDigest := observations.scheduleObservationDigest
    targetArtifact := target.artifact
    targetTaskQueueIdentityDigest := target.taskQueueIdentityDigest
    targetWorkerRegistrationDigest := target.workerRegistrationDigest
    targetDefinitionDigests := sortedDigests target.definitionDigests
    changes
    compatibilityRisks := compatibilityRisksOf changes workerAction routingAction
    workerAction
    definitionAction
    routingAction
    scheduleAction }

end Justflow
