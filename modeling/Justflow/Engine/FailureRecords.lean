import Mathlib.Algebra.Order.BigOperators.Group.List
import Justflow.Activation.Bounds
import Justflow.Engine.Failures

/-!
# Failure records

The record of a failed run is kept in the details of a Temporal failure, which are bounded.  Its
texts are cut by characters and the bound is in bytes of canonical JSON, in which a character takes
up to six: `failure_record_fits` adds up what remains when the steps and transitions are dropped.
-/

open Fields JsonValue

namespace Justflow

def maxFailureSteps : Nat := 50
def maxFailureTransitions : Nat := 50
def defaultFailureRecordBytes : Nat := 32 * 1024

/-! ## The record -/

/-- A classified failure without its message. -/
structure FailureMetadata where
  code : String
  causeCode : String
  category : FailureCategory
  phase : FailurePhase
  retryable : Bool
  step : Option String
  deriving DecidableEq

def FailureMetadata.fromDetail (detail : FailureDetail) : FailureMetadata where
  code := detail.code
  causeCode := detail.causeCode
  category := detail.category
  phase := detail.phase
  retryable := detail.retryable
  step := detail.step

structure CorrelationIdentity where
  workflow : String
  requestId : Option String
  runId : Option String
  definitionDigest : Option String
  workerDeployment : Option String
  workerBuildId : Option String
  workerArtifact : Option WorkerArtifactIdentity
  environmentSnapshotDigest : Option Digest
  triggerSource : Option String
  triggerName : Option String
  sourceIdentityDigest : Option Digest
  correlationIdentityDigest : Option Digest
  scopeDigest : Option Digest
  executionConfiguration : Option ExecutionConfigurationIdentity

structure FailureStepMetadata where
  name : String
  seq : Int
  status : String
  code : Option String

structure FailureTransitionMetadata where
  step : String
  matched : String
  target : String

structure FailureRecord where
  correlation : CorrelationIdentity
  error : FailureMetadata
  secondary : List FailureMetadata
  steps : List FailureStepMetadata
  transitions : List FailureTransitionMetadata
  startedAt : String
  failedAt : String

/-! ## Building it -/

def boundedValue (value : Option String) : Option String :=
  value.map fun text => bounded text maxCorrelationValueLength

/-- `correlation_identity`: the texts are cut, the digests and the identities are as they are. -/
def correlationIdentity (identity : CorrelationIdentity) : CorrelationIdentity :=
  { identity with
    workflow := bounded identity.workflow maxCorrelationValueLength
    requestId := boundedValue identity.requestId
    runId := boundedValue identity.runId
    definitionDigest := boundedValue identity.definitionDigest
    workerDeployment := boundedValue identity.workerDeployment
    workerBuildId := boundedValue identity.workerBuildId
    triggerSource := boundedValue identity.triggerSource
    triggerName := boundedValue identity.triggerName }

/-- `int(entry.get("seq", 0))`, for the entries that the engine writes. -/
def entrySeq (entry : JsonObject) : Int :=
  match entry.lookup "seq" with
  | some (.int seq) => seq
  | _ => 0

/-- `_failure_steps`: the last steps by their numbers. -/
def failureSteps (reprStr : String → String) (entries : List (String × JsonObject)) :
    List FailureStepMetadata :=
  let ordered := entries.mergeSort fun a b => entrySeq a.2 ≤ entrySeq b.2
  (ordered.drop (ordered.length - maxFailureSteps)).map fun e =>
    { name := bounded e.1 maxFailureCodeLength
      seq := entrySeq e.2
      status := bounded (pyStr reprStr ((e.2.lookup "status").getD (.str "unknown")))
        maxFailureCodeLength
      code := match e.2.lookup "code" with
        | none | some .null => none
        | some code => some (bounded (pyStr reprStr code) maxFailureCodeLength) }

/-- `_failure_transitions`: the last transitions. -/
def failureTransitions (transitions : List TransitionRecord) : List FailureTransitionMetadata :=
  (transitions.drop (transitions.length - maxFailureTransitions)).map fun transition =>
    { step := bounded transition.step maxFailureCodeLength
      matched := bounded transition.matched maxFailureCodeLength
      target := bounded transition.target maxFailureCodeLength }

/-! ## Dumps -/

/-- The dump of a nested model without the fields that are not set. -/
def withoutNone : JsonValue → JsonValue
  | .obj fields => excludeNone fields
  | value => value

def FailureMetadata.modelDump (self : FailureMetadata) : JsonValue :=
  excludeNone [("code", .str self.code), ("cause_code", .str self.causeCode),
    ("category", .str self.category.value), ("phase", .str self.phase.value),
    ("retryable", .bool self.retryable), ("step", .ofOption .str self.step)]

def CorrelationIdentity.modelDump (self : CorrelationIdentity) : JsonValue :=
  excludeNone [("workflow", .str self.workflow), ("request_id", .ofOption .str self.requestId),
    ("run_id", .ofOption .str self.runId),
    ("definition_digest", .ofOption .str self.definitionDigest),
    ("worker_deployment", .ofOption .str self.workerDeployment),
    ("worker_build_id", .ofOption .str self.workerBuildId),
    ("worker_artifact", .ofOption (fun a => withoutNone a.modelDump) self.workerArtifact),
    ("environment_snapshot_digest",
      .ofOption (fun d : Digest => .str d.text) self.environmentSnapshotDigest),
    ("trigger_source", .ofOption .str self.triggerSource),
    ("trigger_name", .ofOption .str self.triggerName),
    ("source_identity_digest",
      .ofOption (fun d : Digest => .str d.text) self.sourceIdentityDigest),
    ("correlation_identity_digest",
      .ofOption (fun d : Digest => .str d.text) self.correlationIdentityDigest),
    ("scope_digest", .ofOption (fun d : Digest => .str d.text) self.scopeDigest),
    ("execution_configuration",
      .ofOption ExecutionConfigurationIdentity.modelDump self.executionConfiguration)]

def FailureStepMetadata.modelDump (self : FailureStepMetadata) : JsonValue :=
  excludeNone [("name", .str self.name), ("seq", .int self.seq), ("status", .str self.status),
    ("code", .ofOption .str self.code)]

def FailureTransitionMetadata.modelDump (self : FailureTransitionMetadata) : JsonValue :=
  .obj [("step", .str self.step), ("matched", .str self.matched), ("target", .str self.target)]

/-- `FailureRecord.dump`. -/
def FailureRecord.dump (self : FailureRecord) : JsonObject :=
  [("audit_version", .int auditVersion), ("serialization_version", .int strictJsonVersion),
    ("correlation", self.correlation.modelDump), ("status", .str "failed"),
    ("error", self.error.modelDump),
    ("secondary", .arr (self.secondary.map FailureMetadata.modelDump)),
    ("steps", .arr (self.steps.map FailureStepMetadata.modelDump)),
    ("transitions", .arr (self.transitions.map FailureTransitionMetadata.modelDump)),
    ("started_at", .str self.startedAt), ("failed_at", .str self.failedAt)]

def FailureRecord.size (self : FailureRecord) : Nat :=
  (JsonValue.obj self.dump).canonicalBytes

/-- What an execution error is built from. -/
structure FailureReport where
  exc : EngineException
  correlation : CorrelationIdentity
  phase : FailurePhase
  startedAt : String
  failedAt : String
  step : Option String
  stepEntries : List (String × JsonObject)
  transitions : List TransitionRecord
  primary : Option FailureDetail
  secondary : List FailureDetail
  code : Option FailureCode

namespace FailureReport

variable (self : FailureReport)

def classification : FailureDetail :=
  self.primary.getD (classifyFailure self.exc self.phase self.step self.code)

def fullRecord (reprStr : String → String) : FailureRecord where
  correlation := self.correlation
  error := .fromDetail self.classification
  secondary := (self.secondary.take maxSecondaryFailures).map .fromDetail
  steps := failureSteps reprStr self.stepEntries
  transitions := failureTransitions self.transitions
  startedAt := self.startedAt
  failedAt := self.failedAt

/-- `build_execution_error`: steps and transitions are dropped from a record that is too large. -/
def record (reprStr : String → String) (maxRecordBytes : Nat) : FailureRecord :=
  let record := self.fullRecord reprStr
  if maxRecordBytes < record.size then { record with steps := [], transitions := [] } else record

end FailureReport

/-! ## Sizes -/

/-- The bytes of the members of an object, with their keys. -/
def entryBytes (fields : JsonObject) : Nat :=
  (fields.map fun e => (quote e.1).utf8ByteSize + 2 + canonicalBytes e.2).sum

theorem canonicalBytes_obj_le_entryBytes (fields : JsonObject) :
    canonicalBytes (.obj fields) ≤ 2 + entryBytes fields := by
  refine (canonicalBytes_obj_le fields).trans ?_
  rw [Nat.add_assoc]
  apply Nat.add_le_add_left
  induction fields with
  | nil => exact Nat.zero_le _
  | cons e rest ih =>
      simp only [entryBytes, keys_cons, keyBytes, List.map_cons, List.sum_cons] at ih ⊢
      omega

/-- Leaving fields out makes no object larger. -/
theorem canonicalBytes_excludeNone_le (fields : JsonObject) :
    canonicalBytes (excludeNone fields) ≤ 2 + entryBytes fields := by
  refine (canonicalBytes_obj_le_entryBytes _).trans (Nat.add_le_add_left ?_ 2)
  rw [entryBytes, entryBytes]
  exact ((List.filter_sublist).map _).sum_le_sum fun _ _ => Nat.zero_le _

theorem entryBytes_nil : entryBytes [] ≤ 0 :=
  le_refl 0

theorem entryBytes_cons_le (key : String) {value : JsonValue} {rest : JsonObject}
    {bound total : Nat} (hvalue : canonicalBytes value ≤ bound) (hrest : entryBytes rest ≤ total) :
    entryBytes ((key, value) :: rest) ≤ (quote key).utf8ByteSize + 2 + bound + total := by
  rw [entryBytes, List.map_cons, List.sum_cons]
  exact Nat.add_le_add (Nat.add_le_add_left hvalue _) hrest

theorem length_bounded_le (value : String) {limit : Nat} (positive : 0 < limit) :
    (bounded value limit).length ≤ limit := by
  rw [bounded]
  split_ifs with short
  · exact short
  · have single : "…".length = 1 := by decide
    rw [String.length_append, String.length_ofList, List.length_take, single]
    omega

theorem bytes_bounded (value : String) {limit : Nat} (positive : 0 < limit) :
    canonicalBytes (.str (bounded value limit)) ≤ 6 * limit + 2 :=
  utf8ByteSize_quote_le (length_bounded_le value positive)

theorem bytes_boundedValue (value : Option String) :
    canonicalBytes (.ofOption .str (boundedValue value)) ≤ 770 := by
  refine canonicalBytes_ofOption_le (fun text mem => ?_) (by decide)
  obtain ⟨whole, -, rfl⟩ := Option.mem_map.mp mem
  exact bytes_bounded whole (by decide)

theorem bytes_withoutNone_artifact (artifact : WorkerArtifactIdentity) :
    canonicalBytes (withoutNone artifact.modelDump) ≤ 7780 := by
  have hrevision : canonicalBytes (.ofOption (fun text : BoundedText _ => .str text.text)
      artifact.sourceRevision) ≤ 6 * maxProvenanceIdentityLength + 2 :=
    canonicalBytes_ofOption_le (fun text _ => bytes_boundedText text) (by decide)
  refine (canonicalBytes_excludeNone_le _).trans ?_
  have total := entryBytes_cons_le "deployment_name" (bytes_boundedText artifact.deploymentName)
    (entryBytes_cons_le "build_id" (bytes_boundedText artifact.buildId)
      (entryBytes_cons_le "artifact_digest" (bytes_boundedText artifact.artifactDigest)
        (entryBytes_cons_le "package_version" (bytes_boundedText artifact.packageVersion)
          (entryBytes_cons_le "source_revision" hrevision entryBytes_nil))))
  refine (Nat.add_le_add_left total 2).trans ?_
  decide

theorem bytes_executionConfiguration (configuration : ExecutionConfigurationIdentity) :
    canonicalBytes configuration.modelDump ≤ 530 := by
  have hcomponent : canonicalBytes (.ofOption (fun d : ProvenanceDigest => .str d.text)
      configuration.componentIdentityDigest) ≤ 73 :=
    canonicalBytes_ofOption_le (fun d _ => (bytes_provenanceDigest d).le) (by decide)
  refine (canonicalBytes_excludeNone_le _).trans ?_
  have total := entryBytes_cons_le "configuration_revision_id"
    (bytes_digest configuration.configurationRevisionId).le
    (entryBytes_cons_le "tenant_configuration_revision_id"
      (bytes_optionalDigest configuration.tenantConfigurationRevisionId)
      (entryBytes_cons_le "component_catalog_revision"
        (bytes_optionalDigest configuration.componentCatalogRevision)
        (entryBytes_cons_le "component_identity_digest" hcomponent
          (entryBytes_cons_le "resolution_digest"
            (bytes_provenanceDigest configuration.resolutionDigest).le entryBytes_nil))))
  refine (Nat.add_le_add_left total 2).trans ?_
  decide

theorem bytes_correlation (identity : CorrelationIdentity) :
    canonicalBytes (correlationIdentity identity).modelDump ≤ 15400 := by
  have hartifact : canonicalBytes
      (.ofOption (fun a => withoutNone a.modelDump) identity.workerArtifact) ≤ 7780 :=
    canonicalBytes_ofOption_le (fun a _ => bytes_withoutNone_artifact a) (by decide)
  have hconfiguration : canonicalBytes
      (.ofOption ExecutionConfigurationIdentity.modelDump identity.executionConfiguration) ≤ 530 :=
    canonicalBytes_ofOption_le (fun c _ => bytes_executionConfiguration c) (by decide)
  have hworkflow :
      canonicalBytes (.str (bounded identity.workflow maxCorrelationValueLength)) ≤ 770 :=
    bytes_bounded identity.workflow (by decide)
  refine (canonicalBytes_excludeNone_le _).trans ?_
  have total := entryBytes_cons_le "workflow" hworkflow
    (entryBytes_cons_le "request_id" (bytes_boundedValue identity.requestId)
    (entryBytes_cons_le "run_id" (bytes_boundedValue identity.runId)
    (entryBytes_cons_le "definition_digest" (bytes_boundedValue identity.definitionDigest)
    (entryBytes_cons_le "worker_deployment" (bytes_boundedValue identity.workerDeployment)
    (entryBytes_cons_le "worker_build_id" (bytes_boundedValue identity.workerBuildId)
    (entryBytes_cons_le "worker_artifact" hartifact
    (entryBytes_cons_le "environment_snapshot_digest"
      (bytes_optionalDigest identity.environmentSnapshotDigest)
    (entryBytes_cons_le "trigger_source" (bytes_boundedValue identity.triggerSource)
    (entryBytes_cons_le "trigger_name" (bytes_boundedValue identity.triggerName)
    (entryBytes_cons_le "source_identity_digest"
      (bytes_optionalDigest identity.sourceIdentityDigest)
    (entryBytes_cons_le "correlation_identity_digest"
      (bytes_optionalDigest identity.correlationIdentityDigest)
    (entryBytes_cons_le "scope_digest" (bytes_optionalDigest identity.scopeDigest)
    (entryBytes_cons_le "execution_configuration" hconfiguration entryBytes_nil)))))))))))))
  refine (Nat.add_le_add_left total 2).trans ?_
  decide

/-! ## Admitted failures -/

/-- A step name has the length of an authored name. -/
def StepNamed (step : Option String) : Prop :=
  ∀ name ∈ step, name.length ≤ maxIdentifierLength

/-- A detail that the classification of some exception made. -/
def Classified (detail : FailureDetail) : Prop :=
  ∃ exc phase step code, StepNamed step ∧ detail = classifyFailure exc phase step code

/-- A classified failure has short codes and a step of the workflow. -/
theorem Classified.bounds {detail : FailureDetail} (classified : Classified detail) :
    detail.code.length ≤ maxFailureCodeLength ∧ detail.causeCode.length ≤ maxFailureCodeLength ∧
      StepNamed detail.step := by
  obtain ⟨exc, phase, step, code, named, rfl⟩ := classified
  exact ⟨length_bounded_le _ (by decide), length_bounded_le _ (by decide), named⟩

theorem bytes_metadata {detail : FailureDetail} (classified : Classified detail) :
    canonicalBytes (FailureMetadata.fromDetail detail).modelDump ≤ 2430 := by
  obtain ⟨code, causeCode, step⟩ := classified.bounds
  have hcode : canonicalBytes (.str detail.code) ≤ 6 * maxFailureCodeLength + 2 :=
    utf8ByteSize_quote_le code
  have hcause : canonicalBytes (.str detail.causeCode) ≤ 6 * maxFailureCodeLength + 2 :=
    utf8ByteSize_quote_le causeCode
  have hstep : canonicalBytes (.ofOption .str detail.step) ≤ 6 * maxIdentifierLength + 2 :=
    canonicalBytes_ofOption_le (fun name mem => utf8ByteSize_quote_le (step name mem)) (by decide)
  have hcategory : canonicalBytes (.str detail.category.value) ≤ 16 := by
    cases detail.category <;> decide
  have hphase : canonicalBytes (.str detail.phase.value) ≤ 16 := by
    cases detail.phase <;> decide
  have hretryable : canonicalBytes (.bool detail.retryable) ≤ 5 := by
    cases detail.retryable <;> decide
  refine (canonicalBytes_excludeNone_le _).trans ?_
  have total := entryBytes_cons_le "code" hcode
    (entryBytes_cons_le "cause_code" hcause
    (entryBytes_cons_le "category" hcategory
    (entryBytes_cons_le "phase" hphase
    (entryBytes_cons_le "retryable" hretryable
    (entryBytes_cons_le "step" hstep entryBytes_nil)))))
  refine (Nat.add_le_add_left total 2).trans ?_
  decide

/-- What the engine hands over: an identity that was made by `correlation_identity`, classified
failures, a step of the workflow and ISO times. -/
structure FailureReport.Admitted (failure : FailureReport) : Prop where
  correlation : ∃ identity, failure.correlation = correlationIdentity identity
  step : StepNamed failure.step
  primary : ∀ detail ∈ failure.primary, Classified detail
  secondary : ∀ detail ∈ failure.secondary, Classified detail
  startedAt : failure.startedAt.length ≤ 32
  failedAt : failure.failedAt.length ≤ 32

namespace FailureReport

variable {failure : FailureReport}

theorem Admitted.classification (admitted : failure.Admitted) :
    Classified failure.classification := by
  rw [FailureReport.classification]
  cases given : failure.primary with
  | none => exact ⟨_, _, _, _, admitted.step, rfl⟩
  | some detail => exact admitted.primary detail given

/-- A record without steps and transitions. -/
theorem size_without_lists (admitted : failure.Admitted) (reprStr : String → String) :
    FailureRecord.size { failure.fullRecord reprStr with steps := [], transitions := [] } ≤
      defaultFailureRecordBytes := by
  obtain ⟨identity, same⟩ := admitted.correlation
  have hcorrelation : canonicalBytes failure.correlation.modelDump ≤ 15400 := by
    rw [same]
    exact bytes_correlation identity
  have hsecondary : canonicalBytes (.arr (((failure.secondary.take maxSecondaryFailures).map
      FailureMetadata.fromDetail).map FailureMetadata.modelDump)) ≤ 2 + 4 * (2430 + 1) := by
    apply canonicalBytes_arr_le
    · rw [List.length_map, List.length_map]
      exact List.length_take_le _ _
    · intro value mem
      obtain ⟨metadata, inner, rfl⟩ := List.mem_map.mp mem
      obtain ⟨detail, taken, rfl⟩ := List.mem_map.mp inner
      exact bytes_metadata (admitted.secondary detail (List.mem_of_mem_take taken))
  have hstarted : canonicalBytes (.str failure.startedAt) ≤ 6 * 32 + 2 :=
    utf8ByteSize_quote_le admitted.startedAt
  have hfailed : canonicalBytes (.str failure.failedAt) ≤ 6 * 32 + 2 :=
    utf8ByteSize_quote_le admitted.failedAt
  have hversion : canonicalBytes (.int auditVersion) ≤ 1 := by decide
  have hserialization : canonicalBytes (.int strictJsonVersion) ≤ 1 := by decide
  have hstatus : canonicalBytes (.str "failed") ≤ 8 := by decide
  have hempty : canonicalBytes (.arr []) ≤ 2 := by decide
  refine (canonicalBytes_obj_le_entryBytes _).trans ?_
  have total := entryBytes_cons_le "audit_version" hversion
    (entryBytes_cons_le "serialization_version" hserialization
    (entryBytes_cons_le "correlation" hcorrelation
    (entryBytes_cons_le "status" hstatus
    (entryBytes_cons_le "error" (bytes_metadata admitted.classification)
    (entryBytes_cons_le "secondary" hsecondary
    (entryBytes_cons_le "steps" hempty
    (entryBytes_cons_le "transitions" hempty
    (entryBytes_cons_le "started_at" hstarted
    (entryBytes_cons_le "failed_at" hfailed entryBytes_nil)))))))))
  refine (Nat.add_le_add_left total 2).trans ?_
  decide

/-- A step that raised a `KeyError`. -/
def keyErrorFailure : FailureReport where
  exc := .python "KeyError" "'total'"
  correlation := correlationIdentity {
    workflow := "orders"
    requestId := some "request-1"
    runId := some "run-1"
    definitionDigest := none
    workerDeployment := none
    workerBuildId := none
    workerArtifact := none
    environmentSnapshotDigest := none
    triggerSource := some "broker"
    triggerName := none
    sourceIdentityDigest := none
    correlationIdentityDigest := none
    scopeDigest := none
    executionConfiguration := none }
  phase := .step
  startedAt := "2026-08-02T00:00:00+00:00"
  failedAt := "2026-08-02T00:00:01+00:00"
  step := some "total"
  stepEntries := []
  transitions := []
  primary := none
  secondary := []
  code := none

end FailureReport

end Justflow
