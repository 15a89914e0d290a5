import Justflow.Activation.Schedules
import Justflow.Config.Grammar
import Justflow.Definitions.Manifest
import Justflow.Library.Tables
import Justflow.Runtime.Scope
import Justflow.Starts.Starter

/-!
# The memo of a start

A start writes its identity into the memo of the execution, one text for each field that is set,
and a duplicate start builds its result from there.  The reader takes an empty text for an absent
one, so that the round trip rests on every text of an identity being non-empty.
-/

namespace Justflow

namespace StartMemo

/-! ## Validated identities -/

def isDigestText (text : List Char) : Bool :=
  text.length = 64 && text.all isHexDigit

def parseDigest (text : String) : Option Digest :=
  if h : text.length = 64 ∧ text.toList.all isHexDigit = true then some (.checked text h) else none

def parseProvenanceDigest (text : String) : Option ProvenanceDigest :=
  match text.toList with
  | 's' :: 'h' :: 'a' :: '2' :: '5' :: '6' :: ':' :: hex =>
      (parseDigest (String.ofList hex)).map ProvenanceDigest.mk
  | _ => none

def parseText (limit : Nat) (text : String) : Option (BoundedText limit) :=
  if h : 1 ≤ text.length ∧ text.length ≤ limit then some ⟨text, h.1, h.2⟩ else none

def localArtifactDigest : String := "local-development"

/-- `validate_artifact_digest`. -/
def validArtifactDigest (self : WorkerArtifactIdentity) : Bool :=
  self.artifactDigest.text = localArtifactDigest ||
    (parseProvenanceDigest self.artifactDigest.text).isSome

/-- `validate_tenant_resolution`: the fields of the tenant are set together. -/
def completeTenant (self : ExecutionConfigurationIdentity) : Bool :=
  let set := [self.tenantConfigurationRevisionId.isSome, self.componentCatalogRevision.isSome,
    self.componentIdentityDigest.isSome]
  !(set.any (!·) && set.any id)

abbrev ValidArtifact := { artifact : WorkerArtifactIdentity // validArtifactDigest artifact = true }

abbrev ValidConfiguration :=
  { configuration : ExecutionConfigurationIdentity // completeTenant configuration = true }

abbrev IdentifierName := { name : String // validIdentifier name = true }

inductive MemoError where
  | missing (key : String)
  | incompleteConfiguration
  /-- A model refuses the value of a field. -/
  | validation (field : String)
  deriving DecidableEq

def MemoError.message : MemoError → String
  | .missing key => s!"Existing workflow memo is missing {key}"
  | .incompleteConfiguration => "Existing workflow configuration memo is incomplete"
  | .validation field => s!"Invalid {field}"

def require {α : Type} (field : String) : Option α → Except MemoError α
  | some value => .ok value
  | none => .error (.validation field)

def subtypeOf {α : Type} (valid : α → Bool) (value : α) : Option { value // valid value = true } :=
  if h : valid value = true then some ⟨value, h⟩ else none

/-! ## Results -/

/-- `StartWorkflowResult` with all its fields. -/
structure StartWorkflowResult where
  workflowId : BoundedText maxIdentifierLength
  runId : BoundedText maxIdentifierLength
  workflowName : IdentifierName
  definitionDigest : Digest
  artifactIdentity : ValidArtifact
  environmentSnapshotDigest : Digest
  executionConfiguration : Option ValidConfiguration
  triggerName : IdentifierName
  sourceIdentityDigest : Digest
  scopeDigest : Digest
  status : StartStatus

/-- The constructor, which validates the texts. -/
def StartWorkflowResult.validate (workflowId runId workflowName definitionDigest : String)
    (artifactIdentity : ValidArtifact) (environmentSnapshotDigest : String)
    (executionConfiguration : Option ValidConfiguration)
    (triggerName sourceIdentityDigest scopeDigest : String) (status : StartStatus) :
    Except MemoError StartWorkflowResult := do
  let workflowId ← require "workflow_id" (parseText maxIdentifierLength workflowId)
  let runId ← require "run_id" (parseText maxIdentifierLength runId)
  let workflowName ← require "workflow_name" (subtypeOf validIdentifier workflowName)
  let definitionDigest ← require "definition_digest" (parseDigest definitionDigest)
  let environmentSnapshotDigest ← require "environment_snapshot_digest"
    (parseDigest environmentSnapshotDigest)
  let triggerName ← require "trigger_name" (subtypeOf validIdentifier triggerName)
  let sourceIdentityDigest ← require "source_identity_digest" (parseDigest sourceIdentityDigest)
  let scopeDigest ← require "scope_digest" (parseDigest scopeDigest)
  return ⟨workflowId, runId, workflowName, definitionDigest, artifactIdentity,
    environmentSnapshotDigest, executionConfiguration, triggerName, sourceIdentityDigest,
    scopeDigest, status⟩

/-! ## Writing -/

/-- A memo as Temporal describes it: names with any JSON values. -/
abbrev Memo := Table String JsonValue

def Memo.put (memo : Memo) (key text : String) : Memo :=
  memo.insert key (.str text)

def Memo.putSome (memo : Memo) (key : String) : Option String → Memo
  | some text => memo.put key text
  | none => memo

def memoLogicalWorkflow : String := "justflow.logical_workflow"
def memoDefinitionDigest : String := "justflow.definition_digest"
def memoWorkerDeployment : String := "justflow.worker_deployment"
def memoWorkerBuildId : String := "justflow.worker_build_id"
def memoWorkerArtifactDigest : String := "justflow.worker_artifact_digest"
def memoWorkerPackageVersion : String := "justflow.worker_package_version"
def memoWorkerSourceRevision : String := "justflow.worker_source_revision"
def memoEnvironmentSnapshotDigest : String := "justflow.environment_snapshot_digest"
def memoScopeDigest : String := "justflow.scope_digest"
def memoConfigurationRevision : String := "justflow.configuration_revision"
def memoTenantConfigurationRevision : String := "justflow.tenant_configuration_revision"
def memoComponentCatalogRevision : String := "justflow.component_catalog_revision"
def memoComponentIdentityDigest : String := "justflow.component_identity_digest"
def memoConfigurationResolutionDigest : String := "justflow.configuration_resolution_digest"
def memoTriggerSource : String := "justflow.trigger_source"
def memoSourceIdentityDigest : String := "justflow.source_identity_digest"
def memoCorrelationIdentityDigest : String := "justflow.correlation_identity_digest"
def memoSourceProvider : String := "justflow.source_provider"
def memoTriggerName : String := "justflow.trigger_name"

def Memo.putConfiguration (memo : Memo) : Option ExecutionConfigurationIdentity → Memo
  | none => memo
  | some configuration =>
      ((((memo.put memoConfigurationRevision configuration.configurationRevisionId.text).put
        memoConfigurationResolutionDigest configuration.resolutionDigest.text).putSome
        memoTenantConfigurationRevision
          (configuration.tenantConfigurationRevisionId.map Digest.text)).putSome
        memoComponentCatalogRevision
          (configuration.componentCatalogRevision.map Digest.text)).putSome
        memoComponentIdentityDigest
          (configuration.componentIdentityDigest.map ProvenanceDigest.text)

def executionIdentityMemo (logicalName definitionDigest : String)
    (artifactIdentity : WorkerArtifactIdentity) (environmentSnapshotDigest : Option Digest)
    (scopeDigest : Option Digest)
    (executionConfiguration : Option ExecutionConfigurationIdentity) : Memo :=
  let memo := ((((Memo.put .empty memoLogicalWorkflow logicalName).put
    memoDefinitionDigest definitionDigest).put
    memoWorkerDeployment artifactIdentity.deploymentName.text).put
    memoWorkerBuildId artifactIdentity.buildId.text).put
    memoWorkerArtifactDigest artifactIdentity.artifactDigest.text
  (((((memo.put memoWorkerPackageVersion artifactIdentity.packageVersion.text).putSome
    memoEnvironmentSnapshotDigest (environmentSnapshotDigest.map Digest.text)).putSome
    memoScopeDigest (scopeDigest.map Digest.text)).putConfiguration
    executionConfiguration)).putSome
    memoWorkerSourceRevision (artifactIdentity.sourceRevision.map BoundedText.text)

/-- Where a start comes from. -/
inductive SourceIdentity where
  | broker (broker messageId : String)
  | controlApi (requestId : String)
  | webhook (provider eventId : String)
  | host (adapter eventId : String)
  | schedule (schedule occurrenceId : String)
  | cloudEvent (mapping eventId : String)
  deriving DecidableEq

namespace SourceIdentity

/-- The trigger source and the other fields. -/
def fields : SourceIdentity → String × List (String × String)
  | .broker name messageId => ("broker", [("broker", name), ("message_id", messageId)])
  | .controlApi requestId => ("control_api", [("request_id", requestId)])
  | .webhook name eventId => ("webhook", [("provider", name), ("event_id", eventId)])
  | .host name eventId => ("host", [("adapter", name), ("event_id", eventId)])
  | .schedule name occurrenceId =>
      ("schedule", [("schedule", name), ("occurrence_id", occurrenceId)])
  | .cloudEvent name eventId => ("cloud_event", [("mapping", name), ("event_id", eventId)])

def triggerSource (self : SourceIdentity) : String :=
  self.fields.1

def modelDump (self : SourceIdentity) : JsonValue :=
  .obj (("source", .str self.triggerSource) ::
    self.fields.2.map fun field => (field.1, .str field.2))

/-- `_source_provider`. -/
def provider : SourceIdentity → Option String
  | .broker name _ => some name
  | .controlApi _ => none
  | .webhook name _ => some name
  | .host name _ => some name
  | .schedule _ _ => none
  | .cloudEvent name _ => some name

end SourceIdentity

structure WorkerDeployment where
  artifactIdentity : ValidArtifact
  compatibleEngineWorkflowAbis : List String

structure WorkflowStartTarget where
  manifest : DefinitionManifest
  deployment : WorkerDeployment
  environmentSnapshotDigest : Digest
  scopeDigest : Option Digest
  executionConfiguration : Option ValidConfiguration

/-- What a start is made of once its target is resolved and its trigger matched. -/
structure AdmittedStart where
  source : SourceIdentity
  scope : RuntimeScope
  target : WorkflowStartTarget
  triggerName : String
  correlationId : String

section Starts

variable (hashing : Hashing)

def WorkflowStartTarget.memo (self : WorkflowStartTarget) : Memo :=
  executionIdentityMemo self.manifest.logicalName (self.manifest.definitionDigest hashing).text
    self.deployment.artifactIdentity.val (some self.environmentSnapshotDigest) none
    (self.executionConfiguration.map Subtype.val)

def sourceIdentityDigest (source : SourceIdentity) (scope : RuntimeScope) : Digest :=
  hashing.sha256 (Hashing.canonicalText
    (.obj [("scope_digest", .str (scope.digest hashing).text), ("source", source.modelDump)]))

namespace AdmittedStart

variable (self : AdmittedStart)

/-- The memo of the execution. -/
def memo : Memo :=
  (((((self.target.memo hashing).put memoTriggerSource self.source.triggerSource).put
    memoTriggerName self.triggerName).put
    memoSourceIdentityDigest (sourceIdentityDigest hashing self.source self.scope).text).put
    memoCorrelationIdentityDigest (hashing.sha256 self.correlationId).text).put
    memoScopeDigest (self.scope.digest hashing).text |>.putSome
    memoSourceProvider self.source.provider

/-- `_result`. -/
def result (workflowId runId : String) : Except MemoError StartWorkflowResult :=
  StartWorkflowResult.validate workflowId runId self.target.manifest.logicalName
    (self.target.manifest.definitionDigest hashing).text self.target.deployment.artifactIdentity
    self.target.environmentSnapshotDigest.text self.target.executionConfiguration
    self.triggerName (sourceIdentityDigest hashing self.source self.scope).text
    (self.scope.digest hashing).text .started

end AdmittedStart

end Starts

/-! ## Reading -/

def memoText (memo : Memo) (key : String) : Option String :=
  match memo.get? key with
  | some (.str text) => if text = "" then none else some text
  | _ => none

def requiredMemoText (memo : Memo) (key : String) : Except MemoError String :=
  match memoText memo key with
  | some text => .ok text
  | none => .error (.missing key)

/-- An optional text that a model validates. -/
def optional {α : Type} (field : String) (parse : String → Option α) :
    Option String → Except MemoError (Option α)
  | none => .ok none
  | some text => (require field (parse text)).map some

/-- The constructor of a `WorkerArtifactIdentity`. -/
def validateArtifact (deploymentName buildId artifactDigest packageVersion : String)
    (sourceRevision : Option String) : Except MemoError ValidArtifact := do
  let limit := maxProvenanceIdentityLength
  let deploymentName ← require "deployment_name" (parseText limit deploymentName)
  let buildId ← require "build_id" (parseText limit buildId)
  let artifactDigest ← require "artifact_digest" (parseText limit artifactDigest)
  let packageVersion ← require "package_version" (parseText limit packageVersion)
  let sourceRevision ← optional "source_revision" (parseText limit) sourceRevision
  require "artifact_digest" (subtypeOf validArtifactDigest
    ⟨deploymentName, buildId, artifactDigest, packageVersion, sourceRevision⟩)

/-- The constructor of an `ExecutionConfigurationIdentity`. -/
def validateConfiguration (configurationRevisionId : String)
    (tenantConfigurationRevisionId componentCatalogRevision componentIdentityDigest : Option String)
    (resolutionDigest : String) : Except MemoError ValidConfiguration := do
  let configurationRevisionId ← require "configuration_revision_id"
    (parseDigest configurationRevisionId)
  let tenantConfigurationRevisionId ← optional "tenant_configuration_revision_id" parseDigest
    tenantConfigurationRevisionId
  let componentCatalogRevision ← optional "component_catalog_revision" parseDigest
    componentCatalogRevision
  let componentIdentityDigest ← optional "component_identity_digest" parseProvenanceDigest
    componentIdentityDigest
  let resolutionDigest ← require "resolution_digest" (parseProvenanceDigest resolutionDigest)
  require "tenant" (subtypeOf completeTenant ⟨configurationRevisionId,
    tenantConfigurationRevisionId, componentCatalogRevision, componentIdentityDigest,
    resolutionDigest⟩)

def configurationFromMemo (memo : Memo) : Except MemoError (Option ValidConfiguration) :=
  match memoText memo memoConfigurationRevision,
      memoText memo memoConfigurationResolutionDigest with
  | none, none => .ok none
  | some revision, some resolution =>
      (validateConfiguration revision (memoText memo memoTenantConfigurationRevision)
        (memoText memo memoComponentCatalogRevision) (memoText memo memoComponentIdentityDigest)
        resolution).map some
  | _, _ => .error .incompleteConfiguration

def artifactFromMemo (memo : Memo) : Except MemoError ValidArtifact := do
  let deploymentName ← requiredMemoText memo memoWorkerDeployment
  let buildId ← requiredMemoText memo memoWorkerBuildId
  let artifactDigest ← requiredMemoText memo memoWorkerArtifactDigest
  let packageVersion ← requiredMemoText memo memoWorkerPackageVersion
  validateArtifact deploymentName buildId artifactDigest packageVersion
    (memoText memo memoWorkerSourceRevision)

def startResultFromMemo (memo : Memo) (workflowId runId : String) :
    Except MemoError StartWorkflowResult := do
  let workflowName ← requiredMemoText memo memoLogicalWorkflow
  let definitionDigest ← requiredMemoText memo memoDefinitionDigest
  let scopeDigest ← requiredMemoText memo memoScopeDigest
  let triggerName ← requiredMemoText memo memoTriggerName
  let sourceDigest ← requiredMemoText memo memoSourceIdentityDigest
  let artifactIdentity ← artifactFromMemo memo
  let executionConfiguration ← configurationFromMemo memo
  let environmentSnapshotDigest ← requiredMemoText memo memoEnvironmentSnapshotDigest
  StartWorkflowResult.validate workflowId runId workflowName definitionDigest artifactIdentity
    environmentSnapshotDigest executionConfiguration triggerName sourceDigest scopeDigest
    .duplicate

/-! ## The round trip -/

theorem parseDigest_text (digest : Digest) : parseDigest digest.text = some digest :=
  dif_pos ⟨digest.length, digest.hex⟩

theorem parseText_text {limit : Nat} (text : BoundedText limit) :
    parseText limit text.text = some text :=
  dif_pos ⟨text.nonempty, text.bounded⟩

theorem parseProvenanceDigest_text (digest : ProvenanceDigest) :
    parseProvenanceDigest digest.text = some digest := by
  have chars : digest.text.toList =
      's' :: 'h' :: 'a' :: '2' :: '5' :: '6' :: ':' :: digest.hex.text.toList := by
    rw [ProvenanceDigest.text, String.toList_append]
    rfl
  rw [parseProvenanceDigest, chars]
  simp only [String.ofList_toList, parseDigest_text, Option.map_some]

theorem subtypeOf_val {α : Type} {valid : α → Bool} (value : { value // valid value = true }) :
    subtypeOf valid value.val = some value :=
  dif_pos value.property

theorem BoundedText.ne_empty {limit : Nat} (text : BoundedText limit) : text.text ≠ "" := by
  intro empty
  have := text.nonempty
  rw [empty] at this
  exact absurd this (by decide)

theorem Digest.ne_empty (digest : Digest) : digest.text ≠ "" := by
  intro empty
  have := digest.length
  rw [empty] at this
  exact absurd this (by decide)

theorem ProvenanceDigest.ne_empty (digest : ProvenanceDigest) : digest.text ≠ "" := by
  intro empty
  have := congrArg String.length empty
  rw [ProvenanceDigest.text, String.length_append, digest.hex.length] at this
  exact absurd this (by decide)

theorem validateArtifact_texts (artifact : ValidArtifact) :
    validateArtifact artifact.val.deploymentName.text artifact.val.buildId.text
      artifact.val.artifactDigest.text artifact.val.packageVersion.text
      (artifact.val.sourceRevision.map BoundedText.text) = .ok artifact := by
  have revision : optional "source_revision" (parseText maxProvenanceIdentityLength)
      (artifact.val.sourceRevision.map BoundedText.text) = .ok artifact.val.sourceRevision := by
    cases artifact.val.sourceRevision with
    | none => rfl
    | some text =>
        rw [Option.map_some, optional, parseText_text]
        rfl
  simp only [validateArtifact, parseText_text, require, revision]
  exact congrArg (require "artifact_digest") (subtypeOf_val artifact)

theorem optional_text {α : Type} {field : String} {parse : String → Option α} {text : α → String}
    (parsed : ∀ value, parse (text value) = some value) (value : Option α) :
    optional field parse (value.map text) = .ok value := by
  cases value with
  | none => rfl
  | some value =>
      rw [Option.map_some, optional, parsed]
      rfl

theorem validateConfiguration_texts (configuration : ValidConfiguration) :
    validateConfiguration configuration.val.configurationRevisionId.text
      (configuration.val.tenantConfigurationRevisionId.map Digest.text)
      (configuration.val.componentCatalogRevision.map Digest.text)
      (configuration.val.componentIdentityDigest.map ProvenanceDigest.text)
      configuration.val.resolutionDigest.text = .ok configuration := by
  simp only [validateConfiguration, parseDigest_text, parseProvenanceDigest_text, require,
    optional_text parseDigest_text, optional_text parseProvenanceDigest_text]
  exact congrArg (require "tenant") (subtypeOf_val configuration)

section Texts

variable (memo : Memo) (key other text : String)

theorem memoText_put : memoText (memo.put key text) other =
    if other = key then (if text = "" then none else some text) else memoText memo other := by
  by_cases same : other = key
  · simp [memoText, Memo.put, same]
  · simp [memoText, Memo.put, Table.get?_insert, same]

theorem memoText_putSome (text : Option String) :
    memoText (memo.putSome key text) other =
      if other = key then
        match text with
        | some text => if text = "" then none else some text
        | none => memoText memo other
      else memoText memo other := by
  cases text with
  | none => rw [Memo.putSome, ite_self]
  | some text => exact memoText_put memo key other text

theorem memoText_empty : memoText .empty key = none := rfl

end Texts

/-- The results of one identity differ in their status only. -/
theorem validate_status (workflowId runId workflowName definitionDigest : String)
    (artifactIdentity : ValidArtifact) (environmentSnapshotDigest : String)
    (executionConfiguration : Option ValidConfiguration)
    (triggerName sourceIdentityDigest scopeDigest : String) (status : StartStatus) :
    StartWorkflowResult.validate workflowId runId workflowName definitionDigest artifactIdentity
        environmentSnapshotDigest executionConfiguration triggerName sourceIdentityDigest
        scopeDigest status =
      (StartWorkflowResult.validate workflowId runId workflowName definitionDigest
        artifactIdentity environmentSnapshotDigest executionConfiguration triggerName
        sourceIdentityDigest scopeDigest .started).map fun result =>
          { result with status := status } := by
  rw [StartWorkflowResult.validate, StartWorkflowResult.validate]
  cases parseText maxIdentifierLength workflowId with
  | none => rfl
  | some _ =>
  cases parseText maxIdentifierLength runId with
  | none => rfl
  | some _ =>
  cases subtypeOf validIdentifier workflowName with
  | none => rfl
  | some _ =>
  cases parseDigest definitionDigest with
  | none => rfl
  | some _ =>
  cases parseDigest environmentSnapshotDigest with
  | none => rfl
  | some _ =>
  cases subtypeOf validIdentifier triggerName with
  | none => rfl
  | some _ =>
  cases parseDigest sourceIdentityDigest with
  | none => rfl
  | some _ =>
  cases parseDigest scopeDigest with
  | none => rfl
  | some _ => rfl

/-- A result has names. -/
theorem names_of_validate {workflowId runId workflowName definitionDigest : String}
    {artifactIdentity : ValidArtifact} {environmentSnapshotDigest : String}
    {executionConfiguration : Option ValidConfiguration}
    {triggerName sourceIdentityDigest scopeDigest : String} {status : StartStatus}
    {result : StartWorkflowResult}
    (h : StartWorkflowResult.validate workflowId runId workflowName definitionDigest
      artifactIdentity environmentSnapshotDigest executionConfiguration triggerName
      sourceIdentityDigest scopeDigest status = .ok result) :
    workflowName ≠ "" ∧ triggerName ≠ "" := by
  have named : ∀ {name : String} {found : IdentifierName},
      subtypeOf validIdentifier name = some found → name ≠ "" := by
    intro name found subtyped
    rw [subtypeOf] at subtyped
    split at subtyped
    · next valid => exact ne_empty_of_validIdentifier valid
    · cases subtyped
  revert h
  rw [StartWorkflowResult.validate]
  cases parseText maxIdentifierLength workflowId with
  | none => exact nofun
  | some _ =>
  cases parseText maxIdentifierLength runId with
  | none => exact nofun
  | some _ =>
  cases workflow : subtypeOf validIdentifier workflowName with
  | none => exact nofun
  | some _ =>
  cases parseDigest definitionDigest with
  | none => exact nofun
  | some _ =>
  cases parseDigest environmentSnapshotDigest with
  | none => exact nofun
  | some _ =>
  cases trigger : subtypeOf validIdentifier triggerName with
  | none => exact nofun
  | some _ => exact fun _ => ⟨named workflow, named trigger⟩

/-- An optional text is read as it was written. -/
theorem optionalText {α : Type} {text : α → String} (nonempty : ∀ value, text value ≠ "")
    (value : Option α) :
    (match value.map text with
      | some text => if text = "" then none else some text
      | none => none) = value.map text := by
  cases value with
  | none => rfl
  | some value => exact if_neg (nonempty value)

/-- What the reader builds from the memo of a start. -/
theorem startResultFromMemo_memo (hashing : Hashing) (start : AdmittedStart)
    (workflow : start.target.manifest.logicalName ≠ "") (trigger : start.triggerName ≠ "")
    (workflowId runId : String) :
    startResultFromMemo (start.memo hashing) workflowId runId =
      (start.result hashing workflowId runId).map fun result =>
        { result with status := .duplicate } := by
  rw [AdmittedStart.result, ← validate_status]
  obtain ⟨source, scope, ⟨manifest, ⟨artifact, abis⟩, snapshot, owner, configuration⟩,
    triggerName, correlation⟩ := start
  have texts := validateArtifact_texts artifact
  -- the configuration decides which names are there
  rcases configuration with _ | configuration <;>
  simp only [startResultFromMemo, requiredMemoText, artifactFromMemo, configurationFromMemo,
    AdmittedStart.memo, WorkflowStartTarget.memo, executionIdentityMemo, Memo.putConfiguration,
    memoText_put, memoText_putSome, memoText_empty, Option.map_none, Option.map_some,
    memoLogicalWorkflow, memoDefinitionDigest, memoWorkerDeployment, memoWorkerBuildId,
    memoWorkerArtifactDigest, memoWorkerPackageVersion, memoWorkerSourceRevision,
    memoEnvironmentSnapshotDigest, memoScopeDigest, memoConfigurationRevision,
    memoTenantConfigurationRevision, memoComponentCatalogRevision, memoComponentIdentityDigest,
    memoConfigurationResolutionDigest, memoTriggerSource, memoSourceIdentityDigest,
    memoCorrelationIdentityDigest, memoSourceProvider, memoTriggerName, String.reduceEq, if_true,
    if_false, workflow, trigger, Digest.ne_empty, ProvenanceDigest.ne_empty,
    BoundedText.ne_empty, optionalText Digest.ne_empty, optionalText ProvenanceDigest.ne_empty,
    optionalText BoundedText.ne_empty, bind, Except.bind, texts]
  rw [validateConfiguration_texts]
  rfl

/-- A start with valid names has a result. -/
theorem result_of_names (hashing : Hashing) (start : AdmittedStart)
    (workflow : validIdentifier start.target.manifest.logicalName = true)
    (trigger : validIdentifier start.triggerName = true)
    (workflowId runId : BoundedText maxIdentifierLength) :
    start.result hashing workflowId.text runId.text = .ok
      { workflowId := workflowId
        runId := runId
        workflowName := ⟨start.target.manifest.logicalName, workflow⟩
        definitionDigest := start.target.manifest.definitionDigest hashing
        artifactIdentity := start.target.deployment.artifactIdentity
        environmentSnapshotDigest := start.target.environmentSnapshotDigest
        executionConfiguration := start.target.executionConfiguration
        triggerName := ⟨start.triggerName, trigger⟩
        sourceIdentityDigest := sourceIdentityDigest hashing start.source start.scope
        scopeDigest := start.scope.digest hashing
        status := .started } := by
  have workflowName := subtypeOf_val (⟨_, workflow⟩ : IdentifierName)
  have triggerName := subtypeOf_val (⟨_, trigger⟩ : IdentifierName)
  simp only at workflowName triggerName
  simp only [AdmittedStart.result, StartWorkflowResult.validate, parseText_text, parseDigest_text,
    workflowName, triggerName, require]
  rfl

/-! ## Starting again -/

/-- The part of a result that the starter's model carries. -/
def StartWorkflowResult.summary (self : StartWorkflowResult) : Justflow.StartWorkflowResult where
  workflowId := self.workflowId.text
  runId := self.runId.text
  definitionDigest := self.definitionDigest.text
  artifactIdentity := self.artifactIdentity.val.modelDump
  environmentSnapshotDigest := self.environmentSnapshotDigest.text
  executionConfiguration := self.executionConfiguration.map fun configuration =>
    configuration.val.modelDump
  scopeDigest := self.scopeDigest.text
  status := self.status

def AdmittedStart.resolvedTarget (hashing : Hashing) (self : AdmittedStart) :
    ScheduledStartResolvedTarget where
  definitionDigest := (self.target.manifest.definitionDigest hashing).text
  artifactIdentity := self.target.deployment.artifactIdentity.val.modelDump
  environmentSnapshotDigest := self.target.environmentSnapshotDigest.text
  scopeDigest := self.target.scopeDigest.map Digest.text
  executionConfiguration := self.target.executionConfiguration.map fun configuration =>
    configuration.val.modelDump

/-- What describing a run with a memo comes to. -/
def describedRun (memo : Memo) (workflowId runId : String) : ExistingRun :=
  match startResultFromMemo memo workflowId runId with
  | .ok result => .found result.summary
  | .error _ => .otherError

/-- A result has the identity of its start. -/
theorem summary_of_result {hashing : Hashing} {start : AdmittedStart} {workflowId runId : String}
    {result : StartWorkflowResult} (starter : WorkflowStarter)
    (owned : starter.scopeDigest = (start.scope.digest hashing).text)
    (returned : start.result hashing workflowId runId = .ok result) :
    result.summary = starter.startedResult (start.resolvedTarget hashing) workflowId runId := by
  revert returned
  rw [AdmittedStart.result, StartWorkflowResult.validate, parseDigest_text, parseDigest_text,
    parseDigest_text, parseDigest_text]
  have texts : ∀ {text : String} {found : BoundedText maxIdentifierLength},
      parseText maxIdentifierLength text = some found → found.text = text := by
    intro text found parsed
    rw [parseText] at parsed
    split at parsed
    · cases parsed
      rfl
    · cases parsed
  cases workflow : parseText maxIdentifierLength workflowId with
  | none => exact nofun
  | some _ =>
  cases run : parseText maxIdentifierLength runId with
  | none => exact nofun
  | some _ =>
  cases subtypeOf validIdentifier start.target.manifest.logicalName with
  | none => exact nofun
  | some _ =>
  cases subtypeOf validIdentifier start.triggerName with
  | none => exact nofun
  | some _ =>
      rintro ⟨⟩
      rw [StartWorkflowResult.summary, WorkflowStarter.startedResult, owned, texts workflow,
        texts run]
      rfl

section Examples

def sampleDigest : Digest where
  text := "1111111111111111111111111111111111111111111111111111111111111111"
  length := by decide
  hex := by decide

def sampleHash : Hashing := ⟨fun _ => sampleDigest⟩

/-- A start of a schedule with a tenant configuration. -/
def nightlyStart : AdmittedStart where
  source := .schedule "nightly" "2026-08-04"
  scope := localRuntimeScope
  target :=
    { manifest :=
        { logicalName := "invoices"
          requiredEngineWorkflowAbi := "justflow.workflow.v1"
          workflow := []
          deterministicPolicy := ⟨[], []⟩
          providerContracts := []
          contracts := []
          evaluators := []
          children := []
          format := rfl }
      deployment := ⟨⟨⟨⟨"worker", by decide, by decide⟩, ⟨"1", by decide, by decide⟩,
        ⟨"local-development", by decide, by decide⟩, ⟨"0.1", by decide, by decide⟩, none⟩,
        by decide⟩, ["justflow.workflow.v1"]⟩
      environmentSnapshotDigest := sampleDigest
      scopeDigest := none
      executionConfiguration := some ⟨⟨sampleDigest, some sampleDigest, some sampleDigest,
        some ⟨sampleDigest⟩, ⟨sampleDigest⟩⟩, by decide⟩ }
  triggerName := "nightly"
  correlationId := "2026-08-04"

end Examples

end StartMemo

end Justflow
