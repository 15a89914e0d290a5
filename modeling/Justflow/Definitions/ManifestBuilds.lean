import Justflow.Config.Models
import Justflow.Definitions.Manifest
import Justflow.Engine.AuditCapture
import Justflow.Library.Memoization
import Justflow.Resources.LoadOrder

/-!
# Building manifests

The manifest of a workflow holds the digests of the manifests of its child workflows, so that a
digest stands for everything that the workflow runs.  Manifests are built depth first and each
once; a resource brings in the resources that it depends on.  The schema libraries that accept a
contract declaration are a parameter, and the runtime limits stand as `asdict` writes them.
-/

open Fields

namespace Justflow

structure OnCompleteConfig where
  resource : String
  path : String
  retentionPolicy : String
  capture : AuditCaptureConfig := .metadataOnly

/-- A workflow with what its author declares beside the steps and the flow. -/
structure AuthoredWorkflow extends WorkflowConfig where
  description : String := ""
  onComplete : Option OnCompleteConfig := none

structure ResolvedService where
  name : String
  providerName : String
  providerContractVersion : String
  connectTimeoutSec : Option Int
  dispatchTimeoutSec : Int
  responseTimeoutSec : Option Int
  retries : Int
  params : List (String × JsonValue)

/-- A resolved resource and the contract of its provider. -/
structure ProvidedResource extends ResolvedResource where
  providerName : String
  providerContractVersion : String

/-! ## The workflow as a document -/

def AuditCaptureConfig.dump : AuditCaptureConfig → JsonValue
  | .metadataOnly => .obj [("mode", .str "metadata-only")]
  | .redacted capture => .obj [("mode", .str "redacted"),
      ("paths", .arr (capture.paths.map .str)), ("max_payload_bytes", .int capture.maxPayloadBytes)]
  | .approvedFull maxPayloadBytes =>
      .obj [("mode", .str "approved-full"), ("max_payload_bytes", .int maxPayloadBytes)]

def OnCompleteConfig.dump (self : OnCompleteConfig) : JsonValue :=
  .obj [("resource", .str self.resource), ("path", .str self.path),
    ("retention_policy", .str self.retentionPolicy), ("capture", self.capture.dump)]

def CacheConfig.dump (self : CacheConfig) : JsonValue :=
  .obj [("resource", .str self.resource), ("key", .str self.key),
    ("ttl_sec", .ofOption (fun seconds : Nat => .int seconds) self.ttlSec)]

/-- A step as the manifest writes it: the target is spread over three fields. -/
def StepDefinition.dump (self : StepDefinition) : JsonValue :=
  .obj <| [("params", .obj self.params),
      ("required_resources", .arr (self.requiredResources.map .str)),
      ("cache", .ofOption CacheConfig.dump self.cache),
      ("input_schema", .ofOption id self.inputSchema),
      ("output_schema", .ofOption id self.outputSchema)] ++
    match self.target with
    | .service service action =>
        [("service", .str service), ("action", .str action), ("workflow", .null)]
    | .workflow workflow => [("service", .null), ("action", .null), ("workflow", .str workflow)]

def BranchCondition.dump : BranchCondition → JsonValue
  | .expression text => .str text
  | .evaluator condition => .obj [("evaluator", .str condition.evaluator),
      ("resources", .arr (condition.resources.map .str))]

def OnResultBranch.dump (self : OnResultBranch) : JsonValue :=
  .obj [("when", .ofOption BranchCondition.dump self.whenCondition),
    ("default", .ofOption .str self.default), ("then", .ofOption .str self.thenStep)]

def ReferencePath.dump (self : ReferencePath) : JsonValue :=
  .str self.value

def InputSpec.dump : InputSpec → JsonValue
  | .reference ref => ref.dump
  | .named refs => .obj (refs.map fun entry => (entry.1, entry.2.dump))
  | .listed refs => .arr (refs.map ReferencePath.dump)

def WaitForConfig.dump (self : WaitForConfig) : JsonValue :=
  .obj [("signal", .str self.signal),
    ("timeout_sec", .ofOption (fun seconds : Nat => .int seconds) self.timeoutSec),
    ("timeout_until", .ofOption ReferencePath.dump self.timeoutUntil),
    ("on_timeout", .ofOption .str self.onTimeout)]

def IterationFailStrategy.value : IterationFailStrategy → String
  | .stop => "stop"
  | .skip => "skip"
  | .collect => "collect"

def FlowStep.dump (self : FlowStep) : JsonValue :=
  let number := JsonValue.ofOption fun n : Nat => .int n
  let text := JsonValue.ofOption .str
  .obj [("name", .str self.name), ("op", text self.op),
    ("input", .ofOption InputSpec.dump self.input), ("output", text self.output),
    ("params", .obj self.params), ("then", text self.thenStep),
    ("on_result", .ofOption (fun branches => .arr (branches.map OnResultBranch.dump))
      self.onResult),
    ("condition", text self.condition), ("for_each", .ofOption ReferencePath.dump self.forEach),
    ("as", text self.asVar), ("parallel", .bool self.parallel),
    ("max_concurrency", number self.maxConcurrency),
    ("on_iteration_fail", .ofOption (fun strategy => .str strategy.value) self.onIterationFail),
    ("wait_for", .ofOption WaitForConfig.dump self.waitFor), ("sleep_sec", number self.sleepSec),
    ("until", text self.untilCondition), ("max_iterations", number self.maxIterations),
    ("interval_sec", number self.intervalSec), ("on_exhausted", text self.onExhausted),
    ("on_failure", text self.onFailure), ("terminal", .bool self.terminal),
    ("reason", text self.reason)]

/-- `_manifest_workflow_content`. -/
def manifestWorkflowContent (workflow : AuthoredWorkflow) : List (String × JsonValue) :=
  [("workflow", .str workflow.workflow), ("description", .str workflow.description),
    ("on_complete", .ofOption OnCompleteConfig.dump workflow.onComplete),
    ("on_error", .ofOption (fun target => .obj [("then", .str target)]) workflow.onError),
    ("params", .obj (workflow.params.map fun entry => (entry.1, .str entry.2))),
    ("input_schema", .ofOption id workflow.inputSchema),
    ("output_schema", .ofOption id workflow.outputSchema),
    ("result", .ofOption ReferencePath.dump workflow.result),
    ("steps", .obj (workflow.steps.map fun entry => (entry.1, entry.2.dump))),
    ("flow", .arr (workflow.flow.map FlowStep.dump))]

/-! ## What a workflow refers to -/

/-- `sorted` of a set. -/
def sortedSet (names : List String) : List String :=
  names.dedup.insertionSort (· ≤ ·)

theorem mem_sortedSet {names : List String} {name : String} :
    name ∈ sortedSet names ↔ name ∈ names := by
  rw [sortedSet, (List.perm_insertionSort _ _).mem_iff, List.mem_dedup]

def childWorkflowNames (workflow : WorkflowConfig) : List String :=
  sortedSet <| workflow.steps.filterMap fun entry =>
    match entry.2.target with
    | .workflow child => some child
    | .service _ _ => none

def usedServiceNames (workflow : WorkflowConfig) : List String :=
  sortedSet <| workflow.steps.filterMap fun entry =>
    match entry.2.target with
    | .service service _ => some service
    | .workflow _ => none

/-- The evaluator conditions of the branches. -/
def evaluatorConditions (workflow : WorkflowConfig) : List EvaluatorCondition :=
  workflow.flow.flatMap fun step => step.branches.filterMap fun branch =>
    match branch.whenCondition with
    | some (.evaluator condition) => some condition
    | _ => none

/-- `_resource_names`. -/
def resourceNames (workflow : AuthoredWorkflow) : List String :=
  sortedSet <| (workflow.onComplete.map OnCompleteConfig.resource).toList ++
    workflow.steps.flatMap (fun entry =>
      entry.2.requiredResources ++ (entry.2.cache.map CacheConfig.resource).toList) ++
    (evaluatorConditions workflow.toWorkflowConfig).flatMap EvaluatorCondition.resources

/-- `_evaluator_identities`. -/
def evaluatorIdentities (workflow : WorkflowConfig) : List EvaluatorIdentity :=
  (sortedSet ((evaluatorConditions workflow).map EvaluatorCondition.evaluator)).map
    EvaluatorIdentity.mk

/-- The schemas that a workflow declares, with the places where it does. -/
def contractDeclarations (workflow : WorkflowConfig) : List (String × JsonValue) :=
  let at_ (location : String) (schema : Option JsonValue) :=
    (schema.map fun declared => (location, declared)).toList
  at_ "workflow.input" workflow.inputSchema ++ at_ "workflow.output" workflow.outputSchema ++
    (sortKeys workflow.steps).flatMap fun entry =>
      at_ s!"steps.{entry.1}.input" entry.2.inputSchema ++
        at_ s!"steps.{entry.1}.output" entry.2.outputSchema

/-- The identity of an accepted contract declaration. -/
abbrev ContractIdentities := JsonValue → Option String

/-- `_contract_references`. -/
def contractReferences (identities : ContractIdentities) (workflow : WorkflowConfig) :
    Option (List ContractReference) :=
  (contractDeclarations workflow).mapM fun declaration =>
    (identities declaration.2).map fun identity => ⟨declaration.1, identity⟩

/-! ## Builds -/

inductive DefinitionManifestError where
  | cycle (names : List String)
  | unavailable (workflow : String)
  | unresolvedService (workflow service : String)
  | unresolvedResource (workflow resource : String)
  | unrepresentable (workflow : String)
  deriving DecidableEq

def DefinitionManifestError.message : DefinitionManifestError → String
  | .cycle names =>
      let path := " -> ".intercalate names
      s!"Workflow dependency cycle cannot be manifested: {path}"
  | .unavailable workflow => s!"Workflow definition '{workflow}' is not available"
  | .unresolvedService workflow service =>
      s!"Workflow '{workflow}' uses unresolved service '{service}'"
  | .unresolvedResource workflow resource =>
      s!"Workflow '{workflow}' uses unresolved resource '{resource}'"
  | .unrepresentable workflow =>
      s!"Workflow '{workflow}' cannot be represented by a definition manifest"

def engineWorkflowAbi : String := "justflow.workflow.v1"

/-- What `build_definition_manifests` is given. -/
structure ManifestInputs where
  workflows : Table String AuthoredWorkflow
  services : Table String ResolvedService
  resources : Table String ProvidedResource := .empty
  runtimeLimits : List (String × Int)
  requiredEngineWorkflowAbi : String := engineWorkflowAbi

def ResolvedService.schedulingPolicy (self : ResolvedService) : ServiceSchedulingPolicy where
  service := self.name
  provider := self.providerName
  providerContractVersion := self.providerContractVersion
  connectTimeoutSec := self.connectTimeoutSec
  dispatchTimeoutSec := self.dispatchTimeoutSec
  responseTimeoutSec := self.responseTimeoutSec
  retries := self.retries
  params := self.params

def ProvidedResource.dependencyNames (self : ProvidedResource) : List String :=
  self.dependencies.map ResourceDependency.resourceName

/-- `sorted` of a set of names with versions. -/
def sortedContracts (contracts : List (String × String)) : List ProviderContractIdentity :=
  (contracts.dedup.insertionSort fun a b => a.1 < b.1 ∨ a.1 = b.1 ∧ a.2 ≤ b.2).map fun contract =>
    ⟨contract.1, contract.2⟩

namespace ManifestInputs

variable (self : ManifestInputs)

/-- The services that a workflow uses, in the order of their names. -/
def usedServices (logicalName : String) (workflow : WorkflowConfig) :
    Except DefinitionManifestError (List ResolvedService) :=
  (usedServiceNames workflow).mapM fun service =>
    match self.services.get? service with
    | some resolved => .ok resolved
    | none => .error (.unresolvedService logicalName service)

/-- The resources that pending names lead to.  The last pending name is the head of the list; the
fuel bounds the names that can be pending. -/
def includeResources (logicalName : String) :
    Nat → List String → List (String × ProvidedResource) →
      Except DefinitionManifestError (List (String × ProvidedResource))
  | _, [], included => .ok included
  | 0, name :: _, _ => .error (.unresolvedResource logicalName name)
  | fuel + 1, name :: pending, included =>
      if name ∈ keys included then includeResources logicalName fuel pending included
      else match self.resources.get? name with
        | none => .error (.unresolvedResource logicalName name)
        | some resource => includeResources logicalName fuel
            (resource.dependencyNames.reverse ++ pending) ((name, resource) :: included)

/-- The dependencies of a resource, in the order in which they are taken. -/
def pendingDependencies (name : String) : List String :=
  match self.resources.get? name with
  | some resource => resource.dependencyNames.reverse
  | none => []

def includedResources (logicalName : String) (workflow : AuthoredWorkflow) :
    Except DefinitionManifestError (List (String × ProvidedResource)) :=
  let pending := (resourceNames workflow).reverse
  self.includeResources logicalName
    (Digraph.workload self.pendingDependencies (keys self.resources.entries) pending []) pending []

variable (hashing : Hashing) (identities : ContractIdentities)

/-- The content of a manifest, from what its workflow refers to. -/
def assemble (logicalName : String) (workflow : AuthoredWorkflow)
    (children : List (String × DefinitionManifest)) (services : List ResolvedService)
    (resources : List (String × ProvidedResource)) (contracts : List ContractReference) :
    DefinitionManifest where
  logicalName := logicalName
  requiredEngineWorkflowAbi := self.requiredEngineWorkflowAbi
  workflow := manifestWorkflowContent workflow
  deterministicPolicy := {
    services := services.map ResolvedService.schedulingPolicy
    runtimeLimits := self.runtimeLimits }
  providerContracts := sortedContracts <|
    services.map (fun service => (service.providerName, service.providerContractVersion)) ++
      resources.map fun entry => (entry.2.providerName, entry.2.providerContractVersion)
  contracts := contracts
  evaluators := evaluatorIdentities workflow.toWorkflowConfig
  children := children.map fun child => ⟨child.1, child.2.definitionDigest hashing⟩
  format := rfl

/-- The manifest of a workflow whose children have theirs. -/
def manifestOf (logicalName : String) (workflow : AuthoredWorkflow)
    (children : List (String × DefinitionManifest)) :
    Except DefinitionManifestError DefinitionManifest := do
  let services ← self.usedServices logicalName workflow.toWorkflowConfig
  let resources ← self.includedResources logicalName workflow
  match contractReferences identities workflow.toWorkflowConfig with
  | none => .error (.unrepresentable logicalName)
  | some contracts =>
      .ok (self.assemble hashing logicalName workflow children services resources contracts)

/-- How the manifest of a workflow is built from those of its children. -/
def rules : Memoization.Rules String DefinitionManifest DefinitionManifestError where
  needs name :=
    match self.workflows.get? name with
    | none => .error (.unavailable name)
    | some workflow => .ok (childWorkflowNames workflow.toWorkflowConfig)
  make name children :=
    match self.workflows.get? name with
    | none => .error (.unavailable name)
    | some workflow => self.manifestOf hashing identities name workflow children
  cycle := .cycle

/-- `build_definition_manifests`. -/
def buildDefinitionManifests :
    Except DefinitionManifestError (Table String DefinitionManifest) :=
  Memoization.buildAll (self.rules hashing identities) (sortedSet (keys self.workflows.entries))

end ManifestInputs

end Justflow
