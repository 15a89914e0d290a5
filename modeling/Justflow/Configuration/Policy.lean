import Justflow.Config.AcceptedFlow
import Justflow.Library.Programs

/-!
# Tenant authoring policy

A tenant names approved components where a platform author names actions.  Resolving a workflow
checks every operation against the policy and the component catalog and yields the declaration
that the runner reads.  The schema check of the parameters is a parameter, `satisfies`.
-/

open Fields Program

namespace Justflow

inductive ResourceCapability where
  | archive
  | cache
  | config
  | database
  | keyValue
  | object
  | secretReader
  deriving DecidableEq, Repr

structure ComponentReference where
  name : String
  version : String
  deriving DecidableEq, Repr

def ComponentReference.identity (self : ComponentReference) : String :=
  s!"{self.name}@{self.version}"

structure PlatformStepComponent where
  reference : ComponentReference
  transport : String
  action : String
  parameterSchema : JsonValue := .obj []
  inputSchema : JsonValue := .obj []
  outputSchema : JsonValue := .obj []
  resourceSlots : List (String × ResourceCapability) := []
  approvedAliasParameters : List String := []
  allowCache : Bool := false

structure PlatformComponentCatalog where
  steps : List (String × PlatformStepComponent)

structure ResourceAuthoringGrant where
  provider : String
  capabilities : List ResourceCapability

structure ServiceAuthoringGrant where
  transport : String

def maxPolicyNameLength : Nat := 128

structure TenantAuthoringPolicy where
  stepComponents : List ComponentReference := []
  resourceBindings : List (String × ResourceAuthoringGrant) := []
  serviceBindings : List (String × ServiceAuthoringGrant) := []
  secretAliases : List String := []
  validateAliases : ∀ credential ∈ secretAliases,
    credential ≠ "" ∧ credential.length ≤ maxPolicyNameLength := by decide

structure TenantComponentOperation where
  component : ComponentReference
  serviceBinding : String
  resourceBindings : List (String × String) := []
  parameters : JsonObject := []
  cache : Option CacheConfig := none

inductive TenantOperation where
  | component (operation : TenantComponentOperation)
  | workflow (workflow : String)

/-- `onComplete` is the archive resource of the `on_complete` block, `onError` the target of
`on_error`. -/
structure TenantWorkflowConfig where
  workflow : String
  onComplete : Option String := none
  onError : Option String := none
  params : List (String × String) := []
  inputSchema : Option JsonValue := none
  outputSchema : Option JsonValue := none
  result : Option ReferencePath := none
  steps : List (String × TenantOperation)
  flow : List FlowStep
  fieldsValid : flow.all FlowStep.fieldsValid = true := by decide

/-! ## Resolution -/

def TenantAuthoringPolicy.grants (self : TenantAuthoringPolicy) (resource : String)
    (capability : ResourceCapability) : Bool :=
  match self.resourceBindings.lookup resource with
  | none => false
  | some grant => decide (capability ∈ grant.capabilities)

section Resolution

variable (satisfies : JsonValue → JsonObject → Bool) (policy : TenantAuthoringPolicy)
  (catalog : PlatformComponentCatalog)

def stepComponent (operation : TenantComponentOperation) :
    Except String PlatformStepComponent :=
  if operation.component ∉ policy.stepComponents then
    .error "Step component is not approved for this scope"
  else
    match catalog.steps.lookup operation.component.identity with
    | none => .error "Step component does not exist in the approved catalog"
    | some component =>
        if component.reference ≠ operation.component then
          .error "Step component does not exist in the approved catalog"
        else
          .ok component

/-- A string that the policy approves as a credential alias. -/
def isApprovedAlias (approvedAliases : List String) : JsonValue → Bool
  | .str credential => decide (credential ∈ approvedAliases)
  | _ => false

def validateComponentParameters (parameters : JsonObject) (schema : JsonValue)
    (approvedAliasParameters approvedAliases : List String) : Except String Unit :=
  firstViolation [
    (parameters.any fun entry => decide (entry.1 ∈ approvedAliasParameters)
        && !isApprovedAlias approvedAliases entry.2,
      "Component credential alias is not approved for this scope"),
    (!satisfies schema parameters, "Component parameters do not satisfy their contract")]

/-- Every slot of the component is bound to a resource that grants its capability. -/
def slotsGranted (component : PlatformStepComponent) (operation : TenantComponentOperation) :
    Bool :=
  component.resourceSlots.all fun slot =>
    match operation.resourceBindings.lookup slot.1 with
    | none => false
    | some resource => policy.grants resource slot.2

def cacheGranted (component : PlatformStepComponent) (operation : TenantComponentOperation) :
    Bool :=
  match operation.cache with
  | none => true
  | some cache => component.allowCache && policy.grants cache.resource .cache

def serviceGranted (component : PlatformStepComponent) (operation : TenantComponentOperation) :
    Bool :=
  match policy.serviceBindings.lookup operation.serviceBinding with
  | none => false
  | some grant => decide (grant.transport = component.transport)

def resolveComponent (operation : TenantComponentOperation) :
    Except String (StepDefinition × ComponentReference) := do
  let component ← stepComponent policy catalog operation
  validateComponentParameters satisfies operation.parameters component.parameterSchema
    component.approvedAliasParameters policy.secretAliases
  let bound := keys operation.resourceBindings
  let slots := keys component.resourceSlots
  firstViolation [
    (!(bound.all (slots.contains ·) && slots.all (bound.contains ·)),
      "Component resource slots do not match its declaration"),
    (!slotsGranted policy component operation, "Component resource capability is not approved"),
    (!cacheGranted policy component operation, "Component cache binding is not approved"),
    (!serviceGranted policy component operation, "Component service binding is not approved")]
  return ({
    target := .service operation.serviceBinding component.action
    params := operation.parameters
    requiredResources :=
      ((operation.resourceBindings.map Prod.snd).dedup).insertionSort (· ≤ ·)
    cache := operation.cache
    inputSchema := some component.inputSchema
    outputSchema := some component.outputSchema }, component.reference)

def resolveOperation : TenantOperation →
    Except String (StepDefinition × Option ComponentReference)
  | .workflow workflow => .ok ({ target := .workflow workflow }, none)
  | .component operation => do
      let resolved ← resolveComponent satisfies policy catalog operation
      return (resolved.1, some resolved.2)

def resolveOperations : List (String × TenantOperation) →
    Except String (List (String × StepDefinition) × List (String × ComponentReference))
  | [] => .ok ([], [])
  | (name, operation) :: rest => do
      let resolved ← resolveOperation satisfies policy catalog operation
      let others ← resolveOperations rest
      return ((name, resolved.1) :: others.1,
        (resolved.2.toList.map fun reference => (name, reference)) ++ others.2)

def OnResultBranch.importsEvaluator (self : OnResultBranch) : Bool :=
  match self.whenCondition with
  | some (.evaluator _) => true
  | _ => false

/-- The declaration with the resolved operations. -/
def TenantWorkflowConfig.declared (self : TenantWorkflowConfig)
    (steps : List (String × StepDefinition)) : WorkflowConfig where
  workflow := self.workflow
  onError := self.onError
  params := self.params
  inputSchema := self.inputSchema
  outputSchema := self.outputSchema
  result := self.result
  steps
  flow := self.flow

def resolveWorkflow (workflow : TenantWorkflowConfig) :
    Except String (WorkflowConfig × List (String × ComponentReference)) := do
  firstViolation [
    (workflow.flow.any fun step => step.branches.any OnResultBranch.importsEvaluator,
      "Tenant-authored conditions cannot import Python evaluators"),
    (workflow.onComplete.any fun resource => !policy.grants resource .archive,
      "Workflow archive binding is not approved for this scope")]
  let resolved ← resolveOperations satisfies policy catalog workflow.steps
  match (workflow.declared resolved.1).validateWorkflow with
  | .error _ => .error "Tenant-authored workflow is invalid"
  | .ok () => .ok (workflow.declared resolved.1, resolved.2)

end Resolution

/-! ## What resolution has checked -/

section Resolved

variable {satisfies : JsonValue → JsonObject → Bool} {policy : TenantAuthoringPolicy}
  {catalog : PlatformComponentCatalog}

theorem stepComponent_ok {operation : TenantComponentOperation}
    {component : PlatformStepComponent}
    (h : stepComponent policy catalog operation = .ok component) :
    operation.component ∈ policy.stepComponents
      ∧ catalog.steps.lookup operation.component.identity = some component
      ∧ component.reference = operation.component := by
  rw [stepComponent] at h
  split at h
  · cases h
  · rename_i approved
    split at h
    · cases h
    · rename_i found
      split at h
      · cases h
      · rename_i same
        cases h
        exact ⟨not_not.mp approved, found, not_not.mp same⟩

theorem isApprovedAlias_iff {approvedAliases : List String} {value : JsonValue} :
    isApprovedAlias approvedAliases value = true ↔
      ∃ credential ∈ approvedAliases, value = .str credential := by
  cases value <;> simp [isApprovedAlias]

theorem validateComponentParameters_ok {parameters : JsonObject} {schema : JsonValue}
    {approvedAliasParameters approvedAliases : List String}
    (h : validateComponentParameters satisfies parameters schema approvedAliasParameters
      approvedAliases = .ok ())
    {name : String} {value : JsonValue} (hname : name ∈ approvedAliasParameters)
    (hvalue : (name, value) ∈ parameters) :
    ∃ credential ∈ approvedAliases, value = .str credential := by
  rw [validateComponentParameters, firstViolation_ok_iff] at h
  have unviolated := h _ List.mem_cons_self
  rw [List.any_eq_false] at unviolated
  apply isApprovedAlias_iff.mp
  simpa [hname] using unviolated (name, value) hvalue

/-- A component operation keeps its service and its parameters, and these pass the alias check of
the component that the catalog holds for it. -/
theorem resolveComponent_ok {operation : TenantComponentOperation} {stepDef : StepDefinition}
    {reference : ComponentReference}
    (h : resolveComponent satisfies policy catalog operation = .ok (stepDef, reference)) :
    ∃ component, catalog.steps.lookup operation.component.identity = some component
      ∧ stepDef.target = .service operation.serviceBinding component.action
      ∧ stepDef.params = operation.parameters
      ∧ ∀ name ∈ component.approvedAliasParameters, ∀ value,
        (name, value) ∈ operation.parameters →
          ∃ credential ∈ policy.secretAliases, value = .str credential := by
  obtain ⟨component, hcomponent, h⟩ := exists_of_bind_eq_ok h
  obtain ⟨⟨⟩, hparameters, h⟩ := exists_of_bind_eq_ok h
  obtain ⟨⟨⟩, -, h⟩ := exists_of_bind_eq_ok h
  cases h
  obtain ⟨-, found, -⟩ := stepComponent_ok hcomponent
  refine ⟨component, found, rfl, rfl, ?_⟩
  intro name hname value hvalue
  exact validateComponentParameters_ok hparameters hname hvalue

theorem resolveOperations_lookup {operations : List (String × TenantOperation)}
    {steps : List (String × StepDefinition)} {references : List (String × ComponentReference)}
    (h : resolveOperations satisfies policy catalog operations = .ok (steps, references))
    {name : String} {stepDef : StepDefinition} (hstep : steps.lookup name = some stepDef) :
    ∃ operation reference, operations.lookup name = some operation
      ∧ resolveOperation satisfies policy catalog operation = .ok (stepDef, reference) := by
  induction operations generalizing steps references with
  | nil =>
      cases h
      cases hstep
  | cons entry rest ih =>
      obtain ⟨key, operation⟩ := entry
      obtain ⟨resolved, hresolved, h⟩ := exists_of_bind_eq_ok h
      obtain ⟨others, hothers, h⟩ := exists_of_bind_eq_ok h
      cases h
      rw [List.lookup_cons] at hstep ⊢
      cases hkey : name == key with
      | true =>
          rw [hkey] at hstep
          cases hstep
          exact ⟨operation, resolved.2, rfl, hresolved⟩
      | false =>
          rw [hkey] at hstep
          exact ih hothers hstep

/-- The declaration that a workflow resolves to keeps its flow. -/
theorem resolveWorkflow_ok {workflow : TenantWorkflowConfig} {config : WorkflowConfig}
    {references : List (String × ComponentReference)}
    (h : resolveWorkflow satisfies policy catalog workflow = .ok (config, references)) :
    config.flow = workflow.flow
      ∧ resolveOperations satisfies policy catalog workflow.steps =
        .ok (config.steps, references) := by
  obtain ⟨⟨⟩, -, h⟩ := exists_of_bind_eq_ok h
  obtain ⟨resolved, hresolved, h⟩ := exists_of_bind_eq_ok h
  split at h
  · cases h
  · cases h
    exact ⟨rfl, hresolved⟩

end Resolved

end Justflow
