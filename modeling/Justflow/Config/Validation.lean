import Justflow.Engine.Analysis

/-!
# Workflow validation

The checks a declared workflow passes before it is compiled: those of its own models, and those
of the workflow validator on names, targets, limits and references, the static analysis last.
Checks that read other declarations (resources, services, schemas, imports) are not here.
-/

namespace Justflow

/-- One finding of the validator. -/
structure Diagnostic where
  location : String
  message : String
  deriving DecidableEq, Repr

def WorkflowConfig.location (self : WorkflowConfig) : String :=
  let name := self.workflow
  s!"workflows.{name}"

def WorkflowConfig.stepLocation (self : WorkflowConfig) (step : FlowStep) : String :=
  let location := self.location
  let name := step.name
  s!"{location}.flow.{name}"

/-- A finding, if the check found something. -/
def diagnose (violated : Bool) (location message : String) : List Diagnostic :=
  if violated then [{ location, message }] else []

theorem diagnose_eq_nil {violated : Bool} {location message : String} :
    diagnose violated location message = [] ↔ violated = false := by
  cases violated <;> simp [diagnose]

/-! ## Models -/

/-- The checks of the models of one step. -/
def FlowStep.validateModel (self : FlowStep) : Except String Unit := do
  if !self.fieldsValid then .error "Input should be valid" else
    self.branches.forM OnResultBranch.validateBranch
    match self.waitFor with
    | some wait => wait.validateBounded
    | none => .ok ()
    self.validateFlowStep

/-- The checks of the models of a workflow. -/
def WorkflowConfig.validateModel (self : WorkflowConfig) : Except String Unit := do
  if self.flow.isEmpty || !validName self.onError then .error "Input should be valid" else
    self.steps.forM fun e => e.2.validateTargetOptions
    self.flow.forM FlowStep.validateModel
    self.validateWorkflow

/-! ## Namespaces -/

def WorkflowConfig.outputAliases (self : WorkflowConfig) : List String :=
  self.flow.filterMap fun step => truthy step.output

def WorkflowConfig.namespaces (self : WorkflowConfig) : List String :=
  self.names ++ self.outputAliases ++ self.params.map Prod.fst
    ++ (if self.onError.isSome || self.flow.any (fun step => (truthy step.onFailure).isSome) then
        ["error"] else [])

def WorkflowConfig.declares (self : WorkflowConfig) (target : Option String) : Bool :=
  match truthy target with
  | some name => self.names.contains name
  | none => true

/-- A list of identifiers, as the host prints it. -/
def printNames (names : List String) : String :=
  let inner := ", ".intercalate (names.map fun name => s!"'{name}'")
  s!"[{inner}]"

/-- The names that occur more than once, in the order of their first occurrence. -/
def duplicates (names : List String) : List String :=
  (names.filter fun name => 1 < names.count name).eraseDups

/-- The steps that declare an output alias. -/
def WorkflowConfig.producers (self : WorkflowConfig) (outputAlias : String) : List String :=
  (self.flow.filter fun step => step.output == some outputAlias).map FlowStep.name

def WorkflowConfig.validateStepNames (self : WorkflowConfig) (step : FlowStep) :
    List Diagnostic :=
  let name := step.name
  let location := self.stepLocation step
  let asVar := step.asVar.getD ""
  let outputAlias := step.output.getD ""
  diagnose (reservedDataRoots.contains name) location
      s!"Flow step '{name}' collides with a reserved engine root"
    ++ diagnose (step.asVar.any reservedDataRoots.contains) s!"{location}.as"
      s!"Iteration variable '{asVar}' collides with a reserved engine root"
    ++ diagnose
      (step.output.any (reservedDataRoots ++ self.params.map Prod.fst ++ self.names).contains)
      location (s!"Output alias '{outputAlias}' collides with a reserved root, "
        ++ "workflow parameter, or flow step")

def WorkflowConfig.validateNamespaces (self : WorkflowConfig) : List Diagnostic :=
  let location := self.location
  let repeated := printNames ((duplicates self.names).mergeSort fun a b => a ≤ b)
  let onError := self.onError.getD ""
  diagnose (!decide self.names.Nodup) location s!"Duplicate flow step names: {repeated}"
    ++ ((self.params.map Prod.fst).filter reservedDataRoots.contains).flatMap (fun parameter =>
      diagnose true s!"{location}.params.{parameter}"
        s!"Workflow parameter '{parameter}' collides with a reserved engine root")
    ++ self.flow.flatMap self.validateStepNames
    ++ (duplicates (self.flow.filterMap FlowStep.output)).flatMap (fun outputAlias =>
      let producers := printNames (self.producers outputAlias)
      diagnose true location
        s!"Output alias '{outputAlias}' has more than one producer: {producers}")
    ++ diagnose (self.onError.any fun target => !self.names.contains target)
      s!"{location}.on_error" s!"on_error target '{onError}' not found in flow"

/-! ## Steps -/

def WorkflowConfig.validateStepLimits (self : WorkflowConfig) (limits : RuntimeLimits)
    (step : FlowStep) : List Diagnostic :=
  let location := self.stepLocation step
  let iterations := step.maxIterations.getD 0
  let iterationLimit := min limits.loopAttempts limits.totalInvocations
  let concurrency := step.maxConcurrency.getD 0
  let concurrencyLimit := min limits.parallelism limits.fanoutItems
  diagnose (iterationLimit < iterations) s!"{location}.max_iterations"
      (s!"Declared iteration bound {iterations} exceeds the effective limit {iterationLimit}")
    ++ diagnose (concurrencyLimit < concurrency) s!"{location}.max_concurrency"
      (s!"Declared concurrency bound {concurrency} exceeds the effective "
        ++ s!"limit {concurrencyLimit}")

def WorkflowConfig.validateOperationReference (self : WorkflowConfig) (step : FlowStep) :
    List Diagnostic :=
  match step.op with
  | none => []
  | some op =>
      match self.steps.lookup op with
      | none => diagnose true (self.stepLocation step) s!"Op '{op}' not found in step definitions"
      | some stepDef =>
          if step.forEach.isNone && step.untilCondition.isNone then []
          else
            match rejectLoopCache step stepDef
              (if step.forEach.isSome then "for_each" else "until") with
            | .ok _ => []
            | .error exc => diagnose true (self.stepLocation step) exc.text

/-- A target that is not declared. -/
def WorkflowConfig.validateTarget (self : WorkflowConfig) (step : FlowStep) (field : String)
    (target : Option String) : List Diagnostic :=
  let name := target.getD ""
  diagnose (!self.declares target) (self.stepLocation step)
    s!"{field} target '{name}' not found in flow"

def WorkflowConfig.validateTargets (self : WorkflowConfig) (step : FlowStep) :
    List Diagnostic :=
  self.validateTarget step "on_exhausted" step.onExhausted
    ++ self.validateTarget step "on_failure" step.onFailure
    ++ self.validateTarget step "on_timeout" (step.waitFor.bind WaitForConfig.onTimeout)
    ++ self.validateTarget step "'then'" step.thenStep
    ++ step.branches.flatMap fun branch => self.validateTarget step "on_result" branch.target

/-- A reference whose root nothing provides. -/
def WorkflowConfig.validateReference (self : WorkflowConfig) (location field : String)
    (reference : ReferencePath) : List Diagnostic :=
  let value := reference.value
  let root := reference.root
  diagnose (!self.namespaces.contains root) location
    (s!"{field} reference '{value}': '{root}' is not a flow step, "
      ++ "output alias, or workflow param")

def WorkflowConfig.validateExpression (self : WorkflowConfig) (parse : ExpressionParser)
    (location field expression : String) : List Diagnostic :=
  match conditionReferenceRoots parse expression with
  | .error detail => diagnose true location s!"{field}: {detail}"
  | .ok roots => roots.flatMap fun root =>
      diagnose (root ≠ inputRoot && !self.namespaces.contains root) location
        s!"{field} reference root '{root}' is not a flow step, output alias, or workflow param"

def WorkflowConfig.validateReferences (self : WorkflowConfig) (parse : ExpressionParser)
    (step : FlowStep) : List Diagnostic :=
  let location := self.stepLocation step
  let expression := self.validateExpression parse location
  (step.waitFor.bind WaitForConfig.timeoutUntil).toList.flatMap
      (self.validateReference location "timeout_until")
    ++ ((step.input.map InputSpec.references).getD []).flatMap
      (self.validateReference location "input")
    ++ step.forEach.toList.flatMap (fun reference =>
      let value := reference.value
      if reference.root = inputRoot then
        diagnose step.input.isNone location
          s!"for_each '{value}' references the step input, but the step has no 'input'"
      else self.validateReference location "for_each" reference)
    ++ (truthy step.condition).toList.flatMap (expression "condition")
    ++ (truthy step.untilCondition).toList.flatMap (expression "until")
    ++ (step.branches.filterMap fun branch =>
      branch.whenCondition.bind BranchCondition.expression?).flatMap (expression "on_result when")

/-- Pairs of branches that test the same condition: the first of its kind, and the repetition. -/
def duplicateConditionPairs (branches : List OnResultBranch) : List (Nat × Nat) :=
  branches.zipIdx.filterMap fun entry => do
    let condition ← entry.1.whenCondition
    let first := branches.findIdx fun branch => branch.whenCondition == some condition
    if first < entry.2 then some (first, entry.2) else none

def WorkflowConfig.validateDuplicates (self : WorkflowConfig) (step : FlowStep) :
    List Diagnostic :=
  let location := self.stepLocation step
  let pairs := duplicateConditionPairs step.branches
  let inner := ", ".intercalate (pairs.map fun p => s!"({p.1}, {p.2})")
  diagnose (!pairs.isEmpty) s!"{location}.on_result"
    s!"Duplicate result conditions at branch indexes: [{inner}]"

def WorkflowConfig.validateStep (self : WorkflowConfig) (parse : ExpressionParser)
    (limits : RuntimeLimits) (step : FlowStep) : List Diagnostic :=
  self.validateStepLimits limits step ++ self.validateOperationReference step
    ++ self.validateTargets step ++ self.validateReferences parse step
    ++ self.validateDuplicates step

def WorkflowConfig.validateResult (self : WorkflowConfig) : List Diagnostic :=
  let location := self.location
  self.result.toList.flatMap fun reference =>
    let value := reference.value
    let root := reference.root
    diagnose (!self.namespaces.contains root) s!"{location}.result"
      (s!"result reference '{value}': '{root}' is not a flow step, "
        ++ "output alias, or workflow param")

/-- Everything the validator finds in the flow of a workflow. -/
def WorkflowConfig.validate (self : WorkflowConfig) (parse : ExpressionParser)
    (limits : RuntimeLimits) : List Diagnostic :=
  let location := self.location
  self.validateNamespaces ++ self.validateResult
    ++ (self.flow.filter fun step => !step.terminal).flatMap (self.validateStep parse limits)
    ++ (analyzeWorkflow parse self).map fun issue =>
      let issueLocation := issue.location
      { location := s!"{location}.{issueLocation}", message := issue.message }

/-! ## Accepted workflows -/

/-- The models construct this workflow. -/
def WorkflowConfig.WellFormed (self : WorkflowConfig) : Prop :=
  self.validateModel = .ok ()

instance (workflow : WorkflowConfig) : Decidable workflow.WellFormed :=
  inferInstanceAs (Decidable (workflow.validateModel = .ok ()))

/-- A workflow that its models and the validator accept. -/
structure Accepted (parse : ExpressionParser) (limits : RuntimeLimits)
    (workflow : WorkflowConfig) : Prop where
  model : workflow.WellFormed
  valid : workflow.validate parse limits = []

instance (parse : ExpressionParser) (limits : RuntimeLimits) (workflow : WorkflowConfig) :
    Decidable (Accepted parse limits workflow) :=
  decidable_of_iff (workflow.WellFormed ∧ workflow.validate parse limits = [])
    ⟨fun h => ⟨h.1, h.2⟩, fun h => ⟨h.1, h.2⟩⟩

end Justflow
