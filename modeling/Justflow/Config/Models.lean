import Justflow.Config.Grammar

/-!
# Workflow declarations

The declared workflow as the loader hands it to the compiler, with the checks its models run.
Each check keeps the message it raises, in the order in which the model tries them; the field
constraints that a schema library enforces are one predicate per model.
-/

namespace Justflow

/-- The first check that fails decides the error. -/
def firstViolation : List (Bool × String) → Except String Unit
  | [] => .ok ()
  | (violated, message) :: rest => if violated then .error message else firstViolation rest

theorem firstViolation_ok_iff {checks : List (Bool × String)} :
    firstViolation checks = .ok () ↔ ∀ check ∈ checks, check.1 = false := by
  induction checks with
  | nil => simp [firstViolation]
  | cons check rest ih =>
      obtain ⟨violated, message⟩ := check
      cases violated <;> simp [firstViolation, ih]

/-- A string that counts as present: the empty string does not. -/
def truthy : Option String → Option String
  | some s => if s = "" then none else some s
  | none => none

@[simp] theorem truthy_none : truthy none = none := rfl

theorem truthy_of_ne_empty {s : String} (h : s ≠ "") : truthy (some s) = some s := by
  simp [truthy, h]

theorem truthy_eq_some {o : Option String} {s : String} (h : truthy o = some s) :
    o = some s ∧ s ≠ "" := by
  cases o with
  | none => simp at h
  | some t =>
      simp only [truthy] at h
      split at h
      · simp at h
      · simp_all

inductive IterationFailStrategy where
  | stop
  | skip
  | collect
  deriving DecidableEq, Repr

structure EvaluatorCondition where
  evaluator : String
  resources : List String
  deriving DecidableEq, Repr

/-- What a result branch tests: an inline expression, or an evaluator function. -/
inductive BranchCondition where
  | expression (text : String)
  | evaluator (condition : EvaluatorCondition)
  deriving DecidableEq, Repr

/-- `when`, `default` and `then` of a branch. -/
structure OnResultBranch where
  whenCondition : Option BranchCondition := none
  default : Option String := none
  thenStep : Option String := none
  deriving DecidableEq, Repr

def OnResultBranch.validateBranch (self : OnResultBranch) : Except String Unit :=
  firstViolation [
    (self.default.isNone && self.whenCondition.isNone,
      "on_result branch must have either 'when' or 'default'"),
    (self.default.isSome && self.whenCondition.isSome,
      "on_result branch cannot have both 'when' and 'default'"),
    (self.whenCondition.isSome && self.thenStep.isNone,
      "on_result branch with 'when' must have 'then'")]

structure WaitForConfig where
  signal : String
  timeoutSec : Option Nat := none
  timeoutUntil : Option ReferencePath := none
  onTimeout : Option String := none
  deriving DecidableEq, Repr

def WaitForConfig.validateBounded (self : WaitForConfig) : Except String Unit :=
  firstViolation [(self.timeoutSec.isNone && self.timeoutUntil.isNone,
    "wait_for must be bounded: set timeout_sec and/or timeout_until")]

structure CacheConfig where
  resource : String
  key : String
  ttlSec : Option Nat := none
  deriving DecidableEq, Repr

inductive StepTarget where
  | service (service action : String)
  | workflow (workflow : String)
  deriving DecidableEq, Repr

/-- A reusable operation; a schema is an inline document or a dotted path. -/
structure StepDefinition where
  target : StepTarget
  params : List (String × JsonValue) := []
  requiredResources : List String := []
  cache : Option CacheConfig := none
  inputSchema : Option JsonValue := none
  outputSchema : Option JsonValue := none
  deriving DecidableEq, Repr

def StepDefinition.validateTargetOptions (self : StepDefinition) : Except String Unit :=
  match self.target with
  | .service _ _ => .ok ()
  | .workflow _ => firstViolation [
      (self.cache.isSome, "cache is not valid on sub-workflow steps (cache inside the child)"),
      (self.inputSchema.isSome || self.outputSchema.isSome,
        "schemas are not valid on sub-workflow steps (children own their contracts)")]

inductive InputSpec where
  | reference (ref : ReferencePath)
  | named (refs : List (String × ReferencePath))
  | listed (refs : List ReferencePath)
  deriving DecidableEq, Repr

def InputSpec.references : InputSpec → List ReferencePath
  | .reference ref => [ref]
  | .named refs => refs.map Prod.snd
  | .listed refs => refs

structure FlowStep where
  name : String
  op : Option String := none
  input : Option InputSpec := none
  output : Option String := none
  params : List (String × JsonValue) := []
  thenStep : Option String := none
  onResult : Option (List OnResultBranch) := none
  condition : Option String := none
  forEach : Option ReferencePath := none
  asVar : Option String := none
  parallel : Bool := false
  maxConcurrency : Option Nat := none
  onIterationFail : Option IterationFailStrategy := none
  waitFor : Option WaitForConfig := none
  sleepSec : Option Nat := none
  untilCondition : Option String := none
  maxIterations : Option Nat := none
  intervalSec : Option Nat := none
  onExhausted : Option String := none
  onFailure : Option String := none
  terminal : Bool := false
  reason : Option String := none
  deriving DecidableEq, Repr

/-- The branches of a step; a missing list and an empty one are alike. -/
def FlowStep.branches (self : FlowStep) : List OnResultBranch :=
  self.onResult.getD []

def maxTimeoutSeconds : Nat := 31536000
def maxDescriptionLength : Nat := 4096
def maxConcurrencyLimit : Nat := 1000
def maxIterationsLimit : Nat := 10000

def inRange (low high : Nat) : Option Nat → Bool
  | none => true
  | some n => decide (low ≤ n) && decide (n ≤ high)

def validName : Option String → Bool
  | none => true
  | some name => validIdentifier name

def boundedText : Option String → Bool
  | none => true
  | some s => decide (s ≠ "") && decide (s.length ≤ maxDescriptionLength)

/-- The constraints on the single fields of a step and of the models in it. -/
def FlowStep.fieldsValid (self : FlowStep) : Bool :=
  validIdentifier self.name && validName self.op && validName self.output
    && validName self.thenStep && validName self.asVar && validName self.onExhausted
    && validName self.onFailure && boundedText self.condition && boundedText self.untilCondition
    && boundedText self.reason && inRange 1 maxConcurrencyLimit self.maxConcurrency
    && inRange 1 maxTimeoutSeconds self.sleepSec && inRange 1 maxIterationsLimit self.maxIterations
    && inRange 1 maxTimeoutSeconds self.intervalSec
    && self.branches.all (fun branch => validName branch.default && validName branch.thenStep)
    && (match self.waitFor with
      | none => true
      | some wait => validIdentifier wait.signal && validName wait.onTimeout
          && inRange 1 maxTimeoutSeconds wait.timeoutSec)

def FlowStep.validateFlowStep (self : FlowStep) : Except String Unit :=
  let name := self.name
  if self.terminal then
    let message := s!"Terminal step '{name}' should not have execution or transition fields"
    firstViolation [
      (self.op.isSome || self.input.isSome || self.output.isSome || !self.params.isEmpty
        || self.thenStep.isSome || self.onResult.isSome || self.condition.isSome
        || self.forEach.isSome || self.asVar.isSome || self.maxConcurrency.isSome
        || self.onIterationFail.isSome || self.waitFor.isSome || self.sleepSec.isSome
        || self.untilCondition.isSome || self.maxIterations.isSome || self.intervalSec.isSome
        || self.onExhausted.isSome || self.onFailure.isSome, message),
      (self.parallel, message)]
  else
    firstViolation [
      (self.op.isSome.toNat + self.waitFor.isSome.toNat + self.sleepSec.isSome.toNat != 1,
        s!"Flow step '{name}' must have exactly one of 'op', 'wait_for', or 'sleep_sec'"),
      ((self.waitFor.isSome || self.sleepSec.isSome)
          && (self.forEach.isSome || (truthy self.condition).isSome),
        s!"Step '{name}': wait_for/sleep_sec cannot be combined with for_each or condition"),
      ((truthy self.onFailure).isSome && (self.waitFor.isSome || self.sleepSec.isSome),
        s!"Step '{name}': on_failure is only valid on op steps (waits have on_timeout)"),
      (self.sleepSec.isSome && (!self.branches.isEmpty || (truthy self.output).isSome),
        s!"Step '{name}': sleep steps produce no output and cannot branch"),
      (self.untilCondition.isSome && self.op.isNone,
        s!"Step '{name}': 'until' is only valid on op steps"),
      (self.untilCondition.isSome && self.forEach.isSome,
        s!"Step '{name}': 'until' cannot be combined with for_each"),
      (self.untilCondition.isSome && self.maxIterations.isNone,
        s!"Step '{name}': 'until' requires max_iterations"),
      (self.untilCondition.isNone && (self.maxIterations.isSome || self.intervalSec.isSome
          || self.onExhausted.isSome),
        s!"Step '{name}': max_iterations/interval_sec/on_exhausted are only valid with 'until'"),
      ((truthy self.thenStep).isSome && !self.branches.isEmpty && self.condition.isNone,
        s!"Step '{name}' cannot have both 'then' and 'on_result'"),
      (self.condition.isSome && self.thenStep.isNone,
        s!"Step '{name}' with condition requires an explicit 'then' target for the false path"),
      (self.parallel && self.forEach.isNone,
        s!"Step '{name}' has parallel=true but no for_each"),
      (self.parallel && self.maxConcurrency.isNone,
        s!"Step '{name}' with parallel=true requires max_concurrency"),
      (self.maxConcurrency.isSome && !self.parallel,
        s!"Step '{name}' has max_concurrency but parallel is not true"),
      (self.thenStep.isNone && self.branches.isEmpty,
        s!"Non-terminal step '{name}' requires a success successor through 'then' or 'on_result'")]

/-- A declared workflow; `onError` is the target of its `on_error` block. -/
structure WorkflowConfig where
  workflow : String
  onError : Option String := none
  params : List (String × String) := []
  inputSchema : Option JsonValue := none
  outputSchema : Option JsonValue := none
  result : Option ReferencePath := none
  steps : List (String × StepDefinition)
  flow : List FlowStep
  deriving DecidableEq, Repr

/-- The positions of the branches that carry a default. -/
def defaultPositions (branches : List OnResultBranch) : List Nat :=
  (branches.zipIdx.filter fun entry => entry.1.default.isSome).map Prod.snd

def WorkflowConfig.validateWorkflow (self : WorkflowConfig) : Except String Unit :=
  firstViolation <|
    (self.outputSchema.isSome && self.result.isNone,
      "Workflow output_schema requires a configured result") ::
    (self.flow.filter fun step => !step.branches.isEmpty).flatMap fun step =>
      let name := step.name
      let positions := defaultPositions step.branches
      [(positions.isEmpty, s!"Step '{name}' on_result must end with a 'default' branch"),
        (positions != [step.branches.length - 1],
          s!"Step '{name}' on_result must have exactly one 'default' branch and it must be last "
            ++ "(branches after it would never run)")]

/-- The limits a compiled workflow runs under. -/
structure RuntimeLimits where
  triggerPayloadBytes : Nat := 256 * 1024
  workflowOutputBytes : Nat := 1024 * 1024
  auditRecordBytes : Nat := 1024 * 1024
  fanoutItems : Nat := 1000
  fanoutChunkItems : Nat := 20
  parallelism : Nat := 32
  loopAttempts : Nat := 1000
  totalInvocations : Nat := 10000
  queuedMessages : Nat := 1000
  queuedMessageBytes : Nat := 256 * 1024
  signalPayloadBytes : Nat := 256 * 1024
  collectionItems : Nat := 10000
  workflowStateBytes : Nat := 768 * 1024
  continuationInputBytes : Nat := 1536 * 1024
  historyEvents : Nat := 10000
  historyBytes : Nat := 10 * 1024 * 1024
  positive : ∀ limit ∈ [triggerPayloadBytes, workflowOutputBytes, auditRecordBytes,
    fanoutItems, fanoutChunkItems, parallelism, loopAttempts,
    totalInvocations, queuedMessages, queuedMessageBytes, signalPayloadBytes, collectionItems,
    workflowStateBytes, continuationInputBytes, historyEvents, historyBytes], 0 < limit := by
      decide
  chunk_le_fanout : fanoutChunkItems ≤ fanoutItems := by decide

/-- `DEFAULT_RUNTIME_LIMITS`. -/
def defaultRuntimeLimits : RuntimeLimits := {}

theorem RuntimeLimits.fanoutChunkItems_pos (limits : RuntimeLimits) :
    0 < limits.fanoutChunkItems :=
  limits.positive _ (by simp)

end Justflow
