import Mathlib.Data.List.Dedup
import Justflow.Library.MustFlow
import Justflow.Engine.Runner

/-!
# Control-flow and dataflow analysis

The edges of a declared flow, and what the static analysis reads off them: a cycle of execution
edges, unreachable steps, paths without a terminal, and references that some path does not
provide.  The normal flow and the flow of the failure handlers are analysed apart.
-/

namespace Justflow

def inputRoot : String := "input"
def errorRoot : String := "error"
def requestIdRoot : String := "request_id"

inductive EdgeKind where
  | success | conditionSkip | resultBranch | resultDefault | waitTimeout | loopExhaustion
  | failure
  deriving DecidableEq, Repr

structure FlowEdge where
  source : String
  target : String
  kind : EdgeKind
  produced : List String := []
  deriving DecidableEq, Repr

structure AnalysisIssue where
  location : String
  message : String
  deriving DecidableEq, Repr

/-! ## Edges -/

def producedSymbols (step : FlowStep) : List String :=
  if step.sleepSec.isSome then [] else step.name :: step.output.toList

/-- The edge to a target, if there is one and it is declared. -/
def WorkflowConfig.edgeTo (self : WorkflowConfig) (step : FlowStep) (target : Option String)
    (kind : EdgeKind) (produced : List String) : List FlowEdge :=
  match target with
  | none => []
  | some target =>
      if self.names.contains target then [{ source := step.name, target, kind, produced }] else []

def WorkflowConfig.edgesOf (self : WorkflowConfig) (step : FlowStep) : List FlowEdge :=
  if step.terminal then []
  else
    let produced := producedSymbols step
    (if step.condition.isSome then self.edgeTo step step.thenStep .conditionSkip [] else [])
      ++ (if step.branches.isEmpty then self.edgeTo step step.thenStep .success produced
        else step.branches.flatMap fun branch => self.edgeTo step branch.target
          (if branch.default.isSome then .resultDefault else .resultBranch) produced)
      ++ self.edgeTo step (step.waitFor.bind WaitForConfig.onTimeout) .waitTimeout []
      ++ (if step.untilCondition.isSome then
          self.edgeTo step step.onExhausted .loopExhaustion [] else [])
      ++ (if step.op.isSome then
          self.edgeTo step (step.onFailure.or self.onError) .failure [errorRoot] else [])

def WorkflowConfig.buildEdges (self : WorkflowConfig) : List FlowEdge :=
  self.flow.flatMap self.edgesOf

def WorkflowConfig.executionEdges (self : WorkflowConfig) : List FlowEdge :=
  self.buildEdges.filter fun edge => edge.kind ≠ .failure

/-- The targets of the edges that leave a step, in order. -/
def outgoing (edges : List FlowEdge) (name : String) : List String :=
  (edges.filter fun edge => edge.source = name).map FlowEdge.target

/-! ## Reachability -/

/-- The keys of the dictionary of steps, in the order of their first declaration. -/
def WorkflowConfig.stepNames (self : WorkflowConfig) : List String :=
  self.names.reverse.dedup.reverse

@[simp]
theorem mem_stepNames {workflow : WorkflowConfig} {name : String} :
    name ∈ workflow.stepNames ↔ name ∈ workflow.names := by
  simp [WorkflowConfig.stepNames]

theorem stepNames_nodup (workflow : WorkflowConfig) : workflow.stepNames.Nodup :=
  List.nodup_reverse.mpr (List.nodup_dedup _)

theorem stepNames_length_le (workflow : WorkflowConfig) :
    workflow.stepNames.length ≤ workflow.names.length := by
  simpa [WorkflowConfig.stepNames] using (List.dedup_sublist workflow.names.reverse).length_le

/-- `_reachable`: every entry and every edge target is declared. -/
def WorkflowConfig.reachable (self : WorkflowConfig) (entries : List String) : List String :=
  self.walk (fun name => self.names.contains name) (outgoing self.executionEdges) entries

def WorkflowConfig.entry (self : WorkflowConfig) : List String :=
  (self.flow.head?.map FlowStep.name).toList

def WorkflowConfig.normalReachable (self : WorkflowConfig) : List String :=
  self.reachable self.entry

/-- The failure edges that leave the normal flow. -/
def WorkflowConfig.failureEdges (self : WorkflowConfig) : List FlowEdge :=
  self.buildEdges.filter fun edge =>
    edge.kind = .failure ∧ self.normalReachable.contains edge.source

def WorkflowConfig.handlerReachable (self : WorkflowConfig) : List String :=
  self.reachable (self.failureEdges.map FlowEdge.target)

def WorkflowConfig.reachabilityIssues (self : WorkflowConfig) (reachable : List String) :
    List AnalysisIssue :=
  let entry := self.entry.headD ""
  (self.stepNames.filter fun name => !reachable.contains name).map fun name =>
    { location := s!"flow.{name}"
      message := s!"Flow step '{name}' is unreachable from entry step '{entry}' "
        ++ "and every failure handler" }

def WorkflowConfig.sinkIssues (self : WorkflowConfig) (reachable : List String) :
    List AnalysisIssue :=
  (self.flow.filter fun step => reachable.contains step.name && !step.terminal
    && (outgoing self.executionEdges step.name).isEmpty).map fun step =>
      let name := step.name
      { location := s!"flow.{name}"
        message := s!"Reachable path from step '{name}' has no explicit terminal successor" }

/-! ## Availability -/

def FlowEdge.toMustFlow (self : FlowEdge) : MustFlow.Edge String String :=
  { source := self.source, target := self.target, produced := self.produced }

/-- `_must_available`, over Kahn's order of the steps. -/
def WorkflowConfig.mustAvailable (self : WorkflowConfig) (reachable : List String)
    (entryAvailable : List (String × List String)) : List (String × List String) :=
  MustFlow.availability (self.executionEdges.map FlowEdge.toMustFlow)
    (fun name => reachable.contains name) entryAvailable
    (Digraph.topologicalOrder (outgoing self.executionEdges) self.stepNames)

def WorkflowConfig.roots (self : WorkflowConfig) : List String :=
  self.params.map Prod.fst ++ [requestIdRoot]

def WorkflowConfig.normalAvailable (self : WorkflowConfig) : List (String × List String) :=
  self.mustAvailable self.normalReachable (self.entry.map fun name => (name, self.roots))

/-- What every failing step of the normal flow leaves to a handler. -/
def WorkflowConfig.handlerEntryAvailable (self : WorkflowConfig) :
    List (String × List String) :=
  let candidates := self.failureEdges.filterMap fun edge =>
    (self.normalAvailable.lookup edge.source).map fun held => (edge.target, held ++ edge.produced)
  (candidates.map Prod.fst).dedup.map fun target =>
    (target, MustFlow.meet ((candidates.filter fun c => c.1 = target).map Prod.snd))

def WorkflowConfig.handlerAvailable (self : WorkflowConfig) : List (String × List String) :=
  self.mustAvailable self.handlerReachable self.handlerEntryAvailable

/-- What the analyses that reach a step say it has. -/
def WorkflowConfig.availabilityAt (self : WorkflowConfig) (name : String) : List (List String) :=
  (self.normalAvailable.lookup name).toList ++ (self.handlerAvailable.lookup name).toList

/-! ## References -/

def expressionRoots (parse : ExpressionParser) (expression : String) : List String :=
  match conditionReferenceRoots parse expression with
  | .ok roots => roots.filter fun root => root ≠ inputRoot
  | .error _ => []

def BranchCondition.expression? : BranchCondition → Option String
  | .expression text => some text
  | .evaluator _ => none

/-- The inline expressions of a step. -/
def FlowStep.expressions (self : FlowStep) : List String :=
  self.condition.toList ++ self.untilCondition.toList
    ++ self.branches.filterMap fun branch => branch.whenCondition.bind BranchCondition.expression?

def stepReferenceRoots (parse : ExpressionParser) (step : FlowStep) : List String :=
  ((step.input.map InputSpec.references).getD []).map ReferencePath.root
    ++ (step.forEach.toList.map ReferencePath.root).filter (fun root => root ≠ inputRoot)
    ++ (step.waitFor.bind WaitForConfig.timeoutUntil).toList.map ReferencePath.root
    ++ step.expressions.flatMap (expressionRoots parse)

/-- The roots that some analysis does not guarantee. -/
def missingRoots (availability : List (List String)) (roots : List String) : List String :=
  if availability.isEmpty then []
  else (roots.filter fun root => root ∉ MustFlow.meet availability).dedup.mergeSort
    fun a b => a ≤ b

def WorkflowConfig.referenceIssues (self : WorkflowConfig) (parse : ExpressionParser) :
    List AnalysisIssue :=
  (self.flow.filter fun step => !step.terminal).flatMap fun step =>
    let name := step.name
    (missingRoots (self.availabilityAt name) (stepReferenceRoots parse step)).map fun root =>
      { location := s!"flow.{name}"
        message := s!"Reference root '{root}' is not available on every path to step '{name}'" }

def WorkflowConfig.resultIssues (self : WorkflowConfig) : List AnalysisIssue :=
  match self.result with
  | none => []
  | some result =>
      (self.flow.filter fun step => step.terminal && step.reason.isNone).flatMap fun step =>
        let name := step.name
        let value := result.value
        (missingRoots (self.availabilityAt name) [result.root]).map fun _ =>
          { location := s!"flow.{name}"
            message := s!"Workflow result '{value}' is not available at "
              ++ s!"normal terminal '{name}'" }

/-! ## The analysis -/

def analyzeWorkflow (parse : ExpressionParser) (workflow : WorkflowConfig) :
    List AnalysisIssue :=
  match Digraph.findCycle (outgoing workflow.executionEdges) workflow.stepNames with
  | some cycle =>
      let path := " -> ".intercalate cycle
      [{ location := "flow", message := s!"Circular control flow detected: {path}" }]
  | none =>
      let reachable := workflow.normalReachable ++ workflow.handlerReachable
      workflow.reachabilityIssues reachable ++ workflow.sinkIssues reachable
        ++ workflow.referenceIssues parse ++ workflow.resultIssues

end Justflow
