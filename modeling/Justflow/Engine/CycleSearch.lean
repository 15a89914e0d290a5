import Justflow.Engine.Edges
import Justflow.Library.Cycles

/-!
# The cycle search of the analysis

`_find_cycle` is given the steps of a flow and edges that leave them.  The targets need not be
steps: no edge leaves what is no step.
-/

namespace Justflow

/-- The steps of a flow, and edges that leave them. -/
structure FlowGraph where
  steps : List String
  edges : List FlowEdge
  rooted : ∀ edge ∈ edges, edge.source ∈ steps

namespace FlowGraph

/-- `_find_cycle`. -/
def findCycle (self : FlowGraph) : Option (List String) :=
  Digraph.findCycle (outgoing self.edges) self.steps

/-- The edges join each name to the one after it, and the last name is the first. -/
def IsCycle (self : FlowGraph) (names : List String) : Prop :=
  ∃ first middle, names = first :: (middle ++ [first]) ∧
    names.IsChain fun source target =>
      ∃ edge ∈ self.edges, edge.source = source ∧ edge.target = target

variable (graph : FlowGraph)

theorem mem_outgoing {source target : String} :
    target ∈ outgoing graph.edges source ↔
      ∃ edge ∈ graph.edges, edge.source = source ∧ edge.target = target := by
  simp [outgoing, and_assoc]

theorem listed : Digraph.Listed (outgoing graph.edges) graph.steps := by
  intro name some_
  obtain ⟨target, here⟩ := List.exists_mem_of_ne_nil _ some_
  obtain ⟨edge, mem, rfl, -⟩ := graph.mem_outgoing.mp here
  exact graph.rooted edge mem

theorem isCycle_iff {names : List String} :
    graph.IsCycle names ↔ Digraph.IsCycle (outgoing graph.edges) names := by
  simp only [IsCycle, Digraph.IsCycle, mem_outgoing]

theorem findCycle_eq_none_iff :
    graph.findCycle = none ↔ ∀ names, ¬ graph.IsCycle names := by
  simp only [isCycle_iff]
  exact Digraph.findCycle_eq_none_iff graph.listed

theorem findCycle_isCycle {names : List String} (found : graph.findCycle = some names) :
    graph.IsCycle names :=
  graph.isCycle_iff.mpr (Digraph.findCycle_isCycle graph.listed found)

/-- The search finds nothing exactly if there is no cycle, and what it finds is one. -/
theorem find_cycle_exact :
    (graph.findCycle = none ↔ ∀ names, ¬ graph.IsCycle names) ∧
      ∀ names, graph.findCycle = some names → graph.IsCycle names :=
  ⟨graph.findCycle_eq_none_iff, fun _ => graph.findCycle_isCycle⟩

end FlowGraph

/-! ## The graph of a workflow -/

theorem WorkflowConfig.source_mem {workflow : WorkflowConfig} {edge : FlowEdge}
    (mem : edge ∈ workflow.executionEdges) : edge.source ∈ workflow.stepNames := by
  obtain ⟨built, _⟩ := List.mem_filter.mp mem
  obtain ⟨step, here, leaves⟩ := List.mem_flatMap.mp built
  have goes : step.terminal = false := by
    by_contra terminal
    rw [Bool.not_eq_false] at terminal
    simp [WorkflowConfig.edgesOf, terminal] at leaves
  rw [((mem_edgesOf goes).mp leaves).1, mem_stepNames]
  exact List.mem_map_of_mem here

/-- What the analysis looks for cycles in. -/
def WorkflowConfig.flowGraph (self : WorkflowConfig) : FlowGraph where
  steps := self.stepNames
  edges := self.executionEdges
  rooted _ mem := WorkflowConfig.source_mem mem

/-- A workflow with a cycle gets one issue, which names a cycle of it. -/
theorem analyzeWorkflow_circular (parse : ExpressionParser) {workflow : WorkflowConfig}
    {names : List String} (cycle : workflow.flowGraph.IsCycle names) :
    ∃ reported, workflow.flowGraph.IsCycle reported ∧ analyzeWorkflow parse workflow =
      [{ location := "flow"
         message := "Circular control flow detected: " ++ " -> ".intercalate reported }] := by
  cases found : workflow.flowGraph.findCycle with
  | none => exact absurd cycle (workflow.flowGraph.findCycle_eq_none_iff.mp found names)
  | some reported =>
      refine ⟨reported, workflow.flowGraph.findCycle_isCycle found, ?_⟩
      change Digraph.findCycle (outgoing workflow.executionEdges) workflow.stepNames = _ at found
      rw [analyzeWorkflow, found]
      rfl

end Justflow
