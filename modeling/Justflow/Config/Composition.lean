import Justflow.Config.Validation
import Justflow.Library.Cycles
import Justflow.Library.Tables

/-!
# Composition cycles

A workflow that runs another one, and this one the first, would never end.  The validator searches
the declared workflows for such cycles and goes on after the first one, so that each gets a
diagnostic.
-/

open Fields

namespace Justflow

def StepTarget.child : StepTarget → Option String
  | .service _ _ => none
  | .workflow name => some name

/-- The declared children of a workflow, sorted and each once. -/
def compositionTargets (workflows : Table String WorkflowConfig) (name : String) : List String :=
  match workflows.get? name with
  | none => []
  | some workflow =>
      ((workflow.steps.filterMap fun step => step.2.target.child).filter
        fun child => (workflows.get? child).isSome).dedup.mergeSort fun first second =>
          first ≤ second

/-- `_check_composition_cycles`. -/
def checkCompositionCycles (workflows : Table String WorkflowConfig) : List Diagnostic :=
  (Digraph.allCycles (compositionTargets workflows) (keys workflows.entries)).map fun cycle =>
    let path := " -> ".intercalate cycle
    { location := "workflows", message := s!"Sub-workflow composition cycle: {path}" }

/-- A declared workflow has an operation that runs another declared one. -/
def Runs (workflows : Table String WorkflowConfig) (parent child : String) : Prop :=
  ∃ workflow, workflows.get? parent = some workflow ∧
    (∃ operation ∈ workflow.steps, operation.2.target = .workflow child) ∧
      (workflows.get? child).isSome

/-- Each workflow runs the one after it, and the last one is the first. -/
def CompositionCycle (workflows : Table String WorkflowConfig) (names : List String) : Prop :=
  ∃ first middle, names = first :: (middle ++ [first]) ∧ names.IsChain (Runs workflows)

variable {workflows : Table String WorkflowConfig}

theorem StepTarget.child_eq_some {target : StepTarget} {child : String} :
    target.child = some child ↔ target = .workflow child := by
  cases target <;> simp [StepTarget.child]

theorem mem_compositionTargets {parent child : String} :
    child ∈ compositionTargets workflows parent ↔ Runs workflows parent child := by
  rw [compositionTargets]
  cases declared : workflows.get? parent with
  | none => simp [Runs, declared]
  | some workflow =>
      simp only [List.mem_mergeSort, List.mem_dedup, List.mem_filter, List.mem_filterMap,
        StepTarget.child_eq_some]
      constructor
      · rintro ⟨runs, known⟩
        exact ⟨workflow, declared, runs, known⟩
      · rintro ⟨other, found, runs, known⟩
        cases declared.symm.trans found
        exact ⟨runs, known⟩

theorem compositionCycle_iff {names : List String} :
    CompositionCycle workflows names ↔ Digraph.IsCycle (compositionTargets workflows) names := by
  simp only [CompositionCycle, Digraph.IsCycle, mem_compositionTargets]

theorem listed_compositionTargets :
    Digraph.Listed (compositionTargets workflows) (keys workflows.entries) := by
  intro name some_
  by_contra absent
  rw [compositionTargets, Table.get?_eq_none_iff.mpr absent] at some_
  exact some_ rfl

/-- A diagnostic names a cycle. -/
theorem compositionCycle_of_mem {diagnostic : Diagnostic}
    (mem : diagnostic ∈ checkCompositionCycles workflows) :
    ∃ names, CompositionCycle workflows names ∧ diagnostic =
      { location := "workflows"
        message := "Sub-workflow composition cycle: " ++ " -> ".intercalate names } := by
  obtain ⟨names, found, rfl⟩ := List.mem_map.mp mem
  have real := (Digraph.allCycles_spec listed_compositionTargets).1 names found
  exact ⟨names, compositionCycle_iff.mpr real, by simp [toString]⟩

/-- There is a diagnostic exactly if there is a cycle. -/
theorem checkCompositionCycles_eq_nil_iff :
    checkCompositionCycles workflows = [] ↔ ∀ names, ¬ CompositionCycle workflows names := by
  simp only [compositionCycle_iff]
  rw [checkCompositionCycles, List.map_eq_nil_iff]
  exact (Digraph.allCycles_spec listed_compositionTargets).2

end Justflow
