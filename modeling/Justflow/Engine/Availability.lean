import Justflow.Engine.Entries

/-!
# What the analysis promises

The dataflow analysis takes one pass over Kahn's order of the steps.  On a workflow without
cycles this order is complete, so what the pass computes is closed under the execution edges:
along an edge a step is promised at most what its predecessor has and the edge produces.  The
runner's own walks, over the successors of the steps, stay inside what the analysis reaches.
-/

open Fields Program

namespace Justflow

section Analysed

variable {parse : ExpressionParser} {workflow : WorkflowConfig}

theorem source_declared {edge : FlowEdge} (h : edge ∈ workflow.buildEdges) :
    edge.source ∈ workflow.names := by
  obtain ⟨step, hstep, hedge⟩ := List.mem_flatMap.mp h
  cases hgoes : step.terminal with
  | true =>
      unfold WorkflowConfig.edgesOf at hedge
      simp [hgoes] at hedge
  | false =>
      rw [((mem_edgesOf hgoes).mp hedge).1]
      exact List.mem_map_of_mem hstep

theorem target_declared {edge : FlowEdge} (h : edge ∈ workflow.buildEdges) :
    edge.target ∈ workflow.names :=
  declared_of_isEdge ⟨edge, h, rfl, rfl⟩

theorem IsExecutionEdge.declared {source target : String}
    (h : workflow.IsExecutionEdge source target) : target ∈ workflow.names := by
  obtain ⟨edge, hedge, -, rfl⟩ := h
  exact target_declared (List.mem_filter.mp hedge).1

/-! ## The order of the pass -/

/-- The steps, in the order in which the pass visits them. -/
def WorkflowConfig.passOrder (self : WorkflowConfig) : List String :=
  Digraph.topologicalOrder (outgoing self.executionEdges) self.stepNames

theorem passOrder_spec (silent : analyzeWorkflow parse workflow = []) :
    MustFlow.Sorted (workflow.executionEdges.map FlowEdge.toMustFlow) workflow.passOrder
      ∧ ∀ name, name ∈ workflow.passOrder ↔ name ∈ workflow.names := by
  obtain ⟨height, hheight⟩ := Digraph.exists_rank_of_findCycle (analysis_silent silent).1
  have hclosed : ∀ s ∈ workflow.stepNames, ∀ t ∈ outgoing workflow.executionEdges s,
      t ∈ workflow.stepNames := fun s _ t ht =>
    mem_stepNames.mpr (IsExecutionEdge.declared (mem_outgoing.mp ht))
  obtain ⟨hnodup, hmem, hbefore⟩ :=
    Digraph.topologicalOrder_spec (stepNames_nodup workflow) hclosed hheight
  refine ⟨⟨hnodup, fun before node after hsplit e he htarget => ?_⟩, fun name =>
    (hmem name).trans mem_stepNames⟩
  obtain ⟨edge, hedge, rfl⟩ := List.mem_map.mp he
  refine hbefore before node after hsplit edge.source ?_ ?_
  · exact mem_stepNames.mpr (source_declared (List.mem_filter.mp hedge).1)
  · exact mem_outgoing.mpr ⟨edge, hedge, rfl, htarget⟩

/-! ## One analysis -/

theorem mem_reachable_of_mem {entries : List String} {name : String} (hentry : name ∈ entries)
    (declared : name ∈ workflow.names) : name ∈ workflow.reachable entries :=
  mem_reachable.mpr ⟨name, hentry, .refl (by simpa using declared)⟩

/-- Execution edges do not leave what is reachable. -/
theorem mem_reachable_of_edge {entries : List String} {source target : String}
    (hsource : source ∈ workflow.reachable entries)
    (hedge : workflow.IsExecutionEdge source target) : target ∈ workflow.reachable entries := by
  obtain ⟨entry, hentry, path⟩ := mem_reachable.mp hsource
  have declared := IsExecutionEdge.declared hedge
  exact mem_reachable.mpr ⟨entry, hentry,
    path.snoc (mem_outgoing.mpr hedge) (by simpa using declared)⟩

variable {reachable : List String} {entryAvailable : List (String × List String)}

theorem mustAvailable_entry (silent : analyzeWorkflow parse workflow = []) {name : String}
    {facts : List String} (hentry : entryAvailable.lookup name = some facts)
    (hname : name ∈ workflow.names) (hreachable : name ∈ reachable) :
    ∃ held, (workflow.mustAvailable reachable entryAvailable).lookup name = some held
      ∧ held ⊆ facts := by
  obtain ⟨hsorted, hmem⟩ := passOrder_spec silent
  exact MustFlow.availability_entry hsorted ((hmem name).mpr hname) (by simpa using hreachable)
    hentry

theorem mustAvailable_edge (silent : analyzeWorkflow parse workflow = []) {edge : FlowEdge}
    (hedge : edge ∈ workflow.executionEdges) (hreachable : edge.target ∈ reachable)
    {facts : List String}
    (hsource : (workflow.mustAvailable reachable entryAvailable).lookup edge.source
      = some facts) :
    ∃ held, (workflow.mustAvailable reachable entryAvailable).lookup edge.target = some held
      ∧ held ⊆ facts ++ edge.produced := by
  obtain ⟨hsorted, hmem⟩ := passOrder_spec silent
  have hname := target_declared (List.mem_filter.mp hedge).1
  have hmap : edge.toMustFlow ∈ workflow.executionEdges.map FlowEdge.toMustFlow :=
    List.mem_map_of_mem hedge
  exact MustFlow.availability_edge hsorted hmap ((hmem edge.target).mpr hname)
    (by simpa [FlowEdge.toMustFlow] using hreachable) hsource

theorem reachable_of_mustAvailable {name : String} {held : List String}
    (h : (workflow.mustAvailable reachable entryAvailable).lookup name = some held) :
    name ∈ reachable := by
  simpa using MustFlow.allowed_of_lookup h

/-! ## The normal flow -/

/-- Every step of the normal flow is promised something. -/
theorem exists_normalAvailable (silent : analyzeWorkflow parse workflow = []) {name : String}
    (h : name ∈ workflow.normalReachable) :
    ∃ held, workflow.normalAvailable.lookup name = some held := by
  obtain ⟨entry, hentry, path⟩ := mem_reachable.mp h
  have hdeclared := ExecutionPath.declared path
  have hstart : entry ∈ workflow.normalReachable := mem_reachable_of_mem hentry hdeclared.1
  have hfirst : ∃ held, workflow.normalAvailable.lookup entry = some held := by
    have hlookup : (workflow.entry.map fun name => (name, workflow.roots)).lookup entry
        = some workflow.roots := by
      rw [WorkflowConfig.entry] at hentry ⊢
      cases hhead : workflow.flow.head? with
      | none => simp [hhead] at hentry
      | some first =>
          simp only [hhead, Option.map_some, Option.toList_some, List.mem_singleton] at hentry
          simp [hentry]
    obtain ⟨held, hheld, -⟩ := mustAvailable_entry silent hlookup hdeclared.1 hstart
    exact ⟨held, hheld⟩
  clear hentry h hdeclared
  induction path with
  | refl _ => exact hfirst
  | step admitted next rest ih =>
      obtain ⟨held, hheld⟩ := hfirst
      obtain ⟨edge, hedge, rfl, rfl⟩ := mem_outgoing.mp next
      have htarget := mem_reachable_of_edge hstart ⟨edge, hedge, rfl, rfl⟩
      obtain ⟨held', hheld', -⟩ := mustAvailable_edge silent hedge htarget hheld
      exact ih htarget ⟨held', hheld'⟩

theorem normalAvailable_entry (silent : analyzeWorkflow parse workflow = []) {first : FlowStep}
    (hfirst : workflow.flow.head? = some first) :
    ∃ held, workflow.normalAvailable.lookup first.name = some held
      ∧ held ⊆ workflow.roots := by
  have hname : first.name ∈ workflow.names :=
    List.mem_map_of_mem (List.mem_of_head? hfirst)
  refine mustAvailable_entry silent ?_ hname (mem_reachable_of_mem ?_ hname)
  · simp [WorkflowConfig.entry, hfirst]
  · simp [WorkflowConfig.entry, hfirst]

/-! ## The flow of the handlers -/

/-- A handler is promised at most what a failing step of the normal flow has, and the error. -/
theorem handlerAvailable_entry (silent : analyzeWorkflow parse workflow = []) {edge : FlowEdge}
    (hedge : edge ∈ workflow.failureEdges) {facts : List String}
    (hfacts : workflow.normalAvailable.lookup edge.source = some facts) :
    ∃ held, workflow.handlerAvailable.lookup edge.target = some held
      ∧ held ⊆ facts ++ edge.produced := by
  have hbuilt := (List.mem_filter.mp hedge).1
  have hname := target_declared hbuilt
  have hreachable : edge.target ∈ workflow.handlerReachable :=
    mem_reachable_of_mem (List.mem_map_of_mem hedge) hname
  -- the failing step is one of those whose facts the handler's entry meets
  let candidates := workflow.failureEdges.filterMap fun edge =>
    (workflow.normalAvailable.lookup edge.source).map fun held =>
      (edge.target, held ++ edge.produced)
  have hcandidate : (edge.target, facts ++ edge.produced) ∈ candidates :=
    List.mem_filterMap.mpr ⟨edge, hedge, by simp [hfacts]⟩
  have hlookup : workflow.handlerEntryAvailable.lookup edge.target
      = some (MustFlow.meet ((candidates.filter fun c => c.1 = edge.target).map Prod.snd)) :=
    List.lookup_graph _ (List.mem_dedup.mpr (List.mem_map_of_mem hcandidate))
  obtain ⟨held, hheld, hsubset⟩ := mustAvailable_entry silent hlookup hname hreachable
  have hmeet : facts ++ edge.produced
      ∈ (candidates.filter fun c => c.1 = edge.target).map Prod.snd :=
    List.mem_map.mpr ⟨_, List.mem_filter.mpr ⟨hcandidate, by simp⟩, rfl⟩
  exact ⟨held, hheld, fun name hname => MustFlow.meet_subset hmeet (hsubset hname)⟩

/-! ## The walks of the runner -/

theorem flowStep_isSome_iff {name : String} :
    (workflow.flowStep name).isSome ↔ name ∈ workflow.names := by
  simp [WorkflowConfig.flowStep, WorkflowConfig.names, List.find?_isSome]

theorem flowStep_declared {name : String} (h : (workflow.flowStep name).isSome) :
    name ∈ workflow.names :=
  flowStep_isSome_iff.mp h

/-- A successor that is declared is one along an execution edge. -/
theorem isExecutionEdge_of_successor (model : workflow.WellFormed) {name target : String}
    (htarget : target ∈ workflow.successors name) (declared : target ∈ workflow.names) :
    workflow.IsExecutionEdge name target := by
  unfold WorkflowConfig.successors at htarget
  split at htarget
  · rename_i step hstep
    obtain ⟨hmem, rfl⟩ := flowStep_mem hstep
    cases hgoes : step.terminal with
    | true => simp [model.terminal_successors hmem hgoes] at htarget
    | false => exact isExecutionEdge_of_mem_normalSuccessors model hmem hgoes declared htarget
  · simp at htarget

/-- The runner's normal flow is part of the analysed one. -/
theorem reachableFromEntry_subset (model : workflow.WellFormed) {name : String}
    (h : name ∈ workflow.reachableFromEntry) : name ∈ workflow.normalReachable := by
  obtain ⟨entry, hentry, path⟩ :=
    (Digraph.mem_closure_iff (fun _ => flowStep_declared) le_rfl).mp h
  have hstart := mem_reachable_of_mem hentry (flowStep_declared path.allowed_source)
  clear hentry h
  induction path with
  | refl _ => exact hstart
  | step admitted next rest ih =>
      exact ih (mem_reachable_of_edge hstart
        (isExecutionEdge_of_successor model next (flowStep_declared rest.allowed_source)))

theorem reachableFromEntry_step {name target : String} (h : name ∈ workflow.reachableFromEntry)
    (htarget : target ∈ workflow.successors name) (declared : (workflow.flowStep target).isSome) :
    target ∈ workflow.reachableFromEntry := by
  obtain ⟨entry, hentry, path⟩ :=
    (Digraph.mem_closure_iff (fun _ => flowStep_declared) le_rfl).mp h
  exact (Digraph.mem_closure_iff (fun _ => flowStep_declared) le_rfl).mpr
    ⟨entry, hentry, path.snoc htarget declared⟩

theorem mem_handlerRegion {entry name : String} :
    name ∈ workflow.handlerRegion entry ↔ Digraph.Path
      (fun name => (workflow.flowStep name).isSome
        && (name == entry || !workflow.reachableFromEntry.contains name))
      (fun name => if workflow.reachableFromEntry.contains name then []
        else workflow.successors name) entry name := by
  have hdeclared : ∀ name, ((workflow.flowStep name).isSome
      && (name == entry || !workflow.reachableFromEntry.contains name)) = true →
        name ∈ workflow.names := fun name h => flowStep_declared (Bool.and_eq_true_iff.mp h).1
  refine (Digraph.mem_closure_iff hdeclared le_rfl).trans ?_
  simp

theorem mem_handlerRegion_self {entry : String} (declared : (workflow.flowStep entry).isSome) :
    entry ∈ workflow.handlerRegion entry :=
  mem_handlerRegion.mpr (.refl (by simp [declared]))

/-- What follows a step of a handler's region belongs to it, or to the normal flow. -/
theorem handlerRegion_step {entry name target : String}
    (h : name ∈ workflow.handlerRegion entry) (htarget : target ∈ workflow.successors name)
    (declared : (workflow.flowStep target).isSome) :
    target ∈ workflow.handlerRegion entry ∨ target ∈ workflow.reachableFromEntry := by
  by_cases hnormal : name ∈ workflow.reachableFromEntry
  · exact .inr (reachableFromEntry_step hnormal htarget declared)
  · by_cases hback : target ∈ workflow.reachableFromEntry
    · exact .inr hback
    · refine .inl (mem_handlerRegion.mpr ((mem_handlerRegion.mp h).snoc ?_ ?_))
      · simpa [hnormal] using htarget
      · simp [declared, hback]

end Analysed

end Justflow
