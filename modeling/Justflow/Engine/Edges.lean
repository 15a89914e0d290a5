import Justflow.Config.AcceptedFlow
import Justflow.Engine.Walk

/-!
# Moves and edges

The runner and the analysis decide the successors of a step independently.  On an accepted
workflow they agree, with one exception: a default branch that also declares `then`.  The
runner follows its default, while the analysis, the validator and the handler walk see `then`.
-/

open Fields Program

namespace Justflow

/-- `(source, target)` is an edge of the graph that the analysis builds. -/
def WorkflowConfig.IsEdge (self : WorkflowConfig) (source target : String) : Prop :=
  ∃ edge ∈ self.buildEdges, edge.source = source ∧ edge.target = target

/-- An edge that is not a failure edge. -/
def WorkflowConfig.IsExecutionEdge (self : WorkflowConfig) (source target : String) : Prop :=
  ∃ edge ∈ self.executionEdges, edge.source = source ∧ edge.target = target

/-- The handler that a failure of the step would be routed to. -/
def WorkflowConfig.handlerOf (self : WorkflowConfig) (step : FlowStep) : Option String :=
  if step.op.isSome then step.onFailure.or self.onError else none

/-- The defaults of branches that also declare `then`, where no other route of the step leads
to them. -/
def WorkflowConfig.astrayDefaults (self : WorkflowConfig) (step : FlowStep) : List String :=
  ((step.branches.filter fun branch => branch.thenStep.isSome).filterMap
    OnResultBranch.default).filter fun target =>
      target ∉ step.normalSuccessors ∧ self.handlerOf step ≠ some target

/-- The ways a step has an edge to a target, by kind and produced names. -/
inductive EdgeFrom (workflow : WorkflowConfig) (step : FlowStep) (target : String) :
    EdgeKind → List String → Prop where
  | skip (conditional : step.condition.isSome) (next : step.thenStep = some target) :
      EdgeFrom workflow step target .conditionSkip []
  | success (plain : step.branches = []) (next : step.thenStep = some target) :
      EdgeFrom workflow step target .success (producedSymbols step)
  | branch {branch : OnResultBranch} {kind : EdgeKind} (mem : branch ∈ step.branches)
      (next : branch.target = some target)
      (kind_eq : kind = if branch.default.isSome then .resultDefault else .resultBranch) :
      EdgeFrom workflow step target kind (producedSymbols step)
  | timeout (next : step.waitFor.bind WaitForConfig.onTimeout = some target) :
      EdgeFrom workflow step target .waitTimeout []
  | exhaustion (loops : step.untilCondition.isSome) (next : step.onExhausted = some target) :
      EdgeFrom workflow step target .loopExhaustion []
  | failure (handles : workflow.handlerOf step = some target) :
      EdgeFrom workflow step target .failure [errorRoot]

section Accepted

variable {parse : ExpressionParser} {limits : RuntimeLimits} {workflow : WorkflowConfig}

theorem mem_outgoing {source target : String} :
    target ∈ outgoing workflow.executionEdges source ↔ workflow.IsExecutionEdge source target := by
  simp [outgoing, WorkflowConfig.IsExecutionEdge, and_assoc]

theorem mem_edgeTo {step : FlowStep} {target : Option String} {kind : EdgeKind}
    {produced : List String} {edge : FlowEdge} :
    edge ∈ workflow.edgeTo step target kind produced ↔ edge.source = step.name
      ∧ edge.target ∈ workflow.names ∧ target = some edge.target ∧ edge.kind = kind
      ∧ edge.produced = produced := by
  obtain ⟨source, name, edgeKind, edgeProduced⟩ := edge
  cases target with
  | none => simp [WorkflowConfig.edgeTo]
  | some declared =>
      simp only [WorkflowConfig.edgeTo, List.contains_iff_mem]
      split
      · simp only [List.mem_singleton, FlowEdge.mk.injEq, Option.some.injEq]
        constructor
        · rintro ⟨rfl, rfl, rfl, rfl⟩
          simp_all
        · rintro ⟨rfl, -, rfl, rfl, rfl⟩
          simp
      · simp only [List.not_mem_nil, Option.some.injEq, false_iff]
        rintro ⟨-, hmem, rfl, -⟩
        contradiction

/-- The edges that leave a step. -/
theorem mem_edgesOf {step : FlowStep} (hgoes : step.terminal = false) {edge : FlowEdge} :
    edge ∈ workflow.edgesOf step ↔ edge.source = step.name ∧ edge.target ∈ workflow.names
      ∧ EdgeFrom workflow step edge.target edge.kind edge.produced := by
  unfold WorkflowConfig.edgesOf
  simp only [hgoes, Bool.false_eq_true, if_false, List.mem_append]
  constructor
  · rintro ((((hskip | hresult) | htimeout) | hexhausted) | hfailure)
    · split at hskip
      · obtain ⟨hsource, hname, hnext, hkind, hproduced⟩ := mem_edgeTo.mp hskip
        exact ⟨hsource, hname, hkind ▸ hproduced ▸ .skip ‹_› hnext⟩
      · simp at hskip
    · split at hresult
      · obtain ⟨hsource, hname, hnext, hkind, hproduced⟩ := mem_edgeTo.mp hresult
        have plain : step.branches = [] := by simpa using ‹step.branches.isEmpty = true›
        exact ⟨hsource, hname, hkind ▸ hproduced ▸ .success plain hnext⟩
      · obtain ⟨branch, hbranch, hedge⟩ := List.mem_flatMap.mp hresult
        obtain ⟨hsource, hname, hnext, hkind, hproduced⟩ := mem_edgeTo.mp hedge
        exact ⟨hsource, hname, hproduced ▸ .branch hbranch hnext hkind⟩
    · obtain ⟨hsource, hname, hnext, hkind, hproduced⟩ := mem_edgeTo.mp htimeout
      exact ⟨hsource, hname, hkind ▸ hproduced ▸ .timeout hnext⟩
    · split at hexhausted
      · obtain ⟨hsource, hname, hnext, hkind, hproduced⟩ := mem_edgeTo.mp hexhausted
        exact ⟨hsource, hname, hkind ▸ hproduced ▸ .exhaustion ‹_› hnext⟩
      · simp at hexhausted
    · split at hfailure
      · rename_i hop
        obtain ⟨hsource, hname, hnext, hkind, hproduced⟩ := mem_edgeTo.mp hfailure
        refine ⟨hsource, hname, hkind ▸ hproduced ▸ .failure ?_⟩
        rw [WorkflowConfig.handlerOf, if_pos hop, hnext]
      · simp at hfailure
  · obtain ⟨source, target, kind, produced⟩ := edge
    rintro ⟨rfl, hname, hfrom⟩
    cases hfrom with
    | skip conditional next =>
        refine .inl (.inl (.inl (.inl ?_)))
        rw [if_pos conditional]
        exact mem_edgeTo.mpr ⟨rfl, hname, next, rfl, rfl⟩
    | success plain next =>
        refine .inl (.inl (.inl (.inr ?_)))
        rw [if_pos (by simp [plain])]
        exact mem_edgeTo.mpr ⟨rfl, hname, next, rfl, rfl⟩
    | branch mem next kind_eq =>
        refine .inl (.inl (.inl (.inr ?_)))
        rw [if_neg (by simpa using List.ne_nil_of_mem mem)]
        exact List.mem_flatMap.mpr ⟨_, mem, mem_edgeTo.mpr ⟨rfl, hname, next, kind_eq, rfl⟩⟩
    | timeout next => exact .inl (.inl (.inr (mem_edgeTo.mpr ⟨rfl, hname, next, rfl, rfl⟩)))
    | exhaustion loops next =>
        refine .inl (.inr ?_)
        rw [if_pos loops]
        exact mem_edgeTo.mpr ⟨rfl, hname, next, rfl, rfl⟩
    | failure handles =>
        unfold WorkflowConfig.handlerOf at handles
        split at handles
        · rename_i hop
          refine .inr ?_
          rw [if_pos hop]
          exact mem_edgeTo.mpr ⟨rfl, hname, handles, rfl, rfl⟩
        · cases handles

theorem mem_buildEdges_of_edgeFrom {step : FlowStep} (hstep : step ∈ workflow.flow)
    (hgoes : step.terminal = false) {target : String} (hname : target ∈ workflow.names)
    {kind : EdgeKind} {produced : List String}
    (hfrom : EdgeFrom workflow step target kind produced) :
    { source := step.name, target, kind, produced } ∈ workflow.buildEdges :=
  List.mem_flatMap.mpr ⟨step, hstep, (mem_edgesOf hgoes).mpr ⟨rfl, hname, hfrom⟩⟩

theorem mem_buildEdges {edge : FlowEdge} (h : Accepted parse limits workflow) :
    edge ∈ workflow.buildEdges ↔ ∃ step, workflow.flowStep edge.source = some step
      ∧ step.terminal = false ∧ edge.target ∈ workflow.names
      ∧ EdgeFrom workflow step edge.target edge.kind edge.produced := by
  constructor
  · intro hedge
    obtain ⟨step, hstep, hedge⟩ := List.mem_flatMap.mp hedge
    cases hterminal : step.terminal with
    | true =>
        unfold WorkflowConfig.edgesOf at hedge
        simp [hterminal] at hedge
    | false =>
        obtain ⟨hsource, hname, hfrom⟩ := (mem_edgesOf hterminal).mp hedge
        exact ⟨step, hsource ▸ h.flowStep_eq hstep, hterminal, hname, hfrom⟩
  · rintro ⟨step, hstep, hterminal, hname, hfrom⟩
    obtain ⟨hmem, hsource⟩ := flowStep_mem hstep
    have hedge := mem_buildEdges_of_edgeFrom hmem hterminal hname hfrom
    rwa [hsource] at hedge

/-- The analysis has an edge for every successor of the runner. -/
theorem edgeFrom_of_mem_normalSuccessors (h : workflow.WellFormed) {step : FlowStep}
    (hstep : step ∈ workflow.flow) (hgoes : step.terminal = false) {target : String}
    (htarget : target ∈ step.normalSuccessors) :
    ∃ kind produced, kind ≠ .failure ∧ EdgeFrom workflow step target kind produced := by
  obtain ⟨-, hexhausted, hthen, -⟩ := h.stepChecks hstep hgoes
  simp only [FlowStep.normalSuccessors, List.mem_append, Option.mem_toList,
    List.mem_filterMap] at htarget
  rcases htarget with ((next | ⟨branch, mem, next⟩) | next) | next
  · by_cases plain : step.branches = []
    · exact ⟨_, _, by simp, .success plain next⟩
    · exact ⟨_, _, by simp, .skip (hthen plain (by simp [next])) next⟩
  · refine ⟨_, _, ?_, .branch mem next rfl⟩
    split <;> simp
  · exact ⟨_, _, by simp, .timeout next⟩
  · exact ⟨_, _, by simp, .exhaustion (hexhausted (by simp [next])) next⟩

theorem isExecutionEdge_of_mem_normalSuccessors (h : workflow.WellFormed) {step : FlowStep}
    (hstep : step ∈ workflow.flow) (hgoes : step.terminal = false) {target : String}
    (hname : target ∈ workflow.names) (htarget : target ∈ step.normalSuccessors) :
    workflow.IsExecutionEdge step.name target := by
  obtain ⟨kind, produced, hkind, hfrom⟩ :=
    edgeFrom_of_mem_normalSuccessors h hstep hgoes htarget
  exact ⟨_, List.mem_filter.mpr
    ⟨mem_buildEdges_of_edgeFrom hstep hgoes hname hfrom, by simpa using hkind⟩, rfl, rfl⟩

theorem successor_declared (h : Accepted parse limits workflow) {step : FlowStep}
    (hstep : step ∈ workflow.flow) (hgoes : step.terminal = false) {target : String}
    (htarget : target ∈ step.normalSuccessors) : target ∈ workflow.names := by
  refine h.target_declared hstep hgoes ?_
  simp only [FlowStep.normalSuccessors, List.mem_append, Option.mem_toList,
    List.mem_filterMap] at htarget
  tauto

theorem handlerOf_declared (h : Accepted parse limits workflow) {step : FlowStep}
    (hstep : step ∈ workflow.flow) (hgoes : step.terminal = false) {handler : String}
    (hhandler : workflow.handlerOf step = some handler) : handler ∈ workflow.names := by
  unfold WorkflowConfig.handlerOf at hhandler
  split at hhandler
  · rcases Option.or_eq_some_iff.mp hhandler with hown | ⟨-, hdefault⟩
    · exact h.target_declared hstep hgoes (.inr (.inr (.inl hown)))
    · exact h.onError_declared hdefault
  · cases hhandler

theorem isExecutionEdge_iff (h : Accepted parse limits workflow) {name target : String}
    {step : FlowStep} (hstep : workflow.flowStep name = some step)
    (hgoes : step.terminal = false) :
    workflow.IsExecutionEdge name target ↔ target ∈ step.normalSuccessors := by
  obtain ⟨hmem, hsource⟩ := flowStep_mem hstep
  constructor
  · rintro ⟨edge, hedge, rfl, rfl⟩
    obtain ⟨hedge, hkind⟩ := List.mem_filter.mp hedge
    obtain ⟨other, hother, -, -, hfrom⟩ := (mem_buildEdges h).mp hedge
    obtain rfl : step = other := Option.some.inj (hstep.symm.trans hother)
    simp only [FlowStep.normalSuccessors, List.mem_append, Option.mem_toList,
      List.mem_filterMap]
    generalize edge.kind = kind, edge.produced = produced at hfrom hkind
    cases hfrom with
    | skip _ next => exact .inl (.inl (.inl next))
    | success _ next => exact .inl (.inl (.inl next))
    | branch mem next _ => exact .inl (.inl (.inr ⟨_, mem, next⟩))
    | timeout next => exact .inl (.inr next)
    | exhaustion _ next => exact .inr next
    | failure handles => simp at hkind
  · intro htarget
    have hedge := isExecutionEdge_of_mem_normalSuccessors h.model hmem hgoes
      (successor_declared h hmem hgoes htarget) htarget
    rwa [hsource] at hedge

/-- The edges from a declared step: to its successors, and to its handler. -/
theorem isEdge_iff (h : Accepted parse limits workflow) {name target : String} {step : FlowStep}
    (hstep : workflow.flowStep name = some step) (hgoes : step.terminal = false) :
    workflow.IsEdge name target
      ↔ target ∈ step.normalSuccessors ∨ workflow.handlerOf step = some target := by
  obtain ⟨hmem, -⟩ := flowStep_mem hstep
  constructor
  · rintro ⟨edge, hedge, hsource, htarget⟩
    by_cases hkind : edge.kind = .failure
    · subst hsource htarget
      obtain ⟨other, hother, -, -, hfrom⟩ := (mem_buildEdges h).mp hedge
      obtain rfl : step = other := Option.some.inj (hstep.symm.trans hother)
      generalize edge.kind = kind, edge.produced = produced at hfrom hkind
      cases hfrom with
      | failure handles => exact .inr handles
      | branch _ _ kind_eq =>
          rw [hkind] at kind_eq
          split at kind_eq <;> cases kind_eq
      | _ => cases hkind
    · exact .inl ((isExecutionEdge_iff h hstep hgoes).mp
        ⟨edge, List.mem_filter.mpr ⟨hedge, by simpa using hkind⟩, hsource, htarget⟩)
  · rintro (htarget | handles)
    · obtain ⟨edge, hedge, hends⟩ := (isExecutionEdge_iff h hstep hgoes).mpr htarget
      exact ⟨edge, (List.mem_filter.mp hedge).1, hends⟩
    · refine ⟨{ source := name, target, kind := .failure, produced := [errorRoot] }, ?_, rfl, rfl⟩
      exact (mem_buildEdges h).mpr ⟨step, hstep, hgoes,
        handlerOf_declared h hmem hgoes handles, .failure handles⟩

theorem declared_of_isEdge {name target : String} (h : workflow.IsEdge name target) :
    target ∈ workflow.names := by
  obtain ⟨edge, hedge, -, rfl⟩ := h
  obtain ⟨step, -, hedge⟩ := List.mem_flatMap.mp hedge
  cases hterminal : step.terminal with
  | true =>
      unfold WorkflowConfig.edgesOf at hedge
      simp [hterminal] at hedge
  | false => exact ((mem_edgesOf hterminal).mp hedge).2.1

/-! ## Moves -/

/-- A route leads to a successor, or to the default of a branch that has another target. -/
theorem Route.successor_or_default {workflow : WorkflowConfig} (h : workflow.WellFormed) {step : FlowStep} (hstep : step ∈ workflow.flow)
    {target : String} {produced : List String} {recorded : Nat}
    (route : Route step (some target) produced recorded) :
    target ∈ step.normalSuccessors
      ∨ ∃ branch ∈ step.branches, branch.thenStep.isSome ∧ branch.default = some target := by
  simp only [FlowStep.normalSuccessors, List.mem_append, Option.mem_toList, List.mem_filterMap]
  generalize htarget : some target = next at route
  cases route with
  | slept _ => exact .inl (.inl (.inl (.inl rfl)))
  | timedOut waits => exact .inl (.inl (.inr (htarget ▸ waits)))
  | skipped _ => exact .inl (.inl (.inl (.inl rfl)))
  | continued _ _ => exact .inl (.inl (.inl (.inl rfl)))
  | @decided branch other _ mem chosen =>
      cases htarget
      obtain ⟨hbranch, -⟩ := h.branch_target hstep mem
      rcases chosen with hdefault | ⟨-, hthen⟩
      · cases hthen : branch.thenStep with
        | none =>
            refine .inl (.inl (.inl (.inr ⟨branch, mem, ?_⟩)))
            rw [hbranch, hthen, hdefault]
            rfl
        | some _ => exact .inr ⟨branch, mem, by simp [hthen], hdefault⟩
      · refine .inl (.inl (.inl (.inr ⟨branch, mem, ?_⟩)))
        rw [hbranch, hthen]
        rfl
  | undecided => cases htarget
  | exhausted _ declared => exact .inl (.inr (htarget ▸ declared))

theorem mem_astrayDefaults {step : FlowStep} {target : String} :
    target ∈ workflow.astrayDefaults step ↔
      (∃ branch ∈ step.branches, branch.thenStep.isSome ∧ branch.default = some target)
        ∧ target ∉ step.normalSuccessors ∧ workflow.handlerOf step ≠ some target := by
  simp only [WorkflowConfig.astrayDefaults, List.mem_filter, List.mem_filterMap,
    decide_eq_true_eq]
  tauto

end Accepted

variable {σ : Type}

theorem runner_handlerOf {self : FlowRunner σ} (h : self.config.WellFormed) {step : FlowStep} (hstep : step ∈ self.config.flow)
    (operates : step.op.isSome) : self.handlerOf step = self.config.handlerOf step := by
  unfold FlowRunner.handlerOf WorkflowConfig.handlerOf
  rw [if_pos operates, (h.truthy_names hstep).2.2.2.1]
  cases step.onFailure <;> rfl

/-- A departure follows an edge, unless it goes to an astray default. -/
theorem Departure.isEdge_iff {self : FlowRunner σ} {parse : ExpressionParser}
    {limits : RuntimeLimits} (h : Accepted parse limits self.config) {name : String}
    {step : FlowStep} (hstep : self.config.flowStep name = some step)
    (hgoes : step.terminal = false) {before after : RunState} {target : String}
    (departure : Departure self step before after (some target)) :
    self.config.IsEdge name target ↔ target ∉ self.config.astrayDefaults step := by
  obtain ⟨hmem, -⟩ := flowStep_mem hstep
  rw [Justflow.isEdge_iff h hstep hgoes, mem_astrayDefaults]
  generalize hnext : some target = next at departure
  cases departure with
  | moved effect route episode =>
      subst hnext
      have := route.successor_or_default h.model hmem
      grind
  | routed operates declared effect calm episode =>
      cases hnext
      rw [runner_handlerOf h.model hmem operates] at declared
      simp [declared]

theorem WorkflowConfig.WellFormed.exclusive_config {workflow : WorkflowConfig}
    (h : workflow.WellFormed) : workflow.Exclusive :=
  fun _ hstep huntil => h.exclusive hstep huntil

/-- A move of the runner follows an edge of the analysed graph to a declared step exactly when
its target is not the default of a branch that also declares `then`, out of reach of every other
route of the step. -/
theorem visit_follows_edge_iff (self : FlowRunner σ)
    (accepted : Accepted self.platform.parse self.limits self.config)
    {name target : String} {seq nextSeq : Nat} {loop : Option LoopCheckpoint}
    {m m' : Machine σ} {step : FlowStep} (hstep : self.config.flowStep name = some step)
    (hmove : self.visitStep name seq loop m = .ok (.goto (some target) nextSeq) m') :
    (self.config.IsEdge name target ∧ target ∈ self.config.names)
      ↔ target ∉ self.config.astrayDefaults step := by
  have hvisit := visitStep_spec self accepted.model.exclusive_config name seq loop m.run m rfl
  rw [hmove] at hvisit
  obtain ⟨other, hother, hend⟩ := hvisit
  obtain rfl : step = other := Option.some.inj (hstep.symm.trans hother)
  cases hend with
  | moved goes departure =>
      rw [← departure.isEdge_iff accepted hstep goes]
      exact ⟨fun h => h.1, fun h => ⟨h, declared_of_isEdge h⟩⟩

/-- A step whose default goes to `accept`, and which the analysis sees leading to `reject`. -/
def astrayWorkflow : WorkflowConfig where
  workflow := "review"
  steps := [("judge", { target := .service "worker" "judge" })]
  flow := [
    { name := "wait", thenStep := some "review"
      waitFor := some { signal := "go", timeoutSec := some 60, onTimeout := some "accept" } },
    { name := "review", op := some "judge"
      onResult := some [{ default := some "accept", thenStep := some "reject" }] },
    { name := "accept", terminal := true },
    { name := "reject", terminal := true }]

instance (workflow : WorkflowConfig) (source target : String) :
    Decidable (workflow.IsEdge source target) :=
  inferInstanceAs (Decidable (∃ edge ∈ workflow.buildEdges, edge.source = source
    ∧ edge.target = target))

theorem astrayWorkflow_accepted : Accepted plainPlatform.parse {} astrayWorkflow := by
  decide +kernel

theorem astrayWorkflow_move :
    returned ((scriptedRunner astrayWorkflow).visitStep "review" 1 none
      ((scriptedRunner astrayWorkflow).fresh "request" []))
        = some (.goto (some "accept") 2) := by
  decide

/-- The runner moves from `review` to `accept`, along no edge of the graph. -/
theorem astray_move_is_no_edge :
    Accepted plainPlatform.parse {} astrayWorkflow
      ∧ returned ((scriptedRunner astrayWorkflow).visitStep "review" 1 none
          ((scriptedRunner astrayWorkflow).fresh "request" []))
        = some (.goto (some "accept") 2)
      ∧ ¬ astrayWorkflow.IsEdge "review" "accept" :=
  ⟨astrayWorkflow_accepted, astrayWorkflow_move, by decide⟩

theorem visit_follows_edge_iff_review :
    ¬ (astrayWorkflow.IsEdge "review" "accept" ∧ "accept" ∈ astrayWorkflow.names) := by
  obtain ⟨m', hmove⟩ := returned_eq_some.mp astrayWorkflow_move
  have hedge := visit_follows_edge_iff (scriptedRunner astrayWorkflow) astrayWorkflow_accepted
    (rfl : astrayWorkflow.flowStep "review" = some _) hmove
  exact fun h => absurd (hedge.mp h) (by decide)

end Justflow
