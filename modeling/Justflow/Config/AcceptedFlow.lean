import Justflow.Config.Validation

/-!
# What an accepted workflow guarantees

The consequences of acceptance that the engine relies on, each read off the check that enforces
it: names are unique and not empty, targets are declared, the shapes of steps are exclusive, and
the static analysis found nothing.
-/

open Program

namespace Justflow

theorem forM_eq_ok {α : Type} {f : α → Except String Unit} {items : List α}
    (h : items.forM f = .ok ()) : ∀ a ∈ items, f a = .ok () := by
  induction items with
  | nil => simp
  | cons a rest ih =>
      change forM (a :: rest) f = _ at h
      rw [List.forM_cons] at h
      obtain ⟨_, hfirst, hrest⟩ := exists_of_bind_eq_ok h
      intro b hb
      rcases List.mem_cons.mp hb with rfl | hb
      · exact hfirst
      · exact ih hrest b hb

theorem truthy_eq_self {o : Option String} (h : validName o = true) : truthy o = o := by
  cases o with
  | none => rfl
  | some name => exact truthy_of_ne_empty (ne_empty_of_validIdentifier h)

section Accepted

variable {workflow : WorkflowConfig}

namespace WorkflowConfig.WellFormed

/-! ## Models -/

theorem models (h : workflow.WellFormed) :
    workflow.flow ≠ [] ∧ validName workflow.onError = true
      ∧ (∀ step ∈ workflow.flow, step.validateModel = .ok ())
      ∧ workflow.validateWorkflow = .ok () := by
  unfold WorkflowConfig.WellFormed WorkflowConfig.validateModel at h
  split at h
  · cases h
  · rename_i hfields
    obtain ⟨_, _, hmodel⟩ := exists_of_bind_eq_ok h
    obtain ⟨_, hflow, hmodel⟩ := exists_of_bind_eq_ok hmodel
    simp only [Bool.or_eq_true, not_or, Bool.not_eq_true, List.isEmpty_eq_false_iff,
      Bool.not_eq_false'] at hfields
    exact ⟨hfields.1, hfields.2, forM_eq_ok hflow, hmodel⟩

theorem stepModel (h : workflow.WellFormed) {step : FlowStep}
    (hstep : step ∈ workflow.flow) :
    step.fieldsValid = true ∧ (∀ branch ∈ step.branches, branch.validateBranch = .ok ())
      ∧ step.validateFlowStep = .ok () := by
  have hmodel := h.models.2.2.1 step hstep
  unfold FlowStep.validateModel at hmodel
  split at hmodel
  · cases hmodel
  · rename_i hfields
    obtain ⟨_, hbranches, hmodel⟩ := exists_of_bind_eq_ok hmodel
    refine ⟨by simpa using hfields, forM_eq_ok hbranches, ?_⟩
    cases hwait : step.waitFor with
    | none =>
        rw [hwait] at hmodel
        exact (exists_of_bind_eq_ok hmodel).choose_spec.2
    | some wait =>
        rw [hwait] at hmodel
        exact (exists_of_bind_eq_ok hmodel).choose_spec.2

/-- The checks that a step with work to do has passed. -/
theorem stepChecks (h : workflow.WellFormed) {step : FlowStep}
    (hstep : step ∈ workflow.flow) (hgoes : step.terminal = false) :
    (step.untilCondition.isSome → step.forEach = none)
      ∧ (step.onExhausted.isSome → step.untilCondition.isSome)
      ∧ (step.branches ≠ [] → step.thenStep.isSome → step.condition.isSome)
      ∧ (step.sleepSec.isSome → step.branches = []) := by
  obtain ⟨hfields, -, hchecks⟩ := h.stepModel hstep
  have hthen : truthy step.thenStep = step.thenStep := by
    refine truthy_eq_self ?_
    simp only [FlowStep.fieldsValid, Bool.and_eq_true] at hfields
    tauto
  unfold FlowStep.validateFlowStep at hchecks
  rw [hgoes] at hchecks
  simp only [Bool.false_eq_true, if_false, firstViolation_ok_iff, List.mem_cons,
    forall_eq_or_imp, hthen] at hchecks
  obtain ⟨-, -, -, hsleep, -, hboth, -, honly, hsuccessor, -⟩ := hchecks
  refine ⟨fun huntil => ?_, fun hexhausted => ?_, fun hbranches hsome => ?_, fun hsleeps => ?_⟩
  · simpa [huntil] using hboth
  · by_contra hnone
    simp [hexhausted, hnone] at honly
  · by_contra hnone
    simp only [Bool.not_eq_true, Option.isSome_eq_false_iff] at hnone
    have : step.branches.isEmpty = false := by simpa using hbranches
    simp [hsome, hnone, this] at hsuccessor
  · by_contra hbranches
    simp [hsleeps, hbranches] at hsleep

/-- A terminal step declares neither work nor a successor. -/
theorem terminalChecks (h : workflow.WellFormed) {step : FlowStep} (hstep : step ∈ workflow.flow)
    (hends : step.terminal = true) :
    step.thenStep = none ∧ step.onResult = none ∧ step.waitFor = none
      ∧ step.untilCondition = none ∧ step.onExhausted = none := by
  obtain ⟨-, -, hchecks⟩ := h.stepModel hstep
  unfold FlowStep.validateFlowStep at hchecks
  rw [hends] at hchecks
  simp only [if_true, firstViolation_ok_iff, List.mem_cons, forall_eq_or_imp,
    Bool.or_eq_false_iff, Option.isSome_eq_false_iff, Option.isNone_iff_eq_none] at hchecks
  tauto

theorem exclusive (h : workflow.WellFormed) {step : FlowStep}
    (hstep : step ∈ workflow.flow) (huntil : step.untilCondition.isSome) :
    step.forEach = none := by
  cases hterminal : step.terminal with
  | false => exact (h.stepChecks hstep hterminal).1 huntil
  | true => simp [h.terminalChecks hstep hterminal] at huntil

theorem terminal_successors (h : workflow.WellFormed) {step : FlowStep}
    (hstep : step ∈ workflow.flow) (hends : step.terminal = true) :
    step.normalSuccessors = [] := by
  obtain ⟨hthen, hresult, hwait, -, hexhausted⟩ := h.terminalChecks hstep hends
  simp [FlowStep.normalSuccessors, FlowStep.branches, hthen, hresult, hwait, hexhausted]

/-- The names of a step that are compared to the empty string are not empty. -/
theorem truthy_names (h : workflow.WellFormed) {step : FlowStep}
    (hstep : step ∈ workflow.flow) :
    truthy step.output = step.output ∧ truthy step.thenStep = step.thenStep
      ∧ truthy step.onExhausted = step.onExhausted ∧ truthy step.onFailure = step.onFailure
      ∧ truthy (step.waitFor.bind WaitForConfig.onTimeout)
        = step.waitFor.bind WaitForConfig.onTimeout
      ∧ ∀ branch ∈ step.branches, truthy branch.thenStep = branch.thenStep
        ∧ truthy branch.default = branch.default := by
  obtain ⟨hfields, -, -⟩ := h.stepModel hstep
  simp only [FlowStep.fieldsValid, Bool.and_eq_true, List.all_eq_true] at hfields
  obtain ⟨⟨⟨⟨⟨⟨⟨⟨⟨⟨⟨⟨⟨⟨⟨-, -⟩, houtput⟩, hthen⟩, -⟩, hexhausted⟩, hfailure⟩, -⟩, -⟩, -⟩, -⟩, -⟩, -⟩,
    -⟩, hbranches⟩, hwait⟩ := hfields
  refine ⟨truthy_eq_self houtput, truthy_eq_self hthen, truthy_eq_self hexhausted,
    truthy_eq_self hfailure, ?_, fun branch hbranch => ?_⟩
  · cases hw : step.waitFor with
    | none => rfl
    | some wait =>
        rw [hw] at hwait
        simp only [Bool.and_eq_true] at hwait
        exact truthy_eq_self hwait.1.2
  · exact ⟨truthy_eq_self (hbranches branch hbranch).2, truthy_eq_self (hbranches branch hbranch).1⟩

/-- A result branch has a target: its default, or the one its condition leads to. -/
theorem branch_target (h : workflow.WellFormed) {step : FlowStep}
    (hstep : step ∈ workflow.flow) {branch : OnResultBranch} (hbranch : branch ∈ step.branches) :
    branch.target = branch.thenStep.or branch.default
      ∧ (branch.default = none → branch.thenStep.isSome) := by
  refine ⟨?_, fun hdefault => ?_⟩
  · rw [OnResultBranch.target, ((h.truthy_names hstep).2.2.2.2.2 branch hbranch).1]
    cases branch.thenStep <;> rfl
  · have hchecks := (h.stepModel hstep).2.1 branch hbranch
    unfold OnResultBranch.validateBranch at hchecks
    simp only [firstViolation_ok_iff, List.mem_cons, forall_eq_or_imp, hdefault] at hchecks
    obtain ⟨hwhen, -, hthen, -⟩ := hchecks
    by_contra hnone
    simp_all

end WorkflowConfig.WellFormed

variable {parse : ExpressionParser} {limits : RuntimeLimits}

namespace Accepted

/-! ## Names and targets -/

theorem checks (h : Accepted parse limits workflow) :
    workflow.validateNamespaces = []
      ∧ (∀ step ∈ workflow.flow, step.terminal = false →
        workflow.validateStep parse limits step = [])
      ∧ analyzeWorkflow parse workflow = [] := by
  have hvalid := h.valid
  simp only [WorkflowConfig.validate, List.append_eq_nil_iff, List.map_eq_nil_iff,
    List.flatMap_eq_nil_iff, List.mem_filter, Bool.not_eq_true'] at hvalid
  exact ⟨hvalid.1.1.1, fun step hstep hgoes => hvalid.1.2 step ⟨hstep, hgoes⟩, hvalid.2⟩

theorem names_nodup (h : Accepted parse limits workflow) : workflow.names.Nodup := by
  have hnames := h.checks.1
  simp only [WorkflowConfig.validateNamespaces, List.append_eq_nil_iff, diagnose_eq_nil,
    Bool.not_eq_false', decide_eq_true_eq] at hnames
  exact hnames.1.1.1.1

theorem onError_declared (h : Accepted parse limits workflow) {target : String}
    (htarget : workflow.onError = some target) : target ∈ workflow.names := by
  have hnames := h.checks.1
  simp only [WorkflowConfig.validateNamespaces, List.append_eq_nil_iff, diagnose_eq_nil] at hnames
  simpa [htarget] using hnames.2

/-- Every target of a step is declared. -/
theorem target_declared (h : Accepted parse limits workflow) {step : FlowStep}
    (hstep : step ∈ workflow.flow) (hgoes : step.terminal = false) {target : String}
    (htarget : step.thenStep = some target ∨ step.onExhausted = some target
      ∨ step.onFailure = some target ∨ step.waitFor.bind WaitForConfig.onTimeout = some target
      ∨ ∃ branch ∈ step.branches, branch.target = some target) : target ∈ workflow.names := by
  have htruthy : truthy (some target) = some target := by
    obtain ⟨-, hthen, hexhausted, hfailure, hwait, hbranches⟩ := h.model.truthy_names hstep
    rcases htarget with ht | ht | ht | ht | ⟨branch, hbranch, ht⟩
    · rwa [ht] at hthen
    · rwa [ht] at hexhausted
    · rwa [ht] at hfailure
    · rwa [ht] at hwait
    · rw [(h.model.branch_target hstep hbranch).1] at ht
      obtain ⟨hbthen, hbdefault⟩ := hbranches branch hbranch
      rcases Option.or_eq_some_iff.mp ht with ht | ⟨-, ht⟩
      · rwa [ht] at hbthen
      · rwa [ht] at hbdefault
  have hdeclares : ∀ o : Option String, o = some target → workflow.declares o = true →
      target ∈ workflow.names := by
    rintro o rfl ho
    simpa [WorkflowConfig.declares, htruthy] using ho
  have hvalid := h.checks.2.1 step hstep hgoes
  simp only [WorkflowConfig.validateStep, WorkflowConfig.validateTargets,
    WorkflowConfig.validateTarget, List.append_eq_nil_iff, diagnose_eq_nil, Bool.not_eq_false',
    List.flatMap_eq_nil_iff] at hvalid
  obtain ⟨⟨⟨-, ⟨⟨⟨hexhausted, hfailure⟩, hwait⟩, hthen⟩, hbranches⟩, -⟩, -⟩ := hvalid
  rcases htarget with ht | ht | ht | ht | ⟨branch, hbranch, ht⟩
  · exact hdeclares _ ht hthen
  · exact hdeclares _ ht hexhausted
  · exact hdeclares _ ht hfailure
  · exact hdeclares _ ht hwait
  · exact hdeclares _ ht (hbranches branch hbranch)

theorem flowStep_eq (h : Accepted parse limits workflow) {step : FlowStep}
    (hstep : step ∈ workflow.flow) : workflow.flowStep step.name = some step := by
  have hnodup : (workflow.flow.reverse.map FlowStep.name).Nodup := by
    rw [List.map_reverse]
    exact List.nodup_reverse.mpr h.names_nodup
  have hmem : step ∈ workflow.flow.reverse := by simpa using hstep
  unfold WorkflowConfig.flowStep
  generalize workflow.flow.reverse = steps at hnodup hmem
  induction steps with
  | nil => simp at hmem
  | cons first rest ih =>
      simp only [List.map_cons, List.nodup_cons] at hnodup
      rcases List.mem_cons.mp hmem with rfl | hrest
      · simp
      · have hne : first.name ≠ step.name := fun heq =>
          hnodup.1 (heq ▸ List.mem_map_of_mem hrest)
        rw [List.find?_cons_of_neg (by simpa using hne)]
        exact ih hnodup.2 hrest

end Accepted

/-! ## The analysis -/

/-- What the analysis has found out when it reports nothing. -/
theorem analysis_silent (h : analyzeWorkflow parse workflow = []) :
    Digraph.findCycle (outgoing workflow.executionEdges) workflow.stepNames = none
      ∧ workflow.reachabilityIssues (workflow.normalReachable ++ workflow.handlerReachable) = []
      ∧ workflow.sinkIssues (workflow.normalReachable ++ workflow.handlerReachable) = []
      ∧ workflow.referenceIssues parse = [] ∧ workflow.resultIssues = [] := by
  unfold analyzeWorkflow at h
  split at h
  · cases h
  · rename_i hcycle
    simp only [List.append_eq_nil_iff] at h
    exact ⟨hcycle, h.1.1.1, h.1.1.2, h.1.2, h.2⟩

theorem Accepted.acyclic (h : Accepted parse limits workflow) :
    Digraph.findCycle (outgoing workflow.executionEdges) workflow.stepNames = none :=
  (analysis_silent h.checks.2.2).1

end Accepted

end Justflow
