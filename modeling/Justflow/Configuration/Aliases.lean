import Justflow.Configuration.Policy
import Justflow.Engine.Confinement
import Justflow.Engine.Dataflow

/-!
# Credential aliases in a run

The policy checks the alias parameters where an operation declares them.  The parameters that an
invocation carries are merged from service, operation and flow step, then interpolated, and an
iteration sets its variable over them.  A run keeps to approved aliases when none of these routes
reaches an alias parameter with anything else.
-/

open Fields Program

namespace Justflow

variable {σ : Type}

/-! ## Which value survives the merge -/

theorem lookup_update {κ α : Type} [DecidableEq κ] {key : κ} {value : α} {l m : List (κ × α)}
    (h : (update l m).lookup key = some value) :
    (key, value) ∈ m ∨ key ∉ keys m ∧ l.lookup key = some value := by
  induction m generalizing l with
  | nil => exact .inr ⟨by simp, h⟩
  | cons entry rest ih =>
      obtain ⟨name, new⟩ := entry
      rcases ih h with later | ⟨absent, earlier⟩
      · exact .inl (List.mem_cons_of_mem _ later)
      · rw [lookup_set] at earlier
        by_cases same : key = name
        · rw [if_pos same] at earlier
          cases earlier
          rw [same]
          exact .inl List.mem_cons_self
        · rw [if_neg same] at earlier
          refine .inr ⟨?_, earlier⟩
          rw [keys_cons, List.mem_cons]
          rintro (h | h)
          · exact same h
          · exact absent h

theorem interpolateFields_lookup {reprStr : String → String} {params fields out : JsonObject}
    (h : interpolateFields reprStr params fields = .ok out) {key : String} {value : JsonValue}
    (hvalue : out.lookup key = some value) :
    ∃ template, fields.lookup key = some template
      ∧ interpolateParams reprStr params template = .ok value := by
  induction fields generalizing out with
  | nil =>
      cases h
      cases hvalue
  | cons e rest ih =>
      obtain ⟨name, template⟩ := e
      rw [interpolateFields] at h
      obtain ⟨item, hitem, h⟩ := exists_of_bind_eq_ok h
      obtain ⟨items, hitems, h⟩ := exists_of_bind_eq_ok h
      cases h
      rw [List.lookup_cons] at hvalue ⊢
      cases hname : key == name with
      | true =>
          rw [hname] at hvalue
          cases hvalue
          exact ⟨template, rfl, hitem⟩
      | false =>
          rw [hname] at hvalue
          exact ih hitems hvalue

/-- A string without placeholders: it interpolates to itself. -/
def Placeholderless (reprStr : String → String) (s : String) : Prop :=
  parsePlaceholders reprStr s = .ok [.text s]

instance (reprStr : String → String) (s : String) : Decidable (Placeholderless reprStr s) :=
  inferInstanceAs (Decidable (_ = _))

theorem interpolateString_placeholderless {reprStr : String → String} {s : String}
    (plain : Placeholderless reprStr s) (params : JsonObject) :
    interpolateString reprStr s params = .ok (.str s) := by
  have parsed : placeholdersOf reprStr s = .ok [.text s] := by
    rw [placeholdersOf, plain]
  rw [interpolateString, parsed]
  simp [printSegments, bind, Except.bind, pure, Except.pure]

/-! ## Approved invocations -/

section Confinement

variable (policy : TenantAuthoringPolicy) (catalog : PlatformComponentCatalog)
  (workflow : TenantWorkflowConfig)

/-- The component operation that a flow step invokes. -/
def TenantWorkflowConfig.operationOf (self : TenantWorkflowConfig) (step : FlowStep) :
    Option TenantComponentOperation :=
  match step.op.bind fun op => self.steps.lookup op with
  | some (.component operation) => some operation
  | _ => none

/-- The flow step of a name; a later one replaces an earlier one of its name. -/
def TenantWorkflowConfig.flowStep (self : TenantWorkflowConfig) (name : String) :
    Option FlowStep :=
  self.flow.reverse.find? fun step => step.name == name

def PlatformComponentCatalog.aliasParameters (self : PlatformComponentCatalog)
    (operation : TenantComponentOperation) : List String :=
  match self.steps.lookup operation.component.identity with
  | some component => component.approvedAliasParameters
  | none => []

/-- Every alias parameter of the invoked operation carries an alias that the policy approves. -/
def AliasesApproved : Permission := fun stepName globals =>
  ∀ step operation, workflow.flowStep stepName = some step →
    workflow.operationOf step = some operation →
      ∀ parameter ∈ catalog.aliasParameters operation, ∀ value,
        globals.lookup parameter = some value →
          ∃ credential ∈ policy.secretAliases, value = .str credential

/-- A template that stands for an approved alias in every run. -/
def ApprovedTemplate (reprStr : String → String) (template : JsonValue) : Prop :=
  ∃ credential ∈ policy.secretAliases, template = .str credential ∧ Placeholderless reprStr credential

/-- No route around the policy's check reaches the alias parameter of this flow step. -/
structure RouteGuarded (reprStr : String → String) (services : List (String × JsonObject))
    (step : FlowStep) (operation : TenantComponentOperation) (parameter : String) : Prop where
  ofStep : ∀ value, (parameter, value) ∈ step.params → ApprovedTemplate policy reprStr value
  ofIteration : step.forEach.isSome → step.asVar ≠ some parameter
  ofOperation : parameter ∉ keys step.params → ∀ credential,
    (parameter, .str credential) ∈ operation.parameters → Placeholderless reprStr credential
  ofService : parameter ∉ keys step.params → parameter ∉ keys operation.parameters →
    ∀ params, services.lookup operation.serviceBinding = some params →
      ∀ value, params.lookup parameter = some value → ApprovedTemplate policy reprStr value

/-- Every alias parameter of every flow step is guarded. -/
def RoutesGuarded (reprStr : String → String) (services : List (String × JsonObject)) : Prop :=
  ∀ name step operation, workflow.flowStep name = some step →
    workflow.operationOf step = some operation →
      ∀ parameter ∈ catalog.aliasParameters operation,
        RouteGuarded policy reprStr services step operation parameter

end Confinement

/-! ## Guarded routes -/

section Guarded

variable {satisfies : JsonValue → JsonObject → Bool} {policy : TenantAuthoringPolicy}
  {catalog : PlatformComponentCatalog} {workflow : TenantWorkflowConfig}
  {references : List (String × ComponentReference)} {self : FlowRunner σ}

theorem item_ok {α : Type} {key : String} {found : Option α} {value : α}
    (h : self.item key found = .ok value) : found = some value := by
  cases found with
  | none => cases h
  | some held =>
      cases h
      rfl

/-- What a component operation of the workflow has become in the runner's declaration. -/
theorem stepDef_of_operationOf
    (accepted : resolveWorkflow satisfies policy catalog workflow =
      .ok (self.config, references))
    {step : FlowStep} {operation : TenantComponentOperation}
    (hoperation : workflow.operationOf step = some operation) {op : String} (hop : step.op = some op)
    {stepDef : StepDefinition} (hstepDef : self.config.steps.lookup op = some stepDef) :
    ∃ reference, resolveComponent satisfies policy catalog operation = .ok (stepDef, reference) := by
  obtain ⟨-, resolved⟩ := resolveWorkflow_ok accepted
  obtain ⟨declared, reference, hdeclared, hresolved⟩ := resolveOperations_lookup resolved hstepDef
  rw [TenantWorkflowConfig.operationOf, hop, Option.bind_some, hdeclared] at hoperation
  cases declared with
  | workflow child => cases hoperation
  | component declared =>
      cases hoperation
      obtain ⟨⟨stepDef, found⟩, hcomponent, h⟩ := exists_of_bind_eq_ok hresolved
      cases h
      exact ⟨found, hcomponent⟩

/-- Guarded routes merge to an approved template. -/
theorem mergedTemplate_approved {reprStr : String → String}
    {services : List (String × JsonObject)} {step : FlowStep}
    {operation : TenantComponentOperation} {stepDef : StepDefinition}
    {reference : ComponentReference}
    (resolved : resolveComponent satisfies policy catalog operation = .ok (stepDef, reference))
    {parameter : String} (hparameter : parameter ∈ catalog.aliasParameters operation)
    (guarded : RouteGuarded policy reprStr services step operation parameter)
    {serviceParams : JsonObject} (hservice : services.lookup operation.serviceBinding =
      some serviceParams) {template : JsonValue}
    (h : (update (update serviceParams stepDef.params) step.params).lookup parameter =
      some template) :
    ApprovedTemplate policy reprStr template := by
  obtain ⟨component, found, -, hparams, checked⟩ := resolveComponent_ok resolved
  rw [PlatformComponentCatalog.aliasParameters, found] at hparameter
  rw [hparams] at h
  rcases lookup_update h with ofStep | ⟨absent, h⟩
  · exact guarded.ofStep template ofStep
  · rcases lookup_update h with ofOperation | ⟨omitted, ofService⟩
    · obtain ⟨credential, approved, rfl⟩ := checked parameter hparameter template ofOperation
      exact ⟨credential, approved, rfl, guarded.ofOperation absent credential ofOperation⟩
    · exact guarded.ofService absent omitted serviceParams hservice template ofService

/-- The parameters merged for a guarded flow step carry approved aliases. -/
theorem merged_approved
    (accepted : resolveWorkflow satisfies policy catalog workflow =
      .ok (self.config, references))
    {step : FlowStep} {operation : TenantComponentOperation}
    (hoperation : workflow.operationOf step = some operation) {parameter : String}
    (hparameter : parameter ∈ catalog.aliasParameters operation)
    (guarded : RouteGuarded policy self.platform.reprStr self.services step operation parameter)
    {seq : Nat} {stepStarted : FiniteFloat} {stepOutputs params : JsonObject}
    {prepared : LoopFrame × Bool}
    (framed : self.frameOf step seq stepStarted stepOutputs params = .ok prepared)
    {value : JsonValue} (hvalue : prepared.1.mergedGlobals.lookup parameter = some value) :
    ∃ credential ∈ policy.secretAliases, value = .str credential := by
  rw [FlowRunner.frameOf] at framed
  cases hop : step.op with
  | none =>
      rw [hop] at framed
      cases framed
  | some op =>
      rw [hop] at framed
      obtain ⟨stepDef, hstepDef, framed⟩ := exists_of_bind_eq_ok framed
      obtain ⟨serviceParams, hservice, framed⟩ := exists_of_bind_eq_ok framed
      obtain ⟨mergedGlobals, hmerged, framed⟩ := exists_of_bind_eq_ok framed
      obtain ⟨input, -, framed⟩ := exists_of_bind_eq_ok framed
      cases framed
      obtain ⟨reference, resolved⟩ :=
        stepDef_of_operationOf accepted hoperation hop (item_ok hstepDef)
      obtain ⟨component, -, htarget, -, -⟩ := resolveComponent_ok resolved
      rw [FlowRunner.serviceParams, htarget] at hservice
      obtain ⟨merged, hinterpolated, hnormalized⟩ := exists_of_bind_eq_ok hmerged
      rw [normalizeJsonObject_eq hnormalized] at hvalue
      obtain ⟨template, htemplate, hresult⟩ := interpolateFields_lookup hinterpolated hvalue
      obtain ⟨credential, approved, rfl, plain⟩ :=
        mergedTemplate_approved resolved hparameter guarded (item_ok hservice) htemplate
      rw [interpolateParams, interpolateString_placeholderless plain] at hresult
      cases hresult
      exact ⟨credential, approved, rfl⟩

theorem frame_step {step : FlowStep} {seq : Nat} {stepStarted : FiniteFloat}
    {stepOutputs params : JsonObject} {prepared : LoopFrame × Bool}
    (framed : self.frameOf step seq stepStarted stepOutputs params = .ok prepared) :
    prepared.1.step = step := by
  rw [FlowRunner.frameOf] at framed
  cases hop : step.op with
  | none =>
      rw [hop] at framed
      cases framed
  | some op =>
      rw [hop] at framed
      obtain ⟨stepDef, -, framed⟩ := exists_of_bind_eq_ok framed
      obtain ⟨serviceParams, -, framed⟩ := exists_of_bind_eq_ok framed
      obtain ⟨mergedGlobals, -, framed⟩ := exists_of_bind_eq_ok framed
      obtain ⟨input, -, framed⟩ := exists_of_bind_eq_ok framed
      cases framed
      rfl

theorem indexless_of_validIdentifier {name : String} (h : validIdentifier name = true) :
    Indexless name := by
  rw [validIdentifier, Bool.and_eq_true] at h
  have letters : ∀ c ∈ name.toList, identifierChar c = true := by
    intro c hc
    cases hlist : name.toList with
    | nil => simp [hlist] at hc
    | cons first rest =>
        obtain ⟨h, -⟩ := h
        rw [hlist, isIdentifier, Bool.and_eq_true, List.all_eq_true] at h
        rw [hlist] at hc
        rcases List.mem_cons.mp hc with rfl | hc
        · simp [identifierChar, h.1]
        · exact h.2 c hc
  constructor
  · intro bracket
    exact absurd (letters _ bracket) (by decide)
  · intro hash
    exact absurd (letters _ hash) (by decide)

/-- An accepted workflow with guarded routes prepares approved aliases for every step. -/
theorem prepares_approved
    (accepted : resolveWorkflow satisfies policy catalog workflow =
      .ok (self.config, references))
    (guarded : RoutesGuarded policy catalog workflow self.platform.reprStr self.services) :
    self.PreparesPermitted (AliasesApproved policy catalog workflow) := by
  intro step name seq stepStarted stepOutputs params prepared declared framed
  obtain ⟨flow, -⟩ := resolveWorkflow_ok accepted
  have authored : workflow.flowStep name = some step := by
    rw [WorkflowConfig.flowStep, flow] at declared
    exact declared
  obtain ⟨hmem, hname⟩ := flowStep_mem declared
  have valid : step.fieldsValid = true := by
    rw [flow] at hmem
    exact List.all_eq_true.mp workflow.fieldsValid step hmem
  have named : prepared.1.step = step := frame_step framed
  have merged : ∀ step' operation, workflow.flowStep step.name = some step' →
      workflow.operationOf step' = some operation →
        ∀ parameter ∈ catalog.aliasParameters operation,
          RouteGuarded policy self.platform.reprStr self.services step operation parameter
            ∧ ∀ value, prepared.1.mergedGlobals.lookup parameter = some value →
              ∃ credential ∈ policy.secretAliases, value = .str credential := by
    intro step' operation hstep hoperation parameter hparameter
    rw [hname, authored] at hstep
    cases hstep
    have route := guarded name step operation authored hoperation parameter hparameter
    constructor
    · exact route
    · intro value hvalue
      exact merged_approved accepted hoperation hparameter route framed hvalue
  have wired : ∀ {globals : JsonObject} {parameter : String} {value : JsonValue},
      (∀ value, globals.lookup parameter = some value →
        ∃ credential ∈ policy.secretAliases, value = .str credential) →
      (wireObject globals).lookup parameter = some value →
        ∃ credential ∈ policy.secretAliases, value = .str credential := by
    intro globals parameter value approved hvalue
    rw [lookup_wireObject, Option.map_eq_some_iff] at hvalue
    obtain ⟨held, hheld, rfl⟩ := hvalue
    obtain ⟨credential, hcredential, rfl⟩ := approved held hheld
    exact ⟨credential, hcredential, JsonValue.wire_str credential⟩
  rw [← named] at valid
  constructor
  · apply indexless_of_validIdentifier
    simp only [FlowStep.fieldsValid, Bool.and_eq_true] at valid
    tauto
  · rw [named]
    intro step' operation hstep hoperation parameter hparameter value hvalue
    exact wired (merged step' operation hstep hoperation parameter hparameter).2 hvalue
  · rw [named]
    intro reference var item looped hvar step' operation hstep hoperation parameter hparameter
      value hvalue
    obtain ⟨route, approved⟩ := merged step' operation hstep hoperation parameter hparameter
    have other : parameter ≠ var := by
      rintro rfl
      exact route.ofIteration (by rw [looped]; rfl) hvar
    refine wired ?_ hvalue
    intro value hvalue
    rw [lookup_set_ne other] at hvalue
    exact approved value hvalue

end Guarded

/-! ## A notification -/

def sendReference : ComponentReference where
  name := "send"
  version := "1"

def sendCatalog : PlatformComponentCatalog where
  steps := [("send@1", {
    reference := sendReference
    transport := "plain"
    action := "send"
    approvedAliasParameters := ["credential"] })]

def sendPolicy : TenantAuthoringPolicy where
  stepComponents := [sendReference]
  serviceBindings := [("worker", { transport := "plain" })]
  secretAliases := ["approved"]

/-- One flow step sends with the approved alias. -/
def notifyWorkflow : TenantWorkflowConfig where
  workflow := "notify"
  steps := [("send", .component {
    component := sendReference
    serviceBinding := "worker"
    parameters := [("credential", .str "approved")] })]
  flow := [{ name := "notify", op := some "send", thenStep := some "done" },
    { name := "done", terminal := true }]

/-- The flow step names another credential. -/
def overridingWorkflow : TenantWorkflowConfig where
  workflow := "notify"
  steps := notifyWorkflow.steps
  flow := [{ name := "notify", op := some "send", params := [("credential", .str "stolen")]
             thenStep := some "done" },
    { name := "done", terminal := true }]

def sendSteps : List (String × StepDefinition) :=
  [("send", {
    target := .service "worker" "send"
    params := [("credential", .str "approved")]
    inputSchema := some (.obj [])
    outputSchema := some (.obj []) })]

theorem notifyWorkflow_accepted :
    resolveWorkflow (fun _ _ => true) sendPolicy sendCatalog notifyWorkflow =
      .ok (notifyWorkflow.declared sendSteps, [("send", sendReference)]) := by
  decide

theorem notify_guarded : RoutesGuarded sendPolicy sendCatalog notifyWorkflow
    plainPlatform.reprStr [("worker", [])] := by
  intro name step operation declared hoperation parameter hparameter
  have hmem := List.mem_reverse.mp (List.mem_of_find?_eq_some declared)
  simp only [notifyWorkflow, List.mem_cons, List.not_mem_nil, or_false] at hmem
  rcases hmem with rfl | rfl
  · cases hoperation
    have credential : parameter = "credential" := List.mem_singleton.mp hparameter
    subst credential
    constructor
    · intro value hvalue
      cases hvalue
    · intro looped
      cases looped
    · intro _ sent hsent
      cases List.mem_singleton.mp hsent
      decide
    · intro _ omitted
      exact absurd List.mem_cons_self omitted
  · cases hoperation

/-- The scripted executor, except that it fails on a stolen credential. -/
def refuseStolen (invocation : StepInvocation) (script : Script) :
    Except ExecutorFailure StepResult × Script :=
  if invokingStep invocation.stepName = "notify"
      ∧ invocation.globals.lookup "credential" = some (.str "stolen") then
    (.error externalFailure, script)
  else
    scriptedExecutor.runStep invocation script

theorem refuseStolen_agrees :
    AgreesOn (AliasesApproved sendPolicy sendCatalog notifyWorkflow) refuseStolen
      scriptedExecutor.runStep := by
  intro invocation permitted
  funext script
  apply if_neg
  rintro ⟨hname, stolen⟩
  rw [hname] at permitted
  obtain ⟨credential, approved, same⟩ :=
    permitted _ _ rfl rfl "credential" List.mem_cons_self _ stolen
  cases List.mem_singleton.mp approved
  exact absurd (JsonValue.str.inj same) (by decide)

/-- Where a run of `notifyWorkflow` starts. -/
def notifyStart : Position Script :=
  { name := "notify", seq := 0, loop := none
    machine := (scriptedRunner (notifyWorkflow.declared sendSteps)).fresh "request" [] }

/-- Keeps the parameters of every invocation. -/
def recordingExecutor : Executor (List JsonObject) where
  runStep invocation sent := (.ok { data := .null }, invocation.globals :: sent)
  runEvaluator _ _ _ sent := (.ok true, sent)
  waitForEvent _ _ sent := (.ok .timedOut, sent)
  sleep _ sent := (.ok (), sent)
  validateContract _ _ _ _ sent := (.ok (), sent)
  runSubworkflow _ _ _ sent := (.ok .null, sent)
  completes _ sent := (0, sent)
  now sent := (epoch, sent)

def recordingRunner (config : WorkflowConfig) : FlowRunner (List JsonObject) where
  config := config
  services := [("worker", [])]
  executor := recordingExecutor
  platform := plainPlatform
  limits := defaultRuntimeLimits
  observeHistory _ := { events := 0, bytes := 0 }

/-- What a run that completes has sent. -/
def FlowRunner.sent (self : FlowRunner (List JsonObject)) (fuel : Nat) : List JsonObject :=
  match self.begin "request" [] [] with
  | .advance start =>
      match self.chain fuel start with
      | some (.completed _ machine) => machine.world
      | _ => []
  | _ => []

end Justflow
