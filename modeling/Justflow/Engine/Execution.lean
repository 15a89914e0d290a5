import Justflow.Engine.Runner

/-!
# The run loop

A visit takes one step of the flow to the point where the next step is known; a pass is a visit
and the checkpoint behind it, or the end of the run.  A position is a run between two passes.
A pass that asks for a fresh history carries its checkpoint across the wire, and the next run of
the chain stands at the position restored from it, so a chain of runs is one walk over
positions.
-/

open Fields Program JsonValue

namespace Justflow

inductive StepStatus where
  | succeeded | skipped | timedOut | slept | exhausted | failed
  deriving DecidableEq, Repr

def StepStatus.value : StepStatus → String
  | .succeeded => "succeeded"
  | .skipped => "skipped"
  | .timedOut => "timed_out"
  | .slept => "slept"
  | .exhausted => "exhausted"
  | .failed => "failed"

inductive WorkflowStatus where
  | completed | recovered | terminated
  deriving DecidableEq, Repr

def WorkflowStatus.value : WorkflowStatus → String
  | .completed => "completed"
  | .recovered => "recovered"
  | .terminated => "terminated"

/-- Reserved output alias exposing the failure to handlers. -/
def errorAlias : String := "error"
def auditVersion : Nat := 4
def strictJsonVersion : Nat := 1

/-- Where a visit leaves the run loop. -/
inductive Move where
  | terminal (reason : Option String)
  | goto (target : Option String) (nextSeq : Nat)
  deriving DecidableEq

variable {σ : Type}

/-! ## Waits -/

def FlowRunner.deadlineEpoch (self : FlowRunner σ) : JsonValue → Except EngineException FiniteFloat
  | .int n =>
      match self.platform.floatOfInt n with
      | some t => .ok t
      | none => .error (.python "OverflowError" "int too large to convert to float")
  | .float t => .ok t
  | .str s =>
      match self.platform.fromIso s with
      | none => .error (.python "ValueError" "expected a valid ISO-8601 deadline")
      | some deadline =>
          if self.timezoneAwareDeadlinesEnabled && !deadline.hasOffset then
            .error (.python "ValueError"
              "ISO-8601 deadline must include 'Z' or an explicit UTC offset")
          else .ok deadline.timestamp
  | value =>
      let typeName := pyTypeName value
      .error (.python "TypeError" s!"expected an ISO-8601 string or epoch number, got {typeName}")

def asDeadlineError {α : Type} (stepName reference : String) (x : Except EngineException α) :
    Except EngineException α :=
  let unresolved (text : String) : EngineException :=
    .flowDefinition s!"Step '{stepName}': cannot resolve timeout_until '{reference}': {text}"
      .resolutionError
  match x with
  | .error (.referenceResolution text) => .error (unresolved text)
  | .error (.python typeName text) =>
      if typeName = "ValueError" ∨ typeName = "TypeError" then .error (unresolved text)
      else .error (.python typeName text)
  | other => other

/-- A whole number of seconds as the host's number. -/
def secondsOf (n : Nat) : FiniteFloat :=
  { value := n, text := toString n }

def earlier (a b : FiniteFloat) : FiniteFloat :=
  if b.value < a.value then b else a

/-- The time left until the deadline of a wait, if it has one. -/
def FlowRunner.remainingTime (self : FlowRunner σ) (step : FlowStep) (wait : WaitForConfig)
    (stepOutputs params : JsonObject) : RunM σ (Option FiniteFloat) :=
  match wait.timeoutUntil with
  | none => pure none
  | some reference => do
      let deadline ← lift (asDeadlineError step.name reference.value
        (resolveReference reference stepOutputs params >>= self.deadlineEpoch))
      let current ← self.now
      return some (self.platform.floatSub deadline current)

def WaitForConfig.bound (self : WaitForConfig) (remaining : Option FiniteFloat) :
    Option FiniteFloat :=
  match self.timeoutSec.map secondsOf, remaining with
  | some bound, some left => some (earlier bound left)
  | some bound, none => some bound
  | none, left => left

/-- Wait for the step's event. -/
def FlowRunner.runWait (self : FlowRunner σ) (step : FlowStep) (wait : WaitForConfig)
    (stepOutputs params : JsonObject) : RunM σ WaitOutcome := do
  let remaining ← self.remainingTime step wait stepOutputs params
  match wait.bound remaining with
  | none =>
      let name := step.name
      definitionError s!"Step '{name}' has an unbounded wait" .invariantViolation
  | some seconds =>
      callExecutor (self.executor.waitForEvent wait.signal
        (if 0 < seconds.value then seconds else { value := 0, text := "0.0" }))

/-! ## Outputs and successors -/

/-- What the host raises on assigning under a key of a value that is not an object. -/
def assignmentError : JsonValue → EngineException
  | .arr _ => .python "TypeError" "list indices must be integers or slices, not str"
  | value =>
      let typeName := pyTypeName value
      .python "TypeError" s!"'{typeName}' object does not support item assignment"

def FlowStep.outputKey (self : FlowStep) : String :=
  (truthy self.output).getD self.name

/-- Store under the step namespace and under the convergence alias. -/
def storeOutput (step : FlowStep) (result : JsonValue) (stepOutputs : JsonObject) :
    Except EngineException JsonObject :=
  match (stepOutputs.lookup step.name).getD (.obj []) with
  | .obj fields =>
      .ok (Fields.set step.outputKey result
        (Fields.set step.name (.obj (Fields.set step.outputKey result fields)) stepOutputs))
  | value => .error (assignmentError value)

/-- Whether a branch condition holds, with the text its transition is recorded under. -/
def FlowRunner.branchMatches (self : FlowRunner σ) (step : FlowStep) (result : JsonValue)
    (stepOutputs params : JsonObject) : BranchCondition → RunM σ (Bool × String)
  | .evaluator condition => do
      let name := condition.evaluator
      let matched ← callExecutor
        (self.executor.runEvaluator condition result.wire step.name)
      return (matched, s!"evaluator:{name}")
  | .expression text => do
      let matched ← lift (asResolutionError step.name
        (self.evaluate text result stepOutputs params))
      return (matched, text)

def FlowRunner.chooseBranch (self : FlowRunner σ) (step : FlowStep) (result : JsonValue)
    (stepOutputs params : JsonObject) :
    List OnResultBranch → RunM σ (Option TransitionRecord)
  | [] => pure none
  | branch :: rest => do
      let name := step.name
      match branch.default with
      | some target => return some { step := name, matched := "default", target }
      | none =>
          match branch.whenCondition with
          | none =>
              definitionError s!"Step '{name}' has an invalid result branch" .invariantViolation
          | some condition => do
              let tested ← self.branchMatches step result stepOutputs params condition
              if tested.1 then
                match branch.thenStep with
                | none =>
                    definitionError s!"Step '{name}' result branch has no target"
                      .invariantViolation
                | some target => return some { step := name, matched := tested.2, target }
              else self.chooseBranch step result stepOutputs params rest

/-- Pick the next step; the decision of a result branch is recorded. -/
def FlowRunner.nextStep (self : FlowRunner σ) (step : FlowStep) (result : JsonValue)
    (nextSeq : Nat) : RunM σ Move := do
  if step.branches.isEmpty then
    return .goto step.thenStep nextSeq
  else
    let run ← getRun
    match ← self.chooseBranch step result run.stepOutputs run.params step.branches with
    | none => return .goto none nextSeq
    | some decision =>
        modifyRun fun run => run.addTransition decision
        return .goto (some decision.target) nextSeq

def store (step : FlowStep) (result : JsonValue) : RunM σ Unit := do
  let run ← getRun
  let stepOutputs ← lift (storeOutput step result run.stepOutputs)
  modifyRun fun run => { run with stepOutputs }

/-! ## Visits -/

def checkContinuation (step : FlowStep) (loop : Option LoopCheckpoint) :
    Except EngineException Unit :=
  match loop with
  | none => .ok ()
  | some checkpoint =>
      let matchesKind := match checkpoint with
        | .iteration _ => step.forEach.isSome
        | .untilLoop _ => step.untilCondition.isSome
      if checkpoint.stepName = step.name ∧ matchesKind = true then .ok ()
      else
        let name := step.name
        .error (.flowDefinition s!"Workflow continuation does not match step '{name}'"
          .invariantViolation)

def FlowRunner.visitSleep (self : FlowRunner σ) (step : FlowStep) (seconds seq : Nat) :
    RunM σ Move := do
  callExecutor (self.executor.sleep seconds)
  modifyRun fun run => run.setTiming step.name
    { seq, status := StepStatus.slept.value, sleepSec := some seconds }
  return .goto step.thenStep (seq + 1)

def FlowRunner.visitWait (self : FlowRunner σ) (step : FlowStep) (wait : WaitForConfig)
    (seq : Nat) : RunM σ Move := do
  let name := step.name
  let stepStarted ← self.now
  let run ← getRun
  match ← self.runWait step wait run.stepOutputs run.params with
  | .timedOut =>
      modifyRun fun run => run.setTiming name
        { seq, status := StepStatus.timedOut.value, signal := some wait.signal }
      match wait.onTimeout with
      | none =>
          let signal := wait.signal
          definitionError (s!"Step '{name}': no '{signal}' event "
            ++ "within the configured bound and no on_timeout target") .waitTimeout
      | some target =>
          modifyRun fun run => run.addTransition { step := name, matched := "timeout", target }
          return .goto (some target) (seq + 1)
  | .received raw =>
      let payload ← lift (self.normalize raw s!"steps.{name}.output")
      store step payload
      let ended ← self.now
      modifyRun fun run => run.setTiming name {
        seq
        status := StepStatus.succeeded.value
        signal := some wait.signal
        output := some payload
        startedAt := some (some (self.platform.iso stepStarted))
        durationMs := some (self.platform.elapsedMs ended stepStarted) }
      self.nextStep step payload (seq + 1)

/-- How an operation ended: a plain call, an iteration, or an until loop. -/
inductive Completion where
  | single (result : StepResult)
  | iterated (outcome : IterationOutcome)
  | looped (outcome : UntilOutcome)
  deriving DecidableEq

def Completion.result : Completion → JsonValue
  | .single result => result.data
  | .iterated outcome => outcome.result
  | .looped outcome => outcome.result

def Completion.exhausted : Completion → Bool
  | .looped outcome => !outcome.satisfied
  | _ => false

/-- The audit entry with the fields that the kind of operation sets. -/
def Completion.annotate (self : Completion) (entry : StepAuditEntry) : StepAuditEntry :=
  match self with
  | .single result => { entry with cache := result.cache }
  | .iterated outcome =>
      { entry with itemsTotal := some outcome.itemsTotal, itemsFailed := some outcome.itemsFailed }
  | .looped outcome => { entry with attempts := some outcome.attempts }

def LoopCheckpoint.asIteration : LoopCheckpoint → Option IterationCheckpoint
  | .iteration checkpoint => some checkpoint
  | .untilLoop _ => none

def LoopCheckpoint.asUntil : LoopCheckpoint → Option UntilCheckpoint
  | .iteration _ => none
  | .untilLoop checkpoint => some checkpoint

def FlowRunner.operate (self : FlowRunner σ) (frame : LoopFrame) (loop : Option LoopCheckpoint) :
    RunM σ Completion := do
  let step := frame.step
  match step.forEach with
  | some reference =>
      return .iterated
        (← self.runIteration frame reference (loop.bind LoopCheckpoint.asIteration))
  | none =>
      match truthy step.untilCondition with
      | some _ => return .looped (← self.runUntil frame (loop.bind LoopCheckpoint.asUntil))
      | none =>
          return .single (← self.invoke frame.stepDef step.name frame.resolvedInput
            frame.mergedGlobals frame.params)

/-- `step.on_failure or on_error.then`. -/
def FlowRunner.handlerOf (self : FlowRunner σ) (step : FlowStep) : Option String :=
  match truthy step.onFailure with
  | some handler => some handler
  | none => self.config.onError

/-- Record the failure and open the episode of its handler. -/
def RunState.routed (self : RunState) (stepName : String) (seq : Nat) (startedAt : String)
    (failure : FailureDetail) (handler : String) (region : List String) : RunState :=
  let stepFailure : StepFailure := {
    step := stepName
    code := failure.code
    causeCode := failure.causeCode
    message := failure.message }
  let entry : StepAuditEntry := {
    seq
    status := StepStatus.failed.value
    code := some failure.code
    message := some failure.message
    startedAt := some (some startedAt) }
  let recorded := (self.setTiming stepName entry).addTransition
    { step := stepName, matched := "error", target := handler }
  { recorded with
    failures := self.failures ++ [stepFailure]
    stepOutputs := Fields.set errorAlias stepFailure.modelDump self.stepOutputs
    activeEpisode := some { primary := failure, handler, handlerSteps := region } }

/-- What is raised instead of being routed: definition errors, cancellations, failures of
handlers, and failures that no handler is declared for. -/
def FlowRunner.routeFailure (self : FlowRunner σ) (step : FlowStep) (seq : Nat)
    (stepStarted : FiniteFloat) (exc : RunException) : RunM σ Move := do
  match exc with
  | .engine (.flowDefinition _ _) => throw exc
  | _ =>
      if isCancellation exc.toEngine then throw exc
      else
        let run ← getRun
        match run.activeEpisode with
        | some episode =>
            raise (.handlerFailure episode.primary
              (classifyFailure exc.toEngine .handler (some step.name) (some .handlerFailed)))
        | none =>
            match self.handlerOf step with
            | none => throw exc
            | some handler =>
                modifyRun fun run => run.routed step.name seq (self.platform.iso stepStarted)
                  (classifyFailure exc.toEngine .step (some step.name) (some .stepFailed)) handler
                  (self.config.handlerRegion handler)
                return .goto (some handler) (seq + 1)

def storeCompletion (step : FlowStep) (completion : Completion) : RunM σ Unit :=
  if completion.exhausted then pure () else store step completion.result

/-- Store and record a result, and leave the step. -/
def FlowRunner.complete (self : FlowRunner σ) (frame : LoopFrame) (completion : Completion) :
    RunM σ Move := do
  let step := frame.step
  let name := step.name
  storeCompletion step completion
  let ended ← self.now
  modifyRun fun run => run.setTiming name (completion.annotate {
    seq := frame.seq
    status := if completion.exhausted then StepStatus.exhausted.value
      else StepStatus.succeeded.value
    globals := some (.obj frame.mergedGlobals)
    input := some frame.resolvedInput
    output := some completion.result
    startedAt := some (some (self.platform.iso frame.stepStarted))
    durationMs := some (self.platform.elapsedMs ended frame.stepStarted) })
  if completion.exhausted then
    match step.onExhausted with
    | none =>
        let condition := optionText step.untilCondition
        let attempts := step.maxIterations.getD 0
        definitionError (s!"Step '{name}': until '{condition}' unsatisfied "
          ++ s!"after {attempts} attempts and no on_exhausted target") .loopExhausted
    | some target =>
        modifyRun fun run => run.addTransition { step := name, matched := "exhausted", target }
        return .goto (some target) (frame.seq + 1)
  else self.nextStep step completion.result (frame.seq + 1)

/-- `found[key]` on a dictionary. -/
def FlowRunner.item {α : Type} (self : FlowRunner σ) (key : String) (found : Option α) :
    Except EngineException α :=
  match found with
  | some value => .ok value
  | none => .error (.python "KeyError" (self.platform.reprStr key))

def FlowRunner.serviceParams (self : FlowRunner σ) (stepDef : StepDefinition) :
    Except EngineException JsonObject :=
  match stepDef.target with
  | .service service _ => self.item service (self.services.lookup service)
  | .workflow _ => .ok []

/-- The parameters of service, operation and step, interpolated. -/
def FlowRunner.mergeGlobals (self : FlowRunner σ) (step : FlowStep) (stepDef : StepDefinition)
    (serviceParams params : JsonObject) : Except EngineException JsonObject := do
  let name := step.name
  let merged ← interpolateFields self.platform.reprStr params
    (Fields.update (Fields.update serviceParams stepDef.params) step.params)
  normalizeJsonObject self.limits.collectionItems merged s!"steps.{name}.globals"

/-- The resolved input, and whether the condition lets the step run. -/
def FlowRunner.readInput (self : FlowRunner σ) (step : FlowStep)
    (stepOutputs params : JsonObject) : Except EngineException (JsonValue × Bool) :=
  asResolutionError step.name do
    let resolvedInput ← resolveInput step.input stepOutputs params
    match truthy step.condition with
    | none => return (resolvedInput, true)
    | some condition =>
        return (resolvedInput, ← self.evaluate condition resolvedInput stepOutputs params)

/-- A resumed step started when its loop did. -/
def FlowRunner.stepStart (self : FlowRunner σ) (loop : Option LoopCheckpoint) :
    RunM σ FiniteFloat :=
  match loop with
  | some checkpoint => pure checkpoint.startedAtEpoch
  | none => self.now

/-- The frame of an operation, and whether its condition lets it run. -/
def FlowRunner.frameOf (self : FlowRunner σ) (step : FlowStep) (seq : Nat)
    (stepStarted : FiniteFloat) (stepOutputs params : JsonObject) :
    Except EngineException (LoopFrame × Bool) := do
  let name := step.name
  match step.op with
  | none =>
      .error (.flowDefinition s!"Non-terminal step '{name}' has no operation" .invariantViolation)
  | some op => do
      let stepDef ← self.item op (self.config.steps.lookup op)
      let serviceParams ← self.serviceParams stepDef
      let mergedGlobals ← self.mergeGlobals step stepDef serviceParams params
      let input ← self.readInput step stepOutputs params
      return ({ step, stepDef, resolvedInput := input.1, mergedGlobals, stepOutputs, params, seq,
                stepStarted }, input.2)

/-- Everything before the first invocation of an operation. -/
def FlowRunner.prepare (self : FlowRunner σ) (step : FlowStep) (seq : Nat)
    (loop : Option LoopCheckpoint) : RunM σ (LoopFrame × Bool) := do
  let stepStarted ← self.stepStart loop
  modifyRun fun run => { run with currentStepStarted := some stepStarted }
  let run ← getRun
  lift (self.frameOf step seq stepStarted run.stepOutputs run.params)

def FlowRunner.visitOp (self : FlowRunner σ) (step : FlowStep) (seq : Nat)
    (loop : Option LoopCheckpoint) : RunM σ Move := do
  let prepared ← self.prepare step seq loop
  if prepared.2 then do
    match ← attempt (self.operate prepared.1 loop) with
    | .ok completion => self.complete prepared.1 completion
    | .error exc => self.routeFailure step seq prepared.1.stepStarted exc
  else do
    modifyRun fun run => run.setTiming step.name {
      seq
      status := StepStatus.skipped.value
      condition := step.condition
      thenStep := some step.thenStep }
    return .goto step.thenStep (seq + 1)

/-- Visit a step. -/
def FlowRunner.visitStep (self : FlowRunner σ) (name : String) (seq : Nat)
    (loop : Option LoopCheckpoint) : RunM σ Move := do
  modifyRun fun run => run.enter name seq
  let step ← lift (self.item name (self.config.flowStep name))
  lift (checkContinuation step loop)
  if step.terminal then
    return .terminal step.reason
  else
    match step.sleepSec, step.waitFor with
    | some seconds, _ => self.visitSleep step seconds seq
    | none, some wait => self.visitWait step wait seq
    | none, none => self.visitOp step seq loop

/-! ## The end of a run -/

structure AuditRecord where
  requestId : String
  workflow : String
  identity : RunIdentity
  status : WorkflowStatus
  reason : Option String
  params : JsonObject
  steps : List (String × JsonObject)
  transitions : List TransitionRecord
  startedAt : String
  completedAt : String
  failures : List StepFailure
  result : Option JsonValue

def RunIdentity.dump (self : RunIdentity) : JsonObject :=
  dumpField "definition_digest" .str self.definitionDigest
    ++ dumpField "worker_deployment" .str self.workerDeployment
    ++ dumpField "worker_build_id" .str self.workerBuildId
    ++ dumpField "worker_artifact" id self.workerArtifact
    ++ dumpField "environment_snapshot_digest" .str self.environmentSnapshotDigest
    ++ dumpField "trigger_source" .str self.triggerSource
    ++ dumpField "trigger_name" .str self.triggerName
    ++ dumpField "source_identity_digest" .str self.sourceIdentityDigest
    ++ dumpField "correlation_identity_digest" .str self.correlationIdentityDigest
    ++ dumpField "scope_digest" .str self.scopeDigest
    ++ dumpField "execution_configuration" id self.executionConfiguration

/-- `error` and `failures` appear only after a failure, `result` only when it is configured. -/
def AuditRecord.dump (self : AuditRecord) : JsonObject :=
  [("audit_version", .int auditVersion), ("serialization_version", .int strictJsonVersion),
      ("request_id", .str self.requestId), ("workflow", .str self.workflow)]
    ++ self.identity.dump
    ++ [("status", .str self.status.value), ("reason", JsonValue.ofOption .str self.reason),
      ("params", .obj self.params), ("steps", .obj (timingsObject self.steps)),
      ("transitions", .arr (self.transitions.map TransitionRecord.modelDump)),
      ("started_at", .str self.startedAt), ("completed_at", .str self.completedAt)]
    ++ dumpField "error" StepFailure.modelDump self.failures.getLast?
    ++ dumpField "failures" (fun failures => .arr (failures.map StepFailure.modelDump))
      (if self.failures.isEmpty then none else some self.failures)
    ++ dumpField "result" id self.result

def finalStatus (reason : Option String) (failures : List StepFailure) : WorkflowStatus :=
  if reason.isSome then .terminated else if failures.isEmpty then .completed else .recovered

/-- Hold a payload against a contract, if one is declared. -/
def FlowRunner.validateContract (self : FlowRunner σ) (schema : Option JsonValue)
    (payload : JsonValue) (direction : String) : RunM σ Unit :=
  match schema with
  | none => pure ()
  | some schema => callExecutor
      (self.executor.validateContract schema payload.wire direction self.config.workflow)

/-- The configured result; a terminal with a reason may lack it. -/
def FlowRunner.resolveResult (self : FlowRunner σ) (reason : Option String)
    (stepOutputs params : JsonObject) : RunM σ (Option JsonValue) :=
  match self.config.result with
  | none => pure none
  | some reference =>
      match resolveReference reference stepOutputs params with
      | .error (.referenceResolution _) =>
          if reason.isNone then
            let value := reference.value
            definitionError (s!"Workflow result '{value}' is unavailable "
              ++ "at normal completion") .invariantViolation
          else pure none
      | .error exc => raise exc
      | .ok resolved => do
          self.validateContract self.config.outputSchema resolved "workflow output"
          lift (enforcePayloadBytes resolved "workflow.result" self.limits.workflowOutputBytes)
          return some resolved

def FlowRunner.finish (self : FlowRunner σ) (reason : Option String) : RunM σ AuditRecord := do
  modifyRun fun run => { run with activeEpisode := none }
  let completed ← self.now
  modifyRun fun run => { run with phase := .result }
  let run ← getRun
  let result ← self.resolveResult reason run.stepOutputs run.params
  let record : AuditRecord := {
    requestId := run.requestId
    workflow := self.config.workflow
    identity := self.identity
    status := finalStatus reason run.failures
    reason
    params := run.params
    steps := run.stepTimings
    transitions := run.transitions
    startedAt := run.startedAt
    completedAt := self.platform.iso completed
    failures := run.failures
    result }
  lift (enforcePayloadBytes (.obj record.dump) "workflow.audit" self.limits.auditRecordBytes)
  lift (enforcePayloadBytes (.obj record.dump) "workflow.output"
    self.limits.workflowOutputBytes)
  return record

/-! ## Positions and chains of runs -/

/-- One pass of the run loop: the next step and its number, or the record of the run. -/
def FlowRunner.pass (self : FlowRunner σ) (name : String) (seq : Nat)
    (loop : Option LoopCheckpoint) : RunM σ ((String × Nat) ⊕ AuditRecord) := do
  match ← self.visitStep name seq loop with
  | .terminal reason => return .inr (← self.finish reason)
  | .goto target nextSeq =>
      self.checkpointAfterStep target nextSeq
      match truthy target with
      | some next => return .inl (next, nextSeq)
      | none =>
          let workflow := self.config.workflow
          definitionError (s!"Workflow '{workflow}' exhausted control flow "
            ++ "without reaching an explicit terminal") .invariantViolation

/-- A run about to visit a step. -/
structure Position (σ : Type) where
  name : String
  seq : Nat
  loop : Option LoopCheckpoint
  machine : Machine σ

def restoreEpisode (checkpoint : FailureEpisodeCheckpoint) : FailureEpisode :=
  { primary := checkpoint.primary, handler := checkpoint.handler,
    handlerSteps := checkpoint.handlerSteps }

def RunState.restore (requestId : String) (checkpoint : RunnerCheckpoint) : RunState where
  requestId := requestId
  startedAt := checkpoint.startedAt
  params := checkpoint.params
  stepOutputs := checkpoint.stepOutputs
  stepTimings := checkpoint.stepTimings
  transitions := checkpoint.transitions
  failures := checkpoint.failures
  activeEpisode := checkpoint.activeEpisode.map restoreEpisode

/-- The position that a run started on a checkpoint stands at. -/
def Position.restored (requestId : String) (checkpoint : RunnerCheckpoint) (world : σ) :
    Position σ where
  name := checkpoint.nextStepName
  seq := checkpoint.nextSeq
  loop := checkpoint.loop
  machine := {
    run := RunState.restore requestId checkpoint
    invocations := checkpoint.invocations
    world }

/-- How a chain of runs ends. -/
inductive Ending (σ : Type) where
  | completed (record : AuditRecord) (machine : Machine σ)
  | failed (exc : EngineException) (machine : Machine σ)

/-- What a pass leads to: another position, of the same run or of the next one, or the end. -/
inductive Turn (σ : Type) where
  | advance (next : Position σ)
  | rollover (next : Position σ)
  | ended (ending : Ending σ)

/-- Carry a checkpoint over to a fresh history. -/
def rollover (checkpoint : RunnerCheckpoint) (machine : Machine σ) : Turn σ :=
  match RunnerCheckpoint.modelValidate checkpoint.modelDump.wire with
  | some carried => .rollover (.restored machine.run.requestId carried machine.world)
  | none => .ended (.failed (.python "ValidationError" "RunnerCheckpoint") machine)

def FlowRunner.turn (self : FlowRunner σ) (p : Position σ) : Turn σ :=
  match self.pass p.name p.seq p.loop p.machine with
  | .ok (.inl (name, seq)) machine => .advance { name, seq, loop := none, machine }
  | .ok (.inr record) machine => .ended (.completed record machine)
  | .error (.flowContinuation checkpoint _) machine => rollover checkpoint machine
  | .error (.engine exc) machine => .ended (.failed exc machine)

/-- Follow a chain of runs for at most the given number of passes. -/
def FlowRunner.chain (self : FlowRunner σ) : Nat → Position σ → Option (Ending σ)
  | 0, _ => none
  | fuel + 1, p =>
      match self.turn p with
      | .advance next | .rollover next => self.chain fuel next
      | .ended ending => some ending

/-- One pass that does not end the chain. -/
def FlowRunner.Advances (self : FlowRunner σ) (p q : Position σ) : Prop :=
  self.turn p = .advance q ∨ self.turn p = .rollover q

/-! ## The start of a run -/

def FlowRunner.buildParams (self : FlowRunner σ) (requestId : String)
    (triggerGlobals : JsonObject) : Except EngineException JsonObject := do
  let reprStr := self.platform.reprStr
  let params := Fields.set "request_id" (.str requestId) (Fields.update
    (self.config.params.map fun e => (e.1, JsonValue.str e.2)) triggerGlobals)
  let interpolated ← interpolateFields reprStr params params
  let params ← normalizeJsonObject self.limits.collectionItems interpolated "workflow.params"
  let unresolved ← findUnresolvedPlaceholders reprStr (.obj params)
  if unresolved = [] then .ok params
  else
    let names := pyRepr reprStr (.arr ((unresolved.dedup.mergeSort fun a b => a ≤ b).map .str))
    .error (.flowDefinition (s!"Workflow params contain unresolved placeholders {names}; "
      ++ "the trigger message must supply them in 'globals'") .missingParams)

/-- The part of a run before its first step. -/
def FlowRunner.start (self : FlowRunner σ) (triggerGlobals : JsonObject) :
    RunM σ (String × Nat) := do
  modifyRun fun run => { run with phase := .workflowInput }
  let globals ← lift (normalizeJsonObject self.limits.collectionItems triggerGlobals
    "trigger.globals")
  lift (enforcePayloadBytes (.obj globals) "workflow.trigger" self.limits.triggerPayloadBytes)
  self.validateContract self.config.inputSchema (.obj globals) "workflow input"
  modifyRun fun run => { run with phase := .parameters }
  let run ← getRun
  let params ← lift (self.buildParams run.requestId globals)
  modifyRun fun run => { run with params }
  match self.config.flow with
  | [] =>
      let workflow := self.config.workflow
      definitionError s!"Workflow '{workflow}' has no entry step" .invariantViolation
  | entry :: _ => return (entry.name, 0)

/-- `MAX_CORRELATION_VALUE_LENGTH` bounds the request id that a run works with. -/
def correlationRequestId (requestId : String) : String :=
  bounded requestId maxCorrelationValueLength

/-- The machine of a fresh run. -/
def FlowRunner.fresh (self : FlowRunner σ) (requestId : String) (world : σ) : Machine σ :=
  let (started, world) := self.executor.now world
  { run := {
      requestId := correlationRequestId requestId
      startedAt := self.platform.iso started }
    invocations := 0
    world }

/-- The first position of a chain of runs, or how its start failed. -/
def FlowRunner.begin (self : FlowRunner σ) (requestId : String) (triggerGlobals : JsonObject)
    (world : σ) : Turn σ :=
  match self.start triggerGlobals (self.fresh requestId world) with
  | .ok (name, seq) machine => .advance { name, seq, loop := none, machine }
  | .error exc machine => .ended (.failed exc.toEngine machine)

/-- A run that begins has come through `start`. -/
theorem FlowRunner.start_of_begin {self : FlowRunner σ} {start : Position σ} {requestId : String}
    {globals : JsonObject} {world : σ}
    (h : self.begin requestId globals world = .advance start) :
    self.start globals (self.fresh requestId world) = .ok (start.name, start.seq) start.machine ∧
      start.loop = none := by
  rw [begin] at h
  cases result : self.start globals (self.fresh requestId world) with
  | ok entry machine =>
      rw [result] at h
      obtain rfl := Turn.advance.inj h
      exact ⟨rfl, rfl⟩
  | error exc machine =>
      rw [result] at h
      cases h

end Justflow
