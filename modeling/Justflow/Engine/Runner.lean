import Justflow.Library.Digraph
import Justflow.Engine.Evaluator

/-!
# The flow runner

One run of a workflow: a program over the run state, the invocation counter and the world of the
executor.  The executor answers every outside call; what it is handed has crossed the wire, and
its answers are arbitrary.  Reading the history is a function of the place where it is asked,
so any set of places may ask for a rollover.

`visitStep` is one pass of the run loop up to the point where the next step is known;
`checkpointAfterStep` is what follows it.
-/

open Fields Program JsonValue

namespace Justflow

/-! ## What a run stands on -/

structure IsoDeadline where
  timestamp : FiniteFloat
  hasOffset : Bool

/-- Functions of the host language: its expression parser, printing, dates and float
arithmetic. -/
structure Platform where
  parse : ExpressionParser
  reprStr : String → String
  iso : FiniteFloat → String
  fromIso : String → Option IsoDeadline
  floatOfInt : Int → Option FiniteFloat
  floatSub : FiniteFloat → FiniteFloat → FiniteFloat
  elapsedMs : FiniteFloat → FiniteFloat → Int
  iso_ne : ∀ t, iso t ≠ ""

/-- What the executor may raise: an exception of the outside, or a size limit of its own. -/
inductive ExecutorFailure where
  | external (head : ExceptionLink) (causes : List ExceptionLink)
  | limit (kind : LimitKind) (boundary : String) (actual bound : Nat)
  deriving DecidableEq

def ExecutorFailure.toException : ExecutorFailure → EngineException
  | .external head causes => .external head causes
  | .limit kind boundary actual bound => .limitExceeded kind boundary actual bound

structure CacheDirective where
  resource : String
  key : JsonValue
  ttlSec : Option Nat
  deriving DecidableEq

structure StepInvocation where
  stepName : String
  serviceName : String
  action : String
  input : JsonValue
  globals : JsonObject
  cache : Option CacheDirective
  inputSchema : Option JsonValue
  outputSchema : Option JsonValue
  requiredResources : List String
  deriving DecidableEq

structure StepResult where
  data : JsonValue
  cache : Option String := none
  deriving DecidableEq

inductive WaitOutcome where
  | timedOut
  | received (payload : JsonValue)
  deriving DecidableEq

/-- The executor, over a world that every call may change.  `completes` chooses which of the
running invocations of a parallel chunk ends next. -/
structure Executor (σ : Type) where
  runStep : StepInvocation → σ → Except ExecutorFailure StepResult × σ
  runEvaluator : EvaluatorCondition → JsonValue → String → σ → Except ExecutorFailure Bool × σ
  waitForEvent : String → FiniteFloat → σ → Except ExecutorFailure WaitOutcome × σ
  sleep : Nat → σ → Except ExecutorFailure Unit × σ
  validateContract : JsonValue → JsonValue → String → String → σ →
    Except ExecutorFailure Unit × σ
  runSubworkflow : String → String → JsonObject → σ → Except ExecutorFailure JsonValue × σ
  completes : Nat → σ → Nat × σ
  now : σ → FiniteFloat × σ

/-- The places where a run reads its history. -/
inductive HistoryPoint where
  | afterStep (seq : Nat)
  | duringLoop (seq position : Nat)
  deriving DecidableEq

/-- The identity a run is recorded under, besides its request. -/
structure RunIdentity where
  definitionDigest : Option String := none
  workerDeployment : Option String := none
  workerBuildId : Option String := none
  workerArtifact : Option JsonValue := none
  environmentSnapshotDigest : Option String := none
  triggerSource : Option String := none
  triggerName : Option String := none
  sourceIdentityDigest : Option String := none
  correlationIdentityDigest : Option String := none
  scopeDigest : Option String := none
  executionConfiguration : Option JsonValue := none

structure FlowRunner (σ : Type) where
  config : WorkflowConfig
  services : List (String × JsonObject)
  executor : Executor σ
  platform : Platform
  limits : RuntimeLimits
  identity : RunIdentity := {}
  boundedExecutionEnabled : Bool := true
  timezoneAwareDeadlinesEnabled : Bool := true
  observeHistory : HistoryPoint → HistoryObservation

structure FailureEpisode where
  primary : FailureDetail
  handler : String
  handlerSteps : List String
  deriving DecidableEq

structure RunState where
  requestId : String
  startedAt : String
  params : JsonObject := []
  stepOutputs : JsonObject := []
  stepTimings : List (String × JsonObject) := []
  transitions : List TransitionRecord := []
  failures : List StepFailure := []
  activeEpisode : Option FailureEpisode := none
  phase : FailurePhase := .internal
  currentStepName : Option String := none
  currentStepStarted : Option FiniteFloat := none
  nextSeq : Nat := 0
  deriving DecidableEq

/-- The run state, the invocations counted so far, and the world of the executor. -/
structure Machine (σ : Type) where
  run : RunState
  invocations : Nat
  world : σ

/-- What leaves a program of the runner early: an exception, or the request for a fresh
history, which the host raises as an exception too. -/
inductive RunException where
  | engine (exc : EngineException)
  | flowContinuation (checkpoint : RunnerCheckpoint) (observation : HistoryObservation)
  deriving DecidableEq

/-- What an exception handler sees. -/
def RunException.toEngine : RunException → EngineException
  | .engine exc => exc
  | .flowContinuation _ _ =>
      .python "FlowContinuation" "Workflow execution requires a fresh Temporal history"

abbrev RunM (σ : Type) := EStateM RunException (Machine σ)

variable {σ : Type}

/-- Call the executor. -/
def callExecutor {α : Type} (op : σ → Except ExecutorFailure α × σ) : RunM σ α := fun m =>
  match op m.world with
  | (.ok a, world) => .ok a { m with world }
  | (.error failure, world) => .error (.engine failure.toException) { m with world }

def FlowRunner.now (self : FlowRunner σ) : RunM σ FiniteFloat := fun m =>
  let (t, world) := self.executor.now m.world
  .ok t { m with world }

def FlowRunner.completes (self : FlowRunner σ) (running : Nat) : RunM σ Nat := fun m =>
  let (choice, world) := self.executor.completes running m.world
  .ok choice { m with world }

def getRun : RunM σ RunState := fun m => .ok m.run m

def modifyRun (f : RunState → RunState) : RunM σ Unit := fun m =>
  .ok () { m with run := f m.run }

def getInvocations : RunM σ Nat := fun m => .ok m.invocations m

def countInvocation : RunM σ Nat := fun m =>
  .ok (m.invocations + 1) { m with invocations := m.invocations + 1 }

def raise {α : Type} (e : EngineException) : RunM σ α :=
  throw (.engine e)

/-- Run a pure computation that may raise. -/
def lift {α : Type} (x : Except EngineException α) : RunM σ α :=
  match x with
  | .ok a => pure a
  | .error e => raise e

/-- A constructor of a validated model refused. -/
def validated {α : Type} (x : Except String α) : RunM σ α :=
  match x with
  | .ok a => pure a
  | .error detail => raise (.python "ValidationError" detail)

def definitionError {α : Type} (message : String) (kind : FlowErrorKind) : RunM σ α :=
  raise (.flowDefinition message kind)

/-- A failed pure computation, raised again as a resolution error of the step. -/
def asResolutionError {α : Type} (stepName : String) (x : Except EngineException α) :
    Except EngineException α :=
  match x with
  | .error (.referenceResolution text) =>
      .error (.flowDefinition s!"Step '{stepName}': {text}" .resolutionError)
  | .error (.conditionEvaluation detail) =>
      let text := (EngineException.conditionEvaluation detail).text
      .error (.flowDefinition s!"Step '{stepName}': {text}" .resolutionError)
  | other => other

/-! ## Run state updates -/

def RunState.setTiming (self : RunState) (name : String) (entry : StepAuditEntry) : RunState :=
  { self with stepTimings := Fields.set name entry.dump self.stepTimings }

def RunState.addTransition (self : RunState) (transition : TransitionRecord) : RunState :=
  { self with transitions := self.transitions ++ [transition] }

/-- What entering a step sets; an episode ends on leaving the region of its handler. -/
def RunState.enter (self : RunState) (name : String) (seq : Nat) : RunState :=
  { self with
    phase := .step
    currentStepName := some name
    currentStepStarted := none
    nextSeq := seq
    activeEpisode := self.activeEpisode.filter fun episode => episode.handlerSteps.contains name }

/-! ## Handler regions -/

/-- The step of a name; a later declaration hides an earlier one. -/
def WorkflowConfig.flowStep (self : WorkflowConfig) (name : String) : Option FlowStep :=
  self.flow.reverse.find? fun step => step.name == name

/-- `branch.then or branch.default`. -/
def OnResultBranch.target (self : OnResultBranch) : Option String :=
  match truthy self.thenStep with
  | some name => some name
  | none => self.default

def FlowStep.normalSuccessors (self : FlowStep) : List String :=
  self.thenStep.toList ++ self.branches.filterMap OnResultBranch.target
    ++ (self.waitFor.bind WaitForConfig.onTimeout).toList ++ self.onExhausted.toList

/-- The normal successors of a declared step. -/
def WorkflowConfig.successors (self : WorkflowConfig) (name : String) : List String :=
  match self.flowStep name with
  | some step => step.normalSuccessors
  | none => []

def WorkflowConfig.names (self : WorkflowConfig) : List String :=
  self.flow.map FlowStep.name

/-- A worklist over the declared steps, from the given entries. -/
def WorkflowConfig.walk (self : WorkflowConfig) (allowed : String → Bool)
    (next : String → List String) (entries : List String) : List String :=
  Digraph.closure allowed next (Digraph.workload next self.names entries []) entries []

def WorkflowConfig.reachableFromEntry (self : WorkflowConfig) : List String :=
  self.walk (fun name => (self.flowStep name).isSome) self.successors
    ((self.flow.head?.map FlowStep.name).toList)

/-- The steps a handler runs through before it is back in the normal flow. -/
def WorkflowConfig.handlerRegion (self : WorkflowConfig) (entry : String) : List String :=
  let normal := self.reachableFromEntry
  self.walk (fun name => (self.flowStep name).isSome && (name == entry || !normal.contains name))
    (fun name => if normal.contains name then [] else self.successors name) [entry]

/-! ## Checkpoints -/

def saveEpisode (episode : Option FailureEpisode) :
    Except String (Option FailureEpisodeCheckpoint) :=
  match episode with
  | none => .ok none
  | some episode =>
      some <$> FailureEpisodeCheckpoint.create episode.primary episode.handler
        episode.handlerSteps

def buildCheckpoint (run : RunState) (invocations : Nat) (nextStepName : String) (nextSeq : Nat)
    (loop : Option LoopCheckpoint) : Except String RunnerCheckpoint := do
  let activeEpisode ← saveEpisode run.activeEpisode
  RunnerCheckpoint.create run.startedAt run.params run.stepOutputs run.stepTimings
    run.transitions run.failures activeEpisode nextStepName nextSeq invocations loop

def FlowRunner.wantsFreshHistory (self : FlowRunner σ) (observation : HistoryObservation) : Bool :=
  observation.serverSuggested || decide (self.limits.historyEvents ≤ observation.events)
    || decide (self.limits.historyBytes ≤ observation.bytes)

def FlowRunner.enforceCheckpoint (self : FlowRunner σ) (point : HistoryPoint)
    (checkpoint : RunnerCheckpoint) : RunM σ Unit := do
  lift (enforcePayloadBytes checkpoint.modelDump "workflow.continuation.state"
    self.limits.workflowStateBytes)
  let observation := self.observeHistory point
  if self.wantsFreshHistory observation then
    throw (.flowContinuation checkpoint observation)
  else pure ()

/-- Build a checkpoint of the run as it is, and hold it against size and history. -/
def FlowRunner.checkpointAt (self : FlowRunner σ) (point : HistoryPoint) (nextStepName : String)
    (nextSeq : Nat) (loop : Option LoopCheckpoint) : RunM σ Unit := do
  let run ← getRun
  let invocations ← getInvocations
  let checkpoint ← validated (buildCheckpoint run invocations nextStepName nextSeq loop)
  self.enforceCheckpoint point checkpoint

def FlowRunner.checkpointAfterStep (self : FlowRunner σ) (nextStepName : Option String)
    (nextSeq : Nat) : RunM σ Unit :=
  match nextStepName with
  | none => pure ()
  | some name =>
      if self.boundedExecutionEnabled then
        self.checkpointAt (.afterStep nextSeq) name nextSeq none
      else pure ()

def FlowRunner.checkpointDuringLoop (self : FlowRunner σ) (stepName : String) (seq : Nat)
    (loop : Except String LoopCheckpoint) : RunM σ Unit := do
  let loop ← validated loop
  if self.boundedExecutionEnabled then
    self.checkpointAt (.duringLoop seq loop.position) stepName seq (some loop)
  else pure ()

/-! ## One invocation -/

def FlowRunner.normalize (self : FlowRunner σ) (value : JsonValue) (path : String) :
    Except EngineException JsonValue :=
  normalizeJsonValue self.limits.collectionItems value path 0

/-- The result of a child workflow is the result in its record, if the record has one. -/
def childResult (record : JsonValue) : JsonValue :=
  match record with
  | .obj fields => (fields.lookup "result").getD record
  | _ => record

def FlowRunner.cacheDirective (self : FlowRunner σ) (cache : Option CacheConfig)
    (params : JsonObject) : Except EngineException (Option CacheDirective) :=
  match cache with
  | none => .ok none
  | some config => do
      let key ← interpolateParams self.platform.reprStr params (.str config.key)
      return some { resource := config.resource, key := key.wire, ttlSec := config.ttlSec }

/-- Execute one step-definition invocation: service call or sub-workflow. -/
def FlowRunner.invoke (self : FlowRunner σ) (stepDef : StepDefinition) (stepName : String)
    (resolvedInput : JsonValue) (mergedGlobals params : JsonObject) : RunM σ StepResult := do
  let invocations ← countInvocation
  lift (enforceLimit invocations self.limits.totalInvocations .totalInvocations
    "workflow.step_invocations")
  match stepDef.target with
  | .workflow workflow =>
      let childGlobals := if resolvedInput = .null then mergedGlobals
        else Fields.set "input" resolvedInput mergedGlobals
      let rawChildRecord ← callExecutor
        (self.executor.runSubworkflow workflow stepName (wireObject childGlobals))
      let childRecord ← lift
        (self.normalize rawChildRecord s!"steps.{stepName}.child_record")
      return { data := childResult childRecord }
  | .service service action =>
      let cache ← lift (self.cacheDirective stepDef.cache params)
      let result ← callExecutor (self.executor.runStep {
        stepName, serviceName := service, action
        input := resolvedInput.wire
        globals := wireObject mergedGlobals
        cache
        inputSchema := stepDef.inputSchema
        outputSchema := stepDef.outputSchema
        requiredResources := stepDef.requiredResources })
      let data ← lift (self.normalize result.data s!"steps.{stepName}.output")
      return { data, cache := result.cache }

/-! ## Loops -/

def rejectLoopCache (step : FlowStep) (stepDef : StepDefinition) (loopKind : String) :
    Except EngineException Unit :=
  match stepDef.cache with
  | none => .ok ()
  | some cache =>
      let name := step.name
      let op := optionText step.op
      let resource := cache.resource
      let key := cache.key
      .error (.flowDefinition (s!"Step '{name}' uses operation '{op}' with {loopKind}, "
        ++ s!"but that operation declares cache resource='{resource}' key='{key}'")
        .unsafeLoopCache)

/-- What the steps of a loop read but do not change. -/
structure LoopFrame where
  step : FlowStep
  stepDef : StepDefinition
  resolvedInput : JsonValue
  mergedGlobals : JsonObject
  stepOutputs : JsonObject
  params : JsonObject
  seq : Nat
  stepStarted : FiniteFloat

structure UntilOutcome where
  result : JsonValue
  attempts : Nat
  satisfied : Bool
  deriving DecidableEq

def FlowRunner.evaluate (self : FlowRunner σ) (condition : String) (data : JsonValue)
    (stepOutputs params : JsonObject) : Except EngineException Bool :=
  evaluateCondition self.platform.parse self.platform.reprStr condition data stepOutputs params

/-- The pause between two attempts. -/
def FlowRunner.pause (self : FlowRunner σ) (step : FlowStep) (attempt maxIterations : Nat) :
    RunM σ Unit :=
  match step.intervalSec with
  | none => pure ()
  | some seconds =>
      if attempt < maxIterations ∧ seconds ≠ 0 then callExecutor (self.executor.sleep seconds)
      else pure ()

/-- The attempts that remain, after the completed ones. -/
def FlowRunner.untilAttempts (self : FlowRunner σ) (frame : LoopFrame) (condition : String)
    (maxIterations : Nat) : Nat → Nat → JsonValue → RunM σ UntilOutcome
  | 0, attemptsCompleted, result =>
      pure { result, attempts := attemptsCompleted, satisfied := false }
  | remaining + 1, attemptsCompleted, _ => do
      let step := frame.step
      let name := step.name
      let attempt := attemptsCompleted + 1
      let stepResult ← self.invoke frame.stepDef s!"{name}#{attempt}" frame.resolvedInput
        frame.mergedGlobals frame.params
      let result := stepResult.data
      let satisfied ← lift (asResolutionError name
        (self.evaluate condition result frame.stepOutputs frame.params))
      if satisfied then return { result, attempts := attempt, satisfied := true }
      else do
        self.pause step attempt maxIterations
        self.checkpointDuringLoop name frame.seq (LoopCheckpoint.untilLoop <$>
          UntilCheckpoint.create name frame.stepStarted attempt result)
        self.untilAttempts frame condition maxIterations remaining attempt result

/-- The condition and the bound of an until loop, checked against limits and progress. -/
def FlowRunner.untilBounds (self : FlowRunner σ) (step : FlowStep) (stepDef : StepDefinition)
    (attemptsCompleted : Nat) : Except EngineException (String × Nat) := do
  let name := step.name
  rejectLoopCache step stepDef "until"
  match step.untilCondition, step.maxIterations with
  | some condition, some maxIterations =>
      enforceLimit maxIterations self.limits.loopAttempts .loopAttempts
        s!"steps.{name}.max_iterations"
      if maxIterations < attemptsCompleted then
        .error (.flowDefinition s!"Step '{name}' has an invalid until continuation attempt"
          .invariantViolation)
      else .ok (condition, maxIterations)
  | _, _ =>
      .error (.flowDefinition s!"Step '{name}' has an invalid until-loop declaration"
        .invariantViolation)

/-- Re-execute the step until its `until` expression is true. -/
def FlowRunner.runUntil (self : FlowRunner σ) (frame : LoopFrame)
    (continuation : Option UntilCheckpoint) : RunM σ UntilOutcome := do
  let attemptsCompleted := (continuation.map UntilCheckpoint.attemptsCompleted).getD 0
  let result := (continuation.map UntilCheckpoint.lastResult).getD .null
  let bounds ← lift (self.untilBounds frame.step frame.stepDef attemptsCompleted)
  self.untilAttempts frame bounds.1 bounds.2 (bounds.2 - attemptsCompleted) attemptsCompleted
    result

/-- The items of a `for_each`, each under its key. -/
structure IterationItems where
  entries : List (IterationKey × JsonValue)
  isDict : Bool

/-- The value a `for_each` goes over. -/
def iterationSource (forEachRef : ReferencePath) (resolvedInput : JsonValue)
    (stepOutputs params : JsonObject) : Except EngineException JsonValue :=
  if forEachRef.root = "input" then
    if forEachRef.path = [] then .ok resolvedInput
    else resolveJsonPath resolvedInput forEachRef.path "input"
  else resolveReference forEachRef stepOutputs params

def resolveIterationItems (stepName : String) (forEachRef : ReferencePath)
    (resolvedInput : JsonValue) (stepOutputs params : JsonObject) :
    Except EngineException IterationItems :=
  let ref := forEachRef.value
  let unresolved (e : EngineException) : EngineException :=
    let text := e.text
    .flowDefinition s!"Step '{stepName}': cannot resolve for_each '{ref}': {text}"
      .resolutionError
  match iterationSource forEachRef resolvedInput stepOutputs params with
  | .ok (.arr items) =>
      .ok { entries := items.zipIdx.map fun e => (.index e.2, e.1), isDict := false }
  | .ok (.obj fields) =>
      .ok { entries := fields.map fun e => (.name e.1, e.2), isDict := true }
  | .ok other =>
      let typeName := pyTypeName other
      .error (.flowDefinition (s!"Step '{stepName}': for_each '{ref}' resolved to "
        ++ s!"{typeName}, expected a list or dict") .resolutionError)
  | .error (.dataNormalization path detail) => .error (unresolved (.dataNormalization path detail))
  | .error (.dataPath path detail) => .error (unresolved (.dataPath path detail))
  | .error (.referenceResolution text) => .error (unresolved (.referenceResolution text))
  | .error e => .error e

/-- Cut a list into pieces of the given length; the last one may be shorter. -/
def chunks {α : Type} (size : Nat) : Nat → List α → List (List α)
  | 0, _ => []
  | _, [] => []
  | fuel + 1, items => items.take size :: chunks size fuel (items.drop size)

/-- `_append_iteration_results`, for one outcome. -/
def iterationResult (step : FlowStep) (strategy : IterationFailStrategy) (key : IterationKey)
    (outcome : Except EngineException JsonValue) : IterationResult :=
  match outcome with
  | .ok value => .included key value
  | .error exc =>
      match strategy with
      | .collect =>
          let name := step.name
          let text := key.text
          let failure := classifyFailure exc .step s!"{name}[{text}]" (some .stepFailed)
          .included key (IterationFailure.modelDump
            { code := failure.causeCode, message := failure.message })
      | _ => .omitted key

/-- Whether an outcome ends the loop instead of being recorded. -/
def stopsLoop (strategy : IterationFailStrategy) (exc : EngineException) : Bool :=
  isCancellation exc || strategy == .stop

/-- Raise the failure of an item that ends the loop. -/
def raiseStopping (strategy : IterationFailStrategy) (outcome : Except EngineException JsonValue) :
    RunM σ Unit :=
  match outcome with
  | .ok _ => pure ()
  | .error exc => if stopsLoop strategy exc then raise exc else pure ()

abbrev ItemOutcome := IterationKey × Except EngineException JsonValue

/-- What one item ended with. -/
def outcomeOf {α : Type} (x : RunM σ α) : RunM σ (Except EngineException α) := do
  return (← attempt x).mapError RunException.toEngine

/-- Start waiting items, in order, while fewer than `parallelism` are running. -/
def startItems (runOne : IterationKey × JsonValue → RunM σ JsonValue) (parallelism : Nat) :
    List (Nat × IterationKey × JsonValue) → List (Nat × ItemOutcome) →
      RunM σ (List (Nat × ItemOutcome) × List (Nat × IterationKey × JsonValue))
  | [], running => pure (running, [])
  | item :: waiting, running =>
      if running.length < parallelism then do
        let outcome ← outcomeOf (runOne item.2)
        startItems runOne parallelism waiting (running ++ [(item.1, item.2.1, outcome)])
      else pure (running, item :: waiting)

/-- Run a chunk on a semaphore.  The executor says which running item ends next; the first item
to end with a failure that is not recorded ends the chunk, and the items that wait never start. -/
def FlowRunner.runTasks (self : FlowRunner σ)
    (runOne : IterationKey × JsonValue → RunM σ JsonValue) (strategy : IterationFailStrategy)
    (parallelism : Nat) :
    Nat → List (Nat × IterationKey × JsonValue) → List (Nat × ItemOutcome) →
      List (Nat × ItemOutcome) → RunM σ (List (Nat × ItemOutcome))
  | 0, _, _, ended => pure ended
  | fuel + 1, waiting, running, ended => do
      let (running, waiting) ← startItems runOne parallelism waiting running
      let choice ← self.completes running.length
      match running[choice % running.length]? with
      | none => pure ended
      | some task =>
          raiseStopping strategy task.2.2
          self.runTasks runOne strategy parallelism fuel waiting
            (running.eraseIdx (choice % running.length)) (ended ++ [task])

/-- `asyncio.gather`: the outcomes in the order of the items. -/
def gathered (count : Nat) (ended : List (Nat × ItemOutcome)) : List ItemOutcome :=
  (List.range count).filterMap fun position => ended.lookup position

/-- Run items one after the other. -/
def runSequential (runOne : IterationKey × JsonValue → RunM σ JsonValue)
    (strategy : IterationFailStrategy) :
    List (IterationKey × JsonValue) → RunM σ (List ItemOutcome)
  | [] => pure []
  | item :: rest => do
      let outcome ← outcomeOf (runOne item)
      raiseStopping strategy outcome
      let outcomes ← runSequential runOne strategy rest
      return (item.1, outcome) :: outcomes

/-- The outcomes of one batch: a chunk of a parallel step, or one item of a sequential one. -/
def FlowRunner.runBatch (self : FlowRunner σ)
    (runOne : IterationKey × JsonValue → RunM σ JsonValue) (strategy : IterationFailStrategy)
    (parallelism : Option Nat) (batch : List (IterationKey × JsonValue)) :
    RunM σ (List ItemOutcome) := do
  match parallelism with
  | none => runSequential runOne strategy batch
  | some bound =>
      let ended ← self.runTasks runOne strategy bound batch.length
        (batch.zipIdx.map fun e => (e.2, e.1)) [] []
      return gathered batch.length ended

structure IterationProgress where
  processed : List IterationResult
  failed : Nat
  deriving DecidableEq

/-- The batches that remain, each followed by a checkpoint. -/
def FlowRunner.runBatches (self : FlowRunner σ) (frame : LoopFrame)
    (runOne : IterationKey × JsonValue → RunM σ JsonValue) (strategy : IterationFailStrategy)
    (parallelism : Option Nat) :
    List (List (IterationKey × JsonValue)) → Nat → IterationProgress → RunM σ IterationProgress
  | [], _, progress => pure progress
  | batch :: rest, offset, progress => do
      let outcomes ← self.runBatch runOne strategy parallelism batch
      let processed := progress.processed
        ++ outcomes.map fun o => iterationResult frame.step strategy o.1 o.2
      let failed := progress.failed + (outcomes.filter fun o => o.2.toOption.isNone).length
      let nextOffset := offset + batch.length
      self.checkpointDuringLoop frame.step.name frame.seq (LoopCheckpoint.iteration <$>
        IterationCheckpoint.create frame.step.name frame.stepStarted nextOffset processed failed)
      self.runBatches frame runOne strategy parallelism rest nextOffset { processed, failed }

/-- The values of the included results, in the shape of the source. -/
def iterationValue (isDict : Bool) (processed : List IterationResult) : JsonValue :=
  if isDict then
    .obj (processed.foldl (fun fields entry =>
      match entry with
      | .included key value => Fields.set key.text value fields
      | .omitted _ => fields) [])
  else
    .arr (processed.filterMap fun entry =>
      match entry with
      | .included _ value => some value
      | .omitted _ => none)

structure IterationOutcome where
  result : JsonValue
  itemsTotal : Nat
  itemsFailed : Nat
  deriving DecidableEq

def FlowRunner.runOne (self : FlowRunner σ) (frame : LoopFrame)
    (entry : IterationKey × JsonValue) : RunM σ JsonValue := do
  let name := frame.step.name
  let idx := entry.1.text
  let itemInput := if frame.step.asVar.isSome then entry.2 else frame.resolvedInput
  let itemGlobals := match frame.step.asVar with
    | some var => Fields.set var entry.2 frame.mergedGlobals
    | none => frame.mergedGlobals
  let result ← self.invoke frame.stepDef s!"{name}[{idx}]" itemInput itemGlobals frame.params
  return result.data

/-- The length of a batch: one item, or a chunk of a parallel step. -/
def FlowRunner.batchSize (self : FlowRunner σ) (step : FlowStep) (count : Nat) : Nat :=
  if step.parallel then
    if self.boundedExecutionEnabled then self.limits.fanoutChunkItems
    else if count = 0 then self.limits.fanoutChunkItems else count
  else 1

/-- The semaphore of a parallel step. -/
def FlowRunner.iterationParallelism (self : FlowRunner σ) (step : FlowStep) :
    Except EngineException (Option Nat) :=
  let name := step.name
  if step.parallel then
    match step.maxConcurrency with
    | none =>
        .error (.flowDefinition s!"Parallel step '{name}' has no max_concurrency"
          .invariantViolation)
    | some bound => do
        enforceLimit bound self.limits.parallelism .parallelism s!"steps.{name}.max_concurrency"
        return some bound
  else .ok none

/-- The progress to go on from; it has to fit the items as they resolve now. -/
def checkProgress (step : FlowStep) (items : IterationItems) (processed : List IterationResult)
    (nextOffset : Nat) : Except EngineException Unit :=
  let name := step.name
  if processed.length ≠ nextOffset ∨ items.entries.length < nextOffset then
    .error (.flowDefinition s!"Step '{name}' has an invalid iteration continuation offset"
      .invariantViolation)
  else if processed.map IterationResult.key ≠ (items.entries.take nextOffset).map Prod.fst then
    .error (.flowDefinition s!"Step '{name}' iteration continuation does not match its input"
      .invariantViolation)
  else .ok ()

/-- Everything an iteration settles before its first batch. -/
def FlowRunner.iterationSetup (self : FlowRunner σ) (frame : LoopFrame)
    (forEachRef : ReferencePath) (processed : List IterationResult) (nextOffset : Nat) :
    Except EngineException (Option Nat × IterationItems) := do
  let step := frame.step
  let name := step.name
  rejectLoopCache step frame.stepDef "for_each"
  let parallelism ← self.iterationParallelism step
  let items ← resolveIterationItems name forEachRef frame.resolvedInput frame.stepOutputs
    frame.params
  enforceLimit items.entries.length self.limits.fanoutItems .fanoutItems s!"steps.{name}.for_each"
  checkProgress step items processed nextOffset
  return (parallelism, items)

def FlowRunner.runIteration (self : FlowRunner σ) (frame : LoopFrame) (forEachRef : ReferencePath)
    (continuation : Option IterationCheckpoint) : RunM σ IterationOutcome := do
  let processed := (continuation.map IterationCheckpoint.results).getD []
  let failed := (continuation.map IterationCheckpoint.failed).getD 0
  let nextOffset := (continuation.map IterationCheckpoint.nextOffset).getD 0
  let setup ← lift (self.iterationSetup frame forEachRef processed nextOffset)
  let entries := setup.2.entries
  let remaining := entries.drop nextOffset
  let progress ← self.runBatches frame (self.runOne frame)
    (frame.step.onIterationFail.getD .stop) setup.1
    (chunks (self.batchSize frame.step entries.length) remaining.length remaining) nextOffset
    { processed, failed }
  return {
    result := iterationValue setup.2.isDict progress.processed
    itemsTotal := entries.length
    itemsFailed := progress.failed }

end Justflow
