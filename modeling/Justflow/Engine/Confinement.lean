import Justflow.Engine.Execution

/-!
# Which invocations a run makes

A run makes only permitted invocations when no executor that agrees on these can tell itself from
another: what `runStep` does with the rest never matters.  It is enough that the parameters merged
for a step are permitted, also after an iteration has set its variable.
-/

open Fields Program JsonValue

namespace Justflow

variable {σ : Type}

/-- The name of the flow step that an invocation is made for: the text before an index. -/
def invokingStep (stepName : String) : String :=
  String.ofList (stepName.toList.takeWhile fun c => c ≠ '[' && c ≠ '#')

/-- A step name that no index can be mistaken in. -/
def Indexless (name : String) : Prop :=
  '[' ∉ name.toList ∧ '#' ∉ name.toList

instance (name : String) : Decidable (Indexless name) :=
  inferInstanceAs (Decidable (_ ∧ _))

theorem takeWhile_indexless {name : String} (plain : Indexless name) (rest : List Char) :
    (name.toList ++ rest).takeWhile (fun c => c ≠ '[' && c ≠ '#') =
      name.toList ++ rest.takeWhile fun c => c ≠ '[' && c ≠ '#' := by
  apply List.takeWhile_append_of_pos
  intro c hc
  have bracket : c ≠ '[' := fun h => plain.1 (h ▸ hc)
  have hash : c ≠ '#' := fun h => plain.2 (h ▸ hc)
  simp [bracket, hash]

theorem invokingStep_self {name : String} (plain : Indexless name) : invokingStep name = name := by
  have whole := takeWhile_indexless plain []
  rw [List.append_nil, List.takeWhile_nil, List.append_nil] at whole
  rw [invokingStep, whole, String.ofList_toList]

theorem invokingStep_item {name : String} (plain : Indexless name) (index : String) :
    invokingStep s!"{name}[{index}]" = name := by
  have text : (s!"{name}[{index}]").toList = name.toList ++ '[' :: (index.toList ++ [']']) := by
    simp [toString]
  rw [invokingStep, text, takeWhile_indexless plain]
  simp

theorem invokingStep_attempt {name : String} (plain : Indexless name) (attempt : Nat) :
    invokingStep s!"{name}#{attempt}" = name := by
  have text : (s!"{name}#{attempt}").toList = name.toList ++ '#' :: (toString attempt).toList := by
    simp [toString]
  rw [invokingStep, text, takeWhile_indexless plain]
  simp

/-- The runner whose executor runs steps otherwise. -/
def FlowRunner.withRunStep (self : FlowRunner σ)
    (runStep : StepInvocation → σ → Except ExecutorFailure StepResult × σ) : FlowRunner σ :=
  { self with executor := { self.executor with runStep } }

/-- Which parameters a flow step may be invoked with. -/
abbrev Permission := String → JsonObject → Prop

/-- The two ways to run a step agree on what is permitted. -/
def AgreesOn (permitted : Permission)
    (first second : StepInvocation → σ → Except ExecutorFailure StepResult × σ) : Prop :=
  ∀ invocation, permitted (invokingStep invocation.stepName) invocation.globals →
    first invocation = second invocation

/-- Whatever an operation is invoked with on this frame is permitted. -/
structure FramePermitted (permitted : Permission) (frame : LoopFrame) : Prop where
  plain : Indexless frame.step.name
  merged : permitted frame.step.name (wireObject frame.mergedGlobals)
  items : ∀ reference var value, frame.step.forEach = some reference →
    frame.step.asVar = some var →
      permitted frame.step.name (wireObject (Fields.set var value frame.mergedGlobals))

/-- Every operation of the configuration is prepared with permitted parameters. -/
def FlowRunner.PreparesPermitted (self : FlowRunner σ) (permitted : Permission) : Prop :=
  ∀ step name seq stepStarted stepOutputs params prepared, self.config.flowStep name = some step →
    self.frameOf step seq stepStarted stepOutputs params = .ok prepared →
      FramePermitted permitted prepared.1

section Agreement

variable {self : FlowRunner σ} {permitted : Permission}
  {runStep : StepInvocation → σ → Except ExecutorFailure StepResult × σ}
  {frame : LoopFrame}

theorem invoke_withRunStep (agrees : AgreesOn permitted runStep self.executor.runStep)
    {stepDef : StepDefinition} {stepName : String} {input : JsonValue} {globals params : JsonObject}
    (h : permitted (invokingStep stepName) (wireObject globals)) :
    (self.withRunStep runStep).invoke stepDef stepName input globals params =
      self.invoke stepDef stepName input globals params := by
  have same : ∀ service action cache, runStep {
      stepName, serviceName := service, action
      input := input.wire
      globals := wireObject globals
      cache
      inputSchema := stepDef.inputSchema
      outputSchema := stepDef.outputSchema
      requiredResources := stepDef.requiredResources } = self.executor.runStep {
      stepName, serviceName := service, action
      input := input.wire
      globals := wireObject globals
      cache
      inputSchema := stepDef.inputSchema
      outputSchema := stepDef.outputSchema
      requiredResources := stepDef.requiredResources } :=
    fun service action cache => agrees _ h
  rw [FlowRunner.invoke, FlowRunner.invoke]
  cases stepDef.target with
  | workflow workflow => rfl
  | service service action =>
      simp only [FlowRunner.withRunStep, same]
      rfl

theorem untilAttempts_withRunStep (agrees : AgreesOn permitted runStep self.executor.runStep)
    (hframe : FramePermitted permitted frame) {condition : String}
    {maxIterations remaining attemptsCompleted : Nat} {result : JsonValue} :
    (self.withRunStep runStep).untilAttempts frame condition maxIterations remaining
        attemptsCompleted result =
      self.untilAttempts frame condition maxIterations remaining attemptsCompleted result := by
  induction remaining generalizing attemptsCompleted result with
  | zero => rfl
  | succ remaining ih =>
      have invoked : ∀ attempt : Nat, (self.withRunStep runStep).invoke frame.stepDef
          s!"{frame.step.name}#{attempt}" frame.resolvedInput frame.mergedGlobals frame.params =
          self.invoke frame.stepDef s!"{frame.step.name}#{attempt}" frame.resolvedInput
            frame.mergedGlobals frame.params := by
        intro attempt
        apply invoke_withRunStep agrees
        rw [invokingStep_attempt hframe.plain]
        exact hframe.merged
      rw [FlowRunner.untilAttempts, FlowRunner.untilAttempts]
      simp only [invoked, ih]
      rfl

theorem runOne_withRunStep (agrees : AgreesOn permitted runStep self.executor.runStep)
    (hframe : FramePermitted permitted frame) {reference : ReferencePath}
    (looped : frame.step.forEach = some reference) :
    (self.withRunStep runStep).runOne frame = self.runOne frame := by
  funext entry
  have item : ∀ globals, permitted frame.step.name (wireObject globals) → ∀ input,
      (self.withRunStep runStep).invoke frame.stepDef s!"{frame.step.name}[{entry.1.text}]" input
          globals frame.params =
        self.invoke frame.stepDef s!"{frame.step.name}[{entry.1.text}]" input globals
          frame.params := by
    intro globals allowed input
    apply invoke_withRunStep agrees
    rw [invokingStep_item hframe.plain]
    exact allowed
  rw [FlowRunner.runOne, FlowRunner.runOne]
  cases hvar : frame.step.asVar with
  | none => simp only [item _ hframe.merged]
  | some var => simp only [item _ (hframe.items reference var entry.2 looped hvar)]

theorem runTasks_withRunStep {runOne : IterationKey × JsonValue → RunM σ JsonValue}
    {strategy : IterationFailStrategy} {parallelism fuel : Nat}
    {waiting : List (Nat × IterationKey × JsonValue)} {running ended : List (Nat × ItemOutcome)} :
    (self.withRunStep runStep).runTasks runOne strategy parallelism fuel waiting running ended =
      self.runTasks runOne strategy parallelism fuel waiting running ended := by
  induction fuel generalizing waiting running ended with
  | zero => rfl
  | succ fuel ih =>
      rw [FlowRunner.runTasks, FlowRunner.runTasks]
      simp only [ih]
      rfl

theorem runBatches_withRunStep {runOne : IterationKey × JsonValue → RunM σ JsonValue}
    {strategy : IterationFailStrategy} {parallelism : Option Nat}
    {batches : List (List (IterationKey × JsonValue))} {offset : Nat}
    {progress : IterationProgress} :
    (self.withRunStep runStep).runBatches frame runOne strategy parallelism batches offset progress =
      self.runBatches frame runOne strategy parallelism batches offset progress := by
  induction batches generalizing offset progress with
  | nil => rfl
  | cons batch rest ih =>
      rw [FlowRunner.runBatches, FlowRunner.runBatches]
      simp only [ih, FlowRunner.runBatch, runTasks_withRunStep]
      rfl

theorem operate_withRunStep (agrees : AgreesOn permitted runStep self.executor.runStep)
    (hframe : FramePermitted permitted frame) {loop : Option LoopCheckpoint} :
    (self.withRunStep runStep).operate frame loop = self.operate frame loop := by
  have called : (self.withRunStep runStep).invoke frame.stepDef frame.step.name
      frame.resolvedInput frame.mergedGlobals frame.params =
      self.invoke frame.stepDef frame.step.name frame.resolvedInput frame.mergedGlobals
        frame.params := by
    apply invoke_withRunStep agrees
    rw [invokingStep_self hframe.plain]
    exact hframe.merged
  rw [FlowRunner.operate, FlowRunner.operate]
  cases looped : frame.step.forEach with
  | some reference =>
      simp only [FlowRunner.runIteration, runOne_withRunStep agrees hframe looped,
        runBatches_withRunStep]
      rfl
  | none =>
      simp only [called, FlowRunner.runUntil, untilAttempts_withRunStep agrees hframe]
      rfl

theorem chooseBranch_withRunStep {step : FlowStep} {result : JsonValue}
    {stepOutputs params : JsonObject} {branches : List OnResultBranch} :
    (self.withRunStep runStep).chooseBranch step result stepOutputs params branches =
      self.chooseBranch step result stepOutputs params branches := by
  induction branches with
  | nil => rfl
  | cons branch rest ih =>
      rw [FlowRunner.chooseBranch, FlowRunner.chooseBranch]
      simp only [ih]
      rfl

theorem nextStep_withRunStep {step : FlowStep} {result : JsonValue} {nextSeq : Nat} :
    (self.withRunStep runStep).nextStep step result nextSeq =
      self.nextStep step result nextSeq := by
  rw [FlowRunner.nextStep, FlowRunner.nextStep]
  simp only [chooseBranch_withRunStep]

theorem complete_withRunStep {completion : Completion} :
    (self.withRunStep runStep).complete frame completion = self.complete frame completion := by
  rw [FlowRunner.complete, FlowRunner.complete]
  simp only [nextStep_withRunStep]
  rfl

/-- The prepared frame is the frame of the step. -/
theorem frameOf_of_prepare {step : FlowStep} {seq : Nat} {loop : Option LoopCheckpoint}
    {m later : Machine σ} {prepared : LoopFrame × Bool}
    (h : self.prepare step seq loop m = .ok prepared later) :
    ∃ stepStarted stepOutputs params,
      self.frameOf step seq stepStarted stepOutputs params = .ok prepared := by
  have lifted : ∀ (stepStarted : FiniteFloat) (run : RunState) (m : Machine σ),
      (lift (self.frameOf step seq stepStarted run.stepOutputs run.params) : RunM σ _) m =
        .ok prepared later → ∃ stepStarted stepOutputs params,
          self.frameOf step seq stepStarted stepOutputs params = .ok prepared := by
    intro stepStarted run m h
    cases framed : self.frameOf step seq stepStarted run.stepOutputs run.params with
    | error exc =>
        rw [framed] at h
        cases h
    | ok frame =>
        rw [framed] at h
        cases h
        exact ⟨_, _, _, framed⟩
  cases loop with
  | none => exact lifted _ _ _ h
  | some checkpoint => exact lifted _ _ _ h

theorem visitOp_withRunStep (agrees : AgreesOn permitted runStep self.executor.runStep)
    (prepares : self.PreparesPermitted permitted) {name : String} {step : FlowStep} {seq : Nat}
    {loop : Option LoopCheckpoint} (declared : self.config.flowStep name = some step) :
    (self.withRunStep runStep).visitOp step seq loop = self.visitOp step seq loop := by
  funext m
  have prepared : (self.withRunStep runStep).prepare step seq loop m = self.prepare step seq loop m :=
    rfl
  rw [FlowRunner.visitOp, FlowRunner.visitOp]
  simp only [bind, EStateM.bind, prepared]
  cases h : self.prepare step seq loop m with
  | error exc later => rfl
  | ok frame later =>
      obtain ⟨stepStarted, stepOutputs, params, framed⟩ := frameOf_of_prepare h
      have hframe := prepares step name seq stepStarted stepOutputs params frame declared framed
      simp only [operate_withRunStep agrees hframe, complete_withRunStep]
      rfl

theorem visitWait_withRunStep {step : FlowStep} {wait : WaitForConfig} {seq : Nat} :
    (self.withRunStep runStep).visitWait step wait seq = self.visitWait step wait seq := by
  rw [FlowRunner.visitWait, FlowRunner.visitWait]
  simp only [nextStep_withRunStep]
  rfl

theorem visitStep_withRunStep (agrees : AgreesOn permitted runStep self.executor.runStep)
    (prepares : self.PreparesPermitted permitted) {name : String} {seq : Nat}
    {loop : Option LoopCheckpoint} :
    (self.withRunStep runStep).visitStep name seq loop = self.visitStep name seq loop := by
  rw [FlowRunner.visitStep, FlowRunner.visitStep]
  have config : (self.withRunStep runStep).config = self.config := rfl
  rw [config]
  cases declared : self.config.flowStep name with
  | none => rfl
  | some step =>
      simp only [FlowRunner.item, visitWait_withRunStep]
      have visited := @visitOp_withRunStep σ self permitted runStep agrees prepares name step seq loop
        declared
      simp only [lift, pure_bind, visited]
      rfl

/-- One pass of the run loop. -/
theorem turn_withRunStep (agrees : AgreesOn permitted runStep self.executor.runStep)
    (prepares : self.PreparesPermitted permitted) (p : Position σ) :
    (self.withRunStep runStep).turn p = self.turn p := by
  rw [FlowRunner.turn, FlowRunner.turn, FlowRunner.pass, FlowRunner.pass,
    visitStep_withRunStep agrees prepares]
  rfl

/-- A whole chain of runs. -/
theorem chain_withRunStep (agrees : AgreesOn permitted runStep self.executor.runStep)
    (prepares : self.PreparesPermitted permitted) (fuel : Nat) (p : Position σ) :
    (self.withRunStep runStep).chain fuel p = self.chain fuel p := by
  induction fuel generalizing p with
  | zero => rfl
  | succ fuel ih =>
      rw [FlowRunner.chain, FlowRunner.chain, turn_withRunStep agrees prepares]
      cases self.turn p with
      | advance next => exact ih next
      | rollover next => exact ih next
      | ended ending => rfl

end Agreement

end Justflow
