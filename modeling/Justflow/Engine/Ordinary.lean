import Justflow.Engine.Readable
import Justflow.Engine.Outcomes

/-!
# Ordinary exceptions

The run loop wraps the failure of a step during an episode into an exception of its own.  Nothing
else makes such an exception: every other part of a run raises ordinary ones.
-/

open Fields Program JsonValue

namespace Justflow

variable {σ : Type}

/-- Not the failure of a handler. -/
def Ordinary : EngineException → Prop
  | .handlerFailure _ _ => False
  | _ => True

/-! ## Values -/

section Values

variable {α : Type}

theorem OutOfBounds.ordinary {exc : EngineException} (h : OutOfBounds exc) : Ordinary exc := by
  cases h <;> trivial

theorem normalizeJsonValue_ordinary (maxItems : Nat) (v : JsonValue) (path : String)
    (depth : Nat) : Raises Ordinary (normalizeJsonValue maxItems v path depth) :=
  (normalizeJsonValue_raises maxItems v path depth).mono fun _ h => h.ordinary

theorem normalizeJsonObject_ordinary (maxItems : Nat) (fields : JsonObject) (path : String) :
    Raises Ordinary (normalizeJsonObject maxItems fields path) :=
  (normalizeJsonObject_raises maxItems fields path).mono fun _ h => h.ordinary

theorem enforceLimit_ordinary (actual limit : Nat) (kind : LimitKind) (boundary : String) :
    Raises Ordinary (enforceLimit actual limit kind boundary) := by
  rw [enforceLimit]
  exact Raises.ite (fun _ => .error trivial) fun _ => .ok _

theorem resolveJsonPath_ordinary (v : JsonValue) (tokens : List ReferenceToken) (root : String) :
    Raises Ordinary (resolveJsonPath v tokens root) := by
  rw [resolveJsonPath]
  refine Raises.ite (fun _ => .error trivial) fun _ => ?_
  refine (normalizeJsonValue_ordinary _ _ _ _).bind fun w _ => ?_
  refine (resolveTokens_raises tokens w root).mono ?_
  rintro _ ⟨path, detail, rfl⟩
  exact trivial

/-- A change of exceptions that makes no failure of a handler. -/
theorem asReferenceError_ordinary {x : Except EngineException α} (h : Raises Ordinary x) :
    Raises Ordinary (asReferenceError x) := by
  rw [asReferenceError.eq_def]
  split
  · exact .error trivial
  · exact .error trivial
  · exact h

theorem asConditionError_ordinary {x : Except EngineException α} (h : Raises Ordinary x) :
    Raises Ordinary (asConditionError x) := by
  rw [asConditionError.eq_def]
  split
  · exact .error trivial
  · exact .error trivial
  · exact h

theorem asResolutionError_ordinary {name : String} {x : Except EngineException α}
    (h : Raises Ordinary x) : Raises Ordinary (asResolutionError name x) := by
  rw [asResolutionError.eq_def]
  split
  · exact .error trivial
  · exact .error trivial
  · exact h

theorem asDeadlineError_ordinary {name reference : String} {x : Except EngineException α}
    (h : Raises Ordinary x) : Raises Ordinary (asDeadlineError name reference x) := by
  rw [asDeadlineError.eq_def]
  dsimp only
  split
  · exact .error trivial
  · exact Raises.ite (fun _ => .error trivial) fun _ => .error trivial
  · exact h

theorem resolveReference_ordinary (reference : ReferencePath) (stepOutputs params : JsonObject) :
    Raises Ordinary (resolveReference reference stepOutputs params) := by
  rw [resolveReference.eq_def]
  split
  · exact asReferenceError_ordinary (resolveJsonPath_ordinary _ _ _)
  · exact .error trivial

theorem resolveNamed_ordinary (stepOutputs params : JsonObject)
    (refs : List (String × ReferencePath)) :
    Raises Ordinary (resolveNamed stepOutputs params refs) := by
  induction refs with
  | nil => exact .ok _
  | cons entry rest ih =>
      rw [resolveNamed]
      exact (resolveReference_ordinary _ _ _).bind fun _ _ => ih.bind fun _ _ => .ok _

theorem resolveListed_ordinary (stepOutputs params : JsonObject) (refs : List ReferencePath) :
    Raises Ordinary (resolveListed stepOutputs params refs) := by
  induction refs with
  | nil => exact .ok _
  | cons entry rest ih =>
      rw [resolveListed]
      exact (resolveReference_ordinary _ _ _).bind fun _ _ => ih.bind fun _ _ => .ok _

theorem resolveInput_ordinary (spec : Option InputSpec) (stepOutputs params : JsonObject) :
    Raises Ordinary (resolveInput spec stepOutputs params) := by
  rw [resolveInput.eq_def]
  split
  · exact .ok _
  · exact resolveReference_ordinary _ _ _
  · exact (resolveNamed_ordinary _ _ _).bind fun _ _ => .ok _
  · exact (resolveListed_ordinary _ _ _).bind fun _ _ => .ok _

theorem paramValue_ordinary (params : JsonObject) (name : String) :
    Raises Ordinary (paramValue params name) := by
  rw [paramValue.eq_def]
  split
  · exact .ok _
  · exact .error trivial

theorem printSegments_ordinary (reprStr : String → String) (params : JsonObject)
    (segments : List Segment) : Raises Ordinary (printSegments reprStr params segments) := by
  induction segments with
  | nil => exact .ok _
  | cons segment rest ih =>
      cases segment with
      | text piece =>
          rw [printSegments]
          exact ih.bind fun _ _ => .ok _
      | placeholder name =>
          rw [printSegments]
          exact (paramValue_ordinary _ _).bind fun _ _ => ih.bind fun _ _ => .ok _

theorem interpolateString_ordinary (reprStr : String → String) (s : String)
    (params : JsonObject) : Raises Ordinary (interpolateString reprStr s params) := by
  rw [interpolateString]
  refine Raises.bind ?_ fun segments _ => ?_
  · rw [placeholdersOf.eq_def]
    split
    · exact .ok _
    · exact .error trivial
  · split
    · exact paramValue_ordinary _ _
    · exact (printSegments_ordinary _ _ _).bind fun _ _ => .ok _

theorem interpolateItems_ordinary {reprStr : String → String} {params : JsonObject}
    {items : List JsonValue}
    (h : ∀ v ∈ items, Raises Ordinary (interpolateParams reprStr params v)) :
    Raises Ordinary (interpolateItems reprStr params items) := by
  induction items with
  | nil => exact .ok _
  | cons v rest ih =>
      rw [interpolateItems]
      exact (h v (by simp)).bind fun _ _ => (ih fun w hw => h w (by simp [hw])).bind fun _ _ => .ok _

theorem interpolateFields_ordinary' {reprStr : String → String} {params fields : JsonObject}
    (h : ∀ e ∈ fields, Raises Ordinary (interpolateParams reprStr params e.2)) :
    Raises Ordinary (interpolateFields reprStr params fields) := by
  induction fields with
  | nil => exact .ok _
  | cons e rest ih =>
      obtain ⟨key, v⟩ := e
      rw [interpolateFields]
      exact (h (key, v) (by simp)).bind fun _ _ =>
        (ih fun e he => h e (by simp [he])).bind fun _ _ => .ok _

theorem interpolateParams_ordinary (reprStr : String → String) (params : JsonObject)
    (v : JsonValue) : Raises Ordinary (interpolateParams reprStr params v) := by
  induction v with
  | str s =>
      rw [interpolateParams]
      exact interpolateString_ordinary _ _ _
  | arr items ih =>
      rw [interpolateParams]
      exact (interpolateItems_ordinary ih).bind fun _ _ => .ok _
  | obj fields ih =>
      rw [interpolateParams]
      exact (interpolateFields_ordinary' fun e he => ih e he).bind fun _ _ => .ok _
  | _ =>
      rw [interpolateParams]
      exact .ok _

theorem interpolateFields_ordinary (reprStr : String → String) (params fields : JsonObject) :
    Raises Ordinary (interpolateFields reprStr params fields) :=
  interpolateFields_ordinary' fun _ _ => interpolateParams_ordinary _ _ _

theorem Refused.ordinary {reprStr : String → String} {ctx : EvalContext} {names : List String}
    {exc : EngineException} (h : Refused reprStr ctx names exc) : Ordinary exc := by
  cases h with
  | unknown used absent =>
      rw [resolveRoot] at absent
      split at absent
      · cases absent
      · split at absent
        · cases absent
        · cases absent
          exact trivial
  | values starts known => exact trivial

theorem normal_of_normalized {data : JsonValue} {outputs params : JsonObject}
    {normalData : JsonValue} {normalOutputs normalParams : JsonObject}
    (hdata : normalizeJsonValue defaultCollectionItems data "input" 0 = .ok normalData)
    (houtputs : normalizeJsonObject defaultCollectionItems outputs "steps" = .ok normalOutputs)
    (hparams : normalizeJsonObject defaultCollectionItems params "params" = .ok normalParams) :
    (EvalContext.mk normalData normalOutputs normalParams).Normal := by
  have fitsData : fits defaultCollectionItems data 0 = true := by
    by_contra outside
    obtain ⟨exc, hexc⟩ := normalizeJsonValue_of_not_fits (by simpa using outside) "input"
    simp [hdata] at hexc
  have fitsFields : ∀ {fields normal : JsonObject} {path : String},
      normalizeJsonObject defaultCollectionItems fields path = .ok normal →
        fits defaultCollectionItems (.obj fields) 0 = true := by
    intro fields normal path h
    by_contra outside
    obtain ⟨exc, hexc⟩ := normalizeJsonObject_of_not_fits (by simpa using outside) path
    simp [h] at hexc
  have fitsOutputs := fitsFields houtputs
  have fitsParams := fitsFields hparams
  rw [normalizeJsonValue_of_fits fitsData] at hdata
  rw [normalizeJsonObject_of_fits fitsOutputs] at houtputs
  rw [normalizeJsonObject_of_fits fitsParams] at hparams
  cases hdata
  cases houtputs
  cases hparams
  exact EvalContext.normal_of_fits fitsData fitsOutputs fitsParams

theorem ok_of_asConditionError {x : Except EngineException α} {a : α}
    (h : asConditionError x = .ok a) : x = .ok a := by
  rw [asConditionError.eq_def] at h
  split at h
  · cases h
  · cases h
  · exact h

theorem evaluateCondition_ordinary (parse : ExpressionParser) (reprStr : String → String)
    (condition : String) (data : JsonValue) (stepOutputs params : JsonObject) :
    Raises Ordinary (evaluateCondition parse reprStr condition data stepOutputs params) := by
  rw [evaluateCondition]
  cases accepted : parseCondition parse condition with
  | error detail => exact .error trivial
  | ok tree =>
      refine (asConditionError_ordinary (normalizeJsonValue_ordinary _ _ _ _)).bind
        fun normalData hdata => ?_
      refine (asConditionError_ordinary (normalizeJsonObject_ordinary _ _ _)).bind
        fun normalOutputs houtputs => ?_
      refine (asConditionError_ordinary (normalizeJsonObject_ordinary _ _ _)).bind
        fun normalParams hparams => ?_
      have normal := normal_of_normalized (ok_of_asConditionError hdata)
        (ok_of_asConditionError houtputs) (ok_of_asConditionError hparams)
      refine Raises.bind ?_ fun _ _ => .ok _
      exact (evaluate_raises normal tree (parseCondition_checked accepted)).mono
        fun _ h => h.ordinary

theorem storeOutput_ordinary (step : FlowStep) (result : JsonValue) (stepOutputs : JsonObject) :
    Raises Ordinary (storeOutput step result stepOutputs) := by
  rw [storeOutput.eq_def]
  split
  · exact .ok _
  · refine .error ?_
    rw [assignmentError.eq_def]
    split <;> trivial

variable (self : FlowRunner σ)

theorem deadlineEpoch_ordinary (value : JsonValue) :
    Raises Ordinary (self.deadlineEpoch value) := by
  rw [FlowRunner.deadlineEpoch.eq_def]
  split
  · split
    · exact .ok _
    · exact .error trivial
  · exact .ok _
  · split
    · exact .error trivial
    · exact Raises.ite (fun _ => .error trivial) fun _ => .ok _
  · exact .error trivial

theorem item_ordinary (key : String) (found : Option α) : Raises Ordinary (self.item key found) := by
  cases found with
  | some value => exact .ok _
  | none => exact .error trivial

theorem frameOf_ordinary (step : FlowStep) (seq : Nat) (stepStarted : FiniteFloat)
    (stepOutputs params : JsonObject) :
    Raises Ordinary (self.frameOf step seq stepStarted stepOutputs params) := by
  have read : Raises Ordinary (self.readInput step stepOutputs params) := by
    refine asResolutionError_ordinary ?_
    refine (resolveInput_ordinary _ _ _).bind fun input _ => ?_
    cases truthy step.condition with
    | none => exact .ok _
    | some condition => exact (evaluateCondition_ordinary _ _ _ _ _ _).bind fun _ _ => .ok _
  rw [FlowRunner.frameOf.eq_def]
  cases step.op with
  | none => exact .error trivial
  | some op =>
      refine (item_ordinary self _ _).bind fun stepDef _ => ?_
      refine Raises.bind ?_ fun serviceParams _ => ?_
      · rw [FlowRunner.serviceParams.eq_def]
        cases stepDef.target with
        | service service action => exact item_ordinary self _ _
        | workflow workflow => exact .ok _
      · refine Raises.bind ?_ fun merged _ => read.bind fun _ _ => .ok _
        exact (interpolateFields_ordinary _ _ _).bind fun _ _ => normalizeJsonObject_ordinary _ _ _

theorem checkContinuation_ordinary (step : FlowStep) (loop : Option LoopCheckpoint) :
    Raises Ordinary (checkContinuation step loop) := by
  cases loop with
  | none => exact .ok _
  | some checkpoint => exact Raises.ite (fun _ => .ok _) fun _ => .error trivial

theorem rejectLoopCache_ordinary (step : FlowStep) (stepDef : StepDefinition) (kind : String) :
    Raises Ordinary (rejectLoopCache step stepDef kind) := by
  rw [rejectLoopCache.eq_def]
  split
  · exact .ok _
  · exact .error trivial

theorem untilBounds_ordinary (step : FlowStep) (stepDef : StepDefinition) (completed : Nat) :
    Raises Ordinary (self.untilBounds step stepDef completed) := by
  rw [FlowRunner.untilBounds.eq_def]
  refine (rejectLoopCache_ordinary _ _ _).bind fun _ _ => ?_
  split
  · refine (enforceLimit_ordinary _ _ _ _).bind fun _ _ => ?_
    exact Raises.ite (fun _ => .error trivial) fun _ => .ok _
  · exact .error trivial

theorem resolveIterationItems_ordinary (name : String) (reference : ReferencePath)
    (resolvedInput : JsonValue) (stepOutputs params : JsonObject) :
    Raises Ordinary (resolveIterationItems name reference resolvedInput stepOutputs params) := by
  have source : Raises Ordinary (iterationSource reference resolvedInput stepOutputs params) := by
    refine Raises.ite (fun _ => Raises.ite (fun _ => .ok _) fun _ => ?_) fun _ => ?_
    · exact resolveJsonPath_ordinary _ _ _
    · exact resolveReference_ordinary _ _ _
  rw [resolveIterationItems.eq_def]
  dsimp only
  split
  · exact .ok _
  · exact .ok _
  · exact .error trivial
  · exact .error trivial
  · exact .error trivial
  · exact .error trivial
  · rename_i exc _ _ _ hexc
    exact .error (source exc hexc)

theorem iterationSetup_ordinary (frame : LoopFrame) (reference : ReferencePath)
    (processed : List IterationResult) (nextOffset : Nat) :
    Raises Ordinary (self.iterationSetup frame reference processed nextOffset) := by
  rw [FlowRunner.iterationSetup]
  refine (rejectLoopCache_ordinary _ _ _).bind fun _ _ => ?_
  refine Raises.bind ?_ fun parallelism _ => ?_
  · rw [FlowRunner.iterationParallelism.eq_def]
    refine Raises.ite (fun _ => ?_) fun _ => .ok _
    cases frame.step.maxConcurrency with
    | none => exact .error trivial
    | some bound => exact (enforceLimit_ordinary _ _ _ _).bind fun _ _ => .ok _
  · refine (resolveIterationItems_ordinary _ _ _ _ _).bind fun items _ => ?_
    refine (enforceLimit_ordinary _ _ _ _).bind fun _ _ => Raises.bind ?_ fun _ _ => .ok _
    exact Raises.ite (fun _ => .error trivial) fun _ => Raises.ite (fun _ => .error trivial)
      fun _ => .ok _

end Values

/-! ## Programs -/

/-- Neither the failure of a handler nor one that is handled as such. -/
def PlainException : RunException → Prop
  | .engine exc => Ordinary exc
  | .flowContinuation _ _ => True

theorem PlainException.toEngine {e : RunException} (h : PlainException e) :
    Ordinary e.toEngine := by
  cases e with
  | engine exc => exact h
  | flowContinuation _ _ => exact trivial

/-- The program raises ordinary exceptions only, and returns what has the property. -/
def Plainly {α : Type} (Q : α → Prop) (x : RunM σ α) : Prop :=
  Triple (fun _ => True) x (fun a _ => Q a) fun e _ => PlainException e

/-- What a program raises, if it is plain. -/
theorem Plainly.of_error {α : Type} {Q : α → Prop} {x : RunM σ α} (h : Plainly Q x)
    {m m' : Machine σ} {e : RunException} (raised : x m = .error e m') : PlainException e := by
  have := h m trivial
  rw [raised] at this
  exact this

namespace Plainly

variable {α β : Type} {Q : α → Prop} {R : β → Prop}

theorem pure {a : α} (h : Q a) : Plainly Q (Pure.pure a : RunM σ α) :=
  Triple.pure fun _ _ => h

theorem bind {x : RunM σ α} {f : α → RunM σ β} (hx : Plainly Q x)
    (hf : ∀ a, Q a → Plainly R (f a)) : Plainly R (x >>= f) := by
  refine Triple.bind hx fun a => ?_
  intro m ha
  exact hf a ha m trivial

theorem andThen {x : RunM σ α} {f : α → RunM σ β} (hx : Plainly (fun _ => True) x)
    (hf : ∀ a, Plainly R (f a)) : Plainly R (x >>= f) :=
  hx.bind fun a _ => hf a

theorem raise {exc : EngineException} (h : Ordinary exc) :
    Plainly Q (Justflow.raise exc : RunM σ α) :=
  Triple.throw fun _ _ => h

theorem lift {x : Except EngineException α} (h : Raises Ordinary x) :
    Plainly (fun _ => True) (Justflow.lift x : RunM σ α) := by
  cases x with
  | ok a => exact pure trivial
  | error exc => exact raise (h exc rfl)

theorem validated (x : Except String α) :
    Plainly (fun _ => True) (Justflow.validated x : RunM σ α) := by
  cases x with
  | ok a => exact pure trivial
  | error detail => exact raise trivial

theorem callExecutor (op : σ → Except ExecutorFailure α × σ) :
    Plainly (fun _ => True) (callExecutor op) := by
  intro m _
  unfold Justflow.callExecutor
  split
  · trivial
  · rename_i failure world _
    show Ordinary failure.toException
    cases failure <;> trivial

theorem now (self : FlowRunner σ) : Plainly (fun _ => True) self.now :=
  fun _ _ => trivial

theorem completes (self : FlowRunner σ) (running : Nat) :
    Plainly (fun _ => True) (self.completes running) :=
  fun _ _ => trivial

theorem getRun : Plainly (fun _ => True) (Justflow.getRun : RunM σ RunState) :=
  fun _ _ => trivial

theorem countInvocation : Plainly (fun _ => True) (Justflow.countInvocation : RunM σ Nat) :=
  fun _ _ => trivial

theorem getInvocations : Plainly (fun _ => True) (Justflow.getInvocations : RunM σ Nat) :=
  fun _ _ => trivial

theorem modifyRun (f : RunState → RunState) :
    Plainly (fun _ => True) (Justflow.modifyRun f : RunM σ Unit) :=
  fun _ _ => trivial

theorem ite {c : Prop} [Decidable c] {x y : RunM σ α} (hx : Plainly Q x) (hy : Plainly Q y) :
    Plainly Q (if c then x else y) := by
  split
  · exact hx
  · exact hy

theorem definitionError (message : String) (kind : FlowErrorKind) :
    Plainly Q (definitionError message kind : RunM σ α) :=
  raise trivial

theorem enforceCheckpoint (self : FlowRunner σ) (point : HistoryPoint)
    (checkpoint : RunnerCheckpoint) :
    Plainly (fun _ => True) (self.enforceCheckpoint point checkpoint) := by
  rw [FlowRunner.enforceCheckpoint]
  refine (lift (enforceLimit_ordinary _ _ _ _)).andThen fun _ => ?_
  exact ite (Triple.throw fun _ _ => trivial) (pure trivial)

theorem checkpointAt (self : FlowRunner σ) (point : HistoryPoint) (name : String) (seq : Nat)
    (loop : Option LoopCheckpoint) :
    Plainly (fun _ => True) (self.checkpointAt point name seq loop) := by
  rw [FlowRunner.checkpointAt]
  refine getRun.andThen fun _ => getInvocations.andThen fun _ => (validated _).andThen fun _ => ?_
  exact enforceCheckpoint self _ _

theorem checkpointAfterStep (self : FlowRunner σ) (name : Option String) (seq : Nat) :
    Plainly (fun _ => True) (self.checkpointAfterStep name seq) := by
  cases name with
  | none => exact pure trivial
  | some name => exact ite (checkpointAt self _ _ _ _) (pure trivial)

theorem checkpointDuringLoop (self : FlowRunner σ) (name : String) (seq : Nat)
    (loop : Except String LoopCheckpoint) :
    Plainly (fun _ => True) (self.checkpointDuringLoop name seq loop) :=
  (validated _).andThen fun _ => ite (checkpointAt self _ _ _ _) (pure trivial)

/-! ### Operations -/

theorem invoke (self : FlowRunner σ) (stepDef : StepDefinition) (stepName : String)
    (resolvedInput : JsonValue) (mergedGlobals params : JsonObject) :
    Plainly (fun _ => True) (self.invoke stepDef stepName resolvedInput mergedGlobals params) := by
  have cached : ∀ cache, Raises Ordinary (self.cacheDirective cache params) := by
    intro cache
    cases cache with
    | none => exact .ok _
    | some config => exact (interpolateParams_ordinary _ _ _).bind fun _ _ => .ok _
  rw [FlowRunner.invoke.eq_def]
  refine countInvocation.andThen fun _ => (lift (enforceLimit_ordinary _ _ _ _)).andThen fun _ => ?_
  cases stepDef.target with
  | workflow workflow =>
      refine (callExecutor _).andThen fun record => ?_
      exact (lift (normalizeJsonValue_ordinary _ _ _ _)).andThen fun _ => pure trivial
  | service service action =>
      refine (lift (cached _)).andThen fun cache => (callExecutor _).andThen fun result => ?_
      exact (lift (normalizeJsonValue_ordinary _ _ _ _)).andThen fun _ => pure trivial

theorem runOne (self : FlowRunner σ) (frame : LoopFrame) (entry : IterationKey × JsonValue) :
    Plainly (fun _ => True) (self.runOne frame entry) :=
  (invoke self _ _ _ _ _).andThen fun _ => pure trivial

/-- What an item ended with can be raised again. -/
theorem outcomeOf {x : RunM σ α} (hx : Plainly (fun _ => True) x) :
    Plainly (Raises Ordinary) (Justflow.outcomeOf x) := by
  refine Triple.bind (Triple.attempt hx) fun ended => Triple.pure fun m hm => ?_
  cases ended with
  | ok a => exact .ok _
  | error e => exact .error (PlainException.toEngine hm)

theorem raiseStopping (strategy : IterationFailStrategy)
    {outcome : Except EngineException JsonValue} (h : Raises Ordinary outcome) :
    Plainly (fun _ => True) (raiseStopping strategy outcome : RunM σ Unit) := by
  cases outcome with
  | ok a => exact pure trivial
  | error exc => exact ite (raise (h exc rfl)) (pure trivial)

theorem runSequential {run : IterationKey × JsonValue → RunM σ JsonValue}
    (hrun : ∀ entry, Plainly (fun _ => True) (run entry)) (strategy : IterationFailStrategy)
    (batch : List (IterationKey × JsonValue)) :
    Plainly (fun _ => True) (runSequential run strategy batch) := by
  induction batch with
  | nil => exact pure trivial
  | cons item rest ih =>
      rw [Justflow.runSequential]
      refine (outcomeOf (hrun item)).bind fun outcome ordinary => ?_
      exact (raiseStopping strategy ordinary).andThen fun _ => ih.andThen fun _ => pure trivial

/-- The outcomes of the tasks that are running can be raised again. -/
def AllOrdinary (running : List (Nat × ItemOutcome)) : Prop :=
  ∀ task ∈ running, Raises Ordinary task.2.2

theorem startItems {run : IterationKey × JsonValue → RunM σ JsonValue}
    (hrun : ∀ entry, Plainly (fun _ => True) (run entry)) (parallelism : Nat)
    (waiting : List (Nat × IterationKey × JsonValue)) {running : List (Nat × ItemOutcome)}
    (h : AllOrdinary running) :
    Plainly (fun started => AllOrdinary started.1)
      (startItems run parallelism waiting running) := by
  induction waiting generalizing running with
  | nil => exact pure h
  | cons item waiting ih =>
      rw [Justflow.startItems]
      refine ite ((outcomeOf (hrun _)).bind fun outcome ordinary => ih ?_) (pure h)
      intro task htask
      rcases List.mem_append.mp htask with hmem | hmem
      · exact h task hmem
      · obtain rfl := List.mem_singleton.mp hmem
        exact ordinary

theorem runTasks (self : FlowRunner σ) {run : IterationKey × JsonValue → RunM σ JsonValue}
    (hrun : ∀ entry, Plainly (fun _ => True) (run entry)) (strategy : IterationFailStrategy)
    (parallelism fuel : Nat) (waiting : List (Nat × IterationKey × JsonValue))
    {running : List (Nat × ItemOutcome)} (h : AllOrdinary running)
    (ended : List (Nat × ItemOutcome)) :
    Plainly (fun _ => True)
      (self.runTasks run strategy parallelism fuel waiting running ended) := by
  induction fuel generalizing waiting running ended with
  | zero => exact pure trivial
  | succ fuel ih =>
      rw [FlowRunner.runTasks]
      refine (startItems hrun parallelism waiting h).bind fun started ordinary => ?_
      refine (completes self _).andThen fun choice => ?_
      split
      · exact pure trivial
      · rename_i task htask
        refine (raiseStopping strategy (ordinary task (List.mem_of_getElem? htask))).andThen
          fun _ => ih _ ?_ _
        exact fun other hother => ordinary other (List.mem_of_mem_eraseIdx hother)

theorem runBatch (self : FlowRunner σ) {run : IterationKey × JsonValue → RunM σ JsonValue}
    (hrun : ∀ entry, Plainly (fun _ => True) (run entry)) (strategy : IterationFailStrategy)
    (parallelism : Option Nat) (batch : List (IterationKey × JsonValue)) :
    Plainly (fun _ => True) (self.runBatch run strategy parallelism batch) := by
  cases parallelism with
  | none => exact runSequential hrun strategy batch
  | some bound =>
      exact (runTasks self hrun strategy bound _ _ (fun _ h => by cases h) _).andThen fun _ => pure trivial

theorem runBatches (self : FlowRunner σ) (frame : LoopFrame)
    {run : IterationKey × JsonValue → RunM σ JsonValue}
    (hrun : ∀ entry, Plainly (fun _ => True) (run entry)) (strategy : IterationFailStrategy)
    (parallelism : Option Nat) (batches : List (List (IterationKey × JsonValue))) (offset : Nat)
    (progress : IterationProgress) :
    Plainly (fun _ => True)
      (self.runBatches frame run strategy parallelism batches offset progress) := by
  induction batches generalizing offset progress with
  | nil => exact pure trivial
  | cons batch rest ih =>
      rw [FlowRunner.runBatches]
      refine (runBatch self hrun strategy parallelism batch).andThen fun outcomes => ?_
      exact (checkpointDuringLoop self _ _ _).andThen fun _ => ih _ _

theorem runIteration (self : FlowRunner σ) (frame : LoopFrame) (reference : ReferencePath)
    (continuation : Option IterationCheckpoint) :
    Plainly (fun _ => True) (self.runIteration frame reference continuation) := by
  rw [FlowRunner.runIteration]
  refine (lift (iterationSetup_ordinary self frame reference _ _)).andThen fun setup => ?_
  exact (runBatches self frame (runOne self frame) _ _ _ _ _).andThen fun _ => pure trivial

theorem pause (self : FlowRunner σ) (step : FlowStep) (attempt maxIterations : Nat) :
    Plainly (fun _ => True) (self.pause step attempt maxIterations) := by
  rw [FlowRunner.pause.eq_def]
  cases step.intervalSec with
  | none => exact pure trivial
  | some seconds => exact ite (callExecutor _) (pure trivial)

theorem untilAttempts (self : FlowRunner σ) (frame : LoopFrame) (condition : String)
    (maxIterations remaining completed : Nat) (result : JsonValue) :
    Plainly (fun _ => True)
      (self.untilAttempts frame condition maxIterations remaining completed result) := by
  induction remaining generalizing completed result with
  | zero => exact pure trivial
  | succ remaining ih =>
      rw [FlowRunner.untilAttempts]
      refine (invoke self _ _ _ _ _).andThen fun stepResult => ?_
      refine (lift (asResolutionError_ordinary (evaluateCondition_ordinary _ _ _ _ _ _))).andThen
        fun satisfied => ite (pure trivial) ?_
      refine (pause self _ _ _).andThen fun _ => ?_
      exact (checkpointDuringLoop self _ _ _).andThen fun _ => ih _ _

theorem runUntil (self : FlowRunner σ) (frame : LoopFrame)
    (continuation : Option UntilCheckpoint) :
    Plainly (fun _ => True) (self.runUntil frame continuation) := by
  rw [FlowRunner.runUntil]
  exact (lift (untilBounds_ordinary self _ _ _)).andThen fun bounds => untilAttempts self _ _ _ _ _ _

/-- An operation fails with an ordinary exception. -/
theorem operate (self : FlowRunner σ) (frame : LoopFrame) (loop : Option LoopCheckpoint) :
    Plainly (fun _ => True) (self.operate frame loop) := by
  rw [FlowRunner.operate.eq_def]
  dsimp only
  cases frame.step.forEach with
  | some reference => exact (runIteration self frame reference _).andThen fun _ => pure trivial
  | none =>
      cases truthy frame.step.untilCondition with
      | some condition => exact (runUntil self frame _).andThen fun _ => pure trivial
      | none => exact (invoke self _ _ _ _ _).andThen fun _ => pure trivial

/-! ### Visits -/

theorem prepare (self : FlowRunner σ) (step : FlowStep) (seq : Nat)
    (loop : Option LoopCheckpoint) : Plainly (fun _ => True) (self.prepare step seq loop) := by
  have started : Plainly (fun _ => True) (self.stepStart loop) := by
    cases loop with
    | none => exact now self
    | some checkpoint => exact pure trivial
  rw [FlowRunner.prepare]
  refine started.andThen fun _ => (modifyRun _).andThen fun _ => getRun.andThen fun run => ?_
  exact lift (frameOf_ordinary self _ _ _ _ _)

theorem runWait (self : FlowRunner σ) (step : FlowStep) (wait : WaitForConfig)
    (stepOutputs params : JsonObject) :
    Plainly (fun _ => True) (self.runWait step wait stepOutputs params) := by
  rw [FlowRunner.runWait.eq_def]
  refine andThen ?_ fun remaining => ?_
  · rw [FlowRunner.remainingTime.eq_def]
    cases wait.timeoutUntil with
    | none => exact pure trivial
    | some reference =>
        refine (lift (asDeadlineError_ordinary ((resolveReference_ordinary _ _ _).bind
          fun value _ => deadlineEpoch_ordinary self value))).andThen fun _ => ?_
        exact (now self).andThen fun _ => pure trivial
  · cases wait.bound remaining with
    | none => exact definitionError _ _
    | some seconds => exact callExecutor _

theorem chooseBranch (self : FlowRunner σ) (step : FlowStep) (result : JsonValue)
    (stepOutputs params : JsonObject) (branches : List OnResultBranch) :
    Plainly (fun _ => True) (self.chooseBranch step result stepOutputs params branches) := by
  have tested : ∀ condition, Plainly (fun _ => True)
      (self.branchMatches step result stepOutputs params condition) := by
    intro condition
    cases condition with
    | evaluator condition => exact (callExecutor _).andThen fun _ => pure trivial
    | expression text =>
        exact (lift (asResolutionError_ordinary (evaluateCondition_ordinary _ _ _ _ _ _))).andThen
          fun _ => pure trivial
  induction branches with
  | nil => exact pure trivial
  | cons branch rest ih =>
      rw [FlowRunner.chooseBranch]
      cases branch.default with
      | some target => exact pure trivial
      | none =>
          cases branch.whenCondition with
          | none => exact definitionError _ _
          | some condition =>
              refine (tested condition).andThen fun matched => ite ?_ ih
              cases branch.thenStep with
              | none => exact definitionError _ _
              | some target => exact pure trivial

theorem nextStep (self : FlowRunner σ) (step : FlowStep) (result : JsonValue) (seq : Nat) :
    Plainly (fun _ => True) (self.nextStep step result seq) := by
  rw [FlowRunner.nextStep]
  refine ite (pure trivial) (getRun.andThen fun run => ?_)
  refine (chooseBranch self step result _ _ _).andThen fun decision => ?_
  cases decision with
  | none => exact pure trivial
  | some decision => exact (modifyRun _).andThen fun _ => pure trivial

theorem store (step : FlowStep) (result : JsonValue) :
    Plainly (fun _ => True) (store step result : RunM σ Unit) :=
  getRun.andThen fun _ => (lift (storeOutput_ordinary _ _ _)).andThen fun _ => modifyRun _

theorem complete (self : FlowRunner σ) (frame : LoopFrame) (completion : Completion) :
    Plainly (fun _ => True) (self.complete frame completion) := by
  rw [FlowRunner.complete]
  refine andThen ?_ fun _ => (now self).andThen fun _ => (modifyRun _).andThen fun _ => ?_
  · rw [storeCompletion]
    exact ite (pure trivial) (store _ _)
  · refine ite ?_ (nextStep self _ _ _)
    cases frame.step.onExhausted with
    | none => exact definitionError _ _
    | some target => exact (modifyRun _).andThen fun _ => pure trivial

theorem visitSleep (self : FlowRunner σ) (step : FlowStep) (seconds seq : Nat) :
    Plainly (fun _ => True) (self.visitSleep step seconds seq) :=
  (callExecutor _).andThen fun _ => (modifyRun _).andThen fun _ => pure trivial

theorem visitWait (self : FlowRunner σ) (step : FlowStep) (wait : WaitForConfig) (seq : Nat) :
    Plainly (fun _ => True) (self.visitWait step wait seq) := by
  rw [FlowRunner.visitWait]
  refine (now self).andThen fun started => getRun.andThen fun run => ?_
  refine (runWait self step wait _ _).andThen fun outcome => ?_
  cases outcome with
  | timedOut =>
      refine (modifyRun _).andThen fun _ => ?_
      cases wait.onTimeout with
      | none => exact definitionError _ _
      | some target => exact (modifyRun _).andThen fun _ => pure trivial
  | received raw =>
      refine (lift (normalizeJsonValue_ordinary _ _ _ _)).andThen fun payload => ?_
      refine (store step payload).andThen fun _ => (now self).andThen fun _ => ?_
      exact (modifyRun _).andThen fun _ => nextStep self step payload _

theorem finish (self : FlowRunner σ) (reason : Option String) :
    Plainly (fun _ => True) (self.finish reason) := by
  have contract : ∀ schema payload direction,
      Plainly (fun _ => True) (self.validateContract schema payload direction) := by
    intro schema payload direction
    cases schema with
    | none => exact pure trivial
    | some schema => exact callExecutor _
  have result : ∀ outputs params,
      Plainly (fun _ => True) (self.resolveResult reason outputs params) := by
    intro outputs params
    rw [FlowRunner.resolveResult.eq_def]
    cases self.config.result with
    | none => exact pure trivial
    | some reference =>
        have ordinary := resolveReference_ordinary reference outputs params
        dsimp only
        generalize resolveReference reference outputs params = resolved at ordinary ⊢
        cases resolved with
        | error exc =>
            have ordinary := ordinary exc rfl
            cases exc with
            | referenceResolution text => exact ite (definitionError _ _) (pure trivial)
            | _ => exact raise ordinary
        | ok value =>
            refine (contract _ _ _).andThen fun _ => ?_
            exact (lift (enforceLimit_ordinary _ _ _ _)).andThen fun _ => pure trivial
  rw [FlowRunner.finish]
  refine (modifyRun _).andThen fun _ => (now self).andThen fun _ => (modifyRun _).andThen fun _ => ?_
  refine getRun.andThen fun run => (result _ _).andThen fun _ => ?_
  refine (lift (enforceLimit_ordinary _ _ _ _)).andThen fun _ => ?_
  exact (lift (enforceLimit_ordinary _ _ _ _)).andThen fun _ => pure trivial

end Plainly

end Justflow
