import Justflow.Config.Validation
import Justflow.Engine.Execution

/-!
# What a visit can do

Everything the invariants of a run need to know about one visit: which kinds of moves there are,
what each adds to the outputs, the transitions and the failure episode, and which checkpoint a
loop may interrupt a visit with.  Later proofs cite these and never look into a visit again.
-/

open Fields Program JsonValue

namespace Justflow

variable {σ : Type}

/-! ## Programs that leave the run state alone -/

/-- The machine has this run state. -/
def Holds (run : RunState) (m : Machine σ) : Prop :=
  m.run = run

/-- An exception that is not a request for a fresh history. -/
def IsEngine (e : RunException) (_ : Machine σ) : Prop :=
  ∃ exc, e = .engine exc

/-- Such an exception, with the run state as it was. -/
def Fails (run : RunState) (e : RunException) (m : Machine σ) : Prop :=
  m.run = run ∧ ∃ exc, e = .engine exc

/-- The program neither changes the run state nor asks for a fresh history. -/
def KeepsRun {α : Type} (x : RunM σ α) : Prop :=
  ∀ run, Triple (Holds run) x (fun _ => Holds run) (Fails run)

namespace KeepsRun

variable {α β : Type}

theorem pure (a : α) : KeepsRun (Pure.pure a : RunM σ α) :=
  fun _ => Triple.pure fun _ h => h

theorem raise (exc : EngineException) : KeepsRun (Justflow.raise exc : RunM σ α) :=
  fun _ => Triple.throw fun _ h => ⟨h, exc, rfl⟩

theorem bind {x : RunM σ α} {f : α → RunM σ β} (hx : KeepsRun x) (hf : ∀ a, KeepsRun (f a)) :
    KeepsRun (x >>= f) :=
  fun run => Triple.bind (hx run) fun a => hf a run

theorem lift (x : Except EngineException α) : KeepsRun (Justflow.lift x : RunM σ α) := by
  cases x with
  | ok a => exact pure a
  | error exc => exact raise exc

theorem callExecutor (op : σ → Except ExecutorFailure α × σ) : KeepsRun (callExecutor op) := by
  intro run m hm
  rw [Justflow.callExecutor]
  split
  · exact hm
  · exact ⟨hm, _, rfl⟩

theorem countInvocation : KeepsRun (Justflow.countInvocation : RunM σ Nat) :=
  fun _ _ hm => hm

theorem getRun : KeepsRun (Justflow.getRun : RunM σ RunState) :=
  fun _ _ hm => hm

theorem now (self : FlowRunner σ) : KeepsRun self.now :=
  fun _ _ hm => hm

theorem completes (self : FlowRunner σ) (running : Nat) : KeepsRun (self.completes running) :=
  fun _ _ hm => hm

theorem ite {c : Prop} [Decidable c] {x y : RunM σ α} (hx : KeepsRun x) (hy : KeepsRun y) :
    KeepsRun (if c then x else y) := by
  split
  · exact hx
  · exact hy

theorem invoke (self : FlowRunner σ) (stepDef : StepDefinition) (stepName : String)
    (resolvedInput : JsonValue) (mergedGlobals params : JsonObject) :
    KeepsRun (self.invoke stepDef stepName resolvedInput mergedGlobals params) := by
  rw [FlowRunner.invoke]
  refine countInvocation.bind fun _ => (lift _).bind fun _ => ?_
  split
  · exact (callExecutor _).bind fun _ => (lift _).bind fun _ => pure _
  · exact (lift _).bind fun _ => (callExecutor _).bind fun _ => (lift _).bind fun _ => pure _

theorem runOne (self : FlowRunner σ) (frame : LoopFrame) (entry : IterationKey × JsonValue) :
    KeepsRun (self.runOne frame entry) :=
  (invoke self _ _ _ _ _).bind fun _ => pure _

theorem outcomeOf {x : RunM σ α} (hx : KeepsRun x) : KeepsRun (Justflow.outcomeOf x) := by
  intro run
  refine Triple.bind (Triple.attempt (hx run)) fun ended => Triple.pure fun m hm => ?_
  cases ended with
  | ok a => exact hm
  | error e => exact hm.1

/-- Go on after a program that keeps the run state. -/
theorem andThen {x : RunM σ α} {f : α → RunM σ β} {run : RunState} {Q : β → Machine σ → Prop}
    {E : RunException → Machine σ → Prop} (hx : KeepsRun x)
    (hE : ∀ e m, Fails run e m → E e m) (hf : ∀ a, Triple (Holds run) (f a) Q E) :
    Triple (Holds run) (x >>= f) Q E :=
  Triple.bind ((hx run).consequence (fun _ h => h) (fun _ _ h => h) hE) hf

theorem startItems {run : IterationKey × JsonValue → RunM σ JsonValue}
    (hrun : ∀ entry, KeepsRun (run entry)) (parallelism : Nat)
    (waiting : List (Nat × IterationKey × JsonValue)) (running : List (Nat × ItemOutcome)) :
    KeepsRun (startItems run parallelism waiting running) := by
  induction waiting generalizing running with
  | nil => exact pure _
  | cons item waiting ih =>
      exact ite ((outcomeOf (hrun _)).bind fun _ => ih _) (pure _)

theorem raiseStopping (strategy : IterationFailStrategy)
    (outcome : Except EngineException JsonValue) :
    KeepsRun (raiseStopping strategy outcome : RunM σ Unit) := by
  cases outcome with
  | ok a => exact pure ()
  | error exc => exact ite (raise exc) (pure ())

theorem runSequential {run : IterationKey × JsonValue → RunM σ JsonValue}
    (hrun : ∀ entry, KeepsRun (run entry)) (strategy : IterationFailStrategy)
    (batch : List (IterationKey × JsonValue)) : KeepsRun (runSequential run strategy batch) := by
  induction batch with
  | nil => exact pure _
  | cons item rest ih =>
      exact (outcomeOf (hrun _)).bind fun _ =>
        (raiseStopping strategy _).bind fun _ => ih.bind fun _ => pure _

theorem runTasks (self : FlowRunner σ) {run : IterationKey × JsonValue → RunM σ JsonValue}
    (hrun : ∀ entry, KeepsRun (run entry)) (strategy : IterationFailStrategy)
    (parallelism fuel : Nat) (waiting : List (Nat × IterationKey × JsonValue))
    (running ended : List (Nat × ItemOutcome)) :
    KeepsRun (self.runTasks run strategy parallelism fuel waiting running ended) := by
  induction fuel generalizing waiting running ended with
  | zero => exact pure _
  | succ fuel ih =>
      refine (startItems hrun _ _ _).bind fun started => (completes self _).bind fun choice => ?_
      split
      · exact pure _
      · exact (raiseStopping strategy _).bind fun _ => ih _ _ _

theorem runBatch (self : FlowRunner σ) {run : IterationKey × JsonValue → RunM σ JsonValue}
    (hrun : ∀ entry, KeepsRun (run entry)) (strategy : IterationFailStrategy)
    (parallelism : Option Nat) (batch : List (IterationKey × JsonValue)) :
    KeepsRun (self.runBatch run strategy parallelism batch) := by
  cases parallelism with
  | none => exact runSequential hrun strategy batch
  | some bound => exact (runTasks self hrun strategy bound _ _ _ _).bind fun _ => pure _

theorem remainingTime (self : FlowRunner σ) (step : FlowStep) (wait : WaitForConfig)
    (stepOutputs params : JsonObject) :
    KeepsRun (self.remainingTime step wait stepOutputs params) := by
  rw [FlowRunner.remainingTime]
  split
  · exact pure _
  · exact (lift _).bind fun _ => (now self).bind fun _ => pure _

theorem pause (self : FlowRunner σ) (step : FlowStep) (attempt maxIterations : Nat) :
    KeepsRun (self.pause step attempt maxIterations) := by
  rw [FlowRunner.pause]
  split
  · exact pure _
  · exact ite (callExecutor _) (pure _)

theorem runWait (self : FlowRunner σ) (step : FlowStep) (wait : WaitForConfig)
    (stepOutputs params : JsonObject) : KeepsRun (self.runWait step wait stepOutputs params) := by
  refine (remainingTime self step wait stepOutputs params).bind fun remaining => ?_
  split
  · exact raise _
  · exact callExecutor _

theorem branchMatches (self : FlowRunner σ) (step : FlowStep) (result : JsonValue)
    (stepOutputs params : JsonObject) (condition : BranchCondition) :
    KeepsRun (self.branchMatches step result stepOutputs params condition) := by
  cases condition with
  | expression text => exact (lift _).bind fun _ => pure _
  | evaluator condition => exact (callExecutor _).bind fun _ => pure _

end KeepsRun

/-! ## Steps of a program that follow the run state -/

section Rules

variable {α β : Type} {run : RunState} {Q : β → Machine σ → Prop}
  {E : RunException → Machine σ → Prop}

theorem triple_raise {exc : EngineException} (hE : ∀ m, Holds run m → E (.engine exc) m) :
    Triple (Holds run) (raise exc) Q E :=
  Triple.throw hE

theorem triple_getRun {f : RunState → RunM σ β} (hf : Triple (Holds run) (f run) Q E) :
    Triple (Holds run) (getRun >>= f) Q E := by
  rintro m rfl
  exact hf m rfl

theorem triple_modifyRun {f : RunState → RunState} {g : Unit → RunM σ β}
    (hg : Triple (Holds (f run)) (g ()) Q E) : Triple (Holds run) (modifyRun f >>= g) Q E := by
  rintro m rfl
  exact hg _ rfl

theorem triple_lift {x : Except EngineException α} {f : α → RunM σ β}
    (hE : ∀ exc m, Holds run m → E (.engine exc) m)
    (hf : ∀ a, x = .ok a → Triple (Holds run) (f a) Q E) :
    Triple (Holds run) (lift x >>= f) Q E := by
  cases x with
  | ok a => exact fun m hm => hf a rfl m hm
  | error exc => exact fun m hm => hE exc m hm

end Rules

/-! ## Kinds of moves -/

/-- What a result is stored under. -/
def FlowStep.stored (self : FlowStep) : List String :=
  [self.name, self.outputKey]

/-- The ways a step is left that are not failures: the target, the names that got a value, and
the number of transitions recorded. -/
inductive Route (step : FlowStep) : Option String → List String → Nat → Prop where
  | slept (sleeps : step.sleepSec.isSome) : Route step step.thenStep [] 0
  | timedOut {target : String} (waits : step.waitFor.bind WaitForConfig.onTimeout = some target) :
      Route step (some target) [] 1
  | skipped (conditional : step.condition.isSome) : Route step step.thenStep [] 0
  | continued (awake : step.sleepSec = none) (plain : step.branches = []) :
      Route step step.thenStep step.stored 0
  | decided {branch : OnResultBranch} {target : String} (awake : step.sleepSec = none)
      (mem : branch ∈ step.branches)
      (chosen : branch.default = some target
        ∨ branch.default = none ∧ branch.thenStep = some target) :
      Route step (some target) step.stored 1
  | undecided : Route step none step.stored 0
  | exhausted {target : String} (loops : step.untilCondition.isSome)
      (declared : step.onExhausted = some target) : Route step (some target) [] 1

/-- What a move does to the data of the run. -/
structure Effect (before after : RunState) (produced : List String)
    (recorded : List TransitionRecord) : Prop where
  requestId : after.requestId = before.requestId
  params : after.params = before.params
  keeps : ∀ key ∈ keys before.stepOutputs, key ∈ keys after.stepOutputs
  produces : ∀ key ∈ produced, key ∈ keys after.stepOutputs
  transitions : after.transitions = before.transitions ++ recorded

/-- How a visit left its step: along a route, or with a failure routed to a handler. -/
inductive Departure (self : FlowRunner σ) (step : FlowStep) (before after : RunState) :
    Option String → Prop where
  | moved {target : Option String} {produced : List String} {recorded : List TransitionRecord}
      (effect : Effect before after produced recorded)
      (route : Route step target produced recorded.length)
      (episode : after.activeEpisode = before.activeEpisode) :
      Departure self step before after target
  | routed {handler : String} {record : TransitionRecord} {primary : FailureDetail}
      (operates : step.op.isSome) (declared : self.handlerOf step = some handler)
      (effect : Effect before after [errorAlias] [record])
      (calm : before.activeEpisode = none)
      (episode : after.activeEpisode = some
        { primary, handler, handlerSteps := self.config.handlerRegion handler }) :
      Departure self step before after (some handler)

/-! ## Leaving a step -/

theorem storeOutput_keys {step : FlowStep} {result : JsonValue} {outputs outputs' : JsonObject}
    (h : storeOutput step result outputs = .ok outputs') :
    (∀ key ∈ keys outputs, key ∈ keys outputs') ∧ ∀ key ∈ step.stored, key ∈ keys outputs' := by
  unfold storeOutput at h
  split at h
  · simp only [Except.ok.injEq] at h
    subst h
    simp only [mem_keys_set, FlowStep.stored]
    grind
  · cases h

theorem store_spec (step : FlowStep) (result : JsonValue) (run : RunState) :
    Triple (Holds (σ := σ) run) (store step result)
      (fun _ m => ∃ outputs, Holds { run with stepOutputs := outputs } m
        ∧ (∀ key ∈ keys run.stepOutputs, key ∈ keys outputs)
        ∧ ∀ key ∈ step.stored, key ∈ keys outputs)
      IsEngine := by
  refine triple_getRun (triple_lift (fun exc m _ => ⟨exc, rfl⟩) fun outputs houtputs => ?_)
  rintro m rfl
  exact ⟨outputs, rfl, storeOutput_keys houtputs⟩

/-- A decision names the target of one of the branches. -/
def DecidedBy (branches : List OnResultBranch) (record : TransitionRecord) : Prop :=
  ∃ branch ∈ branches, branch.default = some record.target
    ∨ branch.default = none ∧ branch.thenStep = some record.target

theorem chooseBranch_spec (self : FlowRunner σ) (step : FlowStep) (result : JsonValue)
    (outputs params : JsonObject) (branches : List OnResultBranch) (run : RunState) :
    Triple (Holds run) (self.chooseBranch step result outputs params branches)
      (fun decision m => Holds run m ∧ ∀ record, decision = some record →
        DecidedBy branches record)
      IsEngine := by
  induction branches with
  | nil => exact Triple.pure fun m hm => ⟨hm, by simp⟩
  | cons branch rest ih =>
      rw [FlowRunner.chooseBranch]
      split
      · rename_i target hdefault
        refine Triple.pure fun m hm => ⟨hm, ?_⟩
        rintro record ⟨⟩
        exact ⟨branch, by simp, .inl hdefault⟩
      · rename_i hdefault
        split
        · exact triple_raise fun m _ => ⟨_, rfl⟩
        · refine (KeepsRun.branchMatches self step result outputs params _).andThen
            (fun _ _ h => h.2) fun tested => ?_
          split
          · split
            · exact triple_raise fun m _ => ⟨_, rfl⟩
            · rename_i target hthen
              refine Triple.pure fun m hm => ⟨hm, ?_⟩
              rintro record ⟨⟩
              exact ⟨branch, by simp, .inr ⟨hdefault, hthen⟩⟩
          · refine ih.consequence (fun _ h => h) (fun decision m h => ⟨h.1, fun record hr => ?_⟩)
              fun _ _ h => h
            obtain ⟨b, hb, hchosen⟩ := h.2 record hr
            exact ⟨b, by simp [hb], hchosen⟩

namespace Effect

theorem refl (run : RunState) : Effect run run [] [] where
  requestId := rfl
  params := rfl
  keeps := fun _ h => h
  produces := by simp
  transitions := by simp

variable {before after : RunState} {produced : List String} {recorded : List TransitionRecord}

theorem setTiming (h : Effect before after produced recorded) (name : String)
    (entry : StepAuditEntry) : Effect before (after.setTiming name entry) produced recorded :=
  { h with }

theorem setStarted (h : Effect before after produced recorded) (started : Option FiniteFloat) :
    Effect before { after with currentStepStarted := started } produced recorded :=
  { h with }

theorem addTransition (h : Effect before after produced recorded) (record : TransitionRecord) :
    Effect before (after.addTransition record) produced (recorded ++ [record]) :=
  { h with transitions := by simp [RunState.addTransition, h.transitions] }

theorem store (h : Effect before after produced recorded) {outputs : JsonObject}
    {fresh : List String} (hkeeps : ∀ key ∈ keys after.stepOutputs, key ∈ keys outputs)
    (hfresh : ∀ key ∈ fresh, key ∈ keys outputs) :
    Effect before { after with stepOutputs := outputs } fresh recorded :=
  { h with
    keeps := fun key hkey => hkeeps key (h.keeps key hkey)
    produces := hfresh }

end Effect

/-- What a visit promises of the move it returns. -/
def Moves (self : FlowRunner σ) (step : FlowStep) (seq : Nat) (before : RunState) (move : Move)
    (m : Machine σ) : Prop :=
  ∃ target, move = .goto target (seq + 1) ∧ Departure self step before m.run target

theorem Moves.return {self : FlowRunner σ} {step : FlowStep} {before after : RunState}
    {target : Option String} (seq : Nat) (h : Departure self step before after target)
    {E : RunException → Machine σ → Prop} :
    Triple (Holds after) (pure (.goto target (seq + 1))) (Moves self step seq before) E := by
  refine Triple.pure ?_
  rintro m rfl
  exact ⟨target, rfl, h⟩

theorem nextStep_spec (self : FlowRunner σ) {step : FlowStep} (awake : step.sleepSec = none)
    (result : JsonValue) (seq : Nat) {before run : RunState}
    (effect : Effect before run step.stored [])
    (episode : run.activeEpisode = before.activeEpisode) :
    Triple (Holds run) (self.nextStep step result (seq + 1)) (Moves self step seq before)
      IsEngine := by
  rw [FlowRunner.nextStep]
  split
  · rename_i hplain
    exact Moves.return seq (.moved effect (.continued awake (by simpa using hplain)) episode)
  · refine triple_getRun (Triple.bind (chooseBranch_spec self step result _ _ _ run)
      fun decision => ?_)
    cases decision with
    | none =>
        exact (Moves.return seq (.moved effect .undecided episode)).consequence
          (fun _ h => h.1) (fun _ _ h => h) fun _ _ h => h
    | some record =>
        rintro m ⟨hm, hdecided⟩
        obtain ⟨branch, hmem, hchosen⟩ := hdecided record rfl
        refine triple_modifyRun (Moves.return seq ?_) m hm
        exact .moved (effect.addTransition record) (.decided awake hmem hchosen) episode

theorem visitSleep_spec (self : FlowRunner σ) {step : FlowStep} {seconds : Nat}
    (sleeps : step.sleepSec = some seconds) (seq : Nat) (run : RunState) :
    Triple (Holds run) (self.visitSleep step seconds seq) (Moves self step seq run)
      IsEngine := by
  refine (KeepsRun.callExecutor _).andThen (fun _ _ h => h.2) fun _ => ?_
  refine triple_modifyRun (Moves.return seq ?_)
  exact .moved ((Effect.refl run).setTiming _ _) (.slept (by simp [sleeps])) rfl

theorem visitWait_spec (self : FlowRunner σ) {step : FlowStep} {wait : WaitForConfig}
    (awake : step.sleepSec = none) (waits : step.waitFor = some wait) (seq : Nat)
    (run : RunState) :
    Triple (Holds run) (self.visitWait step wait seq) (Moves self step seq run) IsEngine := by
  refine (KeepsRun.now self).andThen (fun _ _ h => h.2) fun started => ?_
  refine triple_getRun ?_
  refine (KeepsRun.runWait self step wait _ _).andThen (fun _ _ h => h.2) fun outcome => ?_
  cases outcome with
  | timedOut =>
      refine triple_modifyRun ?_
      split
      · exact triple_raise fun m _ => ⟨_, rfl⟩
      · rename_i target htarget
        refine triple_modifyRun (Moves.return seq ?_)
        exact .moved (((Effect.refl run).setTiming _ _).addTransition _)
          (.timedOut (by simp [waits, htarget])) rfl
  | received raw =>
      refine (KeepsRun.lift _).andThen (fun _ _ h => h.2) fun payload => ?_
      refine Triple.bind (store_spec step payload run) fun _ => ?_
      rintro m ⟨outputs, hm, hkeeps, hstored⟩
      have heffect := (Effect.refl run).store hkeeps hstored
      refine (KeepsRun.now self).andThen (fun _ _ h => h.2) (fun ended => ?_) m hm
      exact triple_modifyRun (nextStep_spec self awake payload seq (heffect.setTiming _ _) rfl)

theorem complete_spec (self : FlowRunner σ) (frame : LoopFrame) (completion : Completion)
    (awake : frame.step.sleepSec = none)
    (loops : completion.exhausted = true → frame.step.untilCondition.isSome)
    {before run : RunState} (effect : Effect before run [] [])
    (episode : run.activeEpisode = before.activeEpisode) :
    Triple (Holds run) (self.complete frame completion) (Moves self frame.step frame.seq before)
      IsEngine := by
  rw [FlowRunner.complete, storeCompletion]
  by_cases hexhausted : completion.exhausted = true
  · simp only [hexhausted, if_true]
    refine (KeepsRun.pure ()).andThen (fun _ _ h => h.2) fun _ => ?_
    refine (KeepsRun.now self).andThen (fun _ _ h => h.2) fun ended => triple_modifyRun ?_
    split
    · exact triple_raise fun m _ => ⟨_, rfl⟩
    · rename_i target htarget
      refine triple_modifyRun (Moves.return frame.seq ?_)
      exact .moved ((effect.setTiming _ _).addTransition _)
        (.exhausted (loops hexhausted) htarget) episode
  · simp only [hexhausted]
    refine Triple.bind (store_spec frame.step completion.result run) fun _ => ?_
    rintro m ⟨outputs, hm, hkeeps, hstored⟩
    refine (KeepsRun.now self).andThen (fun _ _ h => h.2) (fun ended => triple_modifyRun ?_) m hm
    exact nextStep_spec self awake completion.result frame.seq
      ((effect.store hkeeps hstored).setTiming _ _) episode

theorem Effect.routed {before run : RunState} (effect : Effect before run [] [])
    (stepName : String) (seq : Nat) (startedAt : String) (failure : FailureDetail)
    (handler : String) (region : List String) :
    Effect before (run.routed stepName seq startedAt failure handler region) [errorAlias]
      [{ step := stepName, matched := "error", target := handler }] where
  requestId := effect.requestId
  params := effect.params
  keeps := fun key hkey => mem_keys_set.mpr (.inr (effect.keeps key hkey))
  produces := by simp [RunState.routed, mem_keys_set]
  transitions := by
    simp [RunState.routed, RunState.addTransition, RunState.setTiming, effect.transitions]

theorem meets_getRun {f : RunState → RunM σ Move} {Q : Move → Machine σ → Prop}
    {E : RunException → Machine σ → Prop} {m : Machine σ} (h : Meets Q E (f m.run m)) :
    Meets Q E ((getRun >>= f) m) :=
  h

/-- A failure is routed, or it goes on to the caller from the machine it was raised on. -/
theorem routeFailure_spec (self : FlowRunner σ) (step : FlowStep) (seq : Nat)
    (stepStarted : FiniteFloat) (exc : RunException) (operates : step.op.isSome)
    {before : RunState} {m : Machine σ} (effect : Effect before m.run [] [])
    (episode : m.run.activeEpisode = before.activeEpisode) :
    Meets (Moves self step seq before) (fun e m' => IsEngine e m' ∨ e = exc ∧ m' = m)
      (self.routeFailure step seq stepStarted exc m) := by
  unfold FlowRunner.routeFailure
  split
  · exact .inr ⟨rfl, rfl⟩
  · split
    · exact .inr ⟨rfl, rfl⟩
    · refine meets_getRun ?_
      cases hcalm : m.run.activeEpisode with
      | some active => exact .inl ⟨_, rfl⟩
      | none =>
          cases hhandler : self.handlerOf step with
          | none => exact .inr ⟨rfl, rfl⟩
          | some handler =>
              exact ⟨_, rfl, .routed operates hhandler (effect.routed _ _ _ _ _ _)
                (episode ▸ hcalm) rfl⟩

/-! ## Checkpoints -/

/-- A checkpoint of a run, within the size limit. -/
structure Saves (runner : FlowRunner σ) (run : RunState) (invocations : Nat) (name : String)
    (seq : Nat) (loop : Option LoopCheckpoint) (checkpoint : RunnerCheckpoint) : Prop where
  built : buildCheckpoint run invocations name seq loop = .ok checkpoint
  small : checkpoint.modelDump.canonicalBytes ≤ runner.limits.workflowStateBytes

/-- What a saved checkpoint holds. -/
theorem Saves.fields {self : FlowRunner σ} {run : RunState} {invocations : Nat} {name : String}
    {seq : Nat} {loop : Option LoopCheckpoint} {checkpoint : RunnerCheckpoint}
    (h : Saves self run invocations name seq loop checkpoint) :
    checkpoint.startedAt = run.startedAt ∧ checkpoint.params = run.params
      ∧ checkpoint.stepOutputs = run.stepOutputs ∧ checkpoint.stepTimings = run.stepTimings
      ∧ checkpoint.transitions = run.transitions ∧ checkpoint.failures = run.failures
      ∧ checkpoint.activeEpisode.map restoreEpisode = run.activeEpisode
      ∧ checkpoint.nextStepName = name ∧ checkpoint.nextSeq = seq
      ∧ checkpoint.invocations = invocations ∧ checkpoint.loop = loop := by
  have hbuilt := h.built
  unfold buildCheckpoint at hbuilt
  obtain ⟨episode, hepisode, hcreate⟩ := exists_of_bind_eq_ok hbuilt
  have hrestored : episode.map restoreEpisode = run.activeEpisode := by
    unfold saveEpisode at hepisode
    split at hepisode
    · rename_i hnone
      cases hepisode
      exact hnone.symm
    · rename_i current hsome
      rw [FailureEpisodeCheckpoint.create] at hepisode
      split at hepisode
      · simp only [Except.ok.injEq, Functor.map, Except.map] at hepisode
        rw [← hepisode, hsome]
        rfl
      · cases hepisode
  rw [RunnerCheckpoint.create] at hcreate
  split at hcreate
  · split at hcreate
    · cases hcreate
      exact ⟨rfl, rfl, rfl, rfl, rfl, rfl, hrestored, rfl, rfl, rfl, rfl⟩
    · cases hcreate
  · cases hcreate

/-- What a checkpoint comes to, on a given machine. -/
theorem checkpointAt_eq (self : FlowRunner σ) (point : HistoryPoint) (name : String) (seq : Nat)
    (loop : Option LoopCheckpoint) (m : Machine σ) :
    self.checkpointAt point name seq loop m =
      match buildCheckpoint m.run m.invocations name seq loop with
      | .error detail => .error (.engine (.python "ValidationError" detail)) m
      | .ok checkpoint =>
          match enforcePayloadBytes checkpoint.modelDump "workflow.continuation.state"
              self.limits.workflowStateBytes with
          | .error exc => .error (.engine exc) m
          | .ok _ =>
              if self.wantsFreshHistory (self.observeHistory point) then
                .error (.flowContinuation checkpoint (self.observeHistory point)) m
              else .ok () m := by
  unfold FlowRunner.checkpointAt FlowRunner.enforceCheckpoint
  simp only [Bind.bind, EStateM.bind, getRun, getInvocations]
  cases buildCheckpoint m.run m.invocations name seq loop with
  | error detail => rfl
  | ok checkpoint =>
      simp only [validated, Pure.pure, EStateM.pure]
      cases enforcePayloadBytes checkpoint.modelDump "workflow.continuation.state"
          self.limits.workflowStateBytes with
      | error exc => rfl
      | ok _ =>
          simp only [lift, Pure.pure, EStateM.pure]
          split <;> rfl

theorem checkpointAt_spec (self : FlowRunner σ) (point : HistoryPoint) (name : String) (seq : Nat)
    (loop : Option LoopCheckpoint) (run : RunState) :
    Triple (Holds run) (self.checkpointAt point name seq loop)
      (fun _ m => Holds run m ∧ ∃ checkpoint,
        Saves self run m.invocations name seq loop checkpoint)
      (fun e m => Holds run m ∧ (IsEngine e m ∨ ∃ checkpoint observation,
        e = .flowContinuation checkpoint observation
          ∧ Saves self run m.invocations name seq loop checkpoint)) := by
  rintro m rfl
  rw [checkpointAt_eq]
  cases hbuilt : buildCheckpoint m.run m.invocations name seq loop with
  | error detail => exact ⟨rfl, .inl ⟨_, rfl⟩⟩
  | ok checkpoint =>
      cases hsize : enforcePayloadBytes checkpoint.modelDump "workflow.continuation.state"
          self.limits.workflowStateBytes with
      | error exc =>
          simp only [hsize]
          exact ⟨rfl, .inl ⟨exc, rfl⟩⟩
      | ok u =>
          have hsaves : Saves self m.run m.invocations name seq loop checkpoint :=
            ⟨hbuilt, enforceLimit_ok_iff.mp hsize⟩
          simp only [hsize]
          split
          · exact ⟨rfl, .inr ⟨_, _, rfl, hsaves⟩⟩
          · exact ⟨rfl, checkpoint, hsaves⟩

/-! ## Loops -/

/-- The furthest a loop can get. -/
def FlowRunner.loopBound (self : FlowRunner σ) : Nat :=
  max self.limits.fanoutItems self.limits.loopAttempts

/-- What may interrupt a loop of a step that has come as far as `position`: an exception, or a
request for a fresh history with a checkpoint from further on. -/
inductive Interrupt (runner : FlowRunner σ) (name : String) (seq position : Nat) (run : RunState) :
    RunException → Machine σ → Prop where
  | engine {exc : EngineException} {m : Machine σ} (same : m.run = run) :
      Interrupt runner name seq position run (.engine exc) m
  | continuation {loop : LoopCheckpoint} {checkpoint : RunnerCheckpoint}
      {observation : HistoryObservation} {m : Machine σ} (same : m.run = run)
      (saves : Saves runner run m.invocations name seq (some loop) checkpoint)
      (ahead : position < loop.position) (bound : loop.position ≤ runner.loopBound) :
      Interrupt runner name seq position run (.flowContinuation checkpoint observation) m

namespace Interrupt

variable {runner : FlowRunner σ} {name : String} {seq position : Nat} {run : RunState}

theorem of_fails {e : RunException} {m : Machine σ} (h : Fails run e m) :
    Interrupt runner name seq position run e m := by
  obtain ⟨same, exc, rfl⟩ := h
  exact .engine same

theorem run_eq {e : RunException} {m : Machine σ}
    (h : Interrupt runner name seq position run e m) : m.run = run := by
  cases h with
  | engine same => exact same
  | continuation same _ _ _ => exact same

theorem mono {later : Nat} (hle : position ≤ later) {e : RunException} {m : Machine σ}
    (h : Interrupt runner name seq later run e m) :
    Interrupt runner name seq position run e m := by
  cases h with
  | engine same => exact .engine same
  | continuation same saves ahead bound =>
      exact .continuation same saves (Nat.lt_of_le_of_lt hle ahead) bound

end Interrupt

theorem checkpointDuringLoop_spec (self : FlowRunner σ) (name : String) (seq : Nat)
    (loop : Except String LoopCheckpoint) {position : Nat} (run : RunState)
    (hloop : ∀ l, loop = .ok l → position < l.position ∧ l.position ≤ self.loopBound) :
    Triple (Holds run) (self.checkpointDuringLoop name seq loop) (fun _ => Holds run)
      (Interrupt self name seq position run) := by
  rw [FlowRunner.checkpointDuringLoop]
  cases loop with
  | error detail => exact Triple.throw fun m hm => .engine hm
  | ok l =>
      obtain ⟨ahead, bound⟩ := hloop l rfl
      change Triple (Holds run) (if self.boundedExecutionEnabled then
        self.checkpointAt (.duringLoop seq l.position) name seq (some l) else pure ()) _ _
      split
      · refine (checkpointAt_spec self _ name seq (some l) run).consequence (fun _ h => h)
          (fun _ _ h => h.1) fun e m h => ?_
        obtain ⟨same, ⟨exc, rfl⟩ | ⟨checkpoint, observation, rfl, saves⟩⟩ := h
        · exact .engine same
        · exact .continuation same saves ahead bound
      · exact Triple.pure fun _ h => h

theorem eq_of_map_eq_ok {α β : Type} {f : α → β} {x : Except String α} {b : β}
    (h : f <$> x = .ok b) : ∃ a, x = .ok a ∧ f a = b := by
  cases x with
  | ok a => exact ⟨a, rfl, by simpa [Functor.map, Except.map] using h⟩
  | error e => cases h

theorem untilAttempts_spec (self : FlowRunner σ) (frame : LoopFrame) (condition : String)
    {maxIterations : Nat} (hmax : maxIterations ≤ self.limits.loopAttempts)
    {remaining attemptsCompleted : Nat} (result : JsonValue)
    (hsum : attemptsCompleted + remaining = maxIterations) (run : RunState) :
    Triple (Holds run)
      (self.untilAttempts frame condition maxIterations remaining attemptsCompleted result)
      (fun _ => Holds run)
      (Interrupt self frame.step.name frame.seq attemptsCompleted run) := by
  induction remaining generalizing attemptsCompleted result with
  | zero => exact Triple.pure fun _ h => h
  | succ remaining ih =>
      refine (KeepsRun.invoke self _ _ _ _ _).andThen (fun _ _ h => .of_fails h) fun step => ?_
      refine (KeepsRun.lift _).andThen (fun _ _ h => .of_fails h) fun satisfied => ?_
      split
      · exact Triple.pure fun _ h => h
      · refine (KeepsRun.pause self _ _ _).andThen (fun _ _ h => .of_fails h) fun _ => ?_
        refine Triple.bind (checkpointDuringLoop_spec self _ _ _ run ?_) fun _ => ?_
        · intro l hl
          obtain ⟨checkpoint, hcheckpoint, rfl⟩ := eq_of_map_eq_ok hl
          have hbound : self.limits.loopAttempts ≤ self.loopBound := Nat.le_max_right _ _
          have hcompleted := (UntilCheckpoint.of_create hcheckpoint).2.2.1
          simp only [LoopCheckpoint.position, hcompleted]
          omega
        · exact (ih _ (by omega)).consequence (fun _ h => h) (fun _ _ h => h)
            fun _ _ h => h.mono (Nat.le_succ _)

theorem runUntil_spec (self : FlowRunner σ) (frame : LoopFrame)
    (continuation : Option UntilCheckpoint) (run : RunState) :
    Triple (Holds run) (self.runUntil frame continuation) (fun _ => Holds run)
      (Interrupt self frame.step.name frame.seq
        ((continuation.map UntilCheckpoint.attemptsCompleted).getD 0) run) := by
  refine triple_lift (fun exc m h => .engine h) fun bounds hbounds => ?_
  unfold FlowRunner.untilBounds at hbounds
  obtain ⟨_, _, hbounds⟩ := exists_of_bind_eq_ok hbounds
  split at hbounds
  · obtain ⟨_, hlimit, hbounds⟩ := exists_of_bind_eq_ok hbounds
    split at hbounds
    · cases hbounds
    · cases hbounds
      exact untilAttempts_spec self frame _ (enforceLimit_ok_iff.mp hlimit) _ (by omega) run
  · cases hbounds

theorem flatten_chunks {α : Type} {size : Nat} (hsize : 0 < size) (fuel : Nat)
    (items : List α) (hfuel : items.length ≤ fuel) : (chunks size fuel items).flatten = items := by
  induction fuel generalizing items with
  | zero => simp [chunks, List.length_eq_zero_iff.mp (Nat.le_zero.mp hfuel)]
  | succ fuel ih =>
      cases items with
      | nil => rfl
      | cons item items =>
          have hrest : ((item :: items).drop size).length ≤ fuel := by
            simp only [List.length_drop, List.length_cons] at hfuel ⊢
            omega
          rw [chunks, List.flatten_cons, ih _ hrest, List.take_append_drop]
          simp

theorem ne_nil_of_mem_chunks {α : Type} {size : Nat} (hsize : 0 < size) {fuel : Nat}
    {items chunk : List α} (h : chunk ∈ chunks size fuel items) : chunk ≠ [] := by
  induction fuel generalizing items with
  | zero => simp [chunks] at h
  | succ fuel ih =>
      cases items with
      | nil => simp [chunks] at h
      | cons item items =>
          rw [chunks] at h
          · rcases List.mem_cons.mp h with rfl | h
            · obtain ⟨n, rfl⟩ := Nat.exists_eq_succ_of_ne_zero (Nat.ne_of_gt hsize)
              simp
            · exact ih h
          · simp

theorem runBatches_spec (self : FlowRunner σ) (frame : LoopFrame)
    {one : IterationKey × JsonValue → RunM σ JsonValue} (hone : ∀ entry, KeepsRun (one entry))
    (strategy : IterationFailStrategy) (parallelism : Option Nat)
    (batches : List (List (IterationKey × JsonValue))) (hne : ∀ batch ∈ batches, batch ≠ [])
    {offset : Nat} (hbound : offset + batches.flatten.length ≤ self.limits.fanoutItems)
    (progress : IterationProgress) (run : RunState) :
    Triple (Holds run)
      (self.runBatches frame one strategy parallelism batches offset progress)
      (fun _ => Holds run) (Interrupt self frame.step.name frame.seq offset run) := by
  induction batches generalizing offset progress with
  | nil => exact Triple.pure fun _ h => h
  | cons batch rest ih =>
      simp only [List.flatten_cons, List.length_append] at hbound
      have hpos : 0 < batch.length := List.length_pos_iff.mpr (hne batch (by simp))
      refine (KeepsRun.runBatch self hone strategy parallelism batch).andThen
        (fun _ _ h => .of_fails h) fun outcomes => ?_
      refine Triple.bind (checkpointDuringLoop_spec self _ _ _ run ?_) fun _ => ?_
      · intro l hl
        obtain ⟨checkpoint, hcheckpoint, rfl⟩ := eq_of_map_eq_ok hl
        have hmax : self.limits.fanoutItems ≤ self.loopBound := Nat.le_max_left _ _
        have hoffset := (IterationCheckpoint.of_create hcheckpoint).2.2.1
        simp only [LoopCheckpoint.position, hoffset]
        omega
      · exact (ih (fun b hb => hne b (by simp [hb])) (by omega) _).consequence (fun _ h => h)
          (fun _ _ h => h) fun _ _ h => h.mono (Nat.le_add_right _ _)

theorem FlowRunner.batchSize_pos (self : FlowRunner σ) (step : FlowStep) (count : Nat) :
    0 < self.batchSize step count := by
  have := self.limits.fanoutChunkItems_pos
  rw [FlowRunner.batchSize]
  split_ifs <;> omega

theorem runIteration_spec (self : FlowRunner σ) (frame : LoopFrame) (reference : ReferencePath)
    (continuation : Option IterationCheckpoint) (run : RunState) :
    Triple (Holds run) (self.runIteration frame reference continuation) (fun _ => Holds run)
      (Interrupt self frame.step.name frame.seq
        ((continuation.map IterationCheckpoint.nextOffset).getD 0) run) := by
  refine triple_lift (fun exc m h => .engine h) fun setup hsetup => ?_
  unfold FlowRunner.iterationSetup at hsetup
  obtain ⟨_, _, hsetup⟩ := exists_of_bind_eq_ok hsetup
  obtain ⟨_, _, hsetup⟩ := exists_of_bind_eq_ok hsetup
  obtain ⟨items, _, hsetup⟩ := exists_of_bind_eq_ok hsetup
  obtain ⟨_, hfanout, hsetup⟩ := exists_of_bind_eq_ok hsetup
  obtain ⟨_, hprogress, hsetup⟩ := exists_of_bind_eq_ok hsetup
  cases hsetup
  have hlimit : items.entries.length ≤ self.limits.fanoutItems := enforceLimit_ok_iff.mp hfanout
  have hoffset : (continuation.map IterationCheckpoint.nextOffset).getD 0
      ≤ items.entries.length := by
    unfold checkProgress at hprogress
    split at hprogress
    · cases hprogress
    · omega
  have hsize := self.batchSize_pos frame.step items.entries.length
  refine Triple.bind (runBatches_spec self frame (KeepsRun.runOne self frame) _ _ _
    (fun batch => ne_nil_of_mem_chunks hsize) ?_ _ run) fun progress =>
      Triple.pure fun _ h => h
  rw [flatten_chunks hsize _ _ (Nat.le_refl _), List.length_drop]
  change _ + (items.entries.length - _) ≤ _
  omega

/-- A loop goes on from the position its checkpoint has. -/
theorem position_of_checkContinuation {step : FlowStep} {loop : Option LoopCheckpoint}
    (hkind : checkContinuation step loop = .ok ())
    (exclusive : step.untilCondition.isSome → step.forEach = none) :
    (step.forEach.isSome → ((loop.bind LoopCheckpoint.asIteration).map
        IterationCheckpoint.nextOffset).getD 0 = (loop.map LoopCheckpoint.position).getD 0)
      ∧ (step.forEach = none → ((loop.bind LoopCheckpoint.asUntil).map
        UntilCheckpoint.attemptsCompleted).getD 0 = (loop.map LoopCheckpoint.position).getD 0) := by
  cases loop with
  | none => simp
  | some checkpoint =>
      unfold checkContinuation at hkind
      cases checkpoint with
      | iteration c =>
          simp only at hkind
          split at hkind
          · rename_i hmatch
            refine ⟨fun _ => rfl, fun hnone => ?_⟩
            simp [hnone] at hmatch
          · cases hkind
      | untilLoop c =>
          simp only at hkind
          split at hkind
          · rename_i hmatch
            refine ⟨fun hsome => ?_, fun _ => rfl⟩
            simp [exclusive hmatch.2] at hsome
          · cases hkind

theorem operate_spec (self : FlowRunner σ) (frame : LoopFrame) (loop : Option LoopCheckpoint)
    (run : RunState) (hkind : checkContinuation frame.step loop = .ok ())
    (exclusive : frame.step.untilCondition.isSome → frame.step.forEach = none) :
    Triple (Holds run) (self.operate frame loop)
      (fun completion m => Holds run m
        ∧ (completion.exhausted = true → frame.step.untilCondition.isSome))
      (Interrupt self frame.step.name frame.seq ((loop.map LoopCheckpoint.position).getD 0)
        run) := by
  obtain ⟨hiteration, huntil⟩ := position_of_checkContinuation hkind exclusive
  unfold FlowRunner.operate
  dsimp only
  split
  · rename_i reference heach
    rw [← hiteration (by simp [heach])]
    exact Triple.bind (runIteration_spec self frame reference _ run) fun outcome =>
      Triple.pure fun m h => ⟨h, fun hexhausted => by cases hexhausted⟩
  · rename_i heach
    split
    · rename_i condition hcondition
      rw [← huntil heach]
      refine Triple.bind (runUntil_spec self frame _ run) fun outcome =>
        Triple.pure fun m h => ⟨h, fun _ => ?_⟩
      simp [(truthy_eq_some hcondition).1]
    · exact (KeepsRun.invoke self _ _ _ _ _).andThen (fun _ _ h => .of_fails h) fun result =>
        Triple.pure fun m h => ⟨h, fun hexhausted => by cases hexhausted⟩

/-! ## Visits -/

/-- The frame that a visit prepares. -/
structure Prepared (step : FlowStep) (seq : Nat) (run : RunState) (prepared : LoopFrame × Bool)
    (m : Machine σ) : Prop where
  step_eq : prepared.1.step = step
  seq_eq : prepared.1.seq = seq
  operates : step.op.isSome
  skips : prepared.2 = false → step.condition.isSome
  run_eq : m.run = { run with currentStepStarted := some prepared.1.stepStarted }

theorem readInput_skips {self : FlowRunner σ} {step : FlowStep} {outputs params : JsonObject}
    {input : JsonValue × Bool} (h : self.readInput step outputs params = .ok input)
    (hskip : input.2 = false) : step.condition.isSome := by
  unfold FlowRunner.readInput at h
  cases hcondition : truthy step.condition with
  | none =>
      rw [hcondition] at h
      cases hinput : resolveInput step.input outputs params with
      | ok value =>
          rw [hinput] at h
          simp only [ok_bind, pure_eq_ok, asResolutionError, Except.ok.injEq] at h
          rw [← h] at hskip
          cases hskip
      | error exc =>
          rw [hinput] at h
          cases exc <;> simp [asResolutionError] at h
  | some condition => simp [(truthy_eq_some hcondition).1]

/-- What a frame is made of. -/
theorem frameOf_ok {self : FlowRunner σ} {step : FlowStep} {seq : Nat} {started : FiniteFloat}
    {outputs params : JsonObject} {prepared : LoopFrame × Bool}
    (h : self.frameOf step seq started outputs params = .ok prepared) :
    prepared.1.step = step ∧ prepared.1.seq = seq ∧ prepared.1.stepStarted = started
      ∧ prepared.1.stepOutputs = outputs ∧ prepared.1.params = params ∧ step.op.isSome
      ∧ (prepared.2 = false → step.condition.isSome) := by
  unfold FlowRunner.frameOf at h
  dsimp only at h
  split at h
  · cases h
  · rename_i op hop
    obtain ⟨stepDef, -, h⟩ := exists_of_bind_eq_ok h
    obtain ⟨serviceParams, -, h⟩ := exists_of_bind_eq_ok h
    obtain ⟨mergedGlobals, -, h⟩ := exists_of_bind_eq_ok h
    obtain ⟨input, hinput, h⟩ := exists_of_bind_eq_ok h
    cases h
    exact ⟨rfl, rfl, rfl, rfl, rfl, by simp [hop], readInput_skips hinput⟩

theorem prepare_spec (self : FlowRunner σ) (step : FlowStep) (seq : Nat)
    (loop : Option LoopCheckpoint) (run : RunState) :
    Triple (Holds run) (self.prepare step seq loop) (Prepared step seq run) IsEngine := by
  have hstart : KeepsRun (self.stepStart loop) := by
    unfold FlowRunner.stepStart
    split
    · exact KeepsRun.pure _
    · exact KeepsRun.now self
  refine hstart.andThen (fun _ _ h => h.2) fun started => triple_modifyRun (triple_getRun ?_)
  intro m hm
  cases hframe : self.frameOf step seq started run.stepOutputs run.params with
  | error exc => exact ⟨exc, rfl⟩
  | ok prepared =>
      obtain ⟨hstep, hseq, hstarted, -, -, operates, skips⟩ := frameOf_ok hframe
      exact ⟨hstep, hseq, operates, skips, by rw [hstarted]; exact hm⟩

/-- How a visit may be cut short. -/
def Cut (self : FlowRunner σ) (name : String) (seq position : Nat) (run : RunState)
    (e : RunException) (m : Machine σ) : Prop :=
  IsEngine e m ∨ ∃ started,
    Interrupt self name seq position { run with currentStepStarted := started } e m

theorem visitOp_spec (self : FlowRunner σ) (step : FlowStep) (seq : Nat)
    (loop : Option LoopCheckpoint) (run : RunState) (awake : step.sleepSec = none)
    (hkind : checkContinuation step loop = .ok ())
    (exclusive : step.untilCondition.isSome → step.forEach = none) :
    Triple (Holds run) (self.visitOp step seq loop) (Moves self step seq run)
      (Cut self step.name seq ((loop.map LoopCheckpoint.position).getD 0) run) := by
  refine Triple.bind ((prepare_spec self step seq loop run).consequence (fun _ h => h)
    (fun _ _ h => h) fun _ _ h => .inl h) fun prepared => ?_
  obtain ⟨frame, runs⟩ := prepared
  rintro m ⟨rfl, rfl, operates, skips, hrun⟩
  have heffect : Effect run { run with currentStepStarted := some frame.stepStarted } [] [] :=
    (Effect.refl run).setStarted _
  revert m
  change Triple (Holds { run with currentStepStarted := some frame.stepStarted }) _ _ _
  split
  · refine Triple.bind (Triple.attempt (operate_spec self frame loop _ hkind exclusive))
      fun ended => ?_
    cases ended with
    | ok completion =>
        rintro m ⟨hm, loops⟩
        exact ((complete_spec self frame completion awake loops heffect rfl).consequence
          (fun _ h => h) (fun _ _ h => h) fun _ _ h => .inl h) m hm
    | error exc =>
        intro m hinterrupt
        have hrouted := routeFailure_spec self frame.step frame.seq frame.stepStarted exc operates
          (hinterrupt.run_eq ▸ heffect) (by rw [hinterrupt.run_eq])
        refine hrouted.mono (fun _ _ h => h) fun e m' h => ?_
        rcases h with h | ⟨rfl, rfl⟩
        · exact .inl h
        · exact .inr ⟨_, hinterrupt⟩
  · rename_i hskip
    refine triple_modifyRun (Moves.return frame.seq ?_)
    exact .moved (heffect.setTiming _ _) (.skipped (skips (by simpa using hskip))) rfl

/-- How a visit ends: at a terminal, or with a move. -/
inductive VisitEnd (self : FlowRunner σ) (step : FlowStep) (seq : Nat) (before : RunState)
    (m : Machine σ) : Move → Prop where
  | terminal (ends : step.terminal = true) (same : m.run = before) :
      VisitEnd self step seq before m (.terminal step.reason)
  | moved {target : Option String} (goes : step.terminal = false)
      (departure : Departure self step before m.run target) :
      VisitEnd self step seq before m (.goto target (seq + 1))

theorem VisitEnd.of_moves {self : FlowRunner σ} {step : FlowStep} {seq : Nat} {before : RunState}
    {m : Machine σ} {move : Move} (goes : step.terminal = false)
    (h : Moves self step seq before move m) : VisitEnd self step seq before m move := by
  obtain ⟨target, rfl, departure⟩ := h
  exact .moved goes departure

theorem flowStep_mem {workflow : WorkflowConfig} {name : String} {step : FlowStep}
    (h : workflow.flowStep name = some step) : step ∈ workflow.flow ∧ step.name = name := by
  have hmem := List.mem_of_find?_eq_some h
  have hname := List.find?_some h
  exact ⟨by simpa using hmem, by simpa using hname⟩

/-- The loops of a workflow are of one kind each. -/
def WorkflowConfig.Exclusive (self : WorkflowConfig) : Prop :=
  ∀ step ∈ self.flow, step.untilCondition.isSome → step.forEach = none

theorem visitStep_spec (self : FlowRunner σ) (exclusive : self.config.Exclusive) (name : String)
    (seq : Nat) (loop : Option LoopCheckpoint) (run : RunState) :
    Triple (Holds run) (self.visitStep name seq loop)
      (fun move m => ∃ step, self.config.flowStep name = some step
        ∧ VisitEnd self step seq (run.enter name seq) m move)
      (fun e m => IsEngine e m ∨ ∃ step, self.config.flowStep name = some step
        ∧ step.terminal = false ∧ Cut self name seq ((loop.map LoopCheckpoint.position).getD 0)
          (run.enter name seq) e m) := by
  refine triple_modifyRun ?_
  cases hstep : self.config.flowStep name with
  | none => exact triple_raise fun m _ => .inl ⟨_, rfl⟩
  | some step =>
      obtain ⟨hmem, hname⟩ := flowStep_mem hstep
      change Triple _ (lift (checkContinuation step loop) >>= fun _ => _) _ _
      refine triple_lift (fun exc m _ => .inl ⟨exc, rfl⟩) fun _ hkind => ?_
      split
      · rename_i hterminal
        exact Triple.pure fun m hm => ⟨step, rfl, .terminal hterminal hm⟩
      · rename_i hterminal
        have goes : step.terminal = false := by simpa using hterminal
        split
        · rename_i seconds hsleep
          exact (visitSleep_spec self hsleep seq _).consequence (fun _ h => h)
            (fun _ _ h => ⟨step, rfl, .of_moves goes h⟩) fun _ _ h => .inl h
        · rename_i wait hsleep hwait
          exact (visitWait_spec self hsleep hwait seq _).consequence (fun _ h => h)
            (fun _ _ h => ⟨step, rfl, .of_moves goes h⟩) fun _ _ h => .inl h
        · rename_i hsleep _
          refine (visitOp_spec self step seq loop _ hsleep hkind (exclusive step hmem)).consequence
            (fun _ h => h) (fun _ _ h => ⟨step, rfl, .of_moves goes h⟩) fun _ _ h => ?_
          exact .inr ⟨step, rfl, goes, hname ▸ h⟩

end Justflow
