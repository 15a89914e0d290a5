import Justflow.Engine.Walk

/-!
# Outcomes of visits

How a visit ended is told by the calls it made: the pause or the wait, the condition, the
operation.  A visit that is left records exactly this outcome under the name of its step, and only
a failed operation opens an episode.
-/

open Fields Program JsonValue

namespace Justflow

variable {σ : Type} {α β : Type}

/-! ## Reading a run backwards -/

theorem bind_eq_ok {x : RunM σ α} {f : α → RunM σ β} {m m' : Machine σ} {b : β}
    (h : (x >>= f) m = .ok b m') : ∃ a m₁, x m = .ok a m₁ ∧ f a m₁ = .ok b m' := by
  cases hx : x m with
  | ok a m₁ =>
      refine ⟨a, m₁, rfl, ?_⟩
      simpa [Bind.bind, EStateM.bind, hx] using h
  | error e m₁ => simp [Bind.bind, EStateM.bind, hx] at h

theorem bind_eq_error {x : RunM σ α} {f : α → RunM σ β} {m m' : Machine σ} {e : RunException}
    (h : (x >>= f) m = .error e m') :
    x m = .error e m' ∨ ∃ a m₁, x m = .ok a m₁ ∧ f a m₁ = .error e m' := by
  cases hx : x m with
  | ok a m₁ =>
      refine .inr ⟨a, m₁, rfl, ?_⟩
      simpa [Bind.bind, EStateM.bind, hx] using h
  | error d m₁ =>
      simp only [Bind.bind, EStateM.bind, hx, EStateM.Result.error.injEq] at h
      obtain ⟨rfl, rfl⟩ := h
      exact .inl rfl

theorem lift_eq_ok {x : Except EngineException α} {a : α} {m m' : Machine σ}
    (h : (lift x : RunM σ α) m = .ok a m') : x = .ok a ∧ m' = m := by
  cases x with
  | ok b =>
      obtain ⟨rfl, rfl⟩ := EStateM.Result.ok.inj h
      exact ⟨rfl, rfl⟩
  | error e => cases h

theorem getRun_eq_ok {run : RunState} {m m' : Machine σ} (h : getRun m = .ok run m') :
    run = m.run ∧ m' = m := by
  obtain ⟨rfl, rfl⟩ := EStateM.Result.ok.inj h
  exact ⟨rfl, rfl⟩

theorem modifyRun_eq_ok {f : RunState → RunState} {u : Unit} {m m' : Machine σ}
    (h : modifyRun f m = .ok u m') : m' = { m with run := f m.run } := by
  obtain ⟨-, rfl⟩ := EStateM.Result.ok.inj h
  rfl

theorem returns_eq_ok {a b : α} {m m' : Machine σ} (h : (pure a : RunM σ α) m = .ok b m') :
    b = a ∧ m' = m := by
  obtain ⟨rfl, rfl⟩ := EStateM.Result.ok.inj h
  exact ⟨rfl, rfl⟩

theorem KeepsRun.of_ok {x : RunM σ α} (keeps : KeepsRun x) {a : α} {m m' : Machine σ}
    (h : x m = .ok a m') : m'.run = m.run := by
  have := keeps m.run m rfl
  rw [h] at this
  exact this

theorem KeepsRun.of_error {x : RunM σ α} (keeps : KeepsRun x) {e : RunException}
    {m m' : Machine σ} (h : x m = .error e m') : m'.run = m.run := by
  have := keeps m.run m rfl
  rw [h] at this
  exact this.1

/-! ## How a visit ends -/

/-- The outcome of a visit that starts on this machine. -/
inductive VisitOutcome (self : FlowRunner σ) (step : FlowStep) (seq : Nat)
    (loop : Option LoopCheckpoint) (m : Machine σ) : StepStatus → Prop where
  | slept {seconds : Nat} (sleeps : step.sleepSec = some seconds) :
      VisitOutcome self step seq loop m .slept
  | timedOut {wait : WaitForConfig} {started : FiniteFloat} {m₁ m₂ : Machine σ}
      (awake : step.sleepSec = none) (waits : step.waitFor = some wait)
      (began : self.now m = .ok started m₁)
      (ended : self.runWait step wait m.run.stepOutputs m.run.params m₁ = .ok .timedOut m₂) :
      VisitOutcome self step seq loop m .timedOut
  | received {wait : WaitForConfig} {started : FiniteFloat} {raw : JsonValue} {m₁ m₂ : Machine σ}
      (awake : step.sleepSec = none) (waits : step.waitFor = some wait)
      (began : self.now m = .ok started m₁)
      (ended : self.runWait step wait m.run.stepOutputs m.run.params m₁ =
        .ok (.received raw) m₂) :
      VisitOutcome self step seq loop m .succeeded
  | skipped {frame : LoopFrame} {m₁ : Machine σ} (awake : step.sleepSec = none)
      (unbound : step.waitFor = none)
      (prepared : self.prepare step seq loop m = .ok (frame, false) m₁) :
      VisitOutcome self step seq loop m .skipped
  | completed {frame : LoopFrame} {completion : Completion} {m₁ m₂ : Machine σ}
      (awake : step.sleepSec = none) (unbound : step.waitFor = none)
      (prepared : self.prepare step seq loop m = .ok (frame, true) m₁)
      (ended : self.operate frame loop m₁ = .ok completion m₂) :
      VisitOutcome self step seq loop m
        (if completion.exhausted then .exhausted else .succeeded)
  | failed {frame : LoopFrame} {exc : RunException} {m₁ m₂ : Machine σ}
      (awake : step.sleepSec = none) (unbound : step.waitFor = none)
      (prepared : self.prepare step seq loop m = .ok (frame, true) m₁)
      (ended : self.operate frame loop m₁ = .error exc m₂) :
      VisitOutcome self step seq loop m .failed

/-- The operation of a visit raised. -/
structure OperationFails (runner : FlowRunner σ) (step : FlowStep) (seq : Nat)
    (loop : Option LoopCheckpoint) (m : Machine σ) (exc : RunException) : Prop where
  awake : step.sleepSec = none
  unbound : step.waitFor = none
  raised : ∃ frame m₁ m₂, runner.prepare step seq loop m = .ok (frame, true) m₁ ∧
    runner.operate frame loop m₁ = .error exc m₂

/-- The entry of a visit is recorded under its step. -/
def TimingRecorded (name : String) (seq : Nat) (status : StepStatus) (before after : RunState) : Prop :=
  ∃ entry : StepAuditEntry, entry.seq = seq ∧ entry.status = status.value ∧
    after.stepTimings = Fields.set name entry.dump before.stepTimings

theorem TimingRecorded.of_setTiming {name : String} {seq : Nat} {status : StepStatus}
    {before run after : RunState} {entry : StepAuditEntry}
    (timings : after.stepTimings = (run.setTiming name entry).stepTimings)
    (same : run.stepTimings = before.stepTimings) (hseq : entry.seq = seq)
    (hstatus : entry.status = status.value) : TimingRecorded name seq status before after :=
  ⟨entry, hseq, hstatus, by rw [timings, RunState.setTiming, same]⟩

/-- The episode that a failure opens. -/
def FlowRunner.openedEpisode (self : FlowRunner σ) (stepName : String) (exc : RunException)
    (handler : String) : FailureEpisode where
  primary := classifyFailure exc.toEngine .step (some stepName) (some .stepFailed)
  handler := handler
  handlerSteps := self.config.handlerRegion handler

/-- How a visit that is left treats the episode. -/
inductive EpisodeAfter (self : FlowRunner σ) (step : FlowStep) (seq : Nat)
    (loop : Option LoopCheckpoint) (m m' : Machine σ) (target : Option String) : Prop where
  | kept (calm : ∀ exc, ¬ OperationFails self step seq loop m exc)
      (same : m'.run.activeEpisode = m.run.activeEpisode)
  | opened {exc : RunException} {handler : String}
      (fails : OperationFails self step seq loop m exc) (before : m.run.activeEpisode = none)
      (declared : self.handlerOf step = some handler) (enters : target = some handler)
      (same : m'.run.activeEpisode = some (self.openedEpisode step.name exc handler))

/-- What a visit that is left does to the outputs. -/
inductive OutputsAfter (step : FlowStep) (before : JsonObject) : JsonObject → Prop where
  | kept : OutputsAfter step before before
  | stored {result : JsonValue} {after : JsonObject}
      (stores : storeOutput step result before = .ok after) : OutputsAfter step before after
  | failed (failure : JsonValue) :
      OutputsAfter step before (Fields.set errorAlias failure before)

/-- What a visit that is left has done. -/
structure Leaves (runner : FlowRunner σ) (step : FlowStep) (seq : Nat)
    (loop : Option LoopCheckpoint) (m m' : Machine σ) (target : Option String) : Prop where
  recorded : ∃ status, VisitOutcome runner step seq loop m status ∧
    TimingRecorded step.name seq status m.run m'.run
  episode : EpisodeAfter runner step seq loop m m' target
  outputs : OutputsAfter step m.run.stepOutputs m'.run.stepOutputs

theorem chooseBranch_keepsRun (self : FlowRunner σ) (step : FlowStep) (result : JsonValue)
    (outputs params : JsonObject) (branches : List OnResultBranch) :
    KeepsRun (self.chooseBranch step result outputs params branches) := by
  induction branches with
  | nil => exact KeepsRun.pure _
  | cons branch rest ih =>
      rw [FlowRunner.chooseBranch]
      split
      · exact KeepsRun.pure _
      · split
        · exact KeepsRun.raise _
        · refine (KeepsRun.branchMatches self step result outputs params _).bind fun tested => ?_
          split
          · split
            · exact KeepsRun.raise _
            · exact KeepsRun.pure _
          · exact ih

/-- Picking the next step changes nothing but the transitions. -/
theorem nextStep_ok {self : FlowRunner σ} {step : FlowStep} {result : JsonValue} {nextSeq : Nat}
    {move : Move} {m m' : Machine σ} (h : self.nextStep step result nextSeq m = .ok move m') :
    (∃ target, move = .goto target nextSeq) ∧ m'.run.stepTimings = m.run.stepTimings ∧
      m'.run.activeEpisode = m.run.activeEpisode ∧
      m'.run.stepOutputs = m.run.stepOutputs := by
  rw [FlowRunner.nextStep] at h
  split at h
  · obtain ⟨rfl, rfl⟩ := returns_eq_ok h
    exact ⟨⟨_, rfl⟩, rfl, rfl, rfl⟩
  · obtain ⟨run, m₁, hrun, h₁⟩ := bind_eq_ok h
    obtain ⟨rfl, rfl⟩ := getRun_eq_ok hrun
    obtain ⟨decision, m₂, hchosen, h₂⟩ := bind_eq_ok h₁
    have same := (chooseBranch_keepsRun self step result _ _ _).of_ok hchosen
    cases decision with
    | none =>
        obtain ⟨rfl, rfl⟩ := returns_eq_ok h₂
        exact ⟨⟨_, rfl⟩, by rw [same], by rw [same], by rw [same]⟩
    | some decision =>
        obtain ⟨_, m₃, hmodified, h₃⟩ := bind_eq_ok h₂
        obtain rfl := modifyRun_eq_ok hmodified
        obtain ⟨rfl, rfl⟩ := returns_eq_ok h₃
        exact ⟨⟨_, rfl⟩, by simp [RunState.addTransition, same],
          by simp [RunState.addTransition, same], by simp [RunState.addTransition, same]⟩

/-- Storing a result changes nothing but the outputs. -/
theorem store_ok {step : FlowStep} {result : JsonValue} {u : Unit} {m m' : Machine σ}
    (h : store step result m = .ok u m') :
    ∃ outputs, storeOutput step result m.run.stepOutputs = .ok outputs ∧
      m'.run = { m.run with stepOutputs := outputs } := by
  rw [store] at h
  obtain ⟨run, m₁, hrun, h₁⟩ := bind_eq_ok h
  obtain ⟨rfl, rfl⟩ := getRun_eq_ok hrun
  obtain ⟨outputs, m₂, hstored, h₂⟩ := bind_eq_ok h₁
  obtain ⟨hstored, rfl⟩ := lift_eq_ok hstored
  obtain rfl := modifyRun_eq_ok h₂
  exact ⟨outputs, hstored, rfl⟩

variable {self : FlowRunner σ} {step : FlowStep} {seq : Nat} {loop : Option LoopCheckpoint}
  {m m' : Machine σ} {move : Move}

/-- What a visit that is left promises. -/
def LeavesWith (self : FlowRunner σ) (step : FlowStep) (seq : Nat) (loop : Option LoopCheckpoint)
    (m m' : Machine σ) (move : Move) : Prop :=
  ∃ target, move = .goto target (seq + 1) ∧ Leaves self step seq loop m m' target

theorem visitSleep_leaves {seconds : Nat} (sleeps : step.sleepSec = some seconds)
    (h : self.visitSleep step seconds seq m = .ok move m') :
    LeavesWith self step seq loop m m' move := by
  rw [FlowRunner.visitSleep] at h
  obtain ⟨_, m₁, hslept, h₁⟩ := bind_eq_ok h
  have same := (KeepsRun.callExecutor _).of_ok hslept
  obtain ⟨_, m₂, hmodified, h₂⟩ := bind_eq_ok h₁
  obtain rfl := modifyRun_eq_ok hmodified
  obtain ⟨rfl, rfl⟩ := returns_eq_ok h₂
  refine ⟨_, rfl, ⟨_, .slept sleeps, .of_setTiming rfl ?_ rfl rfl⟩, .kept ?_ ?_, ?_⟩
  · rw [same]
  · intro exc fails
    simpa [sleeps] using fails.awake
  · simp only [RunState.setTiming, same]
  · simp only [RunState.setTiming, same]
    exact .kept

theorem visitWait_leaves {wait : WaitForConfig} (awake : step.sleepSec = none)
    (waits : step.waitFor = some wait) (h : self.visitWait step wait seq m = .ok move m') :
    LeavesWith self step seq loop m m' move := by
  have calm : ∀ exc, ¬ OperationFails self step seq loop m exc := by
    intro exc fails
    simpa [waits] using fails.unbound
  rw [FlowRunner.visitWait] at h
  obtain ⟨started, m₁, began, h₁⟩ := bind_eq_ok h
  have same₁ := (KeepsRun.now self).of_ok began
  obtain ⟨run, m₂, hrun, h₂⟩ := bind_eq_ok h₁
  obtain ⟨rfl, rfl⟩ := getRun_eq_ok hrun
  obtain ⟨outcome, m₃, ended, h₃⟩ := bind_eq_ok h₂
  have same₃ := (KeepsRun.runWait self step wait _ _).of_ok ended
  rw [same₁] at ended
  cases outcome with
  | timedOut =>
      obtain ⟨_, m₄, hmodified, h₄⟩ := bind_eq_ok h₃
      obtain rfl := modifyRun_eq_ok hmodified
      cases declared : wait.onTimeout with
      | none =>
          simp only [declared] at h₄
          cases h₄
      | some target =>
          simp only [declared] at h₄
          obtain ⟨_, m₅, hmodified, h₅⟩ := bind_eq_ok h₄
          obtain rfl := modifyRun_eq_ok hmodified
          obtain ⟨rfl, rfl⟩ := returns_eq_ok h₅
          refine ⟨_, rfl, ⟨_, .timedOut awake waits began ended, .of_setTiming rfl ?_ rfl rfl⟩,
            .kept calm ?_, ?_⟩
          · rw [same₃, same₁]
          · simp only [RunState.setTiming, RunState.addTransition, same₃, same₁]
          · simp only [RunState.setTiming, RunState.addTransition, same₃, same₁]
            exact .kept
  | received raw =>
      obtain ⟨payload, m₄, hnormal, h₆⟩ := bind_eq_ok h₃
      obtain ⟨-, rfl⟩ := lift_eq_ok hnormal
      obtain ⟨_, m₅, hstored, h₇⟩ := bind_eq_ok h₆
      obtain ⟨outputs, stores, same₅⟩ := store_ok hstored
      obtain ⟨_, m₆, hnow, h₈⟩ := bind_eq_ok h₇
      have same₆ := (KeepsRun.now self).of_ok hnow
      obtain ⟨_, m₇, hmodified, h₉⟩ := bind_eq_ok h₈
      obtain rfl := modifyRun_eq_ok hmodified
      obtain ⟨⟨target, rfl⟩, timings, episode, kept⟩ := nextStep_ok h₉
      refine ⟨_, rfl, ⟨_, .received awake waits began ended, .of_setTiming timings ?_ rfl rfl⟩,
        .kept calm (episode.trans ?_), ?_⟩
      · rw [same₆, same₅, same₃, same₁]
      · simp only [RunState.setTiming, same₆, same₅, same₃, same₁]
      · rw [same₃, same₁] at stores
        rw [kept]
        simp only [RunState.setTiming, same₆, same₅]
        exact .stored stores

/-- A completion is recorded as what it is. -/
theorem complete_ok {frame : LoopFrame} {completion : Completion}
    (h : self.complete frame completion m = .ok move m') :
    (∃ target, move = .goto target (frame.seq + 1)) ∧
      TimingRecorded frame.step.name frame.seq
        (if completion.exhausted then .exhausted else .succeeded) m.run m'.run ∧
      m'.run.activeEpisode = m.run.activeEpisode ∧
      OutputsAfter frame.step m.run.stepOutputs m'.run.stepOutputs := by
  have annotated : ∀ entry : StepAuditEntry, (completion.annotate entry).seq = entry.seq ∧
      (completion.annotate entry).status = entry.status := by
    intro entry
    cases completion <;> exact ⟨rfl, rfl⟩
  rw [FlowRunner.complete] at h
  obtain ⟨_, m₁, hstored, h₁⟩ := bind_eq_ok h
  have same₁ : ∃ outputs, m₁.run = { m.run with stepOutputs := outputs } ∧
      OutputsAfter frame.step m.run.stepOutputs outputs := by
    rw [storeCompletion] at hstored
    split at hstored
    · obtain ⟨-, rfl⟩ := returns_eq_ok hstored
      exact ⟨m₁.run.stepOutputs, rfl, .kept⟩
    · obtain ⟨outputs, stores, same⟩ := store_ok hstored
      exact ⟨outputs, same, .stored stores⟩
  obtain ⟨outputs, same₁, after⟩ := same₁
  obtain ⟨_, m₂, hnow, h₂⟩ := bind_eq_ok h₁
  have same₂ := (KeepsRun.now self).of_ok hnow
  obtain ⟨_, m₃, hmodified, h₃⟩ := bind_eq_ok h₂
  obtain rfl := modifyRun_eq_ok hmodified
  have timed : m₂.run.stepTimings = m.run.stepTimings := by rw [same₂, same₁]
  by_cases exhausted : completion.exhausted = true
  · simp only [if_pos exhausted] at h₃ ⊢
    cases declared : frame.step.onExhausted with
    | none =>
        simp only [declared] at h₃
        cases h₃
    | some target =>
        simp only [declared] at h₃
        obtain ⟨_, m₄, hmodified, h₄⟩ := bind_eq_ok h₃
        obtain rfl := modifyRun_eq_ok hmodified
        obtain ⟨rfl, rfl⟩ := returns_eq_ok h₄
        refine ⟨⟨_, rfl⟩, .of_setTiming rfl timed (annotated _).1 (annotated _).2, ?_, ?_⟩
        · simp only [RunState.setTiming, RunState.addTransition, same₂, same₁]
        · simp only [RunState.setTiming, RunState.addTransition, same₂, same₁]
          exact after
  · simp only [if_neg exhausted] at h₃ ⊢
    obtain ⟨⟨target, rfl⟩, timings, episode, kept⟩ := nextStep_ok h₃
    refine ⟨⟨_, rfl⟩, .of_setTiming timings timed (annotated _).1 (annotated _).2,
      episode.trans ?_, ?_⟩
    · simp only [RunState.setTiming, same₂, same₁]
    · rw [kept]
      simp only [RunState.setTiming, same₂, same₁]
      exact after

/-- Preparing an operation changes nothing but the time it started. -/
theorem prepare_ok {prepared : LoopFrame × Bool} (h : self.prepare step seq loop m = .ok prepared m') :
    prepared.1.step = step ∧ prepared.1.seq = seq ∧
      m'.run = { m.run with currentStepStarted := some prepared.1.stepStarted } := by
  have spec := prepare_spec self step seq loop m.run m rfl
  rw [h] at spec
  exact ⟨spec.step_eq, spec.seq_eq, spec.run_eq⟩

/-- A failed operation is left only through its handler, without an episode under way. -/
theorem routeFailure_ok {stepStarted : FiniteFloat} {exc : RunException}
    (h : self.routeFailure step seq stepStarted exc m = .ok move m') :
    ∃ handler, m.run.activeEpisode = none ∧ self.handlerOf step = some handler ∧
      move = .goto (some handler) (seq + 1) ∧ TimingRecorded step.name seq .failed m.run m'.run ∧
      m'.run.activeEpisode = some (self.openedEpisode step.name exc handler) ∧
      OutputsAfter step m.run.stepOutputs m'.run.stepOutputs := by
  unfold FlowRunner.routeFailure at h
  split at h
  · cases h
  · by_cases cancelled : isCancellation exc.toEngine = true
    · rw [if_pos cancelled] at h
      cases h
    · rw [if_neg cancelled] at h
      obtain ⟨run, m₁, hrun, h₁⟩ := bind_eq_ok h
      obtain ⟨rfl, rfl⟩ := getRun_eq_ok hrun
      cases active : m₁.run.activeEpisode with
      | some episode =>
          simp only [active] at h₁
          cases h₁
      | none =>
          simp only [active] at h₁
          cases declared : self.handlerOf step with
          | none =>
              simp only [declared] at h₁
              cases h₁
          | some handler =>
              simp only [declared] at h₁
              obtain ⟨_, m₂, hmodified, h₂⟩ := bind_eq_ok h₁
              obtain rfl := modifyRun_eq_ok hmodified
              obtain ⟨rfl, rfl⟩ := returns_eq_ok h₂
              exact ⟨handler, rfl, rfl, rfl, .of_setTiming rfl rfl rfl rfl, rfl, .failed _⟩

theorem visitOp_leaves (exclusive : step.untilCondition.isSome → step.forEach = none)
    (hkind : checkContinuation step loop = .ok ()) (awake : step.sleepSec = none)
    (unbound : step.waitFor = none) (h : self.visitOp step seq loop m = .ok move m') :
    LeavesWith self step seq loop m m' move := by
  rw [FlowRunner.visitOp] at h
  obtain ⟨⟨frame, runs⟩, m₁, prepared, h₁⟩ := bind_eq_ok h
  obtain ⟨rfl, rfl, same₁⟩ := prepare_ok prepared
  cases runs with
  | false =>
      simp only [Bool.false_eq_true, if_false] at h₁
      obtain ⟨_, m₂, hmodified, h₂⟩ := bind_eq_ok h₁
      obtain rfl := modifyRun_eq_ok hmodified
      obtain ⟨rfl, rfl⟩ := returns_eq_ok h₂
      refine ⟨_, rfl, ⟨_, .skipped awake unbound prepared, .of_setTiming rfl ?_ rfl rfl⟩,
        .kept ?_ ?_, ?_⟩
      · rw [same₁]
      · rintro exc ⟨-, -, other, m₃, m₄, again, -⟩
        simp [prepared] at again
      · simp only [RunState.setTiming, same₁]
      · simp only [RunState.setTiming, same₁]
        exact .kept
  | true =>
      simp only [if_true] at h₁
      obtain ⟨ended, m₂, hended, h₂⟩ := bind_eq_ok h₁
      have spec := operate_spec self frame loop m₁.run hkind exclusive m₁ rfl
      cases hoperate : self.operate frame loop m₁ with
      | ok completion m₃ =>
          rw [hoperate] at spec
          simp only [attempt, hoperate, EStateM.Result.ok.injEq] at hended
          obtain ⟨rfl, rfl⟩ := hended
          have same₃ : m₃.run = m₁.run := spec.1
          obtain ⟨⟨target, rfl⟩, recorded, episode, after⟩ := complete_ok h₂
          refine ⟨_, rfl, ⟨_, .completed awake unbound prepared hoperate, ?_⟩, .kept ?_ ?_, ?_⟩
          · obtain ⟨entry, hseq, hstatus, timings⟩ := recorded
            exact ⟨entry, hseq, hstatus, by rw [timings, same₃, same₁]⟩
          · rintro exc ⟨-, -, other, m₄, m₅, again, raised⟩
            rw [prepared] at again
            cases again
            rw [hoperate] at raised
            cases raised
          · rw [episode, same₃, same₁]
          · rw [same₃, same₁] at after
            exact after
      | error exc m₃ =>
          rw [hoperate] at spec
          simp only [attempt, hoperate, EStateM.Result.ok.injEq] at hended
          obtain ⟨rfl, rfl⟩ := hended
          have same₃ : m₃.run = m₁.run := spec.run_eq
          obtain ⟨handler, calm, declared, rfl, recorded, episode, after⟩ := routeFailure_ok h₂
          refine ⟨_, rfl, ⟨_, .failed awake unbound prepared hoperate, ?_⟩, ?_, ?_⟩
          · obtain ⟨entry, hseq, hstatus, timings⟩ := recorded
            exact ⟨entry, hseq, hstatus, by rw [timings, same₃, same₁]⟩
          · refine .opened ⟨awake, unbound, frame, m₁, m₃, prepared, hoperate⟩ ?_ declared rfl
              episode
            rw [same₃, same₁] at calm
            exact calm
          · rw [same₃, same₁] at after
            exact after

/-- A visit that is left has recorded its outcome. -/
theorem visitStep_leaves (exclusive : self.config.Exclusive) {name : String}
    {target : Option String} {nextSeq : Nat}
    (h : self.visitStep name seq loop m = .ok (.goto target nextSeq) m') :
    ∃ step, self.config.flowStep name = some step ∧ step.terminal = false ∧ nextSeq = seq + 1 ∧
      Leaves self step seq loop { m with run := m.run.enter name seq } m' target := by
  rw [FlowRunner.visitStep] at h
  obtain ⟨_, m₁, hentered, h₁⟩ := bind_eq_ok h
  obtain rfl := modifyRun_eq_ok hentered
  obtain ⟨step, m₂, hfound, h₂⟩ := bind_eq_ok h₁
  obtain ⟨found, rfl⟩ := lift_eq_ok hfound
  obtain ⟨_, m₃, hchecked, h₃⟩ := bind_eq_ok h₂
  obtain ⟨hkind, rfl⟩ := lift_eq_ok hchecked
  have declared : self.config.flowStep name = some step := by
    cases hstep : self.config.flowStep name with
    | none => simp [FlowRunner.item, hstep] at found
    | some other =>
        simp only [FlowRunner.item, hstep, Except.ok.injEq] at found
        rw [found]
  by_cases ends : step.terminal = true
  · rw [if_pos ends] at h₃
    cases h₃
  · rw [if_neg ends] at h₃
    have goes : step.terminal = false := by simpa using ends
    have leaves : LeavesWith self step seq loop { m with run := m.run.enter name seq } m'
        (.goto target nextSeq) := by
      cases hsleep : step.sleepSec with
      | some seconds =>
          simp only [hsleep] at h₃
          exact visitSleep_leaves hsleep h₃
      | none =>
          cases hwait : step.waitFor with
          | some wait =>
              simp only [hsleep, hwait] at h₃
              exact visitWait_leaves hsleep hwait h₃
          | none =>
              simp only [hsleep, hwait] at h₃
              exact visitOp_leaves (exclusive step (flowStep_mem declared).1) hkind
                hsleep hwait h₃
    obtain ⟨other, hmove, leaves⟩ := leaves
    cases hmove
    exact ⟨step, declared, goes, rfl, leaves⟩

/-! ## Where a pass leads -/

/-- The run that a position stands on: this one, or its checkpoint restored. -/
def Continues (self : FlowRunner σ) (m : Machine σ) (loop : Option LoopCheckpoint)
    (q : Position σ) : Prop :=
  q.machine.run = m.run ∨ ∃ checkpoint invocations,
    q.machine.run = RunState.restore m.run.requestId checkpoint.wire ∧
      Saves self m.run invocations q.name q.seq loop checkpoint

/-- A pass that goes on has left its step, or has interrupted its loop. -/
inductive Passes (self : FlowRunner σ) (p q : Position σ) : Prop where
  | left {step : FlowStep} {m : Machine σ}
      (declared : self.config.flowStep p.name = some step) (goes : step.terminal = false)
      (leaves : Leaves self step p.seq p.loop
        { p.machine with run := p.machine.run.enter p.name p.seq } m (some q.name))
      (seq : q.seq = p.seq + 1) (continues : Continues self m none q)
  | interrupted {m : Machine σ} {loop : LoopCheckpoint} {started : Option FiniteFloat}
      (name : q.name = p.name) (seq : q.seq = p.seq)
      (same : m.run = { p.machine.run.enter p.name p.seq with currentStepStarted := started })
      (continues : Continues self m (some loop) q)

/-- How a pass goes on: to the next step, or with a checkpoint. -/
theorem advances_cases {p q : Position σ} (h : self.Advances p q) :
    (∃ m, self.pass p.name p.seq p.loop p.machine = .ok (.inl (q.name, q.seq)) m ∧
        q.machine = m) ∨
      ∃ checkpoint observation m, self.pass p.name p.seq p.loop p.machine =
          .error (.flowContinuation checkpoint observation) m ∧
        rollover checkpoint m = .rollover q := by
  have stays : ∀ checkpoint m, rollover (σ := σ) checkpoint m ≠ .advance q := by
    intro checkpoint m
    rw [rollover]
    split <;> simp
  unfold FlowRunner.Advances FlowRunner.turn at h
  cases hpass : self.pass p.name p.seq p.loop p.machine with
  | ok next m =>
      rw [hpass] at h
      cases next with
      | inr record => simp at h
      | inl next =>
          simp only [reduceCtorEq, or_false, Turn.advance.injEq] at h
          subst h
          exact .inl ⟨m, rfl, rfl⟩
  | error e m =>
      rw [hpass] at h
      cases e with
      | engine exc => simp at h
      | flowContinuation checkpoint observation =>
          exact .inr ⟨checkpoint, observation, m, rfl, h.resolve_left (stays checkpoint m)⟩

theorem continues_rollover {m m' : Machine σ} {name : String} {nextSeq : Nat}
    {checkpoint : RunnerCheckpoint} {q : Position σ} (same : m'.run = m.run)
    (saves : Saves self m.run m'.invocations name nextSeq loop checkpoint)
    (h : rollover checkpoint m' = .rollover q) :
    q.name = name ∧ q.seq = nextSeq ∧ q.machine.run = RunState.restore m.run.requestId checkpoint.wire := by
  rw [rollover_eq (same ▸ saves) rfl, Turn.rollover.injEq] at h
  subst h
  exact ⟨rfl, rfl, by rw [same]⟩

/-- A pass that goes on after a visit that was left. -/
theorem passes_left {p q : Position σ} {step : FlowStep} {m : Machine σ} {target : Option String}
    (declared : self.config.flowStep p.name = some step) (goes : step.terminal = false)
    (leaves : Leaves self step p.seq p.loop
      { p.machine with run := p.machine.run.enter p.name p.seq } m target)
    (hvisit : self.visitStep p.name p.seq p.loop p.machine = .ok (.goto target (p.seq + 1)) m)
    (h : self.Advances p q) : Passes self p q := by
  rcases advances_cases h with ⟨m', hpass, hmachine⟩ | ⟨checkpoint, observation, m', hpass, hroll⟩
  · rw [FlowRunner.pass] at hpass
    obtain ⟨move, m₁, hvisited, h₁⟩ := bind_eq_ok hpass
    rw [hvisit] at hvisited
    obtain ⟨rfl, rfl⟩ := EStateM.Result.ok.inj hvisited
    obtain ⟨_, m₂, hsaved, h₂⟩ := bind_eq_ok h₁
    cases target with
    | none => cases h₂
    | some target =>
        have spec := checkpointAfterStep_spec self target (p.seq + 1) m.run m rfl
        rw [hsaved] at spec
        cases hnext : truthy (some target) with
        | none =>
            simp only [hnext] at h₂
            cases h₂
        | some next =>
            simp only [hnext] at h₂
            obtain ⟨hq, rfl⟩ := returns_eq_ok h₂
            obtain ⟨htarget, -⟩ := truthy_eq_some hnext
            simp only [Sum.inl.injEq, Prod.mk.injEq] at hq
            obtain ⟨rfl, hseq⟩ := hq
            rw [htarget] at leaves
            exact .left declared goes leaves hseq (.inl (by rw [hmachine]; exact spec.1))
  · rw [FlowRunner.pass] at hpass
    rcases bind_eq_error hpass with hraised | ⟨move, m₁, hvisited, h₁⟩
    · rw [hvisit] at hraised
      cases hraised
    · rw [hvisit] at hvisited
      obtain ⟨rfl, rfl⟩ := EStateM.Result.ok.inj hvisited
      cases target with
      | none =>
          rcases bind_eq_error h₁ with hraised | ⟨_, m₂, _, h₂⟩
          · cases hraised
          · cases h₂
      | some target =>
          have spec := checkpointAfterStep_spec self target (p.seq + 1) m.run m rfl
          rcases bind_eq_error h₁ with hraised | ⟨_, m₂, _, h₂⟩
          · rw [hraised] at spec
            obtain ⟨exc, hexc⟩ | ⟨other, observed, hexc, same, saves⟩ := spec
            · cases hexc
            · cases hexc
              obtain ⟨rfl, seq, restored⟩ := continues_rollover same saves hroll
              exact .left declared goes leaves seq (.inr ⟨checkpoint, m'.invocations, restored,
                seq ▸ saves⟩)
          · cases hnext : truthy (some target) with
            | none =>
                simp only [hnext] at h₂
                cases h₂
            | some next =>
                simp only [hnext] at h₂
                cases h₂

/-- Every pass that goes on has left its step or interrupted its loop. -/
theorem passes_of_advances (exclusive : self.config.Exclusive) {p q : Position σ}
    (h : self.Advances p q) : Passes self p q := by
  cases hvisit : self.visitStep p.name p.seq p.loop p.machine with
  | ok move m =>
      have spec := visitStep_spec self exclusive p.name p.seq p.loop p.machine.run p.machine rfl
      rw [hvisit] at spec
      obtain ⟨step, -, ends⟩ := spec
      cases ends with
      | terminal ends same =>
          have hfinish := finish_spec self step.reason m.run m rfl
          rcases advances_cases h with ⟨m', hpass, -⟩ | ⟨checkpoint, observation, m', hpass, -⟩
          · rw [FlowRunner.pass] at hpass
            obtain ⟨move, m₁, hvisited, h₁⟩ := bind_eq_ok hpass
            rw [hvisit] at hvisited
            obtain ⟨rfl, rfl⟩ := EStateM.Result.ok.inj hvisited
            obtain ⟨record, m₂, _, h₂⟩ := bind_eq_ok h₁
            cases h₂
          · rw [FlowRunner.pass] at hpass
            rcases bind_eq_error hpass with hraised | ⟨move, m₁, hvisited, h₁⟩
            · rw [hvisit] at hraised
              cases hraised
            · rw [hvisit] at hvisited
              obtain ⟨rfl, rfl⟩ := EStateM.Result.ok.inj hvisited
              rcases bind_eq_error h₁ with hraised | ⟨record, m₂, _, h₂⟩
              · rw [hraised] at hfinish
                obtain ⟨exc, hexc⟩ := hfinish
                cases hexc
              · cases h₂
      | moved goes departure =>
          obtain ⟨step, declared, goes, -, leaves⟩ := visitStep_leaves exclusive hvisit
          exact passes_left declared goes leaves hvisit h
  | error e m =>
      have spec := visitStep_spec self exclusive p.name p.seq p.loop p.machine.run p.machine rfl
      rw [hvisit] at spec
      rcases advances_cases h with ⟨m', hpass, -⟩ | ⟨checkpoint, observation, m', hpass, hroll⟩
      · rw [FlowRunner.pass] at hpass
        obtain ⟨move, m₁, hvisited, -⟩ := bind_eq_ok hpass
        rw [hvisit] at hvisited
        cases hvisited
      · rw [FlowRunner.pass] at hpass
        rcases bind_eq_error hpass with hraised | ⟨move, m₁, hvisited, -⟩
        · rw [hvisit] at hraised
          obtain ⟨rfl, rfl⟩ := EStateM.Result.error.inj hraised
          obtain ⟨exc, hexc⟩ | ⟨step, -, -, ⟨exc, hexc⟩ | ⟨started, interrupt⟩⟩ := spec
          · cases hexc
          · cases hexc
          · cases interrupt with
            | @continuation loop other observed m same saves ahead bound =>
                have hsaves : Saves self m.run m.invocations p.name p.seq (some loop) checkpoint :=
                  same ▸ saves
                obtain ⟨name, seq, restored⟩ := continues_rollover rfl hsaves hroll
                exact .interrupted name seq same (.inr ⟨checkpoint, m.invocations, restored,
                  by rw [name, seq]; exact hsaves⟩)
        · rw [hvisit] at hvisited
          cases hvisited

/-! ## The start of a run -/

/-- A run starts without records and without outputs. -/
theorem begin_fresh {start : Position σ} {requestId : String} {globals : JsonObject} {world : σ}
    (hbegin : self.begin requestId globals world = .advance start) :
    start.machine.run.stepTimings = [] ∧ start.machine.run.stepOutputs = [] := by
  have spec : ∀ run, Triple (Holds (σ := σ) run) (self.start globals)
      (fun _ m => m.run.stepTimings = run.stepTimings ∧ m.run.stepOutputs = run.stepOutputs)
      fun _ _ => True := by
    intro run
    refine triple_modifyRun ?_
    refine (KeepsRun.lift _).andThen (fun _ _ _ => trivial) fun normalized => ?_
    refine (KeepsRun.lift _).andThen (fun _ _ _ => trivial) fun _ => ?_
    refine (KeepsRun.validateContract self _ _ _).andThen (fun _ _ _ => trivial) fun _ => ?_
    refine triple_modifyRun (triple_getRun ?_)
    refine triple_lift (fun _ _ _ => trivial) fun params _ => triple_modifyRun ?_
    split
    · exact triple_raise fun _ _ => trivial
    · refine Triple.pure fun m hm => ?_
      have hm : m.run = _ := hm
      rw [hm]
      exact ⟨rfl, rfl⟩
  have hstart := spec _ (self.fresh requestId world) rfl
  rw [(FlowRunner.start_of_begin hbegin).1] at hstart
  exact hstart

end Justflow
