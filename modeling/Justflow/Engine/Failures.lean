import Justflow.Engine.Ordinary

/-!
# The end of a failed run

An exception that leaves the run loop is reported with the failure of the run as its primary
failure and, during an episode, with the failure of the handler as the secondary one.  The step
it left the loop at is recorded as failed.
-/

open Fields Program JsonValue

namespace Justflow

variable {σ : Type}

def maxSecondaryFailures : Nat := 4

/-- The failures that a failed run is reported with. -/
structure ExecutionFailure where
  classification : FailureDetail
  secondary : List FailureDetail
  deriving DecidableEq

/-- The step a failure happened at, within the run loop. -/
def RunState.failedStep (self : RunState) : Option String :=
  if self.phase = .step then self.currentStepName else none

/-- The failure that the step is recorded with. -/
def RunState.failureForStep (self : RunState) (exc : EngineException) : FailureDetail :=
  match exc, self.activeEpisode with
  | .handlerFailure _ handler, _ => handler
  | exc, some _ => classifyFailure exc .handler self.currentStepName (some .handlerFailed)
  | exc, none => classifyFailure exc self.phase self.failedStep none

/-- The status that a record tells. -/
def statusOf (entry : JsonObject) : Option JsonValue :=
  entry.lookup "status"

/-- Record the step as failed, unless its record says so already. -/
def FlowRunner.recordUnhandledStep (self : FlowRunner σ) (failure : FailureDetail)
    (run : RunState) : RunState :=
  match failure.step with
  | none => run
  | some name =>
      if (run.stepTimings.lookup name).bind statusOf = some (.str StepStatus.failed.value) then run
      else
        run.setTiming name {
          seq := run.nextSeq
          status := StepStatus.failed.value
          code := some failure.code
          message := some failure.message
          startedAt := some (run.currentStepStarted.map self.platform.iso) }

/-- The failures reported for an exception that left the run loop. -/
def buildExecutionError (exc : EngineException) (run : RunState) : ExecutionFailure :=
  match exc, run.activeEpisode with
  | .handlerFailure primary handler, _ =>
      { classification := primary, secondary := [handler].take maxSecondaryFailures }
  | exc, some episode =>
      { classification := episode.primary
        secondary := [run.failureForStep exc].take maxSecondaryFailures }
  | exc, none =>
      { classification := classifyFailure exc run.phase run.failedStep none, secondary := [] }

/-- What a run that raises is reported with; a cancellation is raised as it is. -/
def reportedFailure (exc : EngineException) (run : RunState) : Option ExecutionFailure :=
  if isCancellation exc then none else some (buildExecutionError exc run)

/-- The state of a failed run, with the record of its last step. -/
def FlowRunner.failedRun (self : FlowRunner σ) (exc : EngineException) (run : RunState) :
    RunState :=
  self.recordUnhandledStep (run.failureForStep exc) run

@[simp]
theorem classifyFailure_step (exc : EngineException) (phase : FailurePhase) (step : Option String)
    (code : Option FailureCode) : (classifyFailure exc phase step code).step = step := rfl

/-! ## Where a visit fails -/

/-- How a run looks during a visit and at its end, compared with how it was on entering. -/
structure Visiting (name : String) (seq : Nat) (before after : RunState) : Prop where
  phase : after.phase = .step
  step : after.currentStepName = some name
  nextSeq : after.nextSeq = seq
  others : ∀ other, other ≠ name →
    after.stepTimings.lookup other = before.stepTimings.lookup other
  own : after.stepTimings.lookup name = before.stepTimings.lookup name ∨
    ∃ entry : StepAuditEntry, entry.seq = seq ∧ after.stepTimings.lookup name = some entry.dump
  episode : ∀ episode, before.activeEpisode = some episode → after.activeEpisode = some episode

/-- What an exception blames: nothing but itself, or the handler of the episode under way.  An
episode lets no request for a fresh history pass. -/
inductive Blames (name : String) (run : RunState) : RunException → Prop where
  | itself {e : RunException} (plain : PlainException e)
      (quiet : (∃ exc, e = .engine exc) ∨ run.activeEpisode = none) : Blames name run e
  | handler {episode : FailureEpisode} {exc : EngineException}
      (active : run.activeEpisode = some episode) :
      Blames name run (.engine (.handlerFailure episode.primary
        (classifyFailure exc .handler (some name) (some .handlerFailed))))

variable {self : FlowRunner σ} {step : FlowStep} {seq : Nat} {loop : Option LoopCheckpoint}
  {before run : RunState}

theorem Visiting.enter (run : RunState) (name : String) (seq : Nat) :
    Visiting name seq (run.enter name seq) (run.enter name seq) :=
  ⟨rfl, rfl, rfl, fun _ _ => rfl, .inl rfl, fun _ h => h⟩

theorem Visiting.setTiming {name : String} {entry : StepAuditEntry}
    (h : Visiting name seq before run) (hseq : entry.seq = seq) :
    Visiting name seq before (run.setTiming name entry) where
  phase := h.phase
  step := h.step
  nextSeq := h.nextSeq
  others other hne := by
    rw [RunState.setTiming, lookup_set_ne hne]
    exact h.others other hne
  own := .inr ⟨entry, hseq, by rw [RunState.setTiming, lookup_set_self]⟩
  episode := h.episode

/-- Changes of anything else leave the records and the episode as they are. -/
theorem Visiting.congr {name : String} {run' : RunState} (h : Visiting name seq before run)
    (phase : run'.phase = run.phase) (step : run'.currentStepName = run.currentStepName)
    (nextSeq : run'.nextSeq = run.nextSeq) (timings : run'.stepTimings = run.stepTimings)
    (episode : run'.activeEpisode = run.activeEpisode) : Visiting name seq before run' where
  phase := phase.trans h.phase
  step := step.trans h.step
  nextSeq := nextSeq.trans h.nextSeq
  others other hne := by rw [timings, h.others other hne]
  own := by
    rw [timings]
    exact h.own
  episode other hother := episode.trans (h.episode other hother)

/-- A program keeps to the visit, whether it returns or raises. -/
def Visits (name : String) (seq : Nat) (before : RunState) {α : Type} (x : RunM σ α) : Prop :=
  Triple (fun m => Visiting name seq before m.run) x (fun _ m => Visiting name seq before m.run)
    fun e m => Visiting name seq before m.run ∧ Blames name m.run e

namespace Visits

variable {name : String} {α β : Type}

theorem pure (a : α) : Visits name seq before (Pure.pure a : RunM σ α) :=
  Triple.pure fun _ h => h

theorem bind {x : RunM σ α} {f : α → RunM σ β} (hx : Visits name seq before x)
    (hf : ∀ a, Visits name seq before (f a)) : Visits name seq before (x >>= f) :=
  Triple.bind hx hf

theorem of_keepsRun {x : RunM σ α} (keeps : KeepsRun x) (plain : Plainly (fun _ => True) x) :
    Visits name seq before x := by
  intro m hm
  cases hx : x m with
  | ok a m' =>
      show Visiting name seq before m'.run
      rw [keeps.of_ok hx]
      exact hm
  | error e m' =>
      have spec := keeps m.run m rfl
      rw [hx] at spec
      refine ⟨?_, .itself (plain.of_error hx) (.inl spec.2)⟩
      rw [keeps.of_error hx]
      exact hm

theorem modify {f : RunState → RunState}
    (h : ∀ run, Visiting name seq before run → Visiting name seq before (f run)) :
    Visits name seq before (modifyRun f : RunM σ Unit) :=
  fun m hm => h m.run hm

theorem setTiming {entry : StepAuditEntry} (hseq : entry.seq = seq) :
    Visits name seq before (modifyRun fun run => run.setTiming name entry : RunM σ Unit) :=
  modify fun _ h => h.setTiming hseq

theorem addTransition (transition : TransitionRecord) :
    Visits name seq before (modifyRun fun run => run.addTransition transition : RunM σ Unit) :=
  modify fun _ h => h.congr rfl rfl rfl rfl rfl

theorem ite {c : Prop} [Decidable c] {x y : RunM σ α} (hx : Visits name seq before x)
    (hy : Visits name seq before y) : Visits name seq before (if c then x else y) := by
  split
  · exact hx
  · exact hy

theorem raise {exc : EngineException} (h : Ordinary exc) :
    Visits name seq before (Justflow.raise exc : RunM σ α) :=
  of_keepsRun (.raise _) (.raise h)

theorem lift {x : Except EngineException α} (h : Raises Ordinary x) :
    Visits name seq before (Justflow.lift x : RunM σ α) :=
  of_keepsRun (.lift _) (.lift h)

theorem now (self : FlowRunner σ) : Visits name seq before self.now :=
  of_keepsRun (.now self) (.now self)

theorem getRun : Visits name seq before (Justflow.getRun : RunM σ RunState) :=
  of_keepsRun .getRun .getRun

theorem nextStep (self : FlowRunner σ) (step : FlowStep) (result : JsonValue) (nextSeq : Nat) :
    Visits name seq before (self.nextStep step result nextSeq) := by
  rw [FlowRunner.nextStep]
  refine ite (pure _) (getRun.bind fun run => ?_)
  refine (of_keepsRun (chooseBranch_keepsRun self step result _ _ _)
    (.chooseBranch self step result _ _ _)).bind fun decision => ?_
  cases decision with
  | none => exact pure _
  | some decision => exact (addTransition _).bind fun _ => pure _

theorem store (step : FlowStep) (result : JsonValue) :
    Visits name seq before (store step result : RunM σ Unit) := by
  rw [Justflow.store]
  refine getRun.bind fun run => (lift (storeOutput_ordinary _ _ _)).bind fun outputs => ?_
  exact modify fun run h => h.congr rfl rfl rfl rfl rfl

theorem visitSleep (self : FlowRunner σ) (step : FlowStep) (seconds : Nat) :
    Visits step.name seq before (self.visitSleep step seconds seq) := by
  rw [FlowRunner.visitSleep]
  refine (of_keepsRun (.callExecutor _) (.callExecutor _)).bind fun _ => ?_
  exact (setTiming (by rfl)).bind fun _ => pure _

theorem visitWait (self : FlowRunner σ) (step : FlowStep) (wait : WaitForConfig) :
    Visits step.name seq before (self.visitWait step wait seq) := by
  rw [FlowRunner.visitWait]
  refine (now self).bind fun started => getRun.bind fun run => ?_
  refine (of_keepsRun (.runWait self step wait _ _) (.runWait self step wait _ _)).bind
    fun outcome => ?_
  cases outcome with
  | timedOut =>
      refine (setTiming (by rfl)).bind fun _ => ?_
      cases wait.onTimeout with
      | none => exact raise trivial
      | some target => exact (addTransition _).bind fun _ => pure _
  | received raw =>
      refine (lift (normalizeJsonValue_ordinary _ _ _ _)).bind fun payload => ?_
      refine (store step payload).bind fun _ => (now self).bind fun ended => ?_
      exact (setTiming (by rfl)).bind fun _ => nextStep self step payload _

theorem complete (self : FlowRunner σ) (frame : LoopFrame) (completion : Completion)
    (hseq : frame.seq = seq) :
    Visits frame.step.name seq before (self.complete frame completion) := by
  have annotated : ∀ entry : StepAuditEntry, (completion.annotate entry).seq = entry.seq := by
    intro entry
    cases completion <;> rfl
  rw [FlowRunner.complete]
  refine Visits.bind ?_ fun _ => ?_
  · rw [storeCompletion]
    exact ite (pure _) (store _ _)
  refine (now self).bind fun ended => ?_
  refine (setTiming ((annotated _).trans hseq)).bind fun _ => ?_
  refine ite ?_ (nextStep self _ _ _)
  cases frame.step.onExhausted with
  | none => exact raise trivial
  | some target => exact (addTransition _).bind fun _ => pure _

/-- A failure is routed outside an episode only, and blames the handler within one. -/
theorem routeFailure (self : FlowRunner σ) (step : FlowStep) (stepStarted : FiniteFloat)
    {exc : RunException} (plain : PlainException exc) :
    Visits step.name seq before (self.routeFailure step seq stepStarted exc) := by
  have raised : (∃ e, exc = .engine e) → Visits step.name seq before (throw exc : RunM σ Move) :=
    fun engine => Triple.throw fun _ h => ⟨h, .itself plain (.inl engine)⟩
  unfold FlowRunner.routeFailure
  split
  · exact raised ⟨_, rfl⟩
  · split
    · rename_i cancelled
      cases exc with
      | engine e => exact raised ⟨e, rfl⟩
      | flowContinuation checkpoint observation => cases cancelled
    intro m hm
    cases active : m.run.activeEpisode with
    | some episode =>
        simp only [Justflow.getRun, Bind.bind, EStateM.bind, active]
        exact ⟨hm, .handler active⟩
    | none =>
        simp only [Justflow.getRun, Bind.bind, EStateM.bind, active]
        cases self.handlerOf step with
        | none => exact ⟨hm, .itself plain (.inr active)⟩
        | some handler =>
            let entry : StepAuditEntry := {
              seq
              status := StepStatus.failed.value
              code := some (classifyFailure exc.toEngine .step (some step.name)
                (some .stepFailed)).code
              message := some (classifyFailure exc.toEngine .step (some step.name)
                (some .stepFailed)).message
              startedAt := some (some (self.platform.iso stepStarted)) }
            have hseq : entry.seq = seq := rfl
            have timed := hm.setTiming hseq
            refine ⟨timed.phase, timed.step, timed.nextSeq, timed.others, timed.own, ?_⟩
            intro episode hepisode
            rw [hm.episode episode hepisode] at active
            cases active

theorem prepare (self : FlowRunner σ) (step : FlowStep) (loop : Option LoopCheckpoint) :
    Visits name seq before (self.prepare step seq loop) := by
  have started : Visits name seq before (self.stepStart loop) := by
    cases loop with
    | none => exact now self
    | some checkpoint => exact pure _
  rw [FlowRunner.prepare]
  refine started.bind fun _ => Visits.bind ?_ fun _ => getRun.bind fun run => ?_
  · exact modify fun run h => h.congr rfl rfl rfl rfl rfl
  · exact lift (frameOf_ordinary self _ _ _ _ _)

/-- An operation leaves the run as it is, and fails with an exception to be routed. -/
theorem operate (self : FlowRunner σ) (frame : LoopFrame) (loop : Option LoopCheckpoint)
    (hkind : checkContinuation frame.step loop = .ok ())
    (exclusive : frame.step.untilCondition.isSome → frame.step.forEach = none) :
    Triple (fun m => Visiting name seq before m.run) (self.operate frame loop)
      (fun _ m => Visiting name seq before m.run)
      (fun e m => Visiting name seq before m.run ∧ PlainException e) := by
  intro m hm
  have spec := operate_spec self frame loop m.run hkind exclusive m rfl
  cases hoperate : self.operate frame loop m with
  | ok completion m' =>
      rw [hoperate] at spec
      have same : m'.run = m.run := spec.1
      show Visiting name seq before m'.run
      rw [same]
      exact hm
  | error exc m' =>
      rw [hoperate] at spec
      refine ⟨?_, (Plainly.operate self frame loop).of_error hoperate⟩
      rw [spec.run_eq]
      exact hm

theorem visitOp (self : FlowRunner σ) (step : FlowStep) (loop : Option LoopCheckpoint)
    (hkind : checkContinuation step loop = .ok ())
    (exclusive : step.untilCondition.isSome → step.forEach = none) :
    Visits step.name seq before (self.visitOp step seq loop) := by
  intro m hm
  have prepares : Visits step.name seq before (self.prepare step seq loop) :=
    prepare self step loop
  have hprepare := prepares m hm
  rw [FlowRunner.visitOp]
  simp only [Bind.bind, EStateM.bind]
  cases prepared : self.prepare step seq loop m with
  | error e m₁ =>
      rw [prepared] at hprepare
      exact hprepare
  | ok found m₁ =>
      rw [prepared] at hprepare
      obtain ⟨frame, runs⟩ := found
      obtain ⟨rfl, hseq, -⟩ := prepare_ok prepared
      have hm₁ : Visiting frame.step.name seq before m₁.run := hprepare
      cases runs with
      | false => exact hm₁.setTiming rfl
      | true =>
          refine Triple.bind (Triple.attempt (operate self frame loop hkind exclusive))
            (fun ended => ?_) m₁ hm₁
          cases ended with
          | ok completion => exact complete self frame completion hseq
          | error exc =>
              rintro m₂ ⟨hm₂, plain⟩
              exact routeFailure self frame.step frame.stepStarted plain m₂ hm₂

end Visits

/-- However a visit of a step ends, it stays within the visit. -/
theorem visitStep_visits (exclusive : self.config.Exclusive) (name : String) (seq : Nat)
    (loop : Option LoopCheckpoint) (m : Machine σ) :
    Meets (fun _ m' => Visiting name seq (m.run.enter name seq) m'.run)
      (fun e m' => Visiting name seq (m.run.enter name seq) m'.run ∧ Blames name m'.run e)
      (self.visitStep name seq loop m) := by
  have entered := Visiting.enter m.run name seq
  rw [FlowRunner.visitStep]
  simp only [Bind.bind, EStateM.bind, modifyRun]
  cases declared : self.config.flowStep name with
  | none => exact ⟨entered, .itself trivial (.inl ⟨_, rfl⟩)⟩
  | some step =>
      obtain ⟨mem, rfl⟩ := flowStep_mem declared
      simp only [FlowRunner.item, lift, Pure.pure, EStateM.pure]
      cases checked : checkContinuation step loop with
      | error exc =>
          exact ⟨entered, .itself (checkContinuation_ordinary step loop exc checked) (.inl ⟨_, rfl⟩)⟩
      | ok _ =>
          let m₁ : Machine σ := { m with run := m.run.enter step.name seq }
          show Meets _ _ ((if step.terminal = true then _ else _ : RunM σ Move) m₁)
          have entered : Visiting step.name seq (m.run.enter step.name seq) m₁.run := entered
          split
          · exact entered
          · cases step.sleepSec with
            | some seconds => exact Visits.visitSleep self step seconds m₁ entered
            | none =>
                cases step.waitFor with
                | some wait => exact Visits.visitWait self step wait m₁ entered
                | none => exact Visits.visitOp self step loop checked (exclusive step mem) m₁ entered

/-- Where a failing pass leaves the run: within a visit, or after the last one. -/
inductive PassFails (name : String) (seq : Nat) (before : RunState) (exc : EngineException)
    (after : RunState) : Prop where
  | visiting (visiting : Visiting name seq (before.enter name seq) after)
      (blames : Blames name after (.engine exc))
  | finishing (phase : after.phase = .result) (calm : after.activeEpisode = none)
      (timings : after.stepTimings = before.stepTimings) (ordinary : Ordinary exc)

/-- After the last step only the result is left to be resolved. -/
theorem finish_fails (self : FlowRunner σ) (reason : Option String) (run : RunState) :
    Triple (Holds run) (self.finish reason) (fun _ _ => True)
      fun _ m => m.run = { run with activeEpisode := none, phase := .result } := by
  have hresult : ∀ outputs params, KeepsRun (self.resolveResult reason outputs params) := by
    intro outputs params
    unfold FlowRunner.resolveResult
    split
    · exact KeepsRun.pure _
    · split
      · exact KeepsRun.ite (KeepsRun.raise _) (KeepsRun.pure _)
      · exact KeepsRun.raise _
      · exact (KeepsRun.validateContract self _ _ _).bind fun _ => (KeepsRun.lift _).bind fun _ =>
          KeepsRun.pure _
  refine triple_modifyRun ?_
  refine Triple.bind (Q := fun _ => Holds _) (fun _ hm => hm) fun completed => ?_
  refine triple_modifyRun (triple_getRun ?_)
  refine (hresult _ _).andThen (fun _ _ h => h.1) fun result => ?_
  refine (KeepsRun.lift _).andThen (fun _ _ h => h.1) fun _ => ?_
  refine (KeepsRun.lift _).andThen (fun _ _ h => h.1) fun _ => ?_
  exact Triple.pure fun _ _ => trivial

/-- A checkpoint behind a step leaves the run as it is. -/
theorem checkpointAfterStep_keeps (self : FlowRunner σ) (target : Option String) (seq : Nat)
    (run : RunState) :
    Triple (Holds run) (self.checkpointAfterStep target seq) (fun _ => Holds run)
      fun _ => Holds run := by
  cases target with
  | none => exact Triple.pure fun _ h => h
  | some target =>
      rw [FlowRunner.checkpointAfterStep.eq_def]
      dsimp only
      split
      · exact (checkpointAt_spec self _ target seq none run).consequence (fun _ h => h)
          (fun _ _ h => h.1) fun _ _ h => h.1
      · exact Triple.pure fun _ h => h

/-- Where a failing pass leaves the run. -/
theorem pass_fails (exclusive : self.config.Exclusive) {name : String} {m m' : Machine σ}
    {exc : EngineException} (h : self.pass name seq loop m = .error (.engine exc) m') :
    PassFails name seq m.run exc m'.run := by
  have visited := visitStep_visits exclusive name seq loop m
  rw [FlowRunner.pass] at h
  rcases bind_eq_error h with h₁ | ⟨move, m₁, hvisit, h₁⟩
  · rw [h₁] at visited
    exact .visiting visited.1 visited.2
  rw [hvisit] at visited
  have visiting : Visiting name seq (m.run.enter name seq) m₁.run := visited
  cases move with
  | terminal reason =>
      rcases bind_eq_error h₁ with h₂ | ⟨_, _, _, h₂⟩
      · have spec := visitStep_spec self exclusive name seq loop m.run m rfl
        rw [hvisit] at spec
        obtain ⟨step, -, ends⟩ := spec
        cases ends with
        | terminal _ same =>
            have finished := finish_fails self step.reason m₁.run m₁ rfl
            rw [h₂] at finished
            have finished : m'.run = { m₁.run with activeEpisode := none, phase := .result } :=
              finished
            exact .finishing (by rw [finished]) (by rw [finished]) (by rw [finished, same]; rfl)
              ((Plainly.finish self step.reason).of_error h₂)
      · cases h₂
  | goto target nextSeq =>
      rcases bind_eq_error h₁ with h₂ | ⟨_, m₂, hsaved, h₂⟩
      · have plain := (Plainly.checkpointAfterStep self target nextSeq).of_error h₂
        have kept := checkpointAfterStep_keeps self target nextSeq m₁.run m₁ rfl
        rw [h₂] at kept
        have kept : m'.run = m₁.run := kept
        exact .visiting (kept ▸ visiting) (.itself plain (.inl ⟨_, rfl⟩))
      · have kept := checkpointAfterStep_keeps self target nextSeq m₁.run m₁ rfl
        rw [hsaved] at kept
        have kept : m₂.run = m₁.run := kept
        cases hnext : truthy target with
        | some next =>
            simp only [hnext] at h₂
            cases h₂
        | none =>
            simp only [hnext] at h₂
            cases h₂
            exact .visiting (kept ▸ visiting) (.itself trivial (.inl ⟨_, rfl⟩))

end Justflow
