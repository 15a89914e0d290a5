import Justflow.Engine.Visit

/-!
# The walk of a chain of runs

A pass that does not end the chain leads from one position to the next.  Either the step was
left, in this run or with a checkpoint handed to the next one, or its loop was interrupted and
the next run stands at the same step, further on.  `Stride` says so once; the invariants of
whole chains are proved from it by induction over `Walk`.
-/

open Fields Program JsonValue

namespace Justflow

variable {σ : Type}

/-- What survives into the position of the next pass, up to the order of keys. -/
structure Carried (before after : RunState) : Prop where
  requestId : after.requestId = before.requestId
  params : ∀ key, key ∈ keys after.params ↔ key ∈ keys before.params
  outputs : ∀ key, key ∈ keys after.stepOutputs ↔ key ∈ keys before.stepOutputs
  transitions : after.transitions = before.transitions
  episode : after.activeEpisode = before.activeEpisode

theorem Carried.refl (run : RunState) : Carried run run :=
  ⟨rfl, fun _ => Iff.rfl, fun _ => Iff.rfl, rfl, rfl⟩

/-- What one pass that goes on did. -/
inductive Stride (self : FlowRunner σ) (p q : Position σ) : Prop where
  | left {step : FlowStep} {after : RunState}
      (declared : self.config.flowStep p.name = some step) (goes : step.terminal = false)
      (seq : q.seq = p.seq + 1) (fresh : q.loop = none)
      (departure : Departure self step (p.machine.run.enter p.name p.seq) after (some q.name))
      (carried : Carried after q.machine.run)
      (small : self.boundedExecutionEnabled = true →
        q.machine.run.transitions.length ≤ self.limits.workflowStateBytes)
  | interrupted {step : FlowStep} {loop : LoopCheckpoint}
      (declared : self.config.flowStep p.name = some step) (goes : step.terminal = false)
      (name : q.name = p.name) (seq : q.seq = p.seq) (further : q.loop = some loop)
      (ahead : (p.loop.map LoopCheckpoint.position).getD 0 < loop.position)
      (bound : loop.position ≤ self.loopBound)
      (carried : Carried (p.machine.run.enter p.name p.seq) q.machine.run)

/-! ## One pass -/

theorem KeepsRun.validateContract (self : FlowRunner σ) (schema : Option JsonValue)
    (payload : JsonValue) (direction : String) :
    KeepsRun (self.validateContract schema payload direction) := by
  cases schema with
  | none => exact KeepsRun.pure _
  | some schema => exact KeepsRun.callExecutor _

theorem finish_spec (self : FlowRunner σ) (reason : Option String) (run : RunState) :
    Triple (Holds run) (self.finish reason) (fun _ _ => True) IsEngine := by
  have hresult : ∀ outputs params, KeepsRun (self.resolveResult reason outputs params) := by
    intro outputs params
    rw [FlowRunner.resolveResult]
    split
    · exact KeepsRun.pure _
    · split
      · exact KeepsRun.ite (KeepsRun.raise _) (KeepsRun.pure _)
      · exact KeepsRun.raise _
      · exact (KeepsRun.validateContract self _ _ _).bind fun _ => (KeepsRun.lift _).bind fun _ => KeepsRun.pure _
  refine triple_modifyRun ?_
  refine (KeepsRun.now self).andThen (fun _ _ h => h.2) fun completed => ?_
  refine triple_modifyRun (triple_getRun ?_)
  refine (hresult _ _).andThen (fun _ _ h => h.2) fun result => ?_
  refine (KeepsRun.lift _).andThen (fun _ _ h => h.2) fun _ => ?_
  refine (KeepsRun.lift _).andThen (fun _ _ h => h.2) fun _ => ?_
  exact Triple.pure fun _ _ => trivial

/-- A pass that goes on left its step, and with bounded execution its state is small. -/
structure PassedTo (runner : FlowRunner σ) (name : String) (seq : Nat) (run : RunState)
    (target : String) (targetSeq : Nat) (m : Machine σ) : Prop where
  departs : ∃ step, runner.config.flowStep name = some step ∧ step.terminal = false
    ∧ Departure runner step (run.enter name seq) m.run (some target)
  seq_eq : targetSeq = seq + 1
  saves : runner.boundedExecutionEnabled = true →
    ∃ checkpoint, Saves runner m.run m.invocations target targetSeq none checkpoint

/-- How a pass is cut short: by an exception, inside a loop, or behind a step. -/
inductive PassCut (self : FlowRunner σ) (name : String) (seq position : Nat) (run : RunState) :
    RunException → Machine σ → Prop where
  | engine {exc : EngineException} {m : Machine σ} :
      PassCut self name seq position run (.engine exc) m
  | inside {e : RunException} {m : Machine σ} {step : FlowStep}
      (declared : self.config.flowStep name = some step) (goes : step.terminal = false)
      (cut : Cut self name seq position (run.enter name seq) e m) :
      PassCut self name seq position run e m
  | behind {checkpoint : RunnerCheckpoint} {observation : HistoryObservation} {m : Machine σ}
      {step : FlowStep} {target : String} (declared : self.config.flowStep name = some step)
      (goes : step.terminal = false)
      (departure : Departure self step (run.enter name seq) m.run (some target))
      (saves : Saves self m.run m.invocations target (seq + 1) none checkpoint) :
      PassCut self name seq position run (.flowContinuation checkpoint observation) m

theorem checkpointAfterStep_spec (self : FlowRunner σ) (target : String) (seq : Nat)
    (run : RunState) :
    Triple (Holds run) (self.checkpointAfterStep (some target) seq)
      (fun _ m => Holds run m ∧ (self.boundedExecutionEnabled = true →
        ∃ checkpoint, Saves self run m.invocations target seq none checkpoint))
      (fun e m => IsEngine e m ∨ ∃ checkpoint observation,
        e = .flowContinuation checkpoint observation ∧ m.run = run
          ∧ Saves self run m.invocations target seq none checkpoint) := by
  unfold FlowRunner.checkpointAfterStep
  dsimp only
  split
  · refine (checkpointAt_spec self _ target seq none run).consequence (fun _ h => h)
      (fun _ m h => ⟨h.1, fun _ => h.2⟩) fun e m h => ?_
    obtain ⟨same, hengine | ⟨checkpoint, observation, rfl, saves⟩⟩ := h
    · exact .inl hengine
    · exact .inr ⟨checkpoint, observation, rfl, same, saves⟩
  · rename_i hbounded
    exact Triple.pure fun m hm => ⟨hm, fun h => absurd h hbounded⟩

theorem pass_spec (self : FlowRunner σ) (exclusive : self.config.Exclusive) (name : String)
    (seq : Nat) (loop : Option LoopCheckpoint) (run : RunState) :
    Triple (Holds run) (self.pass name seq loop)
      (fun next m => ∀ target targetSeq, next = .inl (target, targetSeq) →
        PassedTo self name seq run target targetSeq m)
      (PassCut self name seq ((loop.map LoopCheckpoint.position).getD 0) run) := by
  rw [FlowRunner.pass]
  refine Triple.bind ((visitStep_spec self exclusive name seq loop run).consequence
    (fun _ h => h) (fun _ _ h => h) fun e m h => ?_) fun move => ?_
  · rcases h with ⟨exc, rfl⟩ | ⟨step, declared, goes, cut⟩
    · exact .engine
    · exact .inside declared goes cut
  · rintro m ⟨step, declared, hend⟩
    cases hend with
    | terminal ends same =>
        refine Triple.bind ((finish_spec self step.reason m.run).consequence (fun _ h => h)
          (fun _ _ h => h) fun e m' h => ?_) (fun record => Triple.pure ?_) m rfl
        · obtain ⟨exc, rfl⟩ := h
          exact .engine
        · intro m' _ target targetSeq h
          cases h
    | @moved target goes departure =>
        cases target with
        | none => exact .engine
        | some target =>
            refine Triple.bind ((checkpointAfterStep_spec self target (seq + 1)
              m.run).consequence (fun _ h => h) (fun _ _ h => h) fun e m' h => ?_)
              (fun _ => ?_) m rfl
            · obtain ⟨exc, rfl⟩ | ⟨checkpoint, observation, rfl, same, saves⟩ := h
              · exact .engine
              · exact .behind declared goes (same ▸ departure) (same ▸ saves)
            rintro m' ⟨same, saves⟩
            have same : m'.run = m.run := same
            cases hnext : truthy (some target) with
            | none => exact .engine
            | some next =>
                rintro other otherSeq ⟨⟩
                have hname := (truthy_eq_some hnext).1
                simp only [Option.some.injEq] at hname
                subst hname
                exact ⟨⟨step, declared, goes, same ▸ departure⟩, rfl, same ▸ saves⟩

/-! ## Crossing to a fresh history -/

theorem mem_keys_wireObject {fields : JsonObject} {key : String} :
    key ∈ keys (wireObject fields) ↔ key ∈ keys fields := by
  rw [wireObject, (sameFields_sortKeys _).mem_keys_iff, JsonValue.keys_map_snd]

/-- A saved checkpoint is restored to the run it was saved from. -/
theorem Saves.carried {self : FlowRunner σ} {run : RunState} {invocations : Nat} {name : String}
    {seq : Nat} {loop : Option LoopCheckpoint} {checkpoint : RunnerCheckpoint}
    (h : Saves self run invocations name seq loop checkpoint) :
    Carried run (RunState.restore run.requestId checkpoint.wire) := by
  obtain ⟨-, hparams, houtputs, -, htransitions, -, hepisode, -⟩ := h.fields
  refine ⟨rfl, fun key => ?_, fun key => ?_, htransitions, hepisode⟩
  · rw [← hparams]
    exact mem_keys_wireObject
  · rw [← houtputs]
    exact mem_keys_wireObject

/-- The records of a checkpoint take at least one byte each. -/
theorem Saves.transitions_le {self : FlowRunner σ} {run : RunState} {invocations : Nat}
    {name : String} {seq : Nat} {loop : Option LoopCheckpoint} {checkpoint : RunnerCheckpoint}
    (h : Saves self run invocations name seq loop checkpoint) :
    run.transitions.length ≤ self.limits.workflowStateBytes := by
  obtain ⟨-, -, -, -, htransitions, -⟩ := h.fields
  let records : JsonValue := .arr (checkpoint.transitions.map TransitionRecord.modelDump)
  have hrecords : records.canonicalBytes ≤ checkpoint.modelDump.canonicalBytes := by
    refine canonicalBytes_le_obj (?_ : ("transitions", records) ∈ _)
    simp [records]
  have hlength := length_le_canonicalBytes_arr
    (checkpoint.transitions.map TransitionRecord.modelDump)
  have hsmall := h.small
  rw [List.length_map] at hlength
  rw [← htransitions]
  exact hlength.trans (hrecords.trans hsmall)

theorem rollover_eq {self : FlowRunner σ} {run : RunState} {name : String} {seq : Nat}
    {loop : Option LoopCheckpoint} {checkpoint : RunnerCheckpoint} {m : Machine σ}
    (h : Saves self run m.invocations name seq loop checkpoint) (hrun : m.run = run) :
    rollover checkpoint m = .rollover {
      name, seq, loop := loop.map LoopCheckpoint.wire
      machine := {
        run := RunState.restore run.requestId checkpoint.wire
        invocations := m.invocations
        world := m.world } } := by
  obtain ⟨-, -, -, -, -, -, -, hname, hseq, hinvocations, hloop⟩ := h.fields
  rw [rollover]
  rw [checkpoint.modelValidate_wire]
  simp only [Position.restored, RunnerCheckpoint.wire, hname, hseq, hinvocations, hloop, hrun]

@[simp]
theorem LoopCheckpoint.wire_position (self : LoopCheckpoint) :
    self.wire.position = self.position := by
  cases self <;> rfl

/-- A pass that does not end the chain is a stride. -/
theorem stride_of_advances {self : FlowRunner σ} (exclusive : self.config.Exclusive)
    {p q : Position σ} (h : self.Advances p q) : Stride self p q := by
  have hpass := pass_spec self exclusive p.name p.seq p.loop p.machine.run p.machine rfl
  unfold FlowRunner.Advances FlowRunner.turn at h
  cases hresult : self.pass p.name p.seq p.loop p.machine with
  | ok next m =>
      rw [hresult] at hpass h
      cases next with
      | inr record => simp at h
      | inl next =>
          simp only [reduceCtorEq, or_false, Turn.advance.injEq] at h
          subst h
          obtain ⟨⟨step, declared, goes, departure⟩, hseq, hsaves⟩ := hpass _ _ rfl
          refine .left declared goes hseq rfl departure (.refl _) fun hbounded => ?_
          obtain ⟨checkpoint, saves⟩ := hsaves hbounded
          exact saves.transitions_le
  | error e m =>
      rw [hresult] at hpass h
      cases hpass with
      | engine => simp at h
      | @inside e m step declared goes cut =>
          rcases cut with ⟨exc, rfl⟩ | ⟨started, hinterrupt⟩
          · simp at h
          · cases hinterrupt with
            | engine same => simp at h
            | continuation same saves ahead bound =>
                simp only [rollover_eq saves same, reduceCtorEq, false_or,
                  Turn.rollover.injEq] at h
                subst h
                have carried := saves.carried
                exact .interrupted declared goes rfl rfl rfl (by simpa using ahead)
                  (by simpa using bound)
                  ⟨carried.requestId, carried.params, carried.outputs, carried.transitions,
                    carried.episode⟩
      | behind declared goes departure saves =>
          simp only [rollover_eq saves rfl, reduceCtorEq, false_or, Turn.rollover.injEq] at h
          subst h
          refine .left declared goes rfl rfl departure saves.carried fun _ => ?_
          have := saves.transitions_le
          rwa [saves.carried.transitions]

theorem Stride.declared {self : FlowRunner σ} {p q : Position σ} (h : Stride self p q) :
    p.name ∈ self.config.names := by
  cases h with
  | left declared | interrupted declared =>
      obtain ⟨hmem, hname⟩ := flowStep_mem declared
      exact hname ▸ List.mem_map_of_mem hmem

/-! ## Walks -/

/-- Follow the chain of runs; the trail holds the positions that were passed, latest first. -/
inductive Walk (self : FlowRunner σ) (start : Position σ) : List (Position σ) → Position σ → Prop
    where
  | start : Walk self start [] start
  | pass {trail : List (Position σ)} {p q : Position σ} (rest : Walk self start trail p)
      (advances : self.Advances p q) : Walk self start (p :: trail) q

/-- What holds at the start and survives every stride holds wherever a walk leads. -/
theorem Walk.invariant {self : FlowRunner σ} (exclusive : self.config.Exclusive)
    {start q : Position σ} {trail : List (Position σ)} (walk : Walk self start trail q)
    (P : List (Position σ) → Position σ → Prop) (hstart : P [] start)
    (hstride : ∀ trail p q, Walk self start trail p → P trail p → Stride self p q →
      P (p :: trail) q) : P trail q := by
  induction walk with
  | start => exact hstart
  | pass rest advances ih => exact hstride _ _ _ rest ih (stride_of_advances exclusive advances)

/-- Follow the chain for at most the given number of passes. -/
def FlowRunner.follow (self : FlowRunner σ) :
    Nat → Position σ → List (Position σ) → Position σ × List (Position σ)
  | 0, p, trail => (p, trail)
  | fuel + 1, p, trail =>
      match self.turn p with
      | .advance next | .rollover next => self.follow fuel next (p :: trail)
      | .ended _ => (p, trail)

theorem walk_follow {self : FlowRunner σ} {start p : Position σ} {trail : List (Position σ)}
    (walk : Walk self start trail p) (fuel : Nat) :
    Walk self start (self.follow fuel p trail).2 (self.follow fuel p trail).1 := by
  induction fuel generalizing p trail with
  | zero => exact walk
  | succ fuel ih =>
      rw [FlowRunner.follow]
      split
      · exact ih (walk.pass (.inl ‹_›))
      · exact ih (walk.pass (.inr ‹_›))
      · exact walk

/-- The first position of a run, if it starts. -/
def Turn.started : Turn σ → Option (Position σ)
  | .advance start => some start
  | _ => none

/-- Where a chain stands after at most the given number of passes, and what it passed. -/
def FlowRunner.walked (self : FlowRunner σ) (fuel : Nat) (requestId : String)
    (triggerGlobals : JsonObject) (world : σ) : Option (Position σ × List (Position σ)) :=
  (self.begin requestId triggerGlobals world).started.map fun start => self.follow fuel start []

theorem walk_of_walked {self : FlowRunner σ} {fuel : Nat} {requestId : String}
    {globals : JsonObject} {world : σ} {reached : Position σ × List (Position σ)}
    (h : self.walked fuel requestId globals world = some reached) :
    ∃ start, self.begin requestId globals world = .advance start
      ∧ Walk self start reached.2 reached.1 := by
  obtain ⟨start, hstarted, rfl⟩ := Option.map_eq_some_iff.mp h
  unfold Turn.started at hstarted
  split at hstarted
  · rename_i hbegin
    cases hstarted
    exact ⟨_, hbegin, walk_follow .start fuel⟩
  · cases hstarted

/-! ## A host whose calls follow a script -/

/-- The results that the next calls of a service return. -/
abbrev Script := List (Except ExecutorFailure JsonValue)

def epoch : FiniteFloat :=
  { value := 0, text := "0.0" }

/-- Service calls follow the script, waits time out, and the clock stands still. -/
def scriptedExecutor : Executor Script where
  runStep _ script := ((script.headD (.ok .null)).map fun data => { data }, script.tail)
  runEvaluator _ _ _ script := (.ok true, script)
  waitForEvent _ _ script := (.ok .timedOut, script)
  sleep _ script := (.ok (), script)
  validateContract _ _ _ _ script := (.ok (), script)
  runSubworkflow _ _ _ script := (.ok .null, script)
  completes _ script := (0, script)
  now script := (epoch, script)

/-- The host's functions, where the scripted runs use them. -/
def plainPlatform : Platform where
  parse text :=
    if text = "True" then .ok (.constant (.bool true))
    else if text = "False" then .ok (.constant (.bool false))
    else .error "invalid syntax"
  reprStr text := s!"'{text}'"
  iso _ := "1970-01-01T00:00:00+00:00"
  fromIso _ := none
  floatOfInt n := some { value := n, text := s!"{n}.0" }
  floatSub a b := { value := a.value - b.value, text := "0.0" }
  elapsedMs _ _ := 0
  iso_ne _ := by decide

def externalFailure : ExecutorFailure :=
  .external { typeName := "ActivityError", text := "Activity task failed" } []

/-- A runner of a workflow with one service, whose history never fills up. -/
def scriptedRunner (config : WorkflowConfig) : FlowRunner Script where
  config := config
  services := [("worker", [])]
  executor := scriptedExecutor
  platform := plainPlatform
  limits := defaultRuntimeLimits
  observeHistory _ := { events := 0, bytes := 0 }

end Justflow
