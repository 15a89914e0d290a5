import Justflow.Config.AcceptedFlow
import Justflow.Engine.Availability
import Justflow.Engine.Dataflow
import Justflow.Engine.Entries
import Justflow.Engine.Failures

/-!
# Failure episodes

A failure that is routed opens an episode, which lasts while the run stays within the region of
the handler.  `Within` says so about the positions of a run alone; the episode that a run carries
is the one it is within, and no failure within an episode is routed.
-/

open Fields Program JsonValue

namespace Justflow

variable {σ : Type}

/-! ## Regions -/

/-- The steps of normal flow. -/
inductive NormalFlow (workflow : WorkflowConfig) : String → Prop where
  | entry {name : String} (first : workflow.flow.head?.map FlowStep.name = some name)
      (declared : (workflow.flowStep name).isSome = true) : NormalFlow workflow name
  | next {name target : String} (source : NormalFlow workflow name)
      (edge : target ∈ workflow.successors name)
      (declared : (workflow.flowStep target).isSome = true) : NormalFlow workflow target

/-- The steps reachable from a handler before a step of normal flow. -/
inductive Region (workflow : WorkflowConfig) (handler : String) : String → Prop where
  | handler (declared : (workflow.flowStep handler).isSome = true) :
      Region workflow handler handler
  | next {name target : String} (inside : Region workflow handler name)
      (apart : ¬ NormalFlow workflow name) (edge : target ∈ workflow.successors name)
      (declared : (workflow.flowStep target).isSome = true)
      (before : ¬ NormalFlow workflow target) : Region workflow handler target

variable {workflow : WorkflowConfig}

theorem mem_reachableFromEntry_iff {name : String} :
    name ∈ workflow.reachableFromEntry ↔ NormalFlow workflow name := by
  constructor
  · intro h
    obtain ⟨entry, hentry, path⟩ :=
      (Digraph.mem_closure_iff (fun _ => flowStep_declared) le_rfl).mp h
    have first : NormalFlow workflow entry :=
      .entry (by simpa using hentry) path.allowed_source
    clear hentry h
    induction path with
    | refl _ => exact first
    | step _ edge rest ih => exact ih (first.next edge rest.allowed_source)
  · intro h
    induction h with
    | entry first declared =>
        exact (Digraph.mem_closure_iff (fun _ => flowStep_declared) le_rfl).mpr
          ⟨_, by simpa using first, .refl declared⟩
    | next _ edge declared ih => exact reachableFromEntry_step ih edge declared

/-- The walk over the graph finds exactly the region. -/
theorem mem_handlerRegion_iff {handler name : String} :
    name ∈ workflow.handlerRegion handler ↔ Region workflow handler name := by
  constructor
  · intro h
    have path := mem_handlerRegion.mp h
    have declared := (Bool.and_eq_true_iff.mp path.allowed_source).1
    clear h
    suffices ∀ source, Region workflow handler source → Digraph.Path
        (fun name => (workflow.flowStep name).isSome
          && (name == handler || !workflow.reachableFromEntry.contains name))
        (fun name => if workflow.reachableFromEntry.contains name then []
          else workflow.successors name) source name → Region workflow handler name from
      this handler (.handler declared) path
    clear path
    intro source inside path
    induction path with
    | refl _ => exact inside
    | @step source target last _ edge rest ih =>
        split at edge
        · cases edge
        · rename_i apart
          have apart : ¬ NormalFlow workflow source := fun h =>
            apart (by simpa using mem_reachableFromEntry_iff.mpr h)
          obtain ⟨hdeclared, hbefore⟩ := Bool.and_eq_true_iff.mp rest.allowed_source
          rcases Bool.or_eq_true_iff.mp hbefore with hback | hbefore
          · have hback : target = handler := by simpa using hback
            exact ih (hback ▸ .handler (hback ▸ hdeclared))
          · refine ih (inside.next apart edge hdeclared fun h => ?_)
            have := mem_reachableFromEntry_iff.mpr h
            simp [this] at hbefore
  · intro h
    induction h with
    | handler declared => exact mem_handlerRegion_self declared
    | next _ apart edge declared before ih =>
        have hapart := mt mem_reachableFromEntry_iff.mp apart
        have hbefore := mt mem_reachableFromEntry_iff.mp before
        refine mem_handlerRegion.mpr ((mem_handlerRegion.mp ih).snoc ?_ ?_)
        · simpa [hapart] using edge
        · simp [declared, hbefore]

/-! ## Episodes of a run -/

/-- The machine of a position, once its step is entered. -/
def Position.entered (self : Position σ) : Machine σ :=
  { self.machine with run := self.machine.run.enter self.name self.seq }

/-- An episode is under way at the step of a position: its failure was routed, and since then the
run has not left the region of the handler. -/
inductive Within (runner : FlowRunner σ) (start : Position σ) :
    List (Position σ) → Position σ → FailureEpisode → Prop where
  | opened {trail : List (Position σ)} {p q : Position σ} {step : FlowStep} {exc : RunException}
      {handler : String} (advances : runner.Advances p q)
      (declared : runner.config.flowStep p.name = some step)
      (fails : OperationFails runner step p.seq p.loop p.entered exc)
      (handles : runner.handlerOf step = some handler) (enters : q.name = handler)
      (left : q.seq = p.seq + 1) :
      Within runner start (p :: trail) q (runner.openedEpisode step.name exc handler)
  | stays {trail : List (Position σ)} {p q : Position σ} {episode : FailureEpisode}
      (inside : Within runner start trail p episode) (advances : runner.Advances p q)
      (region : Region runner.config episode.handler q.name) :
      Within runner start (p :: trail) q episode

/-- An operation fails in one way. -/
theorem OperationFails.unique {runner : FlowRunner σ} {step : FlowStep} {seq : Nat}
    {loop : Option LoopCheckpoint} {m : Machine σ} {exc exc' : RunException}
    (h : OperationFails runner step seq loop m exc)
    (h' : OperationFails runner step seq loop m exc') : exc' = exc := by
  obtain ⟨frame, m₁, m₂, prepared, raised⟩ := h.raised
  obtain ⟨frame', m₁', m₂', prepared', raised'⟩ := h'.raised
  rw [prepared] at prepared'
  obtain ⟨same, rfl⟩ := EStateM.Result.ok.inj prepared'
  obtain ⟨rfl, -⟩ := Prod.mk.inj same
  rw [raised] at raised'
  exact (EStateM.Result.error.inj raised').1.symm

theorem Within.handlerSteps {runner : FlowRunner σ} {start q : Position σ}
    {trail : List (Position σ)} {episode : FailureEpisode}
    (h : Within runner start trail q episode) :
    episode.handlerSteps = runner.config.handlerRegion episode.handler := by
  induction h with
  | opened => rfl
  | stays _ _ _ ih => exact ih

theorem Continues.episode {self : FlowRunner σ} {m : Machine σ} {loop : Option LoopCheckpoint}
    {q : Position σ} (h : Continues self m loop q) :
    q.machine.run.activeEpisode = m.run.activeEpisode := by
  rcases h with same | ⟨checkpoint, invocations, restored, saves⟩
  · rw [same]
  · rw [restored]
    exact saves.carried.episode

/-- Inside a visit the episode is the one that lasts to this step. -/
theorem enter_activeEpisode {run : RunState} {name : String} {seq : Nat}
    {episode : FailureEpisode} :
    (run.enter name seq).activeEpisode = some episode ↔
      run.activeEpisode = some episode ∧ name ∈ episode.handlerSteps := by
  simp only [RunState.enter, Option.filter_eq_some_iff, List.contains_iff_mem]

/-- A run starts without an episode. -/
theorem begin_calm {self : FlowRunner σ} {start : Position σ} {requestId : String}
    {globals : JsonObject} {world : σ}
    (hbegin : self.begin requestId globals world = .advance start) :
    start.machine.run.activeEpisode = none := by
  have hstart := start_spec self globals (self.fresh requestId world).run
    (self.fresh requestId world) rfl
  rw [(FlowRunner.start_of_begin hbegin).1] at hstart
  exact hstart.2.1

section Episodes

variable {runner : FlowRunner σ}

theorem handler_declared (accepted : Accepted runner.platform.parse runner.limits runner.config)
    {step : FlowStep} {name handler : String} (declared : runner.config.flowStep name = some step)
    (goes : step.terminal = false) (handles : runner.handlerOf step = some handler) :
    (runner.config.flowStep handler).isSome = true := by
  have hmem := (flowStep_mem declared).1
  rw [FlowRunner.handlerOf] at handles
  split at handles
  · rename_i other hfailure
    obtain rfl := Option.some.inj handles
    exact flowStep_isSome_iff.mpr (accepted.target_declared hmem goes
      (.inr (.inr (.inl (truthy_eq_some hfailure).1))))
  · exact flowStep_isSome_iff.mpr (accepted.onError_declared handles)

/-- The episode that a run carries into a step is the one it is within. -/
theorem activeEpisode_iff (accepted : Accepted runner.platform.parse runner.limits runner.config)
    {start q : Position σ} {trail : List (Position σ)}
    (calm : start.machine.run.activeEpisode = none) (walk : Walk runner start trail q)
    (episode : FailureEpisode) :
    q.entered.run.activeEpisode = some episode ↔ Within runner start trail q episode := by
  have exclusive := accepted.model.exclusive_config
  induction walk generalizing episode with
  | start =>
      rw [Position.entered, enter_activeEpisode, calm]
      constructor
      · rintro ⟨⟨⟩, -⟩
      · rintro ⟨⟩
  | @pass trail p q rest advances ih =>
      have entered : q.entered.run.activeEpisode = some episode ↔
          q.machine.run.activeEpisode = some episode ∧ q.name ∈ episode.handlerSteps :=
        enter_activeEpisode
      rw [entered]
      cases passes_of_advances exclusive advances with
      | @left step m declared goes leaves seq continues =>
          have leaves : Leaves runner step p.seq p.loop p.entered m (some q.name) := leaves
          rw [continues.episode]
          cases leaves.episode with
          | kept quiet same =>
              rw [same]
              constructor
              · rintro ⟨active, mem⟩
                have inside := (ih episode).mp active
                rw [inside.handlerSteps, mem_handlerRegion_iff] at mem
                exact inside.stays advances mem
              · intro within
                cases within with
                | opened _ declared' fails =>
                    rw [declared] at declared'
                    cases declared'
                    exact absurd fails (quiet _)
                | stays inside _ region =>
                    refine ⟨(ih episode).mpr inside, ?_⟩
                    rwa [inside.handlerSteps, mem_handlerRegion_iff]
          | @opened exc handler fails before handles enters same =>
              have enters : q.name = handler := Option.some.inj enters
              constructor
              · rintro ⟨active, mem⟩
                rw [same] at active
                obtain rfl := Option.some.inj active
                exact .opened advances declared fails handles enters seq
              · intro within
                cases within with
                | opened _ declared' fails' handles' =>
                    rw [declared] at declared'
                    cases declared'
                    rw [handles] at handles'
                    cases handles'
                    obtain rfl := fails.unique fails'
                    refine ⟨same, ?_⟩
                    rw [FlowRunner.openedEpisode, mem_handlerRegion_iff, enters]
                    exact .handler (handler_declared accepted declared goes handles)
                | stays inside =>
                    rw [(ih episode).mpr inside] at before
                    cases before
      | @interrupted m loop started name seq same continues =>
          rw [continues.episode, same]
          constructor
          · rintro ⟨active, mem⟩
            have inside := (ih episode).mp active
            rw [inside.handlerSteps, mem_handlerRegion_iff] at mem
            exact inside.stays advances mem
          · intro within
            cases within with
            | opened _ _ _ _ _ left => omega
            | stays inside _ region =>
                refine ⟨(ih episode).mpr inside, ?_⟩
                rwa [inside.handlerSteps, mem_handlerRegion_iff]

/-- What a turn that ends with a record comes from. -/
theorem pass_of_completed {p : Position σ} {record : AuditRecord} {m : Machine σ}
    (h : runner.turn p = .ended (.completed record m)) :
    runner.pass p.name p.seq p.loop p.machine = .ok (.inr record) m := by
  rw [FlowRunner.turn] at h
  cases hpass : runner.pass p.name p.seq p.loop p.machine with
  | ok next m' =>
      rw [hpass] at h
      cases next with
      | inl next => cases h
      | inr other =>
          simp only [Turn.ended.injEq, Ending.completed.injEq] at h
          obtain ⟨rfl, rfl⟩ := h
          rfl
  | error e m' =>
      rw [hpass] at h
      cases e with
      | engine exc => cases h
      | flowContinuation checkpoint observation =>
          simp only [rollover, checkpoint.modelValidate_wire] at h
          cases h

/-- What a turn that ends with a failure comes from. -/
theorem pass_of_failed {p : Position σ} {exc : EngineException} {m : Machine σ}
    (h : runner.turn p = .ended (.failed exc m)) :
    runner.pass p.name p.seq p.loop p.machine = .error (.engine exc) m := by
  rw [FlowRunner.turn] at h
  cases hpass : runner.pass p.name p.seq p.loop p.machine with
  | ok next m' =>
      rw [hpass] at h
      cases next with
      | inl next => cases h
      | inr record => cases h
  | error e m' =>
      rw [hpass] at h
      cases e with
      | engine exc' =>
          simp only [Turn.ended.injEq, Ending.failed.injEq] at h
          obtain ⟨rfl, rfl⟩ := h
          rfl
      | flowContinuation checkpoint observation =>
          simp only [rollover, checkpoint.modelValidate_wire] at h
          cases h

/-- A failure within an episode ends the run with both failures. -/
structure EndsRun (runner : FlowRunner σ) (q : Position σ) (episode : FailureEpisode) : Prop where
  unrouted : ∀ step exc, runner.config.flowStep q.name = some step → step.terminal = false →
    OperationFails runner step q.seq q.loop q.entered exc →
      ∃ raised m, runner.turn q = .ended (.failed raised m) ∧ m.run.phase = .step
  reported : ∀ raised m, runner.turn q = .ended (.failed raised m) → m.run.phase = .step →
    isCancellation raised = false → ∃ cause, reportedFailure raised m.run = some {
      classification := episode.primary
      secondary := [classifyFailure cause .handler (some q.name) (some .handlerFailed)] }

theorem unrouted_of_active (exclusive : runner.config.Exclusive) {q : Position σ}
    {episode : FailureEpisode} (active : q.entered.run.activeEpisode = some episode)
    {step : FlowStep} {exc : RunException} (declared : runner.config.flowStep q.name = some step)
    (goes : step.terminal = false)
    (fails : OperationFails runner step q.seq q.loop q.entered exc) :
    ∃ raised m, runner.turn q = .ended (.failed raised m) ∧ m.run.phase = .step := by
  cases hvisit : runner.visitStep q.name q.seq q.loop q.machine with
  | ok move m =>
      have spec := visitStep_spec runner exclusive q.name q.seq q.loop q.machine.run q.machine rfl
      rw [hvisit] at spec
      obtain ⟨step', declared', ends⟩ := spec
      rw [declared] at declared'
      obtain rfl := Option.some.inj declared'
      cases ends with
      | terminal ends _ =>
          rw [goes] at ends
          cases ends
      | moved _ _ =>
          obtain ⟨step', declared', -, -, leaves⟩ := visitStep_leaves exclusive hvisit
          rw [declared] at declared'
          obtain rfl := Option.some.inj declared'
          cases leaves.episode with
          | kept quiet _ => exact absurd fails (quiet exc)
          | opened _ before _ _ _ =>
              have before : q.entered.run.activeEpisode = none := before
              rw [active] at before
              cases before
  | error e m =>
      have visited := visitStep_visits exclusive q.name q.seq q.loop q.machine
      rw [hvisit] at visited
      obtain ⟨visiting, blames⟩ := visited
      have still := visiting.episode episode active
      have engine : ∃ raised, e = .engine raised := by
        cases blames with
        | itself _ quiet =>
            refine quiet.resolve_right fun calm => ?_
            rw [still] at calm
            cases calm
        | handler _ => exact ⟨_, rfl⟩
      obtain ⟨raised, rfl⟩ := engine
      refine ⟨raised, m, ?_, visiting.phase⟩
      have hpass : runner.pass q.name q.seq q.loop q.machine = .error (.engine raised) m := by
        rw [FlowRunner.pass]
        simp only [Bind.bind, EStateM.bind, hvisit]
      rw [FlowRunner.turn, hpass]

theorem reported_of_active (exclusive : runner.config.Exclusive) {q : Position σ}
    {episode : FailureEpisode} (active : q.entered.run.activeEpisode = some episode)
    {raised : EngineException} {m : Machine σ} (h : runner.turn q = .ended (.failed raised m))
    (phase : m.run.phase = .step) (kind : isCancellation raised = false) :
    ∃ cause, reportedFailure raised m.run = some {
      classification := episode.primary
      secondary := [classifyFailure cause .handler (some q.name) (some .handlerFailed)] } := by
  simp only [reportedFailure, kind, Bool.false_eq_true, if_false, Option.some.injEq]
  cases pass_fails exclusive (pass_of_failed h) with
  | finishing finished _ _ _ =>
      rw [finished] at phase
      cases phase
  | visiting visiting blames =>
      have still := visiting.episode episode active
      cases blames with
      | itself plain _ =>
          refine ⟨raised, ?_⟩
          have failure : m.run.failureForStep raised =
              classifyFailure raised .handler (some q.name) (some .handlerFailed) := by
            rw [RunState.failureForStep.eq_def, still, visiting.step]
            cases raised with
            | handlerFailure primary handler => cases plain
            | _ => rfl
          rw [← failure, buildExecutionError.eq_def, still]
          cases raised with
          | handlerFailure primary handler => cases plain
          | _ => rfl
      | @handler other cause active' =>
          rw [still] at active'
          obtain rfl := Option.some.inj active'
          exact ⟨cause, by rw [buildExecutionError.eq_def]; rfl⟩

end Episodes

end Justflow
