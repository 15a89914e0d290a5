import Justflow.Engine.Outputs
import Justflow.Engine.Termination

/-!
# The latest outputs of a run

Every run of the runner is a run of outputs.  So the condition under which a result can be stored
and read back is one on the latest results, and nothing else that is held is ever changed.
-/

open Fields Program JsonValue Objects

namespace Justflow

variable {σ : Type}

/-- A visit that is left takes a run of outputs on. -/
theorem OutputsAfter.run {flow : List FlowStep} (names : OutputNames flow) {step : FlowStep}
    (mem : step ∈ flow) {latest outputs outputs' : JsonObject} {memory : Memory}
    (run : OutputRun flow latest outputs memory) (after : OutputsAfter step outputs outputs') :
    ∃ latest' memory', OutputRun flow latest' outputs' memory' := by
  cases after with
  | kept => exact ⟨latest, memory, run⟩
  | @stored result _ stores =>
      obtain ⟨follows, sound, hmatch⟩ := run.invariant names
      have copied := copy_spec result memory.heap
      obtain ⟨next, stored, -⟩ := Memory.store_refines names sound follows hmatch mem copied stores
      exact ⟨_, next, run.stored mem copied stores stored⟩
  | failed failure => exact ⟨latest, _, run.failed (copy_spec failure memory.heap)⟩

theorem Continues.outputs {runner : FlowRunner σ} {m : Machine σ} {loop : Option LoopCheckpoint}
    {q : Position σ} (h : Continues runner m loop q) {flow : List FlowStep} {latest : JsonObject}
    {memory : Memory} (run : OutputRun flow latest m.run.stepOutputs memory) :
    ∃ latest' memory', OutputRun flow latest' q.machine.run.stepOutputs memory' := by
  rcases h with same | ⟨checkpoint, invocations, restored, saves⟩
  · rw [same]
    exact ⟨latest, memory, run⟩
  · obtain ⟨-, -, houtputs, -⟩ := saves.fields
    rw [restored]
    show ∃ latest' memory', OutputRun flow latest' checkpoint.wire.stepOutputs memory'
    rw [RunnerCheckpoint.wire, houtputs]
    exact ⟨_, _, run.continued⟩

/-- Every walk of the runner is a run of outputs. -/
theorem exists_outputRun {runner : FlowRunner σ} (exclusive : runner.config.Exclusive)
    (names : OutputNames runner.config.flow) {start q : Position σ}
    (fresh : start.machine.run.stepOutputs = []) {trail : List (Position σ)}
    (walk : Walk runner start trail q) :
    ∃ latest memory, OutputRun runner.config.flow latest q.machine.run.stepOutputs memory := by
  induction walk with
  | start =>
      rw [fresh]
      exact ⟨_, _, .start⟩
  | pass rest advances ih =>
      obtain ⟨latest, memory, run⟩ := ih
      cases passes_of_advances exclusive advances with
      | left declared goes leaves seq continues =>
          obtain ⟨latest', memory', after⟩ :=
            leaves.outputs.run names (flowStep_mem declared).1 run
          exact continues.outputs after
      | interrupted name seq same continues =>
          rename_i m _ _
          have kept : OutputRun runner.config.flow latest m.run.stepOutputs memory := by
            rw [same]
            exact run
          exact continues.outputs kept

/-! ## Storing the latest result -/

/-- Storing succeeds, the references to what was stored resolve to the result, and what else is
held reads as before. -/
def StoresLatest (step : FlowStep) (result : JsonValue) (outputs : JsonObject) (memory : Memory) :
    Prop :=
  ∃ outputs', storeOutput step result outputs = .ok outputs' ∧
    (∀ params, Resolved step result outputs' params) ∧
    ∀ item heap, Copies memory.heap result item heap →
      ∃ next, Memory.storeOutput { memory with heap } step item = .ok next ∧
        next.Matches outputs' ∧ ∀ owner root value, owner ≠ some step.name →
          owner ≠ some step.outputKey → memory.Root owner root → Shows memory.heap value root →
            next.Root owner root ∧ Shows next.heap value root

/-- The last result of a step without an alias was an object, and the result is within the bounds
of references, one level deeper in the namespace of an alias. -/
structure Storable (step : FlowStep) (result : JsonValue) (latest : JsonObject) : Prop where
  assignable : step.Aliased ∨ ∀ previous, latest.lookup step.name = some previous →
    IsObject previous
  readable : fits defaultCollectionItems result 0 = true
  nested : step.Aliased → fits defaultCollectionItems result 1 = true

/-- In every run, and for every step that may succeed next with any result: its result is stored
and read back, and nothing else is changed, exactly where it is storable. -/
theorem outputs_follow_latest (runner : FlowRunner σ)
    (accepted : Accepted runner.platform.parse runner.limits runner.config) {start q : Position σ}
    {requestId : String} {globals : JsonObject} {world : σ}
    (hbegin : runner.begin requestId globals world = .advance start)
    {trail : List (Position σ)} (walk : Walk runner start trail q) :
    (∃ latest memory, OutputRun runner.config.flow latest q.machine.run.stepOutputs memory) ∧
      ∀ latest memory, OutputRun runner.config.flow latest q.machine.run.stepOutputs memory →
        ∀ step ∈ runner.config.flow, ∀ result,
          StoresLatest step result q.machine.run.stepOutputs memory ↔
            Storable step result latest := by
  have names := accepted.outputNames
  refine ⟨exists_outputRun accepted.model.exclusive_config names (begin_fresh hbegin).2 walk, ?_⟩
  intro latest memory run step mem result
  obtain ⟨follows, sound, hmatch⟩ := run.invariant names
  constructor
  · rintro ⟨outputs', stores, resolved, -⟩
    obtain ⟨readable, nested⟩ :=
      (resolved_iff (follows.store names mem stores) mem []).mp (resolved [])
    exact ⟨(storeOutput_ok_iff follows mem).mp ⟨outputs', stores⟩, readable, nested⟩
  · rintro ⟨assignable, readable, nested⟩
    obtain ⟨outputs', stores⟩ := (storeOutput_ok_iff follows mem).mpr assignable
    refine ⟨outputs', stores, fun params => ?_, fun item heap copied => ?_⟩
    · exact (resolved_iff (follows.store names mem stores) mem params).mpr ⟨readable, nested⟩
    · obtain ⟨next, stored, -, hmatch', kept⟩ :=
        Memory.store_refines names sound follows hmatch mem copied stores
      exact ⟨next, stored, hmatch', kept⟩

/-! ## A step that is joined again -/

/-- The handler of the second step leads back to the first one. -/
def rejoinWorkflow : WorkflowConfig where
  workflow := "rejoin"
  steps := [("work", { target := .service "worker" "work" })]
  flow := [
    { name := "first", op := some "work", thenStep := some "second" },
    { name := "second", op := some "work", thenStep := some "done", onFailure := some "again" },
    { name := "again", op := some "work", thenStep := some "first" },
    { name := "done", terminal := true }]

/-- The first result is a text; the second step fails once. -/
def rejoinScript : Script :=
  [.ok (.str "paid"), .error externalFailure, .ok .null, .ok (.str "paid"), .ok .null]

/-- No result of the first step can be stored when it is visited again. -/
theorem rejoined_store_fails :
    Accepted plainPlatform.parse {} rejoinWorkflow ∧
      ∃ start trail q step, (scriptedRunner rejoinWorkflow).begin "request" [] rejoinScript =
          .advance start
        ∧ Walk (scriptedRunner rejoinWorkflow) start trail q
        ∧ rejoinWorkflow.flowStep q.name = some step
        ∧ ∀ result memory, ¬ StoresLatest step result q.machine.run.stepOutputs memory := by
  refine ⟨by decide +kernel, ?_⟩
  have hreached : ((scriptedRunner rejoinWorkflow).walked 3 "request" [] rejoinScript).map
      (fun reached => (reached.1.name,
        reached.1.machine.run.stepOutputs.lookup "first" == some (.str "paid"))) =
        some ("first", true) := by
    decide +kernel
  obtain ⟨reached, hwalked, hends⟩ := Option.map_eq_some_iff.mp hreached
  obtain ⟨start, hbegin, walk⟩ := walk_of_walked hwalked
  simp only [Prod.mk.injEq, beq_iff_eq] at hends
  obtain ⟨hname, hheld⟩ := hends
  refine ⟨start, _, _, { name := "first", op := some "work", thenStep := some "second" }, hbegin,
    walk, by rw [hname]; rfl, ?_⟩
  rintro result memory ⟨outputs, stores, -⟩
  rw [storeOutput, hheld] at stores
  cases stores

/-- After the first visit of this run. -/
theorem outputs_follow_latest_rejoin :
    ∃ start trail q, (scriptedRunner rejoinWorkflow).begin "request" [] rejoinScript =
        .advance start
      ∧ Walk (scriptedRunner rejoinWorkflow) start trail q
      ∧ ∃ latest memory, OutputRun rejoinWorkflow.flow latest q.machine.run.stepOutputs memory
      ∧ ∀ step ∈ rejoinWorkflow.flow, ∀ result,
          StoresLatest step result q.machine.run.stepOutputs memory ↔
            Storable step result latest := by
  have hreached : ((scriptedRunner rejoinWorkflow).walked 1 "request" [] rejoinScript).isSome := by
    decide +kernel
  obtain ⟨reached, hwalked⟩ := Option.isSome_iff_exists.mp hreached
  obtain ⟨start, hbegin, walk⟩ := walk_of_walked hwalked
  obtain ⟨⟨latest, memory, run⟩, stores⟩ := outputs_follow_latest (scriptedRunner rejoinWorkflow)
    (by decide +kernel) hbegin walk
  exact ⟨start, _, _, hbegin, walk, latest, memory, run, stores latest memory run⟩

/-- The step that it is visited before. -/
example : ((scriptedRunner rejoinWorkflow).walked 1 "request" [] rejoinScript).map
    (fun reached => reached.1.name) = some "second" := by
  decide +kernel

end Justflow
