import Justflow.Engine.Entries
import Justflow.Engine.Outcomes
import Justflow.Library.TaskPools

/-!
# Fan-out

A parallel `for_each` runs its items as tasks on a semaphore, chunk by chunk, and a sequential one
runs them one at a time.  When the key of an item settles its outcome, both record the same
results, whatever order the tasks end in; a failure that stops the step, a cancellation and a
fresh history leave no invocation in flight.
-/

open Program

namespace Justflow

variable {σ : Type}

/-- What `_run_iteration` has recorded between two items or chunks. -/
structure IterationRecord where
  nextOffset : Nat
  processed : List IterationResult
  failed : Nat

namespace IterationRecord

/-- `_append_iteration_results`, and the offset after the outcomes. -/
def append (frame : LoopFrame) (strategy : IterationFailStrategy) (self : IterationRecord)
    (outcomes : List ((IterationKey × JsonValue) × Except EngineException JsonValue)) :
    IterationRecord where
  nextOffset := self.nextOffset + outcomes.length
  processed := self.processed ++ outcomes.map fun o => iterationResult frame.step strategy o.1.1 o.2
  failed := self.failed + (outcomes.filter fun o => o.2.toOption.isNone).length

theorem additive_append (frame : LoopFrame) (strategy : IterationFailStrategy) :
    ChunkLoop.Additive (append frame strategy) where
  nil := by
    intro record
    simp [append]
  append := by
    intro record first second
    simp [append, Nat.add_assoc]

def progress (self : IterationRecord) : IterationProgress :=
  { processed := self.processed, failed := self.failed }

def checkpoint (frame : LoopFrame) (self : IterationRecord) : Except String LoopCheckpoint :=
  LoopCheckpoint.iteration <$> IterationCheckpoint.create frame.step.name frame.stepStarted
    self.nextOffset self.processed self.failed

end IterationRecord

/-- What the step returns with this progress. -/
def IterationItems.outcome (self : IterationItems) (progress : IterationProgress) :
    IterationOutcome where
  result := iterationValue self.isDict progress.processed
  itemsTotal := self.entries.length
  itemsFailed := progress.failed

/-- Whether an outcome is raised instead of being recorded. -/
def stopsOn (strategy : IterationFailStrategy) : Except EngineException JsonValue → Bool
  | .ok _ => false
  | .error exc => stopsLoop strategy exc

def LoopFrame.failStrategy (self : LoopFrame) : IterationFailStrategy :=
  self.step.onIterationFail.getD .stop

/-- The items after those of the record. -/
def IterationItems.remaining (self : IterationItems) (record : IterationRecord) :
    List (IterationKey × JsonValue) :=
  self.entries.drop record.nextOffset

/-- The sequential branch of `_run_iteration`, and what it returns. -/
def FlowRunner.runOneByOne (self : FlowRunner σ) (frame : LoopFrame)
    (runOne : IterationKey × JsonValue → RunM σ JsonValue) (items : IterationItems)
    (record : IterationRecord) : RunM σ IterationOutcome := do
  let progress ← self.runBatches frame runOne frame.failStrategy none
    (chunks 1 (items.remaining record).length (items.remaining record)) record.nextOffset
    record.progress
  return items.outcome progress

/-- The parallel branch of `_run_iteration`: its tasks, its chunks and its record. -/
abbrev FanOut :=
  ChunkLoop (IterationKey × JsonValue) (Except EngineException JsonValue) IterationRecord

/-- The record a `for_each` goes on from. -/
def IterationRecord.resume (continuation : Option IterationCheckpoint) : IterationRecord where
  nextOffset := (continuation.map IterationCheckpoint.nextOffset).getD 0
  processed := (continuation.map IterationCheckpoint.results).getD []
  failed := (continuation.map IterationCheckpoint.failed).getD 0

/-- What `runIteration` does with a step that is not parallel. -/
theorem runIteration_of_sequential {self : FlowRunner σ} {frame : LoopFrame}
    {reference : ReferencePath} {continuation : Option IterationCheckpoint} {items : IterationItems}
    (single : frame.step.parallel = false)
    (setup : self.iterationSetup frame reference (IterationRecord.resume continuation).processed
      (IterationRecord.resume continuation).nextOffset = .ok (none, items)) :
    self.runIteration frame reference continuation =
      self.runOneByOne frame (self.runOne frame) items (.resume continuation) := by
  simp only [IterationRecord.resume] at setup
  simp only [FlowRunner.runIteration, setup, lift, FlowRunner.batchSize, single]
  rfl

namespace FanOut

variable (frame : LoopFrame) (outcome : IterationKey → Except EngineException JsonValue)
  (bound size : Nat) (items : IterationItems) (record : IterationRecord)

def Step : FanOut → FanOut → Prop :=
  ChunkLoop.Step (fun entry => outcome entry.1) (stopsOn frame.failStrategy) bound
    (IterationRecord.append frame frame.failStrategy)

def chunksOf : List (List (IterationKey × JsonValue)) :=
  chunks size (items.remaining record).length (items.remaining record)

/-- Any moment of any execution from this record on. -/
def Reachable : FanOut → Prop :=
  ChunkLoop.Reachable (fun entry => outcome entry.1) (stopsOn frame.failStrategy) bound
    (IterationRecord.append frame frame.failStrategy) (chunksOf size items record) record

/-- The records of the sequential branch, and what it returns or raises. -/
def oneByOne : List IterationRecord × Except (Except EngineException JsonValue) IterationRecord :=
  ChunkLoop.sequential (fun entry => outcome entry.1) (stopsOn frame.failStrategy)
    (IterationRecord.append frame frame.failStrategy) (items.remaining record) record

end FanOut

/-- The key of an item settles its outcome while the invocation limit is not reached. -/
def Answers (runOne : IterationKey × JsonValue → RunM σ JsonValue)
    (outcome : IterationKey → Except EngineException JsonValue) (limit : Nat) : Prop :=
  ∀ entry m, m.invocations < limit →
    ∃ m', outcomeOf (runOne entry) m = .ok (outcome entry.1) m' ∧ m'.invocations ≤ m.invocations + 1

/-! ## The sequential branch -/

variable {self : FlowRunner σ} {frame : LoopFrame}
  {runOne : IterationKey × JsonValue → RunM σ JsonValue}
  {outcome : IterationKey → Except EngineException JsonValue} {limit : Nat}

theorem chunks_one {α : Type} (items : List α) :
    chunks 1 items.length items = items.map fun item => [item] := by
  induction items with
  | nil => rfl
  | cons item rest ih => simpa [chunks] using ih

/-- One item is run, and its outcome is recorded or raised. -/
theorem runBatch_single (self : FlowRunner σ) (answers : Answers runOne outcome limit)
    (strategy : IterationFailStrategy) (entry : IterationKey × JsonValue) {m : Machine σ} (room : m.invocations < limit) :
    ∃ m', m'.invocations ≤ m.invocations + 1 ∧
      ((stopsOn strategy (outcome entry.1) = false ∧
          self.runBatch runOne strategy none [entry] m = .ok [(entry.1, outcome entry.1)] m') ∨
        ∃ exc, outcome entry.1 = .error exc ∧ stopsOn strategy (outcome entry.1) = true ∧
          self.runBatch runOne strategy none [entry] m = .error (.engine exc) m') := by
  obtain ⟨m', answered, counted⟩ := answers entry m room
  refine ⟨m', counted, ?_⟩
  simp only [FlowRunner.runBatch, runSequential, Bind.bind, EStateM.bind, answered]
  cases outcome entry.1 with
  | ok value => exact .inl ⟨rfl, rfl⟩
  | error exc =>
      cases stops : stopsLoop strategy exc with
      | true => exact .inr ⟨exc, rfl, stops, by simp [raiseStopping, stops, raise]; rfl⟩
      | false => exact .inl ⟨stops, by simp [raiseStopping, stops]; rfl⟩

/-- A checkpoint of a loop refuses or lets the loop go on with nothing changed. -/
theorem checkpointDuringLoop_eq_ok {name : String} {seq : Nat} {loop : Except String LoopCheckpoint}
    {m m' : Machine σ} (h : self.checkpointDuringLoop name seq loop m = .ok () m') : m' = m := by
  obtain ⟨checkpoint, m₁, made, went⟩ := bind_eq_ok h
  have same : m₁ = m := by
    cases loop with
    | ok loop => exact (returns_eq_ok made).2
    | error detail => cases made
  subst same
  cases bounded : self.boundedExecutionEnabled with
  | true =>
      rw [bounded, if_pos rfl, checkpointAt_eq] at went
      split at went
      · cases went
      · split at went
        · cases went
        · split at went
          · cases went
          · exact (EStateM.Result.ok.inj went).2.symm
  | false =>
      rw [bounded, if_neg Bool.false_ne_true] at went
      exact (returns_eq_ok went).2

/-- A batch that is recorded is followed by its checkpoint. -/
theorem runBatches_recorded {strategy : IterationFailStrategy} {entry : IterationKey × JsonValue}
    {record : IterationRecord} {m m' : Machine σ} (rest : List (List (IterationKey × JsonValue)))
    (ran : self.runBatch runOne strategy none [entry] m = .ok [(entry.1, outcome entry.1)] m') :
    self.runBatches frame runOne strategy none ([entry] :: rest) record.nextOffset
        record.progress m =
      (let next := IterationRecord.append frame strategy record [(entry, outcome entry.1)]
       (self.checkpointDuringLoop frame.step.name frame.seq (next.checkpoint frame) >>= fun _ =>
          self.runBatches frame runOne strategy none rest next.nextOffset next.progress) m') := by
  have count : ([(entry, outcome entry.1)].filter fun o => o.2.toOption.isNone).length =
      ([(entry.1, outcome entry.1)].filter fun o => o.2.toOption.isNone).length := by
    simp only [List.filter_cons, List.filter_nil]
    split <;> rfl
  rw [FlowRunner.runBatches]
  simp only [IterationRecord.append, count, IterationRecord.progress, IterationRecord.checkpoint]
  simp only [Bind.bind, EStateM.bind, ran]
  rfl

/-- The sequential branch returns the progress of its last record; otherwise it raises the outcome
that stops it, or what the checkpoint of one of its records raises. -/
theorem runBatches_singletons (self : FlowRunner σ) (frame : LoopFrame)
    (answers : Answers runOne outcome limit) (strategy : IterationFailStrategy)
    (entries : List (IterationKey × JsonValue))
    (record : IterationRecord) {m : Machine σ} (room : m.invocations + entries.length ≤ limit) :
    Meets
      (fun progress _ => ∃ last, progress = last.progress ∧
        (ChunkLoop.sequential (fun entry => outcome entry.1) (stopsOn strategy)
          (IterationRecord.append frame strategy) entries record).2 = .ok last)
      (fun exc _ =>
        (∃ e, exc = .engine e ∧
          (ChunkLoop.sequential (fun entry => outcome entry.1) (stopsOn strategy)
            (IterationRecord.append frame strategy) entries record).2 = .error (.error e)) ∨
        ∃ refused ∈ (ChunkLoop.sequential (fun entry => outcome entry.1) (stopsOn strategy)
            (IterationRecord.append frame strategy) entries record).1, ∃ m₀ m₁,
          self.checkpointDuringLoop frame.step.name frame.seq (refused.checkpoint frame) m₀ =
            .error exc m₁)
      (self.runBatches frame runOne strategy none (entries.map fun entry => [entry])
        record.nextOffset record.progress m) := by
  induction entries generalizing record m with
  | nil => exact ⟨record, rfl, rfl⟩
  | cons entry rest ih =>
      rw [List.length_cons] at room
      obtain ⟨m', counted, ran⟩ := runBatch_single self answers strategy entry
        (show m.invocations < limit by omega)
      rw [List.map_cons]
      rcases ran with ⟨goes, ran⟩ | ⟨exc, failed, halts, ran⟩
      · rw [runBatches_recorded _ ran]
        simp only [ChunkLoop.sequential, goes, Bool.false_eq_true, if_false]
        generalize IterationRecord.append frame strategy record [(entry, outcome entry.1)] = next
        cases hcheckpoint : self.checkpointDuringLoop frame.step.name frame.seq
            (next.checkpoint frame) m' with
        | ok u m'' =>
            obtain rfl := checkpointDuringLoop_eq_ok hcheckpoint
            simp only [Bind.bind, EStateM.bind, hcheckpoint]
            refine (ih next (m := m'') (by omega)).mono (fun _ _ h => h) ?_
            rintro e _ (raised | ⟨refused, mem, refusal⟩)
            · exact .inl raised
            · exact .inr ⟨refused, List.mem_cons_of_mem _ mem, refusal⟩
        | error e m'' =>
            simp only [Bind.bind, EStateM.bind, hcheckpoint]
            exact .inr ⟨next, List.mem_cons_self, m', m'', hcheckpoint⟩
      · simp only [FlowRunner.runBatches, Bind.bind, EStateM.bind, ran, ChunkLoop.sequential,
          halts, if_true]
        exact .inl ⟨exc, rfl, by rw [failed]⟩

/-! ## Both branches -/

/-- What a checkpoint of the sequential branch raises. -/
def RaisedAtCheckpoint (self : FlowRunner σ) (frame : LoopFrame)
    (outcome : IterationKey → Except EngineException JsonValue) (items : IterationItems)
    (record : IterationRecord) (exc : RunException) : Prop :=
  ∃ refused ∈ (FanOut.oneByOne frame outcome items record).1, ∃ m₀ m₁,
    self.checkpointDuringLoop frame.step.name frame.seq (refused.checkpoint frame) m₀ =
      .error exc m₁

theorem runOneByOne_spec (self : FlowRunner σ) (frame : LoopFrame)
    (answers : Answers runOne outcome limit) (items : IterationItems)
    (record : IterationRecord) {m : Machine σ}
    (room : m.invocations + (items.remaining record).length ≤ limit) :
    Meets
      (fun result _ => ∃ last, result = items.outcome last.progress ∧
        (FanOut.oneByOne frame outcome items record).2 = .ok last)
      (fun exc _ =>
        (∃ e, exc = .engine e ∧ (FanOut.oneByOne frame outcome items record).2 = .error (.error e))
          ∨ RaisedAtCheckpoint self frame outcome items record exc)
      (self.runOneByOne frame runOne items record m) := by
  have batches := runBatches_singletons self frame answers frame.failStrategy
    (items.remaining record) record room
  rw [← chunks_one] at batches
  simp only [FlowRunner.runOneByOne, Bind.bind, EStateM.bind]
  revert batches
  cases self.runBatches frame runOne frame.failStrategy none
      (chunks 1 (items.remaining record).length (items.remaining record)) record.nextOffset
      record.progress m with
  | ok progress m' =>
      rintro ⟨last, rfl, ends⟩
      exact ⟨last, rfl, ends⟩
  | error exc m' => exact fun raised => raised

/-- How an execution of the parallel branch stands, at any moment, to the sequential branch on the
same items. -/
structure FanOut.Agrees (self : FlowRunner σ) (frame : LoopFrame)
    (runOne : IterationKey × JsonValue → RunM σ JsonValue)
    (outcome : IterationKey → Except EngineException JsonValue) (bound size : Nat)
    (items : IterationItems) (record : IterationRecord) (m : Machine σ) (loop : FanOut) :
    Prop where
  /-- At most `max_concurrency` invocations are in flight. -/
  bounded : loop.inFlight ≤ bound
  /-- No invocation is in flight when the step is left, however it is left. -/
  drained : loop.exit.isSome → loop.inFlight = 0
  /-- What the parallel branch returns, the sequential one returns. -/
  returns : loop.exit = some .returned →
    Meets (fun result _ => result = items.outcome loop.record.progress)
      (fun exc _ => RaisedAtCheckpoint self frame outcome items record exc)
      (self.runOneByOne frame runOne items record m)
  /-- What the parallel branch raises is the outcome of an item, and the sequential branch does not
  return. -/
  raises : ∀ w, loop.exit = some (.raised w) →
    (∃ entry ∈ items.remaining record, outcome entry.1 = w ∧ ∃ exc, w = .error exc) ∧
      Meets (fun _ _ => False) (fun _ _ => True) (self.runOneByOne frame runOne items record m)
  /-- The checkpoint at the end of a chunk is that of the sequential branch after its last item. -/
  checkpoints : ∀ n entry, loop.checkpoints[n]? = some entry →
    (FanOut.oneByOne frame outcome items record).1[
      ((FanOut.chunksOf size items record).take (n + 1)).flatten.length - 1]? = some entry
  /-- With `stop` the step fails exactly when an item fails. -/
  stops : frame.failStrategy = .stop →
    loop.exit = some .returned ∨ (∃ w, loop.exit = some (.raised w)) →
    ((∃ w, loop.exit = some (.raised w)) ↔
      ∃ entry ∈ items.remaining record, ∃ exc, outcome entry.1 = .error exc)
  /-- With `skip` and `collect` only a cancelled item ends the step. -/
  records : frame.failStrategy ≠ .stop → ∀ w, loop.exit = some (.raised w) →
    ∃ entry ∈ items.remaining record, ∃ exc, outcome entry.1 = .error exc ∧ isCancellation exc
  /-- The step goes on until it is left. -/
  goesOn : loop.exit = none → ∃ next, FanOut.Step frame outcome bound loop next
  /-- Every execution ends. -/
  ends : ∀ next, FanOut.Step frame outcome bound loop next → next.remaining < loop.remaining

theorem stopsOn_eq_true {strategy : IterationFailStrategy}
    {w : Except EngineException JsonValue} (h : stopsOn strategy w = true) :
    ∃ exc, w = .error exc ∧ (strategy = .stop ∨ isCancellation exc = true) := by
  cases w with
  | ok value => cases h
  | error exc =>
      simp only [stopsOn, stopsLoop, Bool.or_eq_true, beq_iff_eq] at h
      exact ⟨exc, rfl, h.symm⟩

/-- The chunks hold the items that are left, in their order. -/
theorem FanOut.flatten_chunksOf {size : Nat} (positive : 0 < size) (items : IterationItems)
    (record : IterationRecord) :
    (FanOut.chunksOf size items record).flatten = items.remaining record :=
  flatten_chunks positive _ _ (Nat.le_refl _)

/-- In every order in which the tasks start, end and are cancelled, the parallel branch agrees with
the sequential one. -/
theorem parallel_agrees_with_sequential (self : FlowRunner σ) (frame : LoopFrame)
    (answers : Answers runOne outcome limit) {bound size : Nat} (free : 0 < bound)
    (positive : 0 < size) (items : IterationItems) (record : IterationRecord) {m : Machine σ}
    (room : m.invocations + (items.remaining record).length ≤ limit) {loop : FanOut}
    (reachable : FanOut.Reachable frame outcome bound size items record loop) :
    FanOut.Agrees self frame runOne outcome bound size items record m loop := by
  have additive := IterationRecord.additive_append frame frame.failStrategy
  have sequential := runOneByOne_spec self frame answers items record room
  have flat := FanOut.flatten_chunksOf positive items record
  have raised : ∀ w, loop.exit = some (.raised w) → ∃ entry ∈ items.remaining record,
      outcome entry.1 = w ∧ stopsOn frame.failStrategy w = true := by
    intro w left
    rw [← flat]
    exact reachable.raised additive left
  constructor
  case bounded => exact reachable.inFlight_le additive
  case drained => exact reachable.inFlight_of_left additive
  case returns =>
    intro left
    obtain ⟨-, same⟩ := reachable.returned additive left
    rw [flat] at same
    refine sequential.mono ?_ ?_
    · rintro result m' ⟨last, rfl, ends⟩
      rw [show last = loop.record from Except.ok.inj (ends.symm.trans same)]
    · rintro exc m' (⟨e, rfl, ends⟩ | refused)
      · exact absurd (ends.symm.trans same) nofun
      · exact refused
  case raises =>
    intro w left
    obtain ⟨entry, mem, same, halts⟩ := raised w left
    obtain ⟨exc, failed, -⟩ := stopsOn_eq_true halts
    refine ⟨⟨entry, mem, same, exc, failed⟩, sequential.mono ?_ fun _ _ _ => trivial⟩
    rintro result m' ⟨last, -, ends⟩
    have stop : ∃ entry ∈ items.remaining record,
        stopsOn frame.failStrategy (outcome entry.1) = true := ⟨entry, mem, by rw [same, halts]⟩
    obtain ⟨first, -, -, stopped⟩ := ChunkLoop.sequential_raised _ record stop
    exact absurd (ends.symm.trans stopped) nofun
  case checkpoints =>
    intro n entry found
    have nonempty : ∀ chunk ∈ FanOut.chunksOf size items record, chunk ≠ [] :=
      fun chunk => ne_nil_of_mem_chunks positive
    have same := (reachable.checkpoint additive nonempty found).2
    rw [flat] at same
    exact same
  case stops =>
    intro strategy left
    constructor
    · rintro ⟨w, left⟩
      obtain ⟨entry, mem, same, halts⟩ := raised w left
      obtain ⟨exc, failed, -⟩ := stopsOn_eq_true halts
      exact ⟨entry, mem, exc, same.trans failed⟩
    · rintro ⟨entry, mem, exc, failed⟩
      rcases left with left | left
      · have goes := (reachable.returned additive left).1 entry (flat ▸ mem)
        simp [failed, strategy, stopsOn, stopsLoop] at goes
      · exact left
  case records =>
    intro strategy w left
    obtain ⟨entry, mem, same, halts⟩ := raised w left
    obtain ⟨exc, failed, why⟩ := stopsOn_eq_true halts
    exact ⟨entry, mem, exc, same.trans failed, why.resolve_left strategy⟩
  case goesOn => exact ChunkLoop.exists_step free
  case ends => exact fun next moves => moves.remaining_lt

/-- A program that does nothing but end with the outcome of its key. -/
def settled (outcome : IterationKey → Except EngineException JsonValue)
    (entry : IterationKey × JsonValue) : RunM σ JsonValue :=
  lift (outcome entry.1)

theorem answers_settled (outcome : IterationKey → Except EngineException JsonValue) (limit : Nat) :
    Answers (settled outcome : _ → RunM σ JsonValue) outcome limit := by
  intro entry m _
  refine ⟨m, ?_, Nat.le_succ _⟩
  simp only [outcomeOf, settled, attempt, Bind.bind, EStateM.bind]
  cases outcome entry.1 with
  | ok value => rfl
  | error exc => rfl

def pairItems : IterationItems where
  entries := [(.index 0, .int 7), (.index 1, .int 8)]
  isDict := false

/-- The second of two items fails. -/
def pairOutcome : IterationKey → Except EngineException JsonValue
  | .index 0 => .ok (.int 70)
  | _ => .error (.python "ValueError" "eight")

def pairFrame : LoopFrame where
  step := { name := "each", parallel := true, maxConcurrency := some 2,
            onIterationFail := some .collect }
  stepDef := { target := .service "worker" "work" }
  resolvedInput := .null
  mergedGlobals := []
  stepOutputs := []
  params := []
  seq := 0
  stepStarted := epoch

/-- The items in this state, in the order of their keys. -/
def pairLoop (first second : TaskState (Except EngineException JsonValue)) : FanOut where
  pool := { tasks := [((.index 0, .int 7), first), ((.index 1, .int 8), second)],
            phase := .gathering }
  pending := []
  record := .resume none
  checkpoints := []
  exit := none

/-- The second item ends first, and the step returns. -/
theorem parallel_agrees_with_sequential_pair :
    ∃ loop : FanOut, loop.exit = some .returned ∧
      FanOut.Agrees (scriptedRunner recoverWorkflow) pairFrame (settled pairOutcome) pairOutcome 2 2
        pairItems (.resume none)
        { run := { requestId := "request", startedAt := "" }, invocations := 0, world := [] }
        loop := by
  let step := FanOut.Step pairFrame pairOutcome 2
  have startFirst : step (pairLoop .waiting .waiting) (pairLoop .inFlight .waiting) :=
    .task (@TaskPool.Step.start _ _ _ _ _ [] _ _ _ (by decide))
  have startSecond : step (pairLoop .inFlight .waiting) (pairLoop .inFlight .inFlight) :=
    .task (@TaskPool.Step.start _ _ _ _ _ [(_, .inFlight)] _ _ _ (by decide))
  have finishSecond : step (pairLoop .inFlight .inFlight)
      (pairLoop .inFlight (.ended (pairOutcome (.index 1)))) :=
    .task (@TaskPool.Step.finish _ _ _ _ _ [(_, .inFlight)] _ _ (by decide))
  have finishFirst : step (pairLoop .inFlight (.ended (pairOutcome (.index 1))))
      (pairLoop (.ended (pairOutcome (.index 0))) (.ended (pairOutcome (.index 1)))) :=
    .task (@TaskPool.Step.finish _ _ _ _ _ [] _ _ (by decide))
  refine ⟨_, ?_, parallel_agrees_with_sequential _ _ (answers_settled pairOutcome 2) (by decide)
    (by decide) _ _ (by decide) (.tail (.tail (.tail (.tail (.single startFirst) startSecond)
      finishSecond) finishFirst) (.gather rfl ?_))⟩
  · rfl
  · simp [TaskPool.Done, TaskState.IsDone]

end Justflow
