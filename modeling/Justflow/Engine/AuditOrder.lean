import Justflow.Engine.Episodes

/-!
# The order of the audit

Every visit that is left records its outcome under its own number, and the next visit takes the
next one.  So the records of a run are ordered as its visits, and the last record of a step tells
its latest visit.  Only a failure that nothing handles may leave an older record in place.
-/

open Fields Program JsonValue

namespace Justflow

variable {σ : Type}

/-! ## Visits and records -/

/-- A visit that has ended. -/
structure Visited where
  name : String
  seq : Nat
  status : StepStatus

/-- The record of a step tells this visit. -/
def Tells (visit : Visited) (entry : JsonObject) : Prop :=
  entry.lookup "seq" = some (.int visit.seq) ∧ statusOf entry = some (.str visit.status.value)

/-- The latest visit of a step. -/
def latestVisit (visits : List Visited) (name : String) : Option Visited :=
  visits.find? fun visit => visit.name == name

/-- The records of a run are in order, before the number `next` is given. -/
structure AuditOrder (visits : List Visited) (timings : List (String × JsonObject)) (next : Nat) :
    Prop where
  ordered : visits.Pairwise fun later earlier => earlier.seq < later.seq
  below : ∀ visit ∈ visits, visit.seq < next
  latest : ∀ name, Option.Rel Tells (latestVisit visits name) (timings.lookup name)

/-- The numbers of the records are pairwise distinct, and smaller than the next one. -/
structure DistinctNumbers (timings : List (String × JsonObject)) (next : Nat) : Prop where
  distinct : ∀ name other entry entry', name ≠ other → timings.lookup name = some entry →
    timings.lookup other = some entry' → entry.lookup "seq" ≠ entry'.lookup "seq"
  below : ∀ name entry, timings.lookup name = some entry →
    ∃ seq : Nat, entry.lookup "seq" = some (.int seq) ∧ seq < next

variable {visits : List Visited} {timings timings' : List (String × JsonObject)} {next : Nat}

theorem latestVisit_mem {name : String} {visit : Visited}
    (h : latestVisit visits name = some visit) : visit ∈ visits ∧ visit.name = name := by
  refine ⟨List.mem_of_find?_eq_some h, ?_⟩
  simpa using List.find?_some h

theorem eq_of_seq_eq (ordered : visits.Pairwise fun later earlier => earlier.seq < later.seq)
    {a b : Visited} (ha : a ∈ visits) (hb : b ∈ visits) (h : a.seq = b.seq) : a = b := by
  induction ordered with
  | nil => cases ha
  | @cons first rest hfirst _ ih =>
      rcases List.mem_cons.mp ha with ha | ha
      · rcases List.mem_cons.mp hb with hb | hb
        · rw [ha, hb]
        · have := hfirst b hb
          rw [ha] at h
          omega
      · rcases List.mem_cons.mp hb with hb | hb
        · have := hfirst a ha
          rw [hb] at h
          omega
        · exact ih ha hb

/-- A record is one of a visit. -/
theorem AuditOrder.visited (h : AuditOrder visits timings next) {name : String}
    {entry : JsonObject} (hentry : timings.lookup name = some entry) :
    ∃ visit ∈ visits, visit.name = name ∧ Tells visit entry := by
  have latest := h.latest name
  rw [hentry] at latest
  generalize hvisit : latestVisit visits name = found at latest
  cases latest with
  | some tells =>
      obtain ⟨mem, hname⟩ := latestVisit_mem hvisit
      exact ⟨_, mem, hname, tells⟩

theorem AuditOrder.distinctNumbers (h : AuditOrder visits timings next) :
    DistinctNumbers timings next where
  distinct := by
    intro name other entry entry' hne hentry hentry' hseq
    obtain ⟨visit, mem, hname, tells⟩ := h.visited hentry
    obtain ⟨visit', mem', hname', tells'⟩ := h.visited hentry'
    rw [tells.1, tells'.1, Option.some.injEq, JsonValue.int.injEq, Nat.cast_inj] at hseq
    have same := eq_of_seq_eq h.ordered mem mem' hseq
    exact hne (by rw [← hname, ← hname', same])
  below := by
    intro name entry hentry
    obtain ⟨visit, mem, -, tells⟩ := h.visited hentry
    exact ⟨visit.seq, tells.1, h.below visit mem⟩

/-- The record of the visit that ends takes the place of the last one of its step. -/
theorem AuditOrder.record (h : AuditOrder visits timings next) {name : String}
    {status : StepStatus} {entry : JsonObject} (tells : Tells ⟨name, next, status⟩ entry)
    (own : timings'.lookup name = some entry)
    (others : ∀ other, other ≠ name → timings'.lookup other = timings.lookup other) :
    AuditOrder (⟨name, next, status⟩ :: visits) timings' (next + 1) where
  ordered := List.pairwise_cons.mpr ⟨fun visit mem => h.below visit mem, h.ordered⟩
  below := by
    intro visit mem
    rcases List.mem_cons.mp mem with rfl | mem
    · exact Nat.lt_succ_self _
    · exact Nat.lt_succ_of_lt (h.below visit mem)
  latest := by
    intro other
    by_cases same : other = name
    · subst same
      rw [own, latestVisit, List.find?_cons_of_pos (by simp)]
      exact .some tells
    · rw [others other same, latestVisit, List.find?_cons_of_neg (by simpa using Ne.symm same)]
      exact h.latest other

@[simp]
theorem tells_dump (entry : StepAuditEntry) (name : String) (seq : Nat) (status : StepStatus)
    (hseq : entry.seq = seq) (hstatus : entry.status = status.value) :
    Tells ⟨name, seq, status⟩ entry.dump := by
  subst hseq
  refine ⟨rfl, ?_⟩
  rw [← hstatus]
  rfl

/-! ## Across the wire -/

theorem lookup_wireTimings (timings : List (String × JsonObject)) (name : String) :
    (wireTimings timings).lookup name = (timings.lookup name).map wireObject := by
  rw [wireTimings, lookup_sortKeys, lookup_map_value]

theorem Tells.wire {visit : Visited} {entry : JsonObject} (h : Tells visit entry) :
    Tells visit (wireObject entry) := by
  obtain ⟨seq, status⟩ := h
  rw [statusOf] at status
  refine ⟨?_, ?_⟩
  · rw [lookup_wireObject, seq]
    rfl
  · rw [statusOf, lookup_wireObject, status]
    rfl

/-- The records of a run stay in order across a continuation. -/
theorem AuditOrder.wire (h : AuditOrder visits timings next) :
    AuditOrder visits (wireTimings timings) next where
  ordered := h.ordered
  below := h.below
  latest := by
    intro name
    have latest := h.latest name
    rw [lookup_wireTimings]
    generalize latestVisit visits name = found at latest ⊢
    generalize timings.lookup name = entry at latest ⊢
    cases latest with
    | none => exact .none
    | some tells => exact .some tells.wire

/-! ## The visits of a run -/

/-- The visits that lead to a position, latest first, each with its outcome. -/
inductive VisitsTo (runner : FlowRunner σ) (start : Position σ) :
    List Visited → Position σ → Prop
    where
  | start : VisitsTo runner start [] start
  | left {visits : List Visited} {p q : Position σ} {step : FlowStep} {status : StepStatus}
      (rest : VisitsTo runner start visits p) (advances : runner.Advances p q)
      (declared : runner.config.flowStep p.name = some step)
      (outcome : VisitOutcome runner step p.seq p.loop p.entered status)
      (moves : q.seq = p.seq + 1) :
      VisitsTo runner start (⟨p.name, p.seq, status⟩ :: visits) q
  | continued {visits : List Visited} {p q : Position σ}
      (rest : VisitsTo runner start visits p) (advances : runner.Advances p q)
      (stays : q.seq = p.seq) : VisitsTo runner start visits q

section Visits

variable {runner : FlowRunner σ}

/-- A visit has one outcome. -/
theorem VisitOutcome.unique {step : FlowStep} {seq : Nat} {loop : Option LoopCheckpoint}
    {m : Machine σ} {status status' : StepStatus}
    (h : VisitOutcome runner step seq loop m status)
    (h' : VisitOutcome runner step seq loop m status') : status' = status := by
  cases h <;> cases h' <;> grind

/-- Every walk is one of visits. -/
theorem exists_visitsTo (exclusive : runner.config.Exclusive) {start q : Position σ}
    {trail : List (Position σ)} (walk : Walk runner start trail q) :
    ∃ visits, VisitsTo runner start visits q := by
  induction walk with
  | start => exact ⟨[], .start⟩
  | pass rest advances ih =>
      obtain ⟨visits, ih⟩ := ih
      cases passes_of_advances exclusive advances with
      | left declared goes leaves seq _ =>
          obtain ⟨status, outcome, -⟩ := leaves.recorded
          exact ⟨_, ih.left advances declared outcome seq⟩
      | interrupted _ seq _ _ => exact ⟨visits, ih.continued advances seq⟩

theorem Continues.auditOrder {m : Machine σ} {loop : Option LoopCheckpoint} {q : Position σ}
    (h : Continues runner m loop q) (order : AuditOrder visits m.run.stepTimings next) :
    AuditOrder visits q.machine.run.stepTimings next := by
  rcases h with same | ⟨checkpoint, invocations, restored, saves⟩
  · rwa [same]
  · obtain ⟨-, -, -, htimings, -⟩ := saves.fields
    rw [restored]
    show AuditOrder visits checkpoint.wire.stepTimings next
    rw [RunnerCheckpoint.wire, htimings]
    exact order.wire

/-- Along every walk the records are in the order of the visits. -/
theorem auditOrder_of_visitsTo (exclusive : runner.config.Exclusive) {start q : Position σ}
    (fresh : start.machine.run.stepTimings = []) (h : VisitsTo runner start visits q) :
    AuditOrder visits q.machine.run.stepTimings q.seq := by
  induction h with
  | start =>
      rw [fresh]
      exact ⟨.nil, nofun, fun _ => .none⟩
  | @left visits p q step status rest advances declared outcome moves ih =>
      cases passes_of_advances exclusive advances with
      | @left step' m declared' goes leaves seq continues =>
          rw [declared] at declared'
          obtain rfl := Option.some.inj declared'
          obtain ⟨status', outcome', entry, hseq, hstatus, timings⟩ := leaves.recorded
          obtain rfl := outcome.unique outcome'
          have hname := (flowStep_mem declared).2
          rw [moves]
          refine continues.auditOrder (ih.record (tells_dump entry _ _ _ hseq hstatus) ?_ ?_)
          · rw [timings, hname, lookup_set_self]
          · intro other hne
            rw [timings, hname, lookup_set_ne hne]
            rfl
      | interrupted _ seq _ _ => omega
  | @continued visits p q rest advances stays ih =>
      cases passes_of_advances exclusive advances with
      | left _ _ _ seq _ => omega
      | @interrupted m loop started _ seq same continues =>
          rw [seq]
          refine continues.auditOrder ?_
          rw [same]
          exact ih

/-! ## The end of a run -/

/-- The step about to be visited has no record of an earlier failure. -/
def Position.Unfailed (self : Position σ) : Prop :=
  (self.machine.run.stepTimings.lookup self.name).bind statusOf ≠
    some (.str StepStatus.failed.value)

/-- What is recorded when nothing handles a failure. -/
theorem failedRun_timings (runner : FlowRunner σ) {run : RunState} {exc : EngineException}
    {name : String} (blamed : (run.failureForStep exc).step = some name) :
    ((runner.failedRun exc run).stepTimings = run.stepTimings ∧
        (run.stepTimings.lookup name).bind statusOf = some (.str StepStatus.failed.value)) ∨
      ∃ entry : StepAuditEntry, entry.seq = run.nextSeq ∧ entry.status = StepStatus.failed.value ∧
        (runner.failedRun exc run).stepTimings = Fields.set name entry.dump run.stepTimings := by
  rw [FlowRunner.failedRun, FlowRunner.recordUnhandledStep, blamed]
  dsimp only
  split
  · exact .inl ⟨rfl, ‹_›⟩
  · exact .inr ⟨_, rfl, rfl, rfl⟩

/-- The failure that ends a run at a step is blamed on this step. -/
theorem blamed_step {run : RunState} {exc : EngineException} {name : String}
    (phase : run.phase = .step) (step : run.currentStepName = some name)
    (blames : Blames name run (.engine exc)) : (run.failureForStep exc).step = some name := by
  cases blames with
  | itself plain _ =>
      rw [RunState.failureForStep.eq_def]
      cases exc with
      | handlerFailure _ _ => cases plain
      | _ =>
          cases run.activeEpisode with
          | some _ => simp [step]
          | none => simp [RunState.failedStep, phase, step]
  | handler active =>
      rw [RunState.failureForStep.eq_def]
      simp

/-- A failure behind the last step is blamed on no step. -/
theorem blamed_none {run : RunState} {exc : EngineException} (phase : run.phase = .result)
    (calm : run.activeEpisode = none) (ordinary : Ordinary exc) :
    (run.failureForStep exc).step = none := by
  rw [RunState.failureForStep.eq_def, calm]
  cases exc with
  | handlerFailure _ _ => cases ordinary
  | _ => simp [RunState.failedStep, phase]

/-- The records at the end of a failed run. -/
structure FailedInOrder (runner : FlowRunner σ) (visits : List Visited) (q : Position σ)
    (exc : EngineException) (run : RunState) : Prop where
  within : run.phase = .step → AuditOrder (⟨q.name, q.seq, .failed⟩ :: visits)
    (runner.failedRun exc run).stepTimings (q.seq + 1)
  behind : run.phase ≠ .step → AuditOrder visits (runner.failedRun exc run).stepTimings q.seq

theorem failedInOrder (exclusive : runner.config.Exclusive) {q : Position σ}
    (order : AuditOrder visits q.machine.run.stepTimings q.seq) (unfailed : q.Unfailed)
    {exc : EngineException} {m : Machine σ} (h : runner.turn q = .ended (.failed exc m)) :
    FailedInOrder runner visits q exc m.run := by
  cases pass_fails exclusive (pass_of_failed h) with
  | finishing phase calm timings ordinary =>
      have blamed := blamed_none phase calm ordinary
      refine ⟨fun inside => ?_, fun _ => ?_⟩
      · rw [phase] at inside
        cases inside
      · rw [FlowRunner.failedRun, FlowRunner.recordUnhandledStep, blamed, timings]
        exact order
  | visiting visiting blames =>
      refine ⟨fun _ => ?_, fun outside => absurd visiting.phase outside⟩
      have blamed := blamed_step visiting.phase visiting.step blames
      rcases failedRun_timings runner blamed
        with ⟨same, failed⟩ | ⟨entry, hseq, hstatus, timings⟩
      · rcases visiting.own with own | ⟨entry, hseq, own⟩
        · rw [own] at failed
          exact absurd failed unfailed
        · have hstatus : entry.status = StepStatus.failed.value := by
            rw [own] at failed
            have : some (JsonValue.str entry.status) = some (.str StepStatus.failed.value) := failed
            simpa using this
          refine order.record (tells_dump entry _ _ _ hseq hstatus) (by rw [same, own]) ?_
          intro other hne
          rw [same, visiting.others other hne]
          rfl
      · rw [visiting.nextSeq] at hseq
        refine order.record (tells_dump entry _ _ _ hseq hstatus) ?_ ?_
        · rw [timings, lookup_set_self]
        · intro other hne
          rw [timings, lookup_set_ne hne, visiting.others other hne]
          rfl

theorem finish_steps {reason : Option String} {record : AuditRecord} {m m' : Machine σ}
    (h : runner.finish reason m = .ok record m') : record.steps = m.run.stepTimings := by
  rw [FlowRunner.finish] at h
  obtain ⟨_, m₁, hmodified, h₁⟩ := bind_eq_ok h
  obtain rfl := modifyRun_eq_ok hmodified
  obtain ⟨completed, m₂, hnow, h₂⟩ := bind_eq_ok h₁
  have same := (KeepsRun.now runner).of_ok hnow
  obtain ⟨_, m₃, hmodified, h₃⟩ := bind_eq_ok h₂
  obtain rfl := modifyRun_eq_ok hmodified
  obtain ⟨run, m₄, hrun, h₄⟩ := bind_eq_ok h₃
  obtain ⟨rfl, rfl⟩ := getRun_eq_ok hrun
  obtain ⟨result, m₅, -, h₅⟩ := bind_eq_ok h₄
  obtain ⟨_, m₆, -, h₆⟩ := bind_eq_ok h₅
  obtain ⟨_, m₇, -, h₇⟩ := bind_eq_ok h₆
  obtain ⟨rfl, -⟩ := returns_eq_ok h₇
  show m₂.run.stepTimings = m.run.stepTimings
  rw [same]

/-- A run that completes shows the records it had at its last position. -/
theorem completed_steps (exclusive : runner.config.Exclusive) {q : Position σ}
    {record : AuditRecord} {m : Machine σ} (h : runner.turn q = .ended (.completed record m)) :
    record.steps = q.machine.run.stepTimings := by
  have hpass := pass_of_completed h
  rw [FlowRunner.pass] at hpass
  obtain ⟨move, m₁, hvisit, h₁⟩ := bind_eq_ok hpass
  have spec := visitStep_spec runner exclusive q.name q.seq q.loop q.machine.run q.machine rfl
  rw [hvisit] at spec
  obtain ⟨step, -, ends⟩ := spec
  cases ends with
  | terminal _ same =>
      obtain ⟨record', m₂, hfinish, h₂⟩ := bind_eq_ok h₁
      obtain ⟨hrecord, -⟩ := returns_eq_ok h₂
      rw [Sum.inr.inj hrecord, finish_steps hfinish, same]
      rfl
  | moved =>
      rename_i target _ _
      obtain ⟨_, m₂, -, h₂⟩ := bind_eq_ok h₁
      cases hnext : truthy target with
      | none =>
          simp only [hnext] at h₂
          cases h₂
      | some next =>
          simp only [hnext] at h₂
          cases h₂

/-- The records of a run are in the order of its visits: at every position, at its completion,
and at its failure unless the failing step has a record of an earlier failure. -/
theorem audit_in_order (runner : FlowRunner σ)
    (accepted : Accepted runner.platform.parse runner.limits runner.config) {start q : Position σ}
    {requestId : String} {globals : JsonObject} {world : σ}
    (hbegin : runner.begin requestId globals world = .advance start)
    {trail : List (Position σ)} (walk : Walk runner start trail q) :
    (∃ visits, VisitsTo runner start visits q) ∧ ∀ visits, VisitsTo runner start visits q →
      AuditOrder visits q.machine.run.stepTimings q.seq ∧
      DistinctNumbers q.machine.run.stepTimings q.seq ∧
      (∀ record m, runner.turn q = .ended (.completed record m) →
        AuditOrder visits record.steps q.seq) ∧
      ∀ exc m, runner.turn q = .ended (.failed exc m) → isCancellation exc = false → q.Unfailed →
        FailedInOrder runner visits q exc m.run ∧
          DistinctNumbers (runner.failedRun exc m.run).stepTimings (q.seq + 1) := by
  have exclusive := accepted.model.exclusive_config
  refine ⟨exists_visitsTo exclusive walk, fun visits visited => ?_⟩
  have order := auditOrder_of_visitsTo exclusive (begin_fresh hbegin).1 visited
  refine ⟨order, order.distinctNumbers, fun record m h => ?_, fun exc m h _ unfailed => ?_⟩
  · rw [completed_steps exclusive h]
    exact order
  · have final := failedInOrder exclusive order unfailed h
    refine ⟨final, ?_⟩
    by_cases phase : m.run.phase = .step
    · exact (final.within phase).distinctNumbers
    · have numbers := (final.behind phase).distinctNumbers
      refine ⟨numbers.distinct, fun name entry hentry => ?_⟩
      obtain ⟨seq, hseq, below⟩ := numbers.below name entry hentry
      exact ⟨seq, hseq, Nat.lt_succ_of_lt below⟩

end Visits

/-! ## A failure that is not recorded -/

/-- The second step fails, its handler leads back, and the second time its input has gone. -/
def rereadWorkflow : WorkflowConfig where
  workflow := "reread"
  steps := [("work", { target := .service "worker" "work" })]
  flow := [
    { name := "first", op := some "work", thenStep := some "second" },
    { name := "second", op := some "work", thenStep := some "done", onFailure := some "again"
      input := some (.reference { value := "first.ready", root := "first", path := [.key "ready"] }) },
    { name := "again", op := some "work", thenStep := some "first" },
    { name := "done", terminal := true }]

/-- The results of the services of `rereadWorkflow`: a failure, and later a null. -/
def rereadScript : Script :=
  [.ok (.obj [("ready", .bool true)]), .error externalFailure, .ok .null, .ok .null]

/-- Where a run fails, and whether the record of a step then has this number. -/
def FlowRunner.failedNumber (self : FlowRunner σ) (name : String) (number : Nat)
    (p : Position σ) : Option (String × Nat × Bool × Bool × Bool) :=
  match self.turn p with
  | .ended (.failed exc m) => some (p.name, p.seq, isCancellation exc, m.run.phase == .step,
      (((self.failedRun exc m.run).stepTimings.lookup name).bind fun entry =>
        entry.lookup "seq") == some (.int number))
  | _ => none

/-- The second visit of `second` fails, and its record still tells of the first one. -/
theorem stale_failure_kept :
    Accepted plainPlatform.parse {} rereadWorkflow ∧
      ∃ start trail q exc m, (scriptedRunner rereadWorkflow).begin "request" [] rereadScript =
          .advance start
        ∧ Walk (scriptedRunner rereadWorkflow) start trail q
        ∧ (scriptedRunner rereadWorkflow).turn q = .ended (.failed exc m)
        ∧ isCancellation exc = false
        ∧ ∀ visits, ¬ FailedInOrder (scriptedRunner rereadWorkflow) visits q exc m.run := by
  refine ⟨by decide +kernel, ?_⟩
  have hreached : ((scriptedRunner rereadWorkflow).walked 4 "request" [] rereadScript).map
      (fun reached => (scriptedRunner rereadWorkflow).failedNumber "second" 1 reached.1) =
        some (some ("second", 4, false, true, true)) := by
    decide +kernel
  obtain ⟨reached, hwalked, hends⟩ := Option.map_eq_some_iff.mp hreached
  obtain ⟨start, hbegin, walk⟩ := walk_of_walked hwalked
  rw [FlowRunner.failedNumber.eq_def] at hends
  cases hturn : (scriptedRunner rereadWorkflow).turn reached.1 with
  | advance next => simp [hturn] at hends
  | rollover next => simp [hturn] at hends
  | ended ending =>
      cases ending with
      | completed record m => simp [hturn] at hends
      | failed exc m =>
          simp only [hturn, Option.some.injEq, Prod.mk.injEq, beq_iff_eq] at hends
          obtain ⟨hname, hseq, hkind, hphase, hnumber⟩ := hends
          refine ⟨start, _, _, exc, m, hbegin, walk, hturn, hkind, fun visits ordered => ?_⟩
          have latest := (ordered.within (by simpa using hphase)).latest "second"
          rw [latestVisit, hname, List.find?_cons_of_pos (by simp)] at latest
          cases hrecord : ((scriptedRunner rereadWorkflow).failedRun exc m.run).stepTimings.lookup
              "second" with
          | none => simp [hrecord] at hnumber
          | some entry =>
              rw [hrecord] at latest
              cases latest with
              | some tells =>
                  have htells := tells.1
                  rw [hrecord, Option.bind_some] at hnumber
                  rw [hnumber, hseq] at htells
                  simp at htells

/-- Where the second step fails only once, the records are in order. -/
theorem audit_in_order_recover :
    ∃ start trail q exc m, (scriptedRunner recoverWorkflow).begin "request" []
        [.error externalFailure, .error externalFailure] = .advance start
      ∧ Walk (scriptedRunner recoverWorkflow) start trail q
      ∧ (scriptedRunner recoverWorkflow).turn q = .ended (.failed exc m)
      ∧ ∃ visits, VisitsTo (scriptedRunner recoverWorkflow) start visits q
        ∧ FailedInOrder (scriptedRunner recoverWorkflow) visits q exc m.run := by
  have hreached : ((scriptedRunner recoverWorkflow).walked 1 "request" []
      [.error externalFailure, .error externalFailure]).map (fun reached =>
        (reached.1.name, (reached.1.machine.run.stepTimings.lookup "repair").isNone,
          ((scriptedRunner recoverWorkflow).failedNumber "repair" 1 reached.1).map
            fun number => number.2.2.1)) = some ("repair", true, some false) := by
    decide +kernel
  obtain ⟨reached, hwalked, hends⟩ := Option.map_eq_some_iff.mp hreached
  obtain ⟨start, hbegin, walk⟩ := walk_of_walked hwalked
  simp only [Prod.mk.injEq, Option.isNone_iff_eq_none] at hends
  obtain ⟨hname, hfresh, hends⟩ := hends
  obtain ⟨⟨visits, visited⟩, ordered⟩ := audit_in_order (scriptedRunner recoverWorkflow)
    (by decide +kernel) hbegin walk
  have unfailed : reached.1.Unfailed := by
    rw [Position.Unfailed, hname, hfresh]
    simp
  rw [FlowRunner.failedNumber.eq_def] at hends
  cases hturn : (scriptedRunner recoverWorkflow).turn reached.1 with
  | advance next => simp [hturn] at hends
  | rollover next => simp [hturn] at hends
  | ended ending =>
      cases ending with
      | completed record m => simp [hturn] at hends
      | failed exc m =>
          simp only [hturn, Option.map_some, Option.some.injEq] at hends
          exact ⟨start, _, _, exc, m, hbegin, walk, hturn, visits, visited,
            ((ordered visits visited).2.2.2 exc m hturn hends unfailed).1⟩

end Justflow
