import Justflow.Starts.Dispatch
import Justflow.Library.Programs

/-!
# A failed dispatch

A scheduled start fails with its dispatch exhausted when each of its attempts was rejected for
certain.  `Turned` says in terms of the answers of Temporal alone which starts the starter takes
for rejected.  One of these answers comes after the start was accepted: the run identity is missing
and its description fails.
-/

namespace Justflow

open Program

/-! ## Which starts count as rejected -/

namespace WorkflowStarter

variable (self : WorkflowStarter)

/-- The answers after which a start counts as rejected for certain. -/
def Turned (world : StartWorld) : Prop :=
  match world.checked with
  | .error error => error.requestCertainty = .authoritativeRejection
  | .ok () =>
      match self.lastCall world with
      | .returned runId => runId = none ∧ world.described = none
      | .alreadyStarted _ =>
          ∃ result, world.existing = .found result ∧ result.scopeDigest ≠ self.scopeDigest
      | .rpcError error _ => error.status ∈ authoritativeStartRejectionStatuses
      | .otherError _ => False

variable {self} {world : StartWorld}

/-- A start that raises an error which counts as a rejection. -/
def RaisesRejection (result : Except WorkflowStartError StartWorkflowResult) : Prop :=
  ∃ error, result = .error error ∧ error.requestCertainty = .authoritativeRejection

theorem existingResult_rejection :
    RaisesRejection (self.existingResult world) ↔
      ∃ result, world.existing = .found result ∧ result.scopeDigest ≠ self.scopeDigest := by
  rw [existingResult, lookupExistingResult]
  cases world.existing with
  | otherError => simp [RaisesRejection]
  | rpcError error =>
      by_cases missing : error.status = .notFound
      · simp [RaisesRejection, missing, throw, throwThe, MonadExceptOf.throw]
      · simp [RaisesRejection, missing]
  | found result =>
      by_cases foreign : result.scopeDigest = self.scopeDigest
      · simp [RaisesRejection, foreign]
      · simp [RaisesRejection, foreign]

theorem startAcceptedApi_rejection {target : ScheduledStartResolvedTarget} {workflowId : String} :
    RaisesRejection (self.startAcceptedApi world target workflowId) ↔ self.Turned world := by
  rw [startAcceptedApi, Turned]
  cases world.checked with
  | error error => simp [RaisesRejection]
  | ok _ =>
      simp only [ok_bind]
      cases self.lastCall world with
      | alreadyStarted runId => exact existingResult_rejection
      | otherError accepted => simp [RaisesRejection, notAccepted, throw, throwThe, MonadExceptOf.throw]
      | rpcError error accepted =>
          by_cases certain : error.status ∈ authoritativeStartRejectionStatuses
          · simp [RaisesRejection, notAccepted, certain, throw, throwThe, MonadExceptOf.throw]
          · simp [RaisesRejection, notAccepted, certain, throw, throwThe, MonadExceptOf.throw]
      | returned runId =>
          cases runId with
          | some runId => simp [RaisesRejection, resolveRunId]
          | none =>
              cases hdescribed : world.described with
              | some runId => simp [RaisesRejection, resolveRunId, hdescribed]
              | none => simp [RaisesRejection, resolveRunId, hdescribed]

end WorkflowStarter

namespace ScheduledStartService

variable {service : ScheduledStartService} {target : ScheduledStartResolvedTarget}
  {record : DispatchingScheduledStartRecord}

def Scoped (service : ScheduledStartService) (record : ScheduledStartRecordBase) : Prop :=
  record.scopeDigest = service.scope.digest service.hashing

/-- An attempt that the workflow hears was rejected. -/
def Refused (service : ScheduledStartService) (world : AttemptWorld) : Prop :=
  world.reported = true ∧ service.starter.Turned world.start

theorem requireRecordScope_of_own {base : ScheduledStartRecordBase} (own : service.Scoped base) :
    service.requireRecordScope base = .ok () := by
  rw [requireRecordScope, if_neg]
  exact not_not_intro own

theorem attemptResult_rejected_iff {result : Except WorkflowStartError StartWorkflowResult} :
    attemptResult result = .rejected ↔ WorkflowStarter.RaisesRejection result := by
  cases result with
  | ok result => simp [attemptResult, WorkflowStarter.RaisesRejection]
  | error error => simp [attemptResult, WorkflowStarter.RaisesRejection]

theorem attempt_rejected_iff {world : AttemptWorld}
    (own : service.Scoped record.toScheduledStartRecordBase) :
    service.attempt target record world = .rejected ↔ service.Refused world := by
  rw [attempt, attemptDispatch, requireRecordScope_of_own own, ok_bind, Refused]
  cases world.reported with
  | false => simp
  | true =>
      simp only [pure_eq_ok, true_and]
      rw [attemptResult_rejected_iff, WorkflowStarter.startAcceptedApi_rejection]

end ScheduledStartService

/-! ## One round -/

/-- The scheduled start ends failed. -/
def ScheduledStartProjectionRecord.isFailed : ScheduledStartProjectionRecord → Bool
  | .failed _ => true
  | _ => false

theorem terminalInput_projection {projection : ScheduledStartProjectionRecord} {version : Nat}
    {winner : ScheduledStartArbiterCommandKind} {digest : Option Digest}
    {terminal : ScheduledStartArbiterTerminalInput}
    (h : terminalInput projection version winner digest = .ok terminal) :
    terminal.projection = projection := by
  rw [terminalInput] at h
  split at h
  · cases h
    rfl
  · cases h

namespace ScheduledStartService

variable {service : ScheduledStartService} {target : ScheduledStartResolvedTarget}
  {record : DispatchingScheduledStartRecord} {next : ScheduledStartArbiterInput}

theorem startedInput_ok {run : ScheduledStartRun} {completedAt : Nat}
    (h : service.startedInput record run completedAt = .ok next) :
    ∃ terminal, next = .terminal terminal ∧ terminal.projection.isFailed = false := by
  obtain ⟨started, -, h⟩ := exists_of_bind_eq_ok h
  obtain ⟨terminal, hterminal, h⟩ := exists_of_bind_eq_ok h
  cases h
  exact ⟨terminal, rfl, by rw [terminalInput_projection hterminal]; rfl⟩

theorem exhaustedInput_ok {completedAt : Nat}
    (h : service.exhaustedInput record completedAt = .ok next) :
    ∃ terminal, next = .terminal terminal ∧ terminal.projection.isFailed = true := by
  obtain ⟨failed, -, h⟩ := exists_of_bind_eq_ok h
  obtain ⟨terminal, hterminal, h⟩ := exists_of_bind_eq_ok h
  cases h
  exact ⟨terminal, rfl, by rw [terminalInput_projection hterminal]; rfl⟩

/-- What a round says about the attempts it made. -/
inductive RoundEnd (service : ScheduledStartService) (record : DispatchingScheduledStartRecord)
    (sawAmbiguous : Bool) (made : List AttemptWorld) : ScheduledStartArbiterInput → Prop where
  | unsettled {progress : ScheduledStartArbiterResolvedDueInput}
      (same : progress.record = record)
      (certain : progress.sawAmbiguous = false ↔
        sawAmbiguous = false ∧ ∀ world ∈ made, service.Refused world) :
      RoundEnd service record sawAmbiguous made (.resolvedDue progress)
  | exhausted {terminal : ScheduledStartArbiterTerminalInput}
      (failed : terminal.projection.isFailed = true) (certain : sawAmbiguous = false)
      (refused : ∀ world ∈ made, service.Refused world) :
      RoundEnd service record sawAmbiguous made (.terminal terminal)
  | started {terminal : ScheduledStartArbiterTerminalInput}
      (ended : terminal.projection.isFailed = false)
      (heard : ∃ world ∈ made, ¬ service.Refused world) :
      RoundEnd service record sawAmbiguous made (.terminal terminal)

/-- An attempt that was not refused comes first. -/
theorem RoundEnd.cons_heard {world : AttemptWorld} {made : List AttemptWorld} {sawAmbiguous : Bool}
    (heard : ¬ service.Refused world) (rest : RoundEnd service record true made next) :
    RoundEnd service record sawAmbiguous (world :: made) next := by
  cases rest with
  | unsettled same certain =>
      apply RoundEnd.unsettled same
      simpa [heard] using certain
  | exhausted failed certain refused => cases certain
  | started ended other => exact .started ended ⟨world, List.mem_cons_self, heard⟩

/-- An attempt that was refused comes first. -/
theorem RoundEnd.cons_refused {world : AttemptWorld} {made : List AttemptWorld} {sawAmbiguous : Bool}
    (refused : service.Refused world) (rest : RoundEnd service record sawAmbiguous made next) :
    RoundEnd service record sawAmbiguous (world :: made) next := by
  cases rest with
  | unsettled same certain =>
      apply RoundEnd.unsettled same
      simpa [refused] using certain
  | exhausted failed certain others =>
      apply RoundEnd.exhausted failed certain
      simpa [refused] using others
  | started ended heard =>
      obtain ⟨other, hother, heard⟩ := heard
      exact .started ended ⟨other, List.mem_cons_of_mem _ hother, heard⟩

theorem dispatchFrom_end {left rejections : Nat} {sawAmbiguous : Bool}
    {attempts rest : List AttemptWorld}
    (own : service.Scoped record.toScheduledStartRecordBase)
    (h : service.dispatchFrom target record left sawAmbiguous rejections attempts =
      .ok (some (next, rest))) :
    ∃ made, attempts = made ++ rest ∧ RoundEnd service record sawAmbiguous made next := by
  induction left generalizing sawAmbiguous rejections attempts with
  | zero =>
      cases h
      exact ⟨[], rfl, .unsettled rfl (by simp)⟩
  | succ left ih =>
      cases attempts with
      | nil => cases h
      | cons world attempts =>
          rw [dispatchFrom] at h
          have rejected := @attempt_rejected_iff service target record world own
          cases outcome : service.attempt target record world with
          | accepted status run =>
              rw [outcome] at h rejected
              obtain ⟨input, hinput, h⟩ := exists_of_bind_eq_ok h
              cases h
              obtain ⟨terminal, rfl, ended⟩ := startedInput_ok hinput
              refine ⟨[world], rfl, .started ended ⟨world, List.mem_cons_self, ?_⟩⟩
              intro refused
              cases rejected.mpr refused
          | ambiguous =>
              rw [outcome] at h rejected
              obtain ⟨made, rfl, ends⟩ := ih h
              refine ⟨world :: made, rfl, ends.cons_heard ?_⟩
              intro refused
              cases rejected.mpr refused
          | rejected =>
              have refused := rejected.mp outcome
              rw [outcome] at h
              simp only at h
              split at h
              · next last =>
                  obtain ⟨input, hinput, h⟩ := exists_of_bind_eq_ok h
                  cases h
                  obtain ⟨terminal, rfl, failed⟩ := exhaustedInput_ok hinput
                  exact ⟨[world], rfl, .exhausted failed last.1 (by simpa using refused)⟩
              · obtain ⟨made, rfl, ends⟩ := ih h
                exact ⟨world :: made, rfl, ends.cons_refused refused⟩

/-! ## The chain -/

theorem claimScheduledStart_scope {current : PendingScheduledStartRecord} {version claimedAt : Nat}
    (h : claimScheduledStart service.hashing (.pending current) version claimedAt =
      .ok (some record)) : record.scopeDigest = current.scopeDigest := by
  rw [claimScheduledStart] at h
  split at h
  · cases h
  · obtain ⟨base, hbase, h⟩ := exists_of_bind_eq_ok h
    cases h
    rw [ScheduledStartRecordBase.mutated, ScheduledStartRecordBase.transition] at hbase
    split at hbase
    · cases hbase
      rfl
    · cases hbase

theorem not_due_of_terminal {projection : ScheduledStartProjectionRecord} {version : Nat}
    {winner : ScheduledStartArbiterCommandKind} {digest : Option Digest}
    (h : (terminalInput projection version winner digest >>= fun terminal =>
      pure (ScheduledStartArbiterPreparation.projection terminal)) = .ok (.due record target)) :
    False := by
  obtain ⟨terminal, -, h⟩ := exists_of_bind_eq_ok h
  cases h

theorem prepareDue_due {world : PrepareWorld} {initial : ScheduledStartArbiterInitialInput}
    (h : service.prepareDue world initial = .ok (.due record target)) :
    record.scopeDigest = initial.record.scopeDigest := by
  obtain ⟨claimed, hclaimed, h⟩ := exists_of_bind_eq_ok h
  cases claimed with
  | none => cases h
  | some claimed =>
      simp only at h
      split at h
      · obtain ⟨failed, -, h⟩ := exists_of_bind_eq_ok h
        exact (not_due_of_terminal h).elim
      · cases h
        exact claimScheduledStart_scope hclaimed

/-- Only the due command leads to a dispatch. -/
theorem prepareArbiter_due {world : PrepareWorld} {initial : ScheduledStartArbiterInitialInput}
    (h : service.prepareArbiter world initial = .ok (.due record target)) :
    service.requireRecordScope initial.record.toScheduledStartRecordBase = .ok () ∧
      service.prepareDue world initial = .ok (.due record target) := by
  obtain ⟨_, hscope, h⟩ := exists_of_bind_eq_ok h
  refine ⟨hscope, ?_⟩
  split at h
  · cases h
  · split at h
    · obtain ⟨claimed, -, h⟩ := exists_of_bind_eq_ok h
      cases claimed with
      | none => cases h
      | some claimed =>
          obtain ⟨started, -, h⟩ := exists_of_bind_eq_ok h
          exact (not_due_of_terminal h).elim
    · rw [prepareCommand] at h
      split at h
      · obtain ⟨canceled, -, h⟩ := exists_of_bind_eq_ok h
        exact (not_due_of_terminal h).elim
      · obtain ⟨rescheduled, -, h⟩ := exists_of_bind_eq_ok h
        exact (not_due_of_terminal h).elim
      · exact h

theorem prepareArbiter_own {world : PrepareWorld} {initial : ScheduledStartArbiterInitialInput}
    (h : service.prepareArbiter world initial = .ok (.due record target)) :
    service.Scoped record.toScheduledStartRecordBase := by
  obtain ⟨hscope, hdue⟩ := prepareArbiter_due h
  have same := prepareDue_due hdue
  rw [requireRecordScope] at hscope
  split at hscope
  · cases hscope
  · next own => exact same.trans (not_not.mp own)

/-- What an arbiter knows between its rounds of the attempts it made. -/
structure Tallied (service : ScheduledStartService) (made : List AttemptWorld)
    (progress : ScheduledStartArbiterResolvedDueInput) : Prop where
  own : service.Scoped progress.record.toScheduledStartRecordBase
  certain : progress.sawAmbiguous = false ↔ ∀ world ∈ made, service.Refused world

variable {start : ScheduledStartArbiterInitialInput} {made : List AttemptWorld}

/-- What holds of every input of a chain and the attempts made before it. -/
def Settled (service : ScheduledStartService) (made : List AttemptWorld) :
    ScheduledStartArbiterInput → Prop
  | .initial _ => made = []
  | .resolvedDue progress => service.Tallied made progress
  | .terminal terminal =>
      made ≠ [] → (terminal.projection.isFailed = true ↔ ∀ world ∈ made, service.Refused world)

theorem Tallied.round {progress : ScheduledStartArbiterResolvedDueInput}
    {more : List AttemptWorld} (tallied : service.Tallied made progress)
    (ends : RoundEnd service progress.record progress.sawAmbiguous more next) :
    service.Settled (made ++ more) next := by
  cases ends with
  | unsettled same certain =>
      constructor
      · rw [same]
        exact tallied.own
      · rw [certain, tallied.certain, List.forall_mem_append]
  | exhausted failed certain refused =>
      intro _
      rw [List.forall_mem_append]
      exact iff_of_true failed ⟨tallied.certain.mp certain, refused⟩
  | started ended heard =>
      intro _
      obtain ⟨world, hworld, heard⟩ := heard
      apply iff_of_false
      · simp [ended]
      · intro refused
        exact heard (refused world (List.mem_append_right _ hworld))

theorem Chains.settled (chain : service.Chains start made next) : service.Settled made next := by
  induction chain with
  | initial => rfl
  | due prepared => exact ⟨prepareArbiter_own prepared, by simp⟩
  | projection prepared =>
      intro attempted
      exact absurd rfl attempted
  | round before dispatched ih =>
      obtain ⟨more, hmore, ends⟩ := dispatchFrom_end ih.own dispatched
      rw [List.append_nil] at hmore
      rw [hmore]
      exact ih.round ends

end ScheduledStartService

/-! ## A reminder whose start is accepted -/

def remindingService : ScheduledStartService where
  hashing := lengthHash
  scope := acmeScope
  starter := ⟨⟨"worker", "build", "orders"⟩, 0, (acmeScope.digest lengthHash).text⟩

def reminder : PendingScheduledStartRecord where
  scheduledStartId := "reminder"
  scopeDigest := acmeScope.digest lengthHash
  workflowName := "remind"
  input := []
  businessRequestId := "request"
  startAt := 20
  workloadClass := .standard
  triggerName := "api"
  createRequestDigest := Digest.ofNat 0
  version := 1
  acceptedAt := 10
  updatedAt := 10
  lastMutationKind := .create
  lastMutationDigest := Digest.ofNat 0
  dispatchTimeoutSeconds := 30
  dispatchAttempts := 1
  versioned := by decide
  timed := by decide
  attempted := by decide
  ordered := by decide

def reminderTarget : ScheduledStartResolvedTarget :=
  ⟨"definition", .null, "environment", none, none⟩

def reminderDue : ScheduledStartArbiterInitialInput :=
  ⟨reminder, .due 20, rfl⟩

def preparedReminder : ScheduledStartService.PrepareWorld :=
  ⟨.pending reminder, none, .ok reminderTarget, 20⟩

/-- One attempt, whose first request is answered so. -/
def answered (call : StartCall) (described : Option String) : ScheduledStartService.AttemptWorld where
  start := ⟨.ok (), fun _ => call, described, .otherError⟩
  reported := true
  now := 25

def dispatchingReminder : DispatchingScheduledStartRecord :=
  { reminder with
    updatedAt := 20
    lastMutationKind := .dispatch
    lastMutationDigest := scheduledStartRequestDigest lengthHash
      [.str "dispatch", .str "reminder", .int 1]
    ordered := by decide
    claimedVersion := 1
    dispatchStartedAt := 20 }

namespace ScheduledStartService

theorem prepared_reminder : remindingService.prepareArbiter preparedReminder reminderDue =
    .ok (.due dispatchingReminder reminderTarget) := by
  have own : remindingService.Scoped reminderDue.record.toScheduledStartRecordBase := rfl
  have current : ¬ preparedReminder.current ≠ .pending reminderDue.record := not_not_intro rfl
  rw [prepareArbiter, requireRecordScope_of_own own, ok_bind, if_neg current]
  rfl

/-- An only attempt that counts as rejected exhausts the dispatch. -/
theorem reminder_exhausted {world : AttemptWorld} (refused : remindingService.Refused world)
    (later : 10 ≤ world.now) :
    ∃ terminal, remindingService.Chains reminderDue [world] (.terminal terminal) ∧
      terminal.projection.isFailed = true := by
  have rejected := (@attempt_rejected_iff remindingService reminderTarget dispatchingReminder world
    (prepareArbiter_own prepared_reminder)).mpr refused
  have exhausted : ∃ next,
      remindingService.exhaustedInput dispatchingReminder world.now = .ok next := by
    have valid : 1 ≤ dispatchingReminder.version ∧ dispatchingReminder.acceptedAt ≤ world.now :=
      ⟨by decide, later⟩
    rw [exhaustedInput, failScheduledStart, ScheduledStartRecordBase.mutated,
      ScheduledStartRecordBase.transition, dif_pos valid]
    exact ⟨_, rfl⟩
  obtain ⟨next, hnext⟩ := exhausted
  obtain ⟨terminal, rfl, failed⟩ := exhaustedInput_ok hnext
  refine ⟨terminal, ?_, failed⟩
  apply Chains.round (.due prepared_reminder)
  have attempts : dispatchingReminder.dispatchAttempts = 1 := rfl
  simp [dispatch, dispatchFrom, attempts, rejected, hnext]

end ScheduledStartService

end Justflow
