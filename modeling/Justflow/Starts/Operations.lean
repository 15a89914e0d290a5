import Justflow.Starts.Service

/-!
# Operations on a scheduled start

Each operation of the service as a process: create, describe, cancel and reschedule, the due
claim, the activities of an arbiter and the cleanup of one schedule.  Metrics, decisions and
priorities are left out.
-/

open Process

namespace Justflow

structure ScheduledStartSettings where
  clockSkewSeconds : Nat := 30
  maxHorizonSeconds : Nat := 31536000
  dispatchTimeoutSeconds : Nat := 30
  dispatchAttempts : Nat := 3
  terminalRetentionSeconds : Nat := 604800
  timed : 1 ≤ dispatchTimeoutSeconds := by decide
  attempted : 1 ≤ dispatchAttempts := by decide

/-- The business request that a scheduled start is made for. -/
structure StartIdentity where
  workflowName : String
  businessRequestId : String

structure ScheduledStartCreateRequest where
  startAt : Nat
  workloadClass : ScheduledStartWorkloadClass := .standard

abbrev StartsProcess := Process StartsReply StartsFailure

def raiseStart {α : Type} (code : ScheduledStartErrorCode) (message : String) (retryable : Bool) :
    StartsProcess α :=
  throw (.raised (.refused ⟨code, message, retryable⟩))

/-- One request to Temporal or the host. -/
def temporal (asked : StartsRequest) : StartsProcess (StartsReply asked) :=
  Process.call asked

/-- A pure step of the service. -/
def settle {α : Type} (result : Except ScheduledStartException α) : StartsProcess α :=
  Process.lift (result.mapError .raised)

namespace ScheduledStartService

variable (service : ScheduledStartService) (settings : ScheduledStartSettings)
  (identity : StartIdentity)

/-! ## Identities -/

def scheduledStartId : String :=
  service.hashing.scopedIdentity "scheduled-start" (service.scope.digest service.hashing)
    [identity.workflowName, identity.businessRequestId]

/-- `make_scheduled_start_arbiter_id`. -/
def arbiterId (version : Nat) : String :=
  service.hashing.scopedIdentity "scheduled-start-arbiter" (service.scope.digest service.hashing)
    [service.scheduledStartId identity, toString version]

/-! ## Reading -/

/-- `_describe_record`. -/
def describeRecord : StartsProcess ScheduledStartProjectionRecord := do
  match ← temporal .describeSchedule with
  | .ok record => return record
  | .notFound => raiseStart .notFound "Scheduled start does not exist" false
  | .failed => raiseStart .temporalUnavailable "Temporal could not describe the scheduled start" true

/-- `_existing_record`. -/
def existingRecord : StartsProcess (Option ScheduledStartProjectionRecord) := do
  match ← temporal .describeSchedule with
  | .ok record => return some record
  | .notFound => return none
  | .failed => raiseStart .temporalUnavailable "Temporal could not describe the scheduled start" true

def projectDue (record : PendingScheduledStartRecord) (startTime : Nat) :
    StartsProcess ScheduledStartDescription := do
  match ← settle (claimScheduledStart service.hashing (.pending record) record.version
      (max record.updatedAt startTime)) with
  | some claimed => return claimed.describe
  | none => throw (.raised .validation)

/-- `_authoritative_description`: a pending record defers to the arbiter of its version. -/
def authoritativeDescription (record : PendingScheduledStartRecord) :
    StartsProcess ScheduledStartDescription := do
  let workflowId := service.arbiterId identity record.version
  let described := ScheduledStartProjectionRecord.describe (.pending record)
  match ← temporal (.describeArbiter workflowId) with
  | .notFound => return described
  | .failed =>
      raiseStart .temporalUnavailable
        "Temporal could not read scheduled-start arbitration state" true
  | .ok view =>
      if view.running then
        if view.winner ≠ .due then return described
        else service.projectDue record view.startTime
      else
        match ← temporal (.arbiterResult workflowId) with
        | none =>
            raiseStart .temporalUnavailable
              "Temporal could not read the scheduled-start arbitration result" true
        | some (.applied _ _ _ scheduledStart) => return scheduledStart
        | some (.stale _ current) => return current

/-- `describe`. -/
def describe : StartsProcess ScheduledStartDescription := do
  match ← describeRecord with
  | .pending record => service.authoritativeDescription identity record
  | record => return record.describe

/-! ## Creating -/

def validateDueTime (startAt now : Nat) : Except ScheduledStartException Unit :=
  if startAt + settings.clockSkewSeconds < now ∨ now + settings.maxHorizonSeconds < startAt then
    .error (.refused ⟨.invalidRequest,
      "Scheduled-start due time is outside the configured window", false⟩)
  else .ok ()

/-- `create_scheduled_start_record`. -/
def createRecord (request : ScheduledStartCreateRequest) (requestDigest : Digest)
    (acceptedAt : Nat) (admitted : Admission) : PendingScheduledStartRecord where
  scheduledStartId := service.scheduledStartId identity
  scopeDigest := service.scope.digest service.hashing
  workflowName := identity.workflowName
  input := admitted.normalizedInput
  businessRequestId := identity.businessRequestId
  startAt := request.startAt
  workloadClass := request.workloadClass
  triggerName := admitted.triggerName
  createRequestDigest := requestDigest
  version := 1
  acceptedAt := acceptedAt
  updatedAt := acceptedAt
  lastMutationKind := .create
  lastMutationDigest := requestDigest
  dispatchTimeoutSeconds := settings.dispatchTimeoutSeconds
  dispatchAttempts := settings.dispatchAttempts
  versioned := le_refl 1
  timed := settings.timed
  attempted := settings.attempted
  ordered := le_refl acceptedAt

def identityBound : StartsFailure :=
  .raised (.refused ⟨.conflict, "Scheduled-start identity is already bound to another request",
    false⟩)

/-- The schedule is created, or was there for the same request: `true`. -/
def createSchedule (record : PendingScheduledStartRecord) (requestDigest : Digest) :
    StartsProcess Bool := do
  match ← temporal (.createSchedule record) with
  | .created => return false
  | .alreadyRunning =>
      let existing ← describeRecord
      if existing.base.createRequestDigest ≠ requestDigest then throw identityBound
      return true
  | .invalidArgument =>
      raiseStart .priorityUnsupported
        "Temporal target does not support the configured workload priority" false
  | .failed => raiseStart .temporalUnavailable "Temporal did not accept the scheduled start" true

/-- `create`, for the digest of the request and its idempotency key. -/
def create (request : ScheduledStartCreateRequest) (requestDigest : Digest) :
    StartsProcess ScheduledStartMutationResult := do
  match ← existingRecord with
  | some existing =>
      if existing.base.createRequestDigest ≠ requestDigest then throw identityBound
      return ⟨.duplicate, existing.describe, none⟩
  | none =>
      let now ← temporal .clock
      settle (validateDueTime settings request.startAt now)
      let admitted ← settle (← temporal .admission)
      let duplicate ← createSchedule
        (service.createRecord settings identity request requestDigest now admitted) requestDigest
      match ← temporal .describeSchedule with
      | .ok accepted =>
          return ⟨if duplicate then .duplicate else .accepted, accepted.describe, none⟩
      | _ =>
          raiseStart .temporalUnavailable
            "Temporal accepted the scheduled start but could not describe it" true

/-! ## Arbitrated commands -/

/-- `_start_arbiter`: `true` when the version has an arbiter already. -/
def startArbiter (initial : ScheduledStartArbiterInitialInput) : StartsProcess Bool := do
  match ← temporal (.startArbiter (service.arbiterId identity initial.record.version) initial) with
  | .started => return false
  | .alreadyStarted => return true
  | .failed =>
      raiseStart .temporalUnavailable
        "Temporal could not claim the scheduled-start version" true

/-- `_arbiter_identity`. -/
def arbiterIdentity (version : Nat) :
    StartsProcess (ScheduledStartArbiterCommandKind × Option Digest) := do
  match ← temporal (.describeArbiter (service.arbiterId identity version)) with
  | .ok view => return (view.winner, view.requestDigest)
  | _ =>
      raiseStart .temporalUnavailable
        "Temporal could not identify the scheduled-start winner" true

def consumedByAnother {α : Type} : StartsProcess α :=
  raiseStart .conflict "Another scheduled-start command consumed the expected version" false

def ScheduledStartArbiterResult.startedOrStale : ScheduledStartArbiterResult → Bool
  | .stale _ _ => true
  | .applied _ _ _ scheduledStart => scheduledStart.state = .started

def initialInput (record : PendingScheduledStartRecord) (command : ScheduledStartArbiterCommand) :
    Except ScheduledStartException ScheduledStartArbiterInitialInput :=
  if fits : command.Fits record then .ok ⟨record, command, fits⟩ else .error .validation

/-- `_run_mutation`. -/
def runMutation (initial : ScheduledStartArbiterInitialInput)
    (acceptedStatus : ScheduledStartMutationStatus) :
    StartsProcess ScheduledStartMutationResult := do
  let command := initial.command
  let duplicate ← service.startArbiter identity initial
  if duplicate then
    let (winner, requestDigest) ← service.arbiterIdentity identity initial.record.version
    if winner ≠ command.kind ∨ requestDigest ≠ command.requestDigest then consumedByAnother
  let expectedVersion := some initial.record.version
  match ← temporal (.arbiterResult (service.arbiterId identity initial.record.version)) with
  | none => return ⟨.inProgress, ScheduledStartProjectionRecord.describe (.pending initial.record),
      expectedVersion⟩
  | some (.stale _ _) => throw (.raised noLongerPending)
  | some (.applied _ winner _ scheduledStart) =>
      if scheduledStart.state = .started ∧ winner ≠ .due then
        raiseStart .conflict "Scheduled start already produced a workflow run" false
      if duplicate then
        let _ ← describeRecord
      return ⟨if duplicate then .duplicate else acceptedStatus, scheduledStart, expectedVersion⟩

/-- `_recover_mutation`. -/
def recoverMutation (record : ScheduledStartProjectionRecord) (expectedVersion : Nat)
    (kind : ScheduledStartArbiterCommandKind) (requestDigest : Digest) :
    StartsProcess (Option ScheduledStartMutationResult) := do
  let workflowId := service.arbiterId identity expectedVersion
  match ← temporal (.describeArbiter workflowId) with
  | .notFound => return none
  | .failed =>
      raiseStart .temporalUnavailable
        "Temporal could not identify the scheduled-start winner" true
  | .ok view =>
      if view.winner ≠ kind ∨ view.requestDigest ≠ some requestDigest then consumedByAnother
      match ← temporal (.arbiterResult workflowId) with
      | none => return some ⟨.inProgress, record.describe, some expectedVersion⟩
      | some (.stale _ _) => throw (.raised noLongerPending)
      | some (.applied _ _ _ scheduledStart) =>
          if scheduledStart.state = .started then throw (.raised noLongerPending)
          return some ⟨.duplicate, scheduledStart, some expectedVersion⟩

/-- `_require_pending_version`. -/
def requirePendingVersion (record : ScheduledStartProjectionRecord) (expectedVersion : Nat) :
    Except ScheduledStartException PendingScheduledStartRecord :=
  match record with
  | .pending pending =>
      if pending.version ≠ expectedVersion then .error noLongerPending else .ok pending
  | _ => .error noLongerPending

/-- The record already holds this cancellation. -/
def holdsCancel (expectedVersion : Nat) (requestDigest : Digest) :
    ScheduledStartProjectionRecord → Bool
  | .canceled record =>
      record.version = expectedVersion && record.lastMutationDigest = requestDigest
  | _ => false

/-- The record already holds this reschedule. -/
def holdsReschedule (expectedVersion : Nat) (requestDigest : Digest) :
    ScheduledStartProjectionRecord → Bool
  | .pending record => record.version = expectedVersion + 1 && record.lastMutationKind = .reschedule
      && record.lastMutationDigest = requestDigest
  | _ => false

/-- `cancel`, for the digest of the request and its idempotency key. -/
def cancel (expectedVersion : Nat) (requestDigest : Digest) :
    StartsProcess ScheduledStartMutationResult := do
  let record ← describeRecord
  if holdsCancel expectedVersion requestDigest record then
    return ⟨.duplicate, record.describe, some expectedVersion⟩
  match ← service.recoverMutation identity record expectedVersion .cancel requestDigest with
  | some recovered => return recovered
  | none =>
      let pending ← settle (requirePendingVersion record expectedVersion)
      let initial ← settle (initialInput pending (.cancel expectedVersion requestDigest))
      service.runMutation identity initial .canceled

/-- `reschedule`, for the digest of the request and its idempotency key. -/
def reschedule (expectedVersion startAt : Nat) (requestDigest : Digest) :
    StartsProcess ScheduledStartMutationResult := do
  let record ← describeRecord
  if holdsReschedule expectedVersion requestDigest record then
    return ⟨.duplicate, record.describe, some expectedVersion⟩
  match ← service.recoverMutation identity record expectedVersion .reschedule requestDigest with
  | some recovered => return recovered
  | none =>
      let now ← temporal .clock
      settle (validateDueTime settings startAt now)
      let pending ← settle (requirePendingVersion record expectedVersion)
      let initial ← settle
        (initialInput pending (.reschedule expectedVersion startAt requestDigest))
      service.runMutation identity initial .rescheduled

/-- `claim_due`. -/
def claimDue (actionRecord : PendingScheduledStartRecord) :
    StartsProcess ScheduledStartDueClaimResult := do
  settle (service.requireRecordScope actionRecord.toScheduledStartRecordBase)
  let current ← describeRecord
  if current ≠ .pending actionRecord then
    return .skipped current.describe
  let initial ← settle (initialInput actionRecord (.due actionRecord.startAt))
  let duplicate ← service.startArbiter identity initial
  if duplicate then
    let (winner, requestDigest) ← service.arbiterIdentity identity actionRecord.version
    if winner = .due ∧ requestDigest = none then return .claimed true
    return .skipped current.describe
  return .claimed false

/-- The claim activity, for the record of the action that fired. -/
def claim (record : ScheduledStartProjectionRecord) :
    StartsProcess ScheduledStartDueClaimResult :=
  match record with
  | .pending pending => service.claimDue identity pending
  | _ => pure (.skipped record.describe)

/-! ## The arbiter's activities -/

/-- `find_existing`. -/
def findExisting : StartsProcess (Option StartWorkflowResult) := do
  let existing ← temporal .existingRun
  Process.lift ((service.starter.lookupExistingResult
    { checked := .ok (), calls := fun _ => .returned none, described := none, existing }).mapError
      .start)

/-- `prepare_arbiter`, with the requests it makes. -/
def prepare (initial : ScheduledStartArbiterInitialInput) :
    StartsProcess ScheduledStartArbiterPreparation := do
  settle (service.requireRecordScope initial.record.toScheduledStartRecordBase)
  let current ← describeRecord
  if current ≠ .pending initial.record then
    return .stale current
  let existing ← service.findExisting
  let now ← temporal .clock
  let resolved ← temporal .activeTarget
  settle (service.prepareArbiter ⟨current, existing, resolved, now⟩ initial)

/-- The start requests of one attempt: repeated while the pinned route is missing. -/
def startCalls (target : ScheduledStartResolvedTarget) (workflowId : String) :
    Nat → StartsProcess StartCall
  | 0 => temporal (.startRun target workflowId)
  | left + 1 => do
      let answer ← temporal (.startRun target workflowId)
      if answer.missesRoute service.starter.route then startCalls target workflowId left
      else return answer

/-- `attempt_dispatch`, with the requests it makes. -/
def attemptRun (due : ScheduledStartArbiterResolvedDueInput) :
    StartsProcess ScheduledStartAttemptResult := do
  let workflowId := service.hashing.scopedIdentity "workflow"
    (service.scope.digest service.hashing) [due.record.workflowName, due.record.businessRequestId]
  settle (service.requireRecordScope due.record.toScheduledStartRecordBase)
  match ← temporal .checkedStart with
  | .error error => return attemptResult (.error error)
  | .ok () =>
      let answer ← service.startCalls due.target workflowId service.starter.furtherAttempts
      let described ← match answer with
        | .returned none => temporal .describeRun
        | _ => pure none
      let existing ← match answer with
        | .alreadyStarted _ => temporal .existingRun
        | _ => pure .otherError
      settle (service.attemptDispatch due.target due.record
        { checked := .ok (), calls := fun _ => answer, described, existing })

/-- One turn of the loop in `_dispatch`. -/
def afterAttempt (due : ScheduledStartArbiterResolvedDueInput) (made now : Nat) :
    ScheduledStartAttemptResult → Except ScheduledStartException ArbiterProgress
  | .accepted _ run => do
      let next ← service.startedInput due.record run now
      return ⟨next, made + 1⟩
  | .ambiguous => return ⟨.resolvedDue { due with sawAmbiguous := true }, made + 1⟩
  | .rejected =>
      if due.sawAmbiguous = false ∧
          due.authoritativeRejections + 1 ≥ due.record.dispatchAttempts then do
        let next ← service.exhaustedInput due.record now
        return ⟨next, made + 1⟩
      else return ⟨.resolvedDue
        { due with authoritativeRejections := due.authoritativeRejections + 1 }, made + 1⟩

/-- What the updater of `commit_arbiter` makes of the current record. -/
def committed (terminal : ScheduledStartArbiterTerminalInput)
    (current : ScheduledStartProjectionRecord) :
    Except ScheduledStartException (Option ScheduledStartProjectionRecord) :=
  match terminal.winner, terminal.projection with
  | .reschedule, .pending projection =>
      if current.base.version ≥ projection.version then .ok none
      else .ok (some terminal.projection)
  | _, projection =>
      if current = projection then .ok none
      else
        match current with
        | .pending pending =>
            if pending.version = terminal.consumedVersion then .ok (some projection)
            else .error (.refused ⟨.conflict,
              "Scheduled-start projection no longer belongs to this arbiter", false⟩)
        | _ => .error (.refused ⟨.conflict,
            "Scheduled-start projection no longer belongs to this arbiter", false⟩)

/-- The answers to the requests of an update. -/
def updated {α : Type} : RpcReply α → StartsProcess α
  | .ok value => pure value
  | .notFound => raiseStart .notFound "Scheduled start does not exist" false
  | .failed => raiseStart .temporalUnavailable "Temporal could not update the scheduled start" true

/-- `commit_arbiter`: describe, decide, update. -/
def commit (terminal : ScheduledStartArbiterTerminalInput) :
    StartsProcess ScheduledStartArbiterResult := do
  settle (service.requireRecordScope terminal.projection.base)
  let current ← updated (← temporal .describeSchedule)
  match ← settle (committed terminal current) with
  | none => pure ()
  | some projection => updated (← temporal (.updateSchedule projection))
  return .applied terminal.consumedVersion terminal.winner terminal.requestDigest
    terminal.projection.describe

/-- An attempt as its workflow sees it: an activity that failed is ambiguous. -/
def reportedAttempt (due : ScheduledStartArbiterResolvedDueInput) :
    StartsProcess ScheduledStartAttemptResult :=
  (service.attemptRun due).rescue fun _ => pure .ambiguous

/-- One activity of the arbiter of a version, and what its workflow makes of the result. -/
def work (version : Nat) : StartsProcess Unit := do
  let workflowId := service.arbiterId identity version
  match ← temporal (.arbiterProgress workflowId) with
  | none => return ()
  | some progress =>
      match progress.input with
      | .initial initial =>
          match ← service.prepare initial with
          | .stale current => temporal (.completeArbiter workflowId progress
              (.stale initial.record.version current.describe))
          | .projection terminal =>
              temporal (.advanceArbiter workflowId progress { input := .terminal terminal })
          | .due record target =>
              temporal (.advanceArbiter workflowId progress { input := .resolvedDue { record, target } })
      | .resolvedDue due =>
          let attempt ← service.reportedAttempt due
          let now ← temporal .clock
          let next ← settle (service.afterAttempt due progress.made now attempt)
          temporal (.advanceArbiter workflowId progress next)
      | .terminal terminal =>
          let result ← service.commit terminal
          temporal (.completeArbiter workflowId progress result)

/-! ## Cleanup -/

/-- `_deletable_terminal_record`, of a schedule whose identities are its record's. -/
def deletableTerminalRecord (now : Nat) : ScheduledStartProjectionRecord → Bool
  | .pending _ => false
  | .started record => record.completedAt + settings.terminalRetentionSeconds ≤ now
  | .canceled record => record.completedAt + settings.terminalRetentionSeconds ≤ now
  | .failed record => record.completedAt + settings.terminalRetentionSeconds ≤ now

/-- The cleanup of the schedule, on the page that lists it. -/
def cleanup : StartsProcess Bool := do
  let now ← temporal .clock
  match ← temporal .describeSchedule with
  | .notFound => return false
  | .failed => raiseStart .temporalUnavailable "Scheduled-start cleanup is unavailable" true
  | .ok record =>
      if deletableTerminalRecord settings now record then
        match ← temporal .deleteSchedule with
        | .failed => raiseStart .temporalUnavailable "Scheduled-start cleanup is unavailable" true
        | _ => return true
      else return false

/-! ## The system -/

inductive StartsCall where
  | create (request : ScheduledStartCreateRequest) (requestDigest : Digest)
  | describe
  | cancel (expectedVersion : Nat) (requestDigest : Digest)
  | reschedule (expectedVersion startAt : Nat) (requestDigest : Digest)
  | claim (record : ScheduledStartProjectionRecord)
  | work (version : Nat)
  | cleanup

def program : StartsCall → StartsProcess StartsResult
  | .create request requestDigest =>
      .mutation <$> service.create settings identity request requestDigest
  | .describe => .description <$> service.describe identity
  | .cancel expectedVersion requestDigest =>
      .mutation <$> service.cancel identity expectedVersion requestDigest
  | .reschedule expectedVersion startAt requestDigest =>
      .mutation <$> service.reschedule settings identity expectedVersion startAt requestDigest
  | .claim record => .claim <$> service.claim identity record
  | .work version => (fun _ => .worked) <$> service.work identity version
  | .cleanup => .cleaned <$> cleanup settings

/-- Any number of operations on one scheduled start, over what Temporal retains of it. -/
def starts : Service StartsReply StartsFailure StartsResult StartsWorld Circumstance Unit
    StartsCall Retention where
  respond := startsRespond (service.scope.digest service.hashing).text
  program _ := service.program settings identity
  elapse retention world := world.forget retention

end ScheduledStartService

end Justflow
