import Justflow.Starts.Starter

/-!
# The arbiter of a version

One workflow arbitrates each version of a scheduled start.  It prepares the command that won,
attempts the start of a due record, round after round, and commits a terminal projection; between
these it continues as new, so that its runs form a chain of inputs.
-/

namespace Justflow

/-! ## Inputs -/

inductive ScheduledStartArbiterCommand where
  | due (nominalTime : Nat)
  | cancel (expectedVersion : Nat) (requestDigest : Digest)
  | reschedule (expectedVersion startAt : Nat) (requestDigest : Digest)
  deriving DecidableEq

namespace ScheduledStartArbiterCommand

def kind : ScheduledStartArbiterCommand → ScheduledStartArbiterCommandKind
  | .due _ => .due
  | .cancel _ _ => .cancel
  | .reschedule _ _ _ => .reschedule

def requestDigest : ScheduledStartArbiterCommand → Option Digest
  | .due _ => none
  | .cancel _ digest => some digest
  | .reschedule _ _ digest => some digest

/-- `validate_command_version`. -/
def Fits (record : PendingScheduledStartRecord) : ScheduledStartArbiterCommand → Prop
  | .due nominalTime => nominalTime = record.startAt
  | .cancel expectedVersion _ => expectedVersion = record.version
  | .reschedule expectedVersion _ _ => expectedVersion = record.version

instance (record : PendingScheduledStartRecord) (command : ScheduledStartArbiterCommand) :
    Decidable (command.Fits record) := by
  cases command <;> exact inferInstanceAs (Decidable (_ = _))

end ScheduledStartArbiterCommand

structure ScheduledStartArbiterInitialInput where
  record : PendingScheduledStartRecord
  command : ScheduledStartArbiterCommand
  fits : command.Fits record
  deriving DecidableEq

structure ScheduledStartArbiterResolvedDueInput where
  record : DispatchingScheduledStartRecord
  target : ScheduledStartResolvedTarget
  sawAmbiguous : Bool := false
  authoritativeRejections : Nat := 0
  deriving DecidableEq

/-- The projections that a winner may leave, and their version. -/
def projectionFits (consumedVersion : Nat) :
    ScheduledStartArbiterCommandKind → ScheduledStartProjectionRecord → Bool
  | .due, .started record => record.version = consumedVersion
  | .due, .failed record => record.version = consumedVersion
  | .cancel, .canceled record => record.version = consumedVersion
  | .cancel, .started record => record.version = consumedVersion
  | .reschedule, .pending record => record.version = consumedVersion + 1
  | .reschedule, .started record => record.version = consumedVersion
  | _, _ => false

structure ScheduledStartArbiterTerminalInput where
  projection : ScheduledStartProjectionRecord
  consumedVersion : Nat
  winner : ScheduledStartArbiterCommandKind
  requestDigest : Option Digest
  projected : projectionFits consumedVersion winner projection = true
  digested : winner = .due ↔ requestDigest = none
  deriving DecidableEq

/-- A terminal input, validated. -/
def terminalInput (projection : ScheduledStartProjectionRecord) (consumedVersion : Nat)
    (winner : ScheduledStartArbiterCommandKind) (requestDigest : Option Digest) :
    Except ScheduledStartException ScheduledStartArbiterTerminalInput :=
  if h : projectionFits consumedVersion winner projection = true ∧
      (winner = .due ↔ requestDigest = none) then
    .ok ⟨projection, consumedVersion, winner, requestDigest, h.1, h.2⟩
  else .error .validation

inductive ScheduledStartArbiterInput where
  | initial (input : ScheduledStartArbiterInitialInput)
  | resolvedDue (input : ScheduledStartArbiterResolvedDueInput)
  | terminal (input : ScheduledStartArbiterTerminalInput)
  deriving DecidableEq

inductive ScheduledStartArbiterPreparation where
  | due (record : DispatchingScheduledStartRecord) (target : ScheduledStartResolvedTarget)
  | projection (terminal : ScheduledStartArbiterTerminalInput)
  | stale (current : ScheduledStartProjectionRecord)
  deriving DecidableEq

inductive ScheduledStartAttemptResult where
  | accepted (status : StartStatus) (run : ScheduledStartRun)
  | rejected
  | ambiguous
  deriving DecidableEq

structure ScheduledStartService where
  hashing : Hashing
  scope : RuntimeScope
  starter : WorkflowStarter

def StartWorkflowResult.toRun (self : StartWorkflowResult) : ScheduledStartRun :=
  ⟨self.workflowId, self.runId, self.definitionDigest, self.artifactIdentity,
    self.environmentSnapshotDigest, self.executionConfiguration⟩

def attemptResult : Except WorkflowStartError StartWorkflowResult → ScheduledStartAttemptResult
  | .error error =>
      if error.requestCertainty = .authoritativeRejection then .rejected else .ambiguous
  | .ok result => .accepted result.status result.toRun

def dispatchFailureCode (error : WorkflowStartError) : ScheduledStartFailureCode :=
  match error.code with
  | .inputRejected => .contractDrift
  | .incompatibleWorker => .incompatibleWorker
  | _ => .targetUnavailable

namespace ScheduledStartService

variable (service : ScheduledStartService)

def requireRecordScope (record : ScheduledStartRecordBase) : Except ScheduledStartException Unit :=
  if record.scopeDigest ≠ service.scope.digest service.hashing then
    .error (.refused ⟨.conflict, "Scheduled-start scope is inconsistent", false⟩)
  else .ok ()

/-! ## Preparing -/

/-- What the preparation of an arbiter reads. -/
structure PrepareWorld where
  current : ScheduledStartProjectionRecord
  existing : Option StartWorkflowResult
  /-- The active target, with the checks of its scope and of the input against it. -/
  resolved : Except WorkflowStartError ScheduledStartResolvedTarget
  now : Nat

/-- A run is there already: the start is projected as started by it, whoever won. -/
def prepareStarted (world : PrepareWorld) (initial : ScheduledStartArbiterInitialInput)
    (existing : StartWorkflowResult) :
    Except ScheduledStartException ScheduledStartArbiterPreparation := do
  let current := initial.record
  match ← claimScheduledStart service.hashing (.pending current) current.version world.now with
  | none => return .stale world.current
  | some claimed =>
      let started ← completeScheduledStart service.hashing claimed existing.toRun world.now
      return .projection (← terminalInput (.started started) current.version initial.command.kind
        initial.command.requestDigest)

def prepareDue (world : PrepareWorld) (initial : ScheduledStartArbiterInitialInput) :
    Except ScheduledStartException ScheduledStartArbiterPreparation := do
  let current := initial.record
  match ← claimScheduledStart service.hashing (.pending current) current.version world.now with
  | none => return .stale world.current
  | some claimed =>
      match world.resolved with
      | .error error =>
          let failed ← failScheduledStart service.hashing claimed (dispatchFailureCode error)
            world.now
          return .projection (← terminalInput (.failed failed) claimed.claimedVersion .due none)
      | .ok target => return .due claimed target

/-- The projection of a command on a record for which no run is there. -/
def prepareCommand (world : PrepareWorld) (initial : ScheduledStartArbiterInitialInput) :
    Except ScheduledStartException ScheduledStartArbiterPreparation :=
  match initial.command with
  | .cancel expectedVersion requestDigest => do
      let (canceled, _) ← cancelScheduledStart (.pending initial.record) expectedVersion
        requestDigest world.now
      return .projection (← terminalInput (.canceled canceled) expectedVersion .cancel
        (some requestDigest))
  | .reschedule expectedVersion startAt requestDigest => do
      let (rescheduled, _) ← rescheduleScheduledStart (.pending initial.record) startAt
        expectedVersion requestDigest world.now
      return .projection (← terminalInput (.pending rescheduled) expectedVersion .reschedule
        (some requestDigest))
  | .due _ => service.prepareDue world initial

/-- `prepare_arbiter`. -/
def prepareArbiter (world : PrepareWorld) (initial : ScheduledStartArbiterInitialInput) :
    Except ScheduledStartException ScheduledStartArbiterPreparation := do
  service.requireRecordScope initial.record.toScheduledStartRecordBase
  if world.current ≠ .pending initial.record then
    return .stale world.current
  else
    match world.existing with
    | some existing => service.prepareStarted world initial existing
    | none => service.prepareCommand world initial

/-! ## Dispatching -/

/-- What one attempt meets. -/
structure AttemptWorld where
  start : StartWorld
  /-- The activity ended with a result, neither timed out nor lost with its worker. -/
  reported : Bool
  /-- The time at which the workflow goes on. -/
  now : Nat

variable (target : ScheduledStartResolvedTarget)

/-- `attempt_dispatch`. -/
def attemptDispatch (record : DispatchingScheduledStartRecord) (world : StartWorld) :
    Except ScheduledStartException ScheduledStartAttemptResult := do
  service.requireRecordScope record.toScheduledStartRecordBase
  let workflowId := service.hashing.scopedIdentity "workflow"
    (service.scope.digest service.hashing) [record.workflowName, record.businessRequestId]
  return attemptResult (service.starter.startAcceptedApi world target workflowId)

/-- An attempt as the workflow sees it: an activity that raised is ambiguous. -/
def attempt (record : DispatchingScheduledStartRecord) (world : AttemptWorld) :
    ScheduledStartAttemptResult :=
  match world.reported, service.attemptDispatch target record world.start with
  | true, .ok result => result
  | _, _ => .ambiguous

def startedInput (record : DispatchingScheduledStartRecord) (run : ScheduledStartRun)
    (completedAt : Nat) : Except ScheduledStartException ScheduledStartArbiterInput := do
  let started ← completeScheduledStart service.hashing record run completedAt
  return .terminal (← terminalInput (.started started) record.claimedVersion .due none)

def exhaustedInput (record : DispatchingScheduledStartRecord) (completedAt : Nat) :
    Except ScheduledStartException ScheduledStartArbiterInput := do
  let failed ← failScheduledStart service.hashing record .dispatchExhausted completedAt
  return .terminal (← terminalInput (.failed failed) record.claimedVersion .due none)

/-- The rest of a round of `_dispatch`: the input it continues as new with and the attempts after
it, or nothing while an attempt is missing. -/
def dispatchFrom (record : DispatchingScheduledStartRecord) :
    Nat → Bool → Nat → List AttemptWorld →
      Except ScheduledStartException (Option (ScheduledStartArbiterInput × List AttemptWorld))
  | 0, sawAmbiguous, authoritativeRejections, attempts =>
      .ok (some (.resolvedDue ⟨record, target, sawAmbiguous, authoritativeRejections⟩, attempts))
  | _ + 1, _, _, [] => .ok none
  | left + 1, sawAmbiguous, authoritativeRejections, world :: attempts =>
      match service.attempt target record world with
      | .accepted _ run => do
          let next ← service.startedInput record run world.now
          return some (next, attempts)
      | .ambiguous => dispatchFrom record left true authoritativeRejections attempts
      | .rejected =>
          if sawAmbiguous = false ∧ authoritativeRejections + 1 ≥ record.dispatchAttempts then do
            let next ← service.exhaustedInput record world.now
            return some (next, attempts)
          else dispatchFrom record left sawAmbiguous (authoritativeRejections + 1) attempts

def dispatch (progress : ScheduledStartArbiterResolvedDueInput) (attempts : List AttemptWorld) :
    Except ScheduledStartException (Option (ScheduledStartArbiterInput × List AttemptWorld)) :=
  service.dispatchFrom progress.target progress.record progress.record.dispatchAttempts
    progress.sawAmbiguous progress.authoritativeRejections attempts

/-- The chain of an arbiter: the inputs it continues as new with, and the attempts it made. -/
inductive Chains (start : ScheduledStartArbiterInitialInput) :
    List AttemptWorld → ScheduledStartArbiterInput → Prop where
  | initial : Chains start [] (.initial start)
  | due {world : PrepareWorld} {record : DispatchingScheduledStartRecord}
      {target : ScheduledStartResolvedTarget}
      (prepared : service.prepareArbiter world start = .ok (.due record target)) :
      Chains start [] (.resolvedDue { record, target })
  | projection {world : PrepareWorld} {terminal : ScheduledStartArbiterTerminalInput}
      (prepared : service.prepareArbiter world start = .ok (.projection terminal)) :
      Chains start [] (.terminal terminal)
  | round {made more : List AttemptWorld} {progress : ScheduledStartArbiterResolvedDueInput}
      {next : ScheduledStartArbiterInput} (before : Chains start made (.resolvedDue progress))
      (dispatched : service.dispatch progress more = .ok (some (next, []))) :
      Chains start (made ++ more) next

end ScheduledStartService

end Justflow
