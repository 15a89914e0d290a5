import Justflow.Runtime.Scope

/-!
# Records of scheduled starts

A scheduled start is kept as one versioned record, which moves from pending through dispatching to
a terminal state.  The transitions are pure: they take the record, what happened and the time, and
the new record is validated again.  Timestamps are whole seconds.
-/

namespace Justflow

inductive ScheduledStartMutationKind where
  | create | reschedule | cancel | dispatch | start | fail
  deriving DecidableEq

inductive ScheduledStartArbiterCommandKind where
  | due | cancel | reschedule
  deriving DecidableEq

inductive ScheduledStartFailureCode where
  | targetUnavailable | contractDrift | incompatibleWorker | dispatchExhausted
  deriving DecidableEq

def ScheduledStartFailureCode.value : ScheduledStartFailureCode → String
  | .targetUnavailable => "target_unavailable"
  | .contractDrift => "contract_drift"
  | .incompatibleWorker => "incompatible_worker"
  | .dispatchExhausted => "dispatch_exhausted"

inductive ScheduledStartErrorCode where
  | invalidRequest | triggerUnavailable | triggerPaused | inputRejected | notFound | conflict
  | quotaExceeded | quotaUnavailable | priorityUnsupported | temporalUnavailable
  deriving DecidableEq

structure ScheduledStartError where
  code : ScheduledStartErrorCode
  message : String
  retryable : Bool
  deriving DecidableEq

/-- What an operation on scheduled starts raises. -/
inductive ScheduledStartException where
  | refused (error : ScheduledStartError)
  /-- `pydantic.ValidationError`. -/
  | validation
  deriving DecidableEq

inductive ScheduledStartWorkloadClass where
  | interactive | standard | batch
  deriving DecidableEq

structure ScheduledStartRun where
  workflowId : String
  runId : String
  definitionDigest : String
  artifactIdentity : JsonValue
  environmentSnapshotDigest : String
  executionConfiguration : Option JsonValue
  deriving DecidableEq

structure ScheduledStartRecordBase where
  scheduledStartId : String
  scopeDigest : Digest
  workflowName : String
  input : List (String × JsonValue)
  businessRequestId : String
  startAt : Nat
  workloadClass : ScheduledStartWorkloadClass
  triggerName : String
  createRequestDigest : Digest
  version : Nat
  acceptedAt : Nat
  updatedAt : Nat
  lastMutationKind : ScheduledStartMutationKind
  lastMutationDigest : Digest
  dispatchTimeoutSeconds : Nat
  dispatchAttempts : Nat
  versioned : 1 ≤ version
  timed : 1 ≤ dispatchTimeoutSeconds
  attempted : 1 ≤ dispatchAttempts
  ordered : acceptedAt ≤ updatedAt
  deriving DecidableEq

structure PendingScheduledStartRecord extends ScheduledStartRecordBase
  deriving DecidableEq

structure DispatchingScheduledStartRecord extends ScheduledStartRecordBase where
  claimedVersion : Nat
  dispatchStartedAt : Nat
  deriving DecidableEq

structure StartedScheduledStartRecord extends ScheduledStartRecordBase where
  claimedVersion : Nat
  dispatchStartedAt : Nat
  completedAt : Nat
  run : ScheduledStartRun
  deriving DecidableEq

structure CanceledScheduledStartRecord extends ScheduledStartRecordBase where
  completedAt : Nat
  deriving DecidableEq

structure FailedScheduledStartRecord extends ScheduledStartRecordBase where
  claimedVersion : Nat
  dispatchStartedAt : Nat
  completedAt : Nat
  failureCode : ScheduledStartFailureCode
  deriving DecidableEq

/-- What a schedule retains; a dispatching record lives only in its arbiter. -/
inductive ScheduledStartProjectionRecord where
  | pending (record : PendingScheduledStartRecord)
  | started (record : StartedScheduledStartRecord)
  | canceled (record : CanceledScheduledStartRecord)
  | failed (record : FailedScheduledStartRecord)
  deriving DecidableEq

def ScheduledStartProjectionRecord.base : ScheduledStartProjectionRecord → ScheduledStartRecordBase
  | .pending record => record.toScheduledStartRecordBase
  | .started record => record.toScheduledStartRecordBase
  | .canceled record => record.toScheduledStartRecordBase
  | .failed record => record.toScheduledStartRecordBase

/-- `_transition_record`: the updated record is validated again. -/
def ScheduledStartRecordBase.transition (self : ScheduledStartRecordBase) (startAt version updatedAt : Nat)
    (kind : ScheduledStartMutationKind) (digest : Digest) :
    Except ScheduledStartException ScheduledStartRecordBase :=
  if h : 1 ≤ version ∧ self.acceptedAt ≤ updatedAt then
    .ok { self with
      startAt, version, updatedAt
      lastMutationKind := kind
      lastMutationDigest := digest
      versioned := h.1
      ordered := h.2 }
  else .error .validation

/-- The transitions that keep the time and the version of a record. -/
def ScheduledStartRecordBase.mutated (self : ScheduledStartRecordBase) (updatedAt : Nat)
    (kind : ScheduledStartMutationKind) (digest : Digest) :
    Except ScheduledStartException ScheduledStartRecordBase :=
  self.transition self.startAt self.version updatedAt kind digest

section Transitions

variable (hashing : Hashing)

/-- `scheduled_start_request_digest`. -/
def scheduledStartRequestDigest (parts : List JsonValue) : Digest :=
  hashing.sha256 (JsonValue.arr parts).text

def noLongerPending : ScheduledStartException :=
  .refused ⟨.conflict, "Scheduled start is no longer pending at the expected version", false⟩

def rescheduleScheduledStart (record : ScheduledStartProjectionRecord)
    (startAt expectedVersion : Nat) (requestDigest : Digest) (updatedAt : Nat) :
    Except ScheduledStartException (PendingScheduledStartRecord × Bool) :=
  match record with
  | .pending pending =>
      if pending.version = expectedVersion + 1 ∧ pending.lastMutationKind = .reschedule ∧
          pending.lastMutationDigest = requestDigest then
        .ok (pending, true)
      else if pending.version ≠ expectedVersion then
        .error noLongerPending
      else do
        let base ← pending.transition startAt (pending.version + 1) updatedAt .reschedule
          requestDigest
        return (⟨base⟩, false)
  | _ => .error noLongerPending

def cancelScheduledStart (record : ScheduledStartProjectionRecord) (expectedVersion : Nat)
    (requestDigest : Digest) (updatedAt : Nat) :
    Except ScheduledStartException (CanceledScheduledStartRecord × Bool) :=
  match record with
  | .canceled canceled =>
      if canceled.version = expectedVersion ∧ canceled.lastMutationKind = .cancel ∧
          canceled.lastMutationDigest = requestDigest then
        .ok (canceled, true)
      else .error noLongerPending
  | .pending pending =>
      if pending.version ≠ expectedVersion then
        .error noLongerPending
      else do
        let base ← pending.mutated updatedAt .cancel requestDigest
        return (⟨base, updatedAt⟩, false)
  | _ => .error noLongerPending

def claimScheduledStart (record : ScheduledStartProjectionRecord)
    (expectedVersion claimedAt : Nat) :
    Except ScheduledStartException (Option DispatchingScheduledStartRecord) :=
  match record with
  | .pending pending =>
      if pending.version ≠ expectedVersion then
        .ok none
      else do
        let claimDigest := scheduledStartRequestDigest hashing
          [.str "dispatch", .str pending.scheduledStartId, .int expectedVersion]
        let base ← pending.mutated claimedAt .dispatch claimDigest
        return some ⟨base, expectedVersion, claimedAt⟩
  | _ => .ok none

def completeScheduledStart (record : DispatchingScheduledStartRecord) (run : ScheduledStartRun)
    (completedAt : Nat) : Except ScheduledStartException StartedScheduledStartRecord := do
  let completionDigest := scheduledStartRequestDigest hashing
    [.str "start", .str record.scheduledStartId, .int record.claimedVersion, .str run.workflowId,
      .str run.runId]
  let base ← record.mutated completedAt .start completionDigest
  return ⟨base, record.claimedVersion, record.dispatchStartedAt, completedAt, run⟩

def failScheduledStart (record : DispatchingScheduledStartRecord)
    (failureCode : ScheduledStartFailureCode) (completedAt : Nat) :
    Except ScheduledStartException FailedScheduledStartRecord := do
  let failureDigest := scheduledStartRequestDigest hashing
    [.str "fail", .str record.scheduledStartId, .int record.claimedVersion, .str failureCode.value]
  let base ← record.mutated completedAt .fail failureDigest
  return ⟨base, record.claimedVersion, record.dispatchStartedAt, completedAt, failureCode⟩

end Transitions

end Justflow
