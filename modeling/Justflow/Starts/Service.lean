import Justflow.Starts.Dispatch
import Justflow.Library.Processes

/-!
# The service of a scheduled start

Everything that touches one scheduled start talks to Temporal one request at a time: the commands
of its callers, the due dispatch, the activities of its arbiters and the cleanup.  Temporal keeps
its schedule, whose action holds the record, the arbiters under their workflow identities, and the
run of the business workflow.  What Temporal and the host decide for themselves is the circumstance
of a request.
-/

namespace Justflow

/-! ## Replies -/

inductive ScheduledStartState where
  | scheduled | dispatching | started | canceled | failed
  deriving DecidableEq

structure ScheduledStartDescription where
  scheduledStartId : String
  workflowName : String
  triggerName : String
  startAt : Nat
  workloadClass : ScheduledStartWorkloadClass
  state : ScheduledStartState
  version : Nat
  acceptedAt : Nat
  updatedAt : Nat
  dispatchStartedAt : Option Nat := none
  completedAt : Option Nat := none
  failureCode : Option ScheduledStartFailureCode := none
  run : Option ScheduledStartRun := none
  deriving DecidableEq

/-- The part of `describe_scheduled_start` that all records share. -/
def ScheduledStartRecordBase.describe (self : ScheduledStartRecordBase)
    (state : ScheduledStartState) : ScheduledStartDescription where
  scheduledStartId := self.scheduledStartId
  workflowName := self.workflowName
  triggerName := self.triggerName
  startAt := self.startAt
  workloadClass := self.workloadClass
  state
  version := self.version
  acceptedAt := self.acceptedAt
  updatedAt := self.updatedAt

def DispatchingScheduledStartRecord.describe (self : DispatchingScheduledStartRecord) :
    ScheduledStartDescription :=
  { self.toScheduledStartRecordBase.describe .dispatching with
    dispatchStartedAt := some self.dispatchStartedAt }

def ScheduledStartProjectionRecord.describe :
    ScheduledStartProjectionRecord → ScheduledStartDescription
  | .pending record => record.toScheduledStartRecordBase.describe .scheduled
  | .started record =>
      { record.toScheduledStartRecordBase.describe .started with
        dispatchStartedAt := some record.dispatchStartedAt
        completedAt := some record.completedAt
        run := some record.run }
  | .canceled record =>
      { record.toScheduledStartRecordBase.describe .canceled with
        completedAt := some record.completedAt }
  | .failed record =>
      { record.toScheduledStartRecordBase.describe .failed with
        dispatchStartedAt := some record.dispatchStartedAt
        completedAt := some record.completedAt
        failureCode := some record.failureCode }

inductive ScheduledStartMutationStatus where
  | accepted | duplicate | rescheduled | canceled | inProgress
  deriving DecidableEq

structure ScheduledStartMutationResult where
  status : ScheduledStartMutationStatus
  scheduledStart : ScheduledStartDescription
  expectedVersion : Option Nat := none
  deriving DecidableEq

inductive ScheduledStartArbiterResult where
  | applied (consumedVersion : Nat) (winner : ScheduledStartArbiterCommandKind)
      (requestDigest : Option Digest) (scheduledStart : ScheduledStartDescription)
  | stale (consumedVersion : Nat) (current : ScheduledStartDescription)
  deriving DecidableEq

inductive ScheduledStartDueClaimResult where
  | claimed (duplicate : Bool)
  | skipped (current : ScheduledStartDescription)
  deriving DecidableEq

/-- How an operation ends. -/
inductive StartsResult where
  | mutation (result : ScheduledStartMutationResult)
  | description (description : ScheduledStartDescription)
  | claim (result : ScheduledStartDueClaimResult)
  | cleaned (deleted : Bool)
  | worked
  deriving DecidableEq

/-- What an operation raises. -/
inductive StartsFailure where
  | raised (error : ScheduledStartException)
  | start (error : WorkflowStartError)
  deriving DecidableEq

/-! ## Temporal -/

/-- The input an arbiter's current run goes on with, and the attempts counted so far. -/
structure ArbiterProgress where
  input : ScheduledStartArbiterInput
  made : Nat := 0
  deriving DecidableEq

inductive ArbiterStatus where
  | running (progress : ArbiterProgress)
  | completed (result : ScheduledStartArbiterResult)
  deriving DecidableEq

/-- An arbiter: its memo is made of the input it was started with. -/
structure Arbiter where
  initial : ScheduledStartArbiterInitialInput
  startTime : Nat
  status : ArbiterStatus

/-- What Temporal retains of a scheduled start. -/
structure StartsWorld where
  schedule : Option ScheduledStartProjectionRecord := none
  arbiters : String → Option Arbiter := fun _ => none
  run : Option StartWorkflowResult := none

inductive RpcReply (α : Type) where
  | ok (value : α)
  | notFound
  | failed
  deriving DecidableEq

inductive CreateReply where
  | created | alreadyRunning | invalidArgument | failed
  deriving DecidableEq

inductive ArbiterStartReply where
  | started | alreadyStarted | failed
  deriving DecidableEq

structure ArbiterView where
  winner : ScheduledStartArbiterCommandKind
  requestDigest : Option Digest
  startTime : Nat
  running : Bool

/-- The accepted request: the trigger that was found active and the normalized input. -/
structure Admission where
  triggerName : String
  normalizedInput : List (String × JsonValue)

inductive StartsRequest where
  | describeSchedule
  | createSchedule (record : PendingScheduledStartRecord)
  | updateSchedule (record : ScheduledStartProjectionRecord)
  | deleteSchedule
  | startArbiter (workflowId : String) (initial : ScheduledStartArbiterInitialInput)
  | describeArbiter (workflowId : String)
  | arbiterResult (workflowId : String)
  | arbiterProgress (workflowId : String)
  | advanceArbiter (workflowId : String) (before after : ArbiterProgress)
  | completeArbiter (workflowId : String) (before : ArbiterProgress)
      (result : ScheduledStartArbiterResult)
  | existingRun
  | startRun (target : ScheduledStartResolvedTarget) (workflowId : String)
  | describeRun
  | activeTarget
  | checkedStart
  | admission
  | clock

abbrev StartsReply : StartsRequest → Type
  | .describeSchedule => RpcReply ScheduledStartProjectionRecord
  | .createSchedule _ => CreateReply
  | .updateSchedule _ => RpcReply Unit
  | .deleteSchedule => RpcReply Unit
  | .startArbiter _ _ => ArbiterStartReply
  | .describeArbiter _ => RpcReply ArbiterView
  | .arbiterResult _ => Option ScheduledStartArbiterResult
  | .arbiterProgress _ => Option ArbiterProgress
  | .advanceArbiter _ _ _ => Unit
  | .completeArbiter _ _ _ => Unit
  | .existingRun => ExistingRun
  | .startRun _ _ => StartCall
  | .describeRun => Option String
  | .activeTarget => Except WorkflowStartError ScheduledStartResolvedTarget
  | .checkedStart => Except WorkflowStartError Unit
  | .admission => Except ScheduledStartException Admission
  | .clock => Nat

inductive RpcFault where
  | requestLost | replyLost
  deriving DecidableEq

/-- What Temporal, the network and the host decide about a request. -/
structure Circumstance where
  fault : Option RpcFault := none
  now : Nat
  /-- How a start is answered when no run of its identity is there. -/
  call : StartCall := .returned none
  runId : String := ""
  target : Except WorkflowStartError ScheduledStartResolvedTarget
  checked : Except WorkflowStartError Unit := .ok ()
  admission : Except ScheduledStartException Admission

def Arbiter.view (self : Arbiter) : ArbiterView where
  winner := self.initial.command.kind
  requestDigest := self.initial.command.requestDigest
  startTime := self.startTime
  running :=
    match self.status with
    | .running _ => true
    | .completed _ => false

/-- An arbiter goes on only from where the caller has seen it. -/
def Arbiter.advance (self : Arbiter) (before : ArbiterProgress) (next : ArbiterStatus) : Arbiter :=
  if self.status = .running before then { self with status := next } else self

def StartsWorld.setArbiter (self : StartsWorld) (workflowId : String) (arbiter : Arbiter) :
    StartsWorld :=
  { self with arbiters := Function.update self.arbiters workflowId (some arbiter) }

def StartsWorld.moveArbiter (self : StartsWorld) (workflowId : String) (before : ArbiterProgress)
    (next : ArbiterStatus) : StartsWorld :=
  match self.arbiters workflowId with
  | none => self
  | some arbiter => self.setArbiter workflowId (arbiter.advance before next)

/-- The answer to a request, and the world after it, when neither is lost. -/
def served (scopeDigest : String) (circumstance : Circumstance) (world : StartsWorld) :
    (request : StartsRequest) → StartsReply request × StartsWorld
  | .describeSchedule =>
      match world.schedule with
      | none => (.notFound, world)
      | some record => (.ok record, world)
  | .createSchedule record =>
      match world.schedule with
      | none => (.created, { world with schedule := some (.pending record) })
      | some _ => (.alreadyRunning, world)
  | .updateSchedule record =>
      match world.schedule with
      | none => (.notFound, world)
      | some _ => (.ok (), { world with schedule := some record })
  | .deleteSchedule =>
      match world.schedule with
      | none => (.notFound, world)
      | some _ => (.ok (), { world with schedule := none })
  | .startArbiter workflowId initial =>
      match world.arbiters workflowId with
      | some _ => (.alreadyStarted, world)
      | none => (.started, world.setArbiter workflowId
          { initial, startTime := circumstance.now, status := .running { input := .initial initial } })
  | .describeArbiter workflowId =>
      match world.arbiters workflowId with
      | none => (.notFound, world)
      | some arbiter => (.ok arbiter.view, world)
  | .arbiterResult workflowId =>
      match (world.arbiters workflowId).map Arbiter.status with
      | some (.completed result) => (some result, world)
      | _ => (none, world)
  | .arbiterProgress workflowId =>
      match (world.arbiters workflowId).map Arbiter.status with
      | some (.running progress) => (some progress, world)
      | _ => (none, world)
  | .advanceArbiter workflowId before after =>
      ((), world.moveArbiter workflowId before (.running after))
  | .completeArbiter workflowId before result =>
      ((), world.moveArbiter workflowId before (.completed result))
  | .existingRun =>
      match world.run with
      | none => (.rpcError ⟨.notFound, ""⟩, world)
      | some run => (.found run, world)
  | .startRun target workflowId =>
      match world.run with
      | some run => (.alreadyStarted (some run.runId), world)
      | none =>
          (circumstance.call,
            if circumstance.call.tookEffect then
              { world with run := some {
                workflowId
                runId := circumstance.runId
                definitionDigest := target.definitionDigest
                artifactIdentity := target.artifactIdentity
                environmentSnapshotDigest := target.environmentSnapshotDigest
                executionConfiguration := target.executionConfiguration
                scopeDigest
                status := .duplicate } }
            else world)
  | .describeRun => (world.run.map StartWorkflowResult.runId, world)
  | .activeTarget => (circumstance.target, world)
  | .checkedStart => (circumstance.checked, world)
  | .admission => (circumstance.admission, world)
  | .clock => (circumstance.now, world)

/-- The answer when the request or the reply was lost. -/
def lostReply : (request : StartsRequest) → StartsReply request → StartsReply request
  | .describeSchedule, _ => .failed
  | .createSchedule _, _ => .failed
  | .updateSchedule _, _ => .failed
  | .deleteSchedule, _ => .failed
  | .startArbiter _ _, _ => .failed
  | .describeArbiter _, _ => .failed
  | .arbiterResult _, _ => none
  | .arbiterProgress _, _ => none
  | .existingRun, _ => .otherError
  | .startRun _ _, _ => .otherError false
  | .describeRun, _ => none
  | .advanceArbiter _ _ _, reply => reply
  | .completeArbiter _ _ _, reply => reply
  | .activeTarget, reply => reply
  | .checkedStart, reply => reply
  | .admission, reply => reply
  | .clock, reply => reply

def startsRespond (scopeDigest : String) (circumstance : Circumstance) (world : StartsWorld)
    (request : StartsRequest) : Except StartsFailure (StartsReply request) × StartsWorld :=
  let answer := served scopeDigest circumstance world request
  match circumstance.fault with
  | none => (.ok answer.1, answer.2)
  | some .requestLost => (.ok (lostReply request answer.1), world)
  | some .replyLost => (.ok (lostReply request answer.1), answer.2)

/-- Temporal deletes closed executions after their retention. -/
inductive Retention where
  | arbiter (workflowId : String)
  | run

def StartsWorld.forget (self : StartsWorld) : Retention → StartsWorld
  | .arbiter workflowId => { self with arbiters := Function.update self.arbiters workflowId none }
  | .run => { self with run := none }

end Justflow
