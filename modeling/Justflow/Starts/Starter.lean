import Justflow.Starts.Records

/-!
# Starting an accepted workflow

A start is a few requests to Temporal: the start itself, which is repeated while the routing of a
pinned worker is not ready, and then the run identity of what was started or of what was there.
Each of them may fail, and the error says whether the start was rejected for certain.
-/

namespace Justflow

inductive StartErrorCode where
  | invalidRequest | unknownWorkflow | definitionUnavailable | incompatibleWorker | inputRejected
  | configurationError | triggerPaused | triggerUnavailable | temporalUnavailable
  deriving DecidableEq

inductive StartRequestCertainty where
  | authoritativeRejection | ambiguous
  deriving DecidableEq

structure WorkflowStartError where
  code : StartErrorCode
  message : String
  retryable : Bool
  requestCertainty : StartRequestCertainty := .authoritativeRejection
  deriving DecidableEq

inductive RPCStatusCode where
  | ok | cancelled | unknown | invalidArgument | deadlineExceeded | notFound | alreadyExists
  | permissionDenied | resourceExhausted | failedPrecondition | aborted | outOfRange
  | unimplemented | internal | unavailable | dataLoss | unauthenticated
  deriving DecidableEq

def authoritativeStartRejectionStatuses : List RPCStatusCode :=
  [.invalidArgument, .notFound, .permissionDenied, .resourceExhausted, .failedPrecondition,
    .aborted, .outOfRange, .unimplemented, .unauthenticated]

structure RPCError where
  status : RPCStatusCode
  message : String
  deriving DecidableEq

/-! ## Repeating a pinned start -/

/-- What one request to start a workflow came to.  A request that raised may have been accepted. -/
inductive StartCall where
  | returned (runId : Option String)
  | alreadyStarted (runId : Option String)
  | rpcError (error : RPCError) (accepted : Bool)
  | otherError (accepted : Bool)
  deriving DecidableEq

/-- Temporal accepted the start of this request. -/
def StartCall.tookEffect : StartCall → Bool
  | .returned _ => true
  | .alreadyStarted _ => false
  | .rpcError _ accepted => accepted
  | .otherError accepted => accepted

structure PinnedRoute where
  deploymentName : String
  buildId : String
  taskQueue : String

def PinnedRoute.notPresentMessage (self : PinnedRoute) : String :=
  "Pinned version '" ++ self.deploymentName ++ ":" ++ self.buildId ++
    "' is not present in task queue '" ++ self.taskQueue ++ "' of type 'Workflow'"

def isMissingPinnedVersionRejection (route : PinnedRoute) (error : RPCError) : Bool :=
  error.status = .failedPrecondition && error.message = route.notPresentMessage

def StartCall.missesRoute (route : PinnedRoute) : StartCall → Bool
  | .rpcError error _ => isMissingPinnedVersionRejection route error
  | _ => false

/-- The requests that `retry_pinned_workflow_start` makes; the last one decides. -/
def pinnedCalls (route : PinnedRoute) (calls : Nat → StartCall) (attempt : Nat) : Nat → List StartCall
  | 0 => [calls attempt]
  | left + 1 =>
      if (calls attempt).missesRoute route then
        calls attempt :: pinnedCalls route calls (attempt + 1) left
      else [calls attempt]

theorem pinnedCalls_ne_nil (route : PinnedRoute) (calls : Nat → StartCall) (attempt left : Nat) :
    pinnedCalls route calls attempt left ≠ [] := by
  cases left with
  | zero => simp [pinnedCalls]
  | succ left =>
      rw [pinnedCalls]
      split <;> simp

/-! ## The start -/

inductive StartStatus where
  | started | duplicate
  deriving DecidableEq

structure StartWorkflowResult where
  workflowId : String
  runId : String
  definitionDigest : String
  artifactIdentity : JsonValue
  environmentSnapshotDigest : String
  executionConfiguration : Option JsonValue
  scopeDigest : String
  status : StartStatus
  deriving DecidableEq

/-- The target that a scheduled start is resolved to at its due time. -/
structure ScheduledStartResolvedTarget where
  definitionDigest : String
  artifactIdentity : JsonValue
  environmentSnapshotDigest : String
  scopeDigest : Option String
  executionConfiguration : Option JsonValue
  deriving DecidableEq

/-- What looking up an existing run came to. -/
inductive ExistingRun where
  | found (result : StartWorkflowResult)
  | rpcError (error : RPCError)
  | otherError
  deriving DecidableEq

/-- What the requests of one start meet. -/
structure StartWorld where
  /-- The checks of the binding, the target and the input, before any request. -/
  checked : Except WorkflowStartError Unit
  calls : Nat → StartCall
  /-- The description that is asked for the identity of a started run. -/
  described : Option String
  existing : ExistingRun

structure WorkflowStarter where
  route : PinnedRoute
  /-- The pinned start attempts after the first one. -/
  furtherAttempts : Nat
  scopeDigest : String

namespace WorkflowStarter

variable (self : WorkflowStarter) (world : StartWorld)

def startCalls : List StartCall :=
  pinnedCalls self.route world.calls 0 self.furtherAttempts

/-- The request whose answer the starter goes by. -/
def lastCall : StartCall :=
  (self.startCalls world).getLast (pinnedCalls_ne_nil _ _ _ _)

def resolveRunId (runId : Option String) : Except WorkflowStartError String :=
  match runId with
  | some runId => .ok runId
  | none =>
      match world.described with
      | some runId => .ok runId
      | none => .error
          { code := .temporalUnavailable
            message := "Temporal accepted the workflow identity but did not return its run identity"
            retryable := true }

def lookupExistingResult : Except WorkflowStartError (Option StartWorkflowResult) :=
  match world.existing with
  | .rpcError error =>
      if error.status = .notFound then .ok none
      else .error ⟨.temporalUnavailable, "Temporal workflow run metadata is unavailable", true,
        .ambiguous⟩
  | .otherError =>
      .error ⟨.temporalUnavailable, "Temporal workflow run metadata is unavailable", true,
        .ambiguous⟩
  | .found result =>
      if result.scopeDigest ≠ self.scopeDigest then .error
        { code := .definitionUnavailable
          message := "The existing workflow execution belongs to another runtime scope"
          retryable := false }
      else .ok (some result)

def existingResult : Except WorkflowStartError StartWorkflowResult := do
  match ← self.lookupExistingResult world with
  | none => throw ⟨.temporalUnavailable,
      "Temporal accepted the workflow identity but its run metadata is unavailable", true,
      .ambiguous⟩
  | some result => return result

def startedResult (target : ScheduledStartResolvedTarget) (workflowId runId : String) :
    StartWorkflowResult where
  workflowId := workflowId
  runId := runId
  definitionDigest := target.definitionDigest
  artifactIdentity := target.artifactIdentity
  environmentSnapshotDigest := target.environmentSnapshotDigest
  executionConfiguration := target.executionConfiguration
  scopeDigest := self.scopeDigest
  status := .started

def notAccepted (certainty : StartRequestCertainty) : WorkflowStartError :=
  ⟨.temporalUnavailable, "Temporal did not accept the workflow start", true, certainty⟩

/-- `start_accepted_api`. -/
def startAcceptedApi (target : ScheduledStartResolvedTarget) (workflowId : String) :
    Except WorkflowStartError StartWorkflowResult := do
  world.checked
  match self.lastCall world with
  | .returned runId =>
      let runId ← resolveRunId world runId
      return self.startedResult target workflowId runId
  | .alreadyStarted _ => self.existingResult world
  | .rpcError error _ =>
      throw (notAccepted (if error.status ∈ authoritativeStartRejectionStatuses then
        .authoritativeRejection else .ambiguous))
  | .otherError _ => throw (notAccepted .ambiguous)

/-- Temporal accepted a start that this start asked for. -/
def Accepted : Prop :=
  world.checked = .ok () ∧ ∃ call ∈ self.startCalls world, call.tookEffect = true

end WorkflowStarter

end Justflow
