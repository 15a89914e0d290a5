import Justflow.Library.SoloRuns
import Justflow.Library.Decoded
import Justflow.Engine.Data
import Justflow.Runtime.Scope

/-!
# Workflow control

The control service describes, lists, signals, cancels and terminates workflow executions for one
acting scope.  A command checks the identity that it is given before it asks Temporal anything; a
listing asks Temporal for the acting scope only, except in the local scope, whose older identities
carry no scope at all, and checks every execution that comes back.
-/

namespace Justflow

def maxWorkflowListLimit : Nat := 100
def maxPageTokenBytes : Nat := 4096
def maxWorkflowIdLength : Nat := 256
def maxRunIdLength : Nat := 256
def maxWorkflowTypeLength : Nat := 256
def maxTaskQueueLength : Nat := 128
def maxStatusLength : Nat := 64
def maxTimestampLength : Nat := 64

inductive ControlErrorCode where
  | invalidRequest | filterUnavailable | notFound | temporalUnavailable
  deriving DecidableEq

structure ControlOperationError where
  code : ControlErrorCode
  message : String
  retryable : Bool
  deriving DecidableEq

/-- What can be raised while Temporal is asked. -/
inductive ControlException where
  | operation (error : ControlOperationError)
  | rpcNotFound
  | other
  deriving DecidableEq

/-! ## Executions -/

inductive WorkflowExecutionState where
  | running | completed | failed | canceled | terminated | continuedAsNew | timedOut
  deriving DecidableEq

def WorkflowExecutionState.name : WorkflowExecutionState → String
  | .running => "RUNNING"
  | .completed => "COMPLETED"
  | .failed => "FAILED"
  | .canceled => "CANCELED"
  | .terminated => "TERMINATED"
  | .continuedAsNew => "CONTINUED_AS_NEW"
  | .timedOut => "TIMED_OUT"

/-- What Temporal knows of an execution.  Times are in microseconds. -/
structure WorkflowExecution where
  id : String
  runId : String
  workflowType : String
  status : Option WorkflowExecutionState
  taskQueue : String
  startTime : Int
  closeTime : Option Int
  searchAttributes : List (String × String)
  memo : List (String × JsonValue)

/-- One predicate of a visibility query. -/
inductive VisibilityPredicate where
  | workflowIdStartsWith (opening : String)
  | executionStatus (state : WorkflowExecutionState)
  | startTimeFrom (time : Int)
  | startTimeTo (time : Int)
  | keyword (field value : String)
  | workflowTypeStartsWith (opening : String)
  deriving DecidableEq

def VisibilityPredicate.holds (execution : WorkflowExecution) : VisibilityPredicate → Bool
  | .workflowIdStartsWith opening => startsWith execution.id opening
  | .executionStatus state => execution.status = some state
  | .startTimeFrom time => time ≤ execution.startTime
  | .startTimeTo time => execution.startTime ≤ time
  | .keyword field value =>
      if field = "WorkflowType" then execution.workflowType = value
      else execution.searchAttributes.lookup field = some value
  | .workflowTypeStartsWith opening => startsWith execution.workflowType opening

/-- A query that Temporal answers with the executions that meet all its predicates. -/
def matchesQuery (query : List VisibilityPredicate) (execution : WorkflowExecution) : Bool :=
  query.all (VisibilityPredicate.holds execution)

/-! ## Requests -/

structure ExecutionPage where
  executions : List WorkflowExecution
  nextPageToken : Option (List Nat)

inductive ControlRequest where
  | describe (workflowId : String) (runId : Option String)
  | signal (workflowId : String) (runId : Option String) (name : String) (payload : JsonValue)
  | cancel (workflowId : String) (runId : Option String)
  | terminate (workflowId : String) (runId : Option String)
  | listWorkflows (limit : Nat) (pageToken : Option (List Nat))
      (query : List VisibilityPredicate)

abbrev ControlReply : ControlRequest → Type
  | .describe _ _ => WorkflowExecution
  | .listWorkflows _ _ _ => ExecutionPage
  | _ => Unit

abbrev Controlling (α : Type) := Process ControlReply ControlException α

def controlRefusal (code : ControlErrorCode) (message : String) (retryable : Bool) :
    ControlException :=
  .operation ⟨code, message, retryable⟩

/-- `_control_error`. -/
def controlError (message : String) : ControlException → ControlException
  | .operation error => .operation error
  | .rpcNotFound => controlRefusal .notFound message false
  | .other => controlRefusal .temporalUnavailable message true

/-- Ask Temporal, and hide what it raises. -/
def guarded {α : Type} (message : String) (body : Controlling α) : Controlling α :=
  tryCatch body fun exc => .fail (controlError message exc)

/-! ## The service -/

/-- Libraries of the service: texts of times, and the encoding of page positions with a scope. -/
structure ControlHost where
  isoformat : Int → String
  decodeScopeCursor : Digest → String → Option JsonValue
  encodeScopeCursor : Digest → JsonValue → Option String

structure ControlService where
  hashing : Hashing
  host : ControlHost
  maxPayloadBytes : Nat
  indexedSearchAttributesEnabled : Bool

def isLocal (scope : RuntimeScope) : Bool :=
  scope = localRuntimeScope

structure WorkflowSummary where
  workflowId : String
  runId : String
  workflowType : String
  status : Option String
  taskQueue : String
  startTime : String
  closeTime : Option String
  deriving DecidableEq

def textBetween (low high : Nat) (text : String) : Bool :=
  low ≤ text.length && text.length ≤ high

/-- The bounds of the fields of a summary. -/
def WorkflowSummary.valid (self : WorkflowSummary) : Bool :=
  textBetween 1 maxWorkflowIdLength self.workflowId && textBetween 1 maxRunIdLength self.runId &&
    textBetween 1 maxWorkflowTypeLength self.workflowType &&
    self.status.all (textBetween 0 maxStatusLength) &&
    textBetween 1 maxTaskQueueLength self.taskQueue &&
    textBetween 1 maxTimestampLength self.startTime &&
    self.closeTime.all (textBetween 0 maxTimestampLength)

structure WorkflowListResult where
  workflows : List WorkflowSummary
  nextPageToken : Option String
  deriving DecidableEq

structure WorkflowListQuery where
  workflow : Option String
  state : Option WorkflowExecutionState
  startedAfter : Option Int
  startedBefore : Option Int
  definitionDigest : Option Digest
  triggerSource : Option String
  workerArtifact : Option String
  deriving DecidableEq

/-- What the service reads of an execution for its description. -/
structure WorkflowDescription where
  summary : WorkflowSummary
  logicalWorkflow : Option String
  definitionDigest : Option String
  deriving DecidableEq

/-- `runtime_workflow_type_name`, for a scope. -/
def runtimeWorkflowTypeName (hashing : Hashing) (logicalName : String) (definitionDigest : Digest)
    (scope : RuntimeScope) : String :=
  if scope.digest hashing = localRuntimeScope.digest hashing then
    logicalName ++ "__" ++ definitionDigest.text
  else
    hashing.scopedIdentity "workflow-type" (scope.digest hashing)
      [logicalName, definitionDigest.text]

namespace ControlService

variable (self : ControlService)

def workflowIdentityAllowed (workflowId : String) (scope : RuntimeScope) : Bool :=
  identityBelongsToScope self.hashing workflowId .workflow scope ||
    (isLocal scope && !startsWith workflowId ("jf1." ++ IdentityKind.workflow.text ++ "."))

/-- `_validate_execution_identity`. -/
def validateExecutionIdentity (workflowId : String) (runId : Option String)
    (scope : RuntimeScope) : Except ControlException Unit :=
  if !textBetween 1 maxWorkflowIdLength workflowId then
    .error (controlRefusal .invalidRequest "Workflow identity is invalid" false)
  else if !runId.all (textBetween 1 maxRunIdLength) then
    .error (controlRefusal .invalidRequest "Workflow run identity is invalid" false)
  else if !self.workflowIdentityAllowed workflowId scope then
    .error (controlRefusal .notFound "Workflow execution was not found" false)
  else .ok ()

def executionFields (execution : WorkflowExecution) : WorkflowSummary where
  workflowId := execution.id
  runId := execution.runId
  workflowType := execution.workflowType
  status := execution.status.map WorkflowExecutionState.name
  taskQueue := execution.taskQueue
  startTime := self.host.isoformat execution.startTime
  closeTime := execution.closeTime.map self.host.isoformat

/-- `_memo_text`. -/
def memoText (memo : List (String × JsonValue)) (key : String) : Option String :=
  (memo.lookup key).bind JsonValue.asStr

/-- The memo of an execution names the scope, or the scope is local and it names none. -/
def memoOwned (memo : List (String × JsonValue)) (scope : RuntimeScope) : Bool :=
  match memoText memo "justflow.scope_digest" with
  | some digest => digest = (scope.digest self.hashing).text
  | none => isLocal scope

/-- The description of an execution of the scope. -/
def descriptionOf (scope : RuntimeScope) (execution : WorkflowExecution) :
    Except ControlException WorkflowDescription :=
  if !self.memoOwned execution.memo scope then
    .error (controlRefusal .notFound "Cannot describe the workflow execution" false)
  else
    let summary := self.executionFields execution
    if summary.valid then
      .ok {
        summary := summary
        logicalWorkflow := memoText execution.memo "justflow.logical_workflow"
        definitionDigest := memoText execution.memo "justflow.definition_digest" }
    else .error .other

def describe (workflowId : String) (runId : Option String) (scope : RuntimeScope) :
    Controlling WorkflowDescription := do
  Process.lift (self.validateExecutionIdentity workflowId runId scope)
  guarded "Cannot describe the workflow execution" do
    let execution ← Process.call (ControlRequest.describe workflowId runId)
    Process.lift (self.descriptionOf scope execution)

/-- The bounded, strict payload of an event signal. -/
def normalizedPayload (payload : Decoded) : Option JsonValue := do
  let value ← payload.strict
  let normalized ←
    (normalizeJsonValue defaultCollectionItems value "control.signal.payload" 0).toOption
  if normalized.canonicalBytes ≤ self.maxPayloadBytes then some normalized else none

def signalEvent (workflowId eventName : String) (payload : Decoded) (runId : Option String)
    (scope : RuntimeScope) : Controlling Unit := do
  Process.lift (self.validateExecutionIdentity workflowId runId scope)
  match self.normalizedPayload payload with
  | none =>
      throw (controlRefusal .invalidRequest "Signal payload is not valid bounded JSON" false)
  | some normalized =>
      guarded "Cannot signal the workflow execution"
        (Process.call (ControlRequest.signal workflowId runId "workflow_event"
          (.obj [("signal", .str eventName), ("data", normalized)])))

def cancel (workflowId : String) (runId : Option String) (scope : RuntimeScope) :
    Controlling Unit := do
  Process.lift (self.validateExecutionIdentity workflowId runId scope)
  guarded "Cannot cancel the workflow execution"
    (Process.call (ControlRequest.cancel workflowId runId))

def terminate (workflowId : String) (runId : Option String) (scope : RuntimeScope) :
    Controlling Unit := do
  Process.lift (self.validateExecutionIdentity workflowId runId scope)
  guarded "Cannot terminate the workflow execution"
    (Process.call (ControlRequest.terminate workflowId runId))

/-! ## Listing -/

/-- A byte of a page position; a boolean passes for a number. -/
def positionByte : JsonValue → Option Nat
  | .int n => if 0 ≤ n ∧ n ≤ 255 then some n.toNat else none
  | .bool b => some b.toNat
  | _ => none

def invalidPageToken : ControlException :=
  controlRefusal .invalidRequest "Workflow page token is invalid" false

/-- `_decode_page_token`. -/
def decodePageToken (token : Option String) (scope : RuntimeScope) :
    Except ControlException (Option (List Nat)) :=
  match token with
  | none => .ok none
  | some token =>
      match (do
        let position ← self.host.decodeScopeCursor (scope.digest self.hashing) token
        (← position.asArr).mapM positionByte) with
      | none => .error invalidPageToken
      | some decoded =>
          if decoded.length ≤ maxPageTokenBytes then .ok (some decoded)
          else .error invalidPageToken

/-- `_encode_page_token`. -/
def encodePageToken (token : Option (List Nat)) (scope : RuntimeScope) :
    Except ControlException (Option String) :=
  match token with
  | none | some [] => .ok none
  | some token =>
      if token.length ≤ maxPageTokenBytes then
        match self.host.encodeScopeCursor (scope.digest self.hashing)
            (.arr (token.map fun byte => .int byte)) with
        | some encoded => .ok (some encoded)
        | none => .error .other
      else
        .error (controlRefusal .temporalUnavailable
          "Temporal returned an oversized workflow page token" true)

def filterUnavailable : ControlException :=
  controlRefusal .filterUnavailable
    "The requested filter requires host-enabled Temporal Visibility indexes" false

/-- The predicates for indexed filters, where the host has the indexes. -/
def indexedPredicates (query : WorkflowListQuery) : List VisibilityPredicate :=
  (query.workflow.map (.keyword "JustflowLogicalWorkflow")).toList ++
    (query.definitionDigest.map fun digest =>
      .keyword "JustflowDefinitionDigest" digest.text).toList ++
    (query.triggerSource.map (.keyword "JustflowTriggerSource")).toList ++
    (query.workerArtifact.map (.keyword "JustflowWorkerArtifact")).toList

/-- The predicates for indexed filters without indexes: the workflow type stands for some. -/
def typePredicates (scope : RuntimeScope) (query : WorkflowListQuery) :
    Except ControlException (List VisibilityPredicate) :=
  let others := query.triggerSource.isSome || query.workerArtifact.isSome
  match query.workflow, query.definitionDigest with
  | some workflow, some digest =>
      if others then .error filterUnavailable
      else
        .ok [.keyword "WorkflowType"
          (runtimeWorkflowTypeName self.hashing workflow digest scope)]
  | some workflow, none =>
      if isLocal scope && !others then .ok [.workflowTypeStartsWith (workflow ++ "__")]
      else .error filterUnavailable
  | none, digest => if digest.isSome || others then .error filterUnavailable else .ok []

/-- `_visibility_query`. -/
def visibilityQuery (scope : RuntimeScope) (query : WorkflowListQuery) :
    Except ControlException (List VisibilityPredicate) := do
  let scopePredicates : List VisibilityPredicate :=
    if isLocal scope then []
    else [.workflowIdStartsWith
      (scopedIdentityPrefix .workflow (scope.digest self.hashing))]
  let statePredicates : List VisibilityPredicate :=
    (query.state.map .executionStatus).toList ++
      (query.startedAfter.map .startTimeFrom).toList ++
      (query.startedBefore.map .startTimeTo).toList
  let filters ←
    if self.indexedSearchAttributesEnabled then .ok (indexedPredicates query)
    else self.typePredicates scope query
  return scopePredicates ++ statePredicates ++ filters

/-- `_summary`. -/
def summaryOf (scope : RuntimeScope) (execution : WorkflowExecution) :
    Except ControlException WorkflowSummary :=
  if !self.workflowIdentityAllowed execution.id scope then
    .error (controlRefusal .temporalUnavailable
      "Temporal returned a workflow outside the requested runtime scope" true)
  else
    let summary := self.executionFields execution
    if summary.valid then .ok summary else .error .other

/-- The result of a page: every execution of it belongs to the scope. -/
def listResult (scope : RuntimeScope) (page : ExecutionPage) :
    Except ControlException WorkflowListResult := do
  let summaries ← page.executions.mapM (self.summaryOf scope)
  let nextToken ← self.encodePageToken page.nextPageToken scope
  return ⟨summaries, nextToken⟩

def list (limit : Int) (pageToken : Option String) (scope : RuntimeScope)
    (query : WorkflowListQuery) : Controlling WorkflowListResult := do
  if 1 ≤ limit ∧ limit ≤ maxWorkflowListLimit then
    let token ← Process.lift (self.decodePageToken pageToken scope)
    let predicates ← Process.lift (self.visibilityQuery scope query)
    guarded "Cannot list workflow executions" do
      let page ← Process.call (ControlRequest.listWorkflows limit.toNat token predicates)
      Process.lift (self.listResult scope page)
  else
    throw (controlRefusal .invalidRequest "Workflow list limit must be within 100" false)

/-! ## Isolation -/

variable {self} {acting other : RuntimeScope}

/-- Nothing was sent, and the answer is that there is no such execution. -/
def NotFound {α : Type} (process : Controlling α) : Prop :=
  ∃ error, process = .fail (.operation error) ∧ error.code = .notFound

/-- Every command on an execution is answered without it. -/
structure Hidden (service : ControlService) (workflowId : String) (runId : Option String)
    (acting : RuntimeScope) : Prop where
  describe : NotFound (service.describe workflowId runId acting)
  signal : ∀ eventName payload,
    NotFound (service.signalEvent workflowId eventName payload runId acting)
  cancel : NotFound (service.cancel workflowId runId acting)
  terminate : NotFound (service.terminate workflowId runId acting)

theorem hidden_of_not_allowed {workflowId : String} {runId : Option String}
    (bounded : textBetween 1 maxWorkflowIdLength workflowId = true)
    (validRun : runId.all (textBetween 1 maxRunIdLength) = true)
    (foreign : self.workflowIdentityAllowed workflowId acting = false) :
    self.Hidden workflowId runId acting := by
  have refused : self.validateExecutionIdentity workflowId runId acting =
      .error (controlRefusal .notFound "Workflow execution was not found" false) := by
    simp [validateExecutionIdentity, bounded, validRun, foreign]
  constructor
  · rw [describe, refused]
    exact ⟨_, rfl, rfl⟩
  · intro eventName payload
    rw [signalEvent, refused]
    exact ⟨_, rfl, rfl⟩
  · rw [cancel, refused]
    exact ⟨_, rfl, rfl⟩
  · rw [terminate, refused]
    exact ⟨_, rfl, rfl⟩

theorem allowed_own (parts : List String) :
    self.workflowIdentityAllowed (acting.identity self.hashing .workflow parts) acting = true := by
  rw [workflowIdentityAllowed, identity_belongs_iff.mpr ⟨rfl, rfl⟩, Bool.true_or]

theorem not_allowed_foreign (apart : acting.digest self.hashing ≠ other.digest self.hashing)
    {kind : IdentityKind} (guardedKind : acting ≠ localRuntimeScope ∨ kind = .workflow)
    (parts : List String) :
    self.workflowIdentityAllowed (other.identity self.hashing kind parts) acting = false := by
  rw [workflowIdentityAllowed, Bool.or_eq_false_iff, Bool.and_eq_false_iff]
  constructor
  · rw [Bool.eq_false_iff]
    intro belongs
    exact apart (identity_belongs_iff.mp belongs).2
  · rcases guardedKind with tenant | rfl
    · left
      simp [isLocal, tenant]
    · right
      rw [identity_startsWith_kind.mpr rfl]
      rfl

theorem identity_bounded (kind : IdentityKind) (parts : List String) :
    textBetween 1 maxWorkflowIdLength (other.identity self.hashing kind parts) = true := by
  have bound : kind.text.length ≤ 32 := kind.bounded
  have length : (other.identity self.hashing kind parts).length = kind.text.length + 134 := by
    simp only [RuntimeScope.identity, Hashing.scopedIdentity, String.length_append, Digest.length]
    have opening : "jf1.".length = 4 ∧ ".".length = 1 := by decide
    omega
  simp only [textBetween, length, maxWorkflowIdLength, Bool.and_eq_true, decide_eq_true_eq]
  omega

/-- An execution of a scope: its identity is one that the scope makes, of any kind. -/
def OfScope (hashing : Hashing) (scope : RuntimeScope) (execution : WorkflowExecution) : Prop :=
  ∃ kind parts, execution.id = scope.identity hashing kind parts

/-- Two collections of executions that differ in executions of one scope only. -/
inductive SameOutside (hashing : Hashing) (scope : RuntimeScope) :
    List WorkflowExecution → List WorkflowExecution → Prop where
  | nil : SameOutside hashing scope [] []
  | both (execution : WorkflowExecution) {left right : List WorkflowExecution} :
      SameOutside hashing scope left right →
      SameOutside hashing scope (execution :: left) (execution :: right)
  | left {execution : WorkflowExecution} (foreign : OfScope hashing scope execution)
      {left right : List WorkflowExecution} : SameOutside hashing scope left right →
      SameOutside hashing scope (execution :: left) right
  | right {execution : WorkflowExecution} (foreign : OfScope hashing scope execution)
      {left right : List WorkflowExecution} : SameOutside hashing scope left right →
      SameOutside hashing scope left (execution :: right)

theorem SameOutside.filter_eq {hashing : Hashing} {scope : RuntimeScope}
    {left right : List WorkflowExecution} (same : SameOutside hashing scope left right)
    {seen : WorkflowExecution → Bool}
    (unseen : ∀ execution, OfScope hashing scope execution → seen execution = false) :
    left.filter seen = right.filter seen := by
  induction same with
  | nil => rfl
  | both execution _ ih => simp only [List.filter_cons, ih]
  | left foreign _ ih => simpa [List.filter_cons, unseen _ foreign] using ih
  | right foreign _ ih => simpa [List.filter_cons, unseen _ foreign] using ih

end ControlService

/-- Temporal as the control service sees it.  A page depends on the executions that match its
query; what the other requests do is left open. -/
structure Temporal where
  page : List WorkflowExecution → Nat → Option (List Nat) → List VisibilityPredicate →
    Except ControlException ExecutionPage
  command : List WorkflowExecution → (request : ControlRequest) →
    Except ControlException (ControlReply request) × List WorkflowExecution
  page_congr : ∀ {executions others : List WorkflowExecution} {limit : Nat}
    {token : Option (List Nat)} {query : List VisibilityPredicate},
    executions.filter (matchesQuery query) = others.filter (matchesQuery query) →
    page executions limit token query = page others limit token query

namespace Temporal

def respond (self : Temporal) (executions : List WorkflowExecution) :
    (request : ControlRequest) →
      Except ControlException (ControlReply request) × List WorkflowExecution
  | .listWorkflows limit token query => (self.page executions limit token query, executions)
  | request => self.command executions request

/-- The result of a listing while these executions exist. -/
def listing (self : Temporal) (service : ControlService) (executions : List WorkflowExecution)
    (limit : Int) (pageToken : Option String) (scope : RuntimeScope)
    (query : WorkflowListQuery) : Except ControlException WorkflowListResult :=
  ((service.list limit pageToken scope query).exec self.respond executions).1

theorem listing_eq (self : Temporal) (service : ControlService)
    (executions : List WorkflowExecution) {limit : Int}
    (bounds : 1 ≤ limit ∧ limit ≤ maxWorkflowListLimit) (pageToken : Option String)
    (scope : RuntimeScope) (query : WorkflowListQuery) :
    self.listing service executions limit pageToken scope query =
      (do
        let token ← service.decodePageToken pageToken scope
        let predicates ← service.visibilityQuery scope query
        (do
          let page ← self.page executions limit.toNat token predicates
          service.listResult scope page).mapError
            (controlError "Cannot list workflow executions")) := by
  rw [listing, ControlService.list, if_pos bounds]
  cases hdecode : service.decodePageToken pageToken scope with
  | error error => rfl
  | ok token =>
      cases hquery : service.visibilityQuery scope query with
      | error error => rfl
      | ok predicates =>
          simp only [Process.lift_ok, Process.done_bind, guarded, Process.exec_rescue,
            Process.exec_bind, Process.exec_call, respond]
          cases hpage : self.page executions limit.toNat token predicates with
          | error error => simp [bind, Except.bind, Except.mapError, hpage]
          | ok page =>
              cases hresult : service.listResult scope page <;>
                simp [bind, Except.bind, Except.mapError, hpage, hresult]

end Temporal

namespace ControlService

variable {self : ControlService} {acting other : RuntimeScope}

/-- The query of a tenant holds the opening of the tenant's workflow identities. -/
theorem scope_predicate_mem (tenant : acting ≠ localRuntimeScope) {query : WorkflowListQuery}
    {predicates : List VisibilityPredicate}
    (accepted : self.visibilityQuery acting query = .ok predicates) :
    .workflowIdStartsWith (scopedIdentityPrefix .workflow (acting.digest self.hashing)) ∈
      predicates := by
  simp only [visibilityQuery, isLocal, tenant, decide_false, bind, Except.bind, pure,
    Except.pure] at accepted
  split at accepted
  · cases accepted
    simp
  · cases typed : self.typePredicates acting query with
    | error error => simp [typed] at accepted
    | ok found =>
        simp only [typed, Except.ok.injEq] at accepted
        simp [← accepted]

theorem unseen_of_mem (apart : acting.digest self.hashing ≠ other.digest self.hashing)
    {predicates : List VisibilityPredicate}
    (guard : .workflowIdStartsWith
      (scopedIdentityPrefix .workflow (acting.digest self.hashing)) ∈ predicates)
    {execution : WorkflowExecution} (foreign : OfScope self.hashing other execution) :
    matchesQuery predicates execution = false := by
  obtain ⟨kind, parts, id⟩ := foreign
  rw [matchesQuery, List.all_eq_false]
  refine ⟨_, guard, ?_⟩
  rw [VisibilityPredicate.holds, id]
  intro belongs
  exact apart (identity_belongs_iff.mp belongs).2

theorem summaryOf_allowed {execution : WorkflowExecution} {summary : WorkflowSummary}
    (shown : self.summaryOf acting execution = .ok summary) :
    self.workflowIdentityAllowed summary.workflowId acting = true := by
  rw [summaryOf] at shown
  split at shown
  · cases shown
  · next allowed =>
      dsimp only at shown
      split at shown
      · cases shown
        simpa [executionFields] using allowed
      · cases shown

theorem mapM_ok_forall {ε α β : Type} {f : α → Except ε β} {p : β → Prop}
    (each : ∀ a b, f a = .ok b → p b) {items : List α} {results : List β}
    (h : items.mapM f = .ok results) : ∀ b ∈ results, p b := by
  induction items generalizing results with
  | nil =>
      cases h
      simp
  | cons a rest ih =>
      rw [List.mapM_cons] at h
      cases first : f a with
      | error error => simp [first, bind, Except.bind] at h
      | ok b =>
          cases later : rest.mapM f with
          | error error => simp [first, later, bind, Except.bind] at h
          | ok bs =>
              simp only [first, later, bind, Except.bind, pure, Except.pure,
                Except.ok.injEq] at h
              subst h
              intro c hc
              rcases List.mem_cons.mp hc with rfl | hc
              · exact each a _ first
              · exact ih later c hc

theorem listResult_allowed {page : ExecutionPage} {result : WorkflowListResult}
    (h : self.listResult acting page = .ok result) :
    ∀ summary ∈ result.workflows, self.workflowIdentityAllowed summary.workflowId acting = true := by
  rw [listResult] at h
  cases shown : page.executions.mapM (self.summaryOf acting) with
  | error error => simp [shown, bind, Except.bind] at h
  | ok summaries =>
      cases token : self.encodePageToken page.nextPageToken acting with
      | error error => simp [shown, token, bind, Except.bind] at h
      | ok next =>
          simp only [shown, token, bind, Except.bind, pure, Except.pure, Except.ok.injEq] at h
          subst h
          exact mapM_ok_forall (fun _ _ => summaryOf_allowed) shown

end ControlService

namespace Temporal

variable {self : Temporal} {service : ControlService} {acting other : RuntimeScope}

theorem listing_invalid {executions : List WorkflowExecution} {limit : Int}
    (bounds : ¬ (1 ≤ limit ∧ limit ≤ maxWorkflowListLimit)) (pageToken : Option String)
    (scope : RuntimeScope) (query : WorkflowListQuery) :
    self.listing service executions limit pageToken scope query =
      .error (controlRefusal .invalidRequest "Workflow list limit must be within 100" false) := by
  rw [listing, ControlService.list, if_neg bounds]
  rfl

/-- What a listing for a tenant answers does not depend on the executions of another scope. -/
theorem listing_congr (apart : acting.digest service.hashing ≠ other.digest service.hashing)
    (tenant : acting ≠ localRuntimeScope) {executions others : List WorkflowExecution}
    (same : ControlService.SameOutside service.hashing other executions others) (limit : Int)
    (pageToken : Option String) (query : WorkflowListQuery) :
    self.listing service executions limit pageToken acting query =
      self.listing service others limit pageToken acting query := by
  by_cases bounds : 1 ≤ limit ∧ limit ≤ maxWorkflowListLimit
  · rw [listing_eq _ _ _ bounds, listing_eq _ _ _ bounds]
    cases accepted : service.visibilityQuery acting query with
    | error error => rfl
    | ok predicates =>
        have guard := ControlService.scope_predicate_mem tenant accepted
        have filtered := same.filter_eq fun execution =>
          ControlService.unseen_of_mem apart guard
        congr 1
        funext token
        simp only [bind, Except.bind]
        rw [self.page_congr filtered]
  · rw [listing_invalid bounds, listing_invalid bounds]

/-- A listing that succeeds shows only what is allowed for its scope. -/
theorem listing_allowed {executions : List WorkflowExecution} {limit : Int}
    {pageToken : Option String} {query : WorkflowListQuery} {result : WorkflowListResult}
    (h : self.listing service executions limit pageToken acting query = .ok result) :
    ∀ summary ∈ result.workflows,
      service.workflowIdentityAllowed summary.workflowId acting = true := by
  by_cases bounds : 1 ≤ limit ∧ limit ≤ maxWorkflowListLimit
  · rw [listing_eq _ _ _ bounds] at h
    cases hdecode : service.decodePageToken pageToken acting with
    | error error => simp [hdecode, bind, Except.bind] at h
    | ok token =>
        cases accepted : service.visibilityQuery acting query with
        | error error => simp [hdecode, accepted, bind, Except.bind] at h
        | ok predicates =>
            cases hpage : self.page executions limit.toNat token predicates with
            | error error =>
                simp [hdecode, accepted, hpage, bind, Except.bind, Except.mapError] at h
            | ok page =>
                cases hresult : service.listResult acting page with
                | error error =>
                    simp [hdecode, accepted, hpage, hresult, bind, Except.bind,
                      Except.mapError] at h
                | ok found =>
                    simp only [hdecode, accepted, hpage, hresult, bind, Except.bind,
                      Except.mapError, Except.ok.injEq] at h
                    exact h ▸ ControlService.listResult_allowed hresult
  · rw [listing_invalid bounds] at h
    cases h

end Temporal

/-- What the control service keeps apart: for a tenant everything of another scope, for the local
scope the workflows of another scope. -/
theorem control_scope_isolation {service : ControlService} {acting other : RuntimeScope}
    (apart : acting.digest service.hashing ≠ other.digest service.hashing) :
    (∀ kind parts runId, acting ≠ localRuntimeScope ∨ kind = IdentityKind.workflow →
      runId.all (textBetween 1 maxRunIdLength) = true →
      service.Hidden (other.identity service.hashing kind parts) runId acting) ∧
    (∀ (temporal : Temporal) executions others limit pageToken query,
      acting ≠ localRuntimeScope →
      ControlService.SameOutside service.hashing other executions others →
      temporal.listing service executions limit pageToken acting query =
        temporal.listing service others limit pageToken acting query) ∧
    (∀ (temporal : Temporal) executions limit pageToken query result,
      temporal.listing service executions limit pageToken acting query = .ok result →
      ∀ summary ∈ result.workflows, ∀ parts,
        summary.workflowId ≠ other.identity service.hashing .workflow parts) ∧
    ∀ parts,
      service.workflowIdentityAllowed (acting.identity service.hashing .workflow parts) acting =
        true := by
  refine ⟨?_, ?_, ?_, ControlService.allowed_own⟩
  · intro kind parts runId guardedKind validRun
    apply ControlService.hidden_of_not_allowed (ControlService.identity_bounded kind parts) validRun
    exact ControlService.not_allowed_foreign apart guardedKind parts
  · intro temporal executions others limit pageToken query tenant same
    exact Temporal.listing_congr apart tenant same limit pageToken query
  · rintro temporal executions limit pageToken query result listed summary shown parts id
    have allowed := Temporal.listing_allowed listed summary shown
    rw [id, ControlService.not_allowed_foreign apart (Or.inr rfl) parts] at allowed
    cases allowed

/-! ## The local scope -/

section LocalScope

/-- A Temporal that lists what matches and refuses every command. -/
def listingTemporal : Temporal where
  page executions limit _ query := .ok ⟨(executions.filter (matchesQuery query)).take limit, none⟩
  command executions _ := (.error .other, executions)
  page_congr := by
    intro executions others limit token query same
    rw [same]

def sampleService : ControlService where
  hashing := lengthHash
  host :=
    { isoformat _ := "2026-01-01T00:00:00+00:00"
      decodeScopeCursor _ _ := none
      encodeScopeCursor _ _ := none }
  maxPayloadBytes := 1024
  indexedSearchAttributesEnabled := false

def emptyQuery : WorkflowListQuery :=
  ⟨none, none, none, none, none, none, none⟩

/-- A workflow execution of a tenant. -/
def tenantExecution : WorkflowExecution where
  id := initechScope.identity lengthHash .workflow ["orders", "request-1"]
  runId := "run-1"
  workflowType := "orders"
  status := some .running
  taskQueue := "orders"
  startTime := 0
  closeTime := none
  searchAttributes := []
  memo := []

theorem local_listing (executions : List WorkflowExecution) :
    listingTemporal.listing sampleService executions 50 none localRuntimeScope emptyQuery =
      (sampleService.listResult localRuntimeScope ⟨executions.take 50, none⟩).mapError
        (controlError "Cannot list workflow executions") := by
  have everything : executions.filter (matchesQuery []) = executions :=
    List.filter_eq_self.mpr fun _ _ => rfl
  have query : sampleService.visibilityQuery localRuntimeScope emptyQuery = .ok [] := rfl
  rw [Temporal.listing_eq _ _ _ (by decide), query]
  simp only [ControlService.decodePageToken, bind, Except.bind, listingTemporal, everything]
  rfl

/-- A tenant's workflow makes the listing for the local scope fail, and a child workflow of the
tenant can be cancelled from the local scope. -/
theorem local_scope_not_isolated :
    localRuntimeScope.digest lengthHash ≠ initechScope.digest lengthHash ∧
    listingTemporal.listing sampleService [] 50 none localRuntimeScope emptyQuery =
      .ok ⟨[], none⟩ ∧
    listingTemporal.listing sampleService [tenantExecution] 50 none localRuntimeScope emptyQuery =
      .error (controlRefusal .temporalUnavailable
        "Temporal returned a workflow outside the requested runtime scope" true) ∧
    ¬ ControlService.NotFound (sampleService.cancel
      (initechScope.identity lengthHash .childWorkflow ["orders", "review"]) none
      localRuntimeScope) := by
  refine ⟨digests_apart.2, ?_, ?_, ?_⟩
  · rw [local_listing]
    rfl
  · have foreign : sampleService.workflowIdentityAllowed tenantExecution.id localRuntimeScope =
        false := ControlService.not_allowed_foreign digests_apart.2 (Or.inr rfl) _
    rw [local_listing]
    simp [ControlService.listResult, ControlService.summaryOf, foreign, bind, Except.bind,
      Except.mapError, controlRefusal, controlError]
  · have kinds : startsWith (initechScope.identity lengthHash .childWorkflow ["orders", "review"])
        ("jf1." ++ IdentityKind.workflow.text ++ ".") = false := by
      rw [Bool.eq_false_iff]
      intro opening
      exact absurd (identity_startsWith_kind.mp opening) (by decide)
    have bounded : textBetween 1 maxWorkflowIdLength
        (initechScope.identity lengthHash .childWorkflow ["orders", "review"]) = true :=
      @ControlService.identity_bounded sampleService _ _ _
    have accepted : sampleService.validateExecutionIdentity
        (initechScope.identity lengthHash .childWorkflow ["orders", "review"]) none
        localRuntimeScope = .ok () := by
      simp [ControlService.validateExecutionIdentity, bounded,
        ControlService.workflowIdentityAllowed, kinds, isLocal]
    rw [ControlService.cancel, accepted]
    rintro ⟨error, answered, -⟩
    cases answered

theorem control_scope_isolation_tenant :
    sampleService.Hidden (initechScope.identity lengthHash .childWorkflow ["orders", "review"])
      none acmeScope ∧
    ∀ parts, sampleService.workflowIdentityAllowed
      (acmeScope.identity lengthHash .workflow parts) acmeScope = true := by
  have isolated := @control_scope_isolation sampleService acmeScope initechScope digests_apart.1
  exact ⟨isolated.1 .childWorkflow _ none (Or.inl acmeScope_ne_local) rfl, isolated.2.2.2⟩

end LocalScope

end Justflow
