import Justflow.Config.Models
import Justflow.Engine.Continuation

/-!
# Engine exceptions and their classification

One type for the exceptions of the engine and of what it calls.  What a handler sees of an
exception is its chain of causes: an exception of the executor brings its own chain, the
engine's exceptions are a chain of one link.
-/

namespace Justflow

inductive FlowErrorKind where
  | missingParams | resolutionError | waitTimeout | loopExhausted | unsafeLoopCache
  | invariantViolation
  deriving DecidableEq, Repr

def FlowErrorKind.value : FlowErrorKind → String
  | .missingParams => "MISSING_PARAMS"
  | .resolutionError => "RESOLUTION_ERROR"
  | .waitTimeout => "WAIT_TIMEOUT"
  | .loopExhausted => "LOOP_EXHAUSTED"
  | .unsafeLoopCache => "UNSAFE_LOOP_CACHE"
  | .invariantViolation => "INVARIANT_VIOLATION"

inductive FailureCode where
  | invalidTrigger | invalidSignal | inputContractFailed | parametersFailed | stepFailed
  | handlerFailed | resultFailed | archivalFailed | internalError | limitExceeded
  deriving DecidableEq, Repr

def FailureCode.value : FailureCode → String
  | .invalidTrigger => "INVALID_TRIGGER"
  | .invalidSignal => "INVALID_SIGNAL"
  | .inputContractFailed => "INPUT_CONTRACT_FAILED"
  | .parametersFailed => "PARAMETERS_FAILED"
  | .stepFailed => "STEP_FAILED"
  | .handlerFailed => "HANDLER_FAILED"
  | .resultFailed => "RESULT_FAILED"
  | .archivalFailed => "ARCHIVAL_FAILED"
  | .internalError => "INTERNAL_ERROR"
  | .limitExceeded => "LIMIT_EXCEEDED"

inductive LimitKind where
  | payloadBytes | collectionItems | fanoutItems | parallelism | loopAttempts
  | totalInvocations | queuedMessages | queuedMessageBytes
  deriving DecidableEq, Repr

def LimitKind.value : LimitKind → String
  | .payloadBytes => "payload_bytes"
  | .collectionItems => "collection_items"
  | .fanoutItems => "fanout_items"
  | .parallelism => "parallelism"
  | .loopAttempts => "loop_attempts"
  | .totalInvocations => "total_invocations"
  | .queuedMessages => "queued_messages"
  | .queuedMessageBytes => "queued_message_bytes"

structure HistoryObservation where
  events : Nat
  bytes : Nat
  serverSuggested : Bool := false
  deriving DecidableEq, Repr

/-- One exception of a chain of causes, as the classification reads it: its class and text, the
`type`, `message` and `non_retryable` attributes it may have, and whether it is a cancellation. -/
structure ExceptionLink where
  typeName : String
  text : String
  causeType : Option String := none
  message : Option String := none
  nonRetryable : Option Bool := none
  cancelled : Bool := false
  deriving DecidableEq, Repr

inductive EngineException where
  | flowDefinition (message : String) (kind : FlowErrorKind)
  | limitExceeded (kind : LimitKind) (boundary : String) (actual limit : Nat)
  | dataNormalization (path detail : String)
  | dataPath (path detail : String)
  | referenceResolution (message : String)
  | conditionEvaluation (detail : String)
  | python (typeName text : String)
  | external (head : ExceptionLink) (causes : List ExceptionLink)
  | handlerFailure (primary handler : FailureDetail)
  deriving DecidableEq

/-- The string form of an optional name, as the host language prints it. -/
def optionText (o : Option String) : String :=
  o.getD "None"

def EngineException.typeName : EngineException → String
  | .flowDefinition _ _ => "FlowDefinitionError"
  | .limitExceeded _ _ _ _ => "LimitExceededError"
  | .dataNormalization _ _ => "DataNormalizationError"
  | .dataPath _ _ => "DataPathError"
  | .referenceResolution _ => "ReferenceResolutionError"
  | .conditionEvaluation _ => "ConditionEvaluationError"
  | .python typeName _ => typeName
  | .external head _ => head.typeName
  | .handlerFailure _ _ => "_HandlerFailure"

def EngineException.text : EngineException → String
  | .flowDefinition message _ => message
  | .limitExceeded kind boundary actual limit =>
      let kindValue := kind.value
      s!"Runtime limit exceeded at '{boundary}': {kindValue} is {actual}, maximum is {limit}"
  | .dataNormalization path detail =>
      s!"Invalid JSON-compatible value at '{path}': {detail}"
  | .dataPath path detail => s!"Cannot resolve data path '{path}': {detail}"
  | .referenceResolution message => message
  | .conditionEvaluation detail => s!"Cannot evaluate condition: {detail}"
  | .python _ text => text
  | .external head _ => head.text
  | .handlerFailure primary handler =>
      let failed := optionText handler.step
      let handled := optionText primary.step
      s!"Handler step '{failed}' failed while handling '{handled}'"

def maxCauseDepth : Nat := 10
def maxFailureCodeLength : Nat := 128
def maxCorrelationValueLength : Nat := 128
def maxFailureMessageLength : Nat := 1024

/-- The links a classification visits. -/
def EngineException.links : EngineException → List ExceptionLink
  | .external head causes => (head :: causes).take maxCauseDepth
  | _ => []

def isCancellation (exc : EngineException) : Bool :=
  exc.links.any ExceptionLink.cancelled

/-- `_bounded`: cut, with an ellipsis for the last character. -/
def bounded (value : String) (limit : Nat) : String :=
  if value.length ≤ limit then value
  else String.ofList (value.toList.take (limit - 1)) ++ "…"

/-- The last link with both a type and a message wins over the exception itself. -/
def errorDetails (exc : EngineException) : String × String × Option Bool :=
  exc.links.foldl
    (fun best link =>
      match truthy link.causeType, truthy link.message with
      | some code, some message => (code, message, link.nonRetryable)
      | _, _ => best)
    (exc.typeName, exc.text, none)

def phaseCode : FailurePhase → FailureCode
  | .trigger => .invalidTrigger
  | .signal => .invalidSignal
  | .workflowInput => .inputContractFailed
  | .parameters => .parametersFailed
  | .step => .stepFailed
  | .handler => .handlerFailed
  | .result => .resultFailed
  | .archive => .archivalFailed
  | .internal => .internalError

def phaseCategory : FailurePhase → FailureCategory
  | .trigger | .signal | .parameters => .input
  | .workflowInput | .result => .contract
  | .step | .handler => .execution
  | .archive => .infrastructure
  | .internal => .internal

def classifyFailure (exc : EngineException) (phase : FailurePhase) (step : Option String)
    (code : Option FailureCode) : FailureDetail :=
  let (causeCode, message, nonRetryable) := errorDetails exc
  let (stableCode, category, retryable) :=
    match exc with
    | .limitExceeded _ _ _ _ => (FailureCode.limitExceeded.value, phaseCategory phase, false)
    | .flowDefinition _ kind => (kind.value, FailureCategory.definition, false)
    | _ => ((code.getD (phaseCode phase)).value, phaseCategory phase,
        match nonRetryable with
        | some flag => !flag
        | none => false)
  { code := bounded stableCode maxFailureCodeLength
    causeCode := bounded causeCode maxFailureCodeLength
    category
    phase
    message := bounded message maxFailureMessageLength
    retryable
    step }

def enforceLimit (actual limit : Nat) (kind : LimitKind) (boundary : String) :
    Except EngineException Unit :=
  if limit < actual then .error (.limitExceeded kind boundary actual limit) else .ok ()

def enforcePayloadBytes (value : JsonValue) (boundary : String) (limit : Nat) :
    Except EngineException Unit :=
  enforceLimit value.canonicalBytes limit .payloadBytes boundary

theorem enforceLimit_ok_iff {actual limit : Nat} {kind : LimitKind} {boundary : String} :
    enforceLimit actual limit kind boundary = .ok () ↔ actual ≤ limit := by
  unfold enforceLimit
  split <;> simp_all

end Justflow
