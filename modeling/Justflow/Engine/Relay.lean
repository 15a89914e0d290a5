import Justflow.Library.Decoded
import Justflow.Engine.Signals
import Justflow.Runtime.Scope

/-!
# Response relay

The relay takes response and event envelopes from a broker and signals the workflow that each one
names.  An envelope names its workflow and the digest of its scope, and both are the sender's word:
`relay_confined_iff` says which envelopes a relay of a scope must never receive.
-/

namespace Justflow

/-! ## Envelopes -/

namespace Envelope

/-- A text of `min_length=1` and a maximal length. -/
def textWithin (limit : Nat) (v : Decoded) : Option String := do
  let text ← v.asText
  if 1 ≤ text.length ∧ text.length ≤ limit then some text else none

def required (v : Decoded) (key : String) (limit : Nat) : Option String := do
  textWithin limit (← v.field key)

/-- A text of the length and the characters of a digest. -/
def digestText (v : Decoded) : Option Digest := do
  let text ← v.asText
  if h : text.length = 64 ∧ text.toList.all isHexDigit then some (.checked text h) else none

def truthyTexts : List String := ["1", "on", "t", "true", "y", "yes"]
def falsyTexts : List String := ["0", "off", "f", "false", "n", "no"]

/-- What a boolean field admits. -/
def laxBool : Decoded → Option Bool
  | .bool b => some b
  | .int 1 => some true
  | .int 0 => some false
  | .float (.finite f) =>
      if f.value = 1 then some true else if f.value = 0 then some false else none
  | .str text => do
      let text ← text.strict
      if text.toLower ∈ truthyTexts then some true
      else if text.toLower ∈ falsyTexts then some false
      else none
  | _ => none

end Envelope

open Envelope

structure CommonEnvelope where
  messageId : String
  workflowName : String
  definitionDigest : String
  workflowId : String
  correlationId : String
  causationId : Option String
  traceId : Option String
  scopeDigest : Option Digest

def commonEnvelopeKeys : List String :=
  ["protocol_version", "message_id", "kind", "workflow_name", "definition_digest", "workflow_id",
    "correlation_id", "causation_id", "trace_id", "scope_digest"]

/-- The common fields of an envelope; its kind has been read before. -/
def CommonEnvelope.modelValidate (v : Decoded) : Option CommonEnvelope := do
  let version ← (← v.field "protocol_version").asText
  if version = "1" then
    let definitionDigest ← (← v.field "definition_digest").asText
    if definitionDigest.length = 64 then
      return {
        messageId := ← required v "message_id" maxMessageIdentifierLength
        workflowName := ← required v "workflow_name" maxMessageIdentifierLength
        definitionDigest := definitionDigest
        workflowId := ← required v "workflow_id" maxMessageIdentifierLength
        correlationId := ← required v "correlation_id" maxMessageIdentifierLength
        causationId := ←
          Decoded.optional (textWithin maxMessageIdentifierLength) (v.field "causation_id")
        traceId := ← Decoded.optional (textWithin maxMessageIdentifierLength) (v.field "trace_id")
        scopeDigest := ← Decoded.optional digestText (v.field "scope_digest") }
    else none
  else none

inductive StepResponseBody where
  | success (output : Decoded)
  | error (code message : String) (retryable : Bool)

def StepResponseBody.modelValidate (v : Decoded) : Option StepResponseBody := do
  let status ← (← v.field "status").asText
  if status = "success" then
    if v.keysWithin ["status", "output"] then
      return .success ((v.field "output").getD .null)
    else none
  else if status = "error" then
    if v.keysWithin ["status", "code", "message", "retryable"] then
      return .error (← required v "code" maxMessageIdentifierLength)
        (← required v "message" maxActionLength)
        (← match v.field "retryable" with
          | none => some false
          | some flag => laxBool flag)
    else none
  else none

structure StepResponseEnvelope where
  common : CommonEnvelope
  workflowRunId : String
  inReplyTo : String
  stepInvocationId : String
  stepName : String
  action : String
  body : StepResponseBody

structure EventEnvelope where
  common : CommonEnvelope
  workflowRunId : String
  eventName : String
  payload : Decoded

/-- The envelopes that a response relay takes. -/
inductive ResponseEnvelope where
  | stepResponse (envelope : StepResponseEnvelope)
  | event (envelope : EventEnvelope)

namespace ResponseEnvelope

def common : ResponseEnvelope → CommonEnvelope
  | .stepResponse envelope => envelope.common
  | .event envelope => envelope.common

def workflowRunId : ResponseEnvelope → String
  | .stepResponse envelope => envelope.workflowRunId
  | .event envelope => envelope.workflowRunId

end ResponseEnvelope

section Parsing

variable (hashing : Hashing)

/-- `_stable_identity`. -/
def stableIdentity (parts : List String) : String :=
  (hashing.sha256 (JsonValue.arr (parts.map .str)).text).text

def makeStepInvocationId (workflowId workflowRunId stepName : String) : String :=
  stableIdentity hashing ["step", workflowId, workflowRunId, stepName]

def makeStepRequestMessageId (stepInvocationId : String) : String :=
  stableIdentity hashing ["step_request", stepInvocationId]

/-- `validate_reply_identity`. -/
def StepResponseEnvelope.validateReplyIdentity (self : StepResponseEnvelope) :
    Option StepResponseEnvelope :=
  let invocation :=
    makeStepInvocationId hashing self.common.workflowId self.workflowRunId self.stepName
  if self.stepInvocationId = invocation ∧
      self.inReplyTo = makeStepRequestMessageId hashing invocation ∧
      self.common.causationId = some self.inReplyTo then some self
  else none

def StepResponseEnvelope.modelValidate (v : Decoded) : Option StepResponseEnvelope := do
  if v.keysWithin (commonEnvelopeKeys ++ ["workflow_run_id", "in_reply_to", "step_invocation_id",
      "step_name", "action", "body"]) then
    StepResponseEnvelope.validateReplyIdentity hashing {
      common := ← CommonEnvelope.modelValidate v
      workflowRunId := ← required v "workflow_run_id" maxMessageIdentifierLength
      inReplyTo := ← required v "in_reply_to" maxMessageIdentifierLength
      stepInvocationId := ← required v "step_invocation_id" maxMessageIdentifierLength
      stepName := ← required v "step_name" maxMessageIdentifierLength
      action := ← required v "action" maxActionLength
      body := ← StepResponseBody.modelValidate (← v.field "body") }
  else none

def EventEnvelope.modelValidate (v : Decoded) : Option EventEnvelope := do
  if v.keysWithin (commonEnvelopeKeys ++ ["workflow_run_id", "event_name", "payload"]) then
    return {
      common := ← CommonEnvelope.modelValidate v
      workflowRunId := ← required v "workflow_run_id" maxMessageIdentifierLength
      eventName := ← required v "event_name" maxMessageIdentifierLength
      payload := (v.field "payload").getD .null }
  else none

/-- `parse_async_envelope`, for the kinds that the relay supports; a trigger or a step request is
dead-lettered by its kind, valid or not. -/
def parseResponseEnvelope (v : Decoded) : Option ResponseEnvelope := do
  let kind ← (← v.field "kind").asText
  if kind = "step_response" then
    (StepResponseEnvelope.modelValidate hashing v).map .stepResponse
  else if kind = "event" then (EventEnvelope.modelValidate v).map .event
  else none

end Parsing

/-! ## Signals -/

/-- A signal that the relay sends. -/
structure SentSignal where
  workflowId : String
  runId : String
  name : String
  payload : Decoded

/-- The dump of the `SignalPayload` of a step response. -/
def StepResponseEnvelope.signalPayload (self : StepResponseEnvelope) : Decoded :=
  let dump (status : String) (stepResponse error : Decoded) : Decoded :=
    .record [("request_id", .text self.stepInvocationId), ("step_name", .text self.stepName),
      ("action", .text self.action), ("status", .text status), ("step_response", stepResponse),
      ("error", error)]
  match self.body with
  | .success output => dump "success" output .null
  | .error code message retryable =>
      dump "error" .null
        (.record [("code", .text code), ("message", .text message), ("retryable", .bool retryable)])

def ResponseEnvelope.signal (self : ResponseEnvelope) : SentSignal where
  workflowId := self.common.workflowId
  runId := self.workflowRunId
  name := match self with
    | .stepResponse _ => "step_response"
    | .event _ => "workflow_event"
  payload := match self with
    | .stepResponse envelope => envelope.signalPayload
    | .event envelope =>
        .record [("signal", .text envelope.eventName), ("data", envelope.payload)]

/-! ## Processing -/

inductive ProcessingOutcome where
  | ack
  | retry (reason : String)
  | deadLetter (reason : String)
  deriving DecidableEq

/-- What the JSON reader does with a text: `JSONDecodeError`, or another exception. -/
inductive ReadFailure where
  | malformed | escaped

/-- The libraries of the relay: the JSON reader, and the dump of a payload model. -/
structure RelayHost where
  reads : String → Except ReadFailure Decoded
  dumps : Decoded → Bool

inductive ClaimResult where
  | claimed | completed | inFlight | capacityExhausted
  deriving DecidableEq

/-- How Temporal answers a signal. -/
inductive SignalReply where
  | accepted | notFound | rpcFailure | failure
  deriving DecidableEq

structure Relay where
  hashing : Hashing
  host : RelayHost
  limits : RuntimeLimits
  scope : RuntimeScope

/-- What became of a message: how it is settled, unless an exception escaped, and every signal that
was sent for it. -/
structure Processed where
  outcome : Option ProcessingOutcome
  signals : List SentSignal

namespace Relay

variable (self : Relay)

def malformedResponse : ProcessingOutcome :=
  .deadLetter "malformed response envelope"

/-- The scope check of `_process_message`. -/
def belongs (envelope : CommonEnvelope) : Bool :=
  let observed := envelope.scopeDigest.map Digest.text
  let inScope := observed = some (self.scope.digest self.hashing).text &&
    identityBelongsToScope self.hashing envelope.workflowId .workflow self.scope
  legacyLocalUnscopedPolicy.owns self.hashing observed self.scope || inScope

/-- The guarded part of `_process_message`. -/
def readEnvelope (body : DecodedText) : Except ReadFailure ResponseEnvelope :=
  match body.strict with
  | none => .error .malformed
  | some text =>
      if text.utf8ByteSize ≤ self.limits.signalPayloadBytes then do
        let value ← self.host.reads text
        match parseResponseEnvelope self.hashing value with
        | none => .error .malformed
        | some envelope =>
            if self.belongs envelope.common then .ok envelope else .error .malformed
      else .error .malformed

/-- `_deliver`. -/
def deliver (reply : SignalReply) (envelope : ResponseEnvelope) : Processed :=
  let signal := envelope.signal
  if self.host.dumps signal.payload then
    match reply with
    | .accepted => ⟨some .ack, [signal]⟩
    | .notFound => ⟨some (.deadLetter "workflow execution not found"), [signal]⟩
    | .rpcFailure | .failure => ⟨some (.retry "Temporal signal failed"), [signal]⟩
  else ⟨some (.retry "Temporal signal failed"), []⟩

/-- `_process_message`, given what the deduplication store and Temporal answer. -/
def processMessage (body : DecodedText) (claim : ClaimResult) (reply : SignalReply) : Processed :=
  match self.readEnvelope body with
  | .error .malformed => ⟨some malformedResponse, []⟩
  | .error .escaped => ⟨none, []⟩
  | .ok envelope =>
      match claim with
      | .completed => ⟨some .ack, []⟩
      | .inFlight | .capacityExhausted =>
          ⟨some (.retry "response delivery is in flight or capacity is exhausted"), []⟩
      | .claimed => self.deliver reply envelope

/-! ## Confinement -/

/-- The message carries this envelope, and the relay reads it. -/
def Carries (body : DecodedText) (envelope : ResponseEnvelope) : Prop :=
  ∃ text value, body.strict = some text ∧
    text.utf8ByteSize ≤ self.limits.signalPayloadBytes ∧
    self.host.reads text = .ok value ∧
    parseResponseEnvelope self.hashing value = some envelope

/-- The envelope names a workflow of the relay's scope. -/
def NamesOwn (envelope : ResponseEnvelope) : Prop :=
  identityBelongsToScope self.hashing envelope.common.workflowId .workflow self.scope = true

/-- Only workflows of the scope are signalled, and a message for any other is rejected. -/
structure Confined (relay : Relay) (body : DecodedText) (processed : Processed) : Prop where
  signals : ∀ signal ∈ processed.signals,
    identityBelongsToScope relay.hashing signal.workflowId .workflow relay.scope = true
  rejected : ∀ envelope, relay.Carries body envelope → ¬ relay.NamesOwn envelope →
    (∃ reason, processed.outcome = some (.deadLetter reason)) ∧ processed.signals = []

variable {self}

theorem readEnvelope_eq_ok_iff {body : DecodedText} {envelope : ResponseEnvelope} :
    self.readEnvelope body = .ok envelope ↔
      self.Carries body envelope ∧ self.belongs envelope.common = true := by
  rw [readEnvelope, Carries]
  constructor
  · intro h
    split at h
    · cases h
    · next text strict =>
        split at h
        · next fits =>
            cases read : self.host.reads text with
            | error failure => simp [read, bind, Except.bind] at h
            | ok value =>
                simp only [read, bind, Except.bind] at h
                cases parsed : parseResponseEnvelope self.hashing value with
                | none => simp [parsed] at h
                | some found =>
                    simp only [parsed] at h
                    split at h
                    · next belongs =>
                        cases h
                        exact ⟨⟨text, value, strict, fits, read, parsed⟩, belongs⟩
                    · cases h
        · cases h
  · rintro ⟨⟨text, value, strict, fits, read, parsed⟩, belongs⟩
    simp [strict, fits, read, parsed, belongs, bind, Except.bind]

/-- A relay of a tenant checks the digest of an envelope, and nothing else. -/
theorem belongs_iff_of_ne_local (tenant : self.scope ≠ localRuntimeScope)
    {envelope : CommonEnvelope} :
    self.belongs envelope = true ↔
      envelope.scopeDigest = some (self.scope.digest self.hashing) := by
  rw [belongs, Bool.or_eq_true, owns_iff_of_ne_local tenant]
  have digests : envelope.scopeDigest.map Digest.text =
      some (self.scope.digest self.hashing).text ↔
      envelope.scopeDigest = some (self.scope.digest self.hashing) := by
    cases envelope.scopeDigest with
    | none => simp
    | some digest =>
        simp only [Option.map_some, Option.some.injEq]
        exact ⟨Digest.ext_text, congrArg Digest.text⟩
  constructor
  · rintro (own | inScope)
    · exact digests.mp own
    · simp only [Bool.and_eq_true, decide_eq_true_eq] at inScope
      exact digests.mp inScope.1
  · intro own
    exact Or.inl (digests.mpr own)

/-- An accepted message is not rejected without a signal. -/
theorem processMessage_accepted {body : DecodedText} {envelope : ResponseEnvelope}
    (accepted : self.readEnvelope body = .ok envelope) (claim : ClaimResult)
    (reply : SignalReply) :
    ¬ ((∃ reason, (self.processMessage body claim reply).outcome = some (.deadLetter reason)) ∧
      (self.processMessage body claim reply).signals = []) := by
  rw [processMessage, accepted]
  cases claim with
  | claimed =>
      simp only [deliver]
      split
      · cases reply <;> simp
      · simp
  | completed | inFlight | capacityExhausted => simp

/-- Every signal is for an accepted message, and for the workflow that it names. -/
theorem processMessage_signals {body : DecodedText} {claim : ClaimResult} {reply : SignalReply}
    {signal : SentSignal} (sent : signal ∈ (self.processMessage body claim reply).signals) :
    ∃ envelope, self.readEnvelope body = .ok envelope ∧ signal = envelope.signal := by
  rw [processMessage] at sent
  cases read : self.readEnvelope body with
  | error failure => cases failure <;> simp [read] at sent
  | ok envelope =>
      rw [read] at sent
      refine ⟨envelope, rfl, ?_⟩
      cases claim with
      | claimed =>
          simp only [deliver] at sent
          split at sent
          · cases reply <;> simpa using sent
          · simp at sent
      | completed | inFlight | capacityExhausted => simp at sent

theorem processMessage_refused {body : DecodedText} {envelope : ResponseEnvelope}
    (carried : self.Carries body envelope) (foreign : self.belongs envelope.common = false)
    (claim : ClaimResult) (reply : SignalReply) :
    self.processMessage body claim reply = ⟨some malformedResponse, []⟩ := by
  obtain ⟨text, value, strict, fits, read, parsed⟩ := carried
  rw [processMessage]
  have refused : self.readEnvelope body = .error .malformed := by
    simp [readEnvelope, strict, fits, read, parsed, foreign, bind, Except.bind]
  rw [refused]

end Relay

/-- A relay of a tenant is confined on a message exactly if no envelope under its own digest names
a workflow of another scope. -/
theorem relay_confined_iff {relay : Relay} (tenant : relay.scope ≠ localRuntimeScope)
    (body : DecodedText) (claim : ClaimResult) (reply : SignalReply) :
    relay.Confined body (relay.processMessage body claim reply) ↔
      ∀ envelope, relay.Carries body envelope →
        envelope.common.scopeDigest = some (relay.scope.digest relay.hashing) →
        relay.NamesOwn envelope := by
  constructor
  · intro confined envelope carried own
    by_contra other
    have accepted := Relay.readEnvelope_eq_ok_iff.mpr
      ⟨carried, (Relay.belongs_iff_of_ne_local tenant).mpr own⟩
    exact Relay.processMessage_accepted accepted claim reply
      (confined.rejected envelope carried other)
  · intro honest
    constructor
    · intro signal sent
      obtain ⟨envelope, accepted, rfl⟩ := Relay.processMessage_signals sent
      obtain ⟨carried, belongs⟩ := Relay.readEnvelope_eq_ok_iff.mp accepted
      exact honest envelope carried ((Relay.belongs_iff_of_ne_local tenant).mp belongs)
    · intro envelope carried other
      have foreign : relay.belongs envelope.common = false := by
        rw [Bool.eq_false_iff]
        intro belongs
        exact other (honest envelope carried ((Relay.belongs_iff_of_ne_local tenant).mp belongs))
      rw [Relay.processMessage_refused carried foreign]
      exact ⟨⟨_, rfl⟩, rfl⟩

/-! ## Another tenant's workflow -/

section ForeignEvent

theorem digestText_text (digest : Digest) : digestText (.text digest.text) = some digest := by
  have shape : digest.text.length = 64 ∧ digest.text.toList.all isHexDigit = true :=
    ⟨digest.length, digest.hex⟩
  simp only [digestText, Decoded.asText_text, Option.bind_eq_bind, Option.bind_some]
  rw [dif_pos shape, Digest.checked_text]

theorem textWithin_text {limit : Nat} {s : String} (bounds : 1 ≤ s.length ∧ s.length ≤ limit) :
    textWithin limit (.text s) = some s := by
  simp [textWithin, bounds]

/-- An event for one workflow, under the digest of one scope. -/
def eventMessage (workflowId : String) (scopeDigest : Digest) : JsonValue :=
  .obj [("protocol_version", .str "1"), ("message_id", .str "event-1"), ("kind", .str "event"),
    ("workflow_name", .str "orders"), ("definition_digest", .str (Digest.ofNat 0).text),
    ("workflow_id", .str workflowId), ("correlation_id", .str "request-1"),
    ("scope_digest", .str scopeDigest.text), ("workflow_run_id", .str "run-1"),
    ("event_name", .str "approved")]

theorem parse_eventMessage (hashing : Hashing) {workflowId : String} {scopeDigest : Digest}
    (bounds : 1 ≤ workflowId.length ∧ workflowId.length ≤ maxMessageIdentifierLength) :
    ∃ envelope, parseResponseEnvelope hashing (.ofJson (eventMessage workflowId scopeDigest)) =
        some (.event envelope) ∧
      envelope.common.scopeDigest = some scopeDigest ∧
      envelope.common.workflowId = workflowId := by
  have within {s : String} := @textWithin_text maxMessageIdentifierLength s
  simp [parseResponseEnvelope, eventMessage, EventEnvelope.modelValidate, commonEnvelopeKeys,
    CommonEnvelope.modelValidate, List.lookup_cons, required, Digest.length, digestText_text,
    within bounds, @within "event-1" (by decide), @within "orders" (by decide),
    @within "request-1" (by decide), @within "run-1" (by decide),
    @within "approved" (by decide), Decoded.optional.eq_1]

open JsonValue in
/-- An event is far below the limit of a payload. -/
theorem eventMessage_size {workflowId : String}
    (within : workflowId.length ≤ maxMessageIdentifierLength) (scopeDigest : Digest) :
    (eventMessage workflowId scopeDigest).text.utf8ByteSize ≤ 262144 := by
  have value {s : String} (h : s.length ≤ 256) : (quote s).utf8ByteSize ≤ 1538 :=
    utf8ByteSize_quote_le h
  have names : ∀ name ∈ ["protocol_version", "message_id", "kind", "workflow_name",
      "definition_digest", "workflow_id", "correlation_id", "scope_digest", "workflow_run_id",
      "event_name"], (quote name).utf8ByteSize ≤ 40 := by
    decide
  have texts : ∀ s ∈ ["1", "event-1", "event", "orders", "request-1", "run-1", "approved"],
      (quote s).utf8ByteSize ≤ 40 := by
    decide
  have braces : "\x7b".utf8ByteSize = 1 ∧ "\x7d".utf8ByteSize = 1 := by decide
  have workflow := value within
  have definition := value ((Digest.ofNat 0).length.le.trans (by decide))
  have scope := value (scopeDigest.length.le.trans (by decide))
  simp only [List.forall_mem_cons] at names texts
  rw [eventMessage, text, String.utf8ByteSize_append, String.utf8ByteSize_append, braces.1,
    braces.2]
  refine (Nat.add_le_add_right (Nat.add_le_add_left (utf8ByteSize_textFields_le _) 1) 1).trans ?_
  simp only [List.map_cons, List.map_nil, List.sum_cons, List.sum_nil, text]
  omega

def initechWorkflow : String :=
  initechScope.identity lengthHash .workflow ["orders", "request-1"]

theorem length_initechWorkflow : initechWorkflow.length = 142 := by
  simp only [initechWorkflow, RuntimeScope.identity, Hashing.scopedIdentity,
    String.length_append, Digest.length]
  decide

def foreignEvent : JsonValue :=
  eventMessage initechWorkflow (acmeScope.digest lengthHash)

theorem foreignEvent_size : foreignEvent.text.utf8ByteSize ≤ 262144 := by
  apply eventMessage_size
  rw [length_initechWorkflow]
  decide

/-- The relay of the first scope, whose reader knows the one message. -/
def acmeRelay : Relay where
  hashing := lengthHash
  host :=
    { reads text :=
        if text = foreignEvent.text then .ok (.ofJson foreignEvent) else .error .malformed
      dumps _ := true }
  limits := defaultRuntimeLimits
  scope := acmeScope

theorem acmeRelay_carries : ∃ envelope,
    acmeRelay.Carries (.ofString foreignEvent.text) (.event envelope) ∧
      envelope.common.scopeDigest = some (acmeScope.digest lengthHash) ∧
      envelope.common.workflowId = initechWorkflow := by
  have bounds : 1 ≤ initechWorkflow.length ∧
      initechWorkflow.length ≤ maxMessageIdentifierLength := by
    rw [length_initechWorkflow]
    decide
  obtain ⟨envelope, parsed, digest, workflow⟩ := @parse_eventMessage lengthHash initechWorkflow
    (acmeScope.digest lengthHash) bounds
  refine ⟨envelope, ⟨foreignEvent.text, .ofJson foreignEvent, ?_, foreignEvent_size, ?_, parsed⟩,
    digest, workflow⟩
  · exact DecodedText.strict_ofString _
  · simp [acmeRelay]

/-- The relay of one tenant signals a workflow of another. -/
theorem foreign_signal : acmeRelay.scope ≠ localRuntimeScope ∧
    acmeRelay.scope.digest lengthHash ≠ initechScope.digest lengthHash ∧
    ((acmeRelay.processMessage (.ofString foreignEvent.text) .claimed .accepted).signals.map
      SentSignal.workflowId) = [initechScope.identity lengthHash .workflow ["orders", "request-1"]] ∧
    ¬ acmeRelay.Confined (.ofString foreignEvent.text)
      (acmeRelay.processMessage (.ofString foreignEvent.text) .claimed .accepted) := by
  obtain ⟨envelope, carried, digest, workflow⟩ := acmeRelay_carries
  have belongs := (@Relay.belongs_iff_of_ne_local acmeRelay acmeScope_ne_local _).mpr digest
  have accepted : acmeRelay.readEnvelope (.ofString foreignEvent.text) = .ok (.event envelope) :=
    Relay.readEnvelope_eq_ok_iff.mpr ⟨carried, belongs⟩
  have foreign : ¬ acmeRelay.NamesOwn (.event envelope) := by
    intro own
    simp only [Relay.NamesOwn, ResponseEnvelope.common, workflow, initechWorkflow] at own
    exact digests_apart.1 (identity_belongs_iff.mp own).2
  refine ⟨acmeScope_ne_local, digests_apart.1, ?_, ?_⟩
  · rw [Relay.processMessage, accepted]
    simp [Relay.deliver, acmeRelay, ResponseEnvelope.signal, ResponseEnvelope.common, workflow,
      initechWorkflow]
  · intro confined
    exact Relay.processMessage_accepted accepted .claimed .accepted
      (confined.rejected _ carried foreign)

theorem relay_confined_iff_foreignEvent :
    acmeRelay.Confined (.ofString foreignEvent.text)
      (acmeRelay.processMessage (.ofString foreignEvent.text) .claimed .accepted) ↔
      ∀ envelope, acmeRelay.Carries (.ofString foreignEvent.text) envelope →
        envelope.common.scopeDigest = some (acmeScope.digest lengthHash) →
        acmeRelay.NamesOwn envelope :=
  relay_confined_iff acmeScope_ne_local _ _ _

end ForeignEvent

end Justflow
