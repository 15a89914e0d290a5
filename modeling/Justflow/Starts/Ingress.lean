import Mathlib.Algebra.BigOperators.Group.List.Basic
import Mathlib.Algebra.Group.Action.Defs
import Justflow.Config.Grammar
import Justflow.Engine.Relay
import Justflow.Starts.Starter

/-!
# Trigger ingress and the disposition of deliveries

The ingress takes triggers from a broker and starts the workflow that each one names.  Like the
relay it settles a delivery with what `_process_message` returns, and a delivery whose processing
raises is not settled.  `deliveries_disposed_iff` says which message bodies are acknowledged,
retried or dead-lettered as they must be, whatever the starter and Temporal answer.
-/

namespace Justflow

open Envelope

/-! ## Triggers -/

structure TriggerEnvelope where
  common : CommonEnvelope
  businessRequestId : String
  input : Decoded

namespace TriggerEnvelope

/-- `validate_workflow_identity`. -/
def validateWorkflowIdentity (hashing : Hashing) (self : TriggerEnvelope) :
    Option TriggerEnvelope :=
  let parts := [self.common.workflowName, self.businessRequestId]
  let expected := match self.common.scopeDigest with
    | none => stableIdentity hashing ("workflow" :: parts)
    | some scopeDigest => hashing.scopedIdentity "workflow" scopeDigest parts
  if self.common.workflowId = expected then some self else none

/-- `dict[str, Any]`, empty by default. -/
def modelValidateInput : Option Decoded → Option Decoded
  | none => some (.obj [])
  | some (.obj fields) =>
      if fields.all fun entry => entry.1.strict.isSome then some (.obj fields) else none
  | some _ => none

def modelValidate (hashing : Hashing) (v : Decoded) : Option TriggerEnvelope := do
  if v.keysWithin (commonEnvelopeKeys ++ ["business_request_id", "input"]) then
    let kind ← (← v.field "kind").asText
    if kind = "trigger" then
      validateWorkflowIdentity hashing {
        common := ← CommonEnvelope.modelValidate v
        businessRequestId := ← required v "business_request_id" maxMessageIdentifierLength
        input := ← modelValidateInput (v.field "input") }
    else none
  else none

end TriggerEnvelope

def isProviderChar (c : Char) : Bool :=
  ('a' ≤ c && c ≤ 'z') || ('0' ≤ c && c ≤ '9')

/-- The rest of a provider name, after a letter or a digit. -/
def isProviderRest : List Char → Bool
  | [] => true
  | [c] => isProviderChar c
  | c :: d :: rest =>
      if isProviderChar c then isProviderRest (d :: rest)
      else "._-".toList.contains c && isProviderChar d && isProviderRest rest

def validProviderName (name : String) : Bool :=
  decide (name.length ≤ 64) && match name.toList with
    | [] => false
    | c :: rest => 'a' ≤ c && c ≤ 'z' && isProviderRest rest

/-- The checks of `StartWorkflowRequest` that a trigger envelope has not been held to. -/
def TriggerEnvelope.requestable (source : String) (self : TriggerEnvelope) : Bool :=
  validIdentifier self.common.workflowName && self.common.definitionDigest.toList.all isHexDigit
    && validProviderName source

/-! ## Processing -/

/-- How `WorkflowStarter.start` ends. -/
inductive StartReply where
  | returned (status : StartStatus)
  | failed (error : WorkflowStartError)

/-- How `CloudEventIngress.receive` ends. -/
inductive CloudEventReply where
  | start (reply : StartReply)
  | unmapped (retryable : Bool) (deadLetterReason : String)

def StartErrorCode.value : StartErrorCode → String
  | .invalidRequest => "invalid_request"
  | .unknownWorkflow => "unknown_workflow"
  | .definitionUnavailable => "definition_unavailable"
  | .incompatibleWorker => "incompatible_worker"
  | .inputRejected => "input_rejected"
  | .configurationError => "configuration_error"
  | .triggerPaused => "trigger_paused"
  | .triggerUnavailable => "trigger_unavailable"
  | .temporalUnavailable => "temporal_unavailable"

structure TriggerIngress where
  hashing : Hashing
  /-- `loads_strict_json`: `StrictJsonError`, or another exception. -/
  reads : String → Except ReadFailure Decoded
  limits : RuntimeLimits
  scope : RuntimeScope
  source : String
  cloudEventMapping : Option String

/-- What the starter is asked, if it is. -/
structure TriggerProcessed where
  outcome : Option ProcessingOutcome
  starts : Nat

namespace TriggerIngress

variable (self : TriggerIngress)

def malformedTrigger : ProcessingOutcome :=
  .deadLetter "malformed trigger envelope"

/-- The result of a start request, or its `WorkflowStartError`. -/
def startOutcome : StartReply → ProcessingOutcome
  | .returned _ => .ack
  | .failed error =>
      if error.retryable then .retry "Temporal workflow start failed"
      else .deadLetter error.code.value

/-- The body as a JSON value. -/
def readBody (body : DecodedText) : Except ReadFailure Decoded :=
  match body.strict with
  | none => .error .malformed
  | some text =>
      if text.utf8ByteSize ≤ self.limits.triggerPayloadBytes then self.reads text
      else .error .malformed

/-- `_process_cloud_event`. -/
def processCloudEvent : CloudEventReply → TriggerProcessed
  | .start reply => ⟨some (startOutcome reply), 1⟩
  | .unmapped retryable reason =>
      ⟨some (if retryable then .retry reason else .deadLetter reason), 0⟩

/-- `_process_message`, given what the starter and the mapping answer.  A request that its model
refuses raises a `ValidationError`, which is not a `WorkflowStartError`. -/
def processMessage (body : DecodedText) (reply : StartReply) (event : CloudEventReply) :
    TriggerProcessed :=
  match self.readBody body with
  | .error .malformed => ⟨some malformedTrigger, 0⟩
  | .error .escaped => ⟨none, 0⟩
  | .ok payload =>
      match self.cloudEventMapping with
      | some _ => processCloudEvent event
      | none =>
          match TriggerEnvelope.modelValidate self.hashing payload with
          | none => ⟨some malformedTrigger, 0⟩
          | some trigger =>
              if legacyLocalUnscopedPolicy.owns self.hashing
                  (trigger.common.scopeDigest.map Digest.text) self.scope then
                if trigger.requestable self.source then ⟨some (startOutcome reply), 1⟩
                else ⟨none, 0⟩
              else ⟨some (.deadLetter "invalid runtime scope"), 0⟩

end TriggerIngress

/-- `_handle_delivery`: the outcomes that `settle` is called with. -/
def settleCalls (outcome : Option ProcessingOutcome) : List ProcessingOutcome :=
  outcome.toList

/-! ## Dispositions -/

/-- The body is a text within the limit. -/
def BodyWithin (body : DecodedText) (limit : Nat) (text : String) : Prop :=
  body.strict = some text ∧ text.utf8ByteSize ≤ limit

theorem BodyWithin.unique {body : DecodedText} {limit : Nat} {text other : String}
    (fits : BodyWithin body limit text) (also : BodyWithin body limit other) : other = text :=
  Option.some.inj (also.1.symm.trans fits.1)

namespace TriggerIngress

variable (self : TriggerIngress)

def settles (body : DecodedText) (reply : StartReply) (event : CloudEventReply) :
    List ProcessingOutcome :=
  settleCalls (self.processMessage body reply event).outcome

/-- The workflow was started or existed. -/
def Started (reply : StartReply) (event : CloudEventReply) : Prop :=
  match self.cloudEventMapping with
  | none => ∃ status, reply = .returned status
  | some _ => ∃ status, event = .start (.returned status)

/-- The body is settled once, acknowledged only for a start, and dead-lettered when no answer could
ever lead to one. -/
structure Disposes (ingress : TriggerIngress) (body : DecodedText) : Prop where
  once : ∀ reply event, ∃ outcome, ingress.settles body reply event = [outcome]
  acknowledged : ∀ reply event, .ack ∈ ingress.settles body reply event →
    (ingress.processMessage body reply event).starts = 1 ∧ ingress.Started reply event
  hopeless : (∀ reply event, .ack ∉ ingress.settles body reply event) →
    ∀ reply event, ∃ reason, .deadLetter reason ∈ ingress.settles body reply event

/-- The JSON reader raises nothing but its own error on the text, and the request of an owned
trigger is valid. -/
structure Clean (ingress : TriggerIngress) (body : DecodedText) : Prop where
  reads : ∀ text, BodyWithin body ingress.limits.triggerPayloadBytes text →
    ingress.reads text ≠ .error .escaped
  requestable : ∀ text payload trigger, BodyWithin body ingress.limits.triggerPayloadBytes text →
    ingress.reads text = .ok payload → ingress.cloudEventMapping = none →
    TriggerEnvelope.modelValidate ingress.hashing payload = some trigger →
    legacyLocalUnscopedPolicy.owns ingress.hashing (trigger.common.scopeDigest.map Digest.text)
      ingress.scope = true →
    trigger.requestable ingress.source = true

variable {ingress : TriggerIngress} {body : DecodedText}

theorem readBody_of_fits {text : String}
    (fits : BodyWithin body ingress.limits.triggerPayloadBytes text) :
    ingress.readBody body = ingress.reads text := by
  rw [readBody, fits.1]
  exact if_pos fits.2

/-- A body that is not a text within the limit is malformed. -/
theorem readBody_eq_malformed
    (misfit : ¬ ∃ text, BodyWithin body ingress.limits.triggerPayloadBytes text) :
    ingress.readBody body = .error .malformed := by
  rw [readBody]
  cases strict : body.strict with
  | none => rfl
  | some text => exact if_neg fun size => misfit ⟨text, strict, size⟩

theorem startOutcome_eq_ack {reply : StartReply} (h : startOutcome reply = .ack) :
    ∃ status, reply = .returned status := by
  cases reply with
  | returned status => exact ⟨status, rfl⟩
  | failed error =>
      rw [startOutcome] at h
      split at h <;> cases h

/-- A body whose processing asks for a start when the answers say so. -/
theorem disposes_of_processed {processed : StartReply → CloudEventReply → TriggerProcessed}
    (same : ∀ reply event, ingress.processMessage body reply event = processed reply event)
    (once : ∀ reply event, ∃ outcome, (processed reply event).outcome = some outcome)
    (acked : ∀ reply event, (processed reply event).outcome = some .ack →
      (processed reply event).starts = 1 ∧ ingress.Started reply event)
    (hopeless : (∀ reply event, (processed reply event).outcome ≠ some .ack) →
      ∀ reply event, ∃ reason, (processed reply event).outcome = some (.deadLetter reason)) :
    ingress.Disposes body := by
  refine ⟨fun reply event => ?_, fun reply event mem => ?_, fun never reply event => ?_⟩
  · obtain ⟨outcome, h⟩ := once reply event
    exact ⟨outcome, by rw [settles, settleCalls, same, h]; rfl⟩
  · rw [settles, settleCalls, same, Option.mem_toList] at mem
    rw [same]
    exact acked reply event mem
  · have none : ∀ reply event, (processed reply event).outcome ≠ some .ack := by
      intro reply event acked
      apply never reply event
      rw [settles, settleCalls, same, Option.mem_toList]
      exact acked
    obtain ⟨reason, h⟩ := hopeless none reply event
    exact ⟨reason, by rw [settles, settleCalls, same, Option.mem_toList]; exact h⟩

/-- A body that is dead-lettered whatever is answered. -/
theorem disposes_of_deadLetter (reason : String)
    (same : ∀ reply event,
      ingress.processMessage body reply event = ⟨some (.deadLetter reason), 0⟩) :
    ingress.Disposes body :=
  disposes_of_processed same (fun _ _ => ⟨_, rfl⟩) (fun _ _ h => nomatch h)
    (fun _ _ _ => ⟨reason, rfl⟩)

/-- A body whose processing raises is not settled. -/
theorem not_disposes_of_raised
    (same : ∀ reply event, ingress.processMessage body reply event = ⟨none, 0⟩) :
    ¬ ingress.Disposes body := by
  rintro ⟨once, -, -⟩
  obtain ⟨outcome, h⟩ := once (.returned .started) (.unmapped false "")
  rw [settles, settleCalls, same] at h
  cases h

/-- A request to the starter is acknowledged when it returns. -/
theorem disposes_of_start (direct : ingress.cloudEventMapping = none)
    (same : ∀ reply event,
      ingress.processMessage body reply event = ⟨some (startOutcome reply), 1⟩) :
    ingress.Disposes body := by
  refine disposes_of_processed same (fun _ _ => ⟨_, rfl⟩) (fun reply event acked => ⟨rfl, ?_⟩)
    (fun never => absurd rfl (never (.returned .started) (.unmapped false "")))
  rw [Started, direct]
  exact startOutcome_eq_ack (Option.some.inj acked)

theorem disposes_of_cloudEvent {mapping : String}
    (mapped : ingress.cloudEventMapping = some mapping)
    (same : ∀ reply event, ingress.processMessage body reply event = processCloudEvent event) :
    ingress.Disposes body := by
  refine disposes_of_processed same (fun _ event => ?_) (fun reply event acked => ?_)
    (fun never => absurd rfl (never (.returned .started) (.start (.returned .started))))
  · cases event <;> exact ⟨_, rfl⟩
  · rw [Started, mapped]
    cases event with
    | start reply =>
        obtain ⟨status, rfl⟩ := startOutcome_eq_ack (Option.some.inj acked)
        exact ⟨rfl, status, rfl⟩
    | unmapped retryable reason =>
        rw [processCloudEvent] at acked
        cases retryable <;> cases acked

/-- An owned trigger is disposed of when its request is valid. -/
theorem disposes_iff_requestable {payload : Decoded} {trigger : TriggerEnvelope}
    (read : ingress.readBody body = .ok payload) (direct : ingress.cloudEventMapping = none)
    (parsed : TriggerEnvelope.modelValidate ingress.hashing payload = some trigger) :
    ingress.Disposes body ↔
      (legacyLocalUnscopedPolicy.owns ingress.hashing (trigger.common.scopeDigest.map Digest.text)
        ingress.scope = true → trigger.requestable ingress.source = true) := by
  cases owned : legacyLocalUnscopedPolicy.owns ingress.hashing
      (trigger.common.scopeDigest.map Digest.text) ingress.scope with
  | false =>
      refine iff_of_true (disposes_of_deadLetter "invalid runtime scope"
        fun reply event => ?_) nofun
      rw [processMessage, read]
      simp only [direct, parsed, owned]
      rfl
  | true =>
      cases valid : trigger.requestable ingress.source with
      | true =>
          refine iff_of_true (disposes_of_start direct fun reply event => ?_) fun _ => rfl
          rw [processMessage, read]
          simp only [direct, parsed, owned, valid, if_true]
      | false =>
          refine iff_of_false (not_disposes_of_raised fun reply event => ?_)
            fun all => nomatch all rfl
          rw [processMessage, read]
          simp only [direct, parsed, owned, valid, if_true, Bool.false_eq_true, if_false]

/-- A malformed body is dead-lettered. -/
theorem disposes_of_malformed (read : ingress.readBody body = .error .malformed) :
    ingress.Disposes body := by
  refine disposes_of_deadLetter "malformed trigger envelope" fun reply event => ?_
  rw [processMessage, read]
  rfl

theorem disposes_iff (ingress : TriggerIngress) (body : DecodedText) :
    ingress.Disposes body ↔ ingress.Clean body := by
  by_cases fit : ∃ text, BodyWithin body ingress.limits.triggerPayloadBytes text
  · obtain ⟨text, fits⟩ := fit
    have read := readBody_of_fits fits
    cases result : ingress.reads text with
    | error failure =>
        rw [result] at read
        cases failure with
        | malformed =>
            refine iff_of_true (disposes_of_malformed read) ⟨?_, ?_⟩
            · intro other also
              rw [fits.unique also, result]
              exact nofun
            · intro other payload trigger also found
              rw [fits.unique also, result] at found
              cases found
        | escaped =>
            refine iff_of_false (not_disposes_of_raised fun reply event => ?_)
              fun clean => clean.reads text fits result
            rw [processMessage, read]
    | ok payload =>
        rw [result] at read
        have kept : ∀ other, BodyWithin body ingress.limits.triggerPayloadBytes other →
            ingress.reads other ≠ .error .escaped := by
          intro other also
          rw [fits.unique also, result]
          exact nofun
        have clean_iff : ingress.Clean body ↔ (ingress.cloudEventMapping = none →
            ∀ trigger, TriggerEnvelope.modelValidate ingress.hashing payload = some trigger →
              legacyLocalUnscopedPolicy.owns ingress.hashing
                (trigger.common.scopeDigest.map Digest.text) ingress.scope = true →
              trigger.requestable ingress.source = true) := by
          constructor
          · exact fun clean direct trigger parsed =>
              clean.requestable text payload trigger fits result direct parsed
          · intro valid
            refine ⟨kept, fun other found trigger also same direct parsed => ?_⟩
            rw [fits.unique also, result] at same
            cases same
            exact valid direct trigger parsed
        rw [clean_iff]
        cases mapping : ingress.cloudEventMapping with
        | some name =>
            refine iff_of_true (disposes_of_cloudEvent mapping fun reply event => ?_) nofun
            rw [processMessage, read]
            simp only [mapping]
        | none =>
            cases parsed : TriggerEnvelope.modelValidate ingress.hashing payload with
            | none =>
                refine iff_of_true (disposes_of_deadLetter "malformed trigger envelope"
                  fun reply event => ?_) fun _ _ => nofun
                rw [processMessage, read]
                simp only [mapping, parsed]
                rfl
            | some trigger =>
                rw [disposes_iff_requestable read mapping parsed]
                constructor
                · rintro valid - other ⟨⟩
                  exact valid
                · exact fun valid => valid rfl trigger rfl
  · refine iff_of_true (disposes_of_malformed (readBody_eq_malformed fit)) ⟨?_, ?_⟩
    · exact fun text fits => absurd ⟨text, fits⟩ fit
    · exact fun text _ _ fits => absurd ⟨text, fits⟩ fit

end TriggerIngress

namespace Relay

variable (self : Relay)

def settles (body : DecodedText) (claim : ClaimResult) (reply : SignalReply) :
    List ProcessingOutcome :=
  settleCalls (self.processMessage body claim reply).outcome

/-- The body is settled once, acknowledged only when its signal was accepted or its message was
completed before, and dead-lettered when no answer to a delivery that is claimed could ever lead to
an acknowledgement. -/
structure Disposes (relay : Relay) (body : DecodedText) : Prop where
  once : ∀ claim reply, ∃ outcome, relay.settles body claim reply = [outcome]
  acknowledged : ∀ claim reply, .ack ∈ relay.settles body claim reply →
    claim = .completed ∨ claim = .claimed ∧ reply = .accepted ∧
      (relay.processMessage body claim reply).signals.length = 1
  hopeless : (∀ reply, .ack ∉ relay.settles body .claimed reply) →
    ∀ reply, ∃ reason, .deadLetter reason ∈ relay.settles body .claimed reply

/-- The reader raises nothing but `JSONDecodeError` on the text, and the signal of an envelope that
belongs to the scope can be dumped. -/
structure Clean (relay : Relay) (body : DecodedText) : Prop where
  reads : ∀ text, BodyWithin body relay.limits.signalPayloadBytes text →
    relay.host.reads text ≠ .error .escaped
  dumps : ∀ envelope, relay.Carries body envelope → relay.belongs envelope.common = true →
    relay.host.dumps envelope.signal.payload = true

variable {relay : Relay} {body : DecodedText}

theorem disposes_of_malformed (read : relay.readEnvelope body = .error .malformed) :
    relay.Disposes body := by
  have same : ∀ claim reply, relay.settles body claim reply = [malformedResponse] := by
    intro claim reply
    rw [settles, processMessage, read]
    rfl
  refine ⟨fun claim reply => ⟨_, same claim reply⟩, fun claim reply mem => ?_, fun _ reply => ?_⟩
  · rw [same, List.mem_singleton] at mem
    cases mem
  · exact ⟨_, by rw [same]; exact List.mem_singleton_self _⟩

theorem not_disposes_of_escaped (read : relay.readEnvelope body = .error .escaped) :
    ¬ relay.Disposes body := by
  rintro ⟨once, -, -⟩
  obtain ⟨outcome, h⟩ := once .claimed .accepted
  rw [settles, processMessage, read] at h
  cases h

theorem disposes_of_dumps {envelope : ResponseEnvelope}
    (read : relay.readEnvelope body = .ok envelope)
    (dumped : relay.host.dumps envelope.signal.payload = true) : relay.Disposes body := by
  have claimed : ∀ reply, relay.settles body .claimed reply =
      settleCalls (relay.deliver reply envelope).outcome := by
    intro reply
    rw [settles, processMessage, read]
  refine ⟨fun claim reply => ?_, fun claim reply mem => ?_, fun never => ?_⟩
  · rw [settles, processMessage, read]
    cases claim with
    | completed | inFlight | capacityExhausted => exact ⟨_, rfl⟩
    | claimed =>
        simp only [deliver, dumped, if_true]
        cases reply <;> exact ⟨_, rfl⟩
  · rw [settles, processMessage, read] at mem
    rw [processMessage, read]
    cases claim with
    | completed => exact .inl rfl
    | inFlight | capacityExhausted => simp [settleCalls] at mem
    | claimed =>
        simp only [deliver, dumped, if_true] at mem
        cases reply with
        | accepted => exact .inr ⟨rfl, rfl, by simp [deliver, dumped]⟩
        | notFound | rpcFailure | failure => simp [settleCalls] at mem
  · refine absurd ?_ (never .accepted)
    rw [claimed]
    simp [deliver, dumped, settleCalls]

/-- A signal that cannot be dumped is retried for ever. -/
theorem not_disposes_of_not_dumps {envelope : ResponseEnvelope}
    (read : relay.readEnvelope body = .ok envelope)
    (undumped : relay.host.dumps envelope.signal.payload = false) : ¬ relay.Disposes body := by
  have retried : ∀ reply,
      relay.settles body .claimed reply = [.retry "Temporal signal failed"] := by
    intro reply
    rw [settles, processMessage, read]
    simp [deliver, undumped, settleCalls]
  rintro ⟨-, -, hopeless⟩
  obtain ⟨reason, mem⟩ := hopeless (fun reply mem => by simp [retried] at mem) .accepted
  simp [retried] at mem

/-- The reader is what raises when reading an envelope raises. -/
theorem readEnvelope_escaped_iff : relay.readEnvelope body = .error .escaped ↔
    ∃ text, BodyWithin body relay.limits.signalPayloadBytes text ∧
      relay.host.reads text = .error .escaped := by
  rw [readEnvelope]
  cases strict : body.strict with
  | none => simp [BodyWithin, strict]
  | some text =>
      by_cases size : text.utf8ByteSize ≤ relay.limits.signalPayloadBytes
      · simp only [size, if_true, BodyWithin, strict, Option.some.injEq]
        constructor
        · intro raised
          refine ⟨text, ⟨rfl, size⟩, ?_⟩
          cases read : relay.host.reads text with
          | error failure =>
              rw [read] at raised
              change Except.error failure = Except.error _ at raised
              cases raised
              rfl
          | ok value =>
              cases parsed : parseResponseEnvelope relay.hashing value with
              | none =>
                  simp only [read, bind, Except.bind, parsed] at raised
                  cases raised
              | some envelope =>
                  simp only [read, bind, Except.bind, parsed] at raised
                  split at raised <;> cases raised
        · rintro ⟨other, ⟨rfl, -⟩, raised⟩
          rw [raised]
          rfl
      · simp [BodyWithin, strict, size]

theorem disposes_iff (relay : Relay) (body : DecodedText) :
    relay.Disposes body ↔ relay.Clean body := by
  cases read : relay.readEnvelope body with
  | error failure =>
      have carried : ∀ envelope, relay.Carries body envelope →
          relay.belongs envelope.common = true →
          relay.host.dumps envelope.signal.payload = true := by
        intro envelope carries own
        have found := relay.readEnvelope_eq_ok_iff.mpr ⟨carries, own⟩
        rw [read] at found
        cases found
      cases failure with
      | malformed =>
          refine iff_of_true (disposes_of_malformed read) ⟨fun text fits raised => ?_, carried⟩
          have escaped := readEnvelope_escaped_iff.mpr ⟨text, fits, raised⟩
          rw [read] at escaped
          cases escaped
      | escaped =>
          obtain ⟨text, fits, raised⟩ := readEnvelope_escaped_iff.mp read
          exact iff_of_false (not_disposes_of_escaped read) fun clean =>
            clean.reads text fits raised
  | ok envelope =>
      obtain ⟨carries, own⟩ := relay.readEnvelope_eq_ok_iff.mp read
      cases dumped : relay.host.dumps envelope.signal.payload with
      | true =>
          refine iff_of_true (disposes_of_dumps read dumped)
            ⟨fun text fits raised => ?_, fun other also owned => ?_⟩
          · have escaped := readEnvelope_escaped_iff.mpr ⟨text, fits, raised⟩
            rw [read] at escaped
            cases escaped
          · have found := relay.readEnvelope_eq_ok_iff.mpr ⟨also, owned⟩
            rw [read] at found
            cases found
            exact dumped
      | false =>
          refine iff_of_false (not_disposes_of_not_dumps read dumped) fun clean => ?_
          have := clean.dumps envelope carries own
          rw [dumped] at this
          cases this

end Relay

/-- An integer with more digits than the interpreter converts. -/
def longInteger : String :=
  String.join (List.replicate 4301 "1")

/-- The reader raises a `ValueError` on it that is not a `JSONDecodeError`. -/
def plainRelay : Relay where
  hashing := lengthHash
  host :=
    { reads text := if 4300 < text.utf8ByteSize then .error .escaped else .error .malformed
      dumps _ := true }
  limits := defaultRuntimeLimits
  scope := acmeScope

end Justflow
