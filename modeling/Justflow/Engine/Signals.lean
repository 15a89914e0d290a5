import Justflow.Library.Decoded
import Justflow.Engine.Continuation
import Justflow.Engine.Data
import Justflow.Engine.Pending

/-!
# Signal handlers

A handler measures the payload of a signal, validates and normalizes it, and appends it to the
buffer of the run.  It turns limit and validation failures into a classified failure of the
workflow; any other exception escapes, and the task that delivers the signal is tried again and
again.  `signals_total` says exactly which payloads are handled.
-/

open Fields

namespace Justflow

/-- `MAX_IDENTIFIER_LENGTH` of the message contract, twice that of authored names. -/
def maxMessageIdentifierLength : Nat := 256
def maxActionLength : Nat := 512

/-! ## Payloads -/

/-- A text of `min_length=1` and a maximal length. -/
def limitedText (limit : Nat) (value : JsonValue) : Option String := do
  let text ← value.asStr
  if 1 ≤ text.length ∧ text.length ≤ limit then some text else none

inductive ResponseStatus where
  | success | error
  deriving DecidableEq, Repr

def ResponseStatus.value : ResponseStatus → String
  | .success => "success"
  | .error => "error"

def ResponseStatus.find (value : JsonValue) : Option ResponseStatus :=
  [ResponseStatus.success, .error].find? fun status => value = .str status.value

structure SignalPayload where
  requestId : String
  stepName : String
  action : String
  status : ResponseStatus
  stepResponse : JsonValue
  error : Option JsonObject

def SignalPayload.modelValidate (v : JsonValue) : Option SignalPayload := do
  onlyKeys ["request_id", "step_name", "action", "status", "step_response", "error"] v
  return {
    requestId := ← limitedText maxMessageIdentifierLength (← v.field "request_id")
    stepName := ← limitedText maxMessageIdentifierLength (← v.field "step_name")
    action := ← limitedText maxActionLength (← v.field "action")
    status := ← ResponseStatus.find (← v.field "status")
    stepResponse := (v.field "step_response").getD .null
    error := ← ((v.field "error").getD .null).asOption JsonValue.asObj }

def SignalPayload.modelDump (self : SignalPayload) : JsonValue :=
  .obj [("request_id", .str self.requestId), ("step_name", .str self.stepName),
    ("action", .str self.action), ("status", .str self.status.value),
    ("step_response", self.stepResponse), ("error", .ofOption .obj self.error)]

structure EventPayload where
  signal : String
  data : JsonValue

def EventPayload.modelValidate (v : JsonValue) : Option EventPayload := do
  onlyKeys ["signal", "data"] v
  return {
    signal := ← limitedText maxMessageIdentifierLength (← v.field "signal")
    data := (v.field "data").getD .null }

/-- `make_signal_key`. -/
def makeSignalKey (requestId stepName action : String) : String :=
  requestId ++ ":" ++ stepName ++ ":" ++ action

/-! ## Handlers -/

/-- What the interpreter can do: walk a payload on its stack, and dump a model with its library. -/
structure Interpreter where
  walks : Decoded → Bool
  dumps : JsonValue → Bool

inductive SignalException where
  | engine (exc : EngineException)
  | validation
  | payloadSerialization
  | recursion
  | dump

/-- The failure of the workflow that a handler raises. -/
structure SignalFailure where
  requestId : Option String
  detail : FailureDetail

/-- What became of a signal, with the buffer after it. -/
inductive SignalOutcome where
  | appended (buffer : PendingMessages)
  | failed (failure : SignalFailure) (buffer : PendingMessages)
  | escaped (exc : SignalException) (buffer : PendingMessages)

/-- Run a step of a handler whose exceptions are those of the engine. -/
def ofEngine {α : Type} (result : Except EngineException α) : Except SignalException α :=
  result.mapError .engine

/-- `enforce_payload_bytes` on a decoded payload. -/
def measurePayload (interpreter : Interpreter) (payload : Decoded) (boundary : String) (limit : Nat) :
    Except SignalException JsonValue := do
  if interpreter.walks payload then
    match payload.strict with
    | none => throw .payloadSerialization
    | some value =>
        ofEngine (enforcePayloadBytes value boundary limit)
        return value
  else throw .recursion

/-- A result of pydantic, whose absence is a `ValidationError`. -/
def validSignal {α : Type} (result : Option α) : Except SignalException α :=
  match result with
  | some value => .ok value
  | none => .error .validation

/-- `model_dump(mode="json")`. -/
def dumped (interpreter : Interpreter) (value : JsonValue) : Except SignalException JsonValue :=
  if interpreter.dumps value then .ok value else .error .dump

/-- The guarded part of `_handle_signal`. -/
def appendResponse (interpreter : Interpreter) (limits : RuntimeLimits) (pending : PendingMessages)
    (payload : Decoded) : Except SignalException PendingMessages := do
  let value ← measurePayload interpreter payload "workflow.signal" limits.signalPayloadBytes
  let parsed ← validSignal (SignalPayload.modelValidate value)
  let dump ← dumped interpreter parsed.modelDump
  let normalized ← ofEngine (normalizeJsonValue limits.collectionItems dump "workflow.signal" 0)
  let key := makeSignalKey parsed.requestId parsed.stepName parsed.action
  ofEngine (pending.appendSignal limits key normalized)

/-- The guarded part of `_handle_event`. -/
def appendEventData (interpreter : Interpreter) (limits : RuntimeLimits) (pending : PendingMessages)
    (payload : Decoded) : Except SignalException PendingMessages := do
  let value ← measurePayload interpreter payload "workflow.event" limits.signalPayloadBytes
  let parsed ← validSignal (EventPayload.modelValidate value)
  let normalized ←
    ofEngine (normalizeJsonValue limits.collectionItems parsed.data "workflow.event.data" 0)
  ofEngine (pending.appendEvent limits parsed.signal normalized)

/-- `_request_id`. -/
def requestIdOf (payload : JsonValue) : Option String :=
  match (payload.field "request_id").bind JsonValue.asStr with
  | some value => some value
  | none => (((payload.field "trigger").bind (·.field "request_id")).bind JsonValue.asStr)

/-- `_envelope_error` for the signal phase. -/
def signalFailure (requestId : Option String) (code : FailureCode) (exc : EngineException) :
    SignalFailure where
  requestId := requestId.map fun text => bounded text maxCorrelationValueLength
  detail := classifyFailure exc .signal none (some code)

/-- The `except` clauses of a handler. -/
def classifySignal (pending : PendingMessages) (requestId : Option String) :
    Except SignalException PendingMessages → SignalOutcome
  | .ok buffer => .appended buffer
  | .error (.engine (.limitExceeded kind boundary actual limit)) =>
      .failed (signalFailure requestId .limitExceeded (.limitExceeded kind boundary actual limit))
        pending
  | .error .validation =>
      .failed (signalFailure requestId .invalidSignal
        (.python "ValueError" "signal payload failed validation")) pending
  | .error exc => .escaped exc pending

def handleSignal (interpreter : Interpreter) (limits : RuntimeLimits) (pending : PendingMessages)
    (payload : Decoded) : SignalOutcome :=
  classifySignal pending (payload.strict.bind requestIdOf)
    (appendResponse interpreter limits pending payload)

def handleEvent (interpreter : Interpreter) (limits : RuntimeLimits) (workflowId : String)
    (pending : PendingMessages) (payload : Decoded) : SignalOutcome :=
  classifySignal pending (some workflowId) (appendEventData interpreter limits pending payload)

/-! ## What normalization reports -/

inductive WalkViolation where
  | depth | size
  deriving DecidableEq, Repr

mutual

/-- What the walk over a value meets first: a value below the depth bound, or a collection over its
bound. -/
def walkViolation (maxItems : Nat) : JsonValue → Nat → Option WalkViolation
  | .arr items, depth =>
      if maxJsonDepth < depth then some .depth
      else if maxItems < items.length then some .size
      else itemsViolation maxItems items depth
  | .obj fields, depth =>
      if maxJsonDepth < depth then some .depth
      else if maxItems < fields.length then some .size
      else fieldsViolation maxItems fields depth
  | .null, depth | .bool _, depth | .int _, depth | .float _, depth | .str _, depth =>
      if maxJsonDepth < depth then some .depth else none

def itemsViolation (maxItems : Nat) : List JsonValue → Nat → Option WalkViolation
  | [], _ => none
  | v :: rest, depth => (walkViolation maxItems v (depth + 1)).or (itemsViolation maxItems rest depth)

def fieldsViolation (maxItems : Nat) : List (String × JsonValue) → Nat → Option WalkViolation
  | [], _ => none
  | (_, v) :: rest, depth =>
      (walkViolation maxItems v (depth + 1)).or (fieldsViolation maxItems rest depth)

end

/-- The result of a normalization that met this first. -/
inductive Normalizes {α : Type} (value : α) :
    Option WalkViolation → Except EngineException α → Prop
  | clean : Normalizes value none (.ok value)
  | deep (path detail : String) : Normalizes value (some .depth) (.error (.dataNormalization path detail))
  | large (kind : LimitKind) (boundary : String) (actual limit : Nat) :
      Normalizes value (some .size) (.error (.limitExceeded kind boundary actual limit))

/-- Normalizing one member and then the others. -/
theorem Normalizes.bind {α β γ : Type} {value : α} {others : β} {first next : Option WalkViolation}
    {result : Except EngineException α} {rest : Except EngineException β} (combine : α → β → γ)
    (h : Normalizes value first result) (hrest : Normalizes others next rest) :
    Normalizes (combine value others) (first.or next)
      (do let item ← result; return combine item (← rest)) := by
  cases h with
  | deep path detail => exact .deep path detail
  | large kind boundary actual limit => exact .large kind boundary actual limit
  | clean =>
      cases hrest with
      | clean => exact .clean
      | deep path detail => exact .deep path detail
      | large kind boundary actual limit => exact .large kind boundary actual limit

theorem Normalizes.map {α β : Type} {value : α} {first : Option WalkViolation}
    {result : Except EngineException α} (f : α → β) (h : Normalizes value first result) :
    Normalizes (f value) first (do return f (← result)) := by
  cases h with
  | clean => exact .clean
  | deep path detail => exact .deep path detail
  | large kind boundary actual limit => exact .large kind boundary actual limit

theorem normalizes_guarded {α : Type} {value : α} {first : Option WalkViolation}
    {result : Except EngineException α} (path : String) (depth : Nat)
    (h : Normalizes value first result) :
    Normalizes value (if maxJsonDepth < depth then some .depth else first)
      (do depthGuard path depth; result) := by
  rw [depthGuard]
  split
  · exact .deep _ _
  · exact h

theorem normalizes_bounded {α : Type} {value : α} {first : Option WalkViolation}
    {result : Except EngineException α} (length maxItems : Nat) (path : String)
    (h : Normalizes value first result) :
    Normalizes value (if maxItems < length then some .size else first)
      (do enforceLimit length maxItems .collectionItems path; result) := by
  rw [enforceLimit]
  split
  · exact .large _ _ _ _
  · exact h

theorem normalizes_items {maxItems : Nat} {items : List JsonValue}
    (h : ∀ v ∈ items, ∀ path depth,
      Normalizes v (walkViolation maxItems v depth) (normalizeJsonValue maxItems v path depth))
    (path : String) (index depth : Nat) :
    Normalizes items (itemsViolation maxItems items depth)
      (normalizeItems maxItems items path index depth) := by
  induction items generalizing index with
  | nil => exact .clean
  | cons v rest ih =>
      have there := ih (fun w hw => h w (List.mem_cons_of_mem _ hw)) (index + 1)
      exact (h v List.mem_cons_self _ _).bind List.cons there

theorem normalizes_fields {maxItems : Nat} {fields : JsonObject}
    (h : ∀ e ∈ fields, ∀ path depth,
      Normalizes e.2 (walkViolation maxItems e.2 depth) (normalizeJsonValue maxItems e.2 path depth))
    (path : String) (depth : Nat) :
    Normalizes fields (fieldsViolation maxItems fields depth)
      (normalizeFields maxItems fields path depth) := by
  induction fields with
  | nil => exact .clean
  | cons e rest ih =>
      obtain ⟨key, v⟩ := e
      have there := ih fun w hw => h w (List.mem_cons_of_mem _ hw)
      exact (h (key, v) List.mem_cons_self _ _).bind (fun item others => (key, item) :: others) there

theorem normalizes_value (maxItems : Nat) (v : JsonValue) (path : String) (depth : Nat) :
    Normalizes v (walkViolation maxItems v depth) (normalizeJsonValue maxItems v path depth) := by
  induction v generalizing path depth with
  | arr items ih =>
      have members := (normalizes_items ih path 0 depth).map JsonValue.arr
      exact normalizes_guarded path depth (normalizes_bounded items.length maxItems path members)
  | obj fields ih =>
      have members := (normalizes_fields ih path depth).map JsonValue.obj
      exact normalizes_guarded path depth (normalizes_bounded fields.length maxItems path members)
  | null => exact normalizes_guarded path depth .clean
  | bool b => exact normalizes_guarded path depth .clean
  | int n => exact normalizes_guarded path depth .clean
  | float f => exact normalizes_guarded path depth .clean
  | str s => exact normalizes_guarded path depth .clean

/-! ## Totality -/

/-- A handler appended the message of its payload, or failed the workflow and left the buffer. -/
inductive Handled (pending : PendingMessages) (family : MessageFamily)
    (isMessage : String → JsonValue → Prop) : SignalOutcome → Prop
  | appended {key : String} {value : JsonValue} (message : isMessage key value) :
      Handled pending family isMessage
        (.appended (pending.withQueues family ((pending.queues family).push key value)))
  | failed (failure : SignalFailure) :
      Handled pending family isMessage (.failed failure pending)

/-- The message of a step response: its validated fields, under the key that they make. -/
def ResponseMessage (payload : Decoded) (key : String) (value : JsonValue) : Prop :=
  ∃ strict parsed, payload.strict = some strict ∧ SignalPayload.modelValidate strict = some parsed ∧
    key = makeSignalKey parsed.requestId parsed.stepName parsed.action ∧ value = parsed.modelDump

/-- The message of an event: its data, under its name. -/
def EventMessage (payload : Decoded) (key : String) (value : JsonValue) : Prop :=
  ∃ strict parsed, payload.strict = some strict ∧ EventPayload.modelValidate strict = some parsed ∧
    key = parsed.signal ∧ value = parsed.data

/-- The payload is strict JSON that the stack takes; and if it is admitted, the library dumps it,
and no value is nested too deep before a collection that is too large. -/
def ResponseDigestible (interpreter : Interpreter) (limits : RuntimeLimits) (payload : Decoded) :
    Prop :=
  interpreter.walks payload = true ∧ ∃ strict, payload.strict = some strict ∧
    (strict.canonicalBytes ≤ limits.signalPayloadBytes → ∀ parsed,
      SignalPayload.modelValidate strict = some parsed → interpreter.dumps parsed.modelDump = true ∧
        walkViolation limits.collectionItems parsed.modelDump 0 ≠ some .depth)

def EventDigestible (interpreter : Interpreter) (limits : RuntimeLimits) (payload : Decoded) :
    Prop :=
  interpreter.walks payload = true ∧ ∃ strict, payload.strict = some strict ∧
    (strict.canonicalBytes ≤ limits.signalPayloadBytes → ∀ parsed,
      EventPayload.modelValidate strict = some parsed →
        walkViolation limits.collectionItems parsed.data 0 ≠ some .depth)

section Steps

variable {α : Type} {pending : PendingMessages} {family : MessageFamily}
  {isMessage : String → JsonValue → Prop} {requestId : Option String}

/-- What the guarded part of a handler did is handled. -/
abbrev HandledResult (pending : PendingMessages) (family : MessageFamily)
    (isMessage : String → JsonValue → Prop) (requestId : Option String)
    (result : Except SignalException PendingMessages) : Prop :=
  Handled pending family isMessage (classifySignal pending requestId result)

theorem handled_limit (kind : LimitKind) (boundary : String) (actual limit : Nat) :
    HandledResult pending family isMessage requestId
      (.error (.engine (.limitExceeded kind boundary actual limit))) :=
  .failed _

theorem handled_measured {interpreter : Interpreter} {payload : Decoded} {boundary : String}
    {limit : Nat} {next : JsonValue → Except SignalException PendingMessages} :
    HandledResult pending family isMessage requestId
        (do let value ← measurePayload interpreter payload boundary limit; next value) ↔
      interpreter.walks payload = true ∧ ∃ strict, payload.strict = some strict ∧
        (strict.canonicalBytes ≤ limit →
          HandledResult pending family isMessage requestId (next strict)) := by
  rw [measurePayload]
  by_cases hwalks : interpreter.walks payload = true
  · rw [if_pos hwalks]
    cases hstrict : payload.strict with
    | none =>
        constructor
        · rintro ⟨⟩
        · rintro ⟨_, strict, h, _⟩
          cases h
    | some strict =>
        by_cases hbytes : strict.canonicalBytes ≤ limit
        · simp only [enforcePayloadBytes, enforceLimit_ok_iff.mpr hbytes]
          constructor
          · exact fun h => ⟨hwalks, strict, rfl, fun _ => h⟩
          · rintro ⟨_, other, h, handled⟩
            cases h
            exact handled hbytes
        · simp only [enforcePayloadBytes, enforceLimit, Nat.lt_of_not_le hbytes, if_true]
          constructor
          · exact fun _ => ⟨hwalks, strict, rfl, fun h => absurd h hbytes⟩
          · exact fun _ => handled_limit _ _ _ _
  · rw [if_neg hwalks]
    constructor
    · rintro ⟨⟩
    · exact fun h => absurd h.1 hwalks

theorem handled_validSignal {result : Option α}
    {next : α → Except SignalException PendingMessages} :
    HandledResult pending family isMessage requestId
        (do let parsed ← validSignal result; next parsed) ↔
      ∀ parsed, result = some parsed →
        HandledResult pending family isMessage requestId (next parsed) := by
  cases result with
  | none =>
      constructor
      · nofun
      · exact fun _ => .failed _
  | some parsed =>
      constructor
      · rintro h other heq
        cases heq
        exact h
      · exact fun h => h parsed rfl

theorem handled_dumped {interpreter : Interpreter} {value : JsonValue}
    {next : JsonValue → Except SignalException PendingMessages} :
    HandledResult pending family isMessage requestId
        (do let dump ← dumped interpreter value; next dump) ↔
      interpreter.dumps value = true ∧
        HandledResult pending family isMessage requestId (next value) := by
  rw [dumped]
  by_cases h : interpreter.dumps value = true
  · rw [if_pos h]
    exact ⟨fun handled => ⟨h, handled⟩, fun handled => handled.2⟩
  · rw [if_neg h]
    constructor
    · nofun
    · exact fun handled => absurd handled.1 h

theorem handled_appended {limits : RuntimeLimits} {boundary key : String} {value : JsonValue}
    (message : isMessage key value) :
    HandledResult pending family isMessage requestId
      (ofEngine (pending.append limits family boundary key value)) := by
  cases happend : pending.append limits family boundary key value with
  | ok next =>
      rw [(PendingMessages.append_eq_ok happend).1]
      exact .appended message
  | error exc =>
      obtain ⟨kind, place, actual, limit, rfl⟩ := PendingMessages.append_eq_error happend
      exact handled_limit _ _ _ _

theorem handled_normalized {limits : RuntimeLimits} {maxItems : Nat} {value : JsonValue}
    {path boundary key : String} (message : isMessage key value) :
    HandledResult pending family isMessage requestId
        (do
          let normalized ← ofEngine (normalizeJsonValue maxItems value path 0)
          ofEngine (pending.append limits family boundary key normalized)) ↔
      walkViolation maxItems value 0 ≠ some .depth := by
  have h := normalizes_value maxItems value path 0
  generalize walkViolation maxItems value 0 = first at h ⊢
  generalize normalizeJsonValue maxItems value path 0 = result at h ⊢
  cases h with
  | clean =>
      constructor
      · nofun
      · exact fun _ => handled_appended message
  | deep =>
      constructor
      · nofun
      · exact fun h => absurd rfl h
  | large =>
      constructor
      · nofun
      · exact fun _ => handled_limit _ _ _ _

end Steps

/-- A payload is handled exactly when it is digestible: every other exception of its handler
escapes. -/
theorem signals_total (interpreter : Interpreter) (limits : RuntimeLimits)
    (pending : PendingMessages) (workflowId : String) (payload : Decoded) :
    (Handled pending .signals (ResponseMessage payload)
        (handleSignal interpreter limits pending payload) ↔
      ResponseDigestible interpreter limits payload) ∧
    (Handled pending .events (EventMessage payload)
        (handleEvent interpreter limits workflowId pending payload) ↔
      EventDigestible interpreter limits payload) := by
  constructor
  · rw [handleSignal, appendResponse]
    rw [show Handled _ _ _ (classifySignal _ _ _) ↔ _ from handled_measured]
    apply and_congr_right
    intro _
    apply exists_congr
    intro strict
    apply and_congr_right
    intro hstrict
    apply imp_congr_right
    intro _
    rw [handled_validSignal]
    apply forall_congr'
    intro parsed
    apply imp_congr_right
    intro hparsed
    rw [handled_dumped]
    apply and_congr_right
    intro _
    exact handled_normalized ⟨strict, parsed, hstrict, hparsed, rfl, rfl⟩
  · rw [handleEvent, appendEventData]
    rw [show Handled _ _ _ (classifySignal _ _ _) ↔ _ from handled_measured]
    apply and_congr_right
    intro _
    apply exists_congr
    intro strict
    apply and_congr_right
    intro hstrict
    apply imp_congr_right
    intro _
    rw [handled_validSignal]
    apply forall_congr'
    intro parsed
    apply imp_congr_right
    intro hparsed
    exact handled_normalized ⟨strict, parsed, hstrict, hparsed, rfl, rfl⟩

/-! ## A payload that is not handled -/

/-- An event whose data is not a number. -/
def nanEvent : Decoded :=
  .obj [(.ofString "signal", .str (.ofString "approved")), (.ofString "data", .float .nan)]

/-- The exception of the measurement escapes, however much the interpreter can do. -/
theorem nan_escapes :
    ¬ Handled .empty .events (EventMessage nanEvent)
      (handleEvent ⟨fun _ => true, fun _ => true⟩ {} "workflow-1" .empty nanEvent) := by
  have hescaped : handleEvent ⟨fun _ => true, fun _ => true⟩ {} "workflow-1" .empty nanEvent =
      .escaped .payloadSerialization .empty := by
    have hstrict : nanEvent.strict = none := by
      simp [nanEvent, Decoded.strict, Decoded.strictFields]
    simp only [handleEvent, appendEventData, measurePayload, hstrict]
    rfl
  rw [hescaped]
  rintro ⟨⟩

end Justflow
