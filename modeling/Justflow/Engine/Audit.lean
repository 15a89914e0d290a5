import Justflow.Library.Reordering

/-!
# Audit and failure records

The records the runner writes, with the objects they are dumped to and the readers that take
them back from JSON.  A reader finds its fields by key, so it does not see the key order; each
round trip across the wire is stated next to its reader.
-/

open Fields

namespace Justflow

/-- One routing decision: which branch or handler fired, and where it led. -/
structure TransitionRecord where
  step : String
  matched : String
  target : String
  deriving DecidableEq, Repr

def TransitionRecord.modelDump (self : TransitionRecord) : JsonValue :=
  .obj [("step", .str self.step), ("matched", .str self.matched), ("target", .str self.target)]

def TransitionRecord.modelValidate (v : JsonValue) : Option TransitionRecord := do
  return {
    step := ← (← v.field "step").asStr
    matched := ← (← v.field "matched").asStr
    target := ← (← v.field "target").asStr }

/-- Stable engine and underlying cause identity exposed to handlers. -/
structure StepFailure where
  step : String
  code : String
  causeCode : String
  message : String
  deriving DecidableEq, Repr

def StepFailure.modelDump (self : StepFailure) : JsonValue :=
  .obj [("step", .str self.step), ("code", .str self.code), ("cause_code", .str self.causeCode),
    ("message", .str self.message)]

def StepFailure.modelValidate (v : JsonValue) : Option StepFailure := do
  return {
    step := ← (← v.field "step").asStr
    code := ← (← v.field "code").asStr
    causeCode := ← (← v.field "cause_code").asStr
    message := ← (← v.field "message").asStr }

inductive FailureCategory where
  | input | definition | contract | execution | infrastructure | internal
  deriving DecidableEq, Repr

def FailureCategory.value : FailureCategory → String
  | .input => "input"
  | .definition => "definition"
  | .contract => "contract"
  | .execution => "execution"
  | .infrastructure => "infrastructure"
  | .internal => "internal"

inductive FailurePhase where
  | trigger | signal | workflowInput | parameters | step | handler | result | archive | internal
  deriving DecidableEq, Repr

def FailurePhase.value : FailurePhase → String
  | .trigger => "trigger"
  | .signal => "signal"
  | .workflowInput => "workflow_input"
  | .parameters => "parameters"
  | .step => "step"
  | .handler => "handler"
  | .result => "result"
  | .archive => "archive"
  | .internal => "internal"

def FailureCategory.all : List FailureCategory :=
  [.input, .definition, .contract, .execution, .infrastructure, .internal]

def FailurePhase.all : List FailurePhase :=
  [.trigger, .signal, .workflowInput, .parameters, .step, .handler, .result, .archive, .internal]

structure FailureDetail where
  code : String
  causeCode : String
  category : FailureCategory
  phase : FailurePhase
  message : String
  retryable : Bool
  step : Option String := none
  deriving DecidableEq, Repr

def FailureDetail.modelDump (self : FailureDetail) : JsonValue :=
  .obj [("code", .str self.code), ("cause_code", .str self.causeCode),
    ("category", .str self.category.value), ("phase", .str self.phase.value),
    ("message", .str self.message), ("retryable", .bool self.retryable),
    ("step", JsonValue.ofOption .str self.step)]

def FailureDetail.modelValidate (v : JsonValue) : Option FailureDetail := do
  let category ← (← v.field "category").asStr
  let phase ← (← v.field "phase").asStr
  return {
    code := ← (← v.field "code").asStr
    causeCode := ← (← v.field "cause_code").asStr
    category := ← FailureCategory.all.find? fun c => c.value = category
    phase := ← FailurePhase.all.find? fun p => p.value = phase
    message := ← (← v.field "message").asStr
    retryable := ← (← v.field "retryable").asBool
    step := ← JsonValue.asOption JsonValue.asStr (← v.field "step") }

/-- A collected per-item failure. -/
structure IterationFailure where
  code : String
  message : String
  deriving DecidableEq, Repr

def IterationFailure.modelDump (self : IterationFailure) : JsonValue :=
  .obj [("_error", .bool true), ("code", .str self.code), ("message", .str self.message)]

/-- One step's audit entry.  A field is dumped when it was set, also when it was set to null. -/
structure StepAuditEntry where
  seq : Nat
  status : String
  globals : Option JsonValue := none
  input : Option JsonValue := none
  output : Option JsonValue := none
  startedAt : Option (Option String) := none
  durationMs : Option Int := none
  condition : Option String := none
  thenStep : Option (Option String) := none
  signal : Option String := none
  sleepSec : Option Nat := none
  attempts : Option Nat := none
  cache : Option String := none
  itemsTotal : Option Nat := none
  itemsFailed : Option Nat := none
  code : Option String := none
  message : Option String := none
  deriving DecidableEq, Repr

/-- A set field, under its name. -/
def dumpField {α : Type} (key : String) (f : α → JsonValue) (value : Option α) :
    List (String × JsonValue) :=
  match value with
  | some a => [(key, f a)]
  | none => []

def StepAuditEntry.dump (self : StepAuditEntry) : List (String × JsonValue) :=
  [("seq", .int self.seq), ("status", .str self.status)]
    ++ dumpField "globals" id self.globals ++ dumpField "input" id self.input
    ++ dumpField "output" id self.output
    ++ dumpField "started_at" (JsonValue.ofOption .str) self.startedAt
    ++ dumpField "duration_ms" .int self.durationMs
    ++ dumpField "condition" .str self.condition
    ++ dumpField "then" (JsonValue.ofOption .str) self.thenStep
    ++ dumpField "signal" .str self.signal
    ++ dumpField "sleep_sec" (fun n => .int n) self.sleepSec
    ++ dumpField "attempts" (fun n => .int n) self.attempts
    ++ dumpField "cache" .str self.cache
    ++ dumpField "items_total" (fun n => .int n) self.itemsTotal
    ++ dumpField "items_failed" (fun n => .int n) self.itemsFailed
    ++ dumpField "code" .str self.code ++ dumpField "message" .str self.message

/-! ## Round trips across the wire -/

theorem TransitionRecord.modelValidate_wire (self : TransitionRecord) :
    TransitionRecord.modelValidate self.modelDump.wire = some self := by
  simp [TransitionRecord.modelValidate, TransitionRecord.modelDump, JsonValue.asStr, List.lookup_cons,
    -JsonValue.wire_obj]

theorem StepFailure.modelValidate_wire (self : StepFailure) :
    StepFailure.modelValidate self.modelDump.wire = some self := by
  simp [StepFailure.modelValidate, StepFailure.modelDump, JsonValue.asStr, List.lookup_cons,
    -JsonValue.wire_obj]

theorem FailureCategory.find_value (category : FailureCategory) :
    (FailureCategory.all.find? fun c => c.value = category.value) = some category := by
  cases category <;> decide

theorem FailurePhase.find_value (phase : FailurePhase) :
    (FailurePhase.all.find? fun p => p.value = phase.value) = some phase := by
  cases phase <;> decide

theorem asOption_ofOption_str (o : Option String) :
    JsonValue.asOption JsonValue.asStr (JsonValue.ofOption .str o).wire = some o := by
  cases o <;> simp [JsonValue.asOption, JsonValue.ofOption, JsonValue.asStr]

theorem FailureDetail.modelValidate_wire (self : FailureDetail) :
    FailureDetail.modelValidate self.modelDump.wire = some self := by
  simp [FailureDetail.modelValidate, FailureDetail.modelDump, JsonValue.asStr, JsonValue.asBool,
    List.lookup_cons, FailureCategory.find_value, FailurePhase.find_value, asOption_ofOption_str,
    -JsonValue.wire_obj]

end Justflow
