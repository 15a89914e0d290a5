import Justflow.Activation.Planning

/-!
# Activation records as JSON

The dump of a record is what a store writes, as canonical JSON of at most
`maxActivationRecordBytes` bytes.
-/

open Fields

namespace Justflow

def maxActivationRecordBytes : Nat := 350000

/-- Year, month and day of a day of the epoch, in the proleptic Gregorian calendar. -/
def civilFromDays (days : Nat) : Nat × Nat × Nat :=
  let shifted := days + 719468
  let era := shifted / 146097
  let dayOfEra := shifted % 146097
  let yearOfEra := (dayOfEra - dayOfEra / 1460 + dayOfEra / 36524 - dayOfEra / 146096) / 365
  let dayOfYear := dayOfEra - (365 * yearOfEra + yearOfEra / 4 - yearOfEra / 100)
  let monthIndex := (5 * dayOfYear + 2) / 153
  let day := dayOfYear - (153 * monthIndex + 2) / 5 + 1
  let month := if monthIndex < 10 then monthIndex + 3 else monthIndex - 9
  let year := yearOfEra + era * 400 + (if month ≤ 2 then 1 else 0)
  (year, month, day)

/-- An instant as a JSON time stamp in UTC. -/
def isoformat (instant : Instant) : String :=
  let seconds := instant / 1000000
  let microseconds := instant % 1000000
  let (year, month, day) := civilFromDays (seconds / 86400)
  let fraction := if microseconds = 0 then "" else "." ++ decimalDigits 6 microseconds
  decimalDigits 4 year ++ "-" ++ decimalDigits 2 month ++ "-" ++ decimalDigits 2 day ++ "T" ++
    decimalDigits 2 (seconds % 86400 / 3600) ++ ":" ++ decimalDigits 2 (seconds % 3600 / 60) ++
    ":" ++ decimalDigits 2 (seconds % 60) ++ fraction ++ "Z"

example : isoformat 1785844800000000 = "2026-08-04T12:00:00Z" := by decide

def ActivationTransition.modelDump (self : ActivationTransition) : JsonValue :=
  .obj [("sequence", .int self.sequence), ("from_state", .str self.fromState.value),
    ("to_state", .str self.toState.value), ("occurred_at", .str (isoformat self.occurredAt)),
    ("outcome_code", .ofOption (fun code => .str code.value) self.outcomeCode)]

def ActivationCheckpoint.modelDump (self : ActivationCheckpoint) : JsonValue :=
  .obj [("sequence", .int self.sequence), ("kind", .str self.kind.value),
    ("outcome", .str self.outcome.value), ("occurred_at", .str (isoformat self.occurredAt)),
    ("observation_digest", .str self.observationDigest.text)]

def WorkerReadinessRegistration.modelDump (self : WorkerReadinessRegistration) : JsonValue :=
  .obj [("configuration_revision_id", .str self.configurationRevisionId.text),
    ("artifact", self.artifact.modelDump),
    ("definition_digests", .arr (self.definitionDigests.map fun d => .str d.text)),
    ("task_queue_identity_digest", .str self.taskQueueIdentityDigest.text),
    ("deployment_registration_digest", .str self.deploymentRegistrationDigest.text),
    ("registered_at", .str (isoformat self.registeredAt))]

/-- The dump of a plan has its digest beside the fields that the digest covers. -/
def ActivationPlan.modelDump (self : ActivationPlan) : JsonValue :=
  .obj (("plan_digest", .str self.planDigest.text) :: self.digestedFields)

def ActivationRecord.modelDump (self : ActivationRecord) : JsonValue :=
  .obj [("activation_id", .str self.activationId.text),
    ("scope_digest", .str self.scopeDigest.text),
    ("idempotency_key_digest", .str self.idempotencyKeyDigest.text),
    ("request_digest", .str self.requestDigest.text),
    ("actor_digest", .str self.actorDigest.text),
    ("correlation_digest", .str self.correlationDigest.text),
    ("plan", self.plan.modelDump), ("state", .str self.state.value),
    ("version", .int self.version),
    ("transitions", .arr (self.transitions.map ActivationTransition.modelDump)),
    ("checkpoints", .arr (self.checkpoints.map ActivationCheckpoint.modelDump)),
    ("lease_owner_digest", .ofOption (fun d : Digest => .str d.text) self.leaseOwnerDigest),
    ("lease_expires_at",
      .ofOption (fun t : Instant => .str (isoformat t)) self.leaseExpiresAt),
    ("worker_readiness",
      .ofOption WorkerReadinessRegistration.modelDump self.workerReadiness),
    ("rollback_of_activation_id",
      .ofOption (fun d : Digest => .str d.text) self.rollbackOfActivationId),
    ("outcome_code",
      .ofOption (fun code : ActivationOutcomeCode => .str code.value) self.outcomeCode),
    ("created_at", .str (isoformat self.createdAt)),
    ("updated_at", .str (isoformat self.updatedAt))]

/-- The bytes that `_record_bytes` measures. -/
def recordBytes (record : ActivationRecord) : Nat :=
  JsonValue.canonicalBytes record.modelDump

/-- The check of the stores. -/
def withinByteLimit (record : ActivationRecord) : Bool :=
  recordBytes record ≤ maxActivationRecordBytes

end Justflow
