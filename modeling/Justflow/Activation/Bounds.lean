import Justflow.Activation.Lease

/-!
# The bounds of a record

A record holds at most a hundred transitions, eight checkpoints, and lists of at most a thousand
digests and changes, so the bytes of its dump are bounded up to the digits of two version
numbers.  Only a transition can exceed the bound of the history.
-/

open Fields JsonValue Service

namespace Justflow

/-! ## Bytes of the parts -/

theorem bytes_boundedText {limit : Nat} (text : BoundedText limit) :
    canonicalBytes (.str text.text) ≤ 6 * limit + 2 :=
  utf8ByteSize_quote_le text.bounded

theorem bytes_isoformat (instant : Instant) :
    canonicalBytes (.str (isoformat instant)) ≤ 29 := by
  have hdash : plain "-" ∧ "-".length = 1 := by decide
  have hcolon : plain ":" ∧ ":".length = 1 := by decide
  have htee : plain "T" ∧ "T".length = 1 := by decide
  have hzed : plain "Z" ∧ "Z".length = 1 := by decide
  have hdot : plain "." ∧ ".".length = 1 := by decide
  have hempty : plain "" ∧ "".length = 0 := by decide
  have hfraction : ∀ n, plain (if n = 0 then "" else "." ++ decimalDigits 6 n) ∧
      (if n = 0 then "" else "." ++ decimalDigits 6 n).length ≤ 7 := by
    intro n
    split_ifs
    · exact ⟨hempty.1, by omega⟩
    · rw [plain_append, hdot.1, plain_decimalDigits, String.length_append, length_decimalDigits,
        hdot.2]
      simp
  obtain ⟨hplain, hlength⟩ := hfraction (instant % 1000000)
  rw [canonicalBytes_str, utf8ByteSize_quote_plain]
  · simp only [isoformat, String.length_append, length_decimalDigits, hdash.2, hcolon.2, htee.2,
      hzed.2]
    omega
  · simp only [isoformat, plain_append, plain_decimalDigits, hplain, hdash.1, hcolon.1, htee.1,
      hzed.1, Bool.and_self]

theorem bytes_artifact (artifact : WorkerArtifactIdentity) :
    canonicalBytes artifact.modelDump ≤ 7780 := by
  have hkeys : keyBytes ["deployment_name", "build_id", "artifact_digest", "package_version",
      "source_revision"] = 88 := by decide
  have hrevision : canonicalBytes (.ofOption (fun text : BoundedText _ => .str text.text)
      artifact.sourceRevision) ≤ 6 * maxProvenanceIdentityLength + 2 :=
    canonicalBytes_ofOption_le (fun text _ => bytes_boundedText text) (by decide)
  have h1 := bytes_boundedText artifact.deploymentName
  have h2 := bytes_boundedText artifact.buildId
  have h3 := bytes_boundedText artifact.artifactDigest
  have h4 := bytes_boundedText artifact.packageVersion
  unfold WorkerArtifactIdentity.modelDump
  apply (canonicalBytes_obj_within
    (.cons h1 (.cons h2 (.cons h3 (.cons h4 (.cons hrevision .nil)))))).trans
  simp only [keys_cons, keys_nil, hkeys]
  decide

theorem bytes_transition {transition : ActivationTransition}
    (sequence : transition.sequence ≤ maxActivationHistory) :
    canonicalBytes transition.modelDump ≤ 174 := by
  have hkeys : keyBytes ["sequence", "from_state", "to_state", "occurred_at", "outcome_code"] =
      69 := by decide
  have hstate : ∀ state : ActivationState, canonicalBytes (.str state.value) ≤ 23 := by
    intro state
    cases state <;> decide
  have hcode : canonicalBytes (.ofOption (fun code : ActivationOutcomeCode => .str code.value)
      transition.outcomeCode) ≤ 25 := by
    apply canonicalBytes_ofOption_le
    · intro code _
      cases code <;> decide
    · decide
  have hsequence : canonicalBytes (.int transition.sequence) ≤ 3 := by
    apply utf8ByteSize_repr_le
    simp only [maxActivationHistory] at sequence
    omega
  have hfrom := hstate transition.fromState
  have hto := hstate transition.toState
  have hat := bytes_isoformat transition.occurredAt
  unfold ActivationTransition.modelDump
  apply (canonicalBytes_obj_within
    (.cons hsequence (.cons hfrom (.cons hto (.cons hat (.cons hcode .nil)))))).trans
  simp only [keys_cons, keys_nil, hkeys]
  decide

theorem bytes_checkpoint {checkpoint : ActivationCheckpoint} (sequence : checkpoint.sequence ≤ 8) :
    canonicalBytes checkpoint.modelDump ≤ 205 := by
  have hkeys : keyBytes ["sequence", "kind", "outcome", "occurred_at", "observation_digest"] =
      68 := by decide
  have hkind : canonicalBytes (.str checkpoint.kind.value) ≤ 18 := by
    cases checkpoint.kind <;> decide
  have houtcome : canonicalBytes (.str checkpoint.outcome.value) ≤ 12 := by
    cases checkpoint.outcome <;> decide
  have hsequence : canonicalBytes (.int checkpoint.sequence) ≤ 1 := by
    apply utf8ByteSize_repr_le
    omega
  have hat := bytes_isoformat checkpoint.occurredAt
  have hdigest := bytes_provenanceDigest checkpoint.observationDigest
  unfold ActivationCheckpoint.modelDump
  apply (canonicalBytes_obj_within
    (.cons hsequence (.cons hkind (.cons houtcome (.cons hat (.cons hdigest.le .nil)))))).trans
  simp only [keys_cons, keys_nil, hkeys]
  decide

theorem bytes_change (change : ActivationChange) : canonicalBytes change.modelDump ≤ 151 := by
  have hkeys : keyBytes ["kind", "subject_kind", "operation", "subject_digest"] = 55 := by decide
  have hkind : canonicalBytes (.str change.kind.value) ≤ 10 := by
    cases change.kind <;> decide
  have hsubject : canonicalBytes (.str change.subjectKind.value) ≤ 10 := by
    cases change.subjectKind <;> decide
  have hoperation : canonicalBytes (.str change.operation.value) ≤ 8 := by
    cases change.operation <;> decide
  have hdigest := bytes_digest change.subjectDigest
  unfold ActivationChange.modelDump
  apply (canonicalBytes_obj_within
    (.cons hkind (.cons hsubject (.cons hoperation (.cons hdigest.le .nil))))).trans
  simp only [keys_cons, keys_nil, hkeys]
  decide

theorem bytes_digests {digests : List Digest} (length : digests.length ≤ maxActivationChanges) :
    canonicalBytes (.arr (digests.map fun d => .str d.text)) ≤ 67002 := by
  refine (canonicalBytes_arr_le 66 (by simpa using length) ?_).trans (by decide)
  intro v hv
  obtain ⟨digest, _, rfl⟩ := List.mem_map.mp hv
  exact le_of_eq (bytes_digest digest)

theorem bytes_readiness {readiness : WorkerReadinessRegistration}
    (length : readiness.definitionDigests.length ≤ maxActivationChanges) :
    canonicalBytes readiness.modelDump ≤ 75169 := by
  have hkeys : keyBytes ["configuration_revision_id", "artifact", "definition_digests",
      "task_queue_identity_digest", "deployment_registration_digest", "registered_at"] = 144 := by
    decide
  have h1 := bytes_digest readiness.configurationRevisionId
  have h2 := bytes_artifact readiness.artifact
  have h3 := bytes_digests length
  have h4 := bytes_provenanceDigest readiness.taskQueueIdentityDigest
  have h5 := bytes_provenanceDigest readiness.deploymentRegistrationDigest
  have h6 := bytes_isoformat readiness.registeredAt
  unfold WorkerReadinessRegistration.modelDump
  apply (canonicalBytes_obj_within
    (.cons h1.le (.cons h2 (.cons h3 (.cons h4.le (.cons h5.le (.cons h6 .nil))))))).trans
  simp only [keys_cons, keys_nil, hkeys]
  decide

theorem bytes_optionalDigest (digest : Option Digest) :
    canonicalBytes (.ofOption (fun d : Digest => .str d.text) digest) ≤ 66 :=
  canonicalBytes_ofOption_le (fun d _ => le_of_eq (bytes_digest d)) (by decide)

theorem bytes_plan {plan : ActivationPlan} (bounded : plan.Bounded) {digits : Nat}
    (hdigits : 4 ≤ digits)
    (pointer : ∀ version ∈ plan.expectedActivePointerVersion,
      (Nat.repr version).utf8ByteSize ≤ digits) :
    canonicalBytes plan.modelDump ≤ 229800 + digits := by
  have hkeys : keyBytes ["plan_digest", "scope_digest", "source_revision_id", "target_revision_id",
      "expected_active_revision_id", "expected_active_pointer_version",
      "expected_catalog_alias_version", "policy_digest", "worker_observation_digest",
      "schedule_observation_digest", "target_artifact", "target_task_queue_identity_digest",
      "target_worker_registration_digest", "target_definition_digests", "changes",
      "compatibility_risks", "worker_action", "definition_action", "routing_action",
      "schedule_action"] = 483 := by decide
  have h1 := bytes_provenanceDigest plan.planDigest
  have h2 := bytes_digest plan.scopeDigest
  have h3 := bytes_optionalDigest plan.sourceRevisionId
  have h4 := bytes_digest plan.targetRevisionId
  have h5 := bytes_optionalDigest plan.expectedActiveRevisionId
  have h6 : canonicalBytes (.ofOption (fun n : Nat => .int n) plan.expectedActivePointerVersion) ≤
      digits := canonicalBytes_ofOption_le pointer hdigits
  have h7 : canonicalBytes (.ofOption (fun t : BoundedText maxExternalVersionLength =>
      .str t.text) plan.expectedCatalogAliasVersion) ≤ 6 * maxExternalVersionLength + 2 :=
    canonicalBytes_ofOption_le (fun text _ => bytes_boundedText text) (by decide)
  have h8 := bytes_provenanceDigest plan.policyDigest
  have h9 := bytes_provenanceDigest plan.workerObservationDigest
  have h10 := bytes_provenanceDigest plan.scheduleObservationDigest
  have h11 := bytes_artifact plan.targetArtifact
  have h12 := bytes_provenanceDigest plan.targetTaskQueueIdentityDigest
  have h13 := bytes_provenanceDigest plan.targetWorkerRegistrationDigest
  have h14 := bytes_digests bounded.definitions
  have h15 : canonicalBytes (.arr (plan.changes.map ActivationChange.modelDump)) ≤ 152002 := by
    refine (canonicalBytes_arr_le 151 (by simpa using bounded.changes) ?_).trans
      (by decide)
    intro v hv
    obtain ⟨change, _, rfl⟩ := List.mem_map.mp hv
    exact bytes_change change
  have h16 : canonicalBytes (.arr (plan.compatibilityRisks.map fun risk => .str risk.value)) ≤
      110 := by
    refine (canonicalBytes_arr_le 26 (by simpa using bounded.risks) ?_).trans
      (by decide)
    intro v hv
    obtain ⟨risk, _, rfl⟩ := List.mem_map.mp hv
    cases risk <;> decide
  have h17 : canonicalBytes (.str plan.workerAction.value) ≤ 9 := by
    cases plan.workerAction <;> decide
  have h18 : canonicalBytes (.str plan.definitionAction.value) ≤ 9 := by
    cases plan.definitionAction <;> decide
  have h19 : canonicalBytes (.str plan.routingAction.value) ≤ 8 := by
    cases plan.routingAction <;> decide
  have h20 : canonicalBytes (.str plan.scheduleAction.value) ≤ 11 := by
    cases plan.scheduleAction <;> decide
  unfold ActivationPlan.modelDump ActivationPlan.digestedFields
  apply (canonicalBytes_obj_within
    (.cons h1.le (.cons h2.le (.cons h3 (.cons h4.le (.cons h5 (.cons h6 (.cons h7 (.cons h8.le
      (.cons h9.le (.cons h10.le (.cons h11 (.cons h12.le (.cons h13.le (.cons h14 (.cons h15
        (.cons h16 (.cons h17 (.cons h18 (.cons h19 (.cons h20 .nil))))))))))))))))))))).trans
  simp only [keys_cons, keys_nil, hkeys]
  simp only [maxExternalVersionLength]
  omega

/-! ## Bytes of a record -/

/-- What bounds the dump of a record. -/
structure Measured (record : ActivationRecord) : Prop where
  valid : record.Valid
  bounded : record.plan.Bounded
  readiness : ∀ readiness ∈ record.workerReadiness,
    readiness.definitionDigests.length ≤ maxActivationChanges

theorem le_of_contiguous {α : Type} {items : List α} {sequence : α → Nat}
    (h : items.map sequence = List.range' 1 items.length) {item : α} (member : item ∈ items) :
    sequence item ≤ items.length := by
  have hmem : sequence item ∈ List.range' 1 items.length := h ▸ List.mem_map_of_mem member
  have := (List.mem_range'_1.mp hmem).2
  omega

theorem bytes_record {record : ActivationRecord} (measured : Measured record) {digits : Nat}
    (hdigits : 4 ≤ digits) (version : (Nat.repr record.version).utf8ByteSize ≤ digits)
    (pointer : ∀ expected ∈ record.plan.expectedActivePointerVersion,
      (Nat.repr expected).utf8ByteSize ≤ digits) :
    recordBytes record ≤ 330000 + 2 * digits := by
  have hkeys : keyBytes ["activation_id", "scope_digest", "idempotency_key_digest",
      "request_digest", "actor_digest", "correlation_digest", "plan", "state", "version",
      "transitions", "checkpoints", "lease_owner_digest", "lease_expires_at", "worker_readiness",
      "rollback_of_activation_id", "outcome_code", "created_at", "updated_at"] = 308 := by decide
  have h1 := bytes_digest record.activationId
  have h2 := bytes_digest record.scopeDigest
  have h3 := bytes_digest record.idempotencyKeyDigest
  have h4 := bytes_provenanceDigest record.requestDigest
  have h5 := bytes_digest record.actorDigest
  have h6 := bytes_digest record.correlationDigest
  have h7 := bytes_plan measured.bounded hdigits pointer
  have h8 : canonicalBytes (.str record.state.value) ≤ 23 := by
    cases record.state <;> decide
  have h9 : canonicalBytes (.int record.version) ≤ digits := version
  have h10 : canonicalBytes (.arr (record.transitions.map ActivationTransition.modelDump)) ≤
      17502 := by
    refine (canonicalBytes_arr_le 174
      (by simpa using measured.valid.transitionsBound) ?_).trans (by decide)
    intro v hv
    obtain ⟨transition, hmem, rfl⟩ := List.mem_map.mp hv
    exact bytes_transition ((le_of_contiguous measured.valid.sequence hmem).trans
      measured.valid.transitionsBound)
  have h11 : canonicalBytes (.arr (record.checkpoints.map ActivationCheckpoint.modelDump)) ≤
      1650 := by
    refine (canonicalBytes_arr_le 205
      (by simpa using measured.valid.checkpointsBound) ?_).trans (by decide)
    intro v hv
    obtain ⟨checkpoint, hmem, rfl⟩ := List.mem_map.mp hv
    exact bytes_checkpoint ((le_of_contiguous measured.valid.checkpointSequence hmem).trans
      measured.valid.checkpointsBound)
  have h12 := bytes_optionalDigest record.leaseOwnerDigest
  have h13 : canonicalBytes (.ofOption (fun t : Instant => .str (isoformat t))
      record.leaseExpiresAt) ≤ 29 :=
    canonicalBytes_ofOption_le (fun t _ => bytes_isoformat t) (by decide)
  have h14 : canonicalBytes (.ofOption WorkerReadinessRegistration.modelDump
      record.workerReadiness) ≤ 75169 :=
    canonicalBytes_ofOption_le (fun readiness h => bytes_readiness (measured.readiness readiness h))
      (by decide)
  have h15 := bytes_optionalDigest record.rollbackOfActivationId
  have h16 : canonicalBytes (.ofOption (fun code : ActivationOutcomeCode => .str code.value)
      record.outcomeCode) ≤ 25 := by
    apply canonicalBytes_ofOption_le
    · intro code _
      cases code <;> decide
    · decide
  have h17 := bytes_isoformat record.createdAt
  have h18 := bytes_isoformat record.updatedAt
  unfold recordBytes ActivationRecord.modelDump
  apply (canonicalBytes_obj_within
    (.cons h1.le (.cons h2.le (.cons h3.le (.cons h4.le (.cons h5.le (.cons h6.le (.cons h7
      (.cons h8 (.cons h9 (.cons h10 (.cons h11 (.cons h12 (.cons h13 (.cons h14 (.cons h15
        (.cons h16 (.cons h17 (.cons h18 .nil))))))))))))))))))).trans
  simp only [keys_cons, keys_nil, hkeys]
  omega

/-- Two version numbers of ten thousand digits fit beside everything else. -/
theorem within_byteLimit {record : ActivationRecord} (measured : Measured record)
    (version : (Nat.repr record.version).length ≤ 10000)
    (pointer : ∀ expected ∈ record.plan.expectedActivePointerVersion,
      (Nat.repr expected).length ≤ 10000) :
    withinByteLimit record := by
  have hbytes := bytes_record measured (by decide : 4 ≤ 10000)
    (utf8ByteSize_repr_le_of_length (by decide) version)
    fun expected h => utf8ByteSize_repr_le_of_length (by decide) (pointer expected h)
  exact decide_eq_true (hbytes.trans (by decide))

/-! ## Operations on a record -/

/-- The operations of the activation store module. -/
inductive ActivationOperation where
  | transition (toState : ActivationState) (occurredAt : Instant)
      (outcomeCode : Option ActivationOutcomeCode) (releaseLease : Bool)
  | checkpoint (kind : ActivationCheckpointKind) (outcome : ActivationExternalOutcome)
      (observationDigest : ProvenanceDigest) (occurredAt : Instant)
  | acquire (ownerDigest : Digest) (acquiredAt expiresAt : Instant)
  | release (ownerDigest : Digest) (releasedAt : Instant)
  | register (registration : WorkerReadinessRegistration) (occurredAt : Instant)

def ActivationOperation.apply (record : ActivationRecord) :
    ActivationOperation → Except ActivationFailure ActivationRecord
  | .transition toState occurredAt outcomeCode releaseLease =>
      transitionActivation record toState occurredAt outcomeCode releaseLease
  | .checkpoint kind outcome observationDigest occurredAt =>
      recordActivationCheckpoint record kind outcome observationDigest occurredAt
  | .acquire ownerDigest acquiredAt expiresAt =>
      acquireActivationLease record ownerDigest acquiredAt expiresAt
  | .release ownerDigest releasedAt => releaseActivationLease record ownerDigest releasedAt
  | .register registration occurredAt => registerWorkerReadiness record registration occurredAt

/-- A record as an activation creates it. -/
structure NewRecord (record : ActivationRecord) : Prop where
  pending : record.state = .pending
  version : record.version = 1
  transitions : record.transitions = []
  checkpoints : record.checkpoints = []
  unready : record.workerReadiness = none
  valid : record.Valid
  bounded : record.plan.Bounded

/-- The records that any sequence of operations leads to. -/
inductive Reached : ActivationRecord → Prop
  | new {record : ActivationRecord} (h : NewRecord record) : Reached record
  | next {record updated : ActivationRecord} (operation : ActivationOperation)
      (before : Reached record) (h : operation.apply record = .ok updated) : Reached updated

/-- What an operation that succeeds leaves. -/
theorem applied_measured {record updated : ActivationRecord} (measured : Measured record)
    {operation : ActivationOperation} (h : operation.apply record = .ok updated) :
    Measured updated := by
  obtain ⟨valid, bounded, readiness⟩ := measured
  cases operation with
  | transition toState occurredAt outcomeCode releaseLease =>
      obtain ⟨_, _, _, rfl, valid'⟩ := transitionActivation_eq_ok.mp h
      exact ⟨valid', bounded, readiness⟩
  | checkpoint kind outcome observationDigest occurredAt =>
      by_cases hkind : hasCheckpoint record kind
      · simp only [ActivationOperation.apply, recordActivationCheckpoint] at h
        split at h
        · split_ifs at h
          cases h
          exact ⟨valid, bounded, readiness⟩
        · next hnone =>
            simp only [List.find?_eq_none, decide_eq_true_eq] at hnone
            simp only [hasCheckpoint, List.any_eq_true, decide_eq_true_eq] at hkind
            obtain ⟨checkpoint, hmem, heq⟩ := hkind
            exact absurd heq (hnone checkpoint hmem)
      · obtain ⟨rfl, valid'⟩ :=
          (recordActivationCheckpoint_eq_ok (by simpa using hkind)).mp h
        exact ⟨valid', bounded, readiness⟩
  | acquire ownerDigest acquiredAt expiresAt =>
      obtain ⟨_, _, rfl, valid'⟩ := acquireActivationLease_eq_ok.mp h
      exact ⟨valid', bounded, readiness⟩
  | release ownerDigest releasedAt =>
      obtain ⟨_, rfl, valid'⟩ := releaseActivationLease_eq_ok.mp h
      exact ⟨valid', bounded, readiness⟩
  | register registration occurredAt =>
      obtain ⟨covers, ⟨_, rfl⟩ | ⟨_, rfl, valid'⟩⟩ := registerWorkerReadiness_eq_ok.mp h
      · exact ⟨valid, bounded, readiness⟩
      · refine ⟨valid', bounded, fun other hother => ?_⟩
        simp only [ActivationRecord.registered, Option.mem_def, Option.some.injEq] at hother
        subst hother
        rw [covers.definitions.length_eq]
        exact bounded.definitions

theorem reached_measured {record : ActivationRecord} (reached : Reached record) :
    Measured record := by
  induction reached with
  | new h =>
      refine ⟨h.valid, h.bounded, fun readiness hreadiness => ?_⟩
      rw [h.unready] at hreadiness
      cases hreadiness
  | next operation _ h ih => exact applied_measured ih h

/-! ## Failures at a bound -/

/-- The messages of the checks against a bound. -/
def boundMessages : List String :=
  ["Tuple should have at most 100 items after validation",
    "Tuple should have at most 8 items after validation",
    "Activation transition history exceeds its bound"]

theorem require_bind_eq_value {condition : Prop} [Decidable condition] {message raised : String}
    {α : Type} {next : Unit → Except ActivationFailure α} :
    (require condition message >>= next) = .error (.value raised) ↔
      ¬ condition ∧ raised = message ∨ condition ∧ next () = .error (.value raised) := by
  by_cases h : condition
  · simp [require, h, bind, Except.bind]
  · simp [require, h, bind, Except.bind, eq_comm]

/-- The validation of a record within its bounds fails at no bound. -/
theorem modelValidate_unbounded {record : ActivationRecord} {message : String}
    (h : record.modelValidate = .error (.value message))
    (transitions : record.transitions.length ≤ maxActivationHistory)
    (checkpoints : record.checkpoints.length ≤ 8) : message ∉ boundMessages := by
  simp only [ActivationRecord.modelValidate, require_bind_eq_value] at h
  rcases h with ⟨_, rfl⟩ | ⟨_, h⟩
  · decide
  rcases h with ⟨h, _⟩ | ⟨_, h⟩
  · exact absurd transitions h
  rcases h with ⟨h, _⟩ | ⟨_, h⟩
  · exact absurd checkpoints h
  rcases h with ⟨_, rfl⟩ | ⟨_, ⟨_, rfl⟩ | ⟨_, ⟨_, rfl⟩ | ⟨_, ⟨_, rfl⟩ | ⟨_, ⟨_, rfl⟩ |
    ⟨_, ⟨_, rfl⟩ | ⟨_, ⟨_, rfl⟩ | ⟨_, ⟨_, rfl⟩ | ⟨_, ⟨_, rfl⟩ | ⟨_, ⟨_, rfl⟩ | ⟨_, ⟨_, rfl⟩ |
    ⟨_, h⟩⟩⟩⟩⟩⟩⟩⟩⟩⟩⟩
  all_goals first | decide | cases h

/-- Distinct kinds are at most eight. -/
theorem checkpoints_le_of_nodup {checkpoints : List ActivationCheckpoint}
    (nodup : (checkpoints.map (·.kind)).Nodup) : checkpoints.length ≤ 8 := by
  have subset : checkpoints.map (·.kind) ⊆ [.definitions, .workerRollout, .workerReadiness,
      .schedules, .catalogRouting, .workerRouting, .activePointer, .runtimeIndex] := by
    intro kind _
    cases kind <;> simp
  simpa using (List.subperm_of_subset nodup subset).length_le

theorem nodup_checkpointed {record : ActivationRecord} {kind : ActivationCheckpointKind}
    (nodup : (record.checkpoints.map (·.kind)).Nodup) (absent : hasCheckpoint record kind = false)
    (outcome : ActivationExternalOutcome) (digest : ProvenanceDigest) (occurredAt : Instant) :
    ((record.checkpointed kind outcome digest occurredAt).checkpoints.map (·.kind)).Nodup := by
  simp only [hasCheckpoint, List.any_eq_false, decide_eq_true_eq] at absent
  simp only [ActivationRecord.checkpointed, List.map_append, List.map_cons, List.map_nil]
  apply List.nodup_append.mpr
  refine ⟨nodup, List.nodup_singleton _, ?_⟩
  intro first hfirst second hsecond heq
  obtain ⟨checkpoint, hmem, rfl⟩ := List.mem_map.mp hfirst
  rw [List.mem_singleton] at hsecond
  exact absent checkpoint hmem (heq.trans hsecond)

/-- An operation that fails at a bound is a transition of a full history. -/
theorem failed_at_bound {record : ActivationRecord} (valid : record.Valid)
    {operation : ActivationOperation} {message : String}
    (failed : operation.apply record = .error (.value message)) (bound : message ∈ boundMessages) :
    (∃ toState occurredAt outcomeCode releaseLease,
        operation = .transition toState occurredAt outcomeCode releaseLease) ∧
      record.transitions.length = maxActivationHistory := by
  cases operation with
  | transition toState occurredAt outcomeCode releaseLease =>
      refine ⟨⟨_, _, _, _, rfl⟩, ?_⟩
      by_contra hfull
      have hlt : record.transitions.length < maxActivationHistory :=
        lt_of_le_of_ne valid.transitionsBound hfull
      simp only [ActivationOperation.apply, transitionActivation, require_bind_eq_value] at failed
      rcases failed with ⟨_, rfl⟩ | ⟨_, ⟨h, _⟩ | ⟨_, ⟨_, rfl⟩ | ⟨_, failed⟩⟩⟩
      · revert bound
        cases record.state <;> cases toState <;> decide
      · exact h hlt
      · revert bound
        decide
      · refine modelValidate_unbounded failed ?_ valid.checkpointsBound bound
        simp only [ActivationRecord.transitioned, List.length_append, List.length_singleton]
        omega
  | checkpoint kind outcome observationDigest occurredAt =>
      simp only [ActivationOperation.apply, recordActivationCheckpoint] at failed
      split at failed
      · split_ifs at failed
        cases failed
        exact absurd bound (by decide)
      · next hnone =>
          have absent : hasCheckpoint record kind = false := by
            simpa [hasCheckpoint, List.find?_eq_none] using hnone
          refine (modelValidate_unbounded failed valid.transitionsBound ?_ bound).elim
          exact checkpoints_le_of_nodup
            (nodup_checkpointed valid.checkpointKinds absent _ _ _)
  | acquire ownerDigest acquiredAt expiresAt =>
      simp only [ActivationOperation.apply, acquireActivationLease, require_bind_eq_value] at failed
      rcases failed with ⟨_, rfl⟩ | ⟨_, ⟨_, rfl⟩ | ⟨_, failed⟩⟩
      · exact absurd bound (by decide)
      · exact absurd bound (by decide)
      · exact (modelValidate_unbounded failed valid.transitionsBound valid.checkpointsBound
          bound).elim
  | release ownerDigest releasedAt =>
      simp only [ActivationOperation.apply, releaseActivationLease, require_bind_eq_value] at failed
      rcases failed with ⟨_, rfl⟩ | ⟨_, failed⟩
      · exact absurd bound (by decide)
      · exact (modelValidate_unbounded failed valid.transitionsBound valid.checkpointsBound
          bound).elim
  | register registration occurredAt =>
      simp only [ActivationOperation.apply, registerWorkerReadiness, require_bind_eq_value] at failed
      rcases failed with ⟨_, rfl⟩ | ⟨_, ⟨_, rfl⟩ | ⟨_, ⟨_, rfl⟩ | ⟨_, ⟨_, rfl⟩ | ⟨_, failed⟩⟩⟩⟩
      · exact absurd bound (by decide)
      · exact absurd bound (by decide)
      · exact absurd bound (by decide)
      · exact absurd bound (by decide)
      · split at failed
        · rw [require_bind_eq_value] at failed
          rcases failed with ⟨_, rfl⟩ | ⟨_, failed⟩
          · exact absurd bound (by decide)
          · cases failed
        · exact (modelValidate_unbounded failed valid.transitionsBound valid.checkpointsBound
            bound).elim

/-! ## Enabled transitions -/

/-- An allowed transition of a record with room in its history leaves a valid record. -/
theorem transitioned_valid {record : ActivationRecord} (valid : record.Valid)
    {toState : ActivationState} (room : record.transitions.length < maxActivationHistory)
    {outcomeCode : Option ActivationOutcomeCode}
    (coded : toState.unsuccessful = outcomeCode.isSome) {occurredAt : Instant}
    (later : record.createdAt ≤ occurredAt) (releaseLease : Bool) :
    (record.transitioned toState occurredAt outcomeCode releaseLease).Valid := by
  have hlast : ∀ last ∈ record.transitions.getLast?, last.toState = record.state := valid.last
  constructor
  case version => exact Nat.le_succ_of_le valid.version
  case transitionsBound =>
    simp only [ActivationRecord.transitioned, List.length_append, List.length_singleton]
    omega
  case checkpointsBound => exact valid.checkpointsBound
  case scope => exact valid.scope
  case lease =>
    simp only [ActivationRecord.transitioned]
    split_ifs
    · rfl
    · exact valid.lease
  case timestamps => exact later
  case fresh =>
    intro h
    simp [ActivationRecord.transitioned] at h
  case last =>
    intro last h
    simp only [ActivationRecord.transitioned, List.getLast?_append, List.getLast?_singleton,
      Option.some_or, Option.mem_def, Option.some.injEq] at h
    subst h
    rfl
  case sequence =>
    simp only [ActivationRecord.transitioned, List.map_append, List.map_cons, List.map_nil,
      valid.sequence, List.length_append, List.length_singleton]
    rw [List.range'_1_concat]
    simp [Nat.add_comm]
  case chain =>
    apply List.IsChain.append valid.chain (List.isChain_singleton _)
    intro previous hprevious transition htransition
    simp only [List.head?_cons, Option.mem_def, Option.some.injEq] at htransition
    subst htransition
    exact hlast previous hprevious
  case checkpointKinds => exact valid.checkpointKinds
  case checkpointSequence => exact valid.checkpointSequence
  case coded =>
    intro h
    exact coded ▸ h
  case uncoded =>
    intro h
    have hnone : outcomeCode.isSome = false := by
      rw [← coded]
      exact Bool.eq_false_iff.mpr h
    exact Option.isSome_eq_false_iff.mp hnone |> Option.isNone_iff_eq_none.mp

/-- A transition is enabled when it is allowed and the history has room. -/
theorem transitionActivation_enabled {record : ActivationRecord} (valid : record.Valid)
    {toState : ActivationState} (allowed : toState ∈ allowedActivationTransitions record.state)
    (room : record.transitions.length < maxActivationHistory)
    {outcomeCode : Option ActivationOutcomeCode}
    (coded : toState.unsuccessful = outcomeCode.isSome) {occurredAt : Instant}
    (later : record.createdAt ≤ occurredAt) (releaseLease : Bool) :
    transitionActivation record toState occurredAt outcomeCode releaseLease =
      .ok (record.transitioned toState occurredAt outcomeCode releaseLease) :=
  transitionActivation_eq_ok.mpr ⟨allowed, room, coded, rfl,
    transitioned_valid valid room coded later releaseLease⟩

/-- A record can be ended while its history has room, its history is the only bound that an
operation can fail at, and its dump fits the store. -/
structure Unstuck (record : ActivationRecord) : Prop where
  ends : record.state.terminal = false → record.transitions.length < maxActivationHistory →
    ∀ occurredAt, record.createdAt ≤ occurredAt → ∀ outcome releaseLease, ∃ updated,
      transitionActivation record .superseded occurredAt (some outcome) releaseLease =
          .ok updated ∧ updated.state.terminal
  bound : ∀ (operation : ActivationOperation) message,
    operation.apply record = .error (.value message) → message ∈ boundMessages →
      (∃ toState occurredAt outcomeCode releaseLease,
        operation = .transition toState occurredAt outcomeCode releaseLease) ∧
        record.transitions.length = maxActivationHistory
  fits : (Nat.repr record.version).length ≤ 10000 →
    (∀ expected ∈ record.plan.expectedActivePointerVersion,
      (Nat.repr expected).length ≤ 10000) → withinByteLimit record

/-- Every record that operations lead to is unstuck, as far as its history has room. -/
theorem reached_unstuck {record : ActivationRecord} (reached : Reached record) :
    Unstuck record := by
  have measured := reached_measured reached
  constructor
  · intro active room occurredAt later outcome releaseLease
    have allowed : .superseded ∈ allowedActivationTransitions record.state := by
      cases hstate : record.state <;>
        simp_all [ActivationState.terminal, allowedActivationTransitions]
    exact ⟨_, transitionActivation_enabled measured.valid allowed room rfl later releaseLease, rfl⟩
  · intro operation message failed bound
    exact failed_at_bound measured.valid failed bound
  · intro version pointer
    exact within_byteLimit measured version pointer

theorem sampleRecord_new : NewRecord sampleRecord :=
  have validated : sampleRecord.modelValidate = .ok sampleRecord := rfl
  ⟨rfl, rfl, rfl, rfl, rfl, (ActivationRecord.modelValidate_eq_ok.mp validated).2,
    by constructor <;> decide⟩

theorem sampleRecord_unstuck : Unstuck sampleRecord :=
  reached_unstuck (.new sampleRecord_new)

/-- The controllers change records by these operations only. -/
theorem RecordChange.operation {host : ActivationHost} {controller : Controller}
    {history : List ControlPlane} {current updated : ActivationRecord}
    (change : RecordChange host controller history current updated) :
    ∃ operation : ActivationOperation, operation.apply current = .ok updated := by
  cases change with
  | acquired _ _ change => exact ⟨.acquire _ _ _, change⟩
  | advanced _ _ _ _ change => exact ⟨.transition _ _ _ _, change⟩
  | checkpointed _ working _ change valid =>
      subst change
      exact ⟨.checkpoint _ _ _ _, (recordActivationCheckpoint_eq_ok working.open_).mpr ⟨rfl, valid⟩⟩
  | registered _ change => exact ⟨.register _ _, change⟩
  | released _ change => exact ⟨.release _ _, change⟩
  | concluded _ _ _ change => exact ⟨.transition _ _ _ _, change⟩
  | rolledBack _ _ change => exact ⟨.transition _ _ _ _, change⟩

/-- Every record of a run of the controllers is one that operations lead to. -/
theorem stored_reached {host : ActivationHost} {start : ControlPlane}
    (unrecorded : start.Unrecorded) {history : List ControlPlane}
    (lawful : Activating host start history) :
    ∀ world ∈ history, ∀ id record, world.records id = some record → Reached record := by
  refine stored_induct (P := fun _ _ record => Reached record) unrecorded ?_ ?_ ?_ lawful
  · intro _ _ _ _ reached _
    exact reached
  · intro _ _ _ _ _ reached _ change
    obtain ⟨operation, h⟩ := change.operation
    exact .next operation reached h
  · intro _ _ _ _ fresh
    obtain ⟨_, _, _, _, _, _, _, _, _, _, _, _, _, _, _, planned⟩ := fresh.planned.sources
    exact .new ⟨fresh.pending, fresh.version, fresh.transitions, fresh.checkpoints,
      fresh.unready, fresh.valid, (planConfigurationActivation_eq_ok planned).2.2.2⟩

/-! ## A full history -/

/-- One more transition of a reached record. -/
theorem Reached.transition {record : ActivationRecord} (reached : Reached record)
    (toState : ActivationState) (outcomeCode : Option ActivationOutcomeCode)
    (allowed : toState ∈ allowedActivationTransitions record.state)
    (room : record.transitions.length < maxActivationHistory)
    (coded : toState.unsuccessful = outcomeCode.isSome) :
    ∃ updated, Reached updated ∧ updated.state = toState ∧
      updated.transitions.length = record.transitions.length + 1 :=
  ⟨_, .next (.transition toState record.createdAt outcomeCode false) reached
    (transitionActivation_enabled (reached_measured reached).valid allowed room coded
      (le_refl _) false), rfl, List.length_append⟩

/-- A record that waits, fails, and then runs and fails again and again fills its history. -/
theorem retried (n : Nat) (h : 2 * n + 3 ≤ maxActivationHistory) :
    ∃ record, Reached record ∧ record.state = .failed ∧ record.transitions.length = 2 * n + 3 := by
  induction n with
  | zero =>
      obtain ⟨running, reached1, state1, length1⟩ :=
        (Reached.new sampleRecord_new).transition .running none (by decide) (by decide) rfl
      obtain ⟨waiting, reached2, state2, length2⟩ := reached1.transition .waitingForReadiness none
        (by rw [state1]; decide) (by rw [length1]; decide) rfl
      obtain ⟨failed, reached3, state3, length3⟩ := reached2.transition .failed
        (some .workerUnavailable) (by rw [state2]; decide) (by rw [length2, length1]; decide) rfl
      exact ⟨failed, reached3, state3, by rw [length3, length2, length1]; rfl⟩
  | succ n ih =>
      obtain ⟨record, reached, state, length⟩ := ih (by omega)
      obtain ⟨running, reached1, state1, length1⟩ := reached.transition .running none
        (by rw [state]; decide) (by omega) rfl
      obtain ⟨failed, reached2, state2, length2⟩ := reached1.transition .failed
        (some .workerUnavailable) (by rw [state1]; decide) (by omega) rfl
      exact ⟨failed, reached2, state2, by omega⟩

/-- A record that is running after a hundred transitions has none left. -/
theorem activation_stuck : ∃ record, Reached record ∧ record.state = .running ∧
    ∀ toState occurredAt outcomeCode releaseLease updated,
      transitionActivation record toState occurredAt outcomeCode releaseLease ≠ .ok updated := by
  obtain ⟨record, reached, state, length⟩ := retried 48 (by decide)
  obtain ⟨running, reached', state', length'⟩ := reached.transition .running none
    (by rw [state]; decide) (by rw [length]; decide) rfl
  refine ⟨running, reached', state', ?_⟩
  intro toState occurredAt outcomeCode releaseLease updated h
  have room := (transitionActivation_eq_ok.mp h).2.1
  simp only [maxActivationHistory] at room
  omega

end Justflow
