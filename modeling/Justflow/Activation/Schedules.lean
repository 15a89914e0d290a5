import Justflow.Activation.Record
import Justflow.Library.Lookups

/-!
# Reconciliation of schedules

A desired schedule pins the execution target that its runs start, so its digest covers the
definition, the worker artifact and the configuration revision beside the declaration itself.
`planScheduleReconciliation` compares desired and observed schedules one identity at a time,
and what it decides for one identity depends on the entry under that identity only, up to the
unscoped entries of older releases.

`Settled` is what a finished reconciliation leaves under each identity.  Under the decision the
activation uses, a plan finds nothing to change exactly when every identity is settled.
-/

open Fields

namespace Justflow

def scheduleOwner : String := "justflow"
def scheduleDispatchFormatVersion : Nat := 1

structure ExecutionConfigurationIdentity where
  configurationRevisionId : Digest
  tenantConfigurationRevisionId : Option Digest
  componentCatalogRevision : Option Digest
  componentIdentityDigest : Option ProvenanceDigest
  resolutionDigest : ProvenanceDigest
  deriving DecidableEq

structure ScheduleTargetIdentity where
  scopeDigest : Option Digest
  workflowName : String
  definitionDigest : Digest
  artifactIdentity : WorkerArtifactIdentity
  environmentSnapshotDigest : Digest
  executionConfiguration : Option ExecutionConfigurationIdentity
  deriving DecidableEq

structure DesiredSchedule where
  scheduleName : String
  scheduleId : String
  desiredDigest : ProvenanceDigest
  target : ScheduleTargetIdentity
  deriving DecidableEq

structure ObservedSchedule where
  scheduleId : String
  owner : Option String
  scheduleName : Option String
  desiredDigest : Option String
  scopeDigest : Option String
  actionValid : Bool
  corruptMetadataKeys : List String
  deriving DecidableEq

def ObservedSchedule.managed (self : ObservedSchedule) : Bool :=
  self.owner = some scheduleOwner

def ObservedSchedule.validManagedIdentity (self : ObservedSchedule) : Bool :=
  self.corruptMetadataKeys = [] ∧ self.managed ∧ self.scheduleName.isSome ∧
    self.desiredDigest.isSome ∧ self.actionValid

inductive ScheduleChangeKind where
  | create | update | delete | conflict
  deriving DecidableEq, Repr

def ScheduleChangeKind.value : ScheduleChangeKind → String
  | .create => "create"
  | .update => "update"
  | .delete => "delete"
  | .conflict => "conflict"

/-- `_SCHEDULE_CHANGE_ORDER`. -/
def ScheduleChangeKind.order : ScheduleChangeKind → Nat
  | .create => 0
  | .update => 1
  | .conflict => 2
  | .delete => 3

inductive UnscopedScheduleDecision where
  | requireExplicit | migrate | retain
  deriving DecidableEq, Repr

def UnscopedScheduleDecision.value : UnscopedScheduleDecision → String
  | .requireExplicit => "require_explicit"
  | .migrate => "migrate"
  | .retain => "retain"

structure ScheduleChange where
  kind : ScheduleChangeKind
  scheduleId : String
  scheduleName : Option String
  reason : String
  deriving DecidableEq, Repr

structure SchedulePlan where
  desired : List (String × DesiredSchedule)
  observed : List (String × ObservedSchedule)
  changes : List ScheduleChange
  planDigest : ProvenanceDigest
  deriving DecidableEq

def SchedulePlan.hasConflicts (self : SchedulePlan) : Bool :=
  self.changes.any fun change => change.kind = .conflict

/-! ## Compilation -/

structure WorkflowStartTarget where
  logicalName : String
  definitionDigest : Digest
  artifactIdentity : WorkerArtifactIdentity
  environmentSnapshotDigest : Digest
  scopeDigest : Digest
  executionConfiguration : Option ExecutionConfigurationIdentity
  deriving DecidableEq

structure ScheduleTriggerDeclaration where
  workflow : String
  definitionDigest : Option Digest
  modelDump : JsonValue
  deriving DecidableEq

def WorkerArtifactIdentity.modelDump (self : WorkerArtifactIdentity) : JsonValue :=
  .obj [("deployment_name", .str self.deploymentName.text), ("build_id", .str self.buildId.text),
    ("artifact_digest", .str self.artifactDigest.text),
    ("package_version", .str self.packageVersion.text),
    ("source_revision", .ofOption (fun text => .str text.text) self.sourceRevision)]

/-- The dump without the optional fields that are not set. -/
def excludeNone (fields : List (String × JsonValue)) : JsonValue :=
  .obj (fields.filter fun field => field.2 ≠ .null)

def ExecutionConfigurationIdentity.modelDump (self : ExecutionConfigurationIdentity) : JsonValue :=
  excludeNone [("configuration_revision_id", .str self.configurationRevisionId.text),
    ("tenant_configuration_revision_id",
      .ofOption (fun d : Digest => .str d.text) self.tenantConfigurationRevisionId),
    ("component_catalog_revision",
      .ofOption (fun d : Digest => .str d.text) self.componentCatalogRevision),
    ("component_identity_digest",
      .ofOption (fun d : ProvenanceDigest => .str d.text) self.componentIdentityDigest),
    ("resolution_digest", .str self.resolutionDigest.text)]

def ScheduleTargetIdentity.modelDump (self : ScheduleTargetIdentity) : JsonValue :=
  excludeNone [("scope_digest", .ofOption (fun d : Digest => .str d.text) self.scopeDigest),
    ("workflow_name", .str self.workflowName),
    ("definition_digest", .str self.definitionDigest.text),
    ("artifact_identity", self.artifactIdentity.modelDump),
    ("environment_snapshot_digest", .str self.environmentSnapshotDigest.text),
    ("execution_configuration",
      .ofOption ExecutionConfigurationIdentity.modelDump self.executionConfiguration)]

/-- What the digest of a schedule covers. -/
def desiredIdentity (hashing : Hashing) (scheduleName : String)
    (declaration : ScheduleTriggerDeclaration) (target : ScheduleTargetIdentity)
    (taskQueue dispatchTaskQueue : String) (scopeDigest : Digest)
    (dispatchTimeoutSeconds dispatchAttempts : Nat) : JsonValue :=
  .obj [("format_version", .int scheduleDispatchFormatVersion),
    ("scope_digest", .str scopeDigest.text), ("schedule_name", .str scheduleName),
    ("declaration", declaration.modelDump), ("target", target.modelDump),
    ("task_queue_identity",
      .str (hashing.provenanceDigest (.obj [("task_queue", .str taskQueue)])).text),
    ("dispatch_task_queue_identity",
      .str (hashing.provenanceDigest (.obj [("task_queue", .str dispatchTaskQueue)])).text),
    ("dispatch_timeout_seconds", .int dispatchTimeoutSeconds),
    ("dispatch_attempts", .int dispatchAttempts)]

/-- `compile_schedule`, as far as the identity of the schedule goes. -/
def compileSchedule (hashing : Hashing) (scheduleName : String)
    (declaration : ScheduleTriggerDeclaration) (target : WorkflowStartTarget)
    (taskQueue : String) (dispatchTaskQueue : Option String) (scopeDigest : Digest)
    (dispatchTimeoutSeconds dispatchAttempts : Nat) :
    Except ActivationFailure DesiredSchedule := do
  require (taskQueue ≠ "") "Schedule task queue must not be empty"
  let resolvedDispatchTaskQueue := match dispatchTaskQueue with
    | some queue => if queue = "" then taskQueue else queue
    | none => taskQueue
  require (declaration.workflow = target.logicalName)
    s!"Schedule '{scheduleName}' resolved to the wrong workflow target"
  require (∀ digest ∈ declaration.definitionDigest, digest = target.definitionDigest)
    s!"Schedule '{scheduleName}' resolved to the wrong definition target"
  let targetIdentity : ScheduleTargetIdentity := {
    scopeDigest := some scopeDigest
    workflowName := target.logicalName
    definitionDigest := target.definitionDigest
    artifactIdentity := target.artifactIdentity
    environmentSnapshotDigest := target.environmentSnapshotDigest
    executionConfiguration := target.executionConfiguration }
  return {
    scheduleName
    scheduleId := hashing.scopedIdentity "schedule" scopeDigest [scheduleName]
    desiredDigest := hashing.provenanceDigest
      (desiredIdentity hashing scheduleName declaration targetIdentity taskQueue
        resolvedDispatchTaskQueue scopeDigest dispatchTimeoutSeconds dispatchAttempts)
    target := targetIdentity }

/-! ## Planning -/

/-- The managed schedules of older releases under this name. -/
def unscopedNamed (observed : List (String × ObservedSchedule)) (name : String) :
    List (String × ObservedSchedule) :=
  observed.filter fun entry =>
    entry.2.managed ∧ entry.2.scopeDigest = none ∧ entry.2.scheduleName = some name

def ambiguousName (observed : List (String × ObservedSchedule)) (name : String) : Bool :=
  1 < (unscopedNamed observed name).length

def retained (observed : List (String × ObservedSchedule)) (decision : UnscopedScheduleDecision)
    (schedule : DesiredSchedule) : Bool :=
  decision = .retain ∧ unscopedNamed observed schedule.scheduleName ≠ [] ∧
    ¬ ambiguousName observed schedule.scheduleName

/-- The change that a desired schedule asks for. -/
def desiredChange (observed : List (String × ObservedSchedule)) (scheduleId : String)
    (wanted : DesiredSchedule) : Option ScheduleChange :=
  let conflict := fun reason =>
    some { kind := .conflict, scheduleId, scheduleName := wanted.scheduleName, reason }
  match observed.lookup scheduleId with
  | none => some { kind := .create, scheduleId, scheduleName := wanted.scheduleName,
                   reason := "managed schedule is absent" }
  | some actual =>
      if actual.corruptMetadataKeys ≠ [] then conflict "schedule metadata is corrupt"
      else if ¬ actual.managed then
        conflict "schedule identity is occupied by an unmanaged schedule"
      else if ¬ actual.validManagedIdentity ∨ actual.scheduleName ≠ some wanted.scheduleName then
        conflict "managed schedule identity metadata is invalid"
      else if actual.scopeDigest ≠ wanted.target.scopeDigest.map Digest.text then
        conflict "managed schedule belongs to a different scope"
      else if actual.desiredDigest ≠ some wanted.desiredDigest.text then
        some { kind := .update, scheduleId, scheduleName := wanted.scheduleName,
               reason := "managed schedule differs from desired state" }
      else none

/-- The change that an observed schedule outside the desired ones asks for. -/
def orphanChange (desired : List (String × DesiredSchedule))
    (observed : List (String × ObservedSchedule)) (decision : UnscopedScheduleDecision)
    (scheduleId : String) (actual : ObservedSchedule) : Option ScheduleChange :=
  let change := fun kind reason =>
    some { kind, scheduleId, scheduleName := actual.scheduleName, reason }
  let ambiguous := actual.scheduleName.any (ambiguousName observed)
  if actual.corruptMetadataKeys ≠ [] then
    change .conflict "orphaned schedule metadata is corrupt"
  else if ¬ actual.managed then none
  else if actual.scopeDigest = none then
    if actual.validManagedIdentity ∧ ¬ ambiguous ∧ decision = .retain then none
    else if actual.validManagedIdentity ∧ ¬ ambiguous ∧ decision = .migrate ∧
        (∃ entry ∈ desired, actual.scheduleName = some entry.2.scheduleName) then
      change .delete "unscoped managed schedule is replaced by scoped desired state"
    else change .conflict "unscoped managed schedule requires an explicit migration decision"
  else if ¬ actual.validManagedIdentity then
    change .conflict "orphaned managed schedule has invalid identity metadata"
  else change .delete "managed schedule is absent from desired state"

/-- The order in which changes are applied. -/
def ScheduleChange.before (first second : ScheduleChange) : Prop :=
  first.kind.order < second.kind.order ∨
    first.kind.order = second.kind.order ∧ first.scheduleId ≤ second.scheduleId

instance : DecidableRel ScheduleChange.before := fun _ _ => by
  rw [ScheduleChange.before]
  infer_instance

def optionalText (text : Option String) : JsonValue :=
  .ofOption .str text

/-- What the digest of a plan covers. -/
def schedulePlanIdentity (desired : List (String × DesiredSchedule))
    (observed : List (String × ObservedSchedule)) (changes : List ScheduleChange)
    (decision : UnscopedScheduleDecision) : JsonValue :=
  .obj [
    ("desired", .arr ((sortKeys desired).map fun entry => .obj [
      ("schedule_id", .str entry.1), ("schedule_name", .str entry.2.scheduleName),
      ("desired_digest", .str entry.2.desiredDigest.text),
      ("scope_digest", optionalText (entry.2.target.scopeDigest.map Digest.text))])),
    ("observed", .arr ((sortKeys observed).map fun entry => .obj [
      ("schedule_id", .str entry.1), ("owner", optionalText entry.2.owner),
      ("schedule_name", optionalText entry.2.scheduleName),
      ("desired_digest", optionalText entry.2.desiredDigest),
      ("action_valid", .bool entry.2.actionValid),
      ("scope_digest", optionalText entry.2.scopeDigest),
      ("corrupt_metadata_keys", .arr (entry.2.corruptMetadataKeys.map .str))])),
    ("changes", .arr (changes.map fun change => .obj [
      ("kind", .str change.kind.value), ("schedule_id", .str change.scheduleId),
      ("schedule_name", optionalText change.scheduleName)])),
    ("unscoped_decision", .str decision.value)]

/-- The changes of a plan, in the order in which they are applied. -/
def scheduleChanges (desired : List (String × DesiredSchedule))
    (observed : List (String × ObservedSchedule)) (decision : UnscopedScheduleDecision) :
    List ScheduleChange :=
  let effectiveDesired := desired.filter fun entry => ¬ retained observed decision entry.2
  let wanted := (sortKeys effectiveDesired).filterMap fun entry =>
    desiredChange observed entry.1 entry.2
  let orphaned := (sortKeys observed).filterMap fun entry =>
    if entry.1 ∈ keys effectiveDesired then none
    else orphanChange desired observed decision entry.1 entry.2
  (wanted ++ orphaned).insertionSort ScheduleChange.before

def planScheduleReconciliation (hashing : Hashing) (desired : List (String × DesiredSchedule))
    (observed : List (String × ObservedSchedule)) (decision : UnscopedScheduleDecision) :
    Except ActivationFailure SchedulePlan := do
  require (∀ entry ∈ desired, entry.1 = entry.2.scheduleId)
    "Desired schedule mapping key does not match its identity"
  require (∀ entry ∈ observed, entry.1 = entry.2.scheduleId)
    "Observed schedule mapping key does not match its identity"
  let changes := scheduleChanges desired observed decision
  return {
    desired := desired.filter fun entry => ¬ retained observed decision entry.2
    observed
    changes
    planDigest := hashing.provenanceDigest
      (schedulePlanIdentity desired observed changes decision) }

/-! ## What a reconciliation leaves -/

/-- The observed schedule is the desired one. -/
structure ObservedSchedule.Is (actual : ObservedSchedule) (wanted : DesiredSchedule) : Prop where
  valid : actual.validManagedIdentity
  name : actual.scheduleName = some wanted.scheduleName
  scope : actual.scopeDigest = wanted.target.scopeDigest.map Digest.text
  digest : actual.desiredDigest = some wanted.desiredDigest.text

/-- Nothing is left to do under one identity. -/
def Settled (desired : List (String × DesiredSchedule))
    (observed : List (String × ObservedSchedule)) (scheduleId : String) : Prop :=
  match desired.lookup scheduleId with
  | some wanted => ∃ actual ∈ observed.lookup scheduleId, actual.Is wanted
  | none => ∀ actual ∈ observed.lookup scheduleId,
      actual.corruptMetadataKeys = [] ∧ actual.managed = false

section Plan

variable {desired : List (String × DesiredSchedule)} {observed : List (String × ObservedSchedule)}
  {id : String}

theorem desiredChange_eq_none {wanted : DesiredSchedule} :
    desiredChange observed id wanted = none ↔
      ∃ actual ∈ observed.lookup id, actual.Is wanted := by
  rw [desiredChange]
  cases hactual : observed.lookup id with
  | none => simp
  | some actual =>
      have corrupt : actual.validManagedIdentity = true → actual.corruptMetadataKeys = [] ∧
          actual.managed = true := by
        intro h
        simp only [ObservedSchedule.validManagedIdentity, decide_eq_true_eq] at h
        exact ⟨h.1, h.2.1⟩
      constructor
      · intro h
        refine ⟨actual, rfl, ?_⟩
        by_contra hnot
        dsimp only at h
        split_ifs at h with h1 h2 h3 h4 h5
        simp only [not_or, not_not] at h3
        exact hnot ⟨h3.1, h3.2, not_not.mp h4, not_not.mp h5⟩
      · rintro ⟨_, hsome, is⟩
        cases hsome
        obtain ⟨hcorrupt, hmanaged⟩ := corrupt is.valid
        simp [hcorrupt, hmanaged, is.valid, is.name, is.scope, is.digest]

theorem desiredChange_spec {wanted : DesiredSchedule} {change : ScheduleChange}
    (h : desiredChange observed id wanted = some change) :
    change.scheduleId = id ∧ change.kind ≠ .delete := by
  unfold desiredChange at h
  cases hactual : observed.lookup id with
  | none =>
      simp only [hactual, Option.some.injEq] at h
      subst h
      simp
  | some actual =>
      simp only [hactual] at h
      split_ifs at h <;> (cases h; simp)

theorem orphanChange_eq_none {actual : ObservedSchedule} :
    orphanChange desired observed .requireExplicit id actual = none ↔
      actual.corruptMetadataKeys = [] ∧ actual.managed = false := by
  rw [orphanChange]
  by_cases hcorrupt : actual.corruptMetadataKeys = []
  · cases hmanaged : actual.managed with
    | false => simp [hcorrupt]
    | true =>
        simp only [hcorrupt, ne_eq, not_true_eq_false, if_false, reduceCtorEq, and_false,
          false_and]
        split_ifs <;> simp
  · simp [hcorrupt]

theorem orphanChange_spec {decision : UnscopedScheduleDecision} {actual : ObservedSchedule}
    {change : ScheduleChange} (h : orphanChange desired observed decision id actual = some change) :
    change.scheduleId = id ∧ (change.kind = .conflict ∨ change.kind = .delete) := by
  rw [orphanChange] at h
  dsimp only at h
  split_ifs at h <;> (cases h; simp)

/-- A plan holds the change of each desired schedule that it does not leave to an older one, and
of each observed schedule outside these. -/
theorem mem_scheduleChanges_iff {decision : UnscopedScheduleDecision} {change : ScheduleChange} :
    change ∈ scheduleChanges desired observed decision ↔
      (∃ entry ∈ desired, retained observed decision entry.2 = false ∧
        desiredChange observed entry.1 entry.2 = some change) ∨
        ∃ entry ∈ observed,
          (∀ wanted ∈ desired, wanted.1 = entry.1 → retained observed decision wanted.2 = true) ∧
          orphanChange desired observed decision entry.1 entry.2 = some change := by
  have outside (key : String) : key ∉ keys (desired.filter fun entry =>
      ¬ retained observed decision entry.2) ↔
      ∀ wanted ∈ desired, wanted.1 = key → retained observed decision wanted.2 = true := by
    simp only [keys, List.mem_map, List.mem_filter, not_exists, not_and, decide_not,
      Bool.not_eq_true', decide_eq_false_iff_not, and_imp]
    constructor
    · intro h wanted hwanted hkey
      by_contra hnot
      exact h wanted hwanted hnot hkey
    · intro h wanted hwanted hnot hkey
      exact hnot (h wanted hwanted hkey)
  simp only [scheduleChanges, List.mem_insertionSort, List.mem_append, List.mem_filterMap,
    (sameFields_sortKeys _).mem_iff]
  constructor
  · rintro (⟨entry, hentry, h⟩ | ⟨entry, hentry, h⟩)
    · simp only [List.mem_filter, Bool.not_eq_true, decide_eq_true_eq] at hentry
      exact .inl ⟨entry, hentry.1, hentry.2, h⟩
    · split_ifs at h with hkey
      exact .inr ⟨entry, hentry, (outside _).mp hkey, h⟩
  · rintro (⟨entry, hentry, hretained, h⟩ | ⟨entry, hentry, hkey, h⟩)
    · exact .inl ⟨entry, by simp [hentry, hretained], h⟩
    · exact .inr ⟨entry, hentry, by rw [if_neg ((outside _).mpr hkey), h]⟩

theorem mem_scheduleChanges {change : ScheduleChange} :
    change ∈ scheduleChanges desired observed .requireExplicit ↔
      (∃ entry ∈ desired, desiredChange observed entry.1 entry.2 = some change) ∨
        ∃ entry ∈ observed, entry.1 ∉ keys desired ∧
          orphanChange desired observed .requireExplicit entry.1 entry.2 = some change := by
  have effective : (desired.filter fun entry =>
      ¬ retained observed .requireExplicit entry.2) = desired := by
    simp [retained]
  simp only [scheduleChanges, effective, List.mem_insertionSort, List.mem_append,
    List.mem_filterMap, (sameFields_sortKeys _).mem_iff]
  constructor
  · rintro (h | ⟨entry, hentry, h⟩)
    · exact .inl h
    · split_ifs at h with hkey
      exact .inr ⟨entry, hentry, hkey, h⟩
  · rintro (h | ⟨entry, hentry, hkey, h⟩)
    · exact .inl h
    · exact .inr ⟨entry, hentry, by rw [if_neg hkey, h]⟩

/-- A plan names every identity that is not settled. -/
theorem settled_or_change (desired : List (String × DesiredSchedule))
    (observed : List (String × ObservedSchedule)) (id : String) : Settled desired observed id ∨
    ∃ change ∈ scheduleChanges desired observed .requireExplicit, change.scheduleId = id := by
  rw [Settled]
  cases hwanted : desired.lookup id with
  | some wanted =>
      cases hchange : desiredChange observed id wanted with
      | none => exact .inl (desiredChange_eq_none.mp hchange)
      | some change =>
          exact .inr ⟨change, mem_scheduleChanges.mpr (.inl ⟨_, mem_lookup hwanted, hchange⟩),
            (desiredChange_spec hchange).1⟩
  | none =>
      cases hactual : observed.lookup id with
      | none => exact .inl fun _ h => by cases h
      | some actual =>
          cases hchange : orphanChange desired observed .requireExplicit id actual with
          | none =>
              refine .inl fun other h => ?_
              cases h
              exact orphanChange_eq_none.mp hchange
          | some change =>
              exact .inr ⟨change, mem_scheduleChanges.mpr (.inr ⟨_, mem_lookup hactual,
                lookup_eq_none_iff_not_mem_keys.mp hwanted, hchange⟩),
                (orphanChange_spec hchange).1⟩

/-- Nothing is left to change exactly when every identity is settled. -/
theorem scheduleChanges_eq_nil_iff (hdesired : (keys desired).Nodup)
    (hobserved : (keys observed).Nodup) :
    scheduleChanges desired observed .requireExplicit = [] ↔
      ∀ id, Settled desired observed id := by
  constructor
  · intro h id
    rcases settled_or_change desired observed id with settled | ⟨change, hmem, _⟩
    · exact settled
    · rw [h] at hmem
      simp at hmem
  · intro h
    rw [List.eq_nil_iff_forall_not_mem]
    intro change hmem
    rcases mem_scheduleChanges.mp hmem with ⟨⟨id, wanted⟩, hentry, hchange⟩ |
      ⟨⟨id, actual⟩, hentry, hkey, hchange⟩
    · have settled := h id
      unfold Settled at settled
      rw [lookup_of_mem hdesired hentry] at settled
      rw [desiredChange_eq_none.mpr settled] at hchange
      cases hchange
    · have settled := h id
      unfold Settled at settled
      rw [lookup_eq_none_iff_not_mem_keys.mpr hkey, lookup_of_mem hobserved hentry] at settled
      rw [orphanChange_eq_none.mpr (settled actual rfl)] at hchange
      cases hchange

theorem planScheduleReconciliation_eq_ok {hashing : Hashing} {plan : SchedulePlan}
    (h : planScheduleReconciliation hashing desired observed .requireExplicit = .ok plan) :
    (∀ entry ∈ desired, entry.1 = entry.2.scheduleId) ∧
      (∀ entry ∈ observed, entry.1 = entry.2.scheduleId) ∧ plan.desired = desired ∧
      plan.observed = observed ∧
      plan.changes = scheduleChanges desired observed .requireExplicit := by
  simp only [planScheduleReconciliation, require_bind_eq_ok] at h
  obtain ⟨hdesired, hobserved, heq⟩ := h
  cases heq
  exact ⟨hdesired, hobserved, by simp [retained], rfl, rfl⟩

end Plan

end Justflow
