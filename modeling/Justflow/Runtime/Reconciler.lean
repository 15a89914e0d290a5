import Justflow.Library.Tables
import Justflow.Activation.ControlPlane
import Justflow.Runtime.Scope

/-!
# Schedule reconciler

The reconciler observes the schedules of one scope, plans with `planScheduleReconciliation`, and
applies a plan that was confirmed and has no conflict, one change after the other.  Ownership is
read from the memo of a schedule; an update keeps that memo and replaces everything else.
-/

open Fields

namespace Justflow

def scheduleIdPrefix : String := "justflow.schedule."
def scheduleDispatchWorkflowIdPrefix : String := "justflow.schedule-dispatch."
def scheduleDispatchWorkflowType : String := "justflow.schedule-dispatch.v1"
def scheduledStartScheduleIdPrefix : String := "jf1.scheduled-start-schedule."
def scheduledStartMaintenanceIdPrefix : String := "justflow-scheduled-start-maintenance-"

/-- What a memo holds under a key. -/
inductive MemoString where
  | missing
  | decoded (value : String)
  | corrupt
  deriving DecidableEq

def MemoString.value : MemoString → Option String
  | .decoded value => some value
  | _ => none

/-- An action that starts a workflow, with what its memo holds. -/
structure ScheduleAction where
  workflow : String
  id : String
  owner : MemoString
  scheduleName : MemoString
  desiredDigest : MemoString
  deriving DecidableEq

/-- A schedule in Temporal: what its memo holds, its action unless that is of another kind, and its
specification, policy and state. -/
structure TemporalSchedule where
  owner : MemoString
  scheduleName : MemoString
  scopeDigest : MemoString
  action : Option ScheduleAction
  content : JsonValue

abbrev ScheduleStore := Table String TemporalSchedule

def corruptMemoKeys (results : List (String × MemoString)) : List String :=
  (sortKeys results).filterMap fun entry => if entry.2 = .corrupt then some entry.1 else none

def expectedActionId (hashing : Hashing) (scopeDigest : Option String) (scheduleName : String) :
    Option String :=
  match scopeDigest with
  | none => some (scheduleDispatchWorkflowIdPrefix ++ scheduleName)
  | some text => (validateScopeDigest text).map fun digest =>
      hashing.scopedIdentity "schedule-dispatch" digest [scheduleName]

def TemporalSchedule.corruptKeys (self : TemporalSchedule) : List String :=
  corruptMemoKeys [("justflow.schedule_owner", self.owner),
    ("justflow.schedule_name", self.scheduleName), ("justflow.scope_digest", self.scopeDigest)]

def ScheduleAction.corruptKeys (self : ScheduleAction) : List String :=
  corruptMemoKeys [("justflow.schedule_owner", self.owner),
    ("justflow.schedule_name", self.scheduleName),
    ("justflow.schedule_desired_digest", self.desiredDigest)]

/-- A schedule whose action was not read. -/
def TemporalSchedule.unread (self : TemporalSchedule) (scheduleId : String) (actionValid : Bool)
    (corruptMetadataKeys : List String) : ObservedSchedule where
  scheduleId := scheduleId
  owner := self.owner.value
  scheduleName := self.scheduleName.value
  desiredDigest := none
  scopeDigest := self.scopeDigest.value
  actionValid := actionValid
  corruptMetadataKeys := corruptMetadataKeys

/-- `observed_schedule_from_description`; nothing where the scope of the memo is no digest, which
raises. -/
def observedScheduleFromDescription (hashing : Hashing) (scheduleId : String)
    (schedule : TemporalSchedule) : Option ObservedSchedule :=
  if schedule.corruptKeys ≠ [] then some (schedule.unread scheduleId true schedule.corruptKeys)
  else if schedule.owner.value ≠ some scheduleOwner then some (schedule.unread scheduleId true [])
  else
    match schedule.scheduleName.value, schedule.action with
    | none, _ => some (schedule.unread scheduleId true [])
    | some _, none => some (schedule.unread scheduleId false [])
    | some scheduleName, some action =>
        (expectedActionId hashing schedule.scopeDigest.value scheduleName).map fun expected =>
          { scheduleId := scheduleId
            owner := schedule.owner.value
            scheduleName := some scheduleName
            desiredDigest := action.desiredDigest.value
            scopeDigest := schedule.scopeDigest.value
            actionValid := action.owner.value = some scheduleOwner ∧
              action.scheduleName.value = some scheduleName ∧
              action.workflow = scheduleDispatchWorkflowType ∧ action.id = expected
            corruptMetadataKeys := action.corruptKeys }

inductive ScheduleReconciliationError where
  | collectionLimit | confirmationRequired | planConflict
  | planning (failure : ActivationFailure)
  | escaped

inductive ScheduleApplyErrorCode where
  | ownershipChanged | temporalUnavailable
  deriving DecidableEq

/-- Whether a change was made, or had been made before. -/
inductive ScheduleMutation where
  | applied | alreadyApplied
  deriving DecidableEq

structure ScheduleApplyItem where
  scheduleId : String
  scheduleName : Option String
  change : ScheduleChangeKind
  status : Except ScheduleApplyErrorCode ScheduleMutation

/-- A reconciler, with what `compile_schedule` renders of a declaration. -/
structure ScheduleReconciler where
  hashing : Hashing
  scope : RuntimeScope
  maxSchedules : Nat
  content : DesiredSchedule → JsonValue

namespace ScheduleReconciler

variable (self : ScheduleReconciler)

/-! ## Observation -/

/-- The schedules that are no scheduled starts. -/
def scanned (store : ScheduleStore) : List (String × TemporalSchedule) :=
  store.entries.filter fun entry =>
    !(startsWith entry.1 scheduledStartScheduleIdPrefix ||
      startsWith entry.1 scheduledStartMaintenanceIdPrefix)

def owns (scopeDigest : Option String) : Bool :=
  legacyLocalUnscopedPolicy.owns self.hashing scopeDigest self.scope

/-- The schedule is of the scope, or its scope cannot be read and its identity is of the scope. -/
def listed (scheduleId : String) (schedule : TemporalSchedule) : Bool :=
  let corruptScopeBelongsHere := schedule.scopeDigest = .corrupt &&
    (identityBelongsToScope self.hashing scheduleId .schedule self.scope ||
      (self.scope = localRuntimeScope && startsWith scheduleId scheduleIdPrefix))
  self.owns schedule.scopeDigest.value || corruptScopeBelongsHere

/-- `observe_entry`. -/
def observeEntry (scheduleId : String) (schedule : TemporalSchedule) :
    Except ScheduleReconciliationError (String × ObservedSchedule) :=
  if schedule.corruptKeys ≠ [] then
    .ok (scheduleId, schedule.unread scheduleId true schedule.corruptKeys)
  else if schedule.owner.value ≠ some scheduleOwner then
    .ok (scheduleId, schedule.unread scheduleId true [])
  else
    match observedScheduleFromDescription self.hashing scheduleId schedule with
    | some observed => .ok (observed.scheduleId, observed)
    | none => .error .escaped

def observe (store : ScheduleStore) :
    Except ScheduleReconciliationError (List (String × ObservedSchedule)) :=
  if (scanned store).length ≤ self.maxSchedules then
    ((scanned store).filter fun entry => self.listed entry.1 entry.2).mapM fun entry =>
      self.observeEntry entry.1 entry.2
  else .error .collectionLimit

def plan (store : ScheduleStore) (desired : List (String × DesiredSchedule))
    (decision : UnscopedScheduleDecision) : Except ScheduleReconciliationError SchedulePlan := do
  let observed ← self.observe store
  (planScheduleReconciliation self.hashing desired observed decision).mapError .planning

/-! ## Changes -/

def dispatchAction (desired : DesiredSchedule) : ScheduleAction where
  workflow := scheduleDispatchWorkflowType
  id := self.scope.identity self.hashing .scheduleDispatch [desired.scheduleName]
  owner := .decoded scheduleOwner
  scheduleName := .decoded desired.scheduleName
  desiredDigest := .decoded desired.desiredDigest.text

/-- The schedule that a creation leaves. -/
def created (desired : DesiredSchedule) : TemporalSchedule where
  owner := .decoded scheduleOwner
  scheduleName := .decoded desired.scheduleName
  scopeDigest := .decoded (self.scope.digest self.hashing).text
  action := some (self.dispatchAction desired)
  content := self.content desired

/-- The schedule that an update leaves: its memo stays. -/
def updated (schedule : TemporalSchedule) (desired : DesiredSchedule) : TemporalSchedule :=
  { schedule with action := some (self.dispatchAction desired), content := self.content desired }

abbrev Mutated := Except ScheduleApplyErrorCode ScheduleMutation × ScheduleStore

/-- `_create`. -/
def create (store : ScheduleStore) (desired : DesiredSchedule) : Mutated :=
  match store.get? desired.scheduleId with
  | none => (.ok .applied, store.insert desired.scheduleId (self.created desired))
  | some actual =>
      match observedScheduleFromDescription self.hashing desired.scheduleId actual with
      | none => (.error .temporalUnavailable, store)
      | some observed =>
          if matchesDesired observed desired then (.ok .alreadyApplied, store)
          else (.error .ownershipChanged, store)

/-- `_update`. -/
def update (store : ScheduleStore) (desired : DesiredSchedule) (expected : ObservedSchedule) :
    Mutated :=
  match store.get? desired.scheduleId with
  | none => (.error .ownershipChanged, store)
  | some schedule =>
      match observedScheduleFromDescription self.hashing desired.scheduleId schedule with
      | none => (.error .temporalUnavailable, store)
      | some actual =>
          if ¬ sameManagedIdentity actual desired then (.error .ownershipChanged, store)
          else if actual.desiredDigest = some desired.desiredDigest.text then
            (.ok .alreadyApplied, store)
          else if actual ≠ expected then (.error .ownershipChanged, store)
          else (.ok .applied,
            store.insert desired.scheduleId (self.updated schedule desired))

/-- `_delete`. -/
def delete (store : ScheduleStore) (expected : ObservedSchedule) : Mutated :=
  match store.get? expected.scheduleId with
  | none => (.ok .alreadyApplied, store)
  | some schedule =>
      match observedScheduleFromDescription self.hashing expected.scheduleId schedule with
      | none => (.error .temporalUnavailable, store)
      | some actual =>
          if actual ≠ expected ∨ ¬ actual.validManagedIdentity then
            (.error .ownershipChanged, store)
          else (.ok .applied, store.erase expected.scheduleId)

/-- `_apply_change`; a plan without the schedule of a change raises. -/
def applyChange (plan : SchedulePlan) (store : ScheduleStore) (change : ScheduleChange) :
    Mutated :=
  match change.kind with
  | .create =>
      match plan.desired.lookup change.scheduleId with
      | some desired => self.create store desired
      | none => (.error .temporalUnavailable, store)
  | .update =>
      match plan.desired.lookup change.scheduleId, plan.observed.lookup change.scheduleId with
      | some desired, some expected => self.update store desired expected
      | _, _ => (.error .temporalUnavailable, store)
  | .delete =>
      match plan.observed.lookup change.scheduleId with
      | some expected => self.delete store expected
      | none => (.error .temporalUnavailable, store)
  | .conflict => (.error .ownershipChanged, store)

/-- The changes one after the other; a failed one does not stop the others. -/
def applyChanges (plan : SchedulePlan) :
    ScheduleStore → List ScheduleChange → List ScheduleApplyItem × ScheduleStore
  | store, [] => ([], store)
  | store, change :: rest =>
      let mutated := self.applyChange plan store change
      let later := applyChanges plan mutated.2 rest
      (⟨change.scheduleId, change.scheduleName, change.kind, mutated.1⟩ :: later.1, later.2)

/-- `apply`, with its checks. -/
def apply (store : ScheduleStore) (plan : SchedulePlan) (confirmation : ProvenanceDigest) :
    Except ScheduleReconciliationError (List ScheduleApplyItem × ScheduleStore) :=
  if confirmation ≠ plan.planDigest then .error .confirmationRequired
  else if plan.hasConflicts then .error .planConflict
  else .ok (self.applyChanges plan store plan.changes)

end ScheduleReconciler

end Justflow
