import Justflow.Runtime.Replanning

/-!
# Convergence of the reconciler

`Between` describes the stores that a plan can leave behind when only some of its changes are
made, in any order and any number of times.  From each of them the next plan makes the rest, and
all of them lead to the same schedules.
-/

open Fields

namespace Justflow

namespace ScheduleReconciler

open Reconciliation

variable {self : ScheduleReconciler} {desired : List (String × DesiredSchedule)}
  {decision : UnscopedScheduleDecision} {base store : ScheduleStore}

/-- What `compile_schedule` makes for the scope of the reconciler. -/
structure Compiled (reconciler : ScheduleReconciler) (desired : List (String × DesiredSchedule)) :
    Prop where
  nodup : (keys desired).Nodup
  key : ∀ entry ∈ desired, entry.1 = entry.2.scheduleId
  id : ∀ entry ∈ desired, entry.2.scheduleId =
    reconciler.scope.identity reconciler.hashing .schedule [entry.2.scheduleName]
  scope : ∀ entry ∈ desired,
    entry.2.target.scopeDigest = some (reconciler.scope.digest reconciler.hashing)

theorem Compiled.wellScoped (compiled : self.Compiled desired) : Scoped desired where
  nodup := compiled.nodup
  scopes := by
    intro entry mem
    rw [compiled.scope entry mem]
    simp

/-! ## Descriptions -/

theorem observed_scheduleId {hashing : Hashing} {id : String} {schedule : TemporalSchedule}
    {observed : ObservedSchedule}
    (h : observedScheduleFromDescription hashing id schedule = some observed) :
    observed.scheduleId = id := by
  rw [observedScheduleFromDescription] at h
  split at h
  · cases h
    rfl
  · split at h
    · cases h
      rfl
    · split at h
      · cases h
        rfl
      · cases h
        rfl
      · obtain ⟨expected, -, rfl⟩ := Option.map_eq_some_iff.mp h
        rfl

theorem corruptMemoKeys_nil {results : List (String × MemoString)}
    (h : ∀ entry ∈ results, entry.2 ≠ .corrupt) : corruptMemoKeys results = [] := by
  simp only [corruptMemoKeys, List.filterMap_eq_nil_iff]
  intro entry mem
  rw [(sameFields_sortKeys results).mem_iff] at mem
  rw [if_neg (h entry mem)]

theorem not_corrupt_of_nil {results : List (String × MemoString)}
    (h : corruptMemoKeys results = []) : ∀ entry ∈ results, entry.2 ≠ .corrupt := by
  intro entry mem corrupt
  simp only [corruptMemoKeys, List.filterMap_eq_nil_iff] at h
  have none := h entry (((sameFields_sortKeys results).mem_iff entry).mpr mem)
  rw [if_pos corrupt] at none
  cases none

/-- The description of a schedule under a readable memo with the action of a desired schedule. -/
theorem observed_dispatch {wanted : DesiredSchedule} {schedule : TemporalSchedule}
    (action : schedule.action = some (self.dispatchAction wanted))
    (owner : schedule.owner = .decoded scheduleOwner)
    (name : schedule.scheduleName = .decoded wanted.scheduleName)
    (scope : schedule.scopeDigest = .decoded (self.scope.digest self.hashing).text)
    (target : wanted.target.scopeDigest = some (self.scope.digest self.hashing)) :
    observedScheduleFromDescription self.hashing wanted.scheduleId schedule =
      some wanted.observed := by
  have readable : schedule.corruptKeys = [] := by
    apply corruptMemoKeys_nil
    simp [owner, name, scope]
  have readableAction : (self.dispatchAction wanted).corruptKeys = [] := by
    apply corruptMemoKeys_nil
    simp [dispatchAction]
  rw [observedScheduleFromDescription]
  simp [readable, owner, name, scope, action, MemoString.value, expectedActionId,
    DesiredSchedule.observed, target, dispatchAction, RuntimeScope.identity,
    IdentityKind.scheduleDispatch]
  exact readableAction

/-- A managed schedule is described from a readable memo. -/
theorem memo_of_managed {id : String} {schedule : TemporalSchedule} {observed : ObservedSchedule}
    (h : observedScheduleFromDescription self.hashing id schedule = some observed)
    (valid : observed.validManagedIdentity = true) {scheduleName scopeText : String}
    (name : observed.scheduleName = some scheduleName)
    (scope : observed.scopeDigest = some scopeText) :
    schedule.owner = .decoded scheduleOwner ∧ schedule.scheduleName = .decoded scheduleName ∧
      schedule.scopeDigest = .decoded scopeText := by
  have value {memo : MemoString} {text : String} (h : memo.value = some text) :
      memo = .decoded text := by
    cases memo with
    | decoded found => exact congrArg MemoString.decoded (Option.some.inj h)
    | missing | corrupt => cases h
  simp only [ObservedSchedule.validManagedIdentity, ObservedSchedule.managed,
    decide_eq_true_eq] at valid
  have owner := valid.2.1
  rw [observedScheduleFromDescription] at h
  split at h
  · cases h
    exact ⟨value owner, value name, value scope⟩
  · split at h
    · cases h
      exact ⟨value owner, value name, value scope⟩
    · split at h
      · cases h
        exact ⟨value owner, value name, value scope⟩
      · cases h
        exact ⟨value owner, value name, value scope⟩
      · next found _ hname _ =>
          obtain ⟨expected, -, rfl⟩ := Option.map_eq_some_iff.mp h
          have same : found = scheduleName := Option.some.inj name
          exact ⟨value owner, value (same ▸ hname), value scope⟩

/-! ## Observations -/

/-- The reconciler lists the schedule and observes it. -/
def visible (self : ScheduleReconciler) (id : String) (schedule : TemporalSchedule) : Bool :=
  !(startsWith id scheduledStartScheduleIdPrefix ||
    startsWith id scheduledStartMaintenanceIdPrefix) && self.listed id schedule

/-- What is observed under an identity. -/
def view (self : ScheduleReconciler) (store : ScheduleStore) (id : String) :
    Option ObservedSchedule :=
  (store.get? id).bind fun schedule =>
    if self.visible id schedule then observedScheduleFromDescription self.hashing id schedule
    else none

def entryView (self : ScheduleReconciler) (entry : String × TemporalSchedule) :
    Option (String × ObservedSchedule) :=
  (observedScheduleFromDescription self.hashing entry.1 entry.2).map fun observed =>
    (entry.1, observed)

/-- What `observe` returns within its bound. -/
def observations (self : ScheduleReconciler) (store : ScheduleStore) :
    List (String × ObservedSchedule) :=
  ((scanned store).filter fun entry => self.listed entry.1 entry.2).filterMap self.entryView

/-- The scope of a listed schedule is the reconciler's, absent or unreadable, so its description
does not raise. -/
theorem described_of_listed {id : String} {schedule : TemporalSchedule}
    (h : self.listed id schedule = true) :
    (observedScheduleFromDescription self.hashing id schedule).isSome = true := by
  rw [observedScheduleFromDescription]
  split
  · rfl
  · next readable =>
      split
      · rfl
      · split
        · rfl
        · rfl
        · have scope : schedule.scopeDigest ≠ .corrupt := by
            refine not_corrupt_of_nil (not_not.mp readable)
              ("justflow.scope_digest", schedule.scopeDigest) ?_
            simp
          simp only [listed, scope, decide_false, Bool.false_and, Bool.or_false, owns,
            ScopeCompatibilityPolicy.owns] at h
          split at h
          · next own => simp [expectedActionId, own]
          · simp only [Bool.and_eq_true, decide_eq_true_eq] at h
            simp [expectedActionId, h.1.1]

theorem observeEntry_eq (id : String) (schedule : TemporalSchedule) :
    self.observeEntry id schedule =
      match observedScheduleFromDescription self.hashing id schedule with
      | some observed => .ok (id, observed)
      | none => .error .escaped := by
  rw [observeEntry]
  split
  · next corrupt => rw [observedScheduleFromDescription, if_pos corrupt]
  · next readable =>
      split
      · next foreign => rw [observedScheduleFromDescription, if_neg readable, if_pos foreign]
      · cases described : observedScheduleFromDescription self.hashing id schedule with
        | none => rfl
        | some observed => simp [observed_scheduleId described]

theorem mapM_observeEntry {entries : List (String × TemporalSchedule)}
    (described : ∀ entry ∈ entries,
      (observedScheduleFromDescription self.hashing entry.1 entry.2).isSome = true) :
    (entries.mapM fun entry => self.observeEntry entry.1 entry.2) =
      .ok (entries.filterMap self.entryView) := by
  induction entries with
  | nil => rfl
  | cons entry rest ih =>
      obtain ⟨observed, found⟩ := Option.isSome_iff_exists.mp (described entry List.mem_cons_self)
      have later := ih fun other mem => described other (List.mem_cons_of_mem _ mem)
      rw [List.mapM_cons, observeEntry_eq, found, later]
      simp [entryView, found, bind, Except.bind, pure, Except.pure]

theorem observe_eq (store : ScheduleStore) :
    self.observe store =
      if (scanned store).length ≤ self.maxSchedules then .ok (self.observations store)
      else .error .collectionLimit := by
  rw [observe]
  split
  · apply mapM_observeEntry
    intro entry mem
    exact described_of_listed (List.mem_filter.mp mem).2
  · rfl

theorem keys_filterMap_sublist {α β : Type} {f : String × α → Option (String × β)}
    (h : ∀ entry result, f entry = some result → result.1 = entry.1)
    (entries : List (String × α)) : (keys (entries.filterMap f)).Sublist (keys entries) := by
  induction entries with
  | nil => exact List.Sublist.slnil
  | cons entry rest ih =>
      cases result : f entry with
      | none =>
          rw [List.filterMap_cons_none result]
          exact ih.cons _
      | some found =>
          rw [List.filterMap_cons_some result, keys_cons, keys_cons, h entry found result]
          exact ih.cons_cons _

theorem entryView_key (entry : String × TemporalSchedule) (result : String × ObservedSchedule)
    (h : self.entryView entry = some result) : result.1 = entry.1 := by
  obtain ⟨observed, -, rfl⟩ := Option.map_eq_some_iff.mp h
  rfl

theorem nodup_observations (store : ScheduleStore) : (keys (self.observations store)).Nodup := by
  apply (keys_filterMap_sublist entryView_key _).nodup
  exact ((List.filter_sublist.trans List.filter_sublist).map Prod.fst).nodup store.nodup

theorem mem_observations {id : String} {observed : ObservedSchedule} :
    (id, observed) ∈ self.observations store ↔ self.view store id = some observed := by
  simp only [observations, List.mem_filterMap, List.mem_filter, scanned, view,
    Option.bind_eq_some_iff]
  constructor
  · rintro ⟨⟨key, schedule⟩, ⟨⟨mem, outside⟩, listed⟩, h⟩
    obtain ⟨found, described, same⟩ := Option.map_eq_some_iff.mp h
    cases same
    refine ⟨schedule, Table.mem_entries_iff.mp mem, ?_⟩
    rw [if_pos]
    · exact described
    · rw [visible, outside, listed]
      rfl
  · rintro ⟨schedule, found, h⟩
    split at h
    · next shown =>
        rw [visible, Bool.and_eq_true] at shown
        refine ⟨(id, schedule), ⟨⟨Table.mem_entries_iff.mpr found, shown.1⟩, shown.2⟩, ?_⟩
        rw [entryView, h]
        rfl
    · cases h

theorem lookup_observations (id : String) :
    (self.observations store).lookup id = self.view store id := by
  cases seen : self.view store id with
  | some observed => exact lookup_of_mem (nodup_observations store) (mem_observations.mpr seen)
  | none =>
      rw [lookup_eq_none_iff_not_mem_keys]
      intro mem
      obtain ⟨entry, hentry, rfl⟩ := List.mem_map.mp mem
      rw [mem_observations.mp hentry] at seen
      cases seen

/-! ## Plans -/

/-- The changes that are planned for a store. -/
def changes (self : ScheduleReconciler) (desired : List (String × DesiredSchedule))
    (decision : UnscopedScheduleDecision) (store : ScheduleStore) : List ScheduleChange :=
  scheduleChanges desired (self.observations store) decision

/-- What `plan` computes, with the bound on the schedules that it scans. -/
structure Planned (reconciler : ScheduleReconciler) (desired : List (String × DesiredSchedule))
    (decision : UnscopedScheduleDecision) (store : ScheduleStore) (plan : SchedulePlan) : Prop where
  desired_eq : plan.desired =
    desired.filter fun entry => ¬ retained (reconciler.observations store) decision entry.2
  observed_eq : plan.observed = reconciler.observations store
  changes_eq : plan.changes = reconciler.changes desired decision store

theorem plan_ok (compiled : self.Compiled desired)
    (within : (scanned store).length ≤ self.maxSchedules) :
    ∃ plan, self.plan store desired decision = .ok plan ∧
      self.Planned desired decision store plan := by
  have keysObserved : ∀ entry ∈ self.observations store, entry.1 = entry.2.scheduleId := by
    rintro ⟨id, observed⟩ mem
    have seen := mem_observations.mp mem
    obtain ⟨schedule, -, h⟩ := Option.bind_eq_some_iff.mp seen
    split at h
    · exact (observed_scheduleId h).symm
    · cases h
  refine ⟨{
    desired := desired.filter fun entry => ¬ retained (self.observations store) decision entry.2
    observed := self.observations store
    changes := self.changes desired decision store
    planDigest := self.hashing.provenanceDigest (schedulePlanIdentity desired
      (self.observations store) (self.changes desired decision store) decision) }, ?_, ?_⟩
  · rw [plan, observe_eq, if_pos within]
    simp only [bind, Except.bind, planScheduleReconciliation, require,
      if_pos compiled.key, if_pos keysObserved]
    rfl
  · exact ⟨rfl, rfl, rfl⟩

theorem planned_of_ok {plan : SchedulePlan} (h : self.plan store desired decision = .ok plan)
    (compiled : self.Compiled desired) : self.Planned desired decision store plan := by
  by_cases within : (scanned store).length ≤ self.maxSchedules
  · obtain ⟨found, ok, planned⟩ := @plan_ok self desired decision store compiled within
    cases h.symm.trans ok
    exact planned
  · rw [ScheduleReconciler.plan, observe_eq, if_neg within] at h
    cases h

theorem Planned.lookup_desired {plan : SchedulePlan}
    (planned : self.Planned desired decision store plan) (compiled : self.Compiled desired)
    {entry : String × DesiredSchedule} (mem : entry ∈ desired)
    (left : retained (self.observations store) decision entry.2 = false) :
    plan.desired.lookup entry.1 = some entry.2 := by
  rw [planned.desired_eq]
  apply lookup_of_mem
  · exact (List.filter_sublist.map Prod.fst).nodup compiled.nodup
  · simp [mem, left]

/-! ## Single changes -/

theorem desiredChange_update {observed : List (String × ObservedSchedule)} {id : String}
    {wanted : DesiredSchedule} {change : ScheduleChange}
    (h : desiredChange observed id wanted = some change) (kind : change.kind = .update) :
    ∃ actual, observed.lookup id = some actual ∧ actual.validManagedIdentity = true ∧
      actual.scheduleName = some wanted.scheduleName ∧
      actual.scopeDigest = wanted.target.scopeDigest.map Digest.text ∧
      actual.desiredDigest ≠ some wanted.desiredDigest.text := by
  rw [desiredChange] at h
  cases found : observed.lookup id with
  | none =>
      simp only [found, Option.some.injEq] at h
      subst h
      cases kind
  | some actual =>
      simp only [found] at h
      split_ifs at h with corrupt managed invalid scope digest
      all_goals cases h
      all_goals first
        | (cases kind; done)
        | (simp only [not_or, not_not] at invalid
           exact ⟨actual, rfl, invalid.1, invalid.2, not_not.mp scope, digest⟩)

theorem orphanChange_delete {observed : List (String × ObservedSchedule)} {id : String}
    {actual : ObservedSchedule} {change : ScheduleChange}
    (h : orphanChange desired observed decision id actual = some change)
    (kind : change.kind = .delete) : actual.validManagedIdentity = true := by
  rw [orphanChange] at h
  dsimp only at h
  split_ifs at h with corrupt managed unscoped first second third
  all_goals first
    | (cases h; cases kind; done)
    | exact second.1
    | exact third

/-- What one change of a clean plan is about. -/
inductive ChangeOf (reconciler : ScheduleReconciler) (desired : List (String × DesiredSchedule))
    (decision : UnscopedScheduleDecision) (base : ScheduleStore) (change : ScheduleChange) :
    Prop where
  | create (wanted : DesiredSchedule) (kind : change.kind = .create)
      (mem : (change.scheduleId, wanted) ∈ desired)
      (left : retained (reconciler.observations base) decision wanted = false)
  | update (wanted : DesiredSchedule) (schedule : TemporalSchedule) (actual : ObservedSchedule)
      (kind : change.kind = .update) (mem : (change.scheduleId, wanted) ∈ desired)
      (left : retained (reconciler.observations base) decision wanted = false)
      (found : base.get? change.scheduleId = some schedule)
      (shown : reconciler.visible change.scheduleId schedule = true)
      (described : observedScheduleFromDescription reconciler.hashing change.scheduleId schedule =
        some actual)
      (valid : actual.validManagedIdentity = true)
      (name : actual.scheduleName = some wanted.scheduleName)
      (scope : actual.scopeDigest = wanted.target.scopeDigest.map Digest.text)
      (differs : actual.desiredDigest ≠ some wanted.desiredDigest.text)
  | delete (schedule : TemporalSchedule) (actual : ObservedSchedule)
      (kind : change.kind = .delete)
      (found : base.get? change.scheduleId = some schedule)
      (shown : reconciler.visible change.scheduleId schedule = true)
      (described : observedScheduleFromDescription reconciler.hashing change.scheduleId schedule =
        some actual)
      (valid : actual.validManagedIdentity = true)

theorem described_of_view {id : String} {observed : ObservedSchedule}
    (h : self.view store id = some observed) :
    ∃ schedule, store.get? id = some schedule ∧ self.visible id schedule = true ∧
      observedScheduleFromDescription self.hashing id schedule = some observed := by
  obtain ⟨schedule, found, h⟩ := Option.bind_eq_some_iff.mp h
  split at h
  · next shown => exact ⟨schedule, found, shown, h⟩
  · cases h

theorem view_of_described {id : String} {schedule : TemporalSchedule}
    {observed : ObservedSchedule} (found : store.get? id = some schedule)
    (shown : self.visible id schedule = true)
    (described : observedScheduleFromDescription self.hashing id schedule = some observed) :
    self.view store id = some observed := by
  simp [view, found, shown, described]

theorem changeOf_mem (clean : Clean desired (self.observations base) decision)
    {change : ScheduleChange} (mem : change ∈ self.changes desired decision base) :
    self.ChangeOf desired decision base change := by
  have noConflict := clean change mem
  rcases mem_scheduleChanges_iff.mp mem with ⟨⟨id, wanted⟩, hwanted, left, h⟩ |
    ⟨⟨id, actual⟩, hactual, -, h⟩
  · obtain rfl := (desiredChange_spec h).1
    cases kind : change.kind with
    | create => exact .create wanted kind hwanted left
    | update =>
        obtain ⟨actual, found, valid, name, scope, differs⟩ := desiredChange_update h kind
        rw [lookup_observations] at found
        obtain ⟨schedule, stored, shown, described⟩ := described_of_view found
        exact .update wanted schedule actual kind hwanted left stored shown described valid name
          scope differs
    | delete => exact absurd kind (desiredChange_spec h).2
    | conflict => exact absurd kind noConflict
  · obtain rfl := (orphanChange_spec h).1
    obtain ⟨schedule, stored, shown, described⟩ := described_of_view (mem_observations.mp hactual)
    rcases (orphanChange_spec h).2 with kind | kind
    · exact absurd kind noConflict
    · exact .delete schedule actual kind stored shown described (orphanChange_delete h kind)

/-! ## Partial application -/

/-- What a change leaves under its identity. -/
def outcome (self : ScheduleReconciler) (desired : List (String × DesiredSchedule))
    (base : ScheduleStore) (change : ScheduleChange) : Option TemporalSchedule :=
  match change.kind, desired.lookup change.scheduleId, base.get? change.scheduleId with
  | .create, some wanted, _ => some (self.created wanted)
  | .update, some wanted, some schedule => some (self.updated schedule wanted)
  | .delete, _, _ => none
  | _, _, before => before

/-- The store after some of the planned changes. -/
def Between (self : ScheduleReconciler) (desired : List (String × DesiredSchedule))
    (decision : UnscopedScheduleDecision) (base store : ScheduleStore) : Prop :=
  ∀ id, store.get? id = base.get? id ∨
    ∃ change ∈ self.changes desired decision base, change.scheduleId = id ∧
      store.get? id = self.outcome desired base change

/-- No other schedule holds an identity that is to be created. -/
def Free (self : ScheduleReconciler) (desired : List (String × DesiredSchedule))
    (decision : UnscopedScheduleDecision) (base : ScheduleStore) : Prop :=
  ∀ change ∈ self.changes desired decision base, change.kind = .create →
    base.get? change.scheduleId = none

/-- A schedule of the scope under a desired identity is observed. -/
theorem visible_own (compiled : self.Compiled desired) {id : String} {wanted : DesiredSchedule}
    (mem : (id, wanted) ∈ desired) {schedule : TemporalSchedule}
    (scope : schedule.scopeDigest = .decoded (self.scope.digest self.hashing).text) :
    self.visible id schedule = true := by
  have identity : id = self.scope.identity self.hashing .schedule [wanted.scheduleName] :=
    (compiled.key _ mem).trans (compiled.id _ mem)
  have start : startsWith id scheduledStartScheduleIdPrefix = false := by
    rw [Bool.eq_false_iff, identity]
    intro opening
    have kinds : IdentityKind.scheduledStartSchedule = IdentityKind.schedule :=
      identity_startsWith_kind.mp opening
    exact absurd kinds (by decide)
  have maintenance : startsWith id scheduledStartMaintenanceIdPrefix = false := by
    rw [Bool.eq_false_iff, identity]
    intro opening
    rw [startsWith_iff, toList_identity] at opening
    have second := opening.getElem (show 1 < _ by decide)
    simp [scheduledStartMaintenanceIdPrefix] at second
  have own : self.listed id schedule = true := by
    simp [listed, owns, ScopeCompatibilityPolicy.owns, scope, MemoString.value]
  rw [visible, start, maintenance, own]
  rfl

theorem view_created (compiled : self.Compiled desired) {id : String} {wanted : DesiredSchedule}
    (mem : (id, wanted) ∈ desired) (found : store.get? id = some (self.created wanted)) :
    self.view store id = some wanted.observed := by
  apply view_of_described found (visible_own compiled mem rfl)
  have key : id = wanted.scheduleId := compiled.key _ mem
  rw [key]
  exact observed_dispatch rfl rfl rfl rfl (compiled.scope _ mem)

theorem described_updated (compiled : self.Compiled desired) {id : String}
    {wanted : DesiredSchedule} (mem : (id, wanted) ∈ desired) {schedule : TemporalSchedule}
    {actual : ObservedSchedule}
    (described : observedScheduleFromDescription self.hashing id schedule = some actual)
    (valid : actual.validManagedIdentity = true)
    (name : actual.scheduleName = some wanted.scheduleName)
    (scope : actual.scopeDigest = wanted.target.scopeDigest.map Digest.text) :
    observedScheduleFromDescription self.hashing id (self.updated schedule wanted) =
      some wanted.observed := by
  rw [compiled.scope _ mem, Option.map_some] at scope
  obtain ⟨owner, scheduleName, scopeDigest⟩ := memo_of_managed described valid name scope
  have key : id = wanted.scheduleId := compiled.key _ mem
  rw [key]
  exact observed_dispatch rfl owner scheduleName scopeDigest (compiled.scope _ mem)

/-- What is observed in between is progress of the plan. -/
theorem progress_of_between (compiled : self.Compiled desired)
    (clean : Clean desired (self.observations base) decision)
    (between : self.Between desired decision base store) :
    Progress desired (self.observations base) (self.observations store) decision where
  nodup := nodup_observations base
  nodupLater := nodup_observations store
  each := by
    intro id
    rw [lookup_observations, lookup_observations]
    rcases between id with same | ⟨change, mem, rfl, reached⟩
    · left
      rw [view, view, same]
    · right
      refine ⟨change, mem, rfl, ?_⟩
      rw [Made, lookup_observations]
      rcases changeOf_mem clean mem with ⟨wanted, kind, hwanted, -⟩ |
        ⟨wanted, schedule, actual, kind, hwanted, -, found, shown, described, valid, name, scope, -⟩ |
        ⟨schedule, actual, kind, -, -, -, -⟩
      · have looked := lookup_of_mem compiled.nodup hwanted
        simp only [outcome, kind, looked] at reached ⊢
        exact ⟨wanted, rfl, view_created compiled hwanted reached⟩
      · have looked := lookup_of_mem compiled.nodup hwanted
        simp only [outcome, kind, looked, found] at reached ⊢
        refine ⟨wanted, rfl, view_of_described reached shown ?_⟩
        exact described_updated compiled hwanted described valid name scope
      · simp only [outcome, kind] at reached ⊢
        rw [view, reached]
        rfl

/-! ## Applying a change -/

/-- A plan knows the schedules of one of the changes. -/
structure Knows (reconciler : ScheduleReconciler) (desired : List (String × DesiredSchedule))
    (base : ScheduleStore) (plan : SchedulePlan) (change : ScheduleChange) : Prop where
  wanted : ∀ wanted, (change.scheduleId, wanted) ∈ desired →
    change.kind = .create ∨ change.kind = .update →
    plan.desired.lookup change.scheduleId = some wanted
  expected : plan.observed.lookup change.scheduleId = reconciler.view base change.scheduleId

theorem sameManagedIdentity_observed (wanted : DesiredSchedule) :
    sameManagedIdentity wanted.observed wanted = true := by
  simp [sameManagedIdentity, DesiredSchedule.observed, ObservedSchedule.validManagedIdentity,
    ObservedSchedule.managed]

theorem matchesDesired_observed (wanted : DesiredSchedule) :
    matchesDesired wanted.observed wanted = true := by
  simp [matchesDesired, sameManagedIdentity_observed]
  rfl

/-- One planned change, made now or made before: it succeeds, leaves its outcome, and touches
nothing else. -/
theorem applyChange_spec (compiled : self.Compiled desired)
    (clean : Clean desired (self.observations base) decision)
    (free : self.Free desired decision base)
    (between : self.Between desired decision base store) {plan : SchedulePlan}
    {change : ScheduleChange} (mem : change ∈ self.changes desired decision base)
    (knows : self.Knows desired base plan change) :
    (∃ mutation, (self.applyChange plan store change).1 = .ok mutation) ∧
      (self.applyChange plan store change).2.get? change.scheduleId =
        self.outcome desired base change ∧
      ∀ id, id ≠ change.scheduleId →
        (self.applyChange plan store change).2.get? id = store.get? id := by
  -- What is stored under the identity is what was there, or the outcome already.
  have stored : store.get? change.scheduleId = base.get? change.scheduleId ∨
      store.get? change.scheduleId = self.outcome desired base change := by
    rcases between change.scheduleId with same | ⟨other, hother, key, reached⟩
    · exact .inl same
    · obtain rfl := change_unique compiled.nodup (nodup_observations base) hother mem key
      exact .inr reached
  rcases changeOf_mem clean mem with ⟨wanted, kind, hwanted, -⟩ |
    ⟨wanted, schedule, actual, kind, hwanted, -, found, shown, described, valid, name, scope,
      differs⟩ | ⟨schedule, actual, kind, found, shown, described, valid⟩
  · have key : change.scheduleId = wanted.scheduleId := compiled.key _ hwanted
    have looked := lookup_of_mem compiled.nodup hwanted
    have reached : self.outcome desired base change = some (self.created wanted) := by
      simp only [outcome, kind, looked]
    rw [free change mem kind, reached, key] at stored
    rw [reached, applyChange, kind]
    simp only [knows.wanted wanted hwanted (.inl kind), create]
    rcases stored with absent | present
    · rw [absent]
      refine ⟨⟨_, rfl⟩, by rw [key, Table.get?_insert_self], ?_⟩
      intro id other
      exact Table.get?_insert_ne _ (key ▸ other) _
    · have seen := @observed_dispatch self wanted (self.created wanted) rfl rfl rfl rfl
        (compiled.scope _ hwanted)
      simp only [present, seen, matchesDesired_observed, if_true]
      exact ⟨⟨_, rfl⟩, key ▸ present, fun _ _ => trivial⟩
  · have key : change.scheduleId = wanted.scheduleId := compiled.key _ hwanted
    have looked := lookup_of_mem compiled.nodup hwanted
    have reached : self.outcome desired base change = some (self.updated schedule wanted) := by
      simp only [outcome, kind, looked, found]
    have expected := knows.expected.trans (view_of_described found shown described)
    rw [found, reached, key] at stored
    rw [reached, applyChange, kind]
    simp only [knows.wanted wanted hwanted (.inr kind), expected, update]
    rcases stored with before | present
    · have identity : sameManagedIdentity actual wanted = true := by
        simp [sameManagedIdentity, valid, name, scope, observed_scheduleId described, key]
      rw [key] at described
      simp only [before, described, identity, differs, not_true_eq_false, if_false, ne_eq]
      refine ⟨⟨_, rfl⟩, by rw [key, Table.get?_insert_self], ?_⟩
      intro id other
      exact Table.get?_insert_ne _ (key ▸ other) _
    · have seen := described_updated compiled hwanted described valid name scope
      rw [key] at seen
      have digest : wanted.observed.desiredDigest = some wanted.desiredDigest.text := rfl
      simp only [present, seen, sameManagedIdentity_observed, digest, not_true_eq_false, if_false,
        if_true]
      exact ⟨⟨_, rfl⟩, key ▸ present, fun _ _ => trivial⟩
  · have reached : self.outcome desired base change = none := by
      simp only [outcome, kind]
    have expected := knows.expected.trans (view_of_described found shown described)
    have id := observed_scheduleId described
    rw [found, reached] at stored
    rw [reached, applyChange, kind]
    simp only [expected, delete, id]
    rcases stored with before | gone
    · simp only [before, described, valid, ne_eq, not_true_eq_false, or_self, if_false]
      refine ⟨⟨_, rfl⟩, Table.get?_erase_self _ _, ?_⟩
      intro other hother
      exact Table.get?_erase_ne _ hother
    · simp only [gone]
      exact ⟨⟨_, rfl⟩, trivial, fun _ _ => trivial⟩

/-! ## Applying several changes -/

/-- Every item of a report says that its change is made. -/
def Succeeded (items : List ScheduleApplyItem) : Prop :=
  ∀ item ∈ items, ∃ mutation, item.status = .ok mutation

/-- A list of planned changes, in any order: all succeed, each leaves its outcome, and nothing
else is touched. -/
theorem applyChanges_spec (compiled : self.Compiled desired)
    (clean : Clean desired (self.observations base) decision)
    (free : self.Free desired decision base) {plan : SchedulePlan} {part : List ScheduleChange}
    (planned : ∀ change ∈ part, change ∈ self.changes desired decision base)
    (knows : ∀ change ∈ part, self.Knows desired base plan change)
    (between : self.Between desired decision base store) :
    Succeeded (self.applyChanges plan store part).1 ∧
      (∀ change ∈ part, (self.applyChanges plan store part).2.get? change.scheduleId =
        self.outcome desired base change) ∧
      ∀ id, (∀ change ∈ part, change.scheduleId ≠ id) →
        (self.applyChanges plan store part).2.get? id = store.get? id := by
  induction part generalizing store with
  | nil =>
      refine ⟨?_, ?_, fun _ _ => rfl⟩
      · intro item h
        cases h
      · intro change h
        cases h
  | cons change rest ih =>
      have mem := planned change List.mem_cons_self
      obtain ⟨succeeded, reached, others⟩ :=
        applyChange_spec compiled clean free between mem (knows change List.mem_cons_self)
      have step : self.Between desired decision base (self.applyChange plan store change).2 := by
        intro id
        by_cases key : id = change.scheduleId
        · exact .inr ⟨change, mem, key.symm, key ▸ reached⟩
        · rw [others id key]
          exact between id
      obtain ⟨succeededRest, reachedRest, othersRest⟩ :=
        ih (fun c h => planned c (List.mem_cons_of_mem _ h))
          (fun c h => knows c (List.mem_cons_of_mem _ h)) step
      refine ⟨?_, ?_, ?_⟩
      · intro item h
        rcases List.mem_cons.mp h with rfl | h
        · exact succeeded
        · exact succeededRest item h
      · intro other h
        by_cases again : ∃ later ∈ rest, later.scheduleId = other.scheduleId
        · obtain ⟨later, hlater, key⟩ := again
          have same := change_unique compiled.nodup (nodup_observations base)
            (planned later (List.mem_cons_of_mem _ hlater)) (planned other h) key
          subst same
          exact reachedRest later hlater
        · rcases List.mem_cons.mp h with rfl | h
          · refine (othersRest _ ?_).trans reached
            intro later hlater key
            exact again ⟨later, hlater, key⟩
          · exact absurd ⟨other, h, rfl⟩ again
      · intro id outside
        refine (othersRest id fun c h => outside c (List.mem_cons_of_mem _ h)).trans ?_
        exact others id (outside change List.mem_cons_self).symm

theorem between_self : self.Between desired decision base base :=
  fun _ => .inl rfl

/-- Partial application stays between the plan's start and its end. -/
theorem between_applyChanges (compiled : self.Compiled desired)
    (clean : Clean desired (self.observations base) decision)
    (free : self.Free desired decision base) {plan : SchedulePlan} {part : List ScheduleChange}
    (planned : ∀ change ∈ part, change ∈ self.changes desired decision base)
    (knows : ∀ change ∈ part, self.Knows desired base plan change) :
    self.Between desired decision base (self.applyChanges plan base part).2 := by
  obtain ⟨-, reached, others⟩ :=
    applyChanges_spec compiled clean free planned knows between_self
  intro id
  by_cases touched : ∃ change ∈ part, change.scheduleId = id
  · obtain ⟨change, hchange, rfl⟩ := touched
    exact .inr ⟨change, planned change hchange, rfl, reached change hchange⟩
  · left
    apply others
    intro change hchange key
    exact touched ⟨change, hchange, key⟩

/-- A plan for a store in between knows the changes that it holds. -/
theorem knows_of_planned (compiled : self.Compiled desired)
    (clean : Clean desired (self.observations base) decision)
    (between : self.Between desired decision base store) {plan : SchedulePlan}
    (planned : self.Planned desired decision store plan) {change : ScheduleChange}
    (mem : change ∈ plan.changes) :
    change ∈ self.changes desired decision base ∧ self.Knows desired base plan change := by
  have progress := progress_of_between compiled clean between
  rw [planned.changes_eq, changes, replan_iff compiled.wellScoped clean progress] at mem
  refine ⟨mem.1, ?_, ?_⟩
  · intro wanted hwanted kind
    refine planned.lookup_desired compiled hwanted ?_
    rw [retained_later compiled.wellScoped clean progress]
    rcases changeOf_mem clean mem.1 with ⟨other, -, hother, left⟩ |
      ⟨other, _, _, -, hother, left, -, -, -, -, -, -, -⟩ | ⟨_, _, delete, -, -, -, -⟩
    · cases (lookup_of_mem compiled.nodup hother).symm.trans (lookup_of_mem compiled.nodup hwanted)
      exact left
    · cases (lookup_of_mem compiled.nodup hother).symm.trans (lookup_of_mem compiled.nodup hwanted)
      exact left
    · rw [delete] at kind
      simp at kind
  · rw [planned.observed_eq, mem.2, lookup_observations]

/-- What a store looks like when every planned change is made. -/
def Complete (self : ScheduleReconciler) (desired : List (String × DesiredSchedule))
    (decision : UnscopedScheduleDecision) (base store : ScheduleStore) : Prop :=
  self.Between desired decision base store ∧
    ∀ change ∈ self.changes desired decision base,
      store.get? change.scheduleId = self.outcome desired base change

theorem Complete.get?_eq {first second : ScheduleStore}
    (hfirst : self.Complete desired decision base first)
    (hsecond : self.Complete desired decision base second) (id : String) :
    first.get? id = second.get? id := by
  rcases hfirst.1 id with same | ⟨change, mem, rfl, reached⟩
  · rcases hsecond.1 id with same' | ⟨change, mem, rfl, reached⟩
    · rw [same, same']
    · rw [reached, hfirst.2 change mem]
  · rw [reached, hsecond.2 change mem]

/-- A change that was made is not observed as it was before. -/
theorem view_ne_of_reached (compiled : self.Compiled desired)
    (clean : Clean desired (self.observations base) decision)
    (free : self.Free desired decision base) {change : ScheduleChange}
    (mem : change ∈ self.changes desired decision base)
    (reached : store.get? change.scheduleId = self.outcome desired base change) :
    self.view store change.scheduleId ≠ self.view base change.scheduleId := by
  rcases changeOf_mem clean mem with ⟨wanted, kind, hwanted, -⟩ |
    ⟨wanted, schedule, actual, kind, hwanted, -, found, shown, described, valid, name, scope,
      differs⟩ | ⟨schedule, actual, kind, found, shown, described, -⟩
  · simp only [outcome, kind, lookup_of_mem compiled.nodup hwanted] at reached
    rw [view_created compiled hwanted reached, view, free change mem kind]
    simp
  · simp only [outcome, kind, lookup_of_mem compiled.nodup hwanted, found] at reached
    rw [view_of_described reached shown
      (described_updated compiled hwanted described valid name scope),
      view_of_described found shown described]
    intro same
    cases same
    exact differs rfl
  · simp only [outcome, kind] at reached
    rw [view_of_described found shown described, view, reached]
    simp

theorem changes_of_complete (compiled : self.Compiled desired)
    (clean : Clean desired (self.observations base) decision)
    (free : self.Free desired decision base)
    (complete : self.Complete desired decision base store) :
    self.changes desired decision store = [] := by
  rw [List.eq_nil_iff_forall_not_mem]
  intro change mem
  rw [changes, replan_iff compiled.wellScoped clean (progress_of_between compiled clean complete.1),
    lookup_observations, lookup_observations] at mem
  exact view_ne_of_reached compiled clean free mem.1 (complete.2 change mem.1) mem.2

/-- The next plan from a store in between completes the first one. -/
theorem complete_of_replan (compiled : self.Compiled desired)
    (clean : Clean desired (self.observations base) decision)
    (free : self.Free desired decision base)
    (between : self.Between desired decision base store) {plan : SchedulePlan}
    (planned : self.Planned desired decision store plan) :
    Succeeded (self.applyChanges plan store plan.changes).1 ∧
      self.Complete desired decision base (self.applyChanges plan store plan.changes).2 := by
  have known := fun (change : ScheduleChange) (h : change ∈ plan.changes) =>
    knows_of_planned compiled clean between planned h
  obtain ⟨succeeded, reached, others⟩ := applyChanges_spec compiled clean free
    (fun change h => (known change h).1) (fun change h => (known change h).2) between
  refine ⟨succeeded, ?_, ?_⟩
  · intro id
    by_cases touched : ∃ change ∈ plan.changes, change.scheduleId = id
    · obtain ⟨change, hchange, rfl⟩ := touched
      exact .inr ⟨change, (known change hchange).1, rfl, reached change hchange⟩
    · rw [others id fun change hchange key => touched ⟨change, hchange, key⟩]
      exact between id
  · intro change mem
    by_cases touched : ∃ other ∈ plan.changes, other.scheduleId = change.scheduleId
    · obtain ⟨other, hother, key⟩ := touched
      have same := change_unique compiled.nodup (nodup_observations base) (known other hother).1
        mem key
      exact same ▸ reached other hother
    · rw [others _ fun other hother key => touched ⟨other, hother, key⟩]
      rcases between change.scheduleId with same | ⟨other, hother, key, done⟩
      · -- An unmade change is in the next plan.
        exfalso
        apply touched
        refine ⟨change, ?_, rfl⟩
        rw [planned.changes_eq, changes,
          replan_iff compiled.wellScoped clean (progress_of_between compiled clean between),
          lookup_observations, lookup_observations, view, view, same]
        exact ⟨mem, rfl⟩
      · have same := change_unique compiled.nodup (nodup_observations base) hother mem key
        exact same ▸ done

end ScheduleReconciler

end Justflow
