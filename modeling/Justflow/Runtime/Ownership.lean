import Justflow.Activation.Lease
import Justflow.Runtime.Convergence

/-!
# Ownership, and the reconciler as a whole

Whatever plan is applied to whatever store, a schedule that is not managed, or not of the
reconciler's scope, stays as it is.  `reconciliation_converges` puts this beside the convergence of
a plan without conflicts.
-/

open Fields

namespace Justflow

namespace ScheduleReconciler

open Reconciliation

variable {self : ScheduleReconciler} {desired : List (String × DesiredSchedule)}
  {decision : UnscopedScheduleDecision} {base store : ScheduleStore}

/-- The memo of the schedule says that it is managed, for the scope of the reconciler. -/
structure Owned (reconciler : ScheduleReconciler) (schedule : TemporalSchedule) : Prop where
  managed : schedule.owner = .decoded scheduleOwner
  readable : schedule.scopeDigest ≠ .corrupt
  owned : reconciler.owns schedule.scopeDigest.value = true

/-- A valid managed identity is read from a readable memo. -/
theorem memo_of_valid {id : String} {schedule : TemporalSchedule} {observed : ObservedSchedule}
    (h : observedScheduleFromDescription self.hashing id schedule = some observed)
    (valid : observed.validManagedIdentity = true) :
    schedule.owner = .decoded scheduleOwner ∧ schedule.scopeDigest ≠ .corrupt ∧
      observed.scopeDigest = schedule.scopeDigest.value := by
  simp only [ObservedSchedule.validManagedIdentity, ObservedSchedule.managed,
    decide_eq_true_eq] at valid
  have owner (h : schedule.owner.value = some scheduleOwner) :
      schedule.owner = .decoded scheduleOwner := by
    cases memo : schedule.owner with
    | decoded text =>
        rw [memo] at h
        exact congrArg MemoString.decoded (Option.some.inj h)
    | missing | corrupt =>
        rw [memo] at h
        cases h
  rw [observedScheduleFromDescription] at h
  split at h
  · next corrupt =>
      cases h
      exact absurd valid.1 corrupt
  · next readable =>
      have scope : schedule.scopeDigest ≠ .corrupt := by
        refine not_corrupt_of_nil (not_not.mp readable)
          ("justflow.scope_digest", schedule.scopeDigest) ?_
        simp
      split at h
      · next foreign =>
          cases h
          exact absurd valid.2.1 foreign
      · next managed =>
          refine ⟨owner (not_not.mp managed), scope, ?_⟩
          split at h
          · cases h
            rfl
          · cases h
            rfl
          · obtain ⟨expected, -, rfl⟩ := Option.map_eq_some_iff.mp h
            rfl

theorem owns_of_listed {id : String} {schedule : TemporalSchedule}
    (readable : schedule.scopeDigest ≠ .corrupt) (h : self.listed id schedule = true) :
    self.owns schedule.scopeDigest.value = true := by
  simpa [listed, readable] using h

theorem create_keeps {wanted : DesiredSchedule} {id : String} {schedule : TemporalSchedule}
    (found : store.get? id = some schedule) :
    (self.create store wanted).2.get? id = some schedule := by
  rw [create]
  split
  · next absent =>
      have other : id ≠ wanted.scheduleId := by
        rintro rfl
        rw [absent] at found
        cases found
      exact (Table.get?_insert_ne _ other _).trans found
  · split
    · exact found
    · split <;> exact found

theorem update_keeps {wanted : DesiredSchedule} {expected : ObservedSchedule} {id : String}
    {schedule : TemporalSchedule} (found : store.get? id = some schedule)
    (scope : wanted.target.scopeDigest = some (self.scope.digest self.hashing))
    (foreign : ¬ self.Owned schedule) :
    (self.update store wanted expected).2.get? id = some schedule := by
  rw [update]
  split
  · exact found
  · next existing hexisting =>
      split
      · exact found
      · next actual described =>
          split_ifs with identity same expectation
          · exact found
          · exact found
          · have other : id ≠ wanted.scheduleId := by
              rintro rfl
              cases hexisting.symm.trans found
              simp only [sameManagedIdentity, decide_eq_true_eq] at identity
              obtain ⟨managed, readable, seen⟩ := memo_of_valid described identity.1
              refine foreign ⟨managed, readable, ?_⟩
              rw [← seen, identity.2.2.2, scope]
              simp [owns, ScopeCompatibilityPolicy.owns]
            exact (Table.get?_insert_ne _ other _).trans found
          · exact found

theorem delete_keeps {expected : ObservedSchedule} {id : String} {schedule : TemporalSchedule}
    (found : store.get? id = some schedule)
    (scope : expected.validManagedIdentity = true → self.owns expected.scopeDigest = true)
    (foreign : ¬ self.Owned schedule) :
    (self.delete store expected).2.get? id = some schedule := by
  rw [delete]
  split
  · exact found
  · next existing hexisting =>
      split
      · exact found
      · next actual described =>
          split_ifs with refused
          · exact found
          · simp only [not_or, not_not] at refused
            obtain ⟨rfl, valid⟩ := refused
            have other : id ≠ actual.scheduleId := by
              rintro rfl
              cases hexisting.symm.trans found
              obtain ⟨managed, readable, seen⟩ := memo_of_valid described valid
              exact foreign ⟨managed, readable, seen ▸ scope valid⟩
            exact (Table.get?_erase_ne _ other).trans found

theorem applyChange_keeps (compiled : self.Compiled desired) {plan : SchedulePlan}
    (planned : self.Planned desired decision base plan) {id : String}
    {schedule : TemporalSchedule} (found : store.get? id = some schedule)
    (foreign : ¬ self.Owned schedule) (change : ScheduleChange) :
    (self.applyChange plan store change).2.get? id = some schedule := by
  have scope {wanted : DesiredSchedule}
      (looked : plan.desired.lookup change.scheduleId = some wanted) :
      wanted.target.scopeDigest = some (self.scope.digest self.hashing) := by
    have mem := mem_lookup looked
    rw [planned.desired_eq] at mem
    exact compiled.scope _ (List.mem_filter.mp mem).1
  have owned {expected : ObservedSchedule}
      (looked : plan.observed.lookup change.scheduleId = some expected)
      (valid : expected.validManagedIdentity = true) :
      self.owns expected.scopeDigest = true := by
    rw [planned.observed_eq, lookup_observations] at looked
    obtain ⟨observed, -, shown, described⟩ := described_of_view looked
    obtain ⟨-, readable, seen⟩ := memo_of_valid described valid
    rw [visible, Bool.and_eq_true] at shown
    rw [seen]
    exact owns_of_listed readable shown.2
  rw [applyChange]
  split
  · split
    · exact create_keeps found
    · exact found
  · split
    · next wanted _ hwanted _ => exact update_keeps found (scope hwanted) foreign
    · exact found
  · split
    · next expected hexpected => exact delete_keeps found (owned hexpected) foreign
    · exact found
  · exact found

theorem applyChanges_keeps (compiled : self.Compiled desired) {plan : SchedulePlan}
    (planned : self.Planned desired decision base plan) {id : String}
    {schedule : TemporalSchedule} (foreign : ¬ self.Owned schedule)
    (part : List ScheduleChange) (found : store.get? id = some schedule) :
    (self.applyChanges plan store part).2.get? id = some schedule := by
  induction part generalizing store with
  | nil => exact found
  | cons change rest ih => exact ih (applyChange_keeps compiled planned found foreign change)

theorem apply_planned {plan : SchedulePlan} (clean : plan.hasConflicts = false) :
    self.apply store plan plan.planDigest = .ok (self.applyChanges plan store plan.changes) := by
  simp [apply, clean]

theorem clean_iff {plan : SchedulePlan} (planned : self.Planned desired decision store plan) :
    plan.hasConflicts = false ↔ Clean desired (self.observations store) decision := by
  simp only [SchedulePlan.hasConflicts, List.any_eq_false, decide_eq_true_eq]
  rw [planned.changes_eq]
  rfl

end ScheduleReconciler

open ScheduleReconciler Reconciliation

/-- Plans respect ownership, and a plan without conflicts converges, from wherever some of its
changes have led. -/
theorem reconciliation_converges {reconciler : ScheduleReconciler}
    {desired : List (String × DesiredSchedule)} (compiled : reconciler.Compiled desired)
    {decision : UnscopedScheduleDecision} {base : ScheduleStore} {plan : SchedulePlan}
    (planned : reconciler.plan base desired decision = .ok plan) :
    (∀ store part id schedule, store.get? id = some schedule → ¬ reconciler.Owned schedule →
      (reconciler.applyChanges plan store part).2.get? id = some schedule) ∧
    (plan.hasConflicts = false →
      (∀ change ∈ plan.changes, change.kind = .create → base.get? change.scheduleId = none) →
      ∃ full, reconciler.apply base plan plan.planDigest = .ok full ∧ Succeeded full.1 ∧
        ((scanned full.2).length ≤ reconciler.maxSchedules →
          ∃ last, reconciler.plan full.2 desired decision = .ok last ∧ last.changes = []) ∧
        ∀ part, part ⊆ plan.changes →
          (scanned (reconciler.applyChanges plan base part).2).length ≤ reconciler.maxSchedules →
          ∃ next final,
            reconciler.plan (reconciler.applyChanges plan base part).2 desired decision = .ok next ∧
            reconciler.apply (reconciler.applyChanges plan base part).2 next next.planDigest =
              .ok final ∧
            Succeeded final.1 ∧ ∀ id, final.2.get? id = full.2.get? id) := by
  have known := planned_of_ok planned compiled
  refine ⟨?_, ?_⟩
  · intro store part id schedule found foreign
    exact applyChanges_keeps compiled known foreign part found
  · intro noConflicts freeIds
    have clean := (clean_iff known).mp noConflicts
    have free : reconciler.Free desired decision base := by
      intro change mem kind
      exact freeIds change (known.changes_eq ▸ mem) kind
    obtain ⟨succeeded, complete⟩ := complete_of_replan compiled clean free between_self known
    refine ⟨_, apply_planned noConflicts, succeeded, ?_, ?_⟩
    · intro within
      obtain ⟨last, ok, lastPlanned⟩ := @plan_ok _ _ decision _ compiled within
      refine ⟨last, ok, ?_⟩
      rw [lastPlanned.changes_eq]
      exact changes_of_complete compiled clean free complete
    · intro part subset within
      have facts := fun (change : ScheduleChange) (h : change ∈ part) =>
        knows_of_planned compiled clean between_self known (subset h)
      have between := between_applyChanges compiled clean free
        (fun change h => (facts change h).1) (fun change h => (facts change h).2)
      obtain ⟨next, ok, nextPlanned⟩ := @plan_ok _ _ decision _ compiled within
      obtain ⟨succeededNext, completeNext⟩ :=
        complete_of_replan compiled clean free between nextPlanned
      have nextClean : next.hasConflicts = false := by
        rw [clean_iff nextPlanned]
        intro change mem
        have progress := progress_of_between compiled clean between
        exact clean change ((replan_iff compiled.wellScoped clean progress).mp mem).1
      exact ⟨next, _, ok, apply_planned nextClean, succeededNext,
        fun id => completeNext.get?_eq complete id⟩

/-! ## A conflict

The identity of a desired schedule is occupied by a schedule of the scope that is not managed. -/

section Occupied

def acmeReconciler : ScheduleReconciler where
  hashing := lengthHash
  scope := acmeScope
  maxSchedules := 10
  content _ := .null

def nightly : DesiredSchedule where
  scheduleName := "nightly"
  scheduleId := acmeScope.identity lengthHash .schedule ["nightly"]
  desiredDigest := ⟨Digest.ofNat 1⟩
  target :=
    { scopeDigest := some (acmeScope.digest lengthHash)
      workflowName := "orders"
      definitionDigest := Digest.ofNat 2
      artifactIdentity := sampleArtifact
      environmentSnapshotDigest := Digest.ofNat 3
      executionConfiguration := none }

def nightlyDesired : List (String × DesiredSchedule) :=
  [(nightly.scheduleId, nightly)]

theorem nightlyDesired_compiled : acmeReconciler.Compiled nightlyDesired where
  nodup := List.nodup_singleton _
  key := by simp [nightlyDesired]
  id := by simp [nightlyDesired, nightly, acmeReconciler]
  scope := by simp [nightlyDesired, nightly, acmeReconciler]

/-- A schedule of the scope without an owner. -/
def occupant : TemporalSchedule where
  owner := .missing
  scheduleName := .missing
  scopeDigest := .decoded (acmeScope.digest lengthHash).text
  action := none
  content := .null

def occupiedStore : ScheduleStore :=
  Table.empty.insert nightly.scheduleId occupant

theorem scanned_le (store : ScheduleStore) : (scanned store).length ≤ store.entries.length :=
  List.length_filter_le _ _

theorem occupied_conflict : ∃ change ∈
    acmeReconciler.changes nightlyDesired .requireExplicit occupiedStore,
    change.kind = .conflict := by
  have seen : acmeReconciler.view occupiedStore nightly.scheduleId =
      some (occupant.unread nightly.scheduleId true []) := by
    apply view_of_described (Table.get?_insert_self _ _ _)
      (visible_own nightlyDesired_compiled List.mem_cons_self rfl)
    rw [observedScheduleFromDescription, if_neg, if_pos]
    · simp [occupant, MemoString.value]
    · rw [not_not, TemporalSchedule.corruptKeys]
      apply corruptMemoKeys_nil
      simp [occupant]
  have change : ∃ change, desiredChange (acmeReconciler.observations occupiedStore)
      nightly.scheduleId nightly = some change ∧ change.kind = .conflict := by
    rw [desiredChange, lookup_observations, seen]
    refine ⟨⟨.conflict, nightly.scheduleId, nightly.scheduleName,
      "schedule identity is occupied by an unmanaged schedule"⟩, ?_, rfl⟩
    simp [TemporalSchedule.unread, ObservedSchedule.managed, occupant, MemoString.value]
  obtain ⟨change, planned, kind⟩ := change
  refine ⟨change, mem_scheduleChanges_iff.mpr (.inl ⟨_, List.mem_cons_self, ?_, planned⟩), kind⟩
  simp [retained]

/-- A plan with a conflict is not applied, so the next plan is the same. -/
theorem conflict_remains : ∃ plan,
    acmeReconciler.plan occupiedStore nightlyDesired .requireExplicit = .ok plan ∧
      acmeReconciler.apply occupiedStore plan plan.planDigest = .error .planConflict ∧
      plan.changes ≠ [] := by
  obtain ⟨plan, ok, planned⟩ := @plan_ok acmeReconciler nightlyDesired .requireExplicit
    occupiedStore nightlyDesired_compiled
    ((scanned_le _).trans (show [(nightly.scheduleId, occupant)].length ≤ 10 by simp))
  obtain ⟨change, mem, kind⟩ := occupied_conflict
  rw [← planned.changes_eq] at mem
  have conflicts : plan.hasConflicts = true :=
    List.any_eq_true.mpr ⟨change, mem, by simp [kind]⟩
  refine ⟨plan, ok, ?_, List.ne_nil_of_mem mem⟩
  simp [apply, conflicts]

theorem reconciliation_converges_nightly : ∃ plan full last,
    acmeReconciler.plan Table.empty nightlyDesired .requireExplicit = .ok plan ∧
      acmeReconciler.apply Table.empty plan plan.planDigest = .ok full ∧
      acmeReconciler.plan full.2 nightlyDesired .requireExplicit = .ok last ∧
      last.changes = [] := by
  obtain ⟨plan, ok, planned⟩ := @plan_ok acmeReconciler nightlyDesired .requireExplicit
    Table.empty nightlyDesired_compiled ((scanned_le _).trans (Nat.zero_le _))
  have creates : plan.changes =
      [⟨.create, nightly.scheduleId, nightly.scheduleName, "managed schedule is absent"⟩] := by
    rw [planned.changes_eq]
    rfl
  have looked : plan.desired.lookup nightly.scheduleId = some nightly :=
    planned.lookup_desired nightlyDesired_compiled List.mem_cons_self (by simp [retained])
  have clean : plan.hasConflicts = false := by
    simp [SchedulePlan.hasConflicts, creates]
  have converges := (reconciliation_converges nightlyDesired_compiled ok).2 clean
    (fun _ _ _ => rfl)
  obtain ⟨full, applied, -, settled, -⟩ := converges
  have stored : full.2 =
      Table.empty.insert nightly.scheduleId (acmeReconciler.created nightly) := by
    cases applied.symm.trans (apply_planned clean)
    simp only [creates, applyChanges, applyChange, looked]
    rfl
  obtain ⟨last, again, nothing⟩ := settled
    (stored ▸ (scanned_le _).trans
      (show [(nightly.scheduleId, acmeReconciler.created nightly)].length ≤ 10 by simp))
  exact ⟨plan, full, last, ok, applied, again, nothing⟩

end Occupied

end Justflow
