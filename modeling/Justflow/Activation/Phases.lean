import Justflow.Activation.Acting

/-!
# The phases of an activation

Each phase is an effect followed by its checkpoint.  A phase is entered with every earlier one
behind the record, and its checkpoint is written only once its effect has been seen.  A
reconciliation of the schedules may be interrupted and repeated: a change that is reported as
done has settled its identity, and the identities without a change were settled when the
schedules were observed.
-/

open Fields Service

namespace Justflow

variable {host : ActivationHost} {controller : Controller} {start : ControlPlane}
  {history : List ControlPlane}

namespace Controller

/-! ## Phases before the routing -/

theorem prepareRecord_acting (record : ActivationRecord) :
    Acting host controller start
      (fun inputs later => PreparedFor host later record.plan inputs.1)
      (prepareRecord host record) history := by
  rw [prepareRecord]
  apply Acting.bind (Acting.read (K := fun prepared later =>
    Once (fun world => world.preparation record.plan.targetRevisionId = prepared) later)
    (fun _ _ => rfl) ?_)
  · intro prepared later grows moment
    apply Acting.bind (Acting.top (K := fun _ _ => True)
      (Acting.read (fun _ _ => rfl) fun _ _ _ _ _ _ _ => trivial))
    intro deployment next grows' _
    apply Acting.ite
    · intro prepares
      exact Acting.done ⟨moment.later grows', prepares.policy, prepares.artifact⟩
    · intro _
      exact Acting.fail
  · intro world past _ _ _ reply hreply
    cases hreply
    exact .now rfl

theorem storeAssignment_acting (assignment : PreparedActivation) :
    Acting host controller start (fun _ _ => True) (storeAssignment assignment) history := by
  rw [storeAssignment]
  apply Acting.bind (K := fun _ _ => True)
  · apply Acting.forEach
    intro entry _ later _
    apply Acting.perform
    intro world past _ _ choice
    refine ⟨?_, fun _ _ => trivial⟩
    simp only [ControlPlane.serve, ControlPlane.storeDefinitionManifest]
    split
    · exact .defined
    · exact .idle
  · intro _ later _ _
    apply Acting.forEach
    intro digest _ next _
    exact Acting.read (fun _ _ => rfl) fun _ _ _ _ _ _ _ => trivial

section Phases

variable (unrecorded : start.Unrecorded) {record : ActivationRecord}
  {prepared : PreparedActivation} {deployment : PreparedWorkerDeployment}

include unrecorded

theorem storeDefinitionObjects_acting (held : Held controller history record) :
    Acting host controller start
      (fun updated later => Held controller later updated ∧ Continues record updated ∧
        hasCheckpoint updated .definitions)
      (storeDefinitionObjects host record deployment) history := by
  rw [storeDefinitionObjects]
  apply Acting.ite
  · intro h
    exact Acting.done ⟨held, Continues.refl _, h⟩
  · intro h
    apply Acting.bind (Acting.forEach fun assignment _ later _ => storeAssignment_acting assignment)
    intro _ later grows _
    apply checkpoint_acting unrecorded
    · apply (held.later grows).working
      · intro earlier hrank
        simp [ActivationCheckpointKind.rank] at hrank
      · simpa using h
    · trivial

/-! ## Readiness of the workers -/

/-- The end of a phase: the record waits, or the phase has its checkpoint. -/
def Reached (controller : Controller) (record : ActivationRecord)
    (kind : ActivationCheckpointKind) (updated : ActivationRecord)
    (later : List ControlPlane) : Prop :=
  Recorded updated later ∧ updated.state = .waitingForReadiness ∨
    Held controller later updated ∧ Continues record updated ∧ hasCheckpoint updated kind

theorem checkpointReadiness_acting (held : Held controller history record)
    (passed : PassedBefore record .workerReadiness)
    {confirmation : ExternalOperationConfirmation} :
    Acting host controller start (Reached controller record .workerReadiness)
      (checkpointReadiness record confirmation) history := by
  rw [checkpointReadiness]
  apply Acting.ite
  · intro h
    exact Acting.done (.inr ⟨held, Continues.refl _, h⟩)
  · intro h
    refine Acting.mono (checkpoint_acting unrecorded (held.working passed (by simpa using h))
      trivial) ?_
    intro updated later _ reached
    exact .inr reached

theorem confirmReadiness_acting (held : Held controller history record)
    (passed : PassedBefore record .workerReadiness) :
    Acting host controller start (Reached controller record .workerReadiness)
      (confirmReadiness host record prepared) history := by
  rw [confirmReadiness]
  cases record.workerReadiness with
  | none => exact Acting.fail
  | some readiness =>
      apply Acting.ite
      · intro _
        exact Acting.fail
      · intro _
        exact checkpointReadiness_acting unrecorded held passed

omit unrecorded in
theorem readWorkerReadiness_acting :
    Acting host controller start (fun _ _ => True)
      (controller.readWorkerReadiness record deployment) history := by
  rw [readWorkerReadiness]
  cases record.workerReadiness with
  | some readiness => exact Acting.done trivial
  | none =>
      apply Acting.ite
      · intro _
        exact throughBinding_acting (Acting.read (fun _ _ => rfl) fun _ _ _ _ _ _ _ => trivial)
      · intro _
        exact Acting.done trivial

omit unrecorded in
theorem Reached.continues {kind : ActivationCheckpointKind} {next updated : ActivationRecord}
    {later : List ControlPlane} (h : Reached controller next kind updated later)
    (continues : Continues record next) : Reached controller record kind updated later := by
  rcases h with waits | ⟨held, continues', checkpoint⟩
  · exact .inl waits
  · exact .inr ⟨held, continues.trans continues', checkpoint⟩

theorem awaitReadiness_acting (held : Held controller history record)
    (passed : PassedBefore record .workerReadiness) :
    Acting host controller start (Reached controller record .workerReadiness)
      (controller.awaitReadiness host record prepared deployment) history := by
  rw [awaitReadiness]
  cases record.workerReadiness with
  | some readiness => exact confirmReadiness_acting unrecorded held passed
  | none =>
      apply Acting.bind readWorkerReadiness_acting
      intro readiness later grows _
      cases readiness with
      | none =>
          refine Acting.mono (waiting_acting unrecorded (held.recorded.later grows) held.owner) ?_
          intro updated next _ waits
          exact .inl waits
      | some readiness =>
          apply Acting.bind
            (registerReadiness_acting unrecorded (held.recorded.later grows) readiness)
          intro registered next grows' ⟨recorded, continues⟩
          refine Acting.mono (confirmReadiness_acting unrecorded
            (held.continues continues recorded) (passed.continues continues)) ?_
          intro updated final _ reached
          exact reached.continues continues

theorem ensureWorkerReady_acting (held : Held controller history record)
    (defined : hasCheckpoint record .definitions) :
    Acting host controller start (Reached controller record .workerReadiness)
      (controller.ensureWorkerReady host record prepared deployment) history := by
  have passed : PassedBefore record .workerReadiness := by
    intro earlier hrank
    cases earlier <;> simp [ActivationCheckpointKind.rank] at hrank
    · exact fun _ => defined
    · exact fun required => required.elim
  rw [ensureWorkerReady]
  apply Acting.ite
  · intro _
    exact checkpointReadiness_acting unrecorded held passed
  · intro _
    apply Acting.ite
    · intro unready
      apply Acting.ite
      · intro _
        refine Acting.bind (K := fun updated later => Held controller later updated ∧
          Continues record updated) ?_ ?_
        · rw [rolloutWorkers]
          refine Acting.bind (K := fun _ _ => True) ?_ ?_
          · apply throughBinding_acting
            apply Acting.perform
            intro world past _ _ choice
            exact ⟨.rolledOut, fun _ _ => trivial⟩
          · intro confirmation later grows _
            have passedRollout : PassedBefore record .workerRollout := by
              intro earlier hrank
              apply passed
              cases earlier <;> simp_all [ActivationCheckpointKind.rank]
            refine Acting.mono (checkpoint_acting unrecorded
              ((held.later grows).working passedRollout (by simpa using unready.2)) trivial) ?_
            intro updated next _ h
            exact ⟨h.1, h.2.1⟩
        · intro updated later grows ⟨held', continues⟩
          refine Acting.mono (awaitReadiness_acting unrecorded held'
            (passed.continues continues)) ?_
          intro final next _ reached
          exact reached.continues continues
      · intro _
        refine Acting.mono (waiting_acting unrecorded held.recorded held.owner) ?_
        intro updated next _ waits
        exact .inl waits
    · intro _
      exact awaitReadiness_acting unrecorded held passed

/-! ## Reconciliation of the schedules -/

omit unrecorded

/-- The controller is in the schedule phase of a record, with its prepared target. -/
structure Reconciling (host : ActivationHost) (controller : Controller)
    (history : List ControlPlane) (record : ActivationRecord) (prepared : PreparedActivation) :
    Prop where
  working : Working controller history record .schedules
  reconcile : record.plan.scheduleAction = .reconcile
  preparation : PreparedFor host history record.plan prepared

theorem Reconciling.later {next : List ControlPlane}
    (h : Reconciling host controller history record prepared) (grows : history <:+ next) :
    Reconciling host controller next record prepared :=
  { h with working := h.working.later grows, preparation := h.preparation.later grows }

/-- The identity has been settled at some time. -/
def SettledOnce (prepared : PreparedActivation) (id : String) : List ControlPlane → Prop :=
  Once fun world => Settled prepared.desiredSchedules world.schedules id

/-- One mutation of the schedules, whose result settles an identity. -/
theorem mutate_acting {request : ActivationRequest}
    {K : ActivationReply request → List ControlPlane → Prop}
    (reconciling : Reconciling host controller history record prepared)
    (h : ∀ (world : ControlPlane) choice, ∃ schedules,
      (world.serve host choice request).2 = { world with schedules } ∧
        (schedules = world.schedules ∨
          ScheduleMove prepared.desiredSchedules world.schedules schedules) ∧
        ∀ reply past, (world.serve host choice request).1 = .ok reply →
          K reply ({ world with schedules } :: world :: past)) :
    Acting host controller start K (perform request) history := by
  apply Acting.perform
  intro world past grows _ choice
  obtain ⟨schedules, hnext, hmove, known⟩ := h world choice
  rw [hnext]
  refine ⟨?_, fun reply hreply => known reply past hreply⟩
  rcases hmove with rfl | move
  · exact .idle
  · have later := reconciling.later grows
    exact .scheduled later.working later.reconcile later.preparation move

theorem describe_acting (id : String) :
    Acting host controller start
      (fun actual => Once fun world => world.schedules.lookup id = actual)
      (perform (.describeSchedule id)) history := by
  apply Acting.read (fun _ _ => rfl)
  intro world past _ _ _ reply hreply
  cases hreply
  exact .now rfl

theorem is_of_matchesDesired {actual : ObservedSchedule} {wanted : DesiredSchedule}
    (h : matchesDesired actual wanted) : actual.Is wanted := by
  simp only [matchesDesired, sameManagedIdentity, decide_eq_true_eq] at h
  obtain ⟨⟨valid, _, name, scope⟩, digest⟩ := h
  exact ⟨valid, name, scope, digest⟩

section Changes

variable {id : String} {wanted : DesiredSchedule}

theorem applyCreate_acting (reconciling : Reconciling host controller history record prepared)
    (hwanted : prepared.desiredSchedules.lookup id = some wanted) (hid : id = wanted.scheduleId) :
    Acting host controller start (fun status later => status ≠ .failed →
      SettledOnce prepared id later) (applyCreate wanted) history := by
  subst hid
  rw [applyCreate]
  refine Acting.bind (K := fun created later => created = true →
    SettledOnce prepared wanted.scheduleId later) (mutate_acting reconciling ?_) ?_
  · intro world choice
    simp only [ControlPlane.serve, ControlPlane.createSchedule]
    cases hfound : world.schedules.lookup wanted.scheduleId with
    | some actual =>
        refine ⟨world.schedules, rfl, .inl rfl, fun reply past hreply created => ?_⟩
        subst created
        cases hreply
    | none =>
        refine ⟨_, rfl, .inr (.created (mem_lookup hwanted) hfound), fun _ past _ _ => ?_⟩
        refine .now (settled_of_is hwanted ?_ wanted.observed_is)
        simp [List.lookup_append, hfound]
  · intro created later grows settled
    apply Acting.ite
    · intro h
      exact Acting.done fun _ => settled h
    · intro _
      apply Acting.bind (describe_acting wanted.scheduleId)
      intro actual next _ described
      cases actual with
      | none => exact Acting.done fun h => absurd rfl h
      | some actual =>
          apply Acting.done
          intro h
          by_cases hmatches : matchesDesired actual wanted
          · exact described.mono fun world hworld =>
              settled_of_is hwanted hworld (is_of_matchesDesired hmatches)
          · simp [hmatches] at h

theorem applyUpdate_acting (reconciling : Reconciling host controller history record prepared)
    (hwanted : prepared.desiredSchedules.lookup id = some wanted) (hid : id = wanted.scheduleId)
    (expected : ObservedSchedule) :
    Acting host controller start (fun status later => status ≠ .failed →
      SettledOnce prepared id later) (applyUpdate wanted expected) history := by
  subst hid
  rw [applyUpdate]
  refine Acting.bind (K := fun reply later => reply ≠ .ownershipChanged →
    SettledOnce prepared wanted.scheduleId later) (mutate_acting reconciling ?_) ?_
  · intro world choice
    simp only [ControlPlane.serve, ControlPlane.updateSchedule]
    cases hfound : world.schedules.lookup wanted.scheduleId with
    | none =>
        refine ⟨world.schedules, rfl, .inl rfl, fun reply past hreply h => ?_⟩
        cases hreply
        exact absurd rfl h
    | some actual =>
        dsimp only
        split_ifs with hsame hdigest hexpected
        · refine ⟨world.schedules, rfl, .inl rfl, fun reply past hreply h => ?_⟩
          refine Once.now (settled_of_is hwanted hfound ?_)
          exact is_of_matchesDesired (by simp [matchesDesired, hsame, hdigest])
        · refine ⟨world.schedules, rfl, .inl rfl, fun reply past hreply h => ?_⟩
          cases hreply
          exact (h rfl).elim
        · refine ⟨_, rfl, .inr (.updated (mem_lookup hwanted) hfound hsame),
            fun reply past hreply h => ?_⟩
          refine Once.now (settled_of_is hwanted ?_ (is_updated hsame))
          exact lookup_set_self _ _ _
        · refine ⟨world.schedules, rfl, .inl rfl, fun reply past hreply h => ?_⟩
          cases hreply
          exact (h rfl).elim
  · intro reply later grows settled
    cases reply with
    | applied => exact Acting.done fun _ => settled (by simp)
    | alreadyApplied => exact Acting.done fun _ => settled (by simp)
    | ownershipChanged => exact Acting.done fun h => absurd rfl h

theorem applyDelete_acting (reconciling : Reconciling host controller history record prepared)
    (unwanted : id ∉ keys prepared.desiredSchedules) {expected : ObservedSchedule}
    (hid : id = expected.scheduleId) :
    Acting host controller start (fun status later => status ≠ .failed →
      SettledOnce prepared id later) (applyDelete expected) history := by
  subst hid
  have absent := lookup_eq_none_iff_not_mem_keys.mpr unwanted
  rw [applyDelete]
  apply Acting.bind (describe_acting expected.scheduleId)
  intro actual later grows described
  cases actual with
  | none =>
      apply Acting.done
      intro _
      exact described.mono fun world hworld => settled_of_absent absent hworld
  | some actual =>
      apply Acting.ite
      · intro _
        exact Acting.done fun h => absurd rfl h
      · intro _
        refine Acting.bind (K := fun _ later => SettledOnce prepared expected.scheduleId later)
          (mutate_acting (reconciling.later grows) ?_) ?_
        · intro world choice
          refine ⟨_, rfl, .inr (.deleted unwanted), fun reply past _ => ?_⟩
          exact .now (settled_of_absent absent (lookup_filter_self _ _))
        · intro _ next _ settled
          exact Acting.done fun _ => settled

/-- A change that is reported as done has settled its identity. -/
theorem applyChange_acting (reconciling : Reconciling host controller history record prepared)
    {plan : SchedulePlan} (hdesired : plan.desired = prepared.desiredSchedules)
    (desiredKeys : ∀ entry ∈ plan.desired, entry.1 = entry.2.scheduleId)
    (observedKeys : ∀ entry ∈ plan.observed, entry.1 = entry.2.scheduleId)
    {change : ScheduleChange}
    (unwanted : change.kind = .delete → change.scheduleId ∉ keys plan.desired) :
    Acting host controller start (fun status later => status ≠ .failed →
      SettledOnce prepared change.scheduleId later) (applyChange plan change) history := by
  rw [applyChange]
  apply Acting.rescue
  · cases hkind : change.kind with
    | create =>
        cases hwanted : plan.desired.lookup change.scheduleId with
        | none => exact Acting.done fun h => absurd rfl h
        | some wanted =>
            exact applyCreate_acting reconciling (hdesired ▸ hwanted)
              (desiredKeys _ (mem_lookup hwanted))
    | update =>
        cases hwanted : plan.desired.lookup change.scheduleId with
        | none => exact Acting.done fun h => absurd rfl h
        | some wanted =>
            cases plan.observed.lookup change.scheduleId with
            | none => exact Acting.done fun h => absurd rfl h
            | some expected =>
                exact applyUpdate_acting reconciling (hdesired ▸ hwanted)
                  (desiredKeys _ (mem_lookup hwanted)) expected
    | delete =>
        cases hexpected : plan.observed.lookup change.scheduleId with
        | none => exact Acting.done fun h => absurd rfl h
        | some expected =>
            exact applyDelete_acting reconciling (hdesired ▸ unwanted hkind)
              (observedKeys _ (mem_lookup hexpected))
    | conflict => exact Acting.done fun h => absurd rfl h
  · intro error later _
    exact Acting.done fun h => absurd rfl h

theorem applyChanges_acting (reconciling : Reconciling host controller history record prepared)
    {plan : SchedulePlan} (hdesired : plan.desired = prepared.desiredSchedules)
    (desiredKeys : ∀ entry ∈ plan.desired, entry.1 = entry.2.scheduleId)
    (observedKeys : ∀ entry ∈ plan.observed, entry.1 = entry.2.scheduleId)
    (changes : List ScheduleChange)
    (unwanted : ∀ change ∈ changes, change.kind = .delete →
      change.scheduleId ∉ keys plan.desired) :
    Acting host controller start (fun statuses later => .failed ∉ statuses →
      ∀ change ∈ changes, SettledOnce prepared change.scheduleId later)
      (applyChanges plan changes) history := by
  induction changes generalizing history with
  | nil => exact Acting.done fun _ _ h => absurd h List.not_mem_nil
  | cons change changes ih =>
      apply Acting.bind (applyChange_acting reconciling hdesired desiredKeys observedKeys
        (unwanted change List.mem_cons_self))
      intro status later grows settled
      apply Acting.bind (ih (reconciling.later grows) fun other hother =>
        unwanted other (List.mem_cons_of_mem _ hother))
      intro statuses next grows' rest
      apply Acting.done
      intro h other hother
      simp only [List.mem_cons, not_or] at h
      rcases List.mem_cons.mp hother with rfl | hother
      · exact (settled fun hfailed => h.1 hfailed.symm).later grows'
      · exact rest h.2 other hother

end Changes

/-- A reconciliation that returns has seen every identity settled. -/
theorem reconcile_acting (reconciling : Reconciling host controller history record prepared) :
    Acting host controller start (fun _ later => ∀ id, SettledOnce prepared id later)
      (reconcile host prepared) history := by
  rw [reconcile]
  refine Acting.bind (K := fun observed => Once fun world => world.schedules = observed)
    (Acting.read (fun _ _ => rfl) ?_) ?_
  · intro world past _ _ _ reply hreply
    cases hreply
    exact .now rfl
  intro observed later grows moment
  refine Acting.bind (K := fun plan _ => planScheduleReconciliation host.hashing
    prepared.desiredSchedules observed .requireExplicit = .ok plan)
    (Acting.lift fun _ h => h) ?_
  intro plan next grows' planned
  obtain ⟨desiredKeys, observedKeys, hdesired, hobserved, hchanges⟩ :=
    planScheduleReconciliation_eq_ok planned
  apply Acting.ite
  · intro _
    exact Acting.fail
  · intro _
    have grown := grows.trans grows'
    refine Acting.bind (applyChanges_acting (reconciling.later grown) hdesired
      (hdesired ▸ desiredKeys) (hobserved ▸ observedKeys) plan.changes ?_) ?_
    · intro change hchange hkind
      rw [hchanges, mem_scheduleChanges] at hchange
      rcases hchange with ⟨entry, _, hchange⟩ | ⟨entry, _, hkey, hchange⟩
      · exact absurd hkind (desiredChange_spec hchange).2
      · rw [(orphanChange_spec hchange).1, hdesired]
        exact hkey
    · intro statuses final grows'' settled
      apply Acting.ite
      · intro _
        exact Acting.fail
      · intro h
        apply Acting.done
        intro id
        rcases settled_or_change prepared.desiredSchedules observed id with already | ⟨change, hmem, rfl⟩
        · have observedNow := moment.later (grows'.trans grows'')
          exact observedNow.mono fun world hworld => hworld ▸ already
        · exact settled h change (hchanges ▸ hmem)

/-! ## Aliases, routes, pointer and index -/

theorem installAliases_acting (working : Working controller history record .catalogRouting)
    (publish : record.plan.definitionAction = .publish)
    (preparation : PreparedFor host history record.plan prepared) :
    Acting host controller start
      (fun _ => Once fun world => sameAliases world.aliases prepared.manifests)
      (installAliases host record prepared) history := by
  rw [installAliases]
  refine Acting.bind (K := fun inspected =>
    Once fun world => world.catalogState host = inspected) (Acting.read (fun _ _ => rfl) ?_) ?_
  · intro world past _ _ _ reply hreply
    cases hreply
    exact .now rfl
  intro inspected later grows moment
  apply Acting.ite
  · intro same
    apply Acting.done
    refine moment.mono fun world hworld => ?_
    subst hworld
    exact same
  · intro _
    apply Acting.ite
    · intro _
      exact Acting.fail
    · intro _
      refine Acting.bind (K := fun _ => Once fun world =>
        sameAliases world.aliases prepared.manifests) (Acting.perform ?_) ?_
      · intro world past grows' _ choice
        have grown := grows.trans grows'
        simp only [ControlPlane.serve, ControlPlane.replaceAliases]
        split_ifs with hdefined hsame hversion
        · exact ⟨.idle, fun _ hreply => by cases hreply⟩
        · refine ⟨.idle, fun _ _ => .now ?_⟩
          simp [ControlPlane.aliases, hsame, sameAliases]
        · exact ⟨.idle, fun _ hreply => by cases hreply⟩
        · refine ⟨.aliased (working.later grown) publish (preparation.later grown)
            (not_not.mp hversion), fun _ _ => .now ?_⟩
          simp [ControlPlane.aliases, sameAliases]
      · intro version next _ installed
        exact Acting.done installed

theorem movePointer_acting (unrecorded : start.Unrecorded)
    (working : Working controller history record .activePointer) :
    Acting host controller start
      (fun _ => Once fun world => world.pointer = some (targetPointer record.plan))
      (movePointer host record) history := by
  rw [movePointer]
  refine Acting.bind (K := fun current => Once fun world => world.pointer = current)
    (Acting.read (fun _ _ => rfl) ?_) ?_
  · intro world past _ _ _ reply hreply
    cases hreply
    exact .now rfl
  intro current later grows moment
  apply Acting.ite
  · intro same
    exact Acting.done (same ▸ moment)
  · intro _
    refine Acting.bind (K := fun _ => Once fun world =>
      world.pointer = some (targetPointer record.plan)) (Acting.perform ?_) ?_
    · intro world past grows' lawful choice
      have working' := working.later (grows.trans grows')
      obtain ⟨moment, hmoment, hrecord⟩ := working'.recorded
      have planned := stored_planned unrecorded lawful moment hmoment _ _ hrecord
      have hserve : world.serve host choice (.compareAndSwapActive record.plan.targetRevisionId
          record.plan.expectedActiveRevisionId record.plan.expectedActivePointerVersion) =
        world.compareAndSwapActive record.plan.targetRevisionId
          record.plan.expectedActiveRevisionId record.plan.expectedActivePointerVersion := rfl
      rw [hserve]
      cases hswap : world.compareAndSwapActive record.plan.targetRevisionId
          record.plan.expectedActiveRevisionId record.plan.expectedActivePointerVersion with
      | mk answer next =>
          cases answer with
          | ok pointer =>
              obtain ⟨_, _, hpointer, rfl⟩ := swapped_pointer planned hswap
              exact ⟨.pointed working' hswap, fun _ _ => .now (congrArg some hpointer)⟩
          | error error =>
              simp only [ControlPlane.compareAndSwapActive] at hswap
              split_ifs at hswap
              · obtain ⟨_, rfl⟩ := Prod.mk.inj hswap
                exact ⟨.idle, fun _ hreply => by cases hreply⟩
              · cases (Prod.mk.inj hswap).1
    · intro pointer next _ installed
      exact Acting.done installed

/-! ## The phases after the workers are ready -/

/-- The end of a phase whose checkpoint depends on the plan. -/
structure PhaseDone (controller : Controller) (record : ActivationRecord)
    (kind : ActivationCheckpointKind) (updated : ActivationRecord)
    (later : List ControlPlane) : Prop where
  held : Held controller later updated
  continues : Continues record updated
  passed : Passed updated kind

/-- The phases before the next one are behind the record. -/
theorem PhaseDone.before {kind next : ActivationCheckpointKind} {updated : ActivationRecord}
    {later : List ControlPlane} (h : PhaseDone controller record kind updated later)
    (passed : PassedBefore record kind) (hnext : next.rank = kind.rank + 1) :
    PassedBefore updated next := by
  intro earlier hrank
  rcases Nat.lt_succ_iff_lt_or_eq.mp (hnext ▸ hrank) with hlt | heq
  · exact passed.continues h.continues earlier hlt
  · obtain rfl : earlier = kind := by
      cases earlier <;> cases kind <;> simp_all [ActivationCheckpointKind.rank]
    exact h.passed

/-- A phase without an action, or with its checkpoint, is skipped. -/
theorem PhaseDone.skip {kind : ActivationCheckpointKind} (held : Held controller history record)
    (passed : Passed record kind) : PhaseDone controller record kind record history :=
  ⟨held, Continues.refl _, passed⟩

theorem checkpoint_phase (unrecorded : start.Unrecorded) {kind : ActivationCheckpointKind}
    {confirmation : ExternalOperationConfirmation}
    (working : Working controller history record kind)
    (confirmed : Confirmed host controller history record.plan kind) :
    Acting host controller start (PhaseDone controller record kind)
      (checkpoint record kind confirmation) history := by
  refine Acting.mono (checkpoint_acting unrecorded working confirmed) ?_
  intro updated later _ ⟨held, continues, checkpoint⟩
  exact ⟨held, continues, fun _ => checkpoint⟩

theorem reconcileSchedules_acting (unrecorded : start.Unrecorded)
    (held : Held controller history record) (passed : PassedBefore record .schedules)
    (preparation : PreparedFor host history record.plan prepared) :
    Acting host controller start (PhaseDone controller record .schedules)
      (controller.reconcileSchedules host record prepared) history := by
  rw [reconcileSchedules]
  apply Acting.ite
  · intro h
    apply Acting.done
    apply PhaseDone.skip held
    intro required
    rcases h with h | h
    · rw [Required, h] at required
      cases required
    · exact h
  · intro h
    simp only [not_or] at h
    have reconcile : record.plan.scheduleAction = .reconcile := by
      cases haction : record.plan.scheduleAction with
      | none => exact absurd haction h.1
      | reconcile => rfl
    have working := held.working passed (by simpa using h.2)
    apply Acting.ite
    · intro _
      exact Acting.fail
    · intro _
      apply Acting.bind (throughBinding_acting
        (reconcile_acting ⟨working, reconcile, preparation⟩))
      intro confirmation later grows settled
      exact checkpoint_phase unrecorded (working.later grows)
        ⟨prepared, preparation.later grows, settled⟩

theorem switchCatalog_acting (unrecorded : start.Unrecorded)
    (held : Held controller history record) (passed : PassedBefore record .catalogRouting)
    (preparation : PreparedFor host history record.plan prepared) :
    Acting host controller start (PhaseDone controller record .catalogRouting)
      (switchCatalog host record prepared) history := by
  rw [switchCatalog]
  apply Acting.ite
  · intro h
    apply Acting.done
    apply PhaseDone.skip held
    intro required
    rcases h with h | h
    · rw [Required, h] at required
      cases required
    · exact h
  · intro h
    simp only [not_or] at h
    have publish : record.plan.definitionAction = .publish := by
      cases haction : record.plan.definitionAction with
      | none => exact absurd haction h.1
      | publish => rfl
    have working := held.working passed (by simpa using h.2)
    apply Acting.bind (installAliases_acting working publish preparation)
    intro confirmation later grows installed
    exact checkpoint_phase unrecorded (working.later grows)
      ⟨prepared, preparation.later grows, installed⟩

theorem switchWorkerRouting_acting (unrecorded : start.Unrecorded)
    (held : Held controller history record) (passed : PassedBefore record .workerRouting)
    (preparation : PreparedFor host history record.plan prepared) :
    Acting host controller start (PhaseDone controller record .workerRouting)
      (controller.switchWorkerRouting host record prepared) history := by
  rw [switchWorkerRouting]
  apply Acting.ite
  · intro h
    apply Acting.done
    apply PhaseDone.skip held
    intro required
    rcases h with h | h
    · rw [Required, h] at required
      cases required
    · exact h
  · intro h
    simp only [not_or] at h
    have switch : record.plan.routingAction = .switch := by
      cases haction : record.plan.routingAction with
      | none => exact absurd haction h.1
      | switch => rfl
    have working := held.working passed (by simpa using h.2)
    apply Acting.ite
    · intro unbound
      apply checkpoint_phase unrecorded working
      intro bound
      exact absurd bound unbound
    · intro _
      refine Acting.bind (K := fun _ => Once fun world => world.routing = some prepared.route)
        (throughBinding_acting (Acting.perform ?_)) ?_
      · intro world past grows _ choice
        exact ⟨.routed (working.later grows) switch (preparation.later grows),
          fun _ _ => .now rfl⟩
      · intro confirmation later grows routed
        exact checkpoint_phase unrecorded (working.later grows)
          fun _ => ⟨prepared, preparation.later grows, routed⟩

theorem advanceActivePointer_acting (unrecorded : start.Unrecorded)
    (held : Held controller history record) (passed : PassedBefore record .activePointer) :
    Acting host controller start (PhaseDone controller record .activePointer)
      (advanceActivePointer host record) history := by
  rw [advanceActivePointer]
  apply Acting.ite
  · intro h
    exact Acting.done (.skip held fun _ => h)
  · intro h
    have working := held.working passed (by simpa using h)
    apply Acting.bind (movePointer_acting unrecorded working)
    intro confirmation later grows pointed
    exact checkpoint_phase unrecorded (working.later grows) pointed

theorem replaceRuntimeIndex_acting (unrecorded : start.Unrecorded)
    (held : Held controller history record) (passed : PassedBefore record .runtimeIndex)
    (preparation : PreparedFor host history record.plan prepared) :
    Acting host controller start (PhaseDone controller record .runtimeIndex)
      (controller.replaceRuntimeIndex host record prepared deployment) history := by
  rw [replaceRuntimeIndex]
  apply Acting.ite
  · intro h
    exact Acting.done (.skip held fun _ => h)
  · intro h
    have working := held.working passed (by simpa using h)
    apply Acting.ite
    · intro _
      exact Acting.fail
    · intro _
      refine Acting.bind (K := fun _ => Once fun world =>
        world.indexes controller.digest = some prepared.snapshot) (Acting.perform ?_) ?_
      · intro world past grows _ choice
        refine ⟨.indexed (working.later grows) (preparation.later grows), fun _ _ => .now ?_⟩
        simp [ControlPlane.serve]
      · intro _ later grows indexed
        exact checkpoint_phase unrecorded (working.later grows)
          ⟨prepared, preparation.later grows, indexed⟩

/-- Once the workers are ready, a record that gets through its phases is applied. -/
theorem applyPhases_acting (unrecorded : start.Unrecorded)
    (held : Held controller history record) (passed : PassedBefore record .schedules)
    (preparation : PreparedFor host history record.plan prepared) :
    Acting host controller start (fun updated later => Recorded updated later)
      (controller.applyPhases host record prepared deployment) history := by
  rw [applyPhases]
  apply Acting.bind (reconcileSchedules_acting unrecorded held passed preparation)
  intro scheduled h1 g1 done1
  have preparation1 := done1.continues.plan.symm ▸ preparation.later g1
  have passed1 : PassedBefore scheduled .catalogRouting := done1.before passed rfl
  apply Acting.bind (switchCatalog_acting unrecorded done1.held passed1 preparation1)
  intro switched h2 g2 done2
  have preparation2 := done2.continues.plan.symm ▸ preparation1.later g2
  have passed2 : PassedBefore switched .workerRouting := done2.before passed1 rfl
  apply Acting.bind (switchWorkerRouting_acting unrecorded done2.held passed2 preparation2)
  intro routed h3 g3 done3
  have preparation3 := done3.continues.plan.symm ▸ preparation2.later g3
  have passed3 : PassedBefore routed .activePointer := done3.before passed2 rfl
  apply Acting.bind (advanceActivePointer_acting unrecorded done3.held passed3)
  intro pointed h4 g4 done4
  have preparation4 := done4.continues.plan.symm ▸ preparation3.later g4
  have passed4 : PassedBefore pointed .runtimeIndex := done4.before passed3 rfl
  apply Acting.bind (replaceRuntimeIndex_acting unrecorded done4.held passed4 preparation4)
  intro indexed h5 g5 done5
  have passedAll : ∀ kind, Passed indexed kind := by
    intro kind
    by_cases hkind : kind = .runtimeIndex
    · subst hkind
      exact done5.passed
    · apply passed4.continues done5.continues
      cases kind <;> simp_all [ActivationCheckpointKind.rank]
  refine Acting.mono (transition_acting unrecorded done5.held.recorded done5.held.owner
    (.inr (.inr rfl)) fun _ => passedAll) ?_
  intro updated later _ ⟨now, _, stored⟩
  exact stored

end Phases

end Controller

end Justflow
