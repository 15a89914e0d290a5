import Justflow.Activation.Controller

/-!
# What a controller can do to the control plane

`ActivationMove` lists every change that one request of a controller can make, each with what is
known about the history when it happens: the record it is based on is or was stored, the lease of
that record names the controller, the earlier phases have their checkpoints, and a checkpoint is
recorded only after its effect has been observed.  All of this is about the past, so it stays true
whatever other controllers do.

A record is written only over the version it was built from.  Versions of a record grow, so the
record that a write replaces is the one the controller knows.
-/

open Fields Service

namespace Justflow

/-! ## Knowledge -/

/-- The record has been stored. -/
def Recorded (record : ActivationRecord) : List ControlPlane → Prop :=
  Once fun world => world.records record.activationId = some record

/-- The host has prepared the target of the plan like this, and it matches the plan. -/
structure PreparedFor (host : ActivationHost) (history : List ControlPlane)
    (plan : ActivationPlan) (prepared : PreparedActivation) : Prop where
  moment : Once (fun world => world.preparation plan.targetRevisionId = prepared) history
  policy : prepared.policyDigest = plan.policyDigest
  artifact : prepared.artifact = plan.targetArtifact

/-- The effect that a checkpoint records has been observed. -/
def Confirmed (host : ActivationHost) (controller : Controller) (history : List ControlPlane)
    (plan : ActivationPlan) : ActivationCheckpointKind → Prop
  | .schedules => ∃ prepared, PreparedFor host history plan prepared ∧
      ∀ id, Once (fun world => Settled prepared.desiredSchedules world.schedules id) history
  | .catalogRouting => ∃ prepared, PreparedFor host history plan prepared ∧
      Once (fun world => Controller.sameAliases world.aliases prepared.manifests) history
  | .workerRouting => controller.workerBinding → ∃ prepared,
      PreparedFor host history plan prepared ∧
        Once (fun world => world.routing = some prepared.route) history
  | .activePointer => Once (fun world =>
      world.pointer = some (Controller.targetPointer plan)) history
  | .runtimeIndex => ∃ prepared, PreparedFor host history plan prepared ∧
      Once (fun world => world.indexes controller.digest = some prepared.snapshot) history
  | .definitions | .workerRollout | .workerReadiness => True

/-- The phases that a plan goes through, whatever the workers do. -/
def Required (plan : ActivationPlan) : ActivationCheckpointKind → Prop
  | .schedules => plan.scheduleAction = .reconcile
  | .catalogRouting => plan.definitionAction = .publish
  | .workerRouting => plan.routingAction = .switch
  | .workerRollout => False
  | .definitions | .workerReadiness | .activePointer | .runtimeIndex => True

/-- The phase is behind the record. -/
def Passed (record : ActivationRecord) (kind : ActivationCheckpointKind) : Prop :=
  Required record.plan kind → hasCheckpoint record kind

/-- The order of the phases. -/
def ActivationCheckpointKind.rank : ActivationCheckpointKind → Nat
  | .definitions => 0
  | .workerRollout => 1
  | .workerReadiness => 2
  | .schedules => 3
  | .catalogRouting => 4
  | .workerRouting => 5
  | .activePointer => 6
  | .runtimeIndex => 7

/-- The controller is in a phase of a record whose lease it took. -/
structure Working (controller : Controller) (history : List ControlPlane)
    (record : ActivationRecord) (kind : ActivationCheckpointKind) : Prop where
  recorded : Recorded record history
  owner : record.leaseOwnerDigest = some controller.digest
  running : record.state = .running
  passed : ∀ earlier, earlier.rank < kind.rank → Passed record earlier
  open_ : hasCheckpoint record kind = false

/-! ## Moves -/

/-- How a stored record changes. -/
inductive RecordChange (host : ActivationHost) (controller : Controller)
    (history : List ControlPlane) (current updated : ActivationRecord) : Prop where
  | acquired {acquiredAt : Instant}
      (moment : Once (fun world => world.now = acquiredAt) history)
      (active : current.state.terminal = false)
      (change : acquireActivationLease current controller.digest acquiredAt
        (acquiredAt + controller.leaseDuration) = .ok updated)
  | advanced {state : ActivationState} {occurredAt : Instant} {releaseLease : Bool}
      (moment : Once (fun world => world.now = occurredAt) history)
      (owner : current.leaseOwnerDigest = some controller.digest)
      (forward : state = .running ∨ state = .waitingForReadiness ∨ state = .applied)
      (passed : state = .applied → ∀ kind, Passed current kind)
      (change : transitionActivation current state occurredAt none releaseLease = .ok updated)
  | checkpointed {kind : ActivationCheckpointKind} {outcome : ActivationExternalOutcome}
      {observationDigest : ProvenanceDigest} {occurredAt : Instant}
      (moment : Once (fun world => world.now = occurredAt) history)
      (working : Working controller history current kind)
      (confirmed : Confirmed host controller history current.plan kind)
      (change : updated = current.checkpointed kind outcome observationDigest occurredAt)
      (valid : updated.Valid)
  | registered {registration : WorkerReadinessRegistration} {occurredAt : Instant}
      (moment : Once (fun world => world.now = occurredAt) history)
      (change : registerWorkerReadiness current registration occurredAt = .ok updated)
      (changed : updated ≠ current)
  | released {releasedAt : Instant}
      (moment : Once (fun world => world.now = releasedAt) history)
      (change : releaseActivationLease current controller.digest releasedAt = .ok updated)
  | concluded {state : ActivationState} {outcome : ActivationOutcomeCode} {occurredAt : Instant}
      (moment : Once (fun world => world.now = occurredAt) history)
      (active : current.state.terminal = false)
      (unsuccessful : state = .failed ∨ state = .superseded)
      (change : transitionActivation current state occurredAt (some outcome) true = .ok updated)
  | rolledBack {occurredAt : Instant}
      (moment : Once (fun world => world.now = occurredAt) history)
      (applied : current.state = .applied)
      (change : transitionActivation current .rolledBack occurredAt none false = .ok updated)

/-- One mutation of a schedule towards the desired ones. -/
inductive ScheduleMove (desired : List (String × DesiredSchedule))
    (before : List (String × ObservedSchedule)) : List (String × ObservedSchedule) → Prop where
  | created {id : String} {wanted : DesiredSchedule} (member : (id, wanted) ∈ desired)
      (absent : before.lookup id = none) :
      ScheduleMove desired before (before ++ [(id, wanted.observed)])
  | updated {id : String} {wanted : DesiredSchedule} {actual : ObservedSchedule}
      (member : (id, wanted) ∈ desired) (found : before.lookup id = some actual)
      (same : sameManagedIdentity actual wanted) :
      ScheduleMove desired before (set id
        { actual with desiredDigest := some wanted.desiredDigest.text, actionValid := true } before)
  | deleted {id : String} (unwanted : id ∉ keys desired) :
      ScheduleMove desired before (before.filter fun entry => entry.1 ≠ id)

/-- What the planner was told, at several moments of the history. -/
structure PlannedFrom (host : ActivationHost) (history : List ControlPlane)
    (plan : ActivationPlan) : Prop where
  sources : ∃ (prepared : PreparedActivation) (deployment : PreparedWorkerDeployment)
      (pointer : Option ActivePointer) (bundle : Option ConfigurationBundle)
      (catalog : CatalogState) (artifact : Option WorkerArtifactIdentity)
      (policy : Option ProvenanceDigest) (worker schedules : ProvenanceDigest)
      (registered : List Digest),
    Once (fun world => world.preparation plan.targetRevisionId = prepared) history ∧
    Once (fun world => world.pointer = pointer) history ∧
    (∀ active ∈ pointer, Once (fun world => world.bundles active.revisionId = bundle ∧
      bundle.isSome) history) ∧ (pointer = none → bundle = none) ∧
    Once (fun world => world.catalogState host = catalog) history ∧
    planConfigurationActivation host.hashing
      { scopeDigest := host.scopeDigest
        revisionId := plan.targetRevisionId
        bundle := prepared.bundle
        artifact := prepared.artifact
        taskQueueIdentityDigest := prepared.taskQueueIdentityDigest
        workerRegistrationDigest := deployment.registrationDigest host
        definitionDigests := deployment.assignments.flatMap fun assignment =>
          assignment.manifests.map Prod.snd }
      ⟨pointer.map (·.revisionId), bundle, artifact, policy⟩
      ⟨pointer.map (·.version), catalog.aliasVersion, prepared.policyDigest, worker, schedules,
        registered⟩ = .ok plan

/-- A record as `activate` creates it. -/
structure FreshRecord (host : ActivationHost) (history : List ControlPlane)
    (record : ActivationRecord) : Prop where
  planned : PlannedFrom host history record.plan
  pending : record.state = .pending
  version : record.version = 1
  transitions : record.transitions = []
  checkpoints : record.checkpoints = []
  unleased : record.leaseOwnerDigest = none
  unready : record.workerReadiness = none
  valid : record.Valid

/-- One change of the control plane by a controller. -/
inductive ActivationMove (host : ActivationHost) (controller : Controller) :
    List ControlPlane → ControlPlane → Prop where
  | idle {world : ControlPlane} {past : List ControlPlane} :
      ActivationMove host controller (world :: past) world
  | recorded {world : ControlPlane} {past : List ControlPlane}
      {current updated : ActivationRecord}
      (found : world.records updated.activationId = some current)
      (version : updated.version = current.version + 1)
      (identity : updated.activationId = current.activationId)
      (change : RecordChange host controller (world :: past) current updated) :
      ActivationMove host controller (world :: past) (world.store updated)
  | created {world : ControlPlane} {past : List ControlPlane} {record : ActivationRecord}
      (absent : world.records record.activationId = none)
      (fresh : FreshRecord host (world :: past) record) :
      ActivationMove host controller (world :: past) (world.store record)
  | pointed {world : ControlPlane} {past : List ControlPlane} {record : ActivationRecord}
      {pointer : ActivePointer}
      (working : Working controller (world :: past) record .activePointer)
      (swapped : world.compareAndSwapActive record.plan.targetRevisionId
        record.plan.expectedActiveRevisionId record.plan.expectedActivePointerVersion =
          (.ok pointer, { world with pointer := some pointer })) :
      ActivationMove host controller (world :: past) { world with pointer := some pointer }
  | aliased {world : ControlPlane} {past : List ControlPlane} {record : ActivationRecord}
      {prepared : PreparedActivation}
      (working : Working controller (world :: past) record .catalogRouting)
      (publish : record.plan.definitionAction = .publish)
      (preparation : PreparedFor host (world :: past) record.plan prepared)
      (fresh : world.aliasVersion host = record.plan.expectedCatalogAliasVersion) :
      ActivationMove host controller (world :: past)
        { world with aliasDocument := some prepared.manifests }
  | scheduled {world : ControlPlane} {past : List ControlPlane} {record : ActivationRecord}
      {prepared : PreparedActivation} {schedules : List (String × ObservedSchedule)}
      (working : Working controller (world :: past) record .schedules)
      (reconcile : record.plan.scheduleAction = .reconcile)
      (preparation : PreparedFor host (world :: past) record.plan prepared)
      (change : ScheduleMove prepared.desiredSchedules world.schedules schedules) :
      ActivationMove host controller (world :: past) { world with schedules }
  | routed {world : ControlPlane} {past : List ControlPlane} {record : ActivationRecord}
      {prepared : PreparedActivation}
      (working : Working controller (world :: past) record .workerRouting)
      (switch : record.plan.routingAction = .switch)
      (preparation : PreparedFor host (world :: past) record.plan prepared) :
      ActivationMove host controller (world :: past)
        { world with routing := some prepared.route }
  | indexed {world : ControlPlane} {past : List ControlPlane} {record : ActivationRecord}
      {prepared : PreparedActivation}
      (working : Working controller (world :: past) record .runtimeIndex)
      (preparation : PreparedFor host (world :: past) record.plan prepared) :
      ActivationMove host controller (world :: past)
        { world with
          indexes := Function.update world.indexes controller.digest (some prepared.snapshot) }
  | rolledOut {world : ControlPlane} {past : List ControlPlane} {digests : List Digest} :
      ActivationMove host controller (world :: past)
        { world with registeredDefinitions := world.registeredDefinitions ++ digests }
  | defined {world : ControlPlane} {past : List ControlPlane} {name : String} {digest : Digest} :
      ActivationMove host controller (world :: past)
        { world with manifests := world.manifests ++ [(name, digest)] }

/-- A lawful history of the control plane. -/
abbrev Activating (host : ActivationHost) (start : ControlPlane) : List ControlPlane → Prop :=
  Lawful ((activationService host).Moves (ActivationMove host)) start

/-- No activation has been recorded yet. -/
def ControlPlane.Unrecorded (self : ControlPlane) : Prop :=
  ∀ id, self.records id = none

/-- The control plane without activation records. -/
def ControlPlane.beforeActivations (self : ControlPlane) : ControlPlane :=
  { self with records := fun _ => none }

theorem unrecorded_beforeActivations (self : ControlPlane) :
    self.beforeActivations.Unrecorded :=
  fun _ => rfl

/-! ## Monotonicity of knowledge -/

section Monotone

variable {host : ActivationHost} {controller : Controller} {history next : List ControlPlane}
  {plan : ActivationPlan} {prepared : PreparedActivation} {record : ActivationRecord}
  {kind : ActivationCheckpointKind}

theorem Recorded.later (h : Recorded record history) (grows : history <:+ next) :
    Recorded record next :=
  Once.later h grows

theorem PreparedFor.later (h : PreparedFor host history plan prepared)
    (grows : history <:+ next) : PreparedFor host next plan prepared :=
  ⟨h.moment.later grows, h.policy, h.artifact⟩

theorem Confirmed.later (h : Confirmed host controller history plan kind)
    (grows : history <:+ next) : Confirmed host controller next plan kind := by
  cases kind with
  | schedules =>
      obtain ⟨prepared, preparation, settled⟩ := h
      exact ⟨prepared, preparation.later grows, fun id => (settled id).later grows⟩
  | catalogRouting =>
      obtain ⟨prepared, preparation, installed⟩ := h
      exact ⟨prepared, preparation.later grows, installed.later grows⟩
  | workerRouting =>
      intro bound
      obtain ⟨prepared, preparation, routed⟩ := h bound
      exact ⟨prepared, preparation.later grows, routed.later grows⟩
  | activePointer => exact Once.later h grows
  | runtimeIndex =>
      obtain ⟨prepared, preparation, indexed⟩ := h
      exact ⟨prepared, preparation.later grows, indexed.later grows⟩
  | definitions | workerRollout | workerReadiness => trivial

theorem Working.later (h : Working controller history record kind)
    (grows : history <:+ next) : Working controller next record kind :=
  { h with recorded := h.recorded.later grows }

end Monotone

theorem PlannedFrom.later {history next : List ControlPlane} {host : ActivationHost}
    {plan : ActivationPlan} (h : PlannedFrom host history plan) (grows : history <:+ next) :
    PlannedFrom host next plan := by
  obtain ⟨prepared, deployment, pointer, bundle, catalog, artifact, policy, worker, schedules,
    registered, preparation, pointed, bundled, unbundled, inspected, planned⟩ := h.sources
  exact ⟨prepared, deployment, pointer, bundle, catalog, artifact, policy, worker, schedules,
    registered, preparation.later grows, pointed.later grows,
    fun active hactive => (bundled active hactive).later grows, unbundled,
    inspected.later grows, planned⟩

/-! ## Mutations of the schedules -/

theorem DesiredSchedule.observed_is (wanted : DesiredSchedule) : wanted.observed.Is wanted :=
  ⟨by simp [observed, ObservedSchedule.validManagedIdentity, ObservedSchedule.managed],
    rfl, rfl, rfl⟩

/-- An updated schedule is the desired one. -/
theorem is_updated {actual : ObservedSchedule} {wanted : DesiredSchedule}
    (same : sameManagedIdentity actual wanted) :
    ({ actual with desiredDigest := some wanted.desiredDigest.text, actionValid := true } :
      ObservedSchedule).Is wanted := by
  simp only [sameManagedIdentity, ObservedSchedule.validManagedIdentity, decide_eq_true_eq,
    ObservedSchedule.managed] at same
  obtain ⟨⟨hcorrupt, howner, hname, _, _⟩, _, name, scope⟩ := same
  constructor
  · simp [ObservedSchedule.validManagedIdentity, ObservedSchedule.managed, hcorrupt, howner, hname]
  · exact name
  · exact scope
  · rfl

theorem lookup_filter_ne {α : Type} {fields : List (String × α)} {id other : String}
    (h : other ≠ id) :
    (fields.filter fun entry => entry.1 ≠ id).lookup other = fields.lookup other := by
  induction fields with
  | nil => rfl
  | cons entry rest ih =>
      by_cases hentry : entry.1 = id
      · rw [List.filter_cons_of_neg (by simpa using hentry), ih, List.lookup_cons]
        have hb : (other == entry.1) = false := by simpa using hentry ▸ h
        simp [hb]
      · rw [List.filter_cons_of_pos (by simpa using hentry), List.lookup_cons, List.lookup_cons, ih]

theorem lookup_filter_self {α : Type} (fields : List (String × α)) (id : String) :
    (fields.filter fun entry => entry.1 ≠ id).lookup id = none := by
  rw [List.lookup_eq_none_iff]
  intro entry hentry
  have := (List.mem_filter.mp hentry).2
  simp only [ne_eq, decide_not, Bool.not_eq_eq_eq_not, Bool.not_true,
    decide_eq_false_iff_not] at this
  simpa using fun h : id = entry.1 => this h.symm

section ScheduleMoves

variable {desired : List (String × DesiredSchedule)}
  {before after : List (String × ObservedSchedule)} {id : String}

theorem settled_of_is {wanted : DesiredSchedule} {actual : ObservedSchedule}
    (hwanted : desired.lookup id = some wanted) (hactual : after.lookup id = some actual)
    (is : actual.Is wanted) : Settled desired after id := by
  unfold Settled
  rw [hwanted]
  exact ⟨actual, hactual, is⟩

theorem settled_of_absent (hwanted : desired.lookup id = none) (hactual : after.lookup id = none) :
    Settled desired after id := by
  unfold Settled
  rw [hwanted, hactual]
  intro _ h
  cases h

theorem settled_congr (h : after.lookup id = before.lookup id) :
    Settled desired after id ↔ Settled desired before id := by
  unfold Settled
  rw [h]

/-- A mutation towards the desired schedules unsettles none of them. -/
theorem ScheduleMove.settled (names : (keys desired).Nodup)
    (move : ScheduleMove desired before after) (h : Settled desired before id) :
    Settled desired after id := by
  cases move with
  | @created id' wanted member absent =>
      by_cases hid : id = id'
      · subst hid
        apply settled_of_is (lookup_of_mem names member) _ wanted.observed_is
        simp [List.lookup_append, absent]
      · rw [settled_congr]
        · exact h
        · have hb : (id == id') = false := by simpa using hid
          simp [List.lookup_append, List.lookup_cons, hb]
  | @updated id' wanted actual member found same =>
      by_cases hid : id = id'
      · subst hid
        exact settled_of_is (lookup_of_mem names member) (lookup_set_self _ _ _)
          (is_updated same)
      · rw [settled_congr (lookup_set_ne hid _ _)]
        exact h
  | @deleted id' unwanted =>
      by_cases hid : id = id'
      · subst hid
        exact settled_of_absent (lookup_eq_none_iff_not_mem_keys.mpr unwanted)
          (lookup_filter_self _ _)
      · rw [settled_congr (lookup_filter_ne hid)]
        exact h

end ScheduleMoves

/-! ## The records of a history -/

@[simp]
theorem ControlPlane.store_records_self (world : ControlPlane) (record : ActivationRecord) :
    (world.store record).records record.activationId = some record := by
  simp [ControlPlane.store]

theorem ControlPlane.store_records_ne {world : ControlPlane} {record : ActivationRecord}
    {id : Digest} (h : id ≠ record.activationId) :
    (world.store record).records id = world.records id := by
  simp [ControlPlane.store, h]

/-- What becomes of one record in one move. -/
inductive RecordStep (host : ActivationHost) (history : List ControlPlane) (id : Digest)
    (world next : ControlPlane) : Prop where
  | kept (same : next.records id = world.records id)
  | changed {controller : Controller} {current updated : ActivationRecord}
      (found : world.records id = some current) (written : next.records id = some updated)
      (version : updated.version = current.version + 1)
      (identity : updated.activationId = current.activationId)
      (change : RecordChange host controller history current updated)
  | created {record : ActivationRecord}
      (absent : world.records id = none) (written : next.records id = some record)
      (identity : record.activationId = id)
      (fresh : FreshRecord host history record)

theorem recordStep_of_move {host : ActivationHost} {world next : ControlPlane}
    {past : List ControlPlane}
    (move : (activationService host).Moves (ActivationMove host) (world :: past) next)
    (id : Digest) : RecordStep host (world :: past) id world next := by
  rcases move with ⟨controller, step⟩ | ⟨before, change, hhead, rfl⟩
  · cases step with
    | @recorded _ _ current updated found version identity change =>
        by_cases hid : id = updated.activationId
        · subst hid
          exact .changed found (by simp) version identity change
        · exact .kept (ControlPlane.store_records_ne hid)
    | @created _ _ record absent fresh =>
        by_cases hid : id = record.activationId
        · subst hid
          exact .created absent (by simp) rfl fresh
        · exact .kept (ControlPlane.store_records_ne hid)
    | _ => exact .kept rfl
  · obtain rfl : world = before := by simpa using hhead
    cases change <;> exact .kept rfl

/-- A controller that moves leaves a stored record alone or changes it itself. -/
theorem changed_of_step {host : ActivationHost} {controller : Controller}
    {world next : ControlPlane} {past : List ControlPlane} {id : Digest}
    {record updated : ActivationRecord}
    (step : ActivationMove host controller (world :: past) next)
    (found : world.records id = some record) (written : next.records id = some updated) :
    updated = record ∨ RecordChange host controller (world :: past) record updated := by
  have kept : next.records id = world.records id → updated = record := by
    intro same
    rw [same, found, Option.some.injEq] at written
    exact written.symm
  cases step with
  | @recorded _ _ current stored found' version identity change =>
      by_cases hid : id = stored.activationId
      · subst hid
        rw [found', Option.some.injEq] at found
        rw [ControlPlane.store_records_self, Option.some.injEq] at written
        subst found written
        exact .inr change
      · exact .inl (kept (ControlPlane.store_records_ne hid))
  | @created _ _ stored absent fresh =>
      by_cases hid : id = stored.activationId
      · subst hid
        rw [absent] at found
        cases found
      · exact .inl (kept (ControlPlane.store_records_ne hid))
  | _ => exact .inl (kept rfl)

variable {host : ActivationHost} {start : ControlPlane}

/-- What fresh records have, and changes and later moves keep, every stored record has. -/
theorem stored_induct {P : List ControlPlane → Digest → ActivationRecord → Prop}
    (unrecorded : start.Unrecorded)
    (later : ∀ {history next : List ControlPlane} {id : Digest} {record : ActivationRecord},
      P history id record → history <:+ next → P next id record)
    (changed : ∀ {history : List ControlPlane} {id : Digest} {controller : Controller}
      {current updated : ActivationRecord}, P history id current →
        updated.activationId = current.activationId →
          RecordChange host controller history current updated → P history id updated)
    (created : ∀ {history : List ControlPlane} {id : Digest} {record : ActivationRecord},
      record.activationId = id → FreshRecord host history record → P history id record)
    {history : List ControlPlane} (lawful : Activating host start history) :
    ∀ world ∈ history, ∀ id record, world.records id = some record → P history id record := by
  refine lawful.induct (P := fun history => ∀ world ∈ history, ∀ id record,
    world.records id = some record → P history id record) ?_ ?_
  · intro world hworld id record found
    obtain rfl := List.mem_singleton.mp hworld
    rw [unrecorded id] at found
    cases found
  · intro world past next _ ih move
    have grows : world :: past <:+ next :: world :: past := List.suffix_cons _ _
    intro earlier hearlier id record found
    rcases List.mem_cons.mp hearlier with rfl | hearlier
    · cases recordStep_of_move move id with
      | kept same => exact later (ih world List.mem_cons_self id record (same ▸ found)) grows
      | changed before written _ identity change =>
          rw [written, Option.some.injEq] at found
          subst found
          exact later (changed (ih world List.mem_cons_self id _ before) identity change) grows
      | created _ written identity fresh =>
          rw [written, Option.some.injEq] at found
          subst found
          exact later (created identity fresh) grows
    · exact later (ih earlier hearlier id record found) grows

/-- Every stored record carries the identity it is stored under. -/
theorem stored_identity (unrecorded : start.Unrecorded) {history : List ControlPlane}
    (lawful : Activating host start history) :
    ∀ world ∈ history, ∀ id record, world.records id = some record →
      record.activationId = id := by
  refine stored_induct (P := fun _ id record => record.activationId = id) unrecorded ?_ ?_ ?_ lawful
  · intro _ _ _ _ same _
    exact same
  · intro _ _ _ _ _ same identity _
    exact identity.trans same
  · intro _ _ _ identity _
    exact identity

/-- A record stays stored, its version grows, and a version names one record. -/
theorem stored_later (unrecorded : start.Unrecorded) {world : ControlPlane}
    {past : List ControlPlane} (lawful : Activating host start (world :: past)) :
    ∀ earlier ∈ world :: past, ∀ id record, earlier.records id = some record →
      ∃ current, world.records id = some current ∧ record.version ≤ current.version ∧
        (record.version = current.version → record = current) := by
  generalize hhistory : world :: past = history at lawful
  induction lawful generalizing world past with
  | start =>
      obtain ⟨rfl, rfl⟩ := List.cons.inj hhistory
      intro earlier hearlier id record found
      obtain rfl := List.mem_singleton.mp hearlier
      rw [unrecorded id] at found
      cases found
  | @next before next rest lawful move ih =>
      obtain ⟨rfl, rfl⟩ := List.cons.inj hhistory
      intro earlier hearlier id record found
      rcases List.mem_cons.mp hearlier with rfl | hearlier
      · exact ⟨record, found, le_refl _, fun _ => rfl⟩
      obtain ⟨current, hcurrent, hle, heq⟩ := ih rfl earlier hearlier id record found
      cases recordStep_of_move move id with
      | kept same => exact ⟨current, same.trans hcurrent, hle, heq⟩
      | @changed _ current' updated before' written version _ _ =>
          rw [hcurrent, Option.some.injEq] at before'
          subst before'
          exact ⟨updated, written, by omega, fun h => by omega⟩
      | created absent =>
          rw [hcurrent] at absent
          cases absent

/-- A record that was stored and has the version of the stored one is the stored one. -/
theorem Recorded.current (unrecorded : start.Unrecorded) {world : ControlPlane}
    {past : List ControlPlane} (lawful : Activating host start (world :: past))
    {record current : ActivationRecord} (recorded : Recorded record (world :: past))
    (found : world.records record.activationId = some current)
    (version : current.version = record.version) : record = current := by
  obtain ⟨earlier, hearlier, hrecord⟩ := recorded
  obtain ⟨current', hcurrent, _, heq⟩ := stored_later unrecorded lawful earlier hearlier _ _ hrecord
  rw [found, Option.some.injEq] at hcurrent
  subst hcurrent
  exact heq version.symm

/-- A record keeps its plan. -/
theorem RecordChange.plan {controller : Controller} {history : List ControlPlane}
    {current updated : ActivationRecord}
    (change : RecordChange host controller history current updated) :
    updated.plan = current.plan := by
  cases change with
  | acquired _ _ change =>
      obtain ⟨_, _, rfl, _⟩ := acquireActivationLease_eq_ok.mp change
      rfl
  | advanced _ _ _ _ change =>
      obtain ⟨_, _, _, rfl, _⟩ := transitionActivation_eq_ok.mp change
      rfl
  | checkpointed _ _ _ change =>
      subst change
      rfl
  | registered _ change =>
      obtain ⟨_, ⟨_, rfl⟩ | ⟨_, rfl, _⟩⟩ := registerWorkerReadiness_eq_ok.mp change <;> rfl
  | released _ change =>
      obtain ⟨_, rfl, _⟩ := releaseActivationLease_eq_ok.mp change
      rfl
  | concluded _ _ _ change =>
      obtain ⟨_, _, _, rfl, _⟩ := transitionActivation_eq_ok.mp change
      rfl
  | rolledBack _ _ change =>
      obtain ⟨_, _, _, rfl, _⟩ := transitionActivation_eq_ok.mp change
      rfl

/-- Every write is a validated record. -/
theorem RecordChange.valid {controller : Controller} {history : List ControlPlane}
    {current updated : ActivationRecord}
    (change : RecordChange host controller history current updated) : updated.Valid := by
  cases change with
  | acquired _ _ change =>
      obtain ⟨_, _, rfl, valid⟩ := acquireActivationLease_eq_ok.mp change
      exact valid
  | advanced _ _ _ _ change =>
      obtain ⟨_, _, _, rfl, valid⟩ := transitionActivation_eq_ok.mp change
      exact valid
  | checkpointed _ _ _ _ valid => exact valid
  | registered _ change changed =>
      obtain ⟨_, ⟨_, same⟩ | ⟨_, rfl, valid⟩⟩ := registerWorkerReadiness_eq_ok.mp change
      · exact absurd same changed
      · exact valid
  | released _ change =>
      obtain ⟨_, rfl, valid⟩ := releaseActivationLease_eq_ok.mp change
      exact valid
  | concluded _ _ _ change =>
      obtain ⟨_, _, _, rfl, valid⟩ := transitionActivation_eq_ok.mp change
      exact valid
  | rolledBack _ _ change =>
      obtain ⟨_, _, _, rfl, valid⟩ := transitionActivation_eq_ok.mp change
      exact valid

theorem stored_valid (unrecorded : start.Unrecorded) {history : List ControlPlane}
    (lawful : Activating host start history) :
    ∀ world ∈ history, ∀ id record, world.records id = some record → record.Valid := by
  refine stored_induct (P := fun _ _ record => record.Valid) unrecorded ?_ ?_ ?_ lawful
  · intro _ _ _ _ valid _
    exact valid
  · intro _ _ _ _ _ _ _ change
    exact change.valid
  · intro _ _ _ _ fresh
    exact fresh.valid

/-- The plan of every record was made by the planner. -/
theorem stored_planned (unrecorded : start.Unrecorded) {history : List ControlPlane}
    (lawful : Activating host start history) :
    ∀ world ∈ history, ∀ id record, world.records id = some record →
      PlannedFrom host history record.plan := by
  refine stored_induct (P := fun history _ record => PlannedFrom host history record.plan)
    unrecorded ?_ ?_ ?_ lawful
  · intro _ _ _ _ planned grows
    exact planned.later grows
  · intro _ _ _ _ _ planned _ change
    rwa [change.plan]
  · intro _ _ _ _ fresh
    exact fresh.planned

theorem planConfigurationActivation_eq_ok {hashing : Hashing} {target : ActivationTarget}
    {active : ActiveConfiguration} {observations : ActivationObservations}
    {plan : ActivationPlan}
    (h : planConfigurationActivation hashing target active observations = .ok plan) :
    plan.targetRevisionId = target.revisionId ∧
      plan.expectedActiveRevisionId = active.revisionId ∧
      plan.expectedActivePointerVersion = observations.activePointerVersion ∧
      plan.Bounded := by
  simp only [planConfigurationActivation, ActivationPlan.create, require_bind_eq_ok] at h
  obtain ⟨_, definitions, changes, risks, version, hplan⟩ := h
  cases hplan
  exact ⟨rfl, rfl, rfl, definitions, changes, risks, version⟩

/-- The planner saw a pointer, and the plan expects that pointer. -/
theorem PlannedFrom.pointer {history : List ControlPlane} {plan : ActivationPlan}
    (h : PlannedFrom host history plan) :
    Once (fun world => world.pointer.map (·.revisionId) = plan.expectedActiveRevisionId ∧
      world.pointer.map (·.version) = plan.expectedActivePointerVersion) history := by
  obtain ⟨_, _, pointer, _, _, _, _, _, _, _, _, moment, _, _, _, planned⟩ := h.sources
  obtain ⟨_, revision, version, _⟩ := planConfigurationActivation_eq_ok planned
  refine moment.mono fun world hworld => ?_
  rw [hworld, revision, version]
  exact ⟨rfl, rfl⟩

/-- A plan expects a whole pointer or none. -/
theorem PlannedFrom.expected_none {history : List ControlPlane} {plan : ActivationPlan}
    (h : PlannedFrom host history plan) (hversion : plan.expectedActivePointerVersion = none) :
    plan.expectedActiveRevisionId = none := by
  obtain ⟨world, _, revision, version⟩ := h.pointer
  rw [hversion] at version
  rw [← revision]
  simpa using version

/-- The pointer that a successful swap installs is the target of its plan. -/
theorem swapped_pointer {world : ControlPlane} {history : List ControlPlane}
    {plan : ActivationPlan} {pointer : ActivePointer} {next : ControlPlane}
    (planned : PlannedFrom host history plan)
    (swapped : world.compareAndSwapActive plan.targetRevisionId plan.expectedActiveRevisionId
      plan.expectedActivePointerVersion = (.ok pointer, next)) :
    world.pointer.map (·.revisionId) = plan.expectedActiveRevisionId ∧
      world.pointer.map (·.version) = plan.expectedActivePointerVersion ∧
      pointer = Controller.targetPointer plan ∧ next = { world with pointer := some pointer } := by
  simp only [ControlPlane.compareAndSwapActive] at swapped
  split_ifs at swapped with hexpected
  · cases (Prod.mk.inj swapped).1
  obtain ⟨hpointer, hnext⟩ := Prod.mk.inj swapped
  simp only [not_or, not_not, not_and] at hexpected
  obtain ⟨revision, version⟩ := hexpected
  have hversion : world.pointer.map (·.version) = plan.expectedActivePointerVersion := by
    cases hexpects : plan.expectedActivePointerVersion with
    | some expected => simpa [hexpects] using version
    | none =>
        rw [planned.expected_none hexpects] at revision
        simpa using revision
  cases hpointer
  refine ⟨revision, hversion, ?_, hnext.symm⟩
  simp only [Controller.targetPointer, ActivePointer.mk.injEq, true_and, ← hversion]
  cases world.pointer <;> rfl

/-- The clock only advances. -/
theorem clock_le {world : ControlPlane} {past : List ControlPlane}
    (lawful : Activating host start (world :: past)) :
    ∀ earlier ∈ world :: past, earlier.now ≤ world.now := by
  generalize hhistory : world :: past = history at lawful
  induction lawful generalizing world past with
  | start =>
      obtain ⟨rfl, rfl⟩ := List.cons.inj hhistory
      simp
  | @next before next rest lawful move ih =>
      obtain ⟨rfl, rfl⟩ := List.cons.inj hhistory
      have hnow : before.now ≤ world.now := by
        rcases move with ⟨controller, step⟩ | ⟨other, change, hhead, rfl⟩
        · cases step <;> exact le_refl _
        · obtain rfl : before = other := by simpa using hhead
          cases change with
          | advance duration => exact Nat.le_add_right _ _
          | restart => exact le_refl _
          | disturb => exact le_refl _
      intro earlier hearlier
      rcases List.mem_cons.mp hearlier with rfl | hearlier
      · exact le_refl _
      · exact (ih rfl earlier hearlier).trans hnow

end Justflow
