import Justflow.Activation.Runs

/-!
# The lease of a record

A controller takes the lease of a record before it works on it.  Every later write is fenced by
the version of the record, so a controller whose lease has been taken over finds its writes
refused.  Two things are not fenced in this way: nothing reads the clock again after the lease is
taken, and the error handling reads the record again before it ends it.
-/

open Service

namespace Justflow

/-- Every write of a stored record by a served controller, with the time of the write. -/
def EachWrite (host : ActivationHost) (start : ControlPlane) (events : List ActivationEvent)
    (P : Controller → Instant → ActivationRecord → ActivationRecord → Prop) : Prop :=
  ∀ before event after, events = before ++ event :: after →
    let config := (activationService host).run before (initial start)
    ∀ controller, config.served event = some controller → ∀ id record updated,
      config.world.records id = some record →
      ((activationService host).handle config event).world.records id = some updated →
      P controller config.world.now record updated

/-- The lease names the controller. -/
def Owns (controller : Controller) (record : ActivationRecord) : Prop :=
  record.leaseOwnerDigest = some controller.digest

/-- Changes of the state, the phase or the history, and releases, are made only under an unexpired
lease of the controller. -/
def ExclusiveWrite (controller : Controller) (now : Instant)
    (record updated : ActivationRecord) : Prop :=
  updated.state ≠ record.state ∨ updated.checkpoints ≠ record.checkpoints ∨
      updated.transitions ≠ record.transitions ∨
      (record.leaseOwnerDigest ≠ none ∧ updated.leaseOwnerDigest = none) →
    Owns controller record ∧ ∃ expires ∈ record.leaseExpiresAt, now < expires

/-- A controller moves a record forward, checkpoints or releases it only under its own lease, takes
a lease only from nobody or after its expiry, and marks only applied records as rolled back. -/
structure LeasedWrite (controller : Controller) (now : Instant)
    (record updated : ActivationRecord) : Prop where
  forward : updated.state ≠ record.state →
    updated.state = .running ∨ updated.state = .waitingForReadiness ∨ updated.state = .applied →
    Owns controller record
  phase : updated.checkpoints ≠ record.checkpoints → Owns controller record
  history : updated.transitions ≠ record.transitions → updated.state ≠ record.state
  released : record.leaseOwnerDigest ≠ none → updated.leaseOwnerDigest = none →
    updated.state = record.state ∨ updated.state.unsuccessful = false → Owns controller record
  taken : updated.leaseOwnerDigest ≠ record.leaseOwnerDigest →
    updated.leaseOwnerDigest ≠ none → Owns controller updated ∧
      (record.leaseOwnerDigest = none ∨ ∃ expires ∈ record.leaseExpiresAt, expires ≤ now)
  undone : updated.state ≠ record.state → updated.state = .rolledBack → record.state = .applied

theorem LeasedWrite.refl (controller : Controller) (now : Instant) (record : ActivationRecord) :
    LeasedWrite controller now record record := by
  constructor
  · exact fun h => absurd rfl h
  · exact fun h => absurd rfl h
  · exact fun h => absurd rfl h
  · exact fun h h' => absurd h' h
  · exact fun h => absurd rfl h
  · exact fun h => absurd rfl h

/-- A write that leaves the lease, the state and the phases alone. -/
theorem LeasedWrite.aside {controller : Controller} {now : Instant}
    {record updated : ActivationRecord} (state : updated.state = record.state)
    (checkpoints : updated.checkpoints = record.checkpoints)
    (transitions : updated.transitions = record.transitions)
    (lease : updated.leaseOwnerDigest = record.leaseOwnerDigest) :
    LeasedWrite controller now record updated := by
  constructor
  · exact fun h => absurd state h
  · exact fun h => absurd checkpoints h
  · exact fun h => absurd transitions h
  · exact fun h h' => absurd (lease ▸ h') h
  · exact fun h => absurd lease h
  · exact fun h => absurd state h

/-- A transition changes the state. -/
theorem state_ne_of_allowed {state next : ActivationState}
    (h : next ∈ allowedActivationTransitions state) : next ≠ state := by
  rintro rfl
  cases next <;> simp [allowedActivationTransitions] at h

section Writes

variable {host : ActivationHost} {controller : Controller} {history : List ControlPlane}
  {now : Instant} {current updated : ActivationRecord}

/-- Every change of a record respects its lease. -/
theorem RecordChange.leased (valid : current.Valid)
    (clock : ∀ moment, Once (fun world => world.now = moment) history → moment ≤ now)
    (change : RecordChange host controller history current updated) :
    LeasedWrite controller now current updated := by
  cases change with
  | @acquired acquiredAt moment active change =>
      obtain ⟨_, free, rfl, _⟩ := acquireActivationLease_eq_ok.mp change
      constructor
      · exact fun h => absurd rfl h
      · exact fun h => absurd rfl h
      · exact fun h => absurd rfl h
      · exact fun _ h => by cases h
      · intro hne _
        refine ⟨rfl, ?_⟩
        by_cases howner : current.leaseOwnerDigest = none
        · exact .inl howner
        · have hexpires : current.leaseExpiresAt ≠ none := by
            intro hnone
            have lease := valid.lease
            simp [hnone] at lease
            exact howner lease
          obtain ⟨expires, hexpires⟩ := Option.ne_none_iff_exists'.mp hexpires
          refine .inr ⟨expires, hexpires, ?_⟩
          by_contra hlate
          apply free
          refine ⟨howner, fun h => hne h.symm, expires, hexpires, ?_⟩
          exact lt_of_le_of_lt (clock _ moment) (not_le.mp hlate)
      · exact fun h => absurd rfl h
  | advanced moment owner forward passed change =>
      obtain ⟨allowed, _, _, rfl, _⟩ := transitionActivation_eq_ok.mp change
      constructor
      · exact fun _ _ => owner
      · exact fun h => absurd rfl h
      · exact fun _ => state_ne_of_allowed allowed
      · exact fun _ _ _ => owner
      · intro hne hsome
        simp only [ActivationRecord.transitioned] at hne hsome
        split_ifs at hne hsome <;> simp_all
      · intro _ hrolled
        simp only [ActivationRecord.transitioned] at hrolled
        rcases forward with rfl | rfl | rfl <;> cases hrolled
  | checkpointed moment working confirmed change =>
      subst change
      constructor
      · exact fun _ _ => working.owner
      · exact fun _ => working.owner
      · exact fun h => absurd rfl h
      · exact fun _ _ _ => working.owner
      · exact fun h => absurd rfl h
      · exact fun h => absurd rfl h
  | registered moment change =>
      obtain ⟨_, ⟨_, rfl⟩ | ⟨_, rfl, _⟩⟩ := registerWorkerReadiness_eq_ok.mp change
      · exact .refl _ _ _
      · exact .aside rfl rfl rfl rfl
  | released moment change =>
      obtain ⟨owner, rfl, _⟩ := releaseActivationLease_eq_ok.mp change
      constructor
      · exact fun h => absurd rfl h
      · exact fun h => absurd rfl h
      · exact fun h => absurd rfl h
      · exact fun _ _ _ => owner
      · exact fun _ h => absurd rfl h
      · exact fun h => absurd rfl h
  | @concluded state outcome occurredAt moment active unsuccessful change =>
      obtain ⟨allowed, _, _, rfl, _⟩ := transitionActivation_eq_ok.mp change
      have hne := state_ne_of_allowed allowed
      constructor
      · intro _ forward
        simp only [ActivationRecord.transitioned] at forward
        rcases unsuccessful with rfl | rfl <;> simp at forward
      · exact fun h => absurd rfl h
      · exact fun _ => hne
      · intro _ _ ended
        rcases ended with same | successful
        · exact absurd same hne
        · rcases unsuccessful with rfl | rfl <;>
            simp [ActivationRecord.transitioned, ActivationState.unsuccessful] at successful
      · intro _ hsome
        exact absurd rfl hsome
      · intro _ hrolled
        simp only [ActivationRecord.transitioned] at hrolled
        rcases unsuccessful with rfl | rfl <;> cases hrolled
  | rolledBack moment applied change =>
      obtain ⟨allowed, _, _, rfl, _⟩ := transitionActivation_eq_ok.mp change
      constructor
      · intro _ forward
        simp [ActivationRecord.transitioned] at forward
      · exact fun h => absurd rfl h
      · exact fun _ => state_ne_of_allowed allowed
      · exact fun h h' => absurd h' h
      · exact fun h => absurd rfl h
      · exact fun _ _ => applied

end Writes

/-- Some number that tells the texts of the samples apart. -/
def checksum (text : String) : Nat :=
  text.toList.foldl (fun total c => (total * 31 + c.toNat) % 1000000007) 7

def sampleHost : ActivationHost where
  hashing := ⟨fun text => Digest.ofNat (checksum text)⟩
  scopeDigest := Digest.ofNat 1
  workflowType := fun target => target.logicalName
  catalogVersion := fun _ => ⟨"v1", by decide, by decide⟩
  admits := fun _ => true

def sampleArtifact : WorkerArtifactIdentity where
  deploymentName := ⟨"workers", by decide, by decide⟩
  buildId := ⟨"build-1", by decide, by decide⟩
  artifactDigest := ⟨"sha256:1", by decide, by decide⟩
  packageVersion := ⟨"0.1.0", by decide, by decide⟩
  sourceRevision := none

def samplePlan : ActivationPlan where
  planDigest := ⟨Digest.ofNat 2⟩
  scopeDigest := Digest.ofNat 1
  sourceRevisionId := none
  targetRevisionId := Digest.ofNat 3
  expectedActiveRevisionId := none
  expectedActivePointerVersion := none
  expectedCatalogAliasVersion := none
  policyDigest := ⟨Digest.ofNat 4⟩
  workerObservationDigest := ⟨Digest.ofNat 5⟩
  scheduleObservationDigest := ⟨Digest.ofNat 6⟩
  targetArtifact := sampleArtifact
  targetTaskQueueIdentityDigest := ⟨Digest.ofNat 7⟩
  targetWorkerRegistrationDigest := ⟨Digest.ofNat 8⟩
  targetDefinitionDigests := []
  changes := []
  compatibilityRisks := []
  workerAction := .none
  definitionAction := .none
  routingAction := .switch
  scheduleAction := .none

def sampleRecord : ActivationRecord where
  activationId := Digest.ofNat 9
  scopeDigest := Digest.ofNat 1
  idempotencyKeyDigest := Digest.ofNat 10
  requestDigest := ⟨Digest.ofNat 11⟩
  actorDigest := Digest.ofNat 12
  correlationDigest := Digest.ofNat 13
  plan := samplePlan
  state := .pending
  version := 1
  transitions := []
  checkpoints := []
  leaseOwnerDigest := none
  leaseExpiresAt := none
  workerReadiness := none
  rollbackOfActivationId := none
  outcomeCode := none
  createdAt := 1785844800000000
  updatedAt := 1785844800000000

def samplePrepared : PreparedActivation where
  scopeDigest := Digest.ofNat 1
  revisionId := Digest.ofNat 3
  bundle := .empty
  policyDigest := ⟨Digest.ofNat 4⟩
  artifact := sampleArtifact
  taskQueueIdentityDigest := ⟨Digest.ofNat 7⟩
  manifests := []
  environmentSnapshots := []
  startTargets := []
  desiredSchedules := []
  manifestNames := List.nodup_nil
  scheduleKeys := List.nodup_nil
  scheduleScopes := fun _ h => by cases h

/-- The sample record waits for a controller. -/
def samplePlane : ControlPlane where
  now := 1785844800000000
  pointer := none
  records := Function.update (fun _ => none) sampleRecord.activationId (some sampleRecord)
  bundles := fun _ => none
  preparation := fun _ => samplePrepared
  otherAssignments := []
  manifests := []
  aliasDocument := none
  schedules := []
  registeredDefinitions := []
  routing := none
  indexes := fun _ => none

/-- A controller with a lease of 30 seconds. -/
def sampleController (n : Nat) : Controller where
  digest := Digest.ofNat n
  workerBinding := true
  scheduleBinding := true
  leaseDuration := 30000000
  positive := by decide
  maxTargetsPerScope := 100

/-- The reply of a system in order. -/
def sampleChoice : ActivationChoice where
  failure := none
  landed := false
  confirmation := ⟨.confirmed, ⟨Digest.ofNat 14⟩⟩
  readiness := none

def takeover : List ActivationEvent :=
  -- the first controller takes the lease and starts the record
  [.start (sampleController 21) (.resume sampleRecord.activationId),
    .serve 0 sampleChoice, .serve 0 sampleChoice, .serve 0 sampleChoice, .serve 0 sampleChoice,
    .serve 0 sampleChoice, .tick (.advance 40000000),
    -- the second one takes the lease over
    .start (sampleController 22) (.resume sampleRecord.activationId),
    .serve 1 sampleChoice, .serve 1 sampleChoice, .serve 1 sampleChoice,
    -- the first one fails to prepare, reads the record and the clock
    .serve 0 { sampleChoice with failure := some .configuration },
    .serve 0 sampleChoice, .serve 0 sampleChoice]

/-- The first controller ends the record. -/
def takeoverEnd : ActivationEvent := .serve 0 sampleChoice

end Justflow
