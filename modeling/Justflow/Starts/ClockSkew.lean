import Justflow.Starts.Failed
import Justflow.Starts.Operations

/-!
# Clocks of several hosts

Every transition of a scheduled start is given a reading of the clock of the host that makes it,
and the reading becomes the record's time of update.  The validators refuse a record that was
updated before it was accepted.  Only the projection of a running arbiter, which is shown and not
stored, takes the later one of the reading and the record's own time.
-/

namespace Justflow

/-- A scheduled start at any point of its life. -/
inductive ScheduledStart where
  | retained (record : ScheduledStartProjectionRecord)
  | dispatching (record : DispatchingScheduledStartRecord)

def ScheduledStart.base : ScheduledStart → ScheduledStartRecordBase
  | .retained record => record.base
  | .dispatching record => record.toScheduledStartRecordBase

/-- The transitions of the lifecycle, and the projection of a pending record whose arbiter
runs. -/
inductive StartTransition where
  | reschedule (startAt : Nat) (requestDigest : Digest)
  | cancel (requestDigest : Digest)
  | claim
  | project
  | complete (run : ScheduledStartRun)
  | fail (failureCode : ScheduledStartFailureCode)

section Lifecycle

variable (hashing : Hashing)

/-- What a claim of a pending record makes. -/
def claimed (record : PendingScheduledStartRecord) (claimedAt : Nat) :
    Except ScheduledStartException ScheduledStart := do
  match ← claimScheduledStart hashing (.pending record) record.version claimedAt with
  | some dispatching => return .dispatching dispatching
  | none => throw noLongerPending

/-- The record that a transition makes at a reading of the clock; `none` where the state machine
does not allow it. -/
def ScheduledStart.apply (self : ScheduledStart) (reading : Nat) :
    StartTransition → Option (Except ScheduledStartException ScheduledStart)
  | .reschedule startAt requestDigest =>
      match self with
      | .retained (.pending record) => some do
          let (rescheduled, _) ← rescheduleScheduledStart (.pending record) startAt record.version
            requestDigest reading
          return .retained (.pending rescheduled)
      | _ => none
  | .cancel requestDigest =>
      match self with
      | .retained (.pending record) => some do
          let (canceled, _) ← cancelScheduledStart (.pending record) record.version requestDigest
            reading
          return .retained (.canceled canceled)
      | _ => none
  | .claim =>
      match self with
      | .retained (.pending record) => some (claimed hashing record reading)
      | _ => none
  | .project =>
      match self with
      | .retained (.pending record) =>
          some (claimed hashing record (max record.updatedAt reading))
      | _ => none
  | .complete run =>
      match self with
      | .dispatching record => some do
          return .retained (.started (← completeScheduledStart hashing record run reading))
      | _ => none
  | .fail failureCode =>
      match self with
      | .dispatching record => some do
          return .retained (.failed (← failScheduledStart hashing record failureCode reading))
      | _ => none

/-- A projection leaves the stored record alone. -/
def ScheduledStart.next (self made : ScheduledStart) : StartTransition → ScheduledStart
  | .project => self
  | _ => made

/-- The transition made a valid record, which is not updated before the one it was made of. -/
def ScheduledStart.Makes (self : ScheduledStart) (made : ScheduledStart) : Prop :=
  self.base.updatedAt ≤ made.base.updatedAt

/-- Along a run of transitions, each of them with a reading of some host's clock: what is allowed
makes a valid record, and times of update never decrease. -/
def ScheduledStart.TotalAlong : ScheduledStart → List (StartTransition × Nat) → Prop
  | _, [] => True
  | self, (transition, reading) :: rest =>
      match self.apply hashing reading transition with
      | none => TotalAlong self rest
      | some (.ok made) => self.Makes made ∧ TotalAlong (self.next made transition) rest
      | some (.error _) => False

/-- The reading of the clock is not behind the record, or is not used. -/
def ScheduledStart.Ahead (self : ScheduledStart) (reading : Nat) : StartTransition → Prop
  | .project => True
  | _ => self.base.updatedAt ≤ reading

/-- Along a run of transitions, the clocks are not behind the record. -/
def ScheduledStart.AheadAlong : ScheduledStart → List (StartTransition × Nat) → Prop
  | _, [] => True
  | self, (transition, reading) :: rest =>
      match self.apply hashing reading transition with
      | none => AheadAlong self rest
      | some (.ok made) => self.Ahead reading transition ∧
          AheadAlong (self.next made transition) rest
      | some (.error _) => self.Ahead reading transition

/-! ## One transition -/

section Steps

variable {hashing}

theorem transition_ok {base : ScheduledStartRecordBase} {startAt version updatedAt : Nat}
    {kind : ScheduledStartMutationKind} {digest : Digest} (versioned : 1 ≤ version)
    (accepted : base.acceptedAt ≤ updatedAt) :
    ∃ made, base.transition startAt version updatedAt kind digest = .ok made ∧
      made.updatedAt = updatedAt := by
  rw [ScheduledStartRecordBase.transition, dif_pos ⟨versioned, accepted⟩]
  exact ⟨_, rfl, rfl⟩

theorem transition_early {base : ScheduledStartRecordBase} {startAt version updatedAt : Nat}
    {kind : ScheduledStartMutationKind} {digest : Digest}
    (early : updatedAt < base.acceptedAt) :
    base.transition startAt version updatedAt kind digest = .error .validation := by
  rw [ScheduledStartRecordBase.transition, dif_neg fun h => absurd h.2 (by omega)]

/-- What a transition makes of a record, by its reading of the clock. -/
structure Timed (base : ScheduledStartRecordBase) (reading : Nat)
    (outcome : Except ScheduledStartException ScheduledStart) : Prop where
  late : base.acceptedAt ≤ reading → ∃ made, outcome = .ok made ∧ made.base.updatedAt = reading
  early : reading < base.acceptedAt → outcome = .error .validation

/-- A transition that only validates the record anew. -/
theorem Timed.of_transition {base : ScheduledStartRecordBase} {version reading : Nat}
    (startAt : Nat) (kind : ScheduledStartMutationKind) (digest : Digest) (versioned : 1 ≤ version)
    {outcome : Except ScheduledStartException ScheduledStart}
    (make : ScheduledStartRecordBase → ScheduledStart)
    (kept : ∀ made, (make made).base = made)
    (h : outcome = (base.transition startAt version reading kind digest).map make) :
    Timed base reading outcome := by
  constructor
  · intro accepted
    obtain ⟨made, hmade, updated⟩ := transition_ok versioned accepted
    refine ⟨make made, by rw [h, hmade]; rfl, ?_⟩
    rw [kept, updated]
  · intro early
    rw [h, transition_early early]
    rfl

theorem claimed_timed (hashing : Hashing) (record : PendingScheduledStartRecord) (claimedAt : Nat) :
    Timed record.toScheduledStartRecordBase claimedAt (claimed hashing record claimedAt) := by
  let claimDigest := scheduledStartRequestDigest hashing
    [.str "dispatch", .str record.scheduledStartId, .int record.version]
  refine Timed.of_transition record.startAt .dispatch claimDigest record.versioned
    (fun base => .dispatching ⟨base, record.version, claimedAt⟩) (fun _ => rfl) ?_
  simp only [claimed, claimScheduledStart, ne_eq, not_true_eq_false, if_false,
    ScheduledStartRecordBase.mutated]
  generalize record.toScheduledStartRecordBase.transition _ _ _ _ _ = moved
  cases moved <;> rfl

/-- Every allowed transition but the projection keeps to its reading of the clock. -/
theorem apply_timed {self : ScheduledStart} {reading : Nat} {transition : StartTransition}
    {outcome : Except ScheduledStartException ScheduledStart} (stored : transition ≠ .project)
    (allowed : self.apply hashing reading transition = some outcome) :
    Timed self.base reading outcome := by
  cases transition with
  | reschedule startAt requestDigest =>
      cases self with
      | dispatching record => cases allowed
      | retained record =>
          cases record with
          | pending record =>
              cases allowed
              rw [ScheduledStart.base, ScheduledStartProjectionRecord.base]
              refine Timed.of_transition startAt .reschedule requestDigest
                (Nat.le_add_left 1 record.version) (fun base => .retained (.pending ⟨base⟩))
                (fun _ => rfl) ?_
              rw [rescheduleScheduledStart, if_neg (by simp), if_neg (by simp)]
              generalize record.toScheduledStartRecordBase.transition _ _ _ _ _ = moved
              cases moved <;> rfl
          | _ => cases allowed
  | cancel requestDigest =>
      cases self with
      | dispatching record => cases allowed
      | retained record =>
          cases record with
          | pending record =>
              cases allowed
              rw [ScheduledStart.base, ScheduledStartProjectionRecord.base]
              refine Timed.of_transition record.startAt .cancel requestDigest record.versioned
                (fun base => .retained (.canceled ⟨base, reading⟩)) (fun _ => rfl) ?_
              rw [cancelScheduledStart, if_neg (by simp), ScheduledStartRecordBase.mutated]
              generalize record.toScheduledStartRecordBase.transition _ _ _ _ _ = moved
              cases moved <;> rfl
          | _ => cases allowed
  | claim =>
      cases self with
      | dispatching record => cases allowed
      | retained record =>
          cases record with
          | pending record =>
              cases allowed
              exact claimed_timed hashing record reading
          | _ => cases allowed
  | project => exact absurd rfl stored
  | complete run =>
      cases self with
      | retained record => cases allowed
      | dispatching record =>
          cases allowed
          let completionDigest := scheduledStartRequestDigest hashing
            [.str "start", .str record.scheduledStartId, .int record.claimedVersion,
              .str run.workflowId, .str run.runId]
          rw [ScheduledStart.base]
          refine Timed.of_transition record.startAt .start completionDigest record.versioned
            (fun base => .retained (.started
              ⟨base, record.claimedVersion, record.dispatchStartedAt, reading, run⟩))
            (fun _ => rfl) ?_
          rw [completeScheduledStart, ScheduledStartRecordBase.mutated]
          generalize record.toScheduledStartRecordBase.transition _ _ _ _ _ = moved
          cases moved <;> rfl
  | fail failureCode =>
      cases self with
      | retained record => cases allowed
      | dispatching record =>
          cases allowed
          let failureDigest := scheduledStartRequestDigest hashing
            [.str "fail", .str record.scheduledStartId, .int record.claimedVersion,
              .str failureCode.value]
          rw [ScheduledStart.base]
          refine Timed.of_transition record.startAt .fail failureDigest record.versioned
            (fun base => .retained (.failed
              ⟨base, record.claimedVersion, record.dispatchStartedAt, reading, failureCode⟩))
            (fun _ => rfl) ?_
          rw [failScheduledStart, ScheduledStartRecordBase.mutated]
          generalize record.toScheduledStartRecordBase.transition _ _ _ _ _ = moved
          cases moved <;> rfl

/-- The projection takes the later one of two times, so it is always valid. -/
theorem project_makes {self : ScheduledStart} {reading : Nat}
    {outcome : Except ScheduledStartException ScheduledStart}
    (allowed : self.apply hashing reading .project = some outcome) :
    ∃ made, outcome = .ok made ∧ self.Makes made := by
  cases self with
  | dispatching record => cases allowed
  | retained record =>
      cases record with
      | pending record =>
          cases allowed
          have later := Nat.le_max_left record.updatedAt reading
          obtain ⟨made, hmade, updated⟩ :=
            (claimed_timed hashing record _).late (record.ordered.trans later)
          refine ⟨made, hmade, ?_⟩
          rw [ScheduledStart.Makes, updated]
          exact later
      | _ => cases allowed

/-- A transition is total exactly if the clock is not behind the record. -/
theorem makes_iff {self : ScheduledStart} {reading : Nat} {transition : StartTransition}
    {outcome : Except ScheduledStartException ScheduledStart}
    (allowed : self.apply hashing reading transition = some outcome) :
    (∃ made, outcome = .ok made ∧ self.Makes made) ↔ self.Ahead reading transition := by
  by_cases stored : transition = .project
  · subst stored
    exact ⟨fun _ => trivial, fun _ => project_makes allowed⟩
  · have timed := apply_timed stored allowed
    have ahead : self.Ahead reading transition ↔ self.base.updatedAt ≤ reading := by
      cases transition <;> first | exact Iff.rfl | exact absurd rfl stored
    rw [ahead]
    constructor
    · rintro ⟨made, rfl, makes⟩
      rcases Nat.lt_or_ge reading self.base.acceptedAt with early | late
      · cases timed.early early
      · obtain ⟨_, same, updated⟩ := timed.late late
        cases same
        rwa [ScheduledStart.Makes, updated] at makes
    · intro behind
      obtain ⟨made, hmade, updated⟩ := timed.late (self.base.ordered.trans behind)
      refine ⟨made, hmade, ?_⟩
      rwa [ScheduledStart.Makes, updated]

end Steps

/-! ## Runs -/

/-- Every run of a scheduled start is total exactly along the clocks that are not behind it. -/
theorem totalAlong_iff (start : ScheduledStart) (steps : List (StartTransition × Nat)) :
    start.TotalAlong hashing steps ↔ start.AheadAlong hashing steps := by
  induction steps generalizing start with
  | nil => exact Iff.rfl
  | cons step rest ih =>
      obtain ⟨transition, reading⟩ := step
      rw [ScheduledStart.TotalAlong, ScheduledStart.AheadAlong]
      cases allowed : start.apply hashing reading transition with
      | none => exact ih start
      | some outcome =>
          have total := makes_iff allowed
          cases outcome with
          | error exc =>
              refine ⟨False.elim, fun ahead => ?_⟩
              obtain ⟨made, same, -⟩ := total.mpr ahead
              cases same
          | ok made =>
              refine and_congr ?_ (ih _)
              rw [← total]
              constructor
              · intro makes
                exact ⟨made, rfl, makes⟩
              · rintro ⟨_, same, makes⟩
                cases same
                exact makes

end Lifecycle

/-- A start that was accepted at second 10 is canceled on a host whose clock shows second 5. -/
theorem early_cancel_refused :
    ¬ (ScheduledStart.retained (.pending reminder)).TotalAlong lengthHash
      [(.cancel (Digest.ofNat 1), 5)] := by
  intro total
  exact total

end Justflow
