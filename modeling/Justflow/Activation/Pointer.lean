import Justflow.Activation.Runs

/-!
# The active pointer

Every pointer change is a compare-and-swap of one activation, so the version grows by one with
each change and a version names one pointer.  An activation is applied only over its pointer
checkpoint, and that checkpoint is recorded only once the pointer has been seen at the target.
-/

open Service

namespace Justflow

/-- The pointer is unchanged, or its version has grown by one. -/
def PointerStep (before after : Option ActivePointer) : Prop :=
  after = before ∨
    ∃ pointer, after = some pointer ∧ pointer.version = before.elim 0 (·.version) + 1

variable {host : ActivationHost} {start : ControlPlane}

theorem pointerStep_of_move {controller : Controller} {world next : ControlPlane}
    {past : List ControlPlane} (unrecorded : start.Unrecorded)
    (lawful : Activating host start (world :: past))
    (move : ActivationMove host controller (world :: past) next) :
    PointerStep world.pointer next.pointer := by
  cases move with
  | @pointed _ _ record pointer working swapped =>
      obtain ⟨moment, hmoment, hrecord⟩ := working.recorded
      have planned := stored_planned unrecorded lawful moment hmoment _ _ hrecord
      obtain ⟨_, version, hpointer, _⟩ := swapped_pointer planned swapped
      refine .inr ⟨pointer, rfl, ?_⟩
      rw [hpointer]
      simp only [Controller.targetPointer, ← version]
      cases world.pointer <;> rfl
  | _ => exact .inl rfl

theorem pointerStep_of_moves {world next : ControlPlane} {past : List ControlPlane}
    (unrecorded : start.Unrecorded) (lawful : Activating host start (world :: past))
    (move : (activationService host).Moves (ActivationMove host) (world :: past) next) :
    PointerStep world.pointer next.pointer := by
  rcases move with ⟨controller, step⟩ | ⟨before, change, hhead, rfl⟩
  · exact pointerStep_of_move unrecorded lawful step
  · obtain rfl : world = before := by simpa using hhead
    cases change <;> exact .inl rfl

/-- The pointer changes one version at a time. -/
theorem pointerSteps (unrecorded : start.Unrecorded) {history : List ControlPlane}
    (lawful : Activating host start history) :
    history.IsChain fun next world => PointerStep world.pointer next.pointer := by
  induction lawful with
  | start => exact List.isChain_singleton _
  | next before move ih =>
      exact List.isChain_cons_cons.mpr ⟨pointerStep_of_moves unrecorded before move, ih⟩

/-- Versions only grow, and a version names one pointer. -/
theorem pointer_later (unrecorded : start.Unrecorded) {world : ControlPlane}
    {past : List ControlPlane} (lawful : Activating host start (world :: past)) :
    ∀ earlier ∈ world :: past, ∀ pointer, earlier.pointer = some pointer →
      ∃ current, world.pointer = some current ∧ pointer.version ≤ current.version ∧
        (pointer.version = current.version → pointer = current) := by
  generalize hhistory : world :: past = history at lawful
  induction lawful generalizing world past with
  | start =>
      obtain ⟨rfl, rfl⟩ := List.cons.inj hhistory
      intro earlier hearlier pointer found
      obtain rfl := List.mem_singleton.mp hearlier
      exact ⟨pointer, found, le_refl _, fun _ => rfl⟩
  | @next before next rest lawful move ih =>
      obtain ⟨rfl, rfl⟩ := List.cons.inj hhistory
      intro earlier hearlier pointer found
      rcases List.mem_cons.mp hearlier with rfl | hearlier
      · exact ⟨pointer, found, le_refl _, fun _ => rfl⟩
      obtain ⟨current, hcurrent, hle, heq⟩ := ih rfl earlier hearlier pointer found
      rcases pointerStep_of_moves unrecorded lawful move with same | ⟨moved, hmoved, version⟩
      · exact ⟨current, same.trans hcurrent, hle, heq⟩
      · rw [hcurrent, Option.elim_some] at version
        exact ⟨moved, hmoved, by omega, fun h => by omega⟩

theorem pointer_unique (unrecorded : start.Unrecorded) {history : List ControlPlane}
    (lawful : Activating host start history) :
    ∀ before ∈ history, ∀ after ∈ history, ∀ first second,
      before.pointer = some first → after.pointer = some second →
        first.version = second.version → first = second := by
  induction lawful with
  | start =>
      intro before hbefore after hafter first second hfirst hsecond _
      obtain rfl := List.mem_singleton.mp hbefore
      obtain rfl := List.mem_singleton.mp hafter
      exact Option.some.inj (hfirst.symm.trans hsecond)
  | @next world next past lawful move ih =>
      have later := pointer_later unrecorded (lawful.next move)
      intro before hbefore after hafter first second hfirst hsecond version
      rcases List.mem_cons.mp hbefore with rfl | old
      · obtain ⟨current, hcurrent, _, heq⟩ := later after hafter second hsecond
        rw [hfirst, Option.some.injEq] at hcurrent
        subst hcurrent
        exact (heq version.symm).symm
      · rcases List.mem_cons.mp hafter with rfl | recent
        · obtain ⟨current, hcurrent, _, heq⟩ := later before hbefore first hfirst
          rw [hsecond, Option.some.injEq] at hcurrent
          subst hcurrent
          exact heq version
        · exact ih before old after recent first second hfirst hsecond version

/-! ## Applied records -/

/-- What a record tells about the pointer. -/
structure PointerFacts (history : List ControlPlane) (record : ActivationRecord) : Prop where
  pointed : hasCheckpoint record .activePointer →
    Once (fun world => world.pointer = some (Controller.targetPointer record.plan)) history
  applied : record.state = .applied → hasCheckpoint record .activePointer

theorem PointerFacts.later {history next : List ControlPlane} {record : ActivationRecord}
    (h : PointerFacts history record) (grows : history <:+ next) : PointerFacts next record :=
  ⟨fun checkpoint => (h.pointed checkpoint).later grows, h.applied⟩

/-- The facts survive every change of the record. -/
theorem PointerFacts.change {controller : Controller} {history : List ControlPlane}
    {current updated : ActivationRecord} (h : PointerFacts history current)
    (change : RecordChange host controller history current updated) :
    PointerFacts history updated := by
  cases change with
  | acquired _ _ change =>
      obtain ⟨_, _, rfl, _⟩ := acquireActivationLease_eq_ok.mp change
      exact ⟨h.pointed, h.applied⟩
  | advanced _ _ _ passed change =>
      obtain ⟨_, _, _, rfl, _⟩ := transitionActivation_eq_ok.mp change
      exact ⟨h.pointed, fun applied => passed applied .activePointer trivial⟩
  | @checkpointed kind outcome digest occurredAt _ working confirmed change =>
      subst change
      constructor
      · intro checkpoint
        rw [Controller.hasCheckpoint_checkpointed, Bool.or_eq_true] at checkpoint
        rcases checkpoint with before | now
        · exact h.pointed before
        · obtain rfl : kind = .activePointer := by simpa using now
          exact confirmed
      · intro applied
        have running : current.state = .applied := applied
        rw [working.running] at running
        cases running
  | registered _ change =>
      obtain ⟨_, ⟨_, rfl⟩ | ⟨_, rfl, _⟩⟩ := registerWorkerReadiness_eq_ok.mp change
      · exact h
      · exact ⟨h.pointed, h.applied⟩
  | released _ change =>
      obtain ⟨_, rfl, _⟩ := releaseActivationLease_eq_ok.mp change
      exact ⟨h.pointed, h.applied⟩
  | concluded _ _ unsuccessful change =>
      obtain ⟨_, _, _, rfl, _⟩ := transitionActivation_eq_ok.mp change
      refine ⟨h.pointed, fun applied => ?_⟩
      simp only [ActivationRecord.transitioned] at applied
      rcases unsuccessful with rfl | rfl <;> cases applied
  | rolledBack _ _ change =>
      obtain ⟨_, _, _, rfl, _⟩ := transitionActivation_eq_ok.mp change
      exact ⟨h.pointed, fun applied => by cases applied⟩

theorem stored_pointerFacts (unrecorded : start.Unrecorded) {history : List ControlPlane}
    (lawful : Activating host start history) :
    ∀ world ∈ history, ∀ id record, world.records id = some record →
      PointerFacts history record := by
  refine stored_induct (P := fun history _ record => PointerFacts history record)
    unrecorded ?_ ?_ ?_ lawful
  · intro _ _ _ _ facts grows
    exact facts.later grows
  · intro _ _ _ _ _ facts _ change
    exact facts.change change
  · intro _ _ record _ fresh
    constructor
    · intro checkpoint
      simp [hasCheckpoint, fresh.checkpoints] at checkpoint
    · intro applied
      rw [fresh.pending] at applied
      cases applied

/-- The pointer was at the target of every applied record, before the record was applied. -/
theorem applied_pointed (unrecorded : start.Unrecorded) {history : List ControlPlane}
    (lawful : Activating host start history) {world : ControlPlane} {past : List ControlPlane}
    (moment : world :: past <:+ history) {id : Digest} {record : ActivationRecord}
    (found : world.records id = some record) (applied : record.state = .applied) :
    Once (fun world => world.pointer = some (Controller.targetPointer record.plan))
      (world :: past) := by
  have lawful' := lawful.suffix moment (by simp)
  have facts := stored_pointerFacts unrecorded lawful' world List.mem_cons_self id record found
  exact facts.pointed (facts.applied applied)

/-- In every run of any number of controllers, from a control plane without activations: the
pointer changes one version at a time, activations applied over one expected version have one
target, and the pointer was at the target of an activation before it was applied. -/
theorem pointer_exclusivity (plane : ControlPlane) (events : List ActivationEvent) :
    let history :=
      ((activationService host).run events (initial plane.beforeActivations)).history
    (history.IsChain fun next world => PointerStep world.pointer next.pointer) ∧
    (∀ world ∈ history, ∀ world' ∈ history, ∀ id id' record record',
      world.records id = some record → world'.records id' = some record' →
      record.state = .applied → record'.state = .applied →
      record.plan.expectedActivePointerVersion = record'.plan.expectedActivePointerVersion →
      record.plan.targetRevisionId = record'.plan.targetRevisionId) ∧
    (∀ world past, world :: past <:+ history → ∀ id record,
      world.records id = some record → record.state = .applied →
      ∃ moment ∈ world :: past,
        moment.pointer = some (Controller.targetPointer record.plan)) := by
  intro history
  have unrecorded := unrecorded_beforeActivations plane
  have lawful : Activating host plane.beforeActivations history :=
    activating_run unrecorded events
  refine ⟨pointerSteps unrecorded lawful, ?_, ?_⟩
  · intro world hworld world' hworld' id id' record record' found found' applied applied' expected
    obtain ⟨past, moment⟩ : ∃ past, world :: past <:+ history := by
      obtain ⟨before, past, h⟩ := List.append_of_mem hworld
      exact ⟨past, before, h.symm⟩
    obtain ⟨past', moment'⟩ : ∃ past, world' :: past <:+ history := by
      obtain ⟨before, past, h⟩ := List.append_of_mem hworld'
      exact ⟨past, before, h.symm⟩
    obtain ⟨first, hfirst, pointed⟩ := (applied_pointed unrecorded lawful moment found applied).later
      moment
    obtain ⟨second, hsecond, pointed'⟩ :=
      (applied_pointed unrecorded lawful moment' found' applied').later moment'
    have version : (Controller.targetPointer record.plan).version =
        (Controller.targetPointer record'.plan).version := by
      simp [Controller.targetPointer, expected]
    have same := pointer_unique unrecorded lawful first hfirst second hsecond _ _ pointed pointed'
      version
    exact congrArg ActivePointer.revisionId same
  · intro world past moment id record found applied
    exact applied_pointed unrecorded lawful moment found applied

end Justflow
