import Justflow.Activation.Phases

/-!
# Runs of the controllers

What remains of a controller's programs: the run through the phases, the error handling, the
planning, and the calls it receives.  `activating_run` puts everything together: every run of any
number of controllers, with any crashes, goes through a history of moves.
-/

open Fields Service

namespace Justflow

variable {host : ActivationHost} {controller : Controller} {start : ControlPlane}
  {history : List ControlPlane}

namespace Controller

variable {record : ActivationRecord}

/-! ## The run of a record -/

theorem runPhases_acting (unrecorded : start.Unrecorded) (held : Held controller history record) :
    Acting host controller start (fun updated later => Recorded updated later)
      (controller.runPhases host record) history := by
  rw [runPhases]
  apply Acting.bind (prepareRecord_acting record)
  rintro ⟨prepared, deployment⟩ h1 g1 preparation
  apply Acting.bind (storeDefinitionObjects_acting unrecorded (held.later g1))
  intro defined h2 g2 ⟨held2, continues2, checkpoint2⟩
  have preparation2 := continues2.plan.symm ▸ preparation.later g2
  apply Acting.bind (ensureWorkerReady_acting unrecorded held2 checkpoint2)
  intro ready h3 g3 reached
  apply Acting.ite
  · intro waits
    rcases reached with ⟨recorded, _⟩ | ⟨held3, _, _⟩
    · exact Acting.done recorded
    · exact Acting.done held3.recorded
  · intro running
    rcases reached with ⟨_, waits⟩ | ⟨held3, continues3, checkpoint3⟩
    · exact absurd waits running
    · have preparation3 := continues3.plan.symm ▸ preparation2.later g3
      apply applyPhases_acting unrecorded held3 _ preparation3
      intro earlier hrank
      cases earlier <;> simp [ActivationCheckpointKind.rank] at hrank
      · exact fun _ => continues3.checkpoints _ checkpoint2
      · exact fun required => required.elim
      · exact fun _ => checkpoint3

/-- The lease of a stored record names the controller. -/
structure Leased (controller : Controller) (history : List ControlPlane)
    (record : ActivationRecord) : Prop where
  recorded : Recorded record history
  owner : record.leaseOwnerDigest = some controller.digest
  active : record.state.terminal = false

theorem resumePhases_acting (unrecorded : start.Unrecorded) (recorded : Recorded record history)
    (owner : record.leaseOwnerDigest = some controller.digest) :
    Acting host controller start (fun updated later => Recorded updated later)
      (transition record .running none false >>= controller.runPhases host) history := by
  apply Acting.bind (transition_acting unrecorded recorded owner (.inl rfl) fun h => by cases h)
  intro running later grows ⟨now, hrunning, stored⟩
  apply runPhases_acting unrecorded
  subst hrunning
  exact ⟨stored, owner, rfl⟩

theorem readPreparedReadiness_acting :
    Acting host controller start (fun _ _ => True)
      (controller.readPreparedReadiness host record) history := by
  rw [readPreparedReadiness]
  cases record.workerReadiness with
  | some readiness => exact Acting.done trivial
  | none =>
      apply Acting.ite
      · intro _
        apply Acting.bind (prepareRecord_acting record)
        intro inputs later _ _
        exact throughBinding_acting (Acting.read (fun _ _ => rfl) fun _ _ _ _ _ _ _ => trivial)
      · intro _
        exact Acting.done trivial

theorem runLeased_acting (unrecorded : start.Unrecorded) (leased : Leased controller history record) :
    Acting host controller start (fun updated later => Recorded updated later)
      (controller.runLeased host record) history := by
  rw [runLeased]
  refine Acting.bind (K := fun started later => Recorded started later ∧
    started.leaseOwnerDigest = some controller.digest ∧
    (started.state = .running ∨ started.state = .waitingForReadiness)) ?_ ?_
  · rw [startOrResume]
    apply Acting.ite
    · intro _
      refine Acting.mono (transition_acting unrecorded leased.recorded leased.owner (.inl rfl)
        fun h => by cases h) ?_
      rintro updated later _ ⟨now, rfl, stored⟩
      exact ⟨stored, leased.owner, .inl rfl⟩
    · intro h
      refine Acting.done ⟨leased.recorded, leased.owner, ?_⟩
      have active := leased.active
      cases hstate : record.state <;> simp_all [ActivationState.terminal]
  · intro started later grows ⟨recorded, owner, state⟩
    apply Acting.ite
    · intro waits
      cases started.workerReadiness with
      | some readiness => exact resumePhases_acting unrecorded recorded owner
      | none =>
          apply Acting.bind readPreparedReadiness_acting
          intro readiness next grows' _
          cases readiness with
          | none =>
              refine Acting.mono (release_acting unrecorded (recorded.later grows')) ?_
              intro updated final _ h
              exact h.1
          | some readiness =>
              apply Acting.bind (registerReadiness_acting unrecorded (recorded.later grows')
                readiness)
              intro registered final _ ⟨recorded', continues⟩
              exact resumePhases_acting unrecorded recorded' (continues.owner.trans owner)
    · intro h
      rcases state with running | waits
      · exact runPhases_acting unrecorded ⟨recorded, owner, running⟩
      · exact absurd waits h

/-! ## Error handling -/

theorem readActivation_acting (unrecorded : start.Unrecorded) (id : Digest) :
    Acting host controller start
      (fun current later => Recorded current later ∧ current.activationId = id)
      (perform (.readActivation id)) history := by
  refine Acting.read ?_ ?_
  · intro world choice
    simp only [ControlPlane.serve]
    split <;> rfl
  · intro world past _ lawful choice reply hreply
    simp only [ControlPlane.serve] at hreply
    split at hreply
    · next record found =>
        cases hreply
        have identity := stored_identity unrecorded lawful world List.mem_cons_self id _ found
        exact ⟨.now (identity ▸ found), identity⟩
    · cases hreply

theorem terminal_acting (unrecorded : start.Unrecorded) {id : Digest} {state : ActivationState}
    {outcome : ActivationOutcomeCode} (unsuccessful : state = .failed ∨ state = .superseded) :
    Acting host controller start (fun _ _ => True) (terminal id state outcome) history := by
  rw [terminal]
  apply Acting.bind (readActivation_acting unrecorded id)
  intro current later grows ⟨recorded, _⟩
  apply Acting.ite
  · intro _
    exact Acting.done trivial
  · intro active
    exact conclude_transition_acting unrecorded recorded (by simpa using active) unsuccessful

theorem conclude_acting (unrecorded : start.Unrecorded) (id : Digest)
    (failure : ActivationFailure) :
    Acting host controller start (fun _ _ => True) (conclude id failure) history := by
  have failed : ∀ {code : ActivationOutcomeCode} {raised : ActivationFailure},
      Acting host controller start (fun _ _ => True)
        (terminal id .failed code >>= fun _ => (throw raised : ActivationProcess ActivationRecord))
        history := by
    intro code raised
    apply Acting.bind (terminal_acting unrecorded (.inl rfl))
    intro _ later _ _
    exact Acting.fail
  cases failure with
  | configurationConflict => exact terminal_acting unrecorded (.inr rfl)
  | catalogConflict => exact terminal_acting unrecorded (.inr rfl)
  | controller code retryable => exact failed
  | catalog => exact failed
  | configuration => exact failed
  | _ => exact Acting.fail

theorem resume_acting (unrecorded : start.Unrecorded) (id : Digest) :
    Acting host controller start (fun _ _ => True) (controller.resume host id) history := by
  rw [resume]
  apply Acting.bind (readActivation_acting unrecorded id)
  intro record later grows ⟨recorded, _⟩
  apply Acting.ite
  · intro _
    exact Acting.done trivial
  · intro active
    apply Acting.bind (acquire_acting unrecorded recorded (by simpa using active))
    intro leased next grows' ⟨stored, owner, _, state, _⟩
    apply Acting.rescue
    · apply Acting.top
      apply runLeased_acting unrecorded
      exact ⟨stored, owner, by simpa [state] using active⟩
    · intro failure final _
      exact conclude_acting unrecorded id failure

/-! ## Planning and the other operations -/

theorem workerObservation_acting :
    Acting host controller start (fun _ _ => True) (controller.workerObservation host) history := by
  rw [workerObservation]
  apply Acting.ite
  · intro _
    exact throughBinding_acting (Acting.read (fun _ _ => rfl) fun _ _ _ _ _ _ _ => trivial)
  · intro _
    refine Acting.bind (K := fun _ _ => True)
      (Acting.read (fun _ _ => rfl) fun _ _ _ _ _ _ _ => trivial) ?_
    intro indexed later _ _
    exact Acting.done trivial

theorem scheduleObservation_acting :
    Acting host controller start (fun _ _ => True)
      (controller.scheduleObservation host) history := by
  rw [scheduleObservation]
  apply Acting.ite
  · intro _
    apply throughBinding_acting
    refine Acting.bind (K := fun _ _ => True)
      (Acting.read (fun _ _ => rfl) fun _ _ _ _ _ _ _ => trivial) ?_
    intro observed later _ _
    exact Acting.done trivial
  · intro _
    exact Acting.done trivial

/-- The bundle that the planner is given for the pointer it has seen. -/
structure BundleOf (pointer : Option ActivePointer) (bundle : Option ConfigurationBundle)
    (history : List ControlPlane) : Prop where
  active : ∀ active ∈ pointer, Once (fun world => world.bundles active.revisionId = bundle ∧
    bundle.isSome) history
  absent : pointer = none → bundle = none

theorem readActiveBundle_acting (pointer : Option ActivePointer) :
    Acting host controller start (BundleOf pointer) (readActiveBundle pointer) history := by
  unfold readActiveBundle
  cases pointer with
  | none =>
      apply Acting.done
      constructor
      · intro active h
        cases h
      · intro _
        rfl
  | some active =>
      refine Acting.bind (K := fun bundle => Once fun world =>
        world.bundles active.revisionId = some bundle) (Acting.read ?_ ?_) ?_
      · intro world choice
        simp only [ControlPlane.serve]
        split <;> rfl
      · intro world past _ _ _ reply hreply
        simp only [ControlPlane.serve] at hreply
        split at hreply
        · next bundle found =>
            cases hreply
            exact .now found
        · cases hreply
      · intro bundle later _ moment
        apply Acting.done
        refine ⟨fun other hother => ?_, fun h => by cases h⟩
        cases hother
        exact moment.mono fun world hworld => ⟨hworld, rfl⟩

/-- A plan is the planner's answer to what was read. -/
theorem plan_acting (targetRevisionId : RevisionIdentity) :
    Acting host controller start (fun plan later => PlannedFrom host later plan)
      (controller.plan host targetRevisionId) history := by
  rw [plan]
  refine Acting.bind (K := fun prepared => Once fun world =>
    world.preparation targetRevisionId = prepared) (Acting.read (fun _ _ => rfl) ?_) ?_
  · intro world past _ _ _ reply hreply
    cases hreply
    exact .now rfl
  intro prepared h1 g1 preparation
  refine Acting.bind (K := fun _ _ => True)
    (Acting.read (fun _ _ => rfl) fun _ _ _ _ _ _ _ => trivial) ?_
  intro deployment h2 g2 _
  refine Acting.bind (K := fun pointer => Once fun world => world.pointer = pointer)
    (Acting.read (fun _ _ => rfl) ?_) ?_
  · intro world past _ _ _ reply hreply
    cases hreply
    exact .now rfl
  intro pointer h3 g3 pointed
  apply Acting.bind (readActiveBundle_acting pointer)
  intro bundle h4 g4 bundled
  refine Acting.bind (K := fun catalog => Once fun world => world.catalogState host = catalog)
    (Acting.read (fun _ _ => rfl) ?_) ?_
  · intro world past _ _ _ reply hreply
    cases hreply
    exact .now rfl
  intro catalog h5 g5 inspected
  apply Acting.bind workerObservation_acting
  intro worker h6 g6 _
  apply Acting.bind scheduleObservation_acting
  intro schedules h7 g7 _
  refine Acting.bind (K := fun _ _ => True)
    (Acting.read (fun _ _ => rfl) fun _ _ _ _ _ _ _ => trivial) ?_
  intro indexed h8 g8 _
  apply Acting.lift
  intro planned hplanned
  have revision : planned.targetRevisionId = targetRevisionId :=
    (planConfigurationActivation_eq_ok hplanned).1
  subst revision
  have grown := (g5.trans g6).trans (g7.trans g8)
  exact ⟨prepared, deployment, pointer, bundle, catalog, _, _, _, _, _,
    preparation.later (((g2.trans g3).trans g4).trans grown), pointed.later (g4.trans grown),
    fun active hactive => (bundled.active active hactive).later grown, bundled.absent,
    inspected.later ((g6.trans g7).trans g8), hplanned⟩

theorem activateNew_acting (unrecorded : start.Unrecorded) (arguments : ActivationArguments)
    (activationId actorDigest : Digest) :
    Acting host controller start (fun _ _ => True)
      (controller.activateNew host arguments activationId actorDigest) history := by
  rw [activateNew]
  apply Acting.bind (plan_acting arguments.targetRevisionId)
  intro planned h1 g1 sources
  apply Acting.ite
  · intro _
    exact Acting.fail
  intro _
  apply Acting.bind now_acting
  intro now h2 g2 _
  apply Acting.bind (Acting.lift (K := fun _ _ => True) fun _ _ => trivial)
  intro keyDigest h3 g3 _
  apply Acting.bind (Acting.lift (K := fun _ _ => True) fun _ _ => trivial)
  intro correlationDigest h4 g4 _
  refine Acting.bind (Acting.lift (K := fun pending _ => ((pendingRecord host arguments
    activationId keyDigest actorDigest correlationDigest planned now).modelValidate =
      .ok pending)) fun _ h => h) ?_
  intro pending h5 g5 hpending
  obtain ⟨rfl, valid⟩ := ActivationRecord.modelValidate_eq_ok.mp hpending
  refine Acting.bind (K := fun _ _ => True) (Acting.perform ?_) ?_
  · intro world past grows _ choice
    refine ⟨?_, fun _ _ => trivial⟩
    simp only [ControlPlane.serve, ControlPlane.createActivation]
    split
    · exact .idle
    · split
      · split <;> exact .idle
      · next absent =>
          have grown := (((g2.trans g3).trans g4).trans g5).trans grows
          exact .created absent ⟨sources.later grown, rfl, rfl, rfl, rfl, rfl, rfl, valid⟩
  · intro record h6 g6 _
    apply Acting.ite
    · intro _
      exact Acting.fail
    · intro _
      exact resume_acting unrecorded _

theorem activate_acting (unrecorded : start.Unrecorded) (arguments : ActivationArguments) :
    Acting host controller start (fun _ _ => True)
      (controller.activate host arguments) history := by
  rw [activate]
  apply Acting.bind (Acting.lift (K := fun _ _ => True) fun _ _ => trivial)
  intro activationId h1 g1 _
  apply Acting.bind (Acting.lift (K := fun _ _ => True) fun _ _ => trivial)
  intro actorDigest h2 g2 _
  refine Acting.bind (K := fun _ _ => True) ?_ ?_
  · apply Acting.rescue
    · apply Acting.bind (readActivation_acting unrecorded activationId)
      intro existing later _ _
      exact Acting.done trivial
    · intro failure later _
      cases failure
      case notFound => exact Acting.done trivial
      all_goals exact Acting.fail
  · intro existing h3 g3 _
    cases existing with
    | none => exact activateNew_acting unrecorded arguments activationId actorDigest
    | some existing =>
        apply Acting.ite
        · intro _
          exact Acting.fail
        · intro _
          exact resume_acting unrecorded activationId

theorem registerReadinessAndResume_acting (unrecorded : start.Unrecorded) (id : Digest)
    (registration : WorkerReadinessRegistration) :
    Acting host controller start (fun _ _ => True)
      (controller.registerReadinessAndResume host id registration) history := by
  rw [registerReadinessAndResume]
  apply Acting.bind (readActivation_acting unrecorded id)
  intro record later _ ⟨recorded, _⟩
  apply Acting.bind (registerReadiness_acting unrecorded recorded registration)
  intro _ next _ _
  exact resume_acting unrecorded id

theorem markRolledBack_acting (unrecorded : start.Unrecorded) {original : ActivationRecord}
    (recorded : Recorded original history) (applied : original.state = .applied) :
    Acting host controller start (fun _ _ => True) (markRolledBack original) history := by
  rw [markRolledBack]
  apply Acting.bind now_acting
  intro now later grows moment
  refine Acting.bind (Acting.lift (K := fun updated _ =>
    transitionActivation original .rolledBack now none false = .ok updated) fun _ h => h) ?_
  intro updated next grows' change
  obtain ⟨_, _, _, rfl, _⟩ := transitionActivation_eq_ok.mp change
  apply Acting.rescue
  · refine Acting.bind (K := fun _ _ => True) (Acting.top (save_acting unrecorded
      ((recorded.later grows).later grows') rfl rfl
      (.rolledBack (moment.later grows') applied change))) ?_
    intro _ final _ _
    exact Acting.done trivial
  · intro failure final _
    cases failure
    case conflict identity =>
      apply Acting.bind (readActivation_acting unrecorded original.activationId)
      intro current last _ _
      apply Acting.ite
      · intro _
        exact Acting.fail
      · intro _
        exact Acting.done trivial
    all_goals exact Acting.fail

theorem rollback_acting (unrecorded : start.Unrecorded) (id : Digest)
    (arguments : ActivationArguments) :
    Acting host controller start (fun _ _ => True)
      (controller.rollback host id arguments) history := by
  rw [rollback]
  apply Acting.bind (readActivation_acting unrecorded id)
  intro original later grows ⟨recorded, _⟩
  apply Acting.ite
  · intro _
    exact Acting.fail
  intro _
  cases original.plan.expectedActiveRevisionId with
  | none => exact Acting.fail
  | some targetRevisionId =>
      apply Acting.bind (activate_acting unrecorded _)
      intro rolled next grows' _
      apply Acting.ite
      · intro h
        apply Acting.bind (markRolledBack_acting unrecorded (recorded.later grows') h.2)
        intro _ final _ _
        exact Acting.done trivial
      · intro _
        exact Acting.done trivial

/-- Whatever a controller is called for, it makes only its moves. -/
theorem program_acting (unrecorded : start.Unrecorded) (call : ActivationCall) :
    Acting host controller start (fun _ _ => True) (controller.program host call) history := by
  cases call with
  | activate arguments => exact activate_acting unrecorded arguments
  | resume id => exact resume_acting unrecorded id
  | registerReadiness id registration =>
      exact registerReadinessAndResume_acting unrecorded id registration
  | rollback id arguments => exact rollback_acting unrecorded id arguments

end Controller

/-- The events of a run of any number of controllers. -/
abbrev ActivationEvent : Type :=
  Event ActivationChoice Controller ActivationCall ActivationTick

/-- In every run of any number of controllers, each request makes a move of its controller. -/
theorem activating_sound (unrecorded : start.Unrecorded) (events : List ActivationEvent) :
    (activationService host).Sound (ActivationMove host) (fun _ _ _ => True) start
      ((activationService host).run events (initial start)) := by
  apply sound_run
  intro controller call history _
  refine Keeps.mono (Controller.program_acting unrecorded call) ?_
  intro _ _ _ _
  trivial

/-- Every run of any number of controllers, with any crashes, goes through a history of moves. -/
theorem activating_run (unrecorded : start.Unrecorded) (events : List ActivationEvent) :
    Activating host start ((activationService host).run events (initial start)).history :=
  (activating_sound unrecorded events).lawful

end Justflow
