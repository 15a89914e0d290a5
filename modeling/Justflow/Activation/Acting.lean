import Justflow.Activation.Moves

/-!
# Controllers make only moves

`Acting` says that a program changes the control plane by moves of its controller only, whatever
other controllers do between its requests, and what is known when it returns.  There is one lemma
for each program of the controller; the last one covers every call, so every run of any number of
controllers goes through a history of moves.
-/

open Fields Service

namespace Justflow

open Process (lift)

variable {host : ActivationHost} {controller : Controller} {start : ControlPlane}
  {history : List ControlPlane} {α β : Type}

/-- The program makes only moves of the controller and returns with the knowledge `K`. -/
def Acting (host : ActivationHost) (controller : Controller) (start : ControlPlane)
    (K : α → List ControlPlane → Prop) (p : ActivationProcess α) (history : List ControlPlane) :
    Prop :=
  Keeps (activationService host).respond (Activating host start) (ActivationMove host controller)
    (fun result later => ∀ value, result = .ok value → K value later) p history

namespace Acting

variable {K K' : α → List ControlPlane → Prop} {Q : β → List ControlPlane → Prop}

theorem done {value : α} (h : K value history) :
    Acting host controller start K (.done value) history := by
  intro value' hvalue
  cases hvalue
  exact h

theorem fail {error : ActivationFailure} :
    Acting host controller start K (.fail error) history := by
  intro value hvalue
  cases hvalue

theorem mono {p : ActivationProcess α} (h : Acting host controller start K p history)
    (hK : ∀ value later, history <:+ later → K value later → K' value later) :
    Acting host controller start K' p history :=
  Keeps.mono h fun _ later grows known value hvalue => hK value later grows (known value hvalue)

/-- A program that is begun later. -/
theorem bind {p : ActivationProcess α} {next : α → ActivationProcess β}
    (h : Acting host controller start K p history)
    (hnext : ∀ value later, history <:+ later → K value later →
      Acting host controller start Q (next value) later) :
    Acting host controller start Q (p >>= next) history := by
  refine Keeps.bind h (fun value later grows known => ?_) fun error later _ _ value hvalue => ?_
  · exact hnext value later grows (known value rfl)
  · cases hvalue

theorem rescue {p : ActivationProcess α} {handler : ActivationFailure → ActivationProcess α}
    (h : Acting host controller start K p history)
    (hhandler : ∀ error later, history <:+ later →
      Acting host controller start K (handler error) later) :
    Acting host controller start K (tryCatch p handler) history :=
  Keeps.rescue h (fun _ _ _ known => known) fun error later grows _ => hhandler error later grows

theorem ite {condition : Prop} [Decidable condition] {p q : ActivationProcess α}
    (hp : condition → Acting host controller start K p history)
    (hq : ¬ condition → Acting host controller start K q history) :
    Acting host controller start K (if condition then p else q) history := by
  by_cases h : condition
  · simpa [h] using hp h
  · simpa [h] using hq h

theorem lift {result : Except ActivationFailure α} (h : ∀ value, result = .ok value →
    K value history) : Acting host controller start K (Process.lift result) history :=
  Keeps.lift h

theorem forEach {items : List β} {body : β → ActivationProcess Unit}
    (hbody : ∀ item ∈ items, ∀ later, history <:+ later →
      Acting host controller start (fun _ _ => True) (body item) later) :
    Acting host controller start (fun _ _ => True) (Process.forEach items body) history :=
  Keeps.forEach (fun _ _ => trivial) fun item hitem later grows _ =>
    (hbody item hitem later grows)

/-- A request makes the move that serving it makes, and returns what serving it replies. -/
theorem perform {request : ActivationRequest}
    {K : ActivationReply request → List ControlPlane → Prop}
    (h : ∀ world past, history <:+ world :: past → Activating host start (world :: past) →
      ∀ choice, ActivationMove host controller (world :: past) (world.serve host choice request).2 ∧
        ∀ reply, (world.serve host choice request).1 = .ok reply →
          K reply ((world.serve host choice request).2 :: world :: past)) :
    Acting host controller start K (Justflow.perform request) history := by
  apply Keeps.call
  intro world past grows lawful choice
  obtain ⟨move, known⟩ := h world past grows lawful choice
  simp only [activationService, ControlPlane.respond]
  cases hfailure : choice.failure with
  | some failure =>
      refine ⟨?_, fun _ hvalue => by cases hvalue⟩
      by_cases hlanded : choice.landed
      · simpa [hlanded] using move
      · simpa [hlanded] using ActivationMove.idle
  | none => exact ⟨move, known⟩

/-- A request that changes nothing. -/
theorem read {request : ActivationRequest}
    {K : ActivationReply request → List ControlPlane → Prop}
    (same : ∀ (world : ControlPlane) choice, (world.serve host choice request).2 = world)
    (h : ∀ world past, history <:+ world :: past → Activating host start (world :: past) →
      ∀ choice reply, (world.serve host choice request).1 = .ok reply →
        K reply (world :: world :: past)) :
    Acting host controller start K (Justflow.perform request) history := by
  apply perform
  intro world past grows lawful choice
  rw [same world choice]
  exact ⟨.idle, fun reply hreply => h world past grows lawful choice reply hreply⟩

/-- The program that any knowledge satisfies. -/
theorem top {p : ActivationProcess α} (h : Acting host controller start K p history) :
    Acting host controller start (fun _ _ => True) p history :=
  h.mono fun _ _ _ _ => trivial

end Acting

theorem throughBinding_acting {K : α → List ControlPlane → Prop} {code : ActivationOutcomeCode}
    {p : ActivationProcess α} (h : Acting host controller start K p history) :
    Acting host controller start K (throughBinding code p) history := by
  apply h.rescue
  intro error later _
  cases error <;> exact Acting.fail

theorem now_acting : Acting host controller start
    (fun now => Once fun world => world.now = now) (perform .now) history := by
  refine Acting.read (fun _ _ => rfl) ?_
  intro world past _ _ _ reply hreply
  cases hreply
  exact .now rfl

/-! ## Writes of the record -/

namespace Controller

theorem RecordChange.later {next : List ControlPlane} {current updated : ActivationRecord}
    (h : RecordChange host controller history current updated) (grows : history <:+ next) :
    RecordChange host controller next current updated := by
  cases h with
  | acquired moment active change => exact .acquired (moment.later grows) active change
  | advanced moment owner forward passed change =>
      exact .advanced (moment.later grows) owner forward passed change
  | checkpointed moment working confirmed change valid =>
      exact .checkpointed (moment.later grows) (working.later grows) (confirmed.later grows)
        change valid
  | registered moment change changed => exact .registered (moment.later grows) change changed
  | released moment change => exact .released (moment.later grows) change
  | concluded moment active unsuccessful change =>
      exact .concluded (moment.later grows) active unsuccessful change
  | rolledBack moment applied change => exact .rolledBack (moment.later grows) applied change

/-- A write succeeds only over the record it was built from. -/
theorem save_acting (unrecorded : start.Unrecorded) {record updated : ActivationRecord}
    (recorded : Recorded record history) (identity : updated.activationId = record.activationId)
    (version : updated.version = record.version + 1)
    (change : RecordChange host controller history record updated) :
    Acting host controller start (fun saved later => saved = updated ∧ Recorded updated later)
      (save record updated) history := by
  apply Acting.perform
  intro world past grows lawful choice
  simp only [ControlPlane.serve, ControlPlane.updateActivation]
  rw [if_neg (by simpa using version)]
  by_cases hadmits : host.admits updated
  · rw [if_neg (by simpa using hadmits)]
    cases hfound : world.records updated.activationId with
    | none => exact ⟨.idle, fun _ hreply => by cases hreply⟩
    | some current =>
        by_cases hversion : current.version = record.version
        · simp only [if_pos hversion]
          have hcurrent : record = current := (recorded.later grows).current unrecorded lawful
            (identity ▸ hfound) hversion
          subst hcurrent
          refine ⟨.recorded hfound version identity (RecordChange.later change grows), ?_⟩
          intro reply hreply
          cases hreply
          exact ⟨rfl, .now (by simp)⟩
        · simp only [if_neg hversion]
          exact ⟨.idle, fun _ hreply => by cases hreply⟩
  · rw [if_pos (by simpa using hadmits)]
    exact ⟨.idle, fun _ hreply => by cases hreply⟩

/-- A later version of the record under the same lease. -/
structure Continues (record next : ActivationRecord) : Prop where
  plan : next.plan = record.plan
  identity : next.activationId = record.activationId
  state : next.state = record.state
  owner : next.leaseOwnerDigest = record.leaseOwnerDigest
  checkpoints : ∀ kind, hasCheckpoint record kind → hasCheckpoint next kind

theorem Continues.refl (record : ActivationRecord) : Continues record record :=
  ⟨rfl, rfl, rfl, rfl, fun _ h => h⟩

theorem Continues.trans {first second third : ActivationRecord} (h : Continues first second)
    (h' : Continues second third) : Continues first third :=
  ⟨h'.plan.trans h.plan, h'.identity.trans h.identity, h'.state.trans h.state,
    h'.owner.trans h.owner, fun kind hkind => h'.checkpoints kind (h.checkpoints kind hkind)⟩

theorem Passed.continues {record next : ActivationRecord} {kind : ActivationCheckpointKind}
    (h : Passed record kind) (continues : Continues record next) : Passed next kind :=
  fun required => continues.checkpoints kind (h (continues.plan ▸ required))

/-- The controller holds a running record. -/
structure Held (controller : Controller) (history : List ControlPlane)
    (record : ActivationRecord) : Prop where
  recorded : Recorded record history
  owner : record.leaseOwnerDigest = some controller.digest
  running : record.state = .running

theorem Held.later {record : ActivationRecord} {next : List ControlPlane}
    (h : Held controller history record) (grows : history <:+ next) :
    Held controller next record :=
  { h with recorded := h.recorded.later grows }

/-- Every phase before this one is behind the record. -/
def PassedBefore (record : ActivationRecord) (kind : ActivationCheckpointKind) : Prop :=
  ∀ earlier : ActivationCheckpointKind, earlier.rank < kind.rank → Passed record earlier

theorem Held.working {record : ActivationRecord} {kind : ActivationCheckpointKind}
    (h : Held controller history record) (passed : PassedBefore record kind)
    (absent : hasCheckpoint record kind = false) : Working controller history record kind :=
  ⟨h.recorded, h.owner, h.running, passed, absent⟩

theorem Held.continues {record next : ActivationRecord} {later : List ControlPlane}
    (h : Held controller history record) (continues : Continues record next)
    (recorded : Recorded next later) : Held controller later next :=
  ⟨recorded, continues.owner.trans h.owner, continues.state.trans h.running⟩

theorem PassedBefore.continues {record next : ActivationRecord} {kind : ActivationCheckpointKind}
    (h : PassedBefore record kind) (continues : Continues record next) : PassedBefore next kind :=
  fun earlier hrank => Passed.continues (h earlier hrank) continues

theorem hasCheckpoint_checkpointed (record : ActivationRecord) (kind other : ActivationCheckpointKind)
    (outcome : ActivationExternalOutcome) (digest : ProvenanceDigest) (now : Instant) :
    hasCheckpoint (record.checkpointed kind outcome digest now) other =
      (hasCheckpoint record other || decide (kind = other)) := by
  simp [hasCheckpoint, ActivationRecord.checkpointed]

theorem continues_checkpointed (record : ActivationRecord) (kind : ActivationCheckpointKind)
    (outcome : ActivationExternalOutcome) (digest : ProvenanceDigest) (now : Instant) :
    Continues record (record.checkpointed kind outcome digest now) :=
  ⟨rfl, rfl, rfl, rfl, fun other h => by simp [hasCheckpoint_checkpointed, h]⟩

theorem continues_registered (record : ActivationRecord)
    (registration : WorkerReadinessRegistration) (now : Instant) :
    Continues record (record.registered registration now) :=
  ⟨rfl, rfl, rfl, rfl, fun _ h => h⟩

section Writes

variable (unrecorded : start.Unrecorded) {record : ActivationRecord}

include unrecorded

theorem acquire_acting (recorded : Recorded record history)
    (active : record.state.terminal = false) :
    Acting host controller start
      (fun leased later => Recorded leased later ∧
        leased.leaseOwnerDigest = some controller.digest ∧
        leased.activationId = record.activationId ∧ leased.state = record.state ∧
        leased.plan = record.plan) (controller.acquire record) history := by
  rw [acquire]
  refine now_acting.bind fun now later grows moment => ?_
  cases hleased : acquireActivationLease record controller.digest now
      (now + controller.leaseDuration) with
  | error _ => exact (Acting.fail (K := fun _ _ => False)).bind fun _ _ _ h => h.elim
  | ok leased =>
      obtain ⟨_, _, rfl, _⟩ := acquireActivationLease_eq_ok.mp hleased
      refine (Acting.done (K := fun value _ => value = _) rfl).bind fun value next grows' h => ?_
      subst h
      refine Acting.mono (save_acting unrecorded ((recorded.later grows).later grows') rfl rfl
        (.acquired (moment.later grows') active hleased)) fun saved last _ h => ?_
      obtain ⟨rfl, stored⟩ := h
      exact ⟨stored, rfl, rfl, rfl, rfl⟩

theorem transition_acting (recorded : Recorded record history)
    (owner : record.leaseOwnerDigest = some controller.digest) {state : ActivationState}
    {releaseLease : Bool}
    (forward : state = .running ∨ state = .waitingForReadiness ∨ state = .applied)
    (passed : state = .applied → ∀ kind, Passed record kind) :
    Acting host controller start
      (fun updated later => ∃ now, updated = record.transitioned state now none releaseLease ∧
        Recorded updated later) (transition record state none releaseLease) history := by
  rw [transition]
  refine now_acting.bind fun now later grows moment => ?_
  refine (Acting.lift (K := fun updated _ =>
    transitionActivation record state now none releaseLease = .ok updated)
    fun _ h => h).bind fun updated next grows' change => ?_
  obtain ⟨_, _, _, rfl, _⟩ := transitionActivation_eq_ok.mp change
  refine Acting.mono (save_acting unrecorded ((recorded.later grows).later grows') rfl rfl
    (.advanced (moment.later grows') owner forward passed change))
      fun saved last _ h => ?_
  exact ⟨now, h.1, h.1 ▸ h.2⟩

theorem conclude_transition_acting (recorded : Recorded record history)
    (active : record.state.terminal = false) {state : ActivationState}
    {outcome : ActivationOutcomeCode} (unsuccessful : state = .failed ∨ state = .superseded) :
    Acting host controller start (fun _ _ => True)
      (transition record state (some outcome) true) history := by
  rw [transition]
  refine now_acting.bind fun now later grows moment => ?_
  refine (Acting.lift (K := fun updated _ =>
    transitionActivation record state now (some outcome) true = .ok updated)
    fun _ h => h).bind fun updated next grows' change => ?_
  obtain ⟨_, _, _, rfl, _⟩ := transitionActivation_eq_ok.mp change
  exact Acting.mono (save_acting unrecorded ((recorded.later grows).later grows') rfl rfl
    (.concluded (moment.later grows') active unsuccessful change)) fun _ _ _ _ => trivial

theorem release_acting (recorded : Recorded record history) :
    Acting host controller start
      (fun released later => Recorded released later ∧
        released.activationId = record.activationId ∧ released.state = record.state)
      (controller.release record) history := by
  rw [release]
  refine Acting.ite (fun _ => Acting.done ⟨recorded, rfl, rfl⟩) fun _ => ?_
  refine now_acting.bind fun now later grows moment => ?_
  refine (Acting.lift (K := fun updated _ =>
    releaseActivationLease record controller.digest now = .ok updated)
    fun _ h => h).bind fun updated next grows' change => ?_
  obtain ⟨_, rfl, _⟩ := releaseActivationLease_eq_ok.mp change
  refine Acting.mono (save_acting unrecorded ((recorded.later grows).later grows') rfl rfl
    (.released (moment.later grows') change))
      fun saved last _ h => ?_
  obtain ⟨rfl, stored⟩ := h
  exact ⟨stored, rfl, rfl⟩

theorem checkpoint_acting {kind : ActivationCheckpointKind}
    {confirmation : ExternalOperationConfirmation}
    (working : Working controller history record kind)
    (confirmed : Confirmed host controller history record.plan kind) :
    Acting host controller start
      (fun updated later => Held controller later updated ∧ Continues record updated ∧
        hasCheckpoint updated kind) (checkpoint record kind confirmation) history := by
  rw [checkpoint]
  refine now_acting.bind fun now later grows moment => ?_
  refine (Acting.lift (K := fun updated _ => recordActivationCheckpoint record kind
    confirmation.outcome confirmation.observationDigest now = .ok updated)
    fun _ h => h).bind fun updated next grows' change => ?_
  obtain ⟨rfl, valid⟩ := (recordActivationCheckpoint_eq_ok working.open_).mp change
  have hne : record.checkpointed kind confirmation.outcome confirmation.observationDigest now ≠
      record := by
    intro h
    have := congrArg ActivationRecord.version h
    simp [ActivationRecord.checkpointed] at this
  have grown := grows.trans grows'
  rw [saveChanged]
  rw [if_neg hne]
  refine Acting.mono (save_acting unrecorded (working.recorded.later grown) rfl rfl
    (.checkpointed (moment.later grows') (working.later grown) (confirmed.later grown) rfl
      valid))
      fun saved last _ h => ?_
  obtain ⟨rfl, stored⟩ := h
  refine ⟨⟨stored, working.owner, working.running⟩, continues_checkpointed _ _ _ _ _, ?_⟩
  simp [hasCheckpoint_checkpointed]

theorem registerReadiness_acting (recorded : Recorded record history)
    (readiness : WorkerReadinessRegistration) :
    Acting host controller start
      (fun updated later => Recorded updated later ∧ Continues record updated)
      (registerReadiness record readiness) history := by
  rw [registerReadiness]
  refine now_acting.bind fun now later grows moment => ?_
  refine (Acting.lift (K := fun updated _ =>
    registerWorkerReadiness record readiness now = .ok updated)
    fun _ h => h).bind fun updated next grows' change => ?_
  have grown := grows.trans grows'
  rw [saveChanged]
  refine Acting.ite (fun _ => Acting.done ⟨recorded.later grown, Continues.refl _⟩)
    fun changed => ?_
  obtain ⟨_, ⟨_, rfl⟩ | ⟨_, rfl, _⟩⟩ := registerWorkerReadiness_eq_ok.mp change
  · exact absurd rfl changed
  · refine Acting.mono (save_acting unrecorded (recorded.later grown) rfl rfl
      (.registered (moment.later grows') change changed))
      fun saved last _ h => ?_
    obtain ⟨rfl, stored⟩ := h
    exact ⟨stored, continues_registered _ _ _⟩

theorem waiting_acting (recorded : Recorded record history)
    (owner : record.leaseOwnerDigest = some controller.digest) :
    Acting host controller start
      (fun updated later => Recorded updated later ∧ updated.state = .waitingForReadiness)
      (controller.waiting record) history := by
  rw [waiting]
  refine Acting.ite (fun h => ?_) fun _ => ?_
  · refine (release_acting unrecorded recorded).mono fun updated later _ h' => ?_
    exact ⟨h'.1, h'.2.2.trans h⟩
  · refine (transition_acting unrecorded recorded owner (.inr (.inl rfl))
      fun h => by cases h).mono fun updated later _ h => ?_
    obtain ⟨now, rfl, stored⟩ := h
    exact ⟨stored, rfl⟩

end Writes

end Controller

end Justflow
