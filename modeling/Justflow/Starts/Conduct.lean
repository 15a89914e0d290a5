import Justflow.Starts.Arbitration

/-!
# Operations on a scheduled start make only its steps

One lemma for each operation, on what its requests change and what its caller learns.
-/

open Service Process
open Program (exists_of_bind_eq_ok)

namespace Justflow

/-! ## What the pure steps give -/

section Records

variable {hashing : Hashing}

theorem claimScheduledStart_claimed {current : PendingScheduledStartRecord}
    {version claimedAt : Nat} {record : DispatchingScheduledStartRecord}
    (h : claimScheduledStart hashing (.pending current) version claimedAt = .ok (some record)) :
    record.claimedVersion = version := by
  rw [claimScheduledStart] at h
  split at h
  · cases h
  · obtain ⟨base, -, h⟩ := exists_of_bind_eq_ok h
    cases h
    rfl

theorem terminalInput_ok {projection : ScheduledStartProjectionRecord} {version : Nat}
    {winner : ScheduledStartArbiterCommandKind} {digest : Option Digest}
    {terminal : ScheduledStartArbiterTerminalInput}
    (h : terminalInput projection version winner digest = .ok terminal) :
    terminal.projection = projection ∧ terminal.consumedVersion = version ∧
      terminal.winner = winner := by
  rw [terminalInput] at h
  split at h
  · cases h
    exact ⟨rfl, rfl, rfl⟩
  · cases h

end Records

namespace ScheduledStartService

variable {service : ScheduledStartService} {initial : ScheduledStartArbiterInitialInput}

/-- What an arbiter may go on with once it is prepared. -/
inductive Prepared (initial : ScheduledStartArbiterInitialInput)
    (current : ScheduledStartProjectionRecord) (existing : Option StartWorkflowResult) :
    ScheduledStartArbiterPreparation → Prop where
  | stale : Prepared initial current existing (.stale current)
  | projection {terminal : ScheduledStartArbiterTerminalInput}
      (concludes : Concludes initial terminal)
      (found : terminal.projection.isStarted → existing.isSome) :
      Prepared initial current existing (.projection terminal)
  | due {record : DispatchingScheduledStartRecord} {target : ScheduledStartResolvedTarget}
      (dispatches : Dispatches initial record) :
      Prepared initial current existing (.due record target)

theorem prepareStarted_prepared {world : PrepareWorld} {existing : StartWorkflowResult}
    {preparation : ScheduledStartArbiterPreparation} (found : world.existing = some existing)
    (h : service.prepareStarted world initial existing = .ok preparation) :
    Prepared initial world.current world.existing preparation := by
  obtain ⟨claimed, -, h⟩ := exists_of_bind_eq_ok h
  cases claimed with
  | none =>
      cases h
      exact .stale
  | some claimed =>
      obtain ⟨started, -, h⟩ := exists_of_bind_eq_ok h
      obtain ⟨terminal, hterminal, h⟩ := exists_of_bind_eq_ok h
      cases h
      obtain ⟨-, consumed, winner⟩ := terminalInput_ok hterminal
      apply Prepared.projection ⟨consumed, winner⟩
      simp [found]

theorem prepareDue_prepared {world : PrepareWorld} {preparation : ScheduledStartArbiterPreparation}
    (due : initial.command.kind = .due) (h : service.prepareDue world initial = .ok preparation) :
    Prepared initial world.current world.existing preparation := by
  obtain ⟨claimed, hclaimed, h⟩ := exists_of_bind_eq_ok h
  cases claimed with
  | none =>
      cases h
      exact .stale
  | some claimed =>
      have version := claimScheduledStart_claimed hclaimed
      simp only at h
      split at h
      · obtain ⟨failed, -, h⟩ := exists_of_bind_eq_ok h
        obtain ⟨terminal, hterminal, h⟩ := exists_of_bind_eq_ok h
        cases h
        obtain ⟨projection, consumed, winner⟩ := terminalInput_ok hterminal
        apply Prepared.projection ⟨consumed.trans version, winner.trans due.symm⟩
        simp [projection, ScheduledStartProjectionRecord.isStarted]
      · cases h
        exact .due ⟨due, version⟩

theorem prepareArbiter_prepared {world : PrepareWorld}
    {preparation : ScheduledStartArbiterPreparation}
    (h : service.prepareArbiter world initial = .ok preparation) :
    Prepared initial world.current world.existing preparation := by
  obtain ⟨_, -, h⟩ := exists_of_bind_eq_ok h
  split at h
  · cases h
    exact .stale
  · split at h
    · next existing found => exact prepareStarted_prepared found h
    · rw [prepareCommand] at h
      have fits := initial.fits
      split at h
      · next expectedVersion requestDigest command =>
          rw [command] at fits
          obtain ⟨canceled, -, h⟩ := exists_of_bind_eq_ok h
          obtain ⟨terminal, hterminal, h⟩ := exists_of_bind_eq_ok h
          cases h
          obtain ⟨projection, consumed, winner⟩ := terminalInput_ok hterminal
          apply Prepared.projection ⟨consumed.trans fits, by rw [winner, command]; rfl⟩
          simp [projection, ScheduledStartProjectionRecord.isStarted]
      · next expectedVersion startAt requestDigest command =>
          rw [command] at fits
          obtain ⟨rescheduled, -, h⟩ := exists_of_bind_eq_ok h
          obtain ⟨terminal, hterminal, h⟩ := exists_of_bind_eq_ok h
          cases h
          obtain ⟨projection, consumed, winner⟩ := terminalInput_ok hterminal
          apply Prepared.projection ⟨consumed.trans fits, by rw [winner, command]; rfl⟩
          simp [projection, ScheduledStartProjectionRecord.isStarted]
      · next nominalTime command => exact prepareDue_prepared (by rw [command]; rfl) h

/-- A turn of the dispatch goes on with the same record or ends with its version. -/
theorem afterAttempt_progresses {history : List StartsWorld}
    {due : ScheduledStartArbiterResolvedDueInput} {made now : Nat}
    {attempt : ScheduledStartAttemptResult} {next : ArbiterProgress}
    (h : service.afterAttempt due made now attempt = .ok next) :
    Progresses history ⟨.resolvedDue due, made⟩ (.running next) := by
  cases attempt with
  | accepted status run =>
      obtain ⟨input, hinput, h⟩ := exists_of_bind_eq_ok h
      cases h
      obtain ⟨started, -, hinput⟩ := exists_of_bind_eq_ok hinput
      obtain ⟨terminal, hterminal, hinput⟩ := exists_of_bind_eq_ok hinput
      cases hinput
      obtain ⟨-, consumed, winner⟩ := terminalInput_ok hterminal
      exact .ended consumed winner
  | ambiguous =>
      cases h
      exact .attempted rfl
  | rejected =>
      simp only [afterAttempt] at h
      split at h
      · obtain ⟨input, hinput, h⟩ := exists_of_bind_eq_ok h
        cases h
        obtain ⟨failed, -, hinput⟩ := exists_of_bind_eq_ok hinput
        obtain ⟨terminal, hterminal, hinput⟩ := exists_of_bind_eq_ok hinput
        cases hinput
        obtain ⟨-, consumed, winner⟩ := terminalInput_ok hterminal
        exact .ended consumed winner
      · cases h
        exact .attempted rfl

/-- An update writes the projection of its terminal input. -/
theorem committed_projection {terminal : ScheduledStartArbiterTerminalInput}
    {current projection : ScheduledStartProjectionRecord}
    (h : committed terminal current = .ok (some projection)) :
    projection = terminal.projection := by
  rw [committed] at h
  split at h
  · next hprojection =>
      split at h
      · cases h
      · cases h
        rfl
  · split at h
    · cases h
    · split at h
      · split at h
        · cases h
          rfl
        · cases h
      · cases h

/-! ## Requests -/

/-- The operation makes only steps of the scheduled start and returns with the knowledge `K`. -/
def Conducts (service : ScheduledStartService) (identity : StartIdentity)
    (Valid : List StartsWorld → Prop) {α : Type} (K : α → List StartsWorld → Prop)
    (p : StartsProcess α) (history : List StartsWorld) : Prop :=
  Learns (startsRespond (service.scope.digest service.hashing).text) Valid
    (StartsMove service identity) K p history

variable {identity : StartIdentity} {Valid : List StartsWorld → Prop} {α β : Type}
  {history : List StartsWorld}

/-- A request that is lost changes nothing; one whose reply is lost has been served. -/
theorem temporal_conducts {asked : StartsRequest} {K : StartsReply asked → List StartsWorld → Prop}
    (step : ∀ world past, history <:+ world :: past → ∀ circumstance,
      StartsStep service identity (world :: past) world
        (served (service.scope.digest service.hashing).text circumstance world asked).2)
    (answered : ∀ world past, history <:+ world :: past → ∀ circumstance,
      K (served (service.scope.digest service.hashing).text circumstance world asked).1
        ((served (service.scope.digest service.hashing).text circumstance world asked).2 ::
          world :: past))
    (lost : ∀ reply later, K (lostReply asked reply) later) :
    Conducts service identity Valid K (temporal asked) history := by
  apply Learns.call
  intro world past grows _ circumstance
  simp only [startsRespond]
  cases circumstance.fault with
  | none =>
      refine ⟨step world past grows circumstance, fun reply hreply => ?_⟩
      cases hreply
      exact answered world past grows circumstance
  | some fault =>
      cases fault with
      | requestLost =>
          refine ⟨StartsStep.rfl, fun reply hreply => ?_⟩
          cases hreply
          exact lost _ _
      | replyLost =>
          refine ⟨step world past grows circumstance, fun reply hreply => ?_⟩
          cases hreply
          exact lost _ _

/-- A request that changes nothing. -/
theorem read_conducts {asked : StartsRequest} {K : StartsReply asked → List StartsWorld → Prop}
    (same : ∀ circumstance world,
      (served (service.scope.digest service.hashing).text circumstance world asked).2 = world)
    (answered : ∀ circumstance world past,
      K (served (service.scope.digest service.hashing).text circumstance world asked).1
        (world :: past))
    (lost : ∀ reply later, K (lostReply asked reply) later) :
    Conducts service identity Valid K (temporal asked) history := by
  refine temporal_conducts (fun world past _ circumstance => ?_)
    (fun world past _ circumstance => ?_) lost
  · rw [same]
    exact .rfl
  · rw [same]
    exact answered circumstance world (world :: past)

/-- A request that changes nothing, whatever it answers. -/
theorem ask_conducts {asked : StartsRequest}
    (same : ∀ circumstance world,
      (served (service.scope.digest service.hashing).text circumstance world asked).2 = world) :
    Conducts service identity Valid (fun _ _ => True) (temporal asked) history :=
  read_conducts same (fun _ _ _ => trivial) fun _ _ => trivial

/-- A request whose answer says nothing. -/
theorem write_conducts {asked : StartsRequest}
    (step : ∀ world past, history <:+ world :: past → ∀ circumstance,
      StartsStep service identity (world :: past) world
        (served (service.scope.digest service.hashing).text circumstance world asked).2) :
    Conducts service identity Valid (fun _ _ => True) (temporal asked) history :=
  temporal_conducts step (fun _ _ _ _ => trivial) fun _ _ => trivial

theorem settle_conducts {result : Except ScheduledStartException α} :
    Conducts service identity Valid (fun value _ => result = .ok value) (settle result)
      history := by
  apply Learns.lift
  intro value hvalue
  cases result with
  | error _ => cases hvalue
  | ok _ =>
      cases hvalue
      rfl

theorem raiseStart_conducts {code : ScheduledStartErrorCode} {message : String} {retryable : Bool}
    {K : α → List StartsWorld → Prop} :
    Conducts service identity Valid K (raiseStart code message retryable) history :=
  Learns.fail

theorem describeSchedule_conducts :
    Conducts service identity Valid (fun reply later => ∀ record, reply = .ok record →
      Shown later record) (temporal .describeSchedule) history := by
  refine read_conducts (fun _ world => ?_) (fun _ world past record => ?_) fun _ _ _ h => ?_
  · rw [served]
    cases world.schedule <;> rfl
  · rw [served]
    cases held : world.schedule with
    | none => exact fun h => by cases h
    | some current =>
        intro h
        cases h
        exact .now held
  · cases h

theorem arbiterResult_conducts {workflowId : String} :
    Conducts service identity Valid (fun reply later => ∀ result, reply = some result →
      ∃ arbiter, Seen later workflowId arbiter ∧ arbiter.status = .completed result)
      (temporal (.arbiterResult workflowId)) history := by
  refine read_conducts (fun _ world => ?_) (fun _ world past result => ?_) fun _ _ _ h => ?_
  · simp only [served]
    split <;> rfl
  · simp only [served]
    split
    · next held =>
        intro h
        cases h
        obtain ⟨arbiter, found, completed⟩ := Option.map_eq_some_iff.mp held
        exact ⟨arbiter, .now found, completed⟩
    · exact fun h => by cases h
  · cases h

theorem arbiterProgress_conducts {workflowId : String} :
    Conducts service identity Valid (fun reply later => ∀ progress, reply = some progress →
      Stood later workflowId progress) (temporal (.arbiterProgress workflowId)) history := by
  refine read_conducts (fun _ world => ?_) (fun _ world past progress => ?_) fun _ _ _ h => ?_
  · simp only [served]
    split <;> rfl
  · simp only [served]
    split
    · next held =>
        intro h
        cases h
        obtain ⟨arbiter, found, running⟩ := Option.map_eq_some_iff.mp held
        exact ⟨arbiter, .now found, running⟩
    · exact fun h => by cases h
  · cases h

theorem existingRun_conducts :
    Conducts service identity Valid (fun reply later => ∀ run, reply = .found run → Ran later)
      (temporal .existingRun) history := by
  refine read_conducts (fun _ world => ?_) (fun _ world past run => ?_) fun _ _ _ h => ?_
  · rw [served]
    cases world.run <;> rfl
  · rw [served]
    cases held : world.run with
    | none => exact fun h => by cases h
    | some found => exact fun _ => .now (by rw [held]; rfl)
  · cases h

theorem describeArbiter_conducts {workflowId : String} :
    Conducts service identity Valid (fun _ _ => True) (temporal (.describeArbiter workflowId))
      history := by
  apply ask_conducts
  intro _ world
  rw [served]
  cases world.arbiters workflowId <;> rfl

theorem clock_conducts :
    Conducts service identity Valid (fun _ _ => True) (temporal .clock) history :=
  ask_conducts fun _ _ => rfl

/-! ## Reading -/

theorem describeRecord_conducts :
    Conducts service identity Valid (fun record later => Shown later record) describeRecord
      history := by
  refine describeSchedule_conducts.bind fun reply later _ shown => ?_
  cases reply with
  | ok record => exact .done (shown record rfl)
  | notFound => exact raiseStart_conducts
  | failed => exact raiseStart_conducts

theorem existingRecord_conducts :
    Conducts service identity Valid
      (fun found later => ∀ record, found = some record → Shown later record) existingRecord
      history := by
  refine describeSchedule_conducts.bind fun reply later _ shown => ?_
  cases reply with
  | ok record =>
      apply Learns.done
      intro other hother
      cases hother
      exact shown record rfl
  | notFound => exact .done fun _ h => by cases h
  | failed => exact raiseStart_conducts

/-- What the schedule held and what it is described as. -/
theorem Shown.evident {record : ScheduledStartProjectionRecord} (shown : Shown history record) :
    Evident history record.describe :=
  .shown shown rfl

theorem projectDue_conducts {record : PendingScheduledStartRecord} {startTime : Nat} :
    Conducts service identity Valid (fun description later => Evident later description)
      (service.projectDue record startTime) history := by
  refine settle_conducts.bind fun claimed later _ _ => ?_
  cases claimed with
  | none => exact .fail
  | some claimed => exact .done (.unfinished rfl)

theorem authoritativeDescription_conducts {record : PendingScheduledStartRecord}
    (shown : Shown history (.pending record)) :
    Conducts service identity Valid (fun description later => Evident later description)
      (service.authoritativeDescription identity record) history := by
  refine describeArbiter_conducts.bind fun reply later grows _ => ?_
  have described := Shown.evident (shown.later grows)
  cases reply with
  | notFound => exact .done described
  | failed => exact raiseStart_conducts
  | ok view =>
      refine Learns.ite (fun _ => Learns.ite (fun _ => .done described) fun _ => ?_) fun _ => ?_
      · exact projectDue_conducts
      · refine arbiterResult_conducts.bind fun reply next _ ended => ?_
        cases reply with
        | none => exact raiseStart_conducts
        | some result =>
            obtain ⟨arbiter, seen, completed⟩ := ended result rfl
            cases result with
            | applied _ _ _ _ => exact .done (.result seen completed rfl)
            | stale _ _ => exact .done (.result seen completed rfl)

theorem describe_conducts :
    Conducts service identity Valid (fun description later => Evident later description)
      (service.describe identity) history := by
  refine describeRecord_conducts.bind fun record later _ shown => ?_
  cases record with
  | pending record => exact authoritativeDescription_conducts shown
  | started _ => exact .done (Shown.evident shown)
  | canceled _ => exact .done (Shown.evident shown)
  | failed _ => exact .done (Shown.evident shown)

/-! ## Creating -/

theorem createSchedule_conducts {record : PendingScheduledStartRecord} {requestDigest : Digest}
    (first : record.version = 1) :
    Conducts service identity Valid (fun _ _ => True) (createSchedule record requestDigest)
      history := by
  refine Learns.bind (write_conducts fun world past _ _ => ?_) fun reply later _ _ => ?_
  · simp only [served]
    split
    · next absent => exact ⟨absent ▸ .created first, fun _ => .same, .same⟩
    · exact .rfl
  · cases reply with
    | created => exact .done trivial
    | alreadyRunning =>
        refine describeRecord_conducts.bind fun existing next _ _ => ?_
        exact Learns.ite (fun _ => Learns.fail) fun _ => .done trivial
    | invalidArgument => exact raiseStart_conducts
    | failed => exact raiseStart_conducts

theorem create_conducts {settings : ScheduledStartSettings} {request : ScheduledStartCreateRequest}
    {requestDigest : Digest} :
    Conducts service identity Valid (fun result later => Evident later result.scheduledStart)
      (service.create settings identity request requestDigest) history := by
  refine existingRecord_conducts.bind fun found later _ shown => ?_
  cases found with
  | some existing =>
      exact Learns.ite (fun _ => Learns.fail) fun _ => .done (Shown.evident (shown existing rfl))
  | none =>
      refine clock_conducts.bind fun now later _ _ => ?_
      refine settle_conducts.bind fun _ later _ _ => ?_
      refine Learns.bind (ask_conducts fun _ _ => rfl) fun admission later _ _ => ?_
      refine settle_conducts.bind fun admitted later _ _ => ?_
      refine (createSchedule_conducts rfl).bind fun duplicate later _ _ => ?_
      refine describeSchedule_conducts.bind fun reply later _ shown => ?_
      cases reply with
      | ok accepted => exact .done (Shown.evident (shown accepted rfl))
      | notFound => exact raiseStart_conducts
      | failed => exact raiseStart_conducts

/-! ## Arbitrated commands -/

/-- An arbiter is started only for a record that the schedule has held. -/
theorem startArbiter_conducts {initial : ScheduledStartArbiterInitialInput}
    (shown : Shown history (.pending initial.record)) :
    Conducts service identity Valid (fun _ _ => True) (service.startArbiter identity initial)
      history := by
  refine Learns.bind (write_conducts fun world past grows _ => ?_) fun reply later _ _ => ?_
  · simp only [served]
    split
    · exact .rfl
    · next absent =>
        apply StartsStep.setArbiter
        rw [absent]
        exact .claimed rfl (shown.later grows)
  · cases reply with
    | started => exact .done trivial
    | alreadyStarted => exact .done trivial
    | failed => exact raiseStart_conducts

theorem arbiterIdentity_conducts {version : Nat} :
    Conducts service identity Valid (fun _ _ => True) (service.arbiterIdentity identity version)
      history := by
  refine describeArbiter_conducts.bind fun reply later _ _ => ?_
  cases reply with
  | ok view => exact .done trivial
  | notFound => exact raiseStart_conducts
  | failed => exact raiseStart_conducts

theorem initialInput_ok {record : PendingScheduledStartRecord}
    {command : ScheduledStartArbiterCommand} {initial : ScheduledStartArbiterInitialInput}
    (h : initialInput record command = .ok initial) : initial.record = record := by
  rw [initialInput] at h
  split at h
  · cases h
    rfl
  · cases h

theorem requirePendingVersion_ok {record : ScheduledStartProjectionRecord} {expectedVersion : Nat}
    {pending : PendingScheduledStartRecord}
    (h : requirePendingVersion record expectedVersion = .ok pending) :
    record = .pending pending := by
  cases record with
  | pending held =>
      simp only [requirePendingVersion] at h
      split at h
      · cases h
      · cases h
        rfl
  | started _ => cases h
  | canceled _ => cases h
  | failed _ => cases h

theorem runMutation_conducts {initial : ScheduledStartArbiterInitialInput}
    {acceptedStatus : ScheduledStartMutationStatus}
    (shown : Shown history (.pending initial.record)) :
    Conducts service identity Valid (fun result later => Evident later result.scheduledStart)
      (service.runMutation identity initial acceptedStatus) history := by
  refine (startArbiter_conducts shown).bind fun duplicate later grows _ => ?_
  refine Learns.ite (fun _ => ?_) fun _ => ?_
  on_goal 1 =>
    refine arbiterIdentity_conducts.bind fun view next grows' _ => ?_
    refine Learns.ite (fun _ => Learns.fail) fun _ => ?_
    replace grows := grows.trans grows'
  -- with and without a look at the arbiter's identity, the same program remains
  all_goals
    refine arbiterResult_conducts.bind fun reply last grows' ended => ?_
    cases reply with
    | none => exact .done (Shown.evident ((shown.later grows).later grows'))
    | some result =>
        obtain ⟨arbiter, seen, completed⟩ := ended result rfl
        cases result with
        | stale _ _ => exact .fail
        | applied version winner digest scheduledStart =>
            have evident : ∀ later, last <:+ later → Evident later scheduledStart :=
              fun later grows => .result (seen.later grows) completed rfl
            refine Learns.ite (fun _ => Learns.fail) fun _ => ?_
            refine Learns.ite (fun _ => ?_) fun _ => .done (evident last List.suffix_rfl)
            exact describeRecord_conducts.bind fun _ final grows' _ => .done (evident final grows')

theorem recoverMutation_conducts {record : ScheduledStartProjectionRecord} {expectedVersion : Nat}
    {kind : ScheduledStartArbiterCommandKind} {requestDigest : Digest}
    (shown : Shown history record) :
    Conducts service identity Valid
      (fun recovered later => ∀ result, recovered = some result →
        Evident later result.scheduledStart)
      (service.recoverMutation identity record expectedVersion kind requestDigest) history := by
  refine describeArbiter_conducts.bind fun reply later grows _ => ?_
  cases reply with
  | notFound => exact .done fun _ h => by cases h
  | failed => exact raiseStart_conducts
  | ok view =>
      refine Learns.ite (fun _ => ?_) fun _ => ?_
      · exact Learns.fail
      · refine arbiterResult_conducts.bind fun reply next grows' ended => ?_
        cases reply with
        | none =>
            apply Learns.done
            intro result hresult
            cases hresult
            exact Shown.evident (shown.later (grows.trans grows'))
        | some result =>
            obtain ⟨arbiter, seen, completed⟩ := ended result rfl
            cases result with
            | stale _ _ => exact .fail
            | applied version winner digest scheduledStart =>
                refine Learns.ite (fun _ => ?_) fun _ => ?_
                · exact Learns.fail
                · apply Learns.done
                  intro result hresult
                  cases hresult
                  exact .result seen completed rfl

theorem cancel_conducts {expectedVersion : Nat} {requestDigest : Digest} :
    Conducts service identity Valid (fun result later => Evident later result.scheduledStart)
      (service.cancel identity expectedVersion requestDigest) history := by
  refine describeRecord_conducts.bind fun record later _ shown => ?_
  refine Learns.ite (fun _ => .done (Shown.evident shown)) fun _ => ?_
  refine (recoverMutation_conducts shown).bind fun recovered later grows evident => ?_
  cases recovered with
  | some result => exact .done (evident result rfl)
  | none =>
      refine settle_conducts.bind fun pending later grows' hpending => ?_
      refine settle_conducts.bind fun initial later grows'' hinitial => ?_
      apply runMutation_conducts
      rw [initialInput_ok hinitial, ← requirePendingVersion_ok hpending]
      exact shown.later (grows.trans (grows'.trans grows''))

theorem reschedule_conducts {settings : ScheduledStartSettings} {expectedVersion startAt : Nat}
    {requestDigest : Digest} :
    Conducts service identity Valid (fun result later => Evident later result.scheduledStart)
      (service.reschedule settings identity expectedVersion startAt requestDigest) history := by
  refine describeRecord_conducts.bind fun record later _ shown => ?_
  refine Learns.ite (fun _ => .done (Shown.evident shown)) fun _ => ?_
  refine (recoverMutation_conducts shown).bind fun recovered later grows evident => ?_
  cases recovered with
  | some result => exact .done (evident result rfl)
  | none =>
      replace shown := shown.later grows
      refine clock_conducts.bind fun now later grows _ => ?_
      replace shown := shown.later grows
      refine settle_conducts.bind fun _ later grows _ => ?_
      replace shown := shown.later grows
      refine settle_conducts.bind fun pending later grows hpending => ?_
      replace shown := shown.later grows
      refine settle_conducts.bind fun initial later grows hinitial => ?_
      replace shown := shown.later grows
      apply runMutation_conducts
      rw [initialInput_ok hinitial, ← requirePendingVersion_ok hpending]
      exact shown

/-- The due dispatch claims a version only for the record of its own action. -/
theorem claim_conducts {record : ScheduledStartProjectionRecord} :
    Conducts service identity Valid (fun _ _ => True) (service.claim identity record) history := by
  cases record with
  | started _ => exact .done trivial
  | canceled _ => exact .done trivial
  | failed _ => exact .done trivial
  | pending record =>
      refine settle_conducts.bind fun _ later _ _ => ?_
      refine describeRecord_conducts.bind fun current later _ shown => ?_
      refine Learns.ite (fun _ => .done trivial) fun held => ?_
      obtain rfl := not_not.mp held
      refine settle_conducts.bind fun initial later grows hinitial => ?_
      obtain rfl := initialInput_ok hinitial
      refine (startArbiter_conducts (shown.later grows)).bind fun duplicate later _ _ => ?_
      refine Learns.ite (fun _ => ?_) fun _ => .done trivial
      refine arbiterIdentity_conducts.bind fun view later _ _ => ?_
      exact Learns.ite (fun _ => .done trivial) fun _ => .done trivial

/-! ## The activities of an arbiter -/

theorem findExisting_conducts :
    Conducts service identity Valid (fun existing later => existing.isSome → Ran later)
      service.findExisting history := by
  refine existingRun_conducts.bind fun reply later _ ran => ?_
  apply Learns.lift
  intro existing hexisting hsome
  cases reply with
  | found run => exact ran run rfl
  | rpcError error =>
      simp only [WorkflowStarter.lookupExistingResult] at hexisting
      split at hexisting
      · cases hexisting
        cases hsome
      · cases hexisting
  | otherError => cases hexisting

theorem prepare_conducts {initial : ScheduledStartArbiterInitialInput} :
    Conducts service identity Valid
      (fun preparation later => ∃ current existing, Prepared initial current existing preparation ∧
        Shown later current ∧ (existing.isSome → Ran later))
      (service.prepare initial) history := by
  refine settle_conducts.bind fun _ later _ _ => ?_
  refine describeRecord_conducts.bind fun current later _ shown => ?_
  refine Learns.ite (fun _ => ?_) fun _ => ?_
  · exact .done ⟨current, none, .stale, shown, fun h => by cases h⟩
  · refine findExisting_conducts.bind fun existing later grows ran => ?_
    replace shown := shown.later grows
    refine clock_conducts.bind fun now later grows _ => ?_
    replace shown := shown.later grows
    replace ran := fun h => Once.later (ran h) grows
    refine Learns.bind (ask_conducts fun _ _ => rfl) fun resolved later grows _ => ?_
    replace shown := shown.later grows
    replace ran := fun h => Once.later (ran h) grows
    refine settle_conducts.mono fun preparation final grows prepared => ?_
    exact ⟨_, _, prepareArbiter_prepared prepared, shown.later grows,
      fun h => (ran h).later grows⟩

/-- Only an arbiter that stands at a resolved due record starts the business workflow. -/
theorem startRun_conducts {target : ScheduledStartResolvedTarget} {runId workflowId : String}
    {due : ScheduledStartArbiterResolvedDueInput} {made : Nat}
    (stood : Stood history workflowId ⟨.resolvedDue due, made⟩) :
    Conducts service identity Valid (fun _ _ => True) (temporal (.startRun target runId))
      history := by
  apply write_conducts
  intro world past grows circumstance
  simp only [served]
  split
  · exact .rfl
  · next absent =>
      split
      · exact ⟨.same, fun _ => .same, absent ▸ .dispatched (stood.later grows)⟩
      · exact .rfl

theorem startCalls_conducts {target : ScheduledStartResolvedTarget} {runId workflowId : String}
    {due : ScheduledStartArbiterResolvedDueInput} {made : Nat} (left : Nat)
    (stood : Stood history workflowId ⟨.resolvedDue due, made⟩) :
    Conducts service identity Valid (fun _ _ => True) (service.startCalls target runId left)
      history := by
  induction left generalizing history with
  | zero => exact startRun_conducts stood
  | succ left ih =>
      refine (startRun_conducts stood).bind fun answer later grows _ => ?_
      exact Learns.ite (fun _ => ih (stood.later grows)) fun _ => .done trivial

theorem attemptRun_conducts {workflowId : String} {due : ScheduledStartArbiterResolvedDueInput}
    {made : Nat} (stood : Stood history workflowId ⟨.resolvedDue due, made⟩) :
    Conducts service identity Valid (fun _ _ => True) (service.attemptRun due) history := by
  refine settle_conducts.bind fun _ later grows _ => ?_
  replace stood := stood.later grows
  refine Learns.bind (ask_conducts fun _ _ => rfl) fun checked later grows _ => ?_
  replace stood := stood.later grows
  cases checked with
  | error _ => exact .done trivial
  | ok _ =>
      refine (startCalls_conducts _ stood).bind fun answer later _ _ => ?_
      have settled : ∀ {α : Type} {result : Except ScheduledStartException α} {later},
          Conducts service identity Valid (fun _ _ => True) (settle result) later :=
        settle_conducts.mono fun _ _ _ _ => trivial
      cases answer with
      | alreadyStarted runId =>
          refine Learns.bind .pass fun described later _ _ => ?_
          exact Learns.bind existingRun_conducts fun _ _ _ _ => settled
      | returned runId =>
          cases runId with
          | none =>
              refine Learns.bind (ask_conducts fun _ _ => rfl) fun described later _ _ => ?_
              exact Learns.bind .pass fun _ _ _ _ => settled
          | some runId =>
              refine Learns.bind .pass fun described later _ _ => ?_
              exact Learns.bind .pass fun _ _ _ _ => settled
      | rpcError error accepted =>
          refine Learns.bind .pass fun described later _ _ => ?_
          exact Learns.bind .pass fun _ _ _ _ => settled
      | otherError accepted =>
          refine Learns.bind .pass fun described later _ _ => ?_
          exact Learns.bind .pass fun _ _ _ _ => settled

theorem reportedAttempt_conducts {workflowId : String}
    {due : ScheduledStartArbiterResolvedDueInput} {made : Nat}
    (stood : Stood history workflowId ⟨.resolvedDue due, made⟩) :
    Conducts service identity Valid (fun _ _ => True) (service.reportedAttempt due) history :=
  (attemptRun_conducts stood).rescue fun _ _ _ => .done trivial

/-- A commit writes the projection of its arbiter, over whatever the schedule holds by then. -/
theorem commit_conducts {workflowId : String} {terminal : ScheduledStartArbiterTerminalInput}
    {made : Nat} (stood : Stood history workflowId ⟨.terminal terminal, made⟩) :
    Conducts service identity Valid (fun result _ => result = terminal.applied)
      (service.commit terminal) history := by
  have updated_conducts : ∀ {α : Type} {reply : RpcReply α} {later : List StartsWorld},
      Conducts service identity Valid (fun _ _ => True) (updated reply) later := by
    intro α reply later
    cases reply with
    | ok value => exact .done trivial
    | notFound => exact raiseStart_conducts
    | failed => exact raiseStart_conducts
  refine settle_conducts.bind fun _ later grows _ => ?_
  replace stood := stood.later grows
  refine describeSchedule_conducts.bind fun reply later grows _ => ?_
  replace stood := stood.later grows
  refine updated_conducts.bind fun current later grows _ => ?_
  replace stood := stood.later grows
  refine settle_conducts.bind fun decided later grows hdecided => ?_
  replace stood := stood.later grows
  cases decided with
  | none => exact .done rfl
  | some projection =>
      obtain rfl := committed_projection hdecided
      refine Learns.bind (write_conducts fun world past grows _ => ?_) fun reply later _ _ => ?_
      · simp only [served]
        split
        · exact .rfl
        · exact ⟨.projected (stood.later grows), fun _ => .same, .same⟩
      · exact updated_conducts.bind fun _ _ _ _ => .done rfl

/-- An arbiter is moved on from where it stands. -/
theorem moveArbiter_conducts {workflowId : String} {before : ArbiterProgress} :
    (∀ {after : ArbiterProgress}, Progresses history before (.running after) →
      Conducts service identity Valid (fun _ _ => True)
        (temporal (.advanceArbiter workflowId before after)) history) ∧
    ∀ {result : ScheduledStartArbiterResult}, Progresses history before (.completed result) →
      Conducts service identity Valid (fun _ _ => True)
        (temporal (.completeArbiter workflowId before result)) history := by
  constructor
  · intro after progresses
    apply write_conducts
    intro world past grows _
    exact .moveArbiter (progresses.later grows)
  · intro result progresses
    apply write_conducts
    intro world past grows _
    exact .moveArbiter (progresses.later grows)

theorem work_conducts {version : Nat} :
    Conducts service identity Valid (fun _ _ => True) (service.work identity version) history := by
  refine arbiterProgress_conducts.bind fun reply later _ stood => ?_
  cases reply with
  | none => exact .done trivial
  | some progress =>
      replace stood := stood progress rfl
      obtain ⟨input, made⟩ := progress
      cases input with
      | initial initial =>
          refine prepare_conducts.bind fun preparation later _ prepared => ?_
          obtain ⟨current, existing, prepared, shown, ran⟩ := prepared
          cases prepared with
          | stale => exact moveArbiter_conducts.2 (.stale shown)
          | projection concludes found =>
              exact moveArbiter_conducts.1 (.projected concludes fun h => ran (found h))
          | due dispatches => exact moveArbiter_conducts.1 (.due dispatches)
      | resolvedDue due =>
          refine (reportedAttempt_conducts stood).bind fun attempt later _ _ => ?_
          refine clock_conducts.bind fun now later _ _ => ?_
          refine settle_conducts.bind fun next later _ hnext => ?_
          exact moveArbiter_conducts.1 (afterAttempt_progresses hnext)
      | terminal terminal =>
          refine (commit_conducts stood).bind fun result later _ hresult => ?_
          subst hresult
          exact moveArbiter_conducts.2 .applied

theorem cleanup_conducts {settings : ScheduledStartSettings} :
    Conducts service identity Valid (fun _ _ => True) (cleanup settings) history := by
  refine clock_conducts.bind fun now later _ _ => ?_
  refine describeSchedule_conducts.bind fun reply later _ _ => ?_
  cases reply with
  | notFound => exact .done trivial
  | failed => exact raiseStart_conducts
  | ok record =>
      refine Learns.ite (fun _ => ?_) fun _ => .done trivial
      refine Learns.bind (write_conducts fun world past _ _ => ?_) fun deleted later _ _ => ?_
      · simp only [served]
        split
        · exact .rfl
        · exact ⟨.gone, fun _ => .same, .same⟩
      · cases deleted with
        | failed => exact raiseStart_conducts
        | ok _ => exact .done trivial
        | notFound => exact .done trivial

/-! ## The system -/

/-- Every description that the operation reports is evident. -/
def Reports (result : StartsResult) (history : List StartsWorld) : Prop :=
  ∀ description, result.reported = some description → Evident history description

theorem program_conducts {settings : ScheduledStartSettings} (call : StartsCall) :
    Conducts service identity Valid Reports (service.program settings identity call) history := by
  have mutation : ∀ {p : StartsProcess ScheduledStartMutationResult},
      Conducts service identity Valid (fun result later => Evident later result.scheduledStart) p
        history →
      Conducts service identity Valid Reports (StartsResult.mutation <$> p) history := by
    intro p h
    apply h.map
    intro value later evident description reported
    cases reported
    exact evident
  cases call with
  | create request requestDigest => exact mutation create_conducts
  | cancel expectedVersion requestDigest => exact mutation cancel_conducts
  | reschedule expectedVersion startAt requestDigest => exact mutation reschedule_conducts
  | describe =>
      apply describe_conducts.map
      intro value later evident description reported
      cases reported
      exact evident
  | claim record => exact claim_conducts.map fun _ _ _ _ h => by cases h
  | work version => exact work_conducts.map fun _ _ _ _ h => by cases h
  | cleanup => exact cleanup_conducts.map fun _ _ _ _ h => by cases h

end ScheduledStartService

end Justflow
