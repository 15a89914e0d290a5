import Justflow.Starts.Conduct
import Justflow.Starts.Incarnations

/-!
# One winner

Whatever operations on a scheduled start overlap, lose their replies or write late, at most one of
its arbiters has a command other than a reschedule, and it decides the outcome.  `Arbitrated` is
what the history of a run keeps while Temporal retains the arbiters.  The record of the schedule is
no part of it: a late update may overwrite it, and a cleanup may remove it.
-/

open Service

namespace Justflow

/-! ## The invariant -/

/-- The result that an arbiter has settled on. -/
def ArbiterStatus.outcome : ArbiterStatus → Option ScheduledStartArbiterResult
  | .running ⟨.terminal terminal, _⟩ => some terminal.applied
  | .running ⟨.initial _, _⟩ => none
  | .running ⟨.resolvedDue _, _⟩ => none
  | .completed result => some result

/-- Where an arbiter may stand, given the input it was started with. -/
def Arbiter.Fits (self : Arbiter) (history : List StartsWorld) (workflowId : String) : Prop :=
  match self.status with
  | .running ⟨.initial input, _⟩ => input = self.initial
  | .running ⟨.resolvedDue due, _⟩ => Dispatches self.initial due.record
  | .running ⟨.terminal terminal, _⟩ =>
      Concludes self.initial terminal ∧
        (terminal.projection.isStarted → terminal.winner = .due ∨ Ran history)
  | .completed result =>
      (∃ record, Shown history record ∧ record.describe = result.description) ∨
        ∃ terminal made, Stood history workflowId ⟨.terminal terminal, made⟩ ∧
          result = terminal.applied

/-- What the history of a scheduled start keeps while no arbiter is removed. -/
structure Arbitrated (service : ScheduledStartService) (identity : StartIdentity)
    (history : List StartsWorld) : Prop where
  present : ∀ {workflowId arbiter}, Seen history workflowId arbiter →
    ∀ world ∈ history.head?, ∃ current, world.arbiters workflowId = some current ∧
      current.initial = arbiter.initial ∧
        ∀ result, arbiter.status.outcome = some result → current.status.outcome = some result
  own : ∀ {workflowId arbiter}, Seen history workflowId arbiter →
    workflowId = service.arbiterId identity arbiter.initial.record.version ∧
      Shown history (.pending arbiter.initial.record)
  fits : ∀ {workflowId arbiter}, Seen history workflowId arbiter →
    arbiter.Fits history workflowId
  shown : ∀ {record}, Shown history record →
    (∃ pending, record = .pending pending ∧ pending.version = 1) ∨
      ∃ workflowId terminal made, Stood history workflowId ⟨.terminal terminal, made⟩ ∧
        record = terminal.projection
  ran : Ran history → ∃ workflowId due made, Stood history workflowId ⟨.resolvedDue due, made⟩

section Cons

variable {history grown : List StartsWorld} {world : StartsWorld} {workflowId : String}

theorem once_cons {P : StartsWorld → Prop} :
    Once P (world :: history) ↔ P world ∨ Once P history := by
  simp [Once]

theorem Arbiter.Fits.later {arbiter : Arbiter} (fits : arbiter.Fits history workflowId)
    (grows : history <:+ grown) : arbiter.Fits grown workflowId := by
  obtain ⟨initial, startTime, status⟩ := arbiter
  cases status with
  | running progress =>
      obtain ⟨input, made⟩ := progress
      cases input with
      | initial input => exact fits
      | resolvedDue due => exact fits
      | terminal terminal =>
          refine ⟨fits.1, fun started => (fits.2 started).imp id fun ran => ?_⟩
          exact Once.later ran grows
  | completed result =>
      refine Or.imp ?_ ?_ fits
      · rintro ⟨record, shown, described⟩
        exact ⟨record, shown.later grows, described⟩
      · rintro ⟨terminal, made, stood, applied⟩
        exact ⟨terminal, made, stood.later grows, applied⟩

end Cons

section Step

variable {service : ScheduledStartService} {identity : StartIdentity} {world after : StartsWorld}
  {past : List StartsWorld} {workflowId : String} {arbiter : Arbiter}

/-- An arbiter that goes on stays within what its input allows. -/
theorem Arbiter.Fits.moved {before : ArbiterProgress} {status : ArbiterStatus}
    (fits : arbiter.Fits (world :: past) workflowId) (running : arbiter.status = .running before)
    (held : world.arbiters workflowId = some arbiter)
    (progresses : Progresses (world :: past) before status) :
    Arbiter.Fits { arbiter with status } (world :: past) workflowId := by
  rw [Arbiter.Fits, running] at fits
  cases progresses with
  | stale shown => exact .inl ⟨_, shown, rfl⟩
  | projected concludes ran =>
      cases fits
      exact ⟨concludes, fun started => .inr (ran started)⟩
  | due dispatches =>
      cases fits
      exact dispatches
  | attempted same =>
      change Dispatches _ _
      rw [same]
      exact fits
  | ended consumed winner =>
      exact ⟨⟨consumed.trans fits.claimed, winner.trans fits.due.symm⟩, fun _ => .inl winner⟩
  | applied => exact .inr ⟨_, _, ⟨arbiter, .now held, running⟩, rfl⟩

/-- What an arbiter has settled on, it keeps. -/
theorem Progresses.settled {history : List StartsWorld} {before : ArbiterProgress}
    {status : ArbiterStatus} {result : ScheduledStartArbiterResult}
    (progresses : Progresses history before status)
    (settled : (ArbiterStatus.running before).outcome = some result) :
    status.outcome = some result := by
  cases progresses with
  | applied => exact settled
  | _ => cases settled

theorem Arbitrated.next (arbitrated : Arbitrated service identity (world :: past))
    (step : StartsStep service identity (world :: past) world after)
    (kept : ∀ workflowId, (world.arbiters workflowId).isSome → (after.arbiters workflowId).isSome) :
    Arbitrated service identity (after :: world :: past) := by
  have grows : world :: past <:+ after :: world :: past := List.suffix_cons _ _
  constructor
  case present =>
    intro workflowId arbiter seen last hlast
    cases hlast
    rcases once_cons.mp seen with held | seen
    · exact ⟨arbiter, held, rfl, fun _ h => h⟩
    · obtain ⟨current, held, initial, settled⟩ := arbitrated.present seen world rfl
      have there := kept workflowId (by rw [held]; rfl)
      have change := step.arbiters workflowId
      rw [held] at change
      generalize after.arbiters workflowId = found at change there
      cases change with
      | same => exact ⟨current, rfl, initial, settled⟩
      | gone => cases there
      | moved running progresses =>
          refine ⟨_, rfl, initial, fun result h => progresses.settled ?_⟩
          rw [← running]
          exact settled result h
  case own =>
    intro workflowId arbiter seen
    rcases once_cons.mp seen with held | seen
    · have change := step.arbiters workflowId
      rw [held] at change
      generalize before : world.arbiters workflowId = earlier at change
      cases change with
      | same =>
          obtain ⟨own, shown⟩ := arbitrated.own (.now before)
          exact ⟨own, shown.later grows⟩
      | claimed own shown => exact ⟨own, shown.later grows⟩
      | moved running progresses =>
          obtain ⟨own, shown⟩ := arbitrated.own (.now before)
          exact ⟨own, shown.later grows⟩
    · obtain ⟨own, shown⟩ := arbitrated.own seen
      exact ⟨own, shown.later grows⟩
  case fits =>
    intro workflowId arbiter seen
    rcases once_cons.mp seen with held | seen
    · have change := step.arbiters workflowId
      rw [held] at change
      generalize before : world.arbiters workflowId = earlier at change
      cases change with
      | same => exact (arbitrated.fits (.now before)).later grows
      | claimed own shown => exact Eq.refl _
      | moved running progresses =>
          exact ((arbitrated.fits (.now before)).moved running before progresses).later grows
    · exact (arbitrated.fits seen).later grows
  case shown =>
    intro record shown
    have earlier : ∀ {record}, Shown (world :: past) record →
        (∃ pending, record = .pending pending ∧ pending.version = 1) ∨
          ∃ workflowId terminal made,
            Stood (after :: world :: past) workflowId ⟨.terminal terminal, made⟩ ∧
              record = terminal.projection := by
      intro record shown
      refine (arbitrated.shown shown).imp id ?_
      rintro ⟨workflowId, terminal, made, stood, same⟩
      exact ⟨workflowId, terminal, made, stood.later grows, same⟩
    rcases once_cons.mp shown with held | shown
    · have change := step.schedule
      rw [held] at change
      generalize before : world.schedule = held at change
      cases change with
      | same => exact earlier (.now before)
      | created first => exact .inl ⟨_, rfl, first⟩
      | projected stood => exact .inr ⟨_, _, _, stood.later grows, rfl⟩
    · exact earlier shown
  case ran =>
    intro ran
    have earlier : Ran (world :: past) → ∃ workflowId due made,
        Stood (after :: world :: past) workflowId ⟨.resolvedDue due, made⟩ := by
      intro ran
      obtain ⟨workflowId, due, made, stood⟩ := arbitrated.ran ran
      exact ⟨workflowId, due, made, stood.later grows⟩
    rcases once_cons.mp ran with held | ran
    · obtain ⟨run, held⟩ := Option.isSome_iff_exists.mp held
      have change := step.run
      rw [held] at change
      generalize before : world.run = held at change
      cases change with
      | same => exact earlier (.now (by rw [before]; rfl))
      | dispatched stood => exact ⟨_, _, _, stood.later grows⟩
    · exact earlier ran

theorem arbitrated_initial : Arbitrated service identity [{}] where
  present seen := by simp [Seen, Once] at seen
  own seen := by simp [Seen, Once] at seen
  fits seen := by simp [Seen, Once] at seen
  shown shown := by simp [Shown, Once] at shown
  ran ran := by simp [Ran, Once] at ran

end Step

/-! ## What follows from it -/

/-- Only a reschedule leaves a pending record, of the next version. -/
theorem projectionFits_pending {consumedVersion : Nat} {winner : ScheduledStartArbiterCommandKind}
    {record : PendingScheduledStartRecord}
    (h : projectionFits consumedVersion winner (.pending record) = true) :
    winner = .reschedule ∧ record.version = consumedVersion + 1 := by
  cases winner with
  | due => simp [projectionFits] at h
  | cancel => simp [projectionFits] at h
  | reschedule => exact ⟨rfl, by simpa [projectionFits] using h⟩

namespace Arbitrated

variable {service : ScheduledStartService} {identity : StartIdentity} {history : List StartsWorld}
  {first second : String} {left right : Arbiter}

/-- What is seen under one identity was started with one input and settles on one result. -/
theorem same (arbitrated : Arbitrated service identity history) (hleft : Seen history first left)
    (hright : Seen history second right)
    (versions : left.initial.record.version = right.initial.record.version) :
    left.initial = right.initial ∧ ∀ result result', left.status.outcome = some result →
      right.status.outcome = some result' → result = result' := by
  have ids : first = second := by
    rw [(arbitrated.own hleft).1, (arbitrated.own hright).1, versions]
  subst ids
  obtain ⟨world, hworld⟩ : ∃ world, world ∈ history.head? := by
    obtain ⟨world, hworld, -⟩ := hleft
    cases history with
    | nil => cases hworld
    | cons latest _ => exact ⟨latest, rfl⟩
  obtain ⟨current, held, initial, settled⟩ := arbitrated.present hleft world hworld
  obtain ⟨current', held', initial', settled'⟩ := arbitrated.present hright world hworld
  obtain rfl : current = current' := Option.some.inj (held.symm.trans held')
  refine ⟨initial.symm.trans initial', fun result result' h h' => ?_⟩
  exact Option.some.inj ((settled result h).symm.trans (settled' result' h'))

/-- A later version exists only because every version before it was rescheduled. -/
theorem rescheduled (arbitrated : Arbitrated service identity history)
    (hleft : Seen history first left) {version : Nat} (positive : 1 ≤ version)
    (earlier : version < left.initial.record.version) :
    ∃ workflowId arbiter terminal made, Seen history workflowId arbiter ∧
      arbiter.status = .running ⟨.terminal terminal, made⟩ ∧
        arbiter.initial.record.version = version ∧ arbiter.initial.command.kind = .reschedule ∧
          terminal.projection.describe.state = .scheduled := by
  generalize bound : left.initial.record.version = later at earlier
  induction later generalizing first left with
  | zero => cases earlier
  | succ later ih =>
      -- the record of this version is the projection of the arbiter of the one before
      rcases arbitrated.shown (arbitrated.own hleft).2 with
        ⟨pending, same, created⟩ | ⟨workflowId, terminal, made, ⟨arbiter, seen, running⟩, same⟩
      · cases same
        omega
      · have fits := arbitrated.fits seen
        rw [Arbiter.Fits, running] at fits
        obtain ⟨winner, consumed⟩ := projectionFits_pending (same ▸ terminal.projected)
        have before : arbiter.initial.record.version = later := by
          rw [← fits.1.consumed]
          omega
        by_cases last : version = later
        · refine ⟨workflowId, arbiter, terminal, made, seen, running, before.trans last.symm,
            fits.1.winner.symm.trans winner, ?_⟩
          rw [← same]
          rfl
        · exact ih seen before (by omega)

/-- At most one arbiter has a command other than a reschedule. -/
theorem winner (arbitrated : Arbitrated service identity history)
    (hleft : Seen history first left) (hright : Seen history second right)
    (decides : left.initial.command.kind ≠ .reschedule)
    (decides' : right.initial.command.kind ≠ .reschedule) : left.initial = right.initial := by
  have notBefore : ∀ {first second left right}, Seen history first left →
      Seen history second right → left.initial.command.kind ≠ .reschedule →
        ¬ left.initial.record.version < right.initial.record.version := by
    intro first second left right hleft hright decides earlier
    obtain ⟨_, arbiter, _, _, seen, -, version, kind, -⟩ :=
      arbitrated.rescheduled hright left.initial.record.versioned earlier
    apply decides
    rw [(arbitrated.same hleft seen version.symm).1]
    exact kind
  have before := notBefore hleft hright decides
  have after := notBefore hright hleft decides'
  exact (arbitrated.same hleft hright (by omega)).1

/-- The arbiter that dispatched is the one whose command is due. -/
theorem dispatched (arbitrated : Arbitrated service identity history) (ran : Ran history) :
    ∃ workflowId arbiter, Seen history workflowId arbiter ∧
      arbiter.initial.command.kind = .due := by
  obtain ⟨workflowId, due, made, arbiter, seen, running⟩ := arbitrated.ran ran
  have fits := arbitrated.fits seen
  rw [Arbiter.Fits, running] at fits
  exact ⟨workflowId, arbiter, seen, fits.due⟩

/-- An arbiter that has decided how the scheduled start ends. -/
structure Decided (history : List StartsWorld) (workflowId : String) (arbiter : Arbiter)
    (terminal : ScheduledStartArbiterTerminalInput) : Prop where
  seen : Seen history workflowId arbiter
  settled : arbiter.status.outcome = some terminal.applied
  concludes : Concludes arbiter.initial terminal
  started : terminal.projection.isStarted → terminal.winner = .due ∨ Ran history
  final : terminal.projection.describe.state.final = true

/-- What an arbiter stood at, if it ends the scheduled start. -/
theorem decided_of_stood (arbitrated : Arbitrated service identity history) {workflowId : String}
    {terminal : ScheduledStartArbiterTerminalInput} {made : Nat}
    (stood : Stood history workflowId ⟨.terminal terminal, made⟩)
    (final : terminal.projection.describe.state.final = true) :
    ∃ arbiter, Decided history workflowId arbiter terminal := by
  obtain ⟨arbiter, seen, running⟩ := stood
  have fits := arbitrated.fits seen
  rw [Arbiter.Fits, running] at fits
  exact ⟨arbiter, seen, by rw [running]; rfl, fits.1, fits.2, final⟩

/-- A final description is that of a projection which some arbiter has decided on. -/
theorem decided (arbitrated : Arbitrated service identity history)
    {description : ScheduledStartDescription} (evident : Evident history description)
    (final : description.state.final = true) :
    ∃ workflowId arbiter terminal, Decided history workflowId arbiter terminal ∧
      terminal.projection.describe = description := by
  have of_shown : ∀ {record}, Shown history record → record.describe = description →
      ∃ workflowId arbiter terminal, Decided history workflowId arbiter terminal ∧
        terminal.projection.describe = description := by
    intro record shown described
    subst described
    rcases arbitrated.shown shown with ⟨pending, rfl, -⟩ | ⟨workflowId, terminal, made, stood, rfl⟩
    · cases final
    · obtain ⟨arbiter, decided⟩ := arbitrated.decided_of_stood stood final
      exact ⟨workflowId, arbiter, terminal, decided, rfl⟩
  cases evident with
  | unfinished open_ => simp [final] at open_
  | shown shown described => exact of_shown shown described
  | @result workflowId arbiter result seen completed described =>
      have fits := arbitrated.fits seen
      rw [Arbiter.Fits, completed] at fits
      rcases fits with ⟨record, shown, same⟩ | ⟨terminal, made, stood, rfl⟩
      · exact of_shown shown (same.trans described)
      · subst described
        obtain ⟨arbiter, decided⟩ := arbitrated.decided_of_stood stood final
        exact ⟨workflowId, arbiter, terminal, decided, rfl⟩

/-- A reschedule never ends the scheduled start: the run that it would have to find is that of a
due command, and there is none before it or after it. -/
theorem Decided.decides (arbitrated : Arbitrated service identity history)
    {terminal : ScheduledStartArbiterTerminalInput}
    (decided : Decided history first left terminal) :
    left.initial.command.kind ≠ .reschedule := by
  intro kind
  have winner := decided.concludes.winner.trans kind
  have projected := terminal.projected
  have final := decided.final
  rw [winner] at projected
  cases hprojection : terminal.projection with
  | pending record =>
      rw [hprojection] at final
      cases final
  | canceled record => simp [hprojection, projectionFits] at projected
  | failed record => simp [hprojection, projectionFits] at projected
  | started record =>
      rcases decided.started (by rw [hprojection]; rfl) with due | ran
      · rw [winner] at due
        cases due
      obtain ⟨workflowId, arbiter, seen, due⟩ := arbitrated.dispatched ran
      rcases Nat.lt_trichotomy left.initial.record.version arbiter.initial.record.version with
        before | same | after
      · obtain ⟨_, other, terminal', _, seen', running, version, _, scheduled⟩ :=
          arbitrated.rescheduled seen left.initial.record.versioned before
        have results := (arbitrated.same decided.seen seen' version.symm).2 _ _ decided.settled
          (by rw [running]; rfl)
        have described : terminal.projection.describe = terminal'.projection.describe :=
          (ScheduledStartArbiterResult.applied.inj results).2.2.2
        rw [← described, hprojection] at scheduled
        cases scheduled
      · rw [(arbitrated.same decided.seen seen same).1, due] at kind
        cases kind
      · obtain ⟨_, other, _, _, seen', _, version, kind', _⟩ :=
          arbitrated.rescheduled decided.seen arbiter.initial.record.versioned after
        rw [← (arbitrated.same seen seen' version.symm).1, due] at kind'
        cases kind'

/-- The arbiter that canceled the scheduled start excludes every dispatch. -/
theorem Decided.not_ran (arbitrated : Arbitrated service identity history)
    {terminal : ScheduledStartArbiterTerminalInput}
    (decided : Decided history first left terminal)
    (canceled : terminal.projection.describe.state = .canceled) : ¬ Ran history := by
  intro ran
  have winner : left.initial.command.kind = .cancel := by
    rw [← decided.concludes.winner]
    have projected := terminal.projected
    cases hprojection : terminal.projection with
    | canceled record =>
        rw [hprojection] at projected
        cases hwinner : terminal.winner with
        | cancel => rfl
        | due => simp [hwinner, projectionFits] at projected
        | reschedule => simp [hwinner, projectionFits] at projected
    | _ =>
        rw [hprojection] at canceled
        cases canceled
  obtain ⟨workflowId, arbiter, seen, due⟩ := arbitrated.dispatched ran
  have same := arbitrated.winner decided.seen seen (by simp [winner]) (by simp [due])
  rw [same, due] at winner
  cases winner

end Arbitrated

/-! ## Runs -/

/-- Temporal removes no arbiter. -/
def keepsArbiters : Event Circumstance Unit StartsCall Retention → Bool
  | .tick (.arbiter _) => false
  | _ => true

/-- An arbiter that was there is there. -/
def Retains (earlier later : StartsWorld) : Prop :=
  ∀ workflowId, (earlier.arbiters workflowId).isSome → (later.arbiters workflowId).isSome

theorem retains_setArbiter (world : StartsWorld) (workflowId : String) (arbiter : Arbiter) :
    Retains world (world.setArbiter workflowId arbiter) := by
  intro other held
  simp only [StartsWorld.setArbiter, Function.update_apply]
  split
  · rfl
  · exact held

theorem retains_moveArbiter (world : StartsWorld) (workflowId : String) (before : ArbiterProgress)
    (status : ArbiterStatus) : Retains world (world.moveArbiter workflowId before status) := by
  rw [StartsWorld.moveArbiter]
  split
  · exact fun _ held => held
  · exact retains_setArbiter world workflowId _

theorem retains_served (scopeDigest : String) (circumstance : Circumstance) (world : StartsWorld)
    (request : StartsRequest) :
    Retains world (served scopeDigest circumstance world request).2 := by
  cases request with
  | startArbiter workflowId initial =>
      simp only [served]
      split
      · exact fun _ held => held
      · exact retains_setArbiter world workflowId _
  | advanceArbiter workflowId before after => exact retains_moveArbiter world workflowId before _
  | completeArbiter workflowId before result => exact retains_moveArbiter world workflowId before _
  | startRun target workflowId =>
      simp only [served]
      split
      · exact fun _ held => held
      · split <;> exact fun _ held => held
  | _ =>
      simp only [served]
      first
        | exact fun _ held => held
        | split <;> exact fun _ held => held

theorem retains_respond (scopeDigest : String) (circumstance : Circumstance) (world : StartsWorld)
    (request : StartsRequest) :
    Retains world (startsRespond scopeDigest circumstance world request).2 := by
  simp only [startsRespond]
  cases circumstance.fault with
  | none => exact retains_served scopeDigest circumstance world request
  | some fault =>
      cases fault with
      | requestLost => exact fun _ held => held
      | replyLost => exact retains_served scopeDigest circumstance world request

namespace ScheduledStartService

variable (service : ScheduledStartService) (settings : ScheduledStartSettings)
  (identity : StartIdentity)

/-- A run of operations on a scheduled start that was never used before. -/
def startsRun (events : List (Event Circumstance Unit StartsCall Retention)) :
    Config StartsReply StartsFailure StartsResult StartsWorld Unit :=
  (service.starts settings identity).run events (initial {})

/-- A description with which an operation of the run has answered. -/
def Answered (events : List (Event Circumstance Unit StartsCall Retention))
    (description : ScheduledStartDescription) : Prop :=
  ∃ result, some (.ok result) ∈ service.replies settings identity {} events ∧
    result.reported = some description

variable {service} {settings} {identity}
  {events : List (Event Circumstance Unit StartsCall Retention)}

theorem handle_retains {config : Config StartsReply StartsFailure StartsResult StartsWorld Unit}
    {event : Event Circumstance Unit StartsCall Retention} (keeps : keepsArbiters event = true)
    (chain : config.history.IsChain fun later earlier => Retains earlier later) :
    ((service.starts settings identity).handle config event).history.IsChain
      fun later earlier => Retains earlier later := by
  cases event with
  | start actor call => exact chain
  | stop index => exact chain
  | serve index circumstance =>
      simp only [Service.handle]
      split
      · exact .cons_cons (retains_respond _ _ _ _) chain
      · exact chain
  | tick retention =>
      cases retention with
      | arbiter workflowId => cases keeps
      | run => exact .cons_cons (fun _ held => held) chain

theorem run_retains (kept : ∀ event ∈ events, keepsArbiters event = true)
    {config : Config StartsReply StartsFailure StartsResult StartsWorld Unit}
    (chain : config.history.IsChain fun later earlier => Retains earlier later) :
    ((service.starts settings identity).run events config).history.IsChain
      fun later earlier => Retains earlier later := by
  induction events generalizing config with
  | nil => exact chain
  | cons event events ih =>
      rw [run_cons]
      apply ih fun other hother => kept other (List.mem_cons_of_mem _ hother)
      exact handle_retains (kept event List.mem_cons_self) chain

theorem startsRun_sound :
    (service.starts settings identity).Sound (fun _ => StartsMove service identity)
      (fun _ result history => ∀ value, result = .ok value → Reports value history) {}
      (service.startsRun settings identity events) := by
  rw [startsRun]
  refine Sound.run ?_ ?_ sound_initial events
  · intro _ result history later grows reports value hvalue description reported
    cases reports value hvalue description reported with
    | unfinished open_ => exact .unfinished open_
    | shown shown described => exact .shown (shown.later grows) described
    | result seen completed described => exact .result (seen.later grows) completed described
  · intro _ call history _
    exact program_conducts call

/-- Every run that removes no arbiter keeps the invariant. -/
theorem startsRun_arbitrated (kept : ∀ event ∈ events, keepsArbiters event = true) :
    Arbitrated service identity (service.startsRun settings identity events).history := by
  have lawful := (@startsRun_sound service settings identity events).lawful
  have chain : (service.startsRun settings identity events).history.IsChain
      fun later earlier => Retains earlier later :=
    run_retains kept (.singleton _)
  refine lawful.induct (P := fun history =>
    (history.IsChain fun later earlier => Retains earlier later) →
      Arbitrated service identity history) (fun _ => arbitrated_initial) ?_ chain
  intro world past after _ ih move chain
  have retains := List.isChain_cons_cons.mp chain
  refine (ih retains.2).next ?_ retains.1
  rcases move with ⟨_, step⟩ | ⟨_, retention, held, rfl⟩
  · exact step
  · cases held
    exact .forget retention

theorem Answered.evident {description : ScheduledStartDescription}
    (answered : service.Answered settings identity events description) :
    Evident (service.startsRun settings identity events).history description := by
  obtain ⟨result, hresult, reported⟩ := answered
  obtain ⟨⟨actor, p⟩, hentry, outcome⟩ := List.mem_map.mp hresult
  have keeps := (@startsRun_sound service settings identity events).running _ hentry
  cases p with
  | done value =>
      cases outcome
      exact keeps _ rfl description reported
  | fail error => cases outcome
  | ask request resume => cases outcome

/-- Whatever overlaps, two arbiters of one version, or with commands other than a reschedule, were
started with one input (one version, one record and one command) and settle on one result. -/
theorem single_winner (kept : ∀ event ∈ events, keepsArbiters event = true)
    {first second : String} {left right : Arbiter}
    (hleft : Seen (service.startsRun settings identity events).history first left)
    (hright : Seen (service.startsRun settings identity events).history second right)
    (contend : left.initial.record.version = right.initial.record.version ∨
      left.initial.command.kind ≠ .reschedule ∧ right.initial.command.kind ≠ .reschedule) :
    left.initial = right.initial ∧ ∀ result result', left.status.outcome = some result →
      right.status.outcome = some result' → result = result' := by
  have arbitrated := @startsRun_arbitrated service settings identity events kept
  refine arbitrated.same hleft hright ?_
  rcases contend with versions | ⟨decides, decides'⟩
  · exact versions
  · rw [arbitrated.winner hleft hright decides decides']

/-- An arbiter of a later version exists only because each version before it had an arbiter that
rescheduled it. -/
theorem versions_rescheduled (kept : ∀ event ∈ events, keepsArbiters event = true)
    {workflowId : String} {arbiter : Arbiter}
    (seen : Seen (service.startsRun settings identity events).history workflowId arbiter)
    {version : Nat} (positive : 1 ≤ version) (earlier : version < arbiter.initial.record.version) :
    ∃ workflowId' arbiter' terminal made,
      Seen (service.startsRun settings identity events).history workflowId' arbiter' ∧
        arbiter'.status = .running ⟨.terminal terminal, made⟩ ∧
          arbiter'.initial.record.version = version ∧
            arbiter'.initial.command.kind = .reschedule ∧
              terminal.projection.describe.state = .scheduled :=
  (startsRun_arbitrated kept).rescheduled seen positive earlier

/-- Operations that answer with a final description answer with the same one. -/
theorem outcome_agreement (kept : ∀ event ∈ events, keepsArbiters event = true)
    {left right : ScheduledStartDescription}
    (hleft : service.Answered settings identity events left)
    (hright : service.Answered settings identity events right)
    (final : left.state.final = true) (final' : right.state.final = true) : left = right := by
  have arbitrated := @startsRun_arbitrated service settings identity events kept
  obtain ⟨_, arbiter, terminal, decided, rfl⟩ := arbitrated.decided hleft.evident final
  obtain ⟨_, arbiter', terminal', decided', rfl⟩ := arbitrated.decided hright.evident final'
  have winner := arbitrated.winner decided.seen decided'.seen (decided.decides arbitrated)
    (decided'.decides arbitrated)
  have results := (arbitrated.same decided.seen decided'.seen (by rw [winner])).2 _ _
    decided.settled decided'.settled
  exact (ScheduledStartArbiterResult.applied.inj results).2.2.2

/-- Once an operation has answered that the scheduled start is canceled, no operation has started
or will start its workflow. -/
theorem canceled_never_runs (kept : ∀ event ∈ events, keepsArbiters event = true)
    {description : ScheduledStartDescription}
    (answered : service.Answered settings identity events description)
    (canceled : description.state = .canceled) :
    ∀ world ∈ (service.startsRun settings identity events).history, world.run = none := by
  have arbitrated := @startsRun_arbitrated service settings identity events kept
  obtain ⟨_, arbiter, terminal, decided, rfl⟩ :=
    arbitrated.decided answered.evident (by rw [canceled]; rfl)
  intro world hworld
  have never := decided.not_ran arbitrated canceled
  exact Option.not_isSome_iff_eq_none.mp fun ran => never ⟨world, hworld, ran⟩

/-! ## A reminder whose operations overlap -/

def dueRecord : PendingScheduledStartRecord :=
  reusingService.createRecord reminderSettings reminderIdentity reminderRequest (Digest.ofNat 1)
    10 ⟨"api", []⟩

/-- The reminder is canceled while its due dispatch is under way, and described afterwards. -/
def overlappingReminder : List (Event Circumstance Unit StartsCall Retention) :=
  through 0 (.create reminderRequest (Digest.ofNat 1)) 10 ++
    [.start () (.cancel 1 (Digest.ofNat 2)), .serve 1 (answeredAt 20),
      .start () (.claim (.pending dueRecord)), .serve 2 (answeredAt 20), .serve 1 (answeredAt 20),
      .serve 1 (answeredAt 20), .serve 2 (answeredAt 20), .serve 2 (answeredAt 20)] ++
    through 3 (.work 1) 20 ++ through 4 (.work 1) 20 ++ [.serve 1 (answeredAt 20)] ++
      through 5 .describe 30

def canceledDescription : ScheduledStartDescription where
  scheduledStartId := reusingService.scheduledStartId reminderIdentity
  workflowName := "remind"
  triggerName := "api"
  startAt := 60
  workloadClass := .standard
  state := .canceled
  version := 1
  acceptedAt := 10
  updatedAt := 20
  completedAt := some 20

theorem overlappingReminder_kept :
    ∀ event ∈ overlappingReminder, keepsArbiters event = true := by
  decide

/-- The cancellation and the description answer alike, and the arbiter was to cancel. -/
theorem overlappingReminder_outcome :
    (reusingService.replies reminderSettings reminderIdentity {} overlappingReminder)[1]? =
        some (some (.ok (.mutation ⟨.canceled, canceledDescription, some 1⟩))) ∧
      (reusingService.replies reminderSettings reminderIdentity {} overlappingReminder)[5]? =
        some (some (.ok (.description canceledDescription))) ∧
      ((reusingService.startsRun reminderSettings reminderIdentity
        overlappingReminder).world.arbiters (reusingService.arbiterId reminderIdentity 1)).map
          (fun arbiter => arbiter.initial.command.kind) = some .cancel := by
  decide +kernel

theorem canceledDescription_answered :
    reusingService.Answered reminderSettings reminderIdentity overlappingReminder
      canceledDescription :=
  ⟨_, List.mem_of_getElem? overlappingReminder_outcome.2.1, rfl⟩

theorem single_winner_overlapping :
    ∃ left right : Arbiter, left.initial.command.kind = .cancel ∧
      right.initial.command.kind = .cancel ∧ left.initial = right.initial := by
  obtain ⟨arbiter, found, kind⟩ := Option.map_eq_some_iff.mp overlappingReminder_outcome.2.2
  have decides : arbiter.initial.command.kind ≠ .reschedule := by simp [kind]
  obtain ⟨one, -⟩ := single_winner overlappingReminder_kept (.now found) (.now found)
    (.inr ⟨decides, decides⟩)
  exact ⟨arbiter, arbiter, kind, kind, one⟩

/-- `remindingService` with a hash that tells one version from another. -/
def summingService : ScheduledStartService :=
  { remindingService with
    hashing :=
      { sha256 text := Digest.ofNat (text.toByteArray.data.toList.map UInt8.toNat).sum } }

/-- The reminder is put off and then canceled. -/
def rescheduledReminder : List (Event Circumstance Unit StartsCall Retention) :=
  through 0 (.create reminderRequest (Digest.ofNat 1)) 10 ++
    .start () (.reschedule 1 90 (Digest.ofNat 2)) :: List.replicate 4 (.serve 1 (answeredAt 20)) ++
      through 2 (.work 1) 20 ++ through 3 (.work 1) 20 ++
        through 4 (.cancel 2 (Digest.ofNat 3)) 30

theorem rescheduledReminder_kept :
    ∀ event ∈ rescheduledReminder, keepsArbiters event = true := by
  decide

theorem rescheduledReminder_version :
    ((summingService.startsRun reminderSettings reminderIdentity
      rescheduledReminder).world.arbiters (summingService.arbiterId reminderIdentity 2)).map
        (fun arbiter => arbiter.initial.record.version) = some 2 := by
  decide +kernel

theorem versions_rescheduled_reminder :
    ∃ workflowId arbiter,
      Seen (summingService.startsRun reminderSettings reminderIdentity
        rescheduledReminder).history workflowId arbiter ∧
      arbiter.initial.record.version = 1 ∧ arbiter.initial.command.kind = .reschedule := by
  obtain ⟨arbiter, found, version⟩ := Option.map_eq_some_iff.mp rescheduledReminder_version
  have earlier : 1 < arbiter.initial.record.version := by omega
  obtain ⟨workflowId, before, _, _, seen, -, first, kind, -⟩ :=
    versions_rescheduled rescheduledReminder_kept (.now found) (Nat.le_refl 1) earlier
  exact ⟨workflowId, before, seen, first, kind⟩

theorem outcome_agreement_overlapping :
    ∃ description, reusingService.Answered reminderSettings reminderIdentity overlappingReminder
        description ∧ description = canceledDescription := by
  have canceled : reusingService.Answered reminderSettings reminderIdentity overlappingReminder
      canceledDescription := ⟨_, List.mem_of_getElem? overlappingReminder_outcome.1, rfl⟩
  exact ⟨_, canceled, outcome_agreement overlappingReminder_kept canceled
    canceledDescription_answered rfl rfl⟩

theorem canceled_never_runs_overlapping :
    (reusingService.startsRun reminderSettings reminderIdentity overlappingReminder).world.run =
      none :=
  canceled_never_runs overlappingReminder_kept canceledDescription_answered rfl _ List.mem_cons_self

end ScheduledStartService

end Justflow
