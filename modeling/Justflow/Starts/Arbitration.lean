import Justflow.Library.Learning
import Justflow.Starts.Failed
import Justflow.Starts.Operations

/-!
# What one request does to a scheduled start

`StartsStep` says what one request of an operation may change, in terms of what the history of the
scheduled start has shown before: which arbiters were there, where they stood and which records the
schedule held.  An operation may be stopped, lose its replies and write what it read long ago; it
still makes only such steps, and it reports only what the history shows.
-/

open Service Process

namespace Justflow

/-! ## What a history shows -/

/-- An arbiter that was there at some moment. -/
def Seen (history : List StartsWorld) (workflowId : String) (arbiter : Arbiter) : Prop :=
  Once (fun world => world.arbiters workflowId = some arbiter) history

/-- A record that the schedule held at some moment. -/
def Shown (history : List StartsWorld) (record : ScheduledStartProjectionRecord) : Prop :=
  Once (fun world => world.schedule = some record) history

/-- The business workflow was there at some moment. -/
def Ran (history : List StartsWorld) : Prop :=
  Once (fun world => world.run.isSome) history

/-- An arbiter once stood here. -/
def Stood (history : List StartsWorld) (workflowId : String) (progress : ArbiterProgress) : Prop :=
  ∃ arbiter, Seen history workflowId arbiter ∧ arbiter.status = .running progress

section Later

variable {history grown : List StartsWorld} {workflowId : String}

theorem Seen.later {arbiter : Arbiter} (seen : Seen history workflowId arbiter)
    (grows : history <:+ grown) : Seen grown workflowId arbiter :=
  Once.later seen grows

theorem Shown.later {record : ScheduledStartProjectionRecord} (shown : Shown history record)
    (grows : history <:+ grown) : Shown grown record :=
  Once.later shown grows

theorem Stood.later {progress : ArbiterProgress} (stood : Stood history workflowId progress)
    (grows : history <:+ grown) : Stood grown workflowId progress := by
  obtain ⟨arbiter, seen, running⟩ := stood
  exact ⟨arbiter, seen.later grows, running⟩

end Later

/-! ## Steps -/

/-- A terminal input that answers the command of its arbiter. -/
structure Concludes (initial : ScheduledStartArbiterInitialInput)
    (terminal : ScheduledStartArbiterTerminalInput) : Prop where
  consumed : terminal.consumedVersion = initial.record.version
  winner : terminal.winner = initial.command.kind

/-- A due command whose record is claimed for dispatch. -/
structure Dispatches (initial : ScheduledStartArbiterInitialInput)
    (record : DispatchingScheduledStartRecord) : Prop where
  due : initial.command.kind = .due
  claimed : record.claimedVersion = initial.record.version

def ScheduledStartProjectionRecord.isStarted : ScheduledStartProjectionRecord → Bool
  | .started _ => true
  | _ => false

def ScheduledStartArbiterTerminalInput.applied (self : ScheduledStartArbiterTerminalInput) :
    ScheduledStartArbiterResult :=
  .applied self.consumedVersion self.winner self.requestDigest self.projection.describe

/-- How the run of an arbiter goes on from an input. -/
inductive Progresses (history : List StartsWorld) : ArbiterProgress → ArbiterStatus → Prop where
  | stale {initial : ScheduledStartArbiterInitialInput} {made : Nat}
      {record : ScheduledStartProjectionRecord} (shown : Shown history record) :
      Progresses history ⟨.initial initial, made⟩
        (.completed (.stale initial.record.version record.describe))
  | projected {initial : ScheduledStartArbiterInitialInput} {made next : Nat}
      {terminal : ScheduledStartArbiterTerminalInput} (concludes : Concludes initial terminal)
      (ran : terminal.projection.isStarted → Ran history) :
      Progresses history ⟨.initial initial, made⟩ (.running ⟨.terminal terminal, next⟩)
  | due {initial : ScheduledStartArbiterInitialInput} {made next : Nat}
      {due : ScheduledStartArbiterResolvedDueInput} (dispatches : Dispatches initial due.record) :
      Progresses history ⟨.initial initial, made⟩ (.running ⟨.resolvedDue due, next⟩)
  | attempted {due after : ScheduledStartArbiterResolvedDueInput} {made next : Nat}
      (same : after.record = due.record) :
      Progresses history ⟨.resolvedDue due, made⟩ (.running ⟨.resolvedDue after, next⟩)
  | ended {due : ScheduledStartArbiterResolvedDueInput} {made next : Nat}
      {terminal : ScheduledStartArbiterTerminalInput}
      (consumed : terminal.consumedVersion = due.record.claimedVersion)
      (winner : terminal.winner = .due) :
      Progresses history ⟨.resolvedDue due, made⟩ (.running ⟨.terminal terminal, next⟩)
  | applied {terminal : ScheduledStartArbiterTerminalInput} {made : Nat} :
      Progresses history ⟨.terminal terminal, made⟩ (.completed terminal.applied)

theorem Progresses.later {history later : List StartsWorld} {before : ArbiterProgress}
    {next : ArbiterStatus} (progresses : Progresses history before next)
    (grows : history <:+ later) : Progresses later before next := by
  cases progresses with
  | stale shown => exact .stale (shown.later grows)
  | projected concludes ran =>
      apply Progresses.projected concludes
      intro started
      exact Once.later (ran started) grows
  | due dispatches => exact .due dispatches
  | attempted same => exact .attempted same
  | ended consumed winner => exact .ended consumed winner
  | applied => exact .applied

section Steps

variable (service : ScheduledStartService) (identity : StartIdentity)

/-- What may become of the arbiter under one workflow identity. -/
inductive ArbiterStep (history : List StartsWorld) (workflowId : String) :
    Option Arbiter → Option Arbiter → Prop where
  | same {held : Option Arbiter} : ArbiterStep history workflowId held held
  | gone {held : Option Arbiter} : ArbiterStep history workflowId held none
  | claimed {initial : ScheduledStartArbiterInitialInput} {startTime : Nat}
      (own : workflowId = service.arbiterId identity initial.record.version)
      (shown : Shown history (.pending initial.record)) :
      ArbiterStep history workflowId none
        (some { initial, startTime, status := .running { input := .initial initial } })
  | moved {arbiter : Arbiter} {before : ArbiterProgress} {next : ArbiterStatus}
      (running : arbiter.status = .running before) (progresses : Progresses history before next) :
      ArbiterStep history workflowId (some arbiter) (some { arbiter with status := next })

/-- What may become of the record of the schedule. -/
inductive ScheduleStep (history : List StartsWorld) :
    Option ScheduledStartProjectionRecord → Option ScheduledStartProjectionRecord → Prop where
  | same {held : Option ScheduledStartProjectionRecord} : ScheduleStep history held held
  | gone {held : Option ScheduledStartProjectionRecord} : ScheduleStep history held none
  | created {record : PendingScheduledStartRecord} (first : record.version = 1) :
      ScheduleStep history none (some (.pending record))
  | projected {held : Option ScheduledStartProjectionRecord} {workflowId : String}
      {terminal : ScheduledStartArbiterTerminalInput} {made : Nat}
      (stood : Stood history workflowId ⟨.terminal terminal, made⟩) :
      ScheduleStep history held (some terminal.projection)

/-- What may become of the business workflow. -/
inductive RunStep (history : List StartsWorld) :
    Option StartWorkflowResult → Option StartWorkflowResult → Prop where
  | same {run : Option StartWorkflowResult} : RunStep history run run
  | gone {run : Option StartWorkflowResult} : RunStep history run none
  | dispatched {run : StartWorkflowResult} {workflowId : String}
      {due : ScheduledStartArbiterResolvedDueInput} {made : Nat}
      (stood : Stood history workflowId ⟨.resolvedDue due, made⟩) :
      RunStep history none (some run)

/-- What one request, or the retention of Temporal, does. -/
structure StartsStep (history : List StartsWorld) (world next : StartsWorld) : Prop where
  schedule : ScheduleStep history world.schedule next.schedule
  arbiters : ∀ workflowId,
    ArbiterStep service identity history workflowId (world.arbiters workflowId)
      (next.arbiters workflowId)
  run : RunStep history world.run next.run

def StartsMove : List StartsWorld → StartsWorld → Prop
  | [], _ => False
  | world :: past, next => StartsStep service identity (world :: past) world next

variable {service} {identity} {history : List StartsWorld} {world : StartsWorld}

theorem StartsStep.rfl : StartsStep service identity history world world :=
  ⟨.same, fun _ => .same, .same⟩

/-- What Temporal forgets by itself. -/
theorem StartsStep.forget (retention : Retention) :
    StartsStep service identity history world (world.forget retention) := by
  cases retention with
  | run => exact ⟨.same, fun _ => .same, .gone⟩
  | arbiter workflowId =>
      refine ⟨.same, fun other => ?_, .same⟩
      simp only [StartsWorld.forget, Function.update_apply]
      split
      · exact .gone
      · exact .same

theorem StartsStep.setArbiter {workflowId : String} {arbiter : Arbiter}
    (step : ArbiterStep service identity history workflowId (world.arbiters workflowId)
      (some arbiter)) :
    StartsStep service identity history world (world.setArbiter workflowId arbiter) := by
  refine ⟨.same, fun other => ?_, .same⟩
  simp only [StartsWorld.setArbiter, Function.update_apply]
  split
  · next same => exact same ▸ step
  · exact .same

/-- An arbiter goes on from where it stands, or not at all. -/
theorem StartsStep.moveArbiter {workflowId : String} {before : ArbiterProgress}
    {next : ArbiterStatus} (progresses : Progresses history before next) :
    StartsStep service identity history world (world.moveArbiter workflowId before next) := by
  rw [StartsWorld.moveArbiter]
  cases held : world.arbiters workflowId with
  | none => exact .rfl
  | some arbiter =>
      apply setArbiter
      rw [held, Arbiter.advance]
      split
      · next running => exact .moved running progresses
      · exact .same

end Steps

/-! ## Reports -/

def ScheduledStartState.final : ScheduledStartState → Bool
  | .scheduled => false
  | .dispatching => false
  | .started => true
  | .canceled => true
  | .failed => true

def ScheduledStartArbiterResult.description : ScheduledStartArbiterResult → ScheduledStartDescription
  | .applied _ _ _ scheduledStart => scheduledStart
  | .stale _ current => current

/-- The history shows what a description says. -/
inductive Evident (history : List StartsWorld) (description : ScheduledStartDescription) : Prop where
  | unfinished (open_ : description.state.final = false)
  | shown {record : ScheduledStartProjectionRecord} (shown : Shown history record)
      (described : record.describe = description)
  | result {workflowId : String} {arbiter : Arbiter} {result : ScheduledStartArbiterResult}
      (seen : Seen history workflowId arbiter) (completed : arbiter.status = .completed result)
      (described : result.description = description)

/-- The description with which a caller's operation ends. -/
def StartsResult.reported : StartsResult → Option ScheduledStartDescription
  | .mutation result => some result.scheduledStart
  | .description described => some described
  | .claim _ => none
  | .cleaned _ => none
  | .worked => none

end Justflow
