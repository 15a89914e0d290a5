import Justflow.Starts.Operations
import Justflow.Starts.Failed
import Justflow.Library.Shadows

/-!
# Incarnations of a scheduled start

Versions begin at one again when a scheduled start is created anew after its cleanup, and the
identity of an arbiter is made of scope, scheduled start and version only.  What an earlier
incarnation has left goes unnoticed as long as no request names it.
-/

open Service

namespace Justflow

/-- Nothing that is retained bears the identity that a request names. -/
def StartsWorld.leaves (retained : StartsWorld) : StartsRequest → Bool
  | .startArbiter workflowId _ => (retained.arbiters workflowId).isNone
  | .describeArbiter workflowId => (retained.arbiters workflowId).isNone
  | .arbiterResult workflowId => (retained.arbiters workflowId).isNone
  | .arbiterProgress workflowId => (retained.arbiters workflowId).isNone
  | .advanceArbiter workflowId _ _ => (retained.arbiters workflowId).isNone
  | .completeArbiter workflowId _ _ => (retained.arbiters workflowId).isNone
  | .existingRun => retained.run.isNone
  | .startRun _ _ => retained.run.isNone
  | .describeRun => retained.run.isNone
  | _ => true

def StartsWorld.Unclaimed (retained : StartsWorld) (request : StartsRequest) : Prop :=
  retained.leaves request = true

instance (retained : StartsWorld) : DecidablePred retained.Unclaimed :=
  fun _ => inferInstanceAs (Decidable (_ = true))

/-- The worlds agree on all that is not retained of earlier incarnations. -/
structure AlikeBeyond (retained world shadow : StartsWorld) : Prop where
  schedule : world.schedule = shadow.schedule
  arbiters : ∀ workflowId, (retained.arbiters workflowId).isNone →
    world.arbiters workflowId = shadow.arbiters workflowId
  run : retained.run.isNone → world.run = shadow.run

namespace AlikeBeyond

variable {retained world shadow : StartsWorld}

theorem setArbiter (alike : AlikeBeyond retained world shadow) (workflowId : String)
    (arbiter : Arbiter) :
    AlikeBeyond retained (world.setArbiter workflowId arbiter)
      (shadow.setArbiter workflowId arbiter) where
  schedule := alike.schedule
  arbiters other unclaimed := by
    simp only [StartsWorld.setArbiter, Function.update_apply]
    split
    · rfl
    · exact alike.arbiters other unclaimed
  run := alike.run

theorem moveArbiter (alike : AlikeBeyond retained world shadow) {workflowId : String}
    (unclaimed : (retained.arbiters workflowId).isNone) (before : ArbiterProgress)
    (next : ArbiterStatus) :
    AlikeBeyond retained (world.moveArbiter workflowId before next)
      (shadow.moveArbiter workflowId before next) := by
  rw [StartsWorld.moveArbiter, StartsWorld.moveArbiter, alike.arbiters workflowId unclaimed]
  cases shadow.arbiters workflowId with
  | none => exact alike
  | some arbiter => exact alike.setArbiter workflowId _

theorem setSchedule (alike : AlikeBeyond retained world shadow)
    (schedule : Option ScheduledStartProjectionRecord) :
    AlikeBeyond retained { world with schedule } { shadow with schedule } :=
  ⟨rfl, alike.arbiters, alike.run⟩

/-- Requests that name nothing retained are answered alike. -/
theorem served (alike : AlikeBeyond retained world shadow) (scopeDigest : String)
    (circumstance : Circumstance) {request : StartsRequest}
    (unclaimed : retained.Unclaimed request) :
    (served scopeDigest circumstance world request).1 =
        (served scopeDigest circumstance shadow request).1 ∧
      AlikeBeyond retained (served scopeDigest circumstance world request).2
        (served scopeDigest circumstance shadow request).2 := by
  cases request with
  | describeSchedule =>
      rw [Justflow.served, Justflow.served, alike.schedule]
      cases shadow.schedule <;> exact ⟨rfl, alike⟩
  | createSchedule record =>
      rw [Justflow.served, Justflow.served, alike.schedule]
      cases shadow.schedule with
      | none => exact ⟨rfl, alike.setSchedule _⟩
      | some held => exact ⟨rfl, alike⟩
  | updateSchedule record =>
      rw [Justflow.served, Justflow.served, alike.schedule]
      cases shadow.schedule with
      | none => exact ⟨rfl, alike⟩
      | some held => exact ⟨rfl, alike.setSchedule _⟩
  | deleteSchedule =>
      rw [Justflow.served, Justflow.served, alike.schedule]
      cases shadow.schedule with
      | none => exact ⟨rfl, alike⟩
      | some held => exact ⟨rfl, alike.setSchedule _⟩
  | startArbiter workflowId initial =>
      rw [Justflow.served, Justflow.served, alike.arbiters workflowId unclaimed]
      cases shadow.arbiters workflowId with
      | none => exact ⟨rfl, alike.setArbiter workflowId _⟩
      | some arbiter => exact ⟨rfl, alike⟩
  | describeArbiter workflowId =>
      rw [Justflow.served, Justflow.served, alike.arbiters workflowId unclaimed]
      cases shadow.arbiters workflowId <;> exact ⟨rfl, alike⟩
  | arbiterResult workflowId =>
      rw [Justflow.served, Justflow.served, alike.arbiters workflowId unclaimed]
      split <;> exact ⟨rfl, alike⟩
  | arbiterProgress workflowId =>
      rw [Justflow.served, Justflow.served, alike.arbiters workflowId unclaimed]
      split <;> exact ⟨rfl, alike⟩
  | advanceArbiter workflowId before after => exact ⟨rfl, alike.moveArbiter unclaimed _ _⟩
  | completeArbiter workflowId before result => exact ⟨rfl, alike.moveArbiter unclaimed _ _⟩
  | existingRun =>
      rw [Justflow.served, Justflow.served, alike.run unclaimed]
      cases shadow.run <;> exact ⟨rfl, alike⟩
  | startRun target workflowId =>
      rw [Justflow.served, Justflow.served, alike.run unclaimed]
      cases shadow.run with
      | some run => exact ⟨rfl, alike⟩
      | none =>
          by_cases effect : circumstance.call.tookEffect = true
          · simp only [if_pos effect]
            exact ⟨trivial, alike.schedule, alike.arbiters, fun _ => rfl⟩
          · simp only [if_neg effect]
            exact ⟨trivial, alike⟩
  | describeRun =>
      rw [Justflow.served, Justflow.served, alike.run unclaimed]
      exact ⟨rfl, alike⟩
  | activeTarget => exact ⟨rfl, alike⟩
  | checkedStart => exact ⟨rfl, alike⟩
  | admission => exact ⟨rfl, alike⟩
  | clock => exact ⟨rfl, alike⟩

theorem forget (alike : AlikeBeyond retained world shadow) (retention : Retention) :
    AlikeBeyond (retained.forget retention) (world.forget retention) (shadow.forget retention) := by
  cases retention with
  | run => exact ⟨alike.schedule, alike.arbiters, fun _ => rfl⟩
  | arbiter workflowId =>
      refine ⟨alike.schedule, ?_, alike.run⟩
      intro other unclaimed
      simp only [StartsWorld.forget, Function.update_apply] at unclaimed ⊢
      split
      · rfl
      · rename_i apart
        rw [if_neg apart] at unclaimed
        exact alike.arbiters other unclaimed

end AlikeBeyond

namespace ScheduledStartService

variable (service : ScheduledStartService) (settings : ScheduledStartSettings)
  (identity : StartIdentity)

theorem starts_answersAlike :
    AnswersAlike (service.starts settings identity) StartsWorld.Unclaimed AlikeBeyond := by
  intro retained circumstance world shadow request alike unclaimed
  obtain ⟨answer, after⟩ := alike.served (service.scope.digest service.hashing).text circumstance
    unclaimed
  simp only [starts, startsRespond]
  cases circumstance.fault with
  | none => exact ⟨congrArg Except.ok answer, after⟩
  | some fault =>
      cases fault with
      | requestLost => exact ⟨by rw [answer], alike⟩
      | replyLost => exact ⟨by rw [answer], after⟩

/-- The requests of a run name nothing that is still retained of earlier incarnations. -/
def ApartFrom (retained : StartsWorld)
    (events : List (Event Circumstance Unit StartsCall Retention)) : Prop :=
  (service.starts settings identity).AllowedRun (fun retention world => world.forget retention)
    StartsWorld.Unclaimed events retained (initial retained)

instance (retained : StartsWorld)
    (events : List (Event Circumstance Unit StartsCall Retention)) :
    Decidable (service.ApartFrom settings identity retained events) :=
  inferInstanceAs (Decidable (AllowedRun _ _ _ _ _ _))

/-- How the operations of a run have ended so far. -/
def replies (world : StartsWorld) (events : List (Event Circumstance Unit StartsCall Retention)) :
    List (Option (Except StartsFailure StartsResult)) :=
  ((service.starts settings identity).run events (initial world)).running.map fun entry =>
    entry.2.outcome

/-- Once a scheduled start is cleaned up, all that follows goes as if the identity had never been
used, provided that no request names an arbiter or a run that is still retained of it. -/
theorem incarnation_separate {retained : StartsWorld} (cleaned : retained.schedule = none)
    {events : List (Event Circumstance Unit StartsCall Retention)}
    (apart : service.ApartFrom settings identity retained events) :
    ((service.starts settings identity).run events (initial retained)).running =
        ((service.starts settings identity).run events (initial {})).running ∧
      service.replies settings identity retained events =
        service.replies settings identity {} events := by
  have alike : AlikeBeyond retained retained {} := by
    refine ⟨cleaned, ?_, Option.isNone_iff_eq_none.mp⟩
    intro workflowId unclaimed
    exact Option.isNone_iff_eq_none.mp unclaimed
  have same : ((service.starts settings identity).run events (initial retained)).running =
      ((service.starts settings identity).run events (initial {})).running :=
    Shadows.run (service.starts_answersAlike settings identity)
      (fun _ retention _ _ alike => alike.forget retention) ⟨alike, rfl⟩ apart
  constructor
  · exact same
  · rw [replies, replies, same]

/-! ## A reminder that is used again -/

def reminderIdentity : StartIdentity where
  workflowName := "remind"
  businessRequestId := "request"

/-- `remindingService` with a hash that reads the size of a text. -/
def reusingService : ScheduledStartService :=
  { remindingService with hashing := { sha256 text := Digest.ofNat text.utf8ByteSize } }

theorem reminder_timed : 1 ≤ 30 := by decide

def reminderSettings : ScheduledStartSettings where
  terminalRetentionSeconds := 10
  timed := reminder_timed

def reminderRequest : ScheduledStartCreateRequest where
  startAt := 60

/-- Every request is answered, and no run is there. -/
def answeredAt (now : Nat) : Circumstance where
  now := now
  target := .ok reminderTarget
  admission := .ok ⟨"api", []⟩

/-- One operation, served at once. -/
def through (index : Nat) (called : StartsCall) (now : Nat) :
    List (Event Circumstance Unit StartsCall Retention) :=
  .start () called :: List.replicate 8 (.serve index (answeredAt now))

def reminderStarts : Service StartsReply StartsFailure StartsResult StartsWorld Circumstance Unit
    StartsCall Retention :=
  reusingService.starts reminderSettings reminderIdentity

/-- The reminder is created, canceled and cleaned up. -/
def canceledReminder : List (Event Circumstance Unit StartsCall Retention) :=
  through 0 (.create reminderRequest (Digest.ofNat 1)) 10 ++
    through 1 (.cancel 1 (Digest.ofNat 2)) 20 ++ through 2 (.work 1) 20 ++ through 3 (.work 1) 20 ++
      through 4 .cleanup 30

def laterReminder : PendingScheduledStartRecord :=
  reusingService.createRecord reminderSettings reminderIdentity reminderRequest (Digest.ofNat 3)
    40 ⟨"api", []⟩

/-- The reminder is created anew, and falls due. -/
def dueReminder : List (Event Circumstance Unit StartsCall Retention) :=
  through 0 (.create reminderRequest (Digest.ofNat 3)) 40 ++
    through 1 (.claim (.pending laterReminder)) 60

/-- What Temporal retains of the canceled reminder: the arbiter of its first version. -/
def retainedReminder : StartsWorld :=
  (reminderStarts.run canceledReminder (initial {})).world

/-- The due dispatch of the new reminder is skipped, because the arbiter that canceled the earlier
one has its identity. -/
theorem canceled_arbiter_taken_over :
    retainedReminder.schedule = none ∧
      (reusingService.replies reminderSettings reminderIdentity retainedReminder
        dueReminder)[1]? =
          some (some (.ok (.claim (.skipped
            (ScheduledStartProjectionRecord.pending laterReminder).describe)))) ∧
      (reusingService.replies reminderSettings reminderIdentity {} dueReminder)[1]? =
        some (some (.ok (.claim (.claimed false)))) := by
  decide +kernel

/-- Temporal retains the arbiter of the twelfth version. -/
def laterVersionRetained : StartsWorld where
  arbiters workflowId :=
    if workflowId = reusingService.arbiterId reminderIdentity 12 then
      some ⟨reminderDue, 0, .completed (.stale 12 ((ScheduledStartProjectionRecord.pending
        reminder).describe))⟩
    else none

theorem incarnation_separate_later_version :
    reusingService.replies reminderSettings reminderIdentity laterVersionRetained dueReminder =
      reusingService.replies reminderSettings reminderIdentity {} dueReminder := by
  have apart : reusingService.ApartFrom reminderSettings reminderIdentity laterVersionRetained
      dueReminder := by
    decide +kernel
  exact (@incarnation_separate reusingService reminderSettings reminderIdentity
    laterVersionRetained rfl dueReminder apart).2

end ScheduledStartService

end Justflow
