import Justflow.Engine.Audit

/-!
# State carried between workflow runs

A checkpoint carries the constraints of its model as fields, so an invalid one cannot be built;
the constructors that the engine calls are the `create` functions, which refuse.  Dumping a
checkpoint, sorting its keys on the wire and reading it back gives the same checkpoint with
its JSON data in wire form.
-/

open Fields

namespace Justflow

abbrev JsonObject := List (String × JsonValue)

/-- The fields of an object on the wire. -/
def wireObject (fields : JsonObject) : JsonObject :=
  sortKeys (fields.map fun e => (e.1, e.2.wire))

theorem wire_obj_eq (fields : JsonObject) :
    (JsonValue.obj fields).wire = .obj (wireObject fields) :=
  JsonValue.wire_obj fields

/-- What a field holds after it has crossed the wire. -/
theorem lookup_wireObject (fields : JsonObject) (key : String) :
    (wireObject fields).lookup key = (fields.lookup key).map JsonValue.wire := by
  rw [wireObject, lookup_sortKeys, lookup_map_value]

/-- The key of an iteration: a position of a list, or a key of an object. -/
inductive IterationKey where
  | index (position : Nat)
  | name (key : String)
  deriving DecidableEq, Repr

def IterationKey.text : IterationKey → String
  | .index position => toString position
  | .name key => key

def IterationKey.modelDump : IterationKey → JsonValue
  | .index position => .int position
  | .name key => .str key

def IterationKey.modelValidate : JsonValue → Option IterationKey
  | .int n => if 0 ≤ n then some (.index n.toNat) else none
  | .str s => some (.name s)
  | _ => none

inductive IterationResult where
  | included (key : IterationKey) (value : JsonValue)
  | omitted (key : IterationKey)
  deriving DecidableEq, Repr

def IterationResult.key : IterationResult → IterationKey
  | .included key _ => key
  | .omitted key => key

def IterationResult.wire : IterationResult → IterationResult
  | .included key value => .included key value.wire
  | .omitted key => .omitted key

def IterationResult.modelDump : IterationResult → JsonValue
  | .included key value =>
      .obj [("kind", .str "included"), ("key", key.modelDump), ("value", value)]
  | .omitted key => .obj [("kind", .str "omitted"), ("key", key.modelDump)]

/-- `extra="forbid"`: no key beyond the fields of the model. -/
def onlyKeys (allowed : List String) (v : JsonValue) : Option Unit :=
  match v with
  | .obj fields => if (keys fields).all allowed.contains then some () else none
  | _ => none

def IterationResult.modelValidate (v : JsonValue) : Option IterationResult := do
  let kind ← (← v.field "kind").asStr
  if kind = "included" then
    onlyKeys ["kind", "key", "value"] v
    return .included (← IterationKey.modelValidate (← v.field "key")) (← v.field "value")
  else if kind = "omitted" then
    onlyKeys ["kind", "key"] v
    return .omitted (← IterationKey.modelValidate (← v.field "key"))
  else none

/-- Progress of a `for_each` step between two items or chunks. -/
structure IterationCheckpoint where
  stepName : String
  startedAtEpoch : FiniteFloat
  nextOffset : Nat
  results : List IterationResult
  failed : Nat
  named : stepName ≠ ""
  progress : results.length = nextOffset
  failed_le : failed ≤ nextOffset
  deriving DecidableEq

def IterationCheckpoint.create (stepName : String) (startedAtEpoch : FiniteFloat)
    (nextOffset : Nat) (results : List IterationResult) (failed : Nat) :
    Except String IterationCheckpoint :=
  if named : stepName ≠ "" then
    if progress : results.length = nextOffset then
      if failed_le : failed ≤ nextOffset then
        .ok { stepName, startedAtEpoch, nextOffset, results, failed, named, progress, failed_le }
      else .error "Iteration continuation failure count exceeds processed items"
    else .error "Iteration continuation results do not match its offset"
  else .error "String should have at least 1 character"

theorem IterationCheckpoint.of_create {stepName : String} {startedAtEpoch : FiniteFloat}
    {nextOffset : Nat} {results : List IterationResult} {failed : Nat}
    {checkpoint : IterationCheckpoint}
    (h : create stepName startedAtEpoch nextOffset results failed = .ok checkpoint) :
    checkpoint.stepName = stepName ∧ checkpoint.startedAtEpoch = startedAtEpoch
      ∧ checkpoint.nextOffset = nextOffset ∧ checkpoint.results = results
      ∧ checkpoint.failed = failed := by
  unfold create at h
  split_ifs at h
  cases h
  exact ⟨rfl, rfl, rfl, rfl, rfl⟩

/-- Progress of an `until` step between two attempts. -/
structure UntilCheckpoint where
  stepName : String
  startedAtEpoch : FiniteFloat
  attemptsCompleted : Nat
  lastResult : JsonValue
  named : stepName ≠ ""
  attempted : 1 ≤ attemptsCompleted

instance : DecidableEq UntilCheckpoint := fun first second =>
  decidable_of_iff (first.stepName = second.stepName ∧
    first.startedAtEpoch = second.startedAtEpoch ∧
    first.attemptsCompleted = second.attemptsCompleted ∧ first.lastResult = second.lastResult) <| by
      cases first
      cases second
      simp

def UntilCheckpoint.create (stepName : String) (startedAtEpoch : FiniteFloat)
    (attemptsCompleted : Nat) (lastResult : JsonValue) : Except String UntilCheckpoint :=
  if named : stepName ≠ "" then
    if attempted : 1 ≤ attemptsCompleted then
      .ok { stepName, startedAtEpoch, attemptsCompleted, lastResult, named, attempted }
    else .error "Input should be greater than or equal to 1"
  else .error "String should have at least 1 character"

theorem UntilCheckpoint.of_create {stepName : String} {startedAtEpoch : FiniteFloat}
    {attemptsCompleted : Nat} {lastResult : JsonValue} {checkpoint : UntilCheckpoint}
    (h : create stepName startedAtEpoch attemptsCompleted lastResult = .ok checkpoint) :
    checkpoint.stepName = stepName ∧ checkpoint.startedAtEpoch = startedAtEpoch
      ∧ checkpoint.attemptsCompleted = attemptsCompleted ∧ checkpoint.lastResult = lastResult := by
  unfold create at h
  split_ifs at h
  cases h
  exact ⟨rfl, rfl, rfl, rfl⟩

inductive LoopCheckpoint where
  | iteration (checkpoint : IterationCheckpoint)
  | untilLoop (checkpoint : UntilCheckpoint)
  deriving DecidableEq

def LoopCheckpoint.stepName : LoopCheckpoint → String
  | .iteration checkpoint => checkpoint.stepName
  | .untilLoop checkpoint => checkpoint.stepName

def LoopCheckpoint.startedAtEpoch : LoopCheckpoint → FiniteFloat
  | .iteration checkpoint => checkpoint.startedAtEpoch
  | .untilLoop checkpoint => checkpoint.startedAtEpoch

/-- How far the loop has come: processed items, or completed attempts. -/
def LoopCheckpoint.position : LoopCheckpoint → Nat
  | .iteration checkpoint => checkpoint.nextOffset
  | .untilLoop checkpoint => checkpoint.attemptsCompleted

def LoopCheckpoint.modelDump : LoopCheckpoint → JsonValue
  | .iteration c => .obj [("kind", .str "for_each"), ("step_name", .str c.stepName),
      ("started_at_epoch", .float c.startedAtEpoch), ("next_offset", .int c.nextOffset),
      ("results", .arr (c.results.map IterationResult.modelDump)), ("failed", .int c.failed)]
  | .untilLoop c => .obj [("kind", .str "until"), ("step_name", .str c.stepName),
      ("started_at_epoch", .float c.startedAtEpoch),
      ("attempts_completed", .int c.attemptsCompleted), ("last_result", c.lastResult)]

def LoopCheckpoint.modelValidate (v : JsonValue) : Option LoopCheckpoint := do
  let kind ← (← v.field "kind").asStr
  if kind = "for_each" then
    onlyKeys ["kind", "step_name", "started_at_epoch", "next_offset", "results", "failed"] v
    let checkpoint ← (IterationCheckpoint.create (← (← v.field "step_name").asStr)
      (← (← v.field "started_at_epoch").asFloat) (← (← v.field "next_offset").asNat)
      (← (← (← v.field "results").asArr).mapM IterationResult.modelValidate)
      (← (← v.field "failed").asNat)).toOption
    return .iteration checkpoint
  else if kind = "until" then
    onlyKeys ["kind", "step_name", "started_at_epoch", "attempts_completed", "last_result"] v
    let checkpoint ← (UntilCheckpoint.create (← (← v.field "step_name").asStr)
      (← (← v.field "started_at_epoch").asFloat)
      (← (← v.field "attempts_completed").asNat) (← v.field "last_result")).toOption
    return .untilLoop checkpoint
  else none

structure FailureEpisodeCheckpoint where
  primary : FailureDetail
  handler : String
  handlerSteps : List String
  named : handler ≠ ""
  deriving DecidableEq

def FailureEpisodeCheckpoint.create (primary : FailureDetail) (handler : String)
    (handlerSteps : List String) : Except String FailureEpisodeCheckpoint :=
  if named : handler ≠ "" then .ok { primary, handler, handlerSteps, named }
  else .error "String should have at least 1 character"

def FailureEpisodeCheckpoint.modelDump (self : FailureEpisodeCheckpoint) : JsonValue :=
  .obj [("primary", self.primary.modelDump), ("handler", .str self.handler),
    ("handler_steps", .arr (self.handlerSteps.map .str))]

def FailureEpisodeCheckpoint.modelValidate (v : JsonValue) :
    Option FailureEpisodeCheckpoint := do
  onlyKeys ["primary", "handler", "handler_steps"] v
  (FailureEpisodeCheckpoint.create (← FailureDetail.modelValidate (← v.field "primary"))
    (← (← v.field "handler").asStr)
    (← (← (← v.field "handler_steps").asArr).mapM JsonValue.asStr)).toOption

/-- Everything a run hands to the next one. -/
structure RunnerCheckpoint where
  startedAt : String
  params : JsonObject
  stepOutputs : JsonObject
  stepTimings : List (String × JsonObject)
  transitions : List TransitionRecord
  failures : List StepFailure
  activeEpisode : Option FailureEpisodeCheckpoint
  nextStepName : String
  nextSeq : Nat
  invocations : Nat
  loop : Option LoopCheckpoint
  started : startedAt ≠ ""
  next_named : nextStepName ≠ ""
  deriving DecidableEq

def RunnerCheckpoint.create (startedAt : String) (params stepOutputs : JsonObject)
    (stepTimings : List (String × JsonObject)) (transitions : List TransitionRecord)
    (failures : List StepFailure) (activeEpisode : Option FailureEpisodeCheckpoint)
    (nextStepName : String) (nextSeq invocations : Nat) (loop : Option LoopCheckpoint) :
    Except String RunnerCheckpoint :=
  if started : startedAt ≠ "" then
    if next_named : nextStepName ≠ "" then
      .ok { startedAt, params, stepOutputs, stepTimings, transitions, failures, activeEpisode,
            nextStepName, nextSeq, invocations, loop, started, next_named }
    else .error "String should have at least 1 character"
  else .error "String should have at least 1 character"

def dumpTiming (e : String × JsonObject) : String × JsonValue :=
  (e.1, .obj e.2)

def readTiming (e : String × JsonValue) : Option (String × JsonObject) :=
  e.2.asObj.map fun fields => (e.1, fields)

/-- The entries of the step audit as one object. -/
def timingsObject (timings : List (String × JsonObject)) : JsonObject :=
  timings.map dumpTiming

def RunnerCheckpoint.modelDump (self : RunnerCheckpoint) : JsonValue :=
  .obj [("version", .int 1), ("started_at", .str self.startedAt), ("params", .obj self.params),
    ("step_outputs", .obj self.stepOutputs),
    ("step_timings", .obj (timingsObject self.stepTimings)),
    ("transitions", .arr (self.transitions.map TransitionRecord.modelDump)),
    ("failures", .arr (self.failures.map StepFailure.modelDump)),
    ("active_episode",
      JsonValue.ofOption FailureEpisodeCheckpoint.modelDump self.activeEpisode),
    ("next_step_name", .str self.nextStepName), ("next_seq", .int self.nextSeq),
    ("invocations", .int self.invocations),
    ("loop", JsonValue.ofOption LoopCheckpoint.modelDump self.loop)]

def RunnerCheckpoint.fieldNames : List String :=
  ["version", "started_at", "params", "step_outputs", "step_timings", "transitions", "failures",
    "active_episode", "next_step_name", "next_seq", "invocations", "loop"]

/-- `Literal[1]` with its default. -/
def readVersion (v : JsonValue) : Option Unit :=
  if (v.field "version").getD (.int 1) = .int 1 then some () else none

/-- Read a checkpoint; the two optional fields default to null. -/
def RunnerCheckpoint.modelValidate (v : JsonValue) : Option RunnerCheckpoint := do
  onlyKeys RunnerCheckpoint.fieldNames v
  readVersion v
  (RunnerCheckpoint.create (← (← v.field "started_at").asStr) (← (← v.field "params").asObj)
    (← (← v.field "step_outputs").asObj)
    (← (← (← v.field "step_timings").asObj).mapM readTiming)
    (← (← (← v.field "transitions").asArr).mapM TransitionRecord.modelValidate)
    (← (← (← v.field "failures").asArr).mapM StepFailure.modelValidate)
    (← ((v.field "active_episode").getD .null).asOption FailureEpisodeCheckpoint.modelValidate)
    (← (← v.field "next_step_name").asStr) (← (← v.field "next_seq").asNat)
    (← (← v.field "invocations").asNat)
    (← ((v.field "loop").getD .null).asOption LoopCheckpoint.modelValidate)).toOption

/-! ## Round trips across the wire -/

def LoopCheckpoint.wire : LoopCheckpoint → LoopCheckpoint
  | .iteration c => .iteration { c with
      results := c.results.map IterationResult.wire
      progress := by rw [List.length_map]; exact c.progress }
  | .untilLoop c => .untilLoop { c with lastResult := c.lastResult.wire }

def wireTimings (timings : List (String × JsonObject)) : List (String × JsonObject) :=
  sortKeys (timings.map fun e => (e.1, wireObject e.2))

/-- A checkpoint with its JSON data in wire form. -/
def RunnerCheckpoint.wire (self : RunnerCheckpoint) : RunnerCheckpoint :=
  { self with
    params := wireObject self.params
    stepOutputs := wireObject self.stepOutputs
    stepTimings := wireTimings self.stepTimings
    loop := self.loop.map LoopCheckpoint.wire }

theorem onlyKeys_obj (allowed : List String) (fields : JsonObject) :
    onlyKeys allowed (.obj fields)
      = if (keys fields).all allowed.contains then some () else none := rfl

@[simp]
theorem onlyKeys_wire (allowed : List String) (v : JsonValue) :
    onlyKeys allowed v.wire = onlyKeys allowed v := by
  cases v with
  | obj fields =>
      have hkeys : (keys (sortKeys (fields.map fun e => (e.1, e.2.wire)))).all allowed.contains
          = (keys fields).all allowed.contains := by
        rw [Bool.eq_iff_iff, List.all_eq_true, List.all_eq_true,
          ← JsonValue.keys_map_snd JsonValue.wire fields]
        exact forall_congr' fun key => by rw [(sameFields_sortKeys _).mem_keys_iff]
      simp only [JsonValue.wire_obj, onlyKeys, hkeys]
  | _ => rfl

theorem mapM_map_eq_some {α β γ : Type} {f : β → Option γ} {dump : α → β} {g : α → γ}
    (h : ∀ a, f (dump a) = some (g a)) (items : List α) :
    (items.map dump).mapM f = some (items.map g) := by
  induction items with
  | nil => rfl
  | cons a items ih => simp [List.mapM_cons, h a, ih]

theorem IterationKey.modelValidate_wire (self : IterationKey) :
    IterationKey.modelValidate self.modelDump.wire = some self := by
  cases self <;> simp [IterationKey.modelValidate, IterationKey.modelDump]

theorem IterationResult.modelValidate_wire (self : IterationResult) :
    IterationResult.modelValidate self.modelDump.wire = some self.wire := by
  cases self <;>
    simp [IterationResult.modelValidate, IterationResult.modelDump, IterationResult.wire,
      JsonValue.asStr, List.lookup_cons, onlyKeys_obj, IterationKey.modelValidate_wire,
      -JsonValue.wire_obj]

theorem LoopCheckpoint.modelValidate_wire (self : LoopCheckpoint) :
    LoopCheckpoint.modelValidate self.modelDump.wire = some self.wire := by
  cases self with
  | iteration c =>
      have hresults : (c.results.map (JsonValue.wire ∘ IterationResult.modelDump)).mapM
          IterationResult.modelValidate = some (c.results.map IterationResult.wire) :=
        mapM_map_eq_some (fun r => r.modelValidate_wire) c.results
      simp [LoopCheckpoint.modelValidate, LoopCheckpoint.modelDump, LoopCheckpoint.wire,
        JsonValue.asStr, JsonValue.asFloat, JsonValue.asNat, JsonValue.asArr, List.lookup_cons,
        onlyKeys_obj, hresults, IterationCheckpoint.create, c.named, c.progress, c.failed_le,
        Except.toOption, -JsonValue.wire_obj]
  | untilLoop c =>
      simp [LoopCheckpoint.modelValidate, LoopCheckpoint.modelDump, LoopCheckpoint.wire,
        JsonValue.asStr, JsonValue.asFloat, JsonValue.asNat, List.lookup_cons, onlyKeys_obj,
        UntilCheckpoint.create, c.named, c.attempted, Except.toOption, -JsonValue.wire_obj]

theorem FailureEpisodeCheckpoint.modelValidate_wire (self : FailureEpisodeCheckpoint) :
    FailureEpisodeCheckpoint.modelValidate self.modelDump.wire = some self := by
  have hstr : ∀ s : String, JsonValue.asStr ((JsonValue.wire ∘ JsonValue.str) s) = some (id s) :=
    fun _ => rfl
  have hsteps := mapM_map_eq_some hstr self.handlerSteps
  simp [FailureEpisodeCheckpoint.modelValidate, FailureEpisodeCheckpoint.modelDump,
    JsonValue.asStr, JsonValue.asArr, List.lookup_cons, onlyKeys_obj, hsteps,
    FailureDetail.modelValidate_wire, FailureEpisodeCheckpoint.create, self.named,
    Except.toOption, -JsonValue.wire_obj]

theorem asOption_ofOption {α : Type} {dump : α → JsonValue} {f : JsonValue → Option α}
    {g : α → α} (h : ∀ a, f (dump a).wire = some (g a)) (hnull : ∀ a, (dump a).wire ≠ .null)
    (o : Option α) :
    JsonValue.asOption f (JsonValue.ofOption dump o).wire = some (o.map g) := by
  cases o with
  | none => rfl
  | some a =>
      have ha := hnull a
      simp only [JsonValue.ofOption, Option.map_some]
      generalize hv : (dump a).wire = v at ha
      cases v with
      | null => exact False.elim (ha rfl)
      | _ => simp [JsonValue.asOption, ← hv, h a]

theorem mapM_timings_wire (timings : List (String × JsonObject)) :
    (wireObject (timingsObject timings)).mapM readTiming = some (wireTimings timings) := by
  have hsorted : wireObject (timingsObject timings) = (wireTimings timings).map dumpTiming := by
    have hmap := sortKeys_map (fun e : String × JsonObject => JsonValue.obj e.2)
      (timings.map fun e => (e.1, wireObject e.2))
    simp only [List.map_map, Function.comp_def] at hmap
    simp only [wireObject, timingsObject, List.map_map, Function.comp_def, dumpTiming,
      wire_obj_eq]
    exact hmap
  have hread : ∀ e, readTiming (dumpTiming e) = some (id e) := fun _ => rfl
  rw [hsorted, mapM_map_eq_some hread, List.map_id]

/-- Reading back what crossed the wire gives the checkpoint in wire form. -/
theorem RunnerCheckpoint.modelValidate_wire (self : RunnerCheckpoint) :
    RunnerCheckpoint.modelValidate self.modelDump.wire = some self.wire := by
  have hkeys : onlyKeys RunnerCheckpoint.fieldNames self.modelDump.wire = some () := by
    rw [onlyKeys_wire]
    rfl
  have hfield : ∀ key v, self.modelDump.field key = some v →
      self.modelDump.wire.field key = some v.wire := by
    intro key v hv
    rw [JsonValue.field_wire, hv, Option.map_some]
  have htransition : ∀ t, TransitionRecord.modelValidate
      ((JsonValue.wire ∘ TransitionRecord.modelDump) t) = some (id t) :=
    fun t => t.modelValidate_wire
  have hfailure : ∀ f, StepFailure.modelValidate
      ((JsonValue.wire ∘ StepFailure.modelDump) f) = some (id f) :=
    fun f => f.modelValidate_wire
  have hread : ∀ e : FailureEpisodeCheckpoint,
      FailureEpisodeCheckpoint.modelValidate e.modelDump.wire = some (id e) :=
    fun e => e.modelValidate_wire
  have hepisode := asOption_ofOption hread
    (fun e => by simp [FailureEpisodeCheckpoint.modelDump]) self.activeEpisode
  have hloop := asOption_ofOption (fun l : LoopCheckpoint => l.modelValidate_wire)
    (fun l => by cases l <;> simp [LoopCheckpoint.modelDump]) self.loop
  simp only [RunnerCheckpoint.modelValidate, readVersion, hkeys, hfield "version" _ rfl,
    hfield "started_at" _ rfl, hfield "params" _ rfl, hfield "step_outputs" _ rfl,
    hfield "step_timings" _ rfl, hfield "transitions" _ rfl, hfield "failures" _ rfl,
    hfield "active_episode" _ rfl, hfield "next_step_name" _ rfl, hfield "next_seq" _ rfl,
    hfield "invocations" _ rfl, hfield "loop" _ rfl, Option.getD_some, hepisode, hloop,
    wire_obj_eq, JsonValue.wire_str, JsonValue.wire_int, JsonValue.wire_arr, List.map_map,
    JsonValue.asStr, JsonValue.asArr, JsonValue.asObj, JsonValue.asNat, if_true,
    Option.bind_eq_bind, Option.bind_some]
  rw [mapM_timings_wire, mapM_map_eq_some htransition, mapM_map_eq_some hfailure]
  simp [RunnerCheckpoint.create, self.started, self.next_named, Except.toOption,
    RunnerCheckpoint.wire]

end Justflow
