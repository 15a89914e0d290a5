import Justflow.Library.Interference

/-!
# A run and its shadow

The same events over two worlds.  A ghost says in what the worlds may differ; it changes only when
the world changes by itself.  While every served request is one that the ghost allows, the two
worlds answer alike, so that no process can tell in which of them it runs.
-/

namespace Service

variable {Request : Type} {Reply : Request → Type}
  {ε α World Choice Actor Call Tick Ghost : Type}

/-- The event serves no request but allowed ones. -/
def Config.Serves (Allowed : Request → Prop) (config : Config Reply ε α World Actor) :
    Event Choice Actor Call Tick → Prop
  | .serve index _ => ∀ request, config.waiting index = some request → Allowed request
  | _ => True

instance {Allowed : Request → Prop} [DecidablePred Allowed]
    (config : Config Reply ε α World Actor) (event : Event Choice Actor Call Tick) :
    Decidable (config.Serves Allowed event) :=
  match event with
  | .start _ _ => isTrue trivial
  | .stop _ => isTrue trivial
  | .tick _ => isTrue trivial
  | .serve index _ =>
      decidable_of_iff ((config.waiting index).all fun request => decide (Allowed request)) (by
        simp only [Config.Serves, Option.all_eq_true, decide_eq_true_eq])

/-- The ghost after an event. -/
def ghostAfter (pass : Tick → Ghost → Ghost) : Event Choice Actor Call Tick → Ghost → Ghost
  | .tick change, ghost => pass change ghost
  | _, ghost => ghost

section Runs

variable (service : Service Reply ε α World Choice Actor Call Tick) (pass : Tick → Ghost → Ghost)
  (Allowed : Ghost → Request → Prop)

/-- Every event of the run serves allowed requests only. -/
def AllowedRun : List (Event Choice Actor Call Tick) → Ghost → Config Reply ε α World Actor → Prop
  | [], _, _ => True
  | event :: events, ghost, config =>
      config.Serves (Allowed ghost) event ∧
        AllowedRun events (ghostAfter pass event ghost) (service.handle config event)

instance decidableAllowedRun [∀ ghost, DecidablePred (Allowed ghost)] :
    (events : List (Event Choice Actor Call Tick)) → (ghost : Ghost) →
      (config : Config Reply ε α World Actor) →
        Decidable (service.AllowedRun pass Allowed events ghost config)
  | [], _, _ => isTrue trivial
  | event :: events, ghost, config =>
      let _ := decidableAllowedRun events (ghostAfter pass event ghost)
        (service.handle config event)
      inferInstanceAs (Decidable (_ ∧ _))

end Runs

variable {service : Service Reply ε α World Choice Actor Call Tick} {pass : Tick → Ghost → Ghost}
  {Allowed : Ghost → Request → Prop} {Alike : Ghost → World → World → Prop}

/-- Alike worlds with the same processes. -/
structure Shadows (Alike : Ghost → World → World → Prop) (ghost : Ghost)
    (config shadow : Config Reply ε α World Actor) : Prop where
  world : Alike ghost config.world shadow.world
  running : config.running = shadow.running

/-- Alike worlds answer every allowed request alike, and stay alike. -/
def AnswersAlike (service : Service Reply ε α World Choice Actor Call Tick)
    (Allowed : Ghost → Request → Prop) (Alike : Ghost → World → World → Prop) : Prop :=
  ∀ ghost choice world shadow request, Alike ghost world shadow → Allowed ghost request →
    (service.respond choice world request).1 = (service.respond choice shadow request).1 ∧
      Alike ghost (service.respond choice world request).2
        (service.respond choice shadow request).2

/-- One event. -/
theorem Shadows.handle (answers : AnswersAlike service Allowed Alike)
    (elapsed : ∀ ghost change world shadow, Alike ghost world shadow →
      Alike (pass change ghost) (service.elapse change world) (service.elapse change shadow))
    {ghost : Ghost} {config shadow : Config Reply ε α World Actor}
    (similar : Shadows Alike ghost config shadow) {event : Event Choice Actor Call Tick}
    (allowed : config.Serves (Allowed ghost) event) :
    Shadows Alike (ghostAfter pass event ghost) (service.handle config event)
      (service.handle shadow event) := by
  obtain ⟨world, past, running⟩ := config
  obtain ⟨shadowWorld, shadowPast, shadowRunning⟩ := shadow
  obtain ⟨alike, rfl⟩ := similar
  cases event with
  | start actor call => exact ⟨alike, rfl⟩
  | stop index => exact ⟨alike, rfl⟩
  | tick change => exact ⟨elapsed ghost change _ _ alike, rfl⟩
  | serve index choice =>
      rw [Service.handle, Service.handle]
      simp only [Config.Serves, Config.waiting] at allowed
      cases waiting : running[index]? with
      | none => exact ⟨alike, rfl⟩
      | some entry =>
          obtain ⟨actor, process⟩ := entry
          cases process with
          | done value => exact ⟨alike, rfl⟩
          | fail error => exact ⟨alike, rfl⟩
          | ask request resume =>
              rw [waiting] at allowed
              obtain ⟨answer, after⟩ := answers ghost choice _ _ request alike (allowed request rfl)
              refine ⟨after, ?_⟩
              simp only [answer]

/-- A whole run. -/
theorem Shadows.run (answers : AnswersAlike service Allowed Alike)
    (elapsed : ∀ ghost change world shadow, Alike ghost world shadow →
      Alike (pass change ghost) (service.elapse change world) (service.elapse change shadow))
    {events : List (Event Choice Actor Call Tick)} {ghost : Ghost}
    {config shadow : Config Reply ε α World Actor}
    (similar : Shadows Alike ghost config shadow)
    (allowed : service.AllowedRun pass Allowed events ghost config) :
    (service.run events config).running = (service.run events shadow).running := by
  induction events generalizing ghost config shadow with
  | nil => exact similar.running
  | cons event events ih =>
      rw [run_cons, run_cons]
      exact ih (similar.handle answers elapsed allowed.1) allowed.2

end Service
