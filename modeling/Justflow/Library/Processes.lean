import Mathlib.Data.List.Basic

/-!
# Processes that share a service

A process is a program that talks to a shared service one atomic request at a time and that may
be stopped between any two of them.  A system runs any number of processes over one world: an
event starts a call, serves the next request of one process, stops a process, or lets the world
change by itself.  What the service cannot determine is an explicit choice, so that a run is a
fold over its events.

The history of a run lists the worlds it went through, latest first.  `Keeps` is the judgement
about one process: whatever the others do between its requests, every change it makes is a
permitted `Step`, and it ends with its postcondition.  Histories only grow, so knowledge about
the past needs no stability argument.  `sound_run` puts the processes together.
-/

universe u v

/-- A computation that asks a service, one atomic request at a time. -/
inductive Process {Request : Type} (Reply : Request → Type) (ε α : Type) where
  | done (value : α)
  | fail (error : ε)
  | ask (request : Request) (resume : Except ε (Reply request) → Process Reply ε α)

namespace Process

variable {Request : Type} {Reply : Request → Type} {ε α β : Type}

def bind : Process Reply ε α → (α → Process Reply ε β) → Process Reply ε β
  | .done value, next => next value
  | .fail error, _ => .fail error
  | .ask request resume, next => .ask request fun reply => (resume reply).bind next

/-- Run a handler when the process fails. -/
def rescue : Process Reply ε α → (ε → Process Reply ε α) → Process Reply ε α
  | .done value, _ => .done value
  | .fail error, handler => handler error
  | .ask request resume, handler => .ask request fun reply => (resume reply).rescue handler

instance : Monad (Process Reply ε) where
  pure := .done
  bind := bind

instance : MonadExceptOf ε (Process Reply ε) where
  throw := .fail
  tryCatch := rescue

/-- One request, whose refusal is raised. -/
def call (request : Request) : Process Reply ε (Reply request) :=
  .ask request fun
    | .ok reply => .done reply
    | .error error => .fail error

/-- Run a pure computation that may raise. -/
def lift : Except ε α → Process Reply ε α
  | .ok value => .done value
  | .error error => .fail error

/-- Run one process for each item, in order. -/
def forEach {γ : Type} (items : List γ) (body : γ → Process Reply ε Unit) :
    Process Reply ε Unit :=
  match items with
  | [] => .done ()
  | item :: rest => (body item).bind fun _ => forEach rest body

@[simp] theorem pure_eq (value : α) : (Pure.pure value : Process Reply ε α) = .done value := rfl

@[simp] theorem throw_eq (error : ε) :
    (MonadExcept.throw error : Process Reply ε α) = .fail error := rfl

@[simp] theorem throwOf_eq (error : ε) :
    (MonadExceptOf.throw error : Process Reply ε α) = .fail error := rfl

@[simp] theorem done_bind (value : α) (next : α → Process Reply ε β) :
    (Process.done value >>= next) = next value := rfl

@[simp] theorem fail_bind (error : ε) (next : α → Process Reply ε β) :
    ((Process.fail error : Process Reply ε α) >>= next) = .fail error := rfl

@[simp] theorem lift_ok (value : α) : (lift (.ok value) : Process Reply ε α) = .done value := rfl

@[simp] theorem lift_error (error : ε) :
    (lift (.error error) : Process Reply ε α) = .fail error := rfl

/-- How a process ended, if it did. -/
def outcome : Process Reply ε α → Option (Except ε α)
  | .done value => some (.ok value)
  | .fail error => some (.error error)
  | .ask _ _ => none

end Process

/-- A shared service and the programs that use it. -/
structure Service {Request : Type} (Reply : Request → Type)
    (ε α World Choice Actor Call Tick : Type) where
  respond : Choice → World → (request : Request) → Except ε (Reply request) × World
  program : Actor → Call → Process Reply ε α
  elapse : Tick → World → World

namespace Service

variable {Request : Type} {Reply : Request → Type} {ε α β World Choice Actor Call Tick : Type}

/-- What happens next in a run. -/
inductive Event (Choice Actor Call Tick : Type) where
  | start (actor : Actor) (call : Call)
  | serve (index : Nat) (choice : Choice)
  | stop (index : Nat)
  | tick (change : Tick)
  deriving Repr

/-- The world, the worlds before it, and the processes under way. -/
structure Config {Request : Type} (Reply : Request → Type) (ε α World Actor : Type) where
  world : World
  past : List World
  running : List (Actor × Process Reply ε α)

def Config.history (config : Config Reply ε α World Actor) : List World :=
  config.world :: config.past

def initial (world : World) : Config Reply ε α World Actor :=
  ⟨world, [], []⟩

variable (service : Service Reply ε α World Choice Actor Call Tick)

/-- One event; an event that names no waiting process changes nothing. -/
def handle (config : Config Reply ε α World Actor) :
    Event Choice Actor Call Tick → Config Reply ε α World Actor
  | .start actor call =>
      { config with running := config.running ++ [(actor, service.program actor call)] }
  | .serve index choice =>
      match config.running[index]? with
      | some (actor, .ask request resume) =>
          let answer := service.respond choice config.world request
          { world := answer.2
            past := config.world :: config.past
            running := config.running.set index (actor, resume answer.1) }
      | _ => config
  | .stop index => { config with running := config.running.eraseIdx index }
  | .tick change =>
      { config with world := service.elapse change config.world
                    past := config.world :: config.past }

def run (events : List (Event Choice Actor Call Tick)) (config : Config Reply ε α World Actor) :
    Config Reply ε α World Actor :=
  events.foldl service.handle config

@[simp]
theorem run_nil (config : Config Reply ε α World Actor) : service.run [] config = config := rfl

@[simp]
theorem run_cons (event : Event Choice Actor Call Tick)
    (events : List (Event Choice Actor Call Tick)) (config : Config Reply ε α World Actor) :
    service.run (event :: events) config = service.run events (service.handle config event) := rfl

theorem run_append (first second : List (Event Choice Actor Call Tick))
    (config : Config Reply ε α World Actor) :
    service.run (first ++ second) config = service.run second (service.run first config) :=
  List.foldl_append

/-- The actor whose request an event serves. -/
def Config.served (config : Config Reply ε α World Actor) :
    Event Choice Actor Call Tick → Option Actor
  | .serve index _ =>
      match config.running[index]? with
      | some (actor, .ask _ _) => some actor
      | _ => none
  | _ => none

/-! ## Histories -/

/-- Some moment of the history has the property. -/
def Once (P : World → Prop) (history : List World) : Prop :=
  ∃ world ∈ history, P world

theorem Once.later {P : World → Prop} {history later : List World} (once : Once P history)
    (grows : history <:+ later) : Once P later := by
  obtain ⟨world, hworld, holds⟩ := once
  exact ⟨world, grows.subset hworld, holds⟩

theorem Once.mono {P Q : World → Prop} {history : List World} (once : Once P history)
    (h : ∀ world, P world → Q world) : Once Q history := by
  obtain ⟨world, hworld, holds⟩ := once
  exact ⟨world, hworld, h world holds⟩

theorem Once.now {P : World → Prop} {world : World} {past : List World} (h : P world) :
    Once P (world :: past) :=
  ⟨world, List.mem_cons_self, h⟩

/-- Each world follows from the history before it. -/
inductive Lawful (Move : List World → World → Prop) (start : World) : List World → Prop where
  | start : Lawful Move start [start]
  | next {world next : World} {past : List World} (before : Lawful Move start (world :: past))
      (move : Move (world :: past) next) : Lawful Move start (next :: world :: past)

namespace Lawful

variable {Move : List World → World → Prop} {start : World}

/-- What the start has and every move preserves, every world of the history has. -/
theorem always {P : World → Prop} {history : List World} (lawful : Lawful Move start history)
    (hstart : P start)
    (hmove : ∀ world past next, Lawful Move start (world :: past) → (∀ w ∈ world :: past, P w) →
      Move (world :: past) next → P next) : ∀ world ∈ history, P world := by
  induction lawful with
  | start => simpa using hstart
  | @next world next past before move ih =>
      intro w hw
      rcases List.mem_cons.mp hw with rfl | hw
      · exact hmove _ _ _ before ih move
      · exact ih w hw

/-- The same for a property of histories. -/
theorem induct {P : List World → Prop} {history : List World}
    (lawful : Lawful Move start history) (hstart : P [start])
    (hmove : ∀ world past next, Lawful Move start (world :: past) → P (world :: past) →
      Move (world :: past) next → P (next :: world :: past)) : P history := by
  induction lawful with
  | start => exact hstart
  | next before move ih => exact hmove _ _ _ before ih move

/-- An initial part of a lawful history is lawful. -/
theorem suffix {history earlier : List World} (lawful : Lawful Move start history)
    (h : earlier <:+ history) (hne : earlier ≠ []) : Lawful Move start earlier := by
  induction lawful with
  | start =>
      rcases List.suffix_cons_iff.mp h with rfl | h
      · exact .start
      · exact absurd (List.suffix_nil.mp h) hne
  | @next world next past before move ih =>
      rcases List.suffix_cons_iff.mp h with rfl | h
      · exact .next before move
      · exact ih h

theorem mono {Move' : List World → World → Prop} {history : List World}
    (lawful : Lawful Move start history)
    (h : ∀ past next, Move past next → Move' past next) : Lawful Move' start history := by
  induction lawful with
  | start => exact .start
  | next before move ih => exact .next ih (h _ _ move)

end Lawful

/-! ## The judgement about one process -/

section Judgement

variable (respond : Choice → World → (request : Request) → Except ε (Reply request) × World)
  (Valid : List World → Prop) (Step : List World → World → Prop)

/-- Served at any later time, each request makes a permitted step. -/
def Keeps (Post : Except ε α → List World → Prop) :
    Process Reply ε α → List World → Prop
  | .done value, history => Post (.ok value) history
  | .fail error, history => Post (.error error) history
  | .ask request resume, history =>
      ∀ world past, history <:+ world :: past → Valid (world :: past) → ∀ choice,
        Step (world :: past) (respond choice world request).2 ∧
          Keeps Post (resume (respond choice world request).1)
            ((respond choice world request).2 :: world :: past)

variable {respond} {Valid} {Step}
variable {Post Post' : Except ε α → List World → Prop} {history later : List World}

namespace Keeps

@[simp]
theorem done_iff {value : α} :
    Keeps respond Valid Step Post (.done value) history ↔ Post (.ok value) history := Iff.rfl

@[simp]
theorem fail_iff {error : ε} :
    Keeps respond Valid Step Post (.fail error) history ↔ Post (.error error) history := Iff.rfl

theorem mono {p : Process Reply ε α} (h : Keeps respond Valid Step Post p history)
    (hPost : ∀ result later, history <:+ later → Post result later → Post' result later) :
    Keeps respond Valid Step Post' p history := by
  induction p generalizing history with
  | done value => exact hPost _ _ List.suffix_rfl h
  | fail error => exact hPost _ _ List.suffix_rfl h
  | ask request resume ih =>
      intro world past suffix valid choice
      obtain ⟨step, rest⟩ := h world past suffix valid choice
      refine ⟨step, ih _ rest ?_⟩
      intro result later hlater
      exact hPost result later ((suffix.trans (List.suffix_cons _ _)).trans hlater)

/-- A process that waits loses nothing. -/
theorem wait {p : Process Reply ε α} (h : Keeps respond Valid Step Post p history)
    (grows : history <:+ later)
    (hPost : ∀ result, Post result history → Post result later) :
    Keeps respond Valid Step Post p later := by
  cases p with
  | done value => exact hPost _ h
  | fail error => exact hPost _ h
  | ask request resume => exact fun world past suffix => h world past (grows.trans suffix)

theorem bind {p : Process Reply ε α} {next : α → Process Reply ε β}
    {Q : Except ε β → List World → Prop}
    (h : Keeps respond Valid Step Post p history)
    (hok : ∀ value later, history <:+ later → Post (.ok value) later →
      Keeps respond Valid Step Q (next value) later)
    (herror : ∀ error later, history <:+ later → Post (.error error) later →
      Q (.error error) later) :
    Keeps respond Valid Step Q (p >>= next) history := by
  induction p generalizing history with
  | done value => exact hok _ _ List.suffix_rfl h
  | fail error => exact herror _ _ List.suffix_rfl h
  | ask request resume ih =>
      intro world past suffix valid choice
      obtain ⟨step, rest⟩ := h world past suffix valid choice
      have grows := suffix.trans (List.suffix_cons (respond choice world request).2 (world :: past))
      exact ⟨step, ih _ rest (fun value later hlater => hok value later (grows.trans hlater))
        fun error later hlater => herror error later (grows.trans hlater)⟩

theorem rescue {p : Process Reply ε α} {handler : ε → Process Reply ε α}
    (h : Keeps respond Valid Step Post p history)
    (hok : ∀ value later, history <:+ later → Post (.ok value) later → Post' (.ok value) later)
    (herror : ∀ error later, history <:+ later → Post (.error error) later →
      Keeps respond Valid Step Post' (handler error) later) :
    Keeps respond Valid Step Post' (tryCatch p handler) history := by
  induction p generalizing history with
  | done value => exact hok _ _ List.suffix_rfl h
  | fail error => exact herror _ _ List.suffix_rfl h
  | ask request resume ih =>
      intro world past suffix valid choice
      obtain ⟨step, rest⟩ := h world past suffix valid choice
      have grows := suffix.trans (List.suffix_cons (respond choice world request).2 (world :: past))
      exact ⟨step, ih _ rest (fun value later hlater => hok value later (grows.trans hlater))
        fun error later hlater => herror error later (grows.trans hlater)⟩

theorem call {request : Request} {Post : Except ε (Reply request) → List World → Prop}
    (h : ∀ world past, history <:+ world :: past → Valid (world :: past) → ∀ choice,
      Step (world :: past) (respond choice world request).2 ∧
        Post (respond choice world request).1
          ((respond choice world request).2 :: world :: past)) :
    Keeps respond Valid Step Post (Process.call request) history := by
  intro world past suffix valid choice
  obtain ⟨step, post⟩ := h world past suffix valid choice
  refine ⟨step, ?_⟩
  cases hanswer : (respond choice world request).1 with
  | ok reply => simpa [hanswer] using post
  | error error => simpa [hanswer] using post

/-- A loop whose body keeps one postcondition keeps it to its end. -/
theorem forEach {γ : Type} {items : List γ} {body : γ → Process Reply ε Unit}
    {Post : Except ε Unit → List World → Prop}
    (hstart : Post (.ok ()) history)
    (hbody : ∀ item ∈ items, ∀ later, history <:+ later → Post (.ok ()) later →
      Keeps respond Valid Step Post (body item) later) :
    Keeps respond Valid Step Post (Process.forEach items body) history := by
  induction items generalizing history with
  | nil => exact hstart
  | cons item rest ih =>
      apply bind (hbody item List.mem_cons_self history List.suffix_rfl hstart)
      · intro _ later hlater post
        exact ih post fun other hother final hfinal =>
          hbody other (List.mem_cons_of_mem _ hother) final (hlater.trans hfinal)
      · intro error later _ post
        exact post

theorem lift {result : Except ε α} (h : Post result history) :
    Keeps respond Valid Step Post (Process.lift result) history := by
  cases result <;> exact h

end Keeps

end Judgement

/-! ## The system -/

/-- A move of the system is a step of some actor or a change by itself. -/
def Moves (Step : Actor → List World → World → Prop) (past : List World) (next : World) : Prop :=
  (∃ actor, Step actor past next) ∨
    ∃ world change, past.head? = some world ∧ next = service.elapse change world

/-- What holds of a configuration at any time of a run. -/
structure Sound (Step : Actor → List World → World → Prop)
    (Post : Actor → Except ε α → List World → Prop) (start : World)
    (config : Config Reply ε α World Actor) : Prop where
  lawful : Lawful (service.Moves Step) start config.history
  running : ∀ entry ∈ config.running,
    Keeps service.respond (Lawful (service.Moves Step) start) (Step entry.1) (Post entry.1)
      entry.2 config.history

variable {service}
variable {Step : Actor → List World → World → Prop}
  {Post : Actor → Except ε α → List World → Prop} {start : World}

theorem Sound.handle {config : Config Reply ε α World Actor}
    (hPost : ∀ actor result history later, history <:+ later → Post actor result history →
      Post actor result later)
    (programs : ∀ actor call history, Lawful (service.Moves Step) start history →
      Keeps service.respond (Lawful (service.Moves Step) start) (Step actor) (Post actor)
        (service.program actor call) history)
    (sound : service.Sound Step Post start config) (event : Event Choice Actor Call Tick) :
    service.Sound Step Post start (service.handle config event) := by
  cases event with
  | start actor call =>
      refine ⟨sound.lawful, fun entry hentry => ?_⟩
      rcases List.mem_append.mp hentry with hentry | hentry
      · exact sound.running entry hentry
      · obtain rfl := List.mem_singleton.mp hentry
        exact programs actor call _ sound.lawful
  | serve index choice =>
      simp only [Service.handle]
      split
      · next actor request resume hat =>
          have hmem : (actor, Process.ask request resume) ∈ config.running :=
            List.mem_of_getElem? hat
          obtain ⟨step, rest⟩ := sound.running _ hmem config.world config.past
            List.suffix_rfl sound.lawful choice
          refine ⟨.next sound.lawful (.inl ⟨actor, step⟩), fun entry hentry => ?_⟩
          rcases List.mem_or_eq_of_mem_set hentry with hentry | rfl
          · exact (sound.running entry hentry).wait (List.suffix_cons _ _)
              fun result => hPost _ result _ _ (List.suffix_cons _ _)
          · exact rest
      · exact sound
  | stop index =>
      exact ⟨sound.lawful, fun entry hentry => sound.running entry (List.mem_of_mem_eraseIdx hentry)⟩
  | tick change =>
      refine ⟨.next sound.lawful (.inr ⟨config.world, change, rfl, rfl⟩), fun entry hentry => ?_⟩
      exact (sound.running entry hentry).wait (List.suffix_cons _ _)
        fun result => hPost _ result _ _ (List.suffix_cons _ _)

theorem Sound.run {config : Config Reply ε α World Actor}
    (hPost : ∀ actor result history later, history <:+ later → Post actor result history →
      Post actor result later)
    (programs : ∀ actor call history, Lawful (service.Moves Step) start history →
      Keeps service.respond (Lawful (service.Moves Step) start) (Step actor) (Post actor)
        (service.program actor call) history)
    (sound : service.Sound Step Post start config) (events : List (Event Choice Actor Call Tick)) :
    service.Sound Step Post start (service.run events config) := by
  induction events generalizing config with
  | nil => exact sound
  | cons event events ih => exact ih (sound.handle hPost programs event)

theorem sound_initial : service.Sound Step Post start (initial start) :=
  ⟨.start, fun _ hentry => absurd hentry List.not_mem_nil⟩

/-- Served, a process makes a step of its actor. -/
theorem Sound.step {config : Config Reply ε α World Actor}
    (sound : service.Sound Step Post start config) {event : Event Choice Actor Call Tick}
    {actor : Actor} (served : config.served event = some actor) :
    Step actor config.history (service.handle config event).world := by
  cases event with
  | serve index choice =>
      simp only [Config.served] at served
      split at served
      · next other request resume hat =>
          cases served
          have hmem : (actor, Process.ask request resume) ∈ config.running :=
            List.mem_of_getElem? hat
          obtain ⟨step, _⟩ := sound.running _ hmem config.world config.past
            List.suffix_rfl sound.lawful choice
          simp only [Service.handle, hat]
          exact step
      · cases served
  | _ => cases served

/-- Every run of programs that keep their steps is sound. -/
theorem sound_run
    (programs : ∀ actor call history, Lawful (service.Moves Step) start history →
      Keeps service.respond (Lawful (service.Moves Step) start) (Step actor) (fun _ _ => True)
        (service.program actor call) history)
    (events : List (Event Choice Actor Call Tick)) :
    service.Sound Step (fun _ _ _ => True) start (service.run events (initial start)) :=
  Sound.run (fun _ _ _ _ _ _ => trivial) programs sound_initial events

end Service
