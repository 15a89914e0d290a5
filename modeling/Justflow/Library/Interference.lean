import Justflow.Library.Processes

/-!
# Processes that rely on what others leave alone

A process may need the world to be in some condition when its next request is served, and has to
rely on the other processes for it.  `Careful` is the judgement about one process: its next
request meets its precondition now, and served at any time at which it still does, the request
keeps the invariant of the world and leaves a careful process.

Preconditions are not kept by every interleaving.  `Clash` says which requests spoil the
precondition of which others, and a run is undisturbed when no request is served while one that
it clashes with is waiting.  In undisturbed runs the invariant holds throughout
(`invariant_of_undisturbed`).
-/

universe u

namespace Service

variable {Request : Type} {Reply : Request → Type} {ε α β World Choice Actor Call Tick : Type}

section Judgement

variable (respond : Choice → World → (request : Request) → Except ε (Reply request) × World)
  (Inv : World → Prop) (Allowed Pre : World → Request → Prop)

/-- A process whose requests keep the invariant, as long as their preconditions are left alone. -/
def Careful (Post : Except ε α → World → Prop) : Process Reply ε α → World → Prop
  | .done value, world => Post (.ok value) world
  | .fail error, world => Post (.error error) world
  | .ask request resume, world =>
      Pre world request ∧ ∀ later, Inv later → Allowed later request → Pre later request →
        ∀ choice, Inv (respond choice later request).2 ∧
          Careful Post (resume (respond choice later request).1)
            (respond choice later request).2

variable {respond Inv Allowed Pre}
variable {Post Post' : Except ε α → World → Prop} {world : World}

namespace Careful

@[simp]
theorem done_iff {value : α} :
    Careful respond Inv Allowed Pre Post (.done value) world ↔ Post (.ok value) world := Iff.rfl

@[simp]
theorem fail_iff {error : ε} :
    Careful respond Inv Allowed Pre Post (.fail error) world ↔ Post (.error error) world := Iff.rfl

theorem mono {p : Process Reply ε α} (h : Careful respond Inv Allowed Pre Post p world)
    (hPost : ∀ result later, Post result later → Post' result later) :
    Careful respond Inv Allowed Pre Post' p world := by
  induction p generalizing world with
  | done value => exact hPost _ _ h
  | fail error => exact hPost _ _ h
  | ask request resume ih =>
      obtain ⟨pre, serve⟩ := h
      refine ⟨pre, fun later inv allowed hpre choice => ?_⟩
      obtain ⟨kept, rest⟩ := serve later inv allowed hpre choice
      exact ⟨kept, ih _ rest⟩

/-- A careful process keeps a second invariant that its requests keep beside the first. -/
theorem strengthen {Inv' : World → Prop} {Allowed' : World → Request → Prop}
    {p : Process Reply ε α} (h : Careful respond Inv Allowed Pre Post p world)
    (kept : ∀ later request choice, Inv later → Inv' later → Allowed later request →
      Allowed' later request → Pre later request → Inv' (respond choice later request).2) :
    Careful respond (fun later => Inv later ∧ Inv' later)
      (fun later request => Allowed later request ∧ Allowed' later request) Pre Post p world := by
  induction p generalizing world with
  | done value => exact h
  | fail error => exact h
  | ask request resume ih =>
      obtain ⟨pre, serve⟩ := h
      refine ⟨pre, fun later inv allowed hpre choice => ?_⟩
      obtain ⟨hinv, rest⟩ := serve later inv.1 allowed.1 hpre choice
      exact ⟨⟨hinv, kept later request choice inv.1 inv.2 allowed.1 allowed.2 hpre⟩, ih _ rest⟩

theorem bind {p : Process Reply ε α} {next : α → Process Reply ε β}
    {Q : Except ε β → World → Prop} (h : Careful respond Inv Allowed Pre Post p world)
    (hok : ∀ value later, Post (.ok value) later →
      Careful respond Inv Allowed Pre Q (next value) later)
    (herror : ∀ error later, Post (.error error) later → Q (.error error) later) :
    Careful respond Inv Allowed Pre Q (p >>= next) world := by
  induction p generalizing world with
  | done value => exact hok _ _ h
  | fail error => exact herror _ _ h
  | ask request resume ih =>
      obtain ⟨pre, serve⟩ := h
      refine ⟨pre, fun later inv allowed hpre choice => ?_⟩
      obtain ⟨kept, rest⟩ := serve later inv allowed hpre choice
      exact ⟨kept, ih _ rest⟩

theorem rescue {p : Process Reply ε α} {handler : ε → Process Reply ε α}
    (h : Careful respond Inv Allowed Pre Post p world)
    (hok : ∀ value later, Post (.ok value) later → Post' (.ok value) later)
    (herror : ∀ error later, Post (.error error) later →
      Careful respond Inv Allowed Pre Post' (handler error) later) :
    Careful respond Inv Allowed Pre Post' (tryCatch p handler) world := by
  induction p generalizing world with
  | done value => exact hok _ _ h
  | fail error => exact herror _ _ h
  | ask request resume ih =>
      obtain ⟨pre, serve⟩ := h
      refine ⟨pre, fun later inv allowed hpre choice => ?_⟩
      obtain ⟨kept, rest⟩ := serve later inv allowed hpre choice
      exact ⟨kept, ih _ rest⟩

theorem call {request : Request} {Post : Except ε (Reply request) → World → Prop}
    (pre : Pre world request)
    (h : ∀ later, Inv later → Allowed later request → Pre later request → ∀ choice,
      Inv (respond choice later request).2 ∧
        Post (respond choice later request).1 (respond choice later request).2) :
    Careful respond Inv Allowed Pre Post (Process.call request) world := by
  refine ⟨pre, fun later inv allowed hpre choice => ?_⟩
  obtain ⟨kept, post⟩ := h later inv allowed hpre choice
  refine ⟨kept, ?_⟩
  cases hanswer : (respond choice later request).1 with
  | ok reply => simpa [hanswer] using post
  | error error => simpa [hanswer] using post

theorem forEach {γ : Type} {items : List γ} {body : γ → Process Reply ε Unit}
    {Post : Except ε Unit → World → Prop} (hstart : Post (.ok ()) world)
    (hbody : ∀ item ∈ items, ∀ later, Post (.ok ()) later →
      Careful respond Inv Allowed Pre Post (body item) later) :
    Careful respond Inv Allowed Pre Post (Process.forEach items body) world := by
  induction items generalizing world with
  | nil => exact hstart
  | cons item rest ih =>
      apply bind (hbody item List.mem_cons_self world hstart)
      · intro _ later post
        exact ih post fun other hother => hbody other (List.mem_cons_of_mem _ hother)
      · intro error later post
        exact post

end Careful

end Judgement

/-! ## Undisturbed runs -/

/-- The request that a process of the system waits to have served. -/
def Config.waiting (config : Config Reply ε α World Actor) (index : Nat) : Option Request :=
  match config.running[index]? with
  | some (_, .ask request _) => some request
  | _ => none

/-- A served request is allowed, and no process waits with a request that it clashes with. -/
def Config.Undisturbed (Allowed : World → Request → Prop) (Clash : Request → Request → Prop)
    (config : Config Reply ε α World Actor) : Event Choice Actor Call Tick → Prop
  | .serve index _ => ∀ request, config.waiting index = some request →
      Allowed config.world request ∧
        ∀ other waits, other ≠ index → config.waiting other = some waits → ¬ Clash request waits
  | _ => True

theorem Config.lt_of_waiting {config : Config Reply ε α World Actor} {index : Nat}
    {request : Request} (h : config.waiting index = some request) :
    index < config.running.length := by
  by_contra hge
  rw [waiting, List.getElem?_eq_none (Nat.le_of_not_lt hge)] at h
  cases h

instance {Allowed : World → Request → Prop} {Clash : Request → Request → Prop}
    [∀ world request, Decidable (Allowed world request)] [DecidableRel Clash]
    (config : Config Reply ε α World Actor) (event : Event Choice Actor Call Tick) :
    Decidable (config.Undisturbed Allowed Clash event) :=
  match event with
  | .start _ _ => isTrue trivial
  | .stop _ => isTrue trivial
  | .tick _ => isTrue trivial
  | .serve index choice =>
      decidable_of_iff ((config.waiting index).all fun request =>
        decide (Allowed config.world request) &&
          (List.range config.running.length).all fun other =>
            other = index || (config.waiting other).all fun waits => ¬ Clash request waits) (by
        simp only [Config.Undisturbed, Option.all_eq_true, Bool.and_eq_true, List.all_eq_true,
          Bool.or_eq_true, decide_eq_true_eq, List.mem_range]
        constructor
        · intro h request hrequest
          obtain ⟨allowed, apart⟩ := h request hrequest
          refine ⟨allowed, fun other waits hne hwaits => ?_⟩
          rcases apart other (Config.lt_of_waiting hwaits) with heq | hclash
          · exact absurd heq hne
          · exact hclash waits hwaits
        · intro h request hrequest
          obtain ⟨allowed, apart⟩ := h request hrequest
          refine ⟨allowed, fun other _ => ?_⟩
          by_cases heq : other = index
          · exact .inl heq
          · exact .inr fun waits hwaits => apart other waits heq hwaits)

variable (service : Service Reply ε α World Choice Actor Call Tick)

/-- Every event of a run is undisturbed. -/
def UndisturbedRun (Allowed : World → Request → Prop) (Clash : Request → Request → Prop) :
    List (Event Choice Actor Call Tick) → Config Reply ε α World Actor → Prop
  | [], _ => True
  | event :: events, config =>
      config.Undisturbed Allowed Clash event ∧
        UndisturbedRun Allowed Clash events (service.handle config event)

instance decidableUndisturbedRun {Allowed : World → Request → Prop}
    {Clash : Request → Request → Prop} [∀ world request, Decidable (Allowed world request)]
    [DecidableRel Clash] : (events : List (Event Choice Actor Call Tick)) →
      (config : Config Reply ε α World Actor) →
        Decidable (service.UndisturbedRun Allowed Clash events config)
  | [], _ => isTrue trivial
  | event :: events, config =>
      @instDecidableAnd _ _ inferInstance
        (decidableUndisturbedRun events (service.handle config event))

/-- What holds of a configuration at any time of an undisturbed run. -/
structure Calm (Inv : World → Prop) (Allowed Pre : World → Request → Prop)
    (config : Config Reply ε α World Actor) : Prop where
  invariant : ∀ world ∈ config.history, Inv world
  running : ∀ entry ∈ config.running,
    Careful service.respond Inv Allowed Pre (fun _ _ => True) entry.2 config.world

variable {service}
variable {Inv : World → Prop} {Allowed Pre : World → Request → Prop}
  {Clash : Request → Request → Prop}

theorem Calm.now {config : Config Reply ε α World Actor} (calm : service.Calm Inv Allowed Pre config) :
    Inv config.world :=
  calm.invariant _ List.mem_cons_self

/-- A waiting process stays careful while its precondition is left alone. -/
theorem Careful.wait {p : Process Reply ε α} {world later : World}
    (h : Careful service.respond Inv Allowed Pre (fun _ _ => True) p world)
    (hpre : ∀ request resume, p = .ask request resume → Pre world request → Pre later request) :
    Careful service.respond Inv Allowed Pre (fun _ _ => True) p later := by
  cases p with
  | done value => trivial
  | fail error => trivial
  | ask request resume => exact ⟨hpre request resume rfl h.1, h.2⟩

theorem Calm.handle {config : Config Reply ε α World Actor}
    {event : Event Choice Actor Call Tick}
    (programs : ∀ actor call, event = .start actor call → ∀ world, Inv world →
      Careful service.respond Inv Allowed Pre (fun _ _ => True) (service.program actor call) world)
    (stable : ∀ choice world request other, Inv world → Pre world request → Pre world other →
      ¬ Clash request other → Pre (service.respond choice world request).2 other)
    (elapsed : ∀ change world, Inv world → Inv (service.elapse change world) ∧
      ∀ request, Pre world request → Pre (service.elapse change world) request)
    (calm : service.Calm Inv Allowed Pre config)
    (undisturbed : config.Undisturbed Allowed Clash event) :
    service.Calm Inv Allowed Pre (service.handle config event) := by
  cases event with
  | start actor call =>
      refine ⟨calm.invariant, fun entry hentry => ?_⟩
      rcases List.mem_append.mp hentry with hentry | hentry
      · exact calm.running entry hentry
      · obtain rfl := List.mem_singleton.mp hentry
        exact programs actor call rfl _ calm.now
  | stop index =>
      exact ⟨calm.invariant, fun entry hentry => calm.running entry (List.mem_of_mem_eraseIdx hentry)⟩
  | tick change =>
      obtain ⟨kept, pres⟩ := elapsed change config.world calm.now
      constructor
      · intro world hworld
        rcases List.mem_cons.mp hworld with rfl | hworld
        · exact kept
        · exact calm.invariant world hworld
      · intro entry hentry
        exact (calm.running entry hentry).wait fun request _ _ => pres request
  | serve index choice =>
      simp only [Service.handle]
      split
      · next actor request resume hat =>
          have hwaits : config.waiting index = some request := by simp [Config.waiting, hat]
          obtain ⟨allowed, clashless⟩ := undisturbed request hwaits
          have hmem : (actor, Process.ask request resume) ∈ config.running :=
            List.mem_of_getElem? hat
          obtain ⟨pre, serve⟩ := calm.running _ hmem
          obtain ⟨kept, rest⟩ := serve config.world calm.now allowed pre choice
          constructor
          · intro world hworld
            rcases List.mem_cons.mp hworld with rfl | hworld
            · exact kept
            · exact calm.invariant world hworld
          · intro entry hentry
            obtain ⟨position, hposition⟩ := List.mem_iff_getElem?.mp hentry
            rw [List.getElem?_set] at hposition
            split at hposition
            · split at hposition
              · cases hposition
                exact rest
              · cases hposition
            · next hne =>
                apply (calm.running entry (List.mem_of_getElem? hposition)).wait
                intro waits resume' hask hwaiting
                apply stable choice _ _ _ calm.now pre hwaiting
                apply clashless position waits (Ne.symm hne)
                obtain ⟨other, process⟩ := entry
                simp only at hask
                simp [Config.waiting, hposition, hask]
      · exact calm

/-- The invariant holds in every world of an undisturbed run. -/
theorem invariant_of_undisturbed {events : List (Event Choice Actor Call Tick)}
    (programs : ∀ actor call, .start actor call ∈ events → ∀ world, Inv world →
      Careful service.respond Inv Allowed Pre (fun _ _ => True) (service.program actor call) world)
    (stable : ∀ choice world request other, Inv world → Pre world request → Pre world other →
      ¬ Clash request other → Pre (service.respond choice world request).2 other)
    (elapsed : ∀ change world, Inv world → Inv (service.elapse change world) ∧
      ∀ request, Pre world request → Pre (service.elapse change world) request)
    {config : Config Reply ε α World Actor} (calm : service.Calm Inv Allowed Pre config)
    (undisturbed : service.UndisturbedRun Allowed Clash events config) :
    service.Calm Inv Allowed Pre (service.run events config) := by
  induction events generalizing config with
  | nil => exact calm
  | cons event events ih =>
      apply ih (fun actor call hmem => programs actor call (List.mem_cons_of_mem _ hmem))
      · apply calm.handle _ stable elapsed undisturbed.1
        rintro actor call rfl
        exact programs actor call List.mem_cons_self
      · exact undisturbed.2

theorem calm_initial {world : World} (h : Inv world) :
    service.Calm Inv Allowed Pre (initial world) := by
  constructor
  · intro other hother
    obtain rfl := List.mem_singleton.mp hother
    exact h
  · intro entry hentry
    exact absurd hentry List.not_mem_nil

end Service
