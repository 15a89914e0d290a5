import Justflow.Library.Processes

/-!
# A process on its own

`exec` runs a process to its end while nothing else uses the service.  The rules say how the run
of a composed process is made of the runs of its parts.
-/

namespace Process

variable {Request : Type} {Reply : Request → Type} {ε α β World : Type}

/-- The outcome of a process that is served at once, and the world it leaves. -/
def exec (respond : World → (request : Request) → Except ε (Reply request) × World) :
    Process Reply ε α → World → Except ε α × World
  | .done value, world => (.ok value, world)
  | .fail error, world => (.error error, world)
  | .ask request resume, world =>
      exec respond (resume (respond world request).1) (respond world request).2

variable {respond : World → (request : Request) → Except ε (Reply request) × World}
variable {world later : World}

@[simp]
theorem exec_done (value : α) :
    exec respond (.done value : Process Reply ε α) world = (.ok value, world) := rfl

@[simp]
theorem exec_fail (error : ε) :
    exec respond (.fail error : Process Reply ε α) world = (.error error, world) := rfl

@[simp]
theorem exec_lift (result : Except ε α) :
    exec respond (lift result : Process Reply ε α) world = (result, world) := by
  cases result <;> rfl

theorem exec_bind (p : Process Reply ε α) (next : α → Process Reply ε β) :
    exec respond (p >>= next) world =
      match exec respond p world with
      | (.ok value, later) => exec respond (next value) later
      | (.error error, later) => (.error error, later) := by
  induction p generalizing world with
  | done value => rfl
  | fail error => rfl
  | ask request resume ih => exact ih _

theorem exec_bind_ok {p : Process Reply ε α} {value : α}
    (h : exec respond p world = (.ok value, later)) (next : α → Process Reply ε β) :
    exec respond (p >>= next) world = exec respond (next value) later := by
  rw [exec_bind, h]

theorem exec_bind_error {p : Process Reply ε α} {error : ε}
    (h : exec respond p world = (.error error, later)) (next : α → Process Reply ε β) :
    exec respond (p >>= next) world = (.error error, later) := by
  rw [exec_bind, h]

theorem exec_rescue (p : Process Reply ε α) (handler : ε → Process Reply ε α) :
    exec respond (tryCatch p handler) world =
      match exec respond p world with
      | (.ok value, later) => (.ok value, later)
      | (.error error, later) => exec respond (handler error) later := by
  induction p generalizing world with
  | done value => rfl
  | fail error => rfl
  | ask request resume ih => exact ih _

theorem exec_rescue_ok {p : Process Reply ε α} {value : α}
    (h : exec respond p world = (.ok value, later)) (handler : ε → Process Reply ε α) :
    exec respond (tryCatch p handler) world = (.ok value, later) := by
  rw [exec_rescue, h]

theorem exec_rescue_error {p : Process Reply ε α} {error : ε}
    (h : exec respond p world = (.error error, later)) (handler : ε → Process Reply ε α) :
    exec respond (tryCatch p handler) world = exec respond (handler error) later := by
  rw [exec_rescue, h]

theorem exec_call (request : Request) :
    exec respond (call request : Process Reply ε (Reply request)) world = respond world request := by
  simp only [call, exec]
  obtain ⟨answer, after⟩ := respond world request
  cases answer <;> rfl

end Process
