import Justflow.Library.Processes

/-!
# What a program learns

`Learns` is the judgement `Keeps` with knowledge about the value that a program returns; a program
that raises has learned nothing.  The rules follow the ways in which programs are put together.
-/

namespace Service

variable {Request : Type} {Reply : Request → Type} {ε α β World Choice : Type}

/-- Every request of the program makes a step, and it returns with the knowledge `K`. -/
def Learns (respond : Choice → World → (request : Request) → Except ε (Reply request) × World)
    (Valid : List World → Prop) (Step : List World → World → Prop)
    (K : α → List World → Prop) (p : Process Reply ε α) (history : List World) : Prop :=
  Keeps respond Valid Step (fun result later => ∀ value, result = .ok value → K value later) p
    history

namespace Learns

variable {respond : Choice → World → (request : Request) → Except ε (Reply request) × World}
  {Valid : List World → Prop} {Step : List World → World → Prop}
  {K K' : α → List World → Prop} {Q : β → List World → Prop} {history : List World}

theorem done {value : α} (h : K value history) :
    Learns respond Valid Step K (.done value) history := by
  intro value' hvalue
  cases hvalue
  exact h

/-- A value about which nothing is to be known. -/
theorem pass {value : α} : Learns respond Valid Step (fun _ _ => True) (.done value) history :=
  done trivial

theorem fail {error : ε} : Learns respond Valid Step K (.fail error) history := by
  intro value hvalue
  cases hvalue

theorem mono {p : Process Reply ε α} (h : Learns respond Valid Step K p history)
    (hK : ∀ value later, history <:+ later → K value later → K' value later) :
    Learns respond Valid Step K' p history :=
  Keeps.mono h fun _ later grows known value hvalue => hK value later grows (known value hvalue)

theorem bind {p : Process Reply ε α} {next : α → Process Reply ε β}
    (h : Learns respond Valid Step K p history)
    (hnext : ∀ value later, history <:+ later → K value later →
      Learns respond Valid Step Q (next value) later) :
    Learns respond Valid Step Q (p >>= next) history := by
  refine Keeps.bind h (fun value later grows known => ?_) fun error later _ _ value hvalue => ?_
  · exact hnext value later grows (known value rfl)
  · cases hvalue

/-- A program whose value is packed. -/
theorem map {p : Process Reply ε α} {f : α → β} (h : Learns respond Valid Step K p history)
    (hf : ∀ value later, K value later → Q (f value) later) :
    Learns respond Valid Step Q (f <$> p) history :=
  bind h fun value later _ known => done (hf value later known)

theorem rescue {p : Process Reply ε α} {handler : ε → Process Reply ε α}
    (h : Learns respond Valid Step K p history)
    (hhandler : ∀ error later, history <:+ later →
      Learns respond Valid Step K (handler error) later) :
    Learns respond Valid Step K (p.rescue handler) history :=
  Keeps.rescue h (fun _ _ _ known => known) fun error later grows _ => hhandler error later grows

theorem ite {condition : Prop} [Decidable condition] {p q : Process Reply ε α}
    (hp : condition → Learns respond Valid Step K p history)
    (hq : ¬ condition → Learns respond Valid Step K q history) :
    Learns respond Valid Step K (if condition then p else q) history := by
  by_cases h : condition
  · simpa [h] using hp h
  · simpa [h] using hq h

theorem lift {result : Except ε α} (h : ∀ value, result = .ok value → K value history) :
    Learns respond Valid Step K (Process.lift result) history :=
  Keeps.lift h

/-- What a pure step returns is known. -/
theorem lifted {result : Except ε α} :
    Learns respond Valid Step (fun value _ => result = .ok value) (Process.lift result) history :=
  lift fun _ h => h

theorem call {request : Request} {K : Reply request → List World → Prop}
    (h : ∀ world past, history <:+ world :: past → Valid (world :: past) → ∀ choice,
      Step (world :: past) (respond choice world request).2 ∧
        ∀ reply, (respond choice world request).1 = .ok reply →
          K reply ((respond choice world request).2 :: world :: past)) :
    Learns respond Valid Step K (Process.call request) history :=
  Keeps.call h

/-- Less is to be expected of the history than it is known to satisfy. -/
theorem under {Valid' : List World → Prop} {p : Process Reply ε α}
    (h : Learns respond Valid Step K p history)
    (weaker : ∀ history, Valid' history → Valid history) :
    Learns respond Valid' Step K p history := by
  rw [Learns] at h ⊢
  induction p generalizing history with
  | done value => exact h
  | fail error => exact h
  | ask request resume ih =>
      intro world past grows valid choice
      obtain ⟨step, rest⟩ := h world past grows (weaker _ valid) choice
      exact ⟨step, ih _ rest⟩

end Learns

end Service
