import Mathlib.Data.List.Basic

/-!
# Work lists

Steps are served in order until one of them fails; what was done before stays done.  A step may
itself be made of smaller requests (`serve_flatMap`), and then a list can also be stopped within a
step (`serve_take_flatMap`).

Work is resumable if the steps to do are a function of the state and performing the first of them
leaves the others: wherever it is stopped between two steps, starting again ends in the same state
(`Resumable.resume`).
-/

namespace Worklist

universe u v w x

variable {σ : Type u} {τ : Type v} {ρ : Type w} {ε : Type x}

/-- The steps in order, up to the first that fails. -/
def serve (perform : τ → σ → Except ε σ) : List τ → σ → σ × Except ε Unit
  | [], s => (s, .ok ())
  | step :: rest, s =>
      match perform step s with
      | .ok next => serve perform rest next
      | .error error => (s, .error error)

section Serve

variable {perform : τ → σ → Except ε σ} {steps : List τ} {s s' : σ}

@[simp]
theorem serve_nil (s : σ) : serve perform [] s = (s, .ok ()) := rfl

theorem serve_cons_ok {step : τ} {rest : List τ} (h : perform step s = .ok s') :
    serve perform (step :: rest) s = serve perform rest s' := by
  rw [serve, h]

theorem serve_cons_error {step : τ} {rest : List τ} {error : ε}
    (h : perform step s = .error error) :
    serve perform (step :: rest) s = (s, .error error) := by
  rw [serve, h]

theorem serve_append_ok {rest : List τ} (h : serve perform steps s = (s', .ok ())) :
    serve perform (steps ++ rest) s = serve perform rest s' := by
  induction steps generalizing s with
  | nil =>
      cases h
      rfl
  | cons step steps ih =>
      cases performed : perform step s with
      | ok next =>
          rw [serve_cons_ok performed] at h
          rw [List.cons_append, serve_cons_ok performed, ih h]
      | error error =>
          rw [serve_cons_error performed] at h
          cases h

theorem serve_append_error {rest : List τ} {error : ε}
    (h : serve perform steps s = (s', .error error)) :
    serve perform (steps ++ rest) s = (s', .error error) := by
  induction steps generalizing s with
  | nil => cases h
  | cons step steps ih =>
      cases performed : perform step s with
      | ok next =>
          rw [serve_cons_ok performed] at h
          rw [List.cons_append, serve_cons_ok performed, ih h]
      | error error' =>
          rw [serve_cons_error performed] at h
          rw [List.cons_append, serve_cons_error performed, h]

/-- What every successful step keeps, a list of steps keeps. -/
theorem serve_invariant {p : σ → Prop}
    (step : ∀ step ∈ steps, ∀ s s', p s → perform step s = .ok s' → p s') (h : p s) :
    p (serve perform steps s).1 := by
  induction steps generalizing s with
  | nil => exact h
  | cons first rest ih =>
      cases performed : perform first s with
      | ok next =>
          rw [serve_cons_ok performed]
          exact ih (fun other member => step other (List.mem_cons_of_mem _ member))
            (step first List.mem_cons_self s next h performed)
      | error error =>
          rw [serve_cons_error performed]
          exact h

end Serve

/-! ## Steps made of requests -/

section Requests

variable {perform : τ → σ → Except ε σ} {request : ρ → σ → Except ε σ} {requests : τ → List ρ}

/-- The requests of a step do what the step does, and a step that fails does nothing. -/
def Implements (perform : τ → σ → Except ε σ) (request : ρ → σ → Except ε σ)
    (requests : τ → List ρ) : Prop :=
  ∀ step s, serve request (requests step) s =
    match perform step s with
    | .ok next => (next, .ok ())
    | .error error => (s, .error error)

theorem Implements.serve_flatMap (h : Implements perform request requests) (steps : List τ)
    (s : σ) : serve request (steps.flatMap requests) s = serve perform steps s := by
  induction steps generalizing s with
  | nil => rfl
  | cons step rest ih =>
      have served := h step s
      rw [List.flatMap_cons]
      cases performed : perform step s with
      | ok next =>
          rw [performed] at served
          rw [serve_append_ok served, serve_cons_ok performed, ih]
      | error error =>
          rw [performed] at served
          rw [serve_append_error served, serve_cons_error performed]

/-- A list that is stopped has performed some of its steps, and perhaps begun the next one. -/
theorem Implements.serve_take_flatMap (h : Implements perform request requests) (steps : List τ)
    (n : Nat) (s : σ) :
    (∃ count, (serve request ((steps.flatMap requests).take n) s).1 =
      (serve perform (steps.take count) s).1) ∨
    ∃ done step rest count s', steps = done ++ step :: rest ∧ 0 < count ∧
      count < (requests step).length ∧ serve perform done s = (s', .ok ()) ∧
      (serve request ((steps.flatMap requests).take n) s).1 =
        (serve request ((requests step).take count) s').1 := by
  induction steps generalizing n s with
  | nil => exact .inl ⟨0, by simp⟩
  | cons step rest ih =>
      rcases Nat.eq_zero_or_pos n with rfl | positive
      · exact .inl ⟨0, by simp⟩
      · rw [List.flatMap_cons]
        by_cases within : n < (requests step).length
        · refine .inr ⟨[], step, rest, n, s, rfl, positive, within, rfl, ?_⟩
          rw [List.take_append_of_le_length (Nat.le_of_lt within)]
        · have beyond : (requests step).length ≤ n := Nat.not_lt.mp within
          have served := h step s
          rw [List.take_append, List.take_of_length_le beyond]
          cases performed : perform step s with
          | ok next =>
              rw [performed] at served
              rw [serve_append_ok served]
              rcases ih (n - (requests step).length) next with ⟨count, same⟩ |
                ⟨done, other, others, count, s', split, some_, part, before, same⟩
              · refine .inl ⟨count + 1, ?_⟩
                rw [same, List.take_succ_cons, serve_cons_ok performed]
              · refine .inr ⟨step :: done, other, others, count, s', ?_, some_, part, ?_, same⟩
                · rw [split, List.cons_append]
                · rw [serve_cons_ok performed, before]
          | error error =>
              rw [performed] at served
              refine .inl ⟨1, ?_⟩
              rw [serve_append_error served, List.take_succ_cons, serve_cons_error performed]

end Requests

/-! ## Resumption -/

section Resumption

variable {perform : τ → σ → Except ε σ} {todo : σ → List τ}

/-- After the first step, the others are to do. -/
def Resumable (perform : τ → σ → Except ε σ) (todo : σ → List τ) (good : σ → Prop) : Prop :=
  ∀ s step rest s', good s → todo s = step :: rest → perform step s = .ok s' →
    good s' ∧ todo s' = rest

variable {good : σ → Prop}

/-- Work that is done again after any number of its steps ends in the same way. -/
theorem Resumable.resume (h : Resumable perform todo good) {s : σ} (start : good s) (n : Nat) :
    good (serve perform ((todo s).take n) s).1 ∧
      serve perform (todo (serve perform ((todo s).take n) s).1)
          (serve perform ((todo s).take n) s).1 =
        serve perform (todo s) s := by
  induction n generalizing s with
  | zero => exact ⟨start, rfl⟩
  | succ n ih =>
      cases tasks : todo s with
      | nil =>
          rw [List.take_nil]
          refine ⟨start, ?_⟩
          rw [serve_nil, tasks]
          rfl
      | cons step rest =>
          rw [List.take_succ_cons]
          cases performed : perform step s with
          | ok next =>
              obtain ⟨further, remaining⟩ := h s step rest next start tasks performed
              have resumed := ih further
              rw [remaining] at resumed
              rw [serve_cons_ok performed, serve_cons_ok performed]
              exact resumed
          | error error =>
              rw [serve_cons_error performed]
              refine ⟨start, ?_⟩
              rw [tasks]

/-- Work whose steps all succeed ends with nothing to do. -/
theorem Resumable.complete (h : Resumable perform todo good)
    (able : ∀ s step rest, good s → todo s = step :: rest → ∃ s', perform step s = .ok s')
    {s : σ} (start : good s) :
    ∃ s', serve perform (todo s) s = (s', .ok ()) ∧ good s' ∧ todo s' = [] := by
  generalize length : (todo s).length = n
  induction n generalizing s with
  | zero =>
      have none_ := List.eq_nil_of_length_eq_zero length
      exact ⟨s, by rw [none_]; rfl, start, none_⟩
  | succ n ih =>
      obtain ⟨step, rest, tasks⟩ := List.exists_cons_of_length_eq_add_one length
      obtain ⟨next, performed⟩ := able s step rest start tasks
      obtain ⟨further, remaining⟩ := h s step rest next start tasks performed
      rw [tasks, List.length_cons, Nat.add_right_cancel_iff] at length
      obtain ⟨final, served, finished⟩ := ih further (remaining ▸ length)
      refine ⟨final, ?_, finished⟩
      rw [tasks, serve_cons_ok performed, ← remaining, served]

end Resumption

end Worklist
