import Justflow.Library.Programs

/-!
# What a computation may raise

`Raises K x` says that `x`, if it raises at all, raises an exception with `K`.  It has one rule for
each way of composing computations.
-/

namespace Program

universe u

variable {ε α β : Type u}

/-- Every exception of the computation has the property. -/
def Raises (K : ε → Prop) (x : Except ε α) : Prop :=
  ∀ e, x = .error e → K e

namespace Raises

variable {K K' : ε → Prop}

theorem ok (a : α) : Raises K (.ok a : Except ε α) := by
  intro e h
  cases h

theorem error {e : ε} (h : K e) : Raises K (.error e : Except ε α) := by
  rintro _ ⟨⟩
  exact h

theorem mono {x : Except ε α} (h : Raises K x) (weaker : ∀ e, K e → K' e) : Raises K' x :=
  fun e raised => weaker e (h e raised)

/-- What follows may use that the first part returned. -/
theorem bind {x : Except ε α} {f : α → Except ε β} (hx : Raises K x)
    (hf : ∀ a, x = .ok a → Raises K (f a)) : Raises K (x >>= f) := by
  cases x with
  | ok a => exact hf a rfl
  | error e => exact error (hx e rfl)

theorem ite {c : Prop} [Decidable c] {x y : Except ε α} (hx : c → Raises K x)
    (hy : ¬ c → Raises K y) : Raises K (if c then x else y) := by
  split
  · exact hx ‹_›
  · exact hy ‹_›

end Raises

end Program
