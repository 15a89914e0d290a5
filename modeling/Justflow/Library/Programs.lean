import Mathlib.Data.List.Forall2

/-!
# Pre- and postconditions of programs with state and exceptions

A program is a computation of `EStateM`: it reads and changes a state, and it returns a value
or raises an exception, keeping the state it reached either way.

`Triple` is the usual unary judgement, with one postcondition for a return and one for a raise.
`Related` is its relational counterpart: two programs started in related states both return
related values or both raise related exceptions, in related states.  Both judgements have one
rule for each way of composing programs, and a loop rule for iteration over a list.
-/

namespace Program

universe u

variable {ε δ σ τ α β γ ζ : Type u}

/-- Run a pure computation that may raise. -/
def embed (x : Except ε α) : EStateM ε σ α :=
  match x with
  | .ok a => pure a
  | .error e => throw e

/-- Run a program and return what it ended with. -/
def attempt (x : EStateM ε σ α) : EStateM ε σ (Except ε α) := fun s =>
  match x s with
  | .ok a t => .ok (.ok a) t
  | .error e t => .ok (.error e) t

@[simp] theorem embed_ok (a : α) : (embed (.ok a) : EStateM ε σ α) = pure a := rfl

@[simp] theorem embed_error (e : ε) : (embed (.error e) : EStateM ε σ α) = throw e := rfl

@[simp]
theorem ok_bind (a : α) (f : α → Except ε β) : (Except.ok a >>= f) = f a := rfl

@[simp]
theorem error_bind (e : ε) (f : α → Except ε β) : (Except.error e >>= f) = .error e := rfl

theorem exists_of_bind_eq_ok {x : Except ε α} {f : α → Except ε β} {b : β}
    (h : x >>= f = .ok b) : ∃ a, x = .ok a ∧ f a = .ok b := by
  cases x with
  | ok a => exact ⟨a, rfl, h⟩
  | error e => cases h

@[simp]
theorem pure_eq_ok (a : α) : (pure a : Except ε α) = .ok a := rfl

/-- The value a program returned, if it did. -/
def returned : EStateM.Result ε σ α → Option α
  | .ok a _ => some a
  | .error _ _ => none

theorem returned_eq_some {r : EStateM.Result ε σ α} {a : α} :
    returned r = some a ↔ ∃ s, r = .ok a s := by
  cases r <;> simp [returned]

/-! ## Unary judgement -/

/-- What a result means: one predicate for a return, one for a raise. -/
def Meets (Q : α → σ → Prop) (E : ε → σ → Prop) : EStateM.Result ε σ α → Prop
  | .ok a s => Q a s
  | .error e s => E e s

@[simp] theorem meets_ok (Q : α → σ → Prop) (E : ε → σ → Prop) (a : α) (s : σ) :
    Meets Q E (.ok a s) = Q a s := rfl

@[simp] theorem meets_error (Q : α → σ → Prop) (E : ε → σ → Prop) (e : ε) (s : σ) :
    Meets Q E (.error e s) = E e s := rfl

theorem Meets.mono {Q Q' : α → σ → Prop} {E E' : ε → σ → Prop} {r : EStateM.Result ε σ α}
    (h : Meets Q E r) (hQ : ∀ a s, Q a s → Q' a s) (hE : ∀ e s, E e s → E' e s) :
    Meets Q' E' r := by
  cases r with
  | ok a s => exact hQ a s h
  | error e s => exact hE e s h

/-- From a state with `P` the program returns with `Q` or raises with `E`. -/
def Triple (P : σ → Prop) (x : EStateM ε σ α) (Q : α → σ → Prop) (E : ε → σ → Prop) : Prop :=
  ∀ s, P s → Meets Q E (x s)

namespace Triple

variable {P P' : σ → Prop} {Q Q' : α → σ → Prop} {E E' : ε → σ → Prop}

theorem consequence {x : EStateM ε σ α} (h : Triple P x Q E) (hP : ∀ s, P' s → P s)
    (hQ : ∀ a s, Q a s → Q' a s) (hE : ∀ e s, E e s → E' e s) : Triple P' x Q' E' :=
  fun s hs => (h s (hP s hs)).mono hQ hE

theorem pure {a : α} (h : ∀ s, P s → Q a s) : Triple P (Pure.pure a) Q E :=
  fun s hs => h s hs

theorem throw {e : ε} (h : ∀ s, P s → E e s) : Triple P (MonadExcept.throw e) Q E :=
  fun s hs => h s hs

theorem bind {x : EStateM ε σ α} {f : α → EStateM ε σ β} {R : β → σ → Prop}
    (hx : Triple P x Q E) (hf : ∀ a, Triple (Q a) (f a) R E) : Triple P (x >>= f) R E := by
  intro s hs
  have h := hx s hs
  cases hr : x s with
  | ok a t =>
      rw [hr] at h
      simpa [Bind.bind, EStateM.bind, hr] using hf a t h
  | error e t =>
      rw [hr] at h
      simpa [Bind.bind, EStateM.bind, hr] using h

/-- What an attempt may assume of how the program ended. -/
def Ended (Q : α → σ → Prop) (E : ε → σ → Prop) : Except ε α → σ → Prop
  | .ok a, s => Q a s
  | .error e, s => E e s

theorem attempt {x : EStateM ε σ α} (hx : Triple P x Q E) :
    Triple P (Program.attempt x) (Ended Q E) E' := by
  intro s hs
  have h := hx s hs
  unfold Program.attempt
  cases hr : x s with
  | ok a t =>
      rw [hr] at h
      exact h
  | error e t =>
      rw [hr] at h
      exact h

theorem get {Q : σ → σ → Prop} (h : ∀ s, P s → Q s s) :
    Triple P (MonadState.get : EStateM ε σ σ) Q E :=
  fun s hs => h s hs

theorem modifyGet {f : σ → α × σ} (h : ∀ s, P s → Q (f s).1 (f s).2) :
    Triple P (MonadState.modifyGet f) Q E :=
  fun s hs => h s hs

theorem embed {x : Except ε α} (hok : ∀ a, x = .ok a → ∀ s, P s → Q a s)
    (herror : ∀ e, x = .error e → ∀ s, P s → E e s) : Triple P (Program.embed x) Q E := by
  cases x with
  | ok a => exact pure (hok a rfl)
  | error e => exact throw (herror e rfl)

end Triple

/-! ## Relational judgement -/

/-- Two results of the same kind, related in value and in state. -/
inductive RelatedResult (S : σ → τ → Prop) (E : ε → δ → Prop) (R : α → β → Prop) :
    EStateM.Result ε σ α → EStateM.Result δ τ β → Prop where
  | ok {a : α} {b : β} {s : σ} {t : τ} (value : R a b) (state : S s t) :
      RelatedResult S E R (.ok a s) (.ok b t)
  | error {e : ε} {d : δ} {s : σ} {t : τ} (raised : E e d) (state : S s t) :
      RelatedResult S E R (.error e s) (.error d t)

/-- Two pure results of the same kind. -/
inductive RelatedExcept (E : ε → δ → Prop) (R : α → β → Prop) :
    Except ε α → Except δ β → Prop where
  | ok {a : α} {b : β} (value : R a b) : RelatedExcept E R (.ok a) (.ok b)
  | error {e : ε} {d : δ} (raised : E e d) : RelatedExcept E R (.error e) (.error d)

/-- From related states the two programs end alike. -/
def Related (S : σ → τ → Prop) (E : ε → δ → Prop) (R : α → β → Prop)
    (x : EStateM ε σ α) (y : EStateM δ τ β) : Prop :=
  ∀ s t, S s t → RelatedResult S E R (x s) (y t)

namespace RelatedExcept

variable {E : ε → δ → Prop} {R : α → β → Prop} {R' : γ → ζ → Prop}

theorem bind {x : Except ε α} {y : Except δ β} {f : α → Except ε γ} {g : β → Except δ ζ}
    (h : RelatedExcept E R x y) (hf : ∀ a b, R a b → RelatedExcept E R' (f a) (g b)) :
    RelatedExcept E R' (x >>= f) (y >>= g) := by
  cases h with
  | ok value => exact hf _ _ value
  | error raised => exact .error raised

theorem map {x : Except ε α} {y : Except δ β} {f : α → γ} {g : β → ζ}
    (h : RelatedExcept E R x y) (hf : ∀ a b, R a b → R' (f a) (g b)) :
    RelatedExcept E R' (f <$> x) (g <$> y) := by
  cases h with
  | ok value => exact .ok (hf _ _ value)
  | error raised => exact .error raised

theorem mono {R' : α → β → Prop} {x : Except ε α} {y : Except δ β}
    (h : RelatedExcept E R x y) (hR : ∀ a b, R a b → R' a b) : RelatedExcept E R' x y := by
  cases h with
  | ok value => exact .ok (hR _ _ value)
  | error raised => exact .error raised

theorem of_eq {R : α → α → Prop} {x : Except ε α} (hR : ∀ a, R a a) :
    RelatedExcept Eq R x x := by
  cases x with
  | ok a => exact .ok (hR a)
  | error e => exact .error rfl

end RelatedExcept

namespace Related

variable {S : σ → τ → Prop} {E : ε → δ → Prop} {R : α → β → Prop} {R' : γ → ζ → Prop}

theorem pure {a : α} {b : β} (h : R a b) : Related S E R (Pure.pure a) (Pure.pure b) :=
  fun _ _ hst => .ok h hst

theorem throw {e : ε} {d : δ} (h : E e d) :
    Related S E R (MonadExcept.throw e) (MonadExcept.throw d) :=
  fun _ _ hst => .error h hst

theorem bind {x : EStateM ε σ α} {y : EStateM δ τ β} {f : α → EStateM ε σ γ}
    {g : β → EStateM δ τ ζ} (h : Related S E R x y)
    (hf : ∀ a b, R a b → Related S E R' (f a) (g b)) :
    Related S E R' (x >>= f) (y >>= g) := by
  intro s t hst
  have hxy := h s t hst
  simp only [Bind.bind, EStateM.bind]
  generalize x s = p at hxy ⊢
  generalize y t = q at hxy ⊢
  cases hxy with
  | ok value state => exact hf _ _ value _ _ state
  | error raised state => exact .error raised state

theorem attempt {E' : ε → δ → Prop} {x : EStateM ε σ α} {y : EStateM δ τ β}
    (h : Related S E R x y) :
    Related S E' (RelatedExcept E R) (Program.attempt x) (Program.attempt y) := by
  intro s t hst
  have hxy := h s t hst
  simp only [Program.attempt]
  generalize x s = p at hxy ⊢
  generalize y t = q at hxy ⊢
  cases hxy with
  | ok value state => exact .ok (.ok value) state
  | error raised state => exact .ok (.error raised) state

theorem modifyGet {f : σ → α × σ} {g : τ → β × τ}
    (h : ∀ s t, S s t → R (f s).1 (g t).1 ∧ S (f s).2 (g t).2) :
    Related S E R (MonadState.modifyGet f) (MonadState.modifyGet g) :=
  fun s t hst => .ok (h s t hst).1 (h s t hst).2

theorem get : Related S E S MonadState.get MonadState.get :=
  fun _ _ hst => .ok hst hst

theorem embed {x : Except ε α} {y : Except δ β} (h : RelatedExcept E R x y) :
    Related S E R (Program.embed x) (Program.embed y) := by
  cases h with
  | ok value => exact pure value
  | error raised => exact throw raised

theorem mono {R' : α → β → Prop} {x : EStateM ε σ α} {y : EStateM δ τ β}
    (h : Related S E R x y) (hR : ∀ a b, R a b → R' a b) : Related S E R' x y := by
  intro s t hst
  have hxy := h s t hst
  generalize x s = p at hxy ⊢
  generalize y t = q at hxy ⊢
  cases hxy with
  | ok value state => exact .ok (hR _ _ value) state
  | error raised state => exact .error raised state

/-- A program that is run from equal states is related to itself. -/
theorem of_eq {R : α → α → Prop} {x : EStateM ε σ α} (hR : ∀ a, R a a) :
    Related Eq Eq R x x := by
  rintro s _ rfl
  cases h : x s with
  | ok a s' => exact .ok (hR a) rfl
  | error e s' => exact .error rfl rfl

end Related

end Program
