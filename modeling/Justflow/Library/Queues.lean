import Mathlib.Algebra.GroupWithZero.Nat
import Justflow.Library.Fields

/-!
# Queues under keys

A mailbox keeps one queue of messages for each key and lists the keys in the order in which they
first came.  A key is present exactly while messages wait under it.  The lemmas say what waits
under a key after each operation, which is all that a delivery argument needs.
-/

open Fields

universe u v w

/-- One queue for each key. -/
abbrev Queues (κ : Type u) (α : Type v) := List (κ × List α)

namespace Queues

variable {κ : Type u} {α : Type v} [DecidableEq κ]

/-- The messages that wait under a key, first in first. -/
def waiting (self : Queues κ α) (key : κ) : List α :=
  (self.lookup key).getD []

/-- The number of messages. -/
def size (self : Queues κ α) : Nat :=
  (self.map fun entry => entry.2.length).sum

/-- No key is present without a message. -/
def NoneEmpty (self : Queues κ α) : Prop :=
  ∀ entry ∈ self, entry.2 ≠ []

def push (self : Queues κ α) (key : κ) (message : α) : Queues κ α :=
  set key (self.waiting key ++ [message]) self

/-- The first message under a key; the key goes with its last message. -/
def pop (self : Queues κ α) (key : κ) : Option (α × Queues κ α) :=
  match self.waiting key with
  | [] => none
  | [message] => some (message, self.filter fun entry => entry.1 ≠ key)
  | message :: rest => some (message, set key rest self)

/-- The messages of both, under each key the first ones first. -/
def merge (first second : Queues κ α) : Queues κ α :=
  (keys first ++ (keys second).filter fun key => key ∉ keys first).map fun key =>
    (key, first.waiting key ++ second.waiting key)

/-! ## What waits under a key -/

omit [DecidableEq κ] in
theorem noneEmpty_nil : NoneEmpty ([] : Queues κ α) :=
  nofun

@[simp]
theorem waiting_nil (key : κ) : waiting ([] : Queues κ α) key = [] := rfl

theorem waiting_set (self : Queues κ α) (key other : κ) (messages : List α) :
    waiting (set key messages self) other =
      if other = key then messages else self.waiting other := by
  rw [waiting, lookup_set]
  split <;> rfl

theorem waiting_push (self : Queues κ α) (key other : κ) (message : α) :
    (self.push key message).waiting other =
      self.waiting other ++ if other = key then [message] else [] := by
  rw [push, waiting_set]
  by_cases h : other = key
  · simp [h]
  · simp [h]

theorem waiting_without (self : Queues κ α) (key other : κ) :
    waiting (self.filter fun entry => entry.1 ≠ key) other =
      if other = key then [] else self.waiting other := by
  induction self with
  | nil => simp
  | cons entry rest ih =>
      obtain ⟨k, messages⟩ := entry
      by_cases hk : k = key
      · subst hk
        rw [List.filter_cons_of_neg (by simp), ih]
        by_cases h : other = k
        · simp [h]
        · have hb : (other == k) = false := by simpa using h
          simp [h, waiting, List.lookup_cons, hb]
      · rw [List.filter_cons_of_pos (by simpa using hk)]
        by_cases h : other = k
        · subst h
          simp [waiting, hk]
        · have hb : (other == k) = false := by simpa using h
          simpa [waiting, List.lookup_cons, hb] using ih

theorem waiting_pop {self rest : Queues κ α} {key : κ} {message : α}
    (h : self.pop key = some (message, rest)) (other : κ) :
    self.waiting other = (if other = key then [message] else []) ++ rest.waiting other := by
  unfold pop at h
  split at h
  · cases h
  · next last hlast =>
      obtain ⟨rfl, rfl⟩ := Prod.mk.inj (Option.some.inj h)
      rw [waiting_without]
      by_cases hother : other = key
      · simp [hother, hlast]
      · simp [hother]
  · next first others hmore hqueue =>
      obtain ⟨rfl, rfl⟩ := Prod.mk.inj (Option.some.inj h)
      rw [waiting_set]
      by_cases hother : other = key
      · simp [hother, hqueue]
      · simp [hother]

theorem mem_keys_of_waiting {self : Queues κ α} {key : κ} (h : self.waiting key ≠ []) :
    key ∈ keys self := by
  rw [mem_keys_iff_isSome_lookup]
  by_contra hnone
  rw [Option.not_isSome_iff_eq_none] at hnone
  exact h (by rw [waiting, hnone]; rfl)

theorem lookup_map_self {β : Type w} (f : κ → β) (list : List κ) (key : κ) :
    (list.map fun k => (k, f k)).lookup key = if key ∈ list then some (f key) else none := by
  induction list with
  | nil => rfl
  | cons k rest ih =>
      by_cases h : key = k
      · subst h
        simp
      · have hb : (key == k) = false := by simpa using h
        simp [List.lookup_cons, hb, ih, h]

theorem waiting_merge (first second : Queues κ α) (key : κ) :
    (merge first second).waiting key = first.waiting key ++ second.waiting key := by
  rw [waiting, merge, lookup_map_self]
  split
  · rfl
  · next absent =>
      simp only [List.mem_append, List.mem_filter, decide_eq_true_eq, not_or, not_and,
        not_not] at absent
      have hfirst : first.waiting key = [] := by
        by_contra h
        exact absent.1 (mem_keys_of_waiting h)
      have hsecond : second.waiting key = [] := by
        by_contra h
        exact absent.1 (absent.2 (mem_keys_of_waiting h))
      simp [hfirst, hsecond]

/-! ## No empty queue -/

theorem NoneEmpty.waiting {self : Queues κ α} (h : NoneEmpty self) {key : κ}
    (hkey : key ∈ keys self) : self.waiting key ≠ [] := by
  obtain ⟨messages, found⟩ := Option.isSome_iff_exists.mp (mem_keys_iff_isSome_lookup.mp hkey)
  obtain ⟨before, after, hself, _⟩ := List.lookup_eq_some_iff.mp found
  have member : (key, messages) ∈ self := by
    rw [hself]
    simp
  rw [Queues.waiting, found]
  exact h _ member

theorem NoneEmpty.set {self : Queues κ α} (h : NoneEmpty self) (key : κ) {messages : List α}
    (hmessages : messages ≠ []) : NoneEmpty (set key messages self) := by
  induction self with
  | nil =>
      intro entry hentry
      rw [List.mem_singleton.mp hentry]
      exact hmessages
  | cons entry rest ih =>
      obtain ⟨k, old⟩ := entry
      have hrest : NoneEmpty rest := fun other hother => h other (List.mem_cons_of_mem _ hother)
      intro other hother
      by_cases hk : k = key
      · rw [Fields.set, if_pos hk] at hother
        rcases List.mem_cons.mp hother with rfl | hother
        · exact hmessages
        · exact hrest _ hother
      · rw [Fields.set, if_neg hk] at hother
        rcases List.mem_cons.mp hother with rfl | hother
        · exact h _ List.mem_cons_self
        · exact ih hrest _ hother

theorem NoneEmpty.push {self : Queues κ α} (h : NoneEmpty self) (key : κ) (message : α) :
    NoneEmpty (self.push key message) :=
  h.set key (by simp)

theorem NoneEmpty.pop {self rest : Queues κ α} (h : NoneEmpty self) {key : κ} {message : α}
    (hpop : self.pop key = some (message, rest)) : NoneEmpty rest := by
  unfold Queues.pop at hpop
  split at hpop
  · cases hpop
  · obtain ⟨_, rfl⟩ := Prod.mk.inj (Option.some.inj hpop)
    exact fun entry hentry => h entry (List.mem_of_mem_filter hentry)
  · next first others hmore hqueue =>
      obtain ⟨_, rfl⟩ := Prod.mk.inj (Option.some.inj hpop)
      apply h.set
      rintro rfl
      exact hmore rfl

theorem NoneEmpty.merge {first second : Queues κ α} (hfirst : NoneEmpty first)
    (hsecond : NoneEmpty second) : NoneEmpty (merge first second) := by
  intro entry hentry
  obtain ⟨key, hkey, rfl⟩ := List.mem_map.mp hentry
  rcases List.mem_append.mp hkey with hkey | hkey
  · exact List.append_ne_nil_of_left_ne_nil (hfirst.waiting hkey) _
  · exact List.append_ne_nil_of_right_ne_nil _ (hsecond.waiting (List.mem_of_mem_filter hkey))

end Queues
