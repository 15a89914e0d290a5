import Justflow.Library.Queues
import Justflow.Library.JsonSize
import Justflow.Config.Models
import Justflow.Engine.Errors

/-!
# The pending message buffer

Step responses and events wait in two families of queues until a step takes them.  A rollover
carries the buffer into the next run, where messages may arrive before the run merges the carried
ones with them.  A ledger beside the chain of runs records what was accepted and what was taken;
`delivered_in_order` says that nothing is lost, doubled or reordered.
-/

open Fields

namespace Justflow

open JsonValue

inductive MessageFamily where
  | signals | events
  deriving DecidableEq, Repr

structure PendingMessages where
  signals : Queues String JsonValue
  events : Queues String JsonValue

namespace PendingMessages

variable (self : PendingMessages) (limits : RuntimeLimits)

def empty : PendingMessages :=
  ⟨[], []⟩

def queues : MessageFamily → Queues String JsonValue
  | .signals => self.signals
  | .events => self.events

def withQueues (family : MessageFamily) (queues : Queues String JsonValue) : PendingMessages :=
  match family with
  | .signals => { self with signals := queues }
  | .events => { self with events := queues }

def count : Nat :=
  self.signals.size + self.events.size

def queuesValue (queues : Queues String JsonValue) : JsonValue :=
  .obj (queues.map fun entry => (entry.1, .arr entry.2))

def byteCount : Nat :=
  canonicalBytes (.obj [("signals", queuesValue self.signals), ("events", queuesValue self.events)])

/-- `validate`, and with another boundary `_validate_append`. -/
def validate (boundary : String) : Except EngineException Unit := do
  enforceLimit self.count limits.queuedMessages .queuedMessages boundary
  enforceLimit self.byteCount limits.queuedMessageBytes .queuedMessageBytes boundary

/-- An append to the queues of one family, checked before it is made. -/
def append (family : MessageFamily) (boundary key : String) (value : JsonValue) :
    Except EngineException PendingMessages := do
  let appended := self.withQueues family ((self.queues family).push key value)
  appended.validate limits boundary
  return appended

def appendSignal (key : String) (value : JsonValue) : Except EngineException PendingMessages :=
  self.append limits .signals "workflow.signals" key value

def appendEvent (key : String) (value : JsonValue) : Except EngineException PendingMessages :=
  self.append limits .events "workflow.events" key value

/-- `pop_signal` and `pop_event`. -/
def pop (family : MessageFamily) (key : String) : Option (JsonValue × PendingMessages) :=
  ((self.queues family).pop key).map fun (value, queues) => (value, self.withQueues family queues)

/-- The first of the keys under which a message waits. -/
def firstWaiting (family : MessageFamily) (acceptedKeys : List String) : Option String :=
  acceptedKeys.find? fun key => ((self.queues family).waiting key).length ≠ 0

/-- The messages of a continuation, and after them those that arrived first in the next run. -/
def restore (carried arrived : PendingMessages) : PendingMessages :=
  ⟨carried.signals.merge arrived.signals, carried.events.merge arrived.events⟩

/-- The queues after a continuation input has been serialized and read back. -/
def carry : PendingMessages where
  signals := sortKeys (self.signals.map fun entry => (entry.1, entry.2.map wire))
  events := sortKeys (self.events.map fun entry => (entry.1, entry.2.map wire))

/-! ## What waits -/

@[simp]
theorem queues_withQueues (family : MessageFamily) (queues : Queues String JsonValue) :
    (self.withQueues family queues).queues family = queues := by
  cases family <;> rfl

theorem queues_withQueues_ne {family other : MessageFamily} (h : other ≠ family)
    (queues : Queues String JsonValue) :
    (self.withQueues family queues).queues other = self.queues other := by
  cases family <;> cases other <;> first | rfl | exact absurd rfl h

/-- The messages of a family under a key. -/
def waiting (family : MessageFamily) (key : String) : List JsonValue :=
  (self.queues family).waiting key

/-- No key of either family is there without a message. -/
def NoneEmpty : Prop :=
  ∀ family, (self.queues family).NoneEmpty

variable {self}

theorem noneEmpty_empty : NoneEmpty empty := by
  intro family
  cases family <;> exact Queues.noneEmpty_nil

theorem NoneEmpty.withQueues (h : self.NoneEmpty) {family : MessageFamily}
    {queues : Queues String JsonValue} (hqueues : queues.NoneEmpty) :
    (self.withQueues family queues).NoneEmpty := by
  intro other
  by_cases heq : other = family
  · subst heq
    rw [queues_withQueues]
    exact hqueues
  · rw [queues_withQueues_ne _ heq]
    exact h other

theorem append_eq_ok {limits : RuntimeLimits} {family : MessageFamily} {boundary key : String}
    {value : JsonValue} {next : PendingMessages}
    (h : self.append limits family boundary key value = .ok next) :
    next = self.withQueues family ((self.queues family).push key value) ∧
      next.count ≤ limits.queuedMessages ∧ next.byteCount ≤ limits.queuedMessageBytes := by
  simp only [append, validate] at h
  generalize self.withQueues family ((self.queues family).push key value) = appended at h ⊢
  by_cases hcount : appended.count ≤ limits.queuedMessages
  · by_cases hbytes : appended.byteCount ≤ limits.queuedMessageBytes
    · rw [enforceLimit_ok_iff.mpr hcount, enforceLimit_ok_iff.mpr hbytes] at h
      cases h
      exact ⟨rfl, hcount, hbytes⟩
    · rw [enforceLimit_ok_iff.mpr hcount] at h
      simp [enforceLimit, Nat.lt_of_not_le hbytes, Bind.bind, Except.bind] at h
  · simp [enforceLimit, Nat.lt_of_not_le hcount, Bind.bind, Except.bind] at h

/-- An append that is refused is over a limit. -/
theorem append_eq_error {limits : RuntimeLimits} {family : MessageFamily} {boundary key : String}
    {value : JsonValue} {exc : EngineException}
    (h : self.append limits family boundary key value = .error exc) :
    ∃ kind place actual limit, exc = .limitExceeded kind place actual limit := by
  simp only [append, validate] at h
  generalize self.withQueues family ((self.queues family).push key value) = appended at h
  by_cases hcount : appended.count ≤ limits.queuedMessages
  · by_cases hbytes : appended.byteCount ≤ limits.queuedMessageBytes
    · rw [enforceLimit_ok_iff.mpr hcount, enforceLimit_ok_iff.mpr hbytes] at h
      cases h
    · rw [enforceLimit_ok_iff.mpr hcount, enforceLimit, if_pos (Nat.lt_of_not_le hbytes)] at h
      cases h
      exact ⟨_, _, _, _, rfl⟩
  · rw [enforceLimit, if_pos (Nat.lt_of_not_le hcount)] at h
    cases h
    exact ⟨_, _, _, _, rfl⟩

theorem waiting_pushed (family other : MessageFamily) (key under : String) (value : JsonValue) :
    (self.withQueues family ((self.queues family).push key value)).waiting other under =
      self.waiting other under ++ if other = family ∧ under = key then [value] else [] := by
  by_cases h : other = family
  · subst h
    simp [waiting, Queues.waiting_push]
  · simp [waiting, queues_withQueues_ne _ h, h]

theorem waiting_popped {family : MessageFamily} {key : String} {value : JsonValue}
    {rest : PendingMessages} (h : self.pop family key = some (value, rest)) (other : MessageFamily)
    (under : String) :
    self.waiting other under =
      (if other = family ∧ under = key then [value] else []) ++ rest.waiting other under := by
  obtain ⟨⟨message, queues⟩, hpop, heq⟩ := Option.map_eq_some_iff.mp h
  obtain ⟨rfl, rfl⟩ := Prod.mk.inj heq
  by_cases hfamily : other = family
  · subst hfamily
    simp [waiting, Queues.waiting_pop hpop under]
  · simp [waiting, queues_withQueues_ne _ hfamily, hfamily]

theorem NoneEmpty.pop (h : self.NoneEmpty) {family : MessageFamily} {key : String}
    {value : JsonValue} {rest : PendingMessages} (hpop : self.pop family key = some (value, rest)) :
    rest.NoneEmpty := by
  obtain ⟨⟨message, queues⟩, hqueues, heq⟩ := Option.map_eq_some_iff.mp hpop
  obtain ⟨rfl, rfl⟩ := Prod.mk.inj heq
  exact h.withQueues ((h family).pop hqueues)

theorem waiting_restore (carried arrived : PendingMessages) (family : MessageFamily)
    (key : String) :
    (restore carried arrived).waiting family key =
      carried.waiting family key ++ arrived.waiting family key := by
  cases family <;> exact Queues.waiting_merge _ _ key

theorem NoneEmpty.restore {carried arrived : PendingMessages} (hcarried : carried.NoneEmpty)
    (harrived : arrived.NoneEmpty) : (restore carried arrived).NoneEmpty := by
  intro family
  cases family
  · exact (hcarried .signals).merge (harrived .signals)
  · exact (hcarried .events).merge (harrived .events)

theorem waiting_wired (queues : Queues String JsonValue) (key : String) :
    Queues.waiting (sortKeys (queues.map fun entry => (entry.1, entry.2.map wire))) key =
      (queues.waiting key).map wire := by
  have hlookup : (queues.map fun entry => (entry.1, entry.2.map wire)).lookup key =
      (queues.lookup key).map (List.map wire) := by
    induction queues with
    | nil => rfl
    | cons entry rest ih =>
        obtain ⟨k, messages⟩ := entry
        by_cases h : key = k
        · subst h
          simp
        · have hb : (key == k) = false := by simpa using h
          simpa [List.lookup_cons, hb] using ih
  rw [Queues.waiting, Queues.waiting, lookup_sortKeys, hlookup]
  cases queues.lookup key <;> rfl

theorem waiting_carry (family : MessageFamily) (key : String) :
    self.carry.waiting family key = (self.waiting family key).map wire := by
  cases family
  · exact waiting_wired self.signals key
  · exact waiting_wired self.events key

theorem noneEmpty_wired {queues : Queues String JsonValue} (h : queues.NoneEmpty) :
    Queues.NoneEmpty (sortKeys (queues.map fun entry => (entry.1, entry.2.map wire))) := by
  intro entry hentry
  rw [(sameFields_sortKeys _).mem_iff] at hentry
  obtain ⟨original, horiginal, rfl⟩ := List.mem_map.mp hentry
  have := h original horiginal
  simpa using this

theorem NoneEmpty.carry (h : self.NoneEmpty) : self.carry.NoneEmpty := by
  intro family
  cases family
  · exact noneEmpty_wired (h .signals)
  · exact noneEmpty_wired (h .events)

end PendingMessages

end Justflow
