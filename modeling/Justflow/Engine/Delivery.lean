import Justflow.Engine.Pending

/-!
# Messages along a chain of runs

A chain of runs receives messages, takes them at its waits and rolls over.  The ledger of a chain
lists the accepted and the taken messages in their order.  What a run holds is its buffer and,
before it has started, the messages carried to it.
-/

open Fields

namespace Justflow

open JsonValue

structure Message where
  family : MessageFamily
  key : String
  value : JsonValue

def PendingMessages.accept (self : PendingMessages) (limits : RuntimeLimits) (message : Message) :
    Except EngineException PendingMessages :=
  match message.family with
  | .signals => self.appendSignal limits message.key message.value
  | .events => self.appendEvent limits message.key message.value

/-- How far the current run of a chain has come. -/
inductive Stage where
  /-- The first run has not read its trigger yet. -/
  | fresh
  /-- A later run has not merged its continuation yet. -/
  | continuing (carried : PendingMessages)
  | running
  | ended

structure Chain where
  stage : Stage
  buffer : PendingMessages
  accepted : List Message
  taken : List Message

inductive ChainEvent where
  /-- A signal handler appends a normalized message. -/
  | arrive (message : Message)
  /-- A wait takes a message under the first of its keys that has one, or times out. -/
  | take (family : MessageFamily) (acceptedKeys : List String)
  | start
  | rollover
  | fail

namespace Chain

variable (limits : RuntimeLimits)

def initial : Chain :=
  ⟨.fresh, .empty, [], []⟩

/-- The messages that the chain still has. -/
def held (self : Chain) : PendingMessages :=
  match self.stage with
  | .continuing carried => .restore carried self.buffer
  | _ => self.buffer

def receive (self : Chain) (message : Message) : Chain :=
  match self.buffer.accept limits message with
  | .ok buffer => { self with buffer, accepted := self.accepted ++ [message] }
  | .error _ => self

def takeMessage (self : Chain) (family : MessageFamily) (acceptedKeys : List String) : Chain :=
  match self.buffer.firstWaiting family acceptedKeys with
  | none => self
  | some key =>
      match self.buffer.pop family key with
      | none => self
      | some (value, buffer) => { self with buffer, taken := self.taken ++ [⟨family, key, value⟩] }

def step (self : Chain) (event : ChainEvent) : Chain :=
  match event, self.stage with
  | _, .ended => self
  | .arrive message, _ => self.receive limits message
  | .take family acceptedKeys, .running => self.takeMessage family acceptedKeys
  | .take _ _, _ => self
  | .start, .fresh => { self with stage := .running }
  | .start, .continuing _ =>
      match self.held.validate limits "workflow.pending_messages" with
      | .ok () => { self with stage := .running, buffer := self.held }
      | .error _ => { self with stage := .ended, buffer := self.held }
  | .start, .running => self
  | .rollover, .running =>
      { self with stage := .continuing self.buffer.carry, buffer := .empty }
  | .rollover, _ => self
  | .fail, _ => { self with stage := .ended, buffer := self.held }

def run (self : Chain) (events : List ChainEvent) : Chain :=
  events.foldl (step limits) self

/-! ## The ledger -/

/-- The values of the messages of a family under a key, in their order. -/
def under (messages : List Message) (family : MessageFamily) (key : String) : List JsonValue :=
  (messages.filter fun message => message.family = family ∧ message.key = key).map (·.value)

theorem under_append (messages more : List Message) (family : MessageFamily) (key : String) :
    under (messages ++ more) family key = under messages family key ++ under more family key := by
  simp [under]

theorem under_singleton (message : Message) (family : MessageFamily) (key : String) :
    under [message] family key =
      if family = message.family ∧ key = message.key then [message.value] else [] := by
  by_cases h : family = message.family ∧ key = message.key
  · obtain ⟨rfl, rfl⟩ := h
    simp [under]
  · have h' : ¬ (message.family = family ∧ message.key = key) :=
      fun heq => h ⟨heq.1.symm, heq.2.symm⟩
    simp [under, h, h']

/-- The taken messages and then the held ones are the accepted ones, key by key, up to the order of
object keys; and no key is there without a message. -/
structure Kept (chain : Chain) : Prop where
  ledger : ∀ family key, (under chain.taken family key ++ chain.held.waiting family key).map wire =
    (under chain.accepted family key).map wire
  buffered : chain.buffer.NoneEmpty
  carried : ∀ carried, chain.stage = .continuing carried → carried.NoneEmpty

theorem kept_initial : Kept initial := by
  constructor
  · intro family key
    cases family <;> rfl
  · exact PendingMessages.noneEmpty_empty
  · nofun

variable {limits} {chain : Chain}

theorem accept_eq_ok {buffer next : PendingMessages} {message : Message}
    (h : buffer.accept limits message = .ok next) :
    next = buffer.withQueues message.family
        ((buffer.queues message.family).push message.key message.value) ∧
      next.count ≤ limits.queuedMessages ∧ next.byteCount ≤ limits.queuedMessageBytes := by
  obtain ⟨family, key, value⟩ := message
  cases family <;> exact PendingMessages.append_eq_ok h

theorem Kept.heldNoneEmpty (kept : Kept chain) : chain.held.NoneEmpty := by
  unfold held
  split
  · next carried hstage => exact (kept.carried carried hstage).restore kept.buffered
  · exact kept.buffered

/-- What a chain holds grows at its end with its buffer. -/
theorem held_grown {buffer : PendingMessages} {family : MessageFamily} {key : String}
    {more : List JsonValue}
    (h : buffer.waiting family key = chain.buffer.waiting family key ++ more)
    (accepted taken : List Message) :
    (held ⟨chain.stage, buffer, accepted, taken⟩).waiting family key =
      chain.held.waiting family key ++ more := by
  simp only [held]
  split
  · rw [PendingMessages.waiting_restore, PendingMessages.waiting_restore, h, List.append_assoc]
  · exact h

theorem Kept.receive (kept : Kept chain) (message : Message) :
    Kept (chain.receive limits message) := by
  unfold Chain.receive
  split
  · next buffer haccept =>
      obtain ⟨rfl, _, _⟩ := accept_eq_ok haccept
      constructor
      · intro family key
        rw [held_grown (PendingMessages.waiting_pushed message.family family message.key key _), under_append, under_singleton, ← List.append_assoc,
          List.map_append, kept.ledger family key, ← List.map_append]
      · exact kept.buffered.withQueues ((kept.buffered message.family).push _ _)
      · exact kept.carried
  · exact kept

theorem Kept.takeMessage (kept : Kept chain) (hstage : chain.stage = .running)
    (family : MessageFamily) (acceptedKeys : List String) :
    Kept (chain.takeMessage family acceptedKeys) := by
  unfold Chain.takeMessage
  split
  · exact kept
  · next key _ =>
      split
      · exact kept
      · next value buffer hpop =>
          constructor
          · intro other under'
            have hheld : chain.held = chain.buffer := by simp only [held, hstage]
            have ledger := kept.ledger other under'
            rw [hheld, PendingMessages.waiting_popped hpop other under'] at ledger
            simp only [held, hstage]
            rw [under_append, under_singleton, ← ledger, List.append_assoc]
          · exact kept.buffered.pop hpop
          · intro carried hcarried
            rw [hstage] at hcarried
            cases hcarried

/-- A run that holds the same messages in its buffer keeps the ledger. -/
theorem Kept.settle (kept : Kept chain) {stage : Stage}
    (hstage : ∀ carried, stage ≠ .continuing carried) :
    Kept { chain with stage, buffer := chain.held } := by
  have hheld : held { chain with stage, buffer := chain.held } = chain.held := by
    rw [held]
    split
    · next carried heq => exact absurd heq (hstage carried)
    · rfl
  constructor
  · intro family key
    rw [hheld]
    exact kept.ledger family key
  · exact kept.heldNoneEmpty
  · exact fun carried heq => absurd heq (hstage carried)

theorem Kept.rollover (kept : Kept chain) (hstage : chain.stage = .running) :
    Kept { chain with stage := .continuing chain.buffer.carry, buffer := .empty } := by
  have hheld : chain.held = chain.buffer := by simp only [held, hstage]
  constructor
  · intro family key
    have empty : PendingMessages.empty.waiting family key = [] := by cases family <;> rfl
    have ledger := kept.ledger family key
    rw [hheld] at ledger
    simp only [held]
    rw [PendingMessages.waiting_restore, PendingMessages.waiting_carry, empty, List.append_nil,
      List.map_append, List.map_map, ← ledger, List.map_append]
    congr 1
    exact List.map_congr_left fun value _ => wire_wire value
  · exact PendingMessages.noneEmpty_empty
  · intro carried hcarried
    cases hcarried
    exact kept.buffered.carry

theorem Kept.step (kept : Kept chain) (event : ChainEvent) : Kept (chain.step limits event) := by
  unfold Chain.step
  split
  · exact kept
  · exact kept.receive _
  · next hstage => exact kept.takeMessage hstage _ _
  · exact kept
  · next hstage =>
      have hheld : chain.held = chain.buffer := by simp only [held, hstage]
      have settled : Kept { chain with stage := .running, buffer := chain.held } :=
        kept.settle nofun
      rwa [hheld] at settled
  · split
    · exact kept.settle nofun
    · exact kept.settle nofun
  · exact kept
  · next hstage => exact kept.rollover hstage
  · exact kept
  · exact kept.settle nofun

theorem kept_run (kept : Kept chain) (events : List ChainEvent) : Kept (chain.run limits events) := by
  induction events generalizing chain with
  | nil => exact kept
  | cons event rest ih => exact ih (kept.step event)

end Chain

end Justflow
