import Justflow.Engine.Delivery
import Justflow.Engine.Relay

/-!
# Which responses an invocation accepts

A step that a queue serves waits under two keys: one is made of the identity of its invocation,
the other of the correlation identity of the workflow.  A response names one of these identities,
its step and its action.  An invocation accepts what comes under its keys, so it accepts a response
to another invocation exactly where a key of both is the same text.
-/

open Fields

namespace Justflow

section Invocations

variable (hashing : Hashing)

/-- One invocation of an asynchronous step, within the bounds of its request envelope.  The number
tells the visits, the items and the attempts of a workflow apart; a workflow without a correlation
identity has its request id in its place. -/
structure AwaitingInvocation where
  number : Nat
  workflowId : BoundedText maxMessageIdentifierLength
  workflowRunId : BoundedText maxMessageIdentifierLength
  correlationId : BoundedText maxMessageIdentifierLength
  stepName : BoundedText maxMessageIdentifierLength
  action : BoundedText maxActionLength
  deriving DecidableEq

namespace AwaitingInvocation

variable (self : AwaitingInvocation)

def stepInvocationId : String :=
  makeStepInvocationId hashing self.workflowId.text self.workflowRunId.text self.stepName.text

/-- The key that the queue transport returns with its dispatch. -/
def dispatchKey : String :=
  makeSignalKey (self.stepInvocationId hashing) self.stepName.text self.action.text

/-- `alternate_keys`; the second one is a patch. -/
def alternateKeys (patched : Bool) : List String :=
  [makeSignalKey (self.stepInvocationId hashing) self.stepName.text self.action.text]
    ++ if patched then
        [makeSignalKey self.correlationId.text self.stepName.text self.action.text]
      else []

/-- `accepted_keys`, each once. -/
def acceptedKeys (patched : Bool) : List String :=
  (self.dispatchKey hashing :: self.alternateKeys hashing patched).eraseDups

/-- What follows the identity in a key. -/
def address : String :=
  self.stepName.text ++ ":" ++ self.action.text

theorem makeSignalKey_address (identity : String) :
    makeSignalKey identity self.stepName.text self.action.text =
      identity ++ (":" ++ self.address) := by
  simp only [makeSignalKey, address, String.append_assoc]

theorem mem_acceptedKeys {patched : Bool} {key : String} :
    key ∈ self.acceptedKeys hashing patched ↔
      key = self.stepInvocationId hashing ++ (":" ++ self.address) ∨
        patched = true ∧ key = self.correlationId.text ++ (":" ++ self.address) := by
  rw [acceptedKeys, List.mem_eraseDups, dispatchKey, alternateKeys, makeSignalKey_address,
    makeSignalKey_address]
  cases patched <;> simp

end AwaitingInvocation

/-- A response on its way to a workflow. -/
structure Response where
  workflowId : String
  payload : SignalPayload

/-- The message that the signal handler appends for a response. -/
def Response.message (self : Response) : Message where
  family := .signals
  key := makeSignalKey self.payload.requestId self.payload.stepName self.payload.action
  value := self.payload.modelDump

/-- A response is addressed to an invocation by its identity or by the correlation identity. -/
structure Response.Addresses (response : Response) (invocation : AwaitingInvocation) :
    Prop where
  workflowId : response.workflowId = invocation.workflowId.text
  requestId : response.payload.requestId = invocation.stepInvocationId hashing ∨
    response.payload.requestId = invocation.correlationId.text
  stepName : response.payload.stepName = invocation.stepName.text
  action : response.payload.action = invocation.action.text

/-- The invocation waits in a chain of its workflow and takes the response from the buffer. -/
def Accepts (limits : RuntimeLimits) (patched : Bool) (chain : Chain)
    (invocation : AwaitingInvocation) (response : Response) : Prop :=
  response.workflowId = invocation.workflowId.text ∧
    ∃ value, (chain.step limits (.take .signals (invocation.acceptedKeys hashing patched))).taken =
        chain.taken ++ [⟨.signals, response.message.key, value⟩]
      ∧ value.wire = response.message.value.wire

/-- A text under which a response to the first invocation may come and for which the second one
waits. -/
inductive SharedKey (patched : Bool) (first second : AwaitingInvocation) : Prop where
  /-- The same step and action are invoked again in one run. -/
  | repeated (run : first.workflowRunId = second.workflowRunId)
      (step : first.stepName = second.stepName) (action : first.action = second.action)
  /-- The correlation identity, the step and the action are joined to the same text. -/
  | correlated (accepts : patched = true)
      (same : first.correlationId.text ++ (":" ++ first.address) =
        second.correlationId.text ++ (":" ++ second.address))
  /-- The correlation identity begins with the identity of an invocation. -/
  | opening (accepts : patched = true)
      (same : first.stepInvocationId hashing ++ (":" ++ first.address) =
        second.correlationId.text ++ (":" ++ second.address))
  | opened (same : first.correlationId.text ++ (":" ++ first.address) =
      second.stepInvocationId hashing ++ (":" ++ second.address))

/-- Of these invocations, each accepts only the responses that are addressed to it. -/
def Isolated (patched : Bool) (invocations : List AwaitingInvocation) : Prop :=
  ∀ first ∈ invocations, ∀ second ∈ invocations, ∀ limits events response,
    response.Addresses hashing first →
      Accepts hashing limits patched (Chain.initial.run limits events) second response →
        first = second

end Invocations

/-! ## What a wait takes -/

/-- A wait takes a message under one of its keys. -/
theorem mem_of_taken {limits : RuntimeLimits} {chain : Chain} {keys : List String}
    {message : Message}
    (h : (chain.step limits (.take .signals keys)).taken = chain.taken ++ [message]) :
    message.key ∈ keys := by
  cases hstage : chain.stage with
  | running =>
      simp only [Chain.step.eq_def, hstage, Chain.takeMessage] at h
      split at h
      · simp at h
      · rename_i key hkey
        split at h
        · simp at h
        · simp only [List.append_cancel_left_eq, List.cons.injEq, and_true] at h
          rw [← h]
          exact List.mem_of_find?_eq_some hkey
  | _ =>
      simp [Chain.step.eq_def, hstage] at h

/-- The first message of a chain waits for the first wait that has its key. -/
theorem taken_of_mem {keys : List String} {message : Message} (family : message.family = .signals)
    (mem : message.key ∈ keys) :
    ∃ limits, ((Chain.initial.run limits [.arrive message, .start]).step limits
      (.take .signals keys)).taken =
        (Chain.initial.run limits [.arrive message, .start]).taken ++ [message] := by
  obtain ⟨_, key, value⟩ := message
  subst family
  let buffer : PendingMessages := ⟨[(key, [value])], []⟩
  let limits : RuntimeLimits := {
    queuedMessageBytes := buffer.byteCount + 1
    positive := by simp }
  refine ⟨limits, ?_⟩
  have counted : buffer.count ≤ limits.queuedMessages := by
    show 1 ≤ 1000
    decide
  have appended : PendingMessages.empty.appendSignal limits key value = .ok buffer := by
    show PendingMessages.append _ _ _ _ _ _ = _
    simp only [PendingMessages.append, PendingMessages.validate]
    rw [show PendingMessages.empty.withQueues .signals
      ((PendingMessages.empty.queues .signals).push key value) = buffer from rfl,
      enforceLimit_ok_iff.mpr counted, enforceLimit_ok_iff.mpr (Nat.le_succ _)]
    rfl
  have run : Chain.initial.run limits [.arrive ⟨.signals, key, value⟩, .start] =
      ⟨.running, buffer, [⟨.signals, key, value⟩], []⟩ := by
    simp [Chain.run, Chain.initial, Chain.step, Chain.receive, PendingMessages.accept, appended]
  have waits : ∀ other, ((buffer.queues .signals).waiting other).length ≠ 0 ↔ other = key := by
    intro other
    by_cases same : other = key
    · simp [buffer, PendingMessages.queues, Queues.waiting, same]
    · have differs : (other == key) = false := by simpa using same
      simp [buffer, PendingMessages.queues, Queues.waiting, List.lookup_cons, same, differs]
  have found : buffer.firstWaiting .signals keys = some key := by
    rw [PendingMessages.firstWaiting]
    cases hfound : keys.find? fun other =>
        ((buffer.queues .signals).waiting other).length ≠ 0 with
    | none =>
        have absent := List.find?_eq_none.mp hfound key mem
        simp only [waits, decide_true, not_true_eq_false] at absent
    | some other =>
        have here := List.find?_some hfound
        simp only [waits, decide_eq_true_eq] at here
        rw [here]
  have popped : buffer.pop .signals key = some (value, .empty) := by
    simp [buffer, PendingMessages.pop, PendingMessages.queues, PendingMessages.withQueues,
      Queues.pop, Queues.waiting, PendingMessages.empty]
  rw [run]
  simp [Chain.step, Chain.takeMessage, found, popped]

/-! ## Keys of two invocations -/

variable {hashing : Hashing} {patched : Bool} {first second : AwaitingInvocation}

/-- Identities have one length, so a key tells its identity from its address. -/
theorem digest_key_inj {first second : Digest} {address other : String}
    (h : first.text ++ (":" ++ address) = second.text ++ (":" ++ other)) :
    first.text = second.text ∧ address = other := by
  have texts := congrArg String.toList h
  simp only [String.toList_append] at texts
  have same := List.append_inj texts (by
    rw [String.length_toList, String.length_toList, first.length, second.length])
  refine ⟨String.toList_injective same.1, String.toList_injective ?_⟩
  exact List.append_cancel_left same.2

theorem Response.Addresses.key {response : Response}
    (h : response.Addresses hashing first) :
    response.message.key = first.stepInvocationId hashing ++ (":" ++ first.address) ∨
      response.message.key = first.correlationId.text ++ (":" ++ first.address) := by
  show makeSignalKey _ _ _ = _ ∨ makeSignalKey _ _ _ = _
  rw [h.stepName, h.action, first.makeSignalKey_address]
  rcases h.requestId with same | same
  · exact .inl (by rw [same])
  · exact .inr (by rw [same])

theorem BoundedText.ext_text {limit : Nat} {a b : BoundedText limit} (h : a.text = b.text) :
    a = b := by
  cases a
  cases b
  simpa using h

/-- A key that two invocations share is one of those of `SharedKey`. -/
theorem SharedKey.of_mem (apart : first.stepInvocationId hashing = second.stepInvocationId hashing →
      first.workflowRunId = second.workflowRunId ∧ first.stepName = second.stepName)
    {response : Response} (addresses : response.Addresses hashing first)
    (mem : response.message.key ∈ second.acceptedKeys hashing patched) :
    SharedKey hashing patched first second := by
  rcases addresses.key with key | key
  · rcases (second.mem_acceptedKeys hashing).mp mem with same | ⟨accepts, same⟩
    · obtain ⟨identity, address⟩ := digest_key_inj (key.symm.trans same)
      obtain ⟨run, step⟩ := apart identity
      refine .repeated run step ?_
      rw [AwaitingInvocation.address, AwaitingInvocation.address, step] at address
      refine BoundedText.ext_text (String.toList_injective ?_)
      simpa using congrArg String.toList address
    · exact .opening accepts (key.symm.trans same)
  · rcases (second.mem_acceptedKeys hashing).mp mem with same | ⟨accepts, same⟩
    · exact .opened (key.symm.trans same)
    · exact .correlated accepts (key.symm.trans same)

/-- A response that names an invocation by one of its identities. -/
def responseTo (invocation : AwaitingInvocation) (requestId : String) : Response where
  workflowId := invocation.workflowId.text
  payload := {
    requestId
    stepName := invocation.stepName.text
    action := invocation.action.text
    status := .success
    stepResponse := .null
    error := none }

theorem responseTo_key (invocation : AwaitingInvocation) (requestId : String) :
    (responseTo invocation requestId).message.key =
      requestId ++ (":" ++ invocation.address) :=
  invocation.makeSignalKey_address requestId

/-- A response to the first invocation comes under a key of the second one. -/
theorem SharedKey.exists_response (h : SharedKey hashing patched first second)
    (workflow : first.workflowId = second.workflowId) :
    ∃ response : Response, response.Addresses hashing first ∧
      response.message.key ∈ second.acceptedKeys hashing patched := by
  have own : (responseTo first (first.stepInvocationId hashing)).Addresses hashing first :=
    ⟨rfl, .inl rfl, rfl, rfl⟩
  have correlation : (responseTo first first.correlationId.text).Addresses hashing first :=
    ⟨rfl, .inr rfl, rfl, rfl⟩
  cases h with
  | repeated run step action =>
      refine ⟨_, own, ?_⟩
      rw [responseTo_key, second.mem_acceptedKeys, AwaitingInvocation.stepInvocationId,
        AwaitingInvocation.stepInvocationId, AwaitingInvocation.address, AwaitingInvocation.address,
        workflow, run, step, action]
      exact .inl rfl
  | correlated accepts same =>
      refine ⟨_, correlation, ?_⟩
      rw [responseTo_key, second.mem_acceptedKeys]
      exact .inr ⟨accepts, same⟩
  | opening accepts same =>
      refine ⟨_, own, ?_⟩
      rw [responseTo_key, second.mem_acceptedKeys]
      exact .inr ⟨accepts, same⟩
  | opened same =>
      refine ⟨_, correlation, ?_⟩
      rw [responseTo_key, second.mem_acceptedKeys]
      exact .inl same

/-- Such a response is accepted by the second invocation where it is the first to come. -/
theorem SharedKey.exists_accepted (h : SharedKey hashing patched first second)
    (workflow : first.workflowId = second.workflowId) :
    ∃ limits events response, Response.Addresses hashing response first ∧
      Accepts hashing limits patched (Chain.initial.run limits events) second response := by
  obtain ⟨response, addresses, mem⟩ := h.exists_response workflow
  obtain ⟨limits, taken⟩ := taken_of_mem rfl mem
  refine ⟨limits, _, response, addresses, ?_, _, taken, rfl⟩
  rw [addresses.workflowId, workflow]

/-- In every run, invocations accept no response to one another, exactly where no two of them
share a key. -/
theorem isolated_iff (hashing : Hashing) (patched : Bool) (invocations : List AwaitingInvocation)
    (apart : ∀ first ∈ invocations, ∀ second ∈ invocations,
      first.stepInvocationId hashing = second.stepInvocationId hashing →
        first.workflowRunId = second.workflowRunId ∧ first.stepName = second.stepName) :
    Isolated hashing patched invocations ↔
      ∀ first ∈ invocations, ∀ second ∈ invocations, first ≠ second →
        first.workflowId = second.workflowId → ¬ SharedKey hashing patched first second := by
  constructor
  · intro isolated first hfirst second hsecond other workflow shared
    obtain ⟨limits, events, response, addresses, accepts⟩ := shared.exists_accepted workflow
    exact other (isolated first hfirst second hsecond limits events response addresses accepts)
  · intro distinct first hfirst second hsecond limits events response addresses accepts
    by_contra other
    obtain ⟨workflow, value, taken, -⟩ := accepts
    have same : first.workflowId = second.workflowId :=
      BoundedText.ext_text (addresses.workflowId.symm.trans workflow)
    let message : Message := ⟨.signals, response.message.key, value⟩
    have mem : message.key ∈ second.acceptedKeys hashing patched := mem_of_taken taken
    exact distinct first hfirst second hsecond other same
      (.of_mem (apart first hfirst second hsecond) addresses mem)

/-! ## A late response -/

/-- A workflow that charges an order by a queue. -/
def chargeOnce : AwaitingInvocation where
  number := 1
  workflowId := ⟨"order-7", by decide, by decide⟩
  workflowRunId := ⟨"run-1", by decide, by decide⟩
  correlationId := ⟨"order-7", by decide, by decide⟩
  stepName := ⟨"charge", by decide, by decide⟩
  action := ⟨"card", by decide, by decide⟩

/-- No response came in time, and the handler of the failure led back. -/
def chargeAgain : AwaitingInvocation :=
  { chargeOnce with number := 2 }

def shipFrom (stepName : BoundedText maxMessageIdentifierLength)
    (action : BoundedText maxActionLength) : AwaitingInvocation :=
  { chargeOnce with stepName, action }

/-- The separator stands in the action here, and in the name of the step below. -/
def shipSplit : AwaitingInvocation :=
  shipFrom ⟨"ship", by decide, by decide⟩ ⟨"fast:air", by decide, by decide⟩

def shipJoined : AwaitingInvocation :=
  shipFrom ⟨"ship:fast", by decide, by decide⟩ ⟨"air", by decide, by decide⟩

theorem not_isolated_of_shared (shared : SharedKey hashing patched first second)
    (workflow : first.workflowId = second.workflowId) (other : first ≠ second) :
    ¬ Isolated hashing patched [first, second] := by
  intro isolated
  obtain ⟨limits, events, response, addresses, accepts⟩ := shared.exists_accepted workflow
  exact other (isolated first (by simp) second (by simp) limits events response addresses accepts)

/-- The second charge accepts a late response to the first one; and steps and actions that are
joined to one text accept the responses of one another. -/
theorem late_response_accepted :
    ¬ Isolated lengthHash false [chargeOnce, chargeAgain] ∧
      ¬ Isolated lengthHash true [shipSplit, shipJoined] :=
  ⟨not_isolated_of_shared (.repeated rfl rfl rfl) rfl (by decide),
    not_isolated_of_shared (.correlated rfl (by decide)) rfl (by decide)⟩

/-- Two steps of one run. -/
theorem isolated_iff_steps :
    Isolated lengthHash true [chargeOnce, shipSplit] ↔
      ∀ first ∈ [chargeOnce, shipSplit], ∀ second ∈ [chargeOnce, shipSplit], first ≠ second →
        first.workflowId = second.workflowId → ¬ SharedKey lengthHash true first second :=
  isolated_iff lengthHash true [chargeOnce, shipSplit] (by decide)

end Justflow
