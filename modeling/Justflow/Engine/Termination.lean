import Justflow.Engine.Entries

/-!
# Chains of runs terminate

Failure edges may point back, so the graph alone does not bound a run.  What does is the
checkpoint: a step that is left other than through `then` records a transition, the records are
part of every checkpoint, and with bounded execution a checkpoint over the size limit ends the
run.  Between two records the chain follows `then`, which is acyclic, and inside a step a loop
only moves on.
-/

open Fields Program

namespace Justflow

variable {σ : Type}

/-- A route that records nothing follows `then`. -/
theorem Route.follows_then {step : FlowStep} {target : String} {produced : List String}
    (route : Route step (some target) produced 0) : step.thenStep = some target := by
  generalize hnext : some target = next at route ⊢
  generalize hnone : 0 = recorded at route
  cases route with
  | slept | skipped | continued => rfl
  | undecided => cases hnext
  | timedOut | decided | exhausted => cases hnone

/-- A departure records a transition, or follows `then`. -/
theorem Departure.records {self : FlowRunner σ} {step : FlowStep} {before after : RunState}
    {target : String} (departure : Departure self step before after (some target)) :
    ∃ recorded : List TransitionRecord,
      after.transitions.length = before.transitions.length + recorded.length
        ∧ (1 ≤ recorded.length ∨ recorded = [] ∧ step.thenStep = some target) := by
  generalize hnext : some target = next at departure
  cases departure with
  | @moved next produced recorded effect route episode =>
      subst hnext
      refine ⟨recorded, by rw [effect.transitions, List.length_append], ?_⟩
      cases recorded with
      | nil => exact .inr ⟨rfl, route.follows_then⟩
      | cons record rest => exact .inl (by simp)
  | @routed handler record primary operates declared effect calm episode =>
      exact ⟨[record], by rw [effect.transitions, List.length_append], .inl (by simp)⟩

/-! ## The measure -/

/-- What is left to do at a position: records, then steps along `then`, then rounds of a loop. -/
def FlowRunner.remainder (self : FlowRunner σ) (height : String → Nat) (p : Position σ) : Nat :=
  ((self.limits.workflowStateBytes - p.machine.run.transitions.length)
      * (self.config.names.length + 1) + height p.name) * (self.loopBound + 1)
    + (self.loopBound - (p.loop.map LoopCheckpoint.position).getD 0)

/-- A bound on the visits of a chain of runs. -/
def FlowRunner.visitBound (self : FlowRunner σ) : Nat :=
  (self.limits.workflowStateBytes * (self.config.names.length + 1) + self.config.names.length)
    * (self.loopBound + 1) + self.loopBound

theorem remainder_le_visitBound (self : FlowRunner σ) {height : String → Nat}
    (hheight : ∀ name, height name ≤ self.config.names.length) (p : Position σ) :
    self.remainder height p ≤ self.visitBound := by
  rw [FlowRunner.remainder, FlowRunner.visitBound]
  have := hheight p.name
  gcongr <;> omega

/-- One round less outweighs everything inside a round. -/
theorem round_lt {rounds rounds' inner inner' size : Nat} (hrounds : rounds' < rounds)
    (hinner : inner' ≤ size) :
    rounds' * (size + 1) + inner' < rounds * (size + 1) + inner := by
  have : (rounds' + 1) * (size + 1) ≤ rounds * (size + 1) := Nat.mul_le_mul_right _ hrounds
  rw [Nat.succ_mul] at this
  omega

/-- Every stride takes the chain closer to its end. -/
theorem Stride.remainder_lt {self : FlowRunner σ} {parse : ExpressionParser}
    {limits : RuntimeLimits} (accepted : Accepted parse limits self.config)
    (bounded : self.boundedExecutionEnabled = true) {height : String → Nat}
    (hheight : ∀ name, height name ≤ self.config.names.length)
    (hfalls : ∀ x ∈ self.config.names, ∀ y ∈ outgoing self.config.executionEdges x,
      y ∈ self.config.names → height y < height x) {p q : Position σ} (h : Stride self p q) :
    self.remainder height q < self.remainder height p := by
  unfold FlowRunner.remainder
  cases h with
  | interrupted declared goes name seq further ahead bound carried =>
      have htransitions : q.machine.run.transitions = p.machine.run.transitions :=
        carried.transitions
      rw [htransitions, name, further, Option.map_some, Option.getD_some]
      omega
  | @left step after declared goes seq fresh departure carried small =>
      have hsmall := small bounded
      obtain ⟨recorded, hlength, hrecorded⟩ := departure.records
      have hbefore : (p.machine.run.enter p.name p.seq).transitions
          = p.machine.run.transitions := rfl
      rw [hbefore] at hlength
      rw [carried.transitions, hlength] at hsmall ⊢
      rw [fresh, Option.map_none, Option.getD_none, Nat.sub_zero]
      -- either a record is spent, or the step below is reached along `then`
      have hround : (self.limits.workflowStateBytes
            - (p.machine.run.transitions.length + recorded.length))
              * (self.config.names.length + 1) + height q.name
          < (self.limits.workflowStateBytes - p.machine.run.transitions.length)
              * (self.config.names.length + 1) + height p.name := by
        rcases hrecorded with hspent | ⟨rfl, hthen⟩
        · exact round_lt (by omega) (hheight q.name)
        · obtain ⟨hmem, hname⟩ := flowStep_mem declared
          have hnext : q.name ∈ step.normalSuccessors := by
            simp [FlowStep.normalSuccessors, hthen]
          have hedge := (isExecutionEdge_iff accepted declared goes).mpr hnext
          have hfall := hfalls p.name (List.mem_map.mpr ⟨step, hmem, hname⟩) q.name
            (mem_outgoing.mpr hedge) (accepted.target_declared hmem goes (.inl hthen))
          simpa using hfall
      exact round_lt hround le_rfl

/-! ## The end of a chain -/

theorem chain_isSome {self : FlowRunner σ} (exclusive : self.config.Exclusive)
    {measure : Position σ → Nat}
    (hfalls : ∀ p q, Stride self p q → measure q < measure p) {fuel : Nat} {p : Position σ}
    (hfuel : measure p < fuel) : (self.chain fuel p).isSome := by
  induction fuel generalizing p with
  | zero => omega
  | succ fuel ih =>
      rw [FlowRunner.chain]
      split
      · rename_i next hturn
        have := hfalls p next (stride_of_advances exclusive (.inl hturn))
        exact ih (by omega)
      · rename_i next hturn
        have := hfalls p next (stride_of_advances exclusive (.inr hturn))
        exact ih (by omega)
      · rfl

/-- With bounded execution, a chain of runs of an accepted workflow visits a bounded number of
steps and then ends, from whatever position it starts and whatever its executor answers. -/
theorem chain_terminates (self : FlowRunner σ)
    (accepted : Accepted self.platform.parse self.limits self.config)
    (bounded : self.boundedExecutionEnabled = true) (start : Position σ) :
    (∀ trail q, Walk self start trail q → trail.length ≤ self.visitBound)
      ∧ (self.chain (self.visitBound + 1) start).isSome := by
  obtain ⟨height, hheight, hfalls⟩ := Digraph.exists_bounded_rank accepted.acyclic
  have hlength : ∀ name, height name ≤ self.config.names.length :=
    fun name => (hheight name).trans (stepNames_length_le _)
  simp only [mem_stepNames] at hfalls
  have hstride : ∀ p q, Stride self p q → self.remainder height q < self.remainder height p :=
    fun p q h => h.remainder_lt accepted bounded hlength hfalls
  have hstart := remainder_le_visitBound self hlength start
  refine ⟨fun trail q walk => ?_, ?_⟩
  · have hspent : trail.length + self.remainder height q ≤ self.visitBound := by
      refine walk.invariant accepted.model.exclusive_config
        (fun trail q => trail.length + self.remainder height q ≤ self.visitBound)
        (by simpa using hstart) fun trail p q _ hp hstep => ?_
      have := hstride p q hstep
      rw [List.length_cons]
      omega
    omega
  · exact chain_isSome accepted.model.exclusive_config hstride (by omega)

/-- Where a run of `retryWorkflow` starts. -/
def retryStart : Position Script :=
  { name := "first", seq := 0, loop := none
    machine := (scriptedRunner retryWorkflow).fresh "request" [] }

theorem chain_terminates_retry :
    (∀ trail q, Walk (scriptedRunner retryWorkflow) retryStart trail q →
        trail.length ≤ (scriptedRunner retryWorkflow).visitBound)
      ∧ ((scriptedRunner retryWorkflow).chain ((scriptedRunner retryWorkflow).visitBound + 1)
        retryStart).isSome :=
  chain_terminates (scriptedRunner retryWorkflow) (by decide +kernel) rfl retryStart

end Justflow
