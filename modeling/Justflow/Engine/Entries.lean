import Justflow.Engine.Edges

/-!
# Entries of steps

The audit, the child workflow ids and the keys of response signals all go by the name of a step,
as if no step were entered twice.  Execution edges cannot lead back, and the cycle check looks at
no other edges, so what matters is where a handler, or an astray default, comes back into the
flow.
-/

open Fields Program

namespace Justflow

variable {σ : Type}

/-- The steps entered at some positions; a run that resumes a loop does not enter its step. -/
def entries (positions : List (Position σ)) : List String :=
  (positions.filter fun p => p.loop.isNone).map Position.name

/-- A move off the execution edges to where a step already entered can be reached. -/
def WorkflowConfig.Rejoins (self : WorkflowConfig) (entered : List String)
    (source target : String) : Prop :=
  ¬ self.IsExecutionEdge source target ∧ ∃ name ∈ entered, name ∈ self.reachable [target]

/-- No move of a run rejoins what the run has entered; the positions are given latest first. -/
def WorkflowConfig.NeverRejoins (self : WorkflowConfig) : List (Position σ) → Prop
  | q :: p :: earlier =>
      (q.loop = none → ¬ self.Rejoins (entries (p :: earlier)) p.name q.name)
        ∧ self.NeverRejoins (p :: earlier)
  | _ => True

/-! ## Reachability along execution edges -/

/-- A path along execution edges, over declared steps. -/
def WorkflowConfig.ExecutionPath (self : WorkflowConfig) : String → String → Prop :=
  Digraph.Path (fun name => self.names.contains name) (outgoing self.executionEdges)

theorem mem_reachable {workflow : WorkflowConfig} {entries : List String} {name : String} :
    name ∈ workflow.reachable entries ↔ ∃ entry ∈ entries, workflow.ExecutionPath entry name :=
  Digraph.mem_closure_iff (fun x hx => by simpa using hx) le_rfl

theorem ExecutionPath.declared {workflow : WorkflowConfig} {source target : String}
    (h : workflow.ExecutionPath source target) :
    source ∈ workflow.names ∧ target ∈ workflow.names :=
  ⟨by simpa using h.allowed_source, by simpa using h.allowed_target⟩

section Accepted

variable {parse : ExpressionParser} {limits : RuntimeLimits} {workflow : WorkflowConfig}

/-- Execution edges lead to no step twice. -/
theorem not_path_back (h : Accepted parse limits workflow) {source target : String}
    (declared : source ∈ workflow.names) (edge : workflow.IsExecutionEdge source target) :
    ¬ workflow.ExecutionPath target source := by
  obtain ⟨height, hfalls⟩ := Digraph.exists_rank_of_findCycle h.acyclic
  have hpath : ∀ {x y : String}, workflow.ExecutionPath x y → height y ≤ height x := by
    intro x y path
    induction path with
    | refl _ => exact le_rfl
    | step admitted next rest ih =>
        have := hfalls _ (by simpa using admitted) _ next
        omega
  intro back
  have := hfalls source (mem_stepNames.mpr declared) target (mem_outgoing.mpr edge)
  have := hpath back
  omega

end Accepted

/-! ## Runs -/

theorem entries_cons_fresh {q : Position σ} {trail : List (Position σ)} (h : q.loop = none) :
    entries (q :: trail) = q.name :: entries trail := by
  simp [entries, h]

theorem entries_cons_resumed {q : Position σ} {trail : List (Position σ)}
    {loop : LoopCheckpoint} (h : q.loop = some loop) : entries (q :: trail) = entries trail := by
  simp [entries, h]

/-- The steps entered before the present one are declared, and no execution edges lead back to
them. -/
structure Ahead (workflow : WorkflowConfig) (trail : List (Position σ)) (q : Position σ) :
    Prop where
  nodup : (entries (q :: trail)).Nodup
  behind : ∀ name ∈ entries (q :: trail), name ≠ q.name →
    name ∈ workflow.names ∧ ¬ workflow.ExecutionPath q.name name

/-- Every stride keeps the run ahead of what it has entered, unless it rejoins. -/
theorem Ahead.stride {self : FlowRunner σ} {parse : ExpressionParser} {limits : RuntimeLimits}
    (accepted : Accepted parse limits self.config) {trail : List (Position σ)}
    {p q : Position σ} (h : Ahead self.config trail p) (stride : Stride self p q)
    (clear : q.loop = none → ¬ self.config.Rejoins (entries (p :: trail)) p.name q.name) :
    Ahead self.config (p :: trail) q := by
  cases stride with
  | interrupted declared goes name seq further ahead bound carried =>
      exact ⟨by rw [entries_cons_resumed further]; exact h.nodup,
        by rw [entries_cons_resumed further, name]; exact h.behind⟩
  | left declared goes seq fresh departure carried small =>
      obtain ⟨hmem, hname⟩ := flowStep_mem declared
      have hpassed : p.name ∈ self.config.names := List.mem_map.mpr ⟨_, hmem, hname⟩
      have hdeclared : ∀ name ∈ entries (p :: trail), name ∈ self.config.names := by
        intro name hentered
        by_cases hp : name = p.name
        · exact hp ▸ hpassed
        · exact (h.behind name hentered hp).1
      have hbehind : ∀ name ∈ entries (p :: trail), ¬ self.config.ExecutionPath q.name name := by
        intro name hentered path
        by_cases hedge : self.config.IsExecutionEdge p.name q.name
        · by_cases hp : name = p.name
          · exact not_path_back accepted hpassed hedge (hp ▸ path)
          · exact (h.behind name hentered hp).2
              (.step (by simpa using hpassed) (mem_outgoing.mpr hedge) path)
        · exact clear fresh ⟨hedge, name, hentered, mem_reachable.mpr ⟨q.name, by simp, path⟩⟩
      have hnew : q.name ∉ entries (p :: trail) := fun hentered =>
        hbehind q.name hentered (.refl (by simpa using hdeclared q.name hentered))
      constructor
      · rw [entries_cons_fresh fresh]
        exact List.nodup_cons.mpr ⟨hnew, h.nodup⟩
      · rw [entries_cons_fresh fresh]
        intro name hentered hother
        have hentered := (List.mem_cons.mp hentered).resolve_left hother
        exact ⟨hdeclared name hentered, hbehind name hentered⟩

instance (workflow : WorkflowConfig) (source target : String) :
    Decidable (workflow.IsExecutionEdge source target) :=
  inferInstanceAs (Decidable (∃ edge ∈ workflow.executionEdges, edge.source = source
    ∧ edge.target = target))

instance (workflow : WorkflowConfig) (entered : List String) (source target : String) :
    Decidable (workflow.Rejoins entered source target) :=
  inferInstanceAs (Decidable (_ ∧ _))

instance decidableNeverRejoins (workflow : WorkflowConfig) :
    (positions : List (Position σ)) → Decidable (workflow.NeverRejoins positions)
  | [] => .isTrue trivial
  | [_] => .isTrue trivial
  | q :: p :: earlier =>
      have := decidableNeverRejoins workflow (p :: earlier)
      inferInstanceAs (Decidable ((q.loop = none → ¬ workflow.Rejoins (entries (p :: earlier))
        p.name q.name) ∧ workflow.NeverRejoins (p :: earlier)))

/-- A failing step and its handler, which leads back to the step. -/
def retryWorkflow : WorkflowConfig where
  workflow := "retry"
  steps := [("work", { target := .service "worker" "work" })]
  flow := [
    { name := "first", op := some "work", thenStep := some "second" },
    { name := "second", op := some "work", thenStep := some "done", onFailure := some "again" },
    { name := "again", op := some "work", thenStep := some "first" },
    { name := "done", terminal := true }]


/-- A handler that leads on, instead of back. -/
def recoverWorkflow : WorkflowConfig where
  workflow := "recover"
  steps := [("work", { target := .service "worker" "work" })]
  flow := [
    { name := "first", op := some "work", thenStep := some "done", onFailure := some "repair" },
    { name := "repair", op := some "work", thenStep := some "done" },
    { name := "done", terminal := true }]

end Justflow
