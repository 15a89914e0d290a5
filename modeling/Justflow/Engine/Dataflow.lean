import Justflow.Engine.Availability

/-!
# What a step can rely on

Whenever the run visits a step, the roots that the analysis reads from it are among its outputs
and parameters.  In the normal flow the run has what the normal analysis promises; behind a
handler it has what the handler analysis promises.  The analysis lets only the normal flow fail,
however, so a step that fails after a recovery can leave its handler with less.
-/

open Fields Program JsonValue

namespace Justflow

variable {σ : Type}

/-- The run has a value under each of the names. -/
def RunState.Has (self : RunState) (names : List String) : Prop :=
  ∀ name ∈ names, name ∈ keys self.stepOutputs ∨ name ∈ keys self.params

/-- The step at `p` failed, and the failure was routed to the handler at `q`. -/
def Routed (p q : Position σ) : Prop :=
  (p.machine.run.enter p.name p.seq).activeEpisode = none ∧ q.machine.run.activeEpisode ≠ none

instance (p q : Position σ) : Decidable (Routed p q) :=
  inferInstanceAs (Decidable (_ ∧ _))

/-- The analysis has seen the move: a failure leaves a step with what the normal flow promises
it, and any other move to a declared step goes to a successor of the step. -/
def WorkflowConfig.Foresees (self : WorkflowConfig) (p q : Position σ) : Prop :=
  q.loop = none → q.name ∈ self.names →
    if Routed p q then
      ∀ held ∈ self.normalAvailable.lookup p.name, p.machine.run.Has held
    else q.name ∈ self.successors p.name

theorem RunState.Has.mono {run run' : RunState} {names : List String} (h : run.Has names)
    (houtputs : ∀ key ∈ keys run.stepOutputs, key ∈ keys run'.stepOutputs)
    (hparams : ∀ key ∈ keys run.params, key ∈ keys run'.params) : run'.Has names := by
  intro name hname
  exact (h name hname).imp (houtputs name) (hparams name)

theorem RunState.Has.subset {run : RunState} {names names' : List String} (h : run.Has names)
    (hsubset : names' ⊆ names) : run.Has names' :=
  fun name hname => h name (hsubset hname)

theorem RunState.Has.append {run : RunState} {names names' : List String} (h : run.Has names)
    (h' : run.Has names') : run.Has (names ++ names') := by
  intro name hname
  rcases List.mem_append.mp hname with hname | hname
  · exact h name hname
  · exact h' name hname

theorem lookupRoot_isSome {run : RunState} {names : List String} (h : run.Has names)
    {root : String} (hroot : root ∈ names) :
    (lookupRoot root run.stepOutputs run.params).isSome := by
  unfold lookupRoot
  split
  · rfl
  · rename_i hnone
    rcases h root hroot with houtputs | hparams
    · rw [mem_keys_iff_isSome_lookup, hnone] at houtputs
      cases houtputs
    · exact mem_keys_iff_isSome_lookup.mp hparams

/-! ## Moves and edges -/

section Edges

variable {workflow : WorkflowConfig} {step : FlowStep} {target : String}

theorem EdgeFrom.produced_subset {kind : EdgeKind} {produced : List String}
    (h : EdgeFrom workflow step target kind produced) (hkind : kind ≠ .failure) :
    produced ⊆ producedSymbols step := by
  cases h with
  | skip | timeout | exhaustion => simp
  | success | branch => exact List.Subset.refl _
  | failure => exact absurd rfl hkind

theorem producedSymbols_subset (model : workflow.WellFormed) (hstep : step ∈ workflow.flow) :
    producedSymbols step ⊆ step.stored := by
  have houtput := (model.truthy_names hstep).1
  unfold producedSymbols FlowStep.stored FlowStep.outputKey
  rw [houtput]
  split
  · simp
  · cases step.output <;> simp

/-- A move to a successor follows an execution edge that produces no more than the move. -/
theorem Route.edgeFrom (model : workflow.WellFormed) (hstep : step ∈ workflow.flow)
    (hgoes : step.terminal = false) {produced : List String} {recorded : Nat}
    (route : Route step (some target) produced recorded)
    (htarget : target ∈ step.normalSuccessors) :
    ∃ kind names, kind ≠ .failure ∧ EdgeFrom workflow step target kind names
      ∧ names ⊆ produced := by
  generalize hnext : some target = next at route
  cases route with
  | slept sleeps =>
      have hplain := (model.stepChecks hstep hgoes).2.2.2 sleeps
      have hnone : producedSymbols step = [] := by simp [producedSymbols, sleeps]
      exact ⟨_, _, by simp, .success hplain hnext.symm, by simp [hnone]⟩
  | timedOut waits =>
      exact ⟨_, _, by simp, .timeout (waits.trans hnext.symm), List.Subset.refl _⟩
  | skipped conditional =>
      exact ⟨_, _, by simp, .skip conditional hnext.symm, List.Subset.refl _⟩
  | continued awake plain =>
      exact ⟨_, _, by simp, .success plain hnext.symm, producedSymbols_subset model hstep⟩
  | decided awake mem chosen =>
      obtain ⟨kind, names, hkind, hfrom⟩ :=
        edgeFrom_of_mem_normalSuccessors model hstep hgoes htarget
      exact ⟨kind, names, hkind, hfrom, fun name hname =>
        producedSymbols_subset model hstep (hfrom.produced_subset hkind hname)⟩
  | undecided => cases hnext
  | exhausted loops declared =>
      exact ⟨_, _, by simp, .exhaustion loops (declared.trans hnext.symm), List.Subset.refl _⟩

end Edges

/-! ## The invariant -/

/-- Where the run stands with the analysis at a step it is about to visit. -/
inductive Standing (workflow : WorkflowConfig) (run : RunState) (name : String) : Prop where
  | normal {held : List String} (calm : run.activeEpisode = none)
      (promised : workflow.normalAvailable.lookup name = some held) (has : run.Has held)
  | recovered {held : List String}
      (region : (run.activeEpisode = none ∧ name ∈ workflow.normalReachable)
        ∨ ∃ episode, run.activeEpisode = some episode
          ∧ episode.handlerSteps = workflow.handlerRegion episode.handler
          ∧ (name ∈ episode.handlerSteps ∨ name ∈ workflow.reachableFromEntry))
      (promised : workflow.handlerAvailable.lookup name = some held) (has : run.Has held)

/-- Inside a visit the run is in the region of its handler, or back in the normal flow. -/
theorem Standing.entered {workflow : WorkflowConfig} {run : RunState} {name : String}
    (model : workflow.WellFormed) (h : Standing workflow run name) (seq : Nat) :
    ((run.enter name seq).activeEpisode = none ∧ name ∈ workflow.normalReachable)
      ∨ ∃ episode, (run.enter name seq).activeEpisode = some episode
        ∧ episode.handlerSteps = workflow.handlerRegion episode.handler
        ∧ name ∈ episode.handlerSteps := by
  cases h with
  | normal calm promised has =>
      exact .inl ⟨by simp [RunState.enter, calm], reachable_of_mustAvailable promised⟩
  | recovered region promised has =>
      obtain ⟨calm, hnormal⟩ | ⟨episode, hepisode, hregion, hinside⟩ := region
      · exact .inl ⟨by simp [RunState.enter, calm], hnormal⟩
      · by_cases hmem : name ∈ episode.handlerSteps
        · exact .inr ⟨episode, by simp [RunState.enter, hepisode, hmem], hregion, hmem⟩
        · exact .inl ⟨by simp [RunState.enter, hepisode, hmem],
            reachableFromEntry_subset model (hinside.resolve_left hmem)⟩

section Strides

variable {self : FlowRunner σ} {parse : ExpressionParser} {p q : Position σ} {step : FlowStep}
  {after : RunState}

theorem Carried.has {run run' : RunState} (h : Carried run run') {names : List String}
    (has : run.Has names) : run'.Has names :=
  has.mono (fun key hkey => (h.outputs key).mpr hkey) fun key hkey => (h.params key).mpr hkey

theorem Effect.has {before : RunState} {produced names held : List String}
    {recorded : List TransitionRecord} (h : Effect before after produced recorded)
    (has : before.Has held) (hnames : names ⊆ produced) : after.Has (held ++ names) := by
  refine RunState.Has.append ?_ fun name hname => .inl (h.produces name (hnames hname))
  exact has.mono h.keeps fun key hkey => h.params ▸ hkey

theorem Standing.moved (model : self.config.WellFormed)
    (silent : analyzeWorkflow parse self.config = [])
    (h : Standing self.config p.machine.run p.name)
    (declared : self.config.flowStep p.name = some step) (goes : step.terminal = false)
    {produced : List String} {recorded : List TransitionRecord}
    (effect : Effect (p.machine.run.enter p.name p.seq) after produced recorded)
    (route : Route step (some q.name) produced recorded.length)
    (episode : after.activeEpisode = (p.machine.run.enter p.name p.seq).activeEpisode)
    (carried : Carried after q.machine.run) (hname : q.name ∈ self.config.names)
    (htarget : q.name ∈ self.config.successors p.name) :
    Standing self.config q.machine.run q.name := by
  obtain ⟨hmem, hsource⟩ := flowStep_mem declared
  have hsuccessor : q.name ∈ step.normalSuccessors := by
    simpa [WorkflowConfig.successors, declared] using htarget
  obtain ⟨kind, names, hkind, hfrom, hnames⟩ := route.edgeFrom model hmem goes hsuccessor
  have hbuilt := mem_buildEdges_of_edgeFrom hmem goes hname hfrom
  rw [hsource] at hbuilt
  have hedge : { source := p.name, target := q.name, kind, produced := names }
      ∈ self.config.executionEdges := List.mem_filter.mpr ⟨hbuilt, by simpa using hkind⟩
  have hstep : self.config.IsExecutionEdge p.name q.name := ⟨_, hedge, rfl, rfl⟩
  have hcalm := h.entered model p.seq
  rw [← episode, ← carried.episode] at hcalm
  cases h with
  | normal calm promised has =>
      have hreach := mem_reachable_of_edge (reachable_of_mustAvailable promised) hstep
      obtain ⟨held, hheld, hsubset⟩ := mustAvailable_edge silent hedge hreach promised
      refine .normal ?_ hheld (carried.has ((effect.has has hnames).subset hsubset))
      rw [carried.episode, episode]
      simp [RunState.enter, calm]
  | recovered region promised has =>
      have hreach := mem_reachable_of_edge (reachable_of_mustAvailable promised) hstep
      obtain ⟨held, hheld, hsubset⟩ := mustAvailable_edge silent hedge hreach promised
      refine .recovered ?_ hheld (carried.has ((effect.has has hnames).subset hsubset))
      obtain ⟨hnone, hnormal⟩ | ⟨episode, hepisode, hregion, hinside⟩ := hcalm
      · exact .inl ⟨hnone, mem_reachable_of_edge hnormal hstep⟩
      · refine .inr ⟨episode, hepisode, hregion, ?_⟩
        rw [hregion] at hinside ⊢
        exact handlerRegion_step hinside htarget (flowStep_isSome_iff.mpr hname)

theorem Standing.routed (model : self.config.WellFormed)
    (silent : analyzeWorkflow parse self.config = [])
    (h : Standing self.config p.machine.run p.name)
    (declared : self.config.flowStep p.name = some step) (goes : step.terminal = false)
    {handler : String} {record : TransitionRecord} {primary : FailureDetail}
    (handles : self.config.handlerOf step = some handler)
    (effect : Effect (p.machine.run.enter p.name p.seq) after [errorAlias] [record])
    (calm : (p.machine.run.enter p.name p.seq).activeEpisode = none)
    (episode : after.activeEpisode = some
      { primary, handler, handlerSteps := self.config.handlerRegion handler })
    (carried : Carried after q.machine.run) (hname : handler ∈ self.config.names)
    (has : ∀ held, self.config.normalAvailable.lookup p.name = some held →
      p.machine.run.Has held) : Standing self.config q.machine.run handler := by
  obtain ⟨hmem, hsource⟩ := flowStep_mem declared
  have hbuilt := mem_buildEdges_of_edgeFrom hmem goes hname (.failure handles)
  rw [hsource] at hbuilt
  have hnormal : p.name ∈ self.config.normalReachable := by
    obtain ⟨-, hnormal⟩ | ⟨episode, hepisode, -⟩ := h.entered model p.seq
    · exact hnormal
    · rw [calm] at hepisode
      cases hepisode
  obtain ⟨held, hheld⟩ := exists_normalAvailable silent hnormal
  have hedge : { source := p.name, target := handler, kind := .failure, produced := [errorRoot] }
      ∈ self.config.failureEdges := List.mem_filter.mpr ⟨hbuilt, by simpa using hnormal⟩
  obtain ⟨held', hheld', hsubset⟩ := handlerAvailable_entry silent hedge hheld
  have hafter := effect.has (has held hheld) (List.Subset.refl [errorAlias])
  refine .recovered (.inr ⟨_, carried.episode.trans episode, rfl, .inl ?_⟩) hheld'
    (carried.has (hafter.subset hsubset))
  exact mem_handlerRegion_self (flowStep_isSome_iff.mpr hname)

/-- Every foreseen stride to a declared step keeps the analysis' promises. -/
theorem Standing.stride (model : self.config.WellFormed)
    (silent : analyzeWorkflow parse self.config = [])
    (h : Standing self.config p.machine.run p.name) (stride : Stride self p q)
    (foreseen : self.config.Foresees p q) (hname : q.name ∈ self.config.names) :
    Standing self.config q.machine.run q.name := by
  cases stride with
  | interrupted declared goes name seq further ahead bound carried =>
      have hregion := h.entered model p.seq
      rw [← carried.episode] at hregion
      rw [name]
      cases h with
      | normal calm promised has =>
          refine .normal ?_ promised (carried.has has)
          rw [carried.episode]
          simp [RunState.enter, calm]
      | recovered region promised has =>
          refine .recovered (hregion.imp id ?_) promised (carried.has has)
          rintro ⟨episode, hepisode, hsteps, hinside⟩
          exact ⟨episode, hepisode, hsteps, .inl hinside⟩
  | left declared goes seq fresh departure carried small =>
      have hforeseen := foreseen fresh hname
      generalize hnext : some q.name = next at departure
      cases departure with
      | moved effect route episode =>
          have hnot : ¬ Routed p q := by
            rintro ⟨hcalm, hopen⟩
            rw [carried.episode, episode] at hopen
            exact hopen hcalm
          rw [if_neg hnot] at hforeseen
          subst hnext
          exact h.moved model silent declared goes effect route episode carried hname hforeseen
      | routed operates handles effect calm episode =>
          have hrouted : Routed p q := ⟨calm, by rw [carried.episode, episode]; simp⟩
          rw [if_pos hrouted] at hforeseen
          simp only [Option.some.injEq] at hnext
          subst hnext
          rw [runner_handlerOf model (flowStep_mem declared).1 operates] at handles
          exact h.routed model silent declared goes handles effect calm episode carried hname
            hforeseen

end Strides

/-! ## The start of a run -/

theorem interpolateFields_keys {reprStr : String → String} {params fields out : JsonObject}
    (h : interpolateFields reprStr params fields = .ok out) : keys out = keys fields := by
  induction fields generalizing out with
  | nil =>
      cases h
      rfl
  | cons e rest ih =>
      obtain ⟨key, v⟩ := e
      unfold interpolateFields at h
      obtain ⟨item, -, h⟩ := exists_of_bind_eq_ok h
      obtain ⟨items, hitems, h⟩ := exists_of_bind_eq_ok h
      cases h
      simp [ih hitems]

theorem normalizeJsonObject_eq {maxItems : Nat} {fields out : JsonObject} {path : String}
    (h : normalizeJsonObject maxItems fields path = .ok out) : out = fields := by
  unfold normalizeJsonObject at h
  obtain ⟨v, hv, h⟩ := exists_of_bind_eq_ok h
  cases hfits : fits maxItems (.obj fields) 0 with
  | true =>
      rw [normalizeJsonValue_of_fits hfits] at hv
      cases hv
      cases h
      rfl
  | false =>
      obtain ⟨e, he⟩ := normalizeJsonValue_of_not_fits hfits path
      rw [he] at hv
      cases hv

/-- The parameters of a run have a value for every declared parameter and for the request. -/
theorem buildParams_keys {self : FlowRunner σ} {requestId : String} {globals params : JsonObject}
    (h : self.buildParams requestId globals = .ok params) : self.config.roots ⊆ keys params := by
  unfold FlowRunner.buildParams at h
  obtain ⟨interpolated, hinterpolated, h⟩ := exists_of_bind_eq_ok h
  obtain ⟨normalized, hnormalized, h⟩ := exists_of_bind_eq_ok h
  obtain ⟨unresolved, -, h⟩ := exists_of_bind_eq_ok h
  have hkeys : keys params = keys interpolated := by
    split at h
    · cases h
      rw [normalizeJsonObject_eq hnormalized]
    · cases h
  rw [hkeys, interpolateFields_keys hinterpolated]
  intro name hname
  rw [mem_keys_set, mem_keys_update]
  rcases List.mem_append.mp hname with hname | hname
  · refine .inr (.inl ?_)
    simpa [keys] using hname
  · exact .inl (by simpa [requestIdRoot] using hname)

theorem start_spec (self : FlowRunner σ) (globals : JsonObject) (run : RunState) :
    Triple (Holds run) (self.start globals)
      (fun next m => (∃ first, self.config.flow.head? = some first ∧ next.1 = first.name)
        ∧ m.run.activeEpisode = run.activeEpisode ∧ self.config.roots ⊆ keys m.run.params)
      (fun _ _ => True) := by
  refine triple_modifyRun ?_
  refine (KeepsRun.lift _).andThen (fun _ _ _ => trivial) fun normalized => ?_
  refine (KeepsRun.lift _).andThen (fun _ _ _ => trivial) fun _ => ?_
  refine (KeepsRun.validateContract self _ _ _).andThen (fun _ _ _ => trivial) fun _ => ?_
  refine triple_modifyRun (triple_getRun ?_)
  refine triple_lift (fun _ _ _ => trivial) fun params hparams => triple_modifyRun ?_
  have hkeys := buildParams_keys hparams
  split
  · exact triple_raise fun _ _ => trivial
  · rename_i entry rest hflow
    refine Triple.pure fun m hm => ?_
    have hm : m.run = _ := hm
    rw [hm]
    exact ⟨⟨entry, by simp [hflow], rfl⟩, rfl, hkeys⟩

/-- A run starts in the normal flow, with what the analysis promises its entry. -/
theorem Standing.start {self : FlowRunner σ} {parse : ExpressionParser}
    (silent : analyzeWorkflow parse self.config = []) {start : Position σ} {requestId : String}
    {globals : JsonObject} {world : σ}
    (hbegin : self.begin requestId globals world = .advance start) :
    Standing self.config start.machine.run start.name := by
  have hstart := start_spec self globals (self.fresh requestId world).run
    (self.fresh requestId world) rfl
  rw [(FlowRunner.start_of_begin hbegin).1] at hstart
  obtain ⟨⟨first, hfirst, hname⟩, hepisode, hroots⟩ := hstart
  obtain ⟨held, hheld, hsubset⟩ := normalAvailable_entry silent hfirst
  refine .normal hepisode (hname ▸ hheld) fun root hroot => ?_
  exact .inr (hroots (hsubset hroot))

/-! ## References -/

theorem Standing.promised {workflow : WorkflowConfig} {run : RunState} {name : String}
    (h : Standing workflow run name) :
    ∃ held ∈ workflow.availabilityAt name, run.Has held := by
  cases h with
  | normal calm promised has =>
      exact ⟨_, by simp [WorkflowConfig.availabilityAt, promised], has⟩
  | recovered region promised has =>
      exact ⟨_, by simp [WorkflowConfig.availabilityAt, promised], has⟩

/-- Roots that are not missing are among what each analysis promises. -/
theorem mem_of_missingRoots {availability : List (List String)} {roots held : List String}
    (h : missingRoots availability roots = []) (hheld : held ∈ availability) {root : String}
    (hroot : root ∈ roots) : root ∈ held := by
  unfold missingRoots at h
  have hne : availability.isEmpty = false := by
    simpa using List.ne_nil_of_mem hheld
  have hfilter : (roots.filter fun root => root ∉ MustFlow.meet availability) = [] := by
    rw [hne] at h
    have hlength := congrArg List.length h
    simp only [Bool.false_eq_true, if_false, List.length_mergeSort, List.length_nil,
      List.length_eq_zero_iff] at hlength
    simpa using hlength
  have hmeet := List.filter_eq_nil_iff.mp hfilter root hroot
  exact MustFlow.meet_subset hheld (by simpa using hmeet)

/-- What the analysis reads from the step: the roots of its references, and at a normal
terminal the root of the result. -/
def WorkflowConfig.rootsRead (self : WorkflowConfig) (parse : ExpressionParser)
    (step : FlowStep) : List String :=
  if step.terminal then
    if step.reason.isNone then self.result.toList.map ReferencePath.root else []
  else stepReferenceRoots parse step

theorem missingRoots_rootsRead {workflow : WorkflowConfig} {parse : ExpressionParser}
    (silent : analyzeWorkflow parse workflow = []) {step : FlowStep}
    (hstep : step ∈ workflow.flow) :
    missingRoots (workflow.availabilityAt step.name) (workflow.rootsRead parse step) = [] := by
  obtain ⟨-, -, -, hreferences, hresult⟩ := analysis_silent silent
  unfold WorkflowConfig.rootsRead
  cases hgoes : step.terminal with
  | false =>
      have := List.flatMap_eq_nil_iff.mp hreferences step
        (List.mem_filter.mpr ⟨hstep, by simp [hgoes]⟩)
      simpa using this
  | true =>
      cases hreason : step.reason with
      | some reason => simp [missingRoots]
      | none =>
          cases hconfig : workflow.result with
          | none => simp [missingRoots]
          | some result =>
              simp only [WorkflowConfig.resultIssues, hconfig] at hresult
              have := List.flatMap_eq_nil_iff.mp hresult step
                (List.mem_filter.mpr ⟨hstep, by simp [hgoes, hreason]⟩)
              simpa using this

/-- In a run whose strides the analysis has foreseen, every root that the analysis reads from a
step is there when the run is about to visit the step. -/
theorem roots_available (self : FlowRunner σ) (model : self.config.WellFormed)
    (silent : analyzeWorkflow self.platform.parse self.config = []) {start q : Position σ}
    {requestId : String} {globals : JsonObject} {world : σ}
    (hbegin : self.begin requestId globals world = .advance start)
    {trail : List (Position σ)} (walk : Walk self start trail q)
    (foreseen : (q :: trail).IsChain fun q p => self.config.Foresees p q)
    {step : FlowStep} (hstep : self.config.flowStep q.name = some step) {root : String}
    (hroot : root ∈ self.config.rootsRead self.platform.parse step) :
    (lookupRoot root q.machine.run.stepOutputs q.machine.run.params).isSome := by
  have hstanding := walk.invariant model.exclusive_config
    (fun trail q => (q :: trail).IsChain (fun q p => self.config.Foresees p q) →
      q.name ∈ self.config.names → Standing self.config q.machine.run q.name)
    (fun _ _ => Standing.start silent hbegin)
    fun trail p q _ hp stride hchain hname => by
      obtain ⟨hforeseen, hrest⟩ := List.isChain_cons_cons.mp hchain
      exact (hp hrest stride.declared).stride model silent stride hforeseen hname
  obtain ⟨hmem, hname⟩ := flowStep_mem hstep
  have hdeclared : q.name ∈ self.config.names := hname ▸ List.mem_map_of_mem hmem
  obtain ⟨held, hheld, has⟩ := (hstanding foreseen hdeclared).promised
  have hmissing := missingRoots_rootsRead silent hmem
  rw [hname] at hmissing
  exact lookupRoot_isSome has (mem_of_missingRoots hmissing hheld hroot)

/-- The handler of `fetch` goes on to `parse`, and the handler of `parse` reports on `fetch`. -/
def reportWorkflow : WorkflowConfig where
  workflow := "report"
  steps := [("work", { target := .service "worker" "work" })]
  flow := [
    { name := "fetch", op := some "work", thenStep := some "parse", onFailure := some "restore" },
    { name := "restore", op := some "work", thenStep := some "parse" },
    { name := "parse", op := some "work", thenStep := some "done", onFailure := some "report" },
    { name := "report", op := some "work", thenStep := some "done"
      input := some (.reference { value := "fetch", root := "fetch", path := [] }) },
    { name := "done", terminal := true }]

/-- The step at which a run stands, and whether the run has a root. -/
def Position.hasRoot (p : Position σ) (root : String) : String × Bool :=
  (p.name, (lookupRoot root p.machine.run.stepOutputs p.machine.run.params).isSome)

/-- After `fetch` and `parse` have failed, `report` reads what no step has stored. -/
theorem report_lacks_fetch :
    (reportWorkflow.WellFormed ∧ analyzeWorkflow plainPlatform.parse reportWorkflow = []
      ∧ ∃ step, reportWorkflow.flowStep "report" = some step
        ∧ "fetch" ∈ reportWorkflow.rootsRead plainPlatform.parse step) ∧
      ∃ start trail q, (scriptedRunner reportWorkflow).begin "request" []
          [.error externalFailure, .ok .null, .error externalFailure] = .advance start
        ∧ Walk (scriptedRunner reportWorkflow) start trail q
        ∧ q.hasRoot "fetch" = ("report", false) := by
  have hreached : ((scriptedRunner reportWorkflow).walked 3 "request" []
      [.error externalFailure, .ok .null, .error externalFailure]).map
        (fun reached => reached.1.hasRoot "fetch") = some ("report", false) := by
    decide +kernel
  obtain ⟨reached, hwalked, hroot⟩ := Option.map_eq_some_iff.mp hreached
  obtain ⟨start, hbegin, walk⟩ := walk_of_walked hwalked
  exact ⟨⟨by decide +kernel, by decide +kernel, _, rfl, by decide +kernel⟩,
    start, _, _, hbegin, walk, hroot⟩

instance (run : RunState) (names : List String) : Decidable (run.Has names) :=
  inferInstanceAs (Decidable (∀ name ∈ names, _ ∨ _))

instance (workflow : WorkflowConfig) (p q : Position σ) : Decidable (workflow.Foresees p q) :=
  inferInstanceAs (Decidable (q.loop = none → q.name ∈ workflow.names → ite _ _ _))

/-- When only `parse` fails, `report` has what it reads. -/
theorem roots_available_report :
    ∃ start trail q, (scriptedRunner reportWorkflow).begin "request" []
        [.ok .null, .error externalFailure] = .advance start
      ∧ Walk (scriptedRunner reportWorkflow) start trail q
      ∧ q.hasRoot "fetch" = ("report", true) := by
  have hreached : ((scriptedRunner reportWorkflow).walked 2 "request" []
      [.ok .null, .error externalFailure]).map (fun reached => (reached.1.name, decide
        ((reached.1 :: reached.2).IsChain fun q p => reportWorkflow.Foresees p q)))
        = some ("report", true) := by
    decide +kernel
  obtain ⟨reached, hwalked, hends⟩ := Option.map_eq_some_iff.mp hreached
  obtain ⟨start, hbegin, walk⟩ := walk_of_walked hwalked
  simp only [Prod.mk.injEq, decide_eq_true_eq] at hends
  obtain ⟨hname, foreseen⟩ := hends
  obtain ⟨step, hstep, hroot⟩ : ∃ step, reportWorkflow.flowStep "report" = some step
      ∧ "fetch" ∈ reportWorkflow.rootsRead plainPlatform.parse step :=
    ⟨_, rfl, by decide +kernel⟩
  have hroot := roots_available (scriptedRunner reportWorkflow) (by decide +kernel)
    (by decide +kernel) hbegin walk foreseen (hname ▸ hstep) hroot
  exact ⟨start, _, _, hbegin, walk, by rw [Position.hasRoot, hname, hroot]⟩

end Justflow
