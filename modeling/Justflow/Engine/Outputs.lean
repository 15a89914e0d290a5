import Justflow.Config.AcceptedFlow
import Justflow.Engine.Outcomes
import Justflow.Engine.Readable
import Justflow.Library.Objects

/-!
# Stored outputs

A success is stored under the name of its step and under its alias.  What a step without an alias
stores takes the place of its namespace, so its next success is assigned to a member of the last
result.  The outputs of a run follow the latest success of every step; the containers that are
assigned to are reached from the name of their own step only.
-/

open Fields Program JsonValue Objects

namespace Justflow

/-! ## Names -/

/-- The names that steps store under do not meet. -/
structure OutputNames (flow : List FlowStep) : Prop where
  steps : ∀ first ∈ flow, ∀ second ∈ flow, first.name = second.name → first = second
  keys : ∀ first ∈ flow, ∀ second ∈ flow, first.outputKey = second.outputKey → first = second
  apart : ∀ first ∈ flow, ∀ second ∈ flow, first.outputKey = second.name → first = second
  error : ∀ step ∈ flow, step.name ≠ errorAlias ∧ step.outputKey ≠ errorAlias

theorem nodup_of_duplicates {names : List String} (h : duplicates names = []) : names.Nodup := by
  rw [List.nodup_iff_count_le_one]
  intro name
  by_contra more
  have mem : name ∈ duplicates names := by
    rw [duplicates, List.mem_eraseDups, List.mem_filter, decide_eq_true_eq]
    exact ⟨List.count_pos_iff.mp (by omega), by omega⟩
  rw [h] at mem
  cases mem

/-- Two members of a list with one value under a partial map without duplicates are one. -/
theorem eq_of_nodup_filterMap {α β : Type} {f : α → Option β} {l : List α} {a b : α} {c : β}
    (nodup : (l.filterMap f).Nodup) (ha : a ∈ l) (hb : b ∈ l) (fa : f a = some c)
    (fb : f b = some c) : a = b := by
  induction l with
  | nil => cases ha
  | cons x rest ih =>
      have later : ∀ y ∈ rest, f y = some c → c ∈ rest.filterMap f :=
        fun y hy fy => List.mem_filterMap.mpr ⟨y, hy, fy⟩
      rcases List.mem_cons.mp ha with rfl | arest
      · rcases List.mem_cons.mp hb with rfl | brest
        · rfl
        · rw [List.filterMap_cons_some fa] at nodup
          exact absurd (later b brest fb) (List.nodup_cons.mp nodup).1
      · rcases List.mem_cons.mp hb with rfl | brest
        · rw [List.filterMap_cons_some fb] at nodup
          exact absurd (later a arest fa) (List.nodup_cons.mp nodup).1
        · refine ih (nodup.sublist ?_) arest brest
          exact (List.sublist_cons_self x rest).filterMap f

theorem Accepted.outputNames {parse : ExpressionParser} {limits : RuntimeLimits}
    {workflow : WorkflowConfig} (h : Accepted parse limits workflow) :
    OutputNames workflow.flow := by
  have checked := h.checks.1
  simp only [WorkflowConfig.validateNamespaces, List.append_eq_nil_iff, List.flatMap_eq_nil_iff,
    WorkflowConfig.validateStepNames, diagnose_eq_nil] at checked
  obtain ⟨⟨⟨-, names⟩, producers⟩, -⟩ := checked
  have steps : ∀ first ∈ workflow.flow, ∀ second ∈ workflow.flow, first.name = second.name →
      first = second :=
    fun first hfirst second hsecond same =>
      List.inj_on_of_nodup_map h.names_nodup hfirst hsecond same
  have named : ∀ step ∈ workflow.flow, step.name ∈ workflow.names :=
    fun step hstep => List.mem_map_of_mem hstep
  have truth : ∀ step ∈ workflow.flow, truthy step.output = step.output :=
    fun step hstep => (h.model.truthy_names hstep).1
  have reserved : ∀ step ∈ workflow.flow, step.name ∉ reservedDataRoots := by
    intro step hstep mem
    have := (names step hstep).1.1
    simp [mem] at this
  have aliases : ∀ step ∈ workflow.flow, ∀ output, step.output = some output →
      output ∉ workflow.names ∧ output ∉ reservedDataRoots := by
    intro step hstep output declared
    have := (names step hstep).2
    simp only [declared, Option.any_some, List.contains_eq_mem, List.mem_append,
      decide_eq_false_iff_not] at this
    tauto
  have distinct : ∀ first ∈ workflow.flow, ∀ second ∈ workflow.flow, ∀ output,
      first.output = some output → second.output = some output → first = second := by
    have none : duplicates (workflow.flow.filterMap FlowStep.output) = [] := by
      by_contra some
      obtain ⟨repeated, mem⟩ := List.exists_mem_of_ne_nil _ some
      simpa [diagnose] using producers repeated mem
    exact fun first hfirst second hsecond output hout hout' =>
      eq_of_nodup_filterMap (nodup_of_duplicates none) hfirst hsecond hout hout'
  have key : ∀ step : FlowStep, step ∈ workflow.flow →
      step.output = none ∧ step.outputKey = step.name ∨
        ∃ output, step.output = some output ∧ step.outputKey = output := by
    intro step hstep
    rw [FlowStep.outputKey, truth step hstep]
    cases step.output with
    | none => exact .inl ⟨rfl, rfl⟩
    | some output => exact .inr ⟨output, rfl, rfl⟩
  refine ⟨steps, ?_, ?_, ?_⟩
  · intro first hfirst second hsecond same
    rcases key first hfirst with ⟨-, own⟩ | ⟨output, declared, own⟩
    · rcases key second hsecond with ⟨-, other⟩ | ⟨output, declared, other⟩
      · exact steps first hfirst second hsecond (by rw [← own, same, other])
      · refine absurd (named first hfirst) ?_
        rw [← own, same, other]
        exact (aliases second hsecond output declared).1
    · rcases key second hsecond with ⟨-, other⟩ | ⟨output', declared', other⟩
      · refine absurd (named second hsecond) ?_
        rw [← other, ← same, own]
        exact (aliases first hfirst output declared).1
      · rw [own, other] at same
        subst same
        exact distinct first hfirst second hsecond output declared declared'
  · intro first hfirst second hsecond same
    rcases key first hfirst with ⟨-, own⟩ | ⟨output, declared, own⟩
    · exact steps first hfirst second hsecond (by rw [← own, same])
    · refine absurd (named second hsecond) ?_
      rw [← same, own]
      exact (aliases first hfirst output declared).1
  · intro step hstep
    refine ⟨fun same => reserved step hstep (by rw [same]; decide), fun same => ?_⟩
    rcases key step hstep with ⟨-, own⟩ | ⟨output, declared, own⟩
    · exact reserved step hstep (by rw [← own, same]; decide)
    · exact (aliases step hstep output declared).2 (by rw [← own, same]; decide)

/-! ## The latest results -/

/-- A result of the step is stored under an alias too. -/
def FlowStep.Aliased (self : FlowStep) : Prop :=
  self.outputKey ≠ self.name

instance (step : FlowStep) : Decidable step.Aliased :=
  inferInstanceAs (Decidable (_ ≠ _))

/-- What the name of a step holds after a result. -/
def FlowStep.namespaceOf (self : FlowStep) (result : JsonValue) : JsonValue :=
  if self.Aliased then .obj [(self.outputKey, result)] else result

def IsObject (value : JsonValue) : Prop :=
  ∃ fields, value = .obj fields

/-- The outputs hold the latest result of every step. -/
structure FollowsLatest (flow : List FlowStep) (latest outputs : JsonObject) : Prop where
  names : ∀ step ∈ flow,
    outputs.lookup step.name = (latest.lookup step.name).map step.namespaceOf
  keys : ∀ step ∈ flow, outputs.lookup step.outputKey = latest.lookup step.name

variable {flow : List FlowStep} {step : FlowStep} {latest outputs outputs' : JsonObject}
  {result : JsonValue}

theorem FlowStep.namespaceOf_eq_obj {fields : JsonObject} (aliased : step.Aliased)
    (h : step.namespaceOf result = .obj fields) : fields = [(step.outputKey, result)] := by
  rw [FlowStep.namespaceOf, if_pos aliased, JsonValue.obj.injEq] at h
  exact h.symm

/-- A result can be stored unless the last one of a step without an alias is no object. -/
theorem storeOutput_ok_iff (follows : FollowsLatest flow latest outputs) (mem : step ∈ flow) :
    (∃ outputs', storeOutput step result outputs = .ok outputs') ↔
      step.Aliased ∨ ∀ previous, latest.lookup step.name = some previous → IsObject previous := by
  rw [storeOutput, follows.names step mem]
  cases hlatest : latest.lookup step.name with
  | none => simp
  | some previous =>
      by_cases aliased : step.Aliased
      · simp [FlowStep.namespaceOf, aliased]
      · simp only [Option.map_some, FlowStep.namespaceOf, Option.getD_some,
          aliased, false_or, Option.some.injEq, forall_eq']
        cases previous <;> simp [IsObject]

/-- After a store the outputs follow the new result. -/
theorem FollowsLatest.store (names : OutputNames flow) (follows : FollowsLatest flow latest outputs)
    (mem : step ∈ flow) (h : storeOutput step result outputs = .ok outputs') :
    FollowsLatest flow (set step.name result latest) outputs' := by
  have own : outputs' = set step.outputKey result
      (set step.name (step.namespaceOf result) outputs) ∨
        ¬ step.Aliased ∧ ∃ other, outputs' = set step.outputKey result
          (set step.name other outputs) := by
    rw [storeOutput, follows.names step mem] at h
    by_cases aliased : step.Aliased
    · left
      cases hlatest : latest.lookup step.name with
      | none =>
          simp only [hlatest, Option.map_none, Option.getD_none, Except.ok.injEq] at h
          rw [← h, FlowStep.namespaceOf, if_pos aliased]
          rfl
      | some previous =>
          simp only [hlatest, Option.map_some, Option.getD_some, FlowStep.namespaceOf, aliased,
            if_true, Except.ok.injEq] at h
          rw [← h, FlowStep.namespaceOf, if_pos aliased]
          simp [Fields.set]
    · right
      split at h
      · exact ⟨aliased, _, (Except.ok.inj h).symm⟩
      · cases h
  have same : ∃ other, outputs' = set step.outputKey result (set step.name other outputs) := by
    rcases own with own | ⟨-, own⟩
    · exact ⟨_, own⟩
    · exact own
  refine ⟨fun other hother => ?_, fun other hother => ?_⟩
  · by_cases equal : other = step
    · subst equal
      rw [lookup_set_self, Option.map_some]
      rcases own with rfl | ⟨plain, held, rfl⟩
      · by_cases aliased : other.Aliased
        · rw [lookup_set_ne (Ne.symm aliased), lookup_set_self]
        · have key : other.outputKey = other.name := not_not.mp aliased
          rw [FlowStep.namespaceOf, if_neg aliased, key, lookup_set_self]
      · have key : other.outputKey = other.name := not_not.mp plain
        rw [FlowStep.namespaceOf, if_neg plain, key, lookup_set_self]
    · obtain ⟨held, rfl⟩ := same
      have name : other.name ≠ step.name := fun h => equal (names.steps other hother step mem h)
      have key : other.name ≠ step.outputKey :=
        fun h => equal (names.apart step mem other hother h.symm).symm
      rw [lookup_set_ne key, lookup_set_ne name, lookup_set_ne name]
      exact follows.names other hother
  · by_cases equal : other = step
    · subst equal
      obtain ⟨held, rfl⟩ := same
      rw [lookup_set_self, lookup_set_self]
    · obtain ⟨held, rfl⟩ := same
      have name : other.name ≠ step.name := fun h => equal (names.steps other hother step mem h)
      have key : other.outputKey ≠ step.outputKey :=
        fun h => equal (names.keys other hother step mem h)
      have apart : other.outputKey ≠ step.name :=
        fun h => equal (names.apart other hother step mem h)
      rw [lookup_set_ne key, lookup_set_ne apart, lookup_set_ne name]
      exact follows.keys other hother

theorem FollowsLatest.fail (names : OutputNames flow) (follows : FollowsLatest flow latest outputs)
    (failure : JsonValue) : FollowsLatest flow latest (set errorAlias failure outputs) where
  names := fun step mem => by
    rw [lookup_set_ne (names.error step mem).1]
    exact follows.names step mem
  keys := fun step mem => by
    rw [lookup_set_ne (names.error step mem).2]
    exact follows.keys step mem

/-- The outputs follow the latest results across a continuation, up to the order of keys. -/
theorem FollowsLatest.wire (follows : FollowsLatest flow latest outputs) :
    FollowsLatest flow (wireObject latest) (wireObject outputs) where
  names := fun step mem => by
    rw [lookup_wireObject, lookup_wireObject, follows.names step mem]
    cases latest.lookup step.name with
    | none => rfl
    | some value =>
        simp only [Option.map_some, FlowStep.namespaceOf]
        split
        · rw [wire_obj_eq]
          rfl
        · rfl
  keys := fun step mem => by
    rw [lookup_wireObject, lookup_wireObject, follows.keys step mem]

/-! ## Shared containers -/

/-- `step_outputs`, and what the audit and the inputs of other steps hold. -/
structure Memory where
  heap : Heap
  outputs : List (String × Item)
  held : List Item

namespace Memory

/-- The first success of a step makes its namespace. -/
def openNamespace (self : Memory) (name : String) : Memory :=
  match self.outputs.lookup name with
  | some _ => self
  | none => {
      self with
      heap := self.heap ++ [.object []]
      outputs := set name (.ref self.heap.length) self.outputs }

/-- `step_outputs[name][key] = item`. -/
def assignMember (self : Memory) (name key : String) (item : Item) :
    Except EngineException Memory :=
  match self.outputs.lookup name with
  | some (.ref address) =>
      match self.heap[address]? with
      | some (.object fields) =>
          .ok { self with heap := self.heap.set address (.object (set key item fields)) }
      | _ => .error (assignmentError (.arr []))
  | some (.atom value) => .error (assignmentError value)
  | none => .error (.python "KeyError" name)

/-- `_store_output` on shared containers. -/
def storeOutput (self : Memory) (step : FlowStep) (item : Item) : Except EngineException Memory := do
  let assigned ← (self.openNamespace step.name).assignMember step.name step.outputKey item
  return { assigned with outputs := set step.outputKey item assigned.outputs }

/-- What holds an item: an output, or something outside the outputs. -/
def Root (self : Memory) : Option String → Item → Prop
  | some name, item => self.outputs.lookup name = some item
  | none, item => item ∈ self.held

/-- The containers that a step assigns to are reached from its name only. -/
structure Sound (flow : List FlowStep) (memory : Memory) : Prop where
  within : ∀ owner item, memory.Root owner item → InHeap memory.heap item
  apart : ∀ step ∈ flow, ∀ address, memory.outputs.lookup step.name = some (.ref address) →
    ∀ owner item, owner ≠ some step.name → memory.Root owner item →
      ¬ Reaches memory.heap item address

/-- The items of the outputs read as their values. -/
def Matches (self : Memory) (outputs : JsonObject) : Prop :=
  ∀ name, Option.Rel (Shows self.heap) (outputs.lookup name) (self.outputs.lookup name)

/-- An item within the heap that reaches nothing that a root reaches. -/
structure Detached (memory : Memory) (item : Item) : Prop where
  within : InHeap memory.heap item
  apart : ∀ owner root address, memory.Root owner root → Reaches memory.heap root address →
    ¬ Reaches memory.heap item address

variable {self next : Memory} {item : Item} {heap : Heap}

/-- A root after an item was put under a name. -/
theorem root_put {name : String} (owner : Option String) {root : Item} {heap : Heap}
    (h : Root { self with heap, outputs := set name item self.outputs } owner root) :
    owner = some name ∧ root = item ∨ owner ≠ some name ∧ self.Root owner root := by
  cases owner with
  | none => exact .inr ⟨nofun, h⟩
  | some other =>
      by_cases same : other = name
      · subst same
        rw [Root, lookup_set_self, Option.some.injEq] at h
        exact .inl ⟨rfl, h.symm⟩
      · rw [Root, lookup_set_ne same] at h
        exact .inr ⟨by simpa using same, h⟩

theorem root_of_put {name : String} {owner : Option String} {root : Item} {heap : Heap}
    (other : owner ≠ some name) (h : self.Root owner root) :
    Root { self with heap, outputs := set name item self.outputs } owner root := by
  cases owner with
  | none => exact h
  | some owner =>
      rw [Root, lookup_set_ne (by simpa using other)]
      exact h

/-- A name that holds something reads as it did where its containers are the same. -/
theorem Matches.of_agree {name : String} (hmatch : self.Matches outputs)
    (agree : ∀ root, self.outputs.lookup name = some root → Agree self.heap heap root) :
    Option.Rel (Shows heap) (outputs.lookup name) (self.outputs.lookup name) := by
  have shown := hmatch name
  generalize outputs.lookup name = value at shown ⊢
  generalize self.outputs.lookup name = root at shown agree ⊢
  cases shown with
  | none => exact .none
  | some shows => exact .some ((agree _ rfl).shows shows)

/-- A copy is detached from what was there, which stays as it was. -/
theorem Sound.copied (sound : Sound flow self) {value : JsonValue}
    (copied : Copies self.heap value item heap) :
    Sound flow { self with heap } ∧ Detached { self with heap } item := by
  obtain ⟨more, rfl⟩ := copied.fresh.extends_heap
  have older : ∀ owner root address, self.Root owner root →
      Reaches (self.heap ++ more) root address → Reaches self.heap root address :=
    fun owner root address hroot => ((sound.within owner root hroot).agree more).reaches
  refine ⟨⟨?_, ?_⟩, ⟨copied.fresh.within, ?_⟩⟩
  · exact fun owner root hroot => (sound.within owner root hroot).append more
  · intro step mem address held owner root hne hroot reached
    exact sound.apart step mem address held owner root hne hroot (older _ _ _ hroot reached)
  · intro owner root address hroot reached new
    have below := sound.within owner root hroot address (older _ _ _ hroot reached)
    have above := copied.fresh.new address new
    omega

theorem Matches.copied (hmatch : self.Matches outputs) (sound : Sound flow self)
    {value : JsonValue} (copied : Copies self.heap value item heap) :
    Matches { self with heap } outputs := by
  obtain ⟨more, rfl⟩ := copied.fresh.extends_heap
  exact fun name => hmatch.of_agree fun root held => (sound.within (some name) root held).agree more

/-- A new item under a name. -/
theorem Sound.put (sound : Sound flow self) (detached : self.Detached item) (name : String) :
    Sound flow { self with outputs := set name item self.outputs } where
  within := by
    intro owner root hroot
    rcases root_put owner hroot with ⟨-, rfl⟩ | ⟨-, old⟩
    · exact detached.within
    · exact sound.within owner root old
  apart := by
    intro step mem address held owner root hne hroot reached
    rcases root_put (some step.name) held with ⟨own, new⟩ | ⟨-, before⟩
    · rcases root_put owner hroot with ⟨other, -⟩ | ⟨-, old⟩
      · exact hne (other.trans own.symm)
      · exact detached.apart owner root address old reached (by rw [← new]; exact .here address)
    · rcases root_put owner hroot with ⟨-, rfl⟩ | ⟨-, old⟩
      · exact detached.apart _ _ address before (.here address) reached
      · exact sound.apart step mem address before owner root hne old reached

theorem Matches.put (hmatch : self.Matches outputs) (name : String) {value : JsonValue}
    (shows : Shows self.heap value item) :
    Matches { self with outputs := set name item self.outputs } (set name value outputs) := by
  intro other
  by_cases same : other = name
  · subst same
    rw [lookup_set_self, lookup_set_self]
    exact .some shows
  · rw [lookup_set_ne same, lookup_set_ne same]
    exact hmatch other

/-- A new item that something outside the outputs holds. -/
theorem Sound.hold (sound : Sound flow self) (detached : self.Detached item) :
    Sound flow { self with held := item :: self.held } where
  within := by
    intro owner root hroot
    cases owner with
    | none =>
        rcases List.mem_cons.mp hroot with rfl | old
        · exact detached.within
        · exact sound.within none root old
    | some name => exact sound.within (some name) root hroot
  apart := by
    intro step mem address held owner root hne hroot reached
    cases owner with
    | none =>
        rcases List.mem_cons.mp hroot with rfl | old
        · exact detached.apart (some step.name) _ address held (.here address) reached
        · exact sound.apart step mem address held none root hne old reached
    | some name => exact sound.apart step mem address held (some name) root hne hroot reached

/-! ## Storing -/

/-- A new namespace is empty, and reached from its own name only. -/
theorem Sound.openNamespace (sound : Sound flow self) (detached : self.Detached item)
    (name : String) :
    Sound flow (self.openNamespace name) ∧ (self.openNamespace name).Detached item := by
  rw [Memory.openNamespace]
  cases self.outputs.lookup name with
  | some _ => exact ⟨sound, detached⟩
  | none =>
      have copied : Fresh self.heap (.ref self.heap.length) (self.heap ++ [.object []]) :=
        .container ⟨[], by simp⟩ (by simp [Cell.items])
      have older : ∀ owner root address, self.Root owner root →
          Reaches (self.heap ++ [.object []]) root address → Reaches self.heap root address :=
        fun owner root address hroot => ((sound.within owner root hroot).agree _).reaches
      have below : ∀ owner root address, self.Root owner root →
          Reaches (self.heap ++ [.object []]) root address → address < self.heap.length :=
        fun owner root address hroot reached =>
          sound.within owner root hroot address (older owner root address hroot reached)
      refine ⟨⟨?_, ?_⟩, ⟨detached.within.append _, ?_⟩⟩
      · intro owner root hroot
        rcases root_put owner hroot with ⟨-, rfl⟩ | ⟨-, old⟩
        · exact copied.within
        · exact (sound.within owner root old).append _
      · intro step mem address held owner root hne hroot reached
        rcases root_put (some step.name) held with ⟨own, new⟩ | ⟨-, before⟩
        · rcases root_put owner hroot with ⟨other, -⟩ | ⟨-, old⟩
          · exact hne (other.trans own.symm)
          · have above := copied.new address (by rw [← new]; exact .here address)
            have := below owner root address old reached
            omega
        · rcases root_put owner hroot with ⟨-, rfl⟩ | ⟨-, old⟩
          · have above := copied.new address reached
            have := below _ _ address before (.here address)
            omega
          · exact sound.apart step mem address before owner root hne old
              (older owner root address old reached)
      · intro owner root address hroot reached new
        have inside := (detached.within.agree [Cell.object []]).reaches new
        rcases root_put owner hroot with ⟨-, rfl⟩ | ⟨-, old⟩
        · have above := copied.new address reached
          have := detached.within address inside
          omega
        · exact detached.apart owner root address old (older owner root address old reached) inside

theorem mem_set_items {key : String} {fields : List (String × Item)} {inner : Item}
    (mem : inner ∈ (Cell.object (set key item fields)).items) :
    inner = item ∨ inner ∈ (Cell.object fields).items := by
  induction fields with
  | nil => simpa [Cell.items, Fields.set] using mem
  | cons field rest ih =>
      obtain ⟨k, old⟩ := field
      by_cases same : k = key
      · simp only [Fields.set, if_pos same, Cell.items, List.map_cons, List.mem_cons] at mem ⊢
        tauto
      · simp only [Fields.set, if_neg same, Cell.items, List.map_cons, List.mem_cons] at mem ih ⊢
        tauto

/-- The item of a result is put into the namespace of its step, and under its key. -/
theorem Sound.assigned (names : OutputNames flow) (sound : Sound flow self)
    (detached : self.Detached item) (mem : step ∈ flow) {address : Nat}
    {fields : List (String × Item)} (held : self.outputs.lookup step.name = some (.ref address))
    (found : self.heap[address]? = some (.object fields)) :
    Sound flow {
      self with
      heap := self.heap.set address (.object (set step.outputKey item fields))
      outputs := set step.outputKey item self.outputs } := by
  have apart : ¬ Reaches self.heap item address :=
    detached.apart (some step.name) _ address held (.here address)
  have kept : ∀ owner root, owner ≠ some step.name → self.Root owner root →
      Agree self.heap (self.heap.set address (.object (set step.outputKey item fields))) root :=
    fun owner root hne hroot => agree_set (sound.apart step mem address held owner root hne hroot) _
  have reach : ∀ root target,
      Reaches (self.heap.set address (.object (set step.outputKey item fields))) root target →
        Reaches self.heap root target ∨ Reaches self.heap item target :=
    fun root target reached => reached.of_set found fun inner => mem_set_items
  constructor
  · intro owner root hroot target reached
    rw [List.length_set]
    rcases reach root target reached with before | new
    · rcases root_put owner hroot with ⟨-, rfl⟩ | ⟨-, old⟩
      · exact detached.within target before
      · exact sound.within owner root old target before
    · exact detached.within target new
  · intro other hother target holds owner root hne hroot reached
    rcases root_put (some other.name) holds with ⟨own, new⟩ | ⟨-, before⟩
    · -- the result stands under the name of its step, and nothing older reaches it
      have same : step = other := names.apart step mem other hother (Option.some.inj own).symm
      subst same
      rcases root_put owner hroot with ⟨under, -⟩ | ⟨-, old⟩
      · exact hne (under.trans own.symm)
      · have inside := (kept owner root hne old).reaches reached
        exact detached.apart owner root target old inside (by rw [← new]; exact .here target)
    · rcases root_put owner hroot with ⟨-, rfl⟩ | ⟨-, old⟩
      · have inside := (agree_set apart _).reaches reached
        exact detached.apart _ _ target before (.here target) inside
      · rcases reach root target reached with inside | new
        · exact sound.apart other hother target before owner root hne old inside
        · exact detached.apart _ _ target before (.here target) new

/-- What a successful store does after the namespace is there. -/
theorem storeOutput_of_found {opened : Memory} {address : Nat} {fields : List (String × Item)}
    (hopened : self.openNamespace step.name = opened)
    (held : opened.outputs.lookup step.name = some (.ref address))
    (found : opened.heap[address]? = some (.object fields)) :
    self.storeOutput step item = .ok {
      opened with
      heap := opened.heap.set address (.object (set step.outputKey item fields))
      outputs := set step.outputKey item opened.outputs } := by
  rw [Memory.storeOutput, hopened, Memory.assignMember, held]
  simp only [found]
  rfl

/-- The outputs with the namespace of a step. -/
def opened (outputs : JsonObject) (name : String) : JsonObject :=
  match outputs.lookup name with
  | some _ => outputs
  | none => set name (.obj []) outputs

theorem Matches.openNamespace (hmatch : self.Matches outputs) (sound : Sound flow self)
    (name : String) : (self.openNamespace name).Matches (opened outputs name) := by
  have shown := hmatch name
  rw [opened, Memory.openNamespace]
  generalize hvalue : outputs.lookup name = value at shown ⊢
  generalize hroot : self.outputs.lookup name = root at shown ⊢
  cases shown with
  | some _ => exact hmatch
  | none =>
      intro other
      by_cases same : other = name
      · subst same
        rw [lookup_set_self, lookup_set_self]
        refine .some ?_
        simp [Shows, ShowsFields]
      · rw [lookup_set_ne same, lookup_set_ne same]
        exact hmatch.of_agree fun root held => (sound.within (some other) root held).agree _

theorem openNamespace_agree {root : Item} (within : InHeap self.heap root) (name : String) :
    Agree self.heap (self.openNamespace name).heap root := by
  rw [Memory.openNamespace]
  split
  · exact fun _ _ => rfl
  · exact within.agree _

theorem root_openNamespace {name : String} {owner : Option String} {root : Item}
    (other : owner ≠ some name) (h : self.Root owner root) :
    (self.openNamespace name).Root owner root := by
  rw [Memory.openNamespace]
  split
  · exact h
  · exact root_of_put other h

theorem opened_lookup_self {name : String} {value : JsonValue}
    (h : (outputs.lookup name).getD (.obj []) = value) :
    (opened outputs name).lookup name = some value := by
  rw [opened]
  cases held : outputs.lookup name with
  | none =>
      rw [held, Option.getD_none] at h
      rw [lookup_set_self, h]
  | some other =>
      rw [held, Option.getD_some] at h
      rw [held, h]

theorem opened_lookup_ne {name other : String} (hne : other ≠ name) :
    (opened outputs name).lookup other = outputs.lookup other := by
  rw [opened]
  split
  · rfl
  · rw [lookup_set_ne hne]

/-- The namespace of a step with an alias has no other member. -/
theorem namespace_shows {heap : Heap} {previous : JsonObject} {cell : List (String × Item)}
    (follows : FollowsLatest flow latest outputs) (mem : step ∈ flow) (aliased : step.Aliased)
    (h : (outputs.lookup step.name).getD (.obj []) = .obj previous)
    (shown : ShowsFields heap previous cell) :
    set step.outputKey result previous = [(step.outputKey, result)] ∧
      set step.outputKey item cell = [(step.outputKey, item)] := by
  rw [follows.names step mem] at h
  cases hlatest : latest.lookup step.name with
  | none =>
      simp only [hlatest, Option.map_none, Option.getD_none, JsonValue.obj.injEq] at h
      subst h
      simp only [ShowsFields] at shown
      subst shown
      exact ⟨rfl, rfl⟩
  | some value =>
      rw [hlatest, Option.map_some, Option.getD_some] at h
      have only := FlowStep.namespaceOf_eq_obj aliased h
      subst only
      simp only [ShowsFields] at shown
      obtain ⟨inner, rest, rfl, -, rfl⟩ := shown
      simp [Fields.set]

/-- Storing on shared containers does what storing on values does, and nothing that is held
under another name or outside the outputs reads differently afterwards. -/
theorem store_refines (names : OutputNames flow) (sound : Sound flow self)
    (follows : FollowsLatest flow latest outputs) (hmatch : self.Matches outputs)
    (mem : step ∈ flow) (copied : Copies self.heap result item heap)
    (h : Justflow.storeOutput step result outputs = .ok outputs') :
    ∃ next, Memory.storeOutput { self with heap } step item = .ok next ∧ Sound flow next ∧
      next.Matches outputs' ∧ ∀ owner root value, owner ≠ some step.name →
        owner ≠ some step.outputKey → self.Root owner root → Shows self.heap value root →
          next.Root owner root ∧ Shows next.heap value root := by
  obtain ⟨sound₁, detached₁⟩ := sound.copied copied
  obtain ⟨sound₂, detached₂⟩ := sound₁.openNamespace detached₁ step.name
  have match₂ := (hmatch.copied sound copied).openNamespace sound₁ step.name
  have shows₂ := (openNamespace_agree detached₁.within step.name).shows copied.shows
  have kept₂ : ∀ owner root value, owner ≠ some step.name → self.Root owner root →
      Shows self.heap value root →
        (openNamespace { self with heap } step.name).Root owner root ∧
          Shows (openNamespace { self with heap } step.name).heap value root := by
    intro owner root value hne hroot shown
    obtain ⟨more, grown⟩ := copied.fresh.extends_heap
    have copies := ((sound.within owner root hroot).agree more).shows shown
    rw [← grown] at copies
    exact ⟨root_openNamespace hne hroot,
      (openNamespace_agree (sound₁.within owner root hroot) step.name).shows copies⟩
  generalize hopened : openNamespace { self with heap } step.name = opened₂ at *
  rw [Justflow.storeOutput] at h
  cases hprevious : (outputs.lookup step.name).getD (.obj []) with
  | obj previous =>
      simp only [hprevious, Except.ok.injEq] at h
      subst h
      have own := match₂ step.name
      rw [opened_lookup_self hprevious] at own
      generalize hheld : opened₂.outputs.lookup step.name = held at own
      obtain @⟨-, root, shown⟩ := own
      simp only [Shows] at shown
      obtain ⟨address, cell, rfl, found, members⟩ := shown
      have bound := (List.getElem?_eq_some_iff.mp found).1
      have apart : ¬ Reaches opened₂.heap item address :=
        detached₂.apart (some step.name) _ address hheld (.here address)
      have result₃ := (agree_set apart (.object (set step.outputKey item cell))).shows shows₂
      refine ⟨_, storeOutput_of_found hopened hheld found,
        sound₂.assigned names detached₂ mem hheld found, ?_, ?_⟩
      · intro other
        by_cases key : other = step.outputKey
        · subst key
          rw [lookup_set_self, lookup_set_self]
          exact .some result₃
        · rw [lookup_set_ne key, lookup_set_ne key]
          by_cases name : other = step.name
          · have aliased : step.Aliased := fun same => key (name.trans same.symm)
            obtain ⟨values, items⟩ := namespace_shows follows mem aliased hprevious members
            rw [name, lookup_set_self, hheld, values, items]
            rw [items] at result₃
            refine .some ?_
            simp only [Shows]
            refine ⟨address, _, rfl, List.getElem?_set_self bound, ?_⟩
            simp only [ShowsFields]
            exact ⟨_, _, rfl, result₃, rfl⟩
          · have kept : Option.Rel
                (Shows (opened₂.heap.set address (.object (set step.outputKey item cell))))
                ((opened outputs step.name).lookup other) (opened₂.outputs.lookup other) :=
              match₂.of_agree fun root hroot => agree_set
                (sound₂.apart step mem address hheld (some other) root (by simpa using name)
                  hroot) _
            rw [opened_lookup_ne name] at kept
            rw [lookup_set_ne name]
            exact kept
      · intro owner root value hname hkey hroot shown
        obtain ⟨root₂, shown₂⟩ := kept₂ owner root value hname hroot shown
        exact ⟨root_of_put hkey root₂,
          (agree_set (sound₂.apart step mem address hheld owner root hname root₂) _).shows shown₂⟩
  | _ =>
      rw [hprevious] at h
      cases h

/-- The outputs of a continuation, read into new containers. -/
def load : JsonObject → Memory
  | [] => ⟨[], [], []⟩
  | (name, value) :: rest =>
      let loaded := load rest
      let copied := copy loaded.heap value
      { loaded with heap := copied.2, outputs := set name copied.1 loaded.outputs }

theorem empty_spec (flow : List FlowStep) :
    Sound flow ⟨[], [], []⟩ ∧ Matches ⟨[], [], []⟩ [] := by
  have bare : ∀ owner item, ¬ Root ⟨[], [], []⟩ owner item := by
    intro owner item h
    cases owner with
    | none => simp [Root] at h
    | some name => simp [Root] at h
  refine ⟨⟨fun owner item h => absurd h (bare owner item), ?_⟩, fun _ => .none⟩
  exact fun _ _ _ _ owner item _ h => absurd h (bare owner item)

theorem load_spec (flow : List FlowStep) (outputs : JsonObject) :
    Sound flow (load outputs) ∧ (load outputs).Matches outputs := by
  induction outputs with
  | nil => exact empty_spec flow
  | cons entry rest ih =>
      obtain ⟨name, value⟩ := entry
      obtain ⟨sound, hmatch⟩ := ih
      have copied := copy_spec value (load rest).heap
      obtain ⟨sound₁, detached₁⟩ := sound.copied copied
      refine ⟨sound₁.put detached₁ name, fun other => ?_⟩
      have put := (hmatch.copied sound copied).put name copied.shows other
      by_cases same : other = name
      · subst same
        rw [lookup_set_self] at put
        rw [List.lookup_cons_self]
        exact put
      · rw [lookup_set_ne same] at put
        have differs : (other == name) = false := by simpa using same
        rw [List.lookup_cons, differs]
        exact put

end Memory

/-! ## Runs of outputs -/

/-- The outcomes of a run, in any order: what the latest results are, what the outputs hold, and
the containers behind them. -/
inductive OutputRun (flow : List FlowStep) : JsonObject → JsonObject → Memory → Prop
  | start : OutputRun flow [] [] ⟨[], [], []⟩
  /-- A step succeeds; its result is normalized into new containers and stored. -/
  | stored {latest outputs outputs' : JsonObject} {memory next : Memory} {step : FlowStep}
      {result : JsonValue} {item : Item} {heap : Heap} (rest : OutputRun flow latest outputs memory)
      (mem : step ∈ flow) (copied : Copies memory.heap result item heap)
      (values : storeOutput step result outputs = .ok outputs')
      (stores : Memory.storeOutput { memory with heap } step item = .ok next) :
      OutputRun flow (set step.name result latest) outputs' next
  /-- A step fails and its failure is dumped for the handler. -/
  | failed {latest outputs : JsonObject} {memory : Memory} {failure : JsonValue} {item : Item}
      {heap : Heap} (rest : OutputRun flow latest outputs memory)
      (copied : Copies memory.heap failure item heap) :
      OutputRun flow latest (set errorAlias failure outputs)
        { memory with heap, outputs := set errorAlias item memory.outputs }
  /-- The audit dumps a value, or an input resolves to it. -/
  | held {latest outputs : JsonObject} {memory : Memory} {value : JsonValue} {item : Item}
      {heap : Heap} (rest : OutputRun flow latest outputs memory)
      (copied : Copies memory.heap value item heap) :
      OutputRun flow latest outputs { memory with heap, held := item :: memory.held }
  /-- The run continues from its checkpoint. -/
  | continued {latest outputs : JsonObject} {memory : Memory}
      (rest : OutputRun flow latest outputs memory) :
      OutputRun flow (wireObject latest) (wireObject outputs) (.load (wireObject outputs))

/-- What holds along every run of outputs. -/
theorem OutputRun.invariant (names : OutputNames flow) {memory : Memory}
    (run : OutputRun flow latest outputs memory) :
    FollowsLatest flow latest outputs ∧ memory.Sound flow ∧ memory.Matches outputs := by
  induction run with
  | start => exact ⟨⟨fun _ _ => rfl, fun _ _ => rfl⟩, Memory.empty_spec flow⟩
  | stored rest mem copied values stores ih =>
      obtain ⟨follows, sound, hmatch⟩ := ih
      obtain ⟨next, stored, sound', match', -⟩ :=
        Memory.store_refines names sound follows hmatch mem copied values
      rw [stores, Except.ok.injEq] at stored
      subst stored
      exact ⟨follows.store names mem values, sound', match'⟩
  | failed rest copied ih =>
      obtain ⟨follows, sound, hmatch⟩ := ih
      obtain ⟨sound₁, detached₁⟩ := sound.copied copied
      exact ⟨follows.fail names _, sound₁.put detached₁ _,
        (hmatch.copied sound copied).put _ copied.shows⟩
  | held rest copied ih =>
      obtain ⟨follows, sound, hmatch⟩ := ih
      obtain ⟨sound₁, detached₁⟩ := sound.copied copied
      exact ⟨follows, sound₁.hold detached₁, hmatch.copied sound copied⟩
  | continued rest ih =>
      obtain ⟨follows, -, -⟩ := ih
      obtain ⟨sound, hmatch⟩ := Memory.load_spec flow (wireObject _)
      exact ⟨follows.wire, sound, hmatch⟩

/-! ## Reading a result -/

/-- The references that name what a step has stored. -/
def FlowStep.outputReferences (self : FlowStep) : List ReferencePath :=
  let output := self.outputKey
  let name := self.name
  { value := output, root := output, path := [] } ::
    if self.Aliased then [{ value := s!"{name}.{output}", root := name, path := [.key output] }]
    else []

/-- All of them resolve to the result. -/
def Resolved (step : FlowStep) (result : JsonValue) (outputs params : JsonObject) : Prop :=
  ∀ reference ∈ step.outputReferences, resolveReference reference outputs params = .ok result

theorem asReferenceError_error (e : EngineException) :
    ∃ e', asReferenceError (.error e : Except EngineException JsonValue) = .error e' := by
  unfold asReferenceError
  split
  · exact ⟨_, rfl⟩
  · exact ⟨_, rfl⟩
  · exact ⟨e, rfl⟩

/-- A root resolves where its value is within the default bounds. -/
theorem resolveReference_ok_iff {reference : ReferencePath} {value : JsonValue}
    {params : JsonObject} (held : outputs.lookup reference.root = some value)
    (few : reference.path.length ≤ maxPathTokens)
    (leads : resolveTokens reference.path value reference.root = .ok result) :
    resolveReference reference outputs params = .ok result ↔
      fits defaultCollectionItems value 0 = true := by
  have short : ¬ maxPathTokens < reference.path.length := Nat.not_lt.mpr few
  rw [resolveReference, lookupRoot, held]
  dsimp only
  rw [resolveJsonPath, if_neg short]
  cases within : fits defaultCollectionItems value 0 with
  | true =>
      rw [normalizeJsonValue_of_fits within, ok_bind, leads]
      simp [asReferenceError]
  | false =>
      obtain ⟨e, refused⟩ := normalizeJsonValue_of_not_fits within reference.root
      obtain ⟨e', raised⟩ := asReferenceError_error e
      rw [refused, error_bind, raised]
      simp

theorem resolved_iff (follows : FollowsLatest flow (set step.name result latest) outputs)
    (mem : step ∈ flow) (params : JsonObject) :
    Resolved step result outputs params ↔ fits defaultCollectionItems result 0 = true ∧
      (step.Aliased → fits defaultCollectionItems result 1 = true) := by
  have key := follows.keys step mem
  have name := follows.names step mem
  rw [lookup_set_self] at key name
  have first : resolveReference ⟨step.outputKey, step.outputKey, []⟩ outputs params = .ok result ↔
      fits defaultCollectionItems result 0 = true :=
    resolveReference_ok_iff key (Nat.zero_le _) rfl
  rw [Resolved, FlowStep.outputReferences]
  by_cases aliased : step.Aliased
  · rw [Option.map_some, FlowStep.namespaceOf, if_pos aliased] at name
    have second : ∀ text, resolveReference ⟨text, step.name, [.key step.outputKey]⟩ outputs params =
        .ok result ↔ fits defaultCollectionItems result 1 = true := by
      intro text
      refine (resolveReference_ok_iff name (by simp [maxPathTokens]) ?_).trans ?_
      · simp [resolveTokens, resolveToken, bind, Except.bind]
      · simp [fits, fitsFields, maxJsonDepth, defaultCollectionItems]
    simp only [aliased, if_true, List.mem_cons, List.not_mem_nil, or_false, forall_eq_or_imp,
      forall_eq, first, second, true_implies]
  · simp only [aliased, if_false, List.mem_cons, List.not_mem_nil, or_false, forall_eq, first,
      false_implies, and_true]

end Justflow
