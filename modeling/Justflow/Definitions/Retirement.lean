import Justflow.Definitions.Catalog
import Justflow.Runtime.Scope
import Mathlib.Logic.Relation

/-!
# Retirement of definitions

A manifest pins the digests of its children, and an execution starts a child by the pinned digest.
A definition is needed by every alias, schedule and open execution from which it can be reached
through pinned children; the assessment looks for those that name it directly.
-/

namespace Justflow

inductive RetirementBlocker where
  | approvalRequired | activeAlias | openExecutions | replayFixtureRequired | activeSchedules
  deriving DecidableEq

structure OpenExecutionDependency where
  workflowId : String
  runId : String
  logicalWorkflow : String
  definitionDigest : Digest

def OpenExecutionDependency.key (self : OpenExecutionDependency) : DefinitionKey :=
  (self.logicalWorkflow, self.definitionDigest)

structure RetirementAssessment where
  blockers : List RetirementBlocker

def RetirementAssessment.allowed (self : RetirementAssessment) : Bool :=
  self.blockers.isEmpty

/-- What an assessment reads beside the catalog. -/
structure RetirementEvidence where
  openExecutions : List OpenExecutionDependency
  replayFixtureDigests : List Digest
  /-- The definitions of the active schedules; the assessment is given their digests. -/
  scheduledDefinitions : List DefinitionKey
  approved : Bool

variable {hashing : Hashing}

def assessDefinitionRetirement (catalog : DefinitionCatalog hashing) (logicalName : String)
    (definitionDigest : Digest) (evidence : RetirementEvidence) :
    Except CatalogError RetirementAssessment := do
  let _ ← catalog.get logicalName definitionDigest
  return ⟨
    (if evidence.approved then [] else [.approvalRequired]) ++
    (if catalog.aliases.get? logicalName = some definitionDigest then [.activeAlias] else []) ++
    (if evidence.openExecutions.any fun execution =>
        execution.logicalWorkflow = logicalName ∧ execution.definitionDigest = definitionDigest
      then [.openExecutions] else []) ++
    (if definitionDigest ∈ evidence.replayFixtureDigests then [] else [.replayFixtureRequired]) ++
    (if definitionDigest ∈ evidence.scheduledDefinitions.map Prod.snd then [.activeSchedules]
      else [])⟩

/-! ## What needs a definition -/

/-- A definition of the catalog pins another as a child. -/
def Pins (catalog : DefinitionCatalog hashing) (parent child : DefinitionKey) : Prop :=
  ∃ manifest, catalog.manifests.get? parent = some manifest ∧
    ∃ pinned ∈ manifest.children, child = (pinned.workflow, pinned.definitionDigest)

/-- An active alias, a schedule or an open execution names the definition. -/
def Named (catalog : DefinitionCatalog hashing) (evidence : RetirementEvidence)
    (definition : DefinitionKey) : Prop :=
  catalog.aliases.get? definition.1 = some definition.2 ∨
    definition ∈ evidence.scheduledDefinitions ∨
    ∃ execution ∈ evidence.openExecutions, execution.key = definition

/-- A running or a future execution may start the definition. -/
def InUse (catalog : DefinitionCatalog hashing) (evidence : RetirementEvidence)
    (definition : DefinitionKey) : Prop :=
  ∃ root, Named catalog evidence root ∧ Relation.ReflTransGen (Pins catalog) root definition

/-- What the assessment checks: the direct uses, the approval and the replay fixture. -/
def Blocked (catalog : DefinitionCatalog hashing) (evidence : RetirementEvidence)
    (definition : DefinitionKey) : Prop :=
  evidence.approved = false ∨ definition.2 ∉ evidence.replayFixtureDigests ∨
    catalog.aliases.get? definition.1 = some definition.2 ∨
    definition.2 ∈ evidence.scheduledDefinitions.map Prod.snd ∨
    ∃ execution ∈ evidence.openExecutions, execution.key = definition

/-- A definition of the catalog is assessed. -/
theorem assess_of_found {catalog : DefinitionCatalog hashing} {logicalName : String}
    {definitionDigest : Digest} {manifest : DefinitionManifest} (evidence : RetirementEvidence)
    (found : catalog.manifests.get? (logicalName, definitionDigest) = some manifest) :
    ∃ assessment, assessDefinitionRetirement catalog logicalName definitionDigest evidence =
      .ok assessment := by
  rw [assessDefinitionRetirement, DefinitionCatalog.get, found]
  exact ⟨_, rfl⟩

theorem assess_eq_ok {catalog : DefinitionCatalog hashing} {logicalName : String}
    {definitionDigest : Digest} {evidence : RetirementEvidence}
    {assessment : RetirementAssessment}
    (h : assessDefinitionRetirement catalog logicalName definitionDigest evidence =
      .ok assessment) :
    assessment.allowed = true ↔ ¬ Blocked catalog evidence (logicalName, definitionDigest) := by
  rw [assessDefinitionRetirement, DefinitionCatalog.get] at h
  split at h
  · next manifest found =>
      cases h
      simp only [RetirementAssessment.allowed, List.isEmpty_iff, List.append_eq_nil_iff, Blocked,
        OpenExecutionDependency.key, Prod.mk.injEq]
      constructor
      · rintro ⟨⟨⟨⟨approved, alias_⟩, executions⟩, replay⟩, schedules⟩ blocked
        rcases blocked with unapproved | unreplayed | active | scheduled | ⟨execution, mem, named⟩
        · simp [unapproved] at approved
        · simp [unreplayed] at replay
        · simp [active] at alias_
        · simp [scheduled] at schedules
        · have : evidence.openExecutions.any (fun execution => decide
              (execution.logicalWorkflow = logicalName ∧
                execution.definitionDigest = definitionDigest)) = true :=
            List.any_eq_true.mpr ⟨execution, mem, by simpa using named⟩
          rw [if_pos this] at executions
          cases executions
      · intro free
        simp only [not_or] at free
        obtain ⟨approved, replay, inactive, unscheduled, unopened⟩ := free
        have closed : ¬ evidence.openExecutions.any (fun execution => decide
            (execution.logicalWorkflow = logicalName ∧
              execution.definitionDigest = definitionDigest)) = true := by
          intro opened
          obtain ⟨execution, mem, named⟩ := List.any_eq_true.mp opened
          exact unopened ⟨execution, mem, by simpa using named⟩
        refine ⟨⟨⟨⟨?_, ?_⟩, ?_⟩, ?_⟩, ?_⟩
        · rw [if_pos (by simpa using approved)]
        · rw [if_neg inactive]
        · rw [if_neg closed]
        · rw [if_pos (not_not.mp replay)]
        · rw [if_neg unscheduled]
  · cases h

/-- Whatever is named is blocked. -/
theorem Named.blocked {catalog : DefinitionCatalog hashing} {evidence : RetirementEvidence}
    {definition : DefinitionKey} (h : Named catalog evidence definition) :
    Blocked catalog evidence definition := by
  rcases h with active | scheduled | opened
  · exact .inr (.inr (.inl active))
  · exact .inr (.inr (.inr (.inl (List.mem_map_of_mem scheduled))))
  · exact .inr (.inr (.inr (.inr opened)))

/-- A definition that nothing names is in use exactly through a definition that pins it. -/
theorem inUse_iff {catalog : DefinitionCatalog hashing} {evidence : RetirementEvidence}
    {definition : DefinitionKey} (unnamed : ¬ Named catalog evidence definition) :
    InUse catalog evidence definition ↔
      ∃ parent, InUse catalog evidence parent ∧ Pins catalog parent definition := by
  constructor
  · rintro ⟨root, named, path⟩
    rcases Relation.ReflTransGen.cases_tail path with rfl | ⟨parent, before, pins⟩
    · exact absurd named unnamed
    · exact ⟨parent, ⟨root, named, before⟩, pins⟩
  · rintro ⟨parent, ⟨root, named, path⟩, pins⟩
    exact ⟨root, named, path.tail pins⟩

/-- An assessment that allows the retirement of a definition is right exactly if a check blocks it,
or no definition in use pins it. -/
theorem retirement_safe_iff (catalog : DefinitionCatalog hashing) (logicalName : String)
    (definitionDigest : Digest) (evidence : RetirementEvidence) :
    (∀ assessment,
      assessDefinitionRetirement catalog logicalName definitionDigest evidence = .ok assessment →
        assessment.allowed = true →
          ¬ InUse catalog evidence (logicalName, definitionDigest)) ↔
      catalog.manifests.get? (logicalName, definitionDigest) = none ∨
      Blocked catalog evidence (logicalName, definitionDigest) ∨
      ∀ parent, InUse catalog evidence parent →
        ¬ Pins catalog parent (logicalName, definitionDigest) := by
  constructor
  · intro safe
    by_cases absent : catalog.manifests.get? (logicalName, definitionDigest) = none
    · exact .inl absent
    · by_cases blocked : Blocked catalog evidence (logicalName, definitionDigest)
      · exact .inr (.inl blocked)
      · refine .inr (.inr fun parent used pins => ?_)
        obtain ⟨manifest, found⟩ := Option.ne_none_iff_exists'.mp absent
        cases assessed : assessDefinitionRetirement catalog logicalName definitionDigest
            evidence with
        | error error =>
            simp [assessDefinitionRetirement, DefinitionCatalog.get, found, bind, Except.bind,
              pure, Except.pure] at assessed
        | ok assessment =>
            have allowed := (assess_eq_ok assessed).mpr blocked
            have unnamed : ¬ Named catalog evidence (logicalName, definitionDigest) :=
              fun named => blocked named.blocked
            exact safe assessment assessed allowed ((inUse_iff unnamed).mpr ⟨parent, used, pins⟩)
  · intro condition assessment assessed allowed used
    have free := (assess_eq_ok assessed).mp allowed
    rcases condition with absent | blocked | unpinned
    · simp [assessDefinitionRetirement, DefinitionCatalog.get, absent, bind, Except.bind]
        at assessed
    · exact free blocked
    · have unnamed : ¬ Named catalog evidence (logicalName, definitionDigest) :=
        fun named => free named.blocked
      obtain ⟨parent, parentUsed, pins⟩ := (inUse_iff unnamed).mp used
      exact unpinned parent parentUsed pins

/-! ## A pinned child of an open execution -/

section OpenParent

def manifestOf (name : String) (workflow : List (String × JsonValue))
    (children : List ChildDefinitionIdentity) : DefinitionManifest where
  logicalName := name
  requiredEngineWorkflowAbi := "justflow.workflow.v1"
  workflow := workflow
  deterministicPolicy := ⟨[], []⟩
  providerContracts := []
  contracts := []
  evaluators := []
  children := children
  format := rfl

def billing : DefinitionManifest :=
  manifestOf "billing" [("description", .str "old")] []

/-- A definition that pins its child. -/
def orders : DefinitionManifest :=
  manifestOf "orders" [] [⟨"billing", billing.definitionDigest lengthHash⟩]

/-- The catalog after both workflows were withdrawn: no alias names them any more. -/
def ordersCatalog : DefinitionCatalog lengthHash where
  manifests := (Table.empty.insert (billing.key lengthHash) billing).insert
    (orders.key lengthHash) orders
  aliases := .empty
  indexed := by
    intro key manifest found
    simp only [Table.get?_insert, Table.get?_empty] at found
    split_ifs at found with first second
    · rw [← Option.some.inj found, first]
    · rw [← Option.some.inj found, second]
  targets := by
    intro name digest found
    cases found

/-- An execution of the definition is open; its child was approved for retirement. -/
def ordersEvidence : RetirementEvidence where
  openExecutions := [⟨"orders-1", "run-1", "orders", orders.definitionDigest lengthHash⟩]
  replayFixtureDigests := [billing.definitionDigest lengthHash]
  scheduledDefinitions := []
  approved := true

theorem orders_found :
    ordersCatalog.manifests.get? (orders.key lengthHash) = some orders :=
  Table.get?_insert_self _ _ _

theorem billing_found :
    ordersCatalog.manifests.get? (billing.key lengthHash) = some billing := by
  have notOrders : billing.key lengthHash ≠ orders.key lengthHash := by
    intro same
    exact absurd (congrArg Prod.fst same) (by decide)
  rw [ordersCatalog, Table.get?_insert_ne _ notOrders, Table.get?_insert_self]

theorem billing_unblocked : ¬ Blocked ordersCatalog ordersEvidence (billing.key lengthHash) := by
  rintro (unapproved | unreplayed | active | scheduled | ⟨execution, mem, named⟩)
  · cases unapproved
  · exact unreplayed List.mem_cons_self
  · cases active
  · cases scheduled
  · obtain rfl := List.mem_singleton.mp mem
    exact absurd (congrArg Prod.fst named) (by decide)

theorem billing_inUse : InUse ordersCatalog ordersEvidence (billing.key lengthHash) := by
  refine ⟨orders.key lengthHash, .inr (.inr ⟨_, List.mem_cons_self, rfl⟩), ?_⟩
  exact .single ⟨orders, orders_found, _, List.mem_cons_self, rfl⟩

theorem billing_key :
    billing.key lengthHash = ("billing", billing.definitionDigest lengthHash) := rfl

/-- The child of an open execution may be retired. -/
theorem pinned_child_retirable :
    ∃ assessment, assessDefinitionRetirement ordersCatalog "billing"
        (billing.definitionDigest lengthHash) ordersEvidence = .ok assessment ∧
      assessment.allowed = true ∧
      InUse ordersCatalog ordersEvidence ("billing", billing.definitionDigest lengthHash) := by
  have found := billing_found
  have unblocked := billing_unblocked
  have inUse := billing_inUse
  rw [billing_key] at found unblocked inUse
  obtain ⟨assessment, assessed⟩ := assess_of_found ordersEvidence found
  exact ⟨assessment, assessed, (assess_eq_ok assessed).mpr unblocked, inUse⟩

end OpenParent

end Justflow
