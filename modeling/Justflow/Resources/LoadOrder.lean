import Justflow.Config.Composition
import Justflow.Configuration.Identities

/-!
# The load order of resources

A resource is loaded after the resources that it depends on.  The registry first checks every
dependency by itself: the resource is there, has the capability, and declares the secret alias if
it declares its aliases at all.  The order is that in which a depth-first search finishes the
resources.
-/

open Fields

namespace Justflow

structure ResourceDependency where
  resourceName : String
  capability : ResourceCapability
  secretAlias : Option String := none
  named : resourceName ≠ ""
  aliased : ∀ credential, secretAlias = some credential →
    credential ≠ "" ∧ capability = .secretReader := by simp

/-- A resolved resource; `none` are the aliases of a resource that does not declare them. -/
structure ResolvedResource where
  name : String
  capabilities : List ResourceCapability
  dependencies : List ResourceDependency := []
  secretAliases : Option (List String) := none

inductive ResourceDependencyError where
  | missing (resource dependency : String)
  | incapable (resource dependency : String) (capability : ResourceCapability)
  | undeclared (resource credential dependency : String)
  | cycle (names : List String)
  deriving DecidableEq

def ResourceDependencyError.message : ResourceDependencyError → String
  | .missing resource dependency =>
      s!"Resource '{resource}' requires missing resource '{dependency}'"
  | .incapable resource dependency capability =>
      let value := capability.value
      s!"Resource '{resource}' requires resource '{dependency}' with capability '{value}'"
  | .undeclared resource credential dependency =>
      s!"Resource '{resource}' requires undeclared secret alias '{credential}' "
        ++ s!"from resource '{dependency}'"
  | .cycle names =>
      let path := " -> ".intercalate names
      s!"Resource dependency cycle: {path}"

abbrev Resources := Table String ResolvedResource

variable (resources : Resources)

/-- The checks of one dependency. -/
def checkDependency (resource : ResolvedResource) (dependency : ResourceDependency) :
    Except ResourceDependencyError Unit :=
  match resources.get? dependency.resourceName with
  | none => .error (.missing resource.name dependency.resourceName)
  | some target =>
      if dependency.capability ∈ target.capabilities then
        match dependency.secretAlias, target.secretAliases with
        | some credential, some declared =>
            if credential ∈ declared then .ok ()
            else .error (.undeclared resource.name credential dependency.resourceName)
        | _, _ => .ok ()
      else .error (.incapable resource.name dependency.resourceName dependency.capability)

/-- `_validate_dependencies`. -/
def validateDependencies : Except ResourceDependencyError Unit :=
  resources.entries.forM fun entry => entry.2.dependencies.forM (checkDependency resources entry.2)

def dependencyNames (name : String) : List String :=
  match resources.get? name with
  | none => []
  | some resource => resource.dependencies.map ResourceDependency.resourceName

/-- `resource_load_order`. -/
def resourceLoadOrder : Except ResourceDependencyError (List String) := do
  validateDependencies resources
  (Digraph.finishOrder (dependencyNames resources) (keys resources.entries)).mapError .cycle

/-! ## What has to hold -/

/-- What a dependency asks for is there. -/
def Satisfied (dependency : ResourceDependency) : Prop :=
  ∃ target, resources.get? dependency.resourceName = some target ∧
    dependency.capability ∈ target.capabilities ∧
      ∀ credential declared, dependency.secretAlias = some credential →
        target.secretAliases = some declared → credential ∈ declared

/-- A resource has a dependency on another one. -/
def Requires (name other : String) : Prop :=
  ∃ resource, resources.get? name = some resource ∧
    ∃ dependency ∈ resource.dependencies, dependency.resourceName = other

/-- Each resource requires the one after it, and the last one is the first. -/
def DependencyCycle (names : List String) : Prop :=
  ∃ first middle, names = first :: (middle ++ [first]) ∧ names.IsChain (Requires resources)

variable {resources}

theorem checkDependency_ok_iff {resource : ResolvedResource} {dependency : ResourceDependency} :
    checkDependency resources resource dependency = .ok () ↔ Satisfied resources dependency := by
  rw [checkDependency, Satisfied]
  cases resources.get? dependency.resourceName with
  | none => simp
  | some target =>
      by_cases capable : dependency.capability ∈ target.capabilities
      · cases dependency.secretAlias with
        | none => simp [capable]
        | some credential =>
            cases aliases : target.secretAliases with
            | none => simp [capable, aliases]
            | some declared =>
                by_cases known : credential ∈ declared <;> simp [capable, aliases, known]
      · simp [capable]

theorem checkDependency_ne_cycle {resource : ResolvedResource} {dependency : ResourceDependency}
    {names : List String} :
    checkDependency resources resource dependency ≠ .error (.cycle names) := by
  rw [checkDependency]
  split
  · rintro ⟨⟩
  · split
    · split
      · split <;> rintro ⟨⟩
      · rintro ⟨⟩
    · rintro ⟨⟩

theorem forM_ok_iff {ε α : Type} {check : α → Except ε Unit} {items : List α} :
    items.forM check = .ok () ↔ ∀ item ∈ items, check item = .ok () := by
  induction items with
  | nil => simp [List.forM, pure, Except.pure]
  | cons item rest ih =>
      rw [List.forM, List.forall_mem_cons, ← ih]
      cases check item <;> simp [bind, Except.bind]

theorem exists_error_of_forM {ε α : Type} {check : α → Except ε Unit} {items : List α} {error : ε}
    (h : items.forM check = .error error) : ∃ item ∈ items, check item = .error error := by
  induction items with
  | nil => cases h
  | cons item rest ih =>
      rw [List.forM] at h
      cases first : check item with
      | error found =>
          rw [first] at h
          cases h
          exact ⟨item, by simp, first⟩
      | ok done =>
          rw [first] at h
          obtain ⟨other, mem, raised⟩ := ih h
          exact ⟨other, by simp [mem], raised⟩

theorem validateDependencies_ok_iff :
    validateDependencies resources = .ok () ↔
      ∀ entry ∈ resources.entries, ∀ dependency ∈ entry.2.dependencies,
        Satisfied resources dependency := by
  simp only [validateDependencies, forM_ok_iff, checkDependency_ok_iff]

theorem mem_dependencyNames {name other : String} :
    other ∈ dependencyNames resources name ↔ Requires resources name other := by
  rw [dependencyNames]
  cases found : resources.get? name with
  | none => simp [Requires, found]
  | some resource => simp [Requires, found]

theorem dependencyCycle_iff {names : List String} :
    DependencyCycle resources names ↔ Digraph.IsCycle (dependencyNames resources) names := by
  simp only [DependencyCycle, Digraph.IsCycle, mem_dependencyNames]

theorem listed_dependencyNames :
    Digraph.Listed (dependencyNames resources) (keys resources.entries) := by
  intro name some_
  by_contra absent
  rw [dependencyNames, Table.get?_eq_none_iff.mpr absent] at some_
  exact some_ rfl

/-- Dependencies that are satisfied lead to resources. -/
theorem closed_dependencyNames (valid : validateDependencies resources = .ok ()) :
    ∀ name ∈ keys resources.entries, dependencyNames resources name ⊆ keys resources.entries := by
  intro name _ other mem
  obtain ⟨resource, found, dependency, here, rfl⟩ := mem_dependencyNames.mp mem
  obtain ⟨target, there, _⟩ := validateDependencies_ok_iff.mp valid (name, resource)
    (Table.mem_entries_iff.mpr found) dependency here
  by_contra absent
  rw [Table.get?_eq_none_iff.mpr absent] at there
  cases there

/-! ## The order -/

/-- Every resource once, after all that it depends on. -/
theorem resourceLoadOrder_ok {order : List String} (h : resourceLoadOrder resources = .ok order) :
    order.Nodup ∧ (∀ name, name ∈ order ↔ name ∈ keys resources.entries) ∧
      ∀ name other, Relation.TransGen (Requires resources) name other →
        order.idxOf other < order.idxOf name := by
  rw [resourceLoadOrder] at h
  cases valid : validateDependencies resources with
  | error error =>
      rw [valid] at h
      cases h
  | ok done =>
      rw [valid] at h
      cases search : Digraph.finishOrder (dependencyNames resources) (keys resources.entries) with
      | error cycle =>
          rw [search] at h
          cases h
      | ok found =>
          rw [search] at h
          cases h
          obtain ⟨distinct, same, later⟩ :=
            Digraph.finishOrder_ok (closed_dependencyNames valid) search
          refine ⟨distinct, same, fun name other below => ?_⟩
          simp only [Digraph.DependsOn, mem_dependencyNames] at later
          refine later name ?_ other below
          -- whatever depends on something is a resource
          by_contra absent
          cases Relation.TransGen.head'_iff.mp below with
          | intro next first =>
              obtain ⟨⟨resource, known, _⟩, _⟩ := first
              rw [Table.get?_eq_none_iff.mpr absent] at known
              cases known

theorem resourceLoadOrder_cycle {names : List String}
    (h : resourceLoadOrder resources = .error (.cycle names)) :
    DependencyCycle resources names := by
  rw [resourceLoadOrder] at h
  cases valid : validateDependencies resources with
  | error error =>
      rw [valid] at h
      cases h
      obtain ⟨entry, _, raised⟩ := exists_error_of_forM valid
      obtain ⟨dependency, _, raised⟩ := exists_error_of_forM raised
      exact absurd raised checkDependency_ne_cycle
  | ok done =>
      rw [valid] at h
      cases search : Digraph.finishOrder (dependencyNames resources) (keys resources.entries) with
      | error cycle =>
          rw [search] at h
          cases h
          exact dependencyCycle_iff.mpr (Digraph.finishOrder_cycle listed_dependencyNames
            (closed_dependencyNames valid) search)
      | ok found =>
          rw [search] at h
          cases h

theorem exists_resourceLoadOrder_iff :
    (∃ order, resourceLoadOrder resources = .ok order) ↔
      (∀ entry ∈ resources.entries, ∀ dependency ∈ entry.2.dependencies,
        Satisfied resources dependency) ∧ ∀ names, ¬ DependencyCycle resources names := by
  rw [← validateDependencies_ok_iff, resourceLoadOrder]
  simp only [dependencyCycle_iff]
  cases valid : validateDependencies resources with
  | error error =>
      constructor
      · rintro ⟨_, ⟨⟩⟩
      · rintro ⟨⟨⟩, _⟩
  | ok done =>
      have acyclic := Digraph.exists_finishOrder_iff listed_dependencyNames
        (closed_dependencyNames valid)
      refine Iff.trans ?_ (acyclic.trans ⟨fun none_ => ⟨rfl, none_⟩, And.right⟩)
      cases Digraph.finishOrder (dependencyNames resources) (keys resources.entries) with
      | error cycle =>
          constructor
          · rintro ⟨_, ⟨⟩⟩
          · rintro ⟨_, ⟨⟩⟩
      | ok found => exact ⟨fun _ => ⟨found, rfl⟩, fun _ => ⟨found, rfl⟩⟩

/-- The load order is complete and respects every dependency, the registry raises exactly where
there is none, and the validator finds a composition cycle exactly where there is one. -/
theorem load_order_topological (resources : Resources) (workflows : Table String WorkflowConfig) :
    (∀ order, resourceLoadOrder resources = .ok order →
      order.Nodup ∧ (∀ name, name ∈ order ↔ name ∈ keys resources.entries) ∧
        ∀ name other, Relation.TransGen (Requires resources) name other →
          order.idxOf other < order.idxOf name) ∧
    ((∃ error, resourceLoadOrder resources = .error error) ↔
      (∃ entry ∈ resources.entries, ∃ dependency ∈ entry.2.dependencies,
        ¬ Satisfied resources dependency) ∨ ∃ names, DependencyCycle resources names) ∧
    (∀ names, resourceLoadOrder resources = .error (.cycle names) →
      DependencyCycle resources names) ∧
    (checkCompositionCycles workflows ≠ [] ↔ ∃ names, CompositionCycle workflows names) := by
  refine ⟨fun order => resourceLoadOrder_ok, ?_, fun names => resourceLoadOrder_cycle, ?_⟩
  · have raises : (∃ error, resourceLoadOrder resources = .error error) ↔
        ¬ ∃ order, resourceLoadOrder resources = .ok order := by
      cases resourceLoadOrder resources with
      | error error => simp
      | ok order => simp
    rw [raises, exists_resourceLoadOrder_iff, not_and_or]
    push Not
    rfl
  · rw [ne_eq, checkCompositionCycles_eq_nil_iff]
    push Not
    rfl

end Justflow
