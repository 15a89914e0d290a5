import Justflow.Definitions.CatalogStore
import Justflow.Definitions.ManifestBuilds

/-!
# What a manifest depends on

The manifests of a configuration are those that the rules of the builds give, so that neither the
order of the workflows nor the other workflows matter: a manifest depends on what its workflow
leads to, and on nothing else.  The builds fail only for a reason that their error names.  Below a
digest everything is fixed: where no digests collide, workflows with one digest run the same
definitions, however deep.
-/

open Fields Relation

namespace Justflow

theorem sortedContracts_congr {first second : List (String × String)}
    (same : ∀ contract, contract ∈ first ↔ contract ∈ second) :
    sortedContracts first = sortedContracts second := by
  let le := fun a b : String × String => a.1 < b.1 ∨ a.1 = b.1 ∧ a.2 ≤ b.2
  have total : Std.Total le := by
    refine ⟨fun a b => ?_⟩
    rcases lt_trichotomy a.1 b.1 with less | equal | more
    · exact .inl (.inl less)
    · rcases le_total a.2 b.2 with below | above
      · exact .inl (.inr ⟨equal, below⟩)
      · exact .inr (.inr ⟨equal.symm, above⟩)
    · exact .inr (.inl more)
  have trans : IsTrans (String × String) le := by
    refine ⟨fun a b c => ?_⟩
    rintro (less | ⟨equal, below⟩) (less' | ⟨equal', below'⟩)
    · exact .inl (less.trans less')
    · exact .inl (equal' ▸ less)
    · exact .inl (equal ▸ less')
    · exact .inr ⟨equal.trans equal', below.trans below'⟩
  have perm : first.dedup.Perm second.dedup := by
    refine (List.perm_ext_iff_of_nodup first.nodup_dedup second.nodup_dedup).mpr fun contract => ?_
    rw [List.mem_dedup, List.mem_dedup, same]
  rw [sortedContracts, sortedContracts]
  congr 1
  refine List.Perm.eq_of_pairwise ?_ (List.pairwise_insertionSort le _)
    (List.pairwise_insertionSort le _)
    ((List.perm_insertionSort le _).trans (perm.trans (List.perm_insertionSort le _).symm))
  rintro ⟨a, b⟩ ⟨c, d⟩ - - (less | ⟨rfl, below⟩) (less' | ⟨equal', below'⟩)
  · exact absurd (less.trans less') (lt_irrefl _)
  · exact absurd (equal' ▸ less) (lt_irrefl _)
  · exact absurd less' (lt_irrefl _)
  · exact Prod.ext rfl (le_antisymm below below')

theorem exists_error_of_mapM {ε α β : Type} {f : α → Except ε β} {items : List α} {error : ε}
    (h : items.mapM f = .error error) : ∃ item ∈ items, f item = .error error := by
  induction items with
  | nil => cases h
  | cons item rest ih =>
      rw [List.mapM_cons] at h
      cases first : f item with
      | error found =>
          rw [first] at h
          cases h
          exact ⟨item, by simp, first⟩
      | ok value =>
          rw [first] at h
          change (rest.mapM f >>= _) = _ at h
          cases others : rest.mapM f with
          | ok values =>
              rw [others] at h
              cases h
          | error found =>
              rw [others] at h
              cases h
              obtain ⟨other, mem, failed⟩ := ih others
              exact ⟨other, by simp [mem], failed⟩

theorem contractReferences_eq_none_iff {identities : ContractIdentities}
    {workflow : WorkflowConfig} :
    contractReferences identities workflow = none ↔
      ∃ declaration ∈ contractDeclarations workflow, identities declaration.2 = none := by
  rw [contractReferences]
  induction contractDeclarations workflow with
  | nil => simp
  | cons declaration rest ih =>
      rw [List.mapM_cons, List.exists_mem_cons_iff, ← ih]
      cases identities declaration.2 with
      | none => simp
      | some identity =>
          cases rest.mapM fun declaration : String × JsonValue =>
            (identities declaration.2).map fun identity =>
              (⟨declaration.1, identity⟩ : ContractReference) <;> simp

namespace ManifestInputs

variable (inputs : ManifestInputs)

/-- A step of the workflow runs another workflow. -/
def RunsChild (name child : String) : Prop :=
  ∃ workflow, inputs.workflows.get? name = some workflow ∧
    ∃ entry ∈ workflow.steps, entry.2.target = .workflow child

/-- The workflows that a workflow leads to, itself included. -/
abbrev LeadsTo : String → String → Prop :=
  ReflTransGen inputs.RunsChild

/-- A resolved resource depends on another one. -/
def DependsOn (name other : String) : Prop :=
  ∃ resource, inputs.resources.get? name = some resource ∧
    ∃ dependency ∈ resource.dependencies, dependency.resourceName = other

/-- A workflow needs a resource: it names it, or one that depends on it at any depth. -/
def NeedsResource (workflow : AuthoredWorkflow) (name : String) : Prop :=
  ∃ first ∈ resourceNames workflow, ReflTransGen inputs.DependsOn first name

/-! ## Resources -/

/-- Where the inclusion of resources stands. -/
structure Includes (start pending : List String) (included : List (String × ProvidedResource)) :
    Prop where
  resolved : ∀ entry ∈ included, inputs.resources.get? entry.1 = some entry.2
  needed : ∀ name, name ∈ pending ∨ name ∈ keys included →
    ∃ first ∈ start, ReflTransGen inputs.DependsOn first name
  started : ∀ name ∈ start, name ∈ pending ∨ name ∈ keys included
  closed : ∀ name ∈ keys included, ∀ other, inputs.DependsOn name other →
    other ∈ pending ∨ other ∈ keys included

variable {inputs} {start pending : List String} {included : List (String × ProvidedResource)}

theorem includes_start (start : List String) : inputs.Includes start start.reverse [] where
  resolved := by simp
  needed name mem := ⟨name, by simpa using mem, .refl⟩
  started name mem := .inl (by simpa using mem)
  closed := by simp

theorem Includes.skip {name : String} (h : inputs.Includes start (name :: pending) included)
    (present : name ∈ keys included) : inputs.Includes start pending included where
  resolved := h.resolved
  needed other mem := h.needed other (mem.imp_left (List.mem_cons_of_mem _))
  started other mem := by
    rcases h.started other mem with pending' | found
    · rcases List.mem_cons.mp pending' with rfl | pending'
      · exact .inr present
      · exact .inl pending'
    · exact .inr found
  closed other found below edge := by
    rcases h.closed other found below edge with pending' | found
    · rcases List.mem_cons.mp pending' with rfl | pending'
      · exact .inr present
      · exact .inl pending'
    · exact .inr found

theorem mem_dependencyNames {name other : String} {resource : ProvidedResource}
    (found : inputs.resources.get? name = some resource) :
    other ∈ resource.dependencyNames ↔ inputs.DependsOn name other := by
  rw [ProvidedResource.dependencyNames, List.mem_map]
  constructor
  · intro edge
    exact ⟨resource, found, edge⟩
  · rintro ⟨resource', found', edge⟩
    rw [found] at found'
    cases found'
    exact edge

theorem Includes.add {name : String} {resource : ProvidedResource}
    (h : inputs.Includes start (name :: pending) included)
    (found : inputs.resources.get? name = some resource) :
    inputs.Includes start (resource.dependencyNames.reverse ++ pending)
      ((name, resource) :: included) where
  resolved := by
    rintro entry (_ | ⟨_, mem⟩)
    · exact found
    · exact h.resolved entry mem
  needed other mem := by
    simp only [List.mem_append, List.mem_reverse, keys_cons, List.mem_cons] at mem
    rcases mem with (below | pending') | rfl | included'
    · obtain ⟨first, mem, path⟩ := h.needed name (.inl (by simp))
      exact ⟨first, mem, path.tail ((mem_dependencyNames found).mp below)⟩
    · exact h.needed other (.inl (by simp [pending']))
    · exact h.needed other (.inl (by simp))
    · exact h.needed other (.inr included')
  started other mem := by
    simp only [List.mem_append, List.mem_reverse, keys_cons, List.mem_cons]
    rcases h.started other mem with pending' | included'
    · rcases List.mem_cons.mp pending' with rfl | pending' <;> simp [*]
    · simp [included']
  closed other mem below edge := by
    simp only [List.mem_append, List.mem_reverse, keys_cons, List.mem_cons] at mem ⊢
    rcases mem with rfl | included'
    · exact .inl (.inl ((mem_dependencyNames found).mpr edge))
    · rcases h.closed other included' below edge with pending' | included'
      · rcases List.mem_cons.mp pending' with rfl | pending' <;> simp [*]
      · simp [included']

/-- What is left when nothing is pending is closed under dependencies. -/
theorem Includes.complete (h : inputs.Includes start [] included) {name : String}
    (needed : ∃ first ∈ start, ReflTransGen inputs.DependsOn first name) :
    name ∈ keys included := by
  obtain ⟨first, mem, path⟩ := needed
  induction path with
  | refl => exact (h.started first mem).resolve_left (by simp)
  | tail _ edge ih => exact (h.closed _ ih _ edge).resolve_left (by simp)

/-- The inclusion ends, with all that is needed or with a missing resource that is. -/
theorem includeResources_cases (logicalName : String) {fuel : Nat}
    (h : inputs.Includes start pending included)
    (enough : Digraph.workload inputs.pendingDependencies (keys inputs.resources.entries) pending
      (keys included) ≤ fuel) :
    (∃ result, inputs.includeResources logicalName fuel pending included = .ok result ∧
      inputs.Includes start [] result) ∨
    ∃ missing, (∃ first ∈ start, ReflTransGen inputs.DependsOn first missing) ∧
      inputs.resources.get? missing = none ∧
      inputs.includeResources logicalName fuel pending included =
        .error (.unresolvedResource logicalName missing) := by
  induction fuel generalizing pending included with
  | zero =>
      cases pending with
      | nil => exact .inl ⟨included, by rw [includeResources], h⟩
      | cons name pending =>
          simp only [Digraph.workload, List.length_cons] at enough
          omega
  | succ fuel ih =>
      cases pending with
      | nil => exact .inl ⟨included, by rw [includeResources], h⟩
      | cons name pending =>
          by_cases present : name ∈ keys included
          · rw [includeResources, if_pos present]
            refine ih (h.skip present) ?_
            simp only [Digraph.workload, List.length_cons] at enough ⊢
            omega
          · cases found : inputs.resources.get? name with
            | none =>
                refine .inr ⟨name, h.needed name (.inl (by simp)), found, ?_⟩
                rw [includeResources, if_neg present, found]
            | some resource =>
                rw [includeResources, if_neg present, found]
                refine ih (h.add found) ?_
                have listed : name ∈ keys inputs.resources.entries :=
                  mem_keys_iff_isSome_lookup.mpr (by
                    rw [Table.get?] at found
                    rw [found]
                    rfl)
                have less : Digraph.workload inputs.pendingDependencies
                    (keys inputs.resources.entries)
                    (inputs.pendingDependencies name ++ pending) (name :: keys included) + 1 ≤
                      Digraph.workload inputs.pendingDependencies (keys inputs.resources.entries)
                        (name :: pending) (keys included) :=
                  Digraph.workload_add listed present
                have same : inputs.pendingDependencies name = resource.dependencyNames.reverse := by
                  rw [pendingDependencies, found]
                rw [same] at less
                change Digraph.workload _ _ _ (name :: keys included) ≤ fuel
                omega

theorem includedResources_cases (inputs : ManifestInputs) (logicalName : String)
    (workflow : AuthoredWorkflow) :
    (∃ included, inputs.includedResources logicalName workflow = .ok included ∧
      (∀ entry ∈ included, inputs.resources.get? entry.1 = some entry.2) ∧
      ∀ name, inputs.NeedsResource workflow name ↔ name ∈ keys included) ∨
    ∃ missing, inputs.NeedsResource workflow missing ∧ inputs.resources.get? missing = none ∧
      inputs.includedResources logicalName workflow =
        .error (.unresolvedResource logicalName missing) := by
  rcases includeResources_cases logicalName (inputs.includes_start (resourceNames workflow)) le_rfl
    with ⟨included, found, all⟩ | missing
  · exact .inl ⟨included, found, all.resolved, fun name => ⟨all.complete, fun mem =>
      all.needed name (.inr mem)⟩⟩
  · exact .inr missing

/-! ## One manifest -/

theorem usedServices_ok_iff {logicalName : String} {workflow : WorkflowConfig}
    {services : List ResolvedService} :
    inputs.usedServices logicalName workflow = .ok services ↔
      (usedServiceNames workflow).map inputs.services.get? = services.map some := by
  rw [usedServices, mapM_eq_ok_iff]
  induction usedServiceNames workflow generalizing services with
  | nil => cases services <;> simp
  | cons name rest ih =>
      cases services with
      | nil => simp
      | cons service others =>
          rw [List.forall₂_cons, ih, List.map_cons, List.map_cons, List.cons_eq_cons]
          cases inputs.services.get? name <;> simp

theorem usedServices_of_resolved {workflow : WorkflowConfig} (logicalName : String)
    (resolved : ∀ service ∈ usedServiceNames workflow, (inputs.services.get? service).isSome) :
    ∃ services, inputs.usedServices logicalName workflow = .ok services := by
  cases used : inputs.usedServices logicalName workflow with
  | ok services => exact ⟨services, rfl⟩
  | error error =>
      obtain ⟨service, mem, failed⟩ := exists_error_of_mapM used
      obtain ⟨found, here⟩ := Option.isSome_iff_exists.mp (resolved service mem)
      rw [here] at failed
      cases failed

variable {hashing : Hashing} {identities : ContractIdentities} {logicalName : String}
  {workflow : AuthoredWorkflow} {children : List (String × DefinitionManifest)}

theorem manifestOf_ok_iff {manifest : DefinitionManifest} :
    inputs.manifestOf hashing identities logicalName workflow children = .ok manifest ↔
      ∃ services resources contracts,
        inputs.usedServices logicalName workflow.toWorkflowConfig = .ok services ∧
        inputs.includedResources logicalName workflow = .ok resources ∧
        contractReferences identities workflow.toWorkflowConfig = some contracts ∧
        inputs.assemble hashing logicalName workflow children services resources contracts =
          manifest := by
  rw [manifestOf]
  cases inputs.usedServices logicalName workflow.toWorkflowConfig with
  | error error =>
      constructor
      · rintro ⟨⟩
      · rintro ⟨_, _, _, ⟨⟩, _⟩
  | ok services =>
      rw [Program.ok_bind]
      cases inputs.includedResources logicalName workflow with
      | error error =>
          constructor
          · rintro ⟨⟩
          · rintro ⟨_, _, _, _, ⟨⟩, _⟩
      | ok resources =>
          rw [Program.ok_bind]
          cases contractReferences identities workflow.toWorkflowConfig with
          | none =>
              constructor
              · rintro ⟨⟩
              · rintro ⟨_, _, _, _, _, ⟨⟩, _⟩
          | some contracts =>
              constructor
              · rintro ⟨⟩
                exact ⟨services, resources, contracts, rfl, rfl, rfl, rfl⟩
              · rintro ⟨_, _, _, ⟨⟩, ⟨⟩, ⟨⟩, rfl⟩
                rfl

/-- What a workflow refers to is there, and its contract declarations are accepted. -/
structure Resolved (inputs : ManifestInputs) (identities : ContractIdentities)
    (workflow : AuthoredWorkflow) : Prop where
  services : ∀ service ∈ usedServiceNames workflow.toWorkflowConfig,
    (inputs.services.get? service).isSome
  resources : ∀ name, inputs.NeedsResource workflow name → (inputs.resources.get? name).isSome
  contracts : ∀ declaration ∈ contractDeclarations workflow.toWorkflowConfig,
    (identities declaration.2).isSome

theorem Resolved.manifestOf_ok (h : Resolved inputs identities workflow) (logicalName : String)
    (children : List (String × DefinitionManifest)) :
    ∃ manifest, inputs.manifestOf hashing identities logicalName workflow children =
      .ok manifest := by
  obtain ⟨services, used⟩ := usedServices_of_resolved logicalName h.services
  rcases includedResources_cases inputs logicalName workflow with ⟨resources, included, -, -⟩ |
    ⟨missing, needed, absent, -⟩
  · cases references : contractReferences identities workflow.toWorkflowConfig with
    | none =>
        obtain ⟨declaration, mem, refused⟩ := contractReferences_eq_none_iff.mp references
        have accepted := h.contracts declaration mem
        rw [refused] at accepted
        cases accepted
    | some contracts =>
        exact ⟨_, manifestOf_ok_iff.mpr ⟨services, resources, contracts, used, included,
          references, rfl⟩⟩
  · have resolved := h.resources missing needed
    rw [absent] at resolved
    cases resolved

theorem resolved_of_manifestOf_ok {manifest : DefinitionManifest}
    (h : inputs.manifestOf hashing identities logicalName workflow children = .ok manifest) :
    Resolved inputs identities workflow := by
  obtain ⟨services, resources, contracts, used, included, references, -⟩ := manifestOf_ok_iff.mp h
  refine ⟨fun service mem => ?_, fun name needed => ?_, fun declaration mem => ?_⟩
  · have same := usedServices_ok_iff.mp used
    have found : inputs.services.get? service ∈ services.map some :=
      same ▸ List.mem_map_of_mem mem
    obtain ⟨resolved, -, here⟩ := List.mem_map.mp found
    rw [← here]
    rfl
  · rcases includedResources_cases inputs logicalName workflow with
      ⟨resources', included', here, all⟩ | ⟨_, _, _, failed⟩
    · obtain ⟨entry, mem, rfl⟩ := List.mem_map.mp ((all name).mp needed)
      rw [here entry mem]
      rfl
    · rw [included] at failed
      cases failed
  · cases refused : identities declaration.2 with
    | some identity => rfl
    | none =>
        have := contractReferences_eq_none_iff.mpr ⟨declaration, mem, refused⟩
        rw [references] at this
        cases this

/-! ## The rules of the builds -/

theorem rules_needs_ok_iff {name : String} {needed : List String} :
    (inputs.rules hashing identities).needs name = .ok needed ↔
      ∃ workflow, inputs.workflows.get? name = some workflow ∧
        childWorkflowNames workflow.toWorkflowConfig = needed := by
  simp only [rules]
  cases inputs.workflows.get? name <;> simp

theorem mem_childWorkflowNames {workflow : WorkflowConfig} {child : String} :
    child ∈ childWorkflowNames workflow ↔
      ∃ entry ∈ workflow.steps, entry.2.target = .workflow child := by
  rw [childWorkflowNames, mem_sortedSet, List.mem_filterMap]
  refine exists_congr fun entry => and_congr_right fun _ => ?_
  cases entry.2.target <;> simp

theorem needs_iff {name child : String} :
    Memoization.Needs (inputs.rules hashing identities) name child ↔
      inputs.RunsChild name child := by
  constructor
  · intro edge
    obtain ⟨needed, known, mem⟩ := edge.known
    obtain ⟨workflow, found, rfl⟩ := rules_needs_ok_iff.mp known
    exact ⟨workflow, found, mem_childWorkflowNames.mp mem⟩
  · rintro ⟨workflow, found, step⟩
    exact .of_known (rules_needs_ok_iff.mpr ⟨workflow, found, rfl⟩)
      (mem_childWorkflowNames.mpr step)

theorem needs_eq (inputs : ManifestInputs) (hashing : Hashing) (identities : ContractIdentities) :
    Memoization.Needs (inputs.rules hashing identities) = inputs.RunsChild := by
  funext name child
  exact propext needs_iff

theorem rules_make {name : String} (found : inputs.workflows.get? name = some workflow) :
    (inputs.rules hashing identities).make name children =
      inputs.manifestOf hashing identities name workflow children := by
  simp only [rules, found]

theorem rules_make_ok {name : String} {manifest : DefinitionManifest}
    (h : (inputs.rules hashing identities).make name children = .ok manifest) :
    ∃ workflow, inputs.workflows.get? name = some workflow ∧
      inputs.manifestOf hashing identities name workflow children = .ok manifest := by
  simp only [rules] at h
  split at h
  · cases h
  · next workflow found => exact ⟨workflow, found, h⟩

theorem listed : Memoization.Listed (inputs.rules hashing identities)
    (sortedSet (keys inputs.workflows.entries)) := by
  intro name needed known
  obtain ⟨workflow, found, -⟩ := rules_needs_ok_iff.mp known
  rw [mem_sortedSet, mem_keys_iff_isSome_lookup]
  rw [Table.get?] at found
  rw [found]
  rfl

theorem mem_workflows {name : String} : name ∈ sortedSet (keys inputs.workflows.entries) ↔
    (inputs.workflows.get? name).isSome := by
  rw [mem_sortedSet, mem_keys_iff_isSome_lookup]
  rfl

/-! ## Configurations that agree -/

/-- Two configurations agree on all that a workflow leads to. -/
structure AgreeBelow (first second : ManifestInputs) (name : String) : Prop where
  runtimeLimits : first.runtimeLimits = second.runtimeLimits
  abi : first.requiredEngineWorkflowAbi = second.requiredEngineWorkflowAbi
  workflows : ∀ other, first.LeadsTo name other →
    first.workflows.get? other = second.workflows.get? other
  services : ∀ other workflow, first.LeadsTo name other →
    first.workflows.get? other = some workflow →
      ∀ service ∈ usedServiceNames workflow.toWorkflowConfig,
        first.services.get? service = second.services.get? service
  resources : ∀ other workflow, first.LeadsTo name other →
    first.workflows.get? other = some workflow →
      ∀ resource, first.NeedsResource workflow resource →
        first.resources.get? resource = second.resources.get? resource

variable {first second : ManifestInputs}

theorem needsResource_congr
    (agree : ∀ resource, first.NeedsResource workflow resource →
      first.resources.get? resource = second.resources.get? resource) (name : String) :
    first.NeedsResource workflow name ↔ second.NeedsResource workflow name := by
  constructor
  · rintro ⟨start, mem, path⟩
    refine ⟨start, mem, ?_⟩
    induction path with
    | refl => exact .refl
    | tail before edge ih =>
        obtain ⟨resource, found, dependency⟩ := edge
        exact ih.tail ⟨resource, agree _ ⟨start, mem, before⟩ ▸ found, dependency⟩
  · rintro ⟨start, mem, path⟩
    refine ⟨start, mem, ?_⟩
    induction path with
    | refl => exact .refl
    | tail _ edge ih =>
        obtain ⟨resource, found, dependency⟩ := edge
        exact ih.tail ⟨resource, (agree _ ⟨start, mem, ih⟩).trans found, dependency⟩

/-- The contracts of the included resources are those of the resources that are needed. -/
theorem mem_resourceContracts {resources : List (String × ProvidedResource)}
    (h : inputs.includedResources logicalName workflow = .ok resources)
    {contract : String × String} :
    contract ∈ resources.map (fun entry =>
        (entry.2.providerName, entry.2.providerContractVersion)) ↔
      ∃ name resource, inputs.NeedsResource workflow name ∧
        inputs.resources.get? name = some resource ∧
          (resource.providerName, resource.providerContractVersion) = contract := by
  rcases includedResources_cases inputs logicalName workflow with
    ⟨included, found, resolved, all⟩ | ⟨_, _, _, failed⟩
  · rw [h] at found
    cases found
    rw [List.mem_map]
    constructor
    · rintro ⟨entry, mem, rfl⟩
      exact ⟨entry.1, entry.2, (all _).mpr (List.mem_map_of_mem mem), resolved entry mem, rfl⟩
    · rintro ⟨name, resource, needed, found, rfl⟩
      obtain ⟨entry, mem, rfl⟩ := List.mem_map.mp ((all name).mp needed)
      rw [resolved entry mem] at found
      cases found
      exact ⟨entry, mem, rfl⟩
  · rw [h] at failed
    cases failed

/-- A manifest is the same where everything that it is made of is. -/
theorem manifestOf_transfer {manifest : DefinitionManifest}
    (runtimeLimits : first.runtimeLimits = second.runtimeLimits)
    (abi : first.requiredEngineWorkflowAbi = second.requiredEngineWorkflowAbi)
    (services : ∀ service ∈ usedServiceNames workflow.toWorkflowConfig,
      first.services.get? service = second.services.get? service)
    (resources : ∀ resource, first.NeedsResource workflow resource →
      first.resources.get? resource = second.resources.get? resource)
    (h : first.manifestOf hashing identities logicalName workflow children = .ok manifest) :
    second.manifestOf hashing identities logicalName workflow children = .ok manifest := by
  have resolved := resolved_of_manifestOf_ok h
  obtain ⟨used, included, contracts, hused, hincluded, hcontracts, rfl⟩ := manifestOf_ok_iff.mp h
  have used' : second.usedServices logicalName workflow.toWorkflowConfig = .ok used := by
    rw [usedServices_ok_iff] at hused ⊢
    rw [← hused]
    exact List.map_congr_left fun service mem => (services service mem).symm
  obtain ⟨included', hincluded'⟩ : ∃ included',
      second.includedResources logicalName workflow = .ok included' := by
    rcases includedResources_cases second logicalName workflow with ⟨included', found, -, -⟩ |
      ⟨missing, needed, absent, -⟩
    · exact ⟨included', found⟩
    · have needed' := (needsResource_congr resources missing).mpr needed
      have there := resolved.resources missing needed'
      rw [resources missing needed', absent] at there
      cases there
  refine manifestOf_ok_iff.mpr ⟨used, included', contracts, used', hincluded', hcontracts, ?_⟩
  have same : ∀ contract : String × String,
      contract ∈ included'.map (fun entry =>
        (entry.2.providerName, entry.2.providerContractVersion)) ↔
      contract ∈ included.map fun entry =>
        (entry.2.providerName, entry.2.providerContractVersion) := by
    intro contract
    rw [mem_resourceContracts hincluded', mem_resourceContracts hincluded]
    refine exists_congr fun name => exists_congr fun resource => ?_
    rw [← needsResource_congr resources name]
    refine and_congr_right fun needed => ?_
    rw [resources name needed]
  rw [assemble, assemble, runtimeLimits, abi]
  congr 2
  refine sortedContracts_congr fun contract => ?_
  rw [List.mem_append, List.mem_append, same]

/-! ## The manifests of a configuration -/

theorem gives_iff {built : Table String DefinitionManifest}
    (h : inputs.buildDefinitionManifests hashing identities = .ok built) {name : String}
    {manifest : DefinitionManifest} :
    built.get? name = some manifest ↔
      Memoization.Gives (inputs.rules hashing identities) name manifest :=
  Memoization.buildAll_ok listed h name manifest

theorem AgreeBelow.gives {name : String} {manifest : DefinitionManifest}
    (agree : AgreeBelow first second name)
    (h : Memoization.Gives (first.rules hashing identities) name manifest) :
    Memoization.Gives (second.rules hashing identities) name manifest := by
  refine h.transfer (fun other path needed known => ?_) (fun other path values result made => ?_)
  · rw [Memoization.Below, needs_eq] at path
    rw [rules_needs_ok_iff] at known ⊢
    rwa [← agree.workflows other path]
  · rw [Memoization.Below, needs_eq] at path
    obtain ⟨workflow, found, made⟩ := rules_make_ok made
    rw [rules_make ((agree.workflows other path).symm.trans found)]
    exact manifestOf_transfer agree.runtimeLimits agree.abi
      (agree.services other workflow path found) (agree.resources other workflow path found) made

/-- A manifest depends on what its workflow leads to: where two configurations agree on that, they
give the workflow one manifest, whatever their other workflows are and in whatever order they
stand. -/
theorem manifest_depends_on_reached {name : String} {manifest : DefinitionManifest}
    {built built' : Table String DefinitionManifest} (agree : AgreeBelow first second name)
    (h : first.buildDefinitionManifests hashing identities = .ok built)
    (h' : second.buildDefinitionManifests hashing identities = .ok built')
    (found : built.get? name = some manifest) : built'.get? name = some manifest :=
  (gives_iff h').mpr (agree.gives ((gives_iff h).mp found))

/-! ## When the builds succeed -/

/-- The children of the workflows are there and no workflow leads to itself; and what each refers
to is resolved. -/
structure Buildable (inputs : ManifestInputs) (identities : ContractIdentities) : Prop where
  available : ∀ name child, inputs.RunsChild name child → (inputs.workflows.get? child).isSome
  acyclic : ∀ name, ¬ TransGen inputs.RunsChild name name
  resolved : ∀ name workflow, inputs.workflows.get? name = some workflow →
    Resolved inputs identities workflow

theorem Buildable.succeeds (h : Buildable inputs identities) (hashing : Hashing) :
    ∃ built, inputs.buildDefinitionManifests hashing identities = .ok built := by
  refine (Memoization.buildAll_succeeds_iff listed).mpr fun name mem => ?_
  obtain ⟨workflow, found⟩ := Option.isSome_iff_exists.mp (mem_workflows.mp mem)
  refine Memoization.gives_of_acyclic listed ?_ ?_ ?_
    (rules_needs_ok_iff.mpr ⟨workflow, found, rfl⟩)
  · rw [needs_eq]
    exact h.acyclic
  · intro parent child edge
    have defined := h.available parent child (needs_iff.mp edge)
    obtain ⟨below, here⟩ := Option.isSome_iff_exists.mp defined
    exact ⟨_, rules_needs_ok_iff.mpr ⟨below, here, rfl⟩⟩
  · intro other values known
    obtain ⟨below, here, -⟩ := rules_needs_ok_iff.mp known
    rw [rules_make here]
    exact (h.resolved other below here).manifestOf_ok other values

theorem buildable_of_succeeds {built : Table String DefinitionManifest}
    (h : inputs.buildDefinitionManifests hashing identities = .ok built) :
    Buildable inputs identities := by
  have given : ∀ name workflow, inputs.workflows.get? name = some workflow →
      ∃ manifest, Memoization.Gives (inputs.rules hashing identities) name manifest := by
    intro name workflow found
    exact Memoization.buildAll_given h (mem_workflows.mpr (by rw [found]; rfl))
  refine ⟨fun name child edge => ?_, fun name cycle => ?_, fun name workflow found => ?_⟩
  · obtain ⟨workflow, found, step⟩ := edge
    obtain ⟨manifest, gives⟩ := given name workflow found
    obtain ⟨below, gives'⟩ := gives.need (needs_iff.mpr ⟨workflow, found, step⟩)
    obtain ⟨known, -, -⟩ := gives'
    obtain ⟨child', here, -⟩ := rules_needs_ok_iff.mp known
    rw [here]
    rfl
  · obtain ⟨other, edge, -⟩ := TransGen.head'_iff.mp cycle
    obtain ⟨workflow, found, -⟩ := edge
    obtain ⟨manifest, gives⟩ := given name workflow found
    rw [← needs_eq inputs hashing identities] at cycle
    exact gives.acyclic cycle
  · obtain ⟨manifest, gives⟩ := given name workflow found
    obtain ⟨-, -, made⟩ := gives
    rw [rules_make found] at made
    exact resolved_of_manifestOf_ok made

/-- Each workflow has its manifest. -/
theorem built_names {built : Table String DefinitionManifest}
    (h : inputs.buildDefinitionManifests hashing identities = .ok built) (name : String) :
    (built.get? name).isSome ↔ (inputs.workflows.get? name).isSome := by
  constructor
  · intro found
    obtain ⟨manifest, here⟩ := Option.isSome_iff_exists.mp found
    obtain ⟨known, -, -⟩ := (gives_iff h).mp here
    obtain ⟨workflow, there, -⟩ := rules_needs_ok_iff.mp known
    rw [there]
    rfl
  · intro found
    obtain ⟨manifest, gives⟩ := Memoization.buildAll_given h (mem_workflows.mpr found)
    rw [(gives_iff h).mpr gives]
    rfl

/-- The builds succeed exactly if every child workflow is defined, no workflow leads back to
itself, the services of the workflows and the resources that these need at any depth are resolved,
and every contract declaration is accepted. -/
theorem buildDefinitionManifests_succeeds_iff :
    (∃ built, inputs.buildDefinitionManifests hashing identities = .ok built ∧
      ∀ name, (built.get? name).isSome ↔ (inputs.workflows.get? name).isSome) ↔
      Buildable inputs identities := by
  constructor
  · rintro ⟨built, h, -⟩
    exact buildable_of_succeeds h
  · intro buildable
    obtain ⟨built, h⟩ := buildable.succeeds hashing
    exact ⟨built, h, built_names h⟩

/-! ## Why builds fail -/

/-- What an error of the builds says about the configuration. -/
def Justifies (inputs : ManifestInputs) (identities : ContractIdentities) :
    DefinitionManifestError → Prop
  | .cycle names => ∃ before last, names = before ++ [last] ∧ last ∈ before ∧
      names.IsChain inputs.RunsChild
  | .unavailable child =>
      inputs.workflows.get? child = none ∧ ∃ name, inputs.RunsChild name child
  | .unresolvedService name service => ∃ workflow, inputs.workflows.get? name = some workflow ∧
      service ∈ usedServiceNames workflow.toWorkflowConfig ∧ inputs.services.get? service = none
  | .unresolvedResource name resource => ∃ workflow, inputs.workflows.get? name = some workflow ∧
      inputs.NeedsResource workflow resource ∧ inputs.resources.get? resource = none
  | .unrepresentable name => ∃ workflow, inputs.workflows.get? name = some workflow ∧
      ∃ declaration ∈ contractDeclarations workflow.toWorkflowConfig,
        identities declaration.2 = none

theorem usedServices_error {config : WorkflowConfig} {error : DefinitionManifestError}
    (h : inputs.usedServices logicalName config = .error error) :
    ∃ service ∈ usedServiceNames config, inputs.services.get? service = none ∧
      error = .unresolvedService logicalName service := by
  obtain ⟨service, mem, failed⟩ := exists_error_of_mapM h
  cases found : inputs.services.get? service with
  | some resolved =>
      rw [found] at failed
      cases failed
  | none =>
      rw [found] at failed
      cases failed
      exact ⟨service, mem, found, rfl⟩

theorem manifestOf_error {error : DefinitionManifestError}
    (found : inputs.workflows.get? logicalName = some workflow)
    (h : inputs.manifestOf hashing identities logicalName workflow children = .error error) :
    Justifies inputs identities error := by
  rw [manifestOf] at h
  cases used : inputs.usedServices logicalName workflow.toWorkflowConfig with
  | error failed =>
      rw [used] at h
      cases h
      obtain ⟨service, mem, absent, rfl⟩ := usedServices_error used
      exact ⟨workflow, found, mem, absent⟩
  | ok services =>
      rw [used] at h
      rw [Program.ok_bind] at h
      rcases includedResources_cases inputs logicalName workflow with
        ⟨resources, included, -, -⟩ | ⟨missing, needed, absent, failed⟩
      · rw [included] at h
        rw [Program.ok_bind] at h
        cases references : contractReferences identities workflow.toWorkflowConfig with
        | none =>
            rw [references] at h
            cases h
            exact ⟨workflow, found, contractReferences_eq_none_iff.mp references⟩
        | some contracts =>
            rw [references] at h
            cases h
      · rw [failed] at h
        cases h
        exact ⟨workflow, found, needed, absent⟩

/-- What stops a build below a defined workflow. -/
theorem justifies_of_fails {asked : String} {error : DefinitionManifestError}
    (defined : (inputs.workflows.get? asked).isSome)
    (h : Memoization.Fails (inputs.rules hashing identities) asked error) :
    Justifies inputs identities error := by
  cases h with
  | @needs name _ path unknown =>
      simp only [rules] at unknown
      split at unknown
      · next absent =>
          cases unknown
          refine ⟨absent, ?_⟩
          rw [Memoization.Below, needs_eq] at path
          rcases ReflTransGen.cases_tail path with rfl | ⟨parent, -, edge⟩
          · rw [absent] at defined
            cases defined
          · exact ⟨parent, edge⟩
      · cases unknown
  | make path known given unmade =>
      obtain ⟨workflow, found, -⟩ := rules_needs_ok_iff.mp known
      rw [rules_make found] at unmade
      exact manifestOf_error found unmade

/-- The builds fail only for the reason that their error names. -/
theorem buildDefinitionManifests_error {error : DefinitionManifestError}
    (h : inputs.buildDefinitionManifests hashing identities = .error error) :
    Justifies inputs identities error := by
  obtain ⟨asked, mem, fails | ⟨path, -, ⟨before, last, rfl, closes, chain⟩, rfl⟩⟩ :=
    Memoization.buildAll_error listed h
  · exact justifies_of_fails (mem_workflows.mp mem) fails
  · rw [needs_eq] at chain
    exact ⟨before, last, rfl, closes, chain⟩

/-! ## What a digest fixes -/

/-- Documents that are the same on the wire hold the same text in a field. -/
theorem field_str_of_wire {first second : JsonValue} (same : first.wire = second.wire)
    (key : String) {text : String} (h : first.field key = some (.str text)) :
    second.field key = some (.str text) := by
  have there := second.field_wire key
  rw [← same, first.field_wire, h] at there
  cases found : second.field key with
  | none =>
      rw [found] at there
      cases there
  | some value =>
      rw [found] at there
      simp only [Option.map_some, Option.some.injEq, JsonValue.wire_str] at there
      cases value <;> simp_all

theorem child_of_wire {first second : ChildDefinitionIdentity}
    (same : first.dump.wire = second.dump.wire) : first = second := by
  have name : some (JsonValue.str second.workflow) = some (.str first.workflow) :=
    field_str_of_wire same "workflow" rfl
  have digest : some (JsonValue.str second.definitionDigest.text) =
      some (.str first.definitionDigest.text) :=
    field_str_of_wire same "definition_digest" rfl
  obtain ⟨workflow, definitionDigest⟩ := first
  obtain ⟨workflow', definitionDigest'⟩ := second
  cases name
  simp only [Option.some.injEq, JsonValue.str.injEq, Digest.text_inj] at digest
  rw [digest]

theorem children_of_wire {first second : DefinitionManifest}
    (same : first.dump.wire = second.dump.wire) : first.children = second.children := by
  have children := congrArg (JsonValue.field · "children") same
  simp only [JsonValue.field_wire] at children
  change some (JsonValue.arr (first.children.map ChildDefinitionIdentity.dump)).wire =
    some (JsonValue.arr (second.children.map ChildDefinitionIdentity.dump)).wire at children
  simp only [Option.some.injEq, JsonValue.wire_arr, JsonValue.arr.injEq, List.map_map] at children
  exact List.map_injective_iff.mpr (fun _ _ => child_of_wire) children

theorem logicalName_of_wire {first second : DefinitionManifest}
    (same : first.dump.wire = second.dump.wire) : first.logicalName = second.logicalName := by
  have name : some (JsonValue.str second.logicalName) = some (.str first.logicalName) :=
    field_str_of_wire same "logical_name" rfl
  simp only [Option.some.injEq, JsonValue.str.injEq] at name
  exact name.symm

theorem made_children {name : String} {manifest : DefinitionManifest}
    (h : (inputs.rules hashing identities).make name children = .ok manifest) :
    manifest.logicalName = name ∧
      manifest.children = children.map fun child =>
        ⟨child.1, child.2.definitionDigest hashing⟩ := by
  obtain ⟨workflow, -, made⟩ := rules_make_ok h
  obtain ⟨services, resources, contracts, -, -, -, rfl⟩ := manifestOf_ok_iff.mp made
  exact ⟨rfl, rfl⟩

theorem logicalName_of_gives {name : String} {manifest : DefinitionManifest}
    (h : Memoization.Gives (inputs.rules hashing identities) name manifest) :
    manifest.logicalName = name := by
  obtain ⟨-, -, made⟩ := h
  exact (made_children made).1

/-- Lists of children with one identity have the names and the digests in common. -/
theorem children_inj {needed needed' : List String} {values values' : String → DefinitionManifest}
    (same : (needed.map fun child => (child, values child)).map
        (fun child => (⟨child.1, child.2.definitionDigest hashing⟩ : ChildDefinitionIdentity)) =
      (needed'.map fun child => (child, values' child)).map fun child =>
        ⟨child.1, child.2.definitionDigest hashing⟩) :
    needed = needed' ∧ ∀ child ∈ needed,
      (values child).definitionDigest hashing = (values' child).definitionDigest hashing := by
  have names := congrArg (List.map ChildDefinitionIdentity.workflow) same
  simp only [List.map_map] at names
  have equal : needed = needed' :=
    (List.map_id needed).symm.trans (names.trans (List.map_id needed'))
  subst equal
  refine ⟨rfl, fun child mem => ?_⟩
  rw [List.map_map, List.map_map] at same
  exact congrArg ChildDefinitionIdentity.definitionDigest (List.map_inj_left.mp same child mem)

/-- Where no two of the manifests that two configurations give collide, workflows with one digest
have one name, and whatever the one leads to, the other leads to as well, with the same digest and
the same document. -/
theorem digest_fixes_reached {built built' : Table String DefinitionManifest}
    (h : first.buildDefinitionManifests hashing identities = .ok built)
    (h' : second.buildDefinitionManifests hashing identities = .ok built')
    (collisionFree : ∀ name name' manifest manifest', built.get? name = some manifest →
      built'.get? name' = some manifest' →
      manifest.definitionDigest hashing = manifest'.definitionDigest hashing →
      manifest.dump.wire = manifest'.dump.wire)
    {name name' : String} {manifest manifest' : DefinitionManifest}
    (found : built.get? name = some manifest) (found' : built'.get? name' = some manifest')
    (same : manifest.definitionDigest hashing = manifest'.definitionDigest hashing) :
    name = name' ∧ ∀ other, first.LeadsTo name other → second.LeadsTo name other ∧
      ∃ below below', built.get? other = some below ∧ built'.get? other = some below' ∧
        below.definitionDigest hashing = below'.definitionDigest hashing ∧
        below.dump.wire = below'.dump.wire := by
  have gives := (gives_iff h).mp found
  have gives' := (gives_iff h').mp found'
  have equal : name = name' := by
    rw [← logicalName_of_gives gives, ← logicalName_of_gives gives']
    exact logicalName_of_wire (collisionFree _ _ _ _ found found' same)
  subst equal
  refine ⟨rfl, fun other path => ?_⟩
  rw [LeadsTo, ← needs_eq first hashing identities] at path
  obtain ⟨path', below, below', given, given', marked⟩ :=
    gives.marks_below (fun manifest => manifest.definitionDigest hashing) gives' same (by
      intro other needed needed' values values' result result' given given' marked _ _ made made'
      have document := collisionFree _ _ _ _ ((gives_iff h).mpr given)
        ((gives_iff h').mpr given') marked
      have children := children_of_wire document
      rw [(made_children made).2, (made_children made').2] at children
      exact children_inj children) path
  rw [Memoization.Below, needs_eq] at path'
  have here := (gives_iff h).mpr given
  have there := (gives_iff h').mpr given'
  exact ⟨path', below, below', here, there, marked, collisionFree _ _ _ _ here there marked⟩

/-! ## A shop -/

section Shop

/-- The hash reads the size of a text. -/
def sizeHash : Hashing := ⟨fun text => Digest.ofNat text.utf8ByteSize⟩

def shopWorkflow (name : String) (steps : List (String × StepDefinition)) : AuthoredWorkflow where
  workflow := name
  steps := steps
  flow := [{ name := "done", terminal := true }]

def billing : AuthoredWorkflow :=
  shopWorkflow "billing" [("send", { target := .service "mail" "send" })]

def orders : AuthoredWorkflow :=
  shopWorkflow "orders" [("bill", { target := .workflow "billing" })]

/-- No contract is declared. -/
def noContracts : ContractIdentities :=
  fun _ => none

def mail : ResolvedService :=
  ⟨"mail", "http", "1", none, 30, none, 0, []⟩

def shop : ManifestInputs where
  workflows := (Table.empty.insert "orders" orders).insert "billing" billing
  services := Table.empty.insert "mail" mail
  runtimeLimits := []

/-- The shop with a workflow that no other leads to, and its workflows in another order. -/
def largerShop : ManifestInputs :=
  { shop with
    workflows := ((Table.empty.insert "billing" billing).insert "orders" orders).insert "reports"
      (shopWorkflow "reports" [("bill", { target := .workflow "billing" })]) }

/-- The shop with a workflow that runs the one that runs it. -/
def loopingShop : ManifestInputs :=
  { shop with
    workflows := shop.workflows.insert "billing"
      (shopWorkflow "billing" [("order", { target := .workflow "orders" })]) }

theorem shop_runsChild {name child : String} (h : shop.RunsChild name child) :
    name = "orders" ∧ child = "billing" := by
  obtain ⟨workflow, found, entry, mem, target⟩ := h
  simp only [shop, Table.get?_insert, Table.get?_empty] at found
  split_ifs at found with first second
  · cases found
    cases List.mem_singleton.mp mem
    cases target
  · cases found
    cases List.mem_singleton.mp mem
    cases target
    exact ⟨second, rfl⟩

theorem largerShop_agrees : AgreeBelow shop largerShop "orders" where
  runtimeLimits := rfl
  abi := rfl
  workflows other path := by
    rcases ReflTransGen.cases_tail path with rfl | ⟨_, _, edge⟩
    · rfl
    · obtain ⟨-, rfl⟩ := shop_runsChild edge
      rfl
  services _ _ _ _ _ _ := rfl
  resources _ _ _ _ _ _ := rfl

theorem buildDefinitionManifests_error_loop : Justifies loopingShop noContracts
    (.cycle ["billing", "orders", "billing"]) := by
  have h : loopingShop.buildDefinitionManifests sizeHash noContracts =
      .error (.cycle ["billing", "orders", "billing"]) := rfl
  exact buildDefinitionManifests_error h

def billingManifest : DefinitionManifest :=
  shop.assemble sizeHash "billing" billing [] [mail] [] []

def ordersManifest : DefinitionManifest :=
  shop.assemble sizeHash "orders" orders [("billing", billingManifest)] [] [] []

def shopManifests : Table String DefinitionManifest :=
  (Table.empty.insert "billing" billingManifest).insert "orders" ordersManifest

theorem shop_manifests :
    shop.buildDefinitionManifests sizeHash noContracts = .ok shopManifests :=
  rfl

theorem orders_found : shopManifests.get? "orders" = some ordersManifest :=
  Table.get?_insert_self _ _ _

theorem largerShop_manifests : ∃ reports,
    largerShop.buildDefinitionManifests sizeHash noContracts =
      .ok (shopManifests.insert "reports" reports) :=
  ⟨_, rfl⟩

theorem manifest_depends_on_reached_orders : ∃ built built' : Table String DefinitionManifest,
    shop.buildDefinitionManifests sizeHash noContracts = .ok built ∧
      largerShop.buildDefinitionManifests sizeHash noContracts = .ok built' ∧
      built.get? "orders" = some ordersManifest ∧ built'.get? "orders" = some ordersManifest := by
  obtain ⟨reports, h'⟩ := largerShop_manifests
  refine ⟨_, _, shop_manifests, h', ?_, ?_⟩
  · exact orders_found
  · exact manifest_depends_on_reached largerShop_agrees shop_manifests h' orders_found

theorem billingManifest_apart :
    billingManifest.definitionDigest sizeHash ≠ ordersManifest.definitionDigest sizeHash := by
  decide +kernel

/-- The manifests of the shop do not collide. -/
theorem shopManifests_apart {name name' : String} {manifest manifest' : DefinitionManifest}
    (found : shopManifests.get? name = some manifest)
    (found' : shopManifests.get? name' = some manifest')
    (same : manifest.definitionDigest sizeHash = manifest'.definitionDigest sizeHash) :
    manifest.dump.wire = manifest'.dump.wire := by
  simp only [shopManifests, Table.get?_insert, Table.get?_empty] at found found'
  split_ifs at found with orders_ billing_
  · cases found
    split_ifs at found' with orders' billing'
    · cases found'
      rfl
    · cases found'
      exact absurd same.symm billingManifest_apart
  · cases found
    split_ifs at found' with orders' billing'
    · cases found'
      exact absurd same billingManifest_apart
    · cases found'
      rfl

/-- The shop with a service that no workflow uses. -/
def stockedShop : ManifestInputs :=
  { shop with services := shop.services.insert "sms" { mail with name := "sms" } }

theorem digest_fixes_reached_orders : stockedShop.LeadsTo "orders" "billing" ∧
    ∃ below below', shopManifests.get? "billing" = some below ∧
      shopManifests.get? "billing" = some below' ∧
      below.definitionDigest sizeHash = below'.definitionDigest sizeHash ∧
      below.dump.wire = below'.dump.wire := by
  have stocked : stockedShop.buildDefinitionManifests sizeHash noContracts = .ok shopManifests :=
    rfl
  have runs : shop.RunsChild "orders" "billing" :=
    ⟨orders, rfl, _, List.mem_singleton_self _, rfl⟩
  exact (digest_fixes_reached shop_manifests stocked
    (fun _ _ _ _ found found' => shopManifests_apart found found') orders_found orders_found
    rfl).2 "billing" (.single runs)

end Shop

end ManifestInputs

end Justflow
