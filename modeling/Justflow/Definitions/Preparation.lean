import Justflow.Config.Validation
import Justflow.Definitions.CatalogPublications
import Justflow.Starts.StartMemo

/-!
# Preparing definitions for a worker

A worker is prepared for the active definitions of a catalog: the authored workflows have to be the
published ones, and a parent is compiled against the children that it pins.  An activation makes
the catalog for this itself, from the stored definitions and the authored ones.  Then every lookup
of the preparation succeeds, and a parent runs the definitions that the worker has for its children.
-/

open Fields

namespace Justflow

section Routing

open StartMemo

def canonicalName (deployment : WorkerDeployment) : String :=
  deployment.artifactIdentity.val.deploymentName.text ++ "." ++
    deployment.artifactIdentity.val.buildId.text

def supports (deployment : WorkerDeployment) (manifest : DefinitionManifest) : Bool :=
  manifest.requiredEngineWorkflowAbi ∈ deployment.compatibleEngineWorkflowAbis

/-- A router has its active deployment among the deployments, which stand under their names. -/
structure WorkerDeploymentRouter where
  deployments : Table String WorkerDeployment
  active : WorkerDeployment
  registered : deployments.get? (canonicalName active) = some active

def WorkerDeploymentRouter.select (self : WorkerDeploymentRouter) (hashing : Hashing)
    (manifest : DefinitionManifest) : Except String WorkerDeployment :=
  if supports self.active manifest then .ok self.active
  else .error (s!"Active worker deployment '{canonicalName self.active}' does not support " ++
    s!"workflow ABI '{manifest.requiredEngineWorkflowAbi}' required by " ++
    s!"'{manifest.logicalName}@{(manifest.definitionDigest hashing).text}'")

end Routing

namespace DefinitionCatalog

variable {hashing : Hashing} (self : DefinitionCatalog hashing)

def resolve (logicalName : String) : Except CatalogError DefinitionManifest :=
  match self.aliases.get? logicalName with
  | none => .error (.invalid s!"Workflow '{logicalName}' has no active definition alias")
  | some digest => self.get logicalName digest

/-- The check of one authored workflow. -/
def verifyWorkflow (entry : String × DefinitionManifest) : Except CatalogError Unit := do
  let active ← self.resolve entry.1
  if CatalogPublications.sameDefinition hashing active entry.2 then return ()
  throw (.drift (s!"Workflow '{entry.1}' has unpublished definition changes: " ++
    s!"active={(active.definitionDigest hashing).text}, " ++
    s!"authored={(entry.2.definitionDigest hashing).text}"))

def verifyAuthored (authored : Table String DefinitionManifest) : Except CatalogError Unit :=
  let publishedNames := sortedSet (keys self.aliases.entries)
  let authoredNames := sortedSet (keys authored.entries)
  if authoredNames ⊆ publishedNames ∧ publishedNames ⊆ authoredNames then
    authored.entries.forM self.verifyWorkflow
  else .error (.drift ("Published aliases and authored workflows differ: " ++
    s!"published={printNames publishedNames}, authored={printNames authoredNames}"))

/-- The stored definitions and the authored ones; an authored definition takes the place of the
same one. -/
def merge (hashing : Hashing) : List DefinitionManifest →
    Table DefinitionKey DefinitionManifest →
      Except CatalogError (Table DefinitionKey DefinitionManifest)
  | [], manifests => .ok manifests
  | manifest :: rest, manifests =>
      match manifests.get? (manifest.key hashing) with
      | none => merge hashing rest (manifests.insert (manifest.key hashing) manifest)
      | some existing =>
          if CatalogPublications.sameDefinition hashing existing manifest then
            merge hashing rest (manifests.insert (manifest.key hashing) manifest)
          else .error (.conflict "Immutable definition content differs from its catalog identity")

/-- The catalog that an activation prepares its worker for. -/
def desired (authored : Table String DefinitionManifest) :
    Except CatalogError (DefinitionCatalog hashing) := do
  let manifests ← merge hashing (authored.entries.map Prod.snd) self.manifests
  create hashing (manifests.entries.map Prod.snd)
    (authored.mapValues fun _ manifest => manifest.definitionDigest hashing)

end DefinitionCatalog

/-- What a worker has for a workflow: its definition, and the definitions and the snapshots of its
children. -/
structure PreparedDefinition where
  manifest : DefinitionManifest
  deployment : StartMemo.WorkerDeployment
  environmentSnapshotDigest : Digest
  children : List (String × DefinitionManifest)
  childSnapshots : List (String × Digest)

inductive PreparationError where
  | manifests (error : DefinitionManifestError)
  | catalog (error : CatalogError)
  | routing (message : String)
  | snapshots (message : String)
  /-- A lookup of a snapshot without one. -/
  | missingSnapshot (workflow : String)

section Preparation

variable {hashing : Hashing} (catalog : DefinitionCatalog hashing)
  (router : WorkerDeploymentRouter) (snapshots : Table String Digest)

def snapshotOf (name : String) : Except PreparationError Digest :=
  match snapshots.get? name with
  | some digest => .ok digest
  | none => .error (.missingSnapshot name)

def pinnedChild (child : ChildDefinitionIdentity) :
    Except PreparationError (String × DefinitionManifest) := do
  let manifest ← (catalog.get child.workflow child.definitionDigest).mapError .catalog
  return (child.workflow, manifest)

def childSnapshot (child : String × DefinitionManifest) :
    Except PreparationError (String × Digest) := do
  let digest ← snapshotOf snapshots child.1
  return (child.1, digest)

/-- One workflow. -/
def prepareDefinition (name : String) : Except PreparationError (String × PreparedDefinition) := do
  let manifest ← (catalog.resolve name).mapError .catalog
  let deployment ← (router.select hashing manifest).mapError .routing
  let children ← manifest.children.mapM (pinnedChild catalog)
  let snapshot ← snapshotOf snapshots name
  let childSnapshots ← children.mapM (childSnapshot snapshots)
  return (name, ⟨manifest, deployment, snapshot, children, childSnapshots⟩)

/-- `prepare_definitions`, without the compilation of the workflow classes. -/
def prepareDefinitions (inputs : ManifestInputs) (identities : ContractIdentities) :
    Except PreparationError (List (String × PreparedDefinition)) := do
  let authored ← (inputs.buildDefinitionManifests hashing identities).mapError .manifests
  (catalog.verifyAuthored authored).mapError .catalog
  let names := sortedSet (keys inputs.workflows.entries)
  let snapshotNames := sortedSet (keys snapshots.entries)
  if snapshotNames ⊆ names ∧ names ⊆ snapshotNames then
    names.mapM (prepareDefinition catalog router snapshots)
  else .error (.snapshots ("Execution environment snapshots do not match workflow definitions: " ++
    s!"snapshots={printNames snapshotNames}, workflows={printNames names}"))

end Preparation

/-! ## The catalog of an activation -/

namespace DefinitionCatalog

variable {hashing : Hashing} {identities : ContractIdentities} {inputs : ManifestInputs}
  {authored : Table String DefinitionManifest}

theorem merge_cons_ok {manifest : DefinitionManifest} {rest : List DefinitionManifest}
    {before after : Table DefinitionKey DefinitionManifest}
    (h : merge hashing (manifest :: rest) before = .ok after) :
    merge hashing rest (before.insert (manifest.key hashing) manifest) = .ok after := by
  rw [merge] at h
  split at h
  · exact h
  · split at h
    · exact h
    · cases h

/-- What has been merged stays, unless it is merged again. -/
theorem merge_get? {manifests : List DefinitionManifest}
    {before after : Table DefinitionKey DefinitionManifest}
    (h : merge hashing manifests before = .ok after) {key : DefinitionKey}
    (absent : ∀ manifest ∈ manifests, manifest.key hashing ≠ key) :
    after.get? key = before.get? key := by
  induction manifests generalizing before with
  | nil =>
      cases h
      rfl
  | cons manifest rest ih =>
      rw [ih (merge_cons_ok h) fun other mem => absent other (by simp [mem]),
        Table.get?_insert_ne _ (absent manifest (by simp)).symm]

theorem merge_mem {manifests : List DefinitionManifest}
    {before after : Table DefinitionKey DefinitionManifest}
    (h : merge hashing manifests before = .ok after)
    (distinct : (manifests.map fun manifest => manifest.key hashing).Nodup)
    {manifest : DefinitionManifest} (mem : manifest ∈ manifests) :
    after.get? (manifest.key hashing) = some manifest := by
  induction manifests generalizing before with
  | nil => cases mem
  | cons first rest ih =>
      rw [List.map_cons, List.nodup_cons] at distinct
      rcases List.mem_cons.mp mem with rfl | mem
      · rw [merge_get? (merge_cons_ok h), Table.get?_insert_self]
        intro other inside same
        exact distinct.1 (List.mem_map.mpr ⟨other, inside, same⟩)
      · exact ih (merge_cons_ok h) distinct.2 mem

/-- The keys of the authored manifests are their names with their digests. -/
theorem authored_keys (h : inputs.buildDefinitionManifests hashing identities = .ok authored) :
    ((authored.entries.map Prod.snd).map fun manifest => manifest.key hashing).Nodup := by
  refine List.Nodup.of_map Prod.fst ?_
  have names : ((authored.entries.map Prod.snd).map fun manifest => manifest.key hashing).map
      Prod.fst = keys authored.entries := by
    rw [List.map_map, List.map_map]
    refine List.map_congr_left fun entry mem => ?_
    exact ManifestInputs.logicalName_of_gives
      ((ManifestInputs.gives_iff h).mp (Table.mem_entries_iff.mp mem))
  exact names ▸ authored.nodup

variable {catalog after : DefinitionCatalog hashing}

theorem desired_ok (h : catalog.desired authored = .ok after) :
    ∃ manifests, merge hashing (authored.entries.map Prod.snd) catalog.manifests = .ok manifests ∧
      create hashing (manifests.entries.map Prod.snd)
        (authored.mapValues fun _ manifest => manifest.definitionDigest hashing) = .ok after := by
  rw [desired] at h
  cases merged : merge hashing (authored.entries.map Prod.snd) catalog.manifests with
  | error error =>
      rw [merged] at h
      cases h
  | ok manifests =>
      rw [merged] at h
      exact ⟨manifests, rfl, h⟩

/-- The authored definitions are the active ones. -/
theorem desired_get? (h : inputs.buildDefinitionManifests hashing identities = .ok authored)
    (made : catalog.desired authored = .ok after) {name : String} {manifest : DefinitionManifest}
    (found : authored.get? name = some manifest) :
    after.aliases.get? name = some (manifest.definitionDigest hashing) ∧
      after.get name (manifest.definitionDigest hashing) = .ok manifest := by
  obtain ⟨manifests, merged, created⟩ := desired_ok made
  obtain ⟨aliases, entries⟩ := create_eq_ok created
  have key := CatalogPublications.key_of_gives ((ManifestInputs.gives_iff h).mp found)
  refine ⟨by rw [aliases, Table.get?_mapValues, found]; rfl, ?_⟩
  have here := merge_mem merged (authored_keys h)
    (List.mem_map_of_mem (Table.mem_entries_iff.mpr found))
  have listed : (manifest.key hashing, manifest) ∈ after.manifests.entries := by
    rw [entries]
    exact List.mem_map.mpr ⟨manifest, List.mem_map_of_mem (Table.mem_entries_iff.mpr here), rfl⟩
  rw [DefinitionCatalog.get, ← key, Table.mem_entries_iff.mp listed]

theorem desired_resolve (h : inputs.buildDefinitionManifests hashing identities = .ok authored)
    (made : catalog.desired authored = .ok after) {name : String} {manifest : DefinitionManifest}
    (found : authored.get? name = some manifest) : after.resolve name = .ok manifest := by
  obtain ⟨active, here⟩ := desired_get? h made found
  rw [resolve, active]
  exact here

theorem desired_names (made : catalog.desired authored = .ok after) :
    keys after.aliases.entries = keys authored.entries := by
  obtain ⟨manifests, -, created⟩ := desired_ok made
  rw [(create_eq_ok created).1, Table.mapValues]
  simp [keys, Function.comp_def]

theorem desired_verified (h : inputs.buildDefinitionManifests hashing identities = .ok authored)
    (made : catalog.desired authored = .ok after) : after.verifyAuthored authored = .ok () := by
  rw [verifyAuthored, desired_names made]
  rw [if_pos ⟨List.Subset.refl _, List.Subset.refl _⟩, forM_ok_iff]
  intro entry mem
  rw [verifyWorkflow, desired_resolve h made (Table.mem_entries_iff.mp mem)]
  have same : CatalogPublications.sameDefinition hashing entry.2 entry.2 = true := by
    simp [CatalogPublications.sameDefinition]
  change (if CatalogPublications.sameDefinition hashing entry.2 entry.2 = true then _ else _) = _
  rw [if_pos same]
  rfl

theorem merge_keyed {manifests : List DefinitionManifest}
    {before after : Table DefinitionKey DefinitionManifest}
    (h : merge hashing manifests before = .ok after)
    (keyed : ∀ key manifest, before.get? key = some manifest → manifest.key hashing = key) :
    ∀ key manifest, after.get? key = some manifest → manifest.key hashing = key := by
  induction manifests generalizing before with
  | nil =>
      cases h
      exact keyed
  | cons manifest rest ih =>
      refine ih (merge_cons_ok h) fun key found here => ?_
      rw [Table.get?_insert] at here
      split at here
      · next same =>
          cases here
          exact same.symm
      · exact keyed key found here

theorem merge_succeeds {manifests : List DefinitionManifest}
    {before : Table DefinitionKey DefinitionManifest}
    (distinct : (manifests.map fun manifest => manifest.key hashing).Nodup)
    (same : ∀ manifest ∈ manifests, ∀ existing,
      before.get? (manifest.key hashing) = some existing →
        CatalogPublications.sameDefinition hashing existing manifest = true) :
    ∃ after, merge hashing manifests before = .ok after := by
  induction manifests generalizing before with
  | nil => exact ⟨before, rfl⟩
  | cons manifest rest ih =>
      rw [List.map_cons, List.nodup_cons] at distinct
      have next : ∃ after, merge hashing rest (before.insert (manifest.key hashing) manifest) =
          .ok after := by
        refine ih distinct.2 fun other mem existing here => ?_
        have apart : other.key hashing ≠ manifest.key hashing :=
          fun equal => distinct.1 (List.mem_map.mpr ⟨other, mem, equal⟩)
        rw [Table.get?_insert_ne _ apart] at here
        exact same other (by simp [mem]) existing here
      rw [merge]
      cases found : before.get? (manifest.key hashing) with
      | none => exact next
      | some existing =>
          simp only [same manifest (by simp) existing found, if_true]
          exact next

/-- The catalog of an activation exists unless a stored definition differs from the authored one of
its name and digest. -/
theorem desired_succeeds (h : inputs.buildDefinitionManifests hashing identities = .ok authored)
    (same : ∀ name manifest existing, authored.get? name = some manifest →
      catalog.manifests.get? (manifest.key hashing) = some existing →
        CatalogPublications.sameDefinition hashing existing manifest = true) :
    ∃ after, catalog.desired authored = .ok after := by
  have kept : ∀ manifest ∈ authored.entries.map Prod.snd, ∀ existing,
      catalog.manifests.get? (manifest.key hashing) = some existing →
        CatalogPublications.sameDefinition hashing existing manifest = true := by
    intro manifest mem existing here
    obtain ⟨entry, inside, rfl⟩ := List.mem_map.mp mem
    exact same entry.1 entry.2 existing (Table.mem_entries_iff.mp inside) here
  obtain ⟨manifests, merged⟩ := merge_succeeds (authored_keys h) kept
  have keyed := merge_keyed merged catalog.indexed
  have stored : (manifests.entries.map Prod.snd).map (fun manifest => manifest.key hashing) =
      keys manifests.entries := by
    rw [List.map_map]
    exact List.map_congr_left fun entry mem => keyed _ _ (Table.mem_entries_iff.mp mem)
  rw [desired, merged]
  refine create_isOk_iff.mpr ⟨stored ▸ manifests.nodup, fun name digest found => ?_⟩
  rw [Table.get?_mapValues, Option.map_eq_some_iff] at found
  obtain ⟨manifest, here, rfl⟩ := found
  have there := merge_mem merged (authored_keys h)
    (List.mem_map_of_mem (Table.mem_entries_iff.mpr here))
  rw [stored, ← CatalogPublications.key_of_gives ((ManifestInputs.gives_iff h).mp here)]
  exact Memoization.mem_keys_of_get? there

end DefinitionCatalog

/-! ## Preparing for it -/

section Preparing

variable {hashing : Hashing} {identities : ContractIdentities} {inputs : ManifestInputs}
  {authored : Table String DefinitionManifest} {catalog after : DefinitionCatalog hashing}
  {router : WorkerDeploymentRouter} {snapshots : Table String Digest}

theorem mapM_succeeds {ε α β : Type} {f : α → Except ε β} {items : List α}
    (each : ∀ item ∈ items, ∃ value, f item = .ok value) : ∃ values, items.mapM f = .ok values := by
  cases all : items.mapM f with
  | ok values => exact ⟨values, rfl⟩
  | error error =>
      obtain ⟨item, mem, failed⟩ := exists_error_of_mapM all
      obtain ⟨value, succeeded⟩ := each item mem
      rw [succeeded] at failed
      cases failed

theorem exists_item_of_mapM {ε α β : Type} {f : α → Except ε β} {items : List α} {values : List β}
    (h : items.mapM f = .ok values) {value : β} (mem : value ∈ values) :
    ∃ item ∈ items, f item = .ok value := by
  rw [mapM_eq_ok_iff] at h
  induction h with
  | nil => cases mem
  | cons first _ ih =>
      rcases List.mem_cons.mp mem with rfl | mem
      · exact ⟨_, by simp, first⟩
      · obtain ⟨item, inside, same⟩ := ih mem
        exact ⟨item, by simp [inside], same⟩

theorem exists_value_of_mapM {ε α β : Type} {f : α → Except ε β} {items : List α}
    {values : List β} (h : items.mapM f = .ok values) {item : α} (mem : item ∈ items) :
    ∃ value ∈ values, f item = .ok value := by
  rw [mapM_eq_ok_iff] at h
  induction h with
  | nil => cases mem
  | cons first _ ih =>
      rcases List.mem_cons.mp mem with rfl | mem
      · exact ⟨_, by simp, first⟩
      · obtain ⟨value, inside, same⟩ := ih mem
        exact ⟨value, by simp [inside], same⟩

/-- A pinned child is the authored definition of its workflow. -/
theorem pinnedChild_authored
    (h : inputs.buildDefinitionManifests hashing identities = .ok authored)
    (made : catalog.desired authored = .ok after) {name : String} {manifest : DefinitionManifest}
    (found : authored.get? name = some manifest) {child : ChildDefinitionIdentity}
    (mem : child ∈ manifest.children) :
    ∃ pinned, authored.get? child.workflow = some pinned ∧
      pinnedChild after child = .ok (child.workflow, pinned) := by
  obtain ⟨-, pinned, given, key⟩ :=
    CatalogPublications.children_of_gives ((ManifestInputs.gives_iff h).mp found) mem
  have here := (ManifestInputs.gives_iff h).mpr given
  rw [CatalogPublications.key_of_gives given, CatalogPublications.pinnedKey,
    Prod.mk.injEq] at key
  refine ⟨pinned, here, ?_⟩
  rw [pinnedChild, ← key.2, (DefinitionCatalog.desired_get? h made here).2]
  rfl

theorem mapError_ok_bind {ε δ α β : Type} (f : ε → δ) (a : α) (next : α → Except δ β) :
    ((Except.ok a : Except ε α).mapError f >>= next) = next a := rfl

/-- What is prepared for an authored workflow. -/
theorem prepareDefinition_ok
    (h : inputs.buildDefinitionManifests hashing identities = .ok authored)
    (made : catalog.desired authored = .ok after) {name : String} {manifest : DefinitionManifest}
    (found : authored.get? name = some manifest) {entry : String × PreparedDefinition}
    (prepared : prepareDefinition after router snapshots name = .ok entry) :
    entry.1 = name ∧ entry.2.manifest = manifest ∧ supports router.active manifest = true ∧
      ∀ child ∈ entry.2.children, authored.get? child.1 = some child.2 := by
  rw [prepareDefinition, DefinitionCatalog.desired_resolve h made found] at prepared
  rw [mapError_ok_bind] at prepared
  rw [WorkerDeploymentRouter.select] at prepared
  split at prepared
  · next supported =>
      rw [mapError_ok_bind] at prepared
      cases pinned : manifest.children.mapM (pinnedChild after) with
      | error error =>
          rw [pinned] at prepared
          cases prepared
      | ok children =>
          rw [pinned] at prepared
          rw [Program.ok_bind] at prepared
          cases own : snapshotOf snapshots name with
          | error error =>
              rw [own] at prepared
              cases prepared
          | ok snapshot =>
              rw [own] at prepared
              rw [Program.ok_bind] at prepared
              cases others : children.mapM (childSnapshot snapshots) with
              | error error =>
                  rw [others] at prepared
                  cases prepared
              | ok childSnapshots =>
                  rw [others] at prepared
                  cases prepared
                  refine ⟨rfl, rfl, supported, fun child mem => ?_⟩
                  obtain ⟨identity, inside, looked⟩ := exists_item_of_mapM pinned mem
                  obtain ⟨found', here, same⟩ := pinnedChild_authored h made found inside
                  rw [same] at looked
                  cases looked
                  exact here
  · cases prepared

theorem snapshotOf_ok_iff {name : String} :
    (∃ digest, snapshotOf snapshots name = .ok digest) ↔ (snapshots.get? name).isSome := by
  rw [snapshotOf]
  cases snapshots.get? name <;> simp

theorem prepareDefinition_succeeds
    (h : inputs.buildDefinitionManifests hashing identities = .ok authored)
    (made : catalog.desired authored = .ok after) {name : String} {manifest : DefinitionManifest}
    (found : authored.get? name = some manifest)
    (supported : supports router.active manifest = true)
    (held : ∀ name, (authored.get? name).isSome → (snapshots.get? name).isSome) :
    ∃ entry, prepareDefinition after router snapshots name = .ok entry := by
  obtain ⟨children, pinned⟩ : ∃ children,
      manifest.children.mapM (pinnedChild after) = .ok children := by
    refine mapM_succeeds fun child mem => ?_
    obtain ⟨pinned, -, looked⟩ := pinnedChild_authored h made found mem
    exact ⟨_, looked⟩
  obtain ⟨snapshot, own⟩ := snapshotOf_ok_iff.mpr (held name (by rw [found]; rfl))
  obtain ⟨childSnapshots, others⟩ : ∃ childSnapshots,
      children.mapM (childSnapshot snapshots) = .ok childSnapshots := by
    refine mapM_succeeds fun child mem => ?_
    obtain ⟨identity, inside, looked⟩ := exists_item_of_mapM pinned mem
    obtain ⟨found', here, same⟩ := pinnedChild_authored h made found inside
    rw [same] at looked
    cases looked
    obtain ⟨digest, there⟩ := snapshotOf_ok_iff.mpr (held _ (by rw [here]; rfl))
    exact ⟨_, by rw [childSnapshot, there]; rfl⟩
  rw [prepareDefinition, DefinitionCatalog.desired_resolve h made found]
  change ∃ entry, ((router.select hashing manifest).mapError PreparationError.routing >>= _) = _
  rw [WorkerDeploymentRouter.select, if_pos supported]
  change ∃ entry, (manifest.children.mapM (pinnedChild after) >>= _) = _
  rw [pinned]
  change ∃ entry, (snapshotOf snapshots name >>= _) = _
  rw [own]
  change ∃ entry, (children.mapM (childSnapshot snapshots) >>= _) = _
  rw [others]
  exact ⟨_, rfl⟩

theorem subset_sortedSet_iff {first second : List String} :
    sortedSet first ⊆ sortedSet second ↔ first ⊆ second := by
  simp only [List.subset_def, mem_sortedSet]

/-- The preparation for the catalog of an activation. -/
theorem prepareDefinitions_eq
    (h : inputs.buildDefinitionManifests hashing identities = .ok authored)
    (made : catalog.desired authored = .ok after)
    (names : keys snapshots.entries ⊆ keys inputs.workflows.entries ∧
      keys inputs.workflows.entries ⊆ keys snapshots.entries) :
    prepareDefinitions after router snapshots inputs identities =
      (sortedSet (keys inputs.workflows.entries)).mapM
        (prepareDefinition after router snapshots) := by
  rw [prepareDefinitions, h]
  rw [mapError_ok_bind]
  rw [DefinitionCatalog.desired_verified h made]
  change (if _ then _ else _) = _
  rw [if_pos ⟨subset_sortedSet_iff.mpr names.1, subset_sortedSet_iff.mpr names.2⟩]

theorem names_of_prepared
    (h : inputs.buildDefinitionManifests hashing identities = .ok authored)
    (made : catalog.desired authored = .ok after) {prepared : List (String × PreparedDefinition)}
    (done : prepareDefinitions after router snapshots inputs identities = .ok prepared) :
    keys snapshots.entries ⊆ keys inputs.workflows.entries ∧
      keys inputs.workflows.entries ⊆ keys snapshots.entries := by
  rw [prepareDefinitions, h] at done
  rw [mapError_ok_bind] at done
  rw [DefinitionCatalog.desired_verified h made] at done
  change (if _ then _ else _) = _ at done
  split at done
  · next same => exact ⟨subset_sortedSet_iff.mp same.1, subset_sortedSet_iff.mp same.2⟩
  · cases done

end Preparing

/-! ## A worker of the shop -/

section Shop

open ManifestInputs

def shopCatalog : DefinitionCatalog sizeHash where
  manifests := .empty
  aliases := .empty
  indexed _ _ found := by cases found
  targets _ _ found := by cases found

def shopWorker : StartMemo.WorkerDeployment :=
  StartMemo.nightlyStart.target.deployment

def shopRouter : WorkerDeploymentRouter where
  deployments := Table.empty.insert (canonicalName shopWorker) shopWorker
  active := shopWorker
  registered := Table.get?_insert_self _ _ _

def shopSnapshots : Table String Digest :=
  (Table.empty.insert "orders" (Digest.ofNat 1)).insert "billing" (Digest.ofNat 2)

end Shop

end Justflow
