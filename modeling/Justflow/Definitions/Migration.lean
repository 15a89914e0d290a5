import Justflow.Definitions.CatalogStore

/-!
# Catalog migration

A bundle carries the manifests, snapshots and aliases of a catalog.  An import plans what is
missing and refuses conflicts before it writes; what a plan leaves to do is a function of the
catalog, so that an import can be stopped between two writes and run again.

Two things do not survive.  A catalog without aliases is exported, but its import writes no alias
document, and a catalog without one cannot be exported.  And an object that is written in place
cannot be read if the import is stopped before it is closed, after which no import is planned.
-/

open Worklist

namespace Justflow

inductive CatalogMigrationError where
  | catalog (error : CatalogError)
  | invalidBundle (message : String)

def CatalogError.message : CatalogError → String
  | .invalid message | .drift message | .storage message | .conflict message => message

@[ext]
structure CatalogBundle (hashing : Hashing) where
  aliases : Table String Digest
  manifests : List DefinitionManifest
  environmentSnapshots : List ExecutionEnvironmentSnapshot
  valid : ∃ catalog, DefinitionCatalog.create hashing manifests aliases = .ok catalog
  distinct : (environmentSnapshots.map fun snapshot => snapshot.snapshotDigest hashing).Nodup

def sortManifests (hashing : Hashing) (manifests : List DefinitionManifest) :
    List DefinitionManifest :=
  manifests.insertionSort fun a b => DefinitionKey.Le (a.key hashing) (b.key hashing)

def sortSnapshots (hashing : Hashing) (snapshots : List ExecutionEnvironmentSnapshot) :
    List ExecutionEnvironmentSnapshot :=
  snapshots.insertionSort fun a b =>
    (a.snapshotDigest hashing).text ≤ (b.snapshotDigest hashing).text

namespace CatalogBundle

variable (hashing : Hashing)

/-- The constructor with `validate_bundle`. -/
def validate (aliases : Table String Digest) (manifests : List DefinitionManifest)
    (environmentSnapshots : List ExecutionEnvironmentSnapshot) :
    Except CatalogMigrationError (CatalogBundle hashing) :=
  match created : DefinitionCatalog.create hashing manifests aliases with
  | .error error => .error (.invalidBundle error.message)
  | .ok catalog =>
      if distinct : (environmentSnapshots.map fun snapshot =>
          snapshot.snapshotDigest hashing).Nodup then
        .ok ⟨aliases, manifests, environmentSnapshots, ⟨catalog, created⟩, distinct⟩
      else .error (.invalidBundle
        "Catalog bundle contains duplicate execution environment snapshots")

def create (aliases : Table String Digest) (manifests : List DefinitionManifest)
    (environmentSnapshots : List ExecutionEnvironmentSnapshot) :
    Except CatalogMigrationError (CatalogBundle hashing) :=
  validate hashing aliases.sortKeys (sortManifests hashing manifests)
    (sortSnapshots hashing environmentSnapshots)

end CatalogBundle

inductive CatalogImportConflictKind where
  | manifest | environmentSnapshot | alias | destinationAlias
  deriving DecidableEq

structure CatalogImportConflict where
  kind : CatalogImportConflictKind
  identity : String
  destination : Option Digest := none
  incoming : Option Digest := none

structure CatalogImportPlan where
  expectedAliasVersion : Option String
  manifestsToCreate : List String
  environmentSnapshotsToCreate : List Digest
  aliasesToCreate : List String
  unchangedAliases : List String
  conflicts : List CatalogImportConflict

section Migration

variable (hashing : Hashing) (backend : CatalogBackend)

def exportCatalog (contents : CatalogContents) :
    Except CatalogMigrationError (CatalogBundle hashing) :=
  match contents.load hashing backend with
  | .error error => .error (.catalog error)
  | .ok catalog =>
      match contents.listEnvironmentSnapshots hashing with
      | .error error => .error (.catalog error)
      | .ok snapshots => CatalogBundle.create hashing catalog.aliases
          (catalog.manifests.entries.map Prod.snd) snapshots

def displayIdentity (manifest : DefinitionManifest) : String :=
  s!"{manifest.logicalName}@{(manifest.definitionDigest hashing).text}"

def currentSnapshot (snapshots : List ExecutionEnvironmentSnapshot) (digest : Digest) :
    Option ExecutionEnvironmentSnapshot :=
  snapshots.reverse.find? fun snapshot => snapshot.snapshotDigest hashing = digest

def manifestConflict (catalog : DefinitionCatalog hashing) (manifest : DefinitionManifest) :
    Option CatalogImportConflict :=
  match catalog.manifests.get? (manifest.key hashing) with
  | none => none
  | some current =>
      if current ≠ manifest then
        some { kind := .manifest, identity := displayIdentity hashing manifest }
      else none

def snapshotConflict (snapshots : List ExecutionEnvironmentSnapshot)
    (snapshot : ExecutionEnvironmentSnapshot) : Option CatalogImportConflict :=
  match currentSnapshot hashing snapshots (snapshot.snapshotDigest hashing) with
  | none => none
  | some current =>
      if current ≠ snapshot then
        some { kind := .environmentSnapshot
               identity := (snapshot.snapshotDigest hashing).text }
      else none

def aliasConflict (aliases : Table String Digest) (entry : String × Digest) :
    Option CatalogImportConflict :=
  match aliases.get? entry.1 with
  | none => none
  | some destination =>
      if destination ≠ entry.2 then
        some { kind := .alias
               identity := entry.1
               destination := some destination
               incoming := some entry.2 }
      else none

/-- An alias of the destination that the bundle does not have. -/
def destinationConflict (incoming : Table String Digest) (entry : String × Digest) :
    Option CatalogImportConflict :=
  match incoming.get? entry.1 with
  | none => some { kind := .destinationAlias
                   identity := entry.1
                   destination := some entry.2 }
  | some _ => none

/-- The plan of an import into a catalog that was read. -/
def importPlan (bundle : CatalogBundle hashing) (state : StoredCatalog hashing)
    (snapshots : List ExecutionEnvironmentSnapshot) : CatalogImportPlan where
  expectedAliasVersion := state.aliasVersion
  manifestsToCreate := (bundle.manifests.filter fun manifest =>
    (state.catalog.manifests.get? (manifest.key hashing)).isNone).map (displayIdentity hashing)
  environmentSnapshotsToCreate := (bundle.environmentSnapshots.map fun snapshot =>
    snapshot.snapshotDigest hashing).filter fun digest =>
      (currentSnapshot hashing snapshots digest).isNone
  aliasesToCreate := (bundle.aliases.sortKeys.entries.filter fun entry =>
    (state.catalog.aliases.get? entry.1).isNone).map Prod.fst
  unchangedAliases := (bundle.aliases.sortKeys.entries.filter fun entry =>
    state.catalog.aliases.get? entry.1 = some entry.2).map Prod.fst
  conflicts := bundle.manifests.filterMap (manifestConflict hashing state.catalog) ++
    bundle.environmentSnapshots.filterMap (snapshotConflict hashing snapshots) ++
    bundle.aliases.sortKeys.entries.filterMap (aliasConflict state.catalog.aliases) ++
    state.catalog.aliases.sortKeys.entries.filterMap (destinationConflict bundle.aliases)

def planCatalogImport (contents : CatalogContents) (bundle : CatalogBundle hashing) :
    Except CatalogError CatalogImportPlan := do
  let state ← contents.inspect hashing backend
  let snapshots ← contents.listEnvironmentSnapshots hashing
  return importPlan hashing bundle state snapshots

/-- The manifest of a bundle under its displayed identity. -/
def CatalogBundle.manifestOf (bundle : CatalogBundle hashing) (identity : String) :
    Option DefinitionManifest :=
  bundle.manifests.reverse.find? fun manifest => displayIdentity hashing manifest = identity

def CatalogBundle.snapshotOf (bundle : CatalogBundle hashing) (digest : Digest) :
    Option ExecutionEnvironmentSnapshot :=
  currentSnapshot hashing bundle.environmentSnapshots digest

/-- The writes of an import with a plan. -/
def importWrites (bundle : CatalogBundle hashing) (plan : CatalogImportPlan) :
    List CatalogWrite :=
  (plan.manifestsToCreate.filterMap (bundle.manifestOf hashing)).map
      (fun manifest => .create (.manifest manifest)) ++
    (plan.environmentSnapshotsToCreate.filterMap (bundle.snapshotOf hashing)).map
      (fun snapshot => .create (.snapshot snapshot)) ++
    if plan.aliasesToCreate = [] then []
    else [.replaceAliases bundle.aliases plan.expectedAliasVersion]

/-- The plan of an import that begins to write. -/
def acceptedPlan (bundle : CatalogBundle hashing) (contents : CatalogContents) :
    Except CatalogError CatalogImportPlan := do
  let plan ← planCatalogImport hashing backend contents bundle
  if plan.conflicts = [] then .ok plan
  else .error (.conflict
    s!"Catalog import has {plan.conflicts.length} unresolved conflict(s)")

def importRequests (bundle : CatalogBundle hashing) (plan : CatalogImportPlan) :
    List CatalogRequest :=
  (importWrites hashing bundle plan).flatMap (CatalogWrite.requests backend)

def importCatalog (bundle : CatalogBundle hashing) (contents : CatalogContents) :
    CatalogContents × Except CatalogError CatalogImportPlan :=
  match acceptedPlan hashing backend bundle contents with
  | .error error => (contents, .error error)
  | .ok plan =>
      let (after, result) := serve (CatalogRequest.perform hashing backend)
        (importRequests hashing backend bundle plan) contents
      (after, result.map fun _ => plan)

/-- What an import leaves that is stopped after a number of requests. -/
def interruptedImport (bundle : CatalogBundle hashing) (requests : Nat)
    (contents : CatalogContents) : CatalogContents :=
  match acceptedPlan hashing backend bundle contents with
  | .error _ => contents
  | .ok plan => (serve (CatalogRequest.perform hashing backend)
      ((importRequests hashing backend bundle plan).take requests) contents).1

end Migration

/-! ## What a plan leaves to do -/

theorem find?_reverse_eq_some_iff {κ α : Type} [DecidableEq κ] {f : α → κ} {xs : List α}
    (distinct : (xs.map f).Nodup) {key : κ} {x : α} :
    (xs.reverse.find? fun x => f x = key) = some x ↔ x ∈ xs ∧ f x = key := by
  constructor
  · intro found
    exact ⟨List.mem_reverse.mp (List.mem_of_find?_eq_some found),
      by simpa using List.find?_some found⟩
  · rintro ⟨member, rfl⟩
    have some_ : (xs.reverse.find? fun y => f y = f x).isSome = true :=
      List.find?_isSome.mpr ⟨x, List.mem_reverse.mpr member, by simp⟩
    obtain ⟨y, found⟩ := Option.isSome_iff_exists.mp some_
    have same : f y = f x := by simpa using List.find?_some found
    rw [found, List.inj_on_of_nodup_map distinct
      (List.mem_reverse.mp (List.mem_of_find?_eq_some found)) member same]

theorem filterMap_map_eq_self {α β : Type} {f : α → β} {g : β → Option α} {xs : List α}
    (inverse : ∀ x ∈ xs, g (f x) = some x) : (xs.map f).filterMap g = xs := by
  induction xs with
  | nil => rfl
  | cons x xs ih =>
      obtain ⟨first, others⟩ := List.forall_mem_cons.mp inverse
      rw [List.map_cons, List.filterMap_cons_some first, ih others]

theorem displayIdentity_inj {hashing : Hashing} {first second : DefinitionManifest}
    (same : displayIdentity hashing first = displayIdentity hashing second) :
    first.key hashing = second.key hashing := by
  have texts : first.logicalName.toList ++ ("@".toList ++
        (first.definitionDigest hashing).text.toList) =
      second.logicalName.toList ++ ("@".toList ++
        (second.definitionDigest hashing).text.toList) := by
    have appended := congrArg String.toList same
    rw [displayIdentity, displayIdentity, String.toList_append, String.toList_append,
      String.toList_append, String.toList_append, List.append_assoc, List.append_assoc] at appended
    exact appended
  have lengths : ("@".toList ++ (first.definitionDigest hashing).text.toList).length =
      ("@".toList ++ (second.definitionDigest hashing).text.toList).length := by
    rw [List.length_append, List.length_append, String.length_toList, String.length_toList,
      String.length_toList, Digest.length, Digest.length]
  obtain ⟨names, digests⟩ := List.append_inj' texts lengths
  have hex := String.toList_inj.mp (List.append_cancel_left digests)
  rw [DefinitionManifest.key, DefinitionManifest.key, String.toList_inj.mp names]
  refine congrArg _ ?_
  cases hfirst : first.definitionDigest hashing
  cases hsecond : second.definitionDigest hashing
  rw [hfirst, hsecond] at hex
  cases hex
  rfl

namespace CatalogBundle

variable {hashing : Hashing} (bundle : CatalogBundle hashing)

def objects : List CatalogObject :=
  bundle.manifests.map .manifest ++ bundle.environmentSnapshots.map .snapshot

theorem distinctManifests :
    (bundle.manifests.map fun manifest => manifest.key hashing).Nodup :=
  (DefinitionCatalog.create_isOk_iff.mp bundle.valid).1

theorem targets (name : String) (digest : Digest)
    (found : bundle.aliases.get? name = some digest) :
    (name, digest) ∈ bundle.manifests.map fun manifest => manifest.key hashing :=
  (DefinitionCatalog.create_isOk_iff.mp bundle.valid).2 name digest found

theorem objects_distinct : (bundle.objects.map fun object => object.key hashing).Nodup := by
  rw [objects, List.map_append, List.map_map, List.map_map, List.nodup_append]
  refine ⟨?_, ?_, ?_⟩
  · have := bundle.distinctManifests.map fun _ _ => CatalogObjectKey.manifest.inj
    rwa [List.map_map] at this
  · have := bundle.distinct.map fun _ _ => CatalogObjectKey.snapshot.inj
    rwa [List.map_map] at this
  · intro first hfirst second hsecond same
    obtain ⟨manifest, _, rfl⟩ := List.mem_map.mp hfirst
    obtain ⟨snapshot, _, rfl⟩ := List.mem_map.mp hsecond
    cases same

theorem manifestOf_displayIdentity {manifest : DefinitionManifest}
    (member : manifest ∈ bundle.manifests) :
    bundle.manifestOf hashing (displayIdentity hashing manifest) = some manifest := by
  have distinct : (bundle.manifests.map (displayIdentity hashing)).Nodup :=
    List.Nodup.map_on (fun first hfirst second hsecond same =>
      List.inj_on_of_nodup_map bundle.distinctManifests hfirst hsecond (displayIdentity_inj same))
      bundle.distinctManifests.of_map
  exact (find?_reverse_eq_some_iff distinct).mpr ⟨member, rfl⟩

theorem snapshotOf_snapshotDigest {snapshot : ExecutionEnvironmentSnapshot}
    (member : snapshot ∈ bundle.environmentSnapshots) :
    bundle.snapshotOf hashing (snapshot.snapshotDigest hashing) = some snapshot :=
  (find?_reverse_eq_some_iff bundle.distinct).mpr ⟨member, rfl⟩

end CatalogBundle

section Plans

variable (hashing : Hashing) (backend : CatalogBackend) (bundle : CatalogBundle hashing)
  (contents : CatalogContents)

def missing (object : CatalogObject) : Bool :=
  (contents.objects.get? (object.key hashing)).isNone

/-- What an import has to write, as a function of the catalog. -/
def importTodo : List CatalogWrite :=
  (bundle.objects.filter (missing hashing contents)).map .create ++
    if bundle.aliases.entries.all fun entry => (contents.aliases.get? entry.1).isSome then []
    else [.replaceAliases bundle.aliases (contents.aliasDocument.map backend.version)]

/-- Nothing in the catalog is in the way of a bundle. -/
structure Compatible : Prop where
  objects : ∀ object ∈ bundle.objects, ∀ stored,
    contents.objects.get? (object.key hashing) = some stored → stored = some object
  aliases : ∀ name digest, contents.aliases.get? name = some digest →
    bundle.aliases.get? name = some digest

/-- The catalog loads, and an import of the bundle has no conflict. -/
def Importable : Prop :=
  Compatible hashing bundle contents ∧
    ∃ manifests snapshots, contents.Holds hashing manifests snapshots

variable {hashing backend bundle contents} {manifests : List DefinitionManifest}
  {snapshots : List ExecutionEnvironmentSnapshot} {catalog : DefinitionCatalog hashing}

theorem get?_catalog (holds : contents.Holds hashing manifests snapshots)
    (entries : catalog.manifests.entries =
      manifests.map fun manifest => (manifest.key hashing, manifest))
    {key : DefinitionKey} {manifest : DefinitionManifest} :
    catalog.manifests.get? key = some manifest ↔
      contents.objects.get? (.manifest key) = some (some (.manifest manifest)) := by
  rw [← Table.mem_entries_iff, entries, List.mem_map, ← CatalogContents.mem_manifestObjects,
    holds.manifestObjects, List.mem_map]
  constructor
  · rintro ⟨found, member, same⟩
    cases same
    exact ⟨_, member, rfl⟩
  · rintro ⟨found, member, same⟩
    cases same
    exact ⟨_, member, rfl⟩

theorem get?_catalog_none (holds : contents.Holds hashing manifests snapshots)
    (entries : catalog.manifests.entries =
      manifests.map fun manifest => (manifest.key hashing, manifest)) (key : DefinitionKey) :
    (catalog.manifests.get? key).isNone = (contents.objects.get? (.manifest key)).isNone := by
  cases found : contents.objects.get? (.manifest key) with
  | none =>
      cases here : catalog.manifests.get? key with
      | none => rfl
      | some manifest =>
          rw [(get?_catalog holds entries).mp here] at found
          cases found
  | some stored =>
      obtain ⟨object, rfl, same, ⟨manifest, member, rfl⟩ | ⟨snapshot, member, rfl⟩⟩ :=
        holds.get?_iff.mp found
      · rw [(get?_catalog holds entries).mpr found]
        rfl
      · cases same

theorem currentSnapshot_iff (holds : contents.Holds hashing manifests snapshots)
    {digest : Digest} {snapshot : ExecutionEnvironmentSnapshot} :
    currentSnapshot hashing snapshots digest = some snapshot ↔
      contents.objects.get? (.snapshot digest) = some (some (.snapshot snapshot)) := by
  rw [currentSnapshot, find?_reverse_eq_some_iff holds.distinctSnapshots,
    ← CatalogContents.mem_snapshotObjects, holds.snapshotObjects, List.mem_map]
  constructor
  · rintro ⟨member, rfl⟩
    exact ⟨_, member, rfl⟩
  · rintro ⟨found, member, same⟩
    cases same
    exact ⟨member, rfl⟩

theorem currentSnapshot_none (holds : contents.Holds hashing manifests snapshots)
    (digest : Digest) : (currentSnapshot hashing snapshots digest).isNone =
      (contents.objects.get? (.snapshot digest)).isNone := by
  cases found : contents.objects.get? (.snapshot digest) with
  | none =>
      cases here : currentSnapshot hashing snapshots digest with
      | none => rfl
      | some snapshot =>
          rw [(currentSnapshot_iff holds).mp here] at found
          cases found
  | some stored =>
      obtain ⟨object, rfl, same, ⟨manifest, member, rfl⟩ | ⟨snapshot, member, rfl⟩⟩ :=
        holds.get?_iff.mp found
      · cases same
      · rw [(currentSnapshot_iff holds).mpr found]
        rfl

/-- An object of the bundle is in the way if another one is under its key. -/
theorem conflict_none_iff {α : Type} {lookup : Option α} [DecidableEq α] {value : α}
    {stored : Option (Option CatalogObject)} {wrap : α → CatalogObject}
    (injective : ∀ a b, wrap a = wrap b → a = b)
    (related : ∀ found, lookup = some found ↔ stored = some (some (wrap found)))
    (nones : lookup.isNone = stored.isNone) :
    (∀ found, lookup = some found → found = value) ↔
      ∀ found, stored = some found → found = some (wrap value) := by
  constructor
  · intro same found here
    cases current : lookup with
    | none =>
        rw [current, here] at nones
        cases nones
    | some object =>
        have listed := (related object).mp current
        rw [here] at listed
        rw [Option.some.inj listed, same object current]
  · intro same found here
    have listed := same _ ((related found).mp here)
    exact injective _ _ (Option.some.inj listed)

theorem manifestConflict_eq_none_iff {manifest : DefinitionManifest} :
    manifestConflict hashing catalog manifest = none ↔
      ∀ found, catalog.manifests.get? (manifest.key hashing) = some found → found = manifest := by
  rw [manifestConflict]
  cases catalog.manifests.get? (manifest.key hashing) with
  | none => simp
  | some current => simp

theorem snapshotConflict_eq_none_iff {snapshot : ExecutionEnvironmentSnapshot} :
    snapshotConflict hashing snapshots snapshot = none ↔
      ∀ found, currentSnapshot hashing snapshots (snapshot.snapshotDigest hashing) =
        some found → found = snapshot := by
  rw [snapshotConflict]
  cases currentSnapshot hashing snapshots (snapshot.snapshotDigest hashing) with
  | none => simp
  | some current => simp

theorem mem_sortKeys {α : Type} {table : Table String α} {entry : String × α} :
    entry ∈ table.sortKeys.entries ↔ entry ∈ table.entries :=
  (List.perm_insertionSort _ table.entries).mem_iff

theorem aliasConflicts_eq_nil_iff {incoming current : Table String Digest} :
    (incoming.sortKeys.entries.filterMap (aliasConflict current) = [] ∧
        current.sortKeys.entries.filterMap (destinationConflict incoming) = []) ↔
      ∀ name digest, current.get? name = some digest → incoming.get? name = some digest := by
  rw [List.filterMap_eq_nil_iff, List.filterMap_eq_nil_iff]
  constructor
  · rintro ⟨agree, covered⟩ name digest found
    have present := covered (name, digest) (mem_sortKeys.mpr (Table.mem_entries_iff.mpr found))
    rw [destinationConflict] at present
    cases here : incoming.get? name with
    | none =>
        rw [here] at present
        cases present
    | some digest' =>
        have same := agree (name, digest') (mem_sortKeys.mpr (Table.mem_entries_iff.mpr here))
        simp only [aliasConflict, found] at same
        by_cases equal : digest = digest'
        · rw [equal]
        · rw [if_pos equal] at same
          cases same
  · intro agree
    constructor
    · rintro ⟨name, digest⟩ member
      have here := Table.mem_entries_iff.mp (mem_sortKeys.mp member)
      rw [aliasConflict]
      cases found : current.get? name with
      | none => rfl
      | some digest' =>
          have same := agree name digest' found
          rw [here] at same
          cases same
          exact if_neg (not_not.mpr rfl)
    · rintro ⟨name, digest⟩ member
      have found := Table.mem_entries_iff.mp (mem_sortKeys.mp member)
      rw [destinationConflict, agree name digest found]

/-- The plan for a catalog that loads. -/
theorem plan_of_holds (holds : contents.Holds hashing manifests snapshots) :
    ∃ plan, planCatalogImport hashing backend contents bundle = .ok plan ∧
      (plan.conflicts = [] ↔ Compatible hashing bundle contents) ∧
      importWrites hashing bundle plan = importTodo hashing backend bundle contents := by
  obtain ⟨catalog, loaded, aliases, entries⟩ := holds.loadState
  refine ⟨importPlan hashing bundle ⟨catalog, contents.aliasDocument.map backend.version⟩
    snapshots, ?_, ?_, ?_⟩
  · rw [planCatalogImport, CatalogContents.inspect, loaded, holds.listEnvironmentSnapshots]
    rfl
  · simp only [importPlan, List.append_eq_nil_iff, and_assoc]
    rw [aliasConflicts_eq_nil_iff, List.filterMap_eq_nil_iff, List.filterMap_eq_nil_iff]
    have sameManifest : ∀ manifest, manifestConflict hashing catalog manifest = none ↔
        ∀ found, contents.objects.get? (.manifest (manifest.key hashing)) = some found →
          found = some (.manifest manifest) := fun manifest =>
      manifestConflict_eq_none_iff.trans (conflict_none_iff
        (fun _ _ => CatalogObject.manifest.inj) (fun _ => get?_catalog holds entries)
        (get?_catalog_none holds entries _))
    have sameSnapshot : ∀ snapshot, snapshotConflict hashing snapshots snapshot = none ↔
        ∀ found, contents.objects.get? (.snapshot (snapshot.snapshotDigest hashing)) =
          some found → found = some (.snapshot snapshot) := fun snapshot =>
      snapshotConflict_eq_none_iff.trans (conflict_none_iff
        (fun _ _ => CatalogObject.snapshot.inj) (fun _ => currentSnapshot_iff holds)
        (currentSnapshot_none holds _))
    constructor
    · rintro ⟨sameManifests, sameSnapshots, sameAliases⟩
      refine ⟨?_, aliases ▸ sameAliases⟩
      intro object member
      rcases List.mem_append.mp member with listed | listed
      · obtain ⟨manifest, here, rfl⟩ := List.mem_map.mp listed
        exact (sameManifest manifest).mp (sameManifests manifest here)
      · obtain ⟨snapshot, here, rfl⟩ := List.mem_map.mp listed
        exact (sameSnapshot snapshot).mp (sameSnapshots snapshot here)
    · rintro ⟨objects, sameAliases⟩
      refine ⟨?_, ?_, aliases.symm ▸ sameAliases⟩
      · intro manifest here
        exact (sameManifest manifest).mpr (objects _
          (List.mem_append_left _ (List.mem_map_of_mem here)))
      · intro snapshot here
        exact (sameSnapshot snapshot).mpr (objects _
          (List.mem_append_right _ (List.mem_map_of_mem here)))
  · rw [importWrites, importTodo, importPlan]
    have missingManifests : (fun manifest : DefinitionManifest =>
        (catalog.manifests.get? (manifest.key hashing)).isNone) =
        missing hashing contents ∘ .manifest :=
      funext fun manifest => get?_catalog_none holds entries _
    have missingSnapshots : (fun digest => (currentSnapshot hashing snapshots digest).isNone) ∘
        (fun snapshot => snapshot.snapshotDigest hashing) =
        missing hashing contents ∘ .snapshot :=
      funext fun snapshot => currentSnapshot_none holds _
    have create : ∀ (p : CatalogObject → Bool), (bundle.objects.filter p).map CatalogWrite.create =
        (bundle.manifests.filter (p ∘ .manifest)).map
          (fun manifest => .create (.manifest manifest)) ++
        (bundle.environmentSnapshots.filter (p ∘ .snapshot)).map
          (fun snapshot => .create (.snapshot snapshot)) := by
      intro p
      rw [CatalogBundle.objects, List.filter_append, List.filter_map, List.filter_map,
        List.map_append, List.map_map, List.map_map]
      rfl
    rw [create, missingManifests, List.filter_map, missingSnapshots,
      filterMap_map_eq_self fun manifest member =>
        bundle.manifestOf_displayIdentity (List.mem_of_mem_filter member),
      filterMap_map_eq_self fun snapshot member =>
        bundle.snapshotOf_snapshotDigest (List.mem_of_mem_filter member), aliases]
    congr 1
    have condition : ((bundle.aliases.sortKeys.entries.filter fun entry =>
        (contents.aliases.get? entry.1).isNone).map Prod.fst = []) ↔
        (bundle.aliases.entries.all fun entry =>
          (contents.aliases.get? entry.1).isSome) = true := by
      rw [List.map_eq_nil_iff, List.filter_eq_nil_iff, List.all_eq_true]
      constructor
      · intro h entry member
        simpa [Option.isSome_iff_ne_none] using h entry (mem_sortKeys.mpr member)
      · intro h entry member
        simpa [Option.isSome_iff_ne_none] using h entry (mem_sortKeys.mp member)
    by_cases all : (bundle.aliases.entries.all fun entry =>
        (contents.aliases.get? entry.1).isSome) = true
    · rw [if_pos (condition.mpr all), if_pos all]
    · rw [if_neg (fun h => all (condition.mp h)), if_neg all]

theorem holds_of_plan {plan : CatalogImportPlan}
    (h : planCatalogImport hashing backend contents bundle = .ok plan) :
    ∃ manifests snapshots, contents.Holds hashing manifests snapshots := by
  rw [planCatalogImport, CatalogContents.inspect] at h
  cases loaded : contents.loadState hashing with
  | error error =>
      rw [loaded] at h
      cases h
  | ok catalog =>
      cases listed : contents.listEnvironmentSnapshots hashing with
      | error error =>
          rw [loaded, listed] at h
          cases h
      | ok snapshots => exact ⟨_, _, CatalogContents.holds_of_loaded loaded listed⟩

/-- A plan is accepted exactly if the catalog loads and nothing is in the way. -/
theorem acceptedPlan_cases (hashing : Hashing) (backend : CatalogBackend)
    (bundle : CatalogBundle hashing) (contents : CatalogContents) :
    (Importable hashing bundle contents ∧ ∃ plan,
        acceptedPlan hashing backend bundle contents = .ok plan ∧
        importWrites hashing bundle plan = importTodo hashing backend bundle contents) ∨
      ¬ Importable hashing bundle contents ∧
        ∃ error, acceptedPlan hashing backend bundle contents = .error error := by
  by_cases loads : ∃ manifests snapshots, contents.Holds hashing manifests snapshots
  · obtain ⟨manifests, snapshots, holds⟩ := loads
    obtain ⟨plan, planned, conflicts, writes⟩ :=
      @plan_of_holds hashing backend bundle contents manifests snapshots holds
    by_cases compatible : Compatible hashing bundle contents
    · refine .inl ⟨⟨compatible, manifests, snapshots, holds⟩, plan, ?_, writes⟩
      rw [acceptedPlan, planned]
      exact if_pos (conflicts.mpr compatible)
    · refine .inr ⟨fun importable => compatible importable.1, ?_⟩
      rw [acceptedPlan, planned]
      exact ⟨_, if_neg fun none_ => compatible (conflicts.mp none_)⟩
  · refine .inr ⟨fun importable => loads importable.2, ?_⟩
    rw [acceptedPlan]
    cases planned : planCatalogImport hashing backend contents bundle with
    | error error => exact ⟨error, rfl⟩
    | ok plan => exact absurd (holds_of_plan planned) loads

end Plans

/-! ## One write -/

section Steps

variable {hashing : Hashing} {backend : CatalogBackend} {bundle : CatalogBundle hashing}
  {contents after : CatalogContents} {manifests : List DefinitionManifest}
  {snapshots : List ExecutionEnvironmentSnapshot} {object : CatalogObject}

theorem get?_sortKeys {α : Type} (table : Table String α) (name : String) :
    table.sortKeys.get? name = table.get? name := by
  apply Option.ext
  intro value
  rw [← Table.mem_entries_iff, ← Table.mem_entries_iff]
  exact mem_sortKeys

theorem Holds.put (h : contents.Holds hashing manifests snapshots)
    (nameable : object.nameable = true)
    (fresh : contents.objects.get? (object.key hashing) = none) :
    ∃ manifests snapshots,
      (contents.put (object.key hashing) (some object)).Holds hashing manifests snapshots := by
  have entries := Table.entries_insert_fresh fresh (some object)
  cases object with
  | manifest manifest =>
      refine ⟨manifests ++ [manifest], snapshots, ?_, ?_, ?_, ?_⟩
      · rw [CatalogContents.manifestObjects, CatalogContents.put, entries, List.filterMap_append,
          List.map_append, ← h.manifestObjects]
        rfl
      · rw [CatalogContents.snapshotObjects, CatalogContents.put, entries, List.filterMap_append,
          ← h.snapshotObjects]
        exact List.append_nil _
      · intro other member
        rcases List.mem_append.mp member with here | here
        · exact h.nameable other here
        · rw [List.mem_singleton.mp here]
          exact nameable
      · intro name digest found
        rw [List.map_append]
        exact List.mem_append_left _ (h.targets name digest found)
  | snapshot snapshot =>
      refine ⟨manifests, snapshots ++ [snapshot], ?_, ?_, h.nameable, h.targets⟩
      · rw [CatalogContents.manifestObjects, CatalogContents.put, entries, List.filterMap_append,
          ← h.manifestObjects]
        exact List.append_nil _
      · rw [CatalogContents.snapshotObjects, CatalogContents.put, entries, List.filterMap_append,
          List.map_append, ← h.snapshotObjects]
        rfl

/-- What a replacement that succeeds leaves. -/
theorem replaceAliases_eq_ok {aliases : Table String Digest} {expectedVersion : Option String}
    (h : contents.replaceAliases hashing backend aliases expectedVersion = .ok after) :
    after = { contents with aliasDocument := some aliases.sortKeys } := by
  rw [CatalogContents.replaceAliases] at h
  cases loaded : contents.loadState hashing with
  | error error =>
      rw [loaded] at h
      cases h
  | ok catalog =>
      cases created : DefinitionCatalog.create hashing
          (catalog.manifests.entries.map Prod.snd) aliases with
      | error error =>
          rw [loaded] at h
          simp only [bind, Except.bind, created] at h
          cases h
      | ok updated =>
          rw [loaded] at h
          simp only [bind, Except.bind, created] at h
          split at h
          · next same =>
              cases h
              rw [← same]
          · split at h
            · cases h
            · cases h
              rfl

theorem filter_missing_insert {t : Table CatalogObjectKey (Option CatalogObject)}
    {xs others : List CatalogObject} {stored : Option CatalogObject}
    (distinct : (xs.map fun object => object.key hashing).Nodup)
    (h : (xs.filter fun object => (t.get? (object.key hashing)).isNone) = object :: others) :
    (xs.filter fun other => ((t.insert (object.key hashing) stored).get?
      (other.key hashing)).isNone) = others := by
  have split : (fun other : CatalogObject => ((t.insert (object.key hashing) stored).get?
      (other.key hashing)).isNone) = fun other =>
      decide (other.key hashing ≠ object.key hashing) && (t.get? (other.key hashing)).isNone := by
    funext other
    rw [Table.get?_insert]
    by_cases same : other.key hashing = object.key hashing
    · simp [same]
    · simp [same]
  have remaining : ((object :: others).map fun object => object.key hashing).Nodup := by
    rw [← h]
    exact (List.filter_sublist.map _).nodup distinct
  rw [split, ← List.filter_filter, h, List.filter_cons_of_neg (by simp), List.filter_eq_self]
  intro other member
  have apart := (List.nodup_cons.mp remaining).1
  exact decide_eq_true fun same => apart (List.mem_map.mpr ⟨other, member, same⟩)

theorem missing_iff : missing hashing contents object = true ↔
    contents.objects.get? (object.key hashing) = none :=
  Option.isNone_iff_eq_none

/-- A bundle's object that is written stays in nobody's way. -/
theorem Importable.put (h : Importable hashing bundle contents) (member : object ∈ bundle.objects)
    (nameable : object.nameable = true)
    (fresh : contents.objects.get? (object.key hashing) = none) :
    Importable hashing bundle (contents.put (object.key hashing) (some object)) := by
  obtain ⟨compatible, manifests, snapshots, holds⟩ := h
  refine ⟨⟨?_, compatible.aliases⟩, Holds.put holds nameable fresh⟩
  intro other listed stored found
  rw [CatalogContents.put, Table.get?_insert] at found
  split at found
  · next same =>
      cases found
      rw [List.inj_on_of_nodup_map bundle.objects_distinct listed member same]
  · exact compatible.objects other listed stored found

/-- Once the objects of a bundle are written, its aliases have definitions. -/
theorem targets_written (compatible : Compatible hashing bundle contents)
    (holds : contents.Holds hashing manifests snapshots)
    (written : bundle.objects.filter (missing hashing contents) = []) (name : String)
    (digest : Digest) (listed : bundle.aliases.get? name = some digest) :
    (name, digest) ∈ manifests.map fun manifest => manifest.key hashing := by
  obtain ⟨manifest, member, key⟩ := List.mem_map.mp (bundle.targets name digest listed)
  have here : CatalogObject.manifest manifest ∈ bundle.objects :=
    List.mem_append_left _ (List.mem_map_of_mem member)
  have present : contents.objects.get? (.manifest (manifest.key hashing)) ≠ none := fun absent =>
    List.filter_eq_nil_iff.mp written _ here (missing_iff.mpr absent)
  obtain ⟨stored, found⟩ := Option.ne_none_iff_exists'.mp present
  rw [compatible.objects _ here stored found] at found
  obtain ⟨object, same, _, ⟨other, listed, rfl⟩ | ⟨snapshot, _, rfl⟩⟩ := holds.get?_iff.mp found
  · cases same
    exact List.mem_map.mpr ⟨manifest, listed, key⟩
  · cases same

theorem Importable.replaced (h : Importable hashing bundle contents)
    (written : bundle.objects.filter (missing hashing contents) = []) :
    Importable hashing bundle
      { contents with aliasDocument := some bundle.aliases.sortKeys } := by
  obtain ⟨compatible, manifests, snapshots, holds⟩ := h
  refine ⟨⟨compatible.objects, ?_⟩, manifests, snapshots, holds.manifestObjects,
    holds.snapshotObjects, holds.nameable, ?_⟩
  · intro name digest found
    rw [← get?_sortKeys]
    exact found
  · intro name digest found
    refine targets_written compatible holds written name digest ?_
    rw [← get?_sortKeys]
    exact found

theorem all_of_sortKeys {aliases : Table String Digest} :
    (aliases.entries.all fun entry => (aliases.sortKeys.get? entry.1).isSome) = true := by
  rw [List.all_eq_true]
  rintro ⟨name, digest⟩ member
  rw [get?_sortKeys, Table.mem_entries_iff.mp member]
  rfl

/-- After each write, the others are to do. -/
theorem importTodo_resumable : Resumable (CatalogWrite.perform hashing backend)
    (importTodo hashing backend bundle) (Importable hashing bundle) := by
  intro contents step rest after importable todo performed
  rw [importTodo] at todo
  cases pending : bundle.objects.filter (missing hashing contents) with
  | cons object others =>
      rw [pending] at todo
      cases todo
      have listed : object ∈ bundle.objects.filter (missing hashing contents) :=
        pending ▸ List.mem_cons_self
      have member := List.mem_of_mem_filter listed
      have fresh := missing_iff.mp (List.mem_filter.mp listed).2
      rcases CatalogContents.createImmutable_cases hashing backend object (some object)
          contents with ⟨_, nameable, created⟩ | ⟨stored, _⟩ | ⟨error, refused⟩
      · rw [CatalogWrite.perform, created] at performed
        cases performed
        refine ⟨importable.put member nameable fresh, ?_⟩
        rw [importTodo]
        have others_ : bundle.objects.filter (missing hashing
            (contents.put (object.key hashing) (some object))) = others :=
          filter_missing_insert bundle.objects_distinct pending
        rw [others_]
        rfl
      · rw [fresh] at stored
        cases stored
      · rw [CatalogWrite.perform, refused] at performed
        cases performed
  | nil =>
      rw [pending] at todo
      simp only [List.map_nil, List.nil_append] at todo
      split at todo
      · cases todo
      · cases todo
        obtain rfl := replaceAliases_eq_ok performed
        refine ⟨importable.replaced pending, ?_⟩
        rw [importTodo]
        have none_ : bundle.objects.filter (missing hashing
            { contents with aliasDocument := some bundle.aliases.sortKeys }) = [] := pending
        rw [none_, List.map_nil, List.nil_append]
        exact if_pos all_of_sortKeys

end Steps

/-! ## Imports -/

section Imports

variable {hashing : Hashing} (backend : CatalogBackend) {bundle : CatalogBundle hashing}
  {contents : CatalogContents}

/-- An import into a catalog that has nothing in its way writes what there is to do. -/
theorem import_of_importable (h : Importable hashing bundle contents) :
    (∃ plan, importCatalog hashing backend bundle contents =
        ((serve (CatalogWrite.perform hashing backend)
            (importTodo hashing backend bundle contents) contents).1,
          (serve (CatalogWrite.perform hashing backend)
            (importTodo hashing backend bundle contents) contents).2.map fun _ => plan)) ∧
      ∀ requests, interruptedImport hashing backend bundle requests contents =
        (serve (CatalogRequest.perform hashing backend)
          (((importTodo hashing backend bundle contents).flatMap
            (CatalogWrite.requests backend)).take requests) contents).1 := by
  rcases acceptedPlan_cases hashing backend bundle contents with
    ⟨_, plan, accepted, writes⟩ | ⟨refused, _⟩
  · refine ⟨⟨plan, ?_⟩, fun requests => ?_⟩
    · rw [importCatalog, accepted]
      simp only [importRequests, writes,
        (CatalogWrite.implements hashing backend).serve_flatMap]
    · rw [interruptedImport, accepted]
      simp only [importRequests, writes]
  · exact absurd h refused

/-- Any other import leaves the catalog as it is. -/
theorem import_of_not_importable (h : ¬ Importable hashing bundle contents) :
    (∃ error, importCatalog hashing backend bundle contents = (contents, .error error)) ∧
      ∀ requests, interruptedImport hashing backend bundle requests contents = contents := by
  rcases acceptedPlan_cases hashing backend bundle contents with
    ⟨importable, _⟩ | ⟨_, error, refused⟩
  · exact absurd importable h
  · refine ⟨⟨error, ?_⟩, fun requests => ?_⟩
    · rw [importCatalog, refused]
    · rw [interruptedImport, refused]

/-- Every object can be read: none has been opened and not closed. -/
def CatalogContents.Whole (contents : CatalogContents) : Prop :=
  ∀ key, contents.objects.get? key ≠ some none

theorem Importable.whole (h : Importable hashing bundle contents) : contents.Whole := by
  obtain ⟨_, manifests, snapshots, holds⟩ := h
  exact holds.whole

/-- An import that is stopped is between two writes, or within a creation in place. -/
theorem interrupted_cases (h : Importable hashing bundle contents) (requests : Nat) :
    (∃ count, interruptedImport hashing backend bundle requests contents =
      (serve (CatalogWrite.perform hashing backend)
        ((importTodo hashing backend bundle contents).take count) contents).1) ∨
    ∃ (count : Nat) (object : CatalogObject),
      interruptedImport hashing backend bundle requests contents =
      (serve (CatalogWrite.perform hashing backend)
        ((importTodo hashing backend bundle contents).take count) contents).1.put
          (object.key hashing) none ∧
      (serve (CatalogWrite.perform hashing backend)
        ((importTodo hashing backend bundle contents).take count) contents).1.objects.get?
          (object.key hashing) = none := by
  rw [(import_of_importable backend h).2 requests]
  rcases (CatalogWrite.implements hashing backend).serve_take_flatMap
      (importTodo hashing backend bundle contents) requests contents with
    ⟨count, same⟩ | ⟨done, step, rest, count, s, split, some_, part, served, same⟩
  · exact .inl ⟨count, same⟩
  · have before : (serve (CatalogWrite.perform hashing backend)
        ((importTodo hashing backend bundle contents).take done.length) contents).1 = s := by
      rw [split, List.take_left, served]
    rcases step with object | ⟨aliases, expectedVersion⟩
    · rw [CatalogWrite.requests] at part same
      split at part
      · next inPlace =>
          obtain rfl : count = 1 := by
            simp only [List.length_cons, List.length_nil] at part
            omega
          rw [if_pos inPlace] at same
          have opening : (serve (CatalogRequest.perform hashing backend)
              ([CatalogRequest.openObject object, .closeObject object].take 1) s).1 = s ∨
              s.objects.get? (object.key hashing) = none ∧
              (serve (CatalogRequest.perform hashing backend)
                ([CatalogRequest.openObject object, .closeObject object].take 1) s).1 =
                s.put (object.key hashing) none := by
            rw [List.take_succ_cons, List.take_zero]
            rcases CatalogContents.createImmutable_cases hashing backend object none s with
              ⟨fresh, _, opened⟩ | ⟨_, opened⟩ | ⟨error, refused⟩
            · have performed : CatalogRequest.perform hashing backend (.openObject object) s =
                  .ok (s.put (object.key hashing) none) := opened
              rw [serve_cons_ok performed]
              exact .inr ⟨fresh, rfl⟩
            · have performed : CatalogRequest.perform hashing backend (.openObject object) s =
                  .ok s := opened
              rw [serve_cons_ok performed]
              exact .inl rfl
            · have performed : CatalogRequest.perform hashing backend (.openObject object) s =
                  .error error := refused none
              rw [serve_cons_error performed]
              exact .inl rfl
          rcases opening with unchanged | ⟨fresh, opened⟩
          · exact .inl ⟨done.length, by rw [same, unchanged, before]⟩
          · refine .inr ⟨done.length, object, ?_, ?_⟩
            · rw [same, opened, before]
            · rw [before, fresh]
      · simp only [List.length_cons, List.length_nil] at part
        omega
    · simp only [CatalogWrite.requests, List.length_cons, List.length_nil] at part
      omega

/-- An import that is stopped and run again ends in the same catalog exactly if it was not stopped
while an object was open. -/
theorem import_resumed_iff (bundle : CatalogBundle hashing) (contents : CatalogContents)
    (requests : Nat) :
    (importCatalog hashing backend bundle
        (interruptedImport hashing backend bundle requests contents)).1 =
        (importCatalog hashing backend bundle contents).1 ↔
      (contents.Whole → (interruptedImport hashing backend bundle requests contents).Whole) := by
  by_cases importable : Importable hashing bundle contents
  · obtain ⟨⟨plan, imported⟩, _⟩ := import_of_importable backend importable
    have resume := (@importTodo_resumable hashing backend bundle).resume importable
    rcases interrupted_cases backend importable requests with
      ⟨count, stopped⟩ | ⟨count, object, stopped, fresh⟩
    · obtain ⟨again, resumed⟩ := resume count
      obtain ⟨⟨plan', imported'⟩, _⟩ := import_of_importable backend again
      rw [stopped]
      refine iff_of_true ?_ fun _ => again.whole
      rw [imported', imported, resumed]
    · have broken : ¬ (interruptedImport hashing backend bundle requests contents).Whole := by
        intro whole
        refine whole (object.key hashing) ?_
        rw [stopped, CatalogContents.put, Table.get?_insert_self]
      have stuck : ¬ Importable hashing bundle
          (interruptedImport hashing backend bundle requests contents) :=
        fun importable => broken importable.whole
      refine iff_of_false ?_ fun h => broken (h importable.whole)
      obtain ⟨⟨error, refused⟩, _⟩ := import_of_not_importable backend stuck
      rw [refused, imported]
      intro same
      have full := (resume (importTodo hashing backend bundle contents).length).1
      rw [List.take_length, ← same] at full
      exact broken full.whole
  · obtain ⟨⟨error, refused⟩, unchanged⟩ := import_of_not_importable backend importable
    rw [unchanged]
    exact iff_of_true rfl id

/-- What a catalog had, it still has. -/
structure Keeps (before after : CatalogContents) : Prop where
  objects : ∀ key stored, before.objects.get? key = some stored →
    after.objects.get? key = some stored
  aliases : ∀ name digest, before.aliases.get? name = some digest →
    after.aliases.get? name = some digest

theorem Keeps.put {before after : CatalogContents} (h : Keeps before after)
    {key : CatalogObjectKey} (fresh : after.objects.get? key = none)
    (stored : Option CatalogObject) : Keeps before (after.put key stored) := by
  refine ⟨fun other found here => ?_, h.aliases⟩
  rw [CatalogContents.put, Table.get?_insert_ne]
  · exact h.objects other found here
  · rintro rfl
    rw [h.objects _ found here] at fresh
    cases fresh

theorem mem_importTodo {step : CatalogWrite}
    (h : step ∈ importTodo hashing backend bundle contents) :
    (∃ object ∈ bundle.objects, step = .create object) ∨
      bundle.aliases.entries ≠ [] ∧
        step = .replaceAliases bundle.aliases (contents.aliasDocument.map backend.version) := by
  rcases List.mem_append.mp h with created | replaced
  · obtain ⟨object, member, rfl⟩ := List.mem_map.mp created
    exact .inl ⟨object, List.mem_of_mem_filter member, rfl⟩
  · split at replaced
    · cases replaced
    · next incomplete =>
        refine .inr ⟨fun none_ => incomplete ?_, List.mem_singleton.mp replaced⟩
        rw [none_]
        rfl

/-- What a write of an import can do. -/
theorem perform_cases {step : CatalogWrite} {before after : CatalogContents}
    (member : step ∈ importTodo hashing backend bundle contents)
    (performed : step.perform hashing backend before = .ok after) :
    (∃ object ∈ bundle.objects, before.objects.get? (object.key hashing) = none ∧
        after = before.put (object.key hashing) (some object)) ∨
      after = before ∨
      bundle.aliases.entries ≠ [] ∧
        after = { before with aliasDocument := some bundle.aliases.sortKeys } := by
  rcases mem_importTodo backend member with ⟨object, listed, rfl⟩ | ⟨some_, rfl⟩
  · rcases CatalogContents.createImmutable_cases hashing backend object (some object) before with
      ⟨fresh, _, created⟩ | ⟨_, created⟩ | ⟨error, refused⟩
    · rw [CatalogWrite.perform, created] at performed
      cases performed
      exact .inl ⟨object, listed, fresh, rfl⟩
    · rw [CatalogWrite.perform, created] at performed
      cases performed
      exact .inr (.inl rfl)
    · rw [CatalogWrite.perform, refused] at performed
      cases performed
  · exact .inr (.inr ⟨some_, replaceAliases_eq_ok performed⟩)

/-- An import keeps every definition, snapshot and alias of a catalog, wherever it is stopped. -/
theorem interrupted_keeps (bundle : CatalogBundle hashing) (contents : CatalogContents)
    (requests : Nat) :
    Keeps contents (interruptedImport hashing backend bundle requests contents) := by
  by_cases importable : Importable hashing bundle contents
  · have kept : ∀ count,
        Keeps contents (serve (CatalogWrite.perform hashing backend)
          ((importTodo hashing backend bundle contents).take count) contents).1 ∧
        ∀ name digest, (serve (CatalogWrite.perform hashing backend)
            ((importTodo hashing backend bundle contents).take count)
              contents).1.aliases.get? name = some digest →
          bundle.aliases.get? name = some digest := by
      intro count
      refine @serve_invariant _ _ _ _ _ contents (fun s => Keeps contents s ∧
        ∀ name digest, s.aliases.get? name = some digest →
          bundle.aliases.get? name = some digest) ?_
        ⟨⟨fun _ _ => id, fun _ _ => id⟩, importable.1.aliases⟩
      intro step member before after ⟨kept, covered⟩ performed
      rcases perform_cases backend (List.mem_of_mem_take member) performed with
        ⟨object, _, fresh, rfl⟩ | rfl | ⟨_, rfl⟩
      · exact ⟨kept.put fresh _, covered⟩
      · exact ⟨kept, covered⟩
      · refine ⟨⟨kept.objects, fun name digest found => ?_⟩, fun name digest found => ?_⟩
        · refine (get?_sortKeys bundle.aliases name).trans ?_
          exact covered name digest (kept.aliases name digest found)
        · rw [← get?_sortKeys]
          exact found
    rcases interrupted_cases backend importable requests with
      ⟨count, stopped⟩ | ⟨count, object, stopped, fresh⟩
    · rw [stopped]
      exact (kept count).1
    · rw [stopped]
      exact (kept count).1.put fresh none
  · rw [(import_of_not_importable backend importable).2]
    exact ⟨fun _ _ => id, fun _ _ => id⟩

/-- A whole import is one that is not stopped. -/
theorem import_eq_interrupted (bundle : CatalogBundle hashing) (contents : CatalogContents) :
    ∃ requests, (importCatalog hashing backend bundle contents).1 =
      interruptedImport hashing backend bundle requests contents := by
  by_cases importable : Importable hashing bundle contents
  · obtain ⟨⟨plan, imported⟩, interrupted⟩ := import_of_importable backend importable
    refine ⟨((importTodo hashing backend bundle contents).flatMap
      (CatalogWrite.requests backend)).length, ?_⟩
    rw [imported, interrupted, List.take_length,
      (CatalogWrite.implements hashing backend).serve_flatMap]
  · obtain ⟨⟨error, refused⟩, unchanged⟩ := import_of_not_importable backend importable
    exact ⟨0, by rw [refused, unchanged]⟩

theorem import_twice (bundle : CatalogBundle hashing) (contents : CatalogContents) :
    (importCatalog hashing backend bundle
        (importCatalog hashing backend bundle contents).1).1 =
      (importCatalog hashing backend bundle contents).1 := by
  obtain ⟨requests, finished⟩ := import_eq_interrupted backend bundle contents
  rw [finished]
  refine ((import_resumed_iff backend bundle contents requests).mpr fun whole => ?_).trans finished
  rw [← finished]
  by_cases importable : Importable hashing bundle contents
  · obtain ⟨⟨plan, imported⟩, _⟩ := import_of_importable backend importable
    have full := ((@importTodo_resumable hashing backend bundle).resume importable
      (importTodo hashing backend bundle contents).length).1
    rw [List.take_length] at full
    rw [imported]
    exact full.whole
  · obtain ⟨⟨error, refused⟩, _⟩ := import_of_not_importable backend importable
    rw [refused]
    exact whole

/-- An import that has succeeded succeeds again. -/
theorem import_again {plan : CatalogImportPlan}
    (succeeded : (importCatalog hashing backend bundle contents).2 = .ok plan) :
    ∃ plan, (importCatalog hashing backend bundle
      (importCatalog hashing backend bundle contents).1).2 = .ok plan := by
  by_cases importable : Importable hashing bundle contents
  · obtain ⟨⟨found, imported⟩, _⟩ := import_of_importable backend importable
    obtain ⟨again, resumed⟩ := (@importTodo_resumable hashing backend bundle).resume importable
      (importTodo hashing backend bundle contents).length
    rw [List.take_length] at again resumed
    obtain ⟨⟨plan', imported'⟩, _⟩ := import_of_importable backend again
    rw [imported] at succeeded ⊢
    rw [imported', resumed]
    cases served : (serve (CatalogWrite.perform hashing backend)
        (importTodo hashing backend bundle contents) contents).2 with
    | ok _ => exact ⟨plan', rfl⟩
    | error error =>
        rw [served] at succeeded
        cases succeeded
  · obtain ⟨⟨error, refused⟩, _⟩ := import_of_not_importable backend importable
    rw [refused] at succeeded
    cases succeeded

/-! ## The round trip -/

/-- Neither objects nor aliases; there may be an alias document without entries. -/
structure CatalogContents.Empty (contents : CatalogContents) : Prop where
  objects : ∀ key, contents.objects.get? key = none
  aliases : ∀ name, contents.aliases.get? name = none

theorem importTodo_able (nameable : ∀ object ∈ bundle.objects, object.nameable = true)
    (contents : CatalogContents) (step : CatalogWrite) (rest : List CatalogWrite)
    (importable : Importable hashing bundle contents)
    (todo : importTodo hashing backend bundle contents = step :: rest) :
    ∃ after, step.perform hashing backend contents = .ok after := by
  rw [importTodo] at todo
  cases pending : bundle.objects.filter (missing hashing contents) with
  | cons object others =>
      rw [pending] at todo
      cases todo
      have listed : object ∈ bundle.objects.filter (missing hashing contents) :=
        pending ▸ List.mem_cons_self
      exact ⟨_, CatalogContents.createImmutable_fresh
        (nameable object (List.mem_of_mem_filter listed)) _
        (missing_iff.mp (List.mem_filter.mp listed).2)⟩
  | nil =>
      rw [pending] at todo
      simp only [List.map_nil, List.nil_append] at todo
      split at todo
      · cases todo
      · cases todo
        obtain ⟨compatible, manifests, snapshots, holds⟩ := importable
        obtain ⟨catalog, loaded, _, entries⟩ := holds.loadState
        have values : catalog.manifests.entries.map Prod.snd = manifests := by
          rw [entries, List.map_map]
          exact List.map_id _
        obtain ⟨updated, created⟩ := DefinitionCatalog.create_isOk_iff.mpr
          ⟨holds.distinctManifests, targets_written compatible holds pending⟩
        rw [CatalogWrite.perform, CatalogContents.replaceAliases, loaded]
        simp only [bind, Except.bind, values, created]
        split
        · exact ⟨_, rfl⟩
        · exact ⟨_, if_neg (not_not.mpr rfl)⟩

/-- What an import into an empty catalog leaves. -/
theorem import_into_empty (empty : contents.Empty)
    (nameable : ∀ object ∈ bundle.objects, object.nameable = true) :
    ∃ after plan, importCatalog hashing backend bundle contents = (after, .ok plan) ∧
      (∀ name, after.aliases.get? name = bundle.aliases.get? name) ∧
      (after.aliasDocument.isSome ↔
        bundle.aliases.entries ≠ [] ∨ contents.aliasDocument.isSome) ∧
      ∃ manifests snapshots, after.Holds hashing manifests snapshots ∧
        (∀ manifest, manifest ∈ manifests ↔ manifest ∈ bundle.manifests) ∧
        ∀ snapshot, snapshot ∈ snapshots ↔ snapshot ∈ bundle.environmentSnapshots := by
  have noObjects : contents.manifestObjects = [] := by
    rw [List.eq_nil_iff_forall_not_mem]
    rintro ⟨key, stored⟩ member
    rw [CatalogContents.mem_manifestObjects, empty.objects] at member
    cases member
  have noSnapshots : contents.snapshotObjects = [] := by
    rw [List.eq_nil_iff_forall_not_mem]
    rintro ⟨digest, stored⟩ member
    rw [CatalogContents.mem_snapshotObjects, empty.objects] at member
    cases member
  have start : Importable hashing bundle contents := by
    refine ⟨⟨fun object _ stored found => ?_, fun name digest found => ?_⟩, [], [], noObjects,
      noSnapshots, fun _ none_ => absurd none_ List.not_mem_nil, fun name digest found => ?_⟩
    · rw [empty.objects] at found
      cases found
    · rw [empty.aliases] at found
      cases found
    · rw [empty.aliases] at found
      cases found
  obtain ⟨after, served, ⟨compatible, manifests, snapshots, holds⟩, finished⟩ :=
    importTodo_resumable.complete (importTodo_able backend nameable) start
  obtain ⟨⟨plan, imported⟩, _⟩ := import_of_importable backend start
  have invariant : (∀ key stored, after.objects.get? key = some stored →
        ∃ object ∈ bundle.objects, stored = some object) ∧
      (contents.aliasDocument.isSome → after.aliasDocument.isSome) ∧
      (bundle.aliases.entries = [] → after.aliasDocument = contents.aliasDocument) := by
    have := @serve_invariant _ _ _ (CatalogWrite.perform hashing backend)
      (importTodo hashing backend bundle contents) contents
      (fun s => (∀ key stored, s.objects.get? key = some stored →
          ∃ object ∈ bundle.objects, stored = some object) ∧
        (contents.aliasDocument.isSome → s.aliasDocument.isSome) ∧
        (bundle.aliases.entries = [] → s.aliasDocument = contents.aliasDocument)) ?_
      ⟨fun key stored found => absurd ((empty.objects key).symm.trans found) nofun, id,
        fun _ => rfl⟩
    · rw [served] at this
      exact this
    · intro step member before next ⟨listed, some_, none_⟩ performed
      rcases perform_cases backend member performed with
        ⟨object, here, fresh, rfl⟩ | rfl | ⟨nonempty, rfl⟩
      · refine ⟨fun key stored found => ?_, some_, none_⟩
        rw [CatalogContents.put, Table.get?_insert] at found
        split at found
        · cases found
          exact ⟨object, here, rfl⟩
        · exact listed key stored found
      · exact ⟨listed, some_, none_⟩
      · exact ⟨listed, fun _ => rfl, fun none_ => absurd none_ nonempty⟩
  obtain ⟨listed, kept, untouched⟩ := invariant
  rw [importTodo, List.append_eq_nil_iff, List.map_eq_nil_iff] at finished
  obtain ⟨written, replaced⟩ := finished
  have named : (bundle.aliases.entries.all fun entry =>
      (after.aliases.get? entry.1).isSome) = true := by
    by_contra incomplete
    rw [if_neg incomplete] at replaced
    cases replaced
  have aliases : ∀ name, after.aliases.get? name = bundle.aliases.get? name := by
    intro name
    cases found : bundle.aliases.get? name with
    | none =>
        cases here : after.aliases.get? name with
        | none => rfl
        | some digest =>
            rw [compatible.aliases name digest here] at found
            cases found
    | some digest =>
        obtain ⟨digest', here⟩ := Option.isSome_iff_exists.mp
          (List.all_eq_true.mp named _ (Table.mem_entries_iff.mpr found))
        have same := compatible.aliases name digest' here
        rw [found] at same
        rw [here, same]
  have present : ∀ object ∈ bundle.objects,
      after.objects.get? (object.key hashing) = some (some object) := by
    intro object member
    have some_ : after.objects.get? (object.key hashing) ≠ none := fun absent =>
      List.filter_eq_nil_iff.mp written object member (missing_iff.mpr absent)
    obtain ⟨stored, found⟩ := Option.ne_none_iff_exists'.mp some_
    rw [found, compatible.objects object member stored found]
  refine ⟨after, plan, ?_, aliases, ⟨fun some_ => ?_, ?_⟩, manifests, snapshots, holds,
    fun manifest => ⟨fun member => ?_, fun member => ?_⟩,
    fun snapshot => ⟨fun member => ?_, fun member => ?_⟩⟩
  · rw [imported, served]
    rfl
  · by_cases none_ : bundle.aliases.entries = []
    · rw [untouched none_] at some_
      exact .inr some_
    · exact .inl none_
  · rintro (nonempty | some_)
    · obtain ⟨⟨name, digest⟩, member⟩ := List.exists_mem_of_ne_nil _ nonempty
      have found := (aliases name).trans (Table.mem_entries_iff.mp member)
      rw [CatalogContents.aliases] at found
      cases document : after.aliasDocument with
      | none =>
          rw [document] at found
          cases found
      | some aliases => rfl
    · exact kept some_
  · obtain ⟨object, here, same⟩ := listed _ _ (holds.get?_iff.mpr
      ⟨_, rfl, rfl, .inl ⟨manifest, member, rfl⟩⟩)
    rw [← Option.some.inj same] at here
    simpa [CatalogBundle.objects] using here
  · obtain ⟨object, same, _, ⟨other, here, rfl⟩ | ⟨other, here, rfl⟩⟩ := holds.get?_iff.mp
      (present (.manifest manifest) (by simp [CatalogBundle.objects, member]))
    · cases same
      exact here
    · cases same
  · obtain ⟨object, here, same⟩ := listed _ _ (holds.get?_iff.mpr
      ⟨_, rfl, rfl, .inr ⟨snapshot, member, rfl⟩⟩)
    rw [← Option.some.inj same] at here
    simpa [CatalogBundle.objects] using here
  · obtain ⟨object, same, _, ⟨other, here, rfl⟩ | ⟨other, here, rfl⟩⟩ := holds.get?_iff.mp
      (present (.snapshot snapshot) (by simp [CatalogBundle.objects, member]))
    · cases same
    · cases same
      exact here

theorem sort_eq_of_mem {κ α : Type} {f : α → κ} {le : κ → κ → Prop} [DecidableRel le]
    {xs ys : List α} (total : ∀ a b, le a b ∨ le b a)
    (trans : ∀ {a b c}, le a b → le b c → le a c) (antisymm : ∀ {a b}, le a b → le b a → a = b)
    (distinctXs : (xs.map f).Nodup) (distinctYs : (ys.map f).Nodup)
    (same : ∀ x, x ∈ xs ↔ x ∈ ys) :
    (xs.insertionSort fun a b => le (f a) (f b)) = ys.insertionSort fun a b => le (f a) (f b) := by
  have : Std.Total fun a b : α => le (f a) (f b) := ⟨fun a b => total (f a) (f b)⟩
  have : IsTrans α fun a b => le (f a) (f b) := ⟨fun _ _ _ => trans⟩
  have perm : xs.Perm ys :=
    (List.perm_ext_iff_of_nodup distinctXs.of_map distinctYs.of_map).mpr same
  have permXs := List.perm_insertionSort (fun a b => le (f a) (f b)) xs
  have permYs := List.perm_insertionSort (fun a b => le (f a) (f b)) ys
  refine List.Perm.eq_of_pairwise ?_ (List.pairwise_insertionSort (fun a b => le (f a) (f b)) _)
    (List.pairwise_insertionSort (fun a b => le (f a) (f b)) _)
    (permXs.trans (perm.trans permYs.symm))
  intro x y hx hy forward backward
  exact List.inj_on_of_nodup_map distinctXs (permXs.mem_iff.mp hx)
    ((same y).mpr (permYs.mem_iff.mp hy)) (antisymm forward backward)

theorem sortKeys_eq_of_get? {α : Type} {first second : Table String α}
    (same : ∀ name, first.get? name = second.get? name) : first.sortKeys = second.sortKeys :=
  Table.ext (@Table.sort_eq_of_lookups _ _ _ (· ≤ ·) _ _ _ le_total (@le_trans _ _)
    (@le_antisymm _ _) same)

/-- What is exported: the aliases, manifests and snapshots in order. -/
theorem exportCatalog_eq_ok_iff : exportCatalog hashing backend contents = .ok bundle ↔
    contents.aliasDocument.isSome = true ∧
      ∃ manifests snapshots, contents.Holds hashing manifests snapshots ∧
        bundle.aliases = contents.aliases.sortKeys ∧
        bundle.manifests = sortManifests hashing manifests ∧
        bundle.environmentSnapshots = sortSnapshots hashing snapshots := by
  have validated : ∀ {aliases : Table String Digest} {manifests snapshots},
      CatalogBundle.validate hashing aliases manifests snapshots = .ok bundle →
        bundle.aliases = aliases ∧ bundle.manifests = manifests ∧
          bundle.environmentSnapshots = snapshots := by
    intro aliases manifests snapshots h
    rw [CatalogBundle.validate] at h
    split at h
    · cases h
    · split at h
      · cases h
        exact ⟨rfl, rfl, rfl⟩
      · cases h
  constructor
  · intro h
    rw [exportCatalog, CatalogContents.load] at h
    cases document : contents.aliasDocument with
    | none =>
        rw [document] at h
        cases h
    | some aliases =>
        simp only [document] at h
        cases loaded : contents.loadState hashing with
        | error error =>
            rw [loaded] at h
            cases h
        | ok catalog =>
            cases listed : contents.listEnvironmentSnapshots hashing with
            | error error =>
                rw [loaded, listed] at h
                cases h
            | ok snapshots =>
                have holds := CatalogContents.holds_of_loaded loaded listed
                obtain ⟨catalog', loaded', aliases', _⟩ := holds.loadState
                rw [loaded] at loaded'
                cases loaded'
                rw [loaded, listed] at h
                rw [← aliases']
                exact ⟨rfl, _, snapshots, holds, validated h⟩
  · rintro ⟨some_, manifests, snapshots, holds, aliases, sortedManifests, sortedSnapshots⟩
    obtain ⟨catalog, loaded, aliases', entries⟩ := holds.loadState
    have values : catalog.manifests.entries.map Prod.snd = manifests := by
      rw [entries, List.map_map]
      exact List.map_id _
    have load : contents.load hashing backend = .ok catalog := by
      rw [CatalogContents.load]
      cases document : contents.aliasDocument with
      | none =>
          rw [document] at some_
          cases some_
      | some _ => exact loaded
    rw [exportCatalog, load, holds.listEnvironmentSnapshots]
    simp only [values, aliases', CatalogBundle.create, ← aliases, ← sortedManifests,
      ← sortedSnapshots]
    rw [CatalogBundle.validate]
    split
    · next error failed =>
        obtain ⟨found, created⟩ := bundle.valid
        rw [created] at failed
        cases failed
    · rw [dif_pos bundle.distinct]

/-- A bundle that was exported has valid names. -/
theorem nameable_of_export (exported : exportCatalog hashing backend contents = .ok bundle) :
    ∀ object ∈ bundle.objects, object.nameable = true := by
  obtain ⟨_, manifests, snapshots, holds, _, sorted, _⟩ :=
    (exportCatalog_eq_ok_iff backend).mp exported
  intro object member
  rcases List.mem_append.mp member with listed | listed
  · obtain ⟨manifest, here, rfl⟩ := List.mem_map.mp listed
    rw [sorted, sortManifests, (List.perm_insertionSort _ _).mem_iff] at here
    exact holds.nameable manifest here
  · obtain ⟨snapshot, here, rfl⟩ := List.mem_map.mp listed
    rfl

/-- A bundle that was exported and imported into an empty catalog can be exported again exactly
if that leaves an alias document. -/
theorem round_trip {source : CatalogBackend} {exported : CatalogContents}
    (exports : exportCatalog hashing source exported = .ok bundle) (empty : contents.Empty) :
    ∃ after plan, importCatalog hashing backend bundle contents = (after, .ok plan) ∧
      (exportCatalog hashing backend after = .ok bundle ↔
        bundle.aliases.entries ≠ [] ∨ contents.aliasDocument.isSome = true) := by
  obtain ⟨after, plan, imported, aliases, document, manifests, snapshots, holds, sameManifests,
    sameSnapshots⟩ := import_into_empty backend empty (nameable_of_export source exports)
  obtain ⟨_, oldManifests, oldSnapshots, old, oldAliases, sortedManifests, sortedSnapshots⟩ :=
    (exportCatalog_eq_ok_iff source).mp exports
  refine ⟨after, plan, imported, ?_⟩
  rw [← document, exportCatalog_eq_ok_iff]
  refine ⟨And.left, fun some_ => ⟨some_, manifests, snapshots, holds, ?_, ?_, ?_⟩⟩
  · rw [oldAliases]
    refine sortKeys_eq_of_get? fun name => ?_
    rw [aliases name, oldAliases, get?_sortKeys]
  · rw [sortedManifests]
    refine sort_eq_of_mem DefinitionKey.Le.total DefinitionKey.Le.trans DefinitionKey.Le.antisymm
      old.distinctManifests holds.distinctManifests fun manifest => ?_
    rw [sameManifests, sortedManifests, sortManifests, (List.perm_insertionSort _ _).mem_iff]
  · rw [sortedSnapshots]
    refine @sort_eq_of_mem Digest _
      (fun snapshot : ExecutionEnvironmentSnapshot => snapshot.snapshotDigest hashing)
      (fun a b => a.text ≤ b.text) _ _ _ (fun a b => le_total _ _) (@fun _ _ _ => le_trans)
      (fun forward backward => Digest.text_inj.mp (le_antisymm forward backward))
      old.distinctSnapshots holds.distinctSnapshots fun snapshot => ?_
    rw [sameSnapshots, sortedSnapshots, sortSnapshots, (List.perm_insertionSort _ _).mem_iff]

end Imports

/-- Exported bundles come back if an alias document is left, importing twice is importing once, a
conflict is refused before anything is written, nothing that a catalog has is changed, and a
stopped import resumes unless it was stopped within a creation in place. -/
theorem catalog_migration (hashing : Hashing) (backend : CatalogBackend) :
    (∀ source exported bundle destination, exportCatalog hashing source exported = .ok bundle →
      destination.Empty →
      ∃ after plan, importCatalog hashing backend bundle destination = (after, .ok plan) ∧
        (exportCatalog hashing backend after = .ok bundle ↔
          bundle.aliases.entries ≠ [] ∨ destination.aliasDocument.isSome = true)) ∧
    (∀ bundle contents, let (once, result) := importCatalog hashing backend bundle contents
      (importCatalog hashing backend bundle once).1 = once ∧
        ∀ plan, result = .ok plan →
          ∃ plan, (importCatalog hashing backend bundle once).2 = .ok plan) ∧
    (∀ bundle contents, ¬ Compatible hashing bundle contents →
      ∃ error, importCatalog hashing backend bundle contents = (contents, .error error)) ∧
    (∀ bundle contents requests,
      Keeps contents (interruptedImport hashing backend bundle requests contents)) ∧
    ∀ bundle contents requests,
      (importCatalog hashing backend bundle
          (interruptedImport hashing backend bundle requests contents)).1 =
          (importCatalog hashing backend bundle contents).1 ↔
        (contents.Whole →
          (interruptedImport hashing backend bundle requests contents).Whole) :=
  ⟨fun _ _ _ _ exports empty => round_trip backend exports empty,
    fun bundle contents => ⟨import_twice backend bundle contents, fun _ => import_again backend⟩,
    fun _ _ incompatible =>
      (import_of_not_importable backend fun importable => incompatible importable.1).1,
    interrupted_keeps backend, import_resumed_iff backend⟩

/-! ## A catalog without aliases, and an import that is stopped -/

section Examples

def oneDigest : Digest where
  text := "0000000000000000000000000000000000000000000000000000000000000000"
  length := by decide
  hex := by decide

def oneHash : Hashing := ⟨fun _ => oneDigest⟩

def invoicesManifest : DefinitionManifest where
  logicalName := "invoices"
  requiredEngineWorkflowAbi := "justflow.workflow.v1"
  workflow := []
  deterministicPolicy := ⟨[], []⟩
  providerContracts := []
  contracts := []
  evaluators := []
  children := []
  format := rfl

def files : CatalogBackend := .localFiles "definitions" fun _ => ""

/-- The alias of the only definition was withdrawn. -/
def withdrawn : CatalogContents :=
  ⟨some .empty, Table.empty.insert (.manifest ("invoices", oneDigest))
    (some (.manifest invoicesManifest))⟩

def withdrawnBundle : CatalogBundle oneHash :=
  ⟨.empty, [invoicesManifest], [], ⟨_, rfl⟩, List.nodup_nil⟩

def invoicesBundle : CatalogBundle oneHash :=
  ⟨Table.empty.insert "invoices" oneDigest, [invoicesManifest], [], ⟨_, rfl⟩, List.nodup_nil⟩

/-- The catalog without aliases is lost, and the import that is stopped cannot be resumed. -/
theorem migration_incomplete :
    exportCatalog oneHash files withdrawn = .ok withdrawnBundle ∧
      exportCatalog oneHash files
          (importCatalog oneHash files withdrawnBundle .empty).1 =
        .error (.catalog (.invalid ("Definition catalog is not published in 'local'; " ++
          "run 'justflow definitions publish' first"))) ∧
      (importCatalog oneHash files invoicesBundle
          (interruptedImport oneHash files invoicesBundle 1 .empty)).1.aliasDocument = none ∧
      (importCatalog oneHash files invoicesBundle .empty).1.aliasDocument =
        some (Table.empty.insert "invoices" oneDigest) := by
  refine ⟨rfl, rfl, rfl, rfl⟩

end Examples

end Justflow
