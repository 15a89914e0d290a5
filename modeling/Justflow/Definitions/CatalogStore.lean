import Justflow.Definitions.Catalog
import Justflow.Library.Worklists

/-!
# The catalog store

`DefinitionCatalogStore` keeps manifests and snapshots as immutable objects and the active aliases
in a document of their own.  An object that its backend writes in place has no readable text from
when its file is opened until it is closed; a catalog with such an object does not load.
-/

namespace Justflow

/-- The content of a snapshot, without optional fields that are not set. -/
structure ExecutionEnvironmentSnapshot where
  content : List (String × JsonValue)
  deriving DecidableEq

def ExecutionEnvironmentSnapshot.snapshotDigest (hashing : Hashing)
    (self : ExecutionEnvironmentSnapshot) : Digest :=
  hashing.sha256 (Hashing.canonicalText (.obj self.content))

/-- `manifests/<name>/<digest>.json` and `environments/<digest>.json`. -/
inductive CatalogObjectKey where
  | manifest (key : DefinitionKey)
  | snapshot (digest : Digest)
  deriving DecidableEq

inductive CatalogObject where
  | manifest (manifest : DefinitionManifest)
  | snapshot (snapshot : ExecutionEnvironmentSnapshot)
  deriving DecidableEq

/-- What a backend holds.  The text of an object is identified with the object; an object that is
being written has none. -/
structure CatalogContents where
  aliasDocument : Option (Table String Digest)
  objects : Table CatalogObjectKey (Option CatalogObject)

structure CatalogBackend where
  provider : String
  /-- Objects are created by opening their file and writing into it. -/
  inPlace : Bool
  /-- The version of an alias document: its SHA-256 or its entity tag. -/
  version : Table String Digest → String
  /-- The texts of a creation and of a replacement that find something else under their key. -/
  createConflict : String → String
  swapConflict : String → String

def CatalogBackend.localFiles (root : String) (version : Table String Digest → String) :
    CatalogBackend where
  provider := "local"
  inPlace := true
  version := version
  createConflict key := s!"Immutable catalog object '{root}/{key}' has changed"
  swapConflict key := s!"Catalog object '{root}/{key}' changed while it was being updated"

def CatalogBackend.s3 (objectPrefix : String) (version : Table String Digest → String) :
    CatalogBackend where
  provider := "s3"
  inPlace := false
  version := version
  createConflict key := s!"S3 catalog object '{objectPrefix}{key}' changed concurrently"
  swapConflict key := s!"S3 catalog object '{objectPrefix}{key}' changed concurrently"

def aliasesFilename : String := "aliases.json"

def validPathSegment (value : String) : Bool :=
  value ≠ "" && value ≠ "." && value ≠ ".." &&
    value.toList.all fun c => c ≠ '/' && c ≠ '\\' && c ≠ Char.ofNat 0

def CatalogObjectKey.text : CatalogObjectKey → String
  | .manifest (logicalName, digest) => s!"manifests/{logicalName}/{digest.text}.json"
  | .snapshot digest => s!"environments/{digest.text}.json"

def ExecutionEnvironmentSnapshot.key (hashing : Hashing) (self : ExecutionEnvironmentSnapshot) :
    CatalogObjectKey :=
  .snapshot (self.snapshotDigest hashing)

namespace CatalogObject

def key (hashing : Hashing) : CatalogObject → CatalogObjectKey
  | .manifest definition => .manifest (definition.key hashing)
  | .snapshot environment => environment.key hashing

/-- The segments of the key of an object are valid; those that are digests always are. -/
def nameable : CatalogObject → Bool
  | .manifest definition => validPathSegment definition.logicalName
  | .snapshot _ => true

def checkKey : CatalogObject → Except CatalogError Unit
  | .manifest definition =>
      if validPathSegment definition.logicalName then .ok ()
      else .error (.invalid s!"Invalid catalog workflow name '{definition.logicalName}'")
  | .snapshot _ => .ok ()

theorem checkKey_eq (object : CatalogObject) :
    object.checkKey = .ok () ∧ object.nameable = true ∨
      ∃ error, object.checkKey = .error error ∧ object.nameable = false := by
  cases object with
  | snapshot environment => exact .inl ⟨rfl, rfl⟩
  | manifest definition =>
      rw [checkKey, nameable]
      cases valid : validPathSegment definition.logicalName with
      | true => exact .inl ⟨rfl, rfl⟩
      | false => exact .inr ⟨_, rfl, rfl⟩

end CatalogObject

def parseManifest (hashing : Hashing) (key : DefinitionKey) (stored : Option CatalogObject) :
    Except CatalogError DefinitionManifest :=
  match stored with
  | some (.manifest manifest) => do
      CatalogObject.checkKey (.manifest manifest)
      if key = manifest.key hashing then .ok manifest
      else .error (.invalid ("Definition catalog path mismatch: " ++
        s!"'{(CatalogObjectKey.manifest key).text}' should be " ++
        s!"'{(CatalogObjectKey.manifest (manifest.key hashing)).text}'"))
  | _ => .error (.invalid s!"Invalid definition manifest '{(CatalogObjectKey.manifest key).text}'")

def parseEnvironmentSnapshot (hashing : Hashing) (digest : Digest)
    (stored : Option CatalogObject) : Except CatalogError ExecutionEnvironmentSnapshot :=
  match stored with
  | some (.snapshot snapshot) =>
      if digest = snapshot.snapshotDigest hashing then .ok snapshot
      else .error (.invalid ("Execution environment snapshot path mismatch: " ++
        s!"'{(CatalogObjectKey.snapshot digest).text}' should be " ++
        s!"'{(snapshot.key hashing).text}'"))
  | _ => .error (.invalid
      s!"Invalid execution environment snapshot '{(CatalogObjectKey.snapshot digest).text}'")

namespace CatalogContents

variable (hashing : Hashing) (contents : CatalogContents)

def empty : CatalogContents := ⟨none, .empty⟩

def aliases : Table String Digest :=
  contents.aliasDocument.getD .empty

def manifestObjects : List (DefinitionKey × Option CatalogObject) :=
  contents.objects.entries.filterMap fun entry =>
    match entry.1 with
    | .manifest key => some (key, entry.2)
    | .snapshot _ => none

def snapshotObjects : List (Digest × Option CatalogObject) :=
  contents.objects.entries.filterMap fun entry =>
    match entry.1 with
    | .manifest _ => none
    | .snapshot digest => some (digest, entry.2)

def listManifests : Except CatalogError (List DefinitionManifest) :=
  contents.manifestObjects.mapM fun entry => parseManifest hashing entry.1 entry.2

def listEnvironmentSnapshots : Except CatalogError (List ExecutionEnvironmentSnapshot) :=
  contents.snapshotObjects.mapM fun entry => parseEnvironmentSnapshot hashing entry.1 entry.2

def loadState : Except CatalogError (DefinitionCatalog hashing) := do
  let manifests ← contents.listManifests hashing
  DefinitionCatalog.create hashing manifests contents.aliases

def load (backend : CatalogBackend) : Except CatalogError (DefinitionCatalog hashing) :=
  match contents.aliasDocument with
  | none => .error (.invalid (s!"Definition catalog is not published in '{backend.provider}'; " ++
      "run 'justflow definitions publish' first"))
  | some _ => contents.loadState hashing

def inspect (backend : CatalogBackend) : Except CatalogError (StoredCatalog hashing) := do
  let catalog ← contents.loadState hashing
  return ⟨catalog, contents.aliasDocument.map backend.version⟩

end CatalogContents

/-! ## Writes -/

section Writes

variable (hashing : Hashing) (backend : CatalogBackend)

/-- The calls of the store that write. -/
inductive CatalogWrite where
  | create (object : CatalogObject)
  | replaceAliases (aliases : Table String Digest) (expectedVersion : Option String)

/-- The requests of a backend that writes.  Replacing the alias document is one request in both:
a conditional put, or the rename of a file that was compared before. -/
inductive CatalogRequest where
  | openObject (object : CatalogObject)
  | closeObject (object : CatalogObject)
  | putObject (object : CatalogObject)
  | replaceAliases (aliases : Table String Digest) (expectedVersion : Option String)

namespace CatalogContents

def put (contents : CatalogContents) (key : CatalogObjectKey) (stored : Option CatalogObject) :
    CatalogContents :=
  { contents with objects := contents.objects.insert key stored }

/-- `create_immutable`, where `created` is what is there once it has begun or ended. -/
def createImmutable (object : CatalogObject) (created : Option CatalogObject)
    (contents : CatalogContents) : Except CatalogError CatalogContents := do
  object.checkKey
  match contents.objects.get? (object.key hashing) with
  | none => .ok (contents.put (object.key hashing) created)
  | some stored =>
      if stored = some object then .ok contents
      else .error (.conflict (backend.createConflict (object.key hashing).text))

def replaceAliases (aliases : Table String Digest) (expectedVersion : Option String)
    (contents : CatalogContents) : Except CatalogError CatalogContents := do
  let current ← contents.loadState hashing
  let _ ← DefinitionCatalog.create hashing (current.manifests.entries.map Prod.snd) aliases
  if contents.aliasDocument = some aliases.sortKeys then .ok contents
  else if contents.aliasDocument.map backend.version ≠ expectedVersion then
    .error (.conflict (backend.swapConflict aliasesFilename))
  else .ok { contents with aliasDocument := some aliases.sortKeys }

end CatalogContents

def CatalogWrite.perform : CatalogWrite → CatalogContents → Except CatalogError CatalogContents
  | .create object => CatalogContents.createImmutable hashing backend object (some object)
  | .replaceAliases aliases expectedVersion =>
      CatalogContents.replaceAliases hashing backend aliases expectedVersion

def CatalogRequest.perform : CatalogRequest → CatalogContents →
    Except CatalogError CatalogContents
  | .openObject object => CatalogContents.createImmutable hashing backend object none
  | .closeObject object => fun contents => .ok (contents.put (object.key hashing) (some object))
  | .putObject object => CatalogContents.createImmutable hashing backend object (some object)
  | .replaceAliases aliases expectedVersion =>
      CatalogContents.replaceAliases hashing backend aliases expectedVersion

def CatalogWrite.requests : CatalogWrite → List CatalogRequest
  | .create object =>
      if backend.inPlace then [.openObject object, .closeObject object] else [.putObject object]
  | .replaceAliases aliases expectedVersion => [.replaceAliases aliases expectedVersion]

end Writes

/-! ## What is read -/

theorem mapM_eq_ok_iff {ε α β : Type} {f : α → Except ε β} {xs : List α} {ys : List β} :
    xs.mapM f = .ok ys ↔ List.Forall₂ (fun x y => f x = .ok y) xs ys := by
  induction xs generalizing ys with
  | nil =>
      rw [List.mapM_nil, List.forall₂_nil_left_iff]
      constructor
      · rintro ⟨⟩
        rfl
      · rintro rfl
        rfl
  | cons x xs ih =>
      rw [List.mapM_cons, List.forall₂_cons_left_iff]
      cases first : f x with
      | error error =>
          constructor
          · rintro ⟨⟩
          · rintro ⟨y, rest, ⟨⟩, _⟩
      | ok y =>
          constructor
          · intro h
            cases others : xs.mapM f with
            | error error =>
                rw [others] at h
                cases h
            | ok rest =>
                rw [others] at h
                cases h
                exact ⟨y, rest, rfl, ih.mp others, rfl⟩
          · rintro ⟨found, rest, same, related, rfl⟩
            cases same
            rw [ih.mpr related]
            rfl

section Parsing

variable {hashing : Hashing}

theorem parseManifest_eq_ok_iff {key : DefinitionKey} {stored : Option CatalogObject}
    {manifest : DefinitionManifest} :
    parseManifest hashing key stored = .ok manifest ↔
      (key, stored) = (manifest.key hashing, some (.manifest manifest)) ∧
        validPathSegment manifest.logicalName = true := by
  rcases stored with _ | (found | found)
  · simp [parseManifest]
  · simp only [parseManifest, CatalogObject.checkKey, Prod.mk.injEq, Option.some.injEq,
      CatalogObject.manifest.injEq]
    cases valid : validPathSegment found.logicalName with
    | false =>
        refine iff_of_false (fun h => by cases h) ?_
        rintro ⟨⟨_, rfl⟩, accepted⟩
        rw [valid] at accepted
        cases accepted
    | true =>
        by_cases same : key = found.key hashing
        · simp only [if_pos same]
          constructor
          · rintro ⟨⟩
            exact ⟨⟨same, rfl⟩, valid⟩
          · rintro ⟨⟨_, rfl⟩, _⟩
            rfl
        · simp only [if_neg same]
          refine iff_of_false (fun h => by cases h) ?_
          rintro ⟨⟨here, rfl⟩, _⟩
          exact same here
  · simp [parseManifest]

theorem parseEnvironmentSnapshot_eq_ok_iff {digest : Digest} {stored : Option CatalogObject}
    {snapshot : ExecutionEnvironmentSnapshot} :
    parseEnvironmentSnapshot hashing digest stored = .ok snapshot ↔
      (digest, stored) = (snapshot.snapshotDigest hashing, some (.snapshot snapshot)) := by
  rcases stored with _ | (found | found)
  · simp [parseEnvironmentSnapshot]
  · simp [parseEnvironmentSnapshot]
  · simp only [parseEnvironmentSnapshot, Prod.mk.injEq, Option.some.injEq,
      CatalogObject.snapshot.injEq]
    by_cases same : digest = found.snapshotDigest hashing
    · rw [if_pos same]
      constructor
      · rintro ⟨⟩
        exact ⟨same, rfl⟩
      · rintro ⟨_, rfl⟩
        rfl
    · rw [if_neg same]
      refine iff_of_false (fun h => by cases h) ?_
      rintro ⟨here, rfl⟩
      exact same here

theorem forall₂_graph_iff {α β : Type} {f : β → α} {p : β → Prop} {xs : List α} {ys : List β} :
    List.Forall₂ (fun x y => x = f y ∧ p y) xs ys ↔ xs = ys.map f ∧ ∀ y ∈ ys, p y := by
  induction ys generalizing xs with
  | nil => simp
  | cons y ys ih =>
      rw [List.forall₂_cons_right_iff]
      constructor
      · rintro ⟨x, rest, ⟨rfl, first⟩, related, rfl⟩
        obtain ⟨rfl, others⟩ := ih.mp related
        exact ⟨rfl, List.forall_mem_cons.mpr ⟨first, others⟩⟩
      · rintro ⟨rfl, all⟩
        obtain ⟨first, others⟩ := List.forall_mem_cons.mp all
        exact ⟨_, _, ⟨rfl, first⟩, ih.mpr ⟨rfl, others⟩, rfl⟩

variable {contents : CatalogContents} {manifests : List DefinitionManifest}
  {snapshots : List ExecutionEnvironmentSnapshot}

theorem listManifests_eq_ok_iff : contents.listManifests hashing = .ok manifests ↔
    (contents.manifestObjects = manifests.map fun manifest =>
        (manifest.key hashing, some (.manifest manifest))) ∧
      ∀ manifest ∈ manifests, validPathSegment manifest.logicalName = true := by
  rw [CatalogContents.listManifests, mapM_eq_ok_iff]
  simp only [parseManifest_eq_ok_iff]
  exact forall₂_graph_iff

theorem listEnvironmentSnapshots_eq_ok_iff :
    contents.listEnvironmentSnapshots hashing = .ok snapshots ↔
      contents.snapshotObjects = snapshots.map fun snapshot =>
        (snapshot.snapshotDigest hashing, some (.snapshot snapshot)) := by
  rw [CatalogContents.listEnvironmentSnapshots, mapM_eq_ok_iff]
  simp only [parseEnvironmentSnapshot_eq_ok_iff]
  have graph := @forall₂_graph_iff _ _
    (fun snapshot : ExecutionEnvironmentSnapshot =>
      (snapshot.snapshotDigest hashing, some (CatalogObject.snapshot snapshot)))
    (fun _ => True) contents.snapshotObjects snapshots
  simpa using graph

end Parsing

section Catalogs

variable {hashing : Hashing} {manifests : List DefinitionManifest} {aliases : Table String Digest}
  {catalog : DefinitionCatalog hashing}

theorem DefinitionCatalog.create_eq_ok (h : create hashing manifests aliases = .ok catalog) :
    catalog.aliases = aliases ∧ catalog.manifests.entries = manifests.map fun manifest =>
      (manifest.key hashing, manifest) := by
  rw [create] at h
  split at h
  · cases h
  · next indexed hindex =>
      split at h
      · cases h
      · cases h
        exact ⟨rfl, (index_eq_ok hindex).2⟩

theorem DefinitionCatalog.index_of_distinct
    (distinct : (manifests.map fun manifest => manifest.key hashing).Nodup) :
    ∃ indexed, index hashing manifests = .ok indexed := by
  suffices extended : ∀ start : Table DefinitionKey DefinitionManifest,
      (∀ manifest ∈ manifests, start.get? (manifest.key hashing) = none) →
      ∃ indexed, manifests.foldlM (fun indexed manifest =>
        if (indexed.get? (manifest.key hashing)).isSome then
          Except.error (CatalogError.invalid (s!"Definition '{manifest.logicalName}@" ++
            s!"{(manifest.definitionDigest hashing).text}' is duplicated"))
        else .ok (indexed.insert (manifest.key hashing) manifest)) start = .ok indexed from
    extended .empty fun manifest _ => Table.get?_empty _
  induction manifests with
  | nil => exact fun start _ => ⟨start, rfl⟩
  | cons manifest rest ih =>
      intro start absent
      rw [List.map_cons, List.nodup_cons] at distinct
      rw [List.foldlM_cons, absent manifest List.mem_cons_self]
      refine ih distinct.2 (start.insert (manifest.key hashing) manifest) ?_
      intro other member
      rw [Table.get?_insert_ne]
      · exact absent other (List.mem_cons_of_mem _ member)
      · intro same
        exact distinct.1 (List.mem_map.mpr ⟨other, member, same⟩)

theorem DefinitionCatalog.create_isOk_iff :
    (∃ catalog, create hashing manifests aliases = .ok catalog) ↔
      (manifests.map fun manifest => manifest.key hashing).Nodup ∧
        ∀ name digest, aliases.get? name = some digest →
          (name, digest) ∈ manifests.map fun manifest => manifest.key hashing := by
  constructor
  · rintro ⟨catalog, created⟩
    obtain ⟨sameAliases, entries⟩ := create_eq_ok created
    have keys : Fields.keys catalog.manifests.entries =
        manifests.map fun manifest => manifest.key hashing := by
      rw [entries, Fields.keys, List.map_map]
      rfl
    refine ⟨keys ▸ catalog.manifests.nodup, ?_⟩
    intro name digest found
    rw [← sameAliases] at found
    obtain ⟨manifest, here⟩ := Option.isSome_iff_exists.mp (catalog.targets name digest found)
    rw [← keys]
    exact List.mem_map.mpr ⟨_, Table.mem_entries_iff.mpr here, rfl⟩
  · rintro ⟨distinct, targets⟩
    obtain ⟨indexed, hindex⟩ := index_of_distinct distinct
    have entries := (index_eq_ok hindex).2
    have none_ : dangling indexed aliases = none := by
      rw [dangling, List.find?_eq_none]
      rintro ⟨name, digest⟩ member
      have listed := targets name digest (Table.mem_entries_iff.mp member)
      obtain ⟨manifest, here, same⟩ := List.mem_map.mp listed
      have stored : (manifest.key hashing, manifest) ∈ indexed.entries := by
        rw [entries]
        exact List.mem_map.mpr ⟨manifest, here, rfl⟩
      rw [same] at stored
      rw [Table.mem_entries_iff.mp stored]
      simp
    rw [create]
    split
    · next error failed =>
        rw [hindex] at failed
        cases failed
    · next found hfound =>
        rw [hindex] at hfound
        cases hfound
        split
        · next dangling_ =>
            rw [none_] at dangling_
            cases dangling_
        · exact ⟨_, rfl⟩

end Catalogs

/-! ## Catalogs that load -/

namespace CatalogContents

variable {hashing : Hashing} {contents : CatalogContents} {manifests : List DefinitionManifest}
  {snapshots : List ExecutionEnvironmentSnapshot}

theorem mem_manifestObjects {key : DefinitionKey} {stored : Option CatalogObject} :
    (key, stored) ∈ contents.manifestObjects ↔
      contents.objects.get? (.manifest key) = some stored := by
  rw [← Table.mem_entries_iff, manifestObjects, List.mem_filterMap]
  constructor
  · rintro ⟨⟨found | digest, value⟩, member, same⟩
    · cases same
      exact member
    · cases same
  · intro member
    exact ⟨_, member, rfl⟩

theorem mem_snapshotObjects {digest : Digest} {stored : Option CatalogObject} :
    (digest, stored) ∈ contents.snapshotObjects ↔
      contents.objects.get? (.snapshot digest) = some stored := by
  rw [← Table.mem_entries_iff, snapshotObjects, List.mem_filterMap]
  constructor
  · rintro ⟨⟨key | found, value⟩, member, same⟩
    · cases same
    · cases same
      exact member
  · intro member
    exact ⟨_, member, rfl⟩

theorem manifestObjects_distinct : (contents.manifestObjects.map Prod.fst).Nodup := by
  refine List.Nodup.of_map CatalogObjectKey.manifest ?_
  refine List.Sublist.nodup ?_ contents.objects.nodup
  rw [manifestObjects]
  induction contents.objects.entries with
  | nil => exact .slnil
  | cons entry rest ih =>
      obtain ⟨key | digest, stored⟩ := entry
      · exact ih.cons_cons _
      · exact ih.cons _

theorem snapshotObjects_distinct : (contents.snapshotObjects.map Prod.fst).Nodup := by
  refine List.Nodup.of_map CatalogObjectKey.snapshot ?_
  refine List.Sublist.nodup ?_ contents.objects.nodup
  rw [snapshotObjects]
  induction contents.objects.entries with
  | nil => exact .slnil
  | cons entry rest ih =>
      obtain ⟨key | digest, stored⟩ := entry
      · exact ih.cons _
      · exact ih.cons_cons _

/-- Every object can be read, and every alias has a definition. -/
structure Holds (hashing : Hashing) (contents : CatalogContents)
    (manifests : List DefinitionManifest) (snapshots : List ExecutionEnvironmentSnapshot) :
    Prop where
  manifestObjects : contents.manifestObjects = manifests.map fun manifest =>
    (manifest.key hashing, some (.manifest manifest))
  snapshotObjects : contents.snapshotObjects = snapshots.map fun snapshot =>
    (snapshot.snapshotDigest hashing, some (.snapshot snapshot))
  nameable : ∀ manifest ∈ manifests, validPathSegment manifest.logicalName = true
  targets : ∀ name digest, contents.aliases.get? name = some digest →
    (name, digest) ∈ manifests.map fun manifest => manifest.key hashing

namespace Holds

variable (h : Holds hashing contents manifests snapshots)
include h

theorem distinctManifests : (manifests.map fun manifest => manifest.key hashing).Nodup := by
  have distinct := @manifestObjects_distinct contents
  rw [h.manifestObjects, List.map_map] at distinct
  exact distinct

theorem distinctSnapshots :
    (snapshots.map fun snapshot => snapshot.snapshotDigest hashing).Nodup := by
  have distinct := @snapshotObjects_distinct contents
  rw [h.snapshotObjects, List.map_map] at distinct
  exact distinct

theorem listEnvironmentSnapshots : contents.listEnvironmentSnapshots hashing = .ok snapshots :=
  listEnvironmentSnapshots_eq_ok_iff.mpr h.snapshotObjects

theorem loadState : ∃ catalog, contents.loadState hashing = .ok catalog ∧
    catalog.aliases = contents.aliases ∧ catalog.manifests.entries =
      manifests.map fun manifest => (manifest.key hashing, manifest) := by
  obtain ⟨catalog, created⟩ :=
    DefinitionCatalog.create_isOk_iff.mpr ⟨h.distinctManifests, h.targets⟩
  refine ⟨catalog, ?_, DefinitionCatalog.create_eq_ok created⟩
  rw [CatalogContents.loadState, listManifests_eq_ok_iff.mpr ⟨h.manifestObjects, h.nameable⟩]
  exact created

/-- The objects under the keys of the catalog. -/
theorem get?_iff {key : CatalogObjectKey} {stored : Option CatalogObject} :
    contents.objects.get? key = some stored ↔
      ∃ object, stored = some object ∧ object.key hashing = key ∧
        ((∃ manifest ∈ manifests, object = .manifest manifest) ∨
          ∃ snapshot ∈ snapshots, object = .snapshot snapshot) := by
  cases key with
  | manifest key =>
      rw [← mem_manifestObjects, h.manifestObjects, List.mem_map]
      constructor
      · rintro ⟨manifest, member, same⟩
        cases same
        exact ⟨_, rfl, rfl, .inl ⟨manifest, member, rfl⟩⟩
      · rintro ⟨object, rfl, same, ⟨manifest, member, rfl⟩ | ⟨snapshot, member, rfl⟩⟩
        · cases same
          exact ⟨manifest, member, rfl⟩
        · cases same
  | snapshot digest =>
      rw [← mem_snapshotObjects, h.snapshotObjects, List.mem_map]
      constructor
      · rintro ⟨snapshot, member, same⟩
        cases same
        exact ⟨_, rfl, rfl, .inr ⟨snapshot, member, rfl⟩⟩
      · rintro ⟨object, rfl, same, ⟨manifest, member, rfl⟩ | ⟨snapshot, member, rfl⟩⟩
        · cases same
        · cases same
          exact ⟨snapshot, member, rfl⟩

theorem whole (key : CatalogObjectKey) : contents.objects.get? key ≠ some none := by
  intro found
  obtain ⟨object, stored, _⟩ := h.get?_iff.mp found
  cases stored

end Holds

theorem holds_of_loaded {catalog : DefinitionCatalog hashing}
    (loaded : contents.loadState hashing = .ok catalog)
    (listed : contents.listEnvironmentSnapshots hashing = .ok snapshots) :
    Holds hashing contents (catalog.manifests.entries.map Prod.snd) snapshots := by
  rw [loadState] at loaded
  cases found : contents.listManifests hashing with
  | error error =>
      rw [found] at loaded
      cases loaded
  | ok manifests =>
      rw [found] at loaded
      change DefinitionCatalog.create hashing manifests contents.aliases = .ok catalog at loaded
      have entries := (DefinitionCatalog.create_eq_ok loaded).2
      have same : catalog.manifests.entries.map Prod.snd = manifests := by
        rw [entries, List.map_map]
        exact List.map_id _
      obtain ⟨objects, nameable⟩ := listManifests_eq_ok_iff.mp found
      rw [same]
      exact ⟨objects, listEnvironmentSnapshots_eq_ok_iff.mp listed, nameable,
        (DefinitionCatalog.create_isOk_iff.mp ⟨catalog, loaded⟩).2⟩

theorem createImmutable_fresh {backend : CatalogBackend} {object : CatalogObject}
    (nameable : object.nameable = true) (created : Option CatalogObject)
    (fresh : contents.objects.get? (object.key hashing) = none) :
    contents.createImmutable hashing backend object created =
      .ok (contents.put (object.key hashing) created) := by
  rcases object.checkKey_eq with ⟨checked, _⟩ | ⟨error, checked, unnameable⟩
  · rw [createImmutable, checked, fresh]
    rfl
  · rw [nameable] at unnameable
    cases unnameable

/-- What a creation can do. -/
theorem createImmutable_cases (hashing : Hashing) (backend : CatalogBackend)
    (object : CatalogObject) (created : Option CatalogObject) (contents : CatalogContents) :
    (contents.objects.get? (object.key hashing) = none ∧ object.nameable = true ∧
        contents.createImmutable hashing backend object created =
          .ok (contents.put (object.key hashing) created)) ∨
      (contents.objects.get? (object.key hashing) = some (some object) ∧
        contents.createImmutable hashing backend object created = .ok contents) ∨
      ∃ error, ∀ created, contents.createImmutable hashing backend object created =
        .error error := by
  rcases object.checkKey_eq with ⟨checked, nameable⟩ | ⟨error, checked, _⟩
  · cases found : contents.objects.get? (object.key hashing) with
    | none => exact .inl ⟨rfl, nameable, createImmutable_fresh nameable created found⟩
    | some stored =>
        refine .inr ?_
        by_cases same : stored = some object
        · refine .inl ⟨congrArg some same, ?_⟩
          rw [createImmutable, checked, found]
          exact if_pos same
        · refine .inr ⟨.conflict (backend.createConflict (object.key hashing).text),
            fun created => ?_⟩
          rw [createImmutable, checked, found]
          exact if_neg same
  · refine .inr (.inr ⟨error, fun created => ?_⟩)
    rw [createImmutable, checked]
    rfl

end CatalogContents

/-- The requests of a write do what it does, and nothing if it fails. -/
theorem CatalogWrite.implements (hashing : Hashing) (backend : CatalogBackend) :
    Worklist.Implements (CatalogWrite.perform hashing backend)
      (CatalogRequest.perform hashing backend) (CatalogWrite.requests backend) := by
  rintro (object | ⟨aliases, expectedVersion⟩) contents
  · rw [requests, perform]
    split
    · rcases CatalogContents.createImmutable_cases hashing backend object (some object)
          contents with ⟨fresh, nameable, created⟩ | ⟨stored, created⟩ | ⟨error, refused⟩
      · have opened : CatalogRequest.perform hashing backend (.openObject object) contents =
            .ok (contents.put (object.key hashing) none) :=
          CatalogContents.createImmutable_fresh nameable none fresh
        rw [created, Worklist.serve_cons_ok opened, Worklist.serve, CatalogRequest.perform]
        simp only [CatalogContents.put, Table.insert_insert, Worklist.serve]
      · have opened : CatalogRequest.perform hashing backend (.openObject object) contents =
            .ok contents := by
          rcases CatalogContents.createImmutable_cases hashing backend object none contents with
            ⟨fresh, _⟩ | ⟨_, opened⟩ | ⟨error, refused⟩
          · rw [stored] at fresh
            cases fresh
          · exact opened
          · rw [refused] at created
            cases created
        rw [created, Worklist.serve_cons_ok opened, Worklist.serve, CatalogRequest.perform]
        simp only [CatalogContents.put, Table.insert_of_get? stored, Worklist.serve]
      · have opened : CatalogRequest.perform hashing backend (.openObject object) contents =
            .error error := refused none
        rw [refused, Worklist.serve_cons_error opened]
    · rw [Worklist.serve, CatalogRequest.perform]
      cases contents.createImmutable hashing backend object (some object) <;> rfl
  · rw [requests, perform, Worklist.serve, CatalogRequest.perform]
    cases contents.replaceAliases hashing backend aliases expectedVersion <;> rfl

end Justflow
