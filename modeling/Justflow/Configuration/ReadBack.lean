import Justflow.Configuration.DocumentBounds
import Justflow.Configuration.Sqlite
import Justflow.Library.Programs

/-!
# Stored documents read back

A store takes a document as it is and checks the bytes of the envelope only; what it reads it
validates again.  A document that was validated when it was built passes again, but a bundle
that a tenant configuration was resolved to gets its resolution after the validation, by a copy
that runs no check.  Such a bundle reads back when it is within the bounds together with its
resolution (`readsBack_iff`).

Documents are known by the values that they dump to, and canonical text by the value that it is
the text of.
-/

open Fields JsonValue Program

namespace Justflow

open Stores

/-! ## Models of fields -/

/-- A model of a field: the dump of the value that it accepts.  It takes its own dumps. -/
structure FieldModel where
  validate : JsonValue → Option JsonValue
  redumped : ∀ value dump, validate value = some dump → validate dump = some dump
  canonical : ∀ value dump, validate value = some dump → wire dump = dump

def isLowered (c : Char) : Bool :=
  decide ('a' ≤ c ∧ c ≤ 'z') || c == '_'

/-- What the document models rest on; `lower` is `str.lower`. -/
structure DocumentModels where
  hashing : Hashing
  lower : String → String
  lowered : ∀ name : String, name.toList.all isLowered → lower name = name
  resources : FieldModel
  services : FieldModel
  workflows : FieldModel
  triggers : FieldModel
  tenantWorkflows : FieldModel
  tenantTriggers : FieldModel

/-! ## Resolutions -/

def maxComponents : Nat := 10000

def isIdentityChar (c : Char) : Bool :=
  c.isAlphanum || c == '.' || c == '_' || c == '-'

/-- `ResolvedComponentIdentity`. -/
def isComponentIdentity (text : String) : Bool :=
  let name := text.toList.takeWhile (· ≠ '@')
  let version := (text.toList.dropWhile (· ≠ '@')).drop 1
  decide (3 ≤ text.length ∧ text.length ≤ 128 + 64 + 1) && text.toList.contains '@' &&
    name.head?.any Char.isAlpha && name.all isIdentityChar &&
    version.head?.any Char.isAlphanum && version.all isIdentityChar

structure TenantConfigurationResolution where
  tenantConfigurationRevisionId : RevisionIdentity
  componentCatalogRevision : Digest
  componentIdentities : List String
  resolutionDigest : ProvenanceDigest
  identified : componentIdentities.all isComponentIdentity
  bounded : componentIdentities.length ≤ maxComponents

namespace TenantConfigurationResolution

def dump (self : TenantConfigurationResolution) : JsonValue :=
  .obj [("component_catalog_revision", .str self.componentCatalogRevision.text),
    ("component_identities", .arr (self.componentIdentities.map .str)),
    ("resolution_digest", .str self.resolutionDigest.text),
    ("tenant_configuration_revision_id", .str self.tenantConfigurationRevisionId.text)]

end TenantConfigurationResolution

def digestOf (text : String) : Option Digest :=
  if h : text.length = 64 ∧ text.toList.all isHexDigit then some (.checked text h) else none

def provenanceDigestOf (text : String) : Option ProvenanceDigest :=
  if "sha256:".toList <+: text.toList then
    (digestOf (String.ofList (text.toList.drop "sha256:".toList.length))).map .mk
  else none

/-- No field of an object has another name. -/
def onlyFields (names : List String) : JsonValue → Bool
  | .obj fields => (keys fields).all (· ∈ names)
  | _ => false

def identitiesOf : JsonValue → Option (List String)
  | .arr items => items.mapM asStr
  | _ => none

/-- `TenantConfigurationResolution.model_validate`. -/
def resolutionOf (value : JsonValue) : Option TenantConfigurationResolution :=
  if onlyFields ["tenant_configuration_revision_id", "component_catalog_revision",
      "component_identities", "resolution_digest"] value then do
    let source ← ((value.field "tenant_configuration_revision_id").bind asStr).bind digestOf
    let catalog ← ((value.field "component_catalog_revision").bind asStr).bind digestOf
    let identities ← (value.field "component_identities").bind identitiesOf
    let resolved ← ((value.field "resolution_digest").bind asStr).bind provenanceDigestOf
    if h : identities.all isComponentIdentity ∧ identities.length ≤ maxComponents then
      some ⟨source, catalog, identities, resolved, h.1, h.2⟩
    else none
  else none

/-! ## Documents -/

/-- `ConfigurationBundle`, by the dumps of its fields. -/
structure StoredBundle where
  resources : JsonValue
  services : JsonValue
  workflows : JsonValue
  triggers : JsonValue
  tenantResolution : Option TenantConfigurationResolution

structure TenantConfiguration where
  componentCatalogRevision : Digest
  workflows : JsonValue
  triggers : JsonValue

/-- `_configuration_bundle_value`. -/
def StoredBundle.value (self : StoredBundle) : JsonValue :=
  .obj ([("resources", self.resources), ("services", self.services)] ++
    (self.tenantResolution.toList.map fun resolution => ("tenant_resolution", resolution.dump)) ++
    [("triggers", self.triggers), ("workflows", self.workflows)])

def TenantConfiguration.value (self : TenantConfiguration) : JsonValue :=
  .obj [("component_catalog_revision", .str self.componentCatalogRevision.text),
    ("triggers", self.triggers), ("workflows", self.workflows)]

/-- Some workflow declares another name than the one it is listed under. -/
def misnamed : JsonValue → Bool
  | .obj entries => entries.any fun entry => entry.2.field "workflow" ≠ some (.str entry.1)
  | _ => false

/-- Some trigger names a workflow that is not declared. -/
def unknownTarget (workflows : JsonValue) : JsonValue → Bool
  | .obj entries => entries.any fun entry =>
      !(((entry.2.field "workflow").bind asStr).any fun name => (workflows.field name).isSome)
  | _ => false

/-- What a store holds: `ConfigurationDocument`. -/
inductive StoredDocument where
  | bundle (bundle : StoredBundle)
  | tenant (configuration : TenantConfiguration)

def StoredDocument.value : StoredDocument → JsonValue
  | .bundle document => document.value
  | .tenant document => document.value

namespace DocumentModels

variable (models : DocumentModels)

/-- `ConfigurationBundle.validate_bounds`. -/
def validateBundle (bundle : StoredBundle) : Except String Unit :=
  validateBounds models.lower bundle.value "Configuration bundle exceeds its byte limit"
    [(misnamed bundle.workflows, "Workflow mapping key does not match its declaration")]

/-- `TenantConfiguration.validate_bounds_and_references`. -/
def validateTenant (configuration : TenantConfiguration) : Except String Unit :=
  validateBounds models.lower configuration.value "Tenant configuration exceeds its byte limit"
    [(misnamed configuration.workflows,
        "Tenant workflow mapping key does not match its declaration"),
      (unknownTarget configuration.workflows configuration.triggers,
        "Tenant trigger references an unknown workflow")]

def optionalResolution : Option JsonValue → Option (Option TenantConfigurationResolution)
  | none | some .null => some none
  | some value => (resolutionOf value).map some

/-- `ConfigurationBundle.model_validate`. -/
def bundleOf (value : JsonValue) : Option StoredBundle :=
  if onlyFields ["resources", "services", "workflows", "triggers",
      "tenant_resolution"] value then do
    let resources ← models.resources.validate
      ((value.field "resources").getD (.obj [("resources", .obj [])]))
    let services ← models.services.validate
      ((value.field "services").getD (.obj [("services", .obj [])]))
    let workflows ← (value.field "workflows").bind models.workflows.validate
    let triggers ← (value.field "triggers").bind models.triggers.validate
    let resolution ← optionalResolution (value.field "tenant_resolution")
    let bundle : StoredBundle := ⟨resources, services, workflows, triggers, resolution⟩
    if models.validateBundle bundle = .ok () then some bundle else none
  else none

/-- `TenantConfiguration.model_validate`. -/
def tenantOf (value : JsonValue) : Option TenantConfiguration :=
  if onlyFields ["component_catalog_revision", "workflows", "triggers"] value then do
    let catalog ← ((value.field "component_catalog_revision").bind asStr).bind digestOf
    let workflows ← (value.field "workflows").bind models.tenantWorkflows.validate
    let triggers ← (value.field "triggers").bind models.tenantTriggers.validate
    let configuration : TenantConfiguration := ⟨catalog, workflows, triggers⟩
    if models.validateTenant configuration = .ok () then some configuration else none
  else none

/-- A value is validated as either kind of document. -/
def documentOf (value : JsonValue) : Option StoredDocument :=
  match models.bundleOf value with
  | some bundle => some (.bundle bundle)
  | none => (models.tenantOf value).map .tenant

/-- The documents that the rest of the program hands to a store: validated ones, and bundles that
got their resolution by `model_copy` at the end of `validate_tenant_authoring`. -/
inductive Written : StoredDocument → Prop
  | bundle {value : JsonValue} {bundle : StoredBundle}
      (validated : models.bundleOf value = some bundle) : Written (.bundle bundle)
  | tenant {value : JsonValue} {configuration : TenantConfiguration}
      (validated : models.tenantOf value = some configuration) : Written (.tenant configuration)
  | resolved {value : JsonValue} {bundle : StoredBundle}
      (resolution : TenantConfigurationResolution)
      (validated : models.bundleOf value = some bundle)
      (unresolved : bundle.tenantResolution = none) :
      Written (.bundle { bundle with tenantResolution := some resolution })

end DocumentModels

/-! ## The store -/

namespace ReadBack

variable (models : DocumentModels)

/-- The value of a `ConfigurationEnvelope`. -/
def envelopeValue (scopeDigest : Digest) (document : StoredDocument) : JsonValue :=
  .obj [("bundle", document.value), ("format_version", .int 1),
    ("scope_digest", .str scopeDigest.text)]

/-- `ConfigurationEnvelope.canonical_bytes`. -/
def envelopeBytes (scopeDigest : Digest) (document : StoredDocument) :
    Except ConfigurationError JsonValue :=
  let value := envelopeValue scopeDigest document
  if maxConfigurationEnvelopeBytes < canonicalBytes value then
    .error ⟨.value, "Configuration envelope exceeds its byte limit"⟩
  else .ok (wire value)

/-- `ConfigurationEnvelope.model_validate_json`. -/
def envelopeOf (payload : JsonValue) : Option (Digest × StoredDocument) :=
  if onlyFields ["format_version", "scope_digest", "bundle"] payload ∧
      (payload.field "format_version").getD (.int 1) = .int 1 then do
    let scopeDigest ← ((payload.field "scope_digest").bind asStr).bind digestOf
    let document ← (payload.field "bundle").bind models.documentOf
    return (scopeDigest, document)
  else none

/-- `_bundle`. -/
def bundleOf (scopeDigest : Digest) (payload : JsonValue) :
    Except ConfigurationError StoredDocument :=
  match envelopeOf models payload with
  | none => .error (.integrity "Stored configuration body is invalid")
  | some (stored, document) =>
      if stored ≠ scopeDigest then
        .error (.integrity "Stored configuration body has the wrong scope")
      else do
        let canonical ← envelopeBytes stored document
        if payload ≠ canonical then
          throw (.integrity "Stored configuration body is not canonical")
        return document

/-- `configuration_revision_identity`. -/
def revisionIdentity (scopeDigest : Digest) (document : StoredDocument)
    (parent : Option RevisionIdentity) : RevisionIdentity :=
  models.hashing.sha256 (Hashing.canonicalText (.obj [("bundle", document.value),
    ("parent_revision_id", .ofOption (fun revision : Digest => .str revision.text) parent),
    ("scope_digest", .str scopeDigest.text)]))

structure DraftRecord where
  scopeDigest : Digest
  version : Int
  bundle : StoredDocument

structure RevisionRecord where
  scopeDigest : Digest
  revisionId : RevisionIdentity
  parentRevisionId : Option RevisionIdentity
  createdAt : UtcTime
  bundle : StoredDocument

def readDraft (store : SqliteStore) (scopeDigest : Digest) :
    Except ConfigurationError (Option DraftRecord) :=
  match store.drafts.get? scopeDigest with
  | none => .ok none
  | some (version, body) => do
      let document ← bundleOf models scopeDigest body
      return some ⟨scopeDigest, version, document⟩

def compareAndSwapDraft (store : SqliteStore) (scopeDigest : Digest) (document : StoredDocument)
    (expectedVersion : Option Int) : Except ConfigurationError (DraftRecord × SqliteStore) := do
  let body ← envelopeBytes scopeDigest document
  let currentVersion := (store.drafts.get? scopeDigest).map Prod.fst
  if currentVersion ≠ expectedVersion then throw .conflict
  let version := currentVersion.elim 1 (· + 1)
  return (⟨scopeDigest, version, document⟩,
    { store with drafts := store.drafts.insert scopeDigest (version, body) })

def requireParent (store : SqliteStore) (scopeDigest : Digest) :
    Option RevisionIdentity → Except ConfigurationError Unit
  | some parentId => store.requireRevision scopeDigest parentId
  | none => .ok ()

def createRevision (store : SqliteStore) (scopeDigest : Digest) (document : StoredDocument)
    (parent : Option RevisionIdentity) (reading : Option UtcTime) :
    Except ConfigurationError (RevisionRecord × SqliteStore) := do
  let revisionId := revisionIdentity models scopeDigest document parent
  let body ← envelopeBytes scopeDigest document
  let createdAt ← timestamp reading
  requireParent store scopeDigest parent
  match store.revisions.get? (scopeDigest, revisionId) with
  | some row =>
      if row.parentRevisionId ≠ parent ∨ row.body ≠ body then
        throw (.integrity "Immutable configuration revision content disagrees")
      return (⟨scopeDigest, revisionId, parent, row.createdAt, document⟩, store)
  | none =>
      let row : RevisionRow := ⟨parent, createdAt, body⟩
      let stored ← SqliteStore.checked
        { store with revisions := store.revisions.insert (scopeDigest, revisionId) row }
        "Cannot create the SQLite configuration revision"
      return (⟨scopeDigest, revisionId, parent, createdAt, document⟩, stored)

def readRevision (store : SqliteStore) (scopeDigest : Digest) (revisionId : RevisionIdentity) :
    Except ConfigurationError RevisionRecord :=
  match store.revisions.get? (scopeDigest, revisionId) with
  | none => .error .revisionNotFound
  | some row => do
      let document ← bundleOf models scopeDigest row.body
      if revisionIdentity models scopeDigest document row.parentRevisionId ≠ revisionId then
        throw (.integrity "Configuration revision digest disagrees")
      return ⟨scopeDigest, revisionId, row.parentRevisionId, row.createdAt, document⟩

/-! ## Runs -/

/-- A call of the store. -/
inductive StoreCall where
  | compareAndSwapDraft (scopeDigest : Digest) (document : StoredDocument)
      (written : models.Written document) (expectedVersion : Option Int)
  | createRevision (scopeDigest : Digest) (document : StoredDocument)
      (written : models.Written document) (parent : Option RevisionIdentity)
      (reading : Option UtcTime)
  | compareAndSwapActive (scopeDigest : Digest) (revisionId : RevisionIdentity)
      (expectedRevisionId : Option RevisionIdentity) (expectedVersion : Option Int)
  | retainRevisions (scopeDigest : Digest) (keepLatest deleteLimit : Int)

/-- A store beside the documents that it has accepted and not replaced or deleted. -/
structure Session where
  store : SqliteStore
  drafts : Digest → Option StoredDocument
  revisions : Digest × RevisionIdentity → Option StoredDocument

def Session.empty : Session :=
  ⟨.empty, fun _ => none, fun _ => none⟩

variable {models}

/-- A call that is refused changes nothing. -/
def Session.call (self : Session) : StoreCall models → Session
  | .compareAndSwapDraft scopeDigest document _ expectedVersion =>
      match compareAndSwapDraft self.store scopeDigest document expectedVersion with
      | .error _ => self
      | .ok (_, store) =>
          { self with store, drafts := Function.update self.drafts scopeDigest (some document) }
  | .createRevision scopeDigest document _ parent reading =>
      match createRevision models self.store scopeDigest document parent reading with
      | .error _ => self
      | .ok (record, store) =>
          { self with
            store
            revisions :=
              Function.update self.revisions (scopeDigest, record.revisionId) (some document) }
  | .compareAndSwapActive scopeDigest revisionId expectedRevisionId expectedVersion =>
      match self.store.compareAndSwapActive scopeDigest revisionId expectedRevisionId
        expectedVersion with
      | .error _ => self
      | .ok (_, store) => { self with store }
  | .retainRevisions scopeDigest keepLatest deleteLimit =>
      match self.store.retainRevisions scopeDigest keepLatest deleteLimit with
      | .error _ => self
      | .ok (deleted, store) =>
          { self with
            store
            revisions := fun key =>
              if key.1 = scopeDigest ∧ key.2 ∈ deleted then none else self.revisions key }

def Session.run (calls : List (StoreCall models)) : Session :=
  calls.foldl Session.call Session.empty

/-! ## Resolutions are validated again -/

end ReadBack

theorem digestOf_text (digest : Digest) : digestOf digest.text = some digest :=
  dif_pos ⟨digest.length, digest.hex⟩

theorem provenanceDigestOf_text (digest : ProvenanceDigest) :
    provenanceDigestOf digest.text = some digest := by
  have htext : digest.text.toList = "sha256:".toList ++ digest.hex.text.toList := by
    rw [ProvenanceDigest.text, String.toList_append]
  rw [provenanceDigestOf, htext, if_pos (List.prefix_append _ _), List.drop_left,
    String.ofList_toList, digestOf_text]
  rfl

theorem identitiesOf_strings (identities : List String) :
    identitiesOf (.arr (identities.map .str)) = some identities := by
  rw [identitiesOf]
  induction identities with
  | nil => rfl
  | cons identity rest ih => rw [List.map_cons, List.mapM_cons, ih]; rfl

theorem resolutionOf_dump (resolution : TenantConfigurationResolution) :
    resolutionOf resolution.dump = some resolution := by
  have hfields : onlyFields ["tenant_configuration_revision_id", "component_catalog_revision",
      "component_identities", "resolution_digest"] resolution.dump = true := by
    simp [onlyFields, TenantConfigurationResolution.dump]
  have hidentities := identitiesOf_strings resolution.componentIdentities
  have hresolved := provenanceDigestOf_text resolution.resolutionDigest
  rw [resolutionOf, if_pos hfields]
  simp [TenantConfigurationResolution.dump, List.lookup_cons, asStr, digestOf_text, hidentities,
    hresolved, resolution.bounded]
  exact List.all_eq_true.mp resolution.identified

/-! ## Fields are validated again -/

variable {models : DocumentModels}

/-- The fields of a bundle are what their models dumped. -/
structure StoredBundle.Dumped (models : DocumentModels) (bundle : StoredBundle) :
    Prop where
  resources : models.resources.validate bundle.resources = some bundle.resources
  services : models.services.validate bundle.services = some bundle.services
  workflows : models.workflows.validate bundle.workflows = some bundle.workflows
  triggers : models.triggers.validate bundle.triggers = some bundle.triggers

structure TenantConfiguration.Dumped (models : DocumentModels)
    (configuration : TenantConfiguration) : Prop where
  workflows : models.tenantWorkflows.validate configuration.workflows = some configuration.workflows
  triggers : models.tenantTriggers.validate configuration.triggers = some configuration.triggers

namespace DocumentModels

/-- A model that validated a bundle has dumped its fields and run its checks. -/
theorem bundleOf_some {value : JsonValue} {bundle : StoredBundle}
    (h : models.bundleOf value = some bundle) :
    bundle.Dumped models ∧ models.validateBundle bundle = .ok () := by
  rw [bundleOf] at h
  split at h
  · simp only [Option.bind_eq_bind, Option.bind_eq_some_iff] at h
    obtain ⟨_, hresources, _, hservices, _, ⟨_, _, hworkflows⟩, _, ⟨_, _, htriggers⟩, _, _, h⟩ := h
    split at h
    · next accepted =>
        cases h
        exact ⟨⟨models.resources.redumped _ _ hresources, models.services.redumped _ _ hservices,
          models.workflows.redumped _ _ hworkflows, models.triggers.redumped _ _ htriggers⟩,
          accepted⟩
    · cases h
  · cases h

theorem tenantOf_some {value : JsonValue} {configuration : TenantConfiguration}
    (h : models.tenantOf value = some configuration) :
    configuration.Dumped models ∧ models.validateTenant configuration = .ok () := by
  rw [tenantOf] at h
  split at h
  · simp only [Option.bind_eq_bind, Option.bind_eq_some_iff] at h
    obtain ⟨_, _, _, ⟨_, _, hworkflows⟩, _, ⟨_, _, htriggers⟩, h⟩ := h
    split at h
    · next accepted =>
        cases h
        exact ⟨⟨models.tenantWorkflows.redumped _ _ hworkflows,
          models.tenantTriggers.redumped _ _ htriggers⟩, accepted⟩
    · cases h
  · cases h

/-- The dump of a bundle is validated by the checks alone. -/
theorem bundleOf_value {bundle : StoredBundle} (dumped : bundle.Dumped models) :
    models.bundleOf bundle.value =
      if models.validateBundle bundle = .ok () then some bundle else none := by
  obtain ⟨resources, services, workflows, triggers, resolution⟩ := bundle
  obtain ⟨hresources, hservices, hworkflows, htriggers⟩ := dumped
  simp only at hresources hservices hworkflows htriggers
  cases resolution with
  | none =>
      simp [bundleOf, onlyFields, StoredBundle.value, List.lookup_cons, hresources,
        hservices, hworkflows, htriggers, optionalResolution]
  | some resolution =>
      have hresolution : optionalResolution (some resolution.dump) = some (some resolution) := by
        have hdump := resolutionOf_dump resolution
        exact congrArg (Option.map some) hdump
      simp [bundleOf, onlyFields, StoredBundle.value, List.lookup_cons, hresources,
        hservices, hworkflows, htriggers, hresolution]

theorem tenantOf_value {configuration : TenantConfiguration}
    (dumped : configuration.Dumped models) :
    models.tenantOf configuration.value =
      if models.validateTenant configuration = .ok () then some configuration else none := by
  obtain ⟨catalog, workflows, triggers⟩ := configuration
  obtain ⟨hworkflows, htriggers⟩ := dumped
  simp only at hworkflows htriggers
  simp [tenantOf, onlyFields, TenantConfiguration.value, List.lookup_cons, asStr, digestOf_text,
    hworkflows, htriggers]

/-- No value is a document of both kinds. -/
theorem tenantOf_bundle (bundle : StoredBundle) : models.tenantOf bundle.value = none := by
  rw [tenantOf, if_neg]
  simp [onlyFields, StoredBundle.value]

theorem bundleOf_tenant (configuration : TenantConfiguration) :
    models.bundleOf configuration.value = none := by
  rw [bundleOf, if_neg]
  simp [onlyFields, TenantConfiguration.value]

theorem validateBundle_ok_iff {bundle : StoredBundle} :
    models.validateBundle bundle = .ok () ↔
      Structured 0 bundle.value ∧ holdsSecret models.lower bundle.value = false ∧
        canonicalBytes bundle.value ≤ maxConfigurationBytes ∧
        misnamed bundle.workflows = false := by
  simp [validateBundle, validateBounds_ok_iff]

/-- A name in lower case is compared as it is. -/
theorem not_secretField {name : String} (lowered : name.toList.all isLowered)
    (harmless : secretField id name = false) : secretField models.lower name = false := by
  rw [secretField, models.lowered name lowered]
  exact harmless

/-- No field of a resolution has the name of a secret. -/
theorem holdsSecret_resolution (resolution : TenantConfigurationResolution) :
    holdsSecret models.lower resolution.dump = false := by
  have hcatalog : secretField models.lower "component_catalog_revision" = false :=
    not_secretField (by decide) (by decide)
  have hidentities : secretField models.lower "component_identities" = false :=
    not_secretField (by decide) (by decide)
  have hdigest : secretField models.lower "resolution_digest" = false :=
    not_secretField (by decide) (by decide)
  have hsource : secretField models.lower "tenant_configuration_revision_id" = false :=
    not_secretField (by decide) (by decide)
  simp [TenantConfigurationResolution.dump, holdsSecret, fieldsHoldSecret, hcatalog, hidentities,
    hdigest, hsource, itemsHoldSecret_eq_any]

/-- A resolution nests no deeper than documents may. -/
theorem structured_resolution {resolution : TenantConfigurationResolution}
    (h : memberCount resolution.dump ≤ maxConfigurationCollectionItems) :
    Structured 1 resolution.dump := by
  have hdepth : ∀ depth ≤ 3, depth ≤ maxConfigurationDepth := by decide
  have hstrings : ∀ s : String, Structured 2 (.str s) :=
    fun s => structured_str s (hdepth 2 (by decide))
  have hcount : memberCount (.arr (resolution.componentIdentities.map .str)) ≤
      maxConfigurationCollectionItems := by
    simp only [TenantConfigurationResolution.dump, memberCount, fieldsCount] at h ⊢
    omega
  have hidentities : Structured 2 (.arr (resolution.componentIdentities.map .str)) := by
    refine structured_arr_iff.mpr ⟨hdepth 2 (by decide), ?_, hcount⟩
    intro v hv
    obtain ⟨identity, _, rfl⟩ := List.mem_map.mp hv
    exact structured_str identity (hdepth 3 (by decide))
  refine structured_obj_iff.mpr ⟨hdepth 1 (by decide), ?_, h⟩
  simp only [List.forall_mem_cons]
  exact ⟨hstrings _, hidentities, hstrings _, hstrings _, List.forall_mem_nil _⟩

end DocumentModels

/-- The document keeps within the bounds with everything that it is stored with. -/
def StoredDocument.Fits (document : StoredDocument) : Prop :=
  memberCount document.value ≤ maxConfigurationCollectionItems ∧
    canonicalBytes document.value ≤ maxConfigurationBytes

namespace DocumentModels

/-- A bundle that was validated without its resolution passes with it, if it fits. -/
theorem validateBundle_resolved {bundle : StoredBundle}
    {resolution : TenantConfigurationResolution} (validated : models.validateBundle bundle = .ok ())
    (unresolved : bundle.tenantResolution = none) :
    models.validateBundle { bundle with tenantResolution := some resolution } = .ok () ↔
      (StoredDocument.bundle { bundle with tenantResolution := some resolution }).Fits := by
  obtain ⟨resources, services, workflows, triggers, _⟩ := bundle
  obtain rfl := unresolved
  obtain ⟨hstructure, hsecret, _, hnames⟩ := validateBundle_ok_iff.mp validated
  have hown : secretField models.lower "tenant_resolution" = false :=
    not_secretField (by decide) (by decide)
  rw [validateBundle_ok_iff]
  constructor
  · rintro ⟨hresolved, _, hbytes, _⟩
    exact ⟨(structured_obj_iff.mp hresolved).2.2, hbytes⟩
  · rintro ⟨hcount, hbytes⟩
    have hresolution : Structured 1 resolution.dump := by
      apply structured_resolution
      simp only [StoredDocument.value, StoredBundle.value, Option.toList, List.map_cons,
        List.map_nil, List.cons_append, List.nil_append, memberCount, fieldsCount] at hcount ⊢
      omega
    obtain ⟨hdepth, hfields, _⟩ := structured_obj_iff.mp hstructure
    refine ⟨structured_obj_iff.mpr ⟨hdepth, ?_, hcount⟩, ?_, hbytes, hnames⟩
    · simp only [Option.toList, List.map_cons, List.map_nil, List.cons_append, List.nil_append,
        List.forall_mem_cons] at hfields ⊢
      obtain ⟨hresources, hservices, htriggers, hworkflows, _⟩ := hfields
      exact ⟨hresources, hservices, hresolution, htriggers, hworkflows, List.forall_mem_nil _⟩
    · simpa [StoredBundle.value, holdsSecret, fieldsHoldSecret, hown,
        holdsSecret_resolution] using hsecret

/-- A document that is validated as it is written fits. -/
theorem fits_of_bundleOf {value : JsonValue} {bundle : StoredBundle}
    (validated : models.bundleOf value = some bundle) : (StoredDocument.bundle bundle).Fits := by
  obtain ⟨hstructure, _, hbytes, _⟩ := validateBundle_ok_iff.mp (bundleOf_some validated).2
  exact ⟨(structured_obj_iff.mp hstructure).2.2, hbytes⟩

theorem fits_of_tenantOf {value : JsonValue} {configuration : TenantConfiguration}
    (validated : models.tenantOf value = some configuration) :
    (StoredDocument.tenant configuration).Fits := by
  obtain ⟨hstructure, _, hbytes, _⟩ := validateBounds_ok_iff.mp (tenantOf_some validated).2
  exact ⟨(structured_obj_iff.mp hstructure).2.2, hbytes⟩

/-- Written documents are exactly then documents of their values when they fit. -/
theorem documentOf_value {document : StoredDocument} (written : models.Written document) :
    models.documentOf document.value = some document ∧ document.Fits ∨
      models.documentOf document.value = none ∧ ¬ document.Fits := by
  cases written with
  | bundle validated =>
      obtain ⟨dumped, accepted⟩ := bundleOf_some validated
      left
      refine ⟨?_, fits_of_bundleOf validated⟩
      rw [StoredDocument.value, documentOf, bundleOf_value dumped, if_pos accepted]
  | tenant validated =>
      obtain ⟨dumped, accepted⟩ := tenantOf_some validated
      left
      refine ⟨?_, fits_of_tenantOf validated⟩
      rw [StoredDocument.value, documentOf, bundleOf_tenant, tenantOf_value dumped,
        if_pos accepted]
      rfl
  | @resolved _ bundle resolution validated unresolved =>
      obtain ⟨dumped, accepted⟩ := bundleOf_some validated
      have dumped' : StoredBundle.Dumped models
          { bundle with tenantResolution := some resolution } :=
        ⟨dumped.resources, dumped.services, dumped.workflows, dumped.triggers⟩
      have hfits := @validateBundle_resolved models bundle resolution accepted unresolved
      rw [StoredDocument.value, documentOf, bundleOf_value dumped', tenantOf_bundle]
      by_cases fits : (StoredDocument.bundle
          { bundle with tenantResolution := some resolution }).Fits
      · left
        rw [if_pos (hfits.mpr fits)]
        exact ⟨rfl, fits⟩
      · right
        rw [if_neg (mt hfits.mp fits)]
        exact ⟨rfl, fits⟩

/-- An object whose names are in order is canonical when its values are. -/
theorem wire_obj_eq_self {fields : List (String × JsonValue)} (names : List String)
    (named : keys fields = names) (sorted : names.Pairwise (· ≤ ·))
    (canonical : ∀ e ∈ fields, wire e.2 = e.2) : wire (.obj fields) = .obj fields := by
  have hfields : (fields.map fun e => (e.1, wire e.2)) = fields := by
    refine (List.map_congr_left fun e he => ?_).trans (List.map_id fields)
    rw [canonical e he]
    rfl
  have hsorted : KeysSorted fields := by
    rw [KeysSorted, named]
    exact sorted
  rw [wire_obj, hfields, sortKeys_eq_self hsorted]

theorem wire_resolution (resolution : TenantConfigurationResolution) :
    wire resolution.dump = resolution.dump := by
  apply wire_obj_eq_self ["component_catalog_revision", "component_identities",
    "resolution_digest", "tenant_configuration_revision_id"] rfl (by decide)
  simp

theorem wire_bundle {bundle : StoredBundle} (dumped : bundle.Dumped models) :
    wire bundle.value = bundle.value := by
  have hresources := models.resources.canonical _ _ dumped.resources
  have hservices := models.services.canonical _ _ dumped.services
  have hworkflows := models.workflows.canonical _ _ dumped.workflows
  have htriggers := models.triggers.canonical _ _ dumped.triggers
  rw [StoredBundle.value]
  cases bundle.tenantResolution with
  | none =>
      apply wire_obj_eq_self ["resources", "services", "triggers", "workflows"] rfl
        (by decide)
      simp [hresources, hservices, hworkflows, htriggers]
  | some resolution =>
      apply wire_obj_eq_self ["resources", "services", "tenant_resolution", "triggers",
        "workflows"] rfl (by decide)
      simp [hresources, hservices, hworkflows, htriggers, wire_resolution]

theorem wire_tenant {configuration : TenantConfiguration} (dumped : configuration.Dumped models) :
    wire configuration.value = configuration.value := by
  have hworkflows := models.tenantWorkflows.canonical _ _ dumped.workflows
  have htriggers := models.tenantTriggers.canonical _ _ dumped.triggers
  apply wire_obj_eq_self ["component_catalog_revision", "triggers", "workflows"] rfl
    (by decide)
  simp [hworkflows, htriggers]

/-- What is written is canonical already. -/
theorem wire_value {document : StoredDocument} (written : models.Written document) :
    wire document.value = document.value := by
  cases written with
  | bundle validated => exact wire_bundle (bundleOf_some validated).1
  | tenant validated => exact wire_tenant (tenantOf_some validated).1
  | resolved resolution validated unresolved =>
      obtain ⟨⟨hresources, hservices, hworkflows, htriggers⟩, _⟩ := bundleOf_some validated
      exact wire_bundle ⟨hresources, hservices, hworkflows, htriggers⟩

end DocumentModels

/-! ## Bodies -/

namespace ReadBack

theorem wire_envelope {scopeDigest : Digest} {document : StoredDocument}
    (written : models.Written document) :
    wire (envelopeValue scopeDigest document) = envelopeValue scopeDigest document := by
  apply DocumentModels.wire_obj_eq_self ["bundle", "format_version", "scope_digest"] rfl
    (by decide)
  simp [models.wire_value written]

/-- An envelope that was written holds the value of its document. -/
theorem body_eq {scopeDigest : Digest} {document : StoredDocument} {body : JsonValue}
    (written : models.Written document) (h : envelopeBytes scopeDigest document = .ok body) :
    body = envelopeValue scopeDigest document := by
  rw [envelopeBytes] at h
  split at h
  · cases h
  · cases h
    exact wire_envelope written

theorem envelopeBytes_ok {scopeDigest : Digest} {document : StoredDocument}
    (h : canonicalBytes (envelopeValue scopeDigest document) ≤ maxConfigurationEnvelopeBytes) :
    envelopeBytes scopeDigest document = .ok (wire (envelopeValue scopeDigest document)) := by
  rw [envelopeBytes]
  exact if_neg (Nat.not_lt.mpr h)

/-- A document that fits leaves room for its envelope. -/
theorem envelopeBytes_of_fits {document : StoredDocument} (scopeDigest : Digest)
    (written : models.Written document) (fits : document.Fits) :
    envelopeBytes scopeDigest document = .ok (envelopeValue scopeDigest document) := by
  have hversion : canonicalBytes (.int 1) ≤ 1 := by decide
  have hkeys : keyBytes ["bundle", "format_version", "scope_digest"] = 44 := by decide
  have hwithin : canonicalBytes (envelopeValue scopeDigest document) ≤
      2 + 44 + (maxConfigurationBytes + (1 + (66 + 0))) := by
    rw [← hkeys]
    exact canonicalBytes_obj_within (.cons fits.2
      (.cons hversion (.cons (bytes_digest scopeDigest).le .nil)))
  have hroom : ∀ n, 2 + 44 + (n + (1 + (66 + 0))) ≤ n + 4096 := by omega
  have hlimit : canonicalBytes (envelopeValue scopeDigest document) ≤
      maxConfigurationEnvelopeBytes := hwithin.trans (hroom maxConfigurationBytes)
  rw [envelopeBytes_ok hlimit, wire_envelope written]

theorem envelopeOf_envelope (scopeDigest : Digest) (document : StoredDocument) :
    envelopeOf models (envelopeValue scopeDigest document) =
      (models.documentOf document.value).map fun found => (scopeDigest, found) := by
  have hfields : onlyFields ["format_version", "scope_digest", "bundle"]
      (envelopeValue scopeDigest document) = true := by
    simp [onlyFields, envelopeValue]
  rw [envelopeOf, if_pos ⟨hfields, rfl⟩]
  cases hdocument : models.documentOf document.value <;>
    simp [envelopeValue, List.lookup_cons, asStr, digestOf_text, hdocument]

/-- The body of a written document gives it back when it fits, and is invalid when not. -/
theorem bundleOf_envelope {document : StoredDocument} (scopeDigest : Digest)
    (written : models.Written document) :
    bundleOf models scopeDigest (envelopeValue scopeDigest document) = .ok document ∧
        document.Fits ∨
      bundleOf models scopeDigest (envelopeValue scopeDigest document) =
          .error (.integrity "Stored configuration body is invalid") ∧ ¬ document.Fits := by
  rw [bundleOf, envelopeOf_envelope]
  obtain ⟨hdocument, fits⟩ | ⟨hdocument, unfit⟩ := models.documentOf_value written
  · left
    refine ⟨?_, fits⟩
    simp [hdocument, envelopeBytes_of_fits scopeDigest written fits, Bind.bind, Except.bind,
      Pure.pure, Except.pure]
  · right
    refine ⟨?_, unfit⟩
    simp [hdocument]

/-! ## What a store holds -/

/-- The store holds the documents that it has accepted. -/
structure Session.Kept (models : DocumentModels) (session : Session) : Prop where
  drafts : ∀ scopeDigest document, session.drafts scopeDigest = some document →
    models.Written document ∧ ∃ version,
      session.store.drafts.get? scopeDigest =
        some (version, envelopeValue scopeDigest document)
  revisions : ∀ scopeDigest revisionId document,
    session.revisions (scopeDigest, revisionId) = some document →
      models.Written document ∧ ∃ row,
        session.store.revisions.get? (scopeDigest, revisionId) = some row ∧
          row.body = envelopeValue scopeDigest document ∧
          revisionIdentity models scopeDigest document row.parentRevisionId = revisionId

theorem kept_empty : Session.empty.Kept models :=
  ⟨nofun, nofun⟩

section Calls

variable {store next : SqliteStore} {scopeDigest : Digest} {document : StoredDocument}

theorem compareAndSwapDraft_ok {expectedVersion : Option Int} {draft : DraftRecord}
    (written : models.Written document)
    (h : compareAndSwapDraft store scopeDigest document expectedVersion = .ok (draft, next)) :
    ∃ version, next = { store with
      drafts :=
        store.drafts.insert scopeDigest (version, envelopeValue scopeDigest document) } := by
  rw [compareAndSwapDraft] at h
  obtain ⟨body, hbody, h⟩ := exists_of_bind_eq_ok h
  obtain rfl := body_eq written hbody
  dsimp only at h
  split at h
  · cases h
  · cases h
    exact ⟨_, rfl⟩

theorem checked_ok {message : String} (h : SqliteStore.checked store message = .ok next) :
    next = store := by
  rw [SqliteStore.checked] at h
  split at h
  · exact (Except.ok.inj h).symm
  · cases h

/-- An accepted revision is in the table, under its identity and with its parent. -/
theorem createRevision_ok {parent : Option RevisionIdentity} {reading : Option UtcTime}
    {record : RevisionRecord} (written : models.Written document)
    (h : createRevision models store scopeDigest document parent reading = .ok (record, next)) :
    record.revisionId = revisionIdentity models scopeDigest document parent ∧
      next.drafts = store.drafts ∧
      (∃ row, next.revisions.get? (scopeDigest, record.revisionId) = some row ∧
        row.parentRevisionId = parent ∧ row.body = envelopeValue scopeDigest document) ∧
      ∀ key ≠ (scopeDigest, record.revisionId),
        next.revisions.get? key = store.revisions.get? key := by
  rw [createRevision] at h
  obtain ⟨body, hbody, h⟩ := exists_of_bind_eq_ok h
  obtain rfl := body_eq written hbody
  obtain ⟨createdAt, _, h⟩ := exists_of_bind_eq_ok h
  obtain ⟨_, _, h⟩ := exists_of_bind_eq_ok h
  dsimp only at h
  split at h
  · next row found =>
      split at h
      · cases h
      · next same =>
          cases h
          obtain ⟨hparent, hbody⟩ := not_or.mp same
          exact ⟨rfl, rfl, ⟨row, found, not_not.mp hparent, not_not.mp hbody⟩, fun _ _ => rfl⟩
  · obtain ⟨stored, hstored, h⟩ := exists_of_bind_eq_ok h
    cases h
    obtain rfl := checked_ok hstored
    refine ⟨rfl, rfl, ⟨_, Table.get?_insert_self _ _ _, rfl, rfl⟩, ?_⟩
    exact fun key hne => Table.get?_insert_ne _ hne _

theorem compareAndSwapActive_ok {revisionId : RevisionIdentity}
    {expectedRevisionId : Option RevisionIdentity} {expectedVersion : Option Int}
    {pointer : Stores.ActivePointer}
    (h : store.compareAndSwapActive scopeDigest revisionId expectedRevisionId expectedVersion =
      .ok (pointer, next)) :
    next.drafts = store.drafts ∧ next.revisions = store.revisions := by
  rw [SqliteStore.compareAndSwapActive] at h
  obtain ⟨_, _, h⟩ := exists_of_bind_eq_ok h
  dsimp only at h
  split at h
  · cases h
  · obtain ⟨stored, hstored, h⟩ := exists_of_bind_eq_ok h
    cases h
    obtain rfl := checked_ok hstored
    exact ⟨rfl, rfl⟩

/-- Deletions leave the rows of all other revisions. -/
theorem deleteRevisions_ok {revisionIds : List RevisionIdentity}
    (h : revisionIds.foldlM (fun store revisionId =>
      SqliteStore.deleteRevision store scopeDigest revisionId) store = .ok next) :
    next.drafts = store.drafts ∧ ∀ key, ¬ (key.1 = scopeDigest ∧ key.2 ∈ revisionIds) →
      next.revisions.get? key = store.revisions.get? key := by
  induction revisionIds generalizing store with
  | nil =>
      cases h
      exact ⟨rfl, fun _ _ => rfl⟩
  | cons revisionId rest ih =>
      rw [List.foldlM_cons] at h
      obtain ⟨middle, hmiddle, h⟩ := exists_of_bind_eq_ok h
      obtain rfl := checked_ok hmiddle
      obtain ⟨hdrafts, hrevisions⟩ := ih h
      refine ⟨hdrafts, ?_⟩
      intro key hkey
      have hrest : ¬ (key.1 = scopeDigest ∧ key.2 ∈ rest) :=
        fun hrest => hkey ⟨hrest.1, List.mem_cons_of_mem _ hrest.2⟩
      have hne : key ≠ (scopeDigest, revisionId) := by
        rintro rfl
        exact hkey ⟨rfl, List.mem_cons_self⟩
      rw [hrevisions key hrest, Table.get?_erase_ne _ hne]

theorem retainRevisions_ok {keepLatest deleteLimit : Int} {deleted : List RevisionIdentity}
    (h : store.retainRevisions scopeDigest keepLatest deleteLimit = .ok (deleted, next)) :
    next.drafts = store.drafts ∧ ∀ key, ¬ (key.1 = scopeDigest ∧ key.2 ∈ deleted) →
      next.revisions.get? key = store.revisions.get? key := by
  rw [SqliteStore.retainRevisions] at h
  dsimp only at h
  split at h
  · cases h
  · split at h
    · cases h
    · obtain ⟨stored, hstored, h⟩ := exists_of_bind_eq_ok h
      cases h
      exact deleteRevisions_ok hstored

end Calls

/-- Every call keeps what the store holds in step with what it has accepted. -/
theorem Session.Kept.call {session : Session} (kept : session.Kept models)
    (operation : StoreCall models) : (session.call operation).Kept models := by
  cases operation with
  | compareAndSwapDraft scopeDigest document written expectedVersion =>
      rw [Session.call]
      split
      · exact kept
      · next draft store hcall =>
          obtain ⟨version, rfl⟩ := compareAndSwapDraft_ok written hcall
          refine ⟨?_, kept.revisions⟩
          intro scope found hfound
          simp only at hfound ⊢
          by_cases same : scope = scopeDigest
          · subst same
            rw [Function.update_self] at hfound
            cases hfound
            exact ⟨written, version, Table.get?_insert_self _ _ _⟩
          · rw [Function.update_of_ne same] at hfound
            rw [Table.get?_insert_ne _ same]
            exact kept.drafts scope found hfound
  | createRevision scopeDigest document written parent reading =>
      rw [Session.call]
      split
      · exact kept
      · next record store hcall =>
          obtain ⟨hidentity, hdrafts, ⟨row, hrow, hparent, hbody⟩, hothers⟩ :=
            createRevision_ok written hcall
          constructor
          · simpa only [hdrafts] using kept.drafts
          · intro scope revisionId found hfound
            simp only at hfound ⊢
            by_cases same : (scope, revisionId) = (scopeDigest, record.revisionId)
            · rw [same, Function.update_self] at hfound
              cases hfound
              cases same
              refine ⟨written, row, hrow, hbody, ?_⟩
              rw [hparent]
              exact hidentity.symm
            · rw [Function.update_of_ne same] at hfound
              rw [hothers _ same]
              exact kept.revisions scope revisionId found hfound
  | compareAndSwapActive scopeDigest revisionId expectedRevisionId expectedVersion =>
      rw [Session.call]
      split
      · exact kept
      · next pointer store hcall =>
          obtain ⟨hdrafts, hrevisions⟩ := compareAndSwapActive_ok hcall
          constructor
          · simpa only [hdrafts] using kept.drafts
          · simpa only [hrevisions] using kept.revisions
  | retainRevisions scopeDigest keepLatest deleteLimit =>
      rw [Session.call]
      split
      · exact kept
      · next deleted store hcall =>
          obtain ⟨hdrafts, hothers⟩ := retainRevisions_ok hcall
          constructor
          · simpa only [hdrafts] using kept.drafts
          · intro scope revisionId found hfound
            simp only at hfound ⊢
            split at hfound
            · cases hfound
            · next remains =>
                rw [hothers _ remains]
                exact kept.revisions scope revisionId found hfound

theorem kept_run (calls : List (StoreCall models)) : (Session.run calls).Kept models :=
  List.foldlRecOn calls Session.call kept_empty fun _ kept operation _ => kept.call operation

/-! ## Reads -/

/-- Reading the draft of a scope gives the document. -/
def DraftReadsBack (models : DocumentModels) (store : SqliteStore) (scopeDigest : Digest)
    (document : StoredDocument) : Prop :=
  ∃ version, readDraft models store scopeDigest = .ok (some ⟨scopeDigest, version, document⟩)

/-- Reading a revision gives the document. -/
def RevisionReadsBack (models : DocumentModels) (store : SqliteStore) (scopeDigest : Digest)
    (revisionId : RevisionIdentity) (document : StoredDocument) : Prop :=
  ∃ parent createdAt, readRevision models store scopeDigest revisionId =
    .ok ⟨scopeDigest, revisionId, parent, createdAt, document⟩

theorem Session.Kept.draft_iff {session : Session} (kept : session.Kept models)
    {scopeDigest : Digest} {document : StoredDocument}
    (stored : session.drafts scopeDigest = some document) :
    DraftReadsBack models session.store scopeDigest document ↔ document.Fits := by
  obtain ⟨written, version, hrow⟩ := kept.drafts _ _ stored
  rw [DraftReadsBack, readDraft, hrow]
  obtain ⟨hread, fits⟩ | ⟨hread, unfit⟩ := bundleOf_envelope scopeDigest written
  · simp only [hread]
    exact iff_of_true ⟨version, rfl⟩ fits
  · simp only [hread]
    exact iff_of_false (by rintro ⟨_, ⟨⟩⟩) unfit

theorem Session.Kept.revision_iff {session : Session} (kept : session.Kept models)
    {scopeDigest : Digest} {revisionId : RevisionIdentity} {document : StoredDocument}
    (stored : session.revisions (scopeDigest, revisionId) = some document) :
    RevisionReadsBack models session.store scopeDigest revisionId document ↔ document.Fits := by
  obtain ⟨written, row, hrow, hbody, hidentity⟩ := kept.revisions _ _ _ stored
  rw [RevisionReadsBack, readRevision, hrow]
  obtain ⟨hread, fits⟩ | ⟨hread, unfit⟩ := bundleOf_envelope scopeDigest written
  · simp only [hbody, hread, Bind.bind, Except.bind, hidentity, ne_eq, not_true_eq_false, if_false]
    exact iff_of_true ⟨_, _, rfl⟩ fits
  · simp only [hbody, hread, Bind.bind, Except.bind]
    exact iff_of_false (by rintro ⟨_, _, ⟨⟩⟩) unfit

/-- A model of a field without conditions. -/
def openField : FieldModel where
  validate value := some (wire value)
  redumped := by
    rintro value _ ⟨⟩
    rw [wire_wire]
  canonical := by
    rintro value _ ⟨⟩
    rw [wire_wire]

def someDigest : Digest where
  text := String.ofList (List.replicate 64 '0')
  length := by decide
  hex := by decide

def openModels : DocumentModels where
  hashing := ⟨fun _ => someDigest⟩
  lower := id
  lowered := fun _ _ => rfl
  resources := openField
  services := openField
  workflows := openField
  triggers := openField
  tenantWorkflows := openField
  tenantTriggers := openField

def quotas : JsonValue := .arr (List.replicate 9982 (.int 0))

/-- A service with a long list among its parameters. -/
def meter : JsonValue :=
  .obj [("connect_timeout_sec", .null), ("dispatch_timeout_sec", .int 30),
    ("params", .obj [("quotas", quotas)]), ("response_timeout_sec", .null), ("retries", .int 0),
    ("transport", .str "http"), ("transport_config", .obj [])]

def meterBundle : StoredBundle where
  resources := .obj [("resources", .obj [])]
  services := .obj [("services", .obj [("meter", meter)])]
  workflows := .obj []
  triggers := .obj [("triggers", .obj [])]
  tenantResolution := none

def meterResolution : TenantConfigurationResolution where
  tenantConfigurationRevisionId := someDigest
  componentCatalogRevision := someDigest
  componentIdentities := []
  resolutionDigest := ⟨someDigest⟩
  identified := rfl
  bounded := Nat.zero_le _

def resolvedMeter : StoredDocument :=
  .bundle { meterBundle with tenantResolution := some meterResolution }

theorem memberCount_quotas : memberCount quotas = 9982 := by
  have hitems : ∀ n, itemsCount (List.replicate n (.int 0)) = 0 := by
    intro n
    induction n with
    | zero => rfl
    | succ n ih => rw [List.replicate_succ, itemsCount, ih]; rfl
  rw [quotas, memberCount, hitems, List.length_replicate]

theorem memberCount_obj (fields : List (String × JsonValue)) :
    memberCount (.obj fields) = fields.length + fieldsCount fields := by
  rw [memberCount]

theorem fieldsCount_cons (name : String) (v : JsonValue) (rest : List (String × JsonValue)) :
    fieldsCount ((name, v) :: rest) = memberCount v + fieldsCount rest := by
  rw [fieldsCount]

theorem memberCount_meter : memberCount meterBundle.value = 9998 := by
  rw [meterBundle, StoredBundle.value, meter]
  simp only [memberCount_obj, fieldsCount_cons, memberCount_quotas, List.cons_append,
    List.nil_append]
  rfl

theorem memberCount_resolvedMeter : memberCount resolvedMeter.value = 10003 := by
  rw [resolvedMeter, StoredDocument.value, StoredBundle.value, meterBundle, meter]
  simp only [memberCount_obj, fieldsCount_cons, memberCount_quotas, Option.toList, List.map_cons,
    List.map_nil, TenantConfigurationResolution.dump, meterResolution, List.cons_append,
    List.nil_append]
  rfl

theorem canonicalBytes_quotas : canonicalBytes quotas ≤ 2 + 9982 * (1 + 1) := by
  have hzero : canonicalBytes (.int 0) ≤ 1 := by decide
  apply canonicalBytes_arr_le 1 (by rw [List.length_replicate])
  intro v hv
  rw [(List.mem_replicate.mp hv).2]
  exact hzero

theorem structured_quotas : validateStructure 5 quotas = .ok 9982 := by
  have hdepth : ∀ depth ≤ 6, depth ≤ maxConfigurationDepth := by decide
  have hstructured : Structured 5 quotas := by
    refine structured_arr_iff.mpr ⟨hdepth 5 (by decide), ?_, ?_⟩
    · intro v hv
      rw [(List.mem_replicate.mp hv).2]
      exact structured_int 0 (hdepth 6 (by decide))
    · rw [← quotas, memberCount_quotas]
      decide
  obtain ⟨count, hcount⟩ := hstructured
  rw [hcount, validateStructure_ok hcount, memberCount_quotas]

/-- The structure of the bundle, whatever its list of quotas is. -/
theorem validateStructure_meterOf {list : JsonValue} (h : validateStructure 5 list = .ok 9982) :
    validateStructure 0 (.obj [("resources", .obj [("resources", .obj [])]),
      ("services", .obj [("services", .obj [("meter", .obj [("connect_timeout_sec", .null),
        ("dispatch_timeout_sec", .int 30), ("params", .obj [("quotas", list)]),
        ("response_timeout_sec", .null), ("retries", .int 0), ("transport", .str "http"),
        ("transport_config", .obj [])])])]),
      ("triggers", .obj [("triggers", .obj [])]), ("workflows", .obj [])]) = .ok 9998 := by
  simp [validateStructure, validateFields, limited, maxConfigurationDepth,
    maxConfigurationCollectionItems, h, Bind.bind, Except.bind, Pure.pure, Except.pure]

theorem structured_meter : Structured 0 meterBundle.value :=
  ⟨9998, validateStructure_meterOf structured_quotas⟩

theorem holdsSecret_meter : holdsSecret id meterBundle.value = false := by
  have hquotas : holdsSecret id quotas = false := by
    rw [quotas, holdsSecret, itemsHoldSecret_eq_any, List.any_replicate]
    rfl
  have hkeys : ∀ name ∈ ["resources", "services", "triggers", "workflows", "meter",
      "connect_timeout_sec", "dispatch_timeout_sec", "params", "quotas", "response_timeout_sec",
      "retries", "transport", "transport_config"], secretField id name = false := by
    decide
  simp only [List.forall_mem_cons] at hkeys
  simp [meterBundle, StoredBundle.value, meter, holdsSecret, fieldsHoldSecret, hquotas,
    hkeys]

theorem canonicalBytes_meterLeaves : ∀ v ∈ [JsonValue.null, .int 30, .int 0, .str "http", .obj [],
    .obj [("resources", .obj [])], .obj [("triggers", .obj [])]], canonicalBytes v ≤ 100 := by
  decide

theorem canonicalBytes_servicesOfMeter :
    canonicalBytes (.obj [("services", .obj [("meter", meter)])]) ≤ 22000 := by
  have hleaf := canonicalBytes_meterLeaves
  simp only [List.forall_mem_cons] at hleaf
  obtain ⟨hnull, hthirty, hzero, hhttp, hempty, _⟩ := hleaf
  have hparams : canonicalBytes (.obj [("quotas", quotas)]) ≤ 2 + 40 + (19966 + 0) :=
    canonicalBytes_obj_counted (by decide) (.cons canonicalBytes_quotas .nil)
  have hmeter : canonicalBytes meter ≤ 2 + 610 + (100 + (100 + (20008 + (100 + (100 + (100 +
      (100 + 0))))))) :=
    canonicalBytes_obj_counted (by decide) (.cons hnull (.cons hthirty (.cons hparams (.cons hnull
      (.cons hzero (.cons hhttp (.cons hempty .nil)))))))
  have hname : canonicalBytes (.obj [("meter", meter)]) ≤ 2 + 34 + (21220 + 0) :=
    canonicalBytes_obj_counted (by decide) (.cons hmeter .nil)
  exact (canonicalBytes_obj_counted (by decide) (.cons hname .nil)).trans
    (by decide : 2 + 52 + (21256 + 0) ≤ 22000)

theorem canonicalBytes_meterResolution : canonicalBytes meterResolution.dump ≤ 1000 := by
  have hidentities : canonicalBytes (.arr []) ≤ 2 := by decide
  exact (canonicalBytes_obj_counted (by decide) (.cons (bytes_digest _).le (.cons hidentities
    (.cons (bytes_provenanceDigest _).le (.cons (bytes_digest _).le .nil))))).trans
      (by decide : 2 + 600 + (66 + (2 + (66 + (66 + 0)))) ≤ 1000)

/-- The bytes of the resolved bundle, without and with its resolution. -/
theorem canonicalBytes_meter :
    canonicalBytes meterBundle.value ≤ 30000 ∧ canonicalBytes resolvedMeter.value ≤ 30000 := by
  have hleaf := canonicalBytes_meterLeaves
  simp only [List.forall_mem_cons] at hleaf
  obtain ⟨_, _, _, _, hempty, hresources, htriggers, _⟩ := hleaf
  constructor
  · exact (canonicalBytes_obj_counted (by decide) (.cons hresources
      (.cons canonicalBytes_servicesOfMeter (.cons htriggers (.cons hempty .nil))))).trans
        (by decide : 2 + 600 + (100 + (22000 + (100 + (100 + 0)))) ≤ 30000)
  · exact (canonicalBytes_obj_counted (by decide) (.cons hresources
      (.cons canonicalBytes_servicesOfMeter (.cons canonicalBytes_meterResolution
        (.cons htriggers (.cons hempty .nil)))))).trans
          (by decide : 2 + 600 + (100 + (22000 + (1000 + (100 + (100 + 0))))) ≤ 30000)

theorem openField_validate {value : JsonValue} (canonical : wire value = value) :
    openField.validate value = some value :=
  congrArg some canonical

theorem meterBundle_dumped : meterBundle.Dumped openModels := by
  have hone : ∀ e : String × JsonValue, sortKeys [e] = [e] := fun _ => rfl
  have hquotas : wire quotas = quotas := by
    rw [quotas, wire_arr, List.map_replicate, wire_int]
  have hmeter : wire meter = meter := by
    apply DocumentModels.wire_obj_eq_self ["connect_timeout_sec", "dispatch_timeout_sec",
      "params", "response_timeout_sec", "retries", "transport", "transport_config"] rfl
      (by decide)
    simp [hquotas, hone]
  refine ⟨openField_validate (by decide), openField_validate ?_,
    openField_validate (by decide), openField_validate (by decide)⟩
  simp [meterBundle, hmeter, hone]

theorem meterBundle_fits : (StoredDocument.bundle meterBundle).Fits := by
  refine ⟨?_, canonicalBytes_meter.1.trans (by decide)⟩
  rw [StoredDocument.value, memberCount_meter]
  decide

/-- The bundle is validated before it is resolved. -/
theorem meterBundle_validated : openModels.bundleOf meterBundle.value = some meterBundle := by
  have accepted : openModels.validateBundle meterBundle = .ok () :=
    DocumentModels.validateBundle_ok_iff.mpr ⟨structured_meter, holdsSecret_meter,
      meterBundle_fits.2, rfl⟩
  rw [DocumentModels.bundleOf_value meterBundle_dumped, if_pos accepted]

theorem resolvedMeter_written : openModels.Written resolvedMeter :=
  .resolved meterResolution meterBundle_validated rfl

theorem resolvedMeter_outgrows : ¬ resolvedMeter.Fits := by
  intro fits
  have hcount := fits.1
  rw [memberCount_resolvedMeter] at hcount
  exact absurd hcount (by decide)

def someTime : UtcTime := ⟨2026, 8, 4, 10, 0, 0, 0⟩

/-- A publication stores the resolved bundle. -/
def publishMeter : List (StoreCall openModels) :=
  [.createRevision someDigest resolvedMeter resolvedMeter_written none (some someTime)]

/-- The first revision of a store is accepted whenever its envelope is. -/
theorem createRevision_first (models : DocumentModels) {scopeDigest : Digest}
    {document : StoredDocument} {body : JsonValue}
    (h : envelopeBytes scopeDigest document = .ok body) (time : UtcTime) :
    ∃ record store, createRevision models Session.empty.store scopeDigest document none
        (some time) = .ok (record, store) ∧
      record.revisionId = revisionIdentity models scopeDigest document none := by
  rw [createRevision, h]
  exact ⟨_, _, rfl, rfl⟩

theorem run_singleton (operation : StoreCall models) :
    Session.run [operation] = Session.empty.call operation := rfl

theorem call_createRevision {session : Session} {scopeDigest : Digest} {document : StoredDocument}
    (written : models.Written document) {parent : Option RevisionIdentity}
    {reading : Option UtcTime} {record : RevisionRecord} {store : SqliteStore}
    (h : createRevision models session.store scopeDigest document parent reading =
      .ok (record, store)) :
    (session.call (.createRevision scopeDigest document written parent reading)).revisions =
      Function.update session.revisions (scopeDigest, record.revisionId) (some document) := by
  simp only [Session.call, h]

theorem call_compareAndSwapDraft {session : Session} {scopeDigest : Digest}
    {document : StoredDocument} (written : models.Written document) {expectedVersion : Option Int}
    {draft : DraftRecord} {store : SqliteStore}
    (h : compareAndSwapDraft session.store scopeDigest document expectedVersion =
      .ok (draft, store)) :
    (session.call (.compareAndSwapDraft scopeDigest document written expectedVersion)).drafts =
      Function.update session.drafts scopeDigest (some document) := by
  simp only [Session.call, h]

theorem publishMeter_stored :
    (Session.run publishMeter).revisions (someDigest, someDigest) = some resolvedMeter := by
  have hlimit : canonicalBytes (envelopeValue someDigest resolvedMeter) ≤
      maxConfigurationEnvelopeBytes := by
    have hversion : canonicalBytes (.int 1) ≤ 1 := by decide
    have hwithin : canonicalBytes (envelopeValue someDigest resolvedMeter) ≤
        2 + 300 + (30000 + (1 + (66 + 0))) :=
      canonicalBytes_obj_counted (by decide) (.cons canonicalBytes_meter.2
        (.cons hversion (.cons (bytes_digest someDigest).le .nil)))
    exact hwithin.trans (by decide)
  obtain ⟨record, store, hcall, hidentity⟩ :=
    createRevision_first openModels (envelopeBytes_ok hlimit) someTime
  have hrevision : record.revisionId = someDigest := hidentity
  rw [publishMeter, run_singleton, @call_createRevision _ Session.empty _ _ _ _ _ _ _ hcall, hrevision,
    Function.update_self]

/-- The draft of a scope, validated and never resolved. -/
def draftMeter : List (StoreCall openModels) :=
  [.compareAndSwapDraft someDigest (.bundle meterBundle) (.bundle meterBundle_validated) none]

theorem draftMeter_stored :
    (Session.run draftMeter).drafts someDigest = some (.bundle meterBundle) := by
  have written : openModels.Written (.bundle meterBundle) := .bundle meterBundle_validated
  have hcall : ∃ draft store, compareAndSwapDraft Session.empty.store someDigest
      (.bundle meterBundle) none = .ok (draft, store) := by
    rw [compareAndSwapDraft, envelopeBytes_of_fits someDigest written meterBundle_fits]
    exact ⟨_, _, rfl⟩
  obtain ⟨draft, store, hcall⟩ := hcall
  rw [draftMeter, run_singleton, @call_compareAndSwapDraft _ Session.empty _ _ _ _ _ _ hcall,
    Function.update_self]

end ReadBack

end Justflow
