import Justflow.Config.Identity
import Justflow.Configuration.Policy
import Justflow.Library.Enumerations
import Justflow.Runtime.Scope

/-!
# Content identities of catalogs and policies

The revision of a component catalog, the digest of a policy, the digest of a publication request
and the digest of a tenant's resolution are hashes of canonical JSON.  The frozen sets among the
fields are dumped as arrays, in the order in which the process enumerates them.  A dict is listed
in the order of its keys, as canonical JSON writes it.
-/

open JsonValue Document

namespace Justflow

/-! ## Components -/

structure ComponentRuntimeIdentity where
  implementation : String
  version : String
  artifactDigest : ProvenanceDigest

structure ComponentReplayContract where
  deterministic : Bool
  compatibleVersions : List ComponentReference
  retirementIdentity : ProvenanceDigest

structure PlatformStepDeclaration extends PlatformStepComponent where
  description : Option String := none
  runtimeImplementation : ComponentRuntimeIdentity
  replay : ComponentReplayContract

structure PlatformTriggerDeclaration where
  reference : ComponentReference
  description : Option String := none
  runtimeImplementation : ComponentRuntimeIdentity
  replay : ComponentReplayContract
  kind : String
  parameterSchema : JsonValue := .obj []
  outputSchema : JsonValue := .obj []
  resourceSlots : List (String × ResourceCapability) := []
  approvedAliasParameters : List String := []

structure ComponentCatalogDeclaration where
  steps : List (String × PlatformStepDeclaration)
  triggers : List (String × PlatformTriggerDeclaration)

def ResourceCapability.value : ResourceCapability → String
  | .archive => "archive"
  | .cache => "cache"
  | .config => "config"
  | .database => "database"
  | .keyValue => "key-value"
  | .object => "object"
  | .secretReader => "secret-reader"

def ComponentReference.dump (self : ComponentReference) : JsonValue :=
  .obj [("name", .str self.name), ("version", .str self.version)]

def ComponentRuntimeIdentity.dump (self : ComponentRuntimeIdentity) : JsonValue :=
  .obj [("artifact_digest", .str self.artifactDigest.text),
    ("implementation", .str self.implementation), ("version", .str self.version)]

def ComponentReplayContract.dump (self : ComponentReplayContract) : JsonValue :=
  .obj [("compatible_versions", .arr (self.compatibleVersions.map ComponentReference.dump)),
    ("deterministic", .bool self.deterministic),
    ("retirement_identity", .str self.retirementIdentity.text)]

def dumpSlots (slots : List (String × ResourceCapability)) : JsonValue :=
  .obj (slots.map fun slot => (slot.1, .str slot.2.value))

/-- A set of strings, as the process enumerates it. -/
def enumerated (names : List String) : Document :=
  .set (names.map .str)

/-- The fields before and after the alias parameters of a step component. -/
def PlatformStepDeclaration.around (self : PlatformStepDeclaration) :
    List (String × Document) × List (String × Document) :=
  ([("action", .plain (.str self.action)), ("allow_cache", .plain (.bool self.allowCache))],
    (self.description.toList.map fun text => ("description", .plain (.str text))) ++
      [("input_schema", .plain self.inputSchema), ("output_schema", .plain self.outputSchema),
        ("parameter_schema", .plain self.parameterSchema),
        ("reference", .plain self.reference.dump), ("replay", .plain self.replay.dump),
        ("resource_slots", .plain (dumpSlots self.resourceSlots)),
        ("runtime_implementation", .plain self.runtimeImplementation.dump),
        ("transport", .plain (.str self.transport))])

def PlatformStepDeclaration.document (self : PlatformStepDeclaration) : Document :=
  .record (self.around.1 ++
    ("approved_alias_parameters", enumerated self.approvedAliasParameters) :: self.around.2)

def PlatformTriggerDeclaration.after (self : PlatformTriggerDeclaration) :
    List (String × Document) :=
  (self.description.toList.map fun text => ("description", .plain (.str text))) ++
    [("kind", .plain (.str self.kind)), ("output_schema", .plain self.outputSchema),
      ("parameter_schema", .plain self.parameterSchema),
      ("reference", .plain self.reference.dump), ("replay", .plain self.replay.dump),
      ("resource_slots", .plain (dumpSlots self.resourceSlots)),
      ("runtime_implementation", .plain self.runtimeImplementation.dump)]

def PlatformTriggerDeclaration.document (self : PlatformTriggerDeclaration) : Document :=
  .record (("approved_alias_parameters", enumerated self.approvedAliasParameters) :: self.after)

/-- What `_component_catalog_revision` hashes. -/
def ComponentCatalogDeclaration.document (self : ComponentCatalogDeclaration) : Document :=
  .record [
    ("steps", .record (self.steps.map fun entry => (entry.1, entry.2.document))),
    ("triggers", .record (self.triggers.map fun entry => (entry.1, entry.2.document)))]

/-! ## Policies -/

structure TemporalIsolationPolicy where
  mode : String
  namespaceIdentity : Digest
  taskQueueIdentity : Digest
  workerDeploymentIdentity : Digest
  storagePrefixIdentity : Digest
  runtimeCredentialAliases : List String

/-- The policy with the fields that only its digest reads. -/
structure TenantPolicyDeclaration extends TenantAuthoringPolicy where
  scopeDigest : Digest
  componentCatalogRevision : Digest
  triggerComponents : List ComponentReference
  triggerBindings : List (String × String)
  temporal : TemporalIsolationPolicy

def ResourceAuthoringGrant.document (self : ResourceAuthoringGrant) : Document :=
  .record [("capabilities", enumerated (self.capabilities.map ResourceCapability.value)),
    ("provider", .plain (.str self.provider))]

def TemporalIsolationPolicy.document (self : TemporalIsolationPolicy) : Document :=
  .record [("mode", .plain (.str self.mode)),
    ("namespace_identity", .plain (.str self.namespaceIdentity.text)),
    ("runtime_credential_aliases", enumerated self.runtimeCredentialAliases),
    ("storage_prefix_identity", .plain (.str self.storagePrefixIdentity.text)),
    ("task_queue_identity", .plain (.str self.taskQueueIdentity.text)),
    ("worker_deployment_identity", .plain (.str self.workerDeploymentIdentity.text))]

def TenantPolicyDeclaration.document (self : TenantPolicyDeclaration) : Document :=
  .record [
    ("component_catalog_revision", .plain (.str self.componentCatalogRevision.text)),
    ("resource_bindings",
      .record (self.resourceBindings.map fun entry => (entry.1, entry.2.document))),
    ("scope_digest", .plain (.str self.scopeDigest.text)),
    ("secret_aliases", enumerated self.secretAliases),
    ("service_bindings", .plain (.obj (self.serviceBindings.map fun entry =>
      (entry.1, .obj [("transport", .str entry.2.transport)])))),
    ("step_components", .set (self.stepComponents.map ComponentReference.dump)),
    ("temporal", self.temporal.document),
    ("trigger_bindings", .plain (.obj (self.triggerBindings.map fun entry =>
      (entry.1, .obj [("kind", .str entry.2)])))),
    ("trigger_components", .set (self.triggerComponents.map ComponentReference.dump))]

/-! ## Identities -/

def revisionText : Option String → JsonValue
  | none => .null
  | some text => .str text

structure PublicationRequest where
  activeRevisionId : Option Digest
  publication : ProvenanceDigest
  sourceParentRevisionId : Option Digest

def publicationDocument (request : PublicationRequest) (policyDigest : ProvenanceDigest) :
    Document :=
  .record [
    ("active_revision_id", .plain (revisionText (request.activeRevisionId.map Digest.text))),
    ("policy_digest", .plain (.str policyDigest.text)),
    ("publication", .plain (.str request.publication.text)),
    ("source_parent_revision_id",
      .plain (revisionText (request.sourceParentRevisionId.map Digest.text)))]

structure TenantResolution where
  componentIdentities : List String
  scopeDigest : Digest
  tenantConfigurationRevisionId : Digest

def resolutionDocument (resolution : TenantResolution) (catalogRevision : Digest)
    (policy : TenantPolicyDeclaration) : Document :=
  .record [
    ("component_catalog_revision", .plain (.str catalogRevision.text)),
    ("component_identities", .plain (.arr (resolution.componentIdentities.map .str))),
    ("policy", policy.document),
    ("scope_digest", .plain (.str resolution.scopeDigest.text)),
    ("tenant_configuration_revision_id",
      .plain (.str resolution.tenantConfigurationRevisionId.text))]

section Digests

variable (hashing : Hashing)

def documentDigest (document : Document) : Digest :=
  hashing.sha256 document.dump.text

/-- `_component_catalog_revision`. -/
def catalogRevision (catalog : ComponentCatalogDeclaration) : Digest :=
  documentDigest hashing catalog.document

/-- `provenance_digest` of the dumped policy. -/
def policyDigest (policy : TenantPolicyDeclaration) : ProvenanceDigest :=
  ⟨documentDigest hashing policy.document⟩

/-- `_publication_digest`. -/
def publicationDigest (request : PublicationRequest) (policy : TenantPolicyDeclaration) :
    ProvenanceDigest :=
  ⟨documentDigest hashing (publicationDocument request (policyDigest hashing policy))⟩

def resolutionDigest (resolution : TenantResolution) (catalog : ComponentCatalogDeclaration)
    (policy : TenantPolicyDeclaration) : ProvenanceDigest :=
  ⟨documentDigest hashing
    (resolutionDocument resolution (catalogRevision hashing catalog) policy)⟩

end Digests

/-! ## Equal catalogs and policies -/

structure SameStep (first second : PlatformStepDeclaration) : Prop where
  rest : second = { first with approvedAliasParameters := second.approvedAliasParameters }
  aliases : first.approvedAliasParameters.Perm second.approvedAliasParameters

structure SameTrigger (first second : PlatformTriggerDeclaration) : Prop where
  rest : second = { first with approvedAliasParameters := second.approvedAliasParameters }
  aliases : first.approvedAliasParameters.Perm second.approvedAliasParameters

/-- Entries under the same keys, in key order. -/
def SameEntries {α : Type} (Same : α → α → Prop) : List (String × α) → List (String × α) → Prop :=
  List.Forall₂ fun first second => first.1 = second.1 ∧ Same first.2 second.2

/-- Catalogs that compare equal. -/
structure SameCatalog (first second : ComponentCatalogDeclaration) : Prop where
  steps : SameEntries SameStep first.steps second.steps
  triggers : SameEntries SameTrigger first.triggers second.triggers

structure SameGrant (first second : ResourceAuthoringGrant) : Prop where
  provider : first.provider = second.provider
  capabilities : first.capabilities.Perm second.capabilities

structure SameTemporal (first second : TemporalIsolationPolicy) : Prop where
  rest : second = { first with runtimeCredentialAliases := second.runtimeCredentialAliases }
  aliases : first.runtimeCredentialAliases.Perm second.runtimeCredentialAliases

/-- Policies that compare equal. -/
structure SamePolicy (first second : TenantPolicyDeclaration) : Prop where
  scopeDigest : first.scopeDigest = second.scopeDigest
  componentCatalogRevision : first.componentCatalogRevision = second.componentCatalogRevision
  stepComponents : first.stepComponents.Perm second.stepComponents
  triggerComponents : first.triggerComponents.Perm second.triggerComponents
  resourceBindings : SameEntries SameGrant first.resourceBindings second.resourceBindings
  serviceBindings : first.serviceBindings = second.serviceBindings
  triggerBindings : first.triggerBindings = second.triggerBindings
  secretAliases : first.secretAliases.Perm second.secretAliases
  temporal : SameTemporal first.temporal second.temporal

theorem aligned_enumerated {first second : List String} (h : first.Perm second) :
    Aligned (enumerated first) (enumerated second) :=
  .set (h.map _)

theorem SameStep.aligned {first second : PlatformStepDeclaration} (same : SameStep first second) :
    Aligned first.document second.document := by
  obtain ⟨rest, aliases⟩ := same
  rw [rest]
  exact .record (.append (.refl _) (.cons _ (aligned_enumerated aliases) (.refl _)))

theorem SameTrigger.aligned {first second : PlatformTriggerDeclaration}
    (same : SameTrigger first second) : Aligned first.document second.document := by
  obtain ⟨rest, aliases⟩ := same
  rw [rest]
  exact .record (.cons _ (aligned_enumerated aliases) (.refl _))

theorem SameCatalog.aligned {first second : ComponentCatalogDeclaration}
    (same : SameCatalog first second) : Aligned first.document second.document := by
  have steps := @AlignedFields.map _ PlatformStepDeclaration.document SameStep
    (fun _ _ same => same.aligned) _ _ same.steps
  have triggers := @AlignedFields.map _ PlatformTriggerDeclaration.document SameTrigger
    (fun _ _ same => same.aligned) _ _ same.triggers
  exact .record (.cons _ (.record steps) (.cons _ (.record triggers) .nil))

theorem SameGrant.aligned {first second : ResourceAuthoringGrant} (same : SameGrant first second) :
    Aligned first.document second.document := by
  rw [ResourceAuthoringGrant.document, ResourceAuthoringGrant.document, same.provider]
  exact .record (.cons _ (aligned_enumerated (same.capabilities.map _)) (.refl _))

theorem SameTemporal.aligned {first second : TemporalIsolationPolicy}
    (same : SameTemporal first second) : Aligned first.document second.document := by
  obtain ⟨rest, aliases⟩ := same
  rw [rest]
  exact .record (.cons _ (.refl _) (.cons _ (.refl _)
    (.cons _ (aligned_enumerated aliases) (.refl _))))

theorem SamePolicy.aligned {first second : TenantPolicyDeclaration}
    (same : SamePolicy first second) : Aligned first.document second.document := by
  have grants := @AlignedFields.map _ ResourceAuthoringGrant.document SameGrant
    (fun _ _ same => same.aligned) _ _ same.resourceBindings
  rw [TenantPolicyDeclaration.document, TenantPolicyDeclaration.document, same.scopeDigest,
    same.componentCatalogRevision, same.serviceBindings, same.triggerBindings]
  refine .record (.cons _ (.refl _) (.cons _ (.record grants) (.cons _ (.refl _) ?_)))
  refine .cons _ (aligned_enumerated same.secretAliases) (.cons _ (.refl _) ?_)
  refine .cons _ (.set (same.stepComponents.map _)) (.cons _ same.temporal.aligned ?_)
  exact .cons _ (.refl _) (.cons _ (.set (same.triggerComponents.map _)) .nil)

/-! ## Digests in documents -/

theorem escapeChar_plain {c : Char} (h : plainChar c) : escapeChar c = String.singleton c := by
  have table : ∀ n < 127, plainChar (Char.ofNat n) = true →
      escapeChar (Char.ofNat n) = String.singleton (Char.ofNat n) := by decide
  have small : c.toNat < 127 := by
    simp only [plainChar, decide_eq_true_eq] at h
    omega
  have written := table c.toNat small
  rw [Char.ofNat_toNat] at written
  exact written h

theorem quote_plain {s : String} (h : JsonValue.plain s) : quote s = "\"" ++ s ++ "\"" := by
  have joined : String.join (s.toList.map escapeChar) = s := by
    apply String.toList_injective
    rw [String.toList_join, List.flatMap_map]
    have letters : ∀ c ∈ s.toList, (escapeChar c).toList = [c] := by
      intro c hc
      rw [escapeChar_plain (List.all_eq_true.mp h c hc), String.toList_singleton]
    rw [List.flatMap_congr letters]
    exact List.flatMap_singleton' _
  rw [quote, joined]

theorem quote_eq_iff {first second : String} (hfirst : JsonValue.plain first)
    (hsecond : JsonValue.plain second) :
    quote first = quote second ↔ first = second := by
  rw [quote_plain hfirst, quote_plain hsecond]
  constructor
  · intro same
    have lists := congrArg String.toList same
    simp only [String.toList_append] at lists
    exact String.toList_injective (List.append_cancel_left (List.append_cancel_right lists))
  · rintro rfl
    rfl

theorem length_quote_plain {s : String} (h : JsonValue.plain s) : (quote s).length = s.length + 2 := by
  have mark : "\"".length = 1 := by decide
  rw [quote_plain h, String.length_append, String.length_append, mark]
  omega

/-- A field that holds a digest. -/
theorem aligned_digest (first second : Digest) :
    Aligned (.plain (.str first.text)) (.plain (.str second.text)) := by
  apply Aligned.plain
  rw [wire_str, wire_str, text, text, length_quote_plain (plain_digest first),
    length_quote_plain (plain_digest second), first.length, second.length]

theorem plain_provenance (digest : ProvenanceDigest) : JsonValue.plain digest.text := by
  have algorithm : JsonValue.plain "sha256:" = true := by decide
  rw [ProvenanceDigest.text, plain_append, algorithm, plain_digest, Bool.and_self]

theorem aligned_provenance (first second : ProvenanceDigest) :
    Aligned (.plain (.str first.text)) (.plain (.str second.text)) := by
  apply Aligned.plain
  rw [wire_str, wire_str, text, text, length_quote_plain (plain_provenance first),
    length_quote_plain (plain_provenance second), ProvenanceDigest.text, ProvenanceDigest.text,
    String.length_append, String.length_append, first.hex.length, second.hex.length]

theorem digest_alike_iff {first second : Digest} :
    EnumeratedAlike (.plain (.str first.text)) (.plain (.str second.text)) ↔ first = second := by
  rw [EnumeratedAlike, wire_str, wire_str, text, text,
    quote_eq_iff (plain_digest first) (plain_digest second)]
  exact ⟨Digest.ext_text, congrArg Digest.text⟩

theorem provenance_alike_iff {first second : ProvenanceDigest} :
    EnumeratedAlike (.plain (.str first.text)) (.plain (.str second.text)) ↔ first = second := by
  rw [EnumeratedAlike, wire_str, wire_str, text, text,
    quote_eq_iff (plain_provenance first) (plain_provenance second), ProvenanceDigest.text,
    ProvenanceDigest.text, append_eq_append_iff rfl]
  constructor
  · rintro ⟨-, same⟩
    exact congrArg ProvenanceDigest.mk (Digest.ext_text same)
  · rintro rfl
    exact ⟨rfl, rfl⟩

/-! ## When the identities agree -/

/-- The hash does not confuse the texts of two documents. -/
def KeepsApart (hashing : Hashing) (first second : Document) : Prop :=
  documentDigest hashing first = documentDigest hashing second →
    first.dump.text = second.dump.text

theorem documentDigest_eq_iff {hashing : Hashing} {first second : Document}
    (aligned : Aligned first second) (apart : KeepsApart hashing first second) :
    documentDigest hashing first = documentDigest hashing second ↔
      EnumeratedAlike first second := by
  constructor
  · intro same
    exact aligned.text_eq_iff.2.mp (apart same)
  · intro alike
    exact congrArg hashing.sha256 (aligned.text_eq_iff.2.mpr alike)

theorem alike_of_same (value : JsonValue) :
    EnumeratedAlike (.plain value) (.plain value) := by
  rw [EnumeratedAlike]

/-- Equal catalogs and equal policies have equal identities exactly when the sets in them are
enumerated to the same arrays. -/
theorem identities_agree_iff {hashing : Hashing} {catalog otherCatalog : ComponentCatalogDeclaration}
    {policy otherPolicy : TenantPolicyDeclaration} (catalogs : SameCatalog catalog otherCatalog)
    (policies : SamePolicy policy otherPolicy) (request : PublicationRequest)
    (resolution : TenantResolution)
    (catalogApart : KeepsApart hashing catalog.document otherCatalog.document)
    (policyApart : KeepsApart hashing policy.document otherPolicy.document)
    (requestApart : KeepsApart hashing (publicationDocument request (policyDigest hashing policy))
      (publicationDocument request (policyDigest hashing otherPolicy)))
    (resolutionApart : KeepsApart hashing
      (resolutionDocument resolution (catalogRevision hashing catalog) policy)
      (resolutionDocument resolution (catalogRevision hashing otherCatalog) otherPolicy)) :
    (catalogRevision hashing catalog = catalogRevision hashing otherCatalog ↔
        EnumeratedAlike catalog.document otherCatalog.document) ∧
      (policyDigest hashing policy = policyDigest hashing otherPolicy ↔
        EnumeratedAlike policy.document otherPolicy.document) ∧
      (publicationDigest hashing request policy = publicationDigest hashing request otherPolicy ↔
        EnumeratedAlike policy.document otherPolicy.document) ∧
      (resolutionDigest hashing resolution catalog policy =
          resolutionDigest hashing resolution otherCatalog otherPolicy ↔
        EnumeratedAlike catalog.document otherCatalog.document ∧
          EnumeratedAlike policy.document otherPolicy.document) := by
  have wrapped : ∀ {first second : Digest},
      (ProvenanceDigest.mk first = ProvenanceDigest.mk second ↔ first = second) := by
    intro first second
    exact ⟨congrArg ProvenanceDigest.hex, congrArg ProvenanceDigest.mk⟩
  have revision := documentDigest_eq_iff catalogs.aligned catalogApart
  have digest : policyDigest hashing policy = policyDigest hashing otherPolicy ↔
      EnumeratedAlike policy.document otherPolicy.document :=
    wrapped.trans (documentDigest_eq_iff policies.aligned policyApart)
  have published := @documentDigest_eq_iff hashing
    (publicationDocument request (policyDigest hashing policy))
    (publicationDocument request (policyDigest hashing otherPolicy))
    (.record (.cons _ (.refl _) (.cons _ (aligned_provenance _ _) (.refl _)))) requestApart
  have resolved := @documentDigest_eq_iff hashing
    (resolutionDocument resolution (catalogRevision hashing catalog) policy)
    (resolutionDocument resolution (catalogRevision hashing otherCatalog) otherPolicy)
    (.record (.cons _ (aligned_digest _ _) (.cons _ (.refl _) (.cons _ policies.aligned (.refl _)))))
    resolutionApart
  refine ⟨revision, digest, ?_, ?_⟩
  · rw [publicationDigest, publicationDigest, wrapped, published, publicationDocument,
      publicationDocument, EnumeratedAlike]
    simp only [FieldsAlike, provenance_alike_iff, digest, alike_of_same, true_and, and_true]
  · rw [resolutionDigest, resolutionDigest, wrapped, resolved, resolutionDocument,
      resolutionDocument, EnumeratedAlike]
    simp only [FieldsAlike, digest_alike_iff, alike_of_same, true_and, and_true]
    rw [← revision]
    rfl

theorem stepAliases_alike {first second : PlatformStepDeclaration}
    (alike : EnumeratedAlike first.document second.document) :
    EnumeratedAlike (enumerated first.approvedAliasParameters)
      (enumerated second.approvedAliasParameters) := by
  rw [PlatformStepDeclaration.document, PlatformStepDeclaration.document, EnumeratedAlike] at alike
  simp only [PlatformStepDeclaration.around, List.cons_append, List.nil_append, FieldsAlike]
    at alike
  exact alike.2.2.1

theorem catalogSteps_alike {first second : ComponentCatalogDeclaration}
    (alike : EnumeratedAlike first.document second.document) :
    FieldsAlike (first.steps.map fun entry => (entry.1, entry.2.document))
      (second.steps.map fun entry => (entry.1, entry.2.document)) := by
  rw [ComponentCatalogDeclaration.document, ComponentCatalogDeclaration.document, EnumeratedAlike,
    FieldsAlike, EnumeratedAlike] at alike
  exact alike.1

theorem secretAliases_alike {first second : TenantPolicyDeclaration}
    (alike : EnumeratedAlike first.document second.document) :
    EnumeratedAlike (enumerated first.secretAliases) (enumerated second.secretAliases) := by
  rw [TenantPolicyDeclaration.document, TenantPolicyDeclaration.document, EnumeratedAlike] at alike
  simp only [FieldsAlike] at alike
  exact alike.2.2.2.1

/-! ## A catalog of one component -/

/-- A hash that tells one text from all others. -/
def markingHash (marked : String) : Hashing where
  sha256 text := Digest.ofNat (if text = marked then 0 else 1)

theorem markingHash_ne {first second : Document} (h : second.dump.text ≠ first.dump.text) :
    documentDigest (markingHash first.dump.text) first ≠
      documentDigest (markingHash first.dump.text) second := by
  have apart : Digest.ofNat 0 ≠ Digest.ofNat 1 := by decide
  simp only [documentDigest, markingHash, if_neg h]
  exact apart

def uploadCatalog (aliases : List String) : ComponentCatalogDeclaration where
  steps := [("upload@1", {
    reference := ⟨"upload", "1"⟩
    transport := "plain"
    action := "upload"
    approvedAliasParameters := aliases
    runtimeImplementation := ⟨"upload", "1", ⟨Digest.ofNat 1⟩⟩
    replay := ⟨true, [], ⟨Digest.ofNat 2⟩⟩ })]
  triggers := []

def uploadPolicy (first second : String) (h : ∀ credential ∈ [first, second],
    credential ≠ "" ∧ credential.length ≤ maxPolicyNameLength) : TenantPolicyDeclaration where
  stepComponents := [⟨"upload", "1"⟩]
  secretAliases := [first, second]
  validateAliases := h
  scopeDigest := Digest.ofNat 3
  componentCatalogRevision := Digest.ofNat 4
  triggerComponents := []
  triggerBindings := []
  temporal := ⟨"shared", Digest.ofNat 5, Digest.ofNat 6, Digest.ofNat 7, Digest.ofNat 8, []⟩

def sourceFirst : ComponentCatalogDeclaration :=
  uploadCatalog ["source", "target"]

def targetFirst : ComponentCatalogDeclaration :=
  uploadCatalog ["target", "source"]

theorem sourceFirst_same : SameCatalog sourceFirst targetFirst :=
  ⟨.cons ⟨rfl, rfl, .swap _ _ _⟩ .nil, .nil⟩

def alphaFirst : TenantPolicyDeclaration :=
  uploadPolicy "alpha" "gamma" (by decide)

def gammaFirst : TenantPolicyDeclaration :=
  uploadPolicy "gamma" "alpha" (by decide)

theorem alphaFirst_same : SamePolicy alphaFirst gammaFirst :=
  ⟨rfl, rfl, .refl _, .refl _, .nil, rfl, rfl, .swap _ _ _, rfl, .refl _⟩

theorem identities_agree_iff_upload :
    catalogRevision (markingHash "") sourceFirst = catalogRevision (markingHash "") sourceFirst ↔
      EnumeratedAlike sourceFirst.document sourceFirst.document :=
  (@identities_agree_iff (markingHash "") sourceFirst sourceFirst alphaFirst alphaFirst
    ⟨.cons ⟨rfl, rfl, .refl _⟩ .nil, .nil⟩
    ⟨rfl, rfl, .refl _, .refl _, .nil, rfl, rfl, .refl _, rfl, .refl _⟩
    ⟨none, ⟨Digest.ofNat 1⟩, none⟩ ⟨["upload@1"], Digest.ofNat 3, Digest.ofNat 2⟩
    (fun _ => rfl) (fun _ => rfl) (fun _ => rfl) (fun _ => rfl)).1

/-- Two processes enumerate a set of two names differently, and the identities differ. -/
theorem enumeration_changes_identities :
    SameCatalog sourceFirst targetFirst ∧
      catalogRevision (markingHash sourceFirst.document.dump.text) sourceFirst ≠
        catalogRevision (markingHash sourceFirst.document.dump.text) targetFirst ∧
      SamePolicy alphaFirst gammaFirst ∧
      policyDigest (markingHash alphaFirst.document.dump.text) alphaFirst ≠
        policyDigest (markingHash alphaFirst.document.dump.text) gammaFirst := by
  have arrays : ∀ {first second : String}, first.length = second.length → first ≠ second →
      JsonValue.plain first → JsonValue.plain second →
        ¬ EnumeratedAlike (enumerated [first, second]) (enumerated [second, first]) := by
    intro first second sizes apart hfirst hsecond same
    simp only [enumerated, EnumeratedAlike, List.map_cons, List.map_nil, wire_str, text, textItems,
      quote_plain hfirst, quote_plain hsecond, String.append_assoc] at same
    rw [append_eq_append_iff rfl, append_eq_append_iff rfl, append_eq_append_iff sizes] at same
    exact apart same.2.2.1
  refine ⟨sourceFirst_same, ?_, alphaFirst_same, ?_⟩
  · apply markingHash_ne
    intro same
    have alike := sourceFirst_same.aligned.text_eq_iff.2.mp same.symm
    have steps := catalogSteps_alike alike
    simp only [sourceFirst, targetFirst, uploadCatalog, List.map_cons, List.map_nil, FieldsAlike]
      at steps
    exact @arrays "source" "target" (by decide) (by decide) (by decide) (by decide)
      (stepAliases_alike steps.1)
  · intro digests
    refine markingHash_ne ?_ (congrArg ProvenanceDigest.hex digests)
    intro same
    have alike := alphaFirst_same.aligned.text_eq_iff.2.mp same.symm
    have aliases := @secretAliases_alike alphaFirst gammaFirst alike
    simp only [alphaFirst, gammaFirst, uploadPolicy] at aliases
    exact @arrays "alpha" "gamma" (by decide) (by decide) (by decide) (by decide) aliases

end Justflow
