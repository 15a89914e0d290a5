import Justflow.Config.Identity
import Justflow.Library.Lookups

/-!
# Definition manifests

A manifest is the content of a workflow definition and the digest of its canonical JSON, which is
the definition's identity.  `verify_identity` accepts no other digest, so the digest is a function
of the content here.  Open dicts stand in the order in which canonical JSON writes their keys.
-/

namespace Justflow

def manifestFormatVersion : Int := 2

structure ProviderContractIdentity where
  name : String
  version : String
  deriving DecidableEq

structure ContractReference where
  location : String
  identity : String
  deriving DecidableEq

structure EvaluatorIdentity where
  path : String
  deriving DecidableEq

structure ChildDefinitionIdentity where
  workflow : String
  definitionDigest : Digest
  deriving DecidableEq

structure ServiceSchedulingPolicy where
  service : String
  provider : String
  providerContractVersion : String
  connectTimeoutSec : Option Int
  dispatchTimeoutSec : Int
  responseTimeoutSec : Option Int
  retries : Int
  params : List (String × JsonValue)
  deriving DecidableEq

structure DeterministicPolicy where
  services : List ServiceSchedulingPolicy
  runtimeLimits : List (String × Int)
  deriving DecidableEq

structure DefinitionManifestContent where
  formatVersion : Int := manifestFormatVersion
  logicalName : String
  requiredEngineWorkflowAbi : String
  workflow : List (String × JsonValue)
  deterministicPolicy : DeterministicPolicy
  providerContracts : List ProviderContractIdentity
  contracts : List ContractReference
  evaluators : List EvaluatorIdentity
  children : List ChildDefinitionIdentity
  deriving DecidableEq

/-! ## Dumps -/

def ProviderContractIdentity.dump (self : ProviderContractIdentity) : JsonValue :=
  .obj [("name", .str self.name), ("version", .str self.version)]

def ContractReference.dump (self : ContractReference) : JsonValue :=
  .obj [("location", .str self.location), ("identity", .str self.identity)]

def EvaluatorIdentity.dump (self : EvaluatorIdentity) : JsonValue :=
  .obj [("path", .str self.path)]

def ChildDefinitionIdentity.dump (self : ChildDefinitionIdentity) : JsonValue :=
  .obj [("workflow", .str self.workflow), ("definition_digest", .str self.definitionDigest.text)]

def ServiceSchedulingPolicy.dump (self : ServiceSchedulingPolicy) : JsonValue :=
  .obj [("service", .str self.service), ("provider", .str self.provider),
    ("provider_contract_version", .str self.providerContractVersion),
    ("connect_timeout_sec", .ofOption .int self.connectTimeoutSec),
    ("dispatch_timeout_sec", .int self.dispatchTimeoutSec),
    ("response_timeout_sec", .ofOption .int self.responseTimeoutSec),
    ("retries", .int self.retries), ("params", .obj self.params)]

def DeterministicPolicy.dump (self : DeterministicPolicy) : JsonValue :=
  .obj [("services", .arr (self.services.map ServiceSchedulingPolicy.dump)),
    ("runtime_limits", .obj (self.runtimeLimits.map fun entry => (entry.1, .int entry.2)))]

/-- The fields that the digest covers. -/
def DefinitionManifestContent.fields (self : DefinitionManifestContent) :
    List (String × JsonValue) :=
  [("format_version", .int self.formatVersion), ("logical_name", .str self.logicalName),
    ("required_engine_workflow_abi", .str self.requiredEngineWorkflowAbi),
    ("workflow", .obj self.workflow), ("deterministic_policy", self.deterministicPolicy.dump),
    ("provider_contracts", .arr (self.providerContracts.map ProviderContractIdentity.dump)),
    ("contracts", .arr (self.contracts.map ContractReference.dump)),
    ("evaluators", .arr (self.evaluators.map EvaluatorIdentity.dump)),
    ("children", .arr (self.children.map ChildDefinitionIdentity.dump))]

def DefinitionManifestContent.dump (self : DefinitionManifestContent) : JsonValue :=
  .obj self.fields

/-- A manifest that `verify_identity` accepts. -/
structure DefinitionManifest extends DefinitionManifestContent where
  format : formatVersion = manifestFormatVersion
  deriving DecidableEq

/-- Where a definition is stored: its name and its digest. -/
abbrev DefinitionKey := String × Digest

namespace DefinitionManifest

variable (hashing : Hashing)

/-- `definition_digest` of the content. -/
def definitionDigest (self : DefinitionManifest) : Digest :=
  hashing.sha256 (Hashing.canonicalText self.dump)

def key (self : DefinitionManifest) : DefinitionKey :=
  (self.logicalName, self.definitionDigest hashing)

/-- `canonical_bytes`: the text of the manifest with its digest. -/
def canonicalText (self : DefinitionManifest) : String :=
  Hashing.canonicalText
    (.obj (self.fields ++ [("definition_digest", .str (self.definitionDigest hashing).text)]))

end DefinitionManifest

end Justflow
