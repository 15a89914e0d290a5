import Justflow.Config.Identity

/-!
# Configuration documents and store records

A configuration document is known here by the JSON value that it dumps to.  The models that
validate documents are a parameter: `validate` gives the dump of a value that they accept.
What a store writes for a document is its envelope, and reading the envelope back gives the
document (`readEnvelope_envelope`).
-/

open Fields JsonValue

namespace Justflow.Stores

def maxConfigurationBytes : Nat := 1048576
def maxConfigurationEnvelopeBytes : Nat := maxConfigurationBytes + 4096
def maxRevisionPageSize : Nat := 100
def maxRetentionDeleteCount : Nat := 100

/-! ## Errors -/

inductive ConfigurationErrorKind where
  | notFound | conflict | unavailable | integrity | limit | scope | value
  deriving DecidableEq, Repr

structure ConfigurationError where
  kind : ConfigurationErrorKind
  message : String
  deriving DecidableEq, Repr

namespace ConfigurationError

def notFound (message : String) : ConfigurationError := ⟨.notFound, message⟩
def unavailable (message : String) : ConfigurationError := ⟨.unavailable, message⟩
def integrity (message : String) : ConfigurationError := ⟨.integrity, message⟩
def limit (message : String) : ConfigurationError := ⟨.limit, message⟩
def conflict : ConfigurationError := ⟨.conflict, "Configuration state changed concurrently"⟩

def revisionNotFound : ConfigurationError := notFound "Configuration revision was not found"

end ConfigurationError

/-! ## Time -/

instance neZero_year : NeZero 10000 := ⟨by decide⟩
instance neZero_month : NeZero 13 := ⟨by decide⟩
instance neZero_day : NeZero 32 := ⟨by decide⟩
instance neZero_hour : NeZero 24 := ⟨by decide⟩
instance neZero_minute : NeZero 60 := ⟨by decide⟩
instance neZero_microsecond : NeZero 1000000 := ⟨by decide⟩

/-- A reading of the clock in UTC. -/
structure UtcTime where
  year : Fin 10000
  month : Fin 13
  day : Fin 32
  hour : Fin 24
  minute : Fin 60
  second : Fin 60
  microsecond : Fin 1000000
  deriving DecidableEq, Repr

/-- `datetime.isoformat`: the fraction is written only when there is one. -/
def UtcTime.isoformat (self : UtcTime) : String :=
  decimalDigits 4 self.year ++ "-" ++ decimalDigits 2 self.month ++ "-" ++
    decimalDigits 2 self.day ++ "T" ++ decimalDigits 2 self.hour ++ ":" ++
    decimalDigits 2 self.minute ++ ":" ++ decimalDigits 2 self.second ++
    (if self.microsecond = 0 then "" else "." ++ decimalDigits 6 self.microsecond) ++ "+00:00"

example : (⟨2026, 8, 4, 10, 0, 0, 0⟩ : UtcTime).isoformat = "2026-08-04T10:00:00+00:00" := by
  decide

/-- `_timestamp`: a reading without a time zone is refused. -/
def timestamp (reading : Option UtcTime) : Except ConfigurationError UtcTime :=
  match reading with
  | some time => .ok time
  | none => .error (.integrity "Configuration store clock must be timezone-aware")

/-! ## Documents -/

/-- What is fixed for a store: its hash function and the models of its documents. -/
structure ConfigurationHost where
  hashing : Hashing
  validate : JsonValue → Option JsonValue

/-- A configuration bundle or a tenant configuration. -/
structure ConfigurationDocument (host : ConfigurationHost) where
  value : JsonValue
  accepted : host.validate value = some value
  canonical : wire value = value
  bounded : canonicalBytes value ≤ maxConfigurationBytes
  deriving DecidableEq

variable {host : ConfigurationHost}

@[ext]
theorem ConfigurationDocument.ext {first second : ConfigurationDocument host}
    (h : first.value = second.value) : first = second := by
  cases first
  cases second
  cases h
  rfl

/-- The value of a `ConfigurationEnvelope`. -/
def envelopeValue (scopeDigest : Digest) (bundle : ConfigurationDocument host) : JsonValue :=
  .obj [("bundle", bundle.value), ("format_version", .int 1),
    ("scope_digest", .str scopeDigest.text)]

/-- `ConfigurationEnvelope.canonical_bytes`. -/
def envelopeBytes (scopeDigest : Digest) (bundle : ConfigurationDocument host) :
    Except ConfigurationError JsonValue :=
  if maxConfigurationEnvelopeBytes < canonicalBytes (envelopeValue scopeDigest bundle) then
    .error ⟨.value, "Configuration envelope exceeds its byte limit"⟩
  else .ok (envelopeValue scopeDigest bundle)

/-- Read a stored envelope; `origin` says in the messages where it was stored. -/
def readEnvelope (host : ConfigurationHost) (origin : String) (scopeDigest : Digest)
    (payload : JsonValue) : Except ConfigurationError (ConfigurationDocument host) :=
  match payload with
  | .obj [("bundle", value), ("format_version", .int 1), ("scope_digest", .str stored)] =>
      if h : (host.validate value).isSome ∧ canonicalBytes value ≤ maxConfigurationBytes then
        if stored ≠ scopeDigest.text then
          .error (.integrity (origin ++ " configuration body has the wrong scope"))
        else if hcanonical : host.validate value = some value ∧ wire value = value then
          .ok ⟨value, hcanonical.1, hcanonical.2, h.2⟩
        else .error (.integrity (origin ++ " configuration body is not canonical"))
      else .error (.integrity (origin ++ " configuration body is invalid"))
  | _ => .error (.integrity (origin ++ " configuration body is invalid"))

/-- An envelope is never over its limit. -/
@[simp]
theorem envelopeBytes_eq (scopeDigest : Digest) (bundle : ConfigurationDocument host) :
    envelopeBytes scopeDigest bundle = .ok (envelopeValue scopeDigest bundle) := by
  have hversion : canonicalBytes (.int 1) ≤ 1 := by decide
  have hkeys : keyBytes ["bundle", "format_version", "scope_digest"] = 44 := by decide
  have hwithin : canonicalBytes (envelopeValue scopeDigest bundle) ≤
      2 + 44 + (maxConfigurationBytes + (1 + (66 + 0))) := by
    rw [← hkeys]
    exact canonicalBytes_obj_within (.cons bundle.bounded
      (.cons hversion (.cons (bytes_digest scopeDigest).le .nil)))
  have hroom : ∀ n, 2 + 44 + (n + (1 + (66 + 0))) ≤ n + 4096 := by omega
  exact if_neg (Nat.not_lt.mpr (hwithin.trans (hroom maxConfigurationBytes)))

@[simp]
theorem readEnvelope_envelope (origin : String) (scopeDigest : Digest)
    (bundle : ConfigurationDocument host) :
    readEnvelope host origin scopeDigest (envelopeValue scopeDigest bundle) = .ok bundle := by
  simp [readEnvelope, envelopeValue, bundle.accepted, bundle.canonical, bundle.bounded]

theorem envelopeValue_injective {scopeDigest : Digest} {first second : ConfigurationDocument host}
    (h : envelopeValue scopeDigest first = envelopeValue scopeDigest second) : first = second := by
  simp only [envelopeValue, JsonValue.obj.injEq, List.cons.injEq, Prod.mk.injEq] at h
  exact ConfigurationDocument.ext h.1.2

/-! ## Revisions -/

/-- The value that a revision identity is the digest of. -/
def identityPayload (scopeDigest : Digest) (bundle : ConfigurationDocument host)
    (parent : Option RevisionIdentity) : JsonValue :=
  .obj [("bundle", bundle.value),
    ("parent_revision_id", .ofOption (fun revision : Digest => .str revision.text) parent),
    ("scope_digest", .str scopeDigest.text)]

/-- `configuration_revision_identity`. -/
def configurationRevisionIdentity (scopeDigest : Digest) (bundle : ConfigurationDocument host)
    (parent : Option RevisionIdentity) : RevisionIdentity :=
  host.hashing.sha256 (Hashing.canonicalText (identityPayload scopeDigest bundle parent))

structure DraftRecord (host : ConfigurationHost) where
  scopeDigest : Digest
  version : Int
  bundle : ConfigurationDocument host
  deriving DecidableEq

structure RevisionRecord (host : ConfigurationHost) where
  scopeDigest : Digest
  revisionId : RevisionIdentity
  parentRevisionId : Option RevisionIdentity
  createdAt : UtcTime
  bundle : ConfigurationDocument host
  deriving DecidableEq

structure RevisionSummary where
  scopeDigest : Digest
  revisionId : RevisionIdentity
  parentRevisionId : Option RevisionIdentity
  createdAt : UtcTime
  deriving DecidableEq

structure ActivePointer where
  scopeDigest : Digest
  revisionId : RevisionIdentity
  version : Int
  deriving DecidableEq

end Justflow.Stores
