import Justflow.Config.Identity

/-!
# Runtime scopes

A runtime scope is a tenant, an application and an environment; outside the trusted boundary only
its digest appears.  A scoped identity carries a kind and the digest of its scope in its prefix,
and whether an identity belongs to a scope is asked of its text alone.
-/

namespace Justflow

def maxScopeComponentLength : Nat := 64
def maxScopedIdentityKindLength : Nat := 32

def isScopeLetter (c : Char) : Bool :=
  ('A' ≤ c && c ≤ 'Z') || ('a' ≤ c && c ≤ 'z') || ('0' ≤ c && c ≤ '9')

def isScopeChar (c : Char) : Bool :=
  isScopeLetter c || c == '.' || c == '_' || c == '-'

/-- `SCOPE_COMPONENT_PATTERN`. -/
def isScopeComponent : List Char → Bool
  | [] => false
  | c :: rest => isScopeLetter c && rest.all isScopeChar

structure ScopeComponent where
  root : String
  bounded : root.length ≤ maxScopeComponentLength
  shaped : isScopeComponent root.toList
  deriving DecidableEq

structure RuntimeScope where
  tenant : ScopeComponent
  application : ScopeComponent
  environment : ScopeComponent
  deriving DecidableEq

def RuntimeScope.digest (hashing : Hashing) (self : RuntimeScope) : Digest :=
  hashing.sha256 (JsonValue.arr
    [.str self.tenant.root, .str self.application.root, .str self.environment.root]).text

def localRuntimeScope : RuntimeScope where
  tenant := ⟨"local", by decide, by decide⟩
  application := ⟨"justflow", by decide, by decide⟩
  environment := ⟨"development", by decide, by decide⟩

/-! ## Compatibility -/

inductive UnscopedCompatibilityMode where
  | reject | localOnly
  deriving DecidableEq

structure ScopeCompatibilityPolicy where
  unscopedMode : UnscopedCompatibilityMode

def ScopeCompatibilityPolicy.owns (hashing : Hashing) (self : ScopeCompatibilityPolicy)
    (observedScopeDigest : Option String) (runtimeScope : RuntimeScope) : Bool :=
  if observedScopeDigest = some (runtimeScope.digest hashing).text then true
  else
    observedScopeDigest = none && self.unscopedMode = .localOnly
      && runtimeScope = localRuntimeScope

def legacyLocalUnscopedPolicy : ScopeCompatibilityPolicy :=
  ⟨.localOnly⟩

/-- Outside the local scope nothing unscoped is owned. -/
theorem owns_iff_of_ne_local {hashing : Hashing} {policy : ScopeCompatibilityPolicy}
    {observed : Option String} {scope : RuntimeScope} (tenant : scope ≠ localRuntimeScope) :
    policy.owns hashing observed scope = true ↔
      observed = some (scope.digest hashing).text := by
  rw [ScopeCompatibilityPolicy.owns]
  split
  · next own => simp [own]
  · next foreign => simp [foreign, tenant]

/-! ## Identities -/

def isKindStart (c : Char) : Bool :=
  'a' ≤ c && c ≤ 'z'

def isKindChar (c : Char) : Bool :=
  isKindStart c || ('0' ≤ c && c ≤ '9') || c == '_' || c == '-'

def isIdentityKind : List Char → Bool
  | [] => false
  | c :: rest => isKindStart c && rest.all isKindChar

/-- A kind that `_validate_identity_kind` admits. -/
structure IdentityKind where
  text : String
  bounded : text.length ≤ maxScopedIdentityKindLength
  shaped : isIdentityKind text.toList
  deriving DecidableEq

namespace IdentityKind

def workflow : IdentityKind := ⟨"workflow", by decide, by decide⟩
def childWorkflow : IdentityKind := ⟨"child-workflow", by decide, by decide⟩
def schedule : IdentityKind := ⟨"schedule", by decide, by decide⟩
def scheduleDispatch : IdentityKind := ⟨"schedule-dispatch", by decide, by decide⟩
def scheduledStartSchedule : IdentityKind := ⟨"scheduled-start-schedule", by decide, by decide⟩

theorem no_dot (kind : IdentityKind) : '.' ∉ kind.text.toList := by
  have shaped := kind.shaped
  intro dot
  cases chars : kind.text.toList with
  | nil => simp [chars] at dot
  | cons c rest =>
      rw [chars] at shaped dot
      simp only [isIdentityKind, Bool.and_eq_true, List.all_eq_true] at shaped
      rcases List.mem_cons.mp dot with rfl | later
      · exact absurd shaped.1 (by decide)
      · exact absurd (shaped.2 '.' later) (by decide)

end IdentityKind

/-- `str.startswith`. -/
def startsWith (value opening : String) : Bool :=
  opening.toList.isPrefixOf value.toList

theorem startsWith_iff {value opening : String} :
    startsWith value opening = true ↔ opening.toList <+: value.toList :=
  List.isPrefixOf_iff_prefix

def scopedIdentityPrefix (kind : IdentityKind) (scopeDigest : Digest) : String :=
  "jf1." ++ kind.text ++ "." ++ scopeDigest.text ++ "."

/-- `scoped_identity`. -/
def RuntimeScope.identity (hashing : Hashing) (self : RuntimeScope) (kind : IdentityKind)
    (parts : List String) : String :=
  hashing.scopedIdentity kind.text (self.digest hashing) parts

def identityBelongsToScope (hashing : Hashing) (value : String) (kind : IdentityKind)
    (scope : RuntimeScope) : Bool :=
  startsWith value (scopedIdentityPrefix kind (scope.digest hashing))

/-- The openings of two lists around a separator that neither opening holds. -/
theorem prefix_around {α : Type} {separator : α} {first second left right : List α}
    (hfirst : separator ∉ first) (hsecond : separator ∉ second) :
    first ++ separator :: left <+: second ++ separator :: right ↔
      first = second ∧ left <+: right := by
  induction first generalizing second with
  | nil =>
      cases second with
      | nil => simp
      | cons b second =>
          simp only [List.nil_append, List.cons_append, List.cons_prefix_cons, reduceCtorEq,
            false_and, iff_false, not_and]
          rintro rfl
          simp at hsecond
  | cons a first ih =>
      cases second with
      | nil =>
          simp only [List.nil_append, List.cons_append, List.cons_prefix_cons, reduceCtorEq,
            false_and, iff_false, not_and]
          rintro rfl
          simp at hfirst
      | cons b second =>
          have rest := ih (List.not_mem_of_not_mem_cons hfirst)
            (List.not_mem_of_not_mem_cons hsecond)
          simp [rest, and_assoc]

theorem prefix_of_length_eq {α : Type} {first second left right : List α}
    (length : first.length = second.length) :
    first ++ left <+: second ++ right ↔ first = second ∧ left <+: right := by
  induction first generalizing second with
  | nil => cases second with
    | nil => simp
    | cons b second => simp at length
  | cons a first ih =>
      cases second with
      | nil => simp at length
      | cons b second =>
          have rest := @ih second (by simpa using length)
          simp [rest, and_assoc]

theorem toList_scopedIdentityPrefix (kind : IdentityKind) (scopeDigest : Digest) :
    (scopedIdentityPrefix kind scopeDigest).toList =
      "jf1.".toList ++ (kind.text.toList ++ '.' :: (scopeDigest.text.toList ++ ['.'])) := by
  simp [scopedIdentityPrefix]

theorem toList_identity (hashing : Hashing) (scope : RuntimeScope) (kind : IdentityKind)
    (parts : List String) :
    (scope.identity hashing kind parts).toList =
      "jf1.".toList ++ (kind.text.toList ++ '.' :: ((scope.digest hashing).text.toList ++
        '.' :: (hashing.sha256 (JsonValue.arr (parts.map .str)).text).text.toList)) := by
  simp [RuntimeScope.identity, Hashing.scopedIdentity]

theorem IdentityKind.ext_text {first second : IdentityKind} (h : first.text = second.text) :
    first = second := by
  cases first
  cases second
  simpa using h

theorem Digest.ext_text {first second : Digest} (h : first.text = second.text) :
    first = second := by
  cases first
  cases second
  simpa using h

/-- An identity belongs to the scopes of its digest, under its own kind. -/
theorem identity_belongs_iff {hashing : Hashing} {scope other : RuntimeScope}
    {kind asked : IdentityKind} {parts : List String} :
    identityBelongsToScope hashing (other.identity hashing kind parts) asked scope = true ↔
      asked = kind ∧ scope.digest hashing = other.digest hashing := by
  have digests : (scope.digest hashing).text.toList.length =
      (other.digest hashing).text.toList.length := by
    rw [String.length_toList, String.length_toList, Digest.length, Digest.length]
  rw [identityBelongsToScope, startsWith_iff, toList_scopedIdentityPrefix, toList_identity,
    List.prefix_append_right_inj, prefix_around asked.no_dot kind.no_dot,
    prefix_of_length_eq digests]
  constructor
  · rintro ⟨kinds, texts, -⟩
    exact ⟨IdentityKind.ext_text (String.toList_injective kinds),
      Digest.ext_text (String.toList_injective texts)⟩
  · rintro ⟨rfl, same⟩
    exact ⟨rfl, by rw [same], by simp⟩

/-- The opening of every scoped identity of a kind. -/
theorem identity_startsWith_kind {hashing : Hashing} {scope : RuntimeScope}
    {kind asked : IdentityKind} {parts : List String} :
    startsWith (scope.identity hashing kind parts) ("jf1." ++ asked.text ++ ".") = true ↔
      asked = kind := by
  have opening : ("jf1." ++ asked.text ++ ".").toList =
      "jf1.".toList ++ (asked.text.toList ++ '.' :: []) := by simp
  rw [startsWith_iff, opening, toList_identity, List.prefix_append_right_inj,
    prefix_around asked.no_dot kind.no_dot]
  constructor
  · rintro ⟨kinds, -⟩
    exact IdentityKind.ext_text (String.toList_injective kinds)
  · rintro rfl
    exact ⟨rfl, List.nil_prefix⟩

/-- `validate_scope_digest`. -/
def validateScopeDigest (value : String) : Option Digest :=
  if h : value.length = 64 ∧ value.toList.all isHexDigit then some (.checked value h) else none

@[simp]
theorem validateScopeDigest_text (digest : Digest) :
    validateScopeDigest digest.text = some digest :=
  dif_pos ⟨digest.length, digest.hex⟩

/-! ## Two tenants -/

def acmeScope : RuntimeScope where
  tenant := ⟨"acme", by decide, by decide⟩
  application := ⟨"orders", by decide, by decide⟩
  environment := ⟨"production", by decide, by decide⟩

def initechScope : RuntimeScope :=
  { acmeScope with tenant := ⟨"initech", by decide, by decide⟩ }

/-- A hash that keeps these scopes apart. -/
def lengthHash : Hashing where
  sha256 text := Digest.ofNat text.length

theorem acmeScope_ne_local : acmeScope ≠ localRuntimeScope := by decide

theorem digests_apart : acmeScope.digest lengthHash ≠ initechScope.digest lengthHash ∧
    localRuntimeScope.digest lengthHash ≠ initechScope.digest lengthHash := by
  decide

end Justflow
