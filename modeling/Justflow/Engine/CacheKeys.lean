import Justflow.Config.Identity
import Justflow.Library.Lookups
import Justflow.Library.Programs

/-!
# Keys of cached results

A step with a cache directive is answered from the cache when there is an entry under its storage
key, and otherwise stores its result under the same key.  The key is joined from the digest of
the scope, the identities of the definition and of the output contract, and the key that the
workflow gives to the step; the service and the action are not part of it.
-/

open Fields Program

namespace Justflow

/-- `CacheDirective`, as an activity receives it. -/
structure ActivityCache where
  resource : String
  key : String
  ttlSec : Option Nat := none
  definitionDigest : Option String := none
  contractIdentity : Option String := none
  deriving DecidableEq

/-- `CACHE_NAMESPACE_ERROR`. -/
inductive CacheError where
  | namespaceIncomplete (message : String)
  deriving DecidableEq

/-- `_cache_storage_key`. -/
def cacheStorageKey (cache : ActivityCache) (scopeDigest : Option String) :
    Except CacheError String :=
  match cache.definitionDigest, cache.contractIdentity with
  | none, none =>
      match scopeDigest with
      | none => .ok cache.key
      | some scope => .ok (scope ++ ":" ++ cache.key)
  | some definition, some contract =>
      match scopeDigest with
      | none => .ok (definition ++ ":" ++ contract ++ ":" ++ cache.key)
      | some scope => .ok (scope ++ ":" ++ definition ++ ":" ++ contract ++ ":" ++ cache.key)
  | _, _ =>
      .error (.namespaceIncomplete
        "Cache namespace requires both definition and contract identity")

/-- What `execute_step` reads of an activity's input for the cache. -/
structure CachedInput where
  serviceName : String
  action : String
  scopeDigest : Option String
  cache : ActivityCache
  deriving DecidableEq

/-! ## Caches -/

/-- Where an entry lies: in which cache resource, under which key. -/
structure CacheSlot where
  resource : String
  key : String
  deriving DecidableEq

/-- The entries of all cache resources. -/
abbrev CacheEntries := List (CacheSlot × String)

/-- The lookup of `execute_step`: the text under the storage key, if there is one. -/
def lookupCached (entries : CacheEntries) (input : CachedInput) :
    Except CacheError (Option String) := do
  let key ← cacheStorageKey input.cache input.scopeDigest
  return entries.lookup ⟨input.cache.resource, key⟩

/-- The store of `execute_step`, after the service has answered. -/
def storeCached (entries : CacheEntries) (input : CachedInput) (text : String) :
    Except CacheError CacheEntries := do
  let key ← cacheStorageKey input.cache input.scopeDigest
  return Fields.set ⟨input.cache.resource, key⟩ text entries

/-- What happens to the caches; lookups and stores of concurrent steps come in any order. -/
inductive CacheEvent (Invocation : Type) where
  | stored (invocation : Invocation) (text : String)
  | looked (invocation : Invocation)
  | expired (slot : CacheSlot)
  deriving DecidableEq

section Runs

variable {Invocation : Type} (input : Invocation → CachedInput)

/-- A step whose key cannot be made changes nothing. -/
def afterEvent (entries : CacheEntries) : CacheEvent Invocation → CacheEntries
  | .stored invocation text =>
      match storeCached entries (input invocation) text with
      | .ok stored => stored
      | .error _ => entries
  | .looked _ => entries
  | .expired slot => entries.filter fun entry => entry.1 ≠ slot

/-- The entries after a run from empty caches. -/
def entriesAfter (trace : List (CacheEvent Invocation)) : CacheEntries :=
  trace.foldl (afterEvent input) []

variable {input}

theorem mem_set {key : CacheSlot} {text : String} {entries : CacheEntries}
    {entry : CacheSlot × String} (h : entry ∈ Fields.set key text entries) :
    entry = (key, text) ∨ entry ∈ entries := by
  induction entries with
  | nil => exact .inl (by simpa [Fields.set] using h)
  | cons first rest ih =>
      obtain ⟨k, v⟩ := first
      rw [Fields.set] at h
      split at h
      · rcases List.mem_cons.mp h with same | later
        · exact .inl same
        · exact .inr (List.mem_cons_of_mem _ later)
      · rcases List.mem_cons.mp h with same | later
        · exact .inr (same ▸ List.mem_cons_self)
        · exact (ih later).imp id (List.mem_cons_of_mem _)

/-- The entry was stored by an invocation of the run under its own storage key. -/
def StoredBy (input : Invocation → CachedInput) (trace : List (CacheEvent Invocation))
    (entry : CacheSlot × String) : Prop :=
  ∃ writer, CacheEvent.stored writer entry.2 ∈ trace ∧
    entry.1.resource = (input writer).cache.resource ∧
      cacheStorageKey (input writer).cache (input writer).scopeDigest = .ok entry.1.key

/-- Whatever one event leaves was there before or is stored by it. -/
theorem storedBy_after {trace : List (CacheEvent Invocation)} {entries : CacheEntries}
    (event : CacheEvent Invocation) (origin : ∀ entry ∈ entries, StoredBy input trace entry) :
    ∀ entry ∈ afterEvent input entries event, StoredBy input (trace ++ [event]) entry := by
  have earlier : ∀ entry ∈ entries, StoredBy input (trace ++ [event]) entry := by
    intro entry member
    obtain ⟨writer, happened, resource, key⟩ := origin entry member
    exact ⟨writer, List.mem_append_left _ happened, resource, key⟩
  cases event with
  | looked invocation => exact earlier
  | expired slot => exact fun entry member => earlier entry (List.mem_of_mem_filter member)
  | stored writer text =>
      intro entry member
      rw [afterEvent, storeCached] at member
      cases made : cacheStorageKey (input writer).cache (input writer).scopeDigest with
      | error exc =>
          rw [made] at member
          exact earlier entry member
      | ok key =>
          rw [made] at member
          rcases mem_set member with rfl | before
          · exact ⟨writer, List.mem_append_right _ List.mem_cons_self, rfl, made⟩
          · exact earlier entry before

theorem storedBy_foldl (later : List (CacheEvent Invocation))
    {trace : List (CacheEvent Invocation)} {entries : CacheEntries}
    (origin : ∀ entry ∈ entries, StoredBy input trace entry) :
    ∀ entry ∈ later.foldl (afterEvent input) entries, StoredBy input (trace ++ later) entry := by
  induction later generalizing trace entries with
  | nil =>
      rw [List.append_nil]
      exact origin
  | cons event rest ih =>
      have step := ih (storedBy_after event origin)
      rwa [List.append_assoc] at step

theorem storedBy_entriesAfter (trace : List (CacheEvent Invocation)) :
    ∀ entry ∈ entriesAfter input trace, StoredBy input trace entry := by
  have empty : ∀ entry ∈ ([] : CacheEntries), StoredBy input [] entry :=
    fun _ member => by cases member
  exact storedBy_foldl trace empty

/-- A step is answered with what a step of the run stored under the same key. -/
theorem answered_by {trace : List (CacheEvent Invocation)} {reader : Invocation} {text : String}
    (hit : lookupCached (entriesAfter input trace) (input reader) = .ok (some text)) :
    ∃ writer, CacheEvent.stored writer text ∈ trace ∧
      (input writer).cache.resource = (input reader).cache.resource ∧
        ∃ key, cacheStorageKey (input writer).cache (input writer).scopeDigest = .ok key ∧
          cacheStorageKey (input reader).cache (input reader).scopeDigest = .ok key := by
  rw [lookupCached] at hit
  obtain ⟨key, made, found⟩ := exists_of_bind_eq_ok hit
  cases looked : (entriesAfter input trace).lookup ⟨(input reader).cache.resource, key⟩ with
  | none =>
      rw [looked] at found
      cases found
  | some stored =>
      rw [looked] at found
      cases found
      obtain ⟨writer, happened, resource, own⟩ :=
        storedBy_entriesAfter trace _ (mem_lookup looked)
      exact ⟨writer, happened, resource.symm, key, own, made⟩

end Runs

/-! ## Steps of versioned workflows -/

/-- The contract identity of a cached step: `uncontracted`, or the digest of its output schema. -/
def cacheContract : Option ProvenanceDigest → String
  | none => "uncontracted"
  | some identity => identity.text

/-- A cached step of a workflow whose definition has an identity. -/
structure VersionedInvocation where
  serviceName : String
  action : String
  resource : String
  key : String
  ttlSec : Option Nat := none
  scope : Option Digest
  definition : Digest
  outputContract : Option ProvenanceDigest
  deriving DecidableEq

/-- What `run_step` sends: the directive with the namespace of the definition. -/
def VersionedInvocation.input (self : VersionedInvocation) : CachedInput where
  serviceName := self.serviceName
  action := self.action
  scopeDigest := self.scope.map Digest.text
  cache :=
    { resource := self.resource
      key := self.key
      ttlSec := self.ttlSec
      definitionDigest := some self.definition.text
      contractIdentity := some (cacheContract self.outputContract) }

/-- The two steps have the same namespace and the same key. -/
structure VersionedInvocation.SameEntry (writer reader : VersionedInvocation) : Prop where
  resource : writer.resource = reader.resource
  scope : writer.scope = reader.scope
  definition : writer.definition = reader.definition
  outputContract : writer.outputContract = reader.outputContract
  key : writer.key = reader.key

theorem Digest.eq_of_text {first second : Digest} (h : first.text = second.text) :
    first = second := by
  cases first
  cases second
  cases h
  rfl

/-- A joined text gives back the digest that it begins with. -/
theorem digest_append_inj {first second : Digest} {rest later : List Char}
    (h : first.text.toList ++ rest = second.text.toList ++ later) :
    first = second ∧ rest = later := by
  have lengths : first.text.toList.length = second.text.toList.length := by
    rw [String.length_toList, String.length_toList, first.length, second.length]
  obtain ⟨texts, rests⟩ := List.append_inj h lengths
  exact ⟨Digest.eq_of_text (String.toList_injective texts), rests⟩

/-- A digest does not begin like a contract identity. -/
theorem digest_ne_of_head (digest : Digest) (c : Char) {rest later : List Char}
    (plain : isHexDigit c = false) : digest.text.toList ++ rest ≠ c :: later := by
  intro h
  cases chars : digest.text.toList with
  | nil =>
      have length := digest.length
      rw [← String.length_toList, chars] at length
      cases length
  | cons first others =>
      have hex := digest.hex
      rw [chars, List.all_cons, Bool.and_eq_true] at hex
      rw [chars, List.cons_append] at h
      obtain ⟨rfl, -⟩ := List.cons.inj h
      rw [plain] at hex
      cases hex.1

/-- The contract and the key within a joined text. -/
theorem contract_append_inj {first second : Option ProvenanceDigest} {key other : List Char}
    (h : (cacheContract first).toList ++ ':' :: key =
      (cacheContract second).toList ++ ':' :: other) :
    first = second ∧ key = other := by
  cases first with
  | none =>
      cases second with
      | none => exact ⟨rfl, by simpa [cacheContract] using h⟩
      | some identity =>
          rw [cacheContract, cacheContract, ProvenanceDigest.text, String.toList_append] at h
          cases h
  | some identity =>
      cases second with
      | none =>
          rw [cacheContract, cacheContract, ProvenanceDigest.text, String.toList_append] at h
          cases h
      | some found =>
          rw [cacheContract, cacheContract, ProvenanceDigest.text, ProvenanceDigest.text,
            String.toList_append, String.toList_append, List.append_assoc, List.append_assoc,
            List.append_cancel_left_eq] at h
          obtain ⟨same, rest⟩ := digest_append_inj h
          cases identity
          cases found
          cases same
          exact ⟨rfl, (List.cons.inj rest).2⟩

/-- The characters of a storage key after the scope. -/
def VersionedInvocation.keyChars (self : VersionedInvocation) : List Char :=
  self.definition.text.toList ++
    ':' :: ((cacheContract self.outputContract).toList ++ ':' :: self.key.toList)

theorem VersionedInvocation.storageKey_unscoped {self : VersionedInvocation} {key : String}
    (unscoped : self.scope = none)
    (h : cacheStorageKey self.input.cache self.input.scopeDigest = .ok key) :
    key.toList = self.keyChars := by
  have made : cacheStorageKey self.input.cache self.input.scopeDigest =
      .ok (self.definition.text ++ ":" ++ cacheContract self.outputContract ++ ":" ++
        self.key) := by
    simp only [VersionedInvocation.input, unscoped, Option.map_none]
    rfl
  rw [made] at h
  cases h
  simp [VersionedInvocation.keyChars]

theorem VersionedInvocation.storageKey_scoped {self : VersionedInvocation} {key : String}
    {scope : Digest} (within : self.scope = some scope)
    (h : cacheStorageKey self.input.cache self.input.scopeDigest = .ok key) :
    key.toList = scope.text.toList ++ ':' :: self.keyChars := by
  have made : cacheStorageKey self.input.cache self.input.scopeDigest =
      .ok (scope.text ++ ":" ++ self.definition.text ++ ":" ++
        cacheContract self.outputContract ++ ":" ++ self.key) := by
    simp only [VersionedInvocation.input, within, Option.map_some]
    rfl
  rw [made] at h
  cases h
  simp [VersionedInvocation.keyChars]

theorem VersionedInvocation.keyChars_inj {first second : VersionedInvocation}
    (h : first.keyChars = second.keyChars) : first.definition = second.definition ∧
      first.outputContract = second.outputContract ∧ first.key = second.key := by
  rw [VersionedInvocation.keyChars, VersionedInvocation.keyChars] at h
  obtain ⟨definition, rest⟩ := digest_append_inj h
  obtain ⟨contract, key⟩ := contract_append_inj (List.cons.inj rest).2
  exact ⟨definition, contract, String.toList_injective key⟩

/-- A key with a scope is no key without one: after the first digest stands another digest, or
a contract identity, which is none. -/
theorem VersionedInvocation.keyChars_ne_scoped (first second : VersionedInvocation)
    (scope : Digest) : first.keyChars ≠ scope.text.toList ++ ':' :: second.keyChars := by
  intro h
  rw [VersionedInvocation.keyChars, VersionedInvocation.keyChars] at h
  obtain ⟨-, rest⟩ := digest_append_inj h
  have rest := (List.cons.inj rest).2
  cases contract : first.outputContract with
  | none =>
      rw [contract, cacheContract] at rest
      exact digest_ne_of_head second.definition 'u' (by decide) rest.symm
  | some identity =>
      rw [contract, cacheContract, ProvenanceDigest.text, String.toList_append] at rest
      exact digest_ne_of_head second.definition 's' (by decide) rest.symm

/-- The storage key of a versioned step determines its scope, definition, contract and key. -/
theorem VersionedInvocation.storageKey_inj {writer reader : VersionedInvocation} {key : String}
    (resource : writer.resource = reader.resource)
    (written : cacheStorageKey writer.input.cache writer.input.scopeDigest = .ok key)
    (read : cacheStorageKey reader.input.cache reader.input.scopeDigest = .ok key) :
    writer.SameEntry reader := by
  cases hwriter : writer.scope with
  | none =>
      have first := VersionedInvocation.storageKey_unscoped hwriter written
      cases hreader : reader.scope with
      | none =>
          have second := VersionedInvocation.storageKey_unscoped hreader read
          obtain ⟨definition, contract, same⟩ :=
            VersionedInvocation.keyChars_inj (first.symm.trans second)
          exact ⟨resource, hwriter.trans hreader.symm, definition, contract, same⟩
      | some scope =>
          have second := VersionedInvocation.storageKey_scoped hreader read
          exact absurd (first.symm.trans second)
            (VersionedInvocation.keyChars_ne_scoped writer reader scope)
  | some scope =>
      have first := VersionedInvocation.storageKey_scoped hwriter written
      cases hreader : reader.scope with
      | none =>
          have second := VersionedInvocation.storageKey_unscoped hreader read
          exact absurd (second.symm.trans first)
            (VersionedInvocation.keyChars_ne_scoped reader writer scope)
      | some other =>
          have second := VersionedInvocation.storageKey_scoped hreader read
          obtain ⟨rfl, rest⟩ := digest_append_inj (first.symm.trans second)
          obtain ⟨definition, contract, same⟩ :=
            VersionedInvocation.keyChars_inj (List.cons.inj rest).2
          exact ⟨resource, hwriter.trans hreader.symm, definition, contract, same⟩

/-- In every run of versioned steps, a step is answered from the cache only with what a step of
the same scope, definition, contract and key has stored. -/
theorem cache_isolated {trace : List (CacheEvent VersionedInvocation)}
    {reader : VersionedInvocation} {text : String}
    (hit : lookupCached (entriesAfter VersionedInvocation.input trace) reader.input =
      .ok (some text)) :
    ∃ writer, CacheEvent.stored writer text ∈ trace ∧ writer.SameEntry reader := by
  obtain ⟨writer, happened, resource, key, written, read⟩ := answered_by hit
  exact ⟨writer, happened, VersionedInvocation.storageKey_inj resource written read⟩

/-! ## Two steps with one key -/

def stockLookup : VersionedInvocation where
  serviceName := "inventory"
  action := "lookup"
  resource := "shared"
  key := "item-7"
  scope := none
  definition := Digest.ofNat 0
  outputContract := none

/-- The step that asks another service for the price. -/
def priceLookup : VersionedInvocation :=
  { stockLookup with serviceName := "pricing" }

theorem lookupCached_own (invocation : VersionedInvocation) (text : String) :
    lookupCached (entriesAfter VersionedInvocation.input [.stored invocation text])
      invocation.input = .ok (some text) := by
  have made : ∃ key, cacheStorageKey invocation.input.cache invocation.input.scopeDigest =
      .ok key := by
    cases scope : invocation.scope <;>
      exact ⟨_, by simp only [VersionedInvocation.input, scope]; rfl⟩
  obtain ⟨key, made⟩ := made
  simp only [lookupCached, entriesAfter, List.foldl_cons, List.foldl_nil, afterEvent, storeCached,
    made, bind, Except.bind, pure, Except.pure, lookup_set_self]

/-- The stock that was looked up is found again. -/
theorem cache_isolated_stock : ∃ writer,
    CacheEvent.stored writer "12" ∈ [CacheEvent.stored stockLookup "12"] ∧
      writer.SameEntry stockLookup :=
  cache_isolated (lookupCached_own stockLookup "12")

/-- The price of an item is answered with its stock; and an unscoped step without a namespace is
answered with what a step of a scope has stored. -/
theorem entries_shared :
    (lookupCached (entriesAfter VersionedInvocation.input [.stored stockLookup "12"])
        priceLookup.input = .ok (some "12") ∧
      ¬ ∃ writer, CacheEvent.stored writer "12" ∈ [CacheEvent.stored stockLookup "12"] ∧
        writer.serviceName = priceLookup.serviceName) ∧
    lookupCached (entriesAfter id [.stored ⟨"inventory", "lookup", some "acme", ⟨"shared", "k",
        none, none, none⟩⟩ "12"]) ⟨"inventory", "lookup", none, ⟨"shared", "acme:k", none, none,
          none⟩⟩ = .ok (some "12") := by
  refine ⟨⟨lookupCached_own stockLookup "12", ?_⟩, by decide⟩
  rintro ⟨writer, stored, service⟩
  cases List.mem_singleton.mp stored
  revert service
  decide

end Justflow
