import Justflow.Configuration.Sqlite
import Justflow.Definitions.Retirement
import Mathlib.Data.List.Sort

/-!
# Operations paging

The listings of definitions and workflows are computed anew from the catalog at every request, and
a cursor carries an offset into the list and the version of the alias document.  A write that
changes the version makes the cursor stale; a write of a manifest leaves the version as it is.

`ListingRun` follows the cursors of one listing, with any writes of the catalog in between.
-/

namespace Justflow

def maxControlListLimit : Nat := 100

structure DefinitionSummary where
  logicalWorkflow : String
  definitionDigest : Digest
  active : Bool
  requiredEngineWorkflowAbi : String
  deriving DecidableEq

structure WorkflowRegistration where
  logicalWorkflow : String
  activeDefinitionDigest : Digest
  retainedDefinitionCount : Nat
  requiredEngineWorkflowAbi : Option String
  deriving DecidableEq

namespace StoredCatalog

variable {hashing : Hashing} (state : StoredCatalog hashing)

/-- The values of `list_definitions`. -/
def definitions : List DefinitionSummary :=
  (state.catalog.manifests.entries.insertionSort fun a b => DefinitionKey.Le a.1 b.1).map
    fun entry =>
      { logicalWorkflow := entry.1.1
        definitionDigest := entry.1.2
        active := decide (state.catalog.aliases.get? entry.1.1 = some entry.1.2)
        requiredEngineWorkflowAbi := entry.2.requiredEngineWorkflowAbi }

/-- The values of `list_workflows`; every alias has a definition in the catalog. -/
def workflows : List WorkflowRegistration :=
  (state.catalog.aliases.entries.insertionSort fun a b => a.1 ≤ b.1).map fun entry =>
    { logicalWorkflow := entry.1
      activeDefinitionDigest := entry.2
      retainedDefinitionCount :=
        (state.catalog.manifests.entries.filter fun found => found.1.1 = entry.1).length
      requiredEngineWorkflowAbi :=
        (state.catalog.manifests.get? entry).map (·.requiredEngineWorkflowAbi) }

/-- Every definition of the catalog is listed once. -/
theorem keys_definitions :
    (state.definitions.map fun shown => (shown.logicalWorkflow, shown.definitionDigest)).Perm
      (Fields.keys state.catalog.manifests.entries) := by
  rw [definitions, List.map_map]
  exact (List.perm_insertionSort _ _).map Prod.fst

/-- Definitions are listed in the order of their keys. -/
theorem sorted_definitions : state.definitions.Pairwise fun a b =>
    DefinitionKey.Le (a.logicalWorkflow, a.definitionDigest)
      (b.logicalWorkflow, b.definitionDigest) := by
  have total : Std.Total fun a b : DefinitionKey × DefinitionManifest =>
      DefinitionKey.Le a.1 b.1 :=
    ⟨fun a b => DefinitionKey.Le.total a.1 b.1⟩
  have trans : IsTrans (DefinitionKey × DefinitionManifest) fun a b =>
      DefinitionKey.Le a.1 b.1 :=
    ⟨fun _ _ _ => DefinitionKey.Le.trans⟩
  rw [definitions, List.pairwise_map]
  exact List.pairwise_insertionSort (fun a b : DefinitionKey × DefinitionManifest =>
    DefinitionKey.Le a.1 b.1) _

theorem nodup_definitions : state.definitions.Nodup := by
  have keys := (keys_definitions state).nodup_iff.mpr state.catalog.manifests.nodup
  exact keys.of_map _

/-- Every alias is listed once. -/
theorem keys_workflows :
    (state.workflows.map WorkflowRegistration.logicalWorkflow).Perm
      (Fields.keys state.catalog.aliases.entries) := by
  rw [workflows, List.map_map]
  exact (List.perm_insertionSort _ _).map Prod.fst

/-- Two states with the same manifests and the same aliases. -/
structure Agree (first second : StoredCatalog hashing) : Prop where
  manifests : ∀ key, first.catalog.manifests.get? key = second.catalog.manifests.get? key
  aliases : ∀ name, first.catalog.aliases.get? name = second.catalog.aliases.get? name

variable {state}

theorem Agree.definitions {other : StoredCatalog hashing} (agree : state.Agree other) :
    state.definitions = other.definitions := by
  have sorted := Table.sort_eq_of_lookups DefinitionKey.Le.total DefinitionKey.Le.trans
    DefinitionKey.Le.antisymm agree.manifests
  rw [StoredCatalog.definitions, StoredCatalog.definitions, sorted]
  simp only [agree.aliases]

theorem Agree.workflows {other : StoredCatalog hashing} (agree : state.Agree other) :
    state.workflows = other.workflows := by
  have sorted := @Table.sort_eq_of_lookups _ _ _ (· ≤ ·) _ _ _ le_total (@le_trans _ _)
    (@le_antisymm _ _) agree.aliases
  have counts : ∀ name,
      (state.catalog.manifests.entries.filter fun found => found.1.1 = name).length =
        (other.catalog.manifests.entries.filter fun found => found.1.1 = name).length :=
    fun name => ((Table.perm_of_lookups agree.manifests).filter _).length_eq
  rw [StoredCatalog.workflows, StoredCatalog.workflows, sorted]
  simp only [agree.manifests, counts]

end StoredCatalog

/-! ## Pages -/

inductive OperationsQueryErrorCode where
  | invalidQuery | notFound | staleCursor | unavailable
  deriving DecidableEq

/-- The position of an operations cursor. -/
structure OperationsPosition where
  kind : String
  offset : Int
  snapshot : Option String
  deriving DecidableEq

abbrev ListingCursor := Stores.ScopeCursor OperationsPosition

section Pages

variable {α : Type} (scopeDigest : Digest) (kind : String) (snapshot : Option String)

/-- `_page_offset`. -/
def pageOffset (cursor : Option ListingCursor) :
    Except OperationsQueryErrorCode Nat :=
  match cursor with
  | none => .ok 0
  | some cursor =>
      if cursor.scopeDigest ≠ scopeDigest then .error .invalidQuery
      else if cursor.position.kind ≠ kind ∨ cursor.position.offset < 0 then .error .invalidQuery
      else if cursor.position.snapshot ≠ snapshot then .error .staleCursor
      else .ok cursor.position.offset.toNat

/-- `_page`. -/
def page (values : List α) (limit : Nat) (cursor : Option ListingCursor) :
    Except OperationsQueryErrorCode (List α × Option ListingCursor) := do
  let offset ← pageOffset scopeDigest kind snapshot cursor
  let selected := (values.drop offset).take limit
  let nextOffset := offset + selected.length
  return (selected,
    if nextOffset < values.length then some ⟨scopeDigest, kind, nextOffset, snapshot⟩ else none)

/-- `_validate_limit` and the page of the values that a state shows. -/
def listPage {hashing : Hashing} (values : StoredCatalog hashing → List α)
    (state : StoredCatalog hashing) (limit : Nat)
    (cursor : Option ListingCursor) :
    Except OperationsQueryErrorCode (List α × Option ListingCursor) :=
  if 1 ≤ limit ∧ limit ≤ maxControlListLimit then
    page scopeDigest kind state.aliasVersion (values state) limit cursor
  else .error .invalidQuery

end Pages

/-! ## Following a listing -/

inductive ListingStatus where
  | following (cursor : Option ListingCursor)
  | ended
  | failed (code : OperationsQueryErrorCode)
  deriving DecidableEq

/-- A client that follows the cursors of a listing.  `issued` is the state of the catalog at its
last request. -/
structure ListingRun (hashing : Hashing) (α : Type) where
  state : StoredCatalog hashing
  issued : Option (StoredCatalog hashing)
  seen : List α
  requests : Nat
  status : ListingStatus

inductive ListingEvent (hashing : Hashing) where
  /-- Any write of the catalog. -/
  | write (next : StoredCatalog hashing)
  | request (limit : Nat)

namespace ListingRun

variable {hashing : Hashing} {α : Type} (scopeDigest : Digest) (kind : String)
  (values : StoredCatalog hashing → List α)

def start (state : StoredCatalog hashing) : ListingRun hashing α :=
  ⟨state, none, [], 0, .following none⟩

def handle (self : ListingRun hashing α) : ListingEvent hashing → ListingRun hashing α
  | .write next => { self with state := next }
  | .request limit =>
      match self.status with
      | .following cursor =>
          match listPage scopeDigest kind values self.state limit cursor with
          | .error code => { self with status := .failed code }
          | .ok (items, next) =>
              { self with
                issued := some self.state
                seen := self.seen ++ items
                requests := self.requests + 1
                status := match next with
                  | some cursor => .following (some cursor)
                  | none => .ended }
      | .ended | .failed _ => self

def run (self : ListingRun hashing α) (events : List (ListingEvent hashing)) :
    ListingRun hashing α :=
  events.foldl (handle scopeDigest kind values) self

/-- A request has an admitted limit, and finds the catalog of the request before it if it finds its
alias version. -/
def Steady (self : ListingRun hashing α) : ListingEvent hashing → Prop
  | .write _ => True
  | .request limit => (1 ≤ limit ∧ limit ≤ maxControlListLimit) ∧
      ∀ before, self.issued = some before → before.aliasVersion = self.state.aliasVersion →
        before.Agree self.state

/-- Every event of a run is steady. -/
def SteadyRun : ListingRun hashing α → List (ListingEvent hashing) → Prop
  | _, [] => True
  | run, event :: rest => run.Steady event ∧
      SteadyRun (run.handle scopeDigest kind values event) rest

/-- What a listing has returned so far: the beginning of the list of one state, all of it at the
end; it fails only with a stale cursor, and every page brings it forward. -/
def Consistent (self : ListingRun hashing α) : Prop :=
  match self.status with
  | .following none => self.seen = [] ∧ self.issued = none ∧ self.requests = 0
  | .following (some cursor) => ∃ shown, self.issued = some shown ∧
      cursor = ⟨scopeDigest, kind, self.seen.length, shown.aliasVersion⟩ ∧
        self.seen = (values shown).take self.seen.length ∧
          self.seen.length < (values shown).length ∧ self.requests ≤ self.seen.length
  | .ended => ∃ shown, self.issued = some shown ∧ self.seen = values shown
  | .failed code => code = .staleCursor

variable {scopeDigest kind values}

theorem consistent_start (state : StoredCatalog hashing) :
    (start state : ListingRun hashing α).Consistent scopeDigest kind values :=
  ⟨rfl, rfl, rfl⟩

/-- A page at the offset of what has been seen continues the list of the state. -/
theorem consistent_page {self : ListingRun hashing α} {limit : Nat}
    (positive : 1 ≤ limit) (before : self.seen = (values self.state).take self.seen.length)
    (requests : self.requests ≤ self.seen.length) :
    let selected := ((values self.state).drop self.seen.length).take limit
    let next : Option ListingCursor :=
      if self.seen.length + selected.length < (values self.state).length then
        some ⟨scopeDigest, kind, ((self.seen.length + selected.length : Nat) : Int),
          self.state.aliasVersion⟩
      else none
    Consistent scopeDigest kind values
      { self with
        issued := some self.state
        seen := self.seen ++ selected
        requests := self.requests + 1
        status := match next with
          | some cursor => .following (some cursor)
          | none => .ended } := by
  intro selected next
  have continued : self.seen ++ selected =
      (values self.state).take (self.seen.length + limit) := by
    rw [List.take_add, ← before]
  have length : (self.seen ++ selected).length = self.seen.length + selected.length :=
    List.length_append
  have whole : (self.seen ++ selected).length =
      min (self.seen.length + limit) (values self.state).length := by
    rw [continued, List.length_take]
  by_cases more : self.seen.length + selected.length < (values self.state).length
  · simp only [next, if_pos more, Consistent]
    refine ⟨self.state, rfl, by rw [length], ?_, by rw [length]; exact more, ?_⟩
    · have short : (self.seen ++ selected).length = self.seen.length + limit := by omega
      rw [short]
      exact continued
    · omega
  · simp only [next, if_neg more, Consistent]
    refine ⟨self.state, rfl, ?_⟩
    rw [continued]
    apply List.take_of_length_le
    omega

theorem Consistent.handle {self : ListingRun hashing α}
    (shows : ∀ first second : StoredCatalog hashing, first.Agree second →
      values first = values second)
    (consistent : self.Consistent scopeDigest kind values) {event : ListingEvent hashing}
    (steady : self.Steady event) :
    (self.handle scopeDigest kind values event).Consistent scopeDigest kind values := by
  cases event with
  | write next => exact consistent
  | request limit =>
      obtain ⟨admitted, same⟩ := steady
      rw [ListingRun.handle]
      cases status : self.status with
      | ended => exact consistent
      | failed code => exact consistent
      | following cursor =>
          rw [Consistent, status] at consistent
          cases cursor with
          | none =>
              obtain ⟨nothing, _, none_⟩ := consistent
              have page_ := @consistent_page _ _ scopeDigest kind values self limit admitted.1
                (by simp [nothing]) (by simp [nothing, none_])
              simp only [nothing, List.length_nil] at page_
              simp only [listPage, if_pos admitted, page, pageOffset, bind, Except.bind, pure,
                Except.pure, nothing]
              exact page_
          | some cursor =>
              obtain ⟨shown, issued, rfl, before, _, requests⟩ := consistent
              by_cases stale : shown.aliasVersion = self.state.aliasVersion
              · rw [shows _ _ (same shown issued stale)] at before
                have page_ := @consistent_page _ _ scopeDigest kind values self limit admitted.1
                  before requests
                simp only [listPage, if_pos admitted, page, pageOffset, bind, Except.bind, pure,
                  Except.pure, stale, ne_eq, not_true_eq_false, if_false, false_or,
                  Int.toNat_natCast, Int.not_lt.mpr (Int.natCast_nonneg _)]
                exact page_
              · simp only [listPage, if_pos admitted, page, pageOffset, bind, Except.bind, stale,
                  ne_eq, not_true_eq_false, not_false_eq_true, if_false, if_true, false_or,
                  Int.not_lt.mpr (Int.natCast_nonneg _)]
                exact rfl

/-- Every run of steady events is consistent. -/
theorem Consistent.run {self : ListingRun hashing α}
    (shows : ∀ first second : StoredCatalog hashing, first.Agree second →
      values first = values second)
    (consistent : self.Consistent scopeDigest kind values) {events : List (ListingEvent hashing)}
    (steady : SteadyRun scopeDigest kind values self events) :
    (self.run scopeDigest kind values events).Consistent scopeDigest kind values := by
  induction events generalizing self with
  | nil => exact consistent
  | cons event rest ih => exact ih (consistent.handle shows steady.1) steady.2

end ListingRun

/-- In every run in which a request that finds the alias version of its cursor also finds the
manifests and aliases that the cursor was issued for, a listing of definitions or workflows returns
the list of one state, in order and each once, or ends with a stale cursor. -/
theorem listings_consistent {hashing : Hashing} (scopeDigest : Digest)
    (state : StoredCatalog hashing) (events : List (ListingEvent hashing)) :
    (ListingRun.SteadyRun scopeDigest "definitions" StoredCatalog.definitions (.start state)
        events →
      ((ListingRun.start state).run scopeDigest "definitions" StoredCatalog.definitions
        events).Consistent scopeDigest "definitions" StoredCatalog.definitions) ∧
    (ListingRun.SteadyRun scopeDigest "workflows" StoredCatalog.workflows (.start state) events →
      ((ListingRun.start state).run scopeDigest "workflows" StoredCatalog.workflows
        events).Consistent scopeDigest "workflows" StoredCatalog.workflows) :=
  ⟨(ListingRun.consistent_start state).run fun _ _ agree => agree.definitions,
    (ListingRun.consistent_start state).run fun _ _ agree => agree.workflows⟩

/-! ## A definition stored between two pages -/

section Stored

def invoices : DefinitionManifest :=
  manifestOf "invoices" [] []

def receipts : DefinitionManifest :=
  manifestOf "receipts" [] []

def archive : DefinitionManifest :=
  manifestOf "archive" [] []

/-- A catalog without aliases. -/
def stateOf (manifests : Table DefinitionKey DefinitionManifest)
    (indexed : ∀ key manifest, manifests.get? key = some manifest →
      manifest.key lengthHash = key) : StoredCatalog lengthHash :=
  ⟨⟨manifests, .empty, indexed, fun _ _ found => by simp at found⟩, none⟩

theorem indexed_insert {manifests : Table DefinitionKey DefinitionManifest}
    (indexed : ∀ key manifest, manifests.get? key = some manifest →
      manifest.key lengthHash = key) (added : DefinitionManifest) :
    ∀ key manifest, (manifests.insert (added.key lengthHash) added).get? key = some manifest →
      manifest.key lengthHash = key := by
  intro key manifest found
  rw [Table.get?_insert] at found
  split at found
  · next same => rw [← Option.some.inj found, same]
  · exact indexed key manifest found

def twoManifests : Table DefinitionKey DefinitionManifest :=
  (Table.empty.insert (invoices.key lengthHash) invoices).insert (receipts.key lengthHash) receipts

theorem twoManifests_indexed : ∀ key manifest, twoManifests.get? key = some manifest →
    manifest.key lengthHash = key :=
  indexed_insert (indexed_insert (fun _ _ found => by simp at found) invoices) receipts

def twoDefinitions : StoredCatalog lengthHash :=
  stateOf twoManifests twoManifests_indexed

/-- The catalog after one more manifest was stored; the alias document is the same. -/
def threeDefinitions : StoredCatalog lengthHash :=
  stateOf (twoManifests.insert (archive.key lengthHash) archive)
    (indexed_insert twoManifests_indexed archive)

def storedBetween : List (ListingEvent lengthHash) :=
  [.request 1, .write threeDefinitions, .request 100]

/-- What is listed of a manifest without an alias. -/
def summaryOf (manifest : DefinitionManifest) : DefinitionSummary :=
  ⟨manifest.logicalName, manifest.definitionDigest lengthHash, false,
    manifest.requiredEngineWorkflowAbi⟩

theorem definitions_two :
    twoDefinitions.definitions = [summaryOf invoices, summaryOf receipts] := rfl

theorem definitions_three : threeDefinitions.definitions =
    [summaryOf archive, summaryOf invoices, summaryOf receipts] := rfl

theorem storedBetween_seen :
    let run := (ListingRun.start twoDefinitions).run (Digest.ofNat 0) "definitions"
      StoredCatalog.definitions storedBetween
    run.status = .ended ∧
      run.seen = [summaryOf invoices, summaryOf invoices, summaryOf receipts] := by
  simp only [ListingRun.run, storedBetween, List.foldl, ListingRun.handle, ListingRun.start,
    listPage, page, pageOffset, definitions_two, definitions_three]
  exact ⟨rfl, rfl⟩

/-- A manifest stored between two pages moves the definitions behind it: the listing ends, with a
definition twice, and it is the list of no state. -/
theorem stored_between_repeats :
    let run := (ListingRun.start twoDefinitions).run (Digest.ofNat 0) "definitions"
      StoredCatalog.definitions storedBetween
    run.status = .ended ∧
      ∀ state : StoredCatalog lengthHash, run.seen ≠ state.definitions := by
  refine ⟨storedBetween_seen.1, fun state same => ?_⟩
  have distinct := state.nodup_definitions
  rw [← same, storedBetween_seen.2] at distinct
  exact (List.nodup_cons.mp distinct).1 List.mem_cons_self

theorem listings_consistent_two :
    ((ListingRun.start twoDefinitions).run (Digest.ofNat 0) "definitions"
      StoredCatalog.definitions [.request 1, .request 100]).Consistent (Digest.ofNat 0)
        "definitions" StoredCatalog.definitions := by
  refine (listings_consistent (Digest.ofNat 0) twoDefinitions [.request 1, .request 100]).1 ?_
  refine ⟨⟨by decide, fun before found => by cases found⟩, ⟨by decide, ?_⟩, trivial⟩
  intro before found _
  have same : twoDefinitions = before := Option.some.inj found
  exact same ▸ ⟨fun _ => rfl, fun _ => rfl⟩

end Stored

end Justflow
