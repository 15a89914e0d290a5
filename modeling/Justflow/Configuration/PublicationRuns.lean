import Justflow.Configuration.Publications
import Justflow.Configuration.ReadBack
import Justflow.Library.Learning
import Justflow.Library.Versions

/-!
# Runs of publications and discards

Drafts, publications and discards are each replaced only by a compare-and-swap on their version.
What a record may be followed with is therefore decided by the one attempt that replaces it: a
publication that was applied and a discard that was decided stay for good, and every attempt under
the same key is answered with them.
-/

open Service Process
open Program (exists_of_bind_eq_ok)

namespace Justflow

open Stores
open ReadBack (checked_ok compareAndSwapActive_ok retainRevisions_ok)

/-! ## What the configuration store does -/

section Store

variable {host : ConfigurationHost} {store after : SqliteStore} {scopeDigest : Digest}

theorem createRevision_stored {bundle : ConfigurationDocument host}
    {parent : Option RevisionIdentity} {reading : Option UtcTime} {record : RevisionRecord host}
    (h : store.createRevision scopeDigest bundle parent reading = .ok (record, after)) :
    after.drafts = store.drafts ∧
      record.revisionId = configurationRevisionIdentity scopeDigest bundle parent ∧
        (after.revisions.get? (scopeDigest, record.revisionId)).isSome := by
  rw [SqliteStore.createRevision] at h
  obtain ⟨body, _, h⟩ := exists_of_bind_eq_ok h
  obtain ⟨createdAt, _, h⟩ := exists_of_bind_eq_ok h
  cases parent
  case' some parentId =>
    obtain ⟨_, _, rest⟩ := exists_of_bind_eq_ok h
    replace h := rest
    clear rest
  all_goals
    dsimp only at h
    split at h
    · next row found =>
        split at h
        · cases h
        · cases h
          exact ⟨rfl, rfl, by simp [found]⟩
    · obtain ⟨stored, hstored, h⟩ := exists_of_bind_eq_ok h
      cases h
      obtain rfl := checked_ok hstored
      exact ⟨rfl, rfl, by simp⟩

/-- A draft is written over the version that was expected. -/
theorem compareAndSwapDraft_stored {bundle : ConfigurationDocument host}
    {expectedVersion : Option Int} {draft : DraftRecord host}
    (h : store.compareAndSwapDraft scopeDigest bundle expectedVersion = .ok (draft, after)) :
    (store.drafts.get? scopeDigest).map Prod.fst = expectedVersion ∧
      draft = ⟨scopeDigest, expectedVersion.elim 1 (· + 1), bundle⟩ ∧
        after.drafts.get? scopeDigest =
          some (draft.version, envelopeValue scopeDigest bundle) := by
  rw [SqliteStore.compareAndSwapDraft, envelopeBytes_eq, Program.ok_bind] at h
  dsimp only at h
  split at h
  · cases h
  · next current =>
      obtain rfl := not_not.mp current
      cases h
      refine ⟨rfl, ?_, Table.get?_insert_self _ _ _⟩
      cases (store.drafts.get? scopeDigest).map Prod.fst <;> rfl

end Store

/-! ## Records and drafts over a history -/

section Cells

variable {host : AuthoringHost} (service : ConfigurationPublicationService host)
  (history : List AuthoringWorld)

/-- The scope had this draft. -/
def DraftSeen (draft : DraftRecord host.toConfigurationHost) : Prop :=
  Once (fun world => world.store.readDraft service.scopeDigest = .ok (some draft)) history

/-- The scope had this revision. -/
def RevisionStored (revisionId : RevisionIdentity) : Prop :=
  Once (fun world => (world.store.revisions.get? (service.scopeDigest, revisionId)).isSome) history

/-- The record names the two revisions of a draft that the scope had and that it was requested
for. -/
structure Published (record : PublicationRecord) : Prop where
  source : ∃ draft policyDigest activeRevisionId sourceParent, DraftSeen service history draft ∧
    record.requestDigest = service.publicationDigest draft.version draft.bundle policyDigest
      activeRevisionId sourceParent ∧
    ∃ sourceRevisionId, record.sourceRevisionId = some sourceRevisionId ∧
      sourceRevisionId = configurationRevisionIdentity service.scopeDigest draft.bundle
        record.sourceParentRevisionId ∧
      RevisionStored service history sourceRevisionId
  published : ∃ (resolved : host.Document) (publishedRevisionId : _),
    record.publishedRevisionId = some publishedRevisionId ∧
      publishedRevisionId = configurationRevisionIdentity service.scopeDigest resolved
        record.expectedActiveRevisionId ∧
      RevisionStored service history publishedRevisionId

/-- The scope had the active configuration in the draft version that follows the expected one. -/
def Restored (record : ConfigurationDiscardRecord) : Prop :=
  ∃ (draft : DraftRecord host.toConfigurationHost) (draftVersion : Int) (active : RevisionIdentity),
    DraftSeen service history draft ∧ draft.version = draftVersion + 1 ∧
      record.resultDraftVersion = some draft.version ∧
        record.requestDigest = service.discardDigest draftVersion draft.bundle active

def publicationCell (publicationId : Digest) : Versioned AuthoringWorld PublicationRecord where
  read world := world.publications publicationId
  version record := record.version
  Opens _ record := record.publicationId = publicationId ∧ record.state = .pending
  Follows history base next := next.publicationId = publicationId ∧ base.state ≠ .applied ∧
    (next.state = .applied → Published service history next)

def discardCell (discardId : Digest) : Versioned AuthoringWorld ConfigurationDiscardRecord where
  read world := world.discards discardId
  version record := record.version
  Opens _ record := record.discardId = discardId ∧ record.state = .pending
  Follows history base next := next.discardId = discardId ∧ base.state = .pending ∧
    (next.state = .applied → Restored service history next)

def draftCell : Versioned AuthoringWorld (Int × JsonValue) where
  read world := world.store.drafts.get? service.scopeDigest
  version draft := draft.1
  Opens _ _ := True
  Follows _ _ _ := True

/-- What one request changes. -/
structure AuthoringStep (world next : AuthoringWorld) : Prop where
  publications : ∀ publicationId, (publicationCell service publicationId).Step history
    (world.publications publicationId) (next.publications publicationId)
  discards : ∀ discardId, (discardCell service discardId).Step history (world.discards discardId)
    (next.discards discardId)
  drafts : (draftCell service).Step history (world.store.drafts.get? service.scopeDigest)
    (next.store.drafts.get? service.scopeDigest)

def AuthoringMove : List AuthoringWorld → AuthoringWorld → Prop
  | [], _ => False
  | world :: past, next => AuthoringStep service (world :: past) world next

variable {service} {history} {grown : List AuthoringWorld} {world next : AuthoringWorld}

theorem Published.later {record : PublicationRecord} (published : Published service history record)
    (grows : history <:+ grown) : Published service grown record := by
  obtain ⟨⟨draft, policyDigest, active, parent, seen, digest, source, named, identity, stored⟩,
    resolved, other, named', identity', stored'⟩ := published
  exact ⟨⟨draft, policyDigest, active, parent, Once.later seen grows, digest, source, named,
    identity, Once.later stored grows⟩, resolved, other, named', identity',
    Once.later stored' grows⟩

theorem Restored.later {record : ConfigurationDiscardRecord}
    (restored : Restored service history record) (grows : history <:+ grown) :
    Restored service grown record := by
  obtain ⟨draft, draftVersion, active, seen, rest⟩ := restored
  exact ⟨draft, draftVersion, active, Once.later seen grows, rest⟩

theorem AuthoringStep.rfl : AuthoringStep service history world world :=
  ⟨fun _ => .same, fun _ => .same, .same⟩

/-- A request to the configuration store that leaves the draft alone. -/
theorem AuthoringStep.withStore {α : Type} {result : Except ConfigurationError (α × SqliteStore)}
    (h : ∀ value store, result = .ok (value, store) → store.drafts = world.store.drafts) :
    AuthoringStep service history world (world.withStore result).2 := by
  cases result with
  | error _ => exact .rfl
  | ok answer =>
      refine ⟨fun _ => .same, fun _ => .same, ?_⟩
      simp only [AuthoringWorld.withStore, h _ _ (Eq.refl _)]
      exact .same

end Cells

/-! ## Conditional records -/

section Conditional

variable {R : Type} {fields : ConditionalRecord R} {scopeDigest : Digest}
  {records after : Digest → Option R} (cell : Versioned AuthoringWorld R)
  {history : List AuthoringWorld} {record returned : R}

/-- A creation opens the record under its identity, or changes nothing. -/
theorem create_step (h : fields.create scopeDigest records record = .ok (returned, after))
    (opens : cell.Opens history record) :
    cell.Step history (records (fields.identity record)) (after (fields.identity record)) ∧
      (∀ other ≠ fields.identity record, after other = records other) ∧
        after (fields.identity record) = some returned ∧
          (returned = record ∨ records (fields.identity record) = some returned) := by
  rw [ConditionalRecord.create] at h
  split at h
  · cases h
  · split at h
    · next existing found =>
        split at h
        · cases h
        · cases h
          exact ⟨.same, fun _ _ => rfl, found, .inr found⟩
    · next absent =>
        cases h
        rw [absent, Function.update_self]
        exact ⟨.created opens, fun other apart => Function.update_of_ne apart _ _, rfl, .inl rfl⟩

/-- An update replaces the version that its record was built from. -/
theorem update_step {expectedVersion : Nat} {base : R}
    (h : fields.update scopeDigest records record expectedVersion = .ok (returned, after))
    (versions : ∀ record, cell.version record = fields.version record)
    (recorded : cell.Recorded history base) (expected : fields.version base = expectedVersion)
    (follows : cell.Follows history base record) :
    cell.Step history (records (fields.identity record)) (after (fields.identity record)) ∧
      (∀ other ≠ fields.identity record, after other = records other) ∧
        returned = record ∧ after (fields.identity record) = some record := by
  rw [ConditionalRecord.update] at h
  split at h
  · cases h
  · split at h
    · cases h
    · next bumped =>
        split at h
        · next current found =>
            split at h
            · next matched =>
                cases h
                rw [found, Function.update_self]
                refine ⟨.replaced recorded ?_ follows ?_,
                  fun other apart => Function.update_of_ne apart _ _, rfl, rfl⟩
                · rw [versions, versions, expected, matched]
                · rw [versions, versions, not_not.mp bumped, expected]
                  rfl
            · cases h
        · cases h

end Conditional

/-! ## Requests -/

section Requests

variable {host : AuthoringHost} {service : ConfigurationPublicationService host}
  {history : List AuthoringWorld} {world : AuthoringWorld}

theorem AuthoringStep.setPublications {publicationId : Digest}
    {publications : Digest → Option PublicationRecord}
    (step : (publicationCell service publicationId).Step history
      (world.publications publicationId) (publications publicationId))
    (apart : ∀ other ≠ publicationId, publications other = world.publications other) :
    AuthoringStep service history world { world with publications } := by
  refine ⟨fun other => ?_, fun _ => .same, .same⟩
  by_cases same : other = publicationId
  · exact same ▸ step
  · simp only [apart other same]
    exact .same

theorem AuthoringStep.setDiscards {discardId : Digest}
    {discards : Digest → Option ConfigurationDiscardRecord}
    (step : (discardCell service discardId).Step history (world.discards discardId)
      (discards discardId))
    (apart : ∀ other ≠ discardId, discards other = world.discards other) :
    AuthoringStep service history world { world with discards } := by
  refine ⟨fun _ => .same, fun other => ?_, .same⟩
  by_cases same : other = discardId
  · exact same ▸ step
  · simp only [apart other same]
    exact .same

namespace ConfigurationPublicationService

variable {α : Type}

/-- Every record is under its own identity. -/
structure Owned (service : ConfigurationPublicationService host) (history : List AuthoringWorld) :
    Prop where
  publications : ∀ {publicationId record},
    (publicationCell service publicationId).Recorded history record →
      record.publicationId = publicationId
  discards : ∀ {discardId record}, (discardCell service discardId).Recorded history record →
    record.discardId = discardId

/-- The program makes only steps of the drafts and records and returns with the knowledge `K`. -/
def Authors (service : ConfigurationPublicationService host)
    (K : α → List AuthoringWorld → Prop) (p : AuthoringProcess host α)
    (history : List AuthoringWorld) : Prop :=
  Learns (authoringRespond service.scopeDigest) (Owned service) (AuthoringMove service) K p history

/-- A request that fails may still have taken effect. -/
theorem ask_authors {request : AuthoringRequest host}
    {K : AuthoringReply host request → List AuthoringWorld → Prop}
    (served : ∀ world past, history <:+ world :: past → Owned service (world :: past) →
      ∀ circumstance, AuthoringStep service (world :: past) world
        (world.serve service.scopeDigest circumstance request).2 ∧
      ∀ reply, (world.serve service.scopeDigest circumstance request).1 = .ok reply →
        K reply ((world.serve service.scopeDigest circumstance request).2 :: world :: past)) :
    Authors service K (ask request) history := by
  apply Learns.call
  intro world past grows owned circumstance
  obtain ⟨step, known⟩ := served world past grows owned circumstance
  simp only [authoringRespond]
  cases circumstance.failure with
  | none => exact ⟨step, known⟩
  | some failure =>
      refine ⟨?_, fun _ hreply => by cases hreply⟩
      cases circumstance.landed with
      | true => exact step
      | false => exact .rfl

/-- A request that changes nothing. -/
theorem read_authors {request : AuthoringRequest host}
    {K : AuthoringReply host request → List AuthoringWorld → Prop}
    (same : ∀ (world : AuthoringWorld) circumstance,
      (world.serve service.scopeDigest circumstance request).2 = world)
    (known : ∀ (world : AuthoringWorld) past circumstance reply, Owned service (world :: past) →
      (world.serve service.scopeDigest circumstance request).1 = .ok reply →
        K reply (world :: world :: past)) :
    Authors service K (ask request) history := by
  apply ask_authors
  intro world past _ owned circumstance
  rw [same]
  exact ⟨.rfl, fun reply hreply => known world past circumstance reply owned hreply⟩

theorem inquire_authors {request : AuthoringRequest host}
    (same : ∀ (world : AuthoringWorld) circumstance,
      (world.serve service.scopeDigest circumstance request).2 = world) :
    Authors service (fun _ _ => True) (ask request) history :=
  read_authors same fun _ _ _ _ _ _ => trivial

theorem readDraft_asked :
    Authors service (fun found later => ∀ draft, found = some draft →
      DraftSeen service later draft) (ask .readDraft) history := by
  refine read_authors (fun _ _ => rfl) fun world past _ reply _ hreply draft hdraft => .now ?_
  subst hdraft
  simp only [AuthoringWorld.serve] at hreply
  cases found : world.store.readDraft service.scopeDigest with
  | error error =>
      rw [found] at hreply
      cases hreply
  | ok held =>
      rw [found] at hreply
      cases hreply
      rfl

theorem compareAndSwapDraft_asked {bundle : host.Document} {expectedVersion : Option Int} :
    Authors service (fun draft later => DraftSeen service later draft ∧
      draft.bundle = bundle ∧ draft.version = expectedVersion.elim 1 (· + 1))
      (ask (.compareAndSwapDraft bundle expectedVersion)) history := by
  apply ask_authors
  intro world past _ _ circumstance
  simp only [AuthoringWorld.serve]
  cases swapped : world.store.compareAndSwapDraft service.scopeDigest bundle expectedVersion with
  | error error => exact ⟨.rfl, fun _ hreply => by cases hreply⟩
  | ok answer =>
      obtain ⟨draft, store⟩ := answer
      obtain ⟨before, rfl, held⟩ := compareAndSwapDraft_stored swapped
      refine ⟨⟨fun _ => .same, fun _ => .same, ?_⟩, fun reply hreply => ?_⟩
      · simp only [AuthoringWorld.withStore, held]
        cases found : world.store.drafts.get? service.scopeDigest with
        | none => exact .created trivial
        | some current =>
            rw [found] at before
            subst before
            exact .replaced (.now found) rfl trivial rfl
      · cases hreply
        refine ⟨.now ?_, rfl, rfl⟩
        simp only [AuthoringWorld.withStore, SqliteStore.readDraft, held, readEnvelope_envelope]
        rfl

theorem createRevision_asked {bundle : host.Document} {parent : Option RevisionIdentity} :
    Authors service (fun record later => RevisionStored service later record.revisionId ∧
      record.revisionId = configurationRevisionIdentity service.scopeDigest bundle parent)
      (ask (.createRevision bundle parent)) history := by
  apply ask_authors
  intro world past _ _ circumstance
  simp only [AuthoringWorld.serve]
  cases created : world.store.createRevision service.scopeDigest bundle parent
      circumstance.reading with
  | error error => exact ⟨.rfl, fun _ hreply => by cases hreply⟩
  | ok answer =>
      obtain ⟨record, store⟩ := answer
      obtain ⟨drafts, identity, stored⟩ := createRevision_stored created
      refine ⟨.withStore fun _ _ h => ?_, fun reply hreply => ?_⟩
      · cases h
        exact drafts
      · cases hreply
        exact ⟨.now stored, identity⟩

/-- The requests to the configuration store that leave the draft alone. -/
theorem store_asked {request : AuthoringRequest host}
    (result : AuthoringWorld →
      Except ConfigurationError (AuthoringReply host request × SqliteStore))
    (serves : ∀ (world : AuthoringWorld) circumstance,
      world.serve service.scopeDigest circumstance request = world.withStore (result world))
    (drafts : ∀ (world : AuthoringWorld) value store, result world = .ok (value, store) →
      store.drafts = world.store.drafts) :
    Authors service (fun _ _ => True) (ask request) history := by
  apply ask_authors
  intro world past _ _ circumstance
  rw [serves]
  exact ⟨.withStore (drafts world), fun _ _ => trivial⟩

theorem readPublication_asked {publicationId : Digest} :
    Authors service (fun record later => record.publicationId = publicationId ∧
      (publicationCell service publicationId).Recorded later record)
      (ask (.readPublication publicationId)) history := by
  refine read_authors (fun _ _ => rfl) fun world past _ reply owned hreply => ?_
  simp only [AuthoringWorld.serve, ConditionalRecord.read] at hreply
  split at hreply
  · cases hreply
  · next record found =>
      cases hreply
      exact ⟨owned.publications (.now found), .now found⟩

theorem createPublication_asked {record : PublicationRecord} (pending : record.state = .pending) :
    Authors service (fun reserved later => reserved.publicationId = record.publicationId ∧
      (publicationCell service record.publicationId).Recorded later reserved)
      (ask (.createPublication record)) history := by
  apply ask_authors
  intro world past _ owned circumstance
  simp only [AuthoringWorld.serve]
  cases created : publicationRecords.create service.scopeDigest world.publications record with
  | error error => exact ⟨.rfl, fun _ hreply => by cases hreply⟩
  | ok answer =>
      obtain ⟨reserved, publications⟩ := answer
      obtain ⟨step, apart, held, there⟩ := create_step
        (publicationCell service record.publicationId) created ⟨rfl, pending⟩
      refine ⟨.setPublications step apart, fun reply hreply => ?_⟩
      cases hreply
      refine ⟨?_, .now held⟩
      rcases there with rfl | there
      · rfl
      · exact owned.publications (.now there)

theorem updatePublication_asked {record base : PublicationRecord} {expectedVersion : Nat}
    (recorded : (publicationCell service record.publicationId).Recorded history base)
    (expected : base.version = expectedVersion) (unapplied : base.state ≠ .applied)
    (published : record.state = .applied → Published service history record) :
    Authors service (fun stored later => stored = record ∧
      (publicationCell service record.publicationId).Recorded later record)
      (ask (.updatePublication record expectedVersion)) history := by
  apply ask_authors
  intro world past grows _ circumstance
  simp only [AuthoringWorld.serve]
  cases updated : publicationRecords.update service.scopeDigest world.publications record
      expectedVersion with
  | error error => exact ⟨.rfl, fun _ hreply => by cases hreply⟩
  | ok answer =>
      obtain ⟨stored, publications⟩ := answer
      obtain ⟨step, apart, same, held⟩ := update_step
        (publicationCell service record.publicationId) updated (fun _ => rfl)
        (recorded.later grows) expected
        ⟨rfl, unapplied, fun applied => (published applied).later grows⟩
      refine ⟨.setPublications step apart, fun reply hreply => ?_⟩
      cases hreply
      exact ⟨same, .now held⟩

theorem readDiscard_asked {discardId : Digest} :
    Authors service (fun record later => record.discardId = discardId ∧
      (discardCell service discardId).Recorded later record)
      (ask (.readDiscard discardId)) history := by
  refine read_authors (fun _ _ => rfl) fun world past _ reply owned hreply => ?_
  simp only [AuthoringWorld.serve, ConditionalRecord.read] at hreply
  split at hreply
  · cases hreply
  · next record found =>
      cases hreply
      exact ⟨owned.discards (.now found), .now found⟩

theorem createDiscard_asked {record : ConfigurationDiscardRecord}
    (pending : record.state = .pending) :
    Authors service (fun reserved later => reserved.discardId = record.discardId ∧
      (discardCell service record.discardId).Recorded later reserved)
      (ask (.createDiscard record)) history := by
  apply ask_authors
  intro world past _ owned circumstance
  simp only [AuthoringWorld.serve]
  cases created : discardRecords.create service.scopeDigest world.discards record with
  | error error => exact ⟨.rfl, fun _ hreply => by cases hreply⟩
  | ok answer =>
      obtain ⟨reserved, discards⟩ := answer
      obtain ⟨step, apart, held, there⟩ := create_step
        (discardCell service record.discardId) created ⟨rfl, pending⟩
      refine ⟨.setDiscards step apart, fun reply hreply => ?_⟩
      cases hreply
      refine ⟨?_, .now held⟩
      rcases there with rfl | there
      · rfl
      · exact owned.discards (.now there)

theorem updateDiscard_asked {record base : ConfigurationDiscardRecord} {expectedVersion : Nat}
    (recorded : (discardCell service record.discardId).Recorded history base)
    (expected : base.version = expectedVersion) (pending : base.state = .pending)
    (restored : record.state = .applied → Restored service history record) :
    Authors service (fun stored later => stored = record ∧
      (discardCell service record.discardId).Recorded later record)
      (ask (.updateDiscard record expectedVersion)) history := by
  apply ask_authors
  intro world past grows _ circumstance
  simp only [AuthoringWorld.serve]
  cases updated : discardRecords.update service.scopeDigest world.discards record
      expectedVersion with
  | error error => exact ⟨.rfl, fun _ hreply => by cases hreply⟩
  | ok answer =>
      obtain ⟨stored, discards⟩ := answer
      obtain ⟨step, apart, same, held⟩ := update_step
        (discardCell service record.discardId) updated (fun _ => rfl)
        (recorded.later grows) expected
        ⟨rfl, pending, fun applied => (restored applied).later grows⟩
      refine ⟨.setDiscards step apart, fun reply hreply => ?_⟩
      cases hreply
      exact ⟨same, .now held⟩

/-! ## Validated records -/

theorem modelValidate_publication {fields : PublicationFields} {record : PublicationRecord}
    (h : fields.modelValidate = .ok record) : record.toPublicationFields = fields := by
  rw [PublicationFields.modelValidate] at h
  split at h
  · cases h
    rfl
  · cases h

theorem modelValidate_discard {fields : DiscardFields} {record : ConfigurationDiscardRecord}
    (h : fields.modelValidate = .ok record) : record.toDiscardFields = fields := by
  rw [DiscardFields.modelValidate] at h
  split at h
  · cases h
    rfl
  · cases h

/-! ## Publishing -/

/-- A record of the publication, as it was read or reserved. -/
def Held (service : ConfigurationPublicationService host) (publicationId : Digest)
    (record : PublicationRecord) (history : List AuthoringWorld) : Prop :=
  record.publicationId = publicationId ∧
    (publicationCell service publicationId).Recorded history record

/-- The answer of a publication: its applied record. -/
def Applied (service : ConfigurationPublicationService host) (publicationId : Digest)
    (record : PublicationRecord) (history : List AuthoringWorld) : Prop :=
  record.state = .applied ∧ Held service publicationId record history

theorem Held.later {publicationId : Digest} {record : PublicationRecord}
    {grown : List AuthoringWorld} (held : Held service publicationId record history)
    (grows : history <:+ grown) : Held service publicationId record grown :=
  ⟨held.1, held.2.later grows⟩

theorem readDraft_authors :
    Authors service (fun draft later => DraftSeen service later draft) readDraft history := by
  refine readDraft_asked.bind fun found later _ seen => ?_
  cases found with
  | none => exact .fail
  | some draft => exact Learns.ite (fun _ => .done (seen draft rfl)) fun _ => .fail

theorem findPublication_authors {publicationId : Digest} :
    Authors service (fun found later => ∀ record, found = some record →
      Held service publicationId record later) (findPublication publicationId) history := by
  refine Learns.rescue ?_ fun error later _ => ?_
  · refine readPublication_asked.map fun record later held other hother => ?_
    cases hother
    exact held
  · split
    · exact .done fun _ h => by cases h
    · exact .fail

theorem replayPublication_authors {publicationId : Digest} {existing : PublicationRecord}
    {expectedDraftVersion : Int} (applied : Applied service publicationId existing history) :
    Authors service (fun record later => Applied service publicationId record later)
      (service.replayPublication existing expectedDraftVersion) history := by
  rw [replayPublication]
  split
  · exact .fail
  · refine (inquire_authors fun _ _ => rfl).bind fun source later grows _ => ?_
    refine Learns.ite (fun _ => .fail) fun _ => ?_
    exact .done ⟨applied.1, applied.2.later grows⟩

theorem updatePublication_authors {publicationId : Digest} {pending updated : PublicationRecord}
    (held : Held service publicationId pending history) (open_ : pending.state ≠ .applied)
    (same : updated.publicationId = pending.publicationId) (applied : updated.state = .applied)
    (published : Published service history updated) :
    Authors service (fun record later => Applied service publicationId record later)
      (updatePublication pending updated) history := by
  obtain ⟨rfl, recorded⟩ := held
  refine Learns.rescue ?_ fun error later grows => ?_
  · refine (updatePublication_asked (same.symm ▸ recorded) rfl open_ fun _ => published).mono ?_
    rintro stored later _ ⟨rfl, recorded⟩
    exact ⟨applied, same, same ▸ recorded⟩
  · split
    · refine readPublication_asked.bind fun current next _ recorded => ?_
      exact Learns.ite (fun matched => .done ⟨matched.2, recorded⟩) fun _ => .fail
    · exact .fail

/-- A failure is recorded only over the pending record. -/
theorem recordPublicationFailure_authors {publicationId : Digest} {pending : PublicationRecord}
    {code : PublicationErrorCode} (held : Held service publicationId pending history)
    (open_ : pending.state ≠ .applied) :
    Authors service (fun _ _ => True) (recordPublicationFailure pending code) history := by
  obtain ⟨rfl, recorded⟩ := held
  refine (inquire_authors fun _ _ => rfl).bind fun now later grows _ => ?_
  refine Learns.lifted.bind fun failed next grows' failing => ?_
  have fields := modelValidate_publication failing
  have same : failed.publicationId = pending.publicationId := by rw [fields]
  have state : failed.state = .failed := by rw [fields]
  refine Learns.rescue ?_ fun error later _ => ?_
  · refine Learns.map (updatePublication_asked (same.symm ▸ recorded.later (grows.trans grows')) rfl
      open_ fun applied => ?_) fun _ _ _ => trivial
    rw [state] at applied
    cases applied
  · split
    · exact .pass
    · exact .fail

theorem failedPublication_authors {publicationId : Digest} {pending : PublicationRecord}
    {K : α → List AuthoringWorld → Prop} {error : AuthoringFailure}
    (held : Held service publicationId pending history) (open_ : pending.state ≠ .applied) :
    Authors service K (failedPublication pending error) history := by
  have raises : ∀ {code} {failure : AuthoringFailure}, Authors service K (do
      recordPublicationFailure pending code
      throw failure) history := by
    intro code failure
    exact (recordPublicationFailure_authors held open_).bind fun _ _ _ _ => .fail
  unfold failedPublication
  split
  all_goals first
    | exact raises
    | exact .fail

/-- What holds of the record with which the revisions are stored. -/
structure Pending (service : ConfigurationPublicationService host) (publicationId : Digest)
    (draft : DraftRecord host.toConfigurationHost) (pending : PublicationRecord)
    (history : List AuthoringWorld) : Prop where
  held : Held service publicationId pending history
  open_ : pending.state ≠ .applied
  seen : DraftSeen service history draft
  requested : ∃ policyDigest activeRevisionId sourceParent, pending.requestDigest =
    service.publicationDigest draft.version draft.bundle policyDigest activeRevisionId sourceParent

theorem Pending.later {publicationId : Digest} {draft : DraftRecord host.toConfigurationHost}
    {pending : PublicationRecord} {grown : List AuthoringWorld}
    (h : Pending service publicationId draft pending history) (grows : history <:+ grown) :
    Pending service publicationId draft pending grown :=
  ⟨h.held.later grows, h.open_, Once.later h.seen grows, h.requested⟩

/-- A publication is completed with revisions that are stored by then. -/
theorem applyPublication_authors {publicationId : Digest}
    {draft : DraftRecord host.toConfigurationHost} {policy : JsonValue}
    {pending : PublicationRecord} (h : Pending service publicationId draft pending history) :
    Authors service (fun record later => Applied service publicationId record later)
      (service.applyPublication draft policy pending) history := by
  refine (inquire_authors fun _ _ => rfl).bind fun validation later grows _ => ?_
  replace h := h.later grows
  cases validation with
  | unavailable => exact .fail
  | invalid => exact .fail
  | valid resolved =>
      refine createRevision_asked.bind fun source later grows stored => ?_
      obtain ⟨stored, identity⟩ := stored
      replace h := h.later grows
      refine Learns.ite (fun _ => .fail) fun _ => ?_
      refine createRevision_asked.bind fun published later grows stored' => ?_
      obtain ⟨stored', identity'⟩ := stored'
      replace h := h.later grows
      replace stored := Once.later stored grows
      refine (inquire_authors fun _ _ => rfl).bind fun occurredAt later grows _ => ?_
      replace h := h.later grows
      replace stored := Once.later stored grows
      replace stored' := Once.later stored' grows
      refine Learns.lifted.bind fun completed later grows completes => ?_
      replace h := h.later grows
      have fields := modelValidate_publication completes
      apply updatePublication_authors h.held h.open_
      · rw [fields]
      · rw [fields]
      · obtain ⟨policyDigest, active, parent, requested⟩ := h.requested
        constructor
        · refine ⟨draft, policyDigest, active, parent, h.seen, ?_, source.revisionId, ?_, ?_,
            Once.later stored grows⟩
          · rw [fields]
            exact requested
          · rw [fields]
          · rw [fields]
            exact identity
        · refine ⟨resolved, published.revisionId, ?_, ?_, Once.later stored' grows⟩
          · rw [fields]
          · rw [fields]
            exact identity'

/-- A failed record is opened again under its own request. -/
theorem openPublication_authors {publicationId : Digest} {reserved : PublicationRecord} {now : Nat}
    (held : Held service publicationId reserved history) (open_ : reserved.state ≠ .applied) :
    Authors service (fun pending later => Held service publicationId pending later ∧
      pending.state ≠ .applied ∧ pending.requestDigest = reserved.requestDigest)
      (openPublication reserved now) history := by
  rw [openPublication]
  split
  · refine Learns.lifted.bind fun opened later grows opens => ?_
    have fields := modelValidate_publication opens
    have same : opened.publicationId = reserved.publicationId := by rw [fields]
    have state : opened.state = .pending := by rw [fields]
    have version : reserved.version = opened.version - 1 := by
      rw [fields]
      rfl
    obtain ⟨rfl, recorded⟩ := held
    refine (updatePublication_asked (same.symm ▸ recorded.later grows) version open_
      fun applied => ?_).mono ?_
    · rw [state] at applied
      cases applied
    · rintro stored last _ ⟨rfl, recorded⟩
      refine ⟨⟨same, same ▸ recorded⟩, ?_, ?_⟩
      · simp [state]
      · rw [fields]
  · exact .done ⟨held, open_, rfl⟩

theorem reservePublication_authors {record : PublicationRecord}
    (pending : record.state = .pending) :
    Authors service (fun reserved later => Held service record.publicationId reserved later)
      (reservePublication record) history := by
  refine Learns.rescue (createPublication_asked pending) fun error later _ => ?_
  split
  · exact .fail
  · exact .fail

theorem readActiveRevision_authors {active : Option Stores.ActivePointer} :
    Authors service (fun _ _ => True) (readActiveRevision active) history := by
  cases active with
  | none => exact .pass
  | some active => exact Learns.map (inquire_authors fun _ _ => rfl) fun _ _ _ => trivial

theorem submitPublication_authors {expectedDraftVersion : Int} {submitted : SubmittedOperation} :
    Authors service (fun record later =>
      Applied service (service.publicationIdentity submitted.idempotencyKey) record later)
      (service.submitPublication expectedDraftVersion submitted) history := by
  refine readDraft_authors.bind fun draft later _ seen => ?_
  refine Learns.ite (fun _ => .fail) fun _ => ?_
  refine (inquire_authors fun _ _ => rfl).bind fun active later grows _ => ?_
  replace seen := Once.later seen grows
  refine readActiveRevision_authors.bind fun activeRevision later grows _ => ?_
  replace seen := Once.later seen grows
  refine (inquire_authors fun _ _ => rfl).bind fun policy later grows _ => ?_
  replace seen := Once.later seen grows
  refine (inquire_authors fun _ _ => rfl).bind fun now later grows _ => ?_
  replace seen := Once.later seen grows
  refine Learns.lifted.bind fun record later grows submits => ?_
  replace seen := Once.later seen grows
  have fields := modelValidate_publication submits
  have same : record.publicationId = service.publicationIdentity submitted.idempotencyKey := by
    rw [fields]
  refine (reservePublication_authors (by rw [fields])).bind fun reserved later grows held => ?_
  replace seen := Once.later seen grows
  rw [same] at held
  refine Learns.ite (fun applied => .done ⟨applied, held⟩) fun open_ => ?_
  refine Learns.ite (fun _ => .fail) fun matched => ?_
  refine (openPublication_authors held open_).bind fun pending later grows opened => ?_
  replace seen := Once.later seen grows
  obtain ⟨held, open_, request⟩ := opened
  refine Learns.rescue (applyPublication_authors ⟨held, open_, seen, ?_⟩)
    fun error later grows => ?_
  · exact ⟨_, _, _, request.trans (not_not.mp matched)⟩
  · exact failedPublication_authors (held.later grows) open_

theorem publish_authors {expectedDraftVersion : Int} {submitted : SubmittedOperation} :
    Authors service (fun record later =>
      Applied service (service.publicationIdentity submitted.idempotencyKey) record later)
      (service.publish expectedDraftVersion submitted) history := by
  refine findPublication_authors.bind fun found later _ held => ?_
  cases found with
  | none => exact submitPublication_authors
  | some existing =>
      refine Learns.ite (fun _ => .fail) fun _ => ?_
      refine Learns.ite (fun applied => ?_) fun _ => submitPublication_authors
      exact replayPublication_authors ⟨applied, held existing rfl⟩

/-! ## Discarding -/

/-- A record of the discard, as it was read or reserved. -/
def HeldDiscard (service : ConfigurationPublicationService host) (discardId : Digest)
    (record : ConfigurationDiscardRecord) (history : List AuthoringWorld) : Prop :=
  record.discardId = discardId ∧ (discardCell service discardId).Recorded history record

/-- The answer of a discard: what its applied record says. -/
def Discarded (service : ConfigurationPublicationService host) (discardId : Digest)
    (result : ConfigurationDiscardResult) (history : List AuthoringWorld) : Prop :=
  ∃ record, HeldDiscard service discardId record history ∧ record.state = .applied ∧
    discardResult record = .ok result

theorem HeldDiscard.later {discardId : Digest} {record : ConfigurationDiscardRecord}
    {grown : List AuthoringWorld} (held : HeldDiscard service discardId record history)
    (grows : history <:+ grown) : HeldDiscard service discardId record grown :=
  ⟨held.1, held.2.later grows⟩

theorem activeAuthoringConfiguration_authors :
    Authors service (fun _ _ => True) activeAuthoringConfiguration history := by
  refine (inquire_authors fun _ _ => rfl).bind fun active later _ _ => ?_
  cases active with
  | none => exact .pass
  | some active =>
      refine (inquire_authors fun _ _ => rfl).bind fun resolved later _ _ => ?_
      split
      · exact .fail
      · refine (inquire_authors fun _ _ => rfl).bind fun source later _ _ => ?_
        exact Learns.ite (fun _ => .pass) fun _ => .fail

theorem discardResult_applied {record : ConfigurationDiscardRecord}
    {result : ConfigurationDiscardResult} (h : discardResult record = .ok result) :
    record.state = .applied := by
  rw [discardResult] at h
  split at h
  · assumption
  · cases h

theorem discardResult_authors {discardId : Digest} {record : ConfigurationDiscardRecord}
    (held : HeldDiscard service discardId record history) :
    Authors service (fun result later => Discarded service discardId result later)
      (Process.lift (discardResult record)) history :=
  Learns.lift fun _ h => ⟨record, held, discardResult_applied h, h⟩

theorem recordDiscardFailure_authors {discardId : Digest} {record : ConfigurationDiscardRecord}
    (held : HeldDiscard service discardId record history) (pending : record.state = .pending) :
    Authors service (fun _ _ => True) (recordDiscardFailure record) history := by
  obtain ⟨rfl, recorded⟩ := held
  refine (inquire_authors fun _ _ => rfl).bind fun now later grows _ => ?_
  refine Learns.lifted.bind fun failed next grows' failing => ?_
  have fields := modelValidate_discard failing
  have same : failed.discardId = record.discardId := by rw [fields]
  have state : failed.state = .failed := by rw [fields]
  refine Learns.rescue ?_ fun error later _ => ?_
  · refine Learns.map (updateDiscard_asked (same.symm ▸ recorded.later (grows.trans grows')) rfl
      pending fun applied => ?_) fun _ _ _ => trivial
    rw [state] at applied
    cases applied
  · split
    · exact .pass
    · exact .fail

/-- The draft is swapped at the expected version, or is found swapped already. -/
theorem restoreDraft_authors {expectedDraftVersion : Int} {active : host.Document} :
    Authors service (fun draft later => DraftSeen service later draft ∧ draft.bundle = active ∧
      draft.version = expectedDraftVersion + 1) (restoreDraft expectedDraftVersion active)
      history := by
  refine readDraft_authors.bind fun current later _ seen => ?_
  refine Learns.ite (fun _ => compareAndSwapDraft_asked) fun _ => ?_
  exact Learns.ite (fun found => .done ⟨seen, found.2, found.1⟩) fun _ => .fail

theorem finishDiscard_authors {discardId : Digest} {record : ConfigurationDiscardRecord}
    {restored : DraftRecord host.toConfigurationHost} {expectedDraftVersion : Int}
    {activeIdentity : RevisionIdentity} (held : HeldDiscard service discardId record history)
    (pending : record.state = .pending) (seen : DraftSeen service history restored)
    (version : restored.version = expectedDraftVersion + 1)
    (requested : record.requestDigest =
      service.discardDigest expectedDraftVersion restored.bundle activeIdentity) :
    Authors service (fun result later => Discarded service discardId result later)
      (finishDiscard record restored) history := by
  obtain ⟨rfl, recorded⟩ := held
  refine (inquire_authors fun _ _ => rfl).bind fun now later grows _ => ?_
  refine Learns.lifted.bind fun completed later grows' completes => ?_
  replace grows := grows.trans grows'
  have fields := modelValidate_discard completes
  have same : completed.discardId = record.discardId := by rw [fields]
  refine Learns.bind (Learns.rescue (K := fun stored later =>
    HeldDiscard service record.discardId stored later) ?_ fun error later _ => ?_)
    fun stored later _ held => discardResult_authors held
  · refine (updateDiscard_asked (same.symm ▸ recorded.later grows) rfl pending fun _ => ?_).mono ?_
    · refine ⟨restored, expectedDraftVersion, activeIdentity, Once.later seen grows, version, ?_,
        ?_⟩
      · rw [fields]
      · rw [fields]
        exact requested
    · rintro stored later _ ⟨rfl, recorded⟩
      exact ⟨same, same ▸ recorded⟩
  · split
    · refine readDiscard_asked.bind fun stored next _ recorded => ?_
      exact Learns.ite (fun _ => .fail) fun _ => .done recorded
    · exact .fail

theorem discard_authors {expectedDraftVersion : Int} {expectedActiveIdentity : RevisionIdentity}
    {submitted : SubmittedOperation} :
    Authors service (fun result later =>
      Discarded service (service.discardIdentity submitted.idempotencyKey) result later)
      (service.discard expectedDraftVersion expectedActiveIdentity submitted) history := by
  refine activeAuthoringConfiguration_authors.bind fun found later _ _ => ?_
  cases found with
  | none => exact .fail
  | some found =>
      obtain ⟨activeIdentity, active⟩ := found
      refine Learns.ite (fun _ => .fail) fun _ => ?_
      refine (inquire_authors fun _ _ => rfl).bind fun now later _ _ => ?_
      refine Learns.lifted.bind fun submittedRecord later _ submits => ?_
      have fields := modelValidate_discard submits
      have same : submittedRecord.discardId =
          service.discardIdentity submitted.idempotencyKey := by rw [fields]
      refine Learns.bind (Learns.rescue (createDiscard_asked (by rw [fields]))
        fun error later _ => ?_) fun record later _ held => ?_
      · split
        · exact .fail
        · exact .fail
      have held : HeldDiscard service (service.discardIdentity submitted.idempotencyKey) record
          later := same ▸ held
      refine Learns.ite (fun _ => .fail) fun matched => ?_
      dsimp only
      split
      · exact discardResult_authors held
      · exact .fail
      · next pending =>
          refine Learns.bind (Learns.rescue restoreDraft_authors fun error later grows => ?_)
            fun restored later grows known => ?_
          · split
            · refine (recordDiscardFailure_authors (held.later grows) pending).bind
                fun _ _ _ _ => .fail
            · exact .fail
          · obtain ⟨seen, rfl, version⟩ := known
            exact finishDiscard_authors (held.later grows) pending seen version
              (not_not.mp matched)

/-! ## Runs -/

/-- What the answer of an operation rests on. -/
def Evidence (service : ConfigurationPublicationService host) :
    AuthoringResult → List AuthoringWorld → Prop
  | .published record, history => Applied service record.publicationId record history
  | .discarded discardId result, history => Discarded service discardId result history
  | .done, _ => True

theorem program_authors (call : AuthoringCall host) :
    Authors service (Evidence service) (service.program call) history := by
  cases call with
  | writeDraft bundle expectedVersion =>
      exact Learns.map compareAndSwapDraft_asked fun _ _ _ => trivial
  | publish expectedDraftVersion submitted =>
      refine Learns.map publish_authors fun record later applied => ?_
      obtain ⟨state, same, recorded⟩ := applied
      exact ⟨state, rfl, same ▸ recorded⟩
  | discard expectedDraftVersion expectedActiveIdentity submitted =>
      exact Learns.map discard_authors fun _ _ discarded => discarded
  | activate revisionId expectedRevisionId expectedVersion =>
      refine Learns.map (store_asked (fun world => world.store.compareAndSwapActive
        service.scopeDigest revisionId expectedRevisionId expectedVersion) (fun _ _ => rfl) ?_)
        fun _ _ _ => trivial
      exact fun world value store h => (compareAndSwapActive_ok h).1
  | retain keepLatest deleteLimit =>
      refine Learns.map (store_asked (fun world => world.store.retainRevisions
        service.scopeDigest keepLatest deleteLimit) (fun _ _ => rfl) ?_) fun _ _ _ => trivial
      exact fun world value store h => (retainRevisions_ok h).1

theorem Evidence.later {result : AuthoringResult} {grown : List AuthoringWorld}
    (evidence : Evidence service result history) (grows : history <:+ grown) :
    Evidence service result grown := by
  cases result with
  | published record => exact ⟨evidence.1, evidence.2.later grows⟩
  | discarded discardId result =>
      obtain ⟨record, held, answer⟩ := evidence
      exact ⟨record, held.later grows, answer⟩
  | done => trivial

variable (service)

/-- A history of the operations on a scope in which nothing was authored before. -/
abbrev Authored : List AuthoringWorld → Prop :=
  Lawful (service.authoring.Moves fun _ => AuthoringMove service) {}

def authoringRun
    (events : List (Event (AuthoringCircumstance host) Unit (AuthoringCall host) Empty)) :
    Config (AuthoringReply host) AuthoringFailure AuthoringResult AuthoringWorld Unit :=
  service.authoring.run events (initial {})

/-- An operation of the run has ended so. -/
def Answered (events : List (Event (AuthoringCircumstance host) Unit (AuthoringCall host) Empty))
    (result : AuthoringResult) : Prop :=
  ∃ entry ∈ (service.authoringRun events).running, entry.2.outcome = some (.ok result)

variable {service}

theorem Authored.step {past : List AuthoringWorld} {world next : AuthoringWorld}
    (move : service.authoring.Moves (fun _ => AuthoringMove service) (world :: past) next) :
    AuthoringStep service (world :: past) world next := by
  rcases move with ⟨_, step⟩ | ⟨_, change, -, -⟩
  · exact step
  · exact change.elim

theorem Authored.publications (authored : Authored service history) (publicationId : Digest) :
    (publicationCell service publicationId).Consistent history :=
  Versioned.consistent_of_lawful authored rfl fun _ _ _ move =>
    (Authored.step move).publications publicationId

theorem Authored.discards (authored : Authored service history) (discardId : Digest) :
    (discardCell service discardId).Consistent history :=
  Versioned.consistent_of_lawful authored rfl fun _ _ _ move =>
    (Authored.step move).discards discardId

theorem Authored.drafts (authored : Authored service history) :
    (draftCell service).Consistent history :=
  Versioned.consistent_of_lawful authored rfl fun _ _ _ move => (Authored.step move).drafts

theorem Authored.owned (authored : Authored service history) : Owned service history where
  publications {publicationId record} recorded := by
    obtain ⟨earlier, -, opens | ⟨base, -, follows, -⟩⟩ :=
      (authored.publications publicationId).origin recorded
    · exact opens.1
    · exact follows.1
  discards {discardId record} recorded := by
    obtain ⟨earlier, -, opens | ⟨base, -, follows, -⟩⟩ :=
      (authored.discards discardId).origin recorded
    · exact opens.1
    · exact follows.1

variable {events : List (Event (AuthoringCircumstance host) Unit (AuthoringCall host) Empty)}

theorem authoringRun_sound :
    service.authoring.Sound (fun _ => AuthoringMove service)
      (fun _ result history => ∀ value, result = .ok value → Evidence service value history) {}
      (service.authoringRun events) := by
  rw [authoringRun]
  refine Sound.run ?_ ?_ sound_initial events
  · intro _ result history later grows evidence value hvalue
    exact (evidence value hvalue).later grows
  · intro _ call history _
    exact Learns.under (program_authors call) fun _ authored => Authored.owned authored

theorem Answered.evidence {result : AuthoringResult} (answered : service.Answered events result) :
    Evidence service result (service.authoringRun events).history := by
  obtain ⟨⟨actor, p⟩, hentry, outcome⟩ := answered
  have keeps := (@authoringRun_sound host service events).running _ hentry
  cases p with
  | done value =>
      cases outcome
      exact keeps _ rfl
  | fail error => cases outcome
  | ask request resume => cases outcome

/-- A record that nothing may follow is what the world has in the end. -/
theorem final_publication {record : PublicationRecord} {publicationId : Digest}
    (recorded : (publicationCell service publicationId).Recorded
      (service.authoringRun events).history record) (applied : record.state = .applied) :
    (service.authoringRun events).world.publications publicationId = some record := by
  have lawful := (@authoringRun_sound host service events).lawful
  exact (Authored.publications lawful publicationId).final recorded
    (fun _ _ follows => follows.2.1 applied) _ rfl

theorem final_discard {record : ConfigurationDiscardRecord} {discardId : Digest}
    (recorded : (discardCell service discardId).Recorded
      (service.authoringRun events).history record) (decided : record.state ≠ .pending) :
    (service.authoringRun events).world.discards discardId = some record := by
  have lawful := (@authoringRun_sound host service events).lawful
  exact (Authored.discards lawful discardId).final recorded
    (fun _ _ follows => decided follows.2.1) _ rfl

/-- Whatever overlaps, fails half-way and is tried again: publications that succeed under one key
return one record, which is applied and stays in the store. -/
theorem publish_agreement {record : PublicationRecord}
    (answered : service.Answered events (.published record)) :
    record.state = .applied ∧
      (service.authoringRun events).world.publications record.publicationId = some record ∧
        ∀ other, service.Answered events (.published other) →
          other.publicationId = record.publicationId → other = record := by
  obtain ⟨applied, -, recorded⟩ := answered.evidence
  have stays := final_publication recorded applied
  refine ⟨applied, stays, fun other answered' same => ?_⟩
  obtain ⟨applied', -, recorded'⟩ := answered'.evidence
  have stays' := final_publication recorded' applied'
  rw [same, stays] at stays'
  exact (Option.some.inj stays').symm

/-- Every applied publication names the two revisions of a draft that the scope had, and these were
stored by then. -/
theorem applied_published {publicationId : Digest} {record : PublicationRecord}
    (held : (service.authoringRun events).world.publications publicationId = some record)
    (applied : record.state = .applied) :
    Published service (service.authoringRun events).history record := by
  have lawful := (@authoringRun_sound host service events).lawful
  obtain ⟨earlier, suffix, opens | ⟨base, -, follows, -⟩⟩ :=
    (Authored.publications lawful publicationId).origin (.now held)
  · rw [opens.2] at applied
    cases applied
  · exact (follows.2.2 applied).later suffix

/-- Drafts of one version are one draft. -/
theorem draft_unique {history : List AuthoringWorld} (authored : Authored service history)
    {first second : DraftRecord host.toConfigurationHost} (hfirst : DraftSeen service history first)
    (hsecond : DraftSeen service history second) (versions : first.version = second.version) :
    first = second := by
  have recorded : ∀ {draft : DraftRecord host.toConfigurationHost},
      DraftSeen service history draft →
      ∃ body, (draftCell service).Recorded history (draft.version, body) ∧
        readEnvelope host.toConfigurationHost "Stored" service.scopeDigest body =
          .ok draft.bundle ∧ draft.scopeDigest = service.scopeDigest := by
    rintro draft ⟨world, hworld, read⟩
    rw [SqliteStore.readDraft] at read
    split at read
    · cases read
    · next version body found =>
        obtain ⟨bundle, hbundle, read⟩ := exists_of_bind_eq_ok read
        cases read
        exact ⟨body, ⟨world, hworld, found⟩, hbundle, rfl⟩
  obtain ⟨body, hbody, bundle, scope⟩ := recorded hfirst
  obtain ⟨body', hbody', bundle', scope'⟩ := recorded hsecond
  have same := authored.drafts.unique hbody hbody' versions
  rw [Prod.mk.injEq] at same
  rw [same.2, bundle'] at bundle
  obtain ⟨_, version, _⟩ := first
  obtain ⟨_, version', _⟩ := second
  cases bundle
  simp_all

/-- Discards that succeed under one key return one result, and the draft of the version that they
return is the active configuration that they were requested for. -/
theorem discard_agreement {discardId : Digest} {result : ConfigurationDiscardResult}
    (answered : service.Answered events (.discarded discardId result)) :
    (∃ (document : host.Document) (draftVersion : Int) (active : RevisionIdentity) (record : _),
      (service.authoringRun events).world.discards discardId = some record ∧
        record.requestDigest = service.discardDigest draftVersion document active ∧
          result.workingVersion = draftVersion + 1 ∧
            ∀ draft, DraftSeen service (service.authoringRun events).history draft →
              draft.version = result.workingVersion → draft.bundle = document) ∧
      ∀ other, service.Answered events (.discarded discardId other) → other = result := by
  have lawful := (@authoringRun_sound host service events).lawful
  obtain ⟨record, ⟨rfl, recorded⟩, applied, outcome⟩ := answered.evidence
  have stays := final_discard recorded (by simp [applied])
  refine ⟨?_, fun other answered' => ?_⟩
  · obtain ⟨earlier, suffix, opens | ⟨base, -, follows, -⟩⟩ :=
      (Authored.discards lawful record.discardId).origin recorded
    · rw [opens.2] at applied
      cases applied
    · obtain ⟨restored, draftVersion, active, seen, version, returned, requested⟩ :=
        (follows.2.2 applied).later suffix
      rw [discardResult, applied, returned] at outcome
      cases outcome
      refine ⟨restored.bundle, draftVersion, active, record, stays, requested, version, ?_⟩
      intro draft hdraft same
      rw [draft_unique lawful hdraft seen same]
  · obtain ⟨record', ⟨same, recorded'⟩, applied', outcome'⟩ := answered'.evidence
    have stays' := final_discard recorded' (by simp [applied'])
    rw [stays] at stays'
    cases stays'
    rw [outcome] at outcome'
    exact (Except.ok.inj outcome').symm

end ConfigurationPublicationService

end Requests

namespace ConfigurationPublicationService

/-! ## A run -/

def draftDigest : Digest where
  text := "dddddddddddddddddddddddddddddddddddddddddddddddddddddddddddddddd"
  length := by decide
  hex := by decide

def resolvedDigest : Digest where
  text := "2222222222222222222222222222222222222222222222222222222222222222"
  length := by decide
  hex := by decide

def readDigest (text : String) : Option Digest :=
  if h : text.length = 64 ∧ text.toList.all isHexDigit then some (.checked text h) else none

/-- Every document is valid, and a resolved one names its source.  The hash tells a draft from what
it resolves to. -/
def acceptingHost : AuthoringHost where
  hashing := ⟨fun text => if text.utf8ByteSize ≤ 180 then draftDigest else resolvedDigest⟩
  validate value := some value
  isTenant
    | .obj (("source", _) :: _) => false
    | _ => true
  tenantResolution
    | .obj (("source", .str revision) :: _) => readDigest revision
    | _ => none

def ordersAuthoring : ConfigurationPublicationService acceptingHost :=
  ⟨draftDigest⟩

def ordersDraft : acceptingHost.Document where
  value := .obj [("flow", .str "orders")]
  accepted := rfl
  canonical := by decide +kernel
  bounded := by decide +kernel

def ordersSource : RevisionIdentity :=
  configurationRevisionIdentity ordersAuthoring.scopeDigest ordersDraft none

def ordersResolved : acceptingHost.Document where
  value := .obj [("source", .str ordersSource.text)]
  accepted := rfl
  canonical := by decide +kernel
  bounded := by decide +kernel

def ordersPublished : RevisionIdentity :=
  configurationRevisionIdentity ordersAuthoring.scopeDigest ordersResolved none

def authoredAt (now : Nat) : AuthoringCircumstance acceptingHost where
  now
  reading := some ⟨2024, 5, 1, 12, 0, 0, 0⟩
  policy := .null
  validation := .valid ordersResolved

abbrev AuthoringEvent :=
  Event (AuthoringCircumstance acceptingHost) Unit (AuthoringCall acceptingHost) Empty

/-- The next requests of one operation. -/
def proceed (index count now : Nat) : List AuthoringEvent :=
  List.replicate count (.serve index (authoredAt now))

def publisher : SubmittedOperation := ⟨"publish-orders", "ada", "request-1"⟩

def discarder : SubmittedOperation := ⟨"discard-orders", "ada", "request-2"⟩

/-- Two publications under one key overlap, and so do two discards of the draft. -/
def overlappingAuthors : List AuthoringEvent :=
  .start () (.writeDraft ordersDraft none) :: proceed 0 1 1 ++
    .start () (.publish 1 publisher) :: proceed 1 6 2 ++
    .start () (.publish 1 publisher) :: proceed 2 11 3 ++ proceed 1 6 4 ++
    .start () (.activate ordersPublished none none) :: proceed 3 1 5 ++
    .start () (.discard 1 ordersPublished discarder) :: proceed 4 7 6 ++
    .start () (.discard 1 ordersPublished discarder) :: proceed 5 8 7 ++ proceed 4 3 8

/-- How an operation of the run has ended. -/
def endedAt (index : Nat) : Option (Except AuthoringFailure AuthoringResult) :=
  (ordersAuthoring.authoringRun overlappingAuthors).running[index]?.bind fun entry =>
    entry.2.outcome

def publishedRecord : Except AuthoringFailure AuthoringResult → Option PublicationRecord
  | .ok (.published record) => some record
  | _ => none

def discardedResult : Except AuthoringFailure AuthoringResult →
    Option (Digest × ConfigurationDiscardResult)
  | .ok (.discarded discardId result) => some (discardId, result)
  | _ => none

theorem overlappingAuthors_outcome :
    (((endedAt 1).bind publishedRecord).isSome ∧
        (endedAt 2).bind publishedRecord = (endedAt 1).bind publishedRecord) ∧
      ((endedAt 4).bind discardedResult).isSome ∧
        (endedAt 5).bind discardedResult = (endedAt 4).bind discardedResult := by
  decide +kernel

theorem endedAt_answered {index : Nat} {ended : Except AuthoringFailure AuthoringResult}
    {result : AuthoringResult} (h : endedAt index = some ended) (outcome : ended = .ok result) :
    ordersAuthoring.Answered overlappingAuthors result := by
  obtain ⟨entry, found, ended⟩ := Option.bind_eq_some_iff.mp h
  exact ⟨entry, List.mem_of_getElem? found, outcome ▸ ended⟩

theorem published_answered {index : Nat} {record : PublicationRecord}
    (h : (endedAt index).bind publishedRecord = some record) :
    ordersAuthoring.Answered overlappingAuthors (.published record) := by
  obtain ⟨ended, found, outcome⟩ := Option.bind_eq_some_iff.mp h
  refine endedAt_answered found ?_
  rw [publishedRecord.eq_def] at outcome
  split at outcome <;> cases outcome
  rfl

theorem discarded_answered {index : Nat} {discardId : Digest}
    {result : ConfigurationDiscardResult}
    (h : (endedAt index).bind discardedResult = some (discardId, result)) :
    ordersAuthoring.Answered overlappingAuthors (.discarded discardId result) := by
  obtain ⟨ended, found, outcome⟩ := Option.bind_eq_some_iff.mp h
  refine endedAt_answered found ?_
  rw [discardedResult.eq_def] at outcome
  split at outcome <;> cases outcome
  rfl

theorem publish_agreement_overlapping :
    ∃ record, (endedAt 1).bind publishedRecord = some record ∧
      (endedAt 2).bind publishedRecord = some record ∧
        (ordersAuthoring.authoringRun overlappingAuthors).world.publications
          record.publicationId = some record := by
  obtain ⟨⟨ended, same⟩, -⟩ := overlappingAuthors_outcome
  obtain ⟨record, found⟩ := Option.isSome_iff_exists.mp ended
  obtain ⟨-, stays, -⟩ := publish_agreement (published_answered found)
  exact ⟨record, found, same.trans found, stays⟩

theorem applied_published_overlapping :
    ∃ record, (endedAt 1).bind publishedRecord = some record ∧
      Published ordersAuthoring (ordersAuthoring.authoringRun overlappingAuthors).history
        record := by
  obtain ⟨⟨ended, -⟩, -⟩ := overlappingAuthors_outcome
  obtain ⟨record, found⟩ := Option.isSome_iff_exists.mp ended
  obtain ⟨applied, -, recorded⟩ := (published_answered found).evidence
  have held := final_publication recorded applied
  have published := applied_published held applied
  exact ⟨record, found, published⟩

theorem discard_agreement_overlapping :
    ∃ discardId result, (endedAt 4).bind discardedResult = some (discardId, result) ∧
      ∀ other, ordersAuthoring.Answered overlappingAuthors (.discarded discardId other) →
        other = result := by
  obtain ⟨-, ended, -⟩ := overlappingAuthors_outcome
  obtain ⟨⟨discardId, result⟩, found⟩ := Option.isSome_iff_exists.mp ended
  obtain ⟨-, unique⟩ := discard_agreement (discarded_answered found)
  exact ⟨discardId, result, found, unique⟩

end ConfigurationPublicationService

end Justflow
