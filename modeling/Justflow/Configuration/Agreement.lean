import Justflow.Configuration.Transactions
import Justflow.Library.SoloRuns

/-!
# What the two stores hold

`Agree` relates the tables of the SQLite store to the items and bodies of the AWS store.  The
lemmas here say what each AWS request sequence does, run on its own, in a store that agrees with
tables; the operations follow in the next modules.
-/

open Fields JsonValue Process

namespace Justflow.Stores

open AwsStore

variable {host : ConfigurationHost}

/-- The columns of a listing that an item of a revision has. -/
def rowOf (entry : ItemKey × MetadataItem) : Option RevisionSummary :=
  if entry.2.recordType = .revision then
    match entry.2.revisionId, entry.2.createdAt with
    | some revisionId, some createdAt =>
        some ⟨entry.1.scopeDigest, revisionId, entry.2.parentRevisionId, createdAt⟩
    | _, _ => none
  else none

/-- One scope's draft in both stores. -/
def DraftAgrees (host : ConfigurationHost) (scopeDigest : Digest) (cloud : Cloud) :
    Option (Int × JsonValue) → Prop
  | none => cloud.items.get? (draftKey scopeDigest) = none
  | some (version, body) =>
      let bodyKey := draftBodyKey host scopeDigest body
      1 ≤ version ∧ (∃ bundle : ConfigurationDocument host, body = envelopeValue scopeDigest bundle) ∧
        cloud.items.get? (draftKey scopeDigest) = some (.draft scopeDigest version bodyKey) ∧
        cloud.objects.get? bodyKey = some body

/-- One scope's active pointer in both stores. -/
def PointerAgrees (scopeDigest : Digest) (cloud : Cloud) : Option (RevisionIdentity × Int) → Prop
  | none => cloud.items.get? (activeKey scopeDigest) = none
  | some (revisionId, version) => 1 ≤ version ∧
      cloud.items.get? (activeKey scopeDigest) = some (.active scopeDigest revisionId version)

/-- The stores hold the same; the bodies of the AWS store, also those that nothing refers to, are
among the given ones. -/
structure Agree (contents : RevisionContent host → Prop) (draftBodies : JsonValue → Prop)
    (store : SqliteStore) (cloud : Cloud) : Prop where
  whole : Whole contents cloud
  unmarked : ∀ key item, cloud.items.get? key = some item → item.recordType ≠ .revisionCleanup
  rows : store.revisions.entries.map SqliteStore.summary = cloud.items.entries.filterMap rowOf
  bodies : ∀ key row, store.revisions.get? key = some row →
    cloud.objects.get? (revisionBodyKey key.1 key.2) = some row.body
  drafts : ∀ scopeDigest, DraftAgrees host scopeDigest cloud (store.drafts.get? scopeDigest)
  pointers : ∀ scopeDigest,
    PointerAgrees scopeDigest cloud (store.activePointers.get? scopeDigest)
  draftObjects : ∀ scopeDigest digest body,
    cloud.objects.get? ⟨scopeDigest, .drafts, digest⟩ = some body → draftBodies body ∧
      digest = host.hashing.sha256 (Hashing.canonicalText body)
  revisionObjects : ∀ scopeDigest digest body,
    cloud.objects.get? ⟨scopeDigest, .revisions, digest⟩ = some body →
      ∃ content, contents content ∧ content.scopeDigest = scopeDigest ∧
        content.identity = digest ∧ body = envelopeValue scopeDigest content.bundle

/-- Both stores succeed with one value, or fail with one kind of error. -/
inductive Alike {α : Type} (agree : SqliteStore → Cloud → Prop) (store : SqliteStore) :
    Except ConfigurationError (α × SqliteStore) → Except AwsFailure α × Cloud → Prop
  | succeed {value : α} {next : SqliteStore} {later : Cloud} (agrees : agree next later) :
      Alike agree store (.ok (value, next)) (.ok value, later)
  | refuse {error other : ConfigurationError} {later : Cloud} (same : error.kind = other.kind)
      (agrees : agree store later) :
      Alike agree store (.error error) (.error (.raised other), later)

variable {contents : RevisionContent host → Prop} {draftBodies : JsonValue → Prop}
  {store : SqliteStore} {cloud later : Cloud}

theorem agree_empty : Agree contents draftBodies .empty .empty := by
  refine ⟨intact_empty, ?_, rfl, ?_, ?_, ?_, ?_, ?_⟩
  · intro key item found
    cases found
  · intro key row found
    cases found
  · exact fun _ => rfl
  · exact fun _ => rfl
  · intro scopeDigest digest body found
    cases found
  · intro scopeDigest digest body found
    cases found

/-! ## Requests on their own -/

section Requests

variable {request : AwsRequest} {translate : AwsFailure → AwsProcess (AwsReply request)}

theorem exec_sendRequest_ok {reply : AwsReply request}
    (h : cloud.serve request = (.ok reply, later)) :
    exec Cloud.serve (sendRequest request translate) cloud = (.ok reply, later) := by
  apply exec_rescue_ok
  rw [exec_call, h]

theorem exec_sendRequest_error {failure : AwsFailure}
    (h : cloud.serve request = (.error failure, later)) :
    exec Cloud.serve (sendRequest request translate) cloud =
      exec Cloud.serve (translate failure) later := by
  apply exec_rescue_error
  rw [exec_call, h]

@[simp]
theorem exec_getMetadata (key : ItemKey) :
    exec Cloud.serve (getMetadata key) cloud = (.ok (cloud.items.get? key), cloud) :=
  exec_sendRequest_ok rfl

theorem exec_conditionalPut_ok {key : ItemKey} {item : MetadataItem} {condition : DynamoCondition}
    (holds : condition.holds (cloud.items.get? key) = true) :
    exec Cloud.serve (conditionalPut key item condition) cloud =
      (.ok (), { cloud with items := cloud.items.insert key item }) := by
  apply exec_sendRequest_ok
  simp [Cloud.serve, Cloud.writeItems, DynamoOperation.write, holds]

theorem exec_conditionalPut_conflict {key : ItemKey} {item : MetadataItem}
    {condition : DynamoCondition} (fails : ¬ condition.holds (cloud.items.get? key) = true) :
    exec Cloud.serve (conditionalPut key item condition) cloud =
      (.error (.raised .conflict), cloud) := by
  have hserve : cloud.serve (.putItem key item condition) = (.error .conditional, cloud) := by
    simp [Cloud.serve, Cloud.writeItems, DynamoOperation.write, fails]
  rw [conditionalPut, exec_sendRequest_error hserve]
  rfl

theorem exec_transactWrite_ok {operations : List DynamoOperation} {items : Items}
    (h : operations.foldlM DynamoOperation.write cloud.items = some items) :
    exec Cloud.serve (transactWrite operations) cloud = (.ok (), { cloud with items }) := by
  apply exec_sendRequest_ok
  simp [Cloud.serve, Cloud.writeItems, h]

theorem exec_transactWrite_conflict {operations : List DynamoOperation}
    (h : operations.foldlM DynamoOperation.write cloud.items = none) :
    exec Cloud.serve (transactWrite operations) cloud = (.error (.raised .conflict), cloud) := by
  have hserve : cloud.serve (.transactWriteItems operations) = (.error .conditional, cloud) := by
    simp [Cloud.serve, Cloud.writeItems, h]
  rw [transactWrite, exec_sendRequest_error hserve]
  rfl

theorem exec_readBody {key : ObjectKey} {body : JsonValue}
    (found : cloud.objects.get? key = some body)
    (bounded : canonicalBytes body ≤ maxConfigurationEnvelopeBytes) :
    exec Cloud.serve (readBody key) cloud = (.ok body, cloud) := by
  have hserve : cloud.serve (.getObject key) = (.ok body, cloud) := by
    simp only [Cloud.serve, found]
  rw [readBody, exec_bind_ok (exec_sendRequest_ok hserve), if_neg (Nat.not_lt.mpr bounded)]
  rfl

end Requests

theorem envelope_bounded (scopeDigest : Digest) (bundle : ConfigurationDocument host) :
    canonicalBytes (envelopeValue scopeDigest bundle) ≤ maxConfigurationEnvelopeBytes := by
  have h := envelopeBytes_eq scopeDigest bundle
  by_contra hlt
  rw [envelopeBytes, if_pos (Nat.lt_of_not_le hlt)] at h
  cases h

theorem exec_readBundle {scopeDigest : Digest} {key : ObjectKey}
    {bundle : ConfigurationDocument host} (hscope : key.scopeDigest = scopeDigest)
    (found : cloud.objects.get? key = some (envelopeValue scopeDigest bundle))
    (digest : key.kind = .drafts →
      host.hashing.sha256 (Hashing.canonicalText (envelopeValue scopeDigest bundle)) =
        key.digest) :
    exec Cloud.serve (readBundle host scopeDigest key) cloud = (.ok bundle, cloud) := by
  have hdigest : ¬ (key.kind = .drafts ∧
      host.hashing.sha256 (Hashing.canonicalText (envelopeValue scopeDigest bundle)) ≠
        key.digest) := fun h => h.2 (digest h.1)
  rw [readBundle, if_neg (not_not_intro hscope),
    exec_bind_ok (exec_readBody found (envelope_bounded _ _)), readEnvelope_envelope]
  simp only [AwsStore.lift, done_bind, if_neg hdigest]
  rfl

/-! ## What an agreement of one row rests on -/

theorem DraftAgrees.mono {scopeDigest : Digest} {row : Option (Int × JsonValue)}
    (agrees : DraftAgrees host scopeDigest cloud row)
    (items : later.items.get? (draftKey scopeDigest) = cloud.items.get? (draftKey scopeDigest))
    (objects : ∀ digest body, cloud.objects.get? ⟨scopeDigest, .drafts, digest⟩ = some body →
      later.objects.get? ⟨scopeDigest, .drafts, digest⟩ = some body) :
    DraftAgrees host scopeDigest later row := by
  cases row with
  | none => exact items.trans agrees
  | some row =>
      obtain ⟨positive, known, hitem, hobject⟩ := agrees
      exact ⟨positive, known, items.trans hitem, objects _ _ hobject⟩

theorem PointerAgrees.of_eq {scopeDigest : Digest} {row : Option (RevisionIdentity × Int)}
    (agrees : PointerAgrees scopeDigest cloud row)
    (items : later.items.get? (activeKey scopeDigest) = cloud.items.get? (activeKey scopeDigest)) :
    PointerAgrees scopeDigest later row := by
  cases row with
  | none => exact items.trans agrees
  | some row => exact ⟨agrees.1, items.trans agrees.2⟩

/-! ## Lookups -/

namespace Agree

/-- A revision is in both stores or in neither. -/
theorem lookup (agree : Agree contents draftBodies store cloud) (scopeDigest : Digest)
    (revisionId : RevisionIdentity) :
    store.revisions.get? (scopeDigest, revisionId) = none ∧
        cloud.items.get? (revisionKey scopeDigest revisionId) = none ∨
      ∃ content createdAt, contents content ∧ content.scopeDigest = scopeDigest ∧
        content.identity = revisionId ∧ BodyStored cloud.objects content ∧
        store.revisions.get? (scopeDigest, revisionId) =
          some ⟨content.parent, createdAt, envelopeValue scopeDigest content.bundle⟩ ∧
        cloud.items.get? (revisionKey scopeDigest revisionId) =
          some (content.item createdAt (children cloud.items scopeDigest revisionId)) := by
  cases hitem : cloud.items.get? (revisionKey scopeDigest revisionId) with
  | none =>
      refine .inl ⟨?_, rfl⟩
      by_contra hsome
      obtain ⟨row, hrow⟩ := Option.ne_none_iff_exists'.mp hsome
      have hmem : SqliteStore.summary ((scopeDigest, revisionId), row) ∈
          cloud.items.entries.filterMap rowOf := by
        rw [← agree.rows]
        exact List.mem_map_of_mem (Table.mem_entries_iff.mpr hrow)
      obtain ⟨⟨key, item⟩, hentry, hsummary⟩ := List.mem_filterMap.mp hmem
      have found := Table.mem_entries_iff.mp hentry
      simp only [rowOf] at hsummary
      split at hsummary
      · next htype =>
          obtain ⟨revision, hkey⟩ := Intact.entry_revision agree.whole found htype
          rw [hkey] at found
          obtain ⟨content, createdAt, _, hscope, hidentity, _, rfl⟩ :=
            agree.whole.revisions _ _ _ found htype
          simp only [RevisionContent.item, MetadataItem.revision, SqliteStore.summary,
            Option.some.injEq, RevisionSummary.mk.injEq] at hsummary
          rw [hsummary.1, ← hidentity, hsummary.2.1, hitem] at found
          cases found
      · cases hsummary
  | some item =>
      right
      have htype : item.recordType = .revision := by
        by_contra hne
        have hmarker := agree.whole.markers _ _ _ hitem hne
        exact agree.unmarked _ _ hitem (by rw [hmarker]; rfl)
      obtain ⟨content, createdAt, known, rfl, rfl, stored, rfl⟩ :=
        agree.whole.revisions _ _ _ hitem htype
      have hmem : rowOf (revisionKey content.scopeDigest content.identity,
          content.item createdAt (children cloud.items content.scopeDigest content.identity +
            debtless content.scopeDigest content.identity)) =
          some ⟨content.scopeDigest, content.identity, content.parent, createdAt⟩ := rfl
      have hrow : (⟨content.scopeDigest, content.identity, content.parent, createdAt⟩ :
          RevisionSummary) ∈ store.revisions.entries.map SqliteStore.summary := by
        rw [agree.rows]
        exact List.mem_filterMap.mpr ⟨_, Table.mem_entries_iff.mpr hitem, hmem⟩
      obtain ⟨⟨⟨scope, revision⟩, row⟩, hentry, hsummary⟩ := List.mem_map.mp hrow
      simp only [SqliteStore.summary, RevisionSummary.mk.injEq] at hsummary
      obtain ⟨rfl, rfl, hparent, rfl⟩ := hsummary
      have hfound := Table.mem_entries_iff.mp hentry
      have hbody := agree.bodies _ _ hfound
      rw [BodyStored] at stored
      simp only at hbody
      rw [stored] at hbody
      refine ⟨content, row.createdAt, known, rfl, rfl, stored, ?_, ?_⟩
      · rw [hfound, ← hparent, Option.some.inj hbody]
      · simp [debtless]

theorem registered_iff (agree : Agree contents draftBodies store cloud) (scopeDigest : Digest)
    (revisionId : RevisionIdentity) :
    Registered cloud.items scopeDigest revisionId ↔
      (store.revisions.get? (scopeDigest, revisionId)).isSome = true := by
  rcases agree.lookup scopeDigest revisionId with ⟨hrow, hitem⟩ |
    ⟨content, createdAt, _, _, _, _, hrow, hitem⟩
  · simp [Registered, hrow, hitem]
  · rw [hrow]
    constructor
    · exact fun _ => rfl
    · exact fun _ => ⟨_, hitem, rfl⟩

/-- Stores that agree have no reference without its row. -/
theorem foreignKeys (agree : Agree contents draftBodies store cloud) : store.foreignKeys = true := by
  simp only [SqliteStore.foreignKeys, Bool.and_eq_true, List.all_eq_true]
  constructor
  · rintro ⟨⟨scopeDigest, revisionId⟩, row⟩ hentry
    have found := Table.mem_entries_iff.mp hentry
    rcases agree.lookup scopeDigest revisionId with ⟨hrow, _⟩ |
      ⟨content, createdAt, _, _, _, _, hrow, hitem⟩
    · rw [hrow] at found
      cases found
    · rw [hrow] at found
      cases found
      simp only [Option.all_eq_true]
      intro parent hparent
      have hnamed : (content.item createdAt
          (children cloud.items scopeDigest revisionId)).parentRevisionId = some parent := hparent
      exact (agree.registered_iff _ _).mp (agree.whole.parents _ _ _ _ hitem rfl hnamed)
  · rintro ⟨scopeDigest, revisionId, version⟩ hentry
    have found := Table.mem_entries_iff.mp hentry
    have hpointer := agree.pointers scopeDigest
    rw [found] at hpointer
    obtain ⟨_, _, hitem, registered⟩ := agree.whole.active _ _ hpointer.2
    cases hitem
    exact (agree.registered_iff _ _).mp registered

theorem checked (agree : Agree contents draftBodies store cloud) (message : String) :
    store.checked message = .ok store := by
  rw [SqliteStore.checked, if_pos agree.foreignKeys]

/-! ## Writes -/

/-- A body is stored where there is none or the same one. -/
theorem insertObject (agree : Agree contents draftBodies store cloud) {key : ObjectKey}
    {body : JsonValue}
    (compatible : ∀ existing, cloud.objects.get? key = some existing → existing = body)
    (draft : key.kind = .drafts → draftBodies body ∧
      key.digest = host.hashing.sha256 (Hashing.canonicalText body))
    (revision : key.kind = .revisions → ∃ content, contents content ∧
      content.scopeDigest = key.scopeDigest ∧ content.identity = key.digest ∧
        body = envelopeValue key.scopeDigest content.bundle) :
    Agree contents draftBodies store
      { cloud with objects := cloud.objects.insert key body } := by
  have stays : ∀ other found, cloud.objects.get? other = some found →
      (cloud.objects.insert key body).get? other = some found :=
    fun other found => Table.get?_insert_of_compatible compatible
  refine ⟨?_, agree.unmarked, agree.rows, ?_, ?_, agree.pointers, ?_, ?_⟩
  · cases hfound : cloud.objects.get? key with
    | none => exact agree.whole.putObject hfound body
    | some existing =>
        rw [compatible _ hfound] at hfound
        rw [Table.insert_of_get? hfound]
        exact agree.whole
  · exact fun other row hrow => stays _ _ (agree.bodies _ _ hrow)
  · exact fun scopeDigest => (agree.drafts scopeDigest).mono rfl fun digest found => stays _ _
  · intro scopeDigest digest found hfound
    rw [Table.get?_insert] at hfound
    split at hfound
    · next heq =>
        cases hfound
        have hnew := draft (by rw [← heq])
        rwa [← heq] at hnew
    · exact agree.draftObjects _ _ _ hfound
  · intro scopeDigest digest found hfound
    rw [Table.get?_insert] at hfound
    split at hfound
    · next heq =>
        cases hfound
        have hnew := revision (by rw [← heq])
        rwa [← heq] at hnew
    · exact agree.revisionObjects _ _ _ hfound

theorem rowOf_ne_revision {key : ItemKey} {item : MetadataItem} (h : item.recordType ≠ .revision) :
    rowOf (key, item) = none :=
  if_neg h

/-- The rows do not see an item that is no revision, in the place of none. -/
theorem rows_insert (agree : Agree contents draftBodies store cloud) {key : ItemKey}
    {item : MetadataItem} (hitem : item.recordType ≠ .revision)
    (hold : ∀ old, cloud.items.get? key = some old → old.recordType ≠ .revision) :
    store.revisions.entries.map SqliteStore.summary =
      (cloud.items.insert key item).entries.filterMap rowOf := by
  rw [agree.rows]
  symm
  apply Table.filterMap_insert_unseen
  · exact fun _ => rowOf_ne_revision hitem
  · intro old hfound
    rw [rowOf_ne_revision hitem, rowOf_ne_revision (hold old hfound)]

theorem saveDraft (agree : Agree contents draftBodies store cloud) {scopeDigest : Digest}
    {bundle : ConfigurationDocument host} {version : Int} (positive : 1 ≤ version)
    (stored : cloud.objects.get? (draftBodyKey host scopeDigest (envelopeValue scopeDigest bundle)) =
      some (envelopeValue scopeDigest bundle)) :
    Agree contents draftBodies
      { store with
        drafts := store.drafts.insert scopeDigest (version, envelopeValue scopeDigest bundle) }
      { cloud with
        items := cloud.items.insert (draftKey scopeDigest) (.draft scopeDigest version
          (draftBodyKey host scopeDigest (envelopeValue scopeDigest bundle))) } := by
  have hitem : (MetadataItem.draft scopeDigest version
      (draftBodyKey host scopeDigest (envelopeValue scopeDigest bundle))).recordType ≠ .revision :=
    nofun
  have hold : ∀ old, cloud.items.get? (draftKey scopeDigest) = some old →
      old.recordType ≠ .revision := by
    intro old hfound
    obtain ⟨_, _, rfl⟩ := agree.whole.drafts _ _ hfound
    nofun
  refine ⟨agree.whole.putDraft version _, ?_, agree.rows_insert hitem hold, agree.bodies, ?_, ?_,
    agree.draftObjects, agree.revisionObjects⟩
  · intro key item hfound
    rw [Table.get?_insert] at hfound
    split at hfound
    · cases hfound
      nofun
    · exact agree.unmarked _ _ hfound
  · intro scope
    by_cases h : scope = scopeDigest
    · subst h
      rw [Table.get?_insert_self]
      exact ⟨positive, ⟨bundle, rfl⟩, Table.get?_insert_self _ _ _, stored⟩
    · rw [Table.get?_insert_ne _ h]
      apply (agree.drafts scope).mono
      · exact Table.get?_insert_ne _ (by simpa [draftKey_inj] using h) _
      · exact fun _ _ hobject => hobject
  · intro scope
    apply (agree.pointers scope).of_eq
    exact Table.get?_insert_ne _ (draftKey_ne_activeKey _ _).symm _

theorem activate (agree : Agree contents draftBodies store cloud) {scopeDigest : Digest}
    {revisionId : RevisionIdentity} (registered : Registered cloud.items scopeDigest revisionId)
    {version : Int} (positive : 1 ≤ version) :
    Agree contents draftBodies
      { store with
        activePointers := store.activePointers.insert scopeDigest (revisionId, version) }
      { cloud with
        items := cloud.items.insert (activeKey scopeDigest)
          (.active scopeDigest revisionId version) } := by
  have hitem : (MetadataItem.active scopeDigest revisionId version).recordType ≠ .revision := nofun
  have hold : ∀ old, cloud.items.get? (activeKey scopeDigest) = some old →
      old.recordType ≠ .revision := by
    intro old hfound
    obtain ⟨_, _, rfl, _⟩ := agree.whole.active _ _ hfound
    nofun
  refine ⟨agree.whole.putActive registered version, ?_, agree.rows_insert hitem hold, agree.bodies,
    ?_, ?_, agree.draftObjects, agree.revisionObjects⟩
  · intro key item hfound
    rw [Table.get?_insert] at hfound
    split at hfound
    · cases hfound
      nofun
    · exact agree.unmarked _ _ hfound
  · intro scope
    apply (agree.drafts scope).mono
    · exact Table.get?_insert_ne _ (draftKey_ne_activeKey _ _) _
    · exact fun _ _ hobject => hobject
  · intro scope
    by_cases h : scope = scopeDigest
    · subst h
      rw [Table.get?_insert_self]
      exact ⟨positive, Table.get?_insert_self _ _ _⟩
    · rw [Table.get?_insert_ne _ h]
      apply (agree.pointers scope).of_eq
      exact Table.get?_insert_ne _ (by simpa [activeKey_inj] using h) _

end Agree

/-! ## Revisions that come and go -/

/-- Items that differ in child counts only. -/
structure SameRows (items middle : Items) : Prop where
  rows : middle.entries.filterMap rowOf = items.entries.filterMap rowOf
  drafts : ∀ scopeDigest, middle.get? (draftKey scopeDigest) = items.get? (draftKey scopeDigest)
  active : ∀ scopeDigest, middle.get? (activeKey scopeDigest) = items.get? (activeKey scopeDigest)
  unmarked : (∀ key item, items.get? key = some item → item.recordType ≠ .revisionCleanup) →
    ∀ key item, middle.get? key = some item → item.recordType ≠ .revisionCleanup

theorem SameRows.refl (items : Items) : SameRows items items where
  rows := rfl
  drafts := fun _ => rfl
  active := fun _ => rfl
  unmarked := fun h => h

theorem SameRows.addChildren {items : Items} {scopeDigest : Digest} {revisionId : RevisionIdentity}
    {item : MetadataItem} (found : items.get? (revisionKey scopeDigest revisionId) = some item)
    (delta : Int) :
    SameRows items (items.insert (revisionKey scopeDigest revisionId) (item.addChildren delta)) where
  rows := by
    apply Table.filterMap_insert_unseen
    · intro fresh
      rw [fresh] at found
      cases found
    · intro old hold
      rw [found] at hold
      cases hold
      rfl
  drafts := fun scope => Table.get?_insert_ne _ (revisionKey_ne_draftKey _ scope _).symm _
  active := fun scope => Table.get?_insert_ne _ (revisionKey_ne_activeKey _ scope _).symm _
  unmarked := by
    intro unmarked key other hother
    rw [Table.get?_insert] at hother
    split at hother
    · cases hother
      exact unmarked _ item found
    · exact unmarked _ _ hother

namespace Agree

theorem register (agree : Agree contents draftBodies store cloud) {middle : Items}
    (same : SameRows cloud.items middle) {content : RevisionContent host}
    (fresh : cloud.items.get? (revisionKey content.scopeDigest content.identity) = none)
    (counted : middle.get? (revisionKey content.scopeDigest content.identity) = none)
    (stored : BodyStored cloud.objects content) {createdAt : UtcTime}
    (whole : Whole contents { cloud with
      items := middle.insert (revisionKey content.scopeDigest content.identity)
        (content.item createdAt 0) }) :
    Agree contents draftBodies
      { store with
        revisions := store.revisions.insert (content.scopeDigest, content.identity)
          ⟨content.parent, createdAt, envelopeValue content.scopeDigest content.bundle⟩ }
      { cloud with
        items := middle.insert (revisionKey content.scopeDigest content.identity)
          (content.item createdAt 0) } := by
  have absent : store.revisions.get? (content.scopeDigest, content.identity) = none := by
    rcases agree.lookup content.scopeDigest content.identity with ⟨hrow, _⟩ |
      ⟨_, _, _, _, _, _, _, hitem⟩
    · exact hrow
    · rw [fresh] at hitem
      cases hitem
  refine ⟨whole, ?_, ?_, ?_, ?_, ?_, agree.draftObjects, agree.revisionObjects⟩
  · intro key item hfound
    rw [Table.get?_insert] at hfound
    split at hfound
    · cases hfound
      nofun
    · exact same.unmarked agree.unmarked _ _ hfound
  · rw [Table.entries_insert_fresh absent, Table.entries_insert_fresh counted, List.map_append,
      List.filterMap_append, same.rows, agree.rows]
    rfl
  · intro key row hrow
    rw [Table.get?_insert] at hrow
    split at hrow
    · next heq =>
        cases hrow
        subst heq
        exact stored
    · exact agree.bodies _ _ hrow
  · intro scope
    apply (agree.drafts scope).mono
    · exact (Table.get?_insert_ne _ (revisionKey_ne_draftKey _ _ _).symm _).trans
        (same.drafts scope)
    · exact fun _ _ hobject => hobject
  · intro scope
    apply (agree.pointers scope).of_eq
    exact (Table.get?_insert_ne _ (revisionKey_ne_activeKey _ _ _).symm _).trans
      (same.active scope)

/-- The row of a summary has this key. -/
def isRow (scopeDigest : Digest) (revisionId : RevisionIdentity) (row : RevisionSummary) : Bool :=
  row.scopeDigest = scopeDigest ∧ row.revisionId = revisionId

theorem rows_erase (agree : Agree contents draftBodies store cloud) (scopeDigest : Digest)
    (revisionId : RevisionIdentity) :
    (store.revisions.erase (scopeDigest, revisionId)).entries.map SqliteStore.summary =
      (cloud.items.erase (revisionKey scopeDigest revisionId)).entries.filterMap rowOf := by
  rw [← List.filterMap_eq_map, Table.filterMap_erase (some ∘ SqliteStore.summary)
    (fun row => !isRow scopeDigest revisionId row), Table.filterMap_erase rowOf
    (fun row => !isRow scopeDigest revisionId row), List.filterMap_eq_map, agree.rows]
  · rintro key item row hfound hrow
    by_cases htype : item.recordType = .revision
    · obtain ⟨revision, hkey⟩ := Intact.entry_revision agree.whole hfound htype
      rw [hkey] at hfound
      obtain ⟨content, createdAt, _, hscope, rfl, _, rfl⟩ :=
        agree.whole.revisions _ _ _ hfound htype
      rw [rowOf, if_pos htype] at hrow
      cases hrow
      rw [hkey, revisionKey_inj]
      simp only [isRow, Bool.not_eq_false']
      exact decide_eq_true_iff
    · rw [rowOf_ne_revision htype] at hrow
      cases hrow
  · rintro ⟨scope, revision⟩ row projected _ hprojected
    cases hprojected
    simp only [isRow, SqliteStore.summary, Bool.not_eq_false', Prod.mk.injEq]
    exact decide_eq_true_iff

theorem unregister (agree : Agree contents draftBodies store cloud) {next : Items}
    {scopeDigest : Digest} {revisionId : RevisionIdentity}
    (same : SameRows (cloud.items.erase (revisionKey scopeDigest revisionId)) next)
    (whole : Whole contents
      ⟨cloud.objects.erase (revisionBodyKey scopeDigest revisionId), next⟩) :
    Agree contents draftBodies
      { store with revisions := store.revisions.erase (scopeDigest, revisionId) }
      ⟨cloud.objects.erase (revisionBodyKey scopeDigest revisionId), next⟩ := by
  have erased : ∀ key found,
      (cloud.items.erase (revisionKey scopeDigest revisionId)).get? key = some found →
        cloud.items.get? key = some found := fun key found h => (Intact.found_erased h).2
  refine ⟨whole, ?_, (agree.rows_erase _ _).trans same.rows.symm, ?_, ?_, ?_, ?_, ?_⟩
  · exact same.unmarked fun key item hfound => agree.unmarked _ _ (erased _ _ hfound)
  · intro key row hrow
    rw [Table.get?_erase] at hrow
    split at hrow
    · cases hrow
    · next hne =>
        have hbody : revisionBodyKey key.1 key.2 ≠ revisionBodyKey scopeDigest revisionId := by
          intro heq
          simp only [revisionBodyKey, ObjectKey.mk.injEq, true_and] at heq
          exact hne (Prod.ext heq.1 heq.2)
        exact (Table.get?_erase_ne _ hbody).trans (agree.bodies _ _ hrow)
  · intro scope
    apply (agree.drafts scope).mono
    · exact (same.drafts scope).trans
        (Table.get?_erase_ne _ (revisionKey_ne_draftKey _ _ _).symm)
    · intro digest body hobject
      exact (Table.get?_erase_ne _ (by simp [revisionBodyKey])).trans hobject
  · intro scope
    apply (agree.pointers scope).of_eq
    exact (same.active scope).trans (Table.get?_erase_ne _ (revisionKey_ne_activeKey _ _ _).symm)
  · intro scope digest body hobject
    rw [Table.get?_erase_ne _ (by simp [revisionBodyKey])] at hobject
    exact agree.draftObjects _ _ _ hobject
  · intro scope digest body hobject
    rw [Table.get?_erase] at hobject
    split at hobject
    · cases hobject
    · exact agree.revisionObjects _ _ _ hobject

end Agree

end Justflow.Stores
