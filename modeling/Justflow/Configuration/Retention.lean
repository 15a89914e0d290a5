import Justflow.Configuration.CloudSources

/-!
# Retention and what the active revision needs

A retention of the SQLite store never deletes the active revision, and the foreign keys keep the
parents.  The tenant source that a resolved bundle names is no foreign key, so a retention can
delete it from under the active revision (`source_deleted`).  In runs whose retentions spare the
sources of what they leave, everything that the active revision needs can be read, in this store
and in the AWS store (`retention_keeps_needed`).
-/

open Fields JsonValue Program

namespace Justflow

open Stores

namespace ReadBack

variable {models : DocumentModels}

/-- `_source_revision_id`. -/
def sourceRevisionId : StoredDocument → Option RevisionIdentity
  | .bundle document => document.tenantResolution.map (·.tenantConfigurationRevisionId)
  | .tenant _ => none

/-- The active revision of a scope and what it rests on: parents, and the sources that resolved
bundles name. -/
inductive Needed (session : Session) (scopeDigest : Digest) : RevisionIdentity → Prop where
  | active {pointer : Stores.ActivePointer}
      (found : session.store.readActive scopeDigest = some pointer) :
      Needed session scopeDigest pointer.revisionId
  | parent {revisionId parent : RevisionIdentity} {row : RevisionRow}
      (needed : Needed session scopeDigest revisionId)
      (found : session.store.revisions.get? (scopeDigest, revisionId) = some row)
      (named : row.parentRevisionId = some parent) : Needed session scopeDigest parent
  | source {revisionId source : RevisionIdentity} {document : StoredDocument}
      (needed : Needed session scopeDigest revisionId)
      (found : session.revisions (scopeDigest, revisionId) = some document)
      (named : sourceRevisionId document = some source) : Needed session scopeDigest source

/-! ## The condition -/

/-- The revisions that a retention selects. -/
def selected (store : SqliteStore) (scopeDigest : Digest) (keepLatest deleteLimit : Int) :
    List RevisionIdentity :=
  let rows := (store.orderedRows scopeDigest).take (maxRetentionScanCount + 1)
  (SqliteStore.retentionCandidates rows (store.readActive scopeDigest) keepLatest.toNat
    deleteLimit.toNat).map (·.revisionId)

/-- What is created fits, and names a source that is stored; a retention leaves the sources of
what it leaves. -/
def Spares (session : Session) : StoreCall models → Prop
  | .createRevision scopeDigest document _ _ _ =>
      document.Fits ∧ ∀ source, sourceRevisionId document = some source →
        session.revisions (scopeDigest, source) ≠ none
  | .retainRevisions scopeDigest keepLatest deleteLimit =>
      ∀ revisionId document source, session.revisions (scopeDigest, revisionId) = some document →
        sourceRevisionId document = some source →
          source ∈ selected session.store scopeDigest keepLatest deleteLimit →
            revisionId ∈ selected session.store scopeDigest keepLatest deleteLimit
  | .compareAndSwapDraft _ _ _ _ | .compareAndSwapActive _ _ _ _ => True

def SparingFrom (session : Session) : List (StoreCall models) → Prop
  | [] => True
  | operation :: rest => Spares session operation ∧ SparingFrom (session.call operation) rest

/-! ## Foreign keys -/

theorem foreignKeys_parent {store : SqliteStore} (keys : store.foreignKeys = true)
    {scopeDigest : Digest} {revisionId parent : RevisionIdentity} {row : RevisionRow}
    (found : store.revisions.get? (scopeDigest, revisionId) = some row)
    (named : row.parentRevisionId = some parent) :
    ∃ parentRow, store.revisions.get? (scopeDigest, parent) = some parentRow := by
  rw [SqliteStore.foreignKeys, Bool.and_eq_true, List.all_eq_true] at keys
  have hrow := keys.1 _ (Table.mem_entries_iff.mpr found)
  rw [named] at hrow
  exact Option.isSome_iff_exists.mp hrow

theorem foreignKeys_active {store : SqliteStore} (keys : store.foreignKeys = true)
    {scopeDigest : Digest} {pointer : Stores.ActivePointer}
    (found : store.readActive scopeDigest = some pointer) :
    ∃ row, store.revisions.get? (scopeDigest, pointer.revisionId) = some row := by
  rw [SqliteStore.foreignKeys, Bool.and_eq_true, List.all_eq_true, List.all_eq_true] at keys
  obtain ⟨entry, hentry, rfl⟩ := Option.map_eq_some_iff.mp found
  exact Option.isSome_iff_exists.mp (keys.2 _ (Table.mem_entries_iff.mpr hentry))

theorem checked_foreignKeys {store next : SqliteStore} {message : String}
    (h : SqliteStore.checked store message = .ok next) : next.foreignKeys = true := by
  obtain rfl := checked_ok h
  rw [SqliteStore.checked] at h
  split at h
  · next keys => exact keys
  · cases h

section Calls

variable {store next : SqliteStore} {scopeDigest : Digest} {document : StoredDocument}

theorem createRevision_foreignKeys {parent : Option RevisionIdentity} {reading : Option UtcTime}
    {record : RevisionRecord} (keys : store.foreignKeys = true)
    (h : createRevision models store scopeDigest document parent reading = .ok (record, next)) :
    next.foreignKeys = true := by
  rw [createRevision] at h
  obtain ⟨body, _, h⟩ := exists_of_bind_eq_ok h
  obtain ⟨createdAt, _, h⟩ := exists_of_bind_eq_ok h
  obtain ⟨_, _, h⟩ := exists_of_bind_eq_ok h
  dsimp only at h
  split at h
  · split at h
    · cases h
    · cases h
      exact keys
  · obtain ⟨stored, hstored, h⟩ := exists_of_bind_eq_ok h
    cases h
    exact checked_foreignKeys hstored

theorem compareAndSwapActive_foreignKeys {revisionId : RevisionIdentity}
    {expectedRevisionId : Option RevisionIdentity} {expectedVersion : Option Int}
    {pointer : Stores.ActivePointer}
    (h : store.compareAndSwapActive scopeDigest revisionId expectedRevisionId expectedVersion =
      .ok (pointer, next)) : next.foreignKeys = true := by
  rw [SqliteStore.compareAndSwapActive] at h
  obtain ⟨_, _, h⟩ := exists_of_bind_eq_ok h
  dsimp only at h
  split at h
  · cases h
  · obtain ⟨stored, hstored, h⟩ := exists_of_bind_eq_ok h
    cases h
    exact checked_foreignKeys hstored

/-- Deletions leave a store whose foreign keys hold, without the rows deleted. -/
theorem deleteRevisions_foreignKeys {revisionIds : List RevisionIdentity}
    (keys : store.foreignKeys = true)
    (h : revisionIds.foldlM (fun store revisionId =>
      SqliteStore.deleteRevision store scopeDigest revisionId) store = .ok next) :
    next.foreignKeys = true ∧ ∀ revisionId ∈ revisionIds,
      next.revisions.get? (scopeDigest, revisionId) = none := by
  induction revisionIds generalizing store with
  | nil =>
      cases h
      exact ⟨keys, nofun⟩
  | cons first rest ih =>
      rw [List.foldlM_cons] at h
      obtain ⟨middle, hmiddle, h⟩ := exists_of_bind_eq_ok h
      obtain ⟨hkeys, hrest⟩ := ih (checked_foreignKeys hmiddle) h
      refine ⟨hkeys, List.forall_mem_cons.mpr ⟨?_, hrest⟩⟩
      by_cases again : first ∈ rest
      · exact hrest first again
      · rw [(deleteRevisions_ok h).2 (scopeDigest, first) fun later => again later.2]
        obtain rfl := checked_ok hmiddle
        exact Table.get?_erase_self _ _

/-- A retention deletes what it has selected. -/
theorem retainRevisions_selected {keepLatest deleteLimit : Int} {deleted : List RevisionIdentity}
    (keys : store.foreignKeys = true)
    (h : store.retainRevisions scopeDigest keepLatest deleteLimit = .ok (deleted, next)) :
    deleted = selected store scopeDigest keepLatest deleteLimit ∧ next.foreignKeys = true ∧
      ∀ revisionId ∈ deleted, next.revisions.get? (scopeDigest, revisionId) = none := by
  rw [SqliteStore.retainRevisions] at h
  dsimp only at h
  split at h
  · cases h
  · split at h
    · cases h
    · obtain ⟨stored, hstored, h⟩ := exists_of_bind_eq_ok h
      cases h
      exact ⟨rfl, deleteRevisions_foreignKeys keys hstored⟩

end Calls

/-! ## Runs -/

/-- What holds of a store whose retentions have spared the sources. -/
structure Session.Sound (models : DocumentModels) (session : Session) : Prop where
  kept : session.Kept models
  keys : session.store.foreignKeys = true
  recorded : ∀ key row, session.store.revisions.get? key = some row → session.revisions key ≠ none
  sources : ∀ scopeDigest revisionId document source,
    session.revisions (scopeDigest, revisionId) = some document →
      sourceRevisionId document = some source → session.revisions (scopeDigest, source) ≠ none
  fits : ∀ key document, session.revisions key = some document → document.Fits

theorem sound_empty : Session.empty.Sound models :=
  ⟨kept_empty, rfl, nofun, nofun, nofun⟩

/-- A created revision names a source that is there, and takes nothing away. -/
theorem Session.Sound.create {session : Session} (sound : session.Sound models)
    {scopeDigest : Digest} {document : StoredDocument} {written : models.Written document}
    {parent : Option RevisionIdentity} {reading : Option UtcTime}
    (spares : Spares session (.createRevision scopeDigest document written parent reading)) :
    (session.call (.createRevision scopeDigest document written parent reading)).Sound models := by
  have kept := sound.kept.call (.createRevision scopeDigest document written parent reading)
  obtain ⟨fits, named⟩ := spares
  rw [Session.call] at kept ⊢
  split at kept
  · exact sound
  · next record store hcall =>
      obtain ⟨_, _, _, hothers⟩ := createRevision_ok written hcall
      have hstays : ∀ key, session.revisions key ≠ none →
          Function.update session.revisions (scopeDigest, record.revisionId) (some document) key ≠
            none := by
        intro key hkey
        rw [Function.update_apply]
        split
        · rintro ⟨⟩
        · exact hkey
      refine ⟨kept, createRevision_foreignKeys sound.keys hcall, ?_, ?_, ?_⟩
      · intro key row found
        by_cases same : key = (scopeDigest, record.revisionId)
        · simp [same]
        · simp only at found ⊢
          rw [hothers key same] at found
          exact hstays key (sound.recorded key row found)
      · intro scope revisionId other source hother hsource
        simp only at hother ⊢
        rw [Function.update_apply] at hother
        split at hother
        · next same =>
            cases hother
            cases same
            exact hstays _ (named source hsource)
        · exact hstays _ (sound.sources scope revisionId other source hother hsource)
      · intro key other hother
        simp only at hother
        rw [Function.update_apply] at hother
        split at hother
        · cases hother
          exact fits
        · exact sound.fits key other hother

/-- A retention that spares the sources leaves each with the revisions that name it. -/
theorem Session.Sound.retain {session : Session} (sound : session.Sound models)
    {scopeDigest : Digest} {keepLatest deleteLimit : Int}
    (spares : Spares session
      (.retainRevisions scopeDigest keepLatest deleteLimit : StoreCall models)) :
    (session.call
      (.retainRevisions scopeDigest keepLatest deleteLimit : StoreCall models)).Sound models := by
  have kept := sound.kept.call
    (.retainRevisions scopeDigest keepLatest deleteLimit : StoreCall models)
  rw [Session.call] at kept ⊢
  split at kept
  · exact sound
  · next deleted store hcall =>
      obtain ⟨hselected, keys, habsent⟩ := retainRevisions_selected sound.keys hcall
      obtain ⟨_, hothers⟩ := retainRevisions_ok hcall
      refine ⟨kept, keys, ?_, ?_, ?_⟩
      · rintro ⟨scope, revisionId⟩ row found
        simp only at found ⊢
        split
        · next gone =>
            obtain ⟨rfl, hmem⟩ := gone
            rw [habsent revisionId hmem] at found
            cases found
        · next remains =>
            rw [hothers _ remains] at found
            exact sound.recorded _ row found
      · intro scope revisionId document source hdocument hsource
        simp only at hdocument ⊢
        split at hdocument
        · cases hdocument
        · next remains =>
            have hstored := sound.sources scope revisionId document source hdocument hsource
            split
            · next gone =>
                obtain ⟨rfl, hmem⟩ := gone
                rw [hselected] at hmem remains
                exact absurd ⟨rfl, spares revisionId document source hdocument hsource hmem⟩ remains
            · exact hstored
      · intro key document hdocument
        simp only at hdocument
        split at hdocument
        · cases hdocument
        · exact sound.fits key document hdocument

theorem Session.Sound.call {session : Session} (sound : session.Sound models)
    {operation : StoreCall models} (spares : Spares session operation) :
    (session.call operation).Sound models := by
  have kept := sound.kept.call operation
  cases operation with
  | createRevision scopeDigest document written parent reading => exact sound.create spares
  | retainRevisions scopeDigest keepLatest deleteLimit => exact sound.retain spares
  | compareAndSwapDraft scopeDigest document written expectedVersion =>
      rw [Session.call] at kept ⊢
      split at kept
      · exact sound
      · next draft store hcall =>
          obtain ⟨version, rfl⟩ := compareAndSwapDraft_ok written hcall
          exact ⟨kept, sound.keys, sound.recorded, sound.sources, sound.fits⟩
  | compareAndSwapActive scopeDigest revisionId expectedRevisionId expectedVersion =>
      rw [Session.call] at kept ⊢
      split at kept
      · exact sound
      · next pointer store hcall =>
          have keys := compareAndSwapActive_foreignKeys hcall
          have hrevisions := (compareAndSwapActive_ok hcall).2
          refine ⟨kept, keys, ?_, sound.sources, sound.fits⟩
          simpa only [hrevisions] using sound.recorded

theorem Session.Sound.run {session : Session} (sound : session.Sound models)
    {calls : List (StoreCall models)} (sparing : SparingFrom session calls) :
    (calls.foldl Session.call session).Sound models := by
  induction calls generalizing session with
  | nil => exact sound
  | cons operation rest ih => exact ih (sound.call sparing.1) sparing.2

/-- What is stored can be read. -/
theorem Session.Sound.readable {session : Session} (sound : session.Sound models)
    {scopeDigest : Digest} {revisionId : RevisionIdentity}
    (stored : session.revisions (scopeDigest, revisionId) ≠ none) :
    ∃ document, RevisionReadsBack models session.store scopeDigest revisionId document := by
  obtain ⟨document, hdocument⟩ := Option.ne_none_iff_exists'.mp stored
  exact ⟨document, (sound.kept.revision_iff hdocument).mpr (sound.fits _ _ hdocument)⟩

theorem Session.Sound.needed_stored {session : Session} (sound : session.Sound models)
    {scopeDigest : Digest} {revisionId : RevisionIdentity}
    (needed : Needed session scopeDigest revisionId) :
    session.revisions (scopeDigest, revisionId) ≠ none := by
  cases needed with
  | active found =>
      obtain ⟨row, hrow⟩ := foreignKeys_active sound.keys found
      exact sound.recorded _ row hrow
  | parent needed found named =>
      obtain ⟨row, hrow⟩ := foreignKeys_parent sound.keys found named
      exact sound.recorded _ row hrow
  | source needed found named => exact sound.sources _ _ _ _ found named

/-- In every run whose steps spare the sources, all that an active revision needs is readable. -/
theorem needed_readable (calls : List (StoreCall models))
    (sparing : SparingFrom Session.empty calls) :
    ∀ scopeDigest revisionId, Needed (Session.run calls) scopeDigest revisionId →
      ∃ document, RevisionReadsBack models (Session.run calls).store scopeDigest revisionId
        document := by
  intro scopeDigest revisionId needed
  have sound : (Session.run calls).Sound models := sound_empty.run sparing
  exact sound.readable (sound.needed_stored needed)

/-- Neither store loses what an active revision needs, as long as retentions spare the sources. -/
theorem retention_keeps_needed (models : DocumentModels) (host : ConfigurationHost) :
    (∀ calls : List (StoreCall models), SparingFrom Session.empty calls →
      ∀ scopeDigest revisionId, Needed (Session.run calls) scopeDigest revisionId →
        ∃ document, RevisionReadsBack models (Session.run calls).store scopeDigest revisionId
          document) ∧
    ∀ events : List (AwsEvent host), CollisionFree (Creates events) →
      (awsService host).UndisturbedRun Sparing DeletesUnder events (Service.initial .empty) →
        ∀ world ∈ ((awsService host).run events (Service.initial .empty)).history,
          ∀ scopeDigest revisionId, Stores.Needed world scopeDigest revisionId →
            ∃ record, Process.exec Cloud.serve
              (AwsStore.readRevision host scopeDigest revisionId) world = (.ok record, world) :=
  ⟨needed_readable, Stores.needed_readable⟩

/-! ## A publication and a retention -/

/-- One digest for each length of text. -/
def lengthModels : DocumentModels :=
  { openModels with hashing := ⟨fun text => .ofNat text.utf8ByteSize⟩ }

def authored : TenantConfiguration := ⟨someDigest, .obj [], .obj []⟩

def authoredRevision : RevisionIdentity :=
  revisionIdentity lengthModels someDigest (.tenant authored) none

def plainBundle : StoredBundle where
  resources := .obj [("resources", .obj [])]
  services := .obj [("services", .obj [])]
  workflows := .obj []
  triggers := .obj [("triggers", .obj [])]
  tenantResolution := none

def resolution : TenantConfigurationResolution :=
  { meterResolution with tenantConfigurationRevisionId := authoredRevision }

def resolvedBundle : StoredDocument :=
  .bundle { plainBundle with tenantResolution := some resolution }

def resolvedRevision : RevisionIdentity :=
  revisionIdentity lengthModels someDigest resolvedBundle none

theorem authored_written : lengthModels.Written (.tenant authored) := by
  have dumped : authored.Dumped lengthModels := ⟨rfl, rfl⟩
  have accepted : lengthModels.validateTenant authored = .ok () := by decide +kernel
  refine .tenant (?_ : lengthModels.tenantOf authored.value = some authored)
  rw [DocumentModels.tenantOf_value dumped, if_pos accepted]

theorem resolvedBundle_written : lengthModels.Written resolvedBundle := by
  have dumped : plainBundle.Dumped lengthModels := ⟨rfl, rfl, rfl, rfl⟩
  have accepted : lengthModels.validateBundle plainBundle = .ok () := by decide
  refine .resolved resolution (?_ : lengthModels.bundleOf plainBundle.value = some plainBundle) rfl
  rw [DocumentModels.bundleOf_value dumped, if_pos accepted]

def createAuthored : StoreCall lengthModels :=
  .createRevision someDigest (.tenant authored) authored_written none
    (some ⟨2026, 8, 4, 10, 0, 0, 0⟩)

def createResolved : StoreCall lengthModels :=
  .createRevision someDigest resolvedBundle resolvedBundle_written none
    (some ⟨2026, 8, 4, 10, 0, 0, 1⟩)

def activateResolved : StoreCall lengthModels :=
  .compareAndSwapActive someDigest resolvedRevision none none

/-- A publication, its activation, and a retention that keeps some of the latest revisions. -/
def publication (keepLatest : Int) : List (StoreCall lengthModels) :=
  [createAuthored, createResolved, activateResolved, .retainRevisions someDigest keepLatest 100]

theorem needed_source {session : Session} {scopeDigest : Digest}
    {revisionId source : RevisionIdentity} {version : Int}
    (active : session.store.readActive scopeDigest = some ⟨scopeDigest, revisionId, version⟩)
    (named : (session.revisions (scopeDigest, revisionId)).bind sourceRevisionId = some source) :
    Needed session scopeDigest source := by
  obtain ⟨document, found, hsource⟩ := Option.bind_eq_some_iff.mp named
  exact .source (.active active) found hsource

theorem unreadable_of_absent {store : SqliteStore} {scopeDigest : Digest}
    {revisionId : RevisionIdentity}
    (absent : store.revisions.get? (scopeDigest, revisionId) = none) :
    ¬ ∃ document, RevisionReadsBack models store scopeDigest revisionId document := by
  rintro ⟨document, parent, createdAt, hread⟩
  rw [readRevision, absent] at hread
  cases hread

/-- What the publication does, evaluated: with one revision kept, and with two. -/
theorem publication_evaluated :
    ((Session.run (publication 1)).store.readActive someDigest =
          some ⟨someDigest, resolvedRevision, 1⟩ ∧
        ((Session.run (publication 1)).revisions (someDigest, resolvedRevision)).bind
          sourceRevisionId = some authoredRevision ∧
        (Session.run (publication 1)).store.revisions.get? (someDigest, authoredRevision) = none) ∧
      ((StoredDocument.tenant authored).Fits ∧ resolvedBundle.Fits) ∧
      ((Session.empty.call createAuthored).revisions
        (someDigest, authoredRevision)).isSome = true ∧
      selected (((Session.empty.call createAuthored).call createResolved).call
        activateResolved).store someDigest 2 100 = [] := by
  simp only [StoredDocument.Fits]
  decide +kernel

/-- Keeping one revision deletes the source that the active revision names. -/
theorem source_deleted :
    Needed (Session.run (publication 1)) someDigest authoredRevision ∧
      ¬ ∃ document, RevisionReadsBack lengthModels (Session.run (publication 1)).store someDigest
        authoredRevision document :=
  let ⟨⟨active, named, absent⟩, _⟩ := publication_evaluated
  ⟨needed_source active named, unreadable_of_absent absent⟩

theorem spares_create {session : Session} {scopeDigest : Digest} {document : StoredDocument}
    {written : models.Written document} {parent : Option RevisionIdentity}
    {reading : Option UtcTime} (fits : document.Fits)
    (named : ∀ source, sourceRevisionId document = some source →
      (session.revisions (scopeDigest, source)).isSome) :
    Spares session (.createRevision scopeDigest document written parent reading) :=
  ⟨fits, fun source hsource => Option.isSome_iff_ne_none.mp (named source hsource)⟩

/-- A retention that selects nothing spares everything. -/
theorem spares_retain {session : Session} {scopeDigest : Digest} {keepLatest deleteLimit : Int}
    (h : selected session.store scopeDigest keepLatest deleteLimit = []) :
    Spares session (.retainRevisions scopeDigest keepLatest deleteLimit : StoreCall models) := by
  intro revisionId document source _ _ hselected
  rw [h] at hselected
  exact absurd hselected List.not_mem_nil

theorem spares_activate {session : Session} {scopeDigest : Digest}
    {revisionId : RevisionIdentity} {expectedRevisionId : Option RevisionIdentity}
    {expectedVersion : Option Int} :
    Spares session (.compareAndSwapActive scopeDigest revisionId expectedRevisionId
      expectedVersion : StoreCall models) :=
  trivial

theorem sparing_four {session : Session} {first second third fourth : StoreCall models}
    (hfirst : Spares session first) (hsecond : Spares (session.call first) second)
    (hthird : Spares ((session.call first).call second) third)
    (hfourth : Spares (((session.call first).call second).call third) fourth) :
    SparingFrom session [first, second, third, fourth] :=
  ⟨hfirst, hsecond, hthird, hfourth, trivial⟩

theorem resolvedBundle_source : sourceRevisionId resolvedBundle = some authoredRevision := rfl

/-- Keeping two revisions spares it. -/
theorem publication_sparing : SparingFrom Session.empty (publication 2) := by
  obtain ⟨_, ⟨authoredFits, resolvedFits⟩, stored, spared⟩ := publication_evaluated
  have named : ∀ source, sourceRevisionId resolvedBundle = some source →
      ((Session.empty.call createAuthored).revisions (someDigest, source)).isSome = true := by
    intro source hsource
    rw [← Option.some.inj (resolvedBundle_source.symm.trans hsource)]
    exact stored
  exact sparing_four (spares_create authoredFits nofun) (spares_create resolvedFits named)
    spares_activate (spares_retain spared)

theorem retention_keeps_needed_publication :
    (∀ scopeDigest revisionId, Needed (Session.run (publication 2)) scopeDigest revisionId →
      ∃ document, RevisionReadsBack lengthModels (Session.run (publication 2)).store scopeDigest
        revisionId document) ∧
    ∃ record, Process.exec Cloud.serve
      (AwsStore.readRevision Stores.sampleHost Stores.sampleScope Stores.sampleRevision)
      activatedCloud = (.ok record, activatedCloud) :=
  ⟨(retention_keeps_needed lengthModels Stores.sampleHost).1 (publication 2) publication_sparing,
    (retention_keeps_needed lengthModels Stores.sampleHost).2 activation activation_collisionFree
      activation_sparing activatedCloud activation_reached Stores.sampleScope
      Stores.sampleRevision activation_needed⟩

end ReadBack

end Justflow
