import Justflow.Configuration.Dangling
import Justflow.Configuration.Operations
import Justflow.Configuration.ReadBack

/-!
# Tenant sources in the AWS store

The child counts keep a retention of the AWS store away from parents, and the condition on the
pointer keeps it away from the active revision; nothing keeps it away from the source that a
resolved bundle names.  In runs without the two races in which no source is deleted from under a
revision, everything that an active revision needs can be read (`needed_readable`).
-/

open Fields JsonValue Service Process

namespace Justflow.Stores

open AwsStore

variable {host : ConfigurationHost} {contents : RevisionContent host → Prop} {world : Cloud}

/-! ## Sources -/

/-- The tenant revision that a stored body says it was resolved from. -/
def sourceOf (body : JsonValue) : Option RevisionIdentity :=
  ((((body.field "bundle").bind (field · "tenant_resolution")).bind
    (field · "tenant_configuration_revision_id")).bind asStr).bind digestOf

/-- The source that the body of a revision names. -/
def Cloud.sourceOf (self : Cloud) (scopeDigest : Digest) (revisionId : RevisionIdentity) :
    Option RevisionIdentity :=
  (self.objects.get? (revisionBodyKey scopeDigest revisionId)).bind Stores.sourceOf

/-- Every registered revision has its source registered. -/
def Sourced (world : Cloud) : Prop :=
  ∀ scopeDigest revisionId source, Registered world.items scopeDigest revisionId →
    world.sourceOf scopeDigest revisionId = some source →
      Registered world.items scopeDigest source

/-- The write registers a revision beside its source, and unregisters no source of another. -/
def sparesWrite (world : Cloud) : DynamoOperation → Bool
  | .put ⟨scopeDigest, .revision revisionId⟩ item _ =>
      item.recordType ≠ .revision ∨ (world.sourceOf scopeDigest revisionId).all fun source =>
        Registered world.items scopeDigest source
  | .delete ⟨scopeDigest, .revision source⟩ _ =>
      world.items.entries.all fun entry =>
        match entry.1 with
        | ⟨scope, .revision revisionId⟩ =>
            scope ≠ scopeDigest ∨ revisionId = source ∨ entry.2.recordType ≠ .revision ∨
              world.sourceOf scope revisionId ≠ some source
        | _ => true
  | _ => true

/-- The request spares the sources of the revisions that are registered when it is served. -/
def Spares (world : Cloud) : AwsRequest → Prop
  | .putItem key item condition => sparesWrite world (.put key item condition) = true
  | .transactWriteItems operations => operations.all (sparesWrite world) = true
  | _ => True

instance (world : Cloud) (request : AwsRequest) : Decidable (Spares world request) :=
  match request with
  | .putItem _ _ _ => inferInstanceAs (Decidable (_ = true))
  | .transactWriteItems _ => inferInstanceAs (Decidable (_ = true))
  | .getObject _ | .putObject _ _ | .deleteObject _ | .getItem _ | .deleteItem _ _
  | .query _ _ _ => isTrue trivial

/-! ## Each request keeps the sources -/

/-- Writes that register and unregister nothing keep the sources. -/
theorem Sourced.congr {items : Items} (sourced : Sourced world)
    (same : ∀ scopeDigest revisionId, Registered items scopeDigest revisionId ↔
      Registered world.items scopeDigest revisionId) : Sourced { world with items } := by
  intro scopeDigest revisionId source registered named
  exact (same _ _).mpr (sourced scopeDigest revisionId source ((same _ _).mp registered) named)

theorem sourced_writeItems {next : Option Items} (sourced : Sourced world)
    (h : ∀ items, next = some items → Sourced { world with items }) :
    Sourced (world.writeItems next).2 := by
  cases next with
  | none => exact sourced
  | some items => exact h items rfl

theorem registered_addChildren {items : Items} {key : ItemKey} {item : MetadataItem}
    (found : items.get? key = some item) (delta : Int) (scopeDigest : Digest)
    (revisionId : RevisionIdentity) :
    Registered (items.insert key (item.addChildren delta)) scopeDigest revisionId ↔
      Registered items scopeDigest revisionId := by
  by_cases hkey : revisionKey scopeDigest revisionId = key
  · subst hkey
    constructor
    · rintro ⟨stored, hstored, htype⟩
      rw [Table.get?_insert_self] at hstored
      cases hstored
      exact ⟨item, found, htype⟩
    · rintro ⟨stored, hstored, htype⟩
      rw [found] at hstored
      cases hstored
      exact ⟨_, Table.get?_insert_self _ _ _, htype⟩
  · exact registered_insert_ne hkey

/-- A registration whose source is registered. -/
theorem Sourced.register (sourced : Sourced world) {items : Items} {scopeDigest : Digest}
    {revisionId : RevisionIdentity} {item : MetadataItem} (htype : item.recordType = .revision)
    (same : ∀ scope revision, Registered items scope revision ↔
      Registered world.items scope revision)
    (spares : ∀ source, world.sourceOf scopeDigest revisionId = some source →
      Registered world.items scopeDigest source) :
    Sourced { world with items := items.insert (revisionKey scopeDigest revisionId) item } := by
  intro scope revision source registered named
  apply registered_insert item htype
  by_cases hkey : revisionKey scope revision = revisionKey scopeDigest revisionId
  · obtain ⟨rfl, rfl⟩ := revisionKey_inj.mp hkey
    exact (same _ _).mpr (spares source named)
  · rw [registered_insert_ne hkey, same] at registered
    exact (same _ _).mpr (sourced scope revision source registered named)

/-- A revision that no other names can go. -/
theorem Sourced.unregister (sourced : Sourced world) {scopeDigest : Digest}
    {revisionId : RevisionIdentity}
    (spares : ∀ revision, revision ≠ revisionId → Registered world.items scopeDigest revision →
      world.sourceOf scopeDigest revision ≠ some revisionId) :
    Sourced { world with items := world.items.erase (revisionKey scopeDigest revisionId) } := by
  intro scope revision source registered named
  have hself : ∀ {other}, Registered (world.items.erase (revisionKey scopeDigest revisionId)) scope
      other → revisionKey scope other ≠ revisionKey scopeDigest revisionId := by
    rintro other ⟨item, found, _⟩ hkey
    rw [hkey, Table.get?_erase_self] at found
    cases found
  have hkept : ∀ {other}, revisionKey scope other ≠ revisionKey scopeDigest revisionId →
      (Registered (world.items.erase (revisionKey scopeDigest revisionId)) scope other ↔
        Registered world.items scope other) := by
    intro other hkey
    simp [Registered, Table.get?_erase_ne _ hkey]
  have hrevision := hself registered
  have hregistered := (hkept hrevision).mp registered
  have hsource : revisionKey scope source ≠ revisionKey scopeDigest revisionId := by
    intro hkey
    obtain ⟨rfl, rfl⟩ := revisionKey_inj.mp hkey
    have hne : revision ≠ source := fun heq => hrevision (heq ▸ rfl)
    exact spares revision hne hregistered named
  exact (hkept hsource).mpr (sourced scope revision source hregistered named)

/-- Bodies of registered revisions are not written. -/
theorem Sourced.putObject (sourced : Sourced world) (whole : Whole contents world)
    {key : ObjectKey} (fresh : world.objects.get? key = none) (body : JsonValue) :
    Sourced { world with objects := world.objects.insert key body } := by
  intro scopeDigest revisionId source registered named
  obtain ⟨item, found, htype⟩ := registered
  obtain ⟨content, _, _, rfl, rfl, stored, _⟩ := whole.revisions _ _ _ found htype
  have hne : revisionBodyKey content.scopeDigest content.identity ≠ key := by
    rintro rfl
    rw [BodyStored, fresh] at stored
    cases stored
  rw [Cloud.sourceOf, Table.get?_insert_ne _ hne] at named
  exact sourced _ _ source ⟨item, found, htype⟩ named

theorem Sourced.deleteObject (sourced : Sourced world) {scopeDigest : Digest}
    {revisionId : RevisionIdentity} (absent : ¬ Registered world.items scopeDigest revisionId) :
    Sourced { world with
      objects := world.objects.erase (revisionBodyKey scopeDigest revisionId) } := by
  intro scope revision source registered named
  have hne : revisionBodyKey scope revision ≠ revisionBodyKey scopeDigest revisionId := by
    intro heq
    obtain ⟨rfl, rfl⟩ : scope = scopeDigest ∧ revision = revisionId := by
      simpa [revisionBodyKey] using heq
    exact absent registered
  rw [Cloud.sourceOf, Table.get?_erase_ne _ hne] at named
  exact sourced scope revision source registered named

theorem sparesWrite_put {scopeDigest : Digest} {revisionId : RevisionIdentity}
    {item : MetadataItem} {condition : DynamoCondition} (htype : item.recordType = .revision)
    (h : sparesWrite world (.put (revisionKey scopeDigest revisionId) item condition) = true)
    {source : RevisionIdentity} (named : world.sourceOf scopeDigest revisionId = some source) :
    Registered world.items scopeDigest source := by
  simpa [sparesWrite, revisionKey, htype, named] using h

theorem sparesWrite_delete {scopeDigest : Digest} {source : RevisionIdentity}
    {condition : DynamoCondition}
    (h : sparesWrite world (.delete (revisionKey scopeDigest source) condition) = true)
    {revisionId : RevisionIdentity} (hne : revisionId ≠ source)
    (registered : Registered world.items scopeDigest revisionId) :
    world.sourceOf scopeDigest revisionId ≠ some source := by
  obtain ⟨item, found, htype⟩ := registered
  simp only [sparesWrite, revisionKey, List.all_eq_true] at h
  simpa [revisionKey, hne, htype] using h _ (Table.mem_entries_iff.mpr found)

theorem Sourced.transactDelete (sourced : Sourced world)
    {content : RevisionContent host} {items : Items}
    (spares : (deleteOperations content.scopeDigest content.identity content.parent).all
      (sparesWrite world) = true)
    (h : (deleteOperations content.scopeDigest content.identity content.parent).foldlM
      DynamoOperation.write world.items = some items) : Sourced { world with items } := by
  obtain ⟨middle, hcheck, h⟩ := transact_cons h
  obtain ⟨last, hdelete, h⟩ := transact_cons h
  obtain ⟨_, rfl⟩ := write_conditionCheck hcheck
  obtain ⟨_, rfl⟩ := write_delete hdelete
  simp only [deleteOperations, List.all_append, List.all_cons, Bool.and_eq_true] at spares
  have gone := sourced.unregister fun revision hne registered =>
    sparesWrite_delete spares.1.2.1 hne registered
  cases hparent : content.parent with
  | none =>
      rw [hparent] at h
      cases h
      exact gone
  | some parent =>
      rw [hparent] at h
      obtain ⟨counted, hcount, h⟩ := transact_cons h
      obtain ⟨item, found, _, rfl⟩ := write_addChildren hcount
      cases h
      exact gone.congr fun _ _ => registered_addChildren found _ _ _

theorem sourced_serve {request : AwsRequest} (whole : Whole contents world)
    (sourced : Sourced world) (unregistered : Unregistered world request)
    (spares : Spares world request) (ready : Ready contents world request) :
    Sourced (world.serve request).2 := by
  cases ready with
  | getObject key =>
      simp only [Cloud.serve]
      split <;> exact sourced
  | getItem key => exact sourced
  | query scopeDigest limit start => exact sourced
  | putObject key body =>
      simp only [Cloud.serve]
      split
      · exact sourced
      · next fresh => exact sourced.putObject whole fresh body
  | deleteBody scopeDigest revisionId => exact sourced.deleteObject (unregistered rfl)
  | putDraft scopeDigest version bodyKey condition =>
      apply sourced_writeItems sourced
      intro items hitems
      obtain ⟨_, rfl⟩ := write_put hitems
      exact sourced.congr fun _ _ => registered_insert_ne (revisionKey_ne_draftKey _ _ _)
  | registerRoot content createdAt known root stored =>
      apply sourced_writeItems sourced
      intro items hitems
      obtain ⟨_, rfl⟩ := write_put hitems
      exact sourced.register rfl (fun _ _ => Iff.rfl) fun _ => sparesWrite_put rfl spares
  | registerChild content createdAt parent known child stored =>
      apply sourced_writeItems sourced
      intro items hitems
      obtain ⟨middle, hadd, h⟩ := transact_cons hitems
      obtain ⟨last, hput, h⟩ := transact_cons h
      obtain ⟨item, found, _, rfl⟩ := write_addChildren hadd
      obtain ⟨_, rfl⟩ := write_put hput
      cases h
      simp only [Spares, createChildOperations, List.all_cons, Bool.and_eq_true] at spares
      exact sourced.register rfl (registered_addChildren found _) fun _ =>
        sparesWrite_put rfl spares.2.1
  | activate scopeDigest revisionId version expectedRevisionId expectedVersion =>
      apply sourced_writeItems sourced
      intro items hitems
      obtain ⟨middle, hcheck, h⟩ := transact_cons hitems
      obtain ⟨last, hput, h⟩ := transact_cons h
      obtain ⟨_, rfl⟩ := write_conditionCheck hcheck
      obtain ⟨_, rfl⟩ := write_put hput
      cases h
      exact sourced.congr fun _ _ => registered_insert_ne (revisionKey_ne_activeKey _ _ _)
  | mark scopeDigest revisionId =>
      apply sourced_writeItems sourced
      intro items hitems
      obtain ⟨middle, hcheck, h⟩ := transact_cons hitems
      obtain ⟨last, hput, h⟩ := transact_cons h
      obtain ⟨_, rfl⟩ := write_conditionCheck hcheck
      obtain ⟨fresh, rfl⟩ := write_put hput
      cases h
      refine sourced.congr fun _ _ => registered_insert_of_ne (by simp [MetadataItem.cleanup]) ?_
      intro old found
      rw [notExists_holds.mp fresh] at found
      cases found
  | unregister content known =>
      apply sourced_writeItems sourced
      intro items hitems
      exact sourced.transactDelete spares hitems
  | unmark scopeDigest revisionId =>
      apply sourced_writeItems sourced
      intro items hitems
      obtain ⟨holds, rfl⟩ := write_delete hitems
      obtain ⟨marker, found, htype⟩ := isCleanup_holds.mp holds
      refine sourced.congr fun _ _ => registered_erase_of_ne ?_
      intro old hold
      rw [found] at hold
      cases hold
      rw [htype]
      rintro ⟨⟩

/-! ## Runs -/

/-- What a run without races that spares the sources keeps. -/
def Supported (contents : RevisionContent host → Prop) (world : Cloud) : Prop :=
  Whole contents world ∧ Sourced world

/-- A request in a run of this kind is served while nothing that it endangers is registered. -/
def Sparing (world : Cloud) (request : AwsRequest) : Prop :=
  Unregistered world request ∧ Spares world request

instance (world : Cloud) (request : AwsRequest) : Decidable (Sparing world request) :=
  inferInstanceAs (Decidable (_ ∧ _))

theorem sourced_respond {request : AwsRequest} (whole : Whole contents world)
    (sourced : Sourced world) (unregistered : Unregistered world request)
    (spares : Spares world request) (ready : Ready contents world request)
    (disturbance : Cloud.Disturbance) : Sourced (world.respond disturbance request).2 := by
  cases disturbance with
  | none => exact sourced_serve whole sourced unregistered spares ready
  | lost => exact sourced
  | unanswered => exact sourced_serve whole sourced unregistered spares ready

theorem supported_run (events : List (AwsEvent host))
    (collisionFree : CollisionFree (Creates events))
    (sparing : (awsService host).UndisturbedRun Sparing DeletesUnder events (initial .empty)) :
    ∀ world ∈ ((awsService host).run events (initial .empty)).history,
      Supported (Creates events) world := by
  have calm : (awsService host).Calm (Supported (Creates events)) Sparing (Ready (Creates events))
      (initial .empty) := by
    refine calm_initial ⟨intact_empty, ?_⟩
    rintro scopeDigest revisionId source ⟨item, found, _⟩
    cases found
  refine (invariant_of_undisturbed ?_ ?_ ?_ calm sparing).invariant
  · intro client call hstart world _
    have known : ∀ content, call.content = some content → Creates events content :=
      fun content hcontent => ⟨client, call, hstart, hcontent⟩
    have attends : Attends (Creates events) anything call.program world :=
      program_attends collisionFree call known
    apply Careful.strengthen (attends.careful.mono fun _ _ _ => trivial)
    intro later request disturbance whole sourced unregistered spares ready
    exact sourced_respond whole sourced unregistered spares ready disturbance
  · intro disturbance world request waits _ _ ready apart
    exact ready_respond ready apart disturbance
  · exact fun change => nomatch change

/-! ## What an active revision needs -/

/-- The active revision of a scope and what it rests on. -/
inductive Needed (world : Cloud) (scopeDigest : Digest) : RevisionIdentity → Prop where
  | active {item : MetadataItem} {revisionId : RevisionIdentity}
      (found : world.items.get? (activeKey scopeDigest) = some item)
      (named : item.revisionId = some revisionId) : Needed world scopeDigest revisionId
  | parent {revisionId parent : RevisionIdentity} {item : MetadataItem}
      (needed : Needed world scopeDigest revisionId)
      (found : world.items.get? (revisionKey scopeDigest revisionId) = some item)
      (named : item.parentRevisionId = some parent) : Needed world scopeDigest parent
  | source {revisionId source : RevisionIdentity} (needed : Needed world scopeDigest revisionId)
      (named : world.sourceOf scopeDigest revisionId = some source) :
      Needed world scopeDigest source

theorem needed_registered (supported : Supported contents world) {scopeDigest : Digest}
    {revisionId : RevisionIdentity} (needed : Needed world scopeDigest revisionId) :
    Registered world.items scopeDigest revisionId := by
  obtain ⟨whole, sourced⟩ := supported
  induction needed with
  | active found named =>
      obtain ⟨revisionId, version, rfl, registered⟩ := whole.active _ _ found
      cases named
      exact registered
  | parent needed found named ih =>
      obtain ⟨item, hitem, htype⟩ := ih
      rw [found] at hitem
      cases hitem
      exact whole.parents _ _ _ _ found htype named
  | source needed named ih => exact sourced _ _ _ ih named

/-- A registered revision can be read. -/
theorem exec_readRevision (whole : Whole contents world) {scopeDigest : Digest}
    {revisionId : RevisionIdentity} (registered : Registered world.items scopeDigest revisionId) :
    ∃ record, exec Cloud.serve (readRevision host scopeDigest revisionId) world =
      (.ok record, world) := by
  obtain ⟨item, found, htype⟩ := registered
  obtain ⟨content, createdAt, _, rfl, rfl, stored, rfl⟩ := whole.revisions _ _ _ found htype
  have hread : exec Cloud.serve (readBundle host content.scopeDigest
      (revisionBodyKey content.scopeDigest content.identity)) world = (.ok content.bundle, world) :=
    exec_readBundle rfl stored nofun
  have hrevision : ∀ count, stringOf (content.item createdAt count).revisionId =
      .ok content.identity := fun _ => rfl
  have hbody : ∀ count, stringOf (content.item createdAt count).bodyKey =
      .ok (revisionBodyKey content.scopeDigest content.identity) := fun _ => rfl
  have hparent : ∀ count, (content.item createdAt count).parentRevisionId = content.parent :=
    fun _ => rfl
  have hidentity : ¬ configurationRevisionIdentity content.scopeDigest content.bundle
      content.parent ≠ content.identity := not_not_intro rfl
  rw [readRevision, exec_bind_ok (exec_getMetadata _), found]
  simp only
  rw [exec_bind_ok (exec_lift (requireRecord_item _ _ _)), exec_bind_ok (exec_lift (hrevision _)),
    if_neg (not_not_intro rfl), exec_bind_ok (exec_lift (hbody _)), exec_bind_ok hread, hparent,
    if_neg hidentity]
  exact ⟨_, rfl⟩

/-- In runs without the two races in which the sources are spared, all that an active revision
needs can be read. -/
theorem needed_readable (events : List (AwsEvent host))
    (collisionFree : CollisionFree (Creates events))
    (sparing : (awsService host).UndisturbedRun Sparing DeletesUnder events (initial .empty)) :
    ∀ world ∈ ((awsService host).run events (initial .empty)).history,
      ∀ scopeDigest revisionId, Needed world scopeDigest revisionId →
        ∃ record, exec Cloud.serve (readRevision host scopeDigest revisionId) world =
          (.ok record, world) := by
  intro world hworld scopeDigest revisionId needed
  have supported := supported_run events collisionFree sparing world hworld
  exact exec_readRevision supported.1 (needed_registered supported needed)

/-! ## An activation -/

/-- A revision is created and activated in the AWS store. -/
def activation : List (AwsEvent sampleHost) :=
  .start 0 createSample :: serves 0 2 ++
    .start 1 (.compareAndSwapActive sampleScope sampleRevision none none) :: serves 1 4

def activatedCloud : Cloud :=
  ((awsService sampleHost).run activation (initial .empty)).world

theorem activation_reached :
    activatedCloud ∈ ((awsService sampleHost).run activation (initial .empty)).history :=
  List.mem_cons_self

theorem activation_active : activatedCloud.items.get? (activeKey sampleScope) =
    some (.active sampleScope sampleRevision 1) := by
  decide +kernel

theorem activation_collisionFree : CollisionFree (Creates activation) := by
  have only : ∀ content, Creates activation content →
      content = ⟨sampleScope, emptyBundle, none⟩ := by
    rintro content ⟨client, call, hstart, hcontent⟩
    simp only [activation, serves, List.replicate, List.cons_append, List.nil_append,
      List.mem_cons, Event.start.injEq, reduceCtorEq, List.not_mem_nil, or_false,
      false_or] at hstart
    rcases hstart with ⟨_, rfl⟩ | ⟨_, rfl⟩
    · exact (Option.some.inj hcontent).symm
    · cases hcontent
  intro first second hfirst hsecond _
  rw [only first hfirst, only second hsecond]

theorem activation_sparing :
    (awsService sampleHost).UndisturbedRun Sparing DeletesUnder activation
      (initial .empty) := by
  decide +kernel

theorem activation_needed : Needed activatedCloud sampleScope sampleRevision :=
  .active activation_active rfl

end Justflow.Stores
