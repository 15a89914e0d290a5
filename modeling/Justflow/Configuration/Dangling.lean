import Justflow.Configuration.Transactions
import Justflow.Library.Interference

/-!
# No dangling revision

Any number of clients use one AWS store, and any of them may stop between two requests.  The
cleanup marker keeps a creation from registering a revision while its body is being deleted, but
a body can be deleted after a creation has found it and before the creation registers it, or
after the marker that allowed the deletion has been released.  Runs without these two races keep
every registered revision whole (`never_dangling`), and the first race does lose a body
(`body_lost`).
-/

open Fields JsonValue Service

namespace Justflow.Stores

open AwsStore

variable {host : ConfigurationHost}

/-! ## Clients -/

inductive AwsCall (host : ConfigurationHost) where
  | readDraft (scopeDigest : Digest)
  | compareAndSwapDraft (scopeDigest : Digest) (bundle : ConfigurationDocument host)
      (expectedVersion : Option Int)
  | createRevision (scopeDigest : Digest) (bundle : ConfigurationDocument host)
      (parent : Option RevisionIdentity) (reading : Option UtcTime)
  | readRevision (scopeDigest : Digest) (revisionId : RevisionIdentity)
  | listRevisions (scopeDigest : Digest) (limit : Int) (cursor : Option (ScopeCursor IndexKey))
  | readActive (scopeDigest : Digest)
  | compareAndSwapActive (scopeDigest : Digest) (revisionId : RevisionIdentity)
      (expectedRevisionId : Option RevisionIdentity) (expectedVersion : Option Int)
  | retainRevisions (scopeDigest : Digest) (keepLatest deleteLimit : Int)
  | cleanupOrphanedRevisionBody (scopeDigest : Digest) (revisionId : RevisionIdentity)

/-- Run a process for its effects. -/
def discarded {α : Type} (process : AwsProcess α) : AwsProcess Unit :=
  process >>= fun _ => .done ()

def AwsCall.program : AwsCall host → AwsProcess Unit
  | .readDraft scopeDigest => discarded (AwsStore.readDraft host scopeDigest)
  | .compareAndSwapDraft scopeDigest bundle expectedVersion =>
      discarded (AwsStore.compareAndSwapDraft scopeDigest bundle expectedVersion)
  | .createRevision scopeDigest bundle parent reading =>
      discarded (AwsStore.createRevision scopeDigest bundle parent reading)
  | .readRevision scopeDigest revisionId =>
      discarded (AwsStore.readRevision host scopeDigest revisionId)
  | .listRevisions scopeDigest limit cursor =>
      discarded (AwsStore.listRevisions scopeDigest limit cursor)
  | .readActive scopeDigest => discarded (AwsStore.readActive scopeDigest)
  | .compareAndSwapActive scopeDigest revisionId expectedRevisionId expectedVersion =>
      discarded (AwsStore.compareAndSwapActive host scopeDigest revisionId expectedRevisionId
        expectedVersion)
  | .retainRevisions scopeDigest keepLatest deleteLimit =>
      discarded (AwsStore.retainRevisions scopeDigest keepLatest deleteLimit)
  | .cleanupOrphanedRevisionBody scopeDigest revisionId =>
      discarded (AwsStore.cleanupOrphanedRevisionBody scopeDigest revisionId)

/-- Clients of one store; nothing but their requests changes it. -/
def awsService (host : ConfigurationHost) :
    Service AwsReply AwsFailure Unit Cloud Cloud.Disturbance Nat (AwsCall host) Empty where
  respond := Cloud.respond
  program := fun _ call => call.program
  elapse := fun change => nomatch change

abbrev AwsEvent (host : ConfigurationHost) := Event Cloud.Disturbance Nat (AwsCall host) Empty

/-- The content that a call creates. -/
def AwsCall.content : AwsCall host → Option (RevisionContent host)
  | .createRevision scopeDigest bundle parent _ => some ⟨scopeDigest, bundle, parent⟩
  | _ => none

/-! ## The property -/

structure NeverDangling (host : ConfigurationHost) (world : Cloud) : Prop where
  bodies : ∀ scopeDigest revisionId item,
    world.items.get? (revisionKey scopeDigest revisionId) = some item →
      item.recordType = .revision → ∃ bundle : ConfigurationDocument host,
        world.objects.get? (revisionBodyKey scopeDigest revisionId) =
            some (envelopeValue scopeDigest bundle) ∧
          configurationRevisionIdentity scopeDigest bundle item.parentRevisionId = revisionId
  counts : ∀ scopeDigest revisionId item,
    world.items.get? (revisionKey scopeDigest revisionId) = some item →
      item.recordType = .revision →
        item.childReferenceCount = some (children world.items scopeDigest revisionId : Int)
  parents : ∀ scopeDigest revisionId item parent,
    world.items.get? (revisionKey scopeDigest revisionId) = some item →
      item.recordType = .revision → item.parentRevisionId = some parent →
        Registered world.items scopeDigest parent
  active : ∀ scopeDigest item, world.items.get? (activeKey scopeDigest) = some item →
    ∃ revisionId, item.revisionId = some revisionId ∧
      Registered world.items scopeDigest revisionId

/-- A body of a revision is deleted only while the revision is not registered. -/
def Unregistered (world : Cloud) : AwsRequest → Prop
  | .deleteObject key =>
      key.kind = .revisions → ¬ Registered world.items key.scopeDigest key.digest
  | _ => True

instance (world : Cloud) (request : AwsRequest) : Decidable (Unregistered world request) :=
  match request with
  | .deleteObject _ => inferInstanceAs (Decidable (_ = _ → ¬ _))
  | .getObject _ | .putObject _ _ | .getItem _ | .putItem _ _ _ | .deleteItem _ _
  | .transactWriteItems _ | .query _ _ _ => isTrue trivial

/-- The request registers a revision over this body. -/
def registers (key : ObjectKey) : AwsRequest → Bool
  | .putItem _ item _ => item.recordType = .revision ∧ item.bodyKey = some key
  | .transactWriteItems operations => operations.any fun
      | .put _ item _ => item.recordType = .revision ∧ item.bodyKey = some key
      | _ => false
  | _ => false

/-- The first request deletes the body that the second registers a revision over. -/
def DeletesUnder : AwsRequest → AwsRequest → Prop
  | .deleteObject key, waits => registers key waits
  | _, _ => False

instance : DecidableRel DeletesUnder := fun request waits =>
  match request with
  | .deleteObject key => inferInstanceAs (Decidable (registers key waits = true))
  | .getObject _ | .putObject _ _ | .getItem _ | .putItem _ _ _ | .deleteItem _ _
  | .transactWriteItems _ | .query _ _ _ => isFalse id

/-! ## What each request needs -/

variable (contents : RevisionContent host → Prop)

/-- The requests that the store makes, each with what holds when it waits. -/
inductive Ready (world : Cloud) : AwsRequest → Prop where
  | getObject (key : ObjectKey) : Ready world (.getObject key)
  | putObject (key : ObjectKey) (body : JsonValue) : Ready world (.putObject key body)
  | deleteBody (scopeDigest : Digest) (revisionId : RevisionIdentity) :
      Ready world (.deleteObject (revisionBodyKey scopeDigest revisionId))
  | getItem (key : ItemKey) : Ready world (.getItem key)
  | query (scopeDigest : Digest) (limit : Nat) (start : Option IndexKey) :
      Ready world (.query scopeDigest limit start)
  | putDraft (scopeDigest : Digest) (version : Int) (bodyKey : ObjectKey)
      (condition : DynamoCondition) :
      Ready world (.putItem (draftKey scopeDigest) (.draft scopeDigest version bodyKey) condition)
  | registerRoot (content : RevisionContent host) (createdAt : UtcTime)
      (known : contents content) (root : content.parent = none)
      (stored : BodyStored world.objects content) :
      Ready world (.putItem (revisionKey content.scopeDigest content.identity)
        (content.item createdAt 0) .notExists)
  | registerChild (content : RevisionContent host) (createdAt : UtcTime)
      (parent : RevisionIdentity) (known : contents content) (child : content.parent = some parent)
      (stored : BodyStored world.objects content) :
      Ready world (.transactWriteItems (createChildOperations content.scopeDigest
        (content.item createdAt 0) content.identity parent))
  | activate (scopeDigest : Digest) (revisionId : RevisionIdentity) (version : Int)
      (expectedRevisionId : Option RevisionIdentity) (expectedVersion : Option Int) :
      Ready world (.transactWriteItems (activateOperations scopeDigest revisionId version
        expectedRevisionId expectedVersion))
  | mark (scopeDigest : Digest) (revisionId : RevisionIdentity) :
      Ready world (.transactWriteItems (markOperations scopeDigest revisionId))
  | unregister (content : RevisionContent host) (known : contents content) :
      Ready world (.transactWriteItems (deleteOperations content.scopeDigest content.identity
        content.parent))
  | unmark (scopeDigest : Digest) (revisionId : RevisionIdentity) :
      Ready world (.deleteItem (revisionKey scopeDigest revisionId) .isCleanup)

variable {contents}

/-! ## Each request keeps revisions whole -/

variable {world : Cloud}

theorem whole_writeItems {next : Option Items} (whole : Whole contents world)
    (h : ∀ items, next = some items → Intact contents debtless world.objects items) :
    Whole contents (world.writeItems next).2 := by
  cases next with
  | none => exact whole
  | some items => exact h items rfl

/-- Served, a request keeps every revision whole. -/
theorem whole_serve (collisionFree : CollisionFree contents) {request : AwsRequest}
    (whole : Whole contents world) (unregistered : Unregistered world request)
    (ready : Ready contents world request) : Whole contents (world.serve request).2 := by
  cases ready with
  | getObject key =>
      simp only [Cloud.serve]
      split <;> exact whole
  | putObject key body =>
      simp only [Cloud.serve]
      split
      · exact whole
      · next fresh => exact Intact.putObject whole fresh body
  | deleteBody scopeDigest revisionId => exact Intact.deleteObject whole (unregistered rfl)
  | getItem key => exact whole
  | query scopeDigest limit start => exact whole
  | putDraft scopeDigest version bodyKey condition =>
      apply whole_writeItems whole
      intro items hitems
      obtain ⟨_, rfl⟩ := write_put hitems
      exact Intact.putDraft whole version bodyKey
  | registerRoot content createdAt known root stored =>
      exact whole_writeItems whole fun items => Intact.registeredRoot whole known root stored createdAt
  | registerChild content createdAt parent known child stored =>
      exact whole_writeItems whole fun items =>
        Intact.registeredChild whole known child stored createdAt
  | activate scopeDigest revisionId version expectedRevisionId expectedVersion =>
      exact whole_writeItems whole fun items => Intact.activated whole
  | mark scopeDigest revisionId => exact whole_writeItems whole fun items => Intact.marked whole
  | unregister content known =>
      exact whole_writeItems whole fun items => Intact.unregistered whole collisionFree known
  | unmark scopeDigest revisionId => exact whole_writeItems whole fun items => Intact.unmarked whole

theorem whole_respond (collisionFree : CollisionFree contents) {request : AwsRequest}
    (whole : Whole contents world) (unregistered : Unregistered world request)
    (ready : Ready contents world request) (disturbance : Cloud.Disturbance) :
    Whole contents (world.respond disturbance request).2 := by
  cases disturbance with
  | none => exact whole_serve collisionFree whole unregistered ready
  | lost => exact whole
  | unanswered => exact whole_serve collisionFree whole unregistered ready

/-- A stored body stays unless it is deleted. -/
theorem bodyStored_serve {request : AwsRequest} {content : RevisionContent host}
    (stored : BodyStored world.objects content)
    (kept : request ≠ .deleteObject (revisionBodyKey content.scopeDigest content.identity)) :
    BodyStored (world.serve request).2.objects content := by
  cases request with
  | putObject key body =>
      simp only [Cloud.serve]
      split
      · exact stored
      · next fresh =>
          have hne : revisionBodyKey content.scopeDigest content.identity ≠ key := by
            rintro rfl
            rw [BodyStored, fresh] at stored
            cases stored
          rw [BodyStored, Table.get?_insert_ne _ hne]
          exact stored
  | deleteObject key =>
      have hne : revisionBodyKey content.scopeDigest content.identity ≠ key := by
        rintro rfl
        exact kept rfl
      simp only [Cloud.serve]
      rw [BodyStored, Table.get?_erase_ne _ hne]
      exact stored
  | getObject key =>
      simp only [Cloud.serve]
      split <;> exact stored
  | getItem key => exact stored
  | query scopeDigest limit start => exact stored
  | putItem key item condition =>
      simp only [Cloud.serve, Cloud.writeItems]
      split <;> exact stored
  | deleteItem key condition =>
      simp only [Cloud.serve, Cloud.writeItems]
      split <;> exact stored
  | transactWriteItems operations =>
      simp only [Cloud.serve, Cloud.writeItems]
      split <;> exact stored

/-- A waiting request stays ready, unless the body that it registers is deleted. -/
theorem ready_respond {request waits : AwsRequest} (ready : Ready contents world waits)
    (apart : ¬ DeletesUnder request waits) (disturbance : Cloud.Disturbance) :
    Ready contents (world.respond disturbance request).2 waits := by
  have kept : ∀ content : RevisionContent host,
      registers (revisionBodyKey content.scopeDigest content.identity) waits = true →
        BodyStored world.objects content →
          BodyStored (world.respond disturbance request).2.objects content := by
    intro content hregisters stored
    have hne : request ≠ .deleteObject (revisionBodyKey content.scopeDigest content.identity) := by
      rintro rfl
      exact apart hregisters
    cases disturbance with
    | none => exact bodyStored_serve stored hne
    | lost => exact stored
    | unanswered => exact bodyStored_serve stored hne
  cases ready with
  | getObject key => exact .getObject key
  | putObject key body => exact .putObject key body
  | deleteBody scopeDigest revisionId => exact .deleteBody scopeDigest revisionId
  | getItem key => exact .getItem key
  | query scopeDigest limit start => exact .query scopeDigest limit start
  | putDraft scopeDigest version bodyKey condition =>
      exact .putDraft scopeDigest version bodyKey condition
  | registerRoot content createdAt known root stored =>
      refine .registerRoot content createdAt known root (kept content ?_ stored)
      simp [registers, RevisionContent.item, MetadataItem.revision]
  | registerChild content createdAt parent known child stored =>
      refine .registerChild content createdAt parent known child (kept content ?_ stored)
      simp [registers, createChildOperations, RevisionContent.item, MetadataItem.revision]
  | activate scopeDigest revisionId version expectedRevisionId expectedVersion =>
      exact .activate scopeDigest revisionId version expectedRevisionId expectedVersion
  | mark scopeDigest revisionId => exact .mark scopeDigest revisionId
  | unregister content known => exact .unregister content known
  | unmark scopeDigest revisionId => exact .unmark scopeDigest revisionId

/-! ## The judgement about the programs -/

variable (contents) in
/-- The process keeps revisions whole, and a value that it returns has the property. -/
structure Attends {α : Type} (Q : α → Cloud → Prop) (process : AwsProcess α) (world : Cloud) :
    Prop where
  careful : Careful Cloud.respond (Whole contents) Unregistered (Ready contents)
    (fun result later => ∀ value, result = .ok value → Q value later) process world

/-- No property of the value. -/
def anything {α : Type} : α → Cloud → Prop := fun _ _ => True

namespace Attends

variable {α β : Type} {Q : α → Cloud → Prop} {R : β → Cloud → Prop}

theorem done {value : α} (h : Q value world) : Attends contents Q (.done value) world := by
  constructor
  rintro _ ⟨⟩
  exact h

theorem fail {failure : AwsFailure} : Attends contents Q (.fail failure) world := ⟨nofun⟩

theorem raise {error : ConfigurationError} :
    Attends contents Q (AwsStore.raise error) world := ⟨nofun⟩

theorem bind {process : AwsProcess α} {next : α → AwsProcess β}
    (h : Attends contents Q process world)
    (hnext : ∀ value later, Q value later → Attends contents R (next value) later) :
    Attends contents R (process >>= next) world :=
  ⟨Careful.bind h.careful (fun value later post => (hnext value later (post value rfl)).careful)
    (fun _ _ _ => nofun)⟩

theorem rescue {process : AwsProcess α} {handler : AwsFailure → AwsProcess α}
    (h : Attends contents Q process world)
    (hhandler : ∀ failure later, Attends contents Q (handler failure) later) :
    Attends contents Q (tryCatch process handler) world :=
  ⟨Careful.rescue h.careful (fun _ _ post => post)
    fun failure later _ => (hhandler failure later).careful⟩

theorem ite {condition : Prop} [Decidable condition] {first second : AwsProcess α}
    (hfirst : condition → Attends contents Q first world)
    (hsecond : ¬ condition → Attends contents Q second world) :
    Attends contents Q (if condition then first else second) world := by
  split
  · next h => exact hfirst h
  · next h => exact hsecond h

theorem lift {result : Except ConfigurationError α}
    (h : ∀ value, result = .ok value → Q value world) :
    Attends contents Q (AwsStore.lift result) world := by
  cases result with
  | ok value => exact done (h value rfl)
  | error error => exact raise

theorem lifted {result : Except ConfigurationError α} :
    Attends contents anything (AwsStore.lift result) world :=
  lift fun _ _ => trivial

theorem conditionalFailure (message : String) (failure : AwsFailure) :
    Attends contents Q (AwsStore.conditionalFailure message failure) world := by
  cases failure <;> exact raise

theorem forEach {items : List α} {body : α → AwsProcess Unit}
    (h : ∀ item ∈ items, ∀ later, Attends contents anything (body item) later) :
    Attends contents anything (Process.forEach items body) world :=
  ⟨Careful.forEach (fun _ _ => trivial) fun item hitem later _ => (h item hitem later).careful⟩

/-- One request to a client. -/
theorem sendRequest (collisionFree : CollisionFree contents) {request : AwsRequest}
    {translate : AwsFailure → AwsProcess (AwsReply request)}
    {Q : AwsReply request → Cloud → Prop} (ready : Ready contents world request)
    (hreply : ∀ later reply, Whole contents later → (later.serve request).1 = .ok reply →
      Q reply (later.serve request).2)
    (htranslate : ∀ failure later, Attends contents Q (translate failure) later) :
    Attends contents Q (AwsStore.sendRequest request translate) world := by
  apply rescue ⟨Careful.call ready ?_⟩ htranslate
  intro later whole unregistered hready disturbance
  refine ⟨whole_respond collisionFree whole unregistered hready disturbance, ?_⟩
  cases disturbance with
  | none => exact fun reply hanswer => hreply later reply whole hanswer
  | lost => nofun
  | unanswered => nofun

/-- A request whose reply is not used. -/
theorem performed (collisionFree : CollisionFree contents) {request : AwsRequest}
    {translate : AwsFailure → AwsProcess (AwsReply request)} (ready : Ready contents world request)
    (htranslate : ∀ failure later, Attends contents anything (translate failure) later) :
    Attends contents anything (AwsStore.sendRequest request translate) world :=
  sendRequest collisionFree ready (fun _ _ _ _ => trivial) htranslate

end Attends

/-! ## The programs -/

section Programs

variable (collisionFree : CollisionFree contents)
include collisionFree

theorem getMetadata_attends (key : ItemKey) : Attends contents anything (getMetadata key) world :=
  .performed collisionFree (.getItem key) fun _ _ => .raise

theorem readBody_attends (key : ObjectKey) :
    Attends contents (fun body later => later.objects.get? key = some body) (readBody key)
      world := by
  apply Attends.bind
  · apply Attends.sendRequest collisionFree (.getObject key)
      (Q := fun body later => later.objects.get? key = some body)
    · intro later reply _ hreply
      simp only [Cloud.serve] at hreply ⊢
      split at hreply
      · next body found =>
          cases hreply
          simp [found]
      · cases hreply
    · intro failure later
      cases failure <;> exact .raise
  · intro body later found
    apply Attends.ite
    · exact fun _ => .raise
    · exact fun _ => .done found

theorem putImmutableBody_attends (key : ObjectKey) (body : JsonValue) :
    Attends contents (fun _ later => later.objects.get? key = some body)
      (putImmutableBody key body) world := by
  apply Attends.sendRequest collisionFree (.putObject key body)
  · intro later reply _ hreply
    simp only [Cloud.serve] at hreply ⊢
    split at hreply
    · cases hreply
    · simp
  · intro failure later
    cases failure with
    | conditional =>
        apply Attends.bind (readBody_attends collisionFree key)
        intro existing moment found
        apply Attends.ite
        · rintro rfl
          exact .done found
        · exact fun _ => .raise
    | missing | other => exact .raise
    | raised error => exact .raise

theorem transactWrite_attends {operations : List DynamoOperation}
    (ready : Ready contents world (.transactWriteItems operations)) :
    Attends contents anything (transactWrite operations) world :=
  .performed collisionFree ready fun failure _ =>
    .conditionalFailure _ failure

theorem conditionalPut_attends {key : ItemKey} {item : MetadataItem} {condition : DynamoCondition}
    (ready : Ready contents world (.putItem key item condition)) :
    Attends contents anything (conditionalPut key item condition) world :=
  .performed collisionFree ready fun failure _ =>
    .conditionalFailure _ failure

theorem readBundle_attends (scopeDigest : Digest) (key : ObjectKey) :
    Attends contents anything (readBundle host scopeDigest key) world := by
  apply Attends.ite
  · exact fun _ => .raise
  · intro _
    apply Attends.bind (readBody_attends collisionFree key)
    intro payload later _
    apply Attends.bind .lifted
    intro bundle later _
    apply Attends.ite
    · exact fun _ => .raise
    · exact fun _ => .done trivial

theorem readDraft_attends (scopeDigest : Digest) :
    Attends contents anything (readDraft host scopeDigest) world := by
  apply Attends.bind (getMetadata_attends collisionFree _)
  intro item later _
  cases item with
  | none => exact .done trivial
  | some item =>
      apply Attends.bind .lifted
      intro _ later _
      apply Attends.bind .lifted
      intro version later _
      apply Attends.bind .lifted
      intro bodyKey later _
      apply Attends.bind (readBundle_attends collisionFree scopeDigest bodyKey)
      intro bundle later _
      exact .done trivial

theorem compareAndSwapDraft_attends (scopeDigest : Digest) (bundle : ConfigurationDocument host)
    (expectedVersion : Option Int) :
    Attends contents anything (compareAndSwapDraft scopeDigest bundle expectedVersion) world := by
  apply Attends.bind .lifted
  intro body later _
  apply Attends.bind (putImmutableBody_attends collisionFree _ body)
  intro _ later _
  apply Attends.bind (conditionalPut_attends collisionFree (.putDraft scopeDigest _ _ _))
  intro _ later _
  exact .done trivial

theorem readRevision_attends (scopeDigest : Digest) (revisionId : RevisionIdentity) :
    Attends contents anything (readRevision host scopeDigest revisionId) world := by
  apply Attends.bind (getMetadata_attends collisionFree _)
  intro item later _
  cases item with
  | none => exact .raise
  | some item =>
      apply Attends.bind .lifted
      intro _ later _
      apply Attends.bind .lifted
      intro storedRevisionId later _
      apply Attends.ite
      · exact fun _ => .raise
      · intro _
        apply Attends.bind .lifted
        intro bodyKey later _
        apply Attends.bind (readBundle_attends collisionFree scopeDigest bodyKey)
        intro bundle later _
        apply Attends.ite
        · exact fun _ => .raise
        · intro _
          apply Attends.bind .lifted
          intro createdAt later _
          exact .done trivial

/-- The metadata write waits with its body stored. -/
theorem registerRevision_attends {content : RevisionContent host} (known : contents content)
    (stored : BodyStored world.objects content) (createdAt : UtcTime) :
    Attends contents anything (registerRevision content.scopeDigest (content.item createdAt 0)
      content.identity content.parent) world := by
  cases hparent : content.parent with
  | none =>
      exact conditionalPut_attends collisionFree (.registerRoot content createdAt known hparent stored)
  | some parent =>
      exact transactWrite_attends collisionFree
        (.registerChild content createdAt parent known hparent stored)

theorem existingRevision_attends (scopeDigest : Digest) (revisionId : RevisionIdentity)
    (parent : Option RevisionIdentity) :
    Attends contents anything (existingRevision host scopeDigest revisionId parent) world := by
  apply Attends.bind (getMetadata_attends collisionFree _)
  intro existing later _
  cases existing with
  | some item =>
      apply Attends.ite
      · exact fun _ => .raise
      · exact fun _ => readRevision_attends collisionFree scopeDigest revisionId
  | none =>
      cases parent with
      | none => exact .raise
      | some parentId =>
          apply Attends.bind (readRevision_attends collisionFree scopeDigest parentId)
          intro _ later _
          exact .raise

theorem createRevision_attends {content : RevisionContent host} (known : contents content)
    (reading : Option UtcTime) :
    Attends contents anything (createRevision content.scopeDigest content.bundle content.parent
      reading) world := by
  apply Attends.bind (Attends.lift (Q := fun body _ =>
    body = envelopeValue content.scopeDigest content.bundle) ?_)
  · rintro _ later rfl
    apply Attends.bind (putImmutableBody_attends collisionFree _ _)
    intro _ later stored
    cases reading with
    | none => exact .raise
    | some createdAt =>
        apply Attends.rescue
        · apply Attends.bind (registerRevision_attends collisionFree known stored createdAt)
          intro _ later _
          exact .done trivial
        · intro failure later
          cases failure with
          | raised error =>
              apply Attends.ite
              · exact fun _ => existingRevision_attends collisionFree _ _ _
              · exact fun _ => .raise
          | conditional | missing | other => exact .fail
  · intro body hbody
    rw [envelopeBytes_eq] at hbody
    exact (Except.ok.inj hbody).symm

theorem listRevisions_attends (scopeDigest : Digest) (limit : Int)
    (cursor : Option (ScopeCursor IndexKey)) :
    Attends contents anything (listRevisions scopeDigest limit cursor) world := by
  apply Attends.ite
  · exact fun _ => .raise
  · intro _
    apply Attends.bind .lifted
    intro start later _
    apply Attends.bind (Attends.performed collisionFree (.query scopeDigest limit.toNat start)
      fun _ _ => .raise)
    intro page later _
    apply Attends.ite
    · exact fun _ => .raise
    · intro _
      apply Attends.bind .lifted
      intro revisions later _
      exact .done trivial

theorem readActive_attends (scopeDigest : Digest) :
    Attends contents anything (readActive scopeDigest) world := by
  apply Attends.bind (getMetadata_attends collisionFree _)
  intro item later _
  cases item with
  | none => exact .done trivial
  | some item =>
      apply Attends.bind .lifted
      intro _ later _
      apply Attends.bind .lifted
      intro revisionId later _
      apply Attends.bind .lifted
      intro version later _
      exact .done trivial

theorem compareAndSwapActive_attends (scopeDigest : Digest) (revisionId : RevisionIdentity)
    (expectedRevisionId : Option RevisionIdentity) (expectedVersion : Option Int) :
    Attends contents anything (compareAndSwapActive host scopeDigest revisionId expectedRevisionId
      expectedVersion) world := by
  apply Attends.bind (readRevision_attends collisionFree scopeDigest revisionId)
  intro _ later _
  apply Attends.bind (readActive_attends collisionFree scopeDigest)
  intro current later _
  apply Attends.ite
  · exact fun _ => .raise
  · intro _
    apply Attends.bind (transactWrite_attends collisionFree (.activate scopeDigest revisionId _ _ _))
    intro _ later _
    exact .done trivial

/-! ### Retention -/

/-- The item lists a revision of the scope that has one of the contents. -/
def Lists (contents : RevisionContent host → Prop) (scopeDigest : Digest) (item : MetadataItem) :
    Prop :=
  ∃ content, contents content ∧ content.scopeDigest = scopeDigest ∧
    item.revisionId = some content.identity ∧ item.parentRevisionId = content.parent

omit collisionFree in
theorem lists_of_indexEntries (whole : Whole contents world) {scopeDigest : Digest}
    {entry : IndexKey × MetadataItem} (h : entry ∈ world.indexEntries scopeDigest) :
    Lists contents scopeDigest entry.2 := by
  obtain ⟨⟨key, item⟩, hmem, hentry⟩ :=
    List.mem_filterMap.mp (((List.perm_insertionSort _ _).mem_iff).mp h)
  have found := Table.mem_entries_iff.mp hmem
  simp only at hentry
  split at hentry
  · next hscope =>
      obtain ⟨order, horder, rfl⟩ := Option.map_eq_some_iff.mp hentry
      have htype : item.recordType = .revision := by
        obtain ⟨scope, metadataKey⟩ := key
        cases metadataKey with
        | draft =>
            obtain ⟨_, _, rfl⟩ := whole.drafts _ _ found
            cases horder
        | active =>
            obtain ⟨_, _, rfl, _⟩ := whole.active _ _ found
            cases horder
        | revision revisionId =>
            by_contra hne
            obtain rfl := whole.markers _ _ _ found hne
            cases horder
      obtain ⟨revisionId, hkey⟩ := Intact.entry_revision whole found htype
      rw [hkey] at found
      obtain ⟨content, createdAt, known, _, _, _, rfl⟩ := whole.revisions _ _ _ found htype
      exact ⟨content, known, hscope, rfl, rfl⟩
  · cases hentry

theorem allRevisionItems_attends (scopeDigest : Digest) :
    Attends contents (fun items _ => ∀ item ∈ items, Lists contents scopeDigest item)
      (allRevisionItems scopeDigest) world := by
  have queried : ∀ {translate}, (∀ failure later,
      Attends contents (fun (page : QueryPage) _ => ∀ item ∈ page.items,
        Lists contents scopeDigest item) (translate failure) later) →
      Attends contents (fun (page : QueryPage) _ => ∀ item ∈ page.items,
        Lists contents scopeDigest item)
        (sendRequest (.query scopeDigest (awsMaxQueryItems + 1) none) translate) world := by
    intro translate htranslate
    apply Attends.sendRequest collisionFree (.query scopeDigest (awsMaxQueryItems + 1) none) _
      htranslate
    intro later page whole hpage item hitem
    cases hpage
    obtain ⟨entry, hentry, rfl⟩ := List.mem_map.mp hitem
    exact lists_of_indexEntries whole (List.mem_of_mem_take hentry)
  apply Attends.bind (queried fun _ _ => .raise)
  intro page later listed
  apply Attends.ite
  · exact fun _ => .raise
  · exact fun _ => .done listed

theorem releaseCleanupMarker_attends (scopeDigest : Digest) (revisionId : RevisionIdentity) :
    Attends contents anything (releaseCleanupMarker scopeDigest revisionId) world := by
  apply Attends.performed collisionFree (.unmark scopeDigest revisionId)
  intro failure later
  cases failure with
  | conditional =>
      apply Attends.bind (getMetadata_attends collisionFree _)
      intro item later _
      apply Attends.ite
      · exact fun _ => .done trivial
      · exact fun _ => .raise
  | missing | other => exact .raise
  | raised error => exact .raise

theorem deleteBody_attends (scopeDigest : Digest) (revisionId : RevisionIdentity) :
    Attends contents anything (deleteBody scopeDigest revisionId) world := by
  apply Attends.bind (Attends.performed collisionFree (.deleteBody scopeDigest revisionId) ?_)
  · intro _ later _
    apply Attends.bind (releaseCleanupMarker_attends collisionFree scopeDigest revisionId)
    intro _ later _
    exact .done trivial
  · intro failure later
    apply Attends.bind (releaseCleanupMarker_attends collisionFree scopeDigest revisionId)
    intro _ later _
    exact .raise

theorem acquireCleanupMarker_attends (scopeDigest : Digest) (revisionId : RevisionIdentity) :
    Attends contents anything (acquireCleanupMarker scopeDigest revisionId) world := by
  apply Attends.rescue
  · apply Attends.bind (transactWrite_attends collisionFree (.mark scopeDigest revisionId))
    intro _ later _
    exact .done trivial
  · intro failure later
    cases failure with
    | raised error =>
        apply Attends.ite
        · exact fun _ => .done trivial
        · exact fun _ => .raise
    | conditional | missing | other => exact .fail

theorem holdMarker_attends (scopeDigest : Digest) (revisionId : RevisionIdentity)
    (item : Option MetadataItem) :
    Attends contents anything (holdMarker scopeDigest revisionId item) world := by
  cases item with
  | none => exact acquireCleanupMarker_attends collisionFree scopeDigest revisionId
  | some item => exact .done trivial

theorem cleanup_attends (scopeDigest : Digest) (revisionId : RevisionIdentity) :
    Attends contents anything (cleanupOrphanedRevisionBody scopeDigest revisionId) world := by
  apply Attends.bind (getMetadata_attends collisionFree _)
  intro item later _
  have checked : Attends contents anything (checkMarker scopeDigest revisionId item) later := by
    cases item with
    | none => exact .done trivial
    | some item => exact .lifted
  apply Attends.bind checked
  intro _ later _
  apply Attends.bind (readActive_attends collisionFree scopeDigest)
  intro active later _
  apply Attends.ite
  · exact fun _ => .done trivial
  · intro _
    apply Attends.bind (holdMarker_attends collisionFree scopeDigest revisionId item)
    intro held later _
    apply Attends.ite
    · exact fun _ => deleteBody_attends collisionFree scopeDigest revisionId
    · exact fun _ => .done trivial

theorem deleteCandidate_attends {scopeDigest : Digest} {item : MetadataItem}
    (listed : Lists contents scopeDigest item) :
    Attends contents anything (deleteCandidate scopeDigest item) world := by
  obtain ⟨content, known, rfl, hrevision, hparent⟩ := listed
  apply Attends.bind (Attends.lift (Q := fun revisionId _ => revisionId = content.identity) ?_)
  · rintro _ later rfl
    rw [hparent]
    apply Attends.bind (transactWrite_attends collisionFree (.unregister content known))
    intro _ later _
    apply Attends.bind (cleanup_attends collisionFree content.scopeDigest content.identity)
    intro _ later _
    exact .done trivial
  · intro revisionId hvalue
    rw [hrevision] at hvalue
    exact (Except.ok.inj hvalue).symm

theorem retainRevisions_attends (scopeDigest : Digest) (keepLatest deleteLimit : Int) :
    Attends contents anything (retainRevisions scopeDigest keepLatest deleteLimit) world := by
  apply Attends.ite
  · exact fun _ => .raise
  · intro _
    apply Attends.bind (allRevisionItems_attends collisionFree scopeDigest)
    intro items later listed
    apply Attends.bind .lifted
    intro _ later _
    apply Attends.bind (readActive_attends collisionFree scopeDigest)
    intro active later _
    apply Attends.bind (Attends.forEach ?_)
    · intro _ later _
      exact .done trivial
    · intro item hitem later
      apply deleteCandidate_attends collisionFree
      exact listed item (List.mem_of_mem_drop (List.mem_filter.mp (List.mem_of_mem_take hitem)).1)

omit collisionFree in
theorem discarded_attends {α : Type} {process : AwsProcess α}
    (h : Attends contents anything process world) :
    Attends contents anything (discarded process) world :=
  .bind h fun _ _ _ => .done trivial

/-- Every program of the store, as long as the content it creates is known. -/
theorem program_attends (call : AwsCall host)
    (known : ∀ content, call.content = some content → contents content) :
    Attends contents anything call.program world := by
  cases call <;> simp only [AwsCall.program] <;> apply discarded_attends
  case readDraft scopeDigest => exact readDraft_attends collisionFree scopeDigest
  case compareAndSwapDraft scopeDigest bundle expectedVersion =>
    exact compareAndSwapDraft_attends collisionFree scopeDigest bundle expectedVersion
  case createRevision scopeDigest bundle parent reading =>
    exact createRevision_attends collisionFree (known ⟨scopeDigest, bundle, parent⟩ rfl) reading
  case readRevision scopeDigest revisionId =>
    exact readRevision_attends collisionFree scopeDigest revisionId
  case listRevisions scopeDigest limit cursor =>
    exact listRevisions_attends collisionFree scopeDigest limit cursor
  case readActive scopeDigest => exact readActive_attends collisionFree scopeDigest
  case compareAndSwapActive scopeDigest revisionId expectedRevisionId expectedVersion =>
    exact compareAndSwapActive_attends collisionFree scopeDigest revisionId expectedRevisionId
      expectedVersion
  case retainRevisions scopeDigest keepLatest deleteLimit =>
    exact retainRevisions_attends collisionFree scopeDigest keepLatest deleteLimit
  case cleanupOrphanedRevisionBody scopeDigest revisionId =>
    exact cleanup_attends collisionFree scopeDigest revisionId

end Programs

/-! ## Undisturbed runs -/

theorem NeverDangling.of_whole (whole : Whole contents world) : NeverDangling host world where
  bodies := by
    intro scopeDigest revisionId item found htype
    obtain ⟨content, createdAt, _, rfl, rfl, stored, rfl⟩ := whole.revisions _ _ _ found htype
    exact ⟨content.bundle, stored, rfl⟩
  counts := by
    intro scopeDigest revisionId item found htype
    obtain ⟨content, createdAt, _, rfl, rfl, _, rfl⟩ := whole.revisions _ _ _ found htype
    simp [RevisionContent.item, MetadataItem.revision, debtless]
  parents := whole.parents
  active := by
    intro scopeDigest item found
    obtain ⟨revisionId, version, rfl, registered⟩ := whole.active _ _ found
    exact ⟨revisionId, rfl, registered⟩

/-- The contents that a run is asked to create. -/
def Creates (events : List (AwsEvent host)) (content : RevisionContent host) : Prop :=
  ∃ client call, .start client call ∈ events ∧ call.content = some content

/-- Without the two races no revision ever dangles. -/
theorem never_dangling (events : List (AwsEvent host)) (collisionFree : CollisionFree (Creates events))
    (undisturbed : (awsService host).UndisturbedRun Unregistered DeletesUnder events
      (initial .empty)) :
    ∀ world ∈ ((awsService host).run events (initial .empty)).history,
      NeverDangling host world := by
  have calm : (awsService host).Calm (Whole (Creates events)) Unregistered (Ready (Creates events))
      (initial .empty) := calm_initial intact_empty
  have kept := invariant_of_undisturbed ?_ ?_ ?_ calm undisturbed
  · exact fun world hworld => .of_whole (kept.invariant world hworld)
  · intro client call hstart world _
    have known : ∀ content, call.content = some content → Creates events content :=
      fun content hcontent => ⟨client, call, hstart, hcontent⟩
    have attends : Attends (Creates events) anything call.program world :=
      program_attends collisionFree call known
    exact attends.careful.mono fun _ _ _ => trivial
  · intro disturbance world request waits _ _ ready apart
    exact ready_respond ready apart disturbance
  · exact fun change => nomatch change

/-! ## A race -/

/-- A host that accepts every document.  One content is created below, so one digest is enough. -/
def sampleHost : ConfigurationHost where
  hashing := ⟨fun _ => Digest.ofNat 7⟩
  validate := some

def sampleScope : Digest := .ofNat 1

/-- The bundle without resources, services, workflows or triggers. -/
def emptyBundle : ConfigurationDocument sampleHost where
  value := .obj [("resources", .obj [("resources", .obj [])]),
    ("services", .obj [("services", .obj [])]), ("triggers", .obj [("triggers", .obj [])]),
    ("workflows", .obj [])]
  accepted := rfl
  canonical := by decide
  bounded := by decide

def sampleRevision : RevisionIdentity :=
  configurationRevisionIdentity sampleScope emptyBundle none

def createSample : AwsCall sampleHost :=
  .createRevision sampleScope emptyBundle none (some ⟨2026, 8, 4, 10, 0, 0, 0⟩)

def cleanSample : AwsCall sampleHost :=
  .cleanupOrphanedRevisionBody sampleScope sampleRevision

/-- The first `count` requests of one client. -/
def serves (index count : Nat) : List (AwsEvent sampleHost) :=
  List.replicate count (.serve index .none)

/-- A revision is created, and then another revision's body is cleaned up. -/
def calmEvents : List (AwsEvent sampleHost) :=
  .start 0 createSample :: serves 0 2 ++
    .start 1 (.cleanupOrphanedRevisionBody sampleScope (.ofNat 0)) :: serves 1 5

theorem never_dangling_calm :
    CollisionFree (Creates calmEvents) ∧
    (awsService sampleHost).UndisturbedRun Unregistered DeletesUnder calmEvents
      (initial .empty) ∧
    ∀ world ∈ ((awsService sampleHost).run calmEvents (initial .empty)).history,
      NeverDangling sampleHost world := by
  have collisionFree : CollisionFree (Creates calmEvents) := by
    have only : ∀ content, Creates calmEvents content →
        content = ⟨sampleScope, emptyBundle, none⟩ := by
      rintro content ⟨client, call, hstart, hcontent⟩
      simp only [calmEvents, serves, List.replicate, List.cons_append, List.nil_append,
        List.mem_cons, Event.start.injEq, reduceCtorEq, List.not_mem_nil, or_false,
        false_or] at hstart
      rcases hstart with ⟨_, rfl⟩ | ⟨_, rfl⟩
      · exact (Option.some.inj hcontent).symm
      · cases hcontent
    intro first second hfirst hsecond _
    rw [only first hfirst, only second hsecond]
  have undisturbed : (awsService sampleHost).UndisturbedRun Unregistered DeletesUnder calmEvents
      (initial .empty) := by decide +kernel
  exact ⟨collisionFree, undisturbed, never_dangling calmEvents collisionFree undisturbed⟩

/-- A creation finds its body stored; before it registers the revision, a cleanup takes the
marker, deletes the body and releases the marker. -/
def raceEvents : List (AwsEvent sampleHost) :=
  .start 0 createSample :: serves 0 1 ++ .start 1 cleanSample :: serves 1 5 ++ serves 0 1

/-- The revision is registered without its body. -/
theorem body_lost :
    ¬ NeverDangling sampleHost ((awsService sampleHost).run raceEvents (initial .empty)).world := by
  intro whole
  obtain ⟨bundle, stored, _⟩ := whole.bodies sampleScope sampleRevision
    ((RevisionContent.mk sampleScope emptyBundle none).item ⟨2026, 8, 4, 10, 0, 0, 0⟩ 0)
    (by decide +kernel) rfl
  have absent : ((awsService sampleHost).run raceEvents (initial .empty)).world.objects.get?
      (revisionBodyKey sampleScope sampleRevision) = none := by decide +kernel
  rw [absent] at stored
  cases stored

end Justflow.Stores
