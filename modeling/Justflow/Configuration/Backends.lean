import Justflow.Configuration.Operations

/-!
# The two stores answer alike

Drafts, revisions and the active pointer on the SQLite store and on the AWS store: whatever
commands a scope's users give, both stores answer them alike, as long as the hash does not make two
of the bodies or contents that they name the same.  `Alike` says it for one command; the run
theorem follows by induction on the commands.
-/

open Fields JsonValue Process

namespace Justflow.Stores

open AwsStore

variable {host : ConfigurationHost} {contents : RevisionContent host → Prop}
  {draftBodies : JsonValue → Prop} {store : SqliteStore} {cloud : Cloud}

/-! ## A creation -/

/-- The metadata write of a creation, and what follows a refusal. -/
def registering (content : RevisionContent host) (createdAt : UtcTime) :
    AwsProcess (RevisionRecord host) :=
  tryCatch ((registerRevision content.scopeDigest (content.item createdAt 0) content.identity
    content.parent).bind fun _ => .done ⟨content.scopeDigest, content.identity, content.parent,
      createdAt, content.bundle⟩) fun
    | .raised error =>
        if error.kind = .conflict then
          existingRevision host content.scopeDigest content.identity content.parent
        else AwsStore.raise error
    | failure => .fail failure

theorem exec_registering_ok {content : RevisionContent host} {createdAt : UtcTime} {later : Cloud}
    (ran : exec Cloud.serve (registerRevision content.scopeDigest (content.item createdAt 0)
      content.identity content.parent) cloud = (.ok (), later)) :
    exec Cloud.serve (registering content createdAt) cloud =
      (.ok ⟨content.scopeDigest, content.identity, content.parent, createdAt, content.bundle⟩,
        later) :=
  exec_rescue_ok (exec_bind_ok ran _) _

theorem exec_registering_refused {content : RevisionContent host} {createdAt : UtcTime}
    (refused : exec Cloud.serve (registerRevision content.scopeDigest (content.item createdAt 0)
      content.identity content.parent) cloud = (.error (.raised .conflict), cloud)) :
    exec Cloud.serve (registering content createdAt) cloud =
      exec Cloud.serve (existingRevision host content.scopeDigest content.identity content.parent)
        cloud :=
  exec_rescue_error (exec_bind_error refused _) _

/-- A refused creation of an orphan fails as the reading of its parent does. -/
theorem exec_existingRevision_orphan {scopeDigest : Digest} {revisionId parent : RevisionIdentity}
    {failure : AwsFailure}
    (hitem : cloud.items.get? (revisionKey scopeDigest revisionId) = none)
    (hread : exec Cloud.serve (AwsStore.readRevision host scopeDigest parent) cloud =
      (.error failure, cloud)) :
    exec Cloud.serve (existingRevision host scopeDigest revisionId (some parent)) cloud =
      (.error failure, cloud) := by
  refine (exec_bind_ok (exec_getMetadata _) _).trans ?_
  rw [hitem]
  exact exec_bind_error hread _

theorem exec_existingRevision_found {scopeDigest : Digest} {revisionId : RevisionIdentity}
    {parent : Option RevisionIdentity} {item : MetadataItem}
    (hitem : cloud.items.get? (revisionKey scopeDigest revisionId) = some item)
    (htype : item.recordType = .revision) :
    exec Cloud.serve (existingRevision host scopeDigest revisionId parent) cloud =
      exec Cloud.serve (AwsStore.readRevision host scopeDigest revisionId) cloud := by
  refine (exec_bind_ok (exec_getMetadata _) _).trans ?_
  rw [hitem]
  dsimp only
  rw [htype, if_neg nofun]

section Tables

variable {content : RevisionContent host} {createdAt : UtcTime}

theorem createRevision_orphan {parent : RevisionIdentity} {error : ConfigurationError}
    (child : content.parent = some parent)
    (missing : store.requireRevision content.scopeDigest parent = .error error) :
    store.createRevision content.scopeDigest content.bundle content.parent (some createdAt) =
      .error error := by
  rw [SqliteStore.createRevision, envelopeBytes_eq, child]
  simp only [timestamp, Bind.bind, Except.bind, missing]

variable (parents : ∀ parent, content.parent = some parent →
  store.requireRevision content.scopeDigest parent = .ok ())
include parents

theorem createRevision_existing {earlier : UtcTime}
    (found : store.revisions.get? (content.scopeDigest, content.identity) =
      some ⟨content.parent, earlier, envelopeValue content.scopeDigest content.bundle⟩) :
    store.createRevision content.scopeDigest content.bundle content.parent (some createdAt) =
      .ok (⟨content.scopeDigest, content.identity, content.parent, earlier, content.bundle⟩,
        store) := by
  have hidentity : configurationRevisionIdentity content.scopeDigest content.bundle
      content.parent = content.identity := rfl
  rw [SqliteStore.createRevision, envelopeBytes_eq, hidentity, found]
  cases hparent : content.parent with
  | none => simp [timestamp, Bind.bind, Except.bind, Pure.pure, Except.pure]
  | some parent =>
      simp [timestamp, Bind.bind, Except.bind, Pure.pure, Except.pure, parents parent hparent]

theorem createRevision_fresh
    (fresh : store.revisions.get? (content.scopeDigest, content.identity) = none)
    (kept : ∀ message, SqliteStore.checked { store with
      revisions := store.revisions.insert (content.scopeDigest, content.identity)
        ⟨content.parent, createdAt, envelopeValue content.scopeDigest content.bundle⟩ } message =
      .ok { store with
        revisions := store.revisions.insert (content.scopeDigest, content.identity)
          ⟨content.parent, createdAt, envelopeValue content.scopeDigest content.bundle⟩ }) :
    store.createRevision content.scopeDigest content.bundle content.parent (some createdAt) =
      .ok (⟨content.scopeDigest, content.identity, content.parent, createdAt, content.bundle⟩,
        { store with
          revisions := store.revisions.insert (content.scopeDigest, content.identity)
            ⟨content.parent, createdAt, envelopeValue content.scopeDigest content.bundle⟩ }) := by
  have hidentity : configurationRevisionIdentity content.scopeDigest content.bundle
      content.parent = content.identity := rfl
  rw [SqliteStore.createRevision, envelopeBytes_eq, hidentity, fresh]
  cases hparent : content.parent with
  | none =>
      rw [hparent] at kept
      simp [timestamp, Bind.bind, Except.bind, Pure.pure, Except.pure, kept]
  | some parent =>
      rw [hparent] at kept
      simp [timestamp, Bind.bind, Except.bind, Pure.pure, Except.pure, parents parent hparent,
        kept]

end Tables

namespace Agree

variable (agree : Agree contents draftBodies store cloud) {scopeDigest : Digest}
include agree

/-! ## Pointers and revisions that are read -/

theorem exec_readActive (scopeDigest : Digest) :
    exec Cloud.serve (AwsStore.readActive scopeDigest) cloud =
      (.ok (store.readActive scopeDigest), cloud) := by
  have hpointer := agree.pointers scopeDigest
  rw [AwsStore.readActive, exec_bind_ok (exec_getMetadata _), SqliteStore.readActive]
  cases hrow : store.activePointers.get? scopeDigest with
  | none =>
      rw [hrow] at hpointer
      rw [show cloud.items.get? (activeKey scopeDigest) = none from hpointer]
      rfl
  | some row =>
      obtain ⟨revisionId, version⟩ := row
      rw [hrow] at hpointer
      obtain ⟨positive, hitem⟩ := hpointer
      have hversion : number (MetadataItem.active scopeDigest revisionId version).version =
          .ok version := number_of_positive positive
      have hrevision : stringOf (MetadataItem.active scopeDigest revisionId version).revisionId =
          .ok revisionId := rfl
      rw [hitem]
      dsimp only
      rw [exec_bind_ok (exec_lift (requireRecord_active _ _ _)),
        exec_bind_ok (exec_lift hrevision), exec_bind_ok (exec_lift hversion)]
      rfl

omit agree in
theorem readRevision_found {content : RevisionContent host} {createdAt : UtcTime}
    (found : store.revisions.get? (content.scopeDigest, content.identity) =
      some ⟨content.parent, createdAt, envelopeValue content.scopeDigest content.bundle⟩) :
    store.readRevision content.scopeDigest content.identity =
      .ok ⟨content.scopeDigest, content.identity, content.parent, createdAt, content.bundle⟩ := by
  have hidentity : configurationRevisionIdentity content.scopeDigest content.bundle
      content.parent = content.identity := rfl
  rw [SqliteStore.readRevision, found]
  simp only [readEnvelope_envelope]
  change (if _ ≠ content.identity then _ else _) = _
  rw [if_neg (not_not_intro hidentity)]
  rfl

theorem exec_readRevision (scopeDigest : Digest) (revisionId : RevisionIdentity) :
    exec Cloud.serve (AwsStore.readRevision host scopeDigest revisionId) cloud =
      ((store.readRevision scopeDigest revisionId).mapError .raised, cloud) := by
  rw [AwsStore.readRevision, exec_bind_ok (exec_getMetadata _)]
  rcases agree.lookup scopeDigest revisionId with ⟨hrow, hitem⟩ |
    ⟨content, createdAt, known, rfl, rfl, stored, hrow, hitem⟩
  · rw [SqliteStore.readRevision, hrow, hitem]
    rfl
  · let item := content.item createdAt (children cloud.items content.scopeDigest content.identity)
    have hread : exec Cloud.serve (readBundle host content.scopeDigest
        (revisionBodyKey content.scopeDigest content.identity)) cloud =
          (.ok content.bundle, cloud) :=
      exec_readBundle rfl stored nofun
    have hrevision : stringOf item.revisionId = .ok content.identity := rfl
    have hkey : stringOf item.bodyKey =
        .ok (revisionBodyKey content.scopeDigest content.identity) := rfl
    have hcreated : stringOf item.createdAt = .ok createdAt := rfl
    have same : ¬ configurationRevisionIdentity content.scopeDigest content.bundle
        item.parentRevisionId ≠ content.identity := not_not_intro rfl
    rw [readRevision_found hrow, hitem]
    dsimp only
    rw [exec_bind_ok (exec_lift (requireRecord_item _ _ _)), exec_bind_ok (exec_lift hrevision),
      if_neg (not_not_intro rfl), exec_bind_ok (exec_lift hkey), exec_bind_ok hread,
      if_neg same, exec_bind_ok (exec_lift hcreated)]
    rfl

/-- A revision is there, or both stores say that it is not. -/
theorem required (scopeDigest : Digest) (revisionId : RevisionIdentity) :
    store.requireRevision scopeDigest revisionId = .error .revisionNotFound ∧
        exec Cloud.serve (AwsStore.readRevision host scopeDigest revisionId) cloud =
          (.error (.raised .revisionNotFound), cloud) ∧
        ¬ Registered cloud.items scopeDigest revisionId ∨
      store.requireRevision scopeDigest revisionId = .ok () ∧
        (∃ record, exec Cloud.serve (AwsStore.readRevision host scopeDigest revisionId) cloud =
          (.ok record, cloud)) ∧
        Registered cloud.items scopeDigest revisionId := by
  have hread := agree.exec_readRevision scopeDigest revisionId
  have hregistered := agree.registered_iff scopeDigest revisionId
  rcases agree.lookup scopeDigest revisionId with ⟨hrow, hitem⟩ |
    ⟨content, createdAt, known, rfl, rfl, stored, hrow, hitem⟩
  · refine .inl ⟨?_, ?_, ?_⟩
    · simp [SqliteStore.requireRevision, hrow]
    · rw [hread, SqliteStore.readRevision, hrow]
      rfl
    · rw [hregistered, hrow]
      simp
  · refine .inr ⟨?_, ⟨⟨content.scopeDigest, content.identity, content.parent, createdAt,
      content.bundle⟩, ?_⟩, ?_⟩
    · simp [SqliteStore.requireRevision, hrow]
    · rw [hread, readRevision_found hrow]
      rfl
    · rw [hregistered, hrow]
      rfl

/-! ## The active pointer -/

omit agree in
theorem activateOperations_write {items : Items} {revisionId : RevisionIdentity} {version : Int}
    {expectedRevisionId : Option RevisionIdentity} {expectedVersion : Option Int}
    (registered : Registered items scopeDigest revisionId)
    (holds : (match expectedRevisionId with
      | none => DynamoCondition.notExists
      | some expected => .pointerIs expected expectedVersion).holds
        (items.get? (activeKey scopeDigest)) = true) :
    (activateOperations scopeDigest revisionId version expectedRevisionId
      expectedVersion).foldlM DynamoOperation.write items =
        some (items.insert (activeKey scopeDigest) (.active scopeDigest revisionId version)) := by
  have present := isRevision_holds.mpr registered
  cases expectedRevisionId with
  | none =>
      replace holds : DynamoCondition.notExists.holds (items.get? (activeKey scopeDigest)) = true :=
        holds
      simp [activateOperations, DynamoOperation.write, present, holds]
  | some expected =>
      replace holds : (DynamoCondition.pointerIs expected expectedVersion).holds
        (items.get? (activeKey scopeDigest)) = true := holds
      simp [activateOperations, DynamoOperation.write, present, holds]

/-- The pointer that the AWS store compares is the one that the SQLite store compares. -/
theorem pointer_holds {expectedRevisionId : Option RevisionIdentity} {expectedVersion : Option Int}
    (current : (store.readActive scopeDigest).map (·.revisionId) = expectedRevisionId)
    (version : expectedVersion.isSome →
      (store.readActive scopeDigest).map (·.version) = expectedVersion) :
    (match expectedRevisionId with
      | none => DynamoCondition.notExists
      | some expected => .pointerIs expected expectedVersion).holds
        (cloud.items.get? (activeKey scopeDigest)) = true := by
  have hpointer := agree.pointers scopeDigest
  simp only [SqliteStore.readActive, Option.map_map] at current version
  cases hrow : store.activePointers.get? scopeDigest with
  | none =>
      rw [hrow] at hpointer current
      subst current
      rw [show cloud.items.get? (activeKey scopeDigest) = none from hpointer]
      rfl
  | some row =>
      obtain ⟨revisionId, stored⟩ := row
      rw [hrow] at hpointer current version
      subst current
      rw [hpointer.2]
      cases expectedVersion with
      | none => simp [DynamoCondition.holds, MetadataItem.active]
      | some expected =>
          have same := version rfl
          simp only [Option.map_some, Option.some.injEq] at same
          simpa [DynamoCondition.holds, MetadataItem.active] using same

theorem compareAndSwapActive {revisionId : RevisionIdentity}
    {expectedRevisionId : Option RevisionIdentity} {expectedVersion : Option Int} :
    Alike (Agree contents draftBodies) store
      (store.compareAndSwapActive scopeDigest revisionId expectedRevisionId expectedVersion)
      (exec Cloud.serve (AwsStore.compareAndSwapActive host scopeDigest revisionId
        expectedRevisionId expectedVersion) cloud) := by
  rw [AwsStore.compareAndSwapActive, SqliteStore.compareAndSwapActive]
  rcases agree.required scopeDigest revisionId with ⟨absent, hread, -⟩ |
    ⟨present, ⟨record, hread⟩, registered⟩
  · rw [absent, exec_bind_error hread]
    exact .refuse rfl agree
  rw [present, exec_bind_ok hread, exec_bind_ok (agree.exec_readActive scopeDigest)]
  have current : (store.readActive scopeDigest).map (·.revisionId) =
      (store.activePointers.get? scopeDigest).map Prod.fst := by
    simp [SqliteStore.readActive, Function.comp_def]
  have versions : (store.readActive scopeDigest).map (·.version) =
      (store.activePointers.get? scopeDigest).map Prod.snd := by
    simp [SqliteStore.readActive, Function.comp_def]
  rw [current, versions]
  by_cases refused : (store.activePointers.get? scopeDigest).map Prod.fst ≠ expectedRevisionId ∨
      (expectedVersion.isSome ∧
        (store.activePointers.get? scopeDigest).map Prod.snd ≠ expectedVersion)
  · rw [if_pos refused]
    simp only [refused, if_true]
    exact .refuse rfl agree
  · rw [if_neg refused]
    simp only [refused, if_false]
    obtain ⟨hcurrent, hversion⟩ := not_or.mp refused
    have holds := agree.pointer_holds (current.trans (not_not.mp hcurrent)) fun expects =>
      versions.trans (not_not.mp fun differs => hversion ⟨expects, differs⟩)
    have moved : ∀ version : Int, 1 ≤ version →
        Agree contents draftBodies
          { store with
            activePointers := store.activePointers.insert scopeDigest (revisionId, version) }
          { cloud with
            items := cloud.items.insert (activeKey scopeDigest)
              (.active scopeDigest revisionId version) } :=
      fun version positive => agree.activate registered positive
    have swapped : ∀ version : Int, exec Cloud.serve (transactWrite (activateOperations scopeDigest
        revisionId version expectedRevisionId expectedVersion)) cloud =
          (.ok (), { cloud with
            items := cloud.items.insert (activeKey scopeDigest)
              (.active scopeDigest revisionId version) }) :=
      fun version => exec_transactWrite_ok (activateOperations_write registered holds)
    have hpointer := agree.pointers scopeDigest
    cases hrow : store.activePointers.get? scopeDigest with
    | none =>
        simp only [SqliteStore.readActive, hrow, Option.map_none]
        rw [exec_bind_ok (swapped 1), (moved 1 (Int.le_refl 1)).checked]
        exact .succeed (moved 1 (Int.le_refl 1))
    | some row =>
        rw [hrow] at hpointer
        have positive : 1 ≤ row.2 + 1 := by
          have := hpointer.1
          omega
        simp only [SqliteStore.readActive, hrow, Option.map_some]
        rw [exec_bind_ok (swapped (row.2 + 1)), (moved _ positive).checked]
        exact .succeed (moved _ positive)

/-! ## Revisions that are created -/

omit agree in
theorem createChildOperations_write {items : Items} {revisionId parent : RevisionIdentity}
    {found : MetadataItem} (item : MetadataItem) (hparent : items.get? (revisionKey scopeDigest parent) = some found)
    (htype : found.recordType = .revision)
    (fresh : items.get? (revisionKey scopeDigest revisionId) = none) :
    (createChildOperations scopeDigest item revisionId parent).foldlM DynamoOperation.write items =
      some ((items.insert (revisionKey scopeDigest parent) (found.addChildren 1)).insert
        (revisionKey scopeDigest revisionId) item) := by
  have apart : revisionKey scopeDigest revisionId ≠ revisionKey scopeDigest parent := by
    intro same
    rw [same, hparent] at fresh
    cases fresh
  have present : DynamoCondition.isRevision.holds (some found) = true :=
    isRevision_holds.mpr ⟨found, rfl, htype⟩
  have absent : DynamoCondition.notExists.holds
      ((items.insert (revisionKey scopeDigest parent) (found.addChildren 1)).get?
        (revisionKey scopeDigest revisionId)) = true := by
    rw [Table.get?_insert_ne _ apart, fresh]
    rfl
  simp [createChildOperations, DynamoOperation.write, hparent, present, absent]

omit agree in
/-- A child is refused when its parent is missing or it is there already. -/
theorem createChildOperations_refused {items : Items} {revisionId parent : RevisionIdentity}
    {item : MetadataItem}
    (refused : ¬ Registered items scopeDigest parent ∨
      (items.get? (revisionKey scopeDigest revisionId)).isSome) :
    (createChildOperations scopeDigest item revisionId parent).foldlM DynamoOperation.write items =
      none := by
  by_contra written
  obtain ⟨next, written⟩ := Option.ne_none_iff_exists'.mp written
  obtain ⟨middle, hadd, written⟩ := transact_cons written
  obtain ⟨last, hput, -⟩ := transact_cons written
  obtain ⟨found, hfound, holds, rfl⟩ := write_addChildren hadd
  obtain ⟨absent, rfl⟩ := write_put hput
  have htype : found.recordType = .revision := by simpa [DynamoCondition.holds] using holds
  rcases refused with missing | present
  · exact missing ⟨found, hfound, htype⟩
  · have gone := notExists_holds.mp absent
    rw [Table.get?_insert] at gone
    split at gone
    · cases gone
    · rw [gone] at present
      cases present

/-- A creation of a revision that is not there yet. -/
theorem registerRevision_fresh {content : RevisionContent host} (known : contents content)
    (body : BodyStored cloud.objects content) (createdAt : UtcTime)
    (fresh : cloud.items.get? (revisionKey content.scopeDigest content.identity) = none)
    (parents : ∀ parent, content.parent = some parent →
      Registered cloud.items content.scopeDigest parent) :
    ∃ items, exec Cloud.serve (registerRevision content.scopeDigest (content.item createdAt 0)
        content.identity content.parent) cloud = (.ok (), { cloud with items }) ∧
      Agree contents draftBodies
        { store with
          revisions := store.revisions.insert (content.scopeDigest, content.identity)
            ⟨content.parent, createdAt, envelopeValue content.scopeDigest content.bundle⟩ }
        { cloud with items } := by
  cases hparent : content.parent with
  | none =>
      have absent := notExists_holds.mpr fresh
      have written : (DynamoOperation.put (revisionKey content.scopeDigest content.identity)
          (content.item createdAt 0) .notExists).write cloud.items =
            some (cloud.items.insert (revisionKey content.scopeDigest content.identity)
              (content.item createdAt 0)) := by
        simp [DynamoOperation.write, absent]
      have whole := agree.whole.registeredRoot known hparent body createdAt written
      refine ⟨_, exec_conditionalPut_ok absent, ?_⟩
      rw [← hparent]
      exact agree.register (SameRows.refl _) fresh fresh body whole
  | some parent =>
      obtain ⟨found, hfound, htype⟩ := parents parent hparent
      have written := createChildOperations_write (content.item createdAt 0) hfound htype fresh
      have whole := agree.whole.registeredChild known hparent body createdAt written
      have apart : revisionKey content.scopeDigest content.identity ≠
          revisionKey content.scopeDigest parent := by
        intro same
        rw [same, hfound] at fresh
        cases fresh
      refine ⟨_, exec_transactWrite_ok written, ?_⟩
      rw [← hparent]
      exact agree.register (SameRows.addChildren hfound 1) fresh
        (by rw [Table.get?_insert_ne _ apart, fresh]) body whole

omit agree in
/-- A creation of a revision that is there, or whose parent is not. -/
theorem registerRevision_refused {parent : Option RevisionIdentity} (item : MetadataItem)
    (revisionId : RevisionIdentity)
    (refused : (∃ missing, parent = some missing ∧
        ¬ Registered cloud.items scopeDigest missing) ∨
      (cloud.items.get? (revisionKey scopeDigest revisionId)).isSome) :
    exec Cloud.serve (registerRevision scopeDigest item revisionId parent) cloud =
      (.error (.raised .conflict), cloud) := by
  cases parent with
  | none =>
      apply exec_conditionalPut_conflict
      rcases refused with ⟨_, same, -⟩ | present
      · cases same
      · rw [notExists_holds]
        intro absent
        rw [absent] at present
        cases present
  | some parent =>
      apply exec_transactWrite_conflict
      apply createChildOperations_refused
      refine refused.imp ?_ id
      rintro ⟨_, same, missing⟩
      cases same
      exact missing

/-- A parent that is registered is found in the tables. -/
theorem required_of_registered {revisionId : RevisionIdentity}
    (registered : Registered cloud.items scopeDigest revisionId) :
    store.requireRevision scopeDigest revisionId = .ok () := by
  rcases agree.required scopeDigest revisionId with ⟨_, _, missing⟩ | ⟨present, _⟩
  · exact absurd registered missing
  · exact present

theorem createRevision_absent {content : RevisionContent host} {createdAt : UtcTime}
    (known : contents content) (body : BodyStored cloud.objects content)
    (hrow : store.revisions.get? (content.scopeDigest, content.identity) = none)
    (hitem : cloud.items.get? (revisionKey content.scopeDigest content.identity) = none) :
    Alike (Agree contents draftBodies) store
      (store.createRevision content.scopeDigest content.bundle content.parent (some createdAt))
      (exec Cloud.serve (registering content createdAt) cloud) := by
  by_cases orphan : ∃ parent, content.parent = some parent ∧
      ¬ Registered cloud.items content.scopeDigest parent
  · have refused := registerRevision_refused (content.item createdAt 0) content.identity
      (.inl orphan)
    obtain ⟨parent, child, missing⟩ := orphan
    rcases agree.required content.scopeDigest parent with ⟨absent, hread, -⟩ |
      ⟨_, _, registered⟩
    · rw [createRevision_orphan child absent, exec_registering_refused refused, child,
        exec_existingRevision_orphan hitem hread]
      exact .refuse rfl agree
    · exact absurd registered missing
  · push Not at orphan
    obtain ⟨items, ran, agrees⟩ := agree.registerRevision_fresh known body createdAt hitem orphan
    rw [createRevision_fresh (fun parent child => agree.required_of_registered (orphan parent child))
      hrow fun message => agrees.checked message, exec_registering_ok ran]
    exact .succeed agrees

theorem createRevision_present {content : RevisionContent host} {createdAt earlier : UtcTime}
    (hrow : store.revisions.get? (content.scopeDigest, content.identity) =
      some ⟨content.parent, earlier, envelopeValue content.scopeDigest content.bundle⟩)
    (hitem : cloud.items.get? (revisionKey content.scopeDigest content.identity) =
      some (content.item earlier (children cloud.items content.scopeDigest content.identity))) :
    Alike (Agree contents draftBodies) store
      (store.createRevision content.scopeDigest content.bundle content.parent (some createdAt))
      (exec Cloud.serve (registering content createdAt) cloud) := by
  have present : (cloud.items.get? (revisionKey content.scopeDigest content.identity)).isSome := by
    rw [hitem]
    rfl
  have refused := @registerRevision_refused cloud content.scopeDigest content.parent
    (content.item createdAt 0) content.identity (.inr present)
  have parents : ∀ parent, content.parent = some parent →
      store.requireRevision content.scopeDigest parent = .ok () := fun parent child =>
    agree.required_of_registered (agree.whole.parents _ _ _ _ hitem rfl child)
  rw [createRevision_existing parents hrow, exec_registering_refused refused,
    exec_existingRevision_found hitem rfl, agree.exec_readRevision, readRevision_found hrow]
  exact .succeed agree

theorem createRevision {content : RevisionContent host} {reading : Option UtcTime}
    (known : contents content) (collisionFree : CollisionFree contents) :
    Alike (Agree contents draftBodies) store
      (store.createRevision content.scopeDigest content.bundle content.parent reading)
      (exec Cloud.serve (AwsStore.createRevision content.scopeDigest content.bundle content.parent
        reading) cloud) := by
  obtain ⟨hput, stored⟩ := agree.putRevisionBody known collisionFree
  have body : BodyStored (cloud.objects.insert (revisionBodyKey content.scopeDigest
      content.identity) (envelopeValue content.scopeDigest content.bundle)) content :=
    Table.get?_insert_self _ _ _
  have hidentity : configurationRevisionIdentity content.scopeDigest content.bundle
      content.parent = content.identity := rfl
  rw [AwsStore.createRevision, envelopeBytes_eq]
  simp only [hidentity]
  rw [exec_bind_ok (exec_lift rfl), exec_bind_ok hput]
  generalize cloud.objects.insert (revisionBodyKey content.scopeDigest content.identity)
    (envelopeValue content.scopeDigest content.bundle) = objects at hput stored body
  cases reading with
  | none =>
      rw [exec_bind_error rfl, SqliteStore.createRevision, envelopeBytes_eq]
      exact .refuse rfl stored
  | some createdAt =>
      have hcreated : timestamp (some createdAt) = .ok createdAt := rfl
      rw [exec_bind_ok (exec_lift hcreated)]
      rcases stored.lookup content.scopeDigest content.identity with ⟨hrow, hitem⟩ |
        ⟨other, earlier, hknown, hscope, hsame, -, hrow, hitem⟩
      · exact stored.createRevision_absent known body hrow hitem
      · obtain rfl := collisionFree _ _ hknown known hsame
        exact stored.createRevision_present hrow hitem

end Agree

/-! ## Runs -/

inductive StoreCommand (host : ConfigurationHost) where
  | readDraft (scopeDigest : Digest)
  | compareAndSwapDraft (scopeDigest : Digest) (bundle : ConfigurationDocument host)
      (expectedVersion : Option Int)
  | createRevision (content : RevisionContent host) (reading : Option UtcTime)
  | readRevision (scopeDigest : Digest) (revisionId : RevisionIdentity)
  | readActive (scopeDigest : Digest)
  | compareAndSwapActive (scopeDigest : Digest) (revisionId : RevisionIdentity)
      (expectedRevisionId : Option RevisionIdentity) (expectedVersion : Option Int)

inductive StoreAnswer (host : ConfigurationHost) where
  | draft (record : Option (DraftRecord host))
  | swapped (record : DraftRecord host)
  | revision (record : RevisionRecord host)
  | active (pointer : Option ActivePointer)
  | activated (pointer : ActivePointer)
  deriving DecidableEq

/-- The kind of the error that a store raises; a failure that it does not translate has none. -/
abbrev StoreResult (host : ConfigurationHost) :=
  Except (Option ConfigurationErrorKind) (StoreAnswer host)

def SqliteStore.settle {α : Type} (self : SqliteStore) (answer : α → StoreAnswer host) :
    Except ConfigurationError (α × SqliteStore) → StoreResult host × SqliteStore
  | .ok (value, next) => (.ok (answer value), next)
  | .error error => (.error (some error.kind), self)

def SqliteStore.perform (self : SqliteStore) :
    StoreCommand host → StoreResult host × SqliteStore
  | .readDraft scopeDigest =>
      self.settle .draft ((self.readDraft scopeDigest).map fun draft => (draft, self))
  | .compareAndSwapDraft scopeDigest bundle expectedVersion =>
      self.settle .swapped (self.compareAndSwapDraft scopeDigest bundle expectedVersion)
  | .createRevision content reading =>
      self.settle .revision
        (self.createRevision content.scopeDigest content.bundle content.parent reading)
  | .readRevision scopeDigest revisionId =>
      self.settle .revision
        ((self.readRevision scopeDigest revisionId).map fun record => (record, self))
  | .readActive scopeDigest => self.settle .active (.ok (self.readActive scopeDigest, self))
  | .compareAndSwapActive scopeDigest revisionId expectedRevisionId expectedVersion =>
      self.settle .activated
        (self.compareAndSwapActive scopeDigest revisionId expectedRevisionId expectedVersion)

def AwsFailure.kind : AwsFailure → Option ConfigurationErrorKind
  | .raised error => some error.kind
  | _ => none

def Cloud.settle {α : Type} (answer : α → StoreAnswer host) :
    Except AwsFailure α × Cloud → StoreResult host × Cloud
  | (.ok value, later) => (.ok (answer value), later)
  | (.error failure, later) => (.error failure.kind, later)

def Cloud.perform (self : Cloud) : StoreCommand host → StoreResult host × Cloud
  | .readDraft scopeDigest =>
      Cloud.settle .draft (exec Cloud.serve (AwsStore.readDraft host scopeDigest) self)
  | .compareAndSwapDraft scopeDigest bundle expectedVersion =>
      Cloud.settle .swapped
        (exec Cloud.serve (AwsStore.compareAndSwapDraft scopeDigest bundle expectedVersion) self)
  | .createRevision content reading =>
      Cloud.settle .revision (exec Cloud.serve (AwsStore.createRevision content.scopeDigest
        content.bundle content.parent reading) self)
  | .readRevision scopeDigest revisionId =>
      Cloud.settle .revision (exec Cloud.serve (AwsStore.readRevision host scopeDigest revisionId)
        self)
  | .readActive scopeDigest =>
      Cloud.settle .active (exec Cloud.serve (AwsStore.readActive scopeDigest) self)
  | .compareAndSwapActive scopeDigest revisionId expectedRevisionId expectedVersion =>
      Cloud.settle .activated (exec Cloud.serve (AwsStore.compareAndSwapActive host scopeDigest
        revisionId expectedRevisionId expectedVersion) self)

/-- What a store answers to commands in turn. -/
def answers {State : Type} (perform : State → StoreCommand host → StoreResult host × State) :
    List (StoreCommand host) → State → List (StoreResult host)
  | [], _ => []
  | command :: rest, state =>
      (perform state command).1 :: answers perform rest (perform state command).2

/-- What a command stores as a revision. -/
def StoreCommand.content : StoreCommand host → Option (RevisionContent host)
  | .createRevision content _ => some content
  | _ => none

/-- What a command stores as a draft. -/
def StoreCommand.draftBody : StoreCommand host → Option JsonValue
  | .compareAndSwapDraft scopeDigest bundle _ => some (envelopeValue scopeDigest bundle)
  | _ => none

theorem Alike.settle {α : Type} {agree : SqliteStore → Cloud → Prop}
    {result : Except ConfigurationError (α × SqliteStore)} {served : Except AwsFailure α × Cloud}
    (alike : Alike agree store result served) (answer : α → StoreAnswer host) :
    (store.settle answer result).1 = (Cloud.settle answer served).1 ∧
      agree (store.settle answer result).2 (Cloud.settle answer served).2 := by
  cases alike with
  | succeed agrees => exact ⟨rfl, agrees⟩
  | @refuse error other later same agrees =>
      refine ⟨?_, agrees⟩
      change Except.error (some error.kind) = Except.error (some other.kind)
      rw [same]

section Commands

variable (contentsFree : CollisionFree contents)
  (bodiesFree : ∀ first second, draftBodies first → draftBodies second →
    host.hashing.sha256 (Hashing.canonicalText first) =
      host.hashing.sha256 (Hashing.canonicalText second) → first = second)
include contentsFree bodiesFree

theorem Agree.perform (agree : Agree contents draftBodies store cloud) (command : StoreCommand host)
    (content : ∀ content, command.content = some content → contents content)
    (draftBody : ∀ body, command.draftBody = some body → draftBodies body) :
    (store.perform command).1 = (cloud.perform command).1 ∧
      Agree contents draftBodies (store.perform command).2 (cloud.perform command).2 := by
  cases command with
  | readDraft scopeDigest => exact agree.readDraft.settle _
  | compareAndSwapDraft scopeDigest bundle expectedVersion =>
      exact (agree.compareAndSwapDraft (draftBody _ rfl) bodiesFree).settle _
  | createRevision content reading =>
      exact (agree.createRevision (content _ rfl) contentsFree).settle _
  | readRevision scopeDigest revisionId =>
      simp only [SqliteStore.perform, Cloud.perform]
      rw [agree.exec_readRevision]
      cases store.readRevision scopeDigest revisionId with
      | ok record => exact ⟨rfl, agree⟩
      | error error => exact ⟨rfl, agree⟩
  | readActive scopeDigest =>
      simp only [SqliteStore.perform, Cloud.perform]
      rw [agree.exec_readActive]
      exact ⟨rfl, agree⟩
  | compareAndSwapActive scopeDigest revisionId expectedRevisionId expectedVersion =>
      exact agree.compareAndSwapActive.settle _

theorem Agree.answers (commands : List (StoreCommand host))
    (agree : Agree contents draftBodies store cloud)
    (content : ∀ command ∈ commands, ∀ content, command.content = some content → contents content)
    (draftBody : ∀ command ∈ commands, ∀ body, command.draftBody = some body → draftBodies body) :
    Stores.answers SqliteStore.perform commands store =
      Stores.answers Cloud.perform commands cloud := by
  induction commands generalizing store cloud with
  | nil => rfl
  | cons command rest ih =>
      obtain ⟨same, agrees⟩ := agree.perform contentsFree bodiesFree command
        (content command List.mem_cons_self) (draftBody command List.mem_cons_self)
      rw [Stores.answers, Stores.answers, same]
      congr 1
      exact ih agrees (fun other hother => content other (List.mem_cons_of_mem _ hother))
        fun other hother => draftBody other (List.mem_cons_of_mem _ hother)

end Commands

/-- Whatever commands are given, both stores answer them alike. -/
theorem answers_alike (commands : List (StoreCommand host))
    (contentsFree : CollisionFree fun content : RevisionContent host =>
      ∃ command ∈ commands, command.content = some content)
    (bodiesFree : ∀ first second, (∃ command ∈ commands, command.draftBody = some first) →
      (∃ command ∈ commands, command.draftBody = some second) →
        host.hashing.sha256 (Hashing.canonicalText first) =
          host.hashing.sha256 (Hashing.canonicalText second) → first = second) :
    answers SqliteStore.perform commands .empty = answers Cloud.perform commands .empty :=
  agree_empty.answers contentsFree bodiesFree commands
    (fun command hcommand _ hcontent => ⟨command, hcommand, hcontent⟩)
    fun command hcommand _ hbody => ⟨command, hcommand, hbody⟩

/-! ## A run on both stores -/

/-- Every document is valid, and the hash reads the size of a text. -/
def sizeHost : ConfigurationHost where
  hashing := ⟨fun text => Digest.ofNat text.utf8ByteSize⟩
  validate value := some value

def flowDocument : ConfigurationDocument sizeHost where
  value := .obj [("flow", .str "billing")]
  accepted := rfl
  canonical := by decide +kernel
  bounded := by decide +kernel

def flowScope : Digest := Digest.ofNat 7

def rootContent : RevisionContent sizeHost :=
  ⟨flowScope, flowDocument, none⟩

def childContent : RevisionContent sizeHost :=
  ⟨flowScope, flowDocument, some rootContent.identity⟩

theorem childContent_apart : rootContent.identity ≠ childContent.identity := by
  decide +kernel

/-- A child comes before its parent and again after it; the pointer is moved twice. -/
def flowCommands : List (StoreCommand sizeHost) :=
  [.compareAndSwapDraft flowScope flowDocument none, .createRevision childContent none,
    .createRevision childContent (some ⟨2024, 5, 1, 12, 0, 0, 0⟩),
    .createRevision rootContent (some ⟨2024, 5, 1, 12, 0, 0, 0⟩),
    .createRevision childContent (some ⟨2024, 5, 2, 12, 0, 0, 0⟩),
    .compareAndSwapActive flowScope childContent.identity none none,
    .compareAndSwapActive flowScope rootContent.identity none none, .readActive flowScope]

theorem flowCommands_contents {content : RevisionContent sizeHost}
    (h : ∃ command ∈ flowCommands, command.content = some content) :
    content = rootContent ∨ content = childContent := by
  obtain ⟨command, hcommand, hcontent⟩ := h
  simp only [flowCommands, List.mem_cons, List.not_mem_nil, or_false] at hcommand
  rcases hcommand with rfl | rfl | rfl | rfl | rfl | rfl | rfl | rfl <;> cases hcontent <;> simp

theorem flowCommands_bodies {body : JsonValue}
    (h : ∃ command ∈ flowCommands, command.draftBody = some body) :
    body = envelopeValue flowScope flowDocument := by
  obtain ⟨command, hcommand, hbody⟩ := h
  simp only [flowCommands, List.mem_cons, List.not_mem_nil, or_false] at hcommand
  rcases hcommand with rfl | rfl | rfl | rfl | rfl | rfl | rfl | rfl <;> cases hbody
  rfl

theorem answers_alike_flows :
    answers SqliteStore.perform flowCommands .empty = answers Cloud.perform flowCommands .empty := by
  refine answers_alike flowCommands ?_ ?_
  · intro first second hfirst hsecond same
    rcases flowCommands_contents hfirst with rfl | rfl <;>
      rcases flowCommands_contents hsecond with rfl | rfl
    · rfl
    · exact absurd same childContent_apart
    · exact absurd same.symm childContent_apart
    · rfl
  · intro first second hfirst hsecond _
    rw [flowCommands_bodies hfirst, flowCommands_bodies hsecond]

end Justflow.Stores
