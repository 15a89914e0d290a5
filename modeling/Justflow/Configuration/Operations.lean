import Justflow.Configuration.Agreement

/-!
# Drafts, revisions and pointers in both stores

One operation of the SQLite store beside the same operation of the AWS store, run on its own, from
stores that agree: the results are equal or the errors are of one kind, and the stores agree again.
Retentions and listings are in modules of their own.
-/

open Fields JsonValue Process

namespace Justflow.Stores

open AwsStore

variable {host : ConfigurationHost} {contents : RevisionContent host → Prop}
  {draftBodies : JsonValue → Prop} {store : SqliteStore} {cloud : Cloud}

/-! ## Attributes -/

@[simp]
theorem requireRecord_draft (scopeDigest : Digest) (version : Int) (bodyKey : ObjectKey) :
    requireRecord (.draft scopeDigest version bodyKey) scopeDigest .draft = .ok () :=
  if_neg (by simp [MetadataItem.draft])

@[simp]
theorem requireRecord_active (scopeDigest : Digest) (revisionId : RevisionIdentity)
    (version : Int) :
    requireRecord (.active scopeDigest revisionId version) scopeDigest .active = .ok () :=
  if_neg (by simp [MetadataItem.active])

@[simp]
theorem requireRecord_item (content : RevisionContent host) (createdAt : UtcTime) (count : Int) :
    requireRecord (content.item createdAt count) content.scopeDigest .revision = .ok () :=
  if_neg (by simp [RevisionContent.item, MetadataItem.revision])

theorem number_of_positive {version : Int} (positive : 1 ≤ version) :
    number (some version) = .ok version := by
  have hnonnegative : ¬ version < 0 := by omega
  have hpositive : ¬ version < 1 := by omega
  simp [number, nonnegativeNumber, hnonnegative, hpositive, Pure.pure, Except.pure, Bind.bind,
    Except.bind]

theorem exec_lift {α : Type} {result : Except ConfigurationError α} {value : α}
    (h : result = .ok value) : exec Cloud.serve (AwsStore.lift result) cloud = (.ok value, cloud) := by
  rw [h]
  rfl

/-! ## Bodies -/

/-- Storing a body where there is none or the same one. -/
theorem exec_putImmutableBody {key : ObjectKey} {body : JsonValue}
    (bounded : canonicalBytes body ≤ maxConfigurationEnvelopeBytes)
    (compatible : ∀ existing, cloud.objects.get? key = some existing → existing = body) :
    exec Cloud.serve (putImmutableBody key body) cloud =
      (.ok (), { cloud with objects := cloud.objects.insert key body }) := by
  cases hfound : cloud.objects.get? key with
  | none =>
      apply exec_sendRequest_ok
      simp only [Cloud.serve, hfound]
  | some existing =>
      obtain rfl := compatible _ hfound
      have hserve : cloud.serve (.putObject key existing) = (.error .conditional, cloud) := by
        simp only [Cloud.serve, hfound]
      rw [putImmutableBody, exec_sendRequest_error hserve, Table.insert_of_get? hfound]
      simp only
      rw [exec_bind_ok (exec_readBody hfound bounded), if_pos rfl]
      rfl

namespace Agree

variable (agree : Agree contents draftBodies store cloud) {scopeDigest : Digest}
include agree

/-- The body of a draft is stored. -/
theorem putDraftBody {bundle : ConfigurationDocument host}
    (known : draftBodies (envelopeValue scopeDigest bundle))
    (collisionFree : ∀ first second, draftBodies first → draftBodies second →
      host.hashing.sha256 (Hashing.canonicalText first) =
        host.hashing.sha256 (Hashing.canonicalText second) → first = second) :
    let body := envelopeValue scopeDigest bundle
    let key := draftBodyKey host scopeDigest body
    exec Cloud.serve (putImmutableBody key body) cloud =
        (.ok (), { cloud with objects := cloud.objects.insert key body }) ∧
      Agree contents draftBodies store { cloud with objects := cloud.objects.insert key body } := by
  have compatible : ∀ existing, cloud.objects.get? (draftBodyKey host scopeDigest
      (envelopeValue scopeDigest bundle)) = some existing →
        existing = envelopeValue scopeDigest bundle := by
    intro existing hfound
    obtain ⟨hknown, hdigest⟩ := agree.draftObjects _ _ _ hfound
    exact collisionFree _ _ hknown known hdigest.symm
  constructor
  · exact exec_putImmutableBody (envelope_bounded _ _) compatible
  · apply agree.insertObject compatible
    · exact fun _ => ⟨known, rfl⟩
    · nofun

/-- The body of a revision is stored. -/
theorem putRevisionBody {content : RevisionContent host} (known : contents content)
    (collisionFree : CollisionFree contents) :
    let body := envelopeValue content.scopeDigest content.bundle
    let key := revisionBodyKey content.scopeDigest content.identity
    exec Cloud.serve (putImmutableBody key body) cloud =
        (.ok (), { cloud with objects := cloud.objects.insert key body }) ∧
      Agree contents draftBodies store { cloud with objects := cloud.objects.insert key body } := by
  have compatible : ∀ existing, cloud.objects.get? (revisionBodyKey content.scopeDigest
      content.identity) = some existing →
        existing = envelopeValue content.scopeDigest content.bundle := by
    intro existing hfound
    obtain ⟨other, hknown, hscope, hidentity, rfl⟩ := agree.revisionObjects _ _ _ hfound
    obtain rfl := collisionFree _ _ hknown known hidentity
    rfl
  constructor
  · exact exec_putImmutableBody (envelope_bounded _ _) compatible
  · apply agree.insertObject compatible
    · nofun
    · exact fun _ => ⟨content, known, rfl, rfl, rfl⟩

/-! ## Drafts -/

theorem readDraft :
    Alike (Agree contents draftBodies) store
      ((store.readDraft scopeDigest).map fun draft => (draft, store))
      (exec Cloud.serve (AwsStore.readDraft host scopeDigest) cloud) := by
  have hdraft := agree.drafts scopeDigest
  rw [AwsStore.readDraft, exec_bind_ok (exec_getMetadata _)]
  cases hrow : store.drafts.get? scopeDigest with
  | none =>
      rw [hrow] at hdraft
      rw [SqliteStore.readDraft, hrow, show cloud.items.get? _ = none from hdraft]
      exact .succeed agree
  | some row =>
      obtain ⟨version, body⟩ := row
      rw [hrow] at hdraft
      obtain ⟨positive, ⟨bundle, rfl⟩, hitem, hobject⟩ := hdraft
      have hread : exec Cloud.serve (readBundle host scopeDigest
          (draftBodyKey host scopeDigest (envelopeValue scopeDigest bundle))) cloud =
            (.ok bundle, cloud) :=
        exec_readBundle rfl hobject fun _ => rfl
      have hversion : number (MetadataItem.draft scopeDigest version (draftBodyKey host scopeDigest
          (envelopeValue scopeDigest bundle))).version = .ok version :=
        number_of_positive positive
      have hbodyKey : stringOf (MetadataItem.draft scopeDigest version (draftBodyKey host scopeDigest
          (envelopeValue scopeDigest bundle))).bodyKey = .ok (draftBodyKey host scopeDigest
            (envelopeValue scopeDigest bundle)) := rfl
      rw [SqliteStore.readDraft, hrow, hitem]
      simp only [readEnvelope_envelope]
      rw [exec_bind_ok (exec_lift (requireRecord_draft _ _ _)),
        exec_bind_ok (exec_lift hversion), exec_bind_ok (exec_lift hbodyKey),
        exec_bind_ok hread]
      exact .succeed agree

theorem draft_absent :
    DynamoCondition.notExists.holds (cloud.items.get? (draftKey scopeDigest)) = true ↔
      (store.drafts.get? scopeDigest).map Prod.fst = none := by
  have hdraft := agree.drafts scopeDigest
  cases hrow : store.drafts.get? scopeDigest with
  | none =>
      rw [hrow] at hdraft
      simp [notExists_holds, show cloud.items.get? (draftKey scopeDigest) = none from hdraft]
  | some row =>
      rw [hrow] at hdraft
      obtain ⟨_, _, hitem, _⟩ := hdraft
      simp [notExists_holds, hitem]

/-- The version that the AWS store compares is the one that the SQLite store compares. -/
theorem draft_version (expected : Int) :
    (DynamoCondition.versionIs expected).holds (cloud.items.get? (draftKey scopeDigest)) = true ↔
      (store.drafts.get? scopeDigest).map Prod.fst = some expected := by
  have hdraft := agree.drafts scopeDigest
  cases hrow : store.drafts.get? scopeDigest with
  | none =>
      rw [hrow] at hdraft
      rw [show cloud.items.get? (draftKey scopeDigest) = none from hdraft]
      simp [DynamoCondition.holds]
  | some row =>
      rw [hrow] at hdraft
      obtain ⟨_, _, hitem, _⟩ := hdraft
      simp [DynamoCondition.holds, hitem, MetadataItem.draft]

theorem compareAndSwapDraft {bundle : ConfigurationDocument host} {expectedVersion : Option Int}
    (known : draftBodies (envelopeValue scopeDigest bundle))
    (collisionFree : ∀ first second, draftBodies first → draftBodies second →
      host.hashing.sha256 (Hashing.canonicalText first) =
        host.hashing.sha256 (Hashing.canonicalText second) → first = second) :
    Alike (Agree contents draftBodies) store
      (store.compareAndSwapDraft scopeDigest bundle expectedVersion)
      (exec Cloud.serve (AwsStore.compareAndSwapDraft scopeDigest bundle expectedVersion) cloud) := by
  obtain ⟨hput, stored⟩ := agree.putDraftBody known collisionFree
  simp only [AwsStore.compareAndSwapDraft, SqliteStore.compareAndSwapDraft, envelopeBytes_eq]
  rw [exec_bind_ok (exec_lift rfl), exec_bind_ok hput]
  by_cases current : (store.drafts.get? scopeDigest).map Prod.fst = expectedVersion
  · subst current
    cases hrow : store.drafts.get? scopeDigest with
    | none =>
        have absent := stored.draft_absent.mpr (congrArg (Option.map Prod.fst) hrow)
        have saved := stored.saveDraft (Int.le_refl 1) (Table.get?_insert_self _ _ _)
        simp only [Option.map_none]
        rw [exec_bind_ok (exec_conditionalPut_ok absent)]
        exact .succeed saved
    | some row =>
        have hversion := (stored.draft_version row.1).mpr (congrArg (Option.map Prod.fst) hrow)
        have positive : 1 ≤ row.1 + 1 := by
          have hdraft := agree.drafts scopeDigest
          rw [hrow] at hdraft
          have := hdraft.1
          omega
        have saved := stored.saveDraft positive (Table.get?_insert_self _ _ _)
        simp only [Option.map_some]
        rw [exec_bind_ok (exec_conditionalPut_ok hversion)]
        simp only [ne_eq, not_true_eq_false, if_false]
        exact .succeed saved
  · simp only [ne_eq, current, not_false_eq_true, if_true]
    cases expectedVersion with
    | none =>
        rw [exec_bind_error (exec_conditionalPut_conflict (mt stored.draft_absent.mp current))]
        exact .refuse rfl stored
    | some expected =>
        rw [exec_bind_error
          (exec_conditionalPut_conflict (mt (stored.draft_version expected).mp current))]
        exact .refuse rfl stored

end Agree

end Justflow.Stores
