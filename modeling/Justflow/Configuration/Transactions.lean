import Justflow.Configuration.Revisions

/-!
# Transactions of the AWS store

What a transaction that was accepted found and wrote, operation by operation, and that each of
the store's transactions leaves items and bodies fitting together.
-/

open Fields JsonValue

namespace Justflow.Stores

open AwsStore

variable {host : ConfigurationHost} {contents : RevisionContent host → Prop}

/-- No child count is ahead. -/
def debtless : Digest → RevisionIdentity → Int := fun _ _ => 0

variable (contents) in
/-- Every revision of the store is whole, and between transactions nothing is owed. -/
def Whole (world : Cloud) : Prop :=
  Intact contents debtless world.objects world.items

/-! ## Operations -/

/-- What an accepted operation found, and what it wrote. -/
theorem write_cases {items next : Items} {operation : DynamoOperation}
    (h : operation.write items = some next) :
    match operation with
    | .conditionCheck key condition =>
        condition.holds (items.get? key) = true ∧ items = next
    | .put key item condition =>
        condition.holds (items.get? key) = true ∧ next = items.insert key item
    | .delete key condition =>
        condition.holds (items.get? key) = true ∧ next = items.erase key
    | .addChildren key delta condition =>
        ∃ item, items.get? key = some item ∧ condition.holds (some item) = true ∧
          next = items.insert key (item.addChildren delta) := by
  cases operation with
  | conditionCheck key condition =>
      simp only [DynamoOperation.write] at h
      split at h
      · next holds => exact ⟨holds, Option.some.inj h⟩
      · cases h
  | put key item condition =>
      simp only [DynamoOperation.write] at h
      split at h
      · next holds => exact ⟨holds, (Option.some.inj h).symm⟩
      · cases h
  | delete key condition =>
      simp only [DynamoOperation.write] at h
      split at h
      · next holds => exact ⟨holds, (Option.some.inj h).symm⟩
      · cases h
  | addChildren key delta condition =>
      simp only [DynamoOperation.write] at h
      split at h
      · next item found =>
          split at h
          · next holds => exact ⟨item, found, holds, (Option.some.inj h).symm⟩
          · cases h
      · cases h

theorem write_conditionCheck {items next : Items} {key : ItemKey} {condition : DynamoCondition}
    (h : (DynamoOperation.conditionCheck key condition).write items = some next) :
    condition.holds (items.get? key) = true ∧ items = next :=
  write_cases h

theorem write_put {items next : Items} {key : ItemKey} {item : MetadataItem}
    {condition : DynamoCondition}
    (h : (DynamoOperation.put key item condition).write items = some next) :
    condition.holds (items.get? key) = true ∧ next = items.insert key item :=
  write_cases h

theorem write_delete {items next : Items} {key : ItemKey} {condition : DynamoCondition}
    (h : (DynamoOperation.delete key condition).write items = some next) :
    condition.holds (items.get? key) = true ∧ next = items.erase key :=
  write_cases h

theorem write_addChildren {items next : Items} {key : ItemKey} {delta : Int}
    {condition : DynamoCondition}
    (h : (DynamoOperation.addChildren key delta condition).write items = some next) :
    ∃ item, items.get? key = some item ∧ condition.holds (some item) = true ∧
      next = items.insert key (item.addChildren delta) :=
  write_cases h

theorem transact_cons {operation : DynamoOperation} {rest : List DynamoOperation}
    {items next : Items}
    (h : (operation :: rest).foldlM DynamoOperation.write items = some next) :
    ∃ middle, operation.write items = some middle ∧
      rest.foldlM DynamoOperation.write middle = some next := by
  rw [List.foldlM_cons] at h
  exact Option.bind_eq_some_iff.mp h

/-- What each condition asks of an item. -/
theorem holds_iff {condition : DynamoCondition} {item : Option MetadataItem} :
    condition.holds item = true ↔
      match condition with
      | .notExists => item = none
      | .isRevision => ∃ found, item = some found ∧ found.recordType = .revision
      | .isLeaf => ∃ found, item = some found ∧ found.recordType = .revision ∧
          found.childReferenceCount = some 0
      | .pointerIsNot revisionId => ∀ found, item = some found → found.revisionId ≠ some revisionId
      | .isCleanup => ∃ found, item = some found ∧ found.recordType = .revisionCleanup
      | condition => condition.holds item = true := by
  cases condition <;> cases item <;> simp [DynamoCondition.holds]

theorem notExists_holds {item : Option MetadataItem} :
    DynamoCondition.notExists.holds item = true ↔ item = none :=
  holds_iff

theorem isRevision_holds {item : Option MetadataItem} :
    DynamoCondition.isRevision.holds item = true ↔
      ∃ found, item = some found ∧ found.recordType = .revision :=
  holds_iff

theorem isLeaf_holds {item : Option MetadataItem} :
    DynamoCondition.isLeaf.holds item = true ↔
      ∃ found, item = some found ∧ found.recordType = .revision ∧
        found.childReferenceCount = some 0 :=
  holds_iff

theorem pointerIsNot_holds {revisionId : RevisionIdentity} {item : Option MetadataItem} :
    (DynamoCondition.pointerIsNot revisionId).holds item = true ↔
      ∀ found, item = some found → found.revisionId ≠ some revisionId :=
  holds_iff

theorem isCleanup_holds {item : Option MetadataItem} :
    DynamoCondition.isCleanup.holds item = true ↔
      ∃ found, item = some found ∧ found.recordType = .revisionCleanup :=
  holds_iff

/-! ## The transactions of the store -/

section Transactions

variable {objects : Objects} {items next : Items}

theorem Intact.activated (intact : Intact contents debtless objects items) {scopeDigest : Digest}
    {revisionId : RevisionIdentity} {version : Int} {expectedRevisionId : Option RevisionIdentity}
    {expectedVersion : Option Int}
    (h : (activateOperations scopeDigest revisionId version expectedRevisionId
      expectedVersion).foldlM DynamoOperation.write items = some next) :
    Intact contents debtless objects next := by
  obtain ⟨middle, hcheck, h⟩ := transact_cons h
  obtain ⟨last, hput, h⟩ := transact_cons h
  obtain ⟨holds, rfl⟩ := write_conditionCheck hcheck
  obtain ⟨_, rfl⟩ := write_put hput
  cases h
  exact intact.putActive (isRevision_holds.mp holds) version

theorem Intact.registeredRoot (intact : Intact contents debtless objects items)
    {content : RevisionContent host} (known : contents content) (root : content.parent = none)
    (stored : BodyStored objects content) (createdAt : UtcTime)
    (h : (DynamoOperation.put (revisionKey content.scopeDigest content.identity)
      (content.item createdAt 0) .notExists).write items = some next) :
    Intact contents debtless objects next := by
  obtain ⟨holds, rfl⟩ := write_put h
  have registered := intact.register known stored (notExists_holds.mp holds)
    (fun parent hparent => by rw [root] at hparent; cases hparent) rfl createdAt
  rwa [root] at registered

theorem Intact.registeredChild (intact : Intact contents debtless objects items)
    {content : RevisionContent host} (known : contents content) {parent : RevisionIdentity}
    (child : content.parent = some parent) (stored : BodyStored objects content)
    (createdAt : UtcTime)
    (h : (createChildOperations content.scopeDigest (content.item createdAt 0) content.identity
      parent).foldlM DynamoOperation.write items = some next) :
    Intact contents debtless objects next := by
  obtain ⟨middle, hadd, h⟩ := transact_cons h
  obtain ⟨last, hput, h⟩ := transact_cons h
  obtain ⟨item, found, holds, rfl⟩ := write_addChildren hadd
  obtain ⟨fresh, rfl⟩ := write_put hput
  cases h
  have htype : item.recordType = .revision := by
    simpa [DynamoCondition.holds] using holds
  have absent := notExists_holds.mp fresh
  have hne : revisionKey content.scopeDigest content.identity ≠
      revisionKey content.scopeDigest parent := by
    intro heq
    rw [heq, Table.get?_insert_self] at absent
    cases absent
  have counted := intact.addChildren found htype 1
  have registered := counted.register known stored absent ?_ ?_ createdAt
  · -- the count that was added in advance is the one that the new child adds
    have settled : owingParent (owing debtless content.scopeDigest parent 1) content.scopeDigest
        (-1) content.parent = debtless := by
      funext scope revision
      simp only [child, owingParent, owing, debtless]
      split <;> rfl
    rwa [settled] at registered
  · intro other hother
    rw [child] at hother
    cases hother
    exact ⟨_, Table.get?_insert_self _ _ _, htype⟩
  · have hrevision : ¬ (content.identity = parent) := by
      rintro heq
      exact hne (by rw [heq])
    simp [owing, debtless, hrevision]

theorem Intact.marked (intact : Intact contents debtless objects items) {scopeDigest : Digest}
    {revisionId : RevisionIdentity}
    (h : (markOperations scopeDigest revisionId).foldlM DynamoOperation.write items = some next) :
    Intact contents debtless objects next := by
  obtain ⟨middle, hcheck, h⟩ := transact_cons h
  obtain ⟨last, hput, h⟩ := transact_cons h
  obtain ⟨_, rfl⟩ := write_conditionCheck hcheck
  obtain ⟨fresh, rfl⟩ := write_put hput
  cases h
  exact intact.mark (notExists_holds.mp fresh)

theorem Intact.unmarked (intact : Intact contents debtless objects items) {scopeDigest : Digest}
    {revisionId : RevisionIdentity}
    (h : (DynamoOperation.delete (revisionKey scopeDigest revisionId) .isCleanup).write items =
      some next) : Intact contents debtless objects next := by
  obtain ⟨holds, rfl⟩ := write_delete h
  obtain ⟨marker, found, htype⟩ := isCleanup_holds.mp holds
  exact intact.unmark found htype

theorem Intact.unregistered (intact : Intact contents debtless objects items)
    (collisionFree : CollisionFree contents) {content : RevisionContent host}
    (known : contents content)
    (h : (deleteOperations content.scopeDigest content.identity content.parent).foldlM
      DynamoOperation.write items = some next) : Intact contents debtless objects next := by
  obtain ⟨middle, hcheck, h⟩ := transact_cons h
  obtain ⟨last, hdelete, h⟩ := transact_cons h
  obtain ⟨pointed, rfl⟩ := write_conditionCheck hcheck
  obtain ⟨holds, rfl⟩ := write_delete hdelete
  obtain ⟨item, found, htype, hcount⟩ := isLeaf_holds.mp holds
  obtain ⟨other, createdAt, hknown, hscope, hidentity, _, rfl⟩ :=
    intact.revisions _ _ _ found htype
  obtain rfl := collisionFree _ _ hknown known hidentity
  have leaf : children items other.scopeDigest other.identity = 0 := by
    simpa [RevisionContent.item, MetadataItem.revision, debtless] using hcount
  have gone := intact.unregister found htype leaf (pointerIsNot_holds.mp pointed)
  have hparent : (other.item createdAt (children items other.scopeDigest other.identity +
    debtless other.scopeDigest other.identity)).parentRevisionId = other.parent := rfl
  rw [hparent] at gone
  cases hcase : other.parent with
  | none =>
      rw [hcase] at h gone
      cases h
      exact gone
  | some parent =>
      rw [hcase] at h gone
      obtain ⟨final, hadd, h⟩ := transact_cons h
      obtain ⟨parentItem, hfound, hholds, rfl⟩ := write_addChildren hadd
      cases h
      have hrevision : parentItem.recordType = .revision := by
        simp only [DynamoCondition.holds, decide_eq_true_eq] at hholds
        exact hholds.1
      have counted := gone.addChildren hfound hrevision (-1)
      have settled : owing (owingParent debtless other.scopeDigest 1 (some parent))
          other.scopeDigest parent (-1) = debtless := by
        funext scope revision
        simp only [owingParent, owing, debtless]
        split <;> rfl
      rwa [settled] at counted

end Transactions

end Justflow.Stores
