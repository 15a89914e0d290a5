import Justflow.Configuration.Aws

/-!
# Registered revisions

What the items and bodies of the AWS store have to do with one another: a registered revision has
its body, its parent is registered, its child count is the number of its registered children, and
the active pointer names a registered revision.  There is one lemma for each write of the store.
-/

open Fields JsonValue

namespace Justflow.Stores

open AwsStore

/-- What a creation is asked to store. -/
structure RevisionContent (host : ConfigurationHost) where
  scopeDigest : Digest
  bundle : ConfigurationDocument host
  parent : Option RevisionIdentity
  deriving DecidableEq

variable {host : ConfigurationHost}

def RevisionContent.identity (self : RevisionContent host) : RevisionIdentity :=
  configurationRevisionIdentity self.scopeDigest self.bundle self.parent

abbrev Objects := Table ObjectKey JsonValue

/-- The revision is registered: its item is there, and is not a cleanup marker. -/
def Registered (items : Items) (scopeDigest : Digest) (revisionId : RevisionIdentity) : Prop :=
  ∃ item, items.get? (revisionKey scopeDigest revisionId) = some item ∧
    item.recordType = .revision

instance (items : Items) (scopeDigest : Digest) (revisionId : RevisionIdentity) :
    Decidable (Registered items scopeDigest revisionId) :=
  decidable_of_iff ((items.get? (revisionKey scopeDigest revisionId)).any
    fun item => item.recordType = .revision) (by simp [Registered, Option.any_eq_true])

/-- The entry is a revision of the scope with this parent. -/
def childOf (scopeDigest : Digest) (parent : RevisionIdentity) (entry : ItemKey × MetadataItem) :
    Bool :=
  entry.1.scopeDigest = scopeDigest ∧ entry.2.recordType = .revision ∧
    entry.2.parentRevisionId = some parent

/-- The number of existing revisions that name a revision as their parent. -/
def children (items : Items) (scopeDigest : Digest) (revisionId : RevisionIdentity) : Nat :=
  items.count (childOf scopeDigest revisionId)

/-- The body of the content is stored under its identity. -/
def BodyStored (objects : Objects) (content : RevisionContent host) : Prop :=
  objects.get? (revisionBodyKey content.scopeDigest content.identity) =
    some (envelopeValue content.scopeDigest content.bundle)

/-- The item that a revision with this content has. -/
def RevisionContent.item (self : RevisionContent host) (createdAt : UtcTime) (count : Int) :
    MetadataItem :=
  .revision self.scopeDigest self.identity createdAt
    (revisionBodyKey self.scopeDigest self.identity) self.parent count

/-- Items and bodies fit together, and every revision has one of the given contents.  In the middle
of a transaction a child count may be ahead of the children by what is owed. -/
structure Intact (contents : RevisionContent host → Prop)
    (owed : Digest → RevisionIdentity → Int) (objects : Objects) (items : Items) : Prop where
  drafts : ∀ scopeDigest item, items.get? (draftKey scopeDigest) = some item →
    ∃ version bodyKey, item = .draft scopeDigest version bodyKey
  active : ∀ scopeDigest item, items.get? (activeKey scopeDigest) = some item →
    ∃ revisionId version, item = .active scopeDigest revisionId version ∧
      Registered items scopeDigest revisionId
  markers : ∀ scopeDigest revisionId item,
    items.get? (revisionKey scopeDigest revisionId) = some item → item.recordType ≠ .revision →
      item = .cleanup scopeDigest revisionId
  revisions : ∀ scopeDigest revisionId item,
    items.get? (revisionKey scopeDigest revisionId) = some item → item.recordType = .revision →
      ∃ content createdAt, contents content ∧ content.scopeDigest = scopeDigest ∧
        content.identity = revisionId ∧ BodyStored objects content ∧
          item = content.item createdAt
            (children items scopeDigest revisionId + owed scopeDigest revisionId)
  parents : ∀ scopeDigest revisionId item parent,
    items.get? (revisionKey scopeDigest revisionId) = some item → item.recordType = .revision →
      item.parentRevisionId = some parent → Registered items scopeDigest parent

/-- Identities of the given contents determine them, up to the body. -/
def CollisionFree (contents : RevisionContent host → Prop) : Prop :=
  ∀ first second, contents first → contents second → first.identity = second.identity →
    first = second

variable {contents : RevisionContent host → Prop} {owed : Digest → RevisionIdentity → Int}
  {objects : Objects} {items : Items}

theorem intact_empty : Intact contents owed .empty .empty := by
  constructor <;> simp

namespace Intact

theorem entry_revision (intact : Intact contents owed objects items) {key : ItemKey}
    {item : MetadataItem} (found : items.get? key = some item) (h : item.recordType = .revision) :
    ∃ revisionId, key = revisionKey key.scopeDigest revisionId := by
  obtain ⟨scopeDigest, metadataKey⟩ := key
  cases metadataKey with
  | draft =>
      obtain ⟨version, bodyKey, rfl⟩ := intact.drafts _ _ found
      cases h
  | active =>
      obtain ⟨revisionId, version, rfl, _⟩ := intact.active _ _ found
      cases h
  | revision revisionId => exact ⟨revisionId, rfl⟩

/-- A revision that is not registered is nobody's parent. -/
theorem children_eq_zero (intact : Intact contents owed objects items) {scopeDigest : Digest}
    {revisionId : RevisionIdentity} (absent : ¬ Registered items scopeDigest revisionId) :
    children items scopeDigest revisionId = 0 := by
  by_contra hne
  obtain ⟨key, item, found, hchild⟩ := Table.count_pos_iff.mp (Nat.pos_of_ne_zero hne)
  simp only [childOf, decide_eq_true_eq] at hchild
  obtain ⟨hscope, htype, hparent⟩ := hchild
  obtain ⟨child, hkey⟩ := intact.entry_revision found htype
  rw [hkey, hscope] at found
  exact absent (intact.parents _ _ _ _ found htype hparent)

end Intact

/-! ## Writes of bodies -/

theorem Intact.putObject (intact : Intact contents owed objects items) {key : ObjectKey}
    (fresh : objects.get? key = none) (body : JsonValue) :
    Intact contents owed (objects.insert key body) items := by
  refine ⟨intact.drafts, intact.active, intact.markers, ?_, intact.parents⟩
  intro scopeDigest revisionId item found htype
  obtain ⟨content, createdAt, known, hscope, hidentity, stored, hitem⟩ :=
    intact.revisions _ _ _ found htype
  refine ⟨content, createdAt, known, hscope, hidentity, ?_, hitem⟩
  have hne : revisionBodyKey content.scopeDigest content.identity ≠ key := by
    rintro rfl
    rw [BodyStored, fresh] at stored
    cases stored
  rw [BodyStored, Table.get?_insert_ne _ hne]
  exact stored

theorem Intact.deleteObject (intact : Intact contents owed objects items) {scopeDigest : Digest}
    {revisionId : RevisionIdentity} (absent : ¬ Registered items scopeDigest revisionId) :
    Intact contents owed (objects.erase (revisionBodyKey scopeDigest revisionId)) items := by
  refine ⟨intact.drafts, intact.active, intact.markers, ?_, intact.parents⟩
  intro scope revision item found htype
  obtain ⟨content, createdAt, known, rfl, rfl, stored, hitem⟩ :=
    intact.revisions _ _ _ found htype
  refine ⟨content, createdAt, known, rfl, rfl, ?_, hitem⟩
  have hne : revisionBodyKey content.scopeDigest content.identity ≠
      revisionBodyKey scopeDigest revisionId := by
    intro heq
    simp only [revisionBodyKey, ObjectKey.mk.injEq, true_and] at heq
    obtain ⟨rfl, rfl⟩ := heq
    exact absent ⟨item, found, htype⟩
  rw [BodyStored, Table.get?_erase_ne _ hne]
  exact stored

/-! ## Writes of items -/

section Counting

variable {key : ItemKey} {item : MetadataItem} {scopeDigest : Digest}
  {revisionId : RevisionIdentity}

theorem childOf_ne_revision (h : item.recordType ≠ .revision) :
    childOf scopeDigest revisionId (key, item) = false := by
  simp [childOf, h]

theorem children_insert_fresh (fresh : items.get? key = none) :
    children (items.insert key item) scopeDigest revisionId =
      children items scopeDigest revisionId +
        if childOf scopeDigest revisionId (key, item) then 1 else 0 :=
  Table.count_insert_fresh fresh item _

theorem children_insert_of_mem {old : MetadataItem} (found : items.get? key = some old)
    (item : MetadataItem) (scopeDigest : Digest) (revisionId : RevisionIdentity) :
    children (items.insert key item) scopeDigest revisionId +
        (if childOf scopeDigest revisionId (key, old) then 1 else 0) =
      children items scopeDigest revisionId +
        if childOf scopeDigest revisionId (key, item) then 1 else 0 :=
  Table.count_insert_of_mem found item _

theorem children_erase {old : MetadataItem} (found : items.get? key = some old)
    (scopeDigest : Digest) (revisionId : RevisionIdentity) :
    children (items.erase key) scopeDigest revisionId +
        (if childOf scopeDigest revisionId (key, old) then 1 else 0) =
      children items scopeDigest revisionId :=
  Table.count_erase found _

/-- Overwriting an item by one that is nobody's child, where there was none before, changes no
count. -/
theorem children_insert_of_ne (hitem : item.recordType ≠ .revision)
    (hold : ∀ old, items.get? key = some old → old.recordType ≠ .revision) :
    children (items.insert key item) scopeDigest revisionId =
      children items scopeDigest revisionId := by
  cases hfound : items.get? key with
  | none => simp [children_insert_fresh hfound, childOf_ne_revision hitem]
  | some old =>
      have := children_insert_of_mem hfound item scopeDigest revisionId
      simpa [childOf_ne_revision hitem, childOf_ne_revision (hold old hfound)] using this

end Counting

theorem registered_insert_ne {key : ItemKey} {item : MetadataItem} {scopeDigest : Digest}
    {revisionId : RevisionIdentity} (hne : revisionKey scopeDigest revisionId ≠ key) :
    Registered (items.insert key item) scopeDigest revisionId ↔
      Registered items scopeDigest revisionId := by
  simp [Registered, Table.get?_insert_ne _ hne]

theorem registered_insert {key : ItemKey} (item : MetadataItem) (htype : item.recordType = .revision)
    {scopeDigest : Digest} {revisionId : RevisionIdentity}
    (h : Registered items scopeDigest revisionId) :
    Registered (items.insert key item) scopeDigest revisionId := by
  by_cases hkey : revisionKey scopeDigest revisionId = key
  · exact ⟨item, by rw [hkey, Table.get?_insert_self], htype⟩
  · exact (registered_insert_ne hkey).mpr h

@[simp]
theorem revisionKey_scopeDigest (scopeDigest : Digest) (revisionId : RevisionIdentity) :
    (revisionKey scopeDigest revisionId).scopeDigest = scopeDigest := rfl

theorem revisionKey_ne_draftKey (scopeDigest scope : Digest) (revisionId : RevisionIdentity) :
    revisionKey scopeDigest revisionId ≠ draftKey scope := by
  simp [revisionKey, draftKey]

theorem revisionKey_ne_activeKey (scopeDigest scope : Digest) (revisionId : RevisionIdentity) :
    revisionKey scopeDigest revisionId ≠ activeKey scope := by
  simp [revisionKey, activeKey]

theorem revisionKey_inj {scopeDigest scope : Digest} {revisionId revision : RevisionIdentity} :
    revisionKey scopeDigest revisionId = revisionKey scope revision ↔
      scopeDigest = scope ∧ revisionId = revision := by
  simp [revisionKey]

theorem draftKey_inj {scopeDigest scope : Digest} :
    draftKey scopeDigest = draftKey scope ↔ scopeDigest = scope := by
  simp [draftKey]

theorem activeKey_inj {scopeDigest scope : Digest} :
    activeKey scopeDigest = activeKey scope ↔ scopeDigest = scope := by
  simp [activeKey]

theorem draftKey_ne_activeKey (scopeDigest scope : Digest) :
    draftKey scopeDigest ≠ activeKey scope := by
  simp [draftKey, activeKey]

/-- Putting an item that is no revision where there was no revision leaves every revision as it
is. -/
theorem registered_insert_of_ne {key : ItemKey} {item : MetadataItem}
    (hitem : item.recordType ≠ .revision)
    (hold : ∀ old, items.get? key = some old → old.recordType ≠ .revision) {scopeDigest : Digest}
    {revisionId : RevisionIdentity} :
    Registered (items.insert key item) scopeDigest revisionId ↔
      Registered items scopeDigest revisionId := by
  by_cases hkey : revisionKey scopeDigest revisionId = key
  · constructor
    · rintro ⟨found, hfound, htype⟩
      rw [hkey, Table.get?_insert_self] at hfound
      cases hfound
      exact absurd htype hitem
    · rintro ⟨old, hfound, htype⟩
      exact absurd htype (hold old (hkey ▸ hfound))
  · exact registered_insert_ne hkey

theorem registered_erase_of_ne {key : ItemKey}
    (hold : ∀ old, items.get? key = some old → old.recordType ≠ .revision) {scopeDigest : Digest}
    {revisionId : RevisionIdentity} :
    Registered (items.erase key) scopeDigest revisionId ↔
      Registered items scopeDigest revisionId := by
  by_cases hkey : revisionKey scopeDigest revisionId = key
  · constructor
    · rintro ⟨found, hfound, _⟩
      rw [hkey, Table.get?_erase_self] at hfound
      cases hfound
    · rintro ⟨old, hfound, htype⟩
      exact absurd htype (hold old (hkey ▸ hfound))
  · simp [Registered, Table.get?_erase_ne _ hkey]

namespace Intact

variable {scopeDigest : Digest} {revisionId parent : RevisionIdentity}

/-- The lookups of a table after an item other than a revision was put. -/
theorem found_before {key other : ItemKey} {item found : MetadataItem}
    (hitem : item.recordType ≠ .revision) (hfound : (items.insert key item).get? other = some found)
    (htype : found.recordType = .revision) : items.get? other = some found := by
  rw [Table.get?_insert] at hfound
  split at hfound
  · cases hfound
    exact absurd htype hitem
  · exact hfound

/-- Putting an item other than a revision, of the kind that its key asks for, where there was no
revision. -/
theorem put {key : ItemKey} {item : MetadataItem} (intact : Intact contents owed objects items)
    (hitem : item.recordType ≠ .revision)
    (hold : ∀ old, items.get? key = some old → old.recordType ≠ .revision)
    (draft : ∀ scope, draftKey scope = key → ∃ version bodyKey, item = .draft scope version bodyKey)
    (active : ∀ scope, activeKey scope = key → ∃ revision version,
      item = .active scope revision version ∧ Registered items scope revision)
    (marker : ∀ scope revision, revisionKey scope revision = key →
      item = .cleanup scope revision) :
    Intact contents owed objects (items.insert key item) := by
  constructor
  · intro scope other found
    by_cases h : draftKey scope = key
    · rw [h, Table.get?_insert_self] at found
      cases found
      exact draft scope h
    · rw [Table.get?_insert_ne _ h] at found
      exact intact.drafts _ _ found
  · intro scope other found
    simp only [registered_insert_of_ne hitem hold]
    by_cases h : activeKey scope = key
    · rw [h, Table.get?_insert_self] at found
      cases found
      exact active scope h
    · rw [Table.get?_insert_ne _ h] at found
      exact intact.active _ _ found
  · intro scope revision other found htype
    by_cases h : revisionKey scope revision = key
    · rw [h, Table.get?_insert_self] at found
      cases found
      exact marker scope revision h
    · rw [Table.get?_insert_ne _ h] at found
      exact intact.markers _ _ _ found htype
  · intro scope revision other found htype
    rw [children_insert_of_ne hitem hold]
    exact intact.revisions _ _ _ (found_before hitem found htype) htype
  · intro scope revision other parent found htype hparent
    rw [registered_insert_of_ne hitem hold]
    exact intact.parents _ _ _ _ (found_before hitem found htype) htype hparent

theorem putDraft (intact : Intact contents owed objects items) (version : Int) (bodyKey : ObjectKey) :
    Intact contents owed objects
      (items.insert (draftKey scopeDigest) (.draft scopeDigest version bodyKey)) := by
  have hitem : (MetadataItem.draft scopeDigest version bodyKey).recordType ≠ .revision := nofun
  apply intact.put hitem
  · intro old found
    obtain ⟨_, _, rfl⟩ := intact.drafts _ _ found
    nofun
  · intro scope h
    obtain rfl := draftKey_inj.mp h
    exact ⟨version, bodyKey, rfl⟩
  · intro scope h
    exact absurd h.symm (draftKey_ne_activeKey scopeDigest scope)
  · intro scope revision h
    exact absurd h (revisionKey_ne_draftKey scope scopeDigest revision)

theorem putActive (intact : Intact contents owed objects items)
    (registered : Registered items scopeDigest revisionId) (version : Int) :
    Intact contents owed objects
      (items.insert (activeKey scopeDigest) (.active scopeDigest revisionId version)) := by
  have hitem : (MetadataItem.active scopeDigest revisionId version).recordType ≠ .revision := nofun
  apply intact.put hitem
  · intro old found
    obtain ⟨_, _, rfl, _⟩ := intact.active _ _ found
    nofun
  · intro scope h
    exact absurd h (draftKey_ne_activeKey scope scopeDigest)
  · intro scope h
    obtain rfl := activeKey_inj.mp h
    exact ⟨revisionId, version, rfl, registered⟩
  · intro scope revision h
    exact absurd h (revisionKey_ne_activeKey scope scopeDigest revision)

theorem mark (intact : Intact contents owed objects items)
    (fresh : items.get? (revisionKey scopeDigest revisionId) = none) :
    Intact contents owed objects (items.insert (revisionKey scopeDigest revisionId)
      (.cleanup scopeDigest revisionId)) := by
  have hitem : (MetadataItem.cleanup scopeDigest revisionId).recordType ≠ .revision := nofun
  apply intact.put hitem
  · intro old found
    rw [fresh] at found
    cases found
  · intro scope h
    exact absurd h.symm (revisionKey_ne_draftKey scopeDigest scope revisionId)
  · intro scope h
    exact absurd h.symm (revisionKey_ne_activeKey scopeDigest scope revisionId)
  · intro scope revision h
    obtain ⟨rfl, rfl⟩ := revisionKey_inj.mp h
    rfl

/-- What is found after an erasure was there before. -/
theorem found_erased {key other : ItemKey} {found : MetadataItem}
    (hfound : (items.erase key).get? other = some found) :
    other ≠ key ∧ items.get? other = some found := by
  rw [Table.get?_erase] at hfound
  split at hfound
  · cases hfound
  · next hne => exact ⟨hne, hfound⟩

theorem unmark (intact : Intact contents owed objects items) {marker : MetadataItem}
    (found : items.get? (revisionKey scopeDigest revisionId) = some marker)
    (htype : marker.recordType = .revisionCleanup) :
    Intact contents owed objects (items.erase (revisionKey scopeDigest revisionId)) := by
  have hold : ∀ old, items.get? (revisionKey scopeDigest revisionId) = some old →
      old.recordType ≠ .revision := by
    intro old hold
    rw [found] at hold
    cases hold
    simp [htype]
  have hcount : ∀ scope revision, children (items.erase (revisionKey scopeDigest revisionId)) scope
      revision = children items scope revision := by
    intro scope revision
    have := children_erase found scope revision
    simpa [childOf_ne_revision (hold marker found)] using this
  constructor
  · exact fun scope item hitem => intact.drafts _ _ (found_erased hitem).2
  · intro scope item hitem
    obtain ⟨revision, other, hactive, hregistered⟩ := intact.active _ _ (found_erased hitem).2
    exact ⟨revision, other, hactive, (registered_erase_of_ne hold).mpr hregistered⟩
  · exact fun scope revision item hitem => intact.markers _ _ _ (found_erased hitem).2
  · intro scope revision item hitem hrevision
    rw [hcount]
    exact intact.revisions _ _ _ (found_erased hitem).2 hrevision
  · intro scope revision item parent hitem hrevision hparent
    rw [registered_erase_of_ne hold]
    exact intact.parents _ _ _ _ (found_erased hitem).2 hrevision hparent

/-! ## Transactions on revisions -/

/-- What is owed after one revision's debt has changed. -/
def owing (owed : Digest → RevisionIdentity → Int) (scopeDigest : Digest)
    (revisionId : RevisionIdentity) (delta : Int) : Digest → RevisionIdentity → Int :=
  fun scope revision =>
    owed scope revision + if scope = scopeDigest ∧ revision = revisionId then delta else 0

/-- `ADD child_reference_count :delta` on a registered revision. -/
theorem addChildren (intact : Intact contents owed objects items) {item : MetadataItem}
    (found : items.get? (revisionKey scopeDigest revisionId) = some item)
    (htype : item.recordType = .revision) (delta : Int) :
    Intact contents (owing owed scopeDigest revisionId delta) objects
      (items.insert (revisionKey scopeDigest revisionId) (item.addChildren delta)) := by
  have hcount : ∀ scope revision, children (items.insert (revisionKey scopeDigest revisionId)
      (item.addChildren delta)) scope revision = children items scope revision := by
    intro scope revision
    have hchanged := children_insert_of_mem found (item.addChildren delta) scope revision
    have hsame : childOf scope revision (revisionKey scopeDigest revisionId,
        item.addChildren delta) = childOf scope revision (revisionKey scopeDigest revisionId, item) :=
      rfl
    rw [hsame] at hchanged
    omega
  constructor
  · intro scope other hother
    rw [Table.get?_insert_ne _ (revisionKey_ne_draftKey scopeDigest scope revisionId).symm] at hother
    exact intact.drafts _ _ hother
  · intro scope other hother
    rw [Table.get?_insert_ne _ (revisionKey_ne_activeKey scopeDigest scope revisionId).symm]
      at hother
    obtain ⟨revision, version, hactive, hregistered⟩ := intact.active _ _ hother
    exact ⟨revision, version, hactive,
      registered_insert (item.addChildren delta) htype hregistered⟩
  · intro scope revision other hother hne
    by_cases h : revisionKey scope revision = revisionKey scopeDigest revisionId
    · rw [h, Table.get?_insert_self] at hother
      cases hother
      exact absurd htype hne
    · rw [Table.get?_insert_ne _ h] at hother
      exact intact.markers _ _ _ hother hne
  · intro scope revision other hother hrevision
    rw [hcount]
    by_cases h : revisionKey scope revision = revisionKey scopeDigest revisionId
    · obtain ⟨content, createdAt, known, rfl, rfl, stored, hitem⟩ :=
        intact.revisions _ _ _ found htype
      obtain ⟨rfl, rfl⟩ := revisionKey_inj.mp h
      rw [Table.get?_insert_self] at hother
      refine ⟨content, createdAt, known, rfl, rfl, stored, ?_⟩
      rw [← Option.some.inj hother, hitem]
      simp [RevisionContent.item, MetadataItem.revision, MetadataItem.addChildren, owing,
        Int.add_assoc]
    · rw [Table.get?_insert_ne _ h] at hother
      obtain ⟨content, createdAt, known, rfl, rfl, stored, hitem⟩ :=
        intact.revisions _ _ _ hother hrevision
      refine ⟨content, createdAt, known, rfl, rfl, stored, ?_⟩
      have hne : ¬ (content.scopeDigest = scopeDigest ∧ content.identity = revisionId) :=
        fun heq => h (revisionKey_inj.mpr heq)
      simpa [owing, hne] using hitem
  · intro scope revision other parent hother hrevision hparent
    apply registered_insert (item.addChildren delta) htype
    by_cases h : revisionKey scope revision = revisionKey scopeDigest revisionId
    · obtain ⟨rfl, rfl⟩ := revisionKey_inj.mp h
      rw [Table.get?_insert_self] at hother
      cases hother
      exact intact.parents _ _ _ _ found htype hparent
    · rw [Table.get?_insert_ne _ h] at hother
      exact intact.parents _ _ _ _ hother hrevision hparent

/-- What is owed after a revision with this parent has come or gone. -/
def owingParent (owed : Digest → RevisionIdentity → Int) (scopeDigest : Digest) (delta : Int) :
    Option RevisionIdentity → Digest → RevisionIdentity → Int
  | none => owed
  | some parent => owing owed scopeDigest parent delta

/-- A new revision whose body is stored and whose parent is registered. -/
theorem register (intact : Intact contents owed objects items) {content : RevisionContent host}
    (known : contents content) (stored : BodyStored objects content)
    (fresh : items.get? (revisionKey content.scopeDigest content.identity) = none)
    (hparent : ∀ parent, content.parent = some parent →
      Registered items content.scopeDigest parent)
    (debtless : owed content.scopeDigest content.identity = 0) (createdAt : UtcTime) :
    Intact contents (owingParent owed content.scopeDigest (-1) content.parent) objects
      (items.insert (revisionKey content.scopeDigest content.identity)
        (content.item createdAt 0)) := by
  have hitem : (content.item createdAt 0).recordType = .revision := rfl
  have absent : ¬ Registered items content.scopeDigest content.identity := by
    rintro ⟨item, found, _⟩
    rw [fresh] at found
    cases found
  have hself : content.parent ≠ some content.identity := fun h => absent (hparent _ h)
  have hcount : ∀ scope revision,
      (children (items.insert (revisionKey content.scopeDigest content.identity)
        (content.item createdAt 0)) scope revision : Int) +
          owingParent owed content.scopeDigest (-1) content.parent scope revision =
        children items scope revision + owed scope revision := by
    intro scope revision
    rw [children_insert_fresh fresh]
    cases hcase : content.parent with
    | none =>
        simp [owingParent, childOf, RevisionContent.item, MetadataItem.revision, hcase]
    | some parent =>
        by_cases h : scope = content.scopeDigest ∧ revision = parent
        · obtain ⟨rfl, rfl⟩ := h
          simp [owingParent, owing, childOf, RevisionContent.item, MetadataItem.revision, hcase,
            revisionKey]
          omega
        · have h' : ¬ (content.scopeDigest = scope ∧ parent = revision) :=
            fun heq => h ⟨heq.1.symm, heq.2.symm⟩
          simp [owingParent, owing, childOf, RevisionContent.item, MetadataItem.revision, hcase,
            revisionKey, h, h']
  constructor
  · intro scope other hother
    rw [Table.get?_insert_ne _ (revisionKey_ne_draftKey _ scope _).symm] at hother
    exact intact.drafts _ _ hother
  · intro scope other hother
    rw [Table.get?_insert_ne _ (revisionKey_ne_activeKey _ scope _).symm] at hother
    obtain ⟨revision, version, hactive, hregistered⟩ := intact.active _ _ hother
    exact ⟨revision, version, hactive, registered_insert _ hitem hregistered⟩
  · intro scope revision other hother hne
    by_cases h : revisionKey scope revision = revisionKey content.scopeDigest content.identity
    · rw [h, Table.get?_insert_self] at hother
      cases hother
      exact absurd hitem hne
    · rw [Table.get?_insert_ne _ h] at hother
      exact intact.markers _ _ _ hother hne
  · intro scope revision other hother hrevision
    rw [hcount]
    by_cases h : revisionKey scope revision = revisionKey content.scopeDigest content.identity
    · obtain ⟨rfl, rfl⟩ := revisionKey_inj.mp h
      rw [Table.get?_insert_self] at hother
      refine ⟨content, createdAt, known, rfl, rfl, stored, ?_⟩
      rw [← Option.some.inj hother, intact.children_eq_zero absent, debtless]
      rfl
    · rw [Table.get?_insert_ne _ h] at hother
      exact intact.revisions _ _ _ hother hrevision
  · intro scope revision other parent hother hrevision hnamed
    apply registered_insert _ hitem
    by_cases h : revisionKey scope revision = revisionKey content.scopeDigest content.identity
    · obtain ⟨rfl, rfl⟩ := revisionKey_inj.mp h
      rw [Table.get?_insert_self] at hother
      cases hother
      exact hparent _ hnamed
    · rw [Table.get?_insert_ne _ h] at hother
      exact intact.parents _ _ _ _ hother hrevision hnamed

/-- A revision that is nobody's parent and not active goes. -/
theorem unregister (intact : Intact contents owed objects items) {item : MetadataItem}
    (found : items.get? (revisionKey scopeDigest revisionId) = some item)
    (htype : item.recordType = .revision) (leaf : children items scopeDigest revisionId = 0)
    (inactive : ∀ active, items.get? (activeKey scopeDigest) = some active →
      active.revisionId ≠ some revisionId) :
    Intact contents (owingParent owed scopeDigest 1 item.parentRevisionId) objects
      (items.erase (revisionKey scopeDigest revisionId)) := by
  have hcount : ∀ scope revision,
      (children (items.erase (revisionKey scopeDigest revisionId)) scope revision : Int) +
          owingParent owed scopeDigest 1 item.parentRevisionId scope revision =
        children items scope revision + owed scope revision := by
    intro scope revision
    have herase := children_erase found scope revision
    cases hcase : item.parentRevisionId with
    | none =>
        simp only [childOf, hcase, reduceCtorEq, and_false, decide_false, Bool.false_eq_true,
          if_false] at herase
        simp only [owingParent]
        omega
    | some parent =>
        by_cases h : scope = scopeDigest ∧ revision = parent
        · obtain ⟨rfl, rfl⟩ := h
          simp only [childOf, hcase, htype, revisionKey_scopeDigest, and_self, decide_true,
            if_true] at herase
          simp only [owingParent, owing, and_self, if_true]
          omega
        · have h' : ¬ (scopeDigest = scope ∧ parent = revision) :=
            fun heq => h ⟨heq.1.symm, heq.2.symm⟩
          simp only [childOf, hcase, htype, revisionKey_scopeDigest, Option.some.injEq, true_and,
            h', decide_false, Bool.false_eq_true, if_false] at herase
          simp only [owingParent, owing, if_neg h]
          omega
  have hkept : ∀ scope revision, revisionKey scope revision ≠ revisionKey scopeDigest revisionId →
      Registered items scope revision →
        Registered (items.erase (revisionKey scopeDigest revisionId)) scope revision := by
    rintro scope revision hne ⟨other, hother, hrevision⟩
    exact ⟨other, by rwa [Table.get?_erase_ne _ hne], hrevision⟩
  constructor
  · exact fun scope other hother => intact.drafts _ _ (found_erased hother).2
  · intro scope other hother
    have hbefore := (found_erased hother).2
    obtain ⟨revision, version, rfl, hregistered⟩ := intact.active _ _ hbefore
    refine ⟨revision, version, rfl, hkept _ _ ?_ hregistered⟩
    intro heq
    obtain ⟨rfl, rfl⟩ := revisionKey_inj.mp heq
    exact inactive _ hbefore rfl
  · exact fun scope revision other hother => intact.markers _ _ _ (found_erased hother).2
  · intro scope revision other hother hrevision
    rw [hcount]
    exact intact.revisions _ _ _ (found_erased hother).2 hrevision
  · intro scope revision other parent hother hrevision hparent
    have hbefore := (found_erased hother).2
    apply hkept _ _ _ (intact.parents _ _ _ _ hbefore hrevision hparent)
    intro heq
    obtain ⟨rfl, rfl⟩ := revisionKey_inj.mp heq
    have hchild : childOf scope parent (revisionKey scope revision, other) = true := by
      simp [childOf, revisionKey, hrevision, hparent]
    rw [Table.count_eq_zero leaf hbefore] at hchild
    cases hchild

end Intact

end Justflow.Stores
