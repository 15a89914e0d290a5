import Justflow.Definitions.ManifestTrees

/-!
# Publications of manifests

A publication writes the manifests of a configuration one by one, none of them over another one,
and then replaces the aliases if nobody else has.  It can be stopped anywhere, and others can run
beside it.  The manifests are written in the order in which they are built, children first, and the
aliases of one configuration are replaced as a whole: whatever is stored has its children stored,
and whatever is active has its children active.
-/

open Fields

namespace Justflow

namespace CatalogPublications

/-- What a backend holds: the manifests, and the aliases with their version. -/
structure StoredDefinitions where
  manifests : Table DefinitionKey DefinitionManifest := .empty
  aliases : Table String Digest := .empty
  aliasVersion : Nat := 0

/-- A publication: what it has written and what it has still to write, and the version of the
aliases that it has loaded. -/
structure Publisher where
  written : List DefinitionManifest
  remaining : List DefinitionManifest
  aliases : Table String Digest
  expectedVersion : Nat

structure World where
  stored : StoredDefinitions := {}
  publishers : List Publisher := []

/-- What happens: a publication of a configuration starts, or a publication that is under way
writes its next manifest or replaces the aliases. -/
inductive Event where
  | publish (inputs : ManifestInputs)
  | write (index : Nat)
  | replaceAliases (index : Nat)

variable (hashing : Hashing) (identities : ContractIdentities)

/-- Equality of manifests, which have their digest among their fields. -/
def sameDefinition (first second : DefinitionManifest) : Bool :=
  decide (first.definitionDigest hashing = second.definitionDigest hashing ∧
    first.dump.wire = second.dump.wire)

/-- The beginning of `publish`. -/
def Publisher.start (authored : Table String DefinitionManifest) (aliasVersion : Nat) :
    Publisher where
  written := []
  remaining := authored.entries.map Prod.snd
  aliases := authored.mapValues fun _ manifest => manifest.definitionDigest hashing
  expectedVersion := aliasVersion

/-- A manifest has been written. -/
def Publisher.advance (self : Publisher) (manifest : DefinitionManifest)
    (remaining : List DefinitionManifest) : Publisher :=
  { self with written := self.written ++ [manifest], remaining }

/-- `create_immutable`: an object is kept if it is there; another one under its key is a
conflict. -/
def StoredDefinitions.createImmutable (self : StoredDefinitions) (manifest : DefinitionManifest) :
    Option StoredDefinitions :=
  match self.manifests.get? (manifest.key hashing) with
  | none => some { self with manifests := self.manifests.insert (manifest.key hashing) manifest }
  | some prior => if sameDefinition hashing prior manifest then some self else none

/-- `compare_and_swap` of the aliases. -/
def StoredDefinitions.replaceAliases (self : StoredDefinitions) (publisher : Publisher) :
    StoredDefinitions :=
  if publisher.expectedVersion = self.aliasVersion then
    { self with aliases := publisher.aliases, aliasVersion := self.aliasVersion + 1 }
  else self

/-- One step; a publication that meets a conflict does not go on. -/
def World.step (self : World) : Event → World
  | .publish inputs =>
      match inputs.buildDefinitionManifests hashing identities with
      | .error _ => self
      | .ok authored => { self with
          publishers := self.publishers ++
            [Publisher.start hashing authored self.stored.aliasVersion] }
  | .write index =>
      match self.publishers[index]? with
      | none => self
      | some publisher =>
          match publisher.remaining with
          | [] => self
          | manifest :: remaining =>
              match self.stored.createImmutable hashing manifest with
              | none => self
              | some stored => {
                  stored
                  publishers := self.publishers.set index (publisher.advance manifest remaining) }
  | .replaceAliases index =>
      match self.publishers[index]? with
      | none => self
      | some publisher =>
          match publisher.remaining with
          | [] => { self with stored := self.stored.replaceAliases publisher }
          | _ :: _ => self

/-- The world after a run from an empty catalog. -/
def run (events : List Event) : World :=
  events.foldl (World.step hashing identities) {}

/-! ## What a publication has to write -/

variable {hashing identities}

/-- The key that a manifest pins a child by. -/
def pinnedKey (child : ChildDefinitionIdentity) : DefinitionKey :=
  (child.workflow, child.definitionDigest)

/-- Manifests stand after their children. -/
def ChildrenFirst (hashing : Hashing) (manifests : List DefinitionManifest) : Prop :=
  ∀ before manifest after, manifests = before ++ manifest :: after →
    ∀ child ∈ manifest.children, ∃ earlier ∈ before, earlier.key hashing = pinnedKey child

/-- Aliases name manifests, and with them the children of these. -/
def Consistent (hashing : Hashing) (aliases : Table String Digest)
    (manifests : List DefinitionManifest) : Prop :=
  ∀ name digest, aliases.get? name = some digest → ∃ manifest ∈ manifests,
    manifest.key hashing = (name, digest) ∧
      ∀ child ∈ manifest.children, aliases.get? child.workflow = some child.definitionDigest

/-- What a manifest that is built says of its children. -/
theorem children_of_gives {inputs : ManifestInputs} {name : String} {manifest : DefinitionManifest}
    (h : Memoization.Gives (inputs.rules hashing identities) name manifest)
    {child : ChildDefinitionIdentity} (mem : child ∈ manifest.children) :
    Memoization.Needs (inputs.rules hashing identities) name child.workflow ∧
      ∃ pinned, Memoization.Gives (inputs.rules hashing identities) child.workflow pinned ∧
        pinned.key hashing = pinnedKey child := by
  obtain ⟨known, below, made⟩ := h
  rw [(ManifestInputs.made_children made).2, List.map_map] at mem
  obtain ⟨other, listed, rfl⟩ := List.mem_map.mp mem
  refine ⟨.of_known known listed, _, below other listed, ?_⟩
  rw [DefinitionManifest.key, ManifestInputs.logicalName_of_gives (below other listed)]
  rfl

theorem key_of_gives {inputs : ManifestInputs} {name : String} {manifest : DefinitionManifest}
    (h : Memoization.Gives (inputs.rules hashing identities) name manifest) :
    manifest.key hashing = (name, manifest.definitionDigest hashing) := by
  rw [DefinitionManifest.key, ManifestInputs.logicalName_of_gives h]

/-- The manifests are built children first. -/
theorem childrenFirst_of_built {inputs : ManifestInputs}
    {authored : Table String DefinitionManifest}
    (h : inputs.buildDefinitionManifests hashing identities = .ok authored) :
    ChildrenFirst hashing (authored.entries.map Prod.snd) := by
  intro before manifest after split child mem
  obtain ⟨earlier, rest, entries, rfl, later⟩ := List.map_eq_append_iff.mp split
  obtain ⟨⟨name, found⟩, tail, rfl, rfl, rfl⟩ := List.map_eq_cons_iff.mp later
  have given := (ManifestInputs.gives_iff h).mp
    (Table.mem_entries_iff.mp (entries ▸ by simp : (name, found) ∈ authored.entries))
  obtain ⟨edge, pinned, given', key⟩ := children_of_gives given mem
  have listed := Memoization.buildAll_ordered h earlier name found tail entries _ edge
  obtain ⟨entry, inside, same⟩ := List.mem_map.mp listed
  refine ⟨entry.2, List.mem_map_of_mem inside, ?_⟩
  have here := (ManifestInputs.gives_iff h).mp
    (Table.mem_entries_iff.mp (entries ▸ by simp [inside] : entry ∈ authored.entries))
  rw [same] at here
  rw [here.unique given', key]

theorem consistent_of_built {inputs : ManifestInputs} {authored : Table String DefinitionManifest}
    (h : inputs.buildDefinitionManifests hashing identities = .ok authored) :
    Consistent hashing (authored.mapValues fun _ manifest => manifest.definitionDigest hashing)
      (authored.entries.map Prod.snd) := by
  intro name digest found
  rw [Table.get?_mapValues, Option.map_eq_some_iff] at found
  obtain ⟨manifest, here, rfl⟩ := found
  have given := (ManifestInputs.gives_iff h).mp here
  refine ⟨manifest, List.mem_map_of_mem (Table.mem_entries_iff.mpr here), key_of_gives given,
    fun child mem => ?_⟩
  obtain ⟨-, pinned, given', key⟩ := children_of_gives given mem
  rw [Table.get?_mapValues, (ManifestInputs.gives_iff h).mpr given']
  rw [key_of_gives given', pinnedKey, Prod.mk.injEq] at key
  rw [Option.map_some, key.2]

/-! ## What holds in every run -/

/-- The manifests that are stored stand under their keys, with their children. -/
structure Stored (hashing : Hashing) (manifests : Table DefinitionKey DefinitionManifest) :
    Prop where
  keyed : ∀ key manifest, manifests.get? key = some manifest → manifest.key hashing = key
  closed : ∀ key manifest, manifests.get? key = some manifest → ∀ child ∈ manifest.children,
    ∃ pinned, manifests.get? (pinnedKey child) = some pinned

/-- A publication goes by a list of manifests, children first, of which a part is stored. -/
structure Publisher.Proceeds (hashing : Hashing) (publisher : Publisher)
    (manifests : Table DefinitionKey DefinitionManifest) : Prop where
  childrenFirst : ChildrenFirst hashing (publisher.written ++ publisher.remaining)
  consistent : Consistent hashing publisher.aliases (publisher.written ++ publisher.remaining)
  stored : ∀ manifest ∈ publisher.written, ∃ prior,
    manifests.get? (manifest.key hashing) = some prior ∧ prior.children = manifest.children

/-- The active definitions are stored, and their children are active. -/
def Active (stored : StoredDefinitions) : Prop :=
  ∀ name digest, stored.aliases.get? name = some digest →
    ∃ manifest, stored.manifests.get? (name, digest) = some manifest ∧
      ∀ child ∈ manifest.children, stored.aliases.get? child.workflow = some child.definitionDigest

structure World.Holds (hashing : Hashing) (world : World) : Prop where
  stored : Stored hashing world.stored.manifests
  publishers : ∀ publisher ∈ world.publishers,
    publisher.Proceeds hashing world.stored.manifests
  active : Active world.stored

theorem holds_start : World.Holds hashing {} where
  stored := ⟨fun _ _ found => (by cases found), fun _ _ found => (by cases found)⟩
  publishers := by simp
  active _ _ found := by cases found

theorem Publisher.proceeds_start {inputs : ManifestInputs}
    {authored : Table String DefinitionManifest} (aliasVersion : Nat)
    (h : inputs.buildDefinitionManifests hashing identities = .ok authored)
    (manifests : Table DefinitionKey DefinitionManifest) :
    (Publisher.start hashing authored aliasVersion).Proceeds hashing manifests where
  childrenFirst := childrenFirst_of_built h
  consistent := consistent_of_built h
  stored := by simp [Publisher.start]

/-- Every stored definition of one catalog is one of the other. -/
def Extends (before after : Table DefinitionKey DefinitionManifest) : Prop :=
  ∀ key manifest, before.get? key = some manifest → after.get? key = some manifest

theorem Publisher.Proceeds.extend {publisher : Publisher}
    {before after : Table DefinitionKey DefinitionManifest}
    (h : publisher.Proceeds hashing before) (extends_ : Extends before after) :
    publisher.Proceeds hashing after where
  childrenFirst := h.childrenFirst
  consistent := h.consistent
  stored manifest mem := by
    obtain ⟨prior, found, same⟩ := h.stored manifest mem
    exact ⟨prior, extends_ _ _ found, same⟩

/-- What a write does: the manifest is there afterwards, and nothing else has changed. -/
theorem createImmutable_cases {stored after : StoredDefinitions} {manifest : DefinitionManifest}
    (h : stored.createImmutable hashing manifest = some after) :
    (after = stored ∧ ∃ prior, stored.manifests.get? (manifest.key hashing) = some prior ∧
      prior.children = manifest.children) ∨
    (stored.manifests.get? (manifest.key hashing) = none ∧
      after = { stored with
        manifests := stored.manifests.insert (manifest.key hashing) manifest }) := by
  rw [StoredDefinitions.createImmutable] at h
  cases found : stored.manifests.get? (manifest.key hashing) with
  | none =>
      rw [found] at h
      exact .inr ⟨rfl, (Option.some.inj h).symm⟩
  | some prior =>
      rw [found] at h
      simp only at h
      split at h
      · next same =>
          simp only [sameDefinition, decide_eq_true_eq] at same
          exact .inl ⟨(Option.some.inj h).symm, prior, rfl,
            ManifestInputs.children_of_wire same.2⟩
      · cases h

theorem extends_insert {manifests : Table DefinitionKey DefinitionManifest} {key : DefinitionKey}
    (absent : manifests.get? key = none) (manifest : DefinitionManifest) :
    Extends manifests (manifests.insert key manifest) := by
  intro other found here
  rw [Table.get?_insert_ne]
  · exact here
  · rintro rfl
    rw [absent] at here
    cases here

theorem createImmutable_extends {stored after : StoredDefinitions} {manifest : DefinitionManifest}
    (h : stored.createImmutable hashing manifest = some after) :
    Extends stored.manifests after.manifests := by
  rcases createImmutable_cases h with ⟨rfl, -⟩ | ⟨absent, rfl⟩
  · exact fun _ _ found => found
  · exact extends_insert absent manifest

/-- The children of the manifest that a publication writes next are stored. -/
theorem Publisher.Proceeds.children_stored {publisher : Publisher} {manifest : DefinitionManifest}
    {remaining : List DefinitionManifest} {manifests : Table DefinitionKey DefinitionManifest}
    (h : publisher.Proceeds hashing manifests)
    (next : publisher.remaining = manifest :: remaining) {child : ChildDefinitionIdentity}
    (mem : child ∈ manifest.children) :
    ∃ pinned, manifests.get? (pinnedKey child) = some pinned := by
  obtain ⟨earlier, inside, key⟩ :=
    h.childrenFirst publisher.written manifest remaining (by rw [next]) child mem
  obtain ⟨prior, found, -⟩ := h.stored earlier inside
  exact ⟨prior, key ▸ found⟩

theorem Publisher.Proceeds.advance {publisher : Publisher} {manifest prior : DefinitionManifest}
    {remaining : List DefinitionManifest} {manifests : Table DefinitionKey DefinitionManifest}
    (h : publisher.Proceeds hashing manifests)
    (next : publisher.remaining = manifest :: remaining)
    (found : manifests.get? (manifest.key hashing) = some prior)
    (same : prior.children = manifest.children) :
    (publisher.advance manifest remaining).Proceeds hashing manifests := by
  have whole : (publisher.advance manifest remaining).written ++
      (publisher.advance manifest remaining).remaining =
        publisher.written ++ publisher.remaining := by
    simp [Publisher.advance, next]
  refine ⟨whole ▸ h.childrenFirst, whole ▸ h.consistent, fun written mem => ?_⟩
  rcases List.mem_append.mp mem with mem | mem
  · exact h.stored written mem
  · cases List.mem_singleton.mp mem
    exact ⟨prior, found, same⟩

theorem Stored.insert {manifests : Table DefinitionKey DefinitionManifest}
    {manifest : DefinitionManifest} (h : Stored hashing manifests)
    (absent : manifests.get? (manifest.key hashing) = none)
    (children : ∀ child ∈ manifest.children,
      ∃ pinned, manifests.get? (pinnedKey child) = some pinned) :
    Stored hashing (manifests.insert (manifest.key hashing) manifest) := by
  have grows := extends_insert absent manifest
  refine ⟨fun key found here => ?_, fun key found here child mem => ?_⟩
  · rw [Table.get?_insert] at here
    split at here
    · next same =>
        cases here
        exact same.symm
    · exact h.keyed key found here
  · rw [Table.get?_insert] at here
    split at here
    · cases here
      obtain ⟨pinned, there⟩ := children child mem
      exact ⟨pinned, grows _ _ there⟩
    · obtain ⟨pinned, there⟩ := h.closed key found here child mem
      exact ⟨pinned, grows _ _ there⟩

theorem World.Holds.publish {world : World} (h : world.Holds hashing) (inputs : ManifestInputs) :
    (world.step hashing identities (.publish inputs)).Holds hashing := by
  rw [World.step]
  cases built : inputs.buildDefinitionManifests hashing identities with
  | error error => exact h
  | ok authored =>
      refine ⟨h.stored, fun publisher mem => ?_, h.active⟩
      rcases List.mem_append.mp mem with mem | mem
      · exact h.publishers publisher mem
      · cases List.mem_singleton.mp mem
        exact Publisher.proceeds_start _ built _

theorem World.Holds.write {world : World} (h : world.Holds hashing) (index : Nat) :
    (world.step hashing identities (.write index)).Holds hashing := by
  rw [World.step]
  cases at_ : world.publishers[index]? with
  | none => exact h
  | some publisher =>
      have proceeds := h.publishers publisher (List.mem_of_getElem? at_)
      dsimp only
      cases next : publisher.remaining with
      | nil => exact h
      | cons manifest remaining =>
          dsimp only
          cases wrote : world.stored.createImmutable hashing manifest with
          | none => exact h
          | some stored =>
              have grows := createImmutable_extends wrote
              have advanced : (publisher.advance manifest remaining).Proceeds hashing
                  stored.manifests := by
                rcases createImmutable_cases wrote with ⟨rfl, prior, found, same⟩ | ⟨absent, rfl⟩
                · exact proceeds.advance next found same
                · exact (proceeds.extend grows).advance next (Table.get?_insert_self _ _ _) rfl
              refine ⟨?_, fun other mem => ?_, fun name digest found => ?_⟩
              · rcases createImmutable_cases wrote with ⟨rfl, -⟩ | ⟨absent, rfl⟩
                · exact h.stored
                · exact h.stored.insert absent fun child mem => proceeds.children_stored next mem
              · rcases List.mem_or_eq_of_mem_set mem with mem | rfl
                · exact (h.publishers other mem).extend grows
                · exact advanced
              · have aliases : stored.aliases = world.stored.aliases := by
                  rcases createImmutable_cases wrote with ⟨rfl, -⟩ | ⟨-, rfl⟩ <;> rfl
                simp only [aliases] at found ⊢
                obtain ⟨active, here, children⟩ := h.active name digest found
                exact ⟨active, grows _ _ here, children⟩

theorem World.Holds.replaceAliases {world : World} (h : world.Holds hashing) (index : Nat) :
    (world.step hashing identities (.replaceAliases index)).Holds hashing := by
  rw [World.step]
  cases at_ : world.publishers[index]? with
  | none => exact h
  | some publisher =>
      have proceeds := h.publishers publisher (List.mem_of_getElem? at_)
      dsimp only
      cases done : publisher.remaining with
      | cons manifest remaining => exact h
      | nil =>
          simp only [StoredDefinitions.replaceAliases]
          split
          · refine ⟨h.stored, h.publishers, fun name digest found => ?_⟩
            obtain ⟨manifest, mem, key, children⟩ := proceeds.consistent name digest found
            rw [done, List.append_nil] at mem
            obtain ⟨prior, here, same⟩ := proceeds.stored manifest mem
            exact ⟨prior, key ▸ here, same ▸ children⟩
          · exact h

theorem World.Holds.step {world : World} (h : world.Holds hashing) (event : Event) :
    (world.step hashing identities event).Holds hashing := by
  cases event with
  | publish inputs => exact h.publish inputs
  | write index => exact h.write index
  | replaceAliases index => exact h.replaceAliases index

theorem run_concat (events : List Event) (event : Event) :
    run hashing identities (events ++ [event]) =
      (run hashing identities events).step hashing identities event :=
  List.foldl_concat ..

theorem holds_run (events : List Event) : (run hashing identities events).Holds hashing := by
  induction events using List.reverseRecOn with
  | nil => exact holds_start
  | append_singleton events event ih =>
      rw [run_concat]
      exact ih.step event

theorem step_extends (world : World) (event : Event) :
    Extends world.stored.manifests (world.step hashing identities event).stored.manifests := by
  cases event with
  | publish inputs =>
      rw [World.step]
      split <;> exact fun _ _ found => found
  | write index =>
      rw [World.step]
      split
      · exact fun _ _ found => found
      · split
        · exact fun _ _ found => found
        · split
          · exact fun _ _ found => found
          · next wrote => exact createImmutable_extends wrote
  | replaceAliases index =>
      rw [World.step]
      split
      · exact fun _ _ found => found
      · split
        · rw [StoredDefinitions.replaceAliases]
          split <;> exact fun _ _ found => found
        · exact fun _ _ found => found

theorem run_extends (events later : List Event) :
    Extends (run hashing identities events).stored.manifests
      (run hashing identities (events ++ later)).stored.manifests := by
  induction later using List.reverseRecOn with
  | nil =>
      rw [List.append_nil]
      exact fun _ _ found => found
  | append_singleton later event ih =>
      rw [← List.append_assoc, run_concat]
      exact fun key manifest found => step_extends _ event key manifest (ih key manifest found)

/-- Whatever publications start, overlap, meet conflicts and are stopped between two writes: a
definition that is stored stays, and has the children that it pins stored beside it; and the active
definitions are stored and run active children. -/
theorem publications_closed (hashing : Hashing) (identities : ContractIdentities)
    (events later : List Event) :
    (∀ key manifest, (run hashing identities events).stored.manifests.get? key = some manifest →
      (run hashing identities (events ++ later)).stored.manifests.get? key = some manifest ∧
        ∀ child ∈ manifest.children, ∃ pinned,
          (run hashing identities events).stored.manifests.get?
            (child.workflow, child.definitionDigest) = some pinned) ∧
      ∀ name digest, (run hashing identities events).stored.aliases.get? name = some digest →
        ∃ manifest, (run hashing identities events).stored.manifests.get? (name, digest) =
          some manifest ∧ ∀ child ∈ manifest.children,
            (run hashing identities events).stored.aliases.get? child.workflow =
              some child.definitionDigest := by
  have holds : (run hashing identities events).Holds hashing := holds_run events
  exact ⟨fun key manifest found =>
    ⟨run_extends events later key manifest found, holds.stored.closed key manifest found⟩,
    holds.active⟩

end CatalogPublications

end Justflow
