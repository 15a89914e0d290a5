import Justflow.Definitions.Manifest
import Justflow.Library.Tables

/-!
# Definition catalogs

A catalog indexes manifests by name and digest and has one active alias for each published name.
A value of `DefinitionCatalog` has passed the checks of the constructor: manifests stand under
their own identity, and an alias points to a definition of the catalog.
-/

namespace Justflow

/-- The classes of catalog errors, with their texts. -/
inductive CatalogError where
  | invalid (message : String)
  | drift (message : String)
  | storage (message : String)
  | conflict (message : String)
  deriving DecidableEq

/-- The order of the keys of definitions. -/
def DefinitionKey.Le (a b : DefinitionKey) : Prop :=
  a.1 < b.1 ∨ a.1 = b.1 ∧ a.2.text ≤ b.2.text

instance (a b : DefinitionKey) : Decidable (DefinitionKey.Le a b) :=
  inferInstanceAs (Decidable (_ ∨ _))

theorem DefinitionKey.Le.total (a b : DefinitionKey) : Le a b ∨ Le b a := by
  rcases lt_trichotomy a.1 b.1 with less | same | more
  · exact .inl (.inl less)
  · rcases le_total a.2.text b.2.text with first | second
    · exact .inl (.inr ⟨same, first⟩)
    · exact .inr (.inr ⟨same.symm, second⟩)
  · exact .inr (.inl more)

theorem DefinitionKey.Le.trans {a b c : DefinitionKey} (h : Le a b) (k : Le b c) : Le a c := by
  rcases h with less | ⟨same, digests⟩
  · rcases k with further | ⟨equal, _⟩
    · exact .inl (less.trans further)
    · exact .inl (equal ▸ less)
  · rcases k with further | ⟨equal, later⟩
    · exact .inl (same ▸ further)
    · exact .inr ⟨same.trans equal, digests.trans later⟩

theorem DefinitionKey.Le.antisymm {a b : DefinitionKey} (h : Le a b) (k : Le b a) : a = b := by
  rcases h with less | ⟨same, digests⟩
  · rcases k with more | ⟨equal, _⟩
    · exact absurd more less.asymm
    · exact absurd (equal ▸ less) (lt_irrefl _)
  · rcases k with more | ⟨_, later⟩
    · exact absurd (same ▸ more) (lt_irrefl _)
    · refine Prod.ext same ?_
      have texts := le_antisymm digests later
      obtain ⟨_, ⟨_, _, _⟩⟩ := a
      obtain ⟨_, ⟨_, _, _⟩⟩ := b
      cases texts
      rfl

structure DefinitionCatalog (hashing : Hashing) where
  manifests : Table DefinitionKey DefinitionManifest
  aliases : Table String Digest
  indexed : ∀ key manifest, manifests.get? key = some manifest → manifest.key hashing = key
  targets : ∀ name digest, aliases.get? name = some digest →
    (manifests.get? (name, digest)).isSome = true

namespace DefinitionCatalog

variable {hashing : Hashing}

/-- The index of the constructor. -/
def index (hashing : Hashing) (manifests : List DefinitionManifest) :
    Except CatalogError (Table DefinitionKey DefinitionManifest) :=
  manifests.foldlM (fun indexed manifest =>
    if (indexed.get? (manifest.key hashing)).isSome then
      .error (.invalid (s!"Definition '{manifest.logicalName}@" ++
        s!"{(manifest.definitionDigest hashing).text}' is duplicated"))
    else .ok (indexed.insert (manifest.key hashing) manifest)) .empty

theorem index_fold {manifests : List DefinitionManifest}
    {start indexed : Table DefinitionKey DefinitionManifest}
    (keyed : ∀ key manifest, start.get? key = some manifest → manifest.key hashing = key)
    (h : manifests.foldlM (fun indexed manifest =>
      if (indexed.get? (manifest.key hashing)).isSome then
        Except.error (CatalogError.invalid (s!"Definition '{manifest.logicalName}@" ++
          s!"{(manifest.definitionDigest hashing).text}' is duplicated"))
      else .ok (indexed.insert (manifest.key hashing) manifest)) start = .ok indexed) :
    (∀ key manifest, indexed.get? key = some manifest → manifest.key hashing = key) ∧
      indexed.entries = start.entries ++ manifests.map fun manifest =>
        (manifest.key hashing, manifest) := by
  induction manifests generalizing start with
  | nil =>
      cases h
      exact ⟨keyed, by simp⟩
  | cons manifest rest ih =>
      rw [List.foldlM_cons] at h
      split at h
      · cases h
      · next fresh =>
          rw [Bool.not_eq_true, Option.isSome_eq_false_iff, Option.isNone_iff_eq_none] at fresh
          have keyed' : ∀ key found, (start.insert (manifest.key hashing) manifest).get? key =
              some found → found.key hashing = key := by
            intro key found hfound
            rw [Table.get?_insert] at hfound
            split at hfound
            · next same =>
                cases hfound
                exact same.symm
            · exact keyed key found hfound
          obtain ⟨indexed, entries⟩ := ih keyed' h
          refine ⟨indexed, ?_⟩
          rw [entries, Table.entries_insert_fresh fresh]
          simp

theorem index_eq_ok {manifests : List DefinitionManifest}
    {indexed : Table DefinitionKey DefinitionManifest}
    (h : index hashing manifests = .ok indexed) :
    (∀ key manifest, indexed.get? key = some manifest → manifest.key hashing = key) ∧
      indexed.entries = manifests.map fun manifest => (manifest.key hashing, manifest) := by
  obtain ⟨keyed, entries⟩ := index_fold (fun key manifest found => by simp at found) h
  exact ⟨keyed, by simpa [Table.empty] using entries⟩

/-- The first alias without a definition. -/
def dangling (manifests : Table DefinitionKey DefinitionManifest) (aliases : Table String Digest) :
    Option (String × Digest) :=
  aliases.entries.find? fun entry => (manifests.get? entry).isNone

theorem targets_of_dangling {manifests : Table DefinitionKey DefinitionManifest}
    {aliases : Table String Digest} (h : dangling manifests aliases = none) (name : String)
    (digest : Digest) (found : aliases.get? name = some digest) :
    (manifests.get? (name, digest)).isSome = true := by
  have present := List.find?_eq_none.mp h _ (Table.mem_entries_iff.mpr found)
  rw [Option.isSome_iff_ne_none]
  simpa using present

/-- The constructor. -/
def create (hashing : Hashing) (manifests : List DefinitionManifest)
    (aliases : Table String Digest) : Except CatalogError (DefinitionCatalog hashing) :=
  match hindex : index hashing manifests with
  | .error error => .error error
  | .ok indexed =>
      match htargets : dangling indexed aliases with
      | some (name, digest) => .error (.invalid
          s!"Active alias '{name}' points to missing definition '{digest.text}'")
      | none => .ok
          { manifests := indexed
            aliases := aliases
            indexed := (index_eq_ok hindex).1
            targets := targets_of_dangling htargets }

def get (self : DefinitionCatalog hashing) (logicalName : String) (digest : Digest) :
    Except CatalogError DefinitionManifest :=
  match self.manifests.get? (logicalName, digest) with
  | some manifest => .ok manifest
  | none => .error (.invalid
      s!"Definition '{logicalName}@{digest.text}' is not in the catalog")

end DefinitionCatalog

/-- `CatalogState` of the store of a scope. -/
structure StoredCatalog (hashing : Hashing) where
  catalog : DefinitionCatalog hashing
  aliasVersion : Option String

end Justflow
