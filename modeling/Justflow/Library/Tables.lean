import Justflow.Library.Lookups
import Mathlib.Data.List.Sort

/-!
# Tables

A table lists its entries in the order in which their keys were first written, and no key
twice.  Inserting under a key that is present overwrites in place.

Besides the lookups, the lemmas here say what an insertion and a deletion do to the number of
entries with a property, which is what a stored reference count has to agree with.
-/

open Fields

universe u v

/-- Entries under distinct keys. -/
@[ext]
structure Table (κ : Type u) (α : Type v) where
  entries : List (κ × α)
  nodup : (keys entries).Nodup

instance {κ : Type u} {α : Type v} [DecidableEq κ] [DecidableEq α] : DecidableEq (Table κ α) :=
  fun _ _ => decidable_of_iff _ Table.ext_iff.symm

namespace Table

variable {κ : Type u} {α : Type v} [DecidableEq κ]

omit [DecidableEq κ] in
theorem ne_of_mem_rest {key : κ} {rest : List (κ × α)} (absent : key ∉ keys rest)
    {entry : κ × α} (h : entry ∈ rest) : entry.1 ≠ key := by
  rintro rfl
  exact absent (List.mem_map.mpr ⟨entry, h, rfl⟩)

def empty : Table κ α :=
  ⟨[], List.nodup_nil⟩

def get? (self : Table κ α) (key : κ) : Option α :=
  self.entries.lookup key

def insert (self : Table κ α) (key : κ) (value : α) : Table κ α where
  entries := set key value self.entries
  nodup := by
    by_cases h : key ∈ keys self.entries
    · rw [keys_set_of_mem h]
      exact self.nodup
    · rw [set_of_not_mem h, keys_append, List.nodup_append]
      refine ⟨self.nodup, List.nodup_singleton key, ?_⟩
      intro other hother found hfound
      obtain rfl : found = key := by simpa using hfound
      exact fun heq => h (heq ▸ hother)

def erase (self : Table κ α) (key : κ) : Table κ α where
  entries := self.entries.filter fun entry => entry.1 ≠ key
  nodup := (List.filter_sublist.map Prod.fst).nodup self.nodup

/-- The number of entries with a property. -/
def count (self : Table κ α) (p : κ × α → Bool) : Nat :=
  self.entries.countP p

/-! ## Lookups -/

@[simp]
theorem get?_empty (key : κ) : (empty : Table κ α).get? key = none := rfl

theorem get?_insert (self : Table κ α) (key other : κ) (value : α) :
    (self.insert key value).get? other = if other = key then some value else self.get? other :=
  lookup_set key other value self.entries

@[simp]
theorem get?_insert_self (self : Table κ α) (key : κ) (value : α) :
    (self.insert key value).get? key = some value := by
  simp [get?_insert]

theorem get?_insert_ne (self : Table κ α) {key other : κ} (hne : other ≠ key) (value : α) :
    (self.insert key value).get? other = self.get? other := by
  simp [get?_insert, hne]

theorem mem_entries_iff {self : Table κ α} {key : κ} {value : α} :
    (key, value) ∈ self.entries ↔ self.get? key = some value :=
  ⟨lookup_of_mem self.nodup, mem_lookup⟩

theorem get?_eq_none_iff {self : Table κ α} {key : κ} :
    self.get? key = none ↔ key ∉ keys self.entries :=
  lookup_eq_none_iff_not_mem_keys

theorem get?_erase (self : Table κ α) (key other : κ) :
    (self.erase key).get? other = if other = key then none else self.get? other := by
  by_cases h : other = key
  · subst h
    have absent : other ∉ keys (self.erase other).entries := by simp [keys, erase]
    simpa using get?_eq_none_iff.mpr absent
  · rw [if_neg h]
    apply Option.ext
    intro value
    rw [← mem_entries_iff, ← mem_entries_iff]
    simp [erase, h]

@[simp]
theorem get?_erase_self (self : Table κ α) (key : κ) : (self.erase key).get? key = none := by
  simp [get?_erase]

theorem get?_erase_ne (self : Table κ α) {key other : κ} (hne : other ≠ key) :
    (self.erase key).get? other = self.get? other := by
  simp [get?_erase, hne]

/-! ## Entries -/

theorem entries_insert_fresh {self : Table κ α} {key : κ} (fresh : self.get? key = none)
    (value : α) : (self.insert key value).entries = self.entries ++ [(key, value)] :=
  set_of_not_mem (get?_eq_none_iff.mp fresh)

theorem entries_insert_of_mem {self : Table κ α} {key : κ} {old : α}
    (found : self.get? key = some old) (value : α) :
    (self.insert key value).entries =
      self.entries.map fun entry => if entry.1 = key then (key, value) else entry := by
  have hmem := mem_entries_iff.mpr found
  obtain ⟨entries, nodup⟩ := self
  simp only [insert] at hmem ⊢
  clear found
  induction entries with
  | nil => simp at hmem
  | cons entry rest ih =>
      obtain ⟨k, v⟩ := entry
      obtain ⟨hk, hrest⟩ := List.nodup_cons.mp nodup
      by_cases h : k = key
      · subst h
        have others : rest.map (fun entry => if entry.1 = k then (k, value) else entry) = rest := by
          conv_rhs => rw [← List.map_id rest]
          apply List.map_congr_left
          intro entry hentry
          simp [ne_of_mem_rest hk hentry]
        simp [Fields.set, others]
      · have hmem' : (key, old) ∈ rest := by
          rcases List.mem_cons.mp hmem with heq | hmem
          · cases heq
            exact absurd rfl h
          · exact hmem
        simp [Fields.set, h, ih hrest hmem']

theorem insert_of_get? {self : Table κ α} {key : κ} {value : α}
    (found : self.get? key = some value) : self.insert key value = self := by
  apply Table.ext
  rw [entries_insert_of_mem found]
  conv_rhs => rw [← List.map_id self.entries]
  apply List.map_congr_left
  rintro ⟨k, v⟩ hentry
  by_cases h : k = key
  · subst h
    rw [mem_entries_iff.mp hentry] at found
    cases found
    simp
  · simp [h]

theorem insert_insert (self : Table κ α) (key : κ) (first second : α) :
    (self.insert key first).insert key second = self.insert key second := by
  apply Table.ext
  simp only [insert]
  induction self.entries with
  | nil => simp [Fields.set]
  | cons entry rest ih =>
      obtain ⟨k, v⟩ := entry
      by_cases same : k = key
      · simp [Fields.set, same]
      · simp [Fields.set, same, ih]

/-- Lookups survive an insertion that overwrites nothing with something else. -/
theorem get?_insert_of_compatible {self : Table κ α} {key other : κ} {value found : α}
    (compatible : ∀ existing, self.get? key = some existing → existing = value)
    (h : self.get? other = some found) : (self.insert key value).get? other = some found := by
  by_cases heq : other = key
  · subst heq
    rw [get?_insert_self, compatible _ h]
  · rw [get?_insert_ne _ heq, h]

section Projections

variable {β : Type*} {self : Table κ α} {key : κ} (f : κ × α → Option β)

/-- A projection that does not see an insertion. -/
theorem filterMap_insert_unseen {value : α}
    (fresh : self.get? key = none → f (key, value) = none)
    (same : ∀ old, self.get? key = some old → f (key, value) = f (key, old)) :
    (self.insert key value).entries.filterMap f = self.entries.filterMap f := by
  cases hfound : self.get? key with
  | none => simp [entries_insert_fresh hfound, fresh hfound]
  | some old =>
      rw [entries_insert_of_mem hfound, List.filterMap_map]
      apply List.filterMap_congr
      rintro ⟨k, v⟩ hentry
      by_cases h : k = key
      · subst h
        simpa using same v (mem_entries_iff.mp hentry)
      · simp [h]

/-- A projection of a table without one key, when the projection shows which entry had it. -/
theorem filterMap_erase (shown : β → Bool)
    (separates : ∀ other value projected, self.get? other = some value →
      f (other, value) = some projected → (shown projected = false ↔ other = key)) :
    (self.erase key).entries.filterMap f = (self.entries.filterMap f).filter shown := by
  have hmem : ∀ entry ∈ self.entries, self.get? entry.1 = some entry.2 :=
    fun entry hentry => mem_entries_iff.mp hentry
  simp only [erase]
  generalize self.entries = entries at hmem ⊢
  induction entries with
  | nil => rfl
  | cons entry rest ih =>
      have step := ih fun other hother => hmem other (List.mem_cons_of_mem _ hother)
      obtain ⟨k, v⟩ := entry
      have here := separates k v
      have found := hmem (k, v) List.mem_cons_self
      by_cases h : k = key
      · rw [List.filter_cons_of_neg (by simpa using h), step]
        cases hprojected : f (k, v) with
        | none => rw [List.filterMap_cons_none hprojected]
        | some projected =>
            have hidden := (here projected found hprojected).mpr h
            rw [List.filterMap_cons_some hprojected, List.filter_cons_of_neg (by simp [hidden])]
      · rw [List.filter_cons_of_pos (by simpa using h)]
        cases hprojected : f (k, v) with
        | none => rw [List.filterMap_cons_none hprojected, List.filterMap_cons_none hprojected, step]
        | some projected =>
            have seen : shown projected = true := by
              by_contra hne
              exact h ((here projected found hprojected).mp (by simpa using hne))
            rw [List.filterMap_cons_some hprojected, List.filterMap_cons_some hprojected,
              List.filter_cons_of_pos seen, step]

end Projections

/-! ## Counts -/

theorem count_insert_fresh {self : Table κ α} {key : κ} (fresh : self.get? key = none)
    (value : α) (p : κ × α → Bool) :
    (self.insert key value).count p = self.count p + if p (key, value) then 1 else 0 := by
  simp [count, entries_insert_fresh fresh, List.countP_cons]

theorem count_erase {self : Table κ α} {key : κ} {old : α} (found : self.get? key = some old)
    (p : κ × α → Bool) :
    (self.erase key).count p + (if p (key, old) then 1 else 0) = self.count p := by
  have hmem := mem_entries_iff.mpr found
  obtain ⟨entries, nodup⟩ := self
  simp only [count, erase] at hmem ⊢
  clear found
  induction entries with
  | nil => simp at hmem
  | cons entry rest ih =>
      obtain ⟨k, v⟩ := entry
      obtain ⟨hk, hrest⟩ := List.nodup_cons.mp nodup
      by_cases h : k = key
      · subst h
        have others : rest.filter (fun entry => decide (entry.1 ≠ k)) = rest := by
          apply List.filter_eq_self.mpr
          intro entry hentry
          simpa using ne_of_mem_rest hk hentry
        have hold : old = v := by
          rcases List.mem_cons.mp hmem with heq | hrest
          · cases heq
            rfl
          · have hne := ne_of_mem_rest hk hrest
            exact absurd rfl hne
        subst hold
        rw [List.filter_cons_of_neg (by simp), others, List.countP_cons]
      · have hmem' : (key, old) ∈ rest := by
          rcases List.mem_cons.mp hmem with heq | hmem
          · cases heq
            exact absurd rfl h
          · exact hmem
        have step := ih hrest hmem'
        rw [List.filter_cons_of_pos (by simpa using h), List.countP_cons, List.countP_cons]
        omega

theorem erase_insert (self : Table κ α) (key : κ) (value : α) :
    (self.insert key value).erase key = self.erase key := by
  apply Table.ext
  change (set key value self.entries).filter _ = self.entries.filter _
  induction self.entries with
  | nil => simp [Fields.set]
  | cons entry rest ih =>
      obtain ⟨k, v⟩ := entry
      by_cases h : k = key
      · simp [Fields.set, h]
      · simp only [Fields.set, if_neg h]
        rw [List.filter_cons_of_pos (by simpa using h), List.filter_cons_of_pos (by simpa using h),
          ih]

theorem count_insert_of_mem {self : Table κ α} {key : κ} {old : α}
    (found : self.get? key = some old) (value : α) (p : κ × α → Bool) :
    (self.insert key value).count p + (if p (key, old) then 1 else 0) =
      self.count p + if p (key, value) then 1 else 0 := by
  have before := count_erase found p
  have after := count_erase (get?_insert_self self key value) p
  rw [erase_insert] at after
  omega

theorem count_pos_iff {self : Table κ α} {p : κ × α → Bool} :
    0 < self.count p ↔ ∃ key value, self.get? key = some value ∧ p (key, value) = true := by
  simp only [count, List.countP_pos_iff, ← mem_entries_iff, Prod.exists]

theorem count_eq_zero {self : Table κ α} {p : κ × α → Bool} (h : self.count p = 0) {key : κ}
    {value : α} (found : self.get? key = some value) : p (key, value) = false := by
  by_contra hp
  have : 0 < self.count p := count_pos_iff.mpr ⟨key, value, found, by simpa using hp⟩
  omega

/-! ## Tables under the same keys -/

/-- Another value for each entry. -/
def mapValues {β : Type v} (f : κ → α → β) (self : Table κ α) : Table κ β where
  entries := self.entries.map fun entry => (entry.1, f entry.1 entry.2)
  nodup := by
    have same : keys (self.entries.map fun entry => (entry.1, f entry.1 entry.2)) =
        keys self.entries := by
      simp [keys, Function.comp_def]
    rw [same]
    exact self.nodup

theorem get?_mapValues {β : Type v} (f : κ → α → β) (self : Table κ α) (key : κ) :
    (self.mapValues f).get? key = (self.get? key).map (f key) := by
  obtain ⟨entries, nodup⟩ := self
  simp only [get?, mapValues]
  clear nodup
  induction entries with
  | nil => rfl
  | cons entry rest ih =>
      obtain ⟨other, value⟩ := entry
      rw [List.map_cons, List.lookup_cons, List.lookup_cons, ih]
      by_cases same : key = other
      · subst same
        simp
      · simp [beq_false_of_ne same]

theorem mapValues_insert {β : Type v} (f : κ → α → β) (self : Table κ α) (key : κ) (value : α) :
    (self.insert key value).mapValues f = (self.mapValues f).insert key (f key value) := by
  obtain ⟨entries, nodup⟩ := self
  ext1
  simp only [mapValues, insert]
  clear nodup
  induction entries with
  | nil => rfl
  | cons entry rest ih =>
      obtain ⟨other, found⟩ := entry
      by_cases same : other = key
      · subst same
        simp [Fields.set]
      · simp only [Fields.set, if_neg same, List.map_cons, ih]

/-! ## Sorting -/

section Sorting

variable {κ α : Type} [DecidableEq κ]

/-- Tables with the same lookups have the same entries. -/
theorem perm_of_lookups {first second : Table κ α}
    (same : ∀ key, first.get? key = second.get? key) : first.entries.Perm second.entries := by
  refine (List.perm_ext_iff_of_nodup first.nodup.of_map second.nodup.of_map).mpr ?_
  rintro ⟨key, value⟩
  rw [mem_entries_iff, mem_entries_iff, same]

/-- Tables with the same lookups are sorted into the same list. -/
theorem sort_eq_of_lookups {le : κ → κ → Prop} [DecidableRel le] {first second : Table κ α}
    (total : ∀ a b, le a b ∨ le b a) (trans : ∀ {a b c}, le a b → le b c → le a c)
    (antisymm : ∀ {a b}, le a b → le b a → a = b)
    (same : ∀ key, first.get? key = second.get? key) :
    (first.entries.insertionSort fun a b => le a.1 b.1) =
      second.entries.insertionSort fun a b => le a.1 b.1 := by
  have : Std.Total fun a b : κ × α => le a.1 b.1 := ⟨fun a b => total a.1 b.1⟩
  have : IsTrans (κ × α) fun a b => le a.1 b.1 := ⟨fun _ _ _ => trans⟩
  have firstPerm := List.perm_insertionSort (fun a b : κ × α => le a.1 b.1) first.entries
  have secondPerm := List.perm_insertionSort (fun a b : κ × α => le a.1 b.1) second.entries
  refine List.Perm.eq_of_pairwise ?_
    (List.pairwise_insertionSort (fun a b : κ × α => le a.1 b.1) _)
    (List.pairwise_insertionSort (fun a b : κ × α => le a.1 b.1) _)
    (firstPerm.trans ((perm_of_lookups same).trans secondPerm.symm))
  rintro ⟨key, value⟩ ⟨other, found⟩ left right forward backward
  obtain rfl : key = other := antisymm forward backward
  have here := mem_entries_iff.mp (firstPerm.mem_iff.mp left)
  have there := mem_entries_iff.mp (secondPerm.mem_iff.mp right)
  rw [same, there] at here
  exact Prod.ext rfl (Option.some.inj here).symm

/-- The entries in the order of their keys. -/
def sortKeys (self : Table String α) : Table String α where
  entries := self.entries.insertionSort fun a b => a.1 ≤ b.1
  nodup := ((List.perm_insertionSort _ self.entries).map Prod.fst).nodup_iff.mpr self.nodup

end Sorting

end Table
