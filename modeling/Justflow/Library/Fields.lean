import Mathlib.Data.List.Sort
import Mathlib.Data.List.Forall2
import Mathlib.Data.String.Basic

/-!
# Ordered field lists

A dictionary that remembers insertion order is a list of key–value pairs.  Overwriting a key
keeps its place, a new key goes to the end, and a reader finds the first pair with its key.

Two lists have the same fields when every key lists the same values in the same order.  This
is the equivalence that stable sorting by key decides: it survives lookups and overwrites,
and nothing below asks keys to be distinct.
-/

namespace Fields

universe u v w

variable {κ : Type u} {α : Type v} {β : Type w}

/-- The keys of a field list, in order. -/
def keys (l : List (κ × α)) : List κ :=
  l.map Prod.fst

@[simp]
theorem keys_nil : keys ([] : List (κ × α)) = [] := rfl

@[simp]
theorem keys_cons (e : κ × α) (l : List (κ × α)) : keys (e :: l) = e.1 :: keys l := rfl

@[simp]
theorem keys_append (l m : List (κ × α)) : keys (l ++ m) = keys l ++ keys m :=
  List.map_append

section Lookup

variable [DecidableEq κ]

/-- Overwrite a key in place, or append it. -/
def set (key : κ) (value : α) : List (κ × α) → List (κ × α)
  | [] => [(key, value)]
  | (k, v) :: rest => if k = key then (key, value) :: rest else (k, v) :: set key value rest

/-- Overwrite by every field of the second list, in its order. -/
def update (l m : List (κ × α)) : List (κ × α) :=
  m.foldl (fun fields entry => set entry.1 entry.2 fields) l

/-- The values one key lists, with the key. -/
def at_ (key : κ) (l : List (κ × α)) : List (κ × α) :=
  l.filter fun entry => entry.1 = key

theorem lookup_eq_head_at (key : κ) (l : List (κ × α)) :
    l.lookup key = (at_ key l).head?.map Prod.snd := by
  induction l with
  | nil => rfl
  | cons e rest ih =>
      obtain ⟨k, v⟩ := e
      by_cases h : key = k
      · subst h
        simp [at_]
      · have h' : ¬ k = key := fun hk => h hk.symm
        have hb : (key == k) = false := by simpa using h
        simpa [List.lookup_cons, hb, at_, h'] using ih

@[simp]
theorem lookup_set_self (key : κ) (value : α) (l : List (κ × α)) :
    (set key value l).lookup key = some value := by
  induction l with
  | nil => simp [set]
  | cons e rest ih =>
      obtain ⟨k, v⟩ := e
      by_cases h : k = key
      · simp [set, h]
      · have hb : (key == k) = false := by simpa using fun hk : key = k => h hk.symm
        simpa [set, h, List.lookup_cons, hb] using ih

theorem lookup_set_ne {key other : κ} (hne : other ≠ key) (value : α) (l : List (κ × α)) :
    (set key value l).lookup other = l.lookup other := by
  induction l with
  | nil =>
      have hb : (other == key) = false := by simpa using hne
      simp [set, List.lookup_cons, hb]
  | cons e rest ih =>
      obtain ⟨k, v⟩ := e
      by_cases h : k = key
      · subst h
        have hb : (other == k) = false := by simpa using hne
        simp [set, List.lookup_cons, hb]
      · simp only [set, if_neg h, List.lookup_cons]
        cases other == k <;> simp [ih]

theorem lookup_set (key other : κ) (value : α) (l : List (κ × α)) :
    (set key value l).lookup other = if other = key then some value else l.lookup other := by
  by_cases h : other = key
  · subst h
    simp
  · simp [h, lookup_set_ne h]

theorem lookup_map_value {β : Type*} (f : α → β) (key : κ) (l : List (κ × α)) :
    (l.map fun e => (e.1, f e.2)).lookup key = (l.lookup key).map f := by
  induction l with
  | nil => rfl
  | cons e rest ih =>
      obtain ⟨k, v⟩ := e
      by_cases h : key = k
      · subst h
        simp
      · have hb : (key == k) = false := by simpa using h
        simpa [List.lookup_cons, hb] using ih

theorem mem_keys_iff_isSome_lookup {key : κ} {l : List (κ × α)} :
    key ∈ keys l ↔ (l.lookup key).isSome := by
  induction l with
  | nil => simp
  | cons e rest ih =>
      obtain ⟨k, v⟩ := e
      by_cases h : key = k
      · simp [h]
      · have hb : (key == k) = false := by simpa using h
        simp [List.lookup_cons, hb, h, ih]

theorem mem_keys_set {key other : κ} {value : α} {l : List (κ × α)} :
    other ∈ keys (set key value l) ↔ other = key ∨ other ∈ keys l := by
  rw [mem_keys_iff_isSome_lookup, mem_keys_iff_isSome_lookup, lookup_set]
  by_cases h : other = key <;> simp [h]

theorem mem_keys_update {other : κ} {l m : List (κ × α)} :
    other ∈ keys (update l m) ↔ other ∈ keys l ∨ other ∈ keys m := by
  induction m generalizing l with
  | nil => simp [update]
  | cons e rest ih =>
      have hrest : other ∈ keys (update (set e.1 e.2 l) rest)
          ↔ other ∈ keys (set e.1 e.2 l) ∨ other ∈ keys rest := ih
      simp only [update, List.foldl_cons] at hrest ⊢
      rw [hrest, mem_keys_set]
      simp only [keys_cons, List.mem_cons]
      tauto

theorem keys_set_of_mem {key : κ} {value : α} {l : List (κ × α)} (h : key ∈ keys l) :
    keys (set key value l) = keys l := by
  induction l with
  | nil => simp at h
  | cons e rest ih =>
      obtain ⟨k, v⟩ := e
      by_cases hk : k = key
      · simp [set, hk]
      · have hrest : key ∈ keys rest := by
          rcases List.mem_cons.mp h with hkey | hrest
          · exact False.elim (hk hkey.symm)
          · exact hrest
        simp [set, hk, ih hrest]

theorem set_of_not_mem {key : κ} {value : α} {l : List (κ × α)} (h : key ∉ keys l) :
    set key value l = l ++ [(key, value)] := by
  induction l with
  | nil => rfl
  | cons e rest ih =>
      obtain ⟨k, v⟩ := e
      simp only [keys_cons, List.mem_cons, not_or] at h
      have hk : ¬ k = key := fun hk => h.1 hk.symm
      simp [set, hk, ih h.2]

end Lookup

section Order

variable [LinearOrder κ]

/-- Stable sorting by key. -/
def sortKeys (l : List (κ × α)) : List (κ × α) :=
  l.insertionSort fun e f => e.1 ≤ f.1

/-- The keys already stand in increasing order. -/
def KeysSorted (l : List (κ × α)) : Prop :=
  (keys l).Pairwise (· ≤ ·)

instance (l : List (κ × α)) : Decidable (KeysSorted l) :=
  inferInstanceAs (Decidable ((keys l).Pairwise (· ≤ ·)))

/-- Every key lists the same values in the same order. -/
def SameFields (l m : List (κ × α)) : Prop :=
  ∀ key, at_ key l = at_ key m

theorem SameFields.refl (l : List (κ × α)) : SameFields l l :=
  fun _ => rfl

theorem SameFields.symm {l m : List (κ × α)} (h : SameFields l m) : SameFields m l :=
  fun key => (h key).symm

theorem SameFields.trans {l m n : List (κ × α)} (h : SameFields l m) (h' : SameFields m n) :
    SameFields l n :=
  fun key => (h key).trans (h' key)

theorem SameFields.lookup {l m : List (κ × α)} (h : SameFields l m) (key : κ) :
    l.lookup key = m.lookup key := by
  rw [lookup_eq_head_at, lookup_eq_head_at, h key]

theorem SameFields.mem_iff {l m : List (κ × α)} (h : SameFields l m) (e : κ × α) :
    e ∈ l ↔ e ∈ m := by
  have hl : e ∈ at_ e.1 l ↔ e ∈ l := by simp [at_]
  have hm : e ∈ at_ e.1 m ↔ e ∈ m := by simp [at_]
  rw [← hl, ← hm, h e.1]

theorem SameFields.mem_keys_iff {l m : List (κ × α)} (h : SameFields l m) (key : κ) :
    key ∈ keys l ↔ key ∈ keys m := by
  rw [mem_keys_iff_isSome_lookup, mem_keys_iff_isSome_lookup, h.lookup]

theorem SameFields.cons {l m : List (κ × α)} (e : κ × α) (h : SameFields l m) :
    SameFields (e :: l) (e :: m) := by
  intro key
  have := h key
  simp only [at_, List.filter_cons] at this ⊢
  rw [this]

theorem SameFields.set {l m : List (κ × α)} (h : SameFields l m) (key : κ) (value : α) :
    SameFields (Fields.set key value l) (Fields.set key value m) := by
  have filtered : ∀ (n : List (κ × α)) (other : κ), at_ other (Fields.set key value n) =
      if other = key then (key, value) :: (at_ key n).tail else at_ other n := by
    intro n other
    induction n with
    | nil =>
        by_cases ho : other = key
        · simp [Fields.set, at_, ho]
        · have ho' : ¬ key = other := fun hk => ho hk.symm
          simp [Fields.set, at_, ho, ho']
    | cons e rest ih =>
        obtain ⟨k, v⟩ := e
        by_cases hk : k = key
        · subst hk
          by_cases ho : other = k
          · simp [Fields.set, at_, ho]
          · have ho' : ¬ k = other := fun hk => ho hk.symm
            simp [Fields.set, at_, ho, ho']
        · by_cases ho : other = key
          · subst ho
            simpa [Fields.set, at_, hk] using ih
          · simp only [at_] at ih
            simp [Fields.set, at_, hk, ho, List.filter_cons, ih]
  intro other
  rw [filtered, filtered, h key, h other]

theorem at_orderedInsert (key : κ) (e : κ × α) (l : List (κ × α)) :
    at_ key (l.orderedInsert (fun e f => e.1 ≤ f.1) e) = at_ key (e :: l) := by
  induction l with
  | nil => rfl
  | cons f rest ih =>
      by_cases h : e.1 ≤ f.1
      · simp [List.orderedInsert, h]
      · -- `e` passes `f` only because their keys differ
        have hne : e.1 ≠ f.1 := fun he => h (le_of_eq he)
        simp only [at_, List.filter_cons] at ih
        simp only [List.orderedInsert, if_neg h, at_, List.filter_cons, ih]
        by_cases he : e.1 = key
        · have hf : ¬ f.1 = key := fun hf => hne (he.trans hf.symm)
          simp [he, hf]
        · simp [he]

/-- Sorting by key is stable, hence keeps the fields. -/
theorem sameFields_sortKeys (l : List (κ × α)) : SameFields (sortKeys l) l := by
  intro key
  induction l with
  | nil => rfl
  | cons e rest ih =>
      have := at_orderedInsert key e (sortKeys rest)
      simp only [sortKeys, List.insertionSort_cons] at this ih ⊢
      rw [this]
      simp only [at_, List.filter_cons] at ih ⊢
      rw [ih]

theorem keysSorted_iff {l : List (κ × α)} :
    KeysSorted l ↔ l.Pairwise (fun e f => e.1 ≤ f.1) :=
  List.pairwise_map

theorem keysSorted_sortKeys (l : List (κ × α)) : KeysSorted (sortKeys l) := by
  have : Std.Total (fun e f : κ × α => e.1 ≤ f.1) := ⟨fun e f => le_total e.1 f.1⟩
  have : IsTrans (κ × α) (fun e f => e.1 ≤ f.1) := ⟨fun _ _ _ => le_trans⟩
  exact keysSorted_iff.mpr (List.pairwise_insertionSort _ _)

theorem sortKeys_eq_self {l : List (κ × α)} (h : KeysSorted l) : sortKeys l = l :=
  List.Pairwise.insertionSort_eq (keysSorted_iff.mp h)

@[simp]
theorem sortKeys_idem (l : List (κ × α)) : sortKeys (sortKeys l) = sortKeys l :=
  sortKeys_eq_self (keysSorted_sortKeys l)

/-- A sorted list is determined by its fields. -/
theorem SameFields.eq_of_keysSorted {l m : List (κ × α)} (h : SameFields l m)
    (hl : KeysSorted l) (hm : KeysSorted m) : l = m := by
  induction l generalizing m with
  | nil =>
      cases m with
      | nil => rfl
      | cons f m => simpa using (h.mem_iff f).mpr (by simp)
  | cons e l ih =>
      cases m with
      | nil => simpa using (h.mem_iff e).mp (by simp)
      | cons f m =>
          have le_head : ∀ {a b : κ × α} {xs : List (κ × α)}, KeysSorted (a :: xs) →
              b ∈ a :: xs → a.1 ≤ b.1 := by
            intro a b xs hs hb
            rcases List.mem_cons.mp hb with rfl | hb
            · exact le_refl _
            · exact (List.pairwise_cons.mp (keysSorted_iff.mp hs)).1 b hb
          have hkey : e.1 = f.1 :=
            le_antisymm (le_head hl ((h.mem_iff f).mpr (by simp)))
              (le_head hm ((h.mem_iff e).mp (by simp)))
          have hhead := h e.1
          simp only [at_, List.filter_cons, hkey, decide_true, if_true, List.cons.injEq] at hhead
          obtain ⟨rfl, htail⟩ := hhead
          have hrest : SameFields l m := by
            intro key
            have hk := h key
            simp only [at_, List.filter_cons] at hk ⊢
            split at hk
            · exact (List.cons.inj hk).2
            · exact hk
          rw [ih hrest (List.Pairwise.of_cons hl) (List.Pairwise.of_cons hm)]

theorem SameFields.sortKeys_eq {l m : List (κ × α)} (h : SameFields l m) :
    sortKeys l = sortKeys m :=
  SameFields.eq_of_keysSorted
    (((sameFields_sortKeys l).trans h).trans (sameFields_sortKeys m).symm)
    (keysSorted_sortKeys l) (keysSorted_sortKeys m)

@[simp]
theorem lookup_sortKeys (key : κ) (l : List (κ × α)) :
    (sortKeys l).lookup key = l.lookup key :=
  (sameFields_sortKeys l).lookup key

@[simp]
theorem sortKeys_eq_nil {l : List (κ × α)} : sortKeys l = [] ↔ l = [] := by
  constructor
  · intro h
    cases l with
    | nil => rfl
    | cons e l => simpa [h] using ((sameFields_sortKeys (e :: l)).mem_iff e).mpr (by simp)
  · rintro rfl
    rfl

@[simp]
theorem length_sortKeys (l : List (κ × α)) : (sortKeys l).length = l.length :=
  List.length_insertionSort _ _

/-- Sorting commutes with a change of values. -/
theorem sortKeys_map (f : κ × α → β) (l : List (κ × α)) :
    sortKeys (l.map fun e => (e.1, f e)) = (sortKeys l).map fun e => (e.1, f e) :=
  (List.map_insertionSort (fun e g : κ × α => e.1 ≤ g.1) (fun e g : κ × β => e.1 ≤ g.1)
    (fun e => (e.1, f e)) l fun _ _ _ _ => Iff.rfl).symm

end Order

end Fields
