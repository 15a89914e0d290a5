import Justflow.Library.Fields

/-!
# Lookups in field lists with distinct keys

Where no key is written twice, the first pair with a key is the only one: membership and
lookup say the same thing.  Overwriting a key keeps the keys distinct, so the lists that
programs build up one field at a time stay of this kind.
-/

namespace Fields

universe u v

variable {κ : Type u} {α : Type v} [DecidableEq κ] {l m : List (κ × α)} {key : κ} {value : α}

theorem mem_lookup (h : l.lookup key = some value) : (key, value) ∈ l := by
  rw [lookup_eq_head_at] at h
  obtain ⟨e, he, rfl⟩ := Option.map_eq_some_iff.mp h
  obtain ⟨here, same⟩ := List.mem_filter.mp (List.mem_of_mem_head? he)
  have : e.1 = key := by simpa using same
  rwa [← this]

theorem lookup_eq_none_iff_not_mem_keys : l.lookup key = none ↔ key ∉ keys l := by
  rw [mem_keys_iff_isSome_lookup, Option.not_isSome_iff_eq_none]

theorem at_of_nodup (distinct : (keys l).Nodup) (key : κ) :
    at_ key l = match l.lookup key with
      | some v => [(key, v)]
      | none => [] := by
  induction l with
  | nil => rfl
  | cons e rest ih =>
      obtain ⟨k, v⟩ := e
      rw [keys_cons, List.nodup_cons] at distinct
      have tail := ih distinct.2
      by_cases same : key = k
      · subst same
        rw [lookup_eq_none_iff_not_mem_keys.mpr distinct.1] at tail
        have here : at_ key ((key, v) :: rest) = (key, v) :: at_ key rest := by simp [at_]
        rw [here, tail]
        simp
      · have skip : at_ key ((k, v) :: rest) = at_ key rest := by
          simp [at_, Ne.symm same]
        rw [skip, tail, List.lookup_cons, beq_false_of_ne same]

theorem lookup_of_mem (distinct : (keys l).Nodup) (h : (key, value) ∈ l) :
    l.lookup key = some value := by
  have found := at_of_nodup distinct key
  have member : (key, value) ∈ at_ key l := by simp [at_, h]
  rw [found] at member
  cases looked : l.lookup key with
  | none => simp [looked] at member
  | some v =>
      rw [looked] at member
      cases List.mem_singleton.mp member
      rfl

theorem nodup_set (distinct : (keys l).Nodup) : (keys (set key value l)).Nodup := by
  by_cases present : key ∈ keys l
  · rwa [keys_set_of_mem present]
  · rw [set_of_not_mem present, keys_append]
    refine List.Nodup.append distinct (List.nodup_singleton key) fun other here there => ?_
    cases List.mem_singleton.mp there
    exact present here

theorem nodup_update (distinct : (keys l).Nodup) : (keys (update l m)).Nodup := by
  induction m generalizing l with
  | nil => exact distinct
  | cons e rest ih => exact ih (nodup_set distinct)

/-- Where the second list has distinct keys, its values win. -/
theorem lookup_update_of_nodup (distinct : (keys m).Nodup) :
    (update l m).lookup key = (m.lookup key).or (l.lookup key) := by
  induction m generalizing l with
  | nil => rfl
  | cons e rest ih =>
      obtain ⟨k, v⟩ := e
      rw [keys_cons, List.nodup_cons] at distinct
      have step : (update l ((k, v) :: rest)).lookup key =
          (rest.lookup key).or ((set k v l).lookup key) := ih distinct.2
      rw [step, lookup_set, List.lookup_cons]
      by_cases same : key = k
      · subst same
        simp [lookup_eq_none_iff_not_mem_keys.mpr distinct.1]
      · simp [same, beq_false_of_ne same]

end Fields
