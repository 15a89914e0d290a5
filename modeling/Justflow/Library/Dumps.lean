import Justflow.Library.Json
import Justflow.Library.Lookups

/-!
# Dumps of typed values

A model with named fields is dumped to an object.  A field without a value is dumped as null, or
left out; open values are kept as they are, nulls included.  The two dumps of values of the same
type say the same (`slim_iff_full`), although leaving fields out makes a null and an absent field
alike: the type says which fields there are.
-/

open Fields JsonValue

/-- A value of models, before it is decided what to do with fields that have none. -/
inductive Dump where
  | leaf (value : JsonValue)
  | list (items : List Dump)
  | dict (entries : List (String × Dump))
  | model (values : List (String × Dump))

namespace Dump

/-- Induction over a dump, with the hypothesis for every member. -/
@[elab_as_elim]
theorem induct {P : Dump → Prop} (leaf : ∀ v, P (.leaf v))
    (list : ∀ items, (∀ d ∈ items, P d) → P (.list items))
    (dict : ∀ entries, (∀ e ∈ entries, P e.2) → P (.dict entries))
    (model : ∀ values, (∀ e ∈ values, P e.2) → P (.model values)) : ∀ d, P d := by
  intro d
  refine Dump.rec (motive_1 := P) (motive_2 := fun items => ∀ d ∈ items, P d)
    (motive_3 := fun entries => ∀ e ∈ entries, P e.2) (motive_4 := fun e => P e.2)
    leaf list dict model ?_ ?_ ?_ ?_ ?_ d
  · simp
  · intro head tail hhead htail d hd
    rcases List.mem_cons.mp hd with rfl | hd
    · exact hhead
    · exact htail d hd
  · simp
  · intro head tail hhead htail e he
    rcases List.mem_cons.mp he with rfl | he
    · exact hhead
    · exact htail e he
  · intro key value hvalue
    exact hvalue

/-- A field that has no value. -/
def isNone : Dump → Bool
  | .leaf .null => true
  | _ => false

mutual

/-- The dump with nulls for fields that have no value. -/
def full : Dump → JsonValue
  | .leaf v => v
  | .list items => .arr (fullItems items)
  | .dict entries => .obj (fullFields entries)
  | .model values => .obj (fullFields values)

def fullItems : List Dump → List JsonValue
  | [] => []
  | d :: rest => full d :: fullItems rest

def fullFields : List (String × Dump) → List (String × JsonValue)
  | [] => []
  | (key, d) :: rest => (key, full d) :: fullFields rest

end

mutual

/-- The dump without the fields that have no value. -/
def slim : Dump → JsonValue
  | .leaf v => v
  | .list items => .arr (slimItems items)
  | .dict entries => .obj (slimFields entries)
  | .model values => .obj (slimPresent values)

def slimItems : List Dump → List JsonValue
  | [] => []
  | d :: rest => slim d :: slimItems rest

def slimFields : List (String × Dump) → List (String × JsonValue)
  | [] => []
  | (key, d) :: rest => (key, slim d) :: slimFields rest

def slimPresent : List (String × Dump) → List (String × JsonValue)
  | [] => []
  | (key, d) :: rest =>
      if isNone d then slimPresent rest else (key, slim d) :: slimPresent rest

end

theorem fullItems_eq_map (items : List Dump) : fullItems items = items.map full := by
  induction items with
  | nil => rfl
  | cons d rest ih => simp [fullItems, ih]

theorem fullFields_eq_map (values : List (String × Dump)) :
    fullFields values = values.map fun e => (e.1, e.2.full) := by
  induction values with
  | nil => rfl
  | cons e rest ih => simp [fullFields, ih]

theorem slimItems_eq_map (items : List Dump) : slimItems items = items.map slim := by
  induction items with
  | nil => rfl
  | cons d rest ih => simp [slimItems, ih]

theorem slimFields_eq_map (values : List (String × Dump)) :
    slimFields values = values.map fun e => (e.1, e.2.slim) := by
  induction values with
  | nil => rfl
  | cons e rest ih => simp [slimFields, ih]

theorem slimPresent_eq (values : List (String × Dump)) :
    slimPresent values =
      (values.filter fun e => !isNone e.2).map fun e => (e.1, e.2.slim) := by
  induction values with
  | nil => rfl
  | cons e rest ih =>
      obtain ⟨key, d⟩ := e
      rw [slimPresent]
      cases none_ : isNone d <;> simp [none_, ih]

theorem isNone_null : isNone (.leaf .null) = true := rfl

theorem eq_of_isNone {d : Dump} (h : d.isNone = true) : d = .leaf .null := by
  unfold isNone at h
  split at h
  · rfl
  · cases h

end Dump

/-! ## Types -/

/-- The types of models: open values, collections, models, and models that are told apart by
the text in one of their fields. -/
inductive Schema where
  | any
  | list (item : Schema)
  | dict (value : Schema)
  | model (fields : List (String × Schema))
  | tagged (tag : String) (cases : List (String × Schema))

/-- Every object of a value, outside of arrays, has the property. -/
inductive Throughout (p : List (String × JsonValue) → Prop) : JsonValue → Prop
  | obj {fields : List (String × JsonValue)} : p fields →
      (∀ e ∈ fields, Throughout p e.2) → Throughout p (.obj fields)
  | other {v : JsonValue} : (∀ fields, v ≠ .obj fields) → Throughout p v

theorem throughout_obj {p : List (String × JsonValue) → Prop}
    {fields : List (String × JsonValue)} :
    Throughout p (.obj fields) ↔ p fields ∧ ∀ e ∈ fields, Throughout p e.2 := by
  constructor
  · intro h
    cases h with
    | obj here below => exact ⟨here, below⟩
    | other no => exact absurd rfl (no fields)
  · rintro ⟨here, below⟩
    exact .obj here below

/-- No object lists a key twice. -/
abbrev DistinctKeys : JsonValue → Prop :=
  Throughout fun fields => (keys fields).Nodup

/-- The dump is one of a value of the type. -/
inductive Dump.Of : Schema → Dump → Prop
  | any {v : JsonValue} : DistinctKeys v → Of .any (.leaf v)
  | list {item : Schema} {items : List Dump} : (∀ d ∈ items, Of item d) →
      Of (.list item) (.list items)
  | dict {value : Schema} {entries : List (String × Dump)} : (keys entries).Nodup →
      (∀ e ∈ entries, Of value e.2) → Of (.dict value) (.dict entries)
  | model {fields : List (String × Schema)} {values : List (String × Dump)} :
      keys values = keys fields → (keys fields).Nodup →
        (∀ e ∈ values, e.2.isNone = false → ∀ schema, fields.lookup e.1 = some schema →
          Of schema e.2) → Of (.model fields) (.model values)
  | tagged {tag name : String} {cases : List (String × Schema)} {case : Schema}
      {values : List (String × Dump)} : cases.lookup name = some case →
        values.lookup tag = some (.leaf (.str name)) → Of case (.model values) →
          Of (.tagged tag cases) (.model values)

/-! ## Objects by their keys -/

section Objects

variable {α : Type} {l m : List (String × α)}

/-- Sorted objects with distinct keys are equal exactly if their lookups are. -/
theorem Fields.sortKeys_eq_iff (hl : (keys l).Nodup) (hm : (keys m).Nodup) :
    sortKeys l = sortKeys m ↔ ∀ key, l.lookup key = m.lookup key := by
  constructor
  · intro h key
    rw [← lookup_sortKeys, h, lookup_sortKeys]
  · intro h
    refine SameFields.sortKeys_eq fun key => ?_
    rw [at_of_nodup hl, at_of_nodup hm, h key]

end Objects

theorem JsonValue.wire_obj_iff {l m : List (String × JsonValue)} (hl : (keys l).Nodup)
    (hm : (keys m).Nodup) : (JsonValue.obj l).wire = (JsonValue.obj m).wire ↔
      ∀ key, (l.lookup key).map wire = (m.lookup key).map wire := by
  rw [wire_obj, wire_obj, JsonValue.obj.injEq, sortKeys_eq_iff (by rwa [keys_map_snd])
    (by rwa [keys_map_snd])]
  simp only [lookup_map_value]

/-! ## The two dumps of values of a type -/

namespace Dump

theorem nodup_full {values : List (String × Dump)} (h : (keys values).Nodup) :
    (keys (fullFields values)).Nodup := by
  rw [fullFields_eq_map, keys, List.map_map]
  exact h

theorem nodup_slim {values : List (String × Dump)} (h : (keys values).Nodup) :
    (keys (slimFields values)).Nodup := by
  rw [slimFields_eq_map, keys, List.map_map]
  exact h

theorem nodup_present {values : List (String × Dump)} (h : (keys values).Nodup) :
    (keys (slimPresent values)).Nodup := by
  rw [slimPresent_eq, keys, List.map_map]
  exact (List.filter_sublist.map Prod.fst).nodup h

theorem lookup_full (values : List (String × Dump)) (key : String) :
    (fullFields values).lookup key = (values.lookup key).map full := by
  rw [fullFields_eq_map, lookup_map_value]

theorem lookup_slim (values : List (String × Dump)) (key : String) :
    (slimFields values).lookup key = (values.lookup key).map slim := by
  rw [slimFields_eq_map, lookup_map_value]

theorem lookup_present {values : List (String × Dump)} (h : (keys values).Nodup)
    (key : String) : (slimPresent values).lookup key =
      (values.lookup key).bind fun d => if d.isNone then none else some d.slim := by
  induction values with
  | nil => rfl
  | cons e rest ih =>
      obtain ⟨k, d⟩ := e
      rw [keys_cons, List.nodup_cons] at h
      rw [slimPresent, List.lookup_cons]
      by_cases same : key = k
      · subst same
        cases none_ : isNone d with
        | true =>
            have absent : rest.lookup key = none := by
              rw [← Option.not_isSome_iff_eq_none, ← mem_keys_iff_isSome_lookup]
              exact h.1
            simp [ih h.2, absent, none_]
        | false => simp [none_]
      · cases none_ : isNone d <;>
          simp [List.lookup_cons, beq_false_of_ne same, ih h.2]

theorem Of.nodup_model {schema : Schema} {values : List (String × Dump)}
    (h : Of schema (.model values)) : (keys values).Nodup := by
  generalize dumped : Dump.model values = d at h
  induction h with
  | model keyed distinct _ _ =>
      cases dumped
      rwa [keyed]
  | tagged _ _ _ ih => exact ih dumped
  | _ => cases dumped

/-- The dump without absent fields lists no key twice. -/
theorem Of.distinct_slim {schema : Schema} {d : Dump} (h : Of schema d) :
    DistinctKeys d.slim := by
  induction h with
  | any distinct => exact distinct
  | list _ _ => exact .other fun fields => by simp [slim]
  | @dict _ entries distinct _ ih =>
      rw [slim]
      refine .obj (nodup_slim distinct) fun e he => ?_
      rw [slimFields_eq_map] at he
      obtain ⟨entry, member, rfl⟩ := List.mem_map.mp he
      exact ih entry member
  | @model fields values keyed distinct _ ih =>
      rw [slim]
      refine .obj (nodup_present (keyed ▸ distinct)) fun e he => ?_
      rw [slimPresent_eq] at he
      obtain ⟨entry, member, rfl⟩ := List.mem_map.mp he
      obtain ⟨inside, present⟩ := List.mem_filter.mp member
      have declared : entry.1 ∈ keys fields := keyed ▸ List.mem_map_of_mem inside
      obtain ⟨schema, hschema⟩ :=
        Option.isSome_iff_exists.mp (mem_keys_iff_isSome_lookup.mp declared)
      exact ih entry inside (by simpa using present) schema hschema
  | tagged _ _ _ ih => exact ih

theorem full_ne_null {d : Dump} (present : d.isNone = false) : d.full.wire ≠ .null := by
  cases d with
  | leaf v =>
      cases v with
      | null => cases present
      | _ => simp [full]
  | _ => simp [full]

/-- Both dumps tell values of one type apart alike. -/
theorem slim_iff_full {schema : Schema} {first second : Dump} (hfirst : Of schema first)
    (hsecond : Of schema second) :
    first.slim.wire = second.slim.wire ↔ first.full.wire = second.full.wire := by
  induction hfirst generalizing second with
  | any _ =>
      cases hsecond
      rfl
  | @list item items typed ih =>
      cases hsecond with
      | @list _ others htyped =>
          rw [slim, slim, full, full, slimItems_eq_map, slimItems_eq_map, fullItems_eq_map,
            fullItems_eq_map, wire_arr, wire_arr, wire_arr, wire_arr, JsonValue.arr.injEq,
            JsonValue.arr.injEq]
          clear typed
          induction items generalizing others with
          | nil => cases others <;> simp
          | cons d rest inner =>
              cases others with
              | nil => simp
              | cons e later =>
                  have head := ih d (by simp) (htyped e (by simp))
                  have below : ∀ d ∈ later, Of item d := fun d hd => htyped d (by simp [hd])
                  have tail := inner (fun d hd => ih d (by simp [hd])) below
                  simp only [List.map_cons, List.cons.injEq]
                  rw [head, tail]
  | @dict value entries distinct typed ih =>
      cases hsecond with
      | @dict _ others hdistinct htyped =>
          rw [slim, slim, full, full, wire_obj_iff (nodup_slim distinct) (nodup_slim hdistinct),
            wire_obj_iff (nodup_full distinct) (nodup_full hdistinct)]
          refine forall_congr' fun key => ?_
          rw [lookup_slim, lookup_slim, lookup_full, lookup_full]
          cases hd : entries.lookup key with
          | none => cases others.lookup key <;> simp
          | some d =>
              cases he : others.lookup key with
              | none => simp
              | some e =>
                  have same := ih (key, d) (mem_lookup hd)
                    (htyped (key, e) (mem_lookup he))
                  simpa using same
  | @model fields values keyed distinct typed ih =>
      cases hsecond with
      | @model _ others hkeyed _ htyped =>
          have hvalues : (keys values).Nodup := keyed ▸ distinct
          have hothers : (keys others).Nodup := hkeyed ▸ distinct
          rw [slim, slim, full, full, wire_obj_iff (nodup_present hvalues)
            (nodup_present hothers), wire_obj_iff (nodup_full hvalues) (nodup_full hothers)]
          refine forall_congr' fun key => ?_
          rw [lookup_present hvalues, lookup_present hothers, lookup_full, lookup_full]
          have both : (values.lookup key).isSome = (others.lookup key).isSome := by
            rw [Bool.eq_iff_iff, ← mem_keys_iff_isSome_lookup, ← mem_keys_iff_isSome_lookup,
              keyed, hkeyed]
          cases hd : values.lookup key with
          | none =>
              rw [hd] at both
              have absent : others.lookup key = none :=
                Option.not_isSome_iff_eq_none.mp (by rw [← both]; exact Bool.false_ne_true)
              rw [absent]
              simp
          | some d =>
              rw [hd] at both
              obtain ⟨e, he⟩ := Option.isSome_iff_exists.mp both.symm
              rw [he]
              cases hdn : d.isNone with
              | true =>
                  cases hen : e.isNone with
                  | true =>
                      rw [eq_of_isNone hdn, eq_of_isNone hen]
                      simp
                  | false =>
                      have other := full_ne_null hen
                      rw [eq_of_isNone hdn]
                      refine iff_of_false (by simp [isNone_null, hen]) fun h => other ?_
                      simp only [Option.map_some, Option.some.injEq] at h
                      exact h.symm
              | false =>
                  cases hen : e.isNone with
                  | true =>
                      have other := full_ne_null hdn
                      rw [eq_of_isNone hen]
                      refine iff_of_false (by simp [isNone_null, hdn]) fun h => other ?_
                      simp only [Option.map_some, Option.some.injEq] at h
                      exact h
                  | false =>
                      have declared : key ∈ keys fields := by
                        rw [← keyed, mem_keys_iff_isSome_lookup, hd]
                        rfl
                      obtain ⟨schema, hschema⟩ :=
                        Option.isSome_iff_exists.mp (mem_keys_iff_isSome_lookup.mp declared)
                      have same := ih (key, d) (mem_lookup hd) hdn schema hschema
                        (htyped (key, e) (mem_lookup he) hen schema hschema)
                      simpa [hdn, hen] using same
  | @tagged tag name cases_ case values found named typed ih =>
      cases hsecond with
      | @tagged _ other _ _ others hfound hnamed htyped =>
          by_cases same : name = other
          · subst same
            cases found.symm.trans hfound
            exact ih htyped
          · have hvalues := typed.nodup_model
            have hothers := htyped.nodup_model
            rw [slim, slim, full, full, wire_obj_iff (nodup_present hvalues)
              (nodup_present hothers), wire_obj_iff (nodup_full hvalues) (nodup_full hothers)]
            refine iff_of_false (fun h => ?_) fun h => ?_
            · have texts := h tag
              rw [lookup_present hvalues, lookup_present hothers, named, hnamed] at texts
              simp [isNone, slim, same] at texts
            · have texts := h tag
              rw [lookup_full, lookup_full, named, hnamed] at texts
              simp [full, same] at texts

end Dump
