import Justflow.Library.Json
import Justflow.Library.Lookups

/-!
# Values within a JSON value

A value contains itself, and what its items or members contain.  A walk that goes from a value to
one of its members gets to a smaller value every time.
-/

open Fields

namespace JsonValue

mutual

/-- The value and all values within it. -/
def subvalues : JsonValue → List JsonValue
  | .arr items => .arr items :: itemsSubvalues items
  | .obj fields => .obj fields :: fieldsSubvalues fields
  | v => [v]

def itemsSubvalues : List JsonValue → List JsonValue
  | [] => []
  | v :: rest => subvalues v ++ itemsSubvalues rest

def fieldsSubvalues : List (String × JsonValue) → List JsonValue
  | [] => []
  | (_, v) :: rest => subvalues v ++ fieldsSubvalues rest

end

theorem itemsSubvalues_eq (items : List JsonValue) :
    itemsSubvalues items = items.flatMap subvalues := by
  induction items with
  | nil => rfl
  | cons v rest ih => rw [itemsSubvalues, ih, List.flatMap_cons]

theorem fieldsSubvalues_eq (fields : List (String × JsonValue)) :
    fieldsSubvalues fields = fields.flatMap fun e => subvalues e.2 := by
  induction fields with
  | nil => rfl
  | cons e rest ih => rw [fieldsSubvalues, ih, List.flatMap_cons]

theorem subvalues_arr (items : List JsonValue) :
    subvalues (.arr items) = .arr items :: items.flatMap subvalues := by
  rw [subvalues, itemsSubvalues_eq]

theorem subvalues_obj (fields : List (String × JsonValue)) :
    subvalues (.obj fields) = .obj fields :: fields.flatMap fun e => subvalues e.2 := by
  rw [subvalues, fieldsSubvalues_eq]

theorem mem_subvalues_self (v : JsonValue) : v ∈ subvalues v := by
  cases v <;> simp [subvalues]

/-- What is within a value within another one is within that one. -/
theorem subvalues_subset {v : JsonValue} : ∀ u ∈ subvalues v, subvalues u ⊆ subvalues v := by
  induction v with
  | arr items ih =>
      intro u hu
      rw [subvalues_arr] at hu ⊢
      rcases List.mem_cons.mp hu with rfl | hu
      · rw [subvalues_arr]
        exact List.Subset.refl _
      · obtain ⟨item, hitem, hu⟩ := List.mem_flatMap.mp hu
        intro w hw
        exact List.mem_cons_of_mem _ (List.mem_flatMap.mpr ⟨item, hitem, ih item hitem u hu hw⟩)
  | obj fields ih =>
      intro u hu
      rw [subvalues_obj] at hu ⊢
      rcases List.mem_cons.mp hu with rfl | hu
      · rw [subvalues_obj]
        exact List.Subset.refl _
      · obtain ⟨e, he, hu⟩ := List.mem_flatMap.mp hu
        intro w hw
        exact List.mem_cons_of_mem _ (List.mem_flatMap.mpr ⟨e, he, ih e he u hu hw⟩)
  | _ =>
      intro u hu
      obtain rfl := List.mem_singleton.mp hu
      exact List.Subset.refl _

/-- The number of values within a value. -/
def size (v : JsonValue) : Nat :=
  (subvalues v).length

theorem size_lt_flatMap {α : Type} (part : α → JsonValue) {parts : List α} {x : α}
    (h : x ∈ parts) (v : JsonValue) :
    size (part x) < (v :: parts.flatMap fun y => subvalues (part y)).length := by
  obtain ⟨before, after, rfl⟩ := List.append_of_mem h
  simp only [List.flatMap_append, List.flatMap_cons, List.length_cons, List.length_append, size]
  omega

theorem size_le {v : JsonValue} : ∀ u ∈ subvalues v, size u ≤ size v := by
  induction v with
  | arr items ih =>
      intro u hu
      rw [subvalues_arr] at hu
      rcases List.mem_cons.mp hu with rfl | hu
      · exact le_refl _
      · obtain ⟨item, hitem, hu⟩ := List.mem_flatMap.mp hu
        refine (ih item hitem u hu).trans ?_
        rw [size, size, subvalues_arr]
        exact (size_lt_flatMap id hitem _).le
  | obj fields ih =>
      intro u hu
      rw [subvalues_obj] at hu
      rcases List.mem_cons.mp hu with rfl | hu
      · exact le_refl _
      · obtain ⟨e, he, hu⟩ := List.mem_flatMap.mp hu
        refine (ih e he u hu).trans ?_
        rw [size, size, subvalues_obj]
        exact (size_lt_flatMap Prod.snd he _).le
  | _ =>
      intro u hu
      obtain rfl := List.mem_singleton.mp hu
      exact le_refl _

/-- The value is properly within another one. -/
structure Inside (u v : JsonValue) : Prop where
  mem : u ∈ subvalues v
  smaller : size u < size v

namespace Inside

variable {u v w : JsonValue}

theorem trans (h : Inside u v) (h' : Inside v w) : Inside u w where
  mem := subvalues_subset v h'.mem h.mem
  smaller := h.smaller.trans h'.smaller

theorem of_item {items : List JsonValue} (h : u ∈ items) : Inside u (.arr items) where
  mem := by
    rw [subvalues_arr]
    exact List.mem_cons_of_mem _ (List.mem_flatMap.mpr ⟨u, h, mem_subvalues_self u⟩)
  smaller := by
    rw [size, size, subvalues_arr]
    exact size_lt_flatMap id h _

theorem of_member {fields : List (String × JsonValue)} {key : String}
    (h : fields.lookup key = some u) : Inside u (.obj fields) := by
  have here := mem_lookup h
  constructor
  · rw [subvalues_obj]
    exact List.mem_cons_of_mem _ (List.mem_flatMap.mpr ⟨_, here, mem_subvalues_self u⟩)
  · rw [size, size, subvalues_obj]
    exact size_lt_flatMap Prod.snd here _

theorem of_field {key : String} (h : v.field key = some u) : Inside u v := by
  cases v with
  | obj fields => exact of_member h
  | _ => cases h

end Inside

end JsonValue
