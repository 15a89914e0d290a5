import Justflow.Config.Models
import Justflow.Configuration.Documents
import Mathlib.Data.List.Infix

/-!
# Bounds of configuration documents

The checks that a document model runs on its dump: the nesting and the items of the whole
document, the names of its fields, and the bytes of its canonical text.  A walk that gives a
number gives the number of all members (`validateStructure_ok`), so whether a document passes
depends on its members one by one and on that number (`structured_obj_iff`).
-/

open Fields JsonValue

namespace Justflow

def maxConfigurationCollectionItems : Nat := 10000
def maxConfigurationDepth : Nat := 32
def secretFieldFragments : List String :=
  ["api_key", "credential", "password", "private_key", "secret", "token"]
def secretAliasSuffixes : List String := ["_alias", "_aliases"]

/-! ## The walk over a document -/

/-- The checks before and after the members of a value have been counted. -/
def limited (depth : Nat) (members : Except String Nat) : Except String Nat :=
  if maxConfigurationDepth < depth then .error "Configuration bundle exceeds its nesting limit"
  else do
    let count ← members
    if maxConfigurationCollectionItems < count then
      throw "Configuration bundle exceeds its collection limit"
    return count

mutual

/-- `_validate_structure`. -/
def validateStructure : Nat → JsonValue → Except String Nat
  | depth, .obj fields => limited depth (validateFields (depth + 1) fields.length fields)
  | depth, .arr items => limited depth (validateItems (depth + 1) items.length items)
  | depth, .null | depth, .bool _ | depth, .int _ | depth, .float _ | depth, .str _ =>
      limited depth (.ok 0)

/-- The members of an array are added to a count. -/
def validateItems : Nat → Nat → List JsonValue → Except String Nat
  | _, count, [] => .ok count
  | depth, count, v :: rest =>
      match validateStructure depth v with
      | .error message => .error message
      | .ok inner => validateItems depth (count + inner) rest

/-- The values of an object are added to a count. -/
def validateFields : Nat → Nat → List (String × JsonValue) → Except String Nat
  | _, count, [] => .ok count
  | depth, count, (_, v) :: rest =>
      match validateStructure depth v with
      | .error message => .error message
      | .ok inner => validateFields depth (count + inner) rest

end

mutual

/-- The members of a value and of everything inside it. -/
def memberCount : JsonValue → Nat
  | .obj fields => fields.length + fieldsCount fields
  | .arr items => items.length + itemsCount items
  | .null | .bool _ | .int _ | .float _ | .str _ => 0

def itemsCount : List JsonValue → Nat
  | [] => 0
  | v :: rest => memberCount v + itemsCount rest

def fieldsCount : List (String × JsonValue) → Nat
  | [] => 0
  | (_, v) :: rest => memberCount v + fieldsCount rest

end

theorem itemsCount_eq_sum (items : List JsonValue) :
    itemsCount items = (items.map memberCount).sum := by
  induction items with
  | nil => rfl
  | cons v rest ih => rw [itemsCount, ih, List.map_cons, List.sum_cons]

/-- The walk over a value at a depth finds nothing wrong. -/
def Structured (depth : Nat) (v : JsonValue) : Prop :=
  ∃ count, validateStructure depth v = .ok count

theorem limited_ok {depth : Nat} {members : Except String Nat} {count : Nat} :
    limited depth members = .ok count ↔
      depth ≤ maxConfigurationDepth ∧ members = .ok count ∧
        count ≤ maxConfigurationCollectionItems := by
  rw [limited]
  by_cases deep : maxConfigurationDepth < depth
  · simp [deep]
  · rw [if_neg deep]
    cases members with
    | error message => simp [Bind.bind, Except.bind]
    | ok n =>
        by_cases many : maxConfigurationCollectionItems < n
        · have hlimit : ∀ m, n = m → ¬ m ≤ maxConfigurationCollectionItems := by
            rintro m rfl
            exact Nat.not_le.mpr many
          simp only [Bind.bind, Except.bind, many, if_true, Except.ok.injEq]
          constructor
          · nofun
          · rintro ⟨_, heq, hle⟩
            exact absurd hle (hlimit _ heq)
        · simp only [Bind.bind, Except.bind, many, if_false, Pure.pure, Except.pure,
            Except.ok.injEq]
          constructor
          · rintro rfl
            exact ⟨Nat.not_lt.mp deep, rfl, Nat.not_lt.mp many⟩
          · exact fun h => h.2.1

/-- A list of members passes when each of them does. -/
theorem validateItems_ok {depth start count : Nat} {items : List JsonValue}
    (counted : ∀ v ∈ items, ∀ n, validateStructure depth v = .ok n → n = memberCount v) :
    validateItems depth start items = .ok count ↔
      (∀ v ∈ items, Structured depth v) ∧ count = start + itemsCount items := by
  induction items generalizing start with
  | nil => simp [validateItems, itemsCount, eq_comm]
  | cons v rest ih =>
      have hrest := fun w hw => counted w (List.mem_cons_of_mem _ hw)
      rw [validateItems]
      cases hv : validateStructure depth v with
      | error message =>
          constructor
          · nofun
          · rintro ⟨each, _⟩
            obtain ⟨n, hn⟩ := each v List.mem_cons_self
            rw [hv] at hn
            cases hn
      | ok n =>
          obtain rfl := counted v List.mem_cons_self n hv
          simp only [ih hrest, List.forall_mem_cons, itemsCount, Nat.add_assoc]
          constructor
          · rintro ⟨each, heq⟩
            exact ⟨⟨⟨_, hv⟩, each⟩, heq⟩
          · rintro ⟨⟨_, each⟩, heq⟩
            exact ⟨each, heq⟩

/-- The values of an object are counted as the items of an array. -/
theorem validateFields_eq (depth start : Nat) (fields : List (String × JsonValue)) :
    validateFields depth start fields = validateItems depth start (fields.map Prod.snd) := by
  induction fields generalizing start with
  | nil => rfl
  | cons e rest ih =>
      rw [validateFields, List.map_cons, validateItems]
      cases validateStructure depth e.2 with
      | error message => rfl
      | ok n => exact ih _

theorem fieldsCount_eq (fields : List (String × JsonValue)) :
    fieldsCount fields = itemsCount (fields.map Prod.snd) := by
  induction fields with
  | nil => rfl
  | cons e rest ih => rw [fieldsCount, List.map_cons, itemsCount, ih]

/-- What a walk gives is the number of all members. -/
theorem validateStructure_ok {depth count : Nat} {v : JsonValue}
    (h : validateStructure depth v = .ok count) : count = memberCount v := by
  induction v generalizing depth count with
  | null | bool | int | float | str =>
      obtain ⟨_, hcount, _⟩ := limited_ok.mp h
      cases hcount
      rfl
  | arr items ih =>
      obtain ⟨_, hcount, _⟩ := limited_ok.mp h
      exact ((validateItems_ok fun v hv _ hn => ih v hv hn).mp hcount).2
  | obj fields ih =>
      obtain ⟨_, hcount, _⟩ := limited_ok.mp h
      rw [validateFields_eq] at hcount
      have counted : ∀ v ∈ fields.map Prod.snd, ∀ n,
          validateStructure (depth + 1) v = .ok n → n = memberCount v := by
        intro v hv n hn
        obtain ⟨e, he, rfl⟩ := List.mem_map.mp hv
        exact ih e he hn
      rw [memberCount, fieldsCount_eq]
      simpa using ((validateItems_ok counted).mp hcount).2

theorem structured_arr_iff {depth : Nat} {items : List JsonValue} :
    Structured depth (.arr items) ↔
      depth ≤ maxConfigurationDepth ∧ (∀ v ∈ items, Structured (depth + 1) v) ∧
        memberCount (.arr items) ≤ maxConfigurationCollectionItems := by
  have hitems := fun count => @validateItems_ok (depth + 1) items.length count items
    fun _ _ _ hn => validateStructure_ok hn
  simp only [Structured, validateStructure, limited_ok, hitems]
  constructor
  · rintro ⟨_, hdepth, ⟨each, rfl⟩, hcount⟩
    exact ⟨hdepth, each, hcount⟩
  · rintro ⟨hdepth, each, hcount⟩
    exact ⟨_, hdepth, ⟨each, rfl⟩, hcount⟩

theorem structured_obj_iff {depth : Nat} {fields : List (String × JsonValue)} :
    Structured depth (.obj fields) ↔
      depth ≤ maxConfigurationDepth ∧ (∀ e ∈ fields, Structured (depth + 1) e.2) ∧
        memberCount (.obj fields) ≤ maxConfigurationCollectionItems := by
  have hitems := fun count => @validateItems_ok (depth + 1) fields.length count
    (fields.map Prod.snd) fun _ _ _ hn => validateStructure_ok hn
  simp only [Structured, validateStructure, limited_ok, validateFields_eq, hitems,
    List.forall_mem_map, memberCount, fieldsCount_eq]
  constructor
  · rintro ⟨_, hdepth, ⟨each, rfl⟩, hcount⟩
    exact ⟨hdepth, each, hcount⟩
  · rintro ⟨hdepth, each, hcount⟩
    exact ⟨_, hdepth, ⟨each, rfl⟩, hcount⟩

theorem structured_str {depth : Nat} (s : String) (h : depth ≤ maxConfigurationDepth) :
    Structured depth (.str s) :=
  ⟨0, limited_ok.mpr ⟨h, rfl, Nat.zero_le _⟩⟩

theorem structured_int {depth : Nat} (n : Int) (h : depth ≤ maxConfigurationDepth) :
    Structured depth (.int n) :=
  ⟨0, limited_ok.mpr ⟨h, rfl, Nat.zero_le _⟩⟩

/-! ## Names of fields -/

/-- A field whose name says that it holds a secret, not an alias of one; `lower` is
`str.lower`. -/
def secretField (lower : String → String) (key : String) : Bool :=
  let lowered := (lower key).toList
  !(secretAliasSuffixes.any fun ending => decide (ending.toList <:+ lowered)) &&
    secretFieldFragments.any fun fragment => decide (fragment.toList <:+: lowered)

mutual

/-- `_reject_secret_values`: some field is refused. -/
def holdsSecret (lower : String → String) : JsonValue → Bool
  | .obj fields => fieldsHoldSecret lower fields
  | .arr items => itemsHoldSecret lower items
  | .null | .bool _ | .int _ | .float _ | .str _ => false

def itemsHoldSecret (lower : String → String) : List JsonValue → Bool
  | [] => false
  | v :: rest => holdsSecret lower v || itemsHoldSecret lower rest

def fieldsHoldSecret (lower : String → String) : List (String × JsonValue) → Bool
  | [] => false
  | (key, v) :: rest =>
      secretField lower key || holdsSecret lower v || fieldsHoldSecret lower rest

end

theorem itemsHoldSecret_eq_any (lower : String → String) (items : List JsonValue) :
    itemsHoldSecret lower items = items.any (holdsSecret lower) := by
  induction items with
  | nil => rfl
  | cons v rest ih => rw [itemsHoldSecret, ih, List.any_cons]

/-! ## The checks of a model -/

/-- The checks that the two document models share, before those of their own. -/
def validateBounds (lower : String → String) (value : JsonValue) (sizeMessage : String)
    (checks : List (Bool × String)) : Except String Unit :=
  match validateStructure 0 value with
  | .error message => .error message
  | .ok _ => firstViolation
      ((holdsSecret lower value, "Configuration bundles may contain secret aliases only") ::
        (decide (Stores.maxConfigurationBytes < canonicalBytes value), sizeMessage) :: checks)

theorem validateBounds_ok_iff {lower : String → String} {value : JsonValue} {sizeMessage : String}
    {checks : List (Bool × String)} :
    validateBounds lower value sizeMessage checks = .ok () ↔
      Structured 0 value ∧ holdsSecret lower value = false ∧
        canonicalBytes value ≤ Stores.maxConfigurationBytes ∧
        ∀ check ∈ checks, check.1 = false := by
  rw [validateBounds]
  cases hstructure : validateStructure 0 value with
  | error message => simp [Structured, hstructure]
  | ok count => simp [Structured, hstructure, firstViolation_ok_iff]

end Justflow
