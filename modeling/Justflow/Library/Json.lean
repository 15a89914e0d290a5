import Justflow.Library.Fields
import Mathlib.Data.Rat.Defs

/-!
# JSON values with remembered key order

An object keeps the order in which its keys were inserted, as a dictionary of the host
language does.  `wire` is what a value looks like after a serializer that sorts object keys
has written it and a reader has read it back.

`Reordered a b` says that `b` is `a` with the fields of some of its objects in another order,
where an object whose keys were already sorted keeps its order.  It is the relation that a
value and its image on the wire stand in, and it survives everything a program can do to the
two without looking at the order of unsorted keys.  Numbers carry their text, so that no claim
about floating-point arithmetic is made here.
-/

open Fields

/-- A finite float: its exact value, and the text that denotes it. -/
structure FiniteFloat where
  value : Rat
  text : String
  deriving DecidableEq, Repr, Inhabited

/-- A JSON value. -/
inductive JsonValue where
  | null
  | bool (value : Bool)
  | int (value : Int)
  | float (value : FiniteFloat)
  | str (value : String)
  | arr (items : List JsonValue)
  | obj (fields : List (String × JsonValue))
  deriving Repr, Inhabited

namespace JsonValue

/-- Induction over a value, with the hypothesis for every member of a container. -/
@[elab_as_elim, induction_eliminator]
theorem induct {P : JsonValue → Prop} (null : P .null) (bool : ∀ b, P (.bool b))
    (int : ∀ n, P (.int n)) (float : ∀ f, P (.float f)) (str : ∀ s, P (.str s))
    (arr : ∀ items, (∀ v ∈ items, P v) → P (.arr items))
    (obj : ∀ fields, (∀ e ∈ fields, P e.2) → P (.obj fields)) : ∀ v, P v := by
  intro v
  refine JsonValue.rec (motive_1 := P) (motive_2 := fun items => ∀ v ∈ items, P v)
    (motive_3 := fun fields => ∀ e ∈ fields, P e.2) (motive_4 := fun e => P e.2)
    null bool int float str arr obj ?_ ?_ ?_ ?_ ?_ v
  · simp
  · intro head tail hhead htail v hv
    rcases List.mem_cons.mp hv with rfl | hv
    · exact hhead
    · exact htail v hv
  · simp
  · intro head tail hhead htail e he
    rcases List.mem_cons.mp he with rfl | he
    · exact hhead
    · exact htail e he
  · intro key value hvalue
    exact hvalue

/-! ## Equality -/

mutual

/-- Structural equality, key order included. -/
def beq : JsonValue → JsonValue → Bool
  | .null, .null => true
  | .bool a, .bool b => a == b
  | .int a, .int b => a == b
  | .float f, .float g => f == g
  | .str a, .str b => a == b
  | .arr xs, .arr ys => beqItems xs ys
  | .obj es, .obj fs => beqFields es fs
  | _, _ => false

def beqItems : List JsonValue → List JsonValue → Bool
  | [], [] => true
  | x :: xs, y :: ys => beq x y && beqItems xs ys
  | _, _ => false

def beqFields : List (String × JsonValue) → List (String × JsonValue) → Bool
  | [], [] => true
  | (k, x) :: es, (l, y) :: fs => k == l && beq x y && beqFields es fs
  | _, _ => false

end

theorem beqItems_iff {xs : List JsonValue} (h : ∀ x ∈ xs, ∀ y, beq x y = true ↔ x = y)
    (ys : List JsonValue) : beqItems xs ys = true ↔ xs = ys := by
  induction xs generalizing ys with
  | nil => cases ys <;> simp [beqItems]
  | cons x xs ih =>
      cases ys with
      | nil => simp [beqItems]
      | cons y ys =>
          simp only [beqItems, Bool.and_eq_true, List.cons.injEq]
          rw [h x (by simp) y, ih (fun z hz => h z (by simp [hz])) ys]

theorem beqFields_iff {es : List (String × JsonValue)}
    (h : ∀ e ∈ es, ∀ y, beq e.2 y = true ↔ e.2 = y) (fs : List (String × JsonValue)) :
    beqFields es fs = true ↔ es = fs := by
  induction es generalizing fs with
  | nil => cases fs <;> simp [beqFields]
  | cons e es ih =>
      obtain ⟨k, x⟩ := e
      cases fs with
      | nil => simp [beqFields]
      | cons f fs =>
          obtain ⟨l, y⟩ := f
          have hx := h (k, x) (by simp) y
          have hrest := ih (fun e he => h e (by simp [he])) fs
          simp only [beqFields, Bool.and_eq_true, beq_iff_eq, List.cons.injEq, Prod.mk.injEq]
          rw [hx, hrest]

theorem beq_iff (v w : JsonValue) : beq v w = true ↔ v = w := by
  induction v generalizing w with
  | arr items ih => cases w <;> simp [beq, beqItems_iff ih]
  | obj fields ih => cases w <;> simp [beq, beqFields_iff ih]
  | _ => cases w <;> simp [beq]

instance : DecidableEq JsonValue := fun v w => decidable_of_iff _ (beq_iff v w)

/-! ## The image on the wire -/

mutual

/-- The value a key-sorting serializer and a reader give back. -/
def wire : JsonValue → JsonValue
  | .arr items => .arr (wireItems items)
  | .obj fields => .obj (sortKeys (wireFields fields))
  | .null => .null
  | .bool b => .bool b
  | .int n => .int n
  | .float f => .float f
  | .str s => .str s

def wireItems : List JsonValue → List JsonValue
  | [] => []
  | v :: items => wire v :: wireItems items

def wireFields : List (String × JsonValue) → List (String × JsonValue)
  | [] => []
  | (k, v) :: fields => (k, wire v) :: wireFields fields

end

theorem wireItems_eq_map (items : List JsonValue) : wireItems items = items.map wire := by
  induction items with
  | nil => rfl
  | cons v items ih => simp [wireItems, ih]

theorem wireFields_eq_map (fields : List (String × JsonValue)) :
    wireFields fields = fields.map fun e => (e.1, wire e.2) := by
  induction fields with
  | nil => rfl
  | cons e fields ih => simp [wireFields, ih]

@[simp] theorem wire_null : wire .null = .null := rfl
@[simp] theorem wire_bool (b : Bool) : wire (.bool b) = .bool b := rfl
@[simp] theorem wire_int (n : Int) : wire (.int n) = .int n := rfl
@[simp] theorem wire_float (f : FiniteFloat) : wire (.float f) = .float f := rfl
@[simp] theorem wire_str (s : String) : wire (.str s) = .str s := rfl

@[simp]
theorem wire_arr (items : List JsonValue) : wire (.arr items) = .arr (items.map wire) := by
  rw [wire, wireItems_eq_map]

@[simp]
theorem wire_obj (fields : List (String × JsonValue)) :
    wire (.obj fields) = .obj (sortKeys (fields.map fun e => (e.1, wire e.2))) := by
  rw [wire, wireFields_eq_map]

theorem keys_map_snd (f : JsonValue → JsonValue) (fields : List (String × JsonValue)) :
    keys (fields.map fun e => (e.1, f e.2)) = keys fields := by
  simp [keys, Function.comp_def]

@[simp]
theorem wire_wire (v : JsonValue) : wire (wire v) = wire v := by
  induction v with
  | null | bool | int | float | str => rfl
  | arr items ih =>
      simp only [wire_arr, List.map_map, JsonValue.arr.injEq]
      exact List.map_congr_left ih
  | obj fields ih =>
      simp only [wire_obj, JsonValue.obj.injEq]
      rw [← sortKeys_map (fun e => wire e.2), sortKeys_idem, List.map_map]
      congr 1
      exact List.map_congr_left fun e he => by simp [ih e he]

/-! ## Canonical text -/

/-- A character inside a JSON string; only quotes, backslashes and controls are escaped. -/
def escapeChar (c : Char) : String :=
  if c = '"' then "\\\""
  else if c = '\\' then "\\\\"
  else if c = '\n' then "\\n"
  else if c = '\r' then "\\r"
  else if c = '\t' then "\\t"
  else if c.toNat = 8 then "\\b"
  else if c.toNat = 12 then "\\f"
  else if c.toNat < 32 then
    let digits := Nat.toDigits 16 c.toNat
    "\\u" ++ String.ofList (List.replicate (4 - digits.length) '0' ++ digits)
  else c.toString

def quote (s : String) : String :=
  "\"" ++ String.join (s.toList.map escapeChar) ++ "\""

mutual

/-- Compact text in the stored key order. -/
def text : JsonValue → String
  | .null => "null"
  | .bool true => "true"
  | .bool false => "false"
  | .int n => toString n
  | .float f => f.text
  | .str s => quote s
  | .arr items => "[" ++ textItems items ++ "]"
  | .obj fields => "\x7b" ++ textFields fields ++ "\x7d"

def textItems : List JsonValue → String
  | [] => ""
  | [v] => text v
  | v :: w :: rest => text v ++ "," ++ textItems (w :: rest)

def textFields : List (String × JsonValue) → String
  | [] => ""
  | [(k, v)] => quote k ++ ":" ++ text v
  | (k, v) :: e :: rest => quote k ++ ":" ++ text v ++ "," ++ textFields (e :: rest)

end

/-- Bytes of the canonical text, whose keys are sorted. -/
def canonicalBytes (v : JsonValue) : Nat :=
  (text (wire v)).utf8ByteSize

theorem canonicalBytes_congr {v w : JsonValue} (h : wire v = wire w) :
    canonicalBytes v = canonicalBytes w := by
  rw [canonicalBytes, canonicalBytes, h]

theorem length_le_textItems (items : List JsonValue) :
    items.length ≤ (textItems items).utf8ByteSize + 1 := by
  induction items with
  | nil => simp
  | cons v rest ih =>
      cases rest with
      | nil => simp
      | cons w rest =>
          have hcomma : ",".utf8ByteSize = 1 := by decide
          simp only [textItems, String.utf8ByteSize_append, List.length_cons, hcomma] at ih ⊢
          omega

theorem length_le_canonicalBytes_arr (items : List JsonValue) :
    items.length ≤ canonicalBytes (.arr items) := by
  have h := length_le_textItems (items.map wire)
  have hbracket : "[".utf8ByteSize = 1 := by decide
  simp only [canonicalBytes, wire_arr, text, String.utf8ByteSize_append, hbracket] at h ⊢
  rw [List.length_map] at h
  omega

theorem text_le_textFields {fields : List (String × JsonValue)} {e : String × JsonValue}
    (h : e ∈ fields) : (text e.2).utf8ByteSize ≤ (textFields fields).utf8ByteSize := by
  induction fields with
  | nil => simp at h
  | cons f rest ih =>
      obtain ⟨k, v⟩ := f
      rcases List.mem_cons.mp h with rfl | hrest
      · cases rest <;> simp only [textFields, String.utf8ByteSize_append] <;> omega
      · cases rest with
        | nil => simp at hrest
        | cons g rest =>
            have := ih hrest
            simp only [textFields, String.utf8ByteSize_append] at this ⊢
            omega

/-- A member is no larger than its object. -/
theorem canonicalBytes_le_obj {fields : List (String × JsonValue)} {key : String}
    {value : JsonValue} (h : (key, value) ∈ fields) :
    canonicalBytes value ≤ canonicalBytes (.obj fields) := by
  have hmem : (key, wire value) ∈ sortKeys (fields.map fun e => (e.1, wire e.2)) := by
    rw [(sameFields_sortKeys _).mem_iff]
    exact List.mem_map.mpr ⟨_, h, rfl⟩
  have := text_le_textFields hmem
  simp only [canonicalBytes, wire_obj, text, String.utf8ByteSize_append] at this ⊢
  omega

/-! ## Readers -/

/-- A field of an object, by key. -/
def field (v : JsonValue) (key : String) : Option JsonValue :=
  match v with
  | .obj fields => fields.lookup key
  | _ => none

@[simp]
theorem field_obj (fields : List (String × JsonValue)) (key : String) :
    field (.obj fields) key = fields.lookup key := rfl

/-- Crossing the wire commutes with reading a field. -/
@[simp]
theorem field_wire (v : JsonValue) (key : String) :
    field (wire v) key = (field v key).map wire := by
  cases v with
  | obj fields => simp [lookup_map_value]
  | _ => rfl

def asStr : JsonValue → Option String
  | .str s => some s
  | _ => none

def asNat : JsonValue → Option Nat
  | .int n => if 0 ≤ n then some n.toNat else none
  | _ => none

def asFloat : JsonValue → Option FiniteFloat
  | .float f => some f
  | _ => none

def asBool : JsonValue → Option Bool
  | .bool b => some b
  | _ => none

def asArr : JsonValue → Option (List JsonValue)
  | .arr items => some items
  | _ => none

def asObj : JsonValue → Option (List (String × JsonValue))
  | .obj fields => some fields
  | _ => none

/-- A value or null. -/
def ofOption {α : Type} (f : α → JsonValue) : Option α → JsonValue
  | some a => f a
  | none => .null

def asOption {α : Type} (f : JsonValue → Option α) : JsonValue → Option (Option α)
  | .null => some none
  | v => (f v).map some

end JsonValue
