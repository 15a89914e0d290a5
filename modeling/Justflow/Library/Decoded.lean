import Justflow.Library.Json
import Mathlib.Data.List.Basic

/-!
# What a lenient reader decodes

The JSON reader of the host language admits more than JSON: numbers that are not finite, and texts
with lone surrogates, which have no encoding.  `strict` gives the JSON value of what was decoded,
if it is one.
-/

/-- A code point of a decoded text: a character, or one of the 2048 surrogates. -/
abbrev DecodedChar := Char ⊕ Fin 2048

structure DecodedText where
  points : List DecodedChar
  deriving DecidableEq

namespace DecodedText

def ofString (s : String) : DecodedText :=
  ⟨s.toList.map .inl⟩

/-- The text, if it can be encoded. -/
def strict (self : DecodedText) : Option String :=
  (self.points.mapM Sum.getLeft?).map String.ofList

@[simp]
theorem strict_ofString (s : String) : (ofString s).strict = some s := by
  have h : ∀ chars : List Char, (chars.map Sum.inl : List DecodedChar).mapM
      Sum.getLeft? = some chars := by
    intro chars
    induction chars with
    | nil => rfl
    | cons c rest ih => simp [ih]
  simp [strict, ofString, h]

theorem ofString_injective : Function.Injective ofString := by
  intro s t h
  have texts := congrArg strict h
  simpa using texts

end DecodedText

inductive DecodedFloat where
  | finite (value : FiniteFloat)
  | nan
  | infinity (negative : Bool)
  deriving DecidableEq

inductive Decoded where
  | null
  | bool (value : Bool)
  | int (value : Int)
  | float (value : DecodedFloat)
  | str (value : DecodedText)
  | arr (items : List Decoded)
  | obj (fields : List (DecodedText × Decoded))

namespace Decoded

/-! ## Reading -/

def field (v : Decoded) (key : String) : Option Decoded :=
  match v with
  | .obj fields => fields.lookup (.ofString key)
  | _ => none

/-- An object without other keys. -/
def keysWithin (allowed : List String) : Decoded → Bool
  | .obj fields => fields.all fun entry => allowed.any fun key => DecodedText.ofString key = entry.1
  | _ => false

def asText : Decoded → Option String
  | .str text => text.strict
  | _ => none

/-- A field that may be absent or null. -/
def optional {α : Type} (read : Decoded → Option α) : Option Decoded → Option (Option α)
  | none => some none
  | some .null => some none
  | some v => (read v).map some

/-- A text that can be encoded. -/
def text (s : String) : Decoded :=
  .str (.ofString s)

/-- An object whose keys can be encoded. -/
def record (fields : List (String × Decoded)) : Decoded :=
  .obj (fields.map fun entry => (.ofString entry.1, entry.2))

@[simp]
theorem asText_text (s : String) : (text s).asText = some s := by
  simp [text, asText]

@[simp]
theorem optional_text {α : Type} (read : Decoded → Option α) (s : String) :
    optional read (some (text s)) = (read (text s)).map some := by
  simp [text, optional]

@[simp]
theorem field_record (fields : List (String × Decoded)) (key : String) :
    (record fields).field key = fields.lookup key := by
  simp only [record, field]
  induction fields with
  | nil => rfl
  | cons entry rest ih =>
      obtain ⟨name, v⟩ := entry
      by_cases same : key = name
      · simp [same]
      · have texts : (DecodedText.ofString key == DecodedText.ofString name) = false :=
          beq_false_of_ne fun h => same (DecodedText.ofString_injective h)
        have names : (key == name) = false := beq_false_of_ne same
        simp only [List.map_cons, List.lookup_cons, texts, names, ih]

@[simp]
theorem keysWithin_record (fields : List (String × Decoded)) (allowed : List String) :
    (record fields).keysWithin allowed = fields.all fun entry => entry.1 ∈ allowed := by
  simp only [record, keysWithin, List.all_map]
  congr 1
  funext entry
  rw [Bool.eq_iff_iff]
  simp only [Function.comp_apply, List.any_eq_true, decide_eq_true_eq]
  constructor
  · rintro ⟨key, hkey, same⟩
    rwa [← DecodedText.ofString_injective same]
  · intro h
    exact ⟨entry.1, h, rfl⟩

/-! ## JSON values -/

mutual

/-- The JSON value, if every number is finite and every text can be encoded. -/
def strict : Decoded → Option JsonValue
  | .null => some .null
  | .bool b => some (.bool b)
  | .int n => some (.int n)
  | .float (.finite f) => some (.float f)
  | .float _ => none
  | .str s => s.strict.map .str
  | .arr items => (strictItems items).map .arr
  | .obj fields => (strictFields fields).map .obj

def strictItems : List Decoded → Option (List JsonValue)
  | [] => some []
  | v :: rest => do return (← strict v) :: (← strictItems rest)

def strictFields : List (DecodedText × Decoded) → Option (List (String × JsonValue))
  | [] => some []
  | (key, v) :: rest => do
      return (← key.strict, ← strict v) :: (← strictFields rest)

end

mutual

/-- A JSON value as a reader gives it. -/
def ofJson : JsonValue → Decoded
  | .null => .null
  | .bool b => .bool b
  | .int n => .int n
  | .float f => .float (.finite f)
  | .str s => .str (.ofString s)
  | .arr items => .arr (ofItems items)
  | .obj fields => .obj (ofFields fields)

def ofItems : List JsonValue → List Decoded
  | [] => []
  | v :: rest => ofJson v :: ofItems rest

def ofFields : List (String × JsonValue) → List (DecodedText × Decoded)
  | [] => []
  | (key, v) :: rest => (.ofString key, ofJson v) :: ofFields rest

end

@[simp]
theorem ofJson_str (s : String) : ofJson (.str s) = text s := rfl

@[simp]
theorem ofJson_obj (fields : List (String × JsonValue)) :
    ofJson (.obj fields) = record (fields.map fun entry => (entry.1, ofJson entry.2)) := by
  have entries : ofFields fields = fields.map fun entry => (.ofString entry.1, ofJson entry.2) := by
    induction fields with
    | nil => rfl
    | cons entry rest ih =>
        obtain ⟨key, v⟩ := entry
        simp [ofFields, ih]
  simp [ofJson, record, entries]

@[simp]
theorem strict_ofJson (v : JsonValue) : (ofJson v).strict = some v := by
  induction v with
  | null | bool | int | float => rfl
  | str s => simp [ofJson, strict]
  | arr items ih =>
      have hitems : strictItems (ofItems items) = some items := by
        induction items with
        | nil => rfl
        | cons v rest hrest =>
            have here := ih v List.mem_cons_self
            have there := hrest fun w hw => ih w (List.mem_cons_of_mem _ hw)
            simp [ofItems, strictItems, here, there]
      simp [ofJson, strict, hitems]
  | obj fields ih =>
      have hfields : strictFields (ofFields fields) = some fields := by
        induction fields with
        | nil => rfl
        | cons entry rest hrest =>
            obtain ⟨key, v⟩ := entry
            have here := ih (key, v) List.mem_cons_self
            have there := hrest fun w hw => ih w (List.mem_cons_of_mem _ hw)
            simp only at here
            simp [ofFields, strictFields, here, there]
      simp [ofJson, strict, hfields]

end Decoded
