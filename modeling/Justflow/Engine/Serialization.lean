import Justflow.Library.JsonPrinting

/-!
# Strict JSON

`dumps_strict_json` writes a value in one of four layouts, two of which sort the keys of objects;
`loads_strict_json` reads a text whose objects have no key twice and whose numbers are finite.
What is written in any layout is read back, with the canonical text that it had (`dumps_loads`).
What is read can be written again in every layout (`loads_dumps`), and two values share a text only
if a reader sees the same (`dumps_eq_dumps_iff`).  An error is `none` here, and strings have no
lone surrogates.
-/

open Fields JsonValue

namespace Justflow

inductive StrictJsonLayout where
  | canonical
  | cacheV1
  | pretty
  | script
  deriving DecidableEq

/-- The host's reading of fractional numbers.  A float prints as a fractional number that is read
as this float. -/
structure FloatReader where
  read : String → Option FiniteFloat
  printed : ∀ text f, read text = some f →
    Denotes read (.float f) f.text.toList

namespace StrictJsonLayout

/-- What a reader sees of a value. -/
def image : StrictJsonLayout → JsonValue → JsonValue
  | .canonical, v | .cacheV1, v => wire v
  | .pretty, v | .script, v => v

/-- `json.dumps` with the options of the layout. -/
def text : StrictJsonLayout → JsonValue → String
  | .canonical, v => JsonValue.text (wire v)
  | .cacheV1, v => flat escapeAscii " " (wire v)
  | .pretty, v => JsonValue.pretty v 0
  | .script, v => flat escapeAscii "" v

end StrictJsonLayout

mutual

/-- The host prints no integer of more digits than it reads. -/
def shortIntegers : JsonValue → Bool
  | .int n => decide (ShortInteger n)
  | .arr items => shortItems items
  | .obj fields => shortFields fields
  | _ => true

def shortItems : List JsonValue → Bool
  | [] => true
  | v :: rest => shortIntegers v && shortItems rest

def shortFields : List (String × JsonValue) → Bool
  | [] => true
  | (_, v) :: rest => shortIntegers v && shortFields rest

end

def dumpsStrictJson (layout : StrictJsonLayout) (value : JsonValue) : Option String :=
  if shortIntegers value then some (layout.text value) else none

def loadsStrictJson (floats : FloatReader) (serialized : String) : Option JsonValue :=
  JsonValue.read floats.read serialized.toList

variable {floats : FloatReader}

theorem shortItems_iff {items : List JsonValue} :
    shortItems items = true ↔ ∀ v ∈ items, shortIntegers v = true := by
  induction items with
  | nil => simp [shortItems]
  | cons v rest ih => simp [shortItems, ih]

theorem shortFields_iff {fields : List (String × JsonValue)} :
    shortFields fields = true ↔ ∀ e ∈ fields, shortIntegers e.2 = true := by
  induction fields with
  | nil => simp [shortFields]
  | cons e rest ih => simp [shortFields, ih]

theorem shortIntegers_of_legible {readFloat : String → Option FiniteFloat} {v : JsonValue}
    (legible : Legible readFloat v) : shortIntegers v = true := by
  induction v with
  | null | bool | float | str => rfl
  | int n => exact decide_eq_true legible
  | arr items ih =>
      rw [Legible, legibleItems_iff] at legible
      rw [shortIntegers, shortItems_iff]
      exact fun v member => ih v member (legible v member)
  | obj fields ih =>
      rw [Legible, legibleFields_iff] at legible
      rw [shortIntegers, shortFields_iff]
      exact fun e member => ih e member (legible.2 e member)

theorem denotes_text (layout : StrictJsonLayout) {v : JsonValue}
    (legible : Legible floats.read v) :
    Denotes floats.read (layout.image v) (layout.text v).toList := by
  have wired := legible_wire floats.read legible
  cases layout with
  | canonical =>
      rw [StrictJsonLayout.text, StrictJsonLayout.image, text_eq_flat]
      exact denotes_flat spelled_escapeChar rfl wired
  | cacheV1 => exact denotes_flat spelled_escapeAscii rfl wired
  | pretty => exact denotes_pretty legible 0
  | script => exact denotes_flat spelled_escapeAscii rfl legible

theorem reads_back (layout : StrictJsonLayout) {v : JsonValue}
    (legible : Legible floats.read v) :
    ∃ serialized, dumpsStrictJson layout v = some serialized ∧
      loadsStrictJson floats serialized = some (layout.image v) := by
  refine ⟨layout.text v, if_pos (shortIntegers_of_legible legible), ?_⟩
  rw [loadsStrictJson, read_eq_some_iff]
  exact ⟨[], _, [], by simp, rfl, rfl, denotes_text layout legible⟩

theorem wire_image (layout : StrictJsonLayout) (v : JsonValue) :
    wire (layout.image v) = wire v := by
  cases layout with
  | canonical | cacheV1 => exact wire_wire v
  | pretty | script => rfl

theorem legible_image (layout : StrictJsonLayout) {v : JsonValue}
    (legible : Legible floats.read v) : Legible floats.read (layout.image v) := by
  cases layout with
  | canonical | cacheV1 => exact legible_wire floats.read legible
  | pretty | script => exact legible

/-- What is written in any layout is read back, up to the order of keys in the layouts that sort
them, and its canonical text is the one that it had. -/
theorem dumps_loads (layout : StrictJsonLayout) {v : JsonValue}
    (legible : Legible floats.read v) :
    ∃ serialized, dumpsStrictJson layout v = some serialized ∧
      loadsStrictJson floats serialized = some (layout.image v) ∧
      dumpsStrictJson .canonical (layout.image v) = dumpsStrictJson .canonical v := by
  obtain ⟨serialized, written, read⟩ := reads_back layout legible
  refine ⟨serialized, written, read, ?_⟩
  rw [dumpsStrictJson, dumpsStrictJson, if_pos (shortIntegers_of_legible legible),
    if_pos (shortIntegers_of_legible (legible_image layout legible)), StrictJsonLayout.text,
    wire_image]
  rfl

/-- A half, and how it is read. -/
def half : FiniteFloat := ⟨1 / 2, "0.5"⟩

def readHalf (text : String) : Option FiniteFloat :=
  if text = "0.5" then some half else none

theorem denotes_half : Denotes readHalf (.float half) "0.5".toList := by
  rw [Denotes]
  have read : readHalf (String.ofList ['0', '.', '5']) = some half := if_pos rfl
  refine ⟨⟨false, ['0'], ['.', '5'], []⟩, ⟨⟨⟨by decide, rfl⟩, fun _ => rfl⟩,
    .inr ⟨['5'], rfl, by decide, rfl⟩, .inl rfl⟩, rfl, ?_⟩
  exact congrArg (Option.map JsonValue.float) read

def halfReader : FloatReader where
  read := readHalf
  printed text f found := by
    unfold readHalf at found
    split at found
    · obtain rfl := Option.some.inj found
      exact denotes_half
    · cases found

/-- An order whose keys are not sorted. -/
def bulkOrder : JsonValue :=
  .obj [("weights", .arr [.int 3, .float half]), ("name", .str "é\n")]

theorem legible_bulkOrder : Legible halfReader.read bulkOrder :=
  ⟨by decide, ⟨show ShortInteger 3 by decide, denotes_half, trivial⟩, trivial, trivial⟩

theorem dumps_loads_bulkOrder :
    ∃ serialized, dumpsStrictJson .cacheV1 bulkOrder = some serialized ∧
      loadsStrictJson halfReader serialized = some (wire bulkOrder) ∧
      dumpsStrictJson .canonical (wire bulkOrder) = dumpsStrictJson .canonical bulkOrder :=
  dumps_loads .cacheV1 legible_bulkOrder

/-! ## What is read -/

theorem shortInteger_of_value {readFloat : String → Option FiniteFloat} {parts : NumberParts}
    {n : Int} (valid : parts.Valid) (value : parts.value readFloat = some (.int n)) :
    ShortInteger n := by
  rw [NumberParts.value] at value
  split at value
  · obtain ⟨m, read, same⟩ := Option.map_eq_some_iff.mp value
    cases same
    rw [NumberParts.integer?] at read
    split at read
    · next short =>
        obtain ⟨⟨nonempty, all⟩, zero⟩ := valid.whole
        have same : n.natAbs = digitsValue parts.whole := by
          rw [← Option.some.inj read]
          split <;> omega
        have leading : parts.whole.length = 1 ∨ parts.whole.head? ≠ some '0' := by
          by_cases leads : parts.whole.head? = some '0'
          · exact .inl (by rw [zero leads]; rfl)
          · exact .inr leads
        rw [ShortInteger, same, repr_digitsValue all nonempty leading, String.length_ofList]
        exact short
    · cases read
  · obtain ⟨f, -, same⟩ := Option.map_eq_some_iff.mp value
    cases same

theorem legible_float {f : FiniteFloat} {cs : List Char}
    (denotes : DenotesNumber floats.read (.float f) cs) :
    Denotes floats.read (.float f) f.text.toList := by
  obtain ⟨parts, -, -, value⟩ := denotes
  rw [NumberParts.value] at value
  split at value
  · obtain ⟨n, -, same⟩ := Option.map_eq_some_iff.mp value
    cases same
  · obtain ⟨found, read, same⟩ := Option.map_eq_some_iff.mp value
    cases same
    exact floats.printed _ f read

theorem denotesItems_mem {readFloat : String → Option FiniteFloat} {items : List JsonValue}
    {body : List Char} (denotes : DenotesItems readFloat items body) :
    ∀ v ∈ items, ∃ cs, Denotes readFloat v cs := by
  induction items generalizing body with
  | nil => exact fun v member => absurd member List.not_mem_nil
  | cons v rest ih =>
      intro w member
      cases rest with
      | nil =>
          rw [DenotesItems] at denotes
          obtain ⟨_, text, _, _, _, _, value⟩ := denotes
          obtain rfl := List.mem_singleton.mp member
          exact ⟨text, value⟩
      | cons u others =>
          rw [DenotesItems] at denotes
          obtain ⟨_, text, _, more, _, _, _, value, others⟩ := denotes
          rcases List.mem_cons.mp member with rfl | member
          · exact ⟨text, value⟩
          · exact ih others w member

theorem denotesFields_mem {readFloat : String → Option FiniteFloat}
    {fields : List (String × JsonValue)} {body : List Char}
    (denotes : DenotesFields readFloat fields body) :
    ∀ e ∈ fields, ∃ cs, Denotes readFloat e.2 cs := by
  induction fields generalizing body with
  | nil => exact fun e member => absurd member List.not_mem_nil
  | cons e rest ih =>
      intro w member
      obtain ⟨k, v⟩ := e
      cases rest with
      | nil =>
          rw [DenotesFields] at denotes
          obtain ⟨_, _, _, _, text, _, _, _, _, _, _, _, value⟩ := denotes
          obtain rfl := List.mem_singleton.mp member
          exact ⟨text, value⟩
      | cons u others =>
          rw [DenotesFields] at denotes
          obtain ⟨_, _, _, _, text, _, more, _, _, _, _, _, _, value, others⟩ := denotes
          rcases List.mem_cons.mp member with rfl | member
          · exact ⟨text, value⟩
          · exact ih others w member

/-- What has a text is legible. -/
theorem legible_of_denotes {v : JsonValue} {cs : List Char} (denotes : Denotes floats.read v cs) :
    Legible floats.read v := by
  induction v generalizing cs with
  | null | bool | str => trivial
  | int n =>
      rw [Denotes] at denotes
      obtain ⟨parts, valid, -, value⟩ := denotes
      exact shortInteger_of_value valid value
  | float f =>
      rw [Denotes] at denotes
      exact legible_float denotes
  | arr items ih =>
      rw [Denotes] at denotes
      obtain ⟨body, -, denotes⟩ := denotes
      rw [Legible, legibleItems_iff]
      intro v member
      obtain ⟨text, value⟩ := denotesItems_mem denotes v member
      exact ih v member value
  | obj fields ih =>
      rw [Denotes] at denotes
      obtain ⟨distinct, body, -, denotes⟩ := denotes
      rw [Legible, legibleFields_iff]
      refine ⟨distinct, fun e member => ?_⟩
      obtain ⟨text, value⟩ := denotesFields_mem denotes e member
      exact ih e member value

/-- What is read has no key twice and can be written in every layout and read back. -/
theorem loads_dumps {serialized : String} {v : JsonValue}
    (read : loadsStrictJson floats serialized = some v) :
    Legible floats.read v ∧ ∀ layout : StrictJsonLayout, ∃ again,
      dumpsStrictJson layout v = some again ∧
        loadsStrictJson floats again = some (layout.image v) := by
  obtain ⟨_, text, _, -, -, -, denotes⟩ := read_eq_some_iff.mp read
  have legible := legible_of_denotes denotes
  exact ⟨legible, fun layout => reads_back layout legible⟩

theorem denotes_weights : Denotes halfReader.read (.arr [.float half, .str "é"])
    "[ 0.5,\"\\u00E9\" ]".toList := by
  rw [Denotes]
  refine ⟨" 0.5,\"\\u00E9\" ".toList, rfl, ?_⟩
  rw [DenotesItems]
  refine ⟨[' '], "0.5".toList, [], "\"\\u00E9\" ".toList, rfl, rfl, rfl, denotes_half, ?_⟩
  rw [DenotesItems]
  refine ⟨[], "\"\\u00E9\"".toList, [' '], rfl, rfl, rfl, ?_⟩
  rw [Denotes]
  refine ⟨"\\u00E9".toList, rfl, ?_⟩
  have digits : codeUnit '0' '0' 'E' '9' = some 0xe9 := by decide
  exact .cons (.unit digits (by decide) (by decide)) .nil

theorem loads_dumps_weights :
    Legible halfReader.read (.arr [.float half, .str "é"]) ∧ ∀ layout : StrictJsonLayout,
      ∃ again, dumpsStrictJson layout (.arr [.float half, .str "é"]) = some again ∧
        loadsStrictJson halfReader again = some (layout.image (.arr [.float half, .str "é"])) :=
  loads_dumps (show loadsStrictJson halfReader "[ 0.5,\"\\u00E9\" ]" = _ from
    read_eq_some_iff.mpr ⟨[], _, [], (List.append_nil _).symm, rfl, rfl, denotes_weights⟩)

/-! ## Equal texts -/

theorem text_eq_of_image_eq (layout : StrictJsonLayout) {v w : JsonValue}
    (same : layout.image v = layout.image w) : layout.text v = layout.text w := by
  cases layout with
  | canonical => exact congrArg JsonValue.text same
  | cacheV1 => exact congrArg (flat escapeAscii " ") same
  | pretty => exact congrArg (JsonValue.pretty · 0) same
  | script => exact congrArg (flat escapeAscii "") same

theorem image_eq_of_dumps_eq (layout : StrictJsonLayout) {v w : JsonValue}
    (first : Legible floats.read v) (second : Legible floats.read w)
    (same : dumpsStrictJson layout v = dumpsStrictJson layout w) :
    layout.image v = layout.image w := by
  obtain ⟨one, written, read⟩ := reads_back layout first
  obtain ⟨other, written', read'⟩ := reads_back layout second
  rw [same, written'] at written
  obtain rfl := Option.some.inj written
  rw [read'] at read
  exact (Option.some.inj read).symm

/-- Two values have one text in a layout exactly if a reader sees the same. -/
theorem dumps_eq_dumps_iff (layout : StrictJsonLayout) {v w : JsonValue}
    (first : Legible floats.read v) (second : Legible floats.read w) :
    dumpsStrictJson layout v = dumpsStrictJson layout w ↔ layout.image v = layout.image w := by
  constructor
  · exact image_eq_of_dumps_eq layout first second
  · intro same
    rw [dumpsStrictJson, dumpsStrictJson, if_pos (shortIntegers_of_legible first),
      if_pos (shortIntegers_of_legible second), text_eq_of_image_eq layout same]

theorem dumps_eq_dumps_iff_bulkOrder :
    dumpsStrictJson .canonical bulkOrder = dumpsStrictJson .canonical (wire bulkOrder) ↔
      wire bulkOrder = wire (wire bulkOrder) :=
  dumps_eq_dumps_iff .canonical legible_bulkOrder (legible_wire halfReader.read legible_bulkOrder)

end Justflow
