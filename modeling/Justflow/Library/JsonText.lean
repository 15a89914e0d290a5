import Justflow.Library.Decimals
import Justflow.Library.Json

/-!
# The grammar of JSON texts

`Denotes` says which texts denote a value: with white space around every part, with any character
of a string written as itself or as an escape, and with numbers as they are written.  A fractional
number denotes what the host reads it as.  `scanValue` reads a text from its front; it reads what
the grammar has and nothing else (`scanValue_iff`), so that no text denotes two values.
-/

open Fields

namespace JsonValue

/-! ## Grammar -/

def isSpace (c : Char) : Bool :=
  c = ' ' || c = '\t' || c = '\n' || c = '\r'

abbrev Blank (cs : List Char) : Prop :=
  cs.all isSpace = true

/-- The character that a one-letter escape stands for. -/
def simpleEscape (c : Char) : Option Char :=
  if c = '"' then some '"'
  else if c = '\\' then some '\\'
  else if c = '/' then some '/'
  else if c = 'b' then some (Char.ofNat 8)
  else if c = 'f' then some (Char.ofNat 12)
  else if c = 'n' then some '\n'
  else if c = 'r' then some '\r'
  else if c = 't' then some '\t'
  else none

def hexValue (c : Char) : Option Nat :=
  if '0' ≤ c ∧ c ≤ '9' then some (c.toNat - 48)
  else if 'a' ≤ c ∧ c ≤ 'f' then some (c.toNat - 87)
  else if 'A' ≤ c ∧ c ≤ 'F' then some (c.toNat - 55)
  else none

/-- The code unit of four hexadecimal digits. -/
def codeUnit (a b c d : Char) : Option Nat := do
  return ((← hexValue a) * 16 + (← hexValue b)) * 256 + ((← hexValue c) * 16 + (← hexValue d))

def HighSurrogate (unit : Nat) : Prop := 0xd800 ≤ unit ∧ unit ≤ 0xdbff

def LowSurrogate (unit : Nat) : Prop := 0xdc00 ≤ unit ∧ unit ≤ 0xdfff

instance decidableHighSurrogate (unit : Nat) : Decidable (HighSurrogate unit) :=
  inferInstanceAs (Decidable (_ ∧ _))

instance decidableLowSurrogate (unit : Nat) : Decidable (LowSurrogate unit) :=
  inferInstanceAs (Decidable (_ ∧ _))

/-- The character of a pair of surrogates. -/
def pairChar (high low : Nat) : Char :=
  Char.ofNat (0x10000 + (high - 0xd800) * 0x400 + (low - 0xdc00))

/-- How a character of a string is written. -/
inductive SpelledChar : Char → List Char → Prop where
  | plain {c : Char} (printable : 32 ≤ c.toNat) (quote : c ≠ '"') (escape : c ≠ '\\') :
      SpelledChar c [c]
  | simple {c letter : Char} (stands : simpleEscape letter = some c) :
      SpelledChar c ['\\', letter]
  | unit {a b c d : Char} {unit : Nat} (digits : codeUnit a b c d = some unit)
      (high : ¬ HighSurrogate unit) (low : ¬ LowSurrogate unit) :
      SpelledChar (Char.ofNat unit) ['\\', 'u', a, b, c, d]
  | pair {a b c d a' b' c' d' : Char} {high low : Nat} (first : codeUnit a b c d = some high)
      (second : codeUnit a' b' c' d' = some low) (isHigh : HighSurrogate high)
      (isLow : LowSurrogate low) :
      SpelledChar (pairChar high low) ['\\', 'u', a, b, c, d, '\\', 'u', a', b', c', d']

/-- How the characters of a string are written, one after the other. -/
inductive Spelled : List Char → List Char → Prop where
  | nil : Spelled [] []
  | cons {c : Char} {cs spelling rest : List Char} (first : SpelledChar c spelling)
      (others : Spelled cs rest) : Spelled (c :: cs) (spelling ++ rest)

/-- A string between quotes. -/
def Quoted (s : String) (cs : List Char) : Prop :=
  ∃ body, cs = '"' :: (body ++ ['"']) ∧ Spelled s.toList body

abbrev Digits (cs : List Char) : Prop :=
  cs ≠ [] ∧ cs.all isAsciiDigit = true

/-- The digits before the point, without leading zeros. -/
def Whole (cs : List Char) : Prop :=
  Digits cs ∧ (cs.head? = some '0' → cs = ['0'])

def Fraction (cs : List Char) : Prop :=
  cs = [] ∨ ∃ digits, cs = '.' :: digits ∧ Digits digits

def Exponent (cs : List Char) : Prop :=
  cs = [] ∨ ∃ mark sign digits, cs = mark :: (sign ++ digits) ∧ (mark = 'e' ∨ mark = 'E') ∧
    (sign = [] ∨ sign = ['+'] ∨ sign = ['-']) ∧ Digits digits

/-- The parts of a number. -/
structure NumberParts where
  negative : Bool
  whole : List Char
  fraction : List Char
  exponent : List Char

namespace NumberParts

def sign (self : NumberParts) : List Char :=
  if self.negative then ['-'] else []

def text (self : NumberParts) : List Char :=
  self.sign ++ (self.whole ++ (self.fraction ++ self.exponent))

def integral (self : NumberParts) : Bool :=
  self.fraction.isEmpty && self.exponent.isEmpty

structure Valid (parts : NumberParts) : Prop where
  whole : Whole parts.whole
  fraction : Fraction parts.fraction
  exponent : Exponent parts.exponent

/-- The integer of a number without fraction and exponent; longer ones are not read. -/
def integer? (self : NumberParts) : Option Int :=
  if self.whole.length ≤ maxIntegerDigits then
    some (if self.negative then -(digitsValue self.whole : Int) else digitsValue self.whole)
  else none

end NumberParts

section Grammar

-- what the host reads a fractional number as, if that is finite
variable (readFloat : String → Option FiniteFloat)

/-- The value of a number. -/
def NumberParts.value (self : NumberParts) : Option JsonValue :=
  if self.integral then self.integer?.map .int
  else (readFloat (String.ofList self.text)).map .float

def DenotesNumber (v : JsonValue) (cs : List Char) : Prop :=
  ∃ parts : NumberParts, parts.Valid ∧ parts.text = cs ∧ parts.value readFloat = some v

mutual

/-- The texts of a value, without white space around them. -/
def Denotes : JsonValue → List Char → Prop
  | .null, cs => cs = ['n', 'u', 'l', 'l']
  | .bool true, cs => cs = ['t', 'r', 'u', 'e']
  | .bool false, cs => cs = ['f', 'a', 'l', 's', 'e']
  | .int n, cs => DenotesNumber readFloat (.int n) cs
  | .float f, cs => DenotesNumber readFloat (.float f) cs
  | .str s, cs => Quoted s cs
  | .arr items, cs => ∃ body, cs = '[' :: (body ++ [']']) ∧ DenotesItems items body
  | .obj fields, cs => (keys fields).Nodup ∧
      ∃ body, cs = '\x7b' :: (body ++ ['\x7d']) ∧ DenotesFields fields body

/-- What stands between the brackets. -/
def DenotesItems : List JsonValue → List Char → Prop
  | [], cs => Blank cs
  | [v], cs => ∃ before text after, cs = before ++ (text ++ after) ∧ Blank before ∧
      Blank after ∧ Denotes v text
  | v :: w :: rest, cs => ∃ before text after more,
      cs = before ++ (text ++ (after ++ ',' :: more)) ∧ Blank before ∧ Blank after ∧
        Denotes v text ∧ DenotesItems (w :: rest) more

/-- What stands between the braces. -/
def DenotesFields : List (String × JsonValue) → List Char → Prop
  | [], cs => Blank cs
  | [(k, v)], cs => ∃ before key middle gap text after,
      cs = before ++ (key ++ (middle ++ ':' :: (gap ++ (text ++ after)))) ∧ Blank before ∧
        Blank middle ∧ Blank gap ∧ Blank after ∧ Quoted k key ∧ Denotes v text
  | (k, v) :: e :: rest, cs => ∃ before key middle gap text after more,
      cs = before ++ (key ++ (middle ++ ':' :: (gap ++ (text ++ (after ++ ',' :: more))))) ∧
        Blank before ∧ Blank middle ∧ Blank gap ∧ Blank after ∧ Quoted k key ∧
          Denotes v text ∧ DenotesFields (e :: rest) more

end

end Grammar

/-! ## Reader -/

def skipSpace (cs : List Char) : List Char :=
  cs.dropWhile isSpace

/-- What stands behind four hexadecimal digits, and their unit. -/
def scanUnit : List Char → Option (Nat × List Char)
  | a :: b :: c :: d :: rest => (codeUnit a b c d).map (·, rest)
  | _ => none

/-- The second unit of a pair, behind the first one. -/
def scanLow : List Char → Option (Nat × List Char)
  | slash :: letter :: rest => if slash = '\\' ∧ letter = 'u' then scanUnit rest else none
  | _ => none

/-- The character of a hexadecimal escape; a surrogate that stands alone is none. -/
def scanHex (cs : List Char) : Option (Char × List Char) := do
  let (unit, rest) ← scanUnit cs
  if HighSurrogate unit then
    let (low, rest) ← scanLow rest
    if LowSurrogate low then return (pairChar unit low, rest) else none
  else if LowSurrogate unit then none
  else return (Char.ofNat unit, rest)

def scanEscape : List Char → Option (Char × List Char)
  | [] => none
  | letter :: rest => if letter = 'u' then scanHex rest else (simpleEscape letter).map (·, rest)

def scanChar : List Char → Option (Char × List Char)
  | [] => none
  | c :: rest =>
      if c = '\\' then scanEscape rest
      else if c.toNat < 32 then none
      else some (c, rest)

/-- The characters up to the closing quote. -/
def scanString : Nat → List Char → Option (List Char × List Char)
  | 0, _ => none
  | _, [] => none
  | fuel + 1, c :: rest =>
      if c = '"' then some ([], rest)
      else do
        let (first, rest) ← scanChar (c :: rest)
        let (others, rest) ← scanString fuel rest
        return (first :: others, rest)

def scanSign : List Char → Bool × List Char
  | [] => (false, [])
  | c :: rest => if c = '-' then (true, rest) else (false, c :: rest)

def scanWhole : List Char → Option (List Char × List Char)
  | [] => none
  | c :: rest =>
      if c = '0' then some (['0'], rest)
      else if isAsciiDigit c then
        some ((c :: rest).takeWhile isAsciiDigit, (c :: rest).dropWhile isAsciiDigit)
      else none

def scanFraction : List Char → List Char × List Char
  | [] => ([], [])
  | c :: rest =>
      if c = '.' ∧ rest.takeWhile isAsciiDigit ≠ [] then
        ('.' :: rest.takeWhile isAsciiDigit, rest.dropWhile isAsciiDigit)
      else ([], c :: rest)

def scanExponentSign : List Char → List Char × List Char
  | [] => ([], [])
  | c :: rest => if c = '+' ∨ c = '-' then ([c], rest) else ([], c :: rest)

def scanExponent : List Char → List Char × List Char
  | [] => ([], [])
  | c :: rest =>
      if (c = 'e' ∨ c = 'E') ∧ (scanExponentSign rest).2.takeWhile isAsciiDigit ≠ [] then
        (c :: ((scanExponentSign rest).1 ++ (scanExponentSign rest).2.takeWhile isAsciiDigit),
          (scanExponentSign rest).2.dropWhile isAsciiDigit)
      else ([], c :: rest)

def scanNumber (cs : List Char) : Option (NumberParts × List Char) := do
  let (whole, afterWhole) ← scanWhole (scanSign cs).2
  let (fraction, afterFraction) := scanFraction afterWhole
  let (exponent, rest) := scanExponent afterFraction
  return (⟨(scanSign cs).1, whole, fraction, exponent⟩, rest)

section Reader

variable (readFloat : String → Option FiniteFloat)

mutual

/-- The value at the front of a text. -/
def scanValue : Nat → List Char → Option (JsonValue × List Char)
  | 0, _ => none
  | _, [] => none
  | fuel + 1, c :: rest =>
      if c = '"' then (scanString (rest.length + 1) rest).map fun (s, after) =>
        (.str (String.ofList s), after)
      else if c = '\x7b' then scanObject fuel (skipSpace rest)
      else if c = '[' then scanArray fuel (skipSpace rest)
      else if ['n', 'u', 'l', 'l'].isPrefixOf (c :: rest) then some (.null, rest.drop 3)
      else if ['t', 'r', 'u', 'e'].isPrefixOf (c :: rest) then some (.bool true, rest.drop 3)
      else if ['f', 'a', 'l', 's', 'e'].isPrefixOf (c :: rest) then
        some (.bool false, rest.drop 4)
      else do
        let (parts, after) ← scanNumber (c :: rest)
        return (← parts.value readFloat, after)

/-- The array behind its opening bracket. -/
def scanArray : Nat → List Char → Option (JsonValue × List Char)
  | 0, _ => none
  | _, [] => none
  | fuel + 1, c :: rest =>
      if c = ']' then some (.arr [], rest)
      else (scanItems fuel (c :: rest)).map fun (items, after) => (.arr items, after)

/-- The items of an array that has some. -/
def scanItems : Nat → List Char → Option (List JsonValue × List Char)
  | 0, _ => none
  | fuel + 1, cs => do
      let (v, rest) ← scanValue fuel cs
      match skipSpace rest with
      | [] => none
      | c :: after =>
          if c = ']' then return ([v], after)
          else if c = ',' then do
            let (others, after) ← scanItems fuel (skipSpace after)
            return (v :: others, after)
          else none

/-- The object behind its opening brace. -/
def scanObject : Nat → List Char → Option (JsonValue × List Char)
  | 0, _ => none
  | _, [] => none
  | fuel + 1, c :: rest =>
      if c = '\x7d' then some (.obj [], rest)
      else do
        let (fields, after) ← scanFields fuel (c :: rest)
        if (keys fields).Nodup then return (.obj fields, after) else none

/-- The fields of an object that has some. -/
def scanFields : Nat → List Char → Option (List (String × JsonValue) × List Char)
  | 0, _ => none
  | _, [] => none
  | fuel + 1, c :: rest =>
      if c = '"' then do
        let (key, rest) ← scanString (rest.length + 1) rest
        match skipSpace rest with
        | [] => none
        | colon :: rest =>
            if colon = ':' then do
              let (v, rest) ← scanValue fuel (skipSpace rest)
              match skipSpace rest with
              | [] => none
              | c :: after =>
                  if c = '\x7d' then return ([(String.ofList key, v)], after)
                  else if c = ',' then do
                    let (others, after) ← scanFields fuel (skipSpace after)
                    return ((String.ofList key, v) :: others, after)
                  else none
            else none
      else none

end

/-- The value of a whole text. -/
def read (cs : List Char) : Option JsonValue := do
  let (v, rest) ← scanValue readFloat (3 * cs.length + 1) (skipSpace cs)
  if skipSpace rest = [] then return v else none

end Reader

/-! ## Strings -/

theorem scanUnit_eq_some {cs rest : List Char} {unit : Nat} :
    scanUnit cs = some (unit, rest) ↔
      ∃ a b c d, cs = a :: b :: c :: d :: rest ∧ codeUnit a b c d = some unit := by
  constructor
  · intro h
    match cs, h with
    | a :: b :: c :: d :: others, h =>
        rw [scanUnit, Option.map_eq_some_iff] at h
        obtain ⟨_, digits, same⟩ := h
        cases same
        exact ⟨a, b, c, d, rfl, digits⟩
  · rintro ⟨a, b, c, d, rfl, digits⟩
    rw [scanUnit, digits]
    rfl

theorem scanLow_eq_some {cs rest : List Char} {unit : Nat} :
    scanLow cs = some (unit, rest) ↔
      ∃ a b c d, cs = '\\' :: 'u' :: a :: b :: c :: d :: rest ∧ codeUnit a b c d = some unit := by
  constructor
  · intro h
    match cs, h with
    | slash :: letter :: others, h =>
        rw [scanLow] at h
        split at h
        · next marks =>
            obtain ⟨rfl, rfl⟩ := marks
            obtain ⟨a, b, c, d, rfl, digits⟩ := scanUnit_eq_some.mp h
            exact ⟨a, b, c, d, rfl, digits⟩
        · cases h
  · rintro ⟨a, b, c, d, rfl, digits⟩
    rw [scanLow, if_pos ⟨rfl, rfl⟩]
    exact scanUnit_eq_some.mpr ⟨a, b, c, d, rfl, digits⟩

theorem not_low_of_high {unit : Nat} (high : HighSurrogate unit) : ¬ LowSurrogate unit := by
  intro low
  unfold HighSurrogate at high
  unfold LowSurrogate at low
  omega

theorem scanHex_unit {a b c d : Char} {unit : Nat} (digits : codeUnit a b c d = some unit)
    (high : ¬ HighSurrogate unit) (low : ¬ LowSurrogate unit) (rest : List Char) :
    scanHex (a :: b :: c :: d :: rest) = some (Char.ofNat unit, rest) := by
  simp [scanHex, scanUnit, digits, high, low]

theorem scanHex_pair {a b c d a' b' c' d' : Char} {high low : Nat}
    (first : codeUnit a b c d = some high) (second : codeUnit a' b' c' d' = some low)
    (isHigh : HighSurrogate high) (isLow : LowSurrogate low) (rest : List Char) :
    scanHex (a :: b :: c :: d :: '\\' :: 'u' :: a' :: b' :: c' :: d' :: rest) =
      some (pairChar high low, rest) := by
  simp [scanHex, scanUnit, scanLow, first, second, isHigh, isLow]

theorem simpleEscape_ne_u {letter c : Char} (stands : simpleEscape letter = some c) :
    letter ≠ 'u' := by
  rintro rfl
  have apart : simpleEscape 'u' = none := by decide
  rw [apart] at stands
  cases stands

theorem scanChar_spelled {c : Char} {spelling : List Char} (spelled : SpelledChar c spelling)
    (rest : List Char) : scanChar (spelling ++ rest) = some (c, rest) := by
  cases spelled with
  | plain printable quote escape =>
      rw [List.singleton_append, scanChar, if_neg escape, if_neg (by omega)]
  | @simple _ letter stands =>
      change scanChar ('\\' :: letter :: rest) = _
      rw [scanChar, if_pos rfl, scanEscape, if_neg (simpleEscape_ne_u stands), stands]
      rfl
  | @unit a b c d unit digits high low =>
      change scanChar ('\\' :: 'u' :: a :: b :: c :: d :: rest) = _
      rw [scanChar, if_pos rfl, scanEscape, if_pos rfl, scanHex_unit digits high low]
  | @pair a b c d a' b' c' d' _ _ first second isHigh isLow =>
      change scanChar
        ('\\' :: 'u' :: a :: b :: c :: d :: '\\' :: 'u' :: a' :: b' :: c' :: d' :: rest) = _
      rw [scanChar, if_pos rfl, scanEscape, if_pos rfl, scanHex_pair first second isHigh isLow]

theorem head_ne_quote {c : Char} {spelling : List Char} (spelled : SpelledChar c spelling) :
    ∃ first others, spelling = first :: others ∧ first ≠ '"' := by
  cases spelled with
  | plain _ quote _ => exact ⟨_, _, rfl, quote⟩
  | simple _ => exact ⟨_, _, rfl, by decide⟩
  | unit _ _ _ => exact ⟨_, _, rfl, by decide⟩
  | pair _ _ _ _ => exact ⟨_, _, rfl, by decide⟩

/-- What is read as a character is one way to write it. -/
theorem spelled_of_scanChar {first c : Char} {cs rest : List Char} (quote : first ≠ '"')
    (h : scanChar (first :: cs) = some (c, rest)) :
    ∃ spelling, first :: cs = spelling ++ rest ∧ SpelledChar c spelling := by
  rw [scanChar] at h
  split at h
  · next escape =>
      subst escape
      cases cs with
      | nil => cases h
      | cons letter cs =>
          rw [scanEscape] at h
          split at h
          · next isU =>
              subst isU
              rw [scanHex] at h
              obtain ⟨⟨unit, others⟩, four, read⟩ := Option.bind_eq_some_iff.mp h
              obtain ⟨a, b, c', d, rfl, digits⟩ := scanUnit_eq_some.mp four
              dsimp only at read
              split at read
              · next high =>
                  obtain ⟨⟨low, others'⟩, second, final⟩ := Option.bind_eq_some_iff.mp read
                  obtain ⟨a', b', c'', d', rfl, digits'⟩ := scanLow_eq_some.mp second
                  dsimp only at final
                  split at final
                  · next isLow =>
                      obtain ⟨rfl, rfl⟩ := Prod.mk.inj (Option.some.inj final)
                      exact ⟨_, rfl, .pair digits digits' high isLow⟩
                  · cases final
              · next high =>
                  split at read
                  · cases read
                  · next low =>
                      obtain ⟨rfl, rfl⟩ := Prod.mk.inj (Option.some.inj read)
                      exact ⟨_, rfl, .unit digits high low⟩
          · rw [Option.map_eq_some_iff] at h
            obtain ⟨_, stands, same⟩ := h
            cases same
            exact ⟨_, rfl, .simple stands⟩
  · next escape =>
      split at h
      · cases h
      · next printable =>
          cases h
          exact ⟨_, rfl, .plain (by omega) quote escape⟩

theorem length_pos_of_spelled {c : Char} {spelling : List Char}
    (spelled : SpelledChar c spelling) : 0 < spelling.length := by
  obtain ⟨first, others, rfl, -⟩ := head_ne_quote spelled
  exact Nat.succ_pos _

theorem scanString_spelled {s body : List Char} (spelled : Spelled s body) (rest : List Char) :
    ∀ fuel, body.length < fuel → scanString fuel (body ++ '"' :: rest) = some (s, rest) := by
  induction spelled with
  | nil =>
      intro fuel enough
      obtain ⟨more, rfl⟩ := Nat.exists_eq_succ_of_ne_zero (Nat.ne_of_gt enough)
      rfl
  | @cons c cs spelling others first _ ih =>
      intro fuel enough
      have positive := length_pos_of_spelled first
      rw [List.length_append] at enough
      obtain ⟨more, rfl⟩ := Nat.exists_eq_succ_of_ne_zero (show fuel ≠ 0 by omega)
      have char := scanChar_spelled first (others ++ '"' :: rest)
      have string := ih more (by omega)
      obtain ⟨head, tail, rfl, quote⟩ := head_ne_quote first
      rw [List.append_assoc]
      simp only [List.cons_append, scanString] at char ⊢
      rw [if_neg quote, char]
      simp [string]

theorem spelled_of_scanString {fuel : Nat} : ∀ {cs s rest : List Char},
    scanString fuel cs = some (s, rest) → ∃ body, cs = body ++ '"' :: rest ∧ Spelled s body := by
  induction fuel with
  | zero =>
      intro cs s rest h
      cases h
  | succ fuel ih =>
      intro cs s rest h
      cases cs with
      | nil => cases h
      | cons c cs =>
          rw [scanString] at h
          split at h
          · next quote =>
              cases h
              subst quote
              exact ⟨[], rfl, .nil⟩
          · next quote =>
              obtain ⟨⟨first, others⟩, char, h⟩ := Option.bind_eq_some_iff.mp h
              obtain ⟨⟨more, after⟩, string, h⟩ := Option.bind_eq_some_iff.mp h
              cases h
              obtain ⟨spelling, split, spelled⟩ := spelled_of_scanChar quote char
              obtain ⟨body, rfl, tail⟩ := ih string
              exact ⟨spelling ++ body, by rw [split, List.append_assoc], .cons spelled tail⟩

/-! ## Numbers -/

/-- A text that does not go on with a number. -/
def Ended (cs : List Char) : Prop :=
  ∀ c ∈ cs.head?, isAsciiDigit c = false ∧ c ≠ '.' ∧ c ≠ 'e' ∧ c ≠ 'E'

theorem takeWhile_digits {digits rest : List Char} (all : digits.all isAsciiDigit = true)
    (ended : ∀ c ∈ rest.head?, isAsciiDigit c = false) :
    (digits ++ rest).takeWhile isAsciiDigit = digits ∧
      (digits ++ rest).dropWhile isAsciiDigit = rest := by
  have stops : rest.takeWhile isAsciiDigit = [] ∧ rest.dropWhile isAsciiDigit = rest := by
    cases rest with
    | nil => exact ⟨rfl, rfl⟩
    | cons c rest =>
        have := ended c rfl
        simp [this]
  rw [List.all_eq_true] at all
  rw [List.takeWhile_append_of_pos all, List.dropWhile_append_of_pos all, stops.1, stops.2,
    List.append_nil]
  exact ⟨rfl, rfl⟩

theorem digits_takeWhile {cs : List Char} (nonempty : cs.takeWhile isAsciiDigit ≠ []) :
    Digits (cs.takeWhile isAsciiDigit) :=
  ⟨nonempty, List.all_takeWhile⟩

theorem scanWhole_complete {whole rest : List Char} (valid : Whole whole)
    (ended : ∀ c ∈ rest.head?, isAsciiDigit c = false) :
    scanWhole (whole ++ rest) = some (whole, rest) := by
  obtain ⟨⟨nonempty, all⟩, zero⟩ := valid
  obtain ⟨taken, dropped⟩ := takeWhile_digits all ended
  cases whole with
  | nil => exact absurd rfl nonempty
  | cons c digits =>
      rw [List.cons_append, scanWhole]
      split
      · next isZero =>
          subst isZero
          cases zero rfl
          rfl
      · rw [List.all_cons, Bool.and_eq_true] at all
        rw [if_pos all.1, ← List.cons_append, taken, dropped]

theorem scanWhole_sound {cs whole rest : List Char} (h : scanWhole cs = some (whole, rest)) :
    cs = whole ++ rest ∧ Whole whole := by
  cases cs with
  | nil => cases h
  | cons c cs =>
      rw [scanWhole] at h
      split at h
      · next isZero =>
          cases h
          subst isZero
          exact ⟨rfl, ⟨⟨List.cons_ne_nil _ _, rfl⟩, fun _ => rfl⟩⟩
      · next nonzero =>
          split at h
          · next digit =>
              obtain ⟨rfl, rfl⟩ := Prod.mk.inj (Option.some.inj h)
              refine ⟨List.takeWhile_append_dropWhile.symm, digits_takeWhile ?_, fun leads => ?_⟩
              · simp [digit]
              · rw [List.takeWhile_cons_of_pos digit] at leads
                exact absurd (Option.some.inj leads) nonzero
          · cases h

theorem scanFraction_complete {fraction rest : List Char} (valid : Fraction fraction)
    (ended : ∀ c ∈ rest.head?, isAsciiDigit c = false ∧ c ≠ '.') :
    scanFraction (fraction ++ rest) = (fraction, rest) := by
  rcases valid with rfl | ⟨digits, rfl, nonempty, all⟩
  · cases rest with
    | nil => rfl
    | cons c rest =>
        rw [List.nil_append, scanFraction, if_neg]
        exact fun point => (ended c rfl).2 point.1
  · obtain ⟨taken, dropped⟩ := takeWhile_digits all fun c head => (ended c head).1
    rw [List.cons_append, scanFraction, taken, dropped, if_pos ⟨rfl, nonempty⟩]

theorem scanFraction_sound (cs : List Char) :
    cs = (scanFraction cs).1 ++ (scanFraction cs).2 ∧ Fraction (scanFraction cs).1 := by
  cases cs with
  | nil => exact ⟨rfl, .inl rfl⟩
  | cons c cs =>
      rw [scanFraction]
      split
      · next point =>
          obtain ⟨rfl, nonempty⟩ := point
          refine ⟨?_, .inr ⟨_, rfl, digits_takeWhile nonempty⟩⟩
          rw [List.cons_append, List.takeWhile_append_dropWhile]
      · exact ⟨rfl, .inl rfl⟩

theorem scanExponentSign_complete {sign digits : List Char}
    (valid : sign = [] ∨ sign = ['+'] ∨ sign = ['-']) (starts : Digits digits) (rest : List Char) :
    scanExponentSign (sign ++ (digits ++ rest)) = (sign, digits ++ rest) := by
  rcases valid with rfl | rfl | rfl
  · obtain ⟨nonempty, all⟩ := starts
    cases digits with
    | nil => exact absurd rfl nonempty
    | cons c digits =>
        rw [List.all_cons, Bool.and_eq_true] at all
        rw [List.nil_append, List.cons_append, scanExponentSign, if_neg]
        rintro (rfl | rfl) <;> exact absurd all.1 (by decide)
  · rfl
  · rfl

theorem scanExponent_complete {exponent rest : List Char} (valid : Exponent exponent)
    (ended : Ended rest) : scanExponent (exponent ++ rest) = (exponent, rest) := by
  rcases valid with rfl | ⟨mark, sign, digits, rfl, isMark, isSign, isDigits⟩
  · cases rest with
    | nil => rfl
    | cons c rest =>
        rw [List.nil_append, scanExponent, if_neg]
        rintro ⟨isMark | isMark, -⟩
        · exact (ended c rfl).2.2.1 isMark
        · exact (ended c rfl).2.2.2 isMark
  · obtain ⟨taken, dropped⟩ := takeWhile_digits isDigits.2 fun c head => (ended c head).1
    have signed := scanExponentSign_complete isSign isDigits rest
    rw [List.cons_append, List.append_assoc, scanExponent, signed]
    dsimp only
    rw [taken, dropped, if_pos ⟨isMark, isDigits.1⟩]

theorem scanExponentSign_sound (cs : List Char) :
    cs = (scanExponentSign cs).1 ++ (scanExponentSign cs).2 ∧
      ((scanExponentSign cs).1 = [] ∨ (scanExponentSign cs).1 = ['+'] ∨
        (scanExponentSign cs).1 = ['-']) := by
  cases cs with
  | nil => exact ⟨rfl, .inl rfl⟩
  | cons c cs =>
      rw [scanExponentSign]
      split
      · next isSign =>
          rcases isSign with rfl | rfl
          · exact ⟨rfl, .inr (.inl rfl)⟩
          · exact ⟨rfl, .inr (.inr rfl)⟩
      · exact ⟨rfl, .inl rfl⟩

theorem scanExponent_sound (cs : List Char) :
    cs = (scanExponent cs).1 ++ (scanExponent cs).2 ∧ Exponent (scanExponent cs).1 := by
  cases cs with
  | nil => exact ⟨rfl, .inl rfl⟩
  | cons c cs =>
      rw [scanExponent]
      split
      · next marked =>
          obtain ⟨isMark, nonempty⟩ := marked
          obtain ⟨split, isSign⟩ := scanExponentSign_sound cs
          refine ⟨?_, .inr ⟨c, _, _, rfl, isMark, isSign, digits_takeWhile nonempty⟩⟩
          dsimp only
          rw [List.cons_append, List.append_assoc, List.takeWhile_append_dropWhile, ← split]
      · exact ⟨rfl, .inl rfl⟩

/-- Behind the whole digits of a number comes no digit. -/
theorem ended_fraction {fraction exponent rest : List Char} (valid : Fraction fraction)
    (exp : Exponent exponent) (ended : Ended rest) :
    ∀ c ∈ (fraction ++ (exponent ++ rest)).head?, isAsciiDigit c = false := by
  rcases valid with rfl | ⟨digits, rfl, -⟩
  · rcases exp with rfl | ⟨mark, sign, digits, rfl, rfl | rfl, -⟩
    · exact fun c head => (ended c head).1
    · rintro c head
      cases head
      decide
    · rintro c head
      cases head
      decide
  · rintro c head
    cases head
    decide

theorem ended_exponent {exponent rest : List Char} (exp : Exponent exponent)
    (ended : Ended rest) :
    ∀ c ∈ (exponent ++ rest).head?, isAsciiDigit c = false ∧ c ≠ '.' := by
  rcases exp with rfl | ⟨mark, sign, digits, rfl, rfl | rfl, -⟩
  · exact fun c head => ⟨(ended c head).1, (ended c head).2.1⟩
  · rintro c head
    cases head
    decide
  · rintro c head
    cases head
    decide

theorem scanSign_complete {parts : NumberParts} (valid : parts.Valid) (rest : List Char) :
    scanSign (parts.sign ++ (parts.whole ++ rest)) = (parts.negative, parts.whole ++ rest) := by
  rw [NumberParts.sign]
  cases parts.negative with
  | true => rfl
  | false =>
      obtain ⟨⟨nonempty, all⟩, -⟩ := valid.whole
      cases digits : parts.whole with
      | nil => exact absurd digits nonempty
      | cons c others =>
          rw [digits, List.all_cons, Bool.and_eq_true] at all
          change scanSign (c :: (others ++ rest)) = _
          rw [scanSign, if_neg]
          · rfl
          · rintro rfl
            exact absurd all.1 (by decide)

theorem scanSign_sound (cs : List Char) :
    cs = (if (scanSign cs).1 then ['-'] else []) ++ (scanSign cs).2 := by
  cases cs with
  | nil => rfl
  | cons c cs =>
      rw [scanSign]
      split
      · next isSign =>
          subst isSign
          rfl
      · rfl

/-- A number is read up to where it ends. -/
theorem scanNumber_complete {parts : NumberParts} (valid : parts.Valid) {rest : List Char}
    (ended : Ended rest) : scanNumber (parts.text ++ rest) = some (parts, rest) := by
  have signed := scanSign_complete valid (parts.fraction ++ (parts.exponent ++ rest))
  have whole := scanWhole_complete valid.whole
    (ended_fraction valid.fraction valid.exponent ended)
  have fraction := scanFraction_complete valid.fraction (ended_exponent valid.exponent ended)
  have exponent := scanExponent_complete valid.exponent ended
  rw [NumberParts.text]
  simp only [List.append_assoc]
  simp only [scanNumber, signed, whole, Option.bind_eq_bind, Option.bind_some, fraction, exponent]
  rfl

theorem scanNumber_sound {cs rest : List Char} {parts : NumberParts}
    (h : scanNumber cs = some (parts, rest)) : cs = parts.text ++ rest ∧ parts.Valid := by
  obtain ⟨⟨whole, afterWhole⟩, isWhole, h⟩ := Option.bind_eq_some_iff.mp h
  have result : (NumberParts.mk (scanSign cs).1 whole (scanFraction afterWhole).1
      (scanExponent (scanFraction afterWhole).2).1, (scanExponent (scanFraction afterWhole).2).2) =
        (parts, rest) := Option.some.inj h
  obtain ⟨rfl, rfl⟩ := Prod.mk.inj result
  obtain ⟨split, valid⟩ := scanWhole_sound isWhole
  obtain ⟨splitFraction, fraction⟩ := scanFraction_sound afterWhole
  obtain ⟨splitExponent, exponent⟩ := scanExponent_sound (scanFraction afterWhole).2
  refine ⟨?_, valid, fraction, exponent⟩
  rw [NumberParts.text, NumberParts.sign]
  simp only [List.append_assoc]
  rw [← splitExponent, ← splitFraction, ← split]
  exact scanSign_sound cs

/-! ## White space -/

theorem skipSpace_append {blank cs : List Char} (isBlank : Blank blank) :
    skipSpace (blank ++ cs) = skipSpace cs := by
  rw [skipSpace, List.dropWhile_append_of_pos (List.all_eq_true.mp isBlank)]
  rfl

theorem skipSpace_cons {c : Char} {cs : List Char} (visible : isSpace c = false) :
    skipSpace (c :: cs) = c :: cs := by
  rw [skipSpace, List.dropWhile_cons_of_neg (by simp [visible])]

theorem skipped (cs : List Char) : ∃ blank, Blank blank ∧ cs = blank ++ skipSpace cs :=
  ⟨cs.takeWhile isSpace, List.all_takeWhile, List.takeWhile_append_dropWhile.symm⟩

theorem blank_append {first second : List Char} (isFirst : Blank first) (isSecond : Blank second) :
    Blank (first ++ second) := by
  rw [Blank, List.all_append, isFirst, isSecond]
  rfl

theorem not_number_of_isSpace {c : Char} (space : isSpace c = true) :
    isAsciiDigit c = false ∧ c ≠ '.' ∧ c ≠ 'e' ∧ c ≠ 'E' := by
  simp only [isSpace, Bool.or_eq_true, decide_eq_true_eq] at space
  rcases space with ((rfl | rfl) | rfl) | rfl <;> decide

theorem ended_of_blank {blank : List Char} (isBlank : Blank blank) : Ended blank :=
  fun c head => not_number_of_isSpace (List.all_eq_true.mp isBlank c (List.mem_of_mem_head? head))

/-- White space and what closes or continues a container end a number. -/
theorem ended_blank {blank : List Char} (isBlank : Blank blank) {c : Char} {rest : List Char}
    (closes : isAsciiDigit c = false ∧ c ≠ '.' ∧ c ≠ 'e' ∧ c ≠ 'E') :
    Ended (blank ++ c :: rest) := by
  cases blank with
  | nil =>
      rintro _ ⟨⟩
      exact closes
  | cons space others => exact fun d head => ended_of_blank isBlank d head

/-! ## Values -/

/-- What a value begins with. -/
def startsValue (c : Char) : Bool :=
  c = '"' || c = '\x7b' || c = '[' || c = 'n' || c = 't' || c = 'f' || c = '-' || isAsciiDigit c

theorem visible_of_starts {c : Char} (starts : startsValue c = true) :
    isSpace c = false ∧ c ≠ ']' ∧ c ≠ '\x7d' := by
  simp only [startsValue, Bool.or_eq_true, decide_eq_true_eq] at starts
  rcases starts with ((((((rfl | rfl) | rfl) | rfl) | rfl) | rfl) | rfl) | digit
  iterate 7 decide
  obtain ⟨n, bound, rfl⟩ := isAsciiDigit_iff.mp digit
  have table : ∀ n < 10, isSpace (Nat.digitChar n) = false ∧ Nat.digitChar n ≠ ']' ∧
      Nat.digitChar n ≠ '\x7d' := by decide
  exact table n bound

theorem number_head {parts : NumberParts} (valid : parts.Valid) :
    ∃ c cs, parts.text = c :: cs ∧ (c = '-' ∨ isAsciiDigit c = true) := by
  rw [NumberParts.text, NumberParts.sign]
  cases parts.negative with
  | true => exact ⟨_, _, rfl, .inl rfl⟩
  | false =>
      obtain ⟨⟨nonempty, all⟩, -⟩ := valid.whole
      cases digits : parts.whole with
      | nil => exact absurd digits nonempty
      | cons c others =>
          rw [digits, List.all_cons, Bool.and_eq_true] at all
          exact ⟨_, _, rfl, .inr all.1⟩

section Reading

variable {readFloat : String → Option FiniteFloat}

theorem denotesNumber_head {v : JsonValue} {cs : List Char}
    (denotes : DenotesNumber readFloat v cs) :
    ∃ c rest, cs = c :: rest ∧ startsValue c = true := by
  obtain ⟨parts, valid, rfl, -⟩ := denotes
  obtain ⟨c, rest, split, minus | digit⟩ := number_head valid
  · exact ⟨c, rest, split, by rw [minus]; decide⟩
  · exact ⟨c, rest, split, by rw [startsValue, digit, Bool.or_true]⟩

theorem denotes_head {v : JsonValue} {cs : List Char} (denotes : Denotes readFloat v cs) :
    ∃ c rest, cs = c :: rest ∧ startsValue c = true := by
  cases v with
  | null =>
      rw [Denotes] at denotes
      subst denotes
      exact ⟨_, _, rfl, rfl⟩
  | bool b =>
      cases b with
      | true =>
          rw [Denotes] at denotes
          subst denotes
          exact ⟨_, _, rfl, rfl⟩
      | false =>
          rw [Denotes] at denotes
          subst denotes
          exact ⟨_, _, rfl, rfl⟩
  | int n =>
      rw [Denotes] at denotes
      exact denotesNumber_head denotes
  | float f =>
      rw [Denotes] at denotes
      exact denotesNumber_head denotes
  | str s =>
      rw [Denotes] at denotes
      obtain ⟨body, rfl, -⟩ := denotes
      exact ⟨_, _, rfl, rfl⟩
  | arr items =>
      rw [Denotes] at denotes
      obtain ⟨body, rfl, -⟩ := denotes
      exact ⟨_, _, rfl, rfl⟩
  | obj fields =>
      rw [Denotes] at denotes
      obtain ⟨-, body, rfl, -⟩ := denotes
      exact ⟨_, _, rfl, rfl⟩

/-- Before a value, white space is skipped and no more. -/
theorem skipSpace_value {v : JsonValue} {blank text : List Char} (isBlank : Blank blank)
    (denotes : Denotes readFloat v text) (rest : List Char) :
    skipSpace (blank ++ (text ++ rest)) = text ++ rest := by
  obtain ⟨c, others, rfl, starts⟩ := denotes_head denotes
  rw [skipSpace_append isBlank, List.cons_append, skipSpace_cons (visible_of_starts starts).1]

/-- The reader reads every text of the value. -/
def Complete (readFloat : String → Option FiniteFloat) (v : JsonValue) : Prop :=
  ∀ cs, Denotes readFloat v cs → ∀ rest, Ended rest → ∀ fuel, 3 * cs.length ≤ fuel →
    scanValue readFloat fuel (cs ++ rest) = some (v, rest)

theorem complete_number {v : JsonValue} {cs rest : List Char}
    (denotes : DenotesNumber readFloat v cs) (ended : Ended rest) {fuel : Nat}
    (enough : 3 * cs.length ≤ fuel) : scanValue readFloat fuel (cs ++ rest) = some (v, rest) := by
  obtain ⟨parts, valid, rfl, value⟩ := denotes
  have scanned := scanNumber_complete valid ended
  obtain ⟨c, others, split, head⟩ := number_head valid
  rw [split, List.length_cons] at enough
  obtain ⟨more, rfl⟩ := Nat.exists_eq_succ_of_ne_zero (show fuel ≠ 0 by omega)
  have apart : c ≠ '"' ∧ c ≠ '\x7b' ∧ c ≠ '[' ∧ c ≠ 'n' ∧ c ≠ 't' ∧ c ≠ 'f' := by
    rcases head with rfl | digit
    · decide
    · obtain ⟨n, bound, rfl⟩ := isAsciiDigit_iff.mp digit
      have table : ∀ n < 10, Nat.digitChar n ≠ '"' ∧ Nat.digitChar n ≠ '\x7b' ∧
          Nat.digitChar n ≠ '[' ∧ Nat.digitChar n ≠ 'n' ∧ Nat.digitChar n ≠ 't' ∧
            Nat.digitChar n ≠ 'f' := by decide
      exact table n bound
  obtain ⟨quote, brace, bracket, null, true_, false_⟩ := apart
  rw [split, List.cons_append] at scanned ⊢
  rw [scanValue, if_neg quote, if_neg brace, if_neg bracket, if_neg, if_neg, if_neg, scanned]
  · change (parts.value readFloat >>= fun v => some (v, rest)) = _
    rw [value]
    rfl
  · simp [List.isPrefixOf, false_.symm]
  · simp [List.isPrefixOf, true_.symm]
  · simp [List.isPrefixOf, null.symm]

theorem complete_items {items : List JsonValue} (each : ∀ v ∈ items, Complete readFloat v) :
    ∀ (body : List Char), items ≠ [] → DenotesItems readFloat items body →
      ∀ rest fuel, 3 * body.length + 1 ≤ fuel →
        scanItems readFloat fuel (skipSpace (body ++ ']' :: rest)) = some (items, rest) := by
  induction items with
  | nil => exact fun _ nonempty => absurd rfl nonempty
  | cons v others ih =>
      intro body _ denotes rest fuel enough
      obtain ⟨more, rfl⟩ := Nat.exists_eq_succ_of_ne_zero (show fuel ≠ 0 by omega)
      have reads := each v List.mem_cons_self
      cases others with
      | nil =>
          rw [DenotesItems] at denotes
          obtain ⟨before, text, after, rfl, blank, blank', value⟩ := denotes
          simp only [List.length_append] at enough
          have first := reads text value (after ++ ']' :: rest)
            (ended_blank blank' (by decide)) more (by omega)
          simp only [List.append_assoc]
          rw [skipSpace_value blank value, scanItems, first]
          simp only [Option.bind_eq_bind, Option.bind_some]
          rw [skipSpace_append blank', skipSpace_cons (by decide)]
          simp
      | cons w others =>
          rw [DenotesItems] at denotes
          obtain ⟨before, text, after, tail, rfl, blank, blank', value, items⟩ := denotes
          simp only [List.length_append, List.length_cons] at enough
          have first := reads text value (after ++ ',' :: (tail ++ ']' :: rest))
            (ended_blank blank' (by decide)) more (by omega)
          have second := ih (fun v member => each v (List.mem_cons_of_mem _ member)) tail
            (List.cons_ne_nil _ _) items rest more (by omega)
          simp only [List.append_assoc, List.cons_append]
          rw [skipSpace_value blank value, scanItems, first]
          simp only [Option.bind_eq_bind, Option.bind_some]
          rw [skipSpace_append blank', skipSpace_cons (by decide)]
          simp [second]

theorem scanKey {k : String} {key : List Char} (quoted : Quoted k key) (rest : List Char) :
    ∃ body, key ++ rest = '"' :: (body ++ '"' :: rest) ∧
      scanString ((body ++ '"' :: rest).length + 1) (body ++ '"' :: rest) =
        some (k.toList, rest) := by
  obtain ⟨body, rfl, spelled⟩ := quoted
  refine ⟨body, by simp, scanString_spelled spelled rest _ ?_⟩
  rw [List.length_append]
  omega

theorem complete_fields {fields : List (String × JsonValue)}
    (each : ∀ e ∈ fields, Complete readFloat e.2) :
    ∀ (body : List Char), fields ≠ [] → DenotesFields readFloat fields body →
      ∀ rest fuel, 3 * body.length + 1 ≤ fuel →
        scanFields readFloat fuel (skipSpace (body ++ '\x7d' :: rest)) = some (fields, rest) := by
  induction fields with
  | nil => exact fun _ nonempty => absurd rfl nonempty
  | cons e others ih =>
      intro body _ denotes rest fuel enough
      obtain ⟨more, rfl⟩ := Nat.exists_eq_succ_of_ne_zero (show fuel ≠ 0 by omega)
      obtain ⟨k, v⟩ := e
      have reads : Complete readFloat v := each (k, v) List.mem_cons_self
      cases others with
      | nil =>
          rw [DenotesFields] at denotes
          obtain ⟨before, key, middle, gap, text, after, rfl, blank, blankMiddle, blankGap, blank',
            quoted, value⟩ := denotes
          simp only [List.length_append, List.length_cons] at enough
          have first := reads text value (after ++ '\x7d' :: rest)
            (ended_blank blank' (by decide)) more (by omega)
          simp only [List.append_assoc, List.cons_append]
          obtain ⟨spelling, split, string⟩ := scanKey quoted
            (middle ++ ':' :: (gap ++ (text ++ (after ++ '\x7d' :: rest))))
          rw [skipSpace_append blank, split, skipSpace_cons (by decide), scanFields, if_pos rfl,
            string]
          simp only [Option.bind_eq_bind, Option.bind_some]
          rw [skipSpace_append blankMiddle, skipSpace_cons (by decide)]
          simp only [if_true]
          rw [skipSpace_value blankGap value, first]
          simp only [Option.bind_some]
          rw [skipSpace_append blank', skipSpace_cons (by decide)]
          simp
      | cons e others =>
          rw [DenotesFields] at denotes
          obtain ⟨before, key, middle, gap, text, after, tail, rfl, blank, blankMiddle, blankGap,
            blank', quoted, value, fields⟩ := denotes
          simp only [List.length_append, List.length_cons] at enough
          have first := reads text value (after ++ ',' :: (tail ++ '\x7d' :: rest))
            (ended_blank blank' (by decide)) more (by omega)
          have second := ih (fun e member => each e (List.mem_cons_of_mem _ member)) tail
            (List.cons_ne_nil _ _) fields rest more (by omega)
          simp only [List.append_assoc, List.cons_append]
          obtain ⟨spelling, split, string⟩ := scanKey quoted
            (middle ++ ':' :: (gap ++ (text ++ (after ++ ',' :: (tail ++ '\x7d' :: rest)))))
          rw [skipSpace_append blank, split, skipSpace_cons (by decide), scanFields, if_pos rfl,
            string]
          simp only [Option.bind_eq_bind, Option.bind_some]
          rw [skipSpace_append blankMiddle, skipSpace_cons (by decide)]
          simp only [if_true]
          rw [skipSpace_value blankGap value, first]
          simp only [Option.bind_some]
          rw [skipSpace_append blank', skipSpace_cons (by decide)]
          simp [second]

/-- The first of some items begins what is between the brackets. -/
theorem items_head {items : List JsonValue} {body : List Char} (nonempty : items ≠ [])
    (denotes : DenotesItems readFloat items body) (rest : List Char) :
    ∃ c others, skipSpace (body ++ rest) = c :: others ∧ c ≠ ']' := by
  match items, nonempty, denotes with
  | [v], _, denotes =>
      rw [DenotesItems] at denotes
      obtain ⟨before, text, after, rfl, blank, -, value⟩ := denotes
      simp only [List.append_assoc]
      rw [skipSpace_value blank value]
      obtain ⟨c, others, rfl, starts⟩ := denotes_head value
      exact ⟨c, _, rfl, (visible_of_starts starts).2.1⟩
  | v :: w :: others, _, denotes =>
      rw [DenotesItems] at denotes
      obtain ⟨before, text, after, tail, rfl, blank, -, value, -⟩ := denotes
      simp only [List.append_assoc]
      rw [skipSpace_value blank value]
      obtain ⟨c, others, rfl, starts⟩ := denotes_head value
      exact ⟨c, _, rfl, (visible_of_starts starts).2.1⟩

theorem fields_head {fields : List (String × JsonValue)} {body : List Char}
    (nonempty : fields ≠ []) (denotes : DenotesFields readFloat fields body) (rest : List Char) :
    ∃ c others, skipSpace (body ++ rest) = c :: others ∧ c ≠ '\x7d' := by
  match fields, nonempty, denotes with
  | [(k, v)], _, denotes =>
      rw [DenotesFields] at denotes
      obtain ⟨before, key, middle, gap, text, after, rfl, blank, -, -, -, quoted, -⟩ := denotes
      simp only [List.append_assoc]
      obtain ⟨spelling, split, -⟩ := scanKey quoted
        ((middle ++ ':' :: (gap ++ (text ++ after))) ++ rest)
      simp only [List.append_assoc] at split
      rw [skipSpace_append blank, split, skipSpace_cons (by decide)]
      exact ⟨_, _, rfl, by decide⟩
  | (k, v) :: e :: others, _, denotes =>
      rw [DenotesFields] at denotes
      obtain ⟨before, key, middle, gap, text, after, tail, rfl, blank, -, -, -, quoted, -⟩ :=
        denotes
      simp only [List.append_assoc]
      obtain ⟨spelling, split, -⟩ := scanKey quoted
        ((middle ++ ':' :: (gap ++ (text ++ (after ++ ',' :: tail)))) ++ rest)
      simp only [List.append_assoc] at split
      rw [skipSpace_append blank, split, skipSpace_cons (by decide)]
      exact ⟨_, _, rfl, by decide⟩

/-- Every text of a value is read as the value. -/
theorem scanValue_complete (v : JsonValue) : Complete readFloat v := by
  induction v with
  | null =>
      intro cs denotes rest _ fuel enough
      rw [Denotes] at denotes
      subst denotes
      obtain ⟨more, rfl⟩ := Nat.exists_eq_succ_of_ne_zero (show fuel ≠ 0 by simp at enough; omega)
      rfl
  | bool b =>
      intro cs denotes rest _ fuel enough
      cases b with
      | true =>
          rw [Denotes] at denotes
          subst denotes
          obtain ⟨more, rfl⟩ := Nat.exists_eq_succ_of_ne_zero
            (show fuel ≠ 0 by simp at enough; omega)
          rfl
      | false =>
          rw [Denotes] at denotes
          subst denotes
          obtain ⟨more, rfl⟩ := Nat.exists_eq_succ_of_ne_zero
            (show fuel ≠ 0 by simp at enough; omega)
          rfl
  | int n =>
      intro cs denotes rest ended fuel enough
      rw [Denotes] at denotes
      exact complete_number denotes ended enough
  | float f =>
      intro cs denotes rest ended fuel enough
      rw [Denotes] at denotes
      exact complete_number denotes ended enough
  | str s =>
      intro cs denotes rest _ fuel enough
      rw [Denotes] at denotes
      obtain ⟨body, split, string⟩ := scanKey denotes rest
      obtain ⟨c, rfl, -⟩ := denotes
      obtain ⟨more, rfl⟩ := Nat.exists_eq_succ_of_ne_zero
        (show fuel ≠ 0 by rw [List.length_cons] at enough; omega)
      rw [split, scanValue, if_pos rfl, string]
      simp
  | arr items ih =>
      intro cs denotes rest _ fuel enough
      rw [Denotes] at denotes
      obtain ⟨body, rfl, denotes⟩ := denotes
      simp only [List.length_cons, List.length_append, List.length_nil] at enough
      obtain ⟨more, rfl⟩ := Nat.exists_eq_add_of_le (show 2 ≤ fuel by omega)
      rw [show 2 + more = more + 1 + 1 by omega, List.cons_append, List.append_assoc, scanValue,
        if_neg (by decide), if_neg (by decide), if_pos rfl]
      cases items with
      | nil =>
          rw [DenotesItems] at denotes
          rw [skipSpace_append denotes]
          change scanArray readFloat (more + 1) (skipSpace (']' :: rest)) = _
          rw [skipSpace_cons (by decide), scanArray, if_pos rfl]
      | cons v others =>
          have read := complete_items ih body (List.cons_ne_nil _ _) denotes rest more (by omega)
          obtain ⟨c, tail, begins, open_⟩ := items_head (List.cons_ne_nil _ _) denotes (']' :: rest)
          change scanArray readFloat (more + 1) (skipSpace (body ++ ']' :: rest)) = _
          rw [begins] at read ⊢
          rw [scanArray, if_neg open_, read]
          rfl
  | obj fields ih =>
      intro cs denotes rest _ fuel enough
      rw [Denotes] at denotes
      obtain ⟨distinct, body, rfl, denotes⟩ := denotes
      simp only [List.length_cons, List.length_append, List.length_nil] at enough
      obtain ⟨more, rfl⟩ := Nat.exists_eq_add_of_le (show 2 ≤ fuel by omega)
      rw [show 2 + more = more + 1 + 1 by omega, List.cons_append, List.append_assoc, scanValue,
        if_neg (by decide), if_pos rfl]
      cases fields with
      | nil =>
          rw [DenotesFields] at denotes
          rw [skipSpace_append denotes]
          change scanObject readFloat (more + 1) (skipSpace ('\x7d' :: rest)) = _
          rw [skipSpace_cons (by decide), scanObject, if_pos rfl]
      | cons e others =>
          have read := complete_fields ih body (List.cons_ne_nil _ _) denotes rest more (by omega)
          obtain ⟨c, tail, begins, open_⟩ := fields_head (List.cons_ne_nil _ _) denotes
            ('\x7d' :: rest)
          change scanObject readFloat (more + 1) (skipSpace (body ++ '\x7d' :: rest)) = _
          rw [begins] at read ⊢
          rw [scanObject, if_neg open_, read]
          simp only [Option.bind_eq_bind, Option.bind_some]
          rw [if_pos distinct]
          rfl

/-! ## What is read -/

theorem denotesItems_blank {items : List JsonValue} {blank body : List Char}
    (isBlank : Blank blank) (denotes : DenotesItems readFloat items body) :
    DenotesItems readFloat items (blank ++ body) := by
  match items, denotes with
  | [], denotes =>
      rw [DenotesItems] at denotes ⊢
      exact blank_append isBlank denotes
  | [v], denotes =>
      rw [DenotesItems] at denotes ⊢
      obtain ⟨before, text, after, rfl, blank', rest⟩ := denotes
      exact ⟨blank ++ before, text, after, by simp, blank_append isBlank blank', rest⟩
  | v :: w :: others, denotes =>
      rw [DenotesItems] at denotes ⊢
      obtain ⟨before, text, after, tail, rfl, blank', rest⟩ := denotes
      exact ⟨blank ++ before, text, after, tail, by simp, blank_append isBlank blank', rest⟩

theorem denotesFields_blank {fields : List (String × JsonValue)} {blank body : List Char}
    (isBlank : Blank blank) (denotes : DenotesFields readFloat fields body) :
    DenotesFields readFloat fields (blank ++ body) := by
  match fields, denotes with
  | [], denotes =>
      rw [DenotesFields] at denotes ⊢
      exact blank_append isBlank denotes
  | [(k, v)], denotes =>
      rw [DenotesFields] at denotes ⊢
      obtain ⟨before, key, middle, gap, text, after, rfl, blank', rest⟩ := denotes
      exact ⟨blank ++ before, key, middle, gap, text, after, by simp,
        blank_append isBlank blank', rest⟩
  | (k, v) :: e :: others, denotes =>
      rw [DenotesFields] at denotes ⊢
      obtain ⟨before, key, middle, gap, text, after, tail, rfl, blank', rest⟩ := denotes
      exact ⟨blank ++ before, key, middle, gap, text, after, tail, by simp,
        blank_append isBlank blank', rest⟩

/-- What the parts of the reader read with some fuel. -/
structure Sound (readFloat : String → Option FiniteFloat) (fuel : Nat) : Prop where
  value : ∀ cs v rest, scanValue readFloat fuel cs = some (v, rest) →
    ∃ text, cs = text ++ rest ∧ Denotes readFloat v text
  array : ∀ cs v rest, scanArray readFloat fuel cs = some (v, rest) →
    ∃ items body, v = .arr items ∧ cs = body ++ ']' :: rest ∧ DenotesItems readFloat items body
  items : ∀ cs items rest, scanItems readFloat fuel cs = some (items, rest) →
    items ≠ [] ∧ ∃ body, cs = body ++ ']' :: rest ∧ DenotesItems readFloat items body
  object : ∀ cs v rest, scanObject readFloat fuel cs = some (v, rest) →
    ∃ fields body, v = .obj fields ∧ (keys fields).Nodup ∧ cs = body ++ '\x7d' :: rest ∧
      DenotesFields readFloat fields body
  fields : ∀ cs fields rest, scanFields readFloat fuel cs = some (fields, rest) →
    fields ≠ [] ∧ ∃ body, cs = body ++ '\x7d' :: rest ∧ DenotesFields readFloat fields body

theorem prefix_split {word cs : List Char} (begins : word.isPrefixOf cs = true) :
    cs = word ++ cs.drop word.length := by
  obtain ⟨rest, rfl⟩ := List.isPrefixOf_iff_prefix.mp begins
  simp

theorem denotes_number_value {parts : NumberParts} {v : JsonValue} (valid : parts.Valid)
    (value : parts.value readFloat = some v) : Denotes readFloat v parts.text := by
  have denotes : DenotesNumber readFloat v parts.text := ⟨parts, valid, rfl, value⟩
  rw [NumberParts.value] at value
  split at value
  · obtain ⟨n, -, rfl⟩ := Option.map_eq_some_iff.mp value
    rw [Denotes]
    exact denotes
  · obtain ⟨f, -, rfl⟩ := Option.map_eq_some_iff.mp value
    rw [Denotes]
    exact denotes

theorem sound_value {fuel : Nat} (below : Sound readFloat fuel) (cs : List Char) (v : JsonValue)
    (rest : List Char) (h : scanValue readFloat (fuel + 1) cs = some (v, rest)) :
    ∃ text, cs = text ++ rest ∧ Denotes readFloat v text := by
  cases cs with
  | nil => cases h
  | cons c cs =>
      rw [scanValue] at h
      split at h
      · next quote =>
          subst quote
          obtain ⟨⟨s, after⟩, string, same⟩ := Option.map_eq_some_iff.mp h
          cases same
          obtain ⟨body, rfl, spelled⟩ := spelled_of_scanString string
          refine ⟨'"' :: (body ++ ['"']), by simp, ?_⟩
          rw [Denotes]
          exact ⟨body, rfl, by rwa [String.toList_ofList]⟩
      · split at h
        · next brace =>
            subst brace
            obtain ⟨fields, body, rfl, distinct, split, denotes⟩ := below.object _ _ _ h
            obtain ⟨blank, isBlank, same⟩ := skipped cs
            refine ⟨'\x7b' :: ((blank ++ body) ++ ['\x7d']), ?_, ?_⟩
            · rw [same, split]
              simp
            · rw [Denotes]
              exact ⟨distinct, _, rfl, denotesFields_blank isBlank denotes⟩
        · split at h
          · next bracket =>
              subst bracket
              obtain ⟨items, body, rfl, split, denotes⟩ := below.array _ _ _ h
              obtain ⟨blank, isBlank, same⟩ := skipped cs
              refine ⟨'[' :: ((blank ++ body) ++ [']']), ?_, ?_⟩
              · rw [same, split]
                simp
              · rw [Denotes]
                exact ⟨_, rfl, denotesItems_blank isBlank denotes⟩
          · split at h
            · next word =>
                obtain ⟨rfl, rfl⟩ := Prod.mk.inj (Option.some.inj h)
                refine ⟨_, prefix_split word, ?_⟩
                rw [Denotes]
            · split at h
              · next word =>
                  obtain ⟨rfl, rfl⟩ := Prod.mk.inj (Option.some.inj h)
                  refine ⟨_, prefix_split word, ?_⟩
                  rw [Denotes]
              · split at h
                · next word =>
                    obtain ⟨rfl, rfl⟩ := Prod.mk.inj (Option.some.inj h)
                    refine ⟨_, prefix_split word, ?_⟩
                    rw [Denotes]
                · obtain ⟨⟨parts, after⟩, number, h⟩ := Option.bind_eq_some_iff.mp h
                  obtain ⟨w, value, h⟩ := Option.bind_eq_some_iff.mp h
                  obtain ⟨rfl, rfl⟩ := Prod.mk.inj (Option.some.inj h)
                  obtain ⟨split, valid⟩ := scanNumber_sound number
                  exact ⟨_, split, denotes_number_value valid value⟩

theorem sound_array {fuel : Nat} (below : Sound readFloat fuel) (cs : List Char) (v : JsonValue)
    (rest : List Char) (h : scanArray readFloat (fuel + 1) cs = some (v, rest)) :
    ∃ items body, v = .arr items ∧ cs = body ++ ']' :: rest ∧
      DenotesItems readFloat items body := by
  cases cs with
  | nil => cases h
  | cons c cs =>
      rw [scanArray] at h
      split at h
      · next closes =>
          subst closes
          obtain ⟨rfl, rfl⟩ := Prod.mk.inj (Option.some.inj h)
          refine ⟨[], [], rfl, rfl, ?_⟩
          rw [DenotesItems]
          rfl
      · obtain ⟨⟨items, after⟩, read, same⟩ := Option.map_eq_some_iff.mp h
        cases same
        obtain ⟨-, body, split, denotes⟩ := below.items _ _ _ read
        exact ⟨items, body, rfl, split, denotes⟩

theorem sound_items {fuel : Nat} (below : Sound readFloat fuel) (cs : List Char)
    (items : List JsonValue) (rest : List Char)
    (h : scanItems readFloat (fuel + 1) cs = some (items, rest)) :
    items ≠ [] ∧ ∃ body, cs = body ++ ']' :: rest ∧ DenotesItems readFloat items body := by
  rw [scanItems] at h
  obtain ⟨⟨v, behind⟩, value, goes⟩ := Option.bind_eq_some_iff.mp h
  obtain ⟨text, rfl, denotes⟩ := below.value _ _ _ value
  obtain ⟨blank, isBlank, same⟩ := skipped behind
  dsimp only at goes
  split at goes
  · cases goes
  · next c after next_ =>
      rw [next_] at same
      split at goes
      · next closes =>
          subst closes
          obtain ⟨rfl, rfl⟩ := Prod.mk.inj (Option.some.inj goes)
          refine ⟨List.cons_ne_nil _ _, text ++ blank, by simp [same], ?_⟩
          rw [DenotesItems]
          exact ⟨[], text, blank, rfl, rfl, isBlank, denotes⟩
      · split at goes
        · next comma =>
            subst comma
            obtain ⟨⟨others, final⟩, read, goes⟩ := Option.bind_eq_some_iff.mp goes
            obtain ⟨rfl, rfl⟩ := Prod.mk.inj (Option.some.inj goes)
            obtain ⟨nonempty, body, split, more⟩ := below.items _ _ _ read
            obtain ⟨gap, isGap, behind_⟩ := skipped after
            refine ⟨List.cons_ne_nil _ _, text ++ (blank ++ ',' :: (gap ++ body)), ?_, ?_⟩
            · rw [same, behind_, split]
              simp
            · match others, nonempty, more with
              | w :: others, _, more =>
                  rw [DenotesItems]
                  exact ⟨[], text, blank, gap ++ body, rfl, rfl, isBlank, denotes,
                    denotesItems_blank isGap more⟩
        · cases goes

theorem sound_object {fuel : Nat} (below : Sound readFloat fuel) (cs : List Char) (v : JsonValue)
    (rest : List Char) (h : scanObject readFloat (fuel + 1) cs = some (v, rest)) :
    ∃ fields body, v = .obj fields ∧ (keys fields).Nodup ∧ cs = body ++ '\x7d' :: rest ∧
      DenotesFields readFloat fields body := by
  cases cs with
  | nil => cases h
  | cons c cs =>
      rw [scanObject] at h
      split at h
      · next closes =>
          subst closes
          obtain ⟨rfl, rfl⟩ := Prod.mk.inj (Option.some.inj h)
          refine ⟨[], [], rfl, List.nodup_nil, rfl, ?_⟩
          rw [DenotesFields]
          rfl
      · obtain ⟨⟨fields, after⟩, read, h⟩ := Option.bind_eq_some_iff.mp h
        dsimp only at h
        split at h
        · next distinct =>
            obtain ⟨rfl, rfl⟩ := Prod.mk.inj (Option.some.inj h)
            obtain ⟨-, body, split, denotes⟩ := below.fields _ _ _ read
            exact ⟨fields, body, rfl, distinct, split, denotes⟩
        · cases h

theorem sound_fields {fuel : Nat} (below : Sound readFloat fuel) (cs : List Char)
    (fields : List (String × JsonValue)) (rest : List Char)
    (h : scanFields readFloat (fuel + 1) cs = some (fields, rest)) :
    fields ≠ [] ∧ ∃ body, cs = body ++ '\x7d' :: rest ∧ DenotesFields readFloat fields body := by
  cases cs with
  | nil => cases h
  | cons c cs =>
      rw [scanFields] at h
      split at h
      · next quote =>
          subst quote
          obtain ⟨⟨key, behindKey⟩, string, goes⟩ := Option.bind_eq_some_iff.mp h
          obtain ⟨spelling, rfl, spelled⟩ := spelled_of_scanString string
          have quoted : Quoted (String.ofList key) ('"' :: (spelling ++ ['"'])) :=
            ⟨spelling, rfl, by rwa [String.toList_ofList]⟩
          obtain ⟨middle, isMiddle, sameMiddle⟩ := skipped behindKey
          dsimp only at goes
          split at goes
          · cases goes
          · next colon behindColon next_ =>
              rw [next_] at sameMiddle
              split at goes
              · next isColon =>
                  subst isColon
                  obtain ⟨⟨v, behind⟩, value, goes⟩ := Option.bind_eq_some_iff.mp goes
                  obtain ⟨gap, isGap, sameGap⟩ := skipped behindColon
                  obtain ⟨text, split, denotes⟩ := below.value _ _ _ value
                  obtain ⟨blank, isBlank, same⟩ := skipped behind
                  dsimp only at goes
                  split at goes
                  · cases goes
                  · next c after next' =>
                      rw [next'] at same
                      split at goes
                      · next closes =>
                          subst closes
                          obtain ⟨rfl, rfl⟩ := Prod.mk.inj (Option.some.inj goes)
                          refine ⟨List.cons_ne_nil _ _, ('"' :: (spelling ++ ['"'])) ++
                            (middle ++ ':' :: (gap ++ (text ++ blank))), ?_, ?_⟩
                          · rw [sameMiddle, sameGap, split, same]
                            simp
                          · rw [DenotesFields]
                            exact ⟨[], _, middle, gap, text, blank, rfl, rfl, isMiddle, isGap,
                              isBlank, quoted, denotes⟩
                      · split at goes
                        · next comma =>
                            subst comma
                            obtain ⟨⟨others, final⟩, read, goes⟩ := Option.bind_eq_some_iff.mp goes
                            obtain ⟨rfl, rfl⟩ := Prod.mk.inj (Option.some.inj goes)
                            obtain ⟨nonempty, body, splits, more⟩ := below.fields _ _ _ read
                            obtain ⟨space, isSpace, sameSpace⟩ := skipped after
                            refine ⟨List.cons_ne_nil _ _, ('"' :: (spelling ++ ['"'])) ++
                              (middle ++ ':' :: (gap ++ (text ++
                                (blank ++ ',' :: (space ++ body))))), ?_, ?_⟩
                            · rw [sameMiddle, sameGap, split, same, sameSpace, splits]
                              simp
                            · match others, nonempty, more with
                              | e :: others, _, more =>
                                  rw [DenotesFields]
                                  exact ⟨[], _, middle, gap, text, blank, space ++ body, rfl, rfl,
                                    isMiddle, isGap, isBlank, quoted, denotes,
                                    denotesFields_blank isSpace more⟩
                        · cases goes
              · cases goes
      · cases h

theorem scan_sound (fuel : Nat) : Sound readFloat fuel := by
  induction fuel with
  | zero =>
      constructor
      all_goals
        intro cs read rest h
        cases h
  | succ fuel ih =>
      exact ⟨sound_value ih, sound_array ih, sound_items ih, sound_object ih, sound_fields ih⟩

/-- A text with white space around it. -/
def DenotesText (readFloat : String → Option FiniteFloat) (v : JsonValue) (cs : List Char) : Prop :=
  ∃ before text after, cs = before ++ (text ++ after) ∧ Blank before ∧ Blank after ∧
    Denotes readFloat v text

/-- The reader reads the texts of the grammar, as what they denote, and nothing else. -/
theorem read_eq_some_iff {cs : List Char} {v : JsonValue} :
    read readFloat cs = some v ↔ DenotesText readFloat v cs := by
  constructor
  · intro h
    obtain ⟨⟨w, rest⟩, value, h⟩ := Option.bind_eq_some_iff.mp h
    dsimp only at h
    split at h
    · next blank =>
        obtain rfl := Option.some.inj h
        obtain ⟨text, split, denotes⟩ := (scan_sound _).value _ _ _ value
        obtain ⟨before, isBefore, same⟩ := skipped cs
        obtain ⟨after, isAfter, same'⟩ := skipped rest
        rw [blank, List.append_nil] at same'
        exact ⟨before, text, rest, by rw [same, split], isBefore, by rw [same']; exact isAfter,
          denotes⟩
    · cases h
  · rintro ⟨before, text, after, rfl, isBefore, isAfter, denotes⟩
    have value := scanValue_complete v text denotes after (ended_of_blank isAfter)
      (3 * (before ++ (text ++ after)).length + 1) (by
        simp only [List.length_append]
        omega)
    rw [read, skipSpace_value isBefore denotes, value]
    simp only [Option.bind_eq_bind, Option.bind_some]
    have done : skipSpace after = [] := by
      rw [← List.append_nil after, skipSpace_append isAfter]
      rfl
    rw [if_pos done]
    rfl

/-- No text denotes two values. -/
theorem denotesText_unique {cs : List Char} {v w : JsonValue}
    (first : DenotesText readFloat v cs) (second : DenotesText readFloat w cs) : v = w := by
  have one := read_eq_some_iff.mpr first
  rw [read_eq_some_iff.mpr second] at one
  exact (Option.some.inj one).symm

end Reading

end JsonValue
