import Justflow.Library.JsonText
import Justflow.Library.Layout

/-!
# Printed values are texts of the grammar

The compact layouts differ in what stands between the parts and in how a character of a string is
written, the indented one in its line breaks.  Each of them writes a text that denotes the value
(`denotes_flat`, `denotes_pretty`), as long as its integers are not too long to be read and its
fractional numbers are written as the host writes them.
-/

open Fields

namespace JsonValue

/-! ## Strings -/

/-- A way to write the characters of a string. -/
def quoteWith (escape : Char → String) (s : String) : String :=
  "\"" ++ String.join (s.toList.map escape) ++ "\""

theorem spelled_of_each {escape : Char → String}
    (each : ∀ c, SpelledChar c (escape c).toList) (cs : List Char) :
    Spelled cs ((cs.map escape).flatMap String.toList) := by
  induction cs with
  | nil => exact .nil
  | cons c cs ih => exact .cons (each c) ih

theorem quoted_quoteWith {escape : Char → String}
    (each : ∀ c, SpelledChar c (escape c).toList) (s : String) :
    Quoted s (quoteWith escape s).toList := by
  refine ⟨_, ?_, spelled_of_each each s.toList⟩
  rw [quoteWith, String.toList_append, String.toList_append, String.toList_join]
  rfl

theorem quote_eq (s : String) : quote s = quoteWith escapeChar s := rfl

/-- The letter of a character that has a one-letter escape, except for the slash. -/
def shortEscape (c : Char) : Option Char :=
  if c = '"' then some '"'
  else if c = '\\' then some '\\'
  else if c = '\n' then some 'n'
  else if c = '\r' then some 'r'
  else if c = '\t' then some 't'
  else if c.toNat = 8 then some 'b'
  else if c.toNat = 12 then some 'f'
  else none

theorem ofNat_toNat_eq {c : Char} {n : Nat} (same : c.toNat = n) : Char.ofNat n = c := by
  rw [← same, Char.ofNat_toNat]

theorem spelled_short {c letter : Char} (short : shortEscape c = some letter) :
    SpelledChar c (String.ofList ['\\', letter]).toList := by
  rw [String.toList_ofList]
  refine .simple ?_
  unfold shortEscape at short
  split_ifs at short with quote escape line return_ tab back feed
  all_goals obtain rfl := Option.some.inj short
  · exact congrArg some quote.symm
  · exact congrArg some escape.symm
  · exact congrArg some line.symm
  · exact congrArg some return_.symm
  · exact congrArg some tab.symm
  · exact congrArg some (ofNat_toNat_eq back)
  · exact congrArg some (ofNat_toNat_eq feed)

theorem ne_of_short_none {c : Char} (short : shortEscape c = none) : c ≠ '"' ∧ c ≠ '\\' := by
  unfold shortEscape at short
  split_ifs at short with quote escape
  exact ⟨quote, escape⟩

theorem escapeChar_of_short {c letter : Char} (short : shortEscape c = some letter) :
    escapeChar c = String.ofList ['\\', letter] := by
  unfold shortEscape at short
  unfold escapeChar
  split_ifs at short ⊢
  all_goals
    obtain rfl := Option.some.inj short
    rfl

theorem escapeChar_of_none {c : Char} (short : shortEscape c = none) :
    escapeChar c = if c.toNat < 32 then "\\u" ++ String.ofList
      (List.replicate (4 - (Nat.toDigits 16 c.toNat).length) '0' ++ Nat.toDigits 16 c.toNat)
      else c.toString := by
  unfold shortEscape at short
  unfold escapeChar
  split_ifs at short ⊢
  all_goals rfl

/-- The unit of a character that is no pair. -/
theorem spelled_unit {c a b d e : Char} (unit : codeUnit a b d e = some c.toNat) :
    SpelledChar c ("\\u" ++ String.ofList [a, b, d, e]).toList := by
  have valid : c.toNat < 0xd800 ∨ 0xdfff < c.toNat ∧ c.toNat < 0x110000 := c.valid
  have spelled := SpelledChar.unit unit (by unfold HighSurrogate; omega)
    (by unfold LowSurrogate; omega)
  rw [Char.ofNat_toNat] at spelled
  simp only [String.toList_append, String.toList_ofList]
  exact spelled

theorem spelled_escapeChar (c : Char) : SpelledChar c (escapeChar c).toList := by
  cases short : shortEscape c with
  | some letter =>
      rw [escapeChar_of_short short]
      exact spelled_short short
  | none =>
      obtain ⟨quote, escape⟩ := ne_of_short_none short
      rw [escapeChar_of_none short]
      split
      · next control =>
          have table : ∀ n < 32, scanUnit (List.replicate (4 - (Nat.toDigits 16 n).length) '0' ++
              Nat.toDigits 16 n) = some (n, []) := by decide
          obtain ⟨a, b, d, e, digits, unit⟩ := scanUnit_eq_some.mp (table c.toNat control)
          rw [digits]
          exact spelled_unit unit
      · next printable =>
          rw [Char.toString, String.toList_singleton]
          exact .plain (by omega) quote escape

/-- Four hexadecimal digits. -/
def hexDigits (n : Nat) : List Char :=
  [Nat.digitChar (n / 4096 % 16), Nat.digitChar (n / 256 % 16), Nat.digitChar (n / 16 % 16),
    Nat.digitChar (n % 16)]

theorem hexValue_digitChar {n : Nat} (bound : n < 16) : hexValue (Nat.digitChar n) = some n := by
  have table : ∀ n < 16, hexValue (Nat.digitChar n) = some n := by decide
  exact table n bound

theorem codeUnit_hexDigits {n : Nat} (bound : n < 65536) :
    codeUnit (Nat.digitChar (n / 4096 % 16)) (Nat.digitChar (n / 256 % 16))
      (Nat.digitChar (n / 16 % 16)) (Nat.digitChar (n % 16)) = some n := by
  have below : ∀ m, m % 16 < 16 := fun m => Nat.mod_lt m (by decide)
  rw [codeUnit, hexValue_digitChar (below _), hexValue_digitChar (below _),
    hexValue_digitChar (below _), hexValue_digitChar (below _)]
  change some _ = some n
  congr 1
  omega

/-- A character with nothing but ASCII, as `ensure_ascii` has it. -/
def escapeAscii (c : Char) : String :=
  match shortEscape c with
  | some letter => String.ofList ['\\', letter]
  | none =>
      if 32 ≤ c.toNat ∧ c.toNat ≤ 126 then c.toString
      else if c.toNat < 0x10000 then "\\u" ++ String.ofList (hexDigits c.toNat)
      else "\\u" ++ String.ofList (hexDigits (0xd800 + (c.toNat - 0x10000) / 0x400)) ++
        ("\\u" ++ String.ofList (hexDigits (0xdc00 + (c.toNat - 0x10000) % 0x400)))

theorem spelled_escapeAscii (c : Char) : SpelledChar c (escapeAscii c).toList := by
  have valid : c.toNat < 0xd800 ∨ 0xdfff < c.toNat ∧ c.toNat < 0x110000 := c.valid
  cases short : shortEscape c with
  | some letter =>
      rw [escapeAscii, short]
      exact spelled_short short
  | none =>
      obtain ⟨quote, escape⟩ := ne_of_short_none short
      rw [escapeAscii, short]
      dsimp only
      split
      · next printable =>
          rw [Char.toString, String.toList_singleton]
          exact .plain printable.1 quote escape
      · split
        · next small => exact spelled_unit (codeUnit_hexDigits small)
        · next large =>
            have high := codeUnit_hexDigits
              (show 0xd800 + (c.toNat - 0x10000) / 0x400 < 65536 by omega)
            have low := codeUnit_hexDigits
              (show 0xdc00 + (c.toNat - 0x10000) % 0x400 < 65536 by omega)
            have spelled := SpelledChar.pair high low (by unfold HighSurrogate; omega)
              (by unfold LowSurrogate; omega)
            rw [pairChar, ofNat_toNat_eq (show c.toNat = _ by omega)] at spelled
            simp only [String.toList_append, String.toList_ofList]
            exact spelled

/-! ## Numbers -/

theorem digitsValue_repr (n : Nat) : digitsValue (Nat.repr n).toList = n := by
  induction n using Nat.strongRecOn with
  | ind n ih =>
      by_cases small : n < 10
      · have table : ∀ n < 10, digitsValue (Nat.repr n).toList = n := by decide
        exact table n small
      · rw [Nat.repr_of_ge (by omega), String.toList_append, String.toList_singleton,
          digitsValue_append, ih (n / 10) (by omega),
          decimalDigit_digitChar (Nat.mod_lt n (by decide)), Option.getD_some]
        omega

theorem head_repr (n : Nat) : ∃ c digits, (Nat.repr n).toList = c :: digits ∧
    (c = '0' → n = 0) := by
  induction n using Nat.strongRecOn with
  | ind n ih =>
      by_cases small : n < 10
      · have table : ∀ n < 10, (Nat.repr n).toList = [Nat.digitChar n] ∧
            (Nat.digitChar n = '0' → n = 0) := by decide
        exact ⟨_, _, (table n small).1, (table n small).2⟩
      · obtain ⟨c, digits, split, zero⟩ := ih (n / 10) (by omega)
        refine ⟨c, digits ++ [Nat.digitChar (n % 10)], ?_, fun same => ?_⟩
        · rw [Nat.repr_of_ge (by omega), String.toList_append, split]
          simp
        · have := zero same
          omega

theorem whole_repr (n : Nat) : Whole (Nat.repr n).toList := by
  obtain ⟨c, digits, split, zero⟩ := head_repr n
  refine ⟨⟨by rw [split]; exact List.cons_ne_nil _ _, all_isAsciiDigit_repr n⟩, fun leads => ?_⟩
  rw [split] at leads
  cases zero (Option.some.inj leads)
  decide

/-- How an integer is written. -/
def integerParts (n : Int) : NumberParts where
  negative := decide (n < 0)
  whole := (Nat.repr n.natAbs).toList
  fraction := []
  exponent := []

/-- An integer that the host reads again. -/
def ShortInteger (n : Int) : Prop :=
  (Nat.repr n.natAbs).length ≤ maxIntegerDigits

instance decidableShortInteger (n : Int) : Decidable (ShortInteger n) :=
  inferInstanceAs (Decidable (_ ≤ _))

theorem text_integerParts (n : Int) : (integerParts n).text = (toString n).toList := by
  rw [NumberParts.text, NumberParts.sign, Int.toString_eq_repr]
  cases n with
  | ofNat n => simp [integerParts, Int.repr]
  | negSucc n => simp [integerParts, Int.repr]

theorem denotes_int {readFloat : String → Option FiniteFloat} {n : Int} (short : ShortInteger n) :
    Denotes readFloat (.int n) (toString n).toList := by
  rw [Denotes, ← text_integerParts]
  refine ⟨integerParts n, ⟨whole_repr _, .inl rfl, .inl rfl⟩, rfl, ?_⟩
  have length : (integerParts n).whole.length ≤ maxIntegerDigits := by
    rw [integerParts, String.length_toList]
    exact short
  have value : (integerParts n).integer? = some n := by
    rw [NumberParts.integer?, if_pos length]
    simp only [integerParts, digitsValue_repr, decide_eq_true_eq]
    congr 1
    split <;> omega
  rw [NumberParts.value, show (integerParts n).integral = true from rfl, if_pos rfl, value]
  rfl

/-! ## Values -/

section Printing

variable (readFloat : String → Option FiniteFloat)

mutual

/-- A value of the host: the keys of its objects differ, its integers are short enough, and its
fractional numbers are written as the host writes and reads them. -/
def Legible : JsonValue → Prop
  | .null | .bool _ | .str _ => True
  | .int n => ShortInteger n
  | .float f => Denotes readFloat (.float f) f.text.toList
  | .arr items => LegibleItems items
  | .obj fields => (keys fields).Nodup ∧ LegibleFields fields

def LegibleItems : List JsonValue → Prop
  | [] => True
  | v :: rest => Legible v ∧ LegibleItems rest

def LegibleFields : List (String × JsonValue) → Prop
  | [] => True
  | (_, v) :: rest => Legible v ∧ LegibleFields rest

end

theorem legibleItems_iff {items : List JsonValue} :
    LegibleItems readFloat items ↔ ∀ v ∈ items, Legible readFloat v := by
  induction items with
  | nil => simp [LegibleItems]
  | cons v rest ih => simp [LegibleItems, ih]

theorem legibleFields_iff {fields : List (String × JsonValue)} :
    LegibleFields readFloat fields ↔ ∀ e ∈ fields, Legible readFloat e.2 := by
  induction fields with
  | nil => simp [LegibleFields]
  | cons e rest ih => simp [LegibleFields, ih]

/-- Sorting the keys changes nothing about it. -/
theorem legible_wire {v : JsonValue} (legible : Legible readFloat v) :
    Legible readFloat (wire v) := by
  induction v with
  | null | bool | int | float | str => exact legible
  | arr items ih =>
      rw [Legible, legibleItems_iff] at legible
      rw [wire_arr, Legible, legibleItems_iff]
      intro w member
      obtain ⟨v, inside, rfl⟩ := List.mem_map.mp member
      exact ih v inside (legible v inside)
  | obj fields ih =>
      rw [Legible, legibleFields_iff] at legible
      rw [wire_obj, Legible, legibleFields_iff]
      have perm : (sortKeys (fields.map fun e => (e.1, wire e.2))).Perm
          (fields.map fun e => (e.1, wire e.2)) := List.perm_insertionSort _ _
      constructor
      · refine (perm.map Prod.fst).nodup_iff.mpr ?_
        rw [show (fields.map fun e => (e.1, wire e.2)).map Prod.fst = keys fields from
          keys_map_snd wire fields]
        exact legible.1
      · intro e member
        obtain ⟨original, inside, rfl⟩ := List.mem_map.mp (perm.mem_iff.mp member)
        exact ih original inside (legible.2 original inside)

end Printing

mutual

/-- A compact text, with a way to write strings and what stands behind commas and colons. -/
def flat (escape : Char → String) (space : String) : JsonValue → String
  | .str s => quoteWith escape s
  | .arr items => "[" ++ flatItems escape space items ++ "]"
  | .obj fields => "\x7b" ++ flatFields escape space fields ++ "\x7d"
  | v => text v

def flatItems (escape : Char → String) (space : String) : List JsonValue → String
  | [] => ""
  | [v] => flat escape space v
  | v :: w :: rest => flat escape space v ++ "," ++ space ++ flatItems escape space (w :: rest)

def flatFields (escape : Char → String) (space : String) : List (String × JsonValue) → String
  | [] => ""
  | [(k, v)] => quoteWith escape k ++ ":" ++ space ++ flat escape space v
  | (k, v) :: e :: rest =>
      quoteWith escape k ++ ":" ++ space ++ flat escape space v ++ "," ++ space ++
        flatFields escape space (e :: rest)

end

/-- The canonical text has no spaces. -/
theorem text_eq_flat (v : JsonValue) : text v = flat escapeChar "" v := by
  induction v with
  | null | bool | int | float => rfl
  | str s => rw [text, flat, quote_eq]
  | arr items ih =>
      rw [text, flat]
      have same : textItems items = flatItems escapeChar "" items := by
        induction items with
        | nil => rfl
        | cons v rest tail =>
            have head := ih v List.mem_cons_self
            have tail := tail fun w member => ih w (List.mem_cons_of_mem _ member)
            cases rest with
            | nil => rw [textItems, flatItems, head]
            | cons w rest => rw [textItems, flatItems, head, tail, String.append_empty]
      rw [same]
  | obj fields ih =>
      rw [text, flat]
      have same : textFields fields = flatFields escapeChar "" fields := by
        induction fields with
        | nil => rfl
        | cons e rest tail =>
            obtain ⟨k, v⟩ := e
            have head : text v = flat escapeChar "" v := ih (k, v) List.mem_cons_self
            have tail := tail fun e member => ih e (List.mem_cons_of_mem _ member)
            cases rest with
            | nil => rw [textFields, flatFields, head, quote_eq, String.append_empty]
            | cons e rest =>
                rw [textFields, flatFields, head, tail, quote_eq, String.append_empty,
                  String.append_empty]
      rw [same]

section Printing

variable {readFloat : String → Option FiniteFloat}

theorem blank_nil : Blank [] := rfl

/-- Behind a gap, the items of a compact array. -/
theorem denotes_flatItems {escape : Char → String} {space : String}
    (blank : Blank space.toList) {items : List JsonValue}
    (each : ∀ v ∈ items, Denotes readFloat v (flat escape space v).toList) {gap : List Char}
    (isGap : Blank gap) :
    DenotesItems readFloat items (gap ++ (flatItems escape space items).toList) := by
  induction items generalizing gap with
  | nil =>
      rw [DenotesItems, flatItems]
      exact blank_append isGap rfl
  | cons v rest ih =>
      have first := each v List.mem_cons_self
      cases rest with
      | nil =>
          rw [DenotesItems, flatItems]
          exact ⟨gap, _, [], by simp, isGap, rfl, first⟩
      | cons w rest =>
          have others := ih (fun v member => each v (List.mem_cons_of_mem _ member)) blank
          rw [DenotesItems, flatItems]
          exact ⟨gap, _, [], _, by simp, isGap, rfl, first, others⟩

theorem denotes_flatFields {escape : Char → String} {space : String}
    (spelled : ∀ c, SpelledChar c (escape c).toList) (blank : Blank space.toList)
    {fields : List (String × JsonValue)}
    (each : ∀ e ∈ fields, Denotes readFloat e.2 (flat escape space e.2).toList)
    {gap : List Char} (isGap : Blank gap) :
    DenotesFields readFloat fields (gap ++ (flatFields escape space fields).toList) := by
  induction fields generalizing gap with
  | nil =>
      rw [DenotesFields, flatFields]
      exact blank_append isGap rfl
  | cons e rest ih =>
      obtain ⟨k, v⟩ := e
      have first : Denotes readFloat v (flat escape space v).toList :=
        each (k, v) List.mem_cons_self
      have quoted := quoted_quoteWith spelled k
      cases rest with
      | nil =>
          rw [DenotesFields, flatFields]
          exact ⟨gap, _, [], space.toList, _, [], by simp, isGap, rfl, blank, rfl, quoted, first⟩
      | cons e rest =>
          have others := ih (fun e member => each e (List.mem_cons_of_mem _ member)) blank
          rw [DenotesFields, flatFields]
          exact ⟨gap, _, [], space.toList, _, [], _, by simp, isGap, rfl, blank, rfl, quoted, first,
            others⟩

/-- A compact text denotes its value. -/
theorem denotes_flat {escape : Char → String} {space : String}
    (spelled : ∀ c, SpelledChar c (escape c).toList) (blank : Blank space.toList) {v : JsonValue}
    (legible : Legible readFloat v) : Denotes readFloat v (flat escape space v).toList := by
  induction v with
  | null => simp [Denotes, flat, text]
  | bool b => cases b <;> simp [Denotes, flat, text]
  | int n => exact denotes_int legible
  | float f => exact legible
  | str s =>
      rw [Denotes]
      exact quoted_quoteWith spelled s
  | arr items ih =>
      rw [Legible, legibleItems_iff] at legible
      rw [Denotes, flat]
      refine ⟨(flatItems escape space items).toList, by simp, ?_⟩
      exact denotes_flatItems blank (fun v member => ih v member (legible v member)) blank_nil
  | obj fields ih =>
      rw [Legible, legibleFields_iff] at legible
      rw [Denotes, flat]
      refine ⟨legible.1, (flatFields escape space fields).toList, by simp, ?_⟩
      exact denotes_flatFields spelled blank
        (fun e member => ih e member (legible.2 e member)) blank_nil

theorem blank_newline (depth : Nat) : Blank (newline depth).toList := by
  rw [newline, String.toList_append, String.toList_join]
  refine blank_append rfl ?_
  induction depth with
  | zero => rfl
  | succ depth ih =>
      rw [List.replicate_succ, List.flatMap_cons]
      exact blank_append rfl ih

theorem denotes_prettyItems {items : List JsonValue} {depth : Nat} (nonempty : items ≠ [])
    (each : ∀ v ∈ items, Denotes readFloat v (pretty v depth).toList) {gap : List Char}
    (isGap : Blank gap) :
    DenotesItems readFloat items ((prettyItems items depth).toList ++ gap) := by
  induction items with
  | nil => exact absurd rfl nonempty
  | cons v rest ih =>
      have first := each v List.mem_cons_self
      cases rest with
      | nil =>
          rw [DenotesItems, prettyItems]
          exact ⟨_, _, gap, by simp, blank_newline depth, isGap, first⟩
      | cons w rest =>
          have others := ih (List.cons_ne_nil _ _)
            fun v member => each v (List.mem_cons_of_mem _ member)
          rw [DenotesItems, prettyItems]
          exact ⟨_, _, [], _, by simp, blank_newline depth, rfl, first, others⟩

theorem denotes_prettyFields {fields : List (String × JsonValue)} {depth : Nat}
    (nonempty : fields ≠ [])
    (each : ∀ e ∈ fields, Denotes readFloat e.2 (pretty e.2 depth).toList) {gap : List Char}
    (isGap : Blank gap) :
    DenotesFields readFloat fields ((prettyFields fields depth).toList ++ gap) := by
  induction fields with
  | nil => exact absurd rfl nonempty
  | cons e rest ih =>
      obtain ⟨k, v⟩ := e
      have first : Denotes readFloat v (pretty v depth).toList := each (k, v) List.mem_cons_self
      have quoted : Quoted k (quote k).toList := quoted_quoteWith spelled_escapeChar k
      cases rest with
      | nil =>
          rw [DenotesFields, prettyFields]
          exact ⟨_, _, [], [' '], _, gap, by simp, blank_newline depth, rfl, rfl, isGap, quoted,
            first⟩
      | cons e rest =>
          have others := ih (List.cons_ne_nil _ _)
            fun e member => each e (List.mem_cons_of_mem _ member)
          rw [DenotesFields, prettyFields]
          exact ⟨_, _, [], [' '], _, [], _, by simp, blank_newline depth, rfl, rfl, rfl, quoted,
            first, others⟩

/-- The indented text denotes its value. -/
theorem denotes_pretty {v : JsonValue} (legible : Legible readFloat v) (depth : Nat) :
    Denotes readFloat v (pretty v depth).toList := by
  induction v generalizing depth with
  | null => simp [Denotes, pretty, text]
  | bool b => cases b <;> simp [Denotes, pretty, text]
  | int n => exact denotes_int legible
  | float f => exact legible
  | str s =>
      rw [Denotes]
      exact quoted_quoteWith spelled_escapeChar s
  | arr items ih =>
      rw [Legible, legibleItems_iff] at legible
      rw [Denotes, pretty]
      cases items with
      | nil => exact ⟨[], by simp, rfl⟩
      | cons v rest =>
          rw [if_neg (by simp)]
          exact ⟨_, by simp, denotes_prettyItems (List.cons_ne_nil _ _)
            (fun w member => ih w member (legible w member) (depth + 1)) (blank_newline depth)⟩
  | obj fields ih =>
      rw [Legible, legibleFields_iff] at legible
      rw [Denotes, pretty]
      refine ⟨legible.1, ?_⟩
      cases fields with
      | nil => exact ⟨[], by simp, rfl⟩
      | cons e rest =>
          rw [if_neg (by simp)]
          exact ⟨_, by simp, denotes_prettyFields (List.cons_ne_nil _ _)
            (fun e member => ih e member (legible.2 e member) (depth + 1)) (blank_newline depth)⟩

end Printing

end JsonValue
