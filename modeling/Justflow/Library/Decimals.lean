import Mathlib.Data.List.Induction
import Mathlib.Data.String.Basic

/-!
# Decimal digits and integers in text

The decimal digits of Unicode come in runs of ten.  A text of digits is read as a number whatever
runs its digits are from, so that several texts are read as the same number; only the ASCII digits
without a leading zero are written back as they were.
-/

/-- The zeros of the runs of decimal digits. -/
def decimalZeros : List Nat :=
  [0x30, 0x660, 0x6f0, 0x7c0, 0x966, 0x9e6, 0xa66, 0xae6, 0xb66, 0xbe6, 0xc66, 0xce6, 0xd66, 0xde6,
    0xe50, 0xed0, 0xf20, 0x1040, 0x1090, 0x17e0, 0x1810, 0x1946, 0x19d0, 0x1a80, 0x1a90, 0x1b50,
    0x1bb0, 0x1c40, 0x1c50, 0xa620, 0xa8d0, 0xa900, 0xa9d0, 0xa9f0, 0xaa50, 0xabf0, 0xff10, 0x104a0,
    0x10d30, 0x11066, 0x110f0, 0x11136, 0x111d0, 0x112f0, 0x11450, 0x114d0, 0x11650, 0x116c0,
    0x11730, 0x118e0, 0x11950, 0x11c50, 0x11d50, 0x11da0, 0x16a60, 0x16ac0, 0x16b50, 0x1d7ce,
    0x1d7d8, 0x1d7e2, 0x1d7ec, 0x1d7f6, 0x1e140, 0x1e2f0, 0x1e950, 0x1fbf0]

/-- The value of a decimal digit. -/
def decimalDigit (c : Char) : Option Nat :=
  (decimalZeros.find? fun base => decide (base ≤ c.toNat) && decide (c.toNat < base + 10)).map
    (c.toNat - ·)

def isDecimal (c : Char) : Bool :=
  (decimalDigit c).isSome

def isAsciiDigit (c : Char) : Bool :=
  '0' ≤ c && c ≤ '9'

/-- The number that digits are read as. -/
def digitsValue (digits : List Char) : Nat :=
  digits.foldl (fun value c => 10 * value + (decimalDigit c).getD 0) 0

theorem digitsValue_append (digits : List Char) (c : Char) :
    digitsValue (digits ++ [c]) = 10 * digitsValue digits + (decimalDigit c).getD 0 := by
  rw [digitsValue, List.foldl_append]
  rfl

/-! ## ASCII digits -/

theorem isAsciiDigit_iff {c : Char} : isAsciiDigit c = true ↔ ∃ n < 10, c = Nat.digitChar n := by
  constructor
  · intro h
    rw [isAsciiDigit, Bool.and_eq_true, decide_eq_true_eq, decide_eq_true_eq] at h
    have low : 48 ≤ c.toNat := h.1
    have high : c.toNat ≤ 57 := h.2
    refine ⟨c.toNat - 48, by omega, ?_⟩
    have table : ∀ n < 10, Char.ofNat (n + 48) = Nat.digitChar n := by decide
    have := table (c.toNat - 48) (by omega)
    rwa [Nat.sub_add_cancel low, Char.ofNat_toNat] at this
  · rintro ⟨n, bound, rfl⟩
    have table : ∀ n < 10, isAsciiDigit (Nat.digitChar n) = true := by decide
    exact table n bound

theorem decimalDigit_digitChar {n : Nat} (bound : n < 10) :
    decimalDigit (Nat.digitChar n) = some n := by
  have table : ∀ n < 10, decimalDigit (Nat.digitChar n) = some n := by decide
  exact table n bound

theorem isDecimal_of_isAsciiDigit {c : Char} (h : isAsciiDigit c = true) : isDecimal c = true := by
  obtain ⟨n, bound, rfl⟩ := isAsciiDigit_iff.mp h
  rw [isDecimal, decimalDigit_digitChar bound]
  rfl

theorem digitsValue_pos {digits : List Char} (ascii : digits.all isAsciiDigit = true)
    (nonempty : digits ≠ []) (leading : digits.head? ≠ some '0') : 0 < digitsValue digits := by
  induction digits using List.reverseRecOn with
  | nil => exact absurd rfl nonempty
  | append_singleton digits c ih =>
      rw [digitsValue_append]
      rw [List.all_append, Bool.and_eq_true] at ascii
      cases digits with
      | nil =>
          obtain ⟨n, bound, rfl⟩ := isAsciiDigit_iff.mp (by simpa using ascii.2)
          rw [decimalDigit_digitChar bound, Option.getD_some]
          have : n ≠ 0 := by
            rintro rfl
            exact leading rfl
          omega
      | cons d rest =>
          have := ih ascii.1 (List.cons_ne_nil _ _) (by simpa using leading)
          omega

/-- Numbers are written with the ASCII digits. -/
theorem repr_digitsValue {digits : List Char} (ascii : digits.all isAsciiDigit = true)
    (nonempty : digits ≠ []) (leading : digits.length = 1 ∨ digits.head? ≠ some '0') :
    Nat.repr (digitsValue digits) = String.ofList digits := by
  induction digits using List.reverseRecOn with
  | nil => exact absurd rfl nonempty
  | append_singleton digits c ih =>
      rw [List.all_append, Bool.and_eq_true] at ascii
      obtain ⟨n, bound, rfl⟩ := isAsciiDigit_iff.mp (by simpa using ascii.2)
      rw [digitsValue_append, decimalDigit_digitChar bound, Option.getD_some]
      cases digits with
      | nil =>
          have table : ∀ n < 10, Nat.repr n = String.ofList [Nat.digitChar n] := by decide
          simpa [digitsValue] using table n bound
      | cons d rest =>
          have front : (d :: rest).head? ≠ some '0' := by
            rcases leading with single | leading
            · simp at single
            · simpa using leading
          have positive := digitsValue_pos ascii.1 (List.cons_ne_nil _ _) front
          rw [Nat.repr_of_ge (by omega), show (10 * digitsValue (d :: rest) + n) / 10 =
            digitsValue (d :: rest) by omega, show (10 * digitsValue (d :: rest) + n) % 10 = n by
            omega, ih ascii.1 (List.cons_ne_nil _ _) (.inr front)]
          rw [← String.toList_inj]
          simp

/-- What numbers are written with. -/
theorem all_isAsciiDigit_repr (n : Nat) : (Nat.repr n).toList.all isAsciiDigit = true := by
  induction n using Nat.strongRecOn with
  | ind n ih =>
      by_cases small : n < 10
      · have table : ∀ n < 10, (Nat.repr n).toList.all isAsciiDigit = true := by decide
        exact table n small
      · rw [Nat.repr_of_ge (by omega), String.toList_append, List.all_append, Bool.and_eq_true]
        refine ⟨ih _ (by omega), ?_⟩
        simpa using isAsciiDigit_iff.mpr ⟨n % 10, Nat.mod_lt _ (by decide), rfl⟩

/-! ## Integers -/

/-- Spaces, as the integer reader sees them: a control character that separates is one only beyond
ASCII. -/
def isIntegerSpace (c : Char) : Bool :=
  [0x9, 0xa, 0xb, 0xc, 0xd, 0x20, 0x85, 0xa0, 0x1680, 0x2000, 0x2001, 0x2002, 0x2003, 0x2004,
    0x2005, 0x2006, 0x2007, 0x2008, 0x2009, 0x200a, 0x2028, 0x2029, 0x202f, 0x205f, 0x3000].contains c.toNat

/-- The digits of a number, with single underscores between them. -/
def groupedDigits : List Char → Option (List Char)
  | [] => none
  | [c] => if isDecimal c then some [c] else none
  | c :: '_' :: rest => if isDecimal c then (groupedDigits rest).map (c :: ·) else none
  | c :: rest => if isDecimal c then (groupedDigits rest).map (c :: ·) else none

/-- How many digits are read at most. -/
def maxIntegerDigits : Nat := 4300

def readDigits (chars : List Char) : Option Nat :=
  match groupedDigits chars with
  | none => none
  | some digits => if digits.length ≤ maxIntegerDigits then some (digitsValue digits) else none

/-- An integer with optional spaces around it and an optional sign. -/
def readInteger (text : String) : Option Int :=
  let trimmed := ((text.toList.dropWhile isIntegerSpace).reverse.dropWhile isIntegerSpace).reverse
  match trimmed with
  | '-' :: rest => (readDigits rest).map fun n => -(n : Int)
  | '+' :: rest => (readDigits rest).map Int.ofNat
  | rest => (readDigits rest).map Int.ofNat

example : readInteger " +1_0 " = some 10 := by decide
example : readInteger "1_" = none := by decide
