import Mathlib.Algebra.GroupWithZero.Nat
import Mathlib.Data.List.Basic

/-!
# Base64

Three bytes are four digits of six bits; a last group of one or two bytes is padded.  The encoder
writes the URL-safe alphabet.  The decoder is strict: it takes digits of either alphabet, padding
at the end only, and nothing else.
-/

namespace Base64

abbrev Byte := Fin 256

def alphabet : List Char :=
  "ABCDEFGHIJKLMNOPQRSTUVWXYZabcdefghijklmnopqrstuvwxyz0123456789-_".toList

def digit (n : Nat) : Char :=
  alphabet.getD n 'A'

def digitValue (c : Char) : Option Nat :=
  if c = '+' then some 62
  else if c = '/' then some 63
  else alphabet.findIdx? (· = c)

theorem digit_table : ∀ n < 64, digitValue (digit n) = some n ∧ digit n ≠ '=' ∧
    (digit n).toNat < 128 := by
  decide +kernel

theorem digitValue_digit {n : Nat} (h : n < 64) : digitValue (digit n) = some n :=
  (digit_table n h).1

theorem digit_ne_pad {n : Nat} (h : n < 64) : digit n ≠ '=' :=
  (digit_table n h).2.1

instance neZero_byte : NeZero 256 :=
  ⟨by decide⟩

def byte (n : Nat) : Byte :=
  Fin.ofNat 256 n

theorem byte_val (b : Byte) {n : Nat} (h : n = b.val) : byte n = b := by
  subst h
  exact Fin.ext (Nat.mod_eq_of_lt b.isLt)

def encode : List Byte → List Char
  | [] => []
  | [a] => [digit (a.val / 4), digit (a.val % 4 * 16), '=', '=']
  | [a, b] =>
      [digit (a.val / 4), digit (a.val % 4 * 16 + b.val / 16), digit (b.val % 16 * 4), '=']
  | a :: b :: c :: rest =>
      digit (a.val / 4) :: digit (a.val % 4 * 16 + b.val / 16) ::
        digit (b.val % 16 * 4 + c.val / 64) :: digit (c.val % 64) :: encode rest

def decode : List Char → Option (List Byte)
  | [] => some []
  | a :: b :: c :: d :: rest =>
      if rest = [] ∧ d = '=' then
        if c = '=' then do
          let i ← digitValue a
          let j ← digitValue b
          return [byte (i * 4 + j / 16)]
        else do
          let i ← digitValue a
          let j ← digitValue b
          let k ← digitValue c
          return [byte (i * 4 + j / 16), byte (j % 16 * 16 + k / 4)]
      else do
        let i ← digitValue a
        let j ← digitValue b
        let k ← digitValue c
        let l ← digitValue d
        return byte (i * 4 + j / 16) :: byte (j % 16 * 16 + k / 4) :: byte (k % 4 * 64 + l) ::
          (← decode rest)
  | _ => none

theorem decode_encode (bytes : List Byte) : decode (encode bytes) = some bytes := by
  induction bytes using encode.induct with
  | case1 => rfl
  | case2 a =>
      have ha := a.isLt
      have first : a.val / 4 < 64 := by omega
      have second : a.val % 4 * 16 < 64 := by omega
      simp only [encode, decode, digitValue_digit first, digitValue_digit second, and_self, if_true]
      have value : byte (a.val / 4 * 4 + a.val % 4 * 16 / 16) = a := byte_val a (by omega)
      exact congrArg some (by rw [value])
  | case3 a b =>
      have ha := a.isLt
      have hb := b.isLt
      have first : a.val / 4 < 64 := by omega
      have second : a.val % 4 * 16 + b.val / 16 < 64 := by omega
      have third : b.val % 16 * 4 < 64 := by omega
      have high : byte (a.val / 4 * 4 + (a.val % 4 * 16 + b.val / 16) / 16) = a :=
        byte_val a (by omega)
      have low : byte ((a.val % 4 * 16 + b.val / 16) % 16 * 16 + b.val % 16 * 4 / 4) = b :=
        byte_val b (by omega)
      simp only [encode, decode, digitValue_digit first, digitValue_digit second,
        digitValue_digit third, if_neg (digit_ne_pad third)]
      rw [if_pos ⟨trivial, trivial⟩]
      exact congrArg some (by rw [high, low])
  | case4 a b c rest ih =>
      have ha := a.isLt
      have hb := b.isLt
      have hc := c.isLt
      have first : a.val / 4 < 64 := by omega
      have second : a.val % 4 * 16 + b.val / 16 < 64 := by omega
      have third : b.val % 16 * 4 + c.val / 64 < 64 := by omega
      have fourth : c.val % 64 < 64 := by omega
      have high : byte (a.val / 4 * 4 + (a.val % 4 * 16 + b.val / 16) / 16) = a :=
        byte_val a (by omega)
      have middle : byte ((a.val % 4 * 16 + b.val / 16) % 16 * 16 +
          (b.val % 16 * 4 + c.val / 64) / 4) = b := byte_val b (by omega)
      have low : byte ((b.val % 16 * 4 + c.val / 64) % 4 * 64 + c.val % 64) = c :=
        byte_val c (by omega)
      simp only [encode, decode, digitValue_digit first, digitValue_digit second,
        digitValue_digit third, digitValue_digit fourth, ih]
      rw [if_neg fun last => digit_ne_pad fourth last.2]
      exact congrArg some (by rw [high, middle, low])

/-- Digits may be written in another alphabet that reads the same. -/
theorem decode_map {f : Char → Char} (values : ∀ c, digitValue (f c) = digitValue c)
    (pads : ∀ c, f c = '=' ↔ c = '=') (cs : List Char) :
    decode (cs.map f) = decode cs := by
  induction cs using decode.induct with
  | case1 => rfl
  | case2 a b d rest last => simp [decode, values, pads, last]
  | case3 a b c d rest last third => simp [decode, values, pads, last, third]
  | case4 a b c d rest last ih => simp [decode, values, pads, last, ih]
  | case5 cs nonempty small =>
      match cs, nonempty, small with
      | [], _, _ | [_], _, _ | [_, _], _, _ | [_, _, _], _, _ => rfl
      | a :: b :: c :: d :: rest, _, small => exact (small a b c d rest rfl).elim

theorem length_encode (bytes : List Byte) :
    (encode bytes).length = 4 * ((bytes.length + 2) / 3) := by
  induction bytes using encode.induct with
  | case1 => rfl
  | case2 a => simp [encode]
  | case3 a b => simp [encode]
  | case4 a b c rest ih =>
      simp only [encode, List.length_cons, ih]
      omega

/-- Nothing but ASCII is written. -/
theorem encode_ascii {bytes : List Byte} {c : Char} (h : c ∈ encode bytes) : c.toNat < 128 := by
  have digits : ∀ n, (digit n).toNat < 128 := by
    intro n
    by_cases small : n < 64
    · exact (digit_table n small).2.2
    · have beyond : alphabet.length ≤ n := by
        have length : alphabet.length = 64 := by decide
        omega
      rw [digit, List.getD_eq_getElem?_getD, List.getElem?_eq_none beyond]
      decide
  have pad : ('=' : Char).toNat < 128 := by decide
  induction bytes using encode.induct with
  | case1 => cases h
  | case2 a =>
      simp only [encode, List.mem_cons, List.not_mem_nil, or_false] at h
      rcases h with rfl | rfl | rfl | rfl <;> first | exact digits _ | exact pad
  | case3 a b =>
      simp only [encode, List.mem_cons, List.not_mem_nil, or_false] at h
      rcases h with rfl | rfl | rfl | rfl <;> first | exact digits _ | exact pad
  | case4 a b c rest ih =>
      simp only [encode, List.mem_cons] at h
      rcases h with rfl | rfl | rfl | rfl | h
      · exact digits _
      · exact digits _
      · exact digits _
      · exact digits _
      · exact ih h

theorem encode_ne_nil {bytes : List Byte} (h : bytes ≠ []) : encode bytes ≠ [] := by
  cases bytes using encode.fun_cases with
  | case1 => exact absurd rfl h
  | case2 a => exact List.cons_ne_nil _ _
  | case3 a b => exact List.cons_ne_nil _ _
  | case4 a b c rest => exact List.cons_ne_nil _ _

end Base64
