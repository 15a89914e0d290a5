import Mathlib.Algebra.GroupWithZero.Nat
import Justflow.Library.Json

/-!
# How long canonical text can get

Bounds on the bytes of a value's canonical text, one for each constructor.  A character takes at
most six bytes inside a JSON string, and a plain one takes one.
-/

open Fields

namespace JsonValue

/-! ## Strings -/

/-- A character that a JSON string holds as itself, in one byte. -/
def plainChar (c : Char) : Bool :=
  32 ≤ c.toNat ∧ c.toNat ≤ 126 ∧ c ≠ '"' ∧ c ≠ '\\'

def plain (s : String) : Bool :=
  s.toList.all plainChar

theorem plain_append (s t : String) : plain (s ++ t) = (plain s && plain t) := by
  simp only [plain, String.toList_append, List.all_append]

theorem utf8ByteSize_escapeChar_le (c : Char) : (escapeChar c).utf8ByteSize ≤ 6 := by
  by_cases control : c.toNat < 32
  · have table : ∀ n < 32, (escapeChar (Char.ofNat n)).utf8ByteSize ≤ 6 := by decide
    have := table c.toNat control
    rwa [Char.ofNat_toNat] at this
  · have hraw : c.toString.utf8ByteSize ≤ 4 := by
      rw [Char.toString_eq_singleton, String.utf8ByteSize_singleton]
      exact Char.utf8Size_le_four c
    unfold escapeChar
    split_ifs
    all_goals first | decide | omega

theorem utf8ByteSize_escapeChar_plain {c : Char} (h : plainChar c) :
    (escapeChar c).utf8ByteSize = 1 := by
  have table : ∀ n < 127, plainChar (Char.ofNat n) = true →
      (escapeChar (Char.ofNat n)).utf8ByteSize = 1 := by decide
  have hlt : c.toNat < 127 := by
    simp only [plainChar, decide_eq_true_eq] at h
    omega
  have := table c.toNat hlt
  rw [Char.ofNat_toNat] at this
  exact this h

theorem utf8ByteSize_join (pieces : List String) :
    (String.join pieces).utf8ByteSize = (pieces.map String.utf8ByteSize).sum := by
  induction pieces with
  | nil => rfl
  | cons s rest ih => simp [String.join_cons, String.utf8ByteSize_append, ih]

theorem utf8ByteSize_quote (s : String) :
    (quote s).utf8ByteSize = (s.toList.map fun c => (escapeChar c).utf8ByteSize).sum + 2 := by
  have hquote : "\"".utf8ByteSize = 1 := by decide
  simp only [quote, String.utf8ByteSize_append, utf8ByteSize_join, List.map_map, hquote]
  simp only [Function.comp_def]
  omega

/-- A string takes at most six bytes for each of its characters. -/
theorem utf8ByteSize_quote_le {s : String} {n : Nat} (h : s.length ≤ n) :
    (quote s).utf8ByteSize ≤ 6 * n + 2 := by
  have hsum : (s.toList.map fun c => (escapeChar c).utf8ByteSize).sum ≤ 6 * s.toList.length := by
    induction s.toList with
    | nil => simp
    | cons c rest ih =>
        have := utf8ByteSize_escapeChar_le c
        simp only [List.map_cons, List.sum_cons, List.length_cons]
        omega
  rw [utf8ByteSize_quote]
  rw [String.length_toList] at hsum
  omega

theorem utf8ByteSize_quote_plain {s : String} (h : plain s) :
    (quote s).utf8ByteSize = s.length + 2 := by
  have hsum : ∀ chars : List Char, chars.all plainChar →
      (chars.map fun c => (escapeChar c).utf8ByteSize).sum = chars.length := by
    intro chars
    induction chars with
    | nil => simp
    | cons c rest ih =>
        intro hall
        simp only [List.all_cons, Bool.and_eq_true] at hall
        simp only [List.map_cons, List.sum_cons, List.length_cons, ih hall.2,
          utf8ByteSize_escapeChar_plain hall.1]
        omega
  rw [utf8ByteSize_quote, hsum _ h, String.length_toList]

/-! ## Numbers -/

theorem utf8ByteSize_repr_le {n k : Nat} (h : n < 10 ^ (k + 1)) :
    (Nat.repr n).utf8ByteSize ≤ k + 1 := by
  induction k generalizing n with
  | zero =>
      have table : ∀ n < 10, (Nat.repr n).utf8ByteSize ≤ 1 := by decide
      exact table n (by simpa using h)
  | succ k ih =>
      by_cases hsmall : n < 10
      · have table : ∀ n < 10, (Nat.repr n).utf8ByteSize ≤ 1 := by decide
        have := table n hsmall
        omega
      · rw [Nat.repr_of_ge (by omega), String.utf8ByteSize_append, String.utf8ByteSize_singleton]
        have hquotient : n / 10 < 10 ^ (k + 1) := by
          rw [Nat.div_lt_iff_lt_mul (by decide)]
          exact lt_of_lt_of_eq h (pow_succ 10 (k + 1))
        have hdigit : (Nat.digitChar (n % 10)).utf8Size ≤ 1 := by
          have table : ∀ d < 10, (Nat.digitChar d).utf8Size ≤ 1 := by decide
          exact table _ (Nat.mod_lt _ (by decide))
        have := ih hquotient
        omega

/-- A number takes one byte for each of its digits. -/
theorem utf8ByteSize_repr_le_of_length {n k : Nat} (hk : 0 < k) (h : (Nat.repr n).length ≤ k) :
    (Nat.repr n).utf8ByteSize ≤ k := by
  obtain ⟨m, rfl⟩ := Nat.exists_eq_succ_of_ne_zero hk.ne'
  exact utf8ByteSize_repr_le ((Nat.length_repr_le_iff hk).mp h)

/-! ## Values -/

theorem canonicalBytes_str (s : String) : canonicalBytes (.str s) = (quote s).utf8ByteSize := rfl

theorem canonicalBytes_ofOption_le {α : Type} {dump : α → JsonValue} {bound : Nat}
    {value : Option α} (h : ∀ v ∈ value, canonicalBytes (dump v) ≤ bound) (hnull : 4 ≤ bound) :
    canonicalBytes (.ofOption dump value) ≤ bound := by
  cases value with
  | none => exact hnull
  | some v => exact h v rfl

theorem utf8ByteSize_textItems_le (items : List JsonValue) :
    (textItems items).utf8ByteSize ≤ (items.map fun v => (text v).utf8ByteSize + 1).sum := by
  have hcomma : ",".utf8ByteSize = 1 := by decide
  induction items with
  | nil => simp [textItems]
  | cons v rest ih =>
      cases rest with
      | nil => simp [textItems]
      | cons w rest =>
          simp only [textItems, String.utf8ByteSize_append, hcomma, List.map_cons,
            List.sum_cons] at ih ⊢
          omega

/-- An array whose items take at most `bound` bytes. -/
theorem canonicalBytes_arr_le (bound : Nat) {items : List JsonValue} {count : Nat}
    (length : items.length ≤ count) (h : ∀ v ∈ items, canonicalBytes v ≤ bound) :
    canonicalBytes (.arr items) ≤ 2 + count * (bound + 1) := by
  have hbrackets : "[".utf8ByteSize = 1 ∧ "]".utf8ByteSize = 1 := by decide
  have hitems := utf8ByteSize_textItems_le (items.map wire)
  have hsum : ((items.map wire).map fun v => (text v).utf8ByteSize + 1).sum ≤
      items.length * (bound + 1) := by
    clear length hitems
    induction items with
    | nil => simp
    | cons v rest ih =>
        have hv := h v List.mem_cons_self
        have hrest := ih fun w hw => h w (List.mem_cons_of_mem _ hw)
        simp only [canonicalBytes] at hv
        simp only [List.map_cons, List.sum_cons, List.length_cons, Nat.succ_mul] at hrest ⊢
        omega
  have hcount := Nat.mul_le_mul_right (bound + 1) length
  simp only [canonicalBytes, wire_arr, text, String.utf8ByteSize_append, hbrackets.1, hbrackets.2]
  omega

/-- The bytes of an object beside its values. -/
def keyBytes (names : List String) : Nat :=
  (names.map fun name => (quote name).utf8ByteSize + 2).sum

/-- A character takes a byte at least. -/
theorem length_le_utf8ByteSize (s : String) : s.length ≤ s.utf8ByteSize := by
  rw [← String.ofList_toList (s := s), String.length_ofList]
  induction s.toList with
  | nil => exact Nat.zero_le _
  | cons c rest ih =>
      have hc := c.utf8Size_pos
      rw [String.ofList_cons, String.utf8ByteSize_append, String.utf8ByteSize_singleton,
        List.length_cons]
      omega

theorem utf8ByteSize_quote_le_utf8ByteSize (s : String) :
    (quote s).utf8ByteSize ≤ 6 * s.utf8ByteSize + 2 :=
  utf8ByteSize_quote_le (length_le_utf8ByteSize s)

/-- The bytes of keys that are only counted, not read. -/
theorem keyBytes_le (names : List String) :
    keyBytes names ≤ 6 * (names.map String.utf8ByteSize).sum + 4 * names.length := by
  induction names with
  | nil => exact Nat.le_refl _
  | cons name rest ih =>
      have hname := utf8ByteSize_quote_le_utf8ByteSize name
      simp only [keyBytes, List.map_cons, List.sum_cons, List.length_cons] at ih ⊢
      omega

theorem utf8ByteSize_textFields_le (fields : List (String × JsonValue)) :
    (textFields fields).utf8ByteSize ≤
      (fields.map fun e => (quote e.1).utf8ByteSize + 2 + (text e.2).utf8ByteSize).sum := by
  have hcomma : ",".utf8ByteSize = 1 := by decide
  have hcolon : ":".utf8ByteSize = 1 := by decide
  induction fields with
  | nil => simp [textFields]
  | cons e rest ih =>
      obtain ⟨k, v⟩ := e
      cases rest with
      | nil =>
          simp only [textFields, String.utf8ByteSize_append, hcolon, List.map_cons, List.map_nil,
            List.sum_cons, List.sum_nil]
          omega
      | cons f rest =>
          simp only [textFields, String.utf8ByteSize_append, hcomma, hcolon, List.map_cons,
            List.sum_cons] at ih ⊢
          omega

/-- An object takes the bytes of its keys and values, in whatever order. -/
theorem canonicalBytes_obj_le (fields : List (String × JsonValue)) :
    canonicalBytes (.obj fields) ≤
      2 + keyBytes (keys fields) + (fields.map fun e => canonicalBytes e.2).sum := by
  have hbraces : "\x7b".utf8ByteSize = 1 ∧ "\x7d".utf8ByteSize = 1 := by decide
  have htext := utf8ByteSize_textFields_le (sortKeys (fields.map fun e => (e.1, wire e.2)))
  have hperm : (sortKeys (fields.map fun e => (e.1, wire e.2))).Perm
      (fields.map fun e => (e.1, wire e.2)) := List.perm_insertionSort _ _
  rw [(hperm.map _).sum_nat, List.map_map] at htext
  have hsplit : (fields.map ((fun e : String × JsonValue => (quote e.1).utf8ByteSize + 2 +
      (text e.2).utf8ByteSize) ∘ fun e => (e.1, wire e.2))).sum =
        keyBytes (keys fields) + (fields.map fun e => canonicalBytes e.2).sum := by
    clear htext hperm
    induction fields with
    | nil => rfl
    | cons e rest ih =>
        simp only [List.map_cons, List.sum_cons, Function.comp, keys_cons, keyBytes,
          canonicalBytes] at ih ⊢
        omega
  simp only [canonicalBytes, wire_obj, text, String.utf8ByteSize_append, hbraces.1, hbraces.2] at *
  omega

/-- The values of an object take at most `bound` bytes. -/
def FieldsWithin (fields : List (String × JsonValue)) (bound : Nat) : Prop :=
  (fields.map fun e => canonicalBytes e.2).sum ≤ bound

theorem FieldsWithin.nil : FieldsWithin [] 0 :=
  le_refl 0

theorem FieldsWithin.cons {key : String} {value : JsonValue} {fields : List (String × JsonValue)}
    {bound rest : Nat} (hvalue : canonicalBytes value ≤ bound) (h : FieldsWithin fields rest) :
    FieldsWithin ((key, value) :: fields) (bound + rest) := by
  simp only [FieldsWithin, List.map_cons, List.sum_cons] at *
  exact Nat.add_le_add hvalue h

/-- A bound on the values gives a bound on the object. -/
theorem canonicalBytes_obj_within {fields : List (String × JsonValue)} {bound : Nat}
    (h : FieldsWithin fields bound) :
    canonicalBytes (.obj fields) ≤ 2 + keyBytes (keys fields) + bound :=
  (canonicalBytes_obj_le fields).trans (Nat.add_le_add_left h _)

/-- The same where the keys are only counted. -/
theorem canonicalBytes_obj_counted {fields : List (String × JsonValue)} {bytes bound : Nat}
    (counted : 6 * ((keys fields).map String.utf8ByteSize).sum + 4 * (keys fields).length ≤ bytes)
    (h : FieldsWithin fields bound) : canonicalBytes (.obj fields) ≤ 2 + bytes + bound := by
  have hwithin := canonicalBytes_obj_within h
  have hkeys := (keyBytes_le (keys fields)).trans counted
  omega

end JsonValue
