import Justflow.Library.Base64
import Justflow.Library.JsonSize

/-!
# Base64 in JSON texts

The digits of Base64 are written in a JSON text as they are, so such a text is as long as the number
of its bytes says.
-/

namespace Base64

open JsonValue

theorem plainChar_digit (n : Nat) : plainChar (digit n) = true := by
  by_cases small : n < 64
  · have table : ∀ n < 64, plainChar (digit n) = true := by decide +kernel
    exact table n small
  · have beyond : alphabet.length ≤ n := by
      have length : alphabet.length = 64 := by decide
      omega
    rw [digit, List.getD_eq_getElem?_getD, List.getElem?_eq_none beyond]
    decide

theorem plainChar_encode (bytes : List Byte) : ∀ c ∈ encode bytes, plainChar c = true := by
  have pad : plainChar '=' = true := by decide
  induction bytes using encode.induct with
  | case1 => simp [encode]
  | case2 a => simp [encode, plainChar_digit, pad]
  | case3 a b => simp [encode, plainChar_digit, pad]
  | case4 a b c rest ih =>
      intro d hd
      simp only [encode, List.mem_cons] at hd
      rcases hd with rfl | rfl | rfl | rfl | hd
      · exact plainChar_digit _
      · exact plainChar_digit _
      · exact plainChar_digit _
      · exact plainChar_digit _
      · exact ih d hd

theorem plain_encode (bytes : List Byte) : plain (String.ofList (encode bytes)) = true := by
  rw [plain, String.toList_ofList, List.all_eq_true]
  exact plainChar_encode bytes

/-- The digits and two quotes. -/
theorem utf8ByteSize_quote_encode (bytes : List Byte) :
    (quote (String.ofList (encode bytes))).utf8ByteSize = 4 * ((bytes.length + 2) / 3) + 2 := by
  rw [utf8ByteSize_quote_plain (plain_encode bytes), String.length_ofList, length_encode]

end Base64
