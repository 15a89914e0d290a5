import Justflow.Library.JsonSize

/-!
# Content identities

Identities are SHA-256 digests of canonical JSON.  The hash function itself is a parameter; the
texts that reach it are built here as the source builds them.
-/

namespace Justflow

/-- A lowercase hexadecimal digit. -/
def isHexDigit (c : Char) : Bool :=
  c ∈ "0123456789abcdef".toList

/-- 64 lowercase hexadecimal digits. -/
structure Digest where
  text : String
  length : text.length = 64
  hex : text.toList.all isHexDigit
  deriving DecidableEq

/-- A text that has passed the checks of a digest. -/
def Digest.checked (text : String) (h : text.length = 64 ∧ text.toList.all isHexDigit) : Digest :=
  ⟨text, h.1, h.2⟩

@[simp]
theorem Digest.checked_text (digest : Digest)
    (h : digest.text.length = 64 ∧ digest.text.toList.all isHexDigit) :
    Digest.checked digest.text h = digest :=
  rfl

theorem Digest.text_inj {first second : Digest} : first.text = second.text ↔ first = second := by
  cases first
  cases second
  simp

/-- A digest that names its algorithm. -/
structure ProvenanceDigest where
  hex : Digest
  deriving DecidableEq

def ProvenanceDigest.text (self : ProvenanceDigest) : String :=
  "sha256:" ++ self.hex.text

abbrev RevisionIdentity := Digest

/-- A text of at least one and at most `limit` characters. -/
structure BoundedText (limit : Nat) where
  text : String
  nonempty : 1 ≤ text.length
  bounded : text.length ≤ limit
  deriving DecidableEq

def hexDigitAt (n position : Nat) : Char :=
  "0123456789abcdef".toList.getD (n / 16 ^ position % 16) '0'

theorem isHexDigit_hexDigitAt (n position : Nat) : isHexDigit (hexDigitAt n position) := by
  have h : ∀ k < 16, isHexDigit ("0123456789abcdef".toList.getD k '0') = true := by decide
  exact h _ (Nat.mod_lt _ (by decide))

/-- The digest that a number below `16 ^ 64` denotes. -/
def Digest.ofNat (n : Nat) : Digest where
  text := String.ofList ((List.range 64).reverse.map (hexDigitAt n))
  length := by simp
  hex := by simp [isHexDigit_hexDigitAt]

/-- The last `width` decimal digits of a number. -/
def decimalDigits (width n : Nat) : String :=
  String.ofList ((List.range width).reverse.map fun position =>
    Nat.digitChar (n / 10 ^ position % 10))

/-! ## Bytes of digests and decimals -/

open JsonValue

theorem plain_digest (digest : Digest) : plain digest.text := by
  have table : "0123456789abcdef".toList.all plainChar := by decide
  have hex := digest.hex
  simp only [plain, List.all_eq_true] at hex ⊢
  intro c hc
  have := hex c hc
  simp only [isHexDigit, decide_eq_true_eq] at this
  exact List.all_eq_true.mp table c this

theorem bytes_digest (digest : Digest) : canonicalBytes (.str digest.text) = 66 := by
  rw [canonicalBytes_str, utf8ByteSize_quote_plain (plain_digest digest), digest.length]

theorem bytes_provenanceDigest (digest : ProvenanceDigest) :
    canonicalBytes (.str digest.text) = 73 := by
  have hprefix : plain "sha256:" := by decide
  have hlength : "sha256:".length = 7 := by decide
  rw [canonicalBytes_str, ProvenanceDigest.text, utf8ByteSize_quote_plain, String.length_append,
    digest.hex.length, hlength]
  rw [plain_append, hprefix, plain_digest, Bool.and_self]

theorem plain_decimalDigits (width n : Nat) : plain (decimalDigits width n) := by
  have table : ∀ d < 10, plainChar (Nat.digitChar d) = true := by decide
  simp only [plain, decimalDigits, String.toList_ofList, List.all_map, List.all_eq_true]
  intro position _
  exact table _ (Nat.mod_lt _ (by decide))

theorem length_decimalDigits (width n : Nat) : (decimalDigits width n).length = width := by
  simp [decimalDigits]

/-! ## Hashing -/

/-- SHA-256 of a text in UTF-8. -/
structure Hashing where
  sha256 : String → Digest

namespace Hashing

variable (self : Hashing)

def canonicalText (value : JsonValue) : String :=
  (JsonValue.wire value).text

def provenanceDigest (value : JsonValue) : ProvenanceDigest :=
  ⟨self.sha256 (canonicalText value)⟩

def safeIdentityDigest (kind value : String) : Digest :=
  self.sha256 (JsonValue.arr [.str kind, .str value]).text

def scopedIdentity (kind : String) (scopeDigest : Digest) (parts : List String) : String :=
  "jf1." ++ kind ++ "." ++ scopeDigest.text ++ "." ++
    (self.sha256 (JsonValue.arr (parts.map .str)).text).text

end Hashing

end Justflow
