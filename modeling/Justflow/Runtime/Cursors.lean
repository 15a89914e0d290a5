import Justflow.Library.Base64
import Justflow.Library.Decoded
import Justflow.Runtime.Control

/-!
# Continuation cursors

A cursor is a JSON position with the digest of its scope, as canonical JSON in UTF-8 and Base64.
The workflow listing puts the page tokens of Temporal in it, as lists of bytes.  Both layers have
limits of their own: 8192 bytes of canonical JSON, and 4096 bytes of a page token.

How far documents may nest before `json` raises `RecursionError` is up to the interpreter.
-/

namespace JsonValue

mutual

/-- The depth of the containers of a value. -/
def nesting : JsonValue → Nat
  | .arr items => nestingItems items + 1
  | .obj fields => nestingFields fields + 1
  | _ => 0

def nestingItems : List JsonValue → Nat
  | [] => 0
  | v :: rest => max (nesting v) (nestingItems rest)

def nestingFields : List (String × JsonValue) → Nat
  | [] => 0
  | (_, v) :: rest => max (nesting v) (nestingFields rest)

end

end JsonValue

namespace Justflow

open Base64

def maxCursorBytes : Nat := 8192
def cursorFormatVersion : Int := 1

/-! ## JSON in bytes -/

def utf8 (s : String) : List Byte :=
  s.toUTF8.data.toList.map fun b => byte b.toNat

theorem length_utf8 (s : String) : (utf8 s).length = s.utf8ByteSize := by
  simp [utf8]

/-- The exceptions of `json.loads`; all but the last are instances of `ValueError`. -/
inductive LoadsFailure where
  | decodeError | unicodeError | valueError | recursionError
  deriving DecidableEq

/-- The JSON library of an interpreter. -/
structure JsonInterpreter where
  loads : List Byte → Except LoadsFailure Decoded
  /-- How deep a document may nest. -/
  recursionLimit : Nat
  shallow : 2 ≤ recursionLimit

/-- `loads` gives back what `dumps` has written for a value. -/
def JsonInterpreter.ReadsBack (interpreter : JsonInterpreter) (value : JsonValue) : Prop :=
  interpreter.loads (utf8 (Hashing.canonicalText value)) = .ok (.ofJson value.wire)

/-! ## Cursors -/

inductive CursorError where
  | value (message : String)
  /-- The interpreter's `ValueError` for an integer with too many digits. -/
  | integerConversion
  | recursion
  deriving DecidableEq

def cursorValue (scopeDigest : Digest) (position : JsonValue) : JsonValue :=
  .obj [("format_version", .int cursorFormatVersion), ("position", position),
    ("scope_digest", .str scopeDigest.text)]

section Coding

variable (hashing : Hashing) (interpreter : JsonInterpreter) (scope : RuntimeScope)

def encodeScopeCursor (position : JsonValue) : Except CursorError DecodedText :=
  let value := cursorValue (scope.digest hashing) position
  if interpreter.recursionLimit < value.nesting then .error .recursion
  else
    let payload := utf8 (Hashing.canonicalText value)
    if maxCursorBytes < payload.length then
      .error (.value "Continuation cursor exceeds its byte limit")
    else .ok (.ofString (String.ofList (encode payload)))

/-- `encode("ascii")`. -/
def asciiChars (self : DecodedText) : Option (List Char) := do
  let s ← self.strict
  if s.toList.all fun c => c.toNat < 128 then some s.toList else none

/-- `value == CURSOR_FORMAT_VERSION`, which `True` and `1.0` pass too. -/
def equalsFormatVersion : Decoded → Bool
  | .int n => n = cursorFormatVersion
  | .bool b => b
  | .float (.finite f) => f.value = cursorFormatVersion
  | _ => false

/-- The checks of what a cursor was read as. -/
def positionOf (value : Decoded) : Except CursorError Decoded :=
  let foreign := .error (.value "Continuation cursor does not belong to the runtime scope")
  if value.keysWithin ["format_version", "position", "scope_digest"] then
    match value.field "format_version", value.field "position", value.field "scope_digest" with
    | some version, some position, some digest =>
        if equalsFormatVersion version ∧ digest.asText = some (scope.digest hashing).text then
          .ok position
        else foreign
    | _, _, _ => foreign
  else foreign

def decodeScopeCursor (cursor : DecodedText) : Except CursorError Decoded :=
  let invalid := .error (.value "Continuation cursor is invalid")
  if cursor.points = [] ∨ maxCursorBytes * 2 < cursor.points.length then invalid
  else
    match asciiChars cursor with
    | none => invalid
    | some chars =>
        match decode chars with
        | none => invalid
        | some payload =>
            if maxCursorBytes < payload.length then
              .error (.value "Continuation cursor exceeds its byte limit")
            else
              match interpreter.loads payload with
              | .error .decodeError | .error .unicodeError => invalid
              | .error .valueError => .error .integerConversion
              | .error .recursionError => .error .recursion
              | .ok value => positionOf hashing scope value

/-! ## Page tokens -/

inductive PageTokenFailure where
  | invalidRequest
  | temporalUnavailable
  /-- An exception that is no `ControlOperationError`. -/
  | escaped (error : CursorError)
  deriving DecidableEq

/-- An `int` between 0 and 255; `bool` is a kind of `int`. -/
def byteOf : Decoded → Option Byte
  | .int n => if 0 ≤ n ∧ n ≤ 255 then some (byte n.toNat) else none
  | .bool b => some (byte b.toNat)
  | _ => none

/-- `_decode_page_token`. -/
def decodePageToken (token : Option DecodedText) :
    Except PageTokenFailure (Option (List Byte)) :=
  match token with
  | none => .ok none
  | some token =>
      match decodeScopeCursor hashing interpreter scope token with
      | .error .recursion => .error (.escaped .recursion)
      | .error (.value _) | .error .integerConversion => .error .invalidRequest
      | .ok (.arr items) =>
          match items.mapM byteOf with
          | none => .error .invalidRequest
          | some decoded =>
              if maxPageTokenBytes < decoded.length then .error .invalidRequest
              else .ok (some decoded)
      | .ok _ => .error .invalidRequest

/-- The position of a page token: `list(token)`. -/
def tokenPosition (token : List Byte) : JsonValue :=
  .arr (token.map fun b => .int b.val)

/-- `_encode_page_token`. -/
def encodePageToken (token : Option (List Byte)) :
    Except PageTokenFailure (Option DecodedText) :=
  match token with
  | none | some [] => .ok none
  | some token =>
      if maxPageTokenBytes < token.length then .error .temporalUnavailable
      else
        match encodeScopeCursor hashing interpreter scope (tokenPosition token) with
        | .error error => .error (.escaped error)
        | .ok cursor => .ok (some cursor)

end Coding

/-! ## Sizes -/

section Sizes

open JsonValue

theorem wire_cursorValue (scopeDigest : Digest) (position : JsonValue) :
    (cursorValue scopeDigest position).wire = cursorValue scopeDigest position.wire := by
  have sorted : Fields.KeysSorted [("format_version", JsonValue.int cursorFormatVersion),
      ("position", position.wire), ("scope_digest", .str scopeDigest.text)] := by
    simp only [Fields.KeysSorted, Fields.keys_cons, Fields.keys_nil]
    decide
  simp only [cursorValue, wire_obj, List.map_cons, List.map_nil, wire_int, wire_str]
  rw [Fields.sortKeys_eq_self sorted]

/-- What the envelope adds to a position. -/
theorem canonicalBytes_cursorValue (scopeDigest : Digest) (position : JsonValue) :
    canonicalBytes (cursorValue scopeDigest position) = canonicalBytes position + 114 := by
  have digest : (quote scopeDigest.text).utf8ByteSize = 66 := bytes_digest scopeDigest
  have format : (quote "format_version").utf8ByteSize = 16 := by decide
  have name : (quote "position").utf8ByteSize = 10 := by decide
  have scope : (quote "scope_digest").utf8ByteSize = 14 := by decide
  have version : (toString cursorFormatVersion).utf8ByteSize = 1 := by decide
  rw [canonicalBytes, wire_cursorValue, cursorValue, text, textFields, textFields, textFields]
  simp only [text, String.utf8ByteSize_append, digest, format, name, scope, version]
  have colon : (":" : String).utf8ByteSize = 1 := by decide
  have comma : ("," : String).utf8ByteSize = 1 := by decide
  have opening : ("\x7b" : String).utf8ByteSize = 1 := by decide
  have closing : ("\x7d" : String).utf8ByteSize = 1 := by decide
  rw [colon, comma, opening, closing, canonicalBytes]
  omega

/-- The digits of the bytes of a token, with a comma for each. -/
def tokenDigits (token : List Byte) : Nat :=
  (token.map fun b => (Nat.repr b.val).utf8ByteSize + 1).sum

theorem tokenDigits_replicate (n : Nat) (b : Byte) :
    tokenDigits (List.replicate n b) = n * ((Nat.repr b.val).utf8ByteSize + 1) := by
  induction n with
  | zero => simp [tokenDigits]
  | succ n ih =>
      simp only [tokenDigits] at ih ⊢
      rw [List.replicate_succ, List.map_cons, List.sum_cons, ih, Nat.succ_mul, Nat.add_comm]

theorem utf8ByteSize_tokenItems {token : List Byte} (h : token ≠ []) :
    (textItems (token.map fun b => .int b.val)).utf8ByteSize + 1 = tokenDigits token := by
  have comma : ("," : String).utf8ByteSize = 1 := by decide
  induction token with
  | nil => exact absurd rfl h
  | cons b rest ih =>
      have here : (text (.int b.val)).utf8ByteSize = (Nat.repr b.val).utf8ByteSize := rfl
      cases rest with
      | nil => simp [textItems, tokenDigits, here]
      | cons c tail =>
          have there := ih (List.cons_ne_nil _ _)
          simp only [List.map_cons, textItems, String.utf8ByteSize_append, comma, here] at there ⊢
          simp only [tokenDigits, List.map_cons, List.sum_cons] at there ⊢
          omega

theorem canonicalBytes_tokenPosition {token : List Byte} (h : token ≠ []) :
    canonicalBytes (tokenPosition token) = tokenDigits token + 1 := by
  have items := utf8ByteSize_tokenItems h
  have opening : ("[" : String).utf8ByteSize = 1 := by decide
  have closing : ("]" : String).utf8ByteSize = 1 := by decide
  rw [canonicalBytes, tokenPosition, wire_arr, List.map_map, text]
  simp only [Function.comp_def, wire_int, String.utf8ByteSize_append, opening, closing]
  omega

theorem nesting_tokenPosition (scopeDigest : Digest) (token : List Byte) :
    (cursorValue scopeDigest (tokenPosition token)).nesting = 2 := by
  have flat : ∀ rest : List Byte, nestingItems (rest.map fun b => .int b.val) = 0 := by
    intro rest
    induction rest with
    | nil => rfl
    | cons b rest ih => simp [nestingItems, nesting, ih]
  simp [cursorValue, tokenPosition, nesting, nestingFields, flat]

end Sizes

/-! ## Round trips -/

section RoundTrips

variable {hashing : Hashing} {interpreter : JsonInterpreter} {scope : RuntimeScope}

theorem encodeScopeCursor_eq_ok_iff {position : JsonValue} {cursor : DecodedText} :
    encodeScopeCursor hashing interpreter scope position = .ok cursor ↔
      (cursorValue (scope.digest hashing) position).nesting ≤ interpreter.recursionLimit ∧
        (cursorValue (scope.digest hashing) position).canonicalBytes ≤ maxCursorBytes ∧
          cursor = .ofString (String.ofList (encode (utf8
            (Hashing.canonicalText (cursorValue (scope.digest hashing) position))))) := by
  simp only [encodeScopeCursor, length_utf8]
  split
  · next deep => simp [Nat.not_le_of_lt deep]
  · next shallow =>
      split
      · next large =>
          have : ¬ (cursorValue (scope.digest hashing) position).canonicalBytes ≤
            maxCursorBytes := Nat.not_le_of_lt large
          simp [this]
      · next small =>
          have : (cursorValue (scope.digest hashing) position).canonicalBytes ≤
            maxCursorBytes := Nat.le_of_not_lt small
          simp [this, Nat.le_of_not_lt shallow, eq_comm]

/-- The text of an encoded payload is read as the payload. -/
theorem decode_encoded {payload : List Byte} (some_ : payload ≠ [])
    (small : payload.length ≤ maxCursorBytes) :
    decodeScopeCursor hashing interpreter scope (.ofString (String.ofList (encode payload))) =
      match interpreter.loads payload with
      | .error .decodeError | .error .unicodeError =>
          .error (.value "Continuation cursor is invalid")
      | .error .valueError => .error .integerConversion
      | .error .recursionError => .error .recursion
      | .ok value => positionOf hashing scope value := by
  have length : (encode payload).length ≤ maxCursorBytes * 2 := by
    rw [length_encode]
    simp only [maxCursorBytes] at small ⊢
    omega
  have points : (DecodedText.ofString (String.ofList (encode payload))).points =
      (encode payload).map .inl := by
    simp [DecodedText.ofString]
  have admitted : ¬ ((DecodedText.ofString (String.ofList (encode payload))).points = [] ∨
      maxCursorBytes * 2 <
        (DecodedText.ofString (String.ofList (encode payload))).points.length) := by
    rw [points, List.map_eq_nil_iff, List.length_map]
    rintro (none_ | long)
    · exact encode_ne_nil some_ none_
    · omega
  have chars : asciiChars (DecodedText.ofString (String.ofList (encode payload))) =
      some (encode payload) := by
    have ascii : (String.ofList (encode payload)).toList.all (fun c => c.toNat < 128) = true := by
      rw [String.toList_ofList, List.all_eq_true]
      exact fun c hc => decide_eq_true (encode_ascii hc)
    rw [asciiChars, DecodedText.strict_ofString]
    refine (if_pos ascii).trans ?_
    rw [String.toList_ofList]
  simp only [decodeScopeCursor]
  rw [if_neg admitted, chars]
  simp only [decode_encode, if_neg (Nat.not_lt.mpr small)]

theorem cursorText_ne_nil (scopeDigest : Digest) (position : JsonValue) :
    utf8 (Hashing.canonicalText (cursorValue scopeDigest position)) ≠ [] := by
  intro none_
  have length := congrArg List.length none_
  have size : (Hashing.canonicalText (cursorValue scopeDigest position)).utf8ByteSize =
      JsonValue.canonicalBytes position + 114 := canonicalBytes_cursorValue scopeDigest position
  rw [length_utf8, size] at length
  cases length

/-- The position of a cursor, for the scope that it names and for any other. -/
theorem positionOf_cursorValue (scopeDigest : Digest) (position : JsonValue) :
    positionOf hashing scope (.ofJson (cursorValue scopeDigest position)) =
      if scopeDigest = scope.digest hashing then .ok (.ofJson position)
      else .error (.value "Continuation cursor does not belong to the runtime scope") := by
  have version : equalsFormatVersion (.ofJson (.int cursorFormatVersion)) = true := by decide
  have digests : scopeDigest.text = (scope.digest hashing).text ↔
      scopeDigest = scope.digest hashing :=
    ⟨fun same => by cases scopeDigest; cases h : scope.digest hashing; simp_all,
      congrArg Digest.text⟩
  simp [positionOf, cursorValue, List.lookup_cons, version, digests]

/-- A cursor of a scope is read back for it, and for no other. -/
theorem decode_scopeCursor {position : JsonValue} {cursor : DecodedText}
    (encoded : encodeScopeCursor hashing interpreter scope position = .ok cursor)
    (reads : interpreter.ReadsBack (cursorValue (scope.digest hashing) position))
    (reader : RuntimeScope) :
    decodeScopeCursor hashing interpreter reader cursor =
      if scope.digest hashing = reader.digest hashing then .ok (.ofJson position.wire)
      else .error (.value "Continuation cursor does not belong to the runtime scope") := by
  obtain ⟨_, small, rfl⟩ := encodeScopeCursor_eq_ok_iff.mp encoded
  rw [decode_encoded (cursorText_ne_nil _ _) (by rw [length_utf8]; exact small), reads,
    wire_cursorValue]
  exact positionOf_cursorValue _ _

theorem wire_tokenPosition (token : List Byte) :
    (tokenPosition token).wire = tokenPosition token := by
  simp [tokenPosition]

theorem byteOf_ofJson (b : Byte) : byteOf (.ofJson (.int b.val)) = some b := by
  have range : (0 : Int) ≤ b.val ∧ (b.val : Int) ≤ 255 := by
    have := b.isLt
    omega
  simp only [Decoded.ofJson, byteOf, if_pos range]
  exact congrArg some (byte_val b (by simp))

theorem mapM_byteOf (token : List Byte) :
    (Decoded.ofItems (token.map fun b => .int b.val)).mapM byteOf = some token := by
  induction token with
  | nil => rfl
  | cons b rest ih =>
      rw [List.map_cons, Decoded.ofItems, List.mapM_cons, byteOf_ofJson, ih]
      rfl

/-- The cursor of a page token gives the token back. -/
theorem decode_pageToken {token : List Byte} {cursor : DecodedText}
    (small : token.length ≤ maxPageTokenBytes)
    (encoded : encodeScopeCursor hashing interpreter scope (tokenPosition token) = .ok cursor)
    (reads : interpreter.ReadsBack (cursorValue (scope.digest hashing) (tokenPosition token))) :
    decodePageToken hashing interpreter scope (some cursor) = .ok (some token) := by
  have read := decode_scopeCursor encoded reads scope
  rw [if_pos rfl, wire_tokenPosition] at read
  have items : Decoded.ofJson (tokenPosition token) =
      .arr (Decoded.ofItems (token.map fun b => .int b.val)) := rfl
  simp only [decodePageToken, read, items, mapM_byteOf, if_neg (Nat.not_lt.mpr small)]

theorem encodePageToken_eq_ok_iff {token : List Byte} (some_ : token ≠ [])
    (small : token.length ≤ maxPageTokenBytes) {cursor : DecodedText} :
    encodePageToken hashing interpreter scope (some token) = .ok (some cursor) ↔
      encodeScopeCursor hashing interpreter scope (tokenPosition token) = .ok cursor := by
  cases token with
  | nil => exact absurd rfl some_
  | cons b rest =>
      simp only [encodePageToken, if_neg (Nat.not_lt.mpr small)]
      cases encodeScopeCursor hashing interpreter scope (tokenPosition (b :: rest)) with
      | error error => simp
      | ok found => simp

/-! ## Bounds -/

/-- `json.loads` exceeds the recursion limit on the payload of the cursor. -/
def JsonInterpreter.OverflowsOn (interpreter : JsonInterpreter) (cursor : DecodedText) : Prop :=
  cursor.points ≠ [] ∧ cursor.points.length ≤ maxCursorBytes * 2 ∧ ∃ chars payload,
    asciiChars cursor = some chars ∧ decode chars = some payload ∧
      payload.length ≤ maxCursorBytes ∧ interpreter.loads payload = .error .recursionError

theorem positionOf_ne_recursion (value : Decoded) :
    positionOf hashing scope value ≠ .error .recursion := by
  rw [positionOf]
  split
  · split
    · split <;> nofun
    · nofun
  · nofun

theorem decode_eq_recursion_iff {cursor : DecodedText} :
    decodeScopeCursor hashing interpreter scope cursor = .error .recursion ↔
      interpreter.OverflowsOn cursor := by
  simp only [decodeScopeCursor, JsonInterpreter.OverflowsOn]
  split
  · next refused =>
      constructor
      · nofun
      · rintro ⟨some_, short, _⟩
        rcases refused with none_ | long
        · exact absurd none_ some_
        · omega
  · next admitted =>
      rw [not_or, Nat.not_lt] at admitted
      cases asciiChars cursor with
      | none => simp
      | some chars =>
          cases decoded : decode chars with
          | none => simp [decoded]
          | some payload =>
              by_cases large : maxCursorBytes < payload.length
              · simp [decoded, large, Nat.not_le_of_lt large]
              · have small := Nat.le_of_not_lt large
                cases loaded : interpreter.loads payload with
                | error failure => cases failure <;> simp [admitted, decoded, large, small, loaded]
                | ok value =>
                    simp [decoded, large, loaded, positionOf_ne_recursion]

/-- Whatever a string decodes to, other than a position, is a `ValueError`, unless `json.loads`
exceeds the recursion limit. -/
theorem decode_closed_iff (cursor : DecodedText) :
    ((∃ position, decodeScopeCursor hashing interpreter scope cursor = .ok position) ∨
      (∃ message, decodeScopeCursor hashing interpreter scope cursor = .error (.value message)) ∨
      decodeScopeCursor hashing interpreter scope cursor = .error .integerConversion) ↔
      ¬ interpreter.OverflowsOn cursor := by
  rw [← @decode_eq_recursion_iff hashing interpreter scope]
  cases decodeScopeCursor hashing interpreter scope cursor with
  | ok position => simp
  | error error => cases error <;> simp

/-- A page token can be listed exactly if its digits fit into a cursor. -/
theorem pageToken_listed_iff {token : List Byte} (some_ : token ≠ [])
    (small : token.length ≤ maxPageTokenBytes)
    (reads : interpreter.ReadsBack (cursorValue (scope.digest hashing) (tokenPosition token))) :
    (∃ cursor, encodePageToken hashing interpreter scope (some token) = .ok (some cursor) ∧
      decodePageToken hashing interpreter scope (some cursor) = .ok (some token)) ↔
      tokenDigits token + 115 ≤ maxCursorBytes := by
  have size : (cursorValue (scope.digest hashing) (tokenPosition token)).canonicalBytes =
      tokenDigits token + 115 := by
    rw [canonicalBytes_cursorValue, canonicalBytes_tokenPosition some_]
  constructor
  · rintro ⟨cursor, encoded, _⟩
    rw [encodePageToken_eq_ok_iff some_ small, encodeScopeCursor_eq_ok_iff, size] at encoded
    exact encoded.2.1
  · intro fits
    have encoded := encodeScopeCursor_eq_ok_iff.mpr
      ⟨(nesting_tokenPosition (scope.digest hashing) token).le.trans interpreter.shallow,
        size.le.trans fits, rfl⟩
    exact ⟨_, (encodePageToken_eq_ok_iff some_ small).mpr encoded,
      decode_pageToken small encoded reads⟩

end RoundTrips

/-- Positions go round for their own scope only; a string decodes to a position or a `ValueError`
exactly if reading it does not exceed the recursion limit; and a page token goes round exactly if
its digits fit into a cursor. -/
theorem scopeCursors_iff (hashing : Hashing) (interpreter : JsonInterpreter)
    (scope : RuntimeScope) :
    (∀ position cursor, encodeScopeCursor hashing interpreter scope position = .ok cursor →
      interpreter.ReadsBack (cursorValue (scope.digest hashing) position) →
        decodeScopeCursor hashing interpreter scope cursor = .ok (.ofJson position.wire) ∧
          ∀ other : RuntimeScope, other.digest hashing ≠ scope.digest hashing →
            ∃ message, decodeScopeCursor hashing interpreter other cursor =
              .error (.value message)) ∧
    (∀ cursor,
      ((∃ position, decodeScopeCursor hashing interpreter scope cursor = .ok position) ∨
        (∃ message,
          decodeScopeCursor hashing interpreter scope cursor = .error (.value message)) ∨
        decodeScopeCursor hashing interpreter scope cursor = .error .integerConversion) ↔
        ¬ interpreter.OverflowsOn cursor) ∧
    ∀ token, token ≠ [] → token.length ≤ maxPageTokenBytes →
      interpreter.ReadsBack (cursorValue (scope.digest hashing) (tokenPosition token)) →
        ((∃ cursor, encodePageToken hashing interpreter scope (some token) = .ok (some cursor) ∧
          decodePageToken hashing interpreter scope (some cursor) = .ok (some token)) ↔
          tokenDigits token + 115 ≤ maxCursorBytes) := by
  refine ⟨fun position cursor encoded reads => ⟨?_, fun other foreign => ?_⟩, decode_closed_iff,
    fun token some_ small reads => pageToken_listed_iff some_ small reads⟩
  · rw [decode_scopeCursor encoded reads, if_pos rfl]
  · rw [decode_scopeCursor encoded reads, if_neg (Ne.symm foreign)]
    exact ⟨_, rfl⟩

/-! ## Two pages -/

/-- An interpreter that reads one document. -/
def readerOf (value : JsonValue) : JsonInterpreter where
  loads payload :=
    if payload = utf8 (Hashing.canonicalText value) then .ok (.ofJson value.wire)
    else .error .decodeError
  recursionLimit := 994
  shallow := by decide

theorem readsBack_readerOf (value : JsonValue) : (readerOf value).ReadsBack value :=
  if_pos rfl

def shortToken : List Byte := [10, 4, 0, 255]

/-- A short page token goes round. -/
theorem scopeCursors_iff_short : ∃ cursor,
    encodePageToken lengthHash (readerOf (cursorValue (localRuntimeScope.digest lengthHash)
        (tokenPosition shortToken))) localRuntimeScope (some shortToken) = .ok (some cursor) ∧
      decodePageToken lengthHash (readerOf (cursorValue (localRuntimeScope.digest lengthHash)
        (tokenPosition shortToken))) localRuntimeScope (some cursor) = .ok (some shortToken) :=
  ((scopeCursors_iff lengthHash _ localRuntimeScope).2.2 shortToken (by decide) (by decide)
    (readsBack_readerOf _)).mpr (by decide)

/-- A page token of the declared size. -/
def longToken : List Byte :=
  List.replicate maxPageTokenBytes 255

/-- A page token within its bound has no cursor, so the listing cannot go on. -/
theorem long_token_refused : longToken ≠ [] ∧ longToken.length ≤ maxPageTokenBytes ∧
    ∀ interpreter cursor,
      encodePageToken lengthHash interpreter localRuntimeScope (some longToken) ≠
        .ok (some cursor) := by
  have some_ : longToken ≠ [] := by
    intro none_
    have length := congrArg List.length none_
    rw [longToken, List.length_replicate] at length
    cases length
  have small : longToken.length ≤ maxPageTokenBytes := by simp [longToken]
  refine ⟨some_, small, fun interpreter cursor encoded => ?_⟩
  rw [encodePageToken_eq_ok_iff some_ small, encodeScopeCursor_eq_ok_iff,
    canonicalBytes_cursorValue, canonicalBytes_tokenPosition some_] at encoded
  have digits : tokenDigits longToken = maxPageTokenBytes * 4 := by
    have each : (Nat.repr (255 : Byte).val).utf8ByteSize + 1 = 4 := by decide
    rw [longToken, tokenDigits_replicate, each]
  rw [digits] at encoded
  exact absurd encoded.2.1 (by decide)

end Justflow
