import Justflow.Engine.Archival
import Justflow.Engine.Serialization

/-!
# TemporalPayload protection

The payloads of Temporal and the records of the archive are encrypted by a cipher of the host under
the active key.  The key's name stands beside the ciphertext, so that keys may be rotated: a reader
takes whatever is encrypted under a key that it can still read.  What is encrypted in one format is
not read in the other, and not under the name of another key.
-/

open Fields JsonValue

namespace Justflow

open Base64 (Byte)

def maxKeyIdLength : Nat := 128
def temporalPayloadFormat : String := "justflow-temporal-payload"
def codecEncoding : String := "binary/justflow-encrypted"
def encodingMetadataKey : String := "encoding"
def keyIdMetadataKey : String := "justflow-key-id"
def codecVersionMetadataKey : String := "justflow-codec-version"

inductive ProtectionError where
  | strictJson
  | value (text : String)
  | protection (text : String)
  deriving DecidableEq

/-! ## Bytes -/

/-- `bytes.decode("utf-8")`. -/
def decodeUtf8 (bytes : List Byte) : Option String :=
  String.fromUTF8? ⟨(bytes.map UInt8.ofFin).toArray⟩

theorem decodeUtf8_utf8Bytes (s : String) : decodeUtf8 (utf8Bytes s) = some s := by
  have bytes : (⟨((utf8Bytes s).map UInt8.ofFin).toArray⟩ : ByteArray) = s.toByteArray := by
    have same : UInt8.ofFin ∘ UInt8.toFin = id := funext fun b => rfl
    simp [utf8Bytes, same]
  rw [decodeUtf8, bytes, String.fromUTF8?, dif_pos s.isValidUTF8]
  rfl

theorem utf8Bytes_injective {s t : String} (same : utf8Bytes s = utf8Bytes t) : s = t := by
  have read := decodeUtf8_utf8Bytes s
  rw [same, decodeUtf8_utf8Bytes] at read
  exact (Option.some.inj read).symm

/-- `base64.b64decode` that validates its text. -/
def b64decode (text : String) : Option (List Byte) :=
  if text.toList.any (fun c => c = '-' || c = '_') then none else Base64.decode text.toList

/-- The host takes bytes for a text: those that begin with a brace and no zero are in UTF-8. -/
structure JsonHost extends FloatReader where
  decodeText : List Byte → Option String
  decodesUtf8 : ∀ text c, text.toList.take 2 = ['\x7b', c] → c ≠ '\x00' →
    decodeText (utf8Bytes text) = some text

def JsonHost.loads (self : JsonHost) (serialized : List Byte) : Option JsonValue :=
  (self.decodeText serialized).bind (loadsStrictJson self.toFloatReader)

/-! ## Ciphers and keys -/

/-- The cipher of the host.  What it encrypts it decrypts again, and it decrypts nothing else: not
what was made for another key or other associated data.  Each encryption has a draw of its own. -/
structure AuthenticatedPayloadCipher where
  encryptAuthenticated : Nat → List Byte → String → List Byte → Option (List Byte)
  decryptAuthenticated : List Byte → String → List Byte → Option (List Byte)
  decrypts : ∀ draw plaintext keyId associated ciphertext,
    encryptAuthenticated draw plaintext keyId associated = some ciphertext →
      decryptAuthenticated ciphertext keyId associated = some plaintext
  made : ∀ ciphertext keyId associated plaintext,
    decryptAuthenticated ciphertext keyId associated = some plaintext →
      ∃ draw, encryptAuthenticated draw plaintext keyId associated = some ciphertext
  bound : ∀ draw plaintext keyId associated ciphertext otherKey otherData,
    encryptAuthenticated draw plaintext keyId associated = some ciphertext →
      decryptAuthenticated ciphertext otherKey otherData ≠ none →
        otherKey = keyId ∧ otherData = associated

def ValidKeyId (keyId : String) : Prop :=
  keyId ≠ "" ∧ keyId.length ≤ maxKeyIdLength

instance decidableValidKeyId (keyId : String) : Decidable (ValidKeyId keyId) :=
  inferInstanceAs (Decidable (_ ∧ _))

/-- A `PayloadProtectionBinding` with the keys that it reads. -/
structure KeyBinding where
  cipher : AuthenticatedPayloadCipher
  activeKeyId : String
  readableKeyIds : List String
  valid : ∀ keyId ∈ activeKeyId :: readableKeyIds, ValidKeyId keyId
  readable : activeKeyId ∈ readableKeyIds

def requireReadableKey (keyId : String) (binding : KeyBinding) : Except ProtectionError Unit :=
  if ¬ ValidKeyId keyId then .error (.protection "Encrypted payload has an invalid key id")
  else if keyId ∈ binding.readableKeyIds then .ok ()
  else .error (.protection "Payload decryption key is not available")

def temporalAssociatedData (keyId : String) : List Byte :=
  utf8Bytes (StrictJsonLayout.canonical.text (.obj [("format", .str temporalPayloadFormat),
    ("format_version", .int codecFormatVersion), ("key_id", .str keyId)]))

def archiveAssociatedData (keyId : String) : List Byte :=
  utf8Bytes (StrictJsonLayout.canonical.text (.obj [("format", .str archiveFormat),
    ("format_version", .int codecFormatVersion),
    ("serialization_version", .int strictJsonVersion), ("key_id", .str keyId)]))

/-- A cipher returns bytes, or it failed. -/
def KeyBinding.encrypt (self : KeyBinding) (draw : Nat) (plaintext associated : List Byte)
    (failed : String) : Except ProtectionError (List Byte) :=
  match self.cipher.encryptAuthenticated draw plaintext self.activeKeyId associated with
  | some (b :: rest) => .ok (b :: rest)
  | _ => .error (.protection failed)

def KeyBinding.decrypt (self : KeyBinding) (ciphertext : List Byte) (keyId : String)
    (associated : List Byte) : Option (List Byte) :=
  (self.cipher.decryptAuthenticated ciphertext keyId associated).filter (· ≠ [])

/-! ## Temporal payloads -/

structure TemporalPayload where
  metadata : List (String × List Byte)
  data : List Byte
  deriving DecidableEq

/-- The messages of Temporal in bytes. -/
structure PayloadFormat where
  serializeToString : TemporalPayload → List Byte
  fromString : List Byte → Option TemporalPayload

def encodePayload (format : PayloadFormat) (binding : KeyBinding) (draw : Nat)
    (payload : TemporalPayload) : Except ProtectionError TemporalPayload := do
  let encrypted ← binding.encrypt draw (format.serializeToString payload)
    (temporalAssociatedData binding.activeKeyId) "Temporal payload encryption failed"
  return {
    metadata := [(encodingMetadataKey, utf8Bytes codecEncoding),
      (keyIdMetadataKey, utf8Bytes binding.activeKeyId),
      (codecVersionMetadataKey, utf8Bytes (toString codecFormatVersion))]
    data := encrypted }

def metadataKeyId (payload : TemporalPayload) : Except ProtectionError String :=
  match payload.metadata.lookup keyIdMetadataKey with
  | none => .error (.protection "Encrypted Temporal payload has no key id")
  | some bytes =>
      match decodeUtf8 bytes with
      | none => .error (.protection "Encrypted Temporal payload has an invalid key id")
      | some keyId =>
          if ValidKeyId keyId then .ok keyId
          else .error (.protection "Encrypted payload has an invalid key id")

/-- The payload of a ciphertext. -/
def openPayload (format : PayloadFormat) (binding : KeyBinding) (keyId : String)
    (ciphertext : List Byte) : Option TemporalPayload := do
  let plaintext ← binding.decrypt ciphertext keyId (temporalAssociatedData keyId)
  format.fromString plaintext

def decodePayload (format : PayloadFormat) (binding : KeyBinding) (payload : TemporalPayload) :
    Except ProtectionError TemporalPayload :=
  if payload.metadata.lookup encodingMetadataKey ≠ some (utf8Bytes codecEncoding) then
    .error (.protection "Temporal payload is not encrypted by the configured codec")
  else if payload.metadata.lookup codecVersionMetadataKey ≠
      some (utf8Bytes (toString codecFormatVersion)) then
    .error (.protection "Unsupported Temporal payload codec version")
  else do
    let keyId ← metadataKeyId payload
    requireReadableKey keyId binding
    match openPayload format binding keyId payload.data with
    | some decoded => .ok decoded
    | none => .error (.protection "Temporal payload decryption failed")

/-! ## Archive records -/

def archiveEnvelopeFields : List String :=
  ["format", "format_version", "serialization_version", "key_id", "ciphertext"]

def archiveEnvelope (keyId : String) (ciphertext : List Byte) : JsonObject :=
  [("format", .str archiveFormat), ("format_version", .int codecFormatVersion),
    ("serialization_version", .int strictJsonVersion), ("key_id", .str keyId),
    ("ciphertext", .str (b64encode ciphertext))]

def strictJson (layout : StrictJsonLayout) (value : JsonValue) : Except ProtectionError String :=
  match dumpsStrictJson layout value with
  | some text => .ok text
  | none => .error .strictJson

/-- `encode_archive_record`. -/
def protectArchiveRecord (binding : KeyBinding) (draw : Nat) (record : JsonObject) :
    Except ProtectionError String := do
  let plaintext ← strictJson .canonical (.obj record)
  let ciphertext ← binding.encrypt draw (utf8Bytes plaintext)
    (archiveAssociatedData binding.activeKeyId) "Archive encryption failed"
  strictJson .pretty (.obj (archiveEnvelope binding.activeKeyId ciphertext))

/-- The key and the ciphertext of an envelope. -/
def readArchiveEnvelope (envelope : JsonValue) : Except ProtectionError (String × String) :=
  match envelope with
  | .obj fields =>
      if ¬ ((∀ key ∈ keys fields, key ∈ archiveEnvelopeFields) ∧
          ∀ key ∈ archiveEnvelopeFields, key ∈ keys fields) then
        .error (.protection "Encrypted archive envelope has an invalid shape")
      else if ¬ (pyEq ((fields.lookup "format").getD .null) (.str archiveFormat) ∧
          pyEq ((fields.lookup "format_version").getD .null) (.int codecFormatVersion) ∧
          pyEq ((fields.lookup "serialization_version").getD .null) (.int strictJsonVersion)) then
        .error (.protection "Encrypted archive envelope has an unsupported version")
      else
        match fields.lookup "key_id", fields.lookup "ciphertext" with
        | some (.str keyId), some (.str ciphertext) => .ok (keyId, ciphertext)
        | _, _ => .error (.protection "Encrypted archive envelope has invalid fields")
  | _ => .error (.protection "Encrypted archive envelope has an invalid shape")

/-- The record of a ciphertext. -/
def openArchive (host : JsonHost) (binding : KeyBinding) (keyId ciphertextText : String) :
    Option JsonValue := do
  let ciphertext ← (b64decode ciphertextText).filter (· ≠ [])
  let plaintext ← binding.decrypt ciphertext keyId (archiveAssociatedData keyId)
  host.loads plaintext

/-- The record of an envelope. -/
def openEnvelope (host : JsonHost) (binding : KeyBinding) (envelope : JsonValue) :
    Except ProtectionError JsonObject := do
  let (keyId, ciphertextText) ← readArchiveEnvelope envelope
  requireReadableKey keyId binding
  match openArchive host binding keyId ciphertextText with
  | none => .error (.protection "Archive decryption failed")
  | some (.obj record) => .ok record
  | some _ => .error (.protection "Decrypted archive record must be a JSON object")

def decodeArchiveRecord (host : JsonHost) (binding : KeyBinding) (serialized : List Byte)
    (maxEnvelopeBytes : Nat) : Except ProtectionError JsonObject :=
  if maxEnvelopeBytes < 1 then
    .error (.value "Archive envelope byte limit must be positive")
  else if maxEnvelopeBytes < serialized.length then
    .error (.protection "Encrypted archive envelope exceeds its byte limit")
  else
    match host.loads serialized with
    | none => .error (.protection "Encrypted archive envelope is invalid JSON")
    | some envelope => openEnvelope host binding envelope

/-! ## Keys -/

theorem KeyBinding.encrypt_eq_ok {binding : KeyBinding} {draw : Nat}
    {plaintext associated ciphertext : List Byte} {failed : String} :
    binding.encrypt draw plaintext associated failed = .ok ciphertext ↔ ciphertext ≠ [] ∧
      binding.cipher.encryptAuthenticated draw plaintext binding.activeKeyId associated =
        some ciphertext := by
  rw [KeyBinding.encrypt]
  constructor
  · intro h
    split at h
    · next made =>
        obtain rfl := Except.ok.inj h
        exact ⟨List.cons_ne_nil _ _, made⟩
    · cases h
  · rintro ⟨nonempty, made⟩
    rw [made]
    cases ciphertext with
    | nil => exact absurd rfl nonempty
    | cons b rest => rfl

theorem KeyBinding.decrypt_eq_some {binding : KeyBinding} {ciphertext plaintext : List Byte}
    {keyId : String} {associated : List Byte} :
    binding.decrypt ciphertext keyId associated = some plaintext ↔ plaintext ≠ [] ∧
      binding.cipher.decryptAuthenticated ciphertext keyId associated = some plaintext := by
  rw [KeyBinding.decrypt, Option.filter_eq_some_iff, decide_eq_true_eq, and_comm]

theorem requireReadableKey_readable {binding : KeyBinding} {keyId : String}
    (readable : keyId ∈ binding.readableKeyIds) : requireReadableKey keyId binding = .ok () := by
  have valid := binding.valid keyId (List.mem_cons_of_mem _ readable)
  rw [requireReadableKey, if_neg (not_not.mpr valid), if_pos readable]

theorem requireReadableKey_unreadable {binding : KeyBinding} {keyId : String}
    (valid : ValidKeyId keyId) (unreadable : keyId ∉ binding.readableKeyIds) :
    requireReadableKey keyId binding =
      .error (.protection "Payload decryption key is not available") := by
  rw [requireReadableKey, if_neg (not_not.mpr valid), if_neg unreadable]

theorem readable_of_requireReadableKey {binding : KeyBinding} {keyId : String}
    (h : requireReadableKey keyId binding = .ok ()) : keyId ∈ binding.readableKeyIds := by
  rw [requireReadableKey] at h
  split at h
  · cases h
  · split at h
    · assumption
    · cases h

/-- A ciphertext was made of a plaintext under a readable key, and in no other way. -/
structure KeyBinding.Authentic (binding : KeyBinding) (keyId : String)
    (associated plaintext ciphertext : List Byte) : Prop where
  readable : keyId ∈ binding.readableKeyIds
  made : ∃ draw, binding.cipher.encryptAuthenticated draw plaintext keyId associated =
    some ciphertext
  only : ∀ draw otherPlaintext otherKey otherData,
    binding.cipher.encryptAuthenticated draw otherPlaintext otherKey otherData = some ciphertext →
      otherKey = keyId ∧ otherData = associated ∧ otherPlaintext = plaintext

theorem KeyBinding.authentic_of_decrypt {binding : KeyBinding} {keyId : String}
    {associated plaintext ciphertext : List Byte} (readable : keyId ∈ binding.readableKeyIds)
    (decrypted : binding.decrypt ciphertext keyId associated = some plaintext) :
    binding.Authentic keyId associated plaintext ciphertext := by
  obtain ⟨-, decrypted⟩ := KeyBinding.decrypt_eq_some.mp decrypted
  refine ⟨readable, binding.cipher.made _ _ _ _ decrypted, ?_⟩
  intro draw otherPlaintext otherKey otherData made
  have reads : binding.cipher.decryptAuthenticated ciphertext keyId associated ≠ none := by
    rw [decrypted]
    exact Option.some_ne_none _
  obtain ⟨rfl, rfl⟩ := binding.cipher.bound _ _ _ _ _ _ _ made reads
  have again := binding.cipher.decrypts _ _ _ _ _ made
  rw [decrypted] at again
  exact ⟨rfl, rfl, (Option.some.inj again).symm⟩

/-- A cipher for one key and one purpose, which puts a mark before the plaintext. -/
def markingCipher (keyId : String) (associated : List Byte) : AuthenticatedPayloadCipher where
  encryptAuthenticated _ plaintext key data :=
    if key = keyId ∧ data = associated then some (0 :: plaintext) else none
  decryptAuthenticated ciphertext key data :=
    if (key = keyId ∧ data = associated) ∧ ciphertext.head? = some 0 then some ciphertext.tail
    else none
  decrypts draw plaintext key data ciphertext made := by
    split_ifs at made with purpose
    obtain rfl := Option.some.inj made
    exact if_pos ⟨purpose, rfl⟩
  made ciphertext key data plaintext decrypted := by
    split_ifs at decrypted with marked
    obtain ⟨purpose, mark⟩ := marked
    obtain rfl := Option.some.inj decrypted
    refine ⟨0, ?_⟩
    rw [if_pos purpose, List.eq_cons_of_mem_head? mark]
    rfl
  bound draw plaintext key data ciphertext otherKey otherData made reads := by
    split_ifs at made with purpose
    split_ifs at reads with other
    · obtain ⟨rfl, rfl⟩ := purpose
      exact other.1
    · exact absurd rfl reads

theorem markingCipher_encrypt (keyId : String) (associated : List Byte) (draw : Nat)
    (plaintext : List Byte) :
    (markingCipher keyId associated).encryptAuthenticated draw plaintext keyId associated =
      some (0 :: plaintext) := by
  simp [markingCipher]

theorem valid_main : ∀ keyId ∈ ["main", "main"], ValidKeyId keyId := by
  decide

theorem valid_next : ∀ keyId ∈ ["next", "next", "main"], ValidKeyId keyId := by
  decide

/-- A binding before its key is rotated, and one after. -/
def mainBinding (associated : List Byte) : KeyBinding where
  cipher := markingCipher "main" associated
  activeKeyId := "main"
  readableKeyIds := ["main"]
  valid := valid_main
  readable := List.mem_cons_self

def rotatedBinding (associated : List Byte) : KeyBinding where
  cipher := markingCipher "main" associated
  activeKeyId := "next"
  readableKeyIds := ["next", "main"]
  valid := valid_next
  readable := List.mem_cons_self

abbrev temporalMain : KeyBinding :=
  mainBinding (temporalAssociatedData "main")

abbrev archiveMain : KeyBinding :=
  mainBinding (archiveAssociatedData "main")

/-- A host that takes bytes for UTF-8. -/
def utf8Host : JsonHost where
  toFloatReader := halfReader
  decodeText := decodeUtf8
  decodesUtf8 text _ _ _ := decodeUtf8_utf8Bytes text

/-! ## Associated data -/

theorem legible_temporal (floats : FloatReader) (keyId : String) :
    Legible floats.read (.obj [("format", .str temporalPayloadFormat),
      ("format_version", .int codecFormatVersion), ("key_id", .str keyId)]) :=
  ⟨show ["format", "format_version", "key_id"].Nodup by decide, trivial,
    show ShortInteger 2 by decide, trivial, trivial⟩

theorem legible_archive (floats : FloatReader) (keyId : String) :
    Legible floats.read (.obj [("format", .str archiveFormat),
      ("format_version", .int codecFormatVersion),
      ("serialization_version", .int strictJsonVersion), ("key_id", .str keyId)]) :=
  ⟨show ["format", "format_version", "serialization_version", "key_id"].Nodup by decide, trivial,
    show ShortInteger 2 by decide, show ShortInteger 1 by decide, trivial, trivial⟩

theorem length_of_wire_eq {fields others : JsonObject}
    (same : wire (.obj fields) = wire (.obj others)) : fields.length = others.length := by
  rw [wire_obj, wire_obj] at same
  have length := congrArg List.length (JsonValue.obj.inj same)
  rwa [sortKeys, sortKeys, List.length_insertionSort, List.length_insertionSort, List.length_map,
    List.length_map] at length

/-- The two formats never have the same associated data. -/
theorem temporal_ne_archive (keyId other : String) :
    temporalAssociatedData keyId ≠ archiveAssociatedData other := by
  intro same
  have texts := utf8Bytes_injective same
  have first := legible_temporal halfReader keyId
  have second := legible_archive halfReader other
  have image := image_eq_of_dumps_eq .canonical first second (by
    rw [dumpsStrictJson, dumpsStrictJson, if_pos (shortIntegers_of_legible first),
      if_pos (shortIntegers_of_legible second), texts])
  have length := length_of_wire_eq image
  cases length

/-! ## Payloads are read back -/

/-- The payload of a ciphertext under a key. -/
def sealedPayload (keyId : String) (ciphertext : List Byte) : TemporalPayload where
  metadata := [(encodingMetadataKey, utf8Bytes codecEncoding),
    (keyIdMetadataKey, utf8Bytes keyId),
    (codecVersionMetadataKey, utf8Bytes (toString codecFormatVersion))]
  data := ciphertext

theorem encodePayload_ok {format : PayloadFormat} {binding : KeyBinding} {draw : Nat}
    {payload encoded : TemporalPayload}
    (h : encodePayload format binding draw payload = .ok encoded) :
    ∃ ciphertext, encoded = sealedPayload binding.activeKeyId ciphertext ∧
      binding.cipher.encryptAuthenticated draw (format.serializeToString payload)
        binding.activeKeyId (temporalAssociatedData binding.activeKeyId) = some ciphertext := by
  obtain ⟨ciphertext, made, h⟩ := Program.exists_of_bind_eq_ok h
  obtain ⟨-, made⟩ := KeyBinding.encrypt_eq_ok.mp made
  obtain rfl := Except.ok.inj h
  exact ⟨ciphertext, rfl, made⟩

theorem metadataKeyId_sealed {keyId : String} (valid : ValidKeyId keyId)
    (ciphertext : List Byte) : metadataKeyId (sealedPayload keyId ciphertext) = .ok keyId := by
  have named : (sealedPayload keyId ciphertext).metadata.lookup keyIdMetadataKey =
      some (utf8Bytes keyId) := by
    simp [sealedPayload, List.lookup_cons, encodingMetadataKey, keyIdMetadataKey]
  rw [metadataKeyId, named]
  dsimp only
  rw [decodeUtf8_utf8Bytes]
  dsimp only
  rw [if_pos valid]

theorem sealed_versions (keyId : String) (ciphertext : List Byte) :
    (sealedPayload keyId ciphertext).metadata.lookup encodingMetadataKey =
        some (utf8Bytes codecEncoding) ∧
      (sealedPayload keyId ciphertext).metadata.lookup codecVersionMetadataKey =
        some (utf8Bytes (toString codecFormatVersion)) := by
  constructor
  · simp [sealedPayload]
  · simp [sealedPayload, List.lookup_cons, encodingMetadataKey, keyIdMetadataKey,
      codecVersionMetadataKey]

theorem decodePayload_sealed {format : PayloadFormat} {later : KeyBinding} {keyId : String}
    (readable : keyId ∈ later.readableKeyIds) (ciphertext : List Byte) :
    decodePayload format later (sealedPayload keyId ciphertext) =
      (openPayload format later keyId ciphertext).elim
        (.error (.protection "Temporal payload decryption failed")) .ok := by
  have valid := later.valid keyId (List.mem_cons_of_mem _ readable)
  obtain ⟨encoding, version⟩ := sealed_versions keyId ciphertext
  rw [decodePayload, if_neg (not_not.mpr encoding), if_neg (not_not.mpr version),
    metadataKeyId_sealed valid, Program.ok_bind, requireReadableKey_readable readable,
    Program.ok_bind, sealedPayload]
  cases openPayload format later keyId ciphertext with
  | none => rfl
  | some payload => rfl

theorem decodePayload_sealed_unreadable {format : PayloadFormat} {later : KeyBinding}
    {keyId : String} (valid : ValidKeyId keyId) (unreadable : keyId ∉ later.readableKeyIds)
    (ciphertext : List Byte) :
    decodePayload format later (sealedPayload keyId ciphertext) =
      .error (.protection "Payload decryption key is not available") := by
  obtain ⟨encoding, version⟩ := sealed_versions keyId ciphertext
  rw [decodePayload, if_neg (not_not.mpr encoding), if_neg (not_not.mpr version),
    metadataKeyId_sealed valid, Program.ok_bind, requireReadableKey_unreadable valid unreadable]
  rfl

/-- A payload is read back under any later binding of the cipher that still reads its key, unless
its message is empty: the reader takes no plaintext for a failure. -/
theorem decode_encodePayload {format : PayloadFormat} {binding later : KeyBinding} {draw : Nat}
    {payload encoded : TemporalPayload}
    (parses : format.fromString (format.serializeToString payload) = some payload)
    (same : later.cipher = binding.cipher)
    (h : encodePayload format binding draw payload = .ok encoded) :
    decodePayload format later encoded =
      if binding.activeKeyId ∉ later.readableKeyIds then
        .error (.protection "Payload decryption key is not available")
      else if format.serializeToString payload = [] then
        .error (.protection "Temporal payload decryption failed")
      else .ok payload := by
  obtain ⟨ciphertext, rfl, made⟩ := encodePayload_ok h
  have decrypts := binding.cipher.decrypts _ _ _ _ _ made
  by_cases readable : binding.activeKeyId ∈ later.readableKeyIds
  · rw [if_neg (not_not.mpr readable)]
    by_cases empty : format.serializeToString payload = []
    · have closed : openPayload format later binding.activeKeyId ciphertext = none := by
        rw [openPayload, KeyBinding.decrypt, same, decrypts, empty]
        rfl
      rw [if_pos empty, decodePayload_sealed readable, closed]
      rfl
    · have decrypted := KeyBinding.decrypt_eq_some.mpr ⟨empty, same ▸ decrypts⟩
      have opened : openPayload format later binding.activeKeyId ciphertext = some payload := by
        rw [openPayload, decrypted]
        exact parses
      rw [if_neg empty, decodePayload_sealed readable, opened]
      rfl
  · rw [if_pos readable]
    exact decodePayload_sealed_unreadable (binding.valid _ List.mem_cons_self) readable ciphertext

/-- Messages that have nothing but a few bytes of data. -/
def shortMessages : PayloadFormat where
  serializeToString payload := 18 :: Base64.byte payload.data.length :: payload.data
  fromString bytes := some ⟨[], bytes.drop 2⟩

def greeting : TemporalPayload := ⟨[], [104, 105]⟩

theorem encode_greeting :
    encodePayload shortMessages temporalMain 0 greeting =
      .ok (sealedPayload "main" (0 :: shortMessages.serializeToString greeting)) := by
  have made := markingCipher_encrypt "main" (temporalAssociatedData "main") 0
    (shortMessages.serializeToString greeting)
  rw [encodePayload, KeyBinding.encrypt_eq_ok.mpr ⟨List.cons_ne_nil _ _, made⟩]
  rfl

theorem decode_encodePayload_rotated : ∃ encoded,
    encodePayload shortMessages temporalMain 0 greeting = .ok encoded ∧
      decodePayload shortMessages (rotatedBinding (temporalAssociatedData "main")) encoded =
        .ok greeting := by
  have parses : shortMessages.fromString (shortMessages.serializeToString greeting) =
      some greeting := rfl
  have same : (rotatedBinding (temporalAssociatedData "main")).cipher = temporalMain.cipher := rfl
  have read := decode_encodePayload parses same encode_greeting
  have readable : "main" ∈ ["next", "main"] := by decide
  exact ⟨_, encode_greeting, read.trans
    ((if_neg (not_not.mpr readable)).trans (if_neg (List.cons_ne_nil _ _)))⟩

/-! ## Records are read back -/

/-- The standard digit of a URL-safe one. -/
def standardDigit (c : Char) : Char :=
  if c = '-' then '+' else if c = '_' then '/' else c

theorem standardDigit_spec (c : Char) :
    Base64.digitValue (standardDigit c) = Base64.digitValue c ∧ (standardDigit c = '=' ↔ c = '=') ∧
      standardDigit c ≠ '-' ∧ standardDigit c ≠ '_' := by
  unfold standardDigit
  split_ifs with dash underscore
  · subst dash
    decide
  · subst underscore
    decide
  · exact ⟨rfl, Iff.rfl, dash, underscore⟩

theorem b64decode_b64encode (bytes : List Byte) : b64decode (b64encode bytes) = some bytes := by
  have digits : (b64encode bytes).toList = (Base64.encode bytes).map standardDigit :=
    String.toList_ofList
  have standard : ¬ ((Base64.encode bytes).map standardDigit).any fun c => c = '-' || c = '_' := by
    simp [standardDigit_spec]
  rw [b64decode, digits, if_neg standard, Base64.decode_map (fun c => (standardDigit_spec c).1)
    fun c => (standardDigit_spec c).2.1]
  exact Base64.decode_encode bytes

/-- Bytes of a text that begins as an object does. -/
theorem loads_utf8Bytes (host : JsonHost) {text : String} {c : Char}
    (starts : text.toList.take 2 = ['\x7b', c]) (visible : c ≠ '\x00') :
    host.loads (utf8Bytes text) = loadsStrictJson host.toFloatReader text := by
  rw [JsonHost.loads, host.decodesUtf8 text c starts visible]
  rfl

theorem canonical_starts (fields : JsonObject) : ∃ c,
    (StrictJsonLayout.canonical.text (.obj fields)).toList.take 2 = ['\x7b', c] ∧
      c ≠ '\x00' := by
  rw [StrictJsonLayout.text, wire_obj, JsonValue.text]
  cases sortKeys (fields.map fun e => (e.1, wire e.2)) with
  | nil => exact ⟨'\x7d', by simp [textFields], by decide⟩
  | cons e others =>
      obtain ⟨k, v⟩ := e
      cases others with
      | nil => exact ⟨'"', by simp [textFields, quote], by decide⟩
      | cons f others => exact ⟨'"', by simp [textFields, quote], by decide⟩

theorem envelope_starts (keyId : String) (ciphertext : List Byte) :
    (StrictJsonLayout.pretty.text (.obj (archiveEnvelope keyId ciphertext))).toList.take 2 =
      ['\x7b', '\n'] := by
  simp [StrictJsonLayout.text, JsonValue.pretty, archiveEnvelope, prettyFields, newline]

theorem legible_envelope (floats : FloatReader) (keyId : String) (ciphertext : List Byte) :
    Legible floats.read (.obj (archiveEnvelope keyId ciphertext)) :=
  ⟨show archiveEnvelopeFields.Nodup by decide, trivial, show ShortInteger 2 by decide,
    show ShortInteger 1 by decide, trivial, trivial, trivial⟩

theorem readArchiveEnvelope_archiveEnvelope (keyId : String) (ciphertext : List Byte) :
    readArchiveEnvelope (.obj (archiveEnvelope keyId ciphertext)) =
      .ok (keyId, b64encode ciphertext) := by
  have shape : (∀ key ∈ keys (archiveEnvelope keyId ciphertext), key ∈ archiveEnvelopeFields) ∧
      ∀ key ∈ archiveEnvelopeFields, key ∈ keys (archiveEnvelope keyId ciphertext) :=
    ⟨fun key member => member, fun key member => member⟩
  have versions : pyEq (((archiveEnvelope keyId ciphertext).lookup "format").getD .null)
        (.str archiveFormat) ∧
      pyEq (((archiveEnvelope keyId ciphertext).lookup "format_version").getD .null)
        (.int codecFormatVersion) ∧
      pyEq (((archiveEnvelope keyId ciphertext).lookup "serialization_version").getD .null)
        (.int strictJsonVersion) := by
    simp [archiveEnvelope, List.lookup_cons, pyEq]
  rw [readArchiveEnvelope, if_neg (not_not.mpr shape), if_neg (not_not.mpr versions)]
  simp [archiveEnvelope, List.lookup_cons]

theorem strictJson_ok {layout : StrictJsonLayout} {value : JsonValue} {text : String}
    (h : strictJson layout value = .ok text) : text = layout.text value := by
  rw [strictJson, dumpsStrictJson] at h
  split at h
  · next written =>
      split at written
      · rw [← Except.ok.inj h, ← Option.some.inj written]
      · cases written
  · cases h

theorem protectArchiveRecord_ok {binding : KeyBinding} {draw : Nat} {record : JsonObject}
    {serialized : String} (h : protectArchiveRecord binding draw record = .ok serialized) :
    ∃ ciphertext, ciphertext ≠ [] ∧
      serialized = StrictJsonLayout.pretty.text
        (.obj (archiveEnvelope binding.activeKeyId ciphertext)) ∧
      binding.cipher.encryptAuthenticated draw
        (utf8Bytes (StrictJsonLayout.canonical.text (.obj record))) binding.activeKeyId
        (archiveAssociatedData binding.activeKeyId) = some ciphertext := by
  obtain ⟨plaintext, written, h⟩ := Program.exists_of_bind_eq_ok h
  obtain ⟨ciphertext, made, h⟩ := Program.exists_of_bind_eq_ok h
  obtain ⟨nonempty, made⟩ := KeyBinding.encrypt_eq_ok.mp made
  rw [strictJson_ok written] at made
  exact ⟨ciphertext, nonempty, strictJson_ok h, made⟩

/-- The text is the one that is measured on the way to the archive. -/
theorem protectArchiveRecord_eq_encode {binding : KeyBinding} {draw : Nat} {record : JsonObject}
    {serialized : String} {measured : PayloadProtectionBinding}
    (key : measured.activeKeyId = binding.activeKeyId)
    (cipher : ∀ plaintext, binding.cipher.encryptAuthenticated draw plaintext binding.activeKeyId
      (archiveAssociatedData binding.activeKeyId) = some (measured.encrypt plaintext))
    (h : protectArchiveRecord binding draw record = .ok serialized) :
    serialized = encodeArchiveRecord (.obj record) measured := by
  obtain ⟨ciphertext, -, rfl, made⟩ := protectArchiveRecord_ok h
  rw [cipher] at made
  obtain rfl := Option.some.inj made
  rw [encodeArchiveRecord, key]
  rfl

theorem utf8Bytes_ne_nil {text : String} {c d : Char} (starts : text.toList.take 2 = [c, d]) :
    utf8Bytes text ≠ [] := by
  intro empty
  have : text = "" := utf8Bytes_injective empty
  rw [this] at starts
  cases starts

theorem loads_canonical (host : JsonHost) {record : JsonObject}
    (legible : Legible host.read (.obj record)) :
    host.loads (utf8Bytes (StrictJsonLayout.canonical.text (.obj record))) =
      some (wire (.obj record)) := by
  obtain ⟨c, starts, visible⟩ := canonical_starts record
  obtain ⟨text, written, read⟩ := reads_back .canonical legible
  rw [dumpsStrictJson, if_pos (shortIntegers_of_legible legible)] at written
  rw [loads_utf8Bytes host starts visible, Option.some.inj written]
  exact read

theorem loads_envelope (host : JsonHost) (keyId : String) (ciphertext : List Byte) :
    host.loads (utf8Bytes (StrictJsonLayout.pretty.text
        (.obj (archiveEnvelope keyId ciphertext)))) =
      some (.obj (archiveEnvelope keyId ciphertext)) := by
  have legible := legible_envelope host.toFloatReader keyId ciphertext
  obtain ⟨text, written, read⟩ := reads_back .pretty legible
  rw [dumpsStrictJson, if_pos (shortIntegers_of_legible legible)] at written
  rw [loads_utf8Bytes host (envelope_starts keyId ciphertext) (by decide), Option.some.inj written]
  exact read

/-- The record is read from its envelope. -/
theorem openEnvelope_made {host : JsonHost} {binding later : KeyBinding} {draw : Nat}
    {record : JsonObject} {ciphertext : List Byte} (same : later.cipher = binding.cipher)
    (legible : Legible host.read (.obj record)) (nonempty : ciphertext ≠ [])
    (made : binding.cipher.encryptAuthenticated draw
      (utf8Bytes (StrictJsonLayout.canonical.text (.obj record))) binding.activeKeyId
      (archiveAssociatedData binding.activeKeyId) = some ciphertext) :
    (openEnvelope host later (.obj (archiveEnvelope binding.activeKeyId ciphertext))).map
        JsonValue.obj =
      if binding.activeKeyId ∈ later.readableKeyIds then .ok (wire (.obj record))
      else .error (.protection "Payload decryption key is not available") := by
  have valid := binding.valid _ List.mem_cons_self
  rw [openEnvelope, readArchiveEnvelope_archiveEnvelope, Program.ok_bind]
  dsimp only
  by_cases readable : binding.activeKeyId ∈ later.readableKeyIds
  · obtain ⟨c, starts, -⟩ := canonical_starts record
    have decrypted := KeyBinding.decrypt_eq_some.mpr
      ⟨utf8Bytes_ne_nil starts, same ▸ binding.cipher.decrypts _ _ _ _ _ made⟩
    have opened : openArchive host later binding.activeKeyId (b64encode ciphertext) =
        some (wire (.obj record)) := by
      rw [openArchive, b64decode_b64encode, Option.filter_some, if_pos (decide_eq_true nonempty),
        Option.bind_eq_bind, Option.bind_some, decrypted]
      exact loads_canonical host legible
    rw [requireReadableKey_readable readable, Program.ok_bind, opened, if_pos readable, wire_obj]
    rfl
  · rw [requireReadableKey_unreadable valid readable, if_neg readable]
    rfl

theorem decodeArchiveRecord_envelope {host : JsonHost} {later : KeyBinding} {keyId : String}
    {ciphertext : List Byte} {maxEnvelopeBytes : Nat}
    (fits : (utf8Bytes (StrictJsonLayout.pretty.text
      (.obj (archiveEnvelope keyId ciphertext)))).length ≤ maxEnvelopeBytes) :
    decodeArchiveRecord host later (utf8Bytes (StrictJsonLayout.pretty.text
        (.obj (archiveEnvelope keyId ciphertext)))) maxEnvelopeBytes =
      openEnvelope host later (.obj (archiveEnvelope keyId ciphertext)) := by
  have positive := List.length_pos_iff.mpr (utf8Bytes_ne_nil (envelope_starts keyId ciphertext))
  rw [decodeArchiveRecord, if_neg (by omega), if_neg (by omega), loads_envelope]

/-- A record is read back under every binding of the cipher that still reads its key, and under no
other. -/
theorem decode_protectArchiveRecord {host : JsonHost} {binding later : KeyBinding} {draw : Nat}
    {record : JsonObject} {serialized : String} {maxEnvelopeBytes : Nat}
    (same : later.cipher = binding.cipher) (legible : Legible host.read (.obj record))
    (h : protectArchiveRecord binding draw record = .ok serialized)
    (fits : (utf8Bytes serialized).length ≤ maxEnvelopeBytes) :
    (decodeArchiveRecord host later (utf8Bytes serialized) maxEnvelopeBytes).map JsonValue.obj =
      if binding.activeKeyId ∈ later.readableKeyIds then .ok (wire (.obj record))
      else .error (.protection "Payload decryption key is not available") := by
  obtain ⟨ciphertext, nonempty, rfl, made⟩ := protectArchiveRecord_ok h
  rw [decodeArchiveRecord_envelope fits]
  exact openEnvelope_made same legible nonempty made

/-- A record of a completed run. -/
def completedRecord : JsonObject :=
  [("workflow", .str "invoices"), ("status", .str "completed")]

theorem legible_completedRecord : Legible utf8Host.read (.obj completedRecord) :=
  ⟨by decide, trivial, trivial, trivial⟩

theorem protect_completedRecord : ∃ serialized,
    protectArchiveRecord archiveMain 0 completedRecord = .ok serialized := by
  have written : strictJson .canonical (.obj completedRecord) =
      .ok (StrictJsonLayout.canonical.text (.obj completedRecord)) := rfl
  have made := markingCipher_encrypt "main" (archiveAssociatedData "main") 0
    (utf8Bytes (StrictJsonLayout.canonical.text (.obj completedRecord)))
  rw [protectArchiveRecord, written, Program.ok_bind,
    KeyBinding.encrypt_eq_ok.mpr ⟨List.cons_ne_nil _ _, made⟩, Program.ok_bind]
  exact ⟨_, rfl⟩

theorem decode_protectArchiveRecord_rotated : ∃ serialized,
    protectArchiveRecord archiveMain 0 completedRecord = .ok serialized ∧
      (decodeArchiveRecord utf8Host (rotatedBinding (archiveAssociatedData "main"))
        (utf8Bytes serialized) (utf8Bytes serialized).length).map JsonValue.obj =
          .ok (wire (.obj completedRecord)) := by
  obtain ⟨serialized, h⟩ := protect_completedRecord
  have same : (rotatedBinding (archiveAssociatedData "main")).cipher = archiveMain.cipher := rfl
  have read := decode_protectArchiveRecord same legible_completedRecord h (Nat.le_refl _)
  have readable : "main" ∈ ["next", "main"] := by decide
  exact ⟨serialized, h, read.trans (if_pos readable)⟩

/-! ## What is read was made -/

theorem metadataKeyId_ok {payload : TemporalPayload} {keyId : String}
    (h : metadataKeyId payload = .ok keyId) :
    (payload.metadata.lookup keyIdMetadataKey).bind decodeUtf8 = some keyId := by
  rw [metadataKeyId] at h
  split at h
  · cases h
  · next bytes found =>
      split at h
      · cases h
      · next name decoded =>
          split at h
          · rw [found, Option.bind_some, decoded, Except.ok.inj h]
          · cases h

/-- What is taken for a payload was encrypted as one, under the readable key that it names, and as
nothing else: no record of the archive is among it. -/
theorem decodePayload_authentic {format : PayloadFormat} {binding : KeyBinding}
    {encoded payload : TemporalPayload} (h : decodePayload format binding encoded = .ok payload) :
    ∃ keyId plaintext, (encoded.metadata.lookup keyIdMetadataKey).bind decodeUtf8 = some keyId ∧
      format.fromString plaintext = some payload ∧
      binding.Authentic keyId (temporalAssociatedData keyId) plaintext encoded.data ∧
      ∀ draw other otherKey, binding.cipher.encryptAuthenticated draw other otherKey
        (archiveAssociatedData otherKey) ≠ some encoded.data := by
  rw [decodePayload] at h
  split at h
  · cases h
  · split at h
    · cases h
    · obtain ⟨keyId, named, h⟩ := Program.exists_of_bind_eq_ok h
      obtain ⟨⟨⟩, readable, h⟩ := Program.exists_of_bind_eq_ok h
      split at h
      · next decoded opened =>
          obtain rfl := Except.ok.inj h
          obtain ⟨plaintext, decrypted, parsed⟩ := Option.bind_eq_some_iff.mp opened
          have authentic := KeyBinding.authentic_of_decrypt
            (readable_of_requireReadableKey readable) decrypted
          refine ⟨keyId, plaintext, metadataKeyId_ok named, parsed, authentic, ?_⟩
          intro draw other otherKey made
          exact temporal_ne_archive keyId otherKey (authentic.only _ _ _ _ made).2.1.symm
      · cases h

theorem decode_greeting :
    decodePayload shortMessages temporalMain
      (sealedPayload "main" (0 :: shortMessages.serializeToString greeting)) = .ok greeting := by
  have made := markingCipher_encrypt "main" (temporalAssociatedData "main") 0
    (shortMessages.serializeToString greeting)
  have decrypted := temporalMain.cipher.decrypts _ _ _ _ _ made
  have opened : openPayload shortMessages temporalMain "main"
      (0 :: shortMessages.serializeToString greeting) = some greeting := by
    rw [openPayload, KeyBinding.decrypt_eq_some.mpr ⟨List.cons_ne_nil _ _, decrypted⟩]
    rfl
  rw [decodePayload_sealed List.mem_cons_self, opened]
  rfl

theorem decodePayload_authentic_greeting : ∃ keyId plaintext,
    ((sealedPayload "main" (0 :: shortMessages.serializeToString greeting)).metadata.lookup
        keyIdMetadataKey).bind decodeUtf8 = some keyId ∧
      shortMessages.fromString plaintext = some greeting ∧
      temporalMain.Authentic keyId (temporalAssociatedData keyId)
        plaintext (0 :: shortMessages.serializeToString greeting) ∧
      ∀ draw other otherKey, temporalMain.cipher.encryptAuthenticated
        draw other otherKey (archiveAssociatedData otherKey) ≠
          some (0 :: shortMessages.serializeToString greeting) :=
  decodePayload_authentic decode_greeting

theorem readArchiveEnvelope_ok {envelope : JsonValue} {keyId text : String}
    (h : readArchiveEnvelope envelope = .ok (keyId, text)) :
    ∃ fields, envelope = .obj fields ∧ fields.lookup "key_id" = some (.str keyId) ∧
      fields.lookup "ciphertext" = some (.str text) := by
  cases envelope with
  | obj fields =>
      rw [readArchiveEnvelope] at h
      split at h
      · cases h
      · split at h
        · cases h
        · split at h
          · next key ciphertext named found =>
              obtain ⟨rfl, rfl⟩ := Prod.mk.inj (Except.ok.inj h)
              exact ⟨fields, rfl, named, found⟩
          · cases h
  | null | bool | int | float | str | arr => cases h

theorem openEnvelope_ok {host : JsonHost} {binding : KeyBinding} {envelope : JsonValue}
    {record : JsonObject} (h : openEnvelope host binding envelope = .ok record) :
    ∃ keyId text, readArchiveEnvelope envelope = .ok (keyId, text) ∧
      keyId ∈ binding.readableKeyIds ∧
      openArchive host binding keyId text = some (.obj record) := by
  obtain ⟨⟨keyId, text⟩, shaped, h⟩ := Program.exists_of_bind_eq_ok h
  obtain ⟨⟨⟩, readable, h⟩ := Program.exists_of_bind_eq_ok h
  refine ⟨keyId, text, shaped, readable_of_requireReadableKey readable, ?_⟩
  cases opened : openArchive host binding keyId text with
  | none =>
      rw [opened] at h
      cases h
  | some value =>
      rw [opened] at h
      cases value with
      | obj fields => rw [Except.ok.inj h]
      | null | bool | int | float | str | arr => cases h

/-- What is taken for a record of the archive was encrypted as one, under the readable key that the
envelope names, and as nothing else: no payload of Temporal is among it. -/
theorem decodeArchiveRecord_authentic {host : JsonHost} {binding : KeyBinding}
    {serialized : List Byte} {maxEnvelopeBytes : Nat} {record : JsonObject}
    (h : decodeArchiveRecord host binding serialized maxEnvelopeBytes = .ok record) :
    serialized.length ≤ maxEnvelopeBytes ∧ ∃ fields keyId text ciphertext plaintext,
      host.loads serialized = some (.obj fields) ∧
      fields.lookup "key_id" = some (.str keyId) ∧
      fields.lookup "ciphertext" = some (.str text) ∧ b64decode text = some ciphertext ∧
      host.loads plaintext = some (.obj record) ∧
      binding.Authentic keyId (archiveAssociatedData keyId) plaintext ciphertext ∧
      ∀ draw other otherKey, binding.cipher.encryptAuthenticated draw other otherKey
        (temporalAssociatedData otherKey) ≠ some ciphertext := by
  rw [decodeArchiveRecord] at h
  split at h
  · cases h
  · split at h
    · cases h
    · next fits =>
        split at h
        · cases h
        · next envelope read =>
            obtain ⟨keyId, text, shaped, readable, opened⟩ := openEnvelope_ok h
            obtain ⟨fields, rfl, named, found⟩ := readArchiveEnvelope_ok shaped
            obtain ⟨ciphertext, decoded, opened⟩ := Option.bind_eq_some_iff.mp opened
            obtain ⟨decoded, -⟩ := Option.filter_eq_some_iff.mp decoded
            obtain ⟨plaintext, decrypted, loaded⟩ := Option.bind_eq_some_iff.mp opened
            have authentic := KeyBinding.authentic_of_decrypt readable decrypted
            refine ⟨by omega, fields, keyId, text, ciphertext, plaintext, read, named, found,
              decoded, loaded, authentic, ?_⟩
            intro draw other otherKey made
            exact temporal_ne_archive otherKey keyId (authentic.only _ _ _ _ made).2.1

theorem ok_of_map_eq_ok {ε α β : Type} {x : Except ε α} {f : α → β} {b : β}
    (h : x.map f = .ok b) : ∃ a, x = .ok a := by
  cases x with
  | error e => cases h
  | ok a => exact ⟨a, rfl⟩

theorem decode_completedRecord : ∃ serialized record,
    decodeArchiveRecord utf8Host archiveMain
      (utf8Bytes serialized) (utf8Bytes serialized).length = .ok record := by
  have made := markingCipher_encrypt "main" (archiveAssociatedData "main") 0
    (utf8Bytes (StrictJsonLayout.canonical.text (.obj completedRecord)))
  have same : archiveMain.cipher = archiveMain.cipher := rfl
  have opened := (openEnvelope_made same legible_completedRecord (List.cons_ne_nil _ _) made).trans
    (if_pos List.mem_cons_self)
  obtain ⟨record, result⟩ := ok_of_map_eq_ok opened
  exact ⟨_, record, (decodeArchiveRecord_envelope (Nat.le_refl _)).trans result⟩

theorem decodeArchiveRecord_authentic_completed : ∃ serialized record,
    serialized.length ≤ serialized.length ∧ ∃ fields keyId text ciphertext plaintext,
      utf8Host.loads serialized = some (.obj fields) ∧
      fields.lookup "key_id" = some (.str keyId) ∧
      fields.lookup "ciphertext" = some (.str text) ∧ b64decode text = some ciphertext ∧
      utf8Host.loads plaintext = some (.obj record) ∧
      archiveMain.Authentic keyId (archiveAssociatedData keyId)
        plaintext ciphertext ∧
      ∀ draw other otherKey,
        archiveMain.cipher.encryptAuthenticated draw other otherKey
          (temporalAssociatedData otherKey) ≠ some ciphertext := by
  obtain ⟨serialized, record, h⟩ := decode_completedRecord
  exact ⟨utf8Bytes serialized, record, decodeArchiveRecord_authentic h⟩

end Justflow
