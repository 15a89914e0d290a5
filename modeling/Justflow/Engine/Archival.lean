import Justflow.Engine.AuditCapture
import Justflow.Library.Base64Text
import Justflow.Library.Layout
import Justflow.Library.Programs

/-!
# Archiving a record

A record that a completed run hands to the archive is measured by the runner, then inside the
request for the activity, then by the activity, and last as the text that is written: indented for
readers, or an envelope around its ciphertext.  Each check has its own limit.  The sizes differ by
what is said here, so that a record passes all checks exactly if it leaves room for that.
-/

open Fields JsonValue

namespace Justflow

/-- The limits that an archived record meets. -/
structure ArchiveLimits extends RuntimeLimits where
  activityInputBytes : Nat := 512 * 1024
  activityInput : 0 < activityInputBytes := by decide

/-! ## The runner -/

def AuditCaptureError.exception : AuditCaptureError → EngineException
  | .pointer => .python "AuditCaptureError" AuditCaptureError.pointer.text
  | .tooLarge actual limit => .python "AuditCaptureLimitError" (tooLarge actual limit).text

/-- What the runner does with the record of a completed run before it archives it. -/
def admitArchive (limits : ArchiveLimits) (capture : AuditCaptureConfig) (audit : JsonObject) :
    Except EngineException JsonObject := do
  enforcePayloadBytes (.obj audit) "workflow.audit" limits.auditRecordBytes
  enforcePayloadBytes (.obj audit) "workflow.output" limits.workflowOutputBytes
  let captured ← (captureAuditRecord audit capture).mapError AuditCaptureError.exception
  enforcePayloadBytes (.obj captured) "workflow.archive" limits.auditRecordBytes
  return captured

/-! ## The request -/

structure ArchiveRequest where
  resource : String
  path : String
  retentionPolicy : String
  captureMode : String
  record : JsonValue

/-- `asdict(archive_request)`. -/
def ArchiveRequest.asdict (self : ArchiveRequest) : JsonValue :=
  .obj [("resource", .str self.resource), ("path", .str self.path),
    ("retention_policy", .str self.retentionPolicy), ("capture_mode", .str self.captureMode),
    ("record", self.record)]

/-! ## Payload protection -/

/-- The bytes of a text in UTF-8. -/
def utf8Bytes (s : String) : List Base64.Byte :=
  s.toByteArray.data.toList.map UInt8.toFin

/-- `base64.b64encode`, with the digits of the standard alphabet. -/
def b64encode (bytes : List Base64.Byte) : String :=
  String.ofList ((Base64.encode bytes).map fun c =>
    if c = '-' then '+' else if c = '_' then '/' else c)

/-- A cipher under the active key, which adds a bounded number of bytes. -/
structure PayloadProtectionBinding where
  activeKeyId : String
  encrypt : List Base64.Byte → List Base64.Byte
  overhead : Nat
  named : 1 ≤ activeKeyId.length ∧ activeKeyId.length ≤ 128
  bounded : ∀ plaintext, plaintext.length ≤ (encrypt plaintext).length ∧
    (encrypt plaintext).length ≤ plaintext.length + overhead

def archiveFormat : String := "justflow-encrypted-json"
def codecFormatVersion : Int := 2

/-- The ciphertext of a record. -/
def PayloadProtectionBinding.ciphertext (self : PayloadProtectionBinding) (record : JsonValue) :
    List Base64.Byte :=
  self.encrypt (utf8Bytes (text (wire record)))

/-- `encode_archive_record`. -/
def encodeArchiveRecord (record : JsonValue) (binding : PayloadProtectionBinding) : String :=
  pretty (.obj [("format", .str archiveFormat), ("format_version", .int codecFormatVersion),
    ("serialization_version", .int strictJsonVersion), ("key_id", .str binding.activeKeyId),
    ("ciphertext", .str (b64encode (binding.ciphertext record)))]) 0

/-! ## The checks -/

def enforceUtf8Bytes (value : String) (boundary : String) (limit : Nat) :
    Except EngineException Unit :=
  enforceLimit value.utf8ByteSize limit .payloadBytes boundary

/-- The text that is written to the archive. -/
def archiveData (protection : Option PayloadProtectionBinding) (record : JsonValue) : String :=
  match protection with
  | some binding => encodeArchiveRecord record binding
  | none => pretty record 0

/-- The checks from the request on, in `TemporalStepExecutor.archive` and `archive_workflow`; that
the resource is there and takes the text is left out. -/
def archiveRecord (limits : ArchiveLimits) (protection : Option PayloadProtectionBinding)
    (request : ArchiveRequest) : Except EngineException Unit := do
  enforcePayloadBytes request.asdict "activities.archive.input" limits.activityInputBytes
  enforcePayloadBytes request.record "activities.archive.record" limits.auditRecordBytes
  if request.captureMode = "approved-full" ∧ protection.isNone then
    throw (.python "ArchivalError" "Approved-full audit capture requires payload encryption")
  enforceUtf8Bytes (archiveData protection request.record) "activities.archive.output"
    limits.auditRecordBytes

/-! ## Sizes -/

/-- The bytes of a request beside its record. -/
def ArchiveRequest.overhead (self : ArchiveRequest) : Nat :=
  67 + (quote self.resource).utf8ByteSize + (quote self.path).utf8ByteSize +
    (quote self.retentionPolicy).utf8ByteSize + (quote self.captureMode).utf8ByteSize

/-- The bytes of the text that is written, for a record of a number of bytes. -/
def outputBytes (protection : Option PayloadProtectionBinding) (record : JsonValue) : Nat :=
  match protection with
  | some binding => 128 + (quote binding.activeKeyId).utf8ByteSize +
      4 * (((binding.ciphertext record).length + 2) / 3)
  | none => canonicalBytes record + layoutBytes record 0

theorem canonicalBytes_asdict (request : ArchiveRequest) :
    canonicalBytes request.asdict = request.overhead + canonicalBytes request.record := by
  have hkeys : (quote "resource").utf8ByteSize = 10 ∧ (quote "path").utf8ByteSize = 6 ∧
      (quote "retention_policy").utf8ByteSize = 18 ∧ (quote "capture_mode").utf8ByteSize = 14 ∧
      (quote "record").utf8ByteSize = 8 := by
    decide +kernel
  obtain ⟨hresource, hpath, hpolicy, hmode, hrecord⟩ := hkeys
  have hobj := canonicalBytes_obj (List.cons_ne_nil ("resource", JsonValue.str request.resource)
    [("path", .str request.path), ("retention_policy", .str request.retentionPolicy),
      ("capture_mode", .str request.captureMode), ("record", request.record)])
  simp only [List.map_cons, List.map_nil, List.sum_cons, List.sum_nil, hresource, hpath, hpolicy,
    hmode, hrecord, canonicalBytes_str] at hobj
  rw [ArchiveRequest.asdict, ArchiveRequest.overhead]
  omega

/-- The digits are written as they are. -/
theorem utf8ByteSize_quote_b64encode (bytes : List Base64.Byte) :
    (quote (b64encode bytes)).utf8ByteSize = 4 * ((bytes.length + 2) / 3) + 2 := by
  have hplain : JsonValue.plain (b64encode bytes) = true := by
    rw [JsonValue.plain, b64encode, String.toList_ofList, List.all_map, List.all_eq_true]
    intro c hc
    have here := Base64.plainChar_encode bytes c hc
    simp only [Function.comp_apply]
    split
    · decide
    · split
      · decide
      · exact here
  rw [utf8ByteSize_quote_plain hplain, b64encode, String.length_ofList, List.length_map,
    Base64.length_encode]

theorem utf8ByteSize_archiveData (protection : Option PayloadProtectionBinding)
    (record : JsonValue) :
    (archiveData protection record).utf8ByteSize = outputBytes protection record := by
  cases protection with
  | none => exact utf8ByteSize_pretty_eq record
  | some binding =>
      have hkeys : (quote "format").utf8ByteSize = 8 ∧ (quote "format_version").utf8ByteSize = 16 ∧
          (quote "serialization_version").utf8ByteSize = 23 ∧
          (quote "key_id").utf8ByteSize = 8 ∧ (quote "ciphertext").utf8ByteSize = 12 ∧
          (quote archiveFormat).utf8ByteSize = 25 ∧
          canonicalBytes (.int codecFormatVersion) = 1 ∧
          canonicalBytes (.int strictJsonVersion) = 1 := by
        decide +kernel
      obtain ⟨hformat, hversion, hserialization, hkey, hcipher, hvalue, hcodec, hstrict⟩ := hkeys
      have hobj := canonicalBytes_obj (List.cons_ne_nil ("format", JsonValue.str archiveFormat)
        [("format_version", .int codecFormatVersion),
          ("serialization_version", .int strictJsonVersion),
          ("key_id", .str binding.activeKeyId),
          ("ciphertext", .str (b64encode (binding.ciphertext record)))])
      simp only [List.map_cons, List.map_nil, List.sum_cons, List.sum_nil, hformat, hversion,
        hserialization, hkey, hcipher, hvalue, hcodec, hstrict, canonicalBytes_str,
        utf8ByteSize_quote_b64encode] at hobj
      have hlayout : layoutBytes (.obj [("format", .str archiveFormat),
          ("format_version", .int codecFormatVersion),
          ("serialization_version", .int strictJsonVersion),
          ("key_id", .str binding.activeKeyId),
          ("ciphertext", .str (b64encode (binding.ciphertext record)))]) 0 = 21 := rfl
      rw [archiveData, encodeArchiveRecord, utf8ByteSize_pretty_eq, hlayout, outputBytes]
      omega

/-- The plaintext is as long as the canonical text. -/
theorem length_ciphertext (binding : PayloadProtectionBinding) (record : JsonValue) :
    canonicalBytes record ≤ (binding.ciphertext record).length ∧
      (binding.ciphertext record).length ≤ canonicalBytes record + binding.overhead := by
  have hlength : (utf8Bytes (text (wire record))).length = canonicalBytes record := by
    rw [utf8Bytes, List.length_map, canonicalBytes]
    rfl
  have hbounded := binding.bounded (utf8Bytes (text (wire record)))
  rwa [hlength] at hbounded

/-! ## Acceptance -/

/-- What the runner hands on is within the limit of a record. -/
theorem admitArchive_ok {limits : ArchiveLimits} {capture : AuditCaptureConfig}
    {audit captured : JsonObject} (admitted : admitArchive limits capture audit = .ok captured) :
    canonicalBytes (.obj captured) ≤ limits.auditRecordBytes := by
  obtain ⟨_, _, rest⟩ := Program.exists_of_bind_eq_ok admitted
  obtain ⟨_, _, rest⟩ := Program.exists_of_bind_eq_ok rest
  obtain ⟨record, _, rest⟩ := Program.exists_of_bind_eq_ok rest
  obtain ⟨_, within, same⟩ := Program.exists_of_bind_eq_ok rest
  cases same
  exact enforceLimit_ok_iff.mp within

/-- No size check rejects the request. -/
def PassesSizeChecks (limits : ArchiveLimits) (protection : Option PayloadProtectionBinding)
    (request : ArchiveRequest) : Prop :=
  ∀ kind boundary actual limit, archiveRecord limits protection request ≠
    .error (.limitExceeded kind boundary actual limit)

theorem enforceLimit_of_lt {actual limit : Nat} {kind : LimitKind} {boundary : String}
    (h : limit < actual) :
    enforceLimit actual limit kind boundary = .error (.limitExceeded kind boundary actual limit) :=
  if_pos h

theorem passesSizeChecks_iff {limits : ArchiveLimits} {protection : Option PayloadProtectionBinding}
    {request : ArchiveRequest} (within : canonicalBytes request.record ≤ limits.auditRecordBytes) :
    PassesSizeChecks limits protection request ↔
      request.overhead + canonicalBytes request.record ≤ limits.activityInputBytes ∧
        ((request.captureMode = "approved-full" ∧ protection.isNone) ∨
          outputBytes protection request.record ≤ limits.auditRecordBytes) := by
  rw [PassesSizeChecks, ← canonicalBytes_asdict, ← utf8ByteSize_archiveData]
  have recorded : enforcePayloadBytes request.record "activities.archive.record"
      limits.auditRecordBytes = .ok () := enforceLimit_ok_iff.mpr within
  by_cases input : canonicalBytes request.asdict ≤ limits.activityInputBytes
  · have requested : enforcePayloadBytes request.asdict "activities.archive.input"
        limits.activityInputBytes = .ok () := enforceLimit_ok_iff.mpr input
    rw [archiveRecord, requested, recorded]
    simp only [input, true_and]
    by_cases unprotected : request.captureMode = "approved-full" ∧ protection.isNone
    · simp only [unprotected, and_self, if_true, true_or, iff_true]
      rintro kind boundary actual limit ⟨⟩
    · simp only [unprotected, if_false, false_or]
      by_cases output : (archiveData protection request.record).utf8ByteSize ≤
          limits.auditRecordBytes
      · have written : enforceUtf8Bytes (archiveData protection request.record)
            "activities.archive.output" limits.auditRecordBytes = .ok () :=
          enforceLimit_ok_iff.mpr output
        simp only [output, iff_true]
        intro kind boundary actual limit
        change enforceUtf8Bytes _ _ _ ≠ _
        rw [written]
        rintro ⟨⟩
      · have refused : enforceUtf8Bytes (archiveData protection request.record)
            "activities.archive.output" limits.auditRecordBytes = .error (.limitExceeded
              .payloadBytes "activities.archive.output" _ limits.auditRecordBytes) :=
          enforceLimit_of_lt (Nat.lt_of_not_le output)
        simp only [output, iff_false, not_forall, not_not]
        exact ⟨_, _, _, _, refused⟩
  · have refused : enforcePayloadBytes request.asdict "activities.archive.input"
        limits.activityInputBytes = .error (.limitExceeded .payloadBytes
          "activities.archive.input" (canonicalBytes request.asdict)
            limits.activityInputBytes) := enforceLimit_of_lt (Nat.lt_of_not_le input)
    simp only [input, false_and, iff_false, not_forall, not_not]
    rw [archiveRecord, refused]
    exact ⟨_, _, _, _, rfl⟩

/-- A record that the runner admits passes the later checks exactly if the request has room for the
names beside it, and the output for its layout or for its envelope.  The ciphertext is as long as
the record and what the cipher adds. -/
theorem archive_accepts_iff {limits : ArchiveLimits} {capture : AuditCaptureConfig}
    {audit captured : JsonObject} (admitted : admitArchive limits capture audit = .ok captured)
    (protection : Option PayloadProtectionBinding) (resource path retentionPolicy : String) :
    let request : ArchiveRequest :=
      ⟨resource, path, retentionPolicy, capture.mode, .obj captured⟩
    (PassesSizeChecks limits protection request ↔
      request.overhead + canonicalBytes (.obj captured) ≤ limits.activityInputBytes ∧
        ((capture.mode = "approved-full" ∧ protection.isNone) ∨
          outputBytes protection (.obj captured) ≤ limits.auditRecordBytes)) ∧
    ∀ binding, protection = some binding →
      canonicalBytes (.obj captured) ≤ (binding.ciphertext (.obj captured)).length ∧
        (binding.ciphertext (.obj captured)).length ≤
          canonicalBytes (.obj captured) + binding.overhead :=
  ⟨passesSizeChecks_iff (admitArchive_ok admitted), fun binding _ => length_ciphertext binding _⟩

/-! ## A short record -/

def shortAudit : JsonObject := [("status", .str "completed"), ("workflow", .str "invoices")]

/-- The record with its marks. -/
def shortRecord : JsonObject :=
  [("status", .str "completed"), ("workflow", .str "invoices"),
    ("capture_mode", .str "metadata-only"), ("serialization_version", .int 1)]

def shortRequest : ArchiveRequest where
  resource := "store"
  path := "audit/r1.json"
  retentionPolicy := "default"
  captureMode := "metadata-only"
  record := .obj shortRecord

/-- A record may be as long as the short one. -/
def tightRecord : ArchiveLimits where
  toRuntimeLimits := { defaultRuntimeLimits with
    auditRecordBytes := 101
    positive := by decide }

/-- A request may not hold the short record. -/
def tightInput : ArchiveLimits where
  toRuntimeLimits := defaultRuntimeLimits
  activityInputBytes := 101

/-- A cipher that adds a byte, as a tag would. -/
def taggingCipher : PayloadProtectionBinding where
  activeKeyId := "current"
  encrypt plaintext := plaintext ++ [0]
  overhead := 1
  named := by decide
  bounded plaintext := by simp

theorem shortRecord_bytes : canonicalBytes (.obj shortAudit) ≤ 101 ∧
    canonicalBytes (.obj shortRecord) = 101 ∧ layoutBytes (.obj shortRecord) 0 = 17 := by
  decide +kernel

theorem admitArchive_short {limits : ArchiveLimits} (audit : 101 ≤ limits.auditRecordBytes)
    (output : 101 ≤ limits.workflowOutputBytes) :
    admitArchive limits .metadataOnly shortAudit = .ok shortRecord := by
  obtain ⟨given, kept, _⟩ := shortRecord_bytes
  have audited : enforcePayloadBytes (.obj shortAudit) "workflow.audit" limits.auditRecordBytes =
      .ok () := enforceLimit_ok_iff.mpr (given.trans audit)
  have returned : enforcePayloadBytes (.obj shortAudit) "workflow.output"
      limits.workflowOutputBytes = .ok () := enforceLimit_ok_iff.mpr (given.trans output)
  have captured : captureAuditRecord shortAudit .metadataOnly = .ok shortRecord := rfl
  have archived : enforcePayloadBytes (.obj shortRecord) "workflow.archive"
      limits.auditRecordBytes = .ok () := enforceLimit_ok_iff.mpr (kept.le.trans audit)
  rw [admitArchive, audited, returned, captured]
  simp only [Except.mapError, Program.ok_bind, archived, Program.pure_eq_ok]

def defaultArchiveLimits : ArchiveLimits where
  toRuntimeLimits := defaultRuntimeLimits

/-- The short record is archived under the default limits. -/
theorem archive_accepts_iff_short :
    admitArchive defaultArchiveLimits .metadataOnly shortAudit = .ok shortRecord ∧
      PassesSizeChecks defaultArchiveLimits none shortRequest := by
  have admitted := @admitArchive_short defaultArchiveLimits (by decide) (by decide)
  obtain ⟨_, kept, layout⟩ := shortRecord_bytes
  have beside : shortRequest.overhead ≤ 200 := by decide +kernel
  have accepts := (archive_accepts_iff admitted none "store" "audit/r1.json" "default").1
  refine ⟨admitted, accepts.mpr ⟨?_, .inr ?_⟩⟩
  · rw [kept]
    exact (Nat.add_le_add_right beside 101).trans (by decide)
  · rw [outputBytes, kept, layout]
    decide

/-- A record of 101 bytes is admitted under a limit of 101 bytes for records, and what is written of
it is longer, as indented text and as an envelope; a limit of 101 bytes for inputs has no room for
its request. -/
theorem admitted_records_rejected :
    admitArchive tightRecord .metadataOnly shortAudit = .ok shortRecord ∧
    ¬ PassesSizeChecks tightRecord none shortRequest ∧
    ¬ PassesSizeChecks tightRecord (some taggingCipher) shortRequest ∧
    admitArchive tightInput .metadataOnly shortAudit = .ok shortRecord ∧
    ¬ PassesSizeChecks tightInput none shortRequest := by
  obtain ⟨_, kept, layout⟩ := shortRecord_bytes
  refine ⟨admitArchive_short (by decide) (by decide), ?_, ?_,
    admitArchive_short (by decide) (by decide), ?_⟩
  · rw [passesSizeChecks_iff kept.le]
    rintro ⟨_, ⟨mode, _⟩ | output⟩
    · exact absurd mode (by decide)
    · have : 101 + 17 ≤ 101 := by
        rw [← kept, ← layout]
        exact output
      omega
  · rw [passesSizeChecks_iff kept.le]
    rintro ⟨_, ⟨mode, _⟩ | output⟩
    · exact absurd mode (by decide)
    · have : 128 ≤ 101 := le_trans (by rw [outputBytes]; omega) output
      omega
  · rw [passesSizeChecks_iff (kept.le.trans (by decide))]
    rintro ⟨input, _⟩
    have : 67 + 101 ≤ 101 := by
      refine le_trans ?_ input
      rw [ArchiveRequest.overhead]
      have : canonicalBytes shortRequest.record = 101 := kept
      omega
    omega

end Justflow
