import Justflow.Library.Base64Text
import Justflow.Library.Scans
import Justflow.Runtime.Cursors
import Justflow.Starts.Failed
import Justflow.Starts.Service
import Mathlib.Data.Finset.Basic

/-!
# Listing scheduled starts

The schedules of a scope come from Temporal page by page, are described in batches, and are kept if
their state is asked for.  A page of the listing is full in the middle of a page of Temporal, so
its cursor holds the token of that page, the size that it was asked for with, and an offset.

Each request is a scan of what is left of the collection, whatever the pages and the batches are.
It is refused when it would have to look at more than `max_schedules` entries.
-/

open Fields JsonValue Base64

namespace Justflow

def maxScheduledStartListLimit : Nat := 100
def maxScheduledStartCollectionLimit : Nat := 100000
def maxScheduleDescribeConcurrency : Nat := 100

/-- The settings of scheduled starts that a listing reads. -/
structure ScheduledStartListSettings where
  maxListLimit : Nat := 100
  maxSchedules : Nat := 10000
  describeConcurrency : Nat := 10
  listed : 1 ≤ maxListLimit ∧ maxListLimit ≤ maxScheduledStartListLimit := by decide
  observed : 1 ≤ maxSchedules ∧ maxSchedules ≤ maxScheduledStartCollectionLimit := by decide
  described : 1 ≤ describeConcurrency ∧
    describeConcurrency ≤ maxScheduleDescribeConcurrency := by decide

def ScheduledStartState.value : ScheduledStartState → String
  | .scheduled => "scheduled"
  | .dispatching => "dispatching"
  | .started => "started"
  | .canceled => "canceled"
  | .failed => "failed"

/-- The states in the order of their values. -/
def ScheduledStartState.sorted : List ScheduledStartState :=
  [.canceled, .dispatching, .failed, .scheduled, .started]

/-- `_list_state_filter`. -/
def listStateFilter (states : Option (Finset ScheduledStartState)) :
    Option (List ScheduledStartState) :=
  states.map fun states => ScheduledStartState.sorted.filter (· ∈ states)

/-- What a listing raises. -/
inductive ScheduledStartListFailure where
  | raised (exception : ScheduledStartException)
  /-- An exception of the cursor's scope envelope. -/
  | cursor (error : CursorError)
  /-- The loop over the pages has not ended yet. -/
  | unfinished
  deriving DecidableEq

def refuseListing (code : ScheduledStartErrorCode) (message : String) (retryable : Bool) :
    ScheduledStartListFailure :=
  .raised (.refused ⟨code, message, retryable⟩)

def listCursorInvalid : ScheduledStartListFailure :=
  refuseListing .invalidRequest "Scheduled-start cursor is invalid" false

def listLimitInvalid : ScheduledStartListFailure :=
  refuseListing .invalidRequest "Scheduled-start list limit is invalid" false

def collectionBeyondBound : ScheduledStartListFailure :=
  refuseListing .quotaUnavailable "Scheduled-start collection exceeds its configured bound" false

def listUnavailable : ScheduledStartListFailure :=
  refuseListing .temporalUnavailable "Temporal scheduled starts could not be listed" true

def notOwnedScheduledStart : ScheduledStartListFailure :=
  refuseListing .conflict "Temporal schedule is not a valid owned scheduled start" false

/-! ## Cursors -/

structure ScheduledStartListPosition where
  pageToken : Option (List Byte)
  pageOffset : Nat
  pageSize : Nat
  deriving DecidableEq

/-- The fields of a cursor, and whether it has a state filter. -/
structure ScheduledStartListCursorPayload where
  pageToken : Option String
  pageOffset : Nat
  pageSize : Option Nat
  stateFilter : Option (List ScheduledStartState)
  filtered : Bool
  deriving DecidableEq

/-- `validate_page_position`, and the bounds of the fields. -/
def ScheduledStartListCursorPayload.valid (self : ScheduledStartListCursorPayload) : Bool :=
  self.pageOffset ≤ maxScheduledStartListLimit &&
    match self.pageSize with
    | none => self.pageOffset = 0 && !self.filtered
    | some size => 1 ≤ size && size ≤ maxScheduledStartListLimit && self.pageOffset ≤ size &&
        self.filtered

/-- `StrictInt` with `ge=0`. -/
def readCount : Decoded → Option Nat
  | .int n => if 0 ≤ n then some n.toNat else none
  | _ => none

def readState (v : Decoded) : Option ScheduledStartState :=
  v.asText.bind fun text => ScheduledStartState.sorted.find? fun state => state.value = text

def readStates : Decoded → Option (List ScheduledStartState)
  | .arr items => items.mapM readState
  | _ => none

/-- `_ScheduledStartListCursorPayload.model_validate`. -/
def readListCursor (position : Decoded) : Option ScheduledStartListCursorPayload := do
  guard (position.keysWithin ["page_token", "page_offset", "page_size", "state_filter"])
  let payload : ScheduledStartListCursorPayload := {
    pageToken := ← Decoded.optional Decoded.asText (position.field "page_token")
    pageOffset := ← match position.field "page_offset" with
      | none => some 0
      | some offset => readCount offset
    pageSize := ← Decoded.optional readCount (position.field "page_size")
    stateFilter := ← Decoded.optional readStates (position.field "state_filter")
    filtered := (position.field "state_filter").isSome }
  guard payload.valid
  return payload

/-- The fields of a position's cursor. -/
def ScheduledStartListPosition.fields (self : ScheduledStartListPosition)
    (stateFilter : Option (List ScheduledStartState)) : List (String × JsonValue) :=
  [("page_token", .ofOption (fun token => .str (String.ofList (encode token))) self.pageToken),
    ("page_offset", .int self.pageOffset), ("page_size", .int self.pageSize),
    ("state_filter", .ofOption (fun states => .arr (states.map fun state => .str state.value))
      stateFilter)]

/-- `payload.model_dump(mode="json")`. -/
def ScheduledStartListPosition.modelDump (self : ScheduledStartListPosition)
    (stateFilter : Option (List ScheduledStartState)) : JsonValue :=
  .obj (self.fields stateFilter)

/-- The payload of the cursor of a position. -/
def ScheduledStartListPosition.payload (self : ScheduledStartListPosition)
    (stateFilter : Option (List ScheduledStartState)) : ScheduledStartListCursorPayload where
  pageToken := self.pageToken.map fun token => String.ofList (encode token)
  pageOffset := self.pageOffset
  pageSize := some self.pageSize
  stateFilter
  filtered := true

/-- `_next_list_position`. -/
def nextListPosition (pageToken : Option (List Byte)) (pageOffset pageSize pageLength : Nat)
    (nextPageToken : Option (List Byte)) : Option ScheduledStartListPosition :=
  if pageOffset < pageLength then some ⟨pageToken, pageOffset, pageSize⟩
  else nextPageToken.map fun token => ⟨some token, 0, pageSize⟩

section Coding

variable (hashing : Hashing) (interpreter : JsonInterpreter) (scope : RuntimeScope)
variable (stateFilter : Option (List ScheduledStartState))

/-- `_encode_cursor`. -/
def encodeListCursor (position : Option ScheduledStartListPosition) :
    Except ScheduledStartListFailure (Option DecodedText) :=
  match position with
  | none => .ok none
  | some position =>
      if (position.payload stateFilter).valid then
        match encodeScopeCursor hashing interpreter scope (position.modelDump stateFilter) with
        | .error error => .error (.cursor error)
        | .ok cursor => .ok (some cursor)
      else .error (.raised .validation)

/-- The token of a payload; `some none` stands for no token. -/
def ScheduledStartListCursorPayload.token (self : ScheduledStartListCursorPayload) :
    Option (Option (List Byte)) :=
  match self.pageToken with
  | none => some none
  | some text => (decode text.toList).map some

/-- `_decode_cursor`. -/
def decodeListCursor (cursor : Option DecodedText) (defaultPageSize maxPageSize : Nat) :
    Except ScheduledStartListFailure ScheduledStartListPosition :=
  match cursor with
  | none => .ok ⟨none, 0, defaultPageSize⟩
  | some cursor =>
      match decodeScopeCursor hashing interpreter scope cursor with
      | .error .recursion => .error (.cursor .recursion)
      | .error (.value _) | .error .integerConversion => .error listCursorInvalid
      | .ok position =>
          match readListCursor position with
          | none => .error listCursorInvalid
          | some payload =>
              match payload.token with
              | none => .error listCursorInvalid
              | some pageToken =>
                  let pageSize := payload.pageSize.getD defaultPageSize
                  if pageToken = some [] ∨ (pageToken = none ∧ payload.pageOffset = 0) ∨
                      maxPageSize < pageSize ∨
                      (payload.pageSize.isSome ∧ payload.stateFilter ≠ stateFilter) then
                    .error listCursorInvalid
                  else .ok ⟨pageToken, payload.pageOffset, pageSize⟩

end Coding

section RoundTrips

variable {stateFilter : Option (List ScheduledStartState)}

theorem readState_value (state : ScheduledStartState) :
    readState (.text state.value) = some state := by
  rw [readState, Decoded.asText_text]
  cases state <;> rfl

theorem readStates_values (states : List ScheduledStartState) :
    readStates (.ofJson (.arr (states.map fun state => .str state.value))) = some states := by
  simp only [Decoded.ofJson, readStates]
  induction states with
  | nil => rfl
  | cons state rest ih =>
      rw [List.map_cons, Decoded.ofItems, List.mapM_cons, Decoded.ofJson_str, readState_value, ih]
      rfl

theorem optional_asText_token (token : Option (List Byte)) :
    Decoded.optional Decoded.asText (some (.ofJson
      (.ofOption (fun token => .str (String.ofList (encode token))) token))) =
        some (token.map fun token => String.ofList (encode token)) := by
  cases token with
  | none => rfl
  | some token => simp [ofOption]

theorem optional_readStates_filter (stateFilter : Option (List ScheduledStartState)) :
    Decoded.optional readStates (some (.ofJson
      (.ofOption (fun states => .arr (states.map fun state => .str state.value)) stateFilter))) =
        some stateFilter := by
  cases stateFilter with
  | none => rfl
  | some states =>
      have read := readStates_values states
      simp only [Decoded.ofJson] at read
      simp only [ofOption, Decoded.ofJson, Decoded.optional, read, Option.map_some]

theorem field_sortKeys (fields : List (String × JsonValue)) (key : String) :
    (Decoded.ofJson (.obj (sortKeys fields))).field key =
      (fields.lookup key).map Decoded.ofJson := by
  rw [Decoded.ofJson_obj, Decoded.field_record, lookup_map_value, lookup_sortKeys]

theorem keysWithin_sortKeys {fields : List (String × JsonValue)} {allowed : List String}
    (h : ∀ key ∈ keys fields, key ∈ allowed) :
    (Decoded.ofJson (.obj (sortKeys fields))).keysWithin allowed = true := by
  have sorted : (sortKeys fields).Perm fields := List.perm_insertionSort _ _
  rw [Decoded.ofJson_obj, Decoded.keysWithin_record, List.all_map, List.all_eq_true]
  intro entry hentry
  exact decide_eq_true (h _ (List.mem_map_of_mem (sorted.mem_iff.mp hentry)))

theorem wire_modelDump (position : ScheduledStartListPosition) :
    (position.modelDump stateFilter).wire = .obj (sortKeys (position.fields stateFilter)) := by
  have token : (JsonValue.ofOption (fun token => .str (String.ofList (encode token)))
      position.pageToken).wire =
        .ofOption (fun token => .str (String.ofList (encode token))) position.pageToken := by
    cases position.pageToken <;> rfl
  have filter : (JsonValue.ofOption (fun states : List ScheduledStartState =>
      .arr (states.map fun state => .str state.value)) stateFilter).wire =
        .ofOption (fun states => .arr (states.map fun state => .str state.value))
          stateFilter := by
    cases stateFilter with
    | none => rfl
    | some states => simp [ofOption]
  rw [ScheduledStartListPosition.modelDump, ScheduledStartListPosition.fields, wire_obj]
  simp only [List.map_cons, List.map_nil, token, filter, wire_int]

/-- The dump of a payload is read back. -/
theorem readListCursor_modelDump {position : ScheduledStartListPosition}
    (valid : (position.payload stateFilter).valid) :
    readListCursor (.ofJson (position.modelDump stateFilter).wire) =
      some (position.payload stateFilter) := by
  have within : Decoded.keysWithin ["page_token", "page_offset", "page_size", "state_filter"]
      (.ofJson (.obj (sortKeys (position.fields stateFilter)))) = true := by
    refine keysWithin_sortKeys fun key hkey => ?_
    simpa [ScheduledStartListPosition.fields] using hkey
  have count : ∀ n : Nat, readCount (.int n) = some n := fun n => by
    rw [readCount, if_pos (Int.natCast_nonneg n), Int.toNat_natCast]
  have token := optional_asText_token position.pageToken
  have filter := optional_readStates_filter stateFilter
  have fields : (position.fields stateFilter).lookup "page_token" =
        some (.ofOption (fun token => .str (String.ofList (encode token))) position.pageToken) ∧
      (position.fields stateFilter).lookup "page_offset" = some (.int position.pageOffset) ∧
      (position.fields stateFilter).lookup "page_size" = some (.int position.pageSize) ∧
      (position.fields stateFilter).lookup "state_filter" =
        some (.ofOption (fun states => .arr (states.map fun state => .str state.value))
          stateFilter) := ⟨rfl, rfl, rfl, rfl⟩
  obtain ⟨htoken, hoffset, hsize, hfilter⟩ := fields
  have int : ∀ n : Nat, Decoded.ofJson (.int n) = .int n := fun _ => rfl
  have size : Decoded.optional readCount (some (.int position.pageSize)) =
      some (some position.pageSize) := by
    simp only [Decoded.optional, count, Option.map_some]
  simp only [readListCursor, wire_modelDump, field_sortKeys, htoken, hoffset, hsize, hfilter,
    Option.map_some, within, token, filter, int, count, size, Option.isSome_some]
  rw [ScheduledStartListPosition.payload] at valid ⊢
  simp [valid]

/-- A position that the listing goes on from. -/
structure ScheduledStartListPosition.Continuing (position : ScheduledStartListPosition)
    (maxPageSize : Nat) : Prop where
  offset : position.pageOffset ≤ position.pageSize
  asked : 1 ≤ position.pageSize
  admitted : position.pageSize ≤ maxPageSize
  token : position.pageToken ≠ some []
  small : ∀ token ∈ position.pageToken, token.length ≤ maxPageTokenBytes
  onward : position.pageToken = none → position.pageOffset ≠ 0

theorem payload_valid {position : ScheduledStartListPosition} {maxPageSize : Nat}
    (continuing : position.Continuing maxPageSize)
    (bounded : maxPageSize ≤ maxScheduledStartListLimit) :
    (position.payload stateFilter).valid = true := by
  have size := continuing.admitted.trans bounded
  simp [ScheduledStartListCursorPayload.valid, ScheduledStartListPosition.payload,
    continuing.offset.trans size, continuing.asked, size, continuing.offset]

theorem payload_token (position : ScheduledStartListPosition) :
    (position.payload stateFilter).token = some position.pageToken := by
  cases h : position.pageToken with
  | none => simp [ScheduledStartListCursorPayload.token, ScheduledStartListPosition.payload, h]
  | some token =>
      simp [ScheduledStartListCursorPayload.token, ScheduledStartListPosition.payload, h,
        decode_encode]

/-- The bytes of a cursor's position: a token takes four digits for every three bytes. -/
theorem canonicalBytes_modelDump_le {position : ScheduledStartListPosition} {maxPageSize : Nat}
    (continuing : position.Continuing maxPageSize)
    (bounded : maxPageSize ≤ maxScheduledStartListLimit)
    (few : ∀ states ∈ stateFilter, states.length ≤ 5) :
    canonicalBytes (position.modelDump stateFilter) ≤ 6000 := by
  have size := continuing.admitted.trans bounded
  have number : ∀ n : Nat, n ≤ maxScheduledStartListLimit → canonicalBytes (.int n) ≤ 3 :=
    fun n hn => utf8ByteSize_repr_le (lt_of_le_of_lt hn (by decide))
  have token : canonicalBytes (.ofOption (fun token => .str (String.ofList (encode token)))
      position.pageToken) ≤ 5466 := by
    refine canonicalBytes_ofOption_le (fun token htoken => ?_) (by decide)
    have length := continuing.small token htoken
    rw [canonicalBytes_str, utf8ByteSize_quote_encode]
    rw [maxPageTokenBytes] at length
    omega
  have state : ∀ state : ScheduledStartState, canonicalBytes (.str state.value) ≤ 13 := by
    intro state
    cases state <;> decide
  have filter : canonicalBytes (.ofOption (fun states : List ScheduledStartState =>
      .arr (states.map fun state => .str state.value)) stateFilter) ≤ 72 := by
    refine canonicalBytes_ofOption_le (fun states hstates => ?_) (by decide)
    have length : (states.map fun state => JsonValue.str state.value).length ≤ 5 := by
      simpa using few states hstates
    refine canonicalBytes_arr_le 13 length ?_
    intro v hv
    obtain ⟨found, _, rfl⟩ := List.mem_map.mp hv
    exact state found
  have names : keys (position.fields stateFilter) =
      ["page_token", "page_offset", "page_size", "state_filter"] := rfl
  have beside : keyBytes ["page_token", "page_offset", "page_size", "state_filter"] = 58 := by
    decide +kernel
  have within : FieldsWithin (position.fields stateFilter) (5466 + (3 + (3 + (72 + 0)))) :=
    .cons token (.cons (number _ (continuing.offset.trans size))
      (.cons (number _ size) (.cons filter .nil)))
  have bytes := canonicalBytes_obj_within within
  rw [names, beside] at bytes
  rw [ScheduledStartListPosition.modelDump]
  omega

theorem nesting_modelDump (scopeDigest : Digest) (position : ScheduledStartListPosition) :
    (cursorValue scopeDigest (position.modelDump stateFilter)).nesting ≤ 3 := by
  have flat : ∀ states : List ScheduledStartState,
      nestingItems (states.map fun state => .str state.value) = 0 := by
    intro states
    induction states with
    | nil => rfl
    | cons state rest ih => simp [nestingItems, nesting, ih]
  have token : (JsonValue.ofOption (fun token => .str (String.ofList (encode token)))
      position.pageToken).nesting = 0 := by
    cases position.pageToken <;> rfl
  have filter : (JsonValue.ofOption (fun states : List ScheduledStartState =>
      .arr (states.map fun state => .str state.value)) stateFilter).nesting ≤ 1 := by
    cases stateFilter with
    | none => exact Nat.zero_le 1
    | some states => simp [ofOption, nesting, flat]
  simp only [cursorValue, ScheduledStartListPosition.modelDump, ScheduledStartListPosition.fields,
    nesting, nestingFields, token]
  omega

/-- A position has a cursor, which is read back for its own filter. -/
theorem decode_listCursor {hashing : Hashing} {interpreter : JsonInterpreter}
    {scope : RuntimeScope} {position : ScheduledStartListPosition} {maxPageSize : Nat}
    (continuing : position.Continuing maxPageSize)
    (bounded : maxPageSize ≤ maxScheduledStartListLimit)
    (few : ∀ states ∈ stateFilter, states.length ≤ 5) (deep : 3 ≤ interpreter.recursionLimit)
    (reads : interpreter.ReadsBack
      (cursorValue (scope.digest hashing) (position.modelDump stateFilter))) :
    ∃ cursor, encodeListCursor hashing interpreter scope stateFilter (some position) =
        .ok (some cursor) ∧
      ∀ defaultPageSize, decodeListCursor hashing interpreter scope stateFilter (some cursor)
        defaultPageSize maxPageSize = .ok position := by
  have valid := @payload_valid stateFilter _ _ continuing bounded
  have bytes := canonicalBytes_modelDump_le continuing bounded few
  obtain ⟨cursor, encoded⟩ : ∃ cursor, encodeScopeCursor hashing interpreter scope
      (position.modelDump stateFilter) = .ok cursor := by
    refine ⟨_, encodeScopeCursor_eq_ok_iff.mpr
      ⟨(nesting_modelDump _ _).trans deep, ?_, rfl⟩⟩
    rw [canonicalBytes_cursorValue, maxCursorBytes]
    omega
  refine ⟨cursor, ?_, fun defaultPageSize => ?_⟩
  · simp only [encodeListCursor, valid, if_true, encoded]
  · have read := decode_scopeCursor encoded reads scope
    rw [if_pos rfl] at read
    have admitted : ¬ (position.pageToken = some [] ∨
        (position.pageToken = none ∧ position.pageOffset = 0) ∨
          maxPageSize < position.pageSize ∨
            ((some position.pageSize).isSome ∧ stateFilter ≠ stateFilter)) := by
      rintro (empty | ⟨start, offset⟩ | large | ⟨_, differs⟩)
      · exact continuing.token empty
      · exact continuing.onward start offset
      · exact absurd continuing.admitted (Nat.not_le.mpr large)
      · exact differs rfl
    simp only [decodeListCursor, read, readListCursor_modelDump valid, payload_token]
    exact if_neg admitted

end RoundTrips

/-! ## Requests -/

/-- What Temporal answers: a page of the schedules of a scope, for a size and a token, with the
token of the next page; and the description of a schedule. -/
structure ScheduleClient (Entry Description : Type) where
  listPage : Nat → Option (List Byte) → Option (List Entry × Option (List Byte))
  describe : Entry → Option Description
  /-- `_record_from_description`. -/
  recordFromDescription : Description → Option ScheduledStartProjectionRecord

/-- Where a scan of a page has got to; `fullAt` is the offset behind the last record. -/
structure ScheduledStartPageScan where
  records : List ScheduledStartDescription
  scanned : Nat
  fullAt : Option Nat

section Listing

variable {Entry Description : Type} (client : ScheduleClient Entry Description)
variable (settings : ScheduledStartListSettings) (states : Option (Finset ScheduledStartState))
variable (limit : Nat)

/-- The description of a record, if its state is asked for. -/
def listedRecord (record : ScheduledStartProjectionRecord) : Option ScheduledStartDescription :=
  if ∀ asked ∈ states, record.describe.state ∈ asked then some record.describe else none

namespace ScheduleClient

def scanDescriptions : List Description → Nat → Nat → List ScheduledStartDescription →
    Except ScheduledStartListFailure ScheduledStartPageScan
  | [], _, scanned, records => .ok ⟨records, scanned, none⟩
  | description :: rest, index, scanned, records =>
      match client.recordFromDescription description with
      | none => .error notOwnedScheduledStart
      | some record =>
          let records := records ++ (listedRecord states record).toList
          if limit ≤ records.length then .ok ⟨records, scanned + 1, some (index + 1)⟩
          else scanDescriptions rest (index + 1) (scanned + 1) records

/-- The loop over the batches of a page; the fuel is the number of entries. -/
def scanEntries : Nat → List Entry → Nat → Nat → List ScheduledStartDescription →
    Except ScheduledStartListFailure ScheduledStartPageScan
  | 0, _, _, scanned, records | _, [], _, scanned, records => .ok ⟨records, scanned, none⟩
  | fuel + 1, entry :: rest, index, scanned, records =>
      if settings.maxSchedules ≤ scanned then .error collectionBeyondBound
      else
        let entries := entry :: rest
        let batchSize := min settings.describeConcurrency
          (min entries.length (settings.maxSchedules - scanned))
        match (entries.take batchSize).mapM client.describe with
        | none => .error listUnavailable
        | some descriptions => do
            let scan ← client.scanDescriptions states limit descriptions index scanned records
            if scan.fullAt.isSome then return scan
            else
              scanEntries fuel (entries.drop batchSize) (index + batchSize) scan.scanned
                scan.records

/-- The loop over the pages. -/
def scanPages (pageSize : Nat) : Nat → Option (List Byte) → Nat → Nat →
    List ScheduledStartDescription → Except ScheduledStartListFailure
      (List ScheduledStartDescription × Option ScheduledStartListPosition)
  | 0, _, _, _, _ => .error .unfinished
  | fuel + 1, pageToken, pageOffset, scanned, records =>
      match client.listPage pageSize pageToken with
      | none => .error listUnavailable
      | some (entries, nextPageToken) =>
          if entries.length < pageOffset then .error listCursorInvalid
          else do
            let scan ← client.scanEntries settings states limit entries.length
              (entries.drop pageOffset) pageOffset scanned records
            match scan.fullAt, nextPageToken with
            | some fullAt, _ =>
                return (scan.records,
                  nextListPosition pageToken fullAt pageSize entries.length nextPageToken)
            | none, none => return (scan.records, none)
            | none, some token => scanPages pageSize fuel (some token) 0 scan.scanned scan.records

/-- `list`. -/
def list (hashing : Hashing) (interpreter : JsonInterpreter) (scope : RuntimeScope) (fuel : Nat)
    (cursor : Option DecodedText) : Except ScheduledStartListFailure
      (List ScheduledStartDescription × Option DecodedText) :=
  if 1 ≤ limit ∧ limit ≤ settings.maxListLimit then do
    let position ← decodeListCursor hashing interpreter scope (listStateFilter states) cursor limit
      settings.maxListLimit
    let (records, next) ← client.scanPages settings states limit position.pageSize fuel
      position.pageToken position.pageOffset 0 []
    let nextCursor ← encodeListCursor hashing interpreter scope (listStateFilter states) next
    return (records, nextCursor)
  else .error listLimitInvalid

/-! ## Scans -/

/-- What an entry contributes to the listing. -/
def shown (entry : Entry) : Option ScheduledStartDescription := do
  let description ← client.describe entry
  let record ← client.recordFromDescription description
  listedRecord states record

/-- A scheduled start that Temporal describes and that is one of the scope. -/
def Readable (entry : Entry) : Prop :=
  ∃ description record, client.describe entry = some description ∧
    client.recordFromDescription description = some record

/-- A scan of the entries of a page from an offset on, as the loops return it. -/
def pageScan (entries : List Entry) (index scanned : Nat) :
    Scans.Outcome Entry ScheduledStartDescription →
      Except ScheduledStartListFailure ScheduledStartPageScan
  | .beyond => .error collectionBeyondBound
  | .full found rest =>
      .ok ⟨found, scanned + (entries.length - rest.length),
        some (index + (entries.length - rest.length))⟩
  | .ended found => .ok ⟨found, scanned + entries.length, none⟩

variable {client settings states limit}

/-- A scan that goes on behind some entries. -/
theorem pageScan_append {first second : List Entry} {index scanned : Nat}
    {outcome : Scans.Outcome Entry ScheduledStartDescription}
    (ends : ∀ found rest, outcome = .full found rest → rest.length ≤ second.length) :
    pageScan second (index + first.length) (scanned + first.length) outcome =
      pageScan (first ++ second) index scanned outcome := by
  cases outcome with
  | beyond => rfl
  | full found rest =>
      have shorter := ends found rest rfl
      have count : (first ++ second).length - rest.length =
          first.length + (second.length - rest.length) := by
        rw [List.length_append]
        omega
      rw [pageScan, pageScan, count, Nat.add_assoc, Nat.add_assoc]
  | ended found => rw [pageScan, pageScan, List.length_append, Nat.add_assoc]

/-- The descriptions of a batch within the bound. -/
theorem scanDescriptions_eq {entries : List Entry} {descriptions : List Description}
    {index scanned bound : Nat} {records : List ScheduledStartDescription}
    (described : entries.mapM client.describe = some descriptions)
    (readable : ∀ entry ∈ entries, client.Readable entry)
    (within : scanned + entries.length ≤ bound) :
    client.scanDescriptions states limit descriptions index scanned records =
      pageScan entries index scanned
        (Scans.scan (client.shown states) limit bound entries scanned records) := by
  induction entries generalizing descriptions index scanned records with
  | nil =>
      cases described
      rfl
  | cons entry rest ih =>
      obtain ⟨description, record, hdescription, hrecord⟩ := readable entry List.mem_cons_self
      rw [List.mapM_cons, hdescription] at described
      obtain ⟨others, hothers, rfl⟩ : ∃ others, rest.mapM client.describe = some others ∧
          descriptions = description :: others := by
        cases h : rest.mapM client.describe with
        | none => simp [h] at described
        | some others =>
            simp only [h] at described
            exact ⟨others, rfl, (Option.some.inj described).symm⟩
      rw [List.length_cons] at within
      have here : client.shown states entry = listedRecord states record := by
        simp [shown, hdescription, hrecord]
      have some_ : ¬ bound ≤ scanned := by omega
      simp only [scanDescriptions, hrecord, Scans.scan, if_neg some_, here]
      split
      · have one : (entry :: rest).length - rest.length = 1 := by
          rw [List.length_cons]
          omega
        rw [pageScan, one]
      · rw [ih hothers (fun e he => readable e (List.mem_cons_of_mem _ he)) (by omega)]
        exact @pageScan_append _ [entry] rest _ _ _ fun found behind h =>
          (Scans.length_lt_of_full h).le

theorem mapM_describe {entries : List Entry}
    (readable : ∀ entry ∈ entries, client.Readable entry) :
    ∃ descriptions, entries.mapM client.describe = some descriptions := by
  induction entries with
  | nil => exact ⟨[], rfl⟩
  | cons entry rest ih =>
      obtain ⟨description, _, hdescription, _⟩ := readable entry List.mem_cons_self
      obtain ⟨others, hothers⟩ := ih fun e he => readable e (List.mem_cons_of_mem _ he)
      exact ⟨description :: others, by simp [List.mapM_cons, hdescription, hothers]⟩

/-- The batches of a page are one scan. -/
theorem scanEntries_eq {fuel : Nat} {entries : List Entry} {index scanned : Nat}
    {records : List ScheduledStartDescription} (enough : entries.length ≤ fuel)
    (readable : ∀ entry ∈ entries, client.Readable entry) :
    client.scanEntries settings states limit fuel entries index scanned records =
      pageScan entries index scanned (Scans.scan (client.shown states) limit
        settings.maxSchedules entries scanned records) := by
  induction fuel generalizing entries index scanned records with
  | zero =>
      obtain rfl := List.eq_nil_of_length_eq_zero (Nat.le_zero.mp enough)
      simp [scanEntries, Scans.scan, pageScan]
  | succ fuel ih =>
      cases entries with
      | nil => simp [scanEntries, Scans.scan, pageScan]
      | cons entry rest =>
          by_cases bound : settings.maxSchedules ≤ scanned
          · simp only [scanEntries, if_pos bound, Scans.scan, pageScan]
          · obtain ⟨size, hsize⟩ : ∃ size, size = min settings.describeConcurrency
              (min (entry :: rest).length (settings.maxSchedules - scanned)) := ⟨_, rfl⟩
            have batch : 1 ≤ size ∧ size ≤ (entry :: rest).length ∧
                scanned + size ≤ settings.maxSchedules := by
              have concurrency := settings.described.1
              rw [List.length_cons] at hsize ⊢
              omega
            obtain ⟨some_, part, within⟩ := batch
            have taken : ((entry :: rest).take size).length = size := by
              rw [List.length_take]
              omega
            have front : ∀ e ∈ (entry :: rest).take size, client.Readable e :=
              fun e he => readable e (List.mem_of_mem_take he)
            obtain ⟨descriptions, hdescriptions⟩ := mapM_describe front
            have first := @scanDescriptions_eq _ _ client states limit _ _ index scanned
              settings.maxSchedules records hdescriptions front (by omega)
            have whole := @Scans.scan_append _ _ (client.shown states) limit
              settings.maxSchedules ((entry :: rest).take size) ((entry :: rest).drop size)
              scanned records
            rw [List.take_append_drop] at whole
            simp only [scanEntries, if_neg bound, ← hsize, hdescriptions, first]
            rw [whole]
            cases h : Scans.scan (client.shown states) limit settings.maxSchedules
                ((entry :: rest).take size) scanned records with
            | beyond => rfl
            | full found behind =>
                have shorter := Scans.length_lt_of_full h
                have count : ((entry :: rest).take size).length - behind.length =
                    (entry :: rest).length - (behind ++ (entry :: rest).drop size).length := by
                  rw [List.length_append, List.length_drop]
                  omega
                simp only [pageScan, count]
                rfl
            | ended found =>
                have next := @ih ((entry :: rest).drop size) (index + size) (scanned + size) found
                  (by rw [List.length_drop]; omega)
                  (fun e he => readable e (List.mem_of_mem_drop he))
                have glued := @pageScan_append _ ((entry :: rest).take size)
                  ((entry :: rest).drop size) index scanned (Scans.scan (client.shown states) limit
                    settings.maxSchedules ((entry :: rest).drop size) (scanned + size) found)
                  fun _ _ h => (Scans.length_lt_of_full h).le
                rw [List.take_append_drop, taken] at glued
                simp only [taken]
                rw [← glued, ← next]
                simp only [pageScan, taken]
                rfl

/-! ## Pages -/

variable (client)

/-- The pages that Temporal serves for a size from a token on, of a collection that stays as it
is. -/
inductive Serves (size : Nat) : Option (List Byte) → List (List Entry) → Prop
  | last {token : Option (List Byte)} {page : List Entry}
      (fetched : client.listPage size token = some (page, none)) (fits : page.length ≤ size) :
      Serves size token [page]
  | more {token : Option (List Byte)} {page : List Entry} {next : List Byte}
      {pages : List (List Entry)}
      (fetched : client.listPage size token = some (page, some next)) (fits : page.length ≤ size)
      (present : next ≠ []) (small : next.length ≤ maxPageTokenBytes)
      (served : Serves size (some next) pages) : Serves size token (page :: pages)

/-- What comes from an offset of a page on. -/
def Stands (loops : Nat) (position : ScheduledStartListPosition) (rest : List Entry) : Prop :=
  ∃ page pages, client.Serves position.pageSize position.pageToken (page :: pages) ∧
    position.pageOffset ≤ page.length ∧
      rest = page.drop position.pageOffset ++ pages.flatten ∧ pages.length < loops

variable {client}

theorem Stands.mono {loops more : Nat} {position : ScheduledStartListPosition} {rest : List Entry}
    (h : client.Stands loops position rest) (le : loops ≤ more) :
    client.Stands more position rest := by
  obtain ⟨page, pages, served, offset, rfl, count⟩ := h
  exact ⟨page, pages, served, offset, rfl, Nat.lt_of_lt_of_le count le⟩

theorem Serves.exists_page {size : Nat} {token : Option (List Byte)} {pages : List (List Entry)}
    (h : client.Serves size token pages) : ∃ page rest, pages = page :: rest := by
  cases h with
  | last => exact ⟨_, _, rfl⟩
  | more => exact ⟨_, _, rfl⟩

theorem Serves.exists_next {size : Nat} {token : Option (List Byte)} {page : List Entry}
    {pages : List (List Entry)} (h : client.Serves size token (page :: pages)) :
    page.length ≤ size ∧ ∃ next, client.listPage size token = some (page, next) := by
  cases h with
  | last fetched fits => exact ⟨fits, _, fetched⟩
  | more fetched fits => exact ⟨fits, _, fetched⟩

/-- The position behind an entry of a page. -/
theorem nextListPosition_stands {size loops index maxPageSize : Nat}
    {token next : Option (List Byte)} {page : List Entry} {pages : List (List Entry)}
    (served : client.Serves size token (page :: pages))
    (fetched : client.listPage size token = some (page, next)) (count : pages.length < loops)
    (asked : 1 ≤ size) (admitted : size ≤ maxPageSize) (present : token ≠ some [])
    (small : ∀ bytes ∈ token, bytes.length ≤ maxPageTokenBytes) (advanced : 0 < index)
    (inside : index ≤ page.length) :
    (nextListPosition token index size page.length next = none ∧
      page.drop index ++ pages.flatten = []) ∨
    ∃ position, nextListPosition token index size page.length next = some position ∧
      position.pageSize = size ∧ position.Continuing maxPageSize ∧
        client.Stands loops position (page.drop index ++ pages.flatten) := by
  have fits := served.exists_next.1
  by_cases before : index < page.length
  · refine .inr ⟨⟨token, index, size⟩, if_pos before, rfl, ?_, ?_⟩
    · exact ⟨inside.trans fits, asked, admitted, present, small, fun _ => advanced.ne'⟩
    · exact ⟨page, pages, served, inside, rfl, count⟩
  · have behind : page.drop index = [] := List.drop_eq_nil_of_le (Nat.le_of_not_lt before)
    rw [nextListPosition, if_neg before, behind, List.nil_append]
    cases served with
    | last found =>
        obtain ⟨_, rfl⟩ := Prod.mk.inj (Option.some.inj (fetched.symm.trans found))
        exact .inl ⟨rfl, rfl⟩
    | more found _ present' small' rest =>
        obtain ⟨_, rfl⟩ := Prod.mk.inj (Option.some.inj (fetched.symm.trans found))
        obtain ⟨page', pages', rfl⟩ := rest.exists_page
        refine .inr ⟨_, rfl, rfl, ?_, page', pages', rest, Nat.zero_le _, rfl, ?_⟩
        · refine ⟨Nat.zero_le _, asked, admitted, ?_, ?_, fun start => by cases start⟩
          · exact fun empty => present' (Option.some.inj empty)
          · rintro bytes ⟨⟩
            exact small'
        · exact Nat.lt_of_succ_lt count

/-- What the loop over the pages returns is the outcome of one scan. -/
def PagesAnswer (loops : Nat) (size maxPageSize : Nat)
    (result : Except ScheduledStartListFailure
      (List ScheduledStartDescription × Option ScheduledStartListPosition)) :
    Scans.Outcome Entry ScheduledStartDescription → Prop
  | .beyond => result = .error collectionBeyondBound
  | .full found behind => ∃ next, result = .ok (found, next) ∧
      (next = none ∧ behind = [] ∨ ∃ position, next = some position ∧
        position.pageSize = size ∧ position.Continuing maxPageSize ∧
          client.Stands loops position behind)
  | .ended found => result = .ok (found, none)

theorem PagesAnswer.mono {loops more size maxPageSize : Nat}
    {result : Except ScheduledStartListFailure
      (List ScheduledStartDescription × Option ScheduledStartListPosition)}
    {outcome : Scans.Outcome Entry ScheduledStartDescription}
    (h : client.PagesAnswer loops size maxPageSize result outcome) (le : loops ≤ more) :
    client.PagesAnswer more size maxPageSize result outcome := by
  cases outcome with
  | beyond => exact h
  | full found behind =>
      obtain ⟨next, same, ended | ⟨position, hposition, hsize, continuing, stands⟩⟩ := h
      · exact ⟨next, same, .inl ended⟩
      · exact ⟨next, same, .inr ⟨position, hposition, hsize, continuing, stands.mono le⟩⟩
  | ended found => exact h

/-- The loop over the pages is one scan of what the pages hold. -/
theorem scanPages_answers {size loops maxPageSize : Nat} {token : Option (List Byte)}
    {offset scanned : Nat} {records : List ScheduledStartDescription} {rest : List Entry}
    (stands : client.Stands loops ⟨token, offset, size⟩ rest)
    (readable : ∀ entry ∈ rest, client.Readable entry) (asked : 1 ≤ size)
    (admitted : size ≤ maxPageSize) (present : token ≠ some [])
    (small : ∀ bytes ∈ token, bytes.length ≤ maxPageTokenBytes) :
    client.PagesAnswer loops size maxPageSize
      (client.scanPages settings states limit size loops token offset scanned records)
      (Scans.scan (client.shown states) limit settings.maxSchedules rest scanned records) := by
  induction loops generalizing token offset scanned records rest with
  | zero =>
      obtain ⟨_, pages, _, _, _, count⟩ := stands
      exact absurd count (Nat.not_lt_zero _)
  | succ loops ih =>
      obtain ⟨page, pages, served, inside, rfl, count⟩ := stands
      obtain ⟨_, next, fetched⟩ := served.exists_next
      have scanned_ := @scanEntries_eq _ _ client settings states limit page.length
        (page.drop offset) offset scanned records
        (by rw [List.length_drop]; omega)
        (fun e he => readable e (List.mem_append_left _ he))
      rw [Scans.scan_append]
      simp only [scanPages, fetched, if_neg (Nat.not_lt.mpr inside), scanned_]
      cases h : Scans.scan (client.shown states) limit settings.maxSchedules (page.drop offset)
          scanned records with
      | beyond => rfl
      | full found behind =>
          have shorter := Scans.length_lt_of_full h
          have ends := Scans.rest_of_full h
          rw [List.drop_drop] at ends
          obtain ⟨index, hindex⟩ : ∃ index,
            index = offset + ((page.drop offset).length - behind.length) := ⟨_, rfl⟩
          rw [← hindex] at ends
          have range : 0 < index ∧ index ≤ page.length := by
            rw [List.length_drop] at shorter hindex
            omega
          have position := nextListPosition_stands served fetched count asked admitted present
            small range.1 range.2
          rw [← ends] at position
          simp only [pageScan, ← hindex]
          exact ⟨_, rfl, position⟩
      | ended found =>
          cases served with
          | last found' =>
              obtain ⟨_, rfl⟩ := Prod.mk.inj (Option.some.inj (fetched.symm.trans found'))
              simp only [pageScan, List.flatten_nil, Scans.scan]
              rfl
          | more found' _ present' small' rest =>
              obtain ⟨_, rfl⟩ := Prod.mk.inj (Option.some.inj (fetched.symm.trans found'))
              obtain ⟨page', pages', rfl⟩ := rest.exists_page
              have further : client.Stands loops ⟨some _, 0, size⟩ (page' :: pages').flatten :=
                ⟨page', pages', rest, Nat.zero_le _, rfl, Nat.lt_of_succ_lt_succ count⟩
              have later := @ih _ 0 (scanned + (page.drop offset).length) found _ further
                (fun e he => readable e (List.mem_append_right _ he))
                (fun empty => present' (Option.some.inj empty))
                (by rintro bytes ⟨⟩; exact small')
              exact later.mono (Nat.le_succ loops)

/-! ## The listing -/

section Following

variable (client settings states)
variable (hashing : Hashing) (interpreter : JsonInterpreter) (scope : RuntimeScope)

/-- The requests of a client that follows the cursors, with a page size for each; a cursor is kept
with the number of the request that it is for. -/
def request (loops : Nat) (limits : Nat → Nat) (cursor : Option (Nat × DecodedText)) :
    Except ScheduledStartListFailure
      (List ScheduledStartDescription × Option (Nat × DecodedText)) := do
  let number := (cursor.map Prod.fst).getD 0
  let (records, next) ← client.list settings states (limits number) hashing interpreter scope loops
    (cursor.map Prod.snd)
  return (records, next.map fun cursor => (number + 1, cursor))

/-- The request with this number begins at `rest`. -/
def BeginsAt (loops size : Nat) (limits : Nat → Nat) (cursor : Option (Nat × DecodedText))
    (number : Nat) (rest : List Entry) : Prop :=
  (cursor.map Prod.fst).getD 0 = number ∧ ∃ position : ScheduledStartListPosition,
    decodeListCursor hashing interpreter scope (listStateFilter states) (cursor.map Prod.snd)
        (limits number) settings.maxListLimit = .ok position ∧
      position.pageSize = size ∧ position.pageToken ≠ some [] ∧
        (∀ token ∈ position.pageToken, token.length ≤ maxPageTokenBytes) ∧
          client.Stands loops position rest ∧ ∀ entry ∈ rest, client.Readable entry

variable {client settings states hashing interpreter scope}

theorem length_listStateFilter :
    ∀ filter ∈ listStateFilter states, filter.length ≤ 5 := by
  intro filter hfilter
  obtain ⟨asked, _, rfl⟩ := Option.map_eq_some_iff.mp hfilter
  exact List.length_filter_le _ ScheduledStartState.sorted

/-- A request is one scan, and its cursor leads to what comes behind. -/
theorem request_answers {loops size : Nat} {limits : Nat → Nat}
    (valid : ∀ k, 1 ≤ limits k ∧ limits k ≤ settings.maxListLimit)
    (asked : 1 ≤ size ∧ size ≤ settings.maxListLimit) (deep : 3 ≤ interpreter.recursionLimit)
    (reads : ∀ position rest, position.Continuing settings.maxListLimit →
      position.pageSize = size → client.Stands loops position rest → interpreter.ReadsBack
        (cursorValue (scope.digest hashing) (position.modelDump (listStateFilter states))))
    {cursor : Option (Nat × DecodedText)} {number : Nat} {rest : List Entry}
    (begins : client.BeginsAt settings states hashing interpreter scope loops size limits cursor
      number rest) :
    Scans.Answers (client.request settings states hashing interpreter scope loops limits)
      collectionBeyondBound
      (client.BeginsAt settings states hashing interpreter scope loops size limits) cursor number
      (Scans.scan (client.shown states) (limits number) settings.maxSchedules rest 0 []) := by
  obtain ⟨hnumber, position, decoded, hsize, present, small, stands, readable⟩ := begins
  have answer := @scanPages_answers _ _ client settings states (limits number) size loops
    settings.maxListLimit position.pageToken position.pageOffset 0 [] rest
    (by rw [← hsize]; exact stands) readable asked.1 asked.2 present small
  cases h : Scans.scan (client.shown states) (limits number) settings.maxSchedules rest 0 [] with
  | beyond =>
      rw [h] at answer
      simp only [PagesAnswer] at answer
      simp only [Scans.Answers, request, list, hnumber, if_pos (valid number), decoded, hsize,
        answer, Program.ok_bind, Program.error_bind]
  | full found behind =>
      rw [h] at answer
      obtain ⟨next, same, ⟨rfl, last⟩ | ⟨further, rfl, hsize', continuing, stands'⟩⟩ := answer
      · refine ⟨none, ?_, .inl ⟨rfl, last⟩⟩
        simp only [request, list, hnumber, if_pos (valid number), decoded, hsize, same,
          Program.ok_bind, encodeListCursor, Program.pure_eq_ok, Option.map_none]
      · obtain ⟨text, encoded, read⟩ := @decode_listCursor (listStateFilter states) hashing
          interpreter scope _ _ continuing settings.listed.2 length_listStateFilter deep
          (reads further behind continuing hsize' stands')
        refine ⟨some (number + 1, text), ?_, .inr ⟨rfl, rfl, further, read _, hsize',
          continuing.token, continuing.small, stands', fun entry hentry => ?_⟩⟩
        · simp only [request, list, hnumber, if_pos (valid number), decoded, hsize, same,
            Program.ok_bind, encoded, Program.pure_eq_ok, Option.map_some]
        · rw [Scans.rest_of_full h] at hentry
          exact readable entry (List.mem_of_mem_drop hentry)
  | ended found =>
      rw [h] at answer
      simp only [PagesAnswer] at answer
      simp only [Scans.Answers, request, list, hnumber, if_pos (valid number), decoded, hsize,
        answer, Program.ok_bind, encodeListCursor, Program.pure_eq_ok, Option.map_none]

end Following

end ScheduleClient

/-- Following the cursors of a listing gives what the collection shows of the asked states, in its
order, unless a request has to look at more than `max_schedules` entries to fill its page; then the
listing ends with that request.  A collection within that bound is always listed. -/
theorem list_complete (settings : ScheduledStartListSettings)
    (states : Option (Finset ScheduledStartState)) {hashing : Hashing}
    {interpreter : JsonInterpreter} {scope : RuntimeScope} (deep : 3 ≤ interpreter.recursionLimit)
    {limits : Nat → Nat} {loops : Nat}
    (reads : ∀ position rest, position.Continuing settings.maxListLimit →
      position.pageSize = limits 0 → client.Stands loops position rest → interpreter.ReadsBack
        (cursorValue (scope.digest hashing) (position.modelDump (listStateFilter states))))
    (valid : ∀ k, 1 ≤ limits k ∧ limits k ≤ settings.maxListLimit)
    {pages : List (List Entry)} (served : client.Serves (limits 0) none pages)
    (readable : ∀ entry ∈ pages.flatten, client.Readable entry) {requests : Nat}
    (whole : pages.length ≤ loops)
    (enough : (pages.flatten.filterMap (client.shown states)).length < requests) :
    let follow := Paging.follow
      (client.request settings states hashing interpreter scope loops limits) requests none
    (Scans.Within (client.shown states) settings.maxSchedules limits pages.flatten →
      follow = some (.ok (pages.flatten.filterMap (client.shown states)))) ∧
    (¬ Scans.Within (client.shown states) settings.maxSchedules limits pages.flatten →
      follow = some (.error collectionBeyondBound)) ∧
    (pages.flatten.length ≤ settings.maxSchedules →
      Scans.Within (client.shown states) settings.maxSchedules limits pages.flatten) := by
  obtain ⟨page, rest, rfl⟩ := served.exists_page
  have begins : client.BeginsAt settings states hashing interpreter scope loops (limits 0) limits
      none 0 (page :: rest).flatten :=
    ⟨rfl, ⟨none, 0, limits 0⟩, rfl, rfl, Option.some_ne_none _ ∘ Eq.symm,
      fun token present => absurd present (Option.not_mem_none token),
      ⟨page, rest, served, Nat.zero_le _, rfl, whole⟩, readable⟩
  have listing := @Scans.follow_scans _ _ _ _ (client.shown states) limits settings.maxSchedules
    (client.request settings states hashing interpreter scope loops limits) collectionBeyondBound
    (client.BeginsAt settings states hashing interpreter scope loops (limits 0) limits)
    (fun k => (valid k).1)
    (fun cursor number rest begins =>
      ScheduleClient.request_answers valid (valid 0) deep reads begins)
    requests none 0 _ begins enough
  simp only [Nat.zero_add] at listing
  exact ⟨listing.1, listing.2, Scans.within_of_length_le⟩

end Listing

/-! ## Two scheduled starts -/

/-- A reminder that was canceled. -/
def withdrawnReminder : ScheduledStartProjectionRecord :=
  .canceled ⟨{ reminder.toScheduledStartRecordBase with scheduledStartId := "withdrawn" }, 15⟩

/-- A scheduled start and a canceled one, on two pages. -/
def twoStarts : ScheduleClient ScheduledStartProjectionRecord ScheduledStartProjectionRecord where
  listPage size token :=
    if size = 1 then
      if token = none then some ([.pending reminder], some [1])
      else if token = some [1] then some ([withdrawnReminder], none)
      else none
    else none
  describe := some
  recordFromDescription := some

theorem twoStarts_serves :
    twoStarts.Serves 1 none [[.pending reminder], [withdrawnReminder]] :=
  .more rfl (le_refl 1) (List.cons_ne_nil _ _) (by decide) (.last rfl (le_refl 1))

theorem twoStarts_readable (record : ScheduledStartProjectionRecord) :
    twoStarts.Readable record :=
  ⟨record, record, rfl, rfl⟩

/-- The positions behind the first entry, on the second page, and behind its entry. -/
def issuedPositions : List ScheduledStartListPosition :=
  [⟨none, 1, 1⟩, ⟨some [1], 0, 1⟩, ⟨some [1], 1, 1⟩]

theorem mem_issuedPositions {loops : Nat} {position : ScheduledStartListPosition}
    {rest : List ScheduledStartProjectionRecord} (continuing : position.Continuing 100)
    (size : position.pageSize = 1) (stands : twoStarts.Stands loops position rest) :
    position ∈ issuedPositions := by
  obtain ⟨token, offset, pageSize⟩ := position
  obtain rfl : pageSize = 1 := size
  obtain ⟨page, pages, served, -⟩ := stands
  obtain ⟨_, next, fetched⟩ := served.exists_next
  have inside : offset ≤ 1 := continuing.offset
  have onward : token = none → offset ≠ 0 := continuing.onward
  have tokens : token = none ∨ token = some [1] := by
    by_contra none_
    rw [not_or] at none_
    simp only [twoStarts, if_true, if_neg none_.1, if_neg none_.2] at fetched
    cases fetched
  obtain rfl | rfl := Nat.le_one_iff_eq_zero_or_eq_one.mp inside
  · obtain rfl | rfl := tokens
    · exact absurd rfl (onward rfl)
    · decide
  · obtain rfl | rfl := tokens <;> decide

/-- An interpreter that reads the documents of a list. -/
def readerOfAll (values : List JsonValue) : JsonInterpreter :=
  { readerOf .null with
    loads := fun payload =>
      match values.find? fun value => payload = utf8 (Hashing.canonicalText value) with
      | some value => .ok (.ofJson value.wire)
      | none => .error .decodeError }

theorem readsBack_readerOfAll {values : List JsonValue} {value : JsonValue}
    (apart : (values.map fun value => utf8 (Hashing.canonicalText value)).Nodup)
    (h : value ∈ values) : (readerOfAll values).ReadsBack value := by
  have found : values.find? (fun other => utf8 (Hashing.canonicalText value) =
      utf8 (Hashing.canonicalText other)) = some value := by
    induction values with
    | nil => cases h
    | cons first rest ih =>
        rw [List.map_cons, List.nodup_cons] at apart
        rcases List.mem_cons.mp h with rfl | later
        · exact List.find?_cons_of_pos (by simp)
        · have other : utf8 (Hashing.canonicalText value) ≠ utf8 (Hashing.canonicalText first) :=
            fun same => apart.1 (same ▸ List.mem_map_of_mem later)
          rw [List.find?_cons_of_neg (by simpa using other)]
          exact ih apart.2 later
  simp only [JsonInterpreter.ReadsBack, readerOfAll, found]

def issuedCursors : List JsonValue :=
  issuedPositions.map fun position =>
    cursorValue (localRuntimeScope.digest lengthHash) (position.modelDump none)

def defaultListSettings : ScheduledStartListSettings where

/-- Both are listed, on two pages. -/
theorem list_complete_two :
    Paging.follow (twoStarts.request defaultListSettings none lengthHash
      (readerOfAll issuedCursors) localRuntimeScope 2 fun _ => 1) 3 none =
        some (.ok [ScheduledStartProjectionRecord.describe (.pending reminder),
          withdrawnReminder.describe]) := by
  have apart : (issuedCursors.map fun value => utf8 (Hashing.canonicalText value)).Nodup := by
    decide +kernel
  have complete := @list_complete _ _ twoStarts defaultListSettings none lengthHash
    (readerOfAll issuedCursors) localRuntimeScope (by decide) (fun _ => 1) 2
    (fun position rest continuing size stands => readsBack_readerOfAll apart
      (List.mem_map_of_mem (mem_issuedPositions continuing size stands)))
    (fun _ => by decide) _ twoStarts_serves (fun record _ => twoStarts_readable record) 3
    (by decide) (by decide)
  exact complete.1 (complete.2.2 (by decide))

/-- A collection of two, of which each request may look at one. -/
def tightListSettings : ScheduledStartListSettings where
  maxSchedules := 1

/-- Whoever asks for canceled starts gets no page: the one canceled start comes second, and a
request may look at one entry only. -/
theorem sparse_filter_refused :
    twoStarts.Serves 1 none [[.pending reminder], [withdrawnReminder]] ∧
    (∀ record, twoStarts.Readable record) ∧
    [.pending reminder, withdrawnReminder].filterMap (twoStarts.shown (some {.canceled})) =
      [withdrawnReminder.describe] ∧
    ∀ interpreter requests, Paging.follow (twoStarts.request tightListSettings
      (some {.canceled}) lengthHash interpreter localRuntimeScope 2 fun _ => 1) (requests + 1)
        none = some (.error collectionBeyondBound) := by
  refine ⟨twoStarts_serves, twoStarts_readable, by decide, fun interpreter requests => ?_⟩
  have first : twoStarts.request tightListSettings (some {.canceled}) lengthHash interpreter
      localRuntimeScope 2 (fun _ => 1) none = .error collectionBeyondBound := rfl
  rw [Paging.follow, first]

end Justflow
