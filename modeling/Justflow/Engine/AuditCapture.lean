import Justflow.Library.Decimals
import Justflow.Engine.FailureRecords

/-!
# Audit capture

What is archived of a record: its metadata, the record with the values at some JSON pointers
replaced, or the record as it is.  Pointers are applied one after another; `redactAll` replaces
everything that some pointer matches in one pass, and `redactPaths_eq` relates the two.
-/

open Fields

namespace Justflow

def redactedValue : JsonValue := .str "[REDACTED]"

def payloadFields : List String := ["params", "globals", "input", "output", "result", "message"]

def stepMetadataFields : List String :=
  ["seq", "status", "started_at", "duration_ms", "condition", "then", "signal", "sleep_sec",
    "attempts", "cache", "items_total", "items_failed", "code"]

def failureMetadataFields : List String := ["step", "code", "cause_code"]

def auditRedactableRoots : List String := ["params", "steps", "result", "error", "failures"]
def auditStepPayloadFields : List String := ["globals", "input", "output", "message"]

/-! ## Pointers -/

/-- Every occurrence of two characters is replaced by one. -/
def replacePair (first second replacement : Char) : List Char → List Char
  | c :: d :: rest =>
      if c = first ∧ d = second then replacement :: replacePair first second replacement rest
      else c :: replacePair first second replacement (d :: rest)
  | rest => rest

def decodeToken (token : List Char) : String :=
  String.ofList (replacePair '~' '0' '~' (replacePair '~' '1' '/' token))

/-- `_pointer_tokens`. -/
def pointerTokens (pointer : String) : Option (List String) :=
  match pointer.toList with
  | '/' :: rest => some ((rest.splitOn '/').map decodeToken)
  | _ => none

/-- Every `~` begins an escape. -/
def validEscapes : List Char → Bool
  | '~' :: '0' :: rest | '~' :: '1' :: rest => validEscapes rest
  | '~' :: _ => false
  | _ :: rest => validEscapes rest
  | [] => true

/-- What the tokens of a redaction path may target. -/
def redactable (tokens : List String) : Bool :=
  match tokens with
  | [] => false
  | root :: rest =>
      auditRedactableRoots.contains root &&
      (root != "steps" || match rest with
        | _ :: field :: _ => auditStepPayloadFields.contains field
        | _ => false) &&
      (root != "error" || rest.head? == some "message") &&
      (root != "failures" || match rest with
        | _ :: field :: _ => field == "message"
        | _ => false)

def acceptedPath (path : String) : Bool :=
  validEscapes path.toList && match pointerTokens path with
    | some tokens => redactable tokens
    | none => false

/-- `RedactedAuditCapture`, with its validated paths. -/
structure RedactedAuditCapture where
  paths : List String
  maxPayloadBytes : Nat
  accepted : paths.all acceptedPath = true
  distinct : paths.Nodup

inductive AuditCaptureConfig where
  | metadataOnly
  | redacted (capture : RedactedAuditCapture)
  | approvedFull (maxPayloadBytes : Nat)

def AuditCaptureConfig.mode : AuditCaptureConfig → String
  | .metadataOnly => "metadata-only"
  | .redacted _ => "redacted"
  | .approvedFull _ => "approved-full"

/-! ## Redaction -/

/-- `_redact_at`. -/
def redactAt : List String → JsonValue → JsonValue
  | [], _ => redactedValue
  | token :: remaining, .obj fields =>
      if token = "*" then .obj (fields.map fun e => (e.1, redactAt remaining e.2))
      else .obj (fields.map fun e => (e.1, if e.1 = token then redactAt remaining e.2 else e.2))
  | token :: remaining, .arr items =>
      if token = "*" then .arr (items.map (redactAt remaining))
      else match readInteger token with
        | none => .arr items
        | some index =>
            if index < 0 ∨ items.length ≤ index then .arr items
            else .arr (items.mapIdx fun position item =>
              if (position : Int) = index then redactAt remaining item else item)
  | _ :: _, value => value

inductive AuditCaptureError where
  | pointer
  | tooLarge (actual limit : Nat)

def AuditCaptureError.text : AuditCaptureError → String
  | .pointer => "Redaction paths must be JSON Pointers beginning with '/'"
  | .tooLarge actual limit =>
      s!"Captured audit payload is {actual} bytes; configured maximum is {limit}"

/-- `_redact_pointer`. -/
def redactPointer (document : JsonValue) (pointer : String) : Except AuditCaptureError JsonValue :=
  match pointerTokens pointer with
  | some tokens => .ok (redactAt tokens document)
  | none => .error .pointer

def redactPaths (paths : List String) (document : JsonValue) :
    Except AuditCaptureError JsonValue :=
  paths.foldlM redactPointer document

/-! ## Metadata -/

/-- The members of an object that are kept. -/
def keepFields (keep : String → Bool) (fields : JsonObject) : JsonObject :=
  fields.filter fun e => keep e.1

/-- The objects of a list, with the members that are kept. -/
def keepItems (keep : String → Bool) (items : List JsonValue) : List JsonValue :=
  items.filterMap fun item => match item with
    | .obj fields => some (.obj (keepFields keep fields))
    | _ => none

def keepsFailure (key : String) : Bool :=
  failureMetadataFields.contains key

def keepsError (key : String) : Bool :=
  keepsFailure key || ["category", "phase", "retryable"].contains key

/-- A list of failures, under its key. -/
def captureList (keep : String → Bool) (key : String) (record : JsonObject) : JsonObject :=
  match record.lookup key with
  | some (.arr items) => [(key, .arr (keepItems keep items))]
  | _ => []

/-- `_metadata_only`. -/
def metadataOnly (record : JsonObject) : JsonObject :=
  keepFields
      (fun key => !(["params", "steps", "error", "failures", "result", "secondary"].contains key))
      record
    ++ (match record.lookup "steps" with
      | some (.obj entries) => [("steps", .obj (entries.filterMap fun e => match e.2 with
          | .obj fields => some (e.1, .obj (keepFields stepMetadataFields.contains fields))
          | _ => none))]
      | some (.arr items) => [("steps", .arr items)]
      | _ => [])
    ++ (match record.lookup "error" with
      | some (.obj fields) => [("error", .obj (keepFields keepsError fields))]
      | _ => [])
    ++ captureList keepsFailure "failures" record
    ++ captureList keepsError "secondary" record

/-! ## Capture -/

mutual

/-- `_collect_payloads`. -/
def collectPayloads : JsonValue → List JsonValue
  | .obj fields => collectFields fields
  | .arr items => collectItems items
  | _ => []

def collectItems : List JsonValue → List JsonValue
  | [] => []
  | item :: rest => collectPayloads item ++ collectItems rest

def collectFields : List (String × JsonValue) → List JsonValue
  | [] => []
  | (key, item) :: rest =>
      (if payloadFields.contains key then [item] else collectPayloads item) ++ collectFields rest

end

def enforcePayloadLimit (record : JsonValue) (limit : Nat) : Except AuditCaptureError Unit :=
  let actual := (JsonValue.arr (collectPayloads record)).canonicalBytes
  if limit < actual then .error (.tooLarge actual limit) else .ok ()

/-- The marks of every captured record. -/
def captureMarks (capture : AuditCaptureConfig) (record : JsonObject) : JsonObject :=
  set "serialization_version" (.int strictJsonVersion)
    (set "capture_mode" (.str capture.mode) record)

/-- `capture_audit_record`. -/
def captureAuditRecord (record : JsonObject) (capture : AuditCaptureConfig) :
    Except AuditCaptureError JsonObject :=
  match capture with
  | .metadataOnly => .ok (captureMarks capture (metadataOnly record))
  | .approvedFull maxPayloadBytes => do
      enforcePayloadLimit (.obj record) maxPayloadBytes
      return captureMarks capture record
  | .redacted config => do
      let captured ← redactPaths config.paths (.obj record)
      enforcePayloadLimit captured config.maxPayloadBytes
      -- The tokens of a path are never empty, so that what was an object is one.
      return captureMarks capture (captured.asObj.getD [])

/-! ## Locations -/

/-- One step down into a value. -/
inductive LocationStep where
  | key (name : String)
  | index (position : Nat)
  deriving DecidableEq, Repr

/-- The member that a step leads to. -/
def memberAt : JsonValue → LocationStep → Option JsonValue
  | .obj fields, .key name => fields.lookup name
  | .arr items, .index position => items[position]?
  | _, _ => none

/-- The value at a location. -/
def locate (value : JsonValue) : List LocationStep → Option JsonValue
  | [] => some value
  | step :: rest => (memberAt value step).bind fun member => locate member rest

def tokenMatches (token : String) : LocationStep → Bool
  | .key name => token = "*" || token = name
  | .index position => token = "*" || readInteger token = some (position : Int)

/-- Some pointer leads to the location. -/
def Matched (pointers : List (List String)) (location : List LocationStep) : Prop :=
  ∃ tokens ∈ pointers,
    List.Forall₂ (fun token step => tokenMatches token step = true) tokens location

/-- A value without what is inside its members. -/
def outline : JsonValue → JsonValue
  | .obj fields => .obj (fields.map fun e => (e.1, .null))
  | .arr items => .arr (items.map fun _ => .null)
  | value => value

/-- What the pointers say about a member. -/
def pointersAfter (pointers : List (List String)) (step : LocationStep) : List (List String) :=
  pointers.filterMap fun tokens => match tokens with
    | token :: remaining => if tokenMatches token step then some remaining else none
    | [] => none

mutual

/-- Replace everything that some pointer matches. -/
def redactAll (pointers : List (List String)) : JsonValue → JsonValue
  | .obj fields =>
      if [] ∈ pointers then redactedValue else .obj (redactFields pointers fields)
  | .arr items =>
      if [] ∈ pointers then redactedValue else .arr (redactItems pointers 0 items)
  | .null => if [] ∈ pointers then redactedValue else .null
  | .bool b => if [] ∈ pointers then redactedValue else .bool b
  | .int n => if [] ∈ pointers then redactedValue else .int n
  | .float f => if [] ∈ pointers then redactedValue else .float f
  | .str s => if [] ∈ pointers then redactedValue else .str s

def redactItems (pointers : List (List String)) (position : Nat) :
    List JsonValue → List JsonValue
  | [] => []
  | item :: rest =>
      redactAll (pointersAfter pointers (.index position)) item ::
        redactItems pointers (position + 1) rest

def redactFields (pointers : List (List String)) :
    List (String × JsonValue) → List (String × JsonValue)
  | [] => []
  | (key, item) :: rest =>
      (key, redactAll (pointersAfter pointers (.key key)) item) :: redactFields pointers rest

end

/-! ## One pass -/

section OnePass

variable {pointers : List (List String)}

theorem mem_pointersAfter {step : LocationStep} {tokens : List String} :
    tokens ∈ pointersAfter pointers step ↔
      ∃ token, token :: tokens ∈ pointers ∧ tokenMatches token step = true := by
  rw [pointersAfter, List.mem_filterMap]
  constructor
  · rintro ⟨own, mem, same⟩
    cases own with
    | nil => cases same
    | cons token remaining =>
        by_cases matching : tokenMatches token step = true
        · simp only [if_pos matching, Option.some.injEq] at same
          exact ⟨token, same ▸ mem, matching⟩
        · simp only [if_neg matching] at same
          cases same
  · rintro ⟨token, mem, matching⟩
    exact ⟨token :: tokens, mem, if_pos matching⟩

theorem redactItems_eq (position : Nat) (items : List JsonValue) :
    redactItems pointers position items = items.mapIdx fun i item =>
      redactAll (pointersAfter pointers (.index (position + i))) item := by
  induction items generalizing position with
  | nil => rfl
  | cons item rest ih =>
      rw [redactItems, ih, List.mapIdx_cons]
      simp only [Nat.add_zero, Nat.add_assoc, Nat.add_comm 1]

theorem redactFields_eq (fields : JsonObject) :
    redactFields pointers fields = fields.map fun e =>
      (e.1, redactAll (pointersAfter pointers (.key e.1)) e.2) := by
  induction fields with
  | nil => rfl
  | cons e rest ih => rw [redactFields, ih, List.map_cons]

theorem redactAll_of_nil_mem (all : [] ∈ pointers) (value : JsonValue) :
    redactAll pointers value = redactedValue := by
  cases value <;> rw [redactAll, if_pos all]

variable (inside : [] ∉ pointers)

include inside

theorem redactAll_arr (items : List JsonValue) :
    redactAll pointers (.arr items) = .arr (items.mapIdx fun position item =>
      redactAll (pointersAfter pointers (.index position)) item) := by
  rw [redactAll, if_neg inside, redactItems_eq]
  simp only [Nat.zero_add]

theorem redactAll_obj (fields : JsonObject) :
    redactAll pointers (.obj fields) = .obj (fields.map fun e =>
      (e.1, redactAll (pointersAfter pointers (.key e.1)) e.2)) := by
  rw [redactAll, if_neg inside, redactFields_eq]

omit inside in
theorem lookup_map_entry (f : String → JsonValue → JsonValue) (key : String) (fields : JsonObject) :
    (fields.map fun e => (e.1, f e.1 e.2)).lookup key = (fields.lookup key).map (f key) := by
  induction fields with
  | nil => rfl
  | cons e rest ih =>
      obtain ⟨name, value⟩ := e
      rw [List.map_cons, List.lookup_cons, List.lookup_cons]
      by_cases same : key = name
      · subst same
        simp
      · rw [beq_false_of_ne same]
        exact ih

/-- The members of a redacted value. -/
theorem memberAt_redactAll (value : JsonValue) (step : LocationStep) :
    memberAt (redactAll pointers value) step =
      (memberAt value step).map (redactAll (pointersAfter pointers step)) := by
  cases value with
  | obj fields =>
      rw [redactAll_obj inside]
      cases step with
      | key name =>
          exact lookup_map_entry (fun key => redactAll (pointersAfter pointers (.key key))) name
            fields
      | index position => rfl
  | arr items =>
      rw [redactAll_arr inside]
      cases step with
      | key name => rfl
      | index position => exact List.getElem?_mapIdx ..
  | null | bool | int | float | str =>
      rw [redactAll, if_neg inside]
      cases step <;> rfl

theorem outline_redactAll (value : JsonValue) :
    outline (redactAll pointers value) = outline value := by
  cases value with
  | obj fields =>
      rw [redactAll_obj inside, outline, outline, List.map_map]
      rfl
  | arr items =>
      rw [redactAll_arr inside, outline, outline]
      congr 1
      apply List.ext_getElem
      · simp
      · simp
  | null | bool | int | float | str => rw [redactAll, if_neg inside]

end OnePass

/-! ## Pointer by pointer -/

theorem redactAt_obj (token : String) (remaining : List String) (fields : JsonObject) :
    redactAt (token :: remaining) (.obj fields) = .obj (fields.map fun e =>
      (e.1, if tokenMatches token (.key e.1) then redactAt remaining e.2 else e.2)) := by
  rw [redactAt]
  by_cases wildcard : token = "*"
  · simp [wildcard, tokenMatches]
  · rw [if_neg wildcard]
    simp only [tokenMatches, wildcard, decide_false, Bool.false_or, decide_eq_true_eq]
    congr 2
    funext e
    simp only [eq_comm]

theorem mapIdx_eq_map {α β : Type} (f : α → β) (items : List α) :
    (items.mapIdx fun _ item => f item) = items.map f := by
  apply List.ext_getElem
  · simp
  · simp

theorem redactAt_arr (token : String) (remaining : List String) (items : List JsonValue) :
    redactAt (token :: remaining) (.arr items) = .arr (items.mapIdx fun position item =>
      if tokenMatches token (.index position) then redactAt remaining item else item) := by
  rw [redactAt]
  by_cases wildcard : token = "*"
  · simp [wildcard, tokenMatches, mapIdx_eq_map]
  · rw [if_neg wildcard]
    simp only [tokenMatches, wildcard, decide_false, Bool.false_or, decide_eq_true_eq]
    cases read : readInteger token with
    | none => simp [mapIdx_eq_map]
    | some index =>
        simp only [Option.some.injEq]
        by_cases outside : index < 0 ∨ (items.length : Int) ≤ index
        · rw [if_pos outside]
          congr 1
          apply List.ext_getElem
          · simp
          · intro position bound _
            have other : index ≠ position := by
              rintro rfl
              omega
            simp [other]
        · rw [if_neg outside]
          congr 2
          funext position item
          simp only [eq_comm]

theorem redactAll_nil (pointers : List (List String)) :
    redactAll pointers redactedValue = redactedValue := by
  rw [redactedValue, redactAll]
  split_ifs
  · rfl
  · rfl

theorem pointersAfter_cons (token : String) (remaining : List String)
    (pointers : List (List String)) (step : LocationStep) :
    pointersAfter ((token :: remaining) :: pointers) step =
      if tokenMatches token step then remaining :: pointersAfter pointers step
      else pointersAfter pointers step := by
  rw [pointersAfter, List.filterMap_cons]
  by_cases matching : tokenMatches token step = true
  · simp [matching, pointersAfter]
  · simp [matching, pointersAfter]

/-- A pointer that is applied first is one more pointer of the pass. -/
theorem redactAll_redactAt (tokens : List String) (pointers : List (List String))
    (value : JsonValue) :
    redactAll pointers (redactAt tokens value) = redactAll (tokens :: pointers) value := by
  induction value generalizing tokens pointers with
  | obj fields ih =>
      cases tokens with
      | nil =>
          rw [redactAt, redactAll_nil, redactAll_of_nil_mem (List.mem_cons_self ..)]
      | cons token remaining =>
          by_cases whole : [] ∈ pointers
          · rw [redactAll_of_nil_mem whole, redactAll_of_nil_mem (List.mem_cons_of_mem _ whole)]
          · have inside : [] ∉ (token :: remaining) :: pointers := by simpa using whole
            rw [redactAt_obj, redactAll_obj whole, redactAll_obj inside, List.map_map]
            congr 1
            refine List.map_congr_left fun e mem => ?_
            rw [Function.comp_apply, pointersAfter_cons]
            split_ifs
            · rw [ih e mem]
            · rfl
  | arr items ih =>
      cases tokens with
      | nil =>
          rw [redactAt, redactAll_nil, redactAll_of_nil_mem (List.mem_cons_self ..)]
      | cons token remaining =>
          by_cases whole : [] ∈ pointers
          · rw [redactAll_of_nil_mem whole, redactAll_of_nil_mem (List.mem_cons_of_mem _ whole)]
          · have inside : [] ∉ (token :: remaining) :: pointers := by simpa using whole
            rw [redactAt_arr, redactAll_arr whole, redactAll_arr inside]
            congr 1
            apply List.ext_getElem
            · simp
            · intro position bound _
              simp only [List.getElem_mapIdx, pointersAfter_cons]
              split_ifs
              · exact ih _ (List.getElem_mem _) ..
              · rfl
  | null | bool | int | float | str =>
      cases tokens with
      | nil =>
          rw [redactAt, redactAll_nil, redactAll_of_nil_mem (List.mem_cons_self ..)]
      | cons token remaining => simp [redactAt, redactAll]

theorem pointersAfter_congr {first second : List (List String)}
    (same : ∀ tokens, tokens ∈ first ↔ tokens ∈ second) (step : LocationStep) :
    ∀ tokens, tokens ∈ pointersAfter first step ↔ tokens ∈ pointersAfter second step := by
  intro tokens
  simp only [mem_pointersAfter, same]

/-- The pass does not see the order of the pointers, nor how often each is there. -/
theorem redactAll_congr {first second : List (List String)}
    (same : ∀ tokens, tokens ∈ first ↔ tokens ∈ second) (value : JsonValue) :
    redactAll first value = redactAll second value := by
  induction value generalizing first second with
  | obj fields ih =>
      by_cases whole : [] ∈ first
      · rw [redactAll_of_nil_mem whole, redactAll_of_nil_mem ((same _).mp whole)]
      · rw [redactAll_obj whole, redactAll_obj fun mem => whole ((same _).mpr mem)]
        congr 1
        refine List.map_congr_left fun e mem => ?_
        rw [ih e mem (pointersAfter_congr same _)]
  | arr items ih =>
      by_cases whole : [] ∈ first
      · rw [redactAll_of_nil_mem whole, redactAll_of_nil_mem ((same _).mp whole)]
      · rw [redactAll_arr whole, redactAll_arr fun mem => whole ((same _).mpr mem)]
        congr 1
        apply List.ext_getElem
        · simp
        · intro position bound _
          simp only [List.getElem_mapIdx]
          exact ih _ (List.getElem_mem _) (pointersAfter_congr same _)
  | null | bool | int | float | str => simp only [redactAll, same]

theorem redactAll_empty (value : JsonValue) : redactAll [] value = value := by
  induction value with
  | obj fields ih =>
      rw [redactAll_obj (List.not_mem_nil)]
      congr 1
      conv_rhs => rw [← List.map_id fields]
      refine List.map_congr_left fun e mem => ?_
      change (e.1, redactAll [] e.2) = e
      rw [ih e mem]
  | arr items ih =>
      rw [redactAll_arr (List.not_mem_nil)]
      congr 1
      apply List.ext_getElem
      · simp
      · intro position bound _
        rw [List.getElem_mapIdx]
        exact ih _ (List.getElem_mem _)
  | null | bool | int | float | str => simp [redactAll]

/-- The tokens of the paths. -/
def pathTokens (paths : List String) : List (List String) :=
  paths.filterMap pointerTokens

theorem pointerTokens_of_accepted {path : String} (accepted : acceptedPath path = true) :
    ∃ tokens, pointerTokens path = some tokens := by
  rw [acceptedPath, Bool.and_eq_true] at accepted
  cases read : pointerTokens path with
  | none =>
      rw [read] at accepted
      cases accepted.2
  | some tokens => exact ⟨tokens, rfl⟩

/-- Applying accepted paths one after another is one pass. -/
theorem redactPaths_eq {paths : List String} (accepted : paths.all acceptedPath = true)
    (value : JsonValue) : redactPaths paths value = .ok (redactAll (pathTokens paths) value) := by
  induction paths generalizing value with
  | nil => exact congrArg Except.ok (redactAll_empty value).symm
  | cons path rest ih =>
      rw [List.all_cons, Bool.and_eq_true] at accepted
      obtain ⟨tokens, read⟩ := pointerTokens_of_accepted accepted.1
      have applied : redactPointer value path = .ok (redactAt tokens value) := by
        rw [redactPointer, read]
      have all : pathTokens (path :: rest) = tokens :: pathTokens rest := by
        rw [pathTokens, List.filterMap_cons, read]
        rfl
      rw [redactPaths, List.foldlM_cons, applied, all, ← redactAll_redactAt]
      exact ih accepted.2 _

/-! ## Locations of a redacted value -/

/-- A matched location is inside a replacement. -/
theorem inside_of_matched {pointers : List (List String)} {location : List LocationStep}
    {value found : JsonValue} (there : locate value location = some found)
    (matched : Matched pointers location) :
    ∃ front, front <+: location ∧ Matched pointers front ∧
      locate (redactAll pointers value) front = some redactedValue := by
  induction location generalizing pointers value with
  | nil =>
      obtain ⟨tokens, mem, related⟩ := matched
      cases related
      exact ⟨[], List.nil_prefix, ⟨[], mem, .nil⟩, congrArg some (redactAll_of_nil_mem mem _)⟩
  | cons step rest ih =>
      by_cases whole : [] ∈ pointers
      · exact ⟨[], List.nil_prefix, ⟨[], whole, .nil⟩,
          congrArg some (redactAll_of_nil_mem whole _)⟩
      · obtain ⟨tokens, mem, related⟩ := matched
        cases related with
        | cons matching tail =>
            rw [locate, Option.bind_eq_some_iff] at there
            obtain ⟨member, hmember, below⟩ := there
            obtain ⟨front, hfront, ⟨own, ownMem, ownRelated⟩, replaced⟩ :=
              ih below ⟨_, mem_pointersAfter.mpr ⟨_, mem, matching⟩, tail⟩
            obtain ⟨token, tokenMem, tokenMatching⟩ := mem_pointersAfter.mp ownMem
            refine ⟨step :: front, List.cons_prefix_cons.mpr ⟨rfl, hfront⟩,
              ⟨_, tokenMem, .cons tokenMatching ownRelated⟩, ?_⟩
            rw [locate, memberAt_redactAll whole, hmember]
            exact replaced

theorem matched_cons {pointers : List (List String)} {step : LocationStep}
    {location : List LocationStep} (matched : Matched (pointersAfter pointers step) location) :
    Matched pointers (step :: location) := by
  obtain ⟨tokens, mem, related⟩ := matched
  obtain ⟨token, tokenMem, matching⟩ := mem_pointersAfter.mp mem
  exact ⟨_, tokenMem, .cons matching related⟩

theorem nil_not_mem_of_unmatched {pointers : List (List String)}
    (unmatched : ¬ Matched pointers []) : [] ∉ pointers :=
  fun mem => unmatched ⟨[], mem, .nil⟩

/-- Where nothing on the way is matched, only what is below may change. -/
theorem outline_of_unmatched {pointers : List (List String)} {location : List LocationStep}
    {value : JsonValue} (unmatched : ∀ front, front <+: location → ¬ Matched pointers front) :
    (locate (redactAll pointers value) location).map outline =
      (locate value location).map outline := by
  have inside := nil_not_mem_of_unmatched (unmatched [] List.nil_prefix)
  induction location generalizing pointers value with
  | nil => exact congrArg some (outline_redactAll inside value)
  | cons step rest ih =>
      rw [locate, locate, memberAt_redactAll inside]
      cases memberAt value step with
      | none => rfl
      | some member =>
          have below : ∀ front, front <+: rest → ¬ Matched (pointersAfter pointers step) front :=
            fun front hfront matched => unmatched (step :: front)
              (List.cons_prefix_cons.mpr ⟨rfl, hfront⟩) (matched_cons matched)
          exact ih below (nil_not_mem_of_unmatched (below [] List.nil_prefix))

/-- Every pointer leads somewhere. -/
theorem matched_of_mem {pointers : List (List String)} {tokens : List String}
    (mem : tokens ∈ pointers) : Matched pointers (tokens.map .key) := by
  refine ⟨tokens, mem, List.forall₂_map_right_iff.mpr (List.forall₂_same.mpr fun token _ => ?_)⟩
  simp [tokenMatches]

/-- Where nothing on the way and nothing below is matched, the value is kept. -/
theorem locate_of_unmatched {pointers : List (List String)} {location : List LocationStep}
    {value : JsonValue} (unmatched : ∀ front, front <+: location → ¬ Matched pointers front)
    (clear : ∀ below, ¬ Matched pointers (location ++ below)) :
    locate (redactAll pointers value) location = locate value location := by
  induction location generalizing pointers value with
  | nil =>
      have none : pointers = [] := by
        refine List.eq_nil_iff_forall_not_mem.mpr fun tokens mem => ?_
        exact clear _ (matched_of_mem mem)
      rw [none, redactAll_empty]
  | cons step rest ih =>
      have inside := nil_not_mem_of_unmatched (unmatched [] List.nil_prefix)
      rw [locate, locate, memberAt_redactAll inside]
      cases memberAt value step with
      | none => rfl
      | some member =>
          refine ih (fun front hfront matched => ?_) fun below matched => ?_
          · exact unmatched (step :: front) (List.cons_prefix_cons.mpr ⟨rfl, hfront⟩)
              (matched_cons matched)
          · exact clear below (matched_cons matched)

/-- Redaction by accepted paths: their order and a second redaction change nothing, what a path
matches is inside a replacement, and everything else is as it was. -/
theorem redaction_exact (capture : RedactedAuditCapture) (record : JsonValue) :
    ∃ redacted, redactPaths capture.paths record = .ok redacted ∧
      (∀ paths : List String, paths.Perm capture.paths → redactPaths paths record = .ok redacted) ∧
      redactPaths capture.paths redacted = .ok redacted ∧
      (∀ location, (locate record location).isSome → Matched (pathTokens capture.paths) location →
        ∃ front, front <+: location ∧ Matched (pathTokens capture.paths) front ∧
          locate redacted front = some redactedValue) ∧
      ∀ location,
        (∀ front, front <+: location → ¬ Matched (pathTokens capture.paths) front) →
        (locate redacted location).map outline = (locate record location).map outline ∧
          ((∀ below, ¬ Matched (pathTokens capture.paths) (location ++ below)) →
            locate redacted location = locate record location) := by
  refine ⟨redactAll (pathTokens capture.paths) record, redactPaths_eq capture.accepted record,
    fun paths perm => ?_, ?_, fun location there matched => ?_, fun location unmatched => ?_⟩
  · have accepted : paths.all acceptedPath = true := by
      rw [List.all_eq_true] at *
      exact fun path mem => List.all_eq_true.mp capture.accepted path (perm.mem_iff.mp mem)
    rw [redactPaths_eq accepted]
    exact congrArg Except.ok (redactAll_congr (fun _ => (perm.filterMap _).mem_iff) record)
  · have twice : ∀ paths : List String, paths.all acceptedPath = true → ∀ value,
        redactPaths capture.paths value >>= redactPaths paths =
          redactPaths (capture.paths ++ paths) value := by
      intro paths accepted value
      rw [redactPaths, redactPaths, List.foldlM_append]
      rfl
    have both := twice capture.paths capture.accepted record
    rw [redactPaths_eq capture.accepted, redactPaths_eq (by simp [capture.accepted])] at both
    rw [show redactPaths capture.paths _ = _ from both]
    refine congrArg Except.ok (redactAll_congr (fun tokens => ?_) record)
    rw [pathTokens, List.filterMap_append, List.mem_append, or_self]
    rfl
  · obtain ⟨found, h⟩ := Option.isSome_iff_exists.mp there
    exact inside_of_matched h matched
  · exact ⟨outline_of_unmatched unmatched, locate_of_unmatched unmatched⟩

/-! ## Records that differ in payload content -/

def StepAuditEntry.withoutPayload (self : StepAuditEntry) : StepAuditEntry :=
  { self with globals := none, input := none, output := none, message := none }

def StepFailure.withoutPayload (self : StepFailure) : StepFailure :=
  { self with message := "" }

def FailureDetail.withoutPayload (self : FailureDetail) : FailureDetail :=
  { self with message := "" }

/-- The recorded entries of two steps with the same metadata. -/
def SameMetadata (first second : String × JsonObject) : Prop :=
  first.1 = second.1 ∧ ∃ entry other : StepAuditEntry,
    first.2 = entry.dump ∧ second.2 = other.dump ∧ entry.withoutPayload = other.withoutPayload

/-- Records of runs that differ in parameters, in what steps got and gave, in the result and in
the messages of failures. -/
structure AuditRecord.DifferInPayload (first second : AuditRecord) : Prop where
  requestId : first.requestId = second.requestId
  workflow : first.workflow = second.workflow
  identity : first.identity = second.identity
  status : first.status = second.status
  reason : first.reason = second.reason
  steps : List.Forall₂ SameMetadata first.steps second.steps
  transitions : first.transitions = second.transitions
  startedAt : first.startedAt = second.startedAt
  completedAt : first.completedAt = second.completedAt
  failures : first.failures.map StepFailure.withoutPayload =
    second.failures.map StepFailure.withoutPayload

/-- Failures that differ in their messages and in what steps got and gave. -/
structure FailureReport.DifferInPayload (first second : FailureReport) : Prop where
  correlation : first.correlation = second.correlation
  startedAt : first.startedAt = second.startedAt
  failedAt : first.failedAt = second.failedAt
  classification : first.classification.withoutPayload = second.classification.withoutPayload
  secondary : first.secondary.map FailureDetail.withoutPayload =
    second.secondary.map FailureDetail.withoutPayload
  stepEntries : List.Forall₂ SameMetadata first.stepEntries second.stepEntries
  transitions : first.transitions = second.transitions

/-! ## Metadata of a record -/

section Metadata

variable (keep : String → Bool)

theorem keepFields_append (first second : JsonObject) :
    keepFields keep (first ++ second) = keepFields keep first ++ keepFields keep second :=
  List.filter_append ..

theorem keepFields_cons (key : String) (value : JsonValue) (rest : JsonObject) :
    keepFields keep ((key, value) :: rest) =
      if keep key then (key, value) :: keepFields keep rest else keepFields keep rest := by
  rw [keepFields, List.filter_cons]
  rfl

theorem keepFields_nil : keepFields keep [] = [] := rfl

theorem keepFields_dumpField {α : Type} (key : String) (f : α → JsonValue) (value : Option α) :
    keepFields keep (dumpField key f value) = if keep key then dumpField key f value else [] := by
  cases value with
  | none => simp [dumpField, keepFields_nil]
  | some a => simp [dumpField, keepFields_cons, keepFields_nil]

end Metadata

theorem lookup_dumpField {α : Type} (key name : String) (f : α → JsonValue) (value : Option α) :
    (dumpField name f value).lookup key = if key = name then value.map f else none := by
  cases value with
  | none => simp [dumpField]
  | some a =>
      by_cases same : key = name
      · simp [dumpField, same]
      · rw [dumpField, List.lookup_cons, beq_false_of_ne same, if_neg same]
        rfl

/-- Of an entry the capture keeps what is no payload. -/
theorem keepFields_entry (entry : StepAuditEntry) :
    keepFields stepMetadataFields.contains entry.dump = entry.withoutPayload.dump := by
  simp only [StepAuditEntry.dump, StepAuditEntry.withoutPayload, keepFields_append,
    keepFields_dumpField, keepFields_cons, keepFields_nil]
  rfl

/-- Of a failure the capture keeps where it was and its codes. -/
theorem keepItems_failures (failures : List StepFailure) :
    keepItems keepsFailure (failures.map StepFailure.modelDump) =
      (failures.map StepFailure.withoutPayload).map fun failure =>
        .obj [("step", .str failure.step), ("code", .str failure.code),
          ("cause_code", .str failure.causeCode)] := by
  rw [keepItems, List.filterMap_map, List.map_map, ← List.filterMap_eq_map]
  rfl

/-- The entries of the steps, with their metadata. -/
theorem filterMap_timings (steps : List (String × JsonObject)) :
    (timingsObject steps).filterMap (fun e => match e.2 with
      | .obj fields => some (e.1, JsonValue.obj (keepFields stepMetadataFields.contains fields))
      | _ => none) =
      steps.map fun e => (e.1, .obj (keepFields stepMetadataFields.contains e.2)) := by
  rw [timingsObject, List.filterMap_map, ← List.filterMap_eq_map]
  rfl

theorem map_of_sameMetadata {first second : List (String × JsonObject)}
    (same : List.Forall₂ SameMetadata first second) :
    (first.map fun e => (e.1, JsonValue.obj (keepFields stepMetadataFields.contains e.2))) =
      second.map fun e => (e.1, .obj (keepFields stepMetadataFields.contains e.2)) := by
  induction same with
  | nil => rfl
  | cons related _ ih =>
      obtain ⟨name, entry, other, first, second, metadata⟩ := related
      rw [List.map_cons, List.map_cons, ih, name, first, second, keepFields_entry,
        keepFields_entry, metadata]

namespace AuditRecord

variable (record : AuditRecord)

/-- The identity of a run has none of the fields that the capture reads. -/
theorem lookup_identity {key : String} (mem : key ∈ ["steps", "error", "failures", "secondary"]) :
    record.identity.dump.lookup key = none := by
  simp only [RunIdentity.dump, List.lookup_append, lookup_dumpField]
  simp only [List.mem_cons, List.not_mem_nil, or_false] at mem
  rcases mem with rfl | rfl | rfl | rfl
  all_goals simp

theorem lookup_steps : record.dump.lookup "steps" = some (.obj (timingsObject record.steps)) := by
  rw [dump, List.lookup_append, List.lookup_append, List.lookup_append, List.lookup_append,
    List.lookup_append, record.lookup_identity (by decide)]
  rfl

theorem lookup_error :
    record.dump.lookup "error" = record.failures.getLast?.map StepFailure.modelDump := by
  rw [dump, List.lookup_append, List.lookup_append, List.lookup_append, List.lookup_append,
    List.lookup_append, record.lookup_identity (by decide)]
  simp [lookup_dumpField, List.lookup_cons]

theorem lookup_failures : record.dump.lookup "failures" =
    if record.failures.isEmpty then none
    else some (.arr (record.failures.map StepFailure.modelDump)) := by
  rw [dump, List.lookup_append, List.lookup_append, List.lookup_append, List.lookup_append,
    List.lookup_append, record.lookup_identity (by decide)]
  by_cases empty : record.failures.isEmpty = true
  · simp [lookup_dumpField, List.lookup_cons, empty]
  · simp [lookup_dumpField, List.lookup_cons, empty]

theorem lookup_secondary : record.dump.lookup "secondary" = none := by
  rw [dump, List.lookup_append, List.lookup_append, List.lookup_append, List.lookup_append,
    List.lookup_append, record.lookup_identity (by decide)]
  simp [lookup_dumpField, List.lookup_cons]

/-- The members that the capture copies. -/
theorem keepFields_dump :
    keepFields
      (fun key => !(["params", "steps", "error", "failures", "result", "secondary"].contains key))
      record.dump =
    [("audit_version", .int auditVersion), ("serialization_version", .int strictJsonVersion),
        ("request_id", .str record.requestId), ("workflow", .str record.workflow)]
      ++ record.identity.dump
      ++ [("status", .str record.status.value), ("reason", .ofOption .str record.reason),
        ("transitions", .arr (record.transitions.map TransitionRecord.modelDump)),
        ("started_at", .str record.startedAt), ("completed_at", .str record.completedAt)] := by
  simp only [dump, RunIdentity.dump, keepFields_append, keepFields_dumpField, keepFields_cons,
    keepFields_nil]
  simp

end AuditRecord

/-- What the capture keeps of the record of a run. -/
theorem metadataOnly_audit (record : AuditRecord) :
    metadataOnly record.dump =
      [("audit_version", .int auditVersion), ("serialization_version", .int strictJsonVersion),
          ("request_id", .str record.requestId), ("workflow", .str record.workflow)]
        ++ record.identity.dump
        ++ [("status", .str record.status.value), ("reason", .ofOption .str record.reason),
          ("transitions", .arr (record.transitions.map TransitionRecord.modelDump)),
          ("started_at", .str record.startedAt), ("completed_at", .str record.completedAt)]
        ++ [("steps", .obj (record.steps.map fun e =>
          (e.1, .obj (keepFields stepMetadataFields.contains e.2))))]
        ++ (match record.failures.getLast?.map StepFailure.withoutPayload with
          | some failure => [("error", .obj [("step", .str failure.step),
              ("code", .str failure.code), ("cause_code", .str failure.causeCode)])]
          | none => [])
        ++ (if record.failures.isEmpty then [] else
          [("failures", .arr ((record.failures.map StepFailure.withoutPayload).map fun failure =>
            .obj [("step", .str failure.step), ("code", .str failure.code),
              ("cause_code", .str failure.causeCode)]))]) := by
  rw [metadataOnly, record.keepFields_dump, record.lookup_steps, record.lookup_error, captureList,
    captureList, record.lookup_failures, record.lookup_secondary]
  simp only [filterMap_timings, List.append_nil]
  refine congrArg₂ (· ++ ·) (congrArg₂ (· ++ ·) rfl ?_) ?_
  · cases record.failures.getLast? with
    | none => rfl
    | some failure => rfl
  · cases record.failures.isEmpty with
    | true => rfl
    | false =>
        simp only [Bool.false_eq_true, if_false, keepItems_failures]

theorem lookup_keepFields (keep : String → Bool) (key : String) (kept : keep key = true)
    (fields : JsonObject) : (keepFields keep fields).lookup key = fields.lookup key := by
  induction fields with
  | nil => rfl
  | cons e rest ih =>
      obtain ⟨name, value⟩ := e
      rw [keepFields_cons]
      by_cases same : key = name
      · rw [← same, if_pos kept, List.lookup_cons_self, List.lookup_cons_self]
      · rw [List.lookup_cons, beq_false_of_ne same]
        split_ifs
        · rw [List.lookup_cons, beq_false_of_ne same]
          exact ih
        · exact ih

/-- The steps of a failure record are read from the metadata of the entries. -/
theorem failureSteps_metadata (reprStr : String → String) (entries : List (String × JsonObject)) :
    failureSteps reprStr entries = failureSteps reprStr (entries.map fun e =>
      (e.1, keepFields stepMetadataFields.contains e.2)) := by
  have seq : ∀ entry : JsonObject,
      entrySeq (keepFields stepMetadataFields.contains entry) = entrySeq entry := by
    intro entry
    rw [entrySeq, entrySeq, lookup_keepFields _ _ (by decide)]
  have sorted := List.map_mergeSort (r := fun a b => entrySeq a.2 ≤ entrySeq b.2)
    (s := fun a b => entrySeq a.2 ≤ entrySeq b.2) (l := entries)
    (f := fun e : String × JsonObject => (e.1, keepFields stepMetadataFields.contains e.2))
    (fun a _ b _ => by simp only [seq])
  simp only [failureSteps, ← sorted, List.length_map, ← List.map_drop, List.map_map]
  refine List.map_congr_left fun e _ => ?_
  simp only [Function.comp, seq, lookup_keepFields stepMetadataFields.contains "status" (by decide),
    lookup_keepFields stepMetadataFields.contains "code" (by decide)]

theorem failureSteps_congr (reprStr : String → String) {first second : List (String × JsonObject)}
    (same : List.Forall₂ SameMetadata first second) :
    failureSteps reprStr first = failureSteps reprStr second := by
  rw [failureSteps_metadata reprStr first, failureSteps_metadata reprStr second]
  congr 1
  induction same with
  | nil => rfl
  | cons related _ ih =>
      obtain ⟨name, entry, other, first, second, metadata⟩ := related
      rw [List.map_cons, List.map_cons, ih, name, first, second, keepFields_entry,
        keepFields_entry, metadata]

theorem record_congr {first second : FailureReport} (same : first.DifferInPayload second)
    (reprStr : String → String) (maxRecordBytes : Nat) :
    first.record reprStr maxRecordBytes = second.record reprStr maxRecordBytes := by
  have metadata : ∀ detail : FailureDetail,
      FailureMetadata.fromDetail detail = .fromDetail detail.withoutPayload := fun _ => rfl
  have full : first.fullRecord reprStr = second.fullRecord reprStr := by
    have secondary : (first.secondary.take maxSecondaryFailures).map FailureMetadata.fromDetail =
        (second.secondary.take maxSecondaryFailures).map .fromDetail := by
      have taken := congrArg (List.take maxSecondaryFailures) same.secondary
      rw [← List.map_take, ← List.map_take] at taken
      have mapped := congrArg (List.map FailureMetadata.fromDetail) taken
      rw [List.map_map, List.map_map] at mapped
      exact mapped
    rw [FailureReport.fullRecord, FailureReport.fullRecord, same.correlation,
      metadata first.classification, metadata second.classification, same.classification,
      secondary, failureSteps_congr reprStr same.stepEntries, same.transitions, same.startedAt,
      same.failedAt]
  rw [FailureReport.record, FailureReport.record, full]

/-- Capture of metadata only does not depend on payload content. -/
theorem metadata_capture_noninterfering {first second : AuditRecord}
    (records : first.DifferInPayload second) {failed other : FailureReport}
    (failures : failed.DifferInPayload other) (reprStr : String → String) (maxRecordBytes : Nat) :
    captureAuditRecord first.dump .metadataOnly = captureAuditRecord second.dump .metadataOnly ∧
      captureAuditRecord (failed.record reprStr maxRecordBytes).dump .metadataOnly =
        captureAuditRecord (other.record reprStr maxRecordBytes).dump .metadataOnly := by
  refine ⟨?_, by rw [record_congr failures]⟩
  have empty : first.failures.isEmpty = second.failures.isEmpty := by
    have := congrArg List.isEmpty records.failures
    simpa using this
  have last : first.failures.getLast?.map StepFailure.withoutPayload =
      second.failures.getLast?.map StepFailure.withoutPayload := by
    have := congrArg List.getLast? records.failures
    rwa [List.getLast?_map, List.getLast?_map] at this
  rw [captureAuditRecord, captureAuditRecord, metadataOnly_audit, metadataOnly_audit,
    records.requestId, records.workflow, records.identity, records.status, records.reason,
    records.transitions, records.startedAt, records.completedAt,
    map_of_sameMetadata records.steps, last, empty, records.failures]

/-- Reports of two exceptions differ in payload only, if their classifications do. -/
theorem FailureReport.differ_in_exc {report : FailureReport} {exc : EngineException}
    (unlisted : report.stepEntries = [])
    (classified : report.classification.withoutPayload =
      (FailureReport.classification { report with exc }).withoutPayload) :
    report.DifferInPayload { report with exc } where
  correlation := rfl
  startedAt := rfl
  failedAt := rfl
  classification := classified
  secondary := rfl
  stepEntries := by
    rw [unlisted]
    exact .nil
  transitions := rfl

/-- A run that was given a token. -/
def tokenRecord (token : String) : AuditRecord where
  requestId := "request-1"
  workflow := "orders"
  identity := {}
  status := .recovered
  reason := none
  params := [("token", .str token)]
  steps := [("load", StepAuditEntry.dump
    { seq := 0, status := "failed", input := some (.str token), message := some token })]
  transitions := []
  startedAt := "2026-08-02T00:00:00+00:00"
  completedAt := "2026-08-02T00:00:01+00:00"
  failures := [{ step := "load", code := "STEP_FAILED", causeCode := "KeyError", message := token }]
  result := some (.str token)

theorem metadata_capture_of_tokens :
    captureAuditRecord (tokenRecord "one").dump .metadataOnly =
        captureAuditRecord (tokenRecord "another").dump .metadataOnly ∧
      captureAuditRecord (FailureReport.keyErrorFailure.record id 32768).dump .metadataOnly =
        captureAuditRecord (FailureReport.record { FailureReport.keyErrorFailure with
          exc := .python "KeyError" "'price'" } id 32768).dump .metadataOnly :=
  metadata_capture_noninterfering
    { requestId := rfl
      workflow := rfl
      identity := rfl
      status := rfl
      reason := rfl
      steps := .cons ⟨rfl, _, _, rfl, rfl, rfl⟩ .nil
      transitions := rfl
      startedAt := rfl
      completedAt := rfl
      failures := rfl }
    (@FailureReport.differ_in_exc FailureReport.keyErrorFailure (.python "KeyError" "'price'") rfl
      (by decide +kernel)) id 32768

end Justflow
