import Mathlib.Data.List.Dedup
import Justflow.Engine.Contracts
import Justflow.Library.Subvalues

/-!
# Where the walk over a contract schema ends

`inspect_schema_path` follows local references, which may lead in circles, and reads the parts of
their pointers.  A call calls itself for what a reference refers to, for each alternative, and for
what the next token of the path leads to.  It remembers the references that it followed, so the
calls that are nested in one another are no more than the document allows.  A call fails where
`int` does not read a part that `str.isdigit` takes for a number, and where the stack has no room
for another call.
-/

open JsonValue

namespace Justflow.SchemaWalk

/-- The digits of the host language: `isDigit` is what `str.isdigit` accepts, and `decimal` are the
values of those that `int` reads.  A superscript is a digit that `int` does not read. -/
structure DigitTable where
  isDigit : Char → Bool
  decimal : Char → Option Nat
  isDigit_of_decimal : ∀ {c value}, decimal c = some value → isDigit c = true

/-- The digits that `int` reads at most. -/
def maxIntDigits : Nat := 4300

inductive WalkError where
  | valueError
  | recursionError
  deriving DecidableEq

namespace DigitTable

variable (self : DigitTable)

/-- `part.isdigit()`. -/
def isdigit (part : String) : Bool :=
  !part.toList.isEmpty && part.toList.all self.isDigit

/-- `int(part)`, for a part of digits. -/
def int (part : String) : Except WalkError Nat :=
  if maxIntDigits < part.toList.length then .error .valueError
  else
    match part.toList.mapM self.decimal with
    | some digits => .ok (digits.foldl (fun value digit => value * 10 + digit) 0)
    | none => .error .valueError

/-- One step of a JSON pointer. -/
def pointerStep (current : JsonValue) (part : String) : Except WalkError (Option JsonValue) :=
  match current with
  | .obj fields => .ok (fields.lookup part)
  | .arr items =>
      if self.isdigit part then (self.int part).map fun position => items[position]? else .ok none
  | _ => .ok none

def followPointer : List String → JsonValue → Except WalkError (Option JsonValue)
  | [], current => .ok (some current)
  | part :: rest, current =>
      match self.pointerStep current part with
      | .error error => .error error
      | .ok none => .ok none
      | .ok (some next) => followPointer rest next

end DigitTable

/-- `part.replace("~" + mark, result)`. -/
def replaceEscape (mark result : Char) : List Char → List Char
  | [] => []
  | [c] => [c]
  | c :: d :: rest =>
      if c = '~' ∧ d = mark then result :: replaceEscape mark result rest
      else c :: replaceEscape mark result (d :: rest)

def unescapePart (part : List Char) : String :=
  String.ofList (replaceEscape '0' '~' (replaceEscape '1' '/' part))

/-- The call of the walk: what it looks at, the rest of the path, and the references that were
followed to get there. -/
structure Call where
  node : JsonValue
  tokens : List PathToken
  references : List String

section Walk

variable (table : DigitTable) (unquote reprStr : String → String) (root : JsonValue)

/-- The parts of a reference other than `""` and `"#"`, if it is a pointer. -/
def pointerParts (reference : String) : Option (List String) :=
  match (unquote (String.ofList (reference.toList.drop 1))).toList with
  | '/' :: pointer => some ((pointer.splitOn '/').map unescapePart)
  | _ => none

/-- `_local_reference_target`. -/
def localReferenceTarget (reference : String) : Except WalkError (Option JsonValue) :=
  if reference = "" ∨ reference = "#" then .ok (some root)
  else
    match pointerParts unquote reference with
    | some parts => table.followPointer parts root
    | none => .ok none

/-- `_inspect_schema_node`, where the stack has room for a number of nested calls. -/
def inspectSchemaNode : Nat → JsonValue → List PathToken → List String →
    Except WalkError SchemaPathResult
  | 0, _, _, _ => .error .recursionError
  | _ + 1, .bool false, _, _ => .ok (.absent none)
  | _ + 1, .bool true, tokens, _ => .ok (if tokens = [] then { known := some true } else .unknown)
  | depth + 1, .obj fields, tokens, references =>
      match localReference (.obj fields) with
      | some reference =>
          if reference ∈ references then .ok .unknown
          else
            match localReferenceTarget table unquote root reference with
            | .error error => .error error
            | .ok none => .ok .unknown
            | .ok (some target) => inspectSchemaNode depth target tokens (reference :: references)
      | none =>
          match schemaAlternatives (.obj fields) with
          | some alternatives =>
              (alternatives.mapM fun alternative =>
                inspectSchemaNode depth alternative tokens references).map combineSchemaResults
          | none =>
              match tokens with
              | [] => .ok { known := some true, valueTypes := schemaValueTypes (.obj fields) }
              | token :: remaining =>
                  match descend reprStr (.obj fields) token with
                  | .settled result => .ok result
                  | .into next => inspectSchemaNode depth next remaining references
  | _ + 1, _, _, _ => .ok .unknown

/-- `inspect_schema_path`, for a schema document. -/
def inspectSchemaPath (depth : Nat) (tokens : List PathToken) :
    Except WalkError SchemaPathResult :=
  if tokens.length > maxSchemaPathDepth then
    .ok (.absent (some ("path exceeds " ++ toString maxSchemaPathDepth ++ " components")))
  else inspectSchemaNode table unquote reprStr root depth root tokens []

/-! ## The calls of a walk -/

/-- A call that a call makes. -/
inductive Nested : Call → Call → Prop where
  | reference {fields : List (String × JsonValue)} {tokens : List PathToken}
      {references : List String} {reference : String} {target : JsonValue}
      (refers : localReference (.obj fields) = some reference) (unseen : reference ∉ references)
      (found : localReferenceTarget table unquote root reference = .ok (some target)) :
      Nested ⟨.obj fields, tokens, references⟩ ⟨target, tokens, reference :: references⟩
  | alternative {fields : List (String × JsonValue)} {tokens : List PathToken}
      {references : List String} {alternatives : List JsonValue} {alternative : JsonValue}
      (plain : localReference (.obj fields) = none)
      (listed : schemaAlternatives (.obj fields) = some alternatives)
      (mem : alternative ∈ alternatives) :
      Nested ⟨.obj fields, tokens, references⟩ ⟨alternative, tokens, references⟩
  | descent {fields : List (String × JsonValue)} {token : PathToken}
      {remaining : List PathToken} {references : List String} {next : JsonValue}
      (plain : localReference (.obj fields) = none)
      (sole : schemaAlternatives (.obj fields) = none)
      (into : descend reprStr (.obj fields) token = .into next) :
      Nested ⟨.obj fields, token :: remaining, references⟩ ⟨next, remaining, references⟩

/-- A number of calls, each nested in the one before. -/
def Chain : Nat → Call → Call → Prop
  | 0, first, last => first = last
  | count + 1, first, last =>
      ∃ next, Nested table unquote reprStr root first next ∧ Chain count next last

end Walk

/-! ## Readable references -/

/-- `int` reads the part. -/
def DigitTable.Decimal (self : DigitTable) (part : String) : Prop :=
  part.toList.length ≤ maxIntDigits ∧ ∀ c ∈ part.toList, (self.decimal c).isSome = true

/-- The parts of a pointer lead from a value to another. -/
inductive Leads (table : DigitTable) : JsonValue → List String → JsonValue → Prop where
  | here {v : JsonValue} : Leads table v [] v
  | member {fields : List (String × JsonValue)} {part : String} {rest : List String}
      {next v : JsonValue} (found : fields.lookup part = some next)
      (leads : Leads table next rest v) : Leads table (.obj fields) (part :: rest) v
  | item {items : List JsonValue} {part : String} {rest : List String} {position : Nat}
      {next v : JsonValue} (digits : table.isdigit part = true)
      (number : table.int part = .ok position) (found : items[position]? = some next)
      (leads : Leads table next rest v) : Leads table (.arr items) (part :: rest) v

/-- Every part of digits that a pointer has at a list is one that `int` reads. -/
def ReadableParts (table : DigitTable) (start : JsonValue) (parts : List String) : Prop :=
  ∀ before part after items, parts = before ++ part :: after →
    Leads table start before (.arr items) → table.isdigit part = true → table.Decimal part

/-- The reference is the document, no pointer, or a pointer with readable parts. -/
def Readable (table : DigitTable) (unquote : String → String) (root : JsonValue)
    (reference : String) : Prop :=
  reference ≠ "" → reference ≠ "#" → ∀ parts, pointerParts unquote reference = some parts →
    ReadableParts table root parts

/-- The call may follow its reference. -/
def Call.Readable (table : DigitTable) (unquote : String → String) (root : JsonValue)
    (call : Call) : Prop :=
  ∀ reference, localReference call.node = some reference → reference ∉ call.references →
    SchemaWalk.Readable table unquote root reference

section Reading

variable {table : DigitTable} {unquote reprStr : String → String} {root : JsonValue}

theorem exists_mapM_iff {α β : Type} {f : α → Option β} {l : List α} :
    (l.mapM f).isSome = true ↔ ∀ x ∈ l, (f x).isSome = true := by
  induction l with
  | nil => simp
  | cons x rest ih =>
      rw [List.forall_mem_cons, ← ih, List.mapM_cons]
      cases f x <;> cases rest.mapM f <;> simp [Bind.bind, Pure.pure]

theorem int_ok_iff {part : String} : (∃ position, table.int part = .ok position) ↔
    table.Decimal part := by
  rw [DigitTable.int, DigitTable.Decimal]
  by_cases long : maxIntDigits < part.toList.length
  · rw [if_pos long]
    simp [Nat.not_le.mpr long]
  · rw [if_neg long, ← exists_mapM_iff]
    cases part.toList.mapM table.decimal <;> simp [Nat.not_lt.mp long]

/-- What a step of the pointer needs, and what the steps after it need. -/
theorem readableParts_cons {start : JsonValue} {part : String} {rest : List String} :
    ReadableParts table start (part :: rest) ↔
      (∀ items, start = .arr items → table.isdigit part = true → table.Decimal part) ∧
      ∀ next, table.pointerStep start part = .ok (some next) → ReadableParts table next rest := by
  constructor
  · intro readable
    constructor
    · rintro items rfl digits
      exact readable [] part rest items rfl .here digits
    · intro next step before other after items split leads
      apply readable (part :: before) other after items (by rw [split, List.cons_append])
      cases start with
      | obj fields => exact .member (by simpa [DigitTable.pointerStep] using step) leads
      | arr items =>
          rw [DigitTable.pointerStep] at step
          split at step
          · next digits =>
              cases number : table.int part with
              | error error => rw [number] at step; cases step
              | ok position =>
                  rw [number] at step
                  exact .item digits number (by simpa [Except.map] using step) leads
          · cases step
      | _ => cases step
  · rintro ⟨now, later⟩ before other after items split leads digits
    cases before with
    | nil =>
        cases leads
        obtain ⟨rfl, rfl⟩ := List.cons.inj split
        exact now items rfl digits
    | cons first before =>
        obtain ⟨rfl, rfl⟩ := List.cons.inj split
        cases leads with
        | member found leads =>
            exact later _ (by rw [DigitTable.pointerStep, found]) before other after items rfl
              leads digits
        | item isdigit number found leads =>
            refine later _ ?_ before other after items rfl leads digits
            rw [DigitTable.pointerStep, if_pos isdigit, number, Except.map, found]

theorem followPointer_ok_iff {parts : List String} {start : JsonValue} :
    (∃ target, table.followPointer parts start = .ok target) ↔
      ReadableParts table start parts := by
  induction parts generalizing start with
  | nil =>
      refine ⟨fun _ before part after items split => ?_, fun _ => ⟨_, rfl⟩⟩
      cases before <;> cases split
  | cons part rest ih =>
      rw [readableParts_cons, DigitTable.followPointer]
      cases step : table.pointerStep start part with
      | error error =>
          simp only [reduceCtorEq, exists_false, false_iff, not_and]
          intro now
          exfalso
          cases start with
          | arr items =>
              rw [DigitTable.pointerStep] at step
              split at step
              · next digits =>
                  obtain ⟨position, number⟩ := int_ok_iff.mpr (now items rfl digits)
                  rw [number] at step
                  cases step
              · cases step
          | _ => cases step
      | ok found =>
          have now : ∀ items, start = .arr items → table.isdigit part = true →
              table.Decimal part := by
            rintro items rfl digits
            rw [DigitTable.pointerStep, if_pos digits] at step
            rw [← int_ok_iff]
            cases number : table.int part with
            | error error => rw [number] at step; cases step
            | ok position => exact ⟨position, rfl⟩
          cases found with
          | none => exact ⟨fun _ => ⟨now, fun _ other => (by cases other)⟩, fun _ => ⟨_, rfl⟩⟩
          | some next =>
              simp only [Except.ok.injEq, Option.some.injEq, forall_eq']
              exact ih.trans ⟨fun readable => ⟨now, readable⟩, And.right⟩

theorem localReferenceTarget_ok_iff {reference : String} :
    (∃ target, localReferenceTarget table unquote root reference = .ok target) ↔
      Readable table unquote root reference := by
  rw [localReferenceTarget, Readable]
  split
  · next whole =>
      refine ⟨fun _ nonempty other => ?_, fun _ => ⟨_, rfl⟩⟩
      exact absurd whole (not_or.mpr ⟨nonempty, other⟩)
  · next pointer =>
      obtain ⟨nonempty, other⟩ := not_or.mp pointer
      simp only [ne_eq, nonempty, other, not_false_eq_true, forall_const]
      cases parts : pointerParts unquote reference with
      | none => exact ⟨fun _ _ h => (by cases h), fun _ => ⟨_, rfl⟩⟩
      | some parts =>
          simp only [Option.some.injEq, forall_eq']
          exact followPointer_ok_iff

end Reading

/-! ## One call -/

section Steps

variable {table : DigitTable} {unquote reprStr : String → String} {root : JsonValue}

theorem mapM_ok_iff {α β ε : Type} {f : α → Except ε β} {l : List α} :
    (∃ results, l.mapM f = .ok results) ↔ ∀ x ∈ l, ∃ result, f x = .ok result := by
  induction l with
  | nil => simp [Pure.pure, Except.pure]
  | cons x rest ih =>
      rw [List.forall_mem_cons, ← ih, List.mapM_cons]
      cases f x <;> cases rest.mapM f <;> simp [Bind.bind, Except.bind, Pure.pure, Except.pure]

/-- A call returns where it may follow its reference and the calls that it makes return. -/
theorem inspectSchemaNode_succ_ok_iff {depth : Nat} {call : Call} :
    (∃ result, inspectSchemaNode table unquote reprStr root (depth + 1) call.node call.tokens
      call.references = .ok result) ↔
    call.Readable table unquote root ∧ ∀ next, Nested table unquote reprStr root call next →
      ∃ result, inspectSchemaNode table unquote reprStr root depth next.node next.tokens
        next.references = .ok result := by
  obtain ⟨node, tokens, references⟩ := call
  cases node with
  | obj fields =>
      simp only [inspectSchemaNode, Call.Readable]
      cases refers : localReference (.obj fields) with
      | some reference =>
          simp only [Option.some.injEq, forall_eq']
          by_cases seen : reference ∈ references
          · simp only [seen, if_true, Except.ok.injEq, exists_eq', not_true_eq_false,
              false_implies, true_and, true_iff]
            rintro next (⟨refers', unseen, found⟩ | ⟨plain, _, _⟩ | ⟨plain, _, _⟩)
            · cases refers.symm.trans refers'
              exact absurd seen unseen
            · cases refers.symm.trans plain
            · cases refers.symm.trans plain
          · simp only [seen, if_false, not_false_eq_true, forall_const]
            rw [← localReferenceTarget_ok_iff]
            cases found : localReferenceTarget table unquote root reference with
            | error error => simp
            | ok target =>
                cases target with
                | none =>
                    simp only [Except.ok.injEq, exists_eq', true_and, true_iff]
                    rintro next (⟨refers', unseen, found'⟩ | ⟨plain, _, _⟩ | ⟨plain, _, _⟩)
                    · cases refers.symm.trans refers'
                      cases found.symm.trans found'
                    · cases refers.symm.trans plain
                    · cases refers.symm.trans plain
                | some target =>
                    simp only [Except.ok.injEq, exists_eq', true_and]
                    constructor
                    · rintro returns next
                        (⟨refers', unseen, found'⟩ | ⟨plain, _, _⟩ | ⟨plain, _, _⟩)
                      · cases refers.symm.trans refers'
                        cases found.symm.trans found'
                        exact returns
                      · cases refers.symm.trans plain
                      · cases refers.symm.trans plain
                    · intro all
                      exact all _ (.reference refers seen found)
      | none =>
          simp only [reduceCtorEq, false_implies, implies_true, true_and]
          cases listed : schemaAlternatives (.obj fields) with
          | some alternatives =>
              have split : (∃ result, (alternatives.mapM fun alternative =>
                  inspectSchemaNode table unquote reprStr root depth alternative tokens
                    references).map combineSchemaResults = .ok result) ↔
                  ∃ results, (alternatives.mapM fun alternative =>
                    inspectSchemaNode table unquote reprStr root depth alternative tokens
                      references) = .ok results := by
                cases alternatives.mapM fun alternative =>
                  inspectSchemaNode table unquote reprStr root depth alternative tokens
                    references <;> simp [Except.map]
              simp only [split, mapM_ok_iff]
              constructor
              · rintro all next (⟨refers', _, _⟩ | ⟨_, listed', mem⟩ | ⟨_, sole, _⟩)
                · cases refers.symm.trans refers'
                · cases listed.symm.trans listed'
                  exact all _ mem
                · cases listed.symm.trans sole
              · intro all alternative mem
                exact all _ (.alternative refers listed mem)
          | none =>
              cases tokens with
              | nil =>
                  simp only [Except.ok.injEq, exists_eq', true_iff]
                  rintro next (⟨refers', _, _⟩ | ⟨_, listed', _⟩ | _)
                  · cases refers.symm.trans refers'
                  · cases listed.symm.trans listed'
              | cons token remaining =>
                  dsimp only
                  cases into : descend reprStr (.obj fields) token with
                  | settled result =>
                      simp only [Except.ok.injEq, exists_eq', true_iff]
                      rintro next (⟨refers', _, _⟩ | ⟨_, listed', _⟩ | ⟨_, _, into'⟩)
                      · cases refers.symm.trans refers'
                      · cases listed.symm.trans listed'
                      · cases into.symm.trans into'
                  | into target =>
                      constructor
                      · rintro returns next (⟨refers', _, _⟩ | ⟨_, listed', _⟩ | ⟨_, _, into'⟩)
                        · cases refers.symm.trans refers'
                        · cases listed.symm.trans listed'
                        · cases into.symm.trans into'
                          exact returns
                      · intro all
                        exact all _ (.descent refers listed into)
  | bool allowed =>
      cases allowed
      all_goals
        simp only [inspectSchemaNode, Except.ok.injEq, exists_eq', true_iff]
        exact ⟨fun _ refers => (by cases refers), fun _ h => by cases h⟩
  | _ =>
      simp only [inspectSchemaNode, Except.ok.injEq, exists_eq', true_iff]
      exact ⟨fun _ refers => (by cases refers), fun _ h => by cases h⟩

/-- A call returns exactly if the calls of every chain from it have room and may follow their
references. -/
theorem inspectSchemaNode_ok_iff {depth : Nat} {call : Call} :
    (∃ result, inspectSchemaNode table unquote reprStr root depth call.node call.tokens
      call.references = .ok result) ↔
    ∀ count last, Chain table unquote reprStr root count call last →
      count < depth ∧ last.Readable table unquote root := by
  induction depth generalizing call with
  | zero =>
      simp only [inspectSchemaNode, reduceCtorEq, exists_false, false_iff, not_forall]
      exact ⟨0, call, rfl, fun h => absurd h.1 (Nat.lt_irrefl 0)⟩
  | succ depth ih =>
      rw [inspectSchemaNode_succ_ok_iff]
      constructor
      · rintro ⟨readable, all⟩ count last chain
        cases count with
        | zero =>
            obtain rfl : call = last := chain
            exact ⟨Nat.succ_pos _, readable⟩
        | succ count =>
            obtain ⟨next, nested, chain⟩ := chain
            obtain ⟨room, lastReadable⟩ := ih.mp (all next nested) count last chain
            exact ⟨Nat.succ_lt_succ room, lastReadable⟩
      · intro all
        refine ⟨(all 0 call rfl).2, fun next nested => ih.mpr fun count last chain => ?_⟩
        obtain ⟨room, readable⟩ := all (count + 1) last ⟨next, nested, chain⟩
        exact ⟨Nat.lt_of_succ_lt_succ room, readable⟩

end Steps

/-! ## The bound on nested calls -/

/-- The texts of the local references in a document. -/
def referenceTexts (root : JsonValue) : List String :=
  ((subvalues root).filterMap localReference).dedup

/-- The calls that may be nested: between two new references the walk descends only. -/
def callBound (root : JsonValue) : Nat :=
  (referenceTexts root).length * (size root + 1) + size root

section Bound

variable {table : DigitTable} {unquote reprStr : String → String} {root : JsonValue}

theorem mem_referenceTexts {fields : List (String × JsonValue)} {reference : String}
    (within : JsonValue.obj fields ∈ subvalues root)
    (refers : localReference (.obj fields) = some reference) :
    reference ∈ referenceTexts root :=
  List.mem_dedup.mpr (List.mem_filterMap.mpr ⟨_, within, refers⟩)

theorem followPointer_mem {parts : List String} {start target : JsonValue}
    (within : start ∈ subvalues root) (h : table.followPointer parts start = .ok (some target)) :
    target ∈ subvalues root := by
  induction parts generalizing start with
  | nil =>
      cases h
      exact within
  | cons part rest ih =>
      rw [DigitTable.followPointer] at h
      cases step : table.pointerStep start part with
      | error error => rw [step] at h; cases h
      | ok found =>
          cases found with
          | none => rw [step] at h; cases h
          | some next =>
              rw [step] at h
              refine ih (subvalues_subset _ within ?_) h
              cases start with
              | obj fields =>
                  have found : fields.lookup part = some next := by
                    simpa [DigitTable.pointerStep] using step
                  exact (Inside.of_member found).mem
              | arr items =>
                  rw [DigitTable.pointerStep] at step
                  split at step
                  · cases number : table.int part with
                    | error error => rw [number] at step; cases step
                    | ok position =>
                        rw [number] at step
                        have found : items[position]? = some next := by
                          simpa [Except.map] using step
                        exact (Inside.of_item (List.mem_of_getElem? found)).mem
                  · cases step
              | _ => cases step

theorem localReferenceTarget_mem {reference : String} {target : JsonValue}
    (h : localReferenceTarget table unquote root reference = .ok (some target)) :
    target ∈ subvalues root := by
  rw [localReferenceTarget] at h
  split at h
  · cases h
    exact mem_subvalues_self root
  · split at h
    · exact followPointer_mem (mem_subvalues_self root) h
    · cases h

theorem alternativesUnder_inside {node alternative : JsonValue} {keyword : String}
    {alternatives : List JsonValue} (h : alternativesUnder node keyword = some alternatives)
    (mem : alternative ∈ alternatives) : Inside alternative node := by
  rw [alternativesUnder] at h
  split at h
  · next found =>
      cases h
      exact (Inside.of_item mem).trans (.of_field found)
  · cases h

theorem schemaAlternatives_inside {node alternative : JsonValue} {alternatives : List JsonValue}
    (h : schemaAlternatives node = some alternatives) (mem : alternative ∈ alternatives) :
    Inside alternative node := by
  rw [schemaAlternatives, Option.or_eq_some_iff] at h
  rcases h with h | ⟨_, h⟩
  · exact alternativesUnder_inside h mem
  · exact alternativesUnder_inside h mem

theorem field_asObj_inside {node member : JsonValue} {key name : String}
    {properties : List (String × JsonValue)}
    (h : (node.field key).bind asObj = some properties)
    (found : properties.lookup name = some member) : Inside member node := by
  obtain ⟨value, hvalue, hobj⟩ := Option.bind_eq_some_iff.mp h
  cases value with
  | obj fields =>
      cases hobj
      exact (Inside.of_member found).trans (.of_field hvalue)
  | _ => cases hobj

/-- A step of the path leads to something within the schema. -/
theorem descendAdditional_inside {node next : JsonValue} {field : String}
    {result : SchemaPathResult}
    (h : descendAdditional reprStr field (.settled result) (node.field "additionalProperties") =
      .into next) : Inside next node := by
  cases found : node.field "additionalProperties" with
  | none => rw [found] at h; cases h
  | some additional =>
      rw [found] at h
      cases additional with
      | bool allowed =>
          cases allowed with
          | false => cases h
          | true => cases h; exact .of_field found
      | obj fields => cases h; exact .of_field found
      | _ => cases h

theorem descendObject_inside {node next : JsonValue} {token : PathToken}
    (h : descendObject reprStr node token = .into next) : Inside next node := by
  cases token with
  | index position => cases h
  | name field =>
      rw [descendObject] at h
      split at h
      · next properties hproperties =>
          split at h
          · next property found =>
              cases h
              exact field_asObj_inside hproperties found
          · exact descendAdditional_inside h
      · exact descendAdditional_inside h

theorem descendArray_inside {node next : JsonValue} {token : PathToken}
    (h : descendArray node token = .into next) : Inside next node := by
  cases token with
  | name field => cases h
  | index position =>
      rw [descendArray] at h
      split at h
      · next item found =>
          cases h
          obtain ⟨items, hitems, hitem⟩ := Option.bind_eq_some_iff.mp found
          obtain ⟨value, hvalue, harr⟩ := Option.bind_eq_some_iff.mp hitems
          cases value with
          | arr members =>
              cases harr
              exact (Inside.of_item (List.mem_of_getElem? hitem)).trans (.of_field hvalue)
          | _ => cases harr
      · cases found : node.field "items" with
        | none => rw [found] at h; cases h
        | some items =>
            rw [found] at h
            cases items with
            | bool allowed =>
                cases allowed with
                | false => cases h
                | true => cases h; exact .of_field found
            | obj fields => cases h; exact .of_field found
            | _ => cases h

theorem descend_inside {node next : JsonValue} {token : PathToken}
    (h : descend reprStr node token = .into next) : Inside next node := by
  rw [descend] at h
  split at h
  · split at h
    · split at h
      · exact descendObject_inside h
      · exact descendArray_inside h
    · cases h
  · split at h
    · exact descendObject_inside h
    · split at h
      · exact descendArray_inside h
      · cases h

/-- The references that a call has not followed. -/
def unseen (root : JsonValue) (references : List String) : List String :=
  (referenceTexts root).filter fun reference => reference ∉ references

def Call.potential (root : JsonValue) (call : Call) : Nat :=
  (unseen root call.references).length * (size root + 1) + size call.node

theorem unseen_cons {references : List String} {reference : String}
    (known : reference ∈ referenceTexts root) (fresh : reference ∉ references) :
    (unseen root (reference :: references)).length < (unseen root references).length := by
  have narrower : unseen root (reference :: references) =
      (unseen root references).filter fun other => other ≠ reference := by
    rw [unseen, unseen, List.filter_filter]
    congr 1
    funext other
    simp [not_or]
  rw [narrower]
  apply List.length_filter_lt_length_iff_exists.mpr
  exact ⟨reference, by simp [unseen, known, fresh], by simp⟩

/-- A nested call stays within the document, and less is left for it. -/
theorem Nested.potential_lt {first next : Call} (within : first.node ∈ subvalues root)
    (h : Nested table unquote reprStr root first next) :
    next.node ∈ subvalues root ∧ next.potential root < first.potential root := by
  cases h with
  | reference refers fresh found =>
      have inside := localReferenceTarget_mem found
      refine ⟨inside, ?_⟩
      have fewer := unseen_cons (mem_referenceTexts within refers) fresh
      have small := size_le _ inside
      simp only [Call.potential]
      calc _ ≤ (unseen root _).length * (size root + 1) + size root := Nat.add_le_add_left small _
        _ < ((unseen root _).length + 1) * (size root + 1) := by rw [Nat.succ_mul]; omega
        _ ≤ _ := (Nat.mul_le_mul_right _ fewer).trans (Nat.le_add_right _ _)
  | alternative plain listed mem =>
      have inside := schemaAlternatives_inside listed mem
      exact ⟨subvalues_subset _ within inside.mem, Nat.add_lt_add_left inside.smaller _⟩
  | descent plain sole into =>
      have inside := descend_inside into
      exact ⟨subvalues_subset _ within inside.mem, Nat.add_lt_add_left inside.smaller _⟩

theorem Chain.le_potential {count : Nat} {first last : Call}
    (within : first.node ∈ subvalues root)
    (chain : Chain table unquote reprStr root count first last) :
    count ≤ first.potential root := by
  induction count generalizing first with
  | zero => exact Nat.zero_le _
  | succ count ih =>
      obtain ⟨next, nested, chain⟩ := chain
      obtain ⟨inside, less⟩ := nested.potential_lt within
      exact Nat.succ_le_of_lt (Nat.lt_of_le_of_lt (ih inside chain) less)

theorem potential_start (tokens : List PathToken) :
    Call.potential root ⟨root, tokens, []⟩ = callBound root := by
  simp [Call.potential, unseen, callBound]

theorem map_eq_of_mapM {α β ε : Type} {f : α → Except ε β} {g : α → β} {l : List α}
    {results : List β} (same : ∀ x ∈ l, ∀ result, f x = .ok result → g x = result)
    (h : l.mapM f = .ok results) : l.map g = results := by
  induction l generalizing results with
  | nil =>
      cases h
      rfl
  | cons x rest ih =>
      rw [List.mapM_cons] at h
      cases head : f x with
      | error error => rw [head] at h; cases h
      | ok first =>
          cases tail : rest.mapM f with
          | error error => rw [head, tail] at h; cases h
          | ok others =>
              rw [head, tail] at h
              cases h
              rw [List.map_cons, same x List.mem_cons_self first head,
                ih (fun y hy => same y (List.mem_cons_of_mem _ hy)) tail]

/-- Where pointers are read alike, a walk that returns finds what the walk without errors finds. -/
theorem inspectSchemaNode_eq
    (alike : ∀ reference ∈ referenceTexts root, localReferenceTarget table unquote root reference =
      .ok (Justflow.localReferenceTarget unquote root reference))
    {depth : Nat} {node : JsonValue} {tokens : List PathToken} {references : List String}
    {result : SchemaPathResult} (within : node ∈ subvalues root)
    (h : inspectSchemaNode table unquote reprStr root depth node tokens references = .ok result) :
    Justflow.inspectSchemaNode unquote reprStr root depth node tokens references = result := by
  induction depth generalizing node tokens references result with
  | zero => cases h
  | succ depth ih =>
      cases node with
      | obj fields =>
          simp only [inspectSchemaNode, Justflow.inspectSchemaNode] at h ⊢
          cases refers : localReference (.obj fields) with
          | some reference =>
              simp only [refers, alike reference (mem_referenceTexts within refers)] at h ⊢
              by_cases seen : reference ∈ references
              · simp only [seen, if_true, Except.ok.injEq] at h ⊢
                exact h
              · simp only [seen, if_false] at h ⊢
                cases found : Justflow.localReferenceTarget unquote root reference with
                | none =>
                    rw [found] at h
                    cases h
                    rfl
                | some target =>
                    have there : localReferenceTarget table unquote root reference =
                        .ok (some target) := by
                      rw [alike reference (mem_referenceTexts within refers), found]
                    rw [found] at h
                    exact ih (localReferenceTarget_mem there) h
          | none =>
              simp only [refers] at h ⊢
              cases listed : schemaAlternatives (.obj fields) with
              | some alternatives =>
                  simp only [listed] at h ⊢
                  cases all : alternatives.mapM fun alternative =>
                      inspectSchemaNode table unquote reprStr root depth alternative tokens
                        references with
                  | error error => rw [all] at h; cases h
                  | ok results =>
                      rw [all] at h
                      cases h
                      congr 1
                      refine map_eq_of_mapM (fun alternative mem found returned => ?_) all
                      exact ih (subvalues_subset _ within
                        (schemaAlternatives_inside listed mem).mem) returned
              | none =>
                  simp only [listed] at h ⊢
                  cases tokens with
                  | nil =>
                      cases h
                      rfl
                  | cons token remaining =>
                      dsimp only at h ⊢
                      cases into : descend reprStr (.obj fields) token with
                      | settled settled =>
                          rw [into] at h
                          cases h
                          rfl
                      | into next =>
                          rw [into] at h
                          exact ih (subvalues_subset _ within (descend_inside into).mem) h
      | bool allowed =>
          cases allowed
          all_goals
            cases h
            rfl
      | _ =>
          cases h
          rfl

end Bound

/-- A path is inspected exactly if it is too long, or the stack has room for the calls that the
walk makes for it and each reference that they follow is readable.  However long the path, no more
calls are nested than the document allows, whether its references lead in circles or not. -/
theorem inspect_schema_path_total (table : DigitTable) (unquote reprStr : String → String)
    (root : JsonValue) (tokens : List PathToken) :
    (∀ depth, (∃ result, inspectSchemaPath table unquote reprStr root depth tokens = .ok result) ↔
      maxSchemaPathDepth < tokens.length ∨
        ∀ count last, Chain table unquote reprStr root count ⟨root, tokens, []⟩ last →
          count < depth ∧ last.Readable table unquote root) ∧
    ∀ count last, Chain table unquote reprStr root count ⟨root, tokens, []⟩ last →
      count ≤ callBound root := by
  constructor
  · intro depth
    rw [inspectSchemaPath]
    by_cases long : maxSchemaPathDepth < tokens.length
    · simp [long]
    · simp only [gt_iff_lt, long, if_false, false_or]
      exact @inspectSchemaNode_ok_iff table unquote reprStr root depth ⟨root, tokens, []⟩
  · intro count last chain
    rw [← potential_start tokens]
    exact chain.le_potential (mem_subvalues_self root)

/-! ## Accepted schemas -/

inductive SchemaDeclarationError where
  | unsupportedDialect (dialect : JsonValue)
  | invalidSchema
  | unsupportedNestedDialect
  | remoteReference
  | unresolvedReference
  | recursionError
  deriving DecidableEq

/-- What the schema libraries know of a document.  A resource is given with those it is nested in,
from the document on. -/
structure SchemaLibrary where
  /-- `Draft202012Validator.check_schema`. -/
  checkSchema : JsonValue → Bool
  /-- `resource.subresources()`. -/
  subresources : JsonValue → List JsonValue
  /-- `resolver.lookup` finds what a reference of a resource refers to. -/
  resolves : List JsonValue → String → Bool

def supportedJsonSchemaDialects : List String :=
  ["https://json-schema.org/draft/2020-12/schema", "https://json-schema.org/draft/2020-12/schema#"]

def supportedDialect (contents : JsonValue) : Bool :=
  match contents.field "$schema" with
  | none => true
  | some (.str dialect) => supportedJsonSchemaDialects.contains dialect
  | some _ => false

def jsonSchemaReferenceKeywords : List String := ["$ref", "$dynamicRef"]

namespace SchemaLibrary

variable (self : SchemaLibrary)

def checkReference (resources : List JsonValue) (contents : JsonValue) (keyword : String) :
    Except SchemaDeclarationError Unit :=
  match contents.field keyword with
  | some (.str reference) =>
      if reference ≠ "" ∧ reference.toList.head? ≠ some '#' then .error .remoteReference
      else if self.resolves resources reference then .ok ()
      else .error .unresolvedReference
  | _ => .ok ()

/-- `_validate_schema_references`, where the stack has room for a number of nested calls. -/
def validateSchemaReferences : Nat → List JsonValue → JsonValue →
    Except SchemaDeclarationError Unit
  | 0, _, _ => .error .recursionError
  | depth + 1, above, .obj fields => do
      if !supportedDialect (.obj fields) then throw .unsupportedNestedDialect
      let resources := above ++ [.obj fields]
      jsonSchemaReferenceKeywords.forM (self.checkReference resources (.obj fields))
      (self.subresources (.obj fields)).forM (validateSchemaReferences depth resources)
  | _ + 1, _, _ => .ok ()

/-- `validate_contract_declaration` of a schema document; its identity is left out. -/
def validateContractDeclaration (depth : Nat) (schema : JsonValue) :
    Except SchemaDeclarationError Unit := do
  if !supportedDialect schema then
    throw (.unsupportedDialect ((schema.field "$schema").getD .null))
  if !self.checkSchema schema then throw .invalidSchema
  self.validateSchemaReferences depth [] schema

end SchemaLibrary

/-- The digits of ASCII, and a superscript. -/
def plainDigits : DigitTable where
  isDigit c := c.isDigit || c = '²'
  decimal c := if c.isDigit then some (c.toNat - '0'.toNat) else none
  isDigit_of_decimal := by
    intro c value h
    split at h
    · next digit => rw [digit, Bool.true_or]
    · cases h

/-- The schemas that JSON Schema 2020-12 finds in a schema, by keyword. -/
def draft202012Subresources (contents : JsonValue) : List JsonValue :=
  (["additionalProperties", "contains", "contentSchema", "else", "if", "items", "not",
      "propertyNames", "then", "unevaluatedItems", "unevaluatedProperties"].filterMap
        contents.field) ++
    (["allOf", "anyOf", "oneOf", "prefixItems"].flatMap fun keyword =>
      ((contents.field keyword).bind asArr).getD []) ++
    (["$defs", "definitions", "dependentSchemas", "patternProperties", "properties"].flatMap
      fun keyword => (((contents.field keyword).bind asObj).getD []).map Prod.snd)

/-- References are looked up from the document on. -/
def draft202012 : SchemaLibrary where
  checkSchema _ := true
  subresources := draft202012Subresources
  resolves resources reference :=
    match resources.head? with
    | some document =>
        match localReferenceTarget plainDigits id document reference with
        | .ok (some _) => true
        | _ => false
    | none => false

/-- A reference to a value that is under no keyword, and refers to an item by a superscript. -/
def superscriptSchema : JsonValue :=
  .obj [("$ref", .str "#/a"), ("a", .obj [("$ref", .str "#/b/²")]), ("b", .arr [])]

/-- The schema is accepted: only the values under keywords are schemas.  The walk follows its
reference and fails. -/
theorem superscript_reference_raises :
    draft202012.validateContractDeclaration 900 superscriptSchema = .ok () ∧
      inspectSchemaPath plainDigits id id superscriptSchema 900 [] = .error .valueError :=
  ⟨rfl, rfl⟩

end Justflow.SchemaWalk
