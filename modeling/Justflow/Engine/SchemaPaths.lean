import Justflow.Engine.Contracts

/-!
# What a schema says about paths

`Checks` is what JSON Schema 2020-12 asks of a value, down to a depth of references and
subschemas; a value validates when it passes at every depth.  The keywords for types, objects,
arrays, references and alternatives are spelled out, and the others may ask for anything more.  An
object schema that declares properties and says nothing about additional ones is read as closed.

The walk that inspects a path uses up depth as the checks do.  A path that it calls absent is
absent in every value that passes the checks of the same depth.
-/

namespace Justflow

open JsonValue

/-! ## Values -/

def valueAt (v : JsonValue) : List PathToken → Option JsonValue
  | [] => some v
  | .name field :: rest => (v.field field).bind fun member => valueAt member rest
  | .index position :: rest =>
      (v.asArr.bind fun items => items[position]?).bind fun item => valueAt item rest

/-- The value is of a type of JSON Schema. -/
def isOfType (v : JsonValue) : SchemaValueType → Bool
  | .object => v.asObj.isSome
  | .array => v.asArr.isSome
  | .string => v.asStr.isSome
  | .boolean => v.asBool.isSome
  | .null =>
      match v with
      | .null => true
      | _ => false
  | .number =>
      match v with
      | .int _ => true
      | .float _ => true
      | _ => false
  | .integer =>
      match v with
      | .int _ => true
      | .float number => number.value.den = 1
      | _ => false

/-! ## The checks of a schema -/

/-- How a schema document is read. -/
structure SchemaReading where
  /-- The types that a schema admits, if it says so. -/
  types : JsonValue → Option (List SchemaValueType)
  /-- A field name matches a pattern. -/
  matchesPattern : String → String → Bool
  /-- What a reference of a schema refers to. -/
  resolve : JsonValue → String → Option JsonValue
  /-- What the remaining keywords of a schema ask of a value. -/
  others : JsonValue → JsonValue → Prop

namespace SchemaReading

variable (self : SchemaReading)

def matchedPatterns (node : JsonValue) (field : String) : List (String × JsonValue) :=
  (((node.field "patternProperties").bind asObj).getD []).filter fun pattern =>
    self.matchesPattern pattern.1 field

/-- The schema that additional fields and further items are checked with. -/
def closedBy (node : JsonValue) : Option JsonValue :=
  match node.field "additionalProperties" with
  | some additional => some additional
  | none => if ((node.field "properties").bind asObj).isSome then some (.bool false) else none

/-- The subschemas that the value of a field has to pass. -/
def fieldSchemas (node : JsonValue) (field : String) : List JsonValue :=
  let declared := (((node.field "properties").bind asObj).bind fun properties =>
    properties.lookup field).toList
  let patterns := (self.matchedPatterns node field).map Prod.snd
  if declared = [] ∧ patterns = [] then (closedBy node).toList else declared ++ patterns

/-- The subschema that the item at a position has to pass. -/
def itemSchema (node : JsonValue) (position : Nat) : Option JsonValue :=
  (((node.field "prefixItems").bind asArr).bind fun items => items[position]?).or
    (node.field "items")

/-- What a schema asks of a value, down to a depth.  That no second alternative of `oneOf` passes
is left to the other keywords. -/
def Checks : Nat → JsonValue → JsonValue → Prop
  | 0, _, _ => True
  | _ + 1, .bool allowed, _ => allowed = true
  | depth + 1, .obj fields, v =>
      self.others (.obj fields) v ∧
      (∀ types, self.types (.obj fields) = some types → ∃ type ∈ types, isOfType v type = true) ∧
      (∀ reference target, (JsonValue.obj fields).field "$ref" = some (.str reference) →
        self.resolve (.obj fields) reference = some target → Checks depth target v) ∧
      (∀ alternatives, alternativesUnder (.obj fields) "anyOf" = some alternatives →
        ∃ alternative ∈ alternatives, Checks depth alternative v) ∧
      (∀ alternatives, alternativesUnder (.obj fields) "oneOf" = some alternatives →
        ∃ alternative ∈ alternatives, Checks depth alternative v) ∧
      (∀ parts, alternativesUnder (.obj fields) "allOf" = some parts →
        ∀ part ∈ parts, Checks depth part v) ∧
      (∀ field member, v.field field = some member →
        ∀ schema ∈ self.fieldSchemas (.obj fields) field, Checks depth schema member) ∧
      (∀ items position item, v.asArr = some items → items[position]? = some item →
        ∀ schema, itemSchema (.obj fields) position = some schema →
          Checks depth schema item)
  | _ + 1, _, _ => True

/-- The value validates against the schema. -/
def Validates (schema v : JsonValue) : Prop :=
  ∀ depth, self.Checks depth schema v

/-! ## Plain schemas -/

/-- The schemas that the walk over a document may visit. -/
inductive Visited (unquote : String → String) (root : JsonValue) : JsonValue → Prop where
  | root : Visited unquote root root
  | reference {node target : JsonValue} {reference : String} (visited : Visited unquote root node)
      (refers : localReference node = some reference)
      (found : localReferenceTarget unquote root reference = some target) :
      Visited unquote root target
  | alternative {node alternative : JsonValue} {alternatives : List JsonValue}
      (visited : Visited unquote root node)
      (listed : schemaAlternatives node = some alternatives) (mem : alternative ∈ alternatives) :
      Visited unquote root alternative
  | descent {reprStr : String → String} {node next : JsonValue} {token : PathToken}
      (visited : Visited unquote root node) (into : descend reprStr node token = .into next) :
      Visited unquote root next

/-- The schema is well formed, speaks of objects or of arrays but not of both, and declares no
pattern. -/
structure PlainSchema (node : JsonValue) : Prop where
  additional : ∀ schema, node.field "additionalProperties" = some schema →
    schema.asObj ≠ none ∨ schema.asBool ≠ none
  patterns : node.field "patternProperties" = none
  typed : (∀ types, node.field "type" = some types → declaredTypes node ≠ none)
  apart : readsAsObject node = true → hasType node .array = false

/-- The document is read as the walk reads it: by local pointers, and with the types that the
keywords of an untyped schema tell. -/
structure PlainDocument (unquote : String → String) (reading : SchemaReading) (root : JsonValue) :
    Prop where
  plain : ∀ node, Visited unquote root node → PlainSchema node
  types : ∀ node, Visited unquote root node → reading.types node = schemaValueTypes node
  pointers : ∀ node reference target, Visited unquote root node →
    localReferenceTarget unquote root reference = some target →
      reading.resolve node reference = some target

/-! ## One step -/

section Step

variable {reading : SchemaReading} {reprStr : String → String} {depth : Nat} {node v : JsonValue}
  {token : PathToken}

/-- The value under the first token of a path. -/
def childAt (v : JsonValue) : PathToken → Option JsonValue
  | .name field => v.field field
  | .index position => v.asArr.bind fun items => items[position]?

theorem valueAt_cons (rest : List PathToken) :
    valueAt v (token :: rest) = (childAt v token).bind fun child => valueAt child rest := by
  cases token <;> rfl

theorem childAt_scalar (notObject : v.asObj = none) (notArray : v.asArr = none) :
    childAt v token = none := by
  cases v <;> cases token <;> simp_all [childAt, asObj, asArr, field]

/-- A type that the schema does not admit is not the type of a value that passes. -/
theorem not_of_type {type : SchemaValueType} {types : List SchemaValueType}
    (h : ∃ type ∈ types, isOfType v type = true)
    (apart : ∀ other ∈ types, other ≠ type)
    (sole : ∀ other, other ≠ type → isOfType v type = true → isOfType v other = false) :
    isOfType v type = false := by
  obtain ⟨other, hother, passes⟩ := h
  by_contra not
  have this := sole other (apart other hother) (by simpa using not)
  simp [this] at passes

theorem sole_object {other : SchemaValueType} (h : other ≠ .object)
    (object : isOfType v .object = true) : isOfType v other = false := by
  cases v <;> cases other <;> simp_all [isOfType, asObj, asArr, asStr, asBool]

theorem sole_array {other : SchemaValueType} (h : other ≠ .array)
    (array : isOfType v .array = true) : isOfType v other = false := by
  cases v <;> cases other <;> simp_all [isOfType, asObj, asArr, asStr, asBool]

variable {fields : List (String × JsonValue)}

theorem checks_types (checks : reading.Checks (depth + 1) (.obj fields) v)
    {types : List SchemaValueType} (h : reading.types (.obj fields) = some types) :
    ∃ type ∈ types, isOfType v type = true :=
  checks.2.1 types h

theorem checks_fields (checks : reading.Checks (depth + 1) (.obj fields) v) {name : String}
    {member schema : JsonValue} (h : v.field name = some member)
    (mem : schema ∈ reading.fieldSchemas (.obj fields) name) : reading.Checks depth schema member :=
  checks.2.2.2.2.2.2.1 name member h schema mem

theorem checks_items (checks : reading.Checks (depth + 1) (.obj fields) v)
    {items : List JsonValue} {position : Nat} {item schema : JsonValue} (hv : v.asArr = some items)
    (h : items[position]? = some item) (mem : itemSchema (.obj fields) position = some schema) :
    reading.Checks depth schema item :=
  checks.2.2.2.2.2.2.2 items position item hv h schema mem

theorem checks_reference (checks : reading.Checks (depth + 1) (.obj fields) v)
    {reference : String} {target : JsonValue}
    (h : (JsonValue.obj fields).field "$ref" = some (.str reference))
    (found : reading.resolve (.obj fields) reference = some target) :
    reading.Checks depth target v :=
  checks.2.2.1 reference target h found

theorem checks_alternative (checks : reading.Checks (depth + 1) (.obj fields) v)
    {alternatives : List JsonValue} (h : schemaAlternatives (.obj fields) = some alternatives) :
    ∃ alternative ∈ alternatives, reading.Checks depth alternative v := by
  rw [schemaAlternatives] at h
  cases hany : alternativesUnder (.obj fields) "anyOf" with
  | some anyOf =>
      rw [hany] at h
      cases h
      exact checks.2.2.2.1 _ hany
  | none =>
      rw [hany, Option.none_or] at h
      exact checks.2.2.2.2.1 _ h

theorem localReference_field {reference : String} (h : localReference node = some reference) :
    node.field "$ref" = some (.str reference) := by
  rw [localReference] at h
  split at h
  · next text htext =>
      split at h
      · cases h
        exact htext
      · cases h
  · cases h

theorem not_checks_false : ¬ reading.Checks (depth + 1) (.bool false) v := by
  simp [Checks]

theorem isOfType_object_iff : isOfType v .object = false ↔ v.asObj = none := by
  cases v <;> simp [isOfType, asObj]

theorem isOfType_array_iff : isOfType v .array = false ↔ v.asArr = none := by
  cases v <;> simp [isOfType, asArr]

theorem field_eq_none_of_asObj (h : v.asObj = none) (name : String) : v.field name = none := by
  cases v <;> simp_all [asObj, field]

/-- A well-formed schema of unknown types has no keyword for objects or arrays. -/
theorem silent_of_untyped (plain : PlainSchema node) (h : schemaValueTypes node = none) :
    readsAsObject node = false ∧ readsAsArray node = false := by
  have untyped : node.field "type" = none := by
    cases htype : node.field "type" with
    | none => rfl
    | some types =>
        have known := plain.typed types htype
        rw [schemaValueTypes, htype] at h
        cases types with
        | str type => exact absurd h known
        | arr types => exact absurd h known
        | _ => simp [declaredTypes, htype] at known
  have unknown := h
  rw [schemaValueTypes, untyped] at unknown
  simp only at unknown
  split at unknown
  · cases unknown
  · next objects =>
      split at unknown
      · cases unknown
      · next arrays =>
          simp only [Bool.or_eq_true, not_or, Bool.not_eq_true, declares,
            Option.isSome_eq_false_iff, Option.isNone_iff_eq_none] at objects arrays
          simp [readsAsObject, readsAsArray, hasType, h, declares, objects, arrays]

/-- What a value that passes cannot be. -/
theorem not_of_hasType (checks : reading.Checks (depth + 1) (.obj fields) v)
    (reads : reading.types (.obj fields) = schemaValueTypes (.obj fields))
    {types : List SchemaValueType} (known : schemaValueTypes (.obj fields) = some types)
    {type : SchemaValueType} (apart : hasType (.obj fields) type = false)
    (sole : ∀ other, other ≠ type → isOfType v type = true → isOfType v other = false) :
    isOfType v type = false := by
  have admitted := checks_types checks (reads.trans known)
  apply not_of_type admitted _ sole
  rintro other hother rfl
  simp [hasType, known, hother] at apart

theorem matchedPatterns_of_plain (plain : PlainSchema node) (name : String) :
    reading.matchedPatterns node name = [] := by
  rw [matchedPatterns, plain.patterns]
  rfl

theorem fieldSchemas_declared (plain : PlainSchema node)
    {properties : List (String × JsonValue)} {name : String} {property : JsonValue}
    (declared : (node.field "properties").bind asObj = some properties)
    (h : properties.lookup name = some property) :
    reading.fieldSchemas node name = [property] := by
  simp [fieldSchemas, matchedPatterns_of_plain plain, declared, h]

theorem fieldSchemas_undeclared (plain : PlainSchema node) {name : String}
    (h : (((node.field "properties").bind asObj).bind fun properties =>
      properties.lookup name) = none) :
    reading.fieldSchemas node name = (closedBy node).toList := by
  simp [fieldSchemas, matchedPatterns_of_plain plain, h]

/-- What a step of the walk says of the checks. -/
def Descent.Sound (reading : SchemaReading) (depth : Nat) (v : JsonValue) (token : PathToken) :
    Descent → Prop
  | .settled result => result.known = some false → childAt v token = none
  | .into next => ∀ child, childAt v token = some child → reading.Checks (depth + 1) next child

/-- A field whose value has to pass a schema. -/
theorem sound_into {name : String} {next : JsonValue}
    (checks : reading.Checks (depth + 2) (.obj fields) v)
    (mem : next ∈ reading.fieldSchemas (.obj fields) name) :
    Descent.Sound reading depth v (.name name) (.into next) :=
  fun _ hchild => checks_fields checks hchild mem

/-- A field whose value would have to pass the schema `false`. -/
theorem sound_undeclared {name : String} {result : SchemaPathResult}
    (checks : reading.Checks (depth + 2) (.obj fields) v)
    (mem : .bool false ∈ reading.fieldSchemas (.obj fields) name) :
    Descent.Sound reading depth v (.name name) (.settled result) := by
  intro _
  by_contra present
  obtain ⟨member, hmember⟩ := Option.ne_none_iff_exists'.mp present
  exact not_checks_false (checks_fields checks hmember mem)

theorem sound_additional {name : String} {otherwise : Descent} (plain : PlainSchema (.obj fields))
    (checks : reading.Checks (depth + 2) (.obj fields) v)
    (undeclared : reading.fieldSchemas (.obj fields) name = (closedBy (.obj fields)).toList)
    (silent : (JsonValue.obj fields).field "additionalProperties" = none →
      Descent.Sound reading depth v (.name name) otherwise) :
    Descent.Sound reading depth v (.name name) (descendAdditional reprStr name otherwise
      ((JsonValue.obj fields).field "additionalProperties")) := by
  rw [closedBy] at undeclared
  cases hadditional : (JsonValue.obj fields).field "additionalProperties" with
  | none => exact silent hadditional
  | some additional =>
      rw [hadditional] at undeclared
      have mem : additional ∈ reading.fieldSchemas (.obj fields) name := by
        rw [undeclared]
        exact List.mem_cons_self
      have shape := plain.additional additional hadditional
      cases additional with
      | bool allowed =>
          cases allowed with
          | false => exact sound_undeclared checks mem
          | true => exact sound_into checks mem
      | obj additional => exact sound_into checks mem
      | _ => simp [asObj, asBool] at shape

/-- What a step into an object schema says. -/
theorem descendObject_sound (plain : PlainSchema (.obj fields))
    (checks : reading.Checks (depth + 2) (.obj fields) v) (notArray : v.asArr = none) :
    Descent.Sound reading depth v token (descendObject reprStr (.obj fields) token) := by
  cases token with
  | index position => simp [descendObject, Descent.Sound, childAt, notArray]
  | name name =>
      rw [descendObject]
      cases hproperties : ((JsonValue.obj fields).field "properties").bind asObj with
      | some properties =>
          simp only
          cases hproperty : properties.lookup name with
          | some property =>
              apply sound_into checks
              rw [fieldSchemas_declared plain hproperties hproperty]
              exact List.mem_cons_self
          | none =>
              have undeclared := @fieldSchemas_undeclared reading _ plain name
                (by rw [hproperties, Option.bind_some, hproperty])
              apply sound_additional plain checks undeclared
              intro silent
              apply sound_undeclared checks
              rw [undeclared, closedBy, silent, hproperties]
              exact List.mem_cons_self
      | none =>
          apply sound_additional plain checks
          · apply fieldSchemas_undeclared plain
            rw [hproperties, Option.bind_none]
          · intro _ unknown
            cases unknown

/-- What a step into an array schema says. -/
theorem descendArray_sound (checks : reading.Checks (depth + 2) (.obj fields) v)
    (notObject : v.asObj = none) :
    Descent.Sound reading depth v token (descendArray (.obj fields) token) := by
  cases token with
  | name name =>
      intro _
      exact field_eq_none_of_asObj notObject name
  | index position =>
      have item_checks : ∀ schema, itemSchema (.obj fields) position = some schema →
          ∀ child, childAt v (.index position) = some child →
            reading.Checks (depth + 1) schema child := by
        intro schema hschema child hchild
        obtain ⟨items, hitems, hitem⟩ := Option.bind_eq_some_iff.mp hchild
        exact checks_items checks hitems hitem hschema
      rw [itemSchema] at item_checks
      rw [descendArray]
      cases hitem : (((JsonValue.obj fields).field "prefixItems").bind asArr).bind
          fun items => items[position]? with
      | some item =>
          rw [hitem] at item_checks
          exact item_checks item rfl
      | none =>
          rw [hitem, Option.none_or] at item_checks
          cases hitems : (JsonValue.obj fields).field "items" with
          | none =>
              intro unknown
              cases unknown
          | some items =>
              have passes := item_checks items hitems
              cases items with
              | bool allowed =>
                  cases allowed with
                  | false =>
                      intro _
                      by_contra present
                      obtain ⟨child, hchild⟩ := Option.ne_none_iff_exists'.mp present
                      exact not_checks_false (passes child hchild)
                  | true => exact passes
              | obj items => exact passes
              | _ =>
                  intro unknown
                  cases unknown

/-- What a step of the walk says. -/
theorem descend_sound (plain : PlainSchema (.obj fields))
    (reads : reading.types (.obj fields) = schemaValueTypes (.obj fields))
    (checks : reading.Checks (depth + 2) (.obj fields) v) :
    Descent.Sound reading depth v token (descend reprStr (.obj fields) token) := by
  rw [descend]
  cases known : schemaValueTypes (.obj fields) with
  | none =>
      obtain ⟨noObject, noArray⟩ := silent_of_untyped plain known
      simp only [noObject, noArray, Bool.false_eq_true, if_false]
      intro unknown
      cases unknown
  | some types =>
      have apart := fun type => @not_of_hasType _ _ _ _ checks reads types known type
      have contains : ∀ type, hasType (.obj fields) type = types.contains type := by
        intro type
        rw [hasType, known, Option.getD_some]
      simp only
      split
      · split
        · next objects =>
            apply descendObject_sound plain checks
            exact isOfType_array_iff.mp (apart .array (plain.apart objects) fun _ => sole_array)
        · next noObject =>
            apply descendArray_sound checks
            apply isOfType_object_iff.mp
            apply apart .object _ fun _ => sole_object
            simp only [readsAsObject, Bool.or_eq_true, not_or, Bool.not_eq_true] at noObject
            exact noObject.2
      · next scalar =>
          simp only [Bool.or_eq_true, not_or, Bool.not_eq_true] at scalar
          intro _
          apply childAt_scalar
          · apply isOfType_object_iff.mp
            exact apart .object (by rw [contains]; exact scalar.1) fun _ => sole_object
          · apply isOfType_array_iff.mp
            exact apart .array (by rw [contains]; exact scalar.2) fun _ => sole_array

end Step

/-! ## The walk -/

theorem combineSchemaResults_absent {results : List SchemaPathResult}
    (h : (combineSchemaResults results).known = some false) :
    ∀ result ∈ results, result.known = some false := by
  rw [combineSchemaResults] at h
  split at h
  · next all =>
      intro result hresult
      simpa using List.all_eq_true.mp all result hresult
  · split at h
    · cases h
    · simp only at h
      split at h
      · cases h
      · split at h <;> cases h

variable {reading : SchemaReading} {unquote reprStr : String → String} {root : JsonValue}

/-- A path that the walk calls absent is absent in the values that pass as many checks. -/
theorem inspectSchemaNode_sound (document : PlainDocument unquote reading root) {depth : Nat}
    {node : JsonValue} {tokens : List PathToken} {references : List String}
    (visited : Visited unquote root node)
    (absent : (inspectSchemaNode unquote reprStr root depth node tokens references).known =
      some false) {v : JsonValue} (checks : reading.Checks (depth + 1) node v) :
    valueAt v tokens = none := by
  induction depth generalizing node tokens references v with
  | zero => cases absent
  | succ depth ih =>
      cases node with
      | bool allowed =>
          cases allowed with
          | false => exact absurd checks not_checks_false
          | true =>
              rw [inspectSchemaNode] at absent
              split at absent <;> cases absent
      | obj fields =>
          simp only [inspectSchemaNode] at absent
          split at absent
          · next reference hreference =>
              split at absent
              · cases absent
              · split at absent
                · cases absent
                · next target htarget =>
                    exact ih (visited.reference hreference htarget) absent
                      (checks_reference checks (localReference_field hreference)
                        (document.pointers _ _ _ visited htarget))
          · split at absent
            · next alternatives halternatives =>
                obtain ⟨alternative, hmem, passes⟩ := checks_alternative checks halternatives
                have result := combineSchemaResults_absent absent _ (List.mem_map.mpr
                  ⟨alternative, hmem, rfl⟩)
                exact ih (visited.alternative halternatives hmem) result passes
            · cases tokens with
              | nil => cases absent
              | cons token remaining =>
                  simp only at absent
                  have step := @descend_sound reading reprStr depth v token fields
                    (document.plain _ visited) (document.types _ visited) checks
                  rw [valueAt_cons]
                  cases hdescend : descend reprStr (.obj fields) token with
                  | settled result =>
                      rw [hdescend] at absent step
                      rw [step absent, Option.bind_none]
                  | into next =>
                      rw [hdescend] at absent step
                      cases hchild : childAt v token with
                      | none => rfl
                      | some child =>
                          exact ih (visited.descent hdescend) absent (step child hchild)
      | _ => cases absent

/-- A path within the depth bound that the walk over a plain document calls absent is absent in
every value that validates. -/
theorem schema_path_absent (document : PlainDocument unquote reading root) {depth : Nat}
    {tokens : List PathToken} (bounded : tokens.length ≤ maxSchemaPathDepth)
    (absent : (inspectSchemaPath unquote reprStr depth root tokens).known = some false)
    {v : JsonValue} (validates : reading.Validates root v) : valueAt v tokens = none := by
  rw [inspectSchemaPath, if_neg (Nat.not_lt.mpr bounded)] at absent
  exact inspectSchemaNode_sound document .root absent (validates (depth + 1))

/-! ## A record with an identity -/

def textSchema : JsonValue := .obj [("type", .str "string")]

def recordSchema : JsonValue :=
  .obj [("type", .str "object"), ("properties", .obj [("id", textSchema)])]

/-- JSON Schema 2020-12, with the types of the `type` keyword and local pointers into a document
whose names need no decoding. -/
def standard (root : JsonValue) : SchemaReading where
  types := declaredTypes
  matchesPattern pattern field := pattern.toList.drop 1 <+: field.toList
  resolve _ reference := localReferenceTarget id root reference
  others _ _ := True

theorem descend_record {reprStr : String → String} {name : String} (h : name ≠ "id") :
    descend reprStr recordSchema (.name name) = .settled (undeclaredField reprStr name) := by
  have apart : (name == "id") = false := by simpa using h
  change descendObject reprStr recordSchema (.name name) = _
  simp [descendObject, recordSchema, field, List.lookup_cons, asObj, apart, descendAdditional]

theorem visited_record {node : JsonValue} (visited : Visited id recordSchema node) :
    node = recordSchema ∨ node = textSchema := by
  induction visited with
  | root => exact .inl rfl
  | reference visited refers found ih => rcases ih with rfl | rfl <;> cases refers
  | alternative visited listed mem ih => rcases ih with rfl | rfl <;> cases listed
  | descent visited into ih =>
      rename_i node next token
      rcases ih with rfl | rfl
      · cases token with
        | index position => cases into
        | name name =>
            by_cases declared : name = "id"
            · subst declared
              cases into
              exact .inr rfl
            · rw [descend_record declared] at into
              cases into
      · cases token <;> cases into

theorem plain_record : PlainDocument id (standard recordSchema) recordSchema := by
  constructor
  · intro node visited
    rcases visited_record visited with rfl | rfl
    · refine ⟨?_, rfl, ?_, fun _ => rfl⟩
      · nofun
      · intro types _ untyped
        cases untyped
    · refine ⟨?_, rfl, ?_, fun _ => rfl⟩
      · nofun
      · intro types _ untyped
        cases untyped
  · intro node visited
    rcases visited_record visited with rfl | rfl <;> rfl
  · intro node reference target _ found
    exact found

def sampleRecord : JsonValue := .obj [("id", .str "a")]

/-- The only field of an object. -/
theorem field_singleton {key name : String} {value member : JsonValue}
    (h : (JsonValue.obj [(key, value)]).field name = some member) : name = key ∧ member = value := by
  by_cases same : name = key
  · subst same
    simp only [field_obj, List.lookup_cons_self, Option.some.injEq] at h
    exact ⟨rfl, h.symm⟩
  · have apart : (name == key) = false := by simpa using same
    simp [List.lookup_cons, apart] at h

theorem checks_textSchema {root : JsonValue} {text : String} :
    (standard root).Validates textSchema (.str text) := by
  intro depth
  cases depth with
  | zero => trivial
  | succ depth =>
      refine ⟨trivial, ?_, nofun, nofun, nofun, nofun, nofun, nofun⟩
      rintro types ⟨⟩
      exact ⟨.string, List.mem_cons_self, rfl⟩

theorem validates_record : (standard recordSchema).Validates recordSchema sampleRecord := by
  intro depth
  cases depth with
  | zero => trivial
  | succ depth =>
      refine ⟨trivial, ?_, nofun, nofun, nofun, nofun, ?_, nofun⟩
      · rintro types ⟨⟩
        exact ⟨.object, List.mem_cons_self, rfl⟩
      · intro name member hmember schema hschema
        obtain ⟨rfl, rfl⟩ := field_singleton hmember
        obtain rfl := List.mem_singleton.mp hschema
        exact checks_textSchema depth

/-- The record has no name. -/
theorem schema_path_absent_name :
    (inspectSchemaPath id id 2 recordSchema [.name "name"]).known = some false ∧
      (standard recordSchema).Validates recordSchema sampleRecord ∧
        valueAt sampleRecord [.name "name"] = none := by
  have absent : (inspectSchemaPath id id 2 recordSchema [.name "name"]).known = some false := rfl
  exact ⟨absent, validates_record,
    schema_path_absent plain_record (by decide) absent validates_record⟩

/-! ## Paths that are called absent and are not -/

/-- The walk calls a path absent that a valid value has. -/
def Overlooks (reading : SchemaReading) (schema : JsonValue) (tokens : List PathToken)
    (v : JsonValue) : Prop :=
  (inspectSchemaPath id id 4 schema tokens).known = some false ∧
    reading.Validates schema v ∧ valueAt v tokens ≠ none

def nested : Nat → JsonValue
  | 0 => .null
  | depth + 1 => .obj [("a", nested depth)]

theorem valueAt_nested (depth : Nat) :
    valueAt (nested depth) (List.replicate depth (.name "a")) = some .null := by
  induction depth with
  | zero => rfl
  | succ depth ih => exact ih

/-- A schema without keywords admits everything. -/
theorem validates_empty {root v : JsonValue} : (standard root).Validates (.obj []) v := by
  intro depth
  cases depth with
  | zero => trivial
  | succ depth =>
      refine ⟨trivial, nofun, nofun, nofun, nofun, nofun, ?_, ?_⟩
      · intro name member _ schema hschema
        cases hschema
      · intro items position item _ _ schema hschema
        cases hschema

theorem validates_patterned {root : JsonValue} : (standard root).Validates
    (.obj [("properties", .obj []), ("patternProperties", .obj [("^x", .obj [])])])
    (.obj [("x1", .null)]) := by
  intro depth
  cases depth with
  | zero => trivial
  | succ depth =>
      refine ⟨trivial, nofun, nofun, nofun, nofun, nofun, ?_, nofun⟩
      intro name member hmember schema hschema
      obtain ⟨rfl, rfl⟩ := field_singleton hmember
      obtain rfl := List.mem_singleton.mp hschema
      exact validates_empty depth

theorem validates_either {root : JsonValue} : (standard root).Validates
    (.obj [("type", .arr [.str "object", .str "array"])]) (.arr [.null]) := by
  intro depth
  cases depth with
  | zero => trivial
  | succ depth =>
      refine ⟨trivial, ?_, nofun, nofun, nofun, nofun, nofun, ?_⟩
      · rintro types ⟨⟩
        exact ⟨.array, by decide, rfl⟩
      · intro items position item _ _ schema hschema
        cases hschema

theorem validates_items {root : JsonValue} : (standard root).Validates
    (.obj [("items", .obj [])]) (.obj [("a", .null)]) := by
  intro depth
  cases depth with
  | zero => trivial
  | succ depth =>
      refine ⟨trivial, nofun, nofun, nofun, nofun, nofun, ?_, nofun⟩
      intro name member _ schema hschema
      cases hschema

/-- A list as a resource of its own, which refers to itself. -/
def listReference : JsonValue := .obj [("$ref", .str "#")]

def listSchema : JsonValue :=
  .obj [("$id", .str "urn:list"), ("properties", .obj [("next", listReference)])]

def embeddingSchema : JsonValue := .obj [("properties", .obj [("list", listSchema)])]

/-- The reference of the embedded resource refers to that resource. -/
def embedded : SchemaReading :=
  { standard embeddingSchema with resolve := fun _ _ => some listSchema }

def listOf : Nat → JsonValue
  | 0 => .null
  | length + 1 => .obj [("next", listOf length)]

theorem checks_listOf (depth length : Nat) :
    embedded.Checks depth listSchema (listOf length) ∧
      embedded.Checks depth listReference (listOf length) := by
  induction depth generalizing length with
  | zero => exact ⟨trivial, trivial⟩
  | succ depth ih =>
      constructor
      · refine ⟨trivial, nofun, nofun, nofun, nofun, nofun, ?_, ?_⟩
        · intro name member hmember schema hschema
          cases length with
          | zero => cases hmember
          | succ length =>
              obtain ⟨rfl, rfl⟩ := field_singleton hmember
              obtain rfl := List.mem_singleton.mp hschema
              exact (ih length).2
        · intro items position item _ _ schema hschema
          cases hschema
      · refine ⟨trivial, nofun, ?_, nofun, nofun, nofun, ?_, ?_⟩
        · rintro reference target - ⟨⟩
          exact (ih length).1
        · intro name member _ schema hschema
          cases hschema
        · intro items position item _ _ schema hschema
          cases hschema

theorem validates_embedding : embedded.Validates embeddingSchema (.obj [("list", listOf 2)]) := by
  intro depth
  cases depth with
  | zero => trivial
  | succ depth =>
      refine ⟨trivial, nofun, nofun, nofun, nofun, nofun, ?_, nofun⟩
      intro name member hmember schema hschema
      obtain ⟨rfl, rfl⟩ := field_singleton hmember
      obtain rfl := List.mem_singleton.mp hschema
      exact (checks_listOf depth 2).1

/-- A path of 33 components, a field of a declared pattern, an item where objects are admitted too,
a field where only items are spoken of, and a field of an embedded resource. -/
theorem overlooked_paths :
    Overlooks (standard (.obj [])) (.obj []) (List.replicate 33 (.name "a")) (nested 33) ∧
    (∃ schema, Overlooks (standard schema) schema [.name "x1"] (.obj [("x1", .null)]) ∧
      schema = .obj [("properties", .obj []), ("patternProperties", .obj [("^x", .obj [])])]) ∧
    (∃ schema, Overlooks (standard schema) schema [.index 0] (.arr [.null]) ∧
      schema = .obj [("type", .arr [.str "object", .str "array"])]) ∧
    (∃ schema, Overlooks (standard schema) schema [.name "a"] (.obj [("a", .null)]) ∧
      schema = .obj [("items", .obj [])]) ∧
    Overlooks embedded embeddingSchema [.name "list", .name "next", .name "next"]
      (.obj [("list", listOf 2)]) := by
  refine ⟨⟨rfl, validates_empty, ?_⟩, ⟨_, ⟨rfl, validates_patterned, by decide⟩, rfl⟩,
    ⟨_, ⟨rfl, validates_either, by decide⟩, rfl⟩, ⟨_, ⟨rfl, validates_items, by decide⟩, rfl⟩,
    ⟨rfl, validates_embedding, by decide⟩⟩
  rw [valueAt_nested]
  nofun

end SchemaReading

end Justflow
