import Justflow.Library.Json

/-!
# Paths in a contract schema

The configuration validator asks of a JSON Schema whether a value that satisfies it can have a
value at a path.  The walk over the schema follows local references, combines the alternatives of
`anyOf` and `oneOf`, and descends by the keywords for objects and arrays; where it cannot tell it
says so.
-/

namespace Justflow

open JsonValue

def maxSchemaPathDepth : Nat := 32

inductive SchemaValueType where
  | object | array | string | number | integer | boolean | null
  deriving DecidableEq

def SchemaValueType.value : SchemaValueType → String
  | .object => "object"
  | .array => "array"
  | .string => "string"
  | .number => "number"
  | .integer => "integer"
  | .boolean => "boolean"
  | .null => "null"

def SchemaValueType.ofText (text : String) : Option SchemaValueType :=
  [object, array, string, number, integer, boolean, null].find? fun type => type.value = text

inductive PathToken where
  | name (field : String)
  | index (position : Nat)
  deriving DecidableEq

/-- `SchemaPathResult`, whose `exists` is `Known`. -/
structure SchemaPathResult where
  known : Option Bool
  valueTypes : Option (List SchemaValueType) := none
  detail : Option String := none
  deriving DecidableEq

def SchemaPathResult.absent (detail : Option String) : SchemaPathResult :=
  { known := some false, detail }

def SchemaPathResult.unknown : SchemaPathResult :=
  { known := none }

/-- `"key" in node`. -/
def declares (node : JsonValue) (key : String) : Bool :=
  (node.field key).isSome

/-- The types of the `type` keyword, if they are all known. -/
def declaredTypes (node : JsonValue) : Option (List SchemaValueType) :=
  match node.field "type" with
  | some (.str type) => (SchemaValueType.ofText type).map fun type => [type]
  | some (.arr types) => types.mapM fun type => type.asStr.bind SchemaValueType.ofText
  | _ => none

/-- `_schema_value_types`: without a `type`, the keywords for objects or for arrays tell it. -/
def schemaValueTypes (node : JsonValue) : Option (List SchemaValueType) :=
  match node.field "type" with
  | some (.str _) => declaredTypes node
  | some (.arr _) => declaredTypes node
  | _ =>
      if declares node "properties" || declares node "additionalProperties" then some [.object]
      else if declares node "items" || declares node "prefixItems" then some [.array]
      else none

def alternativesUnder (node : JsonValue) (keyword : String) : Option (List JsonValue) :=
  match node.field keyword with
  | some (.arr (first :: rest)) => some (first :: rest)
  | _ => none

/-- `_schema_alternatives`. -/
def schemaAlternatives (node : JsonValue) : Option (List JsonValue) :=
  (alternativesUnder node "anyOf").or (alternativesUnder node "oneOf")

/-- `_combine_schema_results`. -/
def combineSchemaResults (results : List SchemaPathResult) : SchemaPathResult :=
  if results.all fun result => result.known = some false then
    .absent (results.findSome? fun result => result.detail)
  else if results.any fun result => result.known = none then .unknown
  else
    let existing := results.filter fun result => result.known = some true
    if existing = [] then .unknown
    else if existing.any fun result => result.valueTypes = none then { known := some true }
    else
      { known := some true
        valueTypes := some (existing.flatMap fun result => result.valueTypes.getD []).dedup }

section Walk

-- Percent decoding and the text form of a name are the host language's.
variable (unquote reprStr : String → String)

def decimal (part : String) : Option Nat :=
  if part.isEmpty || !part.toList.all Char.isDigit then none
  else some (part.toList.foldl (fun value c => value * 10 + (c.toNat - '0'.toNat)) 0)

/-- One step of a JSON pointer. -/
def pointerStep (current : JsonValue) (part : String) : Option JsonValue :=
  match current with
  | .obj fields => fields.lookup part
  | .arr items => (decimal part).bind fun position => items[position]?
  | _ => none

/-- `_local_reference_target`. -/
def localReferenceTarget (root : JsonValue) (reference : String) : Option JsonValue :=
  if reference = "" ∨ reference = "#" then some root
  else
    match (unquote (String.ofList (reference.toList.drop 1))).toList with
    | '/' :: pointer =>
        ((String.ofList pointer).splitOn "/").foldlM (fun current encoded =>
          pointerStep current ((encoded.replace "~1" "/").replace "~0" "~")) root
    | _ => none

def localReference (node : JsonValue) : Option String :=
  match node.field "$ref" with
  | some (.str reference) => if reference.toList.head? = some '#' then some reference else none
  | _ => none

def sortedTypeNames (types : List SchemaValueType) : String :=
  ", ".intercalate ((types.map SchemaValueType.value).mergeSort fun first second => first ≤ second)

def undeclaredField (field : String) : SchemaPathResult :=
  .absent (some ("field " ++ reprStr field ++ " is not declared"))

/-- What the walk looks at next: it is settled, or a subschema decides on the remaining path. -/
inductive Descent where
  | settled (result : SchemaPathResult)
  | into (node : JsonValue)

/-- The step into a field that no property declares. -/
def descendAdditional (field : String) (otherwise : Descent) : Option JsonValue → Descent
  | some (.bool false) => .settled (undeclaredField reprStr field)
  | some (.bool true) => .into (.bool true)
  | some (.obj fields) => .into (.obj fields)
  | _ => otherwise

/-- The step of a path into an object schema. -/
def descendObject (node : JsonValue) : PathToken → Descent
  | .index _ => .settled (.absent (some "object path requires a named field"))
  | .name field =>
      match (node.field "properties").bind asObj with
      | some properties =>
          match properties.lookup field with
          | some property => .into property
          | none => descendAdditional reprStr field (.settled (undeclaredField reprStr field))
              (node.field "additionalProperties")
      | none => descendAdditional reprStr field (.settled .unknown)
          (node.field "additionalProperties")

/-- The step of a path into an array schema. -/
def descendArray (node : JsonValue) : PathToken → Descent
  | .name _ => .settled (.absent (some "array path requires a numeric index"))
  | .index position =>
      match ((node.field "prefixItems").bind asArr).bind fun items => items[position]? with
      | some item => .into item
      | none =>
          match node.field "items" with
          | some (.bool false) => .settled (.absent
              (some ("array index " ++ toString position ++ " is not declared")))
          | some (.bool true) => .into (.bool true)
          | some (.obj fields) => .into (.obj fields)
          | _ => .settled .unknown

def hasType (node : JsonValue) (type : SchemaValueType) : Bool :=
  ((schemaValueTypes node).getD []).contains type

def readsAsObject (node : JsonValue) : Bool :=
  ((node.field "properties").bind asObj).isSome || hasType node .object

def readsAsArray (node : JsonValue) : Bool :=
  hasType node .array || declares node "items" || declares node "prefixItems"

/-- The step of a path into a schema without a reference and without alternatives. -/
def descend (node : JsonValue) (token : PathToken) : Descent :=
  match schemaValueTypes node with
  | some types =>
      if types.contains .object || types.contains .array then
        if readsAsObject node then descendObject reprStr node token
        else descendArray node token
      else .settled (.absent
        (some ("cannot traverse schema-known " ++ sortedTypeNames types ++ " value")))
  | none =>
      if readsAsObject node then descendObject reprStr node token
      else if readsAsArray node then descendArray node token
      else .settled .unknown

/-- `_inspect_schema_node`; the recursion stops where its depth is used up. -/
def inspectSchemaNode (root : JsonValue) :
    Nat → JsonValue → List PathToken → List String → SchemaPathResult
  | 0, _, _, _ => .unknown
  | _ + 1, .bool false, _, _ => .absent none
  | _ + 1, .bool true, tokens, _ => if tokens = [] then { known := some true } else .unknown
  | depth + 1, .obj fields, tokens, references =>
      match localReference (.obj fields) with
      | some reference =>
          if reference ∈ references then .unknown
          else
            match localReferenceTarget unquote root reference with
            | none => .unknown
            | some target => inspectSchemaNode root depth target tokens (reference :: references)
      | none =>
          match schemaAlternatives (.obj fields) with
          | some alternatives => combineSchemaResults (alternatives.map fun alternative =>
              inspectSchemaNode root depth alternative tokens references)
          | none =>
              match tokens with
              | [] => { known := some true, valueTypes := schemaValueTypes (.obj fields) }
              | token :: remaining =>
                  match descend reprStr (.obj fields) token with
                  | .settled result => result
                  | .into next => inspectSchemaNode root depth next remaining references
  | _ + 1, _, _, _ => .unknown

/-- `inspect_schema_path`, for a schema document. -/
def inspectSchemaPath (depth : Nat) (schema : JsonValue) (tokens : List PathToken) :
    SchemaPathResult :=
  if tokens.length > maxSchemaPathDepth then
    .absent (some ("path exceeds " ++ toString maxSchemaPathDepth ++ " components"))
  else inspectSchemaNode unquote reprStr schema depth schema tokens []

end Walk

end Justflow
