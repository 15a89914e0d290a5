import Mathlib.Algebra.Order.Ring.Unbundled.Rat
import Justflow.Engine.References

/-!
# Inline conditions

A condition is a text whose syntax tree the host language's parser gives; the tree is checked
against a whitelist and then evaluated against the step input, the outputs and the parameters.
The parser itself is a parameter of the model.  Its trees hold the constants a condition may
compare with: null, booleans, integers, finite floats and strings.

Nothing in an evaluation looks at key order: equality and membership do not, and no value is
printed.  That is the last theorem of this module.
-/

open Fields Program JsonValue

namespace Justflow

inductive CompareOp where
  | eq | notEq | lt | ltE | gt | gtE | inside | notInside
  | other (name : String)
  deriving DecidableEq, Repr

/-- A constant of a condition. -/
inductive Literal where
  | null
  | bool (value : Bool)
  | int (value : Int)
  | float (value : FiniteFloat)
  | str (value : String)
  deriving DecidableEq, Repr

def Literal.toJson : Literal → JsonValue
  | .null => .null
  | .bool b => .bool b
  | .int n => .int n
  | .float f => .float f
  | .str s => .str s

/-- The syntax trees the parser gives. -/
inductive Expr where
  | boolOp (isAnd : Bool) (values : List Expr)
  | unaryNot (operand : Expr)
  | unaryOther (operand : Expr)
  | compare (left : Expr) (ops : List CompareOp) (comparators : List Expr)
  | call (func : Expr) (args : List Expr) (keywords : Bool)
  | attribute (value : Expr) (attr : String)
  | subscript (value : Expr) (slice : Expr)
  | name (id : String)
  | constant (value : Literal)
  | collection (isTuple : Bool) (elements : List Expr)
  | other (kind : String)

namespace Expr

def isReference : Expr → Bool
  | .name _ | .attribute _ _ | .subscript _ _ => true
  | _ => false

def literal : Expr → Option Literal
  | .constant value => some value
  | _ => none

/-- The token a constant subscript stands for. -/
def sliceToken : Expr → Option ReferenceToken
  | .constant (.str s) => some (.key s)
  | .constant (.int n) => some (.index n)
  | .constant (.bool b) => some (.flag b)
  | _ => none

end Expr

def whitelistedFunctions : List String := ["len", "exists"]

def nameLiterals : List (String × JsonValue) :=
  [("true", .bool true), ("false", .bool false), ("null", .null), ("True", .bool true),
    ("False", .bool false), ("None", .null)]

def CompareOp.kind : CompareOp → String
  | .eq => "Eq"
  | .notEq => "NotEq"
  | .lt => "Lt"
  | .ltE => "LtE"
  | .gt => "Gt"
  | .gtE => "GtE"
  | .inside => "In"
  | .notInside => "NotIn"
  | .other name => name

def CompareOp.check : CompareOp → Except String Unit
  | .other name => .error s!"comparison operator '{name}' is not allowed"
  | _ => .ok ()

mutual

/-- The whitelist, as the details of the syntax errors it raises. -/
def checkNode : Expr → Except String Unit
  | .boolOp _ values => checkNodes values
  | .unaryNot operand => checkNode operand
  | .unaryOther _ => .error "only 'not' is allowed as a unary operator"
  | .compare left ops comparators => do
      ops.forM CompareOp.check
      checkNode left
      checkNodes comparators
  | .call func args keywords =>
      match func with
      | .name id =>
          if id ∈ whitelistedFunctions then
            if keywords || args.length != 1 then
              .error s!"{id}() takes exactly one positional argument"
            else if id = "exists" && !args.all Expr.isReference then
              .error "exists() takes a reference, not a literal"
            else checkNodes args
          else .error "only ('len', 'exists') functions are allowed"
      | _ => .error "only ('len', 'exists') functions are allowed"
  | .attribute value _ =>
      if value.isReference then checkNode value
      else .error "attribute access is only valid on references"
  | .subscript value slice =>
      if value.isReference then
        if slice.sliceToken.isSome then checkNode value
        else .error "subscripts must be string or int constants"
      else .error "subscripts are only valid on references"
  | .name _ => .ok ()
  | .constant _ => .ok ()
  | .collection _ elements =>
      if elements.all fun e => e.literal.isSome then .ok ()
      else .error "collections may only contain literals"
  | .other kind => .error s!"unsupported syntax: {kind}"

def checkNodes : List Expr → Except String Unit
  | [] => .ok ()
  | e :: rest => do
      checkNode e
      checkNodes rest

end

/-- The parser of the host language, given the stripped text; an error is its message. -/
abbrev ExpressionParser := String → Except String Expr

def parseCondition (parse : ExpressionParser) (expression : String) : Except String Expr := do
  let tree ← parse expression
  checkNode tree
  return tree

mutual

/-- Every name of a tree, functions and literals included. -/
def namesOf : Expr → List String
  | .boolOp _ values => namesOfAll values
  | .unaryNot operand => namesOf operand
  | .unaryOther operand => namesOf operand
  | .compare left _ comparators => namesOf left ++ namesOfAll comparators
  | .call func args _ => namesOf func ++ namesOfAll args
  | .attribute value _ => namesOf value
  | .subscript value slice => namesOf value ++ namesOf slice
  | .name id => [id]
  | .constant _ => []
  | .collection _ elements => namesOfAll elements
  | .other _ => []

def namesOfAll : List Expr → List String
  | [] => []
  | e :: rest => namesOf e ++ namesOfAll rest

end

def conditionReferenceRoots (parse : ExpressionParser) (expression : String) :
    Except String (List String) := do
  let tree ← parseCondition parse expression
  return (namesOf tree).filter fun id =>
    !(keys nameLiterals).contains id && !whitelistedFunctions.contains id

/-! ## Values and operators -/

/-- What an expression evaluates to; only a tuple literal is not a JSON value. -/
inductive EvalValue where
  | json (value : JsonValue)
  | tuple (items : List Literal)
  deriving DecidableEq

def EvalValue.typeName : EvalValue → String
  | .json v => pyTypeName v
  | .tuple _ => "tuple"

/-- A tuple counts as a list where a JSON value is asked for. -/
def EvalValue.toJson : EvalValue → JsonValue
  | .json v => v
  | .tuple items => .arr (items.map Literal.toJson)

mutual

/-- Numbers as exact values, so that equal numbers of different types become equal. -/
def plain : JsonValue → JsonValue
  | .bool b => .float ⟨if b then 1 else 0, ""⟩
  | .int n => .float ⟨n, ""⟩
  | .float f => .float ⟨f.value, ""⟩
  | .arr items => .arr (plainItems items)
  | .obj fields => .obj (plainFields fields)
  | .null => .null
  | .str s => .str s

def plainItems : List JsonValue → List JsonValue
  | [] => []
  | v :: rest => plain v :: plainItems rest

def plainFields : List (String × JsonValue) → List (String × JsonValue)
  | [] => []
  | (key, v) :: rest => (key, plain v) :: plainFields rest

end

/-- Equality of the host language: numbers by value, objects without their key order. -/
def pyEq (v w : JsonValue) : Bool :=
  plain v.wire = plain w.wire

def pyTruthy : JsonValue → Bool
  | .null => false
  | .bool b => b
  | .int n => n != 0
  | .float f => f.value != 0
  | .str s => s != ""
  | .arr items => !items.isEmpty
  | .obj fields => !fields.isEmpty

def EvalValue.truthy : EvalValue → Bool
  | .json v => pyTruthy v
  | .tuple items => !items.isEmpty

def asNumber : JsonValue → Option Rat
  | .bool b => some (if b then 1 else 0)
  | .int n => some n
  | .float f => some f.value
  | _ => none

/-- The four order comparisons, on a linear order. -/
def CompareOp.holds {α : Type} [LinearOrder α] (op : CompareOp) (a b : α) : Bool :=
  match op with
  | .lt => decide (a < b)
  | .ltE => decide (a ≤ b)
  | .gt => decide (b < a)
  | _ => decide (b ≤ a)

def CompareOp.symbol : CompareOp → String
  | .lt => "<"
  | .ltE => "<="
  | .gt => ">"
  | _ => ">="

/-- The text of the type error of an unsupported comparison. -/
def notSupported (op : CompareOp) (left right : String) : String :=
  let symbol := op.symbol
  s!"'{symbol}' not supported between instances of '{left}' and '{right}'"

mutual

/-- An order comparison; an error is the text of the type error. -/
def pyOrder (op : CompareOp) : JsonValue → JsonValue → Except String Bool
  | .arr xs, .arr ys => pyOrderItems op xs ys
  | .str s, .str t => .ok (op.holds s t)
  | v, w =>
      match asNumber v, asNumber w with
      | some p, some q => .ok (op.holds p q)
      | _, _ => .error (notSupported op (pyTypeName v) (pyTypeName w))

/-- Lists compare by their first difference, and otherwise by length. -/
def pyOrderItems (op : CompareOp) : List JsonValue → List JsonValue → Except String Bool
  | x :: xs, y :: ys => if pyEq x y then pyOrderItems op xs ys else pyOrder op x y
  | xs, ys => .ok (op.holds xs.length ys.length)

end

/-- Characters of one string occurring in another, contiguously. -/
def isSubstring (needle : List Char) : List Char → Bool
  | [] => needle.isEmpty
  | c :: rest => needle.isPrefixOf (c :: rest) || isSubstring needle rest

/-- Membership in a list: a tuple is equal to no JSON value. -/
def memberOf (left : EvalValue) (items : List JsonValue) : Bool :=
  match left with
  | .json v => items.any fun item => pyEq item v
  | .tuple _ => false

def pyContains (left : EvalValue) (right : EvalValue) : Except String Bool :=
  match right with
  | .tuple items => .ok (memberOf left (items.map Literal.toJson))
  | .json (.arr items) => .ok (memberOf left items)
  | .json (.obj fields) =>
      match left with
      | .json (.str s) => .ok ((keys fields).contains s)
      | .json (.arr _) => .error "unhashable type: 'list'"
      | .json (.obj _) => .error "unhashable type: 'dict'"
      | _ => .ok false
  | .json (.str s) =>
      match left with
      | .json (.str needle) => .ok (isSubstring needle.toList s.toList)
      | v =>
          let name := v.typeName
          .error s!"'in <string>' requires string as left operand, not {name}"
  | .json v =>
      let name := pyTypeName v
      .error s!"argument of type '{name}' is not iterable"

def EvalValue.pyEq : EvalValue → EvalValue → Bool
  | .json v, .json w => Justflow.pyEq v w
  | .tuple xs, .tuple ys => Justflow.pyEq (.arr (xs.map Literal.toJson)) (.arr (ys.map Literal.toJson))
  | _, _ => false

def compareValues (op : CompareOp) (left right : EvalValue) : Except String Bool :=
  match op with
  | .inside => pyContains left right
  | .notInside => do return !(← pyContains left right)
  | .eq => .ok (left.pyEq right)
  | .notEq => .ok (!left.pyEq right)
  | op =>
      match left, right with
      | .json v, .json w => pyOrder op v w
      | .tuple xs, .tuple ys =>
          pyOrderItems op (xs.map Literal.toJson) (ys.map Literal.toJson)
      | _, _ => .error (notSupported op left.typeName right.typeName)

def pyLen : EvalValue → Except String Nat
  | .json (.str s) => .ok s.length
  | .json (.arr items) => .ok items.length
  | .json (.obj fields) => .ok fields.length
  | .tuple items => .ok items.length
  | .json v =>
      let name := pyTypeName v
      .error s!"object of type '{name}' has no len()"

/-! ## Evaluation -/

structure EvalContext where
  data : JsonValue
  stepOutputs : JsonObject
  params : JsonObject

/-- The keys of an object, sorted and printed as a list of strings. -/
def printKeys (reprStr : String → String) (fields : JsonObject) : String :=
  "[" ++ ", ".intercalate ((keys (sortKeys fields)).map reprStr) ++ "]"

def resolveRoot (reprStr : String → String) (name : String) (ctx : EvalContext) :
    Except EngineException JsonValue :=
  if name = "input" then .ok ctx.data
  else
    match lookupRoot name ctx.stepOutputs ctx.params with
    | some v => .ok v
    | none =>
        let steps := printKeys reprStr ctx.stepOutputs
        let params := printKeys reprStr ctx.params
        .error (.conditionEvaluation (s!"'{name}' is not 'input', a step output, or a workflow "
          ++ s!"param (steps: {steps}, params: {params})"))

/-- Data errors become condition errors; a size limit passes through. -/
def asConditionError {α : Type} (x : Except EngineException α) : Except EngineException α :=
  match x with
  | .error (.dataNormalization path detail) =>
      .error (.conditionEvaluation (EngineException.dataNormalization path detail).text)
  | .error (.dataPath path detail) =>
      .error (.conditionEvaluation (EngineException.dataPath path detail).text)
  | other => other

def getPathValue (value : EvalValue) (token : ReferenceToken) :
    Except EngineException EvalValue := do
  return .json (← asConditionError (resolveJsonPath value.toJson [token] "condition value"))

def asComparison (left right : EvalValue) (x : Except String Bool) :
    Except EngineException Bool :=
  match x with
  | .ok b => .ok b
  | .error detail =>
      let leftName := left.typeName
      let rightName := right.typeName
      .error (.conditionEvaluation s!"cannot compare {leftName} with {rightName} ({detail})")

mutual

def evaluate (reprStr : String → String) (ctx : EvalContext) :
    Expr → Except EngineException EvalValue
  | .boolOp true values => do return .json (.bool (← evaluateAll reprStr ctx values))
  | .boolOp false values => do return .json (.bool (← evaluateAny reprStr ctx values))
  | .unaryNot operand => do return .json (.bool !(← evaluate reprStr ctx operand).truthy)
  | .compare left ops comparators => do
      let value ← evaluate reprStr ctx left
      return .json (.bool (← evaluateChain reprStr ctx value ops comparators))
  | .call (.name id) args _ =>
      if id = "exists" then
        match evaluateHead reprStr ctx args with
        | .ok _ => .ok (.json (.bool true))
        | .error (.conditionEvaluation _) => .ok (.json (.bool false))
        | .error e => .error e
      else do
        let value ← evaluateHead reprStr ctx args
        match pyLen value with
        | .ok n => return .json (.int n)
        | .error detail =>
            let name := value.typeName
            .error (.conditionEvaluation s!"len() of {name} ({detail})")
  | .call _ _ _ => .error (.conditionEvaluation "invalid function call")
  | .attribute value attr => do getPathValue (← evaluate reprStr ctx value) (.key attr)
  | .subscript value slice =>
      match slice.sliceToken with
      | some token => do getPathValue (← evaluate reprStr ctx value) token
      | none => .error (.conditionEvaluation "invalid subscript")
  | .name id =>
      match nameLiterals.lookup id with
      | some literal => .ok (.json literal)
      | none => do return .json (← resolveRoot reprStr id ctx)
  | .constant value => .ok (.json value.toJson)
  | .collection isTuple elements =>
      -- the whitelist admits constants only
      let values := elements.filterMap Expr.literal
      .ok (if isTuple then .tuple values else .json (EvalValue.tuple values).toJson)
  | .unaryOther _ => .error (.conditionEvaluation "unsupported node UnaryOp")
  | .other kind => .error (.conditionEvaluation s!"unsupported node {kind}")

/-- `and`, stopping at the first false value. -/
def evaluateAll (reprStr : String → String) (ctx : EvalContext) :
    List Expr → Except EngineException Bool
  | [] => .ok true
  | e :: rest => do
      if (← evaluate reprStr ctx e).truthy then evaluateAll reprStr ctx rest else return false

/-- `or`, stopping at the first true value. -/
def evaluateAny (reprStr : String → String) (ctx : EvalContext) :
    List Expr → Except EngineException Bool
  | [] => .ok false
  | e :: rest => do
      if (← evaluate reprStr ctx e).truthy then return true else evaluateAny reprStr ctx rest

/-- A chain of comparisons, stopping at the first that fails. -/
def evaluateChain (reprStr : String → String) (ctx : EvalContext) (left : EvalValue) :
    List CompareOp → List Expr → Except EngineException Bool
  | op :: ops, e :: rest => do
      let right ← evaluate reprStr ctx e
      if ← asComparison left right (compareValues op left right) then
        evaluateChain reprStr ctx right ops rest
      else return false
  | _, _ => .ok true

def evaluateHead (reprStr : String → String) (ctx : EvalContext) :
    List Expr → Except EngineException EvalValue
  | [] => .error (.python "IndexError" "list index out of range")
  | e :: _ => evaluate reprStr ctx e

end

/-- An inline condition over data, outputs and parameters. -/
def evaluateCondition (parse : ExpressionParser) (reprStr : String → String)
    (condition : String) (data : JsonValue) (stepOutputs params : JsonObject) :
    Except EngineException Bool := do
  match parseCondition parse condition with
  | .error detail => .error (.conditionEvaluation s!"Invalid condition: {detail}")
  | .ok tree =>
      let normalizedData ←
        asConditionError (normalizeJsonValue defaultCollectionItems data "input" 0)
      let normalizedOutputs ←
        asConditionError (normalizeJsonObject defaultCollectionItems stepOutputs "steps")
      let normalizedParams ←
        asConditionError (normalizeJsonObject defaultCollectionItems params "params")
      return (← evaluate reprStr ⟨normalizedData, normalizedOutputs, normalizedParams⟩
        tree).truthy

/-! ## Key order -/

@[simp]
theorem pyTypeName_wire (v : JsonValue) : pyTypeName v.wire = pyTypeName v := by
  cases v <;> simp [pyTypeName]

@[simp]
theorem pyTruthy_wire (v : JsonValue) : pyTruthy v.wire = pyTruthy v := by
  cases v with
  | arr items => cases items <;> simp [pyTruthy]
  | obj fields =>
      have hempty : (sortKeys (fields.map fun e => (e.1, e.2.wire))).isEmpty
          = fields.isEmpty := by
        rw [Bool.eq_iff_iff]
        simp only [List.isEmpty_iff, sortKeys_eq_nil, List.map_eq_nil_iff]
      simp only [wire_obj, pyTruthy, hempty]
  | _ => rfl

@[simp]
theorem asNumber_wire (v : JsonValue) : asNumber v.wire = asNumber v := by
  cases v <;> simp [asNumber]

@[simp]
theorem pyEq_wire (v w : JsonValue) : pyEq v.wire w.wire = pyEq v w := by
  simp [pyEq]

theorem pyOrderItems_wire {op : CompareOp} {xs : List JsonValue}
    (h : ∀ x ∈ xs, ∀ y, pyOrder op x.wire y.wire = pyOrder op x y) (ys : List JsonValue) :
    pyOrderItems op (xs.map wire) (ys.map wire) = pyOrderItems op xs ys := by
  induction xs generalizing ys with
  | nil => cases ys <;> simp [pyOrderItems]
  | cons x xs ih =>
      cases ys with
      | nil => simp [pyOrderItems]
      | cons y ys =>
          simp only [List.map_cons, pyOrderItems, pyEq_wire, h x (by simp) y,
            ih (fun z hz => h z (by simp [hz])) ys]

theorem pyOrder_wire (op : CompareOp) (v w : JsonValue) :
    pyOrder op v.wire w.wire = pyOrder op v w := by
  induction v generalizing w with
  | arr items ih =>
      cases w with
      | arr ys => simpa only [wire_arr, pyOrder] using pyOrderItems_wire ih ys
      | _ => simp [pyOrder, pyTypeName, asNumber]
  | _ => cases w <;> simp [pyOrder, pyTypeName, asNumber]

def EvalValue.wire : EvalValue → EvalValue
  | .json v => .json v.wire
  | .tuple items => .tuple items

@[simp]
theorem map_wire_toJson (items : List Literal) :
    (items.map Literal.toJson).map JsonValue.wire = items.map Literal.toJson := by
  rw [List.map_map]
  exact List.map_congr_left fun item _ => by cases item <;> rfl

@[simp]
theorem typeName_wire (v : EvalValue) : v.wire.typeName = v.typeName := by
  cases v <;> simp [EvalValue.wire, EvalValue.typeName]

@[simp]
theorem truthy_wire (v : EvalValue) : v.wire.truthy = v.truthy := by
  cases v <;> simp [EvalValue.wire, EvalValue.truthy]

theorem memberOf_wire (left : EvalValue) (items : List JsonValue) :
    memberOf left.wire (items.map JsonValue.wire) = memberOf left items := by
  cases left <;> simp [EvalValue.wire, memberOf, Function.comp_def]

theorem pyContains_wire (left right : EvalValue) :
    pyContains left.wire right.wire = pyContains left right := by
  cases right with
  | tuple items =>
      have h := memberOf_wire left (items.map Literal.toJson)
      rw [map_wire_toJson] at h
      simpa only [EvalValue.wire, pyContains] using congrArg Except.ok h
  | json v =>
      cases v with
      | arr items =>
          simpa only [EvalValue.wire, wire_arr, pyContains] using
            congrArg Except.ok (memberOf_wire left items)
      | obj fields =>
          have hkeys : ∀ s, s ∈ keys (sortKeys (fields.map fun e => (e.1, e.2.wire)))
              ↔ s ∈ keys fields := by
            intro s
            rw [(sameFields_sortKeys _).mem_keys_iff, keys_map_snd]
          cases left with
          | tuple items => simp [EvalValue.wire, pyContains]
          | json u => cases u <;> simp [EvalValue.wire, pyContains, hkeys]
      | str s =>
          cases left with
          | tuple items => simp [EvalValue.wire, pyContains, EvalValue.typeName]
          | json u => cases u <;> simp [EvalValue.wire, pyContains, EvalValue.typeName, pyTypeName]
      | _ => simp [EvalValue.wire, pyContains, pyTypeName]

theorem compareValues_wire (op : CompareOp) (left right : EvalValue) :
    compareValues op left.wire right.wire = compareValues op left right := by
  have heq : left.wire.pyEq right.wire = left.pyEq right := by
    cases left <;> cases right <;> simp [EvalValue.wire, EvalValue.pyEq]
  cases op with
  | inside => simp [compareValues, pyContains_wire]
  | notInside => simp [compareValues, pyContains_wire]
  | eq => simp [compareValues, heq]
  | notEq => simp [compareValues, heq]
  | _ =>
      cases left <;> cases right <;>
        simp [compareValues, EvalValue.wire, pyOrder_wire, EvalValue.typeName]

theorem pyLen_wire (v : EvalValue) : pyLen v.wire = pyLen v := by
  cases v with
  | tuple items => rfl
  | json v => cases v <;> simp [EvalValue.wire, pyLen, pyTypeName]

/-- Two values of related runs. -/
inductive RelatedEval : EvalValue → EvalValue → Prop where
  | json {v w : JsonValue} (related : Reordered v w)
      (stable : StableNormal defaultCollectionItems v) : RelatedEval (.json v) (.json w)
  | tuple (items : List Literal) : RelatedEval (.tuple items) (.tuple items)

theorem RelatedEval.wire_eq {v w : EvalValue} (h : RelatedEval v w) : w.wire = v.wire := by
  cases h with
  | json related _ => simp [EvalValue.wire, related.wire_eq]
  | tuple _ => rfl

theorem RelatedEval.typeName_eq {v w : EvalValue} (h : RelatedEval v w) :
    w.typeName = v.typeName := by
  rw [← typeName_wire w, h.wire_eq, typeName_wire]

theorem RelatedEval.truthy_eq {v w : EvalValue} (h : RelatedEval v w) : w.truthy = v.truthy := by
  rw [← truthy_wire w, h.wire_eq, truthy_wire]

theorem RelatedEval.pyLen_eq {v w : EvalValue} (h : RelatedEval v w) : pyLen w = pyLen v := by
  rw [← pyLen_wire w, h.wire_eq, pyLen_wire]

theorem RelatedEval.asComparison_eq {v v' w w' : EvalValue} (h : RelatedEval v v')
    (h' : RelatedEval w w') (op : CompareOp) :
    asComparison v' w' (compareValues op v' w') = asComparison v w (compareValues op v w) := by
  have hcompare : compareValues op v' w' = compareValues op v w := by
    rw [← compareValues_wire, h.wire_eq, h'.wire_eq, compareValues_wire]
  unfold asComparison
  rw [hcompare, h.typeName_eq, h'.typeName_eq]

theorem RelatedEval.of_literal (value : Literal) :
    RelatedEval (.json value.toJson) (.json value.toJson) :=
  .json (Reordered.refl _) (.inr (by cases value <;> rfl))

theorem RelatedEval.bool (b : Bool) : RelatedEval (.json (.bool b)) (.json (.bool b)) :=
  .json (.bool b) (.inr rfl)

theorem RelatedEval.toJson {v w : EvalValue} (h : RelatedEval v w) :
    Reordered v.toJson w.toJson ∧ StableNormal defaultCollectionItems v.toJson := by
  cases h with
  | json related stable => exact ⟨related, stable⟩
  | tuple items =>
      refine ⟨Reordered.refl _, .inr ?_⟩
      rw [EvalValue.toJson, wire_arr, map_wire_toJson]

theorem asConditionError_related {α β : Type} {R : α → β → Prop}
    {x : Except EngineException α} {y : Except EngineException β}
    (h : RelatedExcept Eq R x y) :
    RelatedExcept Eq R (asConditionError x) (asConditionError y) := by
  cases h with
  | ok value => exact .ok value
  | @error e d raised =>
      subst raised
      cases e <;> exact .error rfl

theorem fits_mono {maxItems : Nat} {v : JsonValue} {depth depth' : Nat}
    (h : fits maxItems v depth = true) (hle : depth' ≤ depth) :
    fits maxItems v depth' = true := by
  induction v generalizing depth depth' with
  | arr items ih =>
      simp only [fits, fitsItems_eq_all, Bool.and_eq_true, decide_eq_true_eq,
        List.all_eq_true] at h ⊢
      exact ⟨⟨by omega, h.1.2⟩, fun v hv => ih v hv (h.2 v hv) (by omega)⟩
  | obj fields ih =>
      simp only [fits, fitsFields_eq_all, Bool.and_eq_true, decide_eq_true_eq,
        List.all_eq_true] at h ⊢
      exact ⟨⟨by omega, h.1.2⟩, fun e he => ih e he (h.2 e he) (by omega)⟩
  | _ =>
      simp only [fits, decide_eq_true_eq] at h ⊢
      omega

theorem fits_of_mem_arr {maxItems : Nat} {items : List JsonValue} {v : JsonValue} {depth : Nat}
    (h : fits maxItems (.arr items) depth = true) (hv : v ∈ items) :
    fits maxItems v depth = true := by
  simp only [fits, fitsItems_eq_all, Bool.and_eq_true, List.all_eq_true] at h
  exact fits_mono (h.2 v hv) (by omega)

theorem fits_of_mem_obj {maxItems : Nat} {fields : JsonObject} {e : String × JsonValue}
    {depth : Nat} (h : fits maxItems (.obj fields) depth = true) (he : e ∈ fields) :
    fits maxItems e.2 depth = true := by
  simp only [fits, fitsFields_eq_all, Bool.and_eq_true, List.all_eq_true] at h
  exact fits_mono (h.2 e he) (by omega)

theorem mem_of_lookup {fields : JsonObject} {key : String} {v : JsonValue}
    (h : fields.lookup key = some v) : ∃ e ∈ fields, e.2 = v := by
  rw [lookup_eq_head_at, Option.map_eq_some_iff] at h
  obtain ⟨e, he, rfl⟩ := h
  exact ⟨e, (List.mem_filter.mp (List.mem_of_mem_head? he)).1, rfl⟩

/-- What a path leads to is within the bounds its start is in. -/
theorem fits_of_resolveTokens {tokens : List ReferenceToken} {v w : JsonValue} {path : String}
    {maxItems : Nat} (h : resolveTokens tokens v path = .ok w)
    (hv : fits maxItems v 0 = true) : fits maxItems w 0 = true := by
  induction tokens generalizing v path with
  | nil =>
      cases h
      exact hv
  | cons token rest ih =>
      simp only [resolveTokens] at h
      cases hstep : resolveToken v token path with
      | error e =>
          rw [hstep] at h
          cases h
      | ok next =>
          rw [hstep, ok_bind] at h
          refine ih h ?_
          unfold resolveToken at hstep
          split at hstep
          · rename_i fields name
            split at hstep
            · rename_i u hu
              cases hstep
              obtain ⟨e, he, rfl⟩ := mem_of_lookup hu
              exact fits_of_mem_obj hv he
            · cases hstep
          · cases hstep
          · rename_i items position
            split at hstep
            · cases hstep
            · split at hstep
              · rename_i u hu
                cases hstep
                exact fits_of_mem_arr hv (List.mem_of_getElem? hu)
              · cases hstep
          · cases hstep
          · cases hstep

theorem fits_of_resolveJsonPath {tokens : List ReferenceToken} {v w : JsonValue}
    {root : String} (h : resolveJsonPath v tokens root = .ok w) :
    fits defaultCollectionItems w 0 = true := by
  unfold resolveJsonPath at h
  split at h
  · cases h
  · by_cases hv : fits defaultCollectionItems v 0 = true
    · rw [normalizeJsonValue_of_fits hv, ok_bind] at h
      exact fits_of_resolveTokens h hv
    · obtain ⟨e, he⟩ := normalizeJsonValue_of_not_fits (by simpa using hv) root
      rw [he] at h
      cases h

theorem getPathValue_related {v w : EvalValue} (h : RelatedEval v w) (token : ReferenceToken) :
    RelatedExcept Eq RelatedEval (getPathValue v token) (getPathValue w token) := by
  unfold getPathValue
  obtain ⟨hvw, hstable⟩ := h.toJson
  have hpath := resolveJsonPath_reordered hvw hstable [token] "condition value"
  have hfits : ∀ a, resolveJsonPath v.toJson [token] "condition value" = .ok a →
      fits defaultCollectionItems a 0 = true := fun _ => fits_of_resolveJsonPath
  generalize resolveJsonPath v.toJson [token] "condition value" = x at hpath hfits ⊢
  generalize resolveJsonPath w.toJson [token] "condition value" = y at hpath ⊢
  cases hpath with
  | ok value => exact .ok (.json value (.inl (hfits _ rfl)))
  | @error e d raised =>
      subst raised
      cases e <;> exact .error rfl

/-- Contexts of related runs, after their data has been normalized. -/
structure RelatedContext (ctx ctx' : EvalContext) : Prop where
  data : Reordered ctx.data ctx'.data
  stepOutputs : ReorderedFields ctx.stepOutputs ctx'.stepOutputs
  params : ReorderedFields ctx.params ctx'.params
  stableData : StableNormal defaultCollectionItems ctx.data
  stableRoot : ∀ root, StableRoot root ctx.stepOutputs ctx.params

variable {reprStr : String → String} {ctx ctx' : EvalContext}

theorem printKeys_reordered {es gs : JsonObject} (h : ReorderedFields es gs) :
    printKeys reprStr gs = printKeys reprStr es := by
  have hkeys : ∀ fields : JsonObject, keys (sortKeys fields)
      = keys (sortKeys (fields.map fun e => (e.1, e.2.wire))) := by
    intro fields
    rw [sortKeys_map, keys_map_snd]
  have hwire := h.wire_eq
  simp only [wire_obj, JsonValue.obj.injEq] at hwire
  rw [printKeys, printKeys, hkeys gs, hkeys es, hwire]

theorem resolveRoot_related (h : RelatedContext ctx ctx') (name : String) :
    RelatedExcept Eq (fun v w => RelatedEval (.json v) (.json w)) (resolveRoot reprStr name ctx)
      (resolveRoot reprStr name ctx') := by
  unfold resolveRoot
  split
  · exact .ok (.json h.data h.stableData)
  · have hrel := lookupRoot_reordered h.stepOutputs h.params name
    have hstable := h.stableRoot name
    unfold StableRoot at hstable
    rw [printKeys_reordered h.stepOutputs, printKeys_reordered h.params]
    generalize lookupRoot name ctx.stepOutputs ctx.params = v at hrel hstable ⊢
    generalize lookupRoot name ctx'.stepOutputs ctx'.params = w at hrel ⊢
    cases hrel with
    | none => exact .error rfl
    | some hvw => exact .ok (.json hvw (hstable _ rfl))

mutual

theorem evaluate_related (h : RelatedContext ctx ctx') (e : Expr) :
    RelatedExcept Eq RelatedEval (evaluate reprStr ctx e) (evaluate reprStr ctx' e) := by
  match e with
  | .boolOp true values =>
      exact (evaluateAll_related h values).bind fun a b hab => .ok (hab ▸ .bool a)
  | .boolOp false values =>
      exact (evaluateAny_related h values).bind fun a b hab => .ok (hab ▸ .bool a)
  | .unaryNot operand =>
      refine (evaluate_related h operand).bind fun a b hab => .ok ?_
      rw [hab.truthy_eq]
      exact .bool _
  | .compare left ops comparators =>
      refine (evaluate_related h left).bind fun a b hab => ?_
      exact (evaluateChain_related h hab ops comparators).bind fun p q hpq => .ok (hpq ▸ .bool p)
  | .call (.name id) args _ =>
      have hhead := evaluateHead_related h args
      simp only [evaluate]
      generalize evaluateHead reprStr ctx args = x at hhead ⊢
      generalize evaluateHead reprStr ctx' args = y at hhead ⊢
      split
      · cases hhead with
        | ok _ => exact .ok (.bool true)
        | @error e d raised =>
            subst raised
            cases e with
            | conditionEvaluation _ => exact .ok (.bool false)
            | _ => exact .error rfl
      · refine hhead.bind fun a b hab => ?_
        rw [hab.pyLen_eq, hab.typeName_eq]
        cases pyLen a with
        | ok n => exact .ok (.of_literal (.int n))
        | error detail => exact .error rfl
  | .call (.boolOp _ _) _ _ | .call (.unaryNot _) _ _ | .call (.unaryOther _) _ _
  | .call (.compare _ _ _) _ _ | .call (.call _ _ _) _ _ | .call (.attribute _ _) _ _
  | .call (.subscript _ _) _ _ | .call (.constant _) _ _ | .call (.collection _ _) _ _
  | .call (.other _) _ _ => exact .error rfl
  | .attribute value attr =>
      exact (evaluate_related h value).bind fun a b hab => getPathValue_related hab _
  | .subscript value slice =>
      simp only [evaluate]
      split
      · exact (evaluate_related h value).bind fun a b hab => getPathValue_related hab _
      · exact .error rfl
  | .name id =>
      simp only [evaluate]
      split
      · rename_i literal hliteral
        refine .ok (.json (Reordered.refl _) (.inr ?_))
        simp only [nameLiterals, List.lookup_cons] at hliteral
        repeat' split at hliteral
        all_goals cases hliteral
        all_goals rfl
      · exact (resolveRoot_related h id).bind fun v w hvw => .ok hvw
  | .constant value => exact .ok (.of_literal value)
  | .collection isTuple elements =>
      cases isTuple with
      | true => exact .ok (.tuple _)
      | false =>
          have htuple := (RelatedEval.tuple (elements.filterMap Expr.literal)).toJson
          exact .ok (.json htuple.1 htuple.2)
  | .unaryOther _ => exact .error rfl
  | .other kind => exact .error rfl

theorem evaluateAll_related (h : RelatedContext ctx ctx') (es : List Expr) :
    RelatedExcept Eq Eq (evaluateAll reprStr ctx es) (evaluateAll reprStr ctx' es) := by
  match es with
  | [] => exact .ok rfl
  | e :: rest =>
      refine (evaluate_related h e).bind fun a b hab => ?_
      rw [hab.truthy_eq]
      split
      · exact evaluateAll_related h rest
      · exact .ok rfl

theorem evaluateAny_related (h : RelatedContext ctx ctx') (es : List Expr) :
    RelatedExcept Eq Eq (evaluateAny reprStr ctx es) (evaluateAny reprStr ctx' es) := by
  match es with
  | [] => exact .ok rfl
  | e :: rest =>
      refine (evaluate_related h e).bind fun a b hab => ?_
      rw [hab.truthy_eq]
      split
      · exact .ok rfl
      · exact evaluateAny_related h rest

theorem evaluateChain_related (h : RelatedContext ctx ctx') {left left' : EvalValue}
    (hleft : RelatedEval left left') (ops : List CompareOp) (es : List Expr) :
    RelatedExcept Eq Eq (evaluateChain reprStr ctx left ops es)
      (evaluateChain reprStr ctx' left' ops es) := by
  match ops, es with
  | op :: ops, e :: rest =>
      refine (evaluate_related h e).bind fun a b hab => ?_
      rw [hleft.asComparison_eq hab]
      refine RelatedExcept.bind (.of_eq fun _ => rfl) fun p q hpq => ?_
      subst hpq
      split
      · exact evaluateChain_related h hab ops rest
      · exact .ok rfl
  | [], es => simpa only [evaluateChain] using .ok rfl
  | _ :: _, [] => exact .ok rfl

theorem evaluateHead_related (h : RelatedContext ctx ctx') (es : List Expr) :
    RelatedExcept Eq RelatedEval (evaluateHead reprStr ctx es)
      (evaluateHead reprStr ctx' es) := by
  match es with
  | [] => exact .error rfl
  | e :: _ => exact evaluate_related h e

end

/-- What a condition reads normalizes, or has its keys sorted. -/
structure StableCondition (data : JsonValue) (stepOutputs params : JsonObject) : Prop where
  data : StableNormal defaultCollectionItems data
  stepOutputs : StableNormal defaultCollectionItems (.obj stepOutputs)
  params : StableNormal defaultCollectionItems (.obj params)

theorem normalizeJsonObject_reordered {maxItems : Nat} {es gs : JsonObject}
    (h : ReorderedFields es gs) (hstable : StableNormal maxItems (.obj es)) (path : String) :
    RelatedExcept Eq (fun fs hs => ReorderedFields fs hs ∧ fits maxItems (.obj fs) 0 = true)
      (normalizeJsonObject maxItems es path) (normalizeJsonObject maxItems gs path) := by
  unfold normalizeJsonObject
  have hobj : Reordered (.obj es) (.obj gs) := reordered_obj_obj.mpr h
  by_cases hfits : fits maxItems (.obj es) 0 = true
  · have hfits' : fits maxItems (.obj gs) 0 = true := by rw [Reordered.fits_eq hobj, hfits]
    rw [normalizeJsonValue_of_fits hfits, normalizeJsonValue_of_fits hfits']
    exact .ok ⟨h, hfits⟩
  · obtain ⟨e, he⟩ := normalizeJsonValue_of_not_fits (by simpa using hfits) path
    have hsame : gs = es := by
      simpa using hobj.eq_of_wire_eq (hstable.resolve_left hfits)
    rw [hsame, he]
    exact .error rfl

theorem stableRoot_of_fits {outputs params : JsonObject}
    (houtputs : fits defaultCollectionItems (.obj outputs) 0 = true)
    (hparams : fits defaultCollectionItems (.obj params) 0 = true) (root : String) :
    StableRoot root outputs params := by
  intro v hv
  unfold lookupRoot at hv
  split at hv
  · rename_i w hw
    cases hv
    obtain ⟨e, he, rfl⟩ := mem_of_lookup hw
    exact .inl (fits_of_mem_obj houtputs he)
  · obtain ⟨e, he, rfl⟩ := mem_of_lookup hv
    exact .inl (fits_of_mem_obj hparams he)

/-- Conditions do not see key order. -/
theorem evaluateCondition_reordered {data data' : JsonValue}
    {outputs outputs' params params' : JsonObject} (hdata : Reordered data data')
    (houtputs : ReorderedFields outputs outputs') (hparams : ReorderedFields params params')
    (hstable : StableCondition data outputs params) (parse : ExpressionParser)
    (condition : String) :
    RelatedExcept Eq Eq (evaluateCondition parse reprStr condition data outputs params)
      (evaluateCondition parse reprStr condition data' outputs' params') := by
  unfold evaluateCondition
  split
  · exact .error rfl
  · rename_i tree _
    have hnormal := normalizeJsonValue_reordered hdata hstable.data "input"
    have hfits : ∀ a, normalizeJsonValue defaultCollectionItems data "input" 0 = .ok a →
        StableNormal defaultCollectionItems a := by
      intro a ha
      by_cases hd : fits defaultCollectionItems data 0 = true
      · rw [normalizeJsonValue_of_fits hd] at ha
        cases ha
        exact .inl hd
      · obtain ⟨e, he⟩ := normalizeJsonValue_of_not_fits (by simpa using hd) "input"
        rw [he] at ha
        cases ha
    have hinput : RelatedExcept Eq
        (fun a b => Reordered a b ∧ StableNormal defaultCollectionItems a)
        (normalizeJsonValue defaultCollectionItems data "input" 0)
        (normalizeJsonValue defaultCollectionItems data' "input" 0) := by
      generalize normalizeJsonValue defaultCollectionItems data "input" 0 = x at hnormal hfits ⊢
      generalize normalizeJsonValue defaultCollectionItems data' "input" 0 = y at hnormal ⊢
      cases hnormal with
      | ok value => exact .ok ⟨value, hfits _ rfl⟩
      | error raised => exact .error raised
    refine (asConditionError_related hinput).bind fun a b hab => ?_
    refine (asConditionError_related
      (normalizeJsonObject_reordered houtputs hstable.stepOutputs "steps")).bind
      fun es gs heg => ?_
    refine (asConditionError_related
      (normalizeJsonObject_reordered hparams hstable.params "params")).bind fun fs hs hfs => ?_
    have hctx : RelatedContext ⟨a, es, fs⟩ ⟨b, gs, hs⟩ :=
      ⟨hab.1, heg.1, hfs.1, hab.2, stableRoot_of_fits heg.2 hfs.2⟩
    exact (evaluate_related hctx tree).bind fun u w huw => .ok huw.truthy_eq.symm

/-- The tree of `input.order.total == 3`. -/
def totalIsThree : Expr :=
  .compare (.attribute (.attribute (.name "input") "order") "total") [.eq] [.constant (.int 3)]

theorem evaluateCondition_reordered_order :
    RelatedExcept Eq Eq
      (evaluateCondition (fun _ => .ok totalIsThree) id "input.order.total == 3"
        (.obj placedOrder) [] [])
      (evaluateCondition (fun _ => .ok totalIsThree) id "input.order.total == 3"
        (wire (.obj placedOrder)) [] []) :=
  evaluateCondition_reordered (reordered_wire _) reorderedFields_nil reorderedFields_nil
    ⟨.inl (by decide), .inl (by decide), .inl (by decide)⟩ _ _

end Justflow
