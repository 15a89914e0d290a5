import Justflow.Config.Models
import Justflow.Engine.Data

/-!
# Reference resolution and parameter interpolation

References resolve against the step outputs first and the parameters second.  A string that is
one placeholder becomes the parameter's value; placeholders inside a longer string are printed
into it, and printing an object shows the order of its keys.
-/

open Fields Program JsonValue

namespace Justflow

/-- Only data errors become resolution errors; a size limit passes through. -/
def asReferenceError {α : Type} (x : Except EngineException α) : Except EngineException α :=
  match x with
  | .error (.dataNormalization path detail) =>
      .error (.referenceResolution (EngineException.dataNormalization path detail).text)
  | .error (.dataPath path detail) =>
      .error (.referenceResolution (EngineException.dataPath path detail).text)
  | other => other

/-- The value a root names, if any. -/
def lookupRoot (root : String) (stepOutputs params : JsonObject) : Option JsonValue :=
  match stepOutputs.lookup root with
  | some v => some v
  | none => params.lookup root

def resolveReference (reference : ReferencePath) (stepOutputs params : JsonObject) :
    Except EngineException JsonValue :=
  match lookupRoot reference.root stepOutputs params with
  | some value => asReferenceError (resolveJsonPath value reference.path reference.root)
  | none =>
      let value := reference.value
      let root := reference.root
      .error (.referenceResolution s!"Cannot resolve reference '{value}': '{root}' not found")

def resolveNamed (stepOutputs params : JsonObject) :
    List (String × ReferencePath) → Except EngineException JsonObject
  | [] => .ok []
  | (key, ref) :: rest => do
      let value ← resolveReference ref stepOutputs params
      return (key, value) :: (← resolveNamed stepOutputs params rest)

def resolveListed (stepOutputs params : JsonObject) :
    List ReferencePath → Except EngineException (List JsonValue)
  | [] => .ok []
  | ref :: rest => do
      let value ← resolveReference ref stepOutputs params
      return value :: (← resolveListed stepOutputs params rest)

def resolveInput (spec : Option InputSpec) (stepOutputs params : JsonObject) :
    Except EngineException JsonValue :=
  match spec with
  | none => .ok .null
  | some (.reference ref) => resolveReference ref stepOutputs params
  | some (.named refs) => do return .obj (← resolveNamed stepOutputs params refs)
  | some (.listed refs) => do return .arr (← resolveListed stepOutputs params refs)

/-! ## Printing -/

mutual

/-- `repr` of a value; strings are printed by the given function. -/
def pyRepr (reprStr : String → String) : JsonValue → String
  | .null => "None"
  | .bool true => "True"
  | .bool false => "False"
  | .int n => toString n
  | .float f => f.text
  | .str s => reprStr s
  | .arr items => "[" ++ ", ".intercalate (pyReprItems reprStr items) ++ "]"
  | .obj fields => "\x7b" ++ ", ".intercalate (pyReprFields reprStr fields) ++ "\x7d"

def pyReprItems (reprStr : String → String) : List JsonValue → List String
  | [] => []
  | v :: rest => pyRepr reprStr v :: pyReprItems reprStr rest

def pyReprFields (reprStr : String → String) : List (String × JsonValue) → List String
  | [] => []
  | (key, v) :: rest =>
      (reprStr key ++ ": " ++ pyRepr reprStr v) :: pyReprFields reprStr rest

end

/-- `str` of a value: a string is itself. -/
def pyStr (reprStr : String → String) : JsonValue → String
  | .str s => s
  | v => pyRepr reprStr v

/-! ## Interpolation -/

variable (reprStr : String → String)

def placeholdersOf (s : String) : Except EngineException (List Segment) :=
  match parsePlaceholders reprStr s with
  | .ok segments => .ok segments
  | .error detail => .error (.referenceResolution s!"Invalid placeholder syntax: {detail}")

def paramValue (params : JsonObject) (name : String) : Except EngineException JsonValue :=
  match params.lookup name with
  | some v => .ok v
  | none => .error (.referenceResolution s!"Param '{name}' not found for interpolation")

/-- Print the segments of a string in order. -/
def printSegments (params : JsonObject) : List Segment → Except EngineException String
  | [] => .ok ""
  | .text piece :: rest => do return piece ++ (← printSegments params rest)
  | .placeholder name :: rest => do
      let value ← paramValue params name
      return pyStr reprStr value ++ (← printSegments params rest)

def interpolateString (s : String) (params : JsonObject) : Except EngineException JsonValue := do
  match ← placeholdersOf reprStr s with
  | [.placeholder name] => paramValue params name
  | segments => return .str (← printSegments reprStr params segments)

mutual

def interpolateParams (params : JsonObject) : JsonValue → Except EngineException JsonValue
  | .str s => interpolateString reprStr s params
  | .arr items => do return .arr (← interpolateItems params items)
  | .obj fields => do return .obj (← interpolateFields params fields)
  | .null => .ok .null
  | .bool b => .ok (.bool b)
  | .int n => .ok (.int n)
  | .float f => .ok (.float f)

def interpolateItems (params : JsonObject) :
    List JsonValue → Except EngineException (List JsonValue)
  | [] => .ok []
  | v :: rest => do
      let item ← interpolateParams params v
      return item :: (← interpolateItems params rest)

def interpolateFields (params : JsonObject) :
    List (String × JsonValue) → Except EngineException (List (String × JsonValue))
  | [] => .ok []
  | (key, v) :: rest => do
      let item ← interpolateParams params v
      return (key, item) :: (← interpolateFields params rest)

end

mutual

/-- The placeholders that survive interpolation, in order. -/
def findUnresolvedPlaceholders : JsonValue → Except EngineException (List String)
  | .str s => do
      return (← placeholdersOf reprStr s).filterMap fun segment =>
        match segment with
        | .placeholder name => some name
        | .text _ => none
  | .arr items => findUnresolvedItems items
  | .obj fields => findUnresolvedFields fields
  | .null | .bool _ | .int _ | .float _ => .ok []

def findUnresolvedItems : List JsonValue → Except EngineException (List String)
  | [] => .ok []
  | v :: rest => do
      let found ← findUnresolvedPlaceholders v
      return found ++ (← findUnresolvedItems rest)

def findUnresolvedFields : List (String × JsonValue) → Except EngineException (List String)
  | [] => .ok []
  | (_, v) :: rest => do
      let found ← findUnresolvedPlaceholders v
      return found ++ (← findUnresolvedFields rest)

end

/-! ## Key order -/

section Reordering

variable {outputs outputs' params params' : JsonObject}

theorem lookupRoot_reordered (houtputs : ReorderedFields outputs outputs')
    (hparams : ReorderedFields params params') (root : String) :
    Option.Rel Reordered (lookupRoot root outputs params)
      (lookupRoot root outputs' params') := by
  unfold lookupRoot
  have hrel := houtputs.lookup root
  generalize outputs.lookup root = v at hrel ⊢
  generalize outputs'.lookup root = w at hrel ⊢
  cases hrel with
  | none => exact hparams.lookup root
  | some hvw => exact .some hvw

/-- The value under a root normalizes, or has its keys sorted. -/
def StableRoot (root : String) (stepOutputs params : JsonObject) : Prop :=
  ∀ v, lookupRoot root stepOutputs params = some v → StableNormal defaultCollectionItems v

theorem asReferenceError_related {x y : Except EngineException JsonValue}
    (h : RelatedExcept Eq Reordered x y) :
    RelatedExcept Eq Reordered (asReferenceError x) (asReferenceError y) := by
  cases h with
  | ok value => exact .ok value
  | error raised =>
      subst raised
      exact .of_eq Reordered.refl

theorem resolveReference_reordered (houtputs : ReorderedFields outputs outputs')
    (hparams : ReorderedFields params params') (ref : ReferencePath)
    (hstable : StableRoot ref.root outputs params) :
    RelatedExcept Eq Reordered (resolveReference ref outputs params)
      (resolveReference ref outputs' params') := by
  unfold resolveReference
  have hrel := lookupRoot_reordered houtputs hparams ref.root
  unfold StableRoot at hstable
  generalize lookupRoot ref.root outputs params = v at hrel hstable ⊢
  generalize lookupRoot ref.root outputs' params' = w at hrel ⊢
  cases hrel with
  | none => exact .error rfl
  | some hvw =>
      exact asReferenceError_related
        (resolveJsonPath_reordered hvw (hstable _ rfl) ref.path ref.root)

theorem resolveNamed_reordered (houtputs : ReorderedFields outputs outputs')
    (hparams : ReorderedFields params params') (refs : List (String × ReferencePath))
    (hstable : ∀ ref ∈ refs.map Prod.snd, StableRoot ref.root outputs params) :
    RelatedExcept Eq (List.Forall₂ ReorderedField) (resolveNamed outputs params refs)
      (resolveNamed outputs' params' refs) := by
  induction refs with
  | nil => exact .ok .nil
  | cons entry rest ih =>
      obtain ⟨key, ref⟩ := entry
      refine (resolveReference_reordered houtputs hparams ref (hstable ref (by simp))).bind ?_
      intro v w hvw
      refine (ih fun ref href => hstable ref (by simp [List.mem_map.mp href])).bind ?_
      exact fun es fs hrest => .ok (.cons ⟨rfl, hvw⟩ hrest)

theorem resolveListed_reordered (houtputs : ReorderedFields outputs outputs')
    (hparams : ReorderedFields params params') (refs : List ReferencePath)
    (hstable : ∀ ref ∈ refs, StableRoot ref.root outputs params) :
    RelatedExcept Eq (List.Forall₂ Reordered) (resolveListed outputs params refs)
      (resolveListed outputs' params' refs) := by
  induction refs with
  | nil => exact .ok .nil
  | cons ref rest ih =>
      refine (resolveReference_reordered houtputs hparams ref (hstable ref (by simp))).bind ?_
      intro v w hvw
      refine (ih fun ref href => hstable ref (by simp [href])).bind ?_
      exact fun xs ys hrest => .ok (.cons hvw hrest)

/-- A step input is resolved to related values. -/
theorem resolveInput_reordered (houtputs : ReorderedFields outputs outputs')
    (hparams : ReorderedFields params params') (spec : Option InputSpec)
    (hstable : ∀ s, spec = some s → ∀ ref ∈ s.references, StableRoot ref.root outputs params) :
    RelatedExcept Eq Reordered (resolveInput spec outputs params)
      (resolveInput spec outputs' params') := by
  cases spec with
  | none => exact .ok .null
  | some s =>
      have h := hstable s rfl
      cases s with
      | reference ref => exact resolveReference_reordered houtputs hparams ref (h ref (by
          simp [InputSpec.references]))
      | named refs =>
          refine (resolveNamed_reordered houtputs hparams refs h).bind fun es fs hrest => ?_
          exact .ok (reordered_obj_obj.mpr (.of_forall₂ hrest))
      | listed refs =>
          refine (resolveListed_reordered houtputs hparams refs h).bind fun xs ys hrest => ?_
          exact .ok (reordered_arr_arr.mpr hrest)

/-- An order whose keys are not sorted. -/
def placedOrder : JsonObject :=
  [("order", .obj [("total", .int 3), ("id", .str "a-1")])]

theorem placedOrder_sorted :
    ReorderedFields placedOrder (sortKeys (wireFields placedOrder)) :=
  reordered_obj_obj.mp (reordered_wire (.obj placedOrder))

theorem reorderedFields_nil : ReorderedFields [] [] :=
  reordered_obj_obj.mp (Reordered.refl (.obj []))

theorem resolveInput_reordered_order :
    RelatedExcept Eq Reordered
      (resolveInput (some (.named [("total", ⟨"order.total", "order", [.key "total"]⟩)]))
        placedOrder [])
      (resolveInput (some (.named [("total", ⟨"order.total", "order", [.key "total"]⟩)]))
        (sortKeys (wireFields placedOrder)) []) := by
  refine resolveInput_reordered placedOrder_sorted reorderedFields_nil _ ?_
  intro spec hspec ref href v found
  cases hspec
  obtain rfl := List.mem_singleton.mp href
  cases found
  exact .inl (by decide)

theorem paramValue_reordered (hparams : ReorderedFields params params') (name : String) :
    RelatedExcept Eq Reordered (paramValue params name) (paramValue params' name) := by
  unfold paramValue
  have hrel := hparams.lookup name
  generalize params.lookup name = v at hrel ⊢
  generalize params'.lookup name = w at hrel ⊢
  cases hrel with
  | none => exact .error rfl
  | some hvw => exact .ok hvw

/-- The parameter prints the same after its keys were sorted. -/
def PrintStable (params : JsonObject) (name : String) : Prop :=
  ∀ v, params.lookup name = some v → v.wire = v

theorem printSegments_reordered (hparams : ReorderedFields params params')
    (segments : List Segment)
    (hstable : ∀ name, Segment.placeholder name ∈ segments → PrintStable params name) :
    RelatedExcept Eq Eq (printSegments reprStr params segments)
      (printSegments reprStr params' segments) := by
  induction segments with
  | nil => exact .ok rfl
  | cons segment rest ih =>
      have hrest := ih fun name hname => hstable name (by simp [hname])
      cases segment with
      | text piece =>
          exact hrest.bind fun a b hab => .ok (by rw [hab])
      | placeholder name =>
          have hvalue : RelatedExcept Eq Eq (paramValue params name)
              (paramValue params' name) := by
            have hprint := hstable name (by simp)
            unfold PrintStable at hprint
            have hrel := hparams.lookup name
            unfold paramValue
            generalize params.lookup name = v at hrel hprint ⊢
            generalize params'.lookup name = w at hrel ⊢
            cases hrel with
            | none => exact .error rfl
            | some hvw => exact .ok (hvw.eq_of_wire_eq (hprint _ rfl)).symm
          refine hvalue.bind fun v w hvw => hrest.bind fun a b hab => .ok ?_
          rw [hvw, hab]

/-- The placeholders a string prints; a string that is one placeholder prints none. -/
def printedNames (s : String) : List String :=
  match placeholdersOf reprStr s with
  | .ok [.placeholder _] => []
  | .ok segments => segments.filterMap fun segment =>
      match segment with
      | .placeholder name => some name
      | .text _ => none
  | .error _ => []

theorem interpolateString_reordered (hparams : ReorderedFields params params') (s : String)
    (hstable : ∀ name ∈ printedNames reprStr s, PrintStable params name) :
    RelatedExcept Eq Reordered (interpolateString reprStr s params)
      (interpolateString reprStr s params') := by
  unfold interpolateString
  unfold printedNames at hstable
  generalize placeholdersOf reprStr s = parsed at hstable ⊢
  cases parsed with
  | error e => exact .error rfl
  | ok segments =>
      simp only [ok_bind]
      split
      · exact paramValue_reordered hparams _
      · rename_i hnot
        refine (printSegments_reordered reprStr hparams segments fun name hname => ?_).bind
          fun a b hab => ?_
        · refine hstable name ?_
          split
          · rename_i single heq
            cases heq
            exact False.elim (hnot _ rfl)
          · rename_i heq
            cases heq
            exact List.mem_filterMap.mpr ⟨_, hname, rfl⟩
          · rename_i heq
            cases heq
        · rw [hab]
          exact .ok (.str b)

mutual

/-- The placeholders that some string of a template prints. -/
def printedIn : JsonValue → List String
  | .str s => printedNames reprStr s
  | .arr items => printedInItems items
  | .obj fields => printedInFields fields
  | .null | .bool _ | .int _ | .float _ => []

def printedInItems : List JsonValue → List String
  | [] => []
  | v :: rest => printedIn v ++ printedInItems rest

def printedInFields : List (String × JsonValue) → List String
  | [] => []
  | (_, v) :: rest => printedIn v ++ printedInFields rest

end

end Reordering

end Justflow
