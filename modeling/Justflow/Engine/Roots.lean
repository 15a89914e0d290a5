import Justflow.Engine.Readable

/-!
# The two readings of a condition

`conditionReferenceRoots` reads the roots off the tree of a condition, its evaluation looks roots
up.  The static reading leaves out the names of the functions wherever they stand, so both agree
on the conditions that use no function name as a reference.
-/

open Fields Program JsonValue

namespace Justflow

/-! ## Names looked up -/

mutual

/-- The root names that the evaluation of a tree looks up, in order. -/
def lookedUp (reprStr : String → String) (ctx : EvalContext) : Expr → List String
  | .boolOp true values => lookedUpAll reprStr ctx values
  | .boolOp false values => lookedUpAny reprStr ctx values
  | .unaryNot operand => lookedUp reprStr ctx operand
  | .compare left ops comparators =>
      lookedUp reprStr ctx left ++
        match evaluate reprStr ctx left with
        | .ok value => lookedUpChain reprStr ctx value ops comparators
        | .error _ => []
  | .call (.name _) args _ => lookedUpHead reprStr ctx args
  | .call _ _ _ => []
  | .attribute value _ => lookedUp reprStr ctx value
  | .subscript value slice =>
      if slice.sliceToken.isSome then lookedUp reprStr ctx value else []
  | .name id => if (nameLiterals.lookup id).isSome then [] else [id]
  | .constant _ => []
  | .collection _ _ => []
  | .unaryOther _ => []
  | .other _ => []

def lookedUpAll (reprStr : String → String) (ctx : EvalContext) : List Expr → List String
  | [] => []
  | e :: rest =>
      lookedUp reprStr ctx e ++
        match evaluate reprStr ctx e with
        | .ok value => if value.truthy then lookedUpAll reprStr ctx rest else []
        | .error _ => []

def lookedUpAny (reprStr : String → String) (ctx : EvalContext) : List Expr → List String
  | [] => []
  | e :: rest =>
      lookedUp reprStr ctx e ++
        match evaluate reprStr ctx e with
        | .ok value => if value.truthy then [] else lookedUpAny reprStr ctx rest
        | .error _ => []

def lookedUpChain (reprStr : String → String) (ctx : EvalContext) (left : EvalValue) :
    List CompareOp → List Expr → List String
  | op :: ops, e :: rest =>
      lookedUp reprStr ctx e ++
        match evaluate reprStr ctx e with
        | .ok right =>
            match compareValues op left right with
            | .ok true => lookedUpChain reprStr ctx right ops rest
            | _ => []
        | .error _ => []
  | _, _ => []

def lookedUpHead (reprStr : String → String) (ctx : EvalContext) : List Expr → List String
  | [] => []
  | e :: _ => lookedUp reprStr ctx e

end

/-- The root names that the evaluation of a condition looks up. -/
def conditionLookups (parse : ExpressionParser) (reprStr : String → String) (condition : String)
    (data : JsonValue) (stepOutputs params : JsonObject) : List String :=
  let normalized : Except EngineException (Expr × EvalContext) := do
    match parseCondition parse condition with
    | .error detail => .error (.conditionEvaluation detail)
    | .ok tree =>
        let data ← normalizeJsonValue defaultCollectionItems data "input" 0
        let stepOutputs ← normalizeJsonObject defaultCollectionItems stepOutputs "steps"
        let params ← normalizeJsonObject defaultCollectionItems params "params"
        return (tree, { data, stepOutputs, params })
  match normalized with
  | .ok (tree, ctx) => lookedUp reprStr ctx tree
  | .error _ => []

section Lookups

variable {reprStr : String → String} {ctx : EvalContext}

mutual

/-- Evaluation looks up references only. -/
theorem lookedUp_subset (e : Expr) : lookedUp reprStr ctx e ⊆ referenceNames e := by
  match e with
  | .boolOp true values => exact lookedUpAll_subset values
  | .boolOp false values => exact lookedUpAny_subset values
  | .unaryNot operand => exact lookedUp_subset operand
  | .compare left ops comparators =>
      rw [lookedUp, referenceNames]
      refine List.append_subset.mpr ⟨fun _ h => List.mem_append_left _ (lookedUp_subset left h), ?_⟩
      split
      · exact fun _ h => List.mem_append_right _ (lookedUpChain_subset _ ops comparators h)
      · exact List.nil_subset _
  | .call (.name id) args keywords =>
      rw [lookedUp, referenceNames]
      exact lookedUpHead_subset args
  | .call (.boolOp _ _) _ _ | .call (.unaryNot _) _ _ | .call (.unaryOther _) _ _
  | .call (.compare _ _ _) _ _ | .call (.call _ _ _) _ _ | .call (.attribute _ _) _ _
  | .call (.subscript _ _) _ _ | .call (.constant _) _ _ | .call (.collection _ _) _ _
  | .call (.other _) _ _ => exact List.nil_subset _
  | .attribute value attr => exact lookedUp_subset value
  | .subscript value slice =>
      rw [lookedUp, referenceNames]
      split
      · exact lookedUp_subset value
      · exact List.nil_subset _
  | .name id => exact List.Subset.refl _
  | .constant value => exact List.nil_subset _
  | .collection isTuple elements => exact List.nil_subset _
  | .unaryOther operand => exact List.nil_subset _
  | .other kind => exact List.nil_subset _

theorem lookedUpAll_subset (es : List Expr) :
    lookedUpAll reprStr ctx es ⊆ referenceNamesAll es := by
  match es with
  | [] => exact List.nil_subset _
  | e :: rest =>
      rw [lookedUpAll, referenceNamesAll]
      refine List.append_subset.mpr ⟨fun _ h => List.mem_append_left _ (lookedUp_subset e h), ?_⟩
      split
      · split
        · exact fun _ h => List.mem_append_right _ (lookedUpAll_subset rest h)
        · exact List.nil_subset _
      · exact List.nil_subset _

theorem lookedUpAny_subset (es : List Expr) :
    lookedUpAny reprStr ctx es ⊆ referenceNamesAll es := by
  match es with
  | [] => exact List.nil_subset _
  | e :: rest =>
      rw [lookedUpAny, referenceNamesAll]
      refine List.append_subset.mpr ⟨fun _ h => List.mem_append_left _ (lookedUp_subset e h), ?_⟩
      split
      · split
        · exact List.nil_subset _
        · exact fun _ h => List.mem_append_right _ (lookedUpAny_subset rest h)
      · exact List.nil_subset _

theorem lookedUpChain_subset (left : EvalValue) (ops : List CompareOp) (es : List Expr) :
    lookedUpChain reprStr ctx left ops es ⊆ referenceNamesAll es := by
  match ops, es with
  | [], _ =>
      rw [lookedUpChain]
      · exact List.nil_subset _
      · simp
  | _ :: _, [] =>
      rw [lookedUpChain]
      · exact List.nil_subset _
      · simp
  | op :: ops, e :: rest =>
      rw [lookedUpChain, referenceNamesAll]
      refine List.append_subset.mpr ⟨fun _ h => List.mem_append_left _ (lookedUp_subset e h), ?_⟩
      split
      · split
        · exact fun _ h => List.mem_append_right _ (lookedUpChain_subset _ ops rest h)
        · exact List.nil_subset _
      · exact List.nil_subset _

theorem lookedUpHead_subset (es : List Expr) :
    lookedUpHead reprStr ctx es ⊆ referenceNamesAll es := by
  match es with
  | [] => exact List.nil_subset _
  | e :: rest => exact fun _ h => List.mem_append_left _ (lookedUp_subset e h)

end

end Lookups

mutual

/-- A reference is a name of the tree, and no literal. -/
theorem mem_namesOf {name : String} (e : Expr) (h : name ∈ referenceNames e) :
    name ∈ namesOf e ∧ nameLiterals.lookup name = none := by
  match e with
  | .boolOp _ values => exact mem_namesOfAll values h
  | .unaryNot operand => exact mem_namesOf operand h
  | .unaryOther operand => exact mem_namesOf operand h
  | .compare left _ comparators =>
      rw [referenceNames, List.mem_append] at h
      rw [namesOf, List.mem_append]
      rcases h with h | h
      · obtain ⟨mem, free⟩ := mem_namesOf left h
        exact ⟨.inl mem, free⟩
      · obtain ⟨mem, free⟩ := mem_namesOfAll comparators h
        exact ⟨.inr mem, free⟩
  | .call func args _ =>
      obtain ⟨mem, free⟩ := mem_namesOfAll args h
      exact ⟨List.mem_append_right _ mem, free⟩
  | .attribute value _ => exact mem_namesOf value h
  | .subscript value _ =>
      obtain ⟨mem, free⟩ := mem_namesOf value h
      exact ⟨List.mem_append_left _ mem, free⟩
  | .name id =>
      rw [referenceNames] at h
      split at h
      · cases h
      · rename_i hliteral
        obtain rfl := List.mem_singleton.mp h
        exact ⟨by simp [namesOf], Option.not_isSome_iff_eq_none.mp hliteral⟩
  | .constant _ => cases h
  | .collection _ _ => cases h
  | .other _ => cases h

theorem mem_namesOfAll {name : String} (es : List Expr) (h : name ∈ referenceNamesAll es) :
    name ∈ namesOfAll es ∧ nameLiterals.lookup name = none := by
  match es with
  | [] => cases h
  | e :: rest =>
      rw [referenceNamesAll, List.mem_append] at h
      rw [namesOfAll, List.mem_append]
      rcases h with h | h
      · obtain ⟨mem, free⟩ := mem_namesOf e h
        exact ⟨.inl mem, free⟩
      · obtain ⟨mem, free⟩ := mem_namesOfAll rest h
        exact ⟨.inr mem, free⟩

end

/-! ## Values of admissible size -/

mutual

/-- No collection has more items than the readers admit. -/
def sized : JsonValue → Bool
  | .arr items => decide (items.length ≤ defaultCollectionItems) && sizedItems items
  | .obj fields => decide (fields.length ≤ defaultCollectionItems) && sizedFields fields
  | .null | .bool _ | .int _ | .float _ | .str _ => true

def sizedItems : List JsonValue → Bool
  | [] => true
  | v :: rest => sized v && sizedItems rest

def sizedFields : List (String × JsonValue) → Bool
  | [] => true
  | (_, v) :: rest => sized v && sizedFields rest

end

/-- A failure of normalization for the depth. -/
def TooDeep (exc : EngineException) : Prop :=
  ∃ path, exc = .dataNormalization path depthDetail

theorem depthGuard_tooDeep (path : String) (depth : Nat) :
    Raises TooDeep (depthGuard path depth) := by
  rw [depthGuard]
  exact Raises.ite (fun _ => .error ⟨path, rfl⟩) fun _ => .ok _

theorem normalizeItems_sized {items : List JsonValue}
    (h : ∀ v ∈ items, sized v = true → ∀ path depth,
      Raises TooDeep (normalizeJsonValue defaultCollectionItems v path depth))
    (hitems : sizedItems items = true) (path : String) (index depth : Nat) :
    Raises TooDeep (normalizeItems defaultCollectionItems items path index depth) := by
  induction items generalizing index with
  | nil => exact .ok _
  | cons v rest ih =>
      rw [sizedItems, Bool.and_eq_true] at hitems
      rw [normalizeItems]
      refine (h v (by simp) hitems.1 _ _).bind fun item _ => ?_
      exact (ih (fun w hw => h w (by simp [hw])) hitems.2 _).bind fun _ _ => .ok _

theorem normalizeFields_sized {fields : JsonObject}
    (h : ∀ e ∈ fields, sized e.2 = true → ∀ path depth,
      Raises TooDeep (normalizeJsonValue defaultCollectionItems e.2 path depth))
    (hfields : sizedFields fields = true) (path : String) (depth : Nat) :
    Raises TooDeep (normalizeFields defaultCollectionItems fields path depth) := by
  induction fields with
  | nil => exact .ok _
  | cons e rest ih =>
      obtain ⟨key, v⟩ := e
      rw [sizedFields, Bool.and_eq_true] at hfields
      rw [normalizeFields]
      refine (h (key, v) (by simp) hfields.1 _ _).bind fun item _ => ?_
      exact (ih (fun e he => h e (by simp [he])) hfields.2).bind fun _ _ => .ok _

/-- With collections of admissible size, only the depth can be wrong. -/
theorem normalizeJsonValue_sized {v : JsonValue} (h : sized v = true) (path : String)
    (depth : Nat) : Raises TooDeep (normalizeJsonValue defaultCollectionItems v path depth) := by
  induction v generalizing path depth with
  | arr items ih =>
      rw [sized, Bool.and_eq_true, decide_eq_true_eq] at h
      rw [normalizeJsonValue, enforceLimit_ok_iff.mpr h.1]
      refine (depthGuard_tooDeep _ _).bind fun _ _ => ?_
      exact (normalizeItems_sized (fun v hv hs path depth => ih v hv hs path depth) h.2 _ _ _).bind
        fun _ _ => .ok _
  | obj fields ih =>
      rw [sized, Bool.and_eq_true, decide_eq_true_eq] at h
      rw [normalizeJsonValue, enforceLimit_ok_iff.mpr h.1]
      refine (depthGuard_tooDeep _ _).bind fun _ _ => ?_
      exact (normalizeFields_sized (fun e he hs path depth => ih e he hs path depth) h.2 _ _).bind
        fun _ _ => .ok _
  | _ =>
      rw [normalizeJsonValue]
      exact (depthGuard_tooDeep _ _).bind fun _ _ => .ok _

/-! ## Agreement -/

/-- A root is there to be looked up. -/
def RootPresent (stepOutputs params : JsonObject) (name : String) : Prop :=
  name = "input" ∨ (lookupRoot name stepOutputs params).isSome = true

/-- An evaluation gives a boolean, or a condition error that is not about an unknown root. -/
inductive Conclusive (reprStr : String → String) (ctx : EvalContext) :
    Except EngineException Bool → Prop where
  | value (b : Bool) : Conclusive reprStr ctx (.ok b)
  | refused {detail : String}
      (known : ∀ name, resolveRoot reprStr name ctx ≠ .error (.conditionEvaluation detail)) :
      Conclusive reprStr ctx (.error (.conditionEvaluation detail))

/-- Both readings of a condition agree in an environment. -/
structure ReadingsAgree (platform : Platform) (condition : String) (roots : List String)
    (data : JsonValue) (stepOutputs params : JsonObject) : Prop where
  looked : conditionLookups platform.parse platform.reprStr condition data stepOutputs params ⊆ roots
  conclusive : (∀ name ∈ roots, RootPresent stepOutputs params name) →
    Conclusive platform.reprStr ⟨data, stepOutputs, params⟩
      (evaluateCondition platform.parse platform.reprStr condition data stepOutputs params)

theorem conclusive_of_initial {reprStr : String → String} {ctx : EvalContext} {detail : String}
    {c : Char} (starts : detail.toList.head? = some c) (other : c ≠ '\'') :
    Conclusive reprStr ctx (.error (.conditionEvaluation detail)) := by
  refine .refused fun name h => ?_
  rw [resolveRoot] at h
  split at h
  · cases h
  · split at h
    · cases h
    · cases h
      rw [head_append (head_append (head_append rfl))] at starts
      exact other (Option.some.inj starts).symm

/-- The roots of a condition that uses no function as a reference are all its references. -/
theorem mem_roots {parse : ExpressionParser} {condition : String} {tree : Expr}
    {roots : List String} (accepted : parseCondition parse condition = .ok tree)
    (declared : conditionReferenceRoots parse condition = .ok roots)
    (distinct : ∀ name ∈ referenceNames tree, name ∉ whitelistedFunctions) :
    referenceNames tree ⊆ roots := by
  intro name h
  rw [conditionReferenceRoots, accepted, ok_bind, pure_eq_ok, Except.ok.injEq] at declared
  obtain ⟨mem, free⟩ := mem_namesOf tree h
  rw [← declared, List.mem_filter]
  have hliteral : name ∉ keys nameLiterals := by
    rw [mem_keys_iff_isSome_lookup, free]
    simp
  exact ⟨mem, by simp [hliteral, distinct name h]⟩

section Agreement

variable {platform : Platform} {condition : String} {tree : Expr} {data : JsonValue}
  {stepOutputs params : JsonObject}

theorem normalizeJsonObject_sized {fields : JsonObject} (h : sized (.obj fields) = true)
    (path : String) :
    Raises TooDeep (normalizeJsonObject defaultCollectionItems fields path) := by
  by_cases within : fits defaultCollectionItems (.obj fields) 0 = true
  · rw [normalizeJsonObject_of_fits within]
    exact .ok _
  · obtain ⟨exc, hexc⟩ := normalizeJsonValue_of_not_fits (by simpa using within) path
    rw [normalizeJsonObject, hexc]
    exact .error (normalizeJsonValue_sized h path 0 exc hexc)

/-- The lookups of a condition whose values are within the bounds. -/
theorem conditionLookups_of_fits (accepted : parseCondition platform.parse condition = .ok tree)
    (hdata : fits defaultCollectionItems data 0 = true)
    (houtputs : fits defaultCollectionItems (.obj stepOutputs) 0 = true)
    (hparams : fits defaultCollectionItems (.obj params) 0 = true) :
    conditionLookups platform.parse platform.reprStr condition data stepOutputs params =
      lookedUp platform.reprStr ⟨data, stepOutputs, params⟩ tree := by
  simp only [conditionLookups, accepted, normalizeJsonValue_of_fits hdata,
    normalizeJsonObject_of_fits houtputs, normalizeJsonObject_of_fits hparams, ok_bind,
    pure_eq_ok]

/-- Where the normalization fails nothing is looked up, and the condition fails. -/
theorem readingsAgree_of_tooDeep {roots : List String}
    (accepted : parseCondition platform.parse condition = .ok tree)
    (hdata : sized data = true) (houtputs : sized (.obj stepOutputs) = true)
    (hparams : sized (.obj params) = true)
    (outside : ¬ (fits defaultCollectionItems data 0 = true
      ∧ fits defaultCollectionItems (.obj stepOutputs) 0 = true
      ∧ fits defaultCollectionItems (.obj params) 0 = true)) :
    ReadingsAgree platform condition roots data stepOutputs params := by
  have deep : ∀ path : String, (EngineException.dataNormalization path
      depthDetail).text.toList.head? = some 'I' :=
    fun _ => head_append (head_append (head_append rfl))
  cases fitsData : normalizeJsonValue defaultCollectionItems data "input" 0 with
  | error exc =>
      obtain ⟨path, rfl⟩ := normalizeJsonValue_sized hdata _ _ exc fitsData
      constructor
      · simp [conditionLookups, accepted, fitsData]
      · intro _
        simp only [evaluateCondition, accepted, fitsData, asConditionError, error_bind]
        exact conclusive_of_initial (deep path) (by decide)
  | ok normalData =>
      cases fitsOutputs : normalizeJsonObject defaultCollectionItems stepOutputs "steps" with
      | error exc =>
          obtain ⟨path, rfl⟩ := normalizeJsonObject_sized houtputs _ exc fitsOutputs
          constructor
          · simp [conditionLookups, accepted, fitsData, fitsOutputs]
          · intro _
            simp only [evaluateCondition, accepted, fitsData, fitsOutputs, asConditionError,
              error_bind, ok_bind]
            exact conclusive_of_initial (deep path) (by decide)
      | ok normalOutputs =>
          cases fitsParams : normalizeJsonObject defaultCollectionItems params "params" with
          | error exc =>
              obtain ⟨path, rfl⟩ := normalizeJsonObject_sized hparams _ exc fitsParams
              constructor
              · simp [conditionLookups, accepted, fitsData, fitsOutputs, fitsParams]
              · intro _
                simp only [evaluateCondition, accepted, fitsData, fitsOutputs, fitsParams,
                  asConditionError, error_bind, ok_bind]
                exact conclusive_of_initial (deep path) (by decide)
          | ok normalParams =>
              refine absurd ⟨?_, ?_, ?_⟩ outside
              · by_contra h
                obtain ⟨exc, hexc⟩ := normalizeJsonValue_of_not_fits (by simpa using h) "input"
                simp [fitsData] at hexc
              · by_contra h
                obtain ⟨exc, hexc⟩ := normalizeJsonObject_of_not_fits (by simpa using h) "steps"
                simp [fitsOutputs] at hexc
              · by_contra h
                obtain ⟨exc, hexc⟩ := normalizeJsonObject_of_not_fits (by simpa using h) "params"
                simp [fitsParams] at hexc

end Agreement

/-- The host's parser, as far as the examples use it. -/
def comparingPlatform : Platform :=
  { plainPlatform with
    parse := fun text =>
      if text = "len == 1" then .ok (.compare (.name "len") [.eq] [.constant (.int 1)])
      else if text = "len(items) == 1" then
        .ok (.compare (.call (.name "len") [.name "items"] false) [.eq] [.constant (.int 1)])
      else plainPlatform.parse text }

end Justflow
