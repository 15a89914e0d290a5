import Justflow.Library.Raising
import Justflow.Engine.Walk

/-!
# Reading step outputs

Outputs are accepted under the configured limits, one at a time.  Every reader normalizes again,
under the default limits, and a condition normalizes all step outputs as one object, one level
deeper.  `readable_iff` says which outputs no reader refuses for their depth or size.
-/

open Fields Program JsonValue

namespace Justflow

/-! ## What readers raise -/

def depthDetail : String := s!"depth exceeds {maxJsonDepth}"

/-- A failure of normalization. -/
inductive OutOfBounds : EngineException → Prop where
  | items {boundary : String} {actual limit : Nat} :
      OutOfBounds (.limitExceeded .collectionItems boundary actual limit)
  | depth {path : String} : OutOfBounds (.dataNormalization path depthDetail)

/-- A failure of a reader that is due to a depth or collection-size limit. -/
inductive Limited : EngineException → Prop where
  | normalization {exc : EngineException} (outside : OutOfBounds exc) : Limited exc
  | reference {path : String} :
      Limited (.referenceResolution (EngineException.dataNormalization path depthDetail).text)
  | condition {path : String} :
      Limited (.conditionEvaluation (EngineException.dataNormalization path depthDetail).text)

theorem depthGuard_raises (path : String) (depth : Nat) :
    Raises OutOfBounds (depthGuard path depth) := by
  rw [depthGuard]
  exact Raises.ite (fun _ => .error .depth) fun _ => .ok _

theorem enforceItems_raises (actual limit : Nat) (boundary : String) :
    Raises OutOfBounds (enforceLimit actual limit .collectionItems boundary) := by
  rw [enforceLimit]
  exact Raises.ite (fun _ => .error .items) fun _ => .ok _

theorem normalizeItems_raises {maxItems : Nat} {items : List JsonValue}
    (h : ∀ v ∈ items, ∀ path depth, Raises OutOfBounds (normalizeJsonValue maxItems v path depth))
    (path : String) (index depth : Nat) :
    Raises OutOfBounds (normalizeItems maxItems items path index depth) := by
  induction items generalizing index with
  | nil => exact .ok _
  | cons v rest ih =>
      rw [normalizeItems]
      refine (h v (by simp) _ _).bind fun item _ => ?_
      exact (ih (fun w hw => h w (by simp [hw])) _).bind fun _ _ => .ok _

theorem normalizeFields_raises {maxItems : Nat} {fields : JsonObject}
    (h : ∀ e ∈ fields, ∀ path depth, Raises OutOfBounds (normalizeJsonValue maxItems e.2 path depth))
    (path : String) (depth : Nat) :
    Raises OutOfBounds (normalizeFields maxItems fields path depth) := by
  induction fields with
  | nil => exact .ok _
  | cons e rest ih =>
      obtain ⟨key, v⟩ := e
      rw [normalizeFields]
      refine (h (key, v) (by simp) _ _).bind fun item _ => ?_
      exact (ih fun e he => h e (by simp [he])).bind fun _ _ => .ok _

/-- Normalization raises only for depth and size. -/
theorem normalizeJsonValue_raises (maxItems : Nat) (v : JsonValue) (path : String) (depth : Nat) :
    Raises OutOfBounds (normalizeJsonValue maxItems v path depth) := by
  induction v generalizing path depth with
  | arr items ih =>
      rw [normalizeJsonValue]
      refine (depthGuard_raises _ _).bind fun _ _ => (enforceItems_raises _ _ _).bind fun _ _ => ?_
      exact (normalizeItems_raises (fun v hv path depth => ih v hv path depth) _ _ _).bind
        fun _ _ => .ok _
  | obj fields ih =>
      rw [normalizeJsonValue]
      refine (depthGuard_raises _ _).bind fun _ _ => (enforceItems_raises _ _ _).bind fun _ _ => ?_
      exact (normalizeFields_raises (fun e he path depth => ih e he path depth) _ _).bind
        fun _ _ => .ok _
  | _ =>
      rw [normalizeJsonValue]
      exact (depthGuard_raises _ _).bind fun _ _ => .ok _

def IsDataPath (exc : EngineException) : Prop :=
  ∃ path detail, exc = .dataPath path detail

theorem resolveToken_raises (value : JsonValue) (token : ReferenceToken) (path : String) :
    Raises IsDataPath (resolveToken value token path) := by
  have refused : ∀ path detail, Raises IsDataPath
      (.error (.dataPath path detail) : Except EngineException (JsonValue × String)) :=
    fun path detail => .error ⟨path, detail, rfl⟩
  unfold resolveToken
  split
  · split
    · exact .ok _
    · exact refused _ _
  · exact refused _ _
  · split
    · exact refused _ _
    · split
      · exact .ok _
      · exact refused _ _
  · exact refused _ _
  · exact refused _ _

theorem resolveTokens_raises (tokens : List ReferenceToken) (value : JsonValue) (path : String) :
    Raises IsDataPath (resolveTokens tokens value path) := by
  induction tokens generalizing value path with
  | nil => exact .ok _
  | cons token rest ih =>
      rw [resolveTokens]
      exact (resolveToken_raises _ _ _).bind fun next _ => ih _ _

/-- On a value within the default bounds, only the path can be wrong. -/
theorem resolveJsonPath_raises {v : JsonValue} (within : fits defaultCollectionItems v 0 = true)
    (tokens : List ReferenceToken) (root : String) :
    Raises IsDataPath (resolveJsonPath v tokens root) := by
  rw [resolveJsonPath, normalizeJsonValue_of_fits within, ok_bind]
  exact Raises.ite (fun _ => .error ⟨_, _, rfl⟩) fun _ => resolveTokens_raises _ _ _

/-! ## What an evaluation raises -/

mutual

/-- The names of a tree that are references: no function, and no literal. -/
def referenceNames : Expr → List String
  | .boolOp _ values => referenceNamesAll values
  | .unaryNot operand => referenceNames operand
  | .unaryOther operand => referenceNames operand
  | .compare left _ comparators => referenceNames left ++ referenceNamesAll comparators
  | .call _ args _ => referenceNamesAll args
  | .attribute value _ => referenceNames value
  | .subscript value _ => referenceNames value
  | .name id => if (nameLiterals.lookup id).isSome then [] else [id]
  | .constant _ => []
  | .collection _ _ => []
  | .other _ => []

def referenceNamesAll : List Expr → List String
  | [] => []
  | e :: rest => referenceNames e ++ referenceNamesAll rest

end

/-- The first characters of the details that the evaluation of an accepted tree gives, unless a
root is unknown. -/
def detailInitials : List Char := ['c', 'C', 'l']

/-- What the evaluation of an accepted tree raises: a root is unknown, or values do not go
together. -/
inductive Refused (reprStr : String → String) (ctx : EvalContext) (names : List String) :
    EngineException → Prop where
  | unknown {name : String} {exc : EngineException} (used : name ∈ names)
      (absent : resolveRoot reprStr name ctx = .error exc) : Refused reprStr ctx names exc
  | values {detail : String} {c : Char} (starts : detail.toList.head? = some c)
      (known : c ∈ detailInitials) : Refused reprStr ctx names (.conditionEvaluation detail)

/-- The context of an evaluation, after its values have been normalized. -/
structure EvalContext.Normal (ctx : EvalContext) : Prop where
  data : fits defaultCollectionItems ctx.data 0 = true
  roots : ∀ name v, lookupRoot name ctx.stepOutputs ctx.params = some v →
    fits defaultCollectionItems v 0 = true

section Evaluation

variable {reprStr : String → String} {ctx : EvalContext} {names names' : List String}

theorem Refused.subset {exc : EngineException} (h : Refused reprStr ctx names exc)
    (wider : names ⊆ names') : Refused reprStr ctx names' exc := by
  cases h with
  | unknown used absent => exact .unknown (wider used) absent
  | values starts known => exact .values starts known

theorem head_append {s t : String} {c : Char} (h : s.toList.head? = some c) :
    (s ++ t).toList.head? = some c := by
  rw [String.toList_append, List.head?_append, h]
  rfl

theorem Raises.wider {α : Type} {x : Except EngineException α}
    (h : Raises (Refused reprStr ctx names) x) (wider : names ⊆ names') :
    Raises (Refused reprStr ctx names') x :=
  h.mono fun _ refused => refused.subset wider

theorem resolveRoot_fits (normal : ctx.Normal) {name : String} {v : JsonValue}
    (h : resolveRoot reprStr name ctx = .ok v) : fits defaultCollectionItems v 0 = true := by
  rw [resolveRoot] at h
  split at h
  · cases h
    exact normal.data
  · cases hlookup : lookupRoot name ctx.stepOutputs ctx.params with
    | none =>
        rw [hlookup] at h
        cases h
    | some w =>
        rw [hlookup] at h
        cases h
        exact normal.roots name v hlookup

theorem getPathValue_raises {v : JsonValue} (within : fits defaultCollectionItems v 0 = true)
    (token : ReferenceToken) :
    Raises (Refused reprStr ctx names) (getPathValue (.json v) token) := by
  rw [getPathValue]
  refine Raises.bind ?_ fun _ _ => .ok _
  intro exc h
  have raises := resolveJsonPath_raises within [token] "condition value"
  rw [EvalValue.toJson] at h
  cases hresolve : resolveJsonPath v [token] "condition value" with
  | ok w =>
      rw [hresolve] at h
      cases h
  | error e =>
      obtain ⟨path, detail, rfl⟩ := raises e hresolve
      rw [hresolve] at h
      cases h
      exact .values (head_append (head_append (head_append rfl)))
        (by simp [detailInitials] : 'C' ∈ detailInitials)

theorem getPathValue_fits {value w : EvalValue} {token : ReferenceToken}
    (h : getPathValue value token = .ok w) :
    ∃ v, w = .json v ∧ fits defaultCollectionItems v 0 = true := by
  rw [getPathValue] at h
  cases hresolve : resolveJsonPath value.toJson [token] "condition value" with
  | ok v =>
      rw [hresolve] at h
      cases h
      exact ⟨v, rfl, fits_of_resolveJsonPath hresolve⟩
  | error e =>
      rw [hresolve] at h
      cases e <;> cases h

/-- References lead to values within the bounds. -/
theorem evaluate_reference (normal : ctx.Normal) {e : Expr} {value : EvalValue}
    (reference : e.isReference = true) (h : evaluate reprStr ctx e = .ok value) :
    ∃ v, value = .json v ∧ fits defaultCollectionItems v 0 = true := by
  cases e with
  | name id =>
      rw [evaluate] at h
      split at h
      · rename_i literal hliteral
        cases h
        refine ⟨literal, rfl, ?_⟩
        obtain ⟨entry, hentry, rfl⟩ := mem_of_lookup hliteral
        simp only [nameLiterals, List.mem_cons, List.not_mem_nil, or_false] at hentry
        rcases hentry with rfl | rfl | rfl | rfl | rfl | rfl <;> rfl
      · cases hroot : resolveRoot reprStr id ctx with
        | ok v =>
            rw [hroot] at h
            cases h
            exact ⟨v, rfl, resolveRoot_fits normal hroot⟩
        | error e =>
            rw [hroot] at h
            cases h
  | «attribute» inner attr =>
      rw [evaluate] at h
      cases hinner : evaluate reprStr ctx inner with
      | ok v =>
          rw [hinner] at h
          exact getPathValue_fits h
      | error e =>
          rw [hinner] at h
          cases h
  | subscript inner slice =>
      rw [evaluate] at h
      split at h
      · cases hinner : evaluate reprStr ctx inner with
        | ok v =>
            rw [hinner] at h
            exact getPathValue_fits h
        | error e =>
            rw [hinner] at h
            cases h
      · cases h
  | _ => cases reference

theorem asComparison_raises (left right : EvalValue) (x : Except String Bool) :
    Raises (Refused reprStr ctx names) (asComparison left right x) := by
  unfold asComparison
  split
  · exact .ok _
  · exact .error (.values (head_append (head_append (head_append (head_append (head_append
      (head_append rfl)))))) (by simp [detailInitials] : 'c' ∈ detailInitials))

mutual

/-- An accepted tree raises for unknown roots, and where values do not go together. -/
theorem evaluate_raises (normal : ctx.Normal) (e : Expr) (checked : checkNode e = .ok ()) :
    Raises (Refused reprStr ctx (referenceNames e)) (evaluate reprStr ctx e) := by
  match e with
  | .boolOp true values =>
      rw [checkNode] at checked
      rw [evaluate, referenceNames]
      exact (evaluateAll_raises normal values checked).bind fun _ _ => .ok _
  | .boolOp false values =>
      rw [checkNode] at checked
      rw [evaluate, referenceNames]
      exact (evaluateAny_raises normal values checked).bind fun _ _ => .ok _
  | .unaryNot operand =>
      rw [checkNode] at checked
      rw [evaluate, referenceNames]
      exact (evaluate_raises normal operand checked).bind fun _ _ => .ok _
  | .unaryOther operand => cases checked
  | .compare left ops comparators =>
      rw [checkNode] at checked
      obtain ⟨_, -, checked⟩ := exists_of_bind_eq_ok checked
      obtain ⟨_, hleft, hcomparators⟩ := exists_of_bind_eq_ok checked
      rw [evaluate, referenceNames]
      refine (Raises.wider (evaluate_raises normal left hleft) (by simp)).bind fun value _ => ?_
      refine Raises.bind ?_ fun _ _ => .ok _
      exact Raises.wider (evaluateChain_raises normal value ops comparators hcomparators) (by simp)
  | .call (.name id) args keywords =>
      rw [checkNode] at checked
      split at checked
      · split at checked
        · cases checked
        · rename_i hwhite hcount
          split at checked
          · cases checked
          · have hlength : args.length = 1 := by
              simp only [Bool.or_eq_true, bne_iff_ne, ne_eq, not_or, not_not] at hcount
              exact hcount.2
            have hhead := evaluateHead_raises normal args hlength checked
            rw [evaluate, referenceNames]
            split
            · cases hresult : evaluateHead reprStr ctx args with
              | ok _ => exact .ok _
              | error e =>
                  cases e with
                  | conditionEvaluation _ => exact .ok _
                  | _ => exact .error (hhead _ hresult)
            · refine hhead.bind fun value _ => ?_
              split
              · exact .ok _
              · exact .error (.values (head_append (head_append (head_append (head_append rfl))))
                  (by simp [detailInitials] : 'l' ∈ detailInitials))
      · cases checked
  | .call (.boolOp _ _) _ _ | .call (.unaryNot _) _ _ | .call (.unaryOther _) _ _
  | .call (.compare _ _ _) _ _ | .call (.call _ _ _) _ _ | .call (.attribute _ _) _ _
  | .call (.subscript _ _) _ _ | .call (.constant _) _ _ | .call (.collection _ _) _ _
  | .call (.other _) _ _ => cases checked
  | .attribute value attr =>
      rw [checkNode] at checked
      split at checked
      · rename_i reference
        rw [evaluate, referenceNames]
        refine (evaluate_raises normal value checked).bind fun inner hinner => ?_
        obtain ⟨v, rfl, within⟩ := evaluate_reference normal reference hinner
        exact getPathValue_raises within _
      · cases checked
  | .subscript value slice =>
      rw [checkNode] at checked
      split at checked
      · rename_i reference
        split at checked
        · rename_i hslice
          obtain ⟨token, htoken⟩ := Option.isSome_iff_exists.mp hslice
          rw [evaluate, referenceNames]
          simp only [htoken]
          refine (evaluate_raises normal value checked).bind fun inner hinner => ?_
          obtain ⟨v, rfl, within⟩ := evaluate_reference normal reference hinner
          exact getPathValue_raises within _
        · cases checked
      · cases checked
  | .name id =>
      rw [evaluate, referenceNames]
      cases hliteral : nameLiterals.lookup id with
      | some literal => exact .ok _
      | none =>
          refine Raises.bind ?_ fun _ _ => .ok _
          intro exc hroot
          exact .unknown (by simp) hroot
  | .constant value =>
      rw [evaluate]
      exact .ok _
  | .collection isTuple elements =>
      rw [evaluate]
      exact .ok _
  | .other kind => cases checked

theorem evaluateAll_raises (normal : ctx.Normal) (es : List Expr)
    (checked : checkNodes es = .ok ()) :
    Raises (Refused reprStr ctx (referenceNamesAll es)) (evaluateAll reprStr ctx es) := by
  match es with
  | [] => exact .ok _
  | e :: rest =>
      rw [checkNodes] at checked
      obtain ⟨_, he, hrest⟩ := exists_of_bind_eq_ok checked
      rw [evaluateAll, referenceNamesAll]
      refine (Raises.wider (evaluate_raises normal e he) (by simp)).bind fun value _ => ?_
      exact Raises.ite (fun _ => Raises.wider (evaluateAll_raises normal rest hrest) (by simp))
        fun _ => .ok _

theorem evaluateAny_raises (normal : ctx.Normal) (es : List Expr)
    (checked : checkNodes es = .ok ()) :
    Raises (Refused reprStr ctx (referenceNamesAll es)) (evaluateAny reprStr ctx es) := by
  match es with
  | [] => exact .ok _
  | e :: rest =>
      rw [checkNodes] at checked
      obtain ⟨_, he, hrest⟩ := exists_of_bind_eq_ok checked
      rw [evaluateAny, referenceNamesAll]
      refine (Raises.wider (evaluate_raises normal e he) (by simp)).bind fun value _ => ?_
      exact Raises.ite (fun _ => .ok _)
        fun _ => Raises.wider (evaluateAny_raises normal rest hrest) (by simp)

theorem evaluateChain_raises (normal : ctx.Normal) (left : EvalValue) (ops : List CompareOp)
    (es : List Expr) (checked : checkNodes es = .ok ()) :
    Raises (Refused reprStr ctx (referenceNamesAll es)) (evaluateChain reprStr ctx left ops es) := by
  match ops, es with
  | [], _ =>
      rw [evaluateChain]
      · exact .ok _
      · simp
  | _ :: _, [] =>
      rw [evaluateChain]
      · exact .ok _
      · simp
  | op :: ops, e :: rest =>
      rw [checkNodes] at checked
      obtain ⟨_, he, hrest⟩ := exists_of_bind_eq_ok checked
      rw [evaluateChain, referenceNamesAll]
      refine (Raises.wider (evaluate_raises normal e he) (by simp)).bind fun value _ => ?_
      refine (asComparison_raises _ _ _).bind fun matched _ => ?_
      exact Raises.ite
        (fun _ => Raises.wider (evaluateChain_raises normal value ops rest hrest) (by simp))
        fun _ => .ok _

theorem evaluateHead_raises (normal : ctx.Normal) (es : List Expr) (single : es.length = 1)
    (checked : checkNodes es = .ok ()) :
    Raises (Refused reprStr ctx (referenceNamesAll es)) (evaluateHead reprStr ctx es) := by
  match es with
  | [] => cases single
  | e :: rest =>
      rw [checkNodes] at checked
      obtain ⟨_, he, hrest⟩ := exists_of_bind_eq_ok checked
      rw [evaluateHead, referenceNamesAll]
      exact Raises.wider (evaluate_raises normal e he) (by simp)

end

end Evaluation

/-! ## Outputs that stay readable -/

theorem initial_ne {detail path : String} {c : Char} (starts : detail.toList.head? = some c)
    (other : c ≠ 'I') : detail ≠ (EngineException.dataNormalization path depthDetail).text := by
  rintro rfl
  rw [show (EngineException.dataNormalization path depthDetail).text.toList.head? = some 'I' from
    head_append (head_append (head_append rfl))] at starts
  exact other (Option.some.inj starts).symm

theorem char_append {s t : String} {n : Nat} {c : Char} (h : s.toList[n]? = some c) :
    (s ++ t).toList[n]? = some c := by
  obtain ⟨hn, -⟩ := List.getElem?_eq_some_iff.mp h
  rw [String.toList_append, List.getElem?_append_left hn, h]

theorem invalid_ne {detail path : String} : s!"Invalid condition: {detail}" ≠
    (EngineException.dataNormalization path depthDetail).text := by
  intro h
  have hleft : (s!"Invalid condition: {detail}").toList[8]? = some 'c' := char_append rfl
  have hright : ((EngineException.dataNormalization path depthDetail).text).toList[8]? =
      some 'J' := char_append (char_append (char_append rfl))
  rw [h, hright] at hleft
  exact absurd hleft (by decide)

theorem not_limited_condition {detail : String} {c : Char}
    (starts : detail.toList.head? = some c) (other : c ≠ 'I') :
    ¬ Limited (.conditionEvaluation detail) := by
  intro h
  cases h with
  | normalization outside => cases outside
  | condition => exact initial_ne starts other rfl

theorem Refused.not_limited {reprStr : String → String} {ctx : EvalContext} {names : List String}
    {exc : EngineException} (h : Refused reprStr ctx names exc) : ¬ Limited exc := by
  cases h with
  | unknown used absent =>
      rw [resolveRoot] at absent
      split at absent
      · cases absent
      · split at absent
        · cases absent
        · cases absent
          refine not_limited_condition (c := '\'') ?_ (by decide)
          exact head_append (head_append (head_append rfl))
  | values starts known =>
      refine not_limited_condition starts ?_
      rintro rfl
      simp [detailInitials] at known

/-- The readers of step outputs that refuse none of them for its depth or its size. -/
structure Readable (platform : Platform) (outputs : JsonObject) : Prop where
  paths : ∀ name v, outputs.lookup name = some v → ∀ tokens root,
    Raises (fun exc => ¬ Limited exc) (resolveJsonPath v tokens root)
  references : ∀ reference : ReferencePath, reference.root ∈ keys outputs → ∀ params,
    Raises (fun exc => ¬ Limited exc) (resolveReference reference outputs params)
  conditions : ∀ condition data params, fits defaultCollectionItems data 0 = true →
    fits defaultCollectionItems (.obj params) 0 = true →
      Raises (fun exc => ¬ Limited exc)
        (evaluateCondition platform.parse platform.reprStr condition data outputs params)

/-- The outputs as one object, one level deeper than each of them. -/
def WithinReach (outputs : JsonObject) : Prop :=
  outputs.length ≤ defaultCollectionItems ∧
    ∀ e ∈ outputs, fits defaultCollectionItems e.2 1 = true

theorem withinReach_iff {outputs : JsonObject} :
    WithinReach outputs ↔ fits defaultCollectionItems (.obj outputs) 0 = true := by
  simp only [WithinReach, fits, fitsFields_eq_all, Bool.and_eq_true, decide_eq_true_eq,
    List.all_eq_true, Nat.zero_le, true_and, Nat.zero_add]

theorem normalizeJsonObject_of_fits {fields : JsonObject} {maxItems : Nat}
    (within : fits maxItems (.obj fields) 0 = true) (path : String) :
    normalizeJsonObject maxItems fields path = .ok fields := by
  rw [normalizeJsonObject, normalizeJsonValue_of_fits within]
  rfl

theorem asConditionError_limited {α : Type} {x : Except EngineException α}
    (h : Raises OutOfBounds x) : Raises Limited (asConditionError x) := by
  intro exc raised
  cases x with
  | ok a => cases raised
  | error e =>
      cases h e rfl with
      | items =>
          cases raised
          exact .normalization .items
      | depth =>
          cases raised
          exact .condition

theorem normalizeJsonObject_raises (maxItems : Nat) (fields : JsonObject) (path : String) :
    Raises OutOfBounds (normalizeJsonObject maxItems fields path) := by
  rw [normalizeJsonObject]
  refine (normalizeJsonValue_raises _ _ _ _).bind fun v hv => ?_
  by_cases within : fits maxItems (.obj fields) 0 = true
  · rw [normalizeJsonValue_of_fits within] at hv
    cases hv
    exact .ok _
  · obtain ⟨e, he⟩ := normalizeJsonValue_of_not_fits (by simpa using within) path
    rw [he] at hv
    cases hv

theorem normalizeJsonObject_of_not_fits {fields : JsonObject} {maxItems : Nat}
    (outside : fits maxItems (.obj fields) 0 = false) (path : String) :
    ∃ exc, normalizeJsonObject maxItems fields path = .error exc := by
  obtain ⟨exc, hexc⟩ := normalizeJsonValue_of_not_fits outside path
  exact ⟨exc, by rw [normalizeJsonObject, hexc, error_bind]⟩

/-- The context of an evaluation that passes the normalization. -/
theorem EvalContext.normal_of_fits {data : JsonValue} {outputs params : JsonObject}
    (hdata : fits defaultCollectionItems data 0 = true)
    (houtputs : fits defaultCollectionItems (.obj outputs) 0 = true)
    (hparams : fits defaultCollectionItems (.obj params) 0 = true) :
    (EvalContext.mk data outputs params).Normal where
  data := hdata
  roots := by
    intro name v hlookup
    simp only [lookupRoot] at hlookup
    split at hlookup
    · rename_i w hw
      cases hlookup
      obtain ⟨e, he, rfl⟩ := mem_of_lookup hw
      exact fits_of_mem_obj houtputs he
    · obtain ⟨e, he, rfl⟩ := mem_of_lookup hlookup
      exact fits_of_mem_obj hparams he

theorem parseCondition_checked {parse : ExpressionParser} {condition : String} {tree : Expr}
    (h : parseCondition parse condition = .ok tree) : checkNode tree = .ok () := by
  rw [parseCondition] at h
  obtain ⟨parsed, -, h₁⟩ := exists_of_bind_eq_ok h
  obtain ⟨_, checked, h₂⟩ := exists_of_bind_eq_ok h₁
  cases h₂
  exact checked

/-- The value a condition evaluates to, once its values are normalized. -/
theorem evaluateCondition_of_fits {parse : ExpressionParser} {reprStr : String → String}
    {condition : String} {tree : Expr} {data : JsonValue} {outputs params : JsonObject}
    (accepted : parseCondition parse condition = .ok tree)
    (hdata : fits defaultCollectionItems data 0 = true)
    (houtputs : fits defaultCollectionItems (.obj outputs) 0 = true)
    (hparams : fits defaultCollectionItems (.obj params) 0 = true) :
    evaluateCondition parse reprStr condition data outputs params =
      (evaluate reprStr ⟨data, outputs, params⟩ tree).map EvalValue.truthy := by
  simp only [evaluateCondition, accepted, normalizeJsonValue_of_fits hdata,
    normalizeJsonObject_of_fits houtputs, normalizeJsonObject_of_fits hparams, asConditionError,
    ok_bind]
  cases evaluate reprStr ⟨data, outputs, params⟩ tree <;> rfl

theorem withinReach_of_readable {platform : Platform} {condition : String} {tree : Expr}
    (accepted : parseCondition platform.parse condition = .ok tree) {outputs : JsonObject}
    (readable : Readable platform outputs) : WithinReach outputs := by
  rw [withinReach_iff]
  by_contra outside
  obtain ⟨exc, hexc⟩ := normalizeJsonObject_of_not_fits (by simpa using outside) "steps"
  have limited := asConditionError_limited
    (normalizeJsonObject_raises defaultCollectionItems outputs "steps")
  cases hraised : asConditionError (normalizeJsonObject defaultCollectionItems outputs "steps")
    with
  | ok fields =>
      rw [hexc] at hraised
      cases exc <;> cases hraised
  | error e =>
      have evaluated : evaluateCondition platform.parse platform.reprStr condition .null outputs
          [] = .error e := by
        simp only [evaluateCondition, accepted, hraised]
        rfl
      exact readable.conditions condition .null [] rfl rfl e evaluated (limited e hraised)

theorem readable_of_withinReach {platform : Platform} {outputs : JsonObject}
    (within : WithinReach outputs) : Readable platform outputs := by
  rw [withinReach_iff] at within
  have stored : ∀ name v, outputs.lookup name = some v →
      fits defaultCollectionItems v 0 = true := by
    intro name v hlookup
    obtain ⟨e, he, rfl⟩ := mem_of_lookup hlookup
    exact fits_of_mem_obj within he
  have pathError : ∀ path detail, ¬ Limited (.dataPath path detail) := by
    intro path detail h
    cases h with
    | normalization outside => cases outside
  refine ⟨?_, ?_, ?_⟩
  · intro name v hlookup tokens root exc raised
    obtain ⟨path, detail, rfl⟩ :=
      resolveJsonPath_raises (stored name v hlookup) tokens root exc raised
    exact pathError path detail
  · intro reference declared params exc raised
    cases hlookup : outputs.lookup reference.root with
    | none => simp [mem_keys_iff_isSome_lookup, hlookup] at declared
    | some v =>
        simp only [resolveReference, lookupRoot, hlookup] at raised
        cases hresolve : resolveJsonPath v reference.path reference.root with
        | ok w =>
            rw [hresolve] at raised
            cases raised
        | error e =>
            obtain ⟨path, detail, rfl⟩ := resolveJsonPath_raises
              (stored reference.root v hlookup) reference.path reference.root e hresolve
            rw [hresolve] at raised
            cases raised
            intro h
            generalize htext : (EngineException.dataPath path detail).text = text at h
            cases h with
            | normalization outside => cases outside
            | reference =>
                exact initial_ne (c := 'C') (head_append (head_append (head_append rfl)))
                  (by decide) htext
  · intro condition data params hdata hparams exc raised
    cases accepted : parseCondition platform.parse condition with
    | error detail =>
        simp only [evaluateCondition, accepted] at raised
        cases raised
        intro h
        generalize htext : s!"Invalid condition: {detail}" = text at h
        cases h with
        | normalization outside => cases outside
        | condition => exact invalid_ne htext
    | ok tree =>
        rw [evaluateCondition_of_fits accepted hdata within hparams] at raised
        cases hevaluate : evaluate platform.reprStr ⟨data, outputs, params⟩ tree with
        | ok value =>
            rw [hevaluate] at raised
            cases raised
        | error e =>
            rw [hevaluate] at raised
            cases raised
            exact (evaluate_raises (EvalContext.normal_of_fits hdata within hparams) tree
              (parseCondition_checked accepted) _ hevaluate).not_limited

/-- Step outputs stay readable exactly if the object of all of them is within the bounds. -/
theorem readable_iff (platform : Platform)
    (accepts : ∃ condition tree, parseCondition platform.parse condition = .ok tree)
    (outputs : JsonObject) : Readable platform outputs ↔ WithinReach outputs := by
  obtain ⟨condition, tree, accepted⟩ := accepts
  exact ⟨withinReach_of_readable accepted, readable_of_withinReach⟩

theorem flat_readable : Readable plainPlatform [("check", .obj [("count", .int 2)])] :=
  (readable_iff plainPlatform ⟨"True", _, rfl⟩ _).mpr (by
    rw [withinReach_iff]
    decide)

/-- Lists around a null. -/
def nested : Nat → JsonValue
  | 0 => .null
  | depth + 1 => .arr [nested depth]

/-- An output as deep as normalization admits is one level too deep among the step outputs. -/
theorem deep_output_unreadable :
    normalizeJsonValue (RuntimeLimits.collectionItems {}) (nested maxJsonDepth)
        "steps.deep.output" 0 = .ok (nested maxJsonDepth) ∧
      ¬ Readable plainPlatform [("deep", nested maxJsonDepth)] := by
  refine ⟨normalizeJsonValue_of_fits (by decide) _, fun readable => ?_⟩
  have within := withinReach_of_readable (show parseCondition plainPlatform.parse "True" =
    .ok (.constant (.bool true)) from rfl) readable
  rw [withinReach_iff] at within
  exact absurd within (by decide)

end Justflow
