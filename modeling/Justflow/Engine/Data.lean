import Justflow.Library.Programs
import Justflow.Config.Grammar
import Justflow.Engine.Errors

/-!
# Normalization and path traversal

Normalization walks a value, bounding depth and collection sizes, and gives the value back
unchanged; only which violation it reports first depends on key order.  Whether it succeeds is
the predicate `fits`, which key order does not touch.
-/

open Fields Program

namespace Justflow

def maxJsonDepth : Nat := 32
def defaultCollectionItems : Nat := 10000
def maxPathTokens : Nat := 32

def depthGuard (path : String) (depth : Nat) : Except EngineException Unit :=
  if maxJsonDepth < depth then
    .error (.dataNormalization path s!"depth exceeds {maxJsonDepth}")
  else .ok ()

mutual

def normalizeJsonValue (maxItems : Nat) :
    JsonValue → String → Nat → Except EngineException JsonValue
  | .arr items, path, depth => do
      depthGuard path depth
      enforceLimit items.length maxItems .collectionItems path
      return .arr (← normalizeItems maxItems items path 0 depth)
  | .obj fields, path, depth => do
      depthGuard path depth
      enforceLimit fields.length maxItems .collectionItems path
      return .obj (← normalizeFields maxItems fields path depth)
  | .null, path, depth => do
      depthGuard path depth
      return .null
  | .bool b, path, depth => do
      depthGuard path depth
      return .bool b
  | .int n, path, depth => do
      depthGuard path depth
      return .int n
  | .float f, path, depth => do
      depthGuard path depth
      return .float f
  | .str s, path, depth => do
      depthGuard path depth
      return .str s

def normalizeItems (maxItems : Nat) :
    List JsonValue → String → Nat → Nat → Except EngineException (List JsonValue)
  | [], _, _, _ => .ok []
  | v :: rest, path, index, depth => do
      let item ← normalizeJsonValue maxItems v s!"{path}[{index}]" (depth + 1)
      return item :: (← normalizeItems maxItems rest path (index + 1) depth)

def normalizeFields (maxItems : Nat) :
    List (String × JsonValue) → String → Nat → Except EngineException (List (String × JsonValue))
  | [], _, _ => .ok []
  | (key, v) :: rest, path, depth => do
      let item ← normalizeJsonValue maxItems v s!"{path}.{key}" (depth + 1)
      return (key, item) :: (← normalizeFields maxItems rest path depth)

end

mutual

/-- Depth and sizes are within bounds. -/
def fits (maxItems : Nat) : JsonValue → Nat → Bool
  | .arr items, depth =>
      decide (depth ≤ maxJsonDepth) && decide (items.length ≤ maxItems)
        && fitsItems maxItems items depth
  | .obj fields, depth =>
      decide (depth ≤ maxJsonDepth) && decide (fields.length ≤ maxItems)
        && fitsFields maxItems fields depth
  | .null, depth | .bool _, depth | .int _, depth | .float _, depth | .str _, depth =>
      decide (depth ≤ maxJsonDepth)

def fitsItems (maxItems : Nat) : List JsonValue → Nat → Bool
  | [], _ => true
  | v :: rest, depth => fits maxItems v (depth + 1) && fitsItems maxItems rest depth

def fitsFields (maxItems : Nat) : List (String × JsonValue) → Nat → Bool
  | [], _ => true
  | (_, v) :: rest, depth => fits maxItems v (depth + 1) && fitsFields maxItems rest depth

end

theorem fitsItems_eq_all (maxItems : Nat) (items : List JsonValue) (depth : Nat) :
    fitsItems maxItems items depth = items.all fun v => fits maxItems v (depth + 1) := by
  induction items with
  | nil => rfl
  | cons v rest ih => simp [fitsItems, ih]

theorem fitsFields_eq_all (maxItems : Nat) (fields : JsonObject) (depth : Nat) :
    fitsFields maxItems fields depth = fields.all fun e => fits maxItems e.2 (depth + 1) := by
  induction fields with
  | nil => rfl
  | cons e rest ih => simp [fitsFields, ih]

theorem all_congr_of_mem {α : Type} {p q : α → Bool} {l : List α} (h : ∀ a ∈ l, p a = q a) :
    l.all p = l.all q := by
  rw [Bool.eq_iff_iff, List.all_eq_true, List.all_eq_true]
  exact forall₂_congr fun a ha => by rw [h a ha]

/-- The bounds do not see key order. -/
theorem fits_wire (maxItems : Nat) (v : JsonValue) (depth : Nat) :
    fits maxItems v.wire depth = fits maxItems v depth := by
  induction v generalizing depth with
  | null | bool | int | float | str => rfl
  | arr items ih =>
      simp only [JsonValue.wire_arr, fits, List.length_map, fitsItems_eq_all, List.all_map,
        Function.comp_def]
      congr 1
      exact all_congr_of_mem fun v hv => ih v hv (depth + 1)
  | obj fields ih =>
      have hall : ∀ p : JsonValue → Bool, (sortKeys (fields.map fun e => (e.1, e.2.wire))).all
          (fun e => p e.2) = fields.all fun e => p e.2.wire := by
        intro p
        rw [Bool.eq_iff_iff, List.all_eq_true, List.all_eq_true]
        constructor
        · intro h e he
          exact h (e.1, e.2.wire) (((sameFields_sortKeys _).mem_iff _).mpr
            (List.mem_map_of_mem he))
        · intro h e he
          obtain ⟨f, hf, rfl⟩ := List.mem_map.mp (((sameFields_sortKeys _).mem_iff e).mp he)
          exact h f hf
      simp only [JsonValue.wire_obj, fits, length_sortKeys, List.length_map, fitsFields_eq_all,
        hall fun v => fits maxItems v (depth + 1)]
      congr 1
      exact all_congr_of_mem fun e he => ih e he (depth + 1)

theorem depthGuard_ok {path : String} {depth : Nat} (h : depth ≤ maxJsonDepth) :
    depthGuard path depth = .ok () := by
  simp [depthGuard, Nat.not_lt.mpr h]

theorem depthGuard_error (path : String) {depth : Nat} (h : ¬ depth ≤ maxJsonDepth) :
    ∃ e, depthGuard path depth = .error e := by
  simp [depthGuard, Nat.lt_of_not_le h]

theorem enforceLimit_error {actual limit : Nat} (kind : LimitKind) (boundary : String)
    (h : ¬ actual ≤ limit) : ∃ e, enforceLimit actual limit kind boundary = .error e := by
  simp [enforceLimit, Nat.lt_of_not_le h]

theorem normalizeItems_of_fits {maxItems : Nat} {items : List JsonValue} {depth : Nat}
    (h : ∀ v ∈ items, ∀ path, normalizeJsonValue maxItems v path (depth + 1) = .ok v)
    (path : String) (index : Nat) :
    normalizeItems maxItems items path index depth = .ok items := by
  induction items generalizing index with
  | nil => rfl
  | cons v rest ih =>
      have hrest := ih (fun w hw => h w (by simp [hw])) (index + 1)
      simp only [normalizeItems, h v (by simp), hrest, ok_bind, pure_eq_ok]

theorem normalizeFields_of_fits {maxItems : Nat} {fields : JsonObject} {depth : Nat}
    (h : ∀ e ∈ fields, ∀ path, normalizeJsonValue maxItems e.2 path (depth + 1) = .ok e.2)
    (path : String) : normalizeFields maxItems fields path depth = .ok fields := by
  induction fields with
  | nil => rfl
  | cons e rest ih =>
      obtain ⟨key, v⟩ := e
      have hhead := h (key, v) (by simp)
      have hrest := ih fun e he => h e (by simp [he])
      simp only [normalizeFields, hhead, hrest, ok_bind, pure_eq_ok]

/-- Within bounds, normalization gives the value back. -/
theorem normalizeJsonValue_of_fits {maxItems : Nat} {v : JsonValue} {depth : Nat}
    (h : fits maxItems v depth = true) (path : String) :
    normalizeJsonValue maxItems v path depth = .ok v := by
  induction v generalizing depth path with
  | arr items ih =>
      simp only [fits, Bool.and_eq_true, decide_eq_true_eq, fitsItems_eq_all,
        List.all_eq_true] at h
      obtain ⟨⟨hdepth, hlength⟩, hitems⟩ := h
      have := normalizeItems_of_fits (fun v hv path => ih v hv (hitems v hv) path) path 0
      simp only [normalizeJsonValue, depthGuard_ok hdepth, enforceLimit_ok_iff.mpr hlength, this, ok_bind, pure_eq_ok]
  | obj fields ih =>
      simp only [fits, Bool.and_eq_true, decide_eq_true_eq, fitsFields_eq_all,
        List.all_eq_true] at h
      obtain ⟨⟨hdepth, hlength⟩, hfields⟩ := h
      have := normalizeFields_of_fits (fun e he path => ih e he (hfields e he) path) path
      simp only [normalizeJsonValue, depthGuard_ok hdepth, enforceLimit_ok_iff.mpr hlength, this, ok_bind, pure_eq_ok]
  | _ =>
      simp only [fits, decide_eq_true_eq] at h
      simp only [normalizeJsonValue, depthGuard_ok h, ok_bind, pure_eq_ok]

theorem normalizeItems_error {maxItems : Nat} {items : List JsonValue} {depth : Nat}
    {v : JsonValue} (hv : v ∈ items)
    (h : ∀ path, ∃ e, normalizeJsonValue maxItems v path (depth + 1) = .error e)
    (path : String) (index : Nat) :
    ∃ e, normalizeItems maxItems items path index depth = .error e := by
  induction items generalizing index with
  | nil => simp at hv
  | cons w rest ih =>
      cases hw : normalizeJsonValue maxItems w s!"{path}[{index}]" (depth + 1) with
      | error e => exact ⟨e, by simp only [normalizeItems, hw, error_bind]⟩
      | ok item =>
          rcases List.mem_cons.mp hv with rfl | hrest
          · obtain ⟨e, he⟩ := h s!"{path}[{index}]"
            rw [hw] at he
            cases he
          · obtain ⟨e, he⟩ := ih hrest (index + 1)
            exact ⟨e, by simp only [normalizeItems, hw, he, ok_bind, error_bind]⟩

theorem normalizeFields_error {maxItems : Nat} {fields : JsonObject} {depth : Nat}
    {f : String × JsonValue} (hf : f ∈ fields)
    (h : ∀ path, ∃ e, normalizeJsonValue maxItems f.2 path (depth + 1) = .error e)
    (path : String) : ∃ e, normalizeFields maxItems fields path depth = .error e := by
  induction fields with
  | nil => simp at hf
  | cons g rest ih =>
      obtain ⟨key, w⟩ := g
      cases hw : normalizeJsonValue maxItems w s!"{path}.{key}" (depth + 1) with
      | error e => exact ⟨e, by simp only [normalizeFields, hw, error_bind]⟩
      | ok item =>
          rcases List.mem_cons.mp hf with rfl | hrest
          · obtain ⟨e, he⟩ := h s!"{path}.{key}"
            rw [hw] at he
            cases he
          · obtain ⟨e, he⟩ := ih hrest
            exact ⟨e, by simp only [normalizeFields, hw, he, ok_bind, error_bind]⟩

/-- Out of bounds, normalization raises. -/
theorem normalizeJsonValue_of_not_fits {maxItems : Nat} {v : JsonValue} {depth : Nat}
    (h : fits maxItems v depth = false) (path : String) :
    ∃ e, normalizeJsonValue maxItems v path depth = .error e := by
  induction v generalizing depth path with
  | arr items ih =>
      by_cases hdepth : depth ≤ maxJsonDepth
      · by_cases hlength : items.length ≤ maxItems
        · simp only [fits, hdepth, hlength, decide_true, Bool.true_and, fitsItems_eq_all,
            List.all_eq_false] at h
          obtain ⟨v, hv, hfalse⟩ := h
          obtain ⟨e, he⟩ := normalizeItems_error hv
            (fun path => ih v hv (by simpa using hfalse) path) path 0
          exact ⟨e, by simp only [normalizeJsonValue, depthGuard_ok hdepth,
            enforceLimit_ok_iff.mpr hlength, he, ok_bind, error_bind]⟩
        · obtain ⟨e, he⟩ := enforceLimit_error .collectionItems path hlength
          exact ⟨e, by simp only [normalizeJsonValue, depthGuard_ok hdepth, he, ok_bind, error_bind]⟩
      · obtain ⟨e, he⟩ := depthGuard_error path hdepth
        exact ⟨e, by simp only [normalizeJsonValue, he, error_bind]⟩
  | obj fields ih =>
      by_cases hdepth : depth ≤ maxJsonDepth
      · by_cases hlength : fields.length ≤ maxItems
        · simp only [fits, hdepth, hlength, decide_true, Bool.true_and, fitsFields_eq_all,
            List.all_eq_false] at h
          obtain ⟨f, hf, hfalse⟩ := h
          obtain ⟨e, he⟩ := normalizeFields_error hf
            (fun path => ih f hf (by simpa using hfalse) path) path
          exact ⟨e, by simp only [normalizeJsonValue, depthGuard_ok hdepth,
            enforceLimit_ok_iff.mpr hlength, he, ok_bind, error_bind]⟩
        · obtain ⟨e, he⟩ := enforceLimit_error .collectionItems path hlength
          exact ⟨e, by simp only [normalizeJsonValue, depthGuard_ok hdepth, he, ok_bind, error_bind]⟩
      · obtain ⟨e, he⟩ := depthGuard_error path hdepth
        exact ⟨e, by simp only [normalizeJsonValue, he, error_bind]⟩
  | _ =>
      simp only [fits, decide_eq_false_iff_not] at h
      obtain ⟨e, he⟩ := depthGuard_error path h
      exact ⟨e, by simp only [normalizeJsonValue, he, error_bind]⟩

def normalizeJsonObject (maxItems : Nat) (fields : JsonObject) (path : String) :
    Except EngineException JsonObject := do
  match ← normalizeJsonValue maxItems (.obj fields) path 0 with
  | .obj normalized => return normalized
  | _ => .error (.dataNormalization path "expected an object")

/-! ## Path traversal -/

def pyTypeName : JsonValue → String
  | .null => "NoneType"
  | .bool _ => "bool"
  | .int _ => "int"
  | .float _ => "float"
  | .str _ => "str"
  | .arr _ => "list"
  | .obj _ => "dict"

def resolveToken (value : JsonValue) (token : ReferenceToken) (path : String) :
    Except EngineException (JsonValue × String) :=
  match value, token with
  | .obj fields, .key name =>
      let nextPath := s!"{path}.{name}"
      match fields.lookup name with
      | some v => .ok (v, nextPath)
      | none => .error (.dataPath nextPath "key is not present")
  | .obj _, _ => .error (.dataPath path "object access requires a string key")
  | .arr items, .index position =>
      let nextPath := s!"{path}[{position}]"
      if position < 0 then .error (.dataPath nextPath "index is out of range")
      else
        match items[position.toNat]? with
        | some v => .ok (v, nextPath)
        | none => .error (.dataPath nextPath "index is out of range")
  | .arr _, _ => .error (.dataPath path "array access requires an integer index")
  | v, _ =>
      let name := pyTypeName v
      .error (.dataPath path s!"cannot traverse {name}")

def resolveTokens : List ReferenceToken → JsonValue → String → Except EngineException JsonValue
  | [], value, _ => .ok value
  | token :: rest, value, path => do
      let (next, nextPath) ← resolveToken value token path
      resolveTokens rest next nextPath

def resolveJsonPath (value : JsonValue) (tokens : List ReferenceToken) (root : String) :
    Except EngineException JsonValue := do
  if maxPathTokens < tokens.length then
    .error (.dataPath root s!"path contains more than {maxPathTokens} tokens")
  else
    resolveTokens tokens (← normalizeJsonValue defaultCollectionItems value root 0) root

/-! ## Key order -/

open JsonValue

/-- Key order cannot show in what normalization does: it succeeds, or the keys are sorted. -/
def StableNormal (maxItems : Nat) (v : JsonValue) : Prop :=
  fits maxItems v 0 = true ∨ v.wire = v

theorem Reordered.fits_eq {v w : JsonValue} (h : Reordered v w) (maxItems depth : Nat) :
    fits maxItems w depth = fits maxItems v depth := by
  rw [← fits_wire maxItems w, h.wire_eq, fits_wire]

theorem normalizeJsonValue_reordered {maxItems : Nat} {v w : JsonValue} (h : Reordered v w)
    (hstable : StableNormal maxItems v) (path : String) :
    RelatedExcept Eq Reordered (normalizeJsonValue maxItems v path 0)
      (normalizeJsonValue maxItems w path 0) := by
  by_cases hfits : fits maxItems v 0 = true
  · have hw : fits maxItems w 0 = true := by rw [Reordered.fits_eq h, hfits]
    rw [normalizeJsonValue_of_fits hfits, normalizeJsonValue_of_fits hw]
    exact .ok h
  · have hv : v.wire = v := hstable.resolve_left hfits
    rw [h.eq_of_wire_eq hv]
    exact .of_eq Reordered.refl

theorem resolveToken_reordered {v w : JsonValue} (h : Reordered v w) (token : ReferenceToken)
    (path : String) :
    RelatedExcept Eq (fun a b => Reordered a.1 b.1 ∧ a.2 = b.2) (resolveToken v token path)
      (resolveToken w token path) := by
  cases v with
  | obj es =>
      obtain ⟨gs, rfl, hfields⟩ := reordered_obj_iff.mp h
      cases token with
      | key name =>
          simp only [resolveToken]
          have hrel := hfields.lookup name
          generalize es.lookup name = v at hrel ⊢
          generalize gs.lookup name = w at hrel ⊢
          cases hrel with
          | none => exact .error rfl
          | some hvw => exact .ok ⟨hvw, rfl⟩
      | index _ => exact .error rfl
      | flag _ => exact .error rfl
  | arr xs =>
      obtain ⟨ys, rfl, hitems⟩ := reordered_arr_iff.mp h
      cases token with
      | key _ => exact .error rfl
      | flag _ => exact .error rfl
      | index position =>
          simp only [resolveToken]
          split
          · exact .error rfl
          · have hrel := getElem?_rel hitems position.toNat
            generalize xs[position.toNat]? = v at hrel ⊢
            generalize ys[position.toNat]? = w at hrel ⊢
            cases hrel with
            | none => exact .error rfl
            | some hvw => exact .ok ⟨hvw, rfl⟩
  | _ => cases h; cases token <;> exact .error rfl

theorem resolveTokens_reordered {v w : JsonValue} (h : Reordered v w)
    (tokens : List ReferenceToken) (path : String) :
    RelatedExcept Eq Reordered (resolveTokens tokens v path) (resolveTokens tokens w path) := by
  induction tokens generalizing v w path with
  | nil => exact .ok h
  | cons token rest ih =>
      refine (resolveToken_reordered h token path).bind ?_
      rintro ⟨a, p⟩ ⟨b, q⟩ ⟨hab, rfl : p = q⟩
      exact ih hab p

/-- Paths lead to related values, and fail alike. -/
theorem resolveJsonPath_reordered {v w : JsonValue} (h : Reordered v w)
    (hstable : StableNormal defaultCollectionItems v) (tokens : List ReferenceToken)
    (root : String) :
    RelatedExcept Eq Reordered (resolveJsonPath v tokens root)
      (resolveJsonPath w tokens root) := by
  unfold resolveJsonPath
  split
  · exact .error rfl
  · exact (normalizeJsonValue_reordered h hstable root).bind
      fun a b hab => resolveTokens_reordered hab tokens root

end Justflow
