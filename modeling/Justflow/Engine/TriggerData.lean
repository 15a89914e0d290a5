import Justflow.Engine.Dataflow
import Justflow.Library.Lookups

/-!
# The data of a trigger

The parameters of a run are the workflow's own, overwritten by what the trigger supplies.  The
runner completes the placeholders of all of them, so a supplied text that contains `$` followed
by a brace is read as a reference, like a text of the workflow definition.

The claim of the data is stated about two runs whose triggers differ inside strings only: both
or neither have parameters, supplied values arrive as they are, and a parameter of the
definition differs where a value that it names does.
-/

open Fields Program JsonValue

/-! ## Strings within a value -/

namespace JsonValue

mutual

/-- The strings within a value; keys are not among them. -/
def strings : JsonValue → List String
  | .str s => [s]
  | .arr items => stringsItems items
  | .obj fields => stringsFields fields
  | .null | .bool _ | .int _ | .float _ => []

def stringsItems : List JsonValue → List String
  | [] => []
  | v :: rest => strings v ++ stringsItems rest

def stringsFields : List (String × JsonValue) → List String
  | [] => []
  | (_, v) :: rest => strings v ++ stringsFields rest

end

mutual

/-- A value with all its strings emptied. -/
def blank : JsonValue → JsonValue
  | .str _ => .str ""
  | .arr items => .arr (blankItems items)
  | .obj fields => .obj (blankFields fields)
  | .null => .null
  | .bool b => .bool b
  | .int n => .int n
  | .float f => .float f

def blankItems : List JsonValue → List JsonValue
  | [] => []
  | v :: rest => blank v :: blankItems rest

def blankFields : List (String × JsonValue) → List (String × JsonValue)
  | [] => []
  | (key, v) :: rest => (key, blank v) :: blankFields rest

end

theorem stringsItems_eq_flatMap (items : List JsonValue) :
    stringsItems items = items.flatMap strings := by
  induction items with
  | nil => rfl
  | cons v rest ih => simp [stringsItems, ih]

theorem stringsFields_eq_flatMap (fields : List (String × JsonValue)) :
    stringsFields fields = fields.flatMap fun e => e.2.strings := by
  induction fields with
  | nil => rfl
  | cons e rest ih => simp [stringsFields, ih]

theorem blankItems_eq_map (items : List JsonValue) : blankItems items = items.map blank := by
  induction items with
  | nil => rfl
  | cons v rest ih => simp [blankItems, ih]

theorem blankFields_eq_map (fields : List (String × JsonValue)) :
    blankFields fields = fields.map fun e => (e.1, e.2.blank) := by
  induction fields with
  | nil => rfl
  | cons e rest ih => simp [blankFields, ih]

theorem mem_strings_arr {items : List JsonValue} {s : String} :
    s ∈ (JsonValue.arr items).strings ↔ ∃ v ∈ items, s ∈ v.strings := by
  rw [strings, stringsItems_eq_flatMap, List.mem_flatMap]

theorem mem_strings_obj {fields : List (String × JsonValue)} {s : String} :
    s ∈ (JsonValue.obj fields).strings ↔ ∃ e ∈ fields, s ∈ e.2.strings := by
  rw [strings, stringsFields_eq_flatMap, List.mem_flatMap]

end JsonValue

namespace Justflow

variable {σ : Type}

/-! ## Texts that open a placeholder -/

/-- The text contains the opening of a placeholder. -/
def Opens (s : String) : Prop :=
  ['$', '{'] <:+: s.toList

instance (s : String) : Decidable (Opens s) :=
  inferInstanceAs (Decidable (_ <:+: _))

section Scanning

variable (reprStr : String → String)

theorem scan_literal_cons {piece rest : List Char} {position : Nat} {c : Char}
    (plain : ¬ ['$', '{'] <+: c :: rest) :
    scanPlaceholders reprStr (.literal piece) position (c :: rest) =
      scanPlaceholders reprStr (.literal (c :: piece)) (position + 1) rest := by
  rw [scanPlaceholders.eq_3]
  rintro tail rfl rfl
  exact plain ⟨tail, rfl⟩

theorem scan_plain {chars : List Char} (plain : ¬ ['$', '{'] <:+: chars) (piece : List Char)
    (position : Nat) :
    scanPlaceholders reprStr (.literal piece) position chars =
      .ok (Segment.emit (chars.reverse ++ piece) []) := by
  induction chars generalizing piece position with
  | nil => rfl
  | cons c rest ih =>
      rw [List.infix_cons_iff, not_or] at plain
      rw [scan_literal_cons reprStr plain.1, ih plain.2]
      simp

/-- Inside a placeholder the scanner comes to its end or fails. -/
theorem scan_name {chars : List Char} {start position : Nat} {name : List Char}
    {segments : List Segment}
    (h : scanPlaceholders reprStr (.name start name) position chars = .ok segments) :
    ∃ found, Segment.placeholder found ∈ segments := by
  induction chars generalizing name position with
  | nil => cases h
  | cons c rest ih =>
      by_cases closing : c = '}'
      · subst closing
        rw [scanPlaceholders.eq_5] at h
        split at h
        · obtain ⟨later, -, h⟩ := exists_of_bind_eq_ok h
          cases h
          exact ⟨_, List.mem_cons_self⟩
        · cases h
      · rw [scanPlaceholders.eq_6 _ _ _ _ _ _ closing] at h
        exact ih h

theorem mem_emit {segment : Segment} {piece : List Char} {segments : List Segment}
    (h : segment ∈ segments) : segment ∈ Segment.emit piece segments := by
  rw [Segment.emit]
  split
  · exact h
  · exact List.mem_cons_of_mem _ h

theorem scan_opening {chars : List Char} (opening : ['$', '{'] <:+: chars) {piece : List Char}
    {position : Nat} {segments : List Segment}
    (h : scanPlaceholders reprStr (.literal piece) position chars = .ok segments) :
    ∃ found, Segment.placeholder found ∈ segments := by
  induction chars generalizing piece position with
  | nil => simp at opening
  | cons c rest ih =>
      by_cases here : ['$', '{'] <+: c :: rest
      · obtain ⟨tail, htail⟩ := here
        obtain ⟨rfl, rfl⟩ : '$' = c ∧ '{' :: tail = rest := by simpa using htail
        rw [scanPlaceholders.eq_2] at h
        obtain ⟨later, hlater, h⟩ := exists_of_bind_eq_ok h
        cases h
        obtain ⟨found, hfound⟩ := scan_name reprStr hlater
        exact ⟨found, mem_emit hfound⟩
      · rw [scan_literal_cons reprStr here] at h
        rw [List.infix_cons_iff, or_iff_right here] at opening
        exact ih opening h

theorem placeholdersOf_plain {s : String} (plain : ¬ Opens s) :
    placeholdersOf reprStr s = .ok (Segment.emit s.toList.reverse []) := by
  rw [placeholdersOf, parsePlaceholders, scan_plain reprStr plain, List.append_nil]

theorem placeholder_of_opens {s : String} (opening : Opens s) {segments : List Segment}
    (h : placeholdersOf reprStr s = .ok segments) :
    ∃ name, Segment.placeholder name ∈ segments := by
  rw [placeholdersOf, parsePlaceholders] at h
  split at h
  · next scanned =>
      cases h
      exact scan_opening reprStr opening scanned
  · cases h

theorem interpolateString_plain {s : String} (plain : ¬ Opens s) (params : JsonObject) :
    interpolateString reprStr s params = .ok (.str s) := by
  rw [interpolateString, placeholdersOf_plain reprStr plain, Segment.emit]
  by_cases empty : s.toList.reverse = []
  · have hs : s = "" := by
      apply String.toList_injective
      simpa using empty
    rw [hs]
    rfl
  · rw [if_neg empty]
    simp [printSegments, bind, Except.bind, pure, Except.pure]

/-! ## Plain values -/

/-- No string within the value opens a placeholder. -/
def Plain (v : JsonValue) : Prop :=
  ∀ s ∈ v.strings, ¬ Opens s

theorem interpolateItems_ok {params : JsonObject} {items : List JsonValue}
    (h : ∀ v ∈ items, interpolateParams reprStr params v = .ok v) :
    interpolateItems reprStr params items = .ok items := by
  induction items with
  | nil => rfl
  | cons v rest ih =>
      rw [interpolateItems, h v (by simp), ih fun w hw => h w (by simp [hw])]
      rfl

theorem interpolateFields_ok {params : JsonObject} {fields : JsonObject}
    (f : String × JsonValue → JsonValue)
    (h : ∀ e ∈ fields, interpolateParams reprStr params e.2 = .ok (f e)) :
    interpolateFields reprStr params fields = .ok (fields.map fun e => (e.1, f e)) := by
  induction fields with
  | nil => rfl
  | cons e rest ih =>
      obtain ⟨key, v⟩ := e
      rw [interpolateFields, h (key, v) (by simp), ih fun w hw => h w (by simp [hw])]
      rfl

/-- Interpolation leaves a plain value alone. -/
theorem interpolateParams_plain {v : JsonValue} (plain : Plain v) (params : JsonObject) :
    interpolateParams reprStr params v = .ok v := by
  induction v with
  | str s =>
      rw [interpolateParams]
      exact interpolateString_plain reprStr (plain s (by simp [strings])) params
  | arr items ih =>
      rw [interpolateParams, interpolateItems_ok reprStr fun v hv =>
        ih v hv fun s hs => plain s (mem_strings_arr.mpr ⟨v, hv, hs⟩)]
      rfl
  | obj fields ih =>
      have kept := interpolateFields_ok reprStr Prod.snd fun e he =>
        ih e he fun s hs => plain s (mem_strings_obj.mpr ⟨e, he, hs⟩)
      rw [interpolateParams, kept]
      simp [bind, Except.bind, pure, Except.pure]
  | _ => rw [interpolateParams]

theorem unresolvedString_iff (s : String) :
    findUnresolvedPlaceholders reprStr (.str s) = .ok [] ↔ ¬ Opens s := by
  rw [findUnresolvedPlaceholders]
  constructor
  · intro h opening
    obtain ⟨segments, parsed, h⟩ := exists_of_bind_eq_ok h
    obtain ⟨name, hname⟩ := placeholder_of_opens reprStr opening parsed
    have none_ := congrArg Except.toOption h
    simp only [pure, Except.pure, Except.toOption, Option.some.injEq] at none_
    rw [List.filterMap_eq_nil_iff] at none_
    simpa using none_ _ hname
  · intro plain
    rw [placeholdersOf_plain reprStr plain, Segment.emit]
    split <;> rfl

theorem append_ok_iff {x y : Except EngineException (List String)} :
    (do let found ← x; return found ++ (← y)) = Except.ok [] ↔ x = .ok [] ∧ y = .ok [] := by
  cases x with
  | error e => simp [bind, Except.bind]
  | ok a => cases y <;> simp [bind, Except.bind, pure, Except.pure]

/-- Nothing is left unresolved exactly in a plain value. -/
theorem unresolved_iff (v : JsonValue) :
    findUnresolvedPlaceholders reprStr v = .ok [] ↔ Plain v := by
  induction v with
  | str s =>
      rw [unresolvedString_iff]
      simp [Plain, strings]
  | arr items ih =>
      have all : findUnresolvedItems reprStr items = .ok [] ↔ ∀ v ∈ items, Plain v := by
        induction items with
        | nil => simp [findUnresolvedItems]
        | cons v rest inner =>
            rw [findUnresolvedItems, append_ok_iff, ih v (by simp),
              inner fun w hw => ih w (by simp [hw])]
            simp
      rw [findUnresolvedPlaceholders, all]
      constructor
      · intro h s hs
        obtain ⟨v, hv, hs⟩ := mem_strings_arr.mp hs
        exact h v hv s hs
      · intro h v hv s hs
        exact h s (mem_strings_arr.mpr ⟨v, hv, hs⟩)
  | obj fields ih =>
      have all : findUnresolvedFields reprStr fields = .ok [] ↔ ∀ e ∈ fields, Plain e.2 := by
        induction fields with
        | nil => simp [findUnresolvedFields]
        | cons e rest inner =>
            obtain ⟨key, v⟩ := e
            rw [findUnresolvedFields, append_ok_iff, ih (key, v) (by simp),
              inner fun w hw => ih w (by simp [hw])]
            simp
      rw [findUnresolvedPlaceholders, all]
      constructor
      · intro h s hs
        obtain ⟨e, he, hs⟩ := mem_strings_obj.mp hs
        exact h e he s hs
      · intro h e he s hs
        exact h s (mem_strings_obj.mpr ⟨e, he, hs⟩)
  | _ => simp [findUnresolvedPlaceholders, Plain, strings]

/-! ## Completed texts -/

/-- The printed value of a name, if there is one. -/
def printedValue (params : JsonObject) (name : String) : String :=
  match params.lookup name with
  | some v => pyStr reprStr v
  | none => ""

/-- The text of a string with its placeholders printed. -/
def printed (params : JsonObject) : List Segment → String
  | [] => ""
  | .text piece :: rest => piece ++ printed params rest
  | .placeholder name :: rest => printedValue reprStr params name ++ printed params rest

theorem printSegments_iff {params : JsonObject} {segments : List Segment} {text : String} :
    printSegments reprStr params segments = .ok text ↔
      (∀ name, Segment.placeholder name ∈ segments → name ∈ keys params) ∧
        text = printed reprStr params segments := by
  induction segments generalizing text with
  | nil => simp [printSegments, printed, eq_comm]
  | cons segment rest ih =>
      cases segment with
      | text piece =>
          rw [printSegments, printed]
          constructor
          · intro h
            obtain ⟨later, hlater, h⟩ := exists_of_bind_eq_ok h
            cases h
            obtain ⟨present, rfl⟩ := ih.mp hlater
            exact ⟨fun name hname => present name (by simpa using hname), rfl⟩
          · rintro ⟨present, rfl⟩
            rw [ih.mpr ⟨fun name hname => present name (by simp [hname]), rfl⟩]
            rfl
      | placeholder name =>
          rw [printSegments, printed, paramValue, printedValue]
          constructor
          · intro h
            obtain ⟨v, hv, h⟩ := exists_of_bind_eq_ok h
            obtain ⟨later, hlater, h⟩ := exists_of_bind_eq_ok h
            obtain ⟨present, rfl⟩ := ih.mp hlater
            cases hlookup : params.lookup name with
            | none =>
                rw [hlookup] at hv
                cases hv
            | some w =>
                rw [hlookup] at hv
                cases hv
                cases h
                refine ⟨fun other hother => ?_, rfl⟩
                rcases List.mem_cons.mp hother with same | later
                · cases same
                  exact mem_keys_iff_isSome_lookup.mpr (by simp [hlookup])
                · exact present other later
          · rintro ⟨present, rfl⟩
            have hname := mem_keys_iff_isSome_lookup.mp (present name (by simp))
            obtain ⟨v, hv⟩ := Option.isSome_iff_exists.mp hname
            rw [hv, ih.mpr ⟨fun other hother => present other (by simp [hother]), rfl⟩]
            rfl

/-- What a string of the definition becomes. -/
def completed (params : JsonObject) : List Segment → JsonValue
  | [.placeholder name] => (params.lookup name).getD .null
  | segments => .str (printed reprStr params segments)

theorem interpolateString_iff {params : JsonObject} {s : String} {v : JsonValue} :
    interpolateString reprStr s params = .ok v ↔ ∃ segments,
      placeholdersOf reprStr s = .ok segments ∧
        (∀ name, Segment.placeholder name ∈ segments → name ∈ keys params) ∧
          v = completed reprStr params segments := by
  rw [interpolateString]
  cases parsed : placeholdersOf reprStr s with
  | error e => simp [bind, Except.bind]
  | ok segments =>
      simp only [bind, Except.bind, Except.ok.injEq, exists_eq_left']
      split
      · next name =>
          rw [paramValue, completed]
          cases hlookup : params.lookup name with
          | none =>
              constructor
              · intro h
                cases h
              · rintro ⟨present, -⟩
                have found := mem_keys_iff_isSome_lookup.mp (present name List.mem_cons_self)
                rw [hlookup] at found
                cases found
          | some w =>
              have found : name ∈ keys params :=
                mem_keys_iff_isSome_lookup.mpr (by rw [hlookup]; rfl)
              constructor
              · intro h
                cases h
                refine ⟨fun other hother => ?_, rfl⟩
                cases List.mem_singleton.mp hother
                exact found
              · rintro ⟨-, rfl⟩
                rfl
      · next single =>
          have hcompleted : completed reprStr params segments =
              .str (printed reprStr params segments) := by
            rw [completed.eq_2]
            exact single
          rw [hcompleted]
          constructor
          · intro h
            obtain ⟨text, htext, h⟩ := exists_of_bind_eq_ok h
            cases h
            obtain ⟨present, rfl⟩ := (printSegments_iff reprStr).mp htext
            exact ⟨present, rfl⟩
          · rintro ⟨present, rfl⟩
            rw [(printSegments_iff reprStr).mpr ⟨present, rfl⟩]
            rfl

end Scanning

/-! ## Bounds -/

/-- A value that interpolates to one within the bounds is within the bounds. -/
theorem fits_of_interpolated {reprStr : String → String} {params : JsonObject} {maxItems : Nat}
    {v w : JsonValue} {depth : Nat} (h : interpolateParams reprStr params v = .ok w)
    (bounded : fits maxItems w depth = true) : fits maxItems v depth = true := by
  induction v generalizing w depth with
  | str s =>
      rw [fits, decide_eq_true_iff]
      cases w <;> simp [fits] at bounded <;> omega
  | arr items ih =>
      rw [interpolateParams] at h
      obtain ⟨out, hout, same⟩ := exists_of_bind_eq_ok h
      cases same
      clear h
      have all : fitsItems maxItems out depth = true → fitsItems maxItems items depth = true ∧
          items.length = out.length := by
        clear bounded
        induction items generalizing out with
        | nil =>
            cases hout
            exact fun _ => ⟨rfl, rfl⟩
        | cons v rest inner =>
            rw [interpolateItems] at hout
            obtain ⟨item, hitem, hout⟩ := exists_of_bind_eq_ok hout
            obtain ⟨later, hlater, hout⟩ := exists_of_bind_eq_ok hout
            cases hout
            intro bounded
            rw [fitsItems, Bool.and_eq_true] at bounded
            obtain ⟨tail, same⟩ := inner (fun u hu => ih u (by simp [hu])) later hlater bounded.2
            rw [fitsItems, ih v (by simp) hitem bounded.1, tail, List.length_cons, same]
            exact ⟨rfl, rfl⟩
      rw [fits, Bool.and_eq_true, Bool.and_eq_true] at bounded
      obtain ⟨inside, same⟩ := all bounded.2
      rw [fits, same, inside, bounded.1.1, bounded.1.2]
      rfl
  | obj fields ih =>
      rw [interpolateParams] at h
      obtain ⟨out, hout, same⟩ := exists_of_bind_eq_ok h
      cases same
      clear h
      have all : fitsFields maxItems out depth = true → fitsFields maxItems fields depth = true ∧
          fields.length = out.length := by
        clear bounded
        induction fields generalizing out with
        | nil =>
            cases hout
            exact fun _ => ⟨rfl, rfl⟩
        | cons e rest inner =>
            obtain ⟨key, v⟩ := e
            rw [interpolateFields] at hout
            obtain ⟨item, hitem, hout⟩ := exists_of_bind_eq_ok hout
            obtain ⟨later, hlater, hout⟩ := exists_of_bind_eq_ok hout
            cases hout
            intro bounded
            rw [fitsFields, Bool.and_eq_true] at bounded
            obtain ⟨tail, same⟩ := inner (fun u hu => ih u (by simp [hu])) later hlater bounded.2
            rw [fitsFields, ih (key, v) (by simp) hitem bounded.1, tail, List.length_cons, same]
            exact ⟨rfl, rfl⟩
      rw [fits, Bool.and_eq_true, Bool.and_eq_true] at bounded
      obtain ⟨inside, same⟩ := all bounded.2
      rw [fits, same, inside, bounded.1.1, bounded.1.2]
      rfl
  | _ =>
      rw [interpolateParams] at h
      cases h
      exact bounded

/-- The bounds do not see strings. -/
theorem fits_blank (maxItems : Nat) (v : JsonValue) (depth : Nat) :
    fits maxItems v.blank depth = fits maxItems v depth := by
  induction v generalizing depth with
  | null | bool | int | float | str => rfl
  | arr items ih =>
      rw [blank, blankItems_eq_map, fits, fits, List.length_map, fitsItems_eq_all,
        fitsItems_eq_all, List.all_map]
      congr 1
      exact all_congr_of_mem fun v hv => ih v hv (depth + 1)
  | obj fields ih =>
      rw [blank, blankFields_eq_map, fits, fits, List.length_map, fitsFields_eq_all,
        fitsFields_eq_all, List.all_map]
      congr 1
      exact all_congr_of_mem fun e he => ih e he (depth + 1)

theorem normalizeJsonObject_iff {maxItems : Nat} {fields out : JsonObject} (path : String) :
    normalizeJsonObject maxItems fields path = .ok out ↔
      fits maxItems (.obj fields) 0 = true ∧ out = fields := by
  rw [normalizeJsonObject]
  cases hfits : fits maxItems (.obj fields) 0 with
  | false =>
      obtain ⟨e, he⟩ := normalizeJsonValue_of_not_fits hfits path
      simp [he, bind, Except.bind]
  | true =>
      rw [normalizeJsonValue_of_fits hfits]
      simp [bind, Except.bind, pure, Except.pure, eq_comm]

/-! ## Parameters of a run -/

theorem Plain.of_lookup {params : JsonObject} (plain : Plain (.obj params)) {key : String}
    {v : JsonValue} (h : params.lookup key = some v) : Plain v :=
  fun s hs => plain s (mem_strings_obj.mpr ⟨(key, v), mem_lookup h, hs⟩)

section Parameters

variable (runner : FlowRunner σ) (requestId : String) (globals : JsonObject)

/-- The parameters of a run before placeholders are completed. -/
def FlowRunner.mergedParams : JsonObject :=
  Fields.set "request_id" (.str requestId) (Fields.update
    (runner.config.params.map fun e => (e.1, JsonValue.str e.2)) globals)

/-- What is supplied for a key from outside the workflow definition. -/
def supplied (key : String) : Option JsonValue :=
  if key = "request_id" then some (.str requestId) else globals.lookup key

/-- The string of the definition that a key keeps. -/
def FlowRunner.template (key : String) : Option String :=
  if (supplied requestId globals key).isSome then none else runner.config.params.lookup key

/-- The definition's own strings resolve: each of them is well formed and names parameters only,
none of which is a string of the definition with a placeholder, and sizes are within bounds. -/
structure FlowRunner.Resolvable : Prop where
  templates : ∀ key text, runner.template requestId globals key = some text → ∃ segments,
    placeholdersOf runner.platform.reprStr text = .ok segments ∧
      ∀ name, Segment.placeholder name ∈ segments →
        name ∈ keys (runner.mergedParams requestId globals) ∧
          ∀ other, runner.template requestId globals name = some other → ¬ Opens other
  bounded :
    fits runner.limits.collectionItems (.obj (runner.mergedParams requestId globals)) 0 = true

/-- No supplied string opens a placeholder, alone or printed within a string of the definition. -/
structure FlowRunner.Inert : Prop where
  supplied : ∀ key v, supplied requestId globals key = some v → Plain v
  printed : ∀ key text segments, runner.template requestId globals key = some text →
    placeholdersOf runner.platform.reprStr text = .ok segments →
      (∀ name, segments ≠ [.placeholder name]) →
        ¬ Opens (printed runner.platform.reprStr (runner.mergedParams requestId globals) segments)

/-- Supplied values are data: whether there are parameters is a matter of the definition, a
supplied value is carried unchanged into them and from there into a step, and only strings of
the definition are completed. -/
structure FlowRunner.CarriesSupplied : Prop where
  built : (∃ params, runner.buildParams requestId globals = .ok params) ↔
    runner.Resolvable requestId globals
  carried : ∀ params, runner.buildParams requestId globals = .ok params →
    ∀ key v, supplied requestId globals key = some v → params.lookup key = some v
  placed : ∀ params, runner.buildParams requestId globals = .ok params →
    ∀ key v, supplied requestId globals key = some v → ∀ text,
      placeholdersOf runner.platform.reprStr text = .ok [.placeholder key] →
        interpolateParams runner.platform.reprStr params (.str text) = .ok v
  filled : ∀ params, runner.buildParams requestId globals = .ok params →
    ∀ key text, runner.template requestId globals key = some text → ∃ segments,
      placeholdersOf runner.platform.reprStr text = .ok segments ∧ params.lookup key =
        some (completed runner.platform.reprStr (runner.mergedParams requestId globals) segments)

/-- The names whose values a parameter shows: its own, or those in its string. -/
def FlowRunner.Shows (key name : String) : Prop :=
  name = key ∨ ∃ text segments, runner.template requestId globals key = some text ∧
    placeholdersOf runner.platform.reprStr text = .ok segments ∧
      Segment.placeholder name ∈ segments

/-- Two runs with triggers that differ inside strings differ there only. -/
structure FlowRunner.TriggersAreData (otherId : String) (others : JsonObject) : Prop where
  first : runner.CarriesSupplied requestId globals
  second : runner.CarriesSupplied otherId others
  together : (∃ params, runner.buildParams requestId globals = .ok params) ↔
    ∃ params, runner.buildParams otherId others = .ok params
  differences : ∀ params later, runner.buildParams requestId globals = .ok params →
    runner.buildParams otherId others = .ok later →
      (∀ key, (params.lookup key).map blank = (later.lookup key).map blank) ∧
        ∀ key, (∀ name, runner.Shows requestId globals key name →
          supplied requestId globals name = supplied otherId others name) →
            params.lookup key = later.lookup key

variable {runner : FlowRunner σ} {requestId : String} {globals : JsonObject}

theorem lookup_mergedParams (distinct : (keys globals).Nodup) (key : String) :
    (runner.mergedParams requestId globals).lookup key =
      (supplied requestId globals key).or ((runner.config.params.lookup key).map .str) := by
  rw [FlowRunner.mergedParams, lookup_set, lookup_update_of_nodup distinct, supplied, lookup_map_value]
  split <;> rfl

theorem lookup_merged_supplied (distinct : (keys globals).Nodup) {key : String} {v : JsonValue}
    (h : supplied requestId globals key = some v) :
    (runner.mergedParams requestId globals).lookup key = some v := by
  rw [lookup_mergedParams distinct, h]
  rfl

theorem template_eq_some {key text : String} :
    runner.template requestId globals key = some text ↔
      supplied requestId globals key = none ∧ runner.config.params.lookup key = some text := by
  rw [FlowRunner.template]
  cases supplied requestId globals key <;> simp

theorem lookup_merged_template (distinct : (keys globals).Nodup) {key text : String}
    (h : runner.template requestId globals key = some text) :
    (runner.mergedParams requestId globals).lookup key = some (.str text) := by
  obtain ⟨none_, declared⟩ := template_eq_some.mp h
  rw [lookup_mergedParams distinct, none_, declared]
  rfl

/-- A parameter is supplied or is a string of the definition. -/
theorem merged_origin (distinct : (keys globals).Nodup) {key : String} {v : JsonValue}
    (h : (runner.mergedParams requestId globals).lookup key = some v) :
    supplied requestId globals key = some v ∨
      ∃ text, runner.template requestId globals key = some text ∧ v = .str text := by
  rw [lookup_mergedParams distinct] at h
  cases hsupplied : supplied requestId globals key with
  | some w =>
      rw [hsupplied] at h
      exact .inl h
  | none =>
      rw [hsupplied, Option.none_or, Option.map_eq_some_iff] at h
      obtain ⟨text, htext, rfl⟩ := h
      exact .inr ⟨text, template_eq_some.mpr ⟨hsupplied, htext⟩, rfl⟩

theorem nodup_mergedParams (declared : (keys runner.config.params).Nodup) (requestId : String)
    (globals : JsonObject) : (keys (runner.mergedParams requestId globals)).Nodup := by
  refine nodup_set (nodup_update ?_)
  rwa [keys, List.map_map]

theorem buildParams_iff {params : JsonObject} :
    runner.buildParams requestId globals = .ok params ↔
      interpolateFields runner.platform.reprStr (runner.mergedParams requestId globals)
          (runner.mergedParams requestId globals) = .ok params ∧
        fits runner.limits.collectionItems (.obj params) 0 = true ∧ Plain (.obj params) := by
  constructor
  · intro h
    rw [FlowRunner.buildParams] at h
    obtain ⟨interpolated, hinterpolated, normalizing⟩ := exists_of_bind_eq_ok h
    obtain ⟨normalized, hnormalized, resolving⟩ := exists_of_bind_eq_ok normalizing
    obtain ⟨unresolved, hunresolved, checked⟩ := exists_of_bind_eq_ok resolving
    obtain ⟨bounded, rfl⟩ := (normalizeJsonObject_iff _).mp hnormalized
    split at checked
    · next empty =>
        subst empty
        cases checked
        exact ⟨hinterpolated, bounded, (unresolved_iff _ _).mp hunresolved⟩
    · cases checked
  · rintro ⟨hinterpolated, bounded, plain⟩
    have normalized := (normalizeJsonObject_iff "workflow.params").mpr ⟨bounded, rfl⟩
    have resolved := (unresolved_iff runner.platform.reprStr _).mpr plain
    rw [FlowRunner.mergedParams] at hinterpolated
    rw [FlowRunner.buildParams]
    simp only [hinterpolated, bind, Except.bind, normalized, resolved, if_true]

theorem interpolated_lookup {reprStr : String → String} {params fields out : JsonObject}
    (h : interpolateFields reprStr params fields = .ok out) {key : String} {v : JsonValue}
    (found : fields.lookup key = some v) :
    ∃ w, interpolateParams reprStr params v = .ok w ∧ out.lookup key = some w := by
  induction fields generalizing out with
  | nil => cases found
  | cons e rest ih =>
      obtain ⟨k, u⟩ := e
      rw [interpolateFields] at h
      obtain ⟨item, hitem, h⟩ := exists_of_bind_eq_ok h
      obtain ⟨items, hitems, h⟩ := exists_of_bind_eq_ok h
      cases h
      rw [List.lookup_cons] at found
      rw [List.lookup_cons]
      cases same : key == k with
      | true =>
          rw [same] at found
          cases found
          exact ⟨item, hitem, rfl⟩
      | false =>
          rw [same] at found
          exact ih hitems found

/-- Whatever the trigger, a string of the definition is completed in the built parameters. -/
theorem filled_of_built (distinct : (keys globals).Nodup) {params : JsonObject}
    (h : runner.buildParams requestId globals = .ok params) {key text : String}
    (htext : runner.template requestId globals key = some text) : ∃ segments,
      placeholdersOf runner.platform.reprStr text = .ok segments ∧
        (∀ name, Segment.placeholder name ∈ segments →
          name ∈ keys (runner.mergedParams requestId globals)) ∧ params.lookup key =
            some (completed runner.platform.reprStr (runner.mergedParams requestId globals)
              segments) := by
  obtain ⟨w, hw, found⟩ := interpolated_lookup (buildParams_iff.mp h).1
    (lookup_merged_template distinct htext)
  rw [interpolateParams] at hw
  obtain ⟨segments, parsed, present, rfl⟩ := (interpolateString_iff _).mp hw
  exact ⟨segments, parsed, present, found⟩

theorem infix_printed (reprStr : String → String) (params : JsonObject) {name : String}
    {segments : List Segment} (h : Segment.placeholder name ∈ segments) :
    (printedValue reprStr params name).toList <:+: (printed reprStr params segments).toList := by
  induction segments with
  | nil => cases h
  | cons segment rest ih =>
      rcases List.mem_cons.mp h with rfl | later
      · rw [printed, String.toList_append]
        exact (List.prefix_append _ _).isInfix
      · cases segment with
        | text piece =>
            rw [printed, String.toList_append]
            exact (ih later).trans (List.suffix_append _ _).isInfix
        | placeholder other =>
            rw [printed, String.toList_append]
            exact (ih later).trans (List.suffix_append _ _).isInfix

theorem plain_str {s : String} : Plain (.str s) ↔ ¬ Opens s := by
  simp [Plain, strings]

theorem completed_of_not_single {reprStr : String → String} {params : JsonObject}
    {segments : List Segment} (several : ∀ name, segments ≠ [.placeholder name]) :
    completed reprStr params segments = .str (printed reprStr params segments) := by
  rw [completed.eq_2]
  exact several

/-- Parameters are only built where the definition's own strings resolve. -/
theorem resolvable_of_built (distinct : (keys globals).Nodup) {params : JsonObject}
    (h : runner.buildParams requestId globals = .ok params) :
    runner.Resolvable requestId globals := by
  obtain ⟨interpolated, bounded, plain⟩ := buildParams_iff.mp h
  refine ⟨fun key text htext => ?_, ?_⟩
  · obtain ⟨segments, parsed, present, found⟩ := filled_of_built distinct h htext
    refine ⟨segments, parsed, fun name hname => ⟨present name hname, fun other hother => ?_⟩⟩
    have named := lookup_merged_template distinct hother
    have shown := plain.of_lookup found
    by_cases single : ∃ only, segments = [.placeholder only]
    · obtain ⟨only, rfl⟩ := single
      cases List.mem_singleton.mp hname
      rw [completed, named] at shown
      exact plain_str.mp shown
    · rw [completed_of_not_single fun only same => single ⟨only, same⟩] at shown
      intro opening
      have printedHere := infix_printed runner.platform.reprStr
        (runner.mergedParams requestId globals) hname
      rw [printedValue, named] at printedHere
      exact plain_str.mp shown (opening.trans printedHere)
  · have whole : interpolateParams runner.platform.reprStr (runner.mergedParams requestId globals)
        (.obj (runner.mergedParams requestId globals)) = .ok (.obj params) := by
      rw [interpolateParams, interpolated]
      rfl
    exact fits_of_interpolated whole bounded

/-- Where the definition resolves and nothing supplied opens a placeholder, parameters are
built. -/
theorem built_of_inert (declared : (keys runner.config.params).Nodup)
    (distinct : (keys globals).Nodup) (resolvable : runner.Resolvable requestId globals)
    (inert : runner.Inert requestId globals) :
    ∃ params, runner.buildParams requestId globals = .ok params := by
  let reprStr := runner.platform.reprStr
  let merged := runner.mergedParams requestId globals
  have shown : ∀ key v, merged.lookup key = some v → ∃ w,
      interpolateParams reprStr merged v = .ok w ∧ Plain w ∧
        (fits runner.limits.collectionItems v 1 = true →
          (∀ name u, merged.lookup name = some u →
            fits runner.limits.collectionItems u 1 = true) →
              fits runner.limits.collectionItems w 1 = true) := by
    intro key v found
    rcases merged_origin distinct found with hsupplied | ⟨text, htext, rfl⟩
    · have plain := inert.supplied key v hsupplied
      exact ⟨v, interpolateParams_plain reprStr plain merged, plain, fun h _ => h⟩
    · obtain ⟨segments, parsed, names⟩ := resolvable.templates key text htext
      refine ⟨completed reprStr merged segments, ?_, ?_, ?_⟩
      · rw [interpolateParams]
        exact (interpolateString_iff _).mpr
          ⟨segments, parsed, fun name hname => (names name hname).1, rfl⟩
      · by_cases single : ∃ only, segments = [.placeholder only]
        · obtain ⟨only, rfl⟩ := single
          obtain ⟨present, fixed⟩ := names only List.mem_cons_self
          obtain ⟨u, hu⟩ := Option.isSome_iff_exists.mp (mem_keys_iff_isSome_lookup.mp present)
          have value : completed reprStr merged [.placeholder only] = u := by
            rw [completed, hu]
            rfl
          rw [value]
          rcases merged_origin distinct hu with hsupplied | ⟨other, hother, rfl⟩
          · exact inert.supplied only u hsupplied
          · exact plain_str.mpr (fixed other hother)
        · have several : ∀ name, segments ≠ [.placeholder name] :=
            fun only same => single ⟨only, same⟩
          rw [completed_of_not_single several]
          exact plain_str.mpr (inert.printed key text segments htext parsed several)
      · intro _ all
        by_cases single : ∃ only, segments = [.placeholder only]
        · obtain ⟨only, rfl⟩ := single
          obtain ⟨present, -⟩ := names only List.mem_cons_self
          obtain ⟨u, hu⟩ := Option.isSome_iff_exists.mp (mem_keys_iff_isSome_lookup.mp present)
          rw [completed, hu]
          exact all only u hu
        · rw [completed_of_not_single fun only same => single ⟨only, same⟩]
          rfl
  have nodup := nodup_mergedParams declared requestId globals
  have each : ∀ e ∈ merged, ∃ w, interpolateParams reprStr merged e.2 = .ok w ∧ Plain w ∧
      (fits runner.limits.collectionItems e.2 1 = true →
          (∀ name u, merged.lookup name = some u →
            fits runner.limits.collectionItems u 1 = true) →
              fits runner.limits.collectionItems w 1 = true) :=
    fun e he => shown e.1 e.2 (lookup_of_mem nodup he)
  choose! f hf using each
  refine ⟨merged.map fun e => (e.1, f e), buildParams_iff.mpr
    ⟨interpolateFields_ok reprStr f fun e he => (hf e he).1, ?_, ?_⟩⟩
  · have bounded := resolvable.bounded
    rw [fits, Bool.and_eq_true, Bool.and_eq_true, fitsFields_eq_all, List.all_eq_true] at bounded
    have all : ∀ name u, merged.lookup name = some u →
        fits runner.limits.collectionItems u 1 = true :=
      fun name u hu => bounded.2 (name, u) (mem_lookup hu)
    rw [fits, List.length_map, fitsFields_eq_all, Bool.and_eq_true, Bool.and_eq_true,
      List.all_eq_true]
    refine ⟨bounded.1, fun e he => ?_⟩
    obtain ⟨e, here, rfl⟩ := List.mem_map.mp he
    exact (hf e here).2.2 (bounded.2 e here) all
  · intro s hs
    obtain ⟨e, he, hs⟩ := mem_strings_obj.mp hs
    obtain ⟨e, here, rfl⟩ := List.mem_map.mp he
    exact (hf e here).2.1 s hs

/-- Supplied values are data exactly if, where the definition resolves, none of their strings
opens a placeholder. -/
theorem carriesSupplied_iff (requestId : String)
    (declared : (keys runner.config.params).Nodup) (distinct : (keys globals).Nodup) :
    runner.CarriesSupplied requestId globals ↔
      (runner.Resolvable requestId globals → runner.Inert requestId globals) := by
  constructor
  · intro carries resolvable
    obtain ⟨params, h⟩ := carries.built.mpr resolvable
    obtain ⟨-, -, plain⟩ := buildParams_iff.mp h
    refine ⟨fun key v hv => plain.of_lookup (carries.carried params h key v hv), ?_⟩
    intro key text segments htext parsed several
    obtain ⟨found, parsed', -, value⟩ := filled_of_built distinct h htext
    rw [parsed] at parsed'
    cases parsed'
    have shown := plain.of_lookup value
    rw [completed_of_not_single several] at shown
    exact plain_str.mp shown
  · intro inert
    have carried : ∀ params, runner.buildParams requestId globals = .ok params →
        ∀ key v, supplied requestId globals key = some v → params.lookup key = some v := by
      intro params h key v hv
      have plain := (inert (resolvable_of_built distinct h)).supplied key v hv
      obtain ⟨w, hw, found⟩ := interpolated_lookup (buildParams_iff.mp h).1
        (lookup_merged_supplied distinct hv)
      rw [interpolateParams_plain _ plain] at hw
      cases hw
      exact found
    refine ⟨⟨fun ⟨params, h⟩ => resolvable_of_built distinct h,
      fun resolvable => built_of_inert declared distinct resolvable (inert resolvable)⟩,
      carried, ?_, ?_⟩
    · intro params h key v hv text parsed
      have found := carried params h key v hv
      rw [interpolateParams, interpolateString_iff]
      refine ⟨_, parsed, fun name hname => ?_, ?_⟩
      · cases List.mem_singleton.mp hname
        exact mem_keys_iff_isSome_lookup.mpr (by rw [found]; rfl)
      · rw [completed, found]
        rfl
    · intro params h key text htext
      obtain ⟨segments, parsed, -, value⟩ := filled_of_built distinct h htext
      exact ⟨segments, parsed, value⟩

/-! ## Two runs -/

theorem blankFields_set (key : String) (v : JsonValue) (l : JsonObject) :
    blankFields (Fields.set key v l) = Fields.set key v.blank (blankFields l) := by
  induction l with
  | nil => rfl
  | cons e rest ih =>
      obtain ⟨k, u⟩ := e
      by_cases same : k = key
      · simp [Fields.set, same, blankFields]
      · simp [Fields.set, same, blankFields, ih]

theorem blankFields_update (l m : JsonObject) :
    blankFields (update l m) = update (blankFields l) (blankFields m) := by
  induction m generalizing l with
  | nil => rfl
  | cons e rest ih =>
      have step := ih (Fields.set e.1 e.2 l)
      rw [blankFields_set] at step
      exact step

theorem lookup_blankFields (key : String) (l : JsonObject) :
    (blankFields l).lookup key = (l.lookup key).map blank := by
  rw [blankFields_eq_map, lookup_map_value]

theorem keys_blankFields (l : JsonObject) : keys (blankFields l) = keys l := by
  rw [blankFields_eq_map, keys, List.map_map]
  rfl

section Pairs

variable {others : JsonObject}

theorem supplied_blank (same : blankFields globals = blankFields others)
    (requestId otherId key : String) :
    (supplied requestId globals key).map blank = (supplied otherId others key).map blank := by
  rw [supplied, supplied]
  split
  · rfl
  · rw [← lookup_blankFields, same, lookup_blankFields]

theorem supplied_isSome (same : blankFields globals = blankFields others)
    (requestId otherId key : String) :
    (supplied requestId globals key).isSome = (supplied otherId others key).isSome := by
  have blanked := congrArg Option.isSome (supplied_blank same requestId otherId key)
  simpa using blanked

theorem template_congr (same : blankFields globals = blankFields others)
    (requestId otherId key : String) :
    runner.template requestId globals key = runner.template otherId others key := by
  rw [FlowRunner.template, FlowRunner.template, supplied_isSome same requestId otherId]

theorem blank_mergedParams (same : blankFields globals = blankFields others)
    (requestId otherId : String) :
    blankFields (runner.mergedParams requestId globals) =
      blankFields (runner.mergedParams otherId others) := by
  rw [FlowRunner.mergedParams, FlowRunner.mergedParams, blankFields_set, blankFields_set,
    blankFields_update, blankFields_update, same]
  rfl

theorem FlowRunner.Resolvable.congr (same : blankFields globals = blankFields others)
    {otherId : String} (resolvable : runner.Resolvable requestId globals) :
    runner.Resolvable otherId others := by
  have blanked : blankFields (runner.mergedParams requestId globals) =
      blankFields (runner.mergedParams otherId others) := blank_mergedParams same _ _
  refine ⟨fun key text htext => ?_, ?_⟩
  · rw [← template_congr same requestId otherId] at htext
    obtain ⟨segments, parsed, names⟩ := resolvable.templates key text htext
    refine ⟨segments, parsed, fun name hname => ⟨?_, fun other hother => ?_⟩⟩
    · rw [← keys_blankFields, ← blanked, keys_blankFields]
      exact (names name hname).1
    · rw [← template_congr same requestId otherId] at hother
      exact (names name hname).2 other hother
  · have bounded := resolvable.bounded
    rw [← fits_blank, blank, blanked] at bounded
    rw [← fits_blank, blank]
    exact bounded

theorem lookup_merged_of_supplied (distinct : (keys globals).Nodup)
    (distinct' : (keys others).Nodup) {otherId name : String}
    (h : supplied requestId globals name = supplied otherId others name) :
    (runner.mergedParams requestId globals).lookup name =
      (runner.mergedParams otherId others).lookup name := by
  rw [lookup_mergedParams distinct, lookup_mergedParams distinct', h]

theorem printed_congr {reprStr : String → String} {params later : JsonObject}
    {segments : List Segment}
    (h : ∀ name, Segment.placeholder name ∈ segments → params.lookup name = later.lookup name) :
    printed reprStr params segments = printed reprStr later segments := by
  induction segments with
  | nil => rfl
  | cons segment rest ih =>
      have tail := ih fun name hname => h name (List.mem_cons_of_mem _ hname)
      cases segment with
      | text piece => rw [printed, printed, tail]
      | placeholder name =>
          rw [printed, printed, tail, printedValue, printedValue, h name List.mem_cons_self]

theorem completed_congr {reprStr : String → String} {params later : JsonObject}
    {segments : List Segment}
    (h : ∀ name, Segment.placeholder name ∈ segments → params.lookup name = later.lookup name) :
    completed reprStr params segments = completed reprStr later segments := by
  by_cases single : ∃ only, segments = [.placeholder only]
  · obtain ⟨only, rfl⟩ := single
    rw [completed, completed, h only List.mem_cons_self]
  · have several : ∀ name, segments ≠ [.placeholder name] :=
      fun only same => single ⟨only, same⟩
    rw [completed_of_not_single several, completed_of_not_single several, printed_congr h]

theorem completed_blank {reprStr : String → String} {params later : JsonObject}
    (same : blankFields params = blankFields later) (segments : List Segment) :
    (completed reprStr params segments).blank = (completed reprStr later segments).blank := by
  by_cases single : ∃ only, segments = [.placeholder only]
  · obtain ⟨only, rfl⟩ := single
    have looked := congrArg (List.lookup only) same
    rw [lookup_blankFields, lookup_blankFields] at looked
    rw [completed, completed]
    cases hp : params.lookup only <;> cases hl : later.lookup only <;>
      simp_all
  · have several : ∀ name, segments ≠ [.placeholder name] :=
      fun only same => single ⟨only, same⟩
    rw [completed_of_not_single several, completed_of_not_single several]
    rfl

theorem built_lookup_none (distinct : (keys globals).Nodup) {params : JsonObject}
    (h : runner.buildParams requestId globals = .ok params) {key : String}
    (unsupplied : supplied requestId globals key = none)
    (undeclared : runner.template requestId globals key = none) : params.lookup key = none := by
  have same := interpolateFields_keys (buildParams_iff.mp h).1
  rw [← Option.not_isSome_iff_eq_none, ← mem_keys_iff_isSome_lookup, same,
    mem_keys_iff_isSome_lookup, lookup_mergedParams distinct, unsupplied]
  have absent : runner.config.params.lookup key = none := by
    rw [FlowRunner.template, unsupplied] at undeclared
    exact undeclared
  rw [absent]
  exact Bool.false_ne_true

/-- Two triggers that differ inside strings only make runs that differ in the corresponding
parameters only, with every supplied value carried unchanged, exactly if no supplied string
opens a placeholder in a run whose definition resolves. -/
theorem triggersAreData_iff {otherId : String} (declared : (keys runner.config.params).Nodup)
    (distinct : (keys globals).Nodup)
    (same : (JsonValue.obj globals).blank = (JsonValue.obj others).blank) :
    runner.TriggersAreData requestId globals otherId others ↔
      (runner.Resolvable requestId globals →
        runner.Inert requestId globals ∧ runner.Inert otherId others) := by
  have same : blankFields globals = blankFields others := by
    rw [blank, blank] at same
    exact JsonValue.obj.inj same
  have distinct' : (keys others).Nodup := by
    rwa [← keys_blankFields, ← same, keys_blankFields]
  constructor
  · intro data resolvable
    exact ⟨(carriesSupplied_iff _ declared distinct).mp data.first resolvable,
      (carriesSupplied_iff _ declared distinct').mp data.second (resolvable.congr same)⟩
  · intro inert
    have first := (carriesSupplied_iff requestId declared distinct).mpr
      fun resolvable => (inert resolvable).1
    have second := (carriesSupplied_iff otherId declared distinct').mpr
      fun resolvable => (inert (resolvable.congr same.symm)).2
    refine ⟨first, second, ?_, ?_⟩
    · rw [first.built, second.built]
      exact ⟨fun h => h.congr same, fun h => h.congr same.symm⟩
    · intro params later hparams hlater
      have blanked : blankFields (runner.mergedParams requestId globals) =
          blankFields (runner.mergedParams otherId others) := blank_mergedParams same _ _
      suffices each : ∀ key, (params.lookup key).map blank = (later.lookup key).map blank ∧
          ((∀ name, runner.Shows requestId globals key name →
            supplied requestId globals name = supplied otherId others name) →
              params.lookup key = later.lookup key) from
        ⟨fun key => (each key).1, fun key => (each key).2⟩
      intro key
      cases hsupplied : supplied requestId globals key with
      | some v =>
          have both := supplied_blank same requestId otherId key
          rw [hsupplied, Option.map_some] at both
          obtain ⟨w, hw, hvw⟩ := Option.map_eq_some_iff.mp both.symm
          rw [first.carried params hparams key v hsupplied,
            second.carried later hlater key w hw]
          refine ⟨by rw [Option.map_some, Option.map_some, hvw], fun equal => ?_⟩
          have own := equal key (.inl rfl)
          rwa [hsupplied, hw] at own
      | none =>
          cases htemplate : runner.template requestId globals key with
          | some text =>
              obtain ⟨segments, parsed, value⟩ := first.filled params hparams key text htemplate
              rw [template_congr same requestId otherId] at htemplate
              obtain ⟨segments', parsed', value'⟩ :=
                second.filled later hlater key text htemplate
              rw [parsed] at parsed'
              cases parsed'
              rw [value, value']
              refine ⟨by rw [Option.map_some, Option.map_some, completed_blank blanked], ?_⟩
              intro equal
              rw [← template_congr same requestId otherId] at htemplate
              rw [completed_congr fun name hname => lookup_merged_of_supplied distinct distinct'
                (equal name (.inr ⟨text, segments, htemplate, parsed, hname⟩))]
          | none =>
              have unsupplied : supplied otherId others key = none := by
                have := supplied_isSome same requestId otherId key
                rw [hsupplied] at this
                exact Option.not_isSome_iff_eq_none.mp (by rw [← this]; simp)
              rw [built_lookup_none distinct hparams hsupplied htemplate,
                built_lookup_none distinct' hlater unsupplied
                  (by rwa [← template_congr same requestId otherId])]
              exact ⟨rfl, fun _ => rfl⟩

end Pairs

end Parameters

/-! ## A workflow that greets -/

/-- A workflow whose greeting names the customer that the trigger supplies. -/
def greetWorkflow : WorkflowConfig where
  workflow := "greet"
  params := [("customer", "${customer}"), ("greeting", "Dear ${customer}")]
  steps := []
  flow := []

theorem inert_greet {requestId customer : String} (request : ¬ Opens requestId)
    (named : ¬ Opens customer)
    (greeted : ¬ ['$', '{'] <:+: "Dear ".toList ++ (customer.toList ++ [])) :
    (scriptedRunner greetWorkflow).Inert requestId [("customer", .str customer)] := by
  refine ⟨fun key v hv => ?_, fun key text segments htext parsed several => ?_⟩
  · rw [supplied] at hv
    split at hv
    · cases hv
      exact plain_str.mpr request
    · cases mem_lookup hv with
      | head => exact plain_str.mpr named
      | tail _ rest => cases rest
  · obtain ⟨unsupplied, declared⟩ := template_eq_some.mp htext
    have greeting : key = "greeting" := by
      by_contra other
      have own : key ≠ "customer" := by
        rintro rfl
        cases unsupplied
      simp [scriptedRunner, greetWorkflow, List.lookup_cons, beq_false_of_ne own,
        beq_false_of_ne other] at declared
    subst greeting
    cases declared
    have known : placeholdersOf plainPlatform.reprStr "Dear ${customer}" =
        .ok [.text "Dear ", .placeholder "customer"] := by decide
    cases known.symm.trans parsed
    rw [Opens, printed, printed, String.toList_append, String.toList_append]
    exact greeted

/-- The names of two customers are data. -/
theorem triggersAreData_greet :
    (scriptedRunner greetWorkflow).TriggersAreData "r-1" [("customer", .str "Ada")] "r-2"
      [("customer", .str "Alan")] := by
  have first : (scriptedRunner greetWorkflow).Inert "r-1" [("customer", .str "Ada")] :=
    inert_greet (by decide) (by decide) (by decide)
  have second : (scriptedRunner greetWorkflow).Inert "r-2" [("customer", .str "Alan")] :=
    inert_greet (by decide) (by decide) (by decide)
  have same : (JsonValue.obj [("customer", .str "Ada")]).blank =
      (JsonValue.obj [("customer", .str "Alan")]).blank := by
    simp [blank, blankFields]
  exact (triggersAreData_iff (by decide) (by decide) same).mpr fun _ => ⟨first, second⟩

/-- A supplied note that reads like a placeholder arrives as the identity of the request. -/
theorem supplied_note_interpreted :
    ¬ (scriptedRunner greetWorkflow).TriggersAreData
      "r-1" [("customer", .str "Ada"), ("note", .str "${request_id}")]
      "r-2" [("customer", .str "Ada"), ("note", .str "see below")] := by
  intro data
  have built : (scriptedRunner greetWorkflow).buildParams "r-1"
      [("customer", .str "Ada"), ("note", .str "${request_id}")] =
        .ok [("customer", .str "Ada"), ("greeting", .str "Dear Ada"), ("note", .str "r-1"),
          ("request_id", .str "r-1")] := by decide
  have note := data.first.carried _ built "note" (.str "${request_id}") (by decide)
  revert note
  decide

end Justflow
