import Justflow.Engine.Evaluator
import Justflow.Runtime.Scope
import Justflow.Library.Dumps
import Mathlib.Data.List.Dedup

/-!
# Differences between revisions

Two revisions are compared by the dumps of their documents without the fields that have no value,
object by object; whatever is not an object on both sides is compared by the equality of the host
language, for which `True`, `1` and `1.0` are equal.  Revisions are identified by their canonical
bytes, which tell these apart.  A key is shown as it is, or by a digest that only keys of at most
256 characters have.
-/

open Fields Program JsonValue

namespace Justflow

inductive ConfigurationDiffOperation where
  | create | update | delete
  deriving DecidableEq

structure ConfigurationDiffItem where
  operation : ConfigurationDiffOperation
  path : List String
  deriving DecidableEq

/-- `ValueError`, which a validation error is too. -/
inductive DiffFailure where
  | valueError
  deriving DecidableEq

def maxConfigurationDiffItems : Nat := 1000
def maxConfigurationDiffPathSegmentLength : Nat := 128
def maxConfigurationDiffPathLength : Nat := 32
def maxDigestedKeyLength : Nat := 256

section Diff

variable (hashing : Hashing)

/-- `_diff_path_segment`, with the check of `control_identity_digest`. -/
def diffPathSegment (value : String) : Except DiffFailure String :=
  if value = "" ∨ maxConfigurationDiffPathSegmentLength < value.length then
    if value = "" ∨ maxDigestedKeyLength < value.length then .error .valueError
    else .ok (hashing.safeIdentityDigest "difference-path" value).text
  else .ok value

/-- `sorted(set(left) | set(right))`. -/
def unionKeys (left right : List (String × JsonValue)) : List String :=
  (keys left ++ keys right).dedup.mergeSort fun a b => a ≤ b

/-- The comparison of what is not an object on both sides. -/
def diffLeaves (left right : JsonValue) (path : List String) : List ConfigurationDiffItem :=
  if pyEq left right then [] else [⟨.update, path⟩]

/-- The items of the keys in turn; a key that the left side lacks was created. -/
def joinItems (children : List (String × Except DiffFailure (List ConfigurationDiffItem)))
    (path : List String) : List String → Except DiffFailure (List ConfigurationDiffItem)
  | [] => .ok []
  | key :: rest => do
      let here ← match children.lookup key with
        | some items => items
        | none => (diffPathSegment hashing key).map fun segment =>
            [⟨.create, path ++ [segment]⟩]
      return here ++ (← joinItems children path rest)

mutual

/-- `compare`, before the limits of the result are checked. -/
def diffValues : JsonValue → JsonValue → List String →
    Except DiffFailure (List ConfigurationDiffItem)
  | .obj left, .obj right, path =>
      joinItems hashing (diffEntries left right path) path (unionKeys left right)
  | left, right, path => .ok (diffLeaves left right path)

/-- What the keys of the left side contribute. -/
def diffEntries : List (String × JsonValue) → List (String × JsonValue) → List String →
    List (String × Except DiffFailure (List ConfigurationDiffItem))
  | [], _, _ => []
  | (key, v) :: rest, right, path =>
      (key, do
        let segment ← diffPathSegment hashing key
        match right.lookup key with
        | none => .ok [⟨.delete, path ++ [segment]⟩]
        | some w => diffValues v w (path ++ [segment])) :: diffEntries rest right path

end

/-- `_configuration_diff`, for the two dumps. -/
def configurationDiff (source target : JsonValue) :
    Except DiffFailure (List ConfigurationDiffItem) := do
  let items ← diffValues hashing source target []
  if maxConfigurationDiffItems < items.length ∨
      items.any (fun item => maxConfigurationDiffPathLength < item.path.length) then
    .error .valueError
  else .ok items

/-! ## Equality of the host language -/

theorem plainFields_eq_map (fields : List (String × JsonValue)) :
    plainFields fields = fields.map fun e => (e.1, plain e.2) := by
  induction fields with
  | nil => rfl
  | cons e rest ih => simp [plainFields, ih]

theorem plain_wire_obj (fields : List (String × JsonValue)) :
    plain (JsonValue.obj fields).wire =
      .obj (sortKeys (fields.map fun e => (e.1, plain e.2.wire))) := by
  rw [wire_obj, plain, plainFields_eq_map, ← sortKeys_map (fun e => plain e.2), List.map_map]
  rfl

theorem pyEq_obj {l m : List (String × JsonValue)} (hl : (keys l).Nodup) (hm : (keys m).Nodup) :
    pyEq (.obj l) (.obj m) = true ↔
      ∀ key, (l.lookup key).map (fun v => plain v.wire) =
        (m.lookup key).map fun v => plain v.wire := by
  have nodup : ∀ {fields : List (String × JsonValue)}, (keys fields).Nodup →
      (keys (fields.map fun e => (e.1, plain e.2.wire))).Nodup := by
    intro fields h
    rwa [keys_map_snd fun v => plain v.wire]
  rw [pyEq, decide_eq_true_iff, plain_wire_obj, plain_wire_obj, JsonValue.obj.injEq,
    sortKeys_eq_iff (nodup hl) (nodup hm)]
  simp only [lookup_map_value fun v : JsonValue => plain v.wire]

theorem pyEq_of_wire {v w : JsonValue} (h : v.wire = w.wire) : pyEq v w = true := by
  rw [pyEq, h, decide_eq_true_iff]

/-! ## No differences -/

/-- Every key of an object, outside of arrays, can be shown. -/
abbrev ShownKeys : JsonValue → Prop :=
  Throughout fun fields => ∀ key ∈ keys fields, key ≠ "" ∧ key.length ≤ maxDigestedKeyLength

theorem diffPathSegment_isOk {key : String} :
    (∃ segment, diffPathSegment hashing key = .ok segment) ↔
      key ≠ "" ∧ key.length ≤ maxDigestedKeyLength := by
  rw [diffPathSegment]
  by_cases empty : key = ""
  · simp [empty]
  · by_cases long : maxConfigurationDiffPathSegmentLength < key.length
    · by_cases tooLong : maxDigestedKeyLength < key.length
      · simp [empty, long, tooLong]
      · simp [empty, long, tooLong, Nat.le_of_not_lt tooLong]
    · have short : key.length ≤ maxDigestedKeyLength :=
        (Nat.le_of_not_lt long).trans (by decide)
      simp [empty, long, short]

theorem mem_unionKeys {left right : List (String × JsonValue)} {key : String} :
    key ∈ unionKeys left right ↔ key ∈ keys left ∨ key ∈ keys right := by
  rw [unionKeys, List.mem_mergeSort, List.mem_dedup, List.mem_append]

theorem diffEntries_lookup (left right : List (String × JsonValue)) (path : List String)
    (key : String) : (diffEntries hashing left right path).lookup key =
      (left.lookup key).map (fun v => do
        let segment ← diffPathSegment hashing key
        match right.lookup key with
        | none => .ok [⟨.delete, path ++ [segment]⟩]
        | some w => diffValues hashing v w (path ++ [segment])) := by
  induction left with
  | nil => rfl
  | cons e rest ih =>
      obtain ⟨k, v⟩ := e
      rw [diffEntries, List.lookup_cons, List.lookup_cons]
      by_cases same : key = k
      · subst same
        simp
      · rw [beq_false_of_ne same]
        exact ih

/-- What one key of either side contributes. -/
def itemsAt (left right : List (String × JsonValue)) (path : List String) (key : String) :
    Except DiffFailure (List ConfigurationDiffItem) := do
  let segment ← diffPathSegment hashing key
  match left.lookup key, right.lookup key with
  | none, _ => .ok [⟨.create, path ++ [segment]⟩]
  | some _, none => .ok [⟨.delete, path ++ [segment]⟩]
  | some v, some w => diffValues hashing v w (path ++ [segment])

theorem joinItems_cons (left right : List (String × JsonValue)) (path : List String)
    (key : String) (rest : List String) :
    joinItems hashing (diffEntries hashing left right path) path (key :: rest) = (do
      let here ← itemsAt hashing left right path key
      return here ++ (← joinItems hashing (diffEntries hashing left right path) path rest)) := by
  rw [joinItems, diffEntries_lookup, itemsAt]
  cases left.lookup key with
  | none => rfl
  | some v => cases right.lookup key <;> rfl

theorem joinItems_nil_iff (left right : List (String × JsonValue)) (path names : List String) :
    joinItems hashing (diffEntries hashing left right path) path names = .ok [] ↔
      ∀ key ∈ names, itemsAt hashing left right path key = .ok [] := by
  induction names with
  | nil => simp [joinItems]
  | cons key rest ih =>
      rw [joinItems_cons, List.forall_mem_cons, ← ih]
      cases itemsAt hashing left right path key with
      | error e => simp [bind, Except.bind]
      | ok here =>
          cases joinItems hashing (diffEntries hashing left right path) path rest with
          | error e => simp [bind, Except.bind]
          | ok later => simp [bind, Except.bind, pure, Except.pure]

theorem diffLeaves_nil_iff (left right : JsonValue) (path : List String) :
    diffLeaves left right path = [] ↔ pyEq left right = true := by
  rw [diffLeaves]
  split <;> simp_all

/-- What is not an object on both sides is a leaf of the comparison. -/
theorem diffValues_leaf {left right : JsonValue}
    (leaf : (∀ fields, left ≠ .obj fields) ∨ ∀ fields, right ≠ .obj fields)
    (path : List String) :
    diffValues hashing left right path = .ok (diffLeaves left right path) := by
  cases left with
  | obj l =>
      cases right with
      | obj r =>
          rcases leaf with no | no
          · exact absurd rfl (no l)
          · exact absurd rfl (no r)
      | _ => rfl
  | _ => rfl

theorem pyEq_obj_leaf {fields : List (String × JsonValue)} {right : JsonValue}
    (leaf : ∀ others, right ≠ .obj others) : pyEq (.obj fields) right = false := by
  rw [pyEq, decide_eq_false_iff_not, plain_wire_obj]
  cases right with
  | obj others => exact absurd rfl (leaf others)
  | arr items => simp [wire, plain]
  | _ => simp [plain]

/-- No difference is found exactly between equal values whose keys can all be shown. -/
theorem diffValues_nil_iff {left right : JsonValue} (hleft : DistinctKeys left)
    (hright : DistinctKeys right) (path : List String) :
    diffValues hashing left right path = .ok [] ↔
      pyEq left right = true ∧ ShownKeys left := by
  induction left generalizing right path with
  | obj l ih =>
      by_cases object : ∃ r, right = .obj r
      · obtain ⟨r, rfl⟩ := object
        obtain ⟨hl, below⟩ := throughout_obj.mp hleft
        obtain ⟨hr, others⟩ := throughout_obj.mp hright
        have shownHere : ShownKeys (.obj l) ↔ (∀ key ∈ keys l, key ≠ "" ∧
            key.length ≤ maxDigestedKeyLength) ∧ ∀ e ∈ l, ShownKeys e.2 := throughout_obj
        rw [diffValues, joinItems_nil_iff, pyEq_obj hl hr, shownHere]
        have each : ∀ key, itemsAt hashing l r path key = .ok [] ↔
            (key ≠ "" ∧ key.length ≤ maxDigestedKeyLength) ∧ ∃ v w, l.lookup key = some v ∧
              r.lookup key = some w ∧ pyEq v w = true ∧ ShownKeys v := by
          intro key
          rw [itemsAt, ← diffPathSegment_isOk hashing]
          cases segment : diffPathSegment hashing key with
          | error e => simp [bind, Except.bind]
          | ok text =>
              cases hv : l.lookup key with
              | none => simp [bind, Except.bind]
              | some v =>
                  cases hw : r.lookup key with
                  | none => simp [bind, Except.bind]
                  | some w =>
                      have same := ih (key, v) (mem_lookup hv)
                        (below _ (mem_lookup hv)) (others _ (mem_lookup hw))
                        (path ++ [text])
                      simpa [bind, Except.bind] using same
        simp only [each, mem_unionKeys]
        constructor
        · intro h
          refine ⟨fun key => ?_, fun key hkey => (h key (.inl hkey)).1, fun e he => ?_⟩
          · cases hv : l.lookup key with
            | none =>
                cases hw : r.lookup key with
                | none => rfl
                | some w =>
                    have present : key ∈ keys r :=
                      mem_keys_iff_isSome_lookup.mpr (by rw [hw]; rfl)
                    obtain ⟨-, v, _, found, -⟩ := h key (.inr present)
                    rw [hv] at found
                    cases found
            | some v =>
                have present : key ∈ keys l := mem_keys_iff_isSome_lookup.mpr (by rw [hv]; rfl)
                obtain ⟨-, v', w, found, hw, same, -⟩ := h key (.inl present)
                rw [hv] at found
                cases found
                rw [hw]
                rw [pyEq, decide_eq_true_iff] at same
                simpa using same
          · obtain ⟨-, v, _, found, -, -, shown⟩ := h e.1 (.inl (List.mem_map_of_mem he))
            rw [lookup_of_mem hl he] at found
            cases found
            exact shown
        · rintro ⟨same, named, shown⟩ key hkey
          have both := same key
          have present : (l.lookup key).isSome = (r.lookup key).isSome := by
            have := congrArg Option.isSome both
            simpa using this
          have here : (l.lookup key).isSome = true := by
            rcases hkey with hkey | hkey
            · exact mem_keys_iff_isSome_lookup.mp hkey
            · rw [present]
              exact mem_keys_iff_isSome_lookup.mp hkey
          obtain ⟨v, hv⟩ := Option.isSome_iff_exists.mp here
          obtain ⟨w, hw⟩ := Option.isSome_iff_exists.mp (present ▸ here)
          rw [hv, hw, Option.map_some, Option.map_some, Option.some.injEq] at both
          refine ⟨named key (mem_keys_iff_isSome_lookup.mpr here), v, w, hv, hw, ?_,
            shown _ (mem_lookup hv)⟩
          rw [pyEq, decide_eq_true_iff, both]
      · have leaf : ∀ others, right ≠ .obj others := fun r same => object ⟨r, same⟩
        rw [diffValues_leaf hashing (.inr leaf), Except.ok.injEq, diffLeaves_nil_iff,
          pyEq_obj_leaf leaf]
        simp
  | _ =>
      rw [diffValues_leaf hashing (.inl fun _ => by simp), Except.ok.injEq,
        diffLeaves_nil_iff]
      exact (and_iff_left (.other fun _ => by simp)).symm

/-! ## Real differences -/

/-- The value below the keys of a path. -/
def valueBelow : List String → JsonValue → Option JsonValue
  | [], v => some v
  | key :: rest, .obj fields => (fields.lookup key).bind (valueBelow rest)
  | _ :: _, _ => none

/-- The two sides differ as an item says. -/
def DiffersAs (left right : Option JsonValue) : ConfigurationDiffOperation → Prop
  | .create => left = none ∧ right.isSome
  | .delete => left.isSome ∧ right = none
  | .update => ∃ v w, left = some v ∧ right = some w ∧ v.wire ≠ w.wire

/-- The item shows a path of keys below which the two values differ. -/
def RealDifference (left right : JsonValue) (path : List String)
    (item : ConfigurationDiffItem) : Prop :=
  ∃ names segments, List.Forall₂ (fun key segment => diffPathSegment hashing key = .ok segment)
    names segments ∧ item.path = path ++ segments ∧
      DiffersAs (valueBelow names left) (valueBelow names right) item.operation

theorem valueBelow_cons {fields : List (String × JsonValue)} {key : String} {v : JsonValue}
    (h : fields.lookup key = some v) (rest : List String) :
    valueBelow (key :: rest) (.obj fields) = valueBelow rest v := by
  rw [valueBelow, h, Option.bind_some]

theorem joinItems_mem {left right : List (String × JsonValue)} {path names : List String}
    {items : List ConfigurationDiffItem}
    (h : joinItems hashing (diffEntries hashing left right path) path names = .ok items)
    {item : ConfigurationDiffItem} (member : item ∈ items) : ∃ key ∈ names, ∃ here,
      itemsAt hashing left right path key = .ok here ∧ item ∈ here := by
  induction names generalizing items with
  | nil =>
      cases h
      cases member
  | cons key rest ih =>
      rw [joinItems_cons] at h
      obtain ⟨here, hhere, joined⟩ := exists_of_bind_eq_ok h
      obtain ⟨later, hlater, both⟩ := exists_of_bind_eq_ok joined
      cases both
      rcases List.mem_append.mp member with now | after
      · exact ⟨key, List.mem_cons_self, here, hhere, now⟩
      · obtain ⟨name, hname, found, hfound, inside⟩ := ih hlater after
        exact ⟨name, List.mem_cons_of_mem _ hname, found, hfound, inside⟩

theorem diffLeaves_real {left right : JsonValue} {path : List String}
    {item : ConfigurationDiffItem} (member : item ∈ diffLeaves left right path) :
    RealDifference hashing left right path item := by
  rw [diffLeaves] at member
  split at member
  · cases member
  · next different =>
      cases List.mem_singleton.mp member
      refine ⟨[], [], .nil, (List.append_nil path).symm, left, right, rfl, rfl, fun same => ?_⟩
      exact different (pyEq_of_wire same)

/-- Every item of a comparison is a difference at the path it shows. -/
theorem diffValues_real {left right : JsonValue} {path : List String}
    {items : List ConfigurationDiffItem} (h : diffValues hashing left right path = .ok items) :
    ∀ item ∈ items, RealDifference hashing left right path item := by
  induction left generalizing right path items with
  | obj l ih =>
      by_cases object : ∃ r, right = .obj r
      · obtain ⟨r, rfl⟩ := object
        rw [diffValues] at h
        intro item member
        obtain ⟨key, hkey, here, hhere, inside⟩ := joinItems_mem hashing h member
        rw [itemsAt] at hhere
        obtain ⟨segment, hsegment, looked⟩ := exists_of_bind_eq_ok hhere
        cases hv : l.lookup key with
        | none =>
            rw [hv] at looked
            cases looked
            cases List.mem_singleton.mp inside
            have present : (r.lookup key).isSome = true := by
              rcases mem_unionKeys.mp hkey with missing | found
              · have there := mem_keys_iff_isSome_lookup.mp missing
                rw [hv] at there
                cases there
              · exact mem_keys_iff_isSome_lookup.mp found
            obtain ⟨w, hw⟩ := Option.isSome_iff_exists.mp present
            refine ⟨[key], [segment], .cons hsegment .nil, rfl, ?_, ?_⟩
            · rw [valueBelow, hv, Option.bind_none]
            · rw [valueBelow_cons hw, valueBelow, Option.isSome_some]
        | some v =>
            cases hw : r.lookup key with
            | none =>
                rw [hv, hw] at looked
                cases looked
                cases List.mem_singleton.mp inside
                refine ⟨[key], [segment], .cons hsegment .nil, rfl, ?_, ?_⟩
                · rw [valueBelow_cons hv, valueBelow, Option.isSome_some]
                · rw [valueBelow, hw, Option.bind_none]
            | some w =>
                rw [hv, hw] at looked
                obtain ⟨names, segments, shown, shownPath, real⟩ :=
                  ih (key, v) (mem_lookup hv) looked item inside
                refine ⟨key :: names, segment :: segments, .cons hsegment shown, ?_, ?_⟩
                · rw [shownPath, List.append_assoc, List.singleton_append]
                · rw [valueBelow_cons hv, valueBelow_cons hw]
                  exact real
      · rw [diffValues_leaf hashing (.inr fun r same => object ⟨r, same⟩)] at h
        cases h
        exact fun _ => diffLeaves_real hashing
  | _ =>
      rw [diffValues_leaf hashing (.inl fun _ => by simp)] at h
      cases h
      exact fun _ => diffLeaves_real hashing

/-! ## Documents -/

/-- The fields of a configuration bundle and of a tenant configuration; a bundle does not name a
catalog. -/
structure ConfigurationSchemas where
  bundle : List (String × Schema)
  tenant : List (String × Schema)
  apart : "component_catalog_revision" ∉ keys bundle

/-- The models of a configuration document. -/
inductive DumpedDocument (schemas : ConfigurationSchemas) where
  | bundle (values : List (String × Dump))
      (typed : Dump.Of (.model schemas.bundle) (.model values))
  | tenant (values : List (String × Dump))
      (typed : Dump.Of (.model schemas.tenant) (.model values)) (catalog : String)
      (named : values.lookup "component_catalog_revision" = some (.leaf (.str catalog)))

namespace DumpedDocument

variable {schemas : ConfigurationSchemas}

def values : DumpedDocument schemas → List (String × Dump)
  | .bundle values _ => values
  | .tenant values _ _ _ => values

/-- `model_dump(mode="json", by_alias=True, exclude_none=True)`. -/
def slim (self : DumpedDocument schemas) : JsonValue :=
  (Dump.model self.values).slim

/-- The value of `canonical_bytes`: a bundle leaves out a resolution that it does not have. -/
def canonical : DumpedDocument schemas → JsonValue
  | .bundle values _ => (JsonValue.obj ((Dump.fullFields values).filter fun e =>
      !(e.1 = "tenant_resolution" && e.2 = .null))).wire
  | .tenant values _ _ _ => (Dump.model values).full.wire

theorem nodup (self : DumpedDocument schemas) : (keys self.values).Nodup := by
  cases self with
  | bundle values typed => exact typed.nodup_model
  | tenant values typed _ _ => exact typed.nodup_model

theorem distinct (self : DumpedDocument schemas) : DistinctKeys self.slim := by
  cases self with
  | bundle values typed => exact typed.distinct_slim
  | tenant values typed _ _ => exact typed.distinct_slim

end DumpedDocument

theorem lookup_filter {fields : List (String × JsonValue)} (distinct : (keys fields).Nodup)
    (p : String × JsonValue → Bool) (key : String) :
    (fields.filter p).lookup key =
      (fields.lookup key).bind fun v => if p (key, v) then some v else none := by
  induction fields with
  | nil => rfl
  | cons e rest ih =>
      obtain ⟨k, v⟩ := e
      rw [keys_cons, List.nodup_cons] at distinct
      by_cases same : key = k
      · subst same
        cases kept : p (key, v) with
        | true => simp [kept]
        | false =>
            have absent : rest.lookup key = none := by
              rw [← Option.not_isSome_iff_eq_none, ← mem_keys_iff_isSome_lookup]
              exact distinct.1
            simp [kept, ih distinct.2, absent]
      · cases kept : p (k, v) <;>
          simp [kept, List.lookup_cons, beq_false_of_ne same, ih distinct.2]

/-- Leaving out the resolution that is not there keeps bundles apart. -/
theorem bundle_canonical_iff {schemas : ConfigurationSchemas} {first second : List (String × Dump)}
    (hfirst : Dump.Of (.model schemas.bundle) (.model first))
    (hsecond : Dump.Of (.model schemas.bundle) (.model second)) :
    (DumpedDocument.bundle first hfirst).canonical =
      (DumpedDocument.bundle second hsecond).canonical ↔
        (Dump.model first).full.wire = (Dump.model second).full.wire := by
  have nodupFirst := Dump.nodup_full hfirst.nodup_model
  have nodupSecond := Dump.nodup_full hsecond.nodup_model
  have filtered : ∀ {fields : List (String × JsonValue)} (p : String × JsonValue → Bool),
      (keys fields).Nodup → (keys (fields.filter p)).Nodup :=
    fun p h => (List.filter_sublist.map Prod.fst).nodup h
  rw [DumpedDocument.canonical, DumpedDocument.canonical,
    wire_obj_iff (filtered _ nodupFirst) (filtered _ nodupSecond), Dump.full, Dump.full,
    wire_obj_iff nodupFirst nodupSecond]
  have sameKeys : keys first = keys second := by
    cases hfirst with
    | model keyed _ _ =>
        cases hsecond with
        | model keyed' _ _ => rw [keyed, keyed']
  refine forall_congr' fun key => ?_
  rw [lookup_filter nodupFirst, lookup_filter nodupSecond]
  have both : ((Dump.fullFields first).lookup key).isSome =
      ((Dump.fullFields second).lookup key).isSome := by
    rw [Dump.lookup_full, Dump.lookup_full, Option.isSome_map, Option.isSome_map,
      Bool.eq_iff_iff, ← mem_keys_iff_isSome_lookup, ← mem_keys_iff_isSome_lookup, sameKeys]
  cases hv : (Dump.fullFields first).lookup key with
  | none =>
      rw [hv] at both
      have absent : (Dump.fullFields second).lookup key = none :=
        Option.not_isSome_iff_eq_none.mp (by rw [← both]; exact Bool.false_ne_true)
      rw [absent]
      simp
  | some v =>
      rw [hv] at both
      obtain ⟨w, hw⟩ := Option.isSome_iff_exists.mp both.symm
      rw [hw, Option.bind_some, Option.bind_some]
      have null_iff : ∀ u : JsonValue, u.wire = .null ↔ u = .null := by
        intro u
        cases u <;> simp
      by_cases resolution : key = "tenant_resolution"
      · by_cases hvn : v = .null
        · by_cases hwn : w = .null
          · simp [resolution, hvn, hwn]
          · have other : w.wire ≠ .null := fun h => hwn ((null_iff w).mp h)
            simpa [resolution, hvn, hwn] using fun h => other h.symm
        · by_cases hwn : w = .null
          · have other : v.wire ≠ .null := fun h => hvn ((null_iff v).mp h)
            simpa [resolution, hvn, hwn] using other
          · simp [hvn, hwn]
      · simp [resolution]

/-- A bundle and a tenant configuration are different in both dumps. -/
theorem bundle_ne_tenant {schemas : ConfigurationSchemas} {first second : List (String × Dump)}
    {catalog : String} (hfirst : Dump.Of (.model schemas.bundle) (.model first))
    (hsecond : Dump.Of (.model schemas.tenant) (.model second))
    (named : second.lookup "component_catalog_revision" = some (.leaf (.str catalog))) :
    (DumpedDocument.bundle first hfirst).canonical ≠
        (DumpedDocument.tenant second hsecond catalog named).canonical ∧
      (Dump.model first).slim.wire ≠ (Dump.model second).slim.wire := by
  have absent : first.lookup "component_catalog_revision" = none := by
    cases hfirst with
    | model keyed _ _ =>
        rw [← Option.not_isSome_iff_eq_none, ← mem_keys_iff_isSome_lookup, keyed]
        exact schemas.apart
  have nodupFirst := Dump.nodup_full hfirst.nodup_model
  constructor
  · intro same
    rw [DumpedDocument.canonical, DumpedDocument.canonical, Dump.full,
      wire_obj_iff ((List.filter_sublist.map Prod.fst).nodup nodupFirst)
        (Dump.nodup_full hsecond.nodup_model)] at same
    have here := same "component_catalog_revision"
    rw [lookup_filter nodupFirst, Dump.lookup_full, Dump.lookup_full, absent, named] at here
    cases here
  · intro same
    rw [Dump.slim, Dump.slim, wire_obj_iff (Dump.nodup_present hfirst.nodup_model)
      (Dump.nodup_present hsecond.nodup_model)] at same
    have here := same "component_catalog_revision"
    rw [Dump.lookup_present hfirst.nodup_model, Dump.lookup_present hsecond.nodup_model, absent,
      named] at here
    cases here

/-- Canonical bytes are equal exactly if the dumps without absent fields are. -/
theorem canonical_iff {schemas : ConfigurationSchemas} (source target : DumpedDocument schemas) :
    source.canonical = target.canonical ↔ source.slim.wire = target.slim.wire := by
  cases source with
  | bundle first hfirst =>
      cases target with
      | bundle second hsecond =>
          rw [bundle_canonical_iff, ← Dump.slim_iff_full hfirst hsecond]
          rfl
      | tenant second hsecond catalog named =>
          obtain ⟨bytes, dumps⟩ := bundle_ne_tenant hfirst hsecond named
          exact iff_of_false bytes dumps
  | tenant first hfirst catalog named =>
      cases target with
      | bundle second hsecond =>
          obtain ⟨bytes, dumps⟩ := bundle_ne_tenant hsecond hfirst named
          exact iff_of_false bytes.symm dumps.symm
      | tenant second hsecond _ _ => exact (Dump.slim_iff_full hfirst hsecond).symm

/-- The comparison of two documents is exact: it finds nothing exactly if their canonical bytes
are equal, and every item it reports is a difference. -/
structure DiffExact {schemas : ConfigurationSchemas} (source target : DumpedDocument schemas) :
    Prop where
  complete : configurationDiff hashing source.slim target.slim = .ok [] ↔
    source.canonical = target.canonical
  real : ∀ items, configurationDiff hashing source.slim target.slim = .ok items →
    ∀ item ∈ items, RealDifference hashing source.slim target.slim [] item

/-- The values are different, but equal once every boolean, integer and float is replaced by the
number it denotes. -/
def DifferInNumbersOnly (left right : JsonValue) : Prop :=
  left.wire ≠ right.wire ∧ plain left.wire = plain right.wire

theorem configurationDiff_nil_iff {left right : JsonValue} (hleft : DistinctKeys left)
    (hright : DistinctKeys right) : configurationDiff hashing left right = .ok [] ↔
      plain left.wire = plain right.wire ∧ ShownKeys left := by
  rw [← decide_eq_true_iff (p := plain left.wire = plain right.wire), ← pyEq,
    ← diffValues_nil_iff hashing hleft hright [], configurationDiff]
  cases diffValues hashing left right [] with
  | error e => simp [bind, Except.bind]
  | ok items =>
      simp only [bind, Except.bind, Except.ok.injEq]
      split
      · next beyond =>
          refine iff_of_false (by simp) ?_
          rintro rfl
          simp at beyond
      · rw [Except.ok.injEq]

/-- The comparison of two documents is exact exactly if equal documents have keys that can be
shown, and documents with such keys do not differ in the kinds of equal numbers only. -/
theorem diffExact_iff {schemas : ConfigurationSchemas} (source target : DumpedDocument schemas) :
    DiffExact hashing source target ↔
      (source.canonical = target.canonical → ShownKeys source.slim) ∧
        (DifferInNumbersOnly source.slim target.slim → ¬ ShownKeys source.slim) := by
  have found := configurationDiff_nil_iff hashing source.distinct target.distinct
  have bytes := canonical_iff source target
  constructor
  · intro exact_
    constructor
    · intro same
      exact (found.mp (exact_.complete.mpr same)).2
    · rintro ⟨different, numbers⟩ shown
      exact different (bytes.mp (exact_.complete.mp (found.mpr ⟨numbers, shown⟩)))
  · rintro ⟨shown, numbers⟩
    refine ⟨⟨fun nothing => ?_, fun same => ?_⟩, fun items h item member => ?_⟩
    · obtain ⟨equal, keysShown⟩ := found.mp nothing
      rw [bytes]
      by_contra different
      exact numbers ⟨different, equal⟩ keysShown
    · exact found.mpr ⟨by rw [bytes.mp same], shown same⟩
    · rw [configurationDiff] at h
      obtain ⟨all, hall, checked⟩ := exists_of_bind_eq_ok h
      split at checked
      · cases checked
      · cases checked
        exact diffValues_real hashing hall item member

end Diff

/-! ## Two kinds of one -/

/-- The fields of the documents, with open values. -/
def openSchemas : ConfigurationSchemas where
  bundle := [("resources", .any), ("services", .any), ("workflows", .any), ("triggers", .any),
    ("tenant_resolution", .any)]
  tenant := [("component_catalog_revision", .any), ("workflows", .any), ("triggers", .any)]
  apart := by decide

def openValues (params : JsonValue) : List (String × Dump) :=
  [("resources", .leaf (.obj [])), ("services", .leaf (.obj [("crm", .obj [("params", params)])])),
    ("workflows", .leaf (.obj [])), ("triggers", .leaf (.obj [])),
    ("tenant_resolution", .leaf .null)]

theorem openValues_typed {params : JsonValue} (distinct : DistinctKeys params) :
    Dump.Of (.model openSchemas.bundle) (.model (openValues params)) := by
  have empty : DistinctKeys (.obj []) := throughout_obj.mpr ⟨List.nodup_nil, by simp⟩
  have services : DistinctKeys (.obj [("crm", .obj [("params", params)])]) := by
    refine throughout_obj.mpr ⟨by simp, fun e he => ?_⟩
    cases List.mem_singleton.mp he
    refine throughout_obj.mpr ⟨by simp, fun e he => ?_⟩
    cases List.mem_singleton.mp he
    exact distinct
  have open_ : ∀ e ∈ openValues params, ∃ v, e.2 = .leaf v ∧ DistinctKeys v := by
    simp only [openValues, List.forall_mem_cons, List.not_mem_nil, false_implies, implies_true,
      and_true]
    exact ⟨⟨_, rfl, empty⟩, ⟨_, rfl, services⟩, ⟨_, rfl, empty⟩, ⟨_, rfl, empty⟩,
      ⟨_, rfl, .other fun _ => by simp⟩⟩
  refine .model rfl (by decide) fun e he _ schema found => ?_
  have any_ : schema = .any := by
    have member := mem_lookup found
    simp only [openSchemas, List.mem_cons, Prod.mk.injEq, List.not_mem_nil, or_false] at member
    rcases member with ⟨-, h⟩ | ⟨-, h⟩ | ⟨-, h⟩ | ⟨-, h⟩ | ⟨-, h⟩ <;> exact h
  obtain ⟨v, hv, hdistinct⟩ := open_ e he
  rw [any_, hv]
  exact .any hdistinct

/-- A bundle whose only service has one parameter. -/
def openBundle (name : String) (v : JsonValue) (leaf : ∀ fields, v ≠ .obj fields) :
    DumpedDocument openSchemas :=
  .bundle (openValues (.obj [(name, v)])) (openValues_typed
    (throughout_obj.mpr ⟨by simp, fun e he => by
      cases List.mem_singleton.mp he
      exact .other leaf⟩))

theorem slim_openBundle (name : String) (v : JsonValue) (leaf : ∀ fields, v ≠ .obj fields) :
    (openBundle name v leaf).slim = .obj [("resources", .obj []),
      ("services", .obj [("crm", .obj [("params", .obj [(name, v)])])]),
      ("workflows", .obj []), ("triggers", .obj [])] := rfl

theorem shownKeys_openBundle {name : String} {v : JsonValue} (leaf : ∀ fields, v ≠ .obj fields) :
    ShownKeys (openBundle name v leaf).slim ↔ name ≠ "" ∧ name.length ≤ maxDigestedKeyLength := by
  have below : ShownKeys v := .other leaf
  rw [slim_openBundle]
  simp only [ShownKeys, throughout_obj, keys_cons, keys_nil, List.forall_mem_cons,
    List.not_mem_nil, false_implies, implies_true, and_true, true_and]
  have topKeys : ("resources" ≠ "" ∧ "resources".length ≤ maxDigestedKeyLength) ∧
      ("services" ≠ "" ∧ "services".length ≤ maxDigestedKeyLength) ∧
        ("workflows" ≠ "" ∧ "workflows".length ≤ maxDigestedKeyLength) ∧
          "triggers" ≠ "" ∧ "triggers".length ≤ maxDigestedKeyLength := by decide
  constructor
  · rintro ⟨-, -, -, named, -⟩
    exact named
  · intro named
    exact ⟨topKeys, by decide, by decide, named, below⟩

/-- One retry and `true` are no difference, and a bundle with an unnamed parameter is not even
compared with itself. -/
theorem number_kinds_overlooked :
    ¬ DiffExact lengthHash (openBundle "retries" (.int 1) (by simp))
        (openBundle "retries" (.bool true) (by simp)) ∧
      ¬ DiffExact lengthHash (openBundle "" (.int 1) (by simp))
        (openBundle "" (.int 1) (by simp)) := by
  constructor
  · intro exact_
    have numbers : plain (openBundle "retries" (.int 1) (by simp)).slim.wire =
        plain (openBundle "retries" (.bool true) (by simp)).slim.wire := by
      rw [slim_openBundle, slim_openBundle]
      decide
    have different : (openBundle "retries" (.int 1) (by simp)).slim.wire ≠
        (openBundle "retries" (.bool true) (by simp)).slim.wire := by
      rw [slim_openBundle, slim_openBundle]
      decide
    have nothing := (configurationDiff_nil_iff lengthHash (DumpedDocument.distinct _)
      (DumpedDocument.distinct _)).mpr ⟨numbers, (shownKeys_openBundle _).mpr (by decide)⟩
    exact different ((canonical_iff _ _).mp (exact_.complete.mp nothing))
  · intro exact_
    have nothing := exact_.complete.mpr rfl
    have shown := ((configurationDiff_nil_iff lengthHash (DumpedDocument.distinct _)
      (DumpedDocument.distinct _)).mp nothing).2
    exact ((shownKeys_openBundle _).mp shown).1 rfl

end Justflow
