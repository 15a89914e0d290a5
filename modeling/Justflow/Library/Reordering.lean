import Justflow.Library.Json

/-!
# Reordered JSON values

A value that crossed a key-sorting serializer is the value it was, up to the order of the keys
of objects that were not sorted.  `Reordered` is that relation, closed under what later happens
to both sides: an overwrite may land a new key after the old ones on one side and after the
sorted ones on the other.

What a reader may rely on is stated here once: the two sides have the same image on the wire,
the same lookups, and, where the original keys were sorted, the same iteration.
-/

open Fields

namespace JsonValue

/-- The right value is the left one with unsorted objects put in another order. -/
inductive Reordered : JsonValue → JsonValue → Prop where
  | null : Reordered .null .null
  | bool (b : Bool) : Reordered (.bool b) (.bool b)
  | int (n : Int) : Reordered (.int n) (.int n)
  | float (f : FiniteFloat) : Reordered (.float f) (.float f)
  | str (s : String) : Reordered (.str s) (.str s)
  | arr {xs ys : List JsonValue} (length : xs.length = ys.length)
      (items : ∀ x y, (x, y) ∈ xs.zip ys → Reordered x y) : Reordered (.arr xs) (.arr ys)
  | obj {es fs gs : List (String × JsonValue)} (length : es.length = fs.length)
      (fields : ∀ e f, (e, f) ∈ es.zip fs → Reordered e.2 f.2)
      (labels : ∀ e f, (e, f) ∈ es.zip fs → e.1 = f.1)
      (same : SameFields fs gs) (sorted : KeysSorted es → gs = fs) :
      Reordered (.obj es) (.obj gs)

/-- One field stays under its key. -/
def ReorderedField (e f : String × JsonValue) : Prop :=
  e.1 = f.1 ∧ Reordered e.2 f.2

/-- The fields of two objects in the relation. -/
def ReorderedFields (es gs : List (String × JsonValue)) : Prop :=
  ∃ fs, List.Forall₂ ReorderedField es fs ∧ SameFields fs gs ∧ (KeysSorted es → gs = fs)

theorem reordered_arr_iff {xs : List JsonValue} {w : JsonValue} :
    Reordered (.arr xs) w ↔ ∃ ys, w = .arr ys ∧ List.Forall₂ Reordered xs ys := by
  constructor
  · rintro (_ | _ | _ | _ | _ | ⟨length, items⟩)
    exact ⟨_, rfl, List.forall₂_iff_zip.mpr ⟨length, fun {x y} h => items x y h⟩⟩
  · rintro ⟨ys, rfl, h⟩
    obtain ⟨length, items⟩ := List.forall₂_iff_zip.mp h
    exact .arr length fun x y hxy => items hxy

theorem reordered_obj_iff {es : List (String × JsonValue)} {w : JsonValue} :
    Reordered (.obj es) w ↔ ∃ gs, w = .obj gs ∧ ReorderedFields es gs := by
  constructor
  · rintro (_ | _ | _ | _ | _ | _ | ⟨length, fields, labels, same, sorted⟩)
    refine ⟨_, rfl, _, List.forall₂_iff_zip.mpr ⟨length, fun {e f} h => ?_⟩, same, sorted⟩
    exact ⟨labels e f h, fields e f h⟩
  · rintro ⟨gs, rfl, fs, h, same, sorted⟩
    obtain ⟨length, fields⟩ := List.forall₂_iff_zip.mp h
    exact .obj length (fun e f hef => (fields hef).2) (fun e f hef => (fields hef).1) same sorted

@[simp]
theorem reordered_obj_obj {es gs : List (String × JsonValue)} :
    Reordered (.obj es) (.obj gs) ↔ ReorderedFields es gs := by
  simp [reordered_obj_iff]

@[simp]
theorem reordered_arr_arr {xs ys : List JsonValue} :
    Reordered (.arr xs) (.arr ys) ↔ List.Forall₂ Reordered xs ys := by
  simp [reordered_arr_iff]

/-- Fields related one by one, in the same order. -/
theorem ReorderedFields.of_forall₂ {es fs : List (String × JsonValue)}
    (h : List.Forall₂ ReorderedField es fs) : ReorderedFields es fs :=
  ⟨fs, h, SameFields.refl fs, fun _ => rfl⟩

theorem keys_eq_of_forall₂ {es fs : List (String × JsonValue)}
    (h : List.Forall₂ ReorderedField es fs) : keys es = keys fs := by
  induction h with
  | nil => rfl
  | cons h _ ih => simp [h.1, ih]

theorem Reordered.refl (v : JsonValue) : Reordered v v := by
  induction v with
  | null => exact .null
  | bool b => exact .bool b
  | int n => exact .int n
  | float f => exact .float f
  | str s => exact .str s
  | arr items ih => exact reordered_arr_arr.mpr (List.forall₂_same.mpr ih)
  | obj fields ih =>
      refine reordered_obj_obj.mpr (ReorderedFields.of_forall₂ (List.forall₂_same.mpr ?_))
      exact fun e he => ⟨rfl, ih e he⟩

theorem ReorderedFields.refl (es : List (String × JsonValue)) : ReorderedFields es es :=
  reordered_obj_obj.mp (Reordered.refl _)

/-- Crossing the wire reorders. -/
theorem reordered_wire (v : JsonValue) : Reordered v (wire v) := by
  induction v with
  | null => exact .null
  | bool b => exact .bool b
  | int n => exact .int n
  | float f => exact .float f
  | str s => exact .str s
  | arr items ih =>
      rw [wire_arr, reordered_arr_arr, List.forall₂_map_right_iff]
      exact List.forall₂_same.mpr ih
  | obj fields ih =>
      rw [wire_obj, reordered_obj_obj]
      refine ⟨fields.map fun e => (e.1, wire e.2), ?_, (sameFields_sortKeys _).symm, ?_⟩
      · rw [List.forall₂_map_right_iff]
        exact List.forall₂_same.mpr fun e he => ⟨rfl, ih e he⟩
      · intro hsorted
        exact sortKeys_eq_self (by simpa [KeysSorted, keys_map_snd] using hsorted)

theorem map_wire_eq_of_forall₂ {es fs : List (String × JsonValue)}
    (h : List.Forall₂ (fun e f => e.1 = f.1 ∧ wire f.2 = wire e.2) es fs) :
    (fs.map fun e => (e.1, wire e.2)) = es.map fun e => (e.1, wire e.2) := by
  induction h with
  | nil => rfl
  | cons h _ ih => simp only [List.map_cons, h.1, h.2, ih]

theorem SameFields.map_snd {es fs : List (String × JsonValue)} (f : JsonValue → JsonValue)
    (h : SameFields es fs) :
    SameFields (es.map fun e => (e.1, f e.2)) (fs.map fun e => (e.1, f e.2)) := by
  intro key
  have filtered : ∀ gs : List (String × JsonValue),
      at_ key (gs.map fun e => (e.1, f e.2)) = (at_ key gs).map fun e => (e.1, f e.2) := by
    intro gs
    simp [at_, List.filter_map, Function.comp_def]
  rw [filtered, filtered, h key]

/-- Both sides look the same on the wire. -/
theorem Reordered.wire_eq {v w : JsonValue} (h : Reordered v w) : wire w = wire v := by
  induction v generalizing w with
  | null | bool | int | float | str => cases h; rfl
  | arr items ih =>
      obtain ⟨ys, rfl, hys⟩ := reordered_arr_iff.mp h
      simp only [wire_arr, JsonValue.arr.injEq]
      obtain ⟨length, hzip⟩ := List.forall₂_iff_zip.mp hys
      refine List.ext_getElem (by simp [length]) fun i hi hj => ?_
      simp only [List.length_map] at hi hj
      have hmem : (items[i], ys[i]) ∈ items.zip ys := by
        have hz : i < (items.zip ys).length := by simp [hi, hj]
        have := List.getElem_mem hz
        rwa [List.getElem_zip] at this
      simpa using ih _ (List.getElem_mem hj) (hzip hmem)
  | obj fields ih =>
      obtain ⟨gs, rfl, fs, hfs, same, -⟩ := reordered_obj_iff.mp h
      simp only [wire_obj, JsonValue.obj.injEq]
      have hmap : (fs.map fun e => (e.1, wire e.2)) = fields.map fun e => (e.1, wire e.2) := by
        refine map_wire_eq_of_forall₂ ?_
        obtain ⟨length, hzip⟩ := List.forall₂_iff_zip.mp hfs
        refine List.forall₂_iff_zip.mpr ⟨length, fun {e f} hef => ?_⟩
        exact ⟨(hzip hef).1, ih e (List.of_mem_zip hef).1 (hzip hef).2⟩
      rw [← hmap]
      exact (SameFields.map_snd wire same).symm.sortKeys_eq

/-- A value whose keys are sorted at every level is not touched. -/
theorem Reordered.eq_of_wire_eq {v w : JsonValue} (h : Reordered v w) (hv : wire v = v) :
    w = v := by
  induction v generalizing w with
  | null | bool | int | float | str => cases h; rfl
  | arr items ih =>
      obtain ⟨ys, rfl, hys⟩ := reordered_arr_iff.mp h
      simp only [wire_arr, JsonValue.arr.injEq] at hv
      replace hv : ∀ v ∈ items, wire v = v :=
        List.map_inj_left.mp (hv.trans (List.map_id items).symm)
      rw [JsonValue.arr.injEq]
      clear h
      induction hys with
      | nil => rfl
      | cons hxy _ ihrest =>
          rw [ih _ (by simp) hxy (hv _ (by simp)),
            ihrest (fun v hv' => ih v (by simp [hv'])) fun v hv' => hv v (by simp [hv'])]
  | obj fields ih =>
      obtain ⟨gs, rfl, fs, hfs, -, sorted⟩ := reordered_obj_iff.mp h
      simp only [wire_obj, JsonValue.obj.injEq] at hv
      have hsorted : KeysSorted fields := hv ▸ keysSorted_sortKeys _
      have hfixed : ∀ e ∈ fields, wire e.2 = e.2 := by
        have hkeys : KeysSorted (fields.map fun e => (e.1, wire e.2)) := by
          simpa [KeysSorted, keys_map_snd] using hsorted
        rw [sortKeys_eq_self hkeys] at hv
        intro e he
        exact congrArg Prod.snd (List.map_inj_left.mp (hv.trans (List.map_id fields).symm) e he)
      rw [sorted hsorted, JsonValue.obj.injEq]
      clear h sorted hv hsorted
      induction hfs with
      | nil => rfl
      | @cons e f _ _ hef _ ihrest =>
          have hhead : f = e :=
            Prod.ext hef.1.symm (ih e (by simp) hef.2 (hfixed e (by simp)))
          rw [hhead, ihrest (fun e he => ih e (by simp [he])) fun e he => hfixed e (by simp [he])]

/-! ## Reading and writing related objects -/

theorem ReorderedFields.lookup {es gs : List (String × JsonValue)} (h : ReorderedFields es gs)
    (key : String) : Option.Rel Reordered (es.lookup key) (gs.lookup key) := by
  obtain ⟨fs, hfs, same, -⟩ := h
  rw [← same.lookup key]
  clear same
  induction hfs with
  | nil => exact .none
  | @cons e f _ _ hef _ ih =>
      obtain ⟨k, v⟩ := e
      obtain ⟨l, w⟩ := f
      obtain ⟨rfl : k = l, hvw⟩ := hef
      simp only [List.lookup_cons]
      cases key == k with
      | true => exact .some hvw
      | false => exact ih

theorem getElem?_rel {xs ys : List JsonValue} (h : List.Forall₂ Reordered xs ys) (i : Nat) :
    Option.Rel Reordered xs[i]? ys[i]? := by
  induction h generalizing i with
  | nil => exact .none
  | cons hxy _ ih =>
      cases i with
      | zero => exact .some hxy
      | succ i => exact ih i

/-- Iterating a sorted object meets the same keys, with related values. -/
theorem ReorderedFields.forall₂ {es gs : List (String × JsonValue)} (h : ReorderedFields es gs)
    (hsorted : KeysSorted es) : List.Forall₂ ReorderedField es gs := by
  obtain ⟨fs, hfs, -, sorted⟩ := h
  rwa [sorted hsorted]

theorem forall₂_set {es fs : List (String × JsonValue)} {v w : JsonValue} (key : String)
    (h : List.Forall₂ ReorderedField es fs) (hvw : Reordered v w) :
    List.Forall₂ ReorderedField (Fields.set key v es) (Fields.set key w fs) := by
  induction h with
  | nil => exact .cons ⟨rfl, hvw⟩ .nil
  | @cons e f es fs hef hrest ih =>
      obtain ⟨k, x⟩ := e
      obtain ⟨l, y⟩ := f
      obtain ⟨rfl : k = l, hxy⟩ := hef
      by_cases hk : k = key
      · simp only [Fields.set, if_pos hk]
        exact .cons ⟨rfl, hvw⟩ hrest
      · simp only [Fields.set, if_neg hk]
        exact .cons ⟨rfl, hxy⟩ ih

theorem keysSorted_of_set {key : String} {v : JsonValue} {es : List (String × JsonValue)}
    (h : KeysSorted (Fields.set key v es)) : KeysSorted es := by
  by_cases hmem : key ∈ keys es
  · rwa [KeysSorted, keys_set_of_mem hmem] at h
  · rw [KeysSorted, set_of_not_mem hmem, keys_append] at h
    exact (List.pairwise_append.mp h).1

theorem ReorderedFields.set {es gs : List (String × JsonValue)} {v w : JsonValue} (key : String)
    (h : ReorderedFields es gs) (hvw : Reordered v w) :
    ReorderedFields (Fields.set key v es) (Fields.set key w gs) := by
  obtain ⟨fs, hfs, same, sorted⟩ := h
  refine ⟨Fields.set key w fs, forall₂_set key hfs hvw, same.set key w, fun hset => ?_⟩
  rw [sorted (keysSorted_of_set hset)]

theorem ReorderedFields.wire_eq {es gs : List (String × JsonValue)} (h : ReorderedFields es gs) :
    wire (.obj gs) = wire (.obj es) :=
  (reordered_obj_obj.mpr h).wire_eq

end JsonValue
