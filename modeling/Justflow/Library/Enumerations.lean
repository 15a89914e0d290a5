import Mathlib.Algebra.GroupWithZero.Nat
import Justflow.Library.Json

/-!
# Documents with set-valued fields

The canonical text of a document lists the keys of an object in order, but the elements of a set
in the order in which the process enumerates them.  Documents of one shape have texts of one
length, and the same text exactly when their values agree and every set is enumerated to the same
array.
-/

/-- A document whose sets are listed as the process enumerates them, and whose records are listed
in the order of their keys. -/
inductive Document where
  | plain (value : JsonValue)
  | set (items : List JsonValue)
  | record (fields : List (String × Document))

namespace Document

open JsonValue

mutual

/-- The canonical value that is written. -/
def dump : Document → JsonValue
  | .plain value => value.wire
  | .set items => .arr (items.map wire)
  | .record fields => .obj (dumpFields fields)

def dumpFields : List (String × Document) → List (String × JsonValue)
  | [] => []
  | (key, document) :: rest => (key, document.dump) :: dumpFields rest

end

mutual

/-- Documents of one shape: sets hold the same elements, and values have texts of one length. -/
inductive Aligned : Document → Document → Prop where
  | plain {first second : JsonValue} (h : first.wire.text.length = second.wire.text.length) :
      Aligned (.plain first) (.plain second)
  | set {first second : List JsonValue} (h : first.Perm second) :
      Aligned (.set first) (.set second)
  | record {first second : List (String × Document)} (h : AlignedFields first second) :
      Aligned (.record first) (.record second)

inductive AlignedFields : List (String × Document) → List (String × Document) → Prop where
  | nil : AlignedFields [] []
  | cons (key : String) {first second : Document} {rest others : List (String × Document)}
      (same : Aligned first second) (later : AlignedFields rest others) :
      AlignedFields ((key, first) :: rest) ((key, second) :: others)

end

mutual

/-- The values have the same texts, and every set is enumerated to the same array. -/
def EnumeratedAlike : Document → Document → Prop
  | .plain first, .plain second => first.wire.text = second.wire.text
  | .set first, .set second =>
      (JsonValue.arr (first.map wire)).text = (JsonValue.arr (second.map wire)).text
  | .record first, .record second => FieldsAlike first second
  | _, _ => True

def FieldsAlike : List (String × Document) → List (String × Document) → Prop
  | (_, first) :: rest, (_, second) :: others =>
      EnumeratedAlike first second ∧ FieldsAlike rest others
  | _, _ => True

end

/-! ## Alignment -/

mutual

theorem Aligned.refl : (document : Document) → Aligned document document
  | .plain _ => .plain rfl
  | .set _ => .set (.refl _)
  | .record fields => .record (AlignedFields.refl fields)

theorem AlignedFields.refl : (fields : List (String × Document)) → AlignedFields fields fields
  | [] => .nil
  | (key, document) :: rest => .cons key (Aligned.refl document) (AlignedFields.refl rest)

end

theorem AlignedFields.append {first second : List (String × Document)} :
    {more others : List (String × Document)} → AlignedFields more others →
      AlignedFields first second → AlignedFields (more ++ first) (others ++ second)
  | _, _, .nil, aligned => aligned
  | _, _, .cons key same later, aligned => .cons key same (later.append aligned)

/-- Entries of one dict, under the same keys. -/
theorem AlignedFields.map {α : Type} {write : α → Document} {Same : α → α → Prop}
    (h : ∀ first second, Same first second → Aligned (write first) (write second)) :
    {first second : List (String × α)} →
      List.Forall₂ (fun one other => one.1 = other.1 ∧ Same one.2 other.2) first second →
        AlignedFields (first.map fun entry => (entry.1, write entry.2))
          (second.map fun entry => (entry.1, write entry.2))
  | _, _, .nil => .nil
  | (key, _) :: _, (_, _) :: _, .cons ⟨same, entry⟩ rest => by
      cases same
      exact .cons key (h _ _ entry) (AlignedFields.map h rest)

/-! ## Lengths -/

theorem append_eq_append_iff {a b c d : String} (h : a.length = c.length) :
    a ++ b = c ++ d ↔ a = c ∧ b = d := by
  constructor
  · intro same
    have lists := congrArg String.toList same
    rw [String.toList_append, String.toList_append] at lists
    obtain ⟨left, right⟩ := List.append_inj lists (by
      rw [String.length_toList, String.length_toList]
      exact h)
    exact ⟨String.toList_injective left, String.toList_injective right⟩
  · rintro ⟨rfl, rfl⟩
    rfl

theorem length_textItems (items : List JsonValue) :
    (textItems items).length = (items.map fun item => (text item).length).sum + (items.length - 1) := by
  induction items with
  | nil => rfl
  | cons item rest ih =>
      cases rest with
      | nil => simp [textItems]
      | cons next rest =>
          have comma : ",".length = 1 := by decide
          simp only [textItems, String.length_append, comma, ih, List.map_cons, List.sum_cons,
            List.length_cons]
          omega

theorem length_text_set {first second : List JsonValue} (h : first.Perm second) :
    (JsonValue.arr (first.map wire)).text.length =
      (JsonValue.arr (second.map wire)).text.length := by
  have moved := h.map wire
  have sums : ((first.map wire).map fun item => (text item).length).sum =
      ((second.map wire).map fun item => (text item).length).sum :=
    (moved.map _).sum_nat
  have sizes := moved.length_eq
  simp only [text, String.length_append, length_textItems, sums, sizes]

theorem textFields_cons (key : String) (value : JsonValue) (rest : List (String × JsonValue)) :
    textFields ((key, value) :: rest) =
      (quote key ++ ":") ++ (text value ++ (if rest = [] then "" else "," ++ textFields rest)) := by
  cases rest with
  | nil => simp [textFields, String.append_assoc]
  | cons entry rest => simp [textFields, String.append_assoc]

theorem dumpFields_eq_nil {first second : List (String × Document)}
    (same : AlignedFields first second) : dumpFields first = [] ↔ dumpFields second = [] := by
  cases same with
  | nil => rfl
  | cons key same later => simp [dumpFields]

mutual

/-- The texts of aligned documents are equally long, and equal exactly when the documents are
enumerated alike. -/
theorem Aligned.text_eq_iff : {first second : Document} → Aligned first second →
    first.dump.text.length = second.dump.text.length ∧
      (first.dump.text = second.dump.text ↔ EnumeratedAlike first second)
  | _, _, .plain h => by
      rw [dump, dump, EnumeratedAlike]
      exact ⟨h, Iff.rfl⟩
  | _, _, .set h => by
      rw [dump, dump, EnumeratedAlike]
      exact ⟨length_text_set h, Iff.rfl⟩
  | _, _, .record h => by
      obtain ⟨sizes, same⟩ := AlignedFields.text_eq_iff h
      rw [dump, dump, EnumeratedAlike, text, text, ← same]
      constructor
      · simp only [String.length_append, sizes]
      · rw [append_eq_append_iff (by simp only [String.length_append, sizes]),
          append_eq_append_iff rfl]
        simp

theorem AlignedFields.text_eq_iff : {first second : List (String × Document)} →
    AlignedFields first second →
      (textFields (dumpFields first)).length = (textFields (dumpFields second)).length ∧
        (textFields (dumpFields first) = textFields (dumpFields second) ↔
          FieldsAlike first second)
  | _, _, .nil => by
      simp [FieldsAlike]
  | _, _, @AlignedFields.cons key one other rest others same later => by
      obtain ⟨size, value⟩ := Aligned.text_eq_iff same
      obtain ⟨sizes, values⟩ := AlignedFields.text_eq_iff later
      have ends := dumpFields_eq_nil later
      rw [dumpFields, dumpFields, textFields_cons, textFields_cons, FieldsAlike, ← value, ← values]
      by_cases last : dumpFields rest = []
      · have lasts := ends.mp last
        constructor
        · simp only [String.length_append, size, last, lasts]
        · rw [append_eq_append_iff rfl, append_eq_append_iff size, last, lasts]
          simp
      · have more := fun h => last (ends.mpr h)
        rw [if_neg last, if_neg more]
        constructor
        · simp only [String.length_append, size, sizes]
        · rw [append_eq_append_iff rfl, append_eq_append_iff size, append_eq_append_iff rfl]
          simp

end

end Document
