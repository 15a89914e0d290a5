import Justflow.Library.JsonSize

/-!
# Indented text

The layout for readers puts every member on a line of its own, two blanks deeper than its
container.  Its text is the compact one with line breaks and blanks in it: its length is that of
the canonical text, whatever the order of the keys, and what the nesting adds.
-/

open Fields

namespace JsonValue

/-- A line break, and the blanks at the front of the next line. -/
def newline (depth : Nat) : String :=
  "\n" ++ String.join (List.replicate depth "  ")

mutual

/-- The text of a value in a line of some depth. -/
def pretty : JsonValue → Nat → String
  | .arr items, depth =>
      if items.isEmpty then "[]" else "[" ++ prettyItems items (depth + 1) ++ newline depth ++ "]"
  | .obj fields, depth =>
      if fields.isEmpty then "\x7b\x7d"
      else "\x7b" ++ prettyFields fields (depth + 1) ++ newline depth ++ "\x7d"
  | v, _ => text v

def prettyItems : List JsonValue → Nat → String
  | [], _ => ""
  | [v], depth => newline depth ++ pretty v depth
  | v :: w :: rest, depth =>
      newline depth ++ pretty v depth ++ "," ++ prettyItems (w :: rest) depth

def prettyFields : List (String × JsonValue) → Nat → String
  | [], _ => ""
  | [(k, v)], depth => newline depth ++ quote k ++ ": " ++ pretty v depth
  | (k, v) :: e :: rest, depth =>
      newline depth ++ quote k ++ ": " ++ pretty v depth ++ "," ++ prettyFields (e :: rest) depth

end

mutual

/-- The bytes of the line breaks and blanks. -/
def layoutBytes : JsonValue → Nat → Nat
  | .arr items, depth =>
      if items.isEmpty then 0 else itemsLayout items (depth + 1) + (2 * depth + 1)
  | .obj fields, depth =>
      if fields.isEmpty then 0 else fieldsLayout fields (depth + 1) + (2 * depth + 1)
  | _, _ => 0

def itemsLayout : List JsonValue → Nat → Nat
  | [], _ => 0
  | v :: rest, depth => (2 * depth + 1) + layoutBytes v depth + itemsLayout rest depth

def fieldsLayout : List (String × JsonValue) → Nat → Nat
  | [], _ => 0
  | (_, v) :: rest, depth => (2 * depth + 2) + layoutBytes v depth + fieldsLayout rest depth

end

theorem utf8ByteSize_newline (depth : Nat) : (newline depth).utf8ByteSize = 2 * depth + 1 := by
  have hbreak : "\n".utf8ByteSize = 1 := by decide
  have hblanks : "  ".utf8ByteSize = 2 := by decide
  rw [newline, String.utf8ByteSize_append, utf8ByteSize_join, List.map_replicate, hbreak, hblanks,
    List.sum_replicate_nat]
  omega

/-- The bytes of items, with the commas between them. -/
theorem utf8ByteSize_textItems {items : List JsonValue} (h : items ≠ []) :
    (textItems items).utf8ByteSize + 1 =
      (items.map fun v => (text v).utf8ByteSize + 1).sum := by
  have hcomma : ",".utf8ByteSize = 1 := by decide
  induction items with
  | nil => exact absurd rfl h
  | cons v rest ih =>
      cases rest with
      | nil => simp [textItems]
      | cons w rest =>
          have tail := ih (List.cons_ne_nil _ _)
          simp only [textItems, String.utf8ByteSize_append, hcomma, List.map_cons,
            List.sum_cons] at tail ⊢
          omega

/-- The bytes of fields, with the colons in them and the commas between them. -/
theorem utf8ByteSize_textFields {fields : List (String × JsonValue)} (h : fields ≠ []) :
    (textFields fields).utf8ByteSize + 1 =
      (fields.map fun e => (quote e.1).utf8ByteSize + (text e.2).utf8ByteSize + 2).sum := by
  have hcomma : ",".utf8ByteSize = 1 := by decide
  have hcolon : ":".utf8ByteSize = 1 := by decide
  induction fields with
  | nil => exact absurd rfl h
  | cons e rest ih =>
      obtain ⟨k, v⟩ := e
      cases rest with
      | nil =>
          simp only [textFields, String.utf8ByteSize_append, hcolon, List.map_cons, List.map_nil,
            List.sum_cons, List.sum_nil]
          omega
      | cons f rest =>
          have tail := ih (List.cons_ne_nil _ _)
          simp only [textFields, String.utf8ByteSize_append, hcomma, hcolon, List.map_cons,
            List.sum_cons] at tail ⊢
          omega

/-- The order of the keys does not change the length of the text. -/
theorem canonicalBytes_eq (v : JsonValue) : canonicalBytes v = (text v).utf8ByteSize := by
  rw [canonicalBytes]
  induction v with
  | arr items ih =>
      rw [wire_arr, text, text]
      cases items with
      | nil => rfl
      | cons v rest =>
          have wired := utf8ByteSize_textItems (List.cons_ne_nil (wire v) (rest.map wire))
          have plain := utf8ByteSize_textItems (List.cons_ne_nil v rest)
          rw [← List.map_cons, List.map_map] at wired
          have same : (v :: rest).map ((fun v => (text v).utf8ByteSize + 1) ∘ wire) =
              (v :: rest).map fun v => (text v).utf8ByteSize + 1 :=
            List.map_congr_left fun item mem => congrArg (· + 1) (ih item mem)
          rw [same, ← plain] at wired
          simp only [String.utf8ByteSize_append]
          omega
  | obj fields ih =>
      rw [wire_obj, text, text]
      cases fields with
      | nil => rfl
      | cons e rest =>
          have hperm : (sortKeys ((e :: rest).map fun e => (e.1, wire e.2))).Perm
              ((e :: rest).map fun e => (e.1, wire e.2)) := List.perm_insertionSort _ _
          have nonempty : sortKeys ((e :: rest).map fun e => (e.1, wire e.2)) ≠ [] := by
            intro empty
            rw [empty] at hperm
            cases hperm.nil_eq
          have wired := utf8ByteSize_textFields nonempty
          have plain := utf8ByteSize_textFields (List.cons_ne_nil e rest)
          rw [(hperm.map _).sum_nat, List.map_map] at wired
          have same : (e :: rest).map ((fun e : String × JsonValue => (quote e.1).utf8ByteSize +
              (text e.2).utf8ByteSize + 2) ∘ fun e => (e.1, wire e.2)) =
              (e :: rest).map fun e => (quote e.1).utf8ByteSize + (text e.2).utf8ByteSize + 2 :=
            List.map_congr_left fun field mem => by simp only [Function.comp_def, ih field mem]
          rw [same, ← plain] at wired
          simp only [String.utf8ByteSize_append]
          omega
  | _ => rfl

/-- The bytes of an object that has fields. -/
theorem canonicalBytes_obj {fields : List (String × JsonValue)} (h : fields ≠ []) :
    canonicalBytes (.obj fields) + 1 =
      (fields.map fun e => (quote e.1).utf8ByteSize + canonicalBytes e.2 + 2).sum + 2 := by
  have hopen : "\x7b".utf8ByteSize = 1 := by decide
  have hclose : "\x7d".utf8ByteSize = 1 := by decide
  have hfields := utf8ByteSize_textFields h
  simp only [canonicalBytes_eq, text, String.utf8ByteSize_append, hopen, hclose] at hfields ⊢
  omega

/-- The indented items are as long as the compact ones and what the layout adds. -/
theorem utf8ByteSize_prettyItems {items : List JsonValue} (depth : Nat)
    (h : ∀ v ∈ items, (pretty v depth).utf8ByteSize =
      (text v).utf8ByteSize + layoutBytes v depth) :
    (prettyItems items depth).utf8ByteSize =
      (textItems items).utf8ByteSize + itemsLayout items depth := by
  have hcomma : ",".utf8ByteSize = 1 := by decide
  induction items with
  | nil => rfl
  | cons v rest ih =>
      have first := h v List.mem_cons_self
      have others := ih fun w hw => h w (List.mem_cons_of_mem _ hw)
      cases rest with
      | nil =>
          simp only [prettyItems, textItems, itemsLayout, String.utf8ByteSize_append,
            utf8ByteSize_newline, first]
          omega
      | cons w rest =>
          simp only [prettyItems, textItems, itemsLayout, String.utf8ByteSize_append,
            utf8ByteSize_newline, hcomma, first] at others ⊢
          omega

theorem utf8ByteSize_prettyFields {fields : List (String × JsonValue)} (depth : Nat)
    (h : ∀ e ∈ fields, (pretty e.2 depth).utf8ByteSize =
      (text e.2).utf8ByteSize + layoutBytes e.2 depth) :
    (prettyFields fields depth).utf8ByteSize =
      (textFields fields).utf8ByteSize + fieldsLayout fields depth := by
  have hcomma : ",".utf8ByteSize = 1 := by decide
  have hcolon : ":".utf8ByteSize = 1 := by decide
  have hspaced : ": ".utf8ByteSize = 2 := by decide
  induction fields with
  | nil => rfl
  | cons e rest ih =>
      obtain ⟨k, v⟩ := e
      have first := h (k, v) List.mem_cons_self
      have others := ih fun w hw => h w (List.mem_cons_of_mem _ hw)
      cases rest with
      | nil =>
          simp only [prettyFields, textFields, fieldsLayout, String.utf8ByteSize_append,
            utf8ByteSize_newline, hcolon, hspaced] at first ⊢
          omega
      | cons f rest =>
          simp only [prettyFields, textFields, fieldsLayout, String.utf8ByteSize_append,
            utf8ByteSize_newline, hcomma, hcolon, hspaced] at first others ⊢
          omega

theorem utf8ByteSize_pretty (v : JsonValue) (depth : Nat) :
    (pretty v depth).utf8ByteSize = (text v).utf8ByteSize + layoutBytes v depth := by
  induction v generalizing depth with
  | arr items ih =>
      cases items with
      | nil => rfl
      | cons v rest =>
          have hitems := utf8ByteSize_prettyItems (depth + 1)
            fun w hw => ih w hw (depth + 1)
          rw [pretty, layoutBytes, text]
          simp only [List.isEmpty_cons, Bool.false_eq_true, if_false, String.utf8ByteSize_append,
            utf8ByteSize_newline, hitems]
          omega
  | obj fields ih =>
      cases fields with
      | nil => rfl
      | cons e rest =>
          have hfields := utf8ByteSize_prettyFields (depth + 1)
            fun w hw => ih w hw (depth + 1)
          rw [pretty, layoutBytes, text]
          simp only [List.isEmpty_cons, Bool.false_eq_true, if_false, String.utf8ByteSize_append,
            utf8ByteSize_newline, hfields]
          omega
  | _ => rfl

/-- The indented text takes the bytes of the canonical one and of its layout. -/
theorem utf8ByteSize_pretty_eq (v : JsonValue) :
    (pretty v 0).utf8ByteSize = canonicalBytes v + layoutBytes v 0 := by
  rw [utf8ByteSize_pretty, canonicalBytes_eq]

end JsonValue
