import Justflow.Library.Json

/-!
# Shared containers

The containers of a host program are objects on a heap that variables refer to, and an assignment
to a member is seen through every reference.  `Shows` says what an item reads as; `Reaches` says
which containers it depends on.  An assignment to a container leaves everything alone that does
not reach it, and a copy reaches new containers only.
-/

namespace Objects

/-- What a variable or a member of a container holds. -/
inductive Item where
  | atom (value : JsonValue)
  | ref (address : Nat)

inductive Cell where
  | object (fields : List (String × Item))
  | array (items : List Item)

def Cell.items : Cell → List Item
  | .object fields => fields.map fun field => field.2
  | .array items => items

/-- The containers by their addresses. -/
abbrev Heap := List Cell

inductive Reaches (heap : Heap) : Item → Nat → Prop
  | here (address : Nat) : Reaches heap (.ref address) address
  | inside {address target : Nat} {cell : Cell} {item : Item} (found : heap[address]? = some cell)
      (mem : item ∈ cell.items) (rest : Reaches heap item target) :
      Reaches heap (.ref address) target

mutual

/-- The item reads as the value. -/
def Shows (heap : Heap) : JsonValue → Item → Prop
  | .arr values, item => ∃ address items, item = .ref address ∧
      heap[address]? = some (.array items) ∧ ShowsItems heap values items
  | .obj fields, item => ∃ address cell, item = .ref address ∧
      heap[address]? = some (.object cell) ∧ ShowsFields heap fields cell
  | .null, item => item = .atom .null
  | .bool value, item => item = .atom (.bool value)
  | .int value, item => item = .atom (.int value)
  | .float value, item => item = .atom (.float value)
  | .str value, item => item = .atom (.str value)

def ShowsItems (heap : Heap) : List JsonValue → List Item → Prop
  | [], items => items = []
  | value :: values, items => ∃ item rest, items = item :: rest ∧ Shows heap value item ∧
      ShowsItems heap values rest

def ShowsFields (heap : Heap) : List (String × JsonValue) → List (String × Item) → Prop
  | [], fields => fields = []
  | (key, value) :: values, fields => ∃ item rest, fields = (key, item) :: rest ∧
      Shows heap value item ∧ ShowsFields heap values rest

end

mutual

/-- A copy of a value, with new containers. -/
def copy (heap : Heap) : JsonValue → Item × Heap
  | .arr values =>
      let copied := copyItems heap values
      (.ref copied.2.length, copied.2 ++ [.array copied.1])
  | .obj fields =>
      let copied := copyFields heap fields
      (.ref copied.2.length, copied.2 ++ [.object copied.1])
  | .null => (.atom .null, heap)
  | .bool value => (.atom (.bool value), heap)
  | .int value => (.atom (.int value), heap)
  | .float value => (.atom (.float value), heap)
  | .str value => (.atom (.str value), heap)

def copyItems (heap : Heap) : List JsonValue → List Item × Heap
  | [] => ([], heap)
  | value :: values =>
      let first := copy heap value
      let rest := copyItems first.2 values
      (first.1 :: rest.1, rest.2)

def copyFields (heap : Heap) : List (String × JsonValue) → List (String × Item) × Heap
  | [] => ([], heap)
  | (key, value) :: fields =>
      let first := copy heap value
      let rest := copyFields first.2 fields
      ((key, first.1) :: rest.1, rest.2)

end

/-! ## Agreement -/

variable {heap heap' : Heap} {item : Item}

/-- Two heaps have the same containers within reach of an item. -/
def Agree (heap heap' : Heap) (item : Item) : Prop :=
  ∀ address, Reaches heap item address → heap'[address]? = heap[address]?

theorem Agree.member (h : Agree heap heap' item) {address : Nat} {cell : Cell} {inner : Item}
    (same : item = .ref address) (found : heap[address]? = some cell)
    (mem : inner ∈ cell.items) : Agree heap heap' inner := by
  subst same
  exact fun target reached => h target (.inside found mem reached)

/-- What is reached in the second heap is reached in the first one. -/
theorem Agree.reaches (h : Agree heap heap' item) {target : Nat}
    (reached : Reaches heap' item target) : Reaches heap item target := by
  induction reached with
  | here address => exact .here address
  | @inside address target cell inner found mem rest ih =>
      rw [h address (.here address)] at found
      exact .inside found mem (ih (h.member rfl found mem))

theorem showsItems_mono {values : List JsonValue} {items : List Item}
    (each : ∀ value ∈ values, ∀ inner ∈ items, Shows heap value inner → Shows heap' value inner)
    (h : ShowsItems heap values items) : ShowsItems heap' values items := by
  induction values generalizing items with
  | nil => simpa only [ShowsItems] using h
  | cons value values ih =>
      simp only [ShowsItems] at h ⊢
      obtain ⟨first, rest, rfl, shown, shows⟩ := h
      refine ⟨first, rest, rfl, each value (by simp) first (by simp) shown, ih ?_ shows⟩
      exact fun other hother inner mem => each other (by simp [hother]) inner (by simp [mem])

theorem showsFields_mono {values : List (String × JsonValue)} {fields : List (String × Item)}
    (each : ∀ entry ∈ values, ∀ field ∈ fields, Shows heap entry.2 field.2 →
      Shows heap' entry.2 field.2)
    (h : ShowsFields heap values fields) : ShowsFields heap' values fields := by
  induction values generalizing fields with
  | nil => simpa only [ShowsFields] using h
  | cons entry values ih =>
      simp only [ShowsFields] at h ⊢
      obtain ⟨first, rest, rfl, shown, shows⟩ := h
      refine ⟨first, rest, rfl, each entry (by simp) (entry.1, first) (by simp) shown, ih ?_ shows⟩
      exact fun other hother field mem => each other (by simp [hother]) field (by simp [mem])

/-- An item reads the same where its containers are the same. -/
theorem Agree.shows {value : JsonValue} (agree : Agree heap heap' item)
    (h : Shows heap value item) : Shows heap' value item := by
  induction value generalizing item with
  | arr values ih =>
      simp only [Shows] at h ⊢
      obtain ⟨address, items, rfl, found, shows⟩ := h
      refine ⟨address, items, rfl, (agree address (.here address)).trans found, ?_⟩
      exact showsItems_mono (fun value hvalue inner mem shown =>
        ih value hvalue (agree.member rfl found mem) shown) shows
  | obj fields ih =>
      simp only [Shows] at h ⊢
      obtain ⟨address, cell, rfl, found, shows⟩ := h
      refine ⟨address, cell, rfl, (agree address (.here address)).trans found, ?_⟩
      exact showsFields_mono (fun entry hentry field mem shown =>
        ih entry hentry (agree.member rfl found (List.mem_map_of_mem mem)) shown) shows
  | _ => simpa only [Shows] using h

/-- An item within the heap reaches no container beyond it. -/
def InHeap (heap : Heap) (item : Item) : Prop :=
  ∀ address, Reaches heap item address → address < heap.length

theorem InHeap.agree (h : InHeap heap item) (more : Heap) : Agree heap (heap ++ more) item :=
  fun address reached => List.getElem?_append_left (h address reached)

theorem InHeap.append (h : InHeap heap item) (more : Heap) : InHeap (heap ++ more) item := by
  intro address reached
  have below := h address ((h.agree more).reaches reached)
  rw [List.length_append]
  omega

/-- An assignment to a container is not seen from where it is not reached. -/
theorem agree_set {address : Nat} (apart : ¬ Reaches heap item address) (cell : Cell) :
    Agree heap (heap.set address cell) item := by
  intro target reached
  refine List.getElem?_set_ne ?_
  rintro rfl
  exact apart reached

/-- What is reached after an assignment was reached before it, or through the assigned item. -/
theorem Reaches.of_set {address target : Nat} {cell changed : Cell} {root : Item}
    (found : heap[address]? = some cell)
    (members : ∀ inner ∈ changed.items, inner = item ∨ inner ∈ cell.items)
    (h : Reaches (heap.set address changed) root target) :
    Reaches heap root target ∨ Reaches heap item target := by
  have bound := (List.getElem?_eq_some_iff.mp found).1
  induction h with
  | here other => exact .inl (.here other)
  | @inside other target inside inner here mem rest ih =>
      by_cases same : other = address
      · subst same
        rw [List.getElem?_set_self bound, Option.some.injEq] at here
        subst here
        rcases members inner mem with rfl | old
        · exact .inr (ih.elim id id)
        · exact ih.imp_left fun reached => .inside found old reached
      · rw [List.getElem?_set_ne (Ne.symm same)] at here
        exact ih.imp_left fun reached => .inside here mem reached

/-! ## Copies -/

/-- An item made between two heaps: it reaches new containers only. -/
structure Fresh (heap : Heap) (item : Item) (heap' : Heap) : Prop where
  extends_heap : ∃ more, heap' = heap ++ more
  new : ∀ address, Reaches heap' item address → heap.length ≤ address
  within : InHeap heap' item

theorem not_reaches_atom {value : JsonValue} {address : Nat} :
    ¬ Reaches heap (.atom value) address := by
  rintro ⟨⟩

theorem fresh_atom (heap : Heap) (value : JsonValue) : Fresh heap (.atom value) heap where
  extends_heap := ⟨[], by simp⟩
  new := fun _ reached => absurd reached not_reaches_atom
  within := fun _ reached => absurd reached not_reaches_atom

/-- An older item stays new where the heap grows on. -/
theorem Fresh.grow (h : Fresh heap item heap') (more : Heap) :
    Fresh heap item (heap' ++ more) where
  extends_heap := by
    obtain ⟨others, rfl⟩ := h.extends_heap
    exact ⟨others ++ more, by simp⟩
  new := fun address reached => h.new address ((h.within.agree more).reaches reached)
  within := h.within.append more

/-- What is new since a later heap is new since an earlier one. -/
theorem Fresh.since {earlier : Heap} (h : Fresh heap item heap')
    (grows : ∃ more, heap = earlier ++ more) : Fresh earlier item heap' where
  extends_heap := by
    obtain ⟨more, rfl⟩ := grows
    obtain ⟨others, rfl⟩ := h.extends_heap
    exact ⟨more ++ others, by simp⟩
  new := by
    intro address reached
    obtain ⟨more, rfl⟩ := grows
    have above := h.new address reached
    rw [List.length_append] at above
    omega
  within := h.within

/-- A new container with new members. -/
theorem Fresh.container {cell : Cell} (grows : ∃ more, heap' = heap ++ more)
    (members : ∀ inner ∈ cell.items, Fresh heap inner heap') :
    Fresh heap (.ref heap'.length) (heap' ++ [cell]) where
  extends_heap := by
    obtain ⟨more, rfl⟩ := grows
    exact ⟨more ++ [cell], by simp⟩
  new := by
    obtain ⟨more, rfl⟩ := grows
    intro address reached
    cases reached with
    | here => simp
    | inside found mem rest =>
        rw [List.getElem?_concat_length, Option.some.injEq] at found
        subst found
        exact ((members _ mem).grow [cell]).new address rest
  within := by
    intro address reached
    cases reached with
    | here => simp
    | inside found mem rest =>
        rw [List.getElem?_concat_length, Option.some.injEq] at found
        subst found
        exact ((members _ mem).grow [cell]).within address rest

/-- A copy of a value: it is new and reads as the value. -/
structure Copies (heap : Heap) (value : JsonValue) (item : Item) (heap' : Heap) : Prop where
  fresh : Fresh heap item heap'
  shows : Shows heap' value item

theorem copyItems_spec {values : List JsonValue}
    (each : ∀ value ∈ values, ∀ heap, Copies heap value (copy heap value).1 (copy heap value).2)
    (heap : Heap) : (∃ more, (copyItems heap values).2 = heap ++ more) ∧
      (∀ inner ∈ (copyItems heap values).1, Fresh heap inner (copyItems heap values).2) ∧
      ShowsItems (copyItems heap values).2 values (copyItems heap values).1 := by
  induction values generalizing heap with
  | nil => exact ⟨⟨[], by simp [copyItems]⟩, by simp [copyItems], by simp [copyItems, ShowsItems]⟩
  | cons value values ih =>
      obtain ⟨fresh, shows⟩ := each value (by simp) heap
      obtain ⟨⟨more, grows⟩, members, rest⟩ :=
        ih (fun v hv => each v (by simp [hv])) (copy heap value).2
      have grown := fresh.grow more
      rw [← grows] at grown
      simp only [copyItems]
      refine ⟨grown.extends_heap, ?_, ?_⟩
      · intro inner mem
        rcases List.mem_cons.mp mem with rfl | mem
        · exact grown
        · exact (members inner mem).since fresh.extends_heap
      · simp only [ShowsItems]
        refine ⟨_, _, rfl, ?_, rest⟩
        rw [grows]
        exact (fresh.within.agree more).shows shows

theorem copyFields_spec {fields : List (String × JsonValue)}
    (each : ∀ entry ∈ fields, ∀ heap,
      Copies heap entry.2 (copy heap entry.2).1 (copy heap entry.2).2)
    (heap : Heap) : (∃ more, (copyFields heap fields).2 = heap ++ more) ∧
      (∀ field ∈ (copyFields heap fields).1, Fresh heap field.2 (copyFields heap fields).2) ∧
      ShowsFields (copyFields heap fields).2 fields (copyFields heap fields).1 := by
  induction fields generalizing heap with
  | nil =>
      exact ⟨⟨[], by simp [copyFields]⟩, by simp [copyFields], by simp [copyFields, ShowsFields]⟩
  | cons entry fields ih =>
      obtain ⟨fresh, shows⟩ := each entry (by simp) heap
      obtain ⟨⟨more, grows⟩, members, rest⟩ :=
        ih (fun e he => each e (by simp [he])) (copy heap entry.2).2
      have grown := fresh.grow more
      rw [← grows] at grown
      simp only [copyFields]
      refine ⟨grown.extends_heap, ?_, ?_⟩
      · intro field mem
        rcases List.mem_cons.mp mem with rfl | mem
        · exact grown
        · exact (members field mem).since fresh.extends_heap
      · simp only [ShowsFields]
        refine ⟨_, _, rfl, ?_, rest⟩
        rw [grows]
        exact (fresh.within.agree more).shows shows

theorem copy_spec (value : JsonValue) (heap : Heap) :
    Copies heap value (copy heap value).1 (copy heap value).2 := by
  induction value generalizing heap with
  | arr values ih =>
      obtain ⟨grows, members, shows⟩ := copyItems_spec ih heap
      rw [copy]
      refine ⟨.container grows members, ?_⟩
      simp only [Shows]
      refine ⟨_, _, rfl, List.getElem?_concat_length, ?_⟩
      exact showsItems_mono (fun _ _ inner mem shown =>
        ((members inner mem).within.agree _).shows shown) shows
  | obj fields ih =>
      obtain ⟨grows, members, shows⟩ := copyFields_spec ih heap
      have inner : ∀ item ∈ (Cell.object (copyFields heap fields).1).items,
          Fresh heap item (copyFields heap fields).2 := by
        intro item mem
        obtain ⟨field, hfield, rfl⟩ := List.mem_map.mp mem
        exact members field hfield
      rw [copy]
      refine ⟨.container grows inner, ?_⟩
      simp only [Shows]
      refine ⟨_, _, rfl, List.getElem?_concat_length, ?_⟩
      exact showsFields_mono (fun _ _ field mem shown =>
        ((members field mem).within.agree _).shows shown) shows
  | _ =>
      refine ⟨?_, ?_⟩
      · simpa only [copy] using fresh_atom heap _
      · simp only [copy, Shows]

end Objects
