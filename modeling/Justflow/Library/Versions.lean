import Justflow.Library.Processes

/-!
# Versioned records

A record that is created once and then only replaced by a compare-and-swap on its version: what the
writer built the new record from is some version that it has read before.  The versions of such a
record are unique over a whole history, so the record that is replaced is the one the new record was
built from, and a record that nothing may follow stays for good.
-/

namespace Service

/-- A record in the world, and which records it may be created and followed with. -/
structure Versioned (World R : Type) where
  read : World → Option R
  version : R → Int
  Opens : List World → R → Prop
  Follows : List World → R → R → Prop

namespace Versioned

variable {World R : Type} (cell : Versioned World R)

/-- The world has had this record. -/
def Recorded (history : List World) (record : R) : Prop :=
  Once (fun world => cell.read world = some record) history

/-- A creation, or a replacement of the version that some record was read at. -/
inductive Step (history : List World) : Option R → Option R → Prop where
  | same {held : Option R} : Step history held held
  | created {next : R} (opens : cell.Opens history next) : Step history none (some next)
  | replaced {base current next : R} (recorded : cell.Recorded history base)
      (swapped : cell.version base = cell.version current)
      (follows : cell.Follows history base next)
      (bumped : cell.version next = cell.version base + 1) : Step history (some current) (some next)

/-- No record may follow. -/
def Final (record : R) : Prop :=
  ∀ history next, ¬ cell.Follows history record next

/-- Where a record of a history comes from. -/
def Originates (history : List World) (record : R) : Prop :=
  ∃ earlier, earlier <:+ history ∧ (cell.Opens earlier record ∨
    ∃ base, cell.Recorded earlier base ∧ cell.Follows earlier base record ∧
      cell.version record = cell.version base + 1)

structure Consistent (history : List World) : Prop where
  current : ∀ {record}, cell.Recorded history record → ∀ world ∈ history.head?,
    ∃ now, cell.read world = some now ∧ cell.version record ≤ cell.version now
  unique : ∀ {first second}, cell.Recorded history first → cell.Recorded history second →
    cell.version first = cell.version second → first = second
  origin : ∀ {record}, cell.Recorded history record → cell.Originates history record
  final : ∀ {record}, cell.Recorded history record → cell.Final record →
    ∀ world ∈ history.head?, cell.read world = some record

variable {cell} {world after start : World} {past history : List World}

theorem recorded_cons {record : R} :
    cell.Recorded (after :: history) record ↔
      cell.read after = some record ∨ cell.Recorded history record := by
  simp [Recorded, Once]

theorem Recorded.later {later : List World} {record : R} (recorded : cell.Recorded history record)
    (grows : history <:+ later) : cell.Recorded later record :=
  Once.later recorded grows

theorem Originates.later {later : List World} {record : R}
    (originates : cell.Originates history record) (grows : history <:+ later) :
    cell.Originates later record := by
  obtain ⟨earlier, suffix, origin⟩ := originates
  exact ⟨earlier, suffix.trans grows, origin⟩

theorem consistent_start (absent : cell.read start = none) : cell.Consistent [start] where
  current recorded := by simp [Recorded, Once, absent] at recorded
  unique recorded := by simp [Recorded, Once, absent] at recorded
  origin recorded := by simp [Recorded, Once, absent] at recorded
  final recorded := by simp [Recorded, Once, absent] at recorded

/-- The record that a replacement replaces is the one it was built from. -/
theorem Consistent.base_eq (consistent : cell.Consistent (world :: past)) {base current : R}
    (held : cell.read world = some current) (recorded : cell.Recorded (world :: past) base)
    (swapped : cell.version base = cell.version current) : base = current :=
  consistent.unique recorded (.now held) swapped

/-- A record that is new has a version of its own. -/
theorem Consistent.fresh (consistent : cell.Consistent (world :: past))
    (step : cell.Step (world :: past) (cell.read world) (cell.read after)) {record older : R}
    (held : cell.read after = some record) (recorded : cell.Recorded (world :: past) older)
    (same : cell.version older = cell.version record) :
    cell.read world = some record := by
  obtain ⟨now, present, newer⟩ := consistent.current recorded world rfl
  rw [held] at step
  generalize before : cell.read world = earlier at step
  cases step with
  | same => rfl
  | created opens =>
      rw [present] at before
      cases before
  | replaced _ swapped _ bumped =>
      rw [present] at before
      cases before
      omega

theorem Consistent.next (consistent : cell.Consistent (world :: past))
    (step : cell.Step (world :: past) (cell.read world) (cell.read after)) :
    cell.Consistent (after :: world :: past) := by
  have grows : world :: past <:+ after :: world :: past := List.suffix_cons _ _
  constructor
  case current =>
    intro record recorded latest hlatest
    cases hlatest
    rcases recorded_cons.mp recorded with held | recorded
    · exact ⟨record, held, Int.le_refl _⟩
    · obtain ⟨now, present, newer⟩ := consistent.current recorded world rfl
      rw [present] at step
      generalize cell.read after = found at step
      cases step with
      | same => exact ⟨now, rfl, newer⟩
      | replaced _ swapped _ bumped => exact ⟨_, rfl, by omega⟩
  case unique =>
    intro first second hfirst hsecond same
    rcases recorded_cons.mp hfirst with held | hfirst <;>
      rcases recorded_cons.mp hsecond with held' | hsecond
    · exact Option.some.inj (held.symm.trans held')
    · exact consistent.unique (.now (consistent.fresh step held hsecond same.symm)) hsecond same
    · exact consistent.unique hfirst (.now (consistent.fresh step held' hfirst same)) same
    · exact consistent.unique hfirst hsecond same
  case origin =>
    intro record recorded
    rcases recorded_cons.mp recorded with held | recorded
    · rw [held] at step
      generalize before : cell.read world = earlier at step
      cases step with
      | same => exact (consistent.origin (.now before)).later grows
      | created opens => exact ⟨world :: past, grows, .inl opens⟩
      | replaced recorded _ follows bumped =>
          exact ⟨world :: past, grows, .inr ⟨_, recorded, follows, bumped⟩⟩
    · exact (consistent.origin recorded).later grows
  case final =>
    intro record recorded final latest hlatest
    cases hlatest
    rcases recorded_cons.mp recorded with held | recorded
    · exact held
    · have present := consistent.final recorded final world rfl
      rw [present] at step
      generalize cell.read after = found at step
      cases step with
      | same => rfl
      | replaced hbase swapped follows _ =>
          obtain rfl := consistent.base_eq present hbase swapped
          exact absurd follows (final _ _)

/-- Every history whose moves are steps of the record is consistent. -/
theorem consistent_of_lawful {Move : List World → World → Prop}
    (lawful : Lawful Move start history) (absent : cell.read start = none)
    (step : ∀ world past next, Move (world :: past) next →
      cell.Step (world :: past) (cell.read world) (cell.read next)) : cell.Consistent history :=
  lawful.induct (consistent_start absent) fun world past next _ consistent move =>
    consistent.next (step world past next move)

end Versioned

end Service
