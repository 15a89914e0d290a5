import Mathlib.Algebra.GroupWithZero.Nat
import Mathlib.Data.List.Basic
import Mathlib.Algebra.Order.BigOperators.Group.List
import Mathlib.Logic.Relation
import Mathlib.Tactic.Common

/-!
# Pools of tasks

A loop runs its items in chunks.  The tasks of a chunk wait on a semaphore, run in any order, and
are gathered when all of them have ended.  The first outcome that stops the loop, or a cancellation
from outside, cancels the tasks that have not ended, and the loop is left when none is left over.
In every order at most as many tasks as the semaphore admits are in flight, none is in flight when
the loop is left, and what is gathered is what a loop over one item at a time records.
-/

universe u v w

inductive TaskState (ω : Type v) where
  | waiting
  | inFlight
  | ended (outcome : ω)
  | cancelled

namespace TaskState

variable {ω : Type v}

def IsInFlight : TaskState ω → Bool
  | inFlight => true
  | _ => false

/-- The task has ended or was cancelled. -/
def IsDone : TaskState ω → Bool
  | ended _ | cancelled => true
  | _ => false

/-- How many transitions are left at most. -/
def left : TaskState ω → Nat
  | waiting => 2
  | inFlight => 1
  | _ => 0

/-- The outcome of a task that has ended. -/
def outcome : TaskState ω → Option ω
  | ended outcome => some outcome
  | _ => none

end TaskState

/-- What the owner of the tasks does: it gathers them, or it cancels them and waits, because of an
outcome or from outside. -/
inductive PoolPhase (ω : Type v) where
  | gathering
  | cancelling (reason : Option ω)

structure TaskPool (κ : Type u) (ω : Type v) where
  tasks : List (κ × TaskState ω)
  phase : PoolPhase ω

namespace TaskPool

variable {κ : Type u} {ω : Type v} (outcome : κ → ω) (stops : ω → Bool) (bound : Nat)

def inFlight (self : TaskPool κ ω) : Nat :=
  self.tasks.countP fun task => task.2.IsInFlight

def fresh (keys : List κ) : TaskPool κ ω where
  tasks := keys.map fun key => (key, .waiting)
  phase := .gathering

/-- Every task is done. -/
def Done (self : TaskPool κ ω) : Prop :=
  ∀ task ∈ self.tasks, task.2.IsDone = true

inductive Step : TaskPool κ ω → TaskPool κ ω → Prop
  /-- A task gets the semaphore; its cancellation may still be under way. -/
  | start {before after : List (κ × TaskState ω)} {key : κ} {phase : PoolPhase ω}
      (free : inFlight ⟨before ++ (key, .waiting) :: after, phase⟩ < bound) :
      Step ⟨before ++ (key, .waiting) :: after, phase⟩
        ⟨before ++ (key, .inFlight) :: after, phase⟩
  /-- A task ends with an outcome that is gathered. -/
  | finish {before after : List (κ × TaskState ω)} {key : κ}
      (goes : stops (outcome key) = false) :
      Step ⟨before ++ (key, .inFlight) :: after, .gathering⟩
        ⟨before ++ (key, .ended (outcome key)) :: after, .gathering⟩
  /-- A task ends with an outcome that stops the loop. -/
  | stop {before after : List (κ × TaskState ω)} {key : κ}
      (halts : stops (outcome key) = true) :
      Step ⟨before ++ (key, .inFlight) :: after, .gathering⟩
        ⟨before ++ (key, .ended (outcome key)) :: after, .cancelling (some (outcome key))⟩
  /-- The loop is cancelled from outside. -/
  | interrupt {tasks : List (κ × TaskState ω)} :
      Step ⟨tasks, .gathering⟩ ⟨tasks, .cancelling none⟩
  /-- A task that has not ended is cancelled. -/
  | cancel {before after : List (κ × TaskState ω)} {key : κ} {state : TaskState ω}
      {reason : Option ω} (undone : state.IsDone = false) :
      Step ⟨before ++ (key, state) :: after, .cancelling reason⟩
        ⟨before ++ (key, .cancelled) :: after, .cancelling reason⟩
  /-- A task ends before its cancellation reaches it. -/
  | settle {before after : List (κ × TaskState ω)} {key : κ} {reason : Option ω} :
      Step ⟨before ++ (key, .inFlight) :: after, .cancelling reason⟩
        ⟨before ++ (key, .ended (outcome key)) :: after, .cancelling reason⟩

variable {outcome stops bound} {keys : List κ} {pool next : TaskPool κ ω}

/-- What holds of a pool in every order of its steps. -/
structure Sound (outcome : κ → ω) (stops : ω → Bool) (bound : Nat) (keys : List κ)
    (pool : TaskPool κ ω) : Prop where
  keys_eq : pool.tasks.map (fun task => task.1) = keys
  bounded : pool.inFlight ≤ bound
  ended : ∀ task ∈ pool.tasks, ∀ w, task.2 = .ended w → w = outcome task.1
  gathers : pool.phase = .gathering → ∀ task ∈ pool.tasks, task.2 ≠ .cancelled ∧
    ∀ w, task.2 = .ended w → stops w = false
  reason : ∀ w, pool.phase = .cancelling (some w) →
    ∃ key ∈ keys, outcome key = w ∧ stops w = true

theorem sound_fresh (outcome : κ → ω) (stops : ω → Bool) (bound : Nat) (keys : List κ) :
    Sound outcome stops bound keys (fresh keys) where
  keys_eq := by simp [fresh, Function.comp_def]
  bounded := by
    have none : inFlight (fresh keys : TaskPool κ ω) = 0 := by
      simp [inFlight, fresh, List.countP_eq_zero, TaskState.IsInFlight]
    omega
  ended := by
    intro task mem w h
    obtain ⟨key, -, rfl⟩ := List.mem_map.mp mem
    cases h
  gathers := by
    intro _ task mem
    obtain ⟨key, -, rfl⟩ := List.mem_map.mp mem
    exact ⟨nofun, nofun⟩
  reason := nofun

theorem inFlight_split (before after : List (κ × TaskState ω)) (key : κ) (state : TaskState ω)
    (phase : PoolPhase ω) :
    inFlight ⟨before ++ (key, state) :: after, phase⟩ =
      inFlight ⟨before, phase⟩ + inFlight ⟨after, phase⟩ + if state.IsInFlight then 1 else 0 := by
  simp only [inFlight, List.countP_append, List.countP_cons]
  omega

/-- A claim about every task, after one of them has changed. -/
theorem forall_changed {before after : List (κ × TaskState ω)} {key : κ}
    {state changed : TaskState ω} {P : κ × TaskState ω → Prop}
    (h : ∀ task ∈ before ++ (key, state) :: after, P task) (new : P (key, changed)) :
    ∀ task ∈ before ++ (key, changed) :: after, P task := by
  intro task mem
  rcases List.mem_append.mp mem with mem | mem
  · exact h task (by simp [mem])
  · rcases List.mem_cons.mp mem with rfl | mem
    · exact new
    · exact h task (by simp [mem])

/-- Every step keeps the pool sound. -/
theorem Sound.step (sound : Sound outcome stops bound keys pool)
    (h : Step outcome stops bound pool next) : Sound outcome stops bound keys next := by
  obtain ⟨keys_eq, bounded, ended, gathers, reason⟩ := sound
  cases h with
  | @start before after key phase free =>
      refine ⟨by simpa using keys_eq, ?_, forall_changed ended (by rintro w ⟨⟩), ?_, reason⟩
      · rw [inFlight_split] at free ⊢
        simp only [TaskState.IsInFlight] at free ⊢
        simp at free ⊢
        omega
      · exact fun gathering => forall_changed (gathers gathering) ⟨by rintro ⟨⟩, by rintro w ⟨⟩⟩
  | @finish before after key goes =>
      refine ⟨by simpa using keys_eq, ?_, forall_changed ended ?_, ?_, by rintro w ⟨⟩⟩
      · rw [inFlight_split] at bounded ⊢
        simp [TaskState.IsInFlight] at bounded ⊢
        omega
      · rintro w ⟨⟩
        rfl
      · refine fun _ => forall_changed (gathers rfl) ⟨by rintro ⟨⟩, ?_⟩
        rintro w ⟨⟩
        exact goes
  | @stop before after key halts =>
      refine ⟨by simpa using keys_eq, ?_, forall_changed ended ?_, by rintro ⟨⟩, ?_⟩
      · rw [inFlight_split] at bounded ⊢
        simp [TaskState.IsInFlight, inFlight] at bounded ⊢
        omega
      · rintro w ⟨⟩
        rfl
      · rintro w ⟨⟩
        exact ⟨key, by rw [← keys_eq]; simp, rfl, halts⟩
  | interrupt => exact ⟨keys_eq, bounded, ended, by rintro ⟨⟩, by rintro w ⟨⟩⟩
  | @cancel before after key state why undone =>
      refine ⟨by simpa using keys_eq, ?_, forall_changed ended (by rintro w ⟨⟩), by rintro ⟨⟩,
        reason⟩
      rw [inFlight_split] at bounded ⊢
      simp [TaskState.IsInFlight] at bounded ⊢
      omega
  | @settle before after key why =>
      refine ⟨by simpa using keys_eq, ?_, forall_changed ended ?_, by rintro ⟨⟩, reason⟩
      · rw [inFlight_split] at bounded ⊢
        simp [TaskState.IsInFlight] at bounded ⊢
        omega
      · rintro w ⟨⟩
        rfl

theorem Done.inFlight_eq_zero (done : pool.Done) : pool.inFlight = 0 := by
  rw [inFlight, List.countP_eq_zero]
  intro task mem flying
  have ended := done task mem
  cases hstate : task.2 with
  | inFlight => simp [hstate, TaskState.IsDone] at ended
  | _ => simp [hstate, TaskState.IsInFlight] at flying

/-- How many steps of the tasks are left at most. -/
def left (self : TaskPool κ ω) : Nat :=
  (self.tasks.map fun task => task.2.left).sum + match self.phase with
    | .gathering => 1
    | .cancelling _ => 0

theorem left_split (before after : List (κ × TaskState ω)) (key : κ) (state : TaskState ω)
    (phase : PoolPhase ω) :
    left ⟨before ++ (key, state) :: after, phase⟩ =
      left ⟨before ++ after, phase⟩ + state.left := by
  simp only [left, List.map_append, List.map_cons, List.sum_append, List.sum_cons]
  omega

/-- No order of the steps goes on for ever. -/
theorem Step.left_lt (h : Step outcome stops bound pool next) : next.left < pool.left := by
  cases h with
  | start free => simp [left_split, TaskState.left]
  | finish goes => simp [left_split, TaskState.left]
  | stop halts =>
      simp only [left, List.map_append, List.map_cons, List.sum_append, List.sum_cons,
        TaskState.left]
      omega
  | interrupt => simp [left]
  | @cancel before after key state why undone =>
      rw [left_split, left_split]
      cases state with
      | waiting | inFlight => simp [TaskState.left]
      | ended _ | cancelled => simp [TaskState.IsDone] at undone
  | settle => simp [left_split, TaskState.left]

/-- A pool whose tasks are not all done can go on: no task is stranded. -/
theorem exists_step (free : 0 < bound) (undone : ¬ pool.Done) :
    ∃ next, Step outcome stops bound pool next := by
  obtain ⟨tasks, phase⟩ := pool
  rw [Done] at undone
  push Not at undone
  obtain ⟨⟨key, state⟩, mem, running⟩ := undone
  by_cases flying : ∃ key, (key, TaskState.inFlight) ∈ tasks
  · obtain ⟨flown, found⟩ := flying
    obtain ⟨before, after, rfl⟩ := List.append_of_mem found
    cases phase with
    | cancelling reason => exact ⟨_, .settle⟩
    | gathering =>
        cases halts : stops (outcome flown) with
        | false => exact ⟨_, .finish halts⟩
        | true => exact ⟨_, .stop halts⟩
  · have none : inFlight ⟨tasks, phase⟩ = 0 := by
      rw [inFlight, List.countP_eq_zero]
      rintro ⟨other, found⟩ there flies
      cases found with
      | inFlight => exact flying ⟨other, there⟩
      | _ => simp [TaskState.IsInFlight] at flies
    cases state with
    | inFlight => exact absurd ⟨key, mem⟩ flying
    | ended _ | cancelled => simp [TaskState.IsDone] at running
    | waiting =>
        obtain ⟨before, after, rfl⟩ := List.append_of_mem mem
        exact ⟨_, .start (by omega)⟩

/-- `gather`: the outcomes in the order of the tasks. -/
def gathered (self : TaskPool κ ω) : List (κ × ω) :=
  self.tasks.filterMap fun task => task.2.outcome.map fun w => (task.1, w)

/-- Gathering gives each key its outcome, and none of them stops the loop. -/
theorem Sound.gathered_eq (sound : Sound outcome stops bound keys pool)
    (gathering : pool.phase = .gathering) (done : pool.Done) :
    pool.gathered = keys.map (fun key => (key, outcome key)) ∧
      ∀ key ∈ keys, stops (outcome key) = false := by
  have ends : ∀ task ∈ pool.tasks, task.2 = .ended (outcome task.1) := by
    intro task mem
    have finished := done task mem
    cases state : task.2 with
    | ended w => rw [sound.ended task mem w state]
    | cancelled => exact absurd state (sound.gathers gathering task mem).1
    | waiting | inFlight => simp [state, TaskState.IsDone] at finished
  constructor
  · have each : ∀ task ∈ pool.tasks, (task.2.outcome.map fun w => (task.1, w)) =
        (some ∘ fun task : κ × TaskState ω => (task.1, outcome task.1)) task := by
      intro task mem
      rw [ends task mem]
      rfl
    rw [gathered, List.filterMap_congr each, List.filterMap_eq_map, ← sound.keys_eq,
      List.map_map]
    rfl
  · intro key mem
    rw [← sound.keys_eq] at mem
    obtain ⟨task, there, rfl⟩ := List.mem_map.mp mem
    exact (sound.gathers gathering task there).2 _ (ends task there)

end TaskPool

/-! ## Loops over chunks -/

/-- How a loop is left. -/
inductive LoopExit (ω : Type v) where
  | returned
  | raised (outcome : ω)
  | cancelled
  | rolledOver

/-- The tasks of the chunk at hand, the chunks after it, what the chunks before it recorded, and
what each of their checkpoints had. -/
structure ChunkLoop (κ : Type u) (ω : Type v) (γ : Type w) where
  pool : TaskPool κ ω
  pending : List (List κ)
  record : γ
  checkpoints : List γ
  exit : Option (LoopExit ω)

namespace ChunkLoop

variable {κ : Type u} {ω : Type v} {γ : Type w} (outcome : κ → ω) (stops : ω → Bool) (bound : Nat)
  (extend : γ → List (κ × ω) → γ)

/-- Go on with the chunks that are left. -/
def advance (record : γ) (checkpoints : List γ) : List (List κ) → ChunkLoop κ ω γ
  | [] => ⟨.fresh [], [], record, checkpoints, some .returned⟩
  | chunk :: rest => ⟨.fresh chunk, rest, record, checkpoints, none⟩

def inFlight (self : ChunkLoop κ ω γ) : Nat :=
  self.pool.inFlight

/-- How a loop is left that cancels its tasks. -/
def left : Option ω → LoopExit ω
  | some outcome => .raised outcome
  | none => .cancelled

inductive Step : ChunkLoop κ ω γ → ChunkLoop κ ω γ → Prop
  | task {pool next : TaskPool κ ω} {pending : List (List κ)} {record : γ} {checkpoints : List γ}
      (moves : pool.Step outcome stops bound next) :
      Step ⟨pool, pending, record, checkpoints, none⟩ ⟨next, pending, record, checkpoints, none⟩
  /-- Every task has ended: their outcomes are recorded, and the checkpoint lets the loop go on. -/
  | gather {pool : TaskPool κ ω} {pending : List (List κ)} {record : γ} {checkpoints : List γ}
      (gathering : pool.phase = .gathering) (done : pool.Done) :
      Step ⟨pool, pending, record, checkpoints, none⟩
        (advance (extend record pool.gathered) (checkpoints ++ [extend record pool.gathered])
          pending)
  /-- The checkpoint asks for a fresh history, or it is refused. -/
  | rollOver {pool : TaskPool κ ω} {pending : List (List κ)} {record : γ} {checkpoints : List γ}
      (gathering : pool.phase = .gathering) (done : pool.Done) :
      Step ⟨pool, pending, record, checkpoints, none⟩
        ⟨pool, pending, extend record pool.gathered,
          checkpoints ++ [extend record pool.gathered], some .rolledOver⟩
  /-- Every cancelled task is over. -/
  | leave {pool : TaskPool κ ω} {pending : List (List κ)} {record : γ} {checkpoints : List γ}
      {reason : Option ω} (cancelling : pool.phase = .cancelling reason) (done : pool.Done) :
      Step ⟨pool, pending, record, checkpoints, none⟩
        ⟨pool, pending, record, checkpoints, some (left reason)⟩

/-- The loop at any moment of any run. -/
def Reachable (chunks : List (List κ)) (start : γ) (loop : ChunkLoop κ ω γ) : Prop :=
  Relation.ReflTransGen (Step outcome stops bound extend) (advance start [] chunks) loop

/-- The loop over one key at a time: its checkpoints, and what it returns or raises. -/
def sequential : List κ → γ → List γ × Except ω γ
  | [], record => ([], .ok record)
  | key :: rest, record =>
      if stops (outcome key) then ([], .error (outcome key))
      else
        let next := extend record [(key, outcome key)]
        let (checkpoints, result) := sequential rest next
        (next :: checkpoints, result)

/-- Recording outcomes in two portions is recording them in one. -/
structure Additive (extend : γ → List (κ × ω) → γ) : Prop where
  nil : ∀ record, extend record [] = record
  append : ∀ record first second,
    extend (extend record first) second = extend record (first ++ second)

variable {outcome stops bound extend} {chunks past : List (List κ)} {keys : List κ}
  {start record : γ} {loop next : ChunkLoop κ ω γ}

/-- What is recorded when the given keys are over. -/
def upTo (outcome : κ → ω) (extend : γ → List (κ × ω) → γ) (start : γ) (keys : List κ) : γ :=
  extend start (keys.map fun key => (key, outcome key))

theorem upTo_nil (additive : Additive extend) : upTo outcome extend start [] = start :=
  additive.nil start

theorem upTo_append (additive : Additive extend) (first second : List κ) :
    upTo outcome extend start (first ++ second) =
      extend (upTo outcome extend start first) (second.map fun key => (key, outcome key)) := by
  rw [upTo, upTo, additive.append, List.map_append]

/-- Without an outcome that stops it, the loop over one key at a time has a checkpoint after
each key. -/
theorem sequential_checkpoint (additive : Additive extend) :
    ∀ (keys : List κ) (record : γ) (n : Nat), n < keys.length →
      (∀ key ∈ keys.take (n + 1), stops (outcome key) = false) →
      (sequential outcome stops extend keys record).1[n]? =
        some (upTo outcome extend record (keys.take (n + 1)))
  | [], _, _, short, _ => by simp at short
  | key :: rest, record, n, short, goes => by
      have first : stops (outcome key) = false := goes key (by simp)
      cases n with
      | zero => simp [sequential, first, upTo]
      | succ n =>
          have later := sequential_checkpoint additive rest
            (extend record [(key, outcome key)]) n (by simpa using short)
            (fun other mem => goes other (by simp [mem]))
          simp only [sequential, first, Bool.false_eq_true, if_false, List.getElem?_cons_succ,
            later]
          rw [upTo, upTo, additive.append]
          simp

theorem sequential_returned (additive : Additive extend) :
    ∀ (keys : List κ) (record : γ), (∀ key ∈ keys, stops (outcome key) = false) →
      (sequential outcome stops extend keys record).2 = .ok (upTo outcome extend record keys)
  | [], record, _ => by rw [sequential, upTo_nil additive]
  | key :: rest, record, goes => by
      have first : stops (outcome key) = false := goes key (by simp)
      have later := sequential_returned additive rest (extend record [(key, outcome key)])
        (fun other mem => goes other (by simp [mem]))
      simp only [sequential, first, Bool.false_eq_true, if_false, later]
      rw [upTo, upTo, additive.append]
      simp

/-- The loop over one key at a time raises when an outcome stops it. -/
theorem sequential_raised :
    ∀ (keys : List κ) (record : γ), (∃ key ∈ keys, stops (outcome key) = true) →
      ∃ key ∈ keys, stops (outcome key) = true ∧
        (sequential outcome stops extend keys record).2 = .error (outcome key)
  | [], _, ⟨_, mem, _⟩ => by simp at mem
  | key :: rest, record, ⟨other, mem, halts⟩ => by
      by_cases first : stops (outcome key) = true
      · exact ⟨key, by simp, first, by simp [sequential, first]⟩
      · have inRest : other ∈ rest := by
          rcases List.mem_cons.mp mem with rfl | mem
          · exact absurd halts first
          · exact mem
        obtain ⟨found, there, stop, raised⟩ := sequential_raised rest
          (extend record [(key, outcome key)]) ⟨other, inRest, halts⟩
        exact ⟨found, by simp [there], stop, by simp [sequential, first, raised]⟩

/-- What is left of the chunks, by how the loop stands. -/
def Rest (outcome : κ → ω) (stops : ω → Bool) (bound : Nat) (chunks past : List (List κ))
    (loop : ChunkLoop κ ω γ) : Prop :=
  match loop.exit with
  | none => ∃ chunk, chunks = past ++ chunk :: loop.pending ∧
      loop.pool.Sound outcome stops bound chunk
  | some .returned => chunks = past ∧ loop.inFlight = 0
  | some (.raised w) =>
      loop.inFlight = 0 ∧ ∃ key ∈ chunks.flatten, outcome key = w ∧ stops w = true
  | some .cancelled | some .rolledOver => loop.inFlight = 0

/-- What holds of a loop when the given chunks are over. -/
structure Sound (outcome : κ → ω) (stops : ω → Bool) (bound : Nat)
    (extend : γ → List (κ × ω) → γ) (chunks : List (List κ)) (start : γ)
    (loop : ChunkLoop κ ω γ) (past : List (List κ)) : Prop where
  passed : ∃ rest, chunks = past ++ rest
  recorded : loop.record = upTo outcome extend start past.flatten
  goes : ∀ key ∈ past.flatten, stops (outcome key) = false
  checkpoints : loop.checkpoints =
    (List.range past.length).map fun n => upTo outcome extend start (past.take (n + 1)).flatten
  rest : Rest outcome stops bound chunks past loop

theorem inFlight_fresh (keys : List κ) : (TaskPool.fresh keys : TaskPool κ ω).inFlight = 0 := by
  simp [TaskPool.inFlight, TaskPool.fresh, List.countP_eq_zero, TaskState.IsInFlight]

/-- A loop that goes on is sound when what it has recorded is. -/
theorem sound_advance {checkpoints : List γ} {pending : List (List κ)}
    (passed : chunks = past ++ pending) (recorded : record = upTo outcome extend start past.flatten)
    (goes : ∀ key ∈ past.flatten, stops (outcome key) = false)
    (logged : checkpoints = (List.range past.length).map fun n =>
      upTo outcome extend start (past.take (n + 1)).flatten) :
    Sound outcome stops bound extend chunks start (advance record checkpoints pending) past := by
  cases pending with
  | nil =>
      exact ⟨⟨[], passed⟩, recorded, goes, logged, by simpa using passed, inFlight_fresh []⟩
  | cons chunk rest =>
      exact ⟨⟨_, passed⟩, recorded, goes, logged, chunk, passed,
        TaskPool.sound_fresh outcome stops bound chunk⟩

/-- A chunk whose outcomes are gathered is over. -/
theorem Sound.gathered (additive : Additive extend)
    (sound : Sound outcome stops bound extend chunks start loop past) (running : loop.exit = none)
    (gathering : loop.pool.phase = .gathering) (done : loop.pool.Done) :
    ∃ chunk, chunks = (past ++ [chunk]) ++ loop.pending ∧
      extend loop.record loop.pool.gathered =
        upTo outcome extend start (past ++ [chunk]).flatten ∧
      (∀ key ∈ (past ++ [chunk]).flatten, stops (outcome key) = false) ∧
      loop.checkpoints ++ [extend loop.record loop.pool.gathered] =
        (List.range (past ++ [chunk]).length).map fun n =>
          upTo outcome extend start ((past ++ [chunk]).take (n + 1)).flatten := by
  obtain ⟨-, recorded, goes, logged, rest⟩ := sound
  rw [Rest, running] at rest
  obtain ⟨chunk, passed, pool⟩ := rest
  obtain ⟨gathered, chunkGoes⟩ := pool.gathered_eq gathering done
  have extended : extend loop.record loop.pool.gathered =
      upTo outcome extend start (past ++ [chunk]).flatten := by
    rw [List.flatten_append, List.flatten_singleton, upTo_append additive, ← recorded, gathered]
  refine ⟨chunk, by simpa using passed, extended, ?_, ?_⟩
  · intro key mem
    rw [List.flatten_append, List.flatten_singleton, List.mem_append] at mem
    exact mem.elim (goes key) (chunkGoes key)
  · rw [extended, logged, List.length_append, List.length_singleton, List.range_succ,
      List.map_append]
    congr 1
    · refine List.map_congr_left fun n short => ?_
      have within := List.mem_range.mp short
      rw [List.take_append_of_le_length (by omega)]
    · rw [List.map_singleton, List.take_of_length_le (by simp)]

/-- Every step keeps the loop sound. -/
theorem Sound.step (additive : Additive extend)
    (sound : Sound outcome stops bound extend chunks start loop past)
    (h : Step outcome stops bound extend loop next) :
    ∃ past, Sound outcome stops bound extend chunks start next past := by
  cases h with
  | task moves =>
      obtain ⟨passed, recorded, goes, logged, chunk, split, pool⟩ := sound
      exact ⟨past, passed, recorded, goes, logged, chunk, split, pool.step moves⟩
  | gather gathering done =>
      obtain ⟨chunk, passed, recorded, goes, logged⟩ := sound.gathered additive rfl gathering done
      exact ⟨past ++ [chunk], sound_advance passed recorded goes logged⟩
  | rollOver gathering done =>
      obtain ⟨chunk, passed, recorded, goes, logged⟩ := sound.gathered additive rfl gathering done
      exact ⟨past ++ [chunk], ⟨_, passed⟩, recorded, goes, logged, done.inFlight_eq_zero⟩
  | @leave pool _ _ _ reason cancelling done =>
      obtain ⟨passed, recorded, goes, logged, chunk, split, inner⟩ := sound
      refine ⟨past, passed, recorded, goes, logged, ?_⟩
      cases reason with
      | none => exact done.inFlight_eq_zero
      | some w =>
          obtain ⟨key, mem, same, halts⟩ := inner.reason w cancelling
          refine ⟨done.inFlight_eq_zero, key, ?_, same, halts⟩
          simp only at split
          simp [split, mem]

/-- A reachable loop is sound, in every order of its steps. -/
theorem Reachable.sound (additive : Additive extend)
    (reachable : Reachable outcome stops bound extend chunks start loop) :
    ∃ past, Sound outcome stops bound extend chunks start loop past := by
  induction reachable with
  | refl =>
      exact ⟨[], sound_advance rfl (upTo_nil additive).symm (by simp) rfl⟩
  | tail _ moves ih =>
      obtain ⟨past, sound⟩ := ih
      exact sound.step additive moves

theorem Reachable.inFlight_le (additive : Additive extend)
    (reachable : Reachable outcome stops bound extend chunks start loop) :
    loop.inFlight ≤ bound := by
  obtain ⟨past, sound⟩ := reachable.sound additive
  have rest := sound.rest
  rw [Rest] at rest
  split at rest
  · obtain ⟨chunk, -, pool⟩ := rest
    exact pool.bounded
  · have := rest.2
    omega
  · have := rest.1
    omega
  · omega
  · omega

/-- None of the tasks is in flight when the loop is left. -/
theorem Reachable.inFlight_of_left (additive : Additive extend)
    (reachable : Reachable outcome stops bound extend chunks start loop)
    (left : loop.exit.isSome) : loop.inFlight = 0 := by
  obtain ⟨past, sound⟩ := reachable.sound additive
  have rest := sound.rest
  rw [Rest] at rest
  split at rest
  next running => simp [running] at left
  next => exact rest.2
  next => exact rest.1
  next => exact rest
  next => exact rest

/-- A loop that returns has recorded what the loop over one key at a time returns. -/
theorem Reachable.returned (additive : Additive extend)
    (reachable : Reachable outcome stops bound extend chunks start loop)
    (returned : loop.exit = some .returned) :
    (∀ key ∈ chunks.flatten, stops (outcome key) = false) ∧
      (sequential outcome stops extend chunks.flatten start).2 = .ok loop.record := by
  obtain ⟨past, sound⟩ := reachable.sound additive
  have rest := sound.rest
  rw [Rest, returned] at rest
  obtain ⟨rfl, -⟩ := rest
  exact ⟨sound.goes, by rw [sequential_returned additive _ _ sound.goes, sound.recorded]⟩

/-- A loop that raises does so with the outcome of one of its keys. -/
theorem Reachable.raised (additive : Additive extend)
    (reachable : Reachable outcome stops bound extend chunks start loop) {w : ω}
    (raised : loop.exit = some (.raised w)) :
    ∃ key ∈ chunks.flatten, outcome key = w ∧ stops w = true := by
  obtain ⟨past, sound⟩ := reachable.sound additive
  have rest := sound.rest
  rw [Rest, raised] at rest
  exact rest.2

/-- The checkpoint after a chunk is that of the loop over one key at a time after its last key. -/
theorem Reachable.checkpoint (additive : Additive extend) (nonempty : ∀ chunk ∈ chunks, chunk ≠ [])
    (reachable : Reachable outcome stops bound extend chunks start loop) {n : Nat} {entry : γ}
    (found : loop.checkpoints[n]? = some entry) :
    n < chunks.length ∧
      (sequential outcome stops extend chunks.flatten start).1[
        (chunks.take (n + 1)).flatten.length - 1]? = some entry := by
  obtain ⟨past, ⟨rest, rfl⟩, -, goes, logged, -⟩ := reachable.sound additive
  rw [logged, List.getElem?_map, Option.map_eq_some_iff] at found
  obtain ⟨position, there, rfl⟩ := found
  obtain ⟨short, rfl⟩ := List.getElem?_eq_some_iff.mp there
  simp only [List.length_range, List.getElem_range] at short ⊢
  have within : (past ++ rest).take (n + 1) = past.take (n + 1) :=
    List.take_append_of_le_length (by omega)
  have initial : (past ++ rest).flatten.take (past.take (n + 1)).flatten.length =
      (past.take (n + 1)).flatten := by
    conv_lhs => rw [← List.take_append_drop (n + 1) (past ++ rest), within, List.flatten_append]
    exact List.take_left
  have positive : 0 < (past.take (n + 1)).flatten.length := by
    rw [List.length_pos_iff]
    intro empty
    have first := List.flatten_eq_nil_iff.mp empty (past[0]) (by
      rw [List.mem_take_iff_getElem]
      exact ⟨0, by omega, rfl⟩)
    exact nonempty _ (by simp) first
  have size := congrArg List.length initial
  rw [List.length_take] at size
  refine ⟨by simp; omega, ?_⟩
  rw [within, sequential_checkpoint additive _ _ _ (by omega), Nat.sub_add_cancel positive, initial]
  rw [Nat.sub_add_cancel positive, initial]
  intro key mem
  obtain ⟨chunk, there, inside⟩ := List.mem_flatten.mp mem
  exact goes key (List.mem_flatten.mpr ⟨chunk, List.mem_of_mem_take there, inside⟩)

/-- The steps that are left: those of the chunk at hand and of the chunks after it. -/
def remaining (self : ChunkLoop κ ω γ) : Nat :=
  match self.exit with
  | some _ => 0
  | none => self.pool.left + 2 + (self.pending.map fun chunk => 2 * chunk.length + 2).sum

theorem left_fresh (keys : List κ) :
    (TaskPool.fresh keys : TaskPool κ ω).left = 2 * keys.length + 1 := by
  simp [TaskPool.left, TaskPool.fresh, Function.comp_def, TaskState.left, mul_comm]

/-- Every run of a loop is finite. -/
theorem Step.remaining_lt (h : Step outcome stops bound extend loop next) :
    next.remaining < loop.remaining := by
  cases h with
  | task moves =>
      have := moves.left_lt
      simp only [remaining]
      omega
  | @gather pool pending record checkpoints gathering done =>
      cases pending with
      | nil =>
          simp only [remaining, advance]
          omega
      | cons chunk rest =>
          have positive : 0 < pool.left := by simp [TaskPool.left, gathering]
          simp only [remaining, advance, left_fresh, List.map_cons, List.sum_cons]
          omega
  | rollOver gathering done =>
      simp only [remaining]
      omega
  | leave cancelling done =>
      simp only [remaining]
      omega

/-- A loop that is not left goes on: nothing waits for ever. -/
theorem exists_step (free : 0 < bound) (running : loop.exit = none) :
    ∃ next, Step outcome stops bound extend loop next := by
  obtain ⟨pool, pending, record, checkpoints, exit⟩ := loop
  obtain rfl : exit = none := running
  by_cases done : pool.Done
  · cases phase : pool.phase with
    | gathering => exact ⟨_, .gather phase done⟩
    | cancelling reason => exact ⟨_, .leave phase done⟩
  · obtain ⟨moved, moves⟩ := TaskPool.exists_step free done
    exact ⟨_, .task moves⟩

end ChunkLoop
