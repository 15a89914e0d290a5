import Mathlib.Algebra.GroupWithZero.Nat
import Mathlib.Data.List.Perm.Subperm
import Mathlib.Logic.Relation
import Mathlib.Algebra.BigOperators.Group.List.Basic
import Justflow.Library.Programs

/-!
# Finite directed graphs

Worklist reachability, depth-first cycle search and Kahn's order, over any node type with
decidable equality.  Each is an executable function; the theorems say what its answer means:
the closure holds exactly the nodes some admitted path leads to, and a search that finds no
cycle leaves a rank that every edge decreases.
-/

namespace Digraph

universe u

variable {α : Type u}

/-! ## Reachability -/

/-- A path through admitted nodes, endpoints included. -/
inductive Path (allowed : α → Bool) (next : α → List α) : α → α → Prop where
  | refl {x : α} (admitted : allowed x = true) : Path allowed next x x
  | step {x y z : α} (admitted : allowed x = true) (edge : y ∈ next x)
      (rest : Path allowed next y z) : Path allowed next x z

variable {allowed : α → Bool} {next : α → List α}

theorem Path.allowed_target {x y : α} (h : Path allowed next x y) : allowed y = true := by
  induction h with
  | refl admitted => exact admitted
  | step _ _ _ ih => exact ih

theorem Path.allowed_source {x y : α} (h : Path allowed next x y) : allowed x = true := by
  cases h with
  | refl admitted => exact admitted
  | step admitted _ _ => exact admitted

theorem Path.snoc {x y z : α} (h : Path allowed next x y) (edge : z ∈ next y)
    (admitted : allowed z = true) : Path allowed next x z := by
  induction h with
  | refl hx => exact .step hx edge (.refl admitted)
  | step hx hy _ ih => exact .step hx hy (ih edge)

variable [DecidableEq α]

/-- Take nodes from a worklist until it is empty, following the admitted new ones. -/
def closure (allowed : α → Bool) (next : α → List α) : Nat → List α → List α → List α
  | 0, _, seen => seen
  | _, [], seen => seen
  | fuel + 1, x :: pending, seen =>
      if x ∈ seen ∨ allowed x = false then closure allowed next fuel pending seen
      else closure allowed next fuel (next x ++ pending) (x :: seen)

/-- The fuel a worklist needs: its length, and the successors still to be pushed. -/
def workload (next : α → List α) (universe' : List α) (pending seen : List α) : Nat :=
  pending.length + ((universe'.filter fun x => x ∉ seen).map fun x => (next x).length).sum

theorem subset_closure (fuel : Nat) (pending seen : List α) :
    seen ⊆ closure allowed next fuel pending seen := by
  induction fuel generalizing pending seen with
  | zero => exact List.Subset.refl _
  | succ fuel ih =>
      cases pending with
      | nil => exact List.Subset.refl _
      | cons x pending =>
          simp only [closure]
          split
          · exact ih pending seen
          · exact List.Subset.trans (List.subset_cons_self x seen) (ih _ _)

theorem closure_sound {fuel : Nat} {pending seen : List α} {y : α}
    (h : y ∈ closure allowed next fuel pending seen) :
    y ∈ seen ∨ ∃ x ∈ pending, Path allowed next x y := by
  induction fuel generalizing pending seen with
  | zero => exact .inl h
  | succ fuel ih =>
      cases pending with
      | nil => exact .inl h
      | cons x pending =>
          simp only [closure] at h
          split at h
          · rcases ih h with hseen | ⟨z, hz, hpath⟩
            · exact .inl hseen
            · exact .inr ⟨z, by simp [hz], hpath⟩
          · rename_i hnew
            simp only [not_or, Bool.not_eq_false] at hnew
            rcases ih h with hseen | ⟨z, hz, hpath⟩
            · rcases List.mem_cons.mp hseen with rfl | hseen
              · exact .inr ⟨_, by simp, .refl hnew.2⟩
              · exact .inl hseen
            · rcases List.mem_append.mp hz with hz | hz
              · exact .inr ⟨x, by simp, .step hnew.2 hz hpath⟩
              · exact .inr ⟨z, by simp [hz], hpath⟩

theorem workload_add {universe' pending seen : List α} {x : α} (hx : x ∈ universe')
    (hnew : x ∉ seen) :
    workload next universe' (next x ++ pending) (x :: seen) + 1
      ≤ workload next universe' (x :: pending) seen := by
  have hsum : ∀ l : List α, x ∈ l →
      ((l.filter fun y => y ∉ x :: seen).map fun y => (next y).length).sum + (next x).length
        ≤ ((l.filter fun y => y ∉ seen).map fun y => (next y).length).sum := by
    have hle : ∀ l : List α,
        ((l.filter fun y => y ∉ x :: seen).map fun y => (next y).length).sum
          ≤ ((l.filter fun y => y ∉ seen).map fun y => (next y).length).sum := by
      intro l
      induction l with
      | nil => simp
      | cons y l ih =>
          by_cases hy : y ∈ seen
          · simpa [hy] using ih
          · by_cases hyx : y = x
            · subst hyx
              simp [hnew] at ih ⊢
              omega
            · simp [hy, hyx] at ih ⊢
              omega
    intro l hl
    induction l with
    | nil => simp at hl
    | cons y l ih =>
        by_cases hyx : y = x
        · subst hyx
          have := hle l
          simp [hnew] at this ⊢
          omega
        · have hl' : x ∈ l := by
            rcases List.mem_cons.mp hl with h | h
            · exact False.elim (hyx h.symm)
            · exact h
          have := ih hl'
          by_cases hy : y ∈ seen
          · simpa [hy] using this
          · simp [hy, hyx] at this ⊢
            omega
  have := hsum universe' hx
  simp only [workload, List.length_append, List.length_cons] at this ⊢
  omega

/-- With enough fuel the closure is closed, and holds the admitted pending nodes. -/
theorem closure_closed {universe' : List α} (hallowed : ∀ x, allowed x = true → x ∈ universe')
    {fuel : Nat} {pending seen : List α}
    (hfuel : workload next universe' pending seen ≤ fuel)
    (hseen : ∀ x ∈ seen, ∀ y ∈ next x, allowed y = true → y ∈ seen ∨ y ∈ pending) :
    (∀ x ∈ pending, allowed x = true → x ∈ closure allowed next fuel pending seen) ∧
      ∀ x ∈ closure allowed next fuel pending seen, ∀ y ∈ next x, allowed y = true →
        y ∈ closure allowed next fuel pending seen := by
  induction fuel generalizing pending seen with
  | zero =>
      have hpending : pending = [] := by
        rw [← List.length_eq_zero_iff]
        simp only [workload] at hfuel
        omega
      subst hpending
      refine ⟨by simp, fun x hx y hy hallow => ?_⟩
      exact (hseen x hx y hy hallow).resolve_right (by simp)
  | succ fuel ih =>
      cases pending with
      | nil =>
          refine ⟨by simp, fun x hx y hy hallow => ?_⟩
          exact (hseen x hx y hy hallow).resolve_right (by simp)
      | cons x pending =>
          simp only [closure]
          split
          · rename_i hskip
            have hfuel' : workload next universe' pending seen ≤ fuel := by
              simp only [workload, List.length_cons] at hfuel ⊢
              omega
            have hrest := ih hfuel' fun a ha b hb hallow => by
              rcases hseen a ha b hb hallow with h | h
              · exact .inl h
              · rcases List.mem_cons.mp h with rfl | h
                · rcases hskip with h' | h'
                  · exact .inl h'
                  · rw [hallow] at h'
                    cases h'
                · exact .inr h
            refine ⟨fun y hy hallow => ?_, hrest.2⟩
            rcases List.mem_cons.mp hy with rfl | hy
            · rcases hskip with h | h
              · exact subset_closure _ _ _ h
              · rw [hallow] at h
                cases h
            · exact hrest.1 y hy hallow
          · rename_i hnew
            simp only [not_or, Bool.not_eq_false] at hnew
            have hfuel' : workload next universe' (next x ++ pending) (x :: seen) ≤ fuel := by
              have hadd : workload next universe' (next x ++ pending) (x :: seen) + 1
                  ≤ workload next universe' (x :: pending) seen :=
                workload_add (hallowed x hnew.2) hnew.1
              omega
            have hrest := ih hfuel' fun a ha b hb hallow => by
              rcases List.mem_cons.mp ha with rfl | ha
              · exact .inr (by simp [hb])
              · rcases hseen a ha b hb hallow with h | h
                · exact .inl (by simp [h])
                · rcases List.mem_cons.mp h with rfl | h
                  · exact .inl (by simp)
                  · exact .inr (by simp [h])
            refine ⟨fun y hy hallow => ?_, hrest.2⟩
            rcases List.mem_cons.mp hy with rfl | hy
            · exact subset_closure _ _ _ (by simp)
            · exact hrest.1 y (by simp [hy]) hallow

/-- The closure holds exactly what admitted paths from the entries lead to. -/
theorem mem_closure_iff {universe' : List α} (hallowed : ∀ x, allowed x = true → x ∈ universe')
    {fuel : Nat} {entries : List α} (hfuel : workload next universe' entries [] ≤ fuel) {y : α} :
    y ∈ closure allowed next fuel entries [] ↔ ∃ x ∈ entries, Path allowed next x y := by
  constructor
  · intro h
    exact (closure_sound h).resolve_left (by simp)
  · rintro ⟨x, hx, hpath⟩
    obtain ⟨hstart, hclosed⟩ := closure_closed hallowed hfuel (by simp)
    have hmem : ∀ {a b : α}, Path allowed next a b → a ∈ closure allowed next fuel entries [] →
        b ∈ closure allowed next fuel entries [] := by
      intro a b hab
      induction hab with
      | refl _ => exact id
      | step _ edge rest ih =>
          intro ha
          exact ih (hclosed _ ha _ edge rest.allowed_source)
    exact hmem hpath (hstart x hx hpath.allowed_source)

/-! ## Cycle search -/

/-- Depth-first search below a node.  It returns the finished nodes, newest first, or the part of
the stack that closes a cycle. -/
def visit (next : α → List α) : Nat → α → List α → List α → Except (List α) (List α)
  | 0, _, _, _ => .error []
  | fuel + 1, name, stack, visited => do
      let path := stack ++ [name]
      let finished ← (next name).foldlM (fun visited target =>
        if target ∈ path then .error (path.drop (path.idxOf target) ++ [target])
        else if target ∈ visited then .ok visited
        else visit next fuel target path visited) visited
      return name :: finished

/-- Search from every node in turn; the depth cannot exceed the number of nodes. -/
def findCycle (next : α → List α) (nodes : List α) : Option (List α) :=
  match nodes.foldlM (fun visited name =>
    if name ∈ visited then .ok visited
    else visit next (nodes.length + 1) name [] visited) [] with
  | .ok _ => none
  | .error cycle => some cycle

/-- Every node stands before all of its successors. -/
def Finished (next : α → List α) : List α → Prop
  | [] => True
  | x :: rest => (∀ y ∈ next x, y ∈ rest) ∧ Finished next rest

/-- How many nodes finished up to and including the first time a node did. -/
def rank (x : α) : List α → Nat
  | [] => 0
  | _ :: rest => if x ∈ rest then rank x rest else rest.length + 1

theorem rank_le (x : α) (l : List α) : rank x l ≤ l.length := by
  induction l with
  | nil => exact Nat.le_refl _
  | cons y rest ih =>
      simp only [rank, List.length_cons]
      split <;> omega

theorem Finished.rank_lt {l : List α} (h : Finished next l) {x y : α} (hx : x ∈ l)
    (hy : y ∈ next x) : y ∈ l ∧ rank y l < rank x l := by
  induction l with
  | nil => simp at hx
  | cons z rest ih =>
      by_cases hrest : x ∈ rest
      · obtain ⟨hmem, hlt⟩ := ih h.2 hrest
        refine ⟨by simp [hmem], ?_⟩
        simpa [rank, hrest, hmem] using hlt
      · obtain rfl : x = z := (List.mem_cons.mp hx).resolve_right hrest
        have hmem := h.1 y hy
        refine ⟨by simp [hmem], ?_⟩
        simp only [rank, if_pos hmem, if_neg hrest]
        have := rank_le y rest
        omega

/-- What a successful search step leaves behind. -/
structure Extends (next : α → List α) (visited finished : List α) : Prop where
  ordered : Finished next finished
  keeps : visited ⊆ finished

omit [DecidableEq α] in
theorem foldlM_extends {step : List α → α → Except (List α) (List α)} {targets : List α}
    (hstep : ∀ visited target finished, Finished next visited →
      step visited target = .ok finished → Extends next visited finished ∧ target ∈ finished)
    {visited finished : List α} (hvisited : Finished next visited)
    (h : targets.foldlM step visited = .ok finished) :
    Extends next visited finished ∧ ∀ target ∈ targets, target ∈ finished := by
  induction targets generalizing visited with
  | nil =>
      cases h
      exact ⟨⟨hvisited, List.Subset.refl _⟩, by simp⟩
  | cons target rest ih =>
      rw [List.foldlM_cons] at h
      cases hfirst : step visited target with
      | error e =>
          rw [hfirst] at h
          cases h
      | ok middle =>
          rw [hfirst] at h
          obtain ⟨hmiddle, htarget⟩ := hstep visited target middle hvisited hfirst
          obtain ⟨hrest, htargets⟩ := ih hmiddle.ordered h
          refine ⟨⟨hrest.ordered, List.Subset.trans hmiddle.keeps hrest.keeps⟩, fun t ht => ?_⟩
          rcases List.mem_cons.mp ht with rfl | ht
          · exact hrest.keeps htarget
          · exact htargets t ht

theorem visit_extends {fuel : Nat} {name : α} {stack visited finished : List α}
    (hvisited : Finished next visited) (h : visit next fuel name stack visited = .ok finished) :
    Extends next visited finished ∧ name ∈ finished := by
  induction fuel generalizing name stack visited finished with
  | zero => cases h
  | succ fuel ih =>
      obtain ⟨inner, hfold, hreturn⟩ := Program.exists_of_bind_eq_ok h
      cases hreturn
      have hstep := foldlM_extends (fun visited target finished hv hs => by
        split at hs
        · cases hs
        · split at hs
          · cases hs
            rename_i hmem
            exact ⟨⟨hv, List.Subset.refl _⟩, hmem⟩
          · exact ih hv hs) hvisited hfold
      refine ⟨⟨⟨hstep.2, hstep.1.ordered⟩, ?_⟩, by simp⟩
      exact List.Subset.trans hstep.1.keeps (List.subset_cons_self _ _)

/-- A search that finds no cycle leaves a rank that every edge decreases. -/
theorem exists_rank_of_findCycle {nodes : List α} (h : findCycle next nodes = none) :
    ∃ height : α → Nat, ∀ x ∈ nodes, ∀ y ∈ next x, height y < height x := by
  unfold findCycle at h
  split at h
  · rename_i finished hfold
    have hstart : Finished next ([] : List α) := trivial
    have hall := foldlM_extends (fun visited target finished hv hs => by
      split at hs
      · cases hs
        rename_i hmem
        exact ⟨⟨hv, List.Subset.refl _⟩, hmem⟩
      · exact visit_extends hv hs) hstart hfold
    exact ⟨fun x => rank x finished,
      fun x hx y hy => (hall.1.ordered.rank_lt (hall.2 x hx) hy).2⟩
  · cases h

/-- The rank can be chosen no larger than the number of nodes. -/
theorem exists_bounded_rank {nodes : List α} (h : findCycle next nodes = none) :
    ∃ height : α → Nat, (∀ x, height x ≤ nodes.length)
      ∧ ∀ x ∈ nodes, ∀ y ∈ next x, y ∈ nodes → height y < height x := by
  obtain ⟨height, hheight⟩ := exists_rank_of_findCycle h
  refine ⟨fun x => (nodes.filter fun y => height y < height x).length,
    fun x => List.length_filter_le _ _, fun x hx y hy hmem => ?_⟩
  have hlt := hheight x hx y hy
  have hsub : nodes.filter (fun z => height z < height y)
      = (nodes.filter fun z => height z < height x).filter fun z => height z < height y := by
    rw [List.filter_filter]
    refine List.filter_congr fun z _ => ?_
    simp only [Bool.and_eq_decide, decide_eq_decide]
    simp only [decide_eq_true_eq]
    omega
  change (nodes.filter fun z => height z < height y).length < _
  rw [hsub]
  -- the node itself is below its predecessor, and not below itself
  refine List.length_filter_lt_length_iff_exists.mpr ⟨y, ?_, by simp⟩
  exact List.mem_filter.mpr ⟨hmem, by simpa using hlt⟩

/-! ## Kahn's order -/

/-- Remove the edges to the targets; a node with no edge left joins the queue. -/
def relax : List α → (α → Nat) → List α → (α → Nat) × List α
  | [], indegree, pending => (indegree, pending)
  | target :: rest, indegree, pending =>
      let left := indegree target - 1
      relax rest (fun x => if x = target then left else indegree x)
        (if left = 0 then pending ++ [target] else pending)

/-- Take nodes without incoming edges from a queue, first in first out. -/
def kahn (next : α → List α) : Nat → List α → (α → Nat) → List α → List α
  | 0, _, _, order => order
  | _, [], _, order => order
  | fuel + 1, x :: pending, indegree, order =>
      kahn next fuel (relax (next x) indegree pending).2 (relax (next x) indegree pending).1
        (order ++ [x])

/-- The number of edges into a node, from the given sources. -/
def indegree (next : α → List α) (sources : List α) (x : α) : Nat :=
  (sources.map fun s => (next s).count x).sum

/-- Kahn's order of the nodes. -/
def topologicalOrder (next : α → List α) (nodes : List α) : List α :=
  kahn next nodes.length (nodes.filter fun x => indegree next nodes x = 0)
    (indegree next nodes) []

theorem relax_spec (targets : List α) (degree : α → Nat) (pending : List α)
    (h : ∀ x, targets.count x ≤ degree x) :
    (∀ x, (relax targets degree pending).1 x = degree x - targets.count x) ∧
      ∃ fresh, (relax targets degree pending).2 = pending ++ fresh ∧ fresh.Nodup ∧
        ∀ x, x ∈ fresh ↔ x ∈ targets ∧ degree x = targets.count x := by
  induction targets generalizing degree pending with
  | nil => exact ⟨by simp [relax], [], by simp [relax]⟩
  | cons target rest ih =>
      have hdegree : ∀ x, rest.count x ≤ if x = target then degree target - 1 else degree x := by
        intro x
        have := h x
        by_cases hx : x = target
        · subst hx
          simp only [List.count_cons_self, if_true] at this ⊢
          omega
        · have hne : ¬ target = x := fun he => hx he.symm
          simpa [hx, hne, List.count_cons] using this
      obtain ⟨hleft, fresh, hfresh, hnodup, hmem⟩ := ih
        (fun x => if x = target then degree target - 1 else degree x)
        (if degree target - 1 = 0 then pending ++ [target] else pending) hdegree
      have htarget := h target
      simp only [List.count_cons_self] at htarget
      refine ⟨fun x => ?_, ?_⟩
      · rw [relax, hleft]
        by_cases hx : x = target
        · subst hx
          simp only [if_true, List.count_cons_self]
          omega
        · have hne : ¬ target = x := fun he => hx he.symm
          simp [hx, hne]
      · have hother : ∀ x, x ≠ target → (x ∈ fresh ↔
            x ∈ target :: rest ∧ degree x = (target :: rest).count x) := by
          intro x hx
          have hne : ¬ target = x := fun he => hx he.symm
          rw [hmem x]
          simp [hx, hne]
        by_cases hzero : degree target - 1 = 0
        · have hcount : rest.count target = 0 := by omega
          have hnot : target ∉ fresh := by
            rw [hmem target]
            intro hc
            have hpos := List.count_pos_iff.mpr hc.1
            omega
          refine ⟨target :: fresh, ?_, List.nodup_cons.mpr ⟨hnot, hnodup⟩, fun x => ?_⟩
          · rw [relax, hfresh, if_pos hzero, List.append_assoc, List.singleton_append]
          · by_cases hx : x = target
            · subst hx
              simp only [List.mem_cons_self, List.count_cons_self, true_and, true_iff]
              omega
            · rw [List.mem_cons, hother x hx]
              simp [hx]
        · refine ⟨fresh, ?_, hnodup, fun x => ?_⟩
          · rw [relax, hfresh, if_neg hzero]
          · by_cases hx : x = target
            · subst hx
              rw [hmem x]
              simp only [if_true, List.mem_cons_self, List.count_cons_self, true_and]
              constructor
              · rintro ⟨-, hc⟩
                omega
              · intro hc
                refine ⟨?_, by omega⟩
                by_contra hrest
                rw [List.count_eq_zero_of_not_mem hrest] at hc
                omega
            · exact hother x hx

theorem indegree_step {nodes order : List α} {x : α} (hnodup : nodes.Nodup) (hx : x ∈ nodes)
    (hnew : x ∉ order) (y : α) :
    indegree next (nodes.filter fun s => s ∉ order) y
      = (next x).count y + indegree next (nodes.filter fun s => s ∉ order ++ [x]) y := by
  induction nodes with
  | nil => simp at hx
  | cons s rest ih =>
      obtain ⟨hs, hrest⟩ := List.nodup_cons.mp hnodup
      by_cases hsx : s = x
      · subst hsx
        have hsame : (rest.filter fun t => t ∉ order ++ [s]) = rest.filter fun t => t ∉ order :=
          List.filter_congr fun t ht => by
            have hne : t ≠ s := fun he => hs (he ▸ ht)
            simp [hne]
        rw [List.filter_cons_of_pos (by simpa using hnew),
          List.filter_cons_of_neg (by simp), hsame]
        simp [indegree]
      · have hmem : x ∈ rest := by
          rcases List.mem_cons.mp hx with h | h
          · exact False.elim (hsx h.symm)
          · exact h
        have := ih hrest hmem
        by_cases hso : s ∈ order
        · simpa [hso, indegree] using this
        · simp [hso, hsx, indegree] at this ⊢
          omega

/-- What Kahn's algorithm keeps: the degrees count the edges from nodes not yet ordered, the
queue holds the free nodes, and an ordered node has all its predecessors before it. -/
structure KahnState (next : α → List α) (nodes pending : List α) (degree : α → Nat)
    (order : List α) : Prop where
  counts : ∀ x ∈ nodes, degree x = indegree next (nodes.filter fun s => s ∉ order) x
  free : ∀ x ∈ nodes, degree x = 0 ↔ x ∈ order ∨ x ∈ pending
  distinct : (order ++ pending).Nodup
  inside : order ++ pending ⊆ nodes
  sorted : ∀ before x after, order = before ++ x :: after →
    ∀ s ∈ nodes, x ∈ next s → s ∈ before

theorem mem_of_indegree_eq_zero {sources : List α} {x : α} (h : indegree next sources x = 0)
    {s : α} (hs : s ∈ sources) : x ∉ next s := by
  have hle : (next s).count x ≤ indegree next sources x := by
    clear h
    induction sources with
    | nil => simp at hs
    | cons t rest ih =>
        simp only [indegree, List.map_cons, List.sum_cons] at ih ⊢
        rcases List.mem_cons.mp hs with rfl | hs
        · omega
        · have := ih hs
          omega
  intro hx
  have := List.count_pos_iff.mpr hx
  omega

theorem indegree_eq_zero {sources : List α} {x : α} (h : ∀ s ∈ sources, x ∉ next s) :
    indegree next sources x = 0 := by
  induction sources with
  | nil => rfl
  | cons s rest ih =>
      have hs := List.count_eq_zero_of_not_mem (h s (by simp))
      have hrest := ih fun t ht => h t (by simp [ht])
      simp only [indegree, List.map_cons, List.sum_cons] at hrest ⊢
      omega

theorem KahnState.step {nodes pending order : List α} {degree : α → Nat} {x : α}
    (hnodup : nodes.Nodup) (hclosed : ∀ s ∈ nodes, ∀ t ∈ next s, t ∈ nodes)
    (h : KahnState next nodes (x :: pending) degree order) :
    KahnState next nodes (relax (next x) degree pending).2 (relax (next x) degree pending).1
      (order ++ [x]) := by
  have hxnodes : x ∈ nodes := h.inside (by simp)
  have hxnew : x ∉ order := by
    have := List.nodup_append.mp h.distinct
    exact fun hx => this.2.2 x hx x (by simp) rfl
  have hstep : ∀ y, indegree next (nodes.filter fun s => s ∉ order) y
      = (next x).count y + indegree next (nodes.filter fun s => s ∉ order ++ [x]) y :=
    indegree_step hnodup hxnodes hxnew
  have hle : ∀ y, (next x).count y ≤ degree y := by
    intro y
    by_cases hy : y ∈ next x
    · rw [h.counts y (hclosed x hxnodes y hy), hstep y]
      omega
    · simp [List.count_eq_zero_of_not_mem hy]
  obtain ⟨hleft, fresh, hqueue, hfresh, hmem⟩ := relax_spec (next x) degree pending hle
  have hfreshpos : ∀ y ∈ fresh, y ∈ nodes ∧ 0 < degree y := by
    intro y hy
    obtain ⟨hynext, hdeg⟩ := (hmem y).mp hy
    have hpos := List.count_pos_iff.mpr hynext
    exact ⟨hclosed x hxnodes y hynext, by omega⟩
  constructor
  · intro y hy
    rw [hleft, h.counts y hy, hstep y]
    omega
  · intro y hy
    rw [hleft, hqueue]
    have hfree := h.free y hy
    simp only [List.mem_append, List.mem_cons, List.not_mem_nil, or_false] at hfree ⊢
    have hcount := hle y
    constructor
    · intro hzero
      by_cases hdeg : degree y = 0
      · rcases hfree.mp hdeg with hy | hy | hy
        · exact .inl (.inl hy)
        · exact .inl (.inr hy)
        · exact .inr (.inl hy)
      · refine .inr (.inr ((hmem y).mpr ⟨?_, by omega⟩))
        by_contra hynext
        rw [List.count_eq_zero_of_not_mem hynext] at hzero
        omega
    · intro hcase
      rcases hcase with (hy | hy) | hy | hy
      · have := hfree.mpr (.inl hy)
        omega
      · have := hfree.mpr (.inr (.inl hy))
        omega
      · have := hfree.mpr (.inr (.inr hy))
        omega
      · have := ((hmem y).mp hy).2
        omega
  · rw [hqueue]
    have hold := h.distinct
    rw [show order ++ [x] ++ (pending ++ fresh) = (order ++ (x :: pending)) ++ fresh by simp]
    refine List.nodup_append.mpr ⟨hold, hfresh, fun y hy z hz hyz => ?_⟩
    subst hyz
    obtain ⟨hynodes, hpos⟩ := hfreshpos y hz
    have := (h.free y hynodes).mpr (List.mem_append.mp hy)
    omega
  · rw [hqueue]
    intro y hy
    simp only [List.mem_append, List.mem_cons, List.not_mem_nil, or_false] at hy
    rcases hy with (hy | hy) | hy | hy
    · exact h.inside (by simp [hy])
    · exact hy ▸ hxnodes
    · exact h.inside (by simp [hy])
    · exact (hfreshpos y hy).1
  · intro before y after hsplit s hs hy
    rcases List.append_eq_append_iff.mp hsplit with ⟨rest, hbefore, hrest⟩ | ⟨rest, horder, hrest⟩
    · cases rest with
      | nil =>
          -- the new node is free, so every edge into it comes from an ordered node
          simp only [List.nil_append, List.cons.injEq] at hrest
          obtain ⟨rfl, -⟩ := hrest
          have hzero : degree x = 0 := (h.free x hxnodes).mpr (.inr (by simp))
          rw [h.counts x hxnodes] at hzero
          by_contra hnot
          refine mem_of_indegree_eq_zero hzero (List.mem_filter.mpr ⟨hs, ?_⟩) hy
          simpa [hbefore] using hnot
      | cons r rest =>
          have := congrArg List.length hrest
          simp at this
    · cases rest with
      | nil =>
          simp only [List.nil_append, List.cons.injEq] at hrest
          obtain ⟨rfl, -⟩ := hrest
          have hzero : degree y = 0 := (h.free y hxnodes).mpr (.inr (by simp))
          rw [h.counts y hxnodes] at hzero
          by_contra hnot
          refine mem_of_indegree_eq_zero hzero (List.mem_filter.mpr ⟨hs, ?_⟩) hy
          simpa [horder] using hnot
      | cons r rest =>
          simp only [List.cons_append, List.cons.injEq] at hrest
          obtain ⟨rfl, -⟩ := hrest
          exact h.sorted before y rest horder s hs hy

theorem kahn_state {nodes : List α} (hnodup : nodes.Nodup)
    (hclosed : ∀ s ∈ nodes, ∀ t ∈ next s, t ∈ nodes) {fuel : Nat} {pending order : List α}
    {degree : α → Nat} (h : KahnState next nodes pending degree order)
    (hfuel : nodes.length ≤ order.length + fuel) :
    ∃ final, KahnState next nodes [] final (kahn next fuel pending degree order) := by
  induction fuel generalizing pending degree order with
  | zero =>
      -- every node is ordered, so nothing can be pending
      have hlength : (order ++ pending).length ≤ nodes.length :=
        (List.subperm_of_subset h.distinct h.inside).length_le
      rw [List.length_append] at hlength
      have hpending : pending = [] := List.length_eq_zero_iff.mp (by omega)
      subst hpending
      exact ⟨degree, h⟩
  | succ fuel ih =>
      cases pending with
      | nil => exact ⟨degree, h⟩
      | cons x pending =>
          refine ih (h.step hnodup hclosed) ?_
          simp only [List.length_append, List.length_cons, List.length_nil]
          omega

theorem kahnState_start {nodes : List α} (hnodup : nodes.Nodup) :
    KahnState next nodes (nodes.filter fun x => indegree next nodes x = 0)
      (indegree next nodes) [] := by
  constructor
  · simp
  · intro x hx
    simp [hx]
  · exact hnodup.sublist List.filter_sublist
  · simp
  · simp

/-- Without cycles, Kahn's order holds every node once, after all its predecessors. -/
theorem topologicalOrder_spec {nodes : List α} (hnodup : nodes.Nodup)
    (hclosed : ∀ s ∈ nodes, ∀ t ∈ next s, t ∈ nodes) {height : α → Nat}
    (hheight : ∀ s ∈ nodes, ∀ t ∈ next s, height t < height s) :
    (topologicalOrder next nodes).Nodup ∧
      (∀ x, x ∈ topologicalOrder next nodes ↔ x ∈ nodes) ∧
      ∀ before x after, topologicalOrder next nodes = before ++ x :: after →
        ∀ s ∈ nodes, x ∈ next s → s ∈ before := by
  obtain ⟨final, h⟩ : ∃ final, KahnState next nodes [] final (topologicalOrder next nodes) :=
    kahn_state hnodup hclosed (kahnState_start hnodup) (by simp)
  refine ⟨by simpa using h.distinct, fun x => ⟨fun hx => h.inside (by simp [hx]), ?_⟩, h.sorted⟩
  intro hx
  by_contra hnot
  -- a node left out has a predecessor left out, of larger height, without end
  have hclimb : ∀ bound, ∃ y ∈ nodes, y ∉ topologicalOrder next nodes ∧ bound ≤ height y := by
    intro bound
    induction bound with
    | zero => exact ⟨x, hx, hnot, Nat.zero_le _⟩
    | succ bound ih =>
        obtain ⟨y, hy, hyout, hbound⟩ := ih
        have hpos : final y ≠ 0 := fun hzero => by
          rcases (h.free y hy).mp hzero with h' | h'
          · exact hyout h'
          · simp at h'
        rw [h.counts y hy] at hpos
        have hsource : ∃ s ∈ nodes.filter fun s => s ∉ topologicalOrder next nodes,
            y ∈ next s := by
          by_contra hnone
          simp only [not_exists, not_and] at hnone
          exact hpos (indegree_eq_zero hnone)
        obtain ⟨s, hs, hys⟩ := hsource
        obtain ⟨hsnodes, hsout⟩ := List.mem_filter.mp hs
        have := hheight s hsnodes y hys
        exact ⟨s, hsnodes, by simpa using hsout, by omega⟩
  obtain ⟨y, hy, -, hbound⟩ := hclimb ((nodes.map height).sum + 1)
  have hle : height y ≤ (nodes.map height).sum := by
    clear hnot hclimb hbound h hheight hclosed hnodup hx
    induction nodes with
    | nil => simp at hy
    | cons z rest ih =>
        simp only [List.map_cons, List.sum_cons]
        rcases List.mem_cons.mp hy with rfl | hy
        · omega
        · have := ih hy
          omega
  omega

end Digraph