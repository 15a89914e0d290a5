import Mathlib.Data.List.Chain
import Justflow.Library.Digraph

/-!
# Cycles that a search reports

A depth-first search keeps the path to the node that it is at.  A target on this path closes a
cycle, and the part of the path from the target on is that cycle.  Nodes that no edge leaves need
not be listed: the search follows edges from listed nodes only, so the path never gets longer than
the list.
-/

namespace Digraph

universe u

variable {α : Type u}

/-- A list of nodes along edges that returns to its first node. -/
def IsCycle (next : α → List α) (nodes : List α) : Prop :=
  ∃ first middle, nodes = first :: (middle ++ [first]) ∧ nodes.IsChain fun x y => y ∈ next x

def Acyclic (next : α → List α) : Prop :=
  ∀ nodes, ¬ IsCycle next nodes

variable {next : α → List α}

/-- Where every edge goes down, no walk returns. -/
theorem acyclic_of_height {height : α → Nat} (down : ∀ x, ∀ y ∈ next x, height y < height x) :
    Acyclic next := by
  rintro nodes ⟨first, middle, rfl, chain⟩
  have lower := (chain.imp down).pairwise
  have : height first < height first :=
    (List.pairwise_cons.mp lower).1 first (by simp)
  omega

/-! ## The path of a search -/

/-- The nodes that have successors are listed. -/
def Listed (next : α → List α) (nodes : List α) : Prop :=
  ∀ x, next x ≠ [] → x ∈ nodes

/-- The path of a search: along edges, and without a repetition. -/
structure IsPath (next : α → List α) (path : List α) : Prop where
  chain : path.IsChain fun x y => y ∈ next x
  distinct : path.Nodup

theorem isPath_singleton (x : α) : IsPath next [x] :=
  ⟨.singleton x, by simp⟩

theorem isChain_concat {path : List α} {x y : α}
    (chain : (path ++ [x]).IsChain fun x y => y ∈ next x) (edge : y ∈ next x) :
    (path ++ [x] ++ [y]).IsChain fun x y => y ∈ next x := by
  refine List.IsChain.append chain (.singleton y) ?_
  intro last hlast first hfirst
  rw [List.getLast?_concat, Option.mem_some_iff] at hlast
  rw [List.head?_cons, Option.mem_some_iff] at hfirst
  exact hlast ▸ hfirst ▸ edge

theorem IsPath.concat {path : List α} {x y : α} (h : IsPath next (path ++ [x]))
    (edge : y ∈ next x) (fresh : y ∉ path ++ [x]) : IsPath next (path ++ [x] ++ [y]) := by
  refine ⟨isChain_concat h.chain edge, List.nodup_append.mpr ⟨h.distinct, by simp, ?_⟩⟩
  rintro a ha b hb rfl
  exact fresh (List.mem_singleton.mp hb ▸ ha)

theorem IsPath.left_mem {nodes path : List α} {x : α} (h : IsPath next (path ++ [x]))
    (listed : Listed next nodes) : path ⊆ nodes := by
  intro y hy
  apply listed
  obtain ⟨before, after, rfl⟩ := List.append_of_mem hy
  obtain ⟨z, rest, later⟩ : ∃ z rest, after ++ [x] = z :: rest :=
    List.exists_cons_of_ne_nil (by simp)
  have chain := h.chain
  rw [List.append_assoc, List.cons_append, later] at chain
  exact List.ne_nil_of_mem (List.isChain_cons_cons.mp chain.right_of_append).1

/-- The path above a node is no longer than the list of the nodes. -/
theorem IsPath.length_le {nodes path : List α} {x : α} (h : IsPath next (path ++ [x]))
    (listed : Listed next nodes) : path.length ≤ nodes.length := by
  have distinct := (List.nodup_append.mp h.distinct).1
  exact (List.subperm_of_subset distinct (h.left_mem listed)).length_le

variable [DecidableEq α]

/-- The part of the path from a target on, closed by it. -/
theorem isCycle_cut {path : List α} {x target : α}
    (chain : (path ++ [x]).IsChain fun x y => y ∈ next x) (edge : target ∈ next x)
    (closes : target ∈ path ++ [x]) :
    IsCycle next ((path ++ [x]).drop ((path ++ [x]).idxOf target) ++ [target]) := by
  have whole := isChain_concat chain edge
  have position := List.idxOf_lt_length_of_mem closes
  obtain ⟨rest, cut⟩ : ∃ rest,
      (path ++ [x]).drop ((path ++ [x]).idxOf target) = target :: rest := by
    rw [List.drop_eq_getElem_cons position, List.getElem_idxOf position]
    exact ⟨_, rfl⟩
  refine ⟨target, rest, by rw [cut, List.cons_append], ?_⟩
  rw [← List.drop_append_of_le_length position.le]
  exact whole.drop _

/-! ## Searches that stop at a cycle -/

/-- What a search does at a target of an edge. -/
def enter (next : α → List α) (fuel : Nat) (path visited : List α) (target : α) :
    Except (List α) (List α) :=
  if target ∈ path then .error (path.drop (path.idxOf target) ++ [target])
  else if target ∈ visited then .ok visited
  else visit next fuel target path visited

theorem visit_succ (fuel : Nat) (name : α) (stack visited : List α) :
    visit next (fuel + 1) name stack visited =
      ((next name).foldlM (enter next fuel (stack ++ [name])) visited).map (name :: ·) := by
  rw [visit]
  change Except.bind ((next name).foldlM (enter next fuel (stack ++ [name])) visited) _ = _
  cases (next name).foldlM (enter next fuel (stack ++ [name])) visited <;> rfl

theorem findCycle_eq (nodes : List α) :
    findCycle next nodes = match nodes.foldlM (enter next (nodes.length + 1) []) [] with
      | .ok _ => none
      | .error cycle => some cycle := by
  have same : (fun visited name => if name ∈ visited then .ok visited
      else visit next (nodes.length + 1) name [] visited) = enter next (nodes.length + 1) [] := by
    funext visited name
    rw [enter, if_neg List.not_mem_nil]
  cases search : nodes.foldlM (enter next (nodes.length + 1) []) [] <;>
    simp only [findCycle, same, search]

omit [DecidableEq α] in
theorem exists_error_of_foldlM {ε β : Type*} {step : β → α → Except ε β} {targets : List α}
    {start : β} {error : ε} (h : targets.foldlM step start = .error error) :
    ∃ target ∈ targets, ∃ state, step state target = .error error := by
  induction targets generalizing start with
  | nil => cases h
  | cons target rest ih =>
      rw [List.foldlM_cons] at h
      cases first : step start target with
      | error found =>
          rw [first] at h
          cases h
          exact ⟨target, by simp, start, first⟩
      | ok middle =>
          rw [first] at h
          obtain ⟨other, mem, state, raised⟩ := ih h
          exact ⟨other, by simp [mem], state, raised⟩

theorem exists_error_of_map {ε β γ : Type*} {result : Except ε β} {f : β → γ} {error : ε}
    (h : result.map f = .error error) : result = .error error := by
  cases result with
  | error found =>
      cases h
      rfl
  | ok value => cases h

theorem visit_cycle {nodes : List α} (listed : Listed next nodes) {fuel : Nat} {name : α}
    {stack visited cycle : List α} (path : IsPath next (stack ++ [name]))
    (enough : nodes.length < fuel + stack.length)
    (h : visit next fuel name stack visited = .error cycle) : IsCycle next cycle := by
  induction fuel generalizing name stack visited with
  | zero =>
      have short := path.length_le listed
      omega
  | succ fuel ih =>
      rw [visit_succ] at h
      obtain ⟨target, edge, state, step⟩ := exists_error_of_foldlM (exists_error_of_map h)
      rw [enter] at step
      split at step
      · next closes =>
          cases step
          exact isCycle_cut path.chain edge closes
      · next fresh =>
          split at step
          · cases step
          · refine ih (path.concat edge fresh) ?_ step
            rw [List.length_append, List.length_singleton]
            omega

theorem search_cycle {nodes cycle : List α} (listed : Listed next nodes)
    (h : nodes.foldlM (enter next (nodes.length + 1) []) [] = .error cycle) :
    IsCycle next cycle := by
  obtain ⟨name, _, state, step⟩ := exists_error_of_foldlM h
  rw [enter, if_neg List.not_mem_nil] at step
  split at step
  · cases step
  · exact visit_cycle listed (isPath_singleton name) (by simp) step

/-- What a search reports is a cycle. -/
theorem findCycle_isCycle {nodes cycle : List α} (listed : Listed next nodes)
    (h : findCycle next nodes = some cycle) : IsCycle next cycle := by
  rw [findCycle_eq] at h
  split at h
  · cases h
  · next found raised =>
      cases h
      exact search_cycle listed raised

/-- A search reports a cycle exactly if there is one. -/
theorem findCycle_eq_none_iff {nodes : List α} (listed : Listed next nodes) :
    findCycle next nodes = none ↔ Acyclic next := by
  constructor
  · intro silent
    obtain ⟨height, down⟩ := exists_rank_of_findCycle silent
    refine acyclic_of_height fun x y edge => down x ?_ y edge
    exact listed x (List.ne_nil_of_mem edge)
  · intro acyclic
    cases found : findCycle next nodes with
    | none => rfl
    | some cycle => exact absurd (findCycle_isCycle listed found) (acyclic cycle)

/-! ## The order in which nodes are finished -/

/-- The nodes that a search has finished: each once, none on its path, all listed. -/
structure IsFinished (nodes path finished : List α) : Prop where
  distinct : finished.Nodup
  apart : ∀ x ∈ path, x ∉ finished
  inside : finished ⊆ nodes

omit [DecidableEq α] in
theorem IsFinished.concat {nodes path finished : List α} {x : α}
    (h : IsFinished nodes path finished) (unseen : x ∉ finished) :
    IsFinished nodes (path ++ [x]) finished := by
  refine ⟨h.distinct, fun y hy => ?_, h.inside⟩
  rcases List.mem_append.mp hy with hy | hy
  · exact h.apart y hy
  · exact List.mem_singleton.mp hy ▸ unseen

omit [DecidableEq α] in
theorem nodup_concat {path : List α} {x : α} (distinct : path.Nodup) (fresh : x ∉ path) :
    (path ++ [x]).Nodup := by
  refine List.nodup_append.mpr ⟨distinct, by simp, ?_⟩
  rintro a ha b hb rfl
  exact fresh (List.mem_singleton.mp hb ▸ ha)

omit [DecidableEq α] in
/-- A fold keeps what each of its steps keeps. -/
theorem foldlM_keeps {ε β : Type*} {Inv : β → Prop} {step : β → α → Except ε β}
    {targets : List α} {start final : β}
    (keeps : ∀ state, ∀ target ∈ targets, ∀ after, Inv state → step state target = .ok after →
      Inv after)
    (initial : Inv start) (h : targets.foldlM step start = .ok final) : Inv final := by
  induction targets generalizing start with
  | nil =>
      cases h
      exact initial
  | cons target rest ih =>
      rw [List.foldlM_cons] at h
      cases first : step start target with
      | error found =>
          rw [first] at h
          cases h
      | ok middle =>
          rw [first] at h
          refine ih (fun state target mem => keeps state target (by simp [mem])) ?_ h
          exact keeps start target (by simp) middle initial first

/-- The nodes that are finished below a node stay apart from the path to it. -/
theorem enter_isFinished {nodes : List α} (closed : ∀ x ∈ nodes, next x ⊆ nodes) {fuel : Nat}
    {target : α} {path visited finished : List α} (listed : target ∈ nodes)
    (distinct : path.Nodup) (start : IsFinished nodes path visited)
    (h : enter next fuel path visited target = .ok finished) :
    IsFinished nodes path finished := by
  induction fuel generalizing target path visited finished with
  | zero =>
      rw [enter] at h
      split at h
      · cases h
      · split at h
        · cases h
          exact start
        · cases h
  | succ fuel ih =>
      rw [enter] at h
      split at h
      · cases h
      · next fresh =>
          split at h
          · cases h
            exact start
          · next unseen =>
              rw [visit_succ] at h
              cases fold : (next target).foldlM (enter next fuel (path ++ [target])) visited with
              | error found =>
                  rw [fold] at h
                  cases h
              | ok inner =>
                  rw [fold] at h
                  cases h
                  have below : IsFinished nodes (path ++ [target]) inner :=
                    foldlM_keeps (fun visited other edge finished start step =>
                      ih (closed target listed edge) (nodup_concat distinct fresh) start step)
                      (start.concat unseen) fold
                  refine ⟨List.nodup_cons.mpr ⟨below.apart target (by simp), below.distinct⟩,
                    fun x hx => ?_, List.cons_subset.mpr ⟨listed, below.inside⟩⟩
                  rw [List.mem_cons, not_or]
                  exact ⟨fun same => fresh (same ▸ hx), below.apart x (by simp [hx])⟩

/-- The search that looks at the state of a node when it gets there: a finished node is left
alone, one on the path closes a cycle.  It returns the finished nodes, newest last. -/
def settle (next : α → List α) : Nat → α → List α → List α → Except (List α) (List α)
  | 0, name, stack, ordered =>
      if name ∈ ordered then .ok ordered
      else if name ∈ stack then .error (stack.drop (stack.idxOf name) ++ [name])
      else .error []
  | fuel + 1, name, stack, ordered =>
      if name ∈ ordered then .ok ordered
      else if name ∈ stack then .error (stack.drop (stack.idxOf name) ++ [name])
      else do
        let ordered ← (next name).foldlM
          (fun ordered target => settle next fuel target (stack ++ [name]) ordered) ordered
        return ordered ++ [name]

/-- The order in which the nodes are settled. -/
def finishOrder (next : α → List α) (nodes : List α) : Except (List α) (List α) :=
  nodes.foldlM (fun ordered name => settle next (nodes.length + 1) name [] ordered) []

omit [DecidableEq α] in
/-- Two folds that agree step by step, up to a map of their states. -/
theorem foldlM_map {ε β γ : Type*} {Inv : β → Prop} (f : β → γ) (step : β → α → Except ε β)
    (mapped : γ → α → Except ε γ) {targets : List α} {start : β}
    (same : ∀ state, ∀ target ∈ targets, Inv state →
      mapped (f state) target = (step state target).map f)
    (keeps : ∀ state, ∀ target ∈ targets, ∀ after, Inv state → step state target = .ok after →
      Inv after)
    (initial : Inv start) :
    targets.foldlM mapped (f start) = (targets.foldlM step start).map f := by
  induction targets generalizing start with
  | nil => rfl
  | cons target rest ih =>
      rw [List.foldlM_cons, List.foldlM_cons, same start target (by simp) initial]
      cases first : step start target with
      | error found => rfl
      | ok middle =>
          refine ih (fun state target mem => same state target (by simp [mem]))
            (fun state target mem => keeps state target (by simp [mem])) ?_
          exact keeps start target (by simp) middle initial first

/-- Both searches go the same way. -/
theorem settle_reverse {nodes : List α} (closed : ∀ x ∈ nodes, next x ⊆ nodes) {fuel : Nat}
    {target : α} {path visited : List α} (listed : target ∈ nodes) (distinct : path.Nodup)
    (start : IsFinished nodes path visited) :
    settle next fuel target path visited.reverse =
      (enter next fuel path visited target).map List.reverse := by
  induction fuel generalizing target path visited with
  | zero =>
      rw [settle, enter]
      simp only [List.mem_reverse]
      by_cases visiting : target ∈ path
      · rw [if_neg (start.apart target visiting), if_pos visiting, if_pos visiting]
        rfl
      · rw [if_neg visiting, if_neg visiting]
        split <;> rfl
  | succ fuel ih =>
      rw [settle, enter]
      simp only [List.mem_reverse]
      by_cases visiting : target ∈ path
      · rw [if_neg (start.apart target visiting), if_pos visiting, if_pos visiting]
        rfl
      · rw [if_neg visiting, if_neg visiting]
        split
        · rfl
        · next unseen =>
            have longer := nodup_concat distinct visiting
            have below := foldlM_map List.reverse (enter next fuel (path ++ [target]))
              (fun ordered other => settle next fuel other (path ++ [target]) ordered)
              (fun visited other edge start => ih (closed target listed edge) longer start)
              (fun visited other edge finished start step =>
                enter_isFinished closed (closed target listed edge) longer start step)
              (start.concat unseen)
            rw [below, visit_succ]
            cases (next target).foldlM (enter next fuel (path ++ [target])) visited with
            | error found => rfl
            | ok inner => exact congrArg Except.ok List.reverse_cons.symm

omit [DecidableEq α] in
theorem isFinished_nil (nodes : List α) : IsFinished nodes [] [] :=
  ⟨by simp, by simp, by simp⟩

theorem finishOrder_eq {nodes : List α} (closed : ∀ x ∈ nodes, next x ⊆ nodes) :
    finishOrder next nodes =
      (nodes.foldlM (enter next (nodes.length + 1) []) []).map List.reverse :=
  foldlM_map List.reverse (enter next (nodes.length + 1) [])
    (fun ordered name => settle next (nodes.length + 1) name [] ordered)
    (fun _ _ listed start => settle_reverse closed listed (by simp) start)
    (fun _ _ listed _ start step => enter_isFinished closed listed (by simp) start step)
    (isFinished_nil nodes)

omit [DecidableEq α] in
theorem listed_of_closed {nodes : List α} (sources : ∀ x ∉ nodes, next x = []) :
    Listed next nodes := fun x some_ => by
  by_contra absent
  exact some_ (sources x absent)

/-- A failed search names a cycle. -/
theorem finishOrder_cycle {nodes cycle : List α} (listed : Listed next nodes)
    (closed : ∀ x ∈ nodes, next x ⊆ nodes) (h : finishOrder next nodes = .error cycle) :
    IsCycle next cycle := by
  rw [finishOrder_eq closed] at h
  exact search_cycle listed (exists_error_of_map h)

/-- A node depends on the nodes that edges lead to, directly or through others. -/
abbrev DependsOn (next : α → List α) : α → α → Prop :=
  Relation.TransGen fun x y => y ∈ next x

theorem Finished.idxOf_lt {l : List α} (h : Finished next l) (distinct : l.Nodup) {x y : α}
    (hx : x ∈ l) (edge : y ∈ next x) :
    y ∈ l ∧ l.reverse.idxOf y < l.reverse.idxOf x := by
  induction l with
  | nil => cases hx
  | cons z rest ih =>
      obtain ⟨fresh, distinct⟩ := List.nodup_cons.mp distinct
      rw [List.reverse_cons]
      by_cases older : x ∈ rest
      · obtain ⟨hy, lower⟩ := ih h.2 distinct older
        refine ⟨by simp [hy], ?_⟩
        rwa [List.idxOf_append_of_mem (List.mem_reverse.mpr hy),
          List.idxOf_append_of_mem (List.mem_reverse.mpr older)]
      · obtain rfl := (List.mem_cons.mp hx).resolve_right older
        have hy := h.1 y edge
        refine ⟨by simp [hy], ?_⟩
        rw [List.idxOf_append_of_mem (List.mem_reverse.mpr hy),
          List.idxOf_append_of_notMem (by simpa using fresh), List.idxOf_cons_self]
        have := List.idxOf_lt_length_of_mem (List.mem_reverse.mpr hy)
        omega

/-- The order of a successful search: every node once, and after all that it depends on. -/
theorem finishOrder_ok {nodes order : List α} (closed : ∀ x ∈ nodes, next x ⊆ nodes)
    (h : finishOrder next nodes = .ok order) :
    order.Nodup ∧ (∀ x, x ∈ order ↔ x ∈ nodes) ∧
      ∀ x ∈ nodes, ∀ y, DependsOn next x y → order.idxOf y < order.idxOf x := by
  rw [finishOrder_eq closed] at h
  cases fold : nodes.foldlM (enter next (nodes.length + 1) []) [] with
  | error cycle =>
      rw [fold] at h
      cases h
  | ok finished =>
      rw [fold] at h
      cases h
      have state : IsFinished nodes [] finished :=
        foldlM_keeps (fun _ _ listed _ start step =>
          enter_isFinished closed listed (by simp) start step) (isFinished_nil nodes) fold
      have initial : Finished next ([] : List α) := trivial
      have ordered := foldlM_extends (fun visited target after start step => by
        rw [enter, if_neg List.not_mem_nil] at step
        split at step
        · next seen =>
            cases step
            exact ⟨⟨start, List.Subset.refl _⟩, seen⟩
        · exact visit_extends start step) initial fold
      refine ⟨(List.reverse_perm finished).nodup_iff.mpr state.distinct, fun x => ?_,
        fun x hx y below => ?_⟩
      · rw [List.mem_reverse]
        exact ⟨fun hx => state.inside hx, ordered.2 x⟩
      · -- along the edges, every node is finished before the one that leads to it
        have lower : ∀ a ∈ finished, ∀ b ∈ next a,
            b ∈ finished ∧ finished.reverse.idxOf b < finished.reverse.idxOf a :=
          fun a ha b edge => ordered.1.ordered.idxOf_lt state.distinct ha edge
        have start := ordered.2 x hx
        suffices y ∈ finished ∧ finished.reverse.idxOf y < finished.reverse.idxOf x from this.2
        induction below with
        | single edge => exact lower x start _ edge
        | tail _ edge ih =>
            obtain ⟨mem, down⟩ := lower _ ih.1 _ edge
            exact ⟨mem, down.trans ih.2⟩

/-- A search succeeds exactly if there is no cycle. -/
theorem exists_finishOrder_iff {nodes : List α} (listed : Listed next nodes)
    (closed : ∀ x ∈ nodes, next x ⊆ nodes) :
    (∃ order, finishOrder next nodes = .ok order) ↔ Acyclic next := by
  rw [← findCycle_eq_none_iff listed, findCycle_eq, finishOrder_eq closed]
  cases nodes.foldlM (enter next (nodes.length + 1) []) [] with
  | error cycle =>
      constructor
      · rintro ⟨_, ⟨⟩⟩
      · rintro ⟨⟩
  | ok finished => exact ⟨fun _ => rfl, fun _ => ⟨_, rfl⟩⟩

/-! ## Searches that collect the cycles -/

/-- Depth-first search below a node that goes on after a cycle: the finished nodes, newest first,
and the cycles found so far. -/
def explore (next : α → List α) : Nat → α → List α → List α × List (List α) →
    List α × List (List α)
  | 0, _, _, found => found
  | fuel + 1, name, stack, found =>
      let path := stack ++ [name]
      let found := (next name).foldl (fun found target =>
        if target ∈ path then
          (found.1, found.2 ++ [path.drop (path.idxOf target) ++ [target]])
        else if target ∈ found.1 then found
        else explore next fuel target path found) found
      (name :: found.1, found.2)

/-- The cycles that the searches from all nodes in turn find. -/
def allCycles (next : α → List α) (nodes : List α) : List (List α) :=
  (nodes.foldl (fun found name =>
    if name ∈ found.1 then found else explore next (nodes.length + 1) name [] found) ([], [])).2

/-- What the search does at a target of an edge. -/
def turn (next : α → List α) (fuel : Nat) (path : List α) (found : List α × List (List α))
    (target : α) : List α × List (List α) :=
  if target ∈ path then (found.1, found.2 ++ [path.drop (path.idxOf target) ++ [target]])
  else if target ∈ found.1 then found
  else explore next fuel target path found

theorem explore_succ (fuel : Nat) (name : α) (stack : List α) (found : List α × List (List α)) :
    explore next (fuel + 1) name stack found =
      (name :: ((next name).foldl (turn next fuel (stack ++ [name])) found).1,
        ((next name).foldl (turn next fuel (stack ++ [name])) found).2) :=
  rfl

theorem allCycles_eq (nodes : List α) :
    allCycles next nodes = (nodes.foldl (turn next (nodes.length + 1) []) ([], [])).2 := by
  have same : (fun found name => if name ∈ found.1 then found
      else explore next (nodes.length + 1) name [] found) = turn next (nodes.length + 1) [] := by
    funext found name
    rw [turn, if_neg List.not_mem_nil]
  rw [allCycles, same]

/-- What a part of the search adds. -/
structure Explored (next : α → List α) (before after : List α × List (List α)) : Prop where
  keeps : before.1 ⊆ after.1
  grows : ∃ more, after.2 = before.2 ++ more ∧ (∀ cycle ∈ more, IsCycle next cycle) ∧
    (more = [] → Finished next before.1 → Finished next after.1)

omit [DecidableEq α] in
theorem Explored.refl (found : List α × List (List α)) : Explored next found found :=
  ⟨List.Subset.refl _, [], by simp, by simp, fun _ h => h⟩

omit [DecidableEq α] in
theorem Explored.trans {first second third : List α × List (List α)}
    (h : Explored next first second) (h' : Explored next second third) :
    Explored next first third := by
  obtain ⟨more, cycles, real, finished⟩ := h.grows
  obtain ⟨more', cycles', real', finished'⟩ := h'.grows
  refine ⟨List.Subset.trans h.keeps h'.keeps, more ++ more',
    by rw [cycles', cycles, List.append_assoc], fun cycle hc => ?_, fun none_ start => ?_⟩
  · rcases List.mem_append.mp hc with hc | hc
    · exact real cycle hc
    · exact real' cycle hc
  · obtain ⟨rfl, rfl⟩ := List.append_eq_nil_iff.mp none_
    exact finished' rfl (finished rfl start)

omit [DecidableEq α] in
/-- A fold over targets explores, and finishes every target unless it finds a cycle. -/
theorem foldl_explored {step : List α × List (List α) → α → List α × List (List α)}
    {targets : List α}
    (each : ∀ found, ∀ target ∈ targets, Explored next found (step found target) ∧
      ((step found target).2 = found.2 → target ∈ (step found target).1))
    (start : List α × List (List α)) :
    Explored next start (targets.foldl step start) ∧
      ((targets.foldl step start).2 = start.2 →
        ∀ target ∈ targets, target ∈ (targets.foldl step start).1) := by
  induction targets generalizing start with
  | nil => exact ⟨.refl start, by simp⟩
  | cons target rest ih =>
      obtain ⟨first, settled⟩ := each start target (by simp)
      obtain ⟨later, all⟩ := ih (fun found other mem => each found other (by simp [mem]))
        (step start target)
      refine ⟨first.trans later, fun silent => ?_⟩
      obtain ⟨more, cycles, _⟩ := first.grows
      obtain ⟨more', cycles', _⟩ := later.grows
      -- no cycle at the end, so none was found on the way
      rw [List.foldl_cons, cycles', cycles, List.append_assoc] at silent
      obtain ⟨rfl, rfl⟩ := List.append_eq_nil_iff.mp (List.append_right_eq_self.mp silent)
      rw [List.append_nil] at cycles cycles'
      intro other mem
      rw [List.foldl_cons]
      rcases List.mem_cons.mp mem with rfl | mem
      · exact later.keeps (settled cycles)
      · exact all cycles' other mem

theorem turn_explored {fuel : Nat} {path : List α} {name target : α}
    {found : List α × List (List α)} (above : IsPath next (path ++ [name]))
    (edge : target ∈ next name)
    (below : target ∉ path ++ [name] →
      Explored next found (explore next fuel target (path ++ [name]) found) ∧
        target ∈ (explore next fuel target (path ++ [name]) found).1) :
    Explored next found (turn next fuel (path ++ [name]) found target) ∧
      ((turn next fuel (path ++ [name]) found target).2 = found.2 →
        target ∈ (turn next fuel (path ++ [name]) found target).1) := by
  rw [turn]
  split
  · next closes =>
      have real := isCycle_cut above.chain edge closes
      refine ⟨⟨List.Subset.refl _, _, rfl, by simpa using real, by simp⟩, fun silent => ?_⟩
      exact absurd (List.append_right_eq_self.mp silent) (by simp)
  · next fresh =>
      split
      · next seen => exact ⟨.refl found, fun _ => seen⟩
      · exact ⟨(below fresh).1, fun _ => (below fresh).2⟩

theorem explore_explored {nodes : List α} (listed : Listed next nodes) {fuel : Nat} {name : α}
    {stack : List α} (path : IsPath next (stack ++ [name]))
    (enough : nodes.length < fuel + stack.length) (found : List α × List (List α)) :
    Explored next found (explore next fuel name stack found) ∧
      name ∈ (explore next fuel name stack found).1 := by
  induction fuel generalizing name stack found with
  | zero =>
      have short := path.length_le listed
      omega
  | succ fuel ih =>
      have each : ∀ found, ∀ target ∈ next name,
          Explored next found (turn next fuel (stack ++ [name]) found target) ∧
            ((turn next fuel (stack ++ [name]) found target).2 = found.2 →
              target ∈ (turn next fuel (stack ++ [name]) found target).1) := by
        refine fun found target edge => turn_explored path edge fun fresh => ?_
        refine ih (path.concat edge fresh) ?_ found
        rw [List.length_append, List.length_singleton]
        omega
      obtain ⟨below, all⟩ := foldl_explored each found
      rw [explore_succ]
      refine ⟨⟨List.Subset.trans below.keeps (List.subset_cons_self _ _), ?_⟩, by simp⟩
      obtain ⟨more, cycles, real, finished⟩ := below.grows
      refine ⟨more, cycles, real, fun none_ start => ⟨?_, finished none_ start⟩⟩
      rw [none_, List.append_nil] at cycles
      exact all cycles

/-- The search over all nodes reports real cycles, and none exactly if there is none. -/
theorem allCycles_spec {nodes : List α} (listed : Listed next nodes) :
    (∀ cycle ∈ allCycles next nodes, IsCycle next cycle) ∧
      (allCycles next nodes = [] ↔ Acyclic next) := by
  have each : ∀ found, ∀ name ∈ nodes,
      Explored next found (turn next (nodes.length + 1) [] found name) ∧
        ((turn next (nodes.length + 1) [] found name).2 = found.2 →
          name ∈ (turn next (nodes.length + 1) [] found name).1) := by
    intro found name _
    rw [turn, if_neg List.not_mem_nil]
    split
    · next seen => exact ⟨.refl found, fun _ => seen⟩
    · obtain ⟨explored, settled⟩ := @explore_explored _ _ _ nodes listed
        (nodes.length + 1) name [] (isPath_singleton name) (by simp) found
      exact ⟨explored, fun _ => settled⟩
  obtain ⟨explored, all⟩ := foldl_explored each ([], [])
  obtain ⟨more, cycles, real, finished⟩ := explored.grows
  have found : allCycles next nodes = more := by
    rw [allCycles_eq, cycles, List.nil_append]
  rw [found]
  refine ⟨real, fun none_ => ?_, fun acyclic => ?_⟩
  · rw [none_, List.append_nil] at cycles
    have initial : Finished next ([] : List α) := trivial
    refine acyclic_of_height fun x y edge =>
      ((finished none_ initial).rank_lt (all cycles x ?_) edge).2
    exact listed x (List.ne_nil_of_mem edge)
  · cases more with
    | nil => rfl
    | cons cycle rest => exact absurd (real cycle (by simp)) (acyclic cycle)

end Digraph
