import Justflow.Library.Fields

/-!
# Facts that hold on every path

A forward must-analysis over an acyclic graph with labelled edges: a node has the facts that all
of its entries and all of its analysed predecessors agree on, where a predecessor passes on its
own facts and those its edge produces.  The nodes are taken in an order in which predecessors
come first, so one pass is enough.
-/

namespace MustFlow

universe u v

structure Edge (ν : Type u) (φ : Type v) where
  source : ν
  target : ν
  produced : List φ

variable {ν : Type u} {φ : Type v} [DecidableEq ν] [DecidableEq φ]

/-- The facts that all of the sets hold. -/
def meet : List (List φ) → List φ
  | [] => []
  | first :: rest => rest.foldl (fun common facts => common.filter (· ∈ facts)) first

/-- What a node may rely on: its entry facts, and what each analysed predecessor passes on. -/
def incoming (edges : List (Edge ν φ)) (entry : List (ν × List φ))
    (available : List (ν × List φ)) (node : ν) : List (List φ) :=
  (entry.lookup node).toList ++
    (edges.filter fun e => e.target = node).filterMap fun e =>
      (available.lookup e.source).map (· ++ e.produced)

def visit (edges : List (Edge ν φ)) (allowed : ν → Bool) (entry : List (ν × List φ))
    (available : List (ν × List φ)) (node : ν) : List (ν × List φ) :=
  if allowed node then
    match incoming edges entry available node with
    | [] => available
    | sets => available ++ [(node, meet sets)]
  else available

/-- One pass over the order. -/
def availability (edges : List (Edge ν φ)) (allowed : ν → Bool) (entry : List (ν × List φ))
    (order : List ν) : List (ν × List φ) :=
  order.foldl (visit edges allowed entry) []

omit [DecidableEq ν] in
theorem foldl_filter_subset (common : List φ) (sets : List (List φ)) :
    sets.foldl (fun common facts => common.filter (· ∈ facts)) common ⊆ common
      ∧ ∀ facts ∈ sets,
        sets.foldl (fun common facts => common.filter (· ∈ facts)) common ⊆ facts := by
  induction sets generalizing common with
  | nil => simp
  | cons facts rest ih =>
      obtain ⟨hcommon, hrest⟩ := ih (common.filter (· ∈ facts))
      refine ⟨fun x hx => List.mem_of_mem_filter (hcommon hx), fun s hs x hx => ?_⟩
      rcases List.mem_cons.mp hs with rfl | hs
      · simpa using (List.mem_filter.mp (hcommon hx)).2
      · exact hrest s hs hx

omit [DecidableEq ν] in
/-- The meet is below each of its sets. -/
theorem meet_subset {sets : List (List φ)} {facts : List φ} (h : facts ∈ sets) :
    meet sets ⊆ facts := by
  cases sets with
  | nil => simp at h
  | cons first rest =>
      rcases List.mem_cons.mp h with rfl | h
      · exact (foldl_filter_subset _ rest).1
      · exact (foldl_filter_subset first rest).2 facts h

omit [DecidableEq ν] in
theorem subset_foldl_filter {common facts : List φ} {sets : List (List φ)}
    (hcommon : facts ⊆ common) (hsets : ∀ s ∈ sets, facts ⊆ s) :
    facts ⊆ sets.foldl (fun common facts => common.filter (· ∈ facts)) common := by
  induction sets generalizing common with
  | nil => exact hcommon
  | cons s rest ih =>
      refine ih (fun x hx => List.mem_filter.mpr ⟨hcommon hx, ?_⟩) fun t ht => hsets t (by simp [ht])
      simpa using hsets s (by simp) hx

omit [DecidableEq ν] in
/-- The meet is the largest set below all of its sets. -/
theorem subset_meet {sets : List (List φ)} {facts : List φ} (hne : sets ≠ [])
    (h : ∀ s ∈ sets, facts ⊆ s) : facts ⊆ meet sets := by
  cases sets with
  | nil => exact False.elim (hne rfl)
  | cons first rest =>
      exact subset_foldl_filter (h first (by simp)) fun s hs => h s (by simp [hs])

variable {edges : List (Edge ν φ)} {allowed : ν → Bool} {entry : List (ν × List φ)}

omit [DecidableEq φ] in
theorem lookup_append_singleton (available : List (ν × List φ)) (node other : ν)
    (facts : List φ) :
    (available ++ [(node, facts)]).lookup other
      = (available.lookup other).or (if other = node then some facts else none) := by
  rw [List.lookup_append]
  by_cases h : other = node
  · subst h
    simp
  · have : (other == node) = false := by simpa using h
    simp [List.lookup_cons, this, h]

theorem lookup_visit_of_ne (available : List (ν × List φ)) {node other : ν} (h : other ≠ node) :
    (visit edges allowed entry available node).lookup other = available.lookup other := by
  unfold visit
  split
  · split
    · rfl
    · rw [lookup_append_singleton, if_neg h, Option.or_none]
  · rfl

theorem lookup_foldl_of_not_mem (available : List (ν × List φ)) {nodes : List ν} {node : ν}
    (h : node ∉ nodes) :
    (nodes.foldl (visit edges allowed entry) available).lookup node = available.lookup node := by
  induction nodes generalizing available with
  | nil => rfl
  | cons first rest ih =>
      simp only [List.mem_cons, not_or] at h
      rw [List.foldl_cons, ih _ h.2, lookup_visit_of_ne _ h.1]

/-- What a node has after the pass is decided when it is visited, from what the nodes before it
have after the pass. -/
theorem lookup_availability {before after : List ν} {node : ν}
    (hnodup : (before ++ node :: after).Nodup) (hallowed : allowed node = true) :
    (availability edges allowed entry (before ++ node :: after)).lookup node =
      match incoming edges entry (availability edges allowed entry before) node with
      | [] => none
      | sets => some (meet sets) := by
  obtain ⟨-, hafter, hdisjoint⟩ := List.nodup_append.mp hnodup
  have hnew : (availability edges allowed entry before).lookup node = none := by
    have hmem : node ∉ before := fun hmem => hdisjoint node hmem node (by simp) rfl
    exact lookup_foldl_of_not_mem [] hmem
  have hfold : availability edges allowed entry (before ++ node :: after)
      = after.foldl (visit edges allowed entry)
        (visit edges allowed entry (availability edges allowed entry before) node) := by
    simp [availability, List.foldl_append]
  rw [hfold, lookup_foldl_of_not_mem _ (List.nodup_cons.mp hafter).1]
  unfold visit
  rw [if_pos hallowed]
  split
  · rename_i hsets
    rw [hnew]
  · rw [lookup_append_singleton, hnew, if_pos rfl, Option.none_or]

theorem lookup_availability_before {before after : List ν} {node : ν}
    (hnodup : (before ++ after).Nodup) (hmem : node ∈ before) :
    (availability edges allowed entry (before ++ after)).lookup node
      = (availability edges allowed entry before).lookup node := by
  obtain ⟨-, -, hdisjoint⟩ := List.nodup_append.mp hnodup
  rw [availability, List.foldl_append]
  exact lookup_foldl_of_not_mem _ fun h => hdisjoint node hmem node h rfl

/-- An order of distinct nodes in which the source of every edge comes before its target. -/
structure Sorted (edges : List (Edge ν φ)) (order : List ν) : Prop where
  distinct : order.Nodup
  before : ∀ before node after, order = before ++ node :: after →
    ∀ e ∈ edges, e.target = node → e.source ∈ before

theorem availability_of_mem {order : List ν} (hsorted : Sorted edges order) {node : ν} (hnode : node ∈ order) (hallowed : allowed node = true) {facts : List φ}
    (hfacts : facts ∈ incoming edges entry (availability edges allowed entry order) node) :
    ∃ held, (availability edges allowed entry order).lookup node = some held ∧ held ⊆ facts := by
  obtain ⟨before, after, rfl⟩ := List.append_of_mem hnode
  have hsame : incoming edges entry (availability edges allowed entry (before ++ node :: after)) node
      = incoming edges entry (availability edges allowed entry before) node := by
    unfold incoming
    congr 1
    refine List.filterMap_congr fun e he => ?_
    obtain ⟨he, htarget⟩ := List.mem_filter.mp he
    have hsource := hsorted.before before node after rfl e he (by simpa using htarget)
    rw [lookup_availability_before hsorted.distinct hsource]
  rw [hsame] at hfacts
  rw [lookup_availability hsorted.distinct hallowed]
  cases hsets : incoming edges entry (availability edges allowed entry before) node with
  | nil =>
      rw [hsets] at hfacts
      simp at hfacts
  | cons first rest =>
      rw [hsets] at hfacts
      exact ⟨_, rfl, meet_subset hfacts⟩

/-- A node has at most its entry facts. -/
theorem availability_entry {order : List ν} (hsorted : Sorted edges order) {node : ν}
    (hnode : node ∈ order) (hallowed : allowed node = true) {facts : List φ}
    (hentry : entry.lookup node = some facts) :
    ∃ held, (availability edges allowed entry order).lookup node = some held ∧ held ⊆ facts :=
  availability_of_mem hsorted hnode hallowed (by simp [incoming, hentry])

/-- A node has at most what an edge into it passes on. -/
theorem availability_edge {order : List ν} (hsorted : Sorted edges order) {e : Edge ν φ}
    (he : e ∈ edges) (hnode : e.target ∈ order) (hallowed : allowed e.target = true)
    {facts : List φ} (hsource : (availability edges allowed entry order).lookup e.source = some facts) :
    ∃ held, (availability edges allowed entry order).lookup e.target = some held
      ∧ held ⊆ facts ++ e.produced := by
  refine availability_of_mem hsorted hnode hallowed ?_
  refine List.mem_append_right _ (List.mem_filterMap.mpr ⟨e, ?_, by simp [hsource]⟩)
  exact List.mem_filter.mpr ⟨he, by simp⟩

/-- Only admitted nodes are analysed. -/
theorem allowed_of_lookup {order : List ν} {node : ν} {facts : List φ}
    (h : (availability edges allowed entry order).lookup node = some facts) : allowed node = true := by
  have hall : ∀ (nodes : List ν) (available : List (ν × List φ)),
      (∀ e ∈ available, allowed e.1 = true) →
        ∀ e ∈ nodes.foldl (visit edges allowed entry) available, allowed e.1 = true := by
    intro nodes
    induction nodes with
    | nil => exact fun available h => h
    | cons first rest ih =>
        intro available havailable
        refine ih _ fun e he => ?_
        unfold visit at he
        split at he
        · rename_i hallowed
          split at he
          · exact havailable e he
          · rcases List.mem_append.mp he with he | he
            · exact havailable e he
            · rw [List.mem_singleton.mp he]
              exact hallowed
        · exact havailable e he
  obtain ⟨before, after, hsplit, -⟩ := List.lookup_eq_some_iff.mp h
  have hmem : (node, facts) ∈ availability edges allowed entry order := by
    rw [hsplit]
    simp
  exact hall order [] (by simp) _ hmem

end MustFlow
