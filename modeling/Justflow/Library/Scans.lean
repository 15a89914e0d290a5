import Justflow.Library.Paging

/-!
# Bounded scans

A scan goes through a list and collects what it is shown of the elements, until it has as much as
it was asked for.  Of more than `bound` elements it does not look at the next one.

A list that is read in parts is scanned as a whole (`scan_append`), whatever the parts are.  A
search that always begins where the last scan ended (`Remains`) finds everything once.
-/

namespace Scans

variable {α β : Type}

inductive Outcome (α β : Type) where
  /-- There is another element, but the bound is reached. -/
  | beyond
  | full (found : List β) (rest : List α)
  | ended (found : List β)

section Scan

variable (shown : α → Option β) (limit bound : Nat)

def scan : List α → Nat → List β → Outcome α β
  | [], _, found => .ended found
  | a :: rest, scanned, found =>
      if bound ≤ scanned then .beyond
      else
        let found := found ++ (shown a).toList
        if limit ≤ found.length then .full found rest
        else scan rest (scanned + 1) found

/-- How many elements are looked at until `need` of them are shown. -/
def reach : Nat → List α → Nat
  | _, [] => 0
  | need, a :: rest =>
      if (shown a).isSome then
        if need ≤ 1 then 1 else reach (need - 1) rest + 1
      else reach need rest + 1

variable {shown limit bound}

theorem scan_append (first second : List α) (scanned : Nat) (found : List β) :
    scan shown limit bound (first ++ second) scanned found =
      match scan shown limit bound first scanned found with
      | .beyond => .beyond
      | .full found rest => .full found (rest ++ second)
      | .ended found => scan shown limit bound second (scanned + first.length) found := by
  induction first generalizing scanned found with
  | nil => rfl
  | cons a rest ih =>
      rw [List.cons_append, scan, scan]
      split
      · rfl
      · simp only
        split
        · rfl
        · rw [ih, List.length_cons, Nat.add_right_comm, Nat.add_assoc scanned]

theorem reach_le_length (need : Nat) (list : List α) : reach shown need list ≤ list.length := by
  fun_induction reach shown need list with
  | case1 => exact Nat.le_refl 0
  | case2 => exact Nat.succ_le_succ (Nat.zero_le _)
  | case3 _ _ _ _ _ ih => exact Nat.succ_le_succ ih
  | case4 _ _ _ _ ih => exact Nat.succ_le_succ ih

/-- What is shown behind the reach comes after the first `need`. -/
theorem filterMap_drop_reach (need : Nat) (list : List α) :
    (list.drop (reach shown (need + 1) list)).filterMap shown =
      (list.filterMap shown).drop (need + 1) := by
  induction list generalizing need with
  | nil => simp [reach]
  | cons a rest ih =>
      rw [reach]
      cases h : shown a with
      | none => simpa [h] using ih need
      | some b =>
          cases need with
          | zero => simp [h]
          | succ need => simpa [h] using ih need

/-- What a scan returns. -/
theorem scan_eq (list : List α) {scanned need : Nat} {found : List β} (within : scanned ≤ bound)
    (short : limit = found.length + (need + 1)) :
    scan shown limit bound list scanned found =
      if bound < scanned + reach shown (need + 1) list then .beyond
      else if need < (list.filterMap shown).length then
        .full (found ++ (list.filterMap shown).take (need + 1))
          (list.drop (reach shown (need + 1) list))
      else .ended (found ++ list.filterMap shown) := by
  induction list generalizing scanned need found with
  | nil => simp [scan, reach, Nat.not_lt.mpr within]
  | cons a rest ih =>
      rw [scan, reach]
      by_cases ended : bound ≤ scanned
      · have beyond : bound < scanned + if (shown a).isSome then
            if need + 1 ≤ 1 then 1 else reach shown (need + 1 - 1) rest + 1
          else reach shown (need + 1) rest + 1 := by
          split
          · split <;> omega
          · omega
        rw [if_pos ended, if_pos beyond]
      · rw [if_neg ended]
        cases h : shown a with
        | none =>
            have here : ¬ limit ≤ found.length := by omega
            have next := @ih (scanned + 1) need found (Nat.lt_of_not_le ended) short
            have count : scanned + (reach shown (need + 1) rest + 1) =
                scanned + 1 + reach shown (need + 1) rest := by omega
            simp only [Option.toList_none, List.append_nil, if_neg here, Option.isSome_none,
              Bool.false_eq_true, if_false, List.filterMap_cons_none h, List.drop_succ_cons, next,
              count]
        | some b =>
            simp only [Option.toList_some, List.length_append, List.length_singleton,
              Option.isSome_some, if_true, List.filterMap_cons_some h]
            cases need with
            | zero =>
                have here : limit ≤ found.length + 1 := by omega
                have within : ¬ bound < scanned + 1 := by omega
                have one : 0 + 1 ≤ 1 := Nat.le_refl 1
                have some_ : 0 < (b :: rest.filterMap shown).length := Nat.succ_pos _
                rw [if_pos here, if_pos one, if_neg within, if_pos some_]
                rfl
            | succ need =>
                have here : ¬ limit ≤ found.length + 1 := by omega
                have next := @ih (scanned + 1) need (found ++ [b]) (Nat.lt_of_not_le ended)
                  (by rw [List.length_append, List.length_singleton]; omega)
                have more : ¬ need + 1 + 1 ≤ 1 := by omega
                have count : scanned + (reach shown (need + 1) rest + 1) =
                    scanned + 1 + reach shown (need + 1) rest := by omega
                rw [if_neg here, if_neg more, next, Nat.add_sub_cancel, count]
                simp

/-- Fewer than `need` are shown of the whole list. -/
theorem reach_eq_length {need : Nat} {list : List α}
    (short : (list.filterMap shown).length < need) : reach shown need list = list.length := by
  induction list generalizing need with
  | nil => rfl
  | cons a rest ih =>
      rw [reach]
      cases h : shown a with
      | none =>
          rw [List.filterMap_cons_none h] at short
          simp [ih short]
      | some b =>
          rw [List.filterMap_cons_some h, List.length_cons] at short
          have more : ¬ need ≤ 1 := by omega
          have next := @ih (need - 1) (by omega)
          simp [if_neg more, next]

/-- A scan that is full has looked at something. -/
theorem length_lt_of_full {list : List α} {scanned : Nat} {found full : List β} {rest : List α}
    (h : scan shown limit bound list scanned found = .full full rest) :
    rest.length < list.length := by
  induction list generalizing scanned found with
  | nil => cases h
  | cons a tail ih =>
      rw [scan] at h
      split at h
      · cases h
      · simp only at h
        split at h
        · cases h
          exact Nat.lt_succ_self _
        · exact Nat.lt_succ_of_lt (ih h)

/-- The rest is an end of the list. -/
theorem rest_of_full {list : List α} {scanned : Nat} {found full : List β} {rest : List α}
    (h : scan shown limit bound list scanned found = .full full rest) :
    rest = list.drop (list.length - rest.length) := by
  induction list generalizing scanned found with
  | nil => cases h
  | cons a tail ih =>
      rw [scan] at h
      split at h
      · cases h
      · simp only at h
        split at h
        · cases h
          simp
        · have shorter := length_lt_of_full h
          have count : (a :: tail).length - rest.length = tail.length - rest.length + 1 := by
            rw [List.length_cons]
            omega
          rw [count, List.drop_succ_cons]
          exact ih h

/-! ## One scan after the other -/

variable (shown limit bound)

/-- What is left for the request with each number, when each begins where the one before ended. -/
def remains (limits : Nat → Nat) (list : List α) : Nat → List α
  | 0 => list
  | k + 1 => remains (fun i => limits (i + 1)) (list.drop (reach shown (limits 0) list)) k

/-- No request has to look at more than `bound` elements. -/
def Within (limits : Nat → Nat) (list : List α) : Prop :=
  ∀ k, reach shown (limits k) (remains shown limits list k) ≤ bound

variable {shown limit bound}

theorem within_iff (limits : Nat → Nat) (list : List α) :
    Within shown bound limits list ↔ reach shown (limits 0) list ≤ bound ∧
      Within shown bound (fun i => limits (i + 1))
        (list.drop (reach shown (limits 0) list)) := by
  constructor
  · intro h
    exact ⟨h 0, fun k => h (k + 1)⟩
  · rintro ⟨first, later⟩ k
    cases k with
    | zero => exact first
    | succ k => exact later k

theorem length_remains_le (limits : Nat → Nat) (list : List α) (k : Nat) :
    (remains shown limits list k).length ≤ list.length := by
  induction k generalizing limits list with
  | zero => exact Nat.le_refl _
  | succ k ih =>
      refine (ih _ _).trans ?_
      rw [List.length_drop]
      exact Nat.sub_le _ _

/-- A list within the bound never needs more. -/
theorem within_of_length_le {limits : Nat → Nat} {list : List α} (h : list.length ≤ bound) :
    Within shown bound limits list :=
  fun k => (reach_le_length _ _).trans ((length_remains_le limits list k).trans h)

end Scan

section Follow

open Paging

variable {ε Cursor : Type} {shown : α → Option β} {limits : Nat → Nat} {bound : Nat}
variable {page : Option Cursor → Except ε (List β × Option Cursor)} {refused : ε}

/-- A request returns the outcome of a scan, and its cursor leads to what comes behind.
`At cursor k rest` says that the request with number `k` begins at `rest`. -/
def Answers (page : Option Cursor → Except ε (List β × Option Cursor)) (refused : ε)
    (At : Option Cursor → Nat → List α → Prop) (cursor : Option Cursor) (k : Nat) :
    Outcome α β → Prop
  | .beyond => page cursor = .error refused
  | .full found behind => ∃ next, page cursor = .ok (found, next) ∧
      (next = none ∧ behind = [] ∨ next.isSome ∧ At next (k + 1) behind)
  | .ended found => page cursor = .ok (found, none)

/-- Requests that each scan from where the one before ended give everything, unless one has to look
at too much. -/
theorem follow_scans {At : Option Cursor → Nat → List α → Prop} (positive : ∀ k, 0 < limits k)
    (answers : ∀ cursor k rest, At cursor k rest →
      Answers page refused At cursor k (scan shown (limits k) bound rest 0 [])) :
    ∀ fuel cursor k rest, At cursor k rest → (rest.filterMap shown).length < fuel →
      (Within shown bound (fun i => limits (k + i)) rest →
        follow page fuel cursor = some (.ok (rest.filterMap shown))) ∧
      (¬ Within shown bound (fun i => limits (k + i)) rest →
        follow page fuel cursor = some (.error refused)) := by
  intro fuel
  induction fuel with
  | zero =>
      intro cursor k rest _ enough
      omega
  | succ fuel ih =>
      intro cursor k rest start enough
      obtain ⟨need, hneed⟩ : ∃ need, limits k = need + 1 :=
        Nat.exists_eq_succ_of_ne_zero (Nat.pos_iff_ne_zero.mp (positive k))
      have answer := answers cursor k rest start
      have shift : (fun i => limits (k + (i + 1))) = fun i => limits (k + 1 + i) := by
        funext i
        rw [Nat.add_assoc, Nat.add_comm 1 i]
      have scanned := @scan_eq _ _ shown (need + 1) bound rest 0 need [] (Nat.zero_le bound)
        (Nat.zero_add _).symm
      simp only [Nat.zero_add, List.nil_append] at scanned
      rw [hneed, scanned] at answer
      rw [within_iff, Nat.add_zero, hneed, shift]
      by_cases beyond : bound < reach shown (need + 1) rest
      · rw [if_pos beyond, Answers] at answer
        refine ⟨fun within => absurd within.1 (Nat.not_le.mpr beyond), fun _ => ?_⟩
        simp only [follow, answer]
      · have first := Nat.le_of_not_lt beyond
        rw [if_neg beyond] at answer
        by_cases full : need < (rest.filterMap shown).length
        · rw [if_pos full] at answer
          have whole := List.take_append_drop (need + 1) (rest.filterMap shown)
          obtain ⟨next, found, ⟨rfl, last⟩ | ⟨more, further⟩⟩ := answer
          · have behind := @filterMap_drop_reach _ _ shown need rest
            rw [last, List.filterMap_nil] at behind
            rw [← behind, List.append_nil] at whole
            have later : Within shown bound (fun i => limits (k + 1 + i))
                (rest.drop (reach shown (need + 1) rest)) := by
              rw [last]
              exact within_of_length_le (Nat.zero_le _)
            refine ⟨fun _ => ?_, fun exceeded => absurd ⟨first, later⟩ exceeded⟩
            simp only [follow, found, whole]
          · obtain ⟨cursor', rfl⟩ := Option.isSome_iff_exists.mp more
            have shorter : ((rest.drop (reach shown (need + 1) rest)).filterMap shown).length <
                fuel := by
              rw [filterMap_drop_reach, List.length_drop]
              omega
            have later := ih _ _ _ further shorter
            constructor
            · rintro ⟨_, within⟩
              have rest := later.1 within
              rw [filterMap_drop_reach] at rest
              simp only [follow, found, rest, Option.map_some, Except.map, whole]
            · intro exceeded
              have rest := later.2 fun within => exceeded ⟨first, within⟩
              simp only [follow, found, rest, Option.map_some, Except.map]
        · rw [if_neg full, Answers] at answer
          have all : reach shown (need + 1) rest = rest.length :=
            reach_eq_length (Nat.lt_succ_of_le (Nat.le_of_not_lt full))
          have later : Within shown bound (fun i => limits (k + 1 + i))
              (rest.drop (reach shown (need + 1) rest)) := by
            rw [all, List.drop_length]
            exact within_of_length_le (Nat.zero_le _)
          refine ⟨fun _ => ?_, fun exceeded => absurd ⟨first, later⟩ exceeded⟩
          simp only [follow, answer]

end Follow

end Scans
