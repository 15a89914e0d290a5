import Mathlib.Data.List.Sort

/-!
# Sweeps over a growing set

A sweep reads a sorted set page by page, each page from behind the last element of the page before
it.  The set may grow between two pages.  What a sweep has collected is sorted, and it has every
element that was in the set from the beginning (`Swept.finish`), however the pages are cut.
-/

namespace Sweeps

variable {α : Type} [LinearOrder α]

/-- The element comes after the mark. -/
def Behind (mark : Option α) (a : α) : Prop :=
  ∀ last ∈ mark, last < a

/-- What a sweep that has come to its mark has collected. -/
structure Swept (base : α → Prop) (mark : Option α) (seen : List α) : Prop where
  sorted : seen.Pairwise (· < ·)
  reached : ∀ a ∈ seen, ∀ b, Behind mark b → a < b
  complete : ∀ a, base a → Behind mark a ∨ a ∈ seen

variable {base : α → Prop} {mark : Option α} {seen listing : List α}

theorem Swept.start : Swept base none [] where
  sorted := .nil
  reached := fun _ member => absurd member List.not_mem_nil
  complete := fun _ _ => .inl fun _ none_ => absurd none_ (Option.not_mem_none _)

/-- The elements up to the end of a page are on it. -/
theorem mem_take_of_le {size : Nat} {last a : α} (sorted : listing.Pairwise (· < ·))
    (ends : (listing.take size).getLast? = some last) (member : a ∈ listing) (le : a ≤ last) :
    a ∈ listing.take size := by
  rw [← List.take_append_drop size listing] at sorted member
  rcases List.mem_append.mp member with here | beyond
  · exact here
  · have less := (List.pairwise_append.mp sorted).2.2 last (List.mem_of_getLast? ends) a beyond
    exact absurd le (not_le.mpr less)

/-- Every element of a page comes before what is behind its end. -/
theorem lt_of_behind_page {size : Nat} {last a b : α} (sorted : listing.Pairwise (· < ·))
    (ends : (listing.take size).getLast? = some last) (member : a ∈ listing.take size)
    (behind : last < b) : a < b := by
  obtain ⟨front, page⟩ := List.getLast?_eq_some_iff.mp ends
  have ordered := sorted.sublist (List.take_sublist size listing)
  rw [page] at ordered member
  rcases List.mem_append.mp member with before | here
  · exact ((List.pairwise_append.mp ordered).2.2 a before last (by simp)).trans behind
  · obtain rfl := List.mem_singleton.mp here
    exact behind

namespace Swept

/-- What the pages so far and a part of the present set have together is sorted. -/
theorem extend (swept : Swept base mark seen) {page : List α} (sorted : page.Pairwise (· < ·))
    (behind : ∀ a ∈ page, Behind mark a) : (seen ++ page).Pairwise (· < ·) :=
  List.pairwise_append.mpr ⟨swept.sorted, sorted,
    fun a before b here => swept.reached a before b (behind b here)⟩

/-- A page that is not the last one. -/
theorem page (swept : Swept base mark seen) {size : Nat} {last : α}
    (sorted : listing.Pairwise (· < ·)) (behind : ∀ a ∈ listing, Behind mark a)
    (present : ∀ a, base a → Behind mark a → a ∈ listing)
    (ends : (listing.take size).getLast? = some last) :
    Swept base (some last) (seen ++ listing.take size) where
  sorted := swept.extend (sorted.sublist (List.take_sublist size listing))
    fun a member => behind a (List.mem_of_mem_take member)
  reached := by
    intro a member b after
    have less := after last rfl
    rcases List.mem_append.mp member with before | here
    · have passed := swept.reached a before last
        (behind last (List.mem_of_mem_take (List.mem_of_getLast? ends)))
      exact passed.trans less
    · exact lt_of_behind_page sorted ends here less
  complete := by
    intro a there
    rcases lt_or_ge last a with after | le
    · refine .inl fun other hother => ?_
      cases hother
      exact after
    · rcases swept.complete a there with after | before
      · exact .inr (List.mem_append_right _ (mem_take_of_le sorted ends (present a there after) le))
      · exact .inr (List.mem_append_left _ before)

/-- With the last page the sweep has everything. -/
theorem finish (swept : Swept base mark seen)
    (present : ∀ a, base a → Behind mark a → a ∈ listing) {a : α} (there : base a) :
    a ∈ seen ++ listing := by
  rcases swept.complete a there with after | before
  · exact List.mem_append_right _ (present a there after)
  · exact List.mem_append_left _ before

end Swept

end Sweeps
