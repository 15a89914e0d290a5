import Mathlib.Computability.Language

/-!
# Text patterns

Full matches of the patterns that are built from character classes, concatenation, alternation and
bounded repetition.  A word of pieces with a separator between them matches when its parts do.
-/

universe u

/-- A pattern over symbols: a class, one pattern after another, a choice, or up to so many. -/
inductive Pattern (α : Type u) where
  | one (holds : α → Bool)
  | cat (first second : Pattern α)
  | alt (left right : Pattern α)
  | upTo (count : Nat) (repeated : Pattern α)

namespace Pattern

variable {α : Type u}

/-- The words that match as a whole. -/
def language : Pattern α → Language α
  | one holds => {word | ∃ a, word = [a] ∧ holds a = true}
  | cat first second => first.language * second.language
  | alt left right => left.language + right.language
  | upTo count repeated => {word | ∃ n ≤ count, word ∈ repeated.language ^ n}

@[simp]
theorem mem_one {holds : α → Bool} {word : List α} :
    word ∈ (one holds).language ↔ ∃ a, word = [a] ∧ holds a = true :=
  Iff.rfl

@[simp]
theorem mem_alt {left right : Pattern α} {word : List α} :
    word ∈ (alt left right).language ↔ word ∈ left.language ∨ word ∈ right.language :=
  Iff.rfl

theorem mem_cat {first second : Pattern α} {word : List α} :
    word ∈ (cat first second).language ↔
      ∃ front ∈ first.language, ∃ back ∈ second.language, front ++ back = word :=
  Language.mem_mul

theorem mem_upTo {count : Nat} {repeated : Pattern α} {word : List α} :
    word ∈ (upTo count repeated).language ↔
      ∃ pieces : List (List α), word = pieces.flatten ∧ pieces.length ≤ count ∧
        ∀ piece ∈ pieces, piece ∈ repeated.language := by
  constructor
  · rintro ⟨n, bounded, mem⟩
    obtain ⟨pieces, rfl, rfl, all⟩ := Language.mem_pow.mp mem
    exact ⟨pieces, rfl, bounded, all⟩
  · rintro ⟨pieces, rfl, bounded, all⟩
    exact ⟨pieces.length, bounded, Language.mem_pow.mpr ⟨pieces, rfl, rfl, all⟩⟩

/-- Pieces of one symbol each. -/
theorem flatten_of_ones {holds : α → Bool} {pieces : List (List α)}
    (all : ∀ piece ∈ pieces, piece ∈ (one holds).language) :
    pieces.flatten.length = pieces.length ∧ pieces.flatten.all holds = true := by
  induction pieces with
  | nil => exact ⟨rfl, rfl⟩
  | cons piece rest ih =>
      obtain ⟨a, rfl, ha⟩ := all piece (List.mem_cons_self ..)
      obtain ⟨length, rest⟩ := ih fun piece mem => all piece (List.mem_cons_of_mem _ mem)
      constructor
      · simp [length]
      · simpa [ha] using rest

theorem mem_upTo_one {count : Nat} {holds : α → Bool} {word : List α} :
    word ∈ (upTo count (one holds)).language ↔
      word.length ≤ count ∧ word.all holds = true := by
  rw [mem_upTo]
  constructor
  · rintro ⟨pieces, rfl, bounded, all⟩
    obtain ⟨length, holds⟩ := flatten_of_ones all
    exact ⟨length ▸ bounded, holds⟩
  · rintro ⟨bounded, all⟩
    refine ⟨word.map fun a => [a], ?_, ?_, ?_⟩
    · rw [← List.flatMap_def, List.flatMap_singleton']
    · simpa using bounded
    · intro piece mem
      obtain ⟨a, ha, rfl⟩ := List.mem_map.mp mem
      exact ⟨a, rfl, List.all_eq_true.mp all a ha⟩

/-- A symbol of one class, and then up to so many of another. -/
theorem mem_cat_one_upTo {count : Nat} {first others : α → Bool} {word : List α} :
    word ∈ (cat (one first) (upTo count (one others))).language ↔
      ∃ a rest, word = a :: rest ∧ first a = true ∧ rest.length ≤ count ∧
        rest.all others = true := by
  rw [mem_cat]
  constructor
  · rintro ⟨-, ⟨a, rfl, ha⟩, rest, mem, rfl⟩
    exact ⟨a, rest, rfl, ha, mem_upTo_one.mp mem⟩
  · rintro ⟨a, rest, rfl, ha, tail⟩
    exact ⟨[a], ⟨a, rfl, ha⟩, rest, mem_upTo_one.mpr tail, rfl⟩

/-! ## Separated pieces -/

/-- A first piece, and up to so many others behind a separator. -/
def separated [BEq α] (separator : α) (count : Nat) (first others : Pattern α) : Pattern α :=
  cat first (upTo count (cat (one (· == separator)) others))

theorem flatten_map_cons (separator : α) (first : List α) (rest : List (List α)) :
    first ++ (rest.map (separator :: ·)).flatten = [separator].intercalate (first :: rest) := by
  induction rest generalizing first with
  | nil => simp
  | cons second rest ih =>
      rw [List.intercalate_cons_cons, ← ih second]
      simp

variable [BEq α] [LawfulBEq α] {separator : α} {count : Nat} {first others : Pattern α}

theorem mem_prefixed {word : List α} :
    word ∈ (cat (one (· == separator)) others).language ↔
      ∃ piece ∈ others.language, word = separator :: piece := by
  rw [mem_cat]
  constructor
  · rintro ⟨-, ⟨a, rfl, ha⟩, piece, mem, rfl⟩
    exact ⟨piece, mem, by rw [eq_of_beq ha]; rfl⟩
  · rintro ⟨piece, mem, rfl⟩
    exact ⟨[separator], ⟨separator, rfl, BEq.rfl⟩, piece, mem, rfl⟩

theorem mem_separated {word : List α} :
    word ∈ (separated separator count first others).language ↔
      ∃ piece rest, word = [separator].intercalate (piece :: rest) ∧ piece ∈ first.language ∧
        rest.length ≤ count ∧ ∀ other ∈ rest, other ∈ others.language := by
  rw [separated, mem_cat]
  constructor
  · rintro ⟨piece, hpiece, back, hback, rfl⟩
    obtain ⟨pieces, rfl, bounded, all⟩ := mem_upTo.mp hback
    obtain ⟨rest, rfl⟩ : ∃ rest : List (List α), rest.map (separator :: ·) = pieces := by
      refine ⟨pieces.map List.tail, ?_⟩
      rw [List.map_map]
      conv_rhs => rw [← List.map_id pieces]
      refine List.map_congr_left fun word mem => ?_
      obtain ⟨tail, -, rfl⟩ := mem_prefixed.mp (all word mem)
      rfl
    refine ⟨piece, rest, flatten_map_cons .., hpiece, by simpa using bounded, fun other mem => ?_⟩
    obtain ⟨tail, htail, same⟩ := mem_prefixed.mp (all _ (List.mem_map_of_mem mem))
    obtain rfl := List.tail_eq_of_cons_eq same
    exact htail
  · rintro ⟨piece, rest, rfl, hpiece, bounded, all⟩
    refine ⟨piece, hpiece, _, mem_upTo.mpr ⟨rest.map (separator :: ·), rfl, ?_, ?_⟩,
      flatten_map_cons ..⟩
    · simpa using bounded
    · intro word mem
      obtain ⟨other, hother, rfl⟩ := List.mem_map.mp mem
      exact mem_prefixed.mpr ⟨other, all other hother, rfl⟩

/-- Splitting a word at the separators shows its pieces, when no piece holds one. -/
theorem mem_separated_iff_splitOn (apart : ∀ piece ∈ first.language, separator ∉ piece)
    (apartOthers : ∀ piece ∈ others.language, separator ∉ piece) {word : List α}
    {piece : List α} {rest : List (List α)} (split : word.splitOn separator = piece :: rest) :
    word ∈ (separated separator count first others).language ↔
      piece ∈ first.language ∧ rest.length ≤ count ∧ ∀ other ∈ rest, other ∈ others.language := by
  rw [mem_separated]
  constructor
  · rintro ⟨front, back, rfl, hfront, bounded, all⟩
    have clean : ∀ other ∈ front :: back, separator ∉ other := by
      intro other mem
      rcases List.mem_cons.mp mem with rfl | mem
      · exact apart _ hfront
      · exact apartOthers _ (all _ mem)
    rw [List.splitOn_intercalate separator clean (List.cons_ne_nil _ _)] at split
    cases split
    exact ⟨hfront, bounded, all⟩
  · rintro ⟨hpiece, bounded, all⟩
    exact ⟨piece, rest, by rw [← split, List.intercalate_splitOn], hpiece, bounded, all⟩

end Pattern
