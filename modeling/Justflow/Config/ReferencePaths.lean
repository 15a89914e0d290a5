import Justflow.Library.Decimals
import Justflow.Library.Patterns
import Justflow.Config.Grammar

/-!
# Reference paths

A reference is parsed component by component, and its grammar is published as a pattern.  The
parser takes every decimal digit of Unicode for an index, the pattern only the ASCII ones:
`parse_exact_iff` says for which texts the two agree and the components give the text back.
-/

namespace Justflow

def maxReferenceComponents : Nat := 33
def maxReferenceComponentLength : Nat := 128

/-! ## The parser -/

namespace ReferencePath

/-- The checks of every component. -/
def checkComponent (part : List Char) : Except String Unit :=
  if part = [] then .error "reference components must not be empty"
  else if maxReferenceComponentLength < part.length then
    .error s!"reference component exceeds {maxReferenceComponentLength} characters"
  else .ok ()

/-- The error of a component that is neither. -/
def unfitComponent (reprStr : String → String) (part : List Char) : String :=
  let quoted := reprStr (String.ofList part)
  s!"reference component {quoted} must be an identifier or array index"

def parseRoot (reprStr : String → String) (part : List Char) : Except String String := do
  checkComponent part
  if isIdentifier part then return String.ofList part
  else throw (unfitComponent reprStr part)

/-- A component behind the root. -/
def parseComponent (reprStr : String → String) (part : List Char) :
    Except String ReferenceToken := do
  checkComponent part
  if part.all isDecimal then
    if 1 < part.length ∧ part.head? = some '0' then
      throw "numeric reference components must not contain leading zeroes"
    else return .index (digitsValue part)
  else if isIdentifier part then return .key (String.ofList part)
  else throw (unfitComponent reprStr part)

/-- `ReferencePath.parse` of a text. -/
def parse (reprStr : String → String) (value : String) : Except String ReferencePath :=
  match value.toList.splitOn '.' with
  | [] => .error "reference components must not be empty"
  | first :: rest => do
      if maxReferenceComponents < rest.length + 1 then
        throw s!"reference contains more than {maxReferenceComponents} components"
      else
        let root ← parseRoot reprStr first
        let path ← rest.mapM (parseComponent reprStr)
        return { value, root, path }

end ReferencePath

/-- The text of a component. -/
def ReferenceToken.text : ReferenceToken → String
  | .key name => name
  | .index position => toString position
  | .flag value => if value then "True" else "False"

/-- The components, joined by dots. -/
def ReferencePath.joined (self : ReferencePath) : String :=
  String.ofList (['.'].intercalate (self.root.toList :: self.path.map fun token =>
    token.text.toList))

/-! ## The pattern -/

/-- `[A-Za-z_][A-Za-z0-9_]{0,127}`. -/
def identifierPattern : Pattern Char :=
  .cat (.one identifierStart) (.upTo 127 (.one identifierChar))

/-- `0|[1-9][0-9]{0,127}`, over some class of digits. -/
def indexPattern (digit : Char → Bool) : Pattern Char :=
  .alt (.one (· == '0'))
    (.cat (.one fun c => digit c && c != '0') (.upTo 127 (.one digit)))

/-- `REFERENCE_PATH_PATTERN_TEXT`, over some class of digits. -/
def pathPattern (digit : Char → Bool) : Pattern Char :=
  .separated '.' 32 identifierPattern (.alt identifierPattern (indexPattern digit))

/-- `REFERENCE_PATH_PATTERN_TEXT`. -/
def referencePathPattern : Pattern Char :=
  pathPattern isAsciiDigit

/-- The same pattern with the decimal digits of every script. -/
def decimalPathPattern : Pattern Char :=
  pathPattern isDecimal

def FullMatch (pattern : Pattern Char) (value : String) : Prop :=
  value.toList ∈ pattern.language

/-! ## Components -/

theorem isIdentifier_iff {part : List Char} :
    isIdentifier part = true ↔
      ∃ c rest, part = c :: rest ∧ identifierStart c = true ∧ rest.all identifierChar = true := by
  cases part with
  | nil => simp [isIdentifier]
  | cons c rest => simp [isIdentifier]

/-- An identifier of the pattern is one of the parser. -/
theorem mem_identifierPattern {part : List Char} :
    part ∈ identifierPattern.language ↔
      isIdentifier part = true ∧ part.length ≤ maxReferenceComponentLength := by
  rw [identifierPattern, Pattern.mem_cat_one_upTo, isIdentifier_iff]
  constructor
  · rintro ⟨c, rest, rfl, start, length, all⟩
    exact ⟨⟨c, rest, rfl, start, all⟩, Nat.succ_le_succ length⟩
  · rintro ⟨⟨c, rest, rfl, start, all⟩, length⟩
    exact ⟨c, rest, rfl, start, Nat.le_of_succ_le_succ length, all⟩

/-- An index: digits without a leading zero. -/
theorem mem_indexPattern {digit : Char → Bool} (holds : digit '0' = true) {part : List Char} :
    part ∈ (indexPattern digit).language ↔
      part ≠ [] ∧ part.all digit = true ∧ part.length ≤ maxReferenceComponentLength ∧
        (part.length = 1 ∨ part.head? ≠ some '0') := by
  rw [indexPattern, Pattern.mem_alt, Pattern.mem_one, Pattern.mem_cat_one_upTo]
  constructor
  · rintro (⟨c, rfl, same⟩ | ⟨c, rest, rfl, first, length, all⟩)
    · rw [eq_of_beq same]
      simp [holds, maxReferenceComponentLength]
    · simp only [Bool.and_eq_true, bne_iff_ne] at first
      refine ⟨List.cons_ne_nil _ _, ?_, Nat.succ_le_succ length, .inr ?_⟩
      · rw [List.all_cons, first.1, all]
        rfl
      · simpa using first.2
  · rintro ⟨nonempty, all, length, leading⟩
    obtain ⟨c, rest, rfl⟩ := List.exists_cons_of_ne_nil nonempty
    rw [List.all_cons, Bool.and_eq_true] at all
    by_cases zero : c = '0'
    · subst zero
      have single : rest = [] := by
        rcases leading with single | leading
        · exact List.length_eq_zero_iff.mp (Nat.succ_inj.mp single)
        · exact absurd rfl leading
      exact .inl ⟨'0', by rw [single], BEq.rfl⟩
    · exact .inr ⟨c, rest, rfl, by simp [all.1, zero], Nat.le_of_succ_le_succ length, all.2⟩

theorem identifierStart_not_decimal {c : Char} (h : identifierStart c = true) :
    isDecimal c = false := by
  have bound : c.toNat < 123 := by
    simp only [identifierStart, Bool.or_eq_true, Bool.and_eq_true, decide_eq_true_eq,
      beq_iff_eq] at h
    rcases h with (⟨-, high⟩ | ⟨-, high⟩) | rfl
    · have : c.toNat ≤ 122 := high
      omega
    · have : c.toNat ≤ 90 := high
      omega
    · decide
  have table : ∀ n < 123, identifierStart (Char.ofNat n) = true →
      isDecimal (Char.ofNat n) = false := by decide
  have := table c.toNat bound
  rw [Char.ofNat_toNat] at this
  exact this h

theorem identifierChar_ne_dot {c : Char} (h : identifierChar c = true) : c ≠ '.' := by
  rintro rfl
  exact absurd h (by decide)

theorem identifierStart_identifierChar {c : Char} (h : identifierStart c = true) :
    identifierChar c = true := by
  rw [identifierChar, h]
  rfl

/-! ## Parsing -/

namespace ReferencePath

variable {reprStr : String → String} {part : List Char}

theorem checkComponent_ok_iff :
    checkComponent part = .ok () ↔ part ≠ [] ∧ part.length ≤ maxReferenceComponentLength := by
  rw [checkComponent]
  split_ifs with empty long
  · simp [empty]
  · simp [empty, Nat.not_le.mpr long]
  · simp [empty, Nat.not_lt.mp long]

theorem parseRoot_ok_iff {root : String} :
    parseRoot reprStr part = .ok root ↔
      part ∈ identifierPattern.language ∧ root = String.ofList part := by
  rw [mem_identifierPattern, parseRoot]
  cases checked : checkComponent part with
  | error message =>
      have unfit : ¬ (part ≠ [] ∧ part.length ≤ maxReferenceComponentLength) := by
        rw [← checkComponent_ok_iff, checked]
        nofun
      refine iff_of_false nofun ?_
      rintro ⟨⟨identifier, length⟩, -⟩
      refine unfit ⟨?_, length⟩
      rintro rfl
      cases identifier
  | ok _ =>
      obtain ⟨-, length⟩ := checkComponent_ok_iff.mp checked
      change (if isIdentifier part then Except.ok _ else _) = _ ↔ _
      split_ifs with identifier
      · simp [identifier, length, eq_comm]
      · simp [identifier]

/-- What a component is parsed to. -/
theorem parseComponent_ok_iff {token : ReferenceToken} :
    parseComponent reprStr part = .ok token ↔
      (part ∈ (indexPattern isDecimal).language ∧ token = .index (digitsValue part)) ∨
      (part ∈ identifierPattern.language ∧ token = .key (String.ofList part)) := by
  rw [mem_identifierPattern, mem_indexPattern (by decide), parseComponent]
  cases checked : checkComponent part with
  | error message =>
      have unfit : ¬ (part ≠ [] ∧ part.length ≤ maxReferenceComponentLength) := by
        rw [← checkComponent_ok_iff, checked]
        nofun
      refine iff_of_false nofun ?_
      rintro (⟨⟨nonempty, -, length, -⟩, -⟩ | ⟨⟨identifier, length⟩, -⟩)
      · exact unfit ⟨nonempty, length⟩
      · refine unfit ⟨?_, length⟩
        rintro rfl
        cases identifier
  | ok _ =>
      obtain ⟨nonempty, length⟩ := checkComponent_ok_iff.mp checked
      change (if part.all isDecimal then
        (if 1 < part.length ∧ part.head? = some '0' then _ else Except.ok _)
        else if isIdentifier part then Except.ok _ else _) = _ ↔ _
      by_cases digits : part.all isDecimal = true
      · have other : isIdentifier part = false := by
          cases identifier : isIdentifier part with
          | false => rfl
          | true =>
              obtain ⟨c, rest, rfl, start, -⟩ := isIdentifier_iff.mp identifier
              rw [List.all_cons, identifierStart_not_decimal start] at digits
              cases digits
        rw [if_pos digits]
        have positive : 0 < part.length := List.length_pos_of_ne_nil nonempty
        split_ifs with leading
        · refine iff_of_false nofun ?_
          rintro (⟨⟨-, -, -, single | first⟩, -⟩ | ⟨⟨identifier, -⟩, -⟩)
          · omega
          · exact first leading.2
          · rw [other] at identifier
            cases identifier
        · have fits : part.length = 1 ∨ part.head? ≠ some '0' := by
            by_cases single : part.length = 1
            · exact .inl single
            · exact .inr fun zero => leading ⟨by omega, zero⟩
          simp only [Except.ok.injEq, other, Bool.false_eq_true, false_and, or_false]
          constructor
          · rintro rfl
            exact ⟨⟨nonempty, digits, length, fits⟩, rfl⟩
          · rintro ⟨-, rfl⟩
            rfl
      · rw [if_neg digits]
        split_ifs with identifier
        · simp [digits, identifier, length, eq_comm]
        · simp [digits, identifier]

/-- The parts of an accepted path hold no dot. -/
theorem dot_not_mem_component {digit : Char → Bool} (holds : digit '0' = true)
    (clean : digit '.' = false) :
    (∀ piece ∈ identifierPattern.language, '.' ∉ piece) ∧
      ∀ piece ∈ (Pattern.alt identifierPattern (indexPattern digit)).language, '.' ∉ piece := by
  have identifiers : ∀ piece ∈ identifierPattern.language, '.' ∉ piece := by
    intro piece mem dot
    obtain ⟨c, rest, rfl, start, all⟩ := isIdentifier_iff.mp (mem_identifierPattern.mp mem).1
    rcases List.mem_cons.mp dot with rfl | dot
    · exact identifierChar_ne_dot (identifierStart_identifierChar start) rfl
    · exact identifierChar_ne_dot (List.all_eq_true.mp all _ dot) rfl
  refine ⟨identifiers, fun piece mem dot => ?_⟩
  rcases mem with mem | mem
  · exact identifiers piece mem dot
  · obtain ⟨-, all, -⟩ := (mem_indexPattern holds).mp mem
    rw [List.all_eq_true.mp all _ dot] at clean
    cases clean

/-- A path of the pattern, by its parts. -/
theorem fullMatch_iff {digit : Char → Bool} (holds : digit '0' = true) (clean : digit '.' = false)
    {value : String} {first : List Char} {rest : List (List Char)}
    (split : value.toList.splitOn '.' = first :: rest) :
    FullMatch (pathPattern digit) value ↔ first ∈ identifierPattern.language ∧ rest.length ≤ 32 ∧
      ∀ part ∈ rest, part ∈ identifierPattern.language ∨ part ∈ (indexPattern digit).language :=
  Pattern.mem_separated_iff_splitOn (dot_not_mem_component holds clean).1
    (dot_not_mem_component holds clean).2 split

/-- Every list of parts is parsed part by part. -/
theorem mapM_parseComponent_isSome_iff (reprStr : String → String) {parts : List (List Char)} :
    (∃ path, parts.mapM (parseComponent reprStr) = .ok path) ↔
      ∀ part ∈ parts,
        part ∈ identifierPattern.language ∨ part ∈ (indexPattern isDecimal).language := by
  induction parts with
  | nil => simp [pure, Except.pure]
  | cons part rest ih =>
      rw [List.forall_mem_cons, ← ih, List.mapM_cons]
      cases parsed : parseComponent reprStr part with
      | error message =>
          refine iff_of_false nofun ?_
          rintro ⟨mem, -⟩
          rcases mem with mem | mem
          · have ok : parseComponent reprStr part = .ok _ :=
              parseComponent_ok_iff.mpr (.inr ⟨mem, rfl⟩)
            rw [parsed] at ok
            cases ok
          · have ok : parseComponent reprStr part = .ok _ :=
              parseComponent_ok_iff.mpr (.inl ⟨mem, rfl⟩)
            rw [parsed] at ok
            cases ok
      | ok token =>
          have accepted : part ∈ identifierPattern.language ∨
              part ∈ (indexPattern isDecimal).language := by
            rcases parseComponent_ok_iff.mp parsed with ⟨mem, -⟩ | ⟨mem, -⟩
            · exact .inr mem
            · exact .inl mem
          refine Iff.trans ?_ (and_iff_right accepted).symm
          constructor
          · rintro ⟨path, h⟩
            cases tail : rest.mapM (parseComponent reprStr) with
            | error message =>
                rw [tail] at h
                cases h
            | ok path => exact ⟨path, rfl⟩
          · rintro ⟨path, h⟩
            rw [h]
            exact ⟨token :: path, rfl⟩

/-- A parsed text keeps its text, its first part as the root, and a token for each other part. -/
theorem parse_ok {value : String} {reference : ReferencePath}
    (parsed : parse reprStr value = .ok reference) :
    ∃ first rest, value.toList.splitOn '.' = first :: rest ∧ rest.length ≤ 32 ∧
      parseRoot reprStr first = .ok reference.root ∧
      rest.mapM (parseComponent reprStr) = .ok reference.path ∧ reference.value = value := by
  rw [parse] at parsed
  cases split : value.toList.splitOn '.' with
  | nil =>
      rw [split] at parsed
      cases parsed
  | cons first rest =>
      rw [split] at parsed
      by_cases long : maxReferenceComponents < rest.length + 1
      · simp only [if_pos long] at parsed
        cases parsed
      · simp only [if_neg long] at parsed
        have bounded : rest.length ≤ 32 := Nat.le_of_succ_le_succ (Nat.not_lt.mp long)
        cases root : parseRoot reprStr first with
        | error message =>
            rw [root] at parsed
            cases parsed
        | ok name =>
            cases path : rest.mapM (parseComponent reprStr) with
            | error message =>
                rw [root, path] at parsed
                cases parsed
            | ok tokens =>
                rw [root, path] at parsed
                cases parsed
                exact ⟨first, rest, rfl, bounded, root, path, rfl⟩

/-- What is parsed matches the pattern with the digits of every script. -/
theorem parse_isOk_iff {value : String} :
    (∃ reference, parse reprStr value = .ok reference) ↔ FullMatch decimalPathPattern value := by
  obtain ⟨first, rest, split⟩ : ∃ first rest, value.toList.splitOn '.' = first :: rest :=
    List.exists_cons_of_ne_nil (List.splitOn_ne_nil _ _)
  rw [decimalPathPattern, fullMatch_iff (by decide) (by decide) split,
    ← mapM_parseComponent_isSome_iff reprStr]
  constructor
  · rintro ⟨reference, parsed⟩
    obtain ⟨first', rest', split', bounded, root, path, -⟩ := parse_ok parsed
    rw [split] at split'
    cases split'
    exact ⟨(parseRoot_ok_iff.mp root).1, bounded, reference.path, path⟩
  · rintro ⟨mem, bounded, path, h⟩
    refine ⟨{ value, root := String.ofList first, path }, ?_⟩
    rw [parse, split]
    simp only [maxReferenceComponents, parseRoot_ok_iff.mpr ⟨mem, rfl⟩, h,
      if_neg (show ¬ 33 < rest.length + 1 by omega)]
    rfl

/-! ## Agreement -/

/-- A text is parsed when it matches the pattern, and its components give it back. -/
structure Exact (reprStr : String → String) (value : String) : Prop where
  accepted : (∃ reference, parse reprStr value = .ok reference) ↔
    FullMatch referencePathPattern value
  joined : ∀ reference, parse reprStr value = .ok reference → reference.joined = value

theorem isDecimal_of_index {part : List Char} (mem : part ∈ (indexPattern isAsciiDigit).language) :
    part ∈ (indexPattern isDecimal).language := by
  obtain ⟨nonempty, all, length, leading⟩ := (mem_indexPattern (by decide)).mp mem
  refine (mem_indexPattern (by decide)).mpr ⟨nonempty, ?_, length, leading⟩
  exact List.all_eq_true.mpr fun c hc =>
    isDecimal_of_isAsciiDigit (List.all_eq_true.mp all c hc)

/-- The text of a component of the pattern. -/
theorem text_of_parseComponent {token : ReferenceToken}
    (mem : part ∈ identifierPattern.language ∨ part ∈ (indexPattern isAsciiDigit).language)
    (parsed : parseComponent reprStr part = .ok token) : token.text.toList = part := by
  rcases parseComponent_ok_iff.mp parsed with ⟨index, rfl⟩ | ⟨-, rfl⟩
  · rcases mem with mem | mem
    · obtain ⟨c, rest, rfl, start, -⟩ := isIdentifier_iff.mp (mem_identifierPattern.mp mem).1
      obtain ⟨-, all, -⟩ := (mem_indexPattern (by decide)).mp index
      rw [List.all_cons, identifierStart_not_decimal start] at all
      cases all
    · obtain ⟨nonempty, all, -, leading⟩ := (mem_indexPattern (by decide)).mp mem
      change (Nat.repr (digitsValue part)).toList = part
      rw [repr_digitsValue all nonempty leading, String.toList_ofList]
  · rw [ReferenceToken.text, String.toList_ofList]

theorem text_of_mapM {parts : List (List Char)} {path : List ReferenceToken}
    (mem : ∀ part ∈ parts,
      part ∈ identifierPattern.language ∨ part ∈ (indexPattern isAsciiDigit).language)
    (parsed : parts.mapM (parseComponent reprStr) = .ok path) :
    path.map (fun token => token.text.toList) = parts := by
  induction parts generalizing path with
  | nil =>
      cases parsed
      rfl
  | cons part rest ih =>
      rw [List.mapM_cons] at parsed
      cases first : parseComponent reprStr part with
      | error message =>
          rw [first] at parsed
          cases parsed
      | ok token =>
          cases tail : rest.mapM (parseComponent reprStr) with
          | error message =>
              rw [first, tail] at parsed
              cases parsed
          | ok tokens =>
              rw [first, tail] at parsed
              cases parsed
              rw [List.map_cons, text_of_parseComponent (mem part (List.mem_cons_self ..)) first,
                ih (fun other h => mem other (List.mem_cons_of_mem _ h)) tail]

/-- The components of a path of the pattern give it back. -/
theorem joined_of_fullMatch {value : String} {reference : ReferencePath}
    (matched : FullMatch referencePathPattern value)
    (parsed : parse reprStr value = .ok reference) : reference.joined = value := by
  obtain ⟨first, rest, split, -, root, path, -⟩ := parse_ok parsed
  obtain ⟨-, -, parts⟩ := (fullMatch_iff (by decide) (by decide) split).mp matched
  rw [joined, text_of_mapM parts path, (parseRoot_ok_iff.mp root).2, String.toList_ofList, ← split,
    List.intercalate_splitOn, String.ofList_toList]

theorem decimalPath_of_fullMatch {value : String} (matched : FullMatch referencePathPattern value) :
    FullMatch decimalPathPattern value := by
  obtain ⟨first, rest, split⟩ : ∃ first rest, value.toList.splitOn '.' = first :: rest :=
    List.exists_cons_of_ne_nil (List.splitOn_ne_nil _ _)
  obtain ⟨root, bounded, parts⟩ := (fullMatch_iff (by decide) (by decide) split).mp matched
  exact (fullMatch_iff (by decide) (by decide) split).mpr
    ⟨root, bounded, fun part mem => (parts part mem).imp_right isDecimal_of_index⟩

/-- Parsing and matching agree on a text unless it is a path by the digits of other scripts only,
and different texts are never parsed to the same path. -/
theorem parse_exact_iff (reprStr : String → String) :
    (∀ value, Exact reprStr value ↔
      (FullMatch decimalPathPattern value → FullMatch referencePathPattern value)) ∧
    ∀ value other reference, parse reprStr value = .ok reference →
      parse reprStr other = .ok reference → value = other := by
  refine ⟨fun value => ⟨fun exact decimal => ?_, fun plain => ⟨?_, ?_⟩⟩, ?_⟩
  · exact exact.accepted.mp (parse_isOk_iff.mpr decimal)
  · rw [parse_isOk_iff]
    exact ⟨plain, decimalPath_of_fullMatch⟩
  · intro reference parsed
    exact joined_of_fullMatch (plain (parse_isOk_iff.mp ⟨reference, parsed⟩)) parsed
  · intro value other reference first second
    obtain ⟨-, -, -, -, -, -, same⟩ := parse_ok first
    obtain ⟨-, -, -, -, -, -, same'⟩ := parse_ok second
    rw [← same, same']

/-- An index in the digits of another script is parsed, and read as another path. -/
theorem arabic_index_accepted :
    parse id "items.٣" = .ok { value := "items.٣", root := "items", path := [.index 3] } ∧
      ¬ Exact id "items.٣" := by
  have parsed : parse id "items.٣" =
      .ok { value := "items.٣", root := "items", path := [.index 3] } := by decide
  refine ⟨parsed, fun exact => ?_⟩
  have joined := exact.joined _ parsed
  revert joined
  decide

end ReferencePath

end Justflow
