import Mathlib.Logic.Relation
import Justflow.Library.Cycles
import Justflow.Library.Tables

/-!
# Memoised recursion

A value is made from the values of the names that it needs.  `Gives` says which value that is,
without a memory and without an order.  The search builds every value once, keeps it in a table,
and knows by the names that it is visiting when a name needs itself.

What the search keeps is what the rules give, and it fails only where they give nothing: the order
in which it is asked does not matter, and neither does what else it has built.  Its table holds what
a name needs before the name itself, so that a part of it, from the front, is complete in itself.
-/

namespace Memoization

open Relation

/-- The names that a name needs, and its value from theirs. -/
structure Rules (κ ν ε : Type) where
  needs : κ → Except ε (List κ)
  make : κ → List (κ × ν) → Except ε ν
  cycle : List κ → ε

variable {κ ν ε : Type}

/-- The value of a name. -/
inductive Gives (rules : Rules κ ν ε) : κ → ν → Prop where
  | intro {name : κ} {needed : List κ} {values : κ → ν} {value : ν}
      (known : rules.needs name = .ok needed)
      (below : ∀ other ∈ needed, Gives rules other (values other))
      (made : rules.make name (needed.map fun other => (other, values other)) = .ok value) :
      Gives rules name value

/-- The names that a name needs, none if these are not known. -/
def Rules.needed (rules : Rules κ ν ε) (name : κ) : List κ :=
  match rules.needs name with
  | .ok needed => needed
  | .error _ => []

/-- A name needs another one. -/
def Needs (rules : Rules κ ν ε) (name other : κ) : Prop :=
  other ∈ rules.needed name

/-- A name is needed, at any depth, or is the name itself. -/
abbrev Below (rules : Rules κ ν ε) : κ → κ → Prop :=
  ReflTransGen (Needs rules)

/-- Names along which each needs the next, the last of them a second time. -/
def Closes (rules : Rules κ ν ε) (path : List κ) : Prop :=
  ∃ before last, path = before ++ [last] ∧ last ∈ before ∧ path.IsChain (Needs rules)

variable {rules : Rules κ ν ε}

theorem Needs.of_known {name other : κ} {needed : List κ} (known : rules.needs name = .ok needed)
    (mem : other ∈ needed) : Needs rules name other := by
  rw [Needs, Rules.needed, known]
  exact mem

theorem Needs.known {name other : κ} (h : Needs rules name other) :
    ∃ needed, rules.needs name = .ok needed ∧ other ∈ needed := by
  rw [Needs, Rules.needed] at h
  split at h
  · next needed known => exact ⟨needed, known, h⟩
  · cases h

/-! ## What the rules give -/

theorem Gives.unique {name : κ} {first second : ν} (h : Gives rules name first)
    (h' : Gives rules name second) : first = second := by
  induction h generalizing second with
  | intro known _ made ih =>
      cases h' with
      | intro known' below' made' =>
          rw [known] at known'
          cases known'
          rw [List.map_congr_left fun other mem => by rw [ih other mem (below' other mem)],
            made'] at made
          cases made
          rfl

/-- What a name with a value needs, has a value. -/
theorem Gives.need {name other : κ} {value : ν} (h : Gives rules name value)
    (edge : Needs rules name other) : ∃ found, Gives rules other found := by
  cases h with
  | intro known below made =>
      obtain ⟨needed, listed, mem⟩ := edge.known
      rw [known] at listed
      cases listed
      exact ⟨_, below other mem⟩

/-- A name with a value does not need itself. -/
theorem Gives.acyclic {name : κ} {value : ν} (h : Gives rules name value) :
    ¬ TransGen (Needs rules) name name := by
  induction h with
  | intro known _ _ ih =>
      intro cycle
      obtain ⟨other, edge, rest⟩ := TransGen.head'_iff.mp cycle
      have longer := TransGen.tail' rest edge
      obtain ⟨needed, listed, mem⟩ := edge.known
      rw [known] at listed
      cases listed
      exact ih other mem longer

/-- Rules that agree below a name give it the same value. -/
theorem Gives.transfer {second : Rules κ ν ε} {name : κ} {value : ν} (h : Gives rules name value)
    (needs : ∀ other, Below rules name other → ∀ needed, rules.needs other = .ok needed →
      second.needs other = .ok needed)
    (make : ∀ other, Below rules name other → ∀ values result,
      rules.make other values = .ok result → second.make other values = .ok result) :
    Gives second name value := by
  induction h with
  | intro known _ made ih =>
      refine .intro (needs _ .refl _ known) (fun other mem => ?_) (make _ .refl _ _ made)
      have edge : Needs rules _ other := .of_known known mem
      exact ih other mem (fun below path => needs below (.head edge path))
        (fun below path => make below (.head edge path))

/-- A mark of the values that tells what a name needs, and their marks, tells everything below. -/
theorem Gives.marks_below {second : Rules κ ν ε} {δ : Type} (mark : ν → δ) {name : κ}
    {value value' : ν} (h : Gives rules name value) (h' : Gives second name value')
    (same : mark value = mark value')
    (tells : ∀ other needed needed' (values values' : κ → ν) result result',
      Gives rules other result → Gives second other result' → mark result = mark result' →
      rules.needs other = .ok needed → second.needs other = .ok needed' →
      rules.make other (needed.map fun below => (below, values below)) = .ok result →
      second.make other (needed'.map fun below => (below, values' below)) = .ok result' →
      needed = needed' ∧ ∀ below ∈ needed, mark (values below) = mark (values' below))
    {other : κ} (path : Below rules name other) :
    Below second name other ∧
      ∃ found found', Gives rules other found ∧ Gives second other found' ∧
        mark found = mark found' := by
  induction path with
  | refl => exact ⟨.refl, value, value', h, h', same⟩
  | tail _ edge ih =>
      obtain ⟨path', found, found', given, given', marked⟩ := ih
      obtain ⟨listed, known', mem⟩ := edge.known
      have whole := given
      have whole' := given'
      cases given with
      | intro known below made =>
          rw [known'] at known
          cases known
          cases given' with
          | intro known below' made' =>
              obtain ⟨rfl, marks⟩ :=
                tells _ _ _ _ _ _ _ whole whole' marked known' known made made'
              exact ⟨path'.tail (.of_known known mem), _, _, below _ mem, below' _ mem, marks _ mem⟩

/-- The names whose needs are known are listed. -/
def Listed (rules : Rules κ ν ε) (names : List κ) : Prop :=
  ∀ name needed, rules.needs name = .ok needed → name ∈ names

theorem transGen_of_isChain {R : κ → κ → Prop} {first last : κ} {middle : List κ}
    (chain : (first :: (middle ++ [last])).IsChain R) : TransGen R first last := by
  induction middle generalizing first with
  | nil => exact .single (List.isChain_cons_cons.mp chain).1
  | cons next middle ih =>
      obtain ⟨edge, rest⟩ := List.isChain_cons_cons.mp chain
      exact .head edge (ih rest)

variable [DecidableEq κ]

/-- Where no name needs itself, every name whose needs are known, and whose value can be made from
those of others, has a value. -/
theorem gives_of_acyclic {names : List κ} (listed : Listed rules names)
    (acyclic : ∀ name, ¬ TransGen (Needs rules) name name)
    (known : ∀ name other, Needs rules name other → ∃ needed, rules.needs other = .ok needed)
    (made : ∀ name values, rules.needs name = .ok (values.map Prod.fst) →
      ∃ value, rules.make name values = .ok value)
    {name : κ} {needed : List κ} (start : rules.needs name = .ok needed) :
    ∃ value, Gives rules name value := by
  have inside : Digraph.Listed rules.needed names := by
    intro other some_
    obtain ⟨below, mem⟩ := List.exists_mem_of_ne_nil _ some_
    have edge : Needs rules other below := mem
    obtain ⟨needed, h, -⟩ := edge.known
    exact listed other needed h
  have none_ : Digraph.Acyclic rules.needed := by
    rintro path ⟨first, middle, rfl, chain⟩
    exact acyclic first (transGen_of_isChain chain)
  obtain ⟨height, down⟩ :=
    Digraph.exists_rank_of_findCycle ((Digraph.findCycle_eq_none_iff inside).mpr none_)
  induction rank : height name using Nat.strong_induction_on generalizing name needed with
  | _ rank' ih =>
      subst rank
      have each : ∀ other ∈ needed, ∃ value, Gives rules other value := by
        intro other mem
        have edge : Needs rules name other := .of_known start mem
        obtain ⟨below, h⟩ := known name other edge
        exact ih _ (down name (listed name needed start) other edge) h rfl
      have inhabited : Nonempty ν := by
        cases needed with
        | nil => exact (made name [] start).nonempty
        | cons other rest => exact (each other (by simp)).nonempty
      let values := fun other => Classical.epsilon fun value => Gives rules other value
      have given : ∀ other ∈ needed, Gives rules other (values other) :=
        fun other mem => Classical.epsilon_spec (each other mem)
      obtain ⟨value, h⟩ := made name (needed.map fun other => (other, values other))
        (by rw [start, List.map_map]; exact congrArg _ (List.map_id needed).symm)
      exact ⟨value, .intro start given h⟩

/-! ## The search -/

/-- The names in order, each with the memory that the one before it has left. -/
def buildEach (build : κ → Table κ ν → Except ε (Table κ ν × ν)) :
    List κ → Table κ ν → Except ε (Table κ ν × List (κ × ν))
  | [], built => .ok (built, [])
  | name :: rest, built => do
      let (built, value) ← build name built
      let (built, values) ← buildEach build rest built
      return (built, (name, value) :: values)

/-- The value of a name, from the memory or built.  The fuel bounds the names that can be
visited. -/
def build (rules : Rules κ ν ε) : Nat → List κ → κ → Table κ ν → Except ε (Table κ ν × ν)
  | 0, visiting, name, built =>
      match built.get? name with
      | some value => .ok (built, value)
      | none => .error (rules.cycle (visiting ++ [name]))
  | fuel + 1, visiting, name, built =>
      match built.get? name with
      | some value => .ok (built, value)
      | none =>
          if name ∈ visiting then .error (rules.cycle (visiting ++ [name]))
          else do
            let needed ← rules.needs name
            let (built, values) ← buildEach (build rules fuel (visiting ++ [name])) needed built
            let value ← rules.make name values
            return (built.insert name value, value)

/-- Every name in turn. -/
def buildAll (rules : Rules κ ν ε) (names : List κ) : Except ε (Table κ ν) := do
  let (built, _) ← buildEach (build rules (names.length + 1) []) names .empty
  return built

/-- The memory holds only what the rules give. -/
def Sound (rules : Rules κ ν ε) (built : Table κ ν) : Prop :=
  ∀ name value, built.get? name = some value → Gives rules name value

theorem sound_empty : Sound rules .empty := by
  intro name value found
  cases found

/-- A name stands in the memory after the names that it needs. -/
def Ordered (rules : Rules κ ν ε) (built : Table κ ν) : Prop :=
  ∀ before name value after, built.entries = before ++ (name, value) :: after →
    ∀ other, Needs rules name other → other ∈ Fields.keys before

omit [DecidableEq κ] in
theorem ordered_empty : Ordered rules (.empty : Table κ ν) := by
  intro before name value after split
  exact absurd split (by simp [Table.empty])

theorem mem_keys_of_get? {built : Table κ ν} {name : κ} {value : ν}
    (found : built.get? name = some value) : name ∈ Fields.keys built.entries :=
  List.mem_map_of_mem (Table.mem_entries_iff.mpr found)

theorem Ordered.insert {built : Table κ ν} {name : κ} {value : ν} (h : Ordered rules built)
    (fresh : built.get? name = none)
    (held : ∀ other, Needs rules name other → other ∈ Fields.keys built.entries) :
    Ordered rules (built.insert name value) := by
  intro before first found after split
  rw [Table.entries_insert_fresh fresh] at split
  rcases List.eq_nil_or_concat after with rfl | ⟨rest, last, rfl⟩
  · obtain ⟨rfl, same⟩ := List.append_inj' split rfl
    cases same
    exact held
  · rw [List.concat_eq_append, ← List.cons_append, ← List.append_assoc] at split
    exact h before first found rest (List.append_inj' split rfl).1

/-- What a search leaves in the memory: what was there, and values below the names asked for. -/
structure Grows (rules : Rules κ ν ε) (names : List κ) (before after : Table κ ν) : Prop where
  sound : Sound rules after
  keeps : ∀ name value, before.get? name = some value → after.get? name = some value
  fresh : ∀ name value, after.get? name = some value →
    before.get? name = some value ∨ ∃ asked ∈ names, Below rules asked name
  ordered : Ordered rules before → Ordered rules after

theorem Grows.refl {names : List κ} {built : Table κ ν} (sound : Sound rules built) :
    Grows rules names built built :=
  ⟨sound, fun _ _ found => found, fun _ _ found => .inl found, id⟩

theorem Grows.trans {names others : List κ} {first second third : Table κ ν}
    (h : Grows rules names first second) (h' : Grows rules others second third) :
    Grows rules (names ++ others) first third where
  sound := h'.sound
  keeps name value found := h'.keeps name value (h.keeps name value found)
  fresh name value found := by
    rcases h'.fresh name value found with found | ⟨asked, mem, path⟩
    · rcases h.fresh name value found with found | ⟨asked, mem, path⟩
      · exact .inl found
      · exact .inr ⟨asked, by simp [mem], path⟩
    · exact .inr ⟨asked, by simp [mem], path⟩
  ordered := h'.ordered ∘ h.ordered

/-- The step of the search that adds a value. -/
theorem Grows.insert {name : κ} {needed : List κ} {before after : Table κ ν} {value : ν}
    (h : Grows rules needed before after) (known : rules.needs name = .ok needed)
    (given : Gives rules name value) (absent : before.get? name = none)
    (held : ∀ other ∈ needed, other ∈ Fields.keys after.entries) :
    Grows rules [name] before (after.insert name value) where
  sound other found looked := by
    by_cases same : other = name
    · subst same
      rw [Table.get?_insert_self] at looked
      cases looked
      exact given
    · rw [Table.get?_insert_ne _ same] at looked
      exact h.sound other found looked
  keeps other found looked := by
    have kept := h.keeps other found looked
    by_cases same : other = name
    · subst same
      rw [Table.get?_insert_self, given.unique (h.sound other found kept)]
    · rw [Table.get?_insert_ne _ same]
      exact kept
  fresh other found looked := by
    by_cases same : other = name
    · exact .inr ⟨name, by simp, same ▸ .refl⟩
    · rw [Table.get?_insert_ne _ same] at looked
      rcases h.fresh other found looked with kept | ⟨asked, mem, path⟩
      · exact .inl kept
      · exact .inr ⟨name, by simp, .head (.of_known known mem) path⟩
  ordered start := by
    have fresh : after.get? name = none := by
      rw [Option.eq_none_iff_forall_ne_some]
      intro found looked
      rcases h.fresh name found looked with there | ⟨asked, mem, path⟩
      · rw [absent] at there
        cases there
      · exact given.acyclic (TransGen.head' (.of_known known mem) path)
    refine (h.ordered start).insert fresh fun other edge => ?_
    obtain ⟨needed', known', mem⟩ := edge.known
    rw [known] at known'
    cases known'
    exact held other mem

section Each

variable {step : κ → Table κ ν → Except ε (Table κ ν × ν)}

omit [DecidableEq κ] in
theorem buildEach_cons_ok {name : κ} {rest : List κ} {built after : Table κ ν}
    {values : List (κ × ν)} (h : buildEach step (name :: rest) built = .ok (after, values)) :
    ∃ middle value others, step name built = .ok (middle, value) ∧
      buildEach step rest middle = .ok (after, others) ∧ values = (name, value) :: others := by
  rw [buildEach] at h
  cases first : step name built with
  | error found =>
      rw [first] at h
      cases h
  | ok result =>
      obtain ⟨middle, value⟩ := result
      rw [first] at h
      change (buildEach step rest middle >>= fun (built, values) =>
        Except.ok (built, (name, value) :: values)) = .ok (after, values) at h
      cases others : buildEach step rest middle with
      | error found =>
          rw [others] at h
          cases h
      | ok result =>
          rw [others] at h
          cases h
          exact ⟨middle, value, _, rfl, others, rfl⟩

/-- What one build leaves, builds in a row leave. -/
theorem buildEach_ok {names : List κ} {built after : Table κ ν} {values : List (κ × ν)}
    (one : ∀ name ∈ names, ∀ before after value, Sound rules before →
      step name before = .ok (after, value) →
        Grows rules [name] before after ∧ after.get? name = some value)
    (sound : Sound rules built) (h : buildEach step names built = .ok (after, values)) :
    Grows rules names built after ∧ values.map Prod.fst = names ∧
      ∀ entry ∈ values, after.get? entry.1 = some entry.2 := by
  induction names generalizing built values with
  | nil =>
      cases h
      exact ⟨.refl sound, rfl, by simp⟩
  | cons name rest ih =>
      obtain ⟨middle, value, others, first, second, rfl⟩ := buildEach_cons_ok h
      obtain ⟨grows, held⟩ := one name (by simp) _ _ _ sound first
      obtain ⟨more, listed, holds⟩ :=
        ih (fun other mem => one other (by simp [mem])) grows.sound second
      refine ⟨grows.trans more, by rw [List.map_cons, listed], fun entry mem => ?_⟩
      rcases List.mem_cons.mp mem with rfl | mem
      · exact more.keeps _ _ held
      · exact holds entry mem

/-- Builds in a row succeed if each does on every sound memory. -/
theorem buildEach_complete {names : List κ} {built : Table κ ν}
    (one : ∀ name ∈ names, ∀ before, Sound rules before →
      ∃ after value, step name before = .ok (after, value) ∧ Sound rules after)
    (sound : Sound rules built) : ∃ result, buildEach step names built = .ok result := by
  induction names generalizing built with
  | nil => exact ⟨_, rfl⟩
  | cons name rest ih =>
      obtain ⟨middle, value, first, sound'⟩ := one name (by simp) built sound
      obtain ⟨⟨after, others⟩, second⟩ := ih (fun other mem => one other (by simp [mem])) sound'
      refine ⟨(after, (name, value) :: others), ?_⟩
      rw [buildEach, first]
      change (buildEach step rest middle >>= _) = _
      rw [second]
      rfl

/-- Builds in a row fail in the one that fails. -/
theorem buildEach_error {names : List κ} {built : Table κ ν} {error : ε}
    (one : ∀ name ∈ names, ∀ before after value, Sound rules before →
      step name before = .ok (after, value) → Sound rules after)
    (sound : Sound rules built) (h : buildEach step names built = .error error) :
    ∃ name ∈ names, ∃ before, Sound rules before ∧ step name before = .error error := by
  induction names generalizing built with
  | nil => cases h
  | cons name rest ih =>
      rw [buildEach] at h
      cases first : step name built with
      | error found =>
          rw [first] at h
          cases h
          exact ⟨name, by simp, built, sound, first⟩
      | ok result =>
          obtain ⟨middle, value⟩ := result
          rw [first] at h
          change (buildEach step rest middle >>= fun (built, values) =>
            Except.ok (built, (name, value) :: values)) = .error error at h
          cases others : buildEach step rest middle with
          | ok result =>
              rw [others] at h
              cases h
          | error found =>
              rw [others] at h
              cases h
              obtain ⟨other, mem, before, sound', failed⟩ :=
                ih (fun other mem => one other (by simp [mem]))
                  (one name (by simp) _ _ _ sound first) others
              exact ⟨other, by simp [mem], before, sound', failed⟩

end Each

/-! ## What a build leaves -/

theorem build_eq_of_found {fuel : Nat} {visiting : List κ} {name : κ} {built : Table κ ν}
    {value : ν} (found : built.get? name = some value) :
    build rules fuel visiting name built = .ok (built, value) := by
  cases fuel <;> rw [build, found]

theorem build_succ_of_absent {fuel : Nat} {visiting : List κ} {name : κ} {built : Table κ ν}
    (absent : built.get? name = none) (fresh : name ∉ visiting) :
    build rules (fuel + 1) visiting name built = (rules.needs name >>= fun needed =>
      buildEach (build rules fuel (visiting ++ [name])) needed built >>= fun result =>
        rules.make name result.2 >>= fun value => .ok (result.1.insert name value, value)) := by
  rw [build, absent]
  simp only [if_neg fresh]
  rfl

/-- A build finds the value, or makes it from those of the names that it needs. -/
theorem build_ok_cases {fuel : Nat} {visiting : List κ} {name : κ} {before after : Table κ ν}
    {value : ν} (h : build rules fuel visiting name before = .ok (after, value)) :
    (before.get? name = some value ∧ after = before) ∨
    ∃ lower needed middle values, before.get? name = none ∧ fuel = lower + 1 ∧
      rules.needs name = .ok needed ∧
      buildEach (build rules lower (visiting ++ [name])) needed before = .ok (middle, values) ∧
      rules.make name values = .ok value ∧ after = middle.insert name value := by
  cases found : before.get? name with
  | some held =>
      rw [build_eq_of_found found] at h
      cases h
      exact .inl ⟨rfl, rfl⟩
  | none =>
      right
      cases fuel with
      | zero =>
          rw [build, found] at h
          cases h
      | succ lower =>
          by_cases visited : name ∈ visiting
          · rw [build, found] at h
            simp only [if_pos visited] at h
            cases h
          · rw [build_succ_of_absent found visited] at h
            cases known : rules.needs name with
            | error error =>
                rw [known] at h
                cases h
            | ok needed =>
                rw [known] at h
                change (buildEach (build rules lower (visiting ++ [name])) needed before >>= _) = _
                  at h
                cases below : buildEach (build rules lower (visiting ++ [name])) needed before with
                | error error =>
                    rw [below] at h
                    cases h
                | ok result =>
                    obtain ⟨middle, values⟩ := result
                    rw [below] at h
                    change (rules.make name values >>= _) = _ at h
                    cases made : rules.make name values with
                    | error error =>
                        rw [made] at h
                        cases h
                    | ok found =>
                        rw [made] at h
                        cases h
                        exact ⟨lower, needed, middle, values, rfl, rfl, rfl, below, made, rfl⟩

omit [DecidableEq κ] in
/-- The values of names are the names with what the rules give them. -/
theorem values_eq {needed : List κ} {values : List (κ × ν)} {given : κ → ν}
    (listed : values.map Prod.fst = needed)
    (held : ∀ entry ∈ values, Gives rules entry.1 entry.2)
    (below : ∀ other ∈ needed, Gives rules other (given other)) :
    values = needed.map fun other => (other, given other) := by
  subst listed
  rw [List.map_map]
  refine (List.map_id values).symm.trans (List.map_congr_left fun entry mem => ?_)
  have same := (held entry mem).unique (below entry.1 (List.mem_map_of_mem mem))
  exact Prod.ext rfl same

theorem build_ok {fuel : Nat} {visiting : List κ} {name : κ} {before after : Table κ ν} {value : ν}
    (sound : Sound rules before)
    (h : build rules fuel visiting name before = .ok (after, value)) :
    Grows rules [name] before after ∧ after.get? name = some value := by
  induction fuel generalizing visiting name before after value with
  | zero =>
      rcases build_ok_cases h with ⟨found, rfl⟩ | ⟨lower, _, _, _, _, impossible, _⟩
      · exact ⟨.refl sound, found⟩
      · cases impossible
  | succ fuel ih =>
      rcases build_ok_cases h with ⟨found, rfl⟩ |
        ⟨lower, needed, middle, values, absent, same, known, below, made, rfl⟩
      · exact ⟨.refl sound, found⟩
      · cases same
        obtain ⟨grows, listed, held⟩ :=
          buildEach_ok (fun other _ before after value sound h => ih sound h) sound below
        have given : ∀ entry ∈ values, Gives rules entry.1 entry.2 :=
          fun entry mem => grows.sound _ _ (held entry mem)
        let found := fun other => (middle.get? other).getD value
        have each : ∀ other ∈ needed, Gives rules other (found other) := by
          intro other mem
          obtain ⟨entry, inside, rfl⟩ := List.mem_map.mp (listed ▸ mem)
          simp only [found, held entry inside, Option.getD_some]
          exact given entry inside
        rw [values_eq listed given each] at made
        refine ⟨grows.insert known (.intro known each made) absent fun other mem => ?_, ?_⟩
        · obtain ⟨entry, inside, rfl⟩ := List.mem_map.mp (listed ▸ mem)
          exact mem_keys_of_get? (held entry inside)
        rw [Table.get?_insert_self]

/-! ## When a build succeeds -/

section Listed

variable {names : List κ}

/-- The names that are being visited, and the fuel that is left for the others. -/
structure Visits (names : List κ) (fuel : Nat) (visiting : List κ) : Prop where
  distinct : visiting.Nodup
  inside : visiting ⊆ names
  enough : names.length < fuel + visiting.length

omit [DecidableEq κ] in
theorem Visits.pos {fuel : Nat} {visiting : List κ} (h : Visits names fuel visiting) :
    ∃ lower, fuel = lower + 1 := by
  have short := (List.subperm_of_subset h.distinct h.inside).length_le
  have := h.enough
  exact ⟨fuel - 1, by omega⟩

omit [DecidableEq κ] in
theorem Visits.concat {fuel : Nat} {visiting : List κ} {name : κ}
    (h : Visits names (fuel + 1) visiting) (fresh : name ∉ visiting) (mem : name ∈ names) :
    Visits names fuel (visiting ++ [name]) where
  distinct := Digraph.nodup_concat h.distinct fresh
  inside := List.append_subset.mpr ⟨h.inside, by simpa using mem⟩
  enough := by
    have := h.enough
    rw [List.length_append, List.length_singleton]
    omega

/-- A name with a value is built, on every sound memory. -/
theorem build_complete (listed : Listed rules names) {fuel : Nat} {visiting : List κ} {name : κ}
    {before : Table κ ν} {value : ν} (visits : Visits names fuel visiting)
    (given : Gives rules name value) (sound : Sound rules before)
    (apart : ∀ other ∈ visiting, ¬ Below rules name other) :
    ∃ after, build rules fuel visiting name before = .ok (after, value) := by
  induction fuel generalizing visiting name before value with
  | zero =>
      obtain ⟨lower, impossible⟩ := visits.pos
      cases impossible
  | succ fuel ih =>
      cases found : before.get? name with
      | some held =>
          rw [(sound name held found).unique given] at found
          exact ⟨before, build_eq_of_found found⟩
      | none =>
          have fresh : name ∉ visiting := fun visited => apart name visited .refl
          have acyclic := given.acyclic
          obtain ⟨known, below, made⟩ := given
          rename_i needed values
          have next := visits.concat fresh (listed name _ known)
          have one : ∀ other ∈ needed, ∀ middle, Sound rules middle →
              ∃ after result, build rules fuel (visiting ++ [name]) other middle =
                .ok (after, result) ∧ Sound rules after := by
            intro other mem middle sound'
            have edge : Needs rules name other := .of_known known mem
            have away : ∀ visited ∈ visiting ++ [name], ¬ Below rules other visited := by
              intro visited inside path
              rcases List.mem_append.mp inside with inside | inside
              · exact apart visited inside (.head edge path)
              · rw [List.mem_singleton] at inside
                exact acyclic (TransGen.head' edge (inside ▸ path))
            obtain ⟨after, built⟩ := ih next (below other mem) sound' away
            exact ⟨after, _, built, (build_ok sound' built).1.sound⟩
          obtain ⟨⟨after, results⟩, built⟩ := buildEach_complete one sound
          obtain ⟨grows, order, held⟩ :=
            buildEach_ok (fun other _ before after value sound h => build_ok sound h) sound built
          have same := values_eq order (fun entry mem => grows.sound _ _ (held entry mem)) below
          refine ⟨after.insert name value, ?_⟩
          rw [build_succ_of_absent found fresh, known]
          change (buildEach (build rules fuel (visiting ++ [name])) needed before >>= _) = _
          rw [built]
          change (rules.make name results >>= _) = _
          rw [same, made]
          rfl

/-- What stops a build below a name: the needs of a name, or a value that cannot be made. -/
inductive Fails (rules : Rules κ ν ε) (asked : κ) : ε → Prop where
  | needs {name : κ} {error : ε} (path : Below rules asked name)
      (unknown : rules.needs name = .error error) : Fails rules asked error
  | make {name : κ} {values : List (κ × ν)} {error : ε} (path : Below rules asked name)
      (known : rules.needs name = .ok (values.map Prod.fst))
      (given : ∀ entry ∈ values, Gives rules entry.1 entry.2)
      (unmade : rules.make name values = .error error) : Fails rules asked error

omit [DecidableEq κ] in
theorem Fails.above {asked other : κ} {error : ε} (h : Fails rules other error)
    (edge : Needs rules asked other) : Fails rules asked error := by
  cases h with
  | needs path unknown => exact .needs (.head edge path) unknown
  | make path known given unmade => exact .make (.head edge path) known given unmade

/-- A build that fails names a cycle that it has followed, or what cannot be built. -/
theorem build_error (listed : Listed rules names) {fuel : Nat} {visiting : List κ} {name : κ}
    {before : Table κ ν} {error : ε} (visits : Visits names fuel visiting)
    (chain : (visiting ++ [name]).IsChain (Needs rules)) (sound : Sound rules before)
    (h : build rules fuel visiting name before = .error error) :
    Fails rules name error ∨
      ∃ path, visiting ++ [name] <+: path ∧ Closes rules path ∧ error = rules.cycle path := by
  induction fuel generalizing visiting name before with
  | zero =>
      obtain ⟨lower, impossible⟩ := visits.pos
      cases impossible
  | succ fuel ih =>
      cases found : before.get? name with
      | some held =>
          rw [build_eq_of_found found] at h
          cases h
      | none =>
          by_cases visited : name ∈ visiting
          · rw [build, found] at h
            simp only [if_pos visited] at h
            cases h
            exact .inr ⟨_, List.prefix_refl _, ⟨visiting, name, rfl, visited, chain⟩, rfl⟩
          · rw [build_succ_of_absent found visited] at h
            cases known : rules.needs name with
            | error unknown =>
                rw [known] at h
                cases h
                exact .inl (.needs .refl known)
            | ok needed =>
                rw [known] at h
                change (buildEach (build rules fuel (visiting ++ [name])) needed before >>= _) = _
                  at h
                cases below : buildEach (build rules fuel (visiting ++ [name])) needed before with
                | error failed =>
                    rw [below] at h
                    cases h
                    obtain ⟨other, mem, middle, sound', stopped⟩ := buildEach_error
                      (fun other _ before after value sound h => (build_ok sound h).1.sound)
                      sound below
                    have edge : Needs rules name other := .of_known known mem
                    rcases ih (visits.concat visited (listed name _ known))
                      (Digraph.isChain_concat chain edge) sound' stopped with
                      fails | ⟨path, begins, closes, rfl⟩
                    · exact .inl (fails.above edge)
                    · exact .inr ⟨path, (List.prefix_append _ _).trans begins, closes, rfl⟩
                | ok result =>
                    obtain ⟨middle, values⟩ := result
                    obtain ⟨grows, order, held⟩ := buildEach_ok
                      (fun other _ before after value sound h => build_ok sound h) sound below
                    rw [below] at h
                    change (rules.make name values >>= _) = _ at h
                    cases made : rules.make name values with
                    | ok value =>
                        rw [made] at h
                        cases h
                    | error unmade =>
                        rw [made] at h
                        cases h
                        refine .inl (.make .refl ?_ (fun entry mem => ?_) made)
                        · rw [known, order]
                        · exact grows.sound _ _ (held entry mem)

/-! ## All names -/

omit [DecidableEq κ] in
theorem visits_start : Visits names (names.length + 1) [] :=
  ⟨.nil, List.nil_subset names, by simp⟩

theorem buildAll_eq (names : List κ) : buildAll rules names =
    (buildEach (build rules (names.length + 1) []) names .empty).map Prod.fst := by
  rw [buildAll]
  cases buildEach (build rules (names.length + 1) []) names .empty <;> rfl

/-- What is kept is what the rules give, whatever the order of the names. -/
theorem buildAll_ok (listed : Listed rules names) {built : Table κ ν}
    (h : buildAll rules names = .ok built) (name : κ) (value : ν) :
    built.get? name = some value ↔ Gives rules name value := by
  rw [buildAll_eq] at h
  cases each : buildEach (build rules (names.length + 1) []) names .empty with
  | error error =>
      rw [each] at h
      cases h
  | ok result =>
      obtain ⟨after, values⟩ := result
      rw [each] at h
      cases h
      obtain ⟨grows, order, held⟩ := buildEach_ok
        (fun name _ before after value sound h => build_ok sound h) sound_empty each
      constructor
      · exact grows.sound name value
      · intro given
        have mem : name ∈ values.map Prod.fst := by
          obtain ⟨known, -, -⟩ := given
          rw [order]
          exact listed name _ known
        obtain ⟨entry, inside, rfl⟩ := List.mem_map.mp mem
        have found := held entry inside
        rw [found, (grows.sound _ _ found).unique given]

theorem buildAll_given {built : Table κ ν}
    (h : buildAll rules names = .ok built) {name : κ} (mem : name ∈ names) :
    ∃ value, Gives rules name value := by
  rw [buildAll_eq] at h
  cases each : buildEach (build rules (names.length + 1) []) names .empty with
  | error error =>
      rw [each] at h
      cases h
  | ok result =>
      obtain ⟨after, values⟩ := result
      rw [each] at h
      cases h
      obtain ⟨grows, order, held⟩ := buildEach_ok
        (fun name _ before after value sound h => build_ok sound h) sound_empty each
      rw [← order] at mem
      obtain ⟨entry, inside, rfl⟩ := List.mem_map.mp mem
      exact ⟨entry.2, grows.sound _ _ (held entry inside)⟩

/-- What is kept stands after what it needs. -/
theorem buildAll_ordered {built : Table κ ν} (h : buildAll rules names = .ok built) :
    Ordered rules built := by
  rw [buildAll_eq] at h
  cases each : buildEach (build rules (names.length + 1) []) names .empty with
  | error error =>
      rw [each] at h
      cases h
  | ok result =>
      rw [each] at h
      cases h
      obtain ⟨grows, -, -⟩ := buildEach_ok
        (fun name _ before after value sound h => build_ok sound h) sound_empty each
      exact grows.ordered ordered_empty

/-- All names are built exactly if each of them has a value. -/
theorem buildAll_succeeds_iff (listed : Listed rules names) :
    (∃ built, buildAll rules names = .ok built) ↔
      ∀ name ∈ names, ∃ value, Gives rules name value := by
  constructor
  · rintro ⟨built, h⟩ name mem
    exact buildAll_given h mem
  · intro given
    have one : ∀ name ∈ names, ∀ before, Sound rules before →
        ∃ after value, build rules (names.length + 1) [] name before = .ok (after, value) ∧
          Sound rules after := by
      intro name mem before sound
      obtain ⟨value, gives⟩ := given name mem
      obtain ⟨after, built⟩ := build_complete listed visits_start gives sound (by simp)
      exact ⟨after, value, built, (build_ok sound built).1.sound⟩
    obtain ⟨result, each⟩ := buildEach_complete one sound_empty
    exact ⟨result.1, by rw [buildAll_eq, each]; rfl⟩

/-- The first name that cannot be built decides the error: a cycle that starts at it, or what
stops a build below it. -/
theorem buildAll_error (listed : Listed rules names) {error : ε}
    (h : buildAll rules names = .error error) :
    ∃ asked ∈ names, Fails rules asked error ∨
      ∃ path, path.head? = some asked ∧ Closes rules path ∧ error = rules.cycle path := by
  rw [buildAll_eq] at h
  cases each : buildEach (build rules (names.length + 1) []) names .empty with
  | ok result =>
      rw [each] at h
      cases h
  | error failed =>
      rw [each] at h
      cases h
      obtain ⟨asked, mem, before, sound, stopped⟩ := buildEach_error
        (fun name _ before after value sound h => (build_ok sound h).1.sound) sound_empty each
      refine ⟨asked, mem, ?_⟩
      rcases build_error listed visits_start (.singleton asked) sound stopped with
        fails | ⟨path, ⟨rest, rfl⟩, closes, rfl⟩
      · exact .inl fails
      · exact .inr ⟨_, rfl, closes, rfl⟩

end Listed

end Memoization
