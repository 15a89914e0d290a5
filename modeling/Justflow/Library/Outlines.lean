import Justflow.Library.Interference

/-!
# Proof outlines

An outline gives every point of a program an assertion about the world, and says which points no
two processes reach together.  It is sound if every program starts at a point whose assertion
holds, every request leads from one such point to the next, and no request spoils the assertion of
another process.  Unlike the preconditions of `Careful`, assertions also say what is true after a
process has ended, so an outline is a statement about the outcomes of undisturbed runs
(`Outline.Sound.run`).
-/

namespace Service

variable {Request : Type} {Reply : Request → Type} {ε α World Choice Actor Call Tick : Type}

structure Outline (Reply : Request → Type) (ε α World Actor : Type) where
  invariant : World → Prop
  assertion : Actor → Process Reply ε α → World → Prop
  apart : Process Reply ε α → Process Reply ε α → Prop

namespace Outline

variable (outline : Outline Reply ε α World Actor)

/-- Every process of a configuration is at a point whose assertion holds. -/
structure Holds (config : Config Reply ε α World Actor) : Prop where
  invariant : outline.invariant config.world
  running : ∀ entry ∈ config.running, outline.assertion entry.1 entry.2 config.world
  apart : config.running.Pairwise fun a b => outline.apart a.2 b.2

/-- The request that a process waits to have served does not clash with the served one. -/
def Clear (Clash : Request → Request → Prop) (request : Request) (p : Process Reply ε α) : Prop :=
  ∀ waits resume, p = .ask waits resume → ¬ Clash request waits

/-- The assertions of an outline follow from each other. -/
structure Sound (service : Service Reply ε α World Choice Actor Call Tick)
    (Started : Actor → Call → Prop) (Allowed : World → Request → Prop)
    (Clash : Request → Request → Prop) : Prop where
  start : ∀ actor call world, Started actor call → outline.invariant world →
    outline.assertion actor (service.program actor call) world
  fresh : ∀ actor call p, outline.apart p (service.program actor call)
  symm : ∀ p q, outline.apart p q → outline.apart q p
  serve : ∀ actor request resume world choice, outline.invariant world →
    outline.assertion actor (.ask request resume) world → Allowed world request →
      outline.invariant (service.respond choice world request).2 ∧
        outline.assertion actor (resume (service.respond choice world request).1)
          (service.respond choice world request).2
  frame : ∀ actor request resume other p world choice, outline.invariant world →
    outline.assertion actor (.ask request resume) world → outline.assertion other p world →
      outline.apart (.ask request resume) p → Allowed world request → Clear Clash request p →
        outline.assertion other p (service.respond choice world request).2 ∧
          outline.apart (resume (service.respond choice world request).1) p
  elapse : ∀ change world, outline.invariant world →
    outline.invariant (service.elapse change world) ∧
      ∀ actor p, outline.assertion actor p world →
        outline.assertion actor p (service.elapse change world)

end Outline

/-- Replacing one element of a list keeps a symmetric relation between its elements. -/
theorem pairwise_set {β : Type} {R : β → β → Prop} (symm : ∀ a b, R a b → R b a) {items : List β}
    {index : Nat} {value : β} (pairwise : items.Pairwise R)
    (others : ∀ position other, position ≠ index → items[position]? = some other →
      R value other) : (items.set index value).Pairwise R := by
  rw [List.pairwise_iff_getElem] at pairwise ⊢
  intro i j hi hj less
  rw [List.length_set] at hi hj
  rw [List.getElem_set, List.getElem_set]
  split
  · next first =>
      rw [if_neg (by omega)]
      exact others j _ (by omega) (List.getElem?_eq_getElem hj)
  · next first =>
      split
      · exact symm _ _ (others i _ (fun same => first same.symm) (List.getElem?_eq_getElem hi))
      · exact pairwise i j hi hj less

namespace Outline

variable {outline : Outline Reply ε α World Actor}
  {service : Service Reply ε α World Choice Actor Call Tick} {Started : Actor → Call → Prop}
  {Allowed : World → Request → Prop} {Clash : Request → Request → Prop}

theorem holds_initial {world : World} (invariant : outline.invariant world) :
    outline.Holds (initial world) :=
  ⟨invariant, fun _ member => absurd member List.not_mem_nil, .nil⟩

/-- Two processes of a configuration are apart. -/
theorem Holds.between {config : Config Reply ε α World Actor} (holds : outline.Holds config)
    (symm : ∀ p q, outline.apart p q → outline.apart q p) {i j : Nat}
    {a b : Actor × Process Reply ε α} (differ : i ≠ j) (first : config.running[i]? = some a)
    (second : config.running[j]? = some b) : outline.apart a.2 b.2 := by
  obtain ⟨hi, rfl⟩ := List.getElem?_eq_some_iff.mp first
  obtain ⟨hj, rfl⟩ := List.getElem?_eq_some_iff.mp second
  have pairwise := List.pairwise_iff_getElem.mp holds.apart
  rcases Nat.lt_or_gt_of_ne differ with less | more
  · exact pairwise i j hi hj less
  · exact symm _ _ (pairwise j i hj hi more)

theorem Sound.handle (sound : outline.Sound service Started Allowed Clash)
    {config : Config Reply ε α World Actor} {event : Event Choice Actor Call Tick}
    (started : ∀ actor call, event = .start actor call → Started actor call)
    (undisturbed : config.Undisturbed Allowed Clash event) (holds : outline.Holds config) :
    outline.Holds (service.handle config event) := by
  cases event with
  | start actor call =>
      refine ⟨holds.invariant, fun entry member => ?_, ?_⟩
      · rcases List.mem_append.mp member with before | added
        · exact holds.running entry before
        · obtain rfl := List.mem_singleton.mp added
          exact sound.start _ _ _ (started actor call rfl) holds.invariant
      · refine List.pairwise_append.mpr ⟨holds.apart, List.pairwise_singleton _ _, ?_⟩
        intro entry _ added hadded
        obtain rfl := List.mem_singleton.mp hadded
        exact sound.fresh _ _ _
  | stop index =>
      exact ⟨holds.invariant,
        fun entry member => holds.running entry (List.mem_of_mem_eraseIdx member),
        holds.apart.sublist (List.eraseIdx_sublist _ _)⟩
  | tick change =>
      obtain ⟨kept, stays⟩ := sound.elapse change _ holds.invariant
      exact ⟨kept, fun entry member => stays _ _ (holds.running entry member), holds.apart⟩
  | serve index choice =>
      simp only [Service.handle]
      split
      · next actor request resume found =>
          have waits : config.waiting index = some request := by simp [Config.waiting, found]
          obtain ⟨allowed, clear⟩ := undisturbed request waits
          have here := holds.running _ (List.mem_of_getElem? found)
          obtain ⟨kept, next⟩ := sound.serve _ _ _ _ choice holds.invariant here allowed
          -- every other process keeps its assertion and stays apart from the served one
          have others : ∀ position entry, position ≠ index →
              config.running[position]? = some entry →
                outline.assertion entry.1 entry.2
                    (service.respond choice config.world request).2 ∧
                  outline.apart (resume (service.respond choice config.world request).1)
                    entry.2 := by
            rintro position ⟨other, p⟩ differ hentry
            apply sound.frame _ _ _ _ _ _ choice holds.invariant here
              (holds.running _ (List.mem_of_getElem? hentry))
              (holds.between sound.symm (Ne.symm differ) found hentry) allowed
            rintro waiting resume' rfl
            exact clear position waiting differ (by simp [Config.waiting, hentry])
          refine ⟨kept, fun entry member => ?_, ?_⟩
          · obtain ⟨position, hposition⟩ := List.mem_iff_getElem?.mp member
            rw [List.getElem?_set] at hposition
            split at hposition
            · split at hposition
              · cases hposition
                exact next
              · cases hposition
            · next differ => exact (others position entry (Ne.symm differ) hposition).1
          · apply pairwise_set (fun _ _ => sound.symm _ _) holds.apart
            intro position entry differ hentry
            exact (others position entry differ hentry).2
      · exact holds

/-- The outline holds throughout every undisturbed run. -/
theorem Sound.run (sound : outline.Sound service Started Allowed Clash)
    {config : Config Reply ε α World Actor} {events : List (Event Choice Actor Call Tick)}
    (started : ∀ actor call, .start actor call ∈ events → Started actor call)
    (undisturbed : service.UndisturbedRun Allowed Clash events config)
    (holds : outline.Holds config) : outline.Holds (service.run events config) := by
  induction events generalizing config with
  | nil => exact holds
  | cons event events ih =>
      apply ih (fun actor call member => started actor call (List.mem_cons_of_mem _ member))
        undisturbed.2
      apply sound.handle _ undisturbed.1 holds
      rintro actor call rfl
      exact started actor call List.mem_cons_self

end Outline

end Service
