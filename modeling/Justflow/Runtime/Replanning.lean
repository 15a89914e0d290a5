import Justflow.Runtime.Reconciler

/-!
# Planning again

`Progress` relates what is observed before a plan and after some of its changes.  If the plan had
no conflict, the next plan holds exactly the changes that were not made (`replan_iff`): a change
under one identity neither takes away nor adds a change under another, although the treatment of
the schedules of older releases looks at all of them.
-/

open Fields

namespace Justflow

namespace Reconciliation

variable {desired : List (String × DesiredSchedule)} {observed later : List (String × ObservedSchedule)}
  {decision : UnscopedScheduleDecision}

/-- No change of the plan is a conflict. -/
def Clean (desired : List (String × DesiredSchedule)) (observed : List (String × ObservedSchedule))
    (decision : UnscopedScheduleDecision) : Prop :=
  ∀ change ∈ scheduleChanges desired observed decision, change.kind ≠ .conflict

/-- Distinct desired schedules, each of some scope. -/
structure Scoped (desired : List (String × DesiredSchedule)) : Prop where
  nodup : (keys desired).Nodup
  scopes : ∀ entry ∈ desired, entry.2.target.scopeDigest ≠ none

/-- The change has been made. -/
def Made (desired : List (String × DesiredSchedule)) (later : List (String × ObservedSchedule))
    (change : ScheduleChange) : Prop :=
  match change.kind with
  | .create | .update => ∃ wanted, desired.lookup change.scheduleId = some wanted ∧
      later.lookup change.scheduleId = some wanted.observed
  | .delete => later.lookup change.scheduleId = none
  | .conflict => False

structure Progress (desired : List (String × DesiredSchedule))
    (observed later : List (String × ObservedSchedule)) (decision : UnscopedScheduleDecision) :
    Prop where
  nodup : (keys observed).Nodup
  nodupLater : (keys later).Nodup
  each : ∀ id, later.lookup id = observed.lookup id ∨
    ∃ change ∈ scheduleChanges desired observed decision, change.scheduleId = id ∧
      Made desired later change

/-! ## One plan -/

/-- A plan has one change under an identity. -/
theorem change_unique (hdesired : (keys desired).Nodup) (hobserved : (keys observed).Nodup)
    {first second : ScheduleChange} (hfirst : first ∈ scheduleChanges desired observed decision)
    (hsecond : second ∈ scheduleChanges desired observed decision)
    (same : first.scheduleId = second.scheduleId) : first = second := by
  rcases mem_scheduleChanges_iff.mp hfirst with ⟨e₁, m₁, r₁, h₁⟩ | ⟨e₁, m₁, r₁, h₁⟩ <;>
    rcases mem_scheduleChanges_iff.mp hsecond with ⟨e₂, m₂, r₂, h₂⟩ | ⟨e₂, m₂, r₂, h₂⟩
  · have key : e₁.1 = e₂.1 := by
      rw [← (desiredChange_spec h₁).1, ← (desiredChange_spec h₂).1, same]
    obtain ⟨k₁, v₁⟩ := e₁
    obtain ⟨k₂, v₂⟩ := e₂
    obtain rfl : k₁ = k₂ := key
    have values := (lookup_of_mem hdesired m₁).symm.trans (lookup_of_mem hdesired m₂)
    cases values
    exact Option.some.inj (h₁.symm.trans h₂)
  · have key : e₁.1 = e₂.1 := by
      rw [← (desiredChange_spec h₁).1, ← (orphanChange_spec h₂).1, same]
    rw [r₂ e₁ m₁ key] at r₁
    cases r₁
  · have key : e₂.1 = e₁.1 := by
      rw [← (desiredChange_spec h₂).1, ← (orphanChange_spec h₁).1, same]
    rw [r₁ e₂ m₂ key] at r₂
    cases r₂
  · have key : e₁.1 = e₂.1 := by
      rw [← (orphanChange_spec h₁).1, ← (orphanChange_spec h₂).1, same]
    obtain ⟨k₁, v₁⟩ := e₁
    obtain ⟨k₂, v₂⟩ := e₂
    obtain rfl : k₁ = k₂ := key
    have values := (lookup_of_mem hobserved m₁).symm.trans (lookup_of_mem hobserved m₂)
    cases values
    exact Option.some.inj (h₁.symm.trans h₂)

/-- What is known of an observed schedule of an older release when the plan is clean. -/
structure Migratable (desired : List (String × DesiredSchedule))
    (observed : List (String × ObservedSchedule)) (decision : UnscopedScheduleDecision)
    (entry : String × ObservedSchedule) : Prop where
  outside : ∀ wanted ∈ desired, wanted.1 = entry.1 → retained observed decision wanted.2 = true
  unambiguous : entry.2.scheduleName.any (ambiguousName observed) = false
  change : decision = .retain → orphanChange desired observed decision entry.1 entry.2 = none

theorem migratable_of_clean (wellScoped : Scoped desired) (hobserved : (keys observed).Nodup)
    (clean : Clean desired observed decision) {entry : String × ObservedSchedule}
    (mem : entry ∈ observed) (managed : entry.2.managed = true)
    (unscoped : entry.2.scopeDigest = none) :
    Migratable desired observed decision entry := by
  obtain ⟨id, actual⟩ := entry
  have found := lookup_of_mem hobserved mem
  have outside : ∀ wanted ∈ desired, wanted.1 = id → retained observed decision wanted.2 = true := by
    rintro ⟨key, wanted⟩ hwanted rfl
    by_contra left
    have scope : wanted.target.scopeDigest.map Digest.text ≠ none := by
      simpa using wellScoped.scopes _ hwanted
    -- An effective desired schedule in its place is a conflict of scopes, if not an earlier one.
    have conflict : ∃ change, desiredChange observed key wanted = some change ∧
        change.kind = .conflict := by
      dsimp only at managed unscoped
      rw [desiredChange, found]
      dsimp only
      rw [managed, unscoped]
      by_cases corrupt : actual.corruptMetadataKeys ≠ []
      · exact ⟨_, if_pos corrupt, rfl⟩
      · rw [if_neg corrupt, if_neg (by simp)]
        by_cases invalid : ¬ actual.validManagedIdentity = true ∨
            actual.scheduleName ≠ some wanted.scheduleName
        · exact ⟨_, if_pos invalid, rfl⟩
        · exact ⟨_, by rw [if_neg invalid, if_pos scope.symm], rfl⟩
    obtain ⟨change, hchange, kind⟩ := conflict
    refine clean change (mem_scheduleChanges_iff.mpr (.inl ⟨_, hwanted, ?_, hchange⟩)) kind
    simpa using left
  have change (c : ScheduleChange) (h : orphanChange desired observed decision id actual = some c) :
      c.kind ≠ .conflict :=
    clean c (mem_scheduleChanges_iff.mpr (.inr ⟨_, mem, outside, h⟩))
  dsimp only at managed unscoped
  rw [orphanChange] at change
  dsimp only at change
  rw [managed, unscoped] at change
  refine ⟨outside, ?_, ?_⟩
  · by_contra ambiguous
    simp only [Bool.not_eq_false] at ambiguous
    simp only [ambiguous] at change
    split_ifs at change <;> simp_all
  · rintro rfl
    rw [orphanChange]
    dsimp only
    rw [managed, unscoped]
    split_ifs at change ⊢ <;> simp_all

/-! ## The next plan -/

section Next

variable (wellScoped : Scoped desired) (clean : Clean desired observed decision)
  (progress : Progress desired observed later decision)

include wellScoped in
theorem observed_scope_ne_none {wanted : DesiredSchedule} {id : String}
    (found : desired.lookup id = some wanted) : wanted.observed.scopeDigest ≠ none := by
  simpa [DesiredSchedule.observed] using wellScoped.scopes _ (mem_lookup found)

include wellScoped progress

/-- No schedule of an older release appears. -/
theorem mem_of_mem_later {entry : String × ObservedSchedule} (mem : entry ∈ later)
    (unscoped : entry.2.scopeDigest = none) : entry ∈ observed := by
  obtain ⟨id, actual⟩ := entry
  have found := lookup_of_mem progress.nodupLater mem
  rcases progress.each id with same | ⟨change, -, rfl, made⟩
  · exact mem_lookup (same ▸ found)
  · rw [Made] at made
    split at made
    · obtain ⟨wanted, hwanted, hlater⟩ := made
      cases found.symm.trans hlater
      exact absurd unscoped (observed_scope_ne_none wellScoped hwanted)
    · obtain ⟨wanted, hwanted, hlater⟩ := made
      cases found.symm.trans hlater
      exact absurd unscoped (observed_scope_ne_none wellScoped hwanted)
    · rw [found] at made
      cases made
    · exact made.elim

theorem unscopedNamed_subset (name : String) :
    unscopedNamed later name ⊆ unscopedNamed observed name := by
  intro entry h
  simp only [unscopedNamed, List.mem_filter, decide_eq_true_eq] at h ⊢
  exact ⟨mem_of_mem_later wellScoped progress h.1 h.2.2.1, h.2⟩

omit wellScoped in
theorem nodup_unscopedNamed (name : String) : (unscopedNamed later name).Nodup :=
  (List.Nodup.of_map _ progress.nodupLater).filter _

theorem ambiguousName_mono {name : String} (h : ambiguousName later name = true) :
    ambiguousName observed name = true := by
  have length := (List.subperm_of_subset (nodup_unscopedNamed progress name)
    (unscopedNamed_subset wellScoped progress name)).length_le
  simp only [ambiguousName, decide_eq_true_eq] at h ⊢
  omega

include clean

/-- A decision to retain the schedules of older releases keeps all of them. -/
theorem mem_later_of_mem (retain : decision = .retain) {entry : String × ObservedSchedule}
    (mem : entry ∈ observed) (managed : entry.2.managed = true)
    (unscoped : entry.2.scopeDigest = none) : entry ∈ later := by
  have migratable := migratable_of_clean wellScoped progress.nodup clean mem managed unscoped
  obtain ⟨id, actual⟩ := entry
  have found := lookup_of_mem progress.nodup mem
  rcases progress.each id with same | ⟨change, hchange, rfl, -⟩
  · exact mem_lookup (same.trans found)
  · rcases mem_scheduleChanges_iff.mp hchange with ⟨wanted, hwanted, left, h⟩ |
      ⟨⟨key, other⟩, hother, -, h⟩
    · rw [migratable.outside wanted hwanted (desiredChange_spec h).1.symm] at left
      cases left
    · obtain rfl : change.scheduleId = key := (orphanChange_spec h).1
      cases found.symm.trans (lookup_of_mem progress.nodup hother)
      rw [migratable.change retain] at h
      cases h

theorem retained_later (schedule : DesiredSchedule) :
    retained later decision schedule = retained observed decision schedule := by
  by_cases retain : decision = .retain
  · have members (name : String) : unscopedNamed observed name ⊆ unscopedNamed later name := by
      intro entry h
      simp only [unscopedNamed, List.mem_filter, decide_eq_true_eq] at h ⊢
      exact ⟨mem_later_of_mem wellScoped clean progress retain h.1 h.2.1 h.2.2.1, h.2⟩
    have subset := unscopedNamed_subset wellScoped progress schedule.scheduleName
    have nodup : (unscopedNamed observed schedule.scheduleName).Nodup :=
      (List.Nodup.of_map _ progress.nodup).filter _
    have perm := (List.perm_ext_iff_of_nodup
      (nodup_unscopedNamed progress schedule.scheduleName) nodup).mpr fun entry =>
        ⟨fun h => subset h, fun h => members _ h⟩
    have nil : unscopedNamed later schedule.scheduleName = [] ↔
        unscopedNamed observed schedule.scheduleName = [] := by
      rw [← List.length_eq_zero_iff, ← List.length_eq_zero_iff, perm.length_eq]
    rw [Bool.eq_iff_iff]
    simp only [retained, ambiguousName, perm.length_eq, ne_eq, nil, decide_eq_true_eq]
  · simp [retained, retain]

theorem orphanChange_later {id : String} {actual : ObservedSchedule}
    (mem : (id, actual) ∈ observed) :
    orphanChange desired later decision id actual =
      orphanChange desired observed decision id actual := by
  by_cases older : actual.managed = true ∧ actual.scopeDigest = none
  · have before := (migratable_of_clean wellScoped progress.nodup clean mem older.1
      older.2).unambiguous
    have after : actual.scheduleName.any (ambiguousName later) = false := by
      rw [Bool.eq_false_iff]
      intro h
      cases name : actual.scheduleName with
      | none => simp [name] at h
      | some name' =>
          simp only [name, Option.any_some] at h before
          rw [ambiguousName_mono wellScoped progress h] at before
          cases before
    simp only [orphanChange, before, after]
  · rw [orphanChange, orphanChange]
    dsimp only
    by_cases managed : actual.managed = true
    · have unscoped : actual.scopeDigest ≠ none := fun h => older ⟨managed, h⟩
      rw [if_neg unscoped, if_neg unscoped]
    · rw [if_pos managed, if_pos managed]

omit clean wellScoped progress in
theorem desiredChange_congr {id : String} (same : later.lookup id = observed.lookup id)
    (wanted : DesiredSchedule) :
    desiredChange later id wanted = desiredChange observed id wanted := by
  rw [desiredChange, desiredChange, same]

omit clean wellScoped progress in
theorem desiredChange_made {id : String} {wanted : DesiredSchedule}
    (made : later.lookup id = some wanted.observed) : desiredChange later id wanted = none := by
  refine desiredChange_eq_none.mpr ⟨wanted.observed, made, ?_, rfl, rfl, rfl⟩
  simp [ObservedSchedule.validManagedIdentity, ObservedSchedule.managed, DesiredSchedule.observed]

/-- The next plan holds the changes that were not made. -/
theorem replan_iff {change : ScheduleChange} :
    change ∈ scheduleChanges desired later decision ↔
      change ∈ scheduleChanges desired observed decision ∧
        later.lookup change.scheduleId = observed.lookup change.scheduleId := by
  have retainedEq := retained_later wellScoped clean progress
  constructor
  · intro h
    rcases mem_scheduleChanges_iff.mp h with ⟨⟨id, wanted⟩, hwanted, left, hchange⟩ |
      ⟨⟨id, actual⟩, hactual, outside, hchange⟩
    · obtain rfl := (desiredChange_spec hchange).1
      rw [retainedEq] at left
      rcases progress.each change.scheduleId with same | ⟨other, hother, key, made⟩
      · rw [desiredChange_congr same] at hchange
        exact ⟨mem_scheduleChanges_iff.mpr (.inl ⟨_, hwanted, left, hchange⟩), same⟩
      · have found := lookup_of_mem wellScoped.nodup hwanted
        rw [Made, key] at made
        have noneAfter {other : DesiredSchedule} (h : desired.lookup change.scheduleId = some other)
            (hlater : later.lookup change.scheduleId = some other.observed) : False := by
          cases found.symm.trans h
          rw [desiredChange_made hlater] at hchange
          cases hchange
        rcases mem_scheduleChanges_iff.mp hother with ⟨entry, -, -, hentry⟩ |
          ⟨entry, -, outside, hentry⟩
        · have kind := (desiredChange_spec hentry).2
          split at made
          · obtain ⟨_, hdesired, hlater⟩ := made
            exact (noneAfter hdesired hlater).elim
          · obtain ⟨_, hdesired, hlater⟩ := made
            exact (noneAfter hdesired hlater).elim
          · next delete => exact absurd delete kind
          · exact made.elim
        · rw [outside _ hwanted (key.symm.trans (orphanChange_spec hentry).1)] at left
          cases left
    · obtain rfl := (orphanChange_spec hchange).1
      have outsideBefore : ∀ wanted ∈ desired, wanted.1 = change.scheduleId →
          retained observed decision wanted.2 = true := by
        intro wanted hwanted key
        rw [← retainedEq]
        exact outside wanted hwanted key
      have found := lookup_of_mem progress.nodupLater hactual
      rcases progress.each change.scheduleId with same | ⟨other, hother, key, made⟩
      · have before := mem_lookup (same.symm.trans found)
        rw [orphanChange_later wellScoped clean progress before] at hchange
        exact ⟨mem_scheduleChanges_iff.mpr (.inr ⟨_, before, outsideBefore, hchange⟩), same⟩
      · rcases mem_scheduleChanges_iff.mp hother with ⟨entry, hentry, left, hother'⟩ |
          ⟨entry, -, -, hother'⟩
        · rw [outsideBefore entry hentry ((desiredChange_spec hother').1.symm.trans key)] at left
          cases left
        · rw [Made, key, found] at made
          rcases (orphanChange_spec hother').2 with kind | kind <;> simp [kind] at made
  · rintro ⟨h, same⟩
    rcases mem_scheduleChanges_iff.mp h with ⟨⟨id, wanted⟩, hwanted, left, hchange⟩ |
      ⟨⟨id, actual⟩, hactual, outside, hchange⟩
    · obtain rfl := (desiredChange_spec hchange).1
      rw [← retainedEq] at left
      rw [← desiredChange_congr same] at hchange
      exact mem_scheduleChanges_iff.mpr (.inl ⟨_, hwanted, left, hchange⟩)
    · obtain rfl := (orphanChange_spec hchange).1
      have after := mem_lookup (same.trans (lookup_of_mem progress.nodup hactual))
      rw [← orphanChange_later wellScoped clean progress hactual] at hchange
      refine mem_scheduleChanges_iff.mpr (.inr ⟨_, after, ?_, hchange⟩)
      intro wanted hwanted key
      rw [retainedEq]
      exact outside wanted hwanted key

end Next

end Reconciliation

end Justflow
