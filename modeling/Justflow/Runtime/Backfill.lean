import Mathlib.Algebra.Order.BigOperators.Group.List
import Mathlib.Data.Finset.Card
import Mathlib.Data.Finset.Image
import Mathlib.Data.Int.ModEq
import Justflow.Config.Schedules
import Justflow.Library.Doubles

/-!
# Backfills

A backfill runs the actions that a schedule had in a window of the past.  It is admitted if a bound
on their number is within the policy of the schedule.  The bound is computed from the length of the
window, in floating point, and does not look at the calendar; here it is compared with the instants
at which the schedule fires.
-/

namespace Justflow

/-! ## The bound -/

def microsPerSecond : Int := 1000000
def secondsPerDay : Int := 86400

/-- An instant of `datetime`, in microseconds since 1970 in UTC, of the years 1 to 9999. -/
structure UtcDatetime where
  micros : Int
  early : -62135596800000000 ≤ micros
  late : micros < 253402300800000000

/-- `(end_at - start_at).total_seconds()`. -/
def durationSeconds (startAt endAt : UtcDatetime) : ℚ :=
  Doubles.round ((endAt.micros - startAt.micros : Int) / (microsPerSecond : ℚ))

/-- `math.ceil(duration_seconds / seconds)`. -/
def ceilQuotient (duration : ℚ) (seconds : Int) : Int :=
  ⌈Doubles.round (duration / (seconds : ℚ))⌉

/-- `_maximum_backfill_actions`. -/
def maximumBackfillActions (declaration : TimedScheduleDeclaration) (duration : ℚ) : Int :=
  match declaration.spec with
  | .interval spec => ceilQuotient duration spec.everySeconds + 1
  | .cron spec => (ceilQuotient duration 60 + 1) * spec.expressions.length
  | .calendar spec => (ceilQuotient duration secondsPerDay + 1) * spec.maximumDailyActions

/-- `_validate_backfill`, with the message of an invalid operation.  A bound without a timezone is
no instant. -/
def validateBackfill (declaration : TimedScheduleDeclaration)
    (startAt endAt : Option UtcDatetime) : Except String Unit :=
  if !declaration.backfill.enabled then .error "Backfill is disabled for this schedule"
  else
    match startAt, endAt with
    | some startAt, some endAt =>
        let duration := durationSeconds startAt endAt
        if duration ≤ 0 then .error "Backfill end must be after its start"
        else if duration > declaration.backfill.maxWindowSeconds then
          .error "Backfill exceeds the configured time window"
        else if maximumBackfillActions declaration duration > declaration.backfill.maxActions then
          .error "Backfill may exceed the configured action bound"
        else .ok ()
    | _, _ => .error "Backfill bounds must include explicit timezone offsets"

/-! ## The instants at which a schedule fires -/

/-- Year, month and day of the day that is a number of days after 1970-01-01. -/
def civilOfDays (days : Int) : Int × Int × Int :=
  let era := (days + 719468) / 146097
  let dayOfEra := (days + 719468) % 146097
  let yearOfEra :=
    (dayOfEra - dayOfEra / 1460 + dayOfEra / 36524 - dayOfEra / 146096) / 365
  let dayOfYear := dayOfEra - (365 * yearOfEra + yearOfEra / 4 - yearOfEra / 100)
  -- The months are counted from March, so that the leap day is the last day of the year.
  let shifted := (5 * dayOfYear + 2) / 153
  let month := if shifted < 10 then shifted + 3 else shifted - 9
  (yearOfEra + era * 400 + (if month ≤ 2 then 1 else 0), month,
    dayOfYear - (153 * shifted + 2) / 5 + 1)

example : civilOfDays 20668 = (2026, 8, 3) := by decide

/-- The time of day of a second. -/
def timeOfDay (local_ : Int) : Int × Int × Int :=
  (local_ % 86400 / 3600, local_ % 3600 / 60, local_ % 60)

/-- The days from Sunday on; the first of January 1970 was a Thursday. -/
def dayOfWeek (local_ : Int) : Int :=
  (local_ / 86400 + 4) % 7

/-- A value of a cron field matches an atom.  A step without an end runs to the maximum. -/
def CronAtom.matches_ (field : CronField) (atom : CronAtom) (value : Int) : Bool :=
  let first := atom.start.getD field.minimum
  let last := atom.stop.getD
    (if atom.start.isNone || atom.step.isSome then field.maximum else first)
  decide ((first : Int) ≤ value ∧ value ≤ last ∧ (value - first) % (atom.step.getD 1 : Nat) = 0)

def cronFieldMatches (field : CronField) (text : List Char) (value : Int) : Bool :=
  (text.splitOn ',').any fun atom => (cronAtom atom).any fun found => found.matches_ field value

/-- The expression fires at a second of local time. -/
def cronFires (expression : String) (local_ : Int) : Bool :=
  let time := timeOfDay local_
  let date := civilOfDays (local_ / 86400)
  let values := [time.2.1, time.1, date.2.2, date.2.1, dayOfWeek local_]
  time.2.2 = 0 && ((words expression).zip (cronFieldBounds.zip values)).all fun entry =>
    cronFieldMatches entry.2.1 entry.1 entry.2.2

/-- The interval fires at a second of UTC. -/
def IntervalScheduleSpec.fires (self : IntervalScheduleSpec) (second : Int) : Bool :=
  (second - self.offsetSeconds) % self.everySeconds = 0

/-- The calendar fires at a second of local time. -/
def CalendarScheduleSpec.fires (self : CalendarScheduleSpec) (local_ : Int) : Bool :=
  let date := civilOfDays (local_ / 86400)
  timeOfDay local_ ∈ self.timesOfDay && (calendarValues self.dayOfMonth).contains date.2.2 &&
    (calendarValues self.month).contains date.2.1 &&
    (self.year.isEmpty || (calendarValues self.year).contains date.1) &&
    (calendarValues self.dayOfWeek).contains (dayOfWeek local_)

/-- The first whole second that is not before an instant. -/
def UtcDatetime.ceilSecond (self : UtcDatetime) : Int :=
  -(-self.micros / microsPerSecond)

/-- The last whole second that is not after an instant. -/
def UtcDatetime.floorSecond (self : UtcDatetime) : Int :=
  self.micros / microsPerSecond

/-- The whole seconds of the closed window. -/
def windowSeconds (startAt endAt : UtcDatetime) : Finset Int :=
  (Finset.range (endAt.floorSecond + 1 - startAt.ceilSecond).toNat).image
    fun i : Nat => startAt.ceilSecond + (i : Int)

/-- The number of instants in the window at which a schedule fires, in a timezone with a fixed
offset in seconds.  Those of a cron schedule are counted once for each expression. -/
def ScheduleSpec.firings (utcOffset : Int) (startAt endAt : UtcDatetime) : ScheduleSpec → Nat
  | .interval spec => ((windowSeconds startAt endAt).filter fun second => spec.fires second).card
  | .cron spec => (spec.expressions.map fun expression => ((windowSeconds startAt endAt).filter
      fun second => cronFires expression (second + utcOffset)).card).sum
  | .calendar spec => ((windowSeconds startAt endAt).filter fun second =>
      spec.fires (second + utcOffset)).card

/-! ## Windows of whole seconds -/

/-- The whole seconds between the first and the last whole second of the window. -/
def wholeSeconds (startAt endAt : UtcDatetime) : Nat :=
  (endAt.floorSecond - startAt.ceilSecond).toNat

section Window

variable {startAt endAt : UtcDatetime}

theorem mem_windowSeconds {second : Int} : second ∈ windowSeconds startAt endAt ↔
    startAt.ceilSecond ≤ second ∧ second ≤ endAt.floorSecond := by
  simp only [windowSeconds, Finset.mem_image, Finset.mem_range]
  constructor
  · rintro ⟨i, hi, rfl⟩
    omega
  · rintro ⟨after, before⟩
    exact ⟨(second - startAt.ceilSecond).toNat, by omega, by omega⟩

/-- Seconds that are a period apart at least. -/
theorem card_periodic_le {fires : Int → Bool} {period : Nat} (positive : 0 < period)
    {residue : Int} (periodic : ∀ second, fires second = true → second % period = residue) :
    ((windowSeconds startAt endAt).filter fun second => fires second).card ≤
      wholeSeconds startAt endAt / period + 1 := by
  have nonneg : (0 : Int) < period := by exact_mod_cast positive
  rw [← Finset.card_range (wholeSeconds startAt endAt / period + 1)]
  refine Finset.card_le_card_of_injOn
    (fun second => ((second - startAt.ceilSecond) / period).toNat) ?_ ?_
  · intro second mem
    obtain ⟨window, _⟩ := Finset.mem_filter.mp mem
    obtain ⟨after, before⟩ := mem_windowSeconds.mp window
    simp only [Finset.coe_range, Set.mem_Iio, Nat.lt_succ_iff]
    have apart : (second - startAt.ceilSecond) / period ≤
        ((wholeSeconds startAt endAt / period : Nat) : Int) := by
      push_cast
      exact Int.ediv_le_ediv nonneg (by rw [wholeSeconds]; omega)
    have low : (0 : Int) ≤ (wholeSeconds startAt endAt : Int) / period :=
      Int.ediv_nonneg (Int.natCast_nonneg _) nonneg.le
    omega
  · intro first hfirst second hsecond same
    obtain ⟨window, fired⟩ := Finset.mem_filter.mp hfirst
    obtain ⟨window', fired'⟩ := Finset.mem_filter.mp hsecond
    have after := (mem_windowSeconds.mp window).1
    have after' := (mem_windowSeconds.mp window').1
    have rest := (periodic first fired).trans (periodic second fired').symm
    have quotient : (first - startAt.ceilSecond) / period =
        (second - startAt.ceilSecond) / period := by
      have low : 0 ≤ (first - startAt.ceilSecond) / (period : Int) :=
        Int.ediv_nonneg (by omega) nonneg.le
      have low' : 0 ≤ (second - startAt.ceilSecond) / (period : Int) :=
        Int.ediv_nonneg (by omega) nonneg.le
      simp only at same
      omega
    have remainder : (first - startAt.ceilSecond) % period =
        (second - startAt.ceilSecond) % period := by
      rw [Int.sub_emod, rest, ← Int.sub_emod]
    have whole := Int.mul_ediv_add_emod (first - startAt.ceilSecond) period
    rw [quotient, remainder, Int.mul_ediv_add_emod] at whole
    omega

/-- Seconds whose local time of day is one of a number of times. -/
theorem card_timed_le {fires : Int → Bool} {times : Finset (Int × Int × Int)} (utcOffset : Int)
    (timed : ∀ second, fires second = true → timeOfDay (second + utcOffset) ∈ times) :
    ((windowSeconds startAt endAt).filter fun second => fires second).card ≤
      ((wholeSeconds startAt endAt + 86399) / 86400 + 1) * times.card := by
  rw [← Finset.card_range ((wholeSeconds startAt endAt + 86399) / 86400 + 1),
    ← Finset.card_product]
  refine Finset.card_le_card_of_injOn
    (fun second => (((second + utcOffset) / 86400 -
      (startAt.ceilSecond + utcOffset) / 86400).toNat, timeOfDay (second + utcOffset))) ?_ ?_
  · intro second mem
    obtain ⟨window, fired⟩ := Finset.mem_filter.mp mem
    obtain ⟨after, before⟩ := mem_windowSeconds.mp window
    refine Finset.mem_coe.mpr (Finset.mem_product.mpr ⟨Finset.mem_range.mpr ?_, timed second fired⟩)
    dsimp only
    rw [wholeSeconds]
    omega
  · intro first hfirst second hsecond same
    have after := (mem_windowSeconds.mp (Finset.mem_filter.mp hfirst).1).1
    have after' := (mem_windowSeconds.mp (Finset.mem_filter.mp hsecond).1).1
    simp only [timeOfDay, Prod.mk.injEq] at same
    omega

/-! ## The length of a window -/

theorem wholeSeconds_mul_le (ordered : startAt.micros < endAt.micros) :
    (wholeSeconds startAt endAt : Int) * 1000000 ≤ endAt.micros - startAt.micros := by
  rw [wholeSeconds, UtcDatetime.ceilSecond, UtcDatetime.floorSecond, microsPerSecond]
  omega

theorem exact_pos (ordered : startAt.micros < endAt.micros) :
    0 < ((endAt.micros - startAt.micros : Int) : ℚ) / (microsPerSecond : ℚ) := by
  have positive : (0 : ℚ) < (endAt.micros - startAt.micros : Int) := by
    exact_mod_cast Int.sub_pos.mpr ordered
  exact div_pos positive (by norm_num [microsPerSecond])

theorem duration_pos (ordered : startAt.micros < endAt.micros) :
    0 < durationSeconds startAt endAt :=
  Doubles.round_pos (exact_pos ordered)

/-- The duration is not below the whole seconds of the window. -/
theorem wholeSeconds_le_duration (ordered : startAt.micros < endAt.micros) :
    (wholeSeconds startAt endAt : ℚ) ≤ durationSeconds startAt endAt := by
  have whole := wholeSeconds_mul_le ordered
  have early := startAt.early
  have late := endAt.late
  refine Doubles.natCast_le_round (exact_pos ordered) (by omega) ?_
  rw [le_div_iff₀ (by norm_num [microsPerSecond])]
  have cast : ((wholeSeconds startAt endAt * 1000000 : Int) : ℚ) ≤
      (endAt.micros - startAt.micros : Int) := by exact_mod_cast whole
  simpa [microsPerSecond] using cast

theorem duration_lt (ordered : startAt.micros < endAt.micros) :
    durationSeconds startAt endAt < 1000000000000 := by
  have positive := exact_pos ordered
  have above := Doubles.round_le_add_ulp positive
  have unit := Doubles.ulp_le_self positive
  have early := startAt.early
  have late := endAt.late
  have length : ((endAt.micros - startAt.micros : Int) : ℚ) < 400000000000000000 := by
    have : endAt.micros - startAt.micros < 400000000000000000 := by omega
    exact_mod_cast this
  have exact_ : ((endAt.micros - startAt.micros : Int) : ℚ) / (microsPerSecond : ℚ) <
      400000000000 := by
    rw [div_lt_iff₀ (by norm_num [microsPerSecond])]
    norm_num [microsPerSecond]
    exact_mod_cast length
  rw [durationSeconds]
  linarith

end Window

/-! ## Rounded quotients -/

section Quotient

variable {duration : ℚ}

theorem le_ceilQuotient {count seconds : Nat} (positive : 0 < duration) (some_ : 0 < seconds)
    (small : count ≤ 2 ^ 53) (h : (count * seconds : ℚ) ≤ duration) :
    (count : Int) ≤ ceilQuotient duration seconds := by
  have divisor : (0 : ℚ) < ((seconds : Int) : ℚ) := by exact_mod_cast some_
  have below : (count : ℚ) ≤ duration / ((seconds : Int) : ℚ) := by
    rw [le_div_iff₀ divisor]
    exact_mod_cast h
  have rounded := Doubles.natCast_le_round (div_pos positive divisor) small below
  have ceiled : (count : ℚ) ≤ (ceilQuotient duration seconds : ℚ) :=
    rounded.trans (Int.le_ceil _)
  exact_mod_cast ceiled

/-- A day that is begun counts, also after rounding. -/
theorem days_le_ceilQuotient {seconds : Nat} (positive : 0 < duration)
    (short : duration < 1000000000000) (h : (seconds : ℚ) ≤ duration) :
    (((seconds + 86399) / 86400 : Nat) : Int) ≤ ceilQuotient duration secondsPerDay := by
  have quotient : 0 < duration / ((secondsPerDay : Int) : ℚ) :=
    div_pos positive (by norm_num [secondsPerDay])
  cases days : (seconds + 86399) / 86400 with
  | zero =>
      have := Doubles.round_pos quotient
      exact Int.ceil_nonneg this.le
  | succ k =>
      have begun : k * 86400 + 1 ≤ seconds := by omega
      have unit : Doubles.ulp (duration / ((secondsPerDay : Int) : ℚ)) ≤ 2 ^ ((36 : Int) - 53) := by
        apply Doubles.ulp_le_of_lt quotient
        rw [div_lt_iff₀ (by norm_num [secondsPerDay])]
        norm_num [secondsPerDay]
        linarith
      have below := Doubles.sub_ulp_lt_round quotient
      have part : (k : ℚ) + 1 / 86400 ≤ duration / ((secondsPerDay : Int) : ℚ) := by
        rw [le_div_iff₀ (by norm_num [secondsPerDay])]
        have cast : ((k * 86400 + 1 : Nat) : ℚ) ≤ duration := le_trans (by exact_mod_cast begun) h
        push_cast at cast
        norm_num [secondsPerDay]
        linarith
      have tiny : (2 : ℚ) ^ ((36 : Int) - 53) ≤ 1 / 86400 := by norm_num
      have beyond : (k : ℚ) < Doubles.round (duration / ((secondsPerDay : Int) : ℚ)) := by linarith
      have ceiled : (k : Int) < ceilQuotient duration secondsPerDay :=
        Int.lt_ceil.mpr (by exact_mod_cast beyond)
      push_cast
      omega

end Quotient

/-! ## The bound holds -/

section Bound

variable {startAt endAt : UtcDatetime}

theorem periodic_le_bound (ordered : startAt.micros < endAt.micros) {fires : Int → Bool}
    {period : Nat} (positive : 0 < period) {residue : Int}
    (periodic : ∀ second, fires second = true → second % period = residue) :
    (((windowSeconds startAt endAt).filter fun second => fires second).card : Int) ≤
      ceilQuotient (durationSeconds startAt endAt) period + 1 := by
  have count := @card_periodic_le startAt endAt _ _ positive _ periodic
  have whole := wholeSeconds_mul_le ordered
  have early := startAt.early
  have late := endAt.late
  have multiple := Nat.div_mul_le_self (wholeSeconds startAt endAt) period
  have small := Nat.div_le_self (wholeSeconds startAt endAt) period
  have below : ((wholeSeconds startAt endAt / period : Nat) * period : ℚ) ≤
      durationSeconds startAt endAt :=
    le_trans (by exact_mod_cast multiple) (wholeSeconds_le_duration ordered)
  have bounded := le_ceilQuotient (duration_pos ordered) positive (by omega) below
  omega

theorem IntervalScheduleSpec.firings_le (self : IntervalScheduleSpec)
    (ordered : startAt.micros < endAt.micros) :
    (((windowSeconds startAt endAt).filter fun second => self.fires second).card : Int) ≤
      ceilQuotient (durationSeconds startAt endAt) self.everySeconds + 1 := by
  obtain ⟨period, hperiod⟩ := Int.eq_ofNat_of_zero_le (show 0 ≤ self.everySeconds by
    have := self.every.1
    omega)
  have positive : 0 < period := by
    have := self.every.1
    omega
  rw [hperiod]
  refine @periodic_le_bound _ _ ordered _ _ positive (self.offsetSeconds % period) ?_
  intro second fired
  rw [fires, hperiod, decide_eq_true_eq] at fired
  exact Int.emod_eq_emod_iff_emod_sub_eq_zero.mpr fired

theorem cronFires_le (expression : String) (utcOffset : Int)
    (ordered : startAt.micros < endAt.micros) :
    (((windowSeconds startAt endAt).filter
      fun second => cronFires expression (second + utcOffset)).card : Int) ≤
        ceilQuotient (durationSeconds startAt endAt) 60 + 1 := by
  refine @periodic_le_bound _ _ ordered _ 60 (by decide) (-utcOffset % 60) ?_
  intro second fired
  simp only [cronFires, Bool.and_eq_true, timeOfDay] at fired
  have whole : (second + utcOffset) % 60 = 0 := of_decide_eq_true fired.1
  push_cast
  omega

theorem CronScheduleSpec.firings_le (self : CronScheduleSpec) (utcOffset : Int)
    (ordered : startAt.micros < endAt.micros) :
    (((self.expressions.map fun expression => ((windowSeconds startAt endAt).filter
      fun second => cronFires expression (second + utcOffset)).card).sum : Nat) : Int) ≤
        (ceilQuotient (durationSeconds startAt endAt) 60 + 1) * self.expressions.length := by
  induction self.expressions with
  | nil => simp
  | cons expression rest ih =>
      have first := cronFires_le expression utcOffset ordered
      rw [List.map_cons, List.sum_cons, List.length_cons]
      push_cast at ih ⊢
      rw [mul_add, mul_one]
      omega

theorem CalendarScheduleSpec.firings_le (self : CalendarScheduleSpec) (utcOffset : Int)
    (ordered : startAt.micros < endAt.micros) :
    (((windowSeconds startAt endAt).filter
      fun second => self.fires (second + utcOffset)).card : Int) ≤
        (ceilQuotient (durationSeconds startAt endAt) secondsPerDay + 1) *
          self.maximumDailyActions := by
  have timed : ∀ second, self.fires (second + utcOffset) = true →
      timeOfDay (second + utcOffset) ∈ self.timesOfDay := by
    intro second fired
    simp only [fires, Bool.and_eq_true, decide_eq_true_eq] at fired
    exact fired.1.1.1.1
  have count := @card_timed_le startAt endAt _ _ utcOffset timed
  have days := days_le_ceilQuotient (duration_pos ordered) (duration_lt ordered)
    (wholeSeconds_le_duration ordered)
  rw [self.maximumDailyActions_eq]
  calc (((windowSeconds startAt endAt).filter
        fun second => self.fires (second + utcOffset)).card : Int)
      ≤ (((wholeSeconds startAt endAt + 86399) / 86400 + 1) * self.timesOfDay.card : Nat) := by
        exact_mod_cast count
    _ = ((((wholeSeconds startAt endAt + 86399) / 86400 : Nat) : Int) + 1) *
          self.timesOfDay.card := by push_cast; rfl
    _ ≤ _ := Int.mul_le_mul_of_nonneg_right (by omega) (Int.natCast_nonneg _)

/-- The bound is one on the actions of every schedule. -/
theorem firings_le_maximumBackfillActions (declaration : TimedScheduleDeclaration)
    (utcOffset : Int) (ordered : startAt.micros < endAt.micros) :
    (declaration.spec.firings utcOffset startAt endAt : Int) ≤
      maximumBackfillActions declaration (durationSeconds startAt endAt) := by
  rw [maximumBackfillActions]
  cases declaration.spec with
  | cron spec => exact spec.firings_le utcOffset ordered
  | interval spec => exact spec.firings_le ordered
  | calendar spec => exact spec.firings_le utcOffset ordered

theorem duration_nonpos (unordered : endAt.micros ≤ startAt.micros) :
    durationSeconds startAt endAt ≤ 0 := by
  apply Doubles.round_nonpos
  have length : ((endAt.micros - startAt.micros : Int) : ℚ) ≤ 0 := by
    exact_mod_cast Int.sub_nonpos_of_le unordered
  exact div_nonpos_of_nonpos_of_nonneg length (by norm_num [microsPerSecond])

/-- An admitted backfill is of a window that is not empty, and its bound is within the policy. -/
theorem validateBackfill_ok {declaration : TimedScheduleDeclaration}
    (valid : validateBackfill declaration (some startAt) (some endAt) = .ok ()) :
    startAt.micros < endAt.micros ∧
      maximumBackfillActions declaration (durationSeconds startAt endAt) ≤
        declaration.backfill.maxActions := by
  rw [validateBackfill] at valid
  split at valid
  · cases valid
  · simp only at valid
    split at valid
    · cases valid
    · next positive =>
        split at valid
        · cases valid
        · split at valid
          · cases valid
          · next bounded =>
              refine ⟨?_, not_lt.mp bounded⟩
              by_contra unordered
              exact positive (duration_nonpos (not_lt.mp unordered))

end Bound

/-- In a timezone of a fixed offset, a schedule fires in a window no more often than the bound says,
and an admitted backfill runs no more actions than its policy allows.  The bound for a calendar
takes the number of its times of day. -/
theorem backfill_bounded (declaration : TimedScheduleDeclaration) (utcOffset : Int)
    (startAt endAt : UtcDatetime) :
    (startAt.micros < endAt.micros →
      (declaration.spec.firings utcOffset startAt endAt : Int) ≤
        maximumBackfillActions declaration (durationSeconds startAt endAt)) ∧
    (validateBackfill declaration (some startAt) (some endAt) = .ok () →
      (declaration.spec.firings utcOffset startAt endAt : Int) ≤
        declaration.backfill.maxActions) ∧
    (∀ spec, declaration.spec = .calendar spec →
      spec.maximumDailyActions = spec.timesOfDay.card) := by
  refine ⟨firings_le_maximumBackfillActions declaration utcOffset, fun valid => ?_,
    fun spec _ => spec.maximumDailyActions_eq⟩
  obtain ⟨ordered, bounded⟩ := validateBackfill_ok valid
  exact (firings_le_maximumBackfillActions declaration utcOffset ordered).trans bounded

/-! ## Reports on workdays -/

/-- At half past six, from Monday to Friday. -/
def workdays : CalendarScheduleSpec where
  minute := [{ start := 30 }]
  hour := [{ start := 6 }]
  dayOfWeek := [{ start := 1, stop := some 5 }]
  counted := by decide
  years := by decide
  validated := rfl

def workdayReports : TimedScheduleDeclaration where
  spec := .calendar workdays
  backfill := { enabled := true }

/-- The third of August 2026. -/
def someMonday : UtcDatetime := ⟨1785715200000000, by decide, by decide⟩

def nextDay : UtcDatetime := ⟨1785801600000000, by decide, by decide⟩

theorem backfill_bounded_workdays :
    validateBackfill workdayReports (some someMonday) (some nextDay) = .ok () ∧
      (workdayReports.spec.firings 7200 someMonday nextDay : Int) ≤
        maximumBackfillActions workdayReports (durationSeconds someMonday nextDay) ∧
      (workdayReports.spec.firings 7200 someMonday nextDay : Int) ≤ 1000 := by
  have admitted : validateBackfill workdayReports (some someMonday) (some nextDay) = .ok () := by
    decide +kernel
  obtain ⟨bound, within, _⟩ := backfill_bounded workdayReports 7200 someMonday nextDay
  exact ⟨admitted, bound (by decide), within admitted⟩

end Justflow
