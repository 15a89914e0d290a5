import Mathlib.Data.Finset.Prod
import Mathlib.Data.List.Basic
import Mathlib.Data.List.Nodup
import Mathlib.Tactic.Ring
import Justflow.Library.Programs

/-!
# Authored schedules

A schedule fires by an interval, by cron expressions, or by a calendar.  A declaration is validated
where it is written: the values of a calendar field are within the bounds of the field and no two
ranges share one, and a cron expression has five numeric fields.
-/

namespace Justflow

def maxCronExpressions : Nat := 10
def maxCronExpressionLength : Nat := 512
def maxCronListItems : Nat := 64
def maxCalendarRanges : Nat := 10
def minScheduleYear : Int := 2000
def maxScheduleYear : Int := 2100
def maxIntervalSeconds : Int := 31536000
def maxBackfillWindowSeconds : Int := 31536000
def maxBackfillActions : Int := 10000

/-! ## Calendars -/

/-- `range(start, stop, step)`, for a positive step. -/
def integerRange (start stop step : Int) : List Int :=
  (List.range ((stop - start + step - 1) / step).toNat).map fun i : Nat => start + step * (i : Int)

structure CalendarRange where
  start : Int
  stop : Option Int := none
  step : Int := 1
  positive : 1 ≤ step := by decide
  ordered : ∀ last, stop = some last → start ≤ last := by simp
  stepped : stop = none → step = 1 := by simp

namespace CalendarRange

/-- The end of the range, which is its start if it has none. -/
def last (self : CalendarRange) : Int :=
  self.stop.getD self.start

def values (self : CalendarRange) : List Int :=
  integerRange self.start (self.last + 1) self.step

theorem start_le_last (self : CalendarRange) : self.start ≤ self.last := by
  rw [last]
  cases h : self.stop with
  | none => exact Int.le_refl _
  | some last => exact self.ordered last h

theorem nodup_values (self : CalendarRange) : self.values.Nodup := by
  refine List.Nodup.map_on ?_ List.nodup_range
  intro i _ j _ same
  have scaled : self.step * i = self.step * j := by omega
  have positive := self.positive
  exact_mod_cast Int.eq_of_mul_eq_mul_left (by omega) scaled

theorem length_values (self : CalendarRange) :
    (self.values.length : Int) = (self.last - self.start) / self.step + 1 := by
  have positive := self.positive
  have ordered := self.start_le_last
  have count : (self.last + 1 - self.start + self.step - 1) / self.step =
      (self.last - self.start) / self.step + 1 := by
    have shift : self.last + 1 - self.start + self.step - 1 =
        self.last - self.start + self.step * 1 := by omega
    rw [shift, Int.add_mul_ediv_left _ _ (by omega)]
  have nonneg : 0 ≤ (self.last - self.start) / self.step :=
    Int.ediv_nonneg (by omega) (by omega)
  rw [values, integerRange, List.length_map, List.length_range, count]
  omega

end CalendarRange

/-- `_calendar_value_count`. -/
def calendarValueCount (ranges : List CalendarRange) : Int :=
  (ranges.map fun value => (value.last - value.start) / value.step + 1).sum

/-- The check of one field in `validate_field_bounds`, with the values seen before. -/
def validateRanges (fieldName : String) (minimum maximum : Int) :
    List CalendarRange → List Int → Except String Unit
  | [], _ => .ok ()
  | valueRange :: rest, seen =>
      if valueRange.start < minimum ∨ maximum < valueRange.last then
        .error s!"calendar {fieldName} ranges must be within {minimum}..{maximum}"
      else if valueRange.values.any seen.contains then
        .error s!"calendar {fieldName} ranges cannot overlap"
      else validateRanges fieldName minimum maximum rest (seen ++ valueRange.values)

/-- The values that the ranges of a field describe. -/
def calendarValues (ranges : List CalendarRange) : List Int :=
  ranges.flatMap CalendarRange.values

theorem length_calendarValues (ranges : List CalendarRange) :
    ((calendarValues ranges).length : Int) = calendarValueCount ranges := by
  induction ranges with
  | nil => rfl
  | cons value rest ih =>
      rw [calendarValues, List.flatMap_cons, List.length_append, calendarValueCount, List.map_cons,
        List.sum_cons, ← value.length_values]
      rw [calendarValues, calendarValueCount] at ih
      push_cast
      omega

/-- Ranges that pass their check describe no value twice. -/
theorem nodup_of_validateRanges {fieldName : String} {minimum maximum : Int}
    {ranges : List CalendarRange} {seen : List Int} (distinct : seen.Nodup)
    (valid : validateRanges fieldName minimum maximum ranges seen = .ok ()) :
    (seen ++ calendarValues ranges).Nodup := by
  induction ranges generalizing seen with
  | nil => simpa [calendarValues] using distinct
  | cons value rest ih =>
      rw [validateRanges] at valid
      split at valid
      · cases valid
      · split at valid
        · cases valid
        · next apart =>
            have disjoint : seen.Disjoint value.values := by
              intro x hseen hvalue
              exact apart (List.any_eq_true.mpr ⟨x, hvalue, by simpa using hseen⟩)
            have together := ih (distinct.append value.nodup_values disjoint) valid
            rwa [calendarValues, List.flatMap_cons, ← List.append_assoc]

/-- The fields of a calendar, with the defaults of the declaration. -/
structure CalendarFields where
  second : List CalendarRange := [{ start := 0 }]
  minute : List CalendarRange := [{ start := 0 }]
  hour : List CalendarRange := [{ start := 0 }]
  dayOfMonth : List CalendarRange := [{ start := 1, stop := some 31 }]
  month : List CalendarRange := [{ start := 1, stop := some 12 }]
  year : List CalendarRange := []
  dayOfWeek : List CalendarRange := [{ start := 0, stop := some 6 }]

/-- `validate_field_bounds`. -/
def CalendarFields.validateFieldBounds (self : CalendarFields) : Except String Unit := do
  validateRanges "second" 0 59 self.second []
  validateRanges "minute" 0 59 self.minute []
  validateRanges "hour" 0 23 self.hour []
  validateRanges "day_of_month" 1 31 self.dayOfMonth []
  validateRanges "month" 1 12 self.month []
  validateRanges "year" minScheduleYear maxScheduleYear self.year []
  validateRanges "day_of_week" 0 6 self.dayOfWeek []

structure CalendarScheduleSpec extends CalendarFields where
  counted : ∀ ranges ∈ [second, minute, hour, dayOfMonth, month, dayOfWeek],
    1 ≤ ranges.length ∧ ranges.length ≤ maxCalendarRanges
  years : year.length ≤ maxCalendarRanges
  validated : toCalendarFields.validateFieldBounds = .ok ()

def CalendarScheduleSpec.maximumDailyActions (self : CalendarScheduleSpec) : Int :=
  calendarValueCount self.second * calendarValueCount self.minute * calendarValueCount self.hour

/-- The times of day that a calendar describes. -/
def CalendarScheduleSpec.timesOfDay (self : CalendarScheduleSpec) : Finset (Int × Int × Int) :=
  (calendarValues self.hour).toFinset ×ˢ (calendarValues self.minute).toFinset ×ˢ
    (calendarValues self.second).toFinset

theorem card_calendarValues {fieldName : String} {minimum maximum : Int}
    {ranges : List CalendarRange}
    (valid : validateRanges fieldName minimum maximum ranges [] = .ok ()) :
    ((calendarValues ranges).toFinset.card : Int) = calendarValueCount ranges := by
  have distinct := nodup_of_validateRanges List.nodup_nil valid
  rw [List.nil_append] at distinct
  rw [List.toFinset_card_of_nodup distinct, length_calendarValues]

/-- The bound on the actions of a day is the number of the times of day. -/
theorem CalendarScheduleSpec.maximumDailyActions_eq (self : CalendarScheduleSpec) :
    self.maximumDailyActions = self.timesOfDay.card := by
  obtain ⟨_, seconds, rest⟩ := Program.exists_of_bind_eq_ok self.validated
  obtain ⟨_, minutes, rest⟩ := Program.exists_of_bind_eq_ok rest
  obtain ⟨_, hours, _⟩ := Program.exists_of_bind_eq_ok rest
  rw [timesOfDay, Finset.card_product, Finset.card_product]
  push_cast
  rw [card_calendarValues seconds, card_calendarValues minutes, card_calendarValues hours,
    maximumDailyActions]
  ring

/-! ## Intervals -/

structure IntervalScheduleSpec where
  everySeconds : Int
  offsetSeconds : Int := 0
  every : 1 ≤ everySeconds ∧ everySeconds ≤ maxIntervalSeconds
  offset : 0 ≤ offsetSeconds ∧ offsetSeconds < everySeconds

/-! ## Cron expressions -/

/-- The parts that `CRON_ATOM_PATTERN` finds; no start is the wildcard. -/
structure CronAtom where
  start : Option Nat
  stop : Option Nat
  step : Option Nat

/-- A number at the front of a text, and what follows it. -/
def leadingNumber (text : List Char) : Option (Nat × List Char) :=
  let digits := text.takeWhile Char.isDigit
  if digits.isEmpty then none
  else some (digits.foldl (fun value c => value * 10 + (c.toNat - '0'.toNat)) 0,
    text.dropWhile Char.isDigit)

/-- `(?:-(?P<end>[0-9]+))?`, or the same for a step. -/
def optionalNumber (mark : Char) (text : List Char) : Option (Option Nat × List Char) :=
  match text with
  | [] => some (none, [])
  | c :: rest =>
      if c = mark then (leadingNumber rest).map fun found => (some found.1, found.2)
      else some (none, c :: rest)

/-- `CRON_ATOM_PATTERN.fullmatch`. -/
def cronAtom (atom : List Char) : Option CronAtom := do
  let (start, rest) ← match atom with
    | '*' :: rest => some (none, rest)
    | _ => (leadingNumber atom).map fun found => (some found.1, found.2)
  let (stop, rest) ← optionalNumber '-' rest
  let (step, rest) ← optionalNumber '/' rest
  if rest.isEmpty then some ⟨start, stop, step⟩ else none

structure CronField where
  name : String
  minimum : Nat
  maximum : Nat

def cronFieldBounds : List CronField :=
  [⟨"minute", 0, 59⟩, ⟨"hour", 0, 23⟩, ⟨"day of month", 1, 31⟩, ⟨"month", 1, 12⟩,
    ⟨"day of week", 0, 6⟩]

def validateCronAtom (field : CronField) (atom : List Char) : Except String Unit := do
  match cronAtom atom with
  | none => throw s!"cron {field.name} contains unsupported syntax"
  | some found =>
      match found.start with
      | none =>
          if found.stop.isSome then throw s!"cron {field.name} wildcard cannot start a range"
      | some start =>
          let last := found.stop.getD start
          if start < field.minimum ∨ field.maximum < last ∨ last < start then
            throw (s!"cron {field.name} values must be ordered within " ++
              s!"{field.minimum}..{field.maximum}")
      match found.step with
      | none => pure ()
      | some step =>
          if step < 1 ∨ field.maximum - field.minimum + 1 < step then
            throw s!"cron {field.name} step is outside its supported bound"

/-- `_validate_cron_field`. -/
def validateCronField (field : CronField) (value : List Char) : Except String Unit := do
  let atoms := value.splitOn ','
  if maxCronListItems < atoms.length then throw s!"cron {field.name} has too many list items"
  atoms.forM (validateCronAtom field)

/-- The characters at which `str.split` splits and that `str.strip` removes. -/
def isSpace (c : Char) : Bool :=
  [0x20, 0x85, 0xA0, 0x1680, 0x2028, 0x2029, 0x202F, 0x205F, 0x3000].contains c.toNat ||
    (0x09 ≤ c.toNat && c.toNat ≤ 0x0D) || (0x1C ≤ c.toNat && c.toNat ≤ 0x1F) ||
    (0x2000 ≤ c.toNat && c.toNat ≤ 0x200A)

/-- `expression.split()`. -/
def words (expression : String) : List (List Char) :=
  (expression.toList.splitOnP isSpace).filter fun word => !word.isEmpty

/-- `_validate_cron_expression`. -/
def validateCronFields (expression : String) : Except String Unit := do
  let fields := words expression
  if fields.length ≠ cronFieldBounds.length then
    throw "cron expressions must contain exactly five numeric fields"
  (fields.zip cronFieldBounds).forM fun entry => validateCronField entry.2 entry.1
  if fields.getD 2 [] ≠ ['*'] ∧ fields.getD 4 [] ≠ ['*'] then
    throw "cron day-of-month and day-of-week cannot both be constrained"

/-- What `validate_expressions` asks of each expression. -/
def validateCronExpression (expression : String) : Except String Unit := do
  if expression = "" ∨ maxCronExpressionLength < expression.utf8ByteSize then
    throw "cron expressions must be non-empty and byte-bounded"
  if (expression.toList.head?.any isSpace) || (expression.toList.getLast?.any isSpace) then
    throw "cron expressions cannot contain surrounding whitespace"
  if ["TZ=", "CRON_TZ="].any fun mark => mark.toList.isPrefixOf expression.toList then
    throw "cron timezone must use the schedule timezone field"
  validateCronFields expression

structure CronScheduleSpec where
  expressions : List String
  counted : 1 ≤ expressions.length ∧ expressions.length ≤ maxCronExpressions
  distinct : expressions.Nodup
  validated : ∀ expression ∈ expressions, validateCronExpression expression = .ok ()

/-! ## Declarations -/

inductive ScheduleSpec where
  | cron (spec : CronScheduleSpec)
  | interval (spec : IntervalScheduleSpec)
  | calendar (spec : CalendarScheduleSpec)

structure BackfillPolicy where
  enabled : Bool := false
  maxWindowSeconds : Int := 86400
  maxActions : Int := 1000
  window : 1 ≤ maxWindowSeconds ∧ maxWindowSeconds ≤ maxBackfillWindowSeconds := by decide
  actions : 1 ≤ maxActions ∧ maxActions ≤ maxBackfillActions := by decide

/-- `ScheduleTriggerDeclaration`, as far as a backfill depends on it. -/
structure TimedScheduleDeclaration where
  spec : ScheduleSpec
  backfill : BackfillPolicy

end Justflow
