import Mathlib
import Ldk.Lib.Calendar

/-!
# The time of a cutover

`RtlCutoverTimeToSystemTime` turns a rule such as "the last Sunday in October at two o'clock"
into a time. It is right for every rule and every time (`cutover_is_the_instant`).

- `RtlTimeFieldsToTime` and `RtlTimeToTimeFields` are not part of this code. They are parameters,
  correct by the Gregorian calendar up to the year 30827.
- A `CSHORT` is an integer here: no sum of the routine leaves its range for the fields of a time
  and of a valid rule.
-/

namespace Ldk.Time

open Calendar

/-! ## Times -/

/-- `TIME_FIELDS` -/
structure TimeFields where
  year : Int
  month : Int
  day : Int
  hour : Int
  minute : Int
  second : Int
  milliseconds : Int
  weekday : Int
  deriving DecidableEq, Repr

/-- The units of 100 nanoseconds in a day. -/
def ticksPerDay : Int := 864000000000

namespace TimeFields

variable (f : TimeFields)

/-- The time of day, in units of 100 nanoseconds. -/
def timeOfDay : Int :=
  (((f.hour * 60 + f.minute) * 60 + f.second) * 1000 + f.milliseconds) * 10000

/-- The time since January 1st, 1601, in units of 100 nanoseconds. -/
def ticks : Int := dayNumber f.year f.month f.day * ticksPerDay + f.timeOfDay

@[mk_iff]
structure ValidTimeOfDay : Prop where
  hour_nonneg : 0 ≤ f.hour
  hour_lt : f.hour < 24
  minute_nonneg : 0 ≤ f.minute
  minute_lt : f.minute < 60
  second_nonneg : 0 ≤ f.second
  second_lt : f.second < 60
  milliseconds_nonneg : 0 ≤ f.milliseconds
  milliseconds_lt : f.milliseconds < 1000

@[mk_iff]
structure Valid : Prop where
  year_le : 1601 ≤ f.year
  date : IsDate f.year f.month f.day
  time : f.ValidTimeOfDay

end TimeFields

/-- The last year that `RtlTimeFieldsToTime` takes. -/
def lastYear : Int := 30827

/-- `RtlTimeFieldsToTime` and `RtlTimeToTimeFields` -/
structure Conversions where
  timeFieldsToTime : TimeFields → Option Int
  timeToTimeFields : Int → TimeFields

/-- The two conversions follow the calendar. A time is a `LARGE_INTEGER` that is not negative, and
its fields leave out what is less than a millisecond. -/
structure Conversions.CalendarCorrect (conv : Conversions) : Prop where
  toTime : ∀ f : TimeFields, f.Valid → f.year ≤ lastYear → conv.timeFieldsToTime f = some f.ticks
  notTime : ∀ f : TimeFields, ¬ (f.Valid ∧ f.year ≤ lastYear) → conv.timeFieldsToTime f = none
  toFields : ∀ time : Int, 0 ≤ time → time < 2 ^ 63 →
    (conv.timeToTimeFields time).Valid ∧ (conv.timeToTimeFields time).ticks ≤ time ∧
      time < (conv.timeToTimeFields time).ticks + 10000 ∧
      (conv.timeToTimeFields time).weekday =
        weekday (conv.timeToTimeFields time).year (conv.timeToTimeFields time).month
          (conv.timeToTimeFields time).day

/-! ## RtlCutoverTimeToSystemTime -/

/-- The loop over the later days of the weekday: how many to go, the working fields and
`BestWeekdayDate`. -/
def laterWeekdays (conv : Conversions) : Nat → TimeFields → Int → Int
  | 0, _, bestWeekdayDate => bestWeekdayDate
  | count + 1, working, bestWeekdayDate =>
    let working := { working with day := working.day + 7 }
    match conv.timeFieldsToTime working with
    | none => bestWeekdayDate
    | some scratch => laterWeekdays conv count working (conv.timeToTimeFields scratch).day

/-- What `RtlCutoverTimeToSystemTime` does from `try_next_year` on, for a year: the day and the
time of the cutover. -/
def cutoverInYear (conv : Conversions) (cutover : TimeFields) (year : Int) : Option (Int × Int) :=
  let working : TimeFields := { cutover with year := year, day := 1, weekday := 0 }
  match conv.timeFieldsToTime working with
  | none => none
  | some scratch =>
    let scratchWeekday := (conv.timeToTimeFields scratch).weekday
    let day :=
      if scratchWeekday > cutover.weekday then working.day + (7 - (scratchWeekday - cutover.weekday))
      else if scratchWeekday < cutover.weekday then
        working.day + (cutover.weekday - scratchWeekday)
      else working.day
    let working := { working with day := day }
    let working :=
      { working with day := laterWeekdays conv (cutover.day - 1).toNat working day }
    match conv.timeFieldsToTime working with
    | none => none
    | some scratch => some (working.day, scratch)

/-- `RtlCutoverTimeToSystemTime`: what it returns, and what it stores at `SystemTime`. -/
def cutoverTimeToSystemTime (conv : Conversions) (cutover : TimeFields) (current : Int)
    (thisYear : Bool) : Bool × Option Int :=
  let now := conv.timeToTimeFields current
  if cutover.year ≠ 0 then
    match conv.timeFieldsToTime cutover with
    | none => (false, none)
    | some time => (decide (time ≥ current), some time)
  else if cutover.day > 5 ∨ cutover.day = 0 then (false, none)
  else
    let targetYear := if !thisYear ∧ cutover.month < now.month then now.year + 1 else now.year
    let monthMatches := !thisYear ∧ cutover.month = now.month
    match cutoverInYear conv cutover targetYear with
    | none => (false, none)
    | some (day, time) =>
      if monthMatches ∧ (day < now.day ∨ day = now.day ∧ time < current) then
        -- `goto try_next_year`
        match cutoverInYear conv cutover (targetYear + 1) with
        | none => (false, none)
        | some (_, time) => (true, some time)
      else (true, some time)

/-! ## Recurring rules -/

/-- A rule for every year. -/
structure ValidRule (rule : TimeFields) : Prop where
  year : rule.year = 0
  month_pos : 1 ≤ rule.month
  month_le : rule.month ≤ 12
  weekday_nonneg : 0 ≤ rule.weekday
  weekday_lt : rule.weekday < 7
  day_pos : 1 ≤ rule.day
  day_le : rule.day ≤ 5
  time : rule.ValidTimeOfDay

/-- The instant that the rule stands for in a year. -/
def IsInstant (rule : TimeFields) (year time : Int) : Prop :=
  1601 ≤ year ∧ ∃ day, IsNthWeekday year rule.month rule.weekday rule.day day ∧
    time = { rule with year := year, day := day }.ticks

/-- The year of a time. -/
def IsYearOf (year time : Int) : Prop :=
  daysBeforeYear year * ticksPerDay ≤ time ∧ time < daysBeforeYear (year + 1) * ticksPerDay

theorem TimeFields.ValidTimeOfDay.withDate {f : TimeFields} (h : f.ValidTimeOfDay)
    (year day weekday : Int) :
    TimeFields.ValidTimeOfDay { f with year := year, day := day, weekday := weekday } :=
  ⟨h.1, h.2, h.3, h.4, h.5, h.6, h.7, h.8⟩

/-! ## The order of times -/

theorem TimeFields.ValidTimeOfDay.bounds {f : TimeFields} (h : f.ValidTimeOfDay) :
    0 ≤ f.timeOfDay ∧ f.timeOfDay + 10000 ≤ ticksPerDay := by
  obtain ⟨_, _, _, _, _, _, _, _⟩ := h
  unfold TimeFields.timeOfDay ticksPerDay
  omega

section Order

variable {f g : TimeFields}

/-- A time of a day before is earlier by a millisecond at least. -/
theorem ticks_lt_of_before (hf : f.Valid) (hg : g.Valid)
    (h : Before f.year f.month f.day g.year g.month g.day) : f.ticks + 10000 ≤ g.ticks := by
  have hday := dayNumber_lt hf.date hg.date h
  have hftime := hf.time.bounds
  have hgtime := hg.time.bounds
  unfold TimeFields.ticks
  unfold ticksPerDay at *
  omega

/-- The fields of a time have the date that the time was made of. -/
theorem date_eq_of_ticks (hf : f.Valid) (hg : g.Valid) (hle : g.ticks ≤ f.ticks)
    (hlt : f.ticks < g.ticks + 10000) :
    g.year = f.year ∧ g.month = f.month ∧ g.day = f.day := by
  rcases before_trichotomy g.year g.month g.day f.year f.month f.day with hgf | heq | hfg
  · have := ticks_lt_of_before hg hf hgf
    omega
  · exact heq
  · have := ticks_lt_of_before hf hg hfg
    omega

theorem TimeFields.Valid.ticks_bounds (hf : f.Valid) :
    0 ≤ f.ticks ∧ (f.year ≤ lastYear → f.ticks < 2 ^ 63) := by
  have hbounds := hf.date.dayNumber_bounds
  have htime := hf.time.bounds
  have hyear := hf.year_le
  unfold TimeFields.ticks
  unfold ticksPerDay at *
  constructor
  · have hfirst := daysBeforeYear_mono hyear
    have : daysBeforeYear 1601 = 0 := rfl
    omega
  · intro hlast
    have hmono := daysBeforeYear_mono (show f.year + 1 ≤ 30828 by unfold lastYear at hlast; omega)
    have : daysBeforeYear 30828 = 10674942 := rfl
    omega

theorem TimeFields.Valid.isYearOf {time : Int} (hf : f.Valid) (hle : f.ticks ≤ time)
    (hlt : time < f.ticks + 10000) : IsYearOf f.year time := by
  have hbounds := hf.date.dayNumber_bounds
  have htime := hf.time.bounds
  unfold IsYearOf
  unfold TimeFields.ticks at *
  unfold ticksPerDay at *
  omega

end Order

/-! ## The cutover in one year -/

section InYear

variable {conv : Conversions}

/-- The fields of a time that was made of fields. -/
theorem Conversions.CalendarCorrect.date_of_ticks (hconv : conv.CalendarCorrect) {f : TimeFields}
    (hf : f.Valid) (hlast : f.year ≤ lastYear) :
    (conv.timeToTimeFields f.ticks).day = f.day ∧
      (conv.timeToTimeFields f.ticks).weekday = weekday f.year f.month f.day := by
  obtain ⟨hvalid, hle, hlt, hweekday⟩ :=
    hconv.toFields f.ticks hf.ticks_bounds.1 (hf.ticks_bounds.2 hlast)
  obtain ⟨hyear, hmonth, hday⟩ := date_eq_of_ticks hf hvalid hle hlt
  rw [hweekday, hyear, hmonth, hday]
  exact ⟨rfl, rfl⟩

/-- The loop goes on by weeks as often as it should, or until the month ends. -/
theorem laterWeekdays_spec (hconv : conv.CalendarCorrect) (count : Nat) {working : TimeFields}
    (hworking : working.Valid) (hlast : working.year ≤ lastYear) :
    (laterWeekdays conv count working working.day = working.day + 7 * count ∧
      working.day + 7 * count ≤ daysInMonth working.year working.month) ∨
    ∃ weeks < count, laterWeekdays conv count working working.day = working.day + 7 * weeks ∧
      working.day + 7 * weeks ≤ daysInMonth working.year working.month ∧
      daysInMonth working.year working.month < working.day + 7 * weeks + 7 := by
  induction count generalizing working with
  | zero =>
    left
    have hday := hworking.date.day_le
    exact ⟨by simp [laterWeekdays], by simpa using hday⟩
  | succ count ih =>
    have hday := hworking.date.day_pos
    unfold laterWeekdays
    dsimp only
    by_cases hnext : working.day + 7 ≤ daysInMonth working.year working.month
    · have hvalid : TimeFields.Valid { working with day := working.day + 7 } :=
        ⟨hworking.year_le, ⟨hworking.date.month_pos, hworking.date.month_le,
          by change 1 ≤ working.day + 7; omega, hnext⟩, hworking.time.withDate _ _ _⟩
      rw [hconv.toTime _ hvalid hlast]
      dsimp only
      rw [(hconv.date_of_ticks hvalid hlast).1]
      rcases ih hvalid hlast with ⟨heq, hle⟩ | ⟨weeks, hweeks, heq, hle, hlt⟩
      · left
        rw [heq]
        dsimp only at *
        push_cast
        omega
      · right
        refine ⟨weeks + 1, by omega, ?_⟩
        rw [heq]
        dsimp only at *
        push_cast
        omega
    · rw [hconv.notTime _ fun h => hnext h.1.date.day_le]
      right
      exact ⟨0, by omega, by simp, by simpa using hworking.date.day_le, by simp; omega⟩

/-- The first day of the weekday in a month. -/
theorem firstWeekday_spec {weekday₁ target : Int} (year month : Int)
    (hweekday : weekday₁ = weekday year month 1) (hlow : 0 ≤ target) (hhigh : target < 7) :
    let first := if weekday₁ > target then 1 + (7 - (weekday₁ - target))
      else if weekday₁ < target then 1 + (target - weekday₁) else 1
    1 ≤ first ∧ first ≤ 7 ∧ weekday year month first = target := by
  have hbounds := weekday_bounds year month 1
  have hadd := weekday_add year month 1
  rw [← hweekday] at hbounds hadd
  dsimp only
  split_ifs with h₁ h₂
  · rw [hadd]
    omega
  · rw [hadd]
    omega
  · omega

theorem ValidRule.valid {rule : TimeFields} (hrule : ValidRule rule) {year : Int}
    (hyear : 1601 ≤ year) (day weekday : Int) (hlow : 1 ≤ day)
    (hhigh : day ≤ daysInMonth year rule.month) :
    TimeFields.Valid { rule with year := year, day := day, weekday := weekday } :=
  ⟨hyear, ⟨hrule.month_pos, hrule.month_le, hlow, hhigh⟩, hrule.time.withDate _ _ _⟩

/-- For a year that can be converted, the cutover is on the day of the rule. -/
theorem cutoverInYear_spec (hconv : conv.CalendarCorrect) {rule : TimeFields}
    (hrule : ValidRule rule) {year : Int} (hyear : 1601 ≤ year) (hlast : year ≤ lastYear) :
    ∃ day, IsNthWeekday year rule.month rule.weekday rule.day day ∧
      cutoverInYear conv rule year =
        some (day, { rule with year := year, day := day }.ticks) := by
  have hmonth := daysInMonth_bounds year rule.month
  have hfirstValid := hrule.valid hyear 1 0 (by omega) (by omega)
  unfold cutoverInYear
  dsimp only
  rw [hconv.toTime _ hfirstValid hlast]
  dsimp only
  have hfirst := firstWeekday_spec year rule.month
    (hconv.date_of_ticks hfirstValid hlast).2 hrule.weekday_nonneg hrule.weekday_lt
  dsimp only at hfirst
  generalize (if (conv.timeToTimeFields _).weekday > rule.weekday then _ else _ : Int) = first at *
  obtain ⟨hlow, hhigh, hweekday⟩ := hfirst
  have hworking := hrule.valid hyear first 0 hlow (by omega)
  have hday : ∃ day, IsNthWeekday year rule.month rule.weekday rule.day day ∧
      laterWeekdays conv (rule.day - 1).toNat
        { rule with year := year, day := first, weekday := 0 } first = day := by
    have := hrule.day_pos
    have := hrule.day_le
    rcases laterWeekdays_spec hconv (rule.day - 1).toNat hworking hlast with
      ⟨heq, hle⟩ | ⟨weeks, hweeks, heq, hle, hlt⟩
    · refine ⟨_, ?_, heq⟩
      have hcount : ((rule.day - 1).toNat : Int) = rule.day - 1 := Int.toNat_of_nonneg (by omega)
      rw [hcount] at hle ⊢
      exact isNthWeekday_of_first hlow hhigh hweekday hrule.day_pos hle
    · refine ⟨_, ?_, heq⟩
      -- every month has four weeks, so it is the fifth that is missing
      dsimp only at hle hlt
      obtain rfl : weeks = 3 := by omega
      rw [show rule.day = 5 by omega]
      exact isNthWeekday_of_last hlow hhigh hweekday (show _ < first + 28 by omega)
  obtain ⟨day, hnth, heq⟩ := hday
  rw [heq, hconv.toTime _ (hrule.valid hyear day 0 hnth.day_pos hnth.day_le) hlast]
  exact ⟨day, hnth, rfl⟩

/-- A year that cannot be converted has no cutover. -/
theorem cutoverInYear_of_lt (hconv : conv.CalendarCorrect) (rule : TimeFields) {year : Int}
    (hlast : lastYear < year) : cutoverInYear conv rule year = none := by
  unfold cutoverInYear
  dsimp only
  rw [hconv.notTime]
  exact fun h => absurd h.2 (Int.not_le.mpr hlast)

/-- The cutover of any year. -/
theorem cutoverInYear_eq (hconv : conv.CalendarCorrect) {rule : TimeFields}
    (hrule : ValidRule rule) {year : Int} (hyear : 1601 ≤ year) :
    ∃ day, IsNthWeekday year rule.month rule.weekday rule.day day ∧
      cutoverInYear conv rule year =
        if year ≤ lastYear then some (day, { rule with year := year, day := day }.ticks)
        else none := by
  by_cases hlast : year ≤ lastYear
  · obtain ⟨day, hday, heq⟩ := cutoverInYear_spec hconv hrule hyear hlast
    exact ⟨day, hday, by rw [heq, if_pos hlast]⟩
  · obtain ⟨day, hday⟩ := exists_isNthWeekday year rule.month hrule.weekday_nonneg
      hrule.weekday_lt hrule.day_pos hrule.day_le
    exact ⟨day, hday, by rw [cutoverInYear_of_lt hconv rule (by omega), if_neg hlast]⟩

end InYear

/-! ## Instants around the current time -/

section Instants

variable {rule now : TimeFields} {current : Int}

theorem IsInstant.unique {year time time' : Int} (h : IsInstant rule year time)
    (h' : IsInstant rule year time') : time' = time := by
  obtain ⟨_, day, hday, rfl⟩ := h
  obtain ⟨_, day', hday', rfl⟩ := h'
  rw [hday.unique hday']

/-- An instant on a date before the current one is over. -/
theorem instant_lt_current (hrule : ValidRule rule) (hnow : now.Valid) (hle : now.ticks ≤ current)
    {year day : Int} (hyear : 1601 ≤ year)
    (hday : IsNthWeekday year rule.month rule.weekday rule.day day)
    (hbefore : Before year rule.month day now.year now.month now.day) :
    ({ rule with year := year, day := day } : TimeFields).ticks < current := by
  have hvalid := hrule.valid hyear day rule.weekday hday.day_pos hday.day_le
  have := ticks_lt_of_before hvalid hnow hbefore
  omega

/-- An instant on a date after the current one is to come. -/
theorem current_lt_instant (hrule : ValidRule rule) (hnow : now.Valid)
    (hlt : current < now.ticks + 10000) {year day : Int} (hyear : 1601 ≤ year)
    (hday : IsNthWeekday year rule.month rule.weekday rule.day day)
    (hafter : Before now.year now.month now.day year rule.month day) :
    current < ({ rule with year := year, day := day } : TimeFields).ticks := by
  have hvalid := hrule.valid hyear day rule.weekday hday.day_pos hday.day_le
  have := ticks_lt_of_before hnow hvalid hafter
  omega

/-- An instant that is not over is the earliest one when those of the years before are over. -/
theorem isLeast_of_years (hrule : ValidRule rule) {year time : Int}
    (htime : IsInstant rule year time) (hcurrent : current ≤ time)
    (hbefore : ∀ year' time', year' < year → IsInstant rule year' time' → time' < current) :
    IsLeast {time | ∃ year, IsInstant rule year time ∧ current ≤ time} time := by
  refine ⟨⟨year, htime, hcurrent⟩, ?_⟩
  rintro time' ⟨year', htime', hcurrent'⟩
  rcases Int.lt_trichotomy year' year with hlt | rfl | hgt
  · have := hbefore year' time' hlt htime'
    omega
  · rw [htime.unique htime']
  · obtain ⟨hyear, day, hday, rfl⟩ := htime
    obtain ⟨hyear', day', hday', rfl⟩ := htime'
    have := ticks_lt_of_before (hrule.valid hyear day rule.weekday hday.day_pos hday.day_le)
      (hrule.valid hyear' day' rule.weekday hday'.day_pos hday'.day_le) (Or.inl hgt)
    omega

end Instants

/-! ## The instant of the rule -/

/-- What the routine is for: the instant of this year, or the next one. -/
def IsWanted (rule : TimeFields) (current : Int) (thisYear : Bool) (year time : Int) : Prop :=
  IsInstant rule year time ∧
    if thisYear then IsYearOf year current
    else IsLeast {time | ∃ year, IsInstant rule year time ∧ current ≤ time} time

section Routine

variable {conv : Conversions} {rule : TimeFields} {current : Int}

/-- The routine gives the instant of the current year. -/
theorem cutover_this_year (hconv : conv.CalendarCorrect) (hrule : ValidRule rule)
    (hcurrent : 0 ≤ current) (hlimit : current < 2 ^ 63) :
    ∃ year time, IsWanted rule current true year time ∧
      cutoverTimeToSystemTime conv rule current true =
        if year ≤ lastYear then (true, some time) else (false, none) := by
  obtain ⟨hnow, hle, hlt, _⟩ := hconv.toFields current hcurrent hlimit
  obtain ⟨day, hday, heq⟩ := cutoverInYear_eq hconv hrule hnow.year_le
  refine ⟨(conv.timeToTimeFields current).year, _, ⟨⟨hnow.year_le, day, hday, rfl⟩, ?_⟩, ?_⟩
  · rw [if_pos rfl]
    exact hnow.isYearOf hle hlt
  · have hdayLow := hrule.day_pos
    have hdayHigh := hrule.day_le
    unfold cutoverTimeToSystemTime
    dsimp only
    rw [if_neg (not_not.mpr hrule.year), if_neg (by omega), if_neg (by simp), heq]
    split_ifs <;> simp

section Wanted

variable {now : TimeFields} {day : Int}

/-- The instant of the current year is the next one when it is not over. -/
theorem wanted_this_year (hrule : ValidRule rule) (hnow : now.Valid) (hle : now.ticks ≤ current)
    (hday : IsNthWeekday now.year rule.month rule.weekday rule.day day)
    (hcurrent : current ≤ ({ rule with year := now.year, day := day } : TimeFields).ticks) :
    IsWanted rule current false now.year { rule with year := now.year, day := day }.ticks := by
  have hinstant : IsInstant rule now.year _ := ⟨hnow.year_le, day, hday, rfl⟩
  refine ⟨hinstant, isLeast_of_years hrule hinstant hcurrent ?_⟩
  rintro year' _ hyear ⟨hyear', day', hday', rfl⟩
  exact instant_lt_current hrule hnow hle hyear' hday' (Or.inl hyear)

/-- Otherwise it is the instant of the next year. -/
theorem wanted_next_year (hrule : ValidRule rule) (hnow : now.Valid) (hle : now.ticks ≤ current)
    (hlt : current < now.ticks + 10000)
    (hday : IsNthWeekday now.year rule.month rule.weekday rule.day day)
    (hover : ({ rule with year := now.year, day := day } : TimeFields).ticks < current)
    {dayNext : Int}
    (hdayNext : IsNthWeekday (now.year + 1) rule.month rule.weekday rule.day dayNext) :
    IsWanted rule current false (now.year + 1)
      { rule with year := now.year + 1, day := dayNext }.ticks := by
  have hyear : 1601 ≤ now.year + 1 := by
    have := hnow.year_le
    omega
  have hinstant : IsInstant rule (now.year + 1) _ := ⟨hyear, dayNext, hdayNext, rfl⟩
  have hcurrent := current_lt_instant hrule hnow hlt hyear hdayNext (Or.inl (by omega))
  refine ⟨hinstant, isLeast_of_years hrule hinstant (by omega) ?_⟩
  intro year' time' hlater htime'
  by_cases hsame : year' = now.year
  · subst hsame
    rw [IsInstant.unique ⟨hnow.year_le, day, hday, rfl⟩ htime']
    exact hover
  · obtain ⟨hyear', day', hday', rfl⟩ := htime'
    exact instant_lt_current hrule hnow hle hyear' hday' (Or.inl (by omega))

/-- In the month of the rule, the comparison of the days and of the times tells whether the
instant is over. -/
theorem over_iff (hrule : ValidRule rule) (hnow : now.Valid) (hle : now.ticks ≤ current)
    (hlt : current < now.ticks + 10000) (hmonth : rule.month = now.month)
    (hday : IsNthWeekday now.year rule.month rule.weekday rule.day day) :
    (day < now.day ∨
      day = now.day ∧ ({ rule with year := now.year, day := day } : TimeFields).ticks < current) ↔
    ({ rule with year := now.year, day := day } : TimeFields).ticks < current := by
  rcases Int.lt_trichotomy day now.day with hbefore | hsame | hafter
  · have := instant_lt_current hrule hnow hle hnow.year_le hday
      (Or.inr ⟨rfl, Or.inr ⟨hmonth, hbefore⟩⟩)
    exact iff_of_true (Or.inl hbefore) this
  · simp [hsame]
  · have := current_lt_instant hrule hnow hlt hnow.year_le hday
      (Or.inr ⟨rfl, Or.inr ⟨hmonth.symm, hafter⟩⟩)
    omega

end Wanted

/-- The routine gives the next instant. -/
theorem cutover_next (hconv : conv.CalendarCorrect) (hrule : ValidRule rule)
    (hcurrent : 0 ≤ current) (hlimit : current < 2 ^ 63) :
    ∃ year time, IsWanted rule current false year time ∧
      cutoverTimeToSystemTime conv rule current false =
        if year ≤ lastYear then (true, some time) else (false, none) := by
  obtain ⟨hnow, hle, hlt, _⟩ := hconv.toFields current hcurrent hlimit
  have hyear := hnow.year_le
  have hdayLow := hrule.day_pos
  have hdayHigh := hrule.day_le
  unfold cutoverTimeToSystemTime
  dsimp only
  rw [if_neg (not_not.mpr hrule.year), if_neg (by omega)]
  generalize conv.timeToTimeFields current = now at *
  obtain ⟨day, hday, heq⟩ := cutoverInYear_eq hconv hrule hyear
  obtain ⟨dayNext, hdayNext, heqNext⟩ :=
    cutoverInYear_eq hconv hrule (show 1601 ≤ now.year + 1 by omega)
  have hnext := fun hover => wanted_next_year hrule hnow hle hlt hday hover hdayNext
  have hthis := wanted_this_year hrule hnow hle hday
  rcases Int.lt_trichotomy rule.month now.month with hbefore | hsame | hafter
  · -- the month is over
    have hover := instant_lt_current hrule hnow hle hyear hday (Or.inr ⟨rfl, Or.inl hbefore⟩)
    refine ⟨_, _, hnext hover, ?_⟩
    rw [if_pos ⟨rfl, hbefore⟩, heqNext]
    by_cases hlast : now.year + 1 ≤ lastYear
    · rw [if_pos hlast, if_pos hlast]
      exact if_neg fun h => by have := h.1.2; omega
    · rw [if_neg hlast, if_neg hlast]
  · have hover := over_iff hrule hnow hle hlt hsame hday
    rw [if_neg (by omega), heq]
    by_cases htime : ({ rule with year := now.year, day := day } : TimeFields).ticks < current
    · refine ⟨_, _, hnext htime, ?_⟩
      by_cases hlast : now.year ≤ lastYear
      · rw [if_pos hlast]
        dsimp only
        rw [if_pos ⟨⟨rfl, hsame⟩, hover.mpr htime⟩, heqNext]
        by_cases hlast' : now.year + 1 ≤ lastYear
        · rw [if_pos hlast', if_pos hlast']
        · rw [if_neg hlast', if_neg hlast']
      · rw [if_neg hlast, if_neg (by omega)]
    · refine ⟨_, _, hthis (by omega), ?_⟩
      by_cases hlast : now.year ≤ lastYear
      · rw [if_pos hlast, if_pos hlast]
        exact if_neg fun h => htime (hover.mp h.2)
      · rw [if_neg hlast, if_neg hlast]
  · -- the month is to come
    have hcurrent := current_lt_instant hrule hnow hlt hyear hday (Or.inr ⟨rfl, Or.inl hafter⟩)
    refine ⟨_, _, hthis (by omega), ?_⟩
    rw [if_neg (by omega), heq]
    by_cases hlast : now.year ≤ lastYear
    · rw [if_pos hlast, if_pos hlast]
      exact if_neg fun h => by have := h.1.2; omega
    · rw [if_neg hlast, if_neg hlast]

end Routine

/-- The routine gives the instant that is wanted, if it is in a year that can be converted. -/
theorem cutover_is_the_instant {conv : Conversions} (hconv : conv.CalendarCorrect)
    {rule : TimeFields} (hrule : ValidRule rule) {current : Int} (hcurrent : 0 ≤ current)
    (hlimit : current < 2 ^ 63) (thisYear : Bool) :
    ∃ year time, IsWanted rule current thisYear year time ∧
      cutoverTimeToSystemTime conv rule current thisYear =
        if year ≤ lastYear then (true, some time) else (false, none) := by
  cases thisYear with
  | true => exact cutover_this_year hconv hrule hcurrent hlimit
  | false => exact cutover_next hconv hrule hcurrent hlimit

/-! ## Conversions that follow the calendar -/

instance (f : TimeFields) : Decidable f.ValidTimeOfDay :=
  decidable_of_iff _ (TimeFields.validTimeOfDay_iff f).symm

instance (f : TimeFields) : Decidable f.Valid :=
  decidable_of_iff _ (TimeFields.valid_iff f).symm

/-- The conversions as the calendar has them. -/
def gregorian : Conversions where
  timeFieldsToTime f := if f.Valid ∧ f.year ≤ lastYear then some f.ticks else none
  timeToTimeFields time :=
    let number := (time / ticksPerDay).toNat
    let ofDay := time % ticksPerDay
    { year := yearOf number
      month := monthOf number
      day := dayOf number
      hour := ofDay / 36000000000
      minute := ofDay / 600000000 % 60
      second := ofDay / 10000000 % 60
      milliseconds := ofDay / 10000 % 1000
      weekday := weekday (yearOf number) (monthOf number) (dayOf number) }

theorem gregorian_calendarCorrect : gregorian.CalendarCorrect where
  toTime f hvalid hlast := if_pos ⟨hvalid, hlast⟩
  notTime f hnot := if_neg hnot
  toFields time hlow _ := by
    have hnumber : ((time / ticksPerDay).toNat : Int) = time / ticksPerDay := by
      unfold ticksPerDay
      omega
    have hday := dayNumber_of (time / ticksPerDay).toNat
    rw [hnumber] at hday
    refine ⟨⟨(yearOf_spec _).1, isDate_of _, ?_⟩, ?_, ?_, rfl⟩
    · unfold gregorian ticksPerDay
      constructor <;> dsimp only <;> omega
    · unfold TimeFields.ticks TimeFields.timeOfDay
      unfold gregorian
      dsimp only
      rw [hday]
      unfold ticksPerDay
      omega
    · unfold TimeFields.ticks TimeFields.timeOfDay
      unfold gregorian
      dsimp only
      rw [hday]
      unfold ticksPerDay
      omega

/-- The last Sunday in October at two o'clock. -/
def lastSundayInOctober : TimeFields := ⟨0, 10, 5, 2, 0, 0, 0, 0⟩

theorem lastSundayInOctober_valid : ValidRule lastSundayInOctober :=
  ⟨rfl, by decide, by decide, by decide, by decide, by decide, by decide, by decide⟩

theorem lastSundayInOctober_is_the_instant :
    ∃ year time, IsWanted lastSundayInOctober 132000000000000000 false year time ∧
      cutoverTimeToSystemTime gregorian lastSundayInOctober 132000000000000000 false =
        if year ≤ lastYear then (true, some time) else (false, none) :=
  cutover_is_the_instant gregorian_calendarCorrect lastSundayInOctober_valid (by decide)
    (by decide) false

end Ldk.Time
