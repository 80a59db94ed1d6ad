import Mathlib

/-!
# The Gregorian calendar

Days are numbered from January 1st, 1601, which was a Monday.

- `dayNumber` orders the dates as year, month and day do (`dayNumber_lt`), so it tells them apart.
- Every number from 0 on is that of a date (`dayNumber_dateOf`).
- The days of one weekday in a month are seven days apart (`weekday_eq_iff`).
-/

namespace Calendar

/-! ## Years and months -/

def IsLeap (year : Int) : Prop := year % 4 = 0 ∧ (year % 100 ≠ 0 ∨ year % 400 = 0)

instance (year : Int) : Decidable (IsLeap year) := by
  unfold IsLeap
  infer_instance

def daysInYear (year : Int) : Int := if IsLeap year then 366 else 365

def daysInMonth (year month : Int) : Int :=
  if month = 2 then if IsLeap year then 29 else 28
  else if month = 4 ∨ month = 6 ∨ month = 9 ∨ month = 11 then 30
  else 31

/-- The days from January 1st, 1601 to January 1st of the year. -/
def daysBeforeYear (year : Int) : Int :=
  365 * (year - 1601) + (year - 1601) / 4 - (year - 1601) / 100 + (year - 1601) / 400

/-- The days from January 1st to the 1st of the month. -/
def daysBeforeMonth (year month : Int) : Int :=
  (367 * month - 362) / 12 - if month ≤ 2 then 0 else if IsLeap year then 1 else 2

theorem daysBeforeYear_succ (year : Int) :
    daysBeforeYear (year + 1) = daysBeforeYear year + daysInYear year := by
  unfold daysBeforeYear daysInYear IsLeap
  split_ifs <;> omega

theorem daysBeforeYear_mono {year year' : Int} (h : year ≤ year') :
    daysBeforeYear year ≤ daysBeforeYear year' := by
  unfold daysBeforeYear
  omega

theorem daysBeforeMonth_one (year : Int) : daysBeforeMonth year 1 = 0 := rfl

theorem daysBeforeMonth_succ (year : Int) {month : Int} (hlow : 1 ≤ month) (hhigh : month ≤ 11) :
    daysBeforeMonth year (month + 1) = daysBeforeMonth year month + daysInMonth year month := by
  unfold daysBeforeMonth daysInMonth
  interval_cases month <;> by_cases hleap : IsLeap year <;> simp [hleap]

theorem daysBeforeMonth_twelve (year : Int) :
    daysBeforeMonth year 12 + daysInMonth year 12 = daysInYear year := by
  unfold daysBeforeMonth daysInMonth daysInYear
  by_cases hleap : IsLeap year <;> simp [hleap]

theorem daysBeforeMonth_mono (year : Int) {month month' : Int} (h : month ≤ month') :
    daysBeforeMonth year month ≤ daysBeforeMonth year month' := by
  unfold daysBeforeMonth
  split_ifs <;> omega

theorem daysInMonth_bounds (year month : Int) :
    28 ≤ daysInMonth year month ∧ daysInMonth year month ≤ 31 := by
  unfold daysInMonth
  split_ifs <;> omega

/-! ## Dates -/

/-- The month has such a day. -/
@[mk_iff]
structure IsDate (year month day : Int) : Prop where
  month_pos : 1 ≤ month
  month_le : month ≤ 12
  day_pos : 1 ≤ day
  day_le : day ≤ daysInMonth year month

instance (year month day : Int) : Decidable (IsDate year month day) :=
  decidable_of_iff _ (isDate_iff year month day).symm

/-- The days from January 1st, 1601 to the date. -/
def dayNumber (year month day : Int) : Int :=
  daysBeforeYear year + daysBeforeMonth year month + (day - 1)

/-- The date comes before the other one. -/
def Before (year month day year' month' day' : Int) : Prop :=
  year < year' ∨ year = year' ∧ (month < month' ∨ month = month' ∧ day < day')

section Order

variable {year month day year' month' day' : Int}

theorem IsDate.le_month (h : IsDate year month day) :
    daysBeforeMonth year month + day ≤ daysBeforeMonth year (month + 1) ∨
      month = 12 ∧ daysBeforeMonth year month + day ≤ daysInYear year := by
  have hday := h.day_le
  by_cases hmonth : month = 12
  · refine Or.inr ⟨hmonth, ?_⟩
    rw [← daysBeforeMonth_twelve, ← hmonth]
    omega
  · have := h.month_le
    refine Or.inl ?_
    rw [daysBeforeMonth_succ year h.month_pos (by omega)]
    omega

theorem IsDate.le_year (h : IsDate year month day) :
    daysBeforeMonth year month + day ≤ daysInYear year := by
  rcases h.le_month with hmonth | ⟨_, hyear⟩
  · by_cases htwelve : month = 12
    · have hday := h.day_le
      rw [← daysBeforeMonth_twelve, ← htwelve]
      omega
    · have hle := h.month_le
      have hmono := daysBeforeMonth_mono year (show month + 1 ≤ 12 by omega)
      have htotal := daysBeforeMonth_twelve year
      have hdays := daysInMonth_bounds year 12
      omega
  · exact hyear

theorem IsDate.dayNumber_bounds (h : IsDate year month day) :
    daysBeforeYear year ≤ dayNumber year month day ∧
      dayNumber year month day < daysBeforeYear (year + 1) := by
  have hfirst := daysBeforeMonth_mono year h.month_pos
  have hyear := h.le_year
  have hday := h.day_pos
  rw [daysBeforeMonth_one] at hfirst
  rw [daysBeforeYear_succ, dayNumber]
  omega

theorem dayNumber_lt (h : IsDate year month day) (h' : IsDate year' month' day')
    (hbefore : Before year month day year' month' day') :
    dayNumber year month day < dayNumber year' month' day' := by
  rcases hbefore with hyear | ⟨rfl, hmonth | ⟨rfl, hday⟩⟩
  · have hlast := h.dayNumber_bounds.2
    have hfirst := h'.dayNumber_bounds.1
    have hmono := daysBeforeYear_mono (show year + 1 ≤ year' by omega)
    omega
  · have hday' := h'.day_pos
    have hmono := daysBeforeMonth_mono year (show month + 1 ≤ month' by omega)
    have := h'.month_le
    rcases h.le_month with hle | ⟨htwelve, _⟩
    · unfold dayNumber
      omega
    · omega
  · unfold dayNumber
    omega

theorem before_trichotomy (year month day year' month' day' : Int) :
    Before year month day year' month' day' ∨
      (year = year' ∧ month = month' ∧ day = day') ∨
      Before year' month' day' year month day := by
  unfold Before
  omega

end Order

/-! ## Weekdays -/

/-- 0 is Sunday. -/
def weekday (year month day : Int) : Int := (dayNumber year month day + 1) % 7

theorem weekday_bounds (year month day : Int) :
    0 ≤ weekday year month day ∧ weekday year month day < 7 := by
  unfold weekday
  omega

theorem weekday_add (year month day days : Int) :
    weekday year month (day + days) = (weekday year month day + days) % 7 := by
  unfold weekday dayNumber
  omega

theorem weekday_eq_iff (year month day day' : Int) :
    weekday year month day = weekday year month day' ↔ (7 : Int) ∣ day' - day := by
  unfold weekday dayNumber
  omega

/-- How many of the first days of a month are of a weekday. -/
def occurrences (year month weekday : Int) (day : Nat) : Nat :=
  ((List.range day).filter fun i : Nat => Calendar.weekday year month (i + 1) = weekday).length

/-- The `n`-th day of a weekday in a month; the last one when `n` is 5 and there are only four. -/
structure IsNthWeekday (year month weekday n day : Int) : Prop where
  day_pos : 1 ≤ day
  day_le : day ≤ daysInMonth year month
  weekday_eq : Calendar.weekday year month day = weekday
  nth : (occurrences year month weekday day.toNat : Int) = n ∨
    n = 5 ∧ occurrences year month weekday day.toNat = 4 ∧
      ∀ later, day < later → later ≤ daysInMonth year month →
        Calendar.weekday year month later ≠ weekday

theorem occurrences_succ (year month weekday : Int) (day : Nat) :
    occurrences year month weekday (day + 1) = occurrences year month weekday day +
      if Calendar.weekday year month (day + 1) = weekday then 1 else 0 := by
  unfold occurrences
  rw [List.range_succ, List.filter_append, List.length_append]
  congr 1
  split_ifs with h <;> simp [h]

/-- The days of a weekday, counted from the first of them. -/
theorem occurrences_eq {year month weekday first : Int} (hlow : 1 ≤ first) (hhigh : first ≤ 7)
    (hfirst : Calendar.weekday year month first = weekday) (day : Nat) :
    (occurrences year month weekday day : Int) = (day + 7 - first) / 7 := by
  induction day with
  | zero =>
    change (0 : Int) = _
    omega
  | succ day ih =>
    have hiff := weekday_eq_iff year month (day + 1) first
    rw [hfirst] at hiff
    rw [occurrences_succ]
    push_cast
    rw [ih]
    split_ifs with h
    · have := hiff.mp h
      omega
    · have := mt hiff.mpr h
      omega

/-- Counted from the first day of its weekday, every seventh day is of that weekday. -/
theorem isNthWeekday_of_first {year month weekday first n : Int} (hlow : 1 ≤ first)
    (hhigh : first ≤ 7) (hfirst : Calendar.weekday year month first = weekday) (hn : 1 ≤ n)
    (hday : first + 7 * (n - 1) ≤ daysInMonth year month) :
    IsNthWeekday year month weekday n (first + 7 * (n - 1)) where
  day_pos := by omega
  day_le := hday
  weekday_eq := by
    rw [← hfirst, weekday_eq_iff]
    omega
  nth := by
    left
    rw [occurrences_eq hlow hhigh hfirst]
    omega

/-- The fourth day of a weekday counts as the fifth when there are only four. -/
theorem isNthWeekday_of_last {year month weekday first : Int} (hlow : 1 ≤ first)
    (hhigh : first ≤ 7) (hfirst : Calendar.weekday year month first = weekday)
    (hday : daysInMonth year month < first + 28) :
    IsNthWeekday year month weekday 5 (first + 21) where
  day_pos := by omega
  day_le := by
    have := (daysInMonth_bounds year month).1
    omega
  weekday_eq := by
    rw [← hfirst, weekday_eq_iff]
    omega
  nth := by
    refine Or.inr ⟨rfl, ?_, fun later hlater hle => ?_⟩
    · have := occurrences_eq hlow hhigh hfirst (first + 21).toNat
      omega
    · rw [← hfirst, Ne, weekday_eq_iff]
      omega

/-- There is such a day in every month. -/
theorem exists_isNthWeekday (year month : Int) {weekday n : Int} (hweekday : 0 ≤ weekday)
    (hweekday' : weekday < 7) (hn : 1 ≤ n) (hn' : n ≤ 5) :
    ∃ day, IsNthWeekday year month weekday n day := by
  have hmonth := daysInMonth_bounds year month
  obtain ⟨first, hlow, hhigh, hfirst⟩ :
      ∃ first, 1 ≤ first ∧ first ≤ 7 ∧ Calendar.weekday year month first = weekday := by
    refine ⟨1 + (weekday - Calendar.weekday year month 1) % 7, by omega, by omega, ?_⟩
    rw [weekday_add]
    omega
  by_cases hday : first + 7 * (n - 1) ≤ daysInMonth year month
  · exact ⟨_, isNthWeekday_of_first hlow hhigh hfirst hn hday⟩
  · -- only a fifth day may be missing
    obtain rfl : n = 5 := by omega
    exact ⟨_, isNthWeekday_of_last hlow hhigh hfirst (by omega)⟩

/-- There is one such day only. -/
theorem IsNthWeekday.unique {year month weekday n day day' : Int}
    (h : IsNthWeekday year month weekday n day) (h' : IsNthWeekday year month weekday n day') :
    day' = day := by
  have hday := h.day_pos
  have hday' := h'.day_pos
  have hsame : (7 : Int) ∣ day' - day := by
    rw [← weekday_eq_iff year month, h.weekday_eq, h'.weekday_eq]
  -- both are counted from the first day of their weekday
  have hfirst : Calendar.weekday year month ((day - 1) % 7 + 1) = weekday := by
    rw [← h.weekday_eq, weekday_eq_iff]
    omega
  have hcount := occurrences_eq (by omega) (by omega) hfirst day.toNat
  have hcount' := occurrences_eq (by omega) (by omega) hfirst day'.toNat
  rcases h.nth with hn | ⟨rfl, hfour, hlast⟩ <;>
    rcases h'.nth with hn' | ⟨hfive, hfour', hlast'⟩
  · omega
  · by_cases hlater : day' < day
    · exact absurd h.weekday_eq (hlast' day hlater h.day_le)
    · omega
  · by_cases hlater : day < day'
    · exact absurd h'.weekday_eq (hlast day' hlater h'.day_le)
    · omega
  · omega

/-! ## Every number is that of a date -/

/-- The year of a day. -/
def yearOf (number : Nat) : Int :=
  1601 + (Nat.findGreatest (fun years => daysBeforeYear (1601 + years) ≤ number) number : Nat)

/-- The month of a day in its year. -/
def monthOf (number : Nat) : Int :=
  1 + (Nat.findGreatest (fun months =>
    daysBeforeYear (yearOf number) + daysBeforeMonth (yearOf number) (1 + months) ≤ number) 11 :
      Nat)

/-- The day of a day in its month. -/
def dayOf (number : Nat) : Int :=
  number - daysBeforeYear (yearOf number) - daysBeforeMonth (yearOf number) (monthOf number) + 1

theorem yearOf_spec (number : Nat) :
    1601 ≤ yearOf number ∧ daysBeforeYear (yearOf number) ≤ number ∧
      number < daysBeforeYear (yearOf number + 1) := by
  have hzero : daysBeforeYear (1601 + (0 : Nat)) ≤ number := by
    unfold daysBeforeYear
    omega
  have hle := Nat.findGreatest_spec (P := fun years : Nat => daysBeforeYear (1601 + years) ≤ number)
    (Nat.zero_le number) hzero
  have hgreatest : ∀ years : Nat,
      Nat.findGreatest (fun years : Nat => daysBeforeYear (1601 + years) ≤ number) number < years →
      ¬ daysBeforeYear (1601 + years) ≤ number := by
    intro years hyears
    by_cases hsmall : years ≤ number
    · exact Nat.findGreatest_is_greatest hyears hsmall
    · unfold daysBeforeYear
      omega
  refine ⟨by unfold yearOf; omega, hle, ?_⟩
  have := hgreatest _ (Nat.lt_succ_self _)
  unfold yearOf
  push_cast at this
  rw [← Int.add_assoc] at this
  omega

theorem monthOf_spec (number : Nat) :
    1 ≤ monthOf number ∧ monthOf number ≤ 12 ∧ 1 ≤ dayOf number ∧
      dayOf number ≤ daysInMonth (yearOf number) (monthOf number) := by
  obtain ⟨_, hfirst, hlast⟩ := yearOf_spec number
  have hmonth : monthOf number = 1 + (Nat.findGreatest (fun months =>
    daysBeforeYear (yearOf number) + daysBeforeMonth (yearOf number) (1 + months) ≤ number) 11 :
      Nat) := rfl
  unfold dayOf
  generalize yearOf number = year at *
  have hzero : daysBeforeYear year + daysBeforeMonth year (1 + (0 : Nat)) ≤ number := by
    simpa [daysBeforeMonth_one] using hfirst
  have hle := Nat.findGreatest_spec (P := fun months : Nat =>
    daysBeforeYear year + daysBeforeMonth year (1 + months) ≤ number) (Nat.zero_le 11) hzero
  have hgreatest := fun months : Nat => Nat.findGreatest_is_greatest (P := fun months : Nat =>
    daysBeforeYear year + daysBeforeMonth year (1 + months) ≤ number) (n := 11) (k := months)
  have heleven := Nat.findGreatest_le (P := fun months : Nat =>
    daysBeforeYear year + daysBeforeMonth year (1 + months) ≤ number) 11
  generalize Nat.findGreatest (fun months : Nat =>
    daysBeforeYear year + daysBeforeMonth year (1 + months) ≤ number) 11 = months at *
  rw [hmonth]
  refine ⟨by omega, by omega, by omega, ?_⟩
  by_cases htwelve : months = 11
  · subst htwelve
    have hyear := daysBeforeMonth_twelve year
    rw [daysBeforeYear_succ] at hlast
    change (number : Int) - daysBeforeYear year - daysBeforeMonth year 12 + 1 ≤ daysInMonth year 12
    omega
  · have hnext := hgreatest (months + 1) (Nat.lt_succ_self _) (by omega)
    have hstep := daysBeforeMonth_succ year (show 1 ≤ 1 + (months : Int) by omega) (by omega)
    push_cast at hnext
    rw [← Int.add_assoc] at hnext
    omega

/-- Every day from January 1st, 1601 on has a date. -/
theorem isDate_of (number : Nat) :
    IsDate (yearOf number) (monthOf number) (dayOf number) :=
  ⟨(monthOf_spec number).1, (monthOf_spec number).2.1, (monthOf_spec number).2.2.1,
    (monthOf_spec number).2.2.2⟩

theorem dayNumber_of (number : Nat) :
    dayNumber (yearOf number) (monthOf number) (dayOf number) = number := by
  unfold dayNumber dayOf
  omega

end Calendar
