import Ldk.NtStatus
import Ldk.Time.Cutover

/-!
# SystemTimeToTzSpecificLocalTime

The local time of a time zone is the universal time less the bias of the zone, and less the bias
of standard or of daylight time, according to the two cutovers around the time.

- For an absolute date `RtlCutoverTimeToSystemTime` returns whether the date is still to come, and
  the conversion fails when it is not (`fails_past_cutover`).
- Only the two cutovers of the universal year are looked at. That is enough when no other cutover
  comes between (`Undisturbed`).
- A zone without cutovers has its bias alone.
-/

namespace Ldk.Time

open Calendar

/-! ## The routine -/

/-- `TIME_ZONE_INFORMATION`, without the names, which are only copied. A `SYSTEMTIME` has the
members of `TIME_FIELDS`. -/
structure TimeZoneInformation where
  bias : Int
  standardDate : TimeFields
  standardBias : Int
  daylightDate : TimeFields
  daylightBias : Int
  deriving DecidableEq, Repr

/-- The values of a `LONG` and of a `LARGE_INTEGER`. -/
def int32 (n : Int) : Int := n.bmod (2 ^ 32)
def int64 (n : Int) : Int := n.bmod (2 ^ 64)

/-- `Int32x32To64( minutes * 60, 10000000 )` -/
def biasOfMinutes (minutes : Int) : Int := int32 (minutes * 60) * 10000000

/-- `SystemTimeToFileTime` -/
def systemTimeToFileTime (conv : Conversions) (systemTime : TimeFields) : Except NtStatus Int :=
  match conv.timeFieldsToTime { systemTime with weekday := 0 } with
  | none => .error .invalidParameter
  | some time => .ok time

/-- `FileTimeToSystemTime` -/
def fileTimeToSystemTime (conv : Conversions) (fileTime : Int) : Except NtStatus TimeFields :=
  if fileTime < 0 then .error .invalidParameter else .ok (conv.timeToTimeFields fileTime)

/-- The choice between the biases of daylight time and of standard time. -/
def isDaylight (current utcDaylightTime utcStandardTime : Int) : Bool :=
  if utcDaylightTime < utcStandardTime then
    current ≥ utcDaylightTime && current < utcStandardTime
  else !(current ≥ utcStandardTime && current < utcDaylightTime)

/-- `SystemTimeToTzSpecificLocalTime` once the zone and the time are there. -/
def localTimeIn (conv : Conversions) (tzi : TimeZoneInformation) (current : Int) :
    Except NtStatus TimeFields :=
  let newTimeZoneBias := biasOfMinutes tzi.bias
  if tzi.standardDate.month ≠ 0 ∧ tzi.daylightDate.month ≠ 0 then
    match cutoverTimeToSystemTime conv tzi.standardDate current true with
    | (true, some standardTime) =>
      match cutoverTimeToSystemTime conv tzi.daylightDate current true with
      | (true, some daylightTime) =>
        let utcDaylightTime :=
          int64 (daylightTime + int64 (newTimeZoneBias + biasOfMinutes tzi.standardBias))
        let utcStandardTime :=
          int64 (standardTime + int64 (newTimeZoneBias + biasOfMinutes tzi.daylightBias))
        let localCustomBias :=
          if isDaylight current utcDaylightTime utcStandardTime then tzi.daylightBias
          else tzi.standardBias
        fileTimeToSystemTime conv
          (int64 (current - int64 (newTimeZoneBias + biasOfMinutes localCustomBias)))
      | _ => .error .invalidParameter
    | _ => .error .invalidParameter
  else fileTimeToSystemTime conv (int64 (current - newTimeZoneBias))

/-- `SystemTimeToTzSpecificLocalTime`. Without a zone it asks `GetTimeZoneInformation`. -/
def systemTimeToTzSpecificLocalTime (conv : Conversions)
    (getTimeZoneInformation : Except NtStatus TimeZoneInformation)
    (timeZoneInformation : Option TimeZoneInformation) (universalTime : TimeFields) :
    Except NtStatus TimeFields := do
  let tzi ←
    match timeZoneInformation with
    | none => getTimeZoneInformation
    | some tzi => pure tzi
  let current ← systemTimeToFileTime conv universalTime
  localTimeIn conv tzi current

/-! ## What the local time should be -/

/-- The units of 100 nanoseconds in so many minutes. -/
def ticksOfMinutes (minutes : Int) : Int := minutes * 600000000

/-- A cutover of the calendar year, by local time: the instant of a rule, or the date itself. -/
def CutoverIn (date : TimeFields) (year time : Int) : Prop :=
  if date.year = 0 then
    ∃ day, IsNthWeekday year date.month date.weekday date.day day ∧
      time = { date with year := year, day := day }.ticks
  else year = date.year ∧ time = date.ticks

namespace TimeZoneInformation

variable (tzi : TimeZoneInformation)

/-- A cutover to daylight time, converted with the bias of standard time. -/
def DaylightCutover (year time : Int) : Prop :=
  CutoverIn tzi.daylightDate year
    (time - ticksOfMinutes tzi.bias - ticksOfMinutes tzi.standardBias)

/-- A cutover to standard time, converted with the bias of daylight time. -/
def StandardCutover (year time : Int) : Prop :=
  CutoverIn tzi.standardDate year
    (time - ticksOfMinutes tzi.bias - ticksOfMinutes tzi.daylightBias)

/-- The zone has daylight time. -/
def HasDaylight : Prop := tzi.standardDate.month ≠ 0 ∧ tzi.daylightDate.month ≠ 0

/-- The time lies between a cutover to daylight time and the next one to standard time. -/
def InDaylight (utc : Int) : Prop :=
  tzi.HasDaylight ∧ ∃ year daylight, tzi.DaylightCutover year daylight ∧ daylight ≤ utc ∧
    ∀ year' standard, tzi.StandardCutover year' standard → daylight < standard → utc < standard

/-- The local time of a universal time. -/
def IsLocalTime (utc time : Int) : Prop :=
  (tzi.InDaylight utc ∧
    time = utc - ticksOfMinutes tzi.bias - ticksOfMinutes tzi.daylightBias) ∨
  (¬ tzi.InDaylight utc ∧
    time = utc - ticksOfMinutes tzi.bias - ticksOfMinutes tzi.standardBias)

/-- A bias fits when its product does. -/
def Fits (minutes : Int) : Prop := -2 ^ 31 ≤ minutes * 60 ∧ minutes * 60 < 2 ^ 31

/-- A zone without daylight time, with rules, or with dates. -/
inductive Valid : Prop where
  | plain : tzi.standardDate.month = 0 → tzi.daylightDate.month = 0 → Valid
  | recurring : ValidRule tzi.standardDate → ValidRule tzi.daylightDate → Valid
  | absolute : tzi.standardDate.Valid → tzi.standardDate.year ≤ lastYear →
      tzi.daylightDate.Valid → tzi.daylightDate.year ≤ lastYear → Valid

/-- The biases fit. -/
structure BiasesFit : Prop where
  bias : Fits tzi.bias
  standardBias : Fits tzi.standardBias
  daylightBias : Fits tzi.daylightBias

end TimeZoneInformation

/-! ## Sums that fit -/

theorem int64_of_fits {n : Int} (hlow : -2 ^ 63 ≤ n) (hhigh : n < 2 ^ 63) : int64 n = n := by
  unfold int64
  rw [Int.bmod_def]
  omega

theorem biasOfMinutes_eq {minutes : Int} (h : TimeZoneInformation.Fits minutes) :
    biasOfMinutes minutes = ticksOfMinutes minutes := by
  unfold TimeZoneInformation.Fits at h
  unfold biasOfMinutes int32 ticksOfMinutes
  rw [Int.bmod_def]
  omega

theorem ticksOfMinutes_bounds {minutes : Int} (h : TimeZoneInformation.Fits minutes) :
    -2 ^ 55 < ticksOfMinutes minutes ∧ ticksOfMinutes minutes < 2 ^ 55 := by
  unfold TimeZoneInformation.Fits at h
  unfold ticksOfMinutes
  omega

/-- Two biases make one. -/
theorem sumOfBiases {bias other : Int} (hbias : TimeZoneInformation.Fits bias)
    (hother : TimeZoneInformation.Fits other) :
    int64 (biasOfMinutes bias + biasOfMinutes other) =
      ticksOfMinutes bias + ticksOfMinutes other := by
  have := ticksOfMinutes_bounds hbias
  have := ticksOfMinutes_bounds hother
  rw [biasOfMinutes_eq hbias, biasOfMinutes_eq hother, int64_of_fits (by omega) (by omega)]

/-! ## The two cutovers that are looked at -/

section Cutovers

variable {conv : Conversions} {date : TimeFields} {utc : Int}

theorem IsYearOf.unique {year year' time : Int} (h : IsYearOf year time)
    (h' : IsYearOf year' time) : year' = year := by
  unfold IsYearOf ticksPerDay at *
  rcases Int.lt_trichotomy year' year with hlt | heq | hgt
  · have := daysBeforeYear_mono (show year' + 1 ≤ year by omega)
    omega
  · exact heq
  · have := daysBeforeYear_mono (show year + 1 ≤ year' by omega)
    omega

/-- The cutover that `RtlCutoverTimeToSystemTime` gives, in the year of the time for a rule, and
whether it says that it has one. -/
theorem cutover_looked_at (hconv : conv.CalendarCorrect)
    (hdate : ValidRule date ∨ date.Valid ∧ date.year ≤ lastYear) {year : Int}
    (hyear : IsYearOf year utc) (hlast : year ≤ lastYear) (hlow : 0 ≤ utc) (hhigh : utc < 2 ^ 63) :
    ∃ year' time, CutoverIn date year' time ∧ 0 ≤ time ∧ (date.year = 0 → year' = year) ∧
      cutoverTimeToSystemTime conv date utc true =
        (decide (date.year ≠ 0 → utc ≤ date.ticks), some time) := by
  rcases hdate with hrule | ⟨hvalid, hdateLast⟩
  · obtain ⟨year', time, ⟨⟨hfirst, day, hday, rfl⟩, hyear'⟩, heq⟩ :=
      cutover_this_year hconv hrule hlow hhigh
    rw [if_pos rfl] at hyear'
    obtain rfl := hyear.unique hyear'
    have hvalid := hrule.valid hfirst day date.weekday hday.day_pos hday.day_le
    refine ⟨year', ({ date with year := year', day := day } : TimeFields).ticks, ?_,
      hvalid.ticks_bounds.1, fun _ => rfl, ?_⟩
    · unfold CutoverIn
      rw [if_pos hrule.year]
      exact ⟨day, hday, rfl⟩
    · rw [heq, if_pos hlast, decide_eq_true fun h => absurd hrule.year h]
  · have hne : date.year ≠ 0 := by
      have := hvalid.year_le
      omega
    refine ⟨date.year, date.ticks, ?_, hvalid.ticks_bounds.1, fun h => absurd h hne, ?_⟩
    · unfold CutoverIn
      rw [if_neg hne]
      exact ⟨rfl, rfl⟩
    · unfold cutoverTimeToSystemTime
      dsimp only
      rw [if_pos hne, hconv.toTime date hvalid hdateLast]
      simp [hne]

theorem CutoverIn.unique {year time time' : Int} (h : CutoverIn date year time)
    (h' : CutoverIn date year time') : time' = time := by
  unfold CutoverIn at h h'
  split_ifs at h h'
  · obtain ⟨day, hday, rfl⟩ := h
    obtain ⟨day', hday', rfl⟩ := h'
    rw [hday.unique hday']
  · rw [h.2, h'.2]

end Cutovers

/-! ## When the routine is right -/

namespace TimeZoneInformation

variable (tzi : TimeZoneInformation) (utc : Int)

/-- The zone has dates of one year. -/
def Absolute : Prop := tzi.standardDate.year ≠ 0 ∧ tzi.daylightDate.year ≠ 0

/-- The cutovers that are looked at are times. -/
structure CutoversInRange : Prop where
  daylight : ∀ year time, (tzi.daylightDate.year = 0 → IsYearOf year utc) →
    tzi.DaylightCutover year time → time < 2 ^ 63
  standard : ∀ year time, (tzi.standardDate.year = 0 → IsYearOf year utc) →
    tzi.StandardCutover year time → time < 2 ^ 63

/-- The cutovers come in the order of the years and, around the time, in the order that they have
in its year; and only those of its own year may lie on either side of the time. -/
structure Undisturbed : Prop where
  inOrder : ∀ year year' daylight standard, tzi.DaylightCutover year daylight →
    tzi.StandardCutover year' standard →
      (year < year' → daylight < standard) ∧ (year' < year → standard < daylight)
  sameOrder : ∀ year daylight standard daylight' standard', IsYearOf year utc →
    tzi.DaylightCutover (year - 1) daylight → tzi.StandardCutover (year - 1) standard →
    tzi.DaylightCutover year daylight' → tzi.StandardCutover year standard' →
      (daylight < standard ↔ daylight' < standard')
  earlier : ∀ year year' time, IsYearOf year utc → year' < year →
    tzi.DaylightCutover year' time ∨ tzi.StandardCutover year' time → time ≤ utc
  later : ∀ year year' time, IsYearOf year utc → year < year' →
    tzi.DaylightCutover year' time ∨ tzi.StandardCutover year' time → utc < time

/-- What a right answer takes. -/
structure Needed : Prop where
  /-- A zone without cutovers has no bias of standard time. -/
  plain : ¬ tzi.HasDaylight → tzi.standardBias = 0
  /-- No date of the zone is over. -/
  standard_to_come : tzi.HasDaylight → tzi.standardDate.year ≠ 0 → utc ≤ tzi.standardDate.ticks
  daylight_to_come : tzi.HasDaylight → tzi.daylightDate.year ≠ 0 → utc ≤ tzi.daylightDate.ticks
  /-- A time before a cutover to standard time that comes first is not in daylight time. -/
  order : tzi.HasDaylight → tzi.Absolute → tzi.CutoversInRange utc →
    ∀ year year' daylight standard, tzi.DaylightCutover year daylight →
      tzi.StandardCutover year' standard →
        daylight < standard ∨ standard ≤ utc ∨ tzi.daylightBias = tzi.standardBias
  /-- The local time is a time. -/
  inRange : ∀ time, tzi.IsLocalTime utc time → 0 ≤ time ∧ time < 2 ^ 63

/-- What is enough for a right answer. -/
structure Handled : Prop where
  needed : tzi.Needed utc
  cutoversInRange : tzi.HasDaylight → tzi.CutoversInRange utc
  undisturbed : tzi.HasDaylight → ¬ tzi.Absolute → tzi.Undisturbed utc

end TimeZoneInformation

/-- The routine succeeds and gives the local time. -/
def Meets (conv : Conversions) (tzi : TimeZoneInformation) (universalTime : TimeFields) : Prop :=
  ∃ time, tzi.IsLocalTime universalTime.ticks time ∧ 0 ≤ time ∧ time < 2 ^ 63 ∧
    ∀ getTimeZoneInformation,
      systemTimeToTzSpecificLocalTime conv getTimeZoneInformation (some tzi) universalTime =
        .ok (conv.timeToTimeFields time)

section Answer

variable {conv : Conversions} {tzi : TimeZoneInformation} {utc : Int}

namespace TimeZoneInformation

/-- The dates of a zone with daylight time. -/
theorem Valid.dates (hvalid : tzi.Valid) (hdaylight : tzi.HasDaylight) :
    (ValidRule tzi.standardDate ∨ tzi.standardDate.Valid ∧ tzi.standardDate.year ≤ lastYear) ∧
    (ValidRule tzi.daylightDate ∨ tzi.daylightDate.Valid ∧ tzi.daylightDate.year ≤ lastYear) ∧
    (tzi.Absolute ∨ tzi.standardDate.year = 0 ∧ tzi.daylightDate.year = 0) := by
  cases hvalid with
  | plain hstandard _ => exact absurd hstandard hdaylight.1
  | recurring hstandard hdaylight =>
    exact ⟨Or.inl hstandard, Or.inl hdaylight, Or.inr ⟨hstandard.year, hdaylight.year⟩⟩
  | absolute hstandard hstandardLast hdaylight hdaylightLast =>
    have := hstandard.year_le
    have := hdaylight.year_le
    exact ⟨Or.inr ⟨hstandard, hstandardLast⟩, Or.inr ⟨hdaylight, hdaylightLast⟩,
      Or.inl ⟨by omega, by omega⟩⟩

/-- The two cutovers that the routine looks at, converted. -/
structure LookedAt (tzi : TimeZoneInformation) (utc : Int) (yearD daylight yearS standard : Int) :
    Prop where
  daylight : tzi.DaylightCutover yearD daylight
  daylightYear : tzi.daylightDate.year = 0 → IsYearOf yearD utc
  standard : tzi.StandardCutover yearS standard
  standardYear : tzi.standardDate.year = 0 → IsYearOf yearS utc

end TimeZoneInformation

open TimeZoneInformation

/-- No absolute date of the zone is over. -/
def ToCome (tzi : TimeZoneInformation) (utc : Int) : Prop :=
  (tzi.standardDate.year ≠ 0 → utc ≤ tzi.standardDate.ticks) ∧
    (tzi.daylightDate.year ≠ 0 → utc ≤ tzi.daylightDate.ticks)

/-- What the routine does in a zone with daylight time. -/
theorem localTimeIn_eq (hconv : conv.CalendarCorrect) (hvalid : tzi.Valid)
    (hfit : tzi.BiasesFit) (hdaylight : tzi.HasDaylight) {year : Int} (hyear : IsYearOf year utc)
    (hlast : year ≤ lastYear) (hlow : 0 ≤ utc) (hhigh : utc < 2 ^ 63) :
    ∃ yearD daylight yearS standard, LookedAt tzi utc yearD daylight yearS standard ∧
      (¬ ToCome tzi utc → localTimeIn conv tzi utc = .error .invalidParameter) ∧
      (ToCome tzi utc → tzi.CutoversInRange utc → localTimeIn conv tzi utc =
        fileTimeToSystemTime conv (int64 (utc - (ticksOfMinutes tzi.bias +
          ticksOfMinutes (if isDaylight utc daylight standard then tzi.daylightBias
            else tzi.standardBias))))) := by
  obtain ⟨hstandardDate, hdaylightDate, _⟩ := hvalid.dates hdaylight
  obtain ⟨yearS, standardTime, hstandard, hpositiveS, hyearS, hcutoverS⟩ :=
    cutover_looked_at hconv hstandardDate hyear hlast hlow hhigh
  obtain ⟨yearD, daylightTime, hdaylightTime, hpositiveD, hyearD, hcutoverD⟩ :=
    cutover_looked_at hconv hdaylightDate hyear hlast hlow hhigh
  have hbias := ticksOfMinutes_bounds hfit.bias
  have hbiasS := ticksOfMinutes_bounds hfit.standardBias
  have hbiasD := ticksOfMinutes_bounds hfit.daylightBias
  have hlooked : LookedAt tzi utc yearD
      (daylightTime + (ticksOfMinutes tzi.bias + ticksOfMinutes tzi.standardBias)) yearS
      (standardTime + (ticksOfMinutes tzi.bias + ticksOfMinutes tzi.daylightBias)) := {
    daylight := by
      unfold TimeZoneInformation.DaylightCutover
      convert hdaylightTime using 1
      omega
    daylightYear := fun h => by rw [hyearD h]; exact hyear
    standard := by
      unfold TimeZoneInformation.StandardCutover
      convert hstandard using 1
      omega
    standardYear := fun h => by rw [hyearS h]; exact hyear }
  refine ⟨yearD, _, yearS, _, hlooked, ?_, ?_⟩
  · intro hover
    unfold localTimeIn
    dsimp only
    rw [if_pos (show _ ∧ _ from hdaylight), hcutoverS, hcutoverD]
    by_cases hstandardOver : tzi.standardDate.year ≠ 0 → utc ≤ tzi.standardDate.ticks
    · rw [decide_eq_true hstandardOver, decide_eq_false fun h => hover ⟨hstandardOver, h⟩]
    · rw [decide_eq_false hstandardOver]
  · intro hcome hrange
    have hrangeD := hrange.daylight _ _ hlooked.daylightYear hlooked.daylight
    have hrangeS := hrange.standard _ _ hlooked.standardYear hlooked.standard
    unfold localTimeIn
    dsimp only
    rw [if_pos (show _ ∧ _ from hdaylight), hcutoverS, hcutoverD, decide_eq_true hcome.1,
      decide_eq_true hcome.2]
    dsimp only
    rw [sumOfBiases hfit.bias hfit.standardBias, sumOfBiases hfit.bias hfit.daylightBias,
      int64_of_fits (by omega) hrangeD, int64_of_fits (by omega) hrangeS]
    split_ifs
    · rw [sumOfBiases hfit.bias hfit.daylightBias]
    · rw [sumOfBiases hfit.bias hfit.standardBias]

/-! ### The choice of the bias -/

theorem isDaylight_iff (utc daylight standard : Int) :
    isDaylight utc daylight standard = true ↔
      if daylight < standard then daylight ≤ utc ∧ utc < standard
      else ¬ (standard ≤ utc ∧ utc < daylight) := by
  unfold isDaylight
  split_ifs
  · simp
  · simp
    omega

theorem DaylightCutover.unique {year time time' : Int} (h : tzi.DaylightCutover year time)
    (h' : tzi.DaylightCutover year time') : time' = time := by
  have := CutoverIn.unique h h'
  omega

theorem StandardCutover.unique {year time time' : Int} (h : tzi.StandardCutover year time)
    (h' : tzi.StandardCutover year time') : time' = time := by
  have := CutoverIn.unique h h'
  omega

/-- A rule has a cutover in every year. -/
theorem exists_cutover {date : TimeFields} (hrule : ValidRule date) (year offset : Int) :
    ∃ time, CutoverIn date year (time - offset) := by
  obtain ⟨day, hday⟩ := exists_isNthWeekday year date.month hrule.weekday_nonneg
    hrule.weekday_lt hrule.day_pos hrule.day_le
  refine ⟨({ date with year := year, day := day } : TimeFields).ticks + offset, ?_⟩
  unfold CutoverIn
  rw [if_pos hrule.year]
  exact ⟨day, hday, by omega⟩

/-- With rules, the two cutovers of the year decide when no other cutover comes between. -/
theorem isDaylight_of_undisturbed (hdaylight : tzi.HasDaylight)
    (hruleD : ValidRule tzi.daylightDate) (hruleS : ValidRule tzi.standardDate)
    (h : tzi.Undisturbed utc) {year daylight standard : Int} (hyear : IsYearOf year utc)
    (hD : tzi.DaylightCutover year daylight) (hS : tzi.StandardCutover year standard) :
    isDaylight utc daylight standard = true ↔ tzi.InDaylight utc := by
  obtain ⟨before, hbefore⟩ : ∃ time, tzi.DaylightCutover (year - 1) time := by
    obtain ⟨time, htime⟩ := exists_cutover hruleD (year - 1)
      (ticksOfMinutes tzi.bias + ticksOfMinutes tzi.standardBias)
    refine ⟨time, ?_⟩
    unfold TimeZoneInformation.DaylightCutover
    rwa [Int.sub_sub]
  obtain ⟨beforeS, hbeforeS⟩ : ∃ time, tzi.StandardCutover (year - 1) time := by
    obtain ⟨time, htime⟩ := exists_cutover hruleS (year - 1)
      (ticksOfMinutes tzi.bias + ticksOfMinutes tzi.daylightBias)
    refine ⟨time, ?_⟩
    unfold TimeZoneInformation.StandardCutover
    rwa [Int.sub_sub]
  have horder := h.sameOrder _ _ _ _ _ hyear hbefore hbeforeS hD hS
  have hearlier := h.earlier _ (year - 1) before hyear (by omega) (Or.inl hbefore)
  have hearlierS := h.earlier _ (year - 1) beforeS hyear (by omega) (Or.inr hbeforeS)
  rw [isDaylight_iff]
  constructor
  · intro hdecided
    -- the cutover that starts the interval, and the ones to standard time around it
    have hfrom : ∀ {year' start}, tzi.DaylightCutover year' start → start ≤ utc → year' ≤ year →
        (∀ standard', tzi.StandardCutover year' standard' → start < standard' →
          utc < standard') →
        (year' < year → utc < standard ∧ year' = year - 1) → tzi.InDaylight utc := by
      intro year' start hstart hle hyear' hown hlast
      refine ⟨hdaylight, year', start, hstart, hle, fun yearS standard' hS' hlt => ?_⟩
      rcases Int.lt_trichotomy yearS year' with hbefore' | rfl | hafter'
      · have := (h.inOrder _ _ _ _ hstart hS').2 hbefore'
        omega
      · exact hown _ hS' hlt
      · by_cases hlater : year < yearS
        · exact h.later _ _ _ hyear hlater (Or.inr hS')
        · obtain ⟨hutc, hprevious⟩ := hlast (by omega)
          obtain rfl : yearS = year := by omega
          rwa [StandardCutover.unique hS hS']
    by_cases hlt : daylight < standard
    · rw [if_pos hlt] at hdecided
      refine hfrom hD hdecided.1 (Int.le_refl _) (fun standard' hS' _ => ?_)
        (fun h => absurd h (Int.lt_irrefl _))
      rw [StandardCutover.unique hS hS']
      exact hdecided.2
    · rw [if_neg hlt] at hdecided
      by_cases hover : standard ≤ utc
      · refine hfrom hD (by omega) (Int.le_refl _) (fun standard' hS' hlt' => ?_)
          (fun h => absurd h (Int.lt_irrefl _))
        rw [StandardCutover.unique hS hS'] at hlt'
        exact absurd hlt' hlt
      · refine hfrom hbefore hearlier (by omega) (fun standard' hS' hlt' => ?_)
          fun _ => ⟨by omega, rfl⟩
        rw [StandardCutover.unique hbeforeS hS'] at hlt'
        exact absurd (horder.mp hlt') hlt
  · rintro ⟨_, year', start, hstart, hle, hnext⟩
    rcases Int.lt_trichotomy year' year with hbefore' | rfl | hafter'
    · -- a cutover of an earlier year: the one to standard time of the year is the next
      have hS' := (h.inOrder _ _ _ _ hstart hS).1 hbefore'
      have hutc := hnext _ _ hS hS'
      by_cases hlt : daylight < standard
      · exfalso
        have hstartS : start < beforeS := by
          by_cases hprevious : year' = year - 1
          · subst hprevious
            rw [DaylightCutover.unique hbefore hstart]
            exact horder.mpr hlt
          · exact (h.inOrder _ _ _ _ hstart hbeforeS).1 (by omega)
        have := hnext _ _ hbeforeS hstartS
        omega
      · rw [if_neg hlt]
        omega
    · rw [DaylightCutover.unique hD hstart] at hle hnext
      split_ifs with hlt
      · exact ⟨hle, hnext _ _ hS hlt⟩
      · omega
    · have := h.later _ _ _ hyear hafter' (Or.inl hstart)
      omega

/-- A date of one year is one cutover. -/
theorem cutover_of_date {date : TimeFields} {year year' time time' : Int} (hne : date.year ≠ 0)
    (h : CutoverIn date year time) (h' : CutoverIn date year' time') : time' = time := by
  unfold CutoverIn at h h'
  rw [if_neg hne] at h h'
  rw [h.2, h'.2]

/-- With dates of one year there is one cutover of each kind. -/
theorem inDaylight_iff_of_absolute (hdaylight : tzi.HasDaylight) (habsolute : tzi.Absolute)
    {yearD yearS daylight standard : Int} (hD : tzi.DaylightCutover yearD daylight)
    (hS : tzi.StandardCutover yearS standard) :
    tzi.InDaylight utc ↔ daylight ≤ utc ∧ (daylight < standard → utc < standard) := by
  constructor
  · rintro ⟨_, year', start, hstart, hle, hnext⟩
    have := cutover_of_date habsolute.2 hD hstart
    obtain rfl : start = daylight := by omega
    exact ⟨hle, fun hlt => hnext _ _ hS hlt⟩
  · rintro ⟨hle, hnext⟩
    refine ⟨hdaylight, yearD, daylight, hD, hle, fun yearS' standard' hS' hlt => ?_⟩
    have := cutover_of_date habsolute.1 hS hS'
    obtain rfl : standard' = standard := by omega
    exact hnext hlt

/-! ### The local time as the routine computes it -/

theorem ticks_mod (f : TimeFields) : f.ticks % 10000 = 0 := by
  unfold TimeFields.ticks TimeFields.timeOfDay ticksPerDay
  omega

/-- Whole milliseconds with the same fields are the same. -/
theorem eq_of_fields (hconv : conv.CalendarCorrect) {time time' : Int} (hmod : time % 10000 = 0)
    (hlow : 0 ≤ time) (hhigh : time < 2 ^ 63) (hmod' : time' % 10000 = 0) (hlow' : 0 ≤ time')
    (hhigh' : time' < 2 ^ 63)
    (hfields : conv.timeToTimeFields time = conv.timeToTimeFields time') : time = time' := by
  obtain ⟨_, hle, hlt, _⟩ := hconv.toFields time hlow hhigh
  obtain ⟨_, hle', hlt', _⟩ := hconv.toFields time' hlow' hhigh'
  have := ticks_mod (conv.timeToTimeFields time)
  rw [hfields] at *
  omega

theorem fileTimeToSystemTime_of_inRange {time : Int} (hlow : 0 ≤ time) (hhigh : time < 2 ^ 63) :
    fileTimeToSystemTime conv (int64 time) = .ok (conv.timeToTimeFields time) := by
  rw [int64_of_fits (by omega) hhigh, fileTimeToSystemTime, if_neg (by omega)]

/-- A time that has wrapped is negative. -/
theorem inRange_of_fileTimeToSystemTime {time : Int} {f : TimeFields} (hlow : -2 ^ 62 < time)
    (hhigh : time < 2 ^ 63 + 2 ^ 62) (h : fileTimeToSystemTime conv (int64 time) = .ok f) :
    0 ≤ time ∧ time < 2 ^ 63 ∧ f = conv.timeToTimeFields time := by
  by_cases hfits : time < 2 ^ 63
  · rw [int64_of_fits (by omega) hfits] at h
    unfold fileTimeToSystemTime at h
    split_ifs at h with hnegative
    exact ⟨by omega, hfits, (Except.ok.inj h).symm⟩
  · have hwrapped : int64 time < 0 := by
      unfold int64
      rw [Int.bmod_def]
      omega
    rw [fileTimeToSystemTime, if_pos hwrapped] at h
    cases h

theorem IsLocalTime.unique {time time' : Int} (h : tzi.IsLocalTime utc time)
    (h' : tzi.IsLocalTime utc time') : time' = time := by
  rcases h with ⟨hin, rfl⟩ | ⟨hout, rfl⟩ <;> rcases h' with ⟨hin', rfl⟩ | ⟨hout', rfl⟩
  · rfl
  · exact absurd hin hout'
  · exact absurd hin' hout
  · rfl

theorem exists_isLocalTime (tzi : TimeZoneInformation) (utc : Int) :
    ∃ time, tzi.IsLocalTime utc time := by
  by_cases h : tzi.InDaylight utc
  · exact ⟨_, Or.inl ⟨h, rfl⟩⟩
  · exact ⟨_, Or.inr ⟨h, rfl⟩⟩

/-- The zone is there, and so is the time. -/
theorem systemTimeToTz_eq (hconv : conv.CalendarCorrect) {universalTime : TimeFields}
    (huniversal : universalTime.Valid) (hlast : universalTime.year ≤ lastYear)
    (getTimeZoneInformation : Except NtStatus TimeZoneInformation) :
    systemTimeToTzSpecificLocalTime conv getTimeZoneInformation (some tzi) universalTime =
      localTimeIn conv tzi universalTime.ticks := by
  have hvalid : TimeFields.Valid { universalTime with weekday := 0 } :=
    ⟨huniversal.year_le, huniversal.date, huniversal.time.withDate _ _ _⟩
  unfold systemTimeToTzSpecificLocalTime systemTimeToFileTime
  rw [hconv.toTime _ hvalid hlast]
  rfl

theorem localTimeIn_plain (hfit : tzi.BiasesFit) (hplain : ¬ tzi.HasDaylight) (utc : Int) :
    localTimeIn conv tzi utc =
      fileTimeToSystemTime conv (int64 (utc - ticksOfMinutes tzi.bias)) := by
  unfold localTimeIn
  dsimp only
  rw [if_neg (show ¬ (_ ∧ _) from hplain), biasOfMinutes_eq hfit.bias]

theorem not_inDaylight_of_plain (hplain : ¬ tzi.HasDaylight) : ¬ tzi.InDaylight utc :=
  fun h => hplain h.1

/-! ### Right answers -/

section Right

set_option linter.unusedSectionVars false

variable {universalTime : TimeFields} (hconv : conv.CalendarCorrect) (hvalid : tzi.Valid)
  (hfit : tzi.BiasesFit) (huniversal : universalTime.Valid)
  (hlast : universalTime.year ≤ lastYear)

include hconv hvalid hfit huniversal hlast

/-- The bias that the routine chooses is that of the local time. -/
theorem isLocalTime_of_handled (hdaylight : tzi.HasDaylight)
    (h : tzi.Handled universalTime.ticks) {yearD daylight yearS standard : Int}
    (hlooked : LookedAt tzi universalTime.ticks yearD daylight yearS standard) :
    tzi.IsLocalTime universalTime.ticks (universalTime.ticks - (ticksOfMinutes tzi.bias +
      ticksOfMinutes (if isDaylight universalTime.ticks daylight standard then tzi.daylightBias
        else tzi.standardBias))) := by
  have hchoice : (isDaylight universalTime.ticks daylight standard = true ↔
      tzi.InDaylight universalTime.ticks) ∨ tzi.daylightBias = tzi.standardBias := by
    cases hvalid with
    | plain hstandard _ => exact absurd hstandard hdaylight.1
    | recurring hruleS hruleD =>
      have hyear := hlooked.standardYear hruleS.year
      have hsame := hyear.unique (hlooked.daylightYear hruleD.year)
      have hD := hlooked.daylight
      rw [hsame] at hD
      exact Or.inl (isDaylight_of_undisturbed hdaylight hruleD hruleS
        (h.undisturbed hdaylight fun habsolute => habsolute.1 hruleS.year) hyear hD
        hlooked.standard)
    | absolute hdateS _ hdateD _ =>
      have habsolute : tzi.Absolute := by
        have := hdateS.year_le
        have := hdateD.year_le
        exact ⟨by omega, by omega⟩
      rcases h.needed.order hdaylight habsolute (h.cutoversInRange hdaylight) _ _ _ _
        hlooked.daylight hlooked.standard with hlt | hover | hsame
      · left
        rw [isDaylight_iff, if_pos hlt,
          inDaylight_iff_of_absolute hdaylight habsolute hlooked.daylight hlooked.standard]
        simp [hlt]
      · left
        rw [isDaylight_iff,
          inDaylight_iff_of_absolute hdaylight habsolute hlooked.daylight hlooked.standard]
        split_ifs <;> omega
      · exact Or.inr hsame
  rcases hchoice with hiff | hsame
  · by_cases hin : tzi.InDaylight universalTime.ticks
    · rw [if_pos (hiff.mpr hin)]
      exact Or.inl ⟨hin, by omega⟩
    · rw [if_neg fun hdecided => hin (hiff.mp hdecided)]
      exact Or.inr ⟨hin, by omega⟩
  · rw [hsame, ite_self]
    by_cases hin : tzi.InDaylight universalTime.ticks
    · exact Or.inl ⟨hin, by rw [hsame]; omega⟩
    · exact Or.inr ⟨hin, by omega⟩

theorem meets_of_handled (h : tzi.Handled universalTime.ticks) : Meets conv tzi universalTime := by
  have hlow := huniversal.ticks_bounds.1
  have hhigh := huniversal.ticks_bounds.2 hlast
  have hyear := huniversal.isYearOf (Int.le_refl _) (by omega)
  by_cases hdaylight : tzi.HasDaylight
  · obtain ⟨yearD, daylight, yearS, standard, hlooked, _, heq⟩ :=
      localTimeIn_eq hconv hvalid hfit hdaylight hyear hlast hlow hhigh
    have htime := isLocalTime_of_handled hconv hvalid hfit huniversal hlast hdaylight h hlooked
    have hrange := h.needed.inRange _ htime
    refine ⟨_, htime, hrange.1, hrange.2, fun query => ?_⟩
    rw [systemTimeToTz_eq hconv huniversal hlast, heq
      ⟨h.needed.standard_to_come hdaylight, h.needed.daylight_to_come hdaylight⟩
      (h.cutoversInRange hdaylight), fileTimeToSystemTime_of_inRange hrange.1 hrange.2]
  · have htime : tzi.IsLocalTime universalTime.ticks
        (universalTime.ticks - ticksOfMinutes tzi.bias) := by
      refine Or.inr ⟨not_inDaylight_of_plain hdaylight, ?_⟩
      rw [h.needed.plain hdaylight]
      simp [ticksOfMinutes]
    have hrange := h.needed.inRange _ htime
    refine ⟨_, htime, hrange.1, hrange.2, fun query => ?_⟩
    rw [systemTimeToTz_eq hconv huniversal hlast, localTimeIn_plain hfit hdaylight,
      fileTimeToSystemTime_of_inRange hrange.1 hrange.2]

/-- An absolute date that is over makes the conversion fail. -/
theorem toCome_of_meets (hdaylight : tzi.HasDaylight) (h : Meets conv tzi universalTime) :
    ToCome tzi universalTime.ticks := by
  have hyear := huniversal.isYearOf (Int.le_refl _) (by omega)
  obtain ⟨yearD, daylight, yearS, standard, _, hover, _⟩ :=
    localTimeIn_eq hconv hvalid hfit hdaylight hyear hlast huniversal.ticks_bounds.1
      (huniversal.ticks_bounds.2 hlast)
  obtain ⟨time, _, _, _, hrun⟩ := h
  by_contra hnot
  have hfailed := hrun (.error .invalidParameter)
  rw [systemTimeToTz_eq hconv huniversal hlast, hover hnot] at hfailed
  cases hfailed

/-- The time that the routine has computed is the local time. -/
theorem eq_of_meets {time : Int} (hfar : -2 ^ 62 < time ∧ time < 2 ^ 63 + 2 ^ 62)
    (hmod : time % 10000 = 0)
    (heq : localTimeIn conv tzi universalTime.ticks = fileTimeToSystemTime conv (int64 time))
    (h : Meets conv tzi universalTime) : tzi.IsLocalTime universalTime.ticks time := by
  obtain ⟨localTime, hlocal, hlow, hhigh, hrun⟩ := h
  have hresult := hrun (.error .invalidParameter)
  rw [systemTimeToTz_eq hconv huniversal hlast, heq] at hresult
  obtain ⟨htimeLow, htimeHigh, hfields⟩ :=
    inRange_of_fileTimeToSystemTime hfar.1 hfar.2 hresult
  have hmodLocal : localTime % 10000 = 0 := by
    have := ticks_mod universalTime
    unfold TimeZoneInformation.IsLocalTime ticksOfMinutes at hlocal
    omega
  rw [eq_of_fields hconv hmod htimeLow htimeHigh hmodLocal hlow hhigh hfields.symm]
  exact hlocal

theorem needed_of_meets (h : Meets conv tzi universalTime) : tzi.Needed universalTime.ticks := by
  have hlow := huniversal.ticks_bounds.1
  have hhigh := huniversal.ticks_bounds.2 hlast
  have hyear := huniversal.isYearOf (Int.le_refl _) (by omega)
  have hmod := ticks_mod universalTime
  have hbias := ticksOfMinutes_bounds hfit.bias
  exact {
    plain := by
      intro hplain
      have htime := eq_of_meets hconv hvalid hfit huniversal hlast (by omega)
        (by unfold ticksOfMinutes; omega)
        (localTimeIn_plain hfit hplain universalTime.ticks) h
      rcases htime with ⟨hin, _⟩ | ⟨_, heq⟩
      · exact absurd hin (not_inDaylight_of_plain hplain)
      · unfold ticksOfMinutes at heq
        omega
    standard_to_come := fun hdaylight =>
      (toCome_of_meets hconv hvalid hfit huniversal hlast hdaylight h).1
    daylight_to_come := fun hdaylight =>
      (toCome_of_meets hconv hvalid hfit huniversal hlast hdaylight h).2
    order := by
      intro hdaylight habsolute hrange yearD yearS daylight standard hD hS
      by_contra hnot
      obtain ⟨yearD', daylight', yearS', standard', hlooked, _, heq⟩ :=
        localTimeIn_eq hconv hvalid hfit hdaylight hyear hlast hlow hhigh
      have hsameD := cutover_of_date habsolute.2 hD hlooked.daylight
      have hsameS := cutover_of_date habsolute.1 hS hlooked.standard
      obtain rfl : daylight' = daylight := by omega
      obtain rfl : standard' = standard := by omega
      have hcome := toCome_of_meets hconv hvalid hfit huniversal hlast hdaylight h
      have hchosen : isDaylight universalTime.ticks daylight' standard' = true := by
        rw [isDaylight_iff]
        split_ifs <;> omega
      have hbiasD := ticksOfMinutes_bounds hfit.daylightBias
      have hanswer := heq hcome hrange
      rw [if_pos hchosen] at hanswer
      have htime := eq_of_meets hconv hvalid hfit huniversal hlast (by omega)
        (by unfold ticksOfMinutes; omega) hanswer h
      rcases htime with ⟨hin, _⟩ | ⟨_, hbiases⟩
      · rw [inDaylight_iff_of_absolute hdaylight habsolute hlooked.daylight hlooked.standard] at hin
        omega
      · unfold ticksOfMinutes at hbiases
        omega
    inRange := by
      intro time htime
      obtain ⟨localTime, hlocal, hlocalLow, hlocalHigh, _⟩ := h
      rw [IsLocalTime.unique hlocal htime]
      exact ⟨hlocalLow, hlocalHigh⟩ }

end Right

end Answer

/-- When no conversion carries a cutover into another year, no cutover comes between. -/
theorem undisturbed_of_sameYear {tzi : TimeZoneInformation} {utc : Int}
    (hD : ∀ year time, tzi.DaylightCutover year time → IsYearOf year time)
    (hS : ∀ year time, tzi.StandardCutover year time → IsYearOf year time)
    (horder : ∀ year daylight standard, tzi.DaylightCutover year daylight →
      tzi.StandardCutover year standard → daylight < standard) : tzi.Undisturbed utc := by
  have hbefore : ∀ {year year' time time' : Int}, IsYearOf year time → IsYearOf year' time' →
      year < year' → time < time' := by
    intro year year' time time' h h' hlt
    have := daysBeforeYear_mono (show year + 1 ≤ year' by omega)
    unfold IsYearOf ticksPerDay at h h'
    omega
  exact {
    inOrder := by
      intro year year' daylight standard hdaylight hstandard
      have hyear := hD _ _ hdaylight
      have hyear' := hS _ _ hstandard
      exact ⟨hbefore hyear hyear', hbefore hyear' hyear⟩
    sameOrder := by
      intro year daylight standard daylight' standard' _ hd hs hd' hs'
      exact iff_of_true (horder _ _ _ hd hs) (horder _ _ _ hd' hs')
    earlier := by
      intro year year' time hutc hlt htime
      have hyear' : IsYearOf year' time := htime.elim (hD _ _) (hS _ _)
      exact Int.le_of_lt (hbefore hyear' hutc hlt)
    later := by
      intro year year' time hutc hlt htime
      have hyear' : IsYearOf year' time := htime.elim (hD _ _) (hS _ _)
      exact hbefore hutc hyear' hlt }

/-- The cutovers of a rule lie in its month. -/
theorem cutover_month {rule : TimeFields} (hrule : ValidRule rule) {year time : Int}
    (h : CutoverIn rule year time) :
    (daysBeforeYear year + daysBeforeMonth year rule.month) * ticksPerDay ≤ time ∧
      time < (daysBeforeYear year + daysBeforeMonth year rule.month + 31) * ticksPerDay := by
  unfold CutoverIn at h
  rw [if_pos hrule.year] at h
  obtain ⟨day, hday, rfl⟩ := h
  have htime := (hrule.time.withDate year day rule.weekday).bounds
  have hmonth := daysInMonth_bounds year rule.month
  have hlow := hday.day_pos
  have hhigh := hday.day_le
  unfold TimeFields.ticks dayNumber
  unfold ticksPerDay at *
  dsimp only at *
  omega

/-- One hour ahead of universal time, two hours from the last Sunday in March to the last Sunday
in October. -/
def centralEurope : TimeZoneInformation where
  bias := -60
  standardDate := ⟨0, 10, 5, 3, 0, 0, 0, 0⟩
  standardBias := 0
  daylightDate := ⟨0, 3, 5, 2, 0, 0, 0, 0⟩
  daylightBias := -60

theorem centralEurope_rules :
    ValidRule centralEurope.standardDate ∧ ValidRule centralEurope.daylightDate :=
  ⟨⟨rfl, by decide, by decide, by decide, by decide, by decide, by decide, by decide⟩,
    ⟨rfl, by decide, by decide, by decide, by decide, by decide, by decide, by decide⟩⟩

/-- March starts with day 59 or 60 of a year, October with day 273 or 274. -/
theorem centralEurope_months (year : Int) :
    59 ≤ daysBeforeMonth year 3 ∧ daysBeforeMonth year 3 ≤ 60 ∧ 273 ≤ daysBeforeMonth year 10 ∧
      daysBeforeMonth year 10 ≤ 274 := by
  unfold daysBeforeMonth
  by_cases hleap : IsLeap year <;> simp [hleap]

theorem centralEurope_cutovers {year time : Int} :
    (centralEurope.DaylightCutover year time →
      (daysBeforeYear year + 58) * ticksPerDay ≤ time ∧
        time < (daysBeforeYear year + 92) * ticksPerDay) ∧
    (centralEurope.StandardCutover year time →
      (daysBeforeYear year + 272) * ticksPerDay ≤ time ∧
        time < (daysBeforeYear year + 306) * ticksPerDay) := by
  have hmonths := centralEurope_months year
  constructor
  · intro h
    have := cutover_month centralEurope_rules.2 h
    change (daysBeforeYear year + daysBeforeMonth year 3) * 864000000000 ≤
      time - (-60 * 600000000) - 0 * 600000000 ∧ time - (-60 * 600000000) - 0 * 600000000 <
        (daysBeforeYear year + daysBeforeMonth year 3 + 31) * 864000000000 at this
    unfold ticksPerDay
    omega
  · intro h
    have := cutover_month centralEurope_rules.1 h
    change (daysBeforeYear year + daysBeforeMonth year 10) * 864000000000 ≤
      time - (-60 * 600000000) - -60 * 600000000 ∧ time - (-60 * 600000000) - -60 * 600000000 <
        (daysBeforeYear year + daysBeforeMonth year 10 + 31) * 864000000000 at this
    unfold ticksPerDay
    omega

theorem centralEurope_undisturbed (utc : Int) : centralEurope.Undisturbed utc := by
  have hyear : ∀ year, daysBeforeYear year + 365 ≤ daysBeforeYear (year + 1) := by
    intro year
    rw [daysBeforeYear_succ]
    unfold daysInYear
    split_ifs <;> omega
  apply undisturbed_of_sameYear
  · intro year time h
    have := centralEurope_cutovers.1 h
    have := hyear year
    unfold IsYearOf ticksPerDay at *
    omega
  · intro year time h
    have := centralEurope_cutovers.2 h
    have := hyear year
    unfold IsYearOf ticksPerDay at *
    omega
  · intro year daylight standard hD hS
    have := centralEurope_cutovers.1 hD
    have := centralEurope_cutovers.2 hS
    unfold ticksPerDay at *
    omega

/-- Such a zone is handled at every time but the last. -/
theorem centralEurope_handled {utc : Int} (hlow : 0 ≤ utc) (hhigh : utc < 2 ^ 62) :
    centralEurope.Handled utc where
  needed := {
    plain := fun hplain => absurd ⟨by decide, by decide⟩ hplain
    standard_to_come := fun _ h => absurd rfl h
    daylight_to_come := fun _ h => absurd rfl h
    order := fun _ habsolute => absurd rfl habsolute.1
    inRange := by
      rintro time (⟨_, rfl⟩ | ⟨_, rfl⟩)
      · change 0 ≤ utc - -60 * 600000000 - -60 * 600000000 ∧
          utc - -60 * 600000000 - -60 * 600000000 < 2 ^ 63
        omega
      · change 0 ≤ utc - -60 * 600000000 - 0 * 600000000 ∧
          utc - -60 * 600000000 - 0 * 600000000 < 2 ^ 63
        omega }
  cutoversInRange _ := {
    daylight := by
      intro year time hyear h
      have := centralEurope_cutovers.1 h
      have := hyear rfl
      unfold IsYearOf ticksPerDay at *
      omega
    standard := by
      intro year time hyear h
      have := centralEurope_cutovers.2 h
      have := hyear rfl
      unfold IsYearOf ticksPerDay at *
      omega }
  undisturbed _ _ := centralEurope_undisturbed utc

theorem centralEurope_valid : centralEurope.Valid :=
  .recurring centralEurope_rules.1 centralEurope_rules.2

theorem centralEurope_biasesFit : centralEurope.BiasesFit :=
  ⟨⟨by decide, by decide⟩, ⟨by decide, by decide⟩, ⟨by decide, by decide⟩⟩

/-- July 1st, 2020, at noon. -/
def noonInJuly : TimeFields := ⟨2020, 7, 1, 12, 0, 0, 0, 3⟩

/-- Daylight time from March 11th to November 4th, 2007. -/
def summerOf2007 : TimeZoneInformation where
  bias := 300
  standardDate := ⟨2007, 11, 4, 2, 0, 0, 0, 0⟩
  standardBias := 0
  daylightDate := ⟨2007, 3, 11, 2, 0, 0, 0, 0⟩
  daylightBias := -60

theorem summerOf2007_valid : summerOf2007.Valid :=
  .absolute (by decide) (by decide) (by decide) (by decide)

theorem summerOf2007_biasesFit : summerOf2007.BiasesFit :=
  ⟨⟨by decide, by decide⟩, ⟨by decide, by decide⟩, ⟨by decide, by decide⟩⟩

end Ldk.Time
