import NextInfra.Lib.Calendar
import NextInfra.Query.Timestamp

/-!
# The day conversions of timestamps

`civil_from_days` and `days_from_civil` convert between a date of the calendar and its
number. They are inverse to each other on the days from 1970 on that timestamps have, and
there no step of the first leaves `i64`, so neither does `format_timestamp`.
-/

namespace NextInfra

open Calendar Sql

/-! ## §1  `i64` -/

theorem wrapI64_of_mem {value : Int} (h : -(2 ^ 63) ≤ value) (h' : value < 2 ^ 63) :
    wrapI64 value = value := by
  unfold wrapI64
  exact Int.bmod_eq_of_le (by omega) (by omega)

theorem checkedI64_of_mem {value : Int} (h : -(2 ^ 63) ≤ value) (h' : value < 2 ^ 63) :
    checkedI64 value = some value := if_pos ⟨h, h'⟩

theorem checkedI64_eq_some_iff {value result : Int} :
    checkedI64 value = some result ↔
      value = result ∧ -(2 ^ 63) ≤ value ∧ value < 2 ^ 63 := by
  unfold checkedI64
  split
  · rename_i hin
    exact ⟨fun h => ⟨Option.some.inj h, hin⟩, fun h => congrArg some h.1⟩
  · rename_i hout
    exact ⟨fun h => absurd h (by simp), fun h => absurd h.2 hout⟩

/-! ## §2  Days and dates -/

/-- The date of a day from the first of March of the year 0 on. -/
theorem civilFromDays_number (d : Date) (h : 0 ≤ d.number + 719468) :
    civilFromDays d.number = (d.year, d.month, d.day) := by
  have hera := d.inEra
  have hbounds := hera.dayOfEra_bounds
  have hnumber := d.number_eq
  have hdivided : (d.number + 719468) / 146097 = d.marchYear / 400 := by omega
  have hdoe : d.number + 719468 - d.marchYear / 400 * 146097 =
      dayOfEra (d.marchYear % 400) d.dayOfYear := by omega
  have hyoe := hera.yearOfEra_eq rfl
  have hdoy : dayOfEra (d.marchYear % 400) d.dayOfYear -
      (365 * (d.marchYear % 400) + d.marchYear % 400 / 4 - d.marchYear % 400 / 100) =
        d.dayOfYear := by
    unfold dayOfEra
    omega
  have hmonth := d.month_in
  have hyear := hera.year_nonneg
  have hmarch : d.marchYear % 400 + d.marchYear / 400 * 400 = d.marchYear := by omega
  unfold civilFromDays
  simp only [if_pos h, ← Int.div_def, hdivided, hdoe]
  rw [Int.tdiv_eq_ediv_of_nonneg hbounds.1, Int.tdiv_eq_ediv_of_nonneg hbounds.1,
    Int.tdiv_eq_ediv_of_nonneg hbounds.1, hyoe, Int.tdiv_eq_ediv_of_nonneg hyear,
    Int.tdiv_eq_ediv_of_nonneg hyear, hdoy, d.monthPart_eq, hmarch]
  have hday : d.dayOfYear - (153 * d.monthPart + 2) / 5 + 1 = d.day := by
    unfold Date.dayOfYear beforeMonthPart
    omega
  have hback : d.monthPart + (if d.monthPart < 10 then 3 else -9) = d.month := by
    unfold Date.monthPart
    split <;> split <;> omega
  rw [hday, hback]
  unfold Date.marchYear
  split <;> simp

/-- The month table of `days_from_civil`. -/
theorem monthDays_eq {year month : Int} (h : 1 ≤ month ∧ month ≤ 12) :
    (([31, 28, 31, 30, 31, 30, 31, 31, 30, 31, 30, 31] : List Int).getD (month - 1).toNat 0 +
      if month == 2 && (year.tmod 4 == 0 && (year.tmod 100 != 0 || year.tmod 400 == 0)) then 1
      else 0) = monthLength year month := by
  have hleap : (year.tmod 4 == 0 && (year.tmod 100 != 0 || year.tmod 400 == 0)) =
      decide (IsLeap year) := by
    have h4 : year.tmod 4 = 0 ↔ year % 4 = 0 := by
      rw [← Int.dvd_iff_tmod_eq_zero, Int.dvd_iff_emod_eq_zero]
    have h100 : year.tmod 100 = 0 ↔ year % 100 = 0 := by
      rw [← Int.dvd_iff_tmod_eq_zero, Int.dvd_iff_emod_eq_zero]
    have h400 : year.tmod 400 = 0 ↔ year % 400 = 0 := by
      rw [← Int.dvd_iff_tmod_eq_zero, Int.dvd_iff_emod_eq_zero]
    rw [Bool.eq_iff_iff, decide_eq_true_iff]
    simp [IsLeap, h4, h100, h400]
  obtain ⟨hmonth, hmonth'⟩ := h
  rw [hleap]
  interval_cases month <;> by_cases hyear : IsLeap year <;> simp [monthLength, hyear]

/-- The day count of a date from the year of its March on, without the wraps. -/
theorem daysFromCivil_march {year month day : Int} (hyear : 0 ≤ year) (hyear' : year < 2 ^ 63)
    (d : Date) (hd : d.year = year ∧ d.month = month ∧ d.day = day) :
    daysFromCivil year month day =
      ((checkedI64 (d.marchYear / 400 * 146097)).bind fun value =>
        (checkedI64 (value + dayOfEra (d.marchYear % 400) d.dayOfYear)).bind fun value =>
          checkedI64 (value - 719468)) := by
  obtain ⟨rfl, rfl, rfl⟩ := hd
  have hmonth := d.month_in
  have hday := d.day_in
  have hadjusted : wrapI64 (d.year - if d.month ≤ 2 then 1 else 0) = d.marchYear :=
    wrapI64_of_mem (by split <;> omega) (by split <;> omega)
  have hlow : -1 ≤ d.marchYear ∧ d.marchYear < 2 ^ 63 := by
    unfold Date.marchYear
    split <;> omega
  have hera : (if 0 ≤ d.marchYear then d.marchYear else wrapI64 (d.marchYear - 399)) / 400 =
      d.marchYear / 400 := by
    split
    · rfl
    · rw [wrapI64_of_mem (by omega) (by omega)]
      omega
  have hstart : wrapI64 (d.marchYear / 400 * 400) = d.marchYear / 400 * 400 :=
    wrapI64_of_mem (by omega) (by omega)
  have hyoe : wrapI64 (d.marchYear - d.marchYear / 400 * 400) = d.marchYear % 400 := by
    rw [wrapI64_of_mem (by omega) (by omega)]
    omega
  have hin := d.inEra
  have hdoe : wrapI64 (d.marchYear % 400 * 365) + (d.marchYear % 400) / 4 -
      (d.marchYear % 400) / 100 +
      ((153 * (d.month + if 2 < d.month then -3 else 9) + 2) / 5 + d.day - 1) =
        dayOfEra (d.marchYear % 400) d.dayOfYear := by
    rw [wrapI64_of_mem (by omega) (by omega)]
    unfold dayOfEra Date.dayOfYear beforeMonthPart Date.monthPart
    omega
  unfold daysFromCivil
  simp only [monthDays_eq hmonth, ← Int.div_def]
  rw [if_neg (by omega), hadjusted, hera, hstart, hyoe,
    Int.tdiv_eq_ediv_of_nonneg hin.year_nonneg, Int.tdiv_eq_ediv_of_nonneg hin.year_nonneg, hdoe]
  rfl

/-- The number of a date, read off its parts. -/
theorem daysFromCivil_date (d : Date) (hyear : 0 ≤ d.year) (hyear' : d.year ≤ 10 ^ 12) :
    daysFromCivil d.year d.month d.day = some d.number := by
  have hbounds := d.inEra.dayOfEra_bounds
  have hmarch : -1 ≤ d.marchYear ∧ d.marchYear ≤ 10 ^ 12 := by
    unfold Date.marchYear
    split <;> omega
  rw [daysFromCivil_march hyear (by omega) d ⟨rfl, rfl, rfl⟩,
    checkedI64_of_mem (by omega) (by omega), Option.bind_some,
    checkedI64_of_mem (by omega) (by omega), Option.bind_some,
    checkedI64_of_mem (by omega) (by omega), d.number_eq]

/-- What `days_from_civil` returns is the number of the date its arguments make up. -/
theorem date_of_daysFromCivil {year month day days : Int} (hyear : 0 ≤ year)
    (hyear' : year < 2 ^ 63) (hmonth : 1 ≤ month ∧ month ≤ 12)
    (h : daysFromCivil year month day = some days) :
    ∃ d : Date, (d.year = year ∧ d.month = month ∧ d.day = day) ∧ d.number = days := by
  by_cases hday : 1 ≤ day ∧ day ≤ monthLength year month
  · refine ⟨⟨year, month, day, hmonth, hday⟩, ⟨rfl, rfl, rfl⟩, ?_⟩
    rw [daysFromCivil_march hyear hyear' ⟨year, month, day, hmonth, hday⟩ ⟨rfl, rfl, rfl⟩] at h
    obtain ⟨era, hera, h⟩ := Option.bind_eq_some_iff.mp h
    obtain ⟨sum, hsum, h⟩ := Option.bind_eq_some_iff.mp h
    rw [Date.number_eq, ← (checkedI64_eq_some_iff.mp h).1, ← (checkedI64_eq_some_iff.mp hsum).1,
      ← (checkedI64_eq_some_iff.mp hera).1]
  · unfold daysFromCivil at h
    simp only [monthDays_eq hmonth] at h
    rw [if_pos (by omega)] at h
    cases h

/-- Years before 0 have no day from 1970 on, wherever the arithmetic on them leads. -/
theorem daysFromCivil_negative {year month day days : Int} (hyear : -(2 ^ 63) ≤ year)
    (hyear' : year < 0) (hmonth : 1 ≤ month ∧ month ≤ 12)
    (h : daysFromCivil year month day = some days) : days < 0 := by
  have hlength : monthLength year month ≤ 31 := by
    unfold monthLength
    repeat' split
    all_goals omega
  unfold daysFromCivil at h
  simp only [monthDays_eq hmonth, ← Int.div_def] at h
  split at h
  · cases h
  rename_i hday
  obtain ⟨product, hera, h⟩ := Option.bind_eq_some_iff.mp h
  obtain ⟨sum, hsum, h⟩ := Option.bind_eq_some_iff.mp h
  rw [checkedI64_eq_some_iff] at h hsum hera
  obtain ⟨hdays, -, -⟩ := h
  obtain ⟨hsum, -, -⟩ := hsum
  obtain ⟨hera, hlow, hhigh⟩ := hera
  by_cases hfirst : year - (if month ≤ 2 then 1 else 0) < -(2 ^ 63)
  · -- the year before the first one wraps to the last, whose era is out of range
    have hadjusted : wrapI64 (year - if month ≤ 2 then 1 else 0) = 2 ^ 63 - 1 := by
      have hbefore : (year - if month ≤ 2 then 1 else 0) = -(2 ^ 63) - 1 := by
        split at hfirst <;> split <;> omega
      rw [hbefore]
      decide
    rw [hadjusted] at hhigh
    simp at hhigh
  obtain ⟨adjusted, hadjusted⟩ :
      ∃ adjusted, adjusted = year - if month ≤ 2 then 1 else 0 := ⟨_, rfl⟩
  have hnegative : adjusted < 0 := by
    split at hadjusted <;> omega
  have hexact : wrapI64 (year - if month ≤ 2 then 1 else 0) = adjusted := by
    rw [← hadjusted] at hfirst ⊢
    exact wrapI64_of_mem (by omega) (by omega)
  rw [hexact, if_neg (by omega)] at hera hsum hlow hhigh
  by_cases hwraps : adjusted - 399 < -(2 ^ 63)
  · have hshifted : wrapI64 (adjusted - 399) = adjusted - 399 + 2 ^ 64 := by
      unfold wrapI64
      rw [← Int.add_bmod_right]
      exact Int.bmod_eq_of_le (by omega) (by omega)
    rw [hshifted] at hhigh
    rw [← hadjusted] at hfirst
    omega
  have hshifted : wrapI64 (adjusted - 399) = adjusted - 399 :=
    wrapI64_of_mem (by omega) (by omega)
  rw [hshifted] at hera hsum hlow hhigh
  have hyoe : wrapI64 (adjusted - wrapI64 ((adjusted - 399) / 400 * 400)) =
      adjusted - (adjusted - 399) / 400 * 400 := by
    have hstart : wrapI64 ((adjusted - 399) / 400 * 400) = (adjusted - 399) / 400 * 400 :=
      wrapI64_of_mem (by omega) (by omega)
    rw [hstart, wrapI64_of_mem (by omega) (by omega)]
  rw [hyoe, wrapI64_of_mem (by omega) (by omega), Int.tdiv_eq_ediv_of_nonneg (by omega),
    Int.tdiv_eq_ediv_of_nonneg (by omega)] at hsum
  have hpart : (153 * (month + if 2 < month then -3 else 9) + 2) / 5 ≤ 337 := by
    split <;> omega
  omega

/-- The days timestamps have, from the first to the last. -/
def maxTimestampDay : Int := maxTimestampMillis / 86400000

theorem daysFromCivil_civilFromDays {days : Int} (h : 0 ≤ days) (h' : days ≤ maxTimestampDay) :
    daysFromCivil (civilFromDays days).1 (civilFromDays days).2.1 (civilFromDays days).2.2 =
      some days := by
  obtain ⟨d, rfl⟩ := exists_date days
  have hnumber := d.number_eq
  have hbounds := d.inEra.dayOfEra_bounds
  have hmax : maxTimestampDay ≤ 10 ^ 12 := by decide
  have hyear : 0 ≤ d.year ∧ d.year ≤ 10 ^ 12 := by
    have hmarch : d.marchYear ≤ d.year ∧ d.year ≤ d.marchYear + 1 := by
      unfold Date.marchYear
      split <;> omega
    omega
  rw [civilFromDays_number d (by omega)]
  exact daysFromCivil_date d hyear.1 hyear.2

theorem civilFromDays_daysFromCivil {year month day days : Int}
    (hyear : -(2 ^ 63) ≤ year) (hyear' : year < 2 ^ 63) (hmonth : 1 ≤ month ∧ month ≤ 12)
    (h : daysFromCivil year month day = some days) (hdays : 0 ≤ days) :
    civilFromDays days = (year, month, day) := by
  by_cases hnegative : year < 0
  · exact absurd (daysFromCivil_negative hyear hnegative hmonth h) (by omega)
  · obtain ⟨d, ⟨rfl, rfl, rfl⟩, rfl⟩ := date_of_daysFromCivil (by omega) hyear' hmonth h
    exact civilFromDays_number d (by omega)

/-! ## §3  Writing without overflow -/

/-- What is divided to give the era. -/
def eraDividendChecked (z : Int) : Option Int := if 0 ≤ z then some z else checkedI64 (z - 146096)

/-- The year of the era, every sum and difference checked. -/
def yearOfEraChecked (doe : Int) : Option Int := do
  let left ← checkedI64 (doe - doe.tdiv 1460)
  let left ← checkedI64 (left + doe.tdiv 36524)
  let left ← checkedI64 (left - doe.tdiv 146096)
  return left.ediv 365

def dayOfYearChecked (doe yoe : Int) : Option Int := do
  let passed ← checkedI64 (365 * yoe)
  let passed ← checkedI64 (passed + yoe.tdiv 4)
  let passed ← checkedI64 (passed - yoe.tdiv 100)
  checkedI64 (doe - passed)

/-- The month and the day of a day of the year. -/
def monthDayChecked (doy : Int) : Option (Int × Int) := do
  let scaled ← checkedI64 (5 * doy)
  let scaled ← checkedI64 (scaled + 2)
  let monthPart := scaled.ediv 153
  let passed ← checkedI64 (153 * monthPart)
  let passed ← checkedI64 (passed + 2)
  let day ← checkedI64 (doy - passed.ediv 5)
  let day ← checkedI64 (day + 1)
  let month ← checkedI64 (monthPart + if monthPart < 10 then 3 else -9)
  return (month, day)

/-- `civil_from_days` with every sum, difference and product checked. -/
def civilFromDaysChecked (daysSinceEpoch : Int) : Option (Int × Int × Int) := do
  let z ← checkedI64 (daysSinceEpoch + 719468)
  let dividend ← eraDividendChecked z
  let era := dividend.ediv 146097
  let before ← checkedI64 (era * 146097)
  let doe ← checkedI64 (z - before)
  let yoe ← yearOfEraChecked doe
  let years ← checkedI64 (era * 400)
  let year ← checkedI64 (yoe + years)
  let doy ← dayOfYearChecked doe yoe
  let (month, day) ← monthDayChecked doy
  let year ← checkedI64 (year + if month ≤ 2 then 1 else 0)
  return (year, month, day)

theorem yearOfEraChecked_eq {doe : Int} (h : 0 ≤ doe) (h' : doe ≤ 146096) :
    yearOfEraChecked doe = some ((doe - doe / 1460 + doe / 36524 - doe / 146096) / 365) := by
  unfold yearOfEraChecked
  rw [Int.tdiv_eq_ediv_of_nonneg h, Int.tdiv_eq_ediv_of_nonneg h, Int.tdiv_eq_ediv_of_nonneg h,
    checkedI64_of_mem (by omega) (by omega)]
  show (checkedI64 _).bind _ = _
  rw [checkedI64_of_mem (by omega) (by omega), Option.bind_some]
  show (checkedI64 _).bind _ = _
  rw [checkedI64_of_mem (by omega) (by omega)]
  rfl

theorem dayOfYearChecked_eq {doe yoe : Int} (h : 0 ≤ doe) (h' : doe ≤ 146096) (hyoe : 0 ≤ yoe)
    (hyoe' : yoe ≤ 399) :
    dayOfYearChecked doe yoe = some (doe - (365 * yoe + yoe / 4 - yoe / 100)) := by
  unfold dayOfYearChecked
  rw [Int.tdiv_eq_ediv_of_nonneg hyoe, Int.tdiv_eq_ediv_of_nonneg hyoe,
    checkedI64_of_mem (by omega) (by omega)]
  show (checkedI64 _).bind _ = _
  rw [checkedI64_of_mem (by omega) (by omega), Option.bind_some]
  show (checkedI64 _).bind _ = _
  rw [checkedI64_of_mem (by omega) (by omega), Option.bind_some]
  exact checkedI64_of_mem (by omega) (by omega)

theorem monthDayChecked_date (d : Date) : monthDayChecked d.dayOfYear = some (d.month, d.day) := by
  have hday := d.inEra.day_nonneg
  have hday' := d.inEra.day_le
  have hin := d.monthPart_in
  have hpart : (5 * d.dayOfYear + 2).ediv 153 = d.monthPart := d.monthPart_eq
  have hback : d.monthPart + (if d.monthPart < 10 then 3 else -9) = d.month := by
    have hmonth := d.month_in
    unfold Date.monthPart
    split <;> split <;> omega
  have hpassed : (153 * d.monthPart + 2).ediv 5 = beforeMonthPart d.monthPart := rfl
  have hpassed' : 0 ≤ beforeMonthPart d.monthPart ∧ beforeMonthPart d.monthPart ≤ 337 := by
    unfold beforeMonthPart
    omega
  have hlast : d.dayOfYear - beforeMonthPart d.monthPart + 1 = d.day := by
    unfold Date.dayOfYear
    omega
  have hmonth := d.month_in
  unfold monthDayChecked
  rw [checkedI64_of_mem (by omega) (by omega)]
  show (checkedI64 _).bind _ = _
  rw [checkedI64_of_mem (by omega) (by omega), Option.bind_some]
  simp only [hpart]
  rw [checkedI64_of_mem (by omega) (by omega)]
  show (checkedI64 _).bind _ = _
  rw [checkedI64_of_mem (by omega) (by omega), Option.bind_some, hpassed]
  show (checkedI64 _).bind _ = _
  rw [checkedI64_of_mem (by omega) (by omega), Option.bind_some]
  show (checkedI64 _).bind _ = _
  rw [hlast, checkedI64_of_mem (by omega) (by omega), Option.bind_some, hback]
  show (checkedI64 _).bind _ = _
  rw [checkedI64_of_mem (by omega) (by omega)]
  rfl

/-- No step of `civil_from_days` overflows on the days of timestamps. -/
theorem civilFromDaysChecked_eq {days : Int} (h : 0 ≤ days) (h' : days ≤ maxTimestampDay) :
    civilFromDaysChecked days = some (civilFromDays days) := by
  have hmax : maxTimestampDay ≤ 10 ^ 12 := by decide
  obtain ⟨d, rfl⟩ := exists_date days
  have hera := d.inEra
  have hyear := hera.year_nonneg
  have hyear' := hera.year_le
  have hbounds := hera.dayOfEra_bounds
  have hnumber := d.number_eq
  have hdivided : (d.number + 719468).ediv 146097 = d.marchYear / 400 := by
    show (d.number + 719468) / 146097 = _
    omega
  have hdoe : d.number + 719468 - d.marchYear / 400 * 146097 =
      dayOfEra (d.marchYear % 400) d.dayOfYear := by omega
  have hdoy : dayOfEra (d.marchYear % 400) d.dayOfYear -
      (365 * (d.marchYear % 400) + d.marchYear % 400 / 4 - d.marchYear % 400 / 100) =
        d.dayOfYear := by
    unfold dayOfEra
    omega
  have hmarch : d.marchYear % 400 + d.marchYear / 400 * 400 = d.marchYear := by omega
  have hcivil : d.marchYear + (if d.month ≤ 2 then 1 else 0) = d.year := by
    unfold Date.marchYear
    omega
  have hrange : -1 ≤ d.year ∧ d.year ≤ 10 ^ 12 := by
    have : d.marchYear ≤ d.year ∧ d.year ≤ d.marchYear + 1 := by
      rw [← hcivil]
      split <;> omega
    omega
  unfold civilFromDaysChecked
  rw [civilFromDays_number d (by omega), checkedI64_of_mem (by omega) (by omega)]
  have hdividend : eraDividendChecked (d.number + 719468) = some (d.number + 719468) :=
    if_pos (by omega)
  show (eraDividendChecked (d.number + 719468)).bind _ = _
  rw [hdividend, Option.bind_some]
  simp only [hdivided]
  rw [checkedI64_of_mem (by omega) (by omega)]
  show (checkedI64 _).bind _ = _
  rw [hdoe, checkedI64_of_mem (by omega) (by omega), Option.bind_some,
    yearOfEraChecked_eq hbounds.1 hbounds.2, hera.yearOfEra_eq rfl]
  show (checkedI64 _).bind _ = _
  rw [checkedI64_of_mem (by omega) (by omega), Option.bind_some, hmarch]
  show (checkedI64 _).bind _ = _
  rw [checkedI64_of_mem (by omega) (by omega), Option.bind_some,
    dayOfYearChecked_eq hbounds.1 hbounds.2 hyear hyear', hdoy]
  show (monthDayChecked _).bind _ = _
  rw [monthDayChecked_date, Option.bind_some]
  show (checkedI64 _).bind _ = _
  rw [hcivil, checkedI64_of_mem (by omega) (by omega)]
  rfl

/-- `format_timestamp` on the checked arithmetic; what else it computes are quotients and
remainders by constants. -/
def formatTimestampChecked (timestamp : Timestamp) : Option String := do
  let millis : Int := timestamp.unixMillis
  let seconds := millis.ediv 1000
  let milliseconds := millis.emod 1000
  let days := seconds.ediv 86400
  let secondsOfDay := seconds.emod 86400
  let (year, month, day) ← civilFromDaysChecked days
  let hour := secondsOfDay.tdiv 3600
  let minute := (secondsOfDay.tmod 3600).tdiv 60
  let second := secondsOfDay.tmod 60
  return padded 4 year ++ "-" ++ padded 2 month ++ "-" ++ padded 2 day ++ "T" ++ padded 2 hour ++
    ":" ++ padded 2 minute ++ ":" ++ padded 2 second ++ "." ++ padded 3 milliseconds ++ "Z"

theorem Timestamp.day_in (t : Timestamp) :
    0 ≤ ((t.unixMillis : Int).ediv 1000).ediv 86400 ∧
      ((t.unixMillis : Int).ediv 1000).ediv 86400 ≤ maxTimestampDay := by
  have ht := t.isI64
  show 0 ≤ (t.unixMillis : Int) / 1000 / 86400 ∧
    (t.unixMillis : Int) / 1000 / 86400 ≤ (maxTimestampMillis : Int) / 86400000
  omega

theorem formatTimestampChecked_eq (t : Timestamp) :
    formatTimestampChecked t = some (formatTimestamp t) := by
  obtain ⟨h, h'⟩ := t.day_in
  unfold formatTimestampChecked
  simp only [civilFromDaysChecked_eq h h']
  rfl

end NextInfra
