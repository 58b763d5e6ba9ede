import Mathlib.Algebra.BigOperators.Group.List.Basic
import Mathlib.Tactic.IntervalCases

/-!
# The proleptic Gregorian calendar

A date is valid by construction, and `Date.number` counts its days from 1970-01-01 by
the lengths of the years and months before it. Calendar algorithms count from the first
of March instead: a year that starts in March ends in its leap day, four hundred of them
are an era of 146097 days, and the month of a day of the year is linear in it. `Date.march`
and `exists_date` lead from one reading to the other and back, for every day there is.
-/

namespace Calendar

/-! ## §1  Dates -/

def IsLeap (year : Int) : Prop := year % 4 = 0 ∧ (year % 100 ≠ 0 ∨ year % 400 = 0)

instance (year : Int) : Decidable (IsLeap year) := by unfold IsLeap; infer_instance

def monthLength (year month : Int) : Int :=
  if month = 2 then if IsLeap year then 29 else 28
  else if month = 4 ∨ month = 6 ∨ month = 9 ∨ month = 11 then 30
  else 31

/-- A day of the calendar. -/
structure Date where
  year : Int
  month : Int
  day : Int
  month_in : 1 ≤ month ∧ month ≤ 12
  day_in : 1 ≤ day ∧ day ≤ monthLength year month

@[ext] theorem Date.ext_parts {a b : Date} (hyear : a.year = b.year) (hmonth : a.month = b.month)
    (hday : a.day = b.day) : a = b := by
  cases a; cases b; cases hyear; cases hmonth; cases hday; rfl

/-- The days of the years from 1 up to a year. -/
def daysBeforeYear (year : Int) : Int :=
  365 * (year - 1) + (year - 1) / 4 - (year - 1) / 100 + (year - 1) / 400

/-- The days of the months before a month of its year. -/
def daysBeforeMonth (year month : Int) : Int :=
  ((List.range (month - 1).toNat).map fun m : Nat => monthLength year (m + 1)).sum

/-- The days from 1970-01-01 to the date. -/
def Date.number (d : Date) : Int :=
  daysBeforeYear d.year + daysBeforeMonth d.year d.month + (d.day - 1) - 719162

example : (⟨1970, 1, 1, by decide, by decide⟩ : Date).number = 0 := by decide

/-! ## §2  Years from March -/

/-- A day of an era: a year of the four hundred, and a day of that year. The leap day is the
last of its year, and belongs to the calendar year after it. -/
structure InEra (yearOfEra dayOfYear : Int) : Prop where
  year_nonneg : 0 ≤ yearOfEra
  year_le : yearOfEra ≤ 399
  day_nonneg : 0 ≤ dayOfYear
  day_le : dayOfYear ≤ 364 ∨ dayOfYear = 365 ∧ IsLeap (yearOfEra + 1)

def dayOfEra (yearOfEra dayOfYear : Int) : Int :=
  365 * yearOfEra + yearOfEra / 4 - yearOfEra / 100 + dayOfYear

theorem InEra.dayOfEra_bounds {yearOfEra dayOfYear : Int} (h : InEra yearOfEra dayOfYear) :
    0 ≤ dayOfEra yearOfEra dayOfYear ∧ dayOfEra yearOfEra dayOfYear ≤ 146096 := by
  obtain ⟨hyear, hyear', hday, hday'⟩ := h
  unfold IsLeap at hday'
  unfold dayOfEra
  omega

/-- In its century, its group of four years and its year, a day of an era counts linearly. -/
theorem year_of_parts {century four year day n : Int} (hcentury : 0 ≤ century ∧ century ≤ 3)
    (hfour : 0 ≤ four ∧ four ≤ 24) (hyear : 0 ≤ year ∧ year ≤ 3) (hday : 0 ≤ day ∧ day ≤ 365)
    (hleap : day = 365 → year = 3 ∧ (four = 24 → century = 3))
    (hn : n = 36524 * century + 1461 * four + 365 * year + day) :
    (n - n / 1460 + n / 36524 - n / 146096) / 365 = 100 * century + 4 * four + year := by
  by_cases hlast : n = 146096
  · obtain ⟨rfl, rfl, rfl⟩ : century = 3 ∧ four = 24 ∧ year = 3 := by omega
    subst hlast
    decide
  · have hin : 1461 * four + 365 * year + day ≤ 36523 := by
      by_cases h24 : four = 24
      · subst h24
        by_cases h365 : day = 365
        · obtain ⟨rfl, h3⟩ := hleap h365
          have := h3 rfl
          omega
        · omega
      · omega
    have hcenturies : n / 36524 = century := by
      rw [hn]
      clear hn hleap hlast
      omega
    have hera : n / 146096 = 0 := by omega
    -- the quotient by 1460 is one ahead of the leap days where the year is long
    have hfours : n / 1460 =
        25 * century + four + (24 * century + four + 365 * year + day) / 1460 := by
      rw [hn]
      clear hn hleap hlast hcenturies hera
      omega
    have hrest : 0 ≤ day - (24 * century + four + 365 * year + day) / 1460 ∧
        day - (24 * century + four + 365 * year + day) / 1460 ≤ 364 := by
      by_cases h365 : day = 365
      · obtain ⟨rfl, _⟩ := hleap h365
        omega
      · omega
    rw [hcenturies, hera, hfours]
    generalize (24 * century + four + 365 * year + day) / 1460 = ahead at hrest
    omega

/-- The year of the era from the day of the era. -/
theorem InEra.yearOfEra_eq {yearOfEra dayOfYear n : Int} (h : InEra yearOfEra dayOfYear)
    (hn : n = dayOfEra yearOfEra dayOfYear) :
    (n - n / 1460 + n / 36524 - n / 146096) / 365 = yearOfEra := by
  obtain ⟨hyear, hyear', hday, hday'⟩ := h
  unfold IsLeap at hday'
  unfold dayOfEra at hn
  have hparts := @year_of_parts (yearOfEra / 100) (yearOfEra % 100 / 4) (yearOfEra % 4) dayOfYear n
    (by omega) (by omega) (by omega) (by omega) (by omega) (by omega)
  rw [hparts]
  omega

/-- Every day of an era lies in one of its years. -/
theorem exists_inEra {n : Int} (h : 0 ≤ n) (h' : n ≤ 146096) :
    ∃ yearOfEra dayOfYear, InEra yearOfEra dayOfYear ∧ n = dayOfEra yearOfEra dayOfYear := by
  obtain ⟨century, rest, hcentury, hcentury', hrest, hrest', hn⟩ :
      ∃ century rest : Int, 0 ≤ century ∧ century ≤ 3 ∧ 0 ≤ rest ∧
        (rest ≤ 36523 ∨ rest = 36524 ∧ century = 3) ∧ n = 36524 * century + rest :=
    ⟨min (n / 36524) 3, n - 36524 * min (n / 36524) 3, by omega, by omega, by omega, by omega,
      by omega⟩
  obtain ⟨four, left, hfour, hfour', hleft, hleft', hfours⟩ :
      ∃ four left : Int, 0 ≤ four ∧ four ≤ 24 ∧ 0 ≤ left ∧ left ≤ 1460 ∧
        rest = 1461 * four + left :=
    ⟨min (rest / 1461) 24, rest - 1461 * min (rest / 1461) 24, by omega, by omega, by omega,
      by omega, by omega⟩
  obtain ⟨year, day, hyear, hyear', hday, hday', hyears⟩ :
      ∃ year day : Int, 0 ≤ year ∧ year ≤ 3 ∧ 0 ≤ day ∧ (day ≤ 364 ∨ day = 365 ∧ year = 3) ∧
        left = 365 * year + day :=
    ⟨min (left / 365) 3, left - 365 * min (left / 365) 3, by omega, by omega, by omega, by omega,
      by omega⟩
  refine ⟨100 * century + 4 * four + year, day, ⟨by omega, by omega, hday, ?_⟩, ?_⟩
  · unfold IsLeap
    omega
  · unfold dayOfEra
    omega

/-! ## §3  From the calendar and back -/

/-- The days of the year before a month, counted from March. -/
def beforeMonthPart (monthPart : Int) : Int := (153 * monthPart + 2) / 5

/-- Up to a leap day, the months from January lie where the linear count from March puts them. -/
theorem daysBeforeMonth_eq {year month : Int} (h : 1 ≤ month ∧ month ≤ 12) :
    daysBeforeMonth year month =
      if month ≤ 2 then beforeMonthPart (month + 9) - 306
      else beforeMonthPart (month - 3) + if IsLeap year then 60 else 59 := by
  obtain ⟨hmonth, hmonth'⟩ := h
  unfold daysBeforeMonth
  interval_cases month <;> by_cases hleap : IsLeap year <;>
    simp [hleap, beforeMonthPart, List.range_succ, monthLength]

theorem monthLength_eq {year month : Int} (h : 1 ≤ month ∧ month ≤ 12) (hnot : month ≠ 2) :
    monthLength year month =
      let monthPart := month + if 2 < month then -3 else 9
      beforeMonthPart (monthPart + 1) - beforeMonthPart monthPart := by
  obtain ⟨hmonth, hmonth'⟩ := h
  interval_cases month <;> first | exact absurd rfl hnot | simp [monthLength, beforeMonthPart]

/-- The month of a day of the year. -/
theorem monthPart_of_day {monthPart day : Int} (h : beforeMonthPart monthPart ≤ day)
    (h' : day < beforeMonthPart (monthPart + 1)) : (5 * day + 2) / 153 = monthPart := by
  unfold beforeMonthPart at h h'
  omega

namespace Date

/-- The year that starts in March. -/
def marchYear (d : Date) : Int := d.year - if d.month ≤ 2 then 1 else 0

/-- The months since March. -/
def monthPart (d : Date) : Int := d.month + if 2 < d.month then -3 else 9

def dayOfYear (d : Date) : Int := beforeMonthPart d.monthPart + d.day - 1

theorem monthPart_in (d : Date) : 0 ≤ d.monthPart ∧ d.monthPart ≤ 11 := by
  have hmonth := d.month_in
  unfold monthPart
  split <;> omega

/-- A day is within its month: February is the last, and is cut short. -/
theorem day_le (d : Date) :
    d.monthPart ≤ 10 ∧ d.day ≤ beforeMonthPart (d.monthPart + 1) - beforeMonthPart d.monthPart ∨
      d.monthPart = 11 ∧ (d.day ≤ 28 ∨ d.day = 29 ∧ IsLeap d.year) := by
  have hday := d.day_in.2
  have hmonth := d.month_in
  by_cases htwo : d.month = 2
  · right
    unfold monthLength at hday
    rw [if_pos htwo] at hday
    refine ⟨by simp [monthPart, htwo], ?_⟩
    split at hday
    · rename_i hleap
      by_cases hlast : d.day = 29
      · exact .inr ⟨hlast, hleap⟩
      · left
        omega
    · exact .inl hday
  · left
    rw [monthLength_eq hmonth htwo] at hday
    refine ⟨?_, hday⟩
    unfold monthPart
    split <;> omega

theorem monthPart_eq (d : Date) : (5 * d.dayOfYear + 2) / 153 = d.monthPart := by
  have hpos := d.day_in.1
  have hin := d.monthPart_in
  apply monthPart_of_day
  · unfold dayOfYear
    omega
  · unfold dayOfYear
    rcases d.day_le with ⟨_, hday⟩ | ⟨hfebruary, hday⟩
    · omega
    · rw [hfebruary]
      unfold beforeMonthPart
      omega

theorem inEra (d : Date) : InEra (d.marchYear % 400) d.dayOfYear := by
  have hpos := d.day_in.1
  have hmonth := d.month_in
  have hin := d.monthPart_in
  refine ⟨by omega, by omega, ?_, ?_⟩
  · unfold dayOfYear beforeMonthPart
    omega
  · rcases d.day_le with ⟨hlong, hday⟩ | ⟨hfebruary, hday⟩
    · left
      unfold dayOfYear
      unfold beforeMonthPart at hday ⊢
      omega
    · have hshift : d.marchYear + 1 = d.year := by
        unfold monthPart at hfebruary
        unfold marchYear
        split at hfebruary <;> split <;> omega
      unfold dayOfYear
      rw [hfebruary]
      unfold beforeMonthPart
      rcases hday with hday | ⟨hday, hleap⟩
      · left
        omega
      · right
        rw [← hshift] at hleap
        unfold IsLeap at hleap ⊢
        omega

/-- The days from 1970 by the year from March. -/
theorem number_eq (d : Date) :
    d.number = d.marchYear / 400 * 146097 + dayOfEra (d.marchYear % 400) d.dayOfYear - 719468 := by
  have hmonth := d.month_in
  unfold number dayOfEra dayOfYear marchYear monthPart daysBeforeYear
  rw [daysBeforeMonth_eq hmonth]
  by_cases hearly : d.month ≤ 2
  · rw [if_pos hearly, if_pos hearly, if_neg (by omega)]
    omega
  · rw [if_neg hearly, if_neg hearly, if_pos (show 2 < d.month by omega),
      show d.month + -3 = d.month - 3 by omega]
    generalize beforeMonthPart (d.month - 3) = before
    split
    · rename_i hleap
      unfold IsLeap at hleap
      omega
    · rename_i hleap
      unfold IsLeap at hleap
      omega

end Date

/-- The month of a day of the year, counted from January. -/
def monthOf (monthPart : Int) : Int := monthPart + if monthPart < 10 then 3 else -9

/-- Every day of every era is a date. -/
theorem exists_date (n : Int) : ∃ d : Date, d.number = n := by
  obtain ⟨yearOfEra, dayOfYear, hera, hn⟩ :=
    exists_inEra (n := (n + 719468) % 146097) (by omega) (by omega)
  obtain ⟨hyear, hyear', hday, hday'⟩ := hera
  obtain ⟨monthPart, hpart⟩ : ∃ monthPart, monthPart = (5 * dayOfYear + 2) / 153 := ⟨_, rfl⟩
  obtain ⟨year, hyearEq⟩ : ∃ year, year = yearOfEra + (n + 719468) / 146097 * 400 +
    if monthOf monthPart ≤ 2 then 1 else 0 := ⟨_, rfl⟩
  have hin : 0 ≤ monthPart ∧ monthPart ≤ 11 := by omega
  have hstart : beforeMonthPart monthPart ≤ dayOfYear := by
    unfold beforeMonthPart
    omega
  have hend : dayOfYear < beforeMonthPart (monthPart + 1) := by
    unfold beforeMonthPart
    omega
  have hmonth : 1 ≤ monthOf monthPart ∧ monthOf monthPart ≤ 12 := by
    unfold monthOf
    split <;> omega
  have hback : monthOf monthPart + (if 2 < monthOf monthPart then -3 else 9) = monthPart := by
    unfold monthOf
    split <;> split <;> omega
  have hlength : dayOfYear - beforeMonthPart monthPart + 1 ≤
      monthLength year (monthOf monthPart) := by
    by_cases htwo : monthOf monthPart = 2
    · have hfebruary : monthPart = 11 := by
        unfold monthOf at htwo
        split at htwo <;> omega
      subst hfebruary
      rw [if_pos (by omega)] at hyearEq
      unfold monthLength
      rw [if_pos htwo]
      unfold beforeMonthPart
      split
      · omega
      · rename_i hcommon
        unfold IsLeap at hday' hcommon
        omega
    · rw [monthLength_eq hmonth htwo]
      simp only [hback]
      omega
  let d : Date := ⟨year, monthOf monthPart, dayOfYear - beforeMonthPart monthPart + 1, hmonth,
    by omega, hlength⟩
  have hmarch : d.marchYear = yearOfEra + (n + 719468) / 146097 * 400 := by
    show year - (if monthOf monthPart ≤ 2 then 1 else 0) = _
    omega
  have hdoy : d.dayOfYear = dayOfYear := by
    show beforeMonthPart (monthOf monthPart + if 2 < monthOf monthPart then -3 else 9) +
      (dayOfYear - beforeMonthPart monthPart + 1) - 1 = dayOfYear
    rw [hback]
    omega
  refine ⟨d, ?_⟩
  rw [d.number_eq, hmarch, hdoy, show (yearOfEra + (n + 719468) / 146097 * 400) % 400 = yearOfEra by
    omega, ← hn]
  omega

end Calendar
