import Retrace.Calendar

/-!
# The days of the calendar

A day of the calendar is found from its number by years that start in March. Each such year starts on a day
that is known in closed form, so a number tells its year, month and day, and they tell the number.
-/

namespace Retrace.DateTime

/-! ## Years from March -/

/-- The first day of a year that is counted from March, with 0000-03-01 as day 0. -/
def yearStart (y : Int) : Int := 365 * y + y / 4 - y / 100 + y / 400

theorem yearStart_succ (y : Int) : yearStart (y + 1) = yearStart y + if isLeap (y + 1) then 366 else 365 := by
  unfold yearStart isLeap
  simp only [Bool.and_eq_true, Bool.or_eq_true, beq_iff_eq, bne_iff_ne]
  split <;> omega

theorem yearStart_mono {y y' : Int} (h : y ≤ y') : yearStart y ≤ yearStart y' := by
  unfold yearStart
  omega

theorem yearStart_add_era (y era : Int) : yearStart (y + era * 400) = era * daysInEra + yearStart y := by
  unfold yearStart daysInEra
  omega

/-- A place in the 400 years after which the calendar repeats: centuries, groups of four years, years and days.
Only the last year of a group may have a day 365, and of the groups that end a century only the last one. -/
structure EraPlace where
  century : Int
  group : Int
  year : Int
  day : Int
  century_mem : 0 ≤ century ∧ century ≤ 3
  group_mem : 0 ≤ group ∧ group ≤ 24
  year_mem : 0 ≤ year ∧ year ≤ 3
  day_mem : 0 ≤ day ∧ day ≤ 365
  leap : day = 365 → year = 3 ∧ (group < 24 ∨ century = 3)

namespace EraPlace

def yearOfEra (p : EraPlace) : Int := 100 * p.century + 4 * p.group + p.year

def dayOfEra (p : EraPlace) : Int := 36524 * p.century + 1461 * p.group + 365 * p.year + p.day

theorem yearOfEra_mem (p : EraPlace) : 0 ≤ p.yearOfEra ∧ p.yearOfEra < 400 := by
  obtain ⟨_, _, _, _, _, _, _, _, _⟩ := p
  unfold yearOfEra
  simp only
  omega

theorem dayOfEra_eq (p : EraPlace) : p.dayOfEra = yearStart p.yearOfEra + p.day := by
  obtain ⟨_, _, _, _, _, _, _, _, _⟩ := p
  unfold dayOfEra yearStart yearOfEra
  simp only
  omega

theorem day_lt (p : EraPlace) : p.dayOfEra < yearStart (p.yearOfEra + 1) := by
  obtain ⟨_, _, _, _, _, _, _, _, _⟩ := p
  unfold dayOfEra yearStart yearOfEra
  simp only
  omega

theorem exists_of_day {day : Int} (h0 : 0 ≤ day) (h1 : day < daysInEra) : ∃ p : EraPlace, p.dayOfEra = day := by
  unfold daysInEra at h1
  let century := min (day / 36524) 3
  let dayOfCentury := day - 36524 * century
  let group := dayOfCentury / 1461
  let year := min (dayOfCentury % 1461 / 365) 3
  have hcentury : dayOfCentury < 36524 ∨ century = 3 ∧ dayOfCentury ≤ 36524 := by omega
  refine ⟨⟨century, group, year, dayOfCentury % 1461 - 365 * year, ?_, ?_, ?_, ?_, ?_⟩, ?_⟩
  · omega
  · omega
  · omega
  · omega
  · omega
  · unfold dayOfEra
    simp only
    omega

theorem yearOfEra_eq (p : EraPlace) :
    (p.dayOfEra - p.dayOfEra / 1460 + p.dayOfEra / 36524 - p.dayOfEra / 146096) / 365 = p.yearOfEra := by
  obtain ⟨century, group, year, day, hcentury, hgroup, hyear, hday, hleap⟩ := p
  unfold dayOfEra yearOfEra
  simp only
  generalize hn : 36524 * century + 1461 * group + 365 * year + day = n
  have hfours : n / 1460 = 25 * century + group + (24 * century + group + 365 * year + day) / 1460 := by omega
  -- Only the last day of the era is in a fifth piece of 36524 days.
  have hhundreds : n / 36524 - n / 146096 = century := by
    by_cases hlast : n = 146096
    · have : century = 3 := by omega
      omega
    · have : 36524 * century ≤ n ∧ n < 36524 * (century + 1) := by omega
      omega
  omega

end EraPlace

/-! ## Dates of day numbers -/

theorem dayNumber_eq (year : Int) (month day : Nat) :
    dayNumber year month day = yearStart (if month ≤ 2 then year - 1 else year) +
      (153 * (if 2 < month then (month : Int) - 3 else month + 9) + 2) / 5 + day - 1 - epochDay := by
  unfold dayNumber
  simp only
  generalize (if month ≤ 2 then year - 1 else year) = y
  have hera := yearStart_add_era (y % 400) (y / 400)
  rw [Int.emod_add_ediv_mul] at hera
  rw [hera]
  unfold yearStart
  omega

/-- A day of a year that is counted from March. -/
structure YearDay where
  year : Int
  day : Int
  nonneg : 0 ≤ day
  lt : yearStart year + day < yearStart (year + 1)

namespace YearDay

def number (d : YearDay) : Int := yearStart d.year + d.day

/-- The month of the day, counted from March. -/
def month (d : YearDay) : Int := (5 * d.day + 2) / 153

def date (d : YearDay) : Int × Nat × Nat :=
  let day := d.day - (153 * d.month + 2) / 5 + 1
  if d.month < 10 then (d.year, (d.month + 3).toNat, day.toNat)
  else (d.year + 1, (d.month - 9).toNat, day.toNat)

theorem day_le (d : YearDay) : d.day ≤ 365 ∧ (d.day = 365 → isLeap (d.year + 1) = true) := by
  have h := d.lt
  rw [yearStart_succ] at h
  split at h
  · rename_i hleap
    exact ⟨by omega, fun _ => hleap⟩
  · omega

theorem month_mem (d : YearDay) : 0 ≤ d.month ∧ d.month ≤ 11 := by
  have h0 := d.nonneg
  have h1 := d.day_le.1
  unfold month
  omega

theorem exists_of_number (n : Int) : ∃ d : YearDay, d.number = n + epochDay ∧ ofDayNumber n = d.date := by
  have hera : (n + epochDay) / daysInEra * daysInEra + (n + epochDay) % daysInEra = n + epochDay :=
    Int.ediv_mul_add_emod _ _
  obtain ⟨p, hp⟩ := EraPlace.exists_of_day (Int.emod_nonneg (n + epochDay) (by decide))
    (Int.emod_lt_of_pos (n + epochDay) (by decide : 0 < daysInEra))
  have hday := p.dayOfEra_eq
  have hstart := yearStart_add_era p.yearOfEra ((n + epochDay) / daysInEra)
  have hnext := yearStart_add_era (p.yearOfEra + 1) ((n + epochDay) / daysInEra)
  rw [Int.add_right_comm] at hnext
  have hlt := p.day_lt
  refine ⟨⟨p.yearOfEra + (n + epochDay) / daysInEra * 400, p.day, p.day_mem.1, by omega⟩, ?_, ?_⟩
  · unfold number
    simp only
    omega
  · have hrest : p.dayOfEra - (365 * p.yearOfEra + p.yearOfEra / 4 - p.yearOfEra / 100) = p.day := by
      have hyear := p.yearOfEra_mem
      unfold yearStart at hday
      omega
    have hbounds := p.day_mem
    unfold ofDayNumber date month
    simp only [← hp, p.yearOfEra_eq, hrest]
    split
    · rw [if_neg (by omega)]
    · rw [if_pos (by omega)]

theorem months_date (d : YearDay) : 12 * d.date.1 + d.date.2.1 = 12 * d.year + d.month + 3 := by
  have h := d.month_mem
  unfold date
  simp only
  split
  · simp only
    omega
  · simp only
    omega

theorem month_date (d : YearDay) : 1 ≤ d.date.2.1 ∧ d.date.2.1 ≤ 12 := by
  have h := d.month_mem
  unfold date
  simp only
  split
  · simp only
    omega
  · simp only
    omega

theorem day_date (d : YearDay) : (d.date.2.2 : Int) = d.day - (153 * d.month + 2) / 5 + 1 ∧ 1 ≤ d.date.2.2 := by
  have h := d.nonneg
  unfold date month
  simp only
  split
  · simp only
    omega
  · simp only
    omega

theorem day_le_daysInMonth (d : YearDay) : d.date.2.2 ≤ daysInMonth d.date.1 d.date.2.1 := by
  obtain ⟨hle, hleap⟩ := d.day_le
  have h0 := d.nonneg
  unfold date month daysInMonth
  simp only
  split
  · simp only
    rw [if_neg (by omega)]
    split <;> omega
  · simp only
    split
    · -- February: its day 29 is day 365 of the year.
      split
      · omega
      · have hlast : d.day ≠ 365 := by
          rintro hlast
          simp_all
        omega
    · rw [if_neg (by omega)]
      omega

theorem dayNumber_date (d : YearDay) : dayNumber d.date.1 d.date.2.1 d.date.2.2 = d.number - epochDay := by
  have hmonth := d.month_mem
  have hday := d.day_date.1
  have hyear : (if d.date.2.1 ≤ 2 then d.date.1 - 1 else d.date.1) = d.year := by
    have hmonths := d.months_date
    have hrange := d.month_date
    split <;> omega
  have hfromMarch : (if 2 < d.date.2.1 then (d.date.2.1 : Int) - 3 else d.date.2.1 + 9) = d.month := by
    have hmonths := d.months_date
    have hrange := d.month_date
    split <;> omega
  rw [dayNumber_eq, hyear, hfromMarch]
  unfold number
  omega

theorem year_le {d d' : YearDay} (h : d.number ≤ d'.number) : d.year ≤ d'.year := by
  unfold number at h
  apply Int.not_lt.mp
  intro hafter
  have hmono := yearStart_mono (show d'.year + 1 ≤ d.year by omega)
  have hlt := d'.lt
  have hnonneg := d.nonneg
  omega

theorem eq_of_number_eq {d d' : YearDay} (h : d.number = d'.number) : d = d' := by
  have hyear : d.year = d'.year := Int.le_antisymm (year_le (Int.le_of_eq h)) (year_le (Int.le_of_eq h.symm))
  obtain ⟨year, day, _, _⟩ := d
  obtain ⟨year', day', _, _⟩ := d'
  unfold number at h
  simp only at h hyear
  subst hyear
  obtain rfl : day = day' := by omega
  rfl

theorem month_of_mem {d : YearDay} {m : Int} (hstart : (153 * m + 2) / 5 ≤ d.day)
    (hend : d.day < (153 * (m + 1) + 2) / 5) : d.month = m := by
  unfold month
  omega

theorem lt_of_le_daysInMonth {year m : Int} {month day : Nat} (hmonth : 1 ≤ month ∧ month ≤ 12)
    (hday : day ≤ daysInMonth year month) (hm : m = if 2 < month then (month : Int) - 3 else month + 9) :
    (153 * m + 2) / 5 + day - 1 < (153 * (m + 1) + 2) / 5 := by
  unfold daysInMonth at hday
  split at hday
  · rw [if_neg (by omega)] at hm
    split at hday <;> omega
  · split at hday
    · rw [if_pos (by omega)] at hm
      omega
    · split at hm
      · have hlong : month = 3 ∨ month = 5 ∨ month = 7 ∨ month = 8 ∨ month = 10 ∨ month = 12 := by omega
        rcases hlong with rfl | rfl | rfl | rfl | rfl | rfl <;> omega
      · omega

theorem date_eq {d : YearDay} {year : Int} {month day : Nat} (hmonth : 1 ≤ month ∧ month ≤ 12)
    (hyear : (if month ≤ 2 then year - 1 else year) = d.year)
    (hfrom : (if 2 < month then (month : Int) - 3 else month + 9) = d.month)
    (hday : d.day = (153 * d.month + 2) / 5 + day - 1) : d.date = (year, month, day) := by
  unfold date
  simp only [hday]
  by_cases hstart : month ≤ 2
  · rw [if_pos hstart] at hyear
    rw [if_neg (by omega)] at hfrom
    rw [if_neg (by omega), Prod.mk.injEq, Prod.mk.injEq]
    omega
  · rw [if_neg hstart] at hyear
    rw [if_pos (by omega)] at hfrom
    rw [if_pos (by omega), Prod.mk.injEq, Prod.mk.injEq]
    omega

theorem exists_of_date {year : Int} {month day : Nat} (hmonth : 1 ≤ month ∧ month ≤ 12)
    (hday : 1 ≤ day ∧ day ≤ daysInMonth year month) :
    ∃ d : YearDay, d.date = (year, month, day) ∧ d.number = dayNumber year month day + epochDay := by
  have hnumber := dayNumber_eq year month day
  generalize hm : (if 2 < month then (month : Int) - 3 else month + 9) = m at hnumber
  generalize hy : (if month ≤ 2 then year - 1 else year) = y at hnumber
  have hend := lt_of_le_daysInMonth hmonth hday.2 hm.symm
  have hmem : 0 ≤ m ∧ m ≤ 11 := by
    split at hm <;> omega
  have hlt : yearStart y + ((153 * m + 2) / 5 + day - 1) < yearStart (y + 1) := by
    rw [yearStart_succ]
    by_cases hlast : m = 11
    · -- February ends with the year, on a day 365 if the year is a leap year.
      obtain rfl : month = 2 := by
        split at hm <;> omega
      obtain rfl : year = y + 1 := by
        rw [if_pos (Nat.le_refl 2)] at hy
        omega
      rw [daysInMonth, if_pos rfl] at hday
      by_cases hleap : isLeap (y + 1) = true
      · rw [if_pos hleap] at hday ⊢
        omega
      · rw [if_neg hleap] at hday ⊢
        omega
    · split <;> omega
  obtain ⟨d, hdyear, hdday⟩ : ∃ d : YearDay, d.year = y ∧ d.day = (153 * m + 2) / 5 + day - 1 :=
    ⟨⟨y, (153 * m + 2) / 5 + day - 1, by omega, hlt⟩, rfl, rfl⟩
  have hdmonth : d.month = m := month_of_mem (by omega) (by omega)
  refine ⟨d, date_eq hmonth ?_ ?_ ?_, ?_⟩
  · rw [hy, hdyear]
  · rw [hm, hdmonth]
  · rw [hdday, hdmonth]
  · unfold number
    rw [hdyear, hdday, hnumber]
    omega

end YearDay

/-! ## Both directions -/

theorem ofDayNumber_dayNumber {year : Int} {month day : Nat} (hmonth : 1 ≤ month ∧ month ≤ 12)
    (hday : 1 ≤ day ∧ day ≤ daysInMonth year month) :
    ofDayNumber (dayNumber year month day) = (year, month, day) := by
  obtain ⟨d, hdate, hnumber⟩ := YearDay.exists_of_date hmonth hday
  obtain ⟨d', hnumber', hdate'⟩ := YearDay.exists_of_number (dayNumber year month day)
  rw [hdate', YearDay.eq_of_number_eq (hnumber'.trans hnumber.symm), hdate]

theorem dayNumber_ofDayNumber (n : Int) :
    dayNumber (ofDayNumber n).1 (ofDayNumber n).2.1 (ofDayNumber n).2.2 = n := by
  obtain ⟨d, hnumber, hdate⟩ := YearDay.exists_of_number n
  rw [hdate, d.dayNumber_date, hnumber]
  omega

def Before (d d' : Int × Nat × Nat) : Prop :=
  d.1 < d'.1 ∨ d.1 = d'.1 ∧ (d.2.1 < d'.2.1 ∨ d.2.1 = d'.2.1 ∧ d.2.2 < d'.2.2)

theorem before_of_lt {n n' : Int} (h : n < n') : Before (ofDayNumber n) (ofDayNumber n') := by
  obtain ⟨d, hnumber, hdate⟩ := YearDay.exists_of_number n
  obtain ⟨d', hnumber', hdate'⟩ := YearDay.exists_of_number n'
  rw [hdate, hdate']
  have hlt : d.number < d'.number := by omega
  have hyears := YearDay.year_le (Int.le_of_lt hlt)
  unfold YearDay.number at hlt
  have hmonths := d.months_date
  have hmonths' := d'.months_date
  have hmonth := d.month_mem
  have hmonth' := d'.month_mem
  have hrange := d.month_date
  have hrange' := d'.month_date
  have hday := d.day_date.1
  have hday' := d'.day_date.1
  unfold Before
  by_cases hyear : d.year = d'.year
  · rw [hyear] at hlt
    have hle : d.month ≤ d'.month := by
      unfold YearDay.month
      omega
    by_cases hsame : d.month = d'.month
    · rw [hsame] at hday
      omega
    · omega
  · omega

end Retrace.DateTime
