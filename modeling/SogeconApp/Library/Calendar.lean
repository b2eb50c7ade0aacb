/-!
# The Gregorian calendar

Dates before the calendar was introduced are counted as those after it. Days are numbered from
1 January 1970. For the numbers a year begins with March, so that the leap day is its last day:
the days before the month `m` after March are then `(153 * m + 2) / 5` in every year.
-/

namespace SogeconApp.Library

def IsLeap (year : Int) : Prop := year % 4 = 0 ∧ (year % 100 ≠ 0 ∨ year % 400 = 0)

instance (year : Int) : Decidable (IsLeap year) := inferInstanceAs (Decidable (_ ∧ _))

def daysInMonth (year month : Int) : Int :=
  if month = 2 then if IsLeap year then 29 else 28
  else if month = 4 ∨ month = 6 ∨ month = 9 ∨ month = 11 then 30
  else 31

def IsDate (year month day : Int) : Prop :=
  1 ≤ month ∧ month ≤ 12 ∧ 1 ≤ day ∧ day ≤ daysInMonth year month

instance (year month day : Int) : Decidable (IsDate year month day) :=
  inferInstanceAs (Decidable (_ ∧ _))

@[ext] structure Date where
  year : Int
  month : Int
  day : Int
  valid : IsDate year month day
  deriving DecidableEq

namespace Date

theorem day_le (date : Date) : date.day ≤ 31 := by
  have last := date.valid.2.2.2
  unfold daysInMonth at last
  split at last
  · split at last <;> omega
  · split at last <;> omega

/-! ## Years from March on -/

/-- The number of 1 March. -/
def yearStart (year : Int) : Int := 365 * year + year / 4 - year / 100 + year / 400 - 719468

/-- A year that begins with March ends with the February of the next one, and is a day longer if that is
a leap year. -/
theorem yearStart_succ (year : Int) :
    yearStart (year + 1) = yearStart year + if IsLeap (year + 1) then 366 else 365 := by
  by_cases leap : IsLeap (year + 1)
  · rw [if_pos leap]
    unfold IsLeap at leap
    unfold yearStart
    omega
  · rw [if_neg leap]
    unfold IsLeap at leap
    unfold yearStart
    omega

theorem yearStart_mono {year later : Int} (less : year < later) : yearStart (year + 1) ≤ yearStart later := by
  unfold yearStart
  omega

/-- The year of a day, by its cycle of 400 years, the century, and the four years there. -/
def yearOf (number : Int) : Int :=
  let inEra := (number + 719468) % 146097
  let century := min (inEra / 36524) 3
  let inCentury := inEra - 36524 * century
  400 * ((number + 719468) / 146097) + 100 * century + 4 * (inCentury / 1461) +
    min (inCentury % 1461 / 365) 3

/-- A year by its cycle of 400 years, its century, the four years there, and its place in them. -/
theorem yearStart_parts {year : Int} (era century quad rest : Int)
    (is : year = 400 * era + 100 * century + 4 * quad + rest) (centuries : 0 ≤ century ∧ century ≤ 3)
    (quads : 0 ≤ quad ∧ quad ≤ 24) (rests : 0 ≤ rest ∧ rest ≤ 3) :
    yearStart year = 146097 * era + 36524 * century + 1461 * quad + 365 * rest - 719468 := by
  have fours : year / 4 = 100 * era + 25 * century + quad := by omega
  have hundreds : year / 100 = 4 * era + century := by omega
  have eras : year / 400 = era := by omega
  rw [yearStart, fours, hundreds, eras]
  omega

/-- A cycle has 97 leap days: the last year of four has one, but not that of the last four of a century,
unless the century is the last of the cycle. -/
theorem yearOf_parts (number : Int) : ∃ era century quad rest day : Int,
    yearOf number = 400 * era + 100 * century + 4 * quad + rest ∧
      number + 719468 = 146097 * era + 36524 * century + 1461 * quad + 365 * rest + day ∧
      (0 ≤ century ∧ century ≤ 3) ∧ (0 ≤ quad ∧ quad ≤ 24) ∧ (0 ≤ rest ∧ rest ≤ 3) ∧
      0 ≤ day ∧ day ≤ 365 ∧ (rest < 3 ∨ quad = 24 ∧ century < 3 → day < 365) := by
  let inEra := (number + 719468) % 146097
  let century := min (inEra / 36524) 3
  let inCentury := inEra - 36524 * century
  have centuries : 0 ≤ century ∧ century ≤ 3 := by omega
  have inCenturies : 0 ≤ inCentury ∧ inCentury ≤ 36524 ∧ (century < 3 → inCentury < 36524) := by omega
  refine ⟨(number + 719468) / 146097, century, inCentury / 1461, min (inCentury % 1461 / 365) 3,
    inCentury % 1461 - 365 * min (inCentury % 1461 / 365) 3, rfl, by omega, centuries, ?_, ?_, ?_⟩
  · omega
  · omega
  · clear_value inCentury century
    omega

/-- The number lies in the year that is computed for it, by the cycles of 400, 100, 4 and 1 years. -/
theorem yearOf_spec (number : Int) :
    yearStart (yearOf number) ≤ number ∧ number < yearStart (yearOf number + 1) := by
  obtain ⟨era, century, quad, rest, day, found, whole, centuries, quads, rests, days⟩ := yearOf_parts number
  have here := yearStart_parts era century quad rest found centuries quads rests
  refine ⟨by omega, ?_⟩
  -- The next year begins inside the four years, or where they, the century or the cycle end.
  by_cases last : rest < 3
  · rw [yearStart_parts era century quad (rest + 1) (by omega) centuries quads (by omega)]
    omega
  by_cases lastQuad : quad < 24
  · rw [yearStart_parts era century (quad + 1) 0 (by omega) centuries (by omega) (by omega)]
    omega
  by_cases lastCentury : century < 3
  · rw [yearStart_parts era (century + 1) 0 0 (by omega) (by omega) (by omega) (by omega)]
    omega
  · rw [yearStart_parts (era + 1) 0 0 0 (by omega) (by omega) (by omega) (by omega)]
    omega

/-- Years do not overlap, so a number has no other year than that one. -/
theorem yearOf_eq {number year : Int} (starts : yearStart year ≤ number)
    (ends : number < yearStart (year + 1)) : yearOf number = year := by
  obtain ⟨starts', ends'⟩ := yearOf_spec number
  by_cases earlier : yearOf number < year
  · have later := yearStart_mono earlier
    omega
  by_cases later : year < yearOf number
  · have earlier := yearStart_mono later
    omega
  · omega

/-! ## Months from March on -/

/-- The days before a month that is not earlier than March. -/
def monthStart (month : Int) : Int := (153 * month + 2) / 5

def monthOf (day : Int) : Int := (5 * day + 2) / 153

/-- A day of the year lies in the month that is computed for it, counted from March. -/
theorem monthOf_spec {day : Int} (first : 0 ≤ day) (last : day ≤ 365) :
    0 ≤ monthOf day ∧ monthOf day ≤ 11 ∧ monthStart (monthOf day) ≤ day ∧
      day < monthStart (monthOf day + 1) := by
  unfold monthOf monthStart
  omega

theorem monthOf_eq {month day : Int} (starts : monthStart month ≤ day) (ends : day < monthStart (month + 1)) :
    monthOf day = month := by
  unfold monthStart at starts ends
  unfold monthOf
  omega

/-- The days of each month but the last of these years, which is February. -/
theorem monthStart_succ {month : Int} (year : Int) (first : 0 ≤ month) (last : month ≤ 10) :
    monthStart (month + 1) =
      monthStart month + daysInMonth year (if month < 10 then month + 3 else month - 9) := by
  have twelve : month = 0 ∨ month = 1 ∨ month = 2 ∨ month = 3 ∨ month = 4 ∨ month = 5 ∨ month = 6 ∨
      month = 7 ∨ month = 8 ∨ month = 9 ∨ month = 10 := by omega
  rcases twelve with rfl | rfl | rfl | rfl | rfl | rfl | rfl | rfl | rfl | rfl | rfl <;> rfl

/-! ## Numbers -/

/-- The year that begins with March and has the date. -/
def marchYear (date : Date) : Int := if date.month ≤ 2 then date.year - 1 else date.year

def marchMonth (date : Date) : Int := if date.month ≤ 2 then date.month + 9 else date.month - 3

def number (date : Date) : Int := yearStart date.marchYear + monthStart date.marchMonth + date.day - 1

theorem marchMonth_range (date : Date) : 0 ≤ date.marchMonth ∧ date.marchMonth ≤ 11 := by
  have valid := date.valid
  unfold IsDate at valid
  unfold marchMonth
  omega

/-- The day of the year that begins with March. -/
def marchDay (date : Date) : Int := monthStart date.marchMonth + date.day - 1

theorem number_eq (date : Date) : date.number = yearStart date.marchYear + date.marchDay := by
  unfold number marchDay
  omega

theorem month_eq (date : Date) :
    date.month = if date.marchMonth < 10 then date.marchMonth + 3 else date.marchMonth - 9 := by
  have valid := date.valid
  unfold IsDate at valid
  unfold marchMonth
  split <;> split <;> omega

theorem year_eq (date : Date) :
    date.year = if date.marchMonth < 10 then date.marchYear else date.marchYear + 1 := by
  have valid := date.valid
  unfold IsDate at valid
  unfold marchMonth marchYear
  split <;> split <;> omega

/-- A date lies in its month and in its year. -/
theorem marchDay_spec (date : Date) :
    monthStart date.marchMonth ≤ date.marchDay ∧ date.marchDay < monthStart (date.marchMonth + 1) ∧
      yearStart date.marchYear + date.marchDay < yearStart (date.marchYear + 1) := by
  have range := marchMonth_range date
  obtain ⟨-, -, first, last⟩ := date.valid
  have long := yearStart_succ date.marchYear
  by_cases february : date.marchMonth = 11
  · have second : date.month = 2 := by
      rw [month_eq, february]
      decide
    have year : date.marchYear + 1 = date.year := by
      rw [marchYear, if_pos (by omega)]
      omega
    rw [second, daysInMonth, if_pos rfl] at last
    rw [year] at long ⊢
    unfold marchDay monthStart
    rw [february]
    by_cases leap : IsLeap date.year
    · rw [if_pos leap] at last long
      omega
    · rw [if_neg leap] at last long
      omega
  · have next := monthStart_succ date.year range.1 (by omega)
    rw [← month_eq] at next
    have whole : monthStart (date.marchMonth + 1) ≤ 365 := by
      unfold monthStart
      omega
    unfold marchDay
    split at long <;> omega

/-- The year, the month and the day of a number are those of a date that exists. -/
theorem isDate_parts {year day : Int} (first : 0 ≤ day) (within : yearStart year + day < yearStart (year + 1)) :
    IsDate (if monthOf day < 10 then year else year + 1)
      (if monthOf day < 10 then monthOf day + 3 else monthOf day - 9) (day - monthStart (monthOf day) + 1) := by
  have long := yearStart_succ year
  have last : day ≤ 365 := by
    split at long <;> omega
  obtain ⟨march, february, starts, ends⟩ := monthOf_spec first last
  refine ⟨?_, ?_, by omega, ?_⟩
  · split <;> omega
  · split <;> omega
  by_cases winter : monthOf day = 11
  · rw [winter] at starts ends ⊢
    rw [if_neg (by decide), if_neg (by decide), daysInMonth, if_pos (by decide)]
    unfold monthStart at starts ⊢
    by_cases leap : IsLeap (year + 1)
    · rw [if_pos leap] at long ⊢
      omega
    · rw [if_neg leap] at long ⊢
      omega
  · have next := monthStart_succ (if monthOf day < 10 then year else year + 1) march (by omega)
    omega

/-- The date of a day of the year that begins with March. -/
def ofParts (year day : Int) (first : 0 ≤ day) (within : yearStart year + day < yearStart (year + 1)) : Date where
  year := if monthOf day < 10 then year else year + 1
  month := if monthOf day < 10 then monthOf day + 3 else monthOf day - 9
  day := day - monthStart (monthOf day) + 1
  valid := isDate_parts first within

def ofNumber (number : Int) : Date :=
  ofParts (yearOf number) (number - yearStart (yearOf number)) (by have spec := yearOf_spec number; omega)
    (by have spec := yearOf_spec number; omega)

theorem number_ofParts {year day : Int} (first : 0 ≤ day)
    (within : yearStart year + day < yearStart (year + 1)) :
    (ofParts year day first within).number = yearStart year + day := by
  have long := yearStart_succ year
  have last : day ≤ 365 := by
    split at long <;> omega
  have range := monthOf_spec first last
  unfold number marchYear marchMonth ofParts
  by_cases early : monthOf day < 10
  · simp only [if_pos early]
    rw [if_neg (by omega), if_neg (by omega)]
    have month : monthOf day + 3 - 3 = monthOf day := by omega
    rw [month]
    omega
  · simp only [if_neg early]
    rw [if_pos (by omega), if_pos (by omega)]
    have month : monthOf day - 9 + 9 = monthOf day := by omega
    have year_ : year + 1 - 1 = year := by omega
    rw [month, year_]
    omega

/-- The date of a number has that number, in every year of either sign. -/
theorem number_ofNumber (number : Int) : (ofNumber number).number = number := by
  rw [ofNumber, number_ofParts]
  omega

theorem yearOf_number (date : Date) : yearOf date.number = date.marchYear := by
  have spec := marchDay_spec date
  have range := marchMonth_range date
  have start : 0 ≤ monthStart date.marchMonth := by
    unfold monthStart
    omega
  apply yearOf_eq
  · rw [number_eq]
    omega
  · rw [number_eq]
    omega

theorem monthOf_number (date : Date) : monthOf (date.number - yearStart date.marchYear) = date.marchMonth := by
  have spec := marchDay_spec date
  have day : date.number - yearStart date.marchYear = date.marchDay := by
    rw [number_eq]
    omega
  rw [day]
  exact monthOf_eq spec.1 spec.2.1

theorem number_injective {date other : Date} (same : date.number = other.number) : date = other := by
  have year : date.marchYear = other.marchYear := by rw [← yearOf_number, ← yearOf_number, same]
  have month : date.marchMonth = other.marchMonth := by
    rw [← monthOf_number, ← monthOf_number, same, year]
  apply Date.ext
  · rw [year_eq, year_eq other, month, year]
  · rw [month_eq, month_eq other, month]
  · unfold number at same
    rw [year, month] at same
    omega

/-- The number of a date is the number of no other one, so the date is found again. -/
theorem ofNumber_number (date : Date) : ofNumber date.number = date :=
  number_injective (number_ofNumber _)

/-- The number of 1 January. -/
def newYear (year : Int) : Int := yearStart (year - 1) + monthStart 10

theorem newYear_mono {year later : Int} (least : year ≤ later) : newYear year ≤ newYear later := by
  unfold newYear yearStart
  omega

/-- A date lies in its year. -/
theorem newYear_number (date : Date) :
    newYear date.year ≤ date.number ∧ date.number < newYear (date.year + 1) := by
  obtain ⟨starts, ends, within⟩ := marchDay_spec date
  have range := marchMonth_range date
  have long := yearStart_succ (date.year - 1)
  have year := year_eq date
  unfold newYear
  rw [number_eq]
  rw [show date.year - 1 + 1 = date.year by omega] at long
  rw [show date.year + 1 - 1 = date.year by omega]
  unfold monthStart at starts ends ⊢
  by_cases early : date.marchMonth < 10
  · rw [if_pos early] at year
    rw [year] at long ⊢
    split at long <;> omega
  · rw [if_neg early] at year
    rw [year, show date.marchYear + 1 - 1 = date.marchYear by omega]
    omega

end Date

end SogeconApp.Library
