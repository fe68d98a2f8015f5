/-
  ZeroAuth.Js.Date

  Dates as milliseconds since 1970, read in UTC.
-/

import ZeroAuth.Js.Number

namespace ZeroAuth.Js

/-- Milliseconds in a day. -/
def msPerDay : ℤ := 86400000

/-- The number of the UTC day, counted from 1970-01-01. -/
def utcDay (ms : ℤ) : ℤ := ms / msPerDay

/-- The UTC midnight that a point in time follows. -/
def floorToUtcMidnight (ms : ℤ) : ℤ := utcDay ms * msPerDay

theorem utcDay_mono {a b : ℤ} (h : a ≤ b) : utcDay a ≤ utcDay b :=
  Int.ediv_le_ediv (by decide) h

@[simp] theorem utcDay_floorToUtcMidnight (ms : ℤ) : utcDay (floorToUtcMidnight ms) = utcDay ms :=
  Int.mul_ediv_cancel _ (by decide)

structure CivilDate where
  year : ℤ
  month : ℕ
  day : ℕ
  deriving DecidableEq

/-- The Gregorian date of a day.  Years are counted from March 1, so that a leap
    day is the last of its year, in eras of 400 years. -/
def civilDate (days : ℤ) : CivilDate :=
  let z := days + 719468
  let era := z / 146097
  let dayOfEra := (z % 146097).toNat
  let yearOfEra := (dayOfEra - dayOfEra / 1460 + dayOfEra / 36524 - dayOfEra / 146096) / 365
  let dayOfYear := dayOfEra - (365 * yearOfEra + yearOfEra / 4 - yearOfEra / 100)
  let monthFromMarch := (5 * dayOfYear + 2) / 153
  let day := dayOfYear - (153 * monthFromMarch + 2) / 5 + 1
  let month := if monthFromMarch < 10 then monthFromMarch + 3 else monthFromMarch - 9
  let year := (yearOfEra : ℤ) + era * 400
  ⟨if month ≤ 2 then year + 1 else year, month, day⟩

example : civilDate 0 = ⟨1970, 1, 1⟩ := rfl

example : civilDate 20600 = ⟨2026, 5, 27⟩ := rfl

/-- `toISOString().slice(0, 10)`.  Years outside 0 to 9999 have a sign and six
    digits. -/
def isoDay (ms : ℤ) : JsString :=
  let date := civilDate (utcDay ms)
  let year :=
    if 0 ≤ date.year ∧ date.year ≤ 9999 then padStart 4 (numText 10 date.year.natAbs)
    else (if date.year < 0 then 45 else 43) :: padStart 6 (numText 10 date.year.natAbs)
  (year ++ 45 :: padStart 2 (numText 10 date.month) ++ 45 :: padStart 2 (numText 10 date.day)).take 10

end ZeroAuth.Js
