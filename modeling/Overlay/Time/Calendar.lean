import Overlay.Text.Decimal

/-! Dates of the proleptic Gregorian calendar, counted in days from 1970-01-01
on. A year is taken to begin in March, so that the leap day is its last. -/
namespace Overlay.Calendar

structure Date where
  year : Nat
  month : Nat
  day : Nat
  deriving DecidableEq, Repr

/-- The days from 0000-03-01 to 1970-01-01. -/
def epochShift : Nat := 719468

def eraDays : Nat := 146097

def ofDays (days : Nat) : Date :=
  let shifted := days + epochShift
  let dayOfEra := shifted % eraDays
  let yearOfEra := (dayOfEra - dayOfEra / 1460 + dayOfEra / 36524 - dayOfEra / 146096) / 365
  let dayOfYear := dayOfEra - (365 * yearOfEra + yearOfEra / 4 - yearOfEra / 100)
  let monthFromMarch := (5 * dayOfYear + 2) / 153
  let day := dayOfYear - (153 * monthFromMarch + 2) / 5 + 1
  let month := if monthFromMarch < 10 then monthFromMarch + 3 else monthFromMarch - 9
  let year := yearOfEra + 400 * (shifted / eraDays)
  ⟨if month ≤ 2 then year + 1 else year, month, day⟩

/-- The last year that has a written form. -/
def lastYear : Nat := 262142

open Text.Decimal in
/-- A year has at least four digits, and a sign if it needs more. -/
def yearText (year : Nat) : String :=
  if year ≤ 9999 then padded 4 year else "+" ++ toString year

open Text.Decimal in
/-- The text `YYYY-MM-DD hh:mm:ss` of a second after the epoch, for dates up to
`lastYear`. -/
def secondText? (seconds : Nat) : Option String :=
  let date := ofDays (seconds / 86400)
  let ofDay := seconds % 86400
  if date.year ≤ lastYear then
    some (yearText date.year ++ "-" ++ padded 2 date.month ++ "-" ++ padded 2 date.day ++ " " ++
      padded 2 (ofDay / 3600) ++ ":" ++ padded 2 (ofDay / 60 % 60) ++ ":" ++ padded 2 (ofDay % 60))
  else none

end Overlay.Calendar
