/-!
# Dates

Days of the Gregorian calendar, extended to all years, counted from the first of January 1970. Years
are taken from March to February, so that a leap day is the last day of its year, and four hundred
years always have the same number of days.
-/

namespace RequestFile.Calendar

/-- A day of the Gregorian calendar. -/
structure Date where
  year : Int
  month : Int
  day : Int
deriving Repr, DecidableEq

/-- The number of a day; the first of January 1970 has the number zero. -/
def dayNumber (year month day : Int) : Int :=
  let marchYear := if month ≤ 2 then year - 1 else year
  let era := marchYear / 400
  let yearOfEra := marchYear - era * 400
  let monthFromMarch := if 2 < month then month - 3 else month + 9
  let dayOfYear := (153 * monthFromMarch + 2) / 5 + day - 1
  let dayOfEra := yearOfEra * 365 + yearOfEra / 4 - yearOfEra / 100 + dayOfYear
  era * 146097 + dayOfEra - 719468

/-- The day with a number. -/
def Date.ofNumber (number : Int) : Date :=
  let shifted := number + 719468
  let era := shifted / 146097
  let dayOfEra := shifted - era * 146097
  let yearOfEra :=
    (dayOfEra - dayOfEra / 1460 + dayOfEra / 36524 - dayOfEra / 146096) / 365
  let dayOfYear := dayOfEra - (365 * yearOfEra + yearOfEra / 4 - yearOfEra / 100)
  let monthFromMarch := (5 * dayOfYear + 2) / 153
  let month := if monthFromMarch < 10 then monthFromMarch + 3 else monthFromMarch - 9
  { year := yearOfEra + era * 400 + (if month ≤ 2 then 1 else 0)
    month
    day := dayOfYear - (153 * monthFromMarch + 2) / 5 + 1 }

/-- The place of a day in the week, Sunday being zero. -/
def weekday (number : Int) : Nat :=
  ((number + 4) % 7).toNat

/-- The place of a day in its year, counted from one. -/
def ordinal (number : Int) : Nat :=
  (number - dayNumber (Date.ofNumber number).year 1 1 + 1).toNat

/-- The number of the Thursday in the week of a day, where weeks start on Monday. -/
def thursday (number : Int) : Int :=
  number - (weekday number + 6) % 7 + 3

/-- The year to which the week of a day belongs: the one that has its Thursday. -/
def weekYear (number : Int) : Int :=
  (Date.ofNumber (thursday number)).year

/-- The week of a day in the year to which it belongs, counted from one. -/
def weekNumber (number : Int) : Nat :=
  (ordinal (thursday number) - 1) / 7 + 1

/-- How many weeks that start on a given weekday have begun in the year of a day. -/
def weeksFrom (start : Nat) (number : Int) : Nat :=
  (ordinal number + 6 - (weekday number + 7 - start) % 7) / 7

end RequestFile.Calendar
