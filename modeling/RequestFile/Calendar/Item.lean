import RequestFile.Calendar.Moment
import RequestFile.Decimal.Read
/-!
# The items of a written date

A date is written by a list of items: numbers with padding, names, fractions of a second, offsets of
the zone, and characters that stand for themselves.
-/

namespace RequestFile.Calendar

/-- What fills a number up to its width. -/
inductive Pad where
  | nothing
  | zeros
  | spaces
deriving Repr, DecidableEq

/-- A number that belongs to a moment. -/
inductive NumberField where
  | year
  | century
  | yearOfCentury
  | weekYear
  | weekYearOfCentury
  | quarter
  | month
  | day
  | weekFromSunday
  | weekFromMonday
  | week
  | daysFromSunday
  | weekdayNumber
  | ordinal
  | hour
  | hour12
  | minute
  | second
  | nanosecond
  | timestamp
deriving Repr, DecidableEq

/-- How much of the offset of a zone is written, and whether colons stand between its parts. -/
inductive OffsetStyle where
  | plain
  | colon
  | seconds
  | hours
deriving Repr, DecidableEq

/-- An item of a written date. -/
inductive Item where
  | literal (c : Char)
  | number (field : NumberField) (pad : Pad)
  | shortWeekday
  | longWeekday
  | shortMonth
  | longMonth
  | lowerHalf
  | upperHalf
  /-- A fraction of the second with so many places, after a point or without one. -/
  | fraction (point : Bool) (places : Nat)
  /-- A fraction of the second with as many places as it needs, in threes. -/
  | wholeFraction
  | offset (style : OffsetStyle)
  | zoneName
  /-- Date, time, fraction and offset in the form of internet timestamps. -/
  | timestampText
deriving Repr, DecidableEq

/-- The names of the weekdays, from Sunday on. -/
def weekdayNames : List String :=
  ["Sunday", "Monday", "Tuesday", "Wednesday", "Thursday", "Friday", "Saturday"]

/-- The names of the months. -/
def monthNames : List String :=
  ["January", "February", "March", "April", "May", "June", "July", "August", "September",
    "October", "November", "December"]

/-- The first three letters of a name. -/
def shortName (name : List Char) : List Char :=
  name.take 3

/-- The name of the weekday. -/
def Moment.weekdayName (m : Moment) : List Char :=
  (weekdayNames[weekday m.dayNumber]?.getD "").toList

/-- The name of the month. -/
def Moment.monthName (m : Moment) : List Char :=
  (monthNames[m.date.month.toNat - 1]?.getD "").toList

/-- A number with a sign in front if it is negative or if one is asked for, filled up to a width. -/
def padded (pad : Pad) (width : Nat) (alwaysSign : Bool) (n : Int) : List Char :=
  let sign := if n < 0 then ['-'] else if alwaysSign then ['+'] else []
  let ds := Decimal.digits n.natAbs
  let missing := width - (sign.length + ds.length)
  match pad with
  | .nothing => sign ++ ds
  | .zeros => sign ++ List.replicate missing '0' ++ ds
  | .spaces => List.replicate missing ' ' ++ sign ++ ds

/-- A number of two places. Numbers from one hundred on have as their first place the character that
lies so far behind `0`. -/
def twoPlaces (pad : Pad) (n : Nat) : List Char :=
  let tens := n / 10
  let first := match pad with
    | .nothing => if tens == 0 then [] else [Char.ofNat (48 + tens)]
    | .zeros => [Char.ofNat (48 + tens)]
    | .spaces => if tens == 0 then [' '] else [Char.ofNat (48 + tens)]
  first ++ Decimal.digits (n % 10)

/-- A year: four places, and a sign with at least five characters outside of 0 to 9999. -/
def yearText (pad : Pad) (year : Int) : List Char :=
  if 0 ≤ year && year ≤ 9999 then padded pad 4 false year else padded pad 5 true year

/-- The remainder of a year in its century. -/
def inCentury (year : Int) : Nat :=
  (year % 100).toNat

/-- A number of a moment, filled up as asked. Quarters and weekdays have one place and are never
filled up. -/
def NumberField.render (m : Moment) (pad : Pad) : NumberField → List Char
  | year => yearText pad m.date.year
  | century => twoPlaces pad (m.date.year / 100 % 256).toNat
  | yearOfCentury => twoPlaces pad (inCentury m.date.year)
  | weekYear => yearText pad (Calendar.weekYear m.dayNumber)
  | weekYearOfCentury => twoPlaces pad (inCentury (Calendar.weekYear m.dayNumber))
  | quarter => Decimal.digits ((m.date.month.toNat - 1) / 3 + 1)
  | month => twoPlaces pad m.date.month.toNat
  | day => twoPlaces pad m.date.day.toNat
  | weekFromSunday => twoPlaces pad (weeksFrom 0 m.dayNumber)
  | weekFromMonday => twoPlaces pad (weeksFrom 1 m.dayNumber)
  | week => twoPlaces pad (weekNumber m.dayNumber)
  | daysFromSunday => Decimal.digits (weekday m.dayNumber)
  | weekdayNumber => Decimal.digits ((weekday m.dayNumber + 6) % 7 + 1)
  | ordinal => padded pad 3 false (Calendar.ordinal m.dayNumber)
  | hour => twoPlaces pad m.hour
  | hour12 => twoPlaces pad m.hour12
  | minute => twoPlaces pad m.minute
  | second => twoPlaces pad m.second
  | nanosecond => padded pad 9 false m.nanosecond
  | timestamp => padded pad 9 false m.instant.seconds

/-- The first places of a fraction of a second. -/
def fractionDigits (places nanosecond : Nat) : List Char :=
  (padded .zeros 9 false nanosecond).take places

/-- A fraction of a second after a point, with no, three, six or nine places as it needs. -/
def wholeFractionText (nanosecond : Nat) : List Char :=
  if nanosecond == 0 then []
  else if nanosecond % 1000000 == 0 then '.' :: fractionDigits 3 nanosecond
  else if nanosecond % 1000 == 0 then '.' :: fractionDigits 6 nanosecond
  else '.' :: fractionDigits 9 nanosecond

/-- The offset of a zone, with its sign. -/
def Zone.offsetText (zone : Zone) (style : OffsetStyle) : List Char :=
  let size := zone.minutes.natAbs
  let hours := twoPlaces .zeros (size / 60)
  let minutes := twoPlaces .zeros (size % 60)
  (if zone.minutes < 0 then '-' else '+') ::
    match style with
    | .plain => hours ++ minutes
    | .colon => hours ++ ':' :: minutes
    | .seconds => hours ++ ':' :: minutes ++ [':', '0', '0']
    | .hours => hours

/-- The name of a zone: `UTC`, or its offset. -/
def Zone.name : Zone → List Char
  | utc => ['U', 'T', 'C']
  | offset minutes => (offset minutes).offsetText .colon

/-- Date and time up to the second, with a `T` between them. -/
def Moment.dateTimeText (m : Moment) : List Char :=
  let two := twoPlaces .zeros
  yearText .zeros m.date.year ++ '-' :: two m.date.month.toNat ++ '-' :: two m.date.day.toNat ++
    'T' :: two m.hour ++ ':' :: two m.minute ++ ':' :: two m.second

/-- An item of a moment. -/
def Item.render (m : Moment) : Item → List Char
  | literal c => [c]
  | number field pad => field.render m pad
  | shortWeekday => shortName m.weekdayName
  | longWeekday => m.weekdayName
  | shortMonth => shortName m.monthName
  | longMonth => m.monthName
  | lowerHalf => if m.isAfternoon then ['p', 'm'] else ['a', 'm']
  | upperHalf => if m.isAfternoon then ['P', 'M'] else ['A', 'M']
  | fraction point places =>
    (if point then ['.'] else []) ++ fractionDigits places m.nanosecond
  | wholeFraction => wholeFractionText m.nanosecond
  | offset style => m.zone.offsetText style
  | zoneName => m.zone.name
  | timestampText =>
    m.dateTimeText ++ wholeFractionText m.nanosecond ++ m.zone.offsetText .colon

end RequestFile.Calendar
