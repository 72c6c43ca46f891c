import RequestFile.Calendar.Date
/-!
# Moments

A moment is an instant seen in a time zone. Instants are counted in nanoseconds from the start of
1970 in universal time, and a zone shifts them by whole minutes. Every day has 86400 seconds: there
are no leap seconds.
-/

namespace RequestFile.Calendar

/-- A point in time, in nanoseconds from the start of 1970 in universal time. -/
structure Instant where
  nanoseconds : Int
deriving Repr, DecidableEq

/-- The number of nanoseconds in a second. -/
def nanosPerSecond : Int := 1000000000

/-- The number of nanoseconds in a day. -/
def nanosPerDay : Int := 86400 * nanosPerSecond

namespace Instant

/-- The instant at a number of seconds and nanoseconds. -/
def ofSeconds (seconds nanoseconds : Int) : Instant :=
  ⟨seconds * nanosPerSecond + nanoseconds⟩

/-- The whole seconds up to an instant. -/
def seconds (i : Instant) : Int :=
  i.nanoseconds / nanosPerSecond

/-- The start of the first year that can be represented. -/
def first : Instant :=
  ⟨dayNumber (-262143) 1 1 * nanosPerDay⟩

/-- The end of the last year that can be represented. -/
def last : Instant :=
  ⟨dayNumber 262143 1 1 * nanosPerDay - 1⟩

/-- The instant so many milliseconds later, if it can be represented. -/
def addMilliseconds? (i : Instant) (milliseconds : Int) : Option Instant :=
  let shifted : Instant := ⟨i.nanoseconds + milliseconds * 1000000⟩
  if first.nanoseconds ≤ shifted.nanoseconds ∧ shifted.nanoseconds ≤ last.nanoseconds then
    some shifted
  else none

end Instant

/-- A time zone: universal time, or a fixed number of minutes to the east of it. The number does not
depend on the instant, and zones that differ from universal time by a part of a minute are left out.
-/
inductive Zone where
  | utc
  | offset (minutes : Int)
deriving Repr, DecidableEq

/-- How many minutes a zone is ahead of universal time. -/
def Zone.minutes : Zone → Int
  | utc => 0
  | offset minutes => minutes

/-- An instant in a zone. The second of a moment is at most 59, since no instant stands in a leap
second. -/
structure Moment where
  instant : Instant
  zone : Zone
deriving Repr, DecidableEq

namespace Moment

/-- The nanoseconds from the start of 1970 to a moment on the clocks of its zone. -/
def localNanoseconds (m : Moment) : Int :=
  m.instant.nanoseconds + m.zone.minutes * 60 * nanosPerSecond

/-- The number of the day. -/
def dayNumber (m : Moment) : Int :=
  m.localNanoseconds / nanosPerDay

/-- The date. -/
def date (m : Moment) : Date :=
  .ofNumber m.dayNumber

/-- The nanoseconds from the start of the day. -/
def sinceMidnight (m : Moment) : Nat :=
  (m.localNanoseconds % nanosPerDay).toNat

/-- The hour, from 0 to 23. -/
def hour (m : Moment) : Nat :=
  m.sinceMidnight / (3600 * 1000000000)

/-- The hour on a clock of twelve hours, from 1 to 12. -/
def hour12 (m : Moment) : Nat :=
  if m.hour % 12 == 0 then 12 else m.hour % 12

/-- Whether it is after noon. -/
def isAfternoon (m : Moment) : Bool :=
  12 ≤ m.hour

/-- The minute, from 0 to 59. -/
def minute (m : Moment) : Nat :=
  m.sinceMidnight / (60 * 1000000000) % 60

/-- The second, from 0 to 59. -/
def second (m : Moment) : Nat :=
  m.sinceMidnight / 1000000000 % 60

/-- The nanoseconds of the second. -/
def nanosecond (m : Moment) : Nat :=
  m.sinceMidnight % 1000000000

end Moment

end RequestFile.Calendar
