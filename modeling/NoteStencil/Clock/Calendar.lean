/-! Days and times of the proleptic Gregorian calendar in universal time, from seconds since the start of
1970. A day is placed in its era of 400 years, where years are counted from March so that a leap day comes
last. -/

namespace NoteStencil

structure Instant where
  seconds : Int
  nanos : Nat := 0
  deriving DecidableEq, Repr

structure Date where
  year : Int
  month : Nat
  day : Nat
  deriving DecidableEq, Repr

namespace Date

def daysInEra : Int := 146097

/-- Days from the first of March of the year zero to the first of January 1970. -/
def epochOffset : Int := 719468

/-- Year of an era and day of that year, both from zero, of a day of an era. -/
def yearOfEra (day : Nat) : Nat × Nat :=
  let year := (day - day / 1460 + day / 36524 - day / 146096) / 365
  (year, day - (365 * year + year / 4 - year / 100))

/-- Month from March and day of the month, both from zero, of a day of a year that starts in March. -/
def monthOfYear (day : Nat) : Nat × Nat :=
  let month := (5 * day + 2) / 153
  (month, day - (153 * month + 2) / 5)

def ofDays (days : Int) : Date :=
  let z := days + epochOffset
  let (year, dayOfYear) := yearOfEra (z % daysInEra).toNat
  let (month, day) := monthOfYear dayOfYear
  let year := (year : Int) + z / daysInEra * 400
  if month < 10 then ⟨year, month + 3, day + 1⟩ else ⟨year + 1, month - 9, day + 1⟩

def isLeap (year : Int) : Bool := year % 4 = 0 && (year % 100 ≠ 0 || year % 400 = 0)

def monthLengths (leap : Bool) : List Nat :=
  [31, if leap then 29 else 28, 31, 30, 31, 30, 31, 31, 30, 31, 30, 31]

/-- Day of the year, from one. -/
def ordinal (d : Date) : Nat := ((monthLengths (isLeap d.year)).take (d.month - 1)).foldl (· + ·) 0 + d.day

end Date

/-- An instant as a calendar and a clock show it. The weekday counts from Monday, which is zero. -/
structure Moment where
  instant : Instant
  date : Date
  weekday : Nat
  hour : Nat
  minute : Nat
  second : Nat

namespace Moment

def ofInstant (t : Instant) : Moment :=
  let days := t.seconds / 86400
  let clock := (t.seconds % 86400).toNat
  { instant := t
    date := Date.ofDays days
    weekday := ((days + 3) % 7).toNat
    hour := clock / 3600
    minute := clock / 60 % 60
    second := clock % 60 }

/-- Week of the year when weeks start `shift` days before Monday; days before the first such week
are in week zero. -/
def weekOfYear (m : Moment) (shift : Nat) : Nat :=
  (m.date.ordinal + 6 - (m.weekday + shift) % 7) / 7

/-- A year has 53 weeks when its last day or the last day but one of a leap year is a Thursday, that is when it
ends on a Thursday or the year before it ends on a Wednesday. -/
def weeksInYear (year : Int) : Nat :=
  let lastDay (y : Int) : Int := (y + y / 4 - y / 100 + y / 400) % 7
  if lastDay year = 4 ∨ lastDay (year - 1) = 3 then 53 else 52

/-- Year and number of the week, weeks belonging to the year of their Thursday. -/
def isoWeek (m : Moment) : Int × Nat :=
  let week := (m.date.ordinal + 9 - m.weekday) / 7
  if week = 0 then (m.date.year - 1, weeksInYear (m.date.year - 1))
  else if weeksInYear m.date.year < week then (m.date.year + 1, 1)
  else (m.date.year, week)

end Moment
end NoteStencil
