/-!
# Calendar dates and times of day

Dates of the proleptic Gregorian calendar and times of day to the nanosecond, without a time zone,
and their ISO 8601 texts. A leap second is the second 59 with a billion nanoseconds or more.
-/

namespace FrameQuery

namespace Calendar

/-- Years divisible by four, but of the full centuries only those divisible by 400. -/
def isLeapYear (year : Int) : Bool := year % 4 == 0 && (year % 100 != 0 || year % 400 == 0)

/-- Days of a month; zero for a number that is no month. -/
def daysInMonth (year : Int) (month : Nat) : Nat :=
  match month with
  | 1 | 3 | 5 | 7 | 8 | 10 | 12 => 31
  | 4 | 6 | 9 | 11 => 30
  | 2 => if isLeapYear year then 29 else 28
  | _ => 0

/-- Whether the three numbers name a day within the supported range of years. -/
def isDate (year : Int) (month day : Nat) : Bool :=
  (-262143 : Int) ≤ year && year ≤ 262142 && 1 ≤ day && day ≤ daysInMonth year month

/-- Whether the four numbers name a time of day. -/
def isTime (hour minute second nanos : Nat) : Bool :=
  hour < 24 && minute < 60 && second < 60 &&
    (nanos < 1000000000 || (nanos < 2000000000 && second == 59))

/-- A number with zeros before it up to a width. -/
def padded (width n : Nat) : String :=
  let digits := Nat.toDigits 10 n
  String.ofList (List.replicate (width - digits.length) '0' ++ digits)

/-- A year has four digits, and a sign when it lies outside 0 to 9999. -/
def yearText (year : Int) : String :=
  let sign := if year < 0 then "-" else if 9999 < year then "+" else ""
  sign ++ padded 4 year.natAbs

/-- A fraction of a second in three, six or nine digits, the fewest that are exact. -/
def fractionText (nanos : Nat) : String :=
  if nanos = 0 then ""
  else if nanos % 1000000 = 0 then "." ++ padded 3 (nanos / 1000000)
  else if nanos % 1000 = 0 then "." ++ padded 6 (nanos / 1000)
  else "." ++ padded 9 nanos

end Calendar

/-- A day of the calendar. -/
structure Date where
  year : Int
  month : Nat
  day : Nat
  exists_day : Calendar.isDate year month day = true := by decide
  deriving DecidableEq, Repr

/-- A day of the calendar and a time of that day. -/
structure DateTime where
  date : Date
  hour : Nat
  minute : Nat
  second : Nat
  /-- Nanoseconds within the second, a billion or more of them within a leap second. -/
  nanos : Nat
  exists_time : Calendar.isTime hour minute second nanos = true := by decide
  deriving DecidableEq, Repr

namespace Date

/-- The day with these numbers, if there is one. -/
def ofNumbers? (year : Int) (month day : Nat) : Option Date :=
  if h : Calendar.isDate year month day = true then some ⟨year, month, day, h⟩ else none

/-- Year, month and day with hyphens between them. -/
def toText (d : Date) : String :=
  Calendar.yearText d.year ++ "-" ++ Calendar.padded 2 d.month ++ "-" ++ Calendar.padded 2 d.day

end Date

namespace DateTime

/-- The time with these numbers on a day, if there is one. -/
def ofNumbers? (date : Date) (hour minute second nanos : Nat) : Option DateTime :=
  if h : Calendar.isTime hour minute second nanos = true then
    some ⟨date, hour, minute, second, nanos, h⟩
  else none

/-- The second as it is written; a leap second is second 60. -/
def shownSecond (t : DateTime) : Nat := if t.nanos < 1000000000 then t.second else t.second + 1

/-- Day and time with a `T` between them. -/
def toText (t : DateTime) : String :=
  t.date.toText ++ "T" ++ Calendar.padded 2 t.hour ++ ":" ++ Calendar.padded 2 t.minute ++ ":" ++
    Calendar.padded 2 t.shownSecond ++ Calendar.fractionText (t.nanos % 1000000000)

end DateTime

end FrameQuery
