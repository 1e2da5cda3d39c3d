/-
# Calendar dates

Dates of the proleptic Gregorian calendar between the years -262143 and 262142.  They are
written `2023-01-31`; a year above 9999 has a plus sign and a negative one a minus sign in front
of at least four digits (`Date.format`).

Reading is more lenient than writing (`Date.read?`): blanks may stand before each of the three
numbers, month and day may have one digit, a year without a sign may have fewer than four, and a
year with a sign any number.  The hyphens are fixed, and nothing may follow the day.
-/
import Collector.Text.Blank
import Collector.Text.Digits

namespace Collector
namespace Calendar

/-- Every fourth year is a leap year, but of the full centuries only every fourth. -/
def isLeapYear (year : Int) : Bool :=
  year % 4 == 0 && (year % 100 != 0 || year % 400 == 0)

/-- The number of days of a month; there are twelve months. -/
def daysInMonth (year : Int) : Nat → Nat
  | 1 | 3 | 5 | 7 | 8 | 10 | 12 => 31
  | 4 | 6 | 9 | 11 => 30
  | 2 => if isLeapYear year then 29 else 28
  | _ => 0

/-- The calendar has this day. -/
def IsDay (year : Int) (month day : Nat) : Prop :=
  -262143 ≤ year ∧ year ≤ 262142 ∧ 1 ≤ day ∧ day ≤ daysInMonth year month

instance (year : Int) (month day : Nat) : Decidable (IsDay year month day) :=
  inferInstanceAs (Decidable (_ ∧ _))

/-- A year with its sign, if it needs one, and at least four digits. -/
def formatYear (year : Int) : List Char :=
  if 0 ≤ year ∧ year ≤ 9999 then Text.padded 4 year.natAbs
  else (if year < 0 then '-' else '+') :: Text.padded 4 year.natAbs

/-- A day of the calendar as year, month and day with hyphens between. -/
def formatDay (year : Int) (month day : Nat) : List Char :=
  formatYear year ++ '-' :: Text.padded 2 month ++ '-' :: Text.padded 2 day

end Calendar

/-- A date of the calendar. -/
structure Date where
  year : Int
  month : Nat
  day : Nat
  isDay : Calendar.IsDay year month day
deriving DecidableEq

namespace Date

open Calendar

/-- The date of a year, month and day, if the calendar has it. -/
def ofYmd? (year : Int) (month day : Nat) : Option Date :=
  if h : IsDay year month day then some ⟨year, month, day, h⟩ else none

/-- The date as text. -/
def format (date : Date) : String :=
  String.ofList (formatDay date.year date.month date.day)

/-- The year at the front of a text. -/
def readYear? : List Char → Option (Int × List Char)
  | '-' :: s => (Text.takeNumber? s.length s).map fun (n, rest) => (-(n : Int), rest)
  | '+' :: s => (Text.takeNumber? s.length s).map fun (n, rest) => ((n : Int), rest)
  | s => (Text.takeNumber? 4 s).map fun (n, rest) => ((n : Int), rest)

/-- What follows a hyphen and the blanks after it. -/
def afterHyphen? : List Char → Option (List Char)
  | '-' :: s => some (Text.dropBlanks s)
  | _ => none

/-- The date that a text names. -/
def read? (text : String) : Option Date := do
  let (year, s) ← readYear? (Text.dropBlanks text.toList)
  let (month, s) ← Text.takeNumber? 2 (← afterHyphen? s)
  let (day, s) ← Text.takeNumber? 2 (← afterHyphen? s)
  if s.isEmpty then ofYmd? year month day else none

end Date
end Collector
