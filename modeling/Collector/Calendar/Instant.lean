/-
# Points in time

A point in time is a number of seconds since the beginning of 1970.  It is written as date and
time of day in UTC, `2023-11-14T22:13:20Z`.

The date is found by counting days from 1 March of year 0: counted so, the leap day is the last
day of its year, years repeat after 146097 days, and the months of a year begin at the days
`(153 * month + 2) / 5`.
-/
import Collector.Calendar.Date

namespace Collector
namespace Calendar

/-- Year, month and day of the `days`-th day after the first of 1970. -/
def dayAfter1970 (days : Int) : Int × Nat × Nat :=
  let sinceMarch := days + 719468
  let era := sinceMarch.fdiv 146097
  let dayOfEra := (sinceMarch.fmod 146097).toNat
  let yearOfEra :=
    (dayOfEra - dayOfEra / 1460 + dayOfEra / 36524 - dayOfEra / 146096) / 365
  let dayOfYear := dayOfEra - (365 * yearOfEra + yearOfEra / 4 - yearOfEra / 100)
  let monthFromMarch := (5 * dayOfYear + 2) / 153
  let day := dayOfYear - (153 * monthFromMarch + 2) / 5 + 1
  let month := if monthFromMarch < 10 then monthFromMarch + 3 else monthFromMarch - 9
  (era * 400 + yearOfEra + (if month ≤ 2 then 1 else 0), month, day)

/-- A point in time as date and time of day. -/
def formatInstant (seconds : Int) : String :=
  let (year, month, day) := dayAfter1970 (seconds.fdiv 86400)
  let second := (seconds.fmod 86400).toNat
  String.ofList (formatDay year month day ++ 'T' :: Text.padded 2 (second / 3600) ++
    ':' :: Text.padded 2 (second / 60 % 60) ++ ':' :: Text.padded 2 (second % 60) ++ ['Z'])

end Calendar

/-- The date in UTC at a point in time, if it is within the calendar. -/
def Date.ofInstant? (seconds : Int) : Option Date :=
  let (year, month, day) := Calendar.dayAfter1970 (seconds.fdiv 86400)
  ofYmd? year month day

end Collector
