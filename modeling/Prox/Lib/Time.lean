import Prox.Lib.Go

/-! # Calendar time as in Go's `time` package

Instants are Unix seconds. A `Location` answers the question the time zone database answers: which
offset applies at an instant, and over which interval. `dateUnix` is `time.Date` and `addDate` is
`Time.AddDate`, both on the proleptic Gregorian calendar with Go's normalisation of out-of-range
months and days. -/

namespace Prox

/-- A calendar date. -/
structure Civil where
  year : Int
  month : Int
  day : Int
  deriving DecidableEq

/-- Days since 1 January 1970 of a date; the month may lie outside 1 to 12 and the day outside the
month, as `time.Date` allows. -/
def daysOfCivil (year month day : Int) : Int :=
  let months := year * 12 + (month - 1)
  let y := months / 12
  let m := months % 12 + 1
  -- count years from March, so that the leap day comes last
  let y' := if m ≤ 2 then y - 1 else y
  let era := y' / 400
  let yoe := y' - era * 400
  let doy := (153 * (if m ≤ 2 then m + 9 else m - 3) + 2) / 5
  let doe := yoe * 365 + yoe / 4 - yoe / 100 + doy
  era * 146097 + doe - 719468 + (day - 1)

/-- The date of a day count. -/
def civilOfDays (days : Int) : Civil :=
  let z := days + 719468
  let era := z / 146097
  let doe := z - era * 146097
  let yoe := (doe - doe / 1460 + doe / 36524 - doe / 146096) / 365
  let doy := doe - (365 * yoe + yoe / 4 - yoe / 100)
  let mp := (5 * doy + 2) / 153
  let month := if mp < 10 then mp + 3 else mp - 9
  { year := yoe + era * 400 + (if month ≤ 2 then 1 else 0), month,
    day := doy - (153 * mp + 2) / 5 + 1 }

example : civilOfDays 0 = ⟨1970, 1, 1⟩ := by decide
example : daysOfCivil 2024 14 0 = daysOfCivil 2025 1 31 := by decide
example : civilOfDays (daysOfCivil 2024 2 29) = ⟨2024, 2, 29⟩ := by decide

/-- `Weekday`, with Sunday as 0. -/
def weekdayOfDays (days : Int) : Int := (days + 4) % 7

/-- The zone in force at an instant: its offset east of UTC and the interval it holds for. -/
structure Zone where
  offset : Int
  start : Int
  stop : Int

/-- A time zone. -/
structure Location where
  lookup : Int → Zone

/-- The location with one offset at all times. -/
def Location.fixed (offset : Int) : Location := ⟨fun _ => ⟨offset, -(2 ^ 63), 2 ^ 63 - 1⟩⟩

/-- The wall-clock seconds an instant shows. -/
def Location.wall (loc : Location) (unix : Int) : Int := unix + (loc.lookup unix).offset

/-- The day an instant falls on. -/
def Location.days (loc : Location) (unix : Int) : Int := loc.wall unix / 86400

/-- The date an instant falls on. -/
def Location.civil (loc : Location) (unix : Int) : Civil := civilOfDays (loc.days unix)

/-- The seconds since midnight an instant shows. -/
def Location.clock (loc : Location) (unix : Int) : Int := loc.wall unix % 86400

/-- `time.Date(year, month, day, 0, 0, clock, 0, loc).Unix()`. The offset is looked up at the wall
time first and once more when the result falls outside the zone found there. -/
def Location.dateUnix (loc : Location) (year month day clock : Int) : Int :=
  let unix := daysOfCivil year month day * 86400 + clock
  let zone := loc.lookup unix
  if zone.offset = 0 then unix else
  let utc := unix - zone.offset
  if utc < zone.start ∨ zone.stop ≤ utc then unix - (loc.lookup utc).offset else utc

/-- `t.AddDate(0, months, days)`. -/
def Location.addDate (loc : Location) (unix months days : Int) : Int :=
  let c := loc.civil unix
  loc.dateUnix c.year (c.month + months) (c.day + days) (loc.clock unix)

/-- Seconds added by `t.Add(time.Duration(seconds) * time.Second)` to a whole second `t`, as seen by
`Unix()`: the product wraps in 64 bits and the fraction is dropped downwards. -/
def durationSeconds (seconds : Int) : Int := wrapInt64 (seconds * 1000000000) / 1000000000

/-! ## Clock readings -/

/-- `time.Second`, in nanoseconds. -/
def nanosPerSecond : Int := 1000000000

/-- `t.Unix()` of a time in nanoseconds. -/
def unixSeconds (t : Int) : Int := t / nanosPerSecond

/-- `t.Unix()` does not go back. -/
theorem unixSeconds_mono {t t' : Int} (h : t ≤ t') : unixSeconds t ≤ unixSeconds t' :=
  Int.ediv_le_ediv (by decide) h

end Prox
