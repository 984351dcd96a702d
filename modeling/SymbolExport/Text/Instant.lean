import SymbolExport.Decimal.Digits

/-!
# Instants

A point in time as the seconds since the beginning of 1970 and the nanoseconds behind them, and its
text in Coordinated Universal Time.
-/

namespace SymbolExport

structure Instant where
  seconds : Nat
  nanoseconds : Nat := 0
deriving DecidableEq, Repr

namespace Instant

/-- A number with zeros in front, up to a width. -/
def wide (width n : Nat) : String :=
  let digits := Decimal.text n
  "".pushn '0' (width - digits.length) ++ digits

/--
The date of a day since the beginning of 1970. Years are counted from March, so that the leap day is
the last one; an era is 400 years.
-/
def date (days : Nat) : Nat × Nat × Nat :=
  let shifted := days + 719468
  let era := shifted / 146097
  let day := shifted % 146097
  let year := (day - day / 1460 + day / 36524 - day / 146096) / 365
  let dayOfYear := day - (365 * year + year / 4 - year / 100)
  let month := (5 * dayOfYear + 2) / 153
  let dayOfMonth := dayOfYear - (153 * month + 2) / 5 + 1
  if month < 10 then (year + 400 * era, month + 3, dayOfMonth)
  else (year + 400 * era + 1, month - 9, dayOfMonth)

/-- The date and the time of day, to the second. -/
def dateTime (i : Instant) : String :=
  let (year, month, day) := date (i.seconds / 86400)
  let time := i.seconds % 86400
  wide 4 year ++ "-" ++ wide 2 month ++ "-" ++ wide 2 day ++ "T" ++ wide 2 (time / 3600) ++ ":" ++
    wide 2 (time / 60 % 60) ++ ":" ++ wide 2 (time % 60)

/-- The text in a report: as many groups of three fractional digits as are needed. -/
def report (i : Instant) : String :=
  let fraction :=
    if i.nanoseconds = 0 then ""
    else if i.nanoseconds % 1000000 = 0 then "." ++ wide 3 (i.nanoseconds / 1000000)
    else if i.nanoseconds % 1000 = 0 then "." ++ wide 6 (i.nanoseconds / 1000)
    else "." ++ wide 9 i.nanoseconds
  i.dateTime ++ fraction ++ "+00:00"

/-- The text in the log, to the microsecond. -/
def logText (i : Instant) : String :=
  i.dateTime ++ "." ++ wide 6 (i.nanoseconds / 1000) ++ "Z"

/-- The first instant of a leap day. -/
example : report { seconds := 951782400 } = "2000-02-29T00:00:00+00:00" := by decide +kernel

end Instant

end SymbolExport
