/-!
# Moments

The text of a moment in universal time: date, time of day and millionths of a second.  Moments are
counted in millionths of a second from the start of 1970.
-/

namespace MergedMining.Logging

/-- The year, month and day of a day counted from the start of 1970.  Years are taken to start in
March, so that the day that leap years have more is the last one of its year. -/
def civilDate (day : Nat) : Nat × Nat × Nat :=
  let sinceEra := day + 719468
  let era := sinceEra / 146097
  let dayOfEra := sinceEra % 146097
  let yearOfEra := (dayOfEra - dayOfEra / 1460 + dayOfEra / 36524 - dayOfEra / 146096) / 365
  let dayOfYear := dayOfEra - (365 * yearOfEra + yearOfEra / 4 - yearOfEra / 100)
  let month := (5 * dayOfYear + 2) / 153
  let dayOfMonth := dayOfYear - (153 * month + 2) / 5 + 1
  let year := yearOfEra + 400 * era
  if month < 10 then (year, month + 3, dayOfMonth) else (year + 1, month - 9, dayOfMonth)

/-- A number with zeros in front, up to a width. -/
def zeroPadded (width n : Nat) : String :=
  let digits := Nat.toDigits 10 n
  String.ofList (List.replicate (width - digits.length) '0' ++ digits)

/-- The text of a day that holds a moment. -/
def dayText (micros : Nat) : String :=
  let (year, month, day) := civilDate (micros / 86400000000)
  zeroPadded 4 year ++ "-" ++ zeroPadded 2 month ++ "-" ++ zeroPadded 2 day

/-- The hour, the minute and the second of a moment, each in two digits. -/
def clock (micros : Nat) : String × String × String :=
  let inDay := micros / 1000000 % 86400
  (zeroPadded 2 (inDay / 3600), zeroPadded 2 (inDay / 60 % 60), zeroPadded 2 (inDay % 60))

/-- The text of a moment. -/
def momentText (micros : Nat) : String :=
  let (hour, minute, second) := clock micros
  dayText micros ++ "T" ++ hour ++ ":" ++ minute ++ ":" ++ second ++ "." ++
    zeroPadded 6 (micros % 1000000) ++ "Z"

end MergedMining.Logging
