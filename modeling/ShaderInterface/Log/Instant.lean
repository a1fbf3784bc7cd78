/-!
# Instants

A point in time as the log writes it: the date and the time of day to the millisecond, in universal
time. Dates are those of the Gregorian calendar, before its introduction as well as after it.
-/

namespace ShaderInterface.Log

/-- A point in time, counted from the beginning of 1970. -/
structure Instant where
  seconds : Int
  nanoseconds : Nat := 0
  deriving DecidableEq, Repr

/-- A day of the calendar. -/
structure Date where
  year : Int
  month : Nat
  day : Nat
  deriving DecidableEq, Repr

/-- The number of days in four hundred years. -/
def daysOfEra : Nat := 146097

/-- The date of a day, counted from the first of 1970. Years are taken to begin in March, so that
the day that some years have more comes last, and are counted within an era of four hundred. -/
def Date.ofDays (days : Int) : Date :=
  let shifted := days + 719468
  let era := shifted / daysOfEra
  let day := (shifted % daysOfEra).toNat
  let year := (day - day / 1460 + day / 36524 - day / 146096) / 365
  let dayOfYear := day - (365 * year + year / 4 - year / 100)
  let month := (5 * dayOfYear + 2) / 153
  { year := year + era * 400 + (if month < 10 then 0 else 1)
    month := if month < 10 then month + 3 else month - 9
    day := dayOfYear - (153 * month + 2) / 5 + 1 }

/-- A number with zeros before it up to the given width. -/
def padded (width n : Nat) : String :=
  let digits := Nat.toDigits 10 n
  String.ofList (List.replicate (width - digits.length) '0' ++ digits)

/-- A year in four digits or more; a year that has not four digits has a sign. -/
def yearText (year : Int) : String :=
  let digits := padded 4 year.natAbs
  if year < 0 then "-" ++ digits else if 9999 < year then "+" ++ digits else digits

/-- The text of a date. -/
def Date.text (d : Date) : String :=
  yearText d.year ++ "-" ++ padded 2 d.month ++ "-" ++ padded 2 d.day

/-- The text of an instant. -/
def Instant.text (t : Instant) : String :=
  let seconds := t.seconds + t.nanoseconds / 1000000000
  let second := (seconds % 86400).toNat
  (Date.ofDays (seconds / 86400)).text ++ " " ++ padded 2 (second / 3600) ++ ":" ++
    padded 2 (second / 60 % 60) ++ ":" ++ padded 2 (second % 60) ++ "." ++
    padded 3 (t.nanoseconds % 1000000000 / 1000000)

example : Date.ofDays 0 = ⟨1970, 1, 1⟩ := by decide
example : Date.ofDays 11016 = ⟨2000, 2, 29⟩ := by decide
example : Date.ofDays (-1) = ⟨1969, 12, 31⟩ := by decide

end ShaderInterface.Log
