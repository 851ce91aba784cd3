import SuggestBridge.Text.Basic

/-!
# The calendar

Days are numbered from 1970-01-01 on, in the calendar of today, from year 1 to year 9999.
-/

namespace SuggestBridge

/-- A day of the calendar. -/
structure Date where
  year : Nat
  month : Nat
  day : Nat
  deriving DecidableEq

namespace Date

/-- Whether a year has a 29th of February. -/
def isLeap (year : Nat) : Bool := year % 4 = 0 && (year % 100 ≠ 0 || year % 400 = 0)

/-- The number of days of a month. -/
def daysInMonth (year month : Nat) : Nat :=
  if month = 2 then (if isLeap year then 29 else 28)
  else if month = 4 ∨ month = 6 ∨ month = 9 ∨ month = 11 then 30
  else 31

/-- The last year. -/
def lastYear : Nat := 9999

/-- Whether the calendar has a day. -/
def isValid (d : Date) : Bool :=
  1 ≤ d.year && d.year ≤ lastYear && 1 ≤ d.month && d.month ≤ 12 && 1 ≤ d.day &&
    d.day ≤ daysInMonth d.year d.month

/-! ## Numbers of days

Years are counted from March on, so that the 29th of February ends a year, and in eras of 400 years,
which all have the same number of days. -/

/-- The number of days of an era. -/
def daysPerEra : Nat := 146097

/-- The number of days from the first day of era zero to 1970-01-01. -/
def epochOffset : Int := 719468

/-- The day of an era that a month and a day of a year from March on have. -/
def dayOfEra (yearOfEra month day : Nat) : Nat :=
  let monthFromMarch := if 2 < month then month - 3 else month + 9
  let dayOfYear := (153 * monthFromMarch + 2) / 5 + day - 1
  365 * yearOfEra + yearOfEra / 4 - yearOfEra / 100 + dayOfYear

/-- The number of a day, counted from 1970-01-01. -/
def number (d : Date) : Int :=
  let year : Int := if d.month ≤ 2 then (d.year : Int) - 1 else d.year
  year.fdiv 400 * daysPerEra + dayOfEra (year.fmod 400).toNat d.month d.day - epochOffset

/-- The year, month and day of the number of a day. -/
def partsOfNumber (n : Int) : Int × Nat × Nat :=
  let era := (n + epochOffset).fdiv daysPerEra
  let day := ((n + epochOffset).fmod daysPerEra).toNat
  let year := (day - day / 1460 + day / 36524 - day / 146096) / 365
  let dayOfYear := day - (365 * year + year / 4 - year / 100)
  let monthFromMarch := (5 * dayOfYear + 2) / 153
  let month := if monthFromMarch < 10 then monthFromMarch + 3 else monthFromMarch - 9
  (era * 400 + year + (if month ≤ 2 then 1 else 0), month,
    dayOfYear - (153 * monthFromMarch + 2) / 5 + 1)

/-- The day of a number. -/
def ofNumber (n : Int) : Date :=
  let (year, month, day) := partsOfNumber n
  ⟨year.toNat, month, day⟩

/-- A number with two digits. -/
def twoDigits (n : Nat) : Text := (if n < 10 then Text.ofString "0" else []) ++ Text.ofNat n

/-- A day with a year of at least four digits. -/
def isoText (d : Date) : Text :=
  let year := Text.ofNat d.year
  List.replicate (4 - year.length) (CodePoint.ofChar '0') ++ year ++ "-" ++ twoDigits d.month ++
    "-" ++ twoDigits d.day

/-- A day with a year of as many digits as it needs. -/
def shortText (d : Date) : Text :=
  Text.ofNat d.year ++ "-" ++ twoDigits d.month ++ "-" ++ twoDigits d.day

end Date

end SuggestBridge
