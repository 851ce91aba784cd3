import SuggestBridge.Time.Calendar

/-!
# Moments

A moment is a number of microseconds since 1970-01-01, midnight, without any time zone. Only moments
of the years 1 to 9999 have a date.
-/

namespace SuggestBridge

/-- A moment. -/
structure Moment where
  microseconds : Int
  deriving DecidableEq

namespace Moment

/-- The number of microseconds of a day. -/
def perDay : Nat := 86400000000

/-- The number of the day of a moment. -/
def dayNumber (m : Moment) : Int := m.microseconds.fdiv perDay

/-- The microseconds since midnight. -/
def sinceMidnight (m : Moment) : Nat := (m.microseconds.fmod perDay).toNat

/-- The year of a moment. -/
def year (m : Moment) : Int := (Date.partsOfNumber m.dayNumber).1

/-- Whether a moment has a date. -/
def hasDate (m : Moment) : Bool := 1 ≤ m.year && m.year ≤ Date.lastYear

/-- The date of a moment that has one. -/
def date (m : Moment) : Date := Date.ofNumber m.dayNumber

/-- The moment of a date and a time of day in microseconds. -/
def ofDate (d : Date) (sinceMidnight : Nat) : Moment := ⟨d.number * perDay + sinceMidnight⟩

/-- The moment a number of days before. -/
def daysBefore (m : Moment) (days : Int) : Moment := ⟨m.microseconds - days * perDay⟩

/-- Whether a moment comes before another. -/
def isBefore (a b : Moment) : Bool := a.microseconds < b.microseconds

/-- A moment as date and time of day; a fraction of a second is written only if there is one. -/
def isoText (m : Moment) : Text :=
  let seconds := m.sinceMidnight / 1000000
  let fraction := Text.ofNat (m.sinceMidnight % 1000000)
  m.date.isoText ++ "T" ++ Date.twoDigits (seconds / 3600) ++ ":" ++
    Date.twoDigits (seconds / 60 % 60) ++ ":" ++ Date.twoDigits (seconds % 60) ++
    (if m.sinceMidnight % 1000000 = 0 then Text.ofString ""
      else "." ++ List.replicate (6 - fraction.length) (CodePoint.ofChar '0') ++ fraction) ++
    "+00:00"

/-- The number that ASCII digits at a place of a text spell; missing digits count as zeros. -/
def digitsAt (t : Text) (start count : Nat) : Nat :=
  let digits := ((t.drop start).take count).takeWhile CodePoint.isAsciiDigit
  digits.foldl (fun n c => 10 * n + (c.val - 0x30)) 0 * Nat.pow 10 (count - digits.length)

/-- Reads a date, the letter T and a time of day, perhaps with a fraction of a second. -/
def read (t : Text) : Moment :=
  let date : Date := ⟨digitsAt t 0 4, digitsAt t 5 2, digitsAt t 8 2⟩
  let seconds := digitsAt t 11 2 * 3600 + digitsAt t 14 2 * 60 + digitsAt t 17 2
  ofDate date (seconds * 1000000 + digitsAt t 20 6)

end Moment

end SuggestBridge
