import Retrace.Decimal.Numeral

/-!
# Dates

Dates are written `YYYY-MM-DD hh:mm:ss`, in the proleptic Gregorian calendar and in universal time.
Years are counted from March, so that the day a leap year has more is its last one.
-/

namespace Retrace

structure DateTime where
  year : Int
  month : Nat
  day : Nat
  hour : Nat
  minute : Nat
  second : Nat
deriving DecidableEq, Repr

namespace DateTime

open Decimal

/-! ## The calendar -/

def isLeap (year : Int) : Bool := year % 4 == 0 && (year % 100 != 0 || year % 400 == 0)

def daysInMonth (year : Int) (month : Nat) : Nat :=
  if month = 2 then (if isLeap year then 29 else 28)
  else if month = 4 ∨ month = 6 ∨ month = 9 ∨ month = 11 then 30
  else 31

/-- Days in the 400 years after which the calendar repeats. -/
def daysInEra : Int := 146097

/-- The day 1970-01-01, counted from 0000-03-01. -/
def epochDay : Int := 719468

/-- The number of a day, counted from 1970-01-01. -/
def dayNumber (year : Int) (month day : Nat) : Int :=
  let y := if month ≤ 2 then year - 1 else year
  let era := y / 400
  let yearOfEra := y % 400
  let monthFromMarch : Int := if 2 < month then month - 3 else month + 9
  let dayOfYear := (153 * monthFromMarch + 2) / 5 + day - 1
  let dayOfEra := yearOfEra * 365 + yearOfEra / 4 - yearOfEra / 100 + dayOfYear
  era * daysInEra + dayOfEra - epochDay

/-- Year, month and day of a day's number. -/
def ofDayNumber (n : Int) : Int × Nat × Nat :=
  let z := n + epochDay
  let era := z / daysInEra
  let dayOfEra := z % daysInEra
  let yearOfEra := (dayOfEra - dayOfEra / 1460 + dayOfEra / 36524 - dayOfEra / 146096) / 365
  let dayOfYear := dayOfEra - (365 * yearOfEra + yearOfEra / 4 - yearOfEra / 100)
  let monthFromMarch := (5 * dayOfYear + 2) / 153
  let day := dayOfYear - (153 * monthFromMarch + 2) / 5 + 1
  let month := if monthFromMarch < 10 then monthFromMarch + 3 else monthFromMarch - 9
  let year := yearOfEra + era * 400
  (if month ≤ 2 then year + 1 else year, month.toNat, day.toNat)

/-! ## Seconds -/

/-- Seconds from 1970-01-01 00:00:00. A leap second counts as the second before it. -/
def toSeconds (d : DateTime) : Int :=
  dayNumber d.year d.month d.day * 86400 + d.hour * 3600 + d.minute * 60 + min d.second 59

/-- The first second of the years that dates can show. -/
def minSeconds : Int := -8334601228800

def maxSeconds : Int := 8210266876799

def ofSeconds (s : Int) : DateTime :=
  let (year, month, day) := ofDayNumber (s / 86400)
  let rest := (s % 86400).toNat
  ⟨year, month, day, rest / 3600, rest / 60 % 60, rest % 60⟩

/-! ## Texts -/

/-- Whether the fields are in their ranges. A minute may have a leap second. -/
def isValid (d : DateTime) : Bool :=
  1 ≤ d.month && d.month ≤ 12 && 1 ≤ d.day && d.day ≤ daysInMonth d.year d.month &&
    d.hour ≤ 23 && d.minute ≤ 59 && d.second ≤ 60

/-- A numeral of exactly `n` digits at the start, and the text after it. -/
def field? (n : Nat) (cs : List Char) : Option (Nat × List Char) :=
  let ds := cs.take n
  if ds.length = n && ds.all Char.isDigit then some (value ds, cs.drop n) else none

/-- A separator and a field of two digits. -/
def nextField? (sep : Char) : List Char → Option (Nat × List Char)
  | c :: cs => if c = sep then field? 2 cs else none
  | [] => none

/-- Reads a date. Both the shape and the calendar are checked. -/
def read? (cs : List Char) : Option DateTime := do
  let (year, cs) ← field? 4 cs
  let (month, cs) ← nextField? '-' cs
  let (day, cs) ← nextField? '-' cs
  let (hour, cs) ← nextField? ' ' cs
  let (minute, cs) ← nextField? ':' cs
  let (second, cs) ← nextField? ':' cs
  let date : DateTime := ⟨year, month, day, hour, minute, second⟩
  if cs.isEmpty && date.isValid then some date else none

/-- A year of four digits at least, with a sign outside the years 0 to 9999. -/
def writeYear : Int → List Char
  | .ofNat n => if n ≤ 9999 then padded 4 n else '+' :: padded 4 n
  | .negSucc n => '-' :: padded 4 (n + 1)

def write (d : DateTime) : List Char :=
  writeYear d.year ++ '-' :: padded 2 d.month ++ '-' :: padded 2 d.day ++
    ' ' :: padded 2 d.hour ++ ':' :: padded 2 d.minute ++ ':' :: padded 2 d.second

def isDate (text : String) : Bool := (read? text.toList).isSome

def secondsOf? (text : String) : Option Int := (read? text.toList).map toSeconds

/-- The date of a second, if its year can be shown. -/
def textOf? (seconds : Int) : Option String :=
  if minSeconds ≤ seconds ∧ seconds ≤ maxSeconds then some (String.ofList (ofSeconds seconds).write)
  else none

end DateTime
end Retrace
