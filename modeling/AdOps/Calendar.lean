import AdOps.Number.Layout
import AdOps.Number.Reading
import AdOps.Text.Blank

/-!
# Calendar days

A `Date` is a day of the proleptic Gregorian calendar, kept as the number of days since 1970-01-01,
so that going back by days is subtraction. The calendar reaches from the year -262143 to the year
262142; a day outside has no date.
-/

namespace AdOps

/-- The day number of a year, month and day, counted from 1970-01-01. The year is taken to begin in
March, which puts the leap day at its end. -/
def dayNumber (year : Int) (month day : Nat) : Int :=
  let y := if month ≤ 2 then year - 1 else year
  let era := y.fdiv 400
  let yearOfEra := y - era * 400
  let monthFromMarch : Int := (month + 9) % 12
  let dayOfYear := (153 * monthFromMarch + 2).fdiv 5 + day - 1
  let dayOfEra := yearOfEra * 365 + yearOfEra.fdiv 4 - yearOfEra.fdiv 100 + dayOfYear
  era * 146097 + dayOfEra - 719468

def isLeap (year : Int) : Bool := year % 4 = 0 && (year % 100 ≠ 0 || year % 400 = 0)

/-- The number of days of a month, and zero for a number that is no month. -/
def monthLength (year : Int) (month : Nat) : Nat :=
  match month with
  | 1 | 3 | 5 | 7 | 8 | 10 | 12 => 31
  | 4 | 6 | 9 | 11 => 30
  | 2 => if isLeap year then 29 else 28
  | _ => 0

/-- -262143-01-01. -/
def firstDay : Int := -96465292

/-- 262142-12-31. -/
def lastDay : Int := 95026236

structure Date where
  /-- Days since 1970-01-01. -/
  day : Int
  inCalendar : firstDay ≤ day ∧ day ≤ lastDay
deriving DecidableEq

namespace Date

/-- The date of a day number, if the calendar reaches it. -/
def ofDay? (n : Int) : Option Date :=
  if h : firstDay ≤ n ∧ n ≤ lastDay then some ⟨n, h⟩ else none

def ofCivil? (year : Int) (month day : Nat) : Option Date :=
  if 1 ≤ day ∧ day ≤ monthLength year month then ofDay? (dayNumber year month day) else none

def back? (d : Date) (n : Nat) : Option Date := ofDay? (d.day - n)

def civil (d : Date) : Int × Nat × Nat :=
  -- Eras of 400 years, each beginning on the first of March.
  let z := d.day + 719468
  let era := z.fdiv 146097
  let dayOfEra := z - era * 146097
  let yearOfEra :=
    (dayOfEra - dayOfEra.fdiv 1460 + dayOfEra.fdiv 36524 - dayOfEra.fdiv 146096).fdiv 365
  let dayOfYear := dayOfEra - (365 * yearOfEra + yearOfEra.fdiv 4 - yearOfEra.fdiv 100)
  let monthFromMarch := (5 * dayOfYear + 2).fdiv 153
  let day := dayOfYear - (153 * monthFromMarch + 2).fdiv 5 + 1
  let month := if monthFromMarch < 10 then monthFromMarch + 3 else monthFromMarch - 9
  let year := yearOfEra + era * 400 + (if month ≤ 2 then 1 else 0)
  (year, month.toNat, day.toNat)

/-- A number with at least `width` digits. -/
def padded (width n : Nat) : String :=
  let digits := Number.numeral n
  String.ofList (List.replicate (width - digits.length) '0' ++ digits)

/-- The date as `YYYY-MM-DD`; a year outside 0 to 9999 has a sign. -/
def text (d : Date) : String :=
  let (year, month, day) := d.civil
  let sign := if year < 0 then "-" else if 9999 < year then "+" else ""
  sign ++ padded 4 year.natAbs ++ "-" ++ padded 2 month ++ "-" ++ padded 2 day

/-- Reads up to `width` ASCII digits, at least one, and gives the rest. -/
def field? (width : Nat) (cs : List Char) : Option (Nat × List Char) :=
  let digits := (cs.takeWhile Char.isDigit).take width
  if digits.isEmpty then none else some (Number.digitsValue digits, cs.drop digits.length)

/-- Reads a year: four digits at most, or a sign and any number of digits. -/
def year? (cs : List Char) : Option (Int × List Char) :=
  match cs with
  | '-' :: cs => (field? cs.length cs).map fun (y, rest) => (-Int.ofNat y, rest)
  | '+' :: cs => (field? cs.length cs).map fun (y, rest) => (Int.ofNat y, rest)
  | cs => (field? 4 cs).map fun (y, rest) => (Int.ofNat y, rest)

def hyphen? : List Char → Option (List Char)
  | '-' :: cs => some cs
  | _ => none

/-- Reads a date written `YYYY-MM-DD`. Blanks may stand in front of each number, and leading zeros
may be left out. -/
def read? (s : String) : Option Date := do
  let skip := List.dropWhile Text.isBlank
  let (year, rest) ← year? (skip s.toList)
  let (month, rest) ← field? 2 (skip (← hyphen? rest))
  let (day, rest) ← field? 2 (skip (← hyphen? rest))
  if rest.isEmpty then ofCivil? year month day else none

end Date

end AdOps
