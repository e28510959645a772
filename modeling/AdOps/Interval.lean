import AdOps.Argument
import AdOps.Calendar
import AdOps.Failure
import AdOps.Text.Digit
import AdOps.Text.Letter

/-!
# Time intervals

An interval is written as a count and a unit (`7d`, `2w`, `1m`, `1y`) or as a keyword (`today`). A
count stands for a number of days; of the keywords only `today` and `yesterday` stand for days. Each
platform has its own name for an interval: one network knows four windows by name and takes explicit
dates for the rest, the other passes unknown words on.
-/

namespace AdOps

inductive Interval where
  | days (n : Nat)
  | keyword (word : String)
deriving DecidableEq

namespace Interval

def isUnit (c : Char) : Bool := c = 'd' || c = 'w' || c = 'm' || c = 'y'

def unitDays (c : Char) : Nat :=
  if c = 'd' then 1 else if c = 'w' then 7 else if c = 'm' then 30 else 365

/-- Whether the characters are written as an interval: digits of any script and a unit, or letters,
in folded case. -/
def isWritten (cs : List Char) : Bool :=
  (Text.isDigits cs.dropLast && (cs.getLast?.map Text.fold).any isUnit)
    || (!cs.isEmpty && cs.all Text.isLetter)

/-- Day counts lie below this bound. -/
def dayBound : Nat := 4294967296

/-- The interval that trimmed characters in small letters stand for: ASCII digits and a unit, as
long as the number of days stays below the bound, or ASCII letters. -/
def ofChars? (cs : List Char) : Option Interval :=
  if Number.isNumeral cs.dropLast && cs.getLast?.any isUnit then
    let n := Number.digitsValue cs.dropLast * unitDays (cs.getLastD 'd')
    if n < dayBound then some (.days n) else none
  else if !cs.isEmpty && cs.all Char.isLower then some (.keyword (String.ofList cs))
  else none

/-- The interval a text stands for, blanks around it and letter case ignored. -/
def read? (s : String) : Option Interval := ofChars? (Text.asciiLower (Text.trim s)).toList

/-- The first and the last day of an interval that ends on `today`, if it has any. -/
def bounds? (today : Date) : Interval → Option (Date × Date)
  | .days n => (today.back? n).map fun start => (start, today)
  | .keyword word =>
    if word = "today" then some (today, today)
    else if word = "yesterday" then (today.back? 1).map fun day => (day, day)
    else none

/-- The name of an interval on MGID. Any other number of days is a custom interval; any other
keyword is refused. -/
def mgidName (a : Arg) : Except Failure Arg :=
  let raw := Text.asciiLower a.display
  if raw = "1d" ∨ raw = "today" then .ok (.text "today")
  else if raw = "yesterday" then .ok (.text "yesterday")
  else if raw = "7d" ∨ raw = "1w" then .ok (.text "lastSeven")
  else if raw = "30d" ∨ raw = "1m" then .ok (.text "last30Days")
  else match read? raw with
    | some (.days _) => .ok (.text "interval")
    | _ => .error (.invalidFlag "time_range" raw)

/-- The name of an interval on Zeropark. Any other text is passed on in capitals. -/
def zeroparkName (a : Arg) : Except Failure Arg :=
  let raw := Text.asciiLower a.display
  .ok <| .text <|
    if raw = "1d" ∨ raw = "today" then "TODAY"
    else if raw = "yesterday" then "YESTERDAY"
    else if raw = "7d" ∨ raw = "1w" then "LAST_7_DAYS"
    else if raw = "30d" ∨ raw = "1m" then "LAST_30_DAYS"
    else Text.asciiUpper raw

/-- The tracker takes an interval as it is written. -/
def thriveName (a : Arg) : Except Failure Arg :=
  .ok <| match a with
    | .all => .all
    | a => .text a.display

end Interval

/-- Whether the characters are four digits, a hyphen, two digits, a hyphen and two digits. -/
def isDateShape : List Char → Bool
  | [y1, y2, y3, y4, h1, m1, m2, h2, d1, d2] =>
    [y1, y2, y3, y4, m1, m2, d1, d2].all Text.isDigit && h1 = '-' && h2 = '-'
  | _ => false

/-- Whether the characters are written as one date, or as two dates joined by a hyphen. -/
def isDateRangeShape (cs : List Char) : Bool :=
  isDateShape cs
    || (isDateShape (cs.take 10) && cs[10]? = some '-' && isDateShape (cs.drop 11))

/-- The first and the last day of a written range of dates, in this order. -/
def dateRange? (s : String) : Option (Date × Date) := do
  let cs := (Text.trim s).toList
  if !isDateRangeShape cs then none
  let start ← Date.read? (String.ofList (cs.take 10))
  let stop ← if cs.length = 10 then some start else Date.read? (String.ofList (cs.drop 11))
  if stop.day < start.day then none else some (start, stop)

end AdOps
