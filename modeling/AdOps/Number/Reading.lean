import AdOps.Number.Binary

/-!
# Reading numbers

The texts that are read as an integer (an optional sign and ASCII digits, within a range) and as a
floating-point number (besides, a point, an exponent, and the words for infinity and not-a-number).
A decimal is rounded once, to the nearest floating-point number.
-/

namespace AdOps.Number

def digitsValue (cs : List Char) : Nat :=
  cs.foldl (fun n c => 10 * n + (c.toNat - '0'.toNat)) 0

/-- A nonempty run of ASCII digits. -/
def isNumeral (cs : List Char) : Bool := !cs.isEmpty && cs.all Char.isDigit

/-- The sign in front of a number, and what it stands in front of. -/
def splitSign : List Char → Bool × List Char
  | '-' :: cs => (true, cs)
  | '+' :: cs => (false, cs)
  | cs => (false, cs)

/-- The natural number written in ASCII digits. -/
def natural? (cs : List Char) : Option Nat := if isNumeral cs then some (digitsValue cs) else none

/-- The integer written with an optional sign, if it is within the bounds. -/
def integerWithin? (low high : Int) (cs : List Char) : Option Int := do
  let (negative, digits) := splitSign cs
  let n := signed negative (← natural? digits)
  if low ≤ n ∧ n ≤ high then some n else none

/-- The 64-bit signed integer a text denotes. -/
def integer? (s : String) : Option Int := integerWithin? minInt64 maxInt64 s.toList

/-- A decimal numeral: the value `mantissa · 10^exponent`, whose mantissa has `digits` digits. -/
structure Decimal where
  mantissa : Nat
  digits : Nat
  exponent : Int
deriving DecidableEq

/-- The decimal with `whole` and `fraction` as the digits around its point, times `10^scale`. -/
def Decimal.ofDigits (whole fraction : List Char) (scale : Int) : Decimal :=
  let digits := (whole ++ fraction).dropWhile (· = '0')
  { mantissa := digitsValue digits
    digits := digits.length
    exponent := scale - fraction.length }

/-- The floating-point number nearest to a decimal. Far outside the range of floating-point numbers
the answer is infinity or zero without any arithmetic. -/
def Decimal.toFloat (d : Decimal) : Float :=
  if d.mantissa = 0 then 0
  else if 400 < d.exponent + d.digits then 1 / 0
  else if d.exponent + d.digits < -400 then 0
  else Float.ofScientific d.mantissa (d.exponent < 0) d.exponent.natAbs

/-- Reads the part of a numeral behind the `e`: an optional sign and digits. -/
def exponent? (cs : List Char) : Option Int := do
  let (negative, digits) := splitSign cs
  return signed negative (← natural? digits)

/-- Reads digits with an optional point and an optional exponent. -/
def decimal? (cs : List Char) : Option Decimal := do
  let whole := cs.takeWhile Char.isDigit
  let rest := cs.dropWhile Char.isDigit
  let (fraction, rest) := match rest with
    | '.' :: rest => (rest.takeWhile Char.isDigit, rest.dropWhile Char.isDigit)
    | rest => ([], rest)
  if whole.isEmpty && fraction.isEmpty then none
  let scale ← match rest with
    | [] => some 0
    | c :: rest => if c = 'e' ∨ c = 'E' then exponent? rest else none
  return .ofDigits whole fraction scale

def magnitude? (cs : List Char) : Option Float :=
  let word := String.ofList (cs.map Char.toLower)
  if word = "inf" ∨ word = "infinity" then some (1 / 0)
  else if word = "nan" then some (0 / 0)
  else (decimal? cs).map Decimal.toFloat

/-- The floating-point number a text denotes. -/
def float? (s : String) : Option Float := do
  let (negative, cs) := splitSign s.toList
  let x ← magnitude? cs
  return if negative then -x else x

end AdOps.Number
