/-!
# The value of a floating-point number

A finite floating-point number is `±m · 2^q` with natural `m` and integral `q`. `parts` reads this
off the 64 bits; rounding, the test for a whole number and the conversion to an integer are computed
on it in exact arithmetic.
-/

namespace AdOps.Number

inductive Parts where
  | nan
  | infinite (negative : Bool)
  /-- The number `±mantissa · 2^exponent`. -/
  | finite (negative : Bool) (mantissa : Nat) (exponent : Int)
deriving DecidableEq

/-- The leading bit of a mantissa, which is not among the stored bits. -/
def leadingBit : Nat := 1 <<< 52

/-- Reads sign, exponent field and fraction off the bits. -/
def parts (x : Float) : Parts :=
  let bits := x.toBits.toNat
  let negative := bits >>> 63 == 1
  let field := (bits >>> 52) % 2048
  let fraction := bits % leadingBit
  if field = 2047 then if fraction = 0 then .infinite negative else .nan
  else if field = 0 then .finite negative fraction (-1074)
  else .finite negative (fraction + leadingBit) (Int.ofNat field - 1075)

/-- Neither infinite nor a NaN. -/
def isFinite (x : Float) : Bool :=
  match parts x with
  | .finite .. => true
  | _ => false

def signed (negative : Bool) (n : Nat) : Int := if negative then -Int.ofNat n else Int.ofNat n

/-- The integer that a number is, if it is one. -/
def whole? (x : Float) : Option Int :=
  match parts x with
  | .finite negative m q =>
    if 0 ≤ q then some (signed negative (m <<< q.toNat))
    else
      let unit := 1 <<< (-q).toNat
      if m % unit = 0 then some (signed negative (m / unit)) else none
  | _ => none

/-- The floating-point number nearest to a natural number. -/
def ofNat (n : Nat) : Float := Float.ofScientific n false 0

/-- The floating-point number nearest to an integer. -/
def ofInt (n : Int) : Float := if n < 0 then -(ofNat n.natAbs) else ofNat n.natAbs

/-- Rounds to the nearest whole number, a half away from zero. The sign of a zero is kept. -/
def round (x : Float) : Float :=
  match parts x with
  | .finite negative m q =>
    if 0 ≤ q then x
    else
      let unit := 1 <<< (-q).toNat
      let n := ofNat ((2 * m + unit) / (2 * unit))
      if negative then -n else n
  | _ => x

/-- Rounds to two decimal places, through a hundredfold that is itself rounded. -/
def roundHundredths (x : Float) : Float := round (x * 100) / 100

/-- The least and the greatest 64-bit signed integer. -/
def minInt64 : Int := -9223372036854775808
def maxInt64 : Int := 9223372036854775807

/-- The 64-bit signed integer nearest to `n`. -/
def clampInt64 (n : Int) : Int :=
  if n < minInt64 then minInt64 else if maxInt64 < n then maxInt64 else n

end AdOps.Number
