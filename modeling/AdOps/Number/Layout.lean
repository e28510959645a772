import AdOps.Number.Shortest

/-!
# Laying out a number

How the digits of a floating-point number are set: which exponents are written out positionally,
whether a whole number keeps its `.0`, and how an exponent is written. A `Layout` holds these
decisions; each kind of output of the program has one.
-/

namespace AdOps.Number

structure Layout where
  /-- Which of two equally near digit strings is taken. -/
  tie : Tie
  /-- The exponents of the leading digit that are written positionally; `none` for all of them. -/
  positional : Option (Int × Int)
  /-- A whole number ends in `.0`. -/
  keepPoint : Bool

/-- Digits inside a JSON text or a message: positional from `0.00001` up to sixteen digits before
the point, and always with a point. -/
def Layout.json : Layout := ⟨.toEven, some (-5, 15), true⟩

/-- Digits of an argument: always positional, and no point in a whole number. -/
def Layout.argument : Layout := ⟨.up, none, false⟩

/-- The ASCII digits of a natural number. -/
def numeral (n : Nat) : List Char := Nat.toDigits 10 n

/-- Sets digits positionally; `point` is the place of the decimal point, counted from the first
digit. -/
def setPositional (keepPoint : Bool) (digits : List Char) (point : Int) : List Char :=
  if point ≤ 0 then '0' :: '.' :: (List.replicate (-point).toNat '0' ++ digits)
  else
    let n := point.toNat
    if digits.length ≤ n then
      digits ++ List.replicate (n - digits.length) '0' ++ (if keepPoint then ['.', '0'] else [])
    else digits.take n ++ '.' :: digits.drop n

def setScientific (digits : List Char) (exponent : Int) : List Char :=
  let rest := digits.drop 1
  digits.take 1 ++ (if rest.isEmpty then [] else '.' :: rest)
    ++ 'e' :: (if exponent < 0 then '-' else '+') :: numeral exponent.natAbs

/-- Lays out a finite number that is not negative. -/
def Layout.magnitude (l : Layout) (m : Nat) (q : Int) : List Char :=
  if m = 0 then setPositional l.keepPoint ['0'] 1
  else
    let d := shortest l.tie m q
    let digits := numeral d.digits
    let exponent := d.exponent + digits.length - 1
    match l.positional with
    | some (low, high) =>
      if low ≤ exponent ∧ exponent ≤ high then setPositional l.keepPoint digits (exponent + 1)
      else setScientific digits exponent
    | none => setPositional l.keepPoint digits (exponent + 1)

def Layout.text (l : Layout) (x : Float) : String :=
  match parts x with
  | .nan => "NaN"
  | .infinite negative => if negative then "-inf" else "inf"
  | .finite negative m q =>
    String.ofList (if negative then '-' :: l.magnitude m q else l.magnitude m q)

def integerText (n : Int) : String :=
  String.ofList (if n < 0 then '-' :: numeral n.natAbs else numeral n.natAbs)

end AdOps.Number
