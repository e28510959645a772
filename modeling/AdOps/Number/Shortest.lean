import AdOps.Number.Binary

/-!
# Shortest decimal digits

A floating-point number is printed with the fewest digits that read back as the same number, and of
those with the digits nearest to it. The reals that round to `m · 2^q` form an interval around it,
whose ends belong to it exactly if `m` is even. The search walks from coarse decimal grids to finer
ones and stops at the first grid with a point in the interval; only the two neighbours of the number
on a grid can be that point.
-/

namespace AdOps.Number

/-- Which of two equally near points is taken. -/
inductive Tie where
  /-- The one with the even last digit. -/
  | toEven
  /-- The greater one. -/
  | up
deriving DecidableEq

/-- The decimal `digits · 10^exponent`. -/
structure Digits where
  digits : Nat
  exponent : Int
deriving DecidableEq

/-- The rounding interval of `m · 2^q`, in units of `2^(q-2)`: its ends, and whether they belong to
it. Below a power of two the lower half is half as wide, since the numbers there lie closer. -/
structure Interval where
  low : Nat
  value : Nat
  high : Nat
  closed : Bool
  unit : Int

def Interval.of (m : Nat) (q : Int) : Interval where
  low := if m = leadingBit ∧ q ≠ -1074 then 4 * m - 1 else 4 * m - 2
  value := 4 * m
  high := 4 * m + 2
  closed := m % 2 = 0
  unit := q - 2

/-- The grid `10^k` seen from an interval: `step` units of the interval, over `scale`. -/
structure Grid where
  step : Nat
  scale : Nat

def Interval.grid (i : Interval) (k : Int) : Grid where
  step := Nat.pow 10 k.toNat <<< (-i.unit).toNat
  scale := Nat.pow 10 (-k).toNat <<< i.unit.toNat

/-- Whether the point `c` of the grid lies in the interval. -/
def Interval.holds (i : Interval) (g : Grid) (c : Nat) : Bool :=
  if i.closed then i.low * g.scale ≤ c * g.step && c * g.step ≤ i.high * g.scale
  else i.low * g.scale < c * g.step && c * g.step < i.high * g.scale

/-- The nearer of the two neighbours `c` and `c + 1` of the value. -/
def Interval.nearer (tie : Tie) (i : Interval) (g : Grid) (c : Nat) : Nat :=
  let value := 2 * i.value * g.scale
  let middle := (2 * c + 1) * g.step
  if value < middle then c
  else if middle < value then c + 1
  else match tie with
    | .up => c + 1
    | .toEven => if c % 2 = 0 then c else c + 1

/-- The point of the grid taken for the value, if the interval holds one. -/
def Interval.point? (tie : Tie) (i : Interval) (g : Grid) : Option Nat :=
  let c := i.value * g.scale / g.step
  match i.holds g c, i.holds g (c + 1) with
  | true, true => some (i.nearer tie g c)
  | true, false => some c
  | false, true => some (c + 1)
  | false, false => none

/-- Tries the grids `10^k`, `10^(k-1)`, … -/
def Interval.search (tie : Tie) (i : Interval) : Nat → Int → Digits
  | 0, k => ⟨i.value, k⟩
  | fuel + 1, k =>
    match i.point? tie (i.grid k) with
    | some c => ⟨c, k⟩
    | none => i.search tie fuel (k - 1)

/-- The shortest digits of `m · 2^q`, for positive `m`. The first grid is coarser than the number,
and seventeen digits always suffice. -/
def shortest (tie : Tie) (m : Nat) (q : Int) : Digits :=
  -- The number lies below `2^bits`, and 0.30103 is a little more than the decimal logarithm of 2.
  let bits : Int := Int.ofNat m.log2 + q + 1
  let top := Int.fdiv (bits * 30103) 100000 + 1
  (Interval.of m q).search tie 24 top

end AdOps.Number
