import Mathlib

/-!
# The order of floating-point numbers

Numbers are compared by sign, then by exponent, then by mantissa, and a NaN compares with nothing. So
every other number has a place in one linear order, zero at one place whatever its sign, and both
comparisons of numbers are comparisons of places.

* **`lt_iff`** — a number is less than another if its place is.
* **`beq_iff`** — two numbers are equal if their places are.
-/

namespace AdOps.Number

open Float.Model

/-- Where a number stands: its sign with its kind, then what the exponent and the mantissa come to. -/
abbrev Place := Int ×ₗ Int ×ₗ Int

/-- The place with the given sign and kind, exponent and mantissa. -/
def placeAt (side exponent mantissa : Int) : Place := toLex (side, toLex (exponent, mantissa))

/-- The place of a number that is not a NaN. -/
def placeOf? : UnpackedFloat → Option Place
  | .notANumber => none
  | .infinity .negative => some (placeAt (-2) 0 0)
  | .finite .negative m e _ => some (placeAt (-1) (-e) (-m))
  | .zero _ => some (placeAt 0 0 0)
  | .finite .positive m e _ => some (placeAt 1 e m)
  | .infinity .positive => some (placeAt 2 0 0)

/-- The place of a floating-point number, if it is not a NaN. -/
def place? (x : Float) : Option Place := placeOf? x.toModel.unpack

/-- Places compare by their first part, then by the second, then by the third. -/
theorem compare_placeAt (s s' e e' m m' : Int) :
    compare (placeAt s e m) (placeAt s' e' m') =
      (compare s s').then ((compare e e').then (compare m m')) := by
  unfold placeAt
  rw [Prod.Lex.compare_def]
  rfl

/-- Negation turns the order around, so the larger of two negative numbers has the smaller exponent.
-/
theorem compare_neg (a b : Int) : compare (-a) (-b) = (compare a b).swap := by
  have hanti : StrictAnti fun n : Int => -n := fun _ _ h => Int.neg_lt_neg h
  rw [← cmp_eq_compare, ← cmp_eq_compare, cmp_swap]
  exact hanti.cmp_map_eq a b

/-- Mantissas are natural numbers, and places are of integers. -/
theorem compare_natCast (a b : Nat) : compare (a : Int) b = compare a b := by
  have hmono : StrictMono fun n : Nat => (n : Int) := fun _ _ h => Int.ofNat_lt.2 h
  rw [← cmp_eq_compare, ← cmp_eq_compare]
  exact hmono.cmp_map_eq a b

/-- **Numbers compare as their places do**, and a NaN does not compare. -/
theorem compare_eq (a b : UnpackedFloat) :
    a.compare b = (placeOf? a).bind fun p => (placeOf? b).map fun q => compare p q := by
  rcases a with (_ | _) | _ | _ | ⟨_ | _, m, e, hm⟩ <;>
    rcases b with (_ | _) | _ | _ | ⟨_ | _, m', e', hm'⟩
  -- Only two finite numbers of one sign are not told apart by their sides.
  case finite.negative.finite.negative =>
    show some ((compare e e').then (compare m m')).swap = some (compare (placeAt (-1) (-e) (-m)) _)
    rw [compare_placeAt, compare_neg e, compare_neg m, compare_natCast, Ordering.swap_then]
    rfl
  case finite.positive.finite.positive =>
    show some ((compare e e').then (compare m m')) = some (compare (placeAt 1 e m) _)
    rw [compare_placeAt, compare_natCast]
    rfl
  all_goals rfl

/-- A number without a place is a NaN, and there is no other. -/
theorem place?_eq_none_iff {x : Float} : place? x = none ↔ x.isNaN = true := by
  show placeOf? x.toModel.unpack = none ↔ x.toModel.unpack.isNaN = true
  rw [UnpackedFloat.isNaN_iff]
  rcases x.toModel.unpack with (_ | _) | _ | _ | ⟨_ | _, m, e, hm⟩ <;> simp [placeOf?]

variable {x y : Float}

/-- **A number is less than another if its place is.** -/
theorem lt_iff : x < y ↔ ∃ p q, place? x = some p ∧ place? y = some q ∧ p < q := by
  have hlt : x < y ↔ x.toModel.unpack.compare y.toModel.unpack = some .lt :=
    ⟨fun h => eq_of_beq (of_decide_eq_true h), fun h => decide_eq_true (beq_iff_eq.2 h)⟩
  -- The comparison of the numbers is `lt` exactly if that of their places is.
  rw [hlt, compare_eq]
  simp [Option.bind_eq_some_iff, place?, compare_lt_iff_lt]

/-- **Two numbers are equal if their places are.** -/
theorem beq_iff : (x == y) = true ↔ ∃ p, place? x = some p ∧ place? y = some p := by
  have heq : (x == y) = true ↔ x.toModel.unpack.compare y.toModel.unpack = some .eq :=
    Iff.intro (fun h => eq_of_beq h) fun h =>
      show (x.toModel.unpack.compare y.toModel.unpack == some .eq) = true from beq_iff_eq.2 h
  -- Zeros of either sign share their place, so nothing more than places is compared.
  rw [heq, compare_eq]
  simp [Option.bind_eq_some_iff, place?, compare_eq_iff_eq]

end AdOps.Number
