import Mathlib.Algebra.Order.Ring.Rat
import Mathlib.Tactic.Positivity
import AdOps.Number.Binary

/-!
# Which numbers are whole

A finite floating-point number is a rational number, and it is looked at as an integer exactly if
this rational number is one. No rounding is involved.

* **`isFinite_iff`** — a number is finite if it is a rational number.
* **`whole?_eq_some_iff`** — it is an integer if this rational number is.
-/

namespace AdOps.Number

/-- The rational number that a floating-point number is, if it is finite. -/
def rational? (x : Float) : Option ℚ :=
  match parts x with
  | .finite negative m q => some (signed negative m * 2 ^ q)
  | _ => none

/-- **A number is finite if it is a rational number.** -/
theorem isFinite_iff {x : Float} : isFinite x = true ↔ (rational? x).isSome = true := by
  unfold isFinite rational?
  cases parts x <;> simp

theorem signed_mul (negative : Bool) (m n : Nat) :
    signed negative (m * n) = signed negative m * (n : Int) := by
  cases negative <;> simp [signed]

theorem natAbs_signed (negative : Bool) (m : Nat) : (signed negative m).natAbs = m := by
  cases negative <;> simp [signed]

/-- **A number is looked at as an integer exactly if it is one.** -/
theorem whole?_eq_some_iff {x : Float} {n : Int} :
    whole? x = some n ↔ rational? x = some (n : ℚ) := by
  unfold whole? rational?
  cases parts x with
  | nan => simp
  | infinite negative => simp
  | finite negative m q =>
    -- The number is an integer times a power of two; what becomes of it is told by the exponent's
    -- sign.
    simp only [Option.some.injEq]
    split
    · next hq =>
      -- A multiple of a power of two.
      obtain ⟨k, rfl⟩ := Int.eq_ofNat_of_zero_le hq
      rw [Option.some.injEq, Int.toNat_natCast, Nat.shiftLeft_eq, signed_mul, zpow_natCast]
      exact_mod_cast Iff.rfl
    · next hq =>
      obtain ⟨k, hk⟩ : ∃ k : Nat, q = -(k : Int) := ⟨q.natAbs, by omega⟩
      subst hk
      have hpos : (0 : ℚ) < 2 ^ k := by positivity
      -- Below zero it is a fraction by a power of two, and both sides are multiplied by that.
      rw [neg_neg, Int.toNat_natCast, Nat.shiftLeft_eq, one_mul, zpow_neg, zpow_natCast,
        mul_inv_eq_iff_eq_mul₀ hpos.ne']
      have hcast : ((signed negative m : ℚ) = n * 2 ^ k) ↔ signed negative m = n * (2 ^ k : Nat) := by
        exact_mod_cast Iff.rfl
      rw [hcast]
      split
      · next hmod =>
        -- The fraction is whole, and its numerator is the quotient times the denominator.
        obtain ⟨c, rfl⟩ := Nat.dvd_of_mod_eq_zero hmod
        have hunit : ((2 ^ k : Nat) : Int) ≠ 0 := by positivity
        rw [Nat.mul_div_cancel_left c (by positivity), Option.some.injEq, Nat.mul_comm, signed_mul]
        exact (Int.mul_eq_mul_right_iff hunit).symm
      · next hmod =>
        -- Were the fraction whole, the denominator would divide the numerator.
        refine iff_of_false (by simp) fun h => hmod (Nat.mod_eq_zero_of_dvd ?_)
        rw [← natAbs_signed negative m, h, Int.natAbs_mul, Int.natAbs_natCast]
        exact Nat.dvd_mul_left _ _

end AdOps.Number
