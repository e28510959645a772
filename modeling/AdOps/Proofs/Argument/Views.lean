import AdOps.Argument
import AdOps.Proofs.Number.Digits
import AdOps.Proofs.Number.Equality

/-!
# The numeric views of an argument

An argument can be looked at as an integer and as a number. A text that is read as an integer is read
as the nearest number, and an integer is taken for that number too. A number that is whole is brought
into the range of 64-bit integers first, and then it is an integer of its own only if it was there.

* **`rational?_clampInt64`** — what a whole number comes to that is brought into the range.
* **`views_agree_iff`** — which arguments the two views tell the same of.
-/

namespace AdOps

open Number (rational? nearest whole? clampInt64 minInt64 maxInt64)

namespace Number

variable {n : ℤ}

theorem clampInt64_mem (n : ℤ) : minInt64 ≤ clampInt64 n ∧ clampInt64 n ≤ maxInt64 := by
  unfold clampInt64 minInt64 maxInt64
  split <;> [skip; split] <;> omega

theorem clampInt64_of_gt (h : 2 ^ 63 < n.natAbs) : clampInt64 n = minInt64 ∨ clampInt64 n = maxInt64 := by
  unfold clampInt64 minInt64 maxInt64
  split <;> [skip; split] <;> omega

/-- An integer of 64 bits is taken for the nearest number. -/
theorem rational?_ofInt_of_mem (h : minInt64 ≤ n ∧ n ≤ maxInt64) :
    rational? (ofInt n) = some (nearest n) := by
  have hlt := natAbs_lt_of_mem h.1 h.2
  exact rational?_ofInt (abs_lt_range (by omega))

/-- The greatest integer is no number of floating point: the nearest one is the next power of two.
-/
theorem nearest_maxInt64 : nearest maxInt64 = (2 ^ 63 : ℤ) := by
  decide +kernel

theorem nearest_minInt64 : nearest minInt64 = (-2 ^ 63 : ℤ) := by
  decide +kernel

/-- A whole number is one that floating point has, and so is its own nearest. -/
theorem nearest_of_rational? {x : Float} {q : ℚ} (h : rational? x = some q) : nearest q = q :=
  (standsFor_unpack h).isRepresentable.nearest_eq

/-- **What a whole number comes to that is brought into the range**: the number itself up to `2^63`,
which the greatest integer is rounded to, and an end of the range beyond. -/
theorem nearest_clampInt64_eq_iff {x : Float} (h : rational? x = some (n : ℚ)) :
    nearest (clampInt64 n) = n ↔ n.natAbs ≤ 2 ^ 63 := by
  have hself := nearest_of_rational? h
  have hlow : minInt64 = -2 ^ 63 := rfl
  have hhigh : maxInt64 = 2 ^ 63 - 1 := rfl
  -- Below the range, above it, and in it; only 2 ^ 63 itself is above and still agrees.
  unfold clampInt64
  split
  · next hlt =>
    rw [nearest_minInt64, Int.cast_inj]
    omega
  · next hge =>
    split
    · next hgt =>
      rw [nearest_maxInt64, Int.cast_inj]
      omega
    · next hle =>
      exact iff_of_true hself (by omega)

end Number

namespace Arg

variable {a : Arg} {n : ℤ}

/-- A whole number that no 64-bit integer is rounded to. -/
def IsBeyond : Arg → Prop
  | .number x => ∃ m : ℤ, rational? x = some (m : ℚ) ∧ 2 ^ 63 < m.natAbs
  | _ => False

/-- **When the numeric views of an argument agree.** An argument that is looked at as an integer is
looked at as a number too, and this number is equal to the one that the integer is taken for, unless
the argument is a whole number past `2^63`. Such a number is looked at as the greatest or the least
64-bit integer. -/
theorem views_agree_iff (h : a.integer? = some n) :
    ∃ x, a.number? = some x ∧ ((x == Number.ofInt n) = true ↔ ¬ a.IsBeyond) ∧
      (a.IsBeyond → n = minInt64 ∨ n = maxInt64) := by
  cases a with
  | all => exact absurd h (by simp [integer?])
  | list items => exact absurd h (by simp [integer?])
  | switch => exact absurd h (by simp [integer?])
  -- Both views of an integer start from it.
  | integer m =>
    obtain rfl : m = n := Option.some.inj h
    exact ⟨_, rfl, iff_of_true (Number.beq_ofInt_self m) fun hbeyond => hbeyond, False.elim⟩
  | text s =>
    -- Both views of a text come to the nearest number of one integer.
    obtain ⟨x, hx, hvalue⟩ := Number.float?_of_integer? h
    obtain ⟨-, -, -, -, -, hrange⟩ := Number.exists_of_integer? h
    have hinteger := Number.rational?_ofInt_of_mem hrange
    exact ⟨x, hx, iff_of_true ((Number.beq_iff_of_rational? hvalue hinteger).2 rfl)
      fun hbeyond => hbeyond, False.elim⟩
  | number x =>
    obtain ⟨m, hm, rfl⟩ := Option.map_eq_some_iff.1 h
    have hvalue := Number.whole?_eq_some_iff.1 hm
    have hinteger := Number.rational?_ofInt_of_mem (Number.clampInt64_mem m)
    have hbeyond : (Arg.number x).IsBeyond ↔ 2 ^ 63 < m.natAbs := by
      refine ⟨fun ⟨k, hk, hlt⟩ => ?_, fun hlt => ⟨m, hvalue, hlt⟩⟩
      obtain rfl : m = k := Int.cast_injective (Option.some.inj (hvalue.symm.trans hk))
      exact hlt
    refine ⟨x, rfl, ?_, fun h => Number.clampInt64_of_gt (hbeyond.1 h)⟩
    -- The views agree if bringing the number into the range did not change what it is rounded to.
    rw [Number.beq_iff_of_rational? hvalue hinteger, eq_comm,
      Number.nearest_clampInt64_eq_iff hvalue, hbeyond, Nat.not_lt]

/-- Ten to the nineteenth is a number, and past the greatest 64-bit integer. -/
theorem views_agree_iff_past_range :
    (Arg.number 1e19).integer? = some maxInt64 ∧
      ∃ x, (Arg.number 1e19).number? = some x ∧ (x == Number.ofInt maxInt64) = false := by
  have hvalue : rational? 1e19 = some ((10 ^ 19 : ℤ) : ℚ) := by decide +kernel
  have hinteger : (Arg.number 1e19).integer? = some maxInt64 := by
    show (whole? 1e19).map clampInt64 = _
    rw [Number.whole?_eq_some_iff.2 hvalue]
    rfl
  obtain ⟨x, hx, hequal, -⟩ := views_agree_iff hinteger
  have hbeyond : (Arg.number 1e19).IsBeyond := ⟨10 ^ 19, hvalue, by decide⟩
  exact ⟨hinteger, x, hx, Bool.eq_false_iff.2 fun htrue => hequal.1 htrue hbeyond⟩

end Arg

end AdOps
