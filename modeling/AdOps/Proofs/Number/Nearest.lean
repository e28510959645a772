import Mathlib.Algebra.Order.Floor.Ring
import Mathlib.Data.Int.Log
import Mathlib.Data.Rat.Floor
import Mathlib.Tactic.Linarith
import Mathlib.Tactic.NormNum

/-!
# Rounding to the nearest floating-point number

Near a rational number the floating-point numbers stand at equal distances, a power of two that goes
with the size of the number. The nearest of them is the nearest multiple of that power, an even
multiple where two are equally near.

* **`isRepresentable_nearest`**, **`abs_sub_nearest_le`** — the nearest number is one of those that
  floating point has, and none of them is nearer.
* **`exists_nearest_intCast`** — the nearest number to an integer is an integer.
-/

namespace AdOps.Number

/-- The natural number nearest to a number that is not negative, the even one of two. -/
def roundHalfEven (q : ℚ) : ℕ :=
  if 2 * (q - ⌊q⌋₊) < 1 then ⌊q⌋₊
  else if 2 * (q - ⌊q⌋₊) = 1 then ⌊q⌋₊ + ⌊q⌋₊ % 2
  else ⌊q⌋₊ + 1

/-- The exponent of the distance at which floating-point numbers stand near `x`: 53 binary digits are
kept, and none below `2^(-1074)`. -/
def spacing (x : ℚ) : ℤ := max (Int.log 2 x - 52) (-1074)

/-- The multiple of the spacing that is nearest to a number which is not negative. -/
def nearestMagnitude (x : ℚ) : ℚ := roundHalfEven (x / 2 ^ spacing x) * 2 ^ spacing x

/-- The floating-point number nearest to `x`, where exponents have no upper end. -/
def nearest (x : ℚ) : ℚ := if x < 0 then -nearestMagnitude (-x) else nearestMagnitude x

/-- Floating point has the number, where exponents have no upper end. -/
def IsRepresentable (x : ℚ) : Prop :=
  ∃ m e : ℤ, m.natAbs < 2 ^ 53 ∧ -1074 ≤ e ∧ x = m * 2 ^ e

section halfEven

variable {q : ℚ}

/-- Rounding does not go below the integral part. -/
theorem floor_le_roundHalfEven (q : ℚ) : ⌊q⌋₊ ≤ roundHalfEven q := by
  unfold roundHalfEven
  split <;> [skip; split] <;> omega

/-- And no further up than to the next integer. -/
theorem roundHalfEven_le_floor (q : ℚ) : roundHalfEven q ≤ ⌊q⌋₊ + 1 := by
  unfold roundHalfEven
  split <;> [skip; split] <;> omega

/-- A natural number below stays below after rounding. -/
theorem le_roundHalfEven {n : ℕ} (h : (n : ℚ) ≤ q) : n ≤ roundHalfEven q :=
  (Nat.le_floor h).trans (floor_le_roundHalfEven q)

/-- And one above stays above, though it may be reached. -/
theorem roundHalfEven_le {n : ℕ} (hq : 0 ≤ q) (h : q < n) : roundHalfEven q ≤ n :=
  (roundHalfEven_le_floor q).trans ((Nat.floor_lt hq).2 h)

/-- The rounded number is as near as the nearer of the two integers around. Both distances are
bounds, whichever of them was taken. -/
theorem abs_sub_roundHalfEven (hq : 0 ≤ q) :
    |q - roundHalfEven q| ≤ q - ⌊q⌋₊ ∧ |q - roundHalfEven q| ≤ ⌊q⌋₊ + 1 - q := by
  have hlow := Nat.floor_le hq
  have hhigh := Nat.lt_floor_add_one q
  unfold roundHalfEven
  split
  · rw [abs_of_nonneg (by linarith)]
    constructor <;> linarith
  · split
    -- At a half the even one is taken, and both are at the same distance.
    · rcases Nat.mod_two_eq_zero_or_one ⌊q⌋₊ with h | h <;> rw [h] <;> push_cast
      · rw [abs_of_nonneg (by linarith)]
        constructor <;> linarith
      · rw [abs_of_nonpos (by linarith)]
        constructor <;> linarith
    · push_cast
      rw [abs_of_nonpos (by linarith)]
      constructor <;> linarith

/-- No integer is nearer. -/
theorem abs_sub_roundHalfEven_le (hq : 0 ≤ q) (k : ℤ) : |q - roundHalfEven q| ≤ |q - k| := by
  obtain ⟨hbelow, habove⟩ := abs_sub_roundHalfEven hq
  -- The integer is on one side of the number or on the other, so one of the two bounds is less.
  rcases lt_or_ge (⌊q⌋₊ : ℤ) k with hk | hk
  · have hk' : (⌊q⌋₊ : ℚ) + 1 ≤ k := by exact_mod_cast hk
    calc |q - roundHalfEven q| ≤ ⌊q⌋₊ + 1 - q := habove
      _ ≤ -(q - k) := by linarith
      _ ≤ |q - k| := neg_le_abs _
  · have hk' : (k : ℚ) ≤ ⌊q⌋₊ := by exact_mod_cast hk
    calc |q - roundHalfEven q| ≤ q - ⌊q⌋₊ := hbelow
      _ ≤ q - k := by linarith
      _ ≤ |q - k| := le_abs_self _

end halfEven

section magnitude

variable {x y : ℚ}

theorem two_zpow_pos (e : ℤ) : (0 : ℚ) < 2 ^ e := zpow_pos (by norm_num) e

/-- The power of two at or below a number. -/
theorem zpow_log_le (hx : 0 < x) : (2 : ℚ) ^ Int.log 2 x ≤ x := Int.zpow_log_le_self one_lt_two hx

/-- And the one above it. -/
theorem lt_zpow_log (x : ℚ) : x < (2 : ℚ) ^ (Int.log 2 x + 1) :=
  Int.lt_zpow_succ_log_self one_lt_two x

/-- The logarithm of a mantissa that is scaled. -/
theorem log_mantissa_mul {m : ℕ} (hm : 0 < m) (e : ℤ) :
    Int.log 2 ((m : ℚ) * 2 ^ e) = m.log2 + e := by
  have hpos : (0 : ℚ) < m * 2 ^ e := mul_pos (Nat.cast_pos.2 hm) (two_zpow_pos e)
  have hlow : ((2 ^ m.log2 : ℕ) : ℚ) ≤ m := Nat.cast_le.2 (Nat.log2_self_le hm.ne')
  have hhigh : (m : ℚ) < ((2 ^ (m.log2 + 1) : ℕ) : ℚ) := Nat.cast_lt.2 Nat.lt_log2_self
  -- The logarithm is pinned from both sides by powers of two around the mantissa.
  apply le_antisymm
  · rw [← Int.lt_add_one_iff]
    apply (Int.lt_zpow_iff_log_lt one_lt_two hpos).1
    have hexp : (m.log2 + e + 1 : ℤ) = (m.log2 + 1 : ℕ) + e := by push_cast; ring
    rw [hexp, Nat.cast_ofNat, zpow_add₀ two_ne_zero, zpow_natCast]
    exact mul_lt_mul_of_pos_right (by exact_mod_cast hhigh) (two_zpow_pos e)
  · apply (Int.zpow_le_iff_le_log one_lt_two hpos).1
    rw [Nat.cast_ofNat, zpow_add₀ two_ne_zero, zpow_natCast]
    exact mul_le_mul_of_nonneg_right (by exact_mod_cast hlow) (two_zpow_pos e).le

/-- In units of the spacing a number has no more than 53 digits. -/
theorem div_spacing_lt (x : ℚ) : x / 2 ^ spacing x < (2 ^ 53 : ℕ) := by
  rw [div_lt_iff₀ (two_zpow_pos _)]
  have hle : Int.log 2 x + 1 ≤ 53 + spacing x := by unfold spacing; omega
  calc x < (2 : ℚ) ^ (Int.log 2 x + 1) := lt_zpow_log x
    _ ≤ 2 ^ (53 + spacing x) := zpow_le_zpow_right₀ one_le_two hle
    _ = ((2 ^ 53 : ℕ) : ℚ) * 2 ^ spacing x := by
      rw [zpow_add₀ two_ne_zero]
      norm_num

/-- And no fewer, unless it is among the least. -/
theorem le_div_spacing (hx : 0 < x) (h : spacing x ≠ -1074) :
    ((2 ^ 52 : ℕ) : ℚ) ≤ x / 2 ^ spacing x := by
  rw [le_div_iff₀ (two_zpow_pos _)]
  have hexp : Int.log 2 x = 52 + spacing x := by unfold spacing at h ⊢; omega
  calc ((2 ^ 52 : ℕ) : ℚ) * 2 ^ spacing x = 2 ^ (52 + spacing x) := by
        rw [zpow_add₀ two_ne_zero]
        norm_num
    _ ≤ x := by
      rw [← hexp]
      exact zpow_log_le hx

/-- No multiple of the spacing is nearer. -/
theorem abs_sub_nearestMagnitude_le_multiple (hx : 0 ≤ x) (k : ℤ) :
    |x - nearestMagnitude x| ≤ |x - k * 2 ^ spacing x| := by
  have hpow := two_zpow_pos (spacing x)
  -- Everything is measured in units of the spacing.
  have hscale : ∀ z : ℚ, |x - z * 2 ^ spacing x| = |x / 2 ^ spacing x - z| * 2 ^ spacing x :=
    fun z => by
      rw [← abs_of_pos hpow, ← abs_mul, abs_of_pos hpow, sub_mul, div_mul_cancel₀ _ hpow.ne']
  unfold nearestMagnitude
  rw [hscale, hscale]
  exact mul_le_mul_of_nonneg_right (abs_sub_roundHalfEven_le (div_nonneg hx hpow.le) k) hpow.le

/-- No number that floating point has is nearer: those that are no multiples of the spacing are below
a power of two that is one. -/
theorem abs_sub_nearestMagnitude_le (hx : 0 < x) (hy : IsRepresentable y) :
    |x - nearestMagnitude x| ≤ |x - y| := by
  obtain ⟨m, e, hm, he, rfl⟩ := hy
  rcases lt_or_ge e (spacing x) with hlt | hle
  -- Here the number is above a power of two at which its spacing begins, and `y` is not.
  · have hpower : ((2 ^ 52 : ℤ) : ℚ) * 2 ^ spacing x ≤ x := by
      have h := le_div_spacing hx (by omega)
      rw [le_div_iff₀ (two_zpow_pos _)] at h
      exact_mod_cast h
    -- A mantissa of 53 digits at a smaller exponent does not reach that power.
    have hbelow : (m : ℚ) * 2 ^ e ≤ ((2 ^ 52 : ℤ) : ℚ) * 2 ^ spacing x := by
      have hm' : (m : ℚ) ≤ 2 ^ 53 := by exact_mod_cast (show m ≤ 2 ^ 53 by omega)
      calc (m : ℚ) * 2 ^ e ≤ 2 ^ 53 * 2 ^ e := mul_le_mul_of_nonneg_right hm' (two_zpow_pos e).le
        _ ≤ 2 ^ 53 * 2 ^ (spacing x - 1) := by
          gcongr
          · norm_num
          · omega
        _ = ((2 ^ 52 : ℤ) : ℚ) * 2 ^ spacing x := by
          rw [zpow_sub_one₀ two_ne_zero]
          push_cast
          ring
    calc |x - nearestMagnitude x| ≤ |x - (2 ^ 52 : ℤ) * 2 ^ spacing x| :=
          abs_sub_nearestMagnitude_le_multiple hx.le _
      _ = x - (2 ^ 52 : ℤ) * 2 ^ spacing x := abs_of_nonneg (by linarith)
      _ ≤ x - m * 2 ^ e := by linarith
      _ ≤ |x - m * 2 ^ e| := le_abs_self _
  · obtain ⟨k, hk⟩ := Int.le.dest hle
    -- With an exponent as large as the spacing it is a multiple of the spacing.
    have hmultiple : (m : ℚ) * 2 ^ e = (m * 2 ^ k : ℤ) * 2 ^ spacing x := by
      rw [← hk, add_comm, zpow_add₀ two_ne_zero, zpow_natCast]
      push_cast
      ring
    rw [hmultiple]
    exact abs_sub_nearestMagnitude_le_multiple hx.le _

theorem isRepresentable_nearestMagnitude (hx : 0 ≤ x) : IsRepresentable (nearestMagnitude x) := by
  have hround : roundHalfEven (x / 2 ^ spacing x) ≤ 2 ^ 53 :=
    roundHalfEven_le (div_nonneg hx (two_zpow_pos _).le) (div_spacing_lt x)
  have hspacing : -1074 ≤ spacing x := le_max_right _ _
  rcases Nat.lt_or_eq_of_le hround with hlt | heq
  · exact ⟨roundHalfEven (x / 2 ^ spacing x), spacing x, by simpa using hlt, hspacing, rfl⟩
  · -- Rounding up has given one digit more.
    refine ⟨2 ^ 52, spacing x + 1, by decide, by omega, ?_⟩
    unfold nearestMagnitude
    rw [heq, zpow_add_one₀ two_ne_zero]
    push_cast
    ring

end magnitude

section signed

variable {x y : ℚ}

theorem nearest_of_nonneg (h : 0 ≤ x) : nearest x = nearestMagnitude x := if_neg (not_lt.2 h)

theorem nearest_zero : nearest 0 = 0 := by
  decide +kernel

/-- **Rounding is the same on both sides of zero.** -/
theorem nearest_neg (x : ℚ) : nearest (-x) = -nearest x := by
  unfold nearest
  rcases lt_trichotomy x 0 with hneg | rfl | hpos
  · rw [if_pos hneg, if_neg (by linarith), neg_neg]
  · have hzero : nearestMagnitude 0 = 0 := nearest_zero
    simp [hzero]
  · rw [if_pos (by linarith), if_neg (by linarith), neg_neg]

theorem IsRepresentable.neg (h : IsRepresentable x) : IsRepresentable (-x) := by
  obtain ⟨m, e, hm, he, rfl⟩ := h
  exact ⟨-m, e, by rwa [Int.natAbs_neg], he, by push_cast; ring⟩

/-- **Floating point has the nearest number**, where exponents have no upper end. -/
theorem isRepresentable_nearest (x : ℚ) : IsRepresentable (nearest x) := by
  unfold nearest
  split
  · next h => exact (isRepresentable_nearestMagnitude (by linarith)).neg
  · next h => exact isRepresentable_nearestMagnitude (by linarith)

/-- **And none of those that it has is nearer.** -/
theorem abs_sub_nearest_le (x : ℚ) (hy : IsRepresentable y) : |x - nearest x| ≤ |x - y| := by
  rcases lt_trichotomy x 0 with hneg | rfl | hpos
  -- Below zero everything is turned around.
  · obtain ⟨z, rfl⟩ : ∃ z, x = -z := ⟨-x, (neg_neg x).symm⟩
    have h := abs_sub_nearestMagnitude_le (x := z) (by linarith) hy.neg
    rw [nearest_neg, nearest_of_nonneg (by linarith)]
    rwa [neg_sub_neg, abs_sub_comm, ← abs_neg (-z - y), neg_sub', neg_neg]
  · rw [nearest_zero, sub_zero, abs_zero]
    exact abs_nonneg _
  · rw [nearest_of_nonneg hpos.le]
    exact abs_sub_nearestMagnitude_le hpos hy

/-- A number that floating point has is its own nearest. -/
theorem IsRepresentable.nearest_eq (h : IsRepresentable x) : nearest x = x := by
  -- No number is nearer than this one is to itself.
  have hle := abs_sub_nearest_le x h
  rw [sub_self, abs_zero] at hle
  exact (sub_eq_zero.1 (abs_nonpos_iff.1 hle)).symm

end signed

/-! ## Integers

Small integers are numbers that floating point has. From 2 ^ 53 on the spacing is a natural power of
two, so what is nearest is an integer again, and rounding up at most doubles it. -/

section integers

variable {n : ℤ}

/-- **Floating point has the integers up to 2 ^ 53.** -/
theorem isRepresentable_intCast (h : n.natAbs ≤ 2 ^ 53) : IsRepresentable n := by
  rcases Nat.lt_or_eq_of_le h with hlt | heq
  · exact ⟨n, 0, hlt, by decide, by simp⟩
  · -- The first integer past the mantissas is twice one of them.
    obtain ⟨k, rfl⟩ : ∃ k : ℤ, n = k * 2 := ⟨n / 2, by omega⟩
    exact ⟨k, 1, by omega, by decide, by simp⟩

/-- The nearest number to a natural number is one, and not more than twice as large. -/
theorem exists_nearestMagnitude_natCast (n : ℕ) :
    ∃ k : ℕ, k ≤ 2 * n ∧ nearestMagnitude n = k := by
  rcases Nat.lt_or_ge n (2 ^ 53) with hlt | hge
  · refine ⟨n, by omega, ?_⟩
    rw [← nearest_of_nonneg (Nat.cast_nonneg n)]
    exact (isRepresentable_intCast (n := n) (by simpa using hlt.le)).nearest_eq
  · have hpos : (0 : ℚ) < n := Nat.cast_pos.2 (by omega)
    have hlog : 53 ≤ Int.log 2 (n : ℚ) := by
      rw [← Int.zpow_le_iff_le_log one_lt_two hpos]
      exact_mod_cast hge
    -- The spacing is a natural power of two, so multiples of it are integers.
    obtain ⟨k, hk⟩ := Int.eq_ofNat_of_zero_le (show 0 ≤ spacing n by unfold spacing; omega)
    have hround : roundHalfEven ((n : ℚ) / 2 ^ spacing n) ≤ 2 ^ 53 :=
      roundHalfEven_le (div_nonneg hpos.le (two_zpow_pos _).le) (div_spacing_lt _)
    -- The number is at least the power of two at which this spacing begins.
    have hpow : 2 ^ (52 + k) ≤ n := by
      have hle := zpow_log_le hpos
      rw [show Int.log 2 (n : ℚ) = (52 + k : ℕ) by unfold spacing at hk; omega] at hle
      exact_mod_cast hle
    refine ⟨roundHalfEven ((n : ℚ) / 2 ^ spacing n) * 2 ^ k, ?_, ?_⟩
    · calc roundHalfEven ((n : ℚ) / 2 ^ spacing n) * 2 ^ k ≤ 2 ^ 53 * 2 ^ k :=
            Nat.mul_le_mul_right _ hround
        _ = 2 * 2 ^ (52 + k) := by ring
        _ ≤ 2 * n := Nat.mul_le_mul_left _ hpow
    · unfold nearestMagnitude
      rw [hk, zpow_natCast]
      push_cast
      rfl

/-- **The nearest number to an integer is an integer**, and at most twice as large. -/
theorem exists_nearest_intCast (n : ℤ) :
    ∃ k : ℤ, k.natAbs ≤ 2 * n.natAbs ∧ nearest n = k := by
  have hnat : ∀ m : ℕ, ∃ k : ℕ, k ≤ 2 * m ∧ nearest m = k := fun m => by
    rw [nearest_of_nonneg (Nat.cast_nonneg m)]
    exact exists_nearestMagnitude_natCast m
  -- A negative integer is rounded as its magnitude is.
  obtain ⟨m, rfl | rfl⟩ := n.eq_nat_or_neg
  · obtain ⟨k, hk, h⟩ := hnat m
    exact ⟨k, by omega, by exact_mod_cast h⟩
  · obtain ⟨k, hk, h⟩ := hnat m
    refine ⟨-k, by omega, ?_⟩
    rw [Int.cast_neg, nearest_neg]
    exact_mod_cast congrArg Neg.neg h

end integers

end AdOps.Number
