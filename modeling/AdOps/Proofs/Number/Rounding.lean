import AdOps.Proofs.Number.Nearest
import AdOps.Proofs.Number.Unpacked

/-!
# The arithmetic of floating-point numbers

Operations shift digits out of a mantissa, keep what is needed of them in two bits, and round by these.
The two bits say enough: what comes out is the nearest floating-point number to the exact result.

* **`represents_shiftRight`** — what mantissa and bits say of a number that is shifted.
* **`roundWithAccuracy_standsFor`** — rounding parts gives the nearest number.
* **`rational?_add`**, **`rational?_mul`** — a sum or a product is the nearest number to the exact one.
* **`rational?_ofInt`** — an integer is taken for the nearest number.
-/

namespace AdOps.Number

open Float.Model Float.Model.UnpackedFloat

/-! ## Shifting

The invariant of a shift is what the mantissa and its two bits say about the exact number. It is
stated over the rationals, so one step halves the number, and a shift by `k` digits divides it by `2
^ k`. -/

/-- A mantissa with its two bits stands for a number: the mantissa is the integral part, the round bit
says whether the rest is a half or more, and the sticky bit whether it is neither nothing nor a half.
-/
structure Represents (em : ExtendedMantissa) (q : ℚ) : Prop where
  low : (em.mantissa : ℚ) ≤ q
  high : q < em.mantissa + 1
  round : em.roundBit = true ↔ 2 * (em.mantissa : ℚ) + 1 ≤ 2 * q
  sticky : em.stickyBit = true ↔ q ≠ em.mantissa ∧ 2 * q ≠ 2 * em.mantissa + 1

section shifting

variable {em : ExtendedMantissa} {q : ℚ}

/-- At the beginning nothing was shifted out. -/
theorem represents_exact (m : ℕ) : Represents ⟨m, false, false⟩ m where
  low := le_refl _
  high := by linarith
  round := by simp
  sticky := by simp

/-- The two bits together say whether the mantissa is all. -/
theorem Represents.bits_iff (h : Represents em q) :
    (em.roundBit || em.stickyBit) = true ↔ q ≠ em.mantissa := by
  rw [Bool.or_eq_true, h.round, h.sticky]
  constructor
  · rintro (hround | ⟨hne, -⟩)
    · exact fun heq => by linarith
    · exact hne
  · intro hne
    by_cases hhalf : 2 * q = 2 * em.mantissa + 1
    · exact Or.inl (by linarith)
    · exact Or.inr ⟨hne, hhalf⟩

/-- **One step of a shift keeps the invariant**, for half the number. -/
theorem represents_shiftRightOne (h : Represents em q) : Represents em.shiftRightOne (q / 2) := by
  have hlow := h.low
  have hhigh := h.high
  have hbits := h.bits_iff
  have hm : ((em.mantissa % 2 : ℕ) : ℚ) + 2 * ((em.mantissa / 2 : ℕ) : ℚ) = em.mantissa := by
    exact_mod_cast Nat.mod_add_div em.mantissa 2
  unfold ExtendedMantissa.shiftRightOne
  rcases Nat.mod_two_eq_zero_or_one em.mantissa with hbit | hbit
  · -- The digit that goes is 0: the rest stays below a half.
    rw [hbit, Nat.cast_zero, zero_add] at hm
    refine ⟨?_, ?_, ?_, ?_⟩ <;> dsimp only
    · linarith
    · linarith
    · rw [hbit]
      exact iff_of_false (by decide) (by linarith)
    -- What is shifted out now is no half, so the sticky bit collects all that went before.
    · rw [hbits, ← hm]
      constructor
      · exact fun hne => ⟨fun heq => hne (by linarith), fun heq => by linarith⟩
      · exact fun hne heq => hne.1 (by linarith)
  · -- The digit that goes is 1: the rest is a half or more.
    rw [hbit, Nat.cast_one] at hm
    refine ⟨?_, ?_, ?_, ?_⟩ <;> dsimp only
    · linarith
    · linarith
    · rw [hbit]
      exact iff_of_true (by decide) (by linarith)
    · rw [hbits, ← hm]
      constructor
      · exact fun hne => ⟨fun heq => by linarith, fun heq => hne (by linarith)⟩
      · exact fun hne heq => hne.2 (by linarith)

/-- **What mantissa and bits say of a number that is shifted.** -/
theorem represents_shiftRight (h : Represents em q) (k : ℕ) : Represents (em >>> k) (q / 2 ^ k) := by
  induction k with
  | zero =>
    rw [pow_zero, div_one]
    exact h
  -- Induction on the digits, with the number divided along.
  | succ k ih =>
    rw [pow_succ, ← div_div]
    exact represents_shiftRightOne ih

/-- **The bits are enough to round by.** -/
theorem Represents.roundedMantissa_eq (h : Represents em q) :
    em.roundedMantissa = roundHalfEven q := by
  have hlow := h.low
  have hround := h.round
  have hsticky := h.sticky
  have hfloor : ⌊q⌋₊ = em.mantissa :=
    (Nat.floor_eq_iff (le_trans (Nat.cast_nonneg _) hlow)).2 ⟨hlow, h.high⟩
  unfold roundHalfEven
  rw [hfloor]
  obtain ⟨m, r, s⟩ := em
  dsimp only at *
  cases r with
  | false =>
    -- Less than a half: rounded down, whatever the sticky bit says.
    have hlt : ¬ 2 * (m : ℚ) + 1 ≤ 2 * q := fun hle => absurd (hround.2 hle) (by decide)
    rw [if_pos (by linarith)]
    cases s <;> rfl
  | true =>
    have hle := hround.1 rfl
    rw [if_neg (by linarith)]
    cases s with
    | false =>
      -- Without the sticky bit it is exactly a half, and the even neighbour is taken.
      have hhalf : 2 * q = 2 * m + 1 := by
        by_contra hne
        exact absurd (hsticky.2 ⟨fun heq => by linarith, hne⟩) (by decide)
      exact (if_pos (by linarith)).symm
    | true =>
      exact (if_neg fun hhalf => (hsticky.1 rfl).2 (by linarith)).symm

end shifting

/-! ## Rounding

Rounding shifts the mantissa to the exponent that the spacing asks for, rounds by the two bits, and
shifts again if that gave one digit more. The number stood for is the nearest one at the end. -/

/-- The parts are canonical and stand for a number. -/
def StandsFor (f : UnpackedFloat) (q : ℚ) : Prop := IsCanonical f ∧ rationalOf? f = some q

section rounding

variable {s : Sign} {m : ℕ} {e t : ℤ} {q : ℚ}

/-- The exponent that a mantissa is shifted to, in numbers. -/
theorem targetExponent_eq (m : ℕ) (e : ℤ) :
    Format.binary64.targetExponent (totalExponent m e) = max (m.log2 + e - 52) (-1074) := by
  have hbits : Format.binary64.mantissaBits = 53 := rfl
  have hleast : Format.binary64.minExponent = -1074 := rfl
  unfold Format.targetExponent totalExponent
  rw [hbits, hleast]
  omega

/-- That exponent is the spacing of the number. -/
theorem targetExponent_eq_spacing (hm : 0 < m) (e : ℤ) :
    Format.binary64.targetExponent (totalExponent m e) = spacing (m * 2 ^ e) := by
  unfold spacing
  rw [targetExponent_eq, log_mantissa_mul hm]

/-- A shift to a larger exponent is one to the right, digit by digit. -/
theorem shiftToExponent_exact (h : e ≤ t) :
    shiftToExponent m e .exact t =
      ((⟨m, false, false⟩ : ExtendedMantissa) >>> (t - e).toNat, t) := by
  unfold shiftToExponent
  refine Prod.ext rfl ?_
  show e + ((t - e).toNat : ℤ) = t
  omega

/-- The first shift leaves a mantissa for the quotient by the spacing. -/
theorem represents_shiftToTargetExponent (hm : 0 < m) (he : e ≤ spacing (m * 2 ^ e)) :
    ∃ em, shiftToTargetExponent Format.binary64 m e .exact = (em, spacing (m * 2 ^ e)) ∧
      Represents em (m * 2 ^ e / 2 ^ spacing (m * 2 ^ e)) := by
  unfold shiftToTargetExponent
  dsimp only
  rw [targetExponent_eq_spacing hm, shiftToExponent_exact he]
  refine ⟨_, rfl, ?_⟩
  generalize spacing (m * 2 ^ e) = t at he
  obtain ⟨k, rfl⟩ := Int.le.dest he
  -- Shifting by `k` digits is dividing by `2 ^ k`.
  have hquotient : (m : ℚ) * 2 ^ e / 2 ^ (e + k) = m / 2 ^ k := by
    rw [zpow_add₀ two_ne_zero, zpow_natCast]
    field_simp
  rw [hquotient, add_sub_cancel_left, Int.toNat_natCast]
  exact represents_shiftRight (represents_exact m) k

/-- A mantissa that has not too many digits is not shifted again. -/
theorem shiftToTargetExponent_of_lt (hm : m < 2 ^ 53) (ht : -1074 ≤ t) :
    shiftToTargetExponent Format.binary64 m t .exact = (⟨m, false, false⟩, t) := by
  have hlog : m.log2 ≤ 52 := by
    rcases Nat.eq_zero_or_pos m with rfl | hpos
    · decide
    · have := (Nat.log2_lt hpos.ne').2 hm
      omega
  -- The exponent it should have is no larger than the one it has.
  have hshift : (Format.binary64.targetExponent (totalExponent m t) - t).toNat = 0 := by
    rw [targetExponent_eq]
    omega
  unfold shiftToTargetExponent shiftToExponent
  dsimp only
  rw [hshift]
  exact Prod.ext rfl (add_zero t)

/-- Rounding up may give one digit more, and then a zero goes. -/
theorem shiftToTargetExponent_full (ht : -1074 ≤ t) :
    shiftToTargetExponent Format.binary64 (2 ^ 53) t .exact = (⟨2 ^ 52, false, false⟩, t + 1) := by
  have htarget : Format.binary64.targetExponent (totalExponent (2 ^ 53) t) = t + 1 := by
    rw [targetExponent_eq, Nat.log2_two_pow]
    omega
  unfold shiftToTargetExponent
  dsimp only
  rw [htarget, shiftToExponent_exact (by omega), add_sub_cancel_left]
  rfl

/-- A number that is not huge has an exponent that the bits can hold. -/
theorem spacing_le_of_lt (hq : 0 < q) (h : q < 2 ^ (1023 : ℤ)) : spacing q ≤ 970 := by
  have hlog : Int.log 2 q < 1023 := (Int.lt_zpow_iff_log_lt one_lt_two hq).1 h
  unfold spacing
  omega

theorem standsFor_finite {hm : 0 < m} (h : IsCanonical (.finite s m e hm)) (hq : q = m * 2 ^ e) :
    StandsFor (.finite s m e hm) (withSign s q) := ⟨h, by rw [hq]; rfl⟩

/-- **Rounding parts gives the nearest number**, if the exponent is not too large to begin with. -/
theorem roundWithAccuracy_standsFor (hm : 0 < m) (he : e ≤ spacing (m * 2 ^ e))
    (hbig : (m : ℚ) * 2 ^ e < 2 ^ (1023 : ℤ)) :
    StandsFor (roundWithAccuracy Format.binary64 s m e .exact)
      (withSign s (nearest (m * 2 ^ e))) := by
  have hpos : (0 : ℚ) < m * 2 ^ e := mul_pos (Nat.cast_pos.2 hm) (two_zpow_pos e)
  obtain ⟨em, hshift, hem⟩ := represents_shiftToTargetExponent hm he
  rw [nearest_of_nonneg hpos.le]
  unfold nearestMagnitude roundWithAccuracy
  rw [hshift]
  dsimp only
  rw [hem.roundedMantissa_eq]
  -- The parts are not looked at any more, only the number and its spacing.
  generalize (m : ℚ) * 2 ^ e = x at *
  have hlow : -1074 ≤ spacing x := le_max_right _ _
  have hhigh := spacing_le_of_lt hpos hbig
  have hround : roundHalfEven (x / 2 ^ spacing x) ≤ 2 ^ 53 :=
    roundHalfEven_le (div_nonneg hpos.le (two_zpow_pos _).le) (div_spacing_lt x)
  -- Rounding does not take digits away from a full mantissa.
  have hfull : spacing x ≠ -1074 → 2 ^ 52 ≤ roundHalfEven (x / 2 ^ spacing x) := fun h =>
    le_roundHalfEven (le_div_spacing hpos h)
  generalize roundHalfEven (x / 2 ^ spacing x) = r at *
  generalize spacing x = t at *
  -- Either the rounded mantissa fits, or rounding up has given it one digit more.
  rcases Nat.lt_or_eq_of_le hround with hlt | rfl
  · rw [shiftToTargetExponent_of_lt hlt hlow]
    dsimp only
    split
    · next hzero =>
      rw [hzero]
      refine ⟨trivial, ?_⟩
      cases s <;> simp [rationalOf?, withSign]
    · refine standsFor_finite ⟨hlt, ?_, hlow, by omega⟩ rfl
      by_cases h : t = -1074
      · exact Or.inr h
      · exact Or.inl (hfull h)
  · rw [shiftToTargetExponent_full hlow]
    dsimp only
    rw [dif_neg (by decide)]
    refine standsFor_finite ⟨by decide, Or.inl (le_refl _), by omega, by omega⟩ ?_
    rw [zpow_add_one₀ two_ne_zero]
    push_cast
    ring

/-- Rounding puts zeros at the end first, if the exponent is larger than the spacing. -/
theorem round_standsFor (hm : 0 < m) (hbig : (m : ℚ) * 2 ^ e < 2 ^ (1023 : ℤ)) :
    StandsFor (UnpackedFloat.round Format.binary64 s m e) (withSign s (nearest (m * 2 ^ e))) := by
  unfold UnpackedFloat.round decreaseExponent
  dsimp only
  rw [targetExponent_eq_spacing hm]
  generalize hk : (e - spacing (m * 2 ^ e)).toNat = k
  -- Zeros that are put at the end do not change the number.
  have hvalue : ((m <<< k : ℕ) : ℚ) * 2 ^ (e - k) = m * 2 ^ e := by
    rw [Nat.shiftLeft_eq, Nat.cast_mul, Nat.cast_pow, Nat.cast_ofNat, mul_assoc,
      ← zpow_natCast, ← zpow_add₀ two_ne_zero, add_sub_cancel]
  have hround := roundWithAccuracy_standsFor (s := s) (m := m <<< k) (e := e - k)
    (by rw [Nat.shiftLeft_eq]; positivity) (by rw [hvalue]; omega) (by rwa [hvalue])
  rwa [hvalue] at hround

/-- **Rounding a signed mantissa gives the nearest number.** -/
theorem normalize_standsFor {n : ℤ} (hbig : |(n : ℚ) * 2 ^ e| < 2 ^ (1023 : ℤ)) (zeroSign : Sign) :
    StandsFor (UnpackedFloat.normalize Format.binary64 n e zeroSign) (nearest (n * 2 ^ e)) := by
  unfold UnpackedFloat.normalize
  -- The sign is taken off, and zero has one of its own.
  rcases lt_trichotomy n 0 with hneg | rfl | hpos
  · obtain ⟨m, rfl⟩ : ∃ m : ℕ, n = -(m : ℤ) := ⟨n.natAbs, by omega⟩
    rw [Int.cast_neg, neg_mul, abs_neg, Int.cast_natCast] at hbig
    rw [compare_lt_iff_lt.2 hneg, Int.cast_neg, neg_mul, nearest_neg, Int.cast_natCast]
    show StandsFor (UnpackedFloat.round _ _ (- -(m : ℤ)).toNat _) _
    rw [neg_neg, Int.toNat_natCast]
    exact round_standsFor (by omega) (lt_of_abs_lt hbig)
  · rw [compare_eq_iff_eq.2 rfl, Int.cast_zero, zero_mul, nearest_zero]
    exact ⟨trivial, rfl⟩
  · obtain ⟨m, rfl⟩ := Int.eq_ofNat_of_zero_le hpos.le
    rw [compare_gt_iff_gt.2 hpos]
    exact round_standsFor (by omega) (lt_of_abs_lt hbig)

end rounding

/-! ## Operations

Every operation takes its arguments apart, computes exactly on mantissas and exponents and rounds
the result once. So each is one lemma about parts and one about numbers, which are put together
again by `rational?_pack`. -/

section operations

variable {x y : Float} {u v : ℚ}

/-- Parts that stand for a number are put together to this number. -/
theorem rational?_pack {f : UnpackedFloat} {q : ℚ} (h : StandsFor f q) :
    rational? (Float.ofModel (Float.Model.pack f)) = some q := by
  rw [rational?_eq, unpack_toModel_pack h.1]
  exact h.2

/-- The parts of a finite number stand for it. -/
theorem standsFor_unpack (h : rational? x = some u) : StandsFor x.toModel.unpack u :=
  ⟨isCanonical_unpack _, by rw [← rational?_eq, h]⟩

/-- What stands for a rational number is a zero or a finite number, and never an infinity or a NaN.
-/
theorem StandsFor.cases {f : UnpackedFloat} (h : StandsFor f u) :
    (∃ s, f = .zero s ∧ u = 0) ∨
      ∃ s m e hm, f = .finite s m e hm ∧ m < 2 ^ 53 ∧ -1074 ≤ e ∧ u = withSign s (m * 2 ^ e) := by
  obtain ⟨hcanonical, hvalue⟩ := h
  cases f with
  | notANumber => exact absurd hvalue (by simp [rationalOf?])
  | infinity s => exact absurd hvalue (by simp [rationalOf?])
  | zero s => exact Or.inl ⟨s, rfl, (Option.some.inj hvalue).symm⟩
  | finite s m e hm =>
    exact Or.inr ⟨s, m, e, hm, rfl, hcanonical.1, hcanonical.2.2.1, (Option.some.inj hvalue).symm⟩

/-- A sign of a number goes with its mantissa, and so do zeros that are put at the end. -/
theorem withSign_mantissa (s : Sign) (m : ℕ) {d e : ℤ} (h : d ≤ e) :
    withSign s (m * 2 ^ e) = (s.apply (m <<< (e - d).toNat : ℕ) : ℤ) * 2 ^ d := by
  -- The number of zeros is the distance of the exponents.
  obtain ⟨k, rfl⟩ := Int.le.dest h
  rw [add_sub_cancel_left, Int.toNat_natCast, Nat.shiftLeft_eq, zpow_add₀ two_ne_zero, zpow_natCast]
  cases s <;> simp only [withSign, Sign.apply] <;> push_cast <;> ring

/-- Floating point has what its parts stand for. -/
theorem StandsFor.isRepresentable {f : UnpackedFloat} (h : StandsFor f u) : IsRepresentable u := by
  rcases h.cases with ⟨s, -, rfl⟩ | ⟨s, m, e, -, -, hm, he, rfl⟩
  · exact ⟨0, 0, by decide, by decide, by simp⟩
  · refine ⟨s.apply m, e, ?_, he, ?_⟩
    · cases s <;> simpa [Sign.apply] using hm
    · cases s <;> simp [Sign.apply, withSign]

/-- The negative of the parts stands for the negative. -/
theorem neg_standsFor {f : UnpackedFloat} (h : StandsFor f u) : StandsFor f.neg (-u) := by
  rcases h.cases with ⟨s, rfl, rfl⟩ | ⟨s, m, e, hm, rfl, -, -, rfl⟩
  · exact ⟨trivial, by rw [neg_zero]; rfl⟩
  · refine ⟨h.1, congrArg some ?_⟩
    cases s
    · exact (neg_neg _).symm
    · rfl

/-- The sum of the parts stands for the nearest number to the sum. A zero is added without rounding,
and what is left of the sum is its own nearest number. -/
theorem add_standsFor {f g : UnpackedFloat} (hf : StandsFor f u) (hg : StandsFor g v)
    (hbig : |u + v| < 2 ^ (1023 : ℤ)) :
    StandsFor (UnpackedFloat.add Format.binary64 f g) (nearest (u + v)) := by
  rcases hf.cases with ⟨s, rfl, rfl⟩ | ⟨s, m, e, hm, rfl, -, -, rfl⟩
  · rcases hg.cases with ⟨s', rfl, rfl⟩ | ⟨s', m', e', hm', rfl, -, -, rfl⟩
    · rw [add_zero, nearest_zero]
      cases s <;> cases s' <;> exact ⟨trivial, rfl⟩
    · rw [zero_add, hg.isRepresentable.nearest_eq]
      exact hg
  · rcases hg.cases with ⟨s', rfl, rfl⟩ | ⟨s', m', e', hm', rfl, -, -, rfl⟩
    · rw [add_zero, hf.isRepresentable.nearest_eq]
      exact hf
    · -- Both mantissas are brought to the smaller exponent and added there.
      rw [withSign_mantissa s m (min_le_left e e'), withSign_mantissa s' m' (min_le_right e e'),
        ← add_mul, ← Int.cast_add] at hbig ⊢
      exact normalize_standsFor hbig .positive

/-- **The negative of a number.** -/
theorem rational?_neg (h : rational? x = some u) : rational? (-x) = some (-u) :=
  rational?_pack (neg_standsFor (standsFor_unpack h))

/-- **The sum of two numbers is the nearest number to their exact sum**, unless that is huge. -/
theorem rational?_add (hx : rational? x = some u) (hy : rational? y = some v)
    (hbig : |u + v| < 2 ^ (1023 : ℤ)) : rational? (x + y) = some (nearest (u + v)) :=
  rational?_pack (add_standsFor (standsFor_unpack hx) (standsFor_unpack hy) hbig)

/-- Signs are multiplied by themselves. -/
theorem withSign_mul (s s' : Sign) (p q : ℚ) :
    withSign s p * withSign s' q = withSign (s * s') (p * q) := by
  cases s <;> cases s'
  · exact neg_mul_neg p q
  · exact neg_mul p q
  · exact mul_neg p q
  · rfl

/-- A sign goes through rounding. -/
theorem nearest_withSign (s : Sign) (q : ℚ) : nearest (withSign s q) = withSign s (nearest q) := by
  cases s
  · exact nearest_neg q
  · rfl

theorem abs_withSign (s : Sign) (q : ℚ) : |withSign s q| = |q| := by
  cases s
  · exact abs_neg q
  · rfl

/-- A product of two mantissas has digits enough to be rounded. -/
theorem add_le_spacing {s s' : Sign} {m m' : ℕ} {e e' : ℤ} {hm : 0 < m} {hm' : 0 < m'}
    (h : IsCanonical (.finite s m e hm)) (h' : IsCanonical (.finite s' m' e' hm')) :
    e + e' ≤ spacing ((m * m' : ℕ) * 2 ^ (e + e')) := by
  obtain ⟨-, hnormal, -, -⟩ := h
  obtain ⟨-, hnormal', -, -⟩ := h'
  -- One full mantissa makes the product as long.
  have hlog : (2 ^ 52 ≤ m ∨ 2 ^ 52 ≤ m') → 52 ≤ (m * m').log2 := fun hor => by
    rw [Nat.le_log2 (Nat.mul_pos hm hm').ne']
    rcases hor with hle | hle
    · exact hle.trans (Nat.le_mul_of_pos_right m hm')
    · exact hle.trans (Nat.le_mul_of_pos_left m' hm)
  unfold spacing
  rw [log_mantissa_mul (Nat.mul_pos hm hm')]
  omega

/-- The product of the parts stands for the nearest number to the product. -/
theorem mul_standsFor {f g : UnpackedFloat} (hf : StandsFor f u) (hg : StandsFor g v)
    (hbig : |u * v| < 2 ^ (1023 : ℤ)) :
    StandsFor (UnpackedFloat.mul Format.binary64 f g) (nearest (u * v)) := by
  rcases hf.cases with ⟨s, rfl, rfl⟩ | ⟨s, m, e, hm, rfl, -, -, rfl⟩
  · rw [zero_mul, nearest_zero]
    rcases hg.cases with ⟨s', rfl, -⟩ | ⟨s', m', e', hm', rfl, -⟩ <;> exact ⟨trivial, rfl⟩
  · rcases hg.cases with ⟨s', rfl, rfl⟩ | ⟨s', m', e', hm', rfl, -, -, rfl⟩
    · rw [mul_zero, nearest_zero]
      exact ⟨trivial, rfl⟩
    -- Mantissas are multiplied and exponents added, and rounding comes last.
    · have hproduct : (m * 2 ^ e : ℚ) * (m' * 2 ^ e') = (m * m' : ℕ) * 2 ^ (e + e') := by
        rw [zpow_add₀ two_ne_zero]
        push_cast
        ring
      rw [withSign_mul, hproduct, abs_withSign] at hbig
      rw [withSign_mul, hproduct, nearest_withSign]
      exact roundWithAccuracy_standsFor (Nat.mul_pos hm hm') (add_le_spacing hf.1 hg.1)
        (lt_of_abs_lt hbig)

/-- **The product of two numbers is the nearest number to their exact product**, unless that is
huge. -/
theorem rational?_mul (hx : rational? x = some u) (hy : rational? y = some v)
    (hbig : |u * v| < 2 ^ (1023 : ℤ)) : rational? (x * y) = some (nearest (u * v)) :=
  rational?_pack (mul_standsFor (standsFor_unpack hx) (standsFor_unpack hy) hbig)

end operations

/-! ## Integers

An integer is read as a decimal without exponent. If it fits a mantissa it is converted and
multiplied by one, and otherwise it is scaled up and rounded; in both cases what comes out is the
nearest number. -/

section integers

variable {n : ℕ}

/-- An integer of 64 bits is far from the end of the range. -/
theorem natCast_lt_range (h : n < 2 ^ 67) : (n : ℚ) < 2 ^ (1023 : ℤ) :=
  calc (n : ℚ) < (2 : ℚ) ^ (67 : ℤ) := by exact_mod_cast h
    _ ≤ 2 ^ (1023 : ℤ) := zpow_le_zpow_right₀ one_le_two (by norm_num)

theorem abs_lt_range {n : ℤ} (h : n.natAbs < 2 ^ 67) : |(n : ℚ)| < 2 ^ (1023 : ℤ) := by
  rw [← Int.cast_abs, Int.abs_eq_natAbs, Int.cast_natCast]
  exact natCast_lt_range h

theorem nearest_natCast_of_lt (h : n < 2 ^ 53) : nearest n = n :=
  (isRepresentable_intCast (n := n) (by simpa using h.le)).nearest_eq

theorem rational?_one : rational? (Float.exactlyRepresentablePowersOfTen[0]) = some 1 := by
  decide +kernel

/-- A number that fits a mantissa is converted exactly. -/
theorem rational?_toFloat (h : n < 2 ^ 53) : rational? n.toUInt64.toFloat = some (n : ℚ) := by
  have hnat : n.toUInt64.toNat = n := by
    show n % 2 ^ 64 = n
    omega
  show rational? (Float.ofModel (Float.Model.pack
    (UnpackedFloat.normalize Format.binary64 (n.toUInt64.toNat : ℤ) 0 .positive))) = _
  apply rational?_pack
  -- The conversion is a normalisation at exponent zero.
  have hround := normalize_standsFor (n := n) (e := 0)
    (by simpa using natCast_lt_range (by omega)) .positive
  rw [Int.cast_natCast, zpow_zero, mul_one, nearest_natCast_of_lt h] at hround
  rwa [hnat]

/-- A number that fits a mantissa is converted and multiplied by one. -/
theorem rational?_ofNat_of_lt (h : n < 2 ^ 53) : rational? (ofNat n) = some (nearest n) := by
  have hfast : ofNat n = n.toUInt64.toFloat * Float.exactlyRepresentablePowersOfTen[0] := by
    unfold ofNat Float.ofScientific
    rw [dif_pos ⟨h, by decide⟩]
    rfl
  -- The product with one is rounded, and it is what it was.
  have hproduct := rational?_mul (rational?_toFloat h) rational?_one
    (by simpa using natCast_lt_range (by omega))
  rwa [mul_one, ← hfast] at hproduct

/-- A larger one is scaled up and rounded. -/
theorem rational?_ofNat_of_ge (h : 2 ^ 53 ≤ n) (hbig : (n : ℚ) < 2 ^ (1023 : ℤ)) :
    rational? (ofNat n) = some (nearest n) := by
  have hslow : ofNat n = Float.ofModel (Float.Model.ofScientific n 0) := by
    unfold ofNat Float.ofScientific
    rw [dif_neg fun hfast => absurd hfast.1 (by omega)]
    rfl
  -- The zeros at the end and the negative exponent cancel out.
  have hvalue : ((n <<< 53 * 10 ^ 0 : ℕ) : ℚ) * 2 ^ (-53 + 0 : ℤ) = n := by
    rw [Nat.shiftLeft_eq]
    push_cast
    norm_num
    ring
  have hspacing : (-53 + 0 : ℤ) ≤ spacing n := by
    have hlog : 0 ≤ Int.log 2 (n : ℚ) := by
      rw [← Int.zpow_le_iff_le_log one_lt_two (Nat.cast_pos.2 (by omega))]
      exact_mod_cast (show 1 ≤ n by omega)
    unfold spacing
    omega
  -- The size check of the reader does not stop it.
  have hlarge : ¬ (0 : ℤ) < -((2 ^ Format.binary64.exponentBits : ℤ) + n.log2) := by
    have hbits : (2 : ℤ) ^ Format.binary64.exponentBits = 2048 := rfl
    omega
  rw [hslow]
  apply rational?_pack
  unfold UnpackedFloat.ofScientific
  rw [dif_neg (by omega), if_neg (by decide), if_neg hlarge, if_pos (le_refl 0)]
  have hround := roundWithAccuracy_standsFor (s := .positive) (m := n <<< 53 * 10 ^ 0)
    (e := -53 + 0) (by rw [Nat.shiftLeft_eq]; omega) (by rwa [hvalue]) (by rwa [hvalue])
  rwa [hvalue] at hround

/-- **A natural number is taken for the nearest number**, unless it is huge. -/
theorem rational?_ofNat (hbig : (n : ℚ) < 2 ^ (1023 : ℤ)) :
    rational? (ofNat n) = some (nearest n) := by
  rcases Nat.lt_or_ge n (2 ^ 53) with h | h
  · exact rational?_ofNat_of_lt h
  · exact rational?_ofNat_of_ge h hbig

/-- **An integer is taken for the nearest number**, unless it is huge. -/
theorem rational?_ofInt {n : ℤ} (hbig : |(n : ℚ)| < 2 ^ (1023 : ℤ)) :
    rational? (ofInt n) = some (nearest n) := by
  have hnat : rational? (ofNat n.natAbs) = some (nearest (n.natAbs : ℕ)) :=
    rational?_ofNat (by rwa [Nat.cast_natAbs, Int.cast_abs])
  unfold ofInt
  split
  · next hneg =>
    obtain ⟨m, rfl⟩ : ∃ m : ℕ, n = -(m : ℤ) := ⟨n.natAbs, by omega⟩
    rw [Int.natAbs_neg, Int.natAbs_natCast] at hnat ⊢
    -- Below zero the magnitude is read and negated.
    rw [Int.cast_neg, nearest_neg]
    exact rational?_neg hnat
  · next hnonneg =>
    obtain ⟨m, rfl⟩ := Int.eq_ofNat_of_zero_le (Int.not_lt.1 hnonneg)
    exact hnat

end integers

end AdOps.Number
