import Mathlib
import AdOps.Proofs.Number.Whole

/-!
# Floating-point numbers taken apart

The operations on floating-point numbers take a number apart into sign, mantissa and exponent, work on
these in exact arithmetic, and put the rounded result together again. Which rational number the parts
stand for is what the bits of the whole say, and parts in the one form that the bits allow come back
as they were.

* **`rational?_eq`** — a number is the rational number that its parts stand for.
* **`unpack_pack`** — canonical parts come back from the bits.
* **`isCanonical_unpack`** — the parts of a number are canonical.
-/

namespace AdOps.Number

open Float.Model Float.Model.UnpackedFloat

/-- The rational number with a sign. -/
def withSign : Sign → ℚ → ℚ
  | .negative, q => -q
  | .positive, q => q

/-- The rational number that parts stand for. -/
def rationalOf? : UnpackedFloat → Option ℚ
  | .finite s m e _ => some (withSign s (m * 2 ^ e))
  | .zero _ => some 0
  | _ => none

/-- The form that parts have which are read off bits: a finite number has a mantissa of 53 binary
digits, or of fewer if its exponent is the least one. -/
def IsCanonical : UnpackedFloat → Prop
  | .finite _ m e _ => m < 2 ^ 53 ∧ (2 ^ 52 ≤ m ∨ e = -1074) ∧ -1074 ≤ e ∧ e ≤ 971
  | _ => True

section bits

variable (b : BitVec 64)

/-- The fraction is the 52 bits at the low end. -/
theorem toNat_unpackMantissa :
    (@unpackMantissa Format.binary64 b).toNat = b.toNat % leadingBit := by
  rw [unpackMantissa_def, BitVec.extractLsb'_toNat, Nat.shiftRight_zero]
  rfl

/-- The exponent is the 11 bits above them. -/
theorem toNat_unpackExponent :
    (@unpackExponent Format.binary64 b).toNat = b.toNat / 2 ^ 52 % 2048 := by
  rw [unpackExponent_def, BitVec.extractLsb'_toNat, Nat.shiftRight_eq_div_pow]
  rfl

/-- The sign is the topmost bit. -/
theorem toNat_unpackSign : (@unpackSign Format.binary64 b).toNat = b.toNat / 2 ^ 63 := by
  have hlt : b.toNat < 2 ^ 64 := b.isLt
  rw [unpackSign_def, BitVec.extractLsb'_toNat, Nat.shiftRight_eq_div_pow]
  show b.toNat / 2 ^ 63 % 2 ^ 1 = b.toNat / 2 ^ 63
  omega

theorem unpackMantissa_eq_zero_iff :
    @unpackMantissa Format.binary64 b = 0#_ ↔ b.toNat % leadingBit = 0 := by
  rw [← BitVec.toNat_inj, toNat_unpackMantissa]
  rfl

theorem unpackExponent_eq_zero_iff :
    @unpackExponent Format.binary64 b = 0#_ ↔ b.toNat / 2 ^ 52 % 2048 = 0 := by
  rw [← BitVec.toNat_inj, toNat_unpackExponent]
  rfl

theorem unpackExponent_eq_ones_iff :
    @unpackExponent Format.binary64 b = -1#_ ↔ b.toNat / 2 ^ 52 % 2048 = 2047 := by
  rw [← BitVec.toNat_inj, toNat_unpackExponent]
  rfl

theorem toNat_leadingBit_append (v : BitVec 52) : (1#1 ++ v).toNat = v.toNat + leadingBit := by
  rw [BitVec.toNat_append, ← Nat.shiftLeft_add_eq_or_of_lt v.isLt, Nat.add_comm]
  rfl

/-- The sign as the two readings of the bits have it. -/
theorem ofBitVec_unpackSign :
    Sign.ofBitVec (@unpackSign Format.binary64 b) =
      if b.toNat >>> 63 == 1 then .negative else .positive := by
  have hlt : b.toNat < 2 ^ 64 := b.isLt
  have hbit : @unpackSign Format.binary64 b = 0#1 ↔ ¬ b.toNat / 2 ^ 63 = 1 := by
    rw [← BitVec.toNat_inj, toNat_unpackSign]
    show b.toNat / 2 ^ 63 = 0 ↔ _
    omega
  unfold Sign.ofBitVec
  rw [Nat.shiftRight_eq_div_pow]
  -- The one reading tests the bit against one, the other against zero.
  by_cases h : b.toNat / 2 ^ 63 = 1
  · rw [if_neg fun hzero => hbit.1 hzero h, if_pos (beq_iff_eq.2 h)]
  · rw [if_pos (hbit.2 h), if_neg fun hone => h (eq_of_beq hone)]

end bits

/-- The sign goes to the integer mantissa in the one reading and to the number in the other. -/
theorem signed_eq_withSign (negative : Bool) (m : ℕ) (e : ℤ) :
    (signed negative m : ℚ) * 2 ^ e =
      withSign (if negative then .negative else .positive) (m * 2 ^ e) := by
  cases negative <;> simp [signed, withSign]

/-- **A number is the rational number that its parts stand for.** -/
theorem rational?_eq (x : Float) : rational? x = rationalOf? x.toModel.unpack := by
  show rational? x = rationalOf? (UnpackedFloat.unpack Format.binary64 x.toModel.toBits.toBitVec)
  have hbits : x.toBits.toNat = x.toModel.toBits.toBitVec.toNat := rfl
  unfold rational? parts UnpackedFloat.unpack
  rw [hbits]
  -- From here on it is about 64 bits; both readings test the exponent first, for all ones and for
  -- zero.
  generalize x.toModel.toBits.toBitVec = b
  dsimp only
  rw [ofBitVec_unpackSign, Nat.shiftRight_eq_div_pow b.toNat 52]
  by_cases hones : b.toNat / 2 ^ 52 % 2048 = 2047
  · -- An infinity or a NaN.
    rw [if_pos hones, if_pos ((unpackExponent_eq_ones_iff b).2 hones)]
    by_cases hzero : b.toNat % leadingBit = 0
    · rw [if_pos hzero, if_pos ((unpackMantissa_eq_zero_iff b).2 hzero)]
      rfl
    · rw [if_neg hzero, if_neg fun h => hzero ((unpackMantissa_eq_zero_iff b).1 h)]
      rfl
  · rw [if_neg hones, if_neg fun h => hones ((unpackExponent_eq_ones_iff b).1 h)]
    by_cases hleast : b.toNat / 2 ^ 52 % 2048 = 0
    · -- Without the leading bit, and so with the least exponent.
      rw [if_pos hleast, if_pos ((unpackExponent_eq_zero_iff b).2 hleast)]
      by_cases hzero : b.toNat % leadingBit = 0
      · rw [dif_pos ((unpackMantissa_eq_zero_iff b).2 hzero), hzero]
        show some _ = some 0
        cases b.toNat >>> 63 == 1 <;> simp [signed]
      · rw [dif_neg fun h => hzero ((unpackMantissa_eq_zero_iff b).1 h)]
        show some _ = some (withSign _ _)
        rw [signed_eq_withSign, toNat_unpackMantissa, toNat_unpackExponent, hleast]
        rfl
    -- Any other exponent, with the leading bit in front of the fraction.
    · rw [if_neg hleast, if_neg fun h => hleast ((unpackExponent_eq_zero_iff b).1 h)]
      show some _ = some (withSign _ _)
      rw [signed_eq_withSign, toNat_leadingBit_append, toNat_unpackMantissa, toNat_unpackExponent]
      rfl

/-- **The parts of a number are canonical**: with the leading bit the mantissa is full, and without
it the exponent is the least one. -/
theorem isCanonical_unpack (b : BitVec 64) :
    IsCanonical (UnpackedFloat.unpack Format.binary64 b) := by
  have hmantissa : (@unpackMantissa Format.binary64 b).toNat < 2 ^ 52 := by
    rw [toNat_unpackMantissa]
    exact Nat.mod_lt _ (by decide)
  have hexponent := toNat_unpackExponent b
  have hleading : leadingBit = 2 ^ 52 := rfl
  have hbias : Format.binary64.exponentBias = 1023 := rfl
  unfold UnpackedFloat.unpack
  dsimp only
  split
  · split <;> trivial
  · next hones =>
    have hlt : b.toNat / 2 ^ 52 % 2048 ≠ 2047 := fun h => hones ((unpackExponent_eq_ones_iff b).2 h)
    split
    · next hleast =>
      have hzero := (unpackExponent_eq_zero_iff b).1 hleast
      split
      · trivial
      -- The bits of the exponent are zero, which stands for the least one.
      · refine ⟨?_, Or.inr ?_, ?_, ?_⟩ <;> omega
    · next hleast =>
      have hpos : b.toNat / 2 ^ 52 % 2048 ≠ 0 := fun h => hleast ((unpackExponent_eq_zero_iff b).2 h)
      -- The leading bit fills the mantissa.
      have happend := toNat_leadingBit_append (@unpackMantissa Format.binary64 b)
      refine ⟨?_, Or.inl ?_, ?_, ?_⟩ <;> omega

/-! ## Putting parts together

The other direction: components are put next to each other as bits and read off again. Only
canonical parts come back unchanged, as the bits have no room for other ones. -/

section packing

variable {s : Sign} {f : UnpackedFloat}

/-- What is read off components that were put together. -/
theorem unpack_packComponents (s : Sign) (e : BitVec 11) (m : BitVec 52) :
    UnpackedFloat.unpack Format.binary64 (packComponents Format.binary64 s e m) =
      if e = -1#11 then if m = 0#52 then .infinity s else .notANumber
      else if e = 0#11 then
        if h : m = 0#52 then .zero s
        else .finite s m.toNat (-1074) (by simpa [BitVec.toNat_pos, BitVec.pos_iff_ne_zero])
      else .finite s (m.toNat + leadingBit) (e.toNat - 1075) (Nat.add_pos_right _ (by decide)) := by
  unfold UnpackedFloat.unpack
  dsimp only
  rw [unpackSign_packComponents, Sign.ofBitVec_toBitVec]
  -- Each component is read off where it was put.
  simp only [unpackMantissa_packComponents, unpackExponent_packComponents, toNat_leadingBit_append]
  split
  · rfl
  · split
    · next h =>
      subst h
      rfl
    · rfl

/-- Canonical parts are packed without rounding: a full mantissa leaves out its leading bit, and any
other has exponent bits of zero. -/
theorem pack_finite {m : ℕ} {e : ℤ} {hm : 0 < m} (hlt : m < 2 ^ 53) (he : e ≤ 971) :
    UnpackedFloat.pack Format.binary64 (.finite s m e hm) =
      packComponents Format.binary64 s (if 2 ^ 52 ≤ m then BitVec.ofNat 11 (e + 1075).toNat else 0#11)
        (BitVec.ofNat 52 m) := by
  have hbiased : (e + Format.binary64.exponentBias + (52 : ℕ)).toNat = (e + 1075).toNat := by
    have hbias : Format.binary64.exponentBias = 1023 := rfl
    omega
  -- The exponent is in range, so no infinity is made of the number.
  have hrange : ¬ 2 ^ Format.binary64.exponentBits ≤ (e + 1075).toNat + 1 := by
    have hbits : (2 : ℕ) ^ Format.binary64.exponentBits = 2048 := rfl
    omega
  -- Whether the mantissa is full is tested by its number of digits.
  have hlog : m.log2 + 1 = Format.binary64.mantissaBits ↔ 2 ^ 52 ≤ m := by
    have hbits : Format.binary64.mantissaBits = 53 := rfl
    have hlow := Nat.le_log2 hm.ne' (k := 52)
    have hhigh := (Nat.log2_lt hm.ne').2 hlt
    omega
  unfold UnpackedFloat.pack
  dsimp only
  rw [hbiased, if_neg hrange]
  simp only [hlog]
  split <;> rfl

/-- Finite parts agree if their mantissas and their exponents do. -/
theorem finite_congr {m n : ℕ} {e d : ℤ} {hm : 0 < m} {hn : 0 < n} (hmn : m = n) (hed : e = d) :
    UnpackedFloat.finite s m e hm = .finite s n d hn := by
  subst hmn hed
  rfl

/-- **Canonical parts come back from the bits.** -/
theorem unpack_pack (h : IsCanonical f) :
    UnpackedFloat.unpack Format.binary64 (UnpackedFloat.pack Format.binary64 f) = f := by
  cases f with
  | notANumber => rfl
  | infinity s => exact unpack_packComponents s _ _
  | zero s => exact unpack_packComponents s _ _
  | finite s m e hm =>
    obtain ⟨hlt, hnormal, hlow, hhigh⟩ := h
    have hfraction : (BitVec.ofNat 52 m).toNat = m % 2 ^ 52 := BitVec.toNat_ofNat m 52
    rw [pack_finite hlt hhigh]
    by_cases hfull : 2 ^ 52 ≤ m
    · have hexponent : (BitVec.ofNat 11 (e + 1075).toNat).toNat = (e + 1075).toNat := by
        rw [BitVec.toNat_ofNat]
        omega
      -- The exponent bits are neither of the two special values.
      have hzero : BitVec.ofNat 11 (e + 1075).toNat ≠ 0#11 := by
        rw [Ne, ← BitVec.toNat_inj, hexponent]
        show (e + 1075).toNat ≠ 0
        omega
      have hones : BitVec.ofNat 11 (e + 1075).toNat ≠ -1#11 := by
        rw [Ne, ← BitVec.toNat_inj, hexponent]
        show (e + 1075).toNat ≠ 2047
        omega
      have hleading : leadingBit = 2 ^ 52 := rfl
      rw [if_pos hfull, unpack_packComponents, if_neg hones, if_neg hzero]
      exact finite_congr (by omega) (by omega)
    · -- Without the leading bit the mantissa is the fraction.
      have hzero : BitVec.ofNat 52 m ≠ 0#52 := by
        rw [Ne, ← BitVec.toNat_inj, hfraction]
        show m % 2 ^ 52 ≠ 0
        omega
      rw [if_neg hfull, unpack_packComponents, if_neg (by decide), if_pos rfl, dif_neg hzero]
      exact finite_congr (by omega) (by omega)

end packing

/-- The parts of a number that was put together of canonical ones. -/
theorem unpack_toModel_pack {f : UnpackedFloat} (h : IsCanonical f) :
    (Float.ofModel (Float.Model.pack f)).toModel.unpack = f := unpack_pack h

end AdOps.Number
