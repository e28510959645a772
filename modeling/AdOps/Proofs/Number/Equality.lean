import AdOps.Proofs.Number.Order
import AdOps.Proofs.Number.Rounding

/-!
# Equality of floating-point numbers

Numbers are compared by their places in the order, and a finite number is a rational number. Both views
tell the same numbers apart: the bits allow only one form for a rational number, but for the sign of
zero.

* **`beq_iff_of_rational?`** — finite numbers are equal if they are the same rational number.
* **`beq_ofInt_self`** — what an integer is taken for is equal to itself, however large it is.
-/

namespace AdOps.Number

open Float.Model Float.Model.UnpackedFloat

section finite

variable {f g : UnpackedFloat} {s t : Sign} {m n : ℕ} {d e : ℤ} {u v : ℚ}

/-- A canonical mantissa has all the digits that the spacing leaves it. -/
theorem spacing_of_isCanonical {hm : 0 < m} (h : IsCanonical (.finite s m e hm)) :
    spacing (m * 2 ^ e) = e := by
  obtain ⟨hlt, hnormal, hlow, -⟩ := h
  have hlog : m.log2 ≤ 52 := by
    have := (Nat.log2_lt hm.ne').2 hlt
    omega
  have hfull : 2 ^ 52 ≤ m → 52 ≤ m.log2 := (Nat.le_log2 hm.ne').2
  -- A full mantissa makes the spacing its exponent, and any other has the least exponent already.
  unfold spacing
  rw [log_mantissa_mul hm]
  omega

/-- A rational number above zero has one canonical form. -/
theorem IsCanonical.unique {hm : 0 < m} {hn : 0 < n} (h : IsCanonical (.finite s m e hm))
    (h' : IsCanonical (.finite t n d hn)) (heq : (m : ℚ) * 2 ^ e = n * 2 ^ d) : m = n ∧ e = d := by
  -- The number tells the spacing, and the spacing is the exponent.
  obtain rfl : e = d := by
    rw [← spacing_of_isCanonical h, ← spacing_of_isCanonical h', heq]
  refine ⟨?_, rfl⟩
  exact_mod_cast mul_right_cancel₀ (two_zpow_pos e).ne' heq

theorem mantissa_mul_pos (hm : 0 < m) (e : ℤ) : (0 : ℚ) < m * 2 ^ e :=
  mul_pos (Nat.cast_pos.2 hm) (two_zpow_pos e)

/-- Parts that stand for one rational number have one place. -/
theorem StandsFor.placeOf?_eq (hf : StandsFor f u) (hg : StandsFor g u) :
    placeOf? f = placeOf? g := by
  rcases hf.cases with ⟨s, rfl, rfl⟩ | ⟨s, m, e, hm, rfl, -, -, hu⟩
  · rcases hg.cases with ⟨t, rfl, -⟩ | ⟨t, n, d, hn, rfl, -, -, hv⟩
    · rfl
    -- A zero and a finite number that is none cannot be the same rational number.
    · have hpos := mantissa_mul_pos hn d
      cases t <;> simp only [withSign] at hv <;> linarith
  · have hpos := mantissa_mul_pos hm e
    rcases hg.cases with ⟨t, rfl, rfl⟩ | ⟨t, n, d, hn, rfl, -, -, hv⟩
    · cases s <;> simp only [withSign] at hu <;> linarith
    · have hpos' := mantissa_mul_pos hn d
      -- The signs agree, and then the numbers without them.
      obtain ⟨rfl, heq⟩ : s = t ∧ (m : ℚ) * 2 ^ e = n * 2 ^ d := by
        cases s <;> cases t <;> simp only [withSign] at hu hv <;>
          first
            | exact ⟨rfl, by linarith⟩
            | exfalso; linarith
      obtain ⟨rfl, rfl⟩ := hf.1.unique hg.1 heq
      rfl

/-- And parts in one place stand for one rational number. -/
theorem StandsFor.eq_of_placeOf?_eq (hf : StandsFor f u) (hg : StandsFor g v)
    (h : placeOf? f = placeOf? g) : u = v := by
  rcases hf.cases with ⟨s, rfl, rfl⟩ | ⟨s, m, e, hm, rfl, -, -, rfl⟩
  · rcases hg.cases with ⟨t, rfl, rfl⟩ | ⟨t, n, d, hn, rfl, -, -, rfl⟩
    · rfl
    -- The sides of a zero and of another number are different.
    · cases t <;> simp [placeOf?, placeAt] at h
  · rcases hg.cases with ⟨t, rfl, rfl⟩ | ⟨t, n, d, hn, rfl, -, -, rfl⟩
    · cases s <;> simp [placeOf?, placeAt] at h
    · cases s <;> cases t <;> simp [placeOf?, placeAt] at h <;> obtain ⟨rfl, rfl⟩ := h <;> rfl

/-- What stands for a rational number is no NaN, so it has a place. -/
theorem StandsFor.isSome_placeOf? (hf : StandsFor f u) : (placeOf? f).isSome = true := by
  rcases hf.cases with ⟨s, rfl, -⟩ | ⟨s, m, e, hm, rfl, -⟩
  · rfl
  · cases s <;> rfl

/-- **Finite numbers are equal if they are the same rational number.** -/
theorem beq_iff_of_rational? {x y : Float} (hx : rational? x = some u) (hy : rational? y = some v) :
    (x == y) = true ↔ u = v := by
  have hf := standsFor_unpack hx
  have hg := standsFor_unpack hy
  rw [beq_iff]
  constructor
  · rintro ⟨p, hp, hq⟩
    exact hf.eq_of_placeOf?_eq hg (hp.trans hq.symm)
  · rintro rfl
    -- One place is enough, as the parts of the other number are in the same one.
    obtain ⟨p, hp⟩ := Option.isSome_iff_exists.1 hf.isSome_placeOf?
    exact ⟨p, hp, (hf.placeOf?_eq hg).symm.trans hp⟩

end finite

/-! ## Integers of any size

An integer that is too large for a finite number is taken for an infinity, which is not a rational
number. But it is not a NaN either, and that is all that equality with itself asks for. -/

section numbers

variable {f : UnpackedFloat} {x : Float}

/-- Parts that are a number are one after they were put together, if maybe an infinity. -/
theorem unpack_pack_ne_notANumber (h : f ≠ .notANumber) :
    UnpackedFloat.unpack Format.binary64 (UnpackedFloat.pack Format.binary64 f) ≠ .notANumber := by
  have hinfinity : ∀ s : Sign,
      UnpackedFloat.unpack Format.binary64 (packedInfinity Format.binary64 s) = .infinity s :=
    fun s => unpack_packComponents s _ _
  cases f with
  | notANumber => exact absurd rfl h
  | infinity s => exact (hinfinity s).trans_ne (by simp)
  | zero s => exact (unpack_packComponents s _ _).trans_ne (by simp)
  | finite s m e hm =>
    unfold UnpackedFloat.pack
    dsimp only
    split
    -- Past the greatest exponent the number becomes an infinity.
    · exact (hinfinity s).trans_ne (by simp)
    · next hrange =>
      have hbits : (2 : ℕ) ^ Format.binary64.exponentBits = 2048 := rfl
      generalize (e + Format.binary64.exponentBias +
        Format.binary64.mantissaBitsWithoutImplicit).toNat = biased at *
      -- An exponent below the greatest one is kept by its bits.
      have hones : BitVec.ofNat 11 biased ≠ -1#11 := by
        rw [Ne, ← BitVec.toNat_inj, BitVec.toNat_ofNat]
        show biased % 2048 ≠ 2047
        omega
      split
      · refine (unpack_packComponents s _ _).trans_ne ?_
        rw [if_neg hones]
        split
        · split <;> simp
        · simp
      · refine (unpack_packComponents s _ _).trans_ne ?_
        rw [if_neg (by decide), if_pos rfl]
        split <;> simp

/-- **Every number but a NaN is equal to itself.** -/
theorem beq_self_of_unpack (h : x.toModel.unpack ≠ .notANumber) : (x == x) = true := by
  have hplace : place? x ≠ none := by
    unfold place?
    cases hf : x.toModel.unpack with
    | notANumber => exact absurd hf h
    | infinity s => cases s <;> simp [placeOf?]
    | zero s => simp [placeOf?]
    | finite s m e hm => cases s <;> simp [placeOf?]
  -- It has a place, and the place is one with itself.
  obtain ⟨p, hp⟩ := Option.ne_none_iff_exists'.1 hplace
  exact beq_iff.2 ⟨p, hp, hp⟩

/-- Rounding gives a zero or a finite number, and an infinity only when that is packed. -/
theorem roundWithAccuracy_ne_notANumber (s : Sign) (m : ℕ) (e : ℤ) (accuracy : Accuracy) :
    roundWithAccuracy Format.binary64 s m e accuracy ≠ .notANumber := by
  unfold roundWithAccuracy
  dsimp only
  split <;> simp

/-- No natural number is taken for a NaN, on neither of the two ways in which it is read. -/
theorem unpack_ofNat_ne_notANumber (n : ℕ) : (ofNat n).toModel.unpack ≠ .notANumber := by
  -- A number that fits a mantissa is a rational number; a larger one is scaled up and rounded.
  rcases Nat.lt_or_ge n (2 ^ 53) with h | h
  · intro hnan
    have hstands := standsFor_unpack (rational?_ofNat (n := n) (natCast_lt_range (by omega)))
    rw [hnan] at hstands
    exact absurd hstands.2 (by simp [rationalOf?])
  · have hslow : ofNat n = Float.ofModel (Float.Model.ofScientific n 0) := by
      unfold ofNat Float.ofScientific
      rw [dif_neg fun hfast => absurd hfast.1 (by omega)]
      rfl
    rw [hslow]
    refine unpack_pack_ne_notANumber ?_
    -- The sizes at which the reader gives up at once give an infinity or a zero.
    unfold UnpackedFloat.ofScientific
    rw [dif_neg (by omega), if_neg (by decide)]
    split
    · simp
    · rw [if_pos (le_refl 0), UnpackedFloat.mul]
      exact roundWithAccuracy_ne_notANumber _ _ _ _

/-- Only a NaN has a NaN as its negative. -/
theorem neg_ne_notANumber (h : f ≠ .notANumber) : f.neg ≠ .notANumber := by
  cases f with
  | notANumber => exact absurd rfl h
  | _ => simp [UnpackedFloat.neg]

theorem unpack_neg_ne_notANumber (h : x.toModel.unpack ≠ .notANumber) :
    (-x).toModel.unpack ≠ .notANumber :=
  unpack_pack_ne_notANumber (f := x.toModel.unpack.neg) (neg_ne_notANumber h)

/-- **What an integer is taken for is equal to itself**, also if it is an infinity. -/
theorem beq_ofInt_self (n : ℤ) : (ofInt n == ofInt n) = true := by
  apply beq_self_of_unpack
  unfold ofInt
  split
  · exact unpack_neg_ne_notANumber (unpack_ofNat_ne_notANumber _)
  · exact unpack_ofNat_ne_notANumber _

end numbers

end AdOps.Number
