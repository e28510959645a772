import AdOps.Proofs.CommandLine.Intervals
import AdOps.Proofs.Number.Rounding

/-!
# The value of a run of digits

A digit more at the end makes ten of each unit; a zero more in front changes nothing. So a run of digits
that does not begin with a zero is no longer than its value, and a text that is read as an integer can
be read as a floating-point number, which is the nearest one.

* **`digitsValue_concat`**, **`digitsValue_zeros`** — one digit more behind, and zeros in front.
* **`pow_le_digitsValue`** — the value of a run that does not begin with a zero tells its length.
* **`float?_of_integer?`** — a text of an integer is a text of a number.
-/

namespace AdOps.Number

variable {c : Char} {cs : List Char} {n : ℤ}

/-- A digit in front counts for as many units as there are digits behind it. -/
theorem digitsValue_cons (c : Char) (cs : List Char) :
    digitsValue (c :: cs) = 10 ^ cs.length * (c.toNat - '0'.toNat) + digitsValue cs := by
  show Nat.ofDigitChars 10 (c :: cs) 0 = _ + Nat.ofDigitChars 10 cs 0
  rw [Nat.ofDigitChars_cons, Nat.ofDigitChars_eq_ofDigitChars_zero, Nat.mul_zero, Nat.zero_add]

/-- **A digit more at the end makes ten of each unit.** -/
theorem digitsValue_concat (cs : List Char) (c : Char) :
    digitsValue (cs ++ [c]) = 10 * digitsValue cs + (c.toNat - '0'.toNat) := by
  unfold digitsValue
  rw [List.foldl_append]
  rfl

/-- **Zeros in front of digits change nothing.** -/
theorem digitsValue_zeros (k : ℕ) (cs : List Char) :
    digitsValue (List.replicate k '0' ++ cs) = digitsValue cs := by
  show Nat.ofDigitChars 10 (List.replicate k '0' ++ cs) 0 = Nat.ofDigitChars 10 cs 0
  rw [Nat.ofDigitChars_append, Nat.ofDigitChars_replicate_zero, Nat.mul_zero]

/-- Zeros in front of a run of digits are digits. -/
theorem isNumeral_zeros (k : ℕ) (h : isNumeral cs = true) :
    isNumeral (List.replicate k '0' ++ cs) = true := by
  obtain ⟨hne, hdigits⟩ := Bool.and_eq_true_iff.1 h
  have hne' : cs ≠ [] := by simpa using hne
  -- Not empty as the run is not, and all of it digits as both parts are.
  refine Bool.and_eq_true_iff.2 ⟨by simpa using fun _ => hne', ?_⟩
  rw [List.all_append, hdigits, Bool.and_true, List.all_eq_true]
  intro c hc
  rw [List.eq_of_mem_replicate hc]
  rfl

/-- Taking the zeros off the front changes nothing either, by induction on the run. -/
theorem digitsValue_dropWhile (cs : List Char) :
    digitsValue (cs.dropWhile (· = '0')) = digitsValue cs := by
  induction cs with
  | nil => rfl
  | cons c cs ih =>
    by_cases hc : c = '0'
    · subst hc
      rw [List.dropWhile_cons_of_pos (by simp), ih]
      -- The zero that was dropped counts for nothing.
      exact (digitsValue_zeros 1 cs).symm
    · rw [List.dropWhile_cons_of_neg (by simpa using hc)]

/-- **A run of digits that does not begin with a zero** is worth at least the power of ten that its
length gives. -/
theorem pow_le_digitsValue (hc : c.isDigit = true) (hzero : c ≠ '0') (cs : List Char) :
    10 ^ cs.length ≤ digitsValue (c :: cs) := by
  have hrange := Text.toNat_of_isDigit hc
  -- A digit that is not zero counts at least once.
  have hne : c.toNat ≠ 48 := fun h => hzero (Char.toNat_inj.1 h)
  have hdigit : 1 ≤ c.toNat - '0'.toNat := by
    show 1 ≤ c.toNat - 48
    omega
  rw [digitsValue_cons]
  exact Nat.le_add_right_of_le (Nat.le_mul_of_pos_right _ hdigit)

/-- Digits without zeros in front are as few as their value allows. -/
theorem length_dropWhile_le (h : ∀ c ∈ cs, c.isDigit = true) {k : ℕ} (hlt : digitsValue cs < 10 ^ k) :
    (cs.dropWhile (· = '0')).length ≤ k := by
  rw [← digitsValue_dropWhile] at hlt
  -- What is left does not begin with a zero, so its length is bounded by its value.
  have hhead := List.head?_dropWhile_not (· = '0') cs
  have hdigits : ∀ c ∈ cs.dropWhile (· = '0'), c.isDigit = true := fun c hc =>
    h c ((List.dropWhile_suffix _).subset hc)
  generalize cs.dropWhile (· = '0') = ds at *
  cases ds with
  | nil => exact Nat.zero_le k
  | cons d ds =>
    have hzero : d ≠ '0' := by simpa using hhead
    have hpow := pow_le_digitsValue (hdigits d List.mem_cons_self) hzero ds
    exact (Nat.pow_lt_pow_iff_right (by decide)).1 (Nat.lt_of_le_of_lt hpow hlt)

/-! ## Integers that are read as numbers

An integer is a sign and digits, and a floating-point number may be written so. Its digits are then
read as a decimal without fraction and exponent, and rounded once. -/

/-- Digits alone are a decimal with no fraction and no exponent. -/
theorem decimal?_of_isNumeral (h : isNumeral cs = true) :
    decimal? cs = some (.ofDigits cs [] 0) := by
  have hdigits := isDigit_of_isNumeral h
  have hne : cs.isEmpty = false := by simpa using (Bool.and_eq_true_iff.1 h).1
  rw [decimal?_eq, List.takeWhile_eq_self_iff.2 hdigits, List.dropWhile_eq_nil_iff.2 hdigits]
  simp [hne, splitFraction, scale?]

/-- Digits are none of the words for infinity and not-a-number. -/
theorem magnitude?_of_isNumeral (h : isNumeral cs = true) :
    magnitude? cs = some (Decimal.toFloat (.ofDigits cs [] 0)) := by
  have hword : ∀ word : String, (∃ c ∈ word.toList, c.isDigit = false) → String.ofList cs ≠ word := by
    rintro _ ⟨c, hc, hletter⟩ rfl
    rw [String.toList_ofList] at hc
    exact absurd (isDigit_of_isNumeral h c hc) (by simp [hletter])
  unfold magnitude?
  dsimp only
  rw [map_toLower_of_isNumeral h, if_neg, if_neg, decimal?_of_isNumeral h, Option.map_some]
  -- Each of the words has a letter in it, which a run of digits has not.
  · exact hword _ ⟨'n', by decide, by decide⟩
  · exact not_or_intro (hword _ ⟨'i', by decide, by decide⟩) (hword _ ⟨'i', by decide, by decide⟩)

theorem rational?_zero : rational? 0 = some 0 := by
  decide +kernel

/-- Digits are read as the nearest number to their value, if that is not too large. -/
theorem rational?_toFloat_ofDigits (h : isNumeral cs = true) (hlt : digitsValue cs < 2 ^ 64) :
    rational? (Decimal.toFloat (.ofDigits cs [] 0)) = some (nearest (digitsValue cs)) := by
  have hmantissa : (Decimal.ofDigits cs [] 0).mantissa = digitsValue cs := by
    show digitsValue ((cs ++ []).dropWhile (· = '0')) = _
    rw [List.append_nil, digitsValue_dropWhile]
  have hexponent : (Decimal.ofDigits cs [] 0).exponent = 0 := rfl
  -- Twenty digits are enough below 2 ^ 64, so the reader does not take it for too large.
  have hlength : (Decimal.ofDigits cs [] 0).digits ≤ 20 := by
    show ((cs ++ []).dropWhile (· = '0')).length ≤ 20
    rw [List.append_nil]
    exact length_dropWhile_le (isDigit_of_isNumeral h) (Nat.lt_trans hlt (by decide))
  unfold Decimal.toFloat
  rw [hmantissa, hexponent]
  -- Zero is read by itself, as it has no first digit to be rounded at.
  by_cases hzero : digitsValue cs = 0
  · rw [if_pos hzero, hzero, Nat.cast_zero, nearest_zero]
    exact rational?_zero
  · rw [if_neg hzero, if_neg (by omega), if_neg (by omega)]
    exact rational?_ofNat (natCast_lt_range (by omega))

/-- The reading of an integer: a sign, digits, and the bounds of 64 bits. -/
theorem integer?_eq (word : String) :
    integer? word =
      (natural? (splitSign word.toList).2).bind fun k =>
        if minInt64 ≤ signed (splitSign word.toList).1 k ∧
          signed (splitSign word.toList).1 k ≤ maxInt64
        then some (signed (splitSign word.toList).1 k) else none := rfl

/-- The reading of a number: a sign, and a magnitude that has none. -/
theorem float?_eq (word : String) :
    float? word = (magnitude? (splitSign word.toList).2).bind fun x =>
      some (if (splitSign word.toList).1 then -x else x) := rfl

/-- A text of an integer is a sign and digits. -/
theorem exists_of_integer? {word : String} (h : integer? word = some n) :
    ∃ negative digits, splitSign word.toList = (negative, digits) ∧ isNumeral digits = true ∧
      n = signed negative (digitsValue digits) ∧ minInt64 ≤ n ∧ n ≤ maxInt64 := by
  rw [integer?_eq] at h
  obtain ⟨k, hk, hbounds⟩ := Option.bind_eq_some_iff.1 h
  obtain ⟨hnumeral, hvalue⟩ := Option.ite_none_right_eq_some.1 hk
  obtain ⟨hrange, hn⟩ := Option.ite_none_right_eq_some.1 hbounds
  obtain rfl := Option.some.inj hvalue
  obtain rfl := Option.some.inj hn
  exact ⟨_, _, rfl, hnumeral, rfl, hrange⟩

/-- An integer of 64 bits has a magnitude below 2 ^ 64. -/
theorem natAbs_lt_of_mem (hlow : minInt64 ≤ n) (hhigh : n ≤ maxInt64) : n.natAbs < 2 ^ 64 := by
  unfold minInt64 at hlow
  unfold maxInt64 at hhigh
  omega

/-- **A text that is read as an integer is read as a number**, the nearest one to the integer. -/
theorem float?_of_integer? {word : String} (h : integer? word = some n) :
    ∃ x, float? word = some x ∧ rational? x = some (nearest n) := by
  obtain ⟨negative, digits, hsign, hnumeral, rfl, hlow, hhigh⟩ := exists_of_integer? h
  have hlt := natAbs_lt_of_mem hlow hhigh
  rw [natAbs_signed] at hlt
  have hread := rational?_toFloat_ofDigits hnumeral hlt
  rw [float?_eq, hsign, magnitude?_of_isNumeral hnumeral, Option.bind_some]
  refine ⟨_, rfl, ?_⟩
  -- The sign is put on after rounding, and rounding is the same on either side of zero.
  cases negative with
  | false => exact hread
  | true =>
    show rational? (-_) = some (nearest (-(digitsValue digits : ℤ) : ℤ))
    rw [Int.cast_neg, Int.cast_natCast, nearest_neg]
    exact rational?_neg hread

end AdOps.Number
