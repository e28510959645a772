import AdOps.Grammar
import AdOps.Number.Layout
import AdOps.Proofs.Text.Case
import AdOps.Proofs.Text.Places

/-!
# Numerals and what they denote

A number is recognised by its digits, of any script and however many. It is read in ASCII digits
only, and an integer only within a range. A run of digits denotes a number in any case, each digit by
its distance from the zero of its script; it is read as this number, or not at all.

* **`isAscii_of_float?`** — only ASCII is read as a number.
* **`integer?_eq_some_iff`** — the integer that a run of digits is read as, if it is.
* **`isSome_float?_iff`** — digits with or without a point are read as a number if they are ASCII.
* **`digitsValue_numeral`** — the digits of a number denote this number.
-/

namespace AdOps

namespace Text

/-- All characters are in the ASCII range. -/
def IsAscii (cs : List Char) : Prop := ∀ c ∈ cs, c.toNat < 128

instance (cs : List Char) : Decidable (IsAscii cs) :=
  decidable_of_iff (cs.all (·.toNat < 128) = true) (by simp [IsAscii])

/-- The value of a decimal digit: its distance from the zero of its script. -/
def digitValue (c : Char) : Nat :=
  ((decimalZeros.find? fun z => z ≤ c.toNat && c.toNat < z + 10).map (c.toNat - ·)).getD 0

/-- The number that a run of decimal digits denotes, whatever their scripts. -/
def decimalValue (cs : List Char) : Nat := cs.foldl (fun n c => 10 * n + digitValue c) 0

variable {c : Char} {cs ds : List Char}

theorem isAscii_append : IsAscii (cs ++ ds) ↔ IsAscii cs ∧ IsAscii ds := by
  unfold IsAscii
  exact List.forall_mem_append

theorem isAscii_cons : IsAscii (c :: cs) ↔ c.toNat < 128 ∧ IsAscii cs := by
  unfold IsAscii
  exact List.forall_mem_cons

/-- Small letters are ASCII letters, so a text is ASCII if it is with small letters. -/
theorem isAscii_map_toLower : IsAscii (cs.map Char.toLower) ↔ IsAscii cs := by
  unfold IsAscii
  rw [List.forall_mem_map]
  refine forall₂_congr fun c _ => ?_
  rcases toLower_cases c with ⟨hlow, hhigh, hsmall⟩ | ⟨-, hsame⟩
  · omega
  · rw [hsame]

theorem toNat_of_isDigit (h : c.isDigit = true) : 48 ≤ c.toNat ∧ c.toNat ≤ 57 :=
  Char.isDigit_iff_toNat.1 h

theorem isAscii_of_isDigit (h : ∀ c ∈ cs, c.isDigit = true) : IsAscii cs := fun c hc => by
  have hrange := toNat_of_isDigit (h c hc)
  omega

theorem isDigit_of_isDigits (h : isDigits cs = true) : ∀ c ∈ cs, isDigit c = true :=
  List.all_eq_true.1 (Bool.and_eq_true_iff.1 h).2

/-- Of the ASCII characters, only `0` to `9` are decimal digits. -/
theorem isDigit_eq_of_ascii (h : c.toNat < 128) : isDigit c = c.isDigit := by
  cases hc : c.isDigit with
  | true => exact isDigit_of_ascii hc
  | false =>
    -- The digits of every other script begin behind the ASCII characters.
    have hzeros : ∀ z ∈ decimalZeros, z = 48 ∨ 128 ≤ z := by decide
    have hrange : ¬ (48 ≤ c.toNat ∧ c.toNat ≤ 57) := fun hrange =>
      absurd (Char.isDigit_iff_toNat.2 hrange) (by simp [hc])
    unfold isDigit
    refine List.any_eq_false.2 fun z hz => ?_
    rw [Bool.and_eq_true, decide_eq_true_eq, decide_eq_true_eq]
    rcases hzeros z hz with rfl | hz
    · omega
    · omega

/-- An ASCII digit is worth its distance from `0`. -/
theorem digitValue_of_isDigit (h : c.isDigit = true) : digitValue c = c.toNat - '0'.toNat := by
  obtain ⟨hlow, hhigh⟩ := toNat_of_isDigit h
  -- The zero of ASCII is the first that is tried.
  have hfound : decimalZeros.find? (fun z => z ≤ c.toNat && c.toNat < z + 10) = some 48 := by
    refine List.find?_cons_of_pos ?_
    rw [Bool.and_eq_true, decide_eq_true_eq, decide_eq_true_eq]
    omega
  unfold digitValue
  rw [hfound]
  rfl

/-- In ASCII digits, the denoted number is the number that is read. -/
theorem decimalValue_of_ascii (h : ∀ c ∈ cs, c.isDigit = true) :
    decimalValue cs = Number.digitsValue cs := by
  unfold decimalValue Number.digitsValue
  -- The induction is on the digits, from any number that was read before them.
  generalize 0 = n
  induction cs generalizing n with
  | nil => rfl
  | cons c cs ih =>
    obtain ⟨hc, hcs⟩ := List.forall_mem_cons.1 h
    rw [List.foldl_cons, List.foldl_cons, digitValue_of_isDigit hc, ih hcs]

end Text

namespace Number

open Text (IsAscii decimalValue isAscii_append isAscii_cons)

variable {cs : List Char} {word : String}

/-! ## Numerals

A numeral is a run of ASCII digits. What the program accepts as digits is wider, by the scripts that
have digits of their own, and the difference is exactly whether the run is ASCII. -/

theorem isDigit_of_isNumeral (h : isNumeral cs = true) : ∀ c ∈ cs, c.isDigit = true :=
  List.all_eq_true.1 (Bool.and_eq_true_iff.1 h).2

/-- Of the runs of digits, the numerals are those in ASCII. -/
theorem isNumeral_iff : isNumeral cs = true ↔ Text.isDigits cs = true ∧ IsAscii cs := by
  unfold isNumeral Text.isDigits
  rw [Bool.and_eq_true, Bool.and_eq_true, and_assoc, List.all_eq_true, List.all_eq_true]
  refine and_congr_right fun _ => ⟨fun h => ?_, fun ⟨h, hascii⟩ c hc => ?_⟩
  · exact ⟨fun c hc => Text.isDigit_of_ascii (h c hc), Text.isAscii_of_isDigit h⟩
  · rw [← Text.isDigit_eq_of_ascii (hascii c hc)]
    exact h c hc

/-- The digits of a number are a numeral. -/
theorem isNumeral_numeral (n : Nat) : isNumeral (numeral n) = true := by
  unfold isNumeral
  refine Bool.and_eq_true_iff.2 ⟨?_, List.all_eq_true.2 fun c hc => ?_⟩
  · simp [numeral, Nat.toDigits_ne_nil]
  · exact Nat.isDigit_of_mem_toDigits (by decide) (by decide) hc

/-- **The digits of a number denote this number.** -/
theorem digitsValue_numeral (n : Nat) : digitsValue (numeral n) = n :=
  Nat.ofDigitChars_toDigits (by decide) (by decide)

/-! ## Only ASCII is read

The reader of numbers goes by ASCII characters at each of its steps: signs, digits, the point, the
mark of an exponent and the words for special values. The lemmas follow these steps inside out. -/

/-- A text without either sign has none split off. -/
theorem splitSign_of_unsigned (hminus : '-' ∉ cs) (hplus : '+' ∉ cs) :
    splitSign cs = (false, cs) := by
  unfold splitSign
  split
  · exact absurd List.mem_cons_self hminus
  · exact absurd List.mem_cons_self hplus
  · rfl

/-- A sign is ASCII, so it does not matter whether there was one. -/
theorem isAscii_of_splitSign (h : IsAscii (splitSign cs).2) : IsAscii cs := by
  unfold splitSign at h
  split at h
  · exact isAscii_cons.2 ⟨by decide, h⟩
  · exact isAscii_cons.2 ⟨by decide, h⟩
  · exact h

/-- An exponent is a sign and digits. -/
theorem isAscii_of_exponent? (h : (exponent? cs).isSome = true) : IsAscii cs := by
  refine isAscii_of_splitSign ?_
  unfold exponent? at h
  obtain ⟨n, hn⟩ := Option.isSome_iff_exists.1 h
  obtain ⟨digits, hdigits, -⟩ := Option.bind_eq_some_iff.1 hn
  obtain ⟨hnumeral, -⟩ := Option.ite_none_right_eq_some.1 hdigits
  exact Text.isAscii_of_isDigit (isDigit_of_isNumeral hnumeral)

theorem isAscii_takeWhile_isDigit (cs : List Char) : IsAscii (cs.takeWhile Char.isDigit) :=
  Text.isAscii_of_isDigit fun _ hc => List.mem_takeWhile_imp hc

/-- The digits behind the point, if there is one, and what follows them. -/
def splitFraction : List Char → List Char × List Char
  | '.' :: rest => (rest.takeWhile Char.isDigit, rest.dropWhile Char.isDigit)
  | rest => ([], rest)

/-- The exponent behind the digits; nothing stands for zero. -/
def scale? : List Char → Option Int
  | [] => some 0
  | c :: rest => if c = 'e' ∨ c = 'E' then exponent? rest else none

/-- The parts of a decimal. -/
theorem decimal?_eq (cs : List Char) :
    decimal? cs =
      let whole := cs.takeWhile Char.isDigit
      let tail := splitFraction (cs.dropWhile Char.isDigit)
      if whole.isEmpty && tail.1.isEmpty then none
      else (scale? tail.2).map (.ofDigits whole tail.1) := by
  have hparts : ∀ (whole : List Char) (tail : List Char × List Char), (do
      if whole.isEmpty && tail.1.isEmpty then none
      let scale ← match tail.2 with
        | [] => some 0
        | c :: rest => if c = 'e' ∨ c = 'E' then exponent? rest else none
      return Decimal.ofDigits whole tail.1 scale) =
        if whole.isEmpty && tail.1.isEmpty then none
        else (scale? tail.2).map (.ofDigits whole tail.1) := by
    -- Whatever the parts are, the two ways to write the reading agree.
    rintro whole ⟨fraction, rest⟩
    by_cases hempty : (whole.isEmpty && fraction.isEmpty) = true
    · simp only [hempty, if_true]
      rfl
    · simp only [hempty]
      cases rest with
      | nil => rfl
      | cons c rest =>
        by_cases hmark : c = 'e' ∨ c = 'E'
        · simp only [scale?, hmark, if_true]
          exact (Option.map_eq_bind ..).symm
        · simp only [scale?, hmark]
          rfl
  exact hparts (cs.takeWhile Char.isDigit) (splitFraction (cs.dropWhile Char.isDigit))

/-- The point and the digits behind it are ASCII, so only what follows them counts. -/
theorem isAscii_of_splitFraction (h : IsAscii (splitFraction cs).2) : IsAscii cs := by
  unfold splitFraction at h
  split at h
  · next rest =>
    have hsplit : rest.takeWhile Char.isDigit ++ rest.dropWhile Char.isDigit = rest :=
      List.takeWhile_append_dropWhile
    rw [isAscii_cons, ← hsplit, isAscii_append]
    exact ⟨by decide, isAscii_takeWhile_isDigit rest, h⟩
  · exact h

/-- What may stand behind the digits is nothing or a mark with an exponent. -/
theorem isAscii_of_scale? (h : (scale? cs).isSome = true) : IsAscii cs := by
  cases cs with
  | nil => exact fun _ hc => absurd hc List.not_mem_nil
  | cons c rest =>
    rw [scale?] at h
    split at h
    · next hmark =>
      refine isAscii_cons.2 ⟨?_, isAscii_of_exponent? h⟩
      rcases hmark with rfl | rfl <;> decide
    · exact absurd h (by simp)

/-- A decimal is digits, maybe a point with digits, and maybe an exponent: all of it ASCII. -/
theorem isAscii_of_decimal? (h : (decimal? cs).isSome = true) : IsAscii cs := by
  have hsplit : cs.takeWhile Char.isDigit ++ cs.dropWhile Char.isDigit = cs :=
    List.takeWhile_append_dropWhile
  rw [← hsplit, isAscii_append]
  -- The digits in front are; the rest is by the two lemmas above.
  refine ⟨isAscii_takeWhile_isDigit cs, isAscii_of_splitFraction (isAscii_of_scale? ?_)⟩
  rw [decimal?_eq] at h
  dsimp only at h
  split at h
  · exact absurd h (by simp)
  · rwa [Option.isSome_map] at h

/-- A magnitude is one of the special words or a decimal. -/
theorem isAscii_of_magnitude? (h : (magnitude? cs).isSome = true) : IsAscii cs := by
  -- The words for infinity and not-a-number are ASCII, in any letter case.
  have hword : ∀ word : String, IsAscii word.toList →
      String.ofList (cs.map Char.toLower) = word → IsAscii cs := by
    rintro _ hascii rfl
    rwa [String.toList_ofList, Text.isAscii_map_toLower] at hascii
  unfold magnitude? at h
  dsimp only at h
  split at h
  · next hinf =>
    rcases hinf with hinf | hinf
    · exact hword _ (by decide) hinf
    · exact hword _ (by decide) hinf
  · split at h
    · next hnan => exact hword _ (by decide) hnan
    · rw [Option.isSome_map] at h
      exact isAscii_of_decimal? h

/-- **Only ASCII is read as a number.** -/
theorem isAscii_of_float? (h : (float? word).isSome = true) : IsAscii word.toList := by
  -- The sign is taken off first, and a magnitude is read of the rest.
  refine isAscii_of_splitSign ?_
  obtain ⟨x, hx⟩ := Option.isSome_iff_exists.1 h
  obtain ⟨y, hy, -⟩ := Option.bind_eq_some_iff.1 hx
  exact isAscii_of_magnitude? (Option.isSome_iff_exists.2 ⟨y, hy⟩)

/-! ## Digits that are read

A run of digits has no sign, so it is read as it stands, and the only
things that can go wrong are a script other than ASCII and a value out of range. -/

/-- **The integer that a run of digits is read as**, if it is: the number they denote, of ASCII digits
and in range. -/
theorem integer?_eq_some_iff (h : Text.isDigits word.toList = true) {n : Int} :
    integer? word = some n ↔
      IsAscii word.toList ∧ n = decimalValue word.toList ∧ n ≤ maxInt64 := by
  have hdigits := Text.isDigit_of_isDigits h
  have hsign : splitSign word.toList = (false, word.toList) :=
    splitSign_of_unsigned (fun hc => absurd (hdigits _ hc) (by decide))
      fun hc => absurd (hdigits _ hc) (by decide)
  unfold integer? integerWithin?
  rw [hsign]
  -- In another script no natural number is read at all; in ASCII only the upper bound is left.
  by_cases hascii : IsAscii word.toList
  · have hnumeral : isNumeral word.toList = true := isNumeral_iff.2 ⟨h, hascii⟩
    have hnatural : natural? word.toList = some (decimalValue word.toList) := by
      rw [natural?, if_pos hnumeral, Text.decimalValue_of_ascii (isDigit_of_isNumeral hnumeral)]
    have hlow : minInt64 ≤ (decimalValue word.toList : Int) := by
      unfold minInt64
      omega
    have hsigned : signed false (decimalValue word.toList) = decimalValue word.toList := rfl
    simp only [hnatural, hascii, true_and, Option.bind_eq_bind, Option.bind_some, hsigned,
      Option.ite_none_right_eq_some, Option.some.injEq]
    constructor
    · rintro ⟨hbounds, rfl⟩
      exact ⟨rfl, hbounds.2⟩
    · rintro ⟨rfl, hhigh⟩
      exact ⟨⟨hlow, hhigh⟩, rfl⟩
  · have hnatural : natural? word.toList = none :=
      if_neg fun hnumeral => hascii (isNumeral_iff.1 hnumeral).2
    simp [hnatural, hascii]

/-- Digits with or without a point are digits and points. -/
theorem isDigit_or_point {c : Char} (h : SlotKind.isThreshold cs = true) (hc : c ∈ cs) :
    Text.isDigit c = true ∨ c = '.' := by
  rw [← List.takeWhile_append_dropWhile (p := Text.isDigit) (l := cs)] at hc
  rcases List.mem_append.1 hc with hc | hc
  · exact .inl (List.mem_takeWhile_imp hc)
  · unfold SlotKind.isThreshold at h
    dsimp only at h
    split at h
    · next hrest => exact absurd (hrest ▸ hc) List.not_mem_nil
    -- Behind the leading digits there is a point with digits behind it.
    · next fraction hrest =>
      rw [hrest] at hc
      rcases List.mem_cons.1 hc with rfl | hc
      · exact .inr rfl
      · exact .inl (Text.isDigit_of_isDigits h c hc)
    · exact absurd h (by simp)

/-- In ASCII, what the grammar takes for a threshold is a decimal. -/
theorem isSome_decimal?_of_isThreshold (h : SlotKind.isThreshold cs = true) (hascii : IsAscii cs) :
    (decimal? cs).isSome = true := by
  -- On ASCII both readings stop at the same place.
  have hsame := Text.takeWhile_congr fun c hc => Text.isDigit_eq_of_ascii (hascii c hc)
  unfold SlotKind.isThreshold at h
  rw [hsame.1, hsame.2] at h
  rw [decimal?_eq]
  split at h
  · next hrest => simpa [hrest, splitFraction, scale?] using h
  · next fraction hrest =>
    have hfraction : IsAscii fraction := fun c hc =>
      hascii c ((List.dropWhile_suffix _).subset (hrest ▸ List.mem_cons_of_mem _ hc))
    have hnumeral := isNumeral_iff.2 ⟨h, hfraction⟩
    have hdigits := isDigit_of_isNumeral hnumeral
    -- The fraction goes to the end, so no exponent is left to be read.
    have htail : splitFraction (cs.dropWhile Char.isDigit) = (fraction, []) := by
      rw [hrest, splitFraction, List.takeWhile_eq_self_iff.2 hdigits,
        List.dropWhile_eq_nil_iff.2 hdigits]
    have hne : fraction.isEmpty = false := by
      simpa using (Bool.and_eq_true_iff.1 hnumeral).1
    simp [htail, hne, scale?]
  · exact absurd h (by simp)

/-- **Digits with or without a point are read as a number** exactly if they are ASCII. -/
theorem isSome_float?_iff (h : SlotKind.isThreshold word.toList = true) :
    (float? word).isSome = true ↔ IsAscii word.toList := by
  refine ⟨isAscii_of_float?, fun hascii => ?_⟩
  have hsign : splitSign word.toList = (false, word.toList) :=
    splitSign_of_unsigned (fun hc => absurd (isDigit_or_point h hc) (by decide))
      fun hc => absurd (isDigit_or_point h hc) (by decide)
  -- Not one of the special words, which would do as well, but a decimal.
  have hmagnitude : (magnitude? word.toList).isSome = true := by
    unfold magnitude?
    dsimp only
    split
    · rfl
    · split
      · rfl
      · rw [Option.isSome_map]
        exact isSome_decimal?_of_isThreshold h hascii
  obtain ⟨x, hx⟩ := Option.isSome_iff_exists.1 hmagnitude
  unfold float?
  simp [hsign, hx]

end Number

end AdOps
