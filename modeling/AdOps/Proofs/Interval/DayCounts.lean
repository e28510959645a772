import AdOps.Proofs.Calendar.Succession
import AdOps.Proofs.Number.Digits

/-!
# Counts of days on machine words

A day count is kept in a word of 32 bits. It is read digit by digit, multiplied by the days of its unit,
and taken from a date; each step is checked, and gives nothing where its result is no word or no date.
Here the count is computed in this way, on words that wrap. No digit and no unit makes a count smaller,
so a step fails exactly if the count itself is too large.

* **`exists_word_iff`** — a step that makes nothing smaller can be made on words.
* **`amount?_eq_some_iff`** — the word that digits are read as has their value.
* **`wordDays?_eq_some_iff`** — the word for digits and a unit has the value of the count.
* **`dayCounts_exact`** — what is read is that word, and the first day of the window is as many days
  back as it says.
-/

namespace AdOps.Interval

variable {digits : List Char} {unit : Char} {a b n : UInt32}

/-! ## Words

A checked step compares the exact result with the size of a word before it takes the wrapped one. So
a checked step that gives a word gives the exact one, and that is all that has to be known of words.
-/

/-- The sum of two words, if it is a word. -/
def sum? (a b : UInt32) : Option UInt32 :=
  if a.toNat + b.toNat < UInt32.size then some (a + b) else none

/-- The product of two words, if it is a word. -/
def product? (a b : UInt32) : Option UInt32 :=
  if a.toNat * b.toNat < UInt32.size then some (a * b) else none

/-- The word behind a word and one more digit. -/
def pushDigit? (a : UInt32) (c : Char) : Option UInt32 := do
  sum? (← product? 10 a) (UInt32.ofNat (c.toNat - '0'.toNat))

/-- The word that digits are read as. -/
def amount? (cs : List Char) : Option UInt32 := cs.foldlM pushDigit? 0

/-- The number of days of a count, as a word. -/
def wordDays? (digits : List Char) (unit : Char) : Option UInt32 := do
  product? (← amount? digits) (UInt32.ofNat (unitDays unit))

/-- A word that may have wrapped and passes the check has the exact value, and no other word has it. -/
theorem checked_eq_some_iff {w : UInt32} {k : Nat} (hw : w.toNat = k % UInt32.size) :
    (if k < UInt32.size then some w else none) = some n ↔ n.toNat = k := by
  rw [Option.ite_none_right_eq_some, Option.some.injEq]
  constructor
  · rintro ⟨hlt, rfl⟩
    rw [hw, Nat.mod_eq_of_lt hlt]
  · intro h
    have hlt : k < UInt32.size := h ▸ n.toNat_lt_size
    refine ⟨hlt, UInt32.toNat_inj.1 ?_⟩
    rw [hw, h, Nat.mod_eq_of_lt hlt]

theorem sum?_eq_some_iff : sum? a b = some n ↔ n.toNat = a.toNat + b.toNat :=
  checked_eq_some_iff (UInt32.toNat_add a b)

theorem product?_eq_some_iff : product? a b = some n ↔ n.toNat = a.toNat * b.toNat :=
  checked_eq_some_iff (UInt32.toNat_mul a b)

/-- Every number below the bound is that of a word. -/
theorem exists_toNat_eq {k : Nat} (h : k < UInt32.size) : ∃ w : UInt32, w.toNat = k :=
  ⟨UInt32.ofNat k, UInt32.toNat_ofNat_of_lt' h⟩

/-- A step that makes nothing smaller can be made on words: where its result is a word, so is what it
begins with. -/
theorem exists_word_iff {k : Nat} {g : Nat → Nat} (hle : k ≤ g k) :
    (∃ w : UInt32, w.toNat = k ∧ n.toNat = g w.toNat) ↔ n.toNat = g k := by
  constructor
  · rintro ⟨w, rfl, hn⟩
    exact hn
  · intro hn
    have hlt : k < UInt32.size := Nat.lt_of_le_of_lt hle (hn ▸ n.toNat_lt_size)
    obtain ⟨w, hw⟩ := exists_toNat_eq hlt
    exact ⟨w, hw, by rw [hn, hw]⟩

/-! ## Digits

The digits are taken from the front, each of them with two checked steps. A number that was too
large before the last digit is too large with it, so nothing that counts is lost to an early
failure. -/

/-- The value of a character fits a word. -/
theorem toNat_digit (c : Char) :
    (UInt32.ofNat (c.toNat - '0'.toNat)).toNat = c.toNat - '0'.toNat := by
  have hlt : c.toNat < UInt32.size := c.val.toNat_lt_size
  exact UInt32.toNat_ofNat_of_lt' (Nat.lt_of_le_of_lt (Nat.sub_le _ _) hlt)

/-- What one more digit makes of a word. -/
theorem pushDigit?_eq_some_iff {c : Char} :
    pushDigit? a c = some n ↔ n.toNat = 10 * a.toNat + (c.toNat - '0'.toNat) := by
  have hten : (10 : UInt32).toNat = 10 := rfl
  rw [pushDigit?, Option.bind_eq_bind, Option.bind_eq_some_iff]
  simp only [product?_eq_some_iff, sum?_eq_some_iff, toNat_digit, hten]
  exact exists_word_iff (g := fun k => k + (c.toNat - '0'.toNat)) (Nat.le_add_right _ _)

/-- The last digit is taken last. -/
theorem amount?_concat (cs : List Char) (c : Char) :
    amount? (cs ++ [c]) = (amount? cs).bind fun a => pushDigit? a c := by
  unfold amount?
  rw [List.foldlM_append]
  simp only [List.foldlM_cons, List.foldlM_nil, bind_pure]
  rfl

/-- **The word that digits are read as** has their value; if no word has it, nothing is read. -/
theorem amount?_eq_some_iff {cs : List Char} :
    amount? cs = some n ↔ n.toNat = Number.digitsValue cs := by
  -- Induction from the last digit: the value of the digits in front of it is no greater.
  induction cs using List.reverseRecOn generalizing n with
  | nil =>
    show some 0 = some n ↔ n.toNat = 0
    rw [Option.some.injEq, ← UInt32.toNat_inj]
    exact eq_comm
  | append_singleton cs c ih =>
    rw [amount?_concat, Number.digitsValue_concat, Option.bind_eq_some_iff]
    simp only [ih, pushDigit?_eq_some_iff]
    exact exists_word_iff (g := fun k => 10 * k + (c.toNat - '0'.toNat)) (by omega)

/-! ## Counts

A unit has at least one day, so the last step makes nothing smaller either. -/

theorem toNat_unitDays (unit : Char) : (UInt32.ofNat (unitDays unit)).toNat = unitDays unit := by
  unfold unitDays
  split_ifs <;> rfl

theorem one_le_unitDays (unit : Char) : 1 ≤ unitDays unit := by
  unfold unitDays
  split_ifs <;> decide

/-- **The word for digits and a unit** has the value of the count; if no word has it, there is none. -/
theorem wordDays?_eq_some_iff :
    wordDays? digits unit = some n ↔ n.toNat = Number.digitsValue digits * unitDays unit := by
  rw [wordDays?, Option.bind_eq_bind, Option.bind_eq_some_iff]
  simp only [amount?_eq_some_iff, product?_eq_some_iff, toNat_unitDays]
  exact exists_word_iff (g := fun k => k * unitDays unit)
    (Nat.le_mul_of_pos_right _ (one_le_unitDays unit))

/-- No step wraps and none fails early: there is a word exactly if the count is below the bound. -/
theorem map_wordDays? (digits : List Char) (unit : Char) :
    (wordDays? digits unit).map UInt32.toNat =
      if Number.digitsValue digits * unitDays unit < 2 ^ 32 then
        some (Number.digitsValue digits * unitDays unit)
      else none := by
  split
  · next hlt =>
    obtain ⟨n, hn⟩ := exists_toNat_eq hlt
    rw [wordDays?_eq_some_iff.2 hn, Option.map_some, hn]
  · next hge =>
    cases hword : wordDays? digits unit with
    | none => rfl
    | some n =>
      rw [wordDays?_eq_some_iff] at hword
      have hlt := n.toNat_lt_size
      exact absurd (hword ▸ hlt) hge

/-! ## What is read

Reading checks the exact count against the bound at the end, which the steps on words come to as
well. The window is a matter of dates: going back by a number of days is the inverse of as many next
days. -/

/-- **Digits and a unit are read as the count**, if it is below the bound. Zeros in front make no
difference, nor does the letter case of the unit. -/
theorem read?_count (hdigits : Number.isNumeral digits = true) (hunit : isUnit unit.toLower = true)
    (zeros : Nat) :
    read? (String.ofList (List.replicate zeros '0' ++ digits ++ [unit])) =
      if Number.digitsValue digits * unitDays unit.toLower < 2 ^ 32 then
        some (.days (Number.digitsValue digits * unitDays unit.toLower))
      else none := by
  have hnumeral := Number.isNumeral_zeros zeros hdigits
  -- The text has the shape of a count, so no blank is cut off and the reader looks at its last
  -- character.
  obtain ⟨n, hcount⟩ : ∃ n, IsCount (List.replicate zeros '0' ++ digits ++ [unit]) n := by
    refine ⟨_, isCount_append.2 ⟨(Number.isNumeral_iff.1 hnumeral).1, ?_, rfl⟩⟩
    rw [Text.fold_of_ascii (ascii_of_isUnit hunit)]
    exact hunit
  have hword := isBlank_of_isWritten (isWritten_iff.2 (.inl ⟨n, hcount⟩))
  rw [read?_word (by rw [String.toList_ofList]; exact hword), String.toList_ofList, List.map_append,
    Number.map_toLower_of_isNumeral hnumeral]
  show ofChars? (_ ++ [unit.toLower]) = _
  rw [ofChars?_append, if_pos ⟨hnumeral, hunit⟩, Number.digitsValue_zeros]
  rfl

/-- What is read is the word that the checked steps give, or nothing where one of them fails. -/
theorem read?_count_eq_wordDays? (hdigits : Number.isNumeral digits = true)
    (hunit : isUnit unit.toLower = true) (zeros : Nat) :
    read? (String.ofList (List.replicate zeros '0' ++ digits ++ [unit])) =
      (wordDays? (List.replicate zeros '0' ++ digits) unit.toLower).map fun n => .days n.toNat := by
  have hmap : ((wordDays? (List.replicate zeros '0' ++ digits) unit.toLower).map fun n =>
      days n.toNat) =
        ((wordDays? (List.replicate zeros '0' ++ digits) unit.toLower).map UInt32.toNat).map days := by
    rw [Option.map_map]
    rfl
  rw [hmap, map_wordDays?, Number.digitsValue_zeros, read?_count hdigits hunit]
  split <;> rfl

/-- **Counts of days are exact.** Digits and a unit are read as the number of days that they count, if
it is below `2 ^ 32`, and otherwise not at all, however many zeros stand in front and in either letter
case; checked words come to the same. The window of a number of days ends on the reference date, and
begins on the day from which as many next days lead there. Such a day there is always; if it has no
date, there is no window. -/
theorem dayCounts_exact (today : Date) :
    (∀ digits unit zeros, Number.isNumeral digits = true → isUnit unit.toLower = true →
      read? (String.ofList (List.replicate zeros '0' ++ digits ++ [unit])) =
          (if Number.digitsValue digits * unitDays unit.toLower < 2 ^ 32 then
            some (.days (Number.digitsValue digits * unitDays unit.toLower))
          else none) ∧
        read? (String.ofList (List.replicate zeros '0' ++ digits ++ [unit])) =
          (wordDays? (List.replicate zeros '0' ++ digits) unit.toLower).map fun n =>
            .days n.toNat) ∧
      ∀ n, (∃ c : Civil, c.IsValid ∧ (Civil.next^[n] c).date? = some today) ∧
        ∀ c : Civil, c.IsValid → (Civil.next^[n] c).date? = some today →
          (days n).bounds? today = c.date?.map fun start => (start, today) := by
  refine ⟨fun digits unit zeros hdigits hunit => ?_, fun n => ?_⟩
  · exact ⟨read?_count hdigits hunit zeros, read?_count_eq_wordDays? hdigits hunit zeros⟩
  · refine ⟨today.exists_iterate_next_date? n, fun c hvalid hc => ?_⟩
    show (today.back? n).map _ = _
    rw [Date.back?_eq_date? hvalid hc]

/-- The greatest count that is read, a count that is one day more, and the day in front of the first
one of the calendar. -/
theorem dayCounts_exact_at_limits :
    read? "004294967295D" = some (.days 4294967295) ∧ read? "4294967296d" = none ∧
      (days 1).bounds? ⟨firstDay, by decide⟩ = none := by
  have hexact := dayCounts_exact ⟨firstDay, by decide⟩
  have hlast := (hexact.1 "4294967295".toList 'D' 2 (by decide) (by decide)).1
  have hmore := (hexact.1 "4294967296".toList 'd' 0 (by decide) (by decide)).1
  refine ⟨?_, ?_, ?_⟩
  · exact hlast.trans (if_pos (by decide))
  · exact hmore.trans (if_neg (by decide))
  · exact (hexact.2 1).2 ⟨-262144, 12, 31⟩ ⟨by decide, by decide⟩ (by decide)

end AdOps.Interval
