import AdOps.Handler.Invocation
import AdOps.Proofs.Number.Numeral

/-!
# Intervals that are recognised and intervals that are read

A word is taken for an interval by its shape: digits of any script and a unit, or letters, among
them the long s and the kelvin sign. What it stands for is read afterwards, in ASCII and with a
bound on the number of days. Every word that is read has the shape; a word that has the shape is read
unless it is not ASCII or counts too many days. A word that is let through and cannot be read is
refused by MGID, and goes out as a window without days elsewhere.

* **`ofChars?_of_isCount`**, **`ofChars?_of_letters`** — what becomes of each of the two shapes.
* **`isWritten_of_read?`** — a word that is read has one of them.
* **`isSome_read?_iff`** — which of the recognised words are read, and what becomes of the others.
-/

namespace AdOps

/-! ## Characters

The recogniser knows letters and digits of many scripts, the reader only those of ASCII. What is
needed here is where the two agree, and that the kinds of characters stay apart: blanks, digits and
letters. -/

namespace Text

variable {c : Char} {cs : List Char}

/-- To make a character small neither makes a digit nor takes one away. -/
theorem isDigit_toLower (c : Char) : c.toLower.isDigit = c.isDigit := by
  -- Either a capital became small, and neither of the two is a digit, or nothing changed.
  rcases toLower_cases c with ⟨hlow, hhigh, hsmall⟩ | ⟨-, hsame⟩
  · have hsmall' : c.toLower.isDigit = false := Bool.eq_false_iff.2 fun h => by
      have hrange := toNat_of_isDigit h
      omega
    have hcapital : c.isDigit = false := Bool.eq_false_iff.2 fun h => by
      have hrange := toNat_of_isDigit h
      omega
    rw [hsmall', hcapital]
  · rw [hsame]

/-- A digit is small already. -/
theorem toLower_of_isDigit (h : c.isDigit = true) : c.toLower = c := by
  have hrange := toNat_of_isDigit h
  rcases toLower_cases c with ⟨hlow, hhigh, -⟩ | ⟨-, hsame⟩
  · omega
  · exact hsame

/-- The small letters are the range from `a` to `z`. -/
theorem toNat_of_isLower (h : c.isLower = true) : 97 ≤ c.toNat ∧ c.toNat ≤ 122 := by
  unfold Char.isLower at h
  rw [Bool.and_eq_true, decide_eq_true_eq, decide_eq_true_eq] at h
  exact h

/-- No digit of any script is a blank. -/
theorem isBlank_of_isDigit_any (h : isDigit c = true) : isBlank c = false := by
  -- No range of blanks meets the ten places of a script's digits.
  have hapart : ∀ z ∈ decimalZeros, ∀ r ∈ blankRanges, r.2 < z ∨ z + 9 < r.1 := by decide
  obtain ⟨z, hz, hdigit⟩ := List.any_eq_true.1 h
  rw [Bool.and_eq_true, decide_eq_true_eq, decide_eq_true_eq] at hdigit
  unfold isBlank inRanges
  refine List.any_eq_false.2 fun r hr => ?_
  rw [Bool.and_eq_true, decide_eq_true_eq, decide_eq_true_eq]
  have hr' := hapart z hz r hr
  omega

/-- Outside of the two letters that are folded, to fold a character is to make it small. -/
theorem fold_of_ascii (h : c.toNat < 128) : fold c = c.toLower := by
  have hs : c ≠ '\u017F' := by
    rintro rfl
    exact absurd h (by decide)
  have hk : c ≠ '\u212A' := by
    rintro rfl
    exact absurd h (by decide)
  rw [fold, if_neg hs, if_neg hk]

/-- In ASCII a letter is a small letter once it is made small; outside of ASCII it never is. -/
theorem isLower_toLower_iff : c.toLower.isLower = true ↔ isLetter c = true ∧ c.toNat < 128 := by
  constructor
  · intro h
    have hrange := toNat_of_isLower h
    have hascii : c.toNat < 128 := by
      rcases toLower_cases c with ⟨-, hhigh, -⟩ | ⟨-, hsame⟩
      · omega
      · rw [hsame] at hrange
        omega
    exact ⟨by rw [isLetter, fold_of_ascii hascii, h], hascii⟩
  · rintro ⟨hletter, hascii⟩
    rwa [isLetter, fold_of_ascii hascii] at hletter

/-- No letter is a digit of any script. -/
theorem isDigit_of_isLetter {c : Char} (h : isLetter c = true) : isDigit c = false := by
  -- The long s and the kelvin sign are letters by their folding alone.
  by_cases hs : c = '\u017F'
  · subst hs
    decide
  by_cases hk : c = '\u212A'
  · subst hk
    decide
  rw [isLetter, fold, if_neg hs, if_neg hk] at h
  -- Any other letter is ASCII, where digits are those from `0` to `9`.
  have hascii := (isLower_toLower_iff.1 h).2
  rw [isDigit_eq_of_ascii hascii]
  refine Bool.eq_false_iff.2 fun hdigit => ?_
  rw [toLower_of_isDigit hdigit] at h
  have hlower := toNat_of_isLower h
  have hrange := toNat_of_isDigit hdigit
  omega

end Text

/-- A numeral stays one in small letters, and nothing else becomes one. -/
theorem Number.isNumeral_map_toLower (cs : List Char) :
    isNumeral (cs.map Char.toLower) = isNumeral cs := by
  have hsame : Char.isDigit ∘ Char.toLower = Char.isDigit := funext Text.isDigit_toLower
  simp only [isNumeral, List.isEmpty_map, List.all_map, hsame]

/-- A numeral is not changed when it is made small. -/
theorem Number.map_toLower_of_isNumeral {cs : List Char} (h : isNumeral cs = true) :
    cs.map Char.toLower = cs :=
  (List.map_congr_left fun c hc => Text.toLower_of_isDigit (isDigit_of_isNumeral h c hc)).trans
    (List.map_id cs)

namespace Interval

open Text (IsAscii fold isAscii_append isAscii_cons)

variable {cs : List Char} {n : Nat} {word : String}

/-! ## The two shapes

A shape is recognised from the last character: behind digits stands a unit, and all else are
letters. Neither shape has blanks, which is why an interval is one word. -/

theorem isUnit_iff {c : Char} : isUnit c = true ↔ c = 'd' ∨ c = 'w' ∨ c = 'm' ∨ c = 'y' := by
  simp [isUnit, or_assoc]

/-- What is folded to a unit is a letter. -/
theorem isLetter_of_isUnit_fold {c : Char} (h : isUnit (fold c) = true) :
    Text.isLetter c = true := by
  unfold Text.isLetter
  rcases isUnit_iff.1 h with h | h | h | h <;> rw [h] <;> decide

/-- The characters count so many days: digits of any script and a unit, in either letter case. -/
def IsCount (cs : List Char) (n : Nat) : Prop :=
  ∃ digits unit, cs = digits ++ [unit] ∧ Text.isDigits digits = true ∧
    isUnit (fold unit) = true ∧ n = Text.decimalValue digits * unitDays (fold unit)

/-- A count is taken apart at its last character, which is the unit. -/
theorem isCount_append {digits : List Char} {unit : Char} : IsCount (digits ++ [unit]) n ↔
    Text.isDigits digits = true ∧ isUnit (fold unit) = true ∧
      n = Text.decimalValue digits * unitDays (fold unit) := by
  constructor
  · rintro ⟨digits', unit', heq, h⟩
    obtain ⟨rfl, hunit⟩ := List.append_inj' heq rfl
    obtain rfl := List.singleton_inj.1 hunit
    exact h
  · exact fun h => ⟨digits, unit, rfl, h⟩

/-- What is written as an interval has one of the two shapes. -/
theorem isWritten_iff : isWritten cs = true ↔
    (∃ n, IsCount cs n) ∨ (cs ≠ [] ∧ ∀ c ∈ cs, Text.isLetter c = true) := by
  -- The recogniser looks at the last character and at what stands before it.
  have hcount : (Text.isDigits cs.dropLast && (cs.getLast?.map fold).any isUnit) = true ↔
      ∃ n, IsCount cs n := by
    rcases List.eq_nil_or_concat cs with rfl | ⟨digits, unit, rfl⟩
    · refine iff_of_false (by decide) ?_
      rintro ⟨n, digits, unit, heq, -⟩
      exact absurd heq (by simp)
    · simp only [List.concat_eq_append, List.dropLast_concat, List.getLast?_concat, Option.map_some,
        Option.any_some, Bool.and_eq_true, isCount_append]
      exact ⟨fun h => ⟨_, h.1, h.2, rfl⟩, fun ⟨_, hdigits, hunit, _⟩ => ⟨hdigits, hunit⟩⟩
  unfold isWritten
  rw [Bool.or_eq_true, hcount, Bool.and_eq_true, List.all_eq_true]
  simp

/-- An interval is made of letters and digits. -/
theorem letter_or_digit_of_isWritten (h : isWritten cs = true) :
    ∀ c ∈ cs, Text.isLetter c = true ∨ Text.isDigit c = true := by
  intro c hc
  rcases isWritten_iff.1 h with ⟨n, digits, unit, rfl, hdigits, hunit, -⟩ | ⟨-, hletters⟩
  · rcases List.mem_append.1 hc with hc | hc
    · exact .inr (Text.isDigit_of_isDigits hdigits c hc)
    · exact .inl (List.mem_singleton.1 hc ▸ isLetter_of_isUnit_fold hunit)
  · exact .inl (hletters c hc)

/-- What is written as an interval has no blanks. -/
theorem isBlank_of_isWritten (h : isWritten cs = true) : ∀ c ∈ cs, Text.isBlank c = false := by
  intro c hc
  rcases letter_or_digit_of_isWritten h c hc with hletter | hdigit
  · exact Text.isBlank_of_isLetter hletter
  · exact Text.isBlank_of_isDigit_any hdigit

/-! ## What becomes of them

The reader looks at the same last character, with ASCII digits before it and after everything has
been made small. So the proofs go by shape: a count is read up to the bound, letters are read as
they are, and in either shape a character outside of ASCII is what keeps a word from being read. -/

/-- What is made small to a unit is ASCII. -/
theorem ascii_of_isUnit {c : Char} (h : isUnit c.toLower = true) : c.toNat < 128 := by
  have hunit : c.toLower.toNat < 128 := by
    rcases isUnit_iff.1 h with h | h | h | h <;> rw [h] <;> decide
  rcases Text.toLower_cases c with ⟨-, hhigh, -⟩ | ⟨-, hsame⟩
  · omega
  · rwa [hsame] at hunit

/-- The units are ASCII letters; no letter that is folded to another one stands for a unit. -/
theorem ascii_of_isUnit_fold {c : Char} (h : isUnit (fold c) = true) : c.toNat < 128 := by
  by_cases hs : c = '\u017F'
  · subst hs
    exact absurd h (by decide)
  · by_cases hk : c = '\u212A'
    · subst hk
      exact absurd h (by decide)
    · rw [fold, if_neg hs, if_neg hk] at h
      exact ascii_of_isUnit h

/-- How characters are read, by the last one. -/
theorem ofChars?_append (digits : List Char) (unit : Char) : ofChars? (digits ++ [unit]) =
    if Number.isNumeral digits = true ∧ isUnit unit = true then
      if Number.digitsValue digits * unitDays unit < dayBound then
        some (.days (Number.digitsValue digits * unitDays unit))
      else none
    else if (digits ++ [unit]).all Char.isLower then
      some (.keyword (String.ofList (digits ++ [unit])))
    else none := by
  unfold ofChars?
  simp

/-- Characters that are small letters once they are made small are ASCII letters. -/
theorem all_isLower_iff : (cs.map Char.toLower).all Char.isLower = true ↔
    (∀ c ∈ cs, Text.isLetter c = true) ∧ IsAscii cs := by
  rw [List.all_map, List.all_eq_true]
  simp only [Function.comp_apply, Text.isLower_toLower_iff, IsAscii]
  exact ⟨fun h => ⟨fun c hc => (h c hc).1, fun c hc => (h c hc).2⟩,
    fun h c hc => ⟨h.1 c hc, h.2 c hc⟩⟩

/-- **A count of days is read** if it is ASCII and below the bound. -/
theorem ofChars?_of_isCount (h : IsCount cs n) {i : Interval} :
    ofChars? (cs.map Char.toLower) = some i ↔ IsAscii cs ∧ n < dayBound ∧ i = .days n := by
  obtain ⟨digits, unit, rfl, hdigits, hunit, rfl⟩ := h
  -- The unit is ASCII in any case, so ASCII is a matter of the digits.
  have hascii := ascii_of_isUnit_fold hunit
  rw [Text.fold_of_ascii hascii] at hunit ⊢
  have hwhole : IsAscii (digits ++ [unit]) ↔ IsAscii digits := by
    rw [isAscii_append, isAscii_cons]
    exact ⟨fun h => h.1, fun h => ⟨h, hascii, fun _ hc => absurd hc List.not_mem_nil⟩⟩
  have hmap : (digits ++ [unit]).map Char.toLower =
      digits.map Char.toLower ++ [unit.toLower] := List.map_append
  rw [hwhole, hmap, ofChars?_append, Number.isNumeral_map_toLower]
  by_cases hnumeral : Number.isNumeral digits = true
  · rw [if_pos ⟨hnumeral, hunit⟩, Number.map_toLower_of_isNumeral hnumeral,
      Text.decimalValue_of_ascii (Number.isDigit_of_isNumeral hnumeral),
      Option.ite_none_right_eq_some, Option.some.injEq]
    exact ⟨fun h => ⟨(Number.isNumeral_iff.1 hnumeral).2, h.1, h.2.symm⟩,
      fun h => ⟨h.2.1, h.2.2.symm⟩⟩
  · -- Then some digit is not ASCII, and it is no letter either.
    have hother : ¬ IsAscii digits := fun h => hnumeral (Number.isNumeral_iff.2 ⟨hdigits, h⟩)
    have hletters : ¬ (digits.map Char.toLower ++ [unit.toLower]).all Char.isLower = true := by
      rw [List.all_append, Bool.and_eq_true, all_isLower_iff]
      exact fun h => hother h.1.2
    rw [if_neg fun h => hnumeral h.1, if_neg hletters]
    exact ⟨fun h => absurd h (by simp), fun h => absurd h.1 hother⟩

/-- **Letters are read as a keyword** if they are ASCII. -/
theorem ofChars?_of_letters (hne : cs ≠ []) (h : ∀ c ∈ cs, Text.isLetter c = true)
    {i : Interval} : ofChars? (cs.map Char.toLower) = some i ↔
      IsAscii cs ∧ i = .keyword (String.ofList (cs.map Char.toLower)) := by
  -- What stands before the last letter are letters, so it is no numeral.
  have hcount : ∀ digits unit, cs = digits ++ [unit] → Number.isNumeral digits = false := by
    rintro digits unit rfl
    refine Bool.eq_false_iff.2 fun hnumeral => ?_
    obtain ⟨c, hc⟩ := List.exists_mem_of_ne_nil digits
      (by simpa using (Bool.and_eq_true_iff.1 hnumeral).1)
    have hdigit := Text.isDigit_of_isDigits (Number.isNumeral_iff.1 hnumeral).1 c hc
    rw [Text.isDigit_of_isLetter (h c (List.mem_append_left _ hc))] at hdigit
    exact absurd hdigit (by simp)
  rcases List.eq_nil_or_concat cs with rfl | ⟨front, last, hcs⟩
  · exact absurd rfl hne
  · rw [List.concat_eq_append] at hcs
    have hmap : cs.map Char.toLower = front.map Char.toLower ++ [last.toLower] := by
      rw [hcs, List.map_append]
      rfl
    rw [hmap, ofChars?_append, Number.isNumeral_map_toLower, hcount front last hcs, ← hmap,
      if_neg (by simp), Option.ite_none_right_eq_some, all_isLower_iff, Option.some.injEq]
    exact ⟨fun hread => ⟨hread.1.2, hread.2.symm⟩, fun hread => ⟨⟨h, hread.1⟩, hread.2.symm⟩⟩

/-- **What is read as an interval is written as one.** -/
theorem isWritten_of_ofChars? (h : (ofChars? (cs.map Char.toLower)).isSome = true) :
    isWritten cs = true := by
  rw [isWritten_iff]
  -- The two ways of being read are the two shapes, already in ASCII.
  rcases List.eq_nil_or_concat cs with rfl | ⟨front, last, hcs⟩
  · exact absurd h (by decide)
  · rw [List.concat_eq_append] at hcs
    have hmap : cs.map Char.toLower = front.map Char.toLower ++ [last.toLower] := by
      rw [hcs, List.map_append]
      rfl
    rw [hmap, ofChars?_append, Number.isNumeral_map_toLower, ← hmap] at h
    split at h
    · next hcount =>
      obtain ⟨hnumeral, hunit⟩ := hcount
      rw [← Text.fold_of_ascii (ascii_of_isUnit hunit)] at hunit
      exact .inl ⟨_, front, last, hcs, (Number.isNumeral_iff.1 hnumeral).1, hunit, rfl⟩
    · split at h
      · next hletters =>
        exact .inr ⟨by simp [hcs], (all_isLower_iff.1 hletters).1⟩
      · exact absurd h (by simp)

/-! ## Words

A word of a line has no blanks, so the reader, which cuts blanks off, reads it as it stands. -/

/-- A word is read by its characters, made small. -/
theorem read?_word (hword : ∀ c ∈ word.toList, Text.isBlank c = false) :
    read? word = ofChars? (word.toList.map Char.toLower) := by
  unfold read? Text.asciiLower
  rw [Text.trim_eq_self hword, String.toList_ofList]

/-- Texts are read alike in either letter case. -/
theorem read?_asciiLower (s : String) : read? (Text.asciiLower s) = read? s := by
  unfold read?
  rw [Text.trim_asciiLower, Text.asciiLower_asciiLower]

/-- **A word that is read has one of the two shapes.** -/
theorem isWritten_of_read? (hword : ∀ c ∈ word.toList, Text.isBlank c = false)
    (h : (read? word).isSome = true) : isWritten word.toList = true := by
  rw [read?_word hword] at h
  exact isWritten_of_ofChars? h

/-- Every interval that has a name of its own can be read. -/
theorem not_named {raw : String} (h : read? raw = none) :
    ∀ name ∈ ["1d", "today", "yesterday", "7d", "1w", "30d", "1m"], raw ≠ name := by
  have hread : ∀ name ∈ ["1d", "today", "yesterday", "7d", "1w", "30d", "1m"],
      (read? name).isSome = true := by decide
  -- A name that can be read is no text that cannot.
  rintro name hname rfl
  exact absurd (hread raw hname) (by simp [h])

/-- What is not read is refused by MGID, and passed on by Zeropark. -/
theorem names_of_unread {raw : String} (hlower : Text.asciiLower raw = raw) (h : read? raw = none) :
    mgidName (.text raw) = .error (.invalidFlag "time_range" raw) ∧
      zeroparkName (.text raw) = .ok (.text (Text.asciiUpper raw)) := by
  have hnamed := not_named h
  simp only [List.mem_cons, List.not_mem_nil, or_false, forall_eq_or_imp, forall_eq] at hnamed
  obtain ⟨hday, htoday, hyesterday, hseven, hweek, hthirty, hmonth⟩ := hnamed
  have hdisplay : Arg.display (.text raw) = raw := rfl
  constructor
  · unfold mgidName
    simp only [hdisplay, hlower, hday, htoday, hyesterday, hseven, hweek, hthirty, hmonth, or_self,
      if_false, h]
  · unfold zeroparkName
    simp only [hdisplay, hlower, hday, htoday, hyesterday, hseven, hweek, hthirty, hmonth, or_self,
      if_false]

/-- Without a range of dates, the window for a text that is not read has no days. -/
theorem window_of_unread {inv : Invocation} (hrange : inv.args.text? "date_range" = none)
    (h : read? inv.intervalToken = none) : inv.window =
      .ok ⟨inv.intervalToken, inv.args.text? inv.platform.windowAlias.name, none, none⟩ := by
  unfold Invocation.window Invocation.bounds?
  rw [hrange, h]
  rfl

/-- **The two recognisers of intervals.** A word can be read as an interval exactly if it fits the
slot for intervals, is ASCII, and does not count as many days as the bound, in digits of whatever
script. A word that cannot be read is refused as a time range by MGID; Zeropark and the tracker pass
it on, and unless a range of dates is given, the window for it has no days. -/
theorem isSome_read?_iff (s : Settings) (hword : ∀ c ∈ word.toList, Text.isBlank c = false) :
    ((read? word).isSome = true ↔ SlotKind.interval.fits s word = true ∧ IsAscii word.toList ∧
      ∀ n, IsCount word.toList n → n < dayBound) ∧
    (read? word = none → ∃ raw, SlotKind.interval.argument word = .text raw ∧
      mgidName (.text raw) = .error (.invalidFlag "time_range" raw) ∧
      zeroparkName (.text raw) = .ok (.text (Text.asciiUpper raw)) ∧
      thriveName (.text raw) = .ok (.text raw) ∧
      ∀ inv : Invocation, inv.args.text? "date_range" = none → inv.intervalToken = raw →
        inv.window = .ok ⟨raw, inv.args.text? inv.platform.windowAlias.name, none, none⟩) := by
  have hfits : SlotKind.interval.fits s word = isWritten word.toList := rfl
  constructor
  · rw [hfits]
    constructor
    · intro h
      have hwritten := isWritten_of_read? hword h
      obtain ⟨i, hi⟩ := Option.isSome_iff_exists.1 h
      rw [read?_word hword] at hi
      refine ⟨hwritten, ?_⟩
      -- A word that is read is of one shape, but the bound is stated for every way to see it as a
      -- count.
      rcases isWritten_iff.1 hwritten with ⟨n, hcount⟩ | ⟨hne, hletters⟩
      · obtain ⟨hascii, -, -⟩ := (ofChars?_of_isCount hcount).1 hi
        exact ⟨hascii, fun m hm => ((ofChars?_of_isCount hm).1 hi).2.1⟩
      · obtain ⟨hascii, hkeyword⟩ := (ofChars?_of_letters hne hletters).1 hi
        refine ⟨hascii, fun m hm => ?_⟩
        -- A count of days would be read as one.
        rw [hkeyword] at hi
        exact absurd ((ofChars?_of_isCount hm).1 hi).2.2 (by simp)
    · rintro ⟨hwritten, hascii, hbound⟩
      rw [read?_word hword]
      rcases isWritten_iff.1 hwritten with ⟨n, hcount⟩ | ⟨hne, hletters⟩
      · rw [(ofChars?_of_isCount hcount).2 ⟨hascii, hbound n hcount, rfl⟩]
        rfl
      · rw [(ofChars?_of_letters hne hletters).2 ⟨hascii, rfl⟩]
        rfl
  -- The token that goes out is the word in small letters, which is not read either.
  · intro hnone
    have hunread : read? (Text.asciiLower word) = none := by rw [read?_asciiLower, hnone]
    obtain ⟨hmgid, hzeropark⟩ := names_of_unread (Text.asciiLower_asciiLower word) hunread
    refine ⟨Text.asciiLower word, rfl, hmgid, hzeropark, rfl, fun inv hrange htoken => ?_⟩
    rw [← htoken] at hunread ⊢
    exact window_of_unread hrange hunread

/-- More days than the bound: the word fits the slot, and Zeropark sends it without days. -/
theorem isSome_read?_iff_many :
    (∀ c ∈ "99999999999d".toList, Text.isBlank c = false) ∧
      SlotKind.interval.fits {} "99999999999d" = true ∧ read? "99999999999d" = none ∧
        mgidName (.text "99999999999d") = .error (.invalidFlag "time_range" "99999999999d") := by
  have hword : ∀ c ∈ "99999999999d".toList, Text.isBlank c = false :=
    (Text.isWord_of_all (by decide)).2
  -- The word counts the days that its digits say, which are too many.
  have hcount : IsCount "99999999999d".toList 99999999999 :=
    ⟨"99999999999".toList, 'd', by decide, by decide, by decide, by decide⟩
  have hnone : read? "99999999999d" = none := by
    refine Option.not_isSome_iff_eq_none.1 fun hread => ?_
    have hbound := ((isSome_read?_iff {} hword).1.1 hread).2.2 _ hcount
    exact absurd hbound (by decide)
  obtain ⟨raw, hraw, hmgid, -⟩ := (isSome_read?_iff {} hword).2 hnone
  obtain rfl : "99999999999d" = raw := by
    have hsame : SlotKind.interval.argument "99999999999d" = .text "99999999999d" := by decide
    exact Arg.text.inj (hsame.symm.trans hraw)
  exact ⟨hword, by decide, hnone, hmgid⟩

end Interval

end AdOps
