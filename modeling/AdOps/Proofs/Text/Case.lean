import AdOps.Text.Blank
import AdOps.Text.Letter

/-!
# Letter case and blanks

To make letters small twice is to make them small once, and makes no blank of a letter or a letter
of a blank. A letter is never a blank, in either case.

* **`toLower_cases`** — what becomes of a character.
* **`asciiLower_asciiLower`**, **`isBlankText_asciiLower`** — what becomes of a text.
* **`isBlankText_intercalate`** — texts that are joined are blank if each of them is.
-/

namespace AdOps.Text

/-! ## Characters

A capital letter is moved to the small one and stays a visible character of ASCII; every other
character stays what it is. What follows about single characters is read off these two cases. -/

/-- A capital letter is moved by 32, and any other character is left alone. -/
theorem toLower_cases (c : Char) :
    (65 ≤ c.toNat ∧ c.toNat ≤ 90 ∧ c.toLower.toNat = c.toNat + 32) ∨
      (¬ (65 ≤ c.toNat ∧ c.toNat ≤ 90) ∧ c.toLower = c) := by
  by_cases h : c.val ≥ 'A'.val ∧ c.val ≤ 'Z'.val
  · have hlow : 65 ≤ c.toNat := h.1
    have hhigh : c.toNat ≤ 90 := h.2
    refine .inl ⟨hlow, hhigh, ?_⟩
    unfold Char.toLower
    rw [dif_pos h]
    -- The sum is taken on 32-bit words, where a letter is far from overflowing.
    show (c.val + 32).toNat = c.val.toNat + 32
    have hsum : c.val.toNat + 32 < 4294967296 := show c.toNat + 32 < 4294967296 by omega
    rw [UInt32.toNat_add]
    exact Nat.mod_eq_of_lt hsum
  · refine .inr ⟨fun hboth => h hboth, ?_⟩
    unfold Char.toLower
    rw [dif_neg h]

/-- **A letter is made small once.** -/
theorem toLower_toLower (c : Char) : c.toLower.toLower = c.toLower := by
  rcases toLower_cases c.toLower with ⟨hlow, hhigh, -⟩ | ⟨-, heq⟩
  · -- What was made small is not a capital letter.
    rcases toLower_cases c with ⟨hc, -, hsmall⟩ | ⟨hnot, hsame⟩
    · omega
    · rw [hsame] at hlow hhigh
      exact absurd ⟨hlow, hhigh⟩ hnot
  · exact heq

/-- Of the visible characters of ASCII none is blank. -/
theorem isBlank_eq_false {c : Char} (hlow : 33 ≤ c.toNat) (hhigh : c.toNat ≤ 126) :
    isBlank c = false := by
  simp only [isBlank, inRanges, blankRanges, List.any_cons, List.any_nil, Bool.or_false,
    Bool.or_eq_false_iff, Bool.and_eq_false_iff, decide_eq_false_iff_not]
  omega

/-- Blanks are blanks in either case: no letter becomes a blank, and a blank is no letter. -/
theorem isBlank_toLower (c : Char) : isBlank c.toLower = isBlank c := by
  rcases toLower_cases c with ⟨hlow, hhigh, hsmall⟩ | ⟨-, heq⟩
  -- Before and after, the letter is among the visible characters of ASCII.
  · rw [isBlank_eq_false (by omega) (by omega), isBlank_eq_false (by omega) (by omega)]
  · rw [heq]

/-- The folding of flag names makes no blank and takes none away, the two letters that fold from
outside ASCII included. -/
theorem isBlank_fold (c : Char) : isBlank (fold c) = isBlank c := by
  unfold fold
  split
  · next h => subst h; decide
  · split
    · next h => subst h; decide
    · exact isBlank_toLower c

/-- A letter is not a blank. -/
theorem isBlank_of_isLetter {c : Char} (h : isLetter c = true) : isBlank c = false := by
  rw [← isBlank_fold]
  unfold isLetter Char.isLower at h
  rw [Bool.and_eq_true, decide_eq_true_eq, decide_eq_true_eq] at h
  -- It is enough to look at what the letter folds to.
  have hlow : 97 ≤ (fold c).toNat := h.1
  have hhigh : (fold c).toNat ≤ 122 := h.2
  exact isBlank_eq_false (by omega) (by omega)

/-- A digit is not a blank. -/
theorem isBlank_of_isDigit {c : Char} (h : c.isDigit = true) : isBlank c = false := by
  simp only [Char.isDigit, Bool.and_eq_true, decide_eq_true_eq] at h
  have hlow : 48 ≤ c.toNat := h.1
  have hhigh : c.toNat ≤ 57 := h.2
  exact isBlank_eq_false (by omega) (by omega)

/-! ## Texts

The same, character by character, for a whole text: its length, its blanks and what is trimmed off
it do not depend on letter case. -/

/-- **A text is made small once.** -/
theorem asciiLower_asciiLower (s : String) : asciiLower (asciiLower s) = asciiLower s := by
  unfold asciiLower
  rw [String.toList_ofList, List.map_map]
  exact congrArg String.ofList (List.map_congr_left fun c _ => toLower_toLower c)

theorem length_asciiLower (s : String) : (asciiLower s).length = s.length := by
  unfold asciiLower
  rw [String.length_ofList, List.length_map, String.length_toList]

/-- A text that is blank is so in either letter case. -/
theorem isBlankText_asciiLower (s : String) : isBlankText (asciiLower s) = isBlankText s := by
  have hsame : isBlank ∘ Char.toLower = isBlank := funext isBlank_toLower
  unfold isBlankText asciiLower
  rw [String.toList_ofList, List.all_map, hsame]

/-- Blanks around a text are the same in either letter case. -/
theorem trim_asciiLower (s : String) : trim (asciiLower s) = asciiLower (trim s) := by
  have hsame : isBlank ∘ Char.toLower = isBlank := funext isBlank_toLower
  unfold trim asciiLower
  -- Trimming drops from the front, turns the text and drops again; mapping goes past each of the
  -- four.
  rw [String.toList_ofList, String.toList_ofList, List.dropWhile_map, hsame, ← List.map_reverse,
    List.dropWhile_map, hsame, List.map_reverse]

/-- A text of two parts is blank if both of them are. -/
theorem isBlankText_append (s t : String) :
    isBlankText (s ++ t) = (isBlankText s && isBlankText t) := by
  unfold isBlankText
  rw [String.toList_append, List.all_append]

/-- A text that holds a character which is no blank is not blank. -/
theorem isBlankText_of_mem {s : String} {c : Char} (hmem : c ∈ s.toList) (hc : isBlank c = false) :
    isBlankText s = false := by
  unfold isBlankText
  rw [List.all_eq_false]
  exact ⟨c, hmem, by simp [hc]⟩

/-- **Texts that are joined are blank if each of them is**, as long as what is put between them is
blank too. -/
theorem isBlankText_intercalate {joiner : String} (hjoiner : isBlankText joiner = true)
    (texts : List String) :
    isBlankText (joiner.intercalate texts) = true ↔ ∀ t ∈ texts, isBlankText t = true := by
  induction texts with
  | nil => exact ⟨fun _ _ ht => absurd ht List.not_mem_nil, fun _ => rfl⟩
  | cons t texts ih =>
    rw [List.forall_mem_cons, ← ih]
    cases texts with
    -- The last text has no joiner behind it.
    | nil => simp [String.intercalate_singleton, isBlankText]
    | cons u texts =>
      simp only [String.intercalate_cons_cons, isBlankText_append, hjoiner, Bool.and_true,
        Bool.and_eq_true]

end AdOps.Text
