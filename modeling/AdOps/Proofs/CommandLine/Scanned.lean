import AdOps.Proofs.CommandLine.Reading
import AdOps.Proofs.Flag.Scan
import AdOps.Proofs.Text.Case

/-!
# Lines as they are typed

A line is read as it was typed, blank by blank: the head is taken off its characters, the flags are
looked for in the whole text and once more behind the head, and the words in between are told by
their places. All of this depends only on the words of the line, and comes to the reading of a line
of words.

* **`read?_eq`** — the head of a text is the head of its words.
* **`freeWords_eq`** — the words that no flag covers are the positional ones.
* **`parse_eq_ofWords`** — a text stands for the command that its words stand for.
* **`sameReading_of_words_eq`** — texts with the same words are parsed alike.
-/

namespace AdOps

open Text

/-! ## Positional words

The text is searched once for each flag, and what an occurrence covers is told by its place. Whether
a word is covered can be said of the words alone: that is the walk over roles, and `map_covered`
joins the two. -/

namespace CommandLine

/-- **The words that belong to a flag are those that an occurrence covers.** -/
theorem taken_eq (flags : List Flag) (cs : List Char) :
    taken flags (wordsOf cs) = (placedWords cs).map fun place =>
      (flags.flatMap fun f => f.occurrences cs).any (·.covers place.1) := by
  -- Induction on the flags: a word is taken by the first of them, or by the others.
  induction flags with
  | nil =>
    show (wordsOf cs).map (fun _ => false) = _
    rw [← map_snd_placedFrom 0 cs, List.map_map]
    rfl
  | cons f flags ih =>
    have hown : (f.roles (wordsOf cs)).zipWith (fun role b => decide (role ≠ .outside) || b)
        (taken flags (wordsOf cs)) =
          ((placedWords cs).map fun place => (f.occurrences cs).any (·.covers place.1)).zipWith
            or (taken flags (wordsOf cs)) := by
      rw [f.map_covered cs, List.zipWith_map_left]
    refine hown.trans ?_
    rw [ih, List.zipWith_map, List.zipWith_self]
    simp only [List.flatMap_cons, List.any_append]

end CommandLine

/-- **The words that no flag covers are the positional ones.** -/
theorem freeWords_eq (cs : List Char) : freeWords cs = CommandLine.positionals (wordsOf cs) := by
  have hwords : wordsOf cs = (placedWords cs).map Prod.snd := (map_snd_placedFrom 0 cs).symm
  unfold freeWords CommandLine.positionals
  rw [CommandLine.taken_eq, hwords, List.zip_map', List.filterMap_map]
  rfl

/-! ## The head

A head is taken off the characters in two steps, each of which skips a gap and reads one word. What
is read runs up to the end of the word or stops inside it; in the second case there is no boundary,
and nothing has been read. -/

namespace Head

variable {g w rest : List Char}

/-- Letters, digits and one more character that is no blank: none of them is a blank. -/
theorem nameChar_blank {d : Char} (hd : isBlank d = false) {c : Char} (hc : isBlank c = true) :
    (isLetter c || c.isDigit || decide (c = d)) = false := by
  have hletter : isLetter c = false :=
    Bool.eq_false_iff.2 fun h => by simp [isBlank_of_isLetter h] at hc
  have hdigit : c.isDigit = false :=
    Bool.eq_false_iff.2 fun h => by simp [isBlank_of_isDigit h] at hc
  have hne : c ≠ d := by
    rintro rfl
    simp [hd] at hc
  simp [hletter, hdigit, hne]

theorem isPlatformChar_blank (c : Char) (hc : isBlank c = true) : isPlatformChar c = false :=
  nameChar_blank (by decide) hc

theorem isVerbChar_blank (c : Char) (hc : isBlank c = true) : isVerbChar c = false :=
  nameChar_blank (by decide) hc

/-- The characters of one kind in front of a word that ends at a boundary: all of the word, or they
end inside it. -/
theorem spanned_cases {p : Char → Bool} (hp : ∀ c, isBlank c = true → p c = false)
    {body : List Char} (hbody : ∀ c ∈ body, isBlank c = false) (hrest : atBoundary rest = true) :
    (body.all p = true ∧ (body ++ rest).takeWhile p = body ∧ (body ++ rest).dropWhile p = rest) ∨
      (body.all p = false ∧ ∃ c behind, (body ++ rest).dropWhile p = c :: behind ∧
        isBlank c = false) := by
  rw [takeWhile_append_boundary hp hrest, dropWhile_append_boundary hp hrest]
  cases hdrop : body.dropWhile p with
  | nil =>
    have hall := List.dropWhile_eq_nil_iff.1 hdrop
    exact .inl ⟨List.all_eq_true.2 hall, List.takeWhile_eq_self_iff.2 hall, rfl⟩
  | cons c behind =>
    have hc : c ∈ body :=
      (List.dropWhile_sublist p).subset (by rw [hdrop]; exact List.mem_cons_self)
    refine .inr ⟨Bool.eq_false_iff.2 fun hall => ?_, c, _, List.cons_append, hbody c hc⟩
    rw [List.dropWhile_eq_nil_iff.2 (List.all_eq_true.1 hall)] at hdrop
    exact absurd hdrop (by simp)

/-- The first word is read as a platform exactly if it is one, and something stands behind it. -/
theorem readPlatform?_word (hg : IsGap g) (hw : IsWord w) (hrest : atBoundary rest = true) :
    readPlatform? (g ++ (w ++ rest)) =
      if rest = [] then none
      else (CommandLine.platformWord? (String.ofList w)).map fun name => (name.toList, rest) := by
  unfold readPlatform? CommandLine.platformWord?
  rw [dropWhile_gap hg hw, String.toList_ofList]
  cases w with
  | nil => exact absurd rfl hw.1
  | cons c body =>
    have hbody : ∀ c ∈ body, isBlank c = false := fun c hc => hw.2 c (List.mem_cons_of_mem _ hc)
    -- A word that does not begin with a slash is no platform, whatever follows.
    by_cases hc : c = '/'
    · subst hc
      rw [List.cons_append]
      rcases spanned_cases isPlatformChar_blank hbody hrest with
        ⟨hall, htake, hdrop⟩ | ⟨hall, d, behind, hdrop, hd⟩
      · simp only [htake, hdrop, hall]
        cases rest with
        | nil => simp
        | cons b rest =>
          have hb : isBlank b = true := hrest
          cases body <;> simp [hb]
      · simp only [hdrop, hall]
        simp [hd]
    · rw [List.cons_append]
      split
      · next heq => exact absurd (List.cons.inj heq).1 hc
      · split
        · rfl
        · split
          · next heq => exact absurd (List.cons.inj heq).1 hc
          · rfl

/-- The next word is read as a verb exactly if it has the form of one. -/
theorem readVerb?_word (hg : IsGap g) (hw : IsWord w) (hrest : atBoundary rest = true) :
    readVerb? (g ++ (w ++ rest)) =
      if CommandLine.isVerbWord (String.ofList w) then some (w, rest) else none := by
  unfold readVerb? CommandLine.isVerbWord
  rw [dropWhile_gap hg hw, String.toList_ofList]
  cases w with
  | nil => exact absurd rfl hw.1
  | cons c body =>
    have hbody : ∀ c ∈ body, isBlank c = false := fun c hc => hw.2 c (List.mem_cons_of_mem _ hc)
    rw [List.cons_append]
    rcases spanned_cases isVerbChar_blank hbody hrest with
      ⟨hall, htake, hdrop⟩ | ⟨hall, d, behind, hdrop, hd⟩
    · simp [htake, hdrop, hall, hrest]
    · simp [hdrop, hall, atBoundary, hd]

theorem readPlatform?_gap (hg : IsGap g) : readPlatform? g = none := by
  unfold readPlatform?
  rw [List.dropWhile_eq_nil_iff.2 hg]

theorem readVerb?_gap (hg : IsGap g) : readVerb? g = none := by
  unfold readVerb?
  rw [List.dropWhile_eq_nil_iff.2 hg]

/-- **The head of a text is the head of its words.** -/
theorem read?_eq (cs : List Char) :
    (read? cs).map (fun (head, rest) => CommandLine.mk head (wordsOf rest)) =
      CommandLine.ofWords? (wordsOf cs) := by
  unfold read?
  -- A text is a gap, or a gap with a word and a rest behind it.
  obtain ⟨g, behind, rfl, hg, rfl | ⟨w, rest, rfl, hw, hrest⟩⟩ := exists_gap cs
  · rw [List.append_nil, readPlatform?_gap hg, wordsOf, runs_gap hg]
    rfl
  · rw [readPlatform?_word hg hw hrest, wordsOf_gap hg, wordsOf_word hw hrest]
    -- The verb is the word behind the next gap.
    obtain ⟨g', behind, rfl, hg', rfl | ⟨v, tail, rfl, hv, htail⟩⟩ := exists_gap rest
    · rw [List.append_nil]
      have hnone : CommandLine.ofWords? [String.ofList w] = none := rfl
      rw [show wordsOf g' = [] by rw [wordsOf, runs_gap hg']; rfl, hnone]
      split
      · rfl
      · cases CommandLine.platformWord? (String.ofList w) <;> simp [readVerb?_gap hg']
    · have hne : g' ++ (v ++ tail) ≠ [] := by simp [hv.1]
      rw [if_neg hne, wordsOf_gap hg', wordsOf_word hv htail]
      unfold CommandLine.ofWords?
      cases hplatform : CommandLine.platformWord? (String.ofList w) with
      | none => simp [hplatform]
      | some name =>
        cases hverb : CommandLine.isVerbWord (String.ofList v) <;>
          simp [readVerb?_word hg' hv htail, hplatform, hverb]

end Head

/-! ## Whole lines

The head, the positional words and the flags are now all told by the words, and what is left of the
text itself is what a failure quotes. -/

namespace Command

/-- **A text stands for the command that its words stand for.** -/
theorem parse_eq_ofWords (s : Settings) (text : String) :
    parse s text = ofWords s (.invalidCommand (Text.trim text)) (Text.words text) := by
  have hhead := Head.read?_eq text.toList
  unfold parse ofWords
  rw [show Text.words text = wordsOf text.toList from rfl, ← hhead]
  cases Head.read? text.toList with
  | none => rfl
  | some found =>
    obtain ⟨head, rest⟩ := found
    simp only [Option.map_some, freeWords_eq, Flag.arguments_eq_given]

/-- **Only the words of a line matter.** Texts that hold the same words, parted by whatever blanks,
are parsed alike under all settings: to the same command, or to failures of the same kind. -/
theorem sameReading_of_words_eq (s : Settings) {text₁ text₂ : String}
    (h : Text.words text₁ = Text.words text₂) : SameReading (parse s text₁) (parse s text₂) := by
  -- The texts that are quoted may differ.
  have hkind : (Failure.invalidCommand (Text.trim text₁)).kind =
      (Failure.invalidCommand (Text.trim text₂)).kind := rfl
  rw [parse_eq_ofWords, parse_eq_ofWords, h]
  unfold ofWords
  cases CommandLine.ofWords? (Text.words text₂) with
  | none => exact .failure hkind
  | some line => exact resolve_sameReading hkind _ _ _

/-- Wide blanks around, between and behind, where one flag follows another. -/
theorem sameReading_of_words_eq_wide :
    SameReading (parse {} "/mgid stats 1 /limit:3 /limit 4")
      (parse {} "\t/mgid\u00a0stats  1 /limit:3\u2003/limit\u00a0\n4\u3000") :=
  sameReading_of_words_eq {} (by decide +kernel)

end Command

end AdOps
