import AdOps.Text.Blank

/-!
# Words and the blanks between them

Cutting a text into words forgets how wide its blanks are and which blanks they are. The other
direction is a relation: `Spaced ws cs` says that the characters `cs` are the words `ws` in their
order, parted by blanks, with or without blanks around them.

* **`runs_eq_iff`** — the runs of a text are the only words that it is a spacing of.
* **`words_eq_iff`** — the same for texts as they are typed.
* **`words_append`** — the words of two texts with a blank between them.
-/

namespace AdOps.Text

/-- Characters that can stand as one word. -/
def IsWord (cs : List Char) : Prop := cs ≠ [] ∧ ∀ c ∈ cs, isBlank c = false

/-- Nothing but blanks, and possibly nothing at all. -/
def IsGap (cs : List Char) : Prop := ∀ c ∈ cs, isBlank c = true

/-- The characters are the words in order: a gap in front, and behind each word a blank or the end.
-/
inductive Spaced : List (List Char) → List Char → Prop where
  | gap {g : List Char} (hg : IsGap g) : Spaced [] g
  | last {g w : List Char} (hg : IsGap g) (hw : IsWord w) : Spaced [w] (g ++ w)
  | cons {g w rest : List Char} {b : Char} {ws : List (List Char)} (hg : IsGap g) (hw : IsWord w)
      (hb : isBlank b = true) (hrest : Spaced ws rest) : Spaced (w :: ws) (g ++ (w ++ b :: rest))

/-- A text that is written as the given words. -/
def WrittenAs (s : String) (ws : List String) : Prop := Spaced (ws.map String.toList) s.toList

/-! ## Cutting into runs

The recursion of `runs` goes character by character. These lemmas lift it to what a spacing is made
of, gaps and words, so that a spacing is cut by an induction on how it was put together. -/

theorem runs_cons_blank {c : Char} (hc : isBlank c = true) (cs : List Char) :
    runs (c :: cs) = runs cs := by
  rw [runs, if_pos hc]

/-- No more is a gap, by induction on its blanks. -/
theorem runs_gap_append {g : List Char} (hg : IsGap g) (cs : List Char) :
    runs (g ++ cs) = runs cs := by
  induction g with
  | nil => rfl
  | cons c g ih =>
    rw [List.cons_append, runs_cons_blank (hg c List.mem_cons_self)]
    exact ih fun x hx => hg x (List.mem_cons_of_mem _ hx)

theorem runs_gap {g : List Char} (hg : IsGap g) : runs g = [] := by
  have h := runs_gap_append hg []
  rwa [List.append_nil] at h

/-- A word that is shorter by its first character, as long as one is left. -/
theorem IsWord.tail {c d : Char} {cs : List Char} (h : IsWord (c :: d :: cs)) : IsWord (d :: cs) :=
  ⟨List.cons_ne_nil _ _, fun x hx => h.2 x (List.mem_cons_of_mem _ hx)⟩

/-- A word in front of a boundary is a run of its own. -/
theorem runs_word_append {w : List Char} (hw : IsWord w) {rest : List Char}
    (hrest : atBoundary rest = true) : runs (w ++ rest) = w :: runs rest := by
  induction w with
  | nil => exact absurd rfl hw.1
  | cons c w ih =>
    have hc : isBlank c = false := hw.2 c List.mem_cons_self
    cases w with
    | nil =>
      rw [List.cons_append, List.nil_append, runs]
      simp [hc, hrest]
    | cons d w =>
      have hd : isBlank d = false := hw.2 d (List.mem_cons_of_mem _ List.mem_cons_self)
      -- The run goes on at `d`, so `c` joins the front of the first run of what follows.
      rw [List.cons_append, runs, ih hw.tail]
      simp [hc, hd, atBoundary]

theorem runs_word {w : List Char} (hw : IsWord w) : runs w = [w] := by
  have h : runs (w ++ []) = w :: runs [] := runs_word_append hw rfl
  rwa [List.append_nil, runs] at h

/-- A spacing of words is cut into these words, by induction on the spacing. -/
theorem Spaced.runs_eq {ws : List (List Char)} {cs : List Char} (h : Spaced ws cs) :
    runs cs = ws := by
  induction h with
  | gap hg => exact runs_gap hg
  | last hg hw => rw [runs_gap_append hg, runs_word hw]
  | cons hg hw hb _ ih =>
    rw [runs_gap_append hg, runs_word_append hw (by simpa [atBoundary] using hb),
      runs_cons_blank hb, ih]

/-! ## Every text is a spacing of its runs

The converse cannot go by induction on a spacing, as there is none yet. It goes along the recursion
of `runs`: a blank in front widens the first gap, and a letter in front either is a word of its own
or makes the first word longer. -/

/-- A blank in front of a text widens its first gap, or the only one. -/
theorem Spaced.blank_cons {c : Char} (hc : isBlank c = true) {ws : List (List Char)}
    {cs : List Char} (h : Spaced ws cs) : Spaced ws (c :: cs) := by
  have hgap : ∀ {g : List Char}, IsGap g → IsGap (c :: g) := by
    intro g hg x hx
    rcases List.mem_cons.1 hx with rfl | hx
    · exact hc
    · exact hg x hx
  cases h with
  | gap hg => exact .gap (hgap hg)
  | last hg hw => exact .last (g := c :: _) (hgap hg) hw
  | cons hg hw hb hrest => exact .cons (g := c :: _) (hgap hg) hw hb hrest

theorem isGap_nil : IsGap [] := fun _ h => absurd h List.not_mem_nil

theorem isWord_singleton {c : Char} (hc : isBlank c = false) : IsWord [c] :=
  ⟨List.cons_ne_nil _ _, fun x hx => by rw [List.mem_singleton.1 hx, hc]⟩

/-- A way to check that some characters are a word. -/
theorem isWord_of_all {w : List Char} (h : (!w.isEmpty && w.all (!isBlank ·)) = true) :
    IsWord w := by
  obtain ⟨hne, hall⟩ := Bool.and_eq_true_iff.1 h
  refine ⟨by simpa using hne, fun c hc => ?_⟩
  simpa using List.all_eq_true.1 hall c hc

/-- A word with one more character in front. -/
theorem IsWord.cons {c : Char} (hc : isBlank c = false) {w : List Char} (hw : IsWord w) :
    IsWord (c :: w) := by
  refine ⟨List.cons_ne_nil _ _, fun x hx => ?_⟩
  rcases List.mem_cons.1 hx with rfl | hx
  · exact hc
  · exact hw.2 x hx

/-- A character in front of a text that begins with a word makes this word longer. -/
theorem Spaced.letter_cons {c d : Char} (hc : isBlank c = false) (hd : isBlank d = false)
    {ws : List (List Char)} {cs : List Char} (h : Spaced ws (d :: cs)) :
    ∃ w ws', ws = w :: ws' ∧ Spaced ((c :: w) :: ws') (c :: d :: cs) := by
  -- A gap in front would begin with `d`, which is no blank.
  have hnil : ∀ {g rest : List Char}, IsGap g → d :: cs = g ++ rest → g = [] := by
    intro g rest hg heq
    cases g with
    | nil => rfl
    | cons x g =>
      have hx : isBlank x = true := hg x List.mem_cons_self
      rw [← (List.cons.inj heq).1, hd] at hx
      exact absurd hx Bool.false_ne_true
  -- cs = t :: The text has to be a variable for the cases of the spacing.
  generalize heq : d :: cs = t at h
  cases h with
  | gap hg =>
    -- A text of blanks does not begin with `d`.
    have hg' := hnil hg (by rw [heq, List.append_nil])
    rw [hg'] at heq
    exact absurd heq (List.cons_ne_nil _ _)
  | @last g w hg hw =>
    refine ⟨w, [], rfl, ?_⟩
    obtain rfl := hnil hg heq
    exact .last isGap_nil (hw.cons hc)
  | @cons g w rest b ws' hg hw hb hrest =>
    refine ⟨w, ws', rfl, ?_⟩
    obtain rfl := hnil hg heq
    exact .cons isGap_nil (hw.cons hc) hb hrest

/-- **Every text is a spacing of its runs.** The recursion looks two characters ahead, as the
cutting does: whether a run ends here shows at the next character. -/
theorem spaced_runs : ∀ cs : List Char, Spaced (runs cs) cs
  | [] => .gap isGap_nil
  | [c] => by
    by_cases hc : isBlank c = true
    · rw [runs_cons_blank hc]
      exact Spaced.blank_cons hc (.gap isGap_nil)
    · have hword : IsWord [c] := isWord_singleton (Bool.eq_false_iff.2 hc)
      rw [runs_word hword]
      exact .last isGap_nil hword
  | c :: d :: cs => by
    by_cases hc : isBlank c = true
    · rw [runs_cons_blank hc]
      exact (spaced_runs (d :: cs)).blank_cons hc
    · have hc' : isBlank c = false := Bool.eq_false_iff.2 hc
      have hword : IsWord [c] := isWord_singleton hc'
      by_cases hd : isBlank d = true
      · -- The word ends here, and `d` is the blank behind it.
        have hruns : runs ([c] ++ d :: cs) = [c] :: runs (d :: cs) :=
          runs_word_append hword (by simpa [atBoundary] using hd)
        rw [List.cons_append, List.nil_append, runs_cons_blank hd] at hruns
        rw [hruns]
        exact .cons (g := []) isGap_nil hword hd (spaced_runs cs)
      · have hd' : isBlank d = false := Bool.eq_false_iff.2 hd
        -- The run goes on at `d`, so the first word of what follows gets longer by `c`.
        obtain ⟨w, ws, hw, hspaced⟩ := (spaced_runs (d :: cs)).letter_cons hc' hd'
        have hruns : runs (c :: d :: cs) = (c :: w) :: ws := by
          rw [runs, hw]
          simp [hc', hd', atBoundary]
        rw [hruns]
        exact hspaced

/-- **The runs of a text are the only words that it is a spacing of.** -/
theorem runs_eq_iff {cs : List Char} {ws : List (List Char)} : runs cs = ws ↔ Spaced ws cs :=
  ⟨fun h => h ▸ spaced_runs cs, Spaced.runs_eq⟩

/-- **A text is written as its words and as no others.** -/
theorem words_eq_iff {s : String} {ws : List String} : words s = ws ↔ WrittenAs s ws := by
  rw [WrittenAs, ← runs_eq_iff, words]
  -- Texts and their characters are the same thing twice over, on both sides.
  constructor
  · intro h
    rw [← h, List.map_map]
    simp
  · intro h
    rw [h, List.map_map]
    simp

/-- What a text is a spacing of are words. -/
theorem Spaced.isWord {ws : List (List Char)} {cs : List Char} (h : Spaced ws cs) :
    ∀ w ∈ ws, IsWord w := by
  induction h with
  | gap hg => exact fun w hw => absurd hw List.not_mem_nil
  | last hg hw => exact List.forall_mem_singleton.2 hw
  | cons hg hw hb _ ih => exact List.forall_mem_cons.2 ⟨hw, ih⟩

/-- The words of a text stand in it as they are. -/
theorem Spaced.isInfix {ws : List (List Char)} {cs w : List Char} (h : Spaced ws cs) (hw : w ∈ ws) :
    w <:+: cs := by
  induction h with
  | gap _ => exact absurd hw List.not_mem_nil
  | @last g w' _ _ =>
    -- The last word has only the gap in front of it.
    obtain rfl := List.mem_singleton.1 hw
    exact (List.suffix_append g w).isInfix
  | @cons g w' rest b ws _ _ _ _ ih =>
    -- The first word is behind the gap; a later one is inside what is behind the blank.
    rcases List.mem_cons.1 hw with rfl | hmem
    · exact ⟨g, b :: rest, by simp⟩
    · exact (ih hmem).trans ⟨g ++ w' ++ [b], [], by simp⟩

/-- A word is not a blank text. -/
theorem isBlankText_of_isWord {w : List Char} (hw : IsWord w) :
    isBlankText (String.ofList w) = false := by
  obtain ⟨c, hc⟩ := List.exists_mem_of_ne_nil w hw.1
  unfold isBlankText
  rw [String.toList_ofList]
  exact List.all_eq_false.2 ⟨c, hc, by simp [hw.2 c hc]⟩

/-! ## Blanks around a text, and words behind it

Trimming is told by its inverse: a text is what is left of it with a gap on either side. And words
are written behind a text by putting one spacing behind another. -/

/-- A text without blanks is not padded. -/
theorem trim_eq_self {s : String} (h : ∀ c ∈ s.toList, isBlank c = false) : trim s = s := by
  have hdrop : ∀ cs : List Char, (∀ c ∈ cs, isBlank c = false) → cs.dropWhile isBlank = cs := by
    intro cs hcs
    cases cs with
    | nil => rfl
    | cons c cs => exact List.dropWhile_cons_of_neg (by simp [hcs c List.mem_cons_self])
  unfold trim
  rw [hdrop _ h, hdrop _ fun c hc => h c (List.mem_reverse.1 hc), List.reverse_reverse,
    String.ofList_toList]

/-- What is trimmed off a text are the blanks around it. -/
theorem exists_trim (s : String) : ∃ front back, IsGap front ∧ IsGap back ∧
    s.toList = front ++ ((trim s).toList ++ back) := by
  have hsplit : ∀ cs : List Char, IsGap (cs.takeWhile isBlank) ∧
      cs = cs.takeWhile isBlank ++ cs.dropWhile isBlank := fun cs =>
    ⟨List.all_eq_true.1 List.all_takeWhile, List.takeWhile_append_dropWhile.symm⟩
  obtain ⟨hfront, hcs⟩ := hsplit s.toList
  -- The blanks behind are those in front of the text turned around.
  obtain ⟨hback, hrest⟩ := hsplit (s.toList.dropWhile isBlank).reverse
  refine ⟨_, _, hfront, fun c hc => hback c (List.mem_reverse.1 hc), ?_⟩
  rw [trim, String.toList_ofList, ← List.reverse_append, ← hrest, List.reverse_reverse]
  exact hcs

/-- A text is one word if it is one without the blanks around it. -/
theorem words_of_trim {s : String} (h : IsWord (trim s).toList) : words s = [trim s] := by
  obtain ⟨front, back, hfront, hback, hs⟩ := exists_trim s
  -- The blanks behind the word are a boundary, and so is the end of the text.
  have hboundary : atBoundary back = true := by
    cases back with
    | nil => rfl
    | cons c back => exact hback c List.mem_cons_self
  rw [words, hs, runs_gap_append hfront, runs_word_append h hboundary, runs_gap hback]
  exact congrArg (· :: []) String.ofList_toList

/-- A text that is as long without the blanks around it has none. -/
theorem trim_eq_self_of_length {s : String} (h : (trim s).length = s.length) : trim s = s := by
  obtain ⟨front, back, -, -, hs⟩ := exists_trim s
  have hlength := congrArg List.length hs
  rw [List.length_append, List.length_append, String.length_toList, String.length_toList, h]
    at hlength
  -- The lengths leave no room for blanks on either side.
  obtain rfl := List.eq_nil_of_length_eq_zero (show front.length = 0 by omega)
  obtain rfl := List.eq_nil_of_length_eq_zero (show back.length = 0 by omega)
  rw [List.nil_append, List.append_nil] at hs
  exact String.toList_injective hs.symm

/-- A gap in front of a text is of no account. -/
theorem Spaced.gap_append {g : List Char} (hg : IsGap g) {ws : List (List Char)} {cs : List Char}
    (h : Spaced ws cs) : Spaced ws (g ++ cs) := by
  induction g with
  | nil => exact h
  | cons c g ih =>
    obtain ⟨hc, hgap⟩ := List.forall_mem_cons.1 hg
    exact (ih hgap).blank_cons hc

/-- What is written behind a text and a blank adds its words. -/
theorem Spaced.append {ws vs : List (List Char)} {cs ds : List Char} {b : Char} (h : Spaced ws cs)
    (hb : isBlank b = true) (h' : Spaced vs ds) : Spaced (ws ++ vs) (cs ++ b :: ds) := by
  induction h with
  -- Blanks alone become a gap in front of what is written behind them.
  | gap hg => exact (h'.blank_cons hb).gap_append hg
  | last hg hw =>
    rw [List.append_assoc]
    exact .cons hg hw hb h'
  | @cons g w rest b' ws hg hw hb' _ ih =>
    rw [show g ++ (w ++ b' :: rest) ++ b :: ds = g ++ (w ++ b' :: (rest ++ b :: ds)) by simp]
    exact .cons hg hw hb' ih

/-- **The words of two texts with a blank between them** are those of the one and then those of the
other. -/
theorem words_append (s t : String) : words (s ++ " " ++ t) = words s ++ words t := by
  have hspaced : Spaced (runs s.toList ++ runs t.toList) (s.toList ++ ' ' :: t.toList) :=
    (spaced_runs s.toList).append (by decide) (spaced_runs t.toList)
  unfold words
  rw [show (s ++ " " ++ t).toList = s.toList ++ ' ' :: t.toList by simp [String.toList_append],
    hspaced.runs_eq, List.map_append]

theorem words_of_isWord {w : String} (hw : IsWord w.toList) : words w = [w] := by
  rw [words, runs_word hw]
  exact congrArg (· :: []) String.ofList_toList

/-- The words of a text are words. -/
theorem isWord_of_mem_words {s w : String} (h : w ∈ words s) : IsWord w.toList := by
  obtain ⟨run, hrun, rfl⟩ := List.mem_map.1 h
  rw [String.toList_ofList]
  exact (spaced_runs s.toList).isWord run hrun

/-- A word that is as long as the text is all of it. -/
theorem eq_of_mem_words {s w : String} (h : w ∈ words s) (hlength : w.length = s.length) :
    w = s := by
  obtain ⟨run, hrun, rfl⟩ := List.mem_map.1 h
  have hpart : run <:+: s.toList := (spaced_runs s.toList).isInfix hrun
  rw [String.length_ofList, ← String.length_toList] at hlength
  rw [hpart.eq_of_length hlength, String.ofList_toList]

theorem words_append_word (s : String) {w : String} (hw : IsWord w.toList) :
    words (s ++ " " ++ w) = words s ++ [w] := by
  rw [words_append, words_of_isWord hw]

end AdOps.Text
