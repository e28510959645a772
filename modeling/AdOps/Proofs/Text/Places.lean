import AdOps.Proofs.Text.Spacing
import Mathlib.Data.List.TakeWhile

/-!
# Words and their places

A text that is read character by character meets its words at places. Where a word begins, the word
ahead ends at the next blank or at the end of the text, and behind it the text is at a boundary
again.

* **`exists_word`**, **`exists_gap`** — a text begins with a gap, and with a word behind that.
* **`map_snd_placedFrom`** — the words with places are the words of the text.
* **`boundary_le_of_mem`** — the words behind a boundary begin behind the blank of it.
-/

namespace AdOps.Text

/-- The words of characters. -/
def wordsOf (cs : List Char) : List String := (runs cs).map String.ofList

/-- The words of a text are not blank. -/
theorem isBlankText_of_mem_wordsOf {cs : List Char} {word : String} (h : word ∈ wordsOf cs) :
    isBlankText word = false := by
  obtain ⟨w, hw, rfl⟩ := List.mem_map.1 h
  exact isBlankText_of_isWord ((spaced_runs cs).isWord w hw)

variable {w g rest cs : List Char} {i : Nat}

/-! ## The word ahead

Reading with `takeWhile` and `dropWhile` up to a blank is reading up to a boundary, and the boundary
may be the end of the text. So a text is taken apart into a gap, a word and the rest. -/

/-- Two tests that agree on the characters of a text cut it at one place. -/
theorem takeWhile_congr {p q : Char → Bool} (h : ∀ c ∈ cs, p c = q c) :
    cs.takeWhile p = cs.takeWhile q ∧ cs.dropWhile p = cs.dropWhile q := by
  induction cs with
  | nil => exact ⟨rfl, rfl⟩
  | cons c cs ih =>
    obtain ⟨hc, hcs⟩ := List.forall_mem_cons.1 h
    rw [List.takeWhile_cons, List.takeWhile_cons, List.dropWhile_cons, List.dropWhile_cons, hc,
      (ih hcs).1, (ih hcs).2]
    exact ⟨rfl, rfl⟩

/-- The test of a word, as `takeWhile` has it. -/
theorem not_isBlank_of_mem (hw : IsWord w) : ∀ c ∈ w, (!isBlank c) = true := fun c hc => by
  rw [hw.2 c hc]
  rfl

/-- No character of which `p` holds stands at a boundary, if it holds of no blank. -/
theorem head_of_atBoundary {p : Char → Bool} (hp : ∀ c, isBlank c = true → p c = false)
    (hrest : atBoundary rest = true) : rest.takeWhile p = [] ∧ rest.dropWhile p = rest := by
  cases rest with
  | nil => exact ⟨rfl, rfl⟩
  | cons c rest =>
    have hc : p c = false := hp c hrest
    exact ⟨List.takeWhile_cons_of_neg (by simp [hc]), List.dropWhile_cons_of_neg (by simp [hc])⟩

/-- A run of characters goes up to a boundary, if it holds none of the blanks. -/
theorem takeWhile_append_boundary {p : Char → Bool} (hp : ∀ c, isBlank c = true → p c = false)
    (hrest : atBoundary rest = true) : (cs ++ rest).takeWhile p = cs.takeWhile p := by
  induction cs with
  | nil => exact (head_of_atBoundary hp hrest).1
  | cons c cs ih =>
    rw [List.cons_append, List.takeWhile_cons, List.takeWhile_cons, ih]

/-- What is left behind such a run is what is left of the run's own text, and all that is behind the
boundary. -/
theorem dropWhile_append_boundary {p : Char → Bool} (hp : ∀ c, isBlank c = true → p c = false)
    (hrest : atBoundary rest = true) : (cs ++ rest).dropWhile p = cs.dropWhile p ++ rest := by
  induction cs with
  | nil => exact (head_of_atBoundary hp hrest).2
  | cons c cs ih =>
    rw [List.cons_append, List.dropWhile_cons, List.dropWhile_cons, ih]
    split <;> rfl

/-- **The word ahead is read as a whole** if a boundary is behind it. -/
theorem takeWhile_word (hw : IsWord w) (hrest : atBoundary rest = true) :
    (w ++ rest).takeWhile (!isBlank ·) = w := by
  rw [takeWhile_append_boundary (fun c hc => by simp [hc]) hrest]
  exact List.takeWhile_eq_self_iff.2 (not_isBlank_of_mem hw)

/-- Behind the word ahead there is what is behind its boundary. -/
theorem dropWhile_word (hw : IsWord w) (hrest : atBoundary rest = true) :
    (w ++ rest).dropWhile (!isBlank ·) = rest := by
  rw [dropWhile_append_boundary (fun c hc => by simp [hc]) hrest,
    List.dropWhile_eq_nil_iff.2 (not_isBlank_of_mem hw), List.nil_append]

/-- Behind a run without blanks a text is at a boundary, or it would have gone on. -/
theorem atBoundary_dropWhile (cs : List Char) : atBoundary (cs.dropWhile (!isBlank ·)) = true := by
  cases h : cs.dropWhile (!isBlank ·) with
  | nil => rfl
  | cons c rest =>
    have hne : cs.dropWhile (!isBlank ·) ≠ [] := by
      rw [h]
      exact List.cons_ne_nil _ _
    simpa [h, atBoundary] using List.head_dropWhile_not (!isBlank ·) hne

/-- A text that begins with a character that is no blank begins with a word. -/
theorem exists_word {c : Char} (hc : isBlank c = false) (cs : List Char) :
    ∃ w rest, c :: cs = w ++ rest ∧ IsWord w ∧ atBoundary rest = true := by
  refine ⟨_, _, List.takeWhile_append_dropWhile.symm, ⟨?_, ?_⟩, atBoundary_dropWhile (c :: cs)⟩
  -- It is a word: not empty as the first character is no blank, and without blanks as it was read
  -- so.
  · rw [List.takeWhile_cons_of_pos (by simp [hc])]
    exact List.cons_ne_nil _ _
  · intro x hx
    simpa using List.mem_takeWhile_imp hx

/-- A text begins with a gap, behind which there is nothing or a word. -/
theorem exists_gap (cs : List Char) :
    ∃ g behind, cs = g ++ behind ∧ IsGap g ∧ (behind = [] ∨ ∃ w rest, behind = w ++ rest ∧
      IsWord w ∧ atBoundary rest = true) := by
  refine ⟨_, _, List.takeWhile_append_dropWhile.symm, fun c hc => List.mem_takeWhile_imp hc, ?_⟩
  cases h : cs.dropWhile isBlank with
  | nil => exact .inl rfl
  | cons c behind =>
    have hne : cs.dropWhile isBlank ≠ [] := by
      rw [h]
      exact List.cons_ne_nil _ _
    have hc : isBlank c = false := by simpa [h] using List.head_dropWhile_not isBlank hne
    -- The gap ended at a character that is no blank, and there a word begins.
    exact .inr (exists_word hc behind)

/-- Dropping blanks drops the gap and stops at the word. -/
theorem dropWhile_gap (hg : IsGap g) (hw : IsWord w) (rest : List Char) :
    (g ++ (w ++ rest)).dropWhile isBlank = w ++ rest := by
  rw [List.dropWhile_append_of_pos hg]
  cases w with
  | nil => exact absurd rfl hw.1
  | cons c w => exact List.dropWhile_cons_of_neg (by simp [hw.2 c List.mem_cons_self])

/-! ## The words of a text, one by one

With these two a text is taken apart from the front: a gap is of no account, and a word in front of
a boundary is the first one. -/

theorem wordsOf_gap (hg : IsGap g) (cs : List Char) : wordsOf (g ++ cs) = wordsOf cs := by
  unfold wordsOf
  rw [runs_gap_append hg]

/-- A word in front of a boundary is the first of the words. -/
theorem wordsOf_word (hw : IsWord w) (hrest : atBoundary rest = true) :
    wordsOf (w ++ rest) = String.ofList w :: wordsOf rest := by
  unfold wordsOf
  rw [runs_word_append hw hrest, List.map_cons]

/-! ## Places

The scan that notes places knows by a flag whether a word can begin. The flag is set behind a blank
and cleared inside a word, so that the lemmas go gap by gap and word by word and never look at
single characters. -/

/-- A gap in front moves every place by its length. -/
theorem placedFrom_gap (hg : IsGap g) (i : Nat) (cs : List Char) :
    placedFrom i true (g ++ cs) = placedFrom (i + g.length) true cs := by
  induction g generalizing i with
  | nil => rfl
  | cons c g ih =>
    rw [List.cons_append, placedFrom, if_pos (hg c List.mem_cons_self),
      ih fun x hx => hg x (List.mem_cons_of_mem _ hx), List.length_cons]
    -- Only the starting places are still to be compared.
    congr 1
    omega

/-- No word begins inside a word. -/
theorem placedFrom_inside (hcs : ∀ c ∈ cs, isBlank c = false) (i : Nat)
    (hrest : atBoundary rest = true) :
    placedFrom i false (cs ++ rest) = placedFrom (i + cs.length) true rest := by
  induction cs generalizing i with
  | nil =>
    -- Behind the word the flag is of no account: a blank sets it whatever it was.
    cases rest with
    | nil => rfl
    | cons b rest =>
      have hb : isBlank b = true := hrest
      rw [List.nil_append, List.length_nil, Nat.add_zero, placedFrom, placedFrom, if_pos hb,
        if_pos hb]
  | cons c cs ih =>
    have hc : isBlank c = false := hcs c List.mem_cons_self
    rw [List.cons_append, placedFrom, if_neg (by simp [hc]), if_neg (by simp),
      ih fun x hx => hcs x (List.mem_cons_of_mem _ hx), List.length_cons]
    congr 1
    omega

/-- A word in front of a boundary begins at the place the scan has reached, and the scan goes on
behind it. -/
theorem placedFrom_word (hw : IsWord w) (i : Nat) (hrest : atBoundary rest = true) :
    placedFrom i true (w ++ rest) =
      (i, String.ofList w) :: placedFrom (i + w.length) true rest := by
  have htake := takeWhile_word hw hrest
  cases w with
  | nil => exact absurd rfl hw.1
  | cons c w =>
    have hc : isBlank c = false := hw.2 c List.mem_cons_self
    have hinside : ∀ x ∈ w, isBlank x = false := fun x hx => hw.2 x (List.mem_cons_of_mem _ hx)
    rw [List.cons_append, List.takeWhile_cons_of_pos (by simp [hc])] at htake
    -- The first character notes the whole word; the others are inside it.
    rw [List.cons_append, placedFrom, if_neg (by simp [hc]), if_pos rfl, htake,
      placedFrom_inside hinside (i + 1) hrest, List.length_cons]
    congr 2
    omega

/-- No word is placed before the scan began. -/
theorem le_of_mem_placedFrom {fresh : Bool} {place : Nat × String}
    (h : place ∈ placedFrom i fresh cs) : i ≤ place.1 := by
  induction cs generalizing i fresh with
  | nil => exact absurd h List.not_mem_nil
  | cons c cs ih =>
    rw [placedFrom] at h
    split at h
    · exact Nat.le_of_succ_le (ih h)
    · split at h
      · rcases List.mem_cons.1 h with rfl | h
        · exact Nat.le_refl _
        · exact Nat.le_of_succ_le (ih h)
      · exact Nat.le_of_succ_le (ih h)

/-- **The words behind a boundary begin behind the blank of it.** -/
theorem boundary_le_of_mem (hcs : atBoundary cs = true) {place : Nat × String}
    (h : place ∈ placedFrom i true cs) : i + (cs.take 1).length ≤ place.1 := by
  cases cs with
  | nil => exact absurd h List.not_mem_nil
  | cons b cs =>
    have hb : isBlank b = true := hcs
    rw [placedFrom, if_pos hb] at h
    exact le_of_mem_placedFrom h

/-- A word stands where it is placed. -/
theorem exists_of_mem_placedFrom {fresh : Bool} {place : Nat × String}
    (h : place ∈ placedFrom i fresh cs) :
    ∃ front behind, cs = front ++ (place.2.toList ++ behind) ∧ place.1 = i + front.length ∧
      IsWord place.2.toList := by
  induction cs generalizing i fresh with
  | nil => exact absurd h List.not_mem_nil
  | cons c cs ih =>
    have hlater : ∀ {fresh : Bool}, place ∈ placedFrom (i + 1) fresh cs →
        ∃ front behind, c :: cs = front ++ (place.2.toList ++ behind) ∧
          place.1 = i + front.length ∧ IsWord place.2.toList := by
      -- A word that is found later has one character more in front of it.
      intro fresh hmem
      obtain ⟨front, behind, rfl, hplace, hword⟩ := ih hmem
      refine ⟨c :: front, behind, rfl, ?_, hword⟩
      rw [hplace, List.length_cons]
      omega
    rw [placedFrom] at h
    split at h
    · exact hlater h
    · next hc =>
      split at h
      · rcases List.mem_cons.1 h with rfl | h
        -- The word begins here, so nothing is in front of it.
        · obtain ⟨w, rest, hcut, hw, hrest⟩ := exists_word (Bool.eq_false_iff.2 hc) cs
          have hword : c :: cs.takeWhile (!isBlank ·) = w := by
            rw [← takeWhile_word hw hrest, ← hcut, List.takeWhile_cons_of_pos (by simp [hc])]
          refine ⟨[], rest, ?_, rfl, ?_⟩
          · simpa [hword] using hcut
          · simpa [hword] using hw
        · exact hlater h
      · exact hlater h

/-- Words do not go on over a boundary. -/
theorem placedFrom_append (hrest : atBoundary rest = true) (i : Nat) (fresh : Bool)
    (cs : List Char) :
    placedFrom i fresh (cs ++ rest) =
      placedFrom i fresh cs ++ placedFrom (i + cs.length) true rest := by
  induction cs generalizing i fresh with
  | nil =>
    -- Behind the first text the scan meets a blank or the end, which end any word.
    cases rest with
    | nil => rfl
    | cons b rest =>
      have hb : isBlank b = true := hrest
      rw [List.nil_append, placedFrom, placedFrom, if_pos hb, placedFrom, if_pos hb]
      rfl
  | cons c cs ih =>
    have hlength : i + 1 + cs.length = i + (c :: cs).length := by
      rw [List.length_cons]
      omega
    -- The word that begins here is the same one, as it ends before the boundary.
    have htake : (cs ++ rest).takeWhile (fun c => !isBlank c) =
        cs.takeWhile fun c => !isBlank c :=
      takeWhile_append_boundary (fun c hc => by simp [hc]) hrest
    rw [List.cons_append, placedFrom, placedFrom, ih, ih, hlength, htake]
    split
    · rfl
    · split <;> rfl

/-- Places are counted from where the text begins. -/
theorem placedFrom_shift (n i : Nat) (fresh : Bool) (cs : List Char) :
    placedFrom (n + i) fresh cs =
      (placedFrom i fresh cs).map fun place => (n + place.1, place.2) := by
  induction cs generalizing i fresh with
  | nil => rfl
  | cons c cs ih =>
    rw [placedFrom, placedFrom, Nat.add_assoc, ih, ih]
    split
    · rfl
    · split <;> rfl

/-- **The words with places are the words of the text.** -/
theorem map_snd_placedFrom (i : Nat) (cs : List Char) :
    (placedFrom i true cs).map Prod.snd = wordsOf cs := by
  -- Induction on the length: each step takes a gap and the word behind it off the text.
  induction h : cs.length using Nat.strongRecOn generalizing i cs with
  | ind n ih =>
    subst h
    obtain ⟨g, behind, rfl, hg, rfl | ⟨w, rest, rfl, hw, hrest⟩⟩ := exists_gap cs
    · rw [placedFrom_gap hg, wordsOf_gap hg]
      rfl
    · have hpos : 0 < w.length := List.length_pos_iff.2 hw.1
      have hlt : rest.length < (g ++ (w ++ rest)).length := by
        simp only [List.length_append]
        omega
      rw [placedFrom_gap hg, wordsOf_gap hg, placedFrom_word hw _ hrest, wordsOf_word hw hrest,
        List.map_cons, ih _ hlt _ _ rfl]

end AdOps.Text
