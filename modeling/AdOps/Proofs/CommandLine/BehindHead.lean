import AdOps.Proofs.CommandLine.Synonyms
import AdOps.Proofs.CommandLine.WordRoles
import AdOps.Proofs.Flag.Leftmost

/-!
# The two searches for flags

The flags of a line are looked for twice: behind the head, to tell which words are positional, and in
the whole text, for their values. The two searches begin at different places, and what stands at the
start of a text needs no blank in front. They find the same flags because a head holds none: a word
for a platform is no flag, a verb carries no marker, and behind the verb there is a blank.

* **`occurrences_behind`** — what is found in the whole text is what is found behind the head.
* **`apart_of_isFree`** — a word that no flag covers lies apart from all of them.
* **`searches_agree`** — the words offered as positional are those that the values leave.
-/

namespace AdOps

open Text

/-- The occurrence in the text with `n` characters more in front. -/
def Occurrence.behind (n : Nat) (o : Occurrence) : Occurrence := { o with start := n + o.start }

/-- An occurrence that is moved covers the places that are moved along. -/
theorem Occurrence.covers_behind (n : Nat) (o : Occurrence) (place : Nat) :
    (o.behind n).covers (n + place) = o.covers place := by
  simp only [covers, behind, stop, Nat.add_assoc, Nat.add_le_add_iff_left, Nat.add_lt_add_iff_left]
  rfl

namespace Flag

variable {f : Flag} {g w rest cs : List Char} {i : Nat} {o : Occurrence}

/-! ## Searches from different places

A search reads characters and counts places, and the places matter for one thing only: at the very
start of a text a flag needs no blank in front. From a boundary on a search finds the same wherever
it begins. -/

/-- One step of the search, from a place that is not the start or at a boundary. -/
theorem occurrenceAt?_shift (n : Nat) (h : 0 < i ∨ atBoundary cs = true) :
    f.occurrenceAt? (n + i) cs = (f.occurrenceAt? i cs).map (Occurrence.behind n) := by
  cases cs with
  | nil => rfl
  | cons c cs =>
    unfold occurrenceAt?
    dsimp only
    by_cases hc : isBlank c = true
    · rw [if_pos hc, if_pos hc, Option.map_map]
      rfl
    · have hi : 0 < i := h.resolve_right hc
      rw [if_neg hc, if_neg hc, if_neg (by omega), if_neg (by omega)]
      rfl

/-- **A search from a boundary on finds the same, wherever the boundary lies.** -/
theorem occurrencesFrom_shift (n : Nat) {skip : Nat} (h : 0 < i ∨ 0 < skip ∨ atBoundary cs = true) :
    f.occurrencesFrom (n + i) skip cs =
      (f.occurrencesFrom i skip cs).map (Occurrence.behind n) := by
  induction cs generalizing i skip with
  | nil => cases skip <;> rfl
  | cons c cs ih =>
    cases skip with
    -- Inside an occurrence nothing is looked for.
    | succ skip =>
      rw [occurrencesFrom, occurrencesFrom, Nat.add_assoc, ih (.inl (Nat.succ_pos i))]
    | zero =>
      have hat : 0 < i ∨ atBoundary (c :: cs) = true :=
        h.imp_right fun h => h.resolve_left (Nat.lt_irrefl 0)
      rw [occurrencesFrom, occurrencesFrom, occurrenceAt?_shift n hat]
      cases f.occurrenceAt? i (c :: cs) with
      | none => exact ih (.inl (Nat.succ_pos i))
      | some o =>
        rw [Option.map_some, List.map_cons]
        exact congrArg _ (ih (.inl (Nat.succ_pos i)))

/-- A word that begins no flag is passed over with the gap in front. -/
theorem occurrencesFrom_pass (hg : IsGap g) (hi : g = [] → i = 0) (hw : IsWord w)
    (hnone : f.ahead? (w ++ rest) = none) :
    f.occurrencesFrom i 0 (g ++ (w ++ rest)) =
      f.occurrencesFrom (i + (g.length + w.length)) 0 rest := by
  induction g generalizing i with
  | nil =>
    obtain rfl := hi rfl
    rw [occurrencesFrom_none .start hw hnone]
    simp
  | cons b g ih =>
    obtain ⟨hb, hgap⟩ := List.forall_mem_cons.1 hg
    cases g with
    -- One blank in front of the word: the search looks at the word from there.
    | nil => exact (occurrencesFrom_none (.blank hb) hw hnone).trans (by rw [Nat.add_assoc])
    | cons b' g =>
      -- A blank in front of another blank begins nothing.
      have hnext : f.occurrenceAt? i (b :: (b' :: g ++ (w ++ rest))) = none := by
        have hb' : isBlank b' = true := hgap b' List.mem_cons_self
        unfold occurrenceAt?
        simp [hb, ahead?_boundary (show atBoundary (b' :: (g ++ (w ++ rest))) = true from hb')]
      rw [List.cons_append, occurrencesFrom, hnext]
      dsimp only
      rw [ih hgap (by simp)]
      simp only [List.length_cons]
      congr 1
      omega

/-- A word that no flag has to do with begins no flag. -/
theorem ahead?_outside (hw : IsWord w) (hrest : atBoundary rest = true)
    (h : ∀ next, f.roleOf (String.ofList w) next = .outside) : f.ahead? (w ++ rest) = none := by
  rw [ahead?_word hw hrest, h]

end Flag

/-! ## The head as it is written

A head is a word for a platform, a gap and a verb. Neither word begins a flag, so both searches pass
over the head and go on behind it. -/

namespace Head

variable {cs rest : List Char} {head : Head}

/-- The characters of a head: a gap, the word for the platform, another gap and the verb. -/
theorem exists_front (h : read? cs = some (head, rest)) :
    ∃ g w g' v name, cs = g ++ (w ++ (g' ++ (v ++ rest))) ∧ IsGap g ∧ IsWord w ∧ IsGap g' ∧
      g' ≠ [] ∧ IsWord v ∧ atBoundary rest = true ∧ String.ofList w = "/" ++ name ∧
        head.platform = asciiLower name ∧ CommandLine.isVerbWord (String.ofList v) = true := by
  obtain ⟨⟨platform, behind⟩, hplatform, h⟩ := Option.bind_eq_some_iff.1 h
  obtain ⟨⟨verb, rest'⟩, hverb, h⟩ := Option.bind_eq_some_iff.1 h
  obtain ⟨rfl, rfl⟩ := Prod.mk.inj (Option.some.inj h)
  -- The text is cut into gaps and words as the reading of the head goes along it.
  obtain ⟨g, cs, rfl, hg, rfl | ⟨w, rest, rfl, hw, hrest⟩⟩ := exists_gap cs
  · rw [List.append_nil, readPlatform?_gap hg] at hplatform
    exact absurd hplatform (by simp)
  rw [readPlatform?_word hg hw hrest] at hplatform
  split at hplatform
  · exact absurd hplatform (by simp)
  obtain ⟨name, hname, hpair⟩ := Option.map_eq_some_iff.1 hplatform
  obtain ⟨rfl, rfl⟩ := Prod.mk.inj hpair
  obtain ⟨g', tail, rfl, hg', rfl | ⟨v, rest, rfl, hv, hrest'⟩⟩ := exists_gap rest
  · rw [List.append_nil, readVerb?_gap hg'] at hverb
    exact absurd hverb (by simp)
  rw [readVerb?_word hg' hv hrest'] at hverb
  obtain ⟨hisVerb, hpair⟩ := Option.ite_none_right_eq_some.1 hverb
  obtain ⟨rfl, rfl⟩ := Prod.mk.inj (Option.some.inj hpair)
  -- Without a gap the word for the platform would go on.
  have hne : g' ≠ [] := by
    rintro rfl
    obtain ⟨c, v', rfl⟩ := List.exists_cons_of_ne_nil hv.1
    have hc : isBlank c = true := hrest
    rw [hv.2 c List.mem_cons_self] at hc
    exact absurd hc (by simp)
  refine ⟨g, w, g', v, name, rfl, hg, hw, hg', hne, hv, hrest', ?_, by simp, hisVerb⟩
  unfold CommandLine.platformWord? at hname
  -- The word for the platform is a slash with a name behind it.
  split at hname
  · next chars hchars =>
    obtain ⟨-, hname⟩ := Option.ite_none_right_eq_some.1 hname
    obtain rfl := Option.some.inj hname
    rw [String.toList_ofList] at hchars
    rw [hchars]
    exact String.toList_inj.1 (by simp [String.toList_append])
  · exact absurd hname (by simp)

/-- **What is found in the whole text is what is found behind the head.** -/
theorem occurrences_behind {p : Platform} (h : read? cs = some (head, rest))
    (hp : Platform.ofToken? head.platform = some p) :
    ∃ front, cs = front ++ rest ∧ atBoundary rest = true ∧
      ∀ f : Flag, f.occurrences cs = (f.occurrences rest).map (·.behind front.length) := by
  obtain ⟨g, w, g', v, name, rfl, hg, hw, hg', hne, hv, hrest, hslash, hplatform, hverb⟩ :=
    exists_front h
  -- The platform is known, so its word is one of the few that are no flags.
  have htoken : asciiLower name ∈ p.tokens := by
    have hfind := List.find?_some hp
    rw [hplatform, asciiLower_asciiLower] at hfind
    simpa using hfind
  refine ⟨g ++ (w ++ (g' ++ v)), by simp, hrest, fun f => ?_⟩
  have hboundary : atBoundary (g' ++ (v ++ rest)) = true := by
    obtain ⟨b, g', rfl⟩ := List.exists_cons_of_ne_nil hne
    exact hg' b List.mem_cons_self
  have hplatform : f.ahead? (w ++ (g' ++ (v ++ rest))) = none :=
    Flag.ahead?_outside hw hboundary fun next => hslash ▸ Platform.roleOf_token htoken f next
  have hnone : f.ahead? (v ++ rest) = none :=
    Flag.ahead?_outside hv hrest
      (Flag.roleOf_unmarked (CommandLine.unmark_of_isVerbWord hverb))
  unfold Flag.occurrences
  -- Past the first word, past the verb, and then the search goes on as it would from the start.
  rw [Flag.occurrencesFrom_pass hg (fun _ => rfl) hw hplatform,
    Flag.occurrencesFrom_pass hg' (fun hnil => absurd hnil hne) hv hnone,
    ← Flag.occurrencesFrom_shift _ (.inr (.inr hrest))]
  congr 1
  simp only [List.length_append]
  omega

end Head

/-! ## What is offered as positional

A word is offered if the place where it begins is covered by no flag. That is enough for the word as
a whole, as a flag that begins inside a word would need a blank there. -/

section offered

variable {cs front rest : List Char} {place : Nat × String} {f : Flag} {o : Occurrence}

/-- **A word that no flag covers lies apart from all of them**, not only with its first character. -/
theorem apart_of_isFree (hplace : place ∈ placedWords cs) (hfree : isFree cs place.1 = true)
    (ho : o ∈ f.occurrences cs) :
    place.1 + place.2.toList.length ≤ o.start ∨ o.stop ≤ place.1 := by
  have hcovers : o.covers place.1 = false := isFree_iff.1 hfree f o ho
  rcases Nat.lt_or_ge place.1 o.start with hlt | hge
  · refine .inl (Nat.le_of_not_lt fun hover => ?_)
    obtain ⟨front, behind, hcs, hfront, hword⟩ := exists_of_mem_placedFrom hplace
    have hstands := Flag.standsIn_of_mem ho
    rw [hcs] at hstands
    generalize htext : front ++ (place.2.toList ++ behind) = text at hstands
    obtain @⟨front', lead, phrase, behind', value, hlead, hphrase, -⟩ := hstands
    dsimp only at hlt hover
    -- The blank in front of the flag would be a character of the word.
    obtain ⟨b, rfl, hb⟩ := hlead.eq_singleton (Nat.zero_lt_of_lt hlt)
    obtain ⟨before, after, hcut, -⟩ := Flag.exists_inside htext.symm (by omega) (by omega)
    rw [hword.2 b (by simp [hcut])] at hb
    exact absurd hb (by simp)
  · simp only [Occurrence.covers, hge, decide_true, Bool.true_and, decide_eq_false_iff_not] at hcovers
    exact .inr (Nat.le_of_not_lt hcovers)

/-- The words that are offered, as a filter of the words with places. -/
theorem freeWords_eq_filter (rest : List Char) :
    freeWords rest = ((placedWords rest).filter fun place =>
      isFree rest place.1 && !Flag.isMarked place.2).map Prod.snd := by
  unfold freeWords
  rw [← List.filterMap_eq_map, ← List.filterMap_eq_filter, List.filterMap_filterMap]
  refine List.filterMap_congr fun ⟨place, word⟩ _ => ?_
  cases hcovered : (Flag.all.flatMap fun f => f.occurrences rest).any (·.covers place) <;>
    cases hmarked : Flag.isMarked word <;> simp [isFree, Option.guard, hcovered, hmarked]

/-- The words behind a front, among those of the whole text. -/
theorem filter_placedWords_append (hrest : atBoundary rest = true) (p : Nat × String → Bool) :
    ((placedWords (front ++ rest)).filter fun place => decide (front.length ≤ place.1) && p place) =
      ((placedWords rest).map fun place => (front.length + place.1, place.2)).filter p := by
  have hshift : placedFrom (0 + front.length) true rest =
      (placedWords rest).map fun place => (front.length + place.1, place.2) := by
    rw [Nat.add_comm]
    exact placedFrom_shift front.length 0 true rest
  unfold placedWords at hshift ⊢
  rw [placedFrom_append hrest, hshift, List.filter_append,
    List.filter_eq_nil_iff.2 fun place hplace => ?_, List.nil_append]
  -- The words behind the front are all at or behind its end.
  · refine List.filter_congr fun place hplace => ?_
    obtain ⟨place', -, rfl⟩ := List.mem_map.1 hplace
    simp
  · -- A word of the front begins before the front ends.
    obtain ⟨before, after, hcut, hstart, hword⟩ := exists_of_mem_placedFrom hplace
    have hlength := congrArg List.length hcut
    have hpos : 0 < place.2.toList.length := List.length_pos_iff.2 hword.1
    simp only [List.length_append] at hlength
    simp only [Bool.and_eq_true, decide_eq_true_eq, not_and]
    omega

/-- **The two searches see the same flags.** If the first word of a line addresses a platform, then
the occurrences of every flag in the whole text are those in the text behind the head, at the places
that they have in the whole text. So the words offered as positional are the words behind the head
that no occurrence in the whole text covers and no marker begins, and they lie apart from all that
is covered: none of them is a value that is read, and none is kept back for a flag that is not read.
-/
theorem searches_agree {text : List Char} {head : Head} {p : Platform}
    (hhead : Head.read? text = some (head, rest))
    (hplatform : Platform.ofToken? head.platform = some p) :
    ∃ front, text = front ++ rest ∧
      (∀ f : Flag, f.occurrences text = (f.occurrences rest).map (·.behind front.length)) ∧
      freeWords rest = ((placedWords text).filter fun place =>
        decide (front.length ≤ place.1) &&
          (isFree text place.1 && !Flag.isMarked place.2)).map Prod.snd ∧
      ∀ place ∈ placedWords text, isFree text place.1 = true →
        ∀ f : Flag, ∀ o ∈ f.occurrences text,
          place.1 + place.2.toList.length ≤ o.start ∨ o.stop ≤ place.1 := by
  obtain ⟨front, rfl, hrest, hsame⟩ := Head.occurrences_behind hhead hplatform
  refine ⟨front, rfl, hsame, ?_, fun place hplace hfree f o ho => apart_of_isFree hplace hfree ho⟩
  -- A place behind the head is covered in the one text exactly if it is in the other.
  have hfree : ∀ place, isFree (front ++ rest) (front.length + place) = isFree rest place := by
    intro place
    unfold isFree
    rw [show (Flag.all.flatMap fun f => f.occurrences (front ++ rest)) =
        (Flag.all.flatMap fun f => f.occurrences rest).map (·.behind front.length) by
      rw [List.map_flatMap]
      exact List.flatMap_congr fun f _ => hsame f, List.any_map]
    congr 2
    exact funext fun o => o.covers_behind front.length place
  rw [filter_placedWords_append hrest, List.filter_map, List.map_map, freeWords_eq_filter]
  congr 1
  exact List.filter_congr fun place _ => by simp [hfree]

/-! A flag right behind the verb, with a value that could be an identifier. -/

namespace TwoSearches

def behindVerb : List Char := " /limit 3 1 --ie".toList

def line : List Char := " /zp stats".toList ++ behindVerb

end TwoSearches

open TwoSearches in
theorem searches_agree_limit :
    Head.read? line = some (⟨"zp", "stats"⟩, behindVerb) ∧
      Platform.ofToken? "zp" = some .zeropark ∧
      ∃ front, line = front ++ behindVerb ∧
        (∀ f : Flag, f.occurrences line =
          (f.occurrences behindVerb).map (·.behind front.length)) ∧
        freeWords behindVerb = ((placedWords line).filter fun place =>
          decide (front.length ≤ place.1) &&
            (isFree line place.1 && !Flag.isMarked place.2)).map Prod.snd ∧
        ∀ place ∈ placedWords line, isFree line place.1 = true →
          ∀ f : Flag, ∀ o ∈ f.occurrences line,
            place.1 + place.2.toList.length ≤ o.start ∨ o.stop ≤ place.1 := by
  have hhead : Head.read? line = some (⟨"zp", "stats"⟩, behindVerb) := by decide +kernel
  have hplatform : Platform.ofToken? "zp" = some .zeropark := by decide
  exact ⟨hhead, hplatform, searches_agree hhead hplatform⟩

end offered

end AdOps
