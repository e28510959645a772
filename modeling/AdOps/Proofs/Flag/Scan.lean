import AdOps.Proofs.Flag.Ahead
import Mathlib.Data.List.Forall2

/-!
# What the scan for a flag finds

The scan for a flag goes over characters, and what it finds can be told word by word: an occurrence
begins with the word that is the marker of the flag, and it ends with this word or with the value
word behind it. A blank in front and a blank behind belong to it, and no word begins there.

* **`told`** — what the words of a text are to a flag is what the occurrences make of their places.
* **`arguments_eq_given`** — a text gives a flag what its words give.
* **`map_covered`** — the words that an occurrence covers are those with a role.
-/

namespace AdOps

open Text

namespace Flag

variable {f : Flag} {w rest cs : List Char} {i : Nat}

/-! ## The walk over the characters

The search looks at one character at a time. Taken together, its steps are these: it passes over the
inside of a word, over a word with no flag at it, or over a flag with the words that belong to it,
and then stands at a boundary again. What stands at a word is read from behind the lead, which is a
blank or the start of the text. -/

/-- Characters that are skipped are passed over. -/
theorem occurrencesFrom_skip (xs cs : List Char) (i : Nat) :
    f.occurrencesFrom i xs.length (xs ++ cs) = f.occurrencesFrom (i + xs.length) 0 cs := by
  induction xs generalizing i with
  | nil => rfl
  | cons x xs ih =>
    rw [List.length_cons, List.cons_append, occurrencesFrom, ih]
    congr 1
    omega

/-- No flag begins inside a word. -/
theorem occurrencesFrom_inside {xs : List Char} (hxs : ∀ c ∈ xs, isBlank c = false) (hi : i ≠ 0)
    (cs : List Char) :
    f.occurrencesFrom i 0 (xs ++ cs) = f.occurrencesFrom (i + xs.length) 0 cs := by
  induction xs generalizing i with
  | nil => rfl
  | cons x xs ih =>
    have hx : isBlank x = false := hxs x List.mem_cons_self
    have hnone : f.occurrenceAt? i (x :: (xs ++ cs)) = none := by
      unfold occurrenceAt?
      simp [hx, hi]
    rw [List.cons_append, occurrencesFrom, hnone]
    simp only
    rw [ih (fun c hc => hxs c (List.mem_cons_of_mem _ hc)) (Nat.succ_ne_zero i), List.length_cons]
    congr 1
    omega

/-- What can stand in front of the marker of a flag: nothing at the start of the text, or a blank.
-/
inductive IsLead : Nat → List Char → Prop where
  | start : IsLead 0 []
  | blank {i : Nat} {b : Char} (hb : isBlank b = true) : IsLead i [b]

/-- A lead is a gap. -/
theorem IsLead.isGap {lead : List Char} (h : IsLead i lead) : IsGap lead := by
  cases h with
  | start => exact isGap_nil
  | blank hb =>
    intro c hc
    rw [List.mem_singleton.1 hc, hb]

/-- Characters that begin and end with words. -/
structure IsPhrase (cs : List Char) : Prop where
  first : ∃ c rest, cs = c :: rest ∧ isBlank c = false
  last : ∃ c, cs.getLast? = some c ∧ isBlank c = false

/-- A word is a phrase. -/
theorem isPhrase_word (hw : IsWord w) : IsPhrase w where
  first := by
    cases w with
    | nil => exact absurd rfl hw.1
    | cons c w => exact ⟨c, w, rfl, hw.2 c List.mem_cons_self⟩
  last := ⟨_, List.getLast?_eq_some_getLast hw.1, hw.2 _ (List.getLast_mem hw.1)⟩

/-- Two words with anything in between are a phrase. -/
theorem isPhrase_append (hw : IsWord w) (between : List Char) {v : List Char} (hv : IsWord v) :
    IsPhrase (w ++ (between ++ v)) where
  first := by
    obtain ⟨c, rest, rfl, hc⟩ := (isPhrase_word hw).first
    exact ⟨c, _, List.cons_append, hc⟩
  last := by
    obtain ⟨c, hlast, hc⟩ := (isPhrase_word hv).last
    exact ⟨c, by simp [List.getLast?_append, hlast], hc⟩

variable {lead phrase behind : List Char} {value : String}

/-- What stands at a word decides what begins at the lead in front of it. -/
theorem occurrenceAt?_lead (hlead : IsLead i lead) (hphrase : IsPhrase phrase)
    (behind : List Char) :
    f.occurrenceAt? i (lead ++ (phrase ++ behind)) =
      (f.ahead? (phrase ++ behind)).map fun (value, rest) =>
        ⟨i, (lead ++ (phrase ++ behind)).take
          ((lead ++ (phrase ++ behind)).length - rest.tail.length), value⟩ := by
  obtain ⟨c, rest, rfl, hc⟩ := hphrase.first
  cases hlead with
  | start => simp [occurrenceAt?, hc]
  | blank hb => simp [occurrenceAt?, hb]

/-- A word that is nothing to the flag is passed over. -/
theorem occurrencesFrom_none (hlead : IsLead i lead) (hw : IsWord w)
    (h : f.ahead? (w ++ rest) = none) :
    f.occurrencesFrom i 0 (lead ++ (w ++ rest)) =
      f.occurrencesFrom (i + lead.length + w.length) 0 rest := by
  have hnone := occurrenceAt?_lead (f := f) hlead (isPhrase_word hw) rest
  rw [h, Option.map_none] at hnone
  -- At the start of the text the first step is at the word itself, elsewhere at the blank before
  -- it.
  cases hlead with
  | start =>
    obtain ⟨c, tail, rfl, hc⟩ := (isPhrase_word hw).first
    have hinside : ∀ x ∈ tail, isBlank x = false := fun x hx => hw.2 x (List.mem_cons_of_mem _ hx)
    rw [List.nil_append, List.cons_append] at hnone ⊢
    rw [occurrencesFrom, hnone]
    simp only
    rw [occurrencesFrom_inside hinside (Nat.succ_ne_zero 0)]
    simp only [List.length_nil, List.length_cons]
    congr 1
    omega
  | blank hb =>
    rw [List.cons_append, List.nil_append] at hnone ⊢
    rw [occurrencesFrom, hnone]
    simp only
    rw [occurrencesFrom_inside hw.2 (Nat.succ_ne_zero i)]
    rfl

/-- The search goes on where the flag ends. -/
theorem advance_eq (lead : List Char) (hphrase : IsPhrase phrase)
    (hbehind : atBoundary behind = true)
    (i : Nat) (value : String) :
    Occurrence.advance ⟨i, lead ++ (phrase ++ behind.take 1), value⟩ =
      lead.length + phrase.length := by
  obtain ⟨c, hlast, hc⟩ := hphrase.last
  have hne : phrase ≠ [] := by
    obtain ⟨_, _, rfl, -⟩ := hphrase.first
    exact List.cons_ne_nil _ _
  -- The blank behind is covered but not passed over, so that it can be the lead of the next flag.
  cases behind with
  | nil => simp [Occurrence.advance, hlast, hc]
  | cons b behind =>
    have hb : isBlank b = true := hbehind
    simp [Occurrence.advance, hb, ← Nat.add_assoc, hne]

/-- What is found at a phrase goes from the lead to the blank behind the phrase. -/
theorem occurrenceAt?_some (hlead : IsLead i lead) (hphrase : IsPhrase phrase)
    (h : f.ahead? (phrase ++ behind) = some (value, behind)) :
    f.occurrenceAt? i (lead ++ (phrase ++ behind)) =
      some ⟨i, lead ++ (phrase ++ behind.take 1), value⟩ := by
  have hsplit : lead ++ (phrase ++ behind) =
      (lead ++ (phrase ++ behind.take 1)) ++ behind.tail := by
    cases behind <;> simp
  have hcovered : (lead ++ (phrase ++ behind)).take
      ((lead ++ (phrase ++ behind)).length - behind.tail.length) =
        lead ++ (phrase ++ behind.take 1) := by
    rw [hsplit, List.length_append, Nat.add_sub_cancel, List.take_left]
  simp only [occurrenceAt?_lead hlead hphrase behind, h, Option.map_some, hcovered]

/-- A flag is found with the blank behind it, and the search goes on there. -/
theorem occurrencesFrom_some (hlead : IsLead i lead) (hphrase : IsPhrase phrase)
    (hbehind : atBoundary behind = true) (h : f.ahead? (phrase ++ behind) = some (value, behind)) :
    f.occurrencesFrom i 0 (lead ++ (phrase ++ behind)) =
      ⟨i, lead ++ (phrase ++ behind.take 1), value⟩ ::
        f.occurrencesFrom (i + lead.length + phrase.length) 0 behind := by
  have hfound := occurrenceAt?_some hlead hphrase h
  have hadvance := advance_eq lead hphrase hbehind i value
  obtain ⟨c, rest, hsplit⟩ : ∃ c rest, lead ++ phrase = c :: rest := by
    obtain ⟨c, rest, rfl, -⟩ := hphrase.first
    exact List.exists_cons_of_ne_nil (List.append_ne_nil_of_right_ne_nil _ (List.cons_ne_nil _ _))
  -- One character is passed over where the flag is found, and the others are skipped.
  have hlength : lead.length + phrase.length = rest.length + 1 := by
    rw [← List.length_append, hsplit, List.length_cons]
  rw [← List.append_assoc, hsplit, List.cons_append] at hfound ⊢
  rw [occurrencesFrom, hfound]
  simp only
  rw [hadvance, hlength, Nat.add_sub_cancel, occurrencesFrom_skip]
  congr 2
  omega

/-- What is found from a place on begins there or behind it. -/
theorem le_start {skip : Nat} {o : Occurrence} (h : o ∈ f.occurrencesFrom i skip cs) :
    i ≤ o.start := by
  induction cs generalizing i skip with
  | nil =>
    cases skip <;> exact absurd h List.not_mem_nil
  | cons c cs ih =>
    cases skip with
    | succ skip => exact Nat.le_of_succ_le (ih h)
    | zero =>
      rw [occurrencesFrom] at h
      split at h
      · next found hfound =>
        rcases List.mem_cons.1 h with rfl | h
        · unfold occurrenceAt? at hfound
          obtain ⟨_, -, rfl⟩ := Option.map_eq_some_iff.1 hfound
          exact Nat.le_refl _
        · exact Nat.le_of_succ_le (ih h)
      · exact Nat.le_of_succ_le (ih h)

end Flag

/-! ## The roles of places

A role says of a word what it is, an occurrence says of a stretch of text that it is a flag. `Told`
states that the two say the same: the values agree in their order, and a word is covered exactly if
it has a role, by one occurrence, as its marker or as its value. A list of occurrences is told word
by word from the back: a word that nothing covers is put in front, or an occurrence with the words
that it covers. -/

/-- The place of the marker, behind the blank in front. -/
def Occurrence.mark (o : Occurrence) : Nat := o.start + (o.covered.takeWhile isBlank).length

/-- What a word that begins at the place is to an occurrence that covers it: its marker or its value
word. -/
def Role.IsIn (o : Occurrence) (place : Nat) : Role → Prop
  | .outside => False
  | .whole value | .marker value => o.mark = place ∧ o.value = value
  | .operand => o.mark < place

/-- What a word that begins at the place is, going by all occurrences: nothing if none covers it,
and otherwise there is exactly one that does. -/
def Role.IsAt (found : List Occurrence) (place : Nat) : Role → Prop
  | .outside => found.filter (·.covers place) = []
  | role => ∃ o, found.filter (·.covers place) = [o] ∧ role.IsIn o place

/-- The occurrences give the values of the roles in their order, and make of each place its role. -/
structure Told (found : List Occurrence) (places : List (Nat × String)) (roles : List Role) :
    Prop where
  values : found.map Occurrence.value = roles.filterMap Role.given?
  isAt : List.Forall₂ (fun place role => role.IsAt found place.1) places roles

/-- A word with a role is covered by one occurrence. -/
theorem Role.exists_of_isAt {found : List Occurrence} {place : Nat} {role : Role}
    (hrole : role ≠ .outside) (h : role.IsAt found place) :
    ∃ o, found.filter (·.covers place) = [o] ∧ role.IsIn o place := by
  cases role with
  | outside => exact absurd rfl hrole
  | _ => exact h

/-- A role at a place depends on what covers the place only. -/
theorem Role.isAt_congr {found found' : List Occurrence} {place : Nat}
    (h : found.filter (·.covers place) = found'.filter (·.covers place)) {role : Role}
    (hrole : role.IsAt found place) : role.IsAt found' place := by
  cases role <;> simpa only [Role.IsAt, h] using hrole

/-- A role in the only occurrence that covers the place is the role at the place. -/
theorem Role.isAt_of_isIn {found : List Occurrence} {o : Occurrence} {place : Nat}
    (h : found.filter (·.covers place) = [o]) {role : Role} (hrole : role.IsIn o place) :
    role.IsAt found place := by
  cases role with
  | outside => exact hrole.elim
  | _ => exact ⟨o, h, hrole⟩

/-- A word is covered exactly if it is something to the flag. -/
theorem Role.IsAt.any_covers {found : List Occurrence} {place : Nat} {role : Role}
    (h : role.IsAt found place) : found.any (·.covers place) = decide (role ≠ .outside) := by
  by_cases hrole : role = .outside
  · subst hrole
    have hnone : found.filter (·.covers place) = [] := h
    rw [decide_eq_false (by simp)]
    exact List.any_eq_false.2 (List.filter_eq_nil_iff.1 hnone)
  · obtain ⟨o, ho, -⟩ := Role.exists_of_isAt hrole h
    have hmem : o ∈ found.filter (·.covers place) := by
      rw [ho]
      exact List.mem_singleton_self o
    rw [decide_eq_true hrole]
    exact List.any_eq_true.2 ⟨o, List.mem_filter.1 hmem⟩

namespace Told

variable {found : List Occurrence} {places front : List (Nat × String)}
  {roles frontRoles : List Role} {o : Occurrence}

theorem not_covers_of_lt {place : Nat} (h : place < o.start) : o.covers place = false := by
  simp only [Occurrence.covers, Bool.and_eq_false_iff, decide_eq_false_iff_not]
  omega

theorem not_covers_of_le {place : Nat} (h : o.stop ≤ place) : o.covers place = false := by
  simp only [Occurrence.covers, Bool.and_eq_false_iff, decide_eq_false_iff_not]
  omega

theorem nil : Told [] [] [] := ⟨rfl, .nil⟩

/-- A word in front of all occurrences is nothing to the flag. -/
theorem outside (h : Told found places roles) {place : Nat × String}
    (hfound : ∀ o ∈ found, place.1 < o.start) :
    Told found (place :: places) (.outside :: roles) where
  values := h.values
  isAt := .cons
    (List.filter_eq_nil_iff.2 fun o ho => by simp [not_covers_of_lt (hfound o ho)]) h.isAt

/-- An occurrence in front of the others is told by the words that it covers. -/
theorem cons (h : Told found places roles) {upto : Nat}
    (hroles : List.Forall₂ (fun place role => role.IsIn o place.1) front frontRoles)
    (hvalue : frontRoles.filterMap Role.given? = [o.value])
    (hfront : ∀ place ∈ front, o.covers place.1 = true ∧ place.1 < upto)
    (hfound : ∀ o' ∈ found, upto ≤ o'.start) (hplaces : ∀ place ∈ places, o.stop ≤ place.1) :
    Told (o :: found) (front ++ places) (frontRoles ++ roles) where
  values := by
    rw [List.map_cons, List.filterMap_append, hvalue, h.values]
    rfl
  isAt := by
    refine List.rel_append
      (((List.forall₂_and_left _ _).2 ⟨hfront, hroles⟩).imp fun place role ⟨hplace, hrole⟩ => ?_)
      (((List.forall₂_and_left _ _).2 ⟨hplaces, h.isAt⟩).imp fun place role ⟨hplace, hrole⟩ => ?_)
    -- In front, the new occurrence is the only one: the others begin further on.
    · refine Role.isAt_of_isIn ?_ hrole
      rw [List.filter_cons_of_pos (by simp [hplace.1]), List.filter_eq_nil_iff.2 fun o' ho' => ?_]
      simp [not_covers_of_lt (Nat.lt_of_lt_of_le hplace.2 (hfound o' ho'))]
    -- Behind, it covers nothing, so the roles are those from before.
    · refine Role.isAt_congr ?_ hrole
      rw [List.filter_cons_of_neg (by simp [not_covers_of_le hplace])]

end Told

namespace Flag

variable {f : Flag} {lead w rest phrase behind cs : List Char} {i : Nat} {value : String}

/-- The marker of an occurrence stands behind its lead. -/
theorem mark_eq (hlead : IsLead i lead) (hphrase : IsPhrase phrase) (behind : List Char)
    (value : String) :
    Occurrence.mark ⟨i, lead ++ (phrase ++ behind.take 1), value⟩ = i + lead.length := by
  obtain ⟨c, tail, rfl, hc⟩ := hphrase.first
  have htake : (lead ++ (c :: tail ++ behind.take 1)).takeWhile isBlank = lead := by
    rw [List.takeWhile_append_of_pos hlead.isGap, List.cons_append,
      List.takeWhile_cons_of_neg (by simp [hc]), List.append_nil]
  unfold Occurrence.mark
  rw [htake]

/-- A flag that is found is told by the words between the blank in front and the blank behind. -/
theorem told_found (hlead : IsLead i lead) (hphrase : IsPhrase phrase)
    (hbehind : atBoundary behind = true)
    (hahead : f.ahead? (phrase ++ behind) = some (value, behind))
    (front : List (Nat × String)) (frontRoles : List Role) {roles : List Role}
    (hroles : List.Forall₂ (fun place role =>
      role.IsIn ⟨i, lead ++ (phrase ++ behind.take 1), value⟩ place.1) front frontRoles)
    (hvalue : frontRoles.filterMap Role.given? = [value])
    (hfront : ∀ place ∈ front, i + lead.length ≤ place.1 ∧
      place.1 < i + lead.length + phrase.length)
    (hnext : Told (f.occurrencesFrom (i + lead.length + phrase.length) 0 behind)
      (placedFrom (i + lead.length + phrase.length) true behind) roles) :
    Told (f.occurrencesFrom i 0 (lead ++ (phrase ++ behind)))
      (front ++ placedFrom (i + lead.length + phrase.length) true behind)
      (frontRoles ++ roles) := by
  rw [occurrencesFrom_some hlead hphrase hbehind hahead]
  refine hnext.cons hroles hvalue (fun place hplace => ⟨?_, (hfront place hplace).2⟩)
    (fun o ho => le_start ho) fun place hplace => ?_
  -- The words in front lie in the phrase, and the others behind the blank that ends the occurrence.
  · have := hfront place hplace
    simp only [Occurrence.covers, Occurrence.stop, List.length_append, Bool.and_eq_true,
      decide_eq_true_eq]
    omega
  · have := boundary_le_of_mem hbehind hplace
    simp only [Occurrence.stop, List.length_append]
    omega

/-- What is told from a word on, if it is told from every boundary behind the word. -/
theorem told_word (hlead : IsLead i lead) (hw : IsWord w) (hrest : atBoundary rest = true)
    (ih : ∀ j cs, atBoundary cs = true → cs.length ≤ rest.length →
      Told (f.occurrencesFrom j 0 cs) (placedFrom j true cs) (f.roles (wordsOf cs))) :
    Told (f.occurrencesFrom i 0 (lead ++ (w ++ rest))) (placedFrom i true (lead ++ (w ++ rest)))
      (f.roles (wordsOf (lead ++ (w ++ rest)))) := by
  have hahead := ahead?_word (f := f) hw hrest
  have hpos : 0 < w.length := List.length_pos_iff.2 hw.1
  rw [wordsOf_gap hlead.isGap, wordsOf_word hw hrest, placedFrom_gap hlead.isGap,
    placedFrom_word hw _ hrest]
  unfold roles rolesFrom
  simp only [Bool.false_eq_true, if_false]
  -- By the role of the word by itself, which is what is read from it on: nothing, the flag in one
  -- word, or its marker with the next word as the value.
  cases hrole : f.roleOf (String.ofList w) (wordsOf rest).head? with
  | outside =>
    rw [hrole] at hahead
    rw [occurrencesFrom_none hlead hw hahead]
    -- The word is passed over, and all that is found begins behind it.
    refine (ih _ rest hrest (Nat.le_refl _)).outside fun o ho => ?_
    exact Nat.lt_of_lt_of_le (Nat.lt_add_of_pos_right hpos) (le_start ho)
  | whole value =>
    rw [hrole] at hahead
    -- The flag is this word, so the walk over the words goes on with the next one.
    refine told_found hlead (isPhrase_word hw) hrest hahead [_] [_]
      (.cons ⟨mark_eq hlead (isPhrase_word hw) rest value, rfl⟩ .nil) rfl ?_
      (ih _ rest hrest (Nat.le_refl _))
    simp [hpos]
  | marker value =>
    rw [hrole] at hahead
    -- The value is the next word, and the flag ends with it.
    obtain ⟨g, behind, rfl, hg, rfl | ⟨v, behind, rfl, hv, hbehind⟩⟩ := exists_gap rest
    · rw [wordsOf_gap hg] at hrole
      exact absurd (eq_of_roleOf_marker hrole) (by simp [wordsOf, runs])
    · rw [wordsOf_gap hg, wordsOf_word hv hbehind] at hrole ⊢
      obtain rfl : String.ofList v = value := Option.some.inj (eq_of_roleOf_marker hrole)
      have hphrase : IsPhrase (w ++ (g ++ v)) := isPhrase_append hw g hv
      have hmark := mark_eq hlead hphrase behind (String.ofList v)
      have hvpos : 0 < v.length := List.length_pos_iff.2 hv.1
      -- The walk over the words goes on behind two of them, the search behind the phrase of both.
      have hlength : i + lead.length + w.length + g.length + v.length =
          i + lead.length + (w ++ (g ++ v)).length := by
        simp only [List.length_append]
        omega
      rw [dropWhile_gap hg hv, dropWhile_word hv hbehind] at hahead
      rw [placedFrom_gap hg, placedFrom_word hv _ hbehind, hlength]
      rw [show w ++ (g ++ (v ++ behind)) = (w ++ (g ++ v)) ++ behind by simp] at hahead ⊢
      refine told_found hlead hphrase hbehind hahead [_, _] [_, .operand]
        (.cons ⟨hmark, rfl⟩ (.cons ?_ .nil)) rfl ?_ (ih _ behind hbehind ?_)
      · show Occurrence.mark _ < _
        omega
      · simp only [List.mem_cons, List.not_mem_nil, or_false, forall_eq_or_imp, forall_eq]
        omega
      · simp only [List.length_append]
        omega
  -- A word is a value only through the one before it.
  | operand => exact absurd hrole (roleOf_ne_operand _ _)

/-- **What the words of a text are to a flag is what the occurrences make of their places**, for a
text from its start or from a boundary on. -/
theorem told (f : Flag) (i : Nat) (cs : List Char) (h : i = 0 ∨ atBoundary cs = true) :
    Told (f.occurrencesFrom i 0 cs) (placedFrom i true cs) (f.roles (wordsOf cs)) := by
  -- Induction on the length: each step goes to the boundary behind a blank, a word or a flag.
  induction hn : cs.length using Nat.strongRecOn generalizing i cs with
  | ind n ih =>
    subst hn
    -- Behind a word less of the text is left, whatever stands in front of the word.
    have hbehind : ∀ lead w rest : List Char, cs = lead ++ (w ++ rest) → IsWord w →
        ∀ j cs', atBoundary cs' = true → cs'.length ≤ rest.length →
          Told (f.occurrencesFrom j 0 cs') (placedFrom j true cs') (f.roles (wordsOf cs')) := by
      intro lead w rest hcs hw j cs' hcs' hle
      have hpos : 0 < w.length := List.length_pos_iff.2 hw.1
      have hlength : cs.length = lead.length + (w.length + rest.length) := by
        rw [hcs, List.length_append, List.length_append]
      exact ih _ (by omega) j cs' (.inr hcs') rfl
    cases cs with
    | nil => exact .nil
    | cons c cs =>
      by_cases hc : isBlank c = true
      -- A blank in front of a boundary leads to no word; any other blank is the lead of one.
      · by_cases hcs : atBoundary cs = true
        · have hnone : f.occurrenceAt? i (c :: cs) = none := by
            unfold occurrenceAt?
            simp [hc, ahead?_boundary hcs]
          have hskip : f.occurrencesFrom i 0 (c :: cs) = f.occurrencesFrom (i + 1) 0 cs := by
            rw [occurrencesFrom, hnone]
          rw [hskip, placedFrom, if_pos hc, wordsOf, runs_cons_blank hc]
          exact ih _ (Nat.lt_succ_self _) (i + 1) cs (.inr hcs) rfl
        · cases cs with
          | nil => exact absurd rfl hcs
          | cons d cs =>
            obtain ⟨w, rest, hword, hw, hrest⟩ := exists_word (Bool.eq_false_iff.2 hcs) cs
            have hcs : c :: d :: cs = [c] ++ (w ++ rest) := by rw [hword, List.singleton_append]
            rw [hcs]
            exact told_word (.blank hc) hw hrest (hbehind _ w rest hcs hw)
      -- No blank and no boundary: this is the start of the text, and a word begins it.
      · obtain rfl : i = 0 := h.resolve_right (by simpa [atBoundary] using hc)
        obtain ⟨w, rest, hword, hw, hrest⟩ := exists_word (Bool.eq_false_iff.2 hc) cs
        have hcs : c :: cs = [] ++ (w ++ rest) := hword
        rw [hcs]
        exact told_word .start hw hrest (hbehind [] w rest hcs hw)

/-! ## What the passes over a line read off it

The first pass reads the values of a flag, and the second one leaves out the words that it covers.
The two parts of `Told` say what these are for the words. -/

/-- **A text gives a flag what its words give.** -/
theorem arguments_eq_given (f : Flag) (cs : List Char) :
    f.arguments cs = f.given (wordsOf cs) := by
  have hvalues := (f.told 0 cs (.inl rfl)).values
  have hgiven : f.given (wordsOf cs) =
      ((f.roles (wordsOf cs)).filterMap Role.given?).filterMap f.argument? := by
    rw [List.filterMap_filterMap]
    rfl
  rw [hgiven, ← hvalues, List.filterMap_map]
  rfl

/-- A word is covered by an occurrence of the flag exactly if it has a role. -/
theorem map_covered (f : Flag) (cs : List Char) :
    (placedWords cs).map (fun place => (f.occurrences cs).any (·.covers place.1)) =
      (f.roles (wordsOf cs)).map fun role => decide (role ≠ .outside) := by
  -- Place by place, a word is covered if it has a role.
  rw [← List.forall₂_eq_eq_eq, List.forall₂_map_left_iff, List.forall₂_map_right_iff]
  exact (f.told 0 cs (.inl rfl)).isAt.imp fun place role hrole => hrole.any_covers

end Flag

end AdOps
