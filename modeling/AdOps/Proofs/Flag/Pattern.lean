import AdOps.Proofs.Flag.Exclusive
import AdOps.Proofs.Flag.Scan
import AdOps.Proofs.Text.Case

/-!
# The pattern of a flag

What counts as a flag in a text can be said without a search: a phrase that is written like the
flag, behind a blank or the start of the text and in front of a blank or the end. Whether such an
occurrence begins at a place is told by the text alone, and the occurrence by the place. One begins
inside of another of the same flag only if the value of that is the marker of the flag once more.

* **`ahead?_eq_some_iff`** — what is read from a marker on is what is written there.
* **`occurrenceAt?_eq_some_iff`** — what is found at a place is what stands there.
* **`StandsIn.fields_of_inside`** — occurrences of a flag do not overlap, but for those of `/fields`.
-/

namespace AdOps

open Text

namespace Flag

variable {f : Flag} {cs body phrase behind : List Char} {value : String} {o o' : Occurrence}

/-! ## Phrases

What is written like a flag is a phrase: it begins with the marker and ends with the name or the
value, so neither of its ends is a blank. Inside of it there is at most one gap. -/

/-- The characters are written like the flag: a marker, a spelling of the flag and, unless it is a
switch, a value that it accepts behind a colon or blanks. -/
inductive Writes (f : Flag) (phrase : List Char) : (value : String) → Prop where
  | switch {name : List Char} (hmark : unmark phrase = some name) (hname : f.isSpelled name = true)
    (hswitch : f.isSwitch = true) : f.Writes phrase ""
  | colon {name value : List Char} (hmark : unmark phrase = some (name ++ ':' :: value))
    (hname : f.isSpelled name = true) (hword : IsWord value) (hvalue : f.accepts value = true) :
    f.Writes phrase (String.ofList value)
  | spaced {name gap value : List Char} (hmark : unmark phrase = some (name ++ (gap ++ value)))
    (hname : f.isSpelled name = true) (hgap : IsGap gap) (hne : gap ≠ []) (hword : IsWord value)
    (hvalue : f.accepts value = true) : f.Writes phrase (String.ofList value)

/-- The two markers are a slash and two hyphens. -/
theorem unmark_eq_some_iff :
    unmark cs = some body ↔ cs = '/' :: body ∨ cs = '-' :: '-' :: body := by
  constructor
  · intro h
    unfold unmark at h
    split at h
    · exact .inl (by rw [Option.some.inj h])
    · exact .inr (by rw [Option.some.inj h])
    · exact absurd h (by simp)
  · rintro (rfl | rfl) <;> rfl

/-- A marker is told by the characters in front. -/
theorem unmark_append_of_some (h : unmark cs = some body) (rest : List Char) :
    unmark (cs ++ rest) = some (body ++ rest) := by
  rcases unmark_eq_some_iff.1 h with rfl | rfl <;> rfl

/-- A marker stands in front of the characters behind it, whatever these are. -/
theorem exists_marker (h : unmark cs = some body) :
    ∃ marker, IsWord marker ∧ cs = marker ++ body ∧
      ∀ body', unmark (marker ++ body') = some body' := by
  rcases unmark_eq_some_iff.1 h with rfl | rfl
  · exact ⟨['/'], isWord_of_all (by decide), rfl, fun _ => rfl⟩
  · exact ⟨['-', '-'], isWord_of_all (by decide), rfl, fun _ => rfl⟩

/-- A spelling is a word. -/
theorem isWord_of_isSpelled (h : f.isSpelled cs = true) : IsWord cs := by
  obtain ⟨word, hword, heq⟩ := isSpelled_iff.1 h
  have hspellings : ∀ f : Flag, ∀ word ∈ f.spellings,
      (!word.toList.isEmpty && word.toList.all (!isBlank ·)) = true := by
    intro f
    cases f <;> decide
  have hfolded : IsWord (cs.map fold) := heq ▸ isWord_of_all (hspellings f word hword)
  refine ⟨fun hnil => hfolded.1 (by rw [hnil]; rfl), fun c hc => ?_⟩
  rw [← isBlank_fold]
  exact hfolded.2 _ (List.mem_map_of_mem hc)

/-- A phrase begins and ends with words. -/
theorem Writes.isPhrase (h : f.Writes phrase value) : IsPhrase phrase := by
  cases h with
  | switch hmark hname =>
    obtain ⟨marker, hmarker, rfl, -⟩ := exists_marker hmark
    exact isPhrase_append hmarker [] (isWord_of_isSpelled hname)
  | @colon name value hmark _ hword =>
    obtain ⟨marker, hmarker, rfl, -⟩ := exists_marker hmark
    rw [show marker ++ (name ++ ':' :: value) = marker ++ ((name ++ [':']) ++ value) by simp]
    exact isPhrase_append hmarker _ hword
  | @spaced name gap value hmark _ _ _ hword =>
    obtain ⟨marker, hmarker, rfl, -⟩ := exists_marker hmark
    rw [show marker ++ (name ++ (gap ++ value)) = marker ++ ((name ++ gap) ++ value) by simp]
    exact isPhrase_append hmarker _ hword

/-! ## What is read from a marker on

Reading cuts the characters behind the marker where the name ends: for a switch at a blank, for the
other flags at a blank or at a colon. Both directions go through this cut. From what is read, the
phrase is put together again; and of a phrase, the cut is where its name ends. -/

/-- The characters that continue the name of a flag. -/
def inName (f : Flag) (c : Char) : Bool := !isBlank c && (f.isSwitch || c ≠ ':')

/-- Behind the name stands nothing, a blank or the colon in front of a value. -/
def EndsName (f : Flag) (after : List Char) : Prop := ∀ c ∈ after.head?, f.inName c = false

/-- A name ends at a boundary. -/
theorem endsName_boundary (hbehind : atBoundary behind = true) : f.EndsName behind := by
  intro c hc
  cases behind with
  | nil => exact absurd hc (by simp)
  | cons b behind =>
    obtain rfl : b = c := Option.some.inj hc
    simp [inName, show isBlank b = true from hbehind]

/-- Behind a name stands a blank, or the colon of a flag that takes a value. -/
theorem endsName_cases {c : Char} {rest : List Char} (h : f.EndsName (c :: rest)) :
    isBlank c = true ∨ (f.isSwitch = false ∧ c = ':') := by
  have hc : f.inName c = false := h c rfl
  cases hblank : isBlank c with
  | true => exact .inl rfl
  | false => exact .inr (by simpa [inName, hblank] using hc)

/-- A spelling goes on to its last character. -/
theorem inName_of_isSpelled (h : f.isSpelled cs = true) : ∀ c ∈ cs, f.inName c = true := by
  intro c hc
  have hne : c ≠ ':' := fun heq => colon_not_mem h (heq ▸ hc)
  simp [inName, (isWord_of_isSpelled h).2 c hc, hne]

/-- The characters behind a marker are cut where the name ends. -/
theorem exists_name (f : Flag) (body : List Char) :
    ∃ name after, body = name ++ after ∧ (∀ c ∈ name, f.inName c = true) ∧ f.EndsName after := by
  refine ⟨_, _, List.takeWhile_append_dropWhile.symm, fun c hc => List.mem_takeWhile_imp hc, ?_⟩
  intro c hc
  have hne : body.dropWhile f.inName ≠ [] := by
    rintro hnil
    rw [hnil] at hc
    exact absurd hc (by simp)
  obtain rfl : (body.dropWhile f.inName).head hne = c :=
    Option.some.inj ((List.head?_eq_some_head hne).symm.trans hc)
  exact Bool.eq_false_iff.2 fun h => absurd h (by simpa using List.head_dropWhile_not f.inName hne)

/-- What is read, once the characters behind the marker are cut. -/
theorem ahead?_cut {name after : List Char} (hmark : unmark cs = some (name ++ after))
    (hname : ∀ c ∈ name, f.inName c = true) (hafter : f.EndsName after) :
    f.ahead? cs =
      if !f.isSpelled name then none
      else if f.isSwitch then some ("", after)
      else
        let value := (skipSeparator after).takeWhile (!isBlank ·)
        if f.accepts value then
          some (String.ofList value, (skipSeparator after).dropWhile (!isBlank ·))
        else none := by
  have hstop : after.takeWhile f.inName = [] ∧ after.dropWhile f.inName = after := by
    cases after with
    | nil => exact ⟨rfl, rfl⟩
    | cons c rest =>
      have hc : ¬ f.inName c = true := by simp [hafter c rfl]
      exact ⟨List.takeWhile_cons_of_neg hc, List.dropWhile_cons_of_neg hc⟩
  have htake : (name ++ after).takeWhile f.inName = name := by
    rw [List.takeWhile_append_of_pos hname, hstop.1, List.append_nil]
  have hdrop : (name ++ after).dropWhile f.inName = after := by
    rw [List.dropWhile_append_of_pos hname, hstop.2]
  have hread : f.ahead? cs =
      (unmark cs).bind fun body =>
        if !f.isSpelled (body.takeWhile f.inName) then none
        else if f.isSwitch then some ("", body.dropWhile f.inName)
        else
          let rest := skipSeparator (body.dropWhile f.inName)
          let value := rest.takeWhile (!isBlank ·)
          if f.accepts value then some (String.ofList value, rest.dropWhile (!isBlank ·))
          else none := rfl
  rw [hread, hmark, Option.bind_some, htake, hdrop]

/-- A value word is what stands in front of the next blank, if the flag accepts it. -/
theorem isWord_of_accepts (h : f.accepts (cs.takeWhile (!isBlank ·)) = true) :
    IsWord (cs.takeWhile (!isBlank ·)) := by
  refine ⟨fun hnil => ?_, fun c hc => ?_⟩
  · rw [hnil, accepts_nil] at h
    exact absurd h (by simp)
  · simpa using List.mem_takeWhile_imp hc

/-- What is read from a marker on is written there. -/
theorem exists_writes_of_ahead? (h : f.ahead? cs = some (value, behind)) :
    ∃ phrase, cs = phrase ++ behind ∧ f.Writes phrase value ∧ atBoundary behind = true := by
  obtain ⟨body, hbody, -⟩ := Option.bind_eq_some_iff.1 h
  obtain ⟨marker, -, rfl, hunmark⟩ := exists_marker hbody
  obtain ⟨name, after, rfl, hname, hafter⟩ := exists_name f body
  rw [ahead?_cut hbody hname hafter] at h
  -- The name has to be a spelling of the flag.
  split at h
  · exact absurd h (by simp)
  next hspelled =>
  have hspelled : f.isSpelled name = true := by simpa using hspelled
  -- A switch ends with its name; the other flags go on with a separator.
  split at h
  · next hswitch =>
    obtain ⟨rfl, rfl⟩ := Prod.mk.inj (Option.some.inj h)
    refine ⟨marker ++ name, by simp, .switch (hunmark name) hspelled hswitch, ?_⟩
    cases after with
    | nil => rfl
    | cons c rest => exact (endsName_cases hafter).resolve_right fun hc => by simp [hswitch] at hc
  · dsimp only at h
    split at h
    · next hvalue =>
      obtain ⟨rfl, rfl⟩ := Prod.mk.inj (Option.some.inj h)
      have hword := isWord_of_accepts hvalue
      have hcut : skipSeparator after = (skipSeparator after).takeWhile (!isBlank ·) ++
          (skipSeparator after).dropWhile (!isBlank ·) := List.takeWhile_append_dropWhile.symm
      have hboundary := atBoundary_dropWhile (skipSeparator after)
      generalize (skipSeparator after).takeWhile (!isBlank ·) = v at *
      generalize (skipSeparator after).dropWhile (!isBlank ·) = behind at *
      cases after with
      | nil =>
        -- There is no value behind the end of the text.
        exact absurd (List.append_eq_nil_iff.1 hcut.symm).1 hword.1
      | cons c rest =>
        rcases endsName_cases hafter with hblank | ⟨-, rfl⟩
        · have hgap : (c :: rest).takeWhile isBlank ≠ [] := by
            rw [List.takeWhile_cons_of_pos hblank]
            exact List.cons_ne_nil _ _
          have hskip : skipSeparator (c :: rest) = (c :: rest).dropWhile isBlank :=
            skipSeparator_boundary hblank
          rw [hskip] at hcut
          refine ⟨marker ++ (name ++ ((c :: rest).takeWhile isBlank ++ v)), ?_,
            .spaced (hunmark _) hspelled (fun x hx => List.mem_takeWhile_imp hx) hgap hword hvalue,
            hboundary⟩
          simp only [List.append_assoc]
          rw [← hcut, List.takeWhile_append_dropWhile]
        · obtain rfl : rest = v ++ behind := hcut
          exact ⟨marker ++ (name ++ ':' :: v), by simp,
            .colon (hunmark _) hspelled hword hvalue, hboundary⟩
    · exact absurd h (by simp)

/-- What is written from a marker on is read there. -/
theorem Writes.ahead?_append (h : f.Writes phrase value) (hbehind : atBoundary behind = true) :
    f.ahead? (phrase ++ behind) = some (value, behind) := by
  -- One case for each way to write the flag: behind the name stands the end, the colon or the gap.
  cases h with
  | switch hmark hname hswitch =>
    rw [ahead?_cut (unmark_append_of_some hmark behind) (inName_of_isSpelled hname)
      (endsName_boundary hbehind)]
    simp [hname, hswitch]
  | @colon name value hmark hname hword hvalue =>
    have hswitch := isSwitch_of_accepts hvalue
    have hcolon : f.EndsName (':' :: (value ++ behind)) := fun c hc => by
      obtain rfl : ':' = c := Option.some.inj hc
      simp [inName, hswitch]
    have hmark' : unmark (phrase ++ behind) = some (name ++ ':' :: (value ++ behind)) := by
      rw [unmark_append_of_some hmark, List.append_assoc, List.cons_append]
    rw [ahead?_cut hmark' (inName_of_isSpelled hname) hcolon]
    simp [hname, hswitch, skipSeparator, takeWhile_word hword hbehind,
      dropWhile_word hword hbehind, hvalue]
  | @spaced name gap value hmark hname hgap hne hword hvalue =>
    have hswitch := isSwitch_of_accepts hvalue
    have hboundary : atBoundary (gap ++ (value ++ behind)) = true := by
      obtain ⟨b, gap, rfl⟩ := List.exists_cons_of_ne_nil hne
      exact hgap b List.mem_cons_self
    have hmark' : unmark (phrase ++ behind) = some (name ++ (gap ++ (value ++ behind))) := by
      rw [unmark_append_of_some hmark, List.append_assoc, List.append_assoc]
    rw [ahead?_cut hmark' (inName_of_isSpelled hname) (endsName_boundary hboundary),
      skipSeparator_boundary hboundary, dropWhile_gap hgap hword]
    simp [hname, hswitch, takeWhile_word hword hbehind, dropWhile_word hword hbehind, hvalue]

/-- **What is read from a marker on is what is written there**, up to a blank or the end. -/
theorem ahead?_eq_some_iff :
    f.ahead? cs = some (value, behind) ↔
      ∃ phrase, cs = phrase ++ behind ∧ f.Writes phrase value ∧ atBoundary behind = true := by
  constructor
  · exact exists_writes_of_ahead?
  · rintro ⟨phrase, rfl, hphrase, hbehind⟩
    exact hphrase.ahead?_append hbehind

/-! ## Occurrences

An occurrence covers the blank in front of its phrase, unless it begins the text, and the blank
behind. The one in front is where the search is when it finds the occurrence, and the one behind is
where it goes on. -/

/-- An occurrence of the flag stands in the text: a phrase behind a blank or the start of the text,
and in front of a blank or the end, which are covered with it. -/
inductive StandsIn (f : Flag) : (cs : List Char) → (o : Occurrence) → Prop where
  | mk {front lead phrase behind : List Char} {value : String} (hlead : IsLead front.length lead)
    (hphrase : f.Writes phrase value) (hbehind : atBoundary behind = true) :
    f.StandsIn (front ++ (lead ++ (phrase ++ behind)))
      ⟨front.length, lead ++ (phrase ++ behind.take 1), value⟩

/-- What is found at a place begins with a lead and a phrase. -/
theorem exists_phrase {i : Nat} (h : f.occurrenceAt? i cs = some o) :
    ∃ lead phrase behind value, cs = lead ++ (phrase ++ behind) ∧ IsLead i lead ∧
      f.Writes phrase value ∧ atBoundary behind = true := by
  unfold occurrenceAt? at h
  obtain ⟨⟨value, behind⟩, hfound, -⟩ := Option.map_eq_some_iff.1 h
  cases cs with
  | nil => exact absurd hfound (by simp)
  | cons c rest =>
    dsimp only at hfound
    -- At a blank the flag is looked for behind it; anywhere else only at the start of the text.
    split at hfound
    · next hc =>
      obtain ⟨phrase, rfl, hphrase, hbehind⟩ := ahead?_eq_some_iff.1 hfound
      exact ⟨[c], phrase, behind, value, rfl, .blank hc, hphrase, hbehind⟩
    · split at hfound
      · next hi =>
        subst hi
        obtain ⟨phrase, hcs, hphrase, hbehind⟩ := ahead?_eq_some_iff.1 hfound
        exact ⟨[], phrase, behind, value, hcs, .start, hphrase, hbehind⟩
      · exact absurd hfound (by simp)

/-- **What is found at a place is the occurrence that begins there.** -/
theorem occurrenceAt?_eq_some_iff {front rest : List Char} :
    f.occurrenceAt? front.length rest = some o ↔
      f.StandsIn (front ++ rest) o ∧ o.start = front.length := by
  constructor
  · intro h
    obtain ⟨lead, phrase, behind, value, rfl, hlead, hphrase, hbehind⟩ := exists_phrase h
    rw [occurrenceAt?_some hlead hphrase.isPhrase (hphrase.ahead?_append hbehind)] at h
    obtain rfl := Option.some.inj h
    exact ⟨.mk hlead hphrase hbehind, rfl⟩
  · rintro ⟨hstands, hstart⟩
    generalize hcs : front ++ rest = cs at hstands
    obtain @⟨front', lead, phrase, behind, value, hlead, hphrase, hbehind⟩ := hstands
    obtain ⟨rfl, rfl⟩ := List.append_inj hcs hstart.symm
    exact occurrenceAt?_some hlead hphrase.isPhrase (hphrase.ahead?_append hbehind)

/-- An occurrence is told by the place where it begins. -/
theorem StandsIn.eq_of_start (h : f.StandsIn cs o) (h' : f.StandsIn cs o')
    (hstart : o.start = o'.start) : o = o' := by
  obtain @⟨front, lead, phrase, behind, value, hlead, hphrase, hbehind⟩ := h
  exact Option.some.inj <|
    (occurrenceAt?_eq_some_iff.2 ⟨.mk hlead hphrase hbehind, rfl⟩).symm.trans
      (occurrenceAt?_eq_some_iff.2 ⟨h', hstart.symm⟩)

end Flag

/-- Where the search goes on behind an occurrence. -/
def Occurrence.resume (o : Occurrence) : Nat := o.start + o.advance

namespace Flag

variable {f : Flag} {cs front lead phrase behind : List Char} {value : String} {o o' : Occurrence}

/-- The search goes on at the blank behind the phrase. -/
theorem resume_eq (lead : List Char) (hphrase : f.Writes phrase value)
    (hbehind : atBoundary behind = true) (i : Nat) :
    Occurrence.resume ⟨i, lead ++ (phrase ++ behind.take 1), value⟩ =
      i + (lead.length + phrase.length) := by
  unfold Occurrence.resume
  rw [advance_eq lead hphrase.isPhrase hbehind]

/-- The search goes on behind the place where the occurrence begins, and within the text. -/
theorem StandsIn.start_lt (h : f.StandsIn cs o) : o.start < o.resume ∧ o.resume ≤ cs.length := by
  obtain @⟨front, lead, phrase, behind, value, hlead, hphrase, hbehind⟩ := h
  have hpos : 0 < phrase.length := by
    obtain ⟨c, rest, rfl, -⟩ := hphrase.isPhrase.first
    exact Nat.succ_pos _
  rw [resume_eq lead hphrase hbehind]
  simp only [List.length_append]
  omega

/-! ## Occurrences inside of others

Two occurrences of a flag may share a blank, which ends the one and begins the other. One that
begins further in begins at a blank inside of the phrase of the other, and there is none but the
gap. So it begins with the value of that phrase, and this value carries a marker. -/

/-- A lead is one character at most. -/
theorem IsLead.length_le {i : Nat} (h : IsLead i lead) : lead.length ≤ 1 := by
  cases h <;> simp

/-- Behind the start of the text a lead is one blank. -/
theorem IsLead.eq_singleton {i : Nat} (h : IsLead i lead) (hi : 0 < i) :
    ∃ b, lead = [b] ∧ isBlank b = true := by
  cases h with
  | start => exact absurd hi (Nat.lt_irrefl 0)
  | @blank _ b hb => exact ⟨b, rfl, hb⟩

/-- A list that begins with a blank is cut behind the word in front of it. -/
theorem exists_of_word_append {w xs front rest : List Char} {b : Char} (hw : IsWord w)
    (hb : isBlank b = true) (h : w ++ xs = front ++ b :: rest) :
    ∃ front', front = w ++ front' ∧ xs = front' ++ b :: rest := by
  rcases List.append_eq_append_iff.1 h with ⟨front', hfront, hxs⟩ | ⟨w', hword, hrest⟩
  · exact ⟨front', hfront, hxs⟩
  · cases w' with
    | nil => exact ⟨[], by simpa using hword.symm, by simpa using hrest.symm⟩
    | cons d w' =>
      obtain ⟨rfl, -⟩ := List.cons.inj hrest
      have hmem : b ∈ w := hword ▸ List.mem_append_right _ List.mem_cons_self
      rw [hw.2 b hmem] at hb
      exact absurd hb (by simp)

/-- Only the value of a phrase begins behind a blank in the phrase. -/
theorem Writes.value_of_blank {rest : List Char} {b c : Char} (h : f.Writes phrase value)
    (hphrase : phrase = front ++ b :: rest) (hb : isBlank b = true)
    (hrest : (rest ++ behind).head? = some c) (hc : isBlank c = false) :
    rest = value.toList ∧ IsWord rest ∧ f.accepts rest = true := by
  have hmem : b ∈ phrase := hphrase ▸ List.mem_append_right _ List.mem_cons_self
  have hword : ∀ {w : List Char}, IsWord w → b ∉ w := fun hw hmem => by
    rw [hw.2 b hmem] at hb
    exact absurd hb (by simp)
  -- By the ways to write the flag: a marker, a name and a value are words, so the blank is in the
  -- gap.
  cases h with
  | switch hmark hname =>
    obtain ⟨marker, hmarker, rfl, -⟩ := exists_marker hmark
    rcases List.mem_append.1 hmem with hmem | hmem
    · exact absurd hmem (hword hmarker)
    · exact absurd hmem (hword (isWord_of_isSpelled hname))
  | colon hmark hname hvalue =>
    obtain ⟨marker, hmarker, rfl, -⟩ := exists_marker hmark
    rcases List.mem_append.1 hmem with hmem | hmem
    · exact absurd hmem (hword hmarker)
    rcases List.mem_append.1 hmem with hmem | hmem
    · exact absurd hmem (hword (isWord_of_isSpelled hname))
    rcases List.mem_cons.1 hmem with rfl | hmem
    · exact absurd hb (by decide)
    · exact absurd hmem (hword hvalue)
  | @spaced name gap value hmark hname hgap hne hvalue haccepts =>
    obtain ⟨marker, hmarker, rfl, -⟩ := exists_marker hmark
    obtain ⟨front₁, -, hname'⟩ := exists_of_word_append hmarker hb hphrase
    obtain ⟨front₂, -, hgap'⟩ := exists_of_word_append (isWord_of_isSpelled hname) hb hname'
    rcases List.append_eq_append_iff.1 hgap' with ⟨value', -, hcut⟩ | ⟨gap', hgapcut, hcut⟩
    · exact absurd (hcut ▸ List.mem_append_right _ List.mem_cons_self) (hword hvalue)
    · cases gap' with
      | nil =>
        obtain rfl : b :: rest = value := hcut
        exact absurd List.mem_cons_self (hword hvalue)
      | cons d gap' =>
        obtain ⟨rfl, rfl⟩ := List.cons.inj hcut
        cases gap' with
        | nil => exact ⟨by simp, hvalue, haccepts⟩
        | cons e gap' =>
          -- The gap would go on.
          obtain rfl : e = c := Option.some.inj hrest
          rw [hgap e (by simp [hgapcut])] at hc
          exact absurd hc (by simp)

/-- A character at a place inside a part of a text cuts this part. -/
theorem exists_inside {front' part rest : List Char} {b : Char}
    (h : front ++ b :: rest = front' ++ (part ++ behind)) (hle : front'.length ≤ front.length)
    (hlt : front.length < front'.length + part.length) :
    ∃ before after, part = before ++ b :: after ∧ after ++ behind = rest := by
  obtain ⟨before, rfl, hpart⟩ : ∃ before, front = front' ++ before ∧
      part ++ behind = before ++ b :: rest := by
    rcases List.append_eq_append_iff.1 h with ⟨beyond, rfl, hrest⟩ | ⟨before, rfl, hrest⟩
    · obtain rfl : beyond = [] := by
        rw [List.length_append] at hle
        exact List.length_eq_zero_iff.1 (by omega)
      exact ⟨[], by simp, by simpa using hrest.symm⟩
    · exact ⟨before, rfl, hrest⟩
  rw [List.length_append] at hlt
  rcases List.append_eq_append_iff.1 hpart with ⟨beyond, rfl, -⟩ | ⟨after, rfl, hrest⟩
  · rw [List.length_append] at hlt
    omega
  · cases after with
    | nil =>
      rw [List.append_nil] at hlt
      omega
    | cons d after =>
      obtain ⟨rfl, hbehind⟩ := List.cons.inj hrest
      exact ⟨before, after, rfl, hbehind.symm⟩

/-- **An occurrence inside of another one of the same flag** is told by the value of that: it is one
of `/fields` and looks like a marker. -/
theorem StandsIn.fields_of_inside (h : f.StandsIn cs o) (h' : f.StandsIn cs o')
    (hlt : o'.start < o.start) (hinside : o.start < o'.resume) :
    f = .fields ∧ ['-', '-'] <+: o'.value.toList := by
  obtain @⟨front, lead, phrase, behind, value, hlead, hphrase, hbehind⟩ := h
  generalize hcs : front ++ (lead ++ (phrase ++ behind)) = cs at h'
  obtain @⟨front', lead', phrase', behind', value', hlead', hphrase', hbehind'⟩ := h'
  rw [resume_eq lead' hphrase' hbehind'] at hinside
  simp only at hlt hinside
  -- The blank in front of the inner one is a character of the outer phrase.
  obtain ⟨b, rfl, hb⟩ := hlead.eq_singleton (Nat.zero_lt_of_lt hlt)
  have hshort : lead'.length ≤ 1 := hlead'.length_le
  obtain ⟨c, tail, rfl, hc⟩ := hphrase.isPhrase.first
  have hcs' : front ++ b :: (c :: tail ++ behind) = (front' ++ lead') ++ (phrase' ++ behind') := by
    simpa using hcs
  obtain ⟨before, rest, rfl, hcut⟩ := exists_inside hcs'
    (by simp only [List.length_append]; omega) (by simp only [List.length_append]; omega)
  have hfirst : (rest ++ behind').head? = some c := by
    rw [hcut]
    rfl
  obtain ⟨rfl, hword, haccepts⟩ := hphrase'.value_of_blank rfl hb hfirst hc
  -- A phrase stands where the value does, so the value begins with a marker.
  obtain ⟨body, hbody, -⟩ := Option.bind_eq_some_iff.1 (hphrase.ahead?_append hbehind)
  rw [← hcut, unmark_append hword hbehind'] at hbody
  exact fields_of_accepts haccepts (by simpa using Option.isSome_of_eq_some hbody)

end Flag

end AdOps
