import AdOps.Proofs.CommandLine.Complete
import AdOps.Proofs.CommandLine.Intervals

/-!
# One interval more on a line

The default interval could as well be typed. It is one word, blanks around it aside, and it goes into
the first slot left open that it fits. This is the slot for intervals, unless the word is the one for
"all" and an identifier is open as well. No other slot takes it: the words that are written as
intervals end on a letter, and numbers do not.

* **`words_default`** — a valid default is one word, blanks around it aside.
* **`exists_left`** — one word more goes into the first slot left open that it fits.
* **`exists_slot`** — where one more interval goes.
-/

namespace AdOps

/-! ## Words that are written as intervals

The last character tells the kinds of slots apart. A number ends on a digit and an interval on a
letter; an identifier in digits ends on a digit, one in hexadecimal has a hyphen, and an interval
has none. What is left is the word for "all", which may be any word. -/

namespace Interval

variable {cs : List Char}

/-- What is written as an interval ends on a letter. -/
theorem exists_last_of_isWritten (h : isWritten cs = true) :
    ∃ last, cs.getLast? = some last ∧ Text.isLetter last = true := by
  rcases isWritten_iff.1 h with ⟨n, digits, unit, rfl, -, hunit, -⟩ | ⟨hne, hletters⟩
  · exact ⟨unit, List.getLast?_concat, isLetter_of_isUnit_fold hunit⟩
  · exact ⟨cs.getLast hne, List.getLast?_eq_getLast_of_ne_nil hne, hletters _ (List.getLast_mem hne)⟩

end Interval

namespace SlotKind

variable {cs : List Char}

/-- A threshold ends on a digit, with a fraction or without. -/
theorem last_digit_of_isThreshold (h : isThreshold cs = true) :
    ∀ last, cs.getLast? = some last → Text.isDigit last = true := by
  have hsplit : cs = cs.takeWhile Text.isDigit ++ cs.dropWhile Text.isDigit :=
    List.takeWhile_append_dropWhile.symm
  intro last hlast
  unfold isThreshold at h
  dsimp only at h
  -- Behind the whole part there is nothing, or a point and the fraction, or something else.
  split at h
  · next hrest =>
    rw [hrest, List.append_nil] at hsplit
    rw [hsplit] at hlast
    exact List.all_eq_true.1 List.all_takeWhile last (List.mem_of_getLast? hlast)
  · next fraction hrest =>
    rw [hsplit, hrest, List.getLast?_append, List.getLast?_cons] at hlast
    cases hfraction : fraction.getLast? with
    | none =>
      rw [List.getLast?_eq_none_iff.1 hfraction] at h
      exact absurd h (by decide)
    | some c =>
      rw [hfraction] at hlast
      obtain rfl := Option.some.inj hlast
      exact Text.isDigit_of_isDigits h _ (List.mem_of_getLast? hfraction)
  · exact absurd h (by simp)

/-- The eighth character of a UUID is a hyphen. -/
theorem hyphen_mem_of_isUuid (h : isUuid cs = true) : '-' ∈ cs := by
  obtain ⟨hlength, hall⟩ := Bool.and_eq_true_iff.1 h
  have hlt : 8 < cs.length := by
    rw [of_decide_eq_true hlength]
    decide
  have hmem : (cs[8], 8) ∈ cs.zipIdx := by
    rw [List.mem_zipIdx_iff_getElem?]
    exact List.getElem?_eq_getElem hlt
  have hhyphen := List.all_eq_true.1 hall _ hmem
  simp only [true_or, if_true, decide_eq_true_eq] at hhyphen
  exact hhyphen ▸ List.getElem_mem hlt

/-- **An interval fits no slot but one for intervals**, unless it is the word for "all". -/
theorem fits_of_isWritten {s : Settings} {w : String} (h : Interval.isWritten w.toList = true)
    (kind : SlotKind) : kind.fits s w = true ↔
      kind = .interval ∨ kind = .identifier ∧ Text.sameIgnoringCase w s.allAlias = true := by
  obtain ⟨last, hlast, hletter⟩ := Interval.exists_last_of_isWritten h
  have hno : Text.isDigit last = false := Text.isDigit_of_isLetter hletter
  have hdigits : Text.isDigits w.toList = false := Bool.eq_false_iff.2 fun hdigits => by
    rw [Text.isDigit_of_isDigits hdigits last (List.mem_of_getLast? hlast)] at hno
    exact absurd hno (by simp)
  -- By kind of slot: each of the other kinds wants a digit at the end, or a hyphen.
  cases kind with
  | identifier =>
    have huuid : isUuid w.toList = false := Bool.eq_false_iff.2 fun huuid => by
      rcases Interval.letter_or_digit_of_isWritten h '-' (hyphen_mem_of_isUuid huuid) with h | h <;>
        exact absurd h (by decide)
    simp [fits, hdigits, huuid]
  | interval => simp [fits, h]
  | threshold =>
    have hthreshold : isThreshold w.toList = false := Bool.eq_false_iff.2 fun hthreshold => by
      rw [last_digit_of_isThreshold hthreshold last hlast] at hno
      exact absurd hno (by simp)
    simp [fits, hthreshold]
  | limit => simp [fits, hdigits]

end SlotKind

/-! ## The default as a word

Settings are valid only if the default can be read as an interval, with blanks around it cut off.
What can be read is written as an interval, and so it is one word. -/

namespace Settings.Valid

variable {s : Settings}

/-- In valid settings the default interval can be read. -/
theorem isSome_read? (h : s.Valid) : (Interval.read? s.defaultTimeInterval).isSome = true := by
  unfold Valid invalid? at h
  split at h
  · exact absurd h (by simp)
  split at h
  · exact absurd h (by simp)
  split at h
  · exact absurd h (by simp)
  · next hread => simpa [Option.isSome_iff_ne_none] using hread

/-- A valid default is an interval in ASCII, blanks around it aside. -/
theorem isWritten_default (h : s.Valid) :
    Interval.isWritten (Text.trim s.defaultTimeInterval).toList = true ∧
      Text.IsAscii (Text.trim s.defaultTimeInterval).toList := by
  have hread := h.isSome_read?
  unfold Interval.read? Text.asciiLower at hread
  rw [String.toList_ofList] at hread
  have hwritten := Interval.isWritten_of_ofChars? hread
  obtain ⟨i, hi⟩ := Option.isSome_iff_exists.1 hread
  refine ⟨hwritten, ?_⟩
  -- Either shape is read in ASCII only.
  rcases Interval.isWritten_iff.1 hwritten with ⟨n, hcount⟩ | ⟨hne, hletters⟩
  · exact ((Interval.ofChars?_of_isCount hcount).1 hi).1
  · exact ((Interval.ofChars?_of_letters hne hletters).1 hi).1

/-- **A valid default is one word**, blanks around it aside. -/
theorem words_default (h : s.Valid) :
    Text.words s.defaultTimeInterval = [Text.trim s.defaultTimeInterval] := by
  have hwritten := h.isWritten_default.1
  refine Text.words_of_trim ⟨fun hnil => ?_, Interval.isBlank_of_isWritten hwritten⟩
  rw [hnil] at hwritten
  exact absurd hwritten (by decide)

/-- The flag for fields could take it. -/
theorem accepts_default (h : s.Valid) :
    Flag.fields.accepts (Text.trim s.defaultTimeInterval).toList = true := by
  obtain ⟨hwritten, hascii⟩ := h.isWritten_default
  obtain ⟨last, hlast, -⟩ := Interval.exists_last_of_isWritten hwritten
  refine Bool.and_eq_true_iff.2 ⟨?_, List.all_eq_true.2 fun c hc => ?_⟩
  · simpa using List.ne_nil_of_mem (List.mem_of_getLast? hlast)
  · unfold Flag.isFieldsChar
    rcases Interval.letter_or_digit_of_isWritten hwritten c hc with hletter | hdigit
    · simp [hletter]
    · rw [Text.isDigit_eq_of_ascii (hascii c hc)] at hdigit
      simp [hdigit]

end Settings.Valid

/-! ## One word more in the slots

Filling never goes back, so a further word changes nothing in front of the last word captured. The
slots behind that one are left open, and there the word goes into the first that it fits. The proof
is by induction on the slots, along the recursion of filling. -/

section fill

variable {s : Settings} {slots : List Slot} {words : List String} {captures : List Capture}

/-- Without words nothing is captured, and nothing may be required. -/
theorem fill_nil (h : fill s slots [] = some captures) :
    captures = [] ∧ ∀ slot ∈ slots, slot.optional = true := by
  induction slots with
  | nil => exact ⟨(Option.some.inj h).symm, fun _ hslot => absurd hslot List.not_mem_nil⟩
  | cons slot slots ih =>
    rw [fill] at h
    obtain ⟨hoptional, h⟩ := Option.ite_none_right_eq_some.1 h
    exact ⟨(ih h).1, List.forall_mem_cons.2 ⟨hoptional, (ih h).2⟩⟩

/-- Where nothing is required, no words fill the slots. -/
theorem fill_of_optional (h : ∀ slot ∈ slots, slot.optional = true) : fill s slots [] = some [] := by
  induction slots with
  | nil => rfl
  | cons slot slots ih =>
    obtain ⟨hslot, hslots⟩ := List.forall_mem_cons.1 h
    rw [fill, if_pos hslot, ih hslots]

/-- Where nothing is required, a word goes into the first slot that it fits. -/
theorem fill_single (h : ∀ slot ∈ slots, slot.optional = true) (w : String) :
    fill s slots [w] = (slots.find? (·.kind.fits s w)).map fun slot => [⟨slot, w⟩] := by
  induction slots with
  | nil => rfl
  | cons slot slots ih =>
    obtain ⟨hslot, hslots⟩ := List.forall_mem_cons.1 h
    by_cases hfits : slot.kind.fits s w = true
    · rw [fill, if_pos hfits, fill_of_optional hslots,
        List.find?_cons_of_pos (p := fun slot : Slot => slot.kind.fits s w) hfits]
      rfl
    · rw [fill, if_neg hfits, if_pos hslot, ih hslots,
        List.find?_cons_of_neg (p := fun slot : Slot => slot.kind.fits s w) hfits]

/-- Required slots are filled. -/
theorem mem_captures_of_required (h : fill s slots words = some captures) {slot : Slot}
    (hslot : slot ∈ slots) (hrequired : slot.optional = false) :
    slot ∈ captures.map Capture.slot := by
  induction slots generalizing words captures with
  | nil => exact absurd hslot List.not_mem_nil
  | cons first slots ih =>
    -- A slot that is passed over is optional.
    have hbehind : first.optional = true → slot ∈ slots := by
      intro hoptional
      rcases List.mem_cons.1 hslot with rfl | hmem
      · rw [hrequired] at hoptional
        exact absurd hoptional (by simp)
      · exact hmem
    cases words with
    | nil =>
      rw [fill] at h
      obtain ⟨hoptional, h⟩ := Option.ite_none_right_eq_some.1 h
      exact ih h (hbehind hoptional)
    | cons word words =>
      rw [fill] at h
      split at h
      · obtain ⟨rest, hrest, rfl⟩ := Option.map_eq_some_iff.1 h
        rcases List.mem_cons.1 hslot with rfl | hmem
        · exact List.mem_cons_self
        · exact List.mem_cons_of_mem _ (ih hrest hmem)
      · obtain ⟨hoptional, h⟩ := Option.ite_none_right_eq_some.1 h
        exact ih h (hbehind hoptional)

/-- The slots up to the last captured word, and those that are left open behind it. -/
structure Leaves (slots : List Slot) (captures : List Capture) (used left : List Slot) : Prop where
  slots_eq : slots = used ++ left
  sublist : (captures.map Capture.slot).Sublist used
  last : ∀ slot, used.getLast? = some slot → slot ∈ captures.map Capture.slot

/-- **One word more goes into the first slot left open** that it fits. -/
theorem exists_left (h : fill s slots words = some captures) :
    ∃ used left, Leaves slots captures used left ∧ ∀ w, fill s slots (words ++ [w]) =
      (left.find? (·.kind.fits s w)).map fun slot => captures ++ [⟨slot, w⟩] := by
  -- Induction on the slots: a slot that is passed over, or that takes a word, is used, and the rest
  -- is left to the slots behind it. Once the words have run out, all that remains is left.
  induction slots generalizing words captures with
  | nil =>
    cases words with
    | nil =>
      obtain rfl := Option.some.inj h
      exact ⟨[], [], ⟨rfl, .slnil, by simp⟩, fun w => rfl⟩
    | cons word words => exact absurd h (by simp [fill])
  | cons slot slots ih =>
    cases words with
    | nil =>
      obtain ⟨rfl, hoptional⟩ := fill_nil h
      exact ⟨[], slot :: slots, ⟨rfl, .slnil, by simp⟩, fill_single hoptional⟩
    | cons word words =>
      rw [fill] at h
      split at h
      · next hfits =>
        obtain ⟨rest, hrest, rfl⟩ := Option.map_eq_some_iff.1 h
        obtain ⟨used, left, hleaves, hmore⟩ := ih hrest
        refine ⟨slot :: used, left, ⟨by rw [hleaves.slots_eq, List.cons_append],
          hleaves.sublist.cons_cons slot, fun last hlast => ?_⟩, fun w => ?_⟩
        · rw [List.getLast?_cons] at hlast
          cases hused : used.getLast? with
          | none =>
            rw [hused] at hlast
            exact List.mem_cons.2 (.inl (Option.some.inj hlast).symm)
          | some other =>
            rw [hused] at hlast
            exact List.mem_cons_of_mem _ (hleaves.last last (hused.trans hlast))
        · rw [List.cons_append, fill, if_pos hfits, hmore, Option.map_map]
          rfl
      · next hfits =>
        obtain ⟨hoptional, h⟩ := Option.ite_none_right_eq_some.1 h
        obtain ⟨used, left, hleaves, hmore⟩ := ih h
        refine ⟨slot :: used, left, ⟨by rw [hleaves.slots_eq, List.cons_append],
          hleaves.sublist.cons slot, fun last hlast => ?_⟩, fun w => ?_⟩
        · rw [List.getLast?_cons] at hlast
          cases hused : used.getLast? with
          | none =>
            -- The word was captured behind the slot.
            have hnil := hleaves.sublist
            rw [List.getLast?_eq_none_iff.1 hused, List.sublist_nil, List.map_eq_nil_iff] at hnil
            have hwords := map_word_of_fill h
            rw [hnil] at hwords
            exact absurd hwords (by simp)
          | some other =>
            rw [hused] at hlast
            exact hleaves.last last (hused.trans hlast)
        · rw [List.cons_append, fill, if_neg hfits, if_pos hoptional, ← List.cons_append, hmore]

end fill

namespace Grammar

variable {s : Settings} {g : Grammar} {words : List String} {captures : List Capture} {w : String}

/-- The word names everything, and a slot for an identifier is open for it. -/
def NamesAll (s : Settings) (g : Grammar) (captures : List Capture) (w : String) : Prop :=
  Text.sameIgnoringCase w s.allAlias = true ∧
    ∃ slot ∈ g.slots, slot.kind = .identifier ∧ slot ∉ captures.map Capture.slot

instance (s : Settings) (g : Grammar) (captures : List Capture) (w : String) :
    Decidable (NamesAll s g captures w) := by
  unfold NamesAll
  infer_instance

/-- If an identifier can be left out and a window is read, then the slot is the one in front of the
interval. -/
theorem identifier_before_interval : ∀ g ∈ all, g.windowed = true → ∀ slot ∈ g.slots,
    slot.kind = .identifier → slot.optional = true → g.slots.dropLast.getLast? = some slot := by
  decide

/-- **Where one more interval goes.** If no interval was captured, then the word goes into a slot that
is left open: one for an identifier if the word names everything and such a slot is open, and else
the one for intervals. -/
theorem exists_slot (hg : g ∈ all) (hw : g.windowed = true)
    (hfill : fill s g.slots words = some captures) (hnone : capturedInterval? captures = none)
    (hword : Interval.isWritten w.toList = true) :
    ∃ slot ∈ g.slots, slot ∉ captures.map Capture.slot ∧
      fill s g.slots (words ++ [w]) = some (captures ++ [⟨slot, w⟩]) ∧
      (slot.kind = .identifier ∧ NamesAll s g captures w ∨
        slot.kind = .interval ∧ ¬ NamesAll s g captures w) := by
  obtain ⟨used, left, hleaves, hmore⟩ := exists_left hfill
  obtain ⟨hslots, hinit⟩ := slots_windowed g hg hw
  -- An interval in its slot would have been captured as the interval.
  have hfree : interval ∉ captures.map Capture.slot := by
    intro hmem
    obtain ⟨c, hc, hslot⟩ := List.mem_map.1 hmem
    have hfind := Option.map_eq_none_iff.1 hnone
    exact List.find?_eq_none.1 hfind c hc (by simp [Capture.isInterval, hslot, interval])
  -- The slot for intervals is the last one, and it was not captured, so it is left.
  obtain ⟨front, rfl, hfront⟩ : ∃ front, left = front ++ [interval] ∧
      used ++ front = g.slots.dropLast := by
    have heq : g.slots.dropLast ++ [interval] = used ++ left := hslots.symm.trans hleaves.slots_eq
    rcases List.eq_nil_or_concat left with rfl | ⟨front, last, rfl⟩
    · refine absurd (hleaves.last interval ?_) hfree
      rw [← List.append_nil used, ← heq, List.getLast?_concat]
    · rw [List.concat_eq_append, ← List.append_assoc] at heq
      obtain ⟨hfront, hlast⟩ := List.append_inj' heq rfl
      obtain rfl := List.singleton_inj.1 hlast
      exact ⟨front, List.concat_eq_append, hfront.symm⟩
  -- Captured slots are used ones, and no slot stands in the list twice.
  have hopen : ∀ slot ∈ front ++ [interval], slot ∉ captures.map Capture.slot := by
    have hnodup : g.slots.Nodup := .of_map _ (nodup_slots g hg)
    rw [hleaves.slots_eq] at hnodup
    exact fun slot hslot hmem =>
      List.disjoint_of_nodup_append hnodup (hleaves.sublist.subset hmem) hslot
  have hmem : ∀ slot ∈ front ++ [interval], slot ∈ g.slots := fun slot hslot => by
    rw [hleaves.slots_eq]
    exact List.mem_append_right _ hslot
  have hfits := SlotKind.fits_of_isWritten (s := s) hword
  have hlast : [interval].find? (·.kind.fits s w) = some interval :=
    List.find?_cons_of_pos (p := fun slot : Slot => slot.kind.fits s w) ((hfits _).2 (.inl rfl))
  have hgoes : fill s g.slots (words ++ [w]) =
      ((front.find? (·.kind.fits s w)).or (some interval)).map
        fun slot => captures ++ [⟨slot, w⟩] := by
    rw [hmore, List.find?_append, hlast]
  -- The word goes into one of the slots in front of the interval if it fits one, which takes the
  -- word for "all".
  cases hfind : front.find? (·.kind.fits s w) with
  | some slot =>
    have hslot := List.mem_append_left [interval] (List.mem_of_find?_eq_some hfind)
    refine ⟨slot, hmem slot hslot, hopen slot hslot, by rw [hgoes, hfind]; rfl, .inl ?_⟩
    have hdrop : slot ∈ g.slots.dropLast := by
      rw [← hfront]
      exact List.mem_append_right _ (List.mem_of_find?_eq_some hfind)
    have hfound := List.find?_some hfind
    rcases (hfits _).1 hfound with hkind | ⟨hkind, hall⟩
    · exact absurd hkind (hinit slot hdrop).1
    · exact ⟨hkind, hall, slot, hmem slot hslot, hkind, hopen slot hslot⟩
  | none =>
    have hslot : interval ∈ front ++ [interval] := List.mem_append_right _ List.mem_cons_self
    refine ⟨interval, hmem _ hslot, hfree, by rw [hgoes, hfind]; rfl, .inr ⟨rfl, ?_⟩⟩
    rintro ⟨hall, slot, hslot, hkind, hempty⟩
    have hoptional : slot.optional = true := by
      by_contra hrequired
      exact hempty (mem_captures_of_required hfill hslot (Bool.eq_false_iff.2 hrequired))
    -- The slot stands in front of the interval: it was captured, or the word fits it.
    have hbefore := identifier_before_interval g hg hw slot hslot hkind hoptional
    rw [← hfront, List.getLast?_append] at hbefore
    cases hend : front.getLast? with
    | none =>
      rw [hend, Option.none_or] at hbefore
      exact hempty (hleaves.last slot hbefore)
    | some other =>
      rw [hend, Option.some_or] at hbefore
      obtain rfl := Option.some.inj hbefore
      exact List.find?_eq_none.1 hfind other (List.mem_of_getLast? hend)
        ((hfits _).2 (.inr ⟨hkind, hall⟩))

end Grammar

end AdOps
