import AdOps.CommandLine.Head
import AdOps.Proofs.Flag.Leftmost
import AdOps.Proofs.Text.Bytes
import Mathlib.Data.List.Chain

/-!
# Where the search for a flag goes on

A text is searched by bytes. A round looks for the leftmost occurrence that begins at a byte or behind
it, and the next round begins at the blank that ends the occurrence, which is one to three bytes wide,
or at the end of the text. A round that kept part of the blank would begin between two characters, or
miss an occurrence that shares the blank with the one in front; a round that gave back more could stand
still. Both loops over a text consist of such rounds, the one for the arguments of a flag and the one
for the words that no flag covers.

* **`StandsIn.resumeByte_eq`** — the search goes on at the blank that ends the occurrence, or at the
  end of the text.
* **`advances_of_findAt?`** — a round moves on, up to there, and passes over nothing else.
* **`isScanFrom_roundsFrom`** — the rounds find what stands in the text.
* **`rounds_advance`** — both loops, from the first byte to the end.
-/

namespace AdOps

open Text

/-- The byte at which the search goes on: the one behind the occurrence, less the bytes of a blank at
its end, but never the one at which it begins. -/
def Occurrence.resumeByte (cs : List Char) (o : Occurrence) : Nat :=
  let trailing := ((o.covered.getLast?.filter isBlank).map Char.utf8Size).getD 0
  let behind := byteAt cs o.stop - trailing
  if byteAt cs o.start < behind then behind else byteAt cs o.stop

/-- A turn of the loop: the byte from which on the flag is looked for, what is found, and the byte at
which the search goes on. -/
structure Round where
  origin : Nat
  found : Occurrence
  next : Nat

/-- What is found reaches over the byte. -/
def Round.spans (cs : List Char) (r : Round) (byte : Nat) : Bool :=
  byteAt cs r.found.start ≤ byte && byte < byteAt cs r.found.stop

namespace Flag

variable {f : Flag} {cs : List Char} {pos i : Nat} {o : Occurrence}

/-! ## Occurrences in order

The search looks for the leftmost occurrence from a byte on. Said without a search, this is the
first of all that stand in the text, in the order of their places, that does not begin in front of
the byte. -/

/-- Everything that stands in the text, from left to right. -/
def standing (f : Flag) (cs : List Char) : List Occurrence :=
  (List.range cs.length).filterMap fun i => f.occurrenceAt? i (cs.drop i)

/-- What is found at a place stands in the whole text, and begins there. -/
theorem occurrenceAt?_drop_iff (h : i ≤ cs.length) :
    f.occurrenceAt? i (cs.drop i) = some o ↔ f.StandsIn cs o ∧ o.start = i := by
  have hfound : f.occurrenceAt? (cs.take i).length (cs.drop i) = some o ↔
      f.StandsIn (cs.take i ++ cs.drop i) o ∧ o.start = (cs.take i).length :=
    occurrenceAt?_eq_some_iff
  rwa [List.length_take_of_le h, List.take_append_drop] at hfound

/-- The list holds everything that stands in the text, and nothing else. -/
theorem mem_standing_iff : o ∈ f.standing cs ↔ f.StandsIn cs o := by
  unfold standing
  rw [List.mem_filterMap]
  constructor
  · rintro ⟨i, hi, hfound⟩
    exact ((occurrenceAt?_drop_iff (Nat.le_of_lt (List.mem_range.1 hi))).1 hfound).1
  · intro h
    obtain ⟨hlt, hresume⟩ := h.start_lt
    have hstart : o.start < cs.length := Nat.lt_of_lt_of_le hlt hresume
    exact ⟨o.start, List.mem_range.2 hstart,
      (occurrenceAt?_drop_iff (Nat.le_of_lt hstart)).2 ⟨h, rfl⟩⟩

/-- It is in the order of the places. -/
theorem pairwise_standing (f : Flag) (cs : List Char) :
    (f.standing cs).Pairwise fun o o' => o.start < o'.start := by
  have hstart : ∀ i < cs.length, ∀ o, f.occurrenceAt? i (cs.drop i) = some o → o.start = i :=
    fun i hi o ho => ((occurrenceAt?_drop_iff (Nat.le_of_lt hi)).1 ho).2
  unfold standing
  rw [List.pairwise_filterMap]
  refine List.pairwise_lt_range.imp_of_mem fun {i j} hi hj hlt o ho o' ho' => ?_
  rw [hstart i (List.mem_range.1 hi) o ho, hstart j (List.mem_range.1 hj) o' ho']
  exact hlt

/-- The leftmost occurrence that begins at a byte or behind it. -/
def findAt? (f : Flag) (cs : List Char) (pos : Nat) : Option Occurrence :=
  (f.standing cs).find? fun o => pos ≤ byteAt cs o.start

/-- **What is found stands in the text**, not in front of the byte, and leftmost. -/
theorem findAt?_eq_some (h : f.findAt? cs pos = some o) :
    f.StandsIn cs o ∧ pos ≤ byteAt cs o.start ∧
      ∀ o', f.StandsIn cs o' → pos ≤ byteAt cs o'.start → o.start ≤ o'.start := by
  obtain ⟨hpos, front, rest, hcut, hfront⟩ := List.find?_eq_some_iff_append.1 h
  have hmem : o ∈ f.standing cs := hcut ▸ List.mem_append_right _ List.mem_cons_self
  refine ⟨mem_standing_iff.1 hmem, by simpa using hpos, fun o' ho' hpos' => ?_⟩
  have hordered := f.pairwise_standing cs
  have hmem' := mem_standing_iff.2 ho'
  rw [hcut] at hmem' hordered
  -- In front of it in the list are those that begin in front of the byte, behind it those further
  -- on.
  rcases List.mem_append.1 hmem' with hmem' | hmem'
  · exact absurd hpos' (by simpa using hfront o' hmem')
  · rcases List.mem_cons.1 hmem' with rfl | hmem'
    · exact Nat.le_refl _
    · exact Nat.le_of_lt (List.rel_of_pairwise_cons (List.pairwise_append.1 hordered).2.1 hmem')

/-- If nothing is found, then everything begins in front of the byte. -/
theorem findAt?_eq_none (h : f.findAt? cs pos = none) (ho : f.StandsIn cs o) :
    byteAt cs o.start < pos := by
  have hnone := List.find?_eq_none.1 h o (mem_standing_iff.2 ho)
  simpa using hnone

/-! ## The end of an occurrence

The blank at the end of an occurrence is given back, byte by byte. What is left is the byte of the
place at which the search on characters goes on too, so the two searches agree from there. -/

theorem StandsIn.start_le (h : f.StandsIn cs o) : o.start ≤ cs.length :=
  Nat.le_trans (Nat.le_of_lt h.start_lt.1) h.start_lt.2

/-- **An occurrence ends with a blank**, at which the search goes on, or with the text. -/
theorem StandsIn.exists_end (h : f.StandsIn cs o) :
    (∃ b, cs[o.resume]? = some b ∧ isBlank b = true ∧ o.covered.getLast? = some b ∧
        o.stop = o.resume + 1) ∨
      (o.covered.getLast?.filter isBlank = none ∧ o.stop = o.resume ∧ o.resume = cs.length) := by
  obtain @⟨front, lead, phrase, behind, value, hlead, hphrase, hbehind⟩ := h
  rw [resume_eq lead hphrase hbehind]
  -- The phrase is followed by nothing or by a blank, and its own last character is none.
  cases behind with
  | nil =>
    obtain ⟨c, hlast, hc⟩ := hphrase.isPhrase.last
    refine .inr ⟨?_, ?_, ?_⟩
    · simp [List.getLast?_append, hlast, hc]
    · simp [Occurrence.stop]
    · simp
  | cons b rest =>
    refine .inl ⟨b, ?_, hbehind, ?_, ?_⟩
    · rw [← List.append_assoc lead, ← List.append_assoc front, ← List.length_append,
        ← List.length_append, List.getElem?_append_right (Nat.le_refl _), Nat.sub_self]
      rfl
    · simp
    · simp only [Occurrence.stop, List.length_append, List.take_succ_cons, List.take_zero,
        List.length_singleton]
      omega

/-- It ends in the text. -/
theorem StandsIn.stop_le (h : f.StandsIn cs o) : o.stop ≤ cs.length := by
  rcases h.exists_end with ⟨b, hb, -, -, hstop⟩ | ⟨-, hstop, hresume⟩
  · obtain ⟨hlt, -⟩ := List.getElem?_eq_some_iff.1 hb
    omega
  · omega

/-- **The byte at which the search goes on** is the one of the blank that ends the occurrence, or the
one at the end of the text. -/
theorem StandsIn.resumeByte_eq (h : f.StandsIn cs o) : o.resumeByte cs = byteAt cs o.resume := by
  obtain ⟨hlt, hle⟩ := h.start_lt
  have hbyte : byteAt cs o.start < byteAt cs o.resume := byteAt_lt hlt hle
  unfold Occurrence.resumeByte
  rcases h.exists_end with ⟨b, hb, hblank, hlast, hstop⟩ | ⟨hlast, hstop, -⟩
  · have hbehind : byteAt cs o.stop - b.utf8Size = byteAt cs o.resume := by
      rw [hstop, byteAt_succ hb, Nat.add_sub_cancel]
    simp only [hlast, Option.filter_some, hblank, if_true, Option.map_some, Option.getD_some,
      hbehind, if_pos hbyte]
  · simp only [hlast, Option.map_none, Option.getD_none, Nat.sub_zero, hstop, ite_self]

/-- A blank of three bytes is left to the next occurrence, all of it. -/
example : Occurrence.resumeByte "/ie\u3000/ie".toList ⟨0, "/ie\u3000".toList, ""⟩ = 3 := by decide

/-- The search goes on behind the byte at which the occurrence begins. -/
theorem StandsIn.byteAt_start_lt (h : f.StandsIn cs o) : byteAt cs o.start < o.resumeByte cs := by
  rw [h.resumeByte_eq]
  exact byteAt_lt h.start_lt.1 h.start_lt.2

/-- It goes on within the text. -/
theorem StandsIn.resumeByte_le (h : f.StandsIn cs o) : o.resumeByte cs ≤ byteSize cs := by
  rw [h.resumeByte_eq, ← byteAt_length]
  exact (byteAt_le_iff h.start_lt.2 (Nat.le_refl _)).2 h.start_lt.2

end Flag

/-! ## One round

A round tells in one structure what it does, so that a scan of many rounds needs its rounds no more
than that. -/

/-- What a round does. It finds the leftmost occurrence from its byte on, and goes on at the blank that
ends it, or at the end of the text. So it moves on, stays in the text and on a boundary between
characters, and of all that stands in the text from its byte on, everything is still ahead but what it
found, and what looks like the flag in the value of that. -/
structure Round.Advances (f : Flag) (cs : List Char) (r : Round) : Prop where
  stands : f.StandsIn cs r.found
  leftmost : ∀ o, f.StandsIn cs o → r.origin ≤ byteAt cs o.start → r.found.start ≤ o.start
  progress : r.origin < r.next
  inText : r.next ≤ (String.ofList cs).utf8ByteSize
  boundary : (String.Pos.Raw.mk r.next).IsValid (String.ofList cs)
  separator : ∃ place, r.next = byteAt cs place ∧ r.found.start < place ∧
    ((∃ b, cs[place]? = some b ∧ isBlank b = true ∧ r.found.stop = place + 1) ∨
      (place = cs.length ∧ r.found.stop = place))
  ahead : ∀ o, f.StandsIn cs o → r.origin ≤ byteAt cs o.start →
    o = r.found ∨ r.next ≤ byteAt cs o.start ∨
      (f = .fields ∧ r.found.IsInside o.start ∧ ['-', '-'] <+: r.found.value.toList)

namespace Flag

variable {f : Flag} {cs : List Char} {pos i : Nat} {o : Occurrence} {r : Round}

/-- **A round moves on**, up to the blank that ends what it found and no further. -/
theorem advances_of_findAt? (h : f.findAt? cs pos = some o) :
    Round.Advances f cs ⟨pos, o, o.resumeByte cs⟩ := by
  obtain ⟨ho, hpos, hleft⟩ := findAt?_eq_some h
  obtain ⟨hlt, hle⟩ := ho.start_lt
  refine ⟨ho, hleft, Nat.lt_of_le_of_lt hpos ho.byteAt_start_lt, ho.resumeByte_le, ?_, ?_, ?_⟩
  · rw [ho.resumeByte_eq]
    exact isValid_byteAt cs o.resume
  · refine ⟨o.resume, ho.resumeByte_eq, hlt, ?_⟩
    rcases ho.exists_end with ⟨b, hb, hblank, -, hstop⟩ | ⟨-, hstop, hresume⟩
    · exact .inl ⟨b, hb, hblank, hstop⟩
    · exact .inr ⟨hresume, hstop⟩
  -- What begins further on does so behind the occurrence, or inside of it, or it is the occurrence.
  · intro o' ho' hpos'
    have hstart := hleft o' ho' hpos'
    rcases Nat.lt_or_ge o'.start o.resume with hinside | hbehind
    · rcases Nat.eq_or_lt_of_le hstart with heq | hgt
      · exact .inl (ho'.eq_of_start ho heq.symm)
      · obtain ⟨hfields, hdash⟩ := ho'.fields_of_inside ho hgt hinside
        exact .inr (.inr ⟨hfields, ⟨hgt, hinside⟩, hdash⟩)
    · refine .inr (.inl ?_)
      show o.resumeByte cs ≤ byteAt cs o'.start
      rw [ho.resumeByte_eq]
      exact (byteAt_le_iff hle ho'.start_le).2 hbehind

/-! ## The rounds of a text

Every round begins further on than the one before, so the bytes ahead run out. All facts about the
rounds are by induction along them: what holds of one round holds of all, the origin of each is what
the one before says, and together they are the scan of the text. -/

/-- The rounds from a byte on. Each one leaves fewer bytes ahead. -/
def roundsFrom (f : Flag) (cs : List Char) (pos : Nat) : List Round :=
  if pos < byteSize cs then
    match _h : f.findAt? cs pos with
    | some o => ⟨pos, o, o.resumeByte cs⟩ :: f.roundsFrom cs (o.resumeByte cs)
    | none => []
  else []
termination_by byteSize cs - pos
decreasing_by
  have hprogress := (advances_of_findAt? _h).progress
  dsimp only at hprogress
  omega

/-- The rounds of the loops over a text. -/
def rounds (f : Flag) (cs : List Char) : List Round := f.roundsFrom cs 0

/-- **Every round advances.** -/
theorem advances_of_mem (h : r ∈ f.roundsFrom cs pos) : r.Advances f cs := by
  fun_induction roundsFrom f cs pos with
  | case1 pos hpos o hfound ih =>
    rcases List.mem_cons.1 h with rfl | h
    · exact advances_of_findAt? hfound
    · exact ih h
  | case2 => exact absurd h List.not_mem_nil
  | case3 => exact absurd h List.not_mem_nil

/-- The loop ends, after no more rounds than there are bytes ahead. -/
theorem length_roundsFrom_le (f : Flag) (cs : List Char) (pos : Nat) :
    (f.roundsFrom cs pos).length ≤ byteSize cs - pos := by
  fun_induction roundsFrom f cs pos with
  | case1 pos hpos o hfound ih =>
    have hprogress := (advances_of_findAt? hfound).progress
    dsimp only at hprogress
    rw [List.length_cons]
    omega
  | case2 => exact Nat.zero_le _
  | case3 => exact Nat.zero_le _

/-- The first round begins at the byte. -/
theorem origin_of_head? (h : r ∈ (f.roundsFrom cs pos).head?) : r.origin = pos := by
  rw [roundsFrom] at h
  split at h
  · split at h
    · rw [← Option.some.inj h]
    · exact absurd h (by simp)
  · exact absurd h (by simp)

/-- Each round begins where the one before it says. -/
theorem isChain_roundsFrom (f : Flag) (cs : List Char) (pos : Nat) :
    (f.roundsFrom cs pos).IsChain fun r r' => r'.origin = r.next := by
  fun_induction roundsFrom f cs pos with
  | case1 pos hpos o hfound ih => exact List.isChain_cons.2 ⟨fun r hr => origin_of_head? hr, ih⟩
  | case2 => exact .nil
  | case3 => exact .nil

/-- The loop stops where nothing begins any more. -/
theorem isScanFrom_nil (hi : i ≤ cs.length)
    (hnone : ∀ o, f.StandsIn cs o → byteAt cs o.start < byteAt cs i) : f.IsScanFrom cs i [] := by
  refine .of_le hi (fun o ho hle => ?_) (.nil (Nat.le_refl _))
  exact absurd ((byteAt_lt_iff ho.start_le hi).1 (hnone o ho)) (Nat.not_lt.2 hle)

/-- **The rounds find what stands in the text**, but for what begins inside of something found. -/
theorem isScanFrom_roundsFrom (hi : i ≤ cs.length) (hpos : pos = byteAt cs i) :
    f.IsScanFrom cs i ((f.roundsFrom cs pos).map Round.found) := by
  -- Induction along the rounds, with the place of each byte at which one begins.
  fun_induction roundsFrom f cs pos generalizing i with
  | case1 pos hlt o hfound ih =>
    obtain ⟨ho, hle, hleft⟩ := findAt?_eq_some hfound
    subst hpos
    refine .of_le ((byteAt_le_iff hi ho.start_le).1 hle) (fun o' ho' hle' => ?_)
      (.cons ho (ih ho.start_lt.2 ho.resumeByte_eq))
    exact hleft o' ho' ((byteAt_le_iff hi ho'.start_le).2 hle')
  | case2 pos hlt hnone =>
    exact isScanFrom_nil hi fun o ho => hpos ▸ findAt?_eq_none hnone ho
  | case3 pos hge =>
    refine isScanFrom_nil hi fun o ho => ?_
    rw [← hpos]
    exact Nat.lt_of_lt_of_le ho.byteAt_start_lt (Nat.le_trans ho.resumeByte_le (Nat.not_lt.1 hge))

/-- **The rounds find what the search on characters finds.** -/
theorem map_found_rounds (f : Flag) (cs : List Char) :
    (f.rounds cs).map Round.found = f.occurrences cs :=
  (isScanFrom_roundsFrom (Nat.zero_le _) (byteAt_zero cs).symm).unique (f.isScan_occurrences cs)

/-- What a loop over a text does: its rounds follow one another from the first byte on, each one moves
on, and nothing that stands in the text is missed, but for what looks like a flag in the value of
another. -/
structure IsLoop (f : Flag) (cs : List Char) (rounds : List Round) : Prop where
  first : ∀ r ∈ rounds.head?, r.origin = 0
  chain : rounds.IsChain fun r r' => r'.origin = r.next
  advances : ∀ r ∈ rounds, r.Advances f cs
  ends : rounds.length ≤ (String.ofList cs).utf8ByteSize
  complete : ∀ o, f.StandsIn cs o → (∃ r ∈ rounds, r.found = o) ∨
    f = .fields ∧ ∃ r ∈ rounds, r.found.IsInside o.start ∧ ['-', '-'] <+: r.found.value.toList

/-- The rounds of a text are those of a loop that misses nothing. -/
theorem isLoop_rounds (f : Flag) (cs : List Char) : f.IsLoop cs (f.rounds cs) where
  first := fun _ => origin_of_head?
  chain := f.isChain_roundsFrom cs 0
  advances := fun _ => advances_of_mem
  ends := f.length_roundsFrom_le cs 0
  complete := fun o ho => by
    have hmem : ∀ o', o' ∈ f.occurrences cs ↔ ∃ r ∈ f.rounds cs, r.found = o' := fun o' => by
      rw [← map_found_rounds, List.mem_map]
    rcases mem_or_inside ho with hfound | ⟨hfields, o', hfound, hinside⟩
    · exact .inl ((hmem o).1 hfound)
    · obtain ⟨r, hr, rfl⟩ := (hmem o').1 hfound
      exact .inr ⟨hfields, r, hr, hinside⟩

/-! ## Both loops

The first loop takes the values of what its rounds find, the second one asks for each word whether a
round reaches over it. Neither looks at anything else. -/

/-- The arguments of a flag are what its rounds find. -/
theorem arguments_eq_rounds (f : Flag) (cs : List Char) :
    f.arguments cs = (f.rounds cs).filterMap fun r => f.argument? r.found.value := by
  unfold arguments
  rw [← map_found_rounds, List.filterMap_map]
  rfl

end Flag

/-- To reach over the byte of a place is to cover the place. -/
theorem Round.Advances.spans_eq {f : Flag} {cs : List Char} {r : Round} {place : Nat}
    (h : r.Advances f cs) (hplace : place ≤ cs.length) :
    r.spans cs (byteAt cs place) = r.found.covers place := by
  unfold Round.spans Occurrence.covers
  simp only [byteAt_le_iff h.stands.start_le hplace, byteAt_lt_iff hplace h.stands.stop_le]

/-- The words that no flag covers are those that begin at a byte over which no round reaches. -/
theorem freeWords_eq_rounds (cs : List Char) : freeWords cs =
    (placedWords cs).filterMap fun (place, word) =>
      if (Flag.all.flatMap fun f => f.rounds cs).any (·.spans cs (byteAt cs place)) ||
          Flag.isMarked word then none
      else some word := by
  unfold freeWords
  refine List.filterMap_congr fun (place, word) hmem => ?_
  -- The words begin at places of the text.
  have hplace : place ≤ cs.length := by
    obtain ⟨front, behind, hcs, hfront, -⟩ := exists_of_mem_placedFrom hmem
    have hlength := congrArg List.length hcs
    dsimp only at hfront
    rw [List.length_append] at hlength
    omega
  have hany : ∀ f : Flag, (f.occurrences cs).any (·.covers place) =
      (f.rounds cs).any (·.spans cs (byteAt cs place)) := by
    intro f
    rw [← f.map_found_rounds, List.any_map, Bool.eq_iff_iff, List.any_eq_true, List.any_eq_true]
    refine exists_congr fun r => and_congr_right fun hr => ?_
    rw [Function.comp_apply, (Flag.advances_of_mem hr).spans_eq hplace]
  simp only [List.any_flatMap, hany]

/-- **The search for a flag moves on, and misses nothing.** In every text, the rounds of each flag
follow one another from the first byte on and come to an end. Each of them goes on behind the byte where
it began, not behind the end of the text, at a boundary between characters, and at the blank that ends
what it found. What begins there or later is still ahead of it, and is found. The arguments of the flag
and the words that no flag covers are what the rounds make of the text. -/
theorem Flag.rounds_advance (f : Flag) (cs : List Char) :
    f.IsLoop cs (f.rounds cs) ∧
      f.arguments cs = (f.rounds cs).filterMap (fun r => f.argument? r.found.value) ∧
        freeWords cs = (placedWords cs).filterMap fun (place, word) =>
          if (Flag.all.flatMap fun f => f.rounds cs).any (·.spans cs (byteAt cs place)) ||
              Flag.isMarked word then none
          else some word :=
  ⟨f.isLoop_rounds cs, f.arguments_eq_rounds cs, freeWords_eq_rounds cs⟩

end AdOps
