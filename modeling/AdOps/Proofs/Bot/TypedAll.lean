import AdOps.Proofs.Bot.Bare
import AdOps.Proofs.Flag.Pattern

/-!
# To type the word for "all"

The commands with an optional campaign are about every campaign if none is named. To say so, the
word for "all" can be typed in the place of the campaign, and then the line should stand for the
command that it stands for without it. But a configured text is a word of a line only if there are
no blanks in it, and a positional one only if it carries no marker, and valid settings merely say
that it is not blank. Any other text for "all" is read for what its words are: an interval, flags, or
nothing that the line has room for. Such a line stands for the same command only if all of this
repeats what the command holds anyway.

* **`withAlias_withFlags`** — flags make no difference if they give what is held without them.
* **`words_of_idle`** — the positional words that change nothing about the slots.
* **`parse_typed_all`** — when the line with the word for "all" stands for the same command.
-/

namespace AdOps

open Text (asciiLower words sameIgnoringCase IsWord)

/-! ## The word in other letters

The word for "all" is compared without regard to letter case, so whether it can be typed must not
depend on the letters either. Making letters small moves no blank and no marker. -/

/-- A marker has no letters. -/
theorem Flag.unmark_map_toLower {cs : List Char} :
    unmark (cs.map Char.toLower) = none ↔ unmark cs = none := by
  constructor
  · intro h
    by_contra hsome
    obtain ⟨body, hbody⟩ := Option.ne_none_iff_exists'.1 hsome
    rcases unmark_eq_some_iff.1 hbody with rfl | rfl
    · exact absurd h (by simp [unmark])
    · exact absurd h (by simp [unmark])
  · intro h
    by_contra hsome
    obtain ⟨body, hbody⟩ := Option.ne_none_iff_exists'.1 hsome
    -- A marker that the small text begins with was there before, as its characters are not
    -- capitals.
    rcases unmark_eq_some_iff.1 hbody with hslash | hhyphens
    · obtain ⟨c, rest, rfl, hc, -⟩ := List.map_eq_cons_iff.1 hslash
      obtain rfl := Text.eq_of_toLower_eq (by decide) hc
      exact absurd h (by simp [unmark])
    · obtain ⟨c, rest, rfl, hc, hrest⟩ := List.map_eq_cons_iff.1 hhyphens
      obtain ⟨d, rest, rfl, hd, -⟩ := List.map_eq_cons_iff.1 hrest
      obtain rfl := Text.eq_of_toLower_eq (by decide) hc
      obtain rfl := Text.eq_of_toLower_eq (by decide) hd
      exact absurd h (by simp [unmark])

theorem Text.isWord_map_toLower {cs : List Char} : IsWord (cs.map Char.toLower) ↔ IsWord cs := by
  unfold IsWord
  simp [isBlank_toLower]

namespace Settings

variable {s : Settings} {t : String}

/-- The text for "all" can stand on a line as it is configured: it is one word, and no marker begins
it. -/
structure AllIsTypable (s : Settings) : Prop where
  word : IsWord s.allAlias.toList
  unmarked : Flag.unmark s.allAlias.toList = none

/-- In other letters it can as well. -/
theorem allIsTypable_iff (h : sameIgnoringCase t s.allAlias = true) :
    s.AllIsTypable ↔ IsWord t.toList ∧ Flag.unmark t.toList = none := by
  have hlower : t.toList.map Char.toLower = s.allAlias.toList.map Char.toLower :=
    String.ofList_injective (eq_of_beq h)
  rw [← Text.isWord_map_toLower, ← Flag.unmark_map_toLower, hlower, Text.isWord_map_toLower,
    Flag.unmark_map_toLower]
  exact ⟨fun h => ⟨h.word, h.unmarked⟩, fun h => ⟨h.1, h.2⟩⟩

end Settings

/-! ## Flags that repeat what is held

Flags write over what the slots have set, and naming the window comes last and may be given by a
flag as well. So a flag makes no difference exactly if it gives what the command holds in the end.
-/

namespace Resolve

variable {s : Settings} {head : Head} {g : Grammar} {captures : List Capture}
  {args args' flags : Arguments} {ts : List String}

/-- Flags that give nothing change nothing. -/
theorem withFlags_of_nothing (h : ∀ name, flags.get? name = none) : withFlags flags args = args :=
  NameMap.ext_get? fun name => by rw [get?_withFlags, h, Option.or_none]

/-- Flags come last. -/
theorem arguments_eq_withFlags : arguments s head g captures flags =
    withFlags flags (arguments s head g captures NameMap.empty) := rfl

/-- **Flags that store under names of their own make no difference** exactly if they give what is held
without them. The name for the window is the only one that this can be. -/
theorem withAlias_withFlags {a : WindowAlias}
    (hnew : ∀ name v, flags.get? name = some v → args.get? name = none)
    (hfilled : ∀ v, flags.get? a.name = some v → v.isEmpty = false)
    (h : withAlias a args = .ok args') : withAlias a (withFlags flags args) = .ok args' ↔
      ∀ name v, flags.get? name = some v → args'.get? name = some v := by
  have hheld : ∀ name v, flags.get? name = some v → (withFlags flags args).get? name = some v := by
    intro name v hv
    rw [get?_withFlags, hnew name v hv, hv]
    rfl
  constructor
  · intro hsame name v hv
    by_cases hname : name = a.name
    · subst hname
      exact get?_withAlias_of_held hsame (hheld _ v hv) (hfilled v hv)
    · rw [get?_withAlias_of_ne hname hsame, hheld name v hv]
  · intro hrepeat
    -- Under any other name nothing was held, so nothing is given either.
    have hother : ∀ name, name ≠ a.name → flags.get? name = none := by
      intro name hname
      by_contra hsome
      obtain ⟨v, hv⟩ := Option.ne_none_iff_exists'.1 hsome
      have hget := hrepeat name v hv
      rw [get?_withAlias_of_ne hname h, hnew name v hv] at hget
      exact absurd hget (by simp)
    cases hwindow : flags.get? a.name with
    | none =>
      rw [withFlags_of_nothing fun name => ?_, h]
      by_cases hname : name = a.name
      · rw [hname, hwindow]
      · exact hother name hname
    | some v =>
      have hget := hrepeat a.name v hwindow
      rcases withAlias_eq_ok.1 h with ⟨-, rfl⟩ | ⟨_, v', -, -, rfl⟩
      · rw [hnew _ v hwindow] at hget
        exact absurd hget (by simp)
      · rw [NameMap.get?_insert, if_pos rfl] at hget
        obtain rfl := Option.some.inj hget
        have hsame : withFlags flags args = args.insert a.name v' := by
          refine NameMap.ext_get? fun name => ?_
          rw [NameMap.get?_insert]
          split
          · next hname => rw [hname, hheld _ v' hwindow]
          · next hname => rw [get?_withFlags, hother name hname, Option.or_none]
        rw [hsame]
        refine withAlias_of_present ?_
        rw [isAbsent_eq, NameMap.get?_insert, if_pos rfl]
        exact hfilled v' hwindow

/-- What flags give for the name of a window is not empty: only the tracker keeps its window under
the name of a flag. -/
theorem isEmpty_of_window {policy : FlagPolicy}
    (hflags : flagArguments g.flags policy ts = .ok flags) {p : Platform} {v : Arg}
    (hv : flags.get? p.windowAlias.name = some v) : v.isEmpty = false := by
  have htime : ∀ (p : Platform) (f : Flag), p.windowAlias.name = f.name → f = .timeRange := by
    intro p f
    cases p <;> cases f <;> decide
  -- The tracker names its window by a flag; the networks have names that no flag has.
  by_cases htaken : ∃ f ∈ g.flags, p.windowAlias.name = f.name
  · obtain ⟨f, hf, hname⟩ := htaken
    obtain rfl := htime p f hname
    rw [hname, get?_flagArguments hflags hf] at hv
    obtain ⟨value, rfl, hwritten⟩ := Flag.exists_of_chosen?_timeRange hv
    exact (Text.isBlankText_asciiLower value).trans (Interval.isBlankText_of_isWritten hwritten)
  · rw [Flag.get?_foldlM_collect_of_ne (fun f hf hname => htaken ⟨f, hf, hname⟩) hflags] at hv
    exact absurd hv (by simp)

/-! ## Captured words that change nothing

A word may be captured and still change nothing: the word for "all" in a campaign's place is held as
no campaign, and the default interval is held as no interval. -/

/-- The slots hold what they hold without captured words. -/
def Idle (s : Settings) (g : Grammar) (verb : String) (captures : List Capture) : Prop :=
  ∀ slot ∈ g.slots,
    slot.held? s verb (capturedWord? captures slot) = slot.held? s verb none

theorem capturedWord?_cons (slot : Slot) (w : String) (captures : List Capture) :
    capturedWord? (⟨slot, w⟩ :: captures) slot = some w := by
  simp [capturedWord?]

theorem idle_nil (verb : String) : Idle s g verb [] := fun _ _ => rfl

/-- One word changes nothing if what is held for its slot is the same. -/
theorem idle_single {slot : Slot} {w verb : String}
    (h : slot.held? s verb (some w) = slot.held? s verb none) : Idle s g verb [⟨slot, w⟩] := by
  intro other hother
  by_cases hsame : other = slot
  · rw [hsame, capturedWord?_cons, h]
  · rw [show capturedWord? [⟨slot, w⟩] other = none by simp [capturedWord?, Ne.symm hsame]]

/-- Words that change nothing give the arguments of no words. -/
theorem arguments_of_idle (hg : g ∈ Grammar.all) (hverb : head.verb ∈ g.words)
    (hfill : fill s g.slots ts = some captures)
    (hblank : ∀ word ∈ ts, Text.isBlankText word = false)
    (hflags : ∀ slot ∈ g.slots, flags.get? slot.name = none)
    (hidle : Idle s g head.verb captures) :
    arguments s head g captures flags = arguments s head g [] flags :=
  arguments_congr hg hverb (fill_eq_some hfill).1 (List.nil_sublist _)
    (isBlankText_of_fill hblank hfill) (by simp) hflags hidle

end Resolve

open Resolve (Idle)

namespace Grammar

variable {s : Settings} {g : Grammar} {ws : List String} {captures : List Capture} {verb : String}

/-- Where a campaign can be left out, at most an interval follows. -/
theorem slots_anyCampaign : ∀ g ∈ all, anyCampaign ∈ g.slots →
    g.slots = anyCampaign :: if g.windowed then [interval] else [] := by
  decide

/-- Where a campaign can be left out, everything can. -/
theorem optional_anyCampaign (hg : g ∈ all) (hslot : anyCampaign ∈ g.slots) :
    ∀ slot ∈ g.slots, slot.optional = true := by
  have hall : ∀ g ∈ all, anyCampaign ∈ g.slots → ∀ slot ∈ g.slots, slot.optional = true := by
    decide
  exact hall g hg hslot

/-- The words are the default interval, for a command that reads a window. -/
def AreDefault (s : Settings) (g : Grammar) (ws : List String) : Prop :=
  g.windowed = true ∧ ∃ w, ws = [w] ∧ Interval.isWritten w.toList = true ∧
    asciiLower w = asciiLower s.defaultTimeInterval

/-- **Positional words that change nothing** are none at all, or the default interval, or one of them
is the word for "all". -/
theorem words_of_idle (hg : g ∈ all) (hslot : anyCampaign ∈ g.slots)
    (hfill : fill s g.slots ws = some captures) (hidle : Idle s g verb captures) :
    ws = [] ∨ g.AreDefault s ws ∨ ∃ w ∈ ws, sameIgnoringCase w s.allAlias = true := by
  rw [slots_anyCampaign g hg hslot] at hfill
  cases ws with
  | nil => exact .inl rfl
  | cons w ws =>
    right
    rw [fill] at hfill
    split at hfill
    · -- The word was captured as a campaign, so it is the word for "all".
      obtain ⟨rest, -, rfl⟩ := Option.map_eq_some_iff.1 hfill
      have hheld := hidle anyCampaign hslot
      have hall : sameIgnoringCase w s.allAlias = true := by
        rw [Resolve.capturedWord?_cons] at hheld
        by_contra hnot
        simp [Slot.held?, anyCampaign, hnot] at hheld
      exact .inr ⟨w, List.mem_cons_self, hall⟩
    -- The word was not captured as a campaign, so it went to the interval or nowhere.
    · left
      rw [if_pos (by rfl)] at hfill
      cases hw : g.windowed with
      | false =>
        rw [hw] at hfill
        exact absurd hfill (by simp [fill])
      | true =>
        have hinterval : interval ∈ g.slots := by
          rw [slots_anyCampaign g hg hslot, hw]
          simp
        rw [hw, if_pos rfl, fill] at hfill
        split at hfill
        · next hwritten =>
          obtain ⟨rest, hrest, rfl⟩ := Option.map_eq_some_iff.1 hfill
          cases ws with
          -- A second word has no slot.
          | cons w' ws => exact absurd hrest (by simp [fill])
          | nil =>
            obtain rfl := Option.some.inj hrest
            have hheld := hidle interval hinterval
            rw [Resolve.capturedWord?_cons] at hheld
            exact ⟨hw, w, rfl, hwritten, Arg.text.inj (Option.some.inj hheld)⟩
        · rw [if_pos (by rfl)] at hfill
          exact absurd hfill (by simp [fill])

/-- **Such words are captured**, and change nothing: none at all, the default interval, and the word
for "all" by itself. -/
theorem exists_idle (hg : g ∈ all) (hslot : anyCampaign ∈ g.slots) (verb : String)
    (h : ws = [] ∨ g.AreDefault s ws ∨ ∃ w, ws = [w] ∧ sameIgnoringCase w s.allAlias = true) :
    ∃ captures, fill s g.slots ws = some captures ∧ Idle s g verb captures := by
  have hoptional := optional_anyCampaign hg hslot
  have hcampaign : ∀ w, sameIgnoringCase w s.allAlias = true →
      ∃ captures, fill s g.slots [w] = some captures ∧ Idle s g verb captures := by
    intro w hall
    have hfits : anyCampaign.kind.fits s w = true := by simp [anyCampaign, SlotKind.fits, hall]
    refine ⟨[⟨anyCampaign, w⟩], ?_, Resolve.idle_single (Slot.held?_all rfl hall verb)⟩
    rw [fill_single hoptional, slots_anyCampaign g hg hslot,
      List.find?_cons_of_pos (p := fun slot : Slot => slot.kind.fits s w) hfits]
    rfl
  -- No word; the default interval; and the word for "all", which is tried first where one text is
  -- both.
  rcases h with rfl | ⟨hw, w, rfl, hwritten, hdefault⟩ | ⟨w, rfl, hall⟩
  · exact ⟨[], fill_of_optional hoptional, Resolve.idle_nil verb⟩
  · by_cases hall : sameIgnoringCase w s.allAlias = true
    · exact hcampaign w hall
    · have hfits := SlotKind.fits_of_isWritten (s := s) hwritten
      have hmiss : ¬ anyCampaign.kind.fits s w = true := by
        rw [hfits]
        simp [anyCampaign, hall]
      have hhit : interval.kind.fits s w = true := (hfits _).2 (.inl rfl)
      refine ⟨[⟨interval, w⟩], ?_, Resolve.idle_single (Slot.held?_default rfl hdefault verb)⟩
      rw [fill_single hoptional, slots_anyCampaign g hg hslot, hw,
        List.find?_cons_of_neg (p := fun slot : Slot => slot.kind.fits s w) hmiss, if_pos rfl,
        List.find?_cons_of_pos (p := fun slot : Slot => slot.kind.fits s w) hhit]
      rfl
  · exact hcampaign w hall

end Grammar

/-! ## Whole lines

Words behind the head are positional words and flags. The first must be captured and change nothing,
the second must repeat what is held, and a typed text that is one word without a marker does both at
once. -/

/-- No positional word carries a marker. -/
theorem CommandLine.unmark_of_mem_positionals {ws : List String} {w : String}
    (h : w ∈ positionals ws) : Flag.unmark w.toList = none := by
  unfold positionals at h
  obtain ⟨entry, -, hkept⟩ := List.mem_filterMap.1 h
  obtain ⟨hfree, hsome⟩ := Option.ite_none_left_eq_some.1 hkept
  obtain rfl := Option.some.inj hsome
  simpa [Flag.isMarked] using (not_or.1 (mt Bool.or_eq_true_iff.2 hfree)).2

open CommandLine (positionals)

namespace Command

variable {s : Settings} {g : Grammar} {head : Head} {ts : List String} {c : Command}

/-- What the words say is held by the command without them: no word of them is positional, or it is
the default interval, and each of their flags gives what is held under its name. -/
structure Repeats (s : Settings) (g : Grammar) (c : Command) (ts : List String) : Prop where
  words : positionals ts = [] ∨ g.AreDefault s (positionals ts)
  flags : ∃ flags, flagArguments g.flags s.flagPolicy ts = .ok flags ∧
    ∀ name v, flags.get? name = some v → c.args.get? name = some v

/-- Of the grammars, a verb is resolved by its own. -/
theorem exists_isResolved_of_verb {positionals : List String} {given : Flag → List Arg}
    {invalid : Failure} (hg : g ∈ Grammar.all) (hverb : head.verb ∈ g.words)
    (h : resolve s invalid head positionals given = .ok c) :
    ∃ captures, fill s g.slots positionals = some captures ∧
      IsResolved s head positionals given g captures c := by
  obtain ⟨g', captures, hread⟩ := exists_isResolved h
  obtain ⟨captures', hfill, heq⟩ := Option.map_eq_some_iff.1
    ((Grammar.choose?_eq hg hverb positionals).symm.trans hread.grammar)
  obtain ⟨rfl, rfl⟩ := Prod.mk.inj heq
  exact ⟨captures', hfill, hread⟩

/-- Where captured words change nothing, the arguments are those of the head alone exactly if the
flags repeat what is held. -/
theorem IsResolved.withAlias_eq_ok_iff {captures : List Capture} {flags : Arguments}
    (h : IsResolved s head [] (fun _ => []) g [] c)
    (hblank : ∀ word ∈ positionals ts, Text.isBlankText word = false)
    (hfill : fill s g.slots (positionals ts) = some captures) (hidle : Idle s g head.verb captures)
    (hflags : flagArguments g.flags s.flagPolicy ts = .ok flags) :
    Resolve.withAlias c.platform.windowAlias (Resolve.arguments s head g captures flags) =
      .ok c.args ↔ ∀ name v, flags.get? name = some v → c.args.get? name = some v := by
  obtain ⟨hg, hsub⟩ := h.sublist_slots
  have halone : Resolve.withAlias c.platform.windowAlias
      (Resolve.arguments s head g [] NameMap.empty) = .ok c.args := by
    obtain ⟨nothing, hnothing, halias⟩ := h.args
    rw [Flag.collectAll_nothing] at hnothing
    rwa [← Except.ok.inj hnothing] at halias
  have hslots : ∀ slot ∈ g.slots, flags.get? slot.name = none := fun slot hslot =>
    get?_flags_of_ne (s := s) hflags fun f _ heq =>
      (Grammar.slot_name_free g hg slot hslot).2.2 (heq ▸ f.mem_reserved)
  -- What flags give is stored under reserved names, which no slot has.
  have hreserved : ∀ name v, flags.get? name = some v → name ∈ Resolve.reserved := by
    intro name v hv
    by_contra hname
    have hfree : name ∉ Flag.all.map Flag.name := fun hmem => hname (List.mem_append_left _ hmem)
    rw [get?_flagArguments_of_ne hflags hfree] at hv
    exact absurd hv (by simp)
  rw [Resolve.arguments_of_idle hg (Grammar.mem_words_of_choose? h.grammar) hfill hblank hslots hidle,
    Resolve.arguments_eq_withFlags]
  apply Resolve.withAlias_withFlags _ (fun v => Resolve.isEmpty_of_window hflags) halone
  intro name v hv
  exact Resolve.get?_arguments_of_reserved hg hsub (hreserved name v hv)

/-- **A head with words behind it stands for the command that it stands for alone** exactly if the
positional words are captured and change nothing, and the flags repeat what is held. -/
theorem resolve_again_iff (h : IsResolved s head [] (fun _ => []) g [] c)
    (hblank : ∀ word ∈ positionals ts, Text.isBlankText word = false) (invalid : Failure) :
    resolve s invalid head (positionals ts) (fun f => f.given ts) = .ok c ↔
      (∃ captures, fill s g.slots (positionals ts) = some captures ∧
        Idle s g head.verb captures) ∧
      ∃ flags, flagArguments g.flags s.flagPolicy ts = .ok flags ∧
        ∀ name v, flags.get? name = some v → c.args.get? name = some v := by
  have hg := h.sublist_slots.1
  have hverb := Grammar.mem_words_of_choose? h.grammar
  constructor
  · intro hok
    obtain ⟨captures, hfill, hagain⟩ := exists_isResolved_of_verb hg hverb hok
    obtain ⟨flags, hflags, halias⟩ := hagain.args
    -- Both readings hold the same for every slot, as they are of one command.
    have hidle : Idle s g head.verb captures := fun slot hslot => calc
      slot.held? s head.verb (capturedWord? captures slot)
        = c.args.get? slot.name := (hagain.get?_slot_of_filled hblank hslot).symm
      _ = slot.held? s head.verb none := h.get?_slot_of_filled (by simp) hslot
    exact ⟨⟨captures, hfill, hidle⟩, flags, hflags,
      (h.withAlias_eq_ok_iff hblank hfill hidle hflags).1 halias⟩
  · rintro ⟨⟨captures, hfill, hidle⟩, flags, hflags, hrepeat⟩
    apply resolve_of_isResolved
    exact ⟨by rw [Grammar.choose?_eq hg hverb, hfill]; rfl, h.platform, h.serves, h.verb, h.name,
      flags, hflags, (h.withAlias_eq_ok_iff hblank hfill hidle hflags).2 hrepeat⟩

end Command

/-- **When the word for "all" can be typed** in the place of a campaign that could as well be left
out. The line without it is about every campaign. The line with it, in any letters, stands for the
same command exactly if the text for "all" is one word without a marker, or its words repeat what the
command holds anyway. -/
theorem Bot.parse_typed_all (b : Bot) {p : Platform} {g : Grammar} {name verb text t : String}
    {c : Command} (hg : g ∈ Grammar.all) (hslot : Grammar.anyCampaign ∈ g.slots)
    (hhead : Head.IsTyped p g name verb) (htext : words text = ["/" ++ name, verb])
    (hall : sameIgnoringCase t b.settings.allAlias = true) (haccepted : b.parse text = .ok c) :
    c.args.get? "campaign_id" = some .all ∧
      (b.parse (text ++ " " ++ t) = .ok c ↔
        b.settings.AllIsTypable ∨ Command.Repeats b.settings g c (words t)) := by
  have halone : Command.IsResolved b.settings ⟨asciiLower name, asciiLower verb⟩ [] (fun _ => []) g
      [] c := by
    unfold parse at haccepted
    rw [Command.parse_typed hg hhead htext] at haccepted
    obtain ⟨captures, hfill, hread⟩ := Command.exists_isResolved_of_verb hg hhead.verb haccepted
    obtain ⟨rfl, -⟩ := fill_nil hfill
    exact hread
  have hlonger : words (text ++ " " ++ t) = ("/" ++ name) :: verb :: words t := by
    rw [Text.words_append, htext]
    rfl
  have hblank : ∀ word ∈ positionals (words t), Text.isBlankText word = false := fun _ hword =>
    Text.isBlankText_of_mem_wordsOf (CommandLine.mem_of_mem_positionals hword)
  refine ⟨halone.get?_slot_of_filled (by simp) hslot, ?_⟩
  unfold parse
  rw [Command.parse_typed hg hhead hlonger, Command.resolve_again_iff halone hblank]
  constructor
  · rintro ⟨⟨captures, hfill, hidle⟩, hflags⟩
    rcases Grammar.words_of_idle hg hslot hfill hidle with hnone | hdefault | ⟨w, hw, hsame⟩
    · exact .inr ⟨.inl hnone, hflags⟩
    · exact .inr ⟨.inr hdefault, hflags⟩
    · -- The word is as long as what was typed, so it is all of it.
      have hmem := CommandLine.mem_of_mem_positionals hw
      have hlower : asciiLower w = asciiLower t := (eq_of_beq hsame).trans (eq_of_beq hall).symm
      have hlength : w.length = t.length := by
        rw [← Text.length_asciiLower, hlower, Text.length_asciiLower]
      obtain rfl := Text.eq_of_mem_words hmem hlength
      exact .inl ((Settings.allIsTypable_iff hall).2
        ⟨Text.isWord_of_mem_words hmem, CommandLine.unmark_of_mem_positionals hw⟩)
  · rintro (htypable | hrepeats)
    -- One word without a marker is the only positional word, and gives no flag.
    · obtain ⟨hword, hunmarked⟩ := (Settings.allIsTypable_iff hall).1 htypable
      obtain ⟨hpositional, hgiven⟩ :=
        CommandLine.positionals_unmarked (List.forall_mem_singleton.2 hunmarked)
      rw [Text.words_of_isWord hword, hpositional]
      refine ⟨Grammar.exists_idle hg hslot _ (.inr (.inr ⟨t, rfl, hall⟩)), NameMap.empty, ?_,
        fun name v hv => absurd hv (by simp)⟩
      unfold flagArguments
      simp only [hgiven]
      exact Flag.collectAll_nothing _ _
    · exact ⟨Grammar.exists_idle hg hslot _ (hrepeats.words.imp_right .inl), hrepeats.flags⟩

/-! Two words for "all" pass for a valid setting, and no line can be typed with them. -/

def EveryOne.bot : Bot := ⟨{ allAlias := "every one" }, by decide⟩

theorem Bot.parse_typed_all_parted :
    ∃ c, EveryOne.bot.parse "/mgid stats" = .ok c ∧ c.args.get? "campaign_id" = some .all ∧
      EveryOne.bot.parse "/mgid stats every one" ≠ .ok c ∧
      (EveryOne.bot.parse "/mgid stats every one").isOk = false := by
  obtain ⟨g, hg, hverb, hslot⟩ :
      ∃ g ∈ Grammar.all, "stats" ∈ g.words ∧ Grammar.anyCampaign ∈ g.slots := by decide
  have hlower : asciiLower "stats" = "stats" := by decide
  have hhead : Head.IsTyped .mgid g "mgid" "stats" := ⟨by decide, by rwa [hlower]⟩
  have htext : words "/mgid stats" = ["/" ++ "mgid", "stats"] := by decide +kernel
  have hparted : positionals (words "every one") = ["every", "one"] := by decide +kernel
  have hok : (EveryOne.bot.parse "/mgid stats").isOk = true := by decide +kernel
  obtain ⟨c, hparse⟩ := isOk_iff.1 hok
  obtain ⟨hcampaign, hiff⟩ := EveryOne.bot.parse_typed_all hg hslot hhead htext
    (show sameIgnoringCase "every one" "every one" = true from BEq.rfl) hparse
  refine ⟨c, hparse, hcampaign, fun hsame => ?_, by decide +kernel⟩
  rcases hiff.1 hsame with htypable | hrepeats
  · exact absurd (htypable.word.2 ' ' (by decide)) (by decide)
  · rcases hrepeats.words with hnone | ⟨-, w, hone, -⟩
    · exact absurd (hparted.symm.trans hnone) (by simp)
    · exact absurd (hparted.symm.trans hone) (by simp)

end AdOps
