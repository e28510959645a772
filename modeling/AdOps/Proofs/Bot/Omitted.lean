import AdOps.Proofs.CommandLine.Inserted
import AdOps.Proofs.CommandLine.Omitted

/-!
# To leave out the interval or to type the default

A line without an interval and the same line with the default interval as its last positional word
fill the same slots, but for the one that the word goes into. What is held for this slot is the same
if it is the one for an identifier, and if it is the one for intervals, then it is the default with
the blanks that it is configured with, or without them. Nothing else tells the two lines apart, since
failures behind the slots are of one kind whatever is held.

* **`arguments_more`** — a captured word more that makes no difference for its slot.
* **`parse_typed_default`** — when the two lines are read alike.
-/

namespace AdOps

namespace Grammar

/-- Each word for a verb belongs to one grammar. -/
theorem filter_words : ∀ g ∈ all, ∀ verb ∈ g.words, all.filter (·.words.contains verb) = [g] := by
  decide

/-- The grammar of a verb is chosen by the verb alone, and its slots are filled. -/
theorem choose?_eq {s : Settings} {g : Grammar} {verb : String} (hg : g ∈ all)
    (hverb : verb ∈ g.words) (positionals : List String) : choose? s verb positionals =
      (fill s g.slots positionals).map fun captures => (g, captures) := by
  unfold choose?
  rw [filter_words g hg verb hverb, List.findSome?_singleton]

end Grammar

/-- Whatever has no name on MGID is refused as a time range. -/
theorem Interval.error_of_mgidName {a : Arg} {e : Failure} (h : mgidName a = .error e) :
    e = .invalidFlag "time_range" (Text.asciiLower a.display) := by
  unfold mgidName at h
  dsimp only at h
  repeat' split at h
  all_goals first
    | exact (Except.error.inj h).symm
    | exact absurd h (by simp)

/-! ## A captured word more

Two ways to fill slots that differ by one word in one slot make the same arguments if what is held
for this slot is the same. That is so for an identifier that names everything, and for an interval
that is the default. -/

section more

variable {s : Settings} {captures : List Capture} {slot other : Slot} {w : String}

/-- A word that is captured last is not seen in other slots. -/
theorem capturedWord?_append_of_ne (h : other ≠ slot) :
    capturedWord? (captures ++ [⟨slot, w⟩]) other = capturedWord? captures other := by
  unfold capturedWord?
  rw [List.find?_append, List.find?_singleton, if_neg (by simpa using h.symm), Option.or_none]

/-- And in its own slot it is the one that is seen, if the slot was open. -/
theorem capturedWord?_of_open (h : slot ∉ captures.map Capture.slot) :
    capturedWord? captures slot = none ∧ capturedWord? (captures ++ [⟨slot, w⟩]) slot = some w := by
  have hnone : captures.find? (fun c => c.slot = slot) = none :=
    List.find?_eq_none.2 fun c hc hsame =>
      h (of_decide_eq_true hsame ▸ List.mem_map_of_mem hc)
  unfold capturedWord?
  rw [List.find?_append, hnone]
  exact ⟨rfl, by simp⟩

/-- An identifier that names everything is held as if there were none. -/
theorem Slot.held?_all (hkind : slot.kind = .identifier)
    (hall : Text.sameIgnoringCase w s.allAlias = true) (verb : String) :
    slot.held? s verb (some w) = slot.held? s verb none := by
  unfold held?
  rw [hkind]
  simp [hall]

/-- The default interval in small letters is held as if there were no interval. -/
theorem Slot.held?_default (hkind : slot.kind = .interval)
    (hw : Text.asciiLower w = Text.asciiLower s.defaultTimeInterval) (verb : String) :
    slot.held? s verb (some w) = slot.held? s verb none := by
  unfold held?
  rw [hkind]
  exact congrArg (fun text => some (Arg.text text)) hw

namespace Resolve

variable {head : Head} {g : Grammar} {words : List String} {flags : Arguments}

/-- **A captured word more makes no difference** if what is held for its slot is the same. -/
theorem arguments_more (hg : g ∈ Grammar.all) (hverb : head.verb ∈ g.words)
    (hfill : fill s g.slots words = some captures)
    (hmore : fill s g.slots (words ++ [w]) = some (captures ++ [⟨slot, w⟩]))
    (hopen : slot ∉ captures.map Capture.slot)
    (hblank : ∀ word ∈ words ++ [w], Text.isBlankText word = false)
    (hflags : ∀ slot ∈ g.slots, flags.get? slot.name = none)
    (hheld : slot.held? s head.verb (some w) = slot.held? s head.verb none) :
    arguments s head g (captures ++ [⟨slot, w⟩]) flags = arguments s head g captures flags := by
  -- Both fillings fit the grammar, and no flag stores under a slot; only the slots are left to
  -- compare.
  refine arguments_congr hg hverb (fill_eq_some hmore).1 (fill_eq_some hfill).1
    (isBlankText_of_fill hblank hmore) (isBlankText_of_fill (fun word hword =>
      hblank word (List.mem_append_left _ hword)) hfill) hflags fun other _ => ?_
  by_cases hsame : other = slot
  · obtain ⟨hnone, hsome⟩ := capturedWord?_of_open (w := w) hopen
    rw [hsame, hnone, hsome, hheld]
  · rw [capturedWord?_append_of_ne hsame]

/-- An interval that has no name on a platform is refused as the value of a flag. -/
theorem kind_of_withAlias {p : Platform} {args : Arguments} {e : Failure}
    (h : withAlias p.windowAlias args = .error e) : e.kind = "Invalid Command Flag" := by
  rw [withAlias_eq_source] at h
  cases hsource : aliasSource? p.windowAlias args with
  | none =>
    rw [hsource] at h
    exact absurd h (by simp)
  | some v =>
    rw [hsource] at h
    cases hv : p.windowAlias.transform v with
    | ok v' => exact absurd h (by simp [hv, Except.map])
    | error e' =>
      obtain rfl : e' = e := by simpa [hv, Except.map] using h
      -- Only MGID refuses to name an interval.
      cases p with
      | mgid => rw [Interval.error_of_mgidName hv]; rfl
      | zeropark => exact absurd hv (by simp [Platform.windowAlias, Interval.zeroparkName])
      | thrive => exact absurd hv (by simp [Platform.windowAlias, Interval.thriveName])

end Resolve

end more

/-! ## Whole lines

Lines are compared by what resolving them comes to. Where both are accepted, the arguments are the
same; where neither is, the failures are of one kind, as the failures of a line do not depend on
what its slots hold. -/

/-- Positional words are not blank, as no word of a line is. -/
theorem CommandLine.isBlankText_of_mem_positionals {text word : String} {line : CommandLine}
    (hline : ofWords? (Text.words text) = some line) (h : word ∈ positionals line.rest) :
    Text.isBlankText word = false := by
  obtain ⟨first, second, hwords, -⟩ := exists_of_ofWords? hline
  have hmem : word ∈ Text.words text := by
    rw [hwords]
    exact List.mem_cons_of_mem _ (List.mem_cons_of_mem _ (mem_of_mem_positionals h))
  exact Text.isBlankText_of_mem_wordsOf hmem

open Text (trim words asciiLower)

namespace Command

variable {s : Settings} {head : Head} {g : Grammar} {captures : List Capture} {slot : Slot}
  {w : String} {positionals : List String} {given : Flag → List Arg}

/-- **How a line fails that fits a grammar**: as its flags do, if these fail; as an invalid line, if no
platform that serves the verb is addressed; and else for want of a name for its window. -/
theorem kind_of_resolve {invalid e : Failure}
    (hgrammar : Grammar.choose? s head.verb positionals = some (g, captures))
    (h : resolve s invalid head positionals given = .error e) :
    e.kind = match Flag.collectAll g.flags s.flagPolicy given with
      | .error e => e.kind
      | .ok _ =>
        if (Platform.ofToken? head.platform).any (·.serves g.verb) then "Invalid Command Flag"
        else invalid.kind := by
  unfold resolve at h
  rw [hgrammar] at h
  simp only at h
  -- The order of the checks: flags first, then the platform, then the verb, and the window's name
  -- last.
  cases hflags : Flag.collectAll g.flags s.flagPolicy given with
  | error e' =>
    rw [hflags] at h
    exact congrArg Failure.kind (Except.error.inj h).symm
  | ok flags =>
    rw [hflags] at h
    simp only [bind, Except.bind] at h
    cases hplatform : Platform.ofToken? head.platform with
    | none =>
      rw [hplatform] at h
      exact congrArg Failure.kind (Except.error.inj h).symm
    | some p =>
      rw [hplatform] at h
      cases hserves : p.serves g.verb with
      | false =>
        simp only [hserves] at h
        simp only [Option.any_some, hserves]
        exact congrArg Failure.kind (Except.error.inj h).symm
      | true =>
        simp only [hserves, Bool.not_true, Bool.false_eq_true, if_false] at h
        simp only [Option.any_some, hserves, if_true]
        cases halias : Resolve.withAlias p.windowAlias
            (Resolve.arguments s head g captures flags) with
        | error e' =>
          rw [halias] at h
          exact Except.error.inj h ▸ Resolve.kind_of_withAlias halias
        | ok args => exact absurd h (by simp [halias, pure, Except.pure])

/-- The interval of a command that reads a window is the captured one, or else the default. -/
theorem IsResolved.get?_interval {c : Command}
    (h : IsResolved s head positionals given g captures c) (hw : g.windowed = true) :
    c.args.get? "time_interval" = some (.text (Text.asciiLower
      ((capturedInterval? captures).getD s.defaultTimeInterval))) := by
  obtain ⟨flags, -, halias⟩ := h.args
  obtain ⟨hg, hfill⟩ := Grammar.choose?_eq_some h.grammar
  -- No platform keeps its window under the interval's own name.
  have hname : ∀ p : Platform, "time_interval" ≠ p.windowAlias.name := by
    intro p
    cases p <;> decide
  rw [Resolve.get?_withAlias_of_ne (hname c.platform) halias,
    Resolve.get?_arguments_interval hg hw hfill]

/-- One positional word more is captured, in a slot that was open. -/
structure CapturesMore (s : Settings) (head : Head) (positionals : List String) (w : String)
    (g : Grammar) (captures : List Capture) (slot : Slot) : Prop where
  grammar : Grammar.choose? s head.verb positionals = some (g, captures)
  more : fill s g.slots (positionals ++ [w]) = some (captures ++ [⟨slot, w⟩])
  mem : slot ∈ g.slots
  free : slot ∉ captures.map Capture.slot
  filled : ∀ word ∈ positionals ++ [w], Text.isBlankText word = false

namespace CapturesMore

/-- With the word more the line fits the same grammar. -/
theorem grammar_more (h : CapturesMore s head positionals w g captures slot) :
    Grammar.choose? s head.verb (positionals ++ [w]) = some (g, captures ++ [⟨slot, w⟩]) := by
  obtain ⟨hg, -⟩ := Grammar.choose?_eq_some h.grammar
  rw [Grammar.choose?_eq hg (Grammar.mem_words_of_choose? h.grammar), h.more]
  rfl

/-- No flag stores under the name of a slot. -/
theorem get?_flags (h : CapturesMore s head positionals w g captures slot) {flags : Arguments}
    (hflags : Flag.collectAll g.flags s.flagPolicy given = .ok flags) :
    ∀ slot ∈ g.slots, flags.get? slot.name = none := fun slot hslot =>
  have hg := (Grammar.choose?_eq_some h.grammar).1
  IsResolved.get?_flags_of_ne hflags fun f _ heq =>
    (Grammar.slot_name_free g hg slot hslot).2.2 (heq ▸ f.mem_reserved)

/-- **The word more makes no difference** if what is held for its slot is the same. -/
theorem resolve_eq (h : CapturesMore s head positionals w g captures slot)
    (hheld : slot.held? s head.verb (some w) = slot.held? s head.verb none) (invalid : Failure) :
    resolve s invalid head (positionals ++ [w]) given =
      resolve s invalid head positionals given := by
  obtain ⟨hg, hfill⟩ := Grammar.choose?_eq_some h.grammar
  have hverb := Grammar.mem_words_of_choose? h.grammar
  unfold resolve
  rw [h.grammar, h.grammar_more]
  simp only
  -- Flags are given alike on both lines, and fail alike.
  cases hflags : Flag.collectAll g.flags s.flagPolicy given with
  | error e => rfl
  | ok flags =>
    simp only [bind, Except.bind]
    rw [Resolve.arguments_more hg hverb hfill h.more h.free h.filled (h.get?_flags hflags) hheld]

/-- **Where neither line is accepted, both fail alike**, whatever is held for the slot. -/
theorem kind_eq (h : CapturesMore s head positionals w g captures slot)
    {invalid₁ invalid₂ e₁ e₂ : Failure} (hinvalid : invalid₁.kind = invalid₂.kind)
    (h₁ : resolve s invalid₁ head positionals given = .error e₁)
    (h₂ : resolve s invalid₂ head (positionals ++ [w]) given = .error e₂) : e₁.kind = e₂.kind := by
  rw [kind_of_resolve h.grammar h₁, kind_of_resolve h.grammar_more h₂, hinvalid]

/-- If both lines stand for one command and the word went into the slot for intervals, then the word
is the default, up to letter case. -/
theorem lower_eq (h : CapturesMore s head positionals w g captures slot) (hw : g.windowed = true)
    (hkind : slot.kind = .interval) (hnone : capturedInterval? captures = none)
    {invalid₁ invalid₂ : Failure} {c : Command}
    (h₁ : resolve s invalid₁ head positionals given = .ok c)
    (h₂ : resolve s invalid₂ head (positionals ++ [w]) given = .ok c) :
    Text.asciiLower w = Text.asciiLower s.defaultTimeInterval := by
  obtain ⟨g₁, captures₁, hread₁⟩ := exists_isResolved h₁
  obtain ⟨g₂, captures₂, hread₂⟩ := exists_isResolved h₂
  obtain ⟨rfl, rfl⟩ := Prod.mk.inj (Option.some.inj (hread₁.grammar.symm.trans h.grammar))
  obtain ⟨rfl, rfl⟩ := Prod.mk.inj (Option.some.inj (hread₂.grammar.symm.trans h.grammar_more))
  have hsome : capturedInterval? (captures₁ ++ [⟨slot, w⟩]) = some w := by
    unfold capturedInterval?
    rw [List.find?_append, Option.map_eq_none_iff.1 hnone]
    simp [Capture.isInterval, hkind]
  -- One command holds one interval, so the word is the default.
  have hheld := (hread₁.get?_interval hw).symm.trans (hread₂.get?_interval hw)
  rw [hnone, hsome] at hheld
  exact (Arg.text.inj (Option.some.inj hheld)).symm

/-- **The default as the word more**: when the two lines are read alike. -/
theorem sameReading_iff
    (h : CapturesMore s head positionals (trim s.defaultTimeInterval) g captures slot)
    (hw : g.windowed = true) (hnone : capturedInterval? captures = none)
    (hslot : slot.kind = .identifier ∧ g.NamesAll s captures (trim s.defaultTimeInterval) ∨
      slot.kind = .interval ∧ ¬ g.NamesAll s captures (trim s.defaultTimeInterval))
    {invalid₁ invalid₂ : Failure} (hinvalid : invalid₁.kind = invalid₂.kind) :
    SameReading (resolve s invalid₁ head positionals given)
        (resolve s invalid₂ head (positionals ++ [trim s.defaultTimeInterval]) given) ↔
      trim s.defaultTimeInterval = s.defaultTimeInterval ∨
        g.NamesAll s captures (trim s.defaultTimeInterval) ∨
        (∀ c, resolve s invalid₁ head positionals given ≠ .ok c) ∧
          ∀ c, resolve s invalid₂ head (positionals ++ [trim s.defaultTimeInterval]) given ≠
            .ok c := by
  rw [← or_assoc]
  -- One direction reads the word off the command, the other puts it back.
  constructor
  · intro hsame
    generalize h₁ : resolve s invalid₁ head positionals given = r₁ at hsame ⊢
    generalize h₂ : resolve s invalid₂ head (positionals ++ [trim s.defaultTimeInterval]) given =
      r₂ at hsame ⊢
    cases hsame with
    | failure hkind => exact .inr ⟨by simp, by simp⟩
    | command c =>
      refine .inl ?_
      rcases hslot with ⟨-, hall⟩ | ⟨hkind, -⟩
      · exact .inr hall
      · have hlower := h.lower_eq hw hkind hnone h₁ h₂
        -- A default that is as long without its blanks has none.
        have hlength : (trim s.defaultTimeInterval).length = s.defaultTimeInterval.length := by
          rw [← Text.length_asciiLower, hlower, Text.length_asciiLower]
        exact .inl (Text.trim_eq_self_of_length hlength)
  · rintro (hwhy | ⟨hfails₁, hfails₂⟩)
    · have hheld : slot.held? s head.verb (some (trim s.defaultTimeInterval)) =
          slot.held? s head.verb none := by
        rcases hslot with ⟨hkind, hall⟩ | ⟨hkind, hnot⟩
        · exact Slot.held?_all hkind hall.1 head.verb
        · exact Slot.held?_default hkind (by rw [hwhy.resolve_right hnot]) head.verb
      rw [h.resolve_eq hheld]
      exact resolve_sameReading hinvalid _ _ _
    · cases h₁ : resolve s invalid₁ head positionals given with
      | ok c => exact absurd h₁ (hfails₁ c)
      | error e₁ =>
        cases h₂ : resolve s invalid₂ head (positionals ++ [trim s.defaultTimeInterval]) given with
        | ok c => exact absurd h₂ (hfails₂ c)
        | error e₂ => exact .failure (h.kind_eq hinvalid h₁ h₂)

end CapturesMore

end Command

/-- **To type the default interval comes to leaving it out**, where it would be the last positional
word of a line that reads a window, exactly if the default is configured without blanks around it, or
it names everything while an identifier is open, or neither of the two lines is accepted. -/
theorem Bot.parse_typed_default (b : Bot) {text longer platform verb : String}
    {before after : List String} {line : CommandLine} {g : Grammar} {captures : List Capture}
    (htext : words text = platform :: verb :: (before ++ after))
    (hlonger : words longer =
      platform :: verb :: (before ++ words b.settings.defaultTimeInterval ++ after))
    (hline : CommandLine.ofWords? (words text) = some line)
    (hgrammar : line.grammar? b.settings = some (g, captures)) (hwindow : g.windowed = true)
    (hnone : capturedInterval? captures = none)
    (hlast : CommandLine.IsLastPositional before (trim b.settings.defaultTimeInterval) after) :
    Command.SameReading (b.parse text) (b.parse longer) ↔
      trim b.settings.defaultTimeInterval = b.settings.defaultTimeInterval ∨
        g.NamesAll b.settings captures (trim b.settings.defaultTimeInterval) ∨
        (∀ c, b.parse text ≠ .ok c) ∧ ∀ c, b.parse longer ≠ .ok c := by
  have hword := b.valid.isWritten_default.1
  rw [b.valid.words_default, List.append_assoc, List.singleton_append] at hlonger
  obtain ⟨given, hparse, hparse'⟩ := Command.parse_inserted b.settings htext hlonger hline hlast
    b.valid.accepts_default
  obtain ⟨hg, hfill⟩ := Grammar.choose?_eq_some hgrammar
  -- The word goes into the open slot for intervals, or into the one for an identifier.
  obtain ⟨slot, hmem, hfree, hmore, hslot⟩ := Grammar.exists_slot hg hwindow hfill hnone hword
  have hfilled : ∀ word ∈ CommandLine.positionals line.rest ++
      [trim b.settings.defaultTimeInterval], Text.isBlankText word = false :=
    List.forall_mem_append.2 ⟨fun _ => CommandLine.isBlankText_of_mem_positionals hline,
      List.forall_mem_singleton.2 (Interval.isBlankText_of_isWritten hword)⟩
  have hcaptures : Command.CapturesMore b.settings line.toHead
      (CommandLine.positionals line.rest) (trim b.settings.defaultTimeInterval) g captures slot :=
    ⟨hgrammar, hmore, hmem, hfree, hfilled⟩
  unfold parse
  rw [hparse, hparse']
  exact hcaptures.sameReading_iff hwindow hnone hslot rfl

/-! A blank in front of the default: MGID has a name for the interval that is typed, and takes the one
that is left out for a custom interval. -/

namespace PaddedDefault

def bot : Bot := ⟨{ defaultTimeInterval := " 7d" }, by decide⟩

def grammar : Grammar :=
  ⟨"campaign stats", .stats, ["stats"], [Grammar.anyCampaign, Grammar.interval], true⟩

/-- The typed default stands alone behind the verb. -/
theorem isLastPositional : CommandLine.IsLastPositional [] "7d" [] where
  here := ⟨⟨"7d", rfl, by decide⟩, fun f => by
    rw [List.nil_append, Flag.roles_plain (by decide)]
    rfl⟩
  last i hi h := by
    obtain ⟨word, hword, -⟩ := h.unmarked
    rw [List.getElem?_eq_none (show ([] ++ ["7d"]).length ≤ i from hi)] at hword
    exact absurd hword (by simp)

end PaddedDefault

theorem Bot.parse_typed_default_padded :
    ¬ Command.SameReading (PaddedDefault.bot.parse "/mgid stats")
        (PaddedDefault.bot.parse "/mgid stats 7d") ∧
      (PaddedDefault.bot.parse "/mgid stats").toOption.bind (·.args.get? "date_interval") =
        some (.text "interval") ∧
      (PaddedDefault.bot.parse "/mgid stats 7d").toOption.bind (·.args.get? "date_interval") =
        some (.text "lastSeven") := by
  have hcustom : (PaddedDefault.bot.parse "/mgid stats").toOption.bind
      (·.args.get? "date_interval") = some (.text "interval") := by
    decide +kernel
  have htrim : trim PaddedDefault.bot.settings.defaultTimeInterval = "7d" := by decide +kernel
  have htext : words "/mgid stats" = "/mgid" :: "stats" :: ([] ++ []) := by decide +kernel
  have hlonger : words "/mgid stats 7d" =
      "/mgid" :: "stats" :: ([] ++ words PaddedDefault.bot.settings.defaultTimeInterval ++ []) := by
    decide +kernel
  have hline : CommandLine.ofWords? (words "/mgid stats") = some ⟨⟨"mgid", "stats"⟩, []⟩ := by
    decide +kernel
  have hgrammar : CommandLine.grammar? PaddedDefault.bot.settings ⟨⟨"mgid", "stats"⟩, []⟩ =
      some (PaddedDefault.grammar, []) := by
    decide +kernel
  have hlast : CommandLine.IsLastPositional []
      (trim PaddedDefault.bot.settings.defaultTimeInterval) [] :=
    htrim ▸ PaddedDefault.isLastPositional
  have hiff := PaddedDefault.bot.parse_typed_default htext hlonger hline hgrammar rfl rfl hlast
  refine ⟨fun hsame => ?_, hcustom, by decide +kernel⟩
  rcases hiff.1 hsame with hplain | hall | ⟨hfails, -⟩
  · exact absurd hplain (by decide +kernel)
  · exact absurd hall (by decide +kernel)
  · obtain ⟨c, hread, -⟩ := Option.bind_eq_some_iff.1 hcustom
    exact hfails c (toOption_eq_some_iff.1 hread)

end AdOps
