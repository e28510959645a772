import AdOps.Proofs.Bot.Omitted
import AdOps.Proofs.CommandLine.Placement
import AdOps.Proofs.CommandLine.Synonyms

/-!
# Lines with nothing but what is required

The shortest line for a command names its platform and its verb and gives a number for every slot
that has to be filled. Everything else falls back to the settings. Valid settings keep these lines
usable, with one exception: MGID has names for counts of days, for today and for yesterday, so with
another word as the default interval its commands that read a window refuse to fall back.

* **`exists_fill`** — numbers fill the slots that have to be filled.
* **`mgidName_default`** — what MGID makes of a valid default interval.
* **`parse_bare`** — which of the shortest lines are accepted.
-/

namespace AdOps

open Text (asciiLower trim words)

/-! ## Numbers as words

What fills a slot on a shortest line is a run of digits. It carries no marker, so it is no flag and
gives none a value, and it fits every slot that has to be filled. -/

namespace Number

variable {s : Settings} {w : String}

theorem isDigits_of_isNumeral (h : isNumeral w.toList = true) : Text.isDigits w.toList = true :=
  (isNumeral_iff.1 h).1

/-- A number carries no marker. -/
theorem unmark_of_isNumeral (h : isNumeral w.toList = true) : Flag.unmark w.toList = none := by
  have hdigit := isDigit_of_isNumeral h
  unfold Flag.unmark
  split
  · next rest heq => exact absurd (hdigit '/' (by simp [heq])) (by decide)
  · next rest heq => exact absurd (hdigit '-' (by simp [heq])) (by decide)
  · rfl

/-- A number fits every slot but one for intervals. -/
theorem fits_of_isNumeral (h : isNumeral w.toList = true) {kind : SlotKind}
    (hkind : kind ≠ .interval) : kind.fits s w = true := by
  have hdigits := isDigits_of_isNumeral h
  cases kind with
  | identifier => simp [SlotKind.fits, hdigits]
  | interval => exact absurd rfl hkind
  -- A threshold is digits with or without a point, and these are digits up to the end.
  | threshold =>
    have hall := Text.isDigit_of_isDigits hdigits
    have htake : w.toList.takeWhile Text.isDigit = w.toList := List.takeWhile_eq_self_iff.2 hall
    have hdrop : w.toList.dropWhile Text.isDigit = [] := List.dropWhile_eq_nil_iff.2 hall
    have hne : w.toList.isEmpty = false := by
      cases hnil : w.toList with
      | nil => simp [isNumeral, hnil] at h
      | cons c cs => rfl
    simp [SlotKind.fits, SlotKind.isThreshold, htake, hdrop, hne]
  | limit => exact hdigits

end Number

/-- Words without a marker are all positional and give no flag anything. -/
theorem CommandLine.positionals_unmarked {ws : List String}
    (h : ∀ w ∈ ws, Flag.unmark w.toList = none) :
    positionals ws = ws ∧ ∀ f : Flag, f.given ws = [] := by
  induction ws with
  | nil => exact ⟨by decide, fun f => rfl⟩
  | cons w ws ih =>
    obtain ⟨hw, hws⟩ := List.forall_mem_cons.1 h
    obtain ⟨hpositional, hgiven⟩ := ih hws
    -- A word without a marker is cut off the line for every flag, so the induction goes word by
    -- word.
    have hsplits : ∀ f : Flag, f.Splits [w] ws := fun f => Flag.Closed.plain hw ws
    constructor
    · exact (positionals_append hsplits).trans (by rw [positionals_plain hw, hpositional]; rfl)
    · intro f
      refine (Flag.given_append (hsplits f)).trans ?_
      rw [hgiven, Flag.given, Flag.roles_plain hw]
      rfl

/-- Flags that are not given leave no arguments, under any policy. -/
theorem Flag.collectAll_nothing (allowed : List Flag) (policy : FlagPolicy) :
    collectAll allowed policy (fun _ => []) = .ok NameMap.empty := by
  unfold collectAll
  induction allowed with
  | nil => rfl
  | cons f allowed ih =>
    rw [List.foldlM_cons, show collect policy (fun _ => []) NameMap.empty f = .ok NameMap.empty by
      cases policy <;> rfl]
    exact ih

/-! ## Slots that have to be filled

Every grammar has the slots that must be filled before those that may stay empty. So the words of a
shortest line go to the required slots one by one, and the optional ones get none. -/

namespace Grammar

/-- No grammar has a required slot behind an optional one. -/
theorem requiredFirst : ∀ g ∈ all, RequiredFirst g.slots := by decide

/-- Intervals need not be given. -/
theorem required_kind : ∀ g ∈ all, ∀ slot ∈ g.slots, slot.optional = false →
    slot.kind ≠ .interval := by
  decide

/-- Every verb has a grammar. -/
theorem exists_of_verb (v : Verb) : ∃ g ∈ all, g.verb = v := by
  cases v <;> decide

/-- The slots that have to be filled. -/
def required (g : Grammar) : List Slot := g.slots.filter fun slot => !slot.optional

end Grammar

/-- **As many words as there are slots to fill** fill them, if each fits all of them. -/
theorem exists_fill {s : Settings} {slots : List Slot} {ws : List String}
    (hfirst : RequiredFirst slots)
    (hlength : ws.length = (slots.filter fun slot => !slot.optional).length)
    (hfits : ∀ w ∈ ws, ∀ slot ∈ slots, slot.optional = false → slot.kind.fits s w = true) :
    ∃ captures, fill s slots ws = some captures ∧ ∀ c ∈ captures, c.slot.optional = false := by
  -- Induction on the slots: the required ones in front take a word each.
  induction slots generalizing ws with
  | nil =>
    obtain rfl := List.length_eq_zero_iff.1 hlength
    exact ⟨[], rfl, by simp⟩
  | cons slot slots ih =>
    obtain ⟨hlater, hslots⟩ := List.pairwise_cons.1 hfirst
    cases hslot : slot.optional with
    | true =>
      -- slots :: From the first optional slot on all slots are optional, so no word is left for
      -- them.
      have hall : ∀ other ∈ slot :: slots, other.optional = true :=
        List.forall_mem_cons.2 ⟨hslot, fun other hother => hlater other hother hslot⟩
      rw [List.filter_eq_nil_iff.2 fun other hother => by simp [hall other hother]] at hlength
      obtain rfl := List.length_eq_zero_iff.1 hlength
      exact ⟨[], fill_of_optional hall, by simp⟩
    | false =>
      rw [List.filter_cons_of_pos (by simp [hslot]), List.length_cons] at hlength
      obtain ⟨w, ws, rfl⟩ := List.exists_cons_of_length_eq_add_one hlength
      obtain ⟨hw, hws⟩ := List.forall_mem_cons.1 hfits
      obtain ⟨captures, hfill, hrequired⟩ := ih hslots (Nat.succ.inj hlength)
        fun w hmem other hother => hws w hmem other (List.mem_cons_of_mem _ hother)
      refine ⟨⟨slot, w⟩ :: captures, ?_, List.forall_mem_cons.2 ⟨hslot, hrequired⟩⟩
      rw [fill, if_pos (hw slot List.mem_cons_self hslot), hfill]
      rfl

/-! ## The default interval

A valid default interval is a keyword or a number of days. MGID has a name for every number of days
and for two of the keywords; with another one it refuses the time range, and the message shows the
default as the settings write it, in small letters. -/

namespace Interval

variable {text raw : String}

/-- A keyword other than today and yesterday has no name on MGID. -/
theorem not_named_of_keyword {word : String} (h : read? raw = some (.keyword word))
    (htoday : word ≠ "today") (hyesterday : word ≠ "yesterday") :
    ∀ name ∈ ["1d", "today", "yesterday", "7d", "1w", "30d", "1m"], raw ≠ name := by
  have hread : ∀ name ∈ ["1d", "today", "yesterday", "7d", "1w", "30d", "1m"],
      read? name ≠ some (.keyword word) := by
    have hnames : read? "1d" = some (.days 1) ∧ read? "today" = some (.keyword "today") ∧
        read? "yesterday" = some (.keyword "yesterday") ∧ read? "7d" = some (.days 7) ∧
        read? "1w" = some (.days 7) ∧ read? "30d" = some (.days 30) ∧
        read? "1m" = some (.days 30) := by
      decide
    obtain ⟨h₁, h₂, h₃, h₄, h₅, h₆, h₇⟩ := hnames
    simp [h₁, h₂, h₃, h₄, h₅, h₆, h₇, htoday.symm, hyesterday.symm]
  -- A name that was the interval itself would be read as the keyword too.
  rintro name hname rfl
  exact hread raw hname h

/-- MGID takes every count of days, and today and yesterday as they are written. -/
theorem exists_mgidName_default (h : (∃ n, read? text = some (.days n)) ∨
    asciiLower text = "today" ∨ asciiLower text = "yesterday") :
    ∃ v, mgidName (.text (asciiLower text)) = .ok v := by
  have hdisplay : Arg.display (.text (asciiLower text)) = asciiLower text := rfl
  rcases h with ⟨n, hread⟩ | htoday | hyesterday
  -- A number of days has one of the four names or goes out as a custom interval.
  · unfold mgidName
    dsimp only
    rw [hdisplay, Text.asciiLower_asciiLower, read?_asciiLower, hread]
    repeat' split
    all_goals exact ⟨_, rfl⟩
  · rw [htoday]
    exact ⟨_, rfl⟩
  · rw [hyesterday]
    exact ⟨_, rfl⟩

/-- **MGID refuses every other keyword** as a time range. -/
theorem mgidName_keyword {word : String} (h : read? text = some (.keyword word))
    (htoday : word ≠ "today") (hyesterday : word ≠ "yesterday") :
    mgidName (.text (asciiLower text)) =
      .error (.invalidFlag "time_range" (asciiLower text)) := by
  have hread : read? (asciiLower text) = some (.keyword word) := (read?_asciiLower text).trans h
  have hnamed := not_named_of_keyword hread htoday hyesterday
  simp only [List.mem_cons, List.not_mem_nil, or_false, forall_eq_or_imp, forall_eq] at hnamed
  obtain ⟨h₁, h₂, h₃, h₄, h₅, h₆, h₇⟩ := hnamed
  have hdisplay : Arg.display (.text (asciiLower text)) = asciiLower text := rfl
  unfold mgidName
  simp only [hdisplay, Text.asciiLower_asciiLower, h₁, h₂, h₃, h₄, h₅, h₆, h₇, or_self, if_false,
    hread]

end Interval

/-! ## The shortest lines

On a shortest line nothing is given but the head and the numbers, so everything else comes from the
settings. Accepting it is then only a question of the window's name. -/

/-- The words of a line: a platform, a verb, a number for every slot that has to be filled, and
nothing else. -/
inductive CommandLine.IsBare (p : Platform) (g : Grammar) : List String → Prop where
  | mk {name verb : String} {numbers : List String} (head : Head.IsTyped p g name verb)
    (length : numbers.length = g.required.length)
    (numerals : ∀ w ∈ numbers, Number.isNumeral w.toList = true) :
    IsBare p g (("/" ++ name) :: verb :: numbers)

namespace Command

variable {s : Settings} {p : Platform} {g : Grammar} {text : String}

/-- **What is left of a shortest line**: the arguments that it falls back to, and the platform's name
for its window. -/
theorem exists_parse_bare (hs : s.Valid) (hg : g ∈ Grammar.all) (hserves : p.serves g.verb = true)
    (hbare : CommandLine.IsBare p g (words text)) :
    ∃ args, parse s text = (Resolve.withAlias p.windowAlias args).map
        (fun args => ⟨p, g.verb, g.name, args⟩) ∧
      (g.windowed = false → Resolve.withAlias p.windowAlias args = .ok args) ∧
      (g.windowed = true →
        (Timeframe.mk (asciiLower s.defaultTimeInterval) none).In args) := by
  generalize hwords : words text = ws at hbare
  obtain @⟨name, verb, numbers, hhead, hlength, hnumerals⟩ := hbare
  obtain ⟨hpositionals, hgiven⟩ := CommandLine.positionals_unmarked
    fun w hw => Number.unmark_of_isNumeral (hnumerals w hw)
  -- No flag is given anything, neither by the head nor by the numbers.
  have hnothing : ∀ f : Flag, f.given (("/" ++ name) :: verb :: numbers) = [] := fun f =>
    (hhead.given hg f numbers).trans (hgiven f)
  obtain ⟨captures, hfill, hrequired⟩ := exists_fill (s := s) (Grammar.requiredFirst g hg) hlength
    fun w hw slot hslot hoptional =>
      Number.fits_of_isNumeral (hnumerals w hw) (Grammar.required_kind g hg slot hslot hoptional)
  have hsub := (fill_eq_some hfill).1
  have hflags : Flag.collectAll g.flags s.flagPolicy
      (fun f => f.given (("/" ++ name) :: verb :: numbers)) = .ok NameMap.empty := by
    simp only [hnothing]
    exact Flag.collectAll_nothing _ _
  have hplatform : Platform.ofToken? (asciiLower name) = some p :=
    (Platform.tokens_facts p (by cases p <;> decide) _ hhead.platform).2.2.1
  -- What is left to do is naming the window, which is the last step of the resolution.
  refine ⟨Resolve.arguments s ⟨asciiLower name, asciiLower verb⟩ g captures NameMap.empty, ?_,
    fun hw => IsResolved.withAlias_unwindowed hg hw hhead.verb hsub hflags p, fun hw => ?_⟩
  · simp only [hhead.given hg] at hflags
    rw [parse_typed hg hhead hwords, resolve]
    simp only [hpositionals, Grammar.choose?_eq hg hhead.verb, hfill, Option.map_some]
    simp only [bind, Except.bind, hflags, hplatform, hserves]
    cases Resolve.withAlias p.windowAlias
      (Resolve.arguments s ⟨asciiLower name, asciiLower verb⟩ g captures NameMap.empty) <;> rfl
  · let line : CommandLine := ⟨⟨asciiLower name, asciiLower verb⟩, numbers⟩
    have hin : (Timeframe.ofLine s (("/" ++ name) :: verb :: numbers) captures).In
        (Resolve.arguments s line.toHead g captures NameMap.empty) :=
      IsReading.in_arguments hs hg hw hfill hflags
    -- Neither a flag nor a positional word asks for a time.
    have hchosen : ∀ f : Flag, f.chosen? s.flagPolicy (("/" ++ name) :: verb :: numbers) = none := by
      intro f
      unfold Flag.chosen?
      rw [hnothing]
      cases s.flagPolicy <;> rfl
    have hinterval : capturedInterval? captures = none := by
      refine Option.map_eq_none_iff.2 (List.find?_eq_none.2 fun c hc hkind => ?_)
      exact Grammar.required_kind g hg c.slot (hsub.subset (List.mem_map_of_mem hc))
        (hrequired c hc) (of_decide_eq_true hkind)
    unfold Timeframe.ofLine at hin
    rw [hchosen, hchosen, hinterval] at hin
    exact hin

end Command

/-- Only MGID refuses to name a window. -/
theorem Resolve.exists_withAlias {p : Platform} (hp : p ≠ .mgid) (args : Arguments) :
    ∃ args', withAlias p.windowAlias args = .ok args' := by
  rw [withAlias_eq_source]
  cases aliasSource? p.windowAlias args with
  | none => exact ⟨args, rfl⟩
  | some v =>
    cases p with
    | mgid => exact absurd rfl hp
    | zeropark => exact ⟨_, rfl⟩
    | thrive => exact ⟨_, rfl⟩

/-- MGID's name for the window is told by the interval that the arguments hold. -/
theorem Timeframe.In.withAlias_mgid {t : Timeframe} {args : Arguments} (h : t.In args) :
    Resolve.withAlias Platform.mgid.windowAlias args =
      (Interval.mgidName (.text t.interval)).map (args.insert "date_interval") :=
  h.withAlias_eq rfl h.unnamed.1

/-- **Which of the shortest lines are accepted.** Whatever the valid settings are, a platform accepts
the line of every verb that it serves, but MGID takes only some default intervals for the verbs that
read a window: counts of days, today and yesterday. With any other keyword it refuses the time range
that it fell back to. -/
theorem Bot.parse_bare (b : Bot) {p : Platform} {v : Verb} (hv : v ∈ p.verbs) :
    ∃ g ∈ Grammar.all, g.verb = v ∧
      ∀ text, CommandLine.IsBare p g (words text) →
        ((p = .mgid → g.windowed = true →
            (∃ n, Interval.read? b.settings.defaultTimeInterval = some (.days n)) ∨
              asciiLower b.settings.defaultTimeInterval = "today" ∨
              asciiLower b.settings.defaultTimeInterval = "yesterday") →
          ∃ c, b.parse text = .ok c ∧ c.platform = p ∧ c.verb = v) ∧
        (p = .mgid → g.windowed = true →
          ∀ word, Interval.read? b.settings.defaultTimeInterval = some (.keyword word) →
            word ≠ "today" → word ≠ "yesterday" →
              b.parse text =
                .error (.invalidFlag "time_range" (asciiLower b.settings.defaultTimeInterval))) := by
  obtain ⟨g, hg, rfl⟩ := Grammar.exists_of_verb v
  refine ⟨g, hg, rfl, fun text hbare => ?_⟩
  obtain ⟨args, hparse, hunwindowed, hwindowed⟩ :=
    Command.exists_parse_bare b.valid hg (List.mem_filter.1 hv).2 hbare
  unfold parse
  rw [hparse]
  constructor
  · intro hdefault
    obtain ⟨args', hargs⟩ : ∃ args', Resolve.withAlias p.windowAlias args = .ok args' := by
      -- A verb without a window has none to be named, and only MGID can refuse one.
      cases hw : g.windowed with
      | false => exact ⟨args, hunwindowed hw⟩
      | true =>
        by_cases hp : p = .mgid
        · subst hp
          obtain ⟨name, hname⟩ := Interval.exists_mgidName_default (hdefault rfl hw)
          rw [(hwindowed hw).withAlias_mgid, hname]
          exact ⟨_, rfl⟩
        · exact Resolve.exists_withAlias hp args
    rw [hargs]
    exact ⟨_, rfl, rfl, rfl⟩
  · rintro rfl hw word hread htoday hyesterday
    rw [(hwindowed hw).withAlias_mgid, Interval.mgidName_keyword hread htoday hyesterday]
    rfl

/-! The default of one bot counts days, and that of another is a keyword that only Zeropark and the
tracker know what to do with. -/

namespace BareLines

def counting : Bot := ⟨{}, Settings.valid_default⟩

def lastWeek : Bot := ⟨{ defaultTimeInterval := "lastweek" }, by decide⟩

/-- What the grammar for the verb asks for. -/
theorem grammar_of_verb : ∀ g ∈ Grammar.all, g.verb = .widgetsKillBot →
    g.required = [Grammar.campaign, Grammar.threshold] ∧ g.words = ["widgets-kill-bot"] := by
  decide

end BareLines

open BareLines in
theorem Bot.parse_bare_kill : Verb.widgetsKillBot ∈ Platform.mgid.verbs ∧
    (∃ c, counting.parse "/mgid widgets-kill-bot 1 50" = .ok c ∧ c.platform = .mgid ∧
      c.verb = .widgetsKillBot) ∧
    lastWeek.parse "/mgid widgets-kill-bot 1 50" =
      .error (.invalidFlag "time_range" "lastweek") := by
  have hv : Verb.widgetsKillBot ∈ Platform.mgid.verbs := by decide
  have hbare : ∀ g ∈ Grammar.all, g.verb = .widgetsKillBot →
      CommandLine.IsBare .mgid g (words "/mgid widgets-kill-bot 1 50") := by
    intro g hg hverb
    obtain ⟨hrequired, hwords⟩ := grammar_of_verb g hg hverb
    rw [show words "/mgid widgets-kill-bot 1 50" =
      ("/" ++ "mgid") :: "widgets-kill-bot" :: ["1", "50"] by decide +kernel]
    exact .mk ⟨by decide, by rw [hwords]; decide⟩ (by rw [hrequired]; rfl) (by decide)
  have hwindow : ∀ g ∈ Grammar.all, g.verb = .widgetsKillBot → g.windowed = true := by decide
  obtain ⟨g, hg, hverb, hcounting⟩ := counting.parse_bare hv
  obtain ⟨g', hg', hverb', hlastWeek⟩ := lastWeek.parse_bare hv
  refine ⟨hv, (hcounting _ (hbare g hg hverb)).1 fun _ _ => .inl ⟨360, by decide +kernel⟩, ?_⟩
  rw [(hlastWeek _ (hbare g' hg' hverb')).2 rfl (hwindow g' hg' hverb') "lastweek"
    (by decide +kernel) (by decide) (by decide)]
  rfl

open BareLines in
/-- The settings are valid, the verb is one that MGID serves, and nothing is required behind it. -/
theorem Bot.parse_bare_refused : Verb.stats ∈ Platform.mgid.verbs ∧
    CommandLine.IsBare .mgid
      ⟨"campaign stats", .stats, ["stats"], [Grammar.anyCampaign, Grammar.interval], true⟩
      (words "/mgid stats") ∧
    ∀ c, lastWeek.parse "/mgid stats" ≠ .ok c := by
  refine ⟨by decide, ?_, fun c hok => ?_⟩
  · rw [show words "/mgid stats" = ("/" ++ "mgid") :: "stats" :: [] by decide +kernel]
    exact .mk ⟨by decide, by decide⟩ rfl (by simp)
  · have hfails : (lastWeek.parse "/mgid stats").isOk = false := by decide +kernel
    rw [hok] at hfails
    exact absurd hfails (by simp [Except.isOk, Except.toBool])

end AdOps
