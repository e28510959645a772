import AdOps.Proofs.CommandLine.Accepted
import AdOps.Proofs.CommandLine.Arguments

/-!
# The time that a line asks for

A line asks for an interval, and it may ask for a range of dates by itself. Its command holds the
interval under one of two names, depending on where it came from, and a platform's own name for the
interval under a third, which for one platform is one of the two. However that turns out, the
command holds the `Timeframe` of its line.

* **`withAlias_eq`** — the name of a network is derived from the interval of the timeframe.
* **`in_arguments`** — the arguments of a line hold its timeframe.
* **`IsReading.holds`** — so does the command that the line was accepted as.
-/

namespace AdOps

/-- The time that a line asks for: an interval in small letters, and a range of dates if one is
written. -/
structure Timeframe where
  interval : String
  range? : Option String

/-- The timeframe of a line. A chosen `/time` goes before the interval in its slot, and the default
interval stands in if there is neither. -/
def Timeframe.ofLine (s : Settings) (words : List String) (captures : List Capture) :
    Timeframe where
  interval := Text.asciiLower <|
    (((Flag.timeRange.chosen? s.flagPolicy words).bind Arg.text?).or
      (capturedInterval? captures)).getD s.defaultTimeInterval
  range? := (Flag.dateRange.chosen? s.flagPolicy words).bind Arg.text?

/-- A platform's own name for an interval. The tracker takes an interval as it is. -/
def Platform.intervalName (p : Platform) (interval : String) : Except Failure Arg :=
  match p with
  | .mgid => Interval.mgidName (.text interval)
  | .zeropark => Interval.zeroparkName (.text interval)
  | .thrive => .ok (.text interval)

/-! ## What a command holds of its timeframe

The interval may have come from the flag or from the slot, and the name of the platform for it is
written to an argument of its own, or to that of the flag. `Timeframe.In` says what is held before
that step, `Command.Holds` what is held after it. -/

namespace Interval

/-- The name for MGID is a text. -/
theorem exists_of_mgidName {a v : Arg} (h : mgidName a = .ok v) : ∃ name, v = .text name := by
  unfold mgidName at h
  dsimp only at h
  repeat' split at h
  all_goals first
    | exact ⟨_, (Except.ok.inj h).symm⟩
    | exact absurd h (by simp)

theorem exists_of_zeroparkName {a v : Arg} (h : zeroparkName a = .ok v) :
    ∃ name, v = .text name :=
  ⟨_, (Except.ok.inj h).symm⟩

end Interval

/-- The command holds the timeframe: its interval, the name of the platform for it, and its range of
dates. -/
structure Command.Holds (c : Command) (t : Timeframe) : Prop where
  interval : ((c.args.text? "time_range").orElse fun _ => c.args.text? "time_interval") =
    some t.interval
  lower : Text.asciiLower t.interval = t.interval
  param : ∃ name, c.platform.intervalName t.interval = .ok (.text name) ∧
    c.args.text? c.platform.windowAlias.name = some name
  range : c.args.text? "date_range" = t.range?

/-- The arguments of a line hold the timeframe, before the name of the platform is added. -/
structure Timeframe.In (t : Timeframe) (args : Arguments) : Prop where
  interval : args.get? "time_range" = some (.text t.interval) ∨
    args.get? "time_range" = none ∧ args.get? "time_interval" = some (.text t.interval)
  lower : Text.asciiLower t.interval = t.interval
  filled : Text.isBlankText t.interval = false
  range : args.text? "date_range" = t.range?
  unnamed : args.get? "date_interval" = none ∧ args.get? "interval" = none

namespace Timeframe.In

variable {t : Timeframe} {args : Arguments}

/-- The interval is found where a handler looks for it. -/
theorem text?_interval (h : t.In args) :
    ((args.text? "time_range").orElse fun _ => args.text? "time_interval") = some t.interval := by
  rcases h.interval with hflag | ⟨hnone, hslot⟩
  · rw [Arguments.text?_eq_some hflag]
    rfl
  · rw [Arguments.text?_eq_none hnone, Arguments.text?_eq_some hslot]
    rfl

/-- The name of the platform is derived from the interval of the timeframe. -/
theorem withAlias_eq (h : t.In args) {a : WindowAlias}
    (hsources : a.sources = ["time_range", "time_interval"]) (hname : args.get? a.name = none) :
    Resolve.withAlias a args = (a.transform (.text t.interval)).map (args.insert a.name) := by
  have habsent := Resolve.isAbsent_of_none hname
  -- The flag is the first source; the slot is asked only if the flag holds nothing.
  rcases h.interval with hflag | ⟨hnone, hslot⟩
  · have hfirst : a.sources = [] ++ "time_range" :: ["time_interval"] := hsources
    exact Resolve.withAlias_of_absent habsent hfirst (by simp) hflag h.filled
  · have hsecond : a.sources = ["time_range"] ++ "time_interval" :: [] := hsources
    exact Resolve.withAlias_of_absent habsent hsecond (by simpa) hslot h.filled

/-- A command for a network holds the timeframe with the network's own name for the interval. -/
theorem holds_network (h : t.In args) {c : Command}
    (hsources : c.platform.windowAlias.sources = ["time_range", "time_interval"])
    (hnone : args.get? c.platform.windowAlias.name = none)
    (hother : c.platform.windowAlias.name ∉ ["time_range", "time_interval", "date_range"])
    (htransform : c.platform.windowAlias.transform (.text t.interval) =
      c.platform.intervalName t.interval)
    (htext : ∀ v, c.platform.intervalName t.interval = .ok v → ∃ name, v = .text name)
    (halias : Resolve.withAlias c.platform.windowAlias args = .ok c.args) : c.Holds t := by
  rw [h.withAlias_eq hsources hnone, htransform] at halias
  cases hv : c.platform.intervalName t.interval with
  | error e =>
    rw [hv] at halias
    exact absurd halias (by simp [Except.map])
  | ok v =>
    obtain ⟨name, rfl⟩ := htext v hv
    rw [hv] at halias
    have htext? : ∀ other, c.args.text? other =
        if other = c.platform.windowAlias.name then some name else args.text? other := by
      intro other
      rw [← Except.ok.inj halias]
      exact Arguments.text?_insert args _ other name
    -- The name is stored apart, so what was held before is held still.
    have hkeep : ∀ other ∈ ["time_range", "time_interval", "date_range"],
        c.args.text? other = args.text? other := by
      intro other hmem
      have hne : other ≠ c.platform.windowAlias.name := fun heq => hother (heq ▸ hmem)
      rw [htext?, if_neg hne]
    refine ⟨?_, h.lower, ⟨name, hv, ?_⟩, ?_⟩
    · rw [hkeep _ (by simp), hkeep _ (by simp)]
      exact h.text?_interval
    · rw [htext?, if_pos rfl]
    · rw [hkeep _ (by simp), h.range]

/-- A command for the tracker keeps a chosen interval, and takes the one in the slot otherwise. -/
theorem holds_thrive (h : t.In args) {c : Command} (hplatform : c.platform = .thrive)
    (halias : Resolve.withAlias Platform.thrive.windowAlias args = .ok c.args) : c.Holds t := by
  have hname : c.platform.intervalName t.interval = .ok (.text t.interval) := by
    rw [hplatform]
    rfl
  -- The name is the argument of the flag itself: it is there already, or it is written now.
  rcases h.interval with hflag | ⟨hnone, hslot⟩
  · have hpresent : args.isAbsent "time_range" = false := by
      rw [Resolve.isAbsent_of_text hflag, h.filled]
    rw [Resolve.withAlias_of_present hpresent] at halias
    rw [Except.ok.inj halias] at h hflag
    refine ⟨h.text?_interval, h.lower, ⟨_, hname, ?_⟩, h.range⟩
    rw [hplatform]
    exact Arguments.text?_eq_some hflag
  · have honly : Platform.thrive.windowAlias.sources = [] ++ "time_interval" :: [] := rfl
    rw [Resolve.withAlias_of_absent (Resolve.isAbsent_of_none hnone) honly (by simp) hslot
      h.filled] at halias
    have htext? : ∀ other, c.args.text? other =
        if other = "time_range" then some t.interval else args.text? other := by
      intro other
      rw [← Except.ok.inj halias]
      exact Arguments.text?_insert args _ other t.interval
    refine ⟨?_, h.lower, ⟨_, hname, ?_⟩, ?_⟩
    · rw [htext?, if_pos rfl]
      rfl
    · rw [hplatform, htext?]
      exact if_pos rfl
    · rw [htext?, if_neg (by decide), h.range]

end Timeframe.In

/-- **A command that was put together from a timeframe holds it.** -/
theorem Command.holds_of_withAlias {t : Timeframe} {args : Arguments} (h : t.In args) {c : Command}
    (halias : Resolve.withAlias c.platform.windowAlias args = .ok c.args) : c.Holds t := by
  obtain ⟨p, verb, grammar, held⟩ := c
  -- The networks write the name to an argument of its own, the tracker does not.
  cases p with
  | mgid =>
    exact h.holds_network rfl h.unnamed.1 (show "date_interval" ∉ _ by decide) rfl
      (fun _ => Interval.exists_of_mgidName) halias
  | zeropark =>
    exact h.holds_network rfl h.unnamed.2 (show "interval" ∉ _ by decide) rfl
      (fun _ => Interval.exists_of_zeroparkName) halias
  | thrive => exact h.holds_thrive rfl halias

/-- A chosen `/time` is a written interval, in small letters. -/
theorem Flag.exists_of_chosen?_timeRange {policy : FlagPolicy} {words : List String} {a : Arg}
    (h : timeRange.chosen? policy words = some a) :
    ∃ value, a = .text (Text.asciiLower value) ∧ Interval.isWritten value.toList = true := by
  obtain ⟨value, harg, hswitch | haccepts⟩ := exists_of_mem_given (FlagPolicy.mem_of_choose? h)
  · exact absurd hswitch (by decide)
  · exact ⟨value, (Option.some.inj harg).symm, haccepts⟩

namespace Command.IsReading

variable {s : Settings} {words : List String} {line : CommandLine} {g : Grammar}
  {captures : List Capture} {c : Command}

/-- **The arguments of a line that reads a window hold its timeframe.** -/
theorem in_arguments (hs : s.Valid) (hg : g ∈ Grammar.all) (hw : g.windowed = true)
    {positionals : List String} (hfill : fill s g.slots positionals = some captures)
    {flags : Arguments} (hflags : flagArguments g.flags s.flagPolicy words = .ok flags) :
    (Timeframe.ofLine s words captures).In (Resolve.arguments s line.toHead g captures flags) := by
  obtain ⟨hsub, hfits⟩ := fill_eq_some hfill
  have hmem : ∀ f : Flag, f ∈ g.flags := fun f =>
    List.mem_filter.2 ⟨f.mem_all, by rw [hw]; rfl⟩
  -- Flags that are taken hold what is chosen, and the names of the platforms hold nothing.
  have hflag : ∀ f : Flag, f.name ∈ Resolve.reserved →
      (Resolve.arguments s line.toHead g captures flags).get? f.name =
        f.chosen? s.flagPolicy words := fun f hname =>
    (Resolve.get?_arguments_of_reserved hg hsub hname).trans (get?_flagArguments hflags (hmem f))
  have hnone : ∀ name ∈ Resolve.reserved, name ∉ Flag.all.map Flag.name →
      (Resolve.arguments s line.toHead g captures flags).get? name = none := fun name hname hother =>
    (Resolve.get?_arguments_of_reserved hg hsub hname).trans (get?_flagArguments_of_ne hflags hother)
  -- The two arguments that the interval may be in.
  have hrange : (Resolve.arguments s line.toHead g captures flags).get? "time_range" =
      Flag.timeRange.chosen? s.flagPolicy words := hflag .timeRange (by decide)
  have hslot : (Resolve.arguments s line.toHead g captures flags).get? "time_interval" = _ :=
    Resolve.get?_arguments_interval hg hw hfill
  refine ⟨?_, Text.asciiLower_asciiLower _, ?_, ?_, ?_, ?_⟩
  · unfold Timeframe.ofLine
    -- The flag goes before the slot.
    cases hchosen : Flag.timeRange.chosen? s.flagPolicy words with
    | none => exact .inr ⟨hrange.trans hchosen, hslot⟩
    | some a =>
      obtain ⟨value, rfl, -⟩ := Flag.exists_of_chosen?_timeRange hchosen
      refine .inl (hrange.trans (hchosen.trans ?_))
      exact congrArg (fun text => some (Arg.text text)) (Text.asciiLower_asciiLower value).symm
  · unfold Timeframe.ofLine
    rw [Text.isBlankText_asciiLower]
    cases hchosen : Flag.timeRange.chosen? s.flagPolicy words with
    | some a =>
      obtain ⟨value, rfl, hwritten⟩ := Flag.exists_of_chosen?_timeRange hchosen
      show Text.isBlankText (Text.asciiLower value) = false
      rw [Text.isBlankText_asciiLower]
      exact Interval.isBlankText_of_isWritten hwritten
    | none =>
      cases hword : capturedInterval? captures with
      | some word =>
        exact Interval.isBlankText_of_isWritten (isWritten_of_capturedInterval? hfits hword)
      | none => exact hs.isBlankText_interval
  · unfold Arguments.text?
    rw [show (Resolve.arguments s line.toHead g captures flags).get? "date_range" = _ from
      hflag .dateRange (by decide)]
    rfl
  · exact hnone _ (by decide) (by decide)
  · exact hnone _ (by decide) (by decide)

/-- **An accepted command that reads a window holds the timeframe of its line.** -/
theorem holds (hs : s.Valid) (h : IsReading s words line g captures c) (hw : g.windowed = true) :
    c.Holds (Timeframe.ofLine s words captures) := by
  obtain ⟨hg, hfill⟩ := h.fills
  obtain ⟨flags, hflags, halias⟩ := h.args
  exact holds_of_withAlias (in_arguments hs hg hw hfill hflags) halias

end Command.IsReading

end AdOps
