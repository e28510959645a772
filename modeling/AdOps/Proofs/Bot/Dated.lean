import AdOps.Proofs.Bot.Windows

/-!
# The days of custom windows

MGID knows four intervals by name. Any other number of days goes out as a custom interval, and for
that the network needs a first and a last day. The name is chosen when the line is read, by the
interval alone; the days are counted back from today when the command runs, and there the calendar may
end. So a custom window has its days unless they begin before the calendar does; then it goes out
without them.

* **`Interval.isSome_bounds?_days_iff`** — when a number of days has a first one.
* **`window_of_askedSince`** — whatever window a service is asked for is the window of the command.
* **`hasDays_iff_of_custom`** — when a custom window has its days.
-/

namespace AdOps

/-- The window has a first and a last day. -/
def Window.HasDays (w : Window) : Prop := w.start.isSome = true ∧ w.stop.isSome = true

/-! ## Days of an interval

Counting back from today stays in the calendar exactly if the first day does: later days are no
later than today, and today is in the calendar. -/

/-- A date some days back is in the calendar unless it is before the first day. -/
theorem Date.isSome_back?_iff {d : Date} {n : Nat} :
    (d.back? n).isSome = true ↔ firstDay ≤ d.day - n := by
  -- Going back never leaves the calendar at its end.
  have hlast : d.day - n ≤ lastDay := by
    have hd := d.inCalendar.2
    omega
  unfold back? ofDay?
  split
  · next hday => exact iff_of_true rfl hday.1
  · next hday => exact iff_of_false (by simp) fun hfirst => hday ⟨hfirst, hlast⟩

namespace Interval

/-- **A number of days has a first one** exactly if the calendar reaches back to it. -/
theorem isSome_bounds?_days_iff {today : Date} {n : Nat} :
    ((days n).bounds? today).isSome = true ↔ firstDay ≤ today.day - n := by
  rw [show (days n).bounds? today = (today.back? n).map fun start => (start, today) from rfl,
    Option.isSome_map, Date.isSome_back?_iff]

/-- A custom interval is a number of days. -/
theorem exists_days_of_mgidName {interval : String} (hlower : Text.asciiLower interval = interval)
    (h : mgidName (.text interval) = .ok (.text "interval")) :
    ∃ n, read? interval = some (.days n) := by
  unfold mgidName at h
  rw [show Arg.display (.text interval) = interval from rfl, hlower] at h
  dsimp only at h
  -- The four named windows have other names.
  iterate 4
    split at h
    · exact absurd h (by decide)
  split at h
  · next n hread => exact ⟨n, hread⟩
  · exact absurd h (by simp)

end Interval

namespace Timeframe.IsMetBy

variable {t : Timeframe} {p : Platform} {today : Date} {w : Window}

/-- A window for a number of days has days exactly if a range of dates was asked for, or the calendar
reaches back to the first one. -/
theorem hasDays_iff (h : t.IsMetBy p today w) {n : Nat}
    (hdays : Interval.read? t.interval = some (.days n)) :
    w.HasDays ↔ t.range?.isSome = true ∨ firstDay ≤ today.day - n := by
  have hbounds := h.days
  -- A range of dates has two days, whatever the interval is; without one the days are counted back.
  cases hrange : t.range? with
  | some range =>
    rw [hrange] at hbounds
    obtain ⟨first, last, -, hstart, hstop⟩ := hbounds
    refine iff_of_true ?_ (.inl rfl)
    unfold Window.HasDays
    rw [hstart, hstop]
    exact ⟨rfl, rfl⟩
  | none =>
    rw [hrange, hdays, Option.bind_some] at hbounds
    rw [← Interval.isSome_bounds?_days_iff]
    unfold Window.HasDays
    cases hcount : (Interval.days n).bounds? today with
    | some found =>
      rw [hcount] at hbounds
      rw [hbounds.1, hbounds.2]
      simp
    | none =>
      rw [hcount] at hbounds
      rw [hbounds.1, hbounds.2]
      simp

/-- A window has both of its days or neither of them. -/
theorem eq_none_of_not_hasDays (h : t.IsMetBy p today w) (hnone : ¬ w.HasDays) :
    w.start = none ∧ w.stop = none := by
  rcases h.ordered with hneither | ⟨first, last, hstart, hstop, -⟩
  · exact hneither
  · refine absurd ?_ hnone
    unfold Window.HasDays
    rw [hstart, hstop]
    exact ⟨rfl, rfl⟩

end Timeframe.IsMetBy

/-! ## Windows that are asked for

A service is asked for the window of the command and for no other, so what is said of the command's
window holds for what goes out. -/

namespace Bot

open AdOps.Action

variable {b : Bot} {message : String} {c : Command} {today : Date} {d : Desk} {p : Platform}
  {w : Window}

/-- **Whatever window a service is asked for is the window of the command.** A command that asks for
the names of fields asks for none. -/
theorem window_of_askedSince (hparse : b.parse message = .ok c) (hverb : c.verb.Windowed)
    (hasked : d.AskedSince ((b.run today message).on d).2 p w) :
    Invocation.window ⟨c, b.settings, today⟩ = .ok w := by
  cases hfields : c.args.switch "list_fields" with
  | true =>
    -- For a list of fields no call is made, and so no window is asked for.
    have hsilent : Silent (b.run today message) := by
      rw [run_eq, hparse]
      have hhandle : Silent (Invocation.handle ⟨c, b.settings, today⟩) :=
        Handler.silent_handle hfields
      exact hhandle.bind fun _ => .pure _
    exact absurd hasked (Desk.not_askedSince_of_eq (hsilent d) p w)
  | false =>
    -- Otherwise the desk notes nothing, or the window of the command some times over.
    rcases notes_run hparse hverb hfields today d with ⟨e, -, hsame⟩ | ⟨w', times, hw, -, hnoted⟩
    · exact absurd hasked (Desk.not_askedSince_of_eq hsame p w)
    · rw [hnoted.eq_of_askedSince hasked]
      exact hw

/-- **When a custom window has its days.** Suppose that an accepted MGID line of a verb that reads a
window makes its command ask a service for a window with the parameter for custom intervals. Then the
interval is a number of days, and the window has a first and a last day exactly if the line has a range
of dates, or the calendar reaches back by so many days from today. Otherwise the window has neither. -/
theorem hasDays_iff_of_custom (hparse : b.parse message = .ok c) (hplatform : c.platform = .mgid)
    (hverb : c.verb.Windowed) (hasked : d.AskedSince ((b.run today message).on d).2 p w)
    (hcustom : w.param = some "interval") :
    ∃ n, Interval.read? w.token = some (.days n) ∧
      (w.HasDays ↔ (c.args.text? "date_range").isSome = true ∨ firstDay ≤ today.day - n) ∧
        (¬ w.HasDays → w.start = none ∧ w.stop = none) := by
  obtain ⟨line, g, captures, hreading⟩ := Command.exists_isReading hparse
  have hwindowed : g.windowed = true :=
    Grammar.windowed_of_verb g hreading.fills.1 (hreading.verb.symm ▸ hverb)
  have hholds := hreading.holds b.valid hwindowed
  have hmet := isMetBy_of_window hholds (window_of_askedSince hparse hverb hasked)
  -- The name was chosen by the interval that the window was counted from.
  obtain ⟨name, hname, hparam⟩ := hmet.param
  obtain rfl : "interval" = name := Option.some.inj (hcustom.symm.trans hparam)
  have hmgid : Interval.mgidName (.text w.token) = .ok (.text "interval") := by
    rw [hmet.token]
    have hplatform' : Invocation.platform ⟨c, b.settings, today⟩ = .mgid := hplatform
    rw [hplatform'] at hname
    exact hname
  obtain ⟨n, hread⟩ := Interval.exists_days_of_mgidName (hmet.token ▸ hholds.lower) hmgid
  -- What is left is said of the window, and the interval it was counted from is a number of days.
  refine ⟨n, hread, ?_, hmet.eq_none_of_not_hasDays⟩
  rw [hholds.range]
  exact hmet.hasDays_iff (hmet.token ▸ hread)

/-! So many years that the calendar has no first day for them. -/

namespace Beyond

def bot : Bot := ⟨{}, Settings.valid_default⟩

def date : Date := ⟨15755, by decide⟩

def text : String := "/mgid stats 300000y"

def desk : Desk where
  mgid := some { data := {} }

def window : Window where
  token := "300000y"
  param := some "interval"

def isUndatedOnMgid : Except Failure Command → Bool
  | .ok c => c.platform = .mgid && c.verb = .stats && c.args.text? "date_range" = none
  | .error _ => false

end Beyond

theorem hasDays_iff_of_custom_beyond :
    Beyond.desk.AskedSince ((Beyond.bot.run Beyond.date Beyond.text).on Beyond.desk).2 .mgid
        Beyond.window ∧
      Beyond.window.param = some "interval" ∧ ¬ Beyond.window.HasDays := by
  have haccepted : Beyond.isUndatedOnMgid (Beyond.bot.parse Beyond.text) = true := by
    decide +kernel
  have hasked : Beyond.desk.AskedSince
      ((Beyond.bot.run Beyond.date Beyond.text).on Beyond.desk).2 .mgid Beyond.window :=
    ⟨[Beyond.window], by decide +kernel, List.mem_singleton_self _⟩
  refine ⟨hasked, rfl, ?_⟩
  cases hparse : Beyond.bot.parse Beyond.text with
  | error e =>
    rw [hparse] at haccepted
    exact absurd haccepted (by simp [Beyond.isUndatedOnMgid])
  | ok c =>
    rw [hparse] at haccepted
    obtain ⟨⟨hplatform, hstats⟩, hrange⟩ : (c.platform = .mgid ∧ c.verb = .stats) ∧
        c.args.text? "date_range" = none := by
      simpa [Beyond.isUndatedOnMgid] using haccepted
    have hverb : c.verb.Windowed := by
      rw [hstats]
      decide
    obtain ⟨n, hread, hdays, -⟩ := hasDays_iff_of_custom hparse hplatform hverb hasked rfl
    have hcount : Interval.read? Beyond.window.token = some (.days 109500000) := by decide +kernel
    obtain rfl : n = 109500000 := Interval.days.inj (Option.some.inj (hread.symm.trans hcount))
    rw [hdays, hrange]
    decide

end Bot
end AdOps
