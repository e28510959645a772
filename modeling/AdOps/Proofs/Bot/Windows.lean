import AdOps.Proofs.Bot.Pausing
import AdOps.Proofs.Handler.Noting
import AdOps.Proofs.Handler.Window

/-!
# The windows that a message asks for

What a service notes is what it was asked for. A command that reads a window asks every service for
one window, and this window is the timeframe of the line.

* **`notes_run`** — the run of a command notes the window of the command and no other.
* **`noted_asked`** — that window meets the timeframe of the line.
-/

namespace AdOps

/-- A verb that reads a window has a grammar with a slot for intervals. -/
theorem Grammar.windowed_of_verb : ∀ g ∈ all, g.verb.Windowed → g.windowed = true := by decide

namespace Bot

open AdOps.Action

variable {b : Bot} {message : String} {c : Command}

/-- The run of a command that reads a window notes the window of the command and no other. -/
theorem notes_run (hparse : b.parse message = .ok c) (hverb : c.verb.Windowed)
    (hdata : c.args.switch "list_fields" = false) (today : Date) :
    Notes (Invocation.window ⟨c, b.settings, today⟩) (b.run today message) := by
  rw [run_eq, hparse]
  have hhandle : Notes (Invocation.window ⟨c, b.settings, today⟩)
      (Invocation.handle ⟨c, b.settings, today⟩) := Handler.notes_handle hverb hdata
  exact hhandle.followed fun _ => .pure _

/-- **The window the services see is the window the line asked for.** An accepted line of a verb that
reads a window, if it asks for data, fails before any service is asked for stats, or all stats calls
of its command receive one window, and this window meets the timeframe of the line: the chosen `/time`
or else the captured interval or else the default interval, in small letters; the platform's own name
for just this interval; and the days of the chosen `/date` or else of the interval. -/
theorem noted_asked (hparse : b.parse message = .ok c) (hverb : c.verb.Windowed)
    (hdata : c.args.switch "list_fields" = false) (today : Date) (d : Desk) :
    ∃ line g captures, c.IsReading b.settings (Text.words message) line g captures ∧
      ((∃ e, ((b.run today message).on d).1 = .error e ∧
          ((b.run today message).on d).2.noted = d.noted) ∨
        ∃ w times,
          (Timeframe.ofLine b.settings (Text.words message) captures).IsMetBy c.platform today w ∧
            (∃ p, 0 < times p) ∧ d.NotedSince ((b.run today message).on d).2 w times) := by
  obtain ⟨line, g, captures, hreading⟩ := Command.exists_isReading hparse
  refine ⟨line, g, captures, hreading, ?_⟩
  have hwindowed : g.windowed = true :=
    Grammar.windowed_of_verb g hreading.fills.1 (hreading.verb.symm ▸ hverb)
  have hholds := hreading.holds b.valid hwindowed
  -- Either no call was made, or the calls noted the one window of the command.
  rcases notes_run hparse hverb hdata today d with hsilent | ⟨w, times, hw, hsome, hnoted⟩
  · exact .inl hsilent
  · exact .inr ⟨w, times, isMetBy_of_window hholds hw, hsome, hnoted⟩

/-! A `/time` that goes before the interval in its slot, and before another `/time`. -/

namespace Overridden

def bot : Bot := ⟨{ flagPolicy := .firstWins }, by decide⟩

def date : Date := ⟨15750, by decide⟩

def text : String := "/mgid stats all 7d /time 30D /time:1y"

def desk : Desk where
  mgid := some { data := {} }

def isStatsOnMgid : Except Failure Command → Bool
  | .ok c => c.platform = .mgid && c.verb = .stats && !c.args.switch "list_fields"
  | .error _ => false

end Overridden

theorem noted_asked_overridden :
    ∃ w times, w.token = "30d" ∧ w.param = some "last30Days" ∧ (∃ p, 0 < times p) ∧
      Overridden.desk.NotedSince
        ((Overridden.bot.run Overridden.date Overridden.text).on Overridden.desk).2 w times := by
  have haccepted : Overridden.isStatsOnMgid (Overridden.bot.parse Overridden.text) = true := by
    decide +kernel
  have hsucceeds :
      ((Overridden.bot.run Overridden.date Overridden.text).on Overridden.desk).1.isOk = true := by
    decide +kernel
  have hchosen : Flag.timeRange.chosen? Overridden.bot.settings.flagPolicy
      (Text.words Overridden.text) = some (.text "30d") := by
    decide +kernel
  cases hparse : Overridden.bot.parse Overridden.text with
  | error e =>
    rw [hparse] at haccepted
    exact absurd haccepted (by simp [Overridden.isStatsOnMgid])
  | ok c =>
    rw [hparse] at haccepted
    obtain ⟨⟨hplatform, hstats⟩, hdata⟩ : (c.platform = .mgid ∧ c.verb = .stats) ∧
        c.args.switch "list_fields" = false := by
      simpa [Overridden.isStatsOnMgid] using haccepted
    have hverb : c.verb.Windowed := by
      rw [hstats]
      decide
    obtain ⟨line, g, captures, -, ⟨e, herror, -⟩ | ⟨w, times, hmet, hsome, hnoted⟩⟩ :=
      noted_asked hparse hverb hdata Overridden.date Overridden.desk
    · rw [herror] at hsucceeds
      exact absurd hsucceeds (by simp [Except.isOk, Except.toBool])
    · have hinterval : (Timeframe.ofLine Overridden.bot.settings (Text.words Overridden.text)
          captures).interval = "30d" := by
        unfold Timeframe.ofLine
        rw [hchosen]
        exact show Text.asciiLower "30d" = "30d" by decide
      obtain ⟨name, hname, hparam⟩ := hmet.param
      rw [hplatform, hinterval] at hname
      have hmgid : Platform.mgid.intervalName "30d" = .ok (.text "last30Days") := by decide +kernel
      rw [hmgid] at hname
      obtain rfl : "last30Days" = name := Arg.text.inj (Except.ok.inj hname)
      exact ⟨w, times, hmet.token.trans hinterval, hparam, hsome, hnoted⟩

end Bot
end AdOps
