import AdOps.Handler.Invocation
import AdOps.Proofs.Calendar.Succession
import AdOps.Proofs.CommandLine.Timeframe

/-!
# The window of a command

A handler works out its window from the arguments of its command and from the day. The window of a
command that holds a timeframe meets it: it names the interval, has the platform's name for it, and
ends on the days that the range of dates or else the interval stands for.

* **`le_of_dateRange?`**, **`le_of_bounds?`** — the first day is never behind the last.
* **`isMetBy_of_window`** — the window of a command that holds a timeframe meets it.
-/

namespace AdOps

/-- The window is the timeframe, as a platform receives it on a day. -/
structure Timeframe.IsMetBy (t : Timeframe) (p : Platform) (today : Date) (w : Window) : Prop where
  token : w.token = t.interval
  param : ∃ name, p.intervalName t.interval = .ok (.text name) ∧ w.param = some name
  days : match t.range? with
    | some range => ∃ first last,
        dateRange? range = some (first, last) ∧ w.start = some first ∧ w.stop = some last
    | none =>
      match (Interval.read? t.interval).bind (Interval.bounds? today) with
      | some (first, last) => w.start = some first ∧ w.stop = some last
      | none => w.start = none ∧ w.stop = none
  ordered : (w.start = none ∧ w.stop = none) ∨
    ∃ first last, w.start = some first ∧ w.stop = some last ∧ first.day ≤ last.day

/-! ## First and last days

However a pair of days was come by, the first is not behind the last: days are counted back from the
last one, a keyword gives one day, and a range of dates that is written the other way round is not
read. -/

/-- To go back does not lead behind the day. -/
theorem Date.le_of_back? {d start : Date} {n : Nat} (h : d.back? n = some start) :
    start.day ≤ d.day := by
  have hday := day_of_back? h
  omega

/-- The first day of an interval is not behind its last. -/
theorem Interval.le_of_bounds? {today first last : Date} {i : Interval}
    (h : i.bounds? today = some (first, last)) : first.day ≤ last.day := by
  -- Days are counted back; a keyword stands for one day, or for none that is known.
  cases i with
  | days n =>
    obtain ⟨start, hstart, heq⟩ := Option.map_eq_some_iff.1 h
    obtain ⟨rfl, rfl⟩ := Prod.mk.inj heq
    exact Date.le_of_back? hstart
  | keyword word =>
    unfold bounds? at h
    dsimp only at h
    split at h
    · obtain ⟨rfl, rfl⟩ := Prod.mk.inj (Option.some.inj h)
      exact Int.le_refl _
    · split at h
      · obtain ⟨day, -, heq⟩ := Option.map_eq_some_iff.1 h
        obtain ⟨rfl, rfl⟩ := Prod.mk.inj heq
        exact Int.le_refl _
      · exact absurd h (by simp)

/-- **The first day of a range of dates is not behind its last.** -/
theorem le_of_dateRange? {range : String} {first last : Date}
    (h : dateRange? range = some (first, last)) : first.day ≤ last.day := by
  -- Whatever the last day was read as, it was compared with the first one.
  have hchecked : ∀ {start : Date} {stop? : Option Date},
      (stop?.bind fun stop => if stop.day < start.day then none else some (start, stop)) =
        some (first, last) → first.day ≤ last.day := by
    intro start stop? hstop
    obtain ⟨stop, -, hstop⟩ := Option.bind_eq_some_iff.1 hstop
    split at hstop
    · exact absurd hstop (by simp)
    · next hle =>
      obtain ⟨rfl, rfl⟩ := Prod.mk.inj (Option.some.inj hstop)
      omega
  unfold dateRange? at h
  dsimp only at h
  split at h
  · exact absurd h (by simp)
  · simp only [Option.bind_eq_bind, Option.bind_eq_some_iff] at h
    obtain ⟨start, -, h⟩ := h
    split at h
    · exact hchecked h
    · exact hchecked h

/-- The first day that a command asks for is not behind its last. -/
theorem Invocation.le_of_bounds? {inv : Invocation} {first last : Date}
    (h : inv.bounds? = .ok (some (first, last))) : first.day ≤ last.day := by
  unfold bounds? at h
  split at h
  · split at h
    · next hfound =>
      obtain rfl := Option.some.inj (Except.ok.inj h)
      exact le_of_dateRange? hfound
    · exact absurd h (by simp)
  · obtain ⟨i, -, hfound⟩ := Option.bind_eq_some_iff.1 (Except.ok.inj h)
    exact Interval.le_of_bounds? hfound

/-! ## Windows

The range of dates goes before the interval. What is left of a timeframe once its days have been
worked out is what the platform receives. -/

/-- Without a range of dates a command has a window. -/
theorem Handler.exists_window {inv : Invocation} (h : inv.args.text? "date_range" = none) :
    ∃ w, inv.window = .ok w := by
  unfold Invocation.window Invocation.bounds?
  rw [h]
  exact ⟨_, rfl⟩

/-- **The window of a command that holds a timeframe meets it.** -/
theorem isMetBy_of_window {inv : Invocation} {t : Timeframe} (hholds : inv.command.Holds t)
    {w : Window} (h : inv.window = .ok w) : t.IsMetBy inv.platform inv.today w := by
  have htoken : inv.intervalToken = t.interval := by
    have hinterval : ((inv.args.text? "time_range").orElse fun _ =>
      inv.args.text? "time_interval") = some t.interval := hholds.interval
    unfold Invocation.intervalToken
    rw [hinterval]
    exact hholds.lower
  have hrange : inv.args.text? "date_range" = t.range? := hholds.range
  unfold Invocation.window at h
  obtain ⟨days, hbounds, h⟩ := bind_eq_ok.1 h
  obtain rfl := Except.ok.inj h
  refine ⟨htoken, hholds.param, ?_, ?_⟩
  · unfold Invocation.bounds? at hbounds
    rw [hrange, htoken] at hbounds
    -- A range that cannot be read fails, while an interval that cannot be read leaves the days out.
    cases hr : t.range? with
    | some range =>
      rw [hr] at hbounds
      dsimp only at hbounds
      split at hbounds
      · next found hfound =>
        obtain rfl := Except.ok.inj hbounds
        exact ⟨found.1, found.2, hfound, rfl, rfl⟩
      · exact absurd hbounds (by simp)
    | none =>
      rw [hr] at hbounds
      obtain rfl := Except.ok.inj hbounds
      cases (Interval.read? t.interval).bind (Interval.bounds? inv.today) with
      | none => exact ⟨rfl, rfl⟩
      | some found => exact ⟨rfl, rfl⟩
  · cases days with
    | none => exact .inl ⟨rfl, rfl⟩
    | some found => exact .inr ⟨found.1, found.2, rfl, rfl, Invocation.le_of_bounds? hbounds⟩

end AdOps
