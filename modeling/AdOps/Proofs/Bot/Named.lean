import AdOps.Proofs.Bot.Dated
import AdOps.Proofs.CommandLine.Intervals

/-!
# Windows that MGID knows by name

The name of a window is looked up by the interval as it is written; its days are counted by what the
interval stands for. One name is shared by two periods: `1d` is called today and begins a day
earlier. One period has two names: a count of no days is today as well, and goes out as a custom
interval. Apart from these, windows with a name have the same name exactly if they have the same
days, as long as counts are written plainly.

* **`named_or_custom`** — the names are those of a table, and the name of custom intervals.
* **`eq_or_of_bounds?_eq`** — which intervals have the same days.
* **`mem_mgidNames_of_plain`** — an interval that is written plainly is in the table if its period is.
* **`param_eq_iff_sameDays`** — when windows of which one has a name have the same name.
-/

namespace AdOps

namespace Interval

/-! ## Names

What MGID calls a window is a table of seven texts, tried one after another, and behind the table
one name for every other count of days. So what a name says is said of the table once, by cases, and
of all other texts at once. -/

/-- The intervals that MGID knows by name, as they are written. -/
def mgidNames : List (String × String) :=
  [("1d", "today"), ("today", "today"), ("yesterday", "yesterday"), ("7d", "lastSeven"),
    ("1w", "lastSeven"), ("30d", "last30Days"), ("1m", "last30Days")]

theorem mgidName_of_mem : ∀ e ∈ mgidNames, mgidName (.text e.1) = .ok (.text e.2) := by decide

variable {token name : String} {i i₁ i₂ : Interval}

/-- **The names are those of the table, and that of custom intervals.** -/
theorem named_or_custom (hlower : Text.asciiLower token = token)
    (h : mgidName (.text token) = .ok (.text name)) :
    (token, name) ∈ mgidNames ∨ name = "interval" := by
  by_cases hmem : ∃ e ∈ mgidNames, e.1 = token
  · obtain ⟨e, he, rfl⟩ := hmem
    obtain rfl := Arg.text.inj (Except.ok.inj ((mgidName_of_mem e he).symm.trans h))
    exact .inl he
  · simp only [mgidNames, List.mem_cons, List.not_mem_nil, or_false, exists_eq_or_imp,
      exists_eq_left, not_or, eq_comm (b := token)] at hmem
    -- A text that is none of the seven: the naming goes through to the counts of days.
    obtain ⟨hday, htoday, hyesterday, hseven, hweek, hthirty, hmonth⟩ := hmem
    have hdisplay : Arg.display (.text token) = token := rfl
    unfold mgidName at h
    simp only [hdisplay, hlower, hday, htoday, hyesterday, hseven, hweek, hthirty, hmonth, or_self,
      if_false] at h
    split at h
    · exact .inr (Arg.text.inj (Except.ok.inj h)).symm
    · exact absurd h (by simp)

/-! ## Days

Intervals with days are of three kinds, and each kind has the days it says. Two of them have the
same days only if they are equal, but for the count of no days, which begins and ends today. -/

/-- What an interval is if it has these days. -/
theorem bounds?_eq_some {today first last : Date} (h : i.bounds? today = some (first, last)) :
    (∃ n : Nat, i = .days n ∧ first.day = today.day - n ∧ last = today) ∨
      (i = .keyword "today" ∧ first = today ∧ last = today) ∨
      (i = .keyword "yesterday" ∧ first.day = today.day - 1 ∧ last = first) := by
  cases i with
  | days n =>
    obtain ⟨start, hstart, heq⟩ := Option.map_eq_some_iff.1 h
    obtain ⟨rfl, rfl⟩ := Prod.mk.inj heq
    exact .inl ⟨n, rfl, Date.day_of_back? hstart, rfl⟩
  | keyword word =>
    rw [bounds?] at h
    split at h
    · next hword =>
      obtain ⟨rfl, rfl⟩ := Prod.mk.inj (Option.some.inj h)
      exact .inr (.inl ⟨by rw [hword], rfl, rfl⟩)
    · split at h
      · next hword =>
        obtain ⟨day, hday, heq⟩ := Option.map_eq_some_iff.1 h
        obtain ⟨rfl, rfl⟩ := Prod.mk.inj heq
        exact .inr (.inr ⟨by rw [hword], Date.day_of_back? hday, rfl⟩)
      · exact absurd h (by simp)

/-- **Intervals with the same days** are the same interval, unless one is today and the other counts
no days. -/
theorem eq_or_of_bounds?_eq {today first last : Date} (h₁ : i₁.bounds? today = some (first, last))
    (h₂ : i₂.bounds? today = some (first, last)) :
    i₁ = i₂ ∨ (i₁ = .keyword "today" ∧ i₂ = .days 0) ∨ (i₁ = .days 0 ∧ i₂ = .keyword "today") := by
  rcases bounds?_eq_some h₁ with ⟨n, rfl, hn, htoday⟩ | ⟨rfl, hfirst, htoday⟩ | ⟨rfl, hday, hlast⟩
  · rcases bounds?_eq_some h₂ with ⟨m, rfl, hm, -⟩ | ⟨rfl, rfl, -⟩ | ⟨rfl, hday, hlast⟩
    · obtain rfl : n = m := by omega
      exact .inl rfl
    -- A count that begins today counts no days.
    · obtain rfl : n = 0 := by omega
      exact .inr (.inr ⟨rfl, rfl⟩)
    · -- Yesterday does not end today.
      rw [← hlast, htoday] at hday
      omega
  · rcases bounds?_eq_some h₂ with ⟨m, rfl, hm, -⟩ | ⟨rfl, -, -⟩ | ⟨rfl, hday, -⟩
    · rw [hfirst] at hm
      obtain rfl : m = 0 := by omega
      exact .inr (.inl ⟨rfl, rfl⟩)
    · exact .inl rfl
    · rw [hfirst] at hday
      omega
  · rcases bounds?_eq_some h₂ with ⟨m, rfl, hm, htoday⟩ | ⟨rfl, hfirst, -⟩ | ⟨rfl, -, -⟩
    · rw [← hlast, htoday] at hday
      omega
    · rw [hfirst] at hday
      omega
    · exact .inl rfl

/-- A day back begins before today does. -/
theorem first_ne_of_day {today first last first' last' : Date}
    (hday : (days 1).bounds? today = some (first, last))
    (htoday : (keyword "today").bounds? today = some (first', last')) : first ≠ first' := by
  rintro rfl
  obtain ⟨rfl, -⟩ := Prod.mk.inj (Option.some.inj htoday)
  obtain ⟨start, hstart, heq⟩ := Option.map_eq_some_iff.1 hday
  obtain ⟨rfl, -⟩ := Prod.mk.inj heq
  -- The day begins one earlier than today.
  have hback := Date.day_of_back? hstart
  omega

/-! ## Plain intervals

A count can be written with zeros in front, and then it is not in the table, though it means the
same. Plain intervals leave this out: a count without leading zeros, or a keyword. -/

/-- A count without leading zeros, or a keyword. -/
inductive IsPlain : String → Prop where
  | count (n : Nat) {unit : Char} (h : isUnit unit = true) :
    IsPlain (String.ofList (Number.numeral n ++ [unit]))
  | keyword {word : String} (h : word.toList.all Char.isLower = true) : IsPlain word

/-- Digits and a unit are a count of that many units. -/
theorem isCount_numeral (n : Nat) {unit : Char} (h : isUnit unit = true) :
    IsCount (Number.numeral n ++ [unit]) (n * unitDays unit) := by
  -- The units are small letters already.
  have hunit : Text.fold unit = unit := by
    rcases isUnit_iff.1 h with rfl | rfl | rfl | rfl <;> decide
  have hnumeral := Number.isNumeral_numeral n
  refine isCount_append.2 ⟨(Number.isNumeral_iff.1 hnumeral).1, by rw [hunit, h], ?_⟩
  rw [hunit, Text.decimalValue_of_ascii (Number.isDigit_of_isNumeral hnumeral),
    Number.digitsValue_numeral]

/-- The intervals of the table are of a day, a week or a month, or keywords. -/
theorem read?_mgidNames : ∀ e ∈ mgidNames, read? e.1 ∈ [some (days 1), some (days 7),
    some (days 30), some (keyword "today"), some (keyword "yesterday")] := by
  decide

/-- Every way to write a period of the table as a count of units is in the table. -/
theorem mem_mgidNames_of_count {unit : Char} (h : isUnit unit = true) : ∀ e ∈ mgidNames,
    ∀ n ≤ 30, read? e.1 = some (days (n * unitDays unit)) →
      (String.ofList (Number.numeral n ++ [unit]), e.2) ∈ mgidNames := by
  rcases isUnit_iff.1 h with rfl | rfl | rfl | rfl <;> decide +kernel

/-- And they are read as this count. -/
theorem read?_numeral (n : Nat) {unit : Char} (h : isUnit unit = true)
    (hread : read? (String.ofList (Number.numeral n ++ [unit])) = some i) :
    i = days (n * unitDays unit) := by
  have hcount := isCount_numeral n h
  have hword : ∀ c ∈ (String.ofList (Number.numeral n ++ [unit])).toList,
      Text.isBlank c = false := by
    rw [String.toList_ofList]
    exact isBlank_of_isWritten (isWritten_iff.2 (.inl ⟨_, hcount⟩))
  rw [read?_word hword, String.toList_ofList] at hread
  exact ((ofChars?_of_isCount hcount).1 hread).2.2

/-- A keyword in small letters is read as itself. -/
theorem read?_lower (hlower : Text.asciiLower token = token)
    (h : token.toList.all Char.isLower = true) (hread : read? token = some i) :
    i = keyword token := by
  -- What is a small letter is a letter, so all of the text is.
  have hletters : ∀ c ∈ token.toList, Text.isLetter c = true := fun c hc => by
    have hc' := List.all_eq_true.1 h c hc
    have hrange := Text.toNat_of_isLower hc'
    refine (Text.isLower_toLower_iff.1 ?_).1
    rcases Text.toLower_cases c with ⟨-, hhigh, -⟩ | ⟨-, hsame⟩
    · omega
    · rw [hsame, hc']
  have hword : ∀ c ∈ token.toList, Text.isBlank c = false := fun c hc =>
    Text.isBlank_of_isLetter (hletters c hc)
  rw [read?_word hword] at hread
  have hne : token.toList ≠ [] := by
    intro hnil
    rw [hnil, show ofChars? ([].map Char.toLower) = none by decide] at hread
    exact absurd hread (by simp)
  rw [((ofChars?_of_letters hne hletters).1 hread).2]
  exact congrArg keyword hlower

/-- **An interval that is written plainly is in the table if its period is.** -/
theorem mem_mgidNames_of_plain (hlower : Text.asciiLower token = token) (hplain : IsPlain token)
    {e : String × String} (he : e ∈ mgidNames) (hread : read? token = read? e.1) :
    (token, e.2) ∈ mgidNames := by
  have htable := read?_mgidNames e he
  simp only [List.mem_cons, List.not_mem_nil, or_false] at htable
  obtain ⟨i, hi⟩ : ∃ i, read? e.1 = some i := by
    rcases htable with h | h | h | h | h <;> exact ⟨_, h⟩
  rw [hi] at hread htable
  simp only [Option.some.injEq] at htable
  -- A count of the table counts thirty days at most, which leaves few ways to write it.
  cases hplain with
  | @count n unit h =>
    obtain rfl := read?_numeral n h hread
    have hpos : 1 ≤ unitDays unit := by
      unfold unitDays
      split_ifs <;> omega
    -- No unit is shorter than a day.
    have hle : n * 1 ≤ n * unitDays unit := Nat.mul_le_mul_left n hpos
    refine mem_mgidNames_of_count h e he n ?_ hi
    simp only [days.injEq, reduceCtorEq, or_false] at htable
    omega
  | keyword h =>
    obtain rfl := read?_lower hlower h hread
    have hsame : ∀ e ∈ mgidNames, ∀ word ∈ ["today", "yesterday"],
        read? e.1 = some (keyword word) → e.1 = word := by decide
    simp only [keyword.injEq, reduceCtorEq, false_or] at htable
    rw [← hsame e he token (by simpa using htable) hi]
    exact he

end Interval

/-! ## Windows

A window that MGID is asked for carries the text of its interval, its name and its days, all of them
made from one interval. The comparison of two windows is the comparison of what they were made of.
-/

namespace Window

variable {today : Date} {w w₁ w₂ : Window}

/-- The window that an accepted MGID line without a range of dates asks for, if it has days. -/
def OfMgid (today : Date) (w : Window) : Prop :=
  ∃ (b : Bot) (text : String) (c : Command), b.parse text = .ok c ∧ c.platform = .mgid ∧
    c.verb.Windowed ∧ c.args.text? "date_range" = none ∧
    Invocation.window ⟨c, b.settings, today⟩ = .ok w ∧ w.HasDays

/-- The windows begin on one day and end on one day. -/
def SameDays (w₁ w₂ : Window) : Prop := w₁.start = w₂.start ∧ w₁.stop = w₂.stop

/-- What a window with days was made of. -/
structure IsMadeOf (today : Date) (w : Window) (name : String) (i : Interval) (first last : Date) :
    Prop where
  lower : Text.asciiLower w.token = w.token
  named : Interval.mgidName (.text w.token) = .ok (.text name)
  param : w.param = some name
  read : Interval.read? w.token = some i
  bounds : i.bounds? today = some (first, last)
  start : w.start = some first
  stop : w.stop = some last

/-- A window with days that meets a timeframe without a range of dates was made from its interval.
-/
theorem exists_isMadeOf_of_isMetBy {t : Timeframe} (h : t.IsMetBy .mgid today w)
    (hlower : Text.asciiLower t.interval = t.interval) (hrange : t.range? = none)
    (hdays : w.HasDays) : ∃ name i first last, w.IsMadeOf today name i first last := by
  obtain ⟨name, hname, hparam⟩ := h.param
  have hbounds := h.days
  rw [hrange] at hbounds
  dsimp only at hbounds
  -- If the interval had no days, the window had none either.
  cases hfound : (Interval.read? t.interval).bind (Interval.bounds? today) with
  | none =>
    rw [hfound] at hbounds
    unfold HasDays at hdays
    rw [hbounds.1] at hdays
    exact absurd hdays.1 (by simp)
  | some days =>
    rw [hfound] at hbounds
    obtain ⟨i, hread, hi⟩ := Option.bind_eq_some_iff.1 hfound
    rw [← h.token] at hlower hname hread
    exact ⟨name, i, days.1, days.2, hlower, hname, hparam, hread, hi, hbounds.1, hbounds.2⟩

/-- The window of an accepted line was made from an interval. -/
theorem OfMgid.exists_isMadeOf (h : w.OfMgid today) :
    ∃ name i first last, w.IsMadeOf today name i first last := by
  obtain ⟨b, text, c, hparse, hplatform, hverb, hrange, hwindow, hdays⟩ := h
  obtain ⟨line, g, captures, hreading⟩ := Command.exists_isReading hparse
  have hwindowed : g.windowed = true :=
    Grammar.windowed_of_verb g hreading.fills.1 (hreading.verb.symm ▸ hverb)
  have hholds := hreading.holds b.valid hwindowed
  -- The window of the command meets the timeframe of the line.
  have hmet := isMetBy_of_window hholds hwindow
  have hplatform' : Invocation.platform ⟨c, b.settings, today⟩ = .mgid := hplatform
  rw [hplatform'] at hmet
  exact exists_isMadeOf_of_isMetBy hmet hholds.lower (hholds.range.symm.trans hrange) hdays

/-- Windows have the same days if what they were made of has. -/
theorem IsMadeOf.sameDays_iff {name₁ name₂ : String} {i₁ i₂ : Interval}
    {first₁ last₁ first₂ last₂ : Date} (h₁ : w₁.IsMadeOf today name₁ i₁ first₁ last₁)
    (h₂ : w₂.IsMadeOf today name₂ i₂ first₂ last₂) :
    w₁.SameDays w₂ ↔ first₁ = first₂ ∧ last₁ = last₂ := by
  unfold SameDays
  rw [h₁.start, h₂.start, h₁.stop, h₂.stop, Option.some.injEq, Option.some.injEq]

/-- The days of a window are those of what its interval stands for. -/
theorem IsMadeOf.bounds_of {name token : String} {i j : Interval} {first last : Date}
    (h : w.IsMadeOf today name i first last) (htoken : w.token = token)
    (hread : Interval.read? token = some j) : j.bounds? today = some (first, last) := by
  have hi := h.read
  rw [htoken, hread] at hi
  rw [Option.some.inj hi, h.bounds]

theorem read?_day : Interval.read? "1d" = some (.days 1) := by decide

theorem read?_today : Interval.read? "today" = some (.keyword "today") := by decide

/-- Windows with one name: their intervals are the same, or one is the day and the other is today. -/
theorem read?_eq_of_name : ∀ e ∈ Interval.mgidNames, ∀ e' ∈ Interval.mgidNames, e.2 = e'.2 →
    (Interval.read? e.1 = Interval.read? e'.1 ∧
        ¬ (e.1 = "1d" ∧ e'.1 = "today" ∨ e.1 = "today" ∧ e'.1 = "1d")) ∨
      (e.1 = "1d" ∧ e'.1 = "today") ∨ (e.1 = "today" ∧ e'.1 = "1d") := by
  decide

/-- No custom interval has a name of the table, and none of the table counts no days. -/
theorem mgidNames_facts : ∀ e ∈ Interval.mgidNames,
    e.2 ≠ "interval" ∧ Interval.read? e.1 ≠ some (.days 0) ∧
      (Interval.read? e.1 = some (.keyword "today") ↔ e.1 = "today") := by
  decide

/-- **When windows of which one has a name have the same name.** Take two windows that accepted MGID
lines without ranges of dates ask for, both with days, the first of them with a name of its own. If
they have the same name, they have the same days, except that `1d` and `today` share a name. If they
have the same days and the second is written plainly, they have the same name, except that a count of
no days goes without the name of `today`. -/
theorem param_eq_iff_sameDays (h₁ : w₁.OfMgid today) (h₂ : w₂.OfMgid today)
    (hnamed : w₁.param ≠ some "interval") :
    (w₁.param = w₂.param → (w₁.SameDays w₂ ↔
      ¬ (w₁.token = "1d" ∧ w₂.token = "today" ∨ w₁.token = "today" ∧ w₂.token = "1d"))) ∧
    (w₁.SameDays w₂ → Interval.IsPlain w₂.token → (w₁.param = w₂.param ↔
      ¬ (w₁.token = "today" ∧ Interval.read? w₂.token = some (.days 0)))) := by
  obtain ⟨name₁, i₁, first₁, last₁, hmade₁⟩ := h₁.exists_isMadeOf
  obtain ⟨name₂, i₂, first₂, last₂, hmade₂⟩ := h₂.exists_isMadeOf
  -- A name of its own is one of the table.
  have hmem₁ : (w₁.token, name₁) ∈ Interval.mgidNames := by
    rcases Interval.named_or_custom hmade₁.lower hmade₁.named with hmem | rfl
    · exact hmem
    · exact absurd hmade₁.param hnamed
  obtain ⟨hname₁, hcount₁, htoday₁⟩ := mgidNames_facts _ hmem₁
  rw [hmade₁.param, hmade₂.param, Option.some.injEq, hmade₁.sameDays_iff hmade₂]
  constructor
  · rintro rfl
    -- The second window has that name too, so its text is in the table as well.
    have hmem₂ : (w₂.token, name₁) ∈ Interval.mgidNames :=
      (Interval.named_or_custom hmade₂.lower hmade₂.named).resolve_right hname₁
    rcases read?_eq_of_name _ hmem₁ _ hmem₂ rfl with ⟨hread, hother⟩ | hshared | hshared
    · dsimp only at hread
      rw [hmade₁.read, hmade₂.read, Option.some.injEq] at hread
      have hbounds := hmade₁.bounds
      rw [hread, hmade₂.bounds, Option.some.injEq, Prod.mk.injEq] at hbounds
      exact iff_of_true ⟨hbounds.1.symm, hbounds.2.symm⟩ hother
    · refine iff_of_false (fun hdays => ?_) (fun hnot => hnot (.inl hshared))
      exact Interval.first_ne_of_day (hmade₁.bounds_of hshared.1 read?_day)
        (hmade₂.bounds_of hshared.2 read?_today) hdays.1
    · refine iff_of_false (fun hdays => ?_) (fun hnot => hnot (.inr hshared))
      exact Interval.first_ne_of_day (hmade₂.bounds_of hshared.2 read?_day)
        (hmade₁.bounds_of hshared.1 read?_today) hdays.1.symm
  · rintro ⟨rfl, rfl⟩ hplain
    -- The same days: the same interval, or today on one side and no days on the other.
    rcases Interval.eq_or_of_bounds?_eq hmade₁.bounds hmade₂.bounds with rfl | hzero | hzero
    · have hmem₂ : (w₂.token, name₁) ∈ Interval.mgidNames :=
        Interval.mem_mgidNames_of_plain hmade₂.lower hplain hmem₁
          (hmade₂.read.trans hmade₁.read.symm)
      have hname := (Interval.mgidName_of_mem _ hmem₂).symm.trans hmade₂.named
      refine iff_of_true (Arg.text.inj (Except.ok.inj hname)) fun hzero => ?_
      exact hcount₁ (hmade₁.read.trans (hmade₂.read.symm.trans hzero.2))
    · obtain ⟨rfl, rfl⟩ := hzero
      refine iff_of_false ?_ fun hnot => hnot ⟨htoday₁.1 hmade₁.read, hmade₂.read⟩
      rintro rfl
      -- No count of no days is in the table.
      rcases Interval.named_or_custom hmade₂.lower hmade₂.named with hmem₂ | hcustom
      · exact (mgidNames_facts _ hmem₂).2.1 hmade₂.read
      · exact hname₁ hcustom
    · obtain ⟨rfl, -⟩ := hzero
      exact absurd hmade₁.read hcount₁

/-! Windows of one week under two names of their own, and two periods that are both called today. -/

namespace OnMgid

def bot : Bot := ⟨{}, Settings.valid_default⟩

def date : Date := ⟨15757, by decide⟩

/-- The window that a line asks MGID for. -/
def asked? (text : String) : Option Window :=
  (bot.parse text).toOption.bind fun c =>
    if c.platform = .mgid ∧ c.verb.Windowed ∧ c.args.text? "date_range" = none then
      (Invocation.window ⟨c, bot.settings, date⟩).toOption
    else none

theorem ofMgid_of_asked? (text : String) (h : asked? text = some w) (hdays : w.HasDays) :
    w.OfMgid date := by
  obtain ⟨c, hc, hwindow⟩ := Option.bind_eq_some_iff.1 h
  obtain ⟨⟨hplatform, hverb, hrange⟩, hw⟩ := Option.ite_none_right_eq_some.1 hwindow
  exact ⟨bot, text, c, toOption_eq_some_iff.1 hc, hplatform, hverb, hrange,
    toOption_eq_some_iff.1 hw, hdays⟩

/-- A window that ends today and begins so many days before. -/
def since (token name : String) (n : Nat) : Window := ⟨token, some name, date.back? n, some date⟩

end OnMgid

theorem param_eq_iff_sameDays_week :
    (OnMgid.since "7d" "lastSeven" 7).OfMgid OnMgid.date ∧
      (OnMgid.since "1w" "lastSeven" 7).OfMgid OnMgid.date ∧
      (OnMgid.since "7d" "lastSeven" 7).SameDays (OnMgid.since "1w" "lastSeven" 7) := by
  have h₁ : (OnMgid.since "7d" "lastSeven" 7).OfMgid OnMgid.date :=
    OnMgid.ofMgid_of_asked? "/mgid stats 7d" (by decide +kernel) ⟨rfl, rfl⟩
  have h₂ : (OnMgid.since "1w" "lastSeven" 7).OfMgid OnMgid.date :=
    OnMgid.ofMgid_of_asked? "/mgid stats all 1W" (by decide +kernel) ⟨rfl, rfl⟩
  refine ⟨h₁, h₂, ((param_eq_iff_sameDays h₁ h₂ (by decide)).1 rfl).2 ?_⟩
  decide

/-- `1d` and `today` have one name and not the same days. -/
theorem one_name_for_two_periods :
    ∃ w₁ w₂ : Window, w₁.OfMgid OnMgid.date ∧ w₂.OfMgid OnMgid.date ∧
      w₁.param ≠ some "interval" ∧ ¬ (w₁.param = w₂.param ↔ w₁.SameDays w₂) := by
  have h₁ : (OnMgid.since "1d" "today" 1).OfMgid OnMgid.date :=
    OnMgid.ofMgid_of_asked? "/mgid stats 1d" (by decide +kernel) ⟨rfl, rfl⟩
  have h₂ : (OnMgid.since "today" "today" 0).OfMgid OnMgid.date :=
    OnMgid.ofMgid_of_asked? "/mgid stats today" (by decide +kernel) ⟨rfl, rfl⟩
  refine ⟨_, _, h₁, h₂, by decide, fun h => ?_⟩
  exact absurd (h.1 rfl).1 (by decide)

end Window

end AdOps
