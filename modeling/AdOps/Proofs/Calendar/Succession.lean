import AdOps.Calendar
import Mathlib.Logic.Function.Iterate
import Mathlib.Tactic.IntervalCases

/-!
# One day after another

A calendar is told by its next day: one day more in the month, or the first day of the next month, or
the first day of the next year. The day numbers are made from years, months and days by a formula, and
dates are counted back by subtraction. Here the formula is checked against the next day, so that to
count back is to undo so many next days. In front of its first day the calendar goes on, but its days
have no dates.

* **`Civil.number_next`** — the next day has the next number.
* **`Civil.exists_number_eq`** — every number is that of a day.
* **`Date.back?_eq_date?`** — to go back is to find the day from which so many next days lead here.
-/

namespace AdOps

/-- A day as it is written. -/
structure Civil where
  year : Int
  month : Nat
  day : Nat
deriving DecidableEq

namespace Civil

variable {c : Civil}

/-- The month has such a day. -/
def IsValid (c : Civil) : Prop := 1 ≤ c.day ∧ c.day ≤ monthLength c.year c.month

/-- The day after: in the same month, or the first of the next month, or New Year. -/
def next (c : Civil) : Civil :=
  if c.day < monthLength c.year c.month then { c with day := c.day + 1 }
  else if c.month < 12 then ⟨c.year, c.month + 1, 1⟩
  else ⟨c.year + 1, 1, 1⟩

/-- The number that the formula gives the day. -/
def number (c : Civil) : Int := dayNumber c.year c.month c.day

/-- The date of the day, if the calendar has one. -/
def date? (c : Civil) : Option Date := Date.ofCivil? c.year c.month c.day

end Civil

/-! ## Months

The formula counts years from March on, so that the leap day is the last day of a year and months
have one pattern of lengths. The facts about months are closed; only the years are general. -/

/-- Leap years, as the calendar's rule has them. -/
theorem isLeap_iff {year : Int} :
    isLeap year = true ↔ year % 4 = 0 ∧ (year % 100 ≠ 0 ∨ year % 400 = 0) := by
  simp [isLeap]

/-- Only months have days. -/
theorem month_of_monthLength_pos {year : Int} {month : Nat} (h : 0 < monthLength year month) :
    1 ≤ month ∧ month ≤ 12 := by
  unfold monthLength at h
  split at h <;> omega

/-- And all of them have. -/
theorem monthLength_pos {year : Int} {month : Nat} (hlow : 1 ≤ month) (hhigh : month ≤ 12) :
    0 < monthLength year month := by
  interval_cases month
  case «2» =>
    show 0 < if isLeap year then 29 else 28
    split <;> decide
  all_goals exact Nat.succ_pos _

/-- The number of the last day of February, behind which the year begins in the formula. -/
def marchNumber (year : Int) : Int := 365 * year + year / 4 - year / 100 + year / 400 - 719469

/-- The formula without its eras, which only keep the numbers of years small. -/
theorem dayNumber_eq (year : Int) (month day : Nat) :
    dayNumber year month day =
      marchNumber (if month ≤ 2 then year - 1 else year)
        + (153 * (((month : Int) + 9) % 12) + 2) / 5 + day := by
  unfold dayNumber marchNumber
  simp only [Int.fdiv_eq_ediv_of_nonneg _ (by decide : (0 : Int) ≤ 400),
    Int.fdiv_eq_ediv_of_nonneg _ (by decide : (0 : Int) ≤ 100),
    Int.fdiv_eq_ediv_of_nonneg _ (by decide : (0 : Int) ≤ 5),
    Int.fdiv_eq_ediv_of_nonneg _ (by decide : (0 : Int) ≤ 4)]
  -- The years of an era add up to whole eras, which is arithmetic on one variable.
  generalize (if month ≤ 2 then year - 1 else year) = y
  omega

/-- The leap day is counted at the end of the year that begins in March. -/
theorem marchNumber_succ (year : Int) :
    marchNumber year = marchNumber (year - 1) + if isLeap year then 366 else 365 := by
  -- Every fourth year, but not every hundredth, but every four hundredth again: the divisions step
  -- in the same years.
  have hleap := @isLeap_iff year
  unfold marchNumber
  split
  · next h =>
    rw [hleap] at h
    omega
  · next h =>
    rw [hleap] at h
    omega

/-! ## The next day

A step within a month adds one to the formula by its last summand. The other steps are the ends of
months, one equation each, and the end of the year. -/

/-- Within a month the number grows with the day. -/
theorem dayNumber_add (year : Int) (month day more : Nat) :
    dayNumber year month (day + more) = dayNumber year month day + more := by
  rw [dayNumber_eq, dayNumber_eq]
  omega

/-- The year of the formula begins on the first of March. -/
theorem dayNumber_march (year : Int) : dayNumber year 3 1 = marchNumber year + 1 := by
  rw [dayNumber_eq]
  show marchNumber year + 0 + 1 = marchNumber year + 1
  omega

/-- The day before it is the last of February, in leap years and in others. -/
theorem dayNumber_february (year : Int) :
    dayNumber year 3 1 = dayNumber year 2 (monthLength year 2) + 1 := by
  rw [dayNumber_march, dayNumber_eq]
  show marchNumber year + 1 =
    marchNumber (year - 1) + 337 + ((if isLeap year then 29 else 28 : Nat) : Int) + 1
  rw [marchNumber_succ]
  split <;> omega

/-- The first of a month follows the last day of the month before. -/
theorem dayNumber_month_succ {year : Int} {month : Nat} (hlow : 1 ≤ month) (hhigh : month < 12) :
    dayNumber year (month + 1) 1 = dayNumber year month (monthLength year month) + 1 := by
  interval_cases month
  -- Only February depends on the year.
  case «2» => exact dayNumber_february year
  all_goals
    rw [dayNumber_eq, dayNumber_eq, monthLength]
    simp [Int.add_assoc]

/-- New Year follows the last of December. -/
theorem dayNumber_year_succ (year : Int) :
    dayNumber (year + 1) 1 1 = dayNumber year 12 31 + 1 := by
  rw [dayNumber_eq, dayNumber_eq]
  simp
  omega

namespace Civil

variable {c : Civil}

theorem IsValid.month (h : c.IsValid) : 1 ≤ c.month ∧ c.month ≤ 12 :=
  month_of_monthLength_pos (Nat.lt_of_lt_of_le h.1 h.2)

/-- The next day exists. -/
theorem isValid_next (c : Civil) : c.next.IsValid := by
  unfold Civil.next
  split
  · next hday => exact ⟨Nat.le_add_left 1 _, hday⟩
  · split
    · next hmonth => exact ⟨Nat.le_refl 1, monthLength_pos (Nat.le_add_left 1 _) hmonth⟩
    · exact ⟨Nat.le_refl 1, Nat.succ_pos 30⟩

/-- **The next day has the next number.** -/
theorem number_next (h : c.IsValid) : c.next.number = c.number + 1 := by
  obtain ⟨hlow, hhigh⟩ := h.month
  unfold Civil.next number
  split
  -- In the middle of a month; then at the end of one, and at the end of the year.
  · exact dayNumber_add c.year c.month c.day 1
  · next hday =>
    have hlast : c.day = monthLength c.year c.month := Nat.le_antisymm h.2 (Nat.not_lt.1 hday)
    split
    · next hmonth => rw [hlast, dayNumber_month_succ hlow hmonth]
    · next hmonth =>
      have hdecember : c.month = 12 := Nat.le_antisymm hhigh (Nat.not_lt.1 hmonth)
      rw [hlast, hdecember]
      exact dayNumber_year_succ c.year

/-- So many next days later, the number is greater by as many. -/
theorem iterate_next (h : c.IsValid) (n : Nat) :
    (Civil.next^[n] c).IsValid ∧ (Civil.next^[n] c).number = c.number + n := by
  induction n with
  | zero => exact ⟨h, (Int.add_zero _).symm⟩
  | succ n ih =>
    obtain ⟨hvalid, hnumber⟩ := ih
    -- The last step is taken from the day that the others lead to.
    rw [Function.iterate_succ_apply']
    refine ⟨isValid_next _, ?_⟩
    rw [number_next hvalid, hnumber]
    omega

/-- **Every number is that of a day.** -/
theorem exists_number_eq (n : Int) : ∃ c : Civil, c.IsValid ∧ c.number = n := by
  -- Next days from the first of March of a year that is early enough.
  have hvalid : (⟨-400 * n.natAbs, 3, 1⟩ : Civil).IsValid := ⟨Nat.le_refl 1, Nat.le_add_left 1 30⟩
  have hearly : (⟨-400 * n.natAbs, 3, 1⟩ : Civil).number ≤ n := by
    show dayNumber (-400 * n.natAbs) 3 1 ≤ n
    rw [dayNumber_march, marchNumber]
    omega
  -- So many days later the number is the one that was looked for.
  obtain ⟨hvalid', hnumber⟩ := iterate_next hvalid (n - number ⟨-400 * n.natAbs, 3, 1⟩).toNat
  refine ⟨_, hvalid', ?_⟩
  omega

theorem date?_of_isValid (h : c.IsValid) : c.date? = Date.ofDay? c.number := if_pos h

end Civil

namespace Date

/-- Dates are their numbers, as far as the calendar goes. -/
theorem ofDay?_eq_some_iff {n : Int} {d : Date} : ofDay? n = some d ↔ d.day = n := by
  unfold ofDay?
  constructor
  · intro h
    obtain ⟨hn, h⟩ := Option.dite_none_right_eq_some.1 h
    rw [← Option.some.inj h]
  · rintro rfl
    exact dif_pos d.inCalendar

variable {d start : Date} {n : Nat}

theorem day_of_back? (h : d.back? n = some start) : start.day = d.day - n :=
  ofDay?_eq_some_iff.1 h

/-- **To go back is to find the day from which so many next days lead here**, and to give its date, if
it has one. -/
theorem back?_eq_date? {c : Civil} (hvalid : c.IsValid)
    (h : (Civil.next^[n] c).date? = some d) : d.back? n = c.date? := by
  obtain ⟨hvalid', hnumber⟩ := Civil.iterate_next hvalid n
  -- The date here has the number of the day there and the steps in between.
  rw [Civil.date?_of_isValid hvalid', ofDay?_eq_some_iff] at h
  rw [Civil.date?_of_isValid hvalid, back?, h, hnumber, Int.add_sub_cancel]

/-- There always is such a day, however long ago. -/
theorem exists_iterate_next_date? (d : Date) (n : Nat) :
    ∃ c : Civil, c.IsValid ∧ (Civil.next^[n] c).date? = some d := by
  obtain ⟨c, hvalid, hnumber⟩ := Civil.exists_number_eq (d.day - n)
  obtain ⟨hvalid', hnumber'⟩ := Civil.iterate_next hvalid n
  refine ⟨c, hvalid, ?_⟩
  rw [Civil.date?_of_isValid hvalid', ofDay?_eq_some_iff]
  omega

end Date

end AdOps
