import Mathlib.Order.Monotone.Basic
import Mathlib.Order.Compare
import Vtl.Operator.Apply

namespace Vtl

def daysInYear (year : Int) : Nat := if isLeapYear year then 366 else 365

namespace Date

variable {a b : Date} {year : Int} {month day : Nat}

/-- The three quotients count one leap year more after a leap year, and none after another one. -/
theorem daysBeforeYear_succ (year : Int) :
    daysBeforeYear (year + 1) = daysBeforeYear year + daysInYear year := by
  unfold daysBeforeYear daysInYear isLeapYear
  split
  · next leap =>
    simp only [Bool.and_eq_true, Bool.or_eq_true, decide_eq_true_eq] at leap
    omega
  · next common =>
    simp only [Bool.and_eq_true, Bool.or_eq_true, decide_eq_true_eq] at common
    omega

theorem daysBeforeYear_mono {later : Int} (ordered : year ≤ later) :
    daysBeforeYear year ≤ daysBeforeYear later := by
  refine monotone_int_of_le_succ (fun year => ?_) ordered
  rw [daysBeforeYear_succ]
  omega

theorem daysBeforeMonth_succ (positive : 1 ≤ month) :
    daysBeforeMonth year (month + 1) = daysBeforeMonth year month + daysInMonth year month := by
  obtain ⟨earlier, rfl⟩ := Nat.exists_eq_add_of_le' positive
  rfl

theorem daysBeforeMonth_mono (year : Int) {later : Nat} (ordered : month ≤ later) :
    daysBeforeMonth year month ≤ daysBeforeMonth year later := by
  refine monotone_nat_of_le_succ (fun month => ?_) ordered
  cases month with
  | zero => exact Nat.zero_le _
  | succ month =>
    rw [daysBeforeMonth_succ (Nat.succ_pos month)]
    exact Nat.le_add_right _ _

/-- The twelve months make a year. -/
theorem daysBeforeMonth_thirteen (year : Int) : daysBeforeMonth year 13 = daysInYear year := by
  simp only [daysBeforeMonth, daysInMonth, daysInYear]
  split <;> rfl

theorem dayNumber_lt_of_day (years : a.year = b.year) (months : a.month = b.month) (days : a.day < b.day) :
    a.dayNumber < b.dayNumber := by
  rw [dayNumber, dayNumber, years, months]
  omega

/-- A date lies within its month. -/
theorem daysBeforeMonth_add_day_le (date : Date) :
    daysBeforeMonth date.year date.month + date.day ≤ daysBeforeMonth date.year (date.month + 1) := by
  obtain ⟨_, ⟨first, _⟩, _, within⟩ := date.onCalendar
  rw [daysBeforeMonth_succ first]
  omega

theorem daysBeforeMonth_add_day_le_daysInYear (date : Date) :
    daysBeforeMonth date.year date.month + date.day ≤ daysInYear date.year := by
  have laterMonth : date.month + 1 ≤ 13 := Nat.succ_le_succ date.onCalendar.2.1.2
  rw [← daysBeforeMonth_thirteen]
  exact date.daysBeforeMonth_add_day_le.trans (daysBeforeMonth_mono date.year laterMonth)

theorem dayNumber_lt_of_month (years : a.year = b.year) (months : a.month < b.month) :
    a.dayNumber < b.dayNumber := by
  have within := a.daysBeforeMonth_add_day_le
  have later : daysBeforeMonth a.year (a.month + 1) ≤ daysBeforeMonth a.year b.month :=
    daysBeforeMonth_mono a.year months
  have positive := b.onCalendar.2.2.1
  rw [dayNumber, dayNumber, ← years]
  omega

theorem dayNumber_lt_of_year (years : a.year < b.year) : a.dayNumber < b.dayNumber := by
  have within := a.daysBeforeMonth_add_day_le_daysInYear
  have later : daysBeforeYear (a.year + 1) ≤ daysBeforeYear b.year := daysBeforeYear_mono years
  have positive := b.onCalendar.2.2.1
  rw [daysBeforeYear_succ] at later
  rw [dayNumber, dayNumber]
  omega

/-- The order of the calendar is the order of the day numbers. -/
theorem order_eq_compare (a b : Date) : a.order b = compare a.dayNumber b.dayNumber := by
  rw [order]
  rcases lt_trichotomy a.year b.year with years | years | years
  · rw [compare_lt_iff_lt.mpr years, compare_lt_iff_lt.mpr (dayNumber_lt_of_year years)]
    rfl
  · rw [compare_eq_iff_eq.mpr years, Ordering.eq_then]
    rcases lt_trichotomy a.month b.month with months | months | months
    · rw [compare_lt_iff_lt.mpr months, compare_lt_iff_lt.mpr (dayNumber_lt_of_month years months)]
      rfl
    · rw [compare_eq_iff_eq.mpr months, Ordering.eq_then]
      rcases lt_trichotomy a.day b.day with days | days | days
      · rw [compare_lt_iff_lt.mpr days, compare_lt_iff_lt.mpr (dayNumber_lt_of_day years months days)]
      · rw [compare_eq_iff_eq.mpr days, dayNumber, dayNumber, years, months, days, compare_eq_iff_eq.mpr rfl]
      · rw [compare_gt_iff_gt.mpr days,
          compare_gt_iff_gt.mpr (dayNumber_lt_of_day years.symm months.symm days)]
    · rw [compare_gt_iff_gt.mpr months, compare_gt_iff_gt.mpr (dayNumber_lt_of_month years.symm months)]
      rfl
  · rw [compare_gt_iff_gt.mpr years, compare_gt_iff_gt.mpr (dayNumber_lt_of_year years)]
    rfl

theorem dayNumber_inj : a.dayNumber = b.dayNumber ↔ a = b := by
  refine ⟨fun same => ?_, congrArg dayNumber⟩
  have equal : a.order b = .eq := (order_eq_compare a b).trans (compare_eq_iff_eq.mpr same)
  simp only [order, Ordering.then_eq_eq, compare_eq_iff_eq] at equal
  cases a
  cases b
  simpa using equal

def first : Date := ⟨-262143, 1, 1, by decide⟩

def last : Date := ⟨262142, 12, 31, by decide⟩

/-- The day from which days are counted. -/
def epoch : Date := ⟨1970, 1, 1, by decide⟩

/-- The next day of the month, or else the first day of the next month or of the next year. -/
def next? (date : Date) : Option Date :=
  if date.day < daysInMonth date.year date.month then ofParts? date.year date.month (date.day + 1)
  else if date.month < 12 then ofParts? date.year (date.month + 1) 1
  else ofParts? (date.year + 1) 1 1

theorem ofParts?_eq_some (made : ofParts? year month day = some b) :
    b.year = year ∧ b.month = month ∧ b.day = day := by
  unfold ofParts? at made
  split at made
  · cases made
    exact ⟨rfl, rfl, rfl⟩
  · cases made

theorem ofParts?_eq_none : ofParts? year month day = none ↔ ¬IsCalendarDay year month day := by
  unfold ofParts?
  split
  · next valid => exact iff_of_false (by simp) (not_not_intro valid)
  · next invalid => exact iff_of_true rfl invalid

theorem daysInMonth_pos (year : Int) (month : Nat) : 1 ≤ daysInMonth year month := by
  unfold daysInMonth
  split
  · split <;> decide
  all_goals decide

theorem dayNumber_next (following : a.next? = some b) : b.dayNumber = a.dayNumber + 1 := by
  obtain ⟨_, ⟨firstMonth, lastMonth⟩, _, lastDay⟩ := a.onCalendar
  unfold next? at following
  split at following
  · obtain ⟨years, months, days⟩ := ofParts?_eq_some following
    rw [dayNumber, dayNumber, years, months, days]
    omega
  · next monthEnds =>
    -- The day is the last one of its month, which has as many days as that day says.
    split at following
    · obtain ⟨years, months, days⟩ := ofParts?_eq_some following
      rw [dayNumber, dayNumber, years, months, days, daysBeforeMonth_succ firstMonth]
      omega
    · next yearEnds =>
      obtain ⟨years, months, days⟩ := ofParts?_eq_some following
      have december : a.month = 12 := by omega
      have wholeYear := @daysBeforeMonth_succ a.year _ firstMonth
      rw [december, daysBeforeMonth_thirteen] at wholeYear
      have newYear : daysBeforeMonth b.year 1 = 0 := rfl
      rw [dayNumber, dayNumber, months, days, newYear, years, daysBeforeYear_succ, december]
      rw [december] at monthEnds lastDay
      omega

/-- Only the last day has none that follows it. -/
theorem next?_eq_none : a.next? = none ↔ a = last := by
  refine ⟨fun ends => ?_, fun same => same ▸ rfl⟩
  obtain ⟨⟨firstYear, lastYear⟩, ⟨firstMonth, lastMonth⟩, firstDay, lastDay⟩ := a.onCalendar
  unfold next? at ends
  split at ends
  · next sameMonth =>
    have valid : IsCalendarDay a.year a.month (a.day + 1) :=
      ⟨⟨firstYear, lastYear⟩, ⟨firstMonth, lastMonth⟩, Nat.succ_pos _, sameMonth⟩
    exact (ofParts?_eq_none.mp ends valid).elim
  · next monthEnds =>
    split at ends
    · next sameYear =>
      have valid : IsCalendarDay a.year (a.month + 1) 1 :=
        ⟨⟨firstYear, lastYear⟩, ⟨Nat.succ_pos _, sameYear⟩, le_rfl, daysInMonth_pos _ _⟩
      exact (ofParts?_eq_none.mp ends valid).elim
    · next yearEnds =>
      have december : a.month = 12 := by omega
      have invalid : ¬a.year + 1 ≤ 262142 := fun within =>
        ofParts?_eq_none.mp ends ⟨⟨by omega, within⟩, by decide, le_rfl, daysInMonth_pos _ _⟩
      rw [december] at monthEnds lastDay
      have ofDecember : daysInMonth a.year 12 = 31 := rfl
      have parts : a.year = 262142 ∧ a.month = 12 ∧ a.day = 31 := by omega
      cases a
      simpa [last] using parts

theorem dayNumber_bounds (date : Date) :
    first.dayNumber ≤ date.dayNumber ∧ date.dayNumber ≤ last.dayNumber := by
  obtain ⟨⟨firstYear, lastYear⟩, _, firstDay, _⟩ := date.onCalendar
  have within := date.daysBeforeMonth_add_day_le_daysInYear
  have fromFirst : daysBeforeYear (-262143) ≤ daysBeforeYear date.year := daysBeforeYear_mono firstYear
  have toLast : daysBeforeYear (date.year + 1) ≤ daysBeforeYear 262143 :=
    daysBeforeYear_mono (Int.add_le_add_right lastYear 1)
  have firstNumber : first.dayNumber = daysBeforeYear (-262143) + 1 - 719529 := rfl
  have lastNumber : last.dayNumber = daysBeforeYear 262143 - 719529 := by decide
  rw [daysBeforeYear_succ] at toLast
  rw [firstNumber, lastNumber, dayNumber]
  omega

/-- The day numbers follow each other as the days do. -/
theorem next?_eq_some : a.next? = some b ↔ b.dayNumber = a.dayNumber + 1 := by
  refine ⟨dayNumber_next, fun successor => ?_⟩
  cases found : a.next? with
  | none =>
    have bound := b.dayNumber_bounds.2
    rw [next?_eq_none.mp found] at successor
    omega
  | some c => rw [dayNumber_inj.mp ((dayNumber_next found).trans successor.symm)]

/-- No difference of dates is too great for an integer. -/
theorem toInt_difference (a b : Date) :
    (Int64.ofInt (a.dayNumber - b.dayNumber)).toInt = a.dayNumber - b.dayNumber := by
  have ofA := a.dayNumber_bounds
  have ofB := b.dayNumber_bounds
  have least : first.dayNumber = -96465292 := by decide
  have greatest : last.dayNumber = 95026236 := by decide
  exact Int64.toInt_ofInt_of_le (by omega) (by omega)

theorem sub_apply (a b : Date) :
    ArithmeticOp.sub.apply (.date a) (.date b) = .ok (.integer (.ofInt (a.dayNumber - b.dayNumber))) := by
  rw [Int64.ofInt_sub]
  rfl

/-- The order of two dates shows in the sign of their difference. -/
theorem order_eq_iff (a b : Date) {difference : Int64} (exact : difference.toInt = a.dayNumber - b.dayNumber) :
    (a.order b = .lt ↔ difference < 0) ∧ (a.order b = .eq ↔ difference = 0) ∧
      (a.order b = .gt ↔ 0 < difference) := by
  rw [order_eq_compare, compare_lt_iff_lt, compare_eq_iff_eq, compare_gt_iff_gt, Int64.lt_iff_toInt_lt,
    ← Int64.toInt_inj, Int64.lt_iff_toInt_lt, exact, Int64.toInt_zero]
  omega

/-- Dates are subtracted by their day numbers and compared by year, month and day, and the two agree: the
difference is exact, it has the sign that the comparison says, and differences add up. A day has the number
that follows the number of the day before it, and the days are counted from 1970-01-01. -/
theorem difference_agrees_with_order (a b c : Date) :
    ∃ ab bc ac : Int64,
      ArithmeticOp.sub.apply (.date a) (.date b) = .ok (.integer ab) ∧
      ArithmeticOp.sub.apply (.date b) (.date c) = .ok (.integer bc) ∧
      ArithmeticOp.sub.apply (.date a) (.date c) = .ok (.integer ac) ∧
      ab.toInt = a.dayNumber - b.dayNumber ∧
      ComparisonOp.lt.apply (.date a) (.date b) = .ok (.boolean (ab < 0)) ∧
      ComparisonOp.eq.apply (.date a) (.date b) = .ok (.boolean (ab = 0)) ∧
      ComparisonOp.gt.apply (.date a) (.date b) = .ok (.boolean (0 < ab)) ∧
      ArithmeticOp.add.apply (.integer ab) (.integer bc) = .ok (.integer ac) ∧
      ab.toInt + bc.toInt = ac.toInt ∧
      (a.next? = some b ↔ b.dayNumber = a.dayNumber + 1) ∧ (a.next? = none ↔ a = last) ∧
      epoch.dayNumber = 0 := by
  have exact := toInt_difference a b
  obtain ⟨less, equal, greater⟩ := order_eq_iff a b exact
  have telescope : a.dayNumber - b.dayNumber + (b.dayNumber - c.dayNumber) = a.dayNumber - c.dayNumber := by
    omega
  have compared (op : ComparisonOp) {truth : Bool} (holds : op.holds (a.order b) = truth) :
      op.apply (.date a) (.date b) = .ok (.boolean truth) := holds ▸ rfl
  refine ⟨_, _, _, sub_apply a b, sub_apply b c, sub_apply a c, exact, compared .lt ?_, compared .eq ?_,
    compared .gt ?_, ?_, ?_, next?_eq_some, next?_eq_none, by decide⟩
  · rw [ComparisonOp.holds, beq_eq_decide, decide_eq_decide.mpr less]
  · rw [ComparisonOp.holds, beq_eq_decide, decide_eq_decide.mpr equal]
  · rw [ComparisonOp.holds, beq_eq_decide, decide_eq_decide.mpr greater]
  · rw [← telescope, Int64.ofInt_add]
    rfl
  · rw [exact, toInt_difference, toInt_difference, telescope]

end Date

end Vtl
