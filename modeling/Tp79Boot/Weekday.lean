import Mathlib.Tactic.IntervalCases
import Tp79Boot.Lib.Calendar

/-!
# The day of the week

`get_weekday` of `my_string.c`.  It counts January and February as the last
months of the year before and adds up the days in the type `int`, where a sum
that is too large comes back as a negative one.
-/

namespace Tp79Boot

open Calendar

/-- The sum in the parentheses of `get_weekday`. -/
def weekdaySum (y m d : Int32) : Int32 :=
  d + 2 * m + 3 * (m + 1) / 5 + y + y / 4 - y / 100 + y / 400

def getWeekday (y m d : Int32) : Int32 :=
  if m = 1 ∨ m = 2 then weekdaySum (y - 1) (m + 12) d % 7
  else weekdaySum y m d % 7

/-- The sum without a type. -/
def weekdayCount (y m d : Nat) : Nat :=
  d + 2 * m + 3 * (m + 1) / 5 + y + y / 4 - y / 100 + y / 400

theorem ofNat_div_small {value divisor : Nat} (representable : value < 2 ^ 31)
    (small : divisor ≤ 400) :
    Int32.ofNat value / Int32.ofNat divisor = Int32.ofNat (value / divisor) :=
  (Int32.ofNat_div representable (by omega)).symm

theorem weekdaySum_ofNat {y m : Nat} (year : y < 2 ^ 31) (month : m ≤ 14)
    (d : Nat) :
    weekdaySum (.ofNat y) (.ofNat m) (.ofNat d) =
      .ofNat (weekdayCount y m d) := by
  have fifths : (3 * (.ofNat m + 1) / 5 : Int32) =
      .ofNat (3 * (m + 1) / 5) := by
    rw [← ofNat_div_small (by omega) (by decide), Int32.ofNat_mul,
      Int32.ofNat_add]
    rfl
  have fourths : (.ofNat y / 4 : Int32) = .ofNat (y / 4) :=
    ofNat_div_small year (by decide)
  have hundredths : (.ofNat y / 100 : Int32) = .ofNat (y / 100) :=
    ofNat_div_small year (by decide)
  have fourHundredths : (.ofNat y / 400 : Int32) = .ofNat (y / 400) :=
    ofNat_div_small year (by decide)
  have less : y / 100 ≤ d + 2 * m + 3 * (m + 1) / 5 + y + y / 4 := by omega
  rw [weekdaySum, weekdayCount, fifths, fourths, hundredths, fourHundredths,
    Int32.ofNat_add, Int32.ofNat_sub _ _ less, Int32.ofNat_add,
    Int32.ofNat_add, Int32.ofNat_add, Int32.ofNat_add, Int32.ofNat_mul]
  rfl

/-- January and February are the months 13 and 14 of the year before. -/
def shiftedMonth (date : Date) : Nat :=
  if date.month ≤ 2 then date.month + 12 else date.month

def shiftedYear (date : Date) : Nat :=
  if date.month ≤ 2 then date.year - 1 else date.year

/-- What `get_weekday` adds up for a date, without a type. -/
def shiftedCount (date : Date) : Nat :=
  weekdayCount (shiftedYear date) (shiftedMonth date) date.day

theorem daysInMonths_week (year : Nat) {month : Nat} (march : 3 ≤ month)
    (last : month ≤ 12) :
    daysInMonths year (month - 1) % 7 =
      (2 * month + 3 * (month + 1) / 5 + 2 +
        if IsLeap year then 1 else 0) % 7 := by
  by_cases leap : IsLeap year
  · interval_cases month <;> simp [daysInMonths, daysInMonth, leap]
  · interval_cases month <;> simp [daysInMonths, daysInMonth, leap]

/-- The sum of a date and its number differ by whole weeks. -/
theorem shiftedCount_dayNumber (date : Date) :
    shiftedCount date % 7 = date.dayNumber % 7 := by
  have day := date.dayFirst
  have first := date.monthFirst
  unfold shiftedCount weekdayCount Date.dayNumber
  by_cases early : date.month ≤ 2
  · have years := daysInYears_eq (date.year - 1)
    rw [shiftedYear, shiftedMonth, if_pos early, if_pos early]
    generalize date.year - 1 = before at *
    obtain january | february : date.month = 1 ∨ date.month = 2 := by omega
    · have months : daysInMonths date.year (date.month - 1) = 0 := by
        rw [january]
        rfl
      rw [months, january]
      omega
    · have months : daysInMonths date.year (date.month - 1) = 31 := by
        rw [february]
        rfl
      rw [months, february]
      omega
  · have years := daysInYears_eq date.year
    have lastYear := daysInYears_pred date.yearFirst
    have length := daysInMonths_twelve date.year
    have months := daysInMonths_week date.year (by omega) date.monthLast
    rw [shiftedYear, shiftedMonth, if_neg early, if_neg early]
    generalize 3 * (date.month + 1) / 5 = fifths at *
    by_cases leap : IsLeap date.year
    · rw [if_pos leap] at months length
      omega
    · rw [if_neg leap] at months length
      omega

/-- The year is an `int`. -/
def YearFits (date : Date) : Prop :=
  date.year ≤ 2147483647

instance (date : Date) : Decidable (YearFits date) :=
  inferInstanceAs (Decidable (_ ≤ _))

/-- The sum is an `int`. -/
def WeekdayFits (date : Date) : Prop :=
  shiftedCount date ≤ 2147483647

/-- What `get_weekday` returns for a date. -/
def weekday (date : Date) : Int :=
  (getWeekday (.ofNat date.year) (.ofNat date.month) (.ofNat date.day)).toInt

/-- The weekday of the next day comes after the weekday of the date. -/
def WeekdayFollows (date : Date) : Prop :=
  weekday date.next = (weekday date + 1) % 7

instance (date : Date) : Decidable (WeekdayFollows date) :=
  inferInstanceAs (Decidable (_ = _))

theorem ofNat_month_iff {month : Nat} (last : month ≤ 12) :
    (Int32.ofNat month = 1 ∨ Int32.ofNat month = 2) ↔
      month = 1 ∨ month = 2 := by
  revert last
  revert month
  decide

theorem getWeekday_shifted {date : Date} (year : YearFits date) :
    getWeekday (.ofNat date.year) (.ofNat date.month) (.ofNat date.day) =
      .ofNat (shiftedCount date) % 7 := by
  have first := date.monthFirst
  have last := date.monthLast
  unfold YearFits at year
  have month := ofNat_month_iff last
  rw [getWeekday, shiftedCount, shiftedYear, shiftedMonth]
  by_cases early : date.month ≤ 2
  · have before : (.ofNat date.year - 1 : Int32) = .ofNat (date.year - 1) :=
      (Int32.ofNat_sub _ _ date.yearFirst).symm
    have later : (.ofNat date.month + 12 : Int32) = .ofNat (date.month + 12) :=
      (Int32.ofNat_add _ _).symm
    rw [if_pos (month.mpr (by omega)), if_pos early, if_pos early, before,
      later, weekdaySum_ofNat (by omega) (by omega)]
  · rw [if_neg (month.not.mpr (by omega)), if_neg early, if_neg early,
      weekdaySum_ofNat (by omega) (by omega)]

theorem shiftedCount_lt {date : Date} (year : YearFits date) :
    shiftedCount date < 4294967296 := by
  have day := Nat.le_trans date.dayLast (daysInMonth_le _ _)
  have last := date.monthLast
  unfold YearFits at year
  unfold shiftedCount weekdayCount shiftedYear shiftedMonth
  by_cases early : date.month ≤ 2
  · rw [if_pos early, if_pos early]
    omega
  · rw [if_neg early, if_neg early]
    omega

/-- Where the sum fits, the weekday is that of the number of the date, and the
first day of the calendar is a Monday. -/
theorem weekday_fits {date : Date} (year : YearFits date)
    (fits : WeekdayFits date) : weekday date = (date.dayNumber % 7 : Nat) := by
  have below : shiftedCount date < 2 ^ 31 := Nat.lt_succ_of_le fits
  have reduced : (.ofNat (shiftedCount date) % 7 : Int32) =
      .ofNat (shiftedCount date % 7) :=
    (Int32.ofNat_mod below (by decide)).symm
  have small := Nat.mod_lt date.dayNumber (show 0 < 7 by decide)
  rw [weekday, getWeekday_shifted year, reduced, shiftedCount_dayNumber,
    Int32.toInt_ofNat_of_lt (by omega)]

/-- Where the sum has wrapped, the result is not positive, and `2 ^ 32` is four
days more than whole weeks. -/
theorem weekday_wraps {date : Date} (year : YearFits date)
    (wraps : ¬WeekdayFits date) :
    -7 < weekday date ∧ weekday date ≤ 0 ∧
      weekday date % 7 = (date.dayNumber + 3) % 7 := by
  have number := shiftedCount_dayNumber date
  have below := shiftedCount_lt year
  unfold WeekdayFits at wraps
  have wrapped : (Int32.ofNat (shiftedCount date)).toInt =
      (shiftedCount date : Int) - 4294967296 := by
    rw [Int32.toInt_ofNat', Int.bmod_def]
    norm_num [Int32.size]
    omega
  rw [weekday, getWeekday_shifted year, Int32.toInt_mod, wrapped]
  have seven : (7 : Int32).toInt = 7 := rfl
  rw [seven, ← Int.neg_sub, Int.neg_tmod, Int.tmod_eq_emod_of_nonneg (by omega)]
  omega

theorem weekdayCount_mono {earlier later : Nat} (m d : Nat)
    (before : earlier ≤ later) :
    weekdayCount earlier m d ≤ weekdayCount later m d := by
  have grows : Monotone fun y => weekdayCount y m d := by
    apply monotone_nat_of_le_succ
    intro y
    unfold weekdayCount
    omega
  exact grows before

theorem february_short {date : Date} (february : date.month = 2) :
    date.day ≤ 28 ∨ date.day = 29 ∧ date.year % 4 = 0 := by
  have day := date.dayLast
  rw [daysInMonth, if_pos february] at day
  by_cases leap : IsLeap date.year
  · rw [if_pos leap] at day
    unfold IsLeap at leap
    omega
  · rw [if_neg leap] at day
    exact .inl day

/-- Up to this year every date fits; in the next one the end of January does
not. -/
theorem weekdayFits_of_year {date : Date} (early : date.year ≤ 1728357009) :
    WeekdayFits date := by
  have first := date.monthFirst
  have last := date.monthLast
  have day := Nat.le_trans date.dayLast (daysInMonth_le _ _)
  unfold WeekdayFits shiftedCount shiftedYear shiftedMonth
  by_cases beforeMarch : date.month ≤ 2
  · rw [if_pos beforeMarch, if_pos beforeMarch]
    obtain january | february : date.month = 1 ∨ date.month = 2 := by omega
    · have before : date.year - 1 ≤ 1728357008 := Nat.sub_le_sub_right early 1
      apply Nat.le_trans (weekdayCount_mono _ _ before)
      rw [weekdayCount, january]
      omega
    · rcases february_short february with short | ⟨long, fourth⟩
      · have before : date.year - 1 ≤ 1728357008 :=
          Nat.sub_le_sub_right early 1
        apply Nat.le_trans (weekdayCount_mono _ _ before)
        rw [weekdayCount, february]
        omega
      · have before : date.year - 1 ≤ 1728357007 := by omega
        apply Nat.le_trans (weekdayCount_mono _ _ before)
        rw [weekdayCount, february, long]
        decide
  · rw [if_neg beforeMarch, if_neg beforeMarch]
    apply Nat.le_trans (weekdayCount_mono _ _ early)
    rw [weekdayCount]
    omega

theorem weekdayFits_next {date : Date} (early : date.year ≤ 1728357009) :
    WeekdayFits date.next := by
  rcases date.next_cases with
    ⟨year, _, _⟩ | ⟨year, _, _⟩ | ⟨year, month, day⟩
  · exact weekdayFits_of_year (year.trans_le early)
  · exact weekdayFits_of_year (year.trans_le early)
  · have january : date.next.month ≤ 2 := by omega
    unfold WeekdayFits shiftedCount
    rw [shiftedYear, shiftedMonth, if_pos january, if_pos january, year, month,
      day]
    exact Nat.le_trans (weekdayCount_mono 13 1 early) (by decide)

/-- The weekday follows the calendar where both sums fit; where both have
wrapped it is not positive, and the calendar is met only by the days that
follow one with the result -1. -/
theorem weekdayFollows_iff {date : Date} (year : YearFits date)
    (nextYear : YearFits date.next) :
    WeekdayFollows date ↔
      (WeekdayFits date ∧ WeekdayFits date.next) ∨
        (¬WeekdayFits date ∧ ¬WeekdayFits date.next ∧
          date.next.dayNumber % 7 = 4) := by
  have number := date.dayNumber_next
  unfold WeekdayFollows
  by_cases fits : WeekdayFits date
  · have here := weekday_fits year fits
    by_cases nextFits : WeekdayFits date.next
    · have there := weekday_fits nextYear nextFits
      apply iff_of_true
      · omega
      · exact .inl ⟨fits, nextFits⟩
    · obtain ⟨low, high, there⟩ := weekday_wraps nextYear nextFits
      apply iff_of_false
      · omega
      · rintro (both | neither)
        · exact nextFits both.2
        · exact neither.1 fits
  · obtain ⟨low, high, here⟩ := weekday_wraps year fits
    by_cases nextFits : WeekdayFits date.next
    · have there := weekday_fits nextYear nextFits
      apply iff_of_false
      · omega
      · rintro (both | neither)
        · exact fits both.1
        · exact neither.2.1 nextFits
    · obtain ⟨nextLow, nextHigh, there⟩ := weekday_wraps nextYear nextFits
      constructor
      · intro follows
        exact .inr ⟨fits, nextFits, by omega⟩
      · rintro (both | neither)
        · exact absurd both.1 fits
        · omega

theorem YearFits.of_next {date : Date} (next : YearFits date.next) :
    YearFits date := by
  unfold YearFits at next ⊢
  rcases date.next_cases with
    ⟨year, _, _⟩ | ⟨year, _, _⟩ | ⟨year, _, _⟩
  · omega
  · omega
  · omega

/-- When the weekday follows the calendar: always up to the year 1728357009.
29 February 2000 is a Tuesday. -/
theorem getWeekday_follows {date : Date} (nextYear : YearFits date.next) :
    (WeekdayFollows date ↔
      (WeekdayFits date ∧ WeekdayFits date.next) ∨
        (¬WeekdayFits date ∧ ¬WeekdayFits date.next ∧
          date.next.dayNumber % 7 = 4)) ∧
      (date.year ≤ 1728357009 → WeekdayFollows date) ∧
      getWeekday 2000 2 29 = 1 := by
  have exactly := weekdayFollows_iff nextYear.of_next nextYear
  refine ⟨exactly, ?_, by decide⟩
  intro early
  exact exactly.mpr
    (.inl ⟨weekdayFits_of_year early, weekdayFits_next early⟩)

/-- 28 February 1900 comes before 1 March. -/
theorem getWeekday_follows_1900 :
    WeekdayFollows
        { year := 1900, month := 2, day := 28, yearFirst := by decide
          monthFirst := by decide, monthLast := by decide
          dayFirst := by decide, dayLast := by decide } ∧
      getWeekday 2000 2 29 = 1 := by
  have follows := @getWeekday_follows
    { year := 1900, month := 2, day := 28, yearFirst := by decide
      monthFirst := by decide, monthLast := by decide
      dayFirst := by decide, dayLast := by decide } (by decide)
  exact ⟨follows.2.1 (by decide), follows.2.2⟩

/-- The sum for 31 January 1728357010 is the first that wraps. -/
theorem getWeekday_overflow :
    ¬∀ date : Date, YearFits date.next → WeekdayFollows date := by
  intro follows
  have next := follows
    { year := 1728357010, month := 1, day := 30, yearFirst := by decide
      monthFirst := by decide, monthLast := by decide
      dayFirst := by decide, dayLast := by decide } (by decide)
  exact absurd next (by decide)

end Tp79Boot
