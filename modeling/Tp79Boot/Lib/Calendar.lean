/-!
# The Gregorian calendar

Dates from the year one on.  A date is valid by construction, and is numbered
by the days that lie before it; the number of the next day is one more.  The
days of the first years have a closed form, which is the leap rule summed up.
-/

namespace Calendar

def IsLeap (year : Nat) : Prop :=
  year % 4 = 0 ∧ year % 100 ≠ 0 ∨ year % 400 = 0

instance (year : Nat) : Decidable (IsLeap year) :=
  inferInstanceAs (Decidable (_ ∨ _))

def daysInMonth (year month : Nat) : Nat :=
  if month = 2 then if IsLeap year then 29 else 28
  else if month = 4 ∨ month = 6 ∨ month = 9 ∨ month = 11 then 30
  else 31

theorem daysInMonth_cases (year month : Nat) :
    daysInMonth year month = 28 ∨ daysInMonth year month = 29 ∨
      daysInMonth year month = 30 ∨ daysInMonth year month = 31 := by
  unfold daysInMonth
  split
  · split
    · exact .inr (.inl rfl)
    · exact .inl rfl
  · split
    · exact .inr (.inr (.inl rfl))
    · exact .inr (.inr (.inr rfl))

theorem daysInMonth_pos (year month : Nat) : 1 ≤ daysInMonth year month := by
  have length := daysInMonth_cases year month
  omega

theorem daysInMonth_le (year month : Nat) : daysInMonth year month ≤ 31 := by
  have length := daysInMonth_cases year month
  omega

structure Date where
  year : Nat
  month : Nat
  day : Nat
  yearFirst : 1 ≤ year
  monthFirst : 1 ≤ month
  monthLast : month ≤ 12
  dayFirst : 1 ≤ day
  dayLast : day ≤ daysInMonth year month

/-- The next day. -/
def Date.next (date : Date) : Date :=
  if inside : date.day < daysInMonth date.year date.month then
    { date with
      day := date.day + 1
      dayFirst := Nat.succ_pos _
      dayLast := inside }
  else if within : date.month < 12 then
    { date with
      month := date.month + 1
      day := 1
      monthFirst := Nat.succ_pos _
      monthLast := within
      dayFirst := Nat.le_refl 1
      dayLast := daysInMonth_pos _ _ }
  else
    { year := date.year + 1
      month := 1
      day := 1
      yearFirst := Nat.succ_pos _
      monthFirst := Nat.le_refl 1
      monthLast := by decide
      dayFirst := Nat.le_refl 1
      dayLast := daysInMonth_pos _ _ }

/-- The next day is in the same month, or the first of the next month or of
the next year. -/
theorem Date.next_cases (date : Date) :
    (date.next.year = date.year ∧ date.next.month = date.month ∧
        date.next.day = date.day + 1) ∨
      (date.next.year = date.year ∧ date.next.month = date.month + 1 ∧
        date.next.day = 1) ∨
      (date.next.year = date.year + 1 ∧ date.next.month = 1 ∧
        date.next.day = 1) := by
  rw [Date.next]
  split
  · exact .inl ⟨rfl, rfl, rfl⟩
  · split
    · exact .inr (.inl ⟨rfl, rfl, rfl⟩)
    · exact .inr (.inr ⟨rfl, rfl, rfl⟩)

/-- The days of the first months of a year. -/
def daysInMonths (year : Nat) : Nat → Nat
  | 0 => 0
  | months + 1 => daysInMonths year months + daysInMonth year (months + 1)

/-- The days of the first years. -/
def daysInYears : Nat → Nat
  | 0 => 0
  | years + 1 => daysInYears years + daysInMonths (years + 1) 12

/-- The days before a date. -/
def Date.dayNumber (date : Date) : Nat :=
  daysInYears (date.year - 1) + daysInMonths date.year (date.month - 1) +
    (date.day - 1)

theorem daysInMonths_pred (year : Nat) {month : Nat} (first : 1 ≤ month) :
    daysInMonths year month =
      daysInMonths year (month - 1) + daysInMonth year month := by
  obtain ⟨earlier, rfl⟩ := Nat.exists_eq_add_of_le' first
  rfl

theorem daysInYears_pred {year : Nat} (first : 1 ≤ year) :
    daysInYears year = daysInYears (year - 1) + daysInMonths year 12 := by
  obtain ⟨earlier, rfl⟩ := Nat.exists_eq_add_of_le' first
  rfl

/-- The next day has the next number. -/
theorem Date.dayNumber_next (date : Date) :
    date.next.dayNumber = date.dayNumber + 1 := by
  have day := date.dayFirst
  have last := date.dayLast
  have month := daysInMonths_pred date.year date.monthFirst
  have year := daysInYears_pred date.yearFirst
  rw [Date.next]
  split
  next inside =>
    show daysInYears (date.year - 1) +
        daysInMonths date.year (date.month - 1) + date.day = _
    rw [Date.dayNumber]
    omega
  next outside =>
    split
    next within =>
      show daysInYears (date.year - 1) + daysInMonths date.year date.month = _
      rw [Date.dayNumber]
      omega
    next december =>
      have twelve : date.month = 12 :=
        Nat.le_antisymm date.monthLast (Nat.le_of_not_lt december)
      show daysInYears date.year = _
      rw [twelve] at month outside last
      rw [Date.dayNumber, twelve]
      omega

theorem daysInMonths_twelve (year : Nat) :
    daysInMonths year 12 = if IsLeap year then 366 else 365 := by
  by_cases leap : IsLeap year
  · simp [daysInMonths, daysInMonth, leap]
  · simp [daysInMonths, daysInMonth, leap]

/-- Every fourth year is a leap year, the hundredths are not, the four
hundredths are. -/
theorem daysInYears_eq (years : Nat) :
    daysInYears years + years / 100 =
      365 * years + years / 4 + years / 400 := by
  induction years with
  | zero => rfl
  | succ years induction =>
      have length := daysInMonths_twelve (years + 1)
      rw [daysInYears, length]
      by_cases fourth : (years + 1) % 4 = 0
      · by_cases hundredth : (years + 1) % 100 = 0
        · by_cases fourHundredth : (years + 1) % 400 = 0
          · rw [if_pos (.inr fourHundredth),
              Nat.succ_div_of_mod_eq_zero fourth,
              Nat.succ_div_of_mod_eq_zero hundredth,
              Nat.succ_div_of_mod_eq_zero fourHundredth]
            omega
          · have common : ¬IsLeap (years + 1) := by
              intro leap
              rcases leap with ⟨_, notHundredth⟩ | whole
              · exact notHundredth hundredth
              · exact fourHundredth whole
            rw [if_neg common, Nat.succ_div_of_mod_eq_zero fourth,
              Nat.succ_div_of_mod_eq_zero hundredth,
              Nat.succ_div_of_mod_ne_zero fourHundredth]
            omega
        · have notWhole : (years + 1) % 400 ≠ 0 := by omega
          rw [if_pos (.inl ⟨fourth, hundredth⟩),
            Nat.succ_div_of_mod_eq_zero fourth,
            Nat.succ_div_of_mod_ne_zero hundredth,
            Nat.succ_div_of_mod_ne_zero notWhole]
          omega
      · have notHundredth : (years + 1) % 100 ≠ 0 := by omega
        have notWhole : (years + 1) % 400 ≠ 0 := by omega
        have common : ¬IsLeap (years + 1) := by
          intro leap
          rcases leap with ⟨divides, _⟩ | whole
          · exact fourth divides
          · exact notWhole whole
        rw [if_neg common, Nat.succ_div_of_mod_ne_zero fourth,
          Nat.succ_div_of_mod_ne_zero notHundredth,
          Nat.succ_div_of_mod_ne_zero notWhole]
        omega

end Calendar
