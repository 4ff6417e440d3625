import Mathlib.Tactic.Common

/-!
# The Gregorian calendar

Dates from 1 January of the year 1 on, the date that follows, and the day of the week.
The calendar is counted in days: that number grows by one from each date to the next,
and the first date, a Monday, has the number 0.
-/

namespace BackupSoftware.Library.Calendar

def isLeap (y : Nat) : Bool := y % 4 = 0 && (y % 100 ≠ 0 || y % 400 = 0)

def yearLength (y : Nat) : Nat := if isLeap y then 366 else 365

def monthLength (y m : Nat) : Nat :=
  match m with
  | 2 => if isLeap y then 29 else 28
  | 4 | 6 | 9 | 11 => 30
  | _ => 31

/-- A date from the year 1 on. -/
structure Date where
  year : Nat
  month : Nat
  day : Nat
  year_pos : 1 ≤ year
  month_pos : 1 ≤ month
  month_le : month ≤ 12
  day_pos : 1 ≤ day
  day_le : day ≤ monthLength year month

/-- The date with this year, month and day. -/
def Date.of (y m d : Nat)
    (h : (1 ≤ y ∧ 1 ≤ m ∧ m ≤ 12) ∧ 1 ≤ d ∧ d ≤ monthLength y m) : Date :=
  ⟨y, m, d, h.1.1, h.1.2.1, h.1.2.2, h.2.1, h.2.2⟩

theorem monthLength_bounds (y m : Nat) : 28 ≤ monthLength y m ∧ monthLength y m ≤ 31 := by
  unfold monthLength
  split
  · split <;> omega
  all_goals omega

theorem monthLength_pos (y m : Nat) : 1 ≤ monthLength y m :=
  Nat.le_trans (by decide) (monthLength_bounds y m).1

/-- The date that follows. -/
def Date.next (d : Date) : Date :=
  if hday : d.day < monthLength d.year d.month then
    { d with day := d.day + 1, day_pos := by omega, day_le := hday }
  else if hmonth : d.month < 12 then
    ⟨d.year, d.month + 1, 1, d.year_pos, by omega, hmonth, Nat.le_refl 1, monthLength_pos _ _⟩
  else ⟨d.year + 1, 1, 1, by omega, Nat.le_refl 1, by omega, Nat.le_refl 1, monthLength_pos _ _⟩

theorem day_next_ne (d : Date) : d.next.day ≠ d.day := by
  have hlong := (monthLength_bounds d.year d.month).1
  unfold Date.next
  split
  · exact Nat.succ_ne_self d.day
  · next hlast =>
    have hne : 1 ≠ d.day := by omega
    split
    · exact hne
    · exact hne

theorem year_next_le (d : Date) : d.next.year ≤ d.year + 1 := by
  unfold Date.next
  split
  · exact Nat.le_succ d.year
  · split
    · exact Nat.le_succ d.year
    · exact Nat.le_refl (d.year + 1)

/-- The days from 1 January of the year 1 to 1 January of a year. -/
def yearStart : Nat → Nat
  | 0 => 0
  | 1 => 0
  | y + 2 => yearStart (y + 1) + yearLength (y + 1)

/-- The days of a year before a month. -/
def monthStart (y : Nat) : Nat → Nat
  | 0 => 0
  | 1 => 0
  | m + 2 => monthStart y (m + 1) + monthLength y (m + 1)

/-- The days since 1 January of the year 1. -/
def Date.number (d : Date) : Nat := yearStart d.year + monthStart d.year d.month + (d.day - 1)

/-- Monday is 1 and Sunday is 7. -/
def Date.weekday (d : Date) : Nat := d.number % 7 + 1

/-- The day of the year, 0 for 1 January. -/
def Date.ordinal (d : Date) : Nat := monthStart d.year d.month + (d.day - 1)

theorem yearStart_succ {y : Nat} (hy : 1 ≤ y) : yearStart (y + 1) = yearStart y + yearLength y := by
  cases y with
  | zero => omega
  | succ y => rfl

theorem monthStart_succ (y : Nat) {m : Nat} (hm : 1 ≤ m) :
    monthStart y (m + 1) = monthStart y m + monthLength y m := by
  cases m with
  | zero => omega
  | succ m => rfl

/-- The months of a year add up to its length. -/
theorem monthStart_thirteen (y : Nat) : monthStart y 13 = yearLength y := by
  simp only [monthStart, monthLength, yearLength]
  split <;> rfl

/-- The days of the calendar are counted one by one. -/
theorem number_next (d : Date) : d.next.number = d.number + 1 := by
  have hpos := d.day_pos
  have hle := d.day_le
  unfold Date.next
  split
  · simp only [Date.number]
    omega
  · next hday =>
    split
    · simp only [Date.number, monthStart_succ d.year d.month_pos]
      omega
    · next hmonth =>
      have hm : d.month = 12 := by
        have := d.month_le
        omega
      have hyear := monthStart_thirteen d.year
      rw [monthStart_succ d.year (m := 12) (by decide)] at hyear
      simp only [Date.number, yearStart_succ d.year_pos, hm]
      rw [hm] at hday hle
      have hjanuary : monthStart (d.year + 1) 1 = 0 := rfl
      omega

theorem weekday_next (d : Date) : d.next.weekday % 7 = (d.weekday + 1) % 7 := by
  unfold Date.weekday
  rw [number_next]
  omega

/-- The leap years up to a year. -/
def leapCount (y : Nat) : Nat := y / 4 - y / 100 + y / 400

theorem isLeap_iff (y : Nat) : isLeap y = true ↔ y % 4 = 0 ∧ (y % 100 ≠ 0 ∨ y % 400 = 0) := by
  simp [isLeap]

theorem leapCount_succ (y : Nat) :
    leapCount (y + 1) = leapCount y + if isLeap (y + 1) then 1 else 0 := by
  have hle : y / 100 ≤ y / 4 := by omega
  have h100 : (y + 1) % 100 = 0 → (y + 1) % 4 = 0 := by omega
  have h400 : (y + 1) % 400 = 0 → (y + 1) % 100 = 0 := by omega
  simp only [leapCount, Nat.succ_div, Nat.dvd_iff_mod_eq_zero, isLeap_iff]
  generalize (y + 1) % 4 = r₄ at *
  generalize (y + 1) % 100 = r₁₀₀ at *
  generalize (y + 1) % 400 = r₄₀₀ at *
  split_ifs <;> omega

theorem yearStart_eq (y : Nat) : yearStart (y + 1) = 365 * y + leapCount y := by
  induction y with
  | zero => rfl
  | succ y ih =>
    rw [yearStart_succ (by omega), ih, leapCount_succ, yearLength]
    split <;> omega

end BackupSoftware.Library.Calendar
