import Mathlib.Order.Bounds.Basic
import BackupSoftware.Gps.LocalTime

/-!
# The day of the year in every year

`get_yday` numbers the dates of a year from 1 without a gap. The Gregorian rule repeats
every 400 years, so a year of either sign is a year of the calendar that starts at 1.
-/

namespace BackupSoftware.Gps

open BackupSoftware.Library.Calendar

def LeapYear (y : Int) : Prop := 4 ∣ y ∧ (100 ∣ y → 400 ∣ y)

instance (y : Int) : Decidable (LeapYear y) := inferInstanceAs (Decidable (_ ∧ _))

def daysIn (y : Int) (m : Nat) : Nat :=
  match m with
  | 2 => if LeapYear y then 29 else 28
  | 4 | 6 | 9 | 11 => 30
  | _ => 31

/-- A date of the year. -/
structure YearDate (y : Int) where
  month : Nat
  day : Nat
  month_pos : 1 ≤ month
  month_le : month ≤ 12
  day_pos : 1 ≤ day
  day_le : day ≤ daysIn y month

section Year

variable {y : Int}

def YearDate.Before (e e' : YearDate y) : Prop :=
  e.month < e'.month ∨ e.month = e'.month ∧ e.day < e'.day

/-- No date lies between the two. -/
def YearDate.Consecutive (e e' : YearDate y) : Prop :=
  e.Before e' ∧ ∀ x : YearDate y, ¬ (e.Before x ∧ x.Before e')

/-- The dates of the months up to `m`, as month and day. -/
def datesTo (y : Int) (m : Nat) : List (Nat × Nat) :=
  (List.range' 1 m).flatMap fun k => (List.range' 1 (daysIn y k)).map fun d => (k, d)

/-- One more than the dates of the year that come before the date. -/
def YearDate.ordinal (e : YearDate y) : Nat :=
  (datesTo y 12).countP (fun p => p.1 < e.month ∨ p.1 = e.month ∧ p.2 < e.day) + 1

def YearDate.yday (e : YearDate y) : Int := getYday y e.month e.day

/-- A year of the calendar with the same place in its cycle of 400 years. -/
def cycleYear (y : Int) : Nat := (y % 400).toNat + 400

theorem isLeap_cycleYear (y : Int) : isLeap (cycleYear y) = true ↔ LeapYear y := by
  rw [isLeap_iff]
  unfold cycleYear LeapYear
  omega

theorem leap_cycleYear (y : Int) : leap y = leap (cycleYear y) := by
  have hleap := isLeap_cycleYear y
  rw [leap_natCast]
  simp only [leap, ← Int.dvd_iff_tmod_eq_zero, ne_eq, hleap, LeapYear]
  split_ifs <;> omega

theorem daysIn_eq (y : Int) (m : Nat) : daysIn y m = monthLength (cycleYear y) m := by
  unfold daysIn monthLength
  split
  · simp only [isLeap_cycleYear]
  all_goals simp only

theorem YearDate.yday_eq (e : YearDate y) :
    e.yday = (monthStart (cycleYear y) e.month + e.day : Nat) :=
  getYday_eq_monthStart (leap_cycleYear y) e.month_pos e.month_le e.day

theorem yearLength_cycleYear (y : Int) :
    yearLength (cycleYear y) = if LeapYear y then 366 else 365 := by
  simp only [yearLength, isLeap_cycleYear]

theorem monthStart_lt_monthStart (n : Nat) {m m' : Nat} (hm : 1 ≤ m) (h : m < m') :
    monthStart n m + monthLength n m ≤ monthStart n m' := by
  rw [← monthStart_succ n hm]
  have hmono : Monotone (monthStart n) := by
    apply monotone_nat_of_le_succ
    intro k
    cases k with
    | zero => exact Nat.le_refl 0
    | succ k => exact Nat.le_add_right _ _
  exact hmono h

/-- The number of a date grows with the month, and with the day in a month. -/
theorem number_lt_iff {m m' d d' : Nat} (hm : 1 ≤ m) (hm' : 1 ≤ m') (hd : 1 ≤ d) (hd' : 1 ≤ d')
    (hle : d ≤ daysIn y m) (hle' : d' ≤ daysIn y m') :
    monthStart (cycleYear y) m + d < monthStart (cycleYear y) m' + d' ↔
      m < m' ∨ m = m' ∧ d < d' := by
  rw [daysIn_eq] at hle hle'
  rcases Nat.lt_trichotomy m m' with h | rfl | h
  · have := monthStart_lt_monthStart (cycleYear y) hm h
    omega
  · omega
  · have := monthStart_lt_monthStart (cycleYear y) hm' h
    omega

theorem YearDate.before_iff (e e' : YearDate y) : e.Before e' ↔ e.yday < e'.yday := by
  have h := number_lt_iff e.month_pos e'.month_pos e.day_pos e'.day_pos e.day_le e'.day_le
  rw [e.yday_eq, e'.yday_eq, Int.ofNat_lt, h]
  exact Iff.rfl

/-- The dates up to a month have the numbers from 1 to the last of the month. -/
theorem map_datesTo (y : Int) (m : Nat) :
    (datesTo y m).map (fun p => monthStart (cycleYear y) p.1 + p.2) =
      List.range' 1 (monthStart (cycleYear y) (m + 1)) := by
  induction m with
  | zero => rfl
  | succ m ih =>
    unfold datesTo at ih ⊢
    rw [List.range'_concat, List.flatMap_append, List.map_append, ih, List.flatMap_singleton,
      List.map_map, Nat.one_mul, Nat.add_comm 1 m]
    have hmonth : (List.range' 1 (daysIn y (m + 1))).map
        ((fun p => monthStart (cycleYear y) p.1 + p.2) ∘ fun d => (m + 1, d)) =
        List.range' (1 + monthStart (cycleYear y) (m + 1)) (daysIn y (m + 1)) := by
      rw [Nat.add_comm 1]
      exact List.map_add_range' (a := monthStart (cycleYear y) (m + 1)) 1 _ 1
    rw [hmonth, List.range'_append_1, monthStart_succ _ (Nat.succ_pos m), daysIn_eq]

theorem mem_datesTo {p : Nat × Nat} (h : p ∈ datesTo y 12) :
    (1 ≤ p.1 ∧ p.1 ≤ 12) ∧ 1 ≤ p.2 ∧ p.2 ≤ daysIn y p.1 := by
  obtain ⟨k, hk, hp⟩ := List.mem_flatMap.mp h
  obtain ⟨d, hd, rfl⟩ := List.mem_map.mp hp
  rw [List.mem_range'_1] at hk hd
  simp only
  omega

theorem monthStart_december (y : Int) :
    monthStart (cycleYear y) 13 = if LeapYear y then 366 else 365 := by
  rw [monthStart_thirteen, yearLength_cycleYear]

theorem YearDate.yday_le (e : YearDate y) : e.yday ≤ (monthStart (cycleYear y) 13 : Nat) := by
  have hmonth := monthStart_lt_monthStart (cycleYear y) e.month_pos
    (show e.month < 13 by have := e.month_le; omega)
  have hday := e.day_le
  rw [daysIn_eq] at hday
  rw [e.yday_eq]
  omega

theorem YearDate.exists_yday {n : Nat} (hn : 1 ≤ n) (hle : n ≤ monthStart (cycleYear y) 13) :
    ∃ e : YearDate y, e.yday = n := by
  have hmem : n ∈ List.range' 1 (monthStart (cycleYear y) 13) := by
    rw [List.mem_range'_1]
    omega
  rw [← map_datesTo y 12] at hmem
  obtain ⟨p, hp, rfl⟩ := List.mem_map.mp hmem
  obtain ⟨⟨hpos, hle12⟩, hday, hdays⟩ := mem_datesTo hp
  exact ⟨⟨p.1, p.2, hpos, hle12, hday, hdays⟩, YearDate.yday_eq _⟩

theorem countP_lt_range' {n N : Nat} (hn : 1 ≤ n) (hle : n ≤ N + 1) :
    (List.range' 1 N).countP (fun k => k < n) + 1 = n := by
  obtain ⟨k, rfl⟩ : ∃ k, N = (n - 1) + k := ⟨N - (n - 1), by omega⟩
  rw [← List.range'_append_1, List.countP_append, List.countP_eq_length.mpr, List.countP_eq_zero.mpr,
    List.length_range']
  · omega
  · intro j hj
    rw [List.mem_range'_1] at hj
    simp only [decide_eq_true_eq]
    omega
  · intro j hj
    rw [List.mem_range'_1] at hj
    simp only [decide_eq_true_eq]
    omega

theorem YearDate.yday_eq_ordinal (e : YearDate y) : e.yday = e.ordinal := by
  have hle := e.yday_le
  have hpos := e.day_pos
  rw [e.yday_eq] at hle ⊢
  have hcount : (datesTo y 12).countP (fun p => p.1 < e.month ∨ p.1 = e.month ∧ p.2 < e.day) =
      (datesTo y 12).countP
        (fun p => monthStart (cycleYear y) p.1 + p.2 < monthStart (cycleYear y) e.month + e.day) := by
    apply List.countP_congr
    intro p hp
    obtain ⟨⟨hm, -⟩, hd, hdays⟩ := mem_datesTo hp
    simp only [decide_eq_true_eq]
    exact (number_lt_iff hm e.month_pos hd e.day_pos hdays e.day_le).symm
  have hrange := countP_lt_range' (N := monthStart (cycleYear y) 13)
    (show 1 ≤ monthStart (cycleYear y) e.month + e.day by omega) (by omega)
  rw [← map_datesTo y 12, List.countP_map] at hrange
  rw [YearDate.ordinal, hcount, Int.ofNat_inj]
  exact hrange.symm

/-- Consecutive dates have consecutive numbers: a gap would be the number of a date between. -/
theorem YearDate.yday_of_consecutive {e e' : YearDate y} (h : e.Consecutive e') :
    e'.yday = e.yday + 1 := by
  obtain ⟨hbefore, hbetween⟩ := h
  have hlt := (e.before_iff e').mp hbefore
  have hle := e'.yday_le
  by_contra hgap
  rw [e.yday_eq] at hlt hgap
  obtain ⟨x, hx⟩ := YearDate.exists_yday (y := y)
    (n := monthStart (cycleYear y) e.month + e.day + 1) (by omega) (by omega)
  refine hbetween x ⟨(e.before_iff x).mpr ?_, (x.before_iff e').mpr ?_⟩
  · rw [hx, e.yday_eq]
    omega
  · rw [hx]
    omega

/-- The dates of a year are numbered from 1 in their order, to 365 or 366. -/
theorem day_of_year (y : Int) :
    (∀ e : YearDate y, e.yday = e.ordinal) ∧
    (∀ e e' : YearDate y, e.Before e' → e.yday < e'.yday) ∧
    (∀ e e' : YearDate y, e.Consecutive e' → e'.yday = e.yday + 1) ∧
    IsGreatest (Set.range (YearDate.yday (y := y))) (if LeapYear y then 366 else 365) := by
  refine ⟨YearDate.yday_eq_ordinal, fun e e' => (e.before_iff e').mp,
    fun e e' => YearDate.yday_of_consecutive, ?_, ?_⟩
  · obtain ⟨e, he⟩ := YearDate.exists_yday (y := y) (n := monthStart (cycleYear y) 13)
      (by rw [monthStart_december]; split <;> omega) (Nat.le_refl _)
    refine ⟨e, ?_⟩
    rw [he, monthStart_december]
    split <;> rfl
  · rintro _ ⟨e, rfl⟩
    have hle := e.yday_le
    rw [monthStart_december] at hle
    split at hle
    · next hleap => rwa [if_pos hleap]
    · next hleap => rwa [if_neg hleap]

/-- The date of this month and day. -/
def YearDate.of (y : Int) (m d : Nat) (h : (1 ≤ m ∧ m ≤ 12) ∧ 1 ≤ d ∧ d ≤ daysIn y m) : YearDate y :=
  ⟨m, d, h.1.1, h.1.2, h.2.1, h.2.2⟩

/-- 29 February and 1 March of a leap year. -/
theorem day_of_year_leap_day :
    (YearDate.of 2024 3 1 (by decide)).yday = (YearDate.of 2024 2 29 (by decide)).yday + 1 ∧
      (YearDate.of 2024 2 29 (by decide)).yday < (YearDate.of 2024 3 1 (by decide)).yday := by
  have hbefore : (YearDate.of 2024 2 29 (by decide)).Before (.of 2024 3 1 (by decide)) :=
    .inl (by decide)
  have hnext : (YearDate.of 2024 2 29 (by decide)).Consecutive (.of 2024 3 1 (by decide)) := by
    refine ⟨hbefore, ?_⟩
    rintro x ⟨hx, hx'⟩
    have hday := x.day_pos
    have hdays := x.day_le
    simp only [YearDate.Before, YearDate.of] at hx hx'
    have hmonth : x.month = 2 := by omega
    rw [hmonth, show daysIn 2024 2 = 29 by decide] at hdays
    omega
  exact ⟨(day_of_year 2024).2.2.1 _ _ hnext, (day_of_year 2024).2.1 _ _ hbefore⟩

end Year

end BackupSoftware.Gps
