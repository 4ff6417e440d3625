import Mathlib.Tactic.IntervalCases
import BackupSoftware.Gps.Parsers
import BackupSoftware.Library.Calendar

/-!
# The day of the week

The expression for `tm_wday` counts January and February as the months 1 and 2. It is
right only if they count as the months 13 and 14 of the year before, so it is wrong in
these two months and right in all others, as long as its sums are in the range of `int`.
-/

namespace BackupSoftware.Gps

open BackupSoftware.Library.Calendar

theorem intResult_of_lt {x : Int} {n : Nat} (hx : x = n) (hn : n < 2147483648) :
    intResult x = some (n : Int) := by
  subst hx
  exact if_pos (by omega)

theorem intResult_of_le {x : Int} (hx : 2147483648 ≤ x) : intResult x = none :=
  if_neg (by omega)

/-- The part of the sum that the day and the month make. -/
def startSum (mday mon : Nat) : Nat := mday + 2 * mon + 3 * (mon + 1) / 5

/-- The operations up to that part stay in the range. -/
theorem wday_start {mday mon : Nat} (hmday : mday ≤ 31) (hmon : mon ≤ 12) (year : Int) :
    wday mday mon year =
      (intResult (startSum mday mon + year)).bind fun sum =>
        (intResult (sum + year.tdiv 4)).bind fun sum =>
          (intResult (sum - year.tdiv 100)).bind fun sum =>
            (intResult (sum + year.tdiv 400)).bind fun sum => some (sum.tmod 7 + 1) := by
  have hmonths : intResult (2 * mon) = some ((2 * mon : Nat) : Int) :=
    intResult_of_lt (by omega) (by omega)
  have hdays : intResult (mday + (2 * mon : Nat)) = some ((mday + 2 * mon : Nat) : Int) :=
    intResult_of_lt (by omega) (by omega)
  have hnext : intResult (mon + 1) = some ((mon + 1 : Nat) : Int) :=
    intResult_of_lt (by omega) (by omega)
  have hthree : intResult (3 * (mon + 1 : Nat)) = some ((3 * (mon + 1) : Nat) : Int) :=
    intResult_of_lt (by omega) (by omega)
  have hfifths : intResult ((mday + 2 * mon : Nat) + ((3 * (mon + 1) : Nat) : Int).tdiv 5) =
      some (startSum mday mon : Int) := by
    refine intResult_of_lt ?_ (by unfold startSum; omega)
    rw [show ((3 * (mon + 1) : Nat) : Int).tdiv 5 = (3 * (mon + 1) / 5 : Nat) from rfl, startSum]
    omega
  unfold wday
  simp only [Option.bind_eq_bind]
  rw [hmonths, Option.bind_some, hdays, Option.bind_some, hnext, Option.bind_some, hthree,
    Option.bind_some, hfifths, Option.bind_some]

/-- The largest of the sums, from which the centuries are taken away. -/
def largestSum (mday mon year : Nat) : Nat := startSum mday mon + year + year / 4

/-- The expression on natural numbers, for which the division of C is that of `Nat`. -/
theorem wday_of_lt {mday mon year : Nat} (hmday : mday ≤ 31) (hmon : mon ≤ 12)
    (hsum : largestSum mday mon year < 2147483648) :
    wday mday mon year = some (((startSum mday mon + year + leapCount year) % 7 + 1 : Nat) : Int) := by
  unfold largestSum at hsum
  have h100 : year / 400 ≤ year / 100 ∧ year / 100 ≤ year / 4 := by omega
  have hyear : intResult (startSum mday mon + year) = some ((startSum mday mon + year : Nat) : Int) :=
    intResult_of_lt (by omega) (by omega)
  have hfour : intResult ((startSum mday mon + year : Nat) + (year : Int).tdiv 4) =
      some ((startSum mday mon + year + year / 4 : Nat) : Int) := by
    refine intResult_of_lt ?_ hsum
    rw [show (year : Int).tdiv 4 = (year / 4 : Nat) from rfl]
    omega
  have hcentury : intResult ((startSum mday mon + year + year / 4 : Nat) - (year : Int).tdiv 100) =
      some ((startSum mday mon + year + year / 4 - year / 100 : Nat) : Int) := by
    refine intResult_of_lt ?_ (by omega)
    rw [show (year : Int).tdiv 100 = (year / 100 : Nat) from rfl]
    omega
  have hleap : intResult ((startSum mday mon + year + year / 4 - year / 100 : Nat) +
      (year : Int).tdiv 400) = some ((startSum mday mon + year + leapCount year : Nat) : Int) := by
    refine intResult_of_lt ?_ (by unfold leapCount; omega)
    rw [show (year : Int).tdiv 400 = (year / 400 : Nat) from rfl, leapCount]
    omega
  rw [wday_start hmday hmon, hyear, Option.bind_some, hfour, Option.bind_some, hcentury,
    Option.bind_some, hleap, Option.bind_some]
  rfl

theorem wday_of_le {mday mon year : Nat} (hmday : mday ≤ 31) (hmon : mon ≤ 12)
    (hsum : 2147483648 ≤ largestSum mday mon year) : wday mday mon year = none := by
  unfold largestSum at hsum
  rw [wday_start hmday hmon]
  by_cases hyear : startSum mday mon + year < 2147483648
  · have hfour : intResult ((startSum mday mon + year : Nat) + (year : Int).tdiv 4) = none := by
      refine intResult_of_le ?_
      rw [show (year : Int).tdiv 4 = (year / 4 : Nat) from rfl]
      omega
    rw [intResult_of_lt (Int.natCast_add _ _).symm hyear, Option.bind_some, hfour,
      Option.bind_none]
  · have hlarge : intResult (startSum mday mon + year) = none := intResult_of_le (by omega)
    rw [hlarge, Option.bind_none]

/-- By how many days the expression is ahead of the calendar. -/
def offset (y m : Nat) : Nat :=
  if m = 1 then 5 + (if isLeap y then 1 else 0)
  else if m = 2 then 4 + (if isLeap y then 1 else 0)
  else 0

/-- The part of the expression that depends on the month against the days before the month. -/
theorem month_offset (y : Nat) {m : Nat} (h1 : 1 ≤ m) (h12 : m ≤ 12) :
    (2 * m + 3 * (m + 1) / 5 + 2 + if isLeap y then 1 else 0) % 7 =
      (monthStart y m + offset y m) % 7 := by
  cases hleap : isLeap y with
  | true =>
    interval_cases m
    all_goals simp [monthStart, monthLength, offset, hleap]
  | false =>
    interval_cases m
    all_goals simp [monthStart, monthLength, offset, hleap]

/-- The sums for the date are in the range of `int`. -/
def Fits (d : Date) : Prop := largestSum d.day d.month d.year < 2147483648

theorem day_le_31 (d : Date) : d.day ≤ 31 :=
  d.day_le.trans (monthLength_bounds d.year d.month).2

theorem wday_of_not_fits {d : Date} (h : ¬ Fits d) : wday d.day d.month d.year = none :=
  wday_of_le (day_le_31 d) d.month_le (Nat.not_lt.mp h)

theorem wday_offset {d : Date} (h : Fits d) :
    ∃ w, wday d.day d.month d.year = some w ∧
      w % 7 = ((d.weekday + offset d.year d.month : Nat) : Int) % 7 := by
  have hyear := d.year_pos
  have hday := d.day_pos
  obtain ⟨k, hk⟩ : ∃ k, d.year = k + 1 := ⟨d.year - 1, by omega⟩
  have hmonth := month_offset d.year d.month_pos d.month_le
  have hleaps := leapCount_succ k
  refine ⟨_, wday_of_lt (day_le_31 d) d.month_le h, ?_⟩
  rw [startSum, Date.weekday, Date.number, hk, yearStart_eq, hleaps, ← hk]
  generalize (if isLeap d.year = true then 1 else 0) = leaps at *
  generalize monthStart d.year d.month = before at *
  generalize offset d.year d.month = off at *
  omega

theorem offset_of_le {y m : Nat} (h3 : 3 ≤ m) : offset y m = 0 := by
  rw [offset, if_neg (by omega), if_neg (by omega)]

/-- The offset of January is 5 or 6, and that of February one less. -/
theorem offset_january (y : Nat) : 5 ≤ offset y 1 ∧ offset y 1 ≤ 6 ∧ offset y 2 + 1 = offset y 1 := by
  simp only [offset]
  cases isLeap y <;> decide

/-- There is a value, and it is the day of the week, up to multiples of seven. -/
def RightWeekday (d : Date) : Prop :=
  ∃ w, wday d.day d.month d.year = some w ∧ w % 7 = (d.weekday : Int) % 7

/-- There are values for the date and for the next one, and the second is the first and one, up to
multiples of seven. -/
def Advances (d : Date) : Prop :=
  ∃ w w', wday d.day d.month d.year = some w ∧
    wday d.next.day d.next.month d.next.year = some w' ∧ w' % 7 = (w + 1) % 7

theorem rightWeekday_iff (d : Date) : RightWeekday d ↔ 3 ≤ d.month ∧ Fits d := by
  have hmonth := d.month_pos
  have hjanuary := offset_january d.year
  by_cases hfits : Fits d
  · obtain ⟨w, hw, hvalue⟩ := wday_offset hfits
    rw [and_iff_left hfits]
    constructor
    · intro h
      obtain ⟨w', hw', hright⟩ := h
      rw [hw] at hw'
      cases hw'
      by_contra hearly
      rcases (show d.month = 1 ∨ d.month = 2 by omega) with hm | hm
      · rw [hm] at hvalue
        omega
      · rw [hm] at hvalue
        omega
    · intro h
      rw [offset_of_le h, Nat.add_zero] at hvalue
      exact ⟨w, hw, hvalue⟩
  · refine iff_of_false ?_ fun h => hfits h.2
    intro h
    obtain ⟨w, hw, -⟩ := h
    rw [wday_of_not_fits hfits] at hw
    cases hw

theorem advances_iff_offset (d : Date) :
    Advances d ↔ offset d.next.year d.next.month % 7 = offset d.year d.month % 7 ∧
      Fits d ∧ Fits d.next := by
  have hnext := weekday_next d
  by_cases hfits : Fits d ∧ Fits d.next
  · obtain ⟨w, hw, hvalue⟩ := wday_offset hfits.1
    obtain ⟨w', hw', hvalue'⟩ := wday_offset hfits.2
    rw [and_iff_left hfits]
    constructor
    · intro h
      obtain ⟨v, v', hv, hv', hadvance⟩ := h
      rw [hw] at hv
      rw [hw'] at hv'
      cases hv
      cases hv'
      omega
    · intro h
      exact ⟨w, w', hw, hw', by omega⟩
  · refine iff_of_false ?_ fun h => hfits h.2
    intro h
    obtain ⟨v, v', hv, hv', -⟩ := h
    rcases not_and_or.mp hfits with hnot | hnot
    · rw [wday_of_not_fits hnot] at hv
      cases hv
    · rw [wday_of_not_fits hnot] at hv'
      cases hv'

theorem offset_next_iff (d : Date) :
    offset d.next.year d.next.month % 7 = offset d.year d.month % 7 ↔
      d.next.month = d.month ∨ (3 ≤ d.month ∧ d.month < 12) := by
  have hpos := d.month_pos
  have hjanuary := offset_january d.year
  unfold Date.next
  split
  · exact iff_of_true rfl (Or.inl rfl)
  · split
    · next hmonth =>
      show offset d.year (d.month + 1) % 7 = _ ↔ d.month + 1 = d.month ∨ _
      by_cases h3 : 3 ≤ d.month
      · rw [offset_of_le h3, offset_of_le (by omega)]
        exact iff_of_true rfl (Or.inr ⟨h3, hmonth⟩)
      · refine iff_of_false ?_ (by omega)
        rcases (show d.month = 1 ∨ d.month = 2 by omega) with hm | hm
        · rw [hm, show 1 + 1 = 2 from rfl]
          omega
        · rw [hm, offset_of_le (show 3 ≤ 2 + 1 by omega)]
          omega
    · next hmonth =>
      have hnext := offset_january (d.year + 1)
      show offset (d.year + 1) 1 % 7 = _ ↔ 1 = d.month ∨ _
      refine iff_of_false ?_ (by omega)
      rw [offset_of_le (show 3 ≤ d.month by omega)]
      omega

/-- The expression gives the day of the week exactly from March on, for a year whose sums are in
the range of `int`. With such sums it grows by one to the next date except from the last day of
December, January and February. -/
theorem weekday_formula_iff (d : Date) :
    (RightWeekday d ↔ 3 ≤ d.month ∧ Fits d) ∧
      (Advances d ↔ (d.next.month = d.month ∨ (3 ≤ d.month ∧ d.month < 12)) ∧
        Fits d ∧ Fits d.next) := by
  refine ⟨rightWeekday_iff d, ?_⟩
  rw [advances_iff_offset, offset_next_iff]

/-- 1 January 2013, a Tuesday, for which the value is that of a Sunday. -/
def newYear2013 : Date := .of 2013 1 1 (by decide)

theorem weekday_formula_january :
    wday newYear2013.day newYear2013.month newYear2013.year = some 7 ∧ newYear2013.weekday = 2 ∧
      ¬ RightWeekday newYear2013 := by
  have hvalue : wday newYear2013.day newYear2013.month newYear2013.year = some 7 := by decide
  have hnumber : newYear2013.weekday = 2 := by
    rw [Date.weekday, Date.number, show newYear2013.year = 2012 + 1 from rfl, yearStart_eq]
    decide
  refine ⟨hvalue, hnumber, ?_⟩
  intro h
  obtain ⟨w, hw, hright⟩ := h
  rw [hvalue] at hw
  cases hw
  rw [hnumber] at hright
  exact absurd hright (by decide)

/-- The 4G module puts the years since 1900 into the same expression. For its two-digit years,
which stand for 2000 to 2099, the value is never the day of the week. -/
theorem wday_years_since_1900 (d : Date) (h2000 : 2000 ≤ d.year) (h2099 : d.year ≤ 2099) :
    ∃ w, wday d.day d.month (d.year - 1900 : Nat) = some w ∧ w % 7 ≠ (d.weekday : Int) % 7 := by
  have hmonth_le := d.month_le
  have hday_le := day_le_31 d
  have hfits : Fits d := by
    unfold Fits largestSum startSum
    omega
  have hleaps : leapCount d.year = leapCount (d.year - 1900) + 461 := by
    unfold leapCount
    omega
  have hmonth : offset d.year d.month = 0 ∨ 4 ≤ offset d.year d.month ∧ offset d.year d.month ≤ 6 := by
    have hpos := d.month_pos
    have hjanuary := offset_january d.year
    by_cases h3 : 3 ≤ d.month
    · exact Or.inl (offset_of_le h3)
    · rcases (show d.month = 1 ∨ d.month = 2 by omega) with hm | hm
      · rw [hm]
        omega
      · rw [hm]
        omega
  obtain ⟨w, hw, hoff⟩ := wday_offset hfits
  rw [wday_of_lt hday_le hmonth_le hfits, hleaps] at hw
  cases hw
  refine ⟨_, wday_of_lt hday_le hmonth_le ?_, ?_⟩
  · unfold largestSum startSum
    omega
  · omega

end BackupSoftware.Gps
