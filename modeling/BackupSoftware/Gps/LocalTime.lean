import BackupSoftware.Gps.Alignment
import BackupSoftware.Gps.Weekday

/-!
# Local time

`gps_get_tm` adds eight to the hours of a ZDA line and stores the rest of the date as
it is. The members of `struct gps_tm` are documented as those of `struct tm`, with hours
below 24, months from 0, years since 1900 and days of the year from 0.
-/

namespace BackupSoftware.Gps

open BackupSoftware.Library.Calendar BackupSoftware.Library.Strings

theorem leap_natCast (y : Nat) : leap y = if isLeap y then 1 else 0 := by
  have hmod (n : Nat) : (y : Int).tmod n ≠ 0 ↔ y % n ≠ 0 := by
    rw [show (y : Int).tmod n = ((y % n : Nat) : Int) from rfl]
    omega
  have h4 : (y : Int).tmod 4 ≠ 0 ↔ y % 4 ≠ 0 := hmod 4
  have h100 : (y : Int).tmod 100 ≠ 0 ↔ y % 100 ≠ 0 := hmod 100
  have h400 : (y : Int).tmod 400 ≠ 0 ↔ y % 400 ≠ 0 := hmod 400
  simp only [leap, h4, h100, h400, isLeap_iff]
  generalize y % 4 = r₄
  generalize y % 100 = r₁₀₀
  generalize y % 400 = r₄₀₀
  split_ifs <;> omega

theorem monthday_eq {y m : Nat} (h1 : 1 ≤ m) (h12 : m ≤ 12) :
    monthday m (leap y) = monthLength y m := by
  rw [leap_natCast]
  cases hleap : isLeap y with
  | true =>
    interval_cases m
    all_goals simp [monthday, monthLength, hleap]
  | false =>
    interval_cases m
    all_goals simp [monthday, monthLength, hleap]

/-- The loop adds the months before the month. -/
theorem months_before (y : Nat) {m : Nat} (h12 : m + 1 ≤ 12) :
    (List.range' 1 m).foldl (fun d k => d + monthday k (leap y)) 0 = monthStart y (m + 1) := by
  induction m with
  | zero => rfl
  | succ m ih =>
    rw [List.range'_concat, List.foldl_append, ih (by omega), List.foldl_cons, List.foldl_nil,
      Nat.one_mul, Nat.add_comm 1 m, monthday_eq (by omega) (by omega),
      monthStart_succ y (show 1 ≤ m + 1 by omega)]
    rfl

/-- The number depends on the year only through the leap rule. -/
theorem getYday_eq_monthStart {y : Int} {n : Nat} (hleap : leap y = leap n) {m : Nat} (hm : 1 ≤ m)
    (h12 : m ≤ 12) (d : Nat) : getYday y m d = (monthStart n m + d : Nat) := by
  have hmonths := months_before n (m := m - 1) (by omega)
  rw [show m - 1 + 1 = m by omega] at hmonths
  rw [getYday, show ((m : Int) - 1).toNat = m - 1 by omega, hleap, hmonths]
  omega

/-- The day of the year is counted from 1. -/
theorem getYday_eq (d : Date) : getYday d.year d.month d.day = d.ordinal + 1 := by
  have hday := d.day_pos
  rw [getYday_eq_monthStart rfl d.month_pos d.month_le, Date.ordinal]
  omega

/-- A time in UTC that a line can spell. -/
structure Utc where
  date : Date
  hour : Nat
  min : Nat
  sec : Nat
  year_lt : date.year < 10000
  hour_lt : hour < 24
  min_lt : min < 60
  sec_lt : sec < 60

/-- The time on a date with this hour, minute and second. -/
def Utc.of (date : Date) (hour min sec : Nat)
    (h : (date.year < 10000 ∧ hour < 24) ∧ min < 60 ∧ sec < 60) : Utc :=
  ⟨date, hour, min, sec, h.1.1, h.1.2, h.2.1, h.2.2⟩

def twoDigits (n : Nat) : List UInt8 := [n / 10, n % 10].map digit

def fourDigits (n : Nat) : List UInt8 := [n / 1000, n / 100 % 10, n / 10 % 10, n % 10].map digit

theorem twoDigits_ne_nil (n : Nat) : twoDigits n ≠ [] := List.cons_ne_nil _ _

theorem fourDigits_ne_nil (n : Nat) : fourDigits n ≠ [] := List.cons_ne_nil _ _

/-- Hours, minutes and seconds with their fraction. -/
def Utc.timeOfDay (u : Utc) (fraction : List UInt8) : List UInt8 :=
  twoDigits u.hour ++ (twoDigits u.min ++ (twoDigits u.sec ++ fraction))

/-- The line has no empty field, and the first four spell the time of day and the day, month and
year. -/
structure Carries (u : Utc) (l : ZdaLine) (fraction : List UInt8) (zone : List (List UInt8)) :
    Prop where
  fields : l.fields = u.timeOfDay fraction ::
    twoDigits u.date.day :: twoDigits u.date.month :: fourDigits u.date.year :: zone
  zone : ∀ f ∈ zone, f ≠ []

/-- A string of digits is the number that they spell. -/
theorem atoi_map_digit {ns : List Nat} (hne : ns ≠ []) (hlt : ∀ n ∈ ns, n < 10) :
    atoi (ns.map digit) = (ns.foldl (fun v n => 10 * v + n) 0 : Nat) := by
  rw [← List.append_nil (ns.map digit)]
  exact atoi_digits hne hlt (fun c s h => by cases h)

theorem atoi_twoDigits {n : Nat} (hn : n < 100) : atoi (twoDigits n) = n := by
  rw [twoDigits, atoi_map_digit (List.cons_ne_nil _ _)]
  · simp only [List.foldl_cons, List.foldl_nil]
    omega
  · simp only [List.forall_mem_cons]
    exact ⟨by omega, by omega, by simp⟩

theorem atoi_fourDigits {n : Nat} (hn : n < 10000) : atoi (fourDigits n) = n := by
  rw [fourDigits, atoi_map_digit (List.cons_ne_nil _ _)]
  · simp only [List.foldl_cons, List.foldl_nil]
    omega
  · simp only [List.forall_mem_cons]
    exact ⟨by omega, by omega, by omega, by omega, by simp⟩

/-- The members are taken from the tokens. -/
theorem tm_tokens (behind : Nat → UInt8) (l : ZdaLine) {t₁ t₂ t₃ t₄ : List UInt8}
    {r₁ r₂ r₃ r₄ : List (List UInt8)} (h₁ : l.fields.dropWhile List.isEmpty = t₁ :: r₁)
    (h₂ : r₁.dropWhile List.isEmpty = t₂ :: r₂) (h₃ : r₂.dropWhile List.isEmpty = t₃ :: r₃)
    (h₄ : r₃.dropWhile List.isEmpty = t₄ :: r₄) (htime : 4 ≤ t₁.length) (tm : GpsTm) :
    gpsGetTm behind (some l.text) tm = (wday (atoi t₂) (atoi t₃) (atoi t₄)).map fun tmWday =>
      (gpsEok, ⟨atoi ((t₁.drop 4).take 2), atoi ((t₁.drop 2).take 2), atoi (t₁.take 2) + 8, atoi t₂,
        atoi t₃, atoi t₄, tmWday, getYday (atoi t₄) (atoi t₃) (atoi t₂)⟩) := by
  obtain ⟨hfree, hparse⟩ := parseLine_tokens l h₁ h₂ h₃ h₄ _ _ _ _ _ tm
  simp only [List.forall_mem_cons] at hfree
  rw [gpsGetTm, tmLinks, hparse]
  simp only [token_field hfree.2.1, token_field hfree.2.2.1, token_field hfree.2.2.2.1,
    twoChars_token behind hfree.1 (Nat.zero_le _),
    twoChars_token behind hfree.1 (show 2 ≤ t₁.length by omega),
    twoChars_token behind hfree.1 htime, Option.bind_some, if_true, List.drop_zero]

/-- What the call stores for a line that carries a time. -/
theorem gpsGetTm_carried {u : Utc} {l : ZdaLine} {fraction : List UInt8}
    {zone : List (List UInt8)} (h : Carries u l fraction zone) (behind : Nat → UInt8) (tm : GpsTm) :
    ∃ w, gpsGetTm behind (some l.text) tm = some (gpsEok,
      ⟨u.sec, u.min, u.hour + 8, u.date.day, u.date.month, u.date.year, w, u.date.ordinal + 1⟩) := by
  have hmonth := u.date.month_le
  have hday := day_le_31 u.date
  have hyear := u.year_lt
  have hfits : largestSum u.date.day u.date.month u.date.year < 2147483648 := by
    unfold largestSum startSum
    omega
  have hmin := u.min_lt
  have hsec := u.sec_lt
  have hhour := u.hour_lt
  have hlong : 4 ≤ (u.timeOfDay fraction).length := Nat.le_add_left 4 _
  have htake : (u.timeOfDay fraction).take 2 = twoDigits u.hour := rfl
  have hdrop2 : ((u.timeOfDay fraction).drop 2).take 2 = twoDigits u.min := rfl
  have hdrop4 : ((u.timeOfDay fraction).drop 4).take 2 = twoDigits u.sec := rfl
  have hfirst := congrArg (List.dropWhile List.isEmpty) h.fields
  rw [dropWhile_field (List.ne_nil_of_length_pos (by omega))] at hfirst
  rw [tm_tokens behind l hfirst (dropWhile_field (twoDigits_ne_nil _) _)
    (dropWhile_field (twoDigits_ne_nil _) _) (dropWhile_field (fourDigits_ne_nil _) _) hlong tm,
    htake, hdrop2, hdrop4, atoi_twoDigits (show u.hour < 100 by omega),
    atoi_twoDigits (show u.min < 100 by omega), atoi_twoDigits (show u.sec < 100 by omega),
    atoi_twoDigits (show u.date.day < 100 by omega),
    atoi_twoDigits (show u.date.month < 100 by omega), atoi_fourDigits u.year_lt, getYday_eq,
    wday_of_lt hday hmonth hfits]
  exact ⟨_, rfl⟩

/-- The date eight hours later. -/
def Utc.localDate (u : Utc) : Date := if u.hour + 8 < 24 then u.date else u.date.next

def Utc.localHour (u : Utc) : Nat := (u.hour + 8) % 24

/-- The members of the structure as they are documented, for the time eight hours later. -/
structure LocalTm (u : Utc) (tm : GpsTm) : Prop where
  sec : tm.tmSec = u.sec
  min : tm.tmMin = u.min
  hour : tm.tmHour = u.localHour
  mday : tm.tmMday = u.localDate.day
  mon : tm.tmMon = u.localDate.month - 1
  year : tm.tmYear = u.localDate.year - 1900
  wday : tm.tmWday = (u.localDate.weekday % 7 : Nat)
  yday : tm.tmYday = u.localDate.ordinal

theorem localHour_eq_iff (u : Utc) : u.hour + 8 = u.localHour ↔ u.hour < 16 := by
  have hhour := u.hour_lt
  unfold Utc.localHour
  omega

/-- The date is that of the line exactly if the eight hours stay in the day. -/
theorem localDate_day_eq_iff (u : Utc) : u.date.day = u.localDate.day ↔ u.hour < 16 := by
  unfold Utc.localDate
  split
  · next hsame => exact iff_of_true rfl (by omega)
  · next hlater => exact iff_of_false (day_next_ne u.date).symm (by omega)

theorem localDate_year_le (u : Utc) : u.localDate.year ≤ u.date.year + 1 := by
  unfold Utc.localDate
  split
  · omega
  · exact year_next_le u.date

/-- The call succeeds with seconds and minutes that are right. The hour and the day of the month are
right exactly for a time before 16:00, and the year never is, so that the structure is never that
of the time eight hours later. -/
theorem local_time_never {u : Utc} {l : ZdaLine} {fraction : List UInt8}
    {zone : List (List UInt8)} (h : Carries u l fraction zone) (behind : Nat → UInt8) (tm : GpsTm) :
    ∃ tm', gpsGetTm behind (some l.text) tm = some (gpsEok, tm') ∧
      tm'.tmSec = u.sec ∧ tm'.tmMin = u.min ∧
      (tm'.tmHour = u.localHour ↔ u.hour < 16) ∧ (tm'.tmMday = u.localDate.day ↔ u.hour < 16) ∧
      tm'.tmYear ≠ u.localDate.year - 1900 ∧ ¬ LocalTm u tm' := by
  have hhour := localHour_eq_iff u
  have hday := localDate_day_eq_iff u
  have hyear := localDate_year_le u
  obtain ⟨w, hparse⟩ := gpsGetTm_carried h behind tm
  refine ⟨_, hparse, rfl, rfl, ?_, ?_, ?_, ?_⟩
  · simp only
    omega
  · simp only
    omega
  · simp only
    omega
  · intro hlocal
    have := hlocal.year
    simp only at this
    omega

/-- 12:34:56 on 9 August 2013. -/
def augustNoon : Utc := .of (.of 2013 8 9 (by decide)) 12 34 56 (by decide)

/-- The line `$GPZDA,123456.00,09,08,2013,00,00*60`. -/
def augustLine : ZdaLine :=
  gpzda [[49, 50, 51, 52, 53, 54, 46, 48, 48], [48, 57], [48, 56], [50, 48, 49, 51], [48, 48],
    [48, 48, 42, 54, 48]] (by decide +kernel) (by decide)

theorem local_time_never_august :
    ∃ tm', gpsGetTm (fun _ => 0) (some augustLine.text) ⟨0, 0, 0, 0, 0, 0, 0, 0⟩ =
        some (gpsEok, tm') ∧ ¬ LocalTm augustNoon tm' := by
  have hcarries : Carries augustNoon augustLine [46, 48, 48] [[48, 48], [48, 48, 42, 54, 48]] :=
    ⟨by decide, by decide⟩
  obtain ⟨tm', hparse, -, -, -, -, -, hlocal⟩ :=
    local_time_never hcarries (fun _ => 0) ⟨0, 0, 0, 0, 0, 0, 0, 0⟩
  exact ⟨tm', hparse, hlocal⟩

/-- 16:00:00 on 31 December 2013, the first instant of 2014 eight hours east. -/
def yearEnd : Utc := .of (.of 2013 12 31 (by decide)) 16 0 0 (by decide)

/-- The line `$GPZDA,160000.00,31,12,2013,00,00*60`. -/
def yearEndLine : ZdaLine :=
  gpzda [[49, 54, 48, 48, 48, 48, 46, 48, 48], [51, 49], [49, 50], [50, 48, 49, 51], [48, 48],
    [48, 48, 42, 54, 48]] (by decide +kernel) (by decide)

/-- The line gives the hour 24 of 31 December, with the month 12, the year 2013 and day 365. -/
theorem year_end_not_carried :
    Carries yearEnd yearEndLine [46, 48, 48] [[48, 48], [48, 48, 42, 54, 48]] ∧
      gpsGetTm (fun _ => 0) (some yearEndLine.text) ⟨0, 0, 0, 0, 0, 0, 0, 0⟩ =
        some (gpsEok, ⟨0, 0, 24, 31, 12, 2013, 2, 365⟩) ∧
      ¬ LocalTm yearEnd ⟨0, 0, 24, 31, 12, 2013, 2, 365⟩ := by
  refine ⟨⟨by decide, by decide⟩, by decide, ?_⟩
  intro h
  exact absurd h.hour (by decide)

end BackupSoftware.Gps
